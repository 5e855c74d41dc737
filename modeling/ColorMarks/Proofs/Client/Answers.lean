import ColorMarks.Proofs.Client.Delivery
import ColorMarks.Proofs.Client.Order
import ColorMarks.Proofs.Client.Response

/-!
# Replies to the requests of a server

A request is answered when it is taken, whether that is in a handshake, while the client runs or in a
shutdown, provided that its identifier is an integer from `0` to `2 ^ 64 - 1` (`isAnswerable`). Nothing
else is answered: the messages without a method that are written on a connection are the replies to
these requests, one for each and in their order (`answers_of_run`). A request with another identifier is
taken and gets no reply (`no_reply_to_text_identifier`).
-/

namespace ColorMarks

open ColorMarks.Frame (Arrival)

namespace Connection

/-- Whether a message is a request whose identifier is an integer from `0` to `2 ^ 64 - 1`. -/
def isAnswerable (m : Json) : Bool := isRequest m && ((m.get? "id").bind Json.asNat64?).isSome

/--
The messages without a method among some messages are replies to the first requests that were taken and
can be answered, one for each in their order; to all of them while the writer goes on.
-/
def Answers (c : Connection) (messages : List Json) : Prop :=
  ∃ answered, answered <+: c.taken.filter isAnswerable ∧
    List.Forall₂ (IsReply c.folders) answered (messages.filter fun m => !hasMethod m) ∧
    (c.writing = true → answered = c.taken.filter isAnswerable)

/-! ## What sending changes -/

theorem handed_send (c : Connection) (m : Json) :
    (c.send m).1.handed = if c.writing then c.handed ++ [m] else c.handed := by
  unfold send
  by_cases hw : c.writing = true
  · rw [if_pos hw, if_pos hw]
    cases c.hinders? <;> simp [handed, record]
  · rw [if_neg hw, if_neg hw]

@[simp] theorem folders_send (c : Connection) (m : Json) : (c.send m).1.folders = c.folders := by
  unfold send
  split
  · split <;> rfl
  · rfl

/-- A writer that goes on after a message went on before it. -/
theorem writing_of_send {c : Connection} {m : Json} (h : (c.send m).1.writing = true) :
    c.writing = true := by
  by_cases hw : c.writing = true
  · exact hw
  · rwa [send, if_neg hw] at h

/-! ## Steps -/

/-- What the client tells or asks is no reply. -/
theorem Answers.send {c : Connection} (h : c.Answers c.handed) {m : Json}
    (hm : hasMethod m = true) : (c.send m).1.Answers (c.send m).1.handed := by
  obtain ⟨answered, hfirst, hreplies, hall⟩ := h
  refine ⟨answered, by rwa [taken_send], ?_, ?_⟩
  · rw [handed_send, folders_send]
    split
    · simpa [hm] using hreplies
    · exact hreplies
  · rw [taken_send]
    exact fun hw => hall (writing_of_send hw)

/-- An arrival that cannot be answered changes nothing about the replies. -/
theorem Answers.record {c : Connection} (h : c.Answers c.handed) {a : Arrival}
    (ha : (Frame.Arrival.messages [a]).filter isAnswerable = []) :
    (c.record (.received a)).Answers (c.record (.received a)).handed := by
  obtain ⟨answered, hfirst, hreplies, hall⟩ := h
  have htaken : (c.record (.received a)).taken.filter isAnswerable =
      c.taken.filter isAnswerable := by
    rw [taken_record_received, List.filter_append, ha, List.append_nil]
  have hhanded : (c.record (.received a)).handed = c.handed := by
    simp [handed, Connection.record]
  refine ⟨answered, by rwa [htaken], ?_, by rwa [htaken]⟩
  rw [hhanded]
  exact hreplies

/-- A request is answered as soon as it is taken, unless the writer stopped. -/
theorem Answers.answer {c : Connection} (h : c.Answers c.handed) {m : Json}
    (hm : isRequest m = true) :
    let d := ((c.record (.received (.message m))).answer m).1
    d.Answers d.handed := by
  cases hid : (m.get? "id").bind Json.asNat64? with
  | none =>
    have hanswerable : isAnswerable m = false := by simp [isAnswerable, hid]
    have hrecord := h.record (a := .message m) (by simp [Frame.Arrival.messages, hanswerable])
    simpa only [Connection.answer, hid] using hrecord
  | some id =>
    obtain ⟨answered, hfirst, hreplies, hall⟩ := h
    have hanswerable : isAnswerable m = true := by simp [isAnswerable, hm, hid]
    have htaken : (c.taken ++ [m]).filter isAnswerable = c.taken.filter isAnswerable ++ [m] := by
      simp [hanswerable]
    have hrecord : (c.record (.received (.message m))).handed = c.handed := by
      simp [handed, Connection.record]
    simp only [Connection.answer, hid, respond]
    unfold Answers
    rw [taken_send, taken_record_received, folders_send, handed_send, hrecord]
    simp only [Frame.Arrival.messages, List.filterMap_cons, List.filterMap_nil, htaken]
    by_cases hw : c.writing = true
    · have hw' : (c.record (.received (.message m))).writing = true := hw
      refine ⟨c.taken.filter isAnswerable ++ [m], List.prefix_rfl, ?_, fun _ => rfl⟩
      rw [if_pos hw', List.filter_append]
      rw [hall hw] at hreplies
      exact List.rel_append hreplies (.cons (isReply_responseOf hid) .nil)
    · -- without a writer no reply is promised, so the ones so far are enough
      have hw' : ¬ (c.record (.received (.message m))).writing = true := hw
      refine ⟨answered, hfirst.trans (List.prefix_append _ _), ?_, ?_⟩
      · rwa [if_neg hw']
      · exact fun hsent => absurd (writing_of_send hsent) hw'

theorem Answers.attend {c : Connection} (h : c.Answers c.handed) (a : Arrival) :
    (c.attend a).Answers (c.attend a).handed := by
  cases a with
  | message m =>
    cases hm : isRequest m with
    | true =>
      rw [attend_of_isRequest c hm]
      exact h.answer hm
    | false =>
      rw [attend_of_not_isRequest c hm]
      exact h.record (by simp [Frame.Arrival.messages, isAnswerable, hm])
  | failed text => exact h.record rfl
  | closed => exact h.record rfl

theorem Answers.step {c c' : Connection} (h : c.Answers c.handed) (hstep : c.Step c') :
    c'.Answers c'.handed := by
  cases hstep with
  | @taken a rest hc => exact Answers.attend (c := { c with inbound := rest }) h a
  | told hm => exact h.send hm
  | numbered => exact h

/-- What was written answers as well as what was handed over, as far as it goes. -/
theorem Answers.sent {c : Connection} (h : c.Answers c.handed) (hc : c.Faithful) :
    c.Answers c.sent := by
  by_cases hw : c.writing = true
  · rwa [hc.alive hw]
  · obtain ⟨answered, hfirst, hreplies, -⟩ := h
    obtain ⟨lost, hlost⟩ := hc.sent
    rw [← hlost, List.filter_append] at hreplies
    exact ⟨_, (List.take_prefix _ _).trans hfirst, List.forall₂_take_append _ _ _ hreplies,
      fun hw' => absurd hw' hw⟩

end Connection

namespace Client

theorem isKept_answers : IsKept (fun _ k => k.Answers k.handed) (fun _ k => k.Answers k.handed) where
  opening := fun _ => ⟨[], List.prefix_rfl, .nil, fun _ => rfl⟩
  arrive := fun _ _ h => h
  step := fun h hstep => h.step hstep
  past := fun _ h => h

/--
On every connection of every run the messages that are taken are the first ones that arrived, and what
is written without a method are the replies to the requests among them that can be answered.
-/
theorem answers_of_run (id name : String) (host : Host) (server : ServerOptions)
    (options : ClientOptions) (workspace : Option String) (actions : List Action) :
    let c := Client.new id name host server options workspace
    List.Forall₂ (fun arrived conn => conn.taken <+: arrived ∧ conn.Answers conn.sent)
      (c.deliveries actions) (c.run actions).connections := by
  intro c
  have hkept := forall₂_deliveries (isKept_taken.and isKept_answers) id name host server options
    workspace actions
  have hfaithful := (keepsOrder_run id name host server options workspace actions).faithful
  have hboth := (List.forall₂_and_left _ _).2 ⟨hfaithful, hkept.flip⟩
  refine (hboth.imp ?_).flip
  rintro conn arrived ⟨hconn, htaken, hanswers⟩
  exact ⟨htaken, hanswers.sent hconn⟩

/-- A request whose identifier is a text is taken while the writer goes on, and gets no reply. -/
theorem no_reply_to_text_identifier :
    let request : Json := .object [("id", .string "a"), Connection.version,
      ("method", .string "workspace/configuration"), ("params", .object [("items", .array [])])]
    let c := (Client.new "client" "Client" {} (ServerOptions.ofModule "server" none)
      ⟨[⟨none, none⟩], ⟨[]⟩, 1, 1⟩ none).run
        [.attach { inbound := [.message (Connection.responseOf 1 .null), .message request] }, .poll]
    ∃ conn ∈ c.connections, conn.writing = true ∧
      conn.taken = [Connection.responseOf 1 .null, request] ∧
      Connection.isRequest request = true ∧ request.get? "id" = some (.string "a") ∧
      ∀ m ∈ conn.sent, (m.get? "id").bind Json.asString? ≠ some "a" :=
  ⟨_, List.mem_cons_self, rfl, rfl, rfl, rfl, by decide⟩

end Client

end ColorMarks
