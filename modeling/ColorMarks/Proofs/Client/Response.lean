import ColorMarks.Client.Connection
import Mathlib.Data.List.Forall2

/-!
# Waiting for a response

A wait for a response takes the queue up to the first item that decides it: the response itself, the end
of the stream or its failure. Each message before that item is a request, which is answered if its
identifier is a number of 64 bits, or it is handed back with the response (`waited_await`).

The kinds of messages and the result that a request gets are read off the members here, not taken from
the functions that tell them apart while waiting.
-/

namespace ColorMarks

open ColorMarks.Frame (Arrival)

/-- The arrival that was taken. -/
def Traffic.received? : Traffic → Option Arrival
  | received a => some a
  | _ => none

namespace Connection

/-! ## Kinds of messages -/

/-- A message without a method whose identifier is this number. -/
structure Responds (id : Nat) (m : Json) : Prop where
  method : m.get? "method" = none
  id : m.get? "id" = some (.integer id)

/-- Whether a message lacks a method or an identifier. -/
def isSkipped (m : Json) : Bool := (m.get? "method").isNone || (m.get? "id").isNone

/-- The number under which a message asks for a reply: it has a method, and its identifier is an
integer from `0` to `2 ^ 64 - 1`. -/
def asked? (m : Json) : Option Nat :=
  match m.get? "method", m.get? "id" with
  | some _, some (.integer n) => if 0 ≤ n ∧ n < twoTo 64 then some n.toNat else none
  | _, _ => none

/-- Whether a message asks for a reply. -/
def asks (m : Json) : Bool := (asked? m).isSome

/-- The number of items that a request lists. -/
def itemCount (m : Json) : Nat :=
  match (m.get? "params").bind (·.get? "items") with
  | some (.array items) => items.length
  | _ => 0

/-- The result that lets the server go on, by the method of its request. -/
inductive IsDefault (folders : List Json) (m : Json) : Json → Prop
  | configuration (h : m.get? "method" = some (.string "workspace/configuration")) :
      IsDefault folders m (.array (List.replicate (itemCount m) .null))
  | workspaceFolders (h : m.get? "method" = some (.string "workspace/workspaceFolders")) :
      IsDefault folders m (.array folders)
  | applyEdit (h : m.get? "method" = some (.string "workspace/applyEdit")) :
      IsDefault folders m (.object [("applied", .bool false),
        ("failureReason", .string "diag-highlight does not apply workspace edits")])
  | other (h : ∀ name ∈ ["workspace/configuration", "workspace/workspaceFolders",
      "workspace/applyEdit"], m.get? "method" ≠ some (.string name)) : IsDefault folders m .null

/-- The reply to a request repeats its identifier, has the default result and says nothing else. -/
structure IsReply (folders : List Json) (m reply : Json) : Prop where
  version : reply.get? "jsonrpc" = some (.string "2.0")
  id : reply.get? "id" = m.get? "id"
  result : ∃ result, reply.get? "result" = some result ∧ IsDefault folders m result
  bare : ∃ members, reply = .object members ∧ members.map Prod.fst = ["id", "jsonrpc", "result"]

theorem isResponse_iff {id : Nat} {m : Json} (hid : id < twoTo 64) :
    isResponse id m = true ↔ Responds id m := by
  have hmethod : (!hasMethod m) = true ↔ m.get? "method" = none := by
    rw [hasMethod, Bool.not_eq_true', Option.isSome_eq_false_iff, Option.isNone_iff_eq_none]
  rw [isResponse, Bool.and_eq_true, hmethod, beq_iff_eq, Json.bind_asNat64?_eq_some_iff]
  exact ⟨fun h => ⟨h.1, h.2.1⟩, fun h => ⟨h.method, h.id, hid⟩⟩

theorem isRequest_eq_not_isSkipped (m : Json) : isRequest m = !isSkipped m := by
  unfold isRequest hasMethod isSkipped
  cases m.get? "method" <;> cases m.get? "id" <;> rfl

theorem asked?_of_isRequest {m : Json} (h : isRequest m = true) :
    asked? m = (m.get? "id").bind Json.asNat64? := by
  unfold isRequest hasMethod at h
  unfold asked?
  cases hmethod : m.get? "method" with
  | none => simp [hmethod] at h
  | some method =>
    cases m.get? "id" with
    | none => rfl
    | some v => cases v <;> rfl

/-- A message that asks for a reply has a method and an identifier. -/
theorem not_isSkipped_of_asks {m : Json} (h : asks m = true) : isSkipped m = false := by
  unfold asks asked? at h
  unfold isSkipped
  cases hmethod : m.get? "method" with
  | none => simp [hmethod] at h
  | some method =>
    cases hid : m.get? "id" with
    | none => simp [hmethod, hid] at h
    | some v => rfl

/-- Only a method that is a text has a name, so that no other method has a result of its own. -/
theorem methodName_eq_iff {m : Json} {name : String} (hname : name ≠ "") :
    ((m.get? "method").bind Json.asString?).getD "" = name ↔
      m.get? "method" = some (.string name) := by
  cases m.get? "method" with
  | none => simpa using hname.symm
  | some v => cases v <;> simp [Json.asString?, hname.symm]

theorem length_items (m : Json) :
    ((((m.get? "params").bind (·.get? "items")).bind Json.asArray?).getD []).length =
      itemCount m := by
  unfold itemCount
  cases (m.get? "params").bind (·.get? "items") with
  | none => rfl
  | some v => cases v <;> rfl

theorem isDefault_defaultResult (folders : List Json) (m : Json) :
    IsDefault folders m (defaultResult folders m) := by
  unfold defaultResult
  split
  · rename_i hmethod
    dsimp only
    rw [length_items]
    exact .configuration ((methodName_eq_iff (by decide)).1 hmethod)
  · rename_i hmethod
    exact .workspaceFolders ((methodName_eq_iff (by decide)).1 hmethod)
  · rename_i hmethod
    exact .applyEdit ((methodName_eq_iff (by decide)).1 hmethod)
  · rename_i hconfiguration hfolders hedit
    apply IsDefault.other
    intro name hname hmethod
    have hnamed := (methodName_eq_iff (by rintro rfl; simp at hname)).2 hmethod
    simp only [List.mem_cons, List.not_mem_nil, or_false] at hname
    rcases hname with rfl | rfl | rfl
    · exact hconfiguration hnamed
    · exact hfolders hnamed
    · exact hedit hnamed

/-- An identifier that is a number of 64 bits is repeated as it is. -/
theorem isReply_responseOf {folders : List Json} {m : Json} {id : Nat}
    (h : (m.get? "id").bind Json.asNat64? = some id) :
    IsReply folders m (responseOf id (defaultResult folders m)) where
  version := rfl
  id := by
    rw [(Json.bind_asNat64?_eq_some_iff.1 h).1]
    rfl
  result := ⟨_, rfl, isDefault_defaultResult folders m⟩
  bare := ⟨_, rfl, rfl⟩

/-! ## Traffic of a live writer -/

/-- The next messages, so many of them, can be written. -/
structure CanWrite (c : Connection) (n : Nat) : Prop where
  writing : c.writing = true
  room : ∀ f ∈ c.fault, c.sent.length + n ≤ f.after

/-- The connection after some traffic. -/
def after (c : Connection) (ts : List Traffic) : Connection := { c with history := c.history ++ ts }

theorem after_append (c : Connection) (ts us : List Traffic) :
    c.after (ts ++ us) = (c.after ts).after us := by
  simp [after]

/-- The traffic in which some messages are taken and those that ask for a reply get it: one for each, in
their order, and every reply is written. -/
structure Exchange (folders : List Json) (messages : List Json) (ts : List Traffic) : Prop where
  received : ts.filterMap Traffic.received? = messages.map .message
  replied : List.Forall₂ (IsReply folders) (messages.filter asks) (ts.filterMap Traffic.handed?)
  written : ts.filterMap Traffic.sent? = ts.filterMap Traffic.handed?

theorem Exchange.append {folders ms ms' : List Json} {ts ts' : List Traffic}
    (h : Exchange folders ms ts) (h' : Exchange folders ms' ts') :
    Exchange folders (ms ++ ms') (ts ++ ts') where
  received := by rw [List.filterMap_append, h.received, h'.received, List.map_append]
  replied := by
    rw [List.filter_append, List.filterMap_append]
    exact List.rel_append h.replied h'.replied
  written := by rw [List.filterMap_append, h.written, h'.written, List.filterMap_append]

/-- A message that asks for no reply is taken and nothing else happens. -/
theorem exchange_received (folders : List Json) {m : Json} (hm : asks m = false) :
    Exchange folders [m] [.received (.message m)] where
  received := rfl
  replied := by rw [List.filter_cons_of_neg (by simp [hm])]; exact .nil
  written := rfl

theorem exchange_reply {folders : List Json} {m reply : Json} (hm : asks m = true)
    (hreply : IsReply folders m reply) :
    Exchange folders [m] [.received (.message m), .sent reply] where
  received := rfl
  replied := by rw [List.filter_cons_of_pos hm]; exact .cons hreply .nil
  written := rfl

theorem Exchange.length_sent {folders ms : List Json} {ts : List Traffic}
    (h : Exchange folders ms ts) :
    (ts.filterMap Traffic.sent?).length = (ms.filter asks).length := by
  rw [h.written, h.replied.length_eq]

theorem CanWrite.after {c : Connection} {ts : List Traffic} {n : Nat}
    (h : c.CanWrite ((ts.filterMap Traffic.sent?).length + n)) : (c.after ts).CanWrite n where
  writing := h.writing
  room := by
    intro f hf
    have hroom := h.room f hf
    have hsent : (c.after ts).sent = c.sent ++ ts.filterMap Traffic.sent? :=
      List.filterMap_append
    rw [hsent, List.length_append]
    omega

/-- The writer writes what it is handed. -/
theorem send_of_canWrite {c : Connection} {n : Nat} (h : c.CanWrite (n + 1)) (m : Json) :
    c.send m = (c.after [.sent m], .ok ()) := by
  have hhinders : c.hinders? = none := by
    rw [hinders?, Option.bind_eq_none_iff]
    intro f hf
    have hroom := h.room f hf
    rw [if_neg (by omega)]
  rw [send, if_pos h.writing, hhinders]
  rfl

/-- What was taken does not keep the writer from writing the reply. -/
theorem respond_record_received {c : Connection} {n : Nat} (h : c.CanWrite (n + 1)) (a : Arrival)
    (id : Nat) (result : Json) :
    (c.record (.received a)).respond id result =
      (c.after [.received a, .sent (responseOf id result)], .ok ()) := by
  have hnone : ([Traffic.received a].filterMap Traffic.sent?).length = 0 := rfl
  have htaken : (c.after [.received a]).CanWrite (n + 1) := by
    apply CanWrite.after
    rwa [hnone, Nat.zero_add]
  have hsend := send_of_canWrite htaken (responseOf id result)
  rwa [← after_append] at hsend

/-! ## Steps and runs -/

/-- A message that is not the response is taken: it is answered, skipped or dropped. -/
theorem awaitIn_message {id : Nat} (hid : id < twoTo 64) {m : Json} (hm : ¬ Responds id m)
    (queue : List Arrival) {c : Connection} {n : Nat}
    (hwriter : c.CanWrite (([m].filter asks).length + n)) (skipped : List Json) :
    ∃ ts, awaitIn id (.message m :: queue) c skipped =
        awaitIn id queue (c.after ts) (skipped ++ [m].filter isSkipped) ∧
      Exchange c.folders [m] ts := by
  have hresponse : ¬ isResponse id m = true := fun h => hm ((isResponse_iff hid).1 h)
  rw [awaitIn, if_neg hresponse]
  by_cases hskipped : isSkipped m = true
  · have hasks : asks m = false := by
      cases hasks : asks m with
      | false => rfl
      | true => rw [not_isSkipped_of_asks hasks] at hskipped; cases hskipped
    rw [if_neg (by simp [isRequest_eq_not_isSkipped, hskipped]), List.filter_cons_of_pos hskipped]
    exact ⟨_, rfl, exchange_received c.folders hasks⟩
  · have hrequest : isRequest m = true := by
      simpa [isRequest_eq_not_isSkipped] using hskipped
    have hnumber := asked?_of_isRequest hrequest
    rw [if_pos hrequest, List.filter_cons_of_neg hskipped, List.filter_nil, List.append_nil,
      answer, ← hnumber]
    cases hasked : asked? m with
    | none =>
      have hasks : asks m = false := by rw [asks, hasked]; rfl
      exact ⟨_, rfl, exchange_received c.folders hasks⟩
    | some number =>
      have hasks : asks m = true := by rw [asks, hasked]; rfl
      rw [List.filter_cons_of_pos hasks, List.filter_nil, List.length_singleton,
        Nat.add_comm] at hwriter
      refine ⟨_, ?_, exchange_reply hasks (isReply_responseOf (hnumber.symm.trans hasked))⟩
      dsimp only
      rw [respond_record_received hwriter]
      rfl

/-- The messages before the deciding item are taken one by one. -/
theorem awaitIn_messages {id : Nat} (hid : id < twoTo 64) {before : List Json}
    (hbefore : ∀ m ∈ before, ¬ Responds id m) (queue : List Arrival) {c : Connection}
    (hwriter : c.CanWrite (before.filter asks).length) (skipped : List Json) :
    ∃ ts, awaitIn id (before.map .message ++ queue) c skipped =
        awaitIn id queue (c.after ts) (skipped ++ before.filter isSkipped) ∧
      Exchange c.folders before ts := by
  induction before generalizing c skipped with
  | nil => exact ⟨[], by simp [after], rfl, .nil, rfl⟩
  | cons m before ih =>
    have hsplit (p : Json → Bool) : (m :: before).filter p = [m].filter p ++ before.filter p :=
      List.filter_append [m] before
    rw [hsplit, List.length_append] at hwriter
    obtain ⟨us, hstep, hus⟩ := awaitIn_message hid (hbefore m List.mem_cons_self)
      (before.map .message ++ queue) hwriter skipped
    rw [← hus.length_sent] at hwriter
    obtain ⟨ts, hrun, hts⟩ := ih (fun m' hm' => hbefore m' (List.mem_cons_of_mem _ hm'))
      hwriter.after (skipped ++ [m].filter isSkipped)
    refine ⟨us ++ ts, ?_, hus.append hts⟩
    rw [hsplit, ← List.append_assoc, after_append, ← hrun, ← hstep]
    rfl

/-- What a wait comes to if some messages and an item that decides it stand before the rest of the
queue. -/
structure Waited (c : Connection) (before : List Json) (last : Arrival) (rest : List Arrival)
    (outcome : Connection × Except IoError (Json × List Json)) : Prop where
  /-- The messages and the item were taken and nothing else, and the requests were answered. -/
  exchanged : ∃ ts, Exchange c.folders before ts ∧
    outcome.1 = { c with inbound := rest, history := c.history ++ ts ++ [.received last] }
  /-- The response is handed back with all messages that have no method or no identifier. -/
  answered : ∀ m, last = .message m → outcome.2 = .ok (m, before.filter isSkipped)
  failed : (∀ m, last ≠ .message m) → ∃ e, outcome.2 = .error e ∧ e.kind = .brokenPipe
  /-- No message is both handed back and answered. -/
  apart : ∀ m ∈ before, ¬ (isSkipped m = true ∧ asks m = true)

/-- The deciding item ends the wait. -/
theorem awaitIn_last {id : Nat} {last : Arrival}
    (hlast : ∀ m, last = .message m → isResponse id m = true) (rest : List Arrival)
    (c : Connection) (skipped : List Json) :
    let outcome := awaitIn id (last :: rest) c skipped
    outcome.1 = { c.record (.received last) with inbound := rest ++ c.inbound } ∧
      (∀ m, last = .message m → outcome.2 = .ok (m, skipped)) ∧
      ((∀ m, last ≠ .message m) → ∃ e, outcome.2 = .error e ∧ e.kind = .brokenPipe) := by
  cases last with
  | message m =>
    simp only [awaitIn, if_pos (hlast m rfl)]
    refine ⟨rfl, ?_, fun h => absurd rfl (h m)⟩
    rintro _ ⟨⟩
    rfl
  | failed text => exact ⟨rfl, by rintro m ⟨⟩, fun _ => ⟨_, rfl, rfl⟩⟩
  | closed => exact ⟨rfl, by rintro m ⟨⟩, fun _ => ⟨_, rfl, rfl⟩⟩

/--
A wait with time left takes exactly the items up to the first response to its request, or to the end or
the failure of the stream if that stands before it. It answers the requests among them in their order,
while the writer writes, and hands the other messages back with the response.
-/
theorem waited_await (c : Connection) (id patience : Nat) (before : List Json) (last : Arrival)
    (rest : List Arrival) (hid : id < twoTo 64) (htime : 0 < patience)
    (hqueue : c.inbound = before.map .message ++ last :: rest)
    (hbefore : ∀ m ∈ before, ¬ Responds id m) (hlast : ∀ m, last = .message m → Responds id m)
    (hwriter : c.CanWrite (before.filter asks).length) :
    Waited c before last rest (c.await id patience) := by
  have hemptied : { c with inbound := [] }.CanWrite (before.filter asks).length :=
    ⟨hwriter.writing, hwriter.room⟩
  obtain ⟨ts, hrun, hts⟩ := awaitIn_messages hid hbefore (last :: rest) hemptied []
  obtain ⟨htaken, hanswered, hfailed⟩ :=
    awaitIn_last (fun m hm => (isResponse_iff hid).2 (hlast m hm)) rest
      ({ c with inbound := [] }.after ts) ([] ++ before.filter isSkipped)
  rw [← hrun, ← hqueue] at htaken hanswered hfailed
  rw [await, if_neg (by omega)]
  refine ⟨⟨ts, hts, ?_⟩, hanswered, hfailed, ?_⟩
  · rw [htaken]
    simp [record, after]
  · rintro m - ⟨hskipped, hasks⟩
    rw [not_isSkipped_of_asks hasks] at hskipped
    cases hskipped

/-- A request under the awaited number is answered, and is not taken for the response. -/
theorem waited_await_same_number :
    let asking := requestOf 7 "workspace/configuration" (.object [("items", .array [.null, .null])])
    let notice := notificationOf "window/logMessage" .null
    let stale := responseOf 6 .null
    let response := responseOf 7 .null
    let c : Connection :=
      { inbound := [.message asking, .message notice, .message stale, .message response, .closed]
        fault := some ⟨1, .os .brokenPipe⟩ }
    (∀ m ∈ [asking, notice, stale], ¬ Responds 7 m) ∧ Responds 7 response ∧ c.CanWrite 1 ∧
      Waited c [asking, notice, stale] (.message response) [.closed] (c.await 7 1) := by
  intro asking notice stale response c
  have hbefore : ∀ m ∈ [asking, notice, stale], ¬ Responds 7 m := by
    intro m hm h
    simp only [List.mem_cons, List.not_mem_nil, or_false] at hm
    rcases hm with rfl | rfl | rfl
    · cases h.method
    · cases h.method
    · cases h.id
  have hresponse : Responds 7 response := ⟨rfl, rfl⟩
  have hwriter : c.CanWrite 1 := ⟨rfl, by rintro f ⟨⟩; exact Nat.le_refl 1⟩
  refine ⟨hbefore, hresponse, hwriter, ?_⟩
  apply waited_await c 7 1 [asking, notice, stale] (.message response) [.closed] (by decide)
    (by decide) rfl hbefore
  · rintro m ⟨⟩
    exact hresponse
  · exact hwriter

end Connection

end ColorMarks
