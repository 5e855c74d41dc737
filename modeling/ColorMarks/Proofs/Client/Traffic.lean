import ColorMarks.Client.Connection

/-!
# What the operations of a connection write and take

`Continues` says how a connection goes on: its history gets longer and nothing that was numbered or
told before changes. Every operation of a connection continues it, and the lemmas below name the
traffic that it adds. Waiting for a response adds quiet traffic only, arrivals and replies, and ends
with the response if there was one.
-/

namespace ColorMarks

open ColorMarks.Frame (Arrival)

/-- Why a connection is lost with an arrival; a message does not end it. -/
def Frame.Arrival.lossReason? : Arrival → Option String
  | .message _ => none
  | .failed text => some text
  | .closed => some "connection closed"

namespace Traffic

/-- Why the connection was lost with this, if it was. -/
def lossReason? : Traffic → Option String
  | received a => a.lossReason?
  | _ => none

/-- The message that was taken, if it was one. -/
def message? : Traffic → Option Json
  | received (.message m) => some m
  | _ => none

/-- An arrival, or a reply handed to the writer. -/
def IsQuiet (t : Traffic) : Prop :=
  t.handed? = none ∨ ∃ id result, t.handed? = some (Connection.responseOf id result)

@[simp] theorem sent?_sent (m : Json) : (sent m).sent? = some m := rfl

@[simp] theorem sent?_lost (m : Json) : (lost m).sent? = none := rfl

@[simp] theorem sent?_received (a : Arrival) : (received a).sent? = none := rfl

@[simp] theorem handed?_sent (m : Json) : (sent m).handed? = some m := rfl

@[simp] theorem handed?_lost (m : Json) : (lost m).handed? = some m := rfl

@[simp] theorem handed?_received (a : Arrival) : (received a).handed? = none := rfl

@[simp] theorem message?_received (m : Json) : (received (.message m)).message? = some m := rfl

theorem isQuiet_received (a : Arrival) : (received a).IsQuiet := .inl rfl

/-- What was handed over was not taken. -/
theorem message?_of_handed? {t : Traffic} {m : Json} (h : t.handed? = some m) :
    t.message? = none := by
  cases t <;> simp_all [message?]

/-- Nothing is lost with what was handed over. -/
theorem lossReason?_of_handed? {t : Traffic} {m : Json} (h : t.handed? = some m) :
    t.lossReason? = none := by
  cases t with
  | received a => cases h
  | _ => rfl

/--
What was written stays a beginning of what was handed over, if all of it was written before or nothing
is handed over any more.
-/
theorem sent_prefix_append {ts us : List Traffic}
    (hts : ts.filterMap sent? <+: ts.filterMap handed?)
    (hus : us.filterMap sent? <+: us.filterMap handed?)
    (h : ts.filterMap sent? = ts.filterMap handed? ∨ us.filterMap handed? = []) :
    (ts ++ us).filterMap sent? <+: (ts ++ us).filterMap handed? := by
  rw [List.filterMap_append, List.filterMap_append]
  rcases h with hall | hnone
  · rw [hall]
    exact (List.prefix_append_right_inj _).2 hus
  · rw [hnone, List.prefix_nil] at hus
    rw [hnone, hus, List.append_nil, List.append_nil]
    exact hts

end Traffic

namespace Connection

open Traffic (IsQuiet)

@[simp] theorem get?_method_requestOf (id : Nat) (method : String) (params : Json) :
    (requestOf id method params).get? "method" = some (.string method) := rfl

@[simp] theorem get?_method_notificationOf (method : String) (params : Json) :
    (notificationOf method params).get? "method" = some (.string method) := rfl

@[simp] theorem get?_method_responseOf (id : Nat) (result : Json) :
    (responseOf id result).get? "method" = none := rfl

@[simp] theorem hasMethod_requestOf (id : Nat) (method : String) (params : Json) :
    hasMethod (requestOf id method params) = true := rfl

@[simp] theorem hasMethod_notificationOf (method : String) (params : Json) :
    hasMethod (notificationOf method params) = true := rfl

@[simp] theorem hasMethod_responseOf (id : Nat) (result : Json) :
    hasMethod (responseOf id result) = false := rfl

/--
The connection `k` is `c` after the traffic `ts`. A writer that stopped stays so: then nothing more is
handed to it, and what was written is a beginning of what was handed over.
-/
structure Continues (c : Connection) (ts : List Traffic) (k : Connection) : Prop where
  history : k.history = c.history ++ ts
  nextId : k.nextId = c.nextId
  folders : k.folders = c.folders
  label : k.label = c.label
  alive : k.writing = true →
    c.writing = true ∧ ts.filterMap Traffic.sent? = ts.filterMap Traffic.handed?
  silent : c.writing = false → ts.filterMap Traffic.handed? = []
  sent : ts.filterMap Traffic.sent? <+: ts.filterMap Traffic.handed?

theorem Continues.refl (c : Connection) : c.Continues [] c := by
  constructor <;> simp

/-- Connections that differ in their queue only continue the same ones. -/
theorem Continues.queue {c k : Connection} {ts : List Traffic} (h : c.Continues ts k)
    (inbound : List Arrival) (left : Option (List UInt8)) :
    c.Continues ts { k with inbound := inbound, partialFrame := left } :=
  ⟨h.history, h.nextId, h.folders, h.label, h.alive, h.silent, h.sent⟩

theorem Continues.trans {c d k : Connection} {ts us : List Traffic} (h : c.Continues ts d)
    (h' : d.Continues us k) : c.Continues (ts ++ us) k where
  history := by rw [h'.history, h.history, List.append_assoc]
  nextId := h'.nextId.trans h.nextId
  folders := h'.folders.trans h.folders
  label := h'.label.trans h.label
  alive := by
    intro hk
    obtain ⟨hd, hus⟩ := h'.alive hk
    obtain ⟨hc, hts⟩ := h.alive hd
    exact ⟨hc, by rw [List.filterMap_append, List.filterMap_append, hts, hus]⟩
  silent := by
    intro hc
    have hd : d.writing = false := by
      cases hd : d.writing with
      | false => rfl
      | true => rw [(h.alive hd).1] at hc; cases hc
    rw [List.filterMap_append, h.silent hc, h'.silent hd, List.append_nil]
  sent := by
    apply Traffic.sent_prefix_append h.sent h'.sent
    by_cases hd : d.writing = true
    · exact .inl (h.alive hd).2
    · exact .inr (h'.silent (by simpa using hd))

/-- What was written is a beginning of what was handed over, and all of it while the writer goes on. -/
structure Faithful (c : Connection) : Prop where
  sent : c.sent <+: c.handed
  alive : c.writing = true → c.sent = c.handed

theorem Continues.faithful {c k : Connection} {ts : List Traffic} (h : c.Continues ts k)
    (hc : c.Faithful) : k.Faithful where
  sent := by
    rw [Connection.sent, Connection.handed, h.history]
    apply Traffic.sent_prefix_append hc.sent h.sent
    by_cases hw : c.writing = true
    · exact .inl (hc.alive hw)
    · exact .inr (h.silent (by simpa using hw))
  alive := by
    intro hk
    obtain ⟨hw, hts⟩ := h.alive hk
    have hsame := hc.alive hw
    rw [Connection.sent, Connection.handed] at hsame
    rw [Connection.sent, Connection.handed, h.history, List.filterMap_append,
      List.filterMap_append, hsame, hts]

/-- Taking an arrival adds it and nothing else. -/
theorem continues_record_received (c : Connection) (a : Arrival) :
    c.Continues [.received a] (c.record (.received a)) := by
  constructor <;> simp [record, List.filterMap_cons]

/-- A message handed to the writer, written or lost, unless the writer stopped before. -/
theorem send_spec (c : Connection) (m : Json) :
    (∃ t k, c.send m = (k, .ok ()) ∧ t.handed? = some m ∧ c.Continues [t] k) ∨
      c.send m = (c, .error .writerStopped) := by
  by_cases hw : c.writing = true
  · left
    cases hf : c.hinders? with
    | some e =>
      refine ⟨.lost m, _, by rw [send, if_pos hw, hf], rfl, ?_⟩
      constructor <;> simp [record, hw, List.filterMap_cons]
    | none =>
      refine ⟨.sent m, _, by rw [send, if_pos hw, hf], rfl, ?_⟩
      constructor <;> simp [record, hw]
  · exact .inr (by rw [send, if_neg hw])

/-- A message that is not refused is handed over. -/
theorem handed_of_send {c k : Connection} {m : Json} (h : c.send m = (k, .ok ())) :
    ∃ t, t.handed? = some m ∧ c.Continues [t] k := by
  rcases send_spec c m with ⟨t, k', hsend, ht, hk⟩ | hsend
  · rw [h] at hsend
    cases hsend
    exact ⟨t, ht, hk⟩
  · rw [h] at hsend
    cases hsend

/-- A request takes the next number, whether it can be handed over or not. -/
theorem request_spec (c : Connection) (method : String) (params : Json) :
    (∃ t k, c.request method params = (k, .ok c.nextId) ∧
        t.handed? = some (requestOf c.nextId method params) ∧
        { c with nextId := c.nextId + 1 }.Continues [t] k) ∨
      c.request method params = ({ c with nextId := c.nextId + 1 }, .error .writerStopped) := by
  rcases send_spec { c with nextId := c.nextId + 1 } (requestOf c.nextId method params) with
    ⟨t, k, hsend, ht, hk⟩ | hsend
  · exact .inl ⟨t, k, by rw [request, hsend]; rfl, ht, hk⟩
  · exact .inr (by rw [request, hsend]; rfl)

/-- An answer adds at most one reply. -/
theorem answer_spec (c : Connection) (m : Json) :
    ∃ ts, c.Continues ts (c.answer m).1 ∧
      ∀ t ∈ ts, ∃ id result, t.handed? = some (responseOf id result) := by
  unfold answer
  cases (m.get? "id").bind Json.asNat64? with
  | none => exact ⟨[], .refl c, by simp⟩
  | some id =>
    rcases send_spec c (responseOf id (defaultResult c.folders m)) with
      ⟨t, k, hsend, ht, hk⟩ | hsend
    · refine ⟨[t], by simpa only [respond, hsend] using hk, ?_⟩
      intro u hu
      rw [List.mem_singleton.1 hu]
      exact ⟨_, _, ht⟩
    · exact ⟨[], by simpa only [respond, hsend] using .refl c, by simp⟩

/--
What a wait for a response comes to: quiet traffic, and if it ends well the response last of all and no
loss before it. The messages before it that are no requests are handed back behind those that were
skipped already.
-/
structure Waits (id : Nat) (c : Connection) (skipped : List Json) (ts : List Traffic)
    (outcome : Connection × Except IoError (Json × List Json)) : Prop where
  continues : c.Continues ts outcome.1
  quiet : ∀ t ∈ ts, t.IsQuiet
  answered : ∀ m early, outcome.2 = .ok (m, early) →
    isResponse id m = true ∧ ∃ us, ts = us ++ [.received (.message m)] ∧
      early = skipped ++ ((us.filterMap Traffic.message?).filter fun m => !isRequest m) ∧
      ∀ t ∈ us, t.lossReason? = none

/-- A wait that fails has nothing to hand back. -/
theorem Waits.failed {id : Nat} {c k : Connection} {ts : List Traffic} (h : c.Continues ts k)
    (hquiet : ∀ t ∈ ts, t.IsQuiet) (skipped : List Json) (e : IoError) :
    Waits id c skipped ts (k, .error e) :=
  ⟨h, hquiet, by rintro _ _ ⟨⟩⟩

/-- A wait that goes on after some traffic. -/
theorem Waits.after {id : Nat} {c d : Connection} {skipped : List Json} {us ts : List Traffic}
    {outcome : Connection × Except IoError (Json × List Json)} (hus : c.Continues us d)
    (hquiet : ∀ t ∈ us, t.IsQuiet) (hwhole : ∀ t ∈ us, t.lossReason? = none)
    (h : Waits id d
      (skipped ++ (us.filterMap Traffic.message?).filter fun m => !isRequest m) ts outcome) :
    Waits id c skipped (us ++ ts) outcome := by
  refine ⟨hus.trans h.continues, ?_, ?_⟩
  · intro t ht
    rcases List.mem_append.1 ht with ht | ht
    · exact hquiet t ht
    · exact h.quiet t ht
  · intro m early heq
    obtain ⟨hm, vs, rfl, rfl, hwhole'⟩ := h.answered m early heq
    refine ⟨hm, us ++ vs, by simp, by simp, ?_⟩
    intro t ht
    exact (List.mem_append.1 ht).elim (hwhole t) (hwhole' t)

theorem awaitIn_spec (id : Nat) (queue : List Arrival) (c : Connection) (skipped : List Json) :
    ∃ ts, Waits id c skipped ts (awaitIn id queue c skipped) := by
  induction queue generalizing c skipped with
  | nil =>
    unfold awaitIn
    split
    · rename_i text later _
      exact ⟨_, .failed (((Continues.refl c).queue later c.partialFrame).trans
        (continues_record_received _ _)) (by simp [IsQuiet]) skipped _⟩
    · exact ⟨[], .failed (.refl c) (by simp) skipped _⟩
  | cons a queue ih =>
    have taken : c.Continues [.received a] { c with inbound := queue ++ c.inbound, history :=
        c.history ++ [.received a] } := (continues_record_received c a).queue _ c.partialFrame
    have hquiet : ∀ t ∈ [Traffic.received a], t.IsQuiet := by simp [IsQuiet]
    cases a with
    | failed text => exact ⟨_, .failed taken hquiet skipped _⟩
    | closed => exact ⟨_, .failed taken hquiet skipped _⟩
    | message m =>
      have received := continues_record_received c (.message m)
      unfold awaitIn
      by_cases hr : isResponse id m = true
      · rw [if_pos hr]
        refine ⟨_, taken, hquiet, ?_⟩
        rintro m' early heq
        obtain ⟨rfl, rfl⟩ : m = m' ∧ skipped = early := by simpa using heq
        exact ⟨hr, [], rfl, by simp⟩
      rw [if_neg hr]
      by_cases hq : isRequest m = true
      · rw [if_pos hq]
        obtain ⟨us, hus, hreply⟩ := answer_spec (c.record (.received (.message m))) m
        have hreplies : ∀ t ∈ [.received (.message m)] ++ us, t.IsQuiet := by
          intro t ht
          rcases List.mem_append.1 ht with ht | ht
          · exact hquiet t ht
          · exact .inr (hreply t ht)
        have hwhole : ∀ t ∈ [.received (.message m)] ++ us, t.lossReason? = none := by
          intro t ht
          rcases List.mem_append.1 ht with ht | ht
          · rw [List.mem_singleton.1 ht]; rfl
          · obtain ⟨_, _, hh⟩ := hreply t ht
            exact Traffic.lossReason?_of_handed? hh
        have hsilent : us.filterMap Traffic.message? = [] := by
          rw [List.filterMap_eq_nil_iff]
          intro t ht
          obtain ⟨_, _, hh⟩ := hreply t ht
          exact Traffic.message?_of_handed? hh
        rcases hans : (c.record (.received (.message m))).answer m with ⟨d, r⟩
        rw [hans] at hus
        cases r with
        | error e =>
          exact ⟨_, .failed ((received.trans hus).queue (queue ++ d.inbound) d.partialFrame)
            hreplies skipped e⟩
        | ok _ =>
          obtain ⟨vs, hvs⟩ := ih d skipped
          exact ⟨_, .after (received.trans hus) hreplies hwhole (by simpa [hsilent, hq] using hvs)⟩
      · rw [if_neg hq]
        obtain ⟨vs, hvs⟩ := ih (c.record (.received (.message m))) (skipped ++ [m])
        exact ⟨_, .after received hquiet (by simp [Traffic.lossReason?, Frame.Arrival.lossReason?])
          (by simpa [hq] using hvs)⟩

/-- `awaitIn_spec` for the whole queue. -/
theorem await_spec (c : Connection) (id patience : Nat) :
    ∃ ts, Waits id c [] ts (c.await id patience) := by
  unfold await
  split
  · exact ⟨[], .failed (.refl c) (by simp) [] _⟩
  · obtain ⟨ts, hts⟩ := awaitIn_spec id c.inbound { c with inbound := [] } []
    have hqueue := (Continues.refl c).queue [] c.partialFrame
    exact ⟨ts, by simpa using Waits.after hqueue (by simp) (by simp) (by simpa using hts)⟩

end Connection

end ColorMarks
