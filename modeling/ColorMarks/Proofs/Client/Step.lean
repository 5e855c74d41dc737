import ColorMarks.Client.Basic
import ColorMarks.Proofs.Client.Traffic
import Mathlib.Logic.Relation

/-!
# One step after another on a connection

Whatever an operation does on its connection is a chain of three kinds of steps: the first arrival of
the queue is taken and answered if it is a request, a message of the client's own is handed to the
writer, and the next request gets its number. What each step keeps is therefore kept by every operation.

Waiting and draining hold the queue apart from the connection while they work; `ahead` puts it back.
-/

namespace ColorMarks

open ColorMarks.Frame (Arrival)
open Relation (ReflTransGen)

namespace Connection

/-- The connection after an arrival was taken; a request is answered at once. -/
def attend (c : Connection) (a : Arrival) : Connection :=
  match a with
  | .message m =>
    if isRequest m then ((c.record (.received (.message m))).answer m).1
    else c.record (.received (.message m))
  | a => c.record (.received a)

/-- One step on a connection. -/
inductive Step (c : Connection) : Connection → Prop
  | taken {a : Arrival} {rest : List Arrival} (h : c.inbound = a :: rest) :
      Step c ({ c with inbound := rest }.attend a)
  | told {m : Json} (hm : hasMethod m = true) : Step c (c.send m).1
  | numbered : Step c { c with nextId := c.nextId + 1 }

/-- The connection with more arrivals before those of its queue. -/
def ahead (c : Connection) (queue : List Arrival) : Connection :=
  { c with inbound := queue ++ c.inbound }

@[simp] theorem ahead_nil (c : Connection) : c.ahead [] = c := rfl

theorem ahead_of_emptied (c : Connection) : { c with inbound := [] }.ahead c.inbound = c := by
  simp [ahead]

theorem inbound_ahead_cons (c : Connection) (a : Arrival) (queue : List Arrival) :
    (c.ahead (a :: queue)).inbound = a :: (queue ++ c.inbound) := rfl

theorem ahead_record (c : Connection) (queue : List Arrival) (t : Traffic) :
    (c.ahead queue).record t = (c.record t).ahead queue := rfl

/-- Sending adds to the end of the queue at most, whatever stands before it. -/
theorem ahead_send (c : Connection) (queue : List Arrival) (m : Json) :
    (c.ahead queue).send m = ((c.send m).1.ahead queue, (c.send m).2) := by
  have hhinders : (c.ahead queue).hinders? = c.hinders? := rfl
  unfold send
  rw [hhinders]
  by_cases hw : c.writing = true
  · have hw' : (c.ahead queue).writing = true := hw
    rw [if_pos hw, if_pos hw']
    cases c.hinders? with
    | none => rfl
    | some e => simp [ahead, record]
  · have hw' : ¬ (c.ahead queue).writing = true := hw
    rw [if_neg hw, if_neg hw']

theorem ahead_answer (c : Connection) (queue : List Arrival) (m : Json) :
    (c.ahead queue).answer m = ((c.answer m).1.ahead queue, (c.answer m).2) := by
  unfold answer
  cases (m.get? "id").bind Json.asNat64? with
  | none => rfl
  | some id => exact ahead_send c queue _

theorem ahead_attend (c : Connection) (queue : List Arrival) (a : Arrival) :
    (c.ahead queue).attend a = (c.attend a).ahead queue := by
  cases a with
  | message m =>
    unfold attend
    by_cases hm : isRequest m = true
    · simp only [if_pos hm, ahead_record, ahead_answer]
    · simp only [if_neg hm, ahead_record]
  | failed text => rfl
  | closed => rfl

theorem attend_of_isRequest (c : Connection) {m : Json} (hm : isRequest m = true) :
    c.attend (.message m) = ((c.record (.received (.message m))).answer m).1 := by
  simp [attend, hm]

theorem attend_of_not_isRequest (c : Connection) {m : Json} (hm : isRequest m = false) :
    c.attend (.message m) = c.record (.received (.message m)) := by
  simp [attend, hm]

/-- Attending to a message adds it and replies only. -/
theorem attend_spec (c : Connection) (m : Json) :
    ∃ replies, c.Continues (.received (.message m) :: replies) (c.attend (.message m)) ∧
      ∀ t ∈ replies, ∃ id result, t.handed? = some (responseOf id result) := by
  have hrecord := continues_record_received c (.message m)
  cases hm : isRequest m with
  | true =>
    obtain ⟨ts, hts, hreply⟩ := answer_spec (c.record (.received (.message m))) m
    rw [attend_of_isRequest c hm]
    exact ⟨ts, hrecord.trans hts, hreply⟩
  | false =>
    rw [attend_of_not_isRequest c hm]
    exact ⟨[], hrecord, by simp⟩

/-- The first arrival of the queue is taken. -/
theorem step_ahead (c : Connection) (a : Arrival) (queue : List Arrival) :
    Step (c.ahead (a :: queue)) ((c.attend a).ahead queue) := by
  rw [← ahead_attend]
  exact .taken (c.inbound_ahead_cons a queue)

/-! ## Operations as chains of steps -/

theorem notify_steps (c : Connection) (method : String) (params : Json) :
    ReflTransGen Step c (c.notify method params).1 := .single (.told rfl)

theorem request_steps (c : Connection) (method : String) (params : Json) :
    ReflTransGen Step c (c.request method params).1 :=
  (ReflTransGen.single .numbered).tail (.told (m := requestOf c.nextId method params) rfl)

/-- A response has no method, so it is no request. -/
theorem isRequest_of_isResponse {id : Nat} {m : Json} (h : isResponse id m = true) :
    isRequest m = false := by
  simp only [isResponse, Bool.and_eq_true, Bool.not_eq_true'] at h
  rw [isRequest, h.1, Bool.false_and]

/-- A wait takes arrivals from the front of the queue and leaves the others in it. -/
theorem awaitIn_steps (id : Nat) (queue : List Arrival) (c : Connection) (skipped : List Json) :
    ReflTransGen Step (c.ahead queue) (awaitIn id queue c skipped).1 := by
  induction queue generalizing c skipped with
  | nil =>
    unfold awaitIn
    split
    · rename_i text later hlater
      exact .single (.taken (c := c) hlater)
    · exact .refl
  | cons a queue ih =>
    have htaken := step_ahead c a queue
    cases a with
    | failed text => exact .single htaken
    | closed => exact .single htaken
    | message m =>
      unfold awaitIn
      by_cases hr : isResponse id m = true
      · rw [if_pos hr]
        rw [attend_of_not_isRequest c (isRequest_of_isResponse hr)] at htaken
        exact .single htaken
      rw [if_neg hr]
      by_cases hq : isRequest m = true
      · rw [if_pos hq]
        rcases hanswer : (c.record (.received (.message m))).answer m with ⟨d, result⟩
        rw [attend_of_isRequest c hq, hanswer] at htaken
        cases result with
        | error e => exact .single htaken
        | ok _ => exact .head htaken (ih d skipped)
      · rw [if_neg hq]
        rw [attend_of_not_isRequest c (by simpa using hq)] at htaken
        exact .head htaken (ih _ _)

theorem await_steps (c : Connection) (id patience : Nat) :
    ReflTransGen Step c (c.await id patience).1 := by
  unfold await
  split
  · exact .refl
  · have hsteps := awaitIn_steps id c.inbound { c with inbound := [] } []
    rwa [ahead_of_emptied] at hsteps

theorem shutdown_steps (c : Connection) (patience : Nat) :
    ReflTransGen Step c (c.shutdown patience).1 := by
  have hrequest := request_steps c "shutdown" .null
  unfold shutdown
  split
  · rename_i c₁ e heq
    rwa [heq] at hrequest
  · rename_i c₁ id heq
    rw [heq] at hrequest
    have hawait := await_steps c₁ id patience
    split
    · rename_i c₂ e heq'
      rw [heq'] at hawait
      exact hrequest.trans hawait
    · rename_i c₂ r heq'
      rw [heq'] at hawait
      exact (hrequest.trans hawait).trans (notify_steps c₂ "exit" .null)

end Connection

/-- The connection of a handshake, whether that succeeds or not. -/
theorem Client.handshake_steps (c : Client) (conn : Connection) :
    ReflTransGen Connection.Step conn (c.handshake conn).1 := by
  have hrequest := conn.request_steps "initialize" c.handshakeParams
  unfold handshake
  split
  · rename_i c₁ e heq
    rwa [heq] at hrequest
  · rename_i c₁ id heq
    rw [heq] at hrequest
    have hawait := c₁.await_steps id c.options.handshakePatience
    split
    · rename_i c₂ e heq'
      rw [heq'] at hawait
      exact hrequest.trans hawait
    · rename_i c₂ response early heq'
      rw [heq'] at hawait
      split
      · exact hrequest.trans hawait
      · have htold := c₂.notify_steps "initialized" (.object [])
        split <;> rename_i heq'' <;> rw [heq''] at htold <;>
          exact (hrequest.trans hawait).trans htold

end ColorMarks
