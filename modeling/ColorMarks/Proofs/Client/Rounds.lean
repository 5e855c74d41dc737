import ColorMarks.Proofs.Client.Events

/-!
# Waiting in rounds

A wait for findings polls again and again. Each round takes what has arrived, puts back what the poll
reports, and looks whether the findings were published; the wait ends when they were, when the client does
not run any more, or with its last round. `waitIn` is this loop over what arrives before each round. It
comes to the same as one drain of all that arrives by its last round (`waitIn_eq_waitForDiagnostics`).
-/

namespace ColorMarks

open ColorMarks.Frame (Arrival)

namespace Connection

/-- The connection with other bytes of an incomplete frame. -/
def leave (c : Connection) (left : Option (List UInt8)) : Connection := { c with partialFrame := left }

/-- Sending does not depend on the bytes of an incomplete frame. -/
theorem leave_send (c : Connection) (left : Option (List UInt8)) (m : Json) :
    (c.leave left).send m = ((c.send m).1.leave left, (c.send m).2) := by
  have hhinders : (c.leave left).hinders? = c.hinders? := rfl
  unfold send
  rw [hhinders]
  by_cases hw : c.writing = true
  · have hw' : (c.leave left).writing = true := hw
    rw [if_pos hw, if_pos hw']
    cases c.hinders? <;> rfl
  · have hw' : ¬ (c.leave left).writing = true := hw
    rw [if_neg hw, if_neg hw']

theorem leave_attend (c : Connection) (left : Option (List UInt8)) (m : Json) :
    (c.leave left).attend (.message m) = (c.attend (.message m)).leave left := by
  have hrecord : (c.leave left).record (.received (.message m)) =
      (c.record (.received (.message m))).leave left := rfl
  cases hm : isRequest m with
  | true =>
    rw [attend_of_isRequest _ hm, attend_of_isRequest c hm, hrecord]
    unfold answer
    cases (m.get? "id").bind Json.asNat64? with
    | none => rfl
    | some id => exact congrArg Prod.fst (leave_send _ left _)
  | false => rw [attend_of_not_isRequest _ hm, attend_of_not_isRequest c hm, hrecord]

end Connection

namespace Client

/-! ## Draining in two parts -/

/-- The client with other bytes of an incomplete frame. -/
def leave (c : Client) (left : Option (List UInt8)) : Client :=
  { c with connection := c.connection.map fun k => k.leave left }

theorem leave_handle (c : Client) (left : Option (List UInt8)) (m : Json) :
    ((c.leave left).receive (.message m)).handle m =
      ((c.receive (.message m)).handle m).leave left := by
  rw [handle_receive, handle_receive, leave, noticeAll_with_connection]
  simp only [leave, Option.map_map, Function.comp_def, Connection.leave_attend]

/-- A queue of which the first part leaves the client running is drained in two parts. -/
theorem drainIn_append {queue : List Arrival} {c : Client}
    (h : (drainIn queue c).isRunning = true) (later : List Arrival) (left : Option (List UInt8)) :
    drainIn (queue ++ later) (c.leave left) = drainIn later ((drainIn queue c).leave left) := by
  induction queue generalizing c with
  | nil =>
    have hnothing : drainIn [] c = c := by
      unfold drainIn at h ⊢
      split at h
      · cases h
      · rfl
    rw [hnothing, List.nil_append]
  | cons a queue ih =>
    cases a with
    | failed text => cases h
    | closed => cases h
    | message m =>
      rw [List.cons_append, drainIn, leave_handle]
      exact ih h

/-- Arrivals are drained behind those of the queue. -/
theorem drain_arrive {c : Client} {k : Connection} (hc : c.connection = some k)
    (arrivals : List Arrival) (left : Option (List UInt8)) :
    (c.act (.arrive arrivals left)).drain = drainIn (k.inbound ++ arrivals)
      ({ c with connection := some { k with inbound := [] } }.leave left) := by
  rw [act, hc]
  rfl

/-- What arrives behind a drain that leaves the client running might as well have arrived before it. -/
theorem drain_arrive_drain {c : Client} (h : c.drain.isRunning = true) (arrivals : List Arrival)
    (left : Option (List UInt8)) :
    (c.drain.act (.arrive arrivals left)).drain = (c.act (.arrive arrivals left)).drain := by
  obtain ⟨k', hk'⟩ := Option.isSome_iff_exists.1 h
  have hempty := inbound_drain hk'
  have hsame : { c.drain with connection := some { k' with inbound := [] } } = c.drain := by
    rw [← hempty, ← hk']
  cases hc : c.connection with
  | none =>
    rw [drain_of_stopped hc, hc] at hk'
    cases hk'
  | some k =>
    have hdrain : c.drain =
        drainIn k.inbound { c with connection := some { k with inbound := [] } } := by
      rw [drain, hc]
    rw [drain_arrive hc, drainIn_append (hdrain ▸ h), ← hdrain, drain_arrive hk', hsame, hempty,
      List.nil_append]

/-! ## The loop -/

/-- What arrives before a round, and what is left of the bytes behind it. -/
abbrev Round := List Arrival × Option (List UInt8)

/-- A poll whose report is put back. -/
def pollBack (c : Client) : Client := { c.poll.1 with pending := c.poll.1.pending ++ c.poll.2 }

/-- Nothing but a drain is seen of a poll whose report is put back. -/
theorem pollBack_eq_drain (c : Client) : c.pollBack = c.drain := rfl

/-- The client after all arrivals of some rounds. -/
def arriveAll (c : Client) (rounds : List Round) : Client := c.run (rounds.map fun r => .arrive r.1 r.2)

/-- The loop of a wait, over its rounds. -/
def waitIn (uri : String) : Client → List Round → Client × Bool
  | c, [] => (c, false)
  | c, (arrivals, left) :: rounds =>
    let c := (c.act (.arrive arrivals left)).pollBack
    if c.published.contains uri then (c, true)
    else if c.isRunning then waitIn uri c rounds
    else (c, false)

/-- The arrivals of some rounds are arrivals of one. -/
theorem exists_arrive {rounds : List Round} (h : rounds ≠ []) :
    ∃ arrivals left, ∀ c : Client, c.arriveAll rounds = c.act (.arrive arrivals left) := by
  induction rounds with
  | nil => exact absurd rfl h
  | cons r rounds ih =>
    by_cases hrounds : rounds = []
    · exact ⟨r.1, r.2, fun c => by rw [hrounds]; rfl⟩
    · obtain ⟨arrivals, left, hall⟩ := ih hrounds
      refine ⟨r.1 ++ arrivals, left, fun c => ?_⟩
      have hrest := hall (c.act (.arrive r.1 r.2))
      rw [arriveAll, List.map_cons, run_cons]
      refine hrest.trans ?_
      simp [act, Connection.arrive, Function.comp_def]

theorem drain_arriveAll_drain {c : Client} (h : c.drain.isRunning = true) {rounds : List Round}
    (hrounds : rounds ≠ []) : (c.drain.arriveAll rounds).drain = (c.arriveAll rounds).drain := by
  obtain ⟨arrivals, left, hall⟩ := exists_arrive hrounds
  rw [hall, hall, drain_arrive_drain h]

/--
A wait in rounds is one wait for all that arrives by its last round, and that is the last of all unless
findings were published or the client was stopped before.
-/
theorem waitIn_eq_waitForDiagnostics (uri : String) (c : Client) {rounds : List Round}
    (h : rounds ≠ []) :
    ∃ n, 0 < n ∧ n ≤ rounds.length ∧
      waitIn uri c rounds = (c.arriveAll (rounds.take n)).waitForDiagnostics uri ∧
      (n < rounds.length → (waitIn uri c rounds).2 = true ∨ (waitIn uri c rounds).1.isRunning = false) := by
  induction rounds generalizing c with
  | nil => exact absurd rfl h
  | cons r rounds ih =>
    let d := c.act (.arrive r.1 r.2)
    have hfirst : c.arriveAll ((r :: rounds).take 1) = d := rfl
    have hround : waitIn uri c (r :: rounds) =
        if d.drain.published.contains uri then (d.drain, true)
        else if d.drain.isRunning then waitIn uri d.drain rounds
        else (d.drain, false) := rfl
    -- the first round is the last one, or the client runs behind it
    by_cases hpublished : d.drain.published.contains uri = true
    · rw [if_pos hpublished] at hround
      refine ⟨1, Nat.one_pos, by simp, ?_, fun _ => .inl (by rw [hround])⟩
      rw [hround, hfirst, waitForDiagnostics, hpublished]
    rw [if_neg hpublished] at hround
    rw [Bool.not_eq_true] at hpublished
    by_cases hrunning : d.drain.isRunning = true
    · rw [if_pos hrunning] at hround
      by_cases hrounds : rounds = []
      · refine ⟨1, Nat.one_pos, by simp, ?_, fun hlt => absurd hlt (by simp [hrounds])⟩
        rw [hround, hfirst, hrounds, waitIn, waitForDiagnostics, hpublished]
      · obtain ⟨n, hn, hle, hwait, hlast⟩ := ih d.drain hrounds
        have htake : rounds.take n ≠ [] := by
          rw [← List.length_pos_iff, List.length_take]
          omega
        refine ⟨n + 1, Nat.succ_pos n, Nat.succ_le_succ hle, ?_, fun hlt => ?_⟩
        · have hdrain := drain_arriveAll_drain hrunning htake
          rw [hround, hwait, waitForDiagnostics, hdrain]
          rfl
        · rw [hround]
          exact hlast (Nat.lt_of_succ_lt_succ hlt)
    · rw [if_neg hrunning] at hround
      refine ⟨1, Nat.one_pos, by simp, ?_, fun _ => .inr ?_⟩
      · rw [hround, hfirst, waitForDiagnostics, hpublished]
      · rw [hround]
        simpa using hrunning

end Client

end ColorMarks
