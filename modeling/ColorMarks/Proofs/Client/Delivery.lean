import ColorMarks.Proofs.Client.Effect
import Mathlib.Data.List.Forall2
import Mathlib.Data.List.ModifyLast

/-!
# What arrives on the connections of a run

Along a run it is noted which messages arrive on each connection, taken or not (`deliveries`). A relation
between what arrived and the connection is kept by runs if every step on a connection keeps it
(`forall₂_deliveries`). So the messages taken from a connection are the first ones that arrived on it, in
their order (`taken_prefix_deliveries`).
-/

namespace ColorMarks

open ColorMarks.Frame (Arrival)
open Relation (ReflTransGen)

/-- The messages among some arrivals. -/
def Frame.Arrival.messages (arrivals : List Arrival) : List Json :=
  arrivals.filterMap fun
    | .message m => some m
    | _ => none

open Frame.Arrival (messages)

@[simp] theorem Frame.Arrival.messages_append (as bs : List Arrival) :
    messages (as ++ bs) = messages as ++ messages bs := List.filterMap_append

namespace Connection

/-- The messages taken from a connection, in order. -/
def taken (c : Connection) : List Json := c.history.filterMap Traffic.message?

/-- The messages that wait in the queue of a connection. -/
def waiting (c : Connection) : List Json := messages c.inbound

end Connection

namespace Client

/-- The messages that arrived on each connection, the last one perhaps the client's own, after an action. -/
def deliver (c : Client) (arrived : List (List Json)) (a : Action) : List (List Json) :=
  match c.opening? a, a with
  | some o, _ => arrived ++ [messages o.inbound]
  | none, .arrive arrivals _ =>
    if c.isRunning then arrived.modifyLast (· ++ messages arrivals) else arrived
  | none, _ => arrived

/-- The messages that arrive on each connection that begins in a run, in order. -/
def deliveriesFrom (c : Client) (arrived : List (List Json)) : List Action → List (List Json)
  | [] => arrived
  | a :: actions => (c.act a).deliveriesFrom (c.deliver arrived a) actions

/-- `deliveriesFrom` for a client on whose connections nothing was noted before. -/
def deliveries (c : Client) (actions : List Action) : List (List Json) := c.deliveriesFrom [] actions

theorem deliver_of_opening? {c : Client} {a : Action} {o : Opening} (h : c.opening? a = some o)
    (arrived : List (List Json)) : c.deliver arrived a = arrived ++ [messages o.inbound] := by
  unfold deliver
  rw [h]

theorem deliver_of_idle {c : Client} {a : Action} (hopening : c.opening? a = none)
    (harrive : ∀ arrivals left, a = .arrive arrivals left → c.connection = none)
    (arrived : List (List Json)) : c.deliver arrived a = arrived := by
  unfold deliver
  rw [hopening]
  cases a with
  | arrive arrivals left => simp [isRunning, harrive arrivals left rfl]
  | _ => rfl

theorem deliver_of_update? {c : Client} {a : Action} {u : Update} (h : c.update? a = some u)
    (arrived : List (List Json)) : c.deliver arrived a = arrived := by
  cases a with
  | openDocument | closeDocument | fileEvent => rfl
  | _ => cases h

/-! ## Relations that runs keep -/

/--
Relations between what arrived on a connection and the connection: `R` for the one that a client has and
`R'` for those of the past, whose queue may be gone. Every step on a connection keeps `R`.
-/
structure IsKept (R R' : List Json → Connection → Prop) : Prop where
  opening : ∀ o : Opening, R (messages o.inbound) o.connection
  arrive : ∀ {ms : List Json} {k : Connection} (arrivals : List Arrival)
    (left : Option (List UInt8)), R ms k → R (ms ++ messages arrivals) (k.arrive arrivals left)
  step : ∀ {ms : List Json} {k k' : Connection}, R ms k → k.Step k' → R ms k'
  past : ∀ {ms : List Json} {k : Connection} (left : List Arrival), R ms k →
    R' ms { k with inbound := left }

/-- What arrived is related to the connections of a client. -/
def Delivered (R R' : List Json → Connection → Prop) (arrived : List (List Json)) (c : Client) :
    Prop :=
  ∃ past now, arrived = past ++ now ∧ List.Forall₂ R' past c.retired ∧
    List.Forall₂ R now c.connection.toList

variable {R R' : List Json → Connection → Prop} {arrived : List (List Json)} {c : Client}

/-- Two relations that runs keep are kept together. -/
theorem IsKept.and {S S' : List Json → Connection → Prop} (hR : IsKept R R') (hS : IsKept S S') :
    IsKept (fun ms k => R ms k ∧ S ms k) (fun ms k => R' ms k ∧ S' ms k) where
  opening := fun o => ⟨hR.opening o, hS.opening o⟩
  arrive := fun arrivals left h => ⟨hR.arrive arrivals left h.1, hS.arrive arrivals left h.2⟩
  step := fun h hstep => ⟨hR.step h.1 hstep, hS.step h.2 hstep⟩
  past := fun left h => ⟨hR.past left h.1, hS.past left h.2⟩

theorem IsKept.steps (hR : IsKept R R') {ms : List Json} {k k' : Connection} (h : R ms k)
    (hsteps : ReflTransGen Connection.Step k k') : R ms k' := by
  induction hsteps with
  | refl => exact h
  | tail _ hstep ih => exact hR.step ih hstep

theorem Delivered.stopped (h : Delivered R R' arrived c) (hc : c.connection = none) :
    List.Forall₂ R' arrived c.retired := by
  obtain ⟨past, now, rfl, hpast, hnow⟩ := h
  rw [hc, Option.toList_none, List.forall₂_nil_right_iff] at hnow
  rwa [hnow, List.append_nil]

theorem Delivered.running (h : Delivered R R' arrived c) {k : Connection}
    (hc : c.connection = some k) :
    ∃ past ms, arrived = past ++ [ms] ∧ List.Forall₂ R' past c.retired ∧ R ms k := by
  obtain ⟨past, now, rfl, hpast, hnow⟩ := h
  rw [hc, Option.toList_some] at hnow
  obtain ⟨ms, ks, hms, hnil, rfl⟩ := List.forall₂_cons_right_iff.1 hnow
  rw [List.forall₂_nil_right_iff.1 hnil]
  exact ⟨past, ms, rfl, hpast, hms⟩

theorem delivered_of_running {past : List (List Json)} {ms : List Json} {k : Connection}
    (hc : c.connection = some k) (hpast : List.Forall₂ R' past c.retired) (hms : R ms k) :
    Delivered R R' (past ++ [ms]) c := by
  refine ⟨past, [ms], rfl, hpast, ?_⟩
  rw [hc]
  exact .cons hms .nil

/-- A client whose connection is one of the past now. -/
theorem delivered_of_retired {past : List (List Json)} {ms : List Json} {k : Connection}
    {ks : List Connection} (hc : c.connection = none) (hpast : List.Forall₂ R' past ks)
    (hms : R' ms k) (hretired : c.retired = ks ++ [k]) : Delivered R R' (past ++ [ms]) c := by
  refine ⟨past ++ [ms], [], (List.append_nil _).symm, ?_, ?_⟩
  · rw [hretired]
    exact List.rel_append hpast (.cons hms .nil)
  · rw [hc]
    exact .nil

theorem delivered_take (hR : IsKept R R') (h : Delivered R R' arrived c) {c' : Client}
    (ht : Take c c') : Delivered R R' arrived c' := by
  cases ht with
  | heard hc hk =>
    obtain ⟨past, ms, rfl, hpast, hms⟩ := h.running hc
    exact delivered_of_running rfl (by simpa using hpast) (hR.step hms (.taken hk))
  | @lost k a rest reason hc hk ha left =>
    obtain ⟨past, ms, rfl, hpast, hms⟩ := h.running hc
    have hlost := hR.past left (hR.step hms (.taken hk))
    cases a with
    | message m => cases ha
    | failed text => exact delivered_of_retired rfl hpast hlost rfl
    | closed => exact delivered_of_retired rfl hpast hlost rfl

theorem delivered_drain (hR : IsKept R R') (h : Delivered R R' arrived c) :
    Delivered R R' arrived c.drain := by
  have htakes := drain_takes c
  generalize c.drain = c' at htakes
  induction htakes with
  | refl => exact h
  | tail _ htake ih => exact delivered_take hR ih htake

theorem delivered_act (hR : IsKept R R') (h : Delivered R R' arrived c) (a : Action) :
    Delivered R R' (c.deliver arrived a) (c.act a) := by
  have heffect := effect_act c a
  generalize c.act a = c' at heffect
  cases heffect with
  | idle hopening _ harrive => rwa [deliver_of_idle hopening harrive]
  | @arrived k hc arrivals left =>
    obtain ⟨past, ms, rfl, hpast, hms⟩ := h.running hc
    have hrunning : c.isRunning = true := by rw [isRunning, hc]; rfl
    have hdeliver : c.deliver (past ++ [ms]) (.arrive arrivals left) =
        past ++ [ms ++ messages arrivals] := by
      simp [deliver, opening?, hrunning, List.modifyLast_concat]
    rw [hdeliver]
    exact delivered_of_running rfl hpast (hR.arrive arrivals left hms)
  | @told _ k k' u hc hu hsend =>
    obtain ⟨past, ms, rfl, hpast, hms⟩ := h.running hc
    rw [deliver_of_update? hu]
    have htold := hR.step hms (.told u.hasMethod_message)
    rw [hsend] at htold
    exact delivered_of_running rfl hpast htold
  | polled => exact delivered_drain hR h
  | waited => exact delivered_drain hR h
  | @refused _ o k e hopening hshake =>
    have hc := connection_of_opening? hopening
    have hsteps := handshake_steps c o.connection
    rw [hshake] at hsteps
    rw [deliver_of_opening? hopening]
    exact delivered_of_retired hc (h.stopped hc)
      (hR.past k.inbound (hR.steps (hR.opening o) hsteps)) rfl
  | @attached _ o k info early hopening hshake =>
    have hc := connection_of_opening? hopening
    have hsteps := handshake_steps c o.connection
    rw [hshake] at hsteps
    rw [deliver_of_opening? hopening]
    refine delivered_of_running (k := k) (by simp) (by simpa using h.stopped hc) ?_
    exact hR.steps (hR.opening o) hsteps
  | @stopped k hc =>
    obtain ⟨past, ms, rfl, hpast, hms⟩ := h.running hc
    have hsteps := k.shutdown_steps c.options.shutdownPatience
    exact delivered_of_retired rfl hpast
      (hR.past (k.shutdown c.options.shutdownPatience).1.inbound (hR.steps hms hsteps)) rfl

theorem delivered_run (hR : IsKept R R') (h : Delivered R R' arrived c) (actions : List Action) :
    Delivered R R' (c.deliveriesFrom arrived actions) (c.run actions) := by
  induction actions generalizing c arrived with
  | nil => exact h
  | cons a actions ih => exact ih (delivered_act hR h a)

/-- What arrived is related to all connections of a run. -/
theorem forall₂_deliveries (hR : IsKept R R') (id name : String) (host : Host)
    (server : ServerOptions) (options : ClientOptions) (workspace : Option String)
    (actions : List Action) :
    let c := Client.new id name host server options workspace
    List.Forall₂ R' (c.deliveries actions) (c.run actions).connections := by
  intro c
  have hstart : Delivered R R' [] c := ⟨[], [], rfl, .nil, .nil⟩
  obtain ⟨past, now, heq, hpast, hnow⟩ := delivered_run hR hstart actions
  rw [deliveries, heq, connections]
  refine List.rel_append hpast (hnow.imp fun ms k h => hR.past k.inbound h)

end Client

/-! ## Messages are taken in the order of their arrival -/

namespace Connection

@[simp] theorem waiting_send (c : Connection) (m : Json) : (c.send m).1.waiting = c.waiting := by
  unfold send
  split
  · split <;> simp [waiting, messages, record]
  · rfl

@[simp] theorem taken_send (c : Connection) (m : Json) : (c.send m).1.taken = c.taken := by
  rcases send_spec c m with ⟨t, k, hsend, ht, hk⟩ | hsend
  · rw [hsend, taken, taken, hk.history, List.filterMap_append]
    simp [Traffic.message?_of_handed? ht]
  · rw [hsend]

@[simp] theorem waiting_answer (c : Connection) (m : Json) :
    (c.answer m).1.waiting = c.waiting := by
  unfold answer
  split
  · exact waiting_send c _
  · rfl

@[simp] theorem taken_answer (c : Connection) (m : Json) : (c.answer m).1.taken = c.taken := by
  unfold answer
  split
  · exact taken_send c _
  · rfl

@[simp] theorem waiting_attend (c : Connection) (a : Arrival) :
    (c.attend a).waiting = c.waiting := by
  cases a with
  | message m =>
    cases hm : isRequest m with
    | true => rw [attend_of_isRequest c hm, waiting_answer]; rfl
    | false => rw [attend_of_not_isRequest c hm]; rfl
  | failed text => rfl
  | closed => rfl

theorem taken_record_received (c : Connection) (a : Arrival) :
    (c.record (.received a)).taken = c.taken ++ messages [a] := by
  rw [taken, taken, record, List.filterMap_append]
  cases a <;> rfl

theorem taken_attend (c : Connection) (a : Arrival) :
    (c.attend a).taken = c.taken ++ messages [a] := by
  cases a with
  | message m =>
    cases hm : isRequest m with
    | true => rw [attend_of_isRequest c hm, taken_answer, taken_record_received]
    | false => rw [attend_of_not_isRequest c hm, taken_record_received]
  | failed text => exact taken_record_received c _
  | closed => exact taken_record_received c _

end Connection

namespace Client

theorem isKept_taken :
    IsKept (fun ms k => ms = k.taken ++ k.waiting) (fun ms k => k.taken <+: ms) where
  opening := fun _ => rfl
  arrive := by
    rintro _ k arrivals left rfl
    simp [Connection.arrive, Connection.waiting, Connection.taken, messages]
  step := by
    rintro _ k k' rfl hstep
    cases hstep with
    | @taken a rest h =>
      rw [Connection.taken_attend, Connection.waiting_attend, Connection.waiting, h,
        List.append_assoc, Connection.waiting, ← Frame.Arrival.messages_append]
      rfl
    | told hm => simp
    | numbered => rfl
  past := by
    rintro _ k left rfl
    exact List.prefix_append _ _

/-- The messages taken from a connection are the first ones that arrived on it. -/
theorem taken_prefix_deliveries (id name : String) (host : Host) (server : ServerOptions)
    (options : ClientOptions) (workspace : Option String) (actions : List Action) :
    let c := Client.new id name host server options workspace
    List.Forall₂ (fun arrived conn => conn.taken <+: arrived) (c.deliveries actions)
      (c.run actions).connections :=
  forall₂_deliveries isKept_taken id name host server options workspace actions

end Client

end ColorMarks
