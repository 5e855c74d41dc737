import ColorMarks.Proofs.Client.Effect

/-!
# What an action can do to a client

`Turn` names the changes that a client can go through on a connection, `Opens` the two ways in which a
connection begins and `Stops` the end by a shutdown. Every action is one of the last two or a chain of
turns (`act_cases`), so what these three keep is kept by whole runs (`run_induction`).
-/

namespace ColorMarks

open ColorMarks.Frame (Arrival)
open Relation (ReflTransGen)

namespace Client

/-- A change that a client goes through on its connection. -/
inductive Turn (c : Client) : Client → Prop
  | arrived {k : Connection} (hc : c.connection = some k) (arrivals : List Arrival)
      (left : Option (List UInt8)) :
      Turn c { c with connection := some (k.arrive arrivals left) }
  | told {k k' : Connection} {t : Traffic} (u : Update) (hc : c.connection = some k)
      (hk : k.Continues [t] k') (ht : t.handed? = some u.message) (hu : u.Allowed c.openDocuments) :
      Turn c { c with connection := some k', openDocuments := u.apply c.openDocuments }
  | heard {k k' : Connection} {ts : List Traffic} (hc : c.connection = some k)
      (hk : k.Continues ts k') (hquiet : ∀ t ∈ ts, t.IsQuiet) : Turn c (c.heard ts k')
  | lost {k : Connection} (hc : c.connection = some k) (reason : String) :
      Turn c (c.disconnect reason)
  | reported : Turn c { c with pending := [] }

/-- A connection begins: the handshake fails and ends it, or the client runs on it. -/
inductive Opens (c : Client) : Client → Prop
  | refused {o : Opening} {ts : List Traffic} {k : Connection} (hc : c.connection = none)
      (hts : Attempt 1 ts) (hk : { o.connection with nextId := 2 }.Continues ts k) :
      Opens c { c with serverInfo := none, retired := c.retired ++ [k] }
  | attached {o : Opening} {ts : List Traffic} {k : Connection} {info : Option ServerInfo}
      (hc : c.connection = none) (hts : Greeting 1 ts)
      (hk : { o.connection with nextId := 2 }.Continues ts k) :
      Opens c ({ c with serverInfo := info }.heard ts k)

/-- The connection is shut down, and everything that was known is forgotten. -/
inductive Stops (c : Client) : Client → Prop
  | mk {k k' : Connection} {ts : List Traffic} (hc : c.connection = some k)
      (hts : Farewell k.nextId ts) (hk : { k with nextId := k.nextId + 1 }.Continues ts k') :
      Stops c { c with
        connection := none, retired := c.retired ++ [k'], serverInfo := none, store := .empty
        published := [], openDocuments := [] }

/-- Taking an arrival is one turn, and one more if the connection is lost with it. -/
theorem take_turn {c c' : Client} (h : Take c c') : ReflTransGen Turn c c' := by
  cases h with
  | @heard k m rest hc hk =>
    obtain ⟨replies, hcontinues, hreplies⟩ := { k with inbound := rest }.attend_spec m
    have hquiet : ∀ t ∈ .received (.message m) :: replies, t.IsQuiet :=
      List.forall_mem_cons.2 ⟨Traffic.isQuiet_received _, fun t ht => .inr (hreplies t ht)⟩
    have hheard : c.heard (.received (.message m) :: replies)
          ({ k with inbound := rest }.attend (.message m)) =
        { c.noticeAll (Notification.ofJson? m).toList with
          connection := some ({ k with inbound := rest }.attend (.message m)) } := by
      rw [heard, notifications_received_cons m hreplies]
    have hqueue := (Connection.Continues.refl k).queue rest k.partialFrame
    rw [← hheard]
    exact .single (.heard hc (hqueue.trans hcontinues) hquiet)
  | @lost k a rest reason hc hk ha left =>
    have hqueue := (Connection.Continues.refl k).queue left k.partialFrame
    have hheard := Turn.heard hc (hqueue.trans (Connection.continues_record_received _ a))
      (by simp [Traffic.IsQuiet])
    rw [heard, List.nil_append, notifications_of_loss ha] at hheard
    exact (ReflTransGen.single hheard).tail (.lost rfl reason)

/-- Taking everything is a chain of turns. -/
theorem drain_turn (c : Client) : ReflTransGen Turn c c.drain := by
  have htakes := drain_takes c
  generalize c.drain = c' at htakes
  induction htakes with
  | refl => exact .refl
  | tail _ htake ih => exact ih.trans (take_turn htake)

theorem refused_opens {c : Client} (hc : c.connection = none) {o : Opening} {k : Connection}
    {e : IoError} (hshake : c.handshake o.connection = (k, .error e)) :
    Opens c { c with serverInfo := none, retired := c.retired ++ [k] } := by
  obtain ⟨ts, hts, hk⟩ := attempt_of_handshake hshake
  exact .refused hc hts hk

theorem attached_opens {c : Client} (hc : c.connection = none) {o : Opening} {k : Connection}
    {info : Option ServerInfo} {early : List Json}
    (hshake : c.handshake o.connection = (k, .ok (info, early))) :
    Opens c ({ c with serverInfo := info, connection := some k }.noticeAll
      (early.filterMap Notification.ofJson?)) := by
  obtain ⟨ts, hts, hk, hearly⟩ := greeting_of_handshake hshake
  have hheard := noticeAll_with_connection { c with serverInfo := info } (some k)
    (Traffic.notifications ts)
  rw [hearly]
  exact hheard ▸ .attached hc hts hk

/-- An action is a chain of turns, begins a connection, or is a stop that ends one. -/
theorem act_cases (c : Client) (a : Action) :
    ReflTransGen Turn c (c.act a) ∨ Opens c (c.act a) ∨ a = .stop ∧ Stops c (c.act a) := by
  have heffect := effect_act c a
  generalize c.act a = c' at heffect
  cases heffect with
  | idle => exact .inl .refl
  | arrived hc arrivals left => exact .inl (.single (.arrived hc arrivals left))
  | @told _ k k' u hc hu hsend =>
    obtain ⟨t, ht, hk⟩ := Connection.handed_of_send hsend
    exact .inl (.single (.told u hc hk ht (allowed_of_update? hu)))
  | polled => exact .inl ((drain_turn c).tail .reported)
  | waited => exact .inl (drain_turn c)
  | refused hopening hshake =>
    exact .inr (.inl (refused_opens (connection_of_opening? hopening) hshake))
  | attached hopening hshake =>
    exact .inr (.inl (attached_opens (connection_of_opening? hopening) hshake))
  | @stopped k hc =>
    obtain ⟨ts, hts, hk⟩ := shutdown_spec k c.options.shutdownPatience
    exact .inr (.inr ⟨rfl, .mk hc hts hk⟩)

/-- What turns keep is kept by chains of them. -/
theorem turns_induction {P : Client → Prop} (hturn : ∀ c c', P c → Turn c c' → P c')
    {c c' : Client} (hc : P c) (h : ReflTransGen Turn c c') : P c' := by
  induction h with
  | refl => exact hc
  | tail _ hstep ih => exact hturn _ _ ih hstep

/-- What turns, openings and stops keep is kept by runs. -/
theorem run_induction {P : Client → Prop} (hturn : ∀ c c', P c → Turn c c' → P c')
    (hopens : ∀ c c', P c → Opens c c' → P c') (hstops : ∀ c c', P c → Stops c c' → P c')
    {c : Client} (hc : P c) (actions : List Action) : P (c.run actions) := by
  induction actions generalizing c with
  | nil => exact hc
  | cons a actions ih =>
    rw [run_cons]
    apply ih
    rcases act_cases c a with h | h | ⟨_, h⟩
    · exact turns_induction hturn hc h
    · exact hopens _ _ hc h
    · exact hstops _ _ hc h

end Client

end ColorMarks
