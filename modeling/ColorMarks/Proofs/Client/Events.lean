import ColorMarks.Proofs.Client.Published

/-!
# What polls report

What is taken from a connection while the client runs on it has its events: those of the notifications,
and the loss of the connection (`Traffic.events`). They wait in the client until a poll reports them.
What polls have reported and what still waits are the events of all connections, each once and in the
order in which they were taken (`Accounts`), so nothing is missing after a poll (`reports_eq_events`).
-/

namespace ColorMarks

open ColorMarks.Frame (Arrival)
open Relation (ReflTransGen)

/-- The event that a notification is. -/
def Notification.event : Notification → Event
  | publish p => .diagnostics p.uri p.diagnostics.length
  | showMessage m => .showMessage m
  | logMessage m => .logMessage m

/-- What was stored last for a document is found. -/
theorem Store.get?_update_self (s : Store) (uri : String) (ds : List Diagnostic) :
    ((s.update uri ds).get? uri).getD [] = ds := by
  unfold update
  split
  · rename_i hempty
    simp [get?, List.isEmpty_iff.1 hempty]
  · simp [get?]

namespace Traffic

/-- The event of something that happened on a connection. -/
def event? : Traffic → Option Event
  | received (.message m) => (Notification.ofJson? m).map Notification.event
  | t => t.lossReason?.map Event.disconnected

/-- Whether a message asks the server to shut down. -/
def isFarewell (m : Json) : Bool := (m.get? "method").bind Json.asString? == some "shutdown"

/-- Whether the client heeds nothing that is taken after this. -/
def isLast (t : Traffic) : Bool := t.lossReason?.isSome || t.handed?.any isFarewell

/-- The events of some traffic, up to the loss of the connection or the request to shut down. -/
def events : List Traffic → List Event
  | [] => []
  | t :: ts => t.event?.toList ++ if t.isLast then [] else events ts

theorem event?_of_handed? {t : Traffic} {m : Json} (h : t.handed? = some m) : t.event? = none := by
  cases t with
  | received a => cases h
  | _ => rfl

theorem isLast_of_handed? {t : Traffic} {m : Json} (h : t.handed? = some m) :
    t.isLast = isFarewell m := by
  rw [isLast, lossReason?_of_handed? h, h]
  rfl

/-- Neither what arrives without a loss nor a reply is the last. -/
theorem isLast_of_quiet {t : Traffic} (hquiet : t.IsQuiet) (hwhole : t.lossReason? = none) :
    t.isLast = false := by
  rcases hquiet with hnone | ⟨id, result, hreply⟩
  · rw [isLast, hwhole, hnone]
    rfl
  · rw [isLast_of_handed? hreply]
    rfl

/-- As long as nothing was the last, everything that follows is heeded. -/
theorem events_append {ts : List Traffic} (h : ∀ t ∈ ts, t.isLast = false) (us : List Traffic) :
    events (ts ++ us) = events ts ++ events us := by
  induction ts with
  | nil => rfl
  | cons t ts ih =>
    rw [List.forall_mem_cons] at h
    simp [events, h.1, ih h.2]

/-- What is handed over is no event. -/
theorem events_of_handed {ts : List Traffic} (h : ∀ t ∈ ts, ∃ m, t.handed? = some m) :
    events ts = [] := by
  induction ts with
  | nil => rfl
  | cons t ts ih =>
    rw [List.forall_mem_cons] at h
    obtain ⟨m, hm⟩ := h.1
    rw [events, event?_of_handed? hm, ih h.2]
    simp

/-- Without a loss, the events are those of the notifications. -/
theorem events_eq_notifications {ts : List Traffic} (h : ∀ t ∈ ts, t.isLast = false) :
    events ts = (notifications ts).map Notification.event := by
  induction ts with
  | nil => rfl
  | cons t ts ih =>
    rw [List.forall_mem_cons] at h
    have hevent : t.event?.toList = (notifications [t]).map Notification.event := by
      have hloss : t.lossReason? = none := by
        have hlast := h.1
        rw [isLast, Bool.or_eq_false_iff] at hlast
        simpa using hlast.1
      cases t with
      | received a =>
        cases a with
        | message m => cases hn : Notification.ofJson? m <;> simp [event?, notifications, hn]
        | failed text => cases hloss
        | closed => cases hloss
      | _ => rfl
    rw [events, h.1, if_neg Bool.false_ne_true, hevent, ih h.2, ← List.map_append,
      ← notifications_append, List.singleton_append]

/-- Nothing is the last in a handshake that succeeds. -/
theorem isLast_of_greeting {id : Nat} {ts : List Traffic} (h : Greeting id ts) :
    ∀ t ∈ ts, t.isLast = false := by
  obtain ⟨hasked, hquiet, -, -, htold, hwhole⟩ := h
  intro t ht
  simp only [List.mem_cons, List.mem_append, List.not_mem_nil, or_false] at ht
  rcases ht with rfl | ht | rfl | rfl
  · rw [isLast_of_handed? hasked]
    simp [isFarewell, Json.asString?]
  · exact isLast_of_quiet (hquiet t ht) (hwhole t ht)
  · exact isLast_of_quiet (isQuiet_received _) rfl
  · rw [isLast_of_handed? htold]
    simp [isFarewell, Json.asString?]

/-- Nothing is heeded any more when the connection is shut down. -/
theorem events_of_farewell {id : Nat} {ts : List Traffic} (h : Farewell id ts) :
    events ts = [] := by
  have hasked {asked : Traffic} {ts : List Traffic} (hasked : asked.handed? =
      some (Connection.requestOf id "shutdown" .null)) : events (asked :: ts) = [] := by
    have hlast : asked.isLast = true := by
      rw [isLast_of_handed? hasked]
      simp [isFarewell, Json.asString?]
    rw [events, event?_of_handed? hasked, hlast]
    rfl
  cases h with
  | silent => rfl
  | asked h => exact hasked h
  | answered h => exact hasked h

end Traffic

namespace Connection

/-- What the client noticed of what was taken from a connection: nothing if the handshake failed. -/
def events (conn : Connection) : List Event :=
  if conn.greeted then Traffic.events conn.history else []

/-- The client runs on the connection: neither is it lost nor is it being shut down. -/
structure Runs (conn : Connection) : Prop where
  greeted : conn.greeted = true
  goesOn : ∀ t ∈ conn.history, t.isLast = false

/-- The events of a connection that the client ran on before some more traffic. -/
theorem Runs.events_append {c k : Connection} (h : c.Runs) {ts : List Traffic}
    (hk : k.history = c.history ++ ts) : k.events = c.events ++ Traffic.events ts := by
  rw [events, events, if_pos h.greeted, if_pos (greeted_of_history h.greeted hk), hk,
    Traffic.events_append h.goesOn]

theorem Runs.append {c k : Connection} (h : c.Runs) {ts : List Traffic}
    (hk : k.history = c.history ++ ts) (hts : ∀ t ∈ ts, t.isLast = false) : k.Runs where
  greeted := greeted_of_history h.greeted hk
  goesOn := by
    rw [hk]
    exact List.forall_mem_append.2 ⟨h.goesOn, hts⟩

/-- What the server is told about documents does not end the connection. -/
theorem Runs.told {c k : Connection} (h : c.Runs) {t : Traffic} {u : Update}
    (ht : t.handed? = some u.message) (hk : k.history = c.history ++ [t]) : k.Runs := by
  refine h.append hk fun t' ht' => ?_
  rw [List.mem_singleton.1 ht', Traffic.isLast_of_handed? ht]
  cases u <;> simp [Traffic.isFarewell, Update.message, Json.asString?]

/-- Attending to a message adds what it notifies of, and nothing that ends the connection. -/
theorem attend_history (c : Connection) (m : Json) :
    ∃ ts, (c.attend (.message m)).history = c.history ++ ts ∧ (∀ t ∈ ts, t.isLast = false) ∧
      Traffic.notifications ts = (Notification.ofJson? m).toList := by
  obtain ⟨replies, hcontinues, hreplies⟩ := c.attend_spec m
  refine ⟨_, hcontinues.history, ?_, ?_⟩
  · rw [List.forall_mem_cons]
    refine ⟨Traffic.isLast_of_quiet (Traffic.isQuiet_received _) rfl, fun t ht => ?_⟩
    obtain ⟨id, result, hreply⟩ := hreplies t ht
    rw [Traffic.isLast_of_handed? hreply]
    rfl
  · exact Client.notifications_received_cons m hreplies

/-- A message that is taken brings its event, and the client still runs on the connection. -/
theorem Runs.attend {c : Connection} (h : c.Runs) (m : Json) :
    (c.attend (.message m)).Runs ∧ (c.attend (.message m)).events =
      c.events ++ (Notification.ofJson? m).toList.map Notification.event := by
  obtain ⟨ts, hhistory, hlast, hnotifications⟩ := c.attend_history m
  refine ⟨h.append hhistory hlast, ?_⟩
  rw [h.events_append hhistory, Traffic.events_eq_notifications hlast, hnotifications]

end Connection

namespace Client

/-- The events of all connections of a client, in order. -/
def events (c : Client) : List Event := c.connections.flatMap Connection.events

/-- What an action reports: only polls report anything. -/
def report (c : Client) : Action → List Event
  | .poll => c.poll.2
  | _ => []

/-- What is reported in a run, in order. -/
def reports (c : Client) : List Action → List Event
  | [] => []
  | a :: actions => c.report a ++ (c.act a).reports actions

/-- What was reported and what waits to be are the events of the connections of a client. -/
structure Accounts (reported : List Event) (c : Client) : Prop where
  events : reported ++ c.pending = c.events
  current : ∀ k, c.connection = some k → k.Runs

theorem report_of_ne_poll {c : Client} {a : Action} (h : a ≠ .poll) : c.report a = [] := by
  cases a with
  | poll => exact absurd rfl h
  | _ => rfl

theorem report_of_opening? {c : Client} {a : Action} {o : Opening} (h : c.opening? a = some o) :
    c.report a = [] :=
  report_of_ne_poll fun heq => by rw [heq] at h; cases h

theorem report_of_update? {c : Client} {a : Action} {u : Update} (h : c.update? a = some u) :
    c.report a = [] :=
  report_of_ne_poll fun heq => by rw [heq] at h; cases h

theorem events_of_stopped {c : Client} (hc : c.connection = none) :
    c.events = c.retired.flatMap Connection.events := by
  simp [events, connections, hc]

theorem events_of_running {c : Client} {k : Connection} (hc : c.connection = some k) :
    c.events = c.retired.flatMap Connection.events ++ k.events := by
  simp [events, connections, hc]

/-- Notifications wait as events, in their order. -/
theorem pending_noticeAll (c : Client) (ns : List Notification) :
    (c.noticeAll ns).pending = c.pending ++ ns.map Notification.event := by
  induction ns generalizing c with
  | nil => simp
  | cons n ns ih =>
    have hnotice : (c.notice n).pending = c.pending ++ [n.event] := by
      cases n with
      | publish p => simp [notice, Notification.event, Store.get?_update_self]
      | _ => rfl
    show ((c.notice n).noticeAll ns).pending = _
    rw [ih, hnotice, List.append_assoc]
    rfl

variable {reported : List Event} {c : Client}

theorem Accounts.running (h : c.Accounts reported) {k : Connection} (hc : c.connection = some k) :
    k.Runs ∧ reported ++ c.pending = c.retired.flatMap Connection.events ++ k.events :=
  ⟨h.current k hc, by rw [h.events, events_of_running hc]⟩

theorem Accounts.stopped (h : c.Accounts reported) (hc : c.connection = none) :
    reported ++ c.pending = c.retired.flatMap Connection.events := by
  rw [h.events, events_of_stopped hc]

theorem accounts_of_running {k : Connection} (hc : c.connection = some k) (hk : k.Runs)
    (h : reported ++ c.pending = c.retired.flatMap Connection.events ++ k.events) :
    c.Accounts reported := by
  refine ⟨by rw [h, events_of_running hc], fun k' hk' => ?_⟩
  obtain rfl : k = k' := Option.some.inj (hc.symm.trans hk')
  exact hk

theorem accounts_of_stopped (hc : c.connection = none)
    (h : reported ++ c.pending = c.retired.flatMap Connection.events) : c.Accounts reported := by
  refine ⟨by rw [h, events_of_stopped hc], fun k hk => ?_⟩
  rw [hc] at hk
  cases hk

/-- Taking an arrival makes its event wait. -/
theorem accounts_take (h : c.Accounts reported) {c' : Client} (ht : Take c c') :
    c'.Accounts reported := by
  cases ht with
  | @heard k m rest hc hk =>
    obtain ⟨hruns, hevents⟩ := h.running hc
    have hqueue : { k with inbound := rest }.Runs := ⟨hruns.greeted, hruns.goesOn⟩
    obtain ⟨hattend, hadded⟩ := hqueue.attend m
    refine accounts_of_running rfl hattend ?_
    rw [hadded, retired_noticeAll, pending_noticeAll, ← List.append_assoc, hevents,
      List.append_assoc]
    rfl
  | @lost k a rest reason hc hk ha left =>
    obtain ⟨hruns, hevents⟩ := h.running hc
    have hlost : Traffic.events [.received a] = [.disconnected reason] := by
      cases a with
      | message m => cases ha
      | failed text => cases ha; rfl
      | closed => cases ha; rfl
    have hadded := hruns.events_append
      (k := { k with inbound := left }.record (.received a)) rfl
    refine accounts_of_stopped rfl ?_
    simp only [disconnect, retire, receive, Option.map_some, Option.toList_some,
      List.flatMap_append, List.flatMap_cons, List.flatMap_nil, List.append_nil]
    rw [hadded, hlost, ← List.append_assoc, hevents, List.append_assoc]

theorem accounts_drain (h : c.Accounts reported) : c.drain.Accounts reported := by
  have htakes := drain_takes c
  generalize c.drain = c' at htakes
  induction htakes with
  | refl => exact h
  | tail _ htake ih => exact accounts_take ih htake

theorem accounts_act (h : c.Accounts reported) (a : Action) :
    (c.act a).Accounts (reported ++ c.report a) := by
  have heffect := effect_act c a
  generalize c.act a = c' at heffect
  cases heffect with
  | idle _ hpoll => rwa [report_of_ne_poll hpoll, List.append_nil]
  | arrived hc arrivals left =>
    obtain ⟨hruns, hevents⟩ := h.running hc
    rw [report_of_ne_poll (by simp), List.append_nil]
    exact accounts_of_running rfl ⟨hruns.greeted, hruns.goesOn⟩ hevents
  | @told _ k k' u hc hu hsend =>
    obtain ⟨hruns, hevents⟩ := h.running hc
    obtain ⟨t, ht, hk⟩ := Connection.handed_of_send hsend
    have hnone : Traffic.events [t] = [] := Traffic.events_of_handed (by simp [ht])
    have hadded := hruns.events_append hk.history
    rw [hnone, List.append_nil] at hadded
    rw [report_of_update? hu, List.append_nil]
    refine accounts_of_running rfl (hruns.told ht hk.history) ?_
    rw [hadded]
    exact hevents
  | polled =>
    -- the poll reports all that waits after the drain and leaves nothing
    have hdrain := accounts_drain h
    refine ⟨?_, hdrain.current⟩
    show (reported ++ c.drain.pending) ++ [] = c.drain.events
    rw [List.append_nil, hdrain.events]
  | waited =>
    rw [report_of_ne_poll (by simp), List.append_nil]
    exact accounts_drain h
  | @refused _ o k e hopening hshake =>
    have hc := connection_of_opening? hopening
    obtain ⟨ts, hts, hk⟩ := attempt_of_handshake hshake
    have hnothing : k.events = [] := by
      rw [Connection.events, Connection.greeted_of_attempt hts hk.history]
      rfl
    rw [report_of_opening? hopening, List.append_nil]
    refine accounts_of_stopped hc ?_
    simpa [hnothing] using h.stopped hc
  | @attached _ o k info early hopening hshake =>
    -- what came before the answer waits behind what was noticed on earlier connections
    have hc := connection_of_opening? hopening
    obtain ⟨ts, hts, hk, hearly⟩ := greeting_of_handshake hshake
    have hlast := Traffic.isLast_of_greeting hts
    have hgreeted := Connection.greeted_of_greeting hts hk.history
    rw [report_of_opening? hopening, List.append_nil]
    refine accounts_of_running (k := k) (by simp) ⟨hgreeted, by rwa [hk.history]⟩ ?_
    rw [pending_noticeAll, retired_noticeAll, hearly, Connection.events, if_pos hgreeted,
      hk.history, Opening.history_connection, List.nil_append,
      Traffic.events_eq_notifications hlast, ← List.append_assoc]
    congr 1
    exact h.stopped hc
  | @stopped k hc =>
    obtain ⟨hruns, hevents⟩ := h.running hc
    obtain ⟨ts, hts, hk⟩ := shutdown_spec k c.options.shutdownPatience
    have hadded := hruns.events_append hk.history
    rw [Traffic.events_of_farewell hts, List.append_nil] at hadded
    rw [report_of_ne_poll (by simp), List.append_nil]
    refine accounts_of_stopped rfl ?_
    simpa [hadded] using hevents

theorem accounts_run (h : c.Accounts reported) (actions : List Action) :
    (c.run actions).Accounts (reported ++ c.reports actions) := by
  induction actions generalizing c reported with
  | nil => simpa [reports] using h
  | cons a actions ih =>
    have hrest := ih (accounts_act h a)
    rwa [List.append_assoc] at hrest

/-- After a poll, everything that happened on the connections of a run was reported. -/
theorem reports_eq_events (id name : String) (host : Host) (server : ServerOptions)
    (options : ClientOptions) (workspace : Option String) (actions : List Action) :
    let c := Client.new id name host server options workspace
    c.reports (actions ++ [.poll]) = (c.run (actions ++ [.poll])).events := by
  intro c
  have hstart : c.Accounts [] := ⟨rfl, by rintro _ ⟨⟩⟩
  have haccounts := accounts_run hstart (actions ++ [.poll])
  have hpending : (c.run (actions ++ [.poll])).pending = [] := by
    rw [run, List.foldl_append]
    rfl
  have hevents := haccounts.events
  rwa [hpending, List.append_nil, List.nil_append] at hevents

end Client

/-! ## Polls leave nothing in the queue -/

namespace Connection

/-- Nothing waits but failures of the writer. -/
def OnlyFailures (c : Connection) : Prop := ∀ a ∈ c.inbound, ∃ text, a = Arrival.failed text

theorem OnlyFailures.send {c : Connection} (h : c.OnlyFailures) (m : Json) :
    (c.send m).1.OnlyFailures := by
  unfold Connection.send
  split
  · split
    · exact List.forall_mem_append.2 ⟨h, by simp⟩
    · exact h
  · exact h

theorem OnlyFailures.attend {c : Connection} (h : c.OnlyFailures) (m : Json) :
    (c.attend (.message m)).OnlyFailures := by
  have hrecord : (c.record (.received (.message m))).OnlyFailures := h
  cases hm : isRequest m with
  | true =>
    rw [attend_of_isRequest c hm]
    unfold answer
    split
    · exact hrecord.send _
    · exact hrecord
  | false => rwa [attend_of_not_isRequest c hm]

end Connection

namespace Client

/-- A connection that is not lost by taking a queue has nothing that waits behind it. -/
theorem inbound_drainIn (queue : List Arrival) (c : Client)
    (h : ∀ k, c.connection = some k → k.OnlyFailures) (k : Connection)
    (hk : (drainIn queue c).connection = some k) : k.inbound = [] := by
  induction queue generalizing c with
  | nil =>
    unfold drainIn at hk
    split at hk
    · cases hk
    · rename_i hnone
      -- a failure of the writer is taken even behind the queue, and nothing else can be there
      cases hinbound : k.inbound with
      | nil => rfl
      | cons a rest =>
        obtain ⟨text, rfl⟩ := h k hk a (by rw [hinbound]; exact List.mem_cons_self)
        exact absurd (by rw [hk, Option.map_some, hinbound]) (hnone text rest)
  | cons a queue ih =>
    cases a with
    | failed text => cases hk
    | closed => cases hk
    | message m =>
      refine ih _ (fun k' hk' => ?_) hk
      rw [handle_receive] at hk'
      obtain ⟨k₀, hk₀, rfl⟩ := Option.map_eq_some_iff.1 hk'
      exact (h k₀ hk₀).attend m

theorem inbound_drain {c : Client} {k : Connection} (hk : c.drain.connection = some k) :
    k.inbound = [] := by
  unfold drain at hk
  split at hk
  · rename_i hnone
    rw [hnone] at hk
    cases hk
  · refine inbound_drainIn _ _ ?_ k hk
    rintro k' ⟨⟩
    exact List.forall_mem_nil _

end Client

end ColorMarks
