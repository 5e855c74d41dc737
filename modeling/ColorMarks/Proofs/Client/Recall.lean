import ColorMarks.Proofs.Client.Events
import ColorMarks.Proofs.Store
import Mathlib.Data.List.Basic

/-!
# What a client remembers

A client forgets what it knows when it is stopped, and only then. So its findings, and the documents that
it counts as published, are those of the publications that it handled since, over however many connections
(`Recalls`, `recalls_run`). A connection that is lost takes nothing along, and one whose handshake fails
brings nothing.
-/

namespace ColorMarks

open ColorMarks.Frame (Arrival)

/-- Document and number of the findings that an event reports. -/
def Event.count? : Event → Option (String × Nat)
  | .diagnostics uri count => some (uri, count)
  | _ => none

theorem Notification.counts_map_event (ns : List Notification) :
    (ns.map event).filterMap Event.count? =
      (ns.filterMap publication?).map fun p => (p.uri, p.diagnostics.length) := by
  rw [List.filterMap_map, List.map_filterMap]
  congr 1
  funext n
  cases n <;> rfl

namespace Traffic

/-- The traffic before the loss of the connection or the request to shut down. -/
def heeded (ts : List Traffic) : List Traffic := ts.takeWhile fun t => !t.isLast

theorem heeded_append {ts : List Traffic} (h : ∀ t ∈ ts, t.isLast = false) (us : List Traffic) :
    heeded (ts ++ us) = ts ++ heeded us :=
  List.takeWhile_append_of_pos fun t ht => by rw [h t ht]; rfl

theorem heeded_eq_self {ts : List Traffic} (h : ∀ t ∈ ts, t.isLast = false) : heeded ts = ts := by
  simpa [heeded] using heeded_append h []

theorem counts_events (ts : List Traffic) :
    (events ts).filterMap Event.count? =
      ((notifications (heeded ts)).filterMap Notification.publication?).map fun p =>
        (p.uri, p.diagnostics.length) := by
  induction ts with
  | nil => rfl
  | cons t ts ih =>
    by_cases hlast : t.isLast = true
    · -- the loss is an event, but none of a publication
      have hnone : t.event?.toList.filterMap Event.count? = [] := by
        cases t with
        | received a =>
          cases a with
          | message m => cases hlast
          | _ => rfl
        | _ => rfl
      simp [events, heeded, hlast, hnone]
    · have hone : ∀ t' ∈ [t], t'.isLast = false := by simpa using hlast
      rw [← List.singleton_append, events_append hone, heeded_append hone,
        events_eq_notifications hone, notifications_append, List.filterMap_append, ih,
        List.filterMap_append, List.map_append, Notification.counts_map_event]

end Traffic

namespace Connection

/-- The publications that the client handled: nothing if the handshake failed, or after the end. -/
def handled (conn : Connection) : List Publication :=
  if conn.greeted then
    (Traffic.notifications (Traffic.heeded conn.history)).filterMap Notification.publication?
  else []

theorem counts_events (conn : Connection) :
    conn.events.filterMap Event.count? =
      conn.handled.map fun p => (p.uri, p.diagnostics.length) := by
  rw [events, handled]
  split
  · exact Traffic.counts_events conn.history
  · rfl

/-- On a connection that goes on, everything that is published is handled. -/
theorem Runs.handled {conn : Connection} (h : conn.Runs) : conn.handled = conn.publications := by
  rw [Connection.handled, publications, Traffic.heeded_eq_self h.goesOn]

/-- The loss of a connection publishes nothing, and everything before was handled. -/
theorem Runs.lost {c k : Connection} (h : c.Runs) {a : Arrival} {reason : String}
    (ha : a.lossReason? = some reason) (hk : k.history = c.history ++ [.received a]) :
    k.handled = k.publications ∧ k.publications = c.publications := by
  have hlast : (Traffic.received a).isLast = true := by simp [Traffic.isLast, Traffic.lossReason?, ha]
  have hheeded : Traffic.heeded k.history = c.history := by
    rw [hk, Traffic.heeded_append h.goesOn]
    simp [Traffic.heeded, hlast]
  obtain ⟨hgreeted, hpublications⟩ := publications_of_history h.greeted hk
  rw [Client.notifications_of_loss ha, List.filterMap_nil, List.append_nil] at hpublications
  refine ⟨?_, hpublications⟩
  rw [hpublications, Connection.handled, publications, hheeded, if_pos hgreeted, if_pos h.greeted]

end Connection

namespace Client

/-- What was published last is known of every document, and which documents were named. -/
structure Knows (c : Client) (ps : List Publication) : Prop where
  store : c.store.Holds ps
  published : c.published = (ps.map Publication.uri).eraseDups

theorem Knows.notice {c : Client} {ps : List Publication} (h : c.Knows ps) (n : Notification) :
    (c.notice n).Knows (ps ++ n.publication?.toList) := by
  cases n with
  | publish p =>
    refine ⟨h.store.update p, ?_⟩
    show (if c.published.contains p.uri then c.published else c.published ++ [p.uri]) = _
    rw [Notification.publication?, Option.toList_some, List.map_append, List.map_singleton,
      eraseDups_concat, h.published]
    simp only [List.contains_iff_mem, List.mem_eraseDups]
  | _ => simpa [Notification.publication?] using ⟨h.store, h.published⟩

theorem Knows.noticeAll {c : Client} {ps : List Publication} (h : c.Knows ps)
    (ns : List Notification) :
    (c.noticeAll ns).Knows (ps ++ ns.filterMap Notification.publication?) := by
  induction ns generalizing c ps with
  | nil => simpa using h
  | cons n ns ih =>
    have hrest : (c.noticeAll (n :: ns)).Knows _ := ih (h.notice n)
    cases hn : n.publication? with
    | none => simpa [hn] using hrest
    | some p => simpa [hn] using hrest

/-- A client, `n` of whose connections ended before it was stopped last, knows what it handled since. -/
structure Recalls (n : Nat) (c : Client) : Prop where
  past : n ≤ c.retired.length
  knows : c.Knows ((c.connections.drop n).flatMap Connection.publications)
  whole : ∀ k ∈ c.retired.drop n, k.handled = k.publications
  current : ∀ k, c.connection = some k → k.Runs

theorem recalls_new (id name : String) (host : Host) (server : ServerOptions)
    (options : ClientOptions) (workspace : Option String) :
    (Client.new id name host server options workspace).Recalls 0 where
  past := Nat.le_refl 0
  knows := ⟨Store.holds_empty, rfl⟩
  whole := by rintro _ ⟨⟩
  current := by rintro _ ⟨⟩

variable {n : Nat} {c : Client}

theorem drop_connections {k : Connection} (hn : n ≤ c.retired.length)
    (hc : c.connection = some k) : c.connections.drop n = c.retired.drop n ++ [k] := by
  rw [connections, hc, List.drop_append_of_le_length hn]
  rfl

theorem drop_connections_of_stopped (hc : c.connection = none) :
    c.connections.drop n = c.retired.drop n := by
  rw [connections, hc, Option.toList_none, List.append_nil]

theorem Recalls.running (h : c.Recalls n) {k : Connection} (hc : c.connection = some k) :
    k.Runs ∧ c.Knows ((c.retired.drop n).flatMap Connection.publications ++ k.publications) := by
  refine ⟨h.current k hc, ?_⟩
  have hknows := h.knows
  rwa [drop_connections h.past hc, List.flatMap_append, List.flatMap_singleton] at hknows

theorem recalls_of_running {k : Connection} (hc : c.connection = some k) (hk : k.Runs)
    (hpast : n ≤ c.retired.length) (hwhole : ∀ k ∈ c.retired.drop n, k.handled = k.publications)
    (h : c.Knows ((c.retired.drop n).flatMap Connection.publications ++ k.publications)) :
    c.Recalls n := by
  refine ⟨hpast, ?_, hwhole, fun k' hk' => ?_⟩
  · rwa [drop_connections hpast hc, List.flatMap_append, List.flatMap_singleton]
  · obtain rfl : k = k' := Option.some.inj (hc.symm.trans hk')
    exact hk

theorem recalls_of_ended {k : Connection} {past : List Connection} (hc : c.connection = none)
    (hretired : c.retired = past ++ [k]) (hpast : n ≤ past.length)
    (hwhole : ∀ k ∈ past.drop n, k.handled = k.publications)
    (hk : k.handled = k.publications)
    (h : c.Knows ((past.drop n).flatMap Connection.publications ++ k.publications)) :
    c.Recalls n := by
  have hdrop : c.retired.drop n = past.drop n ++ [k] := by
    rw [hretired, List.drop_append_of_le_length hpast]
  refine ⟨?_, ?_, ?_, fun k' hk' => ?_⟩
  · rw [hretired, List.length_append]
    omega
  · rwa [drop_connections_of_stopped hc, hdrop, List.flatMap_append, List.flatMap_singleton]
  · rw [hdrop]
    exact List.forall_mem_append.2 ⟨hwhole, by simpa using hk⟩
  · rw [hc] at hk'
    cases hk'

/-- Taking an arrival: what a message publishes is known then, and a loss changes nothing. -/
theorem recalls_take (h : c.Recalls n) {c' : Client} (ht : Take c c') : c'.Recalls n := by
  cases ht with
  | @heard k m rest hc hk =>
    obtain ⟨hruns, hknows⟩ := h.running hc
    have hqueue : { k with inbound := rest }.Runs := ⟨hruns.greeted, hruns.goesOn⟩
    obtain ⟨ts, hhistory, -, hnotifications⟩ :=
      Connection.attend_history { k with inbound := rest } m
    have hpublications := (Connection.publications_of_history hruns.greeted hhistory).2
    rw [hnotifications] at hpublications
    have hmore := hknows.noticeAll (Notification.ofJson? m).toList
    refine recalls_of_running rfl (hqueue.attend m).1 ?_ ?_ ?_
    · simpa using h.past
    · simpa using h.whole
    · show Knows _ (List.flatMap _ (List.drop n (c.noticeAll _).retired) ++ _)
      rw [retired_noticeAll, hpublications, ← List.append_assoc]
      exact ⟨hmore.store, hmore.published⟩
  | @lost k a rest reason hc hk ha left =>
    obtain ⟨hruns, hknows⟩ := h.running hc
    have hlost := hruns.lost ha (k := { k with inbound := left }.record (.received a)) rfl
    refine recalls_of_ended rfl (by simp [disconnect, retire, receive]) h.past h.whole hlost.1 ?_
    rw [hlost.2]
    exact ⟨hknows.store, hknows.published⟩

theorem recalls_drain (h : c.Recalls n) : c.drain.Recalls n := by
  have htakes := drain_takes c
  generalize c.drain = c' at htakes
  induction htakes with
  | refl => exact h
  | tail _ htake ih => exact recalls_take ih htake

theorem Recalls.stopped (h : c.Recalls n) (hc : c.connection = none) :
    c.Knows ((c.retired.drop n).flatMap Connection.publications) := by
  have hknows := h.knows
  rwa [drop_connections_of_stopped hc] at hknows

/-- A connection whose handshake fails brings nothing. -/
theorem Recalls.refused (h : c.Recalls n) (hc : c.connection = none) {o : Opening} {k : Connection}
    {e : IoError} (hshake : c.handshake o.connection = (k, .error e)) :
    Recalls n { c with serverInfo := none, retired := c.retired ++ [k] } := by
  obtain ⟨ts, hts, hk⟩ := attempt_of_handshake hshake
  have hpublications := Connection.publications_of_attempt hts hk.history
  have hhandled : k.handled = [] := by
    rw [Connection.handled, Connection.greeted_of_attempt hts hk.history]
    rfl
  have hknows := h.stopped hc
  refine recalls_of_ended hc rfl h.past h.whole (hhandled.trans hpublications.symm) ?_
  rw [hpublications, List.append_nil]
  exact ⟨hknows.store, hknows.published⟩

/-- What came before the handshake was over is known when the client runs. -/
theorem Recalls.attached (h : c.Recalls n) (hc : c.connection = none) {o : Opening} {k : Connection}
    {info : Option ServerInfo} {early : List Json}
    (hshake : c.handshake o.connection = (k, .ok (info, early))) :
    Recalls n ({ c with serverInfo := info, connection := some k }.noticeAll
      (early.filterMap Notification.ofJson?)) := by
  obtain ⟨ts, hts, hk, hearly⟩ := greeting_of_handshake hshake
  have hruns : k.Runs :=
    ⟨Connection.greeted_of_greeting hts hk.history, by
      rw [hk.history]
      exact Traffic.isLast_of_greeting hts⟩
  have hknows := h.stopped hc
  have hbefore : Knows { c with serverInfo := info, connection := some k } _ :=
    ⟨hknows.store, hknows.published⟩
  refine recalls_of_running (by simp) hruns ?_ ?_ ?_
  · simpa using h.past
  · simpa using h.whole
  · rw [retired_noticeAll, Connection.publications_of_greeting hts hk.history, hearly]
    exact hbefore.noticeAll _

/-- Whether an action stops a client that runs. -/
def halts (c : Client) : Action → Bool
  | .stop => c.isRunning
  | _ => false

/-- The number of connections that ended before the client was stopped last: `n` without a stop. -/
def bygone (c : Client) (n : Nat) : List Action → Nat
  | [] => n
  | a :: actions => (c.act a).bygone (if c.halts a then c.connections.length else n) actions

/-- A client that was stopped knows nothing, for all of its connections are of the past. -/
theorem recalls_stop {k : Connection} (hc : c.connection = some k) :
    c.stop.1.Recalls c.connections.length := by
  have hlength : c.connections.length = (c.retired ++ [k]).length := by
    rw [connections, hc, Option.toList_some]
  rw [stop, hc, hlength]
  refine ⟨?_, ?_, ?_, by rintro _ ⟨⟩⟩
  · simp
  · rw [drop_connections_of_stopped rfl, List.drop_eq_nil_of_le (by simp)]
    exact ⟨Store.holds_empty, rfl⟩
  · rw [List.drop_eq_nil_of_le (by simp)]
    exact List.forall_mem_nil _

theorem recalls_of_not_halts (h : c.Recalls n) {a : Action} (ha : c.halts a = false) :
    (c.act a).Recalls n := by
  have heffect := effect_act c a
  generalize c.act a = c' at heffect
  cases heffect with
  | idle => exact h
  | @arrived k hc arrivals left =>
    obtain ⟨hruns, hknows⟩ := h.running hc
    exact recalls_of_running rfl ⟨hruns.greeted, hruns.goesOn⟩ h.past h.whole
      ⟨hknows.store, hknows.published⟩
  | @told _ k k' u hc hu hsend =>
    obtain ⟨hruns, hknows⟩ := h.running hc
    obtain ⟨t, ht, hk⟩ := Connection.handed_of_send hsend
    have hpublications := (Connection.publications_of_history hruns.greeted hk.history).2
    rw [Traffic.notifications_told ht, List.filterMap_nil, List.append_nil] at hpublications
    refine recalls_of_running rfl (hruns.told ht hk.history) h.past h.whole ?_
    rw [hpublications]
    exact ⟨hknows.store, hknows.published⟩
  | polled =>
    have hdrain := recalls_drain h
    exact ⟨hdrain.past, ⟨hdrain.knows.store, hdrain.knows.published⟩, hdrain.whole, hdrain.current⟩
  | waited => exact recalls_drain h
  | @refused _ o k e hopening hshake =>
    exact h.refused (connection_of_opening? hopening) hshake
  | @attached _ o k info early hopening hshake =>
    exact h.attached (connection_of_opening? hopening) hshake
  | @stopped k hc =>
    rw [halts, isRunning, hc] at ha
    cases ha

theorem recalls_act (h : c.Recalls n) (a : Action) :
    (c.act a).Recalls (if c.halts a then c.connections.length else n) := by
  cases ha : c.halts a with
  | false => exact recalls_of_not_halts h ha
  | true =>
    cases a with
    | stop =>
      obtain ⟨k, hc⟩ := Option.isSome_iff_exists.1 ha
      exact recalls_stop hc
    | _ => cases ha

theorem recalls_run (h : c.Recalls n) (actions : List Action) :
    (c.run actions).Recalls (c.bygone n actions) := by
  induction actions generalizing c n with
  | nil => exact h
  | cons a actions ih => exact ih (recalls_act h a)

theorem bygone_of_not_mem {actions : List Action} (h : .stop ∉ actions) (c : Client) (n : Nat) :
    c.bygone n actions = n := by
  induction actions generalizing c with
  | nil => rfl
  | cons a actions ih =>
    have ha : c.halts a = false := by
      cases a with
      | stop => exact absurd List.mem_cons_self h
      | _ => rfl
    rw [bygone, ha]
    exact ih (List.not_mem_of_not_mem_cons h) (c.act a)

/-- The store holds what was published last over any connection, and the handshakes are over. -/
structure Informed (c : Client) : Prop where
  store : c.store.Holds c.publications
  greeted : ∀ k, c.connection = some k → k.greeted = true

/-- As long as a client is not stopped, its store holds what was published last. -/
theorem informed_run (id name : String) (host : Host) (server : ServerOptions)
    (options : ClientOptions) (workspace : Option String) {actions : List Action}
    (hstop : Action.stop ∉ actions) :
    ((Client.new id name host server options workspace).run actions).Informed := by
  have hrecalls := recalls_run (recalls_new id name host server options workspace) actions
  rw [bygone_of_not_mem hstop] at hrecalls
  exact ⟨hrecalls.knows.store, fun k hk => (hrecalls.current k hk).greeted⟩

/-- The publications that were handled on all connections but the first `n`. -/
def handledSince (n : Nat) (c : Client) : List Publication :=
  (c.connections.drop n).flatMap Connection.handled

theorem Recalls.handledSince_eq (h : c.Recalls n) :
    c.handledSince n = (c.connections.drop n).flatMap Connection.publications := by
  refine List.flatMap_congr fun k hk => ?_
  cases hc : c.connection with
  | none =>
    rw [drop_connections_of_stopped hc] at hk
    exact h.whole k hk
  | some k' =>
    rw [drop_connections h.past hc, List.mem_append, List.mem_singleton] at hk
    rcases hk with hk | rfl
    · exact h.whole k hk
    · exact (h.current k hc).handled

theorem Recalls.knows_handled (h : c.Recalls n) : c.Knows (c.handledSince n) := by
  rw [h.handledSince_eq]
  exact h.knows

theorem Knows.mem_published {ps : List Publication} (h : c.Knows ps) (uri : String) :
    uri ∈ c.published ↔ ∃ p ∈ ps, p.uri = uri := by
  rw [h.published, List.mem_eraseDups, List.mem_map]

/-- The same findings are known of the same documents. -/
def KnowsSame (c c' : Client) : Prop := c'.store = c.store ∧ c'.published = c.published

theorem Knows.same {ps : List Publication} {c' : Client} (h : c.Knows ps) (h' : c'.Knows ps) :
    c.KnowsSame c' := by
  refine ⟨?_, h'.published.trans h.published.symm⟩
  have hentries : c'.store.entries = c.store.entries :=
    Ordered.eq_of_lookup h'.store.sorted h.store.sorted fun uri =>
      (h'.store.lookup uri).trans (h.store.lookup uri).symm
  exact congrArg Store.mk hentries

/-- A client that could not be attached knows what it knew. -/
theorem knowsSame_attach {conn : Connection} {e : ClientError} (h : (c.attach conn).2 = .error e) :
    c.KnowsSame (c.attach conn).1 := by
  unfold attach at h ⊢
  split
  · exact ⟨rfl, rfl⟩
  · rename_i hstopped
    rw [if_neg hstopped] at h
    split
    · exact ⟨rfl, rfl⟩
    · rename_i hshake
      rw [hshake] at h
      cases h

theorem knowsSame_start {mode : LaunchMode} {launch : Executable → Except IoError Connection}
    {e : ClientError} (h : (c.start mode launch).2 = .error e) :
    c.KnowsSame (c.start mode launch).1 := by
  unfold start at h ⊢
  split
  · exact ⟨rfl, rfl⟩
  · rename_i hstopped
    rw [if_neg hstopped] at h
    split
    · exact ⟨rfl, rfl⟩
    · rename_i hlaunch
      rw [hlaunch] at h
      exact knowsSame_attach h

theorem halts_of_stop {result : Except IoError Unit} (h : c.stop.2 = some result) :
    c.halts .stop = true := by
  cases hc : c.connection with
  | none =>
    rw [stop, hc] at h
    cases h
  | some k => rw [halts, isRunning, hc, Option.isSome_some]

/--
After any actions a client knows of every document what was published last of all that it handled since
it was stopped last, and it counts the documents of just these publications as published. Every
publication that was ever handled is reported with the number of findings that it stored. Nothing else
changes what is known: not the loss of a connection, not one that could not be had, and a stop takes all.
-/
theorem recalled_of_run (id name : String) (host : Host) (server : ServerOptions)
    (options : ClientOptions) (workspace : Option String) (actions : List Action) :
    let start := Client.new id name host server options workspace
    let n := start.bygone 0 actions
    let c := start.run actions
    (∀ uri, c.store.get? uri = lastFindings? (c.handledSince n) uri) ∧
      (∀ uri, uri ∈ c.published ↔ ∃ p ∈ c.handledSince n, p.uri = uri) ∧
      (start.reports actions ++ c.pending).filterMap Event.count? =
        (c.handledSince 0).map (fun p => (p.uri, p.diagnostics.length)) ∧
      (∀ p, ((c.notice (.publish p)).store.get? p.uri).getD [] = p.diagnostics) ∧
      (∀ a, c.halts a = false → (c.act a).handledSince n = c.handledSince n →
        c.KnowsSame (c.act a)) ∧
      (∀ reason, c.KnowsSame (c.disconnect reason)) ∧
      (∀ conn e, (c.attach conn).2 = .error e → c.KnowsSame (c.attach conn).1) ∧
      (∀ mode launch e, (c.start mode launch).2 = .error e → c.KnowsSame (c.start mode launch).1) ∧
      ∀ result, c.stop.2 = some result → c.stop.1.store = .empty ∧ c.stop.1.published = [] ∧
        c.stop.1.openDocuments = [] ∧ c.stop.1.serverInfo = none := by
  intro start n c
  have hrecalls : c.Recalls n :=
    recalls_run (recalls_new id name host server options workspace) actions
  have hknows := hrecalls.knows_handled
  have hstart : start.Accounts [] := ⟨rfl, by rintro _ ⟨⟩⟩
  have haccounts : c.Accounts (start.reports actions) := accounts_run hstart actions
  refine ⟨hknows.store.lookup, hknows.mem_published, ?_, ?_, ?_, ?_, ?_, ?_, ?_⟩
  · rw [haccounts.events, Client.events, handledSince, List.drop_zero, List.filterMap_flatMap,
      List.map_flatMap]
    exact List.flatMap_congr fun k _ => k.counts_events
  · intro p
    exact Store.get?_update_self c.store p.uri p.diagnostics
  · intro a ha hsame
    have hafter := (recalls_of_not_halts hrecalls ha).knows_handled
    rw [hsame] at hafter
    exact hknows.same hafter
  · intro reason
    exact ⟨rfl, rfl⟩
  · intro conn e h
    exact knowsSame_attach h
  · intro mode launch e h
    exact knowsSame_start h
  · intro result h
    obtain ⟨k, hc⟩ := Option.isSome_iff_exists.1 (halts_of_stop h)
    rw [stop, hc]
    exact ⟨rfl, rfl, rfl, rfl⟩

/-- What was published over a connection that got lost is known after the next one is refused. -/
theorem recalled_after_refusal :
    let position : Json := .object [("line", .nat 2), ("character", .nat 4)]
    let finding : Json := .object [("range", .object [("start", position), ("end", position)])]
    let published (uri : String) (findings : List Json) : Arrival :=
      .message (Connection.notificationOf "textDocument/publishDiagnostics"
        (.object [("uri", .string uri), ("diagnostics", .array findings)]))
    let start := Client.new "client" "Client" {} (ServerOptions.ofModule "server" none)
      ⟨[⟨none, none⟩], ⟨[]⟩, 1, 1⟩ none
    let actions : List Action :=
      [.attach { inbound := [.message (Connection.responseOf 1 .null), published "file:///b.txt" [],
          published "file:///a.txt" [finding], .closed] }, .poll]
    let c := start.run actions
    start.bygone 0 actions = 0 ∧ c.published = ["file:///b.txt", "file:///a.txt"] ∧
      (c.store.get? "file:///a.txt").map (List.map Diagnostic.range) =
        some [⟨⟨2, 4⟩, ⟨2, 4⟩⟩] ∧
      c.store.get? "file:///a.txt" = lastFindings? (c.handledSince 0) "file:///a.txt" ∧
      c.KnowsSame (c.attach {}).1 :=
  ⟨by decide, by decide, by decide, (recalled_of_run _ _ _ _ _ _ _).1 _,
    (recalled_of_run _ _ _ _ _ _ _).2.2.2.2.2.2.1 {} _ rfl⟩

end Client

end ColorMarks
