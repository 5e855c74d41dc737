import ColorMarks.Proofs.Client.Operation
import ColorMarks.Proofs.Client.Run
import ColorMarks.Proofs.Client.Step

/-!
# What an action does

`Effect` says exactly what each action makes of a client. Draining is a chain of takes: an arrival is
taken from the front of the queue and heard, or the connection is lost with it.
-/

namespace ColorMarks

open ColorMarks.Frame (Arrival)
open Connection (notificationOf)
open Relation (ReflTransGen)

/-- Something about documents that a server is told. -/
inductive Update where
  | opened (uri language : String) (version : Int) (text : String)
  | closed (uri : String)
  | changed (uri : String) (change : FileChange)

namespace Update

/-- The notification of an update. -/
def message : Update → Json
  | opened uri language version text =>
    notificationOf "textDocument/didOpen" (Client.openingParams uri language version text)
  | closed uri => notificationOf "textDocument/didClose" (Client.closingParams uri)
  | changed uri change =>
    notificationOf "workspace/didChangeWatchedFiles" (Client.changeParams uri change)

/-- The open documents after an update. -/
def apply : Update → List String → List String
  | opened uri _ _ _, uris => if uris.contains uri then uris else uris ++ [uri]
  | closed uri, uris => uris.filter (· != uri)
  | changed _ _, uris => uris

/-- Whether an update can be told: only open documents are closed. -/
def Allowed : Update → List String → Prop
  | closed uri, uris => uri ∈ uris
  | _, _ => True

@[simp] theorem hasMethod_message (u : Update) : Connection.hasMethod u.message = true := by
  cases u <;> rfl

end Update

namespace Client

/-- One arrival is taken. What is left in the queue of a connection that is lost does not matter. -/
inductive Take (c : Client) : Client → Prop
  | heard {k : Connection} {m : Json} {rest : List Arrival} (hc : c.connection = some k)
      (hk : k.inbound = .message m :: rest) :
      Take c { c.noticeAll (Notification.ofJson? m).toList with
        connection := some ({ k with inbound := rest }.attend (.message m)) }
  | lost {k : Connection} {a : Arrival} {rest : List Arrival} {reason : String}
      (hc : c.connection = some k) (hk : k.inbound = a :: rest)
      (ha : a.lossReason? = some reason) (left : List Arrival) :
      Take c (({ c with connection := some { k with inbound := left } }.receive a).disconnect reason)

/-- Handling a message is noticing what it notifies of, and attending to it on the connection. -/
theorem handle_receive (c : Client) (m : Json) :
    (c.receive (.message m)).handle m = { c.noticeAll (Notification.ofJson? m).toList with
      connection := c.connection.map fun k => k.attend (.message m) } := by
  by_cases hm : Connection.isRequest m = true
  · rw [handle, if_pos hm, ofJson?_of_isRequest hm]
    simp [receive, Connection.attend, hm, Function.comp_def]
  · have hm' : Connection.isRequest m = false := by simpa using hm
    rw [handle_of_not_isRequest _ hm', receive, noticeAll_with_connection]
    simp only [Connection.attend_of_not_isRequest _ hm']

/-- Draining a queue of messages that are no requests is noticing them. -/
theorem drainIn_messages {ms : List Json} (hms : ∀ m ∈ ms, Connection.isRequest m = false)
    (c : Client) {k : Connection} (hc : c.connection = some k) (hk : k.inbound = []) :
    ∃ k', drainIn (ms.map .message) c =
      { c.noticeAll (ms.filterMap Notification.ofJson?) with connection := some k' } := by
  induction ms generalizing c k with
  | nil =>
    refine ⟨k, ?_⟩
    rw [List.map_nil, drainIn, hc, Option.map_some, hk, List.filterMap_nil, noticeAll_nil, ← hc]
  | cons m ms ih =>
    obtain ⟨hm, hms⟩ := List.forall_mem_cons.1 hms
    have hone : (c.receive (.message m)).handle m =
        { c.noticeAll (Notification.ofJson? m).toList with
          connection := some (k.record (.received (.message m))) } := by
      rw [handle_receive, hc, Option.map_some, Connection.attend_of_not_isRequest k hm]
    have hconnection : ((c.receive (.message m)).handle m).connection =
        some (k.record (.received (.message m))) := by
      rw [hone]
    obtain ⟨k', hk'⟩ := ih hms _ hconnection hk
    refine ⟨k', ?_⟩
    rw [List.map_cons, drainIn, hk', hone, noticeAll_with_connection, ← noticeAll_append]
    cases hn : Notification.ofJson? m <;> simp [hn]

/-- Taking an arrival that ends the connection, with other arrivals before the rest of the queue. -/
theorem take_lost {c : Client} {k : Connection} (hc : c.connection = some k) {a : Arrival}
    {reason : String} (ha : a.lossReason? = some reason) (queue : List Arrival) :
    Take { c with connection := some (k.ahead (a :: queue)) } ((c.receive a).disconnect reason) := by
  have hlost := Take.lost (c := { c with connection := some (k.ahead (a :: queue)) }) rfl
    (k.inbound_ahead_cons a queue) ha k.inbound
  have hsame : { c with connection := some k } = c := by rw [← hc]
  rwa [show { k.ahead (a :: queue) with inbound := k.inbound } = k from rfl, hsame] at hlost

/-- Draining takes the arrivals of the queue one after another. -/
theorem drainIn_takes (queue : List Arrival) (c : Client) {k : Connection}
    (hc : c.connection = some k) :
    ReflTransGen Take { c with connection := some (k.ahead queue) } (drainIn queue c) := by
  induction queue generalizing c k with
  | nil =>
    have hsame : { c with connection := some (k.ahead []) } = c := by
      rw [Connection.ahead_nil, ← hc]
    rw [hsame]
    unfold drainIn
    split
    · rename_i text later heq
      have hk : k.inbound = .failed text :: later := by simpa [hc] using heq
      have htext : (Arrival.failed text).lossReason? = some text := rfl
      have hlost := Take.lost hc hk htext k.inbound
      rw [show { k with inbound := k.inbound } = k from rfl, ← hc] at hlost
      exact .single hlost
    · exact .refl
  | cons a queue ih =>
    cases a with
    | failed text => exact .single (take_lost hc rfl queue)
    | closed => exact .single (take_lost hc rfl queue)
    | message m =>
      have hrest := ih ((c.receive (.message m)).handle m) (k := k.attend (.message m))
        (by rw [handle_receive, hc]; rfl)
      refine .head ?_ hrest
      have htake := Take.heard (c := { c with connection := some (k.ahead (.message m :: queue)) })
        rfl (k.inbound_ahead_cons (.message m) queue)
      rw [noticeAll_with_connection] at htake
      rw [handle_receive, ← Connection.ahead_attend]
      exact htake

theorem drain_takes (c : Client) : ReflTransGen Take c c.drain := by
  cases hc : c.connection with
  | none => rw [drain_of_stopped hc]
  | some k =>
    have htakes := drainIn_takes k.inbound
      { c with connection := some { k with inbound := [] } } rfl
    have hsame : { c with connection := some k } = c := by rw [← hc]
    rw [Connection.ahead_of_emptied, hsame] at htakes
    rw [drain, hc]
    exact htakes

/-! ## Actions -/

/-- The connection that an action begins: nothing is begun while there is one. -/
def opening? (c : Client) : Action → Option Opening
  | .attach o => if c.isRunning then none else some o
  | .start mode launch =>
    if c.isRunning then none
    else match launch (c.server.executable mode) with
      | .ok o => some o
      | .error _ => none
  | _ => none

/-- What an action is to tell the server about documents. -/
def update? (c : Client) : Action → Option Update
  | .openDocument uri language version text =>
    if c.handles uri language then some (.opened uri language version text) else none
  | .closeDocument uri => if c.openDocuments.contains uri then some (.closed uri) else none
  | .fileEvent path change =>
    if c.options.watched.accepts (c.watchedPath path) then
      some (.changed (Uri.ofPath c.host path) change)
    else none
  | _ => none

theorem allowed_of_update? {c : Client} {a : Action} {u : Update} (h : c.update? a = some u) :
    u.Allowed c.openDocuments := by
  cases a with
  | openDocument =>
    obtain ⟨-, ⟨⟩⟩ := Option.ite_none_right_eq_some.1 h
    trivial
  | closeDocument uri =>
    obtain ⟨hmem, ⟨⟩⟩ := Option.ite_none_right_eq_some.1 h
    exact List.contains_iff_mem.1 hmem
  | fileEvent =>
    obtain ⟨-, ⟨⟩⟩ := Option.ite_none_right_eq_some.1 h
    trivial
  | _ => cases h

/-- What an action makes of a client. -/
inductive Effect (c : Client) : Action → Client → Prop
  | idle {a : Action} (hopening : c.opening? a = none) (hpoll : a ≠ .poll)
      (harrive : ∀ arrivals left, a = .arrive arrivals left → c.connection = none) : Effect c a c
  | arrived {k : Connection} (hc : c.connection = some k) (arrivals : List Arrival)
      (left : Option (List UInt8)) :
      Effect c (.arrive arrivals left) { c with connection := some (k.arrive arrivals left) }
  | told {a : Action} {k k' : Connection} {u : Update} (hc : c.connection = some k)
      (hu : c.update? a = some u) (hsend : k.send u.message = (k', .ok ())) :
      Effect c a { c with connection := some k', openDocuments := u.apply c.openDocuments }
  | polled : Effect c .poll { c.drain with pending := [] }
  | waited (uri : String) : Effect c (.waitForDiagnostics uri) c.drain
  | refused {a : Action} {o : Opening} {k : Connection} {e : IoError}
      (hopening : c.opening? a = some o) (hshake : c.handshake o.connection = (k, .error e)) :
      Effect c a { c with serverInfo := none, retired := c.retired ++ [k] }
  | attached {a : Action} {o : Opening} {k : Connection} {info : Option ServerInfo}
      {early : List Json} (hopening : c.opening? a = some o)
      (hshake : c.handshake o.connection = (k, .ok (info, early))) :
      Effect c a ({ c with serverInfo := info, connection := some k }.noticeAll
        (early.filterMap Notification.ofJson?))
  | stopped {k : Connection} (hc : c.connection = some k) :
      Effect c .stop { c with
        connection := none, retired := c.retired ++ [(k.shutdown c.options.shutdownPatience).1]
        serverInfo := none, store := .empty, published := [], openDocuments := [] }

theorem connection_of_opening? {c : Client} {a : Action} {o : Opening} (h : c.opening? a = some o) :
    c.connection = none := by
  have hrunning : c.isRunning = false := by
    cases hr : c.isRunning with
    | false => rfl
    | true => cases a <;> simp [opening?, hr] at h
  simpa [isRunning] using hrunning

/-- Beginning a connection. -/
theorem attach_effect {c : Client} {a : Action} {o : Opening} (h : c.opening? a = some o) :
    Effect c a (c.attach o.connection).1 := by
  have hc := connection_of_opening? h
  have hrunning : c.isRunning = false := by rw [isRunning, hc]; rfl
  rcases handshake_spec c o.connection with
    ⟨ts, k, e, hshake, -, -⟩ | ⟨ts, k, info, early, hshake, -, -, -, hearly⟩
  · simp only [attach, hrunning, hshake, Bool.false_eq_true, if_false]
    exact .refused h hshake
  · simp only [attach, hrunning, hshake, Bool.false_eq_true, if_false]
    rw [foldl_handle early _ hearly]
    exact .attached h hshake

theorem effect_of_update? {c : Client} {a : Action} {u : Update} (h : c.update? a = some u) :
    Effect c a c := by
  cases a with
  | openDocument | closeDocument | fileEvent => exact .idle rfl (by simp) (by simp)
  | _ => cases h

/-- Telling the server about a document, or failing to. -/
theorem notify_effect {c : Client} {a : Action} {u : Update} (hu : c.update? a = some u)
    {method : String} {params : Json} (hmessage : u.message = notificationOf method params) :
    (∃ c', c.notify method params = (c', .ok ()) ∧
        Effect c a { c' with openDocuments := u.apply c'.openDocuments }) ∨
      ∃ e, c.notify method params = (c, .error e) := by
  unfold notify
  cases hc : c.connection with
  | none => exact .inr ⟨_, rfl⟩
  | some k =>
    rcases Connection.send_spec k u.message with ⟨t, k', hsend, -, -⟩ | hsend
    · refine .inl ⟨{ c with connection := some k' }, ?_, .told hc hu hsend⟩
      simp only [Connection.notify, ← hmessage, hsend]
    · refine .inr ⟨.io .writerStopped, ?_⟩
      simp only [Connection.notify, ← hmessage, hsend]
      rw [← hc]

theorem openDocument_effect (c : Client) (uri language : String) (version : Int) (text : String) :
    Effect c (.openDocument uri language version text)
      (c.openDocument uri language version text).1 := by
  unfold openDocument
  by_cases hh : c.handles uri language = true
  · have hu : c.update? (.openDocument uri language version text) =
        some (.opened uri language version text) := if_pos hh
    rw [if_pos hh]
    rcases notify_effect hu rfl with ⟨c', hnotify, heffect⟩ | ⟨e, hnotify⟩
    · rw [hnotify]
      exact heffect
    · rw [hnotify]
      exact effect_of_update? hu
  · rw [if_neg hh]
    exact .idle rfl (by simp) (by simp)

theorem closeDocument_effect (c : Client) (uri : String) :
    Effect c (.closeDocument uri) (c.closeDocument uri).1 := by
  unfold closeDocument
  by_cases hh : c.openDocuments.contains uri = true
  · have hu : c.update? (.closeDocument uri) = some (.closed uri) := if_pos hh
    rw [if_pos hh]
    rcases notify_effect hu rfl with ⟨c', hnotify, heffect⟩ | ⟨e, hnotify⟩
    · rw [hnotify]
      exact heffect
    · rw [hnotify]
      exact effect_of_update? hu
  · rw [if_neg hh]
    exact .idle rfl (by simp) (by simp)

theorem fileEvent_effect (c : Client) (path : String) (change : FileChange) :
    Effect c (.fileEvent path change) (c.fileEvent path change).1 := by
  unfold fileEvent
  by_cases hh : c.options.watched.accepts (c.watchedPath path) = true
  · have hu : c.update? (.fileEvent path change) =
        some (.changed (Uri.ofPath c.host path) change) := if_pos hh
    rw [if_pos hh]
    rcases notify_effect hu rfl with ⟨c', hnotify, heffect⟩ | ⟨e, hnotify⟩
    · rw [hnotify]
      exact heffect
    · rw [hnotify]
      exact effect_of_update? hu
  · rw [if_neg hh]
    exact .idle rfl (by simp) (by simp)

theorem effect_act (c : Client) (a : Action) : Effect c a (c.act a) := by
  have idle {a : Action} {d : Client} (hd : d = c) (ha : Effect c a c) : Effect c a d := by rwa [hd]
  cases a with
  | attach o =>
    cases hr : c.isRunning with
    | true =>
      obtain ⟨k, hk⟩ := Option.isSome_iff_exists.1 hr
      exact idle (attach_of_running hk _) (.idle (by simp [opening?, hr]) (by simp) (by simp))
    | false => exact attach_effect (by simp [opening?, hr])
  | start mode launch =>
    simp only [act, start]
    cases hr : c.isRunning with
    | true => exact .idle (by simp [opening?, hr]) (by simp) (by simp)
    | false =>
      rw [if_neg Bool.false_ne_true]
      cases hlaunch : launch (c.server.executable mode) with
      | error e => exact .idle (by simp [opening?, hr, hlaunch]) (by simp) (by simp)
      | ok o => exact attach_effect (by simp [opening?, hr, hlaunch])
  | arrive arrivals left =>
    cases hc : c.connection with
    | none =>
      refine idle ?_ (.idle rfl (by simp) fun _ _ _ => hc)
      simp only [act, hc, Option.map_none]
      rw [← hc]
    | some k =>
      simp only [act, hc, Option.map_some]
      exact .arrived hc arrivals left
  | openDocument uri language version text => exact openDocument_effect c uri language version text
  | closeDocument uri => exact closeDocument_effect c uri
  | fileEvent path change => exact fileEvent_effect c path change
  | poll => exact .polled
  | waitForDiagnostics uri => exact .waited uri
  | stop =>
    cases hc : c.connection with
    | none => exact idle (stop_of_stopped hc) (.idle rfl (by simp) (by simp))
    | some k =>
      simp only [act, stop, hc]
      exact .stopped hc

/-! ## The options stay -/

theorem options_noticeAll (c : Client) (ns : List Notification) :
    (c.noticeAll ns).options = c.options := by
  induction ns generalizing c with
  | nil => rfl
  | cons n ns ih =>
    refine (ih (c.notice n)).trans ?_
    cases n <;> rfl

theorem options_drain (c : Client) : c.drain.options = c.options := by
  have htakes := drain_takes c
  generalize c.drain = c' at htakes
  induction htakes with
  | refl => rfl
  | tail _ htake ih =>
    cases htake with
    | heard => exact (options_noticeAll _ _).trans ih
    | lost => exact ih

theorem options_act (c : Client) (a : Action) : (c.act a).options = c.options := by
  have heffect := effect_act c a
  generalize c.act a = c' at heffect
  cases heffect with
  | polled | waited => exact options_drain c
  | attached => exact options_noticeAll _ _
  | _ => rfl

theorem options_run (c : Client) (actions : List Action) :
    (c.run actions).options = c.options := by
  induction actions generalizing c with
  | nil => rfl
  | cons a actions ih => exact (ih (c.act a)).trans (options_act c a)

end Client

end ColorMarks
