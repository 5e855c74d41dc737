import ColorMarks.Proofs.Client.Effect

/-!
# Calls that fail

The calls of a client that may fail: beginning a connection (`attach`, `start`) and telling the server about
documents. `Answered` says what each of them can answer and what becomes of the client. A call that fails or
has nothing to tell leaves the client as it was; a handshake that fails takes the server information with
it, and its connection is one of the past. So a history of calls comes out the same without those that
failed (`core_callAll_succeeding`).
-/

namespace ColorMarks

/-- A call that may fail, with what is passed to it. -/
inductive Call where
  | attach (conn : Connection)
  | start (mode : LaunchMode) (launch : Executable → Except IoError Connection)
  | openDocument (uri language : String) (version : Int) (text : String)
  | closeDocument (uri : String)
  | fileEvent (path : String) (change : FileChange)

namespace Call

/-- Whether the call is to begin a connection. -/
def begins : Call → Bool
  | attach _ => true
  | start .. => true
  | _ => false

/-- The connection that a call brings for the client. -/
def offered? (c : Client) : Call → Option Connection
  | attach conn => some conn
  | start mode launch => (launch (c.server.executable mode)).toOption
  | _ => none

/-- What a call is to tell the server. -/
def update? (c : Client) : Call → Option Update
  | openDocument uri language version text => c.update? (.openDocument uri language version text)
  | closeDocument uri => c.update? (.closeDocument uri)
  | fileEvent path change => c.update? (.fileEvent path change)
  | _ => none

end Call

/-- Only a writer that stopped refuses a message. -/
theorem Connection.not_writing_of_send {k : Connection} {m : Json}
    (h : k.send m = (k, .error .writerStopped)) : ¬ k.writing = true := by
  intro hw
  have hok : (k.send m).2 = .ok () := by
    rw [send, if_pos hw]
    split <;> rfl
  rw [h] at hok
  cases hok

namespace Client

/-- The client after a call, and the answer. A call that answers nothing if it succeeds answers `true`. -/
def call (c : Client) : Call → Client × Except ClientError Bool
  | .attach conn => ((c.attach conn).1, (c.attach conn).2.map fun _ => true)
  | .start mode launch => ((c.start mode launch).1, (c.start mode launch).2.map fun _ => true)
  | .openDocument uri language version text => c.openDocument uri language version text
  | .closeDocument uri => c.closeDocument uri
  | .fileEvent path change => c.fileEvent path change

/-- Why nothing can be told to the server. -/
def obstacle? (c : Client) : Option ClientError :=
  match c.connection with
  | none => some (.notRunning c.id)
  | some k => if k.writing then none else some (.io .writerStopped)

/-- The client after its server was told something, or not, and the answer. -/
def tell (c : Client) (u : Update) : Client × Except ClientError Bool :=
  match c.connection with
  | none => (c, .error (.notRunning c.id))
  | some k =>
    match k.send u.message with
    | (k, .error e) => ({ c with connection := some k }, .error (.io e))
    | (k, .ok _) =>
      ({ c with connection := some k, openDocuments := u.apply c.openDocuments }, .ok true)

/-- What a call can answer, and the client after it. -/
inductive Answered (c : Client) (x : Call) : Client → Except ClientError Bool → Prop
  | spared (hbegins : x.begins = false) (hu : x.update? c = none) : Answered c x c (.ok false)
  | hindered {u : Update} {e : ClientError} (hu : x.update? c = some u) (he : c.obstacle? = some e) :
      Answered c x c (.error e)
  | told {u : Update} {k k' : Connection} (hu : x.update? c = some u) (hc : c.connection = some k)
      (hsend : k.send u.message = (k', .ok ())) :
      Answered c x { c with connection := some k', openDocuments := u.apply c.openDocuments } (.ok true)
  | running (hbegins : x.begins = true) (hc : c.isRunning = true) :
      Answered c x c (.error (.alreadyRunning c.id))
  | unlaunched {mode : LaunchMode} {launch : Executable → Except IoError Connection} {e : IoError}
      (hx : x = .start mode launch) (hc : c.connection = none)
      (hlaunch : launch (c.server.executable mode) = .error e) : Answered c x c (.error (.io e))
  | refused {conn k : Connection} {e : IoError} (hoffered : x.offered? c = some conn)
      (hc : c.connection = none) (hshake : c.handshake conn = (k, .error e)) :
      Answered c x { c with serverInfo := none, retired := c.retired ++ [k] } (.error (.io e))
  | begun {conn k : Connection} {info : Option ServerInfo} {early : List Json}
      (hoffered : x.offered? c = some conn) (hc : c.connection = none)
      (hshake : c.handshake conn = (k, .ok (info, early))) :
      Answered c x (early.foldl handle { c with serverInfo := info, connection := some k }) (.ok true)

/-- The server is told something unless something is in the way; then nothing happens. -/
theorem tell_spec (c : Client) (u : Update) :
    (∃ e, c.obstacle? = some e ∧ c.tell u = (c, .error e)) ∨
      ∃ k k', c.connection = some k ∧ k.send u.message = (k', .ok ()) ∧ c.tell u =
        ({ c with connection := some k', openDocuments := u.apply c.openDocuments }, .ok true) := by
  cases hc : c.connection with
  | none => exact .inl ⟨.notRunning c.id, by rw [obstacle?, hc], by rw [tell, hc]⟩
  | some k =>
    rcases Connection.send_spec k u.message with ⟨t, k', hsend, -, -⟩ | hsend
    · exact .inr ⟨k, k', rfl, hsend, by simp only [tell, hc, hsend]⟩
    · refine .inl ⟨.io .writerStopped, ?_, ?_⟩
      · rw [obstacle?, hc]
        exact if_neg (Connection.not_writing_of_send hsend)
      · simp only [tell, hc, hsend]
        rw [← hc]

/-- Telling the server something is notifying it. -/
theorem tell_of_notify (c : Client) (u : Update) {method : String} {params : Json}
    (hu : u.message = Connection.notificationOf method params) :
    (∃ c', c.notify method params = (c', .ok ()) ∧
        c.tell u = ({ c' with openDocuments := u.apply c'.openDocuments }, .ok true)) ∨
      ∃ c' e, c.notify method params = (c', .error e) ∧ c.tell u = (c', .error e) := by
  unfold notify tell
  cases c.connection with
  | none => exact .inr ⟨_, _, rfl, rfl⟩
  | some k =>
    simp only [Connection.notify, hu]
    rcases k.send (Connection.notificationOf method params) with ⟨k', e | ⟨⟩⟩
    · exact .inr ⟨_, _, rfl, rfl⟩
    · exact .inl ⟨_, rfl, rfl⟩

/-- A call with something to tell is telling it. -/
theorem call_of_update? {c : Client} {x : Call} {u : Update} (hu : x.update? c = some u) :
    c.call x = c.tell u := by
  cases x with
  | openDocument uri language version text =>
    obtain ⟨hhandles, ⟨⟩⟩ := Option.ite_none_right_eq_some.1 hu
    rcases c.tell_of_notify (.opened uri language version text) rfl with
      ⟨c', hnotify, htell⟩ | ⟨c', e, hnotify, htell⟩ <;>
    simp only [call, openDocument, if_pos hhandles, hnotify, htell, Update.apply]
  | closeDocument uri =>
    obtain ⟨hopen, ⟨⟩⟩ := Option.ite_none_right_eq_some.1 hu
    rcases c.tell_of_notify (.closed uri) rfl with
      ⟨c', hnotify, htell⟩ | ⟨c', e, hnotify, htell⟩ <;>
    simp only [call, closeDocument, if_pos hopen, hnotify, htell, Update.apply]
  | fileEvent path change =>
    obtain ⟨hwatched, ⟨⟩⟩ := Option.ite_none_right_eq_some.1 hu
    rcases c.tell_of_notify (.changed (Uri.ofPath c.host path) change) rfl with
      ⟨c', hnotify, htell⟩ | ⟨c', e, hnotify, htell⟩ <;>
    simp only [call, fileEvent, if_pos hwatched, hnotify, htell, Update.apply]
  | _ => cases hu

/-- A call with nothing to tell. -/
theorem call_of_spared {c : Client} {x : Call} (hbegins : x.begins = false)
    (hu : x.update? c = none) : c.call x = (c, .ok false) := by
  cases x with
  | openDocument uri language version text =>
    have hhandles : ¬ c.handles uri language = true := by
      simpa [Call.update?, Client.update?] using hu
    rw [call, openDocument, if_neg hhandles]
  | closeDocument uri =>
    have hopen : ¬ c.openDocuments.contains uri = true := by
      simpa [Call.update?, Client.update?] using hu
    rw [call, closeDocument, if_neg hopen]
  | fileEvent path change =>
    have hwatched : ¬ c.options.watched.accepts (c.watchedPath path) = true := by
      simpa [Call.update?, Client.update?] using hu
    rw [call, fileEvent, if_neg hwatched]
  | _ => cases hbegins

/-- A running client refuses another connection. -/
theorem call_of_running {c : Client} {x : Call} (hbegins : x.begins = true)
    (hc : c.isRunning = true) : c.call x = (c, .error (.alreadyRunning c.id)) := by
  cases x with
  | attach conn => simp only [call, attach, if_pos hc, Except.map]
  | start mode launch => simp only [call, start, if_pos hc, Except.map]
  | _ => cases hbegins

/-- Beginning a connection, or failing the handshake. -/
theorem answered_of_offered? {c : Client} {x : Call} {conn : Connection}
    (hoffered : x.offered? c = some conn) (hc : c.connection = none) :
    Answered c x (c.attach conn).1 ((c.attach conn).2.map fun _ => true) := by
  have hrunning : ¬ c.isRunning = true := by
    rw [isRunning, hc]
    exact Bool.false_ne_true
  rw [attach, if_neg hrunning]
  rcases hshake : c.handshake conn with ⟨k, e | ⟨info, early⟩⟩
  · exact .refused hoffered hc hshake
  · exact .begun hoffered hc hshake

/-- What a call answers and leaves is one of the things that can be. -/
theorem answered_call (c : Client) (x : Call) : Answered c x (c.call x).1 (c.call x).2 := by
  cases hbegins : x.begins with
  | false =>
    cases hu : x.update? c with
    | none =>
      rw [call_of_spared hbegins hu]
      exact .spared hbegins hu
    | some u =>
      rw [call_of_update? hu]
      rcases c.tell_spec u with ⟨e, he, htell⟩ | ⟨k, k', hc, hsend, htell⟩
      · rw [htell]
        exact .hindered hu he
      · rw [htell]
        exact .told hu hc hsend
  | true =>
    cases hc : c.connection with
    | some k =>
      have hrunning : c.isRunning = true := by
        rw [isRunning, hc]
        rfl
      rw [call_of_running hbegins hrunning]
      exact .running hbegins hrunning
    | none =>
      cases x with
      | attach conn => exact answered_of_offered? rfl hc
      | start mode launch =>
        have hrunning : ¬ c.isRunning = true := by
          rw [isRunning, hc]
          exact Bool.false_ne_true
        simp only [call, start, if_neg hrunning]
        cases hlaunch : launch (c.server.executable mode) with
        | error e => exact .unlaunched rfl hc hlaunch
        | ok conn => exact answered_of_offered? (by rw [Call.offered?, hlaunch]; rfl) hc
      | _ => cases hbegins

/-! ## Histories without the calls that failed -/

/-- The client without the server information and the connections of the past. -/
def core (c : Client) : Client := { c with serverInfo := none, retired := [] }

/-- A call that fails leaves all of this as it was. -/
theorem core_of_failed {c : Client} {x : Call} (hfailed : (c.call x).2 ≠ .ok true) :
    (c.call x).1.core = c.core := by
  have hanswered := answered_call c x
  generalize (c.call x).1 = c' at hanswered
  generalize (c.call x).2 = answer at hanswered hfailed
  cases hanswered with
  | told | begun => exact absurd rfl hfailed
  | _ => rfl

theorem core_handle (c : Client) (m : Json) : (c.handle m).core = c.core.handle m := by
  unfold handle
  split
  · rfl
  · cases Notification.ofJson? m with
    | none => rfl
    | some n => cases n <;> rfl

theorem core_foldl_handle (early : List Json) (c : Client) :
    (early.foldl handle c).core = early.foldl handle c.core := by
  induction early generalizing c with
  | nil => rfl
  | cons m early ih => rw [List.foldl_cons, List.foldl_cons, ih, core_handle]

theorem core_tell (c : Client) (u : Update) :
    (c.core.tell u).1.core = (c.tell u).1.core ∧ (c.core.tell u).2 = (c.tell u).2 := by
  have hsame : c.core.connection = c.connection := rfl
  unfold tell
  rw [hsame]
  cases c.connection with
  | none => exact ⟨rfl, rfl⟩
  | some k =>
    simp only
    rcases k.send u.message with ⟨k', e | ⟨⟩⟩ <;> exact ⟨rfl, rfl⟩

theorem core_attach (c : Client) (conn : Connection) :
    (c.core.attach conn).1.core = (c.attach conn).1.core ∧
      (c.core.attach conn).2 = (c.attach conn).2 := by
  have hrunning : c.core.isRunning = c.isRunning := rfl
  have hshake : c.core.handshake conn = c.handshake conn := rfl
  unfold attach
  rw [hrunning, hshake]
  split
  · exact ⟨rfl, rfl⟩
  · rcases c.handshake conn with ⟨k, e | ⟨info, early⟩⟩
    · exact ⟨rfl, rfl⟩
    · refine ⟨?_, rfl⟩
      show (early.foldl handle _).core = (early.foldl handle _).core
      rw [core_foldl_handle, core_foldl_handle]
      rfl

theorem core_start (c : Client) (mode : LaunchMode)
    (launch : Executable → Except IoError Connection) :
    (c.core.start mode launch).1.core = (c.start mode launch).1.core ∧
      (c.core.start mode launch).2 = (c.start mode launch).2 := by
  have hrunning : c.core.isRunning = c.isRunning := rfl
  have hserver : c.core.server = c.server := rfl
  unfold start
  rw [hrunning, hserver]
  split
  · exact ⟨rfl, rfl⟩
  · cases launch (c.server.executable mode) with
    | error e => exact ⟨rfl, rfl⟩
    | ok conn => exact core_attach c conn

/-- What a call does is known without the server information and the connections of the past. -/
theorem core_call (c : Client) (x : Call) :
    (c.core.call x).1.core = (c.call x).1.core ∧ (c.core.call x).2 = (c.call x).2 := by
  cases hbegins : x.begins with
  | false =>
    have hsame : x.update? c.core = x.update? c := by cases x <;> rfl
    cases hu : x.update? c with
    | none =>
      rw [call_of_spared hbegins hu, call_of_spared hbegins (hsame.trans hu)]
      exact ⟨rfl, rfl⟩
    | some u =>
      rw [call_of_update? hu, call_of_update? (hsame.trans hu)]
      exact core_tell c u
  | true =>
    cases x with
    | attach conn =>
      obtain ⟨hcore, hanswer⟩ := core_attach c conn
      exact ⟨hcore, congrArg (Except.map fun _ => true) hanswer⟩
    | start mode launch =>
      obtain ⟨hcore, hanswer⟩ := core_start c mode launch
      exact ⟨hcore, congrArg (Except.map fun _ => true) hanswer⟩
    | _ => cases hbegins

/-- The client after some calls, one after the other. -/
def callAll (c : Client) (xs : List Call) : Client := xs.foldl (fun c x => (c.call x).1) c

/-- The calls that succeed when all of them are made. -/
def succeeding (c : Client) : List Call → List Call
  | [] => []
  | x :: xs =>
    match (c.call x).2 with
    | .ok true => x :: (c.call x).1.succeeding xs
    | _ => (c.call x).1.succeeding xs

/-- A history of calls without those that failed ends the same. -/
theorem core_callAll_succeeding (xs : List Call) (c d : Client) (h : d.core = c.core) :
    (d.callAll (c.succeeding xs)).core = (c.callAll xs).core := by
  induction xs generalizing c d with
  | nil => exact h
  | cons x xs ih =>
    rw [succeeding]
    split
    · refine ih _ _ ?_
      rw [← (core_call d x).1, h, (core_call c x).1]
    · rename_i hfailed
      exact ih _ _ (h.trans (core_of_failed hfailed).symm)

/-- A failed call leaves the client as it was or, where a handshake failed, without server information. -/
theorem call_of_failed {c : Client} {x : Call} (hfailed : (c.call x).2 ≠ .ok true) :
    (c.call x).1 = c ∨ ∃ conn k e, x.offered? c = some conn ∧ c.connection = none ∧
      c.handshake conn = (k, .error e) ∧
      c.call x = ({ c with serverInfo := none, retired := c.retired ++ [k] }, .error (.io e)) := by
  have hanswered := answered_call c x
  generalize hafter : (c.call x).1 = after at hanswered
  generalize hanswer : (c.call x).2 = answer at hanswered hfailed
  cases hanswered with
  | told | begun => exact absurd rfl hfailed
  | refused hoffered hc hshake =>
    exact .inr ⟨_, _, _, hoffered, hc, hshake, Prod.ext hafter hanswer⟩
  | _ => exact .inl rfl

/-- What fails to tell the server something changes nothing, and says what is in the way. -/
theorem call_of_error {c : Client} {x : Call} {e : ClientError} (hbegins : x.begins = false)
    (herror : (c.call x).2 = .error e) : c.obstacle? = some e ∧ (c.call x).1 = c := by
  cases hu : x.update? c with
  | none =>
    rw [call_of_spared hbegins hu] at herror
    cases herror
  | some u =>
    rw [call_of_update? hu] at herror ⊢
    rcases c.tell_spec u with ⟨e', he', htell⟩ | ⟨k, k', -, -, htell⟩
    · rw [htell] at herror ⊢
      cases herror
      exact ⟨he', rfl⟩
    · rw [htell] at herror
      cases herror

/-- What is to be told is not told, and changes nothing, if something is in the way. -/
theorem call_of_obstacle {c : Client} {x : Call} {u : Update} {e : ClientError}
    (hu : x.update? c = some u) (he : c.obstacle? = some e) : c.call x = (c, .error e) := by
  rw [call_of_update? hu]
  rcases c.tell_spec u with ⟨e', he', htell⟩ | ⟨k, k', hc, hsend, -⟩
  · obtain rfl : e = e' := Option.some.inj (he.symm.trans he')
    exact htell
  · have hwriting : k.writing = true := by
      by_cases hw : k.writing = true
      · exact hw
      · rw [Connection.send, if_neg hw] at hsend
        cases hsend
    rw [obstacle?, hc] at he
    cases he.symm.trans (if_pos hwriting)

/-- What is to be told to a server that is written to is told, and adds one message to the connection. -/
theorem call_of_writing {c : Client} {x : Call} {u : Update} {k : Connection}
    (hc : c.connection = some k) (hwriting : k.writing = true) (hu : x.update? c = some u) :
    ∃ k', c.call x =
        ({ c with connection := some k', openDocuments := u.apply c.openDocuments }, .ok true) ∧
      k'.handed = k.handed ++ [u.message] := by
  have hfree : c.obstacle? = none := by
    rw [obstacle?, hc]
    exact if_pos hwriting
  rw [call_of_update? hu]
  rcases c.tell_spec u with ⟨e, he, -⟩ | ⟨k₀, k', hc', hsend, htell⟩
  · rw [hfree] at he
    cases he
  · obtain rfl : k = k₀ := Option.some.inj (hc.symm.trans hc')
    obtain ⟨t, ht, hcontinues⟩ := Connection.handed_of_send hsend
    refine ⟨k', htell, ?_⟩
    rw [Connection.handed, hcontinues.history, List.filterMap_append, List.filterMap_cons_some ht]
    rfl

/-- Calls that fail leave a client as it was, whatever it went through before: its connection with all that
was written, the findings, the documents and the events that wait. Only a failed handshake takes the server
information with it. A running client refuses another connection and goes on with its own; documents that
are not selected or not open and files that are not watched concern it no more when it is stopped than when
it runs; and nothing that could not be told counts as told. So the calls that fail can be left out of any
history. -/
theorem intact_after_failed_calls (c : Client) :
    (∀ x, (c.call x).2 ≠ .ok true → (c.call x).1 = c ∨
      ∃ conn k e, x.offered? c = some conn ∧ c.connection = none ∧
        c.handshake conn = (k, .error e) ∧
        c.call x = ({ c with serverInfo := none, retired := c.retired ++ [k] }, .error (.io e))) ∧
      (∀ x, x.begins = true → c.isRunning = true →
        c.call x = (c, .error (.alreadyRunning c.id))) ∧
      (∀ x y u k, x.begins = true → c.connection = some k → k.writing = true →
        y.update? c = some u → ∃ k', (c.call x).1.call y =
          ({ c with connection := some k', openDocuments := u.apply c.openDocuments }, .ok true) ∧
          k'.handed = k.handed ++ [u.message]) ∧
      (∀ uri language version text, c.handles uri language = false →
        c.openDocument uri language version text = (c, .ok false)) ∧
      (∀ uri, uri ∉ c.openDocuments → c.closeDocument uri = (c, .ok false)) ∧
      (∀ path change, c.options.watched.accepts (c.watchedPath path) = false →
        c.fileEvent path change = (c, .ok false)) ∧
      (∀ x e, x.begins = false → (c.call x).2 = .error e →
        c.obstacle? = some e ∧ (c.call x).1 = c) ∧
      ∀ xs, (c.callAll (c.succeeding xs)).core = (c.callAll xs).core := by
  refine ⟨fun x => call_of_failed, fun x => call_of_running, ?_, ?_, ?_, ?_,
    fun x e => call_of_error, fun xs => core_callAll_succeeding xs c c rfl⟩
  · intro x y u k hbegins hc hwriting hu
    have hrunning : c.isRunning = true := by
      rw [isRunning, hc]
      rfl
    rw [call_of_running hbegins hrunning]
    exact call_of_writing hc hwriting hu
  · intro uri language version text hhandles
    exact call_of_spared (x := .openDocument uri language version text) rfl
      (if_neg (by rw [hhandles]; exact Bool.false_ne_true))
  · intro uri hopen
    exact call_of_spared (x := .closeDocument uri) rfl
      (if_neg fun h => hopen (List.contains_iff_mem.1 h))
  · intro path change hwatched
    exact call_of_spared (x := .fileEvent path change) rfl
      (if_neg (by rw [hwatched]; exact Bool.false_ne_true))

/-- A handshake is refused, the next one succeeds, and then there is no room for a third; a document that
could not be told about before is told about after that. -/
theorem intact_after_refusal :
    let refusal : Json := .object [("id", .nat 1), ("error", .object [("message", .string "no")])]
    let start := Client.new "client" "Client" {} (ServerOptions.ofModule "server" none)
      ⟨[⟨none, none⟩], ⟨[]⟩, 1, 1⟩ none
    let bad : Connection := { inbound := [.message refusal] }
    let good : Connection := { inbound := [.message (Connection.responseOf 1 .null)] }
    let opening : Call := .openDocument "file:///a.txt" "plaintext" 1 ""
    let calls : List Call := [opening, .attach bad, .attach good, .attach bad, opening,
      .closeDocument "file:///b.txt"]
    let c := (start.call (.attach good)).1
    (start.call (.attach bad)).2 = .error (.io (.refused "no")) ∧
      ((start.call (.attach bad)).1 = start ∨ ∃ conn k e,
        Call.offered? start (.attach bad) = some conn ∧ start.connection = none ∧
          start.handshake conn = (k, .error e) ∧ start.call (.attach bad) =
            ({ start with serverInfo := none, retired := start.retired ++ [k] }, .error (.io e))) ∧
      (start.obstacle? = some (.notRunning "client") ∧ (start.call opening).1 = start) ∧
      c.call (.attach bad) = (c, .error (.alreadyRunning "client")) ∧
      (∃ k k', c.connection = some k ∧ (c.call (.attach bad)).1.call opening =
        ({ c with connection := some k', openDocuments := ["file:///a.txt"] }, .ok true) ∧
        k'.handed.length = k.handed.length + 1) ∧
      c.closeDocument "file:///b.txt" = (c, .ok false) ∧
      (start.succeeding calls).length = 2 ∧
      (start.callAll (start.succeeding calls)).core = (start.callAll calls).core := by
  intro refusal start bad good opening calls c
  obtain ⟨hfailed, -, -, -, -, -, hhindered, hhistory⟩ := intact_after_failed_calls start
  obtain ⟨-, hbusy, husable, -, hclosed, -⟩ := intact_after_failed_calls c
  have hrefused : (start.call (.attach bad)).2 = .error (.io (.refused "no")) := rfl
  have hanswer : (start.call (.attach bad)).2 ≠ .ok true := by
    rw [hrefused]
    simp
  have hrunning : c.isRunning = true := rfl
  have hunopened : "file:///b.txt" ∉ c.openDocuments := by decide
  refine ⟨hrefused, hfailed _ hanswer, hhindered opening _ rfl rfl, hbusy _ rfl hrunning, ?_,
    hclosed _ hunopened, rfl, hhistory calls⟩
  obtain ⟨k', hopened, hhanded⟩ := husable (.attach bad) opening
    (.opened "file:///a.txt" "plaintext" 1 "") _ rfl rfl rfl rfl
  refine ⟨_, k', rfl, hopened, ?_⟩
  rw [hhanded, List.length_append]
  rfl

end Client

end ColorMarks
