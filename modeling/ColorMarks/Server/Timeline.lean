import ColorMarks.Extension
import ColorMarks.Server.Basic

/-!
# Timelines

An extension beside the server process that its client started. What the client does is asked without
any waiting: either it can be answered from what has arrived, or time goes on to the next output of the
server, up to the deadline, and the same is asked again with that output supplied.

One action hears at most `turns` outputs of the server. Beyond them it is answered at once from what has
arrived by then, as at its deadline, but the clock stays at the last output that was heard; what the server
writes later is left for the next action.
-/

namespace ColorMarks

/-- How a server is launched: in a workspace, by an executable. -/
abbrev Launcher := Option String → Executable → Except IoError Server

/-- An extension, and the server that it runs on, as time goes by. -/
structure Timeline where
  extension : Extension
  launcher : Launcher
  run : Option ServerRun := none
  /-- The time in milliseconds. -/
  now : Nat := 0

namespace Timeline

/-- How many outputs of a server are heard during one action at most. -/
def turns : Nat := 10000

/-- The connection that a client used last. -/
def lastConnection (c : Client) : Option Connection := c.connection <|> c.retired.getLast?

/--
Asks with what has arrived, and again after every output of the server up to the deadline, as long as
the answer is to be waited for. `attempt` is given how the connection is supplied.
-/
def askUntil (deadline : Nat) (attempt : (Connection → Connection) → Extension × α)
    (isWaiting : Extension × α → Bool) :
    Nat → (Connection → Connection) → ServerRun → Nat → ServerRun × Nat × Extension × α
  | 0, supply, run, now => (run, now, attempt supply)
  | fuel + 1, supply, run, now =>
    let answer := attempt supply
    let sent := ((lastConnection answer.1.client).map Connection.sent).getD []
    let run := run.hear sent now
    if isWaiting answer then
      match run.nextTime? deadline with
      | some time =>
        let (run, bytes, tail) := run.takeUntil time
        askUntil deadline attempt isWaiting fuel (fun c => (supply c).supply bytes tail) run
          (max now time)
      | none => (run, deadline, answer)
    else (run, now, answer)

/-- The timeline after something was asked that there is some time to wait for. -/
def ask (t : Timeline) (run : ServerRun) (patience : Nat)
    (attempt : (Connection → Connection) → Extension × α) (isWaiting : Extension × α → Bool) :
    Timeline × α :=
  let (run, bytes, tail) := run.takeUntil t.now
  let (run, now, extension, answer) :=
    askUntil (t.now + patience) attempt isWaiting turns (fun c => c.supply bytes tail) run t.now
  ({ t with extension, now, run := if extension.client.isRunning then some run else none }, answer)

/-- The timeline after the extension did something; a server that runs is heard first. -/
def act (t : Timeline) (patience : Nat) (f : Extension → Extension × α)
    (isWaiting : Extension × α → Bool) : Timeline × α :=
  match t.run with
  | none =>
    let (extension, answer) := f t.extension
    ({ t with extension }, answer)
  | some run => t.ask run patience (fun supply => f (t.extension.mapConnection supply)) isWaiting

/-- The timeline after the extension did something that is never waited for. -/
def actAtOnce (t : Timeline) (f : Extension → Extension × α) : Timeline × α :=
  t.act 0 f fun _ => false

/-- What the client does, done by the extension. -/
def withClient (f : Client → Client × α) (e : Extension) : Extension × α :=
  let (client, answer) := f e.client
  ({ e with client }, answer)

/-- Starts the client over a server that was launched. -/
def startOver (t : Timeline) (mode : LaunchMode) (server : Server) :
    Timeline × Except ClientError Unit :=
  let connection : Connection := { folders := t.extension.client.folders }
  t.ask ⟨server, [], 0, false⟩ t.extension.client.options.handshakePatience
    (fun supply => withClient (·.start mode fun _ => .ok (supply connection)) t.extension)
    fun answer => answer.2 matches .error (.io .timedOut)

/-- Starts the client over the server of the settings. -/
def start (t : Timeline) (mode : LaunchMode) : Timeline × Except ClientError Unit :=
  let client := t.extension.client
  if client.isRunning then (t, .error (.alreadyRunning client.id))
  else match t.launcher client.workspace (client.server.executable mode) with
    | .ok server => { t with now := 0 }.startOver mode server
    | .error e => (t, .error (.io e))

/-- Attaches the client to a connection on which everything has arrived. -/
def attach (t : Timeline) (c : Connection) : Timeline × Except ClientError Unit :=
  t.actAtOnce (withClient (·.attach c))

/-- Opens a document. -/
def openDocument (t : Timeline) (uri language : String) (version : Int) (text : String) :
    Timeline × Except ClientError Bool :=
  t.actAtOnce (withClient (·.openDocument uri language version text))

/-- Closes a document. -/
def closeDocument (t : Timeline) (uri : String) : Timeline × Except ClientError Bool :=
  t.actAtOnce (withClient (·.closeDocument uri))

/-- Tells about the change of a file. -/
def fileEvent (t : Timeline) (path : String) (change : FileChange) :
    Timeline × Except ClientError Bool :=
  t.actAtOnce (withClient (·.fileEvent path change))

/-- Takes all that arrived, and shows messages in the window. -/
def poll (t : Timeline) (w : Window) : Timeline × Window × List Event :=
  t.actAtOnce (·.poll w)

/-- Takes all that arrived without showing anything. -/
def pollClient (t : Timeline) : Timeline × List Event := t.actAtOnce (withClient Client.poll)

/-- Waits until findings are published for a document, and tells whether they are. -/
def waitForDiagnostics (t : Timeline) (uri : String) (patience : Nat) : Timeline × Bool :=
  t.act patience (withClient (·.waitForDiagnostics uri))
    fun answer => !answer.2 && answer.1.client.isRunning

/-- Stops the client. -/
def stop (t : Timeline) : Timeline × Option (Except IoError Unit) :=
  t.act t.extension.client.options.shutdownPatience (withClient Client.stop)
    fun answer => answer.2 matches some (.error .timedOut)

end Timeline

end ColorMarks
