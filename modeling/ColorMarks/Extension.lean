import ColorMarks.Client.Basic
import ColorMarks.Settings

/-!
# Extensions

An extension is a language client together with the commands that work on what it found. It knows one
command, the highlight toggle.
-/

namespace ColorMarks

/-- A client and the commands on its findings. -/
structure Extension where
  client : Client
  commands : Registry

namespace Extension

/-- The extension of a client, with the highlight toggle registered. -/
def ofClient (client : Client) (policy : Policy) : Except ClientError Extension :=
  match Registry.empty.register ToggleCommand.name (ToggleCommand.new policy) with
  | .ok commands => .ok ⟨client, commands⟩
  | .error e => .error (.command e)

/-- The client that the settings describe; its server is looked up in the directory `root`. -/
def clientOf (s : Settings) (h : Host) (root : String) (workspace : Option String) :
    Except ClientError Client :=
  match s.clientOptions with
  | .ok options =>
    .ok (Client.new s.client.id s.client.name h (s.serverOptions root) options workspace)
  | .error e => .error (.watch e)

/-- The extension that the settings describe, with its client stopped. -/
def ofSettings (s : Settings) (h : Host) (root : String) (workspace : Option String) :
    Except ClientError Extension := do
  ofClient (← clientOf s h root workspace) s.highlight.policy

/-- Extension and window after a command was run over the findings of the client. -/
def execute (e : Extension) (id : String) (w : Window) : Except ClientError (Extension × Window) :=
  match e.commands.execute id e.client.store.snapshot w with
  | .ok (commands, w) => .ok ({ e with commands }, w)
  | .error cause => .error (.command cause)

/-- The window after the messages among some events were shown. -/
def showMessages (w : Window) (events : List Event) : Window :=
  events.foldl (fun w event =>
    match event with
    | .showMessage m => w.notify m.text
    | _ => w) w

/-- Lets the client take all that arrived, and shows the messages for the user in the window. -/
def poll (e : Extension) (w : Window) : Extension × Window × List Event :=
  let (client, events) := e.client.poll
  ({ e with client }, showMessages w events, events)

/-- The extension with its connection changed. -/
def mapConnection (e : Extension) (f : Connection → Connection) : Extension :=
  { e with client := { e.client with connection := e.client.connection.map f } }

/-- A description of the extension. -/
def describe (e : Extension) : String :=
  "Extension \x7b client: " ++ e.client.describe ++ ", commands: " ++ e.commands.describe ++ " \x7d"

end Extension

end ColorMarks
