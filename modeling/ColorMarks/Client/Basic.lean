import ColorMarks.Client.Connection
import ColorMarks.Client.Error
import ColorMarks.Launch
import ColorMarks.Notification
import ColorMarks.Selector
import ColorMarks.Store

/-!
# Language clients

A client has at most one connection. It is running while it has one: then documents and file events
are sent to the server, and what the server publishes is stored. A lost connection leaves the stored
findings as they are; stopping the client clears them.
-/

namespace ColorMarks

open ColorMarks.Frame (Arrival)

/-- How a client treats its server. -/
structure ClientOptions where
  selector : Selector
  watched : WatchFilter
  /-- How long the server may take for the handshake, in milliseconds. -/
  handshakePatience : Nat
  /-- How long the server may take to shut down, in milliseconds. -/
  shutdownPatience : Nat

/-- What a server says about itself. -/
structure ServerInfo where
  name : String
  version : Option String
  deriving DecidableEq, Repr

/-- The server information in the result of a handshake. -/
def ServerInfo.decode? (result : Json) : Option ServerInfo := do
  let info ← result.get? "serverInfo"
  let name ← (← info.get? "name").asString?
  return ⟨name, (info.get? "version").bind Json.asString?⟩

/-- A description of the server information. -/
def ServerInfo.describe (i : ServerInfo) : String :=
  let version := match i.version with
    | some v => "Some(" ++ Text.quoted v ++ ")"
    | none => "None"
  "ServerInfo \x7b name: " ++ Text.quoted i.name ++ ", version: " ++ version ++ " \x7d"

/-- Something that a client noticed. -/
inductive Event where
  /-- The findings of a document were replaced; so many are known now. -/
  | diagnostics (uri : String) (count : Nat)
  | showMessage (m : Message)
  | logMessage (m : Message)
  | disconnected (reason : String)
  deriving DecidableEq, Repr

/-- How a watched file changed. -/
inductive FileChange where
  | created
  | changed
  | deleted
  deriving DecidableEq, Repr

/-- The number of a change. -/
def FileChange.number : FileChange → Nat
  | created => 1
  | changed => 2
  | deleted => 3

/-- A language client. -/
structure Client where
  id : String
  name : String
  host : Host
  server : ServerOptions
  options : ClientOptions
  workspace : Option String := none
  connection : Option Connection := none
  serverInfo : Option ServerInfo := none
  store : Store := .empty
  /-- The documents for which findings were published, even none. -/
  published : List String := []
  openDocuments : List String := []
  /-- What was noticed and not reported yet. -/
  pending : List Event := []
  /-- The connections of the past, in order. -/
  retired : List Connection := []

namespace Client

/-- A client that was never run. -/
def new (id name : String) (host : Host) (server : ServerOptions) (options : ClientOptions)
    (workspace : Option String) : Client :=
  { id, name, host, server, options, workspace }

/-- The connections of the past and the one that the client has, in order. -/
def connections (c : Client) : List Connection := c.retired ++ c.connection.toList

/-- Whether the client has a connection. -/
def isRunning (c : Client) : Bool := c.connection.isSome

/-- The client without its connection. -/
def retire (c : Client) : Client :=
  { c with connection := none, retired := c.retired ++ c.connection.toList }

/-- The workspace folders as the server is told about them. -/
def folders (c : Client) : List Json :=
  c.workspace.toList.map fun root =>
    .object [("name", .string ((Path.fileName? root).getD "")),
      ("uri", .string (Uri.ofPath c.host root))]

/-- What the server is told in the handshake. -/
def handshakeParams (c : Client) : Json :=
  let folders := c.folders
  .object [
    ("capabilities", .object [
      ("textDocument", .object [
        ("publishDiagnostics", .object [("relatedInformation", .bool true)]),
        ("synchronization", .object [
          ("didSave", .bool false), ("dynamicRegistration", .bool false)])]),
      ("workspace", .object [
        ("configuration", .bool true),
        ("didChangeWatchedFiles", .object [("dynamicRegistration", .bool false)]),
        ("workspaceFolders", .bool true)])]),
    ("clientInfo", .object [("name", .string c.name)]),
    ("processId", .nat c.host.processId),
    ("rootUri", (folders.head?.bind (·.get? "uri")).getD .null),
    ("workspaceFolders", if folders.isEmpty then .null else .array folders)]

/-- The reason for which a server refused the handshake, if its response is an error. -/
def refusal? (response : Json) : Option IoError :=
  (response.get? "error").map fun e =>
    .refused (((e.get? "message").bind Json.asString?).getD "initialize failed")

/-- The handshake on a connection: the server information and the messages that came before the response. -/
def handshake (c : Client) (conn : Connection) :
    Connection × Except IoError (Option ServerInfo × List Json) :=
  match conn.request "initialize" c.handshakeParams with
  | (conn, .error e) => (conn, .error e)
  | (conn, .ok id) =>
    match conn.await id c.options.handshakePatience with
    | (conn, .error e) => (conn, .error e)
    | (conn, .ok (response, early)) =>
      match refusal? response with
      | some e => (conn, .error e)
      | none =>
        let info := ServerInfo.decode? ((response.get? "result").getD .null)
        match conn.notify "initialized" (.object []) with
        | (conn, .error e) => (conn, .error e)
        | (conn, .ok _) => (conn, .ok (info, early))

/-- The client after a notification. -/
def notice (c : Client) : Notification → Client
  | .publish p =>
    let store := c.store.update p.uri p.diagnostics
    { c with
      store
      published := if c.published.contains p.uri then c.published else c.published ++ [p.uri]
      pending := c.pending ++ [.diagnostics p.uri ((store.get? p.uri).getD []).length] }
  | .showMessage m => { c with pending := c.pending ++ [.showMessage m] }
  | .logMessage m => { c with pending := c.pending ++ [.logMessage m] }

/-- The client after a message: a request is answered, a notification noticed. -/
def handle (c : Client) (m : Json) : Client :=
  if Connection.isRequest m then
    { c with connection := c.connection.map fun conn => (conn.answer m).1 }
  else match Notification.ofJson? m with
    | some n => c.notice n
    | none => c

/-- Runs the client over a connection. Failing the handshake ends the connection. -/
def attach (c : Client) (conn : Connection) : Client × Except ClientError Unit :=
  if c.isRunning then (c, .error (.alreadyRunning c.id))
  else match c.handshake conn with
    | (conn, .error e) =>
      ({ c with serverInfo := none, retired := c.retired ++ [conn] }, .error (.io e))
    | (conn, .ok (info, early)) =>
      let c := { c with serverInfo := info, connection := some conn }
      (early.foldl handle c, .ok ())

/-- Runs the client over the connection that `launch` makes for its server process. -/
def start (c : Client) (mode : LaunchMode) (launch : Executable → Except IoError Connection) :
    Client × Except ClientError Unit :=
  if c.isRunning then (c, .error (.alreadyRunning c.id))
  else match launch (c.server.executable mode) with
    | .error e => (c, .error (.io e))
    | .ok conn => c.attach conn

/-- Sends a notification to the server. -/
def notify (c : Client) (method : String) (params : Json) : Client × Except ClientError Unit :=
  match c.connection with
  | none => (c, .error (.notRunning c.id))
  | some conn =>
    match conn.notify method params with
    | (conn, .ok _) => ({ c with connection := some conn }, .ok ())
    | (conn, .error e) => ({ c with connection := some conn }, .error (.io e))

/-- Whether documents of this address and language are sent to the server. -/
def handles (c : Client) (uri language : String) : Bool := c.options.selector.accepts uri language

/-- What the server is told about an opened document. -/
def openingParams (uri language : String) (version : Int) (text : String) : Json :=
  .object [("textDocument", .object [
    ("languageId", .string language), ("text", .string text), ("uri", .string uri),
    ("version", .integer version)])]

/-- What the server is told about a closed document. -/
def closingParams (uri : String) : Json :=
  .object [("textDocument", .object [("uri", .string uri)])]

/-- What the server is told about a changed file. -/
def changeParams (uri : String) (change : FileChange) : Json :=
  .object [("changes", .array [.object [
    ("type", .nat change.number), ("uri", .string uri)]])]

/-- Tells the server about an opened document, unless it is not selected. -/
def openDocument (c : Client) (uri language : String) (version : Int) (text : String) :
    Client × Except ClientError Bool :=
  if c.handles uri language then
    match c.notify "textDocument/didOpen" (openingParams uri language version text) with
    | (c, .error e) => (c, .error e)
    | (c, .ok _) =>
      ({ c with openDocuments :=
          if c.openDocuments.contains uri then c.openDocuments else c.openDocuments ++ [uri] },
        .ok true)
  else (c, .ok false)

/-- Tells the server about a closed document, if it was opened before. -/
def closeDocument (c : Client) (uri : String) : Client × Except ClientError Bool :=
  if c.openDocuments.contains uri then
    match c.notify "textDocument/didClose" (closingParams uri) with
    | (c, .error e) => (c, .error e)
    | (c, .ok _) => ({ c with openDocuments := c.openDocuments.filter (· != uri) }, .ok true)
  else (c, .ok false)

/-- The path as the patterns of watched files see it: relative to the workspace, if it lies there. -/
def watchedPath (c : Client) (path : String) : String :=
  (c.workspace.bind fun root => Path.relativeTo? root path).getD path

/-- Tells the server about a change of a file, if it is watched. -/
def fileEvent (c : Client) (path : String) (change : FileChange) :
    Client × Except ClientError Bool :=
  if c.options.watched.accepts (c.watchedPath path) then
    match c.notify "workspace/didChangeWatchedFiles"
        (changeParams (Uri.ofPath c.host path) change) with
    | (c, .error e) => (c, .error e)
    | (c, .ok _) => (c, .ok true)
  else (c, .ok false)

/-- The client after an arrival was taken from its connection. -/
def receive (c : Client) (a : Arrival) : Client :=
  { c with connection := c.connection.map fun conn => conn.record (.received a) }

/-- The client after its connection was lost. -/
def disconnect (c : Client) (reason : String) : Client :=
  let c := c.retire
  { c with pending := c.pending ++ [.disconnected reason] }

/--
Takes the queued arrivals one by one, up to the loss of the connection. The arrivals of the connection
itself are those that came after the queue, for a failed answer may add one.
-/
def drainIn : List Arrival → Client → Client
  | [], c =>
    match c.connection.map Connection.inbound with
    | some (.failed text :: _) => (c.receive (.failed text)).disconnect text
    | _ => c
  | .message m :: q, c => drainIn q ((c.receive (.message m)).handle m)
  | .failed text :: _, c => (c.receive (.failed text)).disconnect text
  | .closed :: _, c => (c.receive .closed).disconnect "connection closed"

/-- The client after everything that arrived was taken. -/
def drain (c : Client) : Client :=
  match c.connection with
  | none => c
  | some conn => drainIn conn.inbound { c with connection := some { conn with inbound := [] } }

/-- Takes everything that arrived, and reports all that was noticed. -/
def poll (c : Client) : Client × List Event :=
  let c := c.drain
  ({ c with pending := [] }, c.pending)

/-- Takes everything that arrived, and tells whether findings were published for a document. -/
def waitForDiagnostics (c : Client) (uri : String) : Client × Bool :=
  let c := c.drain
  (c, c.published.contains uri)

/-- Stops the client and shuts the server down; nothing happens without a connection. -/
def stop (c : Client) : Client × Option (Except IoError Unit) :=
  match c.connection with
  | none => (c, none)
  | some conn =>
    let (conn, result) := conn.shutdown c.options.shutdownPatience
    ({ c with
      connection := none, retired := c.retired ++ [conn], serverInfo := none, store := .empty
      published := [], openDocuments := [] }, some result)

/-- The client after bytes came from the server. -/
def supply (c : Client) (bytes : List UInt8) (tail : Frame.Tail) : Client :=
  { c with connection := c.connection.map fun conn => conn.supply bytes tail }

/-- A description of the client. -/
def describe (c : Client) : String :=
  let info := match c.serverInfo with
    | some i => "Some(" ++ i.describe ++ ")"
    | none => "None"
  "LanguageClient \x7b id: " ++ Text.quoted c.id ++ ", state: " ++
    (if c.isRunning then "Running" else "Stopped") ++ ", server_info: " ++ info ++ ", .. \x7d"

end Client

end ColorMarks
