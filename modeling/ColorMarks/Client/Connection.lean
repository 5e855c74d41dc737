import ColorMarks.Frame

/-!
# Connections to a server

A connection holds what arrived from the server and was not taken yet, what was written to it and
taken from it, in order, and the numbers of its requests. Nothing here waits: what arrives in time is
what has arrived, and a wait that takes everything without an answer has timed out.
-/

namespace ColorMarks

open ColorMarks.Frame (Arrival)

/-- A fault of the stream to the server: messages after the first `after` cannot be written. -/
structure WriteFault where
  after : Nat
  error : IoError
  deriving DecidableEq, Repr

/-- Something that happened on a connection. -/
inductive Traffic where
  /-- A message was written to the server. -/
  | sent (m : Json)
  /-- A message was handed to the writer, which could not write it and stopped. -/
  | lost (m : Json)
  /-- An arrival was taken. -/
  | received (a : Arrival)

namespace Traffic

/-- The message that was written. -/
def sent? : Traffic → Option Json
  | sent m => some m
  | _ => none

/-- The message that was handed to the writer, written or not. -/
def handed? : Traffic → Option Json
  | sent m => some m
  | lost m => some m
  | received _ => none

end Traffic

/-- A connection to a server. -/
structure Connection where
  /-- What its owner calls the connection. -/
  label : Nat := 0
  /-- The answer to a server that asks for the workspace folders. -/
  folders : List Json := []
  /-- What arrived and was not taken yet. -/
  inbound : List Arrival := []
  /-- The bytes of an incomplete frame, or nothing when no more is read from the server. -/
  partialFrame : Option (List UInt8) := some []
  /-- All that was written and taken, in order. -/
  history : List Traffic := []
  /-- Whether messages are still written. -/
  writing : Bool := true
  fault : Option WriteFault := none
  /-- The number of the next request. -/
  nextId : Nat := 1

namespace Connection

/-- All messages written, in order. -/
def sent (c : Connection) : List Json := c.history.filterMap Traffic.sent?

/-- All messages handed to the writer, in order. -/
def handed (c : Connection) : List Json := c.history.filterMap Traffic.handed?

/-- The connection after one thing more happened on it. -/
def record (c : Connection) (t : Traffic) : Connection := { c with history := c.history ++ [t] }

/-- The connection after bytes came from the server, and what came after them. -/
def supply (c : Connection) (bytes : List UInt8) (tail : Frame.Tail) : Connection :=
  match c.partialFrame with
  | none => c
  | some before =>
    let (arrivals, left) := Frame.receive tail (before ++ bytes)
    { c with inbound := c.inbound ++ arrivals, partialFrame := left }

/-- The fault that keeps the next message from being written. -/
def hinders? (c : Connection) : Option IoError :=
  c.fault.bind fun f => if f.after ≤ c.sent.length then some f.error else none

/--
Hands a message to the writer. The first message that cannot be written stops the writer and is
reported as an arrival; only later ones are refused.
-/
def send (c : Connection) (m : Json) : Connection × Except IoError Unit :=
  if c.writing then
    match c.hinders? with
    | some e =>
      ({ c.record (.lost m) with writing := false, inbound := c.inbound ++ [.failed e.message] },
        .ok ())
    | none => (c.record (.sent m), .ok ())
  else (c, .error .writerStopped)

/-- The version that every message names. -/
def version : String × Json := ("jsonrpc", .string "2.0")

/-- The message of a notification. -/
def notificationOf (method : String) (params : Json) : Json :=
  .object [version, ("method", .string method), ("params", params)]

/-- The message of a request. -/
def requestOf (id : Nat) (method : String) (params : Json) : Json :=
  .object [("id", .nat id), version, ("method", .string method), ("params", params)]

/-- The message of a response. -/
def responseOf (id : Nat) (result : Json) : Json :=
  .object [("id", .nat id), version, ("result", result)]

/-- Sends a notification. -/
def notify (c : Connection) (method : String) (params : Json) : Connection × Except IoError Unit :=
  c.send (notificationOf method params)

/-- Sends a request under the next number. -/
def request (c : Connection) (method : String) (params : Json) :
    Connection × Except IoError Nat :=
  let id := c.nextId
  let (c, result) := { c with nextId := id + 1 }.send (requestOf id method params)
  (c, result.map fun _ => id)

/-- Answers a request of the server. -/
def respond (c : Connection) (id : Nat) (result : Json) : Connection × Except IoError Unit :=
  c.send (responseOf id result)

/-- Answers a request of the server with an error. -/
def respondError (c : Connection) (id : Nat) (code : Int) (message : String) (data : Option Json) :
    Connection × Except IoError Unit :=
  let error := [("code", .integer code)] ++ (data.map fun d => ("data", d)).toList ++
    [("message", .string message)]
  c.send (.object [("error", .object error), ("id", .nat id), version])

/-- The answer to a request of the server: the least that lets it go on. -/
def defaultResult (folders : List Json) (m : Json) : Json :=
  match ((m.get? "method").bind Json.asString?).getD "" with
  | "workspace/configuration" =>
    let items := ((m.get? "params").bind (·.get? "items")).bind Json.asArray?
    .array (List.replicate (items.getD []).length .null)
  | "workspace/workspaceFolders" => .array folders
  | "workspace/applyEdit" =>
    .object [("applied", .bool false),
      ("failureReason", .string "diag-highlight does not apply workspace edits")]
  | _ => .null

/-- Answers a request of the server, if its number is a natural one. -/
def answer (c : Connection) (m : Json) : Connection × Except IoError Unit :=
  match (m.get? "id").bind Json.asNat64? with
  | some id => c.respond id (defaultResult c.folders m)
  | none => (c, .ok ())

/-- Takes the next arrival. -/
def take? (c : Connection) : Option (Arrival × Connection) :=
  match c.inbound with
  | a :: rest => some (a, { c with inbound := rest }.record (.received a))
  | [] => none

/-- Whether a message has a method. -/
def hasMethod (m : Json) : Bool := (m.get? "method").isSome

/-- Whether a message is a request: it has a method and an identifier. -/
def isRequest (m : Json) : Bool := hasMethod m && (m.get? "id").isSome

/-- Whether a message is the response to the request with this number. -/
def isResponse (id : Nat) (m : Json) : Bool :=
  !hasMethod m && (m.get? "id").bind Json.asNat64? == some id

/-- Whether nothing can arrive any more. -/
def isOver (c : Connection) : Bool := c.partialFrame.isNone && !c.writing

/--
Takes the queued arrivals one by one up to the response to a request. Requests are answered; all other
messages are skipped and returned with the response. The arrivals of the connection itself are those
that came after the queue, for a failed answer may add one.
-/
def awaitIn (id : Nat) : List Arrival → Connection → List Json →
    Connection × Except IoError (Json × List Json)
  | [], c, _ =>
    match c.inbound with
    | .failed text :: later =>
      ({ c with inbound := later }.record (.received (.failed text)),
        .error (.connectionFailed text))
    | _ => (c, .error (if c.isOver then .serverClosed else .timedOut))
  | .failed text :: q, c, _ =>
    ({ c with inbound := q ++ c.inbound }.record (.received (.failed text)),
      .error (.connectionFailed text))
  | .closed :: q, c, _ =>
    ({ c with inbound := q ++ c.inbound }.record (.received .closed), .error .serverClosed)
  | .message m :: q, c, skipped =>
    let c := c.record (.received (.message m))
    if isResponse id m then ({ c with inbound := q ++ c.inbound }, .ok (m, skipped))
    else if isRequest m then
      match c.answer m with
      | (c, .ok _) => awaitIn id q c skipped
      | (c, .error e) => ({ c with inbound := q ++ c.inbound }, .error e)
    else awaitIn id q c (skipped ++ [m])

/-- Waits for the response to a request, with the time there is for it in milliseconds. -/
def await (c : Connection) (id : Nat) (patience : Nat) :
    Connection × Except IoError (Json × List Json) :=
  if patience = 0 then (c, .error (.noTimeLeft id))
  else awaitIn id c.inbound { c with inbound := [] } []

/-- Asks the server to shut down, waits for its answer and tells it to exit. -/
def shutdown (c : Connection) (patience : Nat) : Connection × Except IoError Unit :=
  match c.request "shutdown" .null with
  | (c, .error e) => (c, .error e)
  | (c, .ok id) =>
    match c.await id patience with
    | (c, .error e) => (c, .error e)
    | (c, .ok _) => c.notify "exit" .null

end Connection

end ColorMarks
