import ColorMarks.Diagnostic.Basic
import ColorMarks.Json.Printer

/-!
# Notifications from a server

The three notifications that matter: published findings, a message to show and a message to log. The
payload of a publication is read leniently: an ill-formed finding or related place is left out, and
an ill-formed optional member counts as missing.
-/

namespace ColorMarks

/-- The kinds of messages. -/
inductive MessageKind where
  | error
  | warning
  | info
  | log
  deriving DecidableEq, Repr

namespace MessageKind

/-- The kind with this number; they count from one. -/
def ofNumber? : Nat → Option MessageKind
  | 1 => some error
  | 2 => some warning
  | 3 => some info
  | 4 => some log
  | _ => none

/-- The name of a kind. -/
def name : MessageKind → String
  | error => "Error"
  | warning => "Warning"
  | info => "Info"
  | log => "Log"

end MessageKind

/-- A message to show or to log. -/
structure Message where
  kind : MessageKind
  text : String
  deriving DecidableEq, Repr

/-- All findings of a document, replacing those before. -/
structure Publication where
  uri : String
  version : Option Int
  diagnostics : List Diagnostic
  deriving DecidableEq, Repr

/-- A notification from a server. -/
inductive Notification where
  | publish (p : Publication)
  | showMessage (m : Message)
  | logMessage (m : Message)
  deriving DecidableEq, Repr

/-- A natural number of at most 32 bits. -/
def Json.asWord? (v : Json) : Option UInt32 :=
  (v.asNat64?.filter (· < twoTo 32)).map UInt32.ofNat

namespace Position

/-- A position in a payload. -/
def decode? (v : Json) : Option Position := do
  return ⟨← (← v.get? "line").asWord?, ← (← v.get? "character").asWord?⟩

end Position

namespace Range

/-- A range in a payload. -/
def decode? (v : Json) : Option Range := do
  return ⟨← Position.decode? (← v.get? "start"), ← Position.decode? (← v.get? "end")⟩

end Range

namespace Related

/-- A related place in a payload. -/
def decode? (v : Json) : Option Related := do
  let location ← v.get? "location"
  let uri ← (← location.get? "uri").asString?
  let range ← Range.decode? (← location.get? "range")
  let message ← (← v.get? "message").asString?
  return ⟨⟨uri, range⟩, message⟩

end Related

namespace Diagnostic

/-- The code of a finding: a text, or a number as it is printed. -/
def decodeCode? : Json → Option String
  | .string s => some s
  | .integer n => some (Json.integer n).text
  | .double d => some (Json.double d).text
  | _ => none

/-- A finding in a payload; only its range has to be there. -/
def decode? (v : Json) : Option Diagnostic := do
  let range ← Range.decode? (← v.get? "range")
  return {
    range
    severity := (v.get? "severity").bind Json.asNat64? |>.bind Severity.ofNumber?
    code := (v.get? "code").bind decodeCode?
    source := (v.get? "source").bind Json.asString?
    message := ((v.get? "message").bind Json.asString?).getD ""
    related :=
      (((v.get? "relatedInformation").bind Json.asArray?).getD []).filterMap Related.decode? }

end Diagnostic

namespace Publication

/-- A payload of published findings; only its address has to be there. -/
def decode? (params : Json) : Option Publication := do
  let uri ← (← params.get? "uri").asString?
  return {
    uri
    version := ((params.get? "version").bind Json.asInt64?).filter fun n =>
      -(twoTo 31 : Int) ≤ n && n < twoTo 31
    diagnostics :=
      (((params.get? "diagnostics").bind Json.asArray?).getD []).filterMap Diagnostic.decode? }

end Publication

namespace Message

/-- A payload of a message. -/
def decode? (params : Json) : Option Message := do
  let kind ← MessageKind.ofNumber? (← (← params.get? "type").asNat64?)
  let text ← (← params.get? "message").asString?
  return ⟨kind, text⟩

end Message

namespace Notification

/-- The notification of a method with this payload. -/
def ofMethod? (method : String) (params : Json) : Option Notification :=
  if method = "textDocument/publishDiagnostics" then (Publication.decode? params).map publish
  else if method = "window/showMessage" then (Message.decode? params).map showMessage
  else if method = "window/logMessage" then (Message.decode? params).map logMessage
  else none

/-- The notification that a message is: it has a method, and no identifier. -/
def ofJson? (v : Json) : Option Notification :=
  if (v.get? "id").isSome then none
  else do
    let method ← (← v.get? "method").asString?
    ofMethod? method ((v.get? "params").getD .null)

end Notification

end ColorMarks
