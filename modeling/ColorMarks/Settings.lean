import ColorMarks.Client.Basic
import ColorMarks.Toml.Document

/-!
# Settings

What a TOML document may set: who the client is, how its server is launched, which documents and files
concern it, and what becomes of malformed colors. Everything has a default; an unknown name or a value
of another type is refused.
-/

namespace ColorMarks

open Toml (Value)

/-- A value as an error shows it. -/
inductive Found where
  | boolean (b : Bool)
  | integer (n : Int)
  | float (d : Double)
  | string (s : String)
  | sequence
  | map
  deriving DecidableEq, Repr

/-- The text for a value in an error. -/
def Found.describe : Found → String
  | boolean b => s!"boolean `{b}`"
  | integer n => s!"integer `{n}`"
  | float d => "floating point `" ++ String.ofList (Decimal.messageText d) ++ "`"
  | string s => "string " ++ Text.quoted s
  | sequence => "sequence"
  | map => "map"

/-- How an error shows a value. -/
def Found.ofValue : Value → Found
  | .string s => string s
  | .integer n => integer n
  | .float d => float d
  | .boolean b => boolean b
  | .datetime => map
  | .array _ => sequence
  | .tables _ => sequence
  | .table _ _ => map

/-- Why a document does not fit. -/
inductive ShapeError where
  | unknownField (name : String) (expected : List String)
  | unknownVariant (name : String) (expected : List String)
  | wrongType (found : Found) (expected : String)
  | wrongValue (found : Found) (expected : String)
  | wrongLength (length : Nat) (expected : String)
  /-- A choice is neither a string nor a table. -/
  | noChoice
  /-- A choice is a table in braces with no entry, or with several. -/
  | notOneEntry (several : Bool)
  /-- A choice is a table without entries. -/
  | emptyTable
  /-- A chosen name comes with a table or an array that is not empty. -/
  | notEmpty (array : Bool)
  /-- A chosen name comes with a value. -/
  | unexpectedValue (kind : String)
  deriving DecidableEq, Repr

namespace ShapeError

/-- The names that were expected, in words. -/
def oneOf (names : List String) : String :=
  match names.map fun n => "`" ++ n ++ "`" with
  | [a] => a
  | [a, b] => a ++ " or " ++ b
  | names => "one of " ++ ", ".intercalate names

/-- The text of the error. -/
def message : ShapeError → String
  | unknownField name expected => "unknown field `" ++ name ++ "`, expected " ++ oneOf expected
  | unknownVariant name expected => "unknown variant `" ++ name ++ "`, expected " ++ oneOf expected
  | wrongType found expected => "invalid type: " ++ found.describe ++ ", expected " ++ expected
  | wrongValue found expected => "invalid value: " ++ found.describe ++ ", expected " ++ expected
  | wrongLength length expected => s!"invalid length {length}, expected {expected}"
  | noChoice => "wanted string or table"
  | notOneEntry false => "wanted exactly 1 element, found 0 elements"
  | notOneEntry true => "wanted exactly 1 element, more than 1 element"
  | emptyTable => "expected table with exactly 1 entry, found empty table"
  | notEmpty false => "expected empty table"
  | notEmpty true => "expected empty array"
  | unexpectedValue kind => "expected table, found " ++ kind

end ShapeError

/-- Who the client is. -/
structure ClientSection where
  id : String := "languageServerExample"
  name : String := "Language Server Example"
  deriving DecidableEq, Repr

/-- How the server is launched. -/
structure ServerSection where
  module : String := "server/out/server.js"
  runtime : String := "node"
  args : List String := []
  debugArgs : List String := ServerOptions.debugArgs
  deriving DecidableEq, Repr

/-- Which documents and files concern the server, and how long it may take, in milliseconds. -/
structure OptionsSection where
  selector : List DocumentFilter := Selector.default
  patterns : List String := [WatchFilter.defaultPattern]
  handshakePatience : Nat := 10000
  shutdownPatience : Nat := 2000
  deriving DecidableEq, Repr

/-- What becomes of malformed colors. -/
structure HighlightSection where
  policy : Policy := .render
  deriving DecidableEq, Repr

/-- All settings. -/
structure Settings where
  client : ClientSection := {}
  server : ServerSection := {}
  options : OptionsSection := {}
  highlight : HighlightSection := {}
  deriving DecidableEq, Repr

/-- Reading values of one type. -/
abbrev Reader (α : Type) := Value → Except ShapeError α

namespace Reader

/-- A text. -/
def string : Reader String
  | .string s => .ok s
  | v => .error (.wrongType (.ofValue v) "a string")

/-- A natural number. -/
def natural : Reader Nat
  | .integer n =>
    if 0 ≤ n then .ok n.toNat else .error (.wrongValue (.integer n) "u64")
  | v => .error (.wrongType (.ofValue v) "u64")

/-- A list of values, tables of an array among them. -/
def list (item : Reader α) : Reader (List α)
  | .array vs => vs.mapM item
  | .tables vs => vs.mapM item
  | v => .error (.wrongType (.ofValue v) "a sequence")

/-- Whether what comes with a chosen name is empty. -/
def nothing : Reader Unit
  | .table _ entries => if entries.isEmpty then .ok () else .error (.notEmpty false)
  | .tables vs => if vs.isEmpty then .ok () else .error (.notEmpty true)
  | .array vs => if vs.isEmpty then .ok () else .error (.notEmpty true)
  | v => .error (.unexpectedValue v.kindName)

/-- One of some names: a text, or a table whose first entry has the name and nothing in it. -/
def choice (choices : List (String × α)) : Reader α
  | .string s => pick s
  | .table form entries =>
    match entries with
    | [] => .error (if form.inBraces then .notOneEntry false else .emptyTable)
    | (name, v) :: more =>
      if form.inBraces && !more.isEmpty then .error (.notOneEntry true)
      else do
        let a ← pick name
        nothing v
        return a
  | _ => .error .noChoice
where
  /-- The choice of a name. -/
  pick (name : String) : Except ShapeError α :=
    match choices.lookup name with
    | some a => .ok a
    | none => .error (.unknownVariant name (choices.map Prod.fst))

/-- A field of a section: its name, and how a value sets it. -/
abbrev Field (σ : Type) := String × (Value → σ → Except ShapeError σ)

/-- A field that is read as a value of some type and put into the section. -/
def field (name : String) (read : Reader α) (put : α → σ → σ) : Field σ :=
  (name, fun v s => (read v).map fun a => put a s)

/-- The name under which a date offers its text. -/
def datetimeName : String := "$__toml_private_datetime"

/-- The section with the field of a name set. -/
def setField (fields : List (Field σ)) (s : σ) (name : String) (v : Value) : Except ShapeError σ :=
  match fields.lookup name with
  | some put => put v s
  | none => .error (.unknownField name (fields.map Prod.fst))

/-- The section with its first fields set, one for each value. -/
def setFields (s : σ) : List (Field σ) → List Value → Except ShapeError σ
  | f :: fs, v :: vs => do setFields (← f.2 v s) fs vs
  | _, _ => .ok s

/--
A section that starts from a default: a table sets the fields that it names, and an array the first
ones.
-/
def record (typeName : String) (default : σ) (fields : List (Field σ)) : Reader σ
  | .table _ entries => entries.foldlM (fun s e => setField fields s e.1 e.2) default
  | .datetime => setField fields default datetimeName .datetime
  | .array vs => setFields default fields vs
  | .tables vs => setFields default fields vs
  | v => .error (.wrongType (.ofValue v) ("struct " ++ typeName))

end Reader

namespace DocumentFilter

/-- The fields of a filter. -/
def fields : List (Reader.Field DocumentFilter) := [
  Reader.field "scheme" Reader.string fun s f => { f with scheme := some s },
  Reader.field "language" Reader.string fun l f => { f with language := some l }]

/-- A filter; an array has to set both fields. -/
def read : Reader DocumentFilter := fun v => do
  let f ← Reader.record "DocumentFilterSection" ⟨none, none⟩ fields v
  match v with
  | .array vs => complete f vs
  | .tables vs => complete f vs
  | _ => return f
where
  /-- The filter, if an array set both fields. -/
  complete (f : DocumentFilter) (vs : List Value) : Except ShapeError DocumentFilter :=
    if vs.length < 2 then
      .error (.wrongLength vs.length "struct DocumentFilterSection with 2 elements")
    else .ok f

end DocumentFilter

namespace Settings

/-- The section about the client. -/
def readClient : Reader ClientSection :=
  Reader.record "ClientSection" {} [
    Reader.field "id" Reader.string fun x s => { s with id := x },
    Reader.field "name" Reader.string fun x s => { s with name := x }]

/-- The section about the server. -/
def readServer : Reader ServerSection :=
  Reader.record "ServerSection" {} [
    Reader.field "module" Reader.string fun x s => { s with module := x },
    Reader.field "runtime" Reader.string fun x s => { s with runtime := x },
    Reader.field "args" (Reader.list Reader.string) fun x s => { s with args := x },
    Reader.field "debug_exec_args" (Reader.list Reader.string) fun x s => { s with debugArgs := x }]

/-- The section about documents, files and patience. -/
def readOptions : Reader OptionsSection :=
  Reader.record "ClientOptionsSection" {} [
    Reader.field "document_selector" (Reader.list DocumentFilter.read) fun x s => { s with selector := x },
    Reader.field "watch_patterns" (Reader.list Reader.string) fun x s => { s with patterns := x },
    Reader.field "initialize_timeout_ms" Reader.natural fun x s => { s with handshakePatience := x },
    Reader.field "shutdown_timeout_ms" Reader.natural fun x s => { s with shutdownPatience := x }]

/-- The section about highlights. -/
def readHighlight : Reader HighlightSection :=
  Reader.record "HighlightSection" {} [
    Reader.field "malformed_colors" (Reader.choice ([.render, .skip].map fun p => (Policy.name p, p)))
      fun x s => { s with policy := x }]

/-- The settings that a document's table makes. -/
def ofValue : Reader Settings :=
  Reader.record "HighlightConfig" {} [
    Reader.field "client" readClient fun x s => { s with client := x },
    Reader.field "server" readServer fun x s => { s with server := x },
    Reader.field "client_options" readOptions fun x s => { s with options := x },
    Reader.field "highlight" readHighlight fun x s => { s with highlight := x }]

end Settings

/-- Why there are no settings. -/
inductive SettingsError where
  | unreadable (path : String) (cause : IoError)
  /-- The text is not TOML. -/
  | malformed
  | misshapen (cause : ShapeError)
  deriving DecidableEq, Repr

namespace SettingsError

/-- The text of the error. -/
def message : SettingsError → String
  | unreadable path cause => "failed to read config " ++ path ++ ": " ++ cause.message
  | malformed => "TOML parse error: the text is not TOML"
  | misshapen cause => "TOML parse error: " ++ cause.message

end SettingsError

namespace Settings

/-- The settings of a TOML text. -/
def ofText (text : String) : Except SettingsError Settings :=
  match Toml.parse? text with
  | none => .error .malformed
  | some v =>
    match ofValue v with
    | .ok s => .ok s
    | .error e => .error (.misshapen e)

/-- The settings of a TOML file. -/
def load (h : Host) (path : String) : Except SettingsError Settings :=
  match h.files.readText h.directory path with
  | .ok text => ofText text
  | .error e => .error (.unreadable path e)

/-- How the server is launched; its module is looked up in a directory. -/
def serverOptions (s : Settings) (root : String) : ServerOptions :=
  let runtime := Text.trimString s.server.runtime
  let run : Executable :=
    { runtime := if runtime.isEmpty then none else some runtime
      module := Path.join root s.server.module
      args := s.server.args }
  ⟨run, { run with runtimeArgs := s.server.debugArgs }⟩

/-- How the client treats its server. -/
def clientOptions (s : Settings) : Except WatchError ClientOptions := do
  let watched ← WatchFilter.ofPatterns s.options.patterns
  return ⟨s.options.selector, watched, s.options.handshakePatience, s.options.shutdownPatience⟩

end Settings

end ColorMarks
