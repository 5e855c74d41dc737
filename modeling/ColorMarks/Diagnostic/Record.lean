import ColorMarks.Diagnostic.Basic
import ColorMarks.Json.Record

/-!
# Diagnostics as JSON records

Each type of the model has a record form: `toJson` writes every field in the order of declaration,
and `ofJson?` reads it back.
-/

namespace ColorMarks

open Json (fields? required optional)

namespace Position

def toJson (p : Position) : Json :=
  .object [("line", .nat p.line.toNat), ("character", .nat p.character.toNat)]

def ofJson? (v : Json) : Option Position := do
  match ← fields? ["line", "character"] v with
  | [line, character] =>
    return ⟨UInt32.ofNat (← required (Json.below? (twoTo 32)) line),
      UInt32.ofNat (← required (Json.below? (twoTo 32)) character)⟩
  | _ => none

end Position

namespace Range

def toJson (r : Range) : Json :=
  .object [("start", r.start.toJson), ("end", r.end.toJson)]

def ofJson? (v : Json) : Option Range := do
  match ← fields? ["start", "end"] v with
  | [start, stop] =>
    return ⟨← required Position.ofJson? start, ← required Position.ofJson? stop⟩
  | _ => none

end Range

namespace Location

def toJson (l : Location) : Json :=
  .object [("uri", .string l.uri), ("range", l.range.toJson)]

def ofJson? (v : Json) : Option Location := do
  match ← fields? ["uri", "range"] v with
  | [uri, range] => return ⟨← required Json.asString? uri, ← required Range.ofJson? range⟩
  | _ => none

end Location

namespace Severity

def toJson (s : Severity) : Json := .string s.name

def ofJson? : Json → Option Severity :=
  Json.choice? ([error, warning, information, hint].map fun s => (s.name, s))

end Severity

namespace Related

def toJson (r : Related) : Json :=
  .object [("location", r.location.toJson), ("message", .string r.message)]

def ofJson? (v : Json) : Option Related := do
  match ← fields? ["location", "message"] v with
  | [location, message] =>
    return ⟨← required Location.ofJson? location, ← required Json.asString? message⟩
  | _ => none

end Related

namespace Diagnostic

def toJson (d : Diagnostic) : Json :=
  .object [("range", d.range.toJson), ("severity", .ofOption Severity.toJson d.severity),
    ("code", .ofOption .string d.code), ("source", .ofOption .string d.source),
    ("message", .string d.message), ("related_information", .list Related.toJson d.related)]

def ofJson? (v : Json) : Option Diagnostic := do
  match ← fields? ["range", "severity", "code", "source", "message", "related_information"] v with
  | [range, severity, code, source, message, related] =>
    return {
      range := ← required Range.ofJson? range
      severity := ← optional Severity.ofJson? severity
      code := ← optional Json.asString? code
      source := ← optional Json.asString? source
      message := ← required Json.asString? message
      related := ← required (Json.listOf? Related.ofJson?) related }
  | _ => none

end Diagnostic

end ColorMarks
