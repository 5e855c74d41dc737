import ColorMarks.Color
import ColorMarks.Json.Record

/-!
# Decoration styles

A style is a fill under a number that the window gave out. Styles, their options and fills have a
record form in JSON; a fill is tagged by its member `kind`, which may stand anywhere.
-/

namespace ColorMarks

open Json (fields? required)

/-- What a style is made from. -/
structure StyleOptions where
  background : Fill
  deriving DecidableEq, Repr

/-- A style that a window gave out. -/
structure Style where
  id : Nat
  options : StyleOptions
  deriving DecidableEq, Repr

namespace Rgb

def toJson (c : Rgb) : Json :=
  .object [("r", .nat c.r.toNat), ("g", .nat c.g.toNat), ("b", .nat c.b.toNat)]

def ofJson? (v : Json) : Option Rgb := do
  match ← fields? ["r", "g", "b"] v with
  | [r, g, b] =>
    return ⟨UInt8.ofNat (← required (Json.below? (twoTo 8)) r),
      UInt8.ofNat (← required (Json.below? (twoTo 8)) g),
      UInt8.ofNat (← required (Json.below? (twoTo 8)) b)⟩
  | _ => none

end Rgb

namespace Fill

def toJson : Fill → Json
  | rgba c =>
    .object [("kind", .string "rgba"), ("r", .nat c.r.toNat), ("g", .nat c.g.toNat),
      ("b", .nat c.b.toNat)]
  | unresolved raw => .object [("kind", .string "unresolved"), ("raw", .string raw)]

/-- The fill of this kind, read from the rest of its record. -/
def ofKind? (kind : String) (v : Json) : Option Fill :=
  if kind = "rgba" then (Rgb.ofJson? v).map rgba
  else if kind = "unresolved" then do
    match ← fields? ["raw"] v with
    | [raw] => return unresolved (← required Json.asString? raw)
    | _ => none
  else none

/-- The tag is the only member `kind` of an object, or the first item of an array. -/
def ofJson? : Json → Option Fill
  | .object members => do
    let tag ← Json.member? members "kind"
    ofKind? (← required Json.asString? tag) (.object (members.filter fun m => m.1 != "kind"))
  | .array (.string kind :: items) => ofKind? kind (.array items)
  | _ => none

end Fill

namespace Policy

/-- The name of a policy. -/
def name : Policy → String
  | render => "render"
  | skip => "skip"

def toJson (p : Policy) : Json := .string p.name

def ofJson? : Json → Option Policy :=
  Json.choice? ([render, skip].map fun p => (p.name, p))

end Policy

namespace StyleOptions

def toJson (o : StyleOptions) : Json := .object [("background_color", o.background.toJson)]

def ofJson? (v : Json) : Option StyleOptions := do
  match ← fields? ["background_color"] v with
  | [background] => return ⟨← required Fill.ofJson? background⟩
  | _ => none

end StyleOptions

namespace Style

/-- The number of a style: a 64-bit integer, or an array of it alone. -/
def idOfJson? : Json → Option Nat
  | .array [v] => Json.below? (twoTo 64) v
  | v => Json.below? (twoTo 64) v

def toJson (s : Style) : Json :=
  .object [("id", .nat s.id), ("options", s.options.toJson)]

def ofJson? (v : Json) : Option Style := do
  match ← fields? ["id", "options"] v with
  | [id, options] => return ⟨← required idOfJson? id, ← required StyleOptions.ofJson? options⟩
  | _ => none

end Style

end ColorMarks
