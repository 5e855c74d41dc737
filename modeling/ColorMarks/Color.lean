import ColorMarks.Text.Blank
import ColorMarks.Text.Integer
import ColorMarks.Text.Split

/-!
# Color directives

A message that begins with `Color:` asks for a color; the text after it is the key under which
locations are gathered. Three integers separated by commas name a color, each cut off at 0 and 255.
Any other key is kept, with a fill that stays unresolved.
-/

namespace ColorMarks

/-- A color of three channels. -/
structure Rgb where
  r : UInt8
  g : UInt8
  b : UInt8
  deriving DecidableEq, Repr

/-- What a marked range is filled with. -/
inductive Fill where
  | rgba (rgb : Rgb)
  | unresolved (raw : String)
  deriving DecidableEq, Repr

/-- The fill as a color of a style sheet; an unresolved one has no channels. -/
def Fill.css : Fill → String
  | rgba c => s!"rgba({c.r.toNat}, {c.g.toNat}, {c.b.toNat}, 0.4)"
  | unresolved _ => "rgba(NaN, NaN, NaN, 0.4)"

/-- A request for a color. -/
inductive Directive where
  | parsed (key : String) (rgb : Rgb)
  | unparsed (key : String)
  deriving DecidableEq, Repr

/-- What becomes of directives whose key names no color: they are marked all the same, or left out. -/
inductive Policy where
  | render
  | skip
  deriving DecidableEq, Repr

namespace Directive

/-- The key under which locations are gathered. -/
def key : Directive → String
  | parsed key _ => key
  | unparsed key => key

/-- The color, if the key names one. -/
def rgb? : Directive → Option Rgb
  | parsed _ rgb => some rgb
  | unparsed _ => none

/-- Whether the key names a color. -/
def isParsed : Directive → Bool
  | parsed .. => true
  | unparsed _ => false

/-- The fill of the directive's locations. -/
def fill : Directive → Fill
  | parsed _ rgb => .rgba rgb
  | unparsed key => .unresolved key

/-- The text that a directive begins with. -/
def lead : List Char := ['C', 'o', 'l', 'o', 'r', ':']

/-- An integer cut off at 0 and 255. -/
def clamp (n : Int) : UInt8 := UInt8.ofNat (min n.toNat 255)

/-- One channel: a signed 64-bit integer, with blanks around it. -/
def channel? (part : List Char) : Option UInt8 := (Text.int64? (Text.trim part)).map clamp

/-- The color that a key names. -/
def color? (key : List Char) : Option Rgb :=
  match (Text.pieces ',' key).mapM channel? with
  | some [r, g, b] => some ⟨r, g, b⟩
  | _ => none

/-- The directive of a key. -/
def ofKey (key : String) : Directive :=
  match color? key.toList with
  | some rgb => parsed key rgb
  | none => unparsed key

/-- The directive that a message carries, if it is one. -/
def ofMessage? (message : String) : Option Directive :=
  (Text.after? lead message.toList).map fun key => ofKey (String.ofList key)

/-- Whether a policy lets the directive through. -/
def admitted (policy : Policy) (d : Directive) : Bool := d.isParsed || policy == .render

@[simp] theorem key_ofKey (key : String) : (ofKey key).key = key := by
  unfold ofKey
  split <;> rfl

end Directive

end ColorMarks
