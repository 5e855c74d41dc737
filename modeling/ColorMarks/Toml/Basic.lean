import ColorMarks.Decimal.Double

/-!
# TOML values

The values of a TOML document. Tables keep the order in which their entries were written.
-/

namespace ColorMarks.Toml

/-- How a table came to be. -/
structure TableForm where
  /-- Written in braces. -/
  inBraces : Bool := false
  /-- Made only because a longer name leads through it. -/
  implicit : Bool := false
  /-- Made by a name with dots before an equals sign. -/
  dotted : Bool := false
  deriving DecidableEq, Repr

/-- A TOML value. -/
inductive Value where
  | string (s : String)
  | integer (n : Int)
  | float (d : Double)
  | boolean (b : Bool)
  | datetime
  | array (items : List Value)
  /-- The tables of a name in double brackets. -/
  | tables (items : List Value)
  | table (form : TableForm) (entries : List (String × Value))
  deriving Repr, Inhabited

/-- The entries of a table. -/
abbrev Entries := List (String × Value)

/-- The entries with the value of a name replaced, in its place. -/
def replaceEntry (name : String) (v : Value) : Entries → Entries
  | [] => []
  | (n, w) :: r => if n = name then (n, v) :: r else (n, w) :: replaceEntry name v r

namespace Value

/-- The kind of a value in words. -/
def kindName : Value → String
  | string _ => "string"
  | integer _ => "integer"
  | float _ => "float"
  | boolean _ => "boolean"
  | datetime => "datetime"
  | array _ => "array"
  | tables _ => "array of tables"
  | table form _ => if form.inBraces then "inline table" else "table"

end Value

end ColorMarks.Toml
