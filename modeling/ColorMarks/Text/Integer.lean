import ColorMarks.Power

/-!
# Integers in decimal

Reading a whole text as an integer: at most one sign, then one or more ASCII digits, with a value
inside given bounds. Nothing else is accepted, no blank and no separator.
-/

namespace ColorMarks.Text

/-- The number that a list of decimal digits denotes. -/
def digitsValue (ds : List Char) : Nat :=
  ds.foldl (fun n d => 10 * n + (d.toNat - '0'.toNat)) 0

/-- The value of a text of one or more digits. -/
def digits? (cs : List Char) : Option Nat :=
  if !cs.isEmpty && cs.all Char.isDigit then some (digitsValue cs) else none

/-- An unsigned integer of at most `limit`; a leading plus sign is accepted. -/
def nat? (limit : Nat) (cs : List Char) : Option Nat :=
  (digits? (match cs with
    | '+' :: ds => ds
    | ds => ds)).filter (· ≤ limit)

/-- A signed integer between `lo` and `hi`; a leading sign is accepted. -/
def int? (lo hi : Int) (cs : List Char) : Option Int :=
  ((match cs with
    | '+' :: ds => (digits? ds).map Int.ofNat
    | '-' :: ds => (digits? ds).map fun n => -Int.ofNat n
    | ds => (digits? ds).map Int.ofNat) : Option Int).filter fun n => lo ≤ n && n ≤ hi

/-- The bounds of a 64-bit signed integer. -/
def int64? (cs : List Char) : Option Int := int? (-(twoTo 63 : Int)) (twoTo 63 - 1) cs

/-- The bounds of a 64-bit unsigned integer. -/
def nat64? (cs : List Char) : Option Nat := nat? (twoTo 64 - 1) cs

/-- ASCII letters compared without regard to case, all else exactly. -/
def equalIgnoringCase (a b : String) : Bool := a.toList.map Char.toLower == b.toList.map Char.toLower

end ColorMarks.Text
