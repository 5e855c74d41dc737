import ColorMarks.Json.Basic
import ColorMarks.Text.Integer
import ColorMarks.Text.Split
import ColorMarks.Text.Utf8

/-!
# Reading JSON

`Json.read?` reads a whole text as one JSON value, with members as they are written, and refuses a
text that nests containers too deeply. Each reading function takes the characters that are left and
gives what it read together with the characters after it.
-/

namespace ColorMarks.Json

open Text (digitsValue hexDigit? after?)

/-- The characters that may stand between the parts of a JSON text. -/
def isGap (c : Char) : Bool := c == ' ' || c == '\t' || c == '\n' || c == '\r'

/-- The text from its first character that is no gap. -/
def skipGap (cs : List Char) : List Char := cs.dropWhile isGap

/-- The number that four hexadecimal digits denote. -/
def hexUnit? (a b c d : Char) : Option Nat := do
  return 4096 * (← hexDigit? a) + 256 * (← hexDigit? b) + 16 * (← hexDigit? c) + (← hexDigit? d)

/-- The character that a backslash and a letter stand for. -/
def letterEscape? : Char → Option Char
  | '"' => some '"'
  | '\\' => some '\\'
  | '/' => some '/'
  | 'b' => some '\x08'
  | 'f' => some '\x0c'
  | 'n' => some '\n'
  | 'r' => some '\r'
  | 't' => some '\t'
  | _ => none

/--
The rest of a string after its opening quote; `acc` holds what came before, last character first.
A code unit of a surrogate pair counts only together with its partner.
-/
def readString (acc : List Char) : List Char → Option (List Char × List Char)
  | [] => none
  | '"' :: r => some (acc.reverse, r)
  | '\\' :: 'u' :: a :: b :: c :: d :: r => do
    let unit ← hexUnit? a b c d
    if 0xD800 ≤ unit ∧ unit < 0xDC00 then
      match r with
      | '\\' :: 'u' :: e :: f :: g :: h :: r' =>
        let low ← hexUnit? e f g h
        if 0xDC00 ≤ low ∧ low < 0xE000 then
          readString (Char.ofNat (0x10000 + (unit - 0xD800) * 1024 + (low - 0xDC00)) :: acc) r'
        else none
      | _ => none
    else if 0xDC00 ≤ unit ∧ unit < 0xE000 then none
    else readString (Char.ofNat unit :: acc) r
  | '\\' :: c :: r => do
    let e ← letterEscape? c
    readString (e :: acc) r
  | c :: r => if c.toNat < 0x20 then none else readString (c :: acc) r

/-- A number as it is written. -/
structure Numeral where
  negative : Bool
  integral : List Char
  /-- The digits after the point, if there is a point. -/
  fraction : Option (List Char)
  /-- The power of ten after the mark `e`, if there is one. -/
  exponent : Option Int
  deriving DecidableEq, Repr

namespace Numeral

/-- The digits of the integer part: one zero, or digits that begin with another one. -/
def readIntegral? : List Char → Option (List Char × List Char)
  | '0' :: r => if (r.head?.map Char.isDigit).getD false then none else some (['0'], r)
  | cs =>
    let ds := cs.takeWhile Char.isDigit
    if ds.isEmpty then none else some (ds, cs.dropWhile Char.isDigit)

/-- One or more digits. -/
def readDigits? (cs : List Char) : Option (List Char × List Char) :=
  let ds := cs.takeWhile Char.isDigit
  if ds.isEmpty then none else some (ds, cs.dropWhile Char.isDigit)

/-- A point and the digits after it, if the text begins with a point. -/
def readFraction? : List Char → Option (Option (List Char) × List Char)
  | '.' :: r => (readDigits? r).map fun (ds, r) => (some ds, r)
  | cs => some (none, cs)

/-- The digits of an exponent, with their sign. -/
def readPower? : List Char → Option (Int × List Char)
  | '-' :: r => (readDigits? r).map fun (ds, r) => (-(digitsValue ds : Int), r)
  | '+' :: r => (readDigits? r).map fun (ds, r) => ((digitsValue ds : Int), r)
  | r => (readDigits? r).map fun (ds, r) => ((digitsValue ds : Int), r)

/-- An exponent, if the text begins with its mark. -/
def readExponent? : List Char → Option (Option Int × List Char)
  | c :: r =>
    if c = 'e' ∨ c = 'E' then (readPower? r).map fun (k, r) => (some k, r) else some (none, c :: r)
  | [] => some (none, [])

/-- A number at the beginning of a text. -/
def read? (cs : List Char) : Option (Numeral × List Char) := do
  let (negative, cs) := match cs with
    | '-' :: r => (true, r)
    | r => (false, r)
  let (integral, cs) ← readIntegral? cs
  let (fraction, cs) ← readFraction? cs
  let (exponent, cs) ← readExponent? cs
  return (⟨negative, integral, fraction, exponent⟩, cs)

/-- A number extended by digits as long as it stays below `2 ^ 64`, and the digits left over. -/
def absorb : Nat → List Char → Nat × List Char
  | n, [] => (n, [])
  | n, d :: r =>
    let m := 10 * n + (d.toNat - '0'.toNat)
    if m < twoTo 64 then absorb m r else (n, d :: r)

/--
The value of a number. Without point and exponent it is an integer if 64 bits hold it, and negative
zero is a double. A significand keeps only the digits that fit 64 bits; integer digits left over
count as a power of ten, and fraction digits left over are dropped. Too large a double is refused.
-/
def toJson? (n : Numeral) : Option Json :=
  let (whole, left) := absorb 0 n.integral
  match n.fraction, n.exponent, left with
  | none, none, [] =>
    if n.negative then
      if 0 < whole ∧ whole ≤ twoTo 63 then some (integer (-(whole : Int)))
      else (Double.ofSignificand? true whole 0).map double
    else some (integer whole)
  | fraction, exponent, left =>
    let digits := fraction.getD []
    let (significand, dropped) := absorb whole digits
    let places := digits.length - dropped.length
    (Double.ofSignificand? n.negative significand
      ((left.length : Int) - places + exponent.getD 0)).map double

end Numeral

/-- A value that is no container. -/
def readScalar? (cs : List Char) : Option (Json × List Char) :=
  match cs with
  | '"' :: r => (readString [] r).map fun (s, r) => (string (String.ofList s), r)
  | 'n' :: _ => (after? ['n', 'u', 'l', 'l'] cs).map fun r => (null, r)
  | 't' :: _ => (after? ['t', 'r', 'u', 'e'] cs).map fun r => (bool true, r)
  | 'f' :: _ => (after? ['f', 'a', 'l', 's', 'e'] cs).map fun r => (bool false, r)
  | _ => do
    let (n, r) ← Numeral.read? cs
    let v ← n.toJson?
    return (v, r)

/--
One or more items, separated by commas, up to the closing character. The first argument bounds the
number of items.
-/
def readItems (closing : Char) (item : List Char → Option (α × List Char)) :
    Nat → List Char → Option (List α × List Char)
  | 0, _ => none
  | fuel + 1, cs => do
    let (a, cs) ← item (skipGap cs)
    match skipGap cs with
    | c :: r =>
      if c = ',' then
        let (as, r) ← readItems closing item fuel r
        return (a :: as, r)
      else if c = closing then return ([a], r)
      else none
    | [] => none

/-- Any number of items, separated by commas, up to the closing character. -/
def readList (closing : Char) (item : List Char → Option (α × List Char)) (cs : List Char) :
    Option (List α × List Char) :=
  match skipGap cs with
  | c :: r => if c = closing then some ([], r) else readItems closing item (cs.length + 1) (c :: r)
  | [] => none

/-- A name, a colon and a value. -/
def readMember (value : List Char → Option (Json × List Char)) :
    List Char → Option ((String × Json) × List Char)
  | '"' :: cs => do
    let (name, cs) ← readString [] cs
    match skipGap cs with
    | ':' :: r =>
      let (v, r) ← value (skipGap r)
      return ((String.ofList name, v), r)
    | _ => none
  | _ => none

/-- A value in which at most `depth` containers contain each other. -/
def readValue : Nat → List Char → Option (Json × List Char)
  | 0, cs =>
    match cs with
    | '[' :: _ => none
    | '\x7b' :: _ => none
    | cs => readScalar? cs
  | depth + 1, cs =>
    match cs with
    | '[' :: r => (readList ']' (readValue depth) r).map fun (items, r) => (array items, r)
    | '\x7b' :: r =>
      (readList '\x7d' (readMember (readValue depth)) r).map fun (members, r) => (object members, r)
    | cs => readScalar? cs

/-- The number of containers that may contain each other in a text from outside. -/
def maxDepth : Nat := 127

/-- A whole text as one value of at most this depth, members as written. -/
def readWithin? (depth : Nat) (cs : List Char) : Option Json := do
  let (v, r) ← readValue depth (skipGap cs)
  if (skipGap r).isEmpty then return v else none

/-- A whole text as one value, members as written. -/
def read? (s : String) : Option Json := readWithin? maxDepth s.toList

/-- A whole text as one canonical value. -/
def parse? (s : String) : Option Json := (read? s).map canonical

end ColorMarks.Json
