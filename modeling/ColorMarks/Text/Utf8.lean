/-!
# Texts as octets

The octets of a text in UTF-8, and the text of a list of octets that is valid UTF-8.
-/

namespace ColorMarks.Text

/-- The UTF-8 octets of a text. -/
def octets (s : String) : List UInt8 := s.toUTF8.toList

/-- The text with these octets, if they are valid UTF-8. -/
def ofOctets? (bs : List UInt8) : Option String := String.fromUTF8? (ByteArray.mk bs.toArray)

/-- The number that a hexadecimal digit denotes, of either case. -/
def hexDigit? (c : Char) : Option Nat :=
  if c.isDigit then some (c.toNat - '0'.toNat)
  else if 'a' ≤ c && c ≤ 'f' then some (c.toNat - 'a'.toNat + 10)
  else if 'A' ≤ c && c ≤ 'F' then some (c.toNat - 'A'.toNat + 10)
  else none

/-- The octets written as pairs of hexadecimal digits. -/
def hexOctets? : List Char → Option (List UInt8)
  | [] => some []
  | a :: b :: r => do
    let hi ← hexDigit? a
    let lo ← hexDigit? b
    let rest ← hexOctets? r
    return UInt8.ofNat (16 * hi + lo) :: rest
  | [_] => none

/-- The digit for a number below sixteen, in lower case. -/
def hexChar (n : Nat) : Char := if n < 10 then Char.ofNat (48 + n) else Char.ofNat (87 + n)

/-- A number in hexadecimal, in lower case, without leading zeros. -/
def hex (n : Nat) : List Char := Nat.toDigits 16 n

end ColorMarks.Text
