import ColorMarks.Decimal.Shortest

/-!
# Doubles as text

Two layouts of the shortest decimal. In JSON a number with a point position between -4 and 16 is
written out and all others have an exponent with a sign; in messages every number is written out.
-/

namespace ColorMarks.Decimal

/-- The digits of a number in base ten. -/
def digitsOf (n : Nat) : List Char := Nat.toDigits 10 n

/-- `n` zeros. -/
def zeros (n : Nat) : List Char := List.replicate n '0'

/-- A decimal written out, with a point and at least one digit on either side of it. -/
def positional (d : Scaled) : List Char :=
  let ds := digitsOf d.digits
  let point : Int := ds.length + d.exponent
  if 0 ≤ d.exponent then ds ++ zeros d.exponent.toNat ++ ['.', '0']
  else if 0 < point then ds.take point.toNat ++ '.' :: ds.drop point.toNat
  else ['0', '.'] ++ zeros (-point).toNat ++ ds

/-- A decimal with one digit before the point and a signed exponent. -/
def scientific (d : Scaled) : List Char :=
  let ds := digitsOf d.digits
  let e : Int := ds.length + d.exponent - 1
  ds.take 1 ++ (if ds.length = 1 then [] else '.' :: ds.drop 1) ++
    ['e', if e < 0 then '-' else '+'] ++ digitsOf e.natAbs

/-- A finite double in JSON. -/
def jsonText (d : Double) : List Char :=
  (if d.isNegative then ['-'] else []) ++
  match shortest? d with
  | none => []
  | some s =>
    let point : Int := (digitsOf s.digits).length + s.exponent
    if s.digits = 0 then ['0', '.', '0']
    else if -5 < point && point ≤ 16 then positional s
    else scientific s

/-- A double in a message. -/
def messageText (d : Double) : List Char :=
  match shortest? d with
  | some s => (if d.isNegative then ['-'] else []) ++ positional s
  | none =>
    if d.fractionField != 0 then ['N', 'a', 'N']
    else (if d.isNegative then ['-'] else []) ++ ['i', 'n', 'f']

end ColorMarks.Decimal
