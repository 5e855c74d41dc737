import ColorMarks.Power

/-!
# Double-precision numbers

A double is its 64 bits. A finite double stands for an integer times a power of two (`parts?`), and
every ratio of natural numbers has a nearest double (`nearest?`), ties going to the even neighbour.
All arithmetic is exact, on natural numbers.
-/

namespace ColorMarks

/-- A number in the 64-bit binary floating-point format: sign, eleven bits of exponent, fraction. -/
structure Double where
  bits : UInt64
  deriving DecidableEq, Repr, Inhabited

namespace Double

/-- The sign bit. -/
def isNegative (d : Double) : Bool := twoTo 63 ≤ d.bits.toNat

/-- The eleven bits of the biased exponent. -/
def exponentField (d : Double) : Nat := d.bits.toNat / twoTo 52 % twoTo 11

/-- The 52 bits of the fraction. -/
def fractionField (d : Double) : Nat := d.bits.toNat % twoTo 52

/-- The double with these fields. -/
def ofFields (negative : Bool) (exponent fraction : Nat) : Double :=
  ⟨UInt64.ofNat ((if negative then twoTo 63 else 0) + exponent * twoTo 52 + fraction)⟩

/-- Zero of either sign. -/
def zero (negative : Bool) : Double := ofFields negative 0 0

/-- Infinity of either sign. -/
def infinity (negative : Bool) : Double := ofFields negative 2047 0

/-- A double that is not a number. -/
def notANumber (negative : Bool) : Double := ofFields negative 2047 (twoTo 51)

/-- Neither an infinity nor a not-a-number. -/
def isFinite (d : Double) : Bool := d.exponentField != 2047

/-- The pair `(m, q)` for a finite double of absolute value `m * 2 ^ q`. -/
def parts? (d : Double) : Option (Nat × Int) :=
  if d.exponentField = 2047 then none
  else if d.exponentField = 0 then some (d.fractionField, -1074)
  else some (twoTo 52 + d.fractionField, (d.exponentField : Int) - 1075)

/-- The absolute value of a finite double as a ratio. -/
def ratio? (d : Double) : Option (Nat × Nat) :=
  d.parts?.map fun (m, q) => (m * twoTo q.toNat, twoTo (-q).toNat)

/-- The integer nearest to a ratio, an exact half going to the even neighbour. -/
def roundHalfEven (num den : Nat) : Nat :=
  let q := num / den
  let r := num % den
  if 2 * r < den then q
  else if den < 2 * r then q + 1
  else q + q % 2

/-- The exponent `e` for which a positive ratio lies between `2 ^ 52 * 2 ^ e` and `2 ^ 53 * 2 ^ e`. -/
def scaleOf (num den : Nat) : Int :=
  let e : Int := (Nat.log2 num : Int) - (Nat.log2 den : Int) - 52
  if num * twoTo (-e).toNat < twoTo 52 * (den * twoTo e.toNat) then e - 1 else e

/-- The double nearest to a ratio, unless it is too large for any. -/
def nearest? (negative : Bool) (num den : Nat) : Option Double :=
  if num = 0 then some (zero negative)
  else
    let e := max (scaleOf num den) (-1074)
    let m := roundHalfEven (num * twoTo (-e).toNat) (den * twoTo e.toNat)
    if m < twoTo 52 then some (ofFields negative 0 m)
    else
      let (m, e) := if m = twoTo 53 then (twoTo 52, e + 1) else (m, e)
      if e + 1075 < 2047 then some (ofFields negative (e + 1075).toNat (m - twoTo 52)) else none

/-- The product of two finite absolute values, rounded once. -/
def times? (a b : Double) : Option Double := do
  let (n, d) ← a.ratio?
  let (n', d') ← b.ratio?
  nearest? false (n * n') (d * d')

/-- The quotient of two finite absolute values, rounded once. -/
def over? (a b : Double) : Option Double := do
  let (n, d) ← a.ratio?
  let (n', d') ← b.ratio?
  nearest? false (n * d') (d * n')

/-- The double nearest to a power of ten up to `10 ^ 308`. -/
def powerOfTen (k : Nat) : Double := (nearest? false (tenTo k) 1).getD (zero false)

/--
A double scaled by a power of ten, in steps of at most 308 places: multiplied by the nearest double
of the power, or divided by it. A value that leaves the range upwards has no result.
-/
def scaled? : Nat → Double → Int → Option Double
  | 0, _, _ => some (zero false)
  | steps + 1, f, k =>
    if k.natAbs ≤ 308 then
      if 0 ≤ k then f.times? (powerOfTen k.natAbs) else f.over? (powerOfTen k.natAbs)
    else if f = zero false then some f
    else if 0 ≤ k then none
    else (f.over? (powerOfTen 308)).bind fun f => scaled? steps f (k + 308)

/--
The double for `significand * 10 ^ k`: the significand is rounded first and scaled afterwards, so the
result may be the neighbour of the nearest double. Three steps down take any significand of 64 bits
to zero.
-/
def ofSignificand? (negative : Bool) (significand : Nat) (k : Int) : Option Double := do
  let f ← nearest? false significand 1
  let f ← scaled? 4 f k
  return ofFields negative f.exponentField f.fractionField

/-- The double nearest to `digits * 10 ^ k`, rounded once; too large a value gives infinity. -/
def ofDecimal (negative : Bool) (digits : Nat) (k : Int) : Double :=
  if digits = 0 then zero negative
  else
    let places := (Nat.toDigits 10 digits).length
    if 310 < (places : Int) + k then infinity negative
    else if (places : Int) + k < -330 then zero negative
    else (nearest? negative (digits * tenTo k.toNat) (tenTo (-k).toNat)).getD (infinity negative)

end Double

end ColorMarks
