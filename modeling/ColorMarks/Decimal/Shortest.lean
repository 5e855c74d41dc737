import ColorMarks.Decimal.Double

/-!
# The shortest decimal of a double

Among the decimals that read back as a given double, those with the fewest digits, and of these the
one nearest to the double. A decimal reads back if it lies between the midpoints to the two
neighbouring doubles; the midpoints themselves belong to the double with an even integer part.
-/

namespace ColorMarks.Decimal

/-- An unsigned decimal: `digits * 10 ^ exponent`. -/
structure Scaled where
  digits : Nat
  exponent : Int
  deriving DecidableEq, Repr

/-- The least `k` for which a positive ratio is below `10 ^ k`. -/
def magnitude (num den : Nat) : Int :=
  if den ≤ num then (Nat.toDigits 10 (num / den)).length
  else 1 - ((Nat.toDigits 10 ((den + num - 1) / num - 1)).length : Int)

/-- The same decimal without trailing zeros; the first argument bounds their number. -/
def strip : Nat → Scaled → Scaled
  | 0, d => d
  | n + 1, d =>
    if d.digits % 10 = 0 && d.digits != 0 then strip n ⟨d.digits / 10, d.exponent + 1⟩ else d

/--
The interval of numbers that round to `m * 2 ^ q`, in units of `2 ^ (q - 2)`: from a half unit of the
neighbouring grid below to a half unit above. Below a power of two the grid is twice as fine.
-/
def bounds (m : Nat) (q : Int) : Nat × Nat :=
  (if m = twoTo 52 && q != -1074 then 4 * m - 1 else 4 * m - 2, 4 * m + 2)

/-- Whether `d * 10 ^ k` rounds to `m * 2 ^ q`. -/
def readsBack (m : Nat) (q : Int) (d : Nat) (k : Int) : Bool :=
  let (lo, hi) := bounds m q
  let e := q - 2
  let x := d * tenTo k.toNat * twoTo (-e).toNat
  let unit := tenTo (-k).toNat * twoTo e.toNat
  if m % 2 = 0 then lo * unit ≤ x && x ≤ hi * unit else lo * unit < x && x < hi * unit

/-- The decimal of at most `n` digits that rounds to `m * 2 ^ q` and is nearest to it, if there is one. -/
def ofLength? (m : Nat) (q : Int) (n : Nat) : Option Scaled :=
  let num := m * twoTo q.toNat
  let den := twoTo (-q).toNat
  let k := magnitude num den - n
  let scaledNum := num * tenTo (-k).toNat
  let scaledDen := den * tenTo k.toNat
  let d := scaledNum / scaledDen
  let r := scaledNum % scaledDen
  match readsBack m q d k, readsBack m q (d + 1) k with
  | false, false => none
  | true, false => some ⟨d, k⟩
  | false, true => some ⟨d + 1, k⟩
  | true, true =>
    if 2 * r < scaledDen then some ⟨d, k⟩
    else if scaledDen < 2 * r then some ⟨d + 1, k⟩
    else some ⟨d + d % 2, k⟩

/-- The first length, of those from `n` on, that has a decimal; the first argument bounds the search. -/
def firstLength (m : Nat) (q : Int) : Nat → Nat → Scaled
  | 0, _ => ⟨m * twoTo q.toNat, 0⟩
  | fuel + 1, n =>
    match ofLength? m q n with
    | some d => strip 20 d
    | none => firstLength m q fuel (n + 1)

/-- The shortest decimal of the absolute value of a finite double; seventeen digits always suffice. -/
def shortest? (d : Double) : Option Scaled :=
  d.parts?.map fun (m, q) => if m = 0 then ⟨0, 0⟩ else firstLength m q 17 1

end ColorMarks.Decimal
