import ColorMarks.Decimal.Double
import ColorMarks.Ordered

/-!
# JSON values

A JSON value with its members as they were written. Two numbers are kept apart: an integer of at
most 64 bits, and a double. `Json.canonical` puts the members of every object in ascending order of
their names and keeps the last of several members of one name; the values that messages carry are
canonical.
-/

namespace ColorMarks

/-- A JSON value. -/
inductive Json where
  | null
  | bool (b : Bool)
  | integer (n : Int)
  | double (d : Double)
  | string (s : String)
  | array (items : List Json)
  | object (members : List (String × Json))
  deriving Repr, Inhabited

namespace Json

/-- The member of this name, if the value is an object that has one. -/
def get? (v : Json) (name : String) : Option Json :=
  match v with
  | object members => members.lookup name
  | _ => none

/-- The text of a string. -/
def asString? : Json → Option String
  | string s => some s
  | _ => none

/-- An integer from 0 to `2 ^ 64 - 1`. -/
def asNat64? : Json → Option Nat
  | integer n => if 0 ≤ n ∧ n < twoTo 64 then some n.toNat else none
  | _ => none

theorem asNat64?_eq_some_iff {v : Json} {n : Nat} :
    v.asNat64? = some n ↔ v = integer n ∧ n < twoTo 64 := by
  cases v with
  | integer k =>
    rw [asNat64?, Option.ite_none_right_eq_some, Option.some.injEq, integer.injEq]
    omega
  | _ => simp [asNat64?]

theorem bind_asNat64?_eq_some_iff {v : Option Json} {n : Nat} :
    v.bind asNat64? = some n ↔ v = some (integer n) ∧ n < twoTo 64 := by
  rw [Option.bind_eq_some_iff]
  constructor
  · rintro ⟨_, rfl, hn⟩
    obtain ⟨rfl, hlt⟩ := asNat64?_eq_some_iff.1 hn
    exact ⟨rfl, hlt⟩
  · rintro ⟨rfl, hlt⟩
    exact ⟨_, rfl, asNat64?_eq_some_iff.2 ⟨rfl, hlt⟩⟩

/-- An integer from `-2 ^ 63` to `2 ^ 63 - 1`. -/
def asInt64? : Json → Option Int
  | integer n => if -(twoTo 63 : Int) ≤ n ∧ n < twoTo 63 then some n else none
  | _ => none

/-- The items of an array. -/
def asArray? : Json → Option (List Json)
  | array items => some items
  | _ => none

/-- Whether the value is `null`. -/
def isNull : Json → Bool
  | null => true
  | _ => false

/-- A text, or `null` for none. -/
def ofOption (f : α → Json) : Option α → Json
  | some a => f a
  | none => null

/-- A natural number as a JSON integer. -/
def nat (n : Nat) : Json := integer n

/-- A list of values as an array. -/
def list (f : α → Json) (xs : List α) : Json := array (xs.map f)

mutual

/-- The value with the members of every object sorted, the last of each name kept. -/
def canonical : Json → Json
  | array items => array (canonicalItems items)
  | object members => object (canonicalMembers members [])
  | v => v

/-- Every item made canonical. -/
def canonicalItems : List Json → List Json
  | [] => []
  | v :: r => v.canonical :: canonicalItems r

/-- The members made canonical and put one by one into a sorted list. -/
def canonicalMembers : List (String × Json) → List (String × Json) → List (String × Json)
  | [], sorted => sorted
  | (n, v) :: r, sorted => canonicalMembers r (Ordered.insert n v.canonical sorted)

end

mutual

/-- Whether two values are the same, members in the same order. -/
def same : Json → Json → Bool
  | null, null => true
  | bool a, bool b => a == b
  | integer a, integer b => a == b
  | double a, double b => a == b
  | string a, string b => a == b
  | array xs, array ys => sameItems xs ys
  | object xs, object ys => sameMembers xs ys
  | _, _ => false

/-- `same` for each pair of items. -/
def sameItems : List Json → List Json → Bool
  | [], [] => true
  | x :: xs, y :: ys => same x y && sameItems xs ys
  | _, _ => false

/-- `same` for each pair of members, and the same names. -/
def sameMembers : List (String × Json) → List (String × Json) → Bool
  | [], [] => true
  | (m, x) :: xs, (n, y) :: ys => m == n && same x y && sameMembers xs ys
  | _, _ => false

end

end Json

end ColorMarks
