import ColorMarks.Json.Basic

/-!
# Records in JSON

A record is an object with a member for each field; other members are ignored, and a field given
twice is refused. It may also be an array of all fields in their order. A choice among names is a
string, or an object whose only member has the name and the value `null`.
-/

namespace ColorMarks.Json

/-- The member of a name, if there is at most one: `none` for a repeated name. -/
def member? (members : List (String × Json)) (name : String) : Option (Option Json) :=
  if (members.filter fun m => m.1 == name).length ≤ 1 then some (members.lookup name) else none

/-- The values of the named fields, in the order of the names. -/
def fields? (names : List String) : Json → Option (List (Option Json))
  | object members => names.mapM (member? members)
  | array items => if items.length = names.length then some (items.map some) else none
  | _ => none

/-- A field that has to be there. -/
def required (read : Json → Option α) (field : Option Json) : Option α := field.bind read

/-- A field that may be missing or `null`. -/
def optional (read : Json → Option α) : Option Json → Option (Option α)
  | none => some none
  | some null => some none
  | some v => (read v).map some

/-- A natural number below a bound. -/
def below? (bound : Nat) : Json → Option Nat
  | integer n => if 0 ≤ n ∧ n < bound then some n.toNat else none
  | _ => none

/-- A list of values. -/
def listOf? (read : Json → Option α) : Json → Option (List α)
  | array items => items.mapM read
  | _ => none

/-- A choice among names. -/
def choice? (choices : List (String × α)) : Json → Option α
  | string s => choices.lookup s
  | object [(s, null)] => choices.lookup s
  | _ => none

end ColorMarks.Json
