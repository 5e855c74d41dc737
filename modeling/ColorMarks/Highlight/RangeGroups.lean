import ColorMarks.Diagnostic.Basic

/-!
# Range groups

The locations of each color key, keys in order of first appearance, locations in order of arrival
and never merged. An index leads from a key to the slot of its group.
-/

namespace ColorMarks

/-- Groups of locations by key, with the slot of every key. -/
structure RangeGroups where
  groups : List (String × List Location) := []
  index : List (String × Nat) := []
  deriving DecidableEq, Repr

namespace RangeGroups

/-- No groups. -/
def empty : RangeGroups := ⟨[], []⟩

/-- The groups with a location put into the group of this slot. -/
def pushAt (groups : List (String × List Location)) (slot : Nat) (location : Location) :
    List (String × List Location) :=
  groups.modify slot fun (key, locations) => (key, locations ++ [location])

/-- The groups with a location put at the end of the group of its key. -/
def push (g : RangeGroups) (key : String) (location : Location) : RangeGroups :=
  match g.index.lookup key with
  | some slot => { g with groups := pushAt g.groups slot location }
  | none =>
    { groups := pushAt (g.groups ++ [(key, [])]) g.groups.length location
      index := g.index ++ [(key, g.groups.length)] }

/-- The locations of a key. -/
def get? (g : RangeGroups) (key : String) : Option (List Location) := do
  let slot ← g.index.lookup key
  let (_, locations) ← g.groups[slot]?
  return locations

/-- Keys and locations, in the order of the keys. -/
def toList (g : RangeGroups) : List (String × List Location) := g.groups

/-- The keys, in order. -/
def keys (g : RangeGroups) : List String := g.groups.map Prod.fst

/-- The number of keys. -/
def size (g : RangeGroups) : Nat := g.groups.length

/-- Whether there is no key. -/
def isEmpty (g : RangeGroups) : Bool := g.groups.isEmpty

/-- The number of locations of all keys. -/
def locationCount (g : RangeGroups) : Nat := g.groups.foldr (fun e n => e.2.length + n) 0

end RangeGroups

end ColorMarks
