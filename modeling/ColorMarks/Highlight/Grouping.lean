import ColorMarks.Color
import ColorMarks.Highlight.RangeGroups

/-!
# Grouping locations by color

The related places of a snapshot whose message is a color directive, gathered under the directive's
key: document after document, finding after finding, place after place.
-/

namespace ColorMarks

/-- The locations of each key, and the directive that first brought the key. -/
structure Grouping where
  ranges : RangeGroups := .empty
  directives : List (String × Directive) := []
  deriving DecidableEq, Repr

namespace Grouping

/-- No locations. -/
def empty : Grouping := ⟨.empty, []⟩

/-- The grouping with one more location. -/
def push (g : Grouping) (d : Directive) (location : Location) : Grouping where
  ranges := g.ranges.push d.key location
  directives :=
    if (g.directives.lookup d.key).isSome then g.directives else g.directives ++ [(d.key, d)]

/-- The directive of a related place, if the policy lets it through. -/
def directive? (policy : Policy) (r : Related) : Option Directive :=
  (Directive.ofMessage? r.message).filter fun d => d.admitted policy

/-- The directives of a snapshot that the policy lets through, each with its location. -/
def marks (policy : Policy) (s : Snapshot) : List (Directive × Location) :=
  s.related.filterMap fun r => (directive? policy r).map fun d => (d, r.location)

/-- All marks of a snapshot, grouped. -/
def ofSnapshot (policy : Policy) (s : Snapshot) : Grouping :=
  (marks policy s).foldl (fun g m => g.push m.1 m.2) .empty

/-- The directive of a key. -/
def directiveOf? (g : Grouping) (key : String) : Option Directive := g.directives.lookup key

/-- Directives and locations, in the order of the keys. -/
def toList (g : Grouping) : List (Directive × List Location) :=
  g.ranges.toList.filterMap fun (key, locations) =>
    (g.directiveOf? key).map fun d => (d, locations)

end Grouping

end ColorMarks
