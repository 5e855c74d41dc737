/-!
# Diagnostics

Positions and ranges in documents, and the findings that a server publishes for them. Lines and
characters count from zero.
-/

namespace ColorMarks

/-- A place in a document. -/
structure Position where
  line : UInt32
  character : UInt32
  deriving DecidableEq, Repr

/-- The order of two positions: by line, then by character. -/
def Position.compare (a b : Position) : Ordering :=
  (Ord.compare a.line.toNat b.line.toNat).then (Ord.compare a.character.toNat b.character.toNat)

/-- The text between two positions. -/
structure Range where
  start : Position
  «end» : Position
  deriving DecidableEq, Repr

/-- Whether the range starts where it ends. -/
def Range.isEmpty (r : Range) : Bool := r.start == r.end

/-- A range in the document with this address. -/
structure Location where
  uri : String
  range : Range
  deriving DecidableEq, Repr

/-- How grave a finding is. -/
inductive Severity where
  | error
  | warning
  | information
  | hint
  deriving DecidableEq, Repr

namespace Severity

/-- The severity with this number; they count from one. -/
def ofNumber? : Nat → Option Severity
  | 1 => some error
  | 2 => some warning
  | 3 => some information
  | 4 => some hint
  | _ => none

/-- The number of a severity. -/
def number : Severity → Nat
  | error => 1
  | warning => 2
  | information => 3
  | hint => 4

/-- The name of a severity. -/
def name : Severity → String
  | error => "Error"
  | warning => "Warning"
  | information => "Information"
  | hint => "Hint"

@[simp] theorem ofNumber?_number (s : Severity) : ofNumber? s.number = some s := by
  cases s <;> rfl

theorem ofNumber?_eq_some_iff {n : Nat} {s : Severity} : ofNumber? n = some s ↔ n = s.number := by
  constructor
  · intro h
    unfold ofNumber? at h
    split at h <;> cases h <;> rfl
  · rintro rfl
    exact ofNumber?_number s

theorem number_lt (s : Severity) : s.number < 5 := by
  cases s <;> decide

end Severity

/-- A place that a finding refers to, with a message about it. -/
structure Related where
  location : Location
  message : String
  deriving DecidableEq, Repr

/-- One finding in a document. -/
structure Diagnostic where
  range : Range
  severity : Option Severity
  code : Option String
  source : Option String
  message : String
  related : List Related
  deriving DecidableEq, Repr

/-- The findings of all documents, document by document. -/
abbrev Snapshot := List (String × List Diagnostic)

namespace Snapshot

/-- Every finding, in order. -/
def diagnostics (s : Snapshot) : List Diagnostic := s.flatMap Prod.snd

/-- Every related place, in order. -/
def related (s : Snapshot) : List Related := s.diagnostics.flatMap Diagnostic.related

end Snapshot

end ColorMarks
