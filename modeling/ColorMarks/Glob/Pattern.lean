import ColorMarks.Text.Split

/-!
# Glob patterns

A pattern is read into parts, one character after the other. Two stars count as a whole component
only: at the beginning, at the end, or between slashes, where the slashes belong to them. Braces hold
alternatives, and brackets a set of characters.
-/

namespace ColorMarks.Glob

/-- A part of a pattern. -/
inductive Part where
  | literal (c : Char)
  /-- One byte that is no slash. -/
  | one
  /-- Any number of bytes that are no slashes. -/
  | many
  /-- Any directories at the beginning. -/
  | leading
  /-- Anything at the end, after a slash. -/
  | trailing
  /-- Any directories in the middle, with the slashes around them. -/
  | between
  /-- One byte in the ranges, or outside of them. -/
  | set (negated : Bool) (ranges : List (Char × Char))
  | choice (branches : List (List Part))
  deriving Repr, Inhabited

/-- Why a text is no pattern. -/
inductive PatternError where
  | unclosedSet
  | invalidRange (lo hi : Char)
  | unopenedChoice
  | unclosedChoice
  | danglingEscape
  deriving DecidableEq, Repr

namespace PatternError

/-- The text of the error. -/
def message : PatternError → String
  | unclosedSet => "unclosed character class; missing ']'"
  | invalidRange lo hi =>
    "invalid range; '" ++ String.singleton lo ++ "' > '" ++ String.singleton hi ++ "'"
  | unopenedChoice =>
    "unopened alternate group; missing '\x7b' (maybe escape '\x7d' with '[\x7d]'?)"
  | unclosedChoice =>
    "unclosed alternate group; missing '\x7d' (maybe escape '\x7b' with '[\x7b]'?)"
  | danglingEscape => "dangling '\\'"

/-- The text of the error for a pattern. -/
def describe (e : PatternError) (pattern : String) : String :=
  "error parsing glob '" ++ pattern ++ "': " ++ e.message

end PatternError

/-- The branches of a choice read so far, and the branch being read; last part first in each. -/
structure Level where
  finished : List (List Part) := []
  current : List Part := []

namespace Level

/-- The level with a part put at the end of its branch. -/
def push (l : Level) (p : Part) : Level := { l with current := p :: l.current }

/-- The level with its last part replaced. -/
def replaceLast (l : Level) (p : Part) : Level := { l with current := p :: l.current.drop 1 }

/-- The level with a new branch. -/
def branch (l : Level) : Level := ⟨l.current.reverse :: l.finished, []⟩

/-- All branches of the level. -/
def branches (l : Level) : List (List Part) := (l.current.reverse :: l.finished).reverse

end Level

/-- The levels of a pattern: the innermost one, and those around it. -/
structure Levels where
  inner : Level := {}
  outer : List Level := []

namespace Levels

/-- The levels with a part put at the end of the innermost one. -/
def push (s : Levels) (p : Part) : Levels := { s with inner := s.inner.push p }

/-- Whether a choice is open. -/
def nested (s : Levels) : Bool := !s.outer.isEmpty

/-- The levels inside one more choice. -/
def enter (s : Levels) : Levels := ⟨{}, s.inner :: s.outer⟩

/-- The levels outside of the innermost choice. -/
def leave? (s : Levels) : Option Levels :=
  match s.outer with
  | [] => none
  | l :: ls => some ⟨l.push (.choice s.inner.branches), ls⟩

/-- The levels with the last part widened to any directories. -/
def widen (s : Levels) (p : Part) : Levels :=
  match s.inner.current.head? with
  | some .leading => s
  | some .trailing => s
  | _ => { s with inner := s.inner.replaceLast p }

end Levels

/-- A set of characters being read: its ranges, last one first. -/
structure SetState where
  negated : Bool
  ranges : List (Char × Char) := []
  /-- Whether a dash was read that may belong to a range. -/
  inRange : Bool := false

namespace SetState

/-- The set with its last range ending in a character. -/
def endRange (s : SetState) (c : Char) : Except PatternError SetState :=
  match s.ranges with
  | (lo, _) :: rs =>
    if c < lo then .error (.invalidRange lo c)
    else .ok { s with ranges := (lo, c) :: rs, inRange := false }
  | [] => .ok s

/-- The set with one more character that does not end it. -/
def add (s : SetState) (c : Char) : Except PatternError SetState :=
  if s.inRange then s.endRange c
  else if c = '-' && !s.ranges.isEmpty then .ok { s with inRange := true }
  else .ok { s with ranges := (c, c) :: s.ranges }

/-- The finished set; a dash left over counts as a character. -/
def part (s : SetState) : Part :=
  .set s.negated (if s.inRange then ('-', '-') :: s.ranges else s.ranges).reverse

end SetState

/-- Where in a pattern the next character stands. -/
inductive Mode where
  | text
  | escape
  | set (s : SetState)

/--
Reads a pattern. `prev` is the character before the next one. Two stars are any directories only if
they are a whole component; a slash after them belongs to them, and so does the one before them,
which is the last part read so far.
-/
def parse (mode : Mode) (prev : Option Char) (s : Levels) : List Char →
    Except PatternError (List Part)
  | [] =>
    match mode with
    | .set _ => .error .unclosedSet
    | .escape => .error .danglingEscape
    | .text => if s.nested then .error .unclosedChoice else .ok s.inner.current.reverse
  | c :: cs =>
    match mode with
    | .escape => parse .text (some c) (s.push (.literal c)) cs
    | .set set =>
      if c = ']' && !set.ranges.isEmpty then parse .text (some c) (s.push set.part) cs
      else do parse (.set (← set.add c)) (some c) s cs
    | .text =>
      match c with
      | '?' => parse .text (some c) (s.push .one) cs
      | '\\' => parse .escape (some c) s cs
      | '\x7b' => parse .text (some c) s.enter cs
      | '\x7d' =>
        match s.leave? with
        | some s => parse .text (some c) s cs
        | none => .error .unopenedChoice
      | ',' =>
        if s.nested then parse .text (some c) { s with inner := s.inner.branch } cs
        else parse .text (some c) (s.push (.literal c)) cs
      | '[' =>
        match cs with
        | '!' :: cs => parse (.set ⟨true, [], false⟩) (some '!') s cs
        | '^' :: cs => parse (.set ⟨true, [], false⟩) (some '^') s cs
        | cs => parse (.set ⟨false, [], false⟩) (some c) s cs
      | '*' =>
        match cs with
        | '*' :: cs =>
          if s.inner.current.isEmpty then
            match cs with
            | [] => parse .text (some '*') (s.push .leading) []
            | '/' :: cs => parse .text (some '/') (s.push .leading) cs
            | cs => parse .text (some '*') ((s.push .many).push .many) cs
          else if prev = some '/' || (s.nested && (prev = some ',' || prev = some '\x7b')) then
            match cs with
            | [] => parse .text (some '*') (s.widen .trailing) []
            | '/' :: cs => parse .text (some '/') (s.widen .between) cs
            | d :: cs =>
              if s.nested && (d = ',' || d = '\x7d') then
                parse .text (some '*') (s.widen .trailing) (d :: cs)
              else parse .text (some '*') ((s.push .many).push .many) (d :: cs)
          else parse .text (some '*') ((s.push .many).push .many) cs
        | cs => parse .text (some c) (s.push .many) cs
      | c => parse .text (some c) (s.push (.literal c)) cs

/-- The parts of a pattern. -/
def parts? (pattern : String) : Except PatternError (List Part) :=
  parse .text none {} pattern.toList

end ColorMarks.Glob
