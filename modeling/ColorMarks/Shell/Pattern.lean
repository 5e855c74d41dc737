import ColorMarks.Shell.Script

/-!
# Shell patterns

A star matches any text, a question mark any character, and a bracket one of a set of characters. All
other characters match themselves, and so do quoted ones. Like the other modules of the shell, this is
outer layer, apart from the patterns of watched files: only the program uses it.
-/

namespace ColorMarks.Shell

/-- An item of a pattern. -/
inductive Item where
  | star
  | any
  | exactly (c : Char)
  | oneOf (negated : Bool) (ranges : List (Char × Char))
  deriving DecidableEq, Repr

/-- Whether an item that is no star matches a character. -/
def Item.accepts (c : Char) : Item → Bool
  | star => true
  | any => true
  | exactly d => c == d
  | oneOf negated ranges => (ranges.any fun (lo, hi) => lo ≤ c && c ≤ hi) != negated

/-- A pattern. -/
abbrev Pattern := List Item

/-- A character of a pattern's text, and whether it may have a meaning of its own. -/
structure PatternChar where
  char : Char
  isActive : Bool
  deriving DecidableEq, Repr

/-- Whether a character closes a bracket. -/
def PatternChar.isClosing (c : PatternChar) : Bool := c.isActive && c.char == ']'

/-- Whether a character stands between the ends of a range. -/
def PatternChar.isDash (c : PatternChar) : Bool := c.isActive && c.char == '-'

namespace Pattern

/-- The ranges up to the closing bracket, and what comes after it. -/
def bracketRanges : List PatternChar → Option (List (Char × Char) × List PatternChar)
  | [] => none
  | c :: d :: e :: r =>
    if c.isClosing then some ([], d :: e :: r)
    else if d.isDash && !e.isClosing then
      (bracketRanges r).map fun (ranges, r) => ((c.char, e.char) :: ranges, r)
    else (bracketRanges (d :: e :: r)).map fun (ranges, r) => ((c.char, c.char) :: ranges, r)
  | c :: r =>
    if c.isClosing then some ([], r)
    else (bracketRanges r).map fun (ranges, r) => ((c.char, c.char) :: ranges, r)

/-- A bracket after its opening character; a closing bracket that comes first is a member. -/
def bracket (cs : List PatternChar) : Option (Item × List PatternChar) :=
  let (negated, cs) := match cs with
    | c :: r => if c.char == '!' || c.char == '^' then (true, r) else (false, cs)
    | [] => (false, cs)
  match cs with
  | c :: r =>
    if c.char == ']' then
      (bracketRanges r).map fun (ranges, r) => (.oneOf negated ((']', ']') :: ranges), r)
    else (bracketRanges cs).map fun (ranges, r) => (.oneOf negated ranges, r)
  | [] => none

/-- The pattern of a text. The first argument bounds the number of items. -/
def compileWithin : Nat → List PatternChar → Pattern
  | 0, _ => []
  | _, [] => []
  | fuel + 1, c :: r =>
    if !c.isActive then .exactly c.char :: compileWithin fuel r
    else match c.char with
      | '*' => .star :: compileWithin fuel r
      | '?' => .any :: compileWithin fuel r
      | '[' =>
        match bracket r with
        | some (item, r) => item :: compileWithin fuel r
        | none => .exactly '[' :: compileWithin fuel r
      | c => .exactly c :: compileWithin fuel r

/-- The pattern of a text. -/
def compile (cs : List PatternChar) : Pattern := compileWithin cs.length cs

/-- Whether a pattern matches a whole text. -/
def fits : Pattern → Raw → Bool
  | [], cs => cs.isEmpty
  | .star :: p, [] => fits p []
  | .star :: p, c :: cs => fits p (c :: cs) || fits (.star :: p) cs
  | _ :: _, [] => false
  | item :: p, c :: cs => item.accepts c && fits p cs
termination_by p cs => (p.length, cs.length)

/-- What is left of a text after each beginning that a pattern matches, shortest beginning first. -/
def rests : Pattern → Raw → List Raw
  | [], cs => [cs]
  | .star :: p, [] => rests p []
  | .star :: p, c :: cs => rests p (c :: cs) ++ rests (.star :: p) cs
  | _ :: _, [] => []
  | item :: p, c :: cs => if item.accepts c then rests p cs else []
termination_by p cs => (p.length, cs.length)

/-- All ends of a text, the whole text first. -/
def ends : Raw → List Raw
  | [] => [[]]
  | c :: cs => (c :: cs) :: ends cs

/-- A text without the shortest or the longest beginning that a pattern matches. -/
def withoutStart (longest : Bool) (p : Pattern) (cs : Raw) : Raw :=
  let found := rests p cs
  ((if longest then found.getLast? else found.head?)).getD cs

/-- A text without the shortest or the longest end that a pattern matches. -/
def withoutEnd (longest : Bool) (p : Pattern) (cs : Raw) : Raw :=
  let candidates := if longest then ends cs else (ends cs).reverse
  match candidates.find? (fits p) with
  | some e => cs.take (cs.length - e.length)
  | none => cs

end Pattern

end ColorMarks.Shell
