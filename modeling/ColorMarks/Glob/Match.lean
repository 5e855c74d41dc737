import ColorMarks.Glob.Pattern
import ColorMarks.Text.Utf8

/-!
# Matching paths against patterns

A part of a pattern matches the beginning of a list of bytes, in one way or in several; `Part.ends`
lists what may be left over. A pattern matches a path if nothing may be left over of all its bytes.
-/

namespace ColorMarks.Glob

/-- The byte of a slash. -/
def slash : UInt8 := 0x2F

/-- The bytes of a character. -/
def charOctets (c : Char) : List UInt8 := Text.octets (String.singleton c)

/-- What is left over after bytes that are no slashes. -/
def withinComponent : List UInt8 → List (List UInt8)
  | [] => [[]]
  | b :: r => (b :: r) :: (if b = slash then [] else withinComponent r)

/-- All that may be left over after any bytes. -/
def suffixes : List UInt8 → List (List UInt8)
  | [] => [[]]
  | b :: r => (b :: r) :: suffixes r

/-- All that may be left over after a slash. -/
def afterSlashes : List UInt8 → List (List UInt8)
  | [] => []
  | b :: r => if b = slash then r :: afterSlashes r else afterSlashes r

/-- What is left over after some bytes, if these come first. -/
def afterOctets? : List UInt8 → List UInt8 → Option (List UInt8)
  | [], bs => some bs
  | l :: ls, b :: bs => if l = b then afterOctets? ls bs else none
  | _ :: _, [] => none

/--
The byte ranges of a range of characters. The bytes of both ends are listed one by one; only between
the last byte of the first and the first byte of the second is a range.
-/
def octetRanges (lo hi : Char) : List (UInt8 × UInt8) :=
  let single (b : UInt8) : UInt8 × UInt8 := (b, b)
  if lo = hi then (charOctets lo).map single
  else
    (charOctets lo).dropLast.map single ++
      ((charOctets lo).getLast?.toList.zip (charOctets hi).head?.toList) ++
      (charOctets hi).tail.map single

/-- Whether a byte is in one of the ranges. -/
def inRanges (ranges : List (Char × Char)) (b : UInt8) : Bool :=
  ranges.any fun (lo, hi) => (octetRanges lo hi).any fun (l, h) => l ≤ b && b ≤ h

mutual

/-- Whether a part consists of nothing but empty choices. -/
def Part.isVoid : Part → Bool
  | .choice branches => allVoid branches
  | _ => false

/-- Whether all parts are void. -/
def partsVoid : List Part → Bool
  | [] => true
  | p :: ps => p.isVoid && partsVoid ps

/-- Whether all branches are void. -/
def allVoid : List (List Part) → Bool
  | [] => true
  | b :: bs => partsVoid b && allVoid bs

end

mutual

/-- What may be left over of some bytes after a part. -/
def Part.ends : Part → List UInt8 → List (List UInt8)
  | .literal c, s => (afterOctets? (charOctets c) s).toList
  | .one, s =>
    match s with
    | b :: r => if b = slash then [] else [r]
    | [] => []
  | .many, s => withinComponent s
  | .leading, s => s :: afterSlashes s
  | .trailing, s =>
    match s with
    | b :: r => if b = slash then suffixes r else []
    | [] => []
  | .between, s =>
    match s with
    | b :: r => if b = slash then r :: afterSlashes r else []
    | [] => []
  | .set negated ranges, s =>
    match s with
    | b :: r => if inRanges ranges b != negated then [r] else []
    | [] => []
  | .choice branches, s => if allVoid branches then [s] else branchEnds branches s

/-- What may be left over after a list of parts. -/
def partsEnds : List Part → List (List UInt8) → List (List UInt8)
  | [], rests => rests
  | p :: ps, rests => partsEnds ps (rests.flatMap p.ends).eraseDups

/-- What may be left over after one of the branches; void branches do not count. -/
def branchEnds : List (List Part) → List UInt8 → List (List UInt8)
  | [], _ => []
  | b :: bs, s => (if partsVoid b then [] else partsEnds b [s]) ++ branchEnds bs s

end

/-- Whether a part is a literal character. -/
def Part.isLiteral : Part → Bool
  | .literal _ => true
  | _ => false

/-- Whether a part is this literal character. -/
def Part.isChar (c : Char) : Part → Bool
  | .literal d => c == d
  | _ => false

/--
Patterns that are compared with the name of the file, or with what follows the last dot in it: those
that end in a dot, unless they are literal from the beginning, or literal with a slash after any
directories. They never match a path that ends in two dots, for it has no file name.
-/
def needsFileName (ps : List Part) : Bool :=
  (ps.getLast?.map (Part.isChar '.')).getD false &&
    match ps with
    | .leading :: rest => !(rest.all Part.isLiteral && rest.any (Part.isChar '/'))
    | _ => !ps.all Part.isLiteral

/-- Whether a path ends in the part `..`. -/
def endsInParent (path : List Char) : Bool :=
  (Text.pieces '/' path).getLast? == some ['.', '.']

/-- Whether a pattern matches a path. Two stars alone match every path. -/
def isMatch (ps : List Part) (path : String) : Bool :=
  match ps with
  | [.leading] => true
  | ps =>
    !(needsFileName ps && endsInParent path.toList) &&
      (partsEnds ps [Text.octets path]).contains []

end ColorMarks.Glob
