import ColorMarks.Text.Split

/-!
# Path texts

Paths are texts whose parts are separated by slashes. Joining changes nothing in either text;
comparing looks at the parts, of which empty ones and single dots do not count, except for a dot at
the very beginning.
-/

namespace ColorMarks.Path

open Text (pieces joined)

/-- Whether a path begins at the root. -/
def isAbsolute (path : String) : Bool := path.toList.head? == some '/'

/-- The second path as seen from the first; an absolute one stays as it is. -/
def join (base relative : String) : String :=
  if isAbsolute relative then relative
  else if base.isEmpty || base.toList.getLast? == some '/' then base ++ relative
  else base ++ "/" ++ relative

/-- A part that does not count. -/
def isIdle (part : List Char) : Bool := part.isEmpty || part == ['.']

/-- The parts that count, without regard to the beginning. -/
def parts (path : List Char) : List (List Char) := (pieces '/' path).filter fun p => !isIdle p

/-- The last part of a path, if it is a name. -/
def fileName? (path : String) : Option String :=
  match (parts path.toList).getLast? with
  | some name => if name == ['.', '.'] then none else some (String.ofList name)
  | none => none

/-- How a path begins, and the text after that. -/
inductive Start where
  | root (body : List Char)
  | here (body : List Char)
  | plain (body : List Char)

/-- The beginning of a path: a slash, a single dot, or neither. -/
def start : List Char → Start
  | '/' :: r => .root r
  | ['.'] => .here []
  | '.' :: '/' :: r => .here ('/' :: r)
  | r => .plain r

/-- The pieces without those at the end that do not count. -/
def dropIdleEnd (ps : List (List Char)) : List (List Char) :=
  (ps.reverse.dropWhile isIdle).reverse

/-- A body without the parts at its end that do not count. -/
def trimBody (body : List Char) : List Char := joined '/' (dropIdleEnd (pieces '/' body))

/-- What is left of the pieces of a body after these parts. -/
def afterParts? : List (List Char) → List (List Char) → Option (List (List Char))
  | [], ps => some (ps.dropWhile isIdle)
  | _ :: _, [] => none
  | q :: qs, p :: ps =>
    if isIdle p then afterParts? (q :: qs) ps
    else if q = p then afterParts? qs ps
    else none

/-- The body of a path after the parts of another body. -/
def afterBody? (root body : List Char) : Option (List Char) :=
  (afterParts? (parts root) (pieces '/' body)).map fun ps => joined '/' (dropIdleEnd ps)

/-- The rest of a path after a directory that it lies in; an empty directory cuts off nothing. -/
def relativeTo? (root path : String) : Option String :=
  let rest : Option (List Char) :=
    match start root.toList, start path.toList with
    | .root q, .root p => afterBody? q p
    | .here q, .here p => afterBody? q p
    | .plain [], .root p => some ('/' :: trimBody p)
    | .plain [], .here p => some ('.' :: trimBody p)
    | .plain [], .plain p => some (trimBody p)
    | .plain q, .plain p => afterBody? q p
    | _, _ => none
  rest.map String.ofList

/--
A path made absolute by its text alone, as seen from a directory: idle parts go, two dots stay, and so
do a slash at the end and exactly two slashes at the beginning. The empty path has no such form.
-/
def absolute? (directory path : String) : Option String :=
  if path.isEmpty then none
  else
    let cs := path.toList
    let body := (parts cs).map String.ofList
    let base :=
      match cs with
      | ['/', '/'] => "//"
      | '/' :: '/' :: c :: _ => if c = '/' then "/" else "//"
      | '/' :: _ => "/"
      | _ => directory
    let whole := body.foldl join base
    some (if cs.getLast? == some '/' then join whole "" else whole)

end ColorMarks.Path
