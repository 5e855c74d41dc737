import ColorMarks.Shell.Machine
import ColorMarks.Text.Integer
import ColorMarks.Shell.Reader

/-!
# Shell arithmetic

The value of an expression over integers. A name stands for the value of its variable; comparisons give
one or zero. Like the other modules of the shell, this is outer layer: only the program uses it.
-/

namespace ColorMarks.Shell.Arithmetic

/-- The number that a comparison gives. -/
def truth (b : Bool) : Int := if b then 1 else 0

/-- The operators by their rank, weakest first, with what they compute. -/
def operators : List (List (String × (Int → Int → Option Int))) := [
  [("||", fun a b => some (truth (a != 0 || b != 0)))],
  [("&&", fun a b => some (truth (a != 0 && b != 0)))],
  [("==", fun a b => some (truth (a == b))), ("!=", fun a b => some (truth (a != b)))],
  [("<=", fun a b => some (truth (a ≤ b))), (">=", fun a b => some (truth (b ≤ a))),
    ("<", fun a b => some (truth (a < b))), (">", fun a b => some (truth (b < a)))],
  [("+", fun a b => some (a + b)), ("-", fun a b => some (a - b))],
  [("*", fun a b => some (a * b)),
    ("/", fun a b => if b = 0 then none else some (Int.tdiv a b)),
    ("%", fun a b => if b = 0 then none else some (Int.tmod a b))]]

/-- The text after blanks. -/
def skip (cs : Raw) : Raw := cs.dropWhile fun c => c == ' ' || c == '\t' || c == '\n'

/-- The first of some operators that begins a text. -/
def operator? (ops : List (String × (Int → Int → Option Int))) (cs : Raw) :
    Option ((Int → Int → Option Int) × Raw) :=
  ops.findSome? fun (name, f) => (Text.after? name.toList cs).map fun r => (f, r)

mutual

/-- An expression of the operators of some ranks, up to where no further operator of them follows. -/
def ranked (value : Raw → Int) : Nat → List (List (String × (Int → Int → Option Int))) → Raw →
    Option (Int × Raw)
  | 0, _, _ => none
  | fuel + 1, [], cs => single value fuel cs
  | fuel + 1, ops :: stronger, cs => do
    let (a, r) ← ranked value fuel stronger cs
    more value fuel ops stronger a r

/-- The rest of an expression after its first operand. -/
def more (value : Raw → Int) : Nat → List (String × (Int → Int → Option Int)) →
    List (List (String × (Int → Int → Option Int))) → Int → Raw → Option (Int × Raw)
  | 0, _, _, _, _ => none
  | fuel + 1, ops, stronger, a, cs =>
    match operator? ops (skip cs) with
    | none => some (a, cs)
    | some (f, r) => do
      let (b, r) ← ranked value fuel stronger r
      more value fuel ops stronger (← f a b) r

/-- A number, a name, a signed operand or an expression in parentheses. -/
def single (value : Raw → Int) : Nat → Raw → Option (Int × Raw)
  | 0, _ => none
  | fuel + 1, cs =>
    match skip cs with
    | '(' :: r => do
      let (a, r) ← ranked value fuel operators r
      match skip r with
      | ')' :: r => return (a, r)
      | _ => none
    | '-' :: r => (single value fuel r).map fun (a, r) => (-a, r)
    | '+' :: r => single value fuel r
    | '!' :: r => (single value fuel r).map fun (a, r) => (truth (a == 0), r)
    | c :: r =>
      if c.isDigit then
        some (Text.digitsValue ((c :: r).takeWhile Char.isDigit), (c :: r).dropWhile Char.isDigit)
      else if Reader.isNameStart c then
        some (value ((c :: r).takeWhile Reader.isNameChar), (c :: r).dropWhile Reader.isNameChar)
      else none
    | [] => none

end

/-- The value of a variable as a number. -/
def valueOf (m : Machine) (name : Raw) : Int :=
  ((m.value? name).bind (Text.int64? ·)).getD 0

/-- The value of an expression, if it has one. -/
def evaluate? (m : Machine) (cs : Raw) : Option Int :=
  match ranked (valueOf m) (16 * cs.length + 16) operators cs with
  | some (a, r) => if (skip r).isEmpty then some a else none
  | none => none

end ColorMarks.Shell.Arithmetic
