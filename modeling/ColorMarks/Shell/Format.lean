import ColorMarks.Shell.Script
import ColorMarks.Text.Integer

/-!
# Formatted output

Texts with escapes, and formats whose conversions take arguments. A format is used again as long as
arguments are left over and it takes any. Like the other modules of the shell, this is outer layer: only
the program uses it.
-/

namespace ColorMarks.Shell.Format

/-- Which escapes a text has. -/
inductive EscapeForm where
  /-- The form of formats. -/
  | format
  /-- An octal number may have one more leading zero, and `\c` ends all output. -/
  | argument
  deriving DecidableEq

/-- Whether a character is an octal digit. -/
def isOctal (c : Char) : Bool := '0' ≤ c && c ≤ '7'

/-- The character of an octal number. -/
def octalChar (ds : Raw) : Char :=
  Char.ofNat (ds.foldl (fun n d => 8 * n + (d.toNat - '0'.toNat)) 0 % 256)

/-- The character of a letter after a backslash. -/
def escapes : List (Char × Char) :=
  [('a', '\x07'), ('b', '\x08'), ('f', '\x0c'), ('n', '\n'), ('r', '\r'), ('t', '\t'), ('v', '\x0b'),
    ('\\', '\\')]

/-- What an escape means. -/
inductive Escape where
  | chars (cs : Raw) (rest : Raw)
  | finish

/-- The escape after a backslash. -/
def escape (form : EscapeForm) : Raw → Escape
  | [] => .chars ['\\'] []
  | c :: r =>
    match escapes.lookup c with
    | some d => .chars [d] r
    | none =>
      if form == .argument && c == 'c' then .finish
      else if isOctal c then
        let cs := if form == .argument && c == '0' && (r.head?.any isOctal) then r else c :: r
        let ds := (cs.take 3).takeWhile isOctal
        .chars [octalChar ds] (cs.drop ds.length)
      else .chars ['\\', c] r

/-- A text with its escapes replaced, and whether it ends all output. -/
def unescapeWithin (form : EscapeForm) : Nat → Raw → Raw × Bool
  | 0, _ => ([], false)
  | _, [] => ([], false)
  | fuel + 1, c :: r =>
    if c == '\\' then
      match escape form r with
      | .finish => ([], true)
      | .chars cs rest =>
        let (more, ends) := unescapeWithin form fuel rest
        (cs ++ more, ends)
    else
      let (more, ends) := unescapeWithin form fuel r
      (c :: more, ends)

/-- `unescapeWithin` for a whole text. -/
def unescape (form : EscapeForm) (cs : Raw) : Raw × Bool := unescapeWithin form cs.length cs

/-- A number that is given by the format or by an argument. -/
inductive Amount where
  | given (n : Nat)
  | argument
  deriving DecidableEq

/-- A part of a format. -/
inductive Part where
  | text (cs : Raw)
  | conversion (flags : Raw) (width precision : Option Amount) (kind : Char)

/-- A number in a format, and what comes after it. -/
def amount? : Raw → Option Amount × Raw
  | '*' :: r => (some .argument, r)
  | cs =>
    let ds := cs.takeWhile Char.isDigit
    if ds.isEmpty then (none, cs) else (some (.given (Text.digitsValue ds)), cs.drop ds.length)

/-- The conversion after a percent sign. -/
def conversion (cs : Raw) : Part × Raw :=
  let flags := cs.takeWhile fun c => "-+ #0".toList.contains c
  let (width, r) := amount? (cs.drop flags.length)
  let (precision, r) := match r with
    | '.' :: r =>
      match amount? r with
      | (none, r) => (some (.given 0), r)
      | p => p
    | r => (none, r)
  match r with
  | c :: r => (.conversion flags width precision c, r)
  | [] => (.text ['%'], [])

/-- The parts of a format. The first argument bounds their number. -/
def partsWithin : Nat → Raw → List Part
  | 0, _ => []
  | _, [] => []
  | fuel + 1, '%' :: '%' :: r => .text ['%'] :: partsWithin fuel r
  | fuel + 1, '%' :: r =>
    let (p, r) := conversion r
    p :: partsWithin fuel r
  | fuel + 1, '\\' :: r =>
    match escape .format r with
    | .chars cs r => .text cs :: partsWithin fuel r
    | .finish => []
  | fuel + 1, c :: r => .text [c] :: partsWithin fuel r

/-- The parts of a format. -/
def parts (cs : Raw) : List Part := partsWithin cs.length cs

/-- The number that an argument denotes; what cannot be read counts as nothing. -/
def number (cs : Raw) : Int :=
  match cs with
  | '\x22' :: c :: _ => c.toNat
  | '\x27' :: c :: _ => c.toNat
  | '-' :: r => -(natural r)
  | '+' :: r => natural r
  | r => natural r
where
  /-- The number without a sign. -/
  natural (cs : Raw) : Int :=
    match cs with
    | '0' :: x :: r =>
      if x == 'x' || x == 'X' then
        (r.takeWhile fun c => (Text.hexDigit? c).isSome).foldl
          (fun (n : Int) c => 16 * n + (Text.hexDigit? c).getD 0) 0
      else ((x :: r).takeWhile isOctal).foldl (fun (n : Int) c => 8 * n + (c.toNat - 48 : Nat)) 0
    | cs => Text.digitsValue (cs.takeWhile Char.isDigit)

/-- The digits of a number, at least so many. -/
def digits (base : Nat) (least : Nat) (n : Nat) : Raw :=
  let ds := Nat.toDigits base n
  List.replicate (least - ds.length) '0' ++ ds

/-- A text filled up with a character on the left, or with blanks on the right. -/
def fill (width : Nat) (atRight : Bool) (c : Char) (cs : Raw) : Raw :=
  if atRight then cs ++ List.replicate (width - cs.length) ' '
  else List.replicate (width - cs.length) c ++ cs

/-- A number with its sign, filled up to a width. -/
def signed (flags : Raw) (width : Nat) (precision : Option Nat) (negative : Bool) (ds : Raw) : Raw :=
  let sign : Raw :=
    if negative then ['-'] else if flags.contains '+' then ['+']
    else if flags.contains ' ' then [' '] else []
  if flags.contains '0' && !flags.contains '-' && precision.isNone then
    sign ++ fill (width - sign.length) false '0' ds
  else fill width (flags.contains '-') ' ' (sign ++ ds)

/-- A conversion applied to an argument, and whether it ends all output; nothing if there is no such
conversion. -/
def convert? (flags : Raw) (width : Nat) (precision : Option Nat) (kind : Char) (arg : Raw) :
    Option (Raw × Bool) :=
  let least := precision.getD 1
  let pad := fill width (flags.contains '-') ' '
  let unsigned (base : Nat) : Raw := digits base least ((number arg) % (twoTo 64)).toNat
  match kind with
  | 's' => some (pad (arg.take (precision.getD arg.length)), false)
  | 'b' =>
    let (cs, ends) := unescape .argument arg
    some (pad (cs.take (precision.getD cs.length)), ends)
  | 'c' => some (pad (arg.take 1), false)
  | 'd' => some (integer least, false)
  | 'i' => some (integer least, false)
  | 'u' => some (signed flags width precision false (unsigned 10), false)
  | 'o' => some (signed flags width precision false (unsigned 8), false)
  | 'x' => some (signed flags width precision false (unsigned 16), false)
  | 'X' => some (signed flags width precision false ((unsigned 16).map Char.toUpper), false)
  | _ => none
where
  /-- The argument as a signed number. -/
  integer (least : Nat) : Raw :=
    let n := number arg
    signed flags width precision (n < 0) (digits 10 least n.natAbs)

/-- The value of an amount, and the arguments that are left over. -/
def resolve (a : Option Amount) (args : List Raw) : Option Int × List Raw :=
  match a with
  | none => (none, args)
  | some (.given n) => (some n, args)
  | some .argument => (some (number (args.headD [])), args.tail)

/-- The parts applied to arguments: the text, what is left over, and whether all output has ended. -/
def apply : List Part → List Raw → Raw × List Raw × Bool
  | [], args => ([], args, false)
  | .text cs :: ps, args =>
    let (more, args, ends) := apply ps args
    (cs ++ more, args, ends)
  | .conversion flags width precision kind :: ps, args =>
    let (w, args) := resolve width args
    let (p, args) := resolve precision args
    let flags := if w.any (· < 0) then '-' :: flags else flags
    match convert? flags (w.getD 0).natAbs (p.map Int.toNat) kind (args.headD []) with
    | none => ([], [], true)
    | some (cs, true) => (cs, [], true)
    | some (cs, false) =>
      let (more, args, ends) := apply ps args.tail
      (cs ++ more, args, ends)

/-- The format applied again and again. The first argument bounds the number of rounds. -/
def rounds : Nat → List Part → List Raw → Raw
  | 0, _, _ => []
  | fuel + 1, ps, args =>
    let (cs, left, ends) := apply ps args
    if ends || left.isEmpty || left.length == args.length then cs else cs ++ rounds fuel ps left

/-- A format with its arguments. -/
def formatted (format : Raw) (args : List Raw) : Raw := rounds (args.length + 1) (parts format) args

end ColorMarks.Shell.Format
