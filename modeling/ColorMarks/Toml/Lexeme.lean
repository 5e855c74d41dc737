import ColorMarks.Text.Split
import ColorMarks.Text.Utf8
import ColorMarks.Toml.Basic

/-!
# TOML lexemes

Blanks, comments, strings, numbers and dates. Each reading function takes the characters that are left
and gives what it read together with the characters after it.
-/

namespace ColorMarks.Toml

open Text (after? hexDigit?)

/-- Blanks within a line. -/
def isGap (c : Char) : Bool := c == ' ' || c == '\t'

/-- The text after blanks within a line. -/
def skipGap (cs : List Char) : List Char := cs.dropWhile isGap

/-- The text after a line break, if it begins with one. -/
def newline? : List Char → Option (List Char)
  | '\n' :: r => some r
  | '\r' :: '\n' :: r => some r
  | _ => none

/-- A character that may stand in a comment. -/
def isCommentChar (c : Char) : Bool := c == '\t' || (0x20 ≤ c.toNat && c.toNat != 0x7F)

/-- The text after a comment, if it begins with one. -/
def skipComment : List Char → List Char
  | '#' :: r => r.dropWhile isCommentChar
  | cs => cs

/-- The text after the rest of a line: blanks, a comment and the line break or the end of the text. -/
def lineEnd? (cs : List Char) : Option (List Char) :=
  match skipComment (skipGap cs) with
  | [] => some []
  | cs => newline? cs

/-- The text after any blanks, comments and line breaks; the first argument bounds their number. -/
def skipLines : Nat → List Char → List Char
  | 0, cs => cs
  | fuel + 1, cs =>
    match skipGap cs with
    | '#' :: r => skipLines fuel (r.dropWhile isCommentChar)
    | cs =>
      match newline? cs with
      | some r => skipLines fuel r
      | none => cs

/-! ## Strings -/

/-- A character that may stand in a basic string as it is. -/
def isBasicChar (c : Char) : Bool := isCommentChar c && c != '"' && c != '\\'

/-- A character that may stand in a literal string. -/
def isLiteralChar (c : Char) : Bool := isCommentChar c && c != '\''

/-- The character that a backslash and a letter stand for. -/
def letterEscape? : Char → Option Char
  | 'b' => some '\x08'
  | 't' => some '\t'
  | 'n' => some '\n'
  | 'f' => some '\x0c'
  | 'r' => some '\r'
  | '"' => some '"'
  | '\\' => some '\\'
  | _ => none

/-- The character with a code point in hexadecimal. -/
def codePoint? (digits : List Char) : Option Char := do
  let n ← digits.foldlM (fun n d => (hexDigit? d).map (16 * n + ·)) 0
  if n < 0xD800 ∨ (0xE000 ≤ n ∧ n < 0x110000) then some (Char.ofNat n) else none

/-- The rest of a basic string after its quote; `acc` holds what came before, last character first. -/
def readBasic (acc : List Char) : List Char → Option (List Char × List Char)
  | [] => none
  | '"' :: r => some (acc.reverse, r)
  | '\\' :: 'u' :: a :: b :: c :: d :: r => do
    readBasic ((← codePoint? [a, b, c, d]) :: acc) r
  | '\\' :: 'U' :: a :: b :: c :: d :: e :: f :: g :: h :: r => do
    readBasic ((← codePoint? [a, b, c, d, e, f, g, h]) :: acc) r
  | '\\' :: c :: r => do readBasic ((← letterEscape? c) :: acc) r
  | c :: r => if isBasicChar c then readBasic (c :: acc) r else none

/-- The rest of a literal string after its quote. -/
def readLiteral (cs : List Char) : Option (List Char × List Char) :=
  match cs.dropWhile isLiteralChar with
  | '\'' :: r => some (cs.takeWhile isLiteralChar, r)
  | _ => none

/-- What a text over several lines does at a backslash, and whether blanks are being skipped. -/
inductive LineMode where
  | text
  /-- After a backslash and blanks, before the line break that makes them count. -/
  | beforeBreak
  | afterBreak
  deriving DecidableEq

/--
The rest of a basic string over several lines after its quotes. Up to two quotes may stand before the
closing three; a backslash at the end of a line drops the blanks and line breaks after it.
-/
def readBasicLines (mode : LineMode) (acc : List Char) : List Char → Option (List Char × List Char)
  | [] => none
  | c :: r =>
    match mode with
    | .beforeBreak =>
      if isGap c then readBasicLines .beforeBreak acc r
      else if c = '\n' then readBasicLines .afterBreak acc r
      else if c = '\r' then
        match r with
        | '\n' :: r => readBasicLines .afterBreak acc r
        | _ => none
      else none
    | mode =>
      if mode = .afterBreak ∧ (isGap c ∨ c = '\n') then readBasicLines .afterBreak acc r
      else match c, r with
        | '\r', '\n' :: r =>
          if mode = .afterBreak then readBasicLines .afterBreak acc r
          else readBasicLines .text ('\n' :: acc) r
        | '\r', _ => none
        | '\n', r => readBasicLines .text ('\n' :: acc) r
        | '"', '"' :: '"' :: '"' :: '"' :: r => some (('"' :: '"' :: acc).reverse, r)
        | '"', '"' :: '"' :: '"' :: r => some (('"' :: acc).reverse, r)
        | '"', '"' :: '"' :: r => some (acc.reverse, r)
        | '"', r => readBasicLines .text ('"' :: acc) r
        | '\\', 'u' :: a :: b :: c :: d :: r => do
          readBasicLines .text ((← codePoint? [a, b, c, d]) :: acc) r
        | '\\', 'U' :: a :: b :: c :: d :: e :: f :: g :: h :: r => do
          readBasicLines .text ((← codePoint? [a, b, c, d, e, f, g, h]) :: acc) r
        | '\\', d :: r =>
          if isGap d then readBasicLines .beforeBreak acc r
          else if d = '\n' then readBasicLines .afterBreak acc r
          else if d = '\r' then
            match r with
            | '\n' :: r => readBasicLines .afterBreak acc r
            | _ => none
          else do readBasicLines .text ((← letterEscape? d) :: acc) r
        | '\\', [] => none
        | c, r => if isCommentChar c then readBasicLines .text (c :: acc) r else none

/-- The rest of a literal string over several lines after its quotes. -/
def readLiteralLines (acc : List Char) : List Char → Option (List Char × List Char)
  | [] => none
  | c :: r =>
    match c, r with
    | '\r', '\n' :: r => readLiteralLines ('\n' :: acc) r
    | '\r', _ => none
    | '\n', r => readLiteralLines ('\n' :: acc) r
    | '\'', '\'' :: '\'' :: '\'' :: '\'' :: r => some (('\'' :: '\'' :: acc).reverse, r)
    | '\'', '\'' :: '\'' :: '\'' :: r => some (('\'' :: acc).reverse, r)
    | '\'', '\'' :: '\'' :: r => some (acc.reverse, r)
    | '\'', r => readLiteralLines ('\'' :: acc) r
    | c, r => if isCommentChar c then readLiteralLines (c :: acc) r else none

/-- The text after a line break, or the same text. -/
def skipNewline (cs : List Char) : List Char := (newline? cs).getD cs

/-- A string of any form; only strings with three quotes go over several lines. -/
def readString? : List Char → Option (String × List Char)
  | '"' :: '"' :: '"' :: r =>
    (readBasicLines .text [] (skipNewline r)).map fun (s, r) => (String.ofList s, r)
  | '\'' :: '\'' :: '\'' :: r =>
    (readLiteralLines [] (skipNewline r)).map fun (s, r) => (String.ofList s, r)
  | '"' :: r => (readBasic [] r).map fun (s, r) => (String.ofList s, r)
  | '\'' :: r => (readLiteral r).map fun (s, r) => (String.ofList s, r)
  | _ => none

/-! ## Numbers -/

/-- Digits with single underscores between them, the underscores left out. -/
def readDigits? (isDigit : Char → Bool) : List Char → Option (List Char × List Char)
  | [] => none
  | d :: r =>
    if isDigit d then some (go [d] r) else none
where
  /-- The digits after the first one. -/
  go (acc : List Char) : List Char → List Char × List Char
    | '_' :: d :: r => if isDigit d then go (d :: acc) r else (acc.reverse, '_' :: d :: r)
    | d :: r => if isDigit d then go (d :: acc) r else (acc.reverse, d :: r)
    | [] => (acc.reverse, [])

/-- The sign of a number, and whether there is one. -/
def readSign : List Char → Bool × List Char
  | '-' :: r => (true, r)
  | '+' :: r => (false, r)
  | r => (false, r)

/-- The digits of a decimal integer: zero alone, or digits that begin with another one. -/
def readWhole? : List Char → Option (List Char × List Char)
  | '0' :: r => some (['0'], r)
  | cs => readDigits? Char.isDigit cs

/-- The number that digits of a base denote. -/
def valueIn (base : Nat) (digits : List Char) : Nat :=
  digits.foldl (fun n d => base * n + (hexDigit? d).getD 0) 0

/-- An integer of at most 64 bits. -/
def integer? (n : Int) : Option Value :=
  if -(twoTo 63 : Int) ≤ n ∧ n < twoTo 63 then some (.integer n) else none

/-- An integer with a base in front, or in decimal. -/
def readInteger? (cs : List Char) : Option (Value × List Char) := do
  match cs with
  | '0' :: 'x' :: r =>
    let (ds, r) ← readDigits? (fun c => (hexDigit? c).isSome) r
    return (← integer? (valueIn 16 ds), r)
  | '0' :: 'o' :: r =>
    let (ds, r) ← readDigits? (fun c => '0' ≤ c && c ≤ '7') r
    return (← integer? (valueIn 8 ds), r)
  | '0' :: 'b' :: r =>
    let (ds, r) ← readDigits? (fun c => c == '0' || c == '1') r
    return (← integer? (valueIn 2 ds), r)
  | cs =>
    let (negative, r) := readSign cs
    let (ds, r) ← readWhole? r
    let n : Int := valueIn 10 ds
    return (← integer? (if negative then -n else n), r)

/-- An exponent, if there is one. -/
def readExponent? : List Char → Option (Option Int × List Char)
  | c :: r =>
    if c = 'e' ∨ c = 'E' then do
      let (negative, r) := readSign r
      let (ds, r) ← readDigits? Char.isDigit r
      let k : Int := valueIn 10 ds
      return (some (if negative then -k else k), r)
    else some (none, c :: r)
  | [] => some (none, [])

/--
A number with a point or an exponent, or one of the words for infinity and for no number. A number
that is too large is refused, unless it is negative.
-/
def readFloat? (cs : List Char) : Option (Value × List Char) := do
  let (negative, r) := readSign cs
  match r with
  | 'i' :: 'n' :: 'f' :: r => return (.float (.infinity negative), r)
  | 'n' :: 'a' :: 'n' :: r => return (.float (.notANumber negative), r)
  | r =>
    let (whole, r) ← readWhole? r
    let (fraction, r) ← match r with
      | '.' :: r => (readDigits? Char.isDigit r).map fun (ds, r) => (some ds, r)
      | r => some (none, r)
    let (exponent, r) ← readExponent? r
    if fraction.isNone && exponent.isNone then none
    else
      let places := fraction.getD []
      let d := Double.ofDecimal negative (valueIn 10 (whole ++ places))
        (exponent.getD 0 - places.length)
      if d = .infinity false then none else return (.float d, r)

/-! ## Dates and times -/

/-- Exactly so many digits, as a number. -/
def readFixed? : Nat → List Char → Option (Nat × List Char)
  | n, cs =>
    let ds := cs.take n
    if ds.length = n ∧ ds.all Char.isDigit then some (valueIn 10 ds, cs.drop n) else none

/-- The number of days of a month. -/
def daysIn (year month : Nat) : Nat :=
  if month = 2 then
    if year % 4 = 0 ∧ (year % 100 ≠ 0 ∨ year % 400 = 0) then 29 else 28
  else if month = 4 ∨ month = 6 ∨ month = 9 ∨ month = 11 then 30
  else 31

/-- The text after a date. -/
def date? (cs : List Char) : Option (List Char) := do
  let (year, cs) ← readFixed? 4 cs
  let cs ← after? ['-'] cs
  let (month, cs) ← readFixed? 2 cs
  let cs ← after? ['-'] cs
  let (day, cs) ← readFixed? 2 cs
  if 1 ≤ month ∧ month ≤ 12 ∧ 1 ≤ day ∧ day ≤ daysIn year month then some cs else none

/-- The text after the fraction of a second, if there is one. -/
def fraction? : List Char → Option (List Char)
  | '.' :: d :: r => if d.isDigit then some (r.dropWhile Char.isDigit) else none
  | ['.'] => none
  | cs => some cs

/-- The text after a time of the day. -/
def time? (cs : List Char) : Option (List Char) := do
  let (hour, cs) ← readFixed? 2 cs
  let cs ← after? [':'] cs
  let (minute, cs) ← readFixed? 2 cs
  let cs ← after? [':'] cs
  let (second, cs) ← readFixed? 2 cs
  if hour ≤ 23 ∧ minute ≤ 59 ∧ second ≤ 60 then fraction? cs else none

/-- The text after a distance from universal time, if there is one. -/
def offset? : List Char → Option (List Char)
  | c :: cs =>
    if c = 'Z' ∨ c = 'z' then some cs
    else if c = '+' ∨ c = '-' then do
      let (hour, cs) ← readFixed? 2 cs
      let cs ← after? [':'] cs
      let (minute, cs) ← readFixed? 2 cs
      if hour ≤ 23 ∧ minute ≤ 59 then some cs else none
    else some (c :: cs)
  | [] => some []

/-- A date, a time, or both with a letter or a blank between them. -/
def readDatetime? (cs : List Char) : Option (Value × List Char) :=
  match date? cs with
  | some rest =>
    match rest with
    | c :: r =>
      if c = 'T' ∨ c = 't' ∨ c = ' ' then
        match time? r with
        | some r => (offset? r).map fun r => (.datetime, r)
        | none => if c = ' ' then some (.datetime, rest) else none
      else some (.datetime, rest)
    | [] => some (.datetime, [])
  | none => (time? cs).map fun r => (.datetime, r)

end ColorMarks.Toml
