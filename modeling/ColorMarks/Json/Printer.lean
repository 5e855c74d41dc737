import ColorMarks.Json.Basic
import ColorMarks.Decimal.Layout
import ColorMarks.Text.Utf8

/-!
# Printing JSON

`Json.print` writes a value without any gap; `Json.pretty` writes one item or member a line, each
level indented by two more spaces. Both keep the members in their order. A double that is not finite
is printed as `null`.
-/

namespace ColorMarks.Json

open Decimal (digitsOf jsonText)
open Text (hexChar)

/-- One character inside a string. -/
def printChar (c : Char) : List Char :=
  match c with
  | '"' => ['\\', '"']
  | '\\' => ['\\', '\\']
  | '\x08' => ['\\', 'b']
  | '\x0c' => ['\\', 'f']
  | '\n' => ['\\', 'n']
  | '\r' => ['\\', 'r']
  | '\t' => ['\\', 't']
  | c =>
    if c.toNat < 0x20 then ['\\', 'u', '0', '0', hexChar (c.toNat / 16), hexChar (c.toNat % 16)]
    else [c]

/-- A string between quotes. -/
def printString (s : String) : List Char := '"' :: (s.toList.flatMap printChar ++ ['"'])

/-- An integer in decimal. -/
def printInt (n : Int) : List Char :=
  if n < 0 then '-' :: digitsOf n.natAbs else digitsOf n.natAbs

/-- A value that is no container. -/
def printScalar : Json → List Char
  | bool true => ['t', 'r', 'u', 'e']
  | bool false => ['f', 'a', 'l', 's', 'e']
  | integer n => printInt n
  | double d => if d.isFinite then jsonText d else ['n', 'u', 'l', 'l']
  | string s => printString s
  | _ => ['n', 'u', 'l', 'l']

mutual

/-- A value without any gap. -/
def print : Json → List Char
  | array [] => ['[', ']']
  | array (v :: r) => '[' :: (print v ++ printItems r)
  | object [] => ['\x7b', '\x7d']
  | object ((n, v) :: r) => '\x7b' :: (printString n ++ ':' :: print v ++ printMembers r)
  | v => printScalar v

/-- The items after the first, and the closing bracket. -/
def printItems : List Json → List Char
  | [] => [']']
  | v :: r => ',' :: (print v ++ printItems r)

/-- The members after the first, and the closing brace. -/
def printMembers : List (String × Json) → List Char
  | [] => ['\x7d']
  | (n, v) :: r => ',' :: (printString n ++ ':' :: print v ++ printMembers r)

end

/-- `print` as a string. -/
def text (v : Json) : String := String.ofList (print v)

/-- A new line indented for a nesting level. -/
def newLine (level : Nat) : List Char := '\n' :: List.replicate (2 * level) ' '

mutual

/-- A value over several lines; the first argument is the nesting level that it stands at. -/
def pretty (level : Nat) : Json → List Char
  | array [] => ['[', ']']
  | array (v :: r) => '[' :: (newLine (level + 1) ++ pretty (level + 1) v ++ prettyItems level r)
  | object [] => ['\x7b', '\x7d']
  | object ((n, v) :: r) =>
    '\x7b' :: (newLine (level + 1) ++ printString n ++ [':', ' '] ++ pretty (level + 1) v ++
      prettyMembers level r)
  | v => printScalar v

/-- The items after the first, and the closing bracket on a line of its own. -/
def prettyItems (level : Nat) : List Json → List Char
  | [] => newLine level ++ [']']
  | v :: r => ',' :: (newLine (level + 1) ++ pretty (level + 1) v ++ prettyItems level r)

/-- The members after the first, and the closing brace on a line of its own. -/
def prettyMembers (level : Nat) : List (String × Json) → List Char
  | [] => newLine level ++ ['\x7d']
  | (n, v) :: r =>
    ',' :: (newLine (level + 1) ++ printString n ++ [':', ' '] ++ pretty (level + 1) v ++
      prettyMembers level r)

end

/-- `pretty` as a string. -/
def prettyText (v : Json) : String := String.ofList (pretty 0 v)

end ColorMarks.Json
