import ColorMarks.Text.Hidden
import ColorMarks.Text.Utf8

/-!
# Quoted texts

A text between double quotes as messages and descriptions show it: quotes and backslashes are
escaped, the usual controls have a letter, and a character without a glyph of its own is shown by
its code point.
-/

namespace ColorMarks.Text

/-- One character inside quotes. -/
def quoteChar (c : Char) : List Char :=
  match c with
  | '"' => ['\\', '"']
  | '\\' => ['\\', '\\']
  | '\n' => ['\\', 'n']
  | '\r' => ['\\', 'r']
  | '\t' => ['\\', 't']
  | c =>
    if c.toNat = 0 then ['\\', '0']
    else if isHidden c then ['\\', 'u', '\x7b'] ++ hex c.toNat ++ ['\x7d']
    else [c]

/-- The text between double quotes. -/
def quote (cs : List Char) : List Char := '"' :: (cs.flatMap quoteChar ++ ['"'])

/-- `quote` on strings. -/
def quoted (s : String) : String := String.ofList (quote s.toList)

end ColorMarks.Text
