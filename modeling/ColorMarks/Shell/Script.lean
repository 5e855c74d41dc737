import ColorMarks.Text.Utf8

/-!
# Shell scripts

The commands of a shell and the words they are made of. The shell knows octets only: in its texts a
character stands for one octet.

The shell is an outer layer of the library. To the client a server is a function from what it is sent to
what it writes (`Server`), and all results are about any such function; the shell gives the program one for
a script, and nothing but the program uses it.
-/

namespace ColorMarks.Shell

/-- Text in which every character stands for one octet. -/
abbrev Raw := List Char

namespace Raw

/-- The text of some octets. -/
def ofOctets (bs : List UInt8) : Raw := bs.map fun b => Char.ofNat b.toNat

/-- The octets of a text. -/
def octets (r : Raw) : List UInt8 := r.map fun c => UInt8.ofNat c.toNat

/-- A text octet by octet. -/
def ofString (s : String) : Raw := ofOctets (Text.octets s)

/-- The text that the octets are in UTF-8. -/
def toString? (r : Raw) : Option String := Text.ofOctets? r.octets

end Raw

/-- What stands in for a parameter, and when. -/
inductive Fallback where
  /-- The word, if the parameter is missing. -/
  | instead
  /-- The word, if the parameter is missing, and the parameter is set to it. -/
  | assigned
  /-- The end of the script, if the parameter is missing. -/
  | failure
  /-- The word, if the parameter is there, and nothing if it is missing. -/
  | alternative
  deriving DecidableEq, Repr

/-- How a redirection connects a stream. -/
inductive Route where
  | input
  | output (append : Bool)
  /-- A copy of another stream, or no stream. -/
  | copy
  deriving DecidableEq, Repr

mutual

/-- A piece of a word. -/
inductive Piece where
  /-- Characters that stand for themselves, or act in patterns. -/
  | literal (chars : Raw)
  /-- Pieces whose characters only stand for themselves. -/
  | quoted (pieces : List Piece)
  /-- The value of a parameter. -/
  | parameter (name : Raw)
  /-- The length of the value of a parameter. -/
  | length (name : Raw)
  /-- The value of a parameter or a word; with `orEmpty` an empty value counts as missing. -/
  | fallback (name : Raw) (rule : Fallback) (orEmpty : Bool) (word : List Piece)
  /-- The value of a parameter without what a pattern matches at one of its ends. -/
  | trimmed (name : Raw) (atEnd longest : Bool) (pattern : List Piece)
  /-- The output of commands. -/
  | output (script : Command)
  /-- The value of an arithmetic expression. -/
  | arithmetic (expression : List Piece)

/-- A redirection of a stream. -/
inductive Redirection where
  | mk (stream : Nat) (route : Route) (target : List Piece)

/-- A command. -/
inductive Command where
  | nothing
  /-- Assignments, and words of which the first names what is to be run. -/
  | simple (assignments : List (Raw × List Piece)) (words : List (List Piece))
  | sequence (first second : Command)
  /-- The second command after success of the first. -/
  | both (first second : Command)
  /-- The second command after failure of the first. -/
  | either (first second : Command)
  | negated (c : Command)
  /-- The second command on the output of the first. -/
  | pipe (first second : Command)
  /-- A command in surroundings of its own. -/
  | subshell (c : Command)
  /-- A command that runs while the next ones run. -/
  | background (c : Command)
  | conditional (test yes no : Command)
  /-- The body as long as the test succeeds, or as long as it fails. -/
  | loop (onSuccess : Bool) (test body : Command)
  /-- The body for each of some fields, or for each argument. -/
  | each (name : Raw) (words : Option (List (List Piece))) (body : Command)
  /-- The first of some commands with a pattern that matches a word. -/
  | choice (subject : List Piece) (branches : List (List (List Piece) × Command))
  | define (name : Raw) (body : Command)
  | redirected (c : Command) (redirections : List Redirection)

end

/-- A word of a script. -/
abbrev Word := List Piece

instance : Inhabited Command := ⟨.nothing⟩

end ColorMarks.Shell
