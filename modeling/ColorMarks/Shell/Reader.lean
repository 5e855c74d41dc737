import ColorMarks.Shell.Script

/-!
# Reading shell scripts

A script is read into a command by descent. Every reader takes the text before it and returns what it
read with the text that is left, or nothing if the text has no such form. Like the other modules of the
shell, this is outer layer: only the program uses it.
-/

namespace ColorMarks.Shell

namespace Reader

/-- A character that a name begins with. -/
def isNameStart (c : Char) : Bool := c.isAlpha || c == '_'

/-- A character of a name. -/
def isNameChar (c : Char) : Bool := c.isAlphanum || c == '_'

/-- Whether a text is a name. -/
def isName (cs : Raw) : Bool :=
  match cs with
  | c :: r => isNameStart c && r.all isNameChar
  | [] => false

/-- A character that names a parameter by itself. -/
def isSpecial (c : Char) : Bool := "@*#?-$!".toList.contains c

/-- A character that ends a word. -/
def isBreak (c : Char) : Bool := " \t\n;&|<>()".toList.contains c

/-- Whether a character introduces an escape, a quoted part or an expansion between double quotes. -/
def isActive (c : Char) : Bool := ['\\', '\x22', '$', '\x60'].contains c

/-- The text after blanks and a comment. -/
def skipBlanks : Raw → Raw
  | ' ' :: r => skipBlanks r
  | '\t' :: r => skipBlanks r
  | '\\' :: '\n' :: r => skipBlanks r
  | '#' :: r => r.dropWhile (· != '\n')
  | r => r

/-- The text after blanks, comments and line ends; `inComment` holds inside a comment. -/
def skipLines (inComment : Bool) : Raw → Raw
  | '\n' :: r => skipLines false r
  | c :: r =>
    if inComment || c == ' ' || c == '\t' then skipLines inComment r
    else if c == '#' then skipLines true r
    else match c, r with
      | '\\', '\n' :: r => skipLines false r
      | _, _ => c :: r
  | [] => []

/-- Words that structure a script where a command may begin. -/
def reserved : List String :=
  ["if", "then", "elif", "else", "fi", "while", "until", "do", "done", "for", "case", "esac", "in",
    "\x7b", "\x7d", "!"]

/-- The reserved word at the beginning of a text, and what comes after it. -/
def reserved? (cs : Raw) : Option (String × Raw) :=
  let word := cs.takeWhile fun c => !isBreak c
  let name := String.ofList word
  if reserved.contains name then some (name, cs.drop word.length) else none

/-- The text after a reserved word. -/
def expect? (word : String) (cs : Raw) : Option Raw :=
  match reserved? (skipLines false cs) with
  | some (w, r) => if w == word then some r else none
  | none => none

/-- Whether no further command begins here. -/
def isListEnd (cs : Raw) : Bool :=
  match cs with
  | [] => true
  | ')' :: _ => true
  | ';' :: _ => true
  | _ =>
    match reserved? cs with
    | some (w, _) => ["then", "elif", "else", "fi", "do", "done", "esac", "\x7d"].contains w
    | none => false

/-- The name of a parameter in braces. -/
def bracedName? (cs : Raw) : Option (Raw × Raw) :=
  match cs with
  | c :: r =>
    if isNameStart c then some (cs.takeWhile isNameChar, cs.dropWhile isNameChar)
    else if c.isDigit then some (cs.takeWhile Char.isDigit, cs.dropWhile Char.isDigit)
    else if isSpecial c then some ([c], r)
    else none
  | [] => none

/-- What ends a run of pieces. -/
inductive Ending where
  /-- The end of a word. -/
  | word
  /-- A double quote. -/
  | quote
  /-- A closing brace; quotes may be literal because the brace stands between double quotes. -/
  | brace (literalQuotes : Bool)
  /-- One closing parenthesis, inside of an arithmetic expression. -/
  | parenthesis
  /-- Two closing parentheses. -/
  | parentheses
  deriving DecidableEq

namespace Ending

/-- Whether a backslash escapes only few characters and a single quote stands for itself. -/
def isSoft : Ending → Bool
  | word => false
  | quote => true
  | brace literalQuotes => literalQuotes
  | parenthesis => true
  | parentheses => true

/-- Whether an opening parenthesis before this ending has a closing one of its own. -/
def isNesting : Ending → Bool
  | parenthesis => true
  | parentheses => true
  | _ => false

/-- The text after the ending, if the text begins with it. -/
def after? (e : Ending) (cs : Raw) : Option Raw :=
  match e, cs with
  | word, [] => some []
  | word, c :: r => if isBreak c then some (c :: r) else none
  | quote, '\x22' :: r => some r
  | brace _, '}' :: r => some r
  | parenthesis, ')' :: r => some r
  | parentheses, ')' :: ')' :: r => some r
  | _, _ => none

/-- Whether a character stands for itself before this ending. -/
def isLiteral (e : Ending) (c : Char) : Bool :=
  match e with
  | word => !isActive c && !isBreak c && c != '\x27'
  | quote => !isActive c
  | brace literalQuotes => !isActive c && c != '}' && (literalQuotes || c != '\x27')
  | parenthesis => !isActive c && c != '(' && c != ')'
  | parentheses => !isActive c && c != '(' && c != ')'

end Ending

/-- The text between backquotes with its escapes undone, and what comes after it. -/
def backquoted : Raw → Raw → Option (Raw × Raw)
  | acc, '\x60' :: r => some (acc.reverse, r)
  | acc, '\\' :: c :: r =>
    if ['\x60', '\\', '$'].contains c then backquoted (c :: acc) r
    else backquoted (c :: '\\' :: acc) r
  | acc, c :: r => backquoted (c :: acc) r
  | _, [] => none

/-- What a parameter in braces may be followed by. -/
inductive Modifier where
  | fallback (rule : Fallback) (orEmpty : Bool)
  | trim (atEnd longest : Bool)

/-- The modifier at the beginning of a text. -/
def modifier? (cs : Raw) : Option (Modifier × Raw) :=
  match cs with
  | ':' :: c :: r => (rule? c).map fun rule => (.fallback rule true, r)
  | '#' :: '#' :: r => some (.trim false true, r)
  | '#' :: r => some (.trim false false, r)
  | '%' :: '%' :: r => some (.trim true true, r)
  | '%' :: r => some (.trim true false, r)
  | c :: r => (rule? c).map fun rule => (.fallback rule false, r)
  | [] => none
where
  /-- The fallback of a sign. -/
  rule? : Char → Option Fallback
    | '-' => some .instead
    | '=' => some .assigned
    | '?' => some .failure
    | '+' => some .alternative
    | _ => none

/-- A redirection sign with the stream it is about. -/
def redirectionSign? (cs : Raw) : Option ((Nat × Route) × Raw) :=
  let (stream, r) : Option Nat × Raw := match cs with
    | c :: d :: r =>
      if c.isDigit && (d == '<' || d == '>') then (some (c.toNat - '0'.toNat), d :: r)
      else (none, cs)
    | _ => (none, cs)
  match r with
  | '>' :: '>' :: r => some ((stream.getD 1, .output true), r)
  | '>' :: '&' :: r => some ((stream.getD 1, .copy), r)
  | '>' :: '|' :: r => some ((stream.getD 1, .output false), r)
  | '>' :: r => some ((stream.getD 1, .output false), r)
  | '<' :: '&' :: r => some ((stream.getD 0, .copy), r)
  | '<' :: '<' :: _ => none
  | '<' :: r => some ((stream.getD 0, .input), r)
  | _ => none

/-- The name of an assignment, and the text after its equals sign. -/
def assignmentName? (cs : Raw) : Option (Raw × Raw) :=
  let name := cs.takeWhile isNameChar
  match cs.drop name.length with
  | '=' :: r => if isName name then some (name, r) else none
  | _ => none

/-- The name of a function that is defined here, and the text after its parentheses. -/
def functionName? (cs : Raw) : Option (Raw × Raw) :=
  let name := cs.takeWhile isNameChar
  if isName name then
    match skipBlanks (cs.drop name.length) with
    | '(' :: r =>
      match skipBlanks r with
      | ')' :: r => some (name, r)
      | _ => none
    | _ => none
  else none

mutual

/-- The pieces up to an ending, which is taken as well, except for the end of a word. -/
def pieces : Nat → Ending → Raw → Option (List Piece × Raw)
  | 0, _, _ => none
  | fuel + 1, ending, cs =>
    match ending.after? cs with
    | some r => some ([], r)
    | none => do
      let (p, r) ← piece fuel ending cs
      let (ps, r) ← pieces fuel ending r
      return (p ++ ps, r)

/-- The next piece before an ending. -/
def piece : Nat → Ending → Raw → Option (List Piece × Raw)
  | 0, _, _ => none
  | fuel + 1, ending, cs =>
    match cs with
    | [] => none
    | '\\' :: '\n' :: r => some ([], r)
    | '\\' :: c :: r =>
      if ending.isSoft && !isActive c then
        some ([.quoted [.literal ['\\', c]]], r)
      else some ([.quoted [.literal [c]]], r)
    | '\x22' :: r => do
      let (ps, r) ← pieces fuel .quote r
      return ([.quoted ps], r)
    | '$' :: r => do
      let (p, r) ← dollar fuel ending.isSoft r
      return ([p], r)
    | '\x60' :: r => do
      let (script, r) ← backquoted [] r
      let (c, _) ← list fuel script
      return ([.output c], r)
    | c :: r =>
      if c == '\x27' && !ending.isSoft then
        match r.dropWhile (· != '\x27') with
        | _ :: rest => some ([.quoted [.literal (r.takeWhile (· != '\x27'))]], rest)
        | [] => none
      else if ending.isNesting && c == '(' then do
        let (ps, r) ← pieces fuel .parenthesis r
        return (.literal ['('] :: ps ++ [.literal [')']], r)
      else if ending.isLiteral c then
        some ([.literal (c :: r.takeWhile ending.isLiteral)], r.dropWhile ending.isLiteral)
      else some ([.literal [c]], r)

/-- What follows a dollar sign; `isSoft` holds between double quotes. -/
def dollar : Nat → Bool → Raw → Option (Piece × Raw)
  | 0, _, _ => none
  | fuel + 1, isSoft, cs =>
    match cs with
    | '(' :: '(' :: r => do
      let (ps, r) ← pieces fuel .parentheses r
      return (.arithmetic ps, r)
    | '(' :: r => do
      let (c, r) ← list fuel r
      match skipLines false r with
      | ')' :: r => return (.output c, r)
      | _ => none
    | '{' :: '#' :: '}' :: r => some (.parameter ['#'], r)
    | '{' :: '#' :: r =>
      match bracedName? r with
      | some (name, '}' :: r) => some (.length name, r)
      | _ => none
    | '{' :: r => do
      let (name, r) ← bracedName? r
      match r with
      | '}' :: r => return (.parameter name, r)
      | _ =>
        match ← modifier? r with
        | (.fallback rule orEmpty, r) =>
          let (word, r) ← pieces fuel (.brace isSoft) r
          return (.fallback name rule orEmpty word, r)
        | (.trim atEnd longest, r) =>
          let (word, r) ← pieces fuel (.brace false) r
          return (.trimmed name atEnd longest word, r)
    | c :: r =>
      if isNameStart c then some (.parameter (cs.takeWhile isNameChar), cs.dropWhile isNameChar)
      else if c.isDigit || isSpecial c then some (.parameter [c], r)
      else some (.literal ['$'], cs)
    | [] => some (.literal ['$'], [])

/-- A word, after blanks. -/
def word : Nat → Raw → Option (Word × Raw)
  | 0, _ => none
  | fuel + 1, cs =>
    match skipBlanks cs with
    | [] => none
    | c :: r => if isBreak c then none else pieces fuel .word (c :: r)

/-- As many words as there are. -/
def words : Nat → Raw → Option (List Word × Raw)
  | 0, _ => none
  | fuel + 1, cs =>
    match word fuel cs with
    | some (w, r) => (words fuel r).map fun (ws, r) => (w :: ws, r)
    | none => some ([], skipBlanks cs)

/-- The redirections after a command. -/
def redirections : Nat → Raw → Option (List Redirection × Raw)
  | 0, _ => none
  | fuel + 1, cs =>
    match redirectionSign? (skipBlanks cs) with
    | some ((stream, route), r) => do
      let (target, r) ← word fuel r
      let (rest, r) ← redirections fuel r
      return (.mk stream route target :: rest, r)
    | none => some ([], skipBlanks cs)

/-- Commands up to where no further one begins. -/
def list : Nat → Raw → Option (Command × Raw)
  | 0, _ => none
  | fuel + 1, cs =>
    let cs := skipLines false cs
    if isListEnd cs then some (.nothing, cs)
    else do
      let (c, r) ← chain fuel cs
      match skipBlanks r with
      | ';' :: ';' :: r => return (c, ';' :: ';' :: r)
      | ';' :: r => continued fuel c r
      | '\n' :: r => continued fuel c r
      | '&' :: r => continued fuel (.background c) r
      | r => return (c, r)

/-- A command and the list after it. -/
def continued : Nat → Command → Raw → Option (Command × Raw)
  | 0, _, _ => none
  | fuel + 1, c, cs => do
    let (rest, r) ← list fuel cs
    match rest with
    | .nothing => return (c, r)
    | rest => return (.sequence c rest, r)

/-- Pipelines that depend on each other's success. -/
def chain : Nat → Raw → Option (Command × Raw)
  | 0, _ => none
  | fuel + 1, cs => do
    let (c, r) ← pipeline fuel cs
    chained fuel c r

/-- What depends on the success of a command. -/
def chained : Nat → Command → Raw → Option (Command × Raw)
  | 0, _, _ => none
  | fuel + 1, c, cs =>
    match skipBlanks cs with
    | '&' :: '&' :: r => do
      let (d, r) ← pipeline fuel (skipLines false r)
      chained fuel (.both c d) r
    | '|' :: '|' :: r => do
      let (d, r) ← pipeline fuel (skipLines false r)
      chained fuel (.either c d) r
    | r => some (c, r)

/-- Commands on each other's output. -/
def pipeline : Nat → Raw → Option (Command × Raw)
  | 0, _ => none
  | fuel + 1, cs =>
    match reserved? (skipBlanks cs) with
    | some ("!", r) => do
      let (c, r) ← pipeline fuel r
      return (.negated c, r)
    | _ => do
      let (c, r) ← command fuel (skipBlanks cs)
      piped fuel c r

/-- The commands on the output of a command. -/
def piped : Nat → Command → Raw → Option (Command × Raw)
  | 0, _, _ => none
  | fuel + 1, c, cs =>
    match skipBlanks cs with
    | '|' :: '|' :: r => some (c, '|' :: '|' :: r)
    | '|' :: r => do
      let (d, r) ← command fuel (skipLines false r)
      piped fuel (.pipe c d) r
    | r => some (c, r)

/-- A command with its redirections. -/
def command : Nat → Raw → Option (Command × Raw)
  | 0, _ => none
  | fuel + 1, cs =>
    match cs with
    | '(' :: r => do
      let (c, r) ← list fuel r
      match skipLines false r with
      | ')' :: r => redirectedCommand fuel (.subshell c) r
      | _ => none
    | _ =>
      match reserved? cs with
      | some (w, r) => do
        let (c, r) ← compound fuel w r
        redirectedCommand fuel c r
      | none =>
        match functionName? cs with
        | some (name, r) => do
          let (body, r) ← command fuel (skipLines false r)
          return (.define name body, r)
        | none => simple fuel cs [] [] []

/-- A command with the redirections after it. -/
def redirectedCommand : Nat → Command → Raw → Option (Command × Raw)
  | 0, _, _ => none
  | fuel + 1, c, cs => do
    let (rs, r) ← redirections fuel cs
    return (if rs.isEmpty then c else .redirected c rs, r)

/-- A simple command; what was read of it comes last first. -/
def simple : Nat → Raw → List (Raw × Word) → List Word → List Redirection → Option (Command × Raw)
  | 0, _, _, _, _ => none
  | fuel + 1, cs, assignments, ws, rs =>
    let cs := skipBlanks cs
    match redirectionSign? cs with
    | some ((stream, route), r) => do
      let (target, r) ← word fuel r
      simple fuel r assignments ws (.mk stream route target :: rs)
    | none =>
      match if ws.isEmpty then assignmentName? cs else none with
      | some (name, r) => do
        let (value, r) ← pieces fuel .word r
        simple fuel r ((name, value) :: assignments) ws rs
      | none =>
        match word fuel cs with
        | some (w, r) => simple fuel r assignments (w :: ws) rs
        | none =>
          if assignments.isEmpty && ws.isEmpty && rs.isEmpty then none
          else
            let c := Command.simple assignments.reverse ws.reverse
            some (if rs.isEmpty then c else .redirected c rs.reverse, cs)

/-- A command that begins with a reserved word. -/
def compound : Nat → String → Raw → Option (Command × Raw)
  | 0, _, _ => none
  | fuel + 1, w, cs =>
    match w with
    | "\x7b" => do
      let (c, r) ← list fuel cs
      return (c, ← expect? "\x7d" r)
    | "if" => branches fuel cs
    | "while" => repetition fuel true cs
    | "until" => repetition fuel false cs
    | "for" => do
      let cs := skipBlanks cs
      let name := cs.takeWhile isNameChar
      let r := cs.drop name.length
      if !isName name then none
      else match expect? "in" r with
        | some r => do
          let (ws, r) ← words fuel r
          iteration fuel name (some ws) r
        | none => iteration fuel name none r
    | "case" => do
      let (subject, r) ← word fuel cs
      let (bs, r) ← cases fuel (← expect? "in" r)
      return (.choice subject bs, r)
    | _ => none

/-- A condition with its branches, up to the end of all. -/
def branches : Nat → Raw → Option (Command × Raw)
  | 0, _ => none
  | fuel + 1, cs => do
    let (test, r) ← list fuel cs
    let (yes, r) ← list fuel (← expect? "then" r)
    match reserved? (skipLines false r) with
    | some ("fi", r) => return (.conditional test yes .nothing, r)
    | some ("else", r) =>
      let (no, r) ← list fuel r
      return (.conditional test yes no, ← expect? "fi" r)
    | some ("elif", r) =>
      let (no, r) ← branches fuel r
      return (.conditional test yes no, r)
    | _ => none

/-- A loop after its first word. -/
def repetition : Nat → Bool → Raw → Option (Command × Raw)
  | 0, _, _ => none
  | fuel + 1, onSuccess, cs => do
    let (test, r) ← list fuel cs
    let (body, r) ← list fuel (← expect? "do" r)
    return (.loop onSuccess test body, ← expect? "done" r)

/-- The body of a loop over words. -/
def iteration : Nat → Raw → Option (List Word) → Raw → Option (Command × Raw)
  | 0, _, _, _ => none
  | fuel + 1, name, ws, cs => do
    let r := match skipBlanks cs with
      | ';' :: r => r
      | r => r
    let (body, r) ← list fuel (← expect? "do" r)
    return (.each name ws body, ← expect? "done" r)

/-- The branches of a choice, up to its end. -/
def cases : Nat → Raw → Option (List (List Word × Command) × Raw)
  | 0, _ => none
  | fuel + 1, cs =>
    match expect? "esac" cs with
    | some r => some ([], r)
    | none => do
      let cs := match skipLines false cs with
        | '(' :: r => r
        | r => r
      let (ps, r) ← patterns fuel cs
      let (body, r) ← list fuel r
      match skipLines false r with
      | ';' :: ';' :: r =>
        let (rest, r) ← cases fuel r
        return ((ps, body) :: rest, r)
      | r => return ([(ps, body)], ← expect? "esac" r)

/-- The patterns of a branch and the parenthesis after them. -/
def patterns : Nat → Raw → Option (List Word × Raw)
  | 0, _ => none
  | fuel + 1, cs => do
    let (p, r) ← word fuel cs
    match skipBlanks r with
    | '|' :: r =>
      let (ps, r) ← patterns fuel r
      return (p :: ps, r)
    | ')' :: r => return ([p], r)
    | _ => none

end

/-- A text that is long enough for every reader. -/
def bound (cs : Raw) : Nat := 16 * cs.length + 64

end Reader

/-- The command of a whole script. -/
def Command.ofScript? (cs : Raw) : Option Command :=
  match Reader.list (Reader.bound cs) cs with
  | some (c, r) => if (Reader.skipLines false r).isEmpty then some c else none
  | none => none

end ColorMarks.Shell
