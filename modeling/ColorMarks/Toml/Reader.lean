import ColorMarks.Toml.Lexeme

/-!
# Reading TOML

A document is a list of statements: an entry, or the header of a table or of one more table of an
array. `Toml.statements?` reads them; what they say together is for the module that assembles tables.
-/

namespace ColorMarks.Toml

/-- A character of a bare name. -/
def isNameChar (c : Char) : Bool := c.isAlphanum || c == '_' || c == '-'

/-- One part of a name: bare, or a string on one line. -/
def readNamePart? (cs : List Char) : Option (String × List Char) :=
  match cs with
  | '"' :: r => (readBasic [] r).map fun (s, r) => (String.ofList s, r)
  | '\'' :: r => (readLiteral r).map fun (s, r) => (String.ofList s, r)
  | cs =>
    let name := cs.takeWhile isNameChar
    if name.isEmpty then none else some (String.ofList name, cs.dropWhile isNameChar)

/-- The parts of a name with dots between them; the first argument bounds their number. -/
def readNameParts? : Nat → List Char → Option (List String × List Char)
  | 0, _ => none
  | fuel + 1, cs => do
    let (part, cs) ← readNamePart? (skipGap cs)
    match skipGap cs with
    | '.' :: r =>
      let (parts, r) ← readNameParts? fuel r
      return (part :: parts, r)
    | r => return ([part], r)

/-- How deep values and names may be nested. -/
def maxDepth : Nat := 80

/-- A name of any number of parts. -/
def readName? (cs : List Char) : Option (List String × List Char) := readNameParts? maxDepth cs

/-! ## Tables in braces -/

/--
The table with one more entry under a name. On the way only tables may be entered that no header named,
and the last table of an array; the table that takes the entry has to be made by dotted names, unless
it is the outermost one. No name may be given twice.
-/
def insertEntry? (name : List String) (v : Value) : Value → Option Value
  | .table form entries =>
    match name with
    | [] => none
    | [key] =>
      if (entries.lookup key).isSome then none else some (.table form (entries ++ [(key, v)]))
    | key :: rest =>
      match entries.lookup key with
      | none => do
        let made : TableForm := { inBraces := form.inBraces, implicit := true, dotted := true }
        let inner ← insertEntry? rest v (.table made [])
        return .table form (entries ++ [(key, inner)])
      | some (.table inner content) =>
        if inner.implicit && (rest.length != 1 || inner.dotted) then do
          let inner ← insertEntry? rest v (.table inner content)
          return .table form (replaceEntry key inner entries)
        else none
      | some (.tables ts) =>
        match ts.getLast? with
        | some last =>
          if rest.length = 1 then none
          else do
            let last ← insertEntry? rest v last
            return .table form (replaceEntry key (.tables (ts.dropLast ++ [last])) entries)
        | none => none
      | some _ => none
  | _ => none

/-- The table in braces of these entries. -/
def inlineTable? (entries : List (List String × Value)) : Option Value :=
  entries.foldlM (fun t e => insertEntry? e.1 e.2 t) (.table { inBraces := true } [])

/-! ## Values -/

/-- Items between commas up to a closing bracket; the first argument bounds their number. -/
def readItems (value : List Char → Option (Value × List Char)) :
    Nat → List Char → Option (List Value × List Char)
  | 0, _ => none
  | fuel + 1, cs => do
    match skipLines cs.length cs with
    | ']' :: r => return ([], r)
    | cs =>
      let (v, cs) ← value cs
      match skipLines cs.length cs with
      | ',' :: r =>
        let (vs, r) ← readItems value fuel r
        return (v :: vs, r)
      | ']' :: r => return ([v], r)
      | _ => none

/-- A name, an equals sign and a value. -/
def readEntry? (value : List Char → Option (Value × List Char)) (cs : List Char) :
    Option ((List String × Value) × List Char) := do
  let (name, cs) ← readName? cs
  match cs with
  | '=' :: r =>
    let (v, r) ← value (skipGap r)
    return ((name, v), r)
  | _ => none

/-- One or more entries between commas up to a closing brace; the first argument bounds them. -/
def readEntries (value : List Char → Option (Value × List Char)) :
    Nat → List Char → Option (List (List String × Value) × List Char)
  | 0, _ => none
  | fuel + 1, cs => do
    let (e, cs) ← readEntry? value cs
    match skipGap cs with
    | ',' :: r =>
      let (es, r) ← readEntries value fuel r
      return (e :: es, r)
    | '\x7d' :: r => return ([e], r)
    | _ => none

/-- A value that is no array and no table. -/
def readScalar? (cs : List Char) : Option (Value × List Char) :=
  match cs with
  | '"' :: _ => (readString? cs).map fun (s, r) => (.string s, r)
  | '\'' :: _ => (readString? cs).map fun (s, r) => (.string s, r)
  | 't' :: _ => (Text.after? ['t', 'r', 'u', 'e'] cs).map fun r => (.boolean true, r)
  | 'f' :: _ => (Text.after? ['f', 'a', 'l', 's', 'e'] cs).map fun r => (.boolean false, r)
  | cs => (readDatetime? cs).orElse fun _ => (readFloat? cs).orElse fun _ => readInteger? cs

/-- A value in which at most `depth` arrays and tables contain each other. -/
def readValue : Nat → List Char → Option (Value × List Char)
  | 0, cs =>
    match cs with
    | '[' :: _ => none
    | '\x7b' :: _ => none
    | cs => readScalar? cs
  | depth + 1, cs =>
    match cs with
    | '[' :: r => (readItems (readValue depth) (r.length + 1) r).map fun (vs, r) => (.array vs, r)
    | '\x7b' :: r =>
      match skipGap r with
      | '\x7d' :: r => some (.table { inBraces := true } [], r)
      | r => do
        let (entries, r) ← readEntries (readValue depth) (r.length + 1) r
        return (← inlineTable? entries, r)
    | cs => readScalar? cs

/-! ## Statements -/

/-- A line of a document. -/
inductive Statement where
  | entry (name : List String) (v : Value)
  | header (name : List String)
  | arrayHeader (name : List String)
  deriving Repr

/-- One statement, to the end of its line. -/
def readStatement? (cs : List Char) : Option (Statement × List Char) := do
  match cs with
  | '[' :: '[' :: r =>
    let (name, r) ← readName? r
    return (.arrayHeader name, ← lineEnd? (← Text.after? [']', ']'] r))
  | '[' :: r =>
    let (name, r) ← readName? r
    return (.header name, ← lineEnd? (← Text.after? [']'] r))
  | cs =>
    let ((name, v), r) ← readEntry? (readValue maxDepth) cs
    return (.entry name v, ← lineEnd? r)

/-- All statements of a text; the first argument bounds their number. -/
def readStatements : Nat → List Char → Option (List Statement)
  | 0, _ => none
  | fuel + 1, cs =>
    match skipGap cs with
    | [] => some []
    | '#' :: r => do readStatements fuel (← lineEnd? ('#' :: r))
    | cs =>
      match newline? cs with
      | some r => readStatements fuel r
      | none => do
        let (s, r) ← readStatement? cs
        return s :: (← readStatements fuel r)

/-- The statements of a document; a byte order mark at its beginning does not count. -/
def statements? (text : String) : Option (List Statement) :=
  let cs := match text.toList with
    | '\ufeff' :: r => r
    | r => r
  readStatements (cs.length + 1) cs

end ColorMarks.Toml
