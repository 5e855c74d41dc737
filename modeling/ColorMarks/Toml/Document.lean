import ColorMarks.Toml.Reader

/-!
# Assembling TOML documents

The statements of a document make one table. A header opens a table, which takes the entries up to the
next header and is then put into its place. A table may be opened only once, and not at all if dotted
names made it; opening one that longer headers led through moves it behind the tables before it.
-/

namespace ColorMarks.Toml

/--
Changes the table that a name leads to. Missing tables on the way are made, the last table of an array
is entered, and nothing else is.
-/
def within? (change : Value → Option Value) : List String → Value → Option Value
  | [], t => change t
  | key :: rest, .table form entries =>
    match entries.lookup key with
    | none => do
      let inner ← within? change rest (.table { implicit := true } [])
      return .table form (entries ++ [(key, inner)])
    | some (.tables ts) =>
      match ts.getLast? with
      | some last => do
        let last ← within? change rest last
        return .table form (replaceEntry key (.tables (ts.dropLast ++ [last])) entries)
      | none => none
    | some (.table inner content) =>
      if inner.inBraces then none
      else do
        let t ← within? change rest (.table inner content)
        return .table form (replaceEntry key t entries)
    | some _ => none
  | _ :: _, _ => none

/-- A document being assembled. -/
structure Assembly where
  root : Value := .table {} []
  /-- The table that takes the entries. -/
  current : Value := .table {} []
  /-- The name of the current table, and whether it belongs to an array. -/
  place : Option (List String × Bool) := none

namespace Assembly

/-- Puts a finished table under the last part of its name. -/
def put? (key : String) (inArray : Bool) (t : Value) : Value → Option Value
  | .table form entries =>
    match entries.lookup key, inArray with
    | none, true => some (.table form (entries ++ [(key, .tables [t])]))
    | some (.tables ts), true => some (.table form (replaceEntry key (.tables (ts ++ [t])) entries))
    | none, false => some (.table form (entries ++ [(key, t)]))
    | some (.table inner _), false =>
      if inner.implicit then some (.table form (replaceEntry key t entries)) else none
    | some _, _ => none
  | _ => none

/-- The document with the current table put into its place. -/
def finish? (a : Assembly) : Option Value :=
  match a.place with
  | none => some a.current
  | some (name, inArray) =>
    match name.getLast? with
    | some key => within? (put? key inArray a.current) name.dropLast a.root
    | none => none

/-- The table under a key that a header may open, and the entries without it. -/
def open? (key : String) : Value → Option (Value × Value)
  | .table form entries =>
    match entries.lookup key with
    | none => some (.table {} [], .table form entries)
    | some (.table inner content) =>
      if inner.implicit && !inner.dotted && !inner.inBraces then
        some (.table {} content, .table form (entries.filter fun e => e.1 != key))
      else none
    | some _ => none
  | _ => none

/-- Whether a key is free for one more table of an array. -/
def freeForArray (key : String) : Value → Bool
  | .table _ entries =>
    match entries.lookup key with
    | none => true
    | some (.tables _) => true
    | some _ => false
  | _ => false

/-- The table that a name leads to in a document where `within?` can go there. -/
def find? : List String → Value → Option Value
  | [], t => some t
  | key :: rest, .table _ entries =>
    match entries.lookup key with
    | some (.tables ts) => ts.getLast?.bind (find? rest)
    | some t => find? rest t
    | none => none
  | _ :: _, _ => none

/-- The document after one more statement. -/
def step? (a : Assembly) : Statement → Option Assembly
  | .entry name v => do return { a with current := ← insertEntry? name v a.current }
  | .header name => do
    let root ← a.finish?
    let key ← name.getLast?
    let root ← within? some name.dropLast root
    let (current, parent) ← open? key (← find? name.dropLast root)
    let root ← within? (fun _ => some parent) name.dropLast root
    return { root, current, place := some (name, false) }
  | .arrayHeader name => do
    let root ← a.finish?
    let key ← name.getLast?
    let root ← within? some name.dropLast root
    if freeForArray key (← find? name.dropLast root) then
      return { root, current := .table {} [], place := some (name, true) }
    else none

end Assembly

/-- The table that a text describes, if it is a TOML document. -/
def parse? (text : String) : Option Value := do
  let a ← (← statements? text).foldlM Assembly.step? {}
  a.finish?

end ColorMarks.Toml
