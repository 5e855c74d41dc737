import ColorMarks.Shell.Format
import ColorMarks.Shell.Machine
import ColorMarks.Text.Split

/-!
# Utilities

The commands that are not scripts themselves. Each takes its arguments, reads and writes the streams of
the machine, and leaves a status. Like the other modules of the shell, this is outer layer: only the
program uses it.
-/

namespace ColorMarks.Shell

open Act

/-- What a command does with its arguments. -/
abbrev Utility := List Raw → Act Unit

namespace Utility

/-- A natural number in an argument. -/
def natural? (cs : Raw) : Option Nat := Text.digits? cs

/-- A text as a path. -/
def path (cs : Raw) : String := (Raw.toString? cs).getD ""

/-- Writes its arguments between blanks, with escapes replaced; a first `-n` leaves out the line end. -/
def echo : Utility := fun args => do
  let (args, lineEnd) : List Raw × Raw := match args with
    | ['-', 'n'] :: args => (args, [])
    | args => (args, ['\n'])
  let (cs, ends) := Format.unescape .argument (Text.joined ' ' args)
  emit (if ends then cs else cs ++ lineEnd)
  finish 0

/-- Writes a format with its arguments. -/
def printf : Utility := fun args => do
  let args := if args.head? == some ['-', '-'] then args.tail else args
  match args with
  | format :: args =>
    emit (Format.formatted format args)
    finish 0
  | [] => finish 2

/-- Whether a character is a blank. -/
def isSpace (c : Char) : Bool := c == ' ' || c == '\t' || c == '\n'

/-- A line cut into one text for each name; the last takes all that is left. -/
def cutLine (separators : Raw) : List Raw → Raw → List (Raw × Raw)
  | [], _ => []
  | [name], line =>
    let isIdle (c : Char) : Bool := isSpace c && separators.contains c
    [(name, ((line.dropWhile isIdle).reverse.dropWhile isIdle).reverse)]
  | name :: names, line =>
    let isIdle (c : Char) : Bool := isSpace c && separators.contains c
    let line := line.dropWhile isIdle
    let taken := line.takeWhile fun c => !separators.contains c
    let rest := (line.drop taken.length).dropWhile isIdle
    let rest := match rest with
      | c :: r => if separators.contains c && !isIdle c then r else rest
      | [] => []
    (name, taken) :: cutLine separators names rest

/-- A line without its escapes. -/
def withoutEscapes : Raw → Raw
  | '\\' :: c :: r => c :: withoutEscapes r
  | ['\\'] => []
  | c :: r => c :: withoutEscapes r
  | [] => []

/-- Reads a line into variables; fails at the end of the stream. -/
def readInto : Utility := fun args => do
  let isRaw := args.any fun a => a.head? == some '-' && a.contains 'r'
  let names := args.filter fun a => a.head? != some '-'
  let (line, isComplete) ← readLine
  let line := line.filter (· != '\x00')
  let line := if isRaw then line else withoutEscapes line
  modify fun m => (cutLine m.separators names line).foldl (fun m (n, v) => m.setVariable n v) m
  succeed isComplete

/-- A time in milliseconds, from a number of seconds with a unit behind it. -/
def duration? (cs : Raw) : Option Nat := do
  let (number, unit) := match cs.getLast? with
    | some 's' => (cs.dropLast, 1)
    | some 'm' => (cs.dropLast, 60)
    | some 'h' => (cs.dropLast, 3600)
    | some 'd' => (cs.dropLast, 86400)
    | _ => (cs, 1)
  let (whole, part) := (Text.cut? '.' number).getD (number, [])
  let wholeSeconds ← if whole.isEmpty && !part.isEmpty then some 0 else natural? whole
  let thousandths ← natural? ((part ++ ['0', '0', '0']).take 3)
  return (wholeSeconds * 1000 + thousandths) * unit

/-- Lets time pass. -/
def sleep : Utility := fun args =>
  match args.mapM duration? with
  | some (d :: ds) => do
    waitUntil (ds.foldl (· + ·) ((← get).clock + d))
    finish 0
  | _ => finish 1

/-- Writes files, or what is read. -/
def cat : Utility := fun args => do
  if args.isEmpty || args == [['-']] then
    finish 0
    forEachText emit
  else if args.any fun a => a.head? == some '-' then finish 1
  else
    finish 0
    for a in args do
      match openFile? (← get) (path a) with
      | some s => s.coming.forM fun (_, cs) => emit cs
      | none => finish 1

/-- The value of an operand of the form `name=value`. -/
def operand? (name : String) (args : List Raw) : Option Raw :=
  args.findSome? fun a => Text.after? (name ++ "=").toList a

/-- Reads in blocks, at most so many. -/
def readBlocks (size : Nat) : Nat → Act (List Raw)
  | 0 => return []
  | count + 1 => do
    let block ← readSome size
    if block.isEmpty then return []
    else return block :: (← readBlocks size count)

/-- Reads so many characters, or up to the end. The second argument bounds the readings. -/
def readFully : Nat → Nat → Act (List Raw)
  | 0, _ => return []
  | _, 0 => return []
  | fuel + 1, size => do
    let block ← readSome size
    if block.isEmpty then return []
    else return block :: (← readFully fuel (size - block.length))

/-- Copies blocks. -/
def copyBlocks : Utility := fun args => do
  let number (name : String) : Option Nat := (operand? name args).bind natural?
  let size := (number "bs").getD 512
  let isWhole := operand? "iflag" args == some "fullblock".toList
  let copy : Act Unit := do
    match number "count" with
    | some count =>
      let blocks ← if isWhole then readFully (size * count) (size * count) else readBlocks size count
      emit blocks.flatten
    | none => forEachText emit
    finish 0
  match operand? "if" args with
  | none => copy
  | some file =>
    match openFile? (← get) (path file) with
    | some s => onInput (some s) copy
    | none => finish 1

/-- The number that an option gives, in its own argument or in the next one. -/
def optionNumber? (letter : Char) : List Raw → Option Nat
  | [] => none
  | a :: args =>
    match a, args with
    | ['-', c], n :: _ => if c == letter then natural? n else optionNumber? letter args
    | '-' :: c :: n, _ => if c == letter then natural? n else optionNumber? letter args
    | _, _ => optionNumber? letter args

/-- Copies so many lines. -/
def copyLines : Nat → Act Unit
  | 0 => return ()
  | n + 1 => do
    let (line, isComplete) ← readLine
    if isComplete then
      emit (line ++ ['\n'])
      copyLines n
    else emit line

/-- Copies the beginning of a stream. -/
def head : Utility := fun args => do
  match optionNumber? 'c' args with
  | some n => emit (← readFully n n).flatten
  | none => copyLines ((optionNumber? 'n' args).getD 10)
  finish 0

/-- The characters between two, both included. -/
def charRange (a b : Char) : Raw :=
  (List.range (b.toNat + 1 - a.toNat)).map fun n => Char.ofNat (a.toNat + n)

/-- The characters of a set with ranges in it. -/
def charSet : Raw → Raw
  | a :: '-' :: b :: r => charRange a b ++ charSet r
  | c :: r => c :: charSet r
  | [] => []

/-- Replaces or removes characters. -/
def translate : Utility := fun args => do
  let set (cs : Raw) : Raw := charSet (Format.unescape .format cs).1
  finish 0
  match args with
  | [['-', 'd'], unwanted] => forEachText fun cs => emit (cs.filter fun c => !(set unwanted).contains c)
  | [before, after] =>
    let target := set after
    let pairs := (set before).zipIdx.map fun (c, i) => (c, (target[i]?).getD (target.getLastD c))
    forEachText fun cs => emit (cs.map fun c => (pairs.lookup c).getD c)
  | _ => finish 1

/-- Counts characters or lines up to the end. -/
def count : Utility := fun args => do
  let texts ← readAll
  let n := if args.contains ['-', 'l'] then (texts.filter (· == '\n')).length else texts.length
  emit ((toString n).toList ++ ['\n'])
  finish 0
where
  /-- All that is read up to the end. -/
  readAll : Act Raw := do
    let m ← get
    if m.input.isEnded then
      let coming := m.input.coming
      set { m with
        input := { m.input with coming := [] }, clock := max m.clock (Stream.lastTime coming) }
      return coming.flatMap Prod.snd
    else throw .blocked

/-- Writes the directory. -/
def printDirectory : Utility := fun _ => do
  emit (Raw.ofString (← get).directory ++ ['\n'])
  finish 0

/-- Changes the directory. -/
def changeDirectory : Utility := fun args => do
  let m ← get
  let target := path ((args.filter fun a => a.head? != some '-').headD [])
  match m.files.resolve m.directory target with
  | .ok place =>
    if m.files.node? place == some .directory then
      set { m with directory := FileTree.pathOf place, status := 0 }
    else finish 2
  | .error _ => finish 2

/-- Whether a test with one operand holds. -/
def unaryTest? (m : Machine) (op operand : Raw) : Option Bool :=
  let node? := match m.files.resolve m.directory (path operand) with
    | .ok place => m.files.node? place
    | .error _ => none
  match String.ofList op with
  | "-n" => some (!operand.isEmpty)
  | "-z" => some operand.isEmpty
  | "-e" => some node?.isSome
  | "-r" => some node?.isSome
  | "-f" => some (node? matches some (.file _ _))
  | "-d" => some (node? matches some .directory)
  | "-x" => some (node? matches some (.file _ true) || node? matches some .directory)
  | "-s" => some (node? matches some (.file (_ :: _) _))
  | "-t" => some false
  | _ => none

/-- Whether a test with two operands holds. -/
def binaryTest? (a op b : Raw) : Option Bool :=
  let compare (f : Int → Int → Bool) : Option Bool := do
    return f (← Text.int64? a) (← Text.int64? b)
  match String.ofList op with
  | "=" => some (a == b)
  | "!=" => some (a != b)
  | "-eq" => compare (· == ·)
  | "-ne" => compare (· != ·)
  | "-lt" => compare (· < ·)
  | "-le" => compare (· ≤ ·)
  | "-gt" => compare (· > ·)
  | "-ge" => compare (· ≥ ·)
  | _ => none

/-- Whether a test holds, if it is one. -/
def test? (m : Machine) : List Raw → Option Bool
  | [] => some false
  | [a] => some (!a.isEmpty)
  | [op, a] => if op == ['!'] then some a.isEmpty else unaryTest? m op a
  | a :: op :: b :: rest =>
    match binaryTest? a op b with
    | some r =>
      match rest with
      | [] => some r
      | ['-', 'a'] :: more => (test? m more).map (r && ·)
      | ['-', 'o'] :: more => (test? m more).map (r || ·)
      | _ => none
    | none =>
      if a == ['!'] then (test? m (op :: b :: rest)).map (!·)
      else if b == ['-', 'a'] then do
        let r ← unaryTest? m a op
        return r && (← test? m rest)
      else if b == ['-', 'o'] then do
        let r ← unaryTest? m a op
        return r || (← test? m rest)
      else none

/-- Tests; a test that is none has a status of its own. -/
def test : Utility := fun args => do
  match test? (← get) args with
  | some r => succeed r
  | none => finish 2

/-- Tests between brackets. -/
def bracketTest : Utility := fun args =>
  if args.getLast? == some [']'] then test args.dropLast else finish 2

/-- Ends the shell that it is sent to. -/
def kill : Utility := fun args =>
  if args.contains (toString Machine.processId).toList then exitWith 143 else finish 1

/-- The utilities by name. -/
def table : List (String × Utility) := [
  (":", fun _ => finish 0), ("true", fun _ => finish 0), ("false", fun _ => finish 1),
  ("echo", echo), ("printf", printf), ("read", readInto), ("sleep", sleep), ("cat", cat),
  ("dd", copyBlocks), ("head", head), ("tr", translate), ("wc", count), ("pwd", printDirectory),
  ("cd", changeDirectory), ("test", test), ("[", bracketTest), ("kill", kill)]

/-- The utility of a name; it may be named by its place. -/
def named? (name : Raw) : Option Utility :=
  let plain := (["/usr/bin/", "/bin/"].findSome? fun dir => Text.after? dir.toList name).getD name
  table.lookup (String.ofList plain)

/-- The name and the value of an assignment in an argument. -/
def assignment (arg : Raw) : Raw × Option Raw :=
  match Text.cut? '=' arg with
  | some (name, value) => (name, some value)
  | none => (arg, none)

/-- Sets the variables that are given a value. -/
def assign : Utility := fun args => do
  for a in args do
    if let (name, some value) := assignment a then modify (·.setVariable name value)
  finish 0

/-- Sets variables until the function ends. -/
def assignLocally : Utility := fun args => do
  for a in args do
    let (name, value) := assignment a
    modify fun m =>
      let m := { m with shadowed := (name, m.value? name) :: m.shadowed }
      match value with
      | some v => m.setVariable name v
      | none => m
  finish 0

/-- Sets options or the arguments. -/
def setOptions : Nat → Utility
  | 0, _ => finish 0
  | _, [] => finish 0
  | fuel + 1, a :: args =>
    match a with
    | ['-', '-'] => do
      modify fun m => { m with arguments := args }
      finish 0
    | '-' :: letters => do
      if letters.contains 'u' then modify fun m => { m with isStrict := true }
      setOptions fuel (if letters.contains 'o' then args.tail else args)
    | '+' :: letters => do
      if letters.contains 'u' then modify fun m => { m with isStrict := false }
      setOptions fuel (if letters.contains 'o' then args.tail else args)
    | _ => do
      modify fun m => { m with arguments := a :: args }
      finish 0

/-- Drops arguments. -/
def shift : Utility := fun args => do
  let n := ((args.head?).bind natural?).getD 1
  let m ← get
  if n ≤ m.arguments.length then set { m with arguments := m.arguments.drop n, status := 0 }
  else finish 2

/-- The status in an argument. -/
def statusOf (args : List Raw) : Act Nat := do
  return ((args.head?).bind natural?).getD (← get).status % 256

/-- Waits for the commands in the background. -/
def waitForAll : Utility := fun _ => do
  match (← get).backgroundEnd with
  | some time =>
    waitUntil time
    finish 0
  | none => throw .blocked

/-- The commands that act on the shell itself. -/
def inner : List (String × Utility) := [
  ("exit", fun args => do exitWith (← statusOf args)),
  ("return", fun args => do
    finish (← statusOf args)
    throw .leave),
  ("break", fun args => throw (.stop (((args.head?).bind natural?).getD 1))),
  ("continue", fun args => throw (.again (((args.head?).bind natural?).getD 1))),
  ("shift", shift), ("set", fun args => setOptions (args.length + 1) args), ("wait", waitForAll),
  ("export", assign), ("readonly", assign), ("local", assignLocally), ("trap", fun _ => finish 0),
  ("umask", fun _ => finish 0),
  ("unset", fun args => do
    for a in args do
      modify fun m => { m.putVariable a none with functions := m.functions.filter (·.1 != a) }
    finish 0)]

end Utility

end ColorMarks.Shell
