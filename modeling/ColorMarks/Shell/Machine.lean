import ColorMarks.Host.FileTree
import ColorMarks.Server.Basic
import ColorMarks.Shell.Script

/-!
# The shell's machine

What commands act on: parameters, streams and files, and a clock. An action may come to a halt; what it
did before stays done. Like the other modules of the shell, this is outer layer: only the program uses it.
-/

namespace ColorMarks.Shell

/-- Texts with the times at which they were written, in milliseconds. -/
abbrev Timed := List (Nat × Raw)

/-- A stream to read from. -/
structure Stream where
  coming : Timed := []
  /-- Whether the stream ends after what is coming; otherwise nothing is known about later. -/
  isEnded : Bool := true

namespace Stream

/-- A line without its line feed, when it was complete, and the stream after it. -/
def line? : Timed → Option (Raw × Nat × Timed)
  | [] => none
  | (time, cs) :: rest =>
    match cs.span (· != '\n') with
    | (before, _ :: after) => some (before, time, (time, after) :: rest)
    | (before, []) => (line? rest).map fun (l, t, rest) => (before ++ l, max time t, rest)

/-- At most so many characters of what has come by a time, and what comes after them. -/
def takeDue (now : Nat) : Nat → Timed → Raw × Timed
  | _, [] => ([], [])
  | limit, (time, cs) :: rest =>
    if now < time then ([], (time, cs) :: rest)
    else match cs.splitAt limit with
      | (taken, []) =>
        let (more, rest) := takeDue now (limit - taken.length) rest
        (taken ++ more, rest)
      | (taken, left) => (taken, (time, left) :: rest)

/-- The last time at which something comes. -/
def lastTime (coming : Timed) : Nat := coming.foldl (fun t s => max t s.1) 0

end Stream

/-- Why no further command is run. -/
inductive Halt where
  /-- The script has ended. -/
  | exit
  /-- The script waits for something that has not come. -/
  | blocked
  /-- The function has ended. -/
  | leave
  /-- So many loops have ended. -/
  | stop (loops : Nat)
  /-- So many loops but one have ended, and the last goes on with its next round. -/
  | again (loops : Nat)
  deriving DecidableEq, Repr

/-- The state of a shell. -/
structure Machine where
  /-- The variables with their values. -/
  values : List (Raw × Raw) := []
  functions : List (Raw × Command) := []
  /-- The name under which the script runs. -/
  program : Raw := []
  arguments : List Raw := []
  /-- The status of the last command; zero means success. -/
  status : Nat := 0
  /-- The status of the last command whose output was put into a word. -/
  innerStatus : Option Nat := none
  /-- The variables that the running function shadows, with their values outside. -/
  shadowed : List (Raw × Option Raw) := []
  /-- Whether the use of a missing parameter ends the script. -/
  isStrict : Bool := false
  clock : Nat := 0
  input : Stream := {}
  /-- What was written, last first. -/
  output : Timed := []
  /-- When the script closed its output. -/
  closedAt : Option Nat := none
  /-- When the last command in the background ends, if it does. -/
  backgroundEnd : Option Nat := some 0
  directory : String := "/"
  files : FileTree := {}

/-- Something that a shell does. -/
abbrev Act := ExceptT Halt (StateM Machine)

namespace Machine

/-- The value of a variable. -/
def value? (m : Machine) (name : Raw) : Option Raw := m.values.lookup name

/-- The machine with a variable set. -/
def setVariable (m : Machine) (name value : Raw) : Machine :=
  { m with values := (name, value) :: m.values.filter (·.1 != name) }

/-- The machine with a variable set, or without it. -/
def putVariable (m : Machine) (name : Raw) (value : Option Raw) : Machine :=
  match value with
  | some v => m.setVariable name v
  | none => { m with values := m.values.filter (·.1 != name) }

/-- The characters that separate fields. -/
def separators (m : Machine) : Raw := (m.value? "IFS".toList).getD [' ', '\t', '\n']

/-- The number of the shell's process. -/
def processId : Nat := 424243

/-- The value of a parameter by itself. -/
def parameter? (m : Machine) (name : Raw) : Option Raw :=
  match name with
  | ['#'] => some (toString m.arguments.length).toList
  | ['?'] => some (toString m.status).toList
  | ['$'] => some (toString processId).toList
  | ['-'] => some (if m.isStrict then ['u'] else [])
  | ['!'] => none
  | ['0'] => some m.program
  | _ =>
    if name.all Char.isDigit then
      ((String.ofList name).toNat?).bind fun n => m.arguments[n - 1]?
    else m.value? name

end Machine

namespace Act

/-- Sets the status. -/
def finish (status : Nat) : Act Unit := modify fun m => { m with status }

/-- Sets the status by success. -/
def succeed (isSuccess : Bool) : Act Unit := finish (if isSuccess then 0 else 1)

/-- Ends the script with a status. -/
def exitWith (status : Nat) : Act α := do
  finish status
  throw .exit

/-- Writes a text. -/
def emit (s : Raw) : Act Unit := modify fun m =>
  if s.isEmpty || m.closedAt.isSome then m else { m with output := (m.clock, s) :: m.output }

/-- Lets time pass up to a moment. -/
def waitUntil (time : Nat) : Act Unit := modify fun m => { m with clock := max m.clock time }

/-- Reads a line; the second part tells whether it was complete. -/
def readLine : Act (Raw × Bool) := do
  let m ← get
  match Stream.line? m.input.coming with
  | some (l, time, rest) =>
    set { m with clock := max m.clock time, input := { m.input with coming := rest } }
    return (l, true)
  | none =>
    if m.input.isEnded then
      let rest := m.input.coming
      set { m with clock := max m.clock (Stream.lastTime rest), input := { m.input with coming := [] } }
      return (rest.flatMap Prod.snd, false)
    else throw .blocked

/-- Reads once: at most so many characters of what is there, or of what comes next; none at the end. -/
def readSome (limit : Nat) : Act Raw := do
  let m ← get
  match m.input.coming.dropWhile fun s => s.2.isEmpty with
  | [] =>
    set { m with input := { m.input with coming := [] } }
    if m.input.isEnded then return [] else throw .blocked
  | (time, cs) :: rest =>
    let clock := max m.clock time
    let (taken, coming) := Stream.takeDue clock limit ((time, cs) :: rest)
    set { m with clock, input := { m.input with coming } }
    return taken

/-- Does something with each text that comes, until the stream ends. -/
def forEachText (f : Raw → Act Unit) : Act Unit := do
  let m ← get
  set { m with input := { m.input with coming := [] } }
  for (time, cs) in m.input.coming do
    waitUntil time
    f cs
  if !m.input.isEnded then throw .blocked

/-- Runs an action on a machine. -/
def runOn (a : Act α) (m : Machine) : Except Halt α × Machine := Id.run (StateT.run (ExceptT.run a) m)

/-- Runs an action and keeps what it writes from the output. -/
def capture (a : Act α) : Act (Except Halt α × Timed) := do
  let m ← get
  let (result, after) := a.runOn { m with output := [], closedAt := none }
  set { after with output := m.output, closedAt := m.closedAt }
  return (result, after.output.reverse)

/-- Runs an action in surroundings of its own; only streams, files, time and status stay changed. -/
def isolate (a : Act Unit) : Act Unit := do
  let m ← get
  let (result, after) := a.runOn m
  set { m with
    clock := after.clock, input := after.input, output := after.output, files := after.files
    backgroundEnd := after.backgroundEnd, status := after.status }
  match result with
  | .error .blocked => throw .blocked
  | _ => return ()

/-- Runs an action while time stands still for the commands after it. -/
def inBackground (a : Act Unit) : Act Unit := do
  let m ← get
  let (result, after) := a.isolate.runOn { m with input := {} }
  let isBlocked := match result with
    | .error .blocked => true
    | _ => false
  set { m with
    output := after.output, files := after.files, status := 0
    backgroundEnd := if isBlocked then none else m.backgroundEnd.map (max after.clock) }

/-- Runs an action on the output of another. -/
def pipe (a b : Act Unit) : Act Unit := do
  let start := (← get).clock
  let (first, written) ← capture a.isolate
  let m ← get
  let isBlocked := match first with
    | .error _ => true
    | .ok _ => false
  set { m with clock := start, input := ⟨written, !isBlocked⟩ }
  b.isolate
  modify fun after => { after with input := m.input, clock := max m.clock after.clock }
  if isBlocked then throw .blocked

/-- Where the output goes. -/
inductive Sink where
  | same
  | nowhere
  | file (path : String) (append : Bool)

/-- Appends a text to a file, or puts it there. -/
def writeFile (path : String) (append : Bool) (s : Raw) : Act Unit := modify fun m =>
  let before := if append then (m.files.read m.directory path).toOption.getD [] else []
  match m.files.resolve m.directory path with
  | .ok place => { m with files := m.files.put place (.file (before ++ s.octets) false) }
  | .error _ =>
    let whole := Path.join m.directory path
    let place := (FileTree.steps whole).filter fun p => !p.isEmpty && p != "."
    { m with files := m.files.put place (.file (before ++ s.octets) false) }

/-- Halts if a result says so. -/
def resume (result : Except Halt Unit) : Act Unit :=
  match result with
  | .ok _ => return ()
  | .error h => throw h

/-- Runs an action with its output redirected. -/
def into (sink : Sink) (a : Act Unit) : Act Unit :=
  match sink with
  | .same => a
  | .nowhere => do
    let (result, _) ← capture a
    resume result
  | .file path append => do
    let (result, written) ← capture a
    writeFile path append (written.flatMap Prod.snd)
    resume result

/-- Runs an action on a stream of its own. -/
def onInput (stream : Option Stream) (a : Act Unit) : Act Unit :=
  match stream with
  | none => a
  | some s => do
    let m ← get
    let (result, after) := a.runOn { m with input := s }
    set { after with input := m.input }
    resume result

/-- The file that a path leads to, as a stream. -/
def openFile? (m : Machine) (path : String) : Option Stream :=
  if path == "/dev/null" then some {}
  else match m.files.read m.directory path with
    | .ok content => some ⟨[(0, Raw.ofOctets content)], true⟩
    | .error _ => none

/-- Runs an action under redirections, in their order; a missing file fails it. -/
def redirect (rs : List (Nat × Route × Raw)) (a : Act Unit) : Act Unit := do
  let m ← get
  let connect (s : Option (Sink × Option Stream)) (r : Nat × Route × Raw) :
      Option (Sink × Option Stream) :=
    match s, r with
    | none, _ => none
    | some (sink, stream), (number, route, target) =>
      let path := (Raw.toString? target).getD ""
      match number, route with
      | 0, .input => (openFile? m path).map fun s => (sink, some s)
      | 0, .copy => some (sink, if path == "-" then some {} else stream)
      | 1, .output append =>
        some (if path == "/dev/null" then .nowhere else .file path append, stream)
      | 1, .copy => some (if path == "1" then sink else .nowhere, stream)
      | _, _ => some (sink, stream)
  match rs.foldl connect (some (.same, none)) with
  | some (sink, stream) => onInput stream (into sink a)
  | none => finish 2

end Act

end ColorMarks.Shell
