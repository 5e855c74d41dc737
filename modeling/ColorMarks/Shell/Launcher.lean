import ColorMarks.Server.Timeline
import ColorMarks.Shell.Run

/-!
# Launching programs

A program is a utility of the shell, the shell itself, or a file that may be executed and names the shell
in its first line. It is looked up as the command line says, in the directory where it runs. Here the outer
layer of the shell meets the library: what is launched is a `Server` like any other.
-/

namespace ColorMarks.Shell

/-- The places and names of the shell. -/
def isShellName (name : String) : Bool :=
  ["sh", "/bin/sh", "/usr/bin/sh", "dash", "/bin/dash", "/usr/bin/dash"].contains name

/-- The letters of the options that the shell knows. -/
def optionLetters : Raw := "efIimnsxvVECabuqlp".toList

/-- How the shell is called. -/
inductive Invocation where
  /-- A text is run under a name. -/
  | text (script : Raw) (arguments : List Raw)
  | file (path : Raw) (arguments : List Raw)
  /-- What is read is run. -/
  | input
  /-- An option is unknown. -/
  | refused

/-- The call that the arguments of the shell make, and whether missing parameters end the script. -/
def invocation (isStrict : Bool) : List Raw → Invocation × Bool
  | [] => (.input, isStrict)
  | a :: args =>
    match a with
    | ['-', '-'] => (ofOperands args, isStrict)
    | ['-'] => (ofOperands args, isStrict)
    | ['-', 'c'] =>
      match args with
      | script :: args => (.text script args, isStrict)
      | [] => (.refused, isStrict)
    | '-' :: letters =>
      if letters.all optionLetters.contains then invocation (isStrict || letters.contains 'u') args
      else (.refused, isStrict)
    | _ => (.file a args, isStrict)
where
  /-- The call without any further option. -/
  ofOperands : List Raw → Invocation
    | [] => .input
    | a :: args => .file a args

/-- What the shell does when it is called. -/
def shell (name : Raw) (args : List Raw) : Act Unit := do
  let (call, isStrict) := invocation false args
  let script (program : Raw) (arguments : List Raw) (text : Raw) : Act Unit := do
    modify fun m => { m with program, arguments, isStrict }
    runText depth text
  match call with
  | .text text (program :: arguments) => script program arguments text
  | .text text [] => script name [] text
  | .file path arguments =>
    match Act.openFile? (← get) (Utility.path path) with
    | some s => script path arguments (s.coming.flatMap Prod.snd)
    | none => Act.exitWith 2
  | .input => throw .blocked
  | .refused => Act.exitWith 2

/-- The program that the first line of a file names, with its argument. -/
def interpreter? (content : List UInt8) : Option (String × List Raw) :=
  match Raw.ofOctets (content.takeWhile (· != 10)) with
  | '#' :: '!' :: r =>
    let line := r.dropWhile fun c => c == ' ' || c == '\t'
    let name := line.takeWhile fun c => c != ' ' && c != '\t'
    let arg := Text.trim (line.drop name.length)
    if name.isEmpty then none
    else some (Utility.path name, if arg.isEmpty then [] else [arg])
  | _ => none

/-- Utilities that are no programs of their own. -/
def shellOnly : List String := [":", "read", "cd"]

/-- What a program does that is called by its name. -/
def named? (name : String) (args : List Raw) : Option (Act Unit) :=
  if isShellName name then some (shell (Raw.ofString name) args)
  else if shellOnly.contains name then none
  else match Utility.named? (Raw.ofString name) with
    | some f => some (f args)
    | none => none

/-- What a file does when it is executed. -/
def executed (h : Host) (directory path : String) (args : List Raw) : Except IoError (Act Unit) := do
  match h.files.node? (← h.files.resolve directory path) with
  | some (.file content true) =>
    match interpreter? content with
    | none => throw (.os .badFormat)
    | some (name, options) =>
      let args := options ++ Raw.ofString path :: args
      let direct := if name == "/usr/bin/env" then
          match args with
          | name :: args => named? (Utility.path name) args
          | [] => none
        else named? name args
      match direct with
      | some a => return a
      | none => throw (.os .noSuchFile)
  | some _ => throw (.os .permissionDenied)
  | none => throw (.os .noSuchFile)

/-- Whether a text can be handed to the operating system. -/
def isPassable (s : String) : Bool := !s.toList.contains '\x00'

/-- The directory in which a program runs. -/
def workingDirectory (h : Host) (workspace : Option String) : Except IoError String :=
  match workspace with
  | none => .ok h.directory
  | some w => do
    let place ← h.files.resolve h.directory w
    match h.files.node? place with
    | some .directory => return FileTree.pathOf place
    | _ => throw (.os .notADirectory)

/-- The server that a command line starts, with some variables in its environment. -/
def launch (h : Host) (environment : List (String × String)) : Launcher := fun workspace e => do
  unless (e.commandLine ++ workspace.toList).all isPassable do throw (.nulCharacter false)
  let directory ← workingDirectory h workspace
  let args := e.programArgs.map Raw.ofString
  let program := e.program
  let act ← match named? program args with
    | some a => pure a
    | none =>
      if program.toList.contains '/' then executed h directory program args
      else throw (.os .noSuchFile)
  let values := environment.map fun (n, v) => (Raw.ofString n, Raw.ofString v)
  return fun received => transcript act
    { values, directory, files := h.files
      input := ⟨received.map fun s => (s.time, Raw.ofOctets s.bytes), false⟩ }

end ColorMarks.Shell
