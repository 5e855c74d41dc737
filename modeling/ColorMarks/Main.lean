import ColorMarks.Cli
import ColorMarks.Shell.Launcher

/-!
# The program

The program reads the files that its arguments and its settings name, and leaves the rest to the command
line. Servers are scripts and run in the shell of this library. This module and those of the shell are the
outer layer: they make a program of the library, and its results are about what they call.
-/

namespace ColorMarks.Program

/-- The names on the way from the root to an absolute path. -/
def place (path : String) : List String := (FileTree.steps path).filter fun step => !step.isEmpty

/-- The tree with what stands at a path, if anything does. -/
def withPath (directory : String) (t : FileTree) (path : String) : IO FileTree := do
  let whole := Path.join directory path
  try
    let real ← IO.FS.realPath whole
    let target := place real.toString
    let t := if place whole == target then t else t.put (place whole) (.link real.toString)
    if ← real.isDir then return t.put target .directory
    else
      let content := (← IO.FS.readBinFile real).toList
      return t.put target (.file content (content.take 2 == [35, 33]))
  catch _ => return t

/-- The paths that an argument may name. -/
def pathsOf (arg : String) : List String :=
  match Text.cut? '=' arg.toList with
  | some (_, value) => [arg, String.ofList value]
  | none => [arg]

/-- The number of this process, as far as the system tells. -/
def processId : IO Nat := do
  try
    let status ← IO.FS.readFile "/proc/self/stat"
    return (Text.digits? (status.toList.takeWhile Char.isDigit)).getD 0
  catch _ => return 0

/-- The surroundings of the program for some arguments. -/
def environment (args : List String) : IO Cli.Environment := do
  let directory := (← IO.FS.realPath ".").toString
  let tree ← (directory :: args.flatMap pathsOf).foldlM (withPath directory) {}
  let settings := match ← IO.getEnv LaunchMode.flagName with
    | some value => [(LaunchMode.flagName, value)]
    | none => []
  let environmentOf (files : FileTree) (processId : Nat) : Cli.Environment :=
    let host : Host := { files, directory, processId }
    { host, settings, launcher := Shell.launch host settings }
  let number ← processId
  match Cli.readArgs {} args with
  | .request r =>
    match Cli.settings (environmentOf tree number) r with
    | .ok s =>
      let module := Path.join (r.root.getD ".") s.server.module
      return environmentOf (← withPath directory tree module) number
    | .error _ => return environmentOf tree number
  | _ => return environmentOf tree number

end ColorMarks.Program

/-- Runs the program on its arguments. -/
def main (args : List String) : IO UInt32 := do
  let result := ColorMarks.Cli.run (← ColorMarks.Program.environment args) args
  IO.print result.output
  if let some text := result.failure then IO.eprint text
  return UInt32.ofNat result.code
