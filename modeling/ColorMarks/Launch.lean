import ColorMarks.Host.Path
import ColorMarks.Text.Blank
import ColorMarks.Text.Integer

/-!
# Launching a server

A server is a module, run by a runtime or by itself, with one command line for normal work and one
for debugging.
-/

namespace ColorMarks

/-- Which of the two command lines is used. -/
inductive LaunchMode where
  | run
  | debug
  deriving DecidableEq, Repr

namespace LaunchMode

/-- The name of the environment variable that asks for debugging. -/
def flagName : String := "DIAG_HIGHLIGHT_DEBUG"

/-- The mode that a flag asks for: `1` or `true`, with blanks around it, means debugging. -/
def ofFlag : Option String → LaunchMode
  | none => run
  | some flag =>
    let flag := Text.trimString flag
    if flag == "1" || Text.equalIgnoringCase flag "true" then debug else run

/-- The name of a mode. -/
def name : LaunchMode → String
  | run => "Run"
  | debug => "Debug"

end LaunchMode

/-- A server process. -/
structure Executable where
  /-- What runs the module; without it the module is a program itself. -/
  runtime : Option String
  module : String
  args : List String := []
  /-- Arguments for the runtime. -/
  runtimeArgs : List String := []
  deriving DecidableEq, Repr

namespace Executable

/-- The runtime arguments that are left out because there is no runtime. -/
def ignored (e : Executable) : List String := if e.runtime.isSome then [] else e.runtimeArgs

/-- The program of the process. -/
def program (e : Executable) : String := e.runtime.getD e.module

/-- The arguments of the process; the last asks for messages over the standard streams. -/
def programArgs (e : Executable) : List String :=
  (if e.runtime.isSome then e.runtimeArgs ++ [e.module] else []) ++ e.args ++ ["--stdio"]

/-- The whole command line. -/
def commandLine (e : Executable) : List String := e.program :: e.programArgs

end Executable

/-- The two ways to launch a server. -/
structure ServerOptions where
  run : Executable
  debug : Executable
  deriving DecidableEq, Repr

namespace ServerOptions

/-- Runtime arguments for debugging. -/
def debugArgs : List String := ["--nolazy", "--inspect=6009"]

/-- Both ways to launch a module. -/
def ofModule (module : String) (runtime : Option String) : ServerOptions where
  run := ⟨runtime, module, [], []⟩
  debug := ⟨runtime, module, [], debugArgs⟩

/-- The process for a mode. -/
def executable (s : ServerOptions) : LaunchMode → Executable
  | .run => s.run
  | .debug => s.debug

end ServerOptions

end ColorMarks
