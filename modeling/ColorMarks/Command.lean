import ColorMarks.Highlight.Session
import ColorMarks.Text.Quoted

/-!
# Commands

Commands under names that are never taken twice. Each is a highlight toggle with a session of its
own and remembers what it did last.
-/

namespace ColorMarks

/-- A highlight toggle. -/
structure ToggleCommand where
  session : Session
  lastOutcome : Option Outcome := none
  deriving DecidableEq, Repr

namespace ToggleCommand

/-- The name of the highlight toggle. -/
def name : String := "extension.toggleHighlight"

/-- A toggle that was never run. -/
def new (policy : Policy) : ToggleCommand := ⟨Session.new policy, none⟩

/-- Flips the session. -/
def run (c : ToggleCommand) (snapshot : Snapshot) (w : Window) : ToggleCommand × Window :=
  let (outcome, session, w) := c.session.toggleIn snapshot w
  (⟨session, some outcome⟩, w)

end ToggleCommand

/-- Why a command was not registered or not run. -/
inductive CommandError where
  | unknown (id : String)
  | alreadyRegistered (id : String)
  deriving DecidableEq, Repr

/-- The text of the error. -/
def CommandError.message : CommandError → String
  | unknown id => "unknown command '" ++ id ++ "'"
  | alreadyRegistered id => "command '" ++ id ++ "' is already registered"

/-- Commands by name, in the order of registration. -/
structure Registry where
  commands : List (String × ToggleCommand) := []
  deriving DecidableEq, Repr

namespace Registry

/-- No commands. -/
def empty : Registry := ⟨[]⟩

/-- The command of a name. -/
def get? (r : Registry) (id : String) : Option ToggleCommand := r.commands.lookup id

/-- Whether a name is taken. -/
def contains (r : Registry) (id : String) : Bool := (r.get? id).isSome

/-- The names in ascending order. -/
def ids (r : Registry) : List String :=
  (r.commands.foldl (fun sorted e => Ordered.insert e.1 () sorted) []).map Prod.fst

/-- The registry with a command under a new name. -/
def register (r : Registry) (id : String) (c : ToggleCommand) : Except CommandError Registry :=
  if r.contains id then .error (.alreadyRegistered id) else .ok ⟨r.commands ++ [(id, c)]⟩

/-- The registry with the command of a name replaced. -/
def set (r : Registry) (id : String) (c : ToggleCommand) : Registry :=
  ⟨r.commands.map fun e => if e.1 = id then (id, c) else e⟩

/-- Registry and window after the command of a name was run over a snapshot. -/
def execute (r : Registry) (id : String) (snapshot : Snapshot) (w : Window) :
    Except CommandError (Registry × Window) :=
  match r.get? id with
  | none => .error (.unknown id)
  | some c =>
    let (c, w) := c.run snapshot w
    .ok (r.set id c, w)

/-- A description of the registry by its names. -/
def describe (r : Registry) : String :=
  "CommandRegistry \x7b commands: [" ++ ", ".intercalate (r.ids.map Text.quoted) ++ "] \x7d"

end Registry

end ColorMarks
