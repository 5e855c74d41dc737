import ColorMarks.Client.Basic
import ColorMarks.Proofs.Client.Traffic

/-!
# Runs of a client

What may be done with a client, and what may happen to it, in any order: `Action`. A run is a list of
actions. What arrives while a call waits counts as having arrived before the call, since a call takes
its arrivals one by one in their order; a wait for findings polls in rounds, and that comes to the same
(`waitIn_eq_waitForDiagnostics`).
-/

namespace ColorMarks

open ColorMarks.Frame (Arrival)

/-- A connection on which nothing was written or taken yet; something may have arrived. -/
structure Opening where
  label : Nat := 0
  folders : List Json := []
  inbound : List Arrival := []
  partialFrame : Option (List UInt8) := some []
  fault : Option WriteFault := none

namespace Opening

/-- The connection as it is made. -/
def connection (o : Opening) : Connection where
  label := o.label
  folders := o.folders
  inbound := o.inbound
  partialFrame := o.partialFrame
  fault := o.fault

@[simp] theorem history_connection (o : Opening) : o.connection.history = [] := rfl

@[simp] theorem writing_connection (o : Opening) : o.connection.writing = true := rfl

@[simp] theorem nextId_connection (o : Opening) : o.connection.nextId = 1 := rfl

theorem faithful_connection (o : Opening) (n : Nat) :
    { o.connection with nextId := n }.Faithful where
  sent := List.prefix_rfl
  alive := fun _ => rfl

end Opening

/-- The connection after some arrivals, and with what is left of the bytes behind them. -/
def Connection.arrive (c : Connection) (arrivals : List Arrival) (left : Option (List UInt8)) :
    Connection :=
  { c with inbound := c.inbound ++ arrivals, partialFrame := left }

/-- Bytes from the server are arrivals. -/
theorem Connection.supply_eq_arrive (c : Connection) (bytes : List UInt8) (tail : Frame.Tail) :
    ∃ arrivals left, c.supply bytes tail = c.arrive arrivals left := by
  unfold supply
  split
  · exact ⟨[], c.partialFrame, by simp [arrive]⟩
  · exact ⟨_, _, rfl⟩

namespace Client

/-- Something that is done with a client or happens to its connection. -/
inductive Action where
  | attach (o : Opening)
  | start (mode : LaunchMode) (launch : Executable → Except IoError Opening)
  | arrive (arrivals : List Arrival) (left : Option (List UInt8))
  | openDocument (uri language : String) (version : Int) (text : String)
  | closeDocument (uri : String)
  | fileEvent (path : String) (change : FileChange)
  | poll
  | waitForDiagnostics (uri : String)
  | stop

/-- The client after an action, whatever the action answers. -/
def act (c : Client) : Action → Client
  | .attach o => (c.attach o.connection).1
  | .start mode launch => (c.start mode fun e => (launch e).map Opening.connection).1
  | .arrive arrivals left =>
    { c with connection := c.connection.map fun k => k.arrive arrivals left }
  | .openDocument uri language version text => (c.openDocument uri language version text).1
  | .closeDocument uri => (c.closeDocument uri).1
  | .fileEvent path change => (c.fileEvent path change).1
  | .poll => c.poll.1
  | .waitForDiagnostics uri => (c.waitForDiagnostics uri).1
  | .stop => c.stop.1

/-- The client after some actions. -/
def run (c : Client) (actions : List Action) : Client := actions.foldl act c

@[simp] theorem run_nil (c : Client) : c.run [] = c := rfl

@[simp] theorem run_cons (c : Client) (a : Action) (actions : List Action) :
    c.run (a :: actions) = (c.act a).run actions := rfl

end Client

end ColorMarks
