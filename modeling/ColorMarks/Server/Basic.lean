import ColorMarks.Frame

/-!
# Servers

A server is known by what it writes, and when, if it is sent some bytes at some times. What it writes
up to a time depends only on what it was sent before: so one may ask it again, with more bytes sent
later, and get the same beginning.
-/

namespace ColorMarks

/-- Bytes that were written at one time, in milliseconds. -/
structure Segment where
  time : Nat
  bytes : List UInt8
  deriving DecidableEq, Repr

/-- What a server wrote, in order of time, and when it ended its output, if it did. -/
structure Transcript where
  segments : List Segment := []
  ended : Option Nat := none
  deriving DecidableEq, Repr

/-- A server, by what it writes if it is sent some bytes. -/
abbrev Server := List Segment → Transcript

/-- A server at work: what it was sent, and how much of its output was taken. -/
structure ServerRun where
  server : Server
  received : List Segment := []
  /-- How many segments of the output were taken. -/
  taken : Nat := 0
  /-- Whether the end of the output was taken. -/
  finished : Bool := false

namespace ServerRun

/-- How long bytes are on their way to the server, in milliseconds. -/
def delay : Nat := 1

/-- The run after more messages were sent, of all those that were sent. -/
def hear (r : ServerRun) (sent : List Json) (now : Nat) : ServerRun :=
  { r with received := r.received ++
      (sent.drop r.received.length).map fun m => ⟨now + delay, Frame.write m⟩ }

/-- The next time, up to a deadline, at which the server wrote something or ended its output. -/
def nextTime? (r : ServerRun) (deadline : Nat) : Option Nat :=
  let t := r.server r.received
  (match t.segments.drop r.taken with
    | s :: _ => some s.time
    | [] => if r.finished then none else t.ended).filter (· ≤ deadline)

/-- Takes everything that the server wrote up to a time. -/
def takeUntil (r : ServerRun) (time : Nat) : ServerRun × List UInt8 × Frame.Tail :=
  let t := r.server r.received
  let later := t.segments.drop r.taken
  let now := later.takeWhile (·.time ≤ time)
  let finished := now.length == later.length && t.ended.any (· ≤ time)
  ({ r with taken := r.taken + now.length, finished := r.finished || finished },
    now.flatMap Segment.bytes, if finished then .closed else .more)

end ServerRun

end ColorMarks
