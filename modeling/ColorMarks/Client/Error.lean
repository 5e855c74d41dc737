import ColorMarks.Command
import ColorMarks.Glob.Filter
import ColorMarks.IoError

/-!
# Client errors

Why an operation of a language client failed.
-/

namespace ColorMarks

/-- The causes of failed operations. -/
inductive ClientError where
  | io (e : IoError)
  | alreadyRunning (id : String)
  | notRunning (id : String)
  | watch (e : WatchError)
  | command (e : CommandError)
  deriving DecidableEq, Repr

/-- The text of the error. -/
def ClientError.message : ClientError → String
  | io e => "I/O error: " ++ e.message
  | alreadyRunning id => "language client '" ++ id ++ "' is already running"
  | notRunning id => "language client '" ++ id ++ "' is not running"
  | watch e => e.message
  | command e => e.message

end ColorMarks
