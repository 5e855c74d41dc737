import ColorMarks.Text.Quoted

/-!
# Input and output errors

What can go wrong with files, streams and processes. Every cause has a kind and a text.
-/

namespace ColorMarks

/-- The kinds of input and output errors. -/
inductive ErrorKind where
  | notFound
  | permissionDenied
  | brokenPipe
  | timedOut
  | invalidData
  | invalidInput
  | unexpectedEof
  | connectionReset
  | notADirectory
  | isADirectory
  | filesystemLoop
  | invalidFilename
  | uncategorized
  | other
  deriving DecidableEq, Repr

namespace ErrorKind

/-- All kinds. -/
def all : List ErrorKind :=
  [notFound, permissionDenied, brokenPipe, timedOut, invalidData, invalidInput, unexpectedEof,
    connectionReset, notADirectory, isADirectory, filesystemLoop, invalidFilename, uncategorized,
    other]

/-- The name of a kind. -/
def name : ErrorKind → String
  | notFound => "NotFound"
  | permissionDenied => "PermissionDenied"
  | brokenPipe => "BrokenPipe"
  | timedOut => "TimedOut"
  | invalidData => "InvalidData"
  | invalidInput => "InvalidInput"
  | unexpectedEof => "UnexpectedEof"
  | connectionReset => "ConnectionReset"
  | notADirectory => "NotADirectory"
  | isADirectory => "IsADirectory"
  | filesystemLoop => "FilesystemLoop"
  | invalidFilename => "InvalidFilename"
  | uncategorized => "Uncategorized"
  | other => "Other"

/-- The kind of a name; an unknown name is of no particular kind. -/
def ofName (name : String) : ErrorKind := (all.find? fun k => k.name == name).getD other

end ErrorKind

/-- Errors that the operating system reports by number. -/
inductive OsError where
  | noSuchFile
  | badFormat
  | permissionDenied
  | notADirectory
  | isADirectory
  | brokenPipe
  | nameTooLong
  | linkLoop
  deriving DecidableEq, Repr

namespace OsError

/-- Number, text and kind of the error. -/
def entry : OsError → Nat × String × ErrorKind
  | noSuchFile => (2, "No such file or directory", .notFound)
  | badFormat => (8, "Exec format error", .uncategorized)
  | permissionDenied => (13, "Permission denied", .permissionDenied)
  | notADirectory => (20, "Not a directory", .notADirectory)
  | isADirectory => (21, "Is a directory", .isADirectory)
  | brokenPipe => (32, "Broken pipe", .brokenPipe)
  | nameTooLong => (36, "File name too long", .invalidFilename)
  | linkLoop => (40, "Too many levels of symbolic links", .filesystemLoop)

end OsError

/-- The causes of input and output errors. -/
inductive IoError where
  /-- The stream ended between the first header byte and the end of the headers. -/
  | endInHeaders
  /-- The stream ended before the announced length. -/
  | endInBody
  /-- A header line is not valid UTF-8. -/
  | undecodable
  /-- A length that is no number. -/
  | badLength (value : String)
  /-- The headers announce no length. -/
  | missingLength
  /-- The body is no JSON text. -/
  | malformedBody
  /-- Sending after the first failed write. -/
  | writerStopped
  /-- The server ended its output while a response was awaited. -/
  | serverClosed
  /-- The connection failed while a response was awaited. -/
  | connectionFailed (text : String)
  /-- No time was left to wait for the response with this number. -/
  | noTimeLeft (id : Nat)
  /-- The response did not come in time. -/
  | timedOut
  /-- The server refused the handshake. -/
  | refused (text : String)
  /-- The process was started without an input stream of its own. -/
  | noInputStream
  /-- The process was started without an output stream of its own. -/
  | noOutputStream
  /-- A text to hand to the operating system contains the character zero. -/
  | nulCharacter (inPath : Bool)
  /-- The operating system reported an error. -/
  | os (e : OsError)
  /-- A stream reported an error of its own. -/
  | reported (kind : ErrorKind) (text : String)
  deriving DecidableEq, Repr

namespace IoError

/-- The kind of the error. -/
def kind : IoError → ErrorKind
  | endInHeaders => .unexpectedEof
  | endInBody => .unexpectedEof
  | undecodable => .invalidData
  | badLength _ => .invalidData
  | missingLength => .invalidData
  | malformedBody => .invalidData
  | writerStopped => .brokenPipe
  | serverClosed => .brokenPipe
  | connectionFailed _ => .brokenPipe
  | noTimeLeft _ => .timedOut
  | timedOut => .timedOut
  | refused _ => .other
  | noInputStream => .other
  | noOutputStream => .other
  | nulCharacter _ => .invalidInput
  | os e => e.entry.2.2
  | reported kind _ => kind

/-- The text of the error. -/
def message : IoError → String
  | endInHeaders => "stream ended inside message headers"
  | endInBody => "failed to fill whole buffer"
  | undecodable => "stream did not contain valid UTF-8"
  | badLength value => "invalid Content-Length " ++ Text.quoted value
  | missingLength => "missing Content-Length header"
  | malformedBody => "message body is not JSON"
  | writerStopped => "Writer thread stopped"
  | serverClosed => "Language server closed the connection"
  | connectionFailed text => text
  | noTimeLeft id => s!"Timed out waiting for response id={id}"
  | timedOut => "timed out waiting on channel"
  | refused text => text
  | noInputStream => "Failed to open language server stdin"
  | noOutputStream => "Failed to open language server stdout"
  | nulCharacter true => "file name contained an unexpected NUL byte"
  | nulCharacter false => "nul byte found in provided data"
  | os e => s!"{e.entry.2.1} (os error {e.entry.1})"
  | reported _ text => text

end IoError

end ColorMarks
