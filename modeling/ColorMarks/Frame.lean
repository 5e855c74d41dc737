import ColorMarks.IoError
import ColorMarks.Json.Reader
import ColorMarks.Json.Printer
import ColorMarks.Text.Blank

/-!
# Message frames

A message travels as a block of header lines, a blank line and a body of as many bytes as the header
`Content-Length` announces. `Frame.write` makes the frame of a value. `Frame.read` takes the first
frame off a list of bytes; what becomes of a frame that is cut off depends on what follows the bytes.

The room for a body is taken before its first byte is read. There is no room for a body of `bodyLimit`
bytes or more, and such a length breaks the reading off. For any shorter body there is taken to be room.
-/

namespace ColorMarks.Frame

/-- The name of the header that announces the length of the body. -/
def lengthName : String := "Content-Length"

/-- Bodies are shorter than this: no object in memory has so many bytes. -/
def bodyLimit : Nat := twoTo 63

/-- The frame of a value. -/
def write (v : Json) : List UInt8 :=
  let body := Text.octets v.text
  Text.octets s!"{lengthName}: {body.length}\r\n\r\n" ++ body

/-- What follows the bytes at hand. -/
inductive Tail where
  /-- Nothing yet. -/
  | more
  /-- The end of the stream. -/
  | closed
  /-- An error of the stream. -/
  | failed (e : IoError)
  deriving DecidableEq, Repr

/-- What reading gave, with the bytes that are left over. -/
inductive Reading where
  | message (v : Json) (rest : List UInt8)
  | failed (e : IoError) (rest : List UInt8)
  /-- The stream ended where a frame might begin. -/
  | finished
  /-- The frame is not complete yet. -/
  | incomplete
  /-- There is no room for the body, and the reader is gone. -/
  | aborted (rest : List UInt8)

/-- What a header line says. -/
inductive HeaderLine where
  /-- The blank line after the headers. -/
  | blank
  | length (n : Nat)
  /-- Any other header. -/
  | other
  | bad (e : IoError)
  deriving DecidableEq, Repr

/-- A line of text without the carriage returns at its end. -/
def trimReturns (cs : List Char) : List Char := (cs.reverse.dropWhile (· == '\r')).reverse

/-- What a line of text, without its line feed, says. -/
def headerLine (line : List Char) : HeaderLine :=
  match trimReturns line with
  | [] => .blank
  | header =>
    match Text.cut? ':' header with
    | none => .other
    | some (name, value) =>
      if Text.equalIgnoringCase (String.ofList (Text.trim name)) lengthName then
        match Text.nat64? (Text.trim value) with
        | some n => .length n
        | none => .bad (.badLength (String.ofList (Text.trim value)))
      else .other

/-- What the bytes of a line say. -/
def lineOfOctets (line : List UInt8) : HeaderLine :=
  match Text.ofOctets? line with
  | some s => headerLine s.toList
  | none => .bad .undecodable

/-- What a block of headers gave. -/
inductive Block where
  /-- The whole block with the length that its last length header announces. -/
  | headers (length : Option Nat) (rest : List UInt8)
  | failed (e : IoError) (rest : List UInt8)
  | finished
  | incomplete

/--
Reads headers byte by byte. `first` holds before the first byte, `length` is the length announced so
far, and `line` the current line, last byte first. At the end of the stream the bytes after the last
line feed are a line as well.
-/
def readBlock (tail : Tail) (first : Bool) (length : Option Nat) (line : List UInt8) :
    List UInt8 → Block
  | [] =>
    match tail with
    | .more => .incomplete
    | .failed e => .failed e []
    | .closed =>
      if line.isEmpty then if first then .finished else .failed .endInHeaders []
      else match lineOfOctets line.reverse with
        | .blank => .headers length []
        | .bad e => .failed e []
        | _ => .failed .endInHeaders []
  | b :: r =>
    if b = 10 then
      match lineOfOctets line.reverse with
      | .blank => .headers length r
      | .length n => readBlock tail false (some n) [] r
      | .other => readBlock tail false length [] r
      | .bad e => .failed e r
    else readBlock tail false length (b :: line) r

/-- Takes a body of this length off the bytes. -/
def readBody (tail : Tail) (length : Nat) (bytes : List UInt8) : Reading :=
  if bodyLimit ≤ length then .aborted bytes
  else if length ≤ bytes.length then
    match (Text.ofOctets? (bytes.take length)).bind Json.parse? with
    | some v => .message v (bytes.drop length)
    | none => .failed .malformedBody (bytes.drop length)
  else match tail with
    | .more => .incomplete
    | .closed => .failed .endInBody []
    | .failed e => .failed e []

/-- Takes one frame off the bytes. -/
def read (tail : Tail) (bytes : List UInt8) : Reading :=
  match readBlock tail true none [] bytes with
  | .headers (some length) rest => readBody tail length rest
  | .headers none rest => .failed .missingLength rest
  | .failed e rest => .failed e rest
  | .finished => .finished
  | .incomplete => .incomplete

/--
Reads again and again until the end of the stream or of the reader, going on after an error as long as
bytes are left over. The first argument bounds the number of readings.
-/
def readings : Nat → List UInt8 → List Reading
  | 0, _ => []
  | fuel + 1, bytes =>
    match read .closed bytes with
    | .message v rest => .message v rest :: readings fuel rest
    | .failed e [] => [.failed e []]
    | .failed e rest => .failed e rest :: readings fuel rest
    | r => [r]

/-- All readings of a whole stream; each takes at least one byte. -/
def readAll (bytes : List UInt8) : List Reading := readings (bytes.length + 1) bytes

/-- Something that arrives from a server. -/
inductive Arrival where
  | message (v : Json)
  | failed (text : String)
  | closed

/--
All complete frames of the bytes, up to the end of the stream or the first error, and the bytes of an
incomplete frame, if the stream goes on. A reader that is gone says nothing about it. The first argument
bounds the number of frames.
-/
def arrivals (tail : Tail) : Nat → List UInt8 → List Arrival × Option (List UInt8)
  | 0, _ => ([], none)
  | fuel + 1, bytes =>
    match read tail bytes with
    | .message v rest =>
      let (later, left) := arrivals tail fuel rest
      (.message v :: later, left)
    | .failed e _ => ([.failed e.message], none)
    | .finished => ([.closed], none)
    | .incomplete => ([], some bytes)
    | .aborted _ => ([], none)

/-- `arrivals` with enough readings for all the bytes. -/
def receive (tail : Tail) (bytes : List UInt8) : List Arrival × Option (List UInt8) :=
  arrivals tail (bytes.length + 1) bytes

end ColorMarks.Frame
