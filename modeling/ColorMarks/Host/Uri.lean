import ColorMarks.Host.FileTree

/-!
# File addresses

The `file` address of a path, and the scheme of any address. Bytes that are not safe in a path are
written as a percent sign and two hexadecimal digits.
-/

namespace ColorMarks.Uri

/-- The scheme of local documents. -/
def fileScheme : String := "file"

/-- A byte that stands for itself. -/
def isSafe (b : UInt8) : Bool :=
  let c := Char.ofNat b.toNat
  b < 128 && (c.isAlphanum || c == '-' || c == '.' || c == '_' || c == '~' || c == '/' || c == ':')

/-- The hexadecimal digit of a number below sixteen, in upper case. -/
def hexUpper (n : Nat) : Char := if n < 10 then Char.ofNat (48 + n) else Char.ofNat (55 + n)

/-- A byte as it is written. -/
def escape (b : UInt8) : List Char :=
  if isSafe b then [Char.ofNat b.toNat] else ['%', hexUpper (b.toNat / 16), hexUpper (b.toNat % 16)]

/-- The address of an absolute path text. -/
def ofAbsolute (path : String) : String :=
  let path := if Path.isAbsolute path then path else "/" ++ path
  "file://" ++ String.ofList ((Text.octets path).flatMap escape)

/--
The absolute text of a path: of the place it leads to, if there is one, and otherwise by its text
alone.
-/
def absoluteText (h : Host) (path : String) : String :=
  match h.files.canonical h.directory path with
  | .ok p => p
  | .error _ => (Path.absolute? h.directory path).getD path

/-- The address of a path. -/
def ofPath (h : Host) (path : String) : String := ofAbsolute (absoluteText h path)

/-- A character of a scheme after the first. -/
def isSchemeChar (c : Char) : Bool := c.isAlphanum || c == '+' || c == '-' || c == '.'

/-- The scheme of an address: the text before the first colon, if that is a scheme. -/
def scheme? (uri : String) : Option String :=
  match Text.cut? ':' uri.toList with
  | some (c :: cs, _) =>
    if c.isAlpha && cs.all isSchemeChar then some (String.ofList (c :: cs)) else none
  | _ => none

end ColorMarks.Uri
