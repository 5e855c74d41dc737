import ColorMarks.Host.Path
import ColorMarks.IoError
import ColorMarks.Text.Utf8

/-!
# File trees

Directories, files and symbolic links under one root. A path is resolved part by part; links are
followed, up to forty of them.
-/

namespace ColorMarks

/-- What stands at a place in a file tree. -/
inductive FileNode where
  | directory
  | file (content : List UInt8) (executable : Bool)
  | link (target : String)
  deriving DecidableEq, Repr

/-- The nodes of a tree by the names on the way from the root. The root is not among them. -/
structure FileTree where
  nodes : List (List String × FileNode) := []
  deriving Repr

namespace FileTree

/-- The node at a place. -/
def node? (t : FileTree) (place : List String) : Option FileNode :=
  if place.isEmpty then some .directory else t.nodes.lookup place

/-- The tree with directories on the way to a place. -/
def withParents (t : FileTree) (place : List String) : FileTree :=
  (List.range place.length).foldl (fun t n =>
    let parent := place.take n
    if (t.node? parent).isSome then t else ⟨(parent, .directory) :: t.nodes⟩) t

/-- The tree with a node put at a place. -/
def put (t : FileTree) (place : List String) (n : FileNode) : FileTree :=
  ⟨(place, n) :: (t.withParents place).nodes⟩

/-- The parts of a path that a file system looks at, dots and empty parts included. -/
def steps (path : String) : List String := (Text.pieces '/' path.toList).map String.ofList

/-- Where a walk through the tree came to. -/
inductive Walk where
  | arrived (place : List String)
  | failed (e : OsError)
  /-- A link was met: its target, and the parts still to come. -/
  | detour (place : List String) (steps : List String)

/-- Walks from a directory along the parts of a path up to the first link. -/
def walk (t : FileTree) (place : List String) : List String → Walk
  | [] => .arrived place
  | step :: rest =>
    if 255 < step.utf8ByteSize then .failed .nameTooLong
    else if step.isEmpty || step == "." then walk t place rest
    else if step == ".." then walk t place.dropLast rest
    else match t.node? (place ++ [step]) with
      | none => .failed .noSuchFile
      | some .directory => walk t (place ++ [step]) rest
      | some (.file _ _) =>
        if rest.isEmpty then .arrived (place ++ [step]) else .failed .notADirectory
      | some (.link target) =>
        .detour (if Path.isAbsolute target then [] else place) (steps target ++ rest)

/-- Walks along a path and through at most `links` links. -/
def follow (t : FileTree) : Nat → List String → List String → Except OsError (List String)
  | links, place, path =>
    match t.walk place path with
    | .arrived p => .ok p
    | .failed e => .error e
    | .detour p path =>
      match links with
      | 0 => .error .linkLoop
      | links + 1 => follow t links p path

/-- The place that a path leads to, as seen from a directory. -/
def resolve (t : FileTree) (directory path : String) : Except IoError (List String) :=
  if path.toList.contains '\x00' then .error (.nulCharacter true)
  else if path.isEmpty then .error (.os .noSuchFile)
  else if 4096 ≤ path.utf8ByteSize then .error (.os .nameTooLong)
  else
    match t.follow 40 [] (steps (Path.join directory path)) with
    | .ok place => .ok place
    | .error e => .error (.os e)

/-- The path of a place. -/
def pathOf (place : List String) : String := "/" ++ "/".intercalate place

/-- The absolute path without links that a path leads to. -/
def canonical (t : FileTree) (directory path : String) : Except IoError String :=
  (t.resolve directory path).map pathOf

/-- The content of a file. -/
def read (t : FileTree) (directory path : String) : Except IoError (List UInt8) := do
  let place ← t.resolve directory path
  match t.node? place with
  | some (.file content _) => return content
  | some _ => throw (.os .isADirectory)
  | none => throw (.os .noSuchFile)

/-- The content of a file as text. -/
def readText (t : FileTree) (directory path : String) : Except IoError String := do
  match Text.ofOctets? (← t.read directory path) with
  | some s => return s
  | none => throw .undecodable

end FileTree

/-- The surroundings of a program: its files, its current directory and its process number. -/
structure Host where
  files : FileTree := {}
  directory : String := "/"
  processId : Nat := 0
  deriving Repr

end ColorMarks
