import ColorMarks.Report
import ColorMarks.Server.Timeline

/-!
# The command line

The program starts the server of the settings, opens files, waits for the findings on them, highlights
the first file and prints a report. What it does depends on its arguments, its environment, the files
around it and how servers are launched. Of a server that writes without end each step hears a part only
(`Timeline.turns`).
-/

namespace ColorMarks.Cli

/-- What the arguments ask for. -/
structure Request where
  /-- The file with the settings. -/
  config : Option String := none
  /-- Where the server's module is looked up. -/
  root : Option String := none
  workspace : Option String := none
  debug : Bool := false
  language : Option String := none
  /-- How long to wait for the findings on each file, in milliseconds. -/
  patience : Option Nat := none
  files : List String := []
  deriving DecidableEq, Repr

/-- What becomes of the arguments. -/
inductive Reading where
  | request (r : Request)
  | help
  | refused
  deriving DecidableEq, Repr

/-- An option that takes a value. -/
inductive Setting where
  | config
  | root
  | workspace
  | language
  | patience
  deriving DecidableEq, Repr

namespace Setting

/-- The options by their long names. -/
def table : List (String × Setting) :=
  [("config", config), ("extension-path", root), ("workspace", workspace), ("language", language),
    ("wait-ms", patience)]

/-- The request with an option set; none is set twice, and paths are not empty. -/
def put (s : Setting) (value : String) (r : Request) : Option Request :=
  let path (old : Option String) (f : Option String → Request) : Option Request :=
    if old.isSome || value.isEmpty then none else some (f (some value))
  match s with
  | config => path r.config fun v => { r with config := v }
  | root => path r.root fun v => { r with root := v }
  | workspace => path r.workspace fun v => { r with workspace := v }
  | language => if r.language.isSome then none else some { r with language := some value }
  | patience =>
    if r.patience.isSome then none
    else (Text.nat64? value.toList).map fun n => { r with patience := some n }

end Setting

/-- Whether an argument is no value but an option. -/
def isOption (arg : String) : Bool := arg.toList.head? == some '-' && arg != "-"

/-- The request with one more file. -/
def addFile (file : String) (r : Request) : Option Request :=
  if file.isEmpty then none else some { r with files := r.files ++ [file] }

/-- A long option: its name, and the value that is attached to it. -/
def longOption (cs : List Char) : String × Option String :=
  match Text.cut? '=' cs with
  | some (name, value) => (String.ofList name, some (String.ofList value))
  | none => (String.ofList cs, none)

/-- The request after the arguments in which nothing is an option. -/
def readFiles (r : Request) (args : List String) : Reading :=
  match args.foldlM (fun r file => addFile file r) r with
  | some r => if r.files.isEmpty then .refused else .request r
  | none => .refused

/-- What an argument means. -/
inductive Step where
  /-- The request with what the argument says. -/
  | next (r : Request)
  /-- An option whose value is the next argument. -/
  | value (s : Setting)
  /-- Only files come after it. -/
  | files
  | help
  | refused

/-- The meaning of an argument, given the request before it. -/
def step (r : Request) (arg : String) : Step :=
  let next (r : Option Request) : Step := r.elim .refused .next
  match arg.toList with
  | ['-'] => next (addFile arg r)
  | ['-', '-'] => .files
  | '-' :: '-' :: cs =>
    match longOption cs with
    | ("help", none) => .help
    | ("debug", none) => if r.debug then .refused else .next { r with debug := true }
    | (name, value) =>
      match Setting.table.lookup name, value with
      | some s, some v => next (s.put v r)
      | some s, none => .value s
      | none, _ => .refused
  | ['-', 'c'] => .value .config
  | '-' :: 'c' :: '=' :: cs => next (Setting.config.put (String.ofList cs) r)
  | '-' :: 'c' :: cs => next (Setting.config.put (String.ofList cs) r)
  | '-' :: 'h' :: _ => .help
  | '-' :: _ => .refused
  | _ => next (addFile arg r)

/-- Reads the arguments. -/
def readArgs (r : Request) : List String → Reading
  | [] => readFiles r []
  | arg :: args =>
    match step r arg with
    | .next r => readArgs r args
    | .files => readFiles r args
    | .help => .help
    | .refused => .refused
    | .value s =>
      match args with
      | v :: args =>
        if isOption v then .refused
        else match s.put v r with
          | some r => readArgs r args
          | none => .refused
      | [] => .refused

/-- How the program is called. -/
def usage : String :=
  String.join ([
    "Usage: color-marks [OPTIONS] <FILES>...",
    "",
    "Options:",
    "  -c, --config <CONFIG>                  Settings file",
    "      --extension-path <EXTENSION_PATH>  Directory of the server module [default: .]",
    "      --workspace <WORKSPACE>            Workspace folder",
    "      --debug                            Launch the server for debugging",
    "      --language <LANGUAGE>              Language of the files [default: plaintext]",
    "      --wait-ms <WAIT_MS>                Milliseconds to wait for each file [default: 5000]",
    "  -h, --help                             Print help"].map (· ++ "\n"))

/-- Why the program failed: an error and its causes, each the cause of the one before. -/
structure Failure where
  message : String
  causes : List String := []
  deriving DecidableEq, Repr

namespace Failure

/-- A text with something before its first line and blanks before the others. -/
def hang (first : String) (later : String) (text : String) : String :=
  first ++ ("\n" ++ later).intercalate
    ((Text.pieces '\n' text.toList).map String.ofList)

/-- The number of a cause, aligned to the right. -/
def numbered (n : Nat) : String :=
  let digits := toString n
  String.ofList (List.replicate (5 - digits.length) ' ') ++ digits ++ ": "

/-- The text of the failure; several causes are numbered. -/
def text (f : Failure) : String :=
  let causes := match f.causes with
    | [] => ""
    | [cause] => "\n\nCaused by:\n" ++ hang "    " "    " cause
    | causes => "\n\nCaused by:" ++ String.join (causes.zipIdx.map fun (cause, n) =>
        "\n" ++ hang (numbered n) "       " cause)
  "Error: " ++ f.message ++ causes ++ "\n"

/-- The failure that an error of the client is. -/
def ofClient (e : ClientError) : Failure :=
  match e with
  | .io cause => ⟨e.message, [cause.message]⟩
  | e => ⟨e.message, []⟩

/-- The failure that an error of the settings is. -/
def ofSettings (e : SettingsError) : Failure :=
  match e with
  | .unreadable _ cause => ⟨e.message, [cause.message]⟩
  | e => ⟨e.message, []⟩

/-- A failure that comes from another one. -/
def within (message : String) (f : Failure) : Failure := ⟨message, f.message :: f.causes⟩

end Failure

/-- Opens a file as a document, and keeps its address if the server is told about it. -/
def openFile (h : Host) (language : String) (state : Timeline × List String) (file : String) :
    Except Failure (Timeline × List String) := do
  let (t, uris) := state
  match h.files.readText h.directory file with
  | .error e => throw ⟨"failed to read " ++ file, [e.message]⟩
  | .ok text =>
    let uri := Uri.ofPath h file
    match t.openDocument uri language 1 text with
    | (_, .error e) => throw (.ofClient e)
    | (t, .ok isSelected) => return (t, if isSelected then uris ++ [uri] else uris)

/-- Waits for the findings on documents, one after the other. -/
def waitForAll (patience : Nat) (t : Timeline) (uris : List String) : Timeline :=
  uris.foldl (fun t uri => (t.waitForDiagnostics uri patience).1) t

/-- Opens the files, waits for the findings on them and reports on the first. -/
def report (h : Host) (r : Request) (t : Timeline) : Except Failure Report := do
  let (t, uris) ← r.files.foldlM (openFile h (r.language.getD "plaintext")) (t, [])
  match uris with
  | [] => throw ⟨"none of the files match the document selector", []⟩
  | editor :: _ =>
    let t := waitForAll (r.patience.getD 5000) t uris
    match (t.actAtOnce (Report.make editor uris)).2 with
    | .ok report => return report
    | .error e => throw (.ofClient e)

/-- What the environment of the program is. -/
structure Environment where
  host : Host
  /-- Its variables with their values. -/
  settings : List (String × String) := []
  launcher : Launcher

/-- The mode in which the server is launched. -/
def mode (env : Environment) (r : Request) : LaunchMode :=
  if r.debug then .debug else LaunchMode.ofFlag (env.settings.lookup LaunchMode.flagName)

/-- The settings of the request. -/
def settings (env : Environment) (r : Request) : Except Failure Settings :=
  match r.config with
  | none => .ok {}
  | some path => (Settings.load env.host path).mapError .ofSettings

/-- The extension of the request with its client running. -/
def started (env : Environment) (r : Request) (s : Settings) : Except ClientError Timeline := do
  let extension ← Extension.ofSettings s env.host (r.root.getD ".") r.workspace
  match Timeline.start { extension, launcher := env.launcher } (mode env r) with
  | (t, .ok _) => return t
  | (_, .error e) => throw e

/-- The report that a request asks for. -/
def perform (env : Environment) (r : Request) : Except Failure Report := do
  let s ← settings env r
  match started env r s with
  | .error e => throw (.within "failed to start the language client" (.ofClient e))
  | .ok t => report env.host r t

/-- What the program leaves behind. -/
structure Result where
  code : Nat
  /-- What it prints. -/
  output : String
  /-- What it prints about a failure. -/
  failure : Option String := none
  deriving DecidableEq, Repr

/-- Runs the program on its arguments. -/
def run (env : Environment) (args : List String) : Result :=
  match readArgs {} args with
  | .help => ⟨0, usage, none⟩
  | .refused => ⟨2, "", none⟩
  | .request r =>
    match perform env r with
    | .ok report => ⟨0, report.text, none⟩
    | .error f => ⟨1, "", some f.text⟩

end ColorMarks.Cli
