import ColorMarks.Proofs.Client.Calls
import ColorMarks.Proofs.Glob

/-!
# Which file events are told

With the default pattern a file is watched exactly if its name is the one of the pattern, in whatever
directory and whether or not that lies in the workspace. An event of such a file is one message about the
whole path, and an event of any other file is none (`fileEvent_of_default`). What a message tells is read
off its members (`TellsChange`), not compared with the message that is built for the event.
-/

namespace ColorMarks

/-- The number that stands for a change. -/
inductive FileChange.IsKind : FileChange → Int → Prop
  | created : IsKind .created 1
  | changed : IsKind .changed 2
  | deleted : IsKind .deleted 3

/-- A message tells of the change of one file and of nothing else. -/
structure TellsChange (uri : String) (change : FileChange) (m : Json) : Prop where
  version : m.get? "jsonrpc" = some (.string "2.0")
  method : m.get? "method" = some (.string "workspace/didChangeWatchedFiles")
  /-- It is no request. -/
  id : m.get? "id" = none
  /-- There is one entry in its list of changes, with the address of the file and the kind of the change. -/
  entry : ∃ entry kind, (m.get? "params").bind (·.get? "changes") = some (.array [entry]) ∧
    entry.get? "uri" = some (.string uri) ∧ entry.get? "type" = some (.integer kind) ∧
    change.IsKind kind

theorem FileChange.isKind_number (change : FileChange) : change.IsKind change.number := by
  cases change with
  | created => exact .created
  | changed => exact .changed
  | deleted => exact .deleted

theorem tellsChange_message (uri : String) (change : FileChange) :
    TellsChange uri change (Update.changed uri change).message where
  version := rfl
  method := rfl
  id := rfl
  entry := ⟨_, _, rfl, rfl, rfl, change.isKind_number⟩

namespace Client

variable {c : Client} {path name : String}

/-- What the patterns see of a path ends in the name of the path. -/
theorem endsIn_watchedPath (hpath : Path.EndsIn path name) (hname : Path.IsName name)
    (hroot : ∀ root, c.workspace = some root → Path.components root ≠ Path.components path) :
    Path.EndsIn (c.watchedPath path) name := by
  unfold watchedPath
  cases hworkspace : c.workspace with
  | none => exact hpath
  | some root =>
    cases hrest : Path.relativeTo? root path with
    | none => simpa [hrest] using hpath
    | some rest =>
      simpa [hrest] using Path.endsIn_of_relativeTo? hrest hpath hname (hroot root hworkspace)

/-- With the default pattern, an event of a file that is not the workspace itself is told exactly if the
file has the name of the pattern, wherever it lies. It is told by one message, with the address of the whole
path and not of the rest that the pattern sees; it can only fail if nothing can be told at all. -/
theorem fileEvent_of_default (c : Client) (path name : String) (change : FileChange)
    (hwatched : WatchFilter.ofPatterns [WatchFilter.defaultPattern] = .ok c.options.watched)
    (hname : Path.IsName name) (hpath : Path.EndsIn path name)
    (hroot : ∀ root, c.workspace = some root → Path.components root ≠ Path.components path) :
    (c.options.watched.accepts (c.watchedPath path) = true ↔ name = ".clientrc") ∧
      (name ≠ ".clientrc" → c.fileEvent path change = (c, .ok false)) ∧
      (name = ".clientrc" →
        (∀ k, c.connection = some k → k.writing = true → ∃ k' m,
          c.fileEvent path change = ({ c with connection := some k' }, .ok true) ∧
          k'.handed = k.handed ++ [m] ∧ TellsChange (Uri.ofPath c.host path) change m) ∧
        ∀ e, c.obstacle? = some e → c.fileEvent path change = (c, .error e)) := by
  have haccepts : c.options.watched.accepts (c.watchedPath path) = true ↔ name = ".clientrc" :=
    WatchFilter.accepts_iff_of_default hwatched hname.slash (endsIn_watchedPath hpath hname hroot)
  refine ⟨haccepts, fun hother => ?_, fun hsame => ?_⟩
  · have hnone : Call.update? c (.fileEvent path change) = none := if_neg fun h => hother (haccepts.1 h)
    exact call_of_spared rfl hnone
  · have hu : Call.update? c (.fileEvent path change) =
        some (.changed (Uri.ofPath c.host path) change) := if_pos (haccepts.2 hsame)
    refine ⟨fun k hc hwriting => ?_, fun e he => call_of_obstacle hu he⟩
    obtain ⟨k', htold, hhanded⟩ := call_of_writing hc hwriting hu
    exact ⟨k', _, htold, hhanded, tellsChange_message _ _⟩

/-- A hidden directory and one whose name is a pattern, in the workspace and outside of it: the file is
found in both, and one whose name only ends like it is not. -/
theorem fileEvent_of_default_hidden :
    let c : Client := { Client.new "client" "Client" {} (ServerOptions.ofModule "server" none)
      ⟨[⟨none, none⟩], .default, 1, 1⟩ (some "/w/[*]") with connection := some {} }
    (∃ k m, c.fileEvent "/w/[*]/.a/.clientrc" .created =
        ({ c with connection := some k }, .ok true) ∧
      k.handed = [m] ∧ TellsChange "file:///w/%5B%2A%5D/.a/.clientrc" .created m) ∧
      (∃ k m, c.fileEvent "../.clientrc" .deleted = ({ c with connection := some k }, .ok true) ∧
        k.handed = [m] ∧ TellsChange "file:///../.clientrc" .deleted m) ∧
      c.fileEvent "/w/[*]/.clientrc/a.clientrc" .changed = (c, .ok false) ∧
      { c with connection := none }.fileEvent "/w/[*]/.a/.clientrc" .created =
        ({ c with connection := none }, .error (.notRunning "client")) := by
  intro c
  have hname : Path.IsName ".clientrc" := ⟨by decide, by decide, by decide, by decide⟩
  have hother : Path.IsName "a.clientrc" := ⟨by decide, by decide, by decide, by decide⟩
  have hinside : Path.EndsIn "/w/[*]/.a/.clientrc" ".clientrc" := .inr ⟨"/w/[*]/.a", by decide⟩
  have hroot : ∀ root, some "/w/[*]" = some root →
      Path.components root ≠ Path.components "/w/[*]/.a/.clientrc" := by
    rintro _ ⟨⟩
    decide +kernel
  have haddress : Uri.ofPath c.host "/w/[*]/.a/.clientrc" = "file:///w/%5B%2A%5D/.a/.clientrc" := by
    decide +kernel
  have haddress' : Uri.ofPath c.host "../.clientrc" = "file:///../.clientrc" := by decide +kernel
  refine ⟨?_, ?_, ?_, ?_⟩
  · obtain ⟨-, -, htold⟩ := fileEvent_of_default c "/w/[*]/.a/.clientrc" ".clientrc" .created
      WatchFilter.ofPatterns_default hname hinside hroot
    rw [← haddress]
    exact (htold rfl).1 _ rfl rfl
  · obtain ⟨-, -, htold⟩ := fileEvent_of_default c "../.clientrc" ".clientrc" .deleted
      WatchFilter.ofPatterns_default hname (.inr ⟨"..", by decide⟩) (by rintro _ ⟨⟩; decide +kernel)
    rw [← haddress']
    exact (htold rfl).1 _ rfl rfl
  · obtain ⟨-, hspared, -⟩ := fileEvent_of_default c "/w/[*]/.clientrc/a.clientrc" "a.clientrc" .changed
      WatchFilter.ofPatterns_default hother (.inr ⟨"/w/[*]/.clientrc", by decide⟩)
      (by rintro _ ⟨⟩; decide +kernel)
    exact hspared (by decide)
  · obtain ⟨-, -, htold⟩ := fileEvent_of_default { c with connection := none } "/w/[*]/.a/.clientrc"
      ".clientrc" .created WatchFilter.ofPatterns_default hname hinside hroot
    exact (htold rfl).2 _ rfl

end Client

end ColorMarks
