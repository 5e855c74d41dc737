import ColorMarks.Diagnostic.Record
import ColorMarks.Extension
import ColorMarks.Json.Printer

/-!
# Reports

What a highlighted editor shows, as a record: the documents with the numbers of their findings, the
colors with their locations, and the notices.
-/

namespace ColorMarks

/-- A color in an editor. -/
structure Highlight where
  style : Nat
  /-- The text of the color. -/
  background : String
  locations : List Location
  deriving DecidableEq, Repr

/-- A report on an editor. -/
structure Report where
  /-- The document in the editor. -/
  editor : String
  /-- The documents with the numbers of their findings. -/
  documents : List (String × Nat)
  highlights : List Highlight
  notices : List String
  deriving DecidableEq, Repr

namespace Report

/-- What is visible of a style. -/
def highlight? (w : Window) (s : Style) : Option Highlight := do
  let editor ← w.editor
  let locations ← editor.visible.lookup s.id
  return ⟨s.id, s.options.background.css, locations⟩

/-- The report on some documents in a window, of which one is in the editor. -/
def ofWindow (e : Extension) (w : Window) (editor : String) (documents : List String) : Report where
  editor := editor
  documents := documents.map fun uri => (uri, ((e.client.store.get? uri).getD []).length)
  highlights := w.styles.filterMap (highlight? w)
  notices := w.notices

/--
Takes all that arrived, highlights it in a window with an editor of one of the documents, and reports
on the window.
-/
def make (editor : String) (documents : List String) (e : Extension) :
    Extension × Except ClientError Report :=
  let (e, w, _) := e.poll (Window.withEditor (some editor))
  match e.execute ToggleCommand.name w with
  | .ok (e, w) => (e, .ok (ofWindow e w editor documents))
  | .error cause => (e, .error cause)

/-- The report as a record. -/
def toJson (r : Report) : Json :=
  .object [
    ("editor", .string r.editor),
    ("documents", .list (fun (uri, count) =>
      .object [("uri", .string uri), ("diagnostics", .nat count)]) r.documents),
    ("highlights", .list (fun h : Highlight =>
      .object [("style", .nat h.style), ("background", .string h.background),
        ("locations", .list Location.toJson h.locations)]) r.highlights),
    ("notices", .list .string r.notices)]

/-- The text of the report. -/
def text (r : Report) : String := r.toJson.prettyText ++ "\n"

end Report

end ColorMarks
