import ColorMarks.Highlight.Style
import ColorMarks.Diagnostic.Basic
import ColorMarks.Ordered

/-!
# Windows and editors

A window gives out styles, shows notices and has at most one focused editor. An editor remembers
every call that painted or cleared a style, and which ranges of each style are visible.
-/

namespace ColorMarks

/-- One call to an editor: the ranges of a style, none of them to clear it. -/
structure PaintCall where
  style : Nat
  ranges : List Location
  deriving DecidableEq, Repr

/-- An editor of one document. -/
structure Editor where
  uri : String
  calls : List PaintCall := []
  /-- The ranges of each style that is visible, by ascending style number. -/
  visible : List (Nat × List Location) := []
  deriving DecidableEq, Repr

namespace Editor

/-- An editor in which nothing was painted. -/
def new (uri : String) : Editor := ⟨uri, [], []⟩

/-- The editor after the ranges of a style were replaced. -/
def paint (e : Editor) (style : Style) (ranges : List Location) : Editor where
  uri := e.uri
  calls := e.calls ++ [⟨style.id, ranges⟩]
  visible :=
    if ranges.isEmpty then Ordered.erase style.id e.visible
    else Ordered.insert style.id ranges e.visible

/-- The editor without its memory of calls. -/
def clearCalls (e : Editor) : Editor := { e with calls := [] }

end Editor

/-- A window. -/
structure Window where
  /-- The focused editor. -/
  editor : Option Editor := none
  /-- The editors that lost focus, in the order in which they did. -/
  parked : List Editor := []
  /-- The styles given out, in order. -/
  styles : List Style := []
  notices : List String := []
  /-- The number of the last style given out. -/
  lastStyle : Nat := 0
  deriving DecidableEq, Repr

namespace Window

/-- A window without an editor. -/
def empty : Window := {}

/-- A window focused on a new editor of a document, if one is given. -/
def withEditor (uri : Option String) : Window := { editor := uri.map Editor.new }

/-- The window after a style was given out, and the style. -/
def createStyle (options : StyleOptions) (w : Window) : Style × Window :=
  let style : Style := ⟨w.lastStyle + 1, options⟩
  (style, { w with styles := w.styles ++ [style], lastStyle := w.lastStyle + 1 })

/-- The window after a notice. -/
def notify (w : Window) (notice : String) : Window := { w with notices := w.notices ++ [notice] }

/-- The window with the ranges of a style replaced in the focused editor. -/
def paint (w : Window) (style : Style) (ranges : List Location) : Window :=
  { w with editor := w.editor.map fun e => e.paint style ranges }

/-- The window with another focused editor, the one before it parked. -/
def setFocus (w : Window) (editor : Option Editor) : Window :=
  { w with editor := editor, parked := w.parked ++ w.editor.toList }

/-- The window focused on a new editor of a document. -/
def focus (w : Window) (uri : String) : Window := w.setFocus (some (Editor.new uri))

/-- The window without a focused editor. -/
def unfocus (w : Window) : Window := w.setFocus none

/-- The window focused on the parked editor at this place, if there is one. -/
def refocus (w : Window) (place : Nat) : Window :=
  match w.parked[place]? with
  | some editor => { w with parked := w.parked.eraseIdx place }.setFocus (some editor)
  | none => w

/-- The window with the focused editor's memory of calls cleared. -/
def clearCalls (w : Window) : Window := { w with editor := w.editor.map Editor.clearCalls }

end Window

end ColorMarks
