import ColorMarks.Highlight.Grouping
import ColorMarks.Highlight.StyleCache
import ColorMarks.Window

/-!
# Highlighting sessions

A session is a switch. Switching on paints every color group of a snapshot in the focused editor;
switching off clears every style that the session ever used. The styles stay, so that a color keeps
its style from one time to the next.
-/

namespace ColorMarks

/--
A window as one toggle sees it: the focused editor is found only as often as `lookups` says, always
if it says nothing.
-/
structure View where
  window : Window
  lookups : Option Nat := none
  deriving DecidableEq, Repr

namespace View

/-- Whether the focused editor is found when asked for. -/
def found (v : View) : Bool := v.lookups != some 0 && v.window.editor.isSome

/-- The view after the focused editor was asked for. -/
def asked (v : View) : View := { v with lookups := v.lookups.map (· - 1) }

end View

/-- What a toggle did. -/
inductive Outcome where
  | noActiveEditor
  | added (groups createdStyles locations : Nat)
  | removed (clearedStyles : Nat)
  deriving DecidableEq, Repr

/-- A switch with its styles, and the groups that are painted while it is on. -/
structure Session where
  active : Bool := false
  policy : Policy := .render
  styles : StyleCache := .empty
  groups : RangeGroups := .empty
  deriving DecidableEq, Repr

namespace Session

/-- A session that is off and has no styles. -/
def new (policy : Policy) : Session := { policy := policy }

/-- The session without styles and groups, and off. Nothing is cleared in any editor. -/
def reset (s : Session) : Session := new s.policy

/-- The notice after switching on. -/
def addedNotice : String := "Added highlight!"

/-- The notice after switching off. -/
def removedNotice : String := "Removed highlight!"

/--
The cache and the window after each directive was given a style, and how many styles were new.
-/
def allocate : List Directive → StyleCache → Window → StyleCache × Nat × Window
  | [], cache, w => (cache, 0, w)
  | d :: ds, cache, w =>
    let (cache, created, w) := cache.getOrCreate d.key ⟨d.fill⟩ Window.createStyle w
    let (cache, n, w) := allocate ds cache w
    (cache, n + created.toNat, w)

/-- The window after one call per style to clear it in the focused editor. -/
def clearStyles (styles : List Style) (w : Window) : Window :=
  styles.foldl (fun w style => w.paint style []) w

/-- The window after each group with a style was painted in the focused editor. -/
def paintGroups (cache : StyleCache) (groups : RangeGroups) (w : Window) : Window :=
  groups.toList.foldl (fun w (key, locations) =>
    match cache.get? key with
    | some style => w.paint style locations
    | none => w) w

/-- The styles of the keys of some groups. -/
def stylesOf (cache : StyleCache) (groups : RangeGroups) : List Style :=
  groups.keys.filterMap cache.get?

/--
Switching on. The missing styles are given out before the editor is asked for once more, and they
are kept if it is gone.
-/
def switchOn (s : Session) (snapshot : Snapshot) (v : View) : Outcome × Session × View :=
  let grouping := Grouping.ofSnapshot s.policy snapshot
  let (cache, created, w) := allocate (grouping.toList.map Prod.fst) s.styles v.window
  let s := { s with styles := cache }
  let v := { v with window := w }
  if v.found then
    let groups := grouping.ranges
    let w := paintGroups cache groups (clearStyles (stylesOf cache s.groups) w)
    (.added groups.size created groups.locationCount,
      { s with active := true, groups := groups },
      { v.asked with window := w.notify addedNotice })
  else (.noActiveEditor, s, v.asked)

/-- Switching off. -/
def switchOff (s : Session) (v : View) : Outcome × Session × View :=
  if v.found then
    let w := clearStyles (s.styles.toList.map Prod.snd) v.window
    (.removed s.styles.size, { s with active := false, groups := .empty },
      { v.asked with window := w.notify removedNotice })
  else (.noActiveEditor, s, v.asked)

/-- Flips the switch, unless no editor is found. -/
def toggle (s : Session) (snapshot : Snapshot) (v : View) : Outcome × Session × View :=
  if v.found then
    if s.active then s.switchOff v.asked else s.switchOn snapshot v.asked
  else (.noActiveEditor, s, v.asked)

/-- Flips the switch in a window whose focused editor is always found. -/
def toggleIn (s : Session) (snapshot : Snapshot) (w : Window) : Outcome × Session × Window :=
  let (outcome, s, v) := s.toggle snapshot ⟨w, none⟩
  (outcome, s, v.window)

end Session

end ColorMarks
