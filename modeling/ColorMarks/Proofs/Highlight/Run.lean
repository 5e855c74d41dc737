import ColorMarks.Highlight.Session

/-!
# Runs of a session in a window

What may be done with a session and its window, in any order: `Step`. A toggle may find the focused editor
as often as it likes, or lose it before it is done. `Flip` names what a toggle can come to.
-/

namespace ColorMarks

/-- A change of focus, or of what the focused editor remembers. -/
inductive Window.Move where
  | focus (uri : String)
  | unfocus
  | refocus (place : Nat)
  | clearCalls

/-- The window after a move. -/
def Window.move (w : Window) : Move → Window
  | .focus uri => w.focus uri
  | .unfocus => w.unfocus
  | .refocus place => w.refocus place
  | .clearCalls => w.clearCalls

@[simp] theorem Window.lastStyle_move (w : Window) (m : Move) :
    (w.move m).lastStyle = w.lastStyle := by
  cases m with
  | refocus place =>
    simp only [move, refocus]
    split <;> rfl
  | _ => rfl

@[simp] theorem Window.styles_move (w : Window) (m : Move) : (w.move m).styles = w.styles := by
  cases m with
  | refocus place =>
    simp only [move, refocus]
    split <;> rfl
  | _ => rfl

@[simp] theorem Window.notices_move (w : Window) (m : Move) : (w.move m).notices = w.notices := by
  cases m with
  | refocus place =>
    simp only [move, refocus]
    split <;> rfl
  | _ => rfl

/-- The editor after a group was painted, if its key has a style. -/
def Editor.paintGroup (cache : StyleCache) (e : Editor) (g : String × List Location) : Editor :=
  match cache.get? g.1 with
  | some style => e.paint style g.2
  | none => e

/-- The editor after one call per style to clear it. -/
def Editor.clearStyles (e : Editor) (styles : List Style) : Editor :=
  styles.foldl (fun e style => e.paint style []) e

namespace Session

/-! ## Painting changes the focused editor only -/

theorem paintGroups_eq (cache : StyleCache) (groups : RangeGroups) (w : Window) :
    paintGroups cache groups w =
      { w with editor := w.editor.map fun e => groups.toList.foldl (Editor.paintGroup cache) e } := by
  unfold paintGroups
  induction groups.toList generalizing w with
  | nil => simp
  | cons g gs ih =>
    obtain ⟨key, locations⟩ := g
    rw [List.foldl_cons, ih]
    cases hstyle : cache.get? key <;>
      simp [Editor.paintGroup, hstyle, Window.paint, Function.comp_def]

theorem clearStyles_eq (styles : List Style) (w : Window) :
    clearStyles styles w = { w with editor := w.editor.map fun e => e.clearStyles styles } := by
  unfold clearStyles Editor.clearStyles
  induction styles generalizing w with
  | nil => simp
  | cons style styles ih =>
    rw [List.foldl_cons, ih]
    simp [Window.paint, Function.comp_def]

/-! ## Steps -/

/-- Something that is done with a session or its window. -/
inductive Step where
  | toggle (snapshot : Snapshot) (lookups : Option Nat)
  | reset
  | move (m : Window.Move)

/-- Session and window after a step. -/
def act : Session × Window → Step → Session × Window
  | (s, w), .toggle snapshot lookups =>
    ((s.toggle snapshot ⟨w, lookups⟩).2.1, (s.toggle snapshot ⟨w, lookups⟩).2.2.window)
  | (s, w), .reset => (s.reset, w)
  | (s, w), .move m => (s, w.move m)

/-- Session and window after some steps. -/
def run (x : Session × Window) (steps : List Step) : Session × Window := steps.foldl act x

@[simp] theorem run_nil (x : Session × Window) : run x [] = x := rfl

@[simp] theorem run_cons (x : Session × Window) (a : Step) (steps : List Step) :
    run x (a :: steps) = run (act x a) steps := rfl

/-- The directives of a snapshot for which styles are needed. -/
def directives (policy : Policy) (snapshot : Snapshot) : List Directive :=
  (Grouping.ofSnapshot policy snapshot).toList.map Prod.fst

/-- The window after some groups were painted instead of others, and the user was told. -/
def painted (cache : StyleCache) (before groups : RangeGroups) (w : Window) : Window :=
  (paintGroups cache groups (clearStyles (stylesOf cache before) w)).notify addedNotice

/-- The window after all styles of a cache were cleared, and the user was told. -/
def cleared (cache : StyleCache) (w : Window) : Window :=
  (clearStyles (cache.toList.map Prod.snd) w).notify removedNotice

theorem painted_eq (cache : StyleCache) (before groups : RangeGroups) (w : Window) :
    painted cache before groups w = { w with
      editor := w.editor.map fun e =>
        groups.toList.foldl (Editor.paintGroup cache) (e.clearStyles (stylesOf cache before))
      notices := w.notices ++ [addedNotice] } := by
  rw [painted, paintGroups_eq, clearStyles_eq, Window.notify, Option.map_map]
  rfl

theorem cleared_eq (cache : StyleCache) (w : Window) :
    cleared cache w = { w with
      editor := w.editor.map fun e => e.clearStyles (cache.toList.map Prod.snd)
      notices := w.notices ++ [removedNotice] } := by
  rw [cleared, clearStyles_eq, Window.notify]

@[simp] theorem styles_painted (cache : StyleCache) (before groups : RangeGroups) (w : Window) :
    (painted cache before groups w).styles = w.styles := by rw [painted_eq]

@[simp] theorem lastStyle_painted (cache : StyleCache) (before groups : RangeGroups) (w : Window) :
    (painted cache before groups w).lastStyle = w.lastStyle := by rw [painted_eq]

@[simp] theorem styles_cleared (cache : StyleCache) (w : Window) :
    (cleared cache w).styles = w.styles := by rw [cleared_eq]

@[simp] theorem lastStyle_cleared (cache : StyleCache) (w : Window) :
    (cleared cache w).lastStyle = w.lastStyle := by rw [cleared_eq]

/-- What a toggle comes to. Switching on may end when the styles are given out already. -/
inductive Flip (s : Session) (w : Window) (snapshot : Snapshot) : Session → Window → Prop
  | missed : Flip s w snapshot s w
  | styled {cache : StyleCache} {created : Nat} {w' : Window} (hs : s.active = false)
      (hstyles : allocate (directives s.policy snapshot) s.styles w = (cache, created, w')) :
      Flip s w snapshot { s with styles := cache } w'
  | on {cache : StyleCache} {created : Nat} {w' : Window} {e : Editor} (hs : s.active = false)
      (he : w.editor = some e)
      (hstyles : allocate (directives s.policy snapshot) s.styles w = (cache, created, w')) :
      Flip s w snapshot
        { s with
          active := true, styles := cache, groups := (Grouping.ofSnapshot s.policy snapshot).ranges }
        (painted cache s.groups (Grouping.ofSnapshot s.policy snapshot).ranges w')
  | off {e : Editor} (hs : s.active = true) (he : w.editor = some e) :
      Flip s w snapshot { s with active := false, groups := .empty } (cleared s.styles w)

/-- An editor that is found is focused. -/
theorem exists_editor_of_found {v : View} (h : v.found = true) : ∃ e, v.window.editor = some e := by
  rw [View.found, Bool.and_eq_true] at h
  exact Option.isSome_iff_exists.1 h.2

theorem toggle_flip (s : Session) (w : Window) (snapshot : Snapshot) (lookups : Option Nat) :
    Flip s w snapshot (s.toggle snapshot ⟨w, lookups⟩).2.1
      (s.toggle snapshot ⟨w, lookups⟩).2.2.window := by
  unfold toggle
  by_cases hfound : View.found ⟨w, lookups⟩ = true
  · obtain ⟨e, he⟩ := exists_editor_of_found hfound
    rw [if_pos hfound]
    cases hs : s.active with
    | true =>
      rw [if_pos rfl, switchOff]
      split
      · exact .off hs he
      · exact .missed
    | false =>
      rw [if_neg Bool.false_ne_true, switchOn]
      rcases hstyles : allocate (directives s.policy snapshot) s.styles w with ⟨cache, created, w'⟩
      have hstyles' : allocate ((Grouping.ofSnapshot s.policy snapshot).toList.map Prod.fst)
          s.styles (View.asked ⟨w, lookups⟩).window = (cache, created, w') := hstyles
      simp only [hstyles']
      split
      · exact .on hs he hstyles
      · exact .styled hs hstyles
  · rw [if_neg hfound]
    exact .missed

end Session

end ColorMarks
