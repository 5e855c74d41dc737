import ColorMarks.Proofs.Highlight.Run
import Mathlib.Data.List.Forall2
import Mathlib.Data.List.Perm.Basic

/-!
# Notes about the editors of a window

A layout holds one note for each editor of a window, and goes through the same moves: the note of an
editor stays with it (`Window.Noted.move`). A new editor gets a note of its own.
-/

namespace ColorMarks

/-- Notes about the focused editor and about the parked ones. -/
structure Layout (α : Type) where
  focused : Option α
  parked : List α := []

namespace Layout

variable {α : Type}

/-- All notes. -/
def all (l : Layout α) : List α := l.parked ++ l.focused.toList

/-- The layout with another note of the focused editor, the one before it parked. -/
def setFocus (l : Layout α) (note : Option α) : Layout α := ⟨note, l.all⟩

/-- The layout after a move; a new editor has the note `fresh`. -/
def move (fresh : α) (l : Layout α) : Window.Move → Layout α
  | .focus _ => l.setFocus (some fresh)
  | .unfocus => l.setFocus none
  | .refocus place =>
    match l.parked[place]? with
    | some note => { l with parked := l.parked.eraseIdx place }.setFocus (some note)
    | none => l
  | .clearCalls => l

/-- A move keeps all notes, up to those of new editors. -/
theorem countP_move {p : α → Bool} {fresh : α} (hfresh : p fresh = false) (l : Layout α)
    (m : Window.Move) : (l.move fresh m).all.countP p = l.all.countP p := by
  cases m with
  | focus uri => simp [move, setFocus, all, hfresh]
  | unfocus => simp [move, setFocus, all]
  | refocus place =>
    simp only [move]
    cases hnote : l.parked[place]? with
    | none => rfl
    | some note =>
      obtain ⟨hlt, rfl⟩ := List.getElem?_eq_some_iff.1 hnote
      have hparked := (List.getElem_cons_eraseIdx_perm hlt).countP_eq p
      rw [List.countP_cons] at hparked
      simp only [setFocus, all, Option.toList_some, List.countP_append, List.countP_singleton]
      omega
  | clearCalls => rfl

end Layout

/-- Every editor of a window stands in a relation to its note. -/
structure Window.Noted {α : Type} (R : Editor → α → Prop) (w : Window) (l : Layout α) : Prop where
  focused : List.Forall₂ R w.editor.toList l.focused.toList
  parked : List.Forall₂ R w.parked l.parked

/-- What stands at the same place of related lists is related. -/
theorem forall₂_getElem? {α β : Type} {R : α → β → Prop} {as : List α} {bs : List β}
    (h : List.Forall₂ R as bs) (i : Nat) : List.Forall₂ R as[i]?.toList bs[i]?.toList := by
  induction h generalizing i with
  | nil => exact .nil
  | cons hab _ ih =>
    cases i with
    | zero => exact .cons hab .nil
    | succ i => simpa using ih i

theorem forall₂_eraseIdx {α β : Type} {R : α → β → Prop} {as : List α} {bs : List β}
    (h : List.Forall₂ R as bs) (i : Nat) : List.Forall₂ R (as.eraseIdx i) (bs.eraseIdx i) := by
  rw [List.eraseIdx_eq_take_drop_succ, List.eraseIdx_eq_take_drop_succ]
  exact List.rel_append (List.forall₂_take i h) (List.forall₂_drop (i + 1) h)

namespace Window

variable {α : Type} {R S : Editor → α → Prop} {w : Window} {l : Layout α}

theorem Noted.imp (h : w.Noted R l) (himp : ∀ e note, R e note → S e note) : w.Noted S l :=
  ⟨h.focused.imp himp, h.parked.imp himp⟩

/-- The note of the focused editor. -/
theorem Noted.exists_note (h : w.Noted R l) {e : Editor} (he : w.editor = some e) :
    ∃ note, l.focused = some note ∧ R e note := by
  have hfocused := h.focused
  rw [he] at hfocused
  cases hnote : l.focused with
  | none => rw [hnote] at hfocused; cases hfocused
  | some note =>
    rw [hnote] at hfocused
    cases hfocused with
    | cons hrel _ => exact ⟨note, rfl, hrel⟩

theorem Noted.setFocus (h : w.Noted R l) {e : Option Editor} {note : Option α}
    (hfocused : List.Forall₂ R e.toList note.toList) : (w.setFocus e).Noted R (l.setFocus note) :=
  ⟨hfocused, List.rel_append h.parked h.focused⟩

/-- Moves keep the relation, if new editors have it and it does not depend on the calls. -/
theorem Noted.move (h : w.Noted R l) {fresh : α} (hfresh : ∀ uri, R (.new uri) fresh)
    (hcalls : ∀ e note, R e note → R e.clearCalls note) (m : Move) :
    (w.move m).Noted R (l.move fresh m) := by
  cases m with
  | focus uri => exact h.setFocus (.cons (hfresh uri) .nil)
  | unfocus => exact h.setFocus .nil
  | refocus place =>
    have hplace := forall₂_getElem? h.parked place
    simp only [Window.move, refocus, Layout.move]
    cases heditor : w.parked[place]? <;> cases hnote : l.parked[place]? <;>
      rw [heditor, hnote] at hplace
    · exact h
    · cases hplace
    · cases hplace
    · have hremoved : { w with parked := w.parked.eraseIdx place }.Noted R
          { l with parked := l.parked.eraseIdx place } :=
        ⟨h.focused, forall₂_eraseIdx h.parked place⟩
      exact hremoved.setFocus hplace
  | clearCalls =>
    refine ⟨?_, h.parked⟩
    have hfocused := h.focused
    show List.Forall₂ R (w.editor.map Editor.clearCalls).toList l.focused.toList
    cases heditor : w.editor <;> cases hnote : l.focused <;> rw [heditor, hnote] at hfocused
    · exact .nil
    · cases hfocused
    · cases hfocused
    · rename_i e note
      obtain ⟨hrel, -⟩ := List.forall₂_cons.1 hfocused
      exact .cons (hcalls e note hrel) .nil

end Window

end ColorMarks
