import ColorMarks.Highlight.Session
import ColorMarks.Proofs.Store
import Mathlib.Data.List.DropRight

/-!
# In which order the findings came

A store is updated and cleared any number of times. What it holds in the end is known from the last update
of each document after the last clear (`Store.snapshot_eq_iff`): not from the order of the documents, not
from what was replaced, and not from documents that came and went.
-/

namespace ColorMarks

namespace Store

/-- What happens to a store. -/
inductive Change where
  | update (publication : Publication)
  | clear

/-- The update, if it is one. -/
def Change.update? : Change → Option Publication
  | update p => some p
  | clear => none

/-- The store after one change. -/
def change (s : Store) : Change → Store
  | .update p => s.update p.uri p.diagnostics
  | .clear => .empty

/-- A new store after some changes. -/
def changed (cs : List Change) : Store := cs.foldl change .empty

/-- The updates after the last clear. -/
def sinceClear (cs : List Change) : List Publication :=
  (cs.rtakeWhile fun c => c.update?.isSome).filterMap Change.update?

@[simp] theorem changed_concat (cs : List Change) (c : Change) :
    changed (cs ++ [c]) = (changed cs).change c := by
  simp [changed]

@[simp] theorem sinceClear_concat_update (cs : List Change) (p : Publication) :
    sinceClear (cs ++ [.update p]) = sinceClear cs ++ [p] := by
  simp [sinceClear, Change.update?]

@[simp] theorem sinceClear_concat_clear (cs : List Change) : sinceClear (cs ++ [.clear]) = [] := by
  simp [sinceClear, Change.update?]

/-- One change: an update counts with those before it, a clear makes them count no more. -/
theorem Holds.change {s : Store} {cs : List Change} (h : s.Holds (sinceClear cs)) (c : Change) :
    (s.change c).Holds (sinceClear (cs ++ [c])) := by
  cases c with
  | update p =>
    rw [sinceClear_concat_update]
    exact h.update p
  | clear =>
    rw [sinceClear_concat_clear]
    exact holds_empty

/-- After any changes the store holds what was updated last since the last clear. -/
theorem holds_changed (cs : List Change) : (changed cs).Holds (sinceClear cs) := by
  induction cs using List.reverseRecOn with
  | nil => exact holds_empty
  | append_singleton cs c ih =>
    rw [changed_concat]
    exact ih.change c

/-- A document that the store holds has findings. -/
theorem Holds.ne_nil {s : Store} {ps : List Publication} (h : s.Holds ps) {e : String × List Diagnostic}
    (he : e ∈ s.snapshot) : e.2 ≠ [] := by
  have hlookup : s.get? e.1 = some e.2 := Ordered.lookup_of_mem h.sorted he
  rw [h.lookup, lastFindings?] at hlookup
  split at hlookup
  · cases hlookup
  · rename_i hsome
    rw [← Option.some.inj hlookup]
    simpa using hsome

/-- Stores hold the same exactly if the same was updated last. -/
theorem snapshot_eq_iff {cs cs' : List Change} :
    (changed cs).snapshot = (changed cs').snapshot ↔
      ∀ uri, lastFindings? (sinceClear cs) uri = lastFindings? (sinceClear cs') uri := by
  have h := holds_changed cs
  have h' := holds_changed cs'
  constructor
  · intro heq uri
    rw [← h.lookup, ← h'.lookup]
    exact congrArg (List.lookup uri) heq
  · intro hlast
    apply Ordered.eq_of_lookup h.sorted h'.sorted
    intro uri
    exact (h.lookup uri).trans ((hlast uri).trans (h'.lookup uri).symm)

/-- Two stores that got the same last findings for each document, in whatever order, cannot be told apart:
they list the same documents in ascending order, none without findings, so the findings are grouped the
same, and a session that begins gives out the same styles and paints the same. -/
theorem independent_of_order {cs cs' : List Change}
    (hlast : ∀ uri, lastFindings? (sinceClear cs) uri = lastFindings? (sinceClear cs') uri) :
    (changed cs).snapshot = (changed cs').snapshot ∧
      (changed cs).snapshot.Pairwise (fun e f => e.1 < f.1) ∧
      (∀ e ∈ (changed cs).snapshot, e.2 ≠ []) ∧
      (∀ policy, Grouping.ofSnapshot policy (changed cs).snapshot =
        Grouping.ofSnapshot policy (changed cs').snapshot) ∧
      ∀ policy v, (Session.new policy).toggle (changed cs).snapshot v =
        (Session.new policy).toggle (changed cs').snapshot v := by
  have hsame := snapshot_eq_iff.2 hlast
  refine ⟨hsame, ?_, fun e he => (holds_changed cs).ne_nil he, ?_, ?_⟩
  · exact List.pairwise_map.1 (holds_changed cs).sorted
  · intro policy
    rw [hsame]
  · intro policy v
    rw [hsame]

private def located (uri message : String) : Diagnostic :=
  ⟨⟨⟨0, 0⟩, ⟨0, 3⟩⟩, none, none, none, message, [⟨⟨uri, ⟨⟨0, 0⟩, ⟨0, 3⟩⟩⟩, "Color:1,2,3"⟩]⟩

/-- One document is replaced, one forgotten and known again. -/
private def roundabout : List Change :=
  [.update ⟨"file:///b", none, [located "file:///b" "early"]⟩,
    .update ⟨"file:///a", none, [located "file:///a" "last"]⟩,
    .update ⟨"file:///b", none, [located "file:///b" "last"]⟩,
    .update ⟨"file:///a", none, []⟩,
    .update ⟨"file:///a", none, [located "file:///a" "last"]⟩]

/-- A document that a clear removes, one that is emptied, and then the two of `roundabout`. -/
private def afterClear : List Change :=
  [.update ⟨"file:///d", none, [located "file:///d" "gone"]⟩,
    .clear,
    .update ⟨"file:///c", none, []⟩,
    .update ⟨"file:///a", none, [located "file:///a" "last"]⟩,
    .update ⟨"file:///b", none, [located "file:///b" "last"]⟩]

theorem independent_of_order_after_clear :
    (∀ uri, lastFindings? (sinceClear roundabout) uri = lastFindings? (sinceClear afterClear) uri) ∧
      (changed roundabout).snapshot = (changed afterClear).snapshot ∧
      (changed roundabout).snapshot.map Prod.fst = ["file:///a", "file:///b"] := by
  have hlast : ∀ uri, lastFindings? (sinceClear roundabout) uri =
      lastFindings? (sinceClear afterClear) uri := by
    intro uri
    by_cases ha : "file:///a" = uri
    · subst ha
      decide
    by_cases hb : "file:///b" = uri
    · subst hb
      decide
    by_cases hc : "file:///c" = uri
    · subst hc
      decide
    have hnone : lastPublished (sinceClear roundabout) uri = [] :=
      lastPublished_eq_nil (by simp [sinceClear, roundabout, List.rtakeWhile, Change.update?, ha, hb])
    have hnone' : lastPublished (sinceClear afterClear) uri = [] :=
      lastPublished_eq_nil (by simp [sinceClear, afterClear, List.rtakeWhile, Change.update?, ha, hb, hc])
    rw [lastFindings?, lastFindings?, hnone, hnone']
  exact ⟨hlast, (independent_of_order hlast).1, by decide⟩

end Store

end ColorMarks
