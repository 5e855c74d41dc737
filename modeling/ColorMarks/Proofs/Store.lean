import ColorMarks.Notification
import ColorMarks.Proofs.Ordered
import ColorMarks.Store

/-!
# What the store holds

After any publications the store holds for every document the findings that were published last, in
ascending order of the documents, and nothing for a document whose last publication was empty.
-/

namespace ColorMarks

/-- The findings last published for a document. -/
def lastPublished (ps : List Publication) (uri : String) : List Diagnostic :=
  ((ps.reverse.find? fun p => p.uri == uri).map Publication.diagnostics).getD []

@[simp] theorem lastPublished_nil (uri : String) : lastPublished [] uri = [] := rfl

theorem lastPublished_concat (ps : List Publication) (p : Publication) (uri : String) :
    lastPublished (ps ++ [p]) uri = if p.uri = uri then p.diagnostics else lastPublished ps uri := by
  by_cases h : p.uri = uri
  · simp [lastPublished, h]
  · simp [lastPublished, h]

/-- Nothing was published for a document that no publication names. -/
theorem lastPublished_eq_nil {ps : List Publication} {uri : String} (h : ∀ p ∈ ps, p.uri ≠ uri) :
    lastPublished ps uri = [] := by
  have hnone : (ps.reverse.find? fun p => p.uri == uri) = none := by
    rw [List.find?_eq_none]
    intro p hp
    simpa using h p (List.mem_reverse.1 hp)
  rw [lastPublished, hnone]
  rfl

/-- The findings last published for a document, if there are any. -/
def lastFindings? (ps : List Publication) (uri : String) : Option (List Diagnostic) :=
  if (lastPublished ps uri).isEmpty then none else some (lastPublished ps uri)

namespace Store

/-- The store holds what was published last. -/
structure Holds (s : Store) (ps : List Publication) : Prop where
  sorted : Ordered.Sorted s.entries
  lookup : ∀ uri, s.get? uri = lastFindings? ps uri

theorem holds_empty : Store.empty.Holds [] where
  sorted := List.Pairwise.nil
  lookup := fun _ => rfl

/-- A publication replaces what was held for its document. -/
theorem Holds.update {s : Store} {ps : List Publication} (h : s.Holds ps) (p : Publication) :
    (s.update p.uri p.diagnostics).Holds (ps ++ [p]) := by
  unfold Store.update
  by_cases hempty : p.diagnostics.isEmpty = true
  · rw [if_pos hempty]
    refine ⟨Ordered.sorted_erase p.uri h.sorted, fun uri => ?_⟩
    rw [lastFindings?, lastPublished_concat, get?]
    by_cases huri : p.uri = uri
    · subst huri
      simp [hempty]
    · rw [if_neg huri, Ordered.lookup_erase_of_ne (Ne.symm huri)]
      exact h.lookup uri
  · rw [if_neg hempty]
    refine ⟨Ordered.sorted_insert p.uri p.diagnostics h.sorted, fun uri => ?_⟩
    rw [lastFindings?, lastPublished_concat, get?]
    by_cases huri : p.uri = uri
    · subst huri
      simp [hempty]
    · rw [if_neg huri, Ordered.lookup_insert_of_ne (Ne.symm huri)]
      exact h.lookup uri

end Store

/--
The related places that count after some publications: those of the findings last published for each
document, documents in ascending order.
-/
def CurrentRelated (ps : List Publication) (related : List Related) : Prop :=
  ∃ docs : List String, docs.Pairwise (· < ·) ∧ (∀ uri, uri ∈ docs ↔ ∃ p ∈ ps, p.uri = uri) ∧
    related = docs.flatMap fun uri => (lastPublished ps uri).flatMap Diagnostic.related

/-- A document without findings adds nothing to the findings of some documents. -/
theorem flatMap_lastFindings (ps : List Publication) (docs : List String) :
    (docs.filterMap fun uri => (lastFindings? ps uri).map fun ds => (uri, ds)).flatMap Prod.snd =
      docs.flatMap (lastPublished ps) := by
  induction docs with
  | nil => rfl
  | cons uri docs ih =>
    by_cases hempty : lastPublished ps uri = []
    · simp [lastFindings?, hempty, ← ih]
    · simp [lastFindings?, hempty, ← ih]

/-- The entries of the store are the documents that have findings, with their findings. -/
theorem Store.Holds.entries_eq {s : Store} {ps : List Publication} (h : s.Holds ps)
    {docs : List String} (hdocs : docs.Pairwise (· < ·))
    (hpublished : ∀ uri, uri ∈ docs ↔ ∃ p ∈ ps, p.uri = uri) :
    s.entries = docs.filterMap fun uri => (lastFindings? ps uri).map fun ds => (uri, ds) := by
  apply Ordered.eq_of_lookup h.sorted
  · rw [Ordered.Sorted, List.pairwise_map, List.pairwise_filterMap]
    refine hdocs.imp fun hlt e he f hf => ?_
    obtain ⟨_, -, rfl⟩ := Option.map_eq_some_iff.1 he
    obtain ⟨_, -, rfl⟩ := Option.map_eq_some_iff.1 hf
    exact hlt
  · intro uri
    rw [Ordered.lookup_filterMap]
    by_cases hmem : uri ∈ docs
    · rw [if_pos hmem]
      exact h.lookup uri
    · have hnever : lastPublished ps uri = [] :=
        lastPublished_eq_nil fun p hp heq => hmem ((hpublished uri).2 ⟨p, hp, heq⟩)
      have hnone := h.lookup uri
      rw [lastFindings?, hnever] at hnone
      rw [if_neg hmem]
      exact hnone

/-- The snapshot of the store has the related places that count, in their order. -/
theorem Store.Holds.currentRelated {s : Store} {ps : List Publication} (h : s.Holds ps) :
    CurrentRelated ps s.snapshot.related := by
  obtain ⟨docs, hdocs, hmem⟩ := Ordered.exists_ascending (ps.map Publication.uri)
  have hpublished : ∀ uri, uri ∈ docs ↔ ∃ p ∈ ps, p.uri = uri := by
    intro uri
    rw [hmem, List.mem_map]
  refine ⟨docs, hdocs, hpublished, ?_⟩
  rw [Snapshot.related, Snapshot.diagnostics, snapshot, h.entries_eq hdocs hpublished,
    flatMap_lastFindings, List.flatMap_assoc]

end ColorMarks
