import ColorMarks.Proofs.Highlight.Allocation
import ColorMarks.Proofs.Highlight.Run
import ColorMarks.Proofs.Ordered

/-!
# Coats of paint

An editor shows for each style of a cache the locations that were painted with it last, unless they were
cleared since (`Coated`). Painting a group adds a coat, clearing all styles takes the coats away, and new
styles are not visible before something is painted with them.
-/

namespace ColorMarks

/-! ## What painting changes -/

namespace Editor

theorem lookup_paint (e : Editor) (style : Style) (ranges : List Location) (id : Nat) :
    (e.paint style ranges).visible.lookup id =
      if id = style.id then (if ranges = [] then none else some ranges)
      else e.visible.lookup id := by
  by_cases hid : id = style.id
  · subst hid
    cases ranges <;> simp [paint]
  · rw [if_neg hid, paint]
    cases ranges with
    | nil => exact Ordered.lookup_erase_of_ne hid _
    | cons range ranges => exact Ordered.lookup_insert_of_ne hid _ _

/-- Painting makes no style visible but the one it paints. -/
theorem mem_visible_paint {e : Editor} {style : Style} {ranges : List Location}
    {v : Nat × List Location} (h : v ∈ (e.paint style ranges).visible) :
    v.1 = style.id ∨ v ∈ e.visible := by
  unfold paint at h
  split at h
  · exact .inr (List.mem_filter.1 h).1
  · rcases Ordered.mem_insert h with rfl | hold
    · exact .inl rfl
    · exact .inr hold

theorem lookup_clearStyles (e : Editor) (styles : List Style) (id : Nat) :
    (e.clearStyles styles).visible.lookup id =
      if id ∈ styles.map Style.id then none else e.visible.lookup id := by
  unfold clearStyles
  induction styles generalizing e with
  | nil => simp
  | cons style styles ih =>
    rw [List.foldl_cons, ih, lookup_paint]
    by_cases hid : id = style.id <;> simp [hid]

theorem mem_visible_clearStyles {e : Editor} {styles : List Style} {v : Nat × List Location}
    (h : v ∈ (e.clearStyles styles).visible) : v ∈ e.visible := by
  unfold clearStyles at h
  induction styles generalizing e with
  | nil => exact h
  | cons style styles ih =>
    have hpaint := ih h
    exact (List.mem_filter.1 hpaint).1

end Editor

/-! ## Coats and styles -/

/-- An editor shows for each style of a cache the last coat that is noted. -/
structure Coated (cache : StyleCache) (n : Nat) (e : Editor)
    (groups : List (String × List Location)) : Prop where
  shows : ∀ {key style}, cache.get? key = some style →
    e.visible.lookup style.id = groups.lookup key
  known : ∀ g ∈ groups, ∃ style, cache.get? g.1 = some style
  numbered : ∀ v ∈ e.visible, v.1 ≤ n

namespace Coated

variable {policy : Policy} {cache : StyleCache} {n : Nat} {e : Editor}
  {groups : List (String × List Location)}

theorem fresh (cache : StyleCache) (n : Nat) (uri : String) : Coated cache n (.new uri) [] where
  shows := fun _ => rfl
  known := by simp
  numbered := by simp [Editor.new]

/-- A session without styles shows nothing. -/
theorem of_empty (h : Coated cache n e groups) : Coated .empty n e [] where
  shows := by rintro _ _ ⟨⟩
  known := by simp
  numbered := h.numbered

/-- A key that has no style was not painted. -/
theorem lookup_eq_none (h : Coated cache n e groups) {key : String} (hkey : cache.get? key = none) :
    groups.lookup key = none := by
  rw [List.lookup_eq_none_iff]
  intro g hg
  obtain ⟨style, hstyle⟩ := h.known g hg
  rw [bne_iff_ne]
  rintro rfl
  rw [hkey] at hstyle
  cases hstyle

/-- New styles are not visible yet. -/
theorem grow (h : Coated cache n e groups) {ds : List Directive} {cache' : StyleCache} {n' : Nat}
    (ha : Allocated policy ds cache n cache' n') : Coated cache' n' e groups where
  shows := by
    intro key style hkey
    rcases ha.fresh hkey with hold | ⟨hnew, hlt⟩
    · exact h.shows hold
    · rw [h.lookup_eq_none hnew, List.lookup_eq_none_iff]
      intro v hv
      rw [bne_iff_ne]
      have hle := h.numbered v hv
      omega
  known := by
    intro g hg
    obtain ⟨style, hstyle⟩ := h.known g hg
    exact ⟨style, ha.kept hstyle⟩
  numbered := fun v hv => Nat.le_trans (h.numbered v hv) ha.le

theorem paintGroup (h : Coated cache n e groups) (hcache : cache.Sound policy n)
    {g : String × List Location} (hstyle : ∃ style, cache.get? g.1 = some style) (hne : g.2 ≠ []) :
    Coated cache n (e.paintGroup cache g) (g :: groups) := by
  obtain ⟨style, hstyle⟩ := hstyle
  have hpaint : e.paintGroup cache g = e.paint style g.2 := by
    rw [Editor.paintGroup, hstyle]
  rw [hpaint]
  refine ⟨?_, ?_, ?_⟩
  · intro key style' hkey
    rw [Editor.lookup_paint, List.lookup_cons]
    by_cases heq : key = g.1
    · subst heq
      obtain rfl : style = style' := Option.some.inj (hstyle.symm.trans hkey)
      simp [hne]
    · have hid : style'.id ≠ style.id := fun hid => heq (hcache.distinct hkey hstyle hid)
      have hbeq : (key == g.1) = false := by simpa using heq
      rw [if_neg hid, hbeq]
      exact h.shows hkey
  · exact List.forall_mem_cons.2 ⟨⟨style, hstyle⟩, h.known⟩
  · intro v hv
    rcases Editor.mem_visible_paint hv with hnew | hold
    · rw [hnew]
      exact hcache.numbered hstyle
    · exact h.numbered v hold

/-- Groups are painted one over another. -/
theorem paintGroups (h : Coated cache n e groups) (hcache : cache.Sound policy n)
    {gs : List (String × List Location)}
    (hgs : ∀ g ∈ gs, (∃ style, cache.get? g.1 = some style) ∧ g.2 ≠ []) :
    Coated cache n (gs.foldl (Editor.paintGroup cache) e) (gs.reverse ++ groups) := by
  induction gs generalizing e groups with
  | nil => exact h
  | cons g gs ih =>
    rw [List.forall_mem_cons] at hgs
    obtain ⟨⟨hstyle, hne⟩, hrest⟩ := hgs
    have hall := ih (h.paintGroup hcache hstyle hne) hrest
    rw [List.reverse_cons, List.append_assoc]
    exact hall

/-- Clearing all styles leaves nothing. -/
theorem clear (h : Coated cache n e groups) (hcache : cache.Sound policy n) :
    Coated cache n (e.clearStyles (cache.toList.map Prod.snd)) [] where
  shows := by
    intro key style hkey
    have hmem : style.id ∈ (cache.toList.map Prod.snd).map Style.id :=
      List.mem_map_of_mem (List.mem_map_of_mem (hcache.mem_toList hkey))
    rw [Editor.lookup_clearStyles, if_pos hmem]
    rfl
  known := by simp
  numbered := fun v hv => h.numbered v (Editor.mem_visible_clearStyles hv)

end Coated

end ColorMarks
