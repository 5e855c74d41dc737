import ColorMarks.Proofs.Highlight.Coats

/-!
# The editors of a window

What clearing and painting do to an editor as a whole, and which editors a window has after a step: a move
brings a new editor or leaves all as they look (`Window.forall_editors_move`), and a toggle paints in the
focused editor, with styles that its session has then (`Session.Flip.forall_editors`).
-/

namespace ColorMarks

namespace Editor

variable {cache : StyleCache}

/-- Clearing is one empty call for each style, and what was visible of the styles is gone. -/
theorem clearStyles_eq (e : Editor) (styles : List Style) :
    e.clearStyles styles = { e with
      calls := e.calls ++ styles.map fun style => ⟨style.id, []⟩
      visible := e.visible.filter fun v => v.1 ∉ styles.map Style.id } := by
  unfold clearStyles
  induction styles generalizing e with
  | nil => simp
  | cons style styles ih =>
    rw [List.foldl_cons, ih]
    have hvisible : (e.paint style []).visible.filter (fun v => v.1 ∉ styles.map Style.id) =
        e.visible.filter fun v => v.1 ∉ (style :: styles).map Style.id := by
      rw [paint, List.isEmpty_nil, if_pos rfl, Ordered.erase, List.filter_filter]
      refine List.filter_congr fun v _ => ?_
      by_cases hv : v.1 = style.id <;> simp [hv]
    rw [hvisible]
    simp [paint]

theorem uri_clearStyles (e : Editor) (styles : List Style) : (e.clearStyles styles).uri = e.uri := by
  rw [clearStyles_eq]

/-- Clearing all styles that are visible leaves nothing. -/
theorem visible_clearStyles_eq_nil {e : Editor} {styles : List Style}
    (h : ∀ v ∈ e.visible, v.1 ∈ styles.map Style.id) : (e.clearStyles styles).visible = [] := by
  rw [clearStyles_eq, List.filter_eq_nil_iff]
  intro v hv
  simpa using h v hv

theorem sorted_paint {e : Editor} (h : Ordered.Sorted e.visible) (style : Style)
    (ranges : List Location) : Ordered.Sorted (e.paint style ranges).visible := by
  unfold paint
  split
  · exact Ordered.sorted_erase _ h
  · exact Ordered.sorted_insert _ _ h

theorem uri_foldl_paintGroup (cache : StyleCache) (groups : List (String × List Location))
    (e : Editor) : (groups.foldl (paintGroup cache) e).uri = e.uri := by
  induction groups generalizing e with
  | nil => rfl
  | cons g groups ih =>
    rw [List.foldl_cons, ih, paintGroup]
    split <;> rfl

/-- Groups that have styles are painted with one call each. -/
theorem exists_calls_foldl_paintGroup {groups : List (String × List Location)}
    (hgroups : ∀ g ∈ groups, ∃ style, cache.get? g.1 = some style) (e : Editor) :
    ∃ calls, (groups.foldl (paintGroup cache) e).calls = e.calls ++ calls ∧
      List.Forall₂ (fun g (call : PaintCall) =>
        ∃ style, cache.get? g.1 = some style ∧ call = ⟨style.id, g.2⟩) groups calls := by
  induction groups generalizing e with
  | nil => exact ⟨[], by simp, .nil⟩
  | cons g groups ih =>
    rw [List.forall_mem_cons] at hgroups
    obtain ⟨⟨style, hstyle⟩, hrest⟩ := hgroups
    obtain ⟨calls, hcalls, hall⟩ := ih hrest (e.paintGroup cache g)
    refine ⟨⟨style.id, g.2⟩ :: calls, ?_, .cons ⟨style, hstyle, rfl⟩ hall⟩
    rw [List.foldl_cons, hcalls, paintGroup, hstyle]
    simp [paint]

/-- Painting groups leaves alone what is visible of styles that none of them has. -/
theorem lookup_foldl_paintGroup_of_ne {n : Nat} {groups : List (String × List Location)}
    (hgroups : ∀ g ∈ groups, ∀ style, cache.get? g.1 = some style → style.id ≠ n) (e : Editor) :
    (groups.foldl (paintGroup cache) e).visible.lookup n = e.visible.lookup n := by
  induction groups generalizing e with
  | nil => rfl
  | cons g groups ih =>
    rw [List.forall_mem_cons] at hgroups
    obtain ⟨hfirst, hrest⟩ := hgroups
    rw [List.foldl_cons, ih hrest, paintGroup]
    split
    · rename_i style hstyle
      rw [lookup_paint, if_neg (hfirst style hstyle).symm]
    · rfl

/-- Where no two keys have a style in common, each group is visible once all of them were painted. -/
theorem lookup_foldl_paintGroup_of_mem {policy : Policy} {n : Nat} (hcache : cache.Sound policy n)
    {groups : List (String × List Location)} (hkeys : (groups.map Prod.fst).Nodup)
    {g : String × List Location} (hg : g ∈ groups) (hne : g.2 ≠ []) {style : Style}
    (hstyle : cache.get? g.1 = some style) (e : Editor) :
    (groups.foldl (paintGroup cache) e).visible.lookup style.id = some g.2 := by
  induction groups generalizing e with
  | nil => cases hg
  | cons first groups ih =>
    rw [List.map_cons, List.nodup_cons] at hkeys
    obtain ⟨hfirst, hrest⟩ := hkeys
    rw [List.foldl_cons]
    rcases List.mem_cons.1 hg with rfl | hmem
    · -- the groups behind have other keys, and so other styles
      have hothers : ∀ other ∈ groups, ∀ style', cache.get? other.1 = some style' →
          style'.id ≠ style.id := by
        intro other hother style' hstyle' hid
        have hkey := hcache.distinct hstyle' hstyle hid
        exact hfirst (hkey ▸ List.mem_map_of_mem hother)
      rw [lookup_foldl_paintGroup_of_ne hothers, paintGroup, hstyle, lookup_paint, if_pos rfl,
        if_neg hne]
    · exact ih hrest hmem _

end Editor

/-! ## All editors of a window -/

namespace Window

/-- All editors, the focused one first. -/
def editors (w : Window) : List Editor := w.editor.toList ++ w.parked

theorem mem_editors_of_focused {w : Window} {e : Editor} (he : w.editor = some e) :
    e ∈ w.editors := by simp [editors, he]

variable {w : Window} {P : Editor → Prop}

theorem forall_editors_iff :
    (∀ e ∈ w.editors, P e) ↔ (∀ e, w.editor = some e → P e) ∧ ∀ e ∈ w.parked, P e := by
  simp only [editors, List.forall_mem_append, Option.mem_toList]

theorem forall_editors_setFocus (hw : ∀ e ∈ w.editors, P e) {focused : Option Editor}
    (hfocused : ∀ e, focused = some e → P e) : ∀ e ∈ (w.setFocus focused).editors, P e := by
  rw [forall_editors_iff] at hw ⊢
  refine ⟨hfocused, fun e he => ?_⟩
  rcases List.mem_append.1 he with hparked | hbefore
  · exact hw.2 e hparked
  · exact hw.1 e (Option.mem_toList.1 hbefore)

/-- What holds of all editors does so after a move, if it holds of new ones and forgets no calls. -/
theorem forall_editors_move (hnew : ∀ uri, P (.new uri)) (hcalls : ∀ e, P e → P e.clearCalls)
    (hw : ∀ e ∈ w.editors, P e) (m : Move) : ∀ e ∈ (w.move m).editors, P e := by
  cases m with
  | focus uri =>
    refine forall_editors_setFocus hw ?_
    rintro e ⟨⟩
    exact hnew uri
  | unfocus => exact forall_editors_setFocus hw (by rintro e ⟨⟩)
  | refocus place =>
    simp only [move, refocus]
    cases hplace : w.parked[place]? with
    | none => exact hw
    | some back =>
      rw [forall_editors_iff] at hw
      have hback : P back := hw.2 back (List.mem_of_getElem? hplace)
      refine forall_editors_setFocus ?_ (by rintro e ⟨⟩; exact hback)
      rw [forall_editors_iff]
      exact ⟨hw.1, fun e he => hw.2 e (List.mem_of_mem_eraseIdx he)⟩
  | clearCalls =>
    rw [forall_editors_iff] at hw ⊢
    refine ⟨?_, hw.2⟩
    intro e he
    obtain ⟨before, hbefore, rfl⟩ := Option.map_eq_some_iff.1 he
    exact hcalls before (hw.1 before hbefore)

end Window

namespace Session

theorem get?_of_mem_stylesOf {cache : StyleCache} {groups : RangeGroups} :
    ∀ style ∈ stylesOf cache groups, ∃ key, cache.get? key = some style := by
  intro style hstyle
  obtain ⟨key, -, hkey⟩ := List.mem_filterMap.1 hstyle
  exact ⟨key, hkey⟩

theorem get?_of_mem_toList {cache : StyleCache} :
    ∀ style ∈ cache.toList.map Prod.snd, ∃ key, cache.get? key = some style := by
  intro style hlisted
  obtain ⟨entry, hentry, rfl⟩ := List.mem_map.1 hlisted
  obtain ⟨key, -, hkey⟩ := List.mem_filterMap.1 hentry
  obtain ⟨style, hstyle, rfl⟩ := Option.map_eq_some_iff.1 hkey
  exact ⟨key, hstyle⟩

/-- What painting with the styles of a cache keeps. -/
def KeptBy (cache : StyleCache) (P : Editor → Prop) : Prop :=
  ∀ key style, cache.get? key = some style → ∀ e ranges, P e → P (e.paint style ranges)

variable {cache : StyleCache} {P : Editor → Prop}

theorem KeptBy.clearStyles (h : KeptBy cache P) {styles : List Style}
    (hstyles : ∀ style ∈ styles, ∃ key, cache.get? key = some style) {e : Editor} (he : P e) :
    P (e.clearStyles styles) := by
  unfold Editor.clearStyles
  induction styles generalizing e with
  | nil => exact he
  | cons style styles ih =>
    rw [List.forall_mem_cons] at hstyles
    obtain ⟨⟨key, hkey⟩, hrest⟩ := hstyles
    exact ih hrest (h key style hkey e [] he)

theorem KeptBy.paintGroups (h : KeptBy cache P) (groups : List (String × List Location))
    {e : Editor} (he : P e) : P (groups.foldl (Editor.paintGroup cache) e) := by
  induction groups generalizing e with
  | nil => exact he
  | cons g groups ih =>
    refine ih ?_
    unfold Editor.paintGroup
    split
    · rename_i style hstyle
      exact h g.1 style hstyle e g.2 he
    · exact he

/-- A toggle only paints with styles that its session has then, and only in the focused editor. -/
theorem Flip.forall_editors {s s' : Session} {w w' : Window} {snapshot : Snapshot}
    (h : Flip s w snapshot s' w') (hkept : KeptBy s'.styles P) (hw : ∀ e ∈ w.editors, P e) :
    ∀ e ∈ w'.editors, P e := by
  cases h with
  | missed => exact hw
  | styled hs hstyles =>
    obtain ⟨styles, last, rfl⟩ := allocate_window hstyles
    exact hw
  | on hs he hstyles =>
    obtain ⟨styles, last, rfl⟩ := allocate_window hstyles
    rw [Window.forall_editors_iff] at hw ⊢
    rw [painted_eq]
    refine ⟨?_, hw.2⟩
    intro e' he'
    obtain ⟨e, hfocused, rfl⟩ := Option.map_eq_some_iff.1 he'
    exact hkept.paintGroups _ (hkept.clearStyles get?_of_mem_stylesOf (hw.1 e hfocused))
  | off hs he =>
    rw [Window.forall_editors_iff] at hw ⊢
    rw [cleared_eq]
    refine ⟨?_, hw.2⟩
    intro e' he'
    obtain ⟨e, hfocused, rfl⟩ := Option.map_eq_some_iff.1 he'
    exact hkept.clearStyles get?_of_mem_toList (hw.1 e hfocused)

/-- Every editor has its visible styles in ascending order, each of them once. -/
theorem sorted_act {x : Session × Window} (h : ∀ e ∈ x.2.editors, Ordered.Sorted e.visible)
    (a : Step) : ∀ e ∈ (act x a).2.editors, Ordered.Sorted e.visible := by
  obtain ⟨s, w⟩ := x
  cases a with
  | toggle snapshot lookups =>
    exact (toggle_flip s w snapshot lookups).forall_editors
      (fun _ style _ _ ranges he => Editor.sorted_paint he style ranges) h
  | reset => exact h
  | move m =>
    exact Window.forall_editors_move (fun _ => List.Pairwise.nil) (fun _ he => he) h m

theorem sorted_run {x : Session × Window} (h : ∀ e ∈ x.2.editors, Ordered.Sorted e.visible)
    (steps : List Step) : ∀ e ∈ (run x steps).2.editors, Ordered.Sorted e.visible := by
  induction steps generalizing x with
  | nil => exact h
  | cons a steps ih => exact ih (sorted_act h a)

end Session

/-- An editor of a new window is new. -/
theorem Window.eq_new_of_mem_editors {uri : Option String} {e : Editor}
    (he : e ∈ (withEditor uri).editors) : ∃ uri', e = .new uri' := by
  cases uri with
  | none => cases he
  | some uri => exact ⟨uri, by simpa [editors, withEditor] using he⟩

end ColorMarks
