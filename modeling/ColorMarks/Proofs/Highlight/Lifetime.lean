import ColorMarks.Proofs.Highlight.Consistent
import ColorMarks.Proofs.Ordered

/-!
# Styles for the life of a session

As long as a session is not reset, its cache and its window agree about what was given out: one style for
each key that was ever met, in the order in which the keys were met, numbered from one
(`StyleCache.Owns`). A style that a key once got stays its style (`styles_of_run`).
-/

namespace ColorMarks

namespace StyleCache

/-- The cache holds what the window gave out: one style for each of some keys, in their order. -/
structure Owns (cache : StyleCache) (keys : List String) (w : Window) : Prop where
  order : cache.order = keys.eraseDups
  styles : w.styles = cache.toList.map Prod.snd
  numbers : w.styles.map Style.id = List.range' 1 w.lastStyle

theorem owns_empty (uri : Option String) : Owns .empty [] (.withEditor uri) := ⟨rfl, rfl, rfl⟩

variable {policy : Policy} {n : Nat} {cache cache' : StyleCache} {keys : List String} {w w' : Window}

theorem Sound.keys_toList (h : Sound policy n cache) : cache.toList.map Prod.fst = cache.order := by
  have hlisted : ∀ key ∈ cache.order, ((cache.get? key).map fun style => (key, style)).map Prod.fst =
      some key := by
    intro key hkey
    obtain ⟨style, hstyle⟩ := Option.isSome_iff_exists.1 (h.mem_order_iff.1 hkey)
    rw [hstyle]
    rfl
  rw [toList, List.map_filterMap]
  exact List.filterMap_eq_map_iff_forall_eq_some.2 hlisted |>.trans (List.map_id _)

/-- A cache that lists the same keys first and keeps their styles begins with the same entries. -/
theorem toList_prefix (horder : cache.order <+: cache'.order) (h : Sound policy n cache)
    (hkept : ∀ {key style}, cache.get? key = some style → cache'.get? key = some style) :
    cache.toList <+: cache'.toList := by
  obtain ⟨later, hlater⟩ := horder
  have hsame : ∀ key ∈ cache.order, ((cache.get? key).map fun style => (key, style)) =
      (cache'.get? key).map fun style => (key, style) := by
    intro key hkey
    obtain ⟨style, hstyle⟩ := Option.isSome_iff_exists.1 (h.mem_order_iff.1 hkey)
    rw [hstyle, hkept hstyle]
  rw [toList, toList, ← hlater, List.filterMap_append, List.filterMap_congr hsame]
  exact List.prefix_append _ _

/-- A cache still has what another one had, at the same place. -/
structure Grows (cache cache' : StyleCache) : Prop where
  entries : cache.toList <+: cache'.toList
  kept : ∀ {key style}, cache.get? key = some style → cache'.get? key = some style

theorem Grows.refl (cache : StyleCache) : cache.Grows cache := ⟨List.prefix_refl _, id⟩

theorem Grows.trans {cache'' : StyleCache} (h : cache.Grows cache') (h' : cache'.Grows cache'') :
    cache.Grows cache'' := ⟨h.entries.trans h'.entries, fun hkey => h'.kept (h.kept hkey)⟩

theorem toList_add {key : String} (hnew : key ∉ cache.order) (style : Style) :
    (cache.add key style).toList = cache.toList ++ [(key, style)] := by
  have hsame : ∀ k ∈ cache.order, (((cache.add key style).get? k).map fun style => (k, style)) =
      (cache.get? k).map fun style => (k, style) := by
    intro k hk
    have hne : k ≠ key := fun heq => hnew (heq ▸ hk)
    rw [get?_add, if_neg hne]
  have hlast : ((cache.add key style).get? key).map (fun style => (key, style)) =
      some (key, style) := by
    rw [get?_add, if_pos rfl]
    rfl
  have horder : (cache.add key style).order = cache.order ++ [key] := rfl
  rw [toList, horder, List.filterMap_append, List.filterMap_congr hsame, toList]
  simp [hlast]

theorem Owns.getOrCreate (h : cache.Owns keys w) (hcache : cache.Sound policy w.lastStyle)
    {key : String} {options : StyleOptions} {isNew : Bool}
    (hget : cache.getOrCreate key options Window.createStyle w = (cache', isNew, w')) :
    cache'.Owns (keys ++ [key]) w' := by
  have hmem : key ∈ cache.order ↔ key ∈ keys := by rw [h.order, List.mem_eraseDups]
  obtain ⟨hold, rfl, -, rfl⟩ | ⟨hnew, rfl, -, rfl⟩ := getOrCreate_cases hget
  · refine ⟨?_, h.styles, h.numbers⟩
    rw [eraseDups_concat, if_pos (hmem.1 (hcache.mem_order_iff.2 hold))]
    exact h.order
  · have habsent : key ∉ cache.order := by
      rw [hcache.mem_order_iff, hnew]
      exact Bool.false_ne_true
    refine ⟨?_, ?_, ?_⟩
    · rw [eraseDups_concat, if_neg fun hkey => habsent (hmem.2 hkey), ← h.order]
      rfl
    · rw [toList_add habsent, List.map_append, ← h.styles]
      rfl
    · show (w.styles ++ [_]).map Style.id = List.range' 1 (w.lastStyle + 1)
      rw [List.map_append, h.numbers, List.range'_1_concat, Nat.add_comm]
      rfl

theorem Owns.allocate {ds : List Directive} {created : Nat} (h : cache.Owns keys w)
    (hcache : cache.Sound policy w.lastStyle)
    (hds : ∀ d ∈ ds, d = .ofKey d.key ∧ d.admitted policy = true)
    (hallocate : Session.allocate ds cache w = (cache', created, w')) :
    cache'.Owns (keys ++ ds.map Directive.key) w' := by
  induction ds generalizing keys cache w created with
  | nil =>
    cases hallocate
    simpa using h
  | cons d ds ih =>
    rw [List.forall_mem_cons] at hds
    obtain ⟨⟨hd, hadmitted⟩, hrest⟩ := hds
    rcases hget : cache.getOrCreate d.key ⟨d.fill⟩ Window.createStyle w with ⟨cache₁, isNew, w₁⟩
    rcases hallocate₁ : Session.allocate ds cache₁ w₁ with ⟨cache₂, m, w₂⟩
    simp only [Session.allocate, hget, hallocate₁] at hallocate
    cases hallocate
    have hone := h.getOrCreate hcache hget
    have hsound : cache₁.Sound policy w₁.lastStyle := by
      rw [hd] at hget hadmitted
      rw [Directive.key_ofKey] at hget
      exact (Session.allocated_getOrCreate hcache hadmitted hget).sound
    have hall := ih hone hsound hrest hallocate₁
    simpa using hall

end StyleCache

namespace Session

/--
The keys that a toggle meets, mark after mark: none unless it has to switch on and finds an editor when it
asks first.
-/
def met (s : Session) (snapshot : Snapshot) (v : View) : List String :=
  if !s.active && v.found then (Grouping.marks s.policy snapshot).map fun m => m.1.key else []

theorem directives_eq_met {s : Session} {v : View} (snapshot : Snapshot) (hs : s.active = false)
    (hfound : v.found = true) :
    directives s.policy snapshot = (s.met snapshot v).eraseDups.map Directive.ofKey := by
  rw [directives_eq (Grouping.gathers_marks s.policy snapshot), met, hs, hfound]
  rfl

/-- A toggle that switches off, or finds no editor at first, gives out nothing. -/
theorem kept_toggle {s : Session} {v : View} (snapshot : Snapshot)
    (h : ¬ (s.active = false ∧ v.found = true)) :
    (s.toggle snapshot v).2.1.styles = s.styles ∧
      (s.toggle snapshot v).2.2.window.styles = v.window.styles ∧
      (s.toggle snapshot v).2.2.window.lastStyle = v.window.lastStyle := by
  rw [toggle]
  by_cases hfound : v.found = true
  · have hs : s.active = true := by
      by_contra hs
      exact h ⟨by simpa using hs, hfound⟩
    rw [if_pos hfound, hs, if_pos rfl, switchOff]
    split
    · exact ⟨rfl, styles_cleared .., lastStyle_cleared ..⟩
    · exact ⟨rfl, rfl, rfl⟩
  · rw [if_neg hfound]
    exact ⟨rfl, rfl, rfl⟩

/-- However a toggle ends, the keys that it met have styles then, and no other key got one. -/
theorem allocate_toggle (s : Session) (w : Window) (snapshot : Snapshot) (lookups : Option Nat) :
    ∃ created w', allocate ((s.met snapshot ⟨w, lookups⟩).eraseDups.map Directive.ofKey) s.styles w =
        ((s.toggle snapshot ⟨w, lookups⟩).2.1.styles, created, w') ∧
      (s.toggle snapshot ⟨w, lookups⟩).2.2.window.styles = w'.styles ∧
      (s.toggle snapshot ⟨w, lookups⟩).2.2.window.lastStyle = w'.lastStyle := by
  by_cases hon : s.active = false ∧ View.found ⟨w, lookups⟩ = true
  · obtain ⟨hs, hfound⟩ := hon
    rw [← directives_eq_met snapshot hs hfound, toggle, if_pos hfound, hs, if_neg Bool.false_ne_true,
      switchOn]
    rcases hstyles : allocate (directives s.policy snapshot) s.styles w with ⟨cache, created, w'⟩
    have hstyles' : allocate ((Grouping.ofSnapshot s.policy snapshot).toList.map Prod.fst)
        s.styles (View.asked ⟨w, lookups⟩).window = (cache, created, w') := hstyles
    simp only [hstyles']
    -- the styles are kept whether or not the editor is found once more
    split
    · exact ⟨created, w', rfl, styles_painted .., lastStyle_painted ..⟩
    · exact ⟨created, w', rfl, rfl, rfl⟩
  · have hnone : s.met snapshot ⟨w, lookups⟩ = [] := by
      rw [met, if_neg]
      simpa using hon
    obtain ⟨hcache, hstyles, hlast⟩ := kept_toggle snapshot hon
    refine ⟨0, w, ?_, hstyles, hlast⟩
    rw [hnone, hcache]
    rfl

/-- The keys that a step meets. -/
def metBy : Session × Window → Step → List String
  | (s, w), .toggle snapshot lookups => s.met snapshot ⟨w, lookups⟩
  | _, .reset => []
  | _, .move _ => []

/-- The keys that some steps meet, one step after another. -/
def metIn (x : Session × Window) : List Step → List String
  | [] => []
  | a :: steps => metBy x a ++ metIn (act x a) steps

section Steps

variable {s : Session} {policy : Policy} {w : Window} {keys : List String}

theorem admitted_of_mem_met (hkeeps : s.policy = policy) (snapshot : Snapshot) (v : View) :
    ∀ d ∈ (s.met snapshot v).eraseDups.map Directive.ofKey,
      d = .ofKey d.key ∧ d.admitted policy = true := by
  intro d hd
  obtain ⟨key, hkey, rfl⟩ := List.mem_map.1 hd
  rw [List.mem_eraseDups, met] at hkey
  split at hkey
  · obtain ⟨m, hm, hmkey⟩ := List.mem_map.1 hkey
    rw [hkeeps] at hm
    exact ⟨by rw [Directive.key_ofKey], (Grouping.exists_marks_key_iff.1 ⟨m, hm, hmkey⟩).2⟩
  · cases hkey

theorem owns_toggle (hfits : s.Fits policy w) (h : s.styles.Owns keys w) (snapshot : Snapshot)
    (lookups : Option Nat) :
    let x := act (s, w) (.toggle snapshot lookups)
    x.1.styles.Owns (keys ++ s.met snapshot ⟨w, lookups⟩) x.2 ∧ s.styles.Grows x.1.styles := by
  intro x
  obtain ⟨created, w', hallocate, hstyles, hlast⟩ := allocate_toggle s w snapshot lookups
  have hds := admitted_of_mem_met hfits.keeps snapshot ⟨w, lookups⟩
  have howns := h.allocate hfits.sound hds hallocate
  have hallocated := allocated_allocate hfits.sound hds hallocate
  have hkeys : ((s.met snapshot ⟨w, lookups⟩).eraseDups.map Directive.ofKey).map Directive.key =
      (s.met snapshot ⟨w, lookups⟩).eraseDups := by
    rw [List.map_map]
    exact (List.map_congr_left fun key _ => Directive.key_ofKey key).trans (List.map_id _)
  rw [hkeys] at howns
  have horder : x.1.styles.order = (keys ++ s.met snapshot ⟨w, lookups⟩).eraseDups :=
    howns.order.trans (eraseDups_append_eraseDups keys _)
  refine ⟨⟨horder, ?_, ?_⟩, ?_, hallocated.kept⟩
  · exact hstyles.trans howns.styles
  · show x.2.styles.map Style.id = List.range' 1 x.2.lastStyle
    rw [show x.2.styles = w'.styles from hstyles, show x.2.lastStyle = w'.lastStyle from hlast]
    exact howns.numbers
  · refine StyleCache.toList_prefix ?_ hfits.sound hallocated.kept
    rw [horder, h.order, List.eraseDups_append]
    exact List.prefix_append _ _

theorem owns_act (hfits : s.Fits policy w) (h : s.styles.Owns keys w) {a : Step} (ha : a ≠ .reset) :
    let x := act (s, w) a
    x.1.styles.Owns (keys ++ metBy (s, w) a) x.2 ∧ s.styles.Grows x.1.styles := by
  cases a with
  | toggle snapshot lookups => exact owns_toggle hfits h snapshot lookups
  | reset => exact absurd rfl ha
  | move m =>
    intro x
    have hwindow : x.2 = w.move m := rfl
    have howns : s.styles.Owns keys x.2 := by
      refine ⟨h.order, ?_, ?_⟩
      · rw [hwindow, Window.styles_move]
        exact h.styles
      · rw [hwindow, Window.styles_move, Window.lastStyle_move]
        exact h.numbers
    rw [metBy, List.append_nil]
    exact ⟨howns, .refl _⟩

theorem owns_run (hfits : s.Fits policy w) (h : s.styles.Owns keys w) {steps : List Step}
    (hreset : .reset ∉ steps) :
    let x := run (s, w) steps
    x.1.styles.Owns (keys ++ metIn (s, w) steps) x.2 ∧ s.styles.Grows x.1.styles := by
  induction steps generalizing s w keys with
  | nil =>
    rw [metIn, List.append_nil]
    exact ⟨h, .refl _⟩
  | cons a steps ih =>
    obtain ⟨howns, hgrows⟩ := owns_act hfits h (Ne.symm (List.ne_of_not_mem_cons hreset))
    obtain ⟨hall, hmore⟩ := ih (hfits.act a) howns (List.not_mem_of_not_mem_cons hreset)
    rw [metIn, ← List.append_assoc]
    exact ⟨hall, hgrows.trans hmore⟩

end Steps

/--
As long as a session is not reset, it has every style that its window gave out, in that order and numbered
from one: one for each key that it met, as the keys first came. No later step takes a style away from its
key or gives the key another one.
-/
theorem styles_of_run (policy : Policy) (uri : Option String) {steps : List Step}
    (hreset : .reset ∉ steps) :
    let start := (new policy, Window.withEditor uri)
    let x := run start steps
    x.2.styles = x.1.styles.toList.map Prod.snd ∧
      x.2.styles.map Style.id = List.range' 1 x.2.styles.length ∧
      x.1.styles.toList.map Prod.fst = (metIn start steps).eraseDups ∧
      ∀ before later, steps = before ++ later → (run start before).1.styles.Grows x.1.styles ∧
        (run start before).2.styles <+: x.2.styles := by
  intro start x
  have hfits := fits_new policy (Window.withEditor uri)
  obtain ⟨howns, -⟩ := owns_run hfits (StyleCache.owns_empty uri) hreset
  have hsound := (hfits.run steps).sound
  refine ⟨howns.styles, ?_, ?_, ?_⟩
  · have hlength := congrArg List.length howns.numbers
    rw [List.length_map, List.length_range'] at hlength
    rw [show x.2.styles.length = x.2.lastStyle from hlength]
    exact howns.numbers
  · exact hsound.keys_toList.trans howns.order
  · rintro before later rfl
    have hbefore : .reset ∉ before := fun hmem => hreset (List.mem_append_left later hmem)
    have hlater : .reset ∉ later := fun hmem => hreset (List.mem_append_right before hmem)
    obtain ⟨howns₁, -⟩ := owns_run hfits (StyleCache.owns_empty uri) hbefore
    obtain ⟨howns₂, hgrows⟩ := owns_run (hfits.run before) howns₁ hlater
    have hx : x = run (run start before) later := List.foldl_append
    rw [hx]
    refine ⟨hgrows, ?_⟩
    rw [howns₁.styles, howns₂.styles]
    exact hgrows.entries.map Prod.snd

/-- A key met by a toggle that lost its editor, met again behind a new one, has its style already. -/
theorem styles_of_toggle_after_lost_editor :
    let asking (keys : List String) : Snapshot :=
      [("file:///a.txt", keys.map fun key =>
        ⟨⟨⟨0, 0⟩, ⟨0, 1⟩⟩, none, none, none, "m",
          [⟨⟨"file:///a.txt", ⟨⟨1, 0⟩, ⟨1, 4⟩⟩⟩, "Color:" ++ key⟩]⟩)]
    let steps : List Step :=
      [.toggle (asking ["1,2,3", "red", "1,2,3"]) (some 1), .move (.focus "file:///b.txt"),
        .toggle (asking ["4,5,6", "1,2,3"]) none]
    let start := (new .skip, Window.withEditor (some "file:///a.txt"))
    let x := run start steps
    .reset ∉ steps ∧ x.1.styles.toList.map Prod.fst = ["1,2,3", "4,5,6"] ∧
      x.2.styles = x.1.styles.toList.map Prod.snd ∧
      x.2.styles.map Style.id = List.range' 1 x.2.styles.length ∧
      x.1.styles.toList.map Prod.fst = (metIn start steps).eraseDups ∧
      ∀ before later, steps = before ++ later → (run start before).1.styles.Grows x.1.styles ∧
        (run start before).2.styles <+: x.2.styles :=
  ⟨by simp, by decide, styles_of_run _ _ (by simp)⟩

end Session

end ColorMarks
