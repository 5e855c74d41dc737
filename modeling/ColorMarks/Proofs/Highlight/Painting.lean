import ColorMarks.Proofs.Highlight.Allocation
import ColorMarks.Proofs.Highlight.Grouping
import ColorMarks.Proofs.Ordered
import Mathlib.Data.List.Basic

/-!
# What switching on paints

A session that is switched on for the first time gives out one style for each color key of the snapshot
and paints with it all locations of the key.
-/

namespace ColorMarks

open Grouping (coloredBy locationsOf)

/-- The styles that are given out for some keys after `n` others. -/
def stylesFrom (n : Nat) (keys : List String) : List Style :=
  keys.mapIdx fun i key => ⟨n + i + 1, ⟨(Directive.ofKey key).fill⟩⟩

theorem stylesFrom_cons (n : Nat) (key : String) (keys : List String) :
    stylesFrom n (key :: keys) =
      ⟨n + 1, ⟨(Directive.ofKey key).fill⟩⟩ :: stylesFrom (n + 1) keys := by
  rw [stylesFrom, List.mapIdx_cons, stylesFrom]
  congr 2
  funext i k
  congr 1
  omega

/-- The window after each of some keys was given a style. -/
def Window.styled (w : Window) (keys : List String) : Window :=
  { w with
    styles := w.styles ++ stylesFrom w.lastStyle keys
    lastStyle := w.lastStyle + keys.length }

theorem Window.styled_createStyle (w : Window) (key : String) (keys : List String) :
    (createStyle ⟨(Directive.ofKey key).fill⟩ w).2.styled keys = w.styled (key :: keys) := by
  rw [styled, styled, stylesFrom_cons]
  simp [createStyle, Nat.add_assoc, Nat.add_comm 1]

namespace StyleCache

/-- The keys among some that have no style. -/
def missing (c : StyleCache) (keys : List String) : List String :=
  keys.filter fun key => !c.contains key

/-- The cache after each of some keys was given a style, after `n` others. -/
def extend (c : StyleCache) (n : Nat) (keys : List String) : StyleCache where
  order := c.order ++ keys
  styles := (keys.zip (stylesFrom n keys)).reverse ++ c.styles

variable {c : StyleCache} {key : String} {keys : List String}

theorem mem_missing_iff : key ∈ c.missing keys ↔ key ∈ keys ∧ c.get? key = none := by
  simp [missing, contains]

theorem missing_cons_of_contains (h : c.contains key = true) :
    c.missing (key :: keys) = c.missing keys := by simp [missing, h]

theorem missing_cons_of_not_contains (h : c.contains key = false) :
    c.missing (key :: keys) = key :: c.missing keys := by simp [missing, h]

/-- A style of another key makes no difference. -/
theorem missing_add (hkey : key ∉ keys) (style : Style) :
    (c.add key style).missing keys = c.missing keys := by
  refine List.filter_congr fun k hk => ?_
  have hne : k ≠ key := fun heq => hkey (heq ▸ hk)
  rw [contains, get?_add, if_neg hne, contains]

@[simp] theorem extend_nil (c : StyleCache) (n : Nat) : c.extend n [] = c := by
  simp [extend]

theorem extend_cons (c : StyleCache) (n : Nat) (key : String) (keys : List String) :
    c.extend n (key :: keys) =
      (c.add key ⟨n + 1, ⟨(Directive.ofKey key).fill⟩⟩).extend (n + 1) keys := by
  simp [extend, add, stylesFrom_cons]

theorem get?_extend_of_not_mem (n : Nat) (hkey : key ∉ keys) :
    (c.extend n keys).get? key = c.get? key := by
  induction keys generalizing c n with
  | nil => rw [extend_nil]
  | cons k keys ih =>
    rw [extend_cons, ih (n + 1) (List.not_mem_of_not_mem_cons hkey), get?_add,
      if_neg (List.ne_of_not_mem_cons hkey)]

/-- Each of the keys has the style that was given out for it. -/
theorem get?_extend (n : Nat) (hkeys : keys.Nodup) {i : Nat} (hi : keys[i]? = some key) :
    (c.extend n keys).get? key = some ⟨n + i + 1, ⟨(Directive.ofKey key).fill⟩⟩ := by
  induction keys generalizing c n i with
  | nil => simp at hi
  | cons k keys ih =>
    obtain ⟨hk, hrest⟩ := List.nodup_cons.1 hkeys
    rw [extend_cons]
    cases i with
    | zero =>
      obtain rfl : k = key := by simpa using hi
      rw [get?_extend_of_not_mem (n + 1) hk, get?_add, if_pos rfl]
    | succ i =>
      rw [ih (n + 1) hrest (by simpa using hi), Nat.add_assoc n 1 i, Nat.add_comm 1 i]

end StyleCache

namespace Session

/-- The keys without a style get the next ones, in their order, and nothing else happens. -/
theorem allocate_eq {keys : List String} (hkeys : keys.Nodup) (cache : StyleCache) (w : Window) :
    allocate (keys.map Directive.ofKey) cache w =
      (cache.extend w.lastStyle (cache.missing keys), (cache.missing keys).length,
        w.styled (cache.missing keys)) := by
  induction keys generalizing cache w with
  | nil => simp [allocate, StyleCache.missing, Window.styled, stylesFrom]
  | cons key keys ih =>
    obtain ⟨hkey, hrest⟩ := List.nodup_cons.1 hkeys
    rw [List.map_cons, allocate, StyleCache.getOrCreate, Directive.key_ofKey]
    cases hcontains : cache.contains key with
    | true =>
      rw [StyleCache.missing_cons_of_contains hcontains]
      simp only [if_true, ih hrest]
      rfl
    | false =>
      have hfirst : Window.createStyle ⟨(Directive.ofKey key).fill⟩ w =
          (⟨w.lastStyle + 1, ⟨(Directive.ofKey key).fill⟩⟩,
            (Window.createStyle ⟨(Directive.ofKey key).fill⟩ w).2) := rfl
      rw [StyleCache.missing_cons_of_not_contains hcontains, StyleCache.extend_cons,
        ← Window.styled_createStyle, hfirst]
      simp only [Bool.false_eq_true, if_false, ih hrest, StyleCache.missing_add hkey]
      rfl

/-- Keys of which none has a style get the next ones, in their order. -/
theorem allocate_spec {keys : List String} (hkeys : keys.Nodup) (cache : StyleCache) (w : Window)
    (hnew : ∀ key ∈ keys, cache.get? key = none) :
    ∃ cache', allocate (keys.map Directive.ofKey) cache w =
        (cache', keys.length, w.styled keys) ∧
      (∀ i key, keys[i]? = some key →
        cache'.get? key = some ⟨w.lastStyle + i + 1, ⟨(Directive.ofKey key).fill⟩⟩) ∧
      ∀ key, key ∉ keys → cache'.get? key = cache.get? key := by
  have hmissing : cache.missing keys = keys := by
    refine List.filter_eq_self.2 fun key hkey => ?_
    rw [StyleCache.contains, hnew key hkey]
    rfl
  have hallocate := allocate_eq hkeys cache w
  rw [hmissing] at hallocate
  exact ⟨_, hallocate, fun i key hi => StyleCache.get?_extend _ hkeys hi,
    fun key hkey => StyleCache.get?_extend_of_not_mem _ hkey⟩

end Session

/-- Painting a style above all visible ones adds it at the end. -/
theorem Editor.visible_paint {e : Editor} {style : Style} {ranges : List Location}
    (hranges : ranges ≠ []) (hids : ∀ v ∈ e.visible, v.1 < style.id) :
    (e.paint style ranges).visible = e.visible ++ [(style.id, ranges)] := by
  have hempty : ranges.isEmpty = false := by simpa using hranges
  rw [Editor.paint, hempty]
  exact Ordered.insert_of_forall_lt fun v hv => ⟨hids v hv, Nat.not_lt.2 (Nat.le_of_lt (hids v hv))⟩

namespace Session

/-- The groups of keys with styles in ascending order become visible in the order of the keys. -/
theorem paintGroups_spec {cache : StyleCache} {keys : List String} {n : Nat}
    {locations : String → List Location}
    (hstyles : ∀ i key, keys[i]? = some key →
      cache.get? key = some ⟨n + i + 1, ⟨(Directive.ofKey key).fill⟩⟩)
    (hlocations : ∀ key ∈ keys, locations key ≠ []) {w : Window} {e : Editor}
    (he : w.editor = some e) (hids : ∀ v ∈ e.visible, v.1 ≤ n) (index : List (String × Nat)) :
    ∃ calls, paintGroups cache ⟨keys.map fun key => (key, locations key), index⟩ w =
      { w with editor := some { e with
        calls := calls
        visible := e.visible ++ keys.mapIdx fun i key => (n + i + 1, locations key) } } := by
  unfold paintGroups RangeGroups.toList
  induction keys generalizing n w e with
  | nil => exact ⟨e.calls, by simp [← he]⟩
  | cons key keys ih =>
    have hstyle : cache.get? key = some ⟨n + 1, ⟨(Directive.ofKey key).fill⟩⟩ :=
      hstyles 0 key rfl
    have hrest : ∀ i k, keys[i]? = some k →
        cache.get? k = some ⟨n + 1 + i + 1, ⟨(Directive.ofKey k).fill⟩⟩ := by
      intro i k hk
      rw [hstyles (i + 1) k (by simpa using hk), Nat.add_assoc n 1 i, Nat.add_comm 1 i]
    have hvisible : (e.paint ⟨n + 1, ⟨(Directive.ofKey key).fill⟩⟩ (locations key)).visible =
        e.visible ++ [(n + 1, locations key)] :=
      Editor.visible_paint (hlocations key List.mem_cons_self) fun v hv =>
        Nat.lt_succ_of_le (hids v hv)
    have hids' : ∀ v ∈ (e.paint ⟨n + 1, ⟨(Directive.ofKey key).fill⟩⟩ (locations key)).visible,
        v.1 ≤ n + 1 := by
      intro v hv
      rw [hvisible, List.mem_append, List.mem_singleton] at hv
      rcases hv with hv | rfl
      · exact Nat.le_succ_of_le (hids v hv)
      · exact Nat.le_refl _
    obtain ⟨calls, hfold⟩ := ih hrest (fun k hk => hlocations k (List.mem_cons_of_mem key hk))
      (w := w.paint ⟨n + 1, ⟨(Directive.ofKey key).fill⟩⟩ (locations key))
      (by rw [Window.paint, he]; rfl) hids'
    refine ⟨calls, ?_⟩
    rw [List.map_cons, List.foldl_cons]
    simp only [hstyle]
    rw [hfold, hvisible, List.mapIdx_cons]
    simp [Window.paint, Editor.paint, Nat.add_assoc, Nat.add_comm 1]

end Session

/--
The window after everything that some related places ask for was painted in its editor: one style for
each of the keys, visible at all the locations that ask for the color of the key. Keys that name no
color are not resolved, or left out if the policy says so.
-/
structure Window.Shows (w : Window) (uri : String) (policy : Policy) (related : List Related)
    (keys : List String) : Prop where
  nodup : keys.Nodup
  mem : ∀ key, key ∈ keys ↔ (∃ r ∈ related, r.message = "Color:" ++ key) ∧
    (policy = .skip → (Directive.color? key.toList).isSome = true)
  styles : w.styles = keys.mapIdx fun i key =>
    ⟨i + 1, ⟨(Directive.color? key.toList).elim (.unresolved key) .rgba⟩⟩
  visible : ∃ e, w.editor = some e ∧ e.uri = uri ∧
    e.visible = keys.mapIdx fun i key => (i + 1, coloredBy related key)

theorem Directive.fill_ofKey (key : String) :
    (ofKey key).fill = (color? key.toList).elim (.unresolved key) .rgba := by
  unfold ofKey
  split <;> simp_all [fill]

theorem Directive.admitted_ofKey {policy : Policy} {key : String} :
    (ofKey key).admitted policy = true ↔
      (policy = .skip → (color? key.toList).isSome = true) := by
  unfold ofKey
  cases policy <;> split <;> simp_all [admitted, isParsed]

namespace Session

/-- A new session switches on: it gives out the styles and then paints the groups. -/
theorem toggleIn_new_window {policy : Policy} {snapshot : Snapshot} {cache : StyleCache} {n : Nat}
    {w w' : Window} (hw : w.editor.isSome = true) (hw' : w'.editor.isSome = true)
    (hallocate : allocate ((Grouping.ofSnapshot policy snapshot).toList.map Prod.fst) .empty w =
      (cache, n, w')) :
    ((new policy).toggleIn snapshot w).2.2 =
      (paintGroups cache (Grouping.ofSnapshot policy snapshot).ranges w').notify addedNotice := by
  have hfound : (View.found ⟨w, none⟩) = true := by simp [View.found, hw]
  have hfound' : (View.found ⟨w', none⟩) = true := by simp [View.found, hw']
  simp only [toggleIn, toggle, new, hfound, if_true, Bool.false_eq_true, if_false, switchOn,
    View.asked, Option.map_none, hallocate, hfound']
  rfl

/-- A new session that is switched on shows all related places of the snapshot. -/
theorem shows_toggleIn_new (policy : Policy) (snapshot : Snapshot) (uri : String) :
    ∃ keys, ((new policy).toggleIn snapshot (Window.withEditor (some uri))).2.2.Shows uri policy
      snapshot.related keys := by
  obtain ⟨keys, hgathers⟩ := Grouping.gathers_ofSnapshot policy snapshot
  have hdirectives : (Grouping.ofSnapshot policy snapshot).toList.map Prod.fst =
      keys.map Directive.ofKey := by
    rw [hgathers.toList_eq, List.map_map]
    rfl
  obtain ⟨cache, hallocate, hstyles, -⟩ := allocate_spec hgathers.nodup .empty
    (Window.withEditor (some uri)) fun key _ => rfl
  rw [← hdirectives] at hallocate
  obtain ⟨calls, hpaint⟩ := paintGroups_spec hstyles (fun _ => hgathers.locationsOf_ne_nil)
    (w := (Window.withEditor (some uri)).styled keys) (e := Editor.new uri) rfl (by simp [Editor.new])
    keys.zipIdx
  rw [← hgathers.groups, ← hgathers.index] at hpaint
  have htoggle := toggleIn_new_window rfl rfl hallocate
  rw [hpaint] at htoggle
  refine ⟨keys, hgathers.nodup, ?_, ?_, ?_⟩
  · intro key
    rw [hgathers.mem, Grouping.exists_marks_key_iff, Directive.admitted_ofKey]
  · rw [htoggle]
    simp [Window.notify, Window.withEditor, Window.styled, stylesFrom, Directive.fill_ofKey]
  · rw [htoggle]
    refine ⟨_, rfl, rfl, ?_⟩
    simp only [Editor.new, Window.withEditor, Nat.zero_add, List.nil_append,
      List.mapIdx_eq_mapIdx_iff]
    intro i hi
    rw [hgathers.locationsOf_marks (List.getElem_mem hi)]

end Session

end ColorMarks
