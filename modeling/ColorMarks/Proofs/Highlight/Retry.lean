import ColorMarks.Proofs.Highlight.Switching

/-!
# Toggles that lose the editor

A toggle that does not find the editor both times changes nothing, except that switching on may have given
out the missing styles already (`unharmed_by_abort`). Those are all that the next attempt needs: it finds
them in the cache, gives out none and comes to what it would have come to at once (`toggle_supplied`).
-/

namespace ColorMarks

namespace StyleCache

/-- Keys that were given styles are contained, besides those from before. -/
theorem contains_extend (c : StyleCache) (n : Nat) (keys : List String) (key : String) :
    (c.extend n keys).contains key = true ↔ key ∈ keys ∨ c.contains key = true := by
  have hlength : keys.length ≤ (stylesFrom n keys).length := by simp [stylesFrom]
  have hfst : (keys.zip (stylesFrom n keys)).map Prod.fst = keys := List.map_fst_zip hlength
  rw [contains, isSome_get?_iff, contains, isSome_get?_iff, extend, List.map_append,
    List.map_reverse, hfst, List.mem_append, List.mem_reverse]

/-- No key is missing when all missing ones were given styles. -/
theorem missing_extend (c : StyleCache) (n : Nat) (keys : List String) :
    (c.extend n (c.missing keys)).missing keys = [] := by
  rw [missing, List.filter_eq_nil_iff]
  intro key hkey
  have hcontains : (c.extend n (c.missing keys)).contains key = true := by
    rw [contains_extend]
    by_cases hold : c.contains key = true
    · exact .inr hold
    · exact .inl (List.mem_filter.2 ⟨hkey, by simp [hold]⟩)
  simp [hcontains]

end StyleCache

@[simp] theorem Window.styled_nil (w : Window) : w.styled [] = w := by
  simp [styled, stylesFrom]

namespace Session

variable {s : Session} {w : Window}

@[simp] theorem missing_supplied (s : Session) (snapshot : Snapshot) (n : Nat) :
    (s.supplied snapshot n).missing snapshot = [] := StyleCache.missing_extend _ n _

@[simp] theorem supplied_supplied (s : Session) (snapshot : Snapshot) (n m : Nat) :
    (s.supplied snapshot n).supplied snapshot m = s.supplied snapshot n := by
  rw [supplied, missing_supplied, StyleCache.extend_nil]

/-- With the missing styles given out before, switching on comes to the same and gives out none. -/
theorem toggle_supplied (snapshot : Snapshot) (hs : s.active = false) {lookups : Option Nat}
    (hv : View.FoundTwice ⟨w, lookups⟩) :
    let once := s.toggle snapshot ⟨w, lookups⟩
    let again := (s.supplied snapshot w.lastStyle).toggle snapshot
      ⟨w.styled (s.missing snapshot), lookups⟩
    again.2 = once.2 ∧ ∃ groups locations,
      once.1 = .added groups (s.missing snapshot).length locations ∧
        again.1 = .added groups 0 locations := by
  intro once again
  have honce : once = _ := toggle_on snapshot hs hv
  have hagain : again = _ := toggle_on (s := s.supplied snapshot w.lastStyle)
    (v := ⟨w.styled (s.missing snapshot), lookups⟩) snapshot hs hv
  rw [missing_supplied, supplied_supplied, Window.styled_nil] at hagain
  rw [honce, hagain]
  exact ⟨rfl, _, _, rfl, rfl⟩

/-- The styles that the window gave out for the missing keys are theirs in the cache. -/
theorem get?_supplied (s : Session) (snapshot : Snapshot) (w : Window) {i : Nat} {key : String}
    (hi : (s.missing snapshot)[i]? = some key) :
    (s.supplied snapshot w.lastStyle).styles.get? key =
      (w.styled (s.missing snapshot)).styles[w.styles.length + i]? := by
  rw [supplied, StyleCache.get?_extend w.lastStyle (nodup_missing s snapshot) hi, Window.styled,
    List.getElem?_append_right (Nat.le_add_right _ i), Nat.add_sub_cancel_left, stylesFrom,
    List.getElem?_mapIdx, hi]
  rfl

/--
A toggle that does not find the editor both times leaves switch, groups, editors and notices as they are.
If it misses the editor at first, or had to switch off, it leaves everything as it is. Otherwise it gives
out the missing styles, and the next toggle that finds the editor ends as if there had been none before,
but that it gives out no style.
-/
theorem unharmed_by_abort (s : Session) (snapshot : Snapshot) (w : Window) {lookups : Option Nat}
    (h : ¬ View.FoundTwice ⟨w, lookups⟩) :
    let y := s.toggle snapshot ⟨w, lookups⟩
    y.1 = .noActiveEditor ∧
      (y.2.1.active = s.active ∧ y.2.1.groups = s.groups ∧ y.2.2.window.editor = w.editor ∧
        y.2.2.window.parked = w.parked ∧ y.2.2.window.notices = w.notices) ∧
      (View.found ⟨w, lookups⟩ = false ∨ s.active = true → y.2.1 = s ∧ y.2.2.window = w) ∧
      (View.found ⟨w, lookups⟩ = true → s.active = false →
        y.2.1 = s.supplied snapshot w.lastStyle ∧
        y.2.2.window = w.styled (s.missing snapshot) ∧
        (∀ i key, (s.missing snapshot)[i]? = some key →
          y.2.1.styles.get? key = y.2.2.window.styles[w.styles.length + i]?) ∧
        ∀ again, View.FoundTwice ⟨w, again⟩ →
          (y.2.1.toggle snapshot ⟨y.2.2.window, again⟩).2 = (s.toggle snapshot ⟨w, again⟩).2 ∧
          ∃ groups locations,
            (s.toggle snapshot ⟨w, again⟩).1 =
                .added groups (s.missing snapshot).length locations ∧
              (y.2.1.toggle snapshot ⟨y.2.2.window, again⟩).1 = .added groups 0 locations) := by
  intro y
  cases hfound : View.found ⟨w, lookups⟩ with
  | false =>
    have hy : y = _ := toggle_missed s snapshot hfound
    rw [hy]
    exact ⟨rfl, ⟨rfl, rfl, rfl, rfl, rfl⟩, fun _ => ⟨rfl, rfl⟩, by rintro ⟨⟩⟩
  | true =>
    have hlost : (View.asked ⟨w, lookups⟩).found = false := by
      cases hasked : (View.asked ⟨w, lookups⟩).found with
      | false => rfl
      | true => exact absurd ⟨hfound, hasked⟩ h
    cases hs : s.active with
    | true =>
      have hy : y = _ := toggle_kept snapshot hs hfound hlost
      rw [hy]
      exact ⟨rfl, ⟨hs, rfl, rfl, rfl, rfl⟩, fun _ => ⟨rfl, rfl⟩, by rintro - ⟨⟩⟩
    | false =>
      have hy : y = _ := toggle_lost snapshot hs hfound hlost
      rw [hy]
      refine ⟨rfl, ⟨hs, rfl, rfl, rfl, rfl⟩, by rintro (⟨⟨⟩⟩ | ⟨⟨⟩⟩), fun _ _ => ⟨rfl, rfl, ?_, ?_⟩⟩
      · exact fun i key hi => get?_supplied s snapshot w hi
      · exact fun again hagain => toggle_supplied snapshot hs hagain

/-- The editor is lost over three keys of which one has a style already. -/
theorem unharmed_by_abort_over_three_keys :
    let x := run (new .render, Window.withEditor (some "file:///a.txt"))
      [.toggle (Snapshot.asking [(1, "1,2,3")]) none, .toggle [] none]
    let snapshot := Snapshot.asking [(2, "4,5,6"), (3, "1,2,3"), (4, "red"), (5, "4,5,6")]
    let y := x.1.toggle snapshot ⟨x.2, some 1⟩
    ¬ View.FoundTwice ⟨x.2, some 1⟩ ∧ View.found ⟨x.2, some 1⟩ = true ∧ x.1.active = false ∧
      View.FoundTwice ⟨x.2, none⟩ ∧ x.1.missing snapshot = ["4,5,6", "red"] ∧
      y.1 = .noActiveEditor ∧ y.2.2.window.notices = x.2.notices ∧
      y.2.1 = x.1.supplied snapshot x.2.lastStyle ∧
      (y.2.1.toggle snapshot ⟨y.2.2.window, none⟩).2 = (x.1.toggle snapshot ⟨x.2, none⟩).2 ∧
      (x.1.toggle snapshot ⟨x.2, none⟩).1 = .added 3 2 4 ∧
      (y.2.1.toggle snapshot ⟨y.2.2.window, none⟩).1 = .added 3 0 4 := by
  intro x snapshot y
  have hlost : ¬ View.FoundTwice ⟨x.2, some 1⟩ := by decide
  have hfound : View.found ⟨x.2, some 1⟩ = true := by decide
  have hactive : x.1.active = false := by decide
  have hagain : View.FoundTwice ⟨x.2, none⟩ := by decide
  obtain ⟨hnone, hsame, -, habort⟩ := unharmed_by_abort x.1 snapshot x.2 hlost
  obtain ⟨hsession, -, -, hretry⟩ := habort hfound hactive
  have honce : (x.1.toggle snapshot ⟨x.2, none⟩).1 = .added 3 2 4 := by decide
  obtain ⟨hback, groups, locations, hadded, hretried⟩ := hretry none hagain
  obtain ⟨rfl, -, rfl⟩ := Outcome.added.inj (honce.symm.trans hadded)
  refine ⟨hlost, hfound, hactive, hagain, by decide, hnone, hsame.2.2.2.2, hsession, ?_, honce, ?_⟩
  · simpa only [y, x] using hback
  · simpa only [y, x] using hretried

end Session

end ColorMarks
