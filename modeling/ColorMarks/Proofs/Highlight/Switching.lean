import ColorMarks.Proofs.Highlight.Editors
import ColorMarks.Proofs.Highlight.Lifetime
import ColorMarks.Proofs.Highlight.Painting
import ColorMarks.Proofs.Highlight.Requests

/-!
# What a toggle does, as a whole

Each way in which a toggle can end has one equation for its outcome, the session and the window after it
(`toggle_on`, `toggle_off`, and those where the editor is not found). For a session that is switched on it
is then said in full what was given out, called, made visible and answered (`switchesOn_of_run`).
-/

namespace ColorMarks

open Grouping (coloredBy requests)

/-- The keys that a snapshot asks for and the policy lets through, each where it comes first. -/
def Grouping.wanted (policy : Policy) (snapshot : Snapshot) : List String :=
  ((requests policy snapshot.related).map Prod.fst).eraseDups

theorem Grouping.nodup_wanted (policy : Policy) (snapshot : Snapshot) :
    (wanted policy snapshot).Nodup := nodup_eraseDups _

namespace StyleCache

/-- New keys are listed with their new styles behind the others. -/
theorem toList_extend {c : StyleCache} {keys : List String} (hkeys : keys.Nodup)
    (hnew : ∀ key ∈ keys, key ∉ c.order) (n : Nat) :
    (c.extend n keys).toList = c.toList ++ keys.zip (stylesFrom n keys) := by
  induction keys generalizing c n with
  | nil => simp
  | cons key keys ih =>
    obtain ⟨hkey, hrest⟩ := List.nodup_cons.1 hkeys
    rw [List.forall_mem_cons] at hnew
    obtain ⟨hfirst, hothers⟩ := hnew
    have hnew' : ∀ k ∈ keys,
        k ∉ (c.add key ⟨n + 1, ⟨(Directive.ofKey key).fill⟩⟩).order := by
      intro k hk hmem
      rcases List.mem_append.1 hmem with hold | hlast
      · exact hothers k hk hold
      · exact hkey (List.mem_singleton.1 hlast ▸ hk)
    rw [extend_cons, ih hrest hnew', toList_add hfirst, stylesFrom_cons, List.zip_cons_cons,
      List.append_assoc]
    rfl

end StyleCache

/-- The place that is marked in a line of a document. -/
def Location.inLine (line : UInt32) : Location := ⟨"file:///a.txt", ⟨⟨line, 0⟩, ⟨line, 4⟩⟩⟩

/-- A document in which some lines ask for the color of a key. -/
def Snapshot.asking (places : List (UInt32 × String)) : Snapshot :=
  [("file:///a.txt", [⟨⟨⟨0, 0⟩, ⟨0, 1⟩⟩, none, none, none, "m",
    places.map fun (line, key) => ⟨.inLine line, "Color:" ++ key⟩⟩])]

namespace View

/-- The focused editor is found both times when a toggle asks for it. -/
def FoundTwice (v : View) : Prop := v.found = true ∧ v.asked.found = true

instance (v : View) : Decidable v.FoundTwice :=
  inferInstanceAs (Decidable (v.found = true ∧ v.asked.found = true))

end View

namespace Session

/-- The keys of a snapshot that have no style in a session. -/
def missing (s : Session) (snapshot : Snapshot) : List String :=
  s.styles.missing (Grouping.wanted s.policy snapshot)

theorem nodup_missing (s : Session) (snapshot : Snapshot) : (s.missing snapshot).Nodup :=
  (Grouping.nodup_wanted s.policy snapshot).filter _

/-- The session with a style for each key of a snapshot, the new ones after `n` others. -/
def supplied (s : Session) (snapshot : Snapshot) (n : Nat) : Session :=
  { s with styles := s.styles.extend n (s.missing snapshot) }

variable {s : Session} {snapshot : Snapshot} {v : View}

theorem directives_eq_map (policy : Policy) (snapshot : Snapshot) :
    directives policy snapshot = (Grouping.wanted policy snapshot).map Directive.ofKey := by
  rw [directives_eq (Grouping.gathers_marks policy snapshot), Grouping.keysOf_marks,
    Grouping.wanted]

/-- The styles for a snapshot are given out to the keys that have none, in their order. -/
theorem allocate_directives (s : Session) (snapshot : Snapshot) (w : Window) :
    allocate (directives s.policy snapshot) s.styles w =
      ((s.supplied snapshot w.lastStyle).styles, (s.missing snapshot).length,
        w.styled (s.missing snapshot)) := by
  rw [directives_eq_map]
  exact allocate_eq (Grouping.nodup_wanted s.policy snapshot) s.styles w

/-! ## The ways in which a toggle ends -/

/-- No editor is found, and nothing happens. -/
theorem toggle_missed (s : Session) (snapshot : Snapshot) (hv : v.found = false) :
    s.toggle snapshot v = (.noActiveEditor, s, v.asked) := by
  rw [toggle, hv, if_neg Bool.false_ne_true]

/-- The editor is lost before switching off begins. -/
theorem toggle_kept (snapshot : Snapshot) (hs : s.active = true) (hv : v.found = true)
    (hlost : v.asked.found = false) :
    s.toggle snapshot v = (.noActiveEditor, s, v.asked.asked) := by
  rw [toggle, if_pos hv, if_pos hs, switchOff, hlost, if_neg Bool.false_ne_true]

theorem toggle_off (snapshot : Snapshot) (hs : s.active = true) (hv : v.FoundTwice) :
    s.toggle snapshot v = (.removed s.styles.size, { s with active := false, groups := .empty },
      { v.asked.asked with window := cleared s.styles v.window }) := by
  rw [toggle, if_pos hv.1, if_pos hs, switchOff, if_pos hv.2]
  rfl

/-- The editor is lost when the missing styles are given out already. -/
theorem toggle_lost (snapshot : Snapshot) (hs : s.active = false) (hv : v.found = true)
    (hlost : v.asked.found = false) :
    s.toggle snapshot v = (.noActiveEditor, s.supplied snapshot v.window.lastStyle,
      { v.asked.asked with window := v.window.styled (s.missing snapshot) }) := by
  have hstyles := allocate_directives s snapshot v.asked.window
  rw [directives] at hstyles
  have hlost' : View.found ⟨v.asked.window.styled (s.missing snapshot), v.asked.lookups⟩ = false :=
    hlost
  rw [toggle, if_pos hv, hs, if_neg Bool.false_ne_true, switchOn]
  simp only [hstyles, hlost', Bool.false_eq_true, if_false]
  rfl

theorem toggle_on (snapshot : Snapshot) (hs : s.active = false) (hv : v.FoundTwice) :
    let groups := (Grouping.ofSnapshot s.policy snapshot).ranges
    let s' := s.supplied snapshot v.window.lastStyle
    s.toggle snapshot v =
      (.added groups.size (s.missing snapshot).length groups.locationCount,
        { s' with active := true, groups := groups },
        { v.asked.asked with
          window := painted s'.styles s.groups groups
            (v.window.styled (s.missing snapshot)) }) := by
  intro groups s'
  have hstyles := allocate_directives s snapshot v.asked.window
  rw [directives] at hstyles
  have hfound : View.found ⟨v.asked.window.styled (s.missing snapshot), v.asked.lookups⟩ = true :=
    hv.2
  rw [toggle, if_pos hv.1, hs, if_neg Bool.false_ne_true, switchOn]
  simp only [hstyles, hfound, if_true]
  rfl

/-! ## Switching on -/

/--
All that switching on does, from a session `s` in a window `w` with the focused editor `e` to an outcome,
another session and another window in which that editor is `e'`. The keys that the snapshot asks for are
told by `Grouping.wanted`, those of them that have no style yet by `missing`.
-/
structure SwitchesOn (s : Session) (snapshot : Snapshot) (w : Window) (e : Editor)
    (outcome : Outcome) (s' : Session) (w' : Window) (e' : Editor) : Prop where
  outcome : outcome = .added (Grouping.wanted s.policy snapshot).length (s.missing snapshot).length
    (requests s.policy snapshot.related).length
  active : s'.active = true
  policy : s'.policy = s.policy
  groups : s'.groups = (Grouping.ofSnapshot s.policy snapshot).ranges
  /-- One group for each key, with all places that ask for it. -/
  listed : s'.groups.toList =
    (Grouping.wanted s.policy snapshot).map fun key => (key, coloredBy snapshot.related key)
  /-- Keys without a style get one, and keys that have one keep it. -/
  cached : s'.styles.toList = s.styles.toList ++
    (s.missing snapshot).zip (stylesFrom w.lastStyle (s.missing snapshot))
  allocated : w'.styles = w.styles ++ stylesFrom w.lastStyle (s.missing snapshot)
  lastStyle : w'.lastStyle = w.lastStyle + (s.missing snapshot).length
  focused : w'.editor = some e'
  uri : e'.uri = e.uri
  /-- One call for each key, with its style and all of its places, and no other call. -/
  calls : ∃ calls, e'.calls = e.calls ++ calls ∧
    List.Forall₂ (fun key (call : PaintCall) => ∃ style, s'.styles.get? key = some style ∧
      call = ⟨style.id, coloredBy snapshot.related key⟩) (Grouping.wanted s.policy snapshot) calls
  /-- No key is without a place, so that none of the calls clears a style. -/
  placed : ∀ key ∈ Grouping.wanted s.policy snapshot, coloredBy snapshot.related key ≠ []
  /-- What is visible is in order, with each style once. -/
  sorted : Ordered.Sorted e'.visible
  visible : ∀ key ∈ Grouping.wanted s.policy snapshot, ∀ style,
    s'.styles.get? key = some style →
      e'.visible.lookup style.id = some (coloredBy snapshot.related key)
  /-- What is visible of all other styles stays. -/
  others : ∀ n, (∀ key ∈ Grouping.wanted s.policy snapshot, ∀ style,
    s'.styles.get? key = some style → style.id ≠ n) → e'.visible.lookup n = e.visible.lookup n
  notices : w'.notices = w.notices ++ ["Added highlight!"]
  parked : w'.parked = w.parked

/-- The groups of a snapshot are those of the keys that it asks for. -/
theorem toList_ranges (policy : Policy) (snapshot : Snapshot) :
    (Grouping.ofSnapshot policy snapshot).ranges.toList =
      (Grouping.wanted policy snapshot).map fun key => (key, coloredBy snapshot.related key) := by
  have hspecified := Grouping.specified_ofSnapshot policy snapshot
  rw [hspecified.groups, hspecified.keys, Grouping.wanted]

theorem size_ranges (policy : Policy) (snapshot : Snapshot) :
    (Grouping.ofSnapshot policy snapshot).ranges.size = (Grouping.wanted policy snapshot).length := by
  have hlength := congrArg List.length (toList_ranges policy snapshot)
  rw [List.length_map] at hlength
  exact hlength

variable {policy : Policy} {w : Window}

/-- The cache lists what it listed before, and then the keys that had no style. -/
theorem Fits.toList_supplied (h : s.Fits policy w) (snapshot : Snapshot) :
    (s.supplied snapshot w.lastStyle).styles.toList = s.styles.toList ++
      (s.missing snapshot).zip (stylesFrom w.lastStyle (s.missing snapshot)) := by
  refine StyleCache.toList_extend (nodup_missing s snapshot) (fun key hkey hlisted => ?_) w.lastStyle
  rw [h.sound.mem_order_iff, (StyleCache.mem_missing_iff.1 hkey).2] at hlisted
  cases hlisted

/-- A session that is off is switched on, in a window that it fits. -/
theorem Fits.switchesOn (h : s.Fits policy w) (hs : s.active = false) {e : Editor}
    (he : w.editor = some e) (hsorted : Ordered.Sorted e.visible) (snapshot : Snapshot)
    {lookups : Option Nat} (hv : View.FoundTwice ⟨w, lookups⟩) :
    let x := s.toggle snapshot ⟨w, lookups⟩
    ∃ e', SwitchesOn s snapshot w e x.1 x.2.1 x.2.2.window e' := by
  intro x
  let cache := (s.supplied snapshot w.lastStyle).styles
  let groups := (Grouping.ofSnapshot s.policy snapshot).ranges
  have hallocated := h.allocated (allocate_directives s snapshot w)
  have hlisted := toList_ranges s.policy snapshot
  have hstyled : ∀ g ∈ groups.toList, (∃ style, cache.get? g.1 = some style) ∧ g.2 ≠ [] := by
    intro g hg
    have hranges := styled_ranges hallocated.found
    rw [← h.keeps] at hranges
    exact ⟨(hranges g hg).1, (hranges g hg).2.1⟩
  -- no groups are painted while the session is off, so nothing is cleared first
  have hwindow : painted cache s.groups groups (w.styled (s.missing snapshot)) =
      { w.styled (s.missing snapshot) with
        editor := some (groups.toList.foldl (Editor.paintGroup cache) e)
        notices := w.notices ++ [addedNotice] } := by
    rw [painted_eq, h.idle hs, Window.styled, he]
    rfl
  have hx : x = (.added groups.size (s.missing snapshot).length groups.locationCount,
      { s.supplied snapshot w.lastStyle with active := true, groups := groups },
      ⟨{ w.styled (s.missing snapshot) with
          editor := some (groups.toList.foldl (Editor.paintGroup cache) e)
          notices := w.notices ++ [addedNotice] }, (View.asked ⟨w, lookups⟩).asked.lookups⟩) :=
    (toggle_on snapshot hs hv).trans (by rw [hwindow])
  have hkeys : groups.toList.map Prod.fst = Grouping.wanted s.policy snapshot := by
    rw [hlisted, List.map_map]
    exact List.map_id _
  have hmem : ∀ key ∈ Grouping.wanted s.policy snapshot,
      (key, coloredBy snapshot.related key) ∈ groups.toList := by
    intro key hkey
    rw [hlisted]
    exact List.mem_map_of_mem hkey
  rw [hx]
  refine ⟨_, ?_, rfl, rfl, rfl, hlisted, h.toList_supplied snapshot, rfl, rfl, rfl,
    Editor.uri_foldl_paintGroup .., ?_, ?_, ?_, ?_, ?_, rfl, rfl⟩
  · rw [size_ranges, (Grouping.specified_ofSnapshot s.policy snapshot).count]
  · obtain ⟨calls, hcalls, hall⟩ := Editor.exists_calls_foldl_paintGroup
      (fun g hg => (hstyled g hg).1) e
    rw [hlisted, List.forall₂_map_left_iff] at hall
    exact ⟨calls, hcalls, hall⟩
  · exact fun key hkey => (hstyled _ (hmem key hkey)).2
  · have hkept : KeptBy cache fun e => Ordered.Sorted e.visible :=
      fun _ style _ _ ranges he => Editor.sorted_paint he style ranges
    exact hkept.paintGroups groups.toList hsorted
  · intro key hkey style hstyle
    refine Editor.lookup_foldl_paintGroup_of_mem hallocated.sound ?_ (hmem key hkey)
      (hstyled _ (hmem key hkey)).2 hstyle e
    rw [hkeys]
    exact Grouping.nodup_wanted s.policy snapshot
  · intro n hn
    refine Editor.lookup_foldl_paintGroup_of_ne (fun g hg style hstyle => ?_) e
    rw [hlisted] at hg
    obtain ⟨key, hkey, rfl⟩ := List.mem_map.1 hg
    exact hn key hkey style hstyle

/--
Whatever was done with a session and its window, beginning with new ones, switching on then does
what `SwitchesOn` says and nothing else.
-/
theorem switchesOn_of_run (policy : Policy) (uri : Option String) (steps : List Step)
    (snapshot : Snapshot) (lookups : Option Nat) :
    let x := run (new policy, Window.withEditor uri) steps
    ∀ e, x.1.active = false → x.2.editor = some e → View.FoundTwice ⟨x.2, lookups⟩ →
      let y := x.1.toggle snapshot ⟨x.2, lookups⟩
      ∃ e', SwitchesOn x.1 snapshot x.2 e y.1 y.2.1 y.2.2.window e' := by
  intro x e hactive he hfound
  have hnew : ∀ e ∈ (Window.withEditor uri).editors, Ordered.Sorted e.visible := by
    intro e he
    obtain ⟨uri', rfl⟩ := Window.eq_new_of_mem_editors he
    exact List.Pairwise.nil
  have hsorted := sorted_run (x := (new policy, Window.withEditor uri)) hnew steps
  exact ((fits_new policy _).run steps).switchesOn hactive he
    (hsorted e (Window.mem_editors_of_focused he)) snapshot hfound

/-- An editor that lost focus while the session was switched off is still painted when it is back. -/
private def leftPainted : List Step :=
  [.toggle (Snapshot.asking [(1, "1,2,3"), (2, "red")]) none, .move (.focus "file:///b.txt"),
    .toggle [] none, .move (.refocus 0)]

/-- A key that has a style and one that has none, in an editor that was left painted. -/
theorem switchesOn_in_painted_editor :
    let x := run (new .render, Window.withEditor (some "file:///a.txt")) leftPainted
    let snapshot := Snapshot.asking [(3, "4,5,6"), (4, "1,2,3")]
    let y := x.1.toggle snapshot ⟨x.2, none⟩
    ∃ e e', x.1.active = false ∧ x.2.editor = some e ∧ View.FoundTwice ⟨x.2, none⟩ ∧
      e.visible = [(1, [.inLine 1]), (2, [.inLine 2])] ∧
      SwitchesOn x.1 snapshot x.2 e y.1 y.2.1 y.2.2.window e' ∧ y.1 = .added 2 1 2 ∧
      e'.visible = [(1, [.inLine 4]), (2, [.inLine 2]), (3, [.inLine 3])] := by
  intro x snapshot y
  have hactive : x.1.active = false := by decide
  have hfound : View.FoundTwice ⟨x.2, none⟩ := by decide
  have hbefore : x.2.editor.map Editor.visible = some [(1, [.inLine 1]), (2, [.inLine 2])] := by
    decide
  have hafter : y.2.2.window.editor.map Editor.visible =
      some [(1, [.inLine 4]), (2, [.inLine 2]), (3, [.inLine 3])] := by decide
  obtain ⟨e, he, hvisible⟩ := Option.map_eq_some_iff.1 hbefore
  have hon : ∃ e', SwitchesOn x.1 snapshot x.2 e y.1 y.2.1 y.2.2.window e' :=
    switchesOn_of_run .render (some "file:///a.txt") leftPainted snapshot none e hactive he hfound
  obtain ⟨e', hon⟩ := hon
  rw [hon.focused] at hafter
  exact ⟨e, e', hactive, he, hfound, hvisible, hon, by decide, Option.some.inj hafter⟩

end Session

end ColorMarks
