import ColorMarks.Proofs.Highlight.Cleaning
import ColorMarks.Proofs.Highlight.Retry

/-!
# Switching on and off again

What a toggle does depends on how its window looks and not on what was called or told before
(`Alike.toggleIn`). In a window whose editor keeps focus, switching on and off leaves as its only trace the
styles that were given out (`alike_off`), as an attempt would that lost the editor. So switching on over the
same snapshot comes to the same again, as often as it is done (`periodic_of_run`).
-/

namespace ColorMarks

/-! ## How a window looks -/

/-- The window as it looks: with its styles and what is visible in its editors, but without notices and
without what the focused editor remembers of calls. -/
def Window.look (w : Window) : Window := { w.clearCalls with notices := [] }

namespace Editor

theorem clearCalls_clearStyles (e : Editor) (styles : List Style) :
    (e.clearStyles styles).clearCalls = (e.clearCalls.clearStyles styles).clearCalls := by
  rw [clearStyles_eq, clearStyles_eq]
  rfl

theorem clearCalls_foldl_paintGroup (cache : StyleCache) (groups : List (String × List Location))
    (e : Editor) : (groups.foldl (paintGroup cache) e).clearCalls =
      (groups.foldl (paintGroup cache) e.clearCalls).clearCalls := by
  induction groups generalizing e with
  | nil => rfl
  | cons g groups ih =>
    have hfirst : (e.paintGroup cache g).clearCalls =
        (e.clearCalls.paintGroup cache g).clearCalls := by
      unfold paintGroup
      split <;> rfl
    rw [List.foldl_cons, List.foldl_cons, ih, hfirst, ← ih]

end Editor

namespace Window

variable {w : Window}

theorem isSome_editor_look (w : Window) : w.look.editor.isSome = w.editor.isSome := by
  simp [look, clearCalls]

/-- Two windows look the same if they do after the same change of their focused editors. -/
theorem look_editor_map {f : Editor → Editor}
    (hf : ∀ e, (f e).clearCalls = (f e.clearCalls).clearCalls) (w : Window)
    (notices notices' : List String) :
    look { w with editor := w.editor.map f, notices := notices } =
      look { w.look with editor := w.look.editor.map f, notices := notices' } := by
  cases he : w.editor with
  | none => simp [look, clearCalls, he]
  | some e => simp [look, clearCalls, he, hf e]

end Window

namespace Session

theorem look_painted (cache : StyleCache) (before groups : RangeGroups) (w : Window) :
    (painted cache before groups w).look = (painted cache before groups w.look).look := by
  rw [painted_eq, painted_eq]
  refine Window.look_editor_map (fun e => ?_) w _ _
  rw [Editor.clearCalls_foldl_paintGroup, Editor.clearCalls_clearStyles,
    ← Editor.clearCalls_foldl_paintGroup]

theorem look_cleared (cache : StyleCache) (w : Window) :
    (cleared cache w).look = (cleared cache w.look).look := by
  rw [cleared_eq, cleared_eq]
  exact Window.look_editor_map (fun e => Editor.clearCalls_clearStyles e _) w _ _

theorem foundTwice_of_isSome {w : Window} (h : w.editor.isSome = true) :
    View.FoundTwice ⟨w, none⟩ := by
  simp [View.FoundTwice, View.found, View.asked, h]

theorem toggleIn_missed (s : Session) (snapshot : Snapshot) {w : Window} (hw : w.editor = none) :
    s.toggleIn snapshot w = (.noActiveEditor, s, w) := by
  have hmissed : View.found ⟨w, none⟩ = false := by simp [View.found, hw]
  rw [toggleIn, toggle_missed s snapshot hmissed]
  rfl

variable {s : Session} {w : Window}

theorem toggleIn_off (snapshot : Snapshot) (hs : s.active = true) (hw : w.editor.isSome = true) :
    s.toggleIn snapshot w =
      (.removed s.styles.size, { s with active := false, groups := .empty }, cleared s.styles w) := by
  rw [toggleIn, toggle_off snapshot hs (foundTwice_of_isSome hw)]

theorem toggleIn_on (snapshot : Snapshot) (hs : s.active = false) (hw : w.editor.isSome = true) :
    let groups := (Grouping.ofSnapshot s.policy snapshot).ranges
    let s' := s.supplied snapshot w.lastStyle
    s.toggleIn snapshot w =
      (.added groups.size (s.missing snapshot).length groups.locationCount,
        { s' with active := true, groups := groups },
        painted s'.styles s.groups groups (w.styled (s.missing snapshot))) := by
  rw [toggleIn, toggle_on snapshot hs (foundTwice_of_isSome hw)]

/-- The same session, in windows that look the same. -/
def Alike (x y : Session × Window) : Prop := x.1 = y.1 ∧ x.2.look = y.2.look

theorem Alike.trans {x y z : Session × Window} (h : Alike x y) (h' : Alike y z) : Alike x z :=
  ⟨h.1.trans h'.1, h.2.trans h'.2⟩

theorem alike_look (s : Session) (w : Window) : Alike (s, w) (s, w.look) := by
  refine ⟨rfl, ?_⟩
  cases he : w.editor <;> simp [Window.look, Window.clearCalls, he, Editor.clearCalls]

theorem Alike.symm {x y : Session × Window} (h : Alike x y) : Alike y x := ⟨h.1.symm, h.2.symm⟩

/-- What a toggle does depends on how the window looks. -/
theorem toggleIn_look (s : Session) (snapshot : Snapshot) (w : Window) :
    (s.toggleIn snapshot w).1 = (s.toggleIn snapshot w.look).1 ∧
      Alike (s.toggleIn snapshot w).2 (s.toggleIn snapshot w.look).2 := by
  have hlook := w.isSome_editor_look
  cases hw : w.editor with
  | none =>
    have hw' : w.look.editor = none := by simp [Window.look, Window.clearCalls, hw]
    rw [toggleIn_missed s snapshot hw, toggleIn_missed s snapshot hw']
    exact ⟨rfl, alike_look s w⟩
  | some e =>
    have hfound : w.editor.isSome = true := by rw [hw]; rfl
    rw [hfound] at hlook
    cases hs : s.active with
    | true =>
      rw [toggleIn_off snapshot hs hfound, toggleIn_off snapshot hs hlook]
      exact ⟨rfl, rfl, look_cleared s.styles w⟩
    | false =>
      rw [toggleIn_on snapshot hs hfound, toggleIn_on snapshot hs hlook]
      exact ⟨rfl, rfl, look_painted _ _ _ _⟩

theorem Alike.toggleIn {x y : Session × Window} (h : Alike x y) (snapshot : Snapshot) :
    (x.1.toggleIn snapshot x.2).1 = (y.1.toggleIn snapshot y.2).1 ∧
      Alike (x.1.toggleIn snapshot x.2).2 (y.1.toggleIn snapshot y.2).2 := by
  obtain ⟨hsession, hlook⟩ := h
  obtain ⟨houtcome, halike⟩ := toggleIn_look x.1 snapshot x.2
  obtain ⟨houtcome', halike'⟩ := toggleIn_look y.1 snapshot y.2
  rw [hsession, hlook] at houtcome halike
  rw [hsession]
  exact ⟨houtcome.trans houtcome'.symm, halike.trans halike'.symm⟩

/-! ## One editor that keeps focus -/

/-- The window has one editor, of a document that does not change, and shows nothing while the session is
off. -/
structure Stays (uri : String) (s : Session) (w : Window) : Prop where
  focused : ∃ e, w.editor = some e ∧ e.uri = uri ∧ (s.active = false → e.visible = [])
  parked : w.parked = []

namespace Stays

variable {uri : String} {policy : Policy} {s' : Session} {w' : Window} {snapshot : Snapshot}

theorem isSome_editor (h : Stays uri s w) : w.editor.isSome = true := by
  obtain ⟨e, he, -⟩ := h.focused
  rw [he]
  rfl

/-- While the session is off, the window looks as its styles tell. -/
theorem look_eq (h : Stays uri s w) (hs : s.active = false) :
    w.look = { editor := some (.new uri), styles := w.styles, lastStyle := w.lastStyle } := by
  obtain ⟨⟨e, he, rfl, hblank⟩, hparked⟩ := h
  simp [Window.look, Window.clearCalls, he, hparked, Editor.clearCalls, hblank hs, Editor.new]

/-- While the session is off, a window that looks the same shows nothing in its only editor. -/
theorem blank (h : Stays uri s w) (hs : s.active = false) (hlook : w'.look = w.look) :
    ∃ e, w'.editors = [e] ∧ w'.editor = some e ∧ e.uri = uri ∧ e.visible = [] := by
  rw [h.look_eq hs] at hlook
  obtain ⟨e, he, hnew⟩ := Option.map_eq_some_iff.1 (congrArg Window.editor hlook)
  have hparked : w'.parked = [] := congrArg Window.parked hlook
  have heditors : w'.editors = [e] := by simp [Window.editors, he, hparked]
  exact ⟨e, heditors, he, congrArg Editor.uri hnew, congrArg Editor.visible hnew⟩

theorem flip (h : Stays uri s w) (hfits : s.Fits policy w)
    (hwithin : ∀ e ∈ w.editors, e.Within s.styles) (hflip : Flip s w snapshot s' w') :
    Stays uri s' w' := by
  cases hflip with
  | missed => exact h
  | styled hs hstyles =>
    obtain ⟨styles, last, rfl⟩ := allocate_window hstyles
    exact ⟨h.focused, h.parked⟩
  | on hs he hstyles =>
    obtain ⟨styles, last, rfl⟩ := allocate_window hstyles
    obtain ⟨e, he, huri, -⟩ := h.focused
    rw [painted_eq, he]
    refine ⟨⟨_, rfl, ?_, by rintro ⟨⟩⟩, h.parked⟩
    rw [Editor.uri_foldl_paintGroup, Editor.uri_clearStyles]
    exact huri
  | off hs he =>
    obtain ⟨e, he, huri, -⟩ := h.focused
    have hclear := (hwithin e (Window.mem_editors_of_focused he)).visible_clearStyles hfits.sound
    rw [cleared_eq, he]
    exact ⟨⟨_, rfl, (Editor.uri_clearStyles e _).trans huri, fun _ => hclear⟩, h.parked⟩

end Stays

/-- A session and the only editor of its window, in which nothing is visible but styles of the session. -/
structure Alone (uri : String) (policy : Policy) (x : Session × Window) : Prop where
  fits : x.1.Fits policy x.2
  within : ∀ e ∈ x.2.editors, e.Within x.1.styles
  stays : Stays uri x.1 x.2

namespace Alone

variable {uri : String} {policy : Policy} {x : Session × Window}

theorem toggle (h : Alone uri policy x) (snapshot : Snapshot) (lookups : Option Nat) :
    Alone uri policy (act x (.toggle snapshot lookups)) := by
  have hflip := toggle_flip x.1 x.2 snapshot lookups
  exact ⟨h.fits.flip hflip, within_flip h.fits h.within hflip,
    h.stays.flip h.fits h.within hflip⟩

theorem toggles (h : Alone uri policy x) (toggles : List (Snapshot × Option Nat)) :
    Alone uri policy (run x (toggles.map fun t => .toggle t.1 t.2)) := by
  induction toggles generalizing x with
  | nil => exact h
  | cons t toggles ih => exact ih (h.toggle t.1 t.2)

end Alone

theorem alone_new (uri : String) (policy : Policy) :
    Alone uri policy (new policy, Window.withEditor (some uri)) where
  fits := fits_new policy _
  within := within_withEditor policy (some uri)
  stays := ⟨⟨_, rfl, rfl, fun _ => rfl⟩, rfl⟩

/-! ## Cycles -/

variable {uri : String} {policy : Policy} {x : Session × Window}

/-- Session and window with the styles that a snapshot needs. -/
def suppliedFor (x : Session × Window) (snapshot : Snapshot) : Session × Window :=
  (x.1.supplied snapshot x.2.lastStyle, x.2.styled (x.1.missing snapshot))

theorem Stays.suppliedFor (h : Stays uri x.1 x.2) (snapshot : Snapshot) :
    Stays uri (suppliedFor x snapshot).1 (suppliedFor x snapshot).2 := ⟨h.focused, h.parked⟩

/-- Switching on and off leaves nothing but the styles that were given out. -/
theorem alike_off (h : Alone uri policy x) (hoff : x.1.active = false) (snapshot other : Snapshot) :
    let once := x.1.toggleIn snapshot x.2
    Alike (once.2.1.toggleIn other once.2.2).2 (suppliedFor x snapshot) := by
  intro once
  let off := once.2.1.toggleIn other once.2.2
  have honce : Alone uri policy once.2 := h.toggle snapshot none
  have hfinal : Alone uri policy off.2 := honce.toggle other none
  have hsupplied := h.stays.suppliedFor snapshot
  have hon : once = _ := toggleIn_on snapshot hoff h.stays.isSome_editor
  have hactive : once.2.1.active = true := by rw [hon]
  have hoffEq : off = _ := toggleIn_off other hactive honce.stays.isSome_editor
  have hsession : off.2.1 = (suppliedFor x snapshot).1 := by
    have hsame : (suppliedFor x snapshot).1 =
        { x.1.supplied snapshot x.2.lastStyle with active := x.1.active, groups := x.1.groups } := rfl
    rw [hsame, hoff, h.fits.idle hoff, hoffEq, hon]
  have hlook : off.2.2.look = (suppliedFor x snapshot).2.look := by
    have hinactive : off.2.1.active = false := by rw [hoffEq]
    have hstyles : off.2.2.styles = (suppliedFor x snapshot).2.styles := by
      rw [hoffEq, styles_cleared, hon, styles_painted]
      rfl
    have hlast : off.2.2.lastStyle = (suppliedFor x snapshot).2.lastStyle := by
      rw [hoffEq, lastStyle_cleared, hon, lastStyle_painted]
      rfl
    rw [hfinal.stays.look_eq hinactive, hsupplied.look_eq hoff, hstyles, hlast]
  exact ⟨hsession, hlook⟩

/-- Switching on over the same snapshot again comes to the same as the first time. -/
theorem alike_on (h : Alone uri policy x) (hoff : x.1.active = false) (snapshot other : Snapshot) :
    let once := x.1.toggleIn snapshot x.2
    let off := once.2.1.toggleIn other once.2.2
    let on := off.2.1.toggleIn snapshot off.2.2
    Alike on.2 once.2 ∧ ∃ groups locations,
      once.1 = .added groups (x.1.missing snapshot).length locations ∧
        on.1 = .added groups 0 locations := by
  intro once off on
  obtain ⟨houtcome, halike⟩ := (alike_off h hoff snapshot other).toggleIn snapshot
  -- the styles that were left are those that an attempt without an editor would have given out
  obtain ⟨hsame, groups, locations, honce, hagain⟩ :=
    toggle_supplied snapshot hoff (foundTwice_of_isSome h.stays.isSome_editor)
  have hwindow : ((suppliedFor x snapshot).1.toggleIn snapshot (suppliedFor x snapshot).2).2 =
      once.2 := by
    simp only [suppliedFor, toggleIn, hsame, once]
  rw [hwindow] at halike
  exact ⟨halike, groups, locations, honce, houtcome.trans hagain⟩

/-- The toggles that switch off, each over its own snapshot, and on again over always the same. -/
def cycles (snapshot : Snapshot) (others : List Snapshot) : List Step :=
  others.flatMap fun other => [.toggle other none, .toggle snapshot none]

/-- Any number of cycles comes back to where the first one began. -/
theorem alike_cycles (h : Alone uri policy x) (hoff : x.1.active = false) (snapshot : Snapshot)
    (others : List Snapshot) {y : Session × Window}
    (hy : Alike y (x.1.toggleIn snapshot x.2).2) :
    Alike (run y (cycles snapshot others)) (x.1.toggleIn snapshot x.2).2 := by
  induction others generalizing y with
  | nil => exact hy
  | cons other others ih =>
    have hcycle := ((hy.toggleIn other).2.toggleIn snapshot).2
    exact ih (hcycle.trans (alike_on h hoff snapshot other).1)

/--
After any toggles in one editor that keeps focus, a session that is off is switched on over a snapshot.
Then any number of cycles comes back to the same session, in a window that looks the same. Switched off,
over whatever snapshot, it keeps its styles, has no groups and shows nothing. Switched on again it gives
out no style and is what it was.
-/
theorem periodic_of_run (policy : Policy) (uri : String) (toggles : List (Snapshot × Option Nat))
    (snapshot : Snapshot) :
    let x := run (new policy, Window.withEditor (some uri)) (toggles.map fun t => .toggle t.1 t.2)
    x.1.active = false →
      let once := x.1.toggleIn snapshot x.2
      once.2.1.active = true ∧ ∃ groups locations,
        once.1 = .added groups (x.1.missing snapshot).length locations ∧
        ∀ (others : List Snapshot) (other : Snapshot),
          let later := run once.2 (cycles snapshot others)
          let off := later.1.toggleIn other later.2
          let on := off.2.1.toggleIn snapshot off.2.2
          (later.1 = once.2.1 ∧ later.2.look = once.2.2.look) ∧
          (off.2.1 = { once.2.1 with active := false, groups := .empty } ∧
            off.2.2.styles = once.2.2.styles ∧
            ∃ e, off.2.2.editors = [e] ∧ off.2.2.editor = some e ∧ e.uri = uri ∧ e.visible = []) ∧
          on.1 = .added groups 0 locations ∧ on.2.1 = once.2.1 ∧ on.2.2.look = once.2.2.look := by
  intro x hoff once
  have h : Alone uri policy x := (alone_new uri policy).toggles toggles
  have hon : once = _ := toggleIn_on snapshot hoff h.stays.isSome_editor
  have hactive : once.2.1.active = true := by rw [hon]
  obtain ⟨-, groups, locations, honce, -⟩ := alike_on h hoff snapshot []
  refine ⟨hactive, groups, locations, honce, fun others other => ?_⟩
  intro later off on
  have hlater : Alike later once.2 := alike_cycles h hoff snapshot others ⟨rfl, rfl⟩
  -- so the next toggle switches off, and leaves what an attempt without an editor would have left
  have hoffAlike : Alike off.2 (suppliedFor x snapshot) :=
    (hlater.toggleIn other).2.trans (alike_off h hoff snapshot other)
  have hsession : off.2.1 = { once.2.1 with active := false, groups := .empty } := by
    rw [hoffAlike.1, hon, ← hoff, ← h.fits.idle hoff]
    rfl
  have hstyles : once.2.2.styles = (suppliedFor x snapshot).2.styles := by
    rw [hon, styles_painted]
    rfl
  have hkept : off.2.2.look.styles = (suppliedFor x snapshot).2.look.styles := by
    rw [hoffAlike.2]
  have hblank := (h.stays.suppliedFor snapshot).blank hoff hoffAlike.2
  obtain ⟨honEq, honAlike⟩ := (hlater.toggleIn other).2.toggleIn snapshot
  obtain ⟨hback, groups', locations', honce', hagain⟩ := alike_on h hoff snapshot other
  obtain ⟨rfl, -, rfl⟩ := Outcome.added.inj (honce.symm.trans honce')
  exact ⟨hlater, ⟨hsession, hkept.trans hstyles.symm, hblank⟩, honEq.trans hagain,
    honAlike.trans hback⟩

/-- A toggle that loses the editor, and then one key that was switched on and off. -/
private def onAndOff : List (Snapshot × Option Nat) :=
  [(Snapshot.asking [(1, "red")], some 1), (Snapshot.asking [(1, "1,2,3")], none), ([], none)]

/-- A key that has a style and one that has none, over which a session is switched on three times. -/
theorem periodic_after_switching_off :
    let x := run (new .render, Window.withEditor (some "file:///a.txt"))
      (onAndOff.map fun t => .toggle t.1 t.2)
    let snapshot := Snapshot.asking [(2, "4,5,6"), (3, "1,2,3"), (4, "4,5,6")]
    let once := x.1.toggleIn snapshot x.2
    let later := run once.2 (cycles snapshot [[]])
    let off := later.1.toggleIn snapshot later.2
    let on := off.2.1.toggleIn snapshot off.2.2
    x.1.active = false ∧ x.1.missing snapshot = ["4,5,6"] ∧ once.1 = .added 2 1 3 ∧
      later.1 = once.2.1 ∧ off.2.2.editor.map Editor.visible = some [] ∧ on.1 = .added 2 0 3 ∧
      on.2.2.look = once.2.2.look ∧
      once.2.2.editor.map Editor.visible = some [(2, [.inLine 3]), (3, [.inLine 2, .inLine 4])] := by
  intro x snapshot once later off on
  have hoff : x.1.active = false := by decide
  have honce : once.1 = .added 2 1 3 := by decide
  obtain ⟨-, groups, locations, hadded, hcycle⟩ :=
    periodic_of_run .render "file:///a.txt" onAndOff snapshot hoff
  obtain ⟨⟨hlater, -⟩, ⟨-, -, e, -, he, -, hblank⟩, hon, -, hlook⟩ := hcycle [[]] snapshot
  obtain ⟨rfl, -, rfl⟩ := Outcome.added.inj (honce.symm.trans hadded)
  have hback : on.1 = .added 2 0 3 := by simpa only [on, off, later, once, x] using hon
  have hlook' : on.2.2.look = once.2.2.look := by simpa only [on, off, later, once, x] using hlook
  have hshown : off.2.2.editor.map Editor.visible = some [] := by
    simp only [off, later, once, x, he, Option.map_some, hblank]
  exact ⟨hoff, by decide, honce, hlater, hshown, hback, hlook', by decide⟩

end Session

end ColorMarks
