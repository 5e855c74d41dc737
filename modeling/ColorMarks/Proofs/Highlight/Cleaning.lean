import ColorMarks.Proofs.Highlight.Switching

/-!
# Painted editors can be cleaned

As long as a session is not reset, no editor of its window shows a style that the session does not have
(`within_run`): what was painted in an editor stays there when the session is switched off in another one,
but its styles stay too. So switching off leaves nothing visible in the editor that is focused then
(`cleaned_of_run`).
-/

namespace ColorMarks

/-- Only styles of a cache are visible in an editor. -/
def Editor.Within (e : Editor) (cache : StyleCache) : Prop := ∀ v ∈ e.visible, cache.Uses v.1

namespace Editor

variable {e : Editor} {cache cache' : StyleCache}

theorem within_new (uri : String) (cache : StyleCache) : (new uri).Within cache := by
  rintro v ⟨⟩

theorem Within.kept (h : e.Within cache)
    (hkept : ∀ {key style}, cache.get? key = some style → cache'.get? key = some style) :
    e.Within cache' := by
  intro v hv
  obtain ⟨key, style, hkey, hid⟩ := h v hv
  exact ⟨key, style, hkept hkey, hid⟩

/-- Clearing all styles of a cache leaves nothing, if nothing else was visible. -/
theorem Within.visible_clearStyles {policy : Policy} {n : Nat} (h : e.Within cache)
    (hcache : cache.Sound policy n) :
    (e.clearStyles (cache.toList.map Prod.snd)).visible = [] := by
  refine visible_clearStyles_eq_nil fun v hv => ?_
  obtain ⟨key, style, hkey, hid⟩ := h v hv
  rw [← hid]
  exact List.mem_map_of_mem (List.mem_map_of_mem (hcache.mem_toList hkey))

end Editor

namespace Session

theorem keptBy_within (cache : StyleCache) : KeptBy cache fun e => e.Within cache := by
  intro key style hkey e ranges he v hv
  rcases Editor.mem_visible_paint hv with hnew | hold
  · exact ⟨key, style, hkey, hnew.symm⟩
  · exact he v hold

variable {s s' : Session} {policy : Policy} {w w' : Window} {snapshot : Snapshot}

/-- A toggle takes no style away from its key. -/
theorem Fits.kept_flip (h : s.Fits policy w) (hflip : Flip s w snapshot s' w') {key : String}
    {style : Style} (hkey : s.styles.get? key = some style) :
    s'.styles.get? key = some style := by
  cases hflip with
  | missed => exact hkey
  | styled hs hstyles => exact (h.allocated hstyles).kept hkey
  | on hs he hstyles => exact (h.allocated hstyles).kept hkey
  | off hs he => exact hkey

theorem within_flip (hfits : s.Fits policy w) (h : ∀ e ∈ w.editors, e.Within s.styles)
    (hflip : Flip s w snapshot s' w') : ∀ e ∈ w'.editors, e.Within s'.styles :=
  hflip.forall_editors (keptBy_within s'.styles) fun e he => (h e he).kept (hfits.kept_flip hflip)

theorem within_act (hfits : s.Fits policy w) (h : ∀ e ∈ w.editors, e.Within s.styles) {a : Step}
    (ha : a ≠ .reset) : ∀ e ∈ (act (s, w) a).2.editors, e.Within (act (s, w) a).1.styles := by
  cases a with
  | toggle snapshot lookups => exact within_flip hfits h (toggle_flip s w snapshot lookups)
  | reset => exact absurd rfl ha
  | move m =>
    exact Window.forall_editors_move (fun uri => Editor.within_new uri s.styles)
      (fun _ he => he) h m

/-- What is visible in any editor has a style of the session. -/
theorem within_run (hfits : s.Fits policy w) (h : ∀ e ∈ w.editors, e.Within s.styles)
    {steps : List Step} (hreset : .reset ∉ steps) :
    ∀ e ∈ (run (s, w) steps).2.editors, e.Within (run (s, w) steps).1.styles := by
  induction steps generalizing s w with
  | nil => exact h
  | cons a steps ih =>
    have hstep := within_act hfits h (Ne.symm (List.ne_of_not_mem_cons hreset))
    exact ih (hfits.act a) hstep (List.not_mem_of_not_mem_cons hreset)

theorem within_withEditor (policy : Policy) (uri : Option String) :
    ∀ e ∈ (Window.withEditor uri).editors, e.Within (new policy).styles := by
  intro e he
  obtain ⟨uri', rfl⟩ := Window.eq_new_of_mem_editors he
  exact Editor.within_new uri' _

/-- Switching off clears each style of the session once, in the focused editor, and nothing else changes. -/
theorem Fits.toggle_off (h : s.Fits policy w) (hs : s.active = true) {e : Editor}
    (he : w.editor = some e) (hwithin : e.Within s.styles) (snapshot : Snapshot)
    {lookups : Option Nat} (hv : View.FoundTwice ⟨w, lookups⟩) :
    let y := s.toggle snapshot ⟨w, lookups⟩
    y.1 = .removed s.styles.toList.length ∧
      y.2.1 = { s with active := false, groups := .empty } ∧
      y.2.2.window = { w with
        editor := some { e with
          calls := e.calls ++ s.styles.toList.map fun entry => ⟨entry.2.id, []⟩
          visible := [] }
        notices := w.notices ++ ["Removed highlight!"] } := by
  intro y
  have hy : y = _ := Session.toggle_off snapshot hs hv
  have hsize : s.styles.size = s.styles.toList.length := by
    rw [← List.length_map (f := Prod.fst), h.sound.keys_toList, StyleCache.size]
  have hcleared : e.clearStyles (s.styles.toList.map Prod.snd) = { e with
      calls := e.calls ++ s.styles.toList.map fun entry => ⟨entry.2.id, []⟩
      visible := [] } := by
    rw [← hwithin.visible_clearStyles h.sound, Editor.clearStyles_eq, List.map_map]
    rfl
  rw [hy, hsize]
  refine ⟨rfl, rfl, ?_⟩
  rw [cleared_eq, he, Option.map_some, hcleared]
  rfl

/--
After any steps without a reset, all editors show styles of the session only. Switching off then makes
one call for each of its styles, in the order in which the window gave them out, and leaves nothing
visible in the focused editor. The other editors stay as they are.
-/
theorem cleaned_of_run (policy : Policy) (uri : Option String) {steps : List Step}
    (hreset : .reset ∉ steps) :
    let x := run (new policy, Window.withEditor uri) steps
    (∀ e ∈ x.2.editors, e.Within x.1.styles) ∧
      x.1.styles.toList.map Prod.snd = x.2.styles ∧
      ∀ e snapshot lookups, x.1.active = true → x.2.editor = some e →
        View.FoundTwice ⟨x.2, lookups⟩ →
        let y := x.1.toggle snapshot ⟨x.2, lookups⟩
        y.1 = .removed x.1.styles.toList.length ∧
          y.2.1 = { x.1 with active := false, groups := .empty } ∧
          y.2.2.window = { x.2 with
            editor := some { e with
              calls := e.calls ++ x.1.styles.toList.map fun entry => ⟨entry.2.id, []⟩
              visible := [] }
            notices := x.2.notices ++ ["Removed highlight!"] } := by
  intro x
  have hnew := fits_new policy (Window.withEditor uri)
  have hwithin := within_run hnew (within_withEditor policy uri) hreset
  obtain ⟨howns, -⟩ := owns_run hnew (StyleCache.owns_empty uri) hreset
  refine ⟨hwithin, howns.styles.symm, ?_⟩
  intro e snapshot lookups hactive he hfound
  exact (hnew.run steps).toggle_off hactive he (hwithin e (Window.mem_editors_of_focused he))
    snapshot hfound

/-- Painted in one editor and switched off in another, painted there again, and back in the first. -/
private def twoCycles : List Step :=
  [.toggle (Snapshot.asking [(1, "1,2,3"), (2, "red")]) none, .move (.focus "file:///b.txt"),
    .toggle [] none, .toggle (Snapshot.asking [(3, "4,5,6"), (4, "7,8,9")]) (some 1),
    .toggle (Snapshot.asking [(3, "4,5,6")]) none, .move .clearCalls, .move (.refocus 0)]

/-- What was painted in the first cycle is cleared at the end of the second. -/
theorem cleaned_of_two_cycles :
    let x := run (new .render, Window.withEditor (some "file:///a.txt")) twoCycles
    let y := x.1.toggle [] ⟨x.2, none⟩
    .reset ∉ twoCycles ∧ ∃ e e', x.1.active = true ∧ x.2.editor = some e ∧
      View.FoundTwice ⟨x.2, none⟩ ∧ e.visible = [(1, [.inLine 1]), (2, [.inLine 2])] ∧
      (∀ e ∈ x.2.editors, e.Within x.1.styles) ∧ y.1 = .removed 4 ∧
      y.2.2.window.editor = some e' ∧ e'.visible = [] ∧
      e'.calls.map PaintCall.style = e.calls.map PaintCall.style ++ [1, 2, 3, 4] := by
  intro x y
  have hreset : Step.reset ∉ twoCycles := by simp [twoCycles]
  have hactive : x.1.active = true := by decide
  have hfound : View.FoundTwice ⟨x.2, none⟩ := by decide
  have hbefore : x.2.editor.map Editor.visible = some [(1, [.inLine 1]), (2, [.inLine 2])] := by
    decide
  have hstyles : x.1.styles.toList.map (fun entry => entry.2.id) = [1, 2, 3, 4] := by decide
  obtain ⟨e, he, hvisible⟩ := Option.map_eq_some_iff.1 hbefore
  obtain ⟨hwithin, -, hclean⟩ := cleaned_of_run .render (some "file:///a.txt") hreset
  obtain ⟨houtcome, -, hwindow⟩ := hclean e [] none hactive he hfound
  have hlength := congrArg List.length hstyles
  rw [List.length_map] at hlength
  refine ⟨hreset, e, _, hactive, he, hfound, hvisible, hwithin, ?_,
    congrArg Window.editor hwindow, rfl, ?_⟩
  · exact houtcome.trans (congrArg Outcome.removed hlength)
  · rw [List.map_append, List.map_map]
    exact congrArg _ hstyles

end Session

end ColorMarks
