import ColorMarks.Command
import ColorMarks.Proofs.Highlight.Coats
import ColorMarks.Proofs.Highlight.Consistent
import ColorMarks.Proofs.Highlight.Editors

/-!
# Commands that share a window

Commands are registered and run in any order in one window, over snapshots that change (`Desk`). The
window never gives out a number twice, so no two commands have a style in common, and running one of them
leaves alone what the others are, did and painted (`apart_of_run`).
-/

namespace ColorMarks

/-- What is visible in each editor under a number. -/
def Window.shown (w : Window) (n : Nat) : List (String × Option (List Location)) :=
  (w.editor.toList ++ w.parked).map fun e => (e.uri, e.visible.lookup n)

/-! ## What painting leaves alone -/

namespace Editor

variable {cache : StyleCache} {n : Nat}

theorem lookup_clearStyles_of_not_uses {styles : List Style}
    (hstyles : ∀ style ∈ styles, ∃ key, cache.get? key = some style) (hn : ¬ cache.Uses n)
    (e : Editor) : (e.clearStyles styles).visible.lookup n = e.visible.lookup n := by
  rw [lookup_clearStyles, if_neg]
  intro hmem
  obtain ⟨style, hstyle, hid⟩ := List.mem_map.1 hmem
  obtain ⟨key, hkey⟩ := hstyles style hstyle
  exact hn ⟨key, style, hkey, hid⟩

end Editor

namespace Session

variable {s s' : Session} {w w' : Window} {snapshot : Snapshot} {n : Nat}

/-- A toggle changes what is visible under its own styles only. -/
theorem Flip.shown (h : Flip s w snapshot s' w') (hn : ¬ s'.styles.Uses n) :
    w'.shown n = w.shown n := by
  have hfocused {f : Editor → Editor} (huri : ∀ e, (f e).uri = e.uri)
      (hlookup : ∀ e, (f e).visible.lookup n = e.visible.lookup n) :
      ((w.editor.map f).toList ++ w.parked).map (fun e => (e.uri, e.visible.lookup n)) =
        w.shown n := by
    rw [Window.shown]
    cases w.editor with
    | none => rfl
    | some e => simp [huri, hlookup]
  cases h with
  | missed => rfl
  | styled hs hstyles =>
    obtain ⟨styles, last, rfl⟩ := allocate_window hstyles
    rfl
  | @on cache created w' e hs he hstyles =>
    obtain ⟨styles, last, rfl⟩ := allocate_window hstyles
    rw [painted_eq]
    refine hfocused ?_ ?_
    · intro e
      rw [Editor.uri_foldl_paintGroup, Editor.uri_clearStyles]
    · intro e
      have hothers : ∀ g ∈ (Grouping.ofSnapshot s.policy snapshot).ranges.toList, ∀ style,
          cache.get? g.1 = some style → style.id ≠ n :=
        fun g _ style hstyle hid => hn ⟨g.1, style, hstyle, hid⟩
      rw [Editor.lookup_foldl_paintGroup_of_ne hothers,
        Editor.lookup_clearStyles_of_not_uses get?_of_mem_stylesOf hn]
  | off hs he =>
    rw [cleared_eq]
    refine hfocused ?_ ?_
    · intro e
      rw [Editor.uri_clearStyles]
    · intro e
      exact Editor.lookup_clearStyles_of_not_uses get?_of_mem_toList hn e

/-- A session fits a window that has given out more since. -/
theorem Fits.later {policy : Policy} (h : s.Fits policy w) (hle : w.lastStyle ≤ w'.lastStyle) :
    s.Fits policy w' where
  keeps := h.keeps
  idle := h.idle
  styled := h.styled
  sound := { h.sound with numbered := fun hkey => Nat.le_trans (h.sound.numbered hkey) hle }

theorem Fits.le_of_uses {policy : Policy} (h : s.Fits policy w) (hn : s.styles.Uses n) :
    n ≤ w.lastStyle := by
  obtain ⟨key, style, hkey, rfl⟩ := hn
  exact h.sound.numbered hkey

/-- The styles that a toggle adds have numbers that were never given out. -/
theorem Fits.uses_flip {policy : Policy} (hfits : s.Fits policy w) (h : Flip s w snapshot s' w') :
    w.lastStyle ≤ w'.lastStyle ∧ ∀ n, s'.styles.Uses n → s.styles.Uses n ∨ w.lastStyle < n := by
  cases h with
  | missed => exact ⟨Nat.le_refl _, fun n hn => .inl hn⟩
  | styled hs hstyles =>
    have hallocated := hfits.allocated hstyles
    exact ⟨hallocated.le, fun n hn => hallocated.uses hn⟩
  | on hs he hstyles =>
    have hallocated := hfits.allocated hstyles
    rw [lastStyle_painted]
    exact ⟨hallocated.le, fun n hn => hallocated.uses hn⟩
  | off hs he =>
    rw [lastStyle_cleared]
    exact ⟨Nat.le_refl _, fun n hn => .inl hn⟩

end Session

/-! ## Registered commands -/

theorem ToggleCommand.run_flip (c : ToggleCommand) (snapshot : Snapshot) (w : Window) :
    Session.Flip c.session w snapshot (c.run snapshot w).1.session (c.run snapshot w).2 :=
  Session.toggle_flip c.session w snapshot none

namespace Registry

theorem get?_set_of_ne {id other : String} (hne : other ≠ id) (r : Registry) (c : ToggleCommand) :
    (r.set id c).get? other = r.get? other := by
  obtain ⟨commands⟩ := r
  unfold get? set
  induction commands with
  | nil => rfl
  | cons e commands ih =>
    obtain ⟨name, old⟩ := e
    by_cases hname : name = id
    · subst hname
      have hother : (other == name) = false := by simpa using hne
      simpa [List.lookup_cons, hother] using ih
    · simp only [List.map_cons, if_neg hname, List.lookup_cons, ih]

theorem get?_set_self {id : String} {r : Registry} {old : ToggleCommand} (h : r.get? id = some old)
    (c : ToggleCommand) : (r.set id c).get? id = some c := by
  obtain ⟨commands⟩ := r
  unfold get? at h
  unfold get? set
  induction commands with
  | nil => cases h
  | cons e commands ih =>
    obtain ⟨name, d⟩ := e
    by_cases hname : name = id
    · simp [hname]
    · have hother : (id == name) = false := by simpa using Ne.symm hname
      simp only [List.lookup_cons, hother] at h
      simpa [hname, List.lookup_cons, hother] using ih h

/-- A new command is found under its name, and all others are found as before. -/
theorem get?_register {r r' : Registry} {id : String} {c : ToggleCommand}
    (h : r.register id c = .ok r') (k : String) :
    r'.get? k = if k = id then some c else r.get? k := by
  unfold register at h
  split at h
  · cases h
  · rename_i hfree
    have hnone : r.get? id = none := by simpa [contains] using hfree
    cases h
    rw [get?, List.lookup_append]
    by_cases hk : k = id
    · subst hk
      rw [if_pos rfl, show r.commands.lookup k = none from hnone]
      simp
    · have hother : (k == id) = false := by simpa using hk
      rw [if_neg hk, get?]
      simp [List.lookup_cons, hother]

theorem execute_of_get? {r : Registry} {id : String} {c : ToggleCommand}
    (h : r.get? id = some c) (snapshot : Snapshot) (w : Window) :
    r.execute id snapshot w = .ok (r.set id (c.run snapshot w).1, (c.run snapshot w).2) := by
  rw [execute, h]

end Registry

/-! ## Runs -/

/-- Commands with the window that they share and the snapshot that they are run over. -/
structure Desk where
  registry : Registry := .empty
  window : Window
  snapshot : Snapshot := []

namespace Desk

/-- Something that is done with commands, window or snapshot. -/
inductive Step where
  | register (id : String) (policy : Policy)
  | execute (id : String)
  | documents (snapshot : Snapshot)
  | move (m : Window.Move)

/-- Everything after a step, and the answer. -/
def act (d : Desk) : Step → Desk × Except CommandError Unit
  | .register id policy =>
    match d.registry.register id (.new policy) with
    | .ok r => ({ d with registry := r }, .ok ())
    | .error e => (d, .error e)
  | .execute id =>
    match d.registry.execute id d.snapshot d.window with
    | .ok (r, w) => ({ d with registry := r, window := w }, .ok ())
    | .error e => (d, .error e)
  | .documents snapshot => ({ d with snapshot := snapshot }, .ok ())
  | .move m => ({ d with window := d.window.move m }, .ok ())

/-- Everything after some steps. -/
def run (d : Desk) (steps : List Step) : Desk := steps.foldl (fun d a => (d.act a).1) d

theorem act_register_of_contains {d : Desk} {id : String} (h : d.registry.contains id = true)
    (policy : Policy) : d.act (.register id policy) = (d, .error (.alreadyRegistered id)) := by
  rw [act, Registry.register, if_pos h]

theorem act_execute_of_not_contains {d : Desk} {id : String}
    (h : d.registry.contains id = false) : d.act (.execute id) = (d, .error (.unknown id)) := by
  have hnone : d.registry.get? id = none := by simpa [Registry.contains] using h
  rw [act, Registry.execute, hnone]

theorem act_execute_of_get? {d : Desk} {id : String} {c : ToggleCommand}
    (h : d.registry.get? id = some c) :
    d.act (.execute id) =
      ({ d with
        registry := d.registry.set id (c.run d.snapshot d.window).1
        window := (c.run d.snapshot d.window).2 }, .ok ()) := by
  rw [act, Registry.execute_of_get? h]

/-- Every session fits the window, and no two of them have a style in common. -/
structure Apart (d : Desk) : Prop where
  fits : ∀ {id c}, d.registry.get? id = some c → ∃ policy, c.session.Fits policy d.window
  apart : ∀ {id id' c c'}, id ≠ id' → d.registry.get? id = some c →
    d.registry.get? id' = some c' → ∀ {n}, c.session.styles.Uses n → ¬ c'.session.styles.Uses n

theorem apart_empty (w : Window) (snapshot : Snapshot) : Apart ⟨.empty, w, snapshot⟩ where
  fits := by rintro _ _ ⟨⟩
  apart := by rintro _ _ _ _ _ ⟨⟩

variable {d : Desk}

/-- A new command has no styles yet. -/
theorem Apart.register (h : d.Apart) {id : String} {policy : Policy} {r : Registry}
    (hr : d.registry.register id (.new policy) = .ok r) :
    Apart { d with registry := r } := by
  have hcases {k : String} {c : ToggleCommand} (hk : r.get? k = some c) :
      c = .new policy ∨ d.registry.get? k = some c := by
    rw [Registry.get?_register hr] at hk
    split at hk
    · exact .inl (Option.some.inj hk).symm
    · exact .inr hk
  refine ⟨?_, ?_⟩
  · intro k c hk
    rcases hcases hk with rfl | hold
    · exact ⟨policy, Session.fits_new policy d.window⟩
    · exact h.fits hold
  · intro k k' c c' hne hk hk' n hn hn'
    rcases hcases hk with rfl | hold
    · exact StyleCache.not_uses_empty n hn
    · rcases hcases hk' with rfl | hold'
      · exact StyleCache.not_uses_empty n hn'
      · exact h.apart hne hold hold' hn hn'

/-- The styles that a command adds belong to no other one. -/
theorem Apart.execute (h : d.Apart) {id : String} {c : ToggleCommand}
    (hc : d.registry.get? id = some c) :
    Apart { d with
      registry := d.registry.set id (c.run d.snapshot d.window).1
      window := (c.run d.snapshot d.window).2 } := by
  obtain ⟨policy, hfits⟩ := h.fits hc
  have hflip := c.run_flip d.snapshot d.window
  obtain ⟨hle, huses⟩ := hfits.uses_flip hflip
  have hset {k : String} {c₁ : ToggleCommand}
      (hk : (d.registry.set id (c.run d.snapshot d.window).1).get? k = some c₁) :
      k = id ∧ c₁ = (c.run d.snapshot d.window).1 ∨ k ≠ id ∧ d.registry.get? k = some c₁ := by
    by_cases hid : k = id
    · subst hid
      rw [Registry.get?_set_self hc] at hk
      exact .inl ⟨rfl, (Option.some.inj hk).symm⟩
    · rw [Registry.get?_set_of_ne hid] at hk
      exact .inr ⟨hid, hk⟩
  -- what the command has now is not used by another one, whichever of the two comes first
  have hother {k : String} {c₁ : ToggleCommand} (hne : k ≠ id) (hk : d.registry.get? k = some c₁)
      {n : Nat} (hn : (c.run d.snapshot d.window).1.session.styles.Uses n) :
      ¬ c₁.session.styles.Uses n := by
    intro hn₁
    rcases huses n hn with hold | hnew
    · exact h.apart hne.symm hc hk hold hn₁
    · obtain ⟨policy₁, hfits₁⟩ := h.fits hk
      exact absurd (hfits₁.le_of_uses hn₁) (Nat.not_le.2 hnew)
  refine ⟨?_, ?_⟩
  · intro k c₁ hk
    rcases hset hk with ⟨rfl, rfl⟩ | ⟨-, hold⟩
    · exact ⟨policy, hfits.flip hflip⟩
    · obtain ⟨policy₁, hfits₁⟩ := h.fits hold
      exact ⟨policy₁, hfits₁.later hle⟩
  · intro k k' c₁ c₂ hne hk hk' n hn hn'
    rcases hset hk with ⟨rfl, rfl⟩ | ⟨hid, hold⟩
    · rcases hset hk' with ⟨rfl, -⟩ | ⟨hid', hold'⟩
      · exact hne rfl
      · exact hother hid' hold' hn hn'
    · rcases hset hk' with ⟨rfl, rfl⟩ | ⟨hid', hold'⟩
      · exact hother hid hold hn' hn
      · exact h.apart hne hold hold' hn hn'

theorem Apart.act (h : d.Apart) (a : Step) : (d.act a).1.Apart := by
  cases a with
  | register id policy =>
    rw [Desk.act]
    cases hr : d.registry.register id (.new policy) with
    | ok r => exact h.register hr
    | error e => exact h
  | execute id =>
    cases hc : d.registry.get? id with
    | none =>
      rw [act_execute_of_not_contains (by rw [Registry.contains, hc]; rfl)]
      exact h
    | some c =>
      rw [act_execute_of_get? hc]
      exact h.execute hc
  | documents snapshot => exact ⟨h.fits, h.apart⟩
  | move m =>
    refine ⟨?_, h.apart⟩
    intro id c hc
    obtain ⟨policy, hfits⟩ := h.fits hc
    exact ⟨policy, hfits.later (Nat.le_of_eq (d.window.lastStyle_move m).symm)⟩

theorem Apart.run (h : d.Apart) (steps : List Step) : (d.run steps).Apart := by
  induction steps generalizing d with
  | nil => exact h
  | cons a steps ih => exact ih (h.act a)

/-- Running a command leaves all others alone, and what is visible of their styles. -/
theorem Apart.others (h : d.Apart) (id : String) {other : String} (hne : other ≠ id) :
    (d.act (.execute id)).1.registry.get? other = d.registry.get? other ∧
      ∀ c, d.registry.get? other = some c → ∀ n, c.session.styles.Uses n →
        (d.act (.execute id)).1.window.shown n = d.window.shown n := by
  cases hc : d.registry.get? id with
  | none =>
    rw [act_execute_of_not_contains (by rw [Registry.contains, hc]; rfl)]
    exact ⟨rfl, fun _ _ _ _ => rfl⟩
  | some c =>
    have hapart := h.act (.execute id)
    rw [act_execute_of_get? hc] at hapart ⊢
    refine ⟨Registry.get?_set_of_ne hne _ _, ?_⟩
    intro c₁ hk n hn
    have hk' := (Registry.get?_set_of_ne hne d.registry (c.run d.snapshot d.window).1).trans hk
    exact (c.run_flip d.snapshot d.window).shown
      (hapart.apart hne hk' (Registry.get?_set_self hc _) hn)

/--
After any steps, no two commands have a style in common, and whichever command is run then, the others
stay what they are, and so does all that is visible of their styles. A name that is taken is not taken
again, a name that is unknown is not run, and nothing changes then.
-/
theorem apart_of_run (w : Window) (snapshot : Snapshot) (steps : List Step) :
    let d := run ⟨.empty, w, snapshot⟩ steps
    (∀ id id' c c', id ≠ id' → d.registry.get? id = some c → d.registry.get? id' = some c' →
        ∀ n, c.session.styles.Uses n → ¬ c'.session.styles.Uses n) ∧
      (∀ id other, other ≠ id →
        (d.act (.execute id)).1.registry.get? other = d.registry.get? other ∧
          ∀ c, d.registry.get? other = some c → ∀ n, c.session.styles.Uses n →
            (d.act (.execute id)).1.window.shown n = d.window.shown n) ∧
      (∀ id policy, if d.registry.contains id = true
        then d.act (.register id policy) = (d, .error (.alreadyRegistered id))
        else (d.act (.register id policy)).2 = .ok ()) ∧
      ∀ id, if d.registry.contains id = true
        then (d.act (.execute id)).2 = .ok ()
        else d.act (.execute id) = (d, .error (.unknown id)) := by
  intro d
  have hapart : d.Apart := (apart_empty w snapshot).run steps
  refine ⟨?_, ?_, ?_, ?_⟩
  · intro id id' c c' hne hc hc' n hn
    exact hapart.apart hne hc hc' hn
  · intro id other hne
    exact hapart.others id hne
  · intro id policy
    split
    · rename_i htaken
      exact act_register_of_contains htaken policy
    · rename_i hfree
      rw [act, Registry.register, if_neg hfree]
  · intro id
    split
    · rename_i hknown
      obtain ⟨c, hc⟩ := Option.isSome_iff_exists.1 hknown
      rw [act_execute_of_get? hc]
    · rename_i hunknown
      exact act_execute_of_not_contains (Bool.not_eq_true _ ▸ hunknown)

/-- Two commands paint the same place, each with a style of its own, and one of them is switched off. -/
theorem apart_of_two_commands :
    let place : Related := ⟨⟨"file:///a.txt", ⟨⟨1, 0⟩, ⟨1, 4⟩⟩⟩, "Color:1,2,3"⟩
    let finding : Diagnostic := ⟨⟨⟨0, 0⟩, ⟨0, 1⟩⟩, none, none, none, "m", [place]⟩
    let d := run ⟨.empty, Window.withEditor (some "file:///a.txt"), []⟩
      [.register "first" .render, .register "second" .skip,
        .documents [("file:///a.txt", [finding])], .execute "first", .execute "second"]
    ((d.registry.get? "second").bind fun c => c.session.styles.get? "1,2,3") =
        some ⟨2, ⟨.rgba ⟨1, 2, 3⟩⟩⟩ ∧
      (d.act (.execute "first")).1.window.shown 1 = [("file:///a.txt", none)] ∧
      d.window.shown 2 = [("file:///a.txt", some [place.location])] ∧
      (d.act (.execute "first")).1.registry.get? "second" = d.registry.get? "second" ∧
      ∀ c, d.registry.get? "second" = some c → ∀ n, c.session.styles.Uses n →
        (d.act (.execute "first")).1.window.shown n = d.window.shown n :=
  ⟨by decide, by decide, by decide, (apart_of_run _ _ _).2.1 "first" "second" (by decide)⟩

end Desk

end ColorMarks
