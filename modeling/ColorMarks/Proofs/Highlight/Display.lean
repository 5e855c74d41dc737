import ColorMarks.Proofs.Highlight.Coats
import ColorMarks.Proofs.Highlight.Consistent
import ColorMarks.Proofs.Highlight.Layout

/-!
# What editors show of a session

Along a run it is noted for each editor what was painted in it since the session was switched off there
(`Coats`), and that is what the editor shows (`shown_of_run`). Switching off clears the focused editor
only, and switching on clears nothing: what was painted in another editor stays there, and is still there
when the session is switched on in it again. So an editor shows what the switch says exactly if nothing
else was painted in it since.
-/

namespace ColorMarks

/-- What was painted in an editor and not cleared, the latest first, and whether the session is on in it. -/
structure Coats where
  groups : List (String × List Location) := []
  home : Bool := false

namespace Coats

/-- The coats after some groups were painted in the focused editor. -/
def painted (groups : List (String × List Location)) (l : Layout Coats) : Layout Coats :=
  { l with focused := l.focused.map fun t => ⟨groups.reverse ++ t.groups, true⟩ }

/-- The coats after the focused editor was cleared. -/
def cleared (l : Layout Coats) : Layout Coats :=
  ⟨l.focused.map fun _ => {}, l.parked.map fun t => { t with home := false }⟩

/-- The coats of a session that has no styles any more. -/
def forgotten (l : Layout Coats) : Layout Coats :=
  ⟨l.focused.map fun _ => {}, l.parked.map fun _ => {}⟩

/-- The coats after a step on a session and its window. Nothing counts for a session that was reset. -/
def after (x : Session × Window) (l : Layout Coats) (a : Session.Step) : Layout Coats :=
  match a with
  | .toggle .. =>
    let s := (Session.act x a).1
    if s.active = x.1.active then l
    else if s.active then painted s.groups.toList l else cleared l
  | .reset => forgotten l
  | .move m => l.move {} m

/-- The coats after some steps. -/
def run (x : Session × Window) (l : Layout Coats) : List Session.Step → Layout Coats
  | [] => l
  | a :: steps => run (Session.act x a) (after x l a) steps

/-- Painting makes the focused editor the one in which a session is on. -/
theorem homes_painted {l : Layout Coats} {t : Coats} (ht : l.focused = some t)
    (h : l.all.countP home = 0) (groups : List (String × List Location)) :
    (painted groups l).all.countP home = 1 := by
  rw [Layout.all, List.countP_append] at h
  rw [painted, Layout.all, List.countP_append, ht, Nat.eq_zero_of_add_eq_zero_right h]
  rfl

theorem homes_cleared (l : Layout Coats) : (cleared l).all.countP home = 0 := by
  rw [Layout.all, cleared, List.countP_append, List.countP_map]
  cases l.focused <;> simp [Function.comp_def]

theorem homes_forgotten (l : Layout Coats) : (forgotten l).all.countP home = 0 := by
  rw [Layout.all, forgotten, List.countP_append, List.countP_map]
  cases l.focused <;> simp [Function.comp_def]

end Coats

namespace Session

/-- Under other keys than these, an editor shows nothing with the styles of a session. -/
def ShowsOnly (s : Session) (keys : List String) (e : Editor) : Prop :=
  ∀ key style, key ∉ keys → s.styles.get? key = some style → e.visible.lookup style.id = none

/--
What an editor shows of a session: the last coat under each key. It shows nothing at all exactly if it has
no coats. If the session is on in it, it shows all groups, and nothing else exactly if the other coats have
keys of the groups.
-/
structure Shown (s : Session) (e : Editor) (t : Coats) : Prop where
  coats : ∀ key style, s.styles.get? key = some style →
    e.visible.lookup style.id = t.groups.lookup key
  blank : s.ShowsOnly [] e ↔ t.groups = []
  groups : t.home = true → ∀ g ∈ s.groups.toList, ∀ style, s.styles.get? g.1 = some style →
    e.visible.lookup style.id = some g.2
  others : s.ShowsOnly s.groups.keys e ↔ ∀ g ∈ t.groups, g.1 ∈ s.groups.keys

/-- An editor with its coats. The editor in which a session is on was coated with all groups. -/
structure Covered (s : Session) (n : Nat) (e : Editor) (t : Coats) : Prop where
  coated : Coated s.styles n e t.groups
  home : t.home = true →
    s.active = true ∧ ∃ older, t.groups = s.groups.toList.reverse ++ older

/-- A session and the editors of its window, all of them covered; in one of them it is on, if it is. -/
structure Displays (s : Session) (policy : Policy) (w : Window) (l : Layout Coats) : Prop where
  fits : s.Fits policy w
  noted : w.Noted (s.Covered w.lastStyle) l
  homes : l.all.countP Coats.home = if s.active then 1 else 0

theorem showsOnly_iff {s : Session} {n : Nat} {e : Editor}
    {groups : List (String × List Location)} (h : Coated s.styles n e groups)
    (keys : List String) : s.ShowsOnly keys e ↔ ∀ g ∈ groups, g.1 ∈ keys := by
  constructor
  · intro honly g hg
    by_contra hkey
    obtain ⟨style, hstyle⟩ := h.known g hg
    have hnone := honly g.1 style hkey hstyle
    rw [h.shows hstyle, List.lookup_eq_none_iff] at hnone
    exact absurd rfl (bne_iff_ne.1 (hnone g hg))
  · intro hkeys key style hkey hstyle
    rw [h.shows hstyle, List.lookup_eq_none_iff]
    intro g hg
    rw [bne_iff_ne]
    rintro rfl
    exact hkey (hkeys g hg)

/-- A group is found under its key before anything older, since no other group has the key. -/
theorem lookup_groups {groups : RangeGroups} {cache : StyleCache} (h : groups.Styled cache)
    {g : String × List Location} (hg : g ∈ groups.toList) (older : List (String × List Location)) :
    (groups.toList.reverse ++ older).lookup g.1 = some g.2 := by
  rw [List.lookup_append]
  cases hfound : groups.toList.reverse.lookup g.1 with
  | none =>
    rw [List.lookup_eq_none_iff] at hfound
    exact absurd rfl (bne_iff_ne.1 (hfound g (List.mem_reverse.2 hg)))
  | some locations =>
    obtain ⟨before, behind, heq, -⟩ := List.lookup_eq_some_iff.1 hfound
    have hmem : (g.1, locations) ∈ groups.toList := by
      rw [← List.mem_reverse, heq]
      simp
    have hsame : some locations = some g.2 := (h _ hmem).2.2.symm.trans (h g hg).2.2
    exact hsame

theorem Covered.shown {s : Session} {policy : Policy} {w : Window} (hs : s.Fits policy w) {n : Nat}
    {e : Editor} {t : Coats} (h : s.Covered n e t) : s.Shown e t where
  coats := fun _ _ hkey => h.coated.shows hkey
  blank := by
    rw [showsOnly_iff h.coated, List.eq_nil_iff_forall_not_mem]
    simp
  groups := by
    intro hhome g hg style hstyle
    obtain ⟨-, older, holder⟩ := h.home hhome
    rw [h.coated.shows hstyle, holder]
    exact lookup_groups hs.styled hg older
  others := showsOnly_iff h.coated _

variable {s : Session} {policy : Policy} {w : Window} {l : Layout Coats}

/-- A session that is off is on in no editor. -/
theorem Covered.of_off {n : Nat} {e : Editor} {t : Coats} (h : s.Covered n e t)
    (hs : s.active = false) {s' : Session} {n' : Nat} (h' : Coated s'.styles n' e t.groups) :
    s'.Covered n' e t :=
  ⟨h', fun hhome => by rw [(h.home hhome).1] at hs; cases hs⟩

/-- Giving out styles changes nothing in the editors. -/
theorem Displays.styled (h : s.Displays policy w l) (hs : s.active = false) {snapshot : Snapshot}
    {cache : StyleCache} {created : Nat} {w' : Window}
    (hstyles : allocate (directives s.policy snapshot) s.styles w = (cache, created, w')) :
    { s with styles := cache }.Displays policy w' l := by
  have hallocated := h.fits.allocated hstyles
  have hfits := h.fits.flip (.styled hs hstyles)
  obtain ⟨styles, last, rfl⟩ := allocate_window hstyles
  have hnoted : Window.Noted (Covered { s with styles := cache } last) w l :=
    h.noted.imp fun e t hcovered => hcovered.of_off hs (hcovered.coated.grow hallocated)
  exact ⟨hfits, ⟨hnoted.focused, hnoted.parked⟩, h.homes⟩

theorem Displays.flip (h : s.Displays policy w l) {snapshot : Snapshot} {s' : Session}
    {w' : Window} (hflip : Flip s w snapshot s' w') :
    s'.Displays policy w' (if s'.active = s.active then l
      else if s'.active then Coats.painted s'.groups.toList l else Coats.cleared l) := by
  have hfits := h.fits.flip hflip
  cases hflip with
  | missed =>
    rw [if_pos rfl]
    exact h
  | styled hs hstyles =>
    rw [if_pos rfl]
    exact h.styled hs hstyles
  | @on cache created w' e hs he hstyles =>
    have hstyled := h.styled hs hstyles
    obtain ⟨styles, last, rfl⟩ := allocate_window hstyles
    obtain ⟨t, ht, hcovered⟩ := hstyled.noted.exists_note he
    rw [painted_eq] at hfits ⊢
    -- a session that is off has no groups whose styles could be cleared before
    have hnone : stylesOf cache s.groups = [] := by
      rw [h.fits.idle hs]
      rfl
    have hpainted := hcovered.coated.paintGroups hfits.sound fun g hg =>
      ⟨(hfits.styled g hg).1, (hfits.styled g hg).2.1⟩
    rw [hs, if_neg (by simp), if_pos rfl]
    refine ⟨hfits, ⟨?_, ?_⟩, ?_⟩
    · rw [Coats.painted, ht, he, hnone]
      exact .cons ⟨hpainted, fun _ => ⟨rfl, t.groups, rfl⟩⟩ .nil
    · -- being off, it was on in no other editor, so a parked editor keeps its coats only
      exact hstyled.noted.parked.imp fun e' t' hparked => hparked.of_off hs hparked.coated
    · have hhomes := h.homes
      rw [hs, if_neg Bool.false_ne_true] at hhomes
      rw [Coats.homes_painted ht hhomes, if_pos rfl]
  | @off e hs he =>
    obtain ⟨t, ht, hcovered⟩ := h.noted.exists_note he
    rw [cleared_eq] at hfits ⊢
    rw [hs, if_neg (by simp), if_neg (by simp)]
    refine ⟨hfits, ⟨?_, ?_⟩, ?_⟩
    · rw [Coats.cleared, ht, he]
      exact .cons ⟨hcovered.coated.clear h.fits.sound, by rintro ⟨⟩⟩ .nil
    · rw [Coats.cleared, List.forall₂_map_right_iff]
      exact h.noted.parked.imp fun e' t' hparked => ⟨hparked.coated, by rintro ⟨⟩⟩
    · rw [Coats.homes_cleared, if_neg Bool.false_ne_true]

theorem Displays.act (h : s.Displays policy w l) (a : Step) :
    (Session.act (s, w) a).1.Displays policy (Session.act (s, w) a).2 (Coats.after (s, w) l a) := by
  cases a with
  | toggle snapshot lookups => exact h.flip (toggle_flip s w snapshot lookups)
  | reset =>
    refine ⟨h.fits.act .reset, ⟨?_, ?_⟩, ?_⟩
    · show List.Forall₂ _ w.editor.toList (l.focused.map fun _ => ({} : Coats)).toList
      rw [Option.toList_map, List.forall₂_map_right_iff]
      exact h.noted.focused.imp fun e t hcovered => ⟨hcovered.coated.of_empty, by rintro ⟨⟩⟩
    · show List.Forall₂ _ w.parked (l.parked.map fun _ => ({} : Coats))
      rw [List.forall₂_map_right_iff]
      exact h.noted.parked.imp fun e t hcovered => ⟨hcovered.coated.of_empty, by rintro ⟨⟩⟩
    · exact Coats.homes_forgotten l
  | move m =>
    refine ⟨h.fits.act (.move m), ?_, ?_⟩
    · show (w.move m).Noted (s.Covered (w.move m).lastStyle) (l.move {} m)
      rw [Window.lastStyle_move]
      refine h.noted.move (fun uri => ⟨Coated.fresh _ _ uri, by rintro ⟨⟩⟩) ?_ m
      intro e t hcovered
      exact ⟨⟨hcovered.coated.shows, hcovered.coated.known, hcovered.coated.numbered⟩, hcovered.home⟩
    · exact (Layout.countP_move (p := Coats.home) rfl l m).trans h.homes

theorem Displays.run (h : s.Displays policy w l) (steps : List Step) :
    (Session.run (s, w) steps).1.Displays policy (Session.run (s, w) steps).2
      (Coats.run (s, w) l steps) := by
  induction steps generalizing s w l with
  | nil => exact h
  | cons a steps ih => exact ih (h.act a)

theorem displays_new (policy : Policy) (uri : Option String) :
    (new policy).Displays policy (Window.withEditor uri) ⟨uri.map fun _ => {}, []⟩ where
  fits := fits_new policy _
  noted := by
    cases uri with
    | none => exact ⟨.nil, .nil⟩
    | some uri => exact ⟨.cons ⟨Coated.fresh _ _ uri, by rintro ⟨⟩⟩ .nil, .nil⟩
  homes := by cases uri <;> rfl

/--
After any steps that begin in a new window, every editor shows of the session what its coats say, and the
session is on in one editor if it is on at all.
-/
theorem shown_of_run (policy : Policy) (uri : Option String) (steps : List Step) :
    let x := Session.run (new policy, Window.withEditor uri) steps
    let l := Coats.run (new policy, Window.withEditor uri) ⟨uri.map fun _ => {}, []⟩ steps
    x.2.Noted x.1.Shown l ∧ l.all.countP Coats.home = if x.1.active then 1 else 0 := by
  intro x l
  have hdisplays := (displays_new policy uri).run steps
  exact ⟨hdisplays.noted.imp fun e t hcovered => hcovered.shown hdisplays.fits, hdisplays.homes⟩

/-- A session that is switched on in one editor and off in another stays painted in the first. -/
theorem painted_after_switching_off :
    let place : Related := ⟨⟨"file:///a.txt", ⟨⟨1, 0⟩, ⟨1, 4⟩⟩⟩, "Color:1,2,3"⟩
    let finding : Diagnostic := ⟨⟨⟨0, 0⟩, ⟨0, 1⟩⟩, none, none, none, "m", [place]⟩
    let snapshot : Snapshot := [("file:///a.txt", [finding])]
    let x := Session.run (new .render, Window.withEditor (some "file:///a.txt"))
      [.toggle snapshot none, .move (.focus "file:///b.txt"), .toggle snapshot none]
    x.1.active = false ∧ ∃ e ∈ x.2.parked, ∃ style, x.1.styles.get? "1,2,3" = some style ∧
      e.visible.lookup style.id = some [place.location] :=
  ⟨by decide, _, List.mem_cons_self, _, rfl, by decide⟩

end Session

end ColorMarks
