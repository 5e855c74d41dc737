import ColorMarks.Proofs.Highlight.Allocation
import ColorMarks.Proofs.Highlight.Grouping
import ColorMarks.Proofs.Highlight.Run

/-!
# What holds of a session at any time

Whatever is done with a session, in whatever window, its switch, its groups and its styles fit together
(`consistent_run`). A toggle that loses the editor halfway leaves styles behind that no group uses, and
nothing else.
-/

namespace ColorMarks

/-- Every group has locations, a style for its key, and is found under its key. -/
def RangeGroups.Styled (groups : RangeGroups) (cache : StyleCache) : Prop :=
  ∀ g ∈ groups.toList, (∃ style, cache.get? g.1 = some style) ∧ g.2 ≠ [] ∧
    groups.get? g.1 = some g.2

theorem RangeGroups.styled_empty (cache : StyleCache) : RangeGroups.empty.Styled cache := by
  rintro g ⟨⟩

/-- A color that is resolved is not left unresolved. -/
theorem Directive.fill_ne_unresolved {d : Directive} (h : d.admitted .skip = true) (raw : String) :
    d.fill ≠ .unresolved raw := by
  cases d with
  | parsed => simp [fill]
  | unparsed => simp [admitted, isParsed] at h

namespace Session

/--
The parts of a session fit together: without being on it has no groups, every group has locations and a
style, every key that is listed has exactly one style, and the fill of a style is the one that the key
alone asks for.
-/
structure Consistent (s : Session) (policy : Policy) : Prop where
  keeps : s.policy = policy
  idle : s.active = false → s.groups = .empty
  styled : s.groups.Styled s.styles
  nodup : s.styles.order.Nodup
  listed : (s.styles.styles.map Prod.fst).Perm s.styles.order
  fill : ∀ key style, s.styles.get? key = some style →
    ∃ d, Directive.ofMessage? ("Color:" ++ key) = some d ∧ style.options.background = d.fill
  resolved : policy = .skip → ∀ key style, s.styles.get? key = some style →
    ∀ raw, style.options.background ≠ .unresolved raw

/-- A session in a window that gave out all of its styles. -/
structure Fits (s : Session) (policy : Policy) (w : Window) : Prop where
  keeps : s.policy = policy
  idle : s.active = false → s.groups = .empty
  styled : s.groups.Styled s.styles
  sound : s.styles.Sound policy w.lastStyle

theorem Fits.consistent {s : Session} {policy : Policy} {w : Window} (h : s.Fits policy w) :
    s.Consistent policy where
  keeps := h.keeps
  idle := h.idle
  styled := h.styled
  nodup := h.sound.nodup
  listed := h.sound.listed
  fill := fun key style hkey =>
    ⟨.ofKey key, Directive.ofMessage?_eq_some_iff.2 ⟨key, rfl, rfl⟩, h.sound.fill hkey⟩
  resolved := by
    intro hpolicy key style hkey raw
    have hadmitted := h.sound.admitted hkey
    rw [hpolicy] at hadmitted
    rw [h.sound.fill hkey]
    exact Directive.fill_ne_unresolved hadmitted raw

theorem fits_new (policy : Policy) (w : Window) : (new policy).Fits policy w where
  keeps := rfl
  idle := fun _ => rfl
  styled := RangeGroups.styled_empty _
  sound := StyleCache.sound_empty policy _

/-- The directives of a snapshot are those of the keys that were gathered. -/
theorem directives_eq {policy : Policy} {snapshot : Snapshot} {keys : List String}
    (h : (Grouping.ofSnapshot policy snapshot).Gathers (Grouping.marks policy snapshot) keys) :
    directives policy snapshot = keys.map Directive.ofKey := by
  rw [directives, h.toList_eq, List.map_map]
  rfl

/-- Every directive of a snapshot is that of its key, and the policy lets it through. -/
theorem ofKey_of_mem_directives {policy : Policy} {snapshot : Snapshot} {d : Directive}
    (hd : d ∈ directives policy snapshot) : d = .ofKey d.key ∧ d.admitted policy = true := by
  obtain ⟨keys, hgathers⟩ := Grouping.gathers_ofSnapshot policy snapshot
  rw [directives_eq hgathers] at hd
  obtain ⟨key, hkey, rfl⟩ := List.mem_map.1 hd
  have hmarks := (hgathers.mem key).1 hkey
  exact ⟨by rw [Directive.key_ofKey], (Grouping.exists_marks_key_iff.1 hmarks).2⟩

/-- The groups of a snapshot have styles as soon as its directives have. -/
theorem styled_ranges {policy : Policy} {snapshot : Snapshot} {cache : StyleCache}
    (h : ∀ d ∈ directives policy snapshot, ∃ style, cache.get? d.key = some style) :
    (Grouping.ofSnapshot policy snapshot).ranges.Styled cache := by
  obtain ⟨keys, hgathers⟩ := Grouping.gathers_ofSnapshot policy snapshot
  rw [directives_eq hgathers] at h
  intro g hg
  rw [RangeGroups.toList, hgathers.groups] at hg
  obtain ⟨key, hkey, rfl⟩ := List.mem_map.1 hg
  have hstyle := h (.ofKey key) (List.mem_map_of_mem hkey)
  rw [Directive.key_ofKey] at hstyle
  exact ⟨hstyle, hgathers.locationsOf_ne_nil hkey, hgathers.get?_ranges hkey⟩

variable {s : Session} {policy : Policy} {w : Window}

/-- The styles for a snapshot are given out soundly. -/
theorem Fits.allocated (h : s.Fits policy w) {snapshot : Snapshot} {cache : StyleCache} {n : Nat}
    {w' : Window}
    (hstyles : allocate (directives s.policy snapshot) s.styles w = (cache, n, w')) :
    Allocated policy (directives policy snapshot) s.styles w.lastStyle cache w'.lastStyle := by
  rw [h.keeps] at hstyles
  exact allocated_allocate h.sound (fun _ hd => ofKey_of_mem_directives hd) hstyles

/-- However a toggle ends, session and window still fit. -/
theorem Fits.flip (h : s.Fits policy w) {snapshot : Snapshot} {s' : Session} {w' : Window}
    (hflip : Flip s w snapshot s' w') : s'.Fits policy w' := by
  cases hflip with
  | missed => exact h
  | styled hs hstyles =>
    refine ⟨h.keeps, h.idle, ?_, (h.allocated hstyles).sound⟩
    show s.groups.Styled _
    rw [h.idle hs]
    exact RangeGroups.styled_empty _
  | on hs he hstyles =>
    have hallocated := h.allocated hstyles
    refine ⟨h.keeps, by rintro ⟨⟩, ?_, ?_⟩
    · rw [h.keeps]
      exact styled_ranges hallocated.found
    · rw [painted_eq]
      exact hallocated.sound
  | off hs he =>
    refine ⟨h.keeps, fun _ => rfl, RangeGroups.styled_empty _, ?_⟩
    rw [cleared_eq]
    exact h.sound

theorem Fits.act (h : s.Fits policy w) (a : Step) :
    (Session.act (s, w) a).1.Fits policy (Session.act (s, w) a).2 := by
  cases a with
  | toggle snapshot lookups => exact h.flip (toggle_flip s w snapshot lookups)
  | reset =>
    rw [← h.keeps]
    exact fits_new s.policy w
  | move m => exact ⟨h.keeps, h.idle, h.styled, by simpa [Session.act] using h.sound⟩

theorem Fits.run (h : s.Fits policy w) (steps : List Step) :
    (Session.run (s, w) steps).1.Fits policy (Session.run (s, w) steps).2 := by
  induction steps generalizing s w with
  | nil => exact h
  | cons a steps ih => exact ih (h.act a)

/-- At any time the parts of a session fit together. -/
theorem consistent_run (policy : Policy) (w : Window) (steps : List Step) :
    (Session.run (new policy, w) steps).1.Consistent policy :=
  ((fits_new policy w).run steps).consistent

end Session

end ColorMarks
