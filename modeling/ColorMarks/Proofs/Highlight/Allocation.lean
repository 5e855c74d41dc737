import ColorMarks.Highlight.Session
import ColorMarks.Proofs.Highlight.StyleCache
import Mathlib.Data.List.Basic
import Mathlib.Data.List.Perm.Basic

/-!
# Giving out styles

A cache is sound if every key that it lists has exactly one style, with the fill of the key and a number
of its own. Giving out the styles that are missing keeps a cache sound, and it keeps the styles that
were there before.
-/

namespace ColorMarks

namespace StyleCache

/--
One style for each key that is listed: with the fill of the key, for a key that the policy admits, and
under a number of its own up to `n`.
-/
structure Sound (policy : Policy) (n : Nat) (c : StyleCache) : Prop where
  nodup : c.order.Nodup
  listed : (c.styles.map Prod.fst).Perm c.order
  fill : ∀ {key style}, c.get? key = some style →
    style.options.background = (Directive.ofKey key).fill
  admitted : ∀ {key style}, c.get? key = some style →
    (Directive.ofKey key).admitted policy = true
  numbered : ∀ {key style}, c.get? key = some style → style.id ≤ n
  distinct : ∀ {key key' style style'}, c.get? key = some style → c.get? key' = some style' →
    style.id = style'.id → key = key'

theorem sound_empty (policy : Policy) (n : Nat) : Sound policy n .empty where
  nodup := List.nodup_nil
  listed := .nil
  fill := by rintro _ _ ⟨⟩
  admitted := by rintro _ _ ⟨⟩
  numbered := by rintro _ _ ⟨⟩
  distinct := by rintro _ _ _ _ ⟨⟩

/-- The number belongs to a style of the cache. -/
def Uses (cache : StyleCache) (n : Nat) : Prop :=
  ∃ key style, cache.get? key = some style ∧ style.id = n

theorem not_uses_empty (n : Nat) : ¬ Uses .empty n := by
  rintro ⟨key, style, ⟨⟩, -⟩

variable {policy : Policy} {n : Nat} {c : StyleCache}

/-- The keys that are listed are those that have a style. -/
theorem Sound.mem_order_iff (h : Sound policy n c) {key : String} :
    key ∈ c.order ↔ (c.get? key).isSome = true := by
  rw [isSome_get?_iff, h.listed.mem_iff]

/-- A style that a key has is listed with it. -/
theorem Sound.mem_toList (h : Sound policy n c) {key : String} {style : Style}
    (hkey : c.get? key = some style) : (key, style) ∈ c.toList := by
  have hlisted : key ∈ c.order := h.mem_order_iff.2 (by rw [hkey]; rfl)
  exact List.mem_filterMap.2 ⟨key, hlisted, by rw [hkey]; rfl⟩

/-- A key without a style gets the next number. -/
theorem Sound.add (h : Sound policy n c) {key : String} (hnew : c.get? key = none)
    (hadmitted : (Directive.ofKey key).admitted policy = true) :
    Sound policy (n + 1) (c.add key ⟨n + 1, ⟨(Directive.ofKey key).fill⟩⟩) := by
  have hcases {k : String} {style : Style}
      (hk : (c.add key ⟨n + 1, ⟨(Directive.ofKey key).fill⟩⟩).get? k = some style) :
      k = key ∧ style = ⟨n + 1, ⟨(Directive.ofKey key).fill⟩⟩ ∨ c.get? k = some style := by
    rw [get?_add] at hk
    split at hk
    · rename_i heq
      exact .inl ⟨heq, (Option.some.inj hk).symm⟩
    · exact .inr hk
  have hunlisted : key ∉ c.order := by
    rw [h.mem_order_iff, hnew]
    simp
  refine ⟨?_, ?_, ?_, ?_, ?_, ?_⟩
  · rw [StyleCache.add, ← List.concat_eq_append]
    exact h.nodup.concat hunlisted
  · exact (h.listed.cons key).trans (List.perm_append_singleton key c.order).symm
  · intro k style hk
    rcases hcases hk with ⟨rfl, rfl⟩ | hold
    · rfl
    · exact h.fill hold
  · intro k style hk
    rcases hcases hk with ⟨rfl, rfl⟩ | hold
    · exact hadmitted
    · exact h.admitted hold
  · intro k style hk
    rcases hcases hk with ⟨rfl, rfl⟩ | hold
    · exact Nat.le_refl _
    · exact Nat.le_succ_of_le (h.numbered hold)
  · intro k k' style style' hk hk' hid
    rcases hcases hk with ⟨rfl, rfl⟩ | hold <;> rcases hcases hk' with ⟨rfl, rfl⟩ | hold'
    · rfl
    · exact absurd (h.numbered hold') (by rw [← hid]; exact Nat.not_succ_le_self n)
    · exact absurd (h.numbered hold) (by rw [hid]; exact Nat.not_succ_le_self n)
    · exact h.distinct hold hold' hid

end StyleCache

/--
What giving out styles for some directives comes to: all of them have a style then. Those that had one
before keep it, and new ones have numbers that were never given out.
-/
structure Allocated (policy : Policy) (ds : List Directive) (cache : StyleCache) (n : Nat)
    (cache' : StyleCache) (n' : Nat) : Prop where
  sound : cache'.Sound policy n'
  le : n ≤ n'
  kept : ∀ {key style}, cache.get? key = some style → cache'.get? key = some style
  fresh : ∀ {key style}, cache'.get? key = some style →
    cache.get? key = some style ∨ cache.get? key = none ∧ n < style.id
  found : ∀ d ∈ ds, ∃ style, cache'.get? d.key = some style

/-- The numbers of a cache are those from before, and new ones. -/
theorem Allocated.uses {policy : Policy} {ds : List Directive} {cache cache' : StyleCache}
    {last last' : Nat} (h : Allocated policy ds cache last cache' last') {n : Nat}
    (hn : cache'.Uses n) : cache.Uses n ∨ last < n := by
  obtain ⟨key, style, hkey, rfl⟩ := hn
  rcases h.fresh hkey with hold | ⟨-, hlt⟩
  · exact .inl ⟨key, style, hold, rfl⟩
  · exact .inr hlt

namespace Session

/-- Giving out styles changes nothing else in the window. -/
theorem allocate_window {ds : List Directive} {cache cache' : StyleCache} {n : Nat} {w w' : Window}
    (h : allocate ds cache w = (cache', n, w')) :
    ∃ styles last, w' = { w with styles := styles, lastStyle := last } := by
  induction ds generalizing cache w n with
  | nil =>
    cases h
    exact ⟨_, _, rfl⟩
  | cons d ds ih =>
    rcases hget : cache.getOrCreate d.key ⟨d.fill⟩ Window.createStyle w with ⟨cache₁, isNew, w₁⟩
    rcases hrest : allocate ds cache₁ w₁ with ⟨cache₂, m, w₂⟩
    simp only [allocate, hget, hrest] at h
    cases h
    obtain ⟨styles, last, rfl⟩ := ih hrest
    obtain ⟨-, -, -, rfl⟩ | ⟨-, -, -, rfl⟩ := StyleCache.getOrCreate_cases hget
    · exact ⟨styles, last, rfl⟩
    · exact ⟨styles, last, rfl⟩

variable {policy : Policy}

/-- One key, which gets the next number unless it has a style. -/
theorem allocated_getOrCreate {cache cache' : StyleCache} {w w' : Window} {isNew : Bool}
    (h : cache.Sound policy w.lastStyle) {key : String}
    (hadmitted : (Directive.ofKey key).admitted policy = true)
    (hget : cache.getOrCreate key ⟨(Directive.ofKey key).fill⟩ Window.createStyle w =
      (cache', isNew, w')) :
    Allocated policy [.ofKey key] cache w.lastStyle cache' w'.lastStyle := by
  obtain ⟨hcontains, rfl, -, rfl⟩ | ⟨hnew, rfl, -, rfl⟩ := StyleCache.getOrCreate_cases hget
  · refine ⟨h, Nat.le_refl _, id, .inl, ?_⟩
    intro d hd
    rw [List.mem_singleton.1 hd, Directive.key_ofKey]
    exact Option.isSome_iff_exists.1 hcontains
  · refine ⟨h.add hnew hadmitted, Nat.le_succ _, ?_, ?_, ?_⟩
    · intro k style hk
      rw [StyleCache.get?_add, if_neg]
      · exact hk
      · rintro rfl
        rw [hnew] at hk
        cases hk
    · intro k style hk
      rw [StyleCache.get?_add] at hk
      split at hk
      · rename_i heq
        cases hk
        exact .inr ⟨heq ▸ hnew, Nat.lt_succ_self _⟩
      · exact .inl hk
    · intro d hd
      rw [List.mem_singleton.1 hd, Directive.key_ofKey, StyleCache.get?_add, if_pos rfl]
      exact ⟨_, rfl⟩

/-- All keys of some directives, one after another. -/
theorem allocated_allocate {ds : List Directive} {cache cache' : StyleCache} {w w' : Window}
    {n : Nat} (h : cache.Sound policy w.lastStyle)
    (hds : ∀ d ∈ ds, d = .ofKey d.key ∧ d.admitted policy = true)
    (hallocate : allocate ds cache w = (cache', n, w')) :
    Allocated policy ds cache w.lastStyle cache' w'.lastStyle := by
  induction ds generalizing cache w n with
  | nil =>
    cases hallocate
    exact ⟨h, Nat.le_refl _, id, .inl, by simp⟩
  | cons d ds ih =>
    rw [List.forall_mem_cons] at hds
    obtain ⟨⟨hd, hadmitted⟩, hrest⟩ := hds
    rcases hget : cache.getOrCreate d.key ⟨d.fill⟩ Window.createStyle w with ⟨cache₁, isNew, w₁⟩
    rcases hallocate₁ : allocate ds cache₁ w₁ with ⟨cache₂, m, w₂⟩
    simp only [allocate, hget, hallocate₁] at hallocate
    cases hallocate
    have hone : Allocated policy [d] cache w.lastStyle cache₁ w₁.lastStyle := by
      rw [hd] at hget hadmitted ⊢
      rw [Directive.key_ofKey] at hget
      exact allocated_getOrCreate h hadmitted hget
    have hall := ih hone.sound hrest hallocate₁
    refine ⟨hall.sound, Nat.le_trans hone.le hall.le, fun hk => hall.kept (hone.kept hk), ?_, ?_⟩
    · intro key style hk
      rcases hall.fresh hk with hold | ⟨hnone, hlt⟩
      · exact hone.fresh hold
      · refine .inr ⟨?_, Nat.lt_of_le_of_lt hone.le hlt⟩
        cases hbefore : cache.get? key with
        | none => rfl
        | some style' => rw [hone.kept hbefore] at hnone; cases hnone
    · rw [List.forall_mem_cons]
      refine ⟨?_, hall.found⟩
      obtain ⟨style, hstyle⟩ := hone.found d List.mem_cons_self
      exact ⟨style, hall.kept hstyle⟩

end Session

end ColorMarks
