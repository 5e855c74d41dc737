import Mathlib.Data.List.Forall2

/-!
# Readers one after the other

Reading the items of a list one after the other succeeds exactly if each of them is read.
-/

namespace ColorMarks

section Option

variable {α β : Type}

/-- A reader that succeeds hands its result to the next. -/
theorem then_eq_some {x : Option α} {f : α → Option β} {a : α} {b : β} (hx : x = some a)
    (hf : f a = some b) : (x >>= f) = some b := by
  rw [hx]
  exact hf

theorem mapM_eq_some_iff {f : α → Option β} {as : List α} {bs : List β} :
    as.mapM f = some bs ↔ List.Forall₂ (fun a b => f a = some b) as bs := by
  induction as generalizing bs with
  | nil => simp [eq_comm]
  | cons a as ih => cases bs <;> simp [Option.bind_eq_some_iff, ih]

/-- What every step of a loop preserves holds at its end. -/
theorem foldlM_preserves {P : β → Prop} {f : β → α → Option β} {as : List α} {b c : β}
    (h : as.foldlM f b = some c) (hb : P b)
    (hstep : ∀ a ∈ as, ∀ b c, P b → f b a = some c → P c) : P c := by
  induction as generalizing b with
  | nil =>
    cases h
    exact hb
  | cons a as ih =>
    obtain ⟨m, hm, hrest⟩ := Option.bind_eq_some_iff.1 h
    refine ih hrest (hstep a List.mem_cons_self b m hb hm) ?_
    exact fun a' ha' => hstep a' (List.mem_cons_of_mem a ha')

end Option

section Except

variable {ε α β : Type}

/-- A computation in two parts that succeeds does so in both of them. -/
theorem exists_of_bind_eq_ok {x : Except ε α} {f : α → Except ε β} {b : β}
    (h : (x >>= f) = .ok b) : ∃ a, x = .ok a ∧ f a = .ok b := by
  cases x with
  | error e => cases h
  | ok a => exact ⟨a, rfl, h⟩

/-- What each item is read as makes up what the list is read as. -/
theorem exists_mapM_eq_ok {f : α → Except ε β} {R : α → β → Prop} {as : List α}
    (h : ∀ a ∈ as, ∃ b, f a = .ok b ∧ R a b) :
    ∃ bs, as.mapM f = .ok bs ∧ List.Forall₂ R as bs := by
  induction as with
  | nil => exact ⟨[], rfl, .nil⟩
  | cons a as ih =>
    obtain ⟨hhead, htail⟩ := List.forall_mem_cons.1 h
    obtain ⟨b, hb, hR⟩ := hhead
    obtain ⟨bs, hbs, hRs⟩ := ih htail
    refine ⟨b :: bs, ?_, .cons hR hRs⟩
    rw [List.mapM_cons, hb, hbs]
    rfl

/-- If a list is read, so is each item. -/
theorem exists_of_mapM_eq_ok {f : α → Except ε β} {as : List α} {bs : List β}
    (h : as.mapM f = .ok bs) : ∀ a ∈ as, ∃ b, f a = .ok b := by
  induction as generalizing bs with
  | nil => exact fun a ha => absurd ha List.not_mem_nil
  | cons a as ih =>
    rw [List.mapM_cons] at h
    obtain ⟨b, hb, h⟩ := exists_of_bind_eq_ok h
    obtain ⟨bs, hbs, -⟩ := exists_of_bind_eq_ok h
    exact List.forall_mem_cons.2 ⟨⟨b, hb⟩, ih hbs⟩

/-- If a loop comes to its end, each item passed a step. -/
theorem exists_of_foldlM_eq_ok {f : β → α → Except ε β} {as : List α} {b c : β}
    (h : as.foldlM f b = .ok c) : ∀ a ∈ as, ∃ b c, f b a = .ok c := by
  induction as generalizing b with
  | nil => exact fun a ha => absurd ha List.not_mem_nil
  | cons a as ih =>
    obtain ⟨m, hm, hrest⟩ := exists_of_bind_eq_ok h
    exact List.forall_mem_cons.2 ⟨⟨b, m, hm⟩, ih hrest⟩

end Except

end ColorMarks
