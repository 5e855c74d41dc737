import ColorMarks.Proofs.Text.Blank
import ColorMarks.Text.Integer

/-!
# Numerals

`Numeral` is the grammar of an integer in decimal: at most one sign and one or more digits. `Denotes`
lets any blanks stand around it, and `Unsigned` is the grammar of a natural number, which has no minus
sign. Reading accepts exactly the numerals whose values lie within its bounds, and every integer has its
printed form as a numeral.
-/

namespace ColorMarks.Text

/-- An integer in decimal. -/
inductive Numeral : List Char → Int → Prop
  | unsigned {ds : List Char} (h : ds ≠ []) (hds : ∀ c ∈ ds, c.isDigit = true) :
      Numeral ds (Nat.ofDigitChars 10 ds 0)
  | plus {ds : List Char} (h : ds ≠ []) (hds : ∀ c ∈ ds, c.isDigit = true) :
      Numeral ('+' :: ds) (Nat.ofDigitChars 10 ds 0)
  | minus {ds : List Char} (h : ds ≠ []) (hds : ∀ c ∈ ds, c.isDigit = true) :
      Numeral ('-' :: ds) (-Nat.ofDigitChars 10 ds 0)

/-- A natural number in decimal: a plus sign or none, and one or more digits. -/
inductive Unsigned : List Char → Nat → Prop
  | plain {ds : List Char} (h : ds ≠ []) (hds : ∀ c ∈ ds, c.isDigit = true) :
      Unsigned ds (Nat.ofDigitChars 10 ds 0)
  | plus {ds : List Char} (h : ds ≠ []) (hds : ∀ c ∈ ds, c.isDigit = true) :
      Unsigned ('+' :: ds) (Nat.ofDigitChars 10 ds 0)

/-- An integer in decimal with any blanks around it. -/
inductive Denotes : List Char → Int → Prop
  | mk {before numeral after : List Char} {n : Int} (hbefore : ∀ c ∈ before, isBlank c = true)
      (hn : Numeral numeral n) (hafter : ∀ c ∈ after, isBlank c = true) :
      Denotes (before ++ numeral ++ after) n

/-- The integers of 64 bits with a sign. -/
def IsInt64 (n : Int) : Prop := -(twoTo 63 : Int) ≤ n ∧ n < twoTo 63

instance (n : Int) : Decidable (IsInt64 n) := inferInstanceAs (Decidable (_ ∧ _))

/-! ## Reading numerals -/

theorem digits?_eq_some_iff {ds : List Char} {n : Nat} :
    digits? ds = some n ↔
      ds ≠ [] ∧ (∀ c ∈ ds, c.isDigit = true) ∧ n = Nat.ofDigitChars 10 ds 0 := by
  have hall : (!ds.isEmpty && ds.all Char.isDigit) = true ↔
      ds ≠ [] ∧ ∀ c ∈ ds, c.isDigit = true := by
    simp [List.all_eq_true]
  rw [digits?, Option.ite_none_right_eq_some, hall, and_assoc, Option.some.injEq]
  exact and_congr_right fun _ => and_congr_right fun _ => eq_comm

theorem numeral_plus_iff {ds : List Char} {n : Int} :
    Numeral ('+' :: ds) n ↔ (digits? ds).map Int.ofNat = some n := by
  rw [Option.map_eq_some_iff]
  constructor
  · intro h
    cases h with
    | unsigned h hds => exact absurd (hds '+' List.mem_cons_self) (by decide)
    | plus h hds => exact ⟨_, digits?_eq_some_iff.2 ⟨h, hds, rfl⟩, rfl⟩
  · rintro ⟨m, hm, rfl⟩
    obtain ⟨h, hds, rfl⟩ := digits?_eq_some_iff.1 hm
    exact .plus h hds

theorem numeral_minus_iff {ds : List Char} {n : Int} :
    Numeral ('-' :: ds) n ↔ ((digits? ds).map fun m => -Int.ofNat m) = some n := by
  rw [Option.map_eq_some_iff]
  constructor
  · intro h
    cases h with
    | unsigned h hds => exact absurd (hds '-' List.mem_cons_self) (by decide)
    | minus h hds => exact ⟨_, digits?_eq_some_iff.2 ⟨h, hds, rfl⟩, rfl⟩
  · rintro ⟨m, hm, rfl⟩
    obtain ⟨h, hds, rfl⟩ := digits?_eq_some_iff.1 hm
    exact .minus h hds

theorem numeral_iff_of_no_sign {cs : List Char} {n : Int} (hplus : ∀ ds, cs ≠ '+' :: ds)
    (hminus : ∀ ds, cs ≠ '-' :: ds) : Numeral cs n ↔ (digits? cs).map Int.ofNat = some n := by
  rw [Option.map_eq_some_iff]
  constructor
  · intro h
    cases h with
    | unsigned h hds => exact ⟨_, digits?_eq_some_iff.2 ⟨h, hds, rfl⟩, rfl⟩
    | plus h hds => exact absurd rfl (hplus _)
    | minus h hds => exact absurd rfl (hminus _)
  · rintro ⟨m, hm, rfl⟩
    obtain ⟨h, hds, rfl⟩ := digits?_eq_some_iff.1 hm
    exact .unsigned h hds

/-- Exactly the numerals within the bounds are read. -/
theorem int?_eq_some_iff {lo hi n : Int} {cs : List Char} :
    int? lo hi cs = some n ↔ Numeral cs n ∧ lo ≤ n ∧ n ≤ hi := by
  unfold int?
  rw [Option.filter_eq_some_iff, Bool.and_eq_true, decide_eq_true_iff, decide_eq_true_iff]
  refine and_congr_left fun _ => ?_
  split
  · exact numeral_plus_iff.symm
  · exact numeral_minus_iff.symm
  · rename_i hplus hminus
    exact (numeral_iff_of_no_sign hplus hminus).symm

theorem int64?_eq_some_iff {n : Int} {cs : List Char} :
    int64? cs = some n ↔ Numeral cs n ∧ IsInt64 n := by
  rw [int64?, int?_eq_some_iff, IsInt64, Int.le_sub_one_iff]

/-- Exactly the natural numbers within the limit are read. -/
theorem nat?_eq_some_iff {limit n : Nat} {cs : List Char} :
    nat? limit cs = some n ↔ Unsigned cs n ∧ n ≤ limit := by
  unfold nat?
  rw [Option.filter_eq_some_iff, decide_eq_true_iff]
  refine and_congr_left fun _ => ?_
  split
  · rw [digits?_eq_some_iff]
    constructor
    · rintro ⟨h, hds, rfl⟩
      exact .plus h hds
    · intro h
      cases h with
      | plain h hds => exact absurd (hds '+' List.mem_cons_self) (by decide)
      | plus h hds => exact ⟨h, hds, rfl⟩
  · rename_i hplus
    rw [digits?_eq_some_iff]
    constructor
    · rintro ⟨h, hds, rfl⟩
      exact .plain h hds
    · intro h
      cases h with
      | plain h hds => exact ⟨h, hds, rfl⟩
      | plus h hds => exact absurd rfl (hplus _)

theorem nat64?_eq_some_iff {n : Nat} {cs : List Char} :
    nat64? cs = some n ↔ Unsigned cs n ∧ n < twoTo 64 := by
  have hpos := twoTo_pos 64
  rw [nat64?, nat?_eq_some_iff, Nat.le_sub_one_iff_lt hpos]

/-- A numeral has one value. -/
theorem Numeral.unique {cs : List Char} {m n : Int} (hm : Numeral cs m) (hn : Numeral cs n) :
    m = n := by
  have hread {k : Int} (hk : Numeral cs k) (hlo : min m n ≤ k) (hhi : k ≤ max m n) :
      int? (min m n) (max m n) cs = some k := int?_eq_some_iff.2 ⟨hk, hlo, hhi⟩
  exact Option.some.inj ((hread hm (by omega) (by omega)).symm.trans (hread hn (by omega) (by omega)))

/-! ## Numerals between blanks -/

/-- A numeral consists of digits and signs. -/
theorem Numeral.digit_or_sign {cs : List Char} {n : Int} (h : Numeral cs n) :
    ∀ c ∈ cs, c.isDigit = true ∨ c = '+' ∨ c = '-' := by
  intro c hc
  cases h with
  | unsigned _ hds => exact .inl (hds c hc)
  | plus _ hds => exact (List.mem_cons.1 hc).elim (fun h => .inr (.inl h)) fun h => .inl (hds c h)
  | minus _ hds => exact (List.mem_cons.1 hc).elim (fun h => .inr (.inr h)) fun h => .inl (hds c h)

theorem Numeral.not_isBlank {cs : List Char} {n : Int} (h : Numeral cs n) :
    ∀ c ∈ cs, isBlank c = false := by
  intro c hc
  rcases h.digit_or_sign c hc with hdigit | rfl | rfl
  · exact not_isBlank_of_isDigit hdigit
  · rfl
  · rfl

theorem denotes_iff {cs : List Char} {n : Int} : Denotes cs n ↔ Numeral (trim cs) n := by
  constructor
  · rintro ⟨hbefore, hn, hafter⟩
    rwa [trim_append hbefore hn.not_isBlank hafter]
  · intro h
    obtain ⟨before, after, hcs, hbefore, hafter⟩ := exists_blanks_trim cs
    rw [hcs]
    exact .mk hbefore h hafter

theorem Denotes.unique {cs : List Char} {m n : Int} (hm : Denotes cs m) (hn : Denotes cs n) :
    m = n := (denotes_iff.1 hm).unique (denotes_iff.1 hn)

/-- No comma stands in an integer or in the blanks around it. -/
theorem Denotes.not_mem_comma {cs : List Char} {n : Int} (h : Denotes cs n) : ',' ∉ cs := by
  obtain ⟨hbefore, hn, hafter⟩ := h
  intro hmem
  rcases List.mem_append.1 hmem with hmem | hmem
  · rcases List.mem_append.1 hmem with hmem | hmem
    · exact absurd (hbefore ',' hmem) (by decide)
    · exact absurd (hn.digit_or_sign ',' hmem) (by decide)
  · exact absurd (hafter ',' hmem) (by decide)

/-! ## Printed integers -/

/-- The printed form of an integer is a numeral. -/
theorem numeral_repr (n : Int) : Numeral n.repr.toList n := by
  have hvalue (m : Nat) : Nat.ofDigitChars 10 m.repr.toList 0 = m := by
    rw [Nat.toList_repr, Nat.ofDigitChars_ten_toDigits]
  have hne (m : Nat) : m.repr.toList ≠ [] := by
    rw [Nat.toList_repr]
    exact Nat.toDigits_ne_nil
  have hdigits (m : Nat) : ∀ c ∈ m.repr.toList, c.isDigit = true := by
    rw [Nat.toList_repr]
    exact fun c => isDigit_of_mem_digitsOf
  cases n with
  | ofNat m => simpa [hvalue, Int.repr] using Numeral.unsigned (hne m) (hdigits m)
  | negSucc m =>
    simpa [hvalue, Int.repr, Int.negSucc_eq] using Numeral.minus (hne (m + 1)) (hdigits (m + 1))

theorem denotes_repr (n : Int) : Denotes n.repr.toList n := by
  rw [denotes_iff, trim_of_not_isBlank (numeral_repr n).not_isBlank]
  exact numeral_repr n

end ColorMarks.Text
