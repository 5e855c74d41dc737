import ColorMarks.Decimal.Layout
import ColorMarks.Text.Integer

/-!
# Decimal digits

The digits of a natural number denote it, and a number is read from them and from nothing after them.
-/

namespace ColorMarks.Text

open Decimal (digitsOf)

theorem toNat_of_isDigit {c : Char} (h : c.isDigit = true) : 48 ≤ c.toNat ∧ c.toNat ≤ 57 := by
  simpa [Char.isDigit, UInt32.le_iff_toNat_le] using h

@[simp] theorem digitsOf_ne_nil (n : Nat) : digitsOf n ≠ [] := Nat.toDigits_ne_nil

@[simp] theorem digitsOf_zero : digitsOf 0 = ['0'] := rfl

theorem isDigit_of_mem_digitsOf {n : Nat} {c : Char} (h : c ∈ digitsOf n) : c.isDigit = true :=
  Nat.isDigit_of_mem_toDigits (by decide) (by decide) h

@[simp] theorem digitsValue_digitsOf (n : Nat) : digitsValue (digitsOf n) = n :=
  Nat.ofDigitChars_ten_toDigits

/-- More digits never make a number smaller. -/
theorem le_ofDigitChars (ds : List Char) (n : Nat) : n ≤ Nat.ofDigitChars 10 ds n := by
  rw [Nat.ofDigitChars_eq_ofDigitChars_zero]
  exact Nat.le_trans (Nat.le_mul_of_pos_left _ (Nat.pow_pos (by decide))) (Nat.le_add_right _ _)

/-- The first digits of a number denote no greater one. -/
theorem ofDigitChars_le_of_append {n : Nat} {ds es : List Char} (h : digitsOf n = ds ++ es) :
    Nat.ofDigitChars 10 ds 0 ≤ n := by
  have hvalue : Nat.ofDigitChars 10 (ds ++ es) 0 = n := by
    rw [← h]
    exact Nat.ofDigitChars_ten_toDigits
  rw [← hvalue, Nat.ofDigitChars_append]
  exact le_ofDigitChars es _

/-- Only zero begins with the digit zero. -/
theorem head?_digitsOf {n : Nat} (h : 0 < n) : (digitsOf n).head? ≠ some '0' := by
  unfold digitsOf
  induction n using Nat.strongRecOn with
  | ind n ih =>
    by_cases hn : n < 10
    · rw [Nat.toDigits_of_lt_base hn]
      have hall : ∀ m < 10, 0 < m → [m.digitChar].head? ≠ some '0' := by decide
      exact hall n hn h
    · have hhead := ih (n / 10) (by omega) (by omega)
      rw [Nat.toDigits_of_base_le (by decide) (by omega)]
      cases hds : Nat.toDigits 10 (n / 10) with
      | nil => exact absurd hds Nat.toDigits_ne_nil
      | cons d ds =>
        rw [hds] at hhead
        exact hhead

theorem digits?_digitsOf (n : Nat) : digits? (digitsOf n) = some n := by
  have hall : (digitsOf n).all Char.isDigit = true :=
    List.all_eq_true.2 fun c hc => isDigit_of_mem_digitsOf hc
  rw [digits?, hall, digitsValue_digitsOf]
  simp

/-- A number within the limit is read from its digits. -/
theorem nat?_digitsOf {n limit : Nat} (h : n ≤ limit) : nat? limit (digitsOf n) = some n := by
  unfold nat?
  split
  · rename_i r hr
    have hplus : '+'.isDigit = true := isDigit_of_mem_digitsOf (by rw [hr]; exact List.mem_cons_self)
    exact absurd hplus (by decide)
  · rw [digits?_digitsOf, Option.filter_some, if_pos (by simpa using h)]

/-- A text that begins with the digits of a number begins with a digit. -/
theorem isDigit_of_digitsOf_append {n : Nat} {rest r : List Char} {c : Char}
    (h : digitsOf n ++ rest = c :: r) : c.isDigit = true ∧ (0 < n → c ≠ '0') := by
  cases hds : digitsOf n with
  | nil => exact absurd hds (digitsOf_ne_nil n)
  | cons d ds =>
    rw [hds] at h
    obtain rfl : d = c := (List.cons.inj h).1
    refine ⟨isDigit_of_mem_digitsOf (by rw [hds]; exact List.mem_cons_self), ?_⟩
    rintro hn rfl
    exact head?_digitsOf hn (by rw [hds]; rfl)

/-- Digits end where something else begins. -/
theorem takeWhile_digits {ds rest : List Char} (hds : ∀ c ∈ ds, c.isDigit = true)
    (hrest : ∀ c ∈ rest.head?, c.isDigit = false) : (ds ++ rest).takeWhile Char.isDigit = ds := by
  rw [List.takeWhile_append_of_pos hds]
  cases rest with
  | nil => simp
  | cons c rest => simp [hrest c rfl]

theorem dropWhile_digits {ds rest : List Char} (hds : ∀ c ∈ ds, c.isDigit = true)
    (hrest : ∀ c ∈ rest.head?, c.isDigit = false) :
    (ds ++ rest).dropWhile Char.isDigit = rest := by
  rw [List.dropWhile_append_of_pos hds]
  cases rest with
  | nil => rfl
  | cons c rest => simp [hrest c rfl]

end ColorMarks.Text
