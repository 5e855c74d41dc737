import ColorMarks.Json.Printer
import ColorMarks.Json.Reader
import ColorMarks.Proofs.Text.Digits

/-!
# Reading back strings and numbers

What the printer writes for a string or an integer, the reader reads as the same one, whatever comes
after the closing quote; an integer must not be followed by what could go on with it.
-/

namespace ColorMarks.Json

open Decimal (digitsOf)
open Text (hexChar hexDigit? digitsValue)

/-! ## Strings -/

/-- The escape of a control character is the number of the character. -/
theorem hexUnit?_control : ∀ n < 32,
    hexUnit? '0' '0' (hexChar (n / 16)) (hexChar (n % 16)) = some n := by decide

/-- A character that needs no escape is read as itself. -/
theorem readString_plain (acc : List Char) {c : Char} (rest : List Char) (hquote : c ≠ '"')
    (hslash : c ≠ '\\') (hcontrol : ¬ c.toNat < 0x20) :
    readString acc (c :: rest) = readString (c :: acc) rest := by
  rw [readString.eq_def]
  split
  · simp_all
  · simp_all
  · simp_all
  · simp_all
  · rename_i heq
    obtain ⟨rfl, rfl⟩ := List.cons.inj heq
    rw [if_neg hcontrol]

/-- One printed character is read as that character. -/
theorem readString_printChar (acc : List Char) (c : Char) (rest : List Char) :
    readString acc (printChar c ++ rest) = readString (c :: acc) rest := by
  unfold printChar
  split
  · simp [readString, letterEscape?]
  · simp [readString, letterEscape?]
  · simp [readString, letterEscape?]
  · simp [readString, letterEscape?]
  · simp [readString, letterEscape?]
  · simp [readString, letterEscape?]
  · simp [readString, letterEscape?]
  · rename_i hquote hslash _ _ _ _ _
    split
    · rename_i hcontrol
      have hunit := hexUnit?_control c.toNat hcontrol
      rw [List.cons_append, List.cons_append, List.cons_append, List.cons_append, List.cons_append,
        List.cons_append, List.nil_append, readString, hunit]
      simp only [Option.bind_eq_bind, Option.bind_some]
      rw [if_neg (by omega), if_neg (by omega), Char.ofNat_toNat]
    · rename_i hcontrol
      exact readString_plain acc rest hquote hslash hcontrol

theorem readString_print (acc cs rest : List Char) :
    readString acc (cs.flatMap printChar ++ '"' :: rest) = some (acc.reverse ++ cs, rest) := by
  induction cs generalizing acc with
  | nil => simp [readString]
  | cons c cs ih =>
    rw [List.flatMap_cons, List.append_assoc, readString_printChar, ih]
    simp

/-- A printed string after its opening quote. -/
theorem readString_printString (s : String) (rest : List Char) :
    ∃ cs, printString s ++ rest = '"' :: cs ∧ readString [] cs = some (s.toList, rest) := by
  refine ⟨s.toList.flatMap printChar ++ '"' :: rest, ?_, readString_print [] s.toList rest⟩
  simp [printString]

/-! ## Numbers -/

/-- A text that does not go on with a number: it is empty or begins with a delimiter. -/
def Ends (rest : List Char) : Prop := ∀ c ∈ rest.head?, c = ',' ∨ c = ']' ∨ c = '\x7d'

theorem ends_nil : Ends [] := by simp [Ends]

theorem ends_cons {c : Char} (rest : List Char) (h : c = ',' ∨ c = ']' ∨ c = '\x7d') :
    Ends (c :: rest) := by
  simpa [Ends] using h

theorem Ends.not_digit {rest : List Char} (h : Ends rest) :
    ∀ c ∈ rest.head?, c.isDigit = false := by
  intro c hc
  rcases h c hc with rfl | rfl | rfl <;> decide

namespace Numeral

/-- All digits of a number below `2 ^ 64` are absorbed. -/
theorem absorb_of_lt {ds : List Char} {n : Nat} (h : Nat.ofDigitChars 10 ds n < twoTo 64) :
    absorb n ds = (Nat.ofDigitChars 10 ds n, []) := by
  induction ds generalizing n with
  | nil => rfl
  | cons d ds ih =>
    rw [Nat.ofDigitChars_cons] at h ⊢
    have hle := Text.le_ofDigitChars ds (10 * n + (d.toNat - '0'.toNat))
    rw [absorb, if_pos (Nat.lt_of_le_of_lt hle h), ih h]

theorem readIntegral?_digitsOf (n : Nat) {rest : List Char} (h : Ends rest) :
    readIntegral? (digitsOf n ++ rest) = some (digitsOf n, rest) := by
  by_cases hn : n = 0
  · subst hn
    have hhead : (rest.head?.map Char.isDigit).getD false = false := by
      cases hr : rest.head? with
      | none => rfl
      | some c => simpa using h.not_digit c hr
    simp [readIntegral?, hhead]
  · have hdigits : ∀ c ∈ digitsOf n, c.isDigit = true := fun c => Text.isDigit_of_mem_digitsOf
    unfold readIntegral?
    split
    · rename_i r hr
      exact absurd rfl ((Text.isDigit_of_digitsOf_append hr).2 (Nat.pos_of_ne_zero hn))
    · simp [Text.takeWhile_digits hdigits h.not_digit, Text.dropWhile_digits hdigits h.not_digit]

theorem readFraction?_of_ends {rest : List Char} (h : Ends rest) :
    readFraction? rest = some (none, rest) := by
  cases rest with
  | nil => rfl
  | cons c rest =>
    rcases h c rfl with rfl | rfl | rfl <;> rfl

theorem readExponent?_of_ends {rest : List Char} (h : Ends rest) :
    readExponent? rest = some (none, rest) := by
  cases rest with
  | nil => rfl
  | cons c rest =>
    rcases h c rfl with rfl | rfl | rfl <;> rfl

/-- A printed integer is read as its sign and its digits. -/
theorem read?_printInt (n : Int) {rest : List Char} (h : Ends rest) :
    read? (printInt n ++ rest) = some (⟨decide (n < 0), digitsOf n.natAbs, none, none⟩, rest) := by
  have hsign : ∀ r, digitsOf n.natAbs ++ rest ≠ '-' :: r := by
    intro r hr
    have hminus := (Text.isDigit_of_digitsOf_append hr).1
    exact absurd hminus (by decide)
  by_cases hn : n < 0
  · simp [read?, printInt, hn, readIntegral?_digitsOf _ h, readFraction?_of_ends h,
      readExponent?_of_ends h]
  · simp [read?, printInt, hn, readIntegral?_digitsOf _ h, readFraction?_of_ends h,
      readExponent?_of_ends h]

/-- Integers of 64 bits, with or without a sign, are integers again. -/
theorem toJson?_integer {n : Int} (hlow : -(twoTo 63 : Int) ≤ n) (hhigh : n < twoTo 64) :
    toJson? ⟨decide (n < 0), digitsOf n.natAbs, none, none⟩ = some (integer n) := by
  have hbound : twoTo 63 < twoTo 64 := by decide
  have hvalue : Nat.ofDigitChars 10 (digitsOf n.natAbs) 0 = n.natAbs :=
    Text.digitsValue_digitsOf n.natAbs
  have habsorb : absorb 0 (digitsOf n.natAbs) = (n.natAbs, []) := by
    rw [absorb_of_lt (by omega), hvalue]
  unfold toJson?
  simp only [habsorb]
  by_cases hn : n < 0
  · rw [if_pos (by simpa using hn), if_pos (by omega)]
    congr 2
    omega
  · rw [if_neg (by simpa using hn)]
    congr 2
    omega

end Numeral

end ColorMarks.Json
