import ColorMarks.Text.Integer
import Mathlib.Data.List.Forall2

/-!
# Letters of either case

What it means that two texts are equal but for the case of their letters: letter by letter they are the same
or the two cases of one letter of ASCII. All other letters count as they are.
-/

namespace ColorMarks.Text

/-- The same character, or one letter of ASCII as a capital, from 65 to 90, and as a small one. -/
def SameLetter (c d : Char) : Prop :=
  c = d ∨ (65 ≤ c.toNat ∧ c.toNat ≤ 90 ∧ d.toNat = c.toNat + 32) ∨
    (65 ≤ d.toNat ∧ d.toNat ≤ 90 ∧ c.toNat = d.toNat + 32)

/-- Only the capitals of ASCII are replaced. -/
theorem toNat_toLower (c : Char) :
    c.toLower.toNat = if 65 ≤ c.toNat ∧ c.toNat ≤ 90 then c.toNat + 32 else c.toNat := by
  have hrange : (c.val ≥ 'A'.val ∧ c.val ≤ 'Z'.val) ↔ 65 ≤ c.toNat ∧ c.toNat ≤ 90 := Iff.rfl
  unfold Char.toLower
  simp only [hrange]
  split
  · rename_i h
    show (c.val + 32).toNat = c.toNat + 32
    have hc : c.val.toNat ≤ 90 := h.2
    rw [UInt32.toNat_add, Nat.mod_eq_of_lt]
    · rfl
    · show c.val.toNat + 32 < 2 ^ 32
      omega
  · rfl

theorem toLower_eq_iff {c d : Char} : c.toLower = d.toLower ↔ SameLetter c d := by
  rw [← Char.toNat_inj, toNat_toLower, toNat_toLower, SameLetter, ← Char.toNat_inj]
  split <;> split <;> omega

/-- Texts are equal but for the case if they have the same letters, one by one. -/
theorem equalIgnoringCase_iff {a b : String} :
    equalIgnoringCase a b = true ↔ List.Forall₂ SameLetter a.toList b.toList := by
  rw [equalIgnoringCase, beq_iff_eq, ← List.forall₂_eq_eq_eq, List.forall₂_map_left_iff,
    List.forall₂_map_right_iff]
  simp only [toLower_eq_iff]

end ColorMarks.Text
