import ColorMarks.Frame
import ColorMarks.Proofs.Text.Blank
import ColorMarks.Proofs.Text.Octets

/-!
# Reading the header of a frame

The header that is written for a body is read as the length of the body, and as nothing less: a line
counts only with its line feed, and the block only with its blank line.
-/

namespace ColorMarks.Frame

open Decimal (digitsOf)
open Text (octets ofOctets?)

/-- The header line for a length, with its carriage return. -/
def lengthLine (n : Nat) : String := lengthName ++ ": " ++ n.repr ++ "\r"

theorem toList_lengthLine (n : Nat) :
    (lengthLine n).toList = lengthName.toList ++ ':' :: ' ' :: (digitsOf n ++ ['\r']) := by
  simp [lengthLine, digitsOf]

theorem write_eq (v : Json) :
    write v = octets (lengthLine (octets v.text).length) ++ 10 :: 13 :: 10 :: octets v.text := by
  have hbreaks : octets "\n\r\n" = [10, 13, 10] := Text.octets_ascii (by simp)
  have hheader : ∀ n : Nat, s!"{lengthName}: {n}\r\n\r\n" = lengthLine n ++ "\n\r\n" := by
    intro n
    apply String.toList_inj.1
    simp [lengthLine]
    rfl
  rw [write, hheader, Text.octets_append, hbreaks, List.append_assoc]
  rfl

/-- The characters of a header line are all ASCII. -/
theorem toNat_lt_of_mem_lengthLine (n : Nat) : ∀ c ∈ (lengthLine n).toList, c.toNat < 128 := by
  intro c hc
  rw [toList_lengthLine] at hc
  simp only [List.mem_append, List.mem_cons, List.not_mem_nil, or_false] at hc
  have hname : ∀ c ∈ lengthName.toList, c.toNat < 128 := by simp [lengthName]
  rcases hc with hc | rfl | rfl | hc | rfl
  · exact hname c hc
  · decide
  · decide
  · have hrange := Text.toNat_of_isDigit (Text.isDigit_of_mem_digitsOf hc)
    omega
  · decide

/-- The line without its carriage return has no characters but its first ones and the digits. -/
theorem not_mem_digitsOf {c : Char} (hfront : c ∉ lengthName.toList ++ [':', ' '])
    (hdigit : c.isDigit = false) (n : Nat) : c ∉ lengthName.toList ++ ':' :: ' ' :: digitsOf n := by
  intro hmem
  have hsplit : lengthName.toList ++ ':' :: ' ' :: digitsOf n =
      lengthName.toList ++ [':', ' '] ++ digitsOf n := by simp
  rw [hsplit, List.mem_append] at hmem
  rcases hmem with hmem | hmem
  · exact hfront hmem
  · rw [Text.isDigit_of_mem_digitsOf hmem] at hdigit
    cases hdigit

/-- No character of a header line is a line feed. -/
theorem not_mem_octets_lengthLine (n : Nat) : (10 : UInt8) ∉ octets (lengthLine n) := by
  apply Text.not_mem_octets_of_unbroken
  rw [toList_lengthLine, ← List.cons_append, ← List.cons_append, ← List.append_assoc, List.mem_append]
  rintro (hmem | hmem)
  · exact not_mem_digitsOf (by decide) (by decide) n hmem
  · exact absurd hmem (by decide)

theorem trimReturns_concat (cs : List Char) : trimReturns (cs ++ ['\r']) = trimReturns cs := by
  simp [trimReturns]

theorem trimReturns_of_not_mem {cs : List Char} (h : '\r' ∉ cs) : trimReturns cs = cs := by
  have hkeep : cs.reverse.dropWhile (· == '\r') = cs.reverse := by
    apply Text.dropWhile_of_forall_not
    intro c hc
    rw [beq_eq_false_iff_ne]
    rintro rfl
    exact h (List.mem_reverse.1 hc)
  rw [trimReturns, hkeep, List.reverse_reverse]

/-- A header line is cut at its carriage return alone. -/
theorem trimReturns_lengthLine (n : Nat) :
    trimReturns (lengthLine n).toList = lengthName.toList ++ ':' :: ' ' :: digitsOf n := by
  rw [toList_lengthLine, ← List.cons_append, ← List.cons_append, ← List.append_assoc,
    trimReturns_concat, trimReturns_of_not_mem (not_mem_digitsOf (by decide) (by decide) n)]

/-- Bodies have lengths of 64 bits. -/
theorem lt_twoTo_of_lt_bodyLimit {n : Nat} (h : n < bodyLimit) : n < twoTo 64 :=
  Nat.lt_trans h (by decide)

/-- The header line says its length, if 64 bits hold it. -/
theorem lineOfOctets_lengthLine {n : Nat} (h : n < twoTo 64) :
    lineOfOctets (octets (lengthLine n)) = .length n := by
  have hcut : Text.cut? ':' (lengthName.toList ++ ':' :: ' ' :: digitsOf n) =
      some (lengthName.toList, ' ' :: digitsOf n) := by
    rfl
  have hname : Text.equalIgnoringCase (String.ofList (Text.trim lengthName.toList)) lengthName =
      true := by
    decide
  have hvalue : Text.trim (' ' :: digitsOf n) = digitsOf n :=
    Text.trim_of_not_isBlank fun c hc =>
      Text.not_isBlank_of_isDigit (Text.isDigit_of_mem_digitsOf hc)
  have hline := trimReturns_lengthLine n
  rw [lineOfOctets, Text.ofOctets?_octets]
  show headerLine (lengthLine n).toList = _
  have hnumber : Text.nat64? (digitsOf n) = some n := Text.nat?_digitsOf (by omega)
  unfold headerLine
  split
  · rename_i hempty
    rw [hline] at hempty
    exact absurd hempty (by simp)
  · rw [hline, hcut]
    simp only [hname, hvalue, hnumber, if_true]

/-- The bytes of a line are put by until its line feed. -/
theorem readBlock_line (tail : Tail) (first : Bool) (length : Option Nat) {line : List UInt8}
    (acc rest : List UInt8) (h : (10 : UInt8) ∉ line) (hline : line ≠ []) :
    readBlock tail first length acc (line ++ rest) =
      readBlock tail false length (line.reverse ++ acc) rest := by
  induction line generalizing first acc with
  | nil => exact absurd rfl hline
  | cons b line ih =>
    have hb : b ≠ 10 := by
      rintro rfl
      exact h List.mem_cons_self
    have hrest : (10 : UInt8) ∉ line := fun hmem => h (List.mem_cons_of_mem b hmem)
    rw [List.cons_append, readBlock, if_neg hb]
    by_cases hnil : line = []
    · subst hnil
      rfl
    · rw [ih false (b :: acc) hrest hnil, List.reverse_cons, List.append_assoc]
      rfl

/-- Reading a line goes by what it says. -/
theorem readBlock_fed (tail : Tail) (first : Bool) (length : Option Nat) {line : List UInt8}
    (h : (10 : UInt8) ∉ line) (rest : List UInt8) :
    readBlock tail first length [] (line ++ 10 :: rest) =
      match lineOfOctets line with
      | .blank => .headers length rest
      | .length n => readBlock tail false (some n) [] rest
      | .other => readBlock tail false length [] rest
      | .bad e => .failed e rest := by
  by_cases hnil : line = []
  · subst hnil
    cases hkind : lineOfOctets [] <;> simp [readBlock, hkind]
  · rw [readBlock_line tail first length [] _ h hnil, List.append_nil]
    cases hkind : lineOfOctets line <;> simp [readBlock, hkind]

end ColorMarks.Frame
