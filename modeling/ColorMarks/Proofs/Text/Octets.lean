import ColorMarks.Text.Utf8

/-!
# The octets of a text

A text is read back from its octets, octets of texts that are joined are joined, and a text of ASCII
characters has one octet a character.
-/

namespace ColorMarks.Text

/-- The loop behind `ByteArray.toList` adds the bytes from its index on. -/
theorem toList_loop_eq_drop (bs : ByteArray) (n i : Nat) (r : List UInt8)
    (h : i + n = bs.size) :
    ByteArray.toList.loop bs i r = r.reverse ++ bs.data.toList.drop i := by
  induction n generalizing i r with
  | zero =>
    rw [ByteArray.toList.loop, if_neg (by omega), List.drop_eq_nil_of_le, List.append_nil]
    rw [Array.length_toList]
    exact Nat.le_of_eq h.symm
  | succ n ih =>
    have hi : i < bs.data.size := by
      have : bs.data.size = bs.size := rfl
      omega
    have hget : bs.get! i = bs.data.toList[i] := by
      rw [Array.getElem_toList]
      exact getElem!_pos bs.data i hi
    have hdrop : bs.data.toList.drop i = bs.get! i :: bs.data.toList.drop (i + 1) := by
      rw [hget]
      exact List.drop_eq_getElem_cons (by simpa using hi)
    rw [ByteArray.toList.loop, if_pos (by omega), ih (i + 1) _ (by omega), hdrop,
      List.reverse_cons, List.append_assoc, List.singleton_append]

theorem octets_eq (s : String) : octets s = s.toByteArray.data.toList := by
  rw [octets, String.toUTF8_eq_toByteArray, ByteArray.toList,
    toList_loop_eq_drop _ _ 0 [] (Nat.zero_add _)]
  rfl

@[simp] theorem octets_append (s t : String) : octets (s ++ t) = octets s ++ octets t := by
  rw [octets_eq, octets_eq, octets_eq, String.toByteArray_append, ByteArray.toList_data_append]

/-- A text is what its octets say. -/
@[simp] theorem ofOctets?_octets (s : String) : ofOctets? (octets s) = some s := by
  have hbytes : ByteArray.mk (octets s).toArray = s.toByteArray := by rw [octets_eq]
  rw [ofOctets?, hbytes, String.fromUTF8?, dif_pos s.isValidUTF8]
  rfl

theorem octets_of_ofOctets? {bs : List UInt8} {s : String} (h : ofOctets? bs = some s) :
    octets s = bs := by
  rw [ofOctets?, String.fromUTF8?] at h
  split at h
  · obtain rfl := Option.some.inj h
    rw [octets_eq]
    rfl
  · cases h

theorem octets_ofList (cs : List Char) :
    octets (String.ofList cs) = cs.flatMap String.utf8EncodeChar := by
  rw [octets_eq, String.toByteArray_ofList, List.utf8Encode, List.toList_data_toByteArray]

/-- The octet of an ASCII character is its number. -/
theorem octets_ascii {cs : List Char} (h : ∀ c ∈ cs, c.toNat < 128) :
    octets (String.ofList cs) = cs.map fun c => c.toNat.toUInt8 := by
  rw [octets_ofList]
  induction cs with
  | nil => rfl
  | cons c cs ih =>
    have hc : c.val.toNat ≤ 0x7f := Nat.le_of_lt_succ (h c List.mem_cons_self)
    have hencode : String.utf8EncodeChar c = [c.toNat.toUInt8] := by
      simp only [String.utf8EncodeChar]
      rw [if_pos hc]
      rfl
    rw [List.flatMap_cons, hencode, ih fun c hc => h c (List.mem_cons_of_mem _ hc)]
    rfl

theorem octets_singleton {c : Char} (h : c.toNat < 128) :
    octets (String.singleton c) = [c.toNat.toUInt8] := by
  rw [String.singleton_eq_ofList, octets_ascii (by simpa using h), List.map_singleton]

/-- The character of an ASCII number has this number. -/
theorem toNat_ofNat {n : Nat} (h : n < 128) : (Char.ofNat n).toNat = n := by
  have hvalid : n.isValidChar := Or.inl (by omega)
  rw [Char.ofNat, dif_pos hvalid]
  rfl

/-- An octet below 128 stands for nothing but its own character. -/
theorem toNat_eq_of_mem_utf8EncodeChar {c : Char} {b : UInt8} (hb : b.toNat < 128)
    (h : b ∈ String.utf8EncodeChar c) : c.toNat = b.toNat := by
  have hc : c.toNat = c.val.toNat := rfl
  simp only [String.utf8EncodeChar] at h
  split at h
  · obtain rfl := List.mem_singleton.1 h
    rw [UInt8.toNat_ofNat', hc]
    omega
  · -- every octet of a longer sequence has its highest bit
    have hhigh : 128 ≤ b.toNat := by
      split at h
      · simp only [List.mem_cons, List.not_mem_nil, or_false] at h
        rcases h with rfl | rfl <;> rw [UInt8.toNat_ofNat'] <;> omega
      · split at h
        · simp only [List.mem_cons, List.not_mem_nil, or_false] at h
          rcases h with rfl | rfl | rfl <;> rw [UInt8.toNat_ofNat'] <;> omega
        · simp only [List.mem_cons, List.not_mem_nil, or_false] at h
          rcases h with rfl | rfl | rfl | rfl <;> rw [UInt8.toNat_ofNat'] <;> omega
    omega

/-- The octet of an ASCII character that a text does not have is none of its octets. -/
theorem not_mem_octets {s : String} {c : Char} (hascii : c.toNat < 128) (h : c ∉ s.toList) :
    c.toNat.toUInt8 ∉ octets s := by
  have hnumber : c.toNat.toUInt8.toNat = c.toNat := by
    rw [Nat.toUInt8_eq, UInt8.toNat_ofNat']
    omega
  intro hmem
  rw [← String.ofList_toList (s := s), octets_ofList] at hmem
  obtain ⟨d, hd, hb⟩ := List.mem_flatMap.1 hmem
  have hnat : d.toNat = c.toNat.toUInt8.toNat :=
    toNat_eq_of_mem_utf8EncodeChar (by rwa [hnumber]) hb
  obtain rfl : d = c := Char.toNat_inj.1 (hnat.trans hnumber)
  exact h hd

/-- A text without a line feed has none among its octets. -/
theorem not_mem_octets_of_unbroken {s : String} (h : '\n' ∉ s.toList) : (10 : UInt8) ∉ octets s :=
  not_mem_octets (c := '\n') (by decide) h

theorem octets_inj {s t : String} : octets s = octets t ↔ s = t := by
  constructor
  · intro h
    exact Option.some.inj (by rw [← ofOctets?_octets s, ← ofOctets?_octets t, h])
  · exact congrArg octets

@[simp] theorem octets_empty : octets "" = [] := octets_ofList []

/-- A text that is not empty has octets. -/
theorem octets_ne_nil {s : String} (h : s ≠ "") : octets s ≠ [] := by
  intro hnil
  exact h (octets_inj.1 (hnil.trans octets_empty.symm))

end ColorMarks.Text
