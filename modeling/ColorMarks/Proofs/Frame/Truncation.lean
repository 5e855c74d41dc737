import ColorMarks.Proofs.Frame.Announcement
import ColorMarks.Proofs.Json.RoundTrip

/-!
# Frames that are cut off

A frame that the end of the stream cuts off is an error, and one of an early end wherever the cut falls,
but for two places: behind the colon of its header and behind the blank after it the line is taken for a
header whose length is no number.
-/

namespace ColorMarks.Frame

open Decimal (digitsOf)
open Text (octets trim)

/-- The beginnings of a frame whose header has its colon and no digit yet. -/
def LacksNumber (part : List UInt8) : Prop :=
  part = octets (lengthName ++ ":") ∨ part = octets (lengthName ++ ": ")

/-- The errors of a frame of which the stream has this part only. -/
inductive CutOff (part : List UInt8) : IoError → Prop
  | lacksNumber (h : LacksNumber part) : CutOff part (.badLength "")
  | ended {e : IoError} (h : ¬ LacksNumber part) (hkind : e.kind = .unexpectedEof) : CutOff part e

/-! ## A header line that is cut off -/

/-- A line without line feeds and carriage returns goes by the value that it gives the length. -/
theorem lineOfOctets_plain {cs : List Char} (hne : cs ≠ []) (hfeed : '\n' ∉ cs) (hreturn : '\r' ∉ cs) :
    lineOfOctets (octets (String.ofList cs)) =
      match lengthValue? cs with
      | none => .other
      | some value =>
        match Text.nat64? value.toList with
        | some n => .length n
        | none => .bad (.badLength value) := by
  obtain ⟨c, hc⟩ := List.exists_mem_of_ne_nil cs hne
  have hspoken : ∃ c ∈ cs, c ≠ '\r' := ⟨c, hc, fun heq => hreturn (heq ▸ hc)⟩
  have hline := lineOfOctets_header ⟨String.ofList cs, by simpa using hfeed, by simpa using hspoken⟩
  simp only [Header.value?, Header.text, String.toList_ofList, trimReturns_of_not_mem hreturn] at hline
  exact hline

/-- A line without a colon is a header that counts for nothing. -/
theorem lineOfOctets_of_no_colon {cs : List Char} (hne : cs ≠ []) (hfeed : '\n' ∉ cs)
    (hreturn : '\r' ∉ cs) (hcolon : ':' ∉ cs) : lineOfOctets (octets (String.ofList cs)) = .other := by
  rw [lineOfOctets_plain hne hfeed hreturn, lengthValue?, Text.cut?_of_not_mem hcolon]
  rfl

/-- A header of the length says the number behind its colon, or that there is none. -/
theorem lineOfOctets_lengthHeader {cs : List Char} (hfeed : '\n' ∉ cs) (hreturn : '\r' ∉ cs) :
    lineOfOctets (octets (String.ofList (lengthName.toList ++ ':' :: cs))) =
      match Text.nat64? (trim cs) with
      | some n => .length n
      | none => .bad (.badLength (String.ofList (trim cs))) := by
  have hnotin {c : Char} (hcs : c ∉ cs) (hname : c ∉ lengthName.toList ++ [':']) :
      c ∉ lengthName.toList ++ ':' :: cs := by
    intro hmem
    rw [List.append_cons, List.mem_append] at hmem
    exact hmem.elim hname hcs
  have hvalue : lengthValue? (lengthName.toList ++ ':' :: cs) = some (String.ofList (trim cs)) :=
    lengthValue?_eq_some_iff.2 (.mk (by decide) (by decide))
  have hline := lineOfOctets_plain (by simp) (hnotin hfeed (by decide)) (hnotin hreturn (by decide))
  simp only [hvalue, String.toList_ofList] at hline
  exact hline

/-- The first digits of a number of 64 bits are such a number. -/
theorem exists_lineOfOctets_digits {n : Nat} (h : n < twoTo 64) {ds es : List Char} (hne : ds ≠ [])
    (hds : digitsOf n = ds ++ es) :
    ∃ m, lineOfOctets (octets (String.ofList (lengthName.toList ++ ':' :: ' ' :: ds))) = .length m := by
  have hdigit : ∀ c ∈ ds, c.isDigit = true := fun c hc =>
    Text.isDigit_of_mem_digitsOf (by rw [hds]; exact List.mem_append_left es hc)
  have hle := Text.ofDigitChars_le_of_append hds
  have hnumber : Text.nat64? ds = some (Nat.ofDigitChars 10 ds 0) :=
    Text.nat64?_eq_some_iff.2 ⟨.plain hne hdigit, Nat.lt_of_le_of_lt hle h⟩
  have hvalue : trim (' ' :: ds) = ds :=
    Text.trim_of_not_isBlank fun c hc => Text.not_isBlank_of_isDigit (hdigit c hc)
  have hnotin : ∀ c : Char, c.isDigit = false → c ≠ ' ' → c ∉ ' ' :: ds := by
    intro c hc hblank hmem
    rcases List.mem_cons.1 hmem with rfl | hmem
    · exact hblank rfl
    · rw [hdigit c hmem] at hc
      cases hc
  refine ⟨Nat.ofDigitChars 10 ds 0, ?_⟩
  rw [lineOfOctets_lengthHeader (hnotin '\n' (by decide) (by decide))
    (hnotin '\r' (by decide) (by decide)), hvalue, hnumber]

/-- A line that is cut off behind its first digit says a number. -/
theorem exists_lineOfOctets_number {n : Nat} (h : n < twoTo 64) {ds es : List Char} (hne : ds ≠ [])
    (hds : digitsOf n ++ ['\r'] = ds ++ es) :
    ∃ m, lineOfOctets (octets (String.ofList (lengthName.toList ++ ':' :: ' ' :: ds))) = .length m := by
  rcases List.append_eq_append_iff.1 hds with ⟨later, rfl, hlater⟩ | ⟨later, hdigits, -⟩
  · match later, hlater with
    | [], _ =>
      have hwhole : digitsOf n = (digitsOf n ++ []) ++ [] := by simp
      exact exists_lineOfOctets_digits h hne hwhole
    | [c], hlater =>
      obtain ⟨rfl, -⟩ := List.cons_eq_cons.1 hlater
      refine ⟨n, ?_⟩
      rw [← toList_lengthLine, String.ofList_toList]
      exact lineOfOctets_lengthLine h
  · exact exists_lineOfOctets_digits h hne hdigits

/-- The name of the length has no character in it that has a meaning in a line. -/
theorem not_mem_of_lengthName {cs later : List Char} (h : lengthName.toList = cs ++ later) :
    '\n' ∉ cs ∧ '\r' ∉ cs ∧ ':' ∉ cs := by
  have hplain {c : Char} (hc : c ∉ lengthName.toList) : c ∉ cs := by
    intro hmem
    rw [h] at hc
    exact hc (List.mem_append_left later hmem)
  exact ⟨hplain (by decide), hplain (by decide), hplain (by decide)⟩

/-- Only a line that is cut off between its colon and its digits is no header. -/
theorem lineOfOctets_cut {n : Nat} (h : n < twoTo 64) {cs es : List Char} (hne : cs ≠ [])
    (hcs : (lengthLine n).toList = cs ++ es) :
    LacksNumber (octets (String.ofList cs)) ∧
        lineOfOctets (octets (String.ofList cs)) = .bad (.badLength "") ∨
      ¬ LacksNumber (octets (String.ofList cs)) ∧ IsHeader (octets (String.ofList cs)) := by
  have hlacks : LacksNumber (octets (String.ofList cs)) ↔
      cs = lengthName.toList ++ [':'] ∨ cs = lengthName.toList ++ [':', ' '] := by
    have hinj (t : String) : octets (String.ofList cs) = octets t ↔ cs = t.toList := by
      rw [Text.octets_inj, ← String.toList_inj, String.toList_ofList]
    rw [LacksNumber, hinj, hinj, String.toList_append, String.toList_append]
    rfl
  rw [hlacks]
  rw [toList_lengthLine] at hcs
  rcases List.append_eq_append_iff.1 hcs with ⟨later, rfl, hlater⟩ | ⟨later, hpart, -⟩
  · -- the cut falls behind the name
    match later, hlater with
    | [], _ =>
      rw [List.append_nil] at hne ⊢
      obtain ⟨hfeed, hreturn, hcolon⟩ := not_mem_of_lengthName (List.append_nil lengthName.toList).symm
      exact .inr ⟨by decide, .inl (lineOfOctets_of_no_colon hne hfeed hreturn hcolon)⟩
    | [c], hlater =>
      obtain ⟨rfl, -⟩ := List.cons_eq_cons.1 hlater
      exact .inl ⟨.inl rfl, lineOfOctets_lengthHeader (by simp) (by simp)⟩
    | [c, d], hlater =>
      simp only [List.cons_append, List.cons.injEq] at hlater
      obtain ⟨rfl, rfl, -⟩ := hlater
      exact .inl ⟨.inr rfl, lineOfOctets_lengthHeader (by decide) (by decide)⟩
    | c :: d :: digit :: digits, hlater =>
      simp only [List.cons_append, List.cons.injEq] at hlater
      obtain ⟨rfl, rfl, hdigits⟩ := hlater
      exact .inr ⟨by simp, .inr (exists_lineOfOctets_number h (by simp) hdigits)⟩
  · -- the cut falls into the name
    obtain ⟨hfeed, hreturn, hcolon⟩ := not_mem_of_lengthName hpart
    refine .inr ⟨?_, .inl (lineOfOctets_of_no_colon hne hfeed hreturn hcolon)⟩
    rintro (rfl | rfl) <;> exact hcolon (by simp)

/-! ## A frame that is cut off -/

/-- The characters of a beginning of the line stand for its octets. -/
theorem exists_chars_of_octets {n : Nat} {part later : List UInt8}
    (h : octets (lengthLine n) = part ++ later) :
    ∃ cs es, (lengthLine n).toList = cs ++ es ∧ part = octets (String.ofList cs) := by
  have hascii := toNat_lt_of_mem_lengthLine n
  rw [← String.ofList_toList (s := lengthLine n), Text.octets_ascii hascii] at h
  obtain ⟨cs, es, hcs, rfl, -⟩ := List.map_eq_append_iff.1 h
  refine ⟨cs, es, hcs, ?_⟩
  exact (Text.octets_ascii fun c hc => hascii c (by rw [hcs]; exact List.mem_append_left es hc)).symm

/-- A line that the end of the stream cuts off. -/
theorem read_cut_line {n : Nat} (h : n < twoTo 64) {part later : List UInt8} (hne : part ≠ [])
    (hline : octets (lengthLine n) = part ++ later) :
    ∃ e, read .closed part = .failed e [] ∧ CutOff part e := by
  have hfeed : (10 : UInt8) ∉ part := fun hmem =>
    not_mem_octets_lengthLine n (by rw [hline]; exact List.mem_append_left later hmem)
  obtain ⟨cs, es, hcs, rfl⟩ := exists_chars_of_octets hline
  have hcs' : cs ≠ [] := by
    rintro rfl
    exact hne Text.octets_empty
  rcases lineOfOctets_cut h hcs' hcs with ⟨hlacks, hbad⟩ | ⟨hlacks, hheader⟩
  · exact ⟨_, read_of_ends (.badLength (.mk (.nil _) (.last hfeed hne)) hbad), .lacksNumber hlacks⟩
  · have hends : Headers (octets (String.ofList cs)) [octets (String.ofList cs)] [] :=
      .cons (.last hfeed hne) hheader (.nil _)
    exact ⟨_, read_of_ends (.endInHeaders hends (by simp)), .ended hlacks rfl⟩

/-- A frame that the end of the stream cuts off. -/
theorem read_cut {v : Json} (hfit : (octets v.text).length < bodyLimit) {part missing : List UInt8}
    (hpart : part ≠ []) (hmissing : missing ≠ []) (h : part ++ missing = write v) :
    ∃ e, read .closed part = .failed e [] ∧ CutOff part e := by
  have hbody : 0 < (octets v.text).length :=
    List.length_pos_iff.2 (Text.octets_ne_nil (Json.text_ne_empty v))
  have hfeed := not_mem_octets_lengthLine (octets v.text).length
  have hlength := lineOfOctets_lengthLine (lt_twoTo_of_lt_bodyLimit hfit)
  have hcut := @read_cut_line _ (lt_twoTo_of_lt_bodyLimit hfit)
  rw [write_eq] at h
  generalize octets (lengthLine (octets v.text).length) = line at h hfeed hlength hcut
  have hlacks (more : List UInt8) : ¬ LacksNumber (line ++ 10 :: more) := by
    have hmem : (10 : UInt8) ∈ line ++ 10 :: more := by simp
    rintro (heq | heq) <;> exact Text.not_mem_octets_of_unbroken (by decide) (heq ▸ hmem)
  have hheader {bytes rest : List UInt8} (hfirst : Line bytes line rest) : Headers bytes [line] rest :=
    .cons hfirst (.inr ⟨_, hlength⟩) (.nil rest)
  have hannounced : announced [line] = some (octets v.text).length := by
    simp [announced, hlength, HeaderLine.length?]
  rcases List.append_eq_append_iff.1 h with ⟨later, hpre, -⟩ | ⟨taken, rfl, htaken⟩
  · exact hcut hpart hpre
  -- the cut falls behind the line: at once, behind its feed, before the second feed or in the body
  rcases taken with _ | ⟨b, _ | ⟨c, _ | ⟨d, taken⟩⟩⟩
  · rw [List.append_nil] at hpart ⊢
    exact hcut hpart (List.append_nil _).symm
  · obtain ⟨rfl, -⟩ := List.cons_eq_cons.1 htaken
    have hfirst : Line (line ++ [10]) line [] := .fed hfeed
    exact ⟨_, read_of_ends (.endInHeaders (hheader hfirst) (by simp)), .ended (hlacks []) rfl⟩
  · simp only [List.cons_append, List.cons.injEq] at htaken
    obtain ⟨rfl, rfl, -⟩ := htaken
    have hblock : HeaderBlock (line ++ [10, 13]) [line] [] :=
      .mk (.mk (hheader (.fed hfeed)) (.last (by decide) (by simp))) (by simp)
    exact ⟨_, read_of_ends (.endInBody hblock hannounced hfit hbody), .ended (hlacks [13]) rfl⟩
  · simp only [List.cons_append, List.cons.injEq] at htaken
    obtain ⟨rfl, rfl, rfl, htext⟩ := htaken
    have hshort : taken.length < (octets v.text).length := by
      have hlengths := congrArg List.length htext
      have hpositive := List.length_pos_iff.2 hmissing
      rw [List.length_append] at hlengths
      omega
    have hblank : Line ([13] ++ 10 :: taken) [13] taken := .fed (by decide)
    have hblock : HeaderBlock (line ++ 10 :: 13 :: 10 :: taken) [line] taken :=
      .mk (.mk (hheader (.fed hfeed)) hblank) (by simp)
    exact ⟨_, read_of_ends (.endInBody hblock hannounced hfit hshort), .ended (hlacks _) rfl⟩

/--
A frame that is cut off is an error of an early end exactly if its header does not stop between its colon
and its number. There it is the error of a length that is no number.
-/
theorem truncated_frame (v : Json) (hfit : (octets v.text).length < bodyLimit)
    (part missing : List UInt8) (hpart : part ≠ []) (hmissing : missing ≠ [])
    (h : part ++ missing = write v) :
    ∃ e, read .closed part = .failed e [] ∧ (e.kind = .unexpectedEof ↔ ¬ LacksNumber part) ∧
      (LacksNumber part → e = .badLength "") := by
  obtain ⟨e, hread, hcut⟩ := read_cut hfit hpart hmissing h
  refine ⟨e, hread, ?_⟩
  cases hcut with
  | lacksNumber hlacks => exact ⟨iff_of_false (by decide) fun hnot => hnot hlacks, fun _ => rfl⟩
  | ended hlacks hkind => exact ⟨iff_of_true hkind hlacks, fun hnot => absurd hnot hlacks⟩

theorem write_null : write .null = octets "Content-Length: 4\r\n\r\nnull" := by decide +kernel

/-- The frame of `null` without its last byte. -/
theorem truncated_frame_in_body :
    ∃ e, read .closed (octets "Content-Length: 4\r\n\r\nnul") = .failed e [] ∧
      (e.kind = .unexpectedEof ↔ ¬ LacksNumber (octets "Content-Length: 4\r\n\r\nnul")) ∧
      (LacksNumber (octets "Content-Length: 4\r\n\r\nnul") → e = .badLength "") := by
  have hfit : (octets Json.null.text).length < bodyLimit := by
    rw [Json.text, Text.octets_ofList]
    decide
  refine truncated_frame .null hfit _ (octets "l") ?_ ?_ ?_
  · exact Text.octets_ne_nil (by decide)
  · exact Text.octets_ne_nil (by decide)
  · rw [write_null, ← Text.octets_append]
    rfl

/-- A frame that is cut off before its number is malformed data. -/
theorem badLength_before_number :
    read .closed (octets "Content-Length: ") = .failed (.badLength "") [] ∧
    ¬ ∀ (v : Json) (part missing : List UInt8), part ≠ [] → missing ≠ [] → part ++ missing = write v →
      ∃ e, read .closed part = .failed e [] ∧ e.kind = .unexpectedEof := by
  have hread : read .closed (octets "Content-Length: ") = .failed (.badLength "") [] := by
    have hline : Line (octets "Content-Length: ") (octets "Content-Length: ") [] :=
      .last (Text.not_mem_octets_of_unbroken (by decide)) (Text.octets_ne_nil (by decide))
    exact read_of_ends (.badLength (.mk (.nil _) hline) (lineOfOctets_lengthHeader (by decide) (by decide)))
  refine ⟨hread, ?_⟩
  intro h
  obtain ⟨e, hfailed, hkind⟩ := h .null (octets "Content-Length: ") (octets "4\r\n\r\nnull")
    (Text.octets_ne_nil (by decide)) (Text.octets_ne_nil (by decide))
    (by rw [write_null, ← Text.octets_append]; rfl)
  rw [hread] at hfailed
  cases hfailed
  cases hkind

end ColorMarks.Frame
