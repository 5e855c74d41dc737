import ColorMarks.Proofs.Frame.Consumption
import ColorMarks.Proofs.Text.Case
import ColorMarks.Proofs.Text.Numeral

/-!
# What a block of headers announces

Of the lines of a header block only those count whose name is that of the length: the first of them
whose value is no number of 64 bits is an error, and if there is none the last of them is the length.
All other lines, and the carriage returns at the ends of the lines, may be anything.
-/

namespace ColorMarks.Frame

open Text (Unsigned cut? equalIgnoringCase octets trim)

/-- A header line without its line feed: a text, and not of carriage returns alone. -/
structure Header where
  line : String
  unbroken : '\n' ∉ line.toList
  spoken : ∃ c ∈ line.toList, c ≠ '\r'

/--
A header of the name of the length, in letters of either case and with any blanks around it, and its
value, which is what stands behind the first colon, without the blanks around it (`givesLength_iff`).
-/
inductive GivesLength : List Char → String → Prop
  | mk {name value : List Char} (hcolon : ':' ∉ name)
      (hname : equalIgnoringCase (String.ofList (trim name)) lengthName = true) :
      GivesLength (name ++ ':' :: value) (String.ofList (trim value))

/-- A header of the name of the length. -/
def IsLengthHeader (text : List Char) : Prop := ∃ value, GivesLength text value

/-- A value that is a number of 64 bits. -/
def IsLength (value : String) (n : Nat) : Prop := Unsigned value.toList n ∧ n < twoTo 64

/-- What the values of the length headers of a block announce together. -/
inductive Announces : List String → Except IoError Nat → Prop
  | missing : Announces [] (.error .missingLength)
  | bad {before after : List String} {value : String} (hbefore : ∀ v ∈ before, ∃ n, IsLength v n)
      (hbad : ∀ n, ¬ IsLength value n) :
      Announces (before ++ value :: after) (.error (.badLength value))
  | length {before : List String} {value : String} {n : Nat}
      (hbefore : ∀ v ∈ before, ∃ n, IsLength v n) (h : IsLength value n) :
      Announces (before ++ [value]) (.ok n)

/-- How a reading goes on from what the headers announce: with the body, or as malformed data. -/
inductive GoesOn (tail : Tail) (rest : List UInt8) : Except IoError Nat → Reading → Prop
  | body (n : Nat) : GoesOn tail rest (.ok n) (readBody tail n rest)
  | failed {e : IoError} (hkind : e.kind = .invalidData) (left : List UInt8) :
      GoesOn tail rest (.error e) (.failed e left)

/-- The value of a header of the length. -/
def lengthValue? (text : List Char) : Option String :=
  (cut? ':' text).bind fun (name, value) =>
    if equalIgnoringCase (String.ofList (trim name)) lengthName then some (String.ofList (trim value))
    else none

namespace Header

/-- The text of a header without the carriage returns at its end. -/
def text (h : Header) : List Char := trimReturns h.line.toList

/-- The value of the header, if it is one of the length. -/
def value? (h : Header) : Option String := lengthValue? h.text

/-- The bytes of the line, with its line feed. -/
def bytes (h : Header) : List UInt8 := octets h.line ++ [10]

end Header

/-- The bytes of some headers and of the blank line behind them, which may hold carriage returns. -/
def block (headers : List Header) (returns : Nat) : List UInt8 :=
  headers.flatMap Header.bytes ++ (List.replicate returns 13 ++ [10])

/-! ## What one header says -/

theorem lengthValue?_eq_some_iff {text : List Char} {value : String} :
    lengthValue? text = some value ↔ GivesLength text value := by
  rw [lengthValue?, Option.bind_eq_some_iff]
  constructor
  · rintro ⟨⟨name, rest⟩, hcut, hvalue⟩
    obtain ⟨hcolon, rfl⟩ := Text.cut?_eq_some_iff.1 hcut
    obtain ⟨hname, hrest⟩ := Option.ite_none_right_eq_some.1 hvalue
    obtain rfl := Option.some.inj hrest
    exact .mk hcolon hname
  · rintro ⟨hcolon, hname⟩
    exact ⟨_, Text.cut?_append_cons hcolon _, if_pos hname⟩

/-- The name is read letter by letter. -/
theorem givesLength_iff {text : List Char} {value : String} :
    GivesLength text value ↔ ∃ name rest, text = name ++ ':' :: rest ∧ ':' ∉ name ∧
      List.Forall₂ Text.SameLetter (trim name) "Content-Length".toList ∧
      value = String.ofList (trim rest) := by
  constructor
  · rintro ⟨hcolon, hname⟩
    rw [Text.equalIgnoringCase_iff, String.toList_ofList] at hname
    exact ⟨_, _, rfl, hcolon, hname, rfl⟩
  · rintro ⟨name, rest, rfl, hcolon, hname, rfl⟩
    refine .mk hcolon ?_
    rwa [Text.equalIgnoringCase_iff, String.toList_ofList]

theorem isSome_lengthValue?_iff {text : List Char} :
    (lengthValue? text).isSome = true ↔ IsLengthHeader text := by
  rw [Option.isSome_iff_exists]
  exact exists_congr fun _ => lengthValue?_eq_some_iff

instance (text : List Char) : Decidable (IsLengthHeader text) :=
  decidable_of_iff _ isSome_lengthValue?_iff

theorem nat64?_eq_some_iff_isLength {value : String} {n : Nat} :
    Text.nat64? value.toList = some n ↔ IsLength value n := Text.nat64?_eq_some_iff

theorem nat64?_eq_none_iff {value : String} :
    Text.nat64? value.toList = none ↔ ∀ n, ¬ IsLength value n := by
  simp only [Option.eq_none_iff_forall_ne_some, ne_eq, nat64?_eq_some_iff_isLength]

/-- A header of another name says nothing, one of the length says its value. -/
theorem lineOfOctets_header (h : Header) :
    lineOfOctets (octets h.line) =
      match h.value? with
      | none => .other
      | some value =>
        match Text.nat64? value.toList with
        | some n => .length n
        | none => .bad (.badLength value) := by
  rw [lineOfOctets_of_ofOctets? (Text.ofOctets?_octets h.line), Header.value?, Header.text, headerLine]
  split
  · rename_i hnil
    obtain ⟨c, hc, hreturn⟩ := h.spoken
    exact absurd (trimReturns_eq_nil_iff.1 hnil c hc) hreturn
  · rw [lengthValue?]
    cases cut? ':' (trimReturns h.line.toList) with
    | none => rfl
    | some parts =>
      by_cases hname : equalIgnoringCase (String.ofList (trim parts.1)) lengthName = true
      · cases hnumber : Text.nat64? (trim parts.2) <;> simp [hname, hnumber]
      · simp [hname]

/-- Reading a header goes by what it says. -/
theorem readBlock_header (tail : Tail) (first : Bool) (length : Option Nat) (h : Header)
    (rest : List UInt8) :
    readBlock tail first length [] (h.bytes ++ rest) =
      match lineOfOctets (octets h.line) with
      | .blank => .headers length rest
      | .length n => readBlock tail false (some n) [] rest
      | .other => readBlock tail false length [] rest
      | .bad e => .failed e rest := by
  have hfeed := Text.not_mem_octets_of_unbroken h.unbroken
  rw [Header.bytes, List.append_assoc, List.singleton_append]
  exact readBlock_fed tail first length hfeed rest

/-- The blank line ends the block, with carriage returns or without. -/
theorem readBlock_returns (tail : Tail) (first : Bool) (length : Option Nat) (returns : Nat)
    (rest : List UInt8) :
    readBlock tail first length [] (List.replicate returns 13 ++ 10 :: rest) =
      .headers length rest := by
  have hblank : lineOfOctets (List.replicate returns 13) = .blank :=
    lineOfOctets_eq_blank_iff.2 fun b hb => List.eq_of_mem_replicate hb
  have hfeed : (10 : UInt8) ∉ List.replicate returns 13 := by
    intro hmem
    exact absurd (List.eq_of_mem_replicate hmem) (by decide)
  rw [readBlock_fed tail first length hfeed, hblank]

/-! ## What the headers say together -/

/-- As long as every value is a number, the last of them is kept. -/
theorem readBlock_headers (tail : Tail) (first : Bool) (length : Option Nat) {headers : List Header}
    (h : ∀ v ∈ headers.filterMap Header.value?, ∃ n, IsLength v n) (rest : List UInt8) :
    readBlock tail first length [] (headers.flatMap Header.bytes ++ rest) =
      readBlock tail (first && headers.isEmpty)
        (((headers.filterMap Header.value?).getLast?.bind fun v => Text.nat64? v.toList).or length)
        [] rest := by
  induction headers generalizing first length with
  | nil => simp
  | cons header headers ih =>
    rw [List.flatMap_cons, List.append_assoc, readBlock_header, lineOfOctets_header,
      List.isEmpty_cons, Bool.and_false]
    cases hvalue : header.value? with
    | none =>
      rw [List.filterMap_cons_none hvalue] at h ⊢
      simp only []
      rw [ih false length h, Bool.false_and]
    | some value =>
      rw [List.filterMap_cons_some hvalue] at h ⊢
      obtain ⟨n, hn⟩ := h value List.mem_cons_self
      have hrest := fun v hv => h v (List.mem_cons_of_mem value hv)
      simp only [nat64?_eq_some_iff_isLength.2 hn]
      rw [ih false (some n) hrest, Bool.false_and, List.getLast?_cons]
      cases hlast : (headers.filterMap Header.value?).getLast? with
      | none => simp [nat64?_eq_some_iff_isLength.2 hn]
      | some last =>
        obtain ⟨m, hm⟩ := hrest last (List.mem_of_getLast? hlast)
        simp [nat64?_eq_some_iff_isLength.2 hm]

/-- Whatever the values are, they announce something. -/
theorem exists_announces (values : List String) : ∃ o, Announces values o := by
  induction values with
  | nil => exact ⟨_, .missing⟩
  | cons value values ih =>
    by_cases hvalue : ∃ n, IsLength value n
    · have hcons {before : List String} (hbefore : ∀ v ∈ before, ∃ n, IsLength v n) :
          ∀ v ∈ value :: before, ∃ n, IsLength v n := by
        intro v hv
        rcases List.mem_cons.1 hv with rfl | hv
        · exact hvalue
        · exact hbefore v hv
      obtain ⟨o, ho⟩ := ih
      cases ho with
      | missing =>
        obtain ⟨n, hn⟩ := hvalue
        have hlast : Announces ([] ++ [value]) (.ok n) := .length (by simp) hn
        exact ⟨_, hlast⟩
      | bad hbefore hbad => exact ⟨_, .bad (hcons hbefore) hbad⟩
      | length hbefore hlast => exact ⟨_, .length (hcons hbefore) hlast⟩
    · have hfirst : Announces ([] ++ value :: values) (.error (.badLength value)) :=
        .bad (by simp) fun n hn => hvalue ⟨n, hn⟩
      exact ⟨_, hfirst⟩

/-- The first value without a property is found at one place only. -/
theorem eq_of_append_cons {P : String → Prop} {as bs cs ds : List String} {v w : String}
    (has : ∀ x ∈ as, P x) (hv : ¬ P v) (hcs : ∀ x ∈ cs, P x) (hw : ¬ P w)
    (h : as ++ v :: bs = cs ++ w :: ds) : v = w := by
  rcases List.append_eq_append_iff.1 h with ⟨later, rfl, hlater⟩ | ⟨later, rfl, hlater⟩
  · rcases List.cons_eq_append_iff.1 hlater with ⟨-, heq⟩ | ⟨_, rfl, -⟩
    · exact (List.cons_eq_cons.1 heq).1.symm
    · exact absurd (hcs v (by simp)) hv
  · rcases List.cons_eq_append_iff.1 hlater with ⟨-, heq⟩ | ⟨_, rfl, -⟩
    · exact (List.cons_eq_cons.1 heq).1
    · exact absurd (has w (by simp)) hw

theorem IsLength.unique {value : String} {n n' : Nat} (h : IsLength value n) (h' : IsLength value n') :
    n = n' :=
  Option.some.inj ((nat64?_eq_some_iff_isLength.2 h).symm.trans (nat64?_eq_some_iff_isLength.2 h'))

/-- Values announce one thing only. -/
theorem Announces.unique {values : List String} {o o' : Except IoError Nat} (h : Announces values o)
    (h' : Announces values o') : o = o' := by
  cases h with
  | missing =>
    generalize hvalues : ([] : List String) = values at h'
    cases h' with
    | missing => rfl
    | bad => simp at hvalues
    | length => simp at hvalues
  | @bad before after value hbefore hbad =>
    have hnone : ¬ ∃ n, IsLength value n := fun ⟨n, hn⟩ => hbad n hn
    generalize hvalues : before ++ value :: after = values at h'
    cases h' with
    | missing => simp at hvalues
    | bad hbefore' hbad' =>
      rw [eq_of_append_cons hbefore hnone hbefore' (fun ⟨n, hn⟩ => hbad' n hn) hvalues]
    | length hbefore' hlast =>
      have hall := List.forall_mem_append.2 ⟨hbefore', List.forall_mem_singleton.2 ⟨_, hlast⟩⟩
      rw [← hvalues] at hall
      exact absurd (hall value (by simp)) hnone
  | @length before value n hbefore hlast =>
    generalize hvalues : before ++ [value] = values at h'
    cases h' with
    | missing => simp at hvalues
    | @bad before' after' value' hbefore' hbad' =>
      have hall := List.forall_mem_append.2 ⟨hbefore, List.forall_mem_singleton.2 ⟨_, hlast⟩⟩
      rw [hvalues] at hall
      obtain ⟨m, hm⟩ := hall value' (by simp)
      exact absurd hm (hbad' m)
    | length hbefore' hlast' =>
      obtain ⟨-, hvalue⟩ := List.append_inj' hvalues rfl
      rw [List.singleton_inj] at hvalue
      subst hvalue
      rw [hlast.unique hlast']

/-- A block is read as what the values of its length headers announce. -/
theorem goesOn_of_announces {headers : List Header} {o : Except IoError Nat}
    (h : Announces (headers.filterMap Header.value?) o) (tail : Tail) (returns : Nat)
    (rest : List UInt8) : GoesOn tail rest o (read tail (block headers returns ++ rest)) := by
  have hbytes : block headers returns ++ rest =
      headers.flatMap Header.bytes ++ (List.replicate returns 13 ++ 10 :: rest) := by
    simp [block]
  generalize hvalues : headers.filterMap Header.value? = values at h
  cases h with
  | missing =>
    have hblock : readBlock tail true none [] (block headers returns ++ rest) =
        .headers none rest := by
      rw [hbytes, readBlock_headers tail true none (by simp [hvalues]), hvalues, readBlock_returns]
      rfl
    rw [read, hblock]
    exact .failed rfl rest
  | @bad before after value hbefore hbad =>
    obtain ⟨good, later, rfl, hgood, hlater⟩ := List.filterMap_eq_append_iff.1 hvalues
    obtain ⟨silent, header, others, rfl, hsilent, hvalue, -⟩ := List.filterMap_eq_cons_iff.1 hlater
    have hprefix : ∀ v ∈ (good ++ silent).filterMap Header.value?, ∃ n, IsLength v n := by
      rw [List.filterMap_append, hgood, List.filterMap_eq_nil_iff.2 hsilent, List.append_nil]
      exact hbefore
    have hsplit : block (good ++ (silent ++ header :: others)) returns ++ rest =
        (good ++ silent).flatMap Header.bytes ++ (header.bytes ++ (block others returns ++ rest)) := by
      simp [block]
    have hkind : lineOfOctets (octets header.line) = .bad (.badLength value) := by
      simp only [lineOfOctets_header, hvalue, nat64?_eq_none_iff.2 hbad]
    rw [read, hsplit, readBlock_headers tail true none hprefix, readBlock_header, hkind]
    exact .failed rfl _
  | @length before value n hbefore hlast =>
    have hgood : ∀ v ∈ headers.filterMap Header.value?, ∃ n, IsLength v n := by
      intro v hv
      rw [hvalues, List.mem_append, List.mem_singleton] at hv
      rcases hv with hv | rfl
      · exact hbefore v hv
      · exact ⟨n, hlast⟩
    have hblock : readBlock tail true none [] (block headers returns ++ rest) =
        .headers (some n) rest := by
      rw [hbytes, readBlock_headers tail true none hgood, hvalues, readBlock_returns]
      simp [nat64?_eq_some_iff_isLength.2 hlast]
    rw [read, hblock]
    exact .body n

theorem GoesOn.eq_readBody {tail : Tail} {rest : List UInt8} {n : Nat} {r : Reading}
    (h : GoesOn tail rest (.ok n) r) : r = readBody tail n rest := by
  cases h
  rfl

/-- What is announced determines the reading, apart from the bytes that an error leaves. -/
theorem GoesOn.leaving_eq {tail : Tail} {rest : List UInt8} {o : Except IoError Nat} {r r' : Reading}
    (h : GoesOn tail rest o r) (h' : GoesOn tail rest o r') (other : List UInt8) :
    r.leaving other = r'.leaving other := by
  cases h with
  | body n =>
    cases h'
    rfl
  | failed hkind left =>
    cases h'
    rfl

/-- Headers of other names have no values. -/
theorem filterMap_value? (headers : List Header) :
    headers.filterMap Header.value? =
      ((headers.map Header.text).filter (IsLengthHeader ·)).filterMap lengthValue? := by
  have hvalue (text : List Char) :
      (if decide (IsLengthHeader text) = true then lengthValue? text else none) =
        lengthValue? text := by
    simp only [decide_eq_true_iff, ← isSome_lengthValue?_iff]
    cases lengthValue? text <;> rfl
  rw [List.filterMap_filter, List.filterMap_map]
  exact congrArg (List.filterMap · headers) (funext fun header => (hvalue header.text).symm)

/--
The reading of a block of headers goes by the values of its length headers alone. Two blocks with the
same length headers are read alike, whatever other headers stand among these and however many carriage
returns end the lines.
-/
theorem announced_by_length_headers :
    (∀ (header : Header) (value : String), header.value? = some value ↔ GivesLength header.text value) ∧
    (∀ (tail : Tail) (headers : List Header) (returns : Nat) (rest : List UInt8),
      ∃ o, Announces (headers.filterMap Header.value?) o ∧
        GoesOn tail rest o (read tail (block headers returns ++ rest))) ∧
    ∀ (tail : Tail) (headers headers' : List Header) (returns returns' : Nat) (rest : List UInt8),
      (headers.map Header.text).filter (IsLengthHeader ·) =
          (headers'.map Header.text).filter (IsLengthHeader ·) →
        (read tail (block headers returns ++ rest)).leaving [] =
          (read tail (block headers' returns' ++ rest)).leaving [] := by
  refine ⟨fun header value => lengthValue?_eq_some_iff, ?_, ?_⟩
  · intro tail headers returns rest
    obtain ⟨o, ho⟩ := exists_announces (headers.filterMap Header.value?)
    exact ⟨o, ho, goesOn_of_announces ho tail returns rest⟩
  · intro tail headers headers' returns returns' rest hsame
    obtain ⟨o, ho⟩ := exists_announces (headers.filterMap Header.value?)
    have ho' : Announces (headers'.filterMap Header.value?) o := by
      rwa [filterMap_value?, ← hsame, ← filterMap_value?]
    exact (goesOn_of_announces ho tail returns rest).leaving_eq
      (goesOn_of_announces ho' tail returns' rest) []

/-- Two length headers among others, in two spellings of their ends: the last of them counts, and its two
bytes are read. -/
theorem announced_by_two_length_headers :
    let nine : Header := ⟨"Content-Length: 9\r\r", by decide, 'C', by decide, by decide⟩
    let nine' : Header := ⟨"Content-Length: 9", by decide, 'C', by decide, by decide⟩
    let two : Header := ⟨"content-LENGTH : +2", by decide, 'c', by decide, by decide⟩
    let two' : Header := ⟨"content-LENGTH : +2\r", by decide, 'c', by decide, by decide⟩
    let kind : Header := ⟨"Content-Type: x", by decide, 'C', by decide, by decide⟩
    let noise : Header := ⟨"Content-Length", by decide, 'C', by decide, by decide⟩
    let bytes := block [kind, nine, two] 0 ++ [91, 93]
    GivesLength two.text "+2" ∧ ¬ IsLengthHeader kind.text ∧ Announces ["9", "+2"] (.ok 2) ∧
      GoesOn .closed [91, 93] (.ok 2) (read .closed bytes) ∧
      read .closed bytes = .message (.array []) [] ∧
      (read .closed bytes).leaving [] =
        (read .closed (block [nine', noise, two'] 1 ++ [91, 93])).leaving [] := by
  intro nine nine' two two' kind noise bytes
  obtain ⟨hgives, hannounces, hsame⟩ := announced_by_length_headers
  have hnine : IsLength "9" 9 := nat64?_eq_some_iff_isLength.1 (by decide)
  have htwo : IsLength "+2" 2 := nat64?_eq_some_iff_isLength.1 (by decide)
  have hlast : Announces (["9"] ++ ["+2"]) (.ok 2) :=
    .length (List.forall_mem_singleton.2 ⟨9, hnine⟩) htwo
  have hvalues : [kind, nine, two].filterMap Header.value? = ["9", "+2"] := by decide +kernel
  obtain ⟨o, ho, hgoes⟩ := hannounces .closed [kind, nine, two] 0 [91, 93]
  rw [hvalues] at ho
  obtain rfl := ho.unique hlast
  refine ⟨(hgives two "+2").1 (by decide +kernel), by decide +kernel, hlast, hgoes, ?_, ?_⟩
  · rw [hgoes.eq_readBody]
    rfl
  · exact hsame .closed [kind, nine, two] [nine', noise, two'] 0 1 [91, 93] (by decide +kernel)

end ColorMarks.Frame
