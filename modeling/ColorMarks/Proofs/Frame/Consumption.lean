import ColorMarks.Proofs.Frame.Header

/-!
# What a reading takes

A reading of a stream that ends is told by the bytes it begins with (`Ends`): header lines, the blank
line behind them and as many bytes as they announce, as far as the stream has them. So it is known
exactly which bytes a reading takes, and nothing behind them counts. Each reading but the last takes at
least one byte (`read_takes`). A length for which there is no room is told like no other end: nothing is
returned, and the bytes behind the headers are left (`aborted_behind_headers`).
-/

namespace ColorMarks.Frame

open Text (ofOctets?)

/-- The bytes that a reading leaves. -/
def Reading.rest : Reading → List UInt8
  | message _ rest => rest
  | failed _ rest => rest
  | finished => []
  | incomplete => []
  | aborted rest => rest

/-- The same reading with other bytes behind what it took. -/
def Reading.leaving (other : List UInt8) : Reading → Reading
  | message v _ => .message v other
  | failed e _ => .failed e other
  | finished => .finished
  | incomplete => .incomplete
  | aborted _ => .aborted other

/-- What so many readings one after the other leave of some bytes. -/
def leftAfter : Nat → List UInt8 → List UInt8
  | 0, bytes => bytes
  | n + 1, bytes => leftAfter n (read .closed bytes).rest

/-- The length that a header line announces, if it announces one. -/
def HeaderLine.length? : HeaderLine → Option Nat
  | length n => some n
  | _ => none

/-- The length that header lines announce: the last of them that announces one counts. -/
def announced (lines : List (List UInt8)) : Option Nat :=
  (lines.filterMap fun line => (lineOfOctets line).length?).getLast?

/-- A line that goes on with the headers. -/
def IsHeader (line : List UInt8) : Prop :=
  lineOfOctets line = .other ∨ ∃ n, lineOfOctets line = .length n

/-- Bytes, the line that they begin with, and the rest: the line ends with its feed or the stream. -/
inductive Line : List UInt8 → List UInt8 → List UInt8 → Prop
  | fed {line rest : List UInt8} (h : 10 ∉ line) : Line (line ++ 10 :: rest) line rest
  | last {line : List UInt8} (h : 10 ∉ line) (hne : line ≠ []) : Line line line []

/-- Bytes, header lines that they begin with, and the rest. -/
inductive Headers : List UInt8 → List (List UInt8) → List UInt8 → Prop
  | nil (bytes : List UInt8) : Headers bytes [] bytes
  | cons {bytes line mid rest : List UInt8} {lines : List (List UInt8)} (hline : Line bytes line mid)
      (hheader : IsHeader line) (h : Headers mid lines rest) : Headers bytes (line :: lines) rest

/-- Bytes, header lines that they begin with, the line behind these, and the rest. -/
inductive HeadersTo : List UInt8 → List (List UInt8) → List UInt8 → List UInt8 → Prop
  | mk {bytes mid line rest : List UInt8} {lines : List (List UInt8)} (h : Headers bytes lines mid)
      (hline : Line mid line rest) : HeadersTo bytes lines line rest

/-- Bytes, the header lines of the block that they begin with, and the rest behind its blank line. -/
inductive HeaderBlock : List UInt8 → List (List UInt8) → List UInt8 → Prop
  | mk {bytes line rest : List UInt8} {lines : List (List UInt8)}
      (h : HeadersTo bytes lines line rest) (hblank : ∀ b ∈ line, b = 13) :
      HeaderBlock bytes lines rest

/-- How a reading of some bytes ends. -/
inductive Ends (bytes : List UInt8) : Reading → Prop
  | finished (h : bytes = []) : Ends bytes .finished
  | endInHeaders {lines : List (List UInt8)} (h : Headers bytes lines []) (hne : lines ≠ []) :
      Ends bytes (.failed .endInHeaders [])
  | undecodable {line rest : List UInt8} {lines : List (List UInt8)}
      (h : HeadersTo bytes lines line rest) (hbad : ofOctets? line = none) :
      Ends bytes (.failed .undecodable rest)
  | badLength {line rest : List UInt8} {lines : List (List UInt8)} {value : String}
      (h : HeadersTo bytes lines line rest) (hbad : lineOfOctets line = .bad (.badLength value)) :
      Ends bytes (.failed (.badLength value) rest)
  | missingLength {rest : List UInt8} {lines : List (List UInt8)} (h : HeaderBlock bytes lines rest)
      (hlength : announced lines = none) : Ends bytes (.failed .missingLength rest)
  | aborted {rest : List UInt8} {lines : List (List UInt8)} {n : Nat}
      (h : HeaderBlock bytes lines rest) (hlength : announced lines = some n)
      (hlarge : bodyLimit ≤ n) : Ends bytes (.aborted rest)
  | endInBody {rest : List UInt8} {lines : List (List UInt8)} {n : Nat}
      (h : HeaderBlock bytes lines rest) (hlength : announced lines = some n) (hfit : n < bodyLimit)
      (hshort : rest.length < n) : Ends bytes (.failed .endInBody [])
  | malformedBody {body rest : List UInt8} {lines : List (List UInt8)}
      (h : HeaderBlock bytes lines (body ++ rest)) (hlength : announced lines = some body.length)
      (hfit : body.length < bodyLimit) (hbody : (ofOctets? body).bind Json.parse? = none) :
      Ends bytes (.failed .malformedBody rest)
  | message {body rest : List UInt8} {lines : List (List UInt8)} {v : Json}
      (h : HeaderBlock bytes lines (body ++ rest)) (hlength : announced lines = some body.length)
      (hfit : body.length < bodyLimit) (hbody : (ofOctets? body).bind Json.parse? = some v) :
      Ends bytes (.message v rest)

/-! ## What a line says -/

theorem trimReturns_eq_nil_iff {cs : List Char} : trimReturns cs = [] ↔ ∀ c ∈ cs, c = '\r' := by
  rw [trimReturns, List.reverse_eq_nil_iff]
  simp [List.dropWhile_eq_nil_iff]

theorem headerLine_eq_blank_iff {line : List Char} :
    headerLine line = .blank ↔ ∀ c ∈ line, c = '\r' := by
  rw [← trimReturns_eq_nil_iff]
  unfold headerLine
  split
  · rename_i hnil
    simp [hnil]
  · rename_i hne
    constructor
    · intro h
      split at h
      · cases h
      · split at h
        · split at h <;> cases h
        · cases h
    · intro hnil
      exact absurd hnil hne

theorem lineOfOctets_of_ofOctets? {line : List UInt8} {s : String} (h : ofOctets? line = some s) :
    lineOfOctets line = headerLine s.toList := by
  rw [lineOfOctets, h]

/-- The octets of carriage returns are carriage returns. -/
theorem octets_returns {s : String} (h : ∀ c ∈ s.toList, c = '\r') :
    Text.octets s = List.replicate s.toList.length 13 := by
  have hs : s.toList = List.replicate s.toList.length '\r' := List.eq_replicate_iff.2 ⟨rfl, h⟩
  have hascii : ∀ c ∈ s.toList, c.toNat < 128 := by
    intro c hc
    rw [h c hc]
    decide
  have hoctets := Text.octets_ascii hascii
  rw [String.ofList_toList] at hoctets
  rw [hoctets, hs, List.map_replicate, List.length_replicate]
  rfl

/-- A line is blank if there is nothing in it but carriage returns. -/
theorem lineOfOctets_eq_blank_iff {line : List UInt8} :
    lineOfOctets line = .blank ↔ ∀ b ∈ line, b = 13 := by
  constructor
  · intro h
    cases hs : ofOctets? line with
    | none =>
      rw [lineOfOctets, hs] at h
      cases h
    | some s =>
      rw [lineOfOctets_of_ofOctets? hs, headerLine_eq_blank_iff] at h
      rw [← Text.octets_of_ofOctets? hs, octets_returns h]
      intro b hb
      exact List.eq_of_mem_replicate hb
  · intro h
    let s := String.ofList (List.replicate line.length '\r')
    have hchars : ∀ c ∈ s.toList, c = '\r' := by
      intro c hc
      rw [String.toList_ofList] at hc
      exact List.eq_of_mem_replicate hc
    have hline : Text.octets s = line := by
      rw [octets_returns hchars, String.toList_ofList, List.length_replicate]
      exact (List.eq_replicate_iff.2 ⟨rfl, h⟩).symm
    have hs : ofOctets? line = some s := by
      rw [← hline, Text.ofOctets?_octets]
    rw [lineOfOctets_of_ofOctets? hs]
    exact headerLine_eq_blank_iff.2 hchars

/-- A line of text is bad for its length only. -/
theorem exists_badLength_of_headerLine {line : List Char} {e : IoError}
    (h : headerLine line = .bad e) : ∃ value, e = .badLength value := by
  unfold headerLine at h
  split at h
  · cases h
  · split at h
    · cases h
    · split at h
      · split at h
        · cases h
        · cases h
          exact ⟨_, rfl⟩
      · cases h

/-- A line is bad because it is no text or because of its length. -/
theorem bad_cases {line : List UInt8} {e : IoError} (h : lineOfOctets line = .bad e) :
    e = .undecodable ∧ ofOctets? line = none ∨ ∃ value, e = .badLength value := by
  cases hs : ofOctets? line with
  | none =>
    rw [lineOfOctets, hs] at h
    cases h
    exact .inl ⟨rfl, rfl⟩
  | some s =>
    rw [lineOfOctets_of_ofOctets? hs] at h
    exact .inr (exists_badLength_of_headerLine h)

theorem lineOfOctets_of_undecodable {line : List UInt8} (h : ofOctets? line = none) :
    lineOfOctets line = .bad .undecodable := by
  rw [lineOfOctets, h]

/-! ## Lines -/

theorem Line.exists_append {bytes line rest : List UInt8} (h : Line bytes line rest) :
    ∃ taken, bytes = taken ++ rest ∧ taken ≠ [] ∧
      (rest ≠ [] → ∀ other, Line (taken ++ other) line other) := by
  cases h with
  | fed h =>
    refine ⟨line ++ [10], by simp, by simp, ?_⟩
    intro _ other
    rw [List.append_assoc]
    exact .fed h
  | last h hne => exact ⟨bytes, (List.append_nil _).symm, hne, fun hrest => absurd rfl hrest⟩

/-- Bytes begin with a line, if there are any. -/
theorem exists_line {bytes : List UInt8} (h : bytes ≠ []) : ∃ line rest, Line bytes line rest := by
  by_cases hmem : 10 ∈ bytes
  · obtain ⟨line, rest, rfl, hline⟩ := List.eq_append_cons_of_mem hmem
    exact ⟨line, rest, .fed hline⟩
  · exact ⟨bytes, [], .last hmem h⟩

/-- The end of the stream ends a line as well. -/
theorem readBlock_of_line {bytes line rest : List UInt8} (h : Line bytes line rest) (first : Bool)
    (length : Option Nat) :
    readBlock .closed first length [] bytes =
      match lineOfOctets line with
      | .blank => .headers length rest
      | .length n => readBlock .closed false (some n) [] rest
      | .other => readBlock .closed false length [] rest
      | .bad e => .failed e rest := by
  cases h with
  | fed h => exact readBlock_fed .closed first length h rest
  | last h hne =>
    have hline := readBlock_line .closed first length [] [] h hne
    rw [List.append_nil, List.append_nil] at hline
    have hempty : bytes.reverse.isEmpty = false := by simpa using hne
    rw [hline, readBlock]
    simp only [hempty, List.reverse_reverse]
    cases lineOfOctets bytes <;> rfl

/-! ## Header lines -/

theorem Headers.exists_append {bytes rest : List UInt8} {lines : List (List UInt8)}
    (h : Headers bytes lines rest) :
    ∃ taken, bytes = taken ++ rest ∧ (lines ≠ [] → taken ≠ []) ∧
      (rest ≠ [] → ∀ other, Headers (taken ++ other) lines other) := by
  induction h with
  | nil bytes => exact ⟨[], rfl, fun h => absurd rfl h, fun _ => .nil⟩
  | @cons bytes line mid rest lines hline hheader _ ih =>
    obtain ⟨first, rfl, hfirst, hother⟩ := hline.exists_append
    obtain ⟨later, rfl, -, hlater⟩ := ih
    refine ⟨first ++ later, by simp, by simp [hfirst], ?_⟩
    intro hrest other
    rw [List.append_assoc]
    exact .cons (hother (by simp [hrest]) _) hheader (hlater hrest other)

/-- A line of a length counts unless a later one does. -/
theorem announced_cons_or {line : List UInt8} (lines : List (List UInt8)) (length : Option Nat) :
    (announced (line :: lines)).or length =
      (announced lines).or ((lineOfOctets line).length?.or length) := by
  unfold announced
  rw [List.filterMap_cons]
  cases hlength : (lineOfOctets line).length? with
  | none => rfl
  | some n =>
    simp only [List.getLast?_cons]
    cases (lines.filterMap fun line => (lineOfOctets line).length?).getLast? <;> rfl

/-- Header lines are read one after the other, and what they announce is kept. -/
theorem readBlock_of_headers {bytes rest : List UInt8} {lines : List (List UInt8)}
    (h : Headers bytes lines rest) (first : Bool) (length : Option Nat) :
    readBlock .closed first length [] bytes =
      readBlock .closed (first && lines.isEmpty) ((announced lines).or length) [] rest := by
  induction h generalizing first length with
  | nil bytes => simp [announced]
  | @cons bytes line mid rest lines hline hheader _ ih =>
    rw [readBlock_of_line hline, announced_cons_or, List.isEmpty_cons, Bool.and_false]
    rcases hheader with hother | ⟨n, hn⟩
    · simp only [hother]
      rw [ih, Bool.false_and]
      rfl
    · simp only [hn]
      rw [ih, Bool.false_and]
      rfl

/-- Bytes begin with header lines up to their end or to a line of another kind. -/
theorem exists_headers (bytes : List UInt8) :
    ∃ lines mid, Headers bytes lines mid ∧
      (mid = [] ∨ ∃ line rest, Line mid line rest ∧ ¬ IsHeader line) := by
  induction hn : bytes.length using Nat.strongRecOn generalizing bytes with
  | ind n ih =>
    by_cases hnil : bytes = []
    · exact ⟨[], bytes, .nil bytes, .inl hnil⟩
    obtain ⟨line, rest, hline⟩ := exists_line hnil
    by_cases hheader : IsHeader line
    · have hshorter : rest.length < n := by
        obtain ⟨taken, rfl, htaken, -⟩ := hline.exists_append
        have hpositive := List.length_pos_iff.2 htaken
        rw [List.length_append] at hn
        omega
      obtain ⟨lines, mid, hlines, hmid⟩ := ih rest.length hshorter rest rfl
      exact ⟨line :: lines, mid, .cons hline hheader hlines, hmid⟩
    · exact ⟨[], bytes, .nil bytes, .inr ⟨line, rest, hline, hheader⟩⟩

theorem HeadersTo.exists_append {bytes line rest : List UInt8} {lines : List (List UInt8)}
    (h : HeadersTo bytes lines line rest) :
    ∃ taken, bytes = taken ++ rest ∧ taken ≠ [] ∧
      (rest ≠ [] → ∀ other, HeadersTo (taken ++ other) lines line other) := by
  obtain ⟨hlines, hline⟩ := h
  obtain ⟨first, rfl, -, hother⟩ := hlines.exists_append
  obtain ⟨last, rfl, hlast, hother'⟩ := hline.exists_append
  refine ⟨first ++ last, by simp, by simp [hlast], ?_⟩
  intro hrest other
  rw [List.append_assoc]
  exact .mk (hother (by simp [hlast]) _) (hother' hrest other)

/-- A block and a body behind it are found again before any other bytes. -/
theorem HeaderBlock.exists_append {bytes rest : List UInt8} {lines : List (List UInt8)}
    (body : List UInt8) (h : HeaderBlock bytes lines (body ++ rest)) :
    ∃ taken, bytes = taken ++ rest ∧ taken ≠ [] ∧
      (rest ≠ [] → ∀ other, HeaderBlock (taken ++ other) lines (body ++ other)) := by
  obtain ⟨hlines, hblank⟩ := h
  obtain ⟨taken, rfl, hpositive, hother⟩ := hlines.exists_append
  refine ⟨taken ++ body, by simp, by simp [hpositive], ?_⟩
  intro hrest other
  rw [List.append_assoc]
  exact .mk (hother (by simp [hrest]) _) hblank

/-- The line behind the headers ends them by what it says. -/
theorem readBlock_of_headersTo {bytes line rest : List UInt8} {lines : List (List UInt8)}
    (h : HeadersTo bytes lines line rest) (hline : ¬ IsHeader line) :
    readBlock .closed true none [] bytes =
      match lineOfOctets line with
      | .bad e => .failed e rest
      | _ => .headers (announced lines) rest := by
  obtain ⟨hlines, hend⟩ := h
  rw [readBlock_of_headers hlines, readBlock_of_line hend, Option.or_none]
  cases hkind : lineOfOctets line with
  | blank => rfl
  | length n => exact absurd (.inr ⟨n, hkind⟩) hline
  | other => exact absurd (.inl hkind) hline
  | bad e => rfl

theorem readBlock_of_headerBlock {bytes rest : List UInt8} {lines : List (List UInt8)}
    (h : HeaderBlock bytes lines rest) :
    readBlock .closed true none [] bytes = .headers (announced lines) rest := by
  obtain ⟨hlines, hblank⟩ := h
  have hkind := lineOfOctets_eq_blank_iff.2 hblank
  have hline := readBlock_of_headersTo hlines (by simp [IsHeader, hkind])
  rwa [hkind] at hline

/-- A bad line ends the reading. -/
theorem read_of_bad {bytes line rest : List UInt8} {lines : List (List UInt8)} {e : IoError}
    (h : HeadersTo bytes lines line rest) (hbad : lineOfOctets line = .bad e) :
    read .closed bytes = .failed e rest := by
  have hline := readBlock_of_headersTo h (by simp [IsHeader, hbad])
  rw [hbad] at hline
  rw [read, hline]

/-! ## Readings -/

/-- A body for which there is room is taken whole. -/
theorem readBody_append (tail : Tail) {body : List UInt8} (h : body.length < bodyLimit)
    {v? : Option Json} (hbody : (ofOctets? body).bind Json.parse? = v?) (rest : List UInt8) :
    readBody tail body.length (body ++ rest) =
      v?.elim (.failed .malformedBody rest) (.message · rest) := by
  unfold readBody
  rw [if_neg (Nat.not_le.2 h), if_pos (by simp), List.take_left, List.drop_left, hbody]
  cases v? <;> rfl

/-- A block that announces a length is read as the body behind it. -/
theorem read_of_headerBlock {bytes rest : List UInt8} {lines : List (List UInt8)} {n : Nat}
    (h : HeaderBlock bytes lines rest) (hlength : announced lines = some n) :
    read .closed bytes = readBody .closed n rest := by
  rw [read, readBlock_of_headerBlock h, hlength]

/-- The end of a reading is what the bytes make it. -/
theorem read_of_ends {bytes : List UInt8} {r : Reading} (h : Ends bytes r) :
    read .closed bytes = r := by
  cases h with
  | finished h =>
    subst h
    rfl
  | @endInHeaders lines h hne =>
    have hempty : lines.isEmpty = false := by simpa using hne
    have hblock : readBlock .closed true none [] bytes = .failed .endInHeaders [] := by
      rw [readBlock_of_headers h, hempty]
      rfl
    rw [read, hblock]
  | undecodable h hbad => exact read_of_bad h (lineOfOctets_of_undecodable hbad)
  | badLength h hbad => exact read_of_bad h hbad
  | missingLength h hlength => rw [read, readBlock_of_headerBlock h, hlength]
  | aborted h hlength hlarge =>
    rw [read_of_headerBlock h hlength]
    exact if_pos hlarge
  | endInBody h hlength hfit hshort =>
    rw [read_of_headerBlock h hlength]
    unfold readBody
    rw [if_neg (Nat.not_le.2 hfit), if_neg (by omega)]
  | @malformedBody body rest lines h hlength hfit hbody =>
    rw [read_of_headerBlock h hlength]
    exact readBody_append .closed hfit hbody rest
  | @message body rest lines v h hlength hfit hbody =>
    rw [read_of_headerBlock h hlength]
    exact readBody_append .closed hfit hbody rest

/-- A whole header block is followed by its body, as far as the stream has it. -/
theorem exists_ends_of_headerBlock {bytes rest : List UInt8} {lines : List (List UInt8)}
    (h : HeaderBlock bytes lines rest) : ∃ r, Ends bytes r := by
  cases hlength : announced lines with
  | none => exact ⟨_, .missingLength h hlength⟩
  | some n =>
    by_cases hlarge : bodyLimit ≤ n
    · exact ⟨_, .aborted h hlength hlarge⟩
    have hfit := Nat.not_le.1 hlarge
    by_cases hshort : rest.length < n
    · exact ⟨_, .endInBody h hlength hfit hshort⟩
    · have hn : (rest.take n).length = n := by
        rw [List.length_take]
        omega
      rw [← List.take_append_drop n rest] at h
      rw [← hn] at hlength hfit
      cases hbody : (ofOctets? (rest.take n)).bind Json.parse? with
      | none => exact ⟨_, .malformedBody h hlength hfit hbody⟩
      | some v => exact ⟨_, .message h hlength hfit hbody⟩

theorem exists_ends (bytes : List UInt8) : ∃ r, Ends bytes r := by
  obtain ⟨lines, mid, hlines, rfl | ⟨line, rest, hline, hheader⟩⟩ := exists_headers bytes
  · by_cases hnil : lines = []
    · subst hnil
      cases hlines
      exact ⟨_, .finished rfl⟩
    · exact ⟨_, .endInHeaders hlines hnil⟩
  · cases hkind : lineOfOctets line with
    | blank =>
      exact exists_ends_of_headerBlock (.mk (.mk hlines hline) (lineOfOctets_eq_blank_iff.1 hkind))
    | length n => exact absurd (.inr ⟨n, hkind⟩) hheader
    | other => exact absurd (.inl hkind) hheader
    | bad e =>
      rcases bad_cases hkind with ⟨rfl, hbad⟩ | ⟨value, rfl⟩
      · exact ⟨_, .undecodable (.mk hlines hline) hbad⟩
      · exact ⟨_, .badLength (.mk hlines hline) hkind⟩

theorem read_eq_iff_ends {bytes : List UInt8} {r : Reading} : read .closed bytes = r ↔ Ends bytes r := by
  constructor
  · rintro rfl
    obtain ⟨r, hr⟩ := exists_ends bytes
    rwa [read_of_ends hr]
  · exact read_of_ends

/-- Bytes that a reading leaves do not count, whether others or none stand in their place. -/
theorem Ends.exists_append {bytes : List UInt8} {r : Reading} (h : Ends bytes r) :
    ∃ taken, bytes = taken ++ r.rest ∧ (r ≠ .finished → taken ≠ []) ∧
      (r.rest ≠ [] → ∀ other, Ends (taken ++ other) (r.leaving other)) := by
  cases h with
  | finished h => exact ⟨[], h, fun hne => absurd rfl hne, fun hrest => absurd rfl hrest⟩
  | endInHeaders h hne =>
    obtain ⟨taken, htaken, hpositive, -⟩ := h.exists_append
    exact ⟨taken, htaken, fun _ => hpositive hne, fun hrest => absurd rfl hrest⟩
  | undecodable h hbad =>
    obtain ⟨taken, htaken, hpositive, hother⟩ := h.exists_append
    exact ⟨taken, htaken, fun _ => hpositive, fun hrest other => .undecodable (hother hrest other) hbad⟩
  | badLength h hbad =>
    obtain ⟨taken, htaken, hpositive, hother⟩ := h.exists_append
    exact ⟨taken, htaken, fun _ => hpositive, fun hrest other => .badLength (hother hrest other) hbad⟩
  | missingLength h hlength =>
    obtain ⟨taken, htaken, hpositive, hother⟩ := h.exists_append []
    refine ⟨taken, htaken, fun _ => hpositive, ?_⟩
    intro hrest other
    exact .missingLength (hother hrest other) hlength
  | aborted h hlength hlarge =>
    obtain ⟨taken, htaken, hpositive, hother⟩ := h.exists_append []
    refine ⟨taken, htaken, fun _ => hpositive, ?_⟩
    intro hrest other
    exact .aborted (hother hrest other) hlength hlarge
  | endInBody h hlength hfit hshort =>
    obtain ⟨taken, rfl, hpositive, -⟩ := h.exists_append []
    refine ⟨_, (List.append_nil _).symm, by simp [hpositive], ?_⟩
    intro hrest
    exact absurd rfl hrest
  | malformedBody h hlength hfit hbody =>
    obtain ⟨taken, htaken, hpositive, hother⟩ := h.exists_append _
    refine ⟨taken, htaken, fun _ => hpositive, ?_⟩
    intro hrest other
    exact .malformedBody (hother hrest other) hlength hfit hbody
  | message h hlength hfit hbody =>
    obtain ⟨taken, htaken, hpositive, hother⟩ := h.exists_append _
    refine ⟨taken, htaken, fun _ => hpositive, ?_⟩
    intro hrest other
    exact .message (hother hrest other) hlength hfit hbody

/-- Only the last reading takes nothing. -/
theorem rest_read_lt {bytes : List UInt8} (h : read .closed bytes ≠ .finished) :
    (read .closed bytes).rest.length < bytes.length := by
  obtain ⟨taken, htaken, hpositive, -⟩ := (read_eq_iff_ends.1 rfl : Ends bytes _).exists_append
  have hlength := congrArg List.length htaken
  have hne := List.length_pos_iff.2 (hpositive h)
  rw [List.length_append] at hlength
  omega

/-- Reading again and again ends. -/
theorem exists_finished (bytes : List UInt8) :
    ∃ n ≤ bytes.length, read .closed (leftAfter n bytes) = .finished := by
  induction hn : bytes.length using Nat.strongRecOn generalizing bytes with
  | ind n ih =>
    by_cases hfinished : read .closed bytes = .finished
    · exact ⟨0, Nat.zero_le _, hfinished⟩
    · have hlt := rest_read_lt hfinished
      obtain ⟨m, hm, hread⟩ := ih _ (by omega) (read .closed bytes).rest rfl
      exact ⟨m + 1, by omega, hread⟩

/-- More readings than there are bytes are never needed. -/
theorem readings_of_length_lt (bytes : List UInt8) {fuel fuel' : Nat} (h : bytes.length < fuel)
    (h' : bytes.length < fuel') : readings fuel bytes = readings fuel' bytes := by
  induction fuel generalizing bytes fuel' with
  | zero => omega
  | succ fuel ih =>
    obtain ⟨fuel', rfl⟩ : ∃ m, fuel' = m + 1 := ⟨fuel' - 1, by omega⟩
    have hlt : read .closed bytes ≠ .finished →
        (read .closed bytes).rest.length < bytes.length := rest_read_lt
    unfold readings
    cases hread : read .closed bytes with
    | message v rest =>
      rw [hread] at hlt
      have hrest : rest.length < bytes.length := hlt (by simp)
      simp only [ih rest (by omega) (show rest.length < fuel' by omega)]
    | failed e rest =>
      rw [hread] at hlt
      have hrest : rest.length < bytes.length := hlt (by simp)
      cases rest with
      | nil => rfl
      | cons b rest => simp only [ih (b :: rest) (by omega) (show _ < fuel' by omega)]
    | finished => rfl
    | incomplete => rfl
    | aborted rest => rfl

/--
What a reading gives and which bytes it takes for it, at every position of a stream. Only at the end of
the stream it takes none, so that reading again and again ends; what it leaves does not count. A reading
that finds no room for its body is one that leaves the bytes behind the headers, and says nothing.
-/
theorem read_takes (bytes : List UInt8) :
    (∀ r, read .closed bytes = r ↔ Ends bytes r) ∧
    (read .closed bytes = .finished ↔ bytes = []) ∧
    (∃ taken, bytes = taken ++ (read .closed bytes).rest ∧
      (read .closed bytes ≠ .finished → taken ≠ []) ∧
      ((read .closed bytes).rest ≠ [] →
        ∀ other, read .closed (taken ++ other) = (read .closed bytes).leaving other)) ∧
    (∃ n ≤ bytes.length, read .closed (leftAfter n bytes) = .finished) ∧
    ∀ fuel, bytes.length < fuel → readings fuel bytes = readAll bytes := by
  have hends : Ends bytes (read .closed bytes) := read_eq_iff_ends.1 rfl
  refine ⟨fun r => read_eq_iff_ends, ?_, ?_, exists_finished bytes, ?_⟩
  · constructor
    · intro hfinished
      rw [hfinished] at hends
      cases hends with
      | finished h => exact h
    · intro hnil
      exact read_of_ends (.finished hnil)
  · obtain ⟨taken, htaken, hpositive, hother⟩ := hends.exists_append
    refine ⟨taken, htaken, hpositive, ?_⟩
    intro hrest other
    exact read_of_ends (hother hrest other)
  · intro fuel hfuel
    exact readings_of_length_lt bytes hfuel (Nat.lt_succ_self _)

/-- The greatest length that a header can announce: the reading breaks off behind the headers, although the
stream ends within the body, and nothing arrives, not even the end. -/
theorem aborted_behind_headers :
    read .closed (Text.octets "Content-Length: 18446744073709551615\r\n\r\nabc") =
      .aborted (Text.octets "abc") ∧
    receive .closed (Text.octets "Content-Length: 18446744073709551615\r\n\r\nabc") = ([], none) ∧
    ¬ ∀ (bytes rest : List UInt8) (lines : List (List UInt8)) (n : Nat),
      HeaderBlock bytes lines rest → announced lines = some n → rest.length < n →
        ∃ e, read .closed bytes = .failed e [] := by
  let line := Text.octets (lengthLine 18446744073709551615)
  have hline : lineOfOctets line = .length 18446744073709551615 := lineOfOctets_lengthLine (by decide)
  have hbytes : Text.octets "Content-Length: 18446744073709551615\r\n\r\nabc" =
      line ++ 10 :: ([13] ++ 10 :: Text.octets "abc") := by decide +kernel
  have hblock : HeaderBlock (line ++ 10 :: ([13] ++ 10 :: Text.octets "abc")) [line]
      (Text.octets "abc") :=
    .mk (.mk (.cons (.fed (not_mem_octets_lengthLine _)) (.inr ⟨_, hline⟩) (.nil _))
      (.fed (by decide))) (by simp)
  have hannounced : announced [line] = some 18446744073709551615 := by
    simp [announced, hline, HeaderLine.length?]
  have hread := read_of_ends (.aborted hblock hannounced (by decide))
  rw [← hbytes] at hread hblock
  refine ⟨hread, by simp only [receive, arrivals, hread], ?_⟩
  intro h
  obtain ⟨e, hfailed⟩ := h _ _ _ _ hblock hannounced (by decide +kernel)
  rw [hread] at hfailed
  cases hfailed

/-- A block of nothing but its blank line is taken alone. -/
example : read .closed [13, 10, 65] = .failed .missingLength [65] := rfl

end ColorMarks.Frame
