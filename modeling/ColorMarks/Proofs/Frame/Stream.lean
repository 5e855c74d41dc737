import ColorMarks.Proofs.Frame.Truncation

/-!
# Streams of frames

Frames that are written one after the other are read as their values, wherever the stream is cut off:
the values of the whole frames arrive unchanged, then the end of the stream if the cut falls between
two frames, and an error if it falls inside one.
-/

namespace ColorMarks.Frame

open Text (octets)

/-! ## One frame -/

/-- The line of the length, with its line feed, is read as the length. -/
theorem readBlock_lengthLine (tail : Tail) {n : Nat} (h : n < twoTo 64) (rest : List UInt8) :
    readBlock tail true none [] (octets (lengthLine n) ++ 10 :: rest) =
      readBlock tail false (some n) [] rest := by
  rw [readBlock_fed tail true none (not_mem_octets_lengthLine n), lineOfOctets_lengthLine h]

/-- A whole frame is read as its value, whatever comes after it. -/
theorem read_write {v : Json} (hv : v.IsLossless) (hfit : (octets v.text).length < bodyLimit)
    (tail : Tail) (rest : List UInt8) : read tail (write v ++ rest) = .message v rest := by
  have hblock : readBlock tail true none [] (write v ++ rest) =
      .headers (some (octets v.text).length) (octets v.text ++ rest) := by
    rw [write_eq, List.append_assoc, List.cons_append,
      readBlock_lengthLine tail (lt_twoTo_of_lt_bodyLimit hfit)]
    exact readBlock_returns tail false _ 1 _
  have hbody : (Text.ofOctets? (octets v.text)).bind Json.parse? = some v := by
    rw [Text.ofOctets?_octets, Option.bind_some, hv.parse?_text]
  simp only [read, hblock]
  exact readBody_append tail hfit hbody rest

/-! ## Streams -/

theorem write_ne_nil (v : Json) : write v ≠ [] := by
  rw [write_eq]
  simp

/-- Where each frame of a stream ends: the first `j` frames take so many bytes. -/
def endOf (vs : List Json) (j : Nat) : Nat := ((vs.take j).flatMap write).length

@[simp] theorem endOf_zero (vs : List Json) : endOf vs 0 = 0 := by
  simp [endOf]

@[simp] theorem endOf_cons_succ (v : Json) (vs : List Json) (j : Nat) :
    endOf (v :: vs) (j + 1) = (write v).length + endOf vs j := by
  simp [endOf]

/-- Whether a stream of frames is cut between two of them, or before the first or after the last. -/
def IsBoundary (vs : List Json) (n : Nat) : Prop := ∃ j ≤ vs.length, endOf vs j = n

/-- The cut lies `n` bytes behind the first frame. -/
theorem isBoundary_cons_iff (v : Json) (vs : List Json) (n : Nat) :
    IsBoundary (v :: vs) ((write v).length + n) ↔ IsBoundary vs n := by
  have hwrite := List.length_pos_iff.2 (write_ne_nil v)
  constructor
  · rintro ⟨j, hj, hend⟩
    cases j with
    | zero =>
      rw [endOf_zero] at hend
      omega
    | succ j =>
      rw [endOf_cons_succ] at hend
      exact ⟨j, Nat.le_of_succ_le_succ hj, by omega⟩
  · rintro ⟨j, hj, hend⟩
    exact ⟨j + 1, Nat.succ_le_succ hj, by rw [endOf_cons_succ, hend]⟩

/-- What arrives over a stream that is cut off after `n` bytes, if `k` of its frames are whole. -/
structure Delivers (vs : List Json) (n k : Nat) (arrived : List Arrival) : Prop where
  le : k ≤ vs.length
  whole : ∀ j ≤ vs.length, j ≤ k ↔ endOf vs j ≤ n
  closed : IsBoundary vs n → arrived = (vs.take k).map .message ++ [.closed]
  failed : ¬ IsBoundary vs n → ∃ e : IoError,
    arrived = (vs.take k).map .message ++ [.failed e.message]

/-- A stream that is cut off within its first frame delivers none. -/
theorem Delivers.zero {vs : List Json} {n : Nat} {arrived : List Arrival}
    (hfirst : ∀ v ∈ vs.head?, n < (write v).length)
    (hclosed : n = 0 → arrived = [.closed])
    (hfailed : n ≠ 0 → ∃ e : IoError, arrived = [.failed e.message]) :
    Delivers vs n 0 arrived := by
  have hlater : ∀ j, j < vs.length → n < endOf vs (j + 1) := by
    intro j hj
    cases vs with
    | nil => exact absurd hj (Nat.not_lt_zero j)
    | cons v vs =>
      have hlt := hfirst v rfl
      rw [endOf_cons_succ]
      omega
  have hboundary : IsBoundary vs n ↔ n = 0 := by
    constructor
    · rintro ⟨j, hj, hend⟩
      cases j with
      | zero => rw [← hend, endOf_zero]
      | succ j =>
        have hlt := hlater j hj
        omega
    · rintro rfl
      exact ⟨0, Nat.zero_le _, endOf_zero vs⟩
  refine ⟨Nat.zero_le _, ?_, ?_, ?_⟩
  · intro j hj
    cases j with
    | zero => simp
    | succ j =>
      have hlt := hlater j hj
      omega
  · intro h
    exact hclosed (hboundary.1 h)
  · intro h
    exact hfailed fun hn => h (hboundary.2 hn)

/-- One more whole frame at the beginning delivers its value first. -/
theorem Delivers.cons {v : Json} {vs : List Json} {n k : Nat} {arrived : List Arrival}
    (h : Delivers vs n k arrived) :
    Delivers (v :: vs) ((write v).length + n) (k + 1) (.message v :: arrived) := by
  refine ⟨Nat.succ_le_succ h.le, ?_, ?_, ?_⟩
  · intro j hj
    cases j with
    | zero => simp
    | succ j =>
      have hwhole := h.whole j (Nat.le_of_succ_le_succ hj)
      rw [endOf_cons_succ]
      omega
  · intro hboundary
    rw [h.closed ((isBoundary_cons_iff v vs n).1 hboundary)]
    rfl
  · intro hboundary
    obtain ⟨e, he⟩ := h.failed fun hn => hboundary ((isBoundary_cons_iff v vs n).2 hn)
    exact ⟨e, by rw [he]; rfl⟩

/-- `receive_take` with any number of readings that is enough. -/
theorem arrivals_take {vs : List Json} (hvs : ∀ v ∈ vs, v.IsLossless)
    (hfit : ∀ v ∈ vs, (octets v.text).length < bodyLimit) {n fuel : Nat}
    (hn : n ≤ (vs.flatMap write).length) (hfuel : n < fuel) :
    ∃ k, Delivers vs n k (arrivals .closed fuel ((vs.flatMap write).take n)).1 := by
  induction vs generalizing n fuel with
  | nil =>
    obtain ⟨fuel, rfl⟩ : ∃ m, fuel = m + 1 := ⟨fuel - 1, by omega⟩
    have hzero : n = 0 := by simpa using hn
    exact ⟨0, .zero (by simp) (fun _ => by simp [arrivals, read, readBlock]) fun h => absurd hzero h⟩
  | cons v vs ih =>
    obtain ⟨fuel, rfl⟩ : ∃ m, fuel = m + 1 := ⟨fuel - 1, by omega⟩
    have hv := hvs v List.mem_cons_self
    have hv' := hfit v List.mem_cons_self
    rw [List.flatMap_cons] at hn ⊢
    by_cases hcut : n < (write v).length
    · rw [List.take_append_of_le_length (Nat.le_of_lt hcut)]
      refine ⟨0, .zero (by simpa using hcut) ?_ ?_⟩
      · rintro rfl
        simp [arrivals, read, readBlock]
      · intro hpos
        have hpart : (write v).take n ≠ [] := by
          rw [← List.length_pos_iff, List.length_take]
          omega
        have hmissing : (write v).drop n ≠ [] := by
          rw [← List.length_pos_iff, List.length_drop]
          omega
        obtain ⟨e, he, -⟩ := read_cut hv' hpart hmissing (List.take_append_drop n _)
        exact ⟨e, by simp only [arrivals, he]⟩
    · obtain ⟨m, rfl⟩ : ∃ m, n = (write v).length + m := ⟨n - (write v).length, by omega⟩
      have hwrite := List.length_pos_iff.2 (write_ne_nil v)
      rw [List.length_append] at hn
      obtain ⟨k, hk⟩ := ih (fun w hw => hvs w (List.mem_cons_of_mem v hw))
        (fun w hw => hfit w (List.mem_cons_of_mem v hw)) (show m ≤ _ by omega)
        (show m < fuel by omega)
      refine ⟨k + 1, ?_⟩
      rw [List.take_length_add_append, arrivals, read_write hv hv']
      exact hk.cons

/--
The values whose frames lie wholly before the cut arrive in order and unchanged, and one arrival comes
after them: the end of the stream at a boundary, an error elsewhere. No text in memory is longer than a
body may be.
-/
theorem receive_take (vs : List Json) (hvs : ∀ v ∈ vs, v.IsLossless)
    (hfit : ∀ v ∈ vs, (octets v.text).length < bodyLimit) (n : Nat)
    (hn : n ≤ (vs.flatMap write).length) :
    ∃ k, Delivers vs n k (receive .closed ((vs.flatMap write).take n)).1 := by
  apply arrivals_take hvs hfit hn
  rw [List.length_take]
  omega

/-- A stream of two frames that is cut off behind the first byte of the second. -/
theorem receive_take_second_frame :
    let v := Json.array [.integer 12, .string "é"]
    let n := (write v).length + 1
    ∃ k, Delivers [v, v] n k (receive .closed (([v, v].flatMap write).take n)).1 := by
  intro v n
  have hplain : v.IsPlain := ⟨⟨by decide, by decide⟩, trivial, trivial⟩
  have hlossless : v.IsLossless := ⟨hplain, by decide, rfl⟩
  have hfit : (octets v.text).length < bodyLimit := by
    rw [Json.text, Text.octets_ofList]
    decide
  refine receive_take [v, v] ?_ ?_ n ?_
  · simpa using hlossless
  · simpa using hfit
  · have hwrite := List.length_pos_iff.2 (write_ne_nil v)
    rw [List.flatMap_cons, List.flatMap_cons, List.length_append, List.length_append]
    omega

/-- Frames that are whole arrive at once, and nothing is left of a stream that goes on. -/
theorem receive_flatMap_write {vs : List Json} (hvs : ∀ v ∈ vs, v.IsLossless)
    (hfit : ∀ v ∈ vs, (octets v.text).length < bodyLimit) :
    receive .more (vs.flatMap write) = (vs.map .message, some []) := by
  have harrivals : ∀ fuel, (vs.flatMap write).length < fuel →
      arrivals .more fuel (vs.flatMap write) = (vs.map .message, some []) := by
    induction vs with
    | nil =>
      intro fuel hfuel
      obtain ⟨fuel, rfl⟩ : ∃ m, fuel = m + 1 := ⟨fuel - 1, by omega⟩
      rfl
    | cons v vs ih =>
      intro fuel hfuel
      obtain ⟨fuel, rfl⟩ : ∃ m, fuel = m + 1 := ⟨fuel - 1, by omega⟩
      have hwrite := List.length_pos_iff.2 (write_ne_nil v)
      rw [List.flatMap_cons, List.length_append] at hfuel
      have hrest := ih (fun w hw => hvs w (List.mem_cons_of_mem v hw))
        (fun w hw => hfit w (List.mem_cons_of_mem v hw)) fuel (by omega)
      rw [List.flatMap_cons, arrivals,
        read_write (hvs v List.mem_cons_self) (hfit v List.mem_cons_self)]
      simp only [hrest]
      rfl
  exact harrivals _ (Nat.lt_succ_self _)

end ColorMarks.Frame
