import ColorMarks.Host.Path
import Mathlib.Data.List.TakeWhile

/-!
# Names and directories of paths

A path whose text ends in a name (`EndsIn`, `IsName`) keeps this name when a directory is cut off from it,
whatever stands before the name, unless the path is the directory itself (`endsIn_of_relativeTo?`).
-/

namespace ColorMarks

namespace Text

/-- A text is cut on either side of the character by itself. -/
theorem pieces_append_sep (sep : Char) (as bs : List Char) :
    pieces sep (as ++ sep :: bs) = pieces sep as ++ pieces sep bs := by
  induction as with
  | nil => simp [pieces]
  | cons c as ih =>
    rw [List.cons_append, pieces, pieces, ih]
    by_cases hc : c = sep
    · rw [if_pos hc, if_pos hc, List.cons_append]
    · rw [if_neg hc, if_neg hc]
      cases hp : pieces sep as with
      | nil => exact absurd hp (pieces_ne_nil sep as)
      | cons p ps => rfl

theorem joined_concat (sep : Char) (ps : List (List Char)) (n : List Char) :
    joined sep (ps ++ [n]) = n ∨ ∃ d, joined sep (ps ++ [n]) = d ++ sep :: n := by
  induction ps with
  | nil => exact .inl rfl
  | cons p ps ih =>
    right
    have hcons : joined sep (p :: ps ++ [n]) = p ++ sep :: joined sep (ps ++ [n]) := by
      cases ps <;> rfl
    rcases ih with hn | ⟨d, hd⟩
    · exact ⟨p, by rw [hcons, hn]⟩
    · exact ⟨p ++ sep :: d, by rw [hcons, hd, List.append_assoc, List.cons_append]⟩

/-- The last piece is what stands after the last of the character. -/
theorem getLast?_pieces_iff {sep : Char} {n : List Char} (hn : sep ∉ n) (cs : List Char) :
    (pieces sep cs).getLast? = some n ↔ cs = n ∨ ∃ d, cs = d ++ sep :: n := by
  constructor
  · intro h
    obtain ⟨ps, hps⟩ := List.getLast?_eq_some_iff.1 h
    rw [← joined_pieces sep cs, hps]
    exact joined_concat sep ps n
  · rintro (rfl | ⟨d, rfl⟩)
    · rw [pieces_of_not_mem hn]
      rfl
    · rw [pieces_append_sep, pieces_of_not_mem hn, List.getLast?_concat]

theorem getLast?_pieces_joined {sep : Char} {ps : List (List Char)} {n : List Char} (hn : sep ∉ n)
    (h : ps.getLast? = some n) : (pieces sep (joined sep ps)).getLast? = some n := by
  obtain ⟨qs, rfl⟩ := List.getLast?_eq_some_iff.1 h
  exact (getLast?_pieces_iff hn _).2 (joined_concat sep qs n)

theorem getLast?_pieces_sep (sep : Char) (cs : List Char) :
    (pieces sep (sep :: cs)).getLast? = (pieces sep cs).getLast? := by
  rw [pieces, if_pos rfl]
  cases hp : pieces sep cs with
  | nil => exact absurd hp (pieces_ne_nil sep cs)
  | cons p ps => exact List.getLast?_cons_cons

end Text

namespace Path

open Text (pieces joined getLast?_pieces_sep getLast?_pieces_iff getLast?_pieces_joined)

/-- A name that a directory can hold. -/
structure IsName (name : String) : Prop where
  nonempty : name ≠ ""
  slash : '/' ∉ name.toList
  dot : name ≠ "."
  dots : name ≠ ".."

/-- A path text that ends in a name. -/
def EndsIn (path name : String) : Prop := path = name ∨ ∃ directory, path = directory ++ "/" ++ name

/-- The parts by which paths are compared: those that count, and the beginning if it is no part. -/
def components (path : String) : List (List Char) :=
  match start path.toList with
  | .root body => ['/'] :: parts body
  | .here body => ['.'] :: parts body
  | .plain body => parts body

theorem IsName.not_isIdle {name : String} (h : IsName name) : isIdle name.toList = false := by
  have hdot : name.toList ≠ ['.'] := fun heq => h.dot (String.toList_inj.1 heq)
  simp [isIdle, h.nonempty, hdot]

theorem endsIn_iff {path name : String} (h : '/' ∉ name.toList) :
    EndsIn path name ↔ (pieces '/' path.toList).getLast? = some name.toList := by
  rw [getLast?_pieces_iff h, EndsIn, String.toList_inj]
  refine or_congr_right ⟨?_, ?_⟩
  · rintro ⟨directory, rfl⟩
    exact ⟨directory.toList, by simp⟩
  · rintro ⟨d, hd⟩
    exact ⟨String.ofList d, String.toList_inj.1 (by simp [hd])⟩

/-! ## Cutting off a directory -/

/-- What is cut off is what counts of the directory, and idle parts. -/
theorem afterParts?_spec {qs ps rest : List (List Char)} (h : afterParts? qs ps = some rest) :
    ∃ taken, ps = taken ++ rest ∧ taken.filter (fun p => !isIdle p) = qs := by
  induction ps generalizing qs with
  | nil =>
    cases qs with
    | nil =>
      cases h
      exact ⟨[], rfl, rfl⟩
    | cons q qs => cases h
  | cons p ps ih =>
    cases qs with
    | nil =>
      obtain rfl := Option.some.inj h
      refine ⟨(p :: ps).takeWhile isIdle, List.takeWhile_append_dropWhile.symm, ?_⟩
      rw [List.filter_eq_nil_iff]
      intro a ha
      simp [List.mem_takeWhile_imp ha]
    | cons q qs =>
      unfold afterParts? at h
      split at h
      · rename_i hp
        obtain ⟨taken, rfl, htaken⟩ := ih h
        exact ⟨p :: taken, rfl, by rw [List.filter_cons_of_neg (by simp [hp]), htaken]⟩
      · rename_i hp
        split at h
        · rename_i hqp
          obtain ⟨taken, rfl, htaken⟩ := ih h
          exact ⟨p :: taken, rfl, by rw [List.filter_cons_of_pos (by simpa using hp), htaken, hqp]⟩
        · cases h

variable {n : List Char}

/-- Nothing is dropped after a name. -/
theorem dropIdleEnd_of_getLast? {ps : List (List Char)} (h : ps.getLast? = some n)
    (hn : isIdle n = false) : dropIdleEnd ps = ps := by
  obtain ⟨qs, rfl⟩ := List.getLast?_eq_some_iff.1 h
  simp [dropIdleEnd, hn]

theorem trimBody_of_getLast? {body : List Char} (h : (pieces '/' body).getLast? = some n)
    (hn : isIdle n = false) : trimBody body = body := by
  rw [trimBody, dropIdleEnd_of_getLast? h hn, Text.joined_pieces]

/-- A body after another one still ends in its name, unless the two have the same parts. -/
theorem getLast?_afterBody? {root body rest : List Char} (h : afterBody? root body = some rest)
    (hbody : (pieces '/' body).getLast? = some n) (hn : isIdle n = false) (hslash : '/' ∉ n)
    (hparts : parts root ≠ parts body) : (pieces '/' rest).getLast? = some n := by
  obtain ⟨ps, hps, rfl⟩ := Option.map_eq_some_iff.1 h
  obtain ⟨taken, htaken, hroot⟩ := afterParts?_spec hps
  have hlast : ps.getLast? = some n := by
    rw [htaken, List.getLast?_append] at hbody
    cases hcase : ps.getLast? with
    | none =>
      -- all parts of the body are taken, and they are those of the root
      rw [List.getLast?_eq_none_iff.1 hcase, List.append_nil] at htaken
      have hsame : parts root = parts body := by
        rw [← hroot, ← htaken]
        rfl
      exact absurd hsame hparts
    | some m => rwa [hcase] at hbody
  rw [dropIdleEnd_of_getLast? hlast hn]
  exact getLast?_pieces_joined hslash hlast

/-- The text that a path begins with before its body. -/
def Start.lead : Start → List Char
  | root _ => ['/']
  | here _ => ['.']
  | plain _ => []

/-- The text of a path after its beginning. -/
def Start.body : Start → List Char
  | root body => body
  | here body => body
  | plain body => body

theorem lead_append_body (cs : List Char) : (start cs).lead ++ (start cs).body = cs := by
  unfold start
  split <;> rfl

/-- The body of a path ends in the name that the path ends in. -/
theorem getLast?_body {cs : List Char} (h : (pieces '/' cs).getLast? = some n)
    (hn : isIdle n = false) : (pieces '/' (start cs).body).getLast? = some n := by
  unfold start
  split
  · rwa [getLast?_pieces_sep] at h
  · cases h
    cases hn
  · rename_i r
    have hpieces : pieces '/' ('.' :: '/' :: r) = ['.'] :: pieces '/' r :=
      Text.pieces_append_cons (p := ['.']) (by decide) r
    rw [hpieces, ← List.singleton_append, List.getLast?_append] at h
    rw [Start.body, getLast?_pieces_sep]
    cases hp : (pieces '/' r).getLast? with
    | none => exact absurd (List.getLast?_eq_none_iff.1 hp) (Text.pieces_ne_nil '/' r)
    | some m => rwa [hp] at h
  · exact h

/-- A path from which a directory is cut off still ends in its name, unless it is this directory. -/
theorem endsIn_of_relativeTo? {root path rest name : String} (h : relativeTo? root path = some rest)
    (hpath : EndsIn path name) (hname : IsName name) (hroot : components root ≠ components path) :
    EndsIn rest name := by
  have hn := hname.not_isIdle
  have hslash := hname.slash
  rw [endsIn_iff hslash] at hpath ⊢
  have hbody := getLast?_body hpath hn
  have hwhole := lead_append_body path.toList
  unfold components at hroot
  obtain ⟨cs, hcs, rfl⟩ := Option.map_eq_some_iff.1 h
  rw [String.toList_ofList]
  generalize start path.toList = s at hcs hroot hbody hwhole
  -- the empty directory cuts off nothing
  have hkept (hcs : s.lead ++ trimBody s.body = cs) :
      (pieces '/' cs).getLast? = some name.toList := by
    rw [← hcs, trimBody_of_getLast? hbody hn, hwhole]
    exact hpath
  split at hcs
  · rename_i q p hq
    rw [hq] at hroot
    exact getLast?_afterBody? hcs hbody hn hslash fun heq => hroot (by simp only [heq])
  · rename_i q p hq
    rw [hq] at hroot
    exact getLast?_afterBody? hcs hbody hn hslash fun heq => hroot (by simp only [heq])
  · exact hkept (Option.some.inj hcs)
  · exact hkept (Option.some.inj hcs)
  · exact hkept (Option.some.inj hcs)
  · rename_i q p hq
    rw [hq] at hroot
    exact getLast?_afterBody? hcs hbody hn hslash hroot
  · cases hcs

end Path

end ColorMarks
