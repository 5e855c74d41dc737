import ColorMarks.Glob.Filter
import ColorMarks.Proofs.Host.Path
import ColorMarks.Proofs.Text.Octets

/-!
# Patterns for a name in any directory

Two stars, a slash and a name are read as any directories and a literal name (`parts?_name`), and match
exactly the paths that end in this name (`isMatch_name_iff`). The pattern of the files that are watched by
default is one of these.
-/

namespace ColorMarks

namespace Glob

/-! ## Reading the pattern -/

/-- A character without a meaning of its own in a pattern. -/
def IsOrdinary (c : Char) : Prop := c ∉ ['?', '\\', '\x7b', '\x7d', ',', '[', '*']

instance (c : Char) : Decidable (IsOrdinary c) := inferInstanceAs (Decidable (_ ∉ _))

theorem parse_ordinary {c : Char} (hc : IsOrdinary c) (prev : Option Char) (s : Levels)
    (cs : List Char) :
    parse .text prev s (c :: cs) = parse .text (some c) (s.push (.literal c)) cs := by
  simp only [IsOrdinary, List.mem_cons, List.not_mem_nil, or_false, not_or] at hc
  obtain ⟨hone, hescape, hopen, hclose, hcomma, hset, hmany⟩ := hc
  -- none of the other cases of the match can be
  rw [parse.eq_def]
  simp only

/-- Ordinary characters are read literally. -/
theorem parse_ordinaries {cs : List Char} (hcs : ∀ c ∈ cs, IsOrdinary c) (prev : Option Char)
    {s : Levels} (hs : s.nested = false) :
    parse .text prev s cs = .ok (s.inner.current.reverse ++ cs.map .literal) := by
  induction cs generalizing prev s with
  | nil =>
    rw [parse.eq_def]
    simp only [hs, List.map_nil, List.append_nil, if_neg Bool.false_ne_true]
  | cons c cs ih =>
    obtain ⟨hc, hcs⟩ := List.forall_mem_cons.1 hcs
    have hpush : (s.push (.literal c)).nested = false := hs
    rw [parse_ordinary hc, ih hcs (some c) hpush]
    simp [Levels.push, Level.push]

/-- The pattern of a name in any directory. -/
theorem parts?_name {text : String} (htext : ∀ c ∈ text.toList, IsOrdinary c) :
    parts? ("**/" ++ text) = .ok (.leading :: text.toList.map .literal) := by
  have hread : parse .text none {} ('*' :: '*' :: '/' :: text.toList) =
      parse .text (some '/') (({} : Levels).push .leading) text.toList := by
    rw [parse.eq_def]
    rfl
  rw [parts?, String.toList_append]
  exact hread.trans (parse_ordinaries htext _ rfl)

/-! ## Matching it -/

/-- What is left over after any slash. -/
theorem mem_afterSlashes_iff {s rest : List UInt8} :
    rest ∈ afterSlashes s ↔ ∃ before, s = before ++ slash :: rest := by
  induction s with
  | nil => simp [afterSlashes]
  | cons b s ih =>
    unfold afterSlashes
    constructor
    · intro h
      split at h
      · rename_i hb
        rcases List.mem_cons.1 h with rfl | h
        · exact ⟨[], by rw [hb, List.nil_append]⟩
        · obtain ⟨before, rfl⟩ := ih.1 h
          exact ⟨b :: before, rfl⟩
      · obtain ⟨before, rfl⟩ := ih.1 h
        exact ⟨b :: before, rfl⟩
    · rintro ⟨before, hbefore⟩
      cases before with
      | nil =>
        obtain ⟨rfl, rfl⟩ := List.cons.inj hbefore
        rw [if_pos rfl]
        exact List.mem_cons_self
      | cons c before =>
        have hrest : rest ∈ afterSlashes s := ih.2 ⟨before, (List.cons.inj hbefore).2⟩
        split
        · exact List.mem_cons_of_mem _ hrest
        · exact hrest

theorem afterOctets?_eq_some_iff {lead s rest : List UInt8} :
    afterOctets? lead s = some rest ↔ s = lead ++ rest := by
  induction lead generalizing s with
  | nil => simp [afterOctets?]
  | cons l lead ih =>
    cases s with
    | nil => simp [afterOctets?]
    | cons b s =>
      by_cases h : l = b
      · simp [afterOctets?, h, ih]
      · simp [afterOctets?, h, Ne.symm h]

/-- Literal characters take their octets from the beginning. -/
theorem mem_partsEnds_literals {cs : List Char} {rests : List (List UInt8)} {rest : List UInt8} :
    rest ∈ partsEnds (cs.map .literal) rests ↔ Text.octets (String.ofList cs) ++ rest ∈ rests := by
  induction cs generalizing rests with
  | nil => simp [partsEnds]
  | cons c cs ih =>
    have hoctets : Text.octets (String.ofList (c :: cs)) =
        charOctets c ++ Text.octets (String.ofList cs) := by
      rw [charOctets, String.singleton_eq_ofList, Text.octets_ofList, Text.octets_ofList,
        Text.octets_ofList, List.flatMap_cons, List.flatMap_singleton]
    rw [List.map_cons, partsEnds, ih, List.mem_eraseDups, List.mem_flatMap, hoctets]
    simp only [Part.ends, Option.mem_toList, afterOctets?_eq_some_iff,
      List.append_assoc, exists_eq_right]

/-- What stands after the last slash is determined. -/
theorem eq_of_append_slash {as bs cs ds : List UInt8} (hbs : slash ∉ bs) (hds : slash ∉ ds)
    (h : as ++ slash :: bs = cs ++ slash :: ds) : bs = ds := by
  -- read from the end, it is all up to the first slash
  have hend {before after : List UInt8} (hafter : slash ∉ after) :
      (before ++ slash :: after).reverse.takeWhile (· != slash) = after.reverse := by
    have hplain : ∀ b ∈ after.reverse, (b != slash) = true := fun b hb =>
      bne_iff_ne.2 fun heq => hafter (heq ▸ List.mem_reverse.1 hb)
    rw [List.reverse_append, List.reverse_cons, List.append_assoc, List.takeWhile_append_of_pos hplain]
    simp
  rw [← List.reverse_inj, ← hend hbs, h, hend hds]

/-- A pattern of a name in any directory leaves nothing over of the name alone, and of it after a slash. -/
theorem isMatch_leading_iff {text : String} (hempty : text ≠ "")
    (hdot : text.toList.getLast? ≠ some '.') (path : String) :
    isMatch (.leading :: text.toList.map .literal) path = true ↔
      Text.octets path = Text.octets text ∨
        ∃ before, Text.octets path = before ++ slash :: Text.octets text := by
  cases htext : text.toList with
  | nil => exact absurd (String.toList_eq_nil_iff.1 htext) hempty
  | cons c cs =>
    have hlast : ((Part.leading :: (c :: cs).map .literal).getLast?.map (Part.isChar '.')).getD false =
        false := by
      rw [htext] at hdot
      rw [← List.singleton_append, List.getLast?_append, List.getLast?_map]
      cases hd : (c :: cs).getLast? with
      | none => rfl
      | some d =>
        rw [hd] at hdot
        have hne : '.' ≠ d := fun heq => hdot (congrArg some heq.symm)
        simp [Part.isChar, hne]
    have hfree : needsFileName (Part.leading :: (c :: cs).map .literal) = false := by
      rw [needsFileName, hlast, Bool.false_and]
    have hmatch : isMatch (Part.leading :: (c :: cs).map .literal) path =
        (partsEnds (Part.leading :: (c :: cs).map .literal) [Text.octets path]).contains [] := by
      show (!(needsFileName _ && endsInParent _) && _) = _
      rw [hfree, Bool.false_and, Bool.not_false, Bool.true_and]
    rw [hmatch, List.contains_iff_mem, partsEnds, mem_partsEnds_literals, List.mem_eraseDups,
      List.flatMap_singleton, Part.ends, List.mem_cons, mem_afterSlashes_iff, List.append_nil,
      ← htext, String.ofList_toList, eq_comm]

/-- A pattern of a name in any directory matches exactly the paths that end in this name. -/
theorem isMatch_name_iff {text path name : String} (htext : '/' ∉ text.toList) (hempty : text ≠ "")
    (hdot : text.toList.getLast? ≠ some '.') (hname : '/' ∉ name.toList)
    (hpath : Path.EndsIn path name) :
    isMatch (.leading :: text.toList.map .literal) path = true ↔ name = text := by
  have hslash {s : String} (h : '/' ∉ s.toList) : slash ∉ Text.octets s :=
    Text.not_mem_octets (c := '/') (by decide) h
  have hoctets (directory s : String) : Text.octets (directory ++ "/" ++ s) =
      Text.octets directory ++ slash :: Text.octets s := by
    have hone : Text.octets "/" = [slash] := Text.octets_singleton (c := '/') (by decide)
    rw [Text.octets_append, Text.octets_append, hone, List.append_assoc, List.singleton_append]
  rw [isMatch_leading_iff hempty hdot]
  constructor
  · rcases hpath with rfl | ⟨directory, rfl⟩
    · rintro (hsame | ⟨before, hbefore⟩)
      · exact Text.octets_inj.1 hsame
      · refine absurd ?_ (hslash hname)
        rw [hbefore]
        exact List.mem_append_right before List.mem_cons_self
    · rw [hoctets]
      rintro (hsame | ⟨before, hbefore⟩)
      · refine absurd ?_ (hslash htext)
        rw [← hsame]
        exact List.mem_append_right _ List.mem_cons_self
      · exact Text.octets_inj.1 (eq_of_append_slash (hslash hname) (hslash htext) hbefore)
  · rintro rfl
    rcases hpath with rfl | ⟨directory, rfl⟩
    · exact .inl rfl
    · exact .inr ⟨_, hoctets directory name⟩

end Glob

namespace WatchFilter

/-- The default filter is the filter of its pattern. -/
theorem ofPatterns_default : ofPatterns [defaultPattern] = .ok default := by
  have hordinary : ∀ c ∈ ".clientrc".toList, Glob.IsOrdinary c := by simp [Glob.IsOrdinary]
  have hparts := Glob.parts?_name hordinary
  show ofPatterns ["**/" ++ ".clientrc"] = _
  rw [ofPatterns, List.mapM_cons, hparts]
  rfl

/-- The default pattern accepts exactly the paths that end in its name. -/
theorem accepts_iff_of_default {f : WatchFilter} (hf : ofPatterns [defaultPattern] = .ok f)
    {path name : String} (hname : '/' ∉ name.toList) (hpath : Path.EndsIn path name) :
    f.accepts path = true ↔ name = ".clientrc" := by
  obtain rfl : default = f := Except.ok.inj (ofPatterns_default.symm.trans hf)
  have hone : default.accepts path =
      Glob.isMatch (.leading :: ".clientrc".toList.map .literal) path := by
    rw [accepts, default, List.any_cons, List.any_nil, Bool.or_false]
  rw [hone]
  exact Glob.isMatch_name_iff (by decide) (by decide) (by decide) hname hpath

end WatchFilter

end ColorMarks
