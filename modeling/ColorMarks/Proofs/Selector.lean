import ColorMarks.Client.Basic

/-!
# Which documents are selected

The scheme of an address is what stands before its first colon, if that is spelled as schemes are
(`IsScheme`). A document passes a filter if every field that the filter names is exactly its own, and a
selector if it passes one of the filters.
-/

namespace ColorMarks

/-- A letter of ASCII. -/
def IsLetter (c : Char) : Prop := ('A' ≤ c ∧ c ≤ 'Z') ∨ ('a' ≤ c ∧ c ≤ 'z')

/-- A digit of ASCII. -/
def IsDigit (c : Char) : Prop := '0' ≤ c ∧ c ≤ '9'

instance (c : Char) : Decidable (IsLetter c) := inferInstanceAs (Decidable (_ ∨ _))

instance (c : Char) : Decidable (IsDigit c) := inferInstanceAs (Decidable (_ ∧ _))

theorem isAlpha_iff {c : Char} : c.isAlpha = true ↔ IsLetter c := by
  have hupper : c.isUpper = decide ('A' ≤ c ∧ c ≤ 'Z') := rfl
  have hlower : c.isLower = (decide ('a' ≤ c) && decide (c ≤ 'z')) := rfl
  have halpha : c.isAlpha = (c.isUpper || c.isLower) := rfl
  simp only [halpha, hupper, hlower, Bool.or_eq_true, Bool.and_eq_true, decide_eq_true_eq, IsLetter]

theorem isDigit_iff {c : Char} : c.isDigit = true ↔ IsDigit c := by
  simp only [Char.isDigit, IsDigit, Char.le_def, ge_iff_le, Bool.and_eq_true, decide_eq_true_eq]

theorem isAlphanum_iff {c : Char} : c.isAlphanum = true ↔ IsLetter c ∨ IsDigit c := by
  rw [Char.isAlphanum, Bool.or_eq_true, isAlpha_iff, isDigit_iff]

namespace Uri

/-- A character that can stand in a scheme after the first. -/
def ContinuesScheme (c : Char) : Prop := IsLetter c ∨ IsDigit c ∨ c = '+' ∨ c = '-' ∨ c = '.'

/-- A scheme is a letter, followed by letters, digits, plus signs, dashes and dots. -/
def IsScheme (s : String) : Prop :=
  ∃ first rest, s.toList = first :: rest ∧ IsLetter first ∧ ∀ c ∈ rest, ContinuesScheme c

theorem isSchemeChar_iff {c : Char} : isSchemeChar c = true ↔ ContinuesScheme c := by
  simp only [isSchemeChar, Bool.or_eq_true, isAlphanum_iff, beq_iff_eq, ContinuesScheme, or_assoc]

theorem IsScheme.not_mem_colon {s : String} (h : IsScheme s) : ':' ∉ s.toList := by
  obtain ⟨first, rest, hs, hfirst, hrest⟩ := h
  rw [hs]
  intro hmem
  rcases List.mem_cons.1 hmem with rfl | hmem
  · exact absurd hfirst (by decide)
  · exact absurd (hrest ':' hmem) (by unfold ContinuesScheme; decide)

/-- Exactly the schemes that stand before a colon are read. -/
theorem scheme?_eq_some_iff {uri s : String} :
    scheme? uri = some s ↔ IsScheme s ∧ ∃ rest, uri = s ++ ":" ++ rest := by
  constructor
  · intro h
    unfold scheme? at h
    split at h
    · rename_i c cs rest hcut
      obtain ⟨hvalid, hs⟩ := Option.ite_none_right_eq_some.1 h
      obtain rfl := Option.some.inj hs
      obtain ⟨hc, hcs⟩ := Bool.and_eq_true_iff.1 hvalid
      have huri := (Text.cut?_eq_some_iff.1 hcut).2
      refine ⟨⟨c, cs, String.toList_ofList, isAlpha_iff.1 hc, fun d hd =>
        isSchemeChar_iff.1 (List.all_eq_true.1 hcs d hd)⟩, String.ofList rest, ?_⟩
      rw [← String.toList_inj]
      simp [huri]
    · cases h
  · rintro ⟨hs, rest, rfl⟩
    have hcolon := hs.not_mem_colon
    obtain ⟨first, cs, hlist, hfirst, hcs⟩ := hs
    have hcut : Text.cut? ':' (s ++ ":" ++ rest).toList = some (first :: cs, rest.toList) := by
      rw [Text.cut?_eq_some_iff]
      rw [hlist] at hcolon
      exact ⟨hcolon, by simp [hlist]⟩
    have hvalid : (first.isAlpha && cs.all isSchemeChar) = true := by
      rw [Bool.and_eq_true, isAlpha_iff, List.all_eq_true]
      exact ⟨hfirst, fun c hc => isSchemeChar_iff.2 (hcs c hc)⟩
    unfold scheme?
    rw [hcut]
    show (if (first.isAlpha && cs.all isSchemeChar) = true then _ else none) = some s
    rw [if_pos hvalid, ← hlist, String.ofList_toList]

/-- A scheme that is read is the whole text before the first colon. -/
theorem toList_of_scheme? {uri s : String} (h : scheme? uri = some s) :
    ':' ∉ s.toList ∧ s.toList = uri.toList.takeWhile (· ≠ ':') := by
  obtain ⟨hs, rest, rfl⟩ := scheme?_eq_some_iff.1 h
  have hcolon := hs.not_mem_colon
  refine ⟨hcolon, ?_⟩
  have hbefore : ∀ c ∈ s.toList, (decide (c ≠ ':')) = true := by
    intro c hc
    rw [decide_eq_true_iff]
    rintro rfl
    exact hcolon hc
  rw [String.toList_append, String.toList_append, List.append_assoc,
    List.takeWhile_append_of_pos hbefore]
  simp

end Uri

namespace DocumentFilter

/-- A filter passes a document whose scheme and language are those that it names. -/
structure Passes (f : DocumentFilter) (uri language : String) : Prop where
  scheme : f.scheme = none ∨ ∃ s, f.scheme = some s ∧ Uri.scheme? uri = some s
  language : f.language = none ∨ f.language = some language

theorem accepts_iff {f : DocumentFilter} {uri language : String} :
    f.accepts uri language = true ↔ f.Passes uri language := by
  have hscheme : f.scheme.all (fun s => Uri.scheme? uri == some s) = true ↔
      f.scheme = none ∨ ∃ s, f.scheme = some s ∧ Uri.scheme? uri = some s := by
    cases f.scheme <;> simp
  have hlanguage : f.language.all (· == language) = true ↔
      f.language = none ∨ f.language = some language := by
    cases f.language <;> simp
  rw [accepts, Bool.and_eq_true, hscheme, hlanguage]
  exact ⟨fun h => ⟨h.1, h.2⟩, fun h => ⟨h.scheme, h.language⟩⟩

/-- A filter that names what is no scheme passes nothing. -/
theorem accepts_of_not_isScheme {f : DocumentFilter} {s : String} (hf : f.scheme = some s)
    (hs : ¬ Uri.IsScheme s) (uri language : String) : f.accepts uri language = false := by
  rw [Bool.eq_false_iff]
  intro h
  rcases (accepts_iff.1 h).scheme with hnone | ⟨t, ht, huri⟩
  · rw [hf] at hnone
    cases hnone
  · rw [hf] at ht
    obtain rfl := Option.some.inj ht
    exact hs (Uri.scheme?_eq_some_iff.1 huri).1

end DocumentFilter

namespace Selector

theorem accepts_iff {s : Selector} {uri language : String} :
    s.accepts uri language = true ↔ ∃ f ∈ s, f.Passes uri language := by
  simp only [accepts, List.any_eq_true, DocumentFilter.accepts_iff]

/--
The scheme of an address is read exactly as the grammar of schemes has it, and nothing else is. A client
handles exactly the documents that pass one of its filters in every field that the filter names. So a
filter that names what is no scheme selects nothing, whatever stands beside it, and more filters never
select less.
-/
theorem handles_by_grammar :
    (∀ uri s, Uri.scheme? uri = some s ↔ Uri.IsScheme s ∧ ∃ rest, uri = s ++ ":" ++ rest) ∧
      (∀ uri, Uri.scheme? uri = none ↔ ¬ ∃ s rest, Uri.IsScheme s ∧ uri = s ++ ":" ++ rest) ∧
      (∀ uri s, Uri.scheme? uri = some s →
        ':' ∉ s.toList ∧ s.toList = uri.toList.takeWhile (· ≠ ':')) ∧
      (∀ (c : Client) uri language, c.handles uri language = true ↔
        ∃ f ∈ c.options.selector,
          (f.scheme = none ∨ ∃ s, f.scheme = some s ∧ Uri.scheme? uri = some s) ∧
          (f.language = none ∨ f.language = some language)) ∧
      (∀ (f : DocumentFilter) s, f.scheme = some s → ¬ Uri.IsScheme s →
        ∀ (before after : Selector) uri language, accepts [f] uri language = false ∧
          accepts (before ++ f :: after) uri language = accepts (before ++ after) uri language) ∧
      ∀ (s t : Selector), s ⊆ t → ∀ uri language,
        s.accepts uri language = true → t.accepts uri language = true := by
  refine ⟨fun _ _ => Uri.scheme?_eq_some_iff, ?_, fun _ _ => Uri.toList_of_scheme?, ?_, ?_, ?_⟩
  · intro uri
    simp only [Option.eq_none_iff_forall_ne_some, ne_eq, Uri.scheme?_eq_some_iff, not_exists,
      not_and]
    exact ⟨fun h s rest hs => h s hs rest, fun h s hs rest => h s rest hs⟩
  · intro c uri language
    refine accepts_iff.trans (exists_congr fun f => and_congr_right fun _ => ?_)
    exact ⟨fun h => ⟨h.scheme, h.language⟩, fun h => ⟨h.1, h.2⟩⟩
  · intro f s hf hs before after uri language
    have hnone := DocumentFilter.accepts_of_not_isScheme hf hs uri language
    simp only [accepts, List.any_append, List.any_cons, List.any_nil, hnone, Bool.false_or,
      and_self]
  · intro s t hst uri language h
    obtain ⟨f, hf, hpasses⟩ := accepts_iff.1 h
    exact accepts_iff.2 ⟨f, hst hf, hpasses⟩

/-- A filter that names what is no scheme is as good as none, and the filters beside it go on selecting. -/
theorem handles_by_grammar_beside_no_scheme :
    let f : DocumentFilter := ⟨some "1st", none⟩
    ¬ Uri.IsScheme "1st" ∧ accepts [f] "1st:a" "plaintext" = false ∧
      accepts ([] ++ f :: default) "file:///a:b" "plaintext" =
        accepts ([] ++ default) "file:///a:b" "plaintext" ∧
      Uri.scheme? "file:///a:b" = some "file" ∧
      "file".toList = "file:///a:b".toList.takeWhile (· ≠ ':') ∧
      default.accepts "file:///a:b" "plaintext" = true ∧
      accepts (f :: default) "file:///a:b" "plaintext" = true := by
  intro f
  have hno : ¬ Uri.IsScheme "1st" := by
    rintro ⟨first, rest, hs, hfirst, -⟩
    cases hs
    exact absurd hfirst (by decide)
  have hdefault : default.accepts "file:///a:b" "plaintext" = true := by decide
  obtain ⟨-, -, hbefore, -, hnone, hmore⟩ := handles_by_grammar
  refine ⟨hno, (hnone f "1st" rfl hno [] [] "1st:a" "plaintext").1,
    (hnone f "1st" rfl hno [] default "file:///a:b" "plaintext").2, by decide,
    (hbefore "file:///a:b" "file" (by decide)).2, hdefault, ?_⟩
  exact hmore default (f :: default) (List.subset_cons_self f default) _ _ hdefault

end Selector

end ColorMarks
