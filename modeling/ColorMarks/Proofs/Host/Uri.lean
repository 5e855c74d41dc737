import ColorMarks.Proofs.Selector
import ColorMarks.Proofs.Text.Octets

/-!
# What a file address says

The address of a path is `file://` and an escaped text (`Escaped`), from which the octets of the resolved
path are read back (`unescape?`). So no two resolved paths share an address. Its scheme is `file`, so that
a filter with this scheme or none selects the document whose language it allows.
-/

namespace ColorMarks

/-! ## Absolute paths -/

namespace Path

theorem isAbsolute_append {s : String} (h : isAbsolute s = true) (t : String) :
    isAbsolute (s ++ t) = true := by
  rw [isAbsolute, beq_iff_eq] at h ⊢
  rw [String.toList_append, List.head?_append, h]
  rfl

theorem isAbsolute_join {base : String} (h : isAbsolute base = true) (relative : String) :
    isAbsolute (join base relative) = true := by
  unfold join
  split
  · assumption
  · split
    · exact isAbsolute_append h relative
    · exact isAbsolute_append (isAbsolute_append h "/") relative

theorem isAbsolute_foldl_join (parts : List String) {base : String} (h : isAbsolute base = true) :
    isAbsolute (parts.foldl join base) = true := by
  induction parts generalizing base with
  | nil => exact h
  | cons part parts ih => exact ih (isAbsolute_join h part)

/-- Every path but the empty one can be made absolute. -/
theorem exists_absolute? {directory path : String} (hdirectory : isAbsolute directory = true)
    (hpath : path ≠ "") : ∃ p, absolute? directory path = some p ∧ isAbsolute p = true := by
  unfold absolute?
  rw [if_neg (by simpa using hpath)]
  refine ⟨_, rfl, ?_⟩
  have hend (whole : String) (hwhole : isAbsolute whole = true) :
      isAbsolute (if path.toList.getLast? == some '/' then join whole "" else whole) = true := by
    split
    · exact isAbsolute_join hwhole ""
    · exact hwhole
  -- whatever the path begins with, its parts are put behind an absolute base
  refine hend _ (isAbsolute_foldl_join _ ?_)
  split
  · decide
  · split <;> decide
  · decide
  · exact hdirectory

end Path

namespace Uri

/-- A path text that begins at the root: a slash is put before it unless it has one. -/
def rooted (path : String) : String := if Path.isAbsolute path then path else "/" ++ path

/-- The text that the address of a path stands for. -/
def resolved (h : Host) (path : String) : String := rooted (absoluteText h path)

theorem isAbsolute_rooted (path : String) : Path.isAbsolute (rooted path) = true := by
  unfold rooted
  split
  · assumption
  · exact Path.isAbsolute_append (by decide) path

/-- Seen from an absolute directory, nothing has to be put before the text of a path. -/
theorem resolved_of_ne {h : Host} {path : String} (hdirectory : Path.isAbsolute h.directory = true)
    (hpath : path ≠ "") : resolved h path = absoluteText h path := by
  refine if_pos ?_
  unfold absoluteText
  split
  · rename_i p hp
    unfold FileTree.canonical at hp
    cases hplace : h.files.resolve h.directory path with
    | error e =>
      rw [hplace] at hp
      cases hp
    | ok place =>
      rw [hplace] at hp
      cases hp
      exact Path.isAbsolute_append (by decide) _
  · obtain ⟨p, hp, habsolute⟩ := Path.exists_absolute? hdirectory hpath
    rw [hp]
    exact habsolute

/-- The empty path leads nowhere, and stands for the root. -/
theorem resolved_empty (h : Host) : resolved h "" = "/" := by
  have hnone : absoluteText h "" = "" := by
    have hnowhere : h.files.canonical h.directory "" = .error (.os .noSuchFile) := rfl
    rw [absoluteText, hnowhere]
    rfl
  rw [resolved, hnone]
  decide

/-! ## Escapes -/

/-- A character that stands for itself. -/
def IsPlain (c : Char) : Prop :=
  IsLetter c ∨ IsDigit c ∨ c = '-' ∨ c = '.' ∨ c = '_' ∨ c = '~' ∨ c = '/' ∨ c = ':'

/-- A hexadecimal digit, letters in upper case. -/
def IsHexUpper (c : Char) : Prop := IsDigit c ∨ ('A' ≤ c ∧ c ≤ 'F')

instance (c : Char) : Decidable (IsPlain c) := inferInstanceAs (Decidable (_ ∨ _))

instance (c : Char) : Decidable (IsHexUpper c) := inferInstanceAs (Decidable (_ ∨ _))

/-- A text of plain characters and of percent signs with two hexadecimal digits each. -/
inductive Escaped : List Char → Prop
  | nil : Escaped []
  | plain {c : Char} {cs : List Char} (hc : IsPlain c) (hcs : Escaped cs) : Escaped (c :: cs)
  | escape {hi lo : Char} {cs : List Char} (hhi : IsHexUpper hi) (hlo : IsHexUpper lo)
      (hcs : Escaped cs) : Escaped ('%' :: hi :: lo :: cs)

/-- The octets that a text stands for: an escape for one, any other character for its own. -/
def unescape? : List Char → Option (List UInt8)
  | [] => some []
  | '%' :: hi :: lo :: cs => do
    let hi ← Text.hexDigit? hi
    let lo ← Text.hexDigit? lo
    return UInt8.ofNat (16 * hi + lo) :: (← unescape? cs)
  | c :: cs =>
    if c = '%' then none else (unescape? cs).map (Text.octets (String.singleton c) ++ ·)

theorem isHexUpper_hexUpper {n : Nat} (h : n < 16) : IsHexUpper (hexUpper n) := by
  have hall : ∀ n < 16, IsHexUpper (hexUpper n) := by decide
  exact hall n h

theorem hexDigit?_hexUpper {n : Nat} (h : n < 16) : Text.hexDigit? (hexUpper n) = some n := by
  have hall : ∀ n < 16, Text.hexDigit? (hexUpper n) = some n := by decide
  exact hall n h

theorem isPlain_of_isSafe {b : UInt8} (h : isSafe b = true) :
    b.toNat < 128 ∧ IsPlain (Char.ofNat b.toNat) := by
  simp only [isSafe, Bool.and_eq_true, Bool.or_eq_true, decide_eq_true_eq, isAlphanum_iff,
    beq_iff_eq, or_assoc] at h
  exact ⟨UInt8.lt_iff_toNat_lt.1 h.1, h.2⟩

theorem not_isPlain_percent : ¬ IsPlain '%' := by decide

/-- An octet is read back from the way it is written. -/
theorem unescape?_escape_append (b : UInt8) (cs : List Char) :
    unescape? (escape b ++ cs) = (unescape? cs).map (b :: ·) := by
  have hb : b.toNat < 256 := b.toNat_lt
  unfold escape
  split
  · rename_i hsafe
    obtain ⟨hascii, hplain⟩ := isPlain_of_isSafe hsafe
    have hc : Char.ofNat b.toNat ≠ '%' := fun heq => not_isPlain_percent (heq ▸ hplain)
    have hoctets : Text.octets (String.singleton (Char.ofNat b.toNat)) = [b] := by
      rw [Text.octets_singleton (by rw [Text.toNat_ofNat hascii]; exact hascii),
        Text.toNat_ofNat hascii]
      exact congrArg (fun b => [b]) UInt8.ofNat_toNat
    rw [List.singleton_append, unescape?, if_neg hc, hoctets]
    · rfl
    · rintro _ _ _ heq
      exact absurd heq hc
  · have hhi := hexDigit?_hexUpper (n := b.toNat / 16) (by omega)
    have hlo := hexDigit?_hexUpper (n := b.toNat % 16) (by omega)
    have hvalue : UInt8.ofNat (16 * (b.toNat / 16) + b.toNat % 16) = b := by
      rw [Nat.div_add_mod]
      exact UInt8.ofNat_toNat
    simp only [List.cons_append, List.nil_append, unescape?, hhi, hlo]
    cases unescape? cs with
    | none => rfl
    | some bs => exact congrArg (fun b => some (b :: bs)) hvalue

/-- Octets are read back from the way they are written. -/
theorem unescape?_flatMap_escape (bs : List UInt8) : unescape? (bs.flatMap escape) = some bs := by
  induction bs with
  | nil => rfl
  | cons b bs ih => rw [List.flatMap_cons, unescape?_escape_append, ih, Option.map_some]

theorem escaped_flatMap_escape (bs : List UInt8) : Escaped (bs.flatMap escape) := by
  induction bs with
  | nil => exact .nil
  | cons b bs ih =>
    have hb : b.toNat < 256 := b.toNat_lt
    rw [List.flatMap_cons]
    unfold escape
    split
    · rename_i hsafe
      exact .plain (isPlain_of_isSafe hsafe).2 ih
    · exact .escape (isHexUpper_hexUpper (by omega)) (isHexUpper_hexUpper (by omega)) ih

/-! ## Addresses -/

/-- What stands in the address of a path after its scheme and two slashes. -/
def body (h : Host) (path : String) : List Char := (Text.octets (resolved h path)).flatMap escape

theorem ofPath_eq (h : Host) (path : String) : ofPath h path = "file://" ++ String.ofList (body h path) :=
  rfl

theorem unescape?_body (h : Host) (path : String) :
    unescape? (body h path) = some (Text.octets (resolved h path)) :=
  unescape?_flatMap_escape _

/-- The octet of the slash at the beginning is written as a slash. -/
theorem head?_body (h : Host) (path : String) : (body h path).head? = some '/' := by
  have hroot := isAbsolute_rooted (absoluteText h path)
  obtain ⟨cs, hcs⟩ := List.head?_eq_some_iff.1 (beq_iff_eq.1 hroot)
  have hoctets : Text.octets (resolved h path) = 47 :: cs.flatMap String.utf8EncodeChar := by
    rw [resolved, ← String.ofList_toList (s := rooted (absoluteText h path)), hcs, Text.octets_ofList]
    rfl
  rw [body, hoctets]
  rfl

theorem ofPath_eq_iff {h h' : Host} {path path' : String} :
    ofPath h path = ofPath h' path' ↔ resolved h path = resolved h' path' := by
  constructor
  · intro heq
    rw [ofPath_eq, ofPath_eq, ← String.toList_inj, String.toList_append, String.toList_append,
      List.append_cancel_left_eq, String.toList_ofList, String.toList_ofList] at heq
    have hoctets : some (Text.octets (resolved h path)) = some (Text.octets (resolved h' path')) := by
      rw [← unescape?_body, ← unescape?_body, heq]
    exact Text.octets_inj.1 (Option.some.inj hoctets)
  · intro heq
    rw [ofPath_eq, ofPath_eq, body, body, heq]

theorem isScheme_fileScheme : IsScheme fileScheme :=
  ⟨'f', ['i', 'l', 'e'], rfl, by decide, by simp [ContinuesScheme, IsLetter]⟩

theorem scheme?_ofPath (h : Host) (path : String) : scheme? (ofPath h path) = some fileScheme := by
  refine scheme?_eq_some_iff.2 ⟨isScheme_fileScheme, "//" ++ String.ofList (body h path), ?_⟩
  rw [ofPath_eq, ← String.append_assoc]
  rfl

/-- A filter for files or for any scheme, and for the language or for any, selects every file. -/
theorem selects_ofPath {s : Selector} {f : DocumentFilter} (hf : f ∈ s)
    (hscheme : f.scheme = none ∨ f.scheme = some fileScheme) {language : String}
    (hlanguage : f.language = none ∨ f.language = some language) (h : Host) (path : String) :
    s.accepts (ofPath h path) language = true := by
  refine Selector.accepts_iff.2 ⟨f, hf, ?_, hlanguage⟩
  exact hscheme.imp_right fun hfile => ⟨fileScheme, hfile, scheme?_ofPath h path⟩

/--
The address of every path is `file://` and an escaped text that begins with a slash and stands for exactly
the octets of the resolved path, which is the absolute text of the path or, for the empty path, the root.
So two paths have the same address exactly if they resolve to the same text. The scheme of the address is
`file`, and every filter for it, or for any scheme, selects the document.
-/
theorem file_addresses_lose_nothing :
    (∀ h path, ∃ text, ofPath h path = "file://" ++ String.ofList text ∧ Escaped text ∧
        text.head? = some '/' ∧ unescape? text = some (Text.octets (resolved h path))) ∧
      (∀ h path, Path.isAbsolute h.directory = true → path ≠ "" →
        resolved h path = absoluteText h path) ∧
      (∀ h, resolved h "" = "/") ∧
      (∀ h h' path path',
        ofPath h path = ofPath h' path' ↔ resolved h path = resolved h' path') ∧
      (∀ h path, scheme? (ofPath h path) = some fileScheme) ∧
      ∀ h path language (s : Selector) f, f ∈ s →
        (f.scheme = none ∨ f.scheme = some fileScheme) →
        (f.language = none ∨ f.language = some language) →
        s.accepts (ofPath h path) language = true := by
  refine ⟨fun h path => ⟨body h path, ofPath_eq h path, escaped_flatMap_escape _, head?_body h path,
    unescape?_body h path⟩, ?_, resolved_empty, ?_, scheme?_ofPath, ?_⟩
  · intro h path hdirectory hpath
    exact resolved_of_ne hdirectory hpath
  · intro h h' path path'
    exact ofPath_eq_iff
  · intro h path language s f hf hscheme hlanguage
    exact selects_ofPath hf hscheme hlanguage h path

/-- A link has the address of what it leads to, on whatever host that is named without the link. -/
theorem file_addresses_lose_nothing_link :
    let h : Host := { files := ⟨[(["link"], .link "/ü 1"), (["ü 1"], .directory)]⟩ }
    let f : DocumentFilter := ⟨some fileScheme, none⟩
    Path.isAbsolute h.directory = true ∧ "link" ≠ "" ∧ absoluteText h "link" = "/ü 1" ∧
      resolved h "link" = "/ü 1" ∧ ofPath h "link" = "file:///%C3%BC%201" ∧
      ofPath h "link" = ofPath {} "/./ü 1" ∧ ofPath h "link" ≠ ofPath {} "link" ∧
      Selector.accepts [f] (ofPath h "link") "plaintext" = true := by
  intro h f
  obtain ⟨-, hresolved, -, hsame, -, hselects⟩ := file_addresses_lose_nothing
  have hroot : Path.isAbsolute "/" = true := by decide
  have htext : absoluteText h "link" = "/ü 1" := by decide +kernel
  have hlink : resolved h "link" = "/ü 1" := (hresolved h "link" hroot (by decide)).trans htext
  have hplain : resolved {} "/./ü 1" = "/ü 1" :=
    (hresolved {} "/./ü 1" hroot (by decide)).trans (by decide +kernel)
  have hother : resolved {} "link" ≠ "/ü 1" := by decide +kernel
  refine ⟨hroot, by decide, htext, hlink, by decide +kernel, (hsame h {} _ _).2 (hlink.trans hplain.symm),
    fun heq => hother ?_, ?_⟩
  · exact ((hsame h {} _ _).1 heq).symm.trans hlink
  · exact hselects h "link" "plaintext" [f] f List.mem_cons_self (.inr rfl) (.inl rfl)

end Uri

end ColorMarks
