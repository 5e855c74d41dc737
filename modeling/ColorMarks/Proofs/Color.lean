import ColorMarks.Proofs.Highlight.Grouping
import ColorMarks.Proofs.Text.Numeral
import ColorMarks.Proofs.Traversal

/-!
# The language of color directives

A message is a directive exactly if it begins with `Color:`, and the rest of it is the key. `NamesColor`
is the grammar of the keys that name a color, three integers of 64 bits with commas between them and any
blanks around each; what becomes of a message is told from this grammar alone
(`ofMessage?_eq_some_iff_reads`). Integers of any size that are printed with commas between them name
their color only if 64 bits hold each of them (`ofMessage?_printed`).
-/

namespace ColorMarks.Directive

open Text (Denotes IsInt64 pieces)

/-- A key that consists of three integers, with a comma between each two. -/
inductive NamesColor : String → Int → Int → Int → Prop
  | mk {p q s : List Char} {r g b : Int} (hr : Denotes p r) (hg : Denotes q g) (hb : Denotes s b)
      (hr' : IsInt64 r) (hg' : IsInt64 g) (hb' : IsInt64 b) :
      NamesColor (String.ofList (p ++ ',' :: (q ++ ',' :: s))) r g b

/-- A channel is an integer cut off at 0 and 255. -/
def IsClamped (n : Int) (v : UInt8) : Prop := (v.toNat : Int) = max 0 (min n 255)

/-- What a directive says, told from its key by the grammar. -/
structure Reads (text : String) (d : Directive) : Prop where
  key : d.key = text
  /-- It is parsed exactly if its key is of the grammar. -/
  parsed : d.isParsed = true ↔ ∃ r g b, NamesColor text r g b
  /-- Then each channel is its integer, cut off at either end. -/
  color : ∀ r g b, NamesColor text r g b →
    ∃ c, d.fill = .rgba c ∧ IsClamped r c.r ∧ IsClamped g c.g ∧ IsClamped b c.b
  /-- Otherwise the whole key stays unresolved. -/
  unresolved : (∀ r g b, ¬ NamesColor text r g b) → d.fill = .unresolved text

/-- Three integers as they are printed, with commas between them. -/
def printed (r g b : Int) : String := s!"{r},{g},{b}"

/-! ## Parts of a key -/

theorem isClamped_clamp (n : Int) : IsClamped n (clamp n) := by
  have hclamp : (clamp n).toNat = min n.toNat 255 := by
    rw [clamp, UInt8.toNat_ofNat', Nat.mod_eq_of_lt (by omega)]
  rw [IsClamped, hclamp]
  omega

theorem IsClamped.unique {n : Int} {v w : UInt8} (hv : IsClamped n v) (hw : IsClamped n w) :
    v = w := by
  unfold IsClamped at hv hw
  apply UInt8.toNat_inj.1
  omega

theorem channel?_eq_some_iff {part : List Char} {v : UInt8} :
    channel? part = some v ↔ ∃ n, Denotes part n ∧ IsInt64 n ∧ clamp n = v := by
  simp only [channel?, Option.map_eq_some_iff, Text.int64?_eq_some_iff, Text.denotes_iff, and_assoc]

/-- A key names a color if it has three pieces and each of them is a channel. -/
theorem color?_eq_some_iff {key : List Char} {c : Rgb} :
    color? key = some c ↔
      List.Forall₂ (fun part v => channel? part = some v) (pieces ',' key) [c.r, c.g, c.b] := by
  rw [← mapM_eq_some_iff, color?]
  constructor
  · intro h
    split at h
    · rename_i r g b heq
      obtain rfl := Option.some.inj h
      exact heq
    · cases h
  · intro h
    simp only [h]

/-- The pieces of a key of the grammar are its integers. -/
theorem NamesColor.pieces {key : String} {r g b : Int} (h : NamesColor key r g b) :
    List.Forall₂ (fun part n => Denotes part n ∧ IsInt64 n) (pieces ',' key.toList) [r, g, b] := by
  obtain ⟨hr, hg, hb, hr', hg', hb'⟩ := h
  rw [String.toList_ofList, Text.pieces_append_cons hr.not_mem_comma,
    Text.pieces_append_cons hg.not_mem_comma, Text.pieces_of_not_mem hb.not_mem_comma]
  exact .cons ⟨hr, hr'⟩ (.cons ⟨hg, hg'⟩ (.cons ⟨hb, hb'⟩ .nil))

theorem NamesColor.color? {key : String} {r g b : Int} (h : NamesColor key r g b) :
    color? key.toList = some ⟨clamp r, clamp g, clamp b⟩ := by
  have hparts := h.pieces.imp fun part n hn => channel?_eq_some_iff.2 ⟨n, hn.1, hn.2, rfl⟩
  have hchannels : List.Forall₂ (fun part v => channel? part = some v) (Text.pieces ',' key.toList)
      ([r, g, b].map clamp) := List.forall₂_map_right_iff.2 hparts
  exact color?_eq_some_iff.2 hchannels

/-- A key that names a color is of the grammar. -/
theorem exists_namesColor {key : String} {c : Rgb} (h : Directive.color? key.toList = some c) :
    ∃ r g b, NamesColor key r g b := by
  have hjoined := Text.joined_pieces ',' key.toList
  have hparts := color?_eq_some_iff.1 h
  generalize pieces ',' key.toList = parts at hjoined hparts
  obtain _ | ⟨hp, _ | ⟨hq, _ | ⟨hs, _ | _⟩⟩⟩ := hparts
  obtain ⟨r, hr, hr', -⟩ := channel?_eq_some_iff.1 hp
  obtain ⟨g, hg, hg', -⟩ := channel?_eq_some_iff.1 hq
  obtain ⟨b, hb, hb', -⟩ := channel?_eq_some_iff.1 hs
  rw [← String.ofList_toList (s := key), ← hjoined]
  exact ⟨r, g, b, .mk hr hg hb hr' hg' hb'⟩

/-! ## Directives of keys -/

theorem ofKey_of_namesColor {key : String} {r g b : Int} (h : NamesColor key r g b) :
    ofKey key = .parsed key ⟨clamp r, clamp g, clamp b⟩ := by
  rw [ofKey, h.color?]

theorem ofKey_of_not_namesColor {key : String} (h : ∀ r g b, ¬ NamesColor key r g b) :
    ofKey key = .unparsed key := by
  have hnone : Directive.color? key.toList = none := by
    apply Option.eq_none_iff_forall_ne_some.2
    intro c hc
    obtain ⟨r, g, b, hnames⟩ := exists_namesColor hc
    exact h r g b hnames
  rw [ofKey, hnone]

theorem reads_ofKey (key : String) : Reads key (ofKey key) := by
  by_cases h : ∃ r g b, NamesColor key r g b
  · obtain ⟨r, g, b, hnames⟩ := h
    refine ⟨key_ofKey key, ?_, ?_, ?_⟩
    · rw [ofKey_of_namesColor hnames]
      exact ⟨fun _ => ⟨r, g, b, hnames⟩, fun _ => rfl⟩
    · intro r' g' b' hnames'
      rw [ofKey_of_namesColor hnames']
      exact ⟨_, rfl, isClamped_clamp r', isClamped_clamp g', isClamped_clamp b'⟩
    · intro hnot
      exact absurd hnames (hnot r g b)
  · have hnot : ∀ r g b, ¬ NamesColor key r g b := fun r g b hnames => h ⟨r, g, b, hnames⟩
    refine ⟨key_ofKey key, ?_, ?_, ?_⟩
    · rw [ofKey_of_not_namesColor hnot]
      constructor
      · intro hparsed
        cases hparsed
      · intro hnames
        exact absurd hnames h
    · intro r g b hnames
      exact absurd hnames (hnot r g b)
    · intro _
      rw [ofKey_of_not_namesColor hnot]
      rfl

/-- The grammar leaves no choice. -/
theorem Reads.eq_ofKey {key : String} {d : Directive} (h : Reads key d) : d = ofKey key := by
  by_cases hnames : ∃ r g b, NamesColor key r g b
  · have hparsed := h.parsed.2 hnames
    obtain ⟨r, g, b, hnames⟩ := hnames
    obtain ⟨c, hfill, hr, hg, hb⟩ := h.color r g b hnames
    rw [ofKey_of_namesColor hnames]
    cases d with
    | unparsed text => cases hparsed
    | parsed text c' =>
      obtain rfl : c' = c := by simpa [fill] using hfill
      obtain rfl : text = key := h.key
      rw [← hr.unique (isClamped_clamp r), ← hg.unique (isClamped_clamp g),
        ← hb.unique (isClamped_clamp b)]
  · have hnot : ∀ r g b, ¬ NamesColor key r g b := fun r g b hn => hnames ⟨r, g, b, hn⟩
    rw [ofKey_of_not_namesColor hnot]
    cases d with
    | parsed text c => exact absurd (h.parsed.1 rfl) hnames
    | unparsed text => rw [show text = key from h.key]

/-! ## Printed integers -/

/-- Printed integers are of the grammar exactly if 64 bits hold each of them. -/
theorem namesColor_printed_iff {r g b r' g' b' : Int} :
    NamesColor (printed r g b) r' g' b' ↔
      (r' = r ∧ g' = g ∧ b' = b) ∧ IsInt64 r ∧ IsInt64 g ∧ IsInt64 b := by
  have hr := Text.denotes_repr r
  have hg := Text.denotes_repr g
  have hb := Text.denotes_repr b
  have hkey : printed r g b =
      String.ofList (r.repr.toList ++ ',' :: (g.repr.toList ++ ',' :: b.repr.toList)) := by
    apply String.toList_inj.1
    simp [printed, Int.toString_eq_repr]
    rfl
  rw [hkey]
  constructor
  · intro h
    have hparts := h.pieces
    rw [String.toList_ofList, Text.pieces_append_cons hr.not_mem_comma,
      Text.pieces_append_cons hg.not_mem_comma, Text.pieces_of_not_mem hb.not_mem_comma] at hparts
    simp only [List.forall₂_cons] at hparts
    obtain ⟨⟨hr', hrange⟩, ⟨hg', hgange⟩, ⟨hb', hbange⟩, -⟩ := hparts
    obtain rfl := hr'.unique hr
    obtain rfl := hg'.unique hg
    obtain rfl := hb'.unique hb
    exact ⟨⟨rfl, rfl, rfl⟩, hrange, hgange, hbange⟩
  · rintro ⟨⟨rfl, rfl, rfl⟩, hr', hg', hb'⟩
    exact .mk hr hg hb hr' hg' hb'

/-! ## Messages -/

theorem ofMessage?_color (key : String) : ofMessage? ("Color:" ++ key) = some (ofKey key) :=
  ofMessage?_eq_some_iff.2 ⟨key, rfl, rfl⟩

/--
A message is no directive exactly if it does not begin with `Color:`. Otherwise the directive is what
the grammar says of the rest. The three channels of any color that are printed with commas between them
are read as this color.
-/
theorem ofMessage?_eq_some_iff_reads :
    (∀ message, (ofMessage? message = none ↔ ∀ key, message ≠ "Color:" ++ key) ∧
      ∀ d, ofMessage? message = some d ↔ ∃ key, message = "Color:" ++ key ∧ Reads key d) ∧
    ∀ c : Rgb, ofMessage? s!"Color:{c.r},{c.g},{c.b}" =
      some (.parsed s!"{c.r},{c.g},{c.b}" c) := by
  refine ⟨fun message => ⟨?_, fun d => ?_⟩, fun c => ?_⟩
  · constructor
    · rintro h key rfl
      rw [ofMessage?_color] at h
      cases h
    · intro h
      apply Option.eq_none_iff_forall_ne_some.2
      intro d hd
      obtain ⟨key, hkey, -⟩ := ofMessage?_eq_some_iff.1 hd
      exact h key hkey
  · rw [ofMessage?_eq_some_iff]
    refine exists_congr fun key => and_congr_right fun _ => ?_
    constructor
    · rintro rfl
      exact reads_ofKey key
    · exact Reads.eq_ofKey
  · have hbyte (v : UInt8) : IsInt64 v.toNat := by
      have hlt := v.toNat_lt
      have hbound : 256 ≤ twoTo 63 := by decide
      exact ⟨by omega, by omega⟩
    have hnames : NamesColor (printed c.r.toNat c.g.toNat c.b.toNat) c.r.toNat c.g.toNat c.b.toNat :=
      namesColor_printed_iff.2 ⟨⟨rfl, rfl, rfl⟩, hbyte c.r, hbyte c.g, hbyte c.b⟩
    have hclamp (v : UInt8) : clamp v.toNat = v := by
      have hlt := v.toNat_lt
      refine (isClamped_clamp v.toNat).unique ?_
      unfold IsClamped
      omega
    have hkey : s!"{c.r},{c.g},{c.b}" = printed c.r.toNat c.g.toNat c.b.toNat := rfl
    have hmessage : s!"Color:{c.r},{c.g},{c.b}" = "Color:" ++ s!"{c.r},{c.g},{c.b}" := by
      apply String.toList_inj.1
      simp
      rfl
    rw [hmessage, ofMessage?_color, hkey, ofKey_of_namesColor hnames, hclamp, hclamp, hclamp]

/--
Integers that are printed with commas between them name their color, each of them cut off at 0 and 255,
if 64 bits hold all three; if not, their key names no color.
-/
theorem ofMessage?_printed (r g b : Int) :
    ∃ d, ofMessage? ("Color:" ++ printed r g b) = some d ∧
      if IsInt64 r ∧ IsInt64 g ∧ IsInt64 b then
        ∃ c, d = .parsed (printed r g b) c ∧ IsClamped r c.r ∧ IsClamped g c.g ∧ IsClamped b c.b
      else d = .unparsed (printed r g b) := by
  refine ⟨_, ofMessage?_color _, ?_⟩
  split
  · rename_i hrange
    rw [ofKey_of_namesColor (namesColor_printed_iff.2 ⟨⟨rfl, rfl, rfl⟩, hrange⟩)]
    exact ⟨_, rfl, isClamped_clamp r, isClamped_clamp g, isClamped_clamp b⟩
  · rename_i hrange
    apply ofKey_of_not_namesColor
    intro r' g' b' hnames
    exact hrange (namesColor_printed_iff.1 hnames).2

/-- An integer that is too large for 64 bits is not cut off at 255: its key names no color. -/
theorem unparsed_above_int64 :
    ofMessage? ("Color:" ++ printed (twoTo 63) 0 0) = some (.unparsed (printed (twoTo 63) 0 0)) ∧
    ¬ ∀ r g b : Int, ∃ c, ofMessage? ("Color:" ++ printed r g b) = some (.parsed (printed r g b) c) ∧
      IsClamped r c.r ∧ IsClamped g c.g ∧ IsClamped b c.b := by
  have hnot : ∀ r g b, ¬ NamesColor (printed (twoTo 63) 0 0) r g b := by
    intro r g b hnames
    exact absurd (namesColor_printed_iff.1 hnames).2.1 (by decide)
  have hunparsed : ofMessage? ("Color:" ++ printed (twoTo 63) 0 0) =
      some (.unparsed (printed (twoTo 63) 0 0)) := by
    rw [ofMessage?_color, ofKey_of_not_namesColor hnot]
  refine ⟨hunparsed, ?_⟩
  intro h
  obtain ⟨c, hparsed, -⟩ := h (twoTo 63) 0 0
  rw [hunparsed] at hparsed
  cases hparsed

end ColorMarks.Directive
