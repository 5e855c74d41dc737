import ColorMarks.Highlight.Style
import ColorMarks.Proofs.Diagnostic.Record

/-!
# Styles as records

The record of a style is read as the style, whatever the order of its members and of those inside it. In
the record of a fill the tag and the data share one object, and the tag may come after the data.
-/

namespace ColorMarks

open Json (fields? readable_nat readable_string readable_object_iff)

namespace Rgb

/-- The three components under their names. -/
def EncodedBy (c : Rgb) (v : Json) : Prop :=
  v.Carries [("r", some (.nat c.r.toNat)), ("g", some (.nat c.g.toNat)),
    ("b", some (.nat c.b.toNat))]

theorem EncodedBy.ofJson? {c : Rgb} {v : Json} (h : c.EncodedBy v) : ofJson? v = some c := by
  have hfields : fields? ["r", "g", "b"] v =
      some [some (.nat c.r.toNat), some (.nat c.g.toNat), some (.nat c.b.toNat)] :=
    Json.Carries.fields? h (by simp)
  refine then_eq_some hfields ?_
  refine then_eq_some (Json.required_octet c.r) ?_
  refine then_eq_some (Json.required_octet c.g) ?_
  refine then_eq_some (Json.required_octet c.b) ?_
  rw [UInt8.ofNat_toNat, UInt8.ofNat_toNat, UInt8.ofNat_toNat]
  rfl

end Rgb

namespace Fill

/-- An object is read as a fill if it has the tag of a kind and the rest of it is read as this kind. -/
theorem ofJson?_of_carries {kind : String} {fields : List (String × Option Json)} {v : Json}
    {f : Fill} (h : v.Carries (("kind", some (.string kind)) :: fields))
    (hnames : (("kind", some (Json.string kind)) :: fields).map Prod.fst |>.Nodup)
    (hrest : ∀ rest : Json, rest.Carries fields → ofKind? kind rest = some f) :
    ofJson? v = some f := by
  obtain ⟨members, rfl, hperm⟩ := h
  have hcarries : (Json.object members).Carries (("kind", some (.string kind)) :: fields) :=
    ⟨members, rfl, hperm⟩
  have htag := hcarries.member? hnames List.mem_cons_self
  have hothers := hcarries.without (List.nodup_cons.1 hnames).1
  exact then_eq_some htag (then_eq_some rfl (hrest _ hothers))

/-- A fill is read from its record with the members in any order, the tag among them. -/
theorem ofJson?_of_reordered {f : Fill} {v : Json} (h : f.toJson.Reordered v) :
    ofJson? v = some f := by
  cases f with
  | rgba c =>
    obtain ⟨ws, _ | ⟨hkind, _ | ⟨hr, _ | ⟨hg, _ | ⟨hb, _ | _⟩⟩⟩⟩, hcarries⟩ := h.carries
    obtain rfl := Json.string_reordered_iff.1 hkind
    obtain rfl := Json.integer_reordered_iff.1 hr
    obtain rfl := Json.integer_reordered_iff.1 hg
    obtain rfl := Json.integer_reordered_iff.1 hb
    refine ofJson?_of_carries hcarries (by simp) fun rest hrest => ?_
    have hread : Rgb.ofJson? rest = some c := Rgb.EncodedBy.ofJson? hrest
    rw [ofKind?, if_pos rfl, hread]
    rfl
  | unresolved raw =>
    obtain ⟨ws, _ | ⟨hkind, _ | ⟨hraw, _ | _⟩⟩, hcarries⟩ := h.carries
    obtain rfl := Json.string_reordered_iff.1 hkind
    obtain rfl := Json.string_reordered_iff.1 hraw
    refine ofJson?_of_carries hcarries (by simp) fun rest hrest => ?_
    have hfields : fields? ["raw"] rest = some [some (.string raw)] := hrest.fields? (by simp)
    rw [ofKind?, if_neg (by decide), if_pos rfl]
    exact then_eq_some hfields (then_eq_some rfl rfl)

theorem readable_toJson (f : Fill) : Json.Readable 1 f.toJson := by
  have hoctet : ∀ b : UInt8, Json.Readable 0 (.nat b.toNat) := fun b =>
    readable_nat 0 (Nat.lt_trans b.toNat_lt (by decide))
  cases f with
  | rgba c => simp [toJson, readable_object_iff, readable_string, hoctet]
  | unresolved raw => simp [toJson, readable_object_iff, readable_string]

end Fill

namespace StyleOptions

theorem ofJson?_of_reordered {o : StyleOptions} {v : Json} (h : o.toJson.Reordered v) :
    ofJson? v = some o := by
  obtain ⟨ws, _ | ⟨hfill, _ | _⟩, hcarries⟩ := h.carries
  have hfill' := Fill.ofJson?_of_reordered hfill
  exact then_eq_some (hcarries.fields? (by simp)) (then_eq_some hfill' rfl)

theorem readable_toJson (o : StyleOptions) : Json.Readable 2 o.toJson := by
  simp [toJson, readable_object_iff, Fill.readable_toJson]

end StyleOptions

namespace Style

variable {s : Style} {v : Json}

/-- A style is read from its record with the members in any order. -/
theorem ofJson?_of_reordered (hid : s.id < twoTo 64) (h : s.toJson.Reordered v) :
    ofJson? v = some s := by
  obtain ⟨ws, _ | ⟨hnumber, _ | ⟨hoptions, _ | _⟩⟩, hcarries⟩ := h.carries
  obtain rfl := Json.integer_reordered_iff.1 hnumber
  have hid' : Json.required idOfJson? (some (.nat s.id)) = some s.id := by
    rw [Json.required, Option.bind_some, Json.nat, idOfJson?]
    · exact Json.below?_nat hid
    · intro w hw
      cases hw
  have hoptions' := StyleOptions.ofJson?_of_reordered hoptions
  exact then_eq_some (hcarries.fields? (by simp)) (then_eq_some hid' (then_eq_some hoptions' rfl))

theorem readable_toJson (hid : s.id < twoTo 64) : Json.Readable 3 s.toJson := by
  simp [toJson, readable_object_iff, readable_nat 2 hid, StyleOptions.readable_toJson]

end Style

/-! ## Through the text -/

/-- What is read from the members in any order is read from the text of them. -/
theorem Json.Reordered.read_text {α : Type} {read : Json → Option α} {a : α} {n : Nat}
    {record v : Json} (h : record.Reordered v) (hrecord : Readable n record) (hn : n ≤ maxDepth)
    (hread : read v = some a) : (Json.read? v.text).bind read = some a := by
  rw [(h.readable (hrecord.mono hn)).read?_text]
  exact hread

/--
Every finding and every style with a number of 64 bits is read from the text of its record, and also from
the text of its record with the members in another order, at any level.
-/
theorem read_text_of_reordered :
    (∀ d : Diagnostic, (Json.read? d.toJson.text).bind Diagnostic.ofJson? = some d ∧
      ∀ v, d.toJson.Reordered v → (Json.read? v.text).bind Diagnostic.ofJson? = some d) ∧
    ∀ s : Style, s.id < twoTo 64 →
      (Json.read? s.toJson.text).bind Style.ofJson? = some s ∧
      ∀ v, s.toJson.Reordered v → (Json.read? v.text).bind Style.ofJson? = some s := by
  constructor
  · intro d
    have hread : ∀ v, d.toJson.Reordered v →
        (Json.read? v.text).bind Diagnostic.ofJson? = some d := fun v hv =>
      hv.read_text d.readable_toJson (by decide) (Diagnostic.ofJson?_of_reordered hv)
    exact ⟨hread _ (.refl _), hread⟩
  · intro s hid
    have hread : ∀ v, s.toJson.Reordered v → (Json.read? v.text).bind Style.ofJson? = some s :=
      fun v hv => hv.read_text (Style.readable_toJson hid) (by decide)
        (Style.ofJson?_of_reordered hid hv)
    exact ⟨hread _ (.refl _), hread⟩

/-- A finding with the members of a related place in another order, and a style with the tag of its fill
last. -/
theorem read_text_with_tag_last :
    let place : Range := ⟨⟨4294967295, 0⟩, ⟨4294967295, 4294967295⟩⟩
    let finding : Diagnostic :=
      ⟨place, some .hint, none, some "é", "", [⟨⟨"file:///b", place⟩, "\"1,2,3\""⟩]⟩
    let mixed : Json := .object [("severity", .string "Hint"), ("range", place.toJson),
      ("code", .null), ("source", .string "é"), ("message", .string ""),
      ("related_information", .array [.object [("message", .string "\"1,2,3\""),
        ("location", .object [("uri", .string "file:///b"), ("range", place.toJson)])]])]
    let style : Style := ⟨18446744073709551615, ⟨.unresolved "Color:red"⟩⟩
    let late : Json := .object [("id", .nat 18446744073709551615), ("options", .object
      [("background_color", .object [("raw", .string "Color:red"), ("kind", .string "unresolved")])])]
    (Json.read? mixed.text).bind Diagnostic.ofJson? = some finding ∧
      18446744073709551615 < twoTo 64 ∧ (Json.read? late.text).bind Style.ofJson? = some style := by
  intro place finding mixed style late
  have hfinding : finding.toJson.Reordered mixed := by
    refine Json.object_reordered (.swap _ _ _) (.cons ⟨rfl, .refl _⟩ (.cons ⟨rfl, .refl _⟩ (.cons
      ⟨rfl, .refl _⟩ (.cons ⟨rfl, .refl _⟩ (.cons ⟨rfl, .refl _⟩ (.cons ⟨rfl, ?_⟩ .nil))))))
    refine Json.array_reordered_iff.2 ⟨_, rfl, .cons ?_ .nil⟩
    exact Json.object_reordered (.swap _ _ _) (.cons ⟨rfl, .refl _⟩ (.cons ⟨rfl, .refl _⟩ .nil))
  have hstyle : style.toJson.Reordered late := by
    refine Json.object_reordered (.refl _) (.cons ⟨rfl, .refl _⟩ (.cons ⟨rfl, ?_⟩ .nil))
    refine Json.object_reordered (.refl _) (.cons ⟨rfl, ?_⟩ .nil)
    exact Json.object_reordered (.swap _ _ _) (.cons ⟨rfl, .refl _⟩ (.cons ⟨rfl, .refl _⟩ .nil))
  have hid : 18446744073709551615 < twoTo 64 := by decide
  exact ⟨(read_text_of_reordered.1 finding).2 mixed hfinding, hid,
    (read_text_of_reordered.2 style hid).2 late hstyle⟩

end ColorMarks
