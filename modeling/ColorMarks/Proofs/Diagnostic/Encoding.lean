import ColorMarks.Diagnostic.Record
import ColorMarks.Proofs.Diagnostic.Decoding
import ColorMarks.Proofs.Json.Record
import Mathlib.Data.List.Forall2

/-!
# The written form of findings

Each type of the model is written as an object with its fields under their names, those that are absent
left out. The order of the members and members under other names carry no meaning, and whatever is written
in this way is read back as it was.
-/

namespace ColorMarks

/-- A line and a character. -/
def Position.EncodedBy (p : Position) (v : Json) : Prop :=
  v.Carries [("line", some (.nat p.line.toNat)), ("character", some (.nat p.character.toNat))]

/-- A start and an end. -/
def Range.EncodedBy (r : Range) (v : Json) : Prop :=
  ∃ start stop, r.start.EncodedBy start ∧ r.end.EncodedBy stop ∧
    v.Carries [("start", some start), ("end", some stop)]

/-- An address and a range. -/
def Location.EncodedBy (l : Location) (v : Json) : Prop :=
  ∃ range, l.range.EncodedBy range ∧
    v.Carries [("uri", some (.string l.uri)), ("range", some range)]

/-- A location and a message. -/
def Related.EncodedBy (x : Related) (v : Json) : Prop :=
  ∃ location, x.location.EncodedBy location ∧
    v.Carries [("location", some location), ("message", some (.string x.message))]

namespace Diagnostic

/-- The code of a finding is a text, or an integer of which it is the decimal text. -/
inductive CodeEncodedBy : Option String → Option Json → Prop
  | absent : CodeEncodedBy none none
  | text (s : String) : CodeEncodedBy (some s) (some (.string s))
  | integer (n : Int) : CodeEncodedBy (some n.repr) (some (.integer n))

/-- The related places of a finding in their order; the member may be left out if there are none. -/
inductive RelatedEncodedBy : List Related → Option Json → Prop
  | absent : RelatedEncodedBy [] none
  | listed {related : List Related} {items : List Json}
      (h : List.Forall₂ Related.EncodedBy related items) :
      RelatedEncodedBy related (some (.array items))

/-- A range and a message, and what else there is. Severities are numbers. -/
def EncodedBy (d : Diagnostic) (v : Json) : Prop :=
  ∃ range code related, d.range.EncodedBy range ∧ CodeEncodedBy d.code code ∧
    RelatedEncodedBy d.related related ∧
    v.Carries [("range", some range), ("severity", d.severity.map fun s => .nat s.number),
      ("code", code), ("source", d.source.map .string), ("message", some (.string d.message)),
      ("relatedInformation", related)]

/-- A finding as an object without other members, its code as a text. -/
def payload (d : Diagnostic) : Json :=
  .ofFields [("range", some d.range.toJson), ("severity", d.severity.map fun s => .nat s.number),
    ("code", d.code.map .string), ("source", d.source.map .string),
    ("message", some (.string d.message)),
    ("relatedInformation", some (.list Related.toJson d.related))]

end Diagnostic

namespace Publication

/-- An address and the findings in their order, with the version if there is one. -/
def EncodedBy (p : Publication) (v : Json) : Prop :=
  ∃ items, List.Forall₂ Diagnostic.EncodedBy p.diagnostics items ∧
    v.Carries [("uri", some (.string p.uri)), ("version", p.version.map .integer),
      ("diagnostics", some (.array items))]

/-- A publication as an object without other members. -/
def payload (p : Publication) : Json :=
  .ofFields [("uri", some (.string p.uri)), ("version", p.version.map .integer),
    ("diagnostics", some (.list Diagnostic.payload p.diagnostics))]

end Publication

/-! ## What is written is read -/

theorem Position.EncodedBy.reads {p : Position} {v : Json} (h : p.EncodedBy v) : Reads v p :=
  ⟨h.get? (by simp) (by simp), h.get? (by simp) (by simp)⟩

theorem Range.EncodedBy.reads {r : Range} {v : Json} (h : r.EncodedBy v) : Reads v r := by
  obtain ⟨start, stop, hstart, hstop, hfields⟩ := h
  exact ⟨⟨start, hfields.get? (by simp) (by simp), hstart.reads⟩,
    ⟨stop, hfields.get? (by simp) (by simp), hstop.reads⟩⟩

theorem Location.EncodedBy.reads {l : Location} {v : Json} (h : l.EncodedBy v) : Reads v l := by
  obtain ⟨range, hrange, hfields⟩ := h
  exact ⟨hfields.get? (by simp) (by simp), range, hfields.get? (by simp) (by simp), hrange.reads⟩

theorem Related.EncodedBy.reads {x : Related} {v : Json} (h : x.EncodedBy v) : Reads v x := by
  obtain ⟨location, hlocation, hfields⟩ := h
  exact ⟨⟨location, hfields.get? (by simp) (by simp), hlocation.reads⟩,
    hfields.get? (by simp) (by simp)⟩

/-- Where each of some values is written as one item, each item has its image. -/
theorem images_of_forall₂ {α : Type} {Encoded : α → Json → Prop} {R : Json → α → Prop}
    (hR : ∀ {a v}, Encoded a v → R v a) {as : List α} {items : List Json}
    (h : List.Forall₂ Encoded as items) : Images R items as := by
  induction h with
  | nil => exact .nil
  | cons hitem _ ih => exact .kept (hR hitem) ih

namespace Diagnostic

theorem nat_number_injective : Function.Injective fun s : Severity => Json.nat s.number := by
  intro s t h
  have hnumber : (s.number : Int) = t.number := Json.integer.inj h
  have hsome := Severity.ofNumber?_number s
  rw [Int.ofNat_inj.1 hnumber, Severity.ofNumber?_number] at hsome
  exact (Option.some.inj hsome).symm

theorem CodeEncodedBy.bind_decodeCode? {code : Option String} {v : Option Json}
    (h : CodeEncodedBy code v) : v.bind decodeCode? = code := by
  cases h with
  | absent => rfl
  | text s => rfl
  | integer n => exact decodeCode?_eq_some_iff.2 (.integer n)

theorem RelatedEncodedBy.images {related : List Related} {items : List Json}
    (h : RelatedEncodedBy related (some (.array items))) : Images Related.Reads items related := by
  cases h with
  | listed hlisted => exact images_of_forall₂ Related.EncodedBy.reads hlisted

theorem RelatedEncodedBy.eq_nil {related : List Related} {v : Option Json}
    (h : RelatedEncodedBy related v) (hnone : ∀ items, v ≠ some (.array items)) : related = [] := by
  cases h with
  | absent => rfl
  | listed _ => exact absurd rfl (hnone _)

theorem EncodedBy.reads {d : Diagnostic} {v : Json} (h : d.EncodedBy v) : Reads v d := by
  obtain ⟨range, code, related, hrange, hcode, hrelated, hfields⟩ := h
  have hseverity : v.get? "severity" = d.severity.map fun s => .nat s.number :=
    hfields.get? (by simp) (by simp)
  have hcode' : v.get? "code" = code := hfields.get? (by simp) (by simp)
  have hsource : v.get? "source" = d.source.map .string := hfields.get? (by simp) (by simp)
  have hmessage : v.get? "message" = some (.string d.message) := hfields.get? (by simp) (by simp)
  have hrelated' : v.get? "relatedInformation" = related := hfields.get? (by simp) (by simp)
  refine ⟨⟨range, hfields.get? (by simp) (by simp), hrange.reads⟩, ?_, ?_, ?_, ?_, ?_, ?_, ?_⟩
  · intro s
    rw [hseverity]
    exact (Option.map_injective nat_number_injective).eq_iff.symm
  · intro s
    rw [← code_eq_some_iff, hcode', hcode.bind_decodeCode?]
  · intro s
    rw [hsource]
    exact (Option.map_injective fun _ _ => Json.string.inj).eq_iff.symm
  · intro s hs
    rw [hmessage] at hs
    exact Json.string.inj (Option.some.inj hs)
  · intro hnone
    exact absurd hmessage (hnone d.message)
  · intro items hitems
    rw [← hrelated', hitems] at hrelated
    exact hrelated.images
  · rw [hrelated']
    exact hrelated.eq_nil

end Diagnostic

/-- A version is read if it is an integer of 32 bits. -/
theorem Publication.EncodedBy.reads {p : Publication} {v : Json} (h : p.EncodedBy v)
    (hversion : ∀ n, p.version = some n → IsInt32 n) : Reads v p := by
  obtain ⟨items, hitems, hfields⟩ := h
  have hversion' : v.get? "version" = p.version.map .integer := hfields.get? (by simp) (by simp)
  have hitems' : v.get? "diagnostics" = some (.array items) := hfields.get? (by simp) (by simp)
  refine ⟨hfields.get? (by simp) (by simp), ?_, ?_, ?_⟩
  · intro n
    have hiff : p.version.map Json.integer = some (.integer n) ↔ p.version = some n :=
      (Option.map_injective fun _ _ => Json.integer.inj).eq_iff (b := some n)
    rw [hversion', hiff]
    constructor
    · intro hn
      exact ⟨hn, hversion n hn⟩
    · rintro ⟨hn, -⟩
      exact hn
  · intro items' h'
    rw [hitems'] at h'
    obtain rfl := Json.array.inj (Option.some.inj h')
    exact images_of_forall₂ Diagnostic.EncodedBy.reads hitems
  · intro hnone
    exact absurd hitems' (hnone items)

/-! ## The written form without other members -/

theorem Position.encodedBy_toJson (p : Position) : p.EncodedBy p.toJson := Json.carries_object rfl

theorem Range.encodedBy_toJson (r : Range) : r.EncodedBy r.toJson :=
  ⟨r.start.toJson, r.end.toJson, r.start.encodedBy_toJson, r.end.encodedBy_toJson,
    Json.carries_object rfl⟩

theorem Location.encodedBy_toJson (l : Location) : l.EncodedBy l.toJson :=
  ⟨l.range.toJson, l.range.encodedBy_toJson, Json.carries_object rfl⟩

theorem Related.encodedBy_toJson (x : Related) : x.EncodedBy x.toJson :=
  ⟨x.location.toJson, x.location.encodedBy_toJson, Json.carries_object rfl⟩

/-- A list is written item by item. -/
theorem forall₂_list {α : Type} {Encoded : α → Json → Prop} {f : α → Json}
    (hf : ∀ a, Encoded a (f a)) (as : List α) : List.Forall₂ Encoded as (as.map f) := by
  rw [List.forall₂_map_right_iff, List.forall₂_same]
  intro a _
  exact hf a

theorem Diagnostic.codeEncodedBy_text (code : Option String) :
    CodeEncodedBy code (code.map .string) := by
  cases code with
  | none => exact .absent
  | some s => exact .text s

theorem Diagnostic.encodedBy_payload (d : Diagnostic) : d.EncodedBy d.payload :=
  ⟨_, _, _, d.range.encodedBy_toJson, codeEncodedBy_text d.code,
    .listed (forall₂_list Related.encodedBy_toJson d.related), Json.carries_object rfl⟩

theorem Publication.encodedBy_payload (p : Publication) : p.EncodedBy p.payload :=
  ⟨_, forall₂_list Diagnostic.encodedBy_payload p.diagnostics, Json.carries_object rfl⟩

/-! ## Publications -/

/--
Every publication has a written form, and each of its written forms, with whatever other members, is read
as this publication, also where it is the payload of a message.
-/
theorem Publication.read_of_encodedBy (p : Publication)
    (hversion : ∀ n, p.version = some n → IsInt32 n) :
    p.EncodedBy p.payload ∧
    ∀ params, p.EncodedBy params →
      Notification.ofMethod? publishMethod params = some (.publish p) ∧
      ∀ message : Json, message.Carries [("id", none), ("method", some (.string publishMethod)),
        ("params", some params)] → Notification.ofJson? message = some (.publish p) := by
  refine ⟨p.encodedBy_payload, fun params hparams => ?_⟩
  have hread : Notification.ofMethod? publishMethod params = some (.publish p) := by
    rw [Notification.ofMethod?_publish, decode?_eq_some_iff.2 (hparams.reads hversion)]
    rfl
  refine ⟨hread, fun message hmessage => ?_⟩
  have hid : message.get? "id" = none := hmessage.get? (by simp) (by simp)
  have hmethod : message.get? "method" = some (.string publishMethod) :=
    hmessage.get? (by simp) (by simp)
  have hpayload : message.get? "params" = some params := hmessage.get? (by simp) (by simp)
  rw [Notification.ofJson?, hid, hmethod, hpayload]
  exact hread

/-- The last lines, the least version and a code that is a number, among members of other names. -/
theorem Publication.read_of_encodedBy_among_others :
    let place : Range := ⟨⟨4294967295, 0⟩, ⟨4294967295, 4294967295⟩⟩
    let related : Related := ⟨⟨"file:///b", place⟩, "Color:1,2,3"⟩
    let finding : Diagnostic := ⟨place, some .hint, some "-7", none, "", [related]⟩
    let item : Json := .object [("range", place.toJson), ("data", .null), ("severity", .nat 4),
      ("code", .integer (-7)), ("message", .string ""), ("tags", .array []),
      ("relatedInformation", .array [related.toJson])]
    let params : Json := .object [("diagnostics", .array [item]), ("origin", .bool true),
      ("uri", .string "file:///a"), ("version", .integer (-2147483648))]
    let message : Json := .object [("jsonrpc", .string "2.0"), ("method", .string publishMethod),
      ("params", params)]
    let p : Publication := ⟨"file:///a", some (-2147483648), [finding]⟩
    Notification.ofMethod? publishMethod params = some (.publish p) ∧
      Notification.ofJson? message = some (.publish p) := by
  intro place related finding item params message p
  have hcode : Diagnostic.CodeEncodedBy (some "-7") (some (.integer (-7))) := by
    have hrepr : (-7 : Int).repr = "-7" := by decide +kernel
    rw [← hrepr]
    exact .integer (-7)
  have hfinding : finding.EncodedBy item :=
    ⟨place.toJson, some (.integer (-7)), _, place.encodedBy_toJson, hcode,
      .listed (.cons related.encodedBy_toJson .nil), _, rfl, .refl _⟩
  have hparams : p.EncodedBy params :=
    ⟨[item], .cons hfinding .nil, _, rfl, (List.perm_append_singleton _ _).symm⟩
  have hversion : ∀ n, p.version = some n → IsInt32 n := by
    rintro _ ⟨⟩
    decide
  obtain ⟨hread, hmessage⟩ := (p.read_of_encodedBy hversion).2 params hparams
  exact ⟨hread, hmessage message ⟨_, rfl, .refl _⟩⟩

end ColorMarks
