import ColorMarks.Proofs.Diagnostic.Encoding

/-!
# Findings as records

The record of a finding is read as the finding, whatever the order of its members and of those inside it.
-/

namespace ColorMarks

open Json (fields? readable_nat readable_string readable_ofOption readable_object_iff
  readable_array_iff)

namespace Position

variable {p : Position} {v : Json}

theorem encodedBy_of_reordered (h : p.toJson.Reordered v) : p.EncodedBy v := by
  obtain ⟨ws, _ | ⟨hline, _ | ⟨hcharacter, _ | _⟩⟩, hcarries⟩ := h.carries
  obtain rfl := Json.integer_reordered_iff.1 hline
  obtain rfl := Json.integer_reordered_iff.1 hcharacter
  exact hcarries

theorem EncodedBy.ofJson? (h : p.EncodedBy v) : ofJson? v = some p := by
  have hfields : fields? ["line", "character"] v =
      some [some (.nat p.line.toNat), some (.nat p.character.toNat)] :=
    Json.Carries.fields? h (by simp)
  refine then_eq_some hfields ?_
  refine then_eq_some (Json.required_word p.line) ?_
  refine then_eq_some (Json.required_word p.character) ?_
  rw [UInt32.ofNat_toNat, UInt32.ofNat_toNat]
  rfl

theorem readable_toJson (p : Position) : Json.Readable 1 p.toJson := by
  have hword : ∀ w : UInt32, Json.Readable 0 (.nat w.toNat) := fun w =>
    readable_nat 0 (Nat.lt_trans w.toNat_lt (by decide))
  simp [toJson, readable_object_iff, hword]

end Position

namespace Range

variable {r : Range} {v : Json}

theorem encodedBy_of_reordered (h : r.toJson.Reordered v) : r.EncodedBy v := by
  obtain ⟨ws, _ | ⟨hstart, _ | ⟨hend, _ | _⟩⟩, hcarries⟩ := h.carries
  exact ⟨_, _, Position.encodedBy_of_reordered hstart, Position.encodedBy_of_reordered hend,
    hcarries⟩

theorem EncodedBy.ofJson? (h : r.EncodedBy v) : ofJson? v = some r := by
  obtain ⟨start, stop, hstart, hend, hcarries⟩ := h
  have hfields : fields? ["start", "end"] v = some [some start, some stop] :=
    hcarries.fields? (by simp)
  exact then_eq_some hfields (then_eq_some hstart.ofJson? (then_eq_some hend.ofJson? rfl))

theorem readable_toJson (r : Range) : Json.Readable 2 r.toJson := by
  simp [toJson, readable_object_iff, Position.readable_toJson]

end Range

namespace Location

variable {l : Location} {v : Json}

theorem encodedBy_of_reordered (h : l.toJson.Reordered v) : l.EncodedBy v := by
  obtain ⟨ws, _ | ⟨huri, _ | ⟨hrange, _ | _⟩⟩, hcarries⟩ := h.carries
  obtain rfl := Json.string_reordered_iff.1 huri
  exact ⟨_, Range.encodedBy_of_reordered hrange, hcarries⟩

theorem EncodedBy.ofJson? (h : l.EncodedBy v) : ofJson? v = some l := by
  obtain ⟨range, hrange, hcarries⟩ := h
  have hfields : fields? ["uri", "range"] v = some [some (.string l.uri), some range] :=
    hcarries.fields? (by simp)
  exact then_eq_some hfields (then_eq_some rfl (then_eq_some hrange.ofJson? rfl))

theorem readable_toJson (l : Location) : Json.Readable 3 l.toJson := by
  simp [toJson, readable_object_iff, readable_string, Range.readable_toJson]

end Location

namespace Related

variable {x : Related} {v : Json}

theorem encodedBy_of_reordered (h : x.toJson.Reordered v) : x.EncodedBy v := by
  obtain ⟨ws, _ | ⟨hlocation, _ | ⟨hmessage, _ | _⟩⟩, hcarries⟩ := h.carries
  obtain rfl := Json.string_reordered_iff.1 hmessage
  exact ⟨_, Location.encodedBy_of_reordered hlocation, hcarries⟩

theorem EncodedBy.ofJson? (h : x.EncodedBy v) : ofJson? v = some x := by
  obtain ⟨location, hlocation, hcarries⟩ := h
  have hfields : fields? ["location", "message"] v =
      some [some location, some (.string x.message)] :=
    hcarries.fields? (by simp)
  exact then_eq_some hfields (then_eq_some hlocation.ofJson? (then_eq_some rfl rfl))

theorem readable_toJson (x : Related) : Json.Readable 4 x.toJson := by
  simp [toJson, readable_object_iff, readable_string, Location.readable_toJson]

end Related

theorem Severity.ofJson?_toJson (s : Severity) : ofJson? s.toJson = some s := by
  cases s <;> decide

/-! ## Findings -/

namespace Diagnostic

variable {d : Diagnostic} {v : Json}

/-- A finding is read from its record with the members in any order. -/
theorem ofJson?_of_reordered (h : d.toJson.Reordered v) : ofJson? v = some d := by
  obtain ⟨ws, _ | ⟨hrange, _ | ⟨hseverity, _ | ⟨hcode, _ | ⟨hsource, _ | ⟨hmessage,
    _ | ⟨hrelated, _ | _⟩⟩⟩⟩⟩⟩, hcarries⟩ := h.carries
  obtain rfl := Json.ofOption_reordered_iff.1 hseverity
  obtain rfl := Json.ofOption_reordered_iff.1 hcode
  obtain rfl := Json.ofOption_reordered_iff.1 hsource
  obtain rfl := Json.string_reordered_iff.1 hmessage
  obtain ⟨items, rfl, hitems⟩ := Json.array_reordered_iff.1 hrelated
  have hrange' := (Range.encodedBy_of_reordered hrange).ofJson?
  have hseverity' := Json.optional_ofOption Severity.ofJson?_toJson (fun _ => nofun) d.severity
  have htext : ∀ t, Json.optional Json.asString? (some (.ofOption .string t)) = some t :=
    Json.optional_ofOption (fun _ => rfl) fun _ => nofun
  have hrelated' : Json.listOf? Related.ofJson? (.array items) = some d.related := by
    rw [Json.listOf?_eq_some_iff]
    rw [List.forall₂_map_left_iff] at hitems
    exact (hitems.imp fun x w hx => (Related.encodedBy_of_reordered hx).ofJson?).flip
  refine then_eq_some (hcarries.fields? (by simp)) ?_
  refine then_eq_some hrange' (then_eq_some hseverity' ?_)
  refine then_eq_some (htext d.code) (then_eq_some (htext d.source) ?_)
  exact then_eq_some rfl (then_eq_some hrelated' rfl)

theorem readable_toJson (d : Diagnostic) : Json.Readable 6 d.toJson := by
  have hseverity : Json.Readable 5 (.ofOption Severity.toJson d.severity) :=
    readable_ofOption (f := Severity.toJson) (fun s => readable_string 5 s.name) d.severity
  have htext : ∀ t, Json.Readable 5 (.ofOption .string t) := readable_ofOption (readable_string 5)
  simp [toJson, Json.list, readable_object_iff, readable_array_iff, readable_string, hseverity,
    htext, (Range.readable_toJson _).mono, Related.readable_toJson]

end Diagnostic

end ColorMarks
