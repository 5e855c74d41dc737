import ColorMarks.Notification

/-!
# Findings in payloads

What a payload of findings says is told by the members of its objects. Each item of an array is read for
itself: one that is malformed is left out, and nothing else depends on it. Of a finding only the range
has to be there; a wrong value of another field is as good as none.
-/

namespace ColorMarks

/-- A list and the images of its members, in order, of those that have one. -/
inductive Images {α β : Type} (R : α → β → Prop) : List α → List β → Prop
  | nil : Images R [] []
  | kept {a : α} {b : β} {as : List α} {bs : List β} (h : R a b) (hs : Images R as bs) :
      Images R (a :: as) (b :: bs)
  | dropped {a : α} {as : List α} {bs : List β} (h : ∀ b, ¬ R a b) (hs : Images R as bs) :
      Images R (a :: as) bs

/-- The integers of 32 bits with a sign. -/
def IsInt32 (n : Int) : Prop := -(twoTo 31 : Int) ≤ n ∧ n < twoTo 31

instance (n : Int) : Decidable (IsInt32 n) := inferInstanceAs (Decidable (_ ∧ _))

/-- An object with a line and a character, both of them integers from 0 to `2 ^ 32 - 1`. -/
structure Position.Reads (v : Json) (p : Position) : Prop where
  line : v.get? "line" = some (.nat p.line.toNat)
  character : v.get? "character" = some (.nat p.character.toNat)

/-- An object with two positions. -/
structure Range.Reads (v : Json) (r : Range) : Prop where
  start : ∃ w, v.get? "start" = some w ∧ Position.Reads w r.start
  «end» : ∃ w, v.get? "end" = some w ∧ Position.Reads w r.end

/-- An object with an address and a range. -/
structure Location.Reads (v : Json) (l : Location) : Prop where
  uri : v.get? "uri" = some (.string l.uri)
  range : ∃ w, v.get? "range" = some w ∧ Range.Reads w l.range

/-- An object with a location and a message. -/
structure Related.Reads (v : Json) (x : Related) : Prop where
  location : ∃ w, v.get? "location" = some w ∧ Location.Reads w x.location
  message : v.get? "message" = some (.string x.message)

/-- The code of a finding is a text or a number, and a number is taken as it is printed. -/
inductive Diagnostic.ReadsCode : Json → String → Prop
  | text (s : String) : ReadsCode (.string s) s
  | integer (n : Int) : ReadsCode (.integer n) n.repr
  | double (d : Double) : ReadsCode (.double d) (Json.double d).text

/-- An object with a range. The other fields are blank unless their members are of the right kind. -/
structure Diagnostic.Reads (v : Json) (d : Diagnostic) : Prop where
  range : ∃ w, v.get? "range" = some w ∧ Range.Reads w d.range
  severity : ∀ s, d.severity = some s ↔ v.get? "severity" = some (.nat s.number)
  code : ∀ s, d.code = some s ↔ ∃ w, v.get? "code" = some w ∧ ReadsCode w s
  source : ∀ s, d.source = some s ↔ v.get? "source" = some (.string s)
  message : ∀ s, v.get? "message" = some (.string s) → d.message = s
  no_message : (∀ s, v.get? "message" ≠ some (.string s)) → d.message = ""
  related : ∀ items, v.get? "relatedInformation" = some (.array items) →
    Images Related.Reads items d.related
  no_related : (∀ items, v.get? "relatedInformation" ≠ some (.array items)) → d.related = []

/-- An object with an address. The findings are none unless they are an array. -/
structure Publication.Reads (v : Json) (p : Publication) : Prop where
  uri : v.get? "uri" = some (.string p.uri)
  version : ∀ n, p.version = some n ↔ v.get? "version" = some (.integer n) ∧ IsInt32 n
  diagnostics : ∀ items, v.get? "diagnostics" = some (.array items) →
    Images Diagnostic.Reads items p.diagnostics
  no_diagnostics : (∀ items, v.get? "diagnostics" ≠ some (.array items)) → p.diagnostics = []

namespace Json

/-- A member that is an integer from 0 to `2 ^ 32 - 1`. -/
def HasWord (v : Json) (name : String) : Prop :=
  ∃ n : Int, v.get? name = some (.integer n) ∧ 0 ≤ n ∧ n < twoTo 32

/-- A member that is an object with a line and a character. -/
def HasPosition (v : Json) (name : String) : Prop :=
  ∃ w, v.get? name = some w ∧ w.HasWord "line" ∧ w.HasWord "character"

/-- A range with its start and its end. -/
def HasRange (v : Json) : Prop :=
  ∃ w, v.get? "range" = some w ∧ w.HasPosition "start" ∧ w.HasPosition "end"

/-- A member that is a text. -/
def HasString (v : Json) (name : String) : Prop := ∃ s, v.get? name = some (.string s)

/-- A payload with an address and an array of items. -/
def Publishes (params : Json) (items : List Json) : Prop :=
  params.HasString "uri" ∧ params.get? "diagnostics" = some (.array items)

end Json

/-- The method of the notification that publishes findings. -/
def publishMethod : String := "textDocument/publishDiagnostics"

/-! ## Images -/

/-- The images under a partial function are those that it gives. -/
theorem images_iff {α β : Type} {R : α → β → Prop} {f : α → Option β}
    (hf : ∀ a b, f a = some b ↔ R a b) {as : List α} {bs : List β} :
    Images R as bs ↔ as.filterMap f = bs := by
  constructor
  · intro h
    induction h with
    | nil => rfl
    | kept h _ ih => rw [List.filterMap_cons_some ((hf _ _).2 h), ih]
    | dropped h _ ih =>
      have hnone : f _ = none := Option.eq_none_iff_forall_ne_some.2 fun b hb => h b ((hf _ b).1 hb)
      rw [List.filterMap_cons_none hnone, ih]
  · rintro rfl
    induction as with
    | nil => exact .nil
    | cons a as ih =>
      cases ha : f a with
      | none =>
        rw [List.filterMap_cons_none ha]
        refine .dropped ?_ ih
        intro b hb
        rw [(hf a b).2 hb] at ha
        cases ha
      | some b =>
        rw [List.filterMap_cons_some ha]
        exact .kept ((hf a b).1 ha) ih

/-! ## Members and their kinds -/

namespace Json

theorem asString?_eq_some_iff {v : Json} {s : String} : v.asString? = some s ↔ v = .string s := by
  cases v <;> simp [asString?]

theorem asArray?_eq_some_iff {v : Json} {items : List Json} :
    v.asArray? = some items ↔ v = .array items := by
  cases v <;> simp [asArray?]

theorem asWord?_eq_some_iff {v : Json} {w : UInt32} : v.asWord? = some w ↔ v = .nat w.toNat := by
  simp only [asWord?, Option.map_eq_some_iff, Option.filter_eq_some_iff, decide_eq_true_iff,
    asNat64?_eq_some_iff]
  constructor
  · rintro ⟨n, ⟨⟨rfl, -⟩, hn⟩, rfl⟩
    rw [UInt32.toNat_ofNat', Nat.mod_eq_of_lt (show n < 2 ^ 32 from hn)]
    rfl
  · rintro rfl
    have hw := w.toNat_lt
    exact ⟨w.toNat, ⟨⟨rfl, Nat.lt_trans hw (by decide)⟩, hw⟩, UInt32.ofNat_toNat⟩

theorem asInt64?_eq_some_iff {v : Json} {n : Int} :
    v.asInt64? = some n ↔ v = .integer n ∧ -(twoTo 63 : Int) ≤ n ∧ n < twoTo 63 := by
  cases v with
  | integer k =>
    rw [asInt64?, Option.ite_none_right_eq_some, Option.some.injEq, integer.injEq]
    constructor
    · rintro ⟨hk, rfl⟩
      exact ⟨rfl, hk⟩
    · rintro ⟨rfl, hk⟩
      exact ⟨hk, rfl⟩
  | _ => simp [asInt64?]

theorem text_integer (n : Int) : (integer n).text = n.repr := by
  have hprint : print (integer n) = printInt n := by simp [print, printScalar]
  have hdigits (m : Nat) : Decimal.digitsOf m = m.repr.toList := Nat.toList_repr.symm
  apply String.toList_inj.1
  rw [text, String.toList_ofList, hprint, printInt, hdigits]
  cases n with
  | ofNat m => simp [Int.repr]
  | negSucc m => simp [Int.repr, Int.negSucc_lt_zero]

end Json

/-! ## Positions, ranges and related places -/

theorem Position.decode?_eq_some_iff {v : Json} {p : Position} : decode? v = some p ↔ Reads v p := by
  simp only [decode?, Option.bind_eq_bind, Option.bind_eq_some_iff, Json.asWord?_eq_some_iff,
    Option.pure_def, Option.some.injEq]
  constructor
  · rintro ⟨_, hline, line, rfl, _, hcharacter, character, rfl, rfl⟩
    exact ⟨hline, hcharacter⟩
  · rintro ⟨hline, hcharacter⟩
    exact ⟨_, hline, p.line, rfl, _, hcharacter, p.character, rfl, rfl⟩

theorem Range.decode?_eq_some_iff {v : Json} {r : Range} : decode? v = some r ↔ Reads v r := by
  simp only [decode?, Option.bind_eq_bind, Option.bind_eq_some_iff, Position.decode?_eq_some_iff,
    Option.pure_def, Option.some.injEq]
  constructor
  · rintro ⟨w, hw, start, hstart, u, hu, stop, hstop, rfl⟩
    exact ⟨⟨w, hw, hstart⟩, u, hu, hstop⟩
  · rintro ⟨⟨w, hw, hstart⟩, u, hu, hstop⟩
    exact ⟨w, hw, r.start, hstart, u, hu, r.end, hstop, rfl⟩

theorem Related.decode?_eq_some_iff {v : Json} {x : Related} : decode? v = some x ↔ Reads v x := by
  simp only [decode?, Option.bind_eq_bind, Option.bind_eq_some_iff, Range.decode?_eq_some_iff,
    Json.asString?_eq_some_iff, Option.pure_def, Option.some.injEq]
  constructor
  · rintro ⟨w, hw, _, huri, uri, rfl, u, hu, range, hrange, _, hmessage, message, rfl, rfl⟩
    exact ⟨⟨w, hw, huri, u, hu, hrange⟩, hmessage⟩
  · rintro ⟨⟨w, hw, huri, u, hu, hrange⟩, hmessage⟩
    exact ⟨w, hw, _, huri, x.location.uri, rfl, u, hu, x.location.range, hrange, _, hmessage,
      x.message, rfl, rfl⟩

/-! ## Fields that may be wrong -/

/-- What holds of a value or of another in its place. -/
theorem getD_iff {α : Type} {P : α → Prop} {o : Option α} {fallback : α} :
    P (o.getD fallback) ↔ (∀ a, o = some a → P a) ∧ ((∀ a, o ≠ some a) → P fallback) := by
  cases o <;> simp

namespace Json

theorem bind_asString?_eq_some_iff {v : Option Json} {s : String} :
    v.bind asString? = some s ↔ v = some (.string s) := by
  simp [Option.bind_eq_some_iff, asString?_eq_some_iff]

theorem bind_asArray?_eq_some_iff {v : Option Json} {items : List Json} :
    v.bind asArray? = some items ↔ v = some (.array items) := by
  simp [Option.bind_eq_some_iff, asArray?_eq_some_iff]

/-- A text, or the empty one in the place of anything else. -/
theorem eq_getD_asString?_iff {v : Option Json} {t : String} :
    t = (v.bind asString?).getD "" ↔
      (∀ s, v = some (.string s) → t = s) ∧ ((∀ s, v ≠ some (.string s)) → t = "") := by
  refine (getD_iff (P := fun s => t = s)).trans ?_
  simp only [ne_eq, bind_asString?_eq_some_iff]

/-- The items of an array that can be read, or none in the place of anything else. -/
theorem filterMap_getD_asArray?_iff {α : Type} {R : Json → α → Prop} {f : Json → Option α}
    (hf : ∀ v a, f v = some a ↔ R v a) {v : Option Json} {as : List α} :
    ((v.bind asArray?).getD []).filterMap f = as ↔
      (∀ items, v = some (.array items) → Images R items as) ∧
        ((∀ items, v ≠ some (.array items)) → as = []) := by
  refine (getD_iff (P := fun items : List Json => items.filterMap f = as)).trans ?_
  simp only [ne_eq, bind_asArray?_eq_some_iff, images_iff hf, List.filterMap_nil,
    eq_comm (a := ([] : List α))]

end Json

/-! ## Findings -/

namespace Diagnostic

theorem severity_eq_some_iff {v : Option Json} {s : Severity} :
    (v.bind Json.asNat64?).bind Severity.ofNumber? = some s ↔ v = some (.nat s.number) := by
  rw [Option.bind_eq_some_iff]
  simp only [Severity.ofNumber?_eq_some_iff, Json.bind_asNat64?_eq_some_iff]
  constructor
  · rintro ⟨_, ⟨hv, -⟩, rfl⟩
    exact hv
  · intro hv
    have hbound : 5 < twoTo 64 := by decide
    exact ⟨s.number, ⟨hv, Nat.lt_trans s.number_lt hbound⟩, rfl⟩

theorem decodeCode?_eq_some_iff {v : Json} {s : String} : decodeCode? v = some s ↔ ReadsCode v s := by
  constructor
  · intro h
    cases v with
    | string t =>
      obtain rfl := Option.some.inj h
      exact .text t
    | integer n =>
      obtain rfl := Option.some.inj h
      rw [Json.text_integer]
      exact .integer n
    | double d =>
      obtain rfl := Option.some.inj h
      exact .double d
    | _ => cases h
  · intro h
    cases h with
    | text s => rfl
    | integer n => rw [decodeCode?, Json.text_integer]
    | double d => rfl

theorem code_eq_some_iff {v : Option Json} {s : String} :
    v.bind decodeCode? = some s ↔ ∃ w, v = some w ∧ ReadsCode w s := by
  simp only [Option.bind_eq_some_iff, decodeCode?_eq_some_iff]

/-- Exactly the values with a range are findings. -/
theorem decode?_eq_some_iff {v : Json} {d : Diagnostic} : decode? v = some d ↔ Reads v d := by
  simp only [decode?, Option.bind_eq_bind, Option.bind_eq_some_iff, Range.decode?_eq_some_iff,
    Option.pure_def, Option.some.injEq]
  constructor
  · rintro ⟨w, hw, range, hrange, rfl⟩
    obtain ⟨hmessage, hno_message⟩ := Json.eq_getD_asString?_iff.1 rfl
    obtain ⟨hrelated, hno_related⟩ :=
      (Json.filterMap_getD_asArray?_iff fun _ _ => Related.decode?_eq_some_iff).1 rfl
    exact ⟨⟨w, hw, hrange⟩, fun _ => severity_eq_some_iff, fun _ => code_eq_some_iff,
      fun _ => Json.bind_asString?_eq_some_iff, hmessage, hno_message, hrelated, hno_related⟩
  · intro h
    obtain ⟨w, hw, hrange⟩ := h.range
    have hseverity := Option.ext fun s => (h.severity s).trans severity_eq_some_iff.symm
    have hcode := Option.ext fun s => (h.code s).trans code_eq_some_iff.symm
    have hsource := Option.ext fun s => (h.source s).trans Json.bind_asString?_eq_some_iff.symm
    have hmessage := Json.eq_getD_asString?_iff.2 ⟨h.message, h.no_message⟩
    have hrelated := (Json.filterMap_getD_asArray?_iff fun _ _ => Related.decode?_eq_some_iff).2
      ⟨h.related, h.no_related⟩
    refine ⟨w, hw, d.range, hrange, ?_⟩
    rw [← hseverity, ← hcode, ← hsource, ← hmessage, hrelated]

end Diagnostic

/-! ## Publications -/

namespace Publication

theorem version_eq_some_iff {v : Option Json} {n : Int} :
    ((v.bind Json.asInt64?).filter fun n => -(twoTo 31 : Int) ≤ n && n < twoTo 31) = some n ↔
      v = some (.integer n) ∧ IsInt32 n := by
  rw [Option.filter_eq_some_iff, Option.bind_eq_some_iff, Bool.and_eq_true, decide_eq_true_iff,
    decide_eq_true_iff]
  simp only [Json.asInt64?_eq_some_iff]
  constructor
  · rintro ⟨⟨w, rfl, rfl, -⟩, hn⟩
    exact ⟨rfl, hn⟩
  · rintro ⟨rfl, hlow, hhigh⟩
    have hbound : twoTo 31 < twoTo 63 := by decide
    exact ⟨⟨_, rfl, rfl, by omega, by omega⟩, hlow, hhigh⟩

/-- Exactly the values with an address are publications. -/
theorem decode?_eq_some_iff {v : Json} {p : Publication} : decode? v = some p ↔ Reads v p := by
  simp only [decode?, Option.bind_eq_bind, Option.bind_eq_some_iff, Json.asString?_eq_some_iff,
    Option.pure_def, Option.some.injEq]
  constructor
  · rintro ⟨_, huri, uri, rfl, rfl⟩
    obtain ⟨hitems, hno_items⟩ :=
      (Json.filterMap_getD_asArray?_iff fun _ _ => Diagnostic.decode?_eq_some_iff).1 rfl
    exact ⟨huri, fun _ => version_eq_some_iff, hitems, hno_items⟩
  · intro h
    have hversion := Option.ext fun n => (h.version n).trans version_eq_some_iff.symm
    have hitems := (Json.filterMap_getD_asArray?_iff fun _ _ => Diagnostic.decode?_eq_some_iff).2
      ⟨h.diagnostics, h.no_diagnostics⟩
    refine ⟨_, h.uri, p.uri, rfl, ?_⟩
    rw [← hversion, hitems]

end Publication

/-! ## Which items are read -/

theorem Json.hasWord_iff {v : Json} {name : String} :
    v.HasWord name ↔ ∃ w : UInt32, v.get? name = some (.nat w.toNat) := by
  constructor
  · rintro ⟨n, hn, hlow, hhigh⟩
    refine ⟨UInt32.ofNat n.toNat, ?_⟩
    have hlt : n.toNat < 2 ^ 32 := (Int.toNat_lt hlow).2 hhigh
    rw [hn, UInt32.toNat_ofNat', Nat.mod_eq_of_lt hlt, Json.nat, Int.toNat_of_nonneg hlow]
  · rintro ⟨w, hw⟩
    exact ⟨w.toNat, hw, Int.natCast_nonneg _, Int.ofNat_lt.2 w.toNat_lt⟩

theorem Json.hasPosition_iff {v : Json} {name : String} :
    v.HasPosition name ↔ ∃ p w, v.get? name = some w ∧ Position.Reads w p := by
  simp only [HasPosition, hasWord_iff]
  constructor
  · rintro ⟨w, hw, ⟨line, hline⟩, character, hcharacter⟩
    exact ⟨⟨line, character⟩, w, hw, hline, hcharacter⟩
  · rintro ⟨p, w, hw, hline, hcharacter⟩
    exact ⟨w, hw, ⟨p.line, hline⟩, p.character, hcharacter⟩

theorem Json.hasRange_iff {v : Json} :
    v.HasRange ↔ ∃ r w, v.get? "range" = some w ∧ Range.Reads w r := by
  simp only [HasRange, hasPosition_iff]
  constructor
  · rintro ⟨w, hw, ⟨start, hstart⟩, stop, hstop⟩
    exact ⟨⟨start, stop⟩, w, hw, hstart, hstop⟩
  · rintro ⟨r, w, hw, hstart, hstop⟩
    exact ⟨w, hw, ⟨r.start, hstart⟩, r.end, hstop⟩

theorem Diagnostic.exists_reads_iff {v : Json} : (∃ d, Reads v d) ↔ v.HasRange := by
  rw [Json.hasRange_iff]
  constructor
  · rintro ⟨d, h⟩
    exact ⟨d.range, h.range⟩
  · rintro ⟨r, w, hw, hr⟩
    have hsome : (decode? v).isSome = true := by
      simp [decode?, hw, Range.decode?_eq_some_iff.2 hr]
    obtain ⟨d, hd⟩ := Option.isSome_iff_exists.1 hsome
    exact ⟨d, decode?_eq_some_iff.1 hd⟩

theorem Related.exists_reads_iff {v : Json} :
    (∃ x, Reads v x) ↔
      v.HasString "message" ∧ ∃ w, v.get? "location" = some w ∧ w.HasString "uri" ∧ w.HasRange := by
  simp only [Json.hasRange_iff]
  constructor
  · rintro ⟨x, ⟨w, hw, huri, hrange⟩, hmessage⟩
    exact ⟨⟨_, hmessage⟩, w, hw, ⟨_, huri⟩, _, hrange⟩
  · rintro ⟨⟨message, hmessage⟩, w, hw, ⟨uri, huri⟩, r, hrange⟩
    exact ⟨⟨⟨uri, r⟩, message⟩, ⟨w, hw, huri, hrange⟩, hmessage⟩

theorem Publication.exists_reads_iff {v : Json} : (∃ p, Reads v p) ↔ v.HasString "uri" := by
  constructor
  · rintro ⟨p, h⟩
    exact ⟨p.uri, h.uri⟩
  · rintro ⟨uri, huri⟩
    have hsome : (decode? v).isSome = true := by
      simp [decode?, huri, Json.asString?]
    obtain ⟨p, hp⟩ := Option.isSome_iff_exists.1 hsome
    exact ⟨p, decode?_eq_some_iff.1 hp⟩

/-! ## Arrays of findings -/

theorem Notification.ofMethod?_publish (params : Json) :
    ofMethod? publishMethod params = (Publication.decode? params).map .publish := if_pos rfl

/-- A payload with an address and an array is read, and its array is read item by item. -/
theorem Publication.exists_of_publishes {params : Json} {items : List Json}
    (h : params.Publishes items) :
    ∃ p, Notification.ofMethod? publishMethod params = some (.publish p) ∧
      params.get? "uri" = some (.string p.uri) ∧
      p.diagnostics = items.filterMap Diagnostic.decode? := by
  obtain ⟨huri, hitems⟩ := h
  obtain ⟨p, hreads⟩ := exists_reads_iff.2 huri
  refine ⟨p, ?_, hreads.uri, ?_⟩
  · rw [Notification.ofMethod?_publish, decode?_eq_some_iff.2 hreads]
    rfl
  · exact ((images_iff fun _ _ => Diagnostic.decode?_eq_some_iff).1 (hreads.diagnostics items hitems)).symm

/--
The findings of a payload are the images of exactly those items that have a range, in order, and their
related places are those of exactly the items with a message, an address and a range. The findings of two
arrays that are joined are joined.
-/
theorem decoded_item_by_item :
    (∀ v, (∃ d, Diagnostic.Reads v d) ↔ v.HasRange) ∧
    (∀ v, (∃ x, Related.Reads v x) ↔
      v.HasString "message" ∧ ∃ w, v.get? "location" = some w ∧ w.HasString "uri" ∧ w.HasRange) ∧
    (∀ params items, params.Publishes items →
      ∃ p, Notification.ofMethod? publishMethod params = some (.publish p) ∧
        params.get? "uri" = some (.string p.uri) ∧ Images Diagnostic.Reads items p.diagnostics) ∧
    ∀ params params₁ params₂ items₁ items₂, params.Publishes (items₁ ++ items₂) →
      params₁.Publishes items₁ → params₂.Publishes items₂ →
      ∃ p p₁ p₂, Notification.ofMethod? publishMethod params = some (.publish p) ∧
        Notification.ofMethod? publishMethod params₁ = some (.publish p₁) ∧
        Notification.ofMethod? publishMethod params₂ = some (.publish p₂) ∧
        p.diagnostics = p₁.diagnostics ++ p₂.diagnostics := by
  refine ⟨fun _ => Diagnostic.exists_reads_iff, fun _ => Related.exists_reads_iff, ?_, ?_⟩
  · intro params items h
    obtain ⟨p, hp, huri, hdiagnostics⟩ := Publication.exists_of_publishes h
    exact ⟨p, hp, huri, (images_iff fun _ _ => Diagnostic.decode?_eq_some_iff).2 hdiagnostics.symm⟩
  · intro params params₁ params₂ items₁ items₂ h h₁ h₂
    obtain ⟨p, hp, -, hdiagnostics⟩ := Publication.exists_of_publishes h
    obtain ⟨p₁, hp₁, -, hdiagnostics₁⟩ := Publication.exists_of_publishes h₁
    obtain ⟨p₂, hp₂, -, hdiagnostics₂⟩ := Publication.exists_of_publishes h₂
    refine ⟨p, p₁, p₂, hp, hp₁, hp₂, ?_⟩
    rw [hdiagnostics, hdiagnostics₁, hdiagnostics₂, List.filterMap_append]

/-- A finding on one line of which nothing but the range is right. -/
def Json.oddFinding (line : Int) : Json :=
  .object [("code", .bool true), ("message", .null),
    ("range", .object [
      ("end", .object [("character", .integer 4), ("line", .integer line)]),
      ("start", .object [("character", .integer 0), ("line", .integer line)])]),
    ("relatedInformation", .array [.null]), ("severity", .integer 9), ("source", .array [])]

/-- Lines below zero and above `2 ^ 32 - 1` are none, and what stands between them is read. -/
theorem decoded_item_by_item_odd :
    let line (n : UInt32) : Diagnostic := ⟨⟨⟨n, 0⟩, ⟨n, 4⟩⟩, none, none, none, "", []⟩
    let payload (items : List Json) : Json :=
      .object [("diagnostics", .array items), ("uri", .string "file:///a")]
    let front : List Json := [.oddFinding (-1), .oddFinding 7, .null]
    let back : List Json := [.oddFinding 4294967296, .oddFinding 4294967295]
    (∃ p, Notification.ofMethod? publishMethod (payload (front ++ back)) = some (.publish p) ∧
      p.diagnostics = [line 7, line 4294967295]) ∧
    ∃ p p₁ p₂, Notification.ofMethod? publishMethod (payload (front ++ back)) = some (.publish p) ∧
      Notification.ofMethod? publishMethod (payload front) = some (.publish p₁) ∧
      Notification.ofMethod? publishMethod (payload back) = some (.publish p₂) ∧
      p.diagnostics = p₁.diagnostics ++ p₂.diagnostics := by
  intro line payload front back
  constructor
  · obtain ⟨p, hp, -, himages⟩ :=
      decoded_item_by_item.2.2.1 (payload (front ++ back)) _ ⟨⟨_, rfl⟩, rfl⟩
    refine ⟨p, hp, ?_⟩
    rw [← (images_iff fun _ _ => Diagnostic.decode?_eq_some_iff).1 himages]
    decide +kernel
  · exact decoded_item_by_item.2.2.2 (payload (front ++ back)) (payload front) (payload back) front back
      ⟨⟨_, rfl⟩, rfl⟩ ⟨⟨_, rfl⟩, rfl⟩ ⟨⟨_, rfl⟩, rfl⟩

end ColorMarks
