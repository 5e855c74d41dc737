import ColorMarks.Json.Record
import ColorMarks.Proofs.Json.Reordered
import ColorMarks.Proofs.Ordered
import ColorMarks.Proofs.Traversal
import Mathlib.Data.List.Nodup

/-!
# Fields of an object

An object carries some fields if its members under their names are these fields, in any order
(`Json.Carries`). Then each field is found under its name, and a record of these fields is read.
-/

namespace ColorMarks.Json

/-- The fields that are present, with their names. -/
def present (fields : List (String × Option Json)) : List (String × Json) :=
  fields.filterMap fun f => f.2.map fun v => (f.1, v)

/-- The object of the fields that are present. -/
def ofFields (fields : List (String × Option Json)) : Json := .object (present fields)

/-- An object whose members under the names of the fields are the fields that are present, in any order. -/
def Carries (v : Json) (fields : List (String × Option Json)) : Prop :=
  ∃ members, v = .object members ∧
    (members.filter fun m => m.1 ∈ fields.map Prod.fst).Perm (present fields)

variable {fields : List (String × Option Json)}

theorem mem_present {name : String} {v : Json} :
    (name, v) ∈ present fields ↔ (name, some v) ∈ fields := by
  rw [present, List.mem_filterMap]
  constructor
  · rintro ⟨⟨_, _⟩, hf, h⟩
    obtain ⟨w, rfl, hw⟩ := Option.map_eq_some_iff.1 h
    cases hw
    exact hf
  · intro h
    exact ⟨_, h, rfl⟩

theorem present_sublist : ((present fields).map Prod.fst).Sublist (fields.map Prod.fst) := by
  induction fields with
  | nil => exact List.Sublist.slnil
  | cons f fields ih =>
    obtain ⟨name, field⟩ := f
    cases field with
    | none => exact ih.cons name
    | some v => exact ih.cons_cons name

/-- The fields that are present carry themselves. -/
theorem carries_object {members : List (String × Json)} (h : present fields = members) :
    (object members).Carries fields := by
  have hall : members.filter (fun m => m.1 ∈ fields.map Prod.fst) = members := by
    rw [List.filter_eq_self]
    rintro ⟨name, v⟩ hm
    rw [← h] at hm
    exact decide_eq_true (List.mem_map_of_mem (mem_present.1 hm))
  refine ⟨members, rfl, ?_⟩
  rw [hall, h]

/-- Each field is found under its name. -/
theorem Carries.get? {v : Json} {name : String} {field : Option Json} (h : v.Carries fields)
    (hnames : (fields.map Prod.fst).Nodup) (hf : (name, field) ∈ fields) : v.get? name = field := by
  obtain ⟨members, rfl, hperm⟩ := h
  have hname : decide (name ∈ fields.map Prod.fst) = true :=
    decide_eq_true (List.mem_map_of_mem hf)
  have hnodup := (hperm.map Prod.fst).nodup_iff.2 (hnames.sublist present_sublist)
  rw [Json.get?, ← Ordered.lookup_filter (p := fun l => l ∈ fields.map Prod.fst) hname]
  apply Option.ext
  intro w
  rw [Ordered.lookup_eq_some_iff_mem hnodup, hperm.mem_iff, mem_present]
  constructor
  · intro hw
    exact (congrArg Prod.snd (List.inj_on_of_nodup_map hnames hf hw rfl))
  · rintro rfl
    exact hf

/-! ## Records -/

/-- No name of a field is given twice. -/
theorem Carries.length_le_one {members : List (String × Json)} {name : String}
    (h : (object members).Carries fields) (hnames : (fields.map Prod.fst).Nodup)
    (hname : name ∈ fields.map Prod.fst) :
    (members.filter fun m => m.1 == name).length ≤ 1 := by
  obtain ⟨_, ⟨⟩, hperm⟩ := h
  have hnodup := (hperm.map Prod.fst).nodup_iff.2 (hnames.sublist present_sublist)
  have hcount := List.nodup_iff_count_le_one.1 hnodup name
  have hsame : (members.filter fun m => m.1 ∈ fields.map Prod.fst).filter (fun m => m.1 == name) =
      members.filter fun m => m.1 == name := by
    rw [List.filter_filter]
    refine List.filter_congr fun m _ => ?_
    by_cases hm : m.1 = name
    · simp [hm, hname]
    · simp [hm]
  rw [← hsame, ← List.countP_eq_length_filter]
  rwa [List.count_eq_countP, List.countP_map] at hcount

theorem Carries.member? {members : List (String × Json)} {name : String} {field : Option Json}
    (h : (object members).Carries fields) (hnames : (fields.map Prod.fst).Nodup)
    (hf : (name, field) ∈ fields) : Json.member? members name = some field := by
  rw [Json.member?, if_pos (h.length_le_one hnames (List.mem_map_of_mem hf))]
  exact congrArg some (h.get? hnames hf)

/-- All fields are read together. -/
theorem Carries.fields? {v : Json} (h : v.Carries fields) (hnames : (fields.map Prod.fst).Nodup) :
    Json.fields? (fields.map Prod.fst) v = some (fields.map Prod.snd) := by
  obtain ⟨members, rfl, hperm⟩ := h
  have hcarries : (object members).Carries fields := ⟨members, rfl, hperm⟩
  rw [Json.fields?, mapM_eq_some_iff, List.forall₂_map_left_iff, List.forall₂_map_right_iff,
    List.forall₂_same]
  exact fun f hf => hcarries.member? hnames hf

/-- Without the members of one name the other fields are still there. -/
theorem Carries.without {members : List (String × Json)} {name : String} {field : Option Json}
    (h : (object members).Carries ((name, field) :: fields))
    (hname : name ∉ fields.map Prod.fst) :
    (object (members.filter fun m => m.1 != name)).Carries fields := by
  obtain ⟨_, ⟨⟩, hperm⟩ := h
  refine ⟨_, rfl, ?_⟩
  have hleft : (members.filter fun m => m.1 != name).filter (fun m => m.1 ∈ fields.map Prod.fst) =
      (members.filter fun m => m.1 ∈ ((name, field) :: fields).map Prod.fst).filter
        fun m => m.1 != name := by
    rw [List.filter_filter, List.filter_filter]
    refine List.filter_congr fun m _ => ?_
    rw [List.map_cons, Bool.and_comm, Bool.eq_iff_iff]
    simp only [Bool.and_eq_true, bne_iff_ne, decide_eq_true_eq, List.mem_cons]
    exact and_congr_right fun hne => (or_iff_right hne).symm
  have hright : (present ((name, field) :: fields)).filter (fun m => m.1 != name) =
      present fields := by
    have hrest : (present fields).filter (fun m => m.1 != name) = present fields := by
      rw [List.filter_eq_self]
      intro m hm
      rw [bne_iff_ne]
      rintro rfl
      exact hname (List.mem_map_of_mem (mem_present.1 hm))
    cases field with
    | none => exact hrest
    | some w => simpa [present] using hrest
  rw [hleft, ← hright]
  exact hperm.filter _

/-- An object in another order still has its members under their names, their values perhaps in another
order. -/
theorem Reordered.carries {ms : List (String × Json)} {v : Json} (h : (object ms).Reordered v) :
    ∃ ws, List.Forall₂ Reordered (ms.map Prod.snd) ws ∧
      v.Carries ((ms.map Prod.fst).zip (ws.map some)) := by
  obtain ⟨ns, ms', rfl, hperm, hms⟩ := object_reordered_iff.1 h
  have hfields : (ms.map Prod.fst).zip ((ms'.map Prod.snd).map some) =
      ms'.map fun m => (m.1, some m.2) := by
    clear h hperm
    induction hms with
    | nil => rfl
    | cons hm _ ih => simpa [hm.1] using ih
  refine ⟨ms'.map Prod.snd, ?_, ns, rfl, ?_⟩
  · rw [List.forall₂_map_left_iff, List.forall₂_map_right_iff]
    exact hms.imp fun m n hm => hm.2
  have hall : ns.filter (fun m => m.1 ∈ (ms'.map fun m => (m.1, some m.2)).map Prod.fst) = ns := by
    rw [List.filter_eq_self]
    intro m hm
    simpa using ⟨m.2, hperm.mem_iff.2 hm⟩
  have hpresent : present (ms'.map fun m => (m.1, some m.2)) = ms' := by
    simp [present, List.filterMap_map]
  rw [hfields, hall, hpresent]
  exact hperm.symm

/-! ## Fields of a record -/

theorem below?_nat {bound n : Nat} (h : n < bound) : below? bound (nat n) = some n := by
  rw [nat, below?, if_pos ⟨Int.natCast_nonneg n, Int.ofNat_lt.2 h⟩, Int.toNat_natCast]

theorem required_word (w : UInt32) :
    required (below? (twoTo 32)) (some (nat w.toNat)) = some w.toNat := by
  rw [required, Option.bind_some]
  exact below?_nat w.toNat_lt

theorem required_octet (b : UInt8) :
    required (below? (twoTo 8)) (some (nat b.toNat)) = some b.toNat := by
  rw [required, Option.bind_some]
  exact below?_nat b.toNat_lt

/-- A field that may be missing is read from what is written for it, which is `null` if it is missing. -/
theorem optional_ofOption {α : Type} {read : Json → Option α} {write : α → Json}
    (hread : ∀ a, read (write a) = some a) (hwrite : ∀ a, write a ≠ null) (field : Option α) :
    optional read (some (ofOption write field)) = some field := by
  cases field with
  | none => rfl
  | some a =>
    have hvalue : optional read (some (write a)) = (read (write a)).map some := by
      cases hw : write a with
      | null => exact absurd hw (hwrite a)
      | _ => rfl
    rw [ofOption, hvalue, hread]
    rfl

/-- A text that may be missing has no members to reorder. -/
theorem ofOption_reordered_iff {α : Type} {name : α → String} {field : Option α} {v : Json} :
    (ofOption (fun a => string (name a)) field).Reordered v ↔
      v = ofOption (fun a => string (name a)) field := by
  cases field with
  | none => exact null_reordered_iff
  | some a => exact string_reordered_iff

/-- A list is read if each item is. -/
theorem listOf?_eq_some_iff {α : Type} {read : Json → Option α} {items : List Json} {as : List α} :
    listOf? read (array items) = some as ↔ List.Forall₂ (fun v a => read v = some a) items as :=
  mapM_eq_some_iff

end ColorMarks.Json
