import ColorMarks.Proofs.Json.RoundTrip
import Mathlib.Data.List.Forall2

/-!
# Members in another order

The order of the members carries no meaning. `Json.Reordered` relates values that differ in nothing else,
at any level, and a value that can be read back from its text (`Json.Readable`) stays so.
-/

namespace ColorMarks.Json

/-- What holds of a container if it holds of all that is in it holds of every value. -/
@[elab_as_elim]
theorem induction_on {motive : Json → Prop} (v : Json) (null : motive null)
    (bool : ∀ b, motive (.bool b)) (integer : ∀ n, motive (.integer n))
    (double : ∀ d, motive (.double d)) (string : ∀ s, motive (.string s))
    (array : ∀ items, (∀ w ∈ items, motive w) → motive (.array items))
    (object : ∀ members, (∀ m ∈ members, motive m.2) → motive (.object members)) : motive v := by
  refine @Json.rec motive (fun items => ∀ w ∈ items, motive w)
    (fun members => ∀ m ∈ members, motive m.2) (fun m => motive m.2)
    null bool integer double string array object ?_ ?_ ?_ ?_ (fun _ _ hw => hw) v
  · exact fun w hw => absurd hw List.not_mem_nil
  · exact fun _ _ hw hitems => List.forall_mem_cons.2 ⟨hw, hitems⟩
  · exact fun m hm => absurd hm List.not_mem_nil
  · exact fun _ _ hm hmembers => List.forall_mem_cons.2 ⟨hm, hmembers⟩

mutual

/-- The same value, with the members of each object in any order. -/
def Reordered : Json → Json → Prop
  | array xs, array ys => ReorderedItems xs ys
  | object ms, object ns => ∃ ms', ReorderedMembers ms ms' ∧ ms'.Perm ns
  | v, w => v = w

/-- `Reordered` for each pair of items. -/
def ReorderedItems : List Json → List Json → Prop
  | [], [] => True
  | x :: xs, y :: ys => Reordered x y ∧ ReorderedItems xs ys
  | _, _ => False

/-- `Reordered` for each pair of members, and the same names. -/
def ReorderedMembers : List (String × Json) → List (String × Json) → Prop
  | [], [] => True
  | (m, x) :: xs, (n, y) :: ys => m = n ∧ Reordered x y ∧ ReorderedMembers xs ys
  | _, _ => False

end

theorem reorderedItems_iff {xs ys : List Json} :
    ReorderedItems xs ys ↔ List.Forall₂ Reordered xs ys := by
  induction xs generalizing ys with
  | nil => cases ys <;> simp [ReorderedItems]
  | cons x xs ih => cases ys <;> simp [ReorderedItems, ih]

theorem reorderedMembers_iff {ms ns : List (String × Json)} :
    ReorderedMembers ms ns ↔ List.Forall₂ (fun m n => m.1 = n.1 ∧ m.2.Reordered n.2) ms ns := by
  induction ms generalizing ns with
  | nil => cases ns <;> simp [ReorderedMembers]
  | cons m ms ih => cases ns <;> simp [ReorderedMembers, ih, and_assoc]

@[refl] theorem Reordered.refl (v : Json) : v.Reordered v := by
  induction v using induction_on with
  | null | bool _ | integer _ | double _ | string _ => simp [Reordered]
  | array items ih =>
    rw [Reordered, reorderedItems_iff, List.forall₂_same]
    exact ih
  | object members ih =>
    refine ⟨members, ?_, .refl _⟩
    rw [reorderedMembers_iff, List.forall₂_same]
    exact fun m hm => ⟨rfl, ih m hm⟩

@[simp] theorem null_reordered_iff {v : Json} : null.Reordered v ↔ v = null := by
  simp [Reordered, eq_comm]

@[simp] theorem integer_reordered_iff {n : Int} {v : Json} :
    (integer n).Reordered v ↔ v = integer n := by
  simp [Reordered, eq_comm]

@[simp] theorem string_reordered_iff {s : String} {v : Json} :
    (string s).Reordered v ↔ v = string s := by
  simp [Reordered, eq_comm]

theorem array_reordered_iff {xs : List Json} {v : Json} :
    (array xs).Reordered v ↔ ∃ ys, v = array ys ∧ List.Forall₂ Reordered xs ys := by
  cases v <;> simp [Reordered, reorderedItems_iff]

theorem object_reordered_iff {ms : List (String × Json)} {v : Json} :
    (object ms).Reordered v ↔ ∃ ns ms', v = object ns ∧ ms'.Perm ns ∧
      List.Forall₂ (fun m n => m.1 = n.1 ∧ m.2.Reordered n.2) ms ms' := by
  cases v <;> simp [Reordered, reorderedMembers_iff, and_comm]

theorem object_reordered {ms ms' ns : List (String × Json)} (hperm : ms'.Perm ns)
    (h : List.Forall₂ (fun m n => m.1 = n.1 ∧ m.2.Reordered n.2) ms ms') :
    (object ms).Reordered (object ns) :=
  object_reordered_iff.2 ⟨ns, ms', rfl, hperm, h⟩

/-! ## Values that can be read back -/

/-- Plain, and with at most so many containers that contain each other. -/
structure Readable (n : Nat) (v : Json) : Prop where
  plain : v.IsPlain
  shallow : v.depth ≤ n

theorem Readable.mono {n k : Nat} {v : Json} (h : Readable n v) (hk : n ≤ k) : Readable k v :=
  ⟨h.plain, Nat.le_trans h.shallow hk⟩

theorem readable_null (n : Nat) : Readable n null := ⟨trivial, Nat.zero_le n⟩

theorem readable_string (n : Nat) (s : String) : Readable n (string s) := ⟨trivial, Nat.zero_le n⟩

theorem readable_ofOption {α : Type} {n : Nat} {f : α → Json} (hf : ∀ a, Readable n (f a))
    (field : Option α) : Readable n (ofOption f field) := by
  cases field with
  | none => exact readable_null n
  | some a => exact hf a

theorem readable_nat (n : Nat) {k : Nat} (h : k < twoTo 64) : Readable n (nat k) := by
  refine ⟨⟨?_, ?_⟩, Nat.zero_le n⟩
  · omega
  · omega

theorem readable_array_iff {n : Nat} {items : List Json} :
    Readable (n + 1) (array items) ↔ ∀ v ∈ items, Readable n v := by
  constructor
  · rintro ⟨hplain, hshallow⟩ v hv
    exact ⟨plainItems_iff.1 hplain v hv,
      depthItems_le_iff.1 (Nat.le_of_succ_le_succ hshallow) v hv⟩
  · intro h
    exact ⟨plainItems_iff.2 fun v hv => (h v hv).plain,
      Nat.succ_le_succ (depthItems_le_iff.2 fun v hv => (h v hv).shallow)⟩

theorem readable_object_iff {n : Nat} {members : List (String × Json)} :
    Readable (n + 1) (object members) ↔ ∀ m ∈ members, Readable n m.2 := by
  constructor
  · rintro ⟨hplain, hshallow⟩ m hm
    exact ⟨plainMembers_iff.1 hplain m hm,
      depthMembers_le_iff.1 (Nat.le_of_succ_le_succ hshallow) m hm⟩
  · intro h
    exact ⟨plainMembers_iff.2 fun m hm => (h m hm).plain,
      Nat.succ_le_succ (depthMembers_le_iff.2 fun m hm => (h m hm).shallow)⟩

/-- What follows for the second of each pair holds of all the second ones. -/
theorem forall_mem_of_forall₂ {α β : Type} {R : α → β → Prop} {p : β → Prop} {as : List α}
    {bs : List β} (h : List.Forall₂ R as bs) (hp : ∀ a ∈ as, ∀ b, R a b → p b) : ∀ b ∈ bs, p b := by
  induction h with
  | nil => exact fun b hb => absurd hb List.not_mem_nil
  | cons hab _ ih =>
    refine List.forall_mem_cons.2 ⟨hp _ List.mem_cons_self _ hab, ih fun a ha => ?_⟩
    exact hp a (List.mem_cons_of_mem _ ha)

/-- The order of members does not matter for reading a value back. -/
theorem Reordered.readable {v w : Json} {n : Nat} (h : v.Reordered w) (hv : Readable n v) :
    Readable n w := by
  induction v using induction_on generalizing w n with
  | null | bool _ | integer _ | double _ | string _ =>
    obtain rfl : _ = w := by simpa [Reordered] using h
    exact hv
  | array items ih =>
    obtain ⟨items', rfl, hitems⟩ := array_reordered_iff.1 h
    cases n with
    | zero => exact absurd hv.shallow (Nat.not_succ_le_zero _)
    | succ n =>
      rw [readable_array_iff] at hv ⊢
      exact forall_mem_of_forall₂ hitems fun u hu u' hu' => ih u hu hu' (hv u hu)
  | object members ih =>
    obtain ⟨members', middle, rfl, hperm, hmembers⟩ := object_reordered_iff.1 h
    cases n with
    | zero => exact absurd hv.shallow (Nat.not_succ_le_zero _)
    | succ n =>
      rw [readable_object_iff] at hv ⊢
      intro m hm
      exact forall_mem_of_forall₂ hmembers (fun u hu u' hu' => ih u hu hu'.2 (hv u hu)) m
        (hperm.mem_iff.2 hm)

/-- A value that can be read back is read back. -/
theorem Readable.read?_text {v : Json} (h : Readable maxDepth v) : read? v.text = some v :=
  Json.read?_text h.plain h.shallow

end ColorMarks.Json
