/-!
# Ascending lists of keyed values

A list of pairs in strictly ascending order of their keys: putting a value in its place and removing
a key. A value is found with `List.lookup`.
-/

namespace ColorMarks.Ordered

variable {κ α : Type} [LT κ] [DecidableLT κ] [DecidableEq κ]

/-- The pairs with one more: before the first greater key, and instead of a pair of the same key. -/
def insert (k : κ) (a : α) : List (κ × α) → List (κ × α)
  | [] => [(k, a)]
  | (l, b) :: r =>
    if k < l then (k, a) :: (l, b) :: r
    else if k = l then (k, a) :: r
    else (l, b) :: insert k a r

omit [LT κ] [DecidableLT κ] in
/-- The pairs without those of a key. -/
def erase (k : κ) (entries : List (κ × α)) : List (κ × α) := entries.filter fun e => e.1 != k

/-- The keys stand in strictly ascending order. -/
def Sorted (entries : List (κ × α)) : Prop := (entries.map Prod.fst).Pairwise (· < ·)

@[simp] theorem lookup_insert_self (k : κ) (a : α) (entries : List (κ × α)) :
    (insert k a entries).lookup k = some a := by
  induction entries with
  | nil => simp [insert]
  | cons e r ih =>
    obtain ⟨l, b⟩ := e
    simp only [insert]
    split
    · simp
    · split
      · simp
      · rename_i h
        have : (k == l) = false := by simpa using h
        simp [List.lookup_cons, this, ih]

theorem lookup_insert_of_ne {k l : κ} (h : l ≠ k) (a : α) (entries : List (κ × α)) :
    (insert k a entries).lookup l = entries.lookup l := by
  have hlk : (l == k) = false := by simpa using h
  induction entries with
  | nil => simp [insert, List.lookup_cons, hlk]
  | cons e r ih =>
    obtain ⟨m, b⟩ := e
    simp only [insert]
    split
    · simp [List.lookup_cons, hlk]
    · split
      · rename_i hkm
        subst hkm
        simp [List.lookup_cons, hlk]
      · simp only [List.lookup_cons, ih]

omit [LT κ] [DecidableLT κ] in
@[simp] theorem lookup_erase_self (k : κ) (entries : List (κ × α)) :
    (erase k entries).lookup k = none := by
  induction entries with
  | nil => rfl
  | cons e r ih =>
    obtain ⟨l, b⟩ := e
    unfold erase at ih ⊢
    by_cases h : l = k
    · simpa [h] using ih
    · have hkl : (k == l) = false := by simpa using Ne.symm h
      simp [List.filter, bne_iff_ne.2 h, List.lookup_cons, hkl, ih]

omit [LT κ] [DecidableLT κ] in
/-- A look-up goes past the pairs of other keys. -/
theorem lookup_filter {p : κ → Bool} {k : κ} (h : p k = true) (entries : List (κ × α)) :
    (entries.filter fun e => p e.1).lookup k = entries.lookup k := by
  induction entries with
  | nil => rfl
  | cons e r ih =>
    obtain ⟨l, b⟩ := e
    cases hl : p l with
    | true => simp only [List.filter, hl, List.lookup_cons, ih]
    | false =>
      have hkl : (k == l) = false := by
        rw [beq_eq_false_iff_ne]
        rintro rfl
        rw [h] at hl
        cases hl
      simp only [List.filter, hl, List.lookup_cons, hkl, ih]

omit [LT κ] [DecidableLT κ] in
theorem lookup_erase_of_ne {k l : κ} (h : l ≠ k) (entries : List (κ × α)) :
    (erase k entries).lookup l = entries.lookup l :=
  lookup_filter (p := fun m => m != k) (bne_iff_ne.2 h) entries

end ColorMarks.Ordered
