import ColorMarks.Ordered
import Mathlib.Data.List.Induction
import Mathlib.Data.List.Nodup

/-!
# Keeping lists of keyed values in order

Putting values in and removing them keeps a list sorted, and a sorted list is known by its look-ups. Where
the order is that of arrival, `List.eraseDups` keeps each member at the place where it came first.
-/

namespace ColorMarks.Ordered

variable {κ α : Type} [LT κ]

/-- Looking up among the values that some keys have. -/
theorem lookup_filterMap {κ α : Type} [DecidableEq κ] (value : κ → Option α) (ks : List κ) (k : κ) :
    (ks.filterMap fun l => (value l).map fun a => (l, a)).lookup k =
      if k ∈ ks then value k else none := by
  induction ks with
  | nil => rfl
  | cons l ks ih =>
    by_cases hk : k = l
    · subst hk
      cases hv : value k with
      | none => simp [hv, ih]
      | some a => simp [hv]
    · have hkl : (k == l) = false := by simpa using hk
      cases hv : value l with
      | none => simp [hv, ih, hk]
      | some a => simp [hv, ih, hk, List.lookup_cons, hkl]

theorem lookup_map {κ α : Type} [DecidableEq κ] (value : κ → α) (ks : List κ) (k : κ) :
    (ks.map fun l => (l, value l)).lookup k = if k ∈ ks then some (value k) else none := by
  simpa using lookup_filterMap (fun l => some (value l)) ks k

/-- Where no key stands twice, looking up finds what is there. -/
theorem lookup_eq_some_iff_mem {κ α : Type} [DecidableEq κ] {entries : List (κ × α)}
    (h : (entries.map Prod.fst).Nodup) {k : κ} {a : α} :
    entries.lookup k = some a ↔ (k, a) ∈ entries := by
  induction entries with
  | nil => simp
  | cons e entries ih =>
    obtain ⟨l, b⟩ := e
    obtain ⟨hfresh, hrest⟩ := List.nodup_cons.1 h
    by_cases hk : k = l
    · subst hk
      rw [List.lookup_cons_self, Option.some.injEq, List.mem_cons, Prod.mk.injEq]
      constructor
      · rintro rfl
        exact .inl ⟨rfl, rfl⟩
      · rintro (⟨-, rfl⟩ | hmem)
        · rfl
        · exact absurd (List.mem_map_of_mem hmem) hfresh
    · have hkl : (k == l) = false := by simpa using hk
      rw [List.lookup_cons, hkl, List.mem_cons, Prod.mk.injEq, ih hrest]
      simp only [hk, false_and, false_or]

theorem sorted_cons_iff {e : κ × α} {entries : List (κ × α)} :
    Sorted (e :: entries) ↔ (∀ f ∈ entries, e.1 < f.1) ∧ Sorted entries := by
  simp [Sorted]

section Insert

variable [DecidableLT κ] [DecidableEq κ]

/-- The keys after an insertion are the new one and those from before. -/
theorem mem_insert {k : κ} {a : α} {entries : List (κ × α)} {e : κ × α}
    (h : e ∈ insert k a entries) : e = (k, a) ∨ e ∈ entries := by
  induction entries with
  | nil => exact .inl (by simpa [insert] using h)
  | cons f entries ih =>
    obtain ⟨l, b⟩ := f
    unfold insert at h
    split at h
    · rcases List.mem_cons.1 h with rfl | h
      · exact .inl rfl
      · exact .inr h
    · split at h
      · rcases List.mem_cons.1 h with rfl | h
        · exact .inl rfl
        · exact .inr (List.mem_cons_of_mem _ h)
      · rcases List.mem_cons.1 h with rfl | h
        · exact .inr List.mem_cons_self
        · rcases ih h with rfl | h
          · exact .inl rfl
          · exact .inr (List.mem_cons_of_mem _ h)

theorem sorted_insert [Trans (α := κ) (· < ·) (· < ·) (· < ·)]
    [Std.Trichotomous (α := κ) (· < ·)] (k : κ) (a : α) {entries : List (κ × α)} (h : Sorted entries) :
    Sorted (insert k a entries) := by
  induction entries with
  | nil => simp [insert, Sorted]
  | cons e entries ih =>
    obtain ⟨l, b⟩ := e
    obtain ⟨hfirst, hrest⟩ := sorted_cons_iff.1 h
    unfold insert
    split
    · rename_i hkl
      refine sorted_cons_iff.2 ⟨?_, h⟩
      intro f hf
      rcases List.mem_cons.1 hf with rfl | hf
      · exact hkl
      · exact Std.lt_trans hkl (hfirst f hf)
    · rename_i hkl
      split
      · rename_i heq
        subst heq
        exact sorted_cons_iff.2 ⟨hfirst, hrest⟩
      · rename_i hne
        refine sorted_cons_iff.2 ⟨?_, ih hrest⟩
        intro f hf
        rcases mem_insert hf with rfl | hf
        · rcases Std.lt_trichotomy k l with hlt | heq | hlt
          · exact absurd hlt hkl
          · exact absurd heq hne
          · exact hlt
        · exact hfirst f hf

/-- A key above all others is put at the end. -/
theorem insert_of_forall_lt [Std.Irrefl (α := κ) (· < ·)] {k : κ} {a : α} {entries : List (κ × α)}
    (h : ∀ e ∈ entries, e.1 < k ∧ ¬ k < e.1) : insert k a entries = entries ++ [(k, a)] := by
  induction entries with
  | nil => rfl
  | cons e entries ih =>
    obtain ⟨l, b⟩ := e
    obtain ⟨hlk, hkl⟩ := h (l, b) List.mem_cons_self
    have hne : k ≠ l := by
      rintro rfl
      exact Std.lt_irrefl hlk
    rw [insert, if_neg hkl, if_neg hne, ih fun e he => h e (List.mem_cons_of_mem _ he)]
    rfl

/-- A key is there after an insertion if it is the new one or was there before. -/
theorem mem_keys_insert {k l : κ} {a : α} {entries : List (κ × α)} :
    l ∈ (insert k a entries).map Prod.fst ↔ l = k ∨ l ∈ entries.map Prod.fst := by
  have hkeys (es : List (κ × α)) : l ∈ es.map Prod.fst ↔ (es.lookup l).isSome = true := by
    rw [List.lookup_isSome_iff, List.mem_map]
    exact exists_congr fun e => and_congr_right fun _ => by rw [beq_iff_eq, eq_comm]
  rw [hkeys, hkeys]
  by_cases h : l = k
  · simp [h]
  · simp [h, lookup_insert_of_ne h]

/-- Every list has its members in strictly ascending order. -/
theorem exists_ascending [Trans (α := κ) (· < ·) (· < ·) (· < ·)]
    [Std.Trichotomous (α := κ) (· < ·)] (ks : List κ) :
    ∃ sorted : List κ, sorted.Pairwise (· < ·) ∧ ∀ k, k ∈ sorted ↔ k ∈ ks := by
  have hfold : ∃ entries : List (κ × Unit), Sorted entries ∧
      ∀ k, k ∈ entries.map Prod.fst ↔ k ∈ ks := by
    induction ks with
    | nil => exact ⟨[], by simp [Sorted], by simp⟩
    | cons k ks ih =>
      obtain ⟨entries, hsorted, hmem⟩ := ih
      refine ⟨insert k () entries, sorted_insert k () hsorted, fun l => ?_⟩
      rw [mem_keys_insert, List.mem_cons, hmem]
  obtain ⟨entries, hsorted, hmem⟩ := hfold
  exact ⟨entries.map Prod.fst, hsorted, hmem⟩

end Insert

section Lookup

variable [DecidableEq κ]

theorem sorted_erase (k : κ) {entries : List (κ × α)} (h : Sorted entries) :
    Sorted (erase k entries) :=
  h.sublist (List.filter_sublist.map Prod.fst)

variable [Std.Irrefl (α := κ) (· < ·)]

/-- A key below all others is not found behind them. -/
theorem lookup_eq_none_of_lt {k : κ} {entries : List (κ × α)} (h : ∀ e ∈ entries, k < e.1) :
    entries.lookup k = none := by
  rw [List.lookup_eq_none_iff]
  intro e he
  have hne : k ≠ e.1 := by
    intro heq
    have hlt := h e he
    rw [← heq] at hlt
    exact Std.lt_irrefl hlt
  simpa using hne

/-- In ascending order every value is found under its key. -/
theorem lookup_of_mem {e : κ × α} {entries : List (κ × α)} (h : Sorted entries) (he : e ∈ entries) :
    entries.lookup e.1 = some e.2 := by
  refine (lookup_eq_some_iff_mem (h.imp ?_)).2 he
  rintro k l hlt rfl
  exact Std.lt_irrefl hlt

variable [Trans (α := κ) (· < ·) (· < ·) (· < ·)]

/-- The first key of a list is not below all the keys of another one with the same look-ups. -/
theorem not_lt_of_lookup {k l : κ} {a b : α} {entries entries' : List (κ × α)}
    (h' : Sorted ((l, b) :: entries'))
    (hlookup : ((k, a) :: entries).lookup k = ((l, b) :: entries').lookup k) : ¬ k < l := by
  intro hlt
  rw [List.lookup_cons_self, lookup_eq_none_of_lt] at hlookup
  · cases hlookup
  · intro e he
    rcases List.mem_cons.1 he with rfl | he
    · exact hlt
    · exact Std.lt_trans hlt ((sorted_cons_iff.1 h').1 e he)

variable [Std.Trichotomous (α := κ) (· < ·)]

/-- Two sorted lists with the same look-ups are the same. -/
theorem eq_of_lookup {entries entries' : List (κ × α)} (h : Sorted entries) (h' : Sorted entries')
    (hlookup : ∀ k, entries.lookup k = entries'.lookup k) : entries = entries' := by
  induction entries generalizing entries' with
  | nil =>
    cases entries' with
    | nil => rfl
    | cons e entries' =>
      have hfirst := hlookup e.1
      rw [List.lookup_cons_self] at hfirst
      cases hfirst
  | cons e entries ih =>
    cases entries' with
    | nil =>
      have hfirst := hlookup e.1
      rw [List.lookup_cons_self] at hfirst
      cases hfirst
    | cons f entries' =>
      obtain ⟨k, a⟩ := e
      obtain ⟨l, b⟩ := f
      have hkey : k = l := by
        rcases Std.lt_trichotomy k l with hlt | heq | hlt
        · exact absurd hlt (not_lt_of_lookup h' (hlookup k))
        · exact heq
        · exact absurd hlt (not_lt_of_lookup h (hlookup l).symm)
      subst hkey
      have hvalue : a = b := by simpa [List.lookup_cons] using hlookup k
      subst hvalue
      obtain ⟨hfirst, hrest⟩ := sorted_cons_iff.1 h
      obtain ⟨hfirst', hrest'⟩ := sorted_cons_iff.1 h'
      congr 1
      refine ih hrest hrest' fun m => ?_
      by_cases hm : m = k
      · subst hm
        rw [lookup_eq_none_of_lt hfirst, lookup_eq_none_of_lt hfirst']
      · have hother := hlookup m
        have hmk : (m == k) = false := by simpa using hm
        simpa [List.lookup_cons, hmk] using hother

end Lookup

end ColorMarks.Ordered

namespace ColorMarks

/-! ## Members in the order of their arrival -/

theorem eraseDups_concat {α : Type} [DecidableEq α] (as : List α) (a : α) :
    (as ++ [a]).eraseDups = if a ∈ as then as.eraseDups else as.eraseDups ++ [a] := by
  rw [List.eraseDups_append]
  by_cases h : a ∈ as <;> simp [List.removeAll, List.eraseDups_cons, h]

/-- What comes later may be without repetitions already. -/
theorem eraseDups_append_eraseDups {α : Type} [DecidableEq α] (as bs : List α) :
    (as ++ bs.eraseDups).eraseDups = (as ++ bs).eraseDups := by
  induction bs using List.reverseRecOn with
  | nil => rfl
  | append_singleton bs b ih =>
    rw [eraseDups_concat, ← List.append_assoc as bs, eraseDups_concat]
    by_cases hb : b ∈ bs
    · rw [if_pos hb, if_pos (List.mem_append_right as hb), ih]
    · rw [if_neg hb, ← List.append_assoc, eraseDups_concat, ih]
      simp

/-- The members that are kept come in the order in which all of them come first. -/
theorem eraseDups_filter {α : Type} [DecidableEq α] (p : α → Bool) (as : List α) :
    (as.filter p).eraseDups = as.eraseDups.filter p := by
  induction as using List.reverseRecOn with
  | nil => rfl
  | append_singleton as a ih =>
    rw [eraseDups_concat, List.filter_append]
    cases ha : p a with
    | true =>
      rw [List.filter_cons_of_pos ha, List.filter_nil, eraseDups_concat, ih]
      by_cases hmem : a ∈ as <;> simp [hmem, ha]
    | false =>
      have hnone : [a].filter p = [] := by simp [ha]
      rw [hnone, List.append_nil, ih]
      by_cases hmem : a ∈ as <;> simp [hmem, ha]

theorem nodup_eraseDups {α : Type} [DecidableEq α] (as : List α) : as.eraseDups.Nodup := by
  induction as using List.reverseRecOn with
  | nil => exact List.nodup_nil
  | append_singleton as a ih =>
    rw [eraseDups_concat]
    split
    · exact ih
    · rename_i hmem
      rw [← List.concat_eq_append]
      exact ih.concat (mt List.mem_eraseDups.1 hmem)

end ColorMarks
