import ColorMarks.Highlight.RangeGroups
import ColorMarks.Proofs.Ordered
import Mathlib.Data.List.Nodup

/-!
# Groups and their index

A key gets the slot behind all others when it first comes and keeps it until everything is cleared
(`RangeGroups.Indexed`). So a push does to the groups what it would do to a plain list of them
(`RangeGroups.appendTo`), and groups are known from their list alone (`RangeGroups.indexed_of_changes`).
-/

namespace ColorMarks

namespace RangeGroups

/-- What happens to groups. -/
inductive Change where
  | push (key : String) (location : Location)
  | clear

/-- The groups after one change. -/
def change (g : RangeGroups) : Change → RangeGroups
  | .push key location => g.push key location
  | .clear => .empty

/-- New groups after some changes. -/
def changed (cs : List Change) : RangeGroups := cs.foldl change .empty

@[simp] theorem changed_concat (cs : List Change) (c : Change) :
    changed (cs ++ [c]) = (changed cs).change c := by
  simp [changed]

/-- The same groups, and an index that leads every key to the same slot. -/
def Agrees (g h : RangeGroups) : Prop :=
  g.groups = h.groups ∧ ∀ key, g.index.lookup key = h.index.lookup key

/-! ## A plain list of groups -/

/-- The list with a location at the end of the group of its key; a new key comes behind the others. -/
def appendTo (key : String) (location : Location) :
    List (String × List Location) → List (String × List Location)
  | [] => [(key, [location])]
  | (k, locations) :: r =>
    if k = key then (k, locations ++ [location]) :: r
    else (k, locations) :: appendTo key location r

variable {groups : List (String × List Location)} {key : String} {location : Location}

theorem keys_appendTo : (appendTo key location groups).map Prod.fst =
    if key ∈ groups.map Prod.fst then groups.map Prod.fst else groups.map Prod.fst ++ [key] := by
  induction groups with
  | nil => rfl
  | cons e groups ih =>
    obtain ⟨k, locations⟩ := e
    by_cases h : k = key
    · simp [appendTo, h]
    · rw [appendTo, if_neg h, List.map_cons, ih]
      by_cases hmem : key ∈ groups.map Prod.fst
      · simp [hmem]
      · simp [hmem, Ne.symm h]

theorem lookup_appendTo_self : (appendTo key location groups).lookup key =
    some ((groups.lookup key).getD [] ++ [location]) := by
  induction groups with
  | nil => simp [appendTo]
  | cons e groups ih =>
    obtain ⟨k, locations⟩ := e
    by_cases h : k = key
    · simp [appendTo, h]
    · have hk : (key == k) = false := by simpa using Ne.symm h
      rw [appendTo, if_neg h, List.lookup_cons, List.lookup_cons, hk]
      exact ih

theorem lookup_appendTo_of_ne {k : String} (h : k ≠ key) :
    (appendTo key location groups).lookup k = groups.lookup k := by
  have hk : (k == key) = false := by simpa using h
  induction groups with
  | nil => simp [appendTo, List.lookup_cons, hk]
  | cons e groups ih =>
    obtain ⟨l, locations⟩ := e
    by_cases hl : l = key
    · simp [appendTo, hl, List.lookup_cons, hk]
    · rw [appendTo, if_neg hl, List.lookup_cons, List.lookup_cons, ih]

/-- Where no key stands twice, putting a location into the slot of its key is all that is to be done. -/
theorem pushAt_eq_appendTo (h : (groups.map Prod.fst).Nodup) {slot : Nat}
    (hslot : (groups.map Prod.fst)[slot]? = some key) :
    pushAt groups slot location = appendTo key location groups := by
  induction groups generalizing slot with
  | nil => simp at hslot
  | cons e groups ih =>
    obtain ⟨k, locations⟩ := e
    obtain ⟨hfresh, hrest⟩ := List.nodup_cons.1 h
    cases slot with
    | zero =>
      obtain rfl : k = key := by simpa using hslot
      simp [pushAt, appendTo]
    | succ slot =>
      have hlater : (groups.map Prod.fst)[slot]? = some key := by simpa using hslot
      have hne : k ≠ key := by
        rintro rfl
        exact hfresh (List.mem_of_getElem? hlater)
      have hpush := ih hrest hlater
      rw [pushAt] at hpush
      simp [pushAt, appendTo, hne, hpush]

theorem appendTo_of_not_mem (h : key ∉ groups.map Prod.fst) :
    appendTo key location groups = groups ++ [(key, [location])] := by
  induction groups with
  | nil => rfl
  | cons e groups ih =>
    obtain ⟨k, locations⟩ := e
    rw [List.map_cons, List.mem_cons, not_or] at h
    rw [appendTo, if_neg (Ne.symm h.1), ih h.2]
    rfl

/-- Putting a location behind all groups makes a new group of it alone. -/
theorem pushAt_concat (groups : List (String × List Location)) (key : String)
    (location : Location) :
    pushAt (groups ++ [(key, [])]) groups.length location = groups ++ [(key, [location])] := by
  rw [pushAt]
  induction groups with
  | nil => rfl
  | cons e groups ih => simpa using ih

/-! ## Slots -/

/-- No key stands twice, and the index numbers the keys in their order. -/
structure Indexed (g : RangeGroups) : Prop where
  nodup : g.keys.Nodup
  index : g.index = g.keys.zipIdx

theorem indexed_empty : Indexed .empty where
  nodup := List.nodup_nil
  index := rfl

namespace Indexed

variable {g g' : RangeGroups}

/-- The index holds each key with the slot that it stands in, and nothing else. -/
theorem mem_index_iff (h : g.Indexed) {slot : Nat} :
    (key, slot) ∈ g.index ↔ g.keys[slot]? = some key := by
  rw [h.index]
  exact List.mk_mem_zipIdx_iff_getElem?

/-- The index leads to the slot that a key stands in. -/
theorem lookup_index_iff (h : g.Indexed) {slot : Nat} :
    g.index.lookup key = some slot ↔ g.keys[slot]? = some key := by
  have hkeys : (g.index.map Prod.fst).Nodup := by
    rw [h.index, List.zipIdx_map_fst]
    exact h.nodup
  rw [Ordered.lookup_eq_some_iff_mem hkeys, h.mem_index_iff]

theorem lookup_index_eq_none_iff (h : g.Indexed) :
    g.index.lookup key = none ↔ key ∉ g.keys := by
  rw [Option.eq_none_iff_forall_ne_some, List.mem_iff_getElem?, not_exists]
  exact forall_congr' fun slot => not_congr h.lookup_index_iff

/-- Every group is found under its key, and nothing else is. -/
theorem get?_iff (h : g.Indexed) {locations : List Location} :
    g.get? key = some locations ↔ (key, locations) ∈ g.toList := by
  rw [get?, Option.bind_eq_bind, Option.bind_eq_some_iff, toList, List.mem_iff_getElem?]
  refine exists_congr fun slot => ?_
  rw [h.lookup_index_iff, keys, List.getElem?_map, Option.map_eq_some_iff, Option.bind_eq_bind,
    Option.bind_eq_some_iff]
  constructor
  · rintro ⟨⟨⟨k, ls⟩, hslot, rfl⟩, ⟨l, ls'⟩, hslot', heq⟩
    rw [hslot, Option.some.injEq] at hslot'
    cases hslot'
    cases heq
    exact hslot
  · intro hslot
    exact ⟨⟨_, hslot, rfl⟩, _, hslot, rfl⟩

theorem get?_eq_lookup (h : g.Indexed) : g.get? key = g.toList.lookup key := by
  apply Option.ext
  intro locations
  rw [h.get?_iff]
  exact (Ordered.lookup_eq_some_iff_mem h.nodup).symm

theorem get?_eq_none_iff (h : g.Indexed) : g.get? key = none ↔ key ∉ g.keys := by
  rw [Option.eq_none_iff_forall_ne_some, keys, List.mem_map]
  constructor
  · rintro hnone ⟨⟨k, locations⟩, he, rfl⟩
    exact hnone locations (h.get?_iff.2 he)
  · intro hkey locations hlocations
    exact hkey ⟨_, h.get?_iff.1 hlocations, rfl⟩

/-- A push adds to the group of its key, whether the index knows the key or not. -/
theorem toList_push (h : g.Indexed) (key : String) (location : Location) :
    (g.push key location).toList = appendTo key location g.toList := by
  cases hslot : g.index.lookup key with
  | some slot =>
    simp only [push, hslot, toList]
    exact pushAt_eq_appendTo h.nodup (h.lookup_index_iff.1 hslot)
  | none =>
    simp only [push, hslot, toList]
    rw [pushAt_concat]
    exact (appendTo_of_not_mem (h.lookup_index_eq_none_iff.1 hslot)).symm

theorem keys_push (h : g.Indexed) (key : String) (location : Location) :
    (g.push key location).keys = if key ∈ g.keys then g.keys else g.keys ++ [key] := by
  have hlist := congrArg (List.map Prod.fst) (h.toList_push key location)
  rwa [keys_appendTo] at hlist

theorem push (h : g.Indexed) (key : String) (location : Location) :
    (g.push key location).Indexed := by
  have hkeys := h.keys_push key location
  by_cases hmem : key ∈ g.keys
  · rw [if_pos hmem] at hkeys
    obtain ⟨slot, hslot⟩ := List.mem_iff_getElem?.1 hmem
    refine ⟨by rw [hkeys]; exact h.nodup, ?_⟩
    rw [hkeys, ← h.index]
    simp [RangeGroups.push, h.lookup_index_iff.2 hslot]
  · rw [if_neg hmem] at hkeys
    refine ⟨?_, ?_⟩
    · rw [hkeys, ← List.concat_eq_append]
      exact h.nodup.concat hmem
    · rw [hkeys, List.zipIdx_append, ← h.index]
      simp [RangeGroups.push, h.lookup_index_eq_none_iff.2 hmem, keys]

/-- A push is seen under its key only. -/
theorem get?_push (h : g.Indexed) (key : String) (location : Location) (k : String) :
    (g.push key location).get? k =
      if k = key then some ((g.get? key).getD [] ++ [location]) else g.get? k := by
  rw [(h.push key location).get?_eq_lookup, h.toList_push, h.get?_eq_lookup, h.get?_eq_lookup]
  split
  · rename_i heq
    rw [heq, lookup_appendTo_self]
  · rename_i hne
    exact lookup_appendTo_of_ne hne

/-- Groups with their index are known from the list of groups. -/
theorem eq_iff (h : g.Indexed) (h' : g'.Indexed) : g = g' ↔ g.toList = g'.toList := by
  constructor
  · rintro rfl
    rfl
  · intro hlist
    have hkeys : g.keys = g'.keys := congrArg (List.map Prod.fst) hlist
    have hindex : g.index = g'.index := by rw [h.index, h'.index, hkeys]
    cases g
    cases g'
    cases hlist
    cases hindex
    rfl

theorem agrees_iff (h : g.Indexed) (h' : g'.Indexed) : g.Agrees g' ↔ g.toList = g'.toList := by
  constructor
  · exact And.left
  · intro hlist
    obtain rfl := (h.eq_iff h').2 hlist
    exact ⟨rfl, fun _ => rfl⟩

theorem change (h : g.Indexed) (c : Change) : (g.change c).Indexed := by
  cases c with
  | push key location => exact h.push key location
  | clear => exact indexed_empty

end Indexed

theorem indexed_changed (cs : List Change) : (changed cs).Indexed := by
  induction cs using List.reverseRecOn with
  | nil => exact indexed_empty
  | append_singleton cs c ih =>
    rw [changed_concat]
    exact ih.change c

/--
After any changes the index leads from each key to the slot that holds it, and holds nothing else. A push
reaches the group of its own key only, and groups that list the same are the same, index and all.
-/
theorem indexed_of_changes (cs : List Change) :
    let g := changed cs
    g.keys.Nodup ∧
      (∀ key slot, (key, slot) ∈ g.index ↔ g.keys[slot]? = some key) ∧
      (∀ key slot, g.index.lookup key = some slot ↔ g.keys[slot]? = some key) ∧
      (∀ key slot, g.index.lookup key = some slot → slot < g.groups.length) ∧
      (∀ key locations, g.get? key = some locations ↔ (key, locations) ∈ g.toList) ∧
      (∀ key, g.get? key = none ↔ key ∉ g.keys) ∧
      (∀ key location,
        (g.push key location).keys = (if key ∈ g.keys then g.keys else g.keys ++ [key]) ∧
        (g.push key location).get? key = some ((g.get? key).getD [] ++ [location]) ∧
        ∀ k, k ≠ key → (g.push key location).get? k = g.get? k) ∧
      (∀ cs', (g = changed cs' ↔ g.toList = (changed cs').toList) ∧
        (g.Agrees (changed cs') ↔ g.toList = (changed cs').toList)) ∧
      changed (cs ++ [.clear]) = .empty := by
  intro g
  have h : g.Indexed := indexed_changed cs
  refine ⟨h.nodup, fun _ _ => h.mem_index_iff, fun _ _ => h.lookup_index_iff, ?_,
    fun _ _ => h.get?_iff, fun _ => h.get?_eq_none_iff, ?_, ?_, ?_⟩
  · intro key slot hslot
    obtain ⟨hlt, -⟩ := List.getElem?_eq_some_iff.1 (h.lookup_index_iff.1 hslot)
    simpa [keys] using hlt
  · intro key location
    refine ⟨h.keys_push key location, ?_, ?_⟩
    · rw [h.get?_push, if_pos rfl]
    · intro k hk
      rw [h.get?_push, if_neg hk]
  · intro cs'
    have h' : (changed cs').Indexed := indexed_changed cs'
    exact ⟨h.eq_iff h', h.agrees_iff h'⟩
  · rw [changed_concat]
    rfl

end RangeGroups

end ColorMarks
