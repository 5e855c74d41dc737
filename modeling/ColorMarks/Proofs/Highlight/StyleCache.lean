import ColorMarks.Highlight.StyleCache
import ColorMarks.Proofs.Ordered
import Mathlib.Data.List.DropRight
import Mathlib.Data.List.Nodup

/-!
# What a cache keeps

A cache holds the styles that it was given since it was last cleared, under their keys and in their order
(`StyleCache.Keeps`). It is given one exactly when it is asked for a key that was not asked for since then,
and whatever it has stays as it is (`StyleCache.kept_of_changes`).
-/

namespace ColorMarks

namespace StyleCache

theorem get?_add (c : StyleCache) (key : String) (style : Style) (k : String) :
    (c.add key style).get? k = if k = key then some style else c.get? k := by
  by_cases h : k = key
  · simp [add, get?, h]
  · have hk : (k == key) = false := by simpa using h
    simp [add, get?, List.lookup_cons, hk, h]

/-- Looking up a key finds something if one of the entries has the key. -/
theorem isSome_get?_iff {c : StyleCache} {key : String} :
    (c.get? key).isSome = true ↔ key ∈ c.styles.map Prod.fst := by
  rw [get?, List.lookup_isSome_iff, List.mem_map]
  constructor
  · rintro ⟨entry, hentry, hkey⟩
    exact ⟨entry, hentry, (beq_iff_eq.1 hkey).symm⟩
  · rintro ⟨entry, hentry, rfl⟩
    exact ⟨entry, hentry, beq_self_eq_true _⟩

section Create

variable {σ : Type} {c : StyleCache} {key : String}

/-- A key that has a style needs no other one. -/
theorem getOrCreate_of_contains (h : c.contains key = true) (options : StyleOptions)
    (create : StyleOptions → σ → Style × σ) (s : σ) :
    c.getOrCreate key options create s = (c, false, s) := by
  rw [getOrCreate, if_pos h]

/-- A key without a style is given one. -/
theorem getOrCreate_of_not_contains (h : ¬ c.contains key = true) (options : StyleOptions)
    (create : StyleOptions → σ → Style × σ) (s : σ) :
    c.getOrCreate key options create s =
      (c.add key (create options s).1, true, (create options s).2) := by
  rw [getOrCreate, if_neg h]

/-- What a request comes to: nothing for a key that has a style, and a style for any other. -/
theorem getOrCreate_cases {options : StyleOptions} {create : StyleOptions → σ → Style × σ}
    {s s' : σ} {c' : StyleCache} {isNew : Bool}
    (h : c.getOrCreate key options create s = (c', isNew, s')) :
    (c.contains key = true ∧ c' = c ∧ isNew = false ∧ s' = s) ∨
      (c.get? key = none ∧ c' = c.add key (create options s).1 ∧ isNew = true ∧
        s' = (create options s).2) := by
  by_cases hkey : c.contains key = true
  · rw [getOrCreate_of_contains hkey] at h
    cases h
    exact .inl ⟨hkey, rfl, rfl, rfl⟩
  · rw [getOrCreate_of_not_contains hkey] at h
    cases h
    exact .inr ⟨Option.not_isSome_iff_eq_none.1 hkey, rfl, rfl, rfl⟩

end Create

/-! ## Asking and clearing -/

/-- What happens to a cache; every request brings its own way to give out a style. -/
inductive Change (σ : Type) where
  | ask (key : String) (options : StyleOptions) (create : StyleOptions → σ → Style × σ)
  | clear

variable {σ : Type}

/-- A way to give out a style that also puts down each style that it gives, with the key it is for. -/
def recorded (key : String) (create : StyleOptions → σ → Style × σ) (options : StyleOptions)
    (s : σ × List (String × Style)) : Style × σ × List (String × Style) :=
  let (style, source) := create options s.1
  (style, source, s.2 ++ [(key, style)])

/-- A cache, the state of whoever gives out styles, and the record of the styles since the last clear. -/
structure Course (σ : Type) where
  cache : StyleCache := .empty
  source : σ
  given : List (String × Style) := []

namespace Course

/-- The course after one change. A clear begins a new record and does not touch the source. -/
def change (p : Course σ) : Change σ → Course σ
  | .ask key options create =>
    let (cache, _, source, given) :=
      p.cache.getOrCreate key options (recorded key create) (p.source, p.given)
    ⟨cache, source, given⟩
  | .clear => { source := p.source }

/-- The course of a new cache after some changes. -/
def changed (source : σ) (cs : List (Change σ)) : Course σ := cs.foldl change { source := source }

@[simp] theorem changed_concat (source : σ) (cs : List (Change σ)) (c : Change σ) :
    changed source (cs ++ [c]) = (changed source cs).change c := by
  simp [changed]

end Course

/-- The key that is asked for, if one is. -/
def Change.key? : Change σ → Option String
  | ask key _ _ => some key
  | clear => none

/-- The keys that were asked for since the last clear. -/
def asked (cs : List (Change σ)) : List String :=
  (cs.rtakeWhile fun c => c.key?.isSome).filterMap Change.key?

@[simp] theorem asked_concat_ask (cs : List (Change σ)) (key : String) (options : StyleOptions)
    (create : StyleOptions → σ → Style × σ) :
    asked (cs ++ [.ask key options create]) = asked cs ++ [key] := by
  simp [asked, Change.key?]

@[simp] theorem asked_concat_clear (cs : List (Change σ)) : asked (cs ++ [.clear]) = [] := by
  simp [asked, Change.key?]

/-! ## The record of a cache -/

/-- The cache holds the recorded styles, each under a key of its own. -/
structure Keeps (c : StyleCache) (given : List (String × Style)) : Prop where
  nodup : c.order.Nodup
  order : c.order = given.map Prod.fst
  styles : c.styles = given.reverse

theorem keeps_empty : Keeps .empty [] := ⟨List.nodup_nil, rfl, rfl⟩

namespace Keeps

variable {c : StyleCache} {given : List (String × Style)} {key : String} {style : Style}

/-- The keys of the styles are the listed ones. -/
theorem perm_order (h : c.Keeps given) : (c.styles.map Prod.fst).Perm c.order := by
  rw [h.styles, h.order]
  exact (List.reverse_perm given).map Prod.fst

theorem get?_iff (h : c.Keeps given) : c.get? key = some style ↔ (key, style) ∈ given := by
  have hkeys : (c.styles.map Prod.fst).Nodup := h.perm_order.nodup_iff.2 h.nodup
  rw [get?, Ordered.lookup_eq_some_iff_mem hkeys, h.styles, List.mem_reverse]

theorem contains_iff (h : c.Keeps given) : c.contains key = true ↔ key ∈ c.order := by
  rw [contains, isSome_get?_iff, h.perm_order.mem_iff]

/-- No listed key is passed over. -/
theorem toList_eq (h : c.Keeps given) : c.toList = given := by
  have hfound : ∀ e ∈ given, (c.get? e.1).map (fun style => (e.1, style)) = some e := by
    intro e he
    rw [h.get?_iff.2 he]
    rfl
  rw [toList, h.order, List.filterMap_map]
  exact (List.filterMap_eq_map_iff_forall_eq_some.2 hfound).trans (List.map_id _)

/-- A new key is put down behind the others. -/
theorem add (h : c.Keeps given) (hnew : key ∉ c.order) (style : Style) :
    (c.add key style).Keeps (given ++ [(key, style)]) where
  nodup := by
    rw [StyleCache.add, ← List.concat_eq_append]
    exact h.nodup.concat hnew
  order := by simp [StyleCache.add, h.order]
  styles := by simp [StyleCache.add, h.styles]

end Keeps

/-- One request, said without the record: the record grows if the cache had no style of the key. -/
theorem getOrCreate_recorded (c : StyleCache) (key : String) (options : StyleOptions)
    (create : StyleOptions → σ → Style × σ) (s : σ) (given : List (String × Style)) :
    let after := c.getOrCreate key options create s
    c.getOrCreate key options (recorded key create) (s, given) =
      (after.1, after.2.1, after.2.2,
        if after.2.1 then given ++ [(key, (create options s).1)] else given) := by
  by_cases h : c.contains key = true
  · simp only [getOrCreate_of_contains h]
    rfl
  · simp only [getOrCreate_of_not_contains h]
    rfl

namespace Course

/-- The cache keeps what is on the record, under the keys that were asked for, where they came first. -/
structure InStep (p : Course σ) (cs : List (Change σ)) : Prop where
  keeps : p.cache.Keeps p.given
  order : p.cache.order = (asked cs).eraseDups

theorem InStep.mem_order_iff {p : Course σ} {cs : List (Change σ)} (h : p.InStep cs) {key : String} :
    key ∈ p.cache.order ↔ key ∈ asked cs := by
  rw [h.order, List.mem_eraseDups]

theorem InStep.change {p : Course σ} {cs : List (Change σ)} (h : p.InStep cs) (c : Change σ) :
    (p.change c).InStep (cs ++ [c]) := by
  cases c with
  | clear => exact ⟨keeps_empty, by simp [Course.change, StyleCache.empty]⟩
  | ask key options create =>
    rw [Course.change, getOrCreate_recorded]
    by_cases hkey : key ∈ p.cache.order
    · simp only [getOrCreate_of_contains (h.keeps.contains_iff.2 hkey)]
      refine ⟨h.keeps, ?_⟩
      rw [asked_concat_ask, eraseDups_concat, if_pos (h.mem_order_iff.1 hkey)]
      exact h.order
    · have hnew : ¬ p.cache.contains key = true := fun hold => hkey (h.keeps.contains_iff.1 hold)
      simp only [getOrCreate_of_not_contains hnew]
      refine ⟨h.keeps.add hkey _, ?_⟩
      rw [asked_concat_ask, eraseDups_concat, if_neg fun hask => hkey (h.mem_order_iff.2 hask),
        ← h.order]
      rfl

theorem inStep_changed (source : σ) (cs : List (Change σ)) : (changed source cs).InStep cs := by
  induction cs using List.reverseRecOn with
  | nil => exact ⟨keeps_empty, rfl⟩
  | append_singleton cs c ih =>
    rw [changed_concat]
    exact ih.change c

end Course

variable {c : StyleCache} {given : List (String × Style)} {key : String}

/-- A style is given out for a key that is not listed. -/
theorem Keeps.created_iff (h : c.Keeps given) (options : StyleOptions)
    (create : StyleOptions → σ → Style × σ) (s : σ) :
    (c.getOrCreate key options create s).2.1 = true ↔ key ∉ c.order := by
  by_cases hkey : c.contains key = true
  · simp [getOrCreate_of_contains hkey, h.contains_iff.1 hkey]
  · have hnew : key ∉ c.order := fun hmem => hkey (h.contains_iff.2 hmem)
    simp [getOrCreate_of_not_contains hkey, hnew]

/-- After a request the key has a style: the one that was given out for it, or the one it had. -/
theorem get?_getOrCreate_self (c : StyleCache) (key : String) (options : StyleOptions)
    (create : StyleOptions → σ → Style × σ) (s : σ) :
    ∃ style, (c.getOrCreate key options create s).1.get? key = some style ∧
      ((c.getOrCreate key options create s).2.1 = true → style = (create options s).1) ∧
      ((c.getOrCreate key options create s).2.1 = false → c.get? key = some style) := by
  by_cases hkey : c.contains key = true
  · obtain ⟨style, hstyle⟩ := Option.isSome_iff_exists.1 hkey
    rw [getOrCreate_of_contains hkey]
    exact ⟨style, hstyle, fun hcreated => absurd hcreated (by simp), fun _ => hstyle⟩
  · rw [getOrCreate_of_not_contains hkey]
    refine ⟨(create options s).1, ?_, fun _ => rfl, fun hkept => absurd hkept (by simp)⟩
    rw [get?_add, if_pos rfl]

/-- A request leaves alone what other keys have, and what the key has already. -/
theorem get?_getOrCreate_of_kept {k : String} (h : k ≠ key ∨ c.contains k = true)
    (options : StyleOptions) (create : StyleOptions → σ → Style × σ) (s : σ) :
    (c.getOrCreate key options create s).1.get? k = c.get? k := by
  by_cases hkey : c.contains key = true
  · rw [getOrCreate_of_contains hkey]
  · have hne : k ≠ key := by
      rintro rfl
      rcases h with hne | hold
      · exact hne rfl
      · exact hkey hold
    rw [getOrCreate_of_not_contains hkey, get?_add, if_neg hne]

/--
After any requests and clears the listed keys are those that have a style, each once and where it was first
asked for since the last clear. The next request gives out a style, and says so, exactly if its key was not
asked for since then; it finds a style either way and changes no style that is there.
-/
theorem kept_of_changes (source : σ) (cs : List (Change σ)) :
    let p := Course.changed source cs
    let c := p.cache
    c.order.Nodup ∧
      (∀ key, key ∈ c.order ↔ c.contains key = true) ∧
      (c.styles.map Prod.fst).Perm c.order ∧
      c.order = (asked cs).eraseDups ∧
      c.toList = p.given ∧ c.toList.map Prod.fst = c.order ∧
      (∀ key style, (key, style) ∈ c.toList ↔ c.get? key = some style) ∧
      c.size = c.styles.length ∧
      ∀ key options create,
        let after := c.getOrCreate key options create p.source
        c.getOrCreate key options (recorded key create) (p.source, p.given) =
          (after.1, after.2.1, after.2.2,
            if after.2.1 then p.given ++ [(key, (create options p.source).1)] else p.given) ∧
        (after.2.1 = true ↔ key ∉ asked cs) ∧
        (∃ style, after.1.get? key = some style ∧
          (after.2.1 = true → style = (create options p.source).1) ∧
          (after.2.1 = false → c.get? key = some style)) ∧
        ∀ k, k ≠ key ∨ c.contains k = true → after.1.get? k = c.get? k := by
  intro p c
  have h : p.InStep cs := Course.inStep_changed source cs
  have hlist : c.toList = p.given := h.keeps.toList_eq
  refine ⟨h.keeps.nodup, fun _ => h.keeps.contains_iff.symm, h.keeps.perm_order, h.order, hlist, ?_,
    ?_, ?_, ?_⟩
  · rw [hlist]
    exact h.keeps.order.symm
  · intro key style
    rw [hlist]
    exact h.keeps.get?_iff.symm
  · rw [size, ← h.keeps.perm_order.length_eq, List.length_map]
  · intro key options create after
    refine ⟨getOrCreate_recorded c key options create p.source p.given, ?_,
      get?_getOrCreate_self c key options create p.source,
      fun k hk => get?_getOrCreate_of_kept hk options create p.source⟩
    rw [h.keeps.created_iff options create p.source, h.mem_order_iff]

end StyleCache

end ColorMarks
