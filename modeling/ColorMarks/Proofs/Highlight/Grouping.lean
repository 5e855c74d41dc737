import ColorMarks.Highlight.Grouping
import ColorMarks.Proofs.Highlight.RangeGroups
import ColorMarks.Proofs.Ordered
import Mathlib.Data.List.Basic

/-!
# What a grouping gathers

The marks of a snapshot are gathered under their keys: every key that occurs has one group, and in it
all of its locations in the order of the marks.
-/

namespace ColorMarks

namespace Directive

theorem toList_color (key : String) : ("Color:" ++ key).toList = lead ++ key.toList := by
  simp [lead]

/-- A message is a directive exactly if it is `Color:` with a key after it. -/
theorem ofMessage?_eq_some_iff {message : String} {d : Directive} :
    ofMessage? message = some d ↔ ∃ key, message = "Color:" ++ key ∧ d = ofKey key := by
  rw [ofMessage?, Option.map_eq_some_iff]
  constructor
  · rintro ⟨cs, hcs, rfl⟩
    refine ⟨String.ofList cs, String.toList_inj.1 ?_, rfl⟩
    rw [toList_color, String.toList_ofList]
    exact Text.after?_eq_some_iff.1 hcs
  · rintro ⟨key, rfl, rfl⟩
    refine ⟨key.toList, ?_, by rw [String.ofList_toList]⟩
    rw [toList_color]
    exact Text.after?_eq_some_iff.2 rfl

end Directive

namespace RangeGroups

/-- Where the groups are given key by key, a location is added to the group of its key and to no other. -/
theorem appendTo_map {keys : List String} (hkeys : keys.Nodup) {key : String}
    {locations : String → List Location} (hnone : key ∉ keys → locations key = [])
    (location : Location) :
    appendTo key location (keys.map fun k => (k, locations k)) =
      (if key ∈ keys then keys else keys ++ [key]).map fun k =>
        (k, if key = k then locations k ++ [location] else locations k) := by
  induction keys with
  | nil => simp [appendTo, hnone]
  | cons k keys ih =>
    obtain ⟨hfresh, hrest⟩ := List.nodup_cons.1 hkeys
    by_cases h : k = key
    · subst h
      have hothers : ∀ l ∈ keys,
          (l, locations l) = (l, if k = l then locations l ++ [location] else locations l) := by
        intro l hl
        have hne : k ≠ l := fun heq => hfresh (heq ▸ hl)
        rw [if_neg hne]
      simp [appendTo, List.map_congr_left hothers]
    · have hmem : key ∈ k :: keys ↔ key ∈ keys := by simp [Ne.symm h]
      rw [List.map_cons, appendTo, if_neg h, ih hrest fun hnew => hnone (mt hmem.1 hnew)]
      by_cases hkey : key ∈ keys
      · simp [hkey, Ne.symm h]
      · simp [hkey, Ne.symm h]

end RangeGroups

namespace Grouping

/-- The locations of a key among some marks. -/
def locationsOf (ms : List (Directive × Location)) (key : String) : List Location :=
  (ms.filter fun m => m.1.key == key).map Prod.snd

theorem locationsOf_concat (ms : List (Directive × Location)) (m : Directive × Location)
    (key : String) :
    locationsOf (ms ++ [m]) key =
      if m.1.key = key then locationsOf ms key ++ [m.2] else locationsOf ms key := by
  by_cases h : m.1.key = key
  · simp [locationsOf, h]
  · simp [locationsOf, h]

theorem locationsOf_eq_nil {ms : List (Directive × Location)} {key : String}
    (h : ∀ m ∈ ms, m.1.key ≠ key) : locationsOf ms key = [] := by
  have hnone : ms.filter (fun m => m.1.key == key) = [] := by
    rw [List.filter_eq_nil_iff]
    intro m hm
    simpa using h m hm
  rw [locationsOf, hnone]
  rfl

/-- The grouping of some marks whose keys are, in the order of their first marks, `keys`. -/
structure Gathers (g : Grouping) (ms : List (Directive × Location)) (keys : List String) :
    Prop where
  nodup : keys.Nodup
  mem : ∀ key, key ∈ keys ↔ ∃ m ∈ ms, m.1.key = key
  groups : g.ranges.groups = keys.map fun key => (key, locationsOf ms key)
  index : g.ranges.index = keys.zipIdx
  directives : g.directives = keys.map fun key => (key, Directive.ofKey key)

theorem gathers_empty : Gathers .empty [] [] where
  nodup := List.nodup_nil
  mem := by simp
  groups := rfl
  index := rfl
  directives := rfl

theorem Gathers.keys_ranges {g : Grouping} {ms : List (Directive × Location)} {keys : List String}
    (h : g.Gathers ms keys) : g.ranges.keys = keys := by
  simp [RangeGroups.keys, h.groups, Function.comp_def]

theorem Gathers.indexed {g : Grouping} {ms : List (Directive × Location)} {keys : List String}
    (h : g.Gathers ms keys) : g.ranges.Indexed :=
  ⟨h.keys_ranges ▸ h.nodup, h.keys_ranges ▸ h.index⟩

theorem lookup_directives (keys : List String) (key : String) :
    (keys.map fun key => (key, Directive.ofKey key)).lookup key =
      if key ∈ keys then some (Directive.ofKey key) else none := Ordered.lookup_map _ keys key

theorem locationsOf_push (ms : List (Directive × Location)) (key : String) (location : Location)
    (k : String) : locationsOf (ms ++ [(.ofKey key, location)]) k =
      if key = k then locationsOf ms k ++ [location] else locationsOf ms k := by
  rw [locationsOf_concat, Directive.key_ofKey]

/-- One more mark whose directive is that of its key: a key that has no group yet gets one. -/
theorem Gathers.push_key {g : Grouping} {ms : List (Directive × Location)} {keys : List String}
    (h : g.Gathers ms keys) (key : String) (location : Location) :
    (g.push (.ofKey key) location).Gathers (ms ++ [(.ofKey key, location)])
      (if key ∈ keys then keys else keys ++ [key]) := by
  have hranges : (g.push (.ofKey key) location).ranges = g.ranges.push key location := by
    rw [Grouping.push, Directive.key_ofKey]
  have hpushed := h.indexed.keys_push key location
  rw [h.keys_ranges] at hpushed
  have hindexed := h.indexed.push key location
  refine ⟨hpushed ▸ hindexed.nodup, fun k => ?_, ?_, ?_, ?_⟩
  · have hold : (∃ m ∈ ms ++ [(Directive.ofKey key, location)], m.1.key = k) ↔ k ∈ keys ∨ k = key := by
      rw [h.mem]
      simp [or_and_right, exists_or, eq_comm]
    rw [hold]
    split
    · rename_i hkey
      exact ⟨.inl, fun hk => hk.elim id fun heq => heq ▸ hkey⟩
    · rw [List.mem_append, List.mem_singleton]
  · have hnone : key ∉ keys → locationsOf ms key = [] := fun hnew =>
      locationsOf_eq_nil fun m hm heq => hnew ((h.mem key).2 ⟨m, hm, heq⟩)
    have hlist := h.indexed.toList_push key location
    rw [RangeGroups.toList, RangeGroups.toList, h.groups,
      RangeGroups.appendTo_map h.nodup hnone location] at hlist
    rw [hranges, hlist]
    simp only [locationsOf_push]
  · rw [hranges, hindexed.index, hpushed]
  · rw [Grouping.push, Directive.key_ofKey, h.directives, lookup_directives]
    by_cases hkey : key ∈ keys
    · simp [hkey]
    · simp [hkey]

/-- The keys of some marks, in the order of their first marks. -/
def keysOf (ms : List (Directive × Location)) : List String := (ms.map fun m => m.1.key).eraseDups

theorem Gathers.push {g : Grouping} {ms : List (Directive × Location)} (h : g.Gathers ms (keysOf ms))
    (key : String) (location : Location) :
    (g.push (.ofKey key) location).Gathers (ms ++ [(.ofKey key, location)])
      (keysOf (ms ++ [(.ofKey key, location)])) := by
  have hkeys : keysOf (ms ++ [(.ofKey key, location)]) =
      if key ∈ keysOf ms then keysOf ms else keysOf ms ++ [key] := by
    rw [keysOf, List.map_append, List.map_singleton, Directive.key_ofKey, eraseDups_concat, keysOf]
    simp only [List.mem_eraseDups]
  rw [hkeys]
  exact h.push_key key location

/-- All marks are gathered, whatever was gathered before. -/
theorem Gathers.foldl {g : Grouping} {done : List (Directive × Location)}
    (h : g.Gathers done (keysOf done)) {ms : List (Directive × Location)}
    (hms : ∀ m ∈ ms, m.1 = Directive.ofKey m.1.key) :
    (ms.foldl (fun g m => g.push m.1 m.2) g).Gathers (done ++ ms) (keysOf (done ++ ms)) := by
  induction ms generalizing g done with
  | nil => simpa using h
  | cons m ms ih =>
    have hpush := h.push m.1.key m.2
    rw [← hms m List.mem_cons_self] at hpush
    have hrest := ih hpush fun m' hm' => hms m' (List.mem_cons_of_mem m hm')
    simpa using hrest

theorem directive?_eq_some_iff {policy : Policy} {r : Related} {d : Directive} :
    directive? policy r = some d ↔
      ∃ key, r.message = "Color:" ++ key ∧ d = .ofKey key ∧ d.admitted policy = true := by
  rw [directive?, Option.filter_eq_some_iff, Directive.ofMessage?_eq_some_iff]
  constructor
  · rintro ⟨⟨key, hmessage, hd⟩, hadmitted⟩
    exact ⟨key, hmessage, hd, hadmitted⟩
  · rintro ⟨key, hmessage, hd, hadmitted⟩
    exact ⟨⟨key, hmessage, hd⟩, hadmitted⟩

theorem mem_marks_iff {policy : Policy} {s : Snapshot} {m : Directive × Location} :
    m ∈ marks policy s ↔ ∃ r ∈ s.related, ∃ key, r.message = "Color:" ++ key ∧
      (Directive.ofKey key).admitted policy = true ∧ m = (.ofKey key, r.location) := by
  simp only [marks, List.mem_filterMap, Option.map_eq_some_iff, directive?_eq_some_iff]
  constructor
  · rintro ⟨r, hr, d, ⟨key, hmessage, rfl, hadmitted⟩, rfl⟩
    exact ⟨r, hr, key, hmessage, hadmitted, rfl⟩
  · rintro ⟨r, hr, key, hmessage, hadmitted, rfl⟩
    exact ⟨r, hr, _, ⟨key, hmessage, rfl, hadmitted⟩, rfl⟩

/-- The keys of a snapshot's marks: those that its messages name and the policy lets through. -/
theorem exists_marks_key_iff {policy : Policy} {s : Snapshot} {key : String} :
    (∃ m ∈ marks policy s, m.1.key = key) ↔
      (∃ r ∈ s.related, r.message = "Color:" ++ key) ∧
        (Directive.ofKey key).admitted policy = true := by
  constructor
  · rintro ⟨m, hm, hkey⟩
    obtain ⟨r, hr, key', hmessage, hadmitted, rfl⟩ := mem_marks_iff.1 hm
    obtain rfl : key' = key := by simpa using hkey
    exact ⟨⟨r, hr, hmessage⟩, hadmitted⟩
  · rintro ⟨⟨r, hr, hmessage⟩, hadmitted⟩
    exact ⟨_, mem_marks_iff.2 ⟨r, hr, key, hmessage, hadmitted, rfl⟩, Directive.key_ofKey key⟩

/-- The locations of the related places whose message asks for the color of a key. -/
def coloredBy (related : List Related) (key : String) : List Location :=
  (related.filter fun r => r.message == "Color:" ++ key).map Related.location

/-- The marks of a key have all the locations that ask for its color, in order. -/
theorem locationsOf_marks {policy : Policy} {s : Snapshot} {key : String}
    (h : (Directive.ofKey key).admitted policy = true) :
    locationsOf (marks policy s) key = coloredBy s.related key := by
  rw [marks]
  induction s.related with
  | nil => rfl
  | cons r related ih =>
    by_cases hmessage : r.message = "Color:" ++ key
    · have hdirective : directive? policy r = some (.ofKey key) :=
        directive?_eq_some_iff.2 ⟨key, hmessage, rfl, h⟩
      rw [List.filterMap_cons_some (by rw [hdirective]; rfl)]
      simpa [locationsOf, coloredBy, hmessage] using ih
    · have hskip : coloredBy (r :: related) key = coloredBy related key := by
        simp [coloredBy, hmessage]
      rw [hskip, ← ih]
      cases hdirective : directive? policy r with
      | none => rw [List.filterMap_cons_none (by rw [hdirective]; rfl)]
      | some d =>
        obtain ⟨key', hmessage', rfl, -⟩ := directive?_eq_some_iff.1 hdirective
        have hkey : key' ≠ key := by
          rintro rfl
          exact hmessage hmessage'
        rw [List.filterMap_cons_some (by rw [hdirective]; rfl)]
        simp [locationsOf, hkey]

theorem Gathers.locationsOf_ne_nil {g : Grouping} {ms : List (Directive × Location)}
    {keys : List String} (h : g.Gathers ms keys) {key : String} (hkey : key ∈ keys) :
    locationsOf ms key ≠ [] := by
  intro hnil
  obtain ⟨m, hm, hmkey⟩ := (h.mem key).1 hkey
  have hmem : m.2 ∈ locationsOf ms key :=
    List.mem_map_of_mem (List.mem_filter.2 ⟨hm, by simpa using hmkey⟩)
  rw [hnil] at hmem
  cases hmem

/-- What is gathered, directive by directive. -/
theorem Gathers.toList_eq {g : Grouping} {ms : List (Directive × Location)}
    {keys : List String} (h : g.Gathers ms keys) :
    g.toList = keys.map fun key => (.ofKey key, locationsOf ms key) := by
  have hfound : ∀ key ∈ keys, (g.directiveOf? key).map (fun d => (d, locationsOf ms key)) =
      some (Directive.ofKey key, locationsOf ms key) := by
    intro key hkey
    rw [directiveOf?, h.directives, lookup_directives, if_pos hkey]
    rfl
  rw [toList, RangeGroups.toList, h.groups, List.filterMap_map]
  exact List.filterMap_eq_map_iff_forall_eq_some.2 hfound

/-- A key that was gathered has its locations. -/
theorem Gathers.get?_ranges {g : Grouping} {ms : List (Directive × Location)} {keys : List String}
    (h : g.Gathers ms keys) {key : String} (hkey : key ∈ keys) :
    g.ranges.get? key = some (locationsOf ms key) := by
  rw [h.indexed.get?_iff, RangeGroups.toList, h.groups]
  exact List.mem_map_of_mem hkey

theorem Gathers.locationsOf_marks {g : Grouping} {policy : Policy} {s : Snapshot}
    {keys : List String} (h : g.Gathers (marks policy s) keys) {key : String} (hkey : key ∈ keys) :
    locationsOf (marks policy s) key = coloredBy s.related key := by
  have hadmitted := (exists_marks_key_iff.1 ((h.mem key).1 hkey)).2
  exact Grouping.locationsOf_marks hadmitted

/-- The grouping of a snapshot gathers the marks of the snapshot, under their keys in order. -/
theorem gathers_marks (policy : Policy) (s : Snapshot) :
    (ofSnapshot policy s).Gathers (marks policy s) (keysOf (marks policy s)) := by
  have hms : ∀ m ∈ marks policy s, m.1 = Directive.ofKey m.1.key := by
    intro m hm
    obtain ⟨_, _, key, _, _, rfl⟩ := mem_marks_iff.1 hm
    rw [Directive.key_ofKey]
  exact gathers_empty.foldl hms

/-- `gathers_marks` where it does not matter in which order the keys stand. -/
theorem gathers_ofSnapshot (policy : Policy) (s : Snapshot) :
    ∃ keys, (ofSnapshot policy s).Gathers (marks policy s) keys := ⟨_, gathers_marks policy s⟩

end Grouping

end ColorMarks
