import ColorMarks.Proofs.Highlight.Grouping
import ColorMarks.Proofs.Ordered
import Mathlib.Data.List.Basic

/-!
# Which keys are asked for

A grouping is known from the keys that the related places of a snapshot ask for, with their locations
(`Grouping.requests`): it is their grouping (`Grouping.ofRequests`) and nothing else counts. A policy that
leaves malformed colors out leaves out their groups and changes no other one.
-/

namespace ColorMarks

/-- What stands behind `Color:` in a message that begins with it. -/
def Directive.remainder? (message : String) : Option String :=
  if "Color:".toList.isPrefixOf message.toList then
    some (String.ofList (message.toList.drop "Color:".length))
  else none

/-- Whether a policy lets a key through: one that names no color may be left out. -/
def Policy.accepts : Policy → String → Bool
  | .render, _ => true
  | .skip, key => (Directive.color? key.toList).isSome

theorem Directive.remainder?_eq_some_iff {message key : String} :
    remainder? message = some key ↔ message = "Color:" ++ key := by
  have hlead : "Color:".toList = lead := rfl
  have hlength : "Color:".length = lead.length := rfl
  rw [remainder?, hlead, hlength, ← String.toList_inj, toList_color]
  constructor
  · intro h
    split at h
    · rename_i hprefix
      obtain ⟨rest, hrest⟩ := List.isPrefixOf_iff_prefix.1 hprefix
      rw [← hrest, List.drop_left] at h
      rw [← hrest, ← Option.some.inj h, String.toList_ofList]
    · cases h
  · intro h
    rw [h, if_pos (List.isPrefixOf_iff_prefix.2 (List.prefix_append _ _)), List.drop_left,
      String.ofList_toList]

theorem Directive.isParsed_ofKey (key : String) :
    (ofKey key).isParsed = (color? key.toList).isSome := by
  unfold ofKey
  split <;> simp_all [isParsed]

theorem Directive.admitted_eq_accepts (policy : Policy) (key : String) :
    (ofKey key).admitted policy = policy.accepts key := by
  cases policy <;> simp [admitted, isParsed_ofKey, Policy.accepts]

/-- The groups of a list, one for each key, have all of its members. -/
theorem foldr_length_filter {κ α : Type} [DecidableEq κ] {keys : List κ} (hkeys : keys.Nodup)
    {pairs : List (κ × α)} (hpairs : ∀ p ∈ pairs, p.1 ∈ keys) :
    keys.foldr (fun key n => (pairs.filter fun p => p.1 == key).length + n) 0 = pairs.length := by
  induction keys generalizing pairs with
  | nil => simp [List.eq_nil_iff_forall_not_mem.2 fun p hp => List.not_mem_nil (hpairs p hp)]
  | cons key keys ih =>
    obtain ⟨hkey, hrest⟩ := List.nodup_cons.1 hkeys
    have hothers : ∀ p ∈ pairs.filter (fun p => !(p.1 == key)), p.1 ∈ keys := by
      intro p hp
      obtain ⟨hp, hne⟩ := List.mem_filter.1 hp
      rcases List.mem_cons.1 (hpairs p hp) with heq | hmem
      · simp [heq] at hne
      · exact hmem
    have hsame : ∀ k ∈ keys, ∀ n,
        ((pairs.filter fun p => !(p.1 == key)).filter fun p => p.1 == k).length + n =
          (pairs.filter fun p => p.1 == k).length + n := by
      intro k hk n
      rw [List.filter_filter]
      congr 3
      funext p
      by_cases hp : p.1 = k
      · have hne : k ≠ key := fun heq => hkey (heq ▸ hk)
        simp [hp, hne]
      · simp [hp]
    have hih := ih hrest hothers
    rw [List.foldr_ext _ _ _ hsame] at hih
    have hsplit := List.length_eq_length_filter_add (l := pairs) fun p => p.1 == key
    rw [List.foldr_cons, hih]
    omega

/-- Whether a related place asks for a color. -/
def Related.asks (r : Related) : Bool := (Directive.remainder? r.message).isSome

namespace Grouping

/-- The keys that some related places ask for and the policy lets through, each with its location. -/
def requests (policy : Policy) (related : List Related) : List (String × Location) :=
  related.filterMap fun r =>
    ((Directive.remainder? r.message).filter policy.accepts).map fun key => (key, r.location)

/-- The grouping of some keys with locations: the keys in the order in which they come first, the
locations of each in the order in which they come. -/
def ofRequests (pairs : List (String × Location)) : Grouping :=
  let keys := (pairs.map Prod.fst).eraseDups
  { ranges :=
      { groups := keys.map fun key => (key, (pairs.filter fun p => p.1 == key).map Prod.snd)
        index := keys.zipIdx }
    directives := keys.map fun key => (key, .ofKey key) }

/-- The groups of the keys that name a color, in the slots that they have without the others. -/
def parsed (g : Grouping) : Grouping :=
  let groups := g.ranges.groups.filter fun e => (g.directiveOf? e.1).any Directive.isParsed
  { ranges := { groups, index := (groups.map Prod.fst).zipIdx }
    directives := g.directives.filter fun e => e.2.isParsed }

/-- What a snapshot is to be grouped into, told without the loop that groups it. -/
structure Specified (g : Grouping) (policy : Policy) (related : List Related) : Prop where
  /-- The keys are those that are asked for, each where it comes first. -/
  keys : g.ranges.keys = ((requests policy related).map Prod.fst).eraseDups
  /-- Each key has the locations of exactly the places that ask for it, in order. -/
  groups : g.ranges.toList = g.ranges.keys.map fun key => (key, coloredBy related key)
  /-- The index leads to the group of each key. -/
  found : ∀ key, g.ranges.get? key =
    if key ∈ g.ranges.keys then some (coloredBy related key) else none
  /-- Each key has the directive of the message that asks for it. -/
  directive : ∀ key, g.directiveOf? key =
    if key ∈ g.ranges.keys then Directive.ofMessage? ("Color:" ++ key) else none
  /-- There is one location for each place that asks. -/
  count : g.ranges.locationCount = (requests policy related).length

theorem directive?_eq_map (policy : Policy) (r : Related) :
    directive? policy r =
      ((Directive.remainder? r.message).filter policy.accepts).map Directive.ofKey := by
  ext d
  rw [directive?_eq_some_iff]
  simp only [Option.map_eq_some_iff, Option.filter_eq_some_iff, Directive.remainder?_eq_some_iff]
  constructor
  · rintro ⟨key, hmessage, rfl, hadmitted⟩
    rw [Directive.admitted_eq_accepts] at hadmitted
    exact ⟨key, ⟨hmessage, hadmitted⟩, rfl⟩
  · rintro ⟨key, ⟨hmessage, haccepts⟩, rfl⟩
    rw [← Directive.admitted_eq_accepts] at haccepts
    exact ⟨key, hmessage, rfl, haccepts⟩

/-- The marks of a snapshot are its requests, each with the directive of its key. -/
theorem marks_eq_map (policy : Policy) (s : Snapshot) :
    marks policy s = (requests policy s.related).map fun p => (.ofKey p.1, p.2) := by
  rw [marks, requests, List.map_filterMap]
  congr 1
  funext r
  rw [directive?_eq_map, Option.map_map, Option.map_map]
  rfl

/-- The keys of a snapshot's marks are those of its requests. -/
theorem keysOf_marks (policy : Policy) (s : Snapshot) :
    keysOf (marks policy s) = ((requests policy s.related).map Prod.fst).eraseDups := by
  rw [keysOf, marks_eq_map, List.map_map]
  simp [Function.comp_def]

/-- The grouping of a snapshot is that of its requests. -/
theorem ofSnapshot_eq (policy : Policy) (s : Snapshot) :
    ofSnapshot policy s = ofRequests (requests policy s.related) := by
  have hkeys := keysOf_marks policy s
  have hlocations : ∀ key, locationsOf (marks policy s) key =
      ((requests policy s.related).filter fun p => p.1 == key).map Prod.snd := by
    intro key
    rw [locationsOf, marks_eq_map, List.filter_map, List.map_map]
    simp [Function.comp_def]
  obtain ⟨-, -, hgroups, hindex, hdirectives⟩ := gathers_marks policy s
  rw [hkeys] at hgroups hindex hdirectives
  simp only [hlocations] at hgroups
  have hranges : (ofSnapshot policy s).ranges = (ofRequests (requests policy s.related)).ranges := by
    cases hr : (ofSnapshot policy s).ranges
    rw [hr] at hgroups hindex
    simp only at hgroups hindex
    rw [hgroups, hindex, ofRequests]
  cases hg : ofSnapshot policy s
  rw [hg] at hranges hdirectives
  simp only at hranges hdirectives
  rw [hranges, hdirectives, ofRequests]

theorem keys_ofRequests (pairs : List (String × Location)) :
    (ofRequests pairs).ranges.keys = (pairs.map Prod.fst).eraseDups := by
  simp [ofRequests, RangeGroups.keys, Function.comp_def]

theorem directiveOf?_ofRequests (pairs : List (String × Location)) (key : String) :
    (ofRequests pairs).directiveOf? key =
      if key ∈ (pairs.map Prod.fst).eraseDups then some (.ofKey key) else none :=
  lookup_directives _ key

theorem locationCount_ofRequests (pairs : List (String × Location)) :
    (ofRequests pairs).ranges.locationCount = pairs.length := by
  have hall : ∀ p ∈ pairs, p.1 ∈ (pairs.map Prod.fst).eraseDups := fun p hp =>
    List.mem_eraseDups.2 (List.mem_map_of_mem hp)
  rw [← foldr_length_filter (nodup_eraseDups _) hall]
  simp [ofRequests, RangeGroups.locationCount, List.foldr_map]

/-- The requests that a policy lets through that leaves malformed colors out. -/
theorem requests_skip (related : List Related) :
    requests .skip related =
      (requests .render related).filter fun p => (Directive.color? p.1.toList).isSome := by
  rw [requests, requests, List.filter_filterMap]
  congr 1
  funext r
  cases Directive.remainder? r.message with
  | none => rfl
  | some key => cases h : (Directive.color? key.toList).isSome <;> simp [Option.filter, Policy.accepts, h]

theorem groups_ofRequests (pairs : List (String × Location)) :
    (ofRequests pairs).ranges.groups = (pairs.map Prod.fst).eraseDups.map fun key =>
      (key, (pairs.filter fun p => p.1 == key).map Prod.snd) := rfl

theorem indexed_ofRequests (pairs : List (String × Location)) :
    (ofRequests pairs).ranges.Indexed where
  nodup := by
    rw [keys_ofRequests]
    exact nodup_eraseDups _
  index := by
    rw [keys_ofRequests]
    rfl

theorem get?_ofRequests (pairs : List (String × Location)) (key : String) :
    (ofRequests pairs).ranges.get? key =
      if key ∈ (pairs.map Prod.fst).eraseDups then
        some ((pairs.filter fun p => p.1 == key).map Prod.snd)
      else none := by
  rw [(indexed_ofRequests pairs).get?_eq_lookup, RangeGroups.toList, groups_ofRequests]
  exact Ordered.lookup_map _ _ key

/-- The grouping without its malformed colors is that of the pairs whose key names a color. -/
theorem parsed_ofRequests (pairs : List (String × Location)) :
    (ofRequests pairs).parsed =
      ofRequests (pairs.filter fun p => (Directive.color? p.1.toList).isSome) := by
  have hkeys : ((pairs.filter fun p => (Directive.color? p.1.toList).isSome).map
      Prod.fst).eraseDups =
      (pairs.map Prod.fst).eraseDups.filter fun key => (Directive.color? key.toList).isSome := by
    rw [← eraseDups_filter, List.filter_map]
    rfl
  have hkept : ∀ key ∈ (pairs.map Prod.fst).eraseDups,
      ((ofRequests pairs).directiveOf? key).any Directive.isParsed =
        (Directive.color? key.toList).isSome := by
    intro key hkey
    rw [directiveOf?_ofRequests, if_pos hkey, Option.any_some, Directive.isParsed_ofKey]
  have hsame : ∀ key, (Directive.color? key.toList).isSome = true →
      (pairs.filter fun p => (Directive.color? p.1.toList).isSome).filter (fun p => p.1 == key) =
        pairs.filter fun p => p.1 == key := by
    intro key hcolor
    rw [List.filter_filter]
    refine List.filter_congr fun p _ => ?_
    by_cases hp : p.1 = key <;> simp [hp, hcolor]
  have hgroups : (ofRequests pairs).ranges.groups.filter (fun e =>
        ((ofRequests pairs).directiveOf? e.1).any Directive.isParsed) =
      (ofRequests (pairs.filter fun p =>
        (Directive.color? p.1.toList).isSome)).ranges.groups := by
    rw [groups_ofRequests, groups_ofRequests, hkeys, List.filter_map]
    simp only [Function.comp_def]
    rw [List.filter_congr hkept]
    refine List.map_congr_left fun key hkey => ?_
    rw [hsame key (List.mem_filter.1 hkey).2]
  have hdirectives : (ofRequests pairs).directives.filter (fun e => e.2.isParsed) =
      (ofRequests (pairs.filter fun p => (Directive.color? p.1.toList).isSome)).directives := by
    simp only [ofRequests, hkeys, List.filter_map]
    simp [Function.comp_def, Directive.isParsed_ofKey]
  rw [parsed, hgroups, hdirectives]
  simp [ofRequests, Function.comp_def]

/-- The places that ask for a key that the policy lets through are those in its requests. -/
theorem coloredBy_eq_requests {policy : Policy} {key : String} (haccepts : policy.accepts key = true)
    (s : Snapshot) : coloredBy s.related key =
      ((requests policy s.related).filter fun p => p.1 == key).map Prod.snd := by
  rw [← Directive.admitted_eq_accepts] at haccepts
  rw [← locationsOf_marks haccepts, locationsOf, marks_eq_map, List.filter_map, List.map_map]
  simp [Function.comp_def]

theorem accepts_of_mem_requests {policy : Policy} {related : List Related} {p : String × Location}
    (hp : p ∈ requests policy related) : policy.accepts p.1 = true := by
  obtain ⟨r, -, hr⟩ := List.mem_filterMap.1 hp
  obtain ⟨key, hkey, rfl⟩ := Option.map_eq_some_iff.1 hr
  exact (Option.filter_eq_some_iff.1 hkey).2

/-- Grouping a snapshot does what it is to do. -/
theorem specified_ofSnapshot (policy : Policy) (s : Snapshot) :
    (ofSnapshot policy s).Specified policy s.related := by
  have hkeys := keys_ofRequests (requests policy s.related)
  have hlocations : ∀ key ∈ ((requests policy s.related).map Prod.fst).eraseDups,
      ((requests policy s.related).filter fun p => p.1 == key).map Prod.snd =
        coloredBy s.related key := by
    intro key hkey
    obtain ⟨p, hp, rfl⟩ := List.mem_map.1 (List.mem_eraseDups.1 hkey)
    exact (coloredBy_eq_requests (accepts_of_mem_requests hp) s).symm
  rw [ofSnapshot_eq]
  refine ⟨hkeys, ?_, ?_, ?_, locationCount_ofRequests _⟩
  · rw [hkeys, RangeGroups.toList, groups_ofRequests]
    exact List.map_congr_left fun key hkey => by rw [hlocations key hkey]
  · intro key
    rw [hkeys, get?_ofRequests]
    split
    · rename_i hkey
      rw [hlocations key hkey]
    · rfl
  · intro key
    rw [hkeys, directiveOf?_ofRequests]
    congr 1
    exact (Directive.ofMessage?_eq_some_iff.2 ⟨key, rfl, rfl⟩).symm

/-- Places that ask for nothing make no difference to the requests. -/
theorem requests_filter (policy : Policy) (related : List Related) :
    requests policy (related.filter Related.asks) = requests policy related := by
  rw [requests, requests, List.filterMap_filter]
  congr 1
  funext r
  cases h : Directive.remainder? r.message <;> simp [Related.asks, h]

/-- Grouping keeps to what it is to do. A policy that leaves malformed colors out leaves out their groups
and nothing else. Snapshots with the same requests have the same grouping, and so have those with the same
places that ask: where one document ends and the next begins, what the findings say themselves and what
their other places say makes no difference. -/
theorem specified_and_determined (policy : Policy) (s : Snapshot) :
    (ofSnapshot policy s).Specified policy s.related ∧
      ofSnapshot .skip s = (ofSnapshot .render s).parsed ∧
      (∀ policy' s', requests policy' s'.related = requests policy s.related →
        ofSnapshot policy' s' = ofSnapshot policy s) ∧
      ∀ s' : Snapshot, s'.related.filter Related.asks = s.related.filter Related.asks →
        ofSnapshot policy s' = ofSnapshot policy s := by
  have hrequests : ∀ policy' s', requests policy' s'.related = requests policy s.related →
      ofSnapshot policy' s' = ofSnapshot policy s := by
    intro policy' s' hsame
    rw [ofSnapshot_eq, ofSnapshot_eq, hsame]
  refine ⟨specified_ofSnapshot policy s, ?_, hrequests, ?_⟩
  · rw [ofSnapshot_eq, ofSnapshot_eq, parsed_ofRequests, requests_skip]
  · intro s' hasks
    apply hrequests
    rw [← requests_filter, hasks, requests_filter]

private def askedIn (uri message : String) : Related := ⟨⟨uri, ⟨⟨0, 0⟩, ⟨0, 3⟩⟩⟩, message⟩

private def finding (message : String) (related : List Related) : Diagnostic :=
  ⟨⟨⟨0, 0⟩, ⟨0, 3⟩⟩, none, none, none, message, related⟩

/-- Two documents with a note between the colors, and the same colors in one document. -/
private def twoDocuments : Snapshot :=
  [("file:///a", [finding "first" [askedIn "file:///a" "Color:1,2,3", askedIn "file:///a" "note"]]),
    ("file:///b", [finding "second" [askedIn "file:///b" "Color:red"],
      finding "third" [askedIn "file:///c" "Color:1,2,3"]])]

private def oneDocument : Snapshot :=
  [("file:///c", [finding "only" [askedIn "file:///a" "Color:1,2,3", askedIn "file:///b" "Color:red",
    askedIn "file:///c" "Color:1,2,3"]])]

theorem specified_and_determined_two_documents :
    (ofSnapshot .render twoDocuments).ranges.keys = ["1,2,3", "red"] ∧
      (ofSnapshot .skip twoDocuments).ranges.keys = ["1,2,3"] ∧
      ofSnapshot .render oneDocument = ofSnapshot .render twoDocuments := by
  have hrequests : requests .render oneDocument.related = requests .render twoDocuments.related := by
    decide
  obtain ⟨hrender, hskip, hsame, -⟩ := specified_and_determined .render twoDocuments
  refine ⟨hrender.keys.trans (by decide), ?_, hsame .render oneDocument hrequests⟩
  rw [hskip]
  decide

end Grouping
end ColorMarks
