import ColorMarks.Proofs.Toml.Distinct
import ColorMarks.Settings

/-!
# What a document sets

The type of a value in a document is a `Shape`: which values have it, and what they stand for. A table
declares its entries (`Shape.table`), each of which may be left out and then has its default. A reader
follows a shape if it reads every value that has it and refuses every value with a name that is not
declared (`Reader.Follows`); readers of lists and tables follow if the readers of what is in them do.
-/

namespace ColorMarks

open Toml (Value TableForm Entries)

/-- A type of values in a document. -/
structure Shape (α : Type) where
  /-- The value has the type, and all names in it are declared. -/
  Fits : Value → Prop
  /-- What the value stands for. -/
  Means : Value → α → Prop
  /-- There is a name in the value that is not declared. -/
  Strays : Value → Prop

/-- A declared entry of a table: its name and type, and the field that it sets. -/
structure Slot (σ : Type) where
  name : String
  {α : Type}
  shape : Shape α
  get : σ → α

/-- The field has the given value, or what it has by default if no value is given. -/
def Slot.Holds {σ : Type} (slot : Slot σ) (default : σ) (entries : Entries) (s : σ) : Prop :=
  (∀ v, (slot.name, v) ∈ entries → slot.shape.Means v (slot.get s)) ∧
    (slot.name ∉ entries.map Prod.fst → slot.get s = slot.get default)

namespace Shape

variable {α σ : Type}

/-- Values that are written in one way only. -/
def written (write : α → Value) : Shape α where
  Fits v := ∃ a, v = write a
  Means v a := v = write a
  Strays _ := False

def text : Shape String := written .string

def natural : Shape Nat := written fun n => .integer n

def policy : Shape Policy := written fun
  | .render => .string "render"
  | .skip => .string "skip"

/-- A value that need not be there. -/
def optional (shape : Shape α) : Shape (Option α) where
  Fits := shape.Fits
  Means v x := ∃ a, x = some a ∧ shape.Means v a
  Strays := shape.Strays

/-- The items of an array, or the tables of a name in double brackets. -/
def ItemsOf (v : Value) (items : List Value) : Prop := v = .array items ∨ v = .tables items

def list (item : Shape α) : Shape (List α) where
  Fits v := ∃ items, ItemsOf v items ∧ ∀ w ∈ items, item.Fits w
  Means v as := ∃ items, ItemsOf v items ∧ List.Forall₂ item.Means items as
  Strays v := ∃ items, ItemsOf v items ∧ ∃ w ∈ items, item.Strays w

/-- A table of any form, with some of the declared entries in any order. -/
def table (default : σ) (slots : List (Slot σ)) : Shape σ where
  Fits v := ∃ form entries, v = .table form entries ∧
    ∀ e ∈ entries, ∃ slot ∈ slots, slot.name = e.1 ∧ slot.shape.Fits e.2
  Means v s := ∃ form entries, v = .table form entries ∧ ∀ slot ∈ slots, slot.Holds default entries s
  Strays v := ∃ form entries, v = .table form entries ∧ ∃ e ∈ entries,
    e.1 ∉ slots.map Slot.name ∨ ∃ slot ∈ slots, slot.name = e.1 ∧ slot.shape.Strays e.2

def filter : Shape DocumentFilter := table ⟨none, none⟩ [
  ⟨"scheme", optional text, DocumentFilter.scheme⟩,
  ⟨"language", optional text, DocumentFilter.language⟩]

def client : Shape ClientSection := table {} [
  ⟨"id", text, ClientSection.id⟩,
  ⟨"name", text, ClientSection.name⟩]

def server : Shape ServerSection := table {} [
  ⟨"module", text, ServerSection.module⟩,
  ⟨"runtime", text, ServerSection.runtime⟩,
  ⟨"args", list text, ServerSection.args⟩,
  ⟨"debug_exec_args", list text, ServerSection.debugArgs⟩]

def options : Shape OptionsSection := table {} [
  ⟨"document_selector", list filter, OptionsSection.selector⟩,
  ⟨"watch_patterns", list text, OptionsSection.patterns⟩,
  ⟨"initialize_timeout_ms", natural, OptionsSection.handshakePatience⟩,
  ⟨"shutdown_timeout_ms", natural, OptionsSection.shutdownPatience⟩]

def highlight : Shape HighlightSection := table {} [
  ⟨"malformed_colors", policy, HighlightSection.policy⟩]

/-- The type of a whole document. -/
def settings : Shape Settings := table {} [
  ⟨"client", client, Settings.client⟩,
  ⟨"server", server, Settings.server⟩,
  ⟨"client_options", options, Settings.options⟩,
  ⟨"highlight", highlight, Settings.highlight⟩]

end Shape

namespace Reader

variable {α β σ : Type}

/-- The reader reads the values of a type as what they stand for, and no value with a name that is not
declared. -/
structure Follows (read : Reader α) (shape : Shape α) : Prop where
  reads : ∀ v : Value, v.Distinct → shape.Fits v → ∃ a, read v = .ok a ∧ shape.Means v a
  refuses : ∀ v : Value, shape.Strays v → ∀ a, read v ≠ .ok a

/-! ## Values without entries -/

theorem follows_written {read : Reader α} {write : α → Value} (h : ∀ a, read (write a) = .ok a) :
    Follows read (.written write) where
  reads := by
    rintro v - ⟨a, rfl⟩
    exact ⟨a, h a, rfl⟩
  refuses v hv := absurd hv id

theorem follows_text : Follows string .text := follows_written fun _ => rfl

theorem follows_natural : Follows natural .natural := follows_written fun n => by
  rw [natural, if_pos (Int.natCast_nonneg n), Int.toNat_natCast]

theorem follows_policy :
    Follows (choice ([.render, .skip].map fun p => (Policy.name p, p))) .policy :=
  follows_written fun p => by cases p <;> rfl

section

variable {v : Value} {items : List Value} (hitems : Shape.ItemsOf v items)

include hitems

theorem list_eq_mapM (item : Reader α) : list item v = items.mapM item := by
  obtain rfl | rfl := hitems <;> rfl

theorem distinct_of_itemsOf (hv : v.Distinct) : ∀ w ∈ items, w.Distinct := by
  obtain rfl | rfl := hitems
  · cases hv with
    | array h => exact h
  · cases hv with
    | tables h => exact h

end

theorem follows_list {item : Reader α} {shape : Shape α} (h : Follows item shape) :
    Follows (list item) (.list shape) where
  reads := by
    rintro v hv ⟨items, hitems, hfits⟩
    have hvalues := distinct_of_itemsOf hitems hv
    obtain ⟨as, has, hmeans⟩ := exists_mapM_eq_ok fun w hw => h.reads w (hvalues w hw) (hfits w hw)
    exact ⟨as, (list_eq_mapM hitems item).trans has, items, hitems, hmeans⟩
  refuses := by
    rintro v ⟨items, hitems, w, hw, hstrays⟩ as has
    rw [list_eq_mapM hitems] at has
    obtain ⟨a, ha⟩ := exists_of_mapM_eq_ok has w hw
    exact h.refuses w hstrays a ha

/-! ## Tables -/

/-- A field of a reader sets the field of a slot, and no other one. -/
structure Serves (slots : List (Slot σ)) (f : Field σ) (slot : Slot σ) : Prop where
  name : f.1 = slot.name
  sets : ∀ v : Value, v.Distinct → slot.shape.Fits v → ∀ s, ∃ s', f.2 v s = .ok s' ∧
    slot.shape.Means v (slot.get s') ∧
    ∀ other ∈ slots, other.name ≠ slot.name → other.get s' = other.get s
  refuses : ∀ v : Value, slot.shape.Strays v → ∀ s s', f.2 v s ≠ .ok s'

section

variable {slots : List (Slot σ)} {name : String} {read : Reader α} {shape : Shape α}
  {put : α → σ → σ} (h : Follows read shape)

include h

theorem serves_field {slot : Slot σ} (hname : name = slot.name)
    (hfits : ∀ v, slot.shape.Fits v → shape.Fits v)
    (hmeans : ∀ v a s, shape.Means v a → slot.shape.Means v (slot.get (put a s)))
    (hstrays : ∀ v, slot.shape.Strays v → shape.Strays v)
    (hother : ∀ other ∈ slots, other.name ≠ slot.name → ∀ a s, other.get (put a s) = other.get s) :
    Serves slots (field name read put) slot where
  name := hname
  sets v hv hslot s := by
    obtain ⟨a, ha, hmeaning⟩ := h.reads v hv (hfits v hslot)
    have hset : (field name read put).2 v s = .ok (put a s) := congrArg (Except.map _) ha
    exact ⟨_, hset, hmeans v a s hmeaning, fun other hmem hne => hother other hmem hne a s⟩
  refuses v hslot s s' hset := by
    cases hread : read v with
    | ok a => exact h.refuses v (hstrays v hslot) a hread
    | error e =>
      have herror : (field name read put).2 v s = .error e := congrArg (Except.map _) hread
      cases herror.symm.trans hset

theorem serves_given {get : σ → α} (hput : ∀ a s, get (put a s) = a)
    (hother : ∀ other ∈ slots, other.name ≠ name → ∀ a s, other.get (put a s) = other.get s) :
    Serves slots (field name read put) ⟨name, shape, get⟩ := by
  refine serves_field h rfl (fun _ => id) (fun v a s hmeans => ?_) (fun _ => id) hother
  have hget : shape.Means v (get (put a s)) := by rwa [hput]
  exact hget

theorem serves_optional {get : σ → Option α} (hput : ∀ a s, get (put a s) = some a)
    (hother : ∀ other ∈ slots, other.name ≠ name → ∀ a s, other.get (put a s) = other.get s) :
    Serves slots (field name read put) ⟨name, shape.optional, get⟩ :=
  serves_field h rfl (fun _ => id) (fun _ a s hmeans => ⟨a, hput a s, hmeans⟩) (fun _ => id) hother

end

variable {slots : List (Slot σ)} {fields : List (Field σ)}

theorem map_fst_of_serves {rest : List (Slot σ)} (h : List.Forall₂ (Serves slots) fields rest) :
    fields.map Prod.fst = rest.map Slot.name := by
  induction h with
  | nil => rfl
  | cons hf _ ih => rw [List.map_cons, List.map_cons, hf.name, ih]

/-- Each slot has its field. -/
theorem serves_of_mem {rest : List (Slot σ)} (h : List.Forall₂ (Serves slots) fields rest)
    {slot : Slot σ} (hslot : slot ∈ rest) : ∃ f ∈ fields, Serves slots f slot := by
  induction h with
  | nil => exact absurd hslot List.not_mem_nil
  | @cons f t fields rest hf _ ih =>
    obtain rfl | hslot := List.mem_cons.1 hslot
    · exact ⟨f, List.mem_cons_self, hf⟩
    · obtain ⟨g, hg, hserves⟩ := ih hslot
      exact ⟨g, List.mem_cons_of_mem f hg, hserves⟩

section

variable (hfields : List.Forall₂ (Serves slots) fields slots)
  (hnames : (slots.map Slot.name).Nodup)

include hfields hnames

/-- An entry is put into the field of its slot. -/
theorem setField_eq {slot : Slot σ} (hslot : slot ∈ slots) : ∃ f, Serves slots f slot ∧
    ∀ s v, setField fields s slot.name v = f.2 v s := by
  obtain ⟨f, hf, hserves⟩ := serves_of_mem hfields hslot
  have hdistinct : (fields.map Prod.fst).Nodup := by rwa [map_fst_of_serves hfields]
  have hlookup : fields.lookup slot.name = some f.2 :=
    (Ordered.lookup_eq_some_iff_mem hdistinct).2 (hserves.name ▸ hf)
  refine ⟨f, hserves, fun s v => ?_⟩
  rw [setField, hlookup]

/-- Entries of declared names are set one after the other, and set their own fields only. -/
theorem exists_foldlM_setField {entries : Entries} (hdistinct : (entries.map Prod.fst).Nodup)
    (hvalues : ∀ e ∈ entries, e.2.Distinct)
    (hfits : ∀ e ∈ entries, ∃ slot ∈ slots, slot.name = e.1 ∧ slot.shape.Fits e.2) (s : σ) :
    ∃ s', entries.foldlM (fun s e => setField fields s e.1 e.2) s = .ok s' ∧
      ∀ slot ∈ slots, slot.Holds s entries s' := by
  induction entries generalizing s with
  | nil => exact ⟨s, rfl, fun slot _ => ⟨fun v hv => absurd hv List.not_mem_nil, fun _ => rfl⟩⟩
  | cons e entries ih =>
    obtain ⟨hnew, hdistinct⟩ := List.nodup_cons.1 hdistinct
    obtain ⟨hvalue, hvalues⟩ := List.forall_mem_cons.1 hvalues
    obtain ⟨⟨own, hown, hname, hfit⟩, hfits⟩ := List.forall_mem_cons.1 hfits
    obtain ⟨f, hserves, hset⟩ := setField_eq hfields hnames hown
    obtain ⟨m, hm, hmeans, hothers⟩ := hserves.sets e.2 hvalue hfit s
    obtain ⟨s', hs', hholds⟩ := ih hdistinct hvalues hfits m
    refine ⟨s', ?_, fun slot hslot => ?_⟩
    · rw [List.foldlM_cons, ← hname, hset, hm]
      exact hs'
    obtain ⟨hgiven, homitted⟩ := hholds slot hslot
    by_cases hsame : slot.name = e.1
    · -- the entry sets this field, and none after it does
      obtain rfl : slot = own := List.inj_on_of_nodup_map hnames hslot hown (hsame.trans hname.symm)
      have hlast := homitted (hsame ▸ hnew)
      refine ⟨fun v hv => ?_, fun habsent => ?_⟩
      · obtain hv | hv := List.mem_cons.1 hv
        · obtain rfl := congrArg Prod.snd hv
          rw [hlast]
          exact hmeans
        · exact absurd (hsame ▸ List.mem_map_of_mem hv) hnew
      · exact absurd (hsame ▸ List.mem_cons_self) habsent
    · have hkept := hothers slot hslot (hname.symm ▸ hsame)
      refine ⟨fun v hv => ?_, fun habsent => ?_⟩
      · obtain rfl | hv := List.mem_cons.1 hv
        · exact absurd rfl hsame
        · exact hgiven v hv
      · rw [homitted fun hmem => habsent (List.mem_cons_of_mem _ hmem), hkept]

theorem follows_record (typeName : String) (default : σ) :
    Follows (record typeName default fields) (.table default slots) where
  reads := by
    rintro v hv ⟨form, entries, rfl, hfits⟩
    cases hv with
    | table hdistinct hvalues =>
      obtain ⟨s, hs, hholds⟩ :=
        exists_foldlM_setField hfields hnames hdistinct hvalues hfits default
      exact ⟨s, hs, form, entries, rfl, hholds⟩
  refuses := by
    rintro v ⟨form, entries, rfl, e, he, hstrays⟩ a ha
    obtain ⟨s, s', hset⟩ := exists_of_foldlM_eq_ok ha e he
    obtain hunknown | ⟨slot, hslot, hname, hstrays⟩ := hstrays
    · have hlookup : fields.lookup e.1 = none := by
        rw [List.lookup_eq_none_iff]
        rintro f hf
        rw [← map_fst_of_serves hfields] at hunknown
        exact bne_iff_ne.2 fun hsame => hunknown (hsame ▸ List.mem_map_of_mem hf)
      rw [setField, hlookup] at hset
      cases hset
    · obtain ⟨f, hserves, heq⟩ := setField_eq hfields hnames hslot
      rw [← hname, heq] at hset
      exact hserves.refuses e.2 hstrays s s' hset

end

end Reader

/-! ## The sections -/

open Reader (Follows follows_text follows_natural follows_policy follows_list follows_record
  serves_given serves_optional)

theorem DocumentFilter.follows_read : Follows read .filter := by
  have hrecord : Follows (Reader.record "DocumentFilterSection" ⟨none, none⟩ fields) .filter := by
    refine follows_record ?_ (by decide) _ _
    exact .cons (serves_optional follows_text (fun _ _ => rfl) (by simp))
      (.cons (serves_optional follows_text (fun _ _ => rfl) (by simp)) .nil)
  constructor
  · intro v hv hfits
    obtain ⟨f, hf, hmeans⟩ := hrecord.reads v hv hfits
    obtain ⟨form, entries, rfl, -⟩ := hfits
    refine ⟨f, ?_, hmeans⟩
    rw [read, hf]
    rfl
  · intro v hstrays f hf
    obtain ⟨g, hg, -⟩ := exists_of_bind_eq_ok hf
    exact hrecord.refuses v hstrays g hg

namespace Settings

theorem follows_readClient : Follows readClient .client :=
  follows_record (.cons (serves_given follows_text (fun _ _ => rfl) (by simp))
    (.cons (serves_given follows_text (fun _ _ => rfl) (by simp)) .nil)) (by decide) _ _

theorem follows_readServer : Follows readServer .server :=
  follows_record (.cons (serves_given follows_text (fun _ _ => rfl) (by simp))
    (.cons (serves_given follows_text (fun _ _ => rfl) (by simp))
    (.cons (serves_given (follows_list follows_text) (fun _ _ => rfl) (by simp))
    (.cons (serves_given (follows_list follows_text) (fun _ _ => rfl) (by simp)) .nil))))
    (by decide) _ _

theorem follows_readOptions : Follows readOptions .options :=
  follows_record
    (.cons (serves_given (follows_list DocumentFilter.follows_read) (fun _ _ => rfl) (by simp))
    (.cons (serves_given (follows_list follows_text) (fun _ _ => rfl) (by simp))
    (.cons (serves_given follows_natural (fun _ _ => rfl) (by simp))
    (.cons (serves_given follows_natural (fun _ _ => rfl) (by simp)) .nil))))
    (by decide) _ _

theorem follows_readHighlight : Follows readHighlight .highlight :=
  follows_record (.cons (serves_given follows_policy (fun _ _ => rfl) (by simp)) .nil) (by decide) _ _

theorem follows_ofValue : Follows ofValue .settings :=
  follows_record (.cons (serves_given follows_readClient (fun _ _ => rfl) (by simp))
    (.cons (serves_given follows_readServer (fun _ _ => rfl) (by simp))
    (.cons (serves_given follows_readOptions (fun _ _ => rfl) (by simp))
    (.cons (serves_given follows_readHighlight (fun _ _ => rfl) (by simp)) .nil))))
    (by decide) _ _

/--
A document with some of the declared entries in any order is read: what is given has the given value, and
what is omitted, a table or an entry of a table that is there, has its default. A document with a name
that is not declared is an error.
-/
theorem ofText_of_shape {text : String} {v : Value} (h : Toml.parse? text = some v) :
    (Shape.settings.Fits v → ∃ s, ofText text = .ok s ∧ Shape.settings.Means v s) ∧
      (Shape.settings.Strays v → ∃ e, ofText text = .error e) := by
  constructor
  · intro hfits
    obtain ⟨s, hs, hmeans⟩ := follows_ofValue.reads v (Toml.distinct_of_parse? h) hfits
    refine ⟨s, ?_, hmeans⟩
    rw [ofText, h]
    dsimp only
    rw [hs]
  · intro hstrays
    cases hread : ofValue v with
    | ok s => exact absurd hread (follows_ofValue.refuses v hstrays s)
    | error e =>
      refine ⟨.misshapen e, ?_⟩
      rw [ofText, h]
      dsimp only
      rw [hread]

/-- A selector with an entry that leaves out the scheme; and a section with a name of its own. -/
theorem ofText_of_shape_in_selector :
    (∃ s, ofText "[[client_options.document_selector]]\nlanguage = \"c\"\n" = .ok s ∧
      s.client = {} ∧ s.options.shutdownPatience = 2000 ∧
      s.options.selector = [⟨none, some "c"⟩]) ∧
    ∃ e, ofText "[server]\nmodul = \"x\"\n" = .error e := by
  have hgiven : Toml.parse? "[[client_options.document_selector]]\nlanguage = \"c\"\n" =
      some (.table {} [("client_options", .table { implicit := true }
        [("document_selector", .tables [.table {} [("language", .string "c")]])])]) := by rfl
  have hstray : Toml.parse? "[server]\nmodul = \"x\"\n" =
      some (.table {} [("server", .table {} [("modul", .string "x")])]) := by rfl
  have hthird {a b c d : Slot Settings} : c ∈ [a, b, c, d] := by simp
  constructor
  · have hfilter : Shape.filter.Fits (.table {} [("language", .string "c")]) :=
      ⟨_, _, rfl, List.forall_mem_singleton.2
        ⟨_, List.mem_cons_of_mem _ List.mem_cons_self, rfl, "c", rfl⟩⟩
    have hoptions : Shape.options.Fits (.table { implicit := true }
        [("document_selector", .tables [.table {} [("language", .string "c")]])]) :=
      ⟨_, _, rfl, List.forall_mem_singleton.2 ⟨_, List.mem_cons_self, rfl, _, .inr rfl,
        List.forall_mem_singleton.2 hfilter⟩⟩
    obtain ⟨s, hs, _, _, ⟨⟩, hsections⟩ := (ofText_of_shape hgiven).1
      ⟨_, _, rfl, List.forall_mem_singleton.2 ⟨_, hthird, rfl, hoptions⟩⟩
    obtain ⟨_, _, ⟨⟩, hentries⟩ := (hsections _ hthird).1 _ List.mem_cons_self
    have hselector : (Shape.list .filter).Means (.tables [.table {} [("language", .string "c")]])
        s.options.selector :=
      (hentries _ List.mem_cons_self).1 _ List.mem_cons_self
    obtain ⟨items, hitems, hfilters⟩ := hselector
    obtain hitems | hitems := hitems
    · cases hitems
    cases hitems
    obtain ⟨⟨scheme, language⟩, _, ⟨_, _, ⟨⟩, hparts⟩, hrest, hone⟩ :=
      List.forall₂_cons_left_iff.1 hfilters
    have hscheme : scheme = none := (hparts _ List.mem_cons_self).2 (by decide)
    obtain ⟨_, hlanguage, ⟨⟩⟩ :=
      (hparts _ (List.mem_cons_of_mem _ List.mem_cons_self)).1 _ List.mem_cons_self
    have hpatience : s.options.shutdownPatience = 2000 :=
      (hentries ⟨"shutdown_timeout_ms", .natural, OptionsSection.shutdownPatience⟩ (by simp)).2
        (by decide)
    refine ⟨s, hs, (hsections _ List.mem_cons_self).2 (by decide), hpatience, ?_⟩
    have hgivenLanguage : language = some "c" := hlanguage
    rw [hone, List.forall₂_nil_left_iff.1 hrest, hscheme, hgivenLanguage]
  · have hserver : Shape.server.Strays (.table {} [("modul", .string "x")]) :=
      ⟨_, _, rfl, _, List.mem_cons_self, .inl (by decide)⟩
    exact (ofText_of_shape hstray).2 ⟨_, _, rfl, _, List.mem_cons_self,
      .inr ⟨_, List.mem_cons_of_mem _ List.mem_cons_self, rfl, hserver⟩⟩

end Settings

end ColorMarks
