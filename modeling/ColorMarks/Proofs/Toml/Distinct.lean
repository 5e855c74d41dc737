import ColorMarks.Proofs.Ordered
import ColorMarks.Proofs.Traversal
import ColorMarks.Toml.Document
import Mathlib.Data.List.Nodup

/-!
# Names of a table

No table of a document has two entries of one name, at any level (`Toml.distinct_of_parse?`): whatever puts
an entry into a table looks for its name first.
-/

namespace ColorMarks.Toml

/-- No table in the value has two entries of one name. -/
inductive Value.Distinct : Value → Prop
  | string (s : String) : Distinct (string s)
  | integer (n : Int) : Distinct (integer n)
  | float (d : Double) : Distinct (float d)
  | boolean (b : Bool) : Distinct (boolean b)
  | datetime : Distinct datetime
  | array {items : List Value} (h : ∀ v ∈ items, Distinct v) : Distinct (array items)
  | tables {items : List Value} (h : ∀ v ∈ items, Distinct v) : Distinct (tables items)
  | table {form : TableForm} {entries : Entries} (names : (entries.map Prod.fst).Nodup)
      (h : ∀ e ∈ entries, Distinct e.2) : Distinct (table form entries)

theorem map_fst_replaceEntry (name : String) (v : Value) (entries : Entries) :
    (replaceEntry name v entries).map Prod.fst = entries.map Prod.fst := by
  induction entries with
  | nil => rfl
  | cons e r ih =>
    obtain ⟨n, w⟩ := e
    rw [replaceEntry]
    split
    · rfl
    · exact congrArg (n :: ·) ih

theorem mem_replaceEntry {name : String} {v : Value} {entries : Entries} {e : String × Value}
    (h : e ∈ replaceEntry name v entries) : e = (name, v) ∨ e ∈ entries := by
  induction entries with
  | nil => exact .inr h
  | cons e' r ih =>
    obtain ⟨n, w⟩ := e'
    rw [replaceEntry] at h
    split at h
    · rename_i hname
      subst hname
      exact (List.mem_cons.1 h).imp_right (List.mem_cons_of_mem _)
    · obtain rfl | h := List.mem_cons.1 h
      · exact .inr List.mem_cons_self
      · exact (ih h).imp_right (List.mem_cons_of_mem _)

namespace Value.Distinct

variable {form : TableForm} {entries : Entries} {key : String} {v : Value} {ts : List Value}

theorem empty (form : TableForm) : (Value.table form []).Distinct :=
  .table List.nodup_nil fun _ he => absurd he List.not_mem_nil

theorem reform (h : (Value.table form entries).Distinct) (form' : TableForm) :
    (Value.table form' entries).Distinct := by
  cases h with
  | table hnames hentries => exact .table hnames hentries

theorem lookup (h : (Value.table form entries).Distinct) (hkey : entries.lookup key = some v) :
    v.Distinct := by
  cases h with
  | table hnames hentries =>
    exact hentries (key, v) ((Ordered.lookup_eq_some_iff_mem hnames).1 hkey)

/-- A new name is none of those that are there. -/
theorem add (h : (Value.table form entries).Distinct) (hkey : entries.lookup key = none)
    (hv : v.Distinct) : (Value.table form (entries ++ [(key, v)])).Distinct := by
  cases h with
  | table hnames hentries =>
    have hnew : key ∉ entries.map Prod.fst := by
      rw [List.mem_map]
      rintro ⟨e, he, rfl⟩
      simpa using List.lookup_eq_none_iff.1 hkey e he
    refine .table ?_ ?_
    · rw [List.map_append, List.map_singleton, ← List.concat_eq_append]
      exact hnames.concat hnew
    · intro e he
      obtain he | he := List.mem_append.1 he
      · exact hentries e he
      · rw [List.mem_singleton.1 he]
        exact hv

theorem replace (h : (Value.table form entries).Distinct) (hv : v.Distinct) :
    (Value.table form (replaceEntry key v entries)).Distinct := by
  cases h with
  | table hnames hentries =>
    refine .table ?_ ?_
    · rw [map_fst_replaceEntry]
      exact hnames
    · intro e he
      obtain rfl | he := mem_replaceEntry he
      · exact hv
      · exact hentries e he

theorem remove (h : (Value.table form entries).Distinct) :
    (Value.table form (entries.filter fun e => e.1 != key)).Distinct := by
  cases h with
  | table hnames hentries =>
    exact .table (hnames.sublist (List.filter_sublist.map Prod.fst)) fun e he =>
      hentries e (List.mem_filter.1 he).1

theorem last (h : (Value.tables ts).Distinct) (hlast : ts.getLast? = some v) : v.Distinct := by
  cases h with
  | tables hitems => exact hitems v (List.mem_of_getLast? hlast)

theorem concat (h : (Value.tables ts).Distinct) (hv : v.Distinct) : (Value.tables (ts ++ [v])).Distinct := by
  cases h with
  | tables hitems =>
    refine .tables fun t ht => ?_
    obtain ht | ht := List.mem_append.1 ht
    · exact hitems t ht
    · rw [List.mem_singleton.1 ht]
      exact hv

theorem dropLast (h : (Value.tables ts).Distinct) : (Value.tables ts.dropLast).Distinct := by
  cases h with
  | tables hitems => exact .tables fun t ht => hitems t (ts.dropLast_sublist.subset ht)

end Value.Distinct

open Value (Distinct)

/-! ## Values -/

theorem distinct_of_insertEntry? {name : List String} {v t t' : Value}
    (h : insertEntry? name v t = some t') (hv : v.Distinct) (ht : t.Distinct) : t'.Distinct := by
  fun_induction insertEntry? name v t generalizing t' with
  | case1 | case2 | case6 | case7 | case9 | case10 | case11 => cases h
  | case3 form entries key hkey =>
    cases h
    exact ht.add (Option.not_isSome_iff_eq_none.1 hkey) hv
  | case4 form entries key rest hrest hkey made =>
    rename_i ih
    obtain ⟨inner, hinner, h⟩ := Option.bind_eq_some_iff.1 h
    cases h
    exact ht.add hkey (ih hinner (.empty _))
  | case5 form entries key rest hrest inner content hkey hopen ih =>
    obtain ⟨inner', hinner, h⟩ := Option.bind_eq_some_iff.1 h
    cases h
    exact ht.replace (ih hinner (ht.lookup hkey))
  | case8 form entries key rest hrest ts hkey last hlast hlong ih =>
    obtain ⟨last', hlast', h⟩ := Option.bind_eq_some_iff.1 h
    cases h
    have hts := ht.lookup hkey
    exact ht.replace (hts.dropLast.concat (ih hlast' (hts.last hlast)))

theorem distinct_of_inlineTable? {entries : List (List String × Value)} {t : Value}
    (h : inlineTable? entries = some t) (hentries : ∀ e ∈ entries, e.2.Distinct) : t.Distinct :=
  foldlM_preserves h (.empty _) fun e he _ _ ht hstep =>
    distinct_of_insertEntry? hstep (hentries e he) ht

theorem distinct_of_readDatetime? {cs r : List Char} {v : Value}
    (h : readDatetime? cs = some (v, r)) : v.Distinct := by
  have hmap : ∀ {o : Option (List Char)}, o.map (fun r => (Value.datetime, r)) = some (v, r) →
      v.Distinct := by
    intro o ho
    obtain ⟨_, _, ⟨⟩⟩ := Option.map_eq_some_iff.1 ho
    exact .datetime
  unfold readDatetime? at h
  split at h
  · split at h
    · split at h
      · split at h
        · exact hmap h
        · obtain ⟨_, ⟨⟩⟩ := Option.ite_none_right_eq_some.1 h
          exact .datetime
      · cases h
        exact .datetime
    · cases h
      exact .datetime
  · exact hmap h

theorem distinct_of_readFloat? {cs r : List Char} {v : Value}
    (h : readFloat? cs = some (v, r)) : v.Distinct := by
  unfold readFloat? at h
  dsimp only at h
  split at h
  · cases h
    exact .float _
  · cases h
    exact .float _
  · obtain ⟨_, _, h⟩ := Option.bind_eq_some_iff.1 h
    split at h
    all_goals
      obtain ⟨_, _, h⟩ := Option.bind_eq_some_iff.1 h
      obtain ⟨_, _, h⟩ := Option.bind_eq_some_iff.1 h
      obtain ⟨_, h⟩ := Option.ite_none_left_eq_some.1 h
      obtain ⟨_, ⟨⟩⟩ := Option.ite_none_left_eq_some.1 h
      exact .float _

theorem distinct_of_readInteger? {cs r : List Char} {v : Value}
    (h : readInteger? cs = some (v, r)) : v.Distinct := by
  unfold readInteger? at h
  split at h
  all_goals
    obtain ⟨_, _, h⟩ := Option.bind_eq_some_iff.1 h
    obtain ⟨_, hn, ⟨⟩⟩ := Option.bind_eq_some_iff.1 h
    obtain ⟨_, ⟨⟩⟩ := Option.ite_none_right_eq_some.1 hn
    exact .integer _

theorem distinct_of_readScalar? {cs r : List Char} {v : Value}
    (h : readScalar? cs = some (v, r)) : v.Distinct := by
  unfold readScalar? at h
  split at h
  · obtain ⟨_, _, ⟨⟩⟩ := Option.map_eq_some_iff.1 h
    exact .string _
  · obtain ⟨_, _, ⟨⟩⟩ := Option.map_eq_some_iff.1 h
    exact .string _
  · obtain ⟨_, _, ⟨⟩⟩ := Option.map_eq_some_iff.1 h
    exact .boolean _
  · obtain ⟨_, _, ⟨⟩⟩ := Option.map_eq_some_iff.1 h
    exact .boolean _
  · cases hdate : readDatetime? cs with
    | some _ =>
      rw [hdate] at h
      cases h
      exact distinct_of_readDatetime? hdate
    | none =>
      rw [hdate] at h
      cases hfloat : readFloat? cs with
      | some _ =>
        rw [hfloat] at h
        cases h
        exact distinct_of_readFloat? hfloat
      | none =>
        rw [hfloat] at h
        exact distinct_of_readInteger? h

section

variable {value : List Char → Option (Value × List Char)}

theorem distinct_of_readItems (hvalue : ∀ cs v r, value cs = some (v, r) → v.Distinct)
    {fuel : Nat} {cs r : List Char} {vs : List Value}
    (h : readItems value fuel cs = some (vs, r)) : ∀ v ∈ vs, v.Distinct := by
  induction fuel generalizing cs vs r with
  | zero => cases h
  | succ fuel ih =>
    rw [readItems] at h
    split at h
    · cases h
      exact fun v hv => absurd hv List.not_mem_nil
    · obtain ⟨⟨v, cs⟩, hv, h⟩ := Option.bind_eq_some_iff.1 h
      have hv' : v.Distinct := hvalue _ _ _ hv
      dsimp only at h
      split at h
      · obtain ⟨⟨vs, r⟩, hvs, ⟨⟩⟩ := Option.bind_eq_some_iff.1 h
        exact List.forall_mem_cons.2 ⟨hv', ih hvs⟩
      · cases h
        exact List.forall_mem_singleton.2 hv'
      · cases h

theorem distinct_of_readEntry? (hvalue : ∀ cs v r, value cs = some (v, r) → v.Distinct)
    {cs r : List Char} {e : List String × Value} (h : readEntry? value cs = some (e, r)) :
    e.2.Distinct := by
  obtain ⟨⟨name, cs⟩, _, h⟩ := Option.bind_eq_some_iff.1 h
  dsimp only at h
  split at h
  · obtain ⟨⟨v, r⟩, hv, ⟨⟩⟩ := Option.bind_eq_some_iff.1 h
    exact hvalue _ _ _ hv
  · cases h

theorem distinct_of_readEntries (hvalue : ∀ cs v r, value cs = some (v, r) → v.Distinct)
    {fuel : Nat} {cs r : List Char} {es : List (List String × Value)}
    (h : readEntries value fuel cs = some (es, r)) : ∀ e ∈ es, e.2.Distinct := by
  induction fuel generalizing cs es r with
  | zero => cases h
  | succ fuel ih =>
    obtain ⟨⟨e, cs⟩, he, h⟩ := Option.bind_eq_some_iff.1 h
    have he' : e.2.Distinct := distinct_of_readEntry? hvalue he
    dsimp only at h
    split at h
    · obtain ⟨⟨es, r⟩, hes, ⟨⟩⟩ := Option.bind_eq_some_iff.1 h
      exact List.forall_mem_cons.2 ⟨he', ih hes⟩
    · cases h
      exact List.forall_mem_singleton.2 he'
    · cases h

end

theorem distinct_of_readValue {depth : Nat} {cs r : List Char} {v : Value}
    (h : readValue depth cs = some (v, r)) : v.Distinct := by
  induction depth generalizing cs v r with
  | zero =>
    rw [readValue.eq_def] at h
    dsimp only at h
    split at h
    · cases h
    · cases h
    · exact distinct_of_readScalar? h
  | succ depth ih =>
    have hvalue : ∀ cs v r, readValue depth cs = some (v, r) → v.Distinct := fun _ _ _ => ih
    rw [readValue.eq_def] at h
    dsimp only at h
    split at h
    · obtain ⟨⟨vs, r⟩, hvs, ⟨⟩⟩ := Option.map_eq_some_iff.1 h
      exact .array (distinct_of_readItems hvalue hvs)
    · split at h
      · cases h
        exact .empty _
      · obtain ⟨⟨es, r⟩, hes, h⟩ := Option.bind_eq_some_iff.1 h
        obtain ⟨t, ht, ⟨⟩⟩ := Option.bind_eq_some_iff.1 h
        exact distinct_of_inlineTable? ht (distinct_of_readEntries hvalue hes)
    · exact distinct_of_readScalar? h

/-! ## Statements -/

/-- No table in the value of an entry has two entries of one name. -/
def Statement.Distinct : Statement → Prop
  | .entry _ v => v.Distinct
  | _ => True

theorem distinct_of_readStatement? {cs r : List Char} {s : Statement}
    (h : readStatement? cs = some (s, r)) : s.Distinct := by
  unfold readStatement? at h
  split at h
  · obtain ⟨_, _, h⟩ := Option.bind_eq_some_iff.1 h
    obtain ⟨_, _, h⟩ := Option.bind_eq_some_iff.1 h
    obtain ⟨_, _, ⟨⟩⟩ := Option.bind_eq_some_iff.1 h
    trivial
  · obtain ⟨_, _, h⟩ := Option.bind_eq_some_iff.1 h
    obtain ⟨_, _, h⟩ := Option.bind_eq_some_iff.1 h
    obtain ⟨_, _, ⟨⟩⟩ := Option.bind_eq_some_iff.1 h
    trivial
  · obtain ⟨⟨⟨name, v⟩, r⟩, he, h⟩ := Option.bind_eq_some_iff.1 h
    obtain ⟨_, _, ⟨⟩⟩ := Option.bind_eq_some_iff.1 h
    exact distinct_of_readEntry? (fun _ _ _ => distinct_of_readValue) he

theorem distinct_of_readStatements {fuel : Nat} {cs : List Char} {ss : List Statement}
    (h : readStatements fuel cs = some ss) : ∀ s ∈ ss, s.Distinct := by
  induction fuel generalizing cs ss with
  | zero => cases h
  | succ fuel ih =>
    rw [readStatements] at h
    split at h
    · cases h
      exact fun s hs => absurd hs List.not_mem_nil
    · obtain ⟨_, _, h⟩ := Option.bind_eq_some_iff.1 h
      exact ih h
    · split at h
      · exact ih h
      · obtain ⟨⟨s, r⟩, hs, h⟩ := Option.bind_eq_some_iff.1 h
        obtain ⟨ss, hss, ⟨⟩⟩ := Option.bind_eq_some_iff.1 h
        exact List.forall_mem_cons.2 ⟨distinct_of_readStatement? hs, ih hss⟩

/-! ## Documents -/

/-- Where one table is changed, the others stay as they are. -/
theorem distinct_of_within? {change : Value → Option Value}
    (hchange : ∀ t t', t.Distinct → change t = some t' → t'.Distinct) {name : List String}
    {t t' : Value} (h : within? change name t = some t') (ht : t.Distinct) : t'.Distinct := by
  fun_induction within? change name t generalizing t' with
  | case1 t => exact hchange t t' ht h
  | case2 key rest form entries hkey ih =>
    obtain ⟨inner, hinner, ⟨⟩⟩ := Option.bind_eq_some_iff.1 h
    exact ht.add hkey (ih hinner (.empty _))
  | case3 key rest form entries ts hkey last hlast ih =>
    obtain ⟨last', hlast', ⟨⟩⟩ := Option.bind_eq_some_iff.1 h
    have hts := ht.lookup hkey
    exact ht.replace (hts.dropLast.concat (ih hlast' (hts.last hlast)))
  | case6 key rest form entries inner content hkey hopen ih =>
    obtain ⟨inner', hinner, ⟨⟩⟩ := Option.bind_eq_some_iff.1 h
    exact ht.replace (ih hinner (ht.lookup hkey))
  | case4 | case5 | case7 | case8 => cases h

namespace Assembly

theorem distinct_of_put? {key : String} {inArray : Bool} {t parent parent' : Value}
    (ht : t.Distinct) (hparent : parent.Distinct) (h : put? key inArray t parent = some parent') :
    parent'.Distinct := by
  unfold put? at h
  split at h
  · split at h
    · rename_i hkey
      cases h
      exact hparent.add hkey (.tables (List.forall_mem_singleton.2 ht))
    · rename_i hkey
      cases h
      exact hparent.replace ((hparent.lookup hkey).concat ht)
    · rename_i hkey
      cases h
      exact hparent.add hkey ht
    · obtain ⟨_, ⟨⟩⟩ := Option.ite_none_right_eq_some.1 h
      exact hparent.replace ht
    · cases h
  · cases h

theorem distinct_of_open? {key : String} {t current parent : Value}
    (h : open? key t = some (current, parent)) (ht : t.Distinct) :
    current.Distinct ∧ parent.Distinct := by
  unfold open? at h
  split at h
  · split at h
    · cases h
      exact ⟨.empty _, ht⟩
    · rename_i hkey
      obtain ⟨_, ⟨⟩⟩ := Option.ite_none_right_eq_some.1 h
      exact ⟨(ht.lookup hkey).reform _, ht.remove⟩
    · cases h
  · cases h

theorem distinct_of_find? {name : List String} {t t' : Value} (h : find? name t = some t')
    (ht : t.Distinct) : t'.Distinct := by
  induction name generalizing t with
  | nil =>
    cases h
    exact ht
  | cons key rest ih =>
    cases t with
    | table form entries =>
      rw [find?] at h
      split at h
      · rename_i hkey
        obtain ⟨last, hlast, h⟩ := Option.bind_eq_some_iff.1 h
        exact ih h ((ht.lookup hkey).last hlast)
      · rename_i hkey
        exact ih h (ht.lookup hkey)
      · cases h
    | _ => cases h

/-- Neither part of the document has two entries of one name in a table. -/
structure Distinct (a : Assembly) : Prop where
  root : a.root.Distinct
  current : a.current.Distinct

theorem Distinct.finish? {a : Assembly} {t : Value} (ha : a.Distinct) (h : a.finish? = some t) :
    t.Distinct := by
  unfold Assembly.finish? at h
  split at h
  · cases h
    exact ha.current
  · split at h
    · exact distinct_of_within? (fun _ _ => distinct_of_put? ha.current) h ha.root
    · cases h

theorem Distinct.step? {a b : Assembly} {s : Statement} (ha : a.Distinct) (hs : s.Distinct)
    (h : a.step? s = some b) : b.Distinct := by
  have hstay : ∀ {name : List String} {root t : Value}, within? some name root = some t →
      root.Distinct → t.Distinct := distinct_of_within? fun _ _ ht h => Option.some.inj h ▸ ht
  cases s with
  | entry name v =>
    obtain ⟨current, hcurrent, ⟨⟩⟩ := Option.bind_eq_some_iff.1 h
    exact ⟨ha.root, distinct_of_insertEntry? hcurrent hs ha.current⟩
  | header name =>
    obtain ⟨root, hroot, h⟩ := Option.bind_eq_some_iff.1 h
    obtain ⟨key, _, h⟩ := Option.bind_eq_some_iff.1 h
    obtain ⟨root', hroot', h⟩ := Option.bind_eq_some_iff.1 h
    obtain ⟨t, ht, h⟩ := Option.bind_eq_some_iff.1 h
    obtain ⟨⟨current, parent⟩, hopen, h⟩ := Option.bind_eq_some_iff.1 h
    obtain ⟨root'', hroot'', ⟨⟩⟩ := Option.bind_eq_some_iff.1 h
    have hdistinct : root'.Distinct := hstay hroot' (ha.finish? hroot)
    obtain ⟨hcurrent, hparent⟩ := distinct_of_open? hopen (distinct_of_find? ht hdistinct)
    refine ⟨distinct_of_within? ?_ hroot'' hdistinct, hcurrent⟩
    rintro _ _ - ⟨⟩
    exact hparent
  | arrayHeader name =>
    obtain ⟨root, hroot, h⟩ := Option.bind_eq_some_iff.1 h
    obtain ⟨key, _, h⟩ := Option.bind_eq_some_iff.1 h
    obtain ⟨root', hroot', h⟩ := Option.bind_eq_some_iff.1 h
    obtain ⟨t, _, h⟩ := Option.bind_eq_some_iff.1 h
    obtain ⟨_, ⟨⟩⟩ := Option.ite_none_right_eq_some.1 h
    exact ⟨hstay hroot' (ha.finish? hroot), .empty _⟩

end Assembly

/-- No table of a document has two entries of one name. -/
theorem distinct_of_parse? {text : String} {v : Value} (h : parse? text = some v) :
    v.Distinct := by
  obtain ⟨ss, hss, h⟩ := Option.bind_eq_some_iff.1 h
  obtain ⟨a, ha, h⟩ := Option.bind_eq_some_iff.1 h
  have hempty : Assembly.Distinct {} := ⟨.empty _, .empty _⟩
  have hss' : ∀ s ∈ ss, s.Distinct := distinct_of_readStatements hss
  have ha' : a.Distinct := foldlM_preserves ha hempty fun s hs _ _ hb hstep =>
    hb.step? (hss' s hs) hstep
  exact ha'.finish? h

end ColorMarks.Toml
