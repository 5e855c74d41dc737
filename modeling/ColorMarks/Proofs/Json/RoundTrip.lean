import ColorMarks.Proofs.Json.Scalar

/-!
# Reading back printed values

A value without doubles whose integers fit 64 bits and whose containers are not nested too deeply is
read back from its text. Its members come back in ascending order, so a canonical value comes back
unchanged.
-/

namespace ColorMarks.Json

mutual

/-- How many containers contain each other. -/
def depth : Json → Nat
  | array items => depthItems items + 1
  | object members => depthMembers members + 1
  | _ => 0

/-- The depth of the deepest item. -/
def depthItems : List Json → Nat
  | [] => 0
  | v :: r => max v.depth (depthItems r)

/-- The depth of the deepest member. -/
def depthMembers : List (String × Json) → Nat
  | [] => 0
  | (_, v) :: r => max v.depth (depthMembers r)

end

mutual

/-- No doubles, and all integers between `-2 ^ 63` and `2 ^ 64 - 1`. -/
def IsPlain : Json → Prop
  | integer n => -(twoTo 63 : Int) ≤ n ∧ n < twoTo 64
  | double _ => False
  | array items => PlainItems items
  | object members => PlainMembers members
  | _ => True

/-- Every item is plain. -/
def PlainItems : List Json → Prop
  | [] => True
  | v :: r => v.IsPlain ∧ PlainItems r

/-- Every member is plain. -/
def PlainMembers : List (String × Json) → Prop
  | [] => True
  | (_, v) :: r => v.IsPlain ∧ PlainMembers r

end

theorem plainItems_iff {items : List Json} : PlainItems items ↔ ∀ v ∈ items, v.IsPlain := by
  induction items with
  | nil => simp [PlainItems]
  | cons v items ih => simp [PlainItems, ih]

theorem plainMembers_iff {members : List (String × Json)} :
    PlainMembers members ↔ ∀ m ∈ members, m.2.IsPlain := by
  induction members with
  | nil => simp [PlainMembers]
  | cons m members ih => simp [PlainMembers, ih]

theorem depthItems_le_iff {items : List Json} {n : Nat} :
    depthItems items ≤ n ↔ ∀ v ∈ items, v.depth ≤ n := by
  induction items with
  | nil => simp [depthItems]
  | cons v items ih =>
    rw [depthItems, Nat.max_le, ih]
    simp

theorem depthMembers_le_iff {members : List (String × Json)} {n : Nat} :
    depthMembers members ≤ n ↔ ∀ m ∈ members, m.2.depth ≤ n := by
  induction members with
  | nil => simp [depthMembers]
  | cons m members ih =>
    rw [depthMembers, Nat.max_le, ih]
    simp

/-! ## How a printed value begins -/

/-- A character that a value can begin with: no gap, and no closing character. -/
def Starts (c : Char) : Prop := isGap c = false ∧ c ≠ ']' ∧ c ≠ '\x7d'

theorem starts_of_isDigit {c : Char} (h : c.isDigit = true) : Starts c := by
  refine ⟨?_, ?_, ?_⟩
  · cases hgap : isGap c with
    | false => rfl
    | true =>
      simp only [isGap, Bool.or_eq_true, beq_iff_eq] at hgap
      rcases hgap with ((rfl | rfl) | rfl) | rfl <;> exact absurd h (by decide)
  all_goals
    rintro rfl
    exact absurd h (by decide)

/-- An integer begins with a minus sign or a digit. -/
theorem printInt_eq_cons (n : Int) :
    ∃ c cs, printInt n = c :: cs ∧ (c = '-' ∨ c.isDigit = true) := by
  by_cases hn : n < 0
  · exact ⟨'-', Decimal.digitsOf n.natAbs, by rw [printInt, if_pos hn], .inl rfl⟩
  · cases hds : Decimal.digitsOf n.natAbs with
    | nil => exact absurd hds (Text.digitsOf_ne_nil _)
    | cons c cs =>
      refine ⟨c, cs, by rw [printInt, if_neg hn, hds], .inr ?_⟩
      exact Text.isDigit_of_mem_digitsOf (by rw [hds]; exact List.mem_cons_self)

/-- Every plain value begins with a character that can begin one. -/
theorem print_eq_cons {v : Json} (h : v.IsPlain) : ∃ c cs, print v = c :: cs ∧ Starts c := by
  cases v with
  | null => exact ⟨'n', _, rfl, by simp [Starts, isGap]⟩
  | bool b =>
    cases b with
    | true => exact ⟨'t', _, rfl, by simp [Starts, isGap]⟩
    | false => exact ⟨'f', _, rfl, by simp [Starts, isGap]⟩
  | integer n =>
    obtain ⟨c, cs, hprint, hc⟩ := printInt_eq_cons n
    refine ⟨c, cs, hprint, ?_⟩
    rcases hc with rfl | hc
    · simp [Starts, isGap]
    · exact starts_of_isDigit hc
  | double d => exact h.elim
  | string s => exact ⟨'"', _, rfl, by simp [Starts, isGap]⟩
  | array items => cases items <;> exact ⟨'[', _, rfl, by simp [Starts, isGap]⟩
  | object members => cases members <;> exact ⟨'\x7b', _, rfl, by simp [Starts, isGap]⟩

theorem skipGap_cons {c : Char} (h : isGap c = false) (cs : List Char) :
    skipGap (c :: cs) = c :: cs := by
  simp [skipGap, h]

theorem skipGap_print {v : Json} (h : v.IsPlain) (rest : List Char) :
    skipGap (print v ++ rest) = print v ++ rest := by
  obtain ⟨c, cs, hprint, hc⟩ := print_eq_cons h
  rw [hprint, List.cons_append, skipGap_cons hc.1]

/-! ## Scalars -/

/-- What begins no container is a scalar at every depth. -/
theorem readValue_of_scalar (d : Nat) {c : Char} (cs : List Char) (harray : c ≠ '[')
    (hobject : c ≠ '\x7b') : readValue d (c :: cs) = readScalar? (c :: cs) := by
  cases d with
  | zero =>
    unfold readValue
    split <;> simp_all
  | succ d =>
    unfold readValue
    split <;> simp_all

theorem readScalar?_printInt {n : Int} (hlow : -(twoTo 63 : Int) ≤ n) (hhigh : n < twoTo 64)
    {rest : List Char} (h : Ends rest) :
    readScalar? (printInt n ++ rest) = some (integer n, rest) := by
  have hbegin {d : Char} {r : List Char} (hd : d.isDigit = false) (hminus : d ≠ '-') :
      printInt n ++ rest ≠ d :: r := by
    obtain ⟨c, cs, hprint, hc⟩ := printInt_eq_cons n
    intro hr
    rw [hprint] at hr
    obtain rfl : c = d := (List.cons.inj hr).1
    rcases hc with rfl | hc
    · exact hminus rfl
    · rw [hd] at hc
      cases hc
  unfold readScalar?
  split
  · exact absurd ‹_› (hbegin (by decide) (by decide))
  · exact absurd ‹_› (hbegin (by decide) (by decide))
  · exact absurd ‹_› (hbegin (by decide) (by decide))
  · exact absurd ‹_› (hbegin (by decide) (by decide))
  · simp [Numeral.read?_printInt n h, Numeral.toJson?_integer hlow hhigh]

/-! ## Containers -/

/-- Items that are read one by one are read as a list up to the closing character. -/
theorem readItems_print {α : Type} {closing : Char} (hclosing : closing = ']' ∨ closing = '\x7d')
    {item : List Char → Option (α × List Char)} {print : α → List Char}
    (as : List α) (a : α) (rest : List Char) {fuel : Nat} (hfuel : as.length < fuel)
    (hitem : ∀ b ∈ a :: as, ∀ rest, Ends rest →
      item (skipGap (print b ++ rest)) = some (b, rest)) :
    readItems closing item fuel
        (print a ++ (as.flatMap (fun b => ',' :: print b) ++ closing :: rest)) =
      some (a :: as, rest) := by
  induction as generalizing a fuel with
  | nil =>
    obtain ⟨fuel, rfl⟩ : ∃ n, fuel = n + 1 := ⟨fuel - 1, by omega⟩
    have hends : Ends (closing :: rest) := ends_cons rest (by rcases hclosing with h | h <;> simp [h])
    have hskip : skipGap (closing :: rest) = closing :: rest :=
      skipGap_cons (by rcases hclosing with rfl | rfl <;> rfl) rest
    have hcomma : closing ≠ ',' := by rcases hclosing with rfl | rfl <;> decide
    simp [readItems, hitem a List.mem_cons_self _ hends, hskip, hcomma]
  | cons b as ih =>
    obtain ⟨fuel, rfl⟩ : ∃ n, fuel = n + 1 := ⟨fuel - 1, by omega⟩
    have hlength : as.length < fuel := by simpa using hfuel
    have hrest := ih b hlength fun b hb => hitem b (List.mem_cons_of_mem a hb)
    have hfirst := hitem a List.mem_cons_self
      (',' :: (print b ++ (as.flatMap (fun b => ',' :: print b) ++ closing :: rest)))
      (ends_cons _ (.inl rfl))
    simp [readItems, hfirst, skipGap_cons (c := ',') rfl, hrest]

/-- A text of separated items is no shorter than there are items. -/
theorem length_le_length_separated {α : Type} (print : α → List Char) (as : List α) :
    as.length ≤ (as.flatMap fun b => ',' :: print b).length := by
  induction as with
  | nil => exact Nat.le_refl 0
  | cons b as ih =>
    simp only [List.length_cons, List.flatMap_cons, List.length_append]
    omega

/-- The text of a list is read as the list. -/
theorem readList_print {α : Type} {closing : Char} (hclosing : closing = ']' ∨ closing = '\x7d')
    {item : List Char → Option (α × List Char)} {print : α → List Char}
    (as : List α) (a : α) (rest : List Char)
    (hstart : ∃ c cs, print a = c :: cs ∧ Starts c)
    (hitem : ∀ b ∈ a :: as, ∀ rest, Ends rest →
      item (skipGap (print b ++ rest)) = some (b, rest)) :
    readList closing item (print a ++ (as.flatMap (fun b => ',' :: print b) ++ closing :: rest)) =
      some (a :: as, rest) := by
  obtain ⟨c, cs, hprint, hgap, hsquare, hcurly⟩ := hstart
  have hfuel : as.length < (print a ++ (as.flatMap (fun b => ',' :: print b) ++
      closing :: rest)).length + 1 := by
    have hlength := length_le_length_separated print as
    simp only [List.length_append, List.length_cons]
    omega
  have hread := readItems_print hclosing as a rest hfuel hitem
  have hne : c ≠ closing := by rcases hclosing with rfl | rfl <;> assumption
  rw [hprint, List.cons_append] at hread ⊢
  unfold readList
  rw [skipGap_cons hgap]
  simp only [if_neg hne]
  exact hread

theorem printItems_eq (items : List Json) :
    printItems items = items.flatMap (fun v => ',' :: print v) ++ [']'] := by
  induction items with
  | nil => rfl
  | cons v items ih => simp [printItems, ih]

/-- The text of a member. -/
def printMember (m : String × Json) : List Char := printString m.1 ++ ':' :: print m.2

theorem printMembers_eq (members : List (String × Json)) :
    printMembers members = members.flatMap (fun m => ',' :: printMember m) ++ ['\x7d'] := by
  induction members with
  | nil => rfl
  | cons m members ih => simp [printMembers, printMember, ih]

theorem readMember_printMember {value : List Char → Option (Json × List Char)}
    {m : String × Json} (hm : m.2.IsPlain) {rest : List Char}
    (hvalue : value (print m.2 ++ rest) = some (m.2, rest)) :
    readMember value (skipGap (printMember m ++ rest)) = some (m, rest) := by
  obtain ⟨cs, hcs, hread⟩ := readString_printString m.1 (':' :: (print m.2 ++ rest))
  have htext : printMember m ++ rest = '"' :: cs := by rw [← hcs]; simp [printMember]
  rw [htext, skipGap_cons rfl]
  simp [readMember, hread, skipGap_cons (c := ':') rfl, skipGap_print hm, hvalue]

/-- An array is read back if its items are. -/
theorem readValue_array {d : Nat} {items : List Json} (hplain : ∀ v ∈ items, v.IsPlain)
    (hitem : ∀ v ∈ items, ∀ rest, Ends rest → readValue d (print v ++ rest) = some (v, rest))
    (rest : List Char) : readValue (d + 1) (print (.array items) ++ rest) = some (.array items, rest) := by
  cases items with
  | nil => simp [print, readValue, readList, skipGap, isGap]
  | cons w items =>
    have hskipped : ∀ v ∈ w :: items, ∀ rest, Ends rest →
        readValue d (skipGap (print v ++ rest)) = some (v, rest) := by
      intro v hv rest hrest
      rw [skipGap_print (hplain v hv)]
      exact hitem v hv rest hrest
    have hlist := readList_print (.inl rfl) items w rest
      (print_eq_cons (hplain w List.mem_cons_self)) hskipped
    simp [print, printItems_eq, readValue, hlist]

/-- An object is read back if the values of its members are. -/
theorem readValue_object {d : Nat} {members : List (String × Json)}
    (hplain : ∀ m ∈ members, m.2.IsPlain)
    (hitem : ∀ m ∈ members, ∀ rest, Ends rest → readValue d (print m.2 ++ rest) = some (m.2, rest))
    (rest : List Char) :
    readValue (d + 1) (print (.object members) ++ rest) = some (.object members, rest) := by
  cases members with
  | nil => simp [print, readValue, readList, skipGap, isGap]
  | cons m members =>
    have hmember : ∀ u ∈ m :: members, ∀ rest, Ends rest →
        readMember (readValue d) (skipGap (printMember u ++ rest)) = some (u, rest) :=
      fun u hu rest hrest => readMember_printMember (hplain u hu) (hitem u hu rest hrest)
    have hlist := readList_print (.inr rfl) members m rest
      ⟨'"', _, rfl, by simp [Starts, isGap]⟩ hmember
    obtain ⟨n, w⟩ := m
    simpa [print, printMembers_eq, printMember, readValue] using hlist

/-- A plain value is read back from its text, whatever delimiter comes after it. -/
theorem readValue_print (v : Json) (hv : v.IsPlain) {d : Nat} (hd : v.depth ≤ d)
    {rest : List Char} (hrest : Ends rest) : readValue d (print v ++ rest) = some (v, rest) := by
  match v, d with
  | null, d => exact readValue_of_scalar d _ (by decide) (by decide)
  | bool true, d => exact readValue_of_scalar d _ (by decide) (by decide)
  | bool false, d => exact readValue_of_scalar d _ (by decide) (by decide)
  | integer n, d =>
    obtain ⟨hlow, hhigh⟩ := hv
    obtain ⟨c, cs, hprint, hc⟩ := printInt_eq_cons n
    have hscalar := readScalar?_printInt hlow hhigh hrest
    show readValue d (printInt n ++ rest) = _
    rw [hprint, List.cons_append] at hscalar ⊢
    rw [readValue_of_scalar d, hscalar]
    all_goals
      rintro rfl
      rcases hc with hc | hc <;> exact absurd hc (by decide)
  | double _, _ => exact hv.elim
  | string s, d =>
    obtain ⟨cs, hcs, hread⟩ := readString_printString s rest
    show readValue d (printString s ++ rest) = _
    rw [hcs, readValue_of_scalar d _ (by decide) (by decide)]
    simp [readScalar?, hread]
  | array _, 0 => exact absurd hd (Nat.not_succ_le_zero _)
  | array items, d + 1 =>
    have hplain := plainItems_iff.1 hv
    have hdepth := depthItems_le_iff.1 (Nat.le_of_succ_le_succ hd)
    refine readValue_array hplain (fun u hu rest hrest => ?_) rest
    have hsize := List.sizeOf_lt_of_mem hu
    exact readValue_print u (hplain u hu) (hdepth u hu) hrest
  | object _, 0 => exact absurd hd (Nat.not_succ_le_zero _)
  | object members, d + 1 =>
    have hplain := plainMembers_iff.1 hv
    have hdepth := depthMembers_le_iff.1 (Nat.le_of_succ_le_succ hd)
    refine readValue_object hplain (fun u hu rest hrest => ?_) rest
    have hsize : sizeOf u.2 < sizeOf members := by
      have hmember := List.sizeOf_lt_of_mem hu
      obtain ⟨n, w⟩ := u
      rw [Prod.mk.sizeOf_spec] at hmember
      show sizeOf w < _
      omega
    exact readValue_print u.2 (hplain u hu) (hdepth u hu) hrest
termination_by v
decreasing_by
  · rw [array.sizeOf_spec]
    omega
  · rw [object.sizeOf_spec]
    omega

/-- A whole text is read as the value that it was printed for. -/
theorem read?_text {v : Json} (hv : v.IsPlain) (hd : v.depth ≤ maxDepth) :
    read? v.text = some v := by
  have hskip : skipGap (print v) = print v := by simpa using skipGap_print hv []
  have hread : readValue maxDepth (print v) = some (v, []) := by
    simpa using readValue_print v hv hd ends_nil
  rw [read?, text, String.toList_ofList, readWithin?, hskip, hread]
  rfl

/-- The members of the objects come back in order. -/
theorem parse?_text {v : Json} (hv : v.IsPlain) (hd : v.depth ≤ maxDepth) :
    parse? v.text = some v.canonical := by
  rw [parse?, read?_text hv hd, Option.map_some]

/-- A value that comes back from its text unchanged. -/
structure IsLossless (v : Json) : Prop where
  plain : v.IsPlain
  shallow : v.depth ≤ maxDepth
  canonical : v.canonical = v

theorem IsLossless.parse?_text {v : Json} (h : v.IsLossless) : parse? v.text = some v := by
  rw [Json.parse?_text h.plain h.shallow, h.canonical]

/-! ## No text is empty -/

/-- A finite double is written with a point or an exponent. -/
theorem jsonText_ne_nil {d : Double} (h : d.isFinite = true) : Decimal.jsonText d ≠ [] := by
  have hfield : d.exponentField ≠ 2047 := by simpa [Double.isFinite] using h
  obtain ⟨s, hs⟩ : ∃ s, Decimal.shortest? d = some s := by
    unfold Decimal.shortest? Double.parts?
    rw [if_neg hfield]
    split <;> exact ⟨_, rfl⟩
  rw [Decimal.jsonText, hs]
  refine List.append_ne_nil_of_right_ne_nil _ ?_
  dsimp only
  split
  · simp
  · split
    · unfold Decimal.positional
      dsimp only
      split
      · simp
      · split <;> simp
    · simp [Decimal.scientific]

theorem print_ne_nil (v : Json) : print v ≠ [] := by
  cases v with
  | null => simp [print, printScalar]
  | bool b => cases b <;> simp [print, printScalar]
  | integer n =>
    obtain ⟨c, cs, hprint, -⟩ := printInt_eq_cons n
    simp [print, printScalar, hprint]
  | double d =>
    by_cases h : d.isFinite = true
    · simp [print, printScalar, h, jsonText_ne_nil]
    · simp [print, printScalar, h]
  | string s => simp [print, printScalar, printString]
  | array items => cases items <;> simp [print]
  | object members => cases members <;> simp [print]

theorem text_ne_empty (v : Json) : v.text ≠ "" := by
  intro h
  rw [text, String.ofList_eq_empty_iff] at h
  exact print_ne_nil v h

end ColorMarks.Json
