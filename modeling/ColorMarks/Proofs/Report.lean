import ColorMarks.Proofs.Commands
import ColorMarks.Proofs.Highlight.Painting
import ColorMarks.Proofs.Highlight.Requests
import ColorMarks.Proofs.Notices
import ColorMarks.Report

/-!
# What a report shows

A report finds the highlights by looking up each style of the window among what is visible in the editor. In
a window in which nothing was painted before, switching on a new session gives out one style for each key and
paints all of its locations, so none is missing from the report and none is added.
-/

namespace ColorMarks

open Grouping (coloredBy keysOf marks requests)

namespace Session

/-- What a new session paints in a window without styles that is focused on a new editor. -/
theorem toggleIn_new_blank (policy : Policy) (snapshot : Snapshot) {w : Window} {uri : String}
    (hstyles : w.styles = []) (hlast : w.lastStyle = 0) (heditor : w.editor = some (Editor.new uri)) :
    let keys := keysOf (marks policy snapshot)
    ∃ calls, ((new policy).toggleIn snapshot w).2.2 = { w with
      editor := some ⟨uri, calls, keys.mapIdx fun i key => (i + 1, coloredBy snapshot.related key)⟩
      styles := stylesFrom 0 keys
      lastStyle := keys.length
      notices := w.notices ++ [addedNotice] } := by
  intro keys
  have hgathers := Grouping.gathers_marks policy snapshot
  have hdirectives : (Grouping.ofSnapshot policy snapshot).toList.map Prod.fst =
      keys.map Directive.ofKey := by
    rw [hgathers.toList_eq, List.map_map]
    rfl
  obtain ⟨cache, hallocate, hcached, -⟩ := allocate_spec hgathers.nodup .empty w fun key _ => rfl
  rw [← hdirectives] at hallocate
  have hstyled : (w.styled keys).editor = some (Editor.new uri) := heditor
  obtain ⟨calls, hpaint⟩ := paintGroups_spec hcached (fun _ => hgathers.locationsOf_ne_nil)
    hstyled (by simp [Editor.new]) keys.zipIdx
  rw [← hgathers.groups, ← hgathers.index] at hpaint
  have htoggle := toggleIn_new_window (by rw [heditor]; rfl) (by rw [hstyled]; rfl) hallocate
  rw [hpaint] at htoggle
  have hvisible : (keys.mapIdx fun i key => (i + 1, Grouping.locationsOf (marks policy snapshot) key)) =
      keys.mapIdx fun i key => (i + 1, coloredBy snapshot.related key) := by
    rw [List.mapIdx_eq_mapIdx_iff]
    intro i hi
    rw [hgathers.locationsOf_marks (List.getElem_mem hi)]
  refine ⟨calls, ?_⟩
  rw [htoggle, ← hvisible]
  simp only [Window.notify, Window.styled, Editor.new, hstyles, hlast, List.nil_append, Nat.zero_add]
  rfl

end Session

/-- Looking up the number of a style among numbers that are given out in order. -/
theorem lookup_mapIdx {κ α : Type} (f : κ → α) (keys : List κ) (n i : Nat) :
    (keys.mapIdx fun j key => (n + j + 1, f key)).lookup (n + i + 1) = keys[i]?.map f := by
  induction keys generalizing n i with
  | nil => rfl
  | cons key keys ih =>
    rw [List.mapIdx_cons]
    cases i with
    | zero => simp
    | succ i =>
      have hne : (n + (i + 1) + 1 == n + 0 + 1) = false := by
        rw [beq_eq_false_iff_ne]
        omega
      have hrest := ih (n + 1) i
      rw [List.lookup_cons, hne, List.getElem?_cons_succ, ← hrest]
      simp only [Nat.add_assoc, Nat.add_comm 1]

namespace Report

/-- The highlights of the color keys that some related places ask for: one for each key, in the order in
which the keys come first, numbered from one. -/
def highlightsOf (policy : Policy) (related : List Related) : List Highlight :=
  ((requests policy related).map Prod.fst).eraseDups.mapIdx fun i key =>
    ⟨i + 1, (Directive.ofKey key).fill.css, coloredBy related key⟩

/-- In a window in which every style is visible, no style is left out of the report. -/
theorem highlights_eq {w : Window} {e : Editor} (he : w.editor = some e) {keys : List String}
    {locations : String → List Location} (hstyles : w.styles = stylesFrom 0 keys)
    (hvisible : e.visible = keys.mapIdx fun i key => (i + 1, locations key)) :
    w.styles.filterMap (highlight? w) =
      keys.mapIdx fun i key => ⟨i + 1, (Directive.ofKey key).fill.css, locations key⟩ := by
  have hshown : ∀ x ∈ keys.zipIdx,
      highlight? w ⟨0 + x.2 + 1, ⟨(Directive.ofKey x.1).fill⟩⟩ =
        some ⟨x.2 + 1, (Directive.ofKey x.1).fill.css, locations x.1⟩ := by
    rintro ⟨key, i⟩ hx
    have hkey : keys[i]? = some key := List.mem_zipIdx_iff_getElem?.1 hx
    have hlookup := lookup_mapIdx locations keys 0 i
    simp only [Nat.zero_add, hkey, Option.map_some] at hlookup
    simp only [highlight?, he, hvisible, Nat.zero_add, Option.bind_eq_bind, Option.bind_some, hlookup]
    rfl
  rw [hstyles, stylesFrom, List.mapIdx_eq_zipIdx_map, List.mapIdx_eq_zipIdx_map, List.filterMap_map]
  exact List.filterMap_eq_map_iff_forall_eq_some.2 hshown

/-- The report on a new session: exactly the colors that the snapshot asks for, and the notices with one
more. -/
theorem ofWindow_toggleIn_new (policy : Policy) (snapshot : Snapshot) {w : Window} {uri : String}
    (hstyles : w.styles = []) (hlast : w.lastStyle = 0) (heditor : w.editor = some (Editor.new uri))
    (e : Extension) (editor : String) (documents : List String) :
    ofWindow e ((Session.new policy).toggleIn snapshot w).2.2 editor documents =
      { editor
        documents := documents.map fun uri => (uri, ((e.client.store.get? uri).getD []).length)
        highlights := highlightsOf policy snapshot.related
        notices := w.notices ++ [Session.addedNotice] } := by
  obtain ⟨calls, htoggle⟩ := Session.toggleIn_new_blank policy snapshot hstyles hlast heditor
  rw [htoggle, ofWindow, highlights_eq rfl rfl rfl, highlightsOf, Grouping.keysOf_marks]

end Report

/-- Showing messages adds their texts to the notices and changes nothing else. -/
theorem Extension.showMessages_eq (w : Window) (events : List Event) :
    showMessages w events = { w with notices := w.notices ++ events.filterMap Event.shown? } := by
  unfold showMessages
  induction events generalizing w with
  | nil => simp
  | cons event events ih =>
    rw [List.foldl_cons, ih]
    cases event <;> simp [Event.shown?, Window.notify, List.filterMap_cons]

namespace Report

/-- The report of an extension whose toggle was never run: on what its client knows after the poll, with the
messages that the poll reports among the notices. -/
theorem make_spec {e : Extension} {policy : Policy}
    (hcommands : e.commands = ⟨[(ToggleCommand.name, ToggleCommand.new policy)]⟩) (editor : String)
    (documents : List String) :
    ∃ e', e'.client = e.client.act .poll ∧
      make editor documents e = (e', .ok
        { editor
          documents := documents.map fun uri => (uri, ((e'.client.store.get? uri).getD []).length)
          highlights := highlightsOf policy e'.client.store.snapshot.related
          notices := (e.client.report .poll).filterMap Event.shown? ++ [Session.addedNotice] }) := by
  let polled : Extension := { e with client := e.client.poll.1 }
  let w : Window := { Window.withEditor (some editor) with
    notices := e.client.poll.2.filterMap Event.shown? }
  let toggle := ToggleCommand.new policy
  let e' : Extension := { polled with
    commands := e.commands.set ToggleCommand.name (toggle.run polled.client.store.snapshot w).1 }
  have hpoll : e.poll (Window.withEditor (some editor)) = (polled, w, e.client.poll.2) := by
    show (polled, Extension.showMessages _ e.client.poll.2, e.client.poll.2) = _
    rw [Extension.showMessages_eq]
    rfl
  have hget : polled.commands.get? ToggleCommand.name = some toggle := by
    rw [show polled.commands = e.commands from rfl, hcommands]
    exact List.lookup_cons_self
  have hexecute : polled.execute ToggleCommand.name w =
      .ok (e', ((Session.new policy).toggleIn polled.client.store.snapshot w).2.2) := by
    rw [Extension.execute, Registry.execute_of_get? hget]
    rfl
  refine ⟨e', rfl, ?_⟩
  simp only [make, hpoll, hexecute]
  rw [ofWindow_toggleIn_new policy polled.client.store.snapshot rfl rfl rfl]
  rfl

end Report

end ColorMarks
