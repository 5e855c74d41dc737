import ColorMarks.Extension
import ColorMarks.Proofs.Client.Delivery
import ColorMarks.Proofs.Client.Events
import ColorMarks.Proofs.Highlight.Allocation
import ColorMarks.Proofs.Highlight.Run

/-!
# What a user is told

The polls of an extension show the messages for the user among the events of its client, each once and in
the order in which they were taken, wherever they were noticed: in a handshake, by a poll or by a wait.
-/

namespace ColorMarks

open Client (Action)

/-- The text that is shown for an event. -/
def Event.shown? : Event → Option String
  | showMessage m => some m.text
  | _ => none

namespace Extension

/-- Something that is done with an extension, its client or its window. -/
inductive Step where
  | client (a : Action)
  | poll
  | execute (id : String)
  | move (m : Window.Move)

/-- Extension and window after a step; a command that fails changes nothing. -/
def act : Extension × Window → Step → Extension × Window
  | (e, w), .client a => ({ e with client := e.client.act a }, w)
  | (e, w), .poll => ((e.poll w).1, (e.poll w).2.1)
  | (e, w), .execute id =>
    match e.execute id w with
    | .ok x => x
    | .error _ => (e, w)
  | (e, w), .move m => (e, w.move m)

/-- Extension and window after some steps. -/
def run (x : Extension × Window) (steps : List Step) : Extension × Window := steps.foldl act x

/-- The notices that a poll adds to a window. -/
def shownBy (x : Extension × Window) : Step → List String
  | .poll => (act x .poll).2.notices.drop x.2.notices.length
  | _ => []

/-- The notices that the polls of a run add, in order. -/
def shown (x : Extension × Window) : List Step → List String
  | [] => []
  | a :: steps => shownBy x a ++ shown (act x a) steps

/-- What a step does with the client. -/
def Step.action? : Step → Option Action
  | client a => some a
  | poll => some .poll
  | _ => none

theorem notices_showMessages (w : Window) (events : List Event) :
    (showMessages w events).notices = w.notices ++ events.filterMap Event.shown? := by
  unfold showMessages
  induction events generalizing w with
  | nil => simp
  | cons event events ih =>
    rw [List.foldl_cons, ih]
    cases event <;> simp [Event.shown?, Window.notify, List.filterMap_cons]

/-- A command leaves the client as it is. -/
theorem client_execute (e : Extension) (id : String) (w : Window) :
    (act (e, w) (.execute id)).1.client = e.client := by
  simp only [act, execute]
  cases e.commands.execute id e.client.store.snapshot w <;> rfl

theorem client_act (x : Extension × Window) (a : Step) :
    (act x a).1.client = a.action?.toList.foldl Client.act x.1.client := by
  cases a with
  | execute id => exact client_execute x.1 id x.2
  | _ => rfl

/-- The client of an extension goes through a run of its own. -/
theorem client_run (x : Extension × Window) (steps : List Step) :
    (run x steps).1.client = x.1.client.run (steps.filterMap Step.action?) := by
  induction steps generalizing x with
  | nil => rfl
  | cons a steps ih =>
    have hstep : run x (a :: steps) = run (act x a) steps := rfl
    rw [hstep, ih, client_act]
    cases a <;> rfl

/-- A poll shows the messages among the events that the client reports. -/
theorem shownBy_poll (x : Extension × Window) :
    shownBy x .poll = (x.1.client.report .poll).filterMap Event.shown? := by
  show (showMessages x.2 x.1.client.poll.2).notices.drop x.2.notices.length = _
  rw [notices_showMessages, List.drop_left]
  rfl

/-- If nobody else polls the client, the messages among all reported events are shown. -/
theorem shown_eq_reports (x : Extension × Window) {steps : List Step}
    (hpoll : Step.client .poll ∉ steps) :
    shown x steps =
      (x.1.client.reports (steps.filterMap Step.action?)).filterMap Event.shown? := by
  induction steps generalizing x with
  | nil => rfl
  | cons a steps ih =>
    have hrest := ih (act x a) fun hmem => hpoll (List.mem_cons_of_mem a hmem)
    rw [shown, hrest, client_act]
    cases a with
    | client a =>
      have ha : a ≠ .poll := by
        rintro rfl
        exact hpoll List.mem_cons_self
      have hreport := Client.report_of_ne_poll (c := x.1.client) ha
      simp [Step.action?, Client.reports, shownBy, hreport]
    | poll => simp [Step.action?, Client.reports, shownBy_poll]
    | execute id => rfl
    | move m => rfl

end Extension

/-! ## Notices stay -/

namespace Session

/-- A toggle adds a notice at most. -/
theorem notices_prefix_toggleIn (s : Session) (snapshot : Snapshot) (w : Window) :
    w.notices <+: (s.toggleIn snapshot w).2.2.notices := by
  have hflip := toggle_flip s w snapshot none
  show w.notices <+: (s.toggle snapshot ⟨w, none⟩).2.2.window.notices
  generalize (s.toggle snapshot ⟨w, none⟩).2.1 = s' at hflip
  generalize (s.toggle snapshot ⟨w, none⟩).2.2.window = w' at hflip
  cases hflip with
  | missed => exact List.prefix_rfl
  | styled _ hstyles =>
    obtain ⟨styles, last, rfl⟩ := allocate_window hstyles
    exact List.prefix_rfl
  | on _ _ hstyles =>
    obtain ⟨styles, last, rfl⟩ := allocate_window hstyles
    rw [painted_eq]
    exact List.prefix_append _ _
  | off =>
    rw [cleared_eq]
    exact List.prefix_append _ _

end Session

namespace Extension

theorem notices_prefix_act (x : Extension × Window) (a : Step) :
    x.2.notices <+: (act x a).2.notices := by
  obtain ⟨e, w⟩ := x
  cases a with
  | client a => exact List.prefix_rfl
  | poll =>
    show w.notices <+: (showMessages w e.client.poll.2).notices
    rw [notices_showMessages]
    exact List.prefix_append _ _
  | execute id =>
    simp only [act, execute, Registry.execute]
    cases e.commands.get? id with
    | none => exact List.prefix_rfl
    | some command => exact Session.notices_prefix_toggleIn command.session _ w
  | move m => simp [act]

/-- What a poll shows is at the end of the notices after it. -/
theorem notices_shownBy (x : Extension × Window) (a : Step) :
    (x.2.notices ++ shownBy x a).Sublist (act x a).2.notices := by
  have hprefix := notices_prefix_act x a
  cases a with
  | poll =>
    obtain ⟨added, hadded⟩ := hprefix
    rw [shownBy, ← hadded, List.drop_left]
  | client | execute | move =>
    show (x.2.notices ++ []).Sublist _
    rw [List.append_nil]
    exact hprefix.sublist

/-- Everything that was shown stands among the notices in the end, in its order. -/
theorem notices_shown (x : Extension × Window) (steps : List Step) :
    (x.2.notices ++ shown x steps).Sublist (run x steps).2.notices := by
  induction steps generalizing x with
  | nil => simp [shown, run]
  | cons a steps ih =>
    rw [shown, ← List.append_assoc]
    exact ((notices_shownBy x a).append_right _).trans (ih (act x a))

/--
Whatever is done with a client, its polls report the events of what it takes from its connections, each
once and in order: the messages that arrived first, and all of them where it still runs. If it is polled
by its extension only, the window shows the messages among them, each once and in order.
-/
theorem reported_and_shown_of_run (id name : String) (host : Host) (server : ServerOptions)
    (options : ClientOptions) (workspace : Option String) :
    let c := Client.new id name host server options workspace
    (∀ actions : List Action,
      let all := actions ++ [Action.poll]
      c.reports all = (c.run all).events ∧
      List.Forall₂ (fun arrived conn => conn.taken <+: arrived) (c.deliveries all)
        (c.run all).connections ∧
      ∀ k, (c.run all).connection = some k → k.inbound = []) ∧
    ∀ (commands : Registry) (w : Window) (steps : List Step), Step.client .poll ∉ steps →
      let all := steps ++ [Step.poll]
      let x := run (⟨c, commands⟩, w) all
      shown (⟨c, commands⟩, w) all = x.1.client.events.filterMap Event.shown? ∧
      (shown (⟨c, commands⟩, w) all).Sublist x.2.notices := by
  intro c
  have hreports := Client.reports_eq_events id name host server options workspace
  refine ⟨fun actions => ⟨hreports actions, ?_, ?_⟩, fun commands w steps hpoll => ⟨?_, ?_⟩⟩
  · exact Client.taken_prefix_deliveries id name host server options workspace _
  · intro k hk
    rw [Client.run, List.foldl_append] at hk
    exact Client.inbound_drain hk
  · have hpoll' : Step.client .poll ∉ steps ++ [.poll] := by simpa using hpoll
    rw [shown_eq_reports _ hpoll', client_run, List.filterMap_append]
    exact congrArg (List.filterMap Event.shown?) (hreports (steps.filterMap Step.action?))
  · exact (List.sublist_append_right _ _).trans (notices_shown _ _)

/-- One message in the handshake, one taken by a wait and one by a poll. -/
theorem shown_of_three_messages :
    let message (text : String) : Frame.Arrival :=
      .message (Connection.notificationOf "window/showMessage"
        (.object [("type", .nat 3), ("message", .string text)]))
    let steps : List Step :=
      [.client (.attach { inbound := [message "a", .message (Connection.responseOf 1 .null)] }),
        .client (.arrive [message "b"] none), .client (.waitForDiagnostics "file:///a.txt"),
        .execute ToggleCommand.name, .client (.arrive [message "c", .closed] none)]
    let x : Extension × Window :=
      (⟨Client.new "client" "Client" {} (ServerOptions.ofModule "server" none)
        ⟨[⟨none, none⟩], ⟨[]⟩, 1, 1⟩ none, ⟨[(ToggleCommand.name, ToggleCommand.new .render)]⟩⟩,
        Window.withEditor (some "file:///a.txt"))
    Step.client .poll ∉ steps ∧ shown x (steps ++ [.poll]) = ["a", "b", "c"] ∧
      (run x (steps ++ [.poll])).2.notices = ["Added highlight!", "a", "b", "c"] := by
  intro message steps x
  have hpoll : Step.client .poll ∉ steps := by simp [steps]
  refine ⟨hpoll, ?_, by decide⟩
  have hshown := ((reported_and_shown_of_run "client" "Client" {}
    (ServerOptions.ofModule "server" none) ⟨[⟨none, none⟩], ⟨[]⟩, 1, 1⟩ none).2 x.1.commands x.2
    steps hpoll).1
  exact hshown.trans (by decide)

end Extension

end ColorMarks
