import ColorMarks.Diagnostic.Record
import ColorMarks.Extension
import ColorMarks.Proofs.Client.Recall
import ColorMarks.Proofs.Commands
import ColorMarks.Proofs.Highlight.Painting

/-!
# From what is published to what is painted

The toggle of a new extension paints in the focused editor exactly what the server of its client
published last, whatever was published before and in whatever order the messages came.
-/

namespace ColorMarks

namespace Extension

/-- The first toggle of an extension switches a new session on over what its client knows. -/
theorem execute_ofClient (c : Client) (policy : Policy) (w : Window) :
    ∃ e, ofClient c policy = .ok e ∧ ∃ e', e.execute ToggleCommand.name w =
      .ok (e', ((Session.new policy).toggleIn c.store.snapshot w).2.2) := by
  let commands : Registry := ⟨[(ToggleCommand.name, ToggleCommand.new policy)]⟩
  have hexecute := Registry.execute_of_get? (r := commands) List.lookup_cons_self
    c.store.snapshot w
  exact ⟨⟨c, commands⟩, rfl, _, by rw [execute, hexecute]; rfl⟩

end Extension

open Client (Action)

namespace Extension

/--
The first toggle after any run of a client that was not stopped shows, in the editor of any document,
the related places of the findings last published for each document, and no others.
-/
theorem toggle_shows_published (id name : String) (host : Host) (server : ServerOptions)
    (options : ClientOptions) (workspace : Option String) (policy : Policy) (uri : String)
    {actions : List Action} (hstop : Action.stop ∉ actions) :
    ∃ e e' w related keys,
      ofClient ((Client.new id name host server options workspace).run actions) policy = .ok e ∧
      e.execute ToggleCommand.name (Window.withEditor (some uri)) = .ok (e', w) ∧
      CurrentRelated ((Client.new id name host server options workspace).run actions).publications
        related ∧
      w.Shows uri policy related keys := by
  have hinformed := Client.informed_run id name host server options workspace hstop
  generalize (Client.new id name host server options workspace).run actions = c at hinformed ⊢
  obtain ⟨e, hnew, e', hexecute⟩ := execute_ofClient c policy (Window.withEditor (some uri))
  obtain ⟨keys, hshows⟩ := Session.shows_toggleIn_new policy c.store.snapshot uri
  exact ⟨e, e', _, _, keys, hnew, hexecute, hinformed.store.currentRelated, hshows⟩

/-- A finding that is published after none were. -/
theorem toggle_shows_second_publication :
    let place : Related := ⟨⟨"file:///b.txt", ⟨⟨0, 0⟩, ⟨0, 4⟩⟩⟩, "Color:1,2,3"⟩
    let finding : Json := .object [("range", place.location.range.toJson),
      ("relatedInformation", .array [place.toJson])]
    let published (findings : List Json) : Frame.Arrival :=
      .message (Connection.notificationOf "textDocument/publishDiagnostics"
        (.object [("uri", .string "file:///a.txt"), ("diagnostics", .array findings)]))
    let actions : List Action :=
      [.attach { inbound := [.message (Connection.responseOf 1 .null)] },
        .arrive [published [], published [finding]] none, .poll]
    let c := (Client.new "client" "Client" {} (ServerOptions.ofModule "server" none)
      ⟨[⟨none, none⟩], ⟨[]⟩, 1, 1⟩ none).run actions
    Action.stop ∉ actions ∧
      c.publications.map (fun p => p.diagnostics.flatMap Diagnostic.related) = [[], [place]] ∧
      ∃ e e' w related keys, ofClient c .skip = .ok e ∧
        e.execute ToggleCommand.name (Window.withEditor (some "file:///a.txt")) = .ok (e', w) ∧
        CurrentRelated c.publications related ∧ w.Shows "file:///a.txt" .skip related keys :=
  ⟨by simp, by decide, toggle_shows_published _ _ _ _ _ _ _ _ (by simp)⟩

end Extension

end ColorMarks
