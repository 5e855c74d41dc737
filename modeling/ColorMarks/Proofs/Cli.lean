import ColorMarks.Cli
import ColorMarks.Proofs.Frame.Stream
import ColorMarks.Proofs.Report
import ColorMarks.Proofs.Server.Timeline
import ColorMarks.Proofs.Traversal

/-!
# What the program reports

A run that ends with a report has four stages (`Completes`): the client is started, the files are opened,
their findings are waited for, and the report is made of what the client knows then. Until the report is
made nobody polls the client, so whatever it noticed on the way is reported with the last poll.
-/

namespace ColorMarks

open Client (Action)
open Extension (Unpolled)

namespace Client

/-- Opening a document tells whether it is selected. -/
theorem eq_handles_of_openDocument {c : Client} {uri language text : String} {version : Int}
    {isSelected : Bool} (h : (c.openDocument uri language version text).2 = .ok isSelected) :
    isSelected = c.handles uri language := by
  unfold openDocument at h
  split at h
  · rename_i hhandles
    rw [hhandles]
    split at h
    · cases h
    · exact (Except.ok.inj h).symm
  · rename_i hhandles
    rw [Bool.not_eq_true] at hhandles
    rw [hhandles]
    exact (Except.ok.inj h).symm

/-- Only polls report, so what is reported after actions without them is reported by the last action. -/
theorem reports_concat {actions : List Action} (hpoll : Action.poll ∉ actions) (c : Client)
    (a : Action) : c.reports (actions ++ [a]) = (c.run actions).report a := by
  induction actions generalizing c with
  | nil => simp [reports]
  | cons b actions ih =>
    have hb : b ≠ .poll := by
      rintro rfl
      exact hpoll List.mem_cons_self
    rw [List.cons_append, reports, report_of_ne_poll hb, List.nil_append,
      ih fun hmem => hpoll (List.mem_cons_of_mem b hmem), run_cons]

theorem run_concat (c : Client) (actions : List Action) (a : Action) :
    c.run (actions ++ [a]) = (c.run actions).act a := List.foldl_concat ..

theorem handles_run (c : Client) (actions : List Action) (uri language : String) :
    (c.run actions).handles uri language = c.handles uri language := by
  rw [handles, handles, options_run]

end Client

theorem Extension.Unpolled.handles {e e' : Extension} (h : e.Unpolled e') (uri language : String) :
    e'.client.handles uri language = e.client.handles uri language := by
  obtain ⟨actions, -, rfl⟩ := h
  exact Client.handles_run _ _ _ _

namespace Cli

/-- A run that ends with a report: with which settings, and with what its client knows at the end. -/
inductive Completes (env : Environment) (r : Request) : Settings → Client → Report → Prop
  | mk {s : Settings} {begun opened ended : Timeline} {editor : String} {others : List String}
      {report : Report} (hsettings : settings env r = .ok s) (hbegun : started env r s = .ok begun)
      (hopened : r.files.foldlM (openFile env.host (r.language.getD "plaintext")) (begun, []) =
        .ok (opened, editor :: others))
      (hended : (waitForAll (r.patience.getD 5000) opened (editor :: others)).actAtOnce
        (Report.make editor (editor :: others)) = (ended, .ok report)) :
      Completes env r s ended.extension.client report

/-- The report on a timeline is made by the last of the stages. -/
theorem report_eq_ok_iff {h : Host} {r : Request} {begun : Timeline} {report : Report} :
    Cli.report h r begun = .ok report ↔ ∃ opened editor others ended,
      r.files.foldlM (openFile h (r.language.getD "plaintext")) (begun, []) =
        .ok (opened, editor :: others) ∧
      (waitForAll (r.patience.getD 5000) opened (editor :: others)).actAtOnce
        (Report.make editor (editor :: others)) = (ended, .ok report) := by
  constructor
  · intro hreport
    obtain ⟨⟨opened, uris⟩, hopened, hrest⟩ := exists_of_bind_eq_ok hreport
    cases uris with
    | nil => cases hrest
    | cons editor others =>
      simp only at hrest
      rcases hended : (waitForAll (r.patience.getD 5000) opened (editor :: others)).actAtOnce
        (Report.make editor (editor :: others)) with ⟨ended, e | made⟩
      · rw [hended] at hrest
        cases hrest
      · rw [hended] at hrest
        cases hrest
        exact ⟨opened, editor, others, ended, hopened, hended⟩
  · rintro ⟨opened, editor, others, ended, hopened, hended⟩
    simp only [Cli.report, hopened, bind, Except.bind, hended]
    rfl

/-- The program makes a report exactly if it completes the stages. -/
theorem perform_eq_ok_iff {env : Environment} {r : Request} {report : Report} :
    perform env r = .ok report ↔ ∃ s c, Completes env r s c report := by
  constructor
  · intro h
    obtain ⟨s, hsettings, hrest⟩ := exists_of_bind_eq_ok h
    cases hbegun : started env r s with
    | error e =>
      rw [hbegun] at hrest
      cases hrest
    | ok begun =>
      rw [hbegun] at hrest
      obtain ⟨opened, editor, others, ended, hopened, hended⟩ := report_eq_ok_iff.1 hrest
      exact ⟨s, _, .mk hsettings hbegun hopened hended⟩
  · rintro ⟨_, _, hsettings, hbegun, hopened, hended⟩
    simp only [perform, hsettings, bind, Except.bind, hbegun]
    exact report_eq_ok_iff.2 ⟨_, _, _, _, hopened, hended⟩

/-- A run begins with a client that was never run and a toggle that was never run. -/
theorem started_spec {env : Environment} {r : Request} {s : Settings} {begun : Timeline}
    (h : started env r s = .ok begun) :
    ∃ options, s.clientOptions = .ok options ∧ Unpolled
      ⟨Client.new s.client.id s.client.name env.host (s.serverOptions (r.root.getD ".")) options
        r.workspace, ⟨[(ToggleCommand.name, ToggleCommand.new s.highlight.policy)]⟩⟩
      begun.extension := by
  obtain ⟨extension, hextension, hrest⟩ := exists_of_bind_eq_ok h
  obtain ⟨client, hclient, hnew⟩ := exists_of_bind_eq_ok hextension
  cases hoptions : s.clientOptions with
  | error e =>
    rw [Extension.clientOf, hoptions] at hclient
    cases hclient
  | ok options =>
    rw [Extension.clientOf, hoptions] at hclient
    cases hclient
    have hunpolled := Timeline.start_spec { extension, launcher := env.launcher } (mode env r)
    refine ⟨options, rfl, ?_⟩
    split at hrest
    · rename_i hstart
      cases hrest
      cases hnew
      rw [hstart] at hunpolled
      exact hunpolled
    · cases hrest

theorem openFile_spec {h : Host} {language file : String} {t t' : Timeline} {uris uris' : List String}
    (hopen : openFile h language (t, uris) file = .ok (t', uris')) :
    t.extension.Unpolled t'.extension ∧ uris' = uris ++
      [Uri.ofPath h file].filter fun uri => t.extension.client.handles uri language := by
  unfold openFile at hopen
  simp only at hopen
  cases htext : h.files.readText h.directory file with
  | error e =>
    rw [htext] at hopen
    cases hopen
  | ok text =>
    obtain ⟨arrivals, left, hextension, hanswer⟩ :=
      t.openDocument_spec (Uri.ofPath h file) language 1 text
    rw [htext] at hopen
    simp only at hopen
    rcases hdocument : t.openDocument (Uri.ofPath h file) language 1 text with ⟨after, e | isSelected⟩
    · rw [hdocument] at hopen
      cases hopen
    · rw [hdocument] at hopen hextension hanswer
      cases hopen
      have hselected : isSelected = t.extension.client.handles (Uri.ofPath h file) language :=
        (Client.eq_handles_of_openDocument hanswer.symm).trans
          (Client.handles_run t.extension.client [.arrive arrivals left] _ _)
      refine ⟨⟨_, by simp, hextension⟩, ?_⟩
      rw [hselected]
      cases hhandles : t.extension.client.handles (Uri.ofPath h file) language <;> simp [hhandles]

theorem openFiles_spec {h : Host} {language : String} {files : List String} {t t' : Timeline}
    {uris uris' : List String}
    (hopen : files.foldlM (openFile h language) (t, uris) = .ok (t', uris')) :
    t.extension.Unpolled t'.extension ∧ uris' = uris ++
      (files.map (Uri.ofPath h)).filter fun uri => t.extension.client.handles uri language := by
  induction files generalizing t uris with
  | nil =>
    cases hopen
    exact ⟨.refl _, by simp⟩
  | cons file files ih =>
    obtain ⟨⟨after, urisAfter⟩, hfirst, hrest⟩ := exists_of_bind_eq_ok hopen
    obtain ⟨hunpolled, rfl⟩ := openFile_spec hfirst
    obtain ⟨hunpolled', rfl⟩ := ih hrest
    refine ⟨hunpolled.trans hunpolled', ?_⟩
    simp only [hunpolled.handles, List.append_assoc, ← List.filter_append]
    rfl

theorem waitForAll_spec (patience : Nat) (t : Timeline) (uris : List String) :
    t.extension.Unpolled (waitForAll patience t uris).extension := by
  induction uris generalizing t with
  | nil => exact .refl _
  | cons uri uris ih =>
    obtain ⟨arrivals, left, hextension⟩ := t.waitForDiagnostics_spec uri patience
    have hfirst : t.extension.Unpolled (t.waitForDiagnostics uri patience).1.extension :=
      ⟨_, by simp, hextension⟩
    exact hfirst.trans (ih _)

/-- The addresses of the files that the client tells its server about, in the order of the files. -/
def selected (env : Environment) (r : Request) (s : Settings) : List String :=
  (r.files.map (Uri.ofPath env.host)).filter fun uri =>
    Selector.accepts s.options.selector uri (r.language.getD "plaintext")

/-- The selector of the settings is that of the client. -/
theorem handles_of_clientOptions {s : Settings} {options : ClientOptions}
    (h : s.clientOptions = .ok options) (id name : String) (host : Host) (server : ServerOptions)
    (workspace : Option String) (uri language : String) :
    (Client.new id name host server options workspace).handles uri language =
      Selector.accepts s.options.selector uri language := by
  obtain ⟨watched, -, hrest⟩ := exists_of_bind_eq_ok h
  cases hrest
  rfl

/-- The last stage reports what the client knows then, and all that it noticed since it was made. -/
theorem make_spec {client : Client} {policy : Policy} {t ended : Timeline} {editor : String}
    {documents : List String} {report : Report}
    (hunpolled : Unpolled ⟨client, ⟨[(ToggleCommand.name, ToggleCommand.new policy)]⟩⟩ t.extension)
    (hended : t.actAtOnce (Report.make editor documents) = (ended, .ok report)) :
    ∃ actions, ended.extension.client = client.run (actions ++ [.poll]) ∧
      report =
        { editor
          documents := documents.map fun uri =>
            (uri, ((ended.extension.client.store.get? uri).getD []).length)
          highlights := Report.highlightsOf policy ended.extension.client.store.snapshot.related
          notices := (client.reports (actions ++ [.poll])).filterMap Event.shown? ++
            [Session.addedNotice] } := by
  obtain ⟨actions, hpoll, hextension⟩ := hunpolled
  obtain ⟨arrivals, left, hact⟩ := t.act_spec 0 (Report.make editor documents) fun _ => false
  obtain ⟨e, hclient, hmake⟩ := Report.make_spec
    (e := { t.extension with client := t.extension.client.act (.arrive arrivals left) })
    (by rw [hextension]) editor documents
  rw [← Timeline.actAtOnce, hended, hmake] at hact
  obtain ⟨rfl, hreport⟩ := Prod.mk.inj hact
  have hrun : t.extension.client.act (.arrive arrivals left) =
      client.run (actions ++ [.arrive arrivals left]) := by
    rw [hextension, Client.run_concat]
  refine ⟨actions ++ [.arrive arrivals left], ?_, ?_⟩
  · rw [Client.run_concat, ← hrun]
    exact hclient
  · rw [Client.reports_concat (by simpa using hpoll), ← hrun]
    exact Except.ok.inj hreport

/-- What a run that completes reports. -/
theorem report_of_completes {env : Environment} {r : Request} {s : Settings} {c : Client}
    {report : Report} (h : Completes env r s c report) :
    (selected env r s).head? = some report.editor ∧
      report.documents = (selected env r s).map (fun uri =>
        (uri, ((c.store.get? uri).getD []).length)) ∧
      report.highlights = Report.highlightsOf s.highlight.policy c.store.snapshot.related ∧
      report.notices = c.events.filterMap Event.shown? ++ [Session.addedNotice] := by
  obtain ⟨-, hbegun, hopened, hended⟩ := h
  obtain ⟨options, hoptions, hstarted⟩ := started_spec hbegun
  obtain ⟨hunpolled, huris⟩ := openFiles_spec hopened
  obtain ⟨actions, hclient, hreport⟩ :=
    make_spec ((hstarted.trans hunpolled).trans (waitForAll_spec _ _ _)) hended
  have hselected := huris.symm
  simp only [hstarted.handles, handles_of_clientOptions hoptions, List.nil_append] at hselected
  have hevents := Client.reports_eq_events s.client.id s.client.name env.host
    (s.serverOptions (r.root.getD ".")) options r.workspace actions
  rw [hevents, ← hclient] at hreport
  rw [selected, hselected, hreport]
  exact ⟨rfl, rfl, rfl, rfl⟩

/-- Every report of the program is complete: on the files that the client told its server about, in the
order in which they were named, with the number of findings known for each; one highlight for each color key
that the findings ask for, with all of its locations; and the messages for the user among everything that
the client noticed from the first to the last, before the notice of the toggle. -/
theorem report_of_perform {env : Environment} {r : Request} {report : Report}
    (h : perform env r = .ok report) :
    ∃ s c, Completes env r s c report ∧
      (selected env r s).head? = some report.editor ∧
      report.documents = (selected env r s).map (fun uri =>
        (uri, ((c.store.get? uri).getD []).length)) ∧
      report.highlights = Report.highlightsOf s.highlight.policy c.store.snapshot.related ∧
      report.notices = c.events.filterMap Event.shown? ++ ["Added highlight!"] := by
  obtain ⟨s, c, hcompletes⟩ := perform_eq_ok_iff.1 h
  exact ⟨s, c, hcompletes, report_of_completes hcompletes⟩

/-! ## A run -/

/-- A server that says everything at once and goes on. -/
def saying (bytes : List UInt8) : Server := fun _ => ⟨[⟨0, bytes⟩], none⟩

/-- If a server says whole messages at once and its client is content with them, the run begins. -/
theorem started_of_saying {env : Environment} {r : Request} {s : Settings} {e : Extension}
    {messages : List Json} {bytes : List UInt8} {client : Client}
    (he : Extension.ofSettings s env.host (r.root.getD ".") r.workspace = .ok e)
    (hrunning : e.client.isRunning = false)
    (hlaunch : env.launcher e.client.workspace (e.client.server.executable (mode env r)) =
      .ok (saying bytes))
    (hreceive : Frame.receive .more bytes = (messages.map .message, some []))
    (hstart : e.client.start (mode env r) (fun _ => .ok
      { folders := e.client.folders, inbound := messages.map .message, partialFrame := some [] }) =
        (client, .ok ()))
    (hclient : client.isRunning = true) :
    started env r s = .ok
      { extension := { e with client }
        launcher := env.launcher
        run := some ((ServerRun.mk (saying bytes) [] 1 false).hear
          (((Timeline.lastConnection client).map Connection.sent).getD []) 0) } := by
  have htaken : (ServerRun.mk (saying bytes) [] 0 false).takeUntil 0 =
      (⟨saying bytes, [], 1, false⟩, bytes, .more) := by
    simp [ServerRun.takeUntil, saying]
  have hsupply : ({ folders := e.client.folders } : Connection).supply bytes .more =
      { folders := e.client.folders, inbound := messages.map .message, partialFrame := some [] } := by
    simp only [Connection.supply, List.nil_append, hreceive]
  have hbegun : Timeline.start { extension := e, launcher := env.launcher } (mode env r) =
      ({ extension := { e with client }
         launcher := env.launcher
         run := some ((ServerRun.mk (saying bytes) [] 1 false).hear
          (((Timeline.lastConnection client).map Connection.sent).getD []) 0) }, .ok ()) := by
    simp only [Timeline.start, hrunning, Bool.false_eq_true, if_false, hlaunch, Timeline.startOver]
    rw [Timeline.ask_of_answered { e with client } (.ok ()) htaken
      (by simp only [hsupply, Timeline.withClient, hstart]) rfl]
    simp only [hclient, if_true]
  rw [started, he]
  simp only [bind, Except.bind, hbegun]
  rfl

/-- A run without a file of settings that begins is known from the stages after that. -/
theorem perform_of_started {env : Environment} {r : Request} {begun : Timeline}
    (hconfig : r.config = none) (hbegun : started env r {} = .ok begun) :
    perform env r = Cli.report env.host r begun := by
  simp only [perform, settings, hconfig, bind, Except.bind, hbegun]

/-- That the server is ready, a message for the user, and a finding that asks for a color. -/
private def said : List Json :=
  let position (character : Nat) : Json :=
    .object [("character", .nat character), ("line", .nat 0)]
  let range : Json := .object [("end", position 4), ("start", position 0)]
  let place : Json := .object [("range", range), ("uri", .string "file:///a.txt")]
  let related : Json := .object [("location", place), ("message", .string "Color:1,2,3")]
  let finding : Json := .object [("range", range), ("relatedInformation", .array [related])]
  [Connection.responseOf 1 .null,
    Connection.notificationOf "window/showMessage"
      (.object [("message", .string "hello"), ("type", .nat 3)]),
    Connection.notificationOf "textDocument/publishDiagnostics"
      (.object [("diagnostics", .array [finding]), ("uri", .string "file:///a.txt")])]

private theorem receive_said :
    Frame.receive .more (said.flatMap Frame.write) = (said.map .message, some []) := by
  have hplain : ∀ v ∈ said, v.IsPlain := by
    simp [said, Connection.responseOf, Connection.notificationOf, Connection.version, Json.IsPlain,
      Json.PlainItems, Json.PlainMembers, Json.nat, twoTo]
  have hshallow : ∀ v ∈ said, v.depth ≤ Json.maxDepth := by decide
  have hcanonical : said.map Json.canonical = said.map id := rfl
  apply Frame.receive_flatMap_write
  · intro v hv
    exact ⟨hplain v hv, hshallow v hv, List.map_inj_left.1 hcanonical v hv⟩
  · intro v hv
    rw [Json.text, Text.octets_ofList]
    revert v
    decide +kernel

private def oneFile : Environment where
  host := { files := ⟨[(["a.txt"], .file [] false)]⟩, directory := "/" }
  launcher := fun _ _ => .ok (saying (said.flatMap Frame.write))

/-- The same file under two names. -/
private def twice : Request := { files := ["a.txt", "/a.txt"] }

private theorem isSome_ofSettings :
    (Extension.ofSettings {} oneFile.host "." none).toOption.isSome = true := by
  decide +kernel

private def fresh : Extension :=
  (Extension.ofSettings {} oneFile.host "." none).toOption.get isSome_ofSettings

private def greeted : Client × Except ClientError Unit :=
  fresh.client.start .run fun _ => .ok
    { folders := fresh.client.folders, inbound := said.map .message, partialFrame := some [] }

private def begun : Timeline where
  extension := { fresh with client := greeted.1 }
  launcher := oneFile.launcher
  run := some ((ServerRun.mk (saying (said.flatMap Frame.write)) [] 1 false).hear
    (((Timeline.lastConnection greeted.1).map Connection.sent).getD []) 0)

private theorem started_begun : started oneFile twice {} = .ok begun := by
  have he : Extension.ofSettings {} oneFile.host "." none = .ok fresh := by
    unfold fresh
    generalize isSome_ofSettings = h
    generalize Extension.ofSettings {} oneFile.host "." none = x at h
    cases x with
    | error e => cases h
    | ok e => rfl
  have hrunning : fresh.client.isRunning = false := by decide +kernel
  have hclient : greeted.1.isRunning = true := by decide +kernel
  have hgreeted : greeted.2 = .ok () := by decide +kernel
  have hmode : mode oneFile twice = .run := rfl
  exact started_of_saying he hrunning rfl receive_said
    (by rw [hmode, ← greeted, ← hgreeted]) hclient

theorem report_of_perform_file_named_twice :
    ∃ report, perform oneFile twice = .ok report ∧
      report.documents = [("file:///a.txt", 1), ("file:///a.txt", 1)] ∧
      report.highlights =
        [⟨1, "rgba(1, 2, 3, 0.4)", [⟨"file:///a.txt", ⟨⟨0, 0⟩, ⟨0, 4⟩⟩⟩]⟩] ∧
      report.notices = ["hello", "Added highlight!"] ∧
      ∃ s c, Completes oneFile twice s c report ∧
        (selected oneFile twice s).head? = some report.editor ∧
        report.documents = (selected oneFile twice s).map (fun uri =>
          (uri, ((c.store.get? uri).getD []).length)) ∧
        report.highlights = Report.highlightsOf s.highlight.policy c.store.snapshot.related ∧
        report.notices = c.events.filterMap Event.shown? ++ ["Added highlight!"] := by
  have hreport : (Cli.report oneFile.host twice begun).toOption.map
      (fun report => (report.documents, report.highlights, report.notices)) =
        some ([("file:///a.txt", 1), ("file:///a.txt", 1)],
          [⟨1, "rgba(1, 2, 3, 0.4)", [⟨"file:///a.txt", ⟨⟨0, 0⟩, ⟨0, 4⟩⟩⟩]⟩],
          ["hello", "Added highlight!"]) := by
    decide +kernel
  have hperform : perform oneFile twice = Cli.report oneFile.host twice begun :=
    perform_of_started rfl started_begun
  rw [← hperform] at hreport
  obtain ⟨report, hsome, hfields⟩ := Option.map_eq_some_iff.1 hreport
  have hok : perform oneFile twice = .ok report := by
    cases hresult : perform oneFile twice with
    | error e =>
      rw [hresult] at hsome
      cases hsome
    | ok made =>
      rw [hresult] at hsome
      cases hsome
      rfl
  obtain ⟨hdocuments, hhighlights, hnotices⟩ := by simpa using hfields
  exact ⟨report, hok, hdocuments, hhighlights, hnotices, report_of_perform hok⟩

end Cli

end ColorMarks
