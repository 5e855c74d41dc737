import ColorMarks.Proofs.Client.Recall

/-!
# What a wait for findings tells

A wait tells whether findings of a document were published since the client was stopped last. The server
that the client has may not be the one that published them: a server that was lost counts as long as
nothing is stopped, even when the client does not run any more (`waits_iff_of_run`).
-/

namespace ColorMarks

open ColorMarks.Frame (Arrival)

/-- Findings of a document were published over a connection, even none. -/
def Connection.Publishes (conn : Connection) (uri : String) : Prop :=
  ∃ p ∈ conn.publications, p.uri = uri

namespace Client

/-- Findings of a document were published over a connection that ended, the first `n` left out. -/
def LostPublishes (c : Client) (n : Nat) (uri : String) : Prop :=
  ∃ k ∈ c.retired.drop n, k.Publishes uri

/-- The client has a server, which published findings of a document by the end of a wait for them. -/
def PresentPublishes (c : Client) (uri : String) : Prop :=
  c.isRunning = true ∧
    ∃ k, (c.waitForDiagnostics uri).1.connections.getLast? = some k ∧ k.Publishes uri

variable {c c' : Client}

/-- Taking an arrival goes on with the connection or ends it, and leaves the others. -/
theorem connections_take (h : Take c c') : ∃ k, c'.connections = c.retired ++ [k] := by
  cases h with
  | heard hc hk => exact ⟨_, by rw [connections, retired_noticeAll]; rfl⟩
  | @lost k a rest reason hc hk ha left =>
    exact ⟨{ k with inbound := left }.record (.received a),
      by simp [connections, disconnect, retire, receive]⟩

theorem connections_drain {k : Connection} (hc : c.connection = some k) :
    ∃ k', c.drain.connections = c.retired ++ [k'] := by
  have htakes := drain_takes c
  generalize c.drain = c' at htakes
  induction htakes with
  | refl => exact ⟨k, by rw [connections, hc]; rfl⟩
  | @tail d d' _ htake ih =>
    obtain ⟨k₁, hk₁⟩ := ih
    obtain ⟨k₂, hk₂⟩ := connections_take htake
    -- a take needs a connection, so that the others are those that were there before
    have hretired : d.retired = c.retired := by
      cases htake with
      | heard hd | lost hd =>
        rw [connections, hd] at hk₁
        exact (List.append_inj' hk₁ rfl).1
    exact ⟨k₂, by rw [hk₂, hretired]⟩

theorem Recalls.mem_published {n : Nat} (h : c.Recalls n) (uri : String) :
    uri ∈ c.published ↔ ∃ k ∈ c.connections.drop n, k.Publishes uri := by
  rw [h.knows.mem_published]
  constructor
  · rintro ⟨p, hp, huri⟩
    obtain ⟨k, hk, hpk⟩ := List.mem_flatMap.1 hp
    exact ⟨k, hk, p, hpk, huri⟩
  · rintro ⟨k, hk, p, hpk, huri⟩
    exact ⟨p, List.mem_flatMap.2 ⟨k, hk, hpk⟩, huri⟩

theorem Recalls.waits_iff {n : Nat} (h : c.Recalls n) (uri : String) :
    (c.waitForDiagnostics uri).2 = true ↔ c.LostPublishes n uri ∨ c.PresentPublishes uri := by
  show c.drain.published.contains uri = true ↔ _
  rw [List.contains_iff_mem, (recalls_drain h).mem_published]
  cases hc : c.connection with
  | none =>
    have hstopped : ¬ c.PresentPublishes uri := by
      rintro ⟨hrunning, -⟩
      rw [isRunning, hc] at hrunning
      cases hrunning
    rw [drain_of_stopped hc, drop_connections_of_stopped hc]
    simp only [hstopped, or_false, LostPublishes]
  | some k =>
    obtain ⟨k', hk'⟩ := connections_drain hc
    have hpresent : c.PresentPublishes uri ↔ k'.Publishes uri := by
      have hlast : (c.waitForDiagnostics uri).1.connections.getLast? = some k' := by
        show c.drain.connections.getLast? = some k'
        rw [hk', List.getLast?_concat]
      have hrunning : c.isRunning = true := by rw [isRunning, hc]; rfl
      simp only [PresentPublishes, hrunning, hlast, Option.some.injEq, true_and, exists_eq_left']
    rw [hk', List.drop_append_of_le_length h.past, hpresent, LostPublishes]
    simp only [List.mem_append, List.mem_singleton, or_and_right, exists_or, exists_eq_left]

/--
A wait for findings of a document tells that they were published exactly if they were over a connection
that was lost since the client was stopped last, or over the one that it has. So it tells of the present
server alone exactly unless only a lost one published them.
-/
theorem waits_iff_of_run (id name : String) (host : Host) (server : ServerOptions)
    (options : ClientOptions) (workspace : Option String) (actions : List Action) (uri : String) :
    let start := Client.new id name host server options workspace
    let n := start.bygone 0 actions
    let c := start.run actions
    ((c.waitForDiagnostics uri).2 = true ↔ c.LostPublishes n uri ∨ c.PresentPublishes uri) ∧
      (((c.waitForDiagnostics uri).2 = true → c.PresentPublishes uri) ↔
        (c.LostPublishes n uri → c.PresentPublishes uri)) := by
  intro start n c
  have hrecalls : c.Recalls n :=
    recalls_run (recalls_new id name host server options workspace) actions
  have hwaits := hrecalls.waits_iff uri
  refine ⟨hwaits, ?_⟩
  rw [hwaits, or_imp]
  exact and_iff_left fun hpresent => hpresent

/-- Findings that only a lost server published are told of without a server, and with the next one. -/
theorem waits_true_after_loss :
    let published : Arrival :=
      .message (Connection.notificationOf "textDocument/publishDiagnostics"
        (.object [("uri", .string "file:///a.txt"), ("diagnostics", .array [])]))
    let stopped := (Client.new "client" "Client" {} (ServerOptions.ofModule "server" none)
      ⟨[⟨none, none⟩], ⟨[]⟩, 1, 1⟩ none).run
        [.attach { inbound := [.message (Connection.responseOf 1 .null), published, .closed],
                   partialFrame := none }, .poll]
    let c := stopped.act (.attach { inbound := [.message (Connection.responseOf 1 .null)] })
    (stopped.waitForDiagnostics "file:///a.txt").2 = true ∧
      ¬ stopped.PresentPublishes "file:///a.txt" ∧
      (c.waitForDiagnostics "file:///a.txt").2 = true ∧ ¬ c.PresentPublishes "file:///a.txt" := by
  intro published stopped c
  have hlast : (c.waitForDiagnostics "file:///a.txt").1.connections.getLast?.map
      Connection.publications = some [] := rfl
  refine ⟨rfl, ?_, rfl, ?_⟩
  · rintro ⟨⟨⟩, -⟩
  · rintro ⟨-, k, hk, p, hp, -⟩
    rw [hk, Option.map_some] at hlast
    rw [Option.some.inj hlast] at hp
    cases hp

end Client

end ColorMarks
