import ColorMarks.Proofs.Client.Turn

/-!
# The order of the protocol

On every connection of a run the client speaks in the order of the protocol: it asks for the handshake,
says that it is over, tells about documents, asks for the shutdown, and tells the server to exit. The
second and the last of these wait for the answer to the request before them.
-/

namespace ColorMarks

open ColorMarks.Frame (Arrival)
open Connection (hasMethod requestOf notificationOf responseOf isResponse)

namespace Traffic

/-- The requests and notifications that were handed to the writer; replies have no method. -/
def told (ts : List Traffic) : List Json := (ts.filterMap handed?).filter hasMethod

@[simp] theorem told_append (ts us : List Traffic) : told (ts ++ us) = told ts ++ told us := by
  rw [told, told, told, List.filterMap_append, List.filter_append]

theorem told_cons (t : Traffic) (ts : List Traffic) : told (t :: ts) = told [t] ++ told ts :=
  told_append [t] ts

@[simp] theorem told_received (a : Arrival) : told [received a] = [] := rfl

theorem told_of_handed {t : Traffic} {m : Json} (h : t.handed? = some m)
    (hm : hasMethod m = true) : told [t] = [m] := by
  simp [told, h, hm]

/-- Quiet traffic tells the server nothing. -/
theorem told_of_quiet {ts : List Traffic} (h : ∀ t ∈ ts, t.IsQuiet) : told ts = [] := by
  rw [told, List.filter_eq_nil_iff]
  intro m hm
  obtain ⟨t, ht, hmt⟩ := List.mem_filterMap.1 hm
  rcases h t ht with hnone | ⟨id, result, hreply⟩
  · rw [hnone] at hmt
    cases hmt
  · rw [hreply] at hmt
    cases hmt
    simp

theorem mem_told {ts : List Traffic} {t : Traffic} {m : Json} (ht : t ∈ ts)
    (hm : t.handed? = some m) (hmethod : hasMethod m = true) : m ∈ told ts :=
  List.mem_filter.2 ⟨List.mem_filterMap.2 ⟨t, ht, hm⟩, hmethod⟩

/-- A message is handed over only after a request was handed over and a good answer to it taken. -/
def AnsweredBefore (ts : List Traffic) (m request : Json) (good : Json → Prop) : Prop :=
  ∀ before t after, ts = before ++ t :: after → t.handed? = some m →
    ∃ asked answer, [asked, received (.message answer)].Sublist before ∧
      asked.handed? = some request ∧ good answer

/-- What was never handed over needs no answer. -/
theorem answeredBefore_of_not_told {ts : List Traffic} {m request : Json} {good : Json → Prop}
    (hm : hasMethod m = true) (h : m ∉ told ts) : AnsweredBefore ts m request good := by
  rintro before t after rfl ht
  exact absurd (mem_told (by simp) ht hm) h

/-- A beginning that asks, is answered and does not hand the message over itself. -/
theorem answeredBefore_of_prefix {ts quiet : List Traffic} {asked : Traffic}
    {m request answer : Json} {good : Json → Prop} (us : List Traffic) (hm : hasMethod m = true)
    (hasked : asked.handed? = some request) (hgood : good answer)
    (hts : m ∉ told (ts ++ asked :: (quiet ++ [received (.message answer)]))) :
    AnsweredBefore (ts ++ asked :: (quiet ++ received (.message answer) :: us)) m request good := by
  intro before t after heq ht
  have hsplit : (ts ++ asked :: (quiet ++ [received (.message answer)])) ++ us =
      before ++ t :: after := by
    rw [← heq]
    simp
  have hprefix : ts ++ asked :: (quiet ++ [received (.message answer)]) <+: before := by
    rcases List.append_eq_append_iff.1 hsplit with ⟨cs, hbefore, -⟩ | ⟨cs, hts', hcs⟩
    · exact ⟨cs, hbefore.symm⟩
    · cases cs with
      | nil => exact ⟨[], by simpa using hts'⟩
      | cons c cs =>
        obtain rfl : t = c := (List.cons.inj hcs).1
        exact absurd (mem_told (by rw [hts']; simp) ht hm) hts
  refine ⟨asked, answer, ?_, hasked, hgood⟩
  refine List.Sublist.trans ?_ hprefix.sublist
  exact (List.sublist_append_of_sublist_right
    (((List.sublist_append_right quiet _)).cons_cons asked))

/-- The traffic of a running connection after the greeting. -/
def IsBusy (t : Traffic) : Prop := t.IsQuiet ∨ ∃ u : Update, t.handed? = some u.message

end Traffic

open Traffic (told told_append told_cons told_received told_of_handed told_of_quiet AnsweredBefore
  answeredBefore_of_not_told answeredBefore_of_prefix)

/-- The message that the handshake is over. -/
def Connection.initialized : Json := notificationOf "initialized" (.object [])

/-- The message that tells a server to exit. -/
def Connection.exit : Json := notificationOf "exit" .null

open Connection (initialized exit)

/-- All that a client says on a connection that runs its whole course. -/
def Connection.course (first last : Nat) (params : Json) (updates : List Update) : List Json :=
  [requestOf first "initialize" params, initialized] ++ updates.map Update.message ++
    [requestOf last "shutdown" .null, exit]

/--
The order of the protocol on a connection whose handshake and shutdown are the requests with these
numbers.
-/
structure Connection.InOrder (conn : Connection) (first last : Nat) (params : Json)
    (updates : List Update) : Prop where
  distinct : first ≠ last
  sent : conn.sent.filter hasMethod <+: course first last params updates
  handed : conn.handed.filter hasMethod <+: course first last params updates
  initialized : AnsweredBefore conn.history initialized (requestOf first "initialize" params)
    fun answer => isResponse first answer = true ∧ answer.get? "error" = none
  exit : AnsweredBefore conn.history exit (requestOf last "shutdown" .null)
    fun answer => isResponse last answer = true ∧ isResponse first answer = false

/-- A response belongs to one request only. -/
theorem Connection.isResponse_unique {first last : Nat} (h : first ≠ last) {m : Json}
    (hm : isResponse last m = true) : isResponse first m = false := by
  simp only [isResponse, Bool.and_eq_true, beq_iff_eq] at hm
  rw [isResponse, hm.2]
  simp [Ne.symm h]

namespace Traffic

theorem told_attempt {id : Nat} {ts : List Traffic} (h : Attempt id ts) :
    ∃ params, told ts <+: [requestOf id "initialize" params] := by
  cases h with
  | silent => exact ⟨.null, List.nil_prefix⟩
  | asked hasked hquiet =>
    rename_i params
    refine ⟨params, ?_⟩
    rw [told_cons, told_of_handed hasked rfl, told_of_quiet hquiet]
    exact List.prefix_rfl

theorem told_farewell {id : Nat} {ts : List Traffic} (h : Farewell id ts) :
    told ts <+: [requestOf id "shutdown" .null, exit] := by
  cases h with
  | silent => exact List.nil_prefix
  | asked hasked hquiet =>
    rw [told_cons, told_of_handed hasked rfl, told_of_quiet hquiet]
    exact List.prefix_append _ [exit]
  | answered hasked hquiet _ htold =>
    rw [told_cons, told_of_handed hasked rfl, told_append, told_of_quiet hquiet, told_cons,
      told_received, told_of_handed htold rfl]
    exact List.prefix_rfl

/-- A busy connection tells about documents only. -/
theorem told_busy {ts : List Traffic} (h : ∀ t ∈ ts, t.IsBusy) :
    ∃ updates : List Update, told ts = updates.map Update.message := by
  induction ts with
  | nil => exact ⟨[], rfl⟩
  | cons t ts ih =>
    obtain ⟨updates, hts⟩ := ih fun t ht => h t (List.mem_cons_of_mem _ ht)
    rcases h t List.mem_cons_self with hquiet | ⟨u, hu⟩
    · refine ⟨updates, ?_⟩
      rw [told_cons, told_of_quiet (List.forall_mem_singleton.2 hquiet), hts]
      rfl
    · refine ⟨u :: updates, ?_⟩
      rw [told_cons, told_of_handed hu (Update.hasMethod_message u), hts]
      rfl

/-- The traffic of a connection while the client runs on it. -/
inductive Running : List Traffic → Prop
  | mk {ts us : List Traffic} (hts : Greeting 1 ts) (hus : ∀ t ∈ us, t.IsBusy) : Running (ts ++ us)

/-- The traffic of a connection of the past. -/
inductive Past : List Traffic → Prop
  | refused {ts : List Traffic} (hts : Attempt 1 ts) : Past ts
  | ended {ts us : List Traffic} (hts : Running ts) (hus : Farewell 2 us) : Past (ts ++ us)

theorem Running.append {ts us : List Traffic} (h : Running ts) (hus : ∀ t ∈ us, t.IsBusy) :
    Running (ts ++ us) := by
  obtain ⟨hts, hvs⟩ := h
  rw [List.append_assoc]
  refine .mk hts fun t ht => ?_
  rcases List.mem_append.1 ht with ht | ht
  · exact hvs t ht
  · exact hus t ht

/-- A connection that the client loses is one of the past. -/
theorem Running.past {ts : List Traffic} (h : Running ts) : Past ts := by
  simpa using Past.ended h .silent

end Traffic

namespace Traffic

/-- Neither of the two notifications that wait for an answer is about documents. -/
theorem not_mem_updates {m : Json} (h : m = initialized ∨ m = exit) (updates : List Update) :
    m ∉ updates.map Update.message := by
  intro hm
  obtain ⟨u, -, rfl⟩ := List.mem_map.1 hm
  rcases h with h | h <;> cases u <;>
    simp [Update.message, initialized, exit, notificationOf] at h

/-- The handshake is over only after the server granted it. -/
theorem initialized_after_answer {ts : List Traffic} (us : List Traffic) (h : Greeting 1 ts) :
    ∃ params, told ts = [requestOf 1 "initialize" params, initialized] ∧
      AnsweredBefore (ts ++ us) initialized (requestOf 1 "initialize" params) fun answer =>
        isResponse 1 answer = true ∧ answer.get? "error" = none := by
  obtain ⟨hasked, hquiet, hanswer, hgranted, htold, -⟩ := h
  rename_i asked told' quiet answer params
  have hfirst : told [asked] = [requestOf 1 "initialize" params] := told_of_handed hasked rfl
  refine ⟨params, ?_, ?_⟩
  · rw [told_cons, hfirst, told_append, told_of_quiet hquiet, told_cons, told_received,
      told_of_handed htold rfl]
    rfl
  · have hbefore : initialized ∉ told ([] ++ asked :: (quiet ++ [received (.message answer)])) := by
      rw [List.nil_append, told_cons, hfirst, told_append, told_of_quiet hquiet, told_received]
      simp [initialized, requestOf, notificationOf]
    rw [List.cons_append, List.append_assoc]
    exact answeredBefore_of_prefix (told' :: us) rfl hasked ⟨hanswer, hgranted⟩ hbefore

/-- The server is told to exit only after it answered the request to shut down. -/
theorem exit_after_answer {ts us : List Traffic} (hts : exit ∉ told ts) (h : Farewell 2 us) :
    AnsweredBefore (ts ++ us) exit (requestOf 2 "shutdown" .null) fun answer =>
      isResponse 2 answer = true ∧ isResponse 1 answer = false := by
  cases h with
  | silent => exact answeredBefore_of_not_told rfl (by simpa using hts)
  | @asked asked quiet hasked hquiet =>
    refine answeredBefore_of_not_told rfl ?_
    rw [told_append, told_cons, told_of_handed hasked rfl, told_of_quiet hquiet, List.mem_append,
      not_or]
    exact ⟨hts, by simp [exit, requestOf, notificationOf]⟩
  | @answered asked told' quiet answer hasked hquiet hanswer htold =>
    refine answeredBefore_of_prefix [told'] rfl hasked
      ⟨hanswer, Connection.isResponse_unique (by decide) hanswer⟩ ?_
    rw [told_append, told_cons, told_of_handed hasked rfl, told_append, told_of_quiet hquiet,
      told_received, List.mem_append, not_or]
    exact ⟨hts, by simp [exit, requestOf, notificationOf]⟩

end Traffic

/-- A connection of the past kept to the order of the protocol. -/
theorem Connection.inOrder_of_past {conn : Connection} (h : Traffic.Past conn.history)
    (hconn : conn.Faithful) : ∃ params updates, conn.InOrder 1 2 params updates := by
  have sent_of_told {ms : List Json} (hms : told conn.history <+: ms) :
      conn.sent.filter hasMethod <+: ms :=
    (hconn.sent.filter hasMethod).trans hms
  generalize hhistory : conn.history = ts at h
  cases h with
  | refused hts =>
    obtain ⟨params, htold⟩ := Traffic.told_attempt hts
    have hcourse : told conn.history <+: course 1 2 params [] := by
      rw [hhistory]
      exact htold.trans (List.prefix_append _ _)
    have habsent {m : Json} (hm : m ≠ requestOf 1 "initialize" params) :
        m ∉ told conn.history := by
      intro hmem
      rw [hhistory] at hmem
      exact hm (List.mem_singleton.1 (htold.subset hmem))
    exact ⟨params, [], by decide, sent_of_told hcourse, hcourse,
      answeredBefore_of_not_told rfl (habsent (by simp [initialized, requestOf, notificationOf])),
      answeredBefore_of_not_told rfl (habsent (by simp [exit, requestOf, notificationOf]))⟩
  | @ended _ farewell hrunning hfarewell =>
    obtain ⟨hgreeting, hbusy⟩ := hrunning
    rename_i greeting busy
    obtain ⟨params, hfirst, hinit⟩ :=
      Traffic.initialized_after_answer (busy ++ farewell) hgreeting
    obtain ⟨updates, hupdates⟩ := Traffic.told_busy hbusy
    have htold : told (greeting ++ busy) =
        [requestOf 1 "initialize" params, initialized] ++ updates.map Update.message := by
      rw [told_append, hfirst, hupdates]
    have hcourse : told conn.history <+: course 1 2 params updates := by
      rw [hhistory, told_append, htold, course]
      exact (List.prefix_append_right_inj _).2 (Traffic.told_farewell hfarewell)
    have hexit : exit ∉ told (greeting ++ busy) := by
      rw [htold, List.mem_append, not_or]
      exact ⟨by simp [initialized, exit, requestOf, notificationOf],
        Traffic.not_mem_updates (.inr rfl) updates⟩
    refine ⟨params, updates, by decide, sent_of_told hcourse, hcourse, ?_, ?_⟩
    · rw [hhistory, List.append_assoc]
      exact hinit
    · rw [hhistory]
      exact Traffic.exit_after_answer hexit hfarewell

namespace Client

/-- Every connection of the client kept to the order of the protocol. -/
structure KeepsOrder (c : Client) : Prop where
  current : ∀ k, c.connection = some k → Traffic.Running k.history ∧ k.nextId = 2 ∧ k.Faithful
  past : ∀ k ∈ c.retired, Traffic.Past k.history ∧ k.Faithful

/-- Going on busily keeps a running connection in order. -/
theorem current_of_continues {k k' : Connection} {ts : List Traffic}
    (h : Traffic.Running k.history ∧ k.nextId = 2 ∧ k.Faithful) (hk : k.Continues ts k')
    (hts : ∀ t ∈ ts, t.IsBusy) : Traffic.Running k'.history ∧ k'.nextId = 2 ∧ k'.Faithful := by
  obtain ⟨hrunning, hnext, hfaithful⟩ := h
  refine ⟨?_, hk.nextId.trans hnext, hk.faithful hfaithful⟩
  rw [hk.history]
  exact hrunning.append hts

theorem keepsOrder_turn (c c' : Client) (h : c.KeepsOrder) (hturn : Turn c c') :
    c'.KeepsOrder := by
  cases hturn with
  | arrived hc arrivals left =>
    refine ⟨?_, h.past⟩
    rintro _ ⟨⟩
    obtain ⟨hrunning, hnext, hfaithful⟩ := h.current _ hc
    exact ⟨hrunning, hnext, ⟨hfaithful.sent, hfaithful.alive⟩⟩
  | told u hc hk ht hu =>
    refine ⟨?_, h.past⟩
    rintro _ ⟨⟩
    refine current_of_continues (h.current _ hc) hk ?_
    intro t' ht'
    rw [List.mem_singleton.1 ht']
    exact .inr ⟨u, ht⟩
  | heard hc hk hquiet =>
    refine ⟨?_, by simpa using h.past⟩
    rintro _ ⟨⟩
    exact current_of_continues (h.current _ hc) hk fun t ht => .inl (hquiet t ht)
  | lost hc reason =>
    refine ⟨by rintro _ ⟨⟩, ?_⟩
    intro k hk
    rw [disconnect, retire, hc] at hk
    rcases List.mem_append.1 hk with hk | hk
    · exact h.past k hk
    · obtain rfl : k = _ := by simpa using hk
      obtain ⟨hrunning, -, hfaithful⟩ := h.current _ hc
      exact ⟨hrunning.past, hfaithful⟩
  | reported => exact ⟨h.current, h.past⟩

theorem keepsOrder_opens (c c' : Client) (h : c.KeepsOrder) (hopens : Opens c c') :
    c'.KeepsOrder := by
  cases hopens with
  | @refused o ts k hc hts hk =>
    refine ⟨h.current, ?_⟩
    intro k' hk'
    rcases List.mem_append.1 hk' with hk' | hk'
    · exact h.past k' hk'
    · obtain rfl := List.mem_singleton.1 hk'
      refine ⟨?_, hk.faithful (o.faithful_connection 2)⟩
      rw [hk.history]
      exact .refused hts
  | @attached o ts k info hc hts hk =>
    refine ⟨?_, by simpa using h.past⟩
    rintro _ ⟨⟩
    refine ⟨?_, hk.nextId, hk.faithful (o.faithful_connection 2)⟩
    rw [hk.history]
    simpa using Traffic.Running.mk hts (List.forall_mem_nil _)

theorem keepsOrder_stops (c c' : Client) (h : c.KeepsOrder) (hstops : Stops c c') :
    c'.KeepsOrder := by
  obtain ⟨hc, hts, hk⟩ := hstops
  refine ⟨by rintro _ ⟨⟩, ?_⟩
  intro k' hk'
  rcases List.mem_append.1 hk' with hk' | hk'
  · exact h.past k' hk'
  · obtain rfl := List.mem_singleton.1 hk'
    obtain ⟨hrunning, hnext, hfaithful⟩ := h.current _ hc
    refine ⟨?_, hk.faithful ⟨hfaithful.sent, hfaithful.alive⟩⟩
    rw [hnext] at hts
    rw [hk.history]
    exact .ended hrunning hts

theorem KeepsOrder.faithful {c : Client} (h : c.KeepsOrder) : ∀ conn ∈ c.connections,
    conn.Faithful := by
  intro conn hconn
  rcases List.mem_append.1 hconn with hpast | hcurrent
  · exact (h.past conn hpast).2
  · exact (h.current conn (Option.mem_toList.1 hcurrent)).2.2

theorem keepsOrder_run (id name : String) (host : Host) (server : ServerOptions)
    (options : ClientOptions) (workspace : Option String) (actions : List Action) :
    ((Client.new id name host server options workspace).run actions).KeepsOrder :=
  run_induction keepsOrder_turn keepsOrder_opens keepsOrder_stops
    ⟨by rintro _ ⟨⟩, by rintro _ ⟨⟩⟩ actions

/-- Every connection of every run keeps to the order of the protocol. -/
theorem inOrder_of_run (id name : String) (host : Host) (server : ServerOptions)
    (options : ClientOptions) (workspace : Option String) (actions : List Action)
    (conn : Connection)
    (hconn : conn ∈ ((Client.new id name host server options workspace).run actions).connections) :
    ∃ first last params updates, conn.InOrder first last params updates := by
  have hkeeps := keepsOrder_run id name host server options workspace actions
  refine ⟨1, 2, ?_⟩
  rcases List.mem_append.1 hconn with hpast | hcurrent
  · obtain ⟨hpast, hfaithful⟩ := hkeeps.past conn hpast
    exact Connection.inOrder_of_past hpast hfaithful
  · obtain ⟨hrunning, -, hfaithful⟩ := hkeeps.current conn (Option.mem_toList.1 hcurrent)
    exact Connection.inOrder_of_past hrunning.past hfaithful

/-- A client that goes the whole way, with a server that answers both requests. -/
theorem inOrder_of_full_course :
    let c := (Client.new "client" "Client" {} (ServerOptions.ofModule "server" none)
      ⟨[⟨none, none⟩], ⟨[]⟩, 1, 1⟩ none).run
        [.attach { inbound := [.message (responseOf 1 .null)] },
          .openDocument "file:///a.txt" "plaintext" 1 "",
          .arrive [.message (responseOf 2 .null)] none, .stop]
    c.connections.map (fun conn => (conn.sent.filter hasMethod).length) = [5] ∧
      ∀ conn ∈ c.connections, ∃ first last params updates, conn.InOrder first last params updates :=
  ⟨by decide, fun conn hconn => inOrder_of_run _ _ _ _ _ _ _ conn hconn⟩

end Client

end ColorMarks
