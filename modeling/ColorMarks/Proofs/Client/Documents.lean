import ColorMarks.Proofs.Client.Order
import Mathlib.Data.List.Forall2

/-!
# Documents over several connections

A client closes only documents that it holds for open, but the open documents outlive a connection that
is lost. So a server can be told to close a document that it was never asked to open: exactly if the
document was open when the connection began and is closed there before it is opened there.
-/

namespace ColorMarks

open ColorMarks.Frame (Arrival)
open Connection (requestOf notificationOf responseOf)
open Relation (ReflTransGen)

namespace Documents

/-- The document that a message of this method is about. -/
def subject? (method : String) (m : Json) : Option String :=
  if (m.get? "method").bind Json.asString? = some method then
    (((m.get? "params").bind (·.get? "textDocument")).bind (·.get? "uri")).bind Json.asString?
  else none

/-- Whether a message asks to open the document. -/
def opens (uri : String) (m : Json) : Bool := subject? "textDocument/didOpen" m == some uri

/-- Whether a message asks to close the document. -/
def closes (uri : String) (m : Json) : Bool := subject? "textDocument/didClose" m == some uri

/-- Every closing of the document is preceded by strictly more openings than closings. -/
def Balanced (uri : String) (ms : List Json) : Prop :=
  ∀ before m after, ms = before ++ m :: after → closes uri m = true →
    before.countP (closes uri) < before.countP (opens uri)

/-- The first message that opens or closes the document closes it. -/
def BeginsClosed (uri : String) (ms : List Json) : Prop :=
  ∃ before m after, ms = before ++ m :: after ∧ closes uri m = true ∧
    ∀ m' ∈ before, opens uri m' = false ∧ closes uri m' = false

/-- Whether the document is open after a message; one that is not open cannot be closed. -/
def track? (uri : String) (isOpen : Bool) (m : Json) : Option Bool :=
  if opens uri m then some true
  else if closes uri m then if isOpen then some false else none
  else some isOpen

/-- Whether the document is open after some messages. -/
def trackAll? (uri : String) : Bool → List Json → Option Bool
  | isOpen, [] => some isOpen
  | isOpen, m :: ms => (track? uri isOpen m).bind fun isOpen => trackAll? uri isOpen ms

theorem closes_of_opens {uri : String} {m : Json} (h : opens uri m = true) :
    closes uri m = false := by
  simp only [opens, subject?, beq_iff_eq] at h
  split at h
  · rename_i hmethod
    simp [closes, subject?, hmethod]
  · cases h

theorem trackAll?_append (uri : String) (isOpen : Bool) (ms ns : List Json) :
    trackAll? uri isOpen (ms ++ ns) =
      (trackAll? uri isOpen ms).bind fun isOpen => trackAll? uri isOpen ns := by
  induction ms generalizing isOpen with
  | nil => rfl
  | cons m ms ih =>
    cases h : track? uri isOpen m with
    | none => simp [trackAll?, h]
    | some isOpen' => simp [trackAll?, h, ih]

/-- What can be tracked to the end can be tracked up to any message. -/
theorem trackAll?_of_prefix {uri : String} {isOpen isOpen' : Bool} {ms ns : List Json}
    (hms : ms <+: ns) (h : trackAll? uri isOpen ns = some isOpen') :
    ∃ now, trackAll? uri isOpen ms = some now := by
  obtain ⟨rest, rfl⟩ := hms
  rw [trackAll?_append] at h
  obtain ⟨now, hnow, -⟩ := Option.bind_eq_some_iff.1 h
  exact ⟨now, hnow⟩

/-- A document that was open to begin with can be closed once more than it is opened. -/
theorem countP_lt_of_trackAll? {uri : String} {isOpen isOpen' : Bool} {before after : List Json}
    {m : Json} (h : trackAll? uri isOpen (before ++ m :: after) = some isOpen')
    (hm : closes uri m = true) :
    before.countP (closes uri) < before.countP (opens uri) + isOpen.toNat := by
  induction before generalizing isOpen with
  | nil =>
    have hopens : opens uri m = false := by
      cases ho : opens uri m with
      | false => rfl
      | true => rw [closes_of_opens ho] at hm; cases hm
    cases isOpen with
    | true => simp
    | false => simp [trackAll?, track?, hopens, hm] at h
  | cons m' before ih =>
    rw [List.cons_append, trackAll?] at h
    obtain ⟨next, hnext, hrest⟩ := Option.bind_eq_some_iff.1 h
    have hcount := ih hrest
    unfold track? at hnext
    by_cases ho : opens uri m' = true
    · rw [if_pos ho] at hnext
      obtain rfl : true = next := Option.some.inj hnext
      rw [List.countP_cons_of_pos ho,
        List.countP_cons_of_neg (by simp [closes_of_opens ho])]
      simp only [Bool.toNat_true] at hcount
      omega
    · rw [if_neg ho] at hnext
      rw [List.countP_cons_of_neg ho]
      by_cases hcl : closes uri m' = true
      · rw [if_pos hcl] at hnext
        rw [List.countP_cons_of_pos hcl]
        cases isOpen with
        | false => cases hnext
        | true =>
          obtain rfl : false = next := Option.some.inj hnext
          simpa using hcount
      · rw [if_neg hcl] at hnext
        obtain rfl := Option.some.inj hnext
        rw [List.countP_cons_of_neg hcl]
        exact hcount

/-- Messages that do not close the document first can be tracked as if it were not open. -/
theorem trackAll?_of_not_beginsClosed {uri : String} {isOpen isOpen' : Bool} {ms : List Json}
    (h : trackAll? uri isOpen ms = some isOpen') (hms : ¬ BeginsClosed uri ms) :
    ∃ now, trackAll? uri false ms = some now := by
  induction ms generalizing isOpen with
  | nil => exact ⟨false, rfl⟩
  | cons m ms ih =>
    rw [trackAll?] at h
    obtain ⟨next, hnext, hrest⟩ := Option.bind_eq_some_iff.1 h
    by_cases ho : opens uri m = true
    · have htrack (b : Bool) : track? uri b m = some true := by rw [track?, if_pos ho]
      rw [htrack] at hnext
      obtain rfl := Option.some.inj hnext
      exact ⟨isOpen', by rw [trackAll?, htrack]; exact hrest⟩
    · have hcl : closes uri m = false := by
        cases hcl : closes uri m with
        | false => rfl
        | true => exact absurd ⟨[], m, ms, rfl, hcl, by simp⟩ hms
      have htrack (b : Bool) : track? uri b m = some b := by simp [track?, ho, hcl]
      rw [htrack] at hnext
      obtain rfl := Option.some.inj hnext
      have hlater : ¬ BeginsClosed uri ms := by
        rintro ⟨before, m', after, rfl, hm', hbefore⟩
        refine hms ⟨m :: before, m', after, rfl, hm', ?_⟩
        intro m'' hm''
        rcases List.mem_cons.1 hm'' with rfl | hm''
        · exact ⟨by simpa using ho, hcl⟩
        · exact hbefore m'' hm''
      obtain ⟨now, hnow⟩ := ih hrest hlater
      exact ⟨now, by rw [trackAll?, htrack]; exact hnow⟩

/-- Only a document that was open to begin with can be closed first. -/
theorem eq_true_of_beginsClosed {uri : String} {isOpen isOpen' : Bool} {ms : List Json}
    (h : trackAll? uri isOpen ms = some isOpen') (hms : BeginsClosed uri ms) : isOpen = true := by
  obtain ⟨before, m, after, rfl, hm, hbefore⟩ := hms
  have hcount := countP_lt_of_trackAll? h hm
  cases isOpen with
  | true => rfl
  | false =>
    have hopens : before.countP (opens uri) = 0 := by
      rw [List.countP_eq_zero]
      intro m' hm'
      simp [(hbefore m' hm').1]
    rw [hopens] at hcount
    simp at hcount

/-- A document that is closed first is closed once too often. -/
theorem not_balanced_of_beginsClosed {uri : String} {ms : List Json} (h : BeginsClosed uri ms) :
    ¬ Balanced uri ms := by
  obtain ⟨before, m, after, hms, hm, hbefore⟩ := h
  intro hbalanced
  have hlt := hbalanced before m after hms hm
  have hopens : before.countP (opens uri) = 0 := by
    rw [List.countP_eq_zero]
    intro m' hm'
    simp [(hbefore m' hm').1]
  omega

/-- Messages that can be tracked are balanced unless the document is carried over and closed first. -/
theorem balanced_iff {uri : String} {isOpen isOpen' : Bool} {ms : List Json}
    (h : trackAll? uri isOpen ms = some isOpen') :
    Balanced uri ms ↔ ¬ (isOpen = true ∧ BeginsClosed uri ms) := by
  constructor
  · rintro hbalanced ⟨-, hms⟩
    exact not_balanced_of_beginsClosed hms hbalanced
  · intro hcarried before m after hms hm
    have hfirst : ¬ BeginsClosed uri ms := fun hms =>
      hcarried ⟨eq_true_of_beginsClosed h hms, hms⟩
    obtain ⟨now, hnow⟩ := trackAll?_of_not_beginsClosed h hfirst
    rw [hms] at hnow
    simpa using countP_lt_of_trackAll? hnow hm

/-! ## The messages of a client -/

@[simp] theorem track?_responseOf (uri : String) (isOpen : Bool) (id : Nat) (result : Json) :
    track? uri isOpen (responseOf id result) = some isOpen := rfl

/-- The requests of a client and its notifications that are not updates concern no document. -/
theorem track?_of_method {uri : String} {isOpen : Bool} {m : Json} {method : String}
    (hm : m.get? "method" = some (.string method)) (hopen : method ≠ "textDocument/didOpen")
    (hclose : method ≠ "textDocument/didClose") : track? uri isOpen m = some isOpen := by
  simp [track?, opens, closes, subject?, hm, Json.asString?, hopen, hclose]

@[simp] theorem opens_opened (uri uri' language text : String) (version : Int) :
    opens uri (Update.opened uri' language version text).message = (uri' == uri) := rfl

@[simp] theorem closes_opened (uri uri' language text : String) (version : Int) :
    closes uri (Update.opened uri' language version text).message = false := rfl

@[simp] theorem opens_closed (uri uri' : String) :
    opens uri (Update.closed uri').message = false := rfl

@[simp] theorem closes_closed (uri uri' : String) :
    closes uri (Update.closed uri').message = (uri' == uri) := rfl

/-- An update that is allowed changes the open documents as it tells. -/
theorem track?_update (u : Update) {docs : List String} (h : u.Allowed docs) (uri : String) :
    track? uri (docs.contains uri) u.message = some ((u.apply docs).contains uri) := by
  cases u with
  | opened uri' language version text =>
    rw [track?, opens_opened, closes_opened, Update.apply]
    by_cases heq : uri' = uri
    · subst heq
      by_cases hd : uri' ∈ docs <;> simp [hd]
    · by_cases hd : uri' ∈ docs <;> simp [heq, hd, Ne.symm heq]
  | closed uri' =>
    have hmem : uri' ∈ docs := h
    rw [track?, opens_closed, closes_closed, Update.apply]
    by_cases heq : uri' = uri
    · subst heq
      simp [hmem]
    · simp [heq, Ne.symm heq]
  | changed uri' change => exact track?_of_method rfl (by decide) (by decide)

/-- What concerns no document. -/
def IsIdle (t : Traffic) : Prop :=
  ∀ m, t.handed? = some m → ∀ uri isOpen, track? uri isOpen m = some isOpen

theorem isIdle_of_quiet {t : Traffic} (h : t.IsQuiet) : IsIdle t := by
  intro m hm uri isOpen
  rcases h with hnone | ⟨id, result, hreply⟩
  · rw [hnone] at hm
    cases hm
  · rw [hreply] at hm
    cases hm
    exact track?_responseOf uri isOpen id result

theorem isIdle_of_handed {t : Traffic} {m : Json} {method : String} (ht : t.handed? = some m)
    (hm : m.get? "method" = some (.string method)) (hopen : method ≠ "textDocument/didOpen")
    (hclose : method ≠ "textDocument/didClose") : IsIdle t := by
  intro m' hm' uri isOpen
  rw [ht] at hm'
  cases hm'
  exact track?_of_method hm hopen hclose

theorem isIdle_attempt {id : Nat} {ts : List Traffic} (h : Attempt id ts) : ∀ t ∈ ts, IsIdle t := by
  intro t ht
  cases h with
  | silent => cases ht
  | asked hasked hquiet =>
    rcases List.mem_cons.1 ht with rfl | ht
    · exact isIdle_of_handed hasked rfl (by decide) (by decide)
    · exact isIdle_of_quiet (hquiet t ht)

/-- A request, what is taken up to its answer, and a notification after it concern no document. -/
theorem isIdle_answered {asked told : Traffic} {quiet : List Traffic} {answer : Json}
    (hasked : IsIdle asked) (hquiet : ∀ t ∈ quiet, t.IsQuiet) (htold : IsIdle told) :
    ∀ t ∈ asked :: (quiet ++ [.received (.message answer), told]), IsIdle t := by
  intro t ht
  simp only [List.mem_cons, List.mem_append, List.not_mem_nil, or_false] at ht
  rcases ht with rfl | ht | rfl | rfl
  · exact hasked
  · exact isIdle_of_quiet (hquiet t ht)
  · exact isIdle_of_quiet (Traffic.isQuiet_received _)
  · exact htold

theorem isIdle_greeting {id : Nat} {ts : List Traffic} (h : Greeting id ts) :
    ∀ t ∈ ts, IsIdle t := by
  obtain ⟨hasked, hquiet, -, -, htold⟩ := h
  exact isIdle_answered (isIdle_of_handed hasked rfl (by decide) (by decide)) hquiet
    (isIdle_of_handed htold rfl (by decide) (by decide))

theorem isIdle_farewell {id : Nat} {ts : List Traffic} (h : Farewell id ts) :
    ∀ t ∈ ts, IsIdle t := by
  cases h with
  | silent => simp
  | asked hasked hquiet =>
    intro t ht
    rcases List.mem_cons.1 ht with rfl | ht
    · exact isIdle_of_handed hasked rfl (by decide) (by decide)
    · exact isIdle_of_quiet (hquiet t ht)
  | answered hasked hquiet _ htold =>
    exact isIdle_answered (isIdle_of_handed hasked rfl (by decide) (by decide)) hquiet
      (isIdle_of_handed htold rfl (by decide) (by decide))

/-- Idle traffic leaves documents as they are. -/
theorem trackAll?_of_idle {ts : List Traffic} (h : ∀ t ∈ ts, IsIdle t) (uri : String)
    (isOpen : Bool) : trackAll? uri isOpen (ts.filterMap Traffic.handed?) = some isOpen := by
  induction ts with
  | nil => rfl
  | cons t ts ih =>
    have hrest := ih fun t' ht' => h t' (List.mem_cons_of_mem t ht')
    cases ht : t.handed? with
    | none => rw [List.filterMap_cons_none ht, hrest]
    | some m =>
      rw [List.filterMap_cons_some ht, trackAll?, h t List.mem_cons_self m ht, Option.bind_some,
        hrest]

/-- The open documents went from `docs` to `now` on a connection. -/
def Follows (docs now : List String) (conn : Connection) : Prop :=
  ∀ uri, trackAll? uri (docs.contains uri) conn.handed = some (now.contains uri)

/-- Traffic that takes the open documents from `now` to `later`. -/
theorem Follows.continues {docs now later : List String} {c k : Connection} {ts : List Traffic}
    (h : Follows docs now c) (hk : k.history = c.history ++ ts)
    (hts : ∀ uri, trackAll? uri (now.contains uri) (ts.filterMap Traffic.handed?) =
      some (later.contains uri)) : Follows docs later k := by
  intro uri
  have hnow := h uri
  rw [Connection.handed] at hnow
  rw [Connection.handed, hk, List.filterMap_append, trackAll?_append, hnow, Option.bind_some,
    hts uri]

theorem Follows.idle {docs now : List String} {c k : Connection} {ts : List Traffic}
    (h : Follows docs now c) (hk : k.history = c.history ++ ts) (hts : ∀ t ∈ ts, IsIdle t) :
    Follows docs now k :=
  h.continues hk fun uri => trackAll?_of_idle hts uri _

/-- A connection of the past followed the open documents up to some of them. -/
def Followed (docs : List String) (conn : Connection) : Prop := ∃ now, Follows docs now conn

/-- On such a connection a document is balanced unless it is carried over and closed first. -/
theorem Followed.balanced_iff {docs : List String} {conn : Connection} (h : Followed docs conn)
    (uri : String) {ms : List Json} (hms : ms <+: conn.handed) :
    Balanced uri ms ↔ ¬ (uri ∈ docs ∧ BeginsClosed uri ms) := by
  obtain ⟨now, hnow⟩ := h
  obtain ⟨later, hlater⟩ := trackAll?_of_prefix hms (hnow uri)
  rw [Documents.balanced_iff hlater, List.contains_iff_mem]

end Documents

namespace Client

open Documents (Follows Followed Balanced BeginsClosed)

/-- The documents that were open when each connection of a run began. -/
def carried (c : Client) : List Action → List (List String)
  | [] => []
  | a :: actions =>
    (if c.connections.length < (c.act a).connections.length then [c.openDocuments] else []) ++
      (c.act a).carried actions

/-- The documents that each connection began with, and on the current one those open now. -/
structure Tracks (c : Client) (docs : List (List String)) : Prop where
  all : List.Forall₂ Followed docs c.connections
  current : ∀ k, c.connection = some k → ∃ ds d, docs = ds ++ [d] ∧
    List.Forall₂ Followed ds c.retired ∧ Follows d c.openDocuments k

theorem forall₂_concat {ds : List (List String)} {d : List String} {ks : List Connection}
    {k : Connection} (h : List.Forall₂ Followed ds ks) (hk : Followed d k) :
    List.Forall₂ Followed (ds ++ [d]) (ks ++ [k]) :=
  List.rel_append h (.cons hk .nil)

/-- A client whose current connection changed to one that follows the open documents. -/
theorem Tracks.of_current {c : Client} {k : Connection} {ds : List (List String)}
    {d : List String} (hc : c.connection = some k) (hds : List.Forall₂ Followed ds c.retired)
    (hk : Follows d c.openDocuments k) : c.Tracks (ds ++ [d]) where
  all := by
    rw [connections, hc]
    exact forall₂_concat hds ⟨_, hk⟩
  current := by
    intro k' hk'
    rw [hc] at hk'
    cases hk'
    exact ⟨ds, d, rfl, hds, hk⟩

/-- A turn keeps the connections and what they follow. -/
theorem tracks_turn {docs : List (List String)} {c c' : Client} (h : c.Tracks docs)
    (hturn : Turn c c') :
    c'.Tracks docs ∧ c'.connections.length = c.connections.length := by
  cases hturn with
  | arrived hc arrivals left =>
    obtain ⟨ds, d, rfl, hds, hk⟩ := h.current _ hc
    refine ⟨.of_current rfl hds (hk.idle (List.append_nil _).symm (List.forall_mem_nil _)), ?_⟩
    simp [connections, hc]
  | told u hc hk ht hu =>
    obtain ⟨ds, d, rfl, hds, hfollows⟩ := h.current _ hc
    refine ⟨.of_current rfl hds (hfollows.continues hk.history fun uri => ?_), ?_⟩
    · rw [List.filterMap_cons_some ht, List.filterMap_nil, Documents.trackAll?,
        Documents.track?_update u hu, Option.bind_some, Documents.trackAll?]
    · simp [connections, hc]
  | heard hc hk hquiet =>
    obtain ⟨ds, d, rfl, hds, hfollows⟩ := h.current _ hc
    refine ⟨.of_current rfl (by simpa using hds) ?_, ?_⟩
    · simpa using hfollows.idle hk.history fun t ht => Documents.isIdle_of_quiet (hquiet t ht)
    · simp [connections, hc]
  | lost hc reason =>
    refine ⟨⟨?_, by rintro _ ⟨⟩⟩, ?_⟩
    · simpa [disconnect, retire, connections, hc] using h.all
    · simp [disconnect, retire, connections, hc]
  | reported => exact ⟨⟨h.all, h.current⟩, rfl⟩

/-- A chain of turns keeps them too. -/
theorem tracks_turns {docs : List (List String)} {c c' : Client} (h : c.Tracks docs)
    (hturns : ReflTransGen Turn c c') :
    c'.Tracks docs ∧ c'.connections.length = c.connections.length := by
  induction hturns with
  | refl => exact ⟨h, rfl⟩
  | tail _ hturn ih =>
    obtain ⟨htracks, hlength⟩ := tracks_turn ih.1 hturn
    exact ⟨htracks, hlength.trans ih.2⟩

/-- A connection begins with the documents that are open. -/
theorem tracks_opens {docs : List (List String)} {c c' : Client} (h : c.Tracks docs)
    (hopens : Opens c c') :
    c'.Tracks (docs ++ [c.openDocuments]) ∧
      c.connections.length < c'.connections.length := by
  have fresh {ts : List Traffic} {k : Connection} (hk : k.history = ts)
      (hts : ∀ t ∈ ts, Documents.IsIdle t) : Follows c.openDocuments c.openDocuments k := by
    intro uri
    rw [Connection.handed, hk]
    exact Documents.trackAll?_of_idle hts uri _
  cases hopens with
  | refused hc hts hk =>
    have hall := h.all
    rw [connections, hc, Option.toList_none, List.append_nil] at hall
    refine ⟨⟨?_, ?_⟩, ?_⟩
    · rw [connections, hc, Option.toList_none, List.append_nil]
      exact forall₂_concat hall ⟨_, fresh hk.history (Documents.isIdle_attempt hts)⟩
    · intro k' hk'
      rw [hc] at hk'
      cases hk'
    · simp [connections, hc]
  | attached hc hts hk =>
    have hall := h.all
    rw [connections, hc, Option.toList_none, List.append_nil] at hall
    refine ⟨.of_current rfl (by simpa using hall) ?_, ?_⟩
    · simpa using fresh hk.history (Documents.isIdle_greeting hts)
    · simp [connections, hc]

theorem tracks_stops {docs : List (List String)} {c c' : Client} (h : c.Tracks docs)
    (hstops : Stops c c') :
    c'.Tracks docs ∧ c'.connections.length = c.connections.length := by
  obtain ⟨hc, hts, hk⟩ := hstops
  obtain ⟨ds, d, rfl, hds, hfollows⟩ := h.current _ hc
  refine ⟨⟨?_, by rintro _ ⟨⟩⟩, by simp [connections, hc]⟩
  rw [connections, Option.toList_none, List.append_nil]
  exact forall₂_concat hds ⟨_, hfollows.idle hk.history (Documents.isIdle_farewell hts)⟩

/-- Along a run each connection follows the open documents from those that it began with. -/
theorem tracks_run {docs : List (List String)} {c : Client} (h : c.Tracks docs)
    (actions : List Action) : (c.run actions).Tracks (docs ++ c.carried actions) := by
  induction actions generalizing c docs with
  | nil => simpa [carried] using h
  | cons a actions ih =>
    rw [run_cons, carried]
    rcases act_cases c a with hturns | hopens | ⟨-, hstops⟩
    · obtain ⟨htracks, hlength⟩ := tracks_turns h hturns
      rw [if_neg (by omega), List.nil_append]
      exact ih htracks
    · obtain ⟨htracks, hlength⟩ := tracks_opens h hopens
      rw [if_pos hlength, ← List.append_assoc]
      exact ih htracks
    · obtain ⟨htracks, hlength⟩ := tracks_stops h hstops
      rw [if_neg (by omega), List.nil_append]
      exact ih htracks

/--
On each connection of a run every closing of a document is preceded by more openings than closings,
exactly unless the document was open when the connection began and is closed there first.
-/
theorem balanced_iff_of_run (id name : String) (host : Host) (server : ServerOptions)
    (options : ClientOptions) (workspace : Option String) (actions : List Action) :
    let c := Client.new id name host server options workspace
    List.Forall₂ (fun docs conn => ∀ uri,
        (Balanced uri conn.sent ↔ ¬ (uri ∈ docs ∧ BeginsClosed uri conn.sent)) ∧
        (Balanced uri conn.handed ↔ ¬ (uri ∈ docs ∧ BeginsClosed uri conn.handed)))
      (c.carried actions) (c.run actions).connections := by
  intro c
  have htracks : (c.run actions).Tracks ([] ++ c.carried actions) :=
    tracks_run ⟨.nil, by rintro _ ⟨⟩⟩ actions
  have hfaithful : ∀ conn ∈ (c.run actions).connections, conn.Faithful :=
    (keepsOrder_run id name host server options workspace actions).faithful
  obtain ⟨hlength, hfollowed⟩ := List.forall₂_iff_zip.1 htracks.all
  refine List.forall₂_iff_zip.2 ⟨hlength, fun hmem uri => ?_⟩
  have hconn := hfaithful _ (List.of_mem_zip hmem).2
  exact ⟨(hfollowed hmem).balanced_iff uri hconn.sent,
    (hfollowed hmem).balanced_iff uri List.prefix_rfl⟩

/-- A document that was opened on a connection that got lost is closed on the next one. -/
theorem not_balanced_after_loss :
    let c := (Client.new "client" "Client" {} (ServerOptions.ofModule "server" none)
      ⟨[⟨none, none⟩], ⟨[]⟩, 1, 1⟩ none).run
        [.attach { inbound := [.message (responseOf 1 .null), .closed], partialFrame := none },
          .openDocument "file:///a.txt" "plaintext" 1 "", .poll,
          .attach { inbound := [.message (responseOf 1 .null)] }, .closeDocument "file:///a.txt"]
    ∃ conn ∈ c.connections, ¬ Balanced "file:///a.txt" conn.sent := by
  intro c
  have hlength : c.connections.length = 2 := by decide
  refine ⟨c.connections[1], List.getElem_mem _, Documents.not_balanced_of_beginsClosed ?_⟩
  refine ⟨c.connections[1].sent.take 2, (Update.closed "file:///a.txt").message, [], rfl, rfl, ?_⟩
  have hbegin : (c.connections[1].sent.take 2).all
      (fun m => !Documents.opens "file:///a.txt" m && !Documents.closes "file:///a.txt" m) =
      true := by
    rfl
  intro m hm
  simpa using List.all_eq_true.1 hbegin m hm

end Client

end ColorMarks
