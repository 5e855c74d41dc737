import ColorMarks.Proofs.Client.Recall
import ColorMarks.Proofs.Diagnostic.Decoding

/-!
# Publications that are malformed

A payload of findings without an address tells nothing, and a client does nothing about it. One that has an
address, but no array of findings, is read as if it had no findings (`ofMethod?_of_malformed`): then the
client forgets the document, counts it as published, and reports so (`handle_of_malformed`).
-/

namespace ColorMarks

namespace Json

/-- The payload of a message, null if there is none. -/
def payload (m : Json) : Json := (m.get? "params").getD .null

/-- The address in a payload, if it is a text. -/
def address? (params : Json) : Option String := (params.get? "uri").bind asString?

/-- The addresses in the payloads of some messages. -/
def addresses (ms : List Json) : List String := ms.filterMap fun m => m.payload.address?

/-- A payload of findings without an address or without an array of items. -/
def IsMalformed (params : Json) : Prop := ∀ items, ¬ params.Publishes items

/-- A notification of findings with a malformed payload. -/
structure IsMalformedPublication (m : Json) : Prop where
  anonymous : m.get? "id" = none
  method : m.get? "method" = some (.string publishMethod)
  malformed : m.payload.IsMalformed

theorem address?_eq_none_iff {params : Json} : params.address? = none ↔ ¬ params.HasString "uri" := by
  rw [Option.eq_none_iff_forall_ne_some, HasString, not_exists]
  exact forall_congr' fun uri => not_congr bind_asString?_eq_some_iff

theorem IsMalformedPublication.not_isRequest {m : Json} (h : m.IsMalformedPublication) :
    Connection.isRequest m = false := by
  rw [Connection.isRequest, h.anonymous, Option.isSome_none, Bool.and_false]

end Json

/-! ## Reading them -/

/-- A malformed payload is read as one without findings, if it has an address. -/
theorem Notification.ofMethod?_of_malformed {params : Json} (h : params.IsMalformed) :
    ∃ version, ofMethod? publishMethod params =
      params.address?.map fun uri => .publish ⟨uri, version, []⟩ := by
  rw [ofMethod?_publish]
  cases hp : Publication.decode? params with
  | none =>
    have hnone : params.address? = none := by
      rw [Json.address?_eq_none_iff, ← Publication.exists_reads_iff]
      rintro ⟨p, hreads⟩
      rw [Publication.decode?_eq_some_iff.2 hreads] at hp
      cases hp
    exact ⟨none, by rw [hnone]; rfl⟩
  | some p =>
    have hreads := Publication.decode?_eq_some_iff.1 hp
    have haddress : params.address? = some p.uri := Json.bind_asString?_eq_some_iff.2 hreads.uri
    have hnone : p.diagnostics = [] :=
      hreads.no_diagnostics fun items hitems => h items ⟨⟨p.uri, hreads.uri⟩, hitems⟩
    refine ⟨p.version, ?_⟩
    rw [haddress, Option.map_some, Option.map_some, ← hnone]

theorem Notification.ofJson?_of_malformed {m : Json} (h : m.IsMalformedPublication) :
    ∃ version, ofJson? m = m.payload.address?.map fun uri => .publish ⟨uri, version, []⟩ := by
  obtain ⟨version, hversion⟩ := ofMethod?_of_malformed h.malformed
  refine ⟨version, ?_⟩
  rw [← hversion, ofJson?, h.anonymous, h.method]
  rfl

namespace Client

/-! ## Forgetting documents -/

/-- The client after a document was published without findings. -/
def forget (c : Client) (uri : String) : Client := c.notice (.publish ⟨uri, none, []⟩)

/-- The client after some documents were published without findings, one after the other. -/
def forgetAll (c : Client) (uris : List String) : Client := uris.foldl forget c

theorem get?_forget (c : Client) (uri other : String) :
    (c.forget uri).store.get? other = if other = uri then none else c.store.get? other := by
  split
  · rename_i heq
    rw [heq]
    exact Ordered.lookup_erase_self uri c.store.entries
  · rename_i hne
    exact Ordered.lookup_erase_of_ne hne c.store.entries

theorem mem_published_forget (c : Client) (uri other : String) :
    other ∈ (c.forget uri).published ↔ other ∈ c.published ∨ other = uri := by
  show other ∈ (if c.published.contains uri then c.published else c.published ++ [uri]) ↔ _
  split
  · rename_i hold
    constructor
    · exact .inl
    · rintro (h | rfl)
      · exact h
      · exact List.contains_iff_mem.1 hold
  · rw [List.mem_append, List.mem_singleton]

theorem get?_forgetAll (c : Client) (uris : List String) (other : String) :
    (c.forgetAll uris).store.get? other = if other ∈ uris then none else c.store.get? other := by
  induction uris generalizing c with
  | nil => rfl
  | cons uri uris ih =>
    show ((c.forget uri).forgetAll uris).store.get? other = _
    rw [ih, get?_forget]
    by_cases hrest : other ∈ uris
    · rw [if_pos hrest, if_pos (List.mem_cons_of_mem uri hrest)]
    · simp only [if_neg hrest, List.mem_cons, or_iff_left hrest]

theorem mem_published_forgetAll (c : Client) (uris : List String) (other : String) :
    other ∈ (c.forgetAll uris).published ↔ other ∈ c.published ∨ other ∈ uris := by
  induction uris generalizing c with
  | nil => simp [forgetAll]
  | cons uri uris ih =>
    show other ∈ ((c.forget uri).forgetAll uris).published ↔ _
    rw [ih, mem_published_forget, List.mem_cons, or_assoc]

theorem pending_forgetAll (c : Client) (uris : List String) :
    (c.forgetAll uris).pending = c.pending ++ uris.map fun uri => .diagnostics uri 0 := by
  have hnotices : c.forgetAll uris =
      c.noticeAll (uris.map fun uri => .publish ⟨uri, none, []⟩) := by
    rw [noticeAll, List.foldl_map]
    rfl
  rw [hnotices, pending_noticeAll, List.map_map]
  rfl

/-- Forgetting touches nothing else. -/
theorem forgetAll_eq (c : Client) (uris : List String) :
    c.forgetAll uris = { c with
      store := (c.forgetAll uris).store
      published := (c.forgetAll uris).published
      pending := (c.forgetAll uris).pending } := by
  induction uris generalizing c with
  | nil => rfl
  | cons uri uris ih => exact ih (c.forget uri)

/-! ## Handling them -/

theorem handle_of_malformed (c : Client) {m : Json} (h : m.IsMalformedPublication) :
    c.handle m = c.forgetAll m.payload.address?.toList := by
  obtain ⟨version, hversion⟩ := Notification.ofJson?_of_malformed h
  rw [handle_of_not_isRequest c h.not_isRequest, hversion]
  cases m.payload.address? <;> rfl

/-- Malformed publications make the client forget the documents that they name, in their order. -/
theorem foldl_handle_of_malformed {ms : List Json} (hms : ∀ m ∈ ms, m.IsMalformedPublication)
    (c : Client) : ms.foldl handle c = c.forgetAll (Json.addresses ms) := by
  induction ms generalizing c with
  | nil => rfl
  | cons m ms ih =>
    obtain ⟨hm, hms⟩ := List.forall_mem_cons.1 hms
    rw [List.foldl_cons, ih hms, handle_of_malformed c hm]
    cases haddress : m.payload.address? <;> simp [Json.addresses, haddress, forgetAll]

/-- A client whose server sent malformed publications, and nothing else, reports what it forgot. -/
theorem poll_of_malformed {ms : List Json} (hms : ∀ m ∈ ms, m.IsMalformedPublication)
    {c : Client} {k : Connection} (hc : c.connection = some k) (hk : k.inbound = ms.map .message) :
    ∃ k', c.poll = ({ c.forgetAll (Json.addresses ms) with connection := some k', pending := [] },
      (c.forgetAll (Json.addresses ms)).pending) := by
  have hrequests : ∀ m ∈ ms, Connection.isRequest m = false := fun m hm => (hms m hm).not_isRequest
  obtain ⟨k', hdrainIn⟩ := drainIn_messages hrequests
    { c with connection := some { k with inbound := [] } } rfl rfl
  have hdrain : c.drain = { c.forgetAll (Json.addresses ms) with connection := some k' } := by
    rw [drain, hc]
    show drainIn k.inbound _ = _
    rw [hk, hdrainIn, noticeAll_with_connection, ← foldl_handle ms c hrequests,
      foldl_handle_of_malformed hms]
  refine ⟨k', ?_⟩
  show ({ c.drain with pending := [] }, c.drain.pending) = _
  rw [hdrain]

/-- A payload that is malformed is no notification exactly if it has no address. So malformed publications
change nothing exactly if none of them has one. A client forgets the documents that the others name, counts
them as published and reports each of them with no findings, whether it handles the messages or finds them
in its queue. -/
theorem forgets_by_malformed {ms : List Json} (hms : ∀ m ∈ ms, m.IsMalformedPublication)
    (c : Client) :
    let c' := ms.foldl handle c
    (∀ params : Json, params.IsMalformed →
        (Notification.ofMethod? publishMethod params = none ↔ ¬ params.HasString "uri")) ∧
      (c.KnowsSame c' ∧ c'.pending = c.pending ↔ ∀ m ∈ ms, ¬ m.payload.HasString "uri") ∧
      (∀ uri, uri ∈ Json.addresses ms ↔ ∃ m ∈ ms, m.payload.get? "uri" = some (.string uri)) ∧
      (∀ uri, c'.store.get? uri =
        if uri ∈ Json.addresses ms then none else c.store.get? uri) ∧
      (∀ uri, uri ∈ c'.published ↔ uri ∈ c.published ∨ uri ∈ Json.addresses ms) ∧
      c'.pending = c.pending ++ (Json.addresses ms).map (fun uri => .diagnostics uri 0) ∧
      c' = { c with store := c'.store, published := c'.published, pending := c'.pending } ∧
      ∀ k, c.connection = some k → k.inbound = ms.map .message → ∃ k',
        c.poll = ({ c' with connection := some k', pending := [] }, c'.pending) := by
  intro c'
  have hc' : c' = c.forgetAll (Json.addresses ms) := foldl_handle_of_malformed hms c
  have hpending := pending_forgetAll c (Json.addresses ms)
  rw [hc']
  refine ⟨?_, ?_, ?_, get?_forgetAll c _, mem_published_forgetAll c _, hpending, forgetAll_eq c _,
    fun k hc hk => poll_of_malformed hms hc hk⟩
  · intro params hparams
    obtain ⟨version, hversion⟩ := Notification.ofMethod?_of_malformed hparams
    rw [hversion, Option.map_eq_none_iff, Json.address?_eq_none_iff]
  · have hnone : Json.addresses ms = [] ↔ ∀ m ∈ ms, ¬ m.payload.HasString "uri" := by
      simp only [Json.addresses, List.filterMap_eq_nil_iff, Json.address?_eq_none_iff]
    rw [← hnone]
    constructor
    · rintro ⟨-, hsame⟩
      rwa [hpending, List.append_right_eq_self, List.map_eq_nil_iff] at hsame
    · intro haddresses
      rw [haddresses]
      exact ⟨⟨rfl, rfl⟩, rfl⟩
  · intro uri
    simp only [Json.addresses, List.mem_filterMap, Json.address?, Json.bind_asString?_eq_some_iff]

/-- A payload without an address changes nothing, and the two others each empty a document. -/
theorem forgets_by_malformed_mixed :
    let message (members : List (String × Json)) : Json :=
      Connection.notificationOf publishMethod (.object members)
    let ms := [message [("diagnostics", .array [])], message [("uri", .string "file:///a.txt")],
      message [("diagnostics", .null), ("uri", .string "file:///b.txt")]]
    let c : Client := { Client.new "client" "Client" {} (ServerOptions.ofModule "server" none)
      ⟨[⟨none, none⟩], ⟨[]⟩, 1, 1⟩ none with
        connection := some { inbound := ms.map .message }
        store := ⟨[("file:///a.txt", [⟨⟨⟨1, 0⟩, ⟨1, 4⟩⟩, none, none, none, "", []⟩])]⟩
        published := ["file:///a.txt"] }
    let c' := ms.foldl handle c
    c'.store.get? "file:///a.txt" = none ∧ "file:///b.txt" ∈ c'.published ∧
      c'.pending = [.diagnostics "file:///a.txt" 0, .diagnostics "file:///b.txt" 0] ∧
      (∃ k', c.poll = ({ c' with connection := some k', pending := [] }, c'.pending)) ∧
      (ms.take 1).foldl handle c = c := by
  intro message ms c c'
  have hms : ∀ m ∈ ms, m.IsMalformedPublication := by
    intro m hm
    simp only [ms, List.mem_cons, List.not_mem_nil, or_false] at hm
    rcases hm with rfl | rfl | rfl
    · exact ⟨rfl, rfl, by rintro items ⟨⟨uri, huri⟩, -⟩; cases huri⟩
    · exact ⟨rfl, rfl, by rintro items ⟨-, hitems⟩; cases hitems⟩
    · exact ⟨rfl, rfl, by rintro items ⟨-, hitems⟩; cases hitems⟩
  have hnamed : Json.addresses ms = ["file:///a.txt", "file:///b.txt"] := by decide
  obtain ⟨-, -, -, hstore, hpublished, hpending, -, hpoll⟩ := forgets_by_malformed hms c
  rw [hnamed] at hstore hpublished hpending
  refine ⟨hstore _, (hpublished _).2 (.inr (by decide)), hpending, hpoll _ rfl rfl, rfl⟩

/-- A server publishes first a finding for a document, and then a payload with the address alone. -/
theorem forgets_by_address_alone :
    let position : Json := .object [("line", .nat 1), ("character", .nat 0)]
    let finding : Json := .object [("range", .object [("start", position), ("end", position)])]
    let published : Json := Connection.notificationOf publishMethod
      (.object [("uri", .string "file:///a.txt"), ("diagnostics", .array [finding])])
    let params : Json := .object [("uri", .string "file:///a.txt")]
    let message := Connection.notificationOf publishMethod params
    let start := Client.new "client" "Client" {} (ServerOptions.ofModule "server" none)
      ⟨[⟨none, none⟩], ⟨[]⟩, 1, 1⟩ none
    let c := start.run [.attach { inbound := [.message (Connection.responseOf 1 .null),
      .message published] }, .poll]
    params.IsMalformed ∧ message.payload = params ∧ c.isRunning = true ∧
      Notification.ofMethod? publishMethod params ≠ none ∧
      (c.store.get? "file:///a.txt").isSome = true ∧
      (c.handle message).store.get? "file:///a.txt" = none ∧
      c.pending = [] ∧ (c.handle message).pending = [.diagnostics "file:///a.txt" 0] := by
  refine ⟨?_, rfl, rfl, by decide, by decide, by decide, by decide, by decide⟩
  rintro items ⟨-, hitems⟩
  cases hitems

end Client

end ColorMarks
