import ColorMarks.Client.Basic
import ColorMarks.Proofs.Client.Traffic

/-!
# What the operations of a client do

The operations that begin and end a connection are described by the traffic that they add to it: a
handshake is a `Greeting` or an `Attempt` at one, and a shutdown is a `Farewell`. What a client notices
of traffic are the notifications among what was taken (`noticeAll`).
-/

namespace ColorMarks

open ColorMarks.Frame (Arrival)
open Connection (requestOf notificationOf isResponse)

/-- The notifications among what was taken. -/
def Traffic.notifications (ts : List Traffic) : List Notification :=
  ts.filterMap fun t => t.message?.bind Notification.ofJson?

@[simp] theorem Traffic.notifications_nil : Traffic.notifications [] = [] := rfl

@[simp] theorem Traffic.notifications_append (ts us : List Traffic) :
    Traffic.notifications (ts ++ us) = Traffic.notifications ts ++ Traffic.notifications us := by
  rw [notifications, notifications, notifications, List.filterMap_append]

/-- The beginning of a connection up to the notification that the handshake is over. -/
inductive Greeting (id : Nat) : List Traffic → Prop
  | mk {asked told : Traffic} {quiet : List Traffic} {answer params : Json}
      (hasked : asked.handed? = some (requestOf id "initialize" params))
      (hquiet : ∀ t ∈ quiet, t.IsQuiet)
      (hanswer : isResponse id answer = true) (hgranted : answer.get? "error" = none)
      (htold : told.handed? = some (notificationOf "initialized" (.object [])))
      (hwhole : ∀ t ∈ quiet, t.lossReason? = none) :
      Greeting id (asked :: (quiet ++ [.received (.message answer), told]))

/-- The beginning of a connection whose handshake failed. -/
inductive Attempt (id : Nat) : List Traffic → Prop
  | silent : Attempt id []
  | asked {asked : Traffic} {quiet : List Traffic} {params : Json}
      (hasked : asked.handed? = some (requestOf id "initialize" params))
      (hquiet : ∀ t ∈ quiet, t.IsQuiet) : Attempt id (asked :: quiet)

/-- The end of a connection that is shut down, as far as that goes. -/
inductive Farewell (id : Nat) : List Traffic → Prop
  | silent : Farewell id []
  | asked {asked : Traffic} {quiet : List Traffic}
      (hasked : asked.handed? = some (requestOf id "shutdown" .null))
      (hquiet : ∀ t ∈ quiet, t.IsQuiet) : Farewell id (asked :: quiet)
  | answered {asked told : Traffic} {quiet : List Traffic} {answer : Json}
      (hasked : asked.handed? = some (requestOf id "shutdown" .null))
      (hquiet : ∀ t ∈ quiet, t.IsQuiet) (hanswer : isResponse id answer = true)
      (htold : told.handed? = some (notificationOf "exit" .null)) :
      Farewell id (asked :: (quiet ++ [.received (.message answer), told]))

namespace Client

/-- The client after some notifications. -/
def noticeAll (c : Client) (ns : List Notification) : Client := ns.foldl notice c

@[simp] theorem noticeAll_nil (c : Client) : c.noticeAll [] = c := rfl

theorem noticeAll_append (c : Client) (ns ms : List Notification) :
    c.noticeAll (ns ++ ms) = (c.noticeAll ns).noticeAll ms := List.foldl_append

@[simp] theorem connection_notice (c : Client) (n : Notification) :
    (c.notice n).connection = c.connection := by cases n <;> rfl

@[simp] theorem retired_notice (c : Client) (n : Notification) :
    (c.notice n).retired = c.retired := by cases n <;> rfl

@[simp] theorem openDocuments_notice (c : Client) (n : Notification) :
    (c.notice n).openDocuments = c.openDocuments := by cases n <;> rfl

@[simp] theorem connection_noticeAll (c : Client) (ns : List Notification) :
    (c.noticeAll ns).connection = c.connection := by
  induction ns generalizing c with
  | nil => rfl
  | cons n ns ih => exact (ih (c.notice n)).trans (connection_notice c n)

@[simp] theorem retired_noticeAll (c : Client) (ns : List Notification) :
    (c.noticeAll ns).retired = c.retired := by
  induction ns generalizing c with
  | nil => rfl
  | cons n ns ih => exact (ih (c.notice n)).trans (retired_notice c n)

@[simp] theorem openDocuments_noticeAll (c : Client) (ns : List Notification) :
    (c.noticeAll ns).openDocuments = c.openDocuments := by
  induction ns generalizing c with
  | nil => rfl
  | cons n ns ih => exact (ih (c.notice n)).trans (openDocuments_notice c n)

theorem notice_with_connection (c : Client) (k : Option Connection) (n : Notification) :
    { c with connection := k }.notice n = { c.notice n with connection := k } := by
  cases n <;> rfl

theorem noticeAll_with_connection (c : Client) (k : Option Connection) (ns : List Notification) :
    { c with connection := k }.noticeAll ns = { c.noticeAll ns with connection := k } := by
  induction ns generalizing c with
  | nil => rfl
  | cons n ns ih =>
    show ({ c with connection := k }.notice n).noticeAll ns = _
    rw [notice_with_connection, ih]
    rfl

/-- The client after traffic that left its connection at `k`. -/
def heard (c : Client) (ts : List Traffic) (k : Connection) : Client :=
  { c.noticeAll (Traffic.notifications ts) with connection := some k }

@[simp] theorem connection_heard (c : Client) (ts : List Traffic) (k : Connection) :
    (c.heard ts k).connection = some k := rfl

@[simp] theorem retired_heard (c : Client) (ts : List Traffic) (k : Connection) :
    (c.heard ts k).retired = c.retired := retired_noticeAll c _

@[simp] theorem openDocuments_heard (c : Client) (ts : List Traffic) (k : Connection) :
    (c.heard ts k).openDocuments = c.openDocuments := openDocuments_noticeAll c _

/-! ## Which messages are notifications -/

/-- A request is no notification. -/
theorem ofJson?_of_isRequest {m : Json} (h : Connection.isRequest m = true) :
    Notification.ofJson? m = none := by
  have hid : (m.get? "id").isSome = true := by
    simp only [Connection.isRequest, Bool.and_eq_true] at h
    exact h.2
  rw [Notification.ofJson?, if_pos hid]

/-- A message without a method is no notification. -/
theorem ofJson?_of_isResponse {id : Nat} {m : Json} (h : isResponse id m = true) :
    Notification.ofJson? m = none := by
  have hm : m.get? "method" = none := by
    simp only [isResponse, Connection.hasMethod, Bool.and_eq_true, Bool.not_eq_true',
      Option.isSome_eq_false_iff, Option.isNone_iff_eq_none] at h
    exact h.1
  unfold Notification.ofJson?
  split
  · rfl
  · rw [hm]; rfl

/-- Replies are no notifications. -/
theorem notifications_of_handed {ts : List Traffic}
    (h : ∀ t ∈ ts, ∃ id result, t.handed? = some (Connection.responseOf id result)) :
    Traffic.notifications ts = [] := by
  rw [Traffic.notifications, List.filterMap_eq_nil_iff]
  intro t ht
  obtain ⟨id, result, hm⟩ := h t ht
  rw [Traffic.message?_of_handed? hm]
  rfl

/-- A message that is no request is noticed if it is a notification. -/
theorem handle_of_not_isRequest (c : Client) {m : Json} (h : Connection.isRequest m = false) :
    c.handle m = c.noticeAll (Notification.ofJson? m).toList := by
  unfold handle
  rw [if_neg (by simp [h])]
  cases Notification.ofJson? m <;> rfl

theorem drain_of_stopped {c : Client} (hc : c.connection = none) : c.drain = c := by
  rw [drain, hc]

/-! ## Sending, attaching and stopping -/

/-- The requests among some messages notify of nothing. -/
theorem filterMap_skipped (us : List Traffic) :
    ((us.filterMap Traffic.message?).filter fun m => !Connection.isRequest m).filterMap
      Notification.ofJson? = Traffic.notifications us := by
  rw [List.filterMap_filter, Traffic.notifications, List.filterMap_filterMap]
  congr 1
  funext t
  cases t.message? with
  | none => rfl
  | some m =>
    by_cases hm : Connection.isRequest m = true
    · simp [hm, ofJson?_of_isRequest hm]
    · simp [hm]

/-- A message with the replies to it tells what it is a notification of. -/
theorem notifications_received_cons (m : Json) {replies : List Traffic}
    (h : ∀ t ∈ replies, ∃ id result, t.handed? = some (Connection.responseOf id result)) :
    Traffic.notifications (.received (.message m) :: replies) = (Notification.ofJson? m).toList := by
  rw [← List.singleton_append, Traffic.notifications_append, notifications_of_handed h]
  cases hn : Notification.ofJson? m <;> simp [Traffic.notifications, hn]

/-- The loss of a connection tells nothing. -/
theorem notifications_of_loss {a : Arrival} {reason : String} (h : a.lossReason? = some reason) :
    Traffic.notifications [.received a] = [] := by
  cases a with
  | message m => cases h
  | failed text => rfl
  | closed => rfl

/-- A greeting tells what the messages before the answer tell. -/
theorem notifications_greeting {id : Nat} {asked told : Traffic} {us : List Traffic}
    {answer m m' : Json} (hasked : asked.handed? = some m) (htold : told.handed? = some m')
    (hanswer : isResponse id answer = true) :
    Traffic.notifications (asked :: (us ++ [.received (.message answer), told])) =
      Traffic.notifications us := by
  simp [Traffic.notifications, Traffic.message?_of_handed? hasked,
    Traffic.message?_of_handed? htold, ofJson?_of_isResponse hanswer]

/-- A handshake that succeeds is a greeting; one that fails gets no further than asking. -/
theorem handshake_spec (c : Client) (conn : Connection) :
    (∃ ts k e, c.handshake conn = (k, .error e) ∧ Attempt conn.nextId ts ∧
        { conn with nextId := conn.nextId + 1 }.Continues ts k) ∨
      ∃ ts k info early, c.handshake conn = (k, .ok (info, early)) ∧ Greeting conn.nextId ts ∧
        { conn with nextId := conn.nextId + 1 }.Continues ts k ∧
        early.filterMap Notification.ofJson? = Traffic.notifications ts ∧
        ∀ m ∈ early, Connection.isRequest m = false := by
  rcases Connection.request_spec conn "initialize" c.handshakeParams with
    ⟨asked, k₁, hrequest, hasked, hk₁⟩ | hrequest
  · obtain ⟨ts, hts, hquiet, hok⟩ :=
      Connection.await_spec k₁ conn.nextId c.options.handshakePatience
    rcases hawait : k₁.await conn.nextId c.options.handshakePatience with ⟨k₂, result⟩
    rw [hawait] at hts hok
    have hk₂ := hk₁.trans hts
    have hattempt : Attempt conn.nextId ([asked] ++ ts) := .asked hasked hquiet
    cases result with
    | error e =>
      refine .inl ⟨_, k₂, e, ?_, hattempt, hk₂⟩
      simp only [handshake, hrequest, hawait]
    | ok response =>
      obtain ⟨answer, early⟩ := response
      obtain ⟨hanswer, us, rfl, rfl, hwhole⟩ := hok answer early rfl
      cases hrefusal : refusal? answer with
      | some e =>
        refine .inl ⟨_, k₂, e, ?_, hattempt, hk₂⟩
        simp only [handshake, hrequest, hawait, hrefusal]
      | none =>
        have hgranted : answer.get? "error" = none := by simpa [refusal?] using hrefusal
        have hus : ∀ t ∈ us, t.IsQuiet := fun t ht => hquiet t (List.mem_append_left _ ht)
        rcases Connection.send_spec k₂ (notificationOf "initialized" (.object [])) with
          ⟨told, k₃, hsend, htold, hk₃⟩ | hsend
        · refine .inr ⟨_, k₃, ServerInfo.decode? ((answer.get? "result").getD .null),
            (us.filterMap Traffic.message?).filter fun m => !Connection.isRequest m, ?_,
            .mk hasked hus hanswer hgranted htold hwhole, ?_, ?_, ?_⟩
          · simp only [handshake, hrequest, hawait, hrefusal, Connection.notify, hsend,
              List.nil_append]
          · simpa using hk₂.trans hk₃
          · rw [filterMap_skipped, notifications_greeting hasked htold hanswer]
          · simp
        · refine .inl ⟨_, k₂, .writerStopped, ?_, hattempt, hk₂⟩
          simp only [handshake, hrequest, hawait, hrefusal, Connection.notify, hsend]
  · exact .inl ⟨[], _, .writerStopped, by simp only [handshake, hrequest], .silent, .refl _⟩

/-- A handshake that failed was an attempt. -/
theorem attempt_of_handshake {c : Client} {conn k : Connection} {e : IoError}
    (h : c.handshake conn = (k, .error e)) :
    ∃ ts, Attempt conn.nextId ts ∧ { conn with nextId := conn.nextId + 1 }.Continues ts k := by
  rcases handshake_spec c conn with
    ⟨ts, k', e', hshake, hts, hk⟩ | ⟨_, _, _, _, hshake, -, -, -, -⟩
  · rw [h] at hshake
    cases hshake
    exact ⟨ts, hts, hk⟩
  · rw [h] at hshake
    cases hshake

/-- A handshake that succeeded was a greeting, and hands back what came before the answer. -/
theorem greeting_of_handshake {c : Client} {conn k : Connection} {info : Option ServerInfo}
    {early : List Json} (h : c.handshake conn = (k, .ok (info, early))) :
    ∃ ts, Greeting conn.nextId ts ∧ { conn with nextId := conn.nextId + 1 }.Continues ts k ∧
      early.filterMap Notification.ofJson? = Traffic.notifications ts := by
  rcases handshake_spec c conn with
    ⟨_, _, _, hshake, -, -⟩ | ⟨ts, k', info', early', hshake, hts, hk, hearly, -⟩
  · rw [h] at hshake
    cases hshake
  · rw [h] at hshake
    cases hshake
    exact ⟨ts, hts, hk, hearly⟩

/-- Handling messages that are no requests is noticing them. -/
theorem foldl_handle (early : List Json) (c : Client)
    (h : ∀ m ∈ early, Connection.isRequest m = false) :
    early.foldl handle c = c.noticeAll (early.filterMap Notification.ofJson?) := by
  induction early generalizing c with
  | nil => rfl
  | cons m early ih =>
    rw [List.foldl_cons, handle_of_not_isRequest c (h m List.mem_cons_self),
      ih _ fun m' hm' => h m' (List.mem_cons_of_mem m hm'), ← noticeAll_append]
    cases hm : Notification.ofJson? m <;> simp [hm]

/-- A running client refuses to be attached. -/
theorem attach_of_running {c : Client} {k : Connection} (hc : c.connection = some k)
    (conn : Connection) : (c.attach conn).1 = c := by
  have hrunning : c.isRunning = true := by rw [isRunning, hc]; rfl
  simp [attach, hrunning]

/-- Shutting down asks, waits, and tells the server to exit after its answer only. -/
theorem shutdown_spec (conn : Connection) (patience : Nat) :
    ∃ ts, Farewell conn.nextId ts ∧
      { conn with nextId := conn.nextId + 1 }.Continues ts (conn.shutdown patience).1 := by
  rcases Connection.request_spec conn "shutdown" .null with
    ⟨asked, k₁, hrequest, hasked, hk₁⟩ | hrequest
  · obtain ⟨ts, hts, hquiet, hok⟩ := Connection.await_spec k₁ conn.nextId patience
    rcases hawait : k₁.await conn.nextId patience with ⟨k₂, result⟩
    rw [hawait] at hts hok
    have hk₂ := hk₁.trans hts
    have hfarewell : Farewell conn.nextId ([asked] ++ ts) := .asked hasked hquiet
    cases result with
    | error e => exact ⟨_, hfarewell, by simpa only [Connection.shutdown, hrequest, hawait] using hk₂⟩
    | ok response =>
      obtain ⟨answer, early⟩ := response
      obtain ⟨hanswer, us, rfl, rfl, -⟩ := hok answer early rfl
      have hus : ∀ t ∈ us, t.IsQuiet := fun t ht => hquiet t (List.mem_append_left _ ht)
      rcases Connection.send_spec k₂ (notificationOf "exit" .null) with
        ⟨told, k₃, hsend, htold, hk₃⟩ | hsend
      · refine ⟨_, .answered hasked hus hanswer htold, ?_⟩
        simp only [Connection.shutdown, hrequest, hawait, Connection.notify, hsend]
        simpa using hk₂.trans hk₃
      · refine ⟨_, hfarewell, ?_⟩
        simpa only [Connection.shutdown, hrequest, hawait, Connection.notify, hsend] using hk₂
  · exact ⟨[], .silent, by simpa only [Connection.shutdown, hrequest] using .refl _⟩

theorem stop_of_stopped {c : Client} (hc : c.connection = none) : c.stop.1 = c := by
  rw [stop, hc]

end Client

end ColorMarks
