import ColorMarks.Proofs.Client.Effect

/-!
# What is published over a connection

A client heeds what is published over a connection if the handshake succeeded, even what came before the
end of the handshake (`Connection.publications`). A connection that goes on only adds to it.
-/

namespace ColorMarks

open Connection (notificationOf)

/-- The publication that a notification is. -/
def Notification.publication? : Notification → Option Publication
  | publish p => some p
  | _ => none

namespace Connection

/-- Whether the server was told that the handshake is over. -/
def greeted (conn : Connection) : Bool :=
  conn.handed.any fun m => (m.get? "method").bind Json.asString? == some "initialized"

/-- What the client heeds of what was published over a connection: nothing if the handshake failed. -/
def publications (conn : Connection) : List Publication :=
  if conn.greeted then
    (Traffic.notifications conn.history).filterMap Notification.publication?
  else []

/-- A server that was told once was told. -/
theorem greeted_of_history {c k : Connection} {ts : List Traffic} (hc : c.greeted = true)
    (hk : k.history = c.history ++ ts) : k.greeted = true := by
  rw [greeted, handed] at hc
  rw [greeted, handed, hk, List.filterMap_append, List.any_append, hc, Bool.true_or]

/-- Nothing is told after a handshake that failed. -/
theorem greeted_of_attempt {conn : Connection} {id : Nat} {ts : List Traffic} (h : Attempt id ts)
    (hconn : conn.history = ts) : conn.greeted = false := by
  rw [greeted, List.any_eq_false]
  intro m hm
  rw [handed, hconn] at hm
  obtain ⟨t, ht, hmt⟩ := List.mem_filterMap.1 hm
  cases h with
  | silent => cases ht
  | asked hasked hquiet =>
    rcases List.mem_cons.1 ht with rfl | ht
    · rw [hasked] at hmt
      cases hmt
      simp [Json.asString?]
    · rcases hquiet t ht with hnone | ⟨id', result, hreply⟩
      · rw [hnone] at hmt
        cases hmt
      · rw [hreply] at hmt
        cases hmt
        simp

theorem greeted_of_greeting {conn : Connection} {id : Nat} {ts : List Traffic} (h : Greeting id ts)
    (hconn : conn.history = ts) : conn.greeted = true := by
  rw [greeted, List.any_eq_true]
  obtain ⟨_, _, _, _, htold⟩ := h
  refine ⟨notificationOf "initialized" (.object []), ?_, rfl⟩
  rw [handed, hconn, List.mem_filterMap]
  exact ⟨_, by simp, htold⟩

/-- What is published over a connection that goes on comes after what was published before. -/
theorem publications_of_history {c k : Connection} {ts : List Traffic} (hc : c.greeted = true)
    (hk : k.history = c.history ++ ts) :
    k.greeted = true ∧ k.publications =
      c.publications ++ (Traffic.notifications ts).filterMap Notification.publication? := by
  have hgreeted := greeted_of_history hc hk
  refine ⟨hgreeted, ?_⟩
  rw [publications, publications, if_pos hc, if_pos hgreeted, hk, Traffic.notifications_append,
    List.filterMap_append]

/-- A handshake that failed is not followed by anything that counts. -/
theorem publications_of_attempt {conn : Connection} {id : Nat} {ts : List Traffic}
    (h : Attempt id ts) (hconn : conn.history = ts) : conn.publications = [] := by
  rw [publications, greeted_of_attempt h hconn]
  rfl

/-- After a handshake everything that was published counts. -/
theorem publications_of_greeting {conn : Connection} {id : Nat} {ts : List Traffic}
    (h : Greeting id ts) (hconn : conn.history = ts) :
    conn.publications = (Traffic.notifications ts).filterMap Notification.publication? := by
  rw [publications, if_pos (greeted_of_greeting h hconn), hconn]

end Connection

/-- An update is not a notification from the server. -/
theorem Traffic.notifications_told {t : Traffic} {m : Json} (h : t.handed? = some m) :
    notifications [t] = [] := by
  simp [notifications, message?_of_handed? h]

namespace Client

/-- What was published over the connections of a client and heeded, in order. -/
def publications (c : Client) : List Publication := c.connections.flatMap Connection.publications

end Client

end ColorMarks
