import ColorMarks.Proofs.Client.Effect
import ColorMarks.Server.Timeline

/-!
# What time brings to a client

However long something is waited for, and however often it is asked again, what the extension does in the
end is the same as if everything that was supplied meanwhile had arrived before (`act_spec`). So each step of
a timeline is an arrival and an action of the client, and the commands of the extension stay as they are.
-/

namespace ColorMarks

namespace Connection

/-- Something that does no more to a connection than let something arrive. -/
def IsSupply (f : Connection → Connection) : Prop :=
  ∀ k, ∃ arrivals left, f k = k.arrive arrivals left

theorem isSupply_id : IsSupply id := fun k => ⟨[], k.partialFrame, by simp [arrive]⟩

theorem isSupply_supply (bytes : List UInt8) (tail : Frame.Tail) :
    IsSupply fun k => k.supply bytes tail := fun k => k.supply_eq_arrive bytes tail

theorem IsSupply.supply {f : Connection → Connection} (h : IsSupply f) (bytes : List UInt8)
    (tail : Frame.Tail) : IsSupply fun k => (f k).supply bytes tail := by
  intro k
  obtain ⟨before, _, hbefore⟩ := h k
  obtain ⟨after, left, hafter⟩ := (f k).supply_eq_arrive bytes tail
  refine ⟨before ++ after, left, ?_⟩
  show (f k).supply bytes tail = _
  rw [hafter, hbefore]
  simp [arrive]

end Connection

open Client (Action)
open Connection (IsSupply isSupply_id isSupply_supply)

namespace Extension

/-- For the client of an extension, a supply is an arrival. -/
theorem mapConnection_eq (e : Extension) {f : Connection → Connection} (hf : IsSupply f) :
    ∃ arrivals left, e.mapConnection f =
      { e with client := e.client.act (.arrive arrivals left) } := by
  cases hc : e.client.connection with
  | none => exact ⟨[], none, by simp [mapConnection, Client.act, hc]⟩
  | some k =>
    obtain ⟨arrivals, left, hk⟩ := hf k
    exact ⟨arrivals, left, by simp [mapConnection, Client.act, hc, hk]⟩

end Extension

namespace Timeline

variable {α : Type}

/-- Asking again and again ends with the answer to what was supplied until then. -/
theorem askUntil_spec (deadline : Nat) (attempt : (Connection → Connection) → Extension × α)
    (isWaiting : Extension × α → Bool) (fuel : Nat) {supply : Connection → Connection}
    (hsupply : IsSupply supply) (run : ServerRun) (now : Nat) :
    ∃ supplied, IsSupply supplied ∧
      (askUntil deadline attempt isWaiting fuel supply run now).2.2 = attempt supplied := by
  induction fuel generalizing supply run now with
  | zero => exact ⟨supply, hsupply, rfl⟩
  | succ fuel ih =>
    unfold askUntil
    simp only
    split
    · split
      · exact ih (hsupply.supply _ _) _ _
      · exact ⟨supply, hsupply, rfl⟩
    · exact ⟨supply, hsupply, rfl⟩

theorem ask_spec (t : Timeline) (run : ServerRun) (patience : Nat)
    (attempt : (Connection → Connection) → Extension × α) (isWaiting : Extension × α → Bool) :
    ∃ supplied, IsSupply supplied ∧
      ((t.ask run patience attempt isWaiting).1.extension, (t.ask run patience attempt isWaiting).2) =
        attempt supplied := by
  obtain ⟨supplied, hsupplied, hanswer⟩ := askUntil_spec (t.now + patience) attempt isWaiting turns
    (isSupply_supply (run.takeUntil t.now).2.1 (run.takeUntil t.now).2.2) (run.takeUntil t.now).1 t.now
  exact ⟨supplied, hsupplied, hanswer⟩

/-- What the extension does, it does after everything that was supplied meanwhile. -/
theorem act_spec (t : Timeline) (patience : Nat) (f : Extension → Extension × α)
    (isWaiting : Extension × α → Bool) :
    ∃ arrivals left, ((t.act patience f isWaiting).1.extension, (t.act patience f isWaiting).2) =
      f { t.extension with client := t.extension.client.act (.arrive arrivals left) } := by
  unfold act
  cases t.run with
  | none =>
    obtain ⟨arrivals, left, hmap⟩ := t.extension.mapConnection_eq isSupply_id
    refine ⟨arrivals, left, ?_⟩
    rw [← hmap]
    simp [Extension.mapConnection]
  | some run =>
    obtain ⟨supplied, hsupplied, hanswer⟩ := t.ask_spec run patience
      (fun supply => f (t.extension.mapConnection supply)) isWaiting
    obtain ⟨arrivals, left, hmap⟩ := t.extension.mapConnection_eq hsupplied
    exact ⟨arrivals, left, by rw [hanswer, hmap]⟩

theorem openDocument_spec (t : Timeline) (uri language : String) (version : Int) (text : String) :
    ∃ arrivals left, (t.openDocument uri language version text).1.extension =
        { t.extension with
          client := t.extension.client.run
            [.arrive arrivals left, .openDocument uri language version text] } ∧
      (t.openDocument uri language version text).2 =
        ((t.extension.client.act (.arrive arrivals left)).openDocument uri language version text).2 := by
  obtain ⟨arrivals, left, hact⟩ := t.act_spec 0
    (withClient (·.openDocument uri language version text)) fun _ => false
  obtain ⟨hextension, hanswer⟩ := Prod.mk.inj hact
  exact ⟨arrivals, left, hextension, hanswer⟩

theorem waitForDiagnostics_spec (t : Timeline) (uri : String) (patience : Nat) :
    ∃ arrivals left, (t.waitForDiagnostics uri patience).1.extension =
      { t.extension with
        client := t.extension.client.run [.arrive arrivals left, .waitForDiagnostics uri] } := by
  obtain ⟨arrivals, left, hact⟩ := t.act_spec patience (withClient (·.waitForDiagnostics uri))
    fun answer => !answer.2 && answer.1.client.isRunning
  exact ⟨arrivals, left, (Prod.mk.inj hact).1⟩

/-- Starting over a server is starting over a connection on which something may have arrived. -/
theorem startOver_spec (t : Timeline) (mode : LaunchMode) (server : Server) :
    ∃ o, (t.startOver mode server).1.extension =
      { t.extension with client := t.extension.client.act (.start mode fun _ => .ok o) } := by
  obtain ⟨supplied, hsupplied, hanswer⟩ : ∃ supplied, IsSupply supplied ∧
      ((t.startOver mode server).1.extension, (t.startOver mode server).2) =
        withClient (·.start mode fun _ =>
          .ok (supplied { folders := t.extension.client.folders })) t.extension := by
    unfold startOver
    exact t.ask_spec _ _ _ _
  obtain ⟨arrivals, left, hconnection⟩ := hsupplied { folders := t.extension.client.folders }
  refine ⟨{ folders := t.extension.client.folders, inbound := arrivals, partialFrame := left }, ?_⟩
  have hextension := (Prod.mk.inj hanswer).1
  rw [hconnection] at hextension
  exact hextension

/-- Nothing more is heard of a server if its first output holds the answer. -/
theorem ask_of_answered {t : Timeline} {run run' : ServerRun} {patience : Nat}
    {attempt : (Connection → Connection) → Extension × α} {isWaiting : Extension × α → Bool}
    {bytes : List UInt8} {tail : Frame.Tail} (extension : Extension) (answer : α)
    (htaken : run.takeUntil t.now = (run', bytes, tail))
    (hattempt : (attempt fun k => k.supply bytes tail) = (extension, answer))
    (hanswer : isWaiting (extension, answer) = false) :
    t.ask run patience attempt isWaiting =
      ({ t with
        extension
        run := if extension.client.isRunning then some (run'.hear
          (((lastConnection extension.client).map Connection.sent).getD []) t.now) else none },
        answer) := by
  have honce : askUntil (t.now + patience) attempt isWaiting (9999 + 1) (fun k => k.supply bytes tail)
      run' t.now = (run'.hear (((lastConnection extension.client).map Connection.sent).getD []) t.now,
        t.now, extension, answer) := by
    rw [askUntil, hattempt]
    simp only [hanswer, Bool.false_eq_true, if_false]
  rw [ask, htaken]
  simp only [turns, honce]

end Timeline

/-! ## Runs in which nothing is polled -/

namespace Extension

/-- The extension after its client went through something, if nobody polled it meanwhile. -/
def Unpolled (e e' : Extension) : Prop :=
  ∃ actions, Action.poll ∉ actions ∧ e' = { e with client := e.client.run actions }

theorem Unpolled.refl (e : Extension) : e.Unpolled e := ⟨[], by simp, rfl⟩

theorem Unpolled.trans {e e' e'' : Extension} (h : e.Unpolled e') (h' : e'.Unpolled e'') :
    e.Unpolled e'' := by
  obtain ⟨actions, hpoll, rfl⟩ := h
  obtain ⟨actions', hpoll', rfl⟩ := h'
  refine ⟨actions ++ actions', ?_, ?_⟩
  · simp [hpoll, hpoll']
  · simp [Client.run]

end Extension

/-- Starting a client polls nothing, whether it succeeds or not. -/
theorem Timeline.start_spec (t : Timeline) (mode : LaunchMode) :
    t.extension.Unpolled (t.start mode).1.extension := by
  unfold start
  simp only
  split
  · exact .refl _
  · split
    · rename_i server _
      obtain ⟨o, hextension⟩ := startOver_spec { t with now := 0 } mode server
      exact ⟨[.start mode fun _ => .ok o], by simp, hextension⟩
    · exact .refl _

end ColorMarks
