import MarketFeed.Proofs.Connection.Exchange
import MarketFeed.Proofs.Connection.Replay

/-!
# Records that are sent again, in the outbox

The socket that opens queues the public records of an earlier connection. The private ones are left
to a call, which queues them in the step in which it is done: with its own login, or on a connection
that is logged in when its turn comes. No other step queues a record again.
-/

namespace MarketFeed

namespace Connection

lemma authenticated_takeRequest (connection : Connection) (request : Request) :
    (connection.takeRequest request).2.authenticated = connection.authenticated := by
  have htaking := connection.taking request
  generalize connection.takeRequest request = taken at htaking ⊢
  cases htaking with
  | sent => exact congrArg Ledger.authenticated (connection.ledger_ask request)
  | refused => rfl
  | joined => exact congrArg Ledger.authenticated (ledger_enter _ request)
  | added => exact congrArg Ledger.authenticated (ledger_ask _ request)

end Connection

namespace Call

/-- The call has done what it is for, or nobody has logged in by it. -/
def Concludes (call : Call) (connection : Connection) (advanced : Progress × Connection) : Prop :=
  (∃ middle, advanced = call.complete middle) ∨
    advanced.2.authenticated = connection.authenticated

lemma concludes_endTurn (call : Call) (connection : Connection) (result : Except Fault Unit) :
    call.Concludes connection (call.endTurn connection result) := by
  cases result with
  | error fault => exact .inr rfl
  | ok => exact .inl ⟨_, rfl⟩

lemma concludes_judge (login : Login) (call : Call) (waiter : Waiter) (connection : Connection) :
    call.Concludes connection (call.judge login waiter connection) := by
  unfold judge
  cases connection.registry.take waiter with
  | mk arrival taken =>
    cases arrival with
    | nothingYet => exact .inr rfl
    | delivery delivery =>
      exact call.concludes_endTurn
        { connection with registry := connection.registry.discard taken } _
    | _ => exact call.concludes_endTurn connection _

lemma concludes_logIn (adapter : Adapter) (call : Call) (connection : Connection) :
    call.Concludes connection (call.logIn adapter connection) := by
  unfold logIn
  cases connection.ready? with
  | none => exact .inr rfl
  | some ready =>
    cases ready with
    | error fault => exact call.concludes_endTurn connection _
    | ok =>
      cases adapter.login with
      | none => exact call.concludes_endTurn connection _
      | some login =>
        have htaken := connection.authenticated_takeRequest login.request
        dsimp only
        cases hr : connection.takeRequest login.request with
        | mk result taken =>
          rw [hr] at htaken
          cases result with
          | error fault =>
            exact (call.concludes_endTurn taken _).imp_right fun h => h.trans htaken
          | ok waiter =>
            exact (call.concludes_judge login waiter taken).imp_right fun h => h.trans htaken

lemma concludes_takeTurn (adapter : Adapter) (call : Call) (connection : Connection) :
    call.Concludes connection (call.takeTurn adapter connection) := by
  have hjoined : (call.joinQueue connection).authenticated = connection.authenticated := by
    unfold joinQueue
    split <;> rfl
  unfold takeTurn
  split
  · exact .inl ⟨_, rfl⟩
  · dsimp only
    split
    · exact (call.concludes_logIn adapter _).imp_right fun h => h.trans hjoined
    · exact .inr hjoined

lemma concludes_advance (adapter : Adapter) (call : Call) (connection : Connection) :
    call.Concludes connection (call.advance adapter connection) := by
  unfold advance
  cases call.stage with
  | awaitingTurn => exact call.concludes_takeTurn adapter connection
  | holdingTurn => exact call.concludes_logIn adapter connection
  | loggingIn waiter =>
    dsimp only
    cases adapter.login with
    | none => exact call.concludes_endTurn connection _
    | some login => exact call.concludes_judge login waiter connection
  | awaitingOpen =>
    dsimp only
    cases connection.ready? with
    | none => exact .inr rfl
    | some ready =>
      cases ready with
      | error fault => exact .inr rfl
      | ok =>
        dsimp only
        split
        · exact call.concludes_takeTurn adapter connection
        · exact .inl ⟨_, rfl⟩

end Call

namespace Station

variable {adapter : Adapter} {station : Station} {step : Step} {index : Nat} {call : Call}
  {records restored : List SubscriptionRecord}

/-- The call of this number waits to send records again, and is done with that when it goes on. -/
def Restores (adapter : Adapter) (station : Station) (index : Nat) : Prop :=
  ∃ call restored result, station.calls[index]? = some (.blocked call) ∧
    call.purpose = .restore restored ∧
    (station.after adapter (.advance index)).calls[index]? = some (.done (.ok result))

/-- What has become of a call that went on. -/
lemma getElem?_calls_advance (hcall : station.calls[index]? = some (.blocked call))
    (adapter : Adapter) : (station.after adapter (.advance index)).calls[index]? =
      some (call.advance adapter station.connection).1 := by
  rw [after_advance hcall]
  exact List.getElem?_set_self (List.getElem?_eq_some_iff.mp hcall).1

lemma connection_advance (hcall : station.calls[index]? = some (.blocked call))
    (adapter : Adapter) : (station.after adapter (.advance index)).connection =
      (call.advance adapter station.connection).2 := by
  rw [after_advance hcall]
  rfl

/-- The step in which a call is done with its records is the one that sends them again. -/
lemma resent_of_restores (hc : station.RestoresTaken records)
    (h : station.Restores adapter index) :
    station.resent adapter (.advance index) = records.filter (·.isPrivate) := by
  obtain ⟨call, restored, result, hcall, hp, hdone⟩ := h
  rw [getElem?_calls_advance hcall, Option.some.injEq] at hdone
  rw [resent_advance adapter hcall, hp, hdone]
  exact (hc call restored (List.mem_of_getElem? hcall) hp).1

lemma resent_of_not_restores (h : ¬ station.Restores adapter index) :
    station.resent adapter (.advance index) = [] := by
  rcases advance_idle adapter station index with ⟨call, hcall⟩ | ⟨-, hnone⟩
  · rw [resent_advance adapter hcall]
    split
    · rename_i restored result hp hdone
      have hcalls := (getElem?_calls_advance hcall adapter).trans (congrArg some hdone)
      exact absurd ⟨call, restored, result, hcall, hp, hcalls⟩ h
    · rfl
  · exact hnone

/-- By then the connection is logged in. -/
lemma authenticated_of_restores (hq : station.IsQuiet) (h : station.Restores adapter index) :
    (station.after adapter (.advance index)).connection.authenticated = true := by
  obtain ⟨call, restored, result, hcall, hp, hdone⟩ := h
  have hadvance : Call.Advance (.advance index) call station.connection _ _ :=
    Call.advance_cases (hq.waits hcall) adapter
  rw [getElem?_calls_advance hcall, Option.some.injEq] at hdone
  rw [connection_advance hcall]
  generalize call.advance adapter station.connection = advanced at hadvance hdone ⊢
  obtain ⟨progress, after⟩ := advanced
  subst hdone
  generalize hprogress : Progress.done (.ok result) = progress at hadvance
  cases hadvance with
  | waits => exact absurd hprogress (by simp)
  | fails => exact absurd hprogress (by simp)
  | @completes middle _ _ _ ha =>
    rw [hp] at ha
    have hlogin : middle.authenticated = true := ha rfl
    unfold Call.complete
    rw [hp]
    exact (congrArg Ledger.authenticated (middle.ledger_resend restored)).trans hlogin

lemma complete_restore (hp : call.purpose = .restore restored) (connection : Connection) :
    (call.complete connection).1 = .done (.ok none) := by
  unfold Call.complete
  rw [hp]

/-- A call whose turn comes on a connection that is logged in is done with its records. -/
lemma restores_of_turn (hcall : station.calls[index]? = some (.blocked call))
    (hp : call.purpose = .restore restored) (hs : call.stage = .awaitingTurn)
    (ha : station.connection.authenticated = true) (adapter : Adapter) :
    station.Restores adapter index := by
  refine ⟨call, restored, none, hcall, hp, ?_⟩
  have hadvance : call.advance adapter station.connection =
      call.complete (call.leaveQueue station.connection) := by
    unfold Call.advance Call.takeTurn
    rw [hs]
    exact if_pos ha
  rw [getElem?_calls_advance hcall, hadvance, complete_restore hp]

/-- So is a call that has logged in. -/
lemma restores_of_login (hcall : station.calls[index]? = some (.blocked call))
    (hp : call.purpose = .restore restored) (hn : station.connection.authenticated = false)
    (ha : (station.after adapter (.advance index)).connection.authenticated = true) :
    station.Restores adapter index := by
  refine ⟨call, restored, none, hcall, hp, ?_⟩
  rw [connection_advance hcall] at ha
  rcases call.concludes_advance adapter station.connection with ⟨middle, hmiddle⟩ | hsame
  · rw [getElem?_calls_advance hcall, hmiddle, complete_restore hp]
  · rw [hsame, hn] at ha
    exact absurd ha (by simp)

/-- All steps but two kinds queue what they have to say themselves. -/
lemma resent_eq_nil_of_other (ho : ∀ now, step = .opened now → station.connection.everOpened = true)
    (hr : ∀ index, step = .advance index → ¬ station.Restores adapter index) :
    station.resent adapter step = [] := by
  cases step with
  | opened now => exact if_pos (ho now rfl)
  | advance index => exact resent_of_not_restores (hr index rfl)
  | _ => rfl

end Station

end MarketFeed
