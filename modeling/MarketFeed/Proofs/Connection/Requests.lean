import MarketFeed.Proofs.Connection.Ledger
import MarketFeed.Proofs.Connection.Orphans

/-!
# What a step does about requests

Of all steps on a connection only a few concern its requests: calls that go on, hashes that are
released, and the socket that opens. Before it opens nobody is logged in and nothing is recorded.
-/

namespace MarketFeed

namespace Station

variable {adapter : Adapter} {station : Station} {step : Step} {steps : List Step}
  {records : List SubscriptionRecord}

def ledger (station : Station) : Ledger := station.connection.ledger

/-- The records of an earlier connection whose requests a step sends again: the public ones when the
socket opens, the others when the call that restores them is done. -/
def resent (adapter : Adapter) (station : Station) : Step → List SubscriptionRecord
  | .opened _ =>
    if station.connection.everOpened then [] else station.connection.replay.filter (!·.isPrivate)
  | .advance index =>
    match station.calls[index]? with
    | some (.blocked call) =>
      match call.purpose, (call.advance adapter station.connection).1 with
      | .restore records, .done (.ok _) => records
      | _, _ => []
    | _ => []
  | _ => []

/-- Nobody has logged in before the socket has opened, and nobody is about to. -/
def IsQuiet (station : Station) : Prop :=
  station.connection.state = .connecting →
    station.connection.everOpened = false ∧ station.connection.authenticated = false ∧
      ∀ call, .blocked call ∈ station.calls → call.stage.isLoggingIn = false

/-- All that a step can do about requests. Private records are sent again by a call that has logged
in. -/
inductive RequestEffect (adapter : Adapter) (station : Station) (step : Step) : Ledger → Prop
  | served {middle : Ledger}
      (hl : Ledger.Leads station.connection.state step station.ledger middle)
      (ha : station.resent adapter step ≠ [] → middle.authenticated = true)
      (ho : ∀ now, step = .opened now → station.connection.everOpened = true) :
      RequestEffect adapter station step
        (middle.push (SubscriptionRecord.frames (station.resent adapter step)))
  | opened {now : Int} (hs : step = .opened now) (ho : station.connection.everOpened = false) :
      RequestEffect adapter station step
        { station.ledger.push (SubscriptionRecord.frames (station.resent adapter step)) with
          replay := []
          everOpened := true }

lemma RequestEffect.of_leads {after : Ledger} (hr : station.resent adapter step = [])
    (ho : ∀ now, step = .opened now → station.connection.everOpened = true)
    (hl : Ledger.Leads station.connection.state step station.ledger after) :
    RequestEffect adapter station step after := by
  have hserved : RequestEffect adapter station step
      (after.push (SubscriptionRecord.frames (station.resent adapter step))) :=
    .served hl (fun hne => absurd hr hne) ho
  rw [hr] at hserved
  exact after.push_nil ▸ hserved

lemma ledger_after (adapter : Adapter) (station : Station) (step : Step) :
    (station.after adapter step).ledger = (station.work adapter step).2.ledger := by
  unfold after
  cases hw : station.work adapter step with
  | mk fault worked =>
    cases fault with
    | none => rfl
    | some fault => exact worked.circuit.ledger_beginTeardown fault

/-- A call that is over, or that there is not, does nothing. -/
lemma advance_idle (adapter : Adapter) (station : Station) (index : Nat) :
    (∃ call, station.calls[index]? = some (.blocked call)) ∨
      station.after adapter (.advance index) = station ∧
        station.resent adapter (.advance index) = [] := by
  cases hcall : station.calls[index]? with
  | none => exact .inr ⟨by rw [after, work, hcall], by rw [resent, hcall]⟩
  | some progress =>
    cases progress with
    | blocked call => exact .inl ⟨call, rfl⟩
    | done result => exact .inr ⟨by rw [after, work, hcall], by rw [resent, hcall]⟩

lemma resent_advance {index : Nat} {call : Call} (adapter : Adapter)
    (hcall : station.calls[index]? = some (.blocked call)) :
    station.resent adapter (.advance index) =
      match call.purpose, (call.advance adapter station.connection).1 with
      | .restore records, .done (.ok _) => records
      | _, _ => [] := by
  rw [resent, hcall]

lemma IsQuiet.waits {index : Nat} {call : Call} (hq : station.IsQuiet)
    (hcall : station.calls[index]? = some (.blocked call)) : call.Waits station.connection :=
  fun hc => ⟨(hq hc).2.1, (hq hc).2.2 call (List.mem_of_getElem? hcall)⟩

lemma requestEffect_advance (hq : station.IsQuiet) (adapter : Adapter) (index : Nat) :
    RequestEffect adapter station (.advance index)
      (station.after adapter (.advance index)).ledger := by
  rcases advance_idle adapter station index with ⟨call, hcall⟩ | ⟨hsame, hnone⟩
  · have hadvance : Call.Advance (.advance index) call station.connection _ _ :=
      Call.advance_cases (hq.waits hcall) adapter
    have hresent := resent_advance adapter hcall
    rw [after_advance hcall]
    generalize call.advance adapter station.connection = advanced at hadvance hresent ⊢
    obtain ⟨progress, after⟩ := advanced
    dsimp only at hadvance hresent
    change RequestEffect adapter station (.advance index) after.ledger
    cases hadvance with
    | waits hl => exact .of_leads (by simp [hresent]) (by simp) hl
    | fails hl => exact .of_leads (by simp [hresent]) (by simp) hl
    | @completes middle hl hm hs ha =>
      unfold Call.complete at hresent ⊢
      cases hpurpose : call.purpose with
      | subscribe request =>
        rw [hpurpose] at hresent
        refine .of_leads hresent (by simp) (hl.trans ?_)
        exact hm ▸ Connection.leads_takeRequest (hm ▸ hs) _ request
      | authenticate =>
        rw [hpurpose] at hresent
        exact .of_leads hresent (by simp) hl
      | restore records =>
        rw [hpurpose] at hresent ha
        dsimp only at hresent ⊢
        rw [Connection.ledger_resend, ← hresent]
        exact .served hl (fun _ => ha rfl) (by simp)
  · rw [hsame]
    exact .of_leads hnone (by simp) .refl

/-- A socket that opens for the first time has the public records sent again. -/
lemma requestEffect_opened (adapter : Adapter) (station : Station) (now : Int) :
    RequestEffect adapter station (.opened now)
      (station.after adapter (.opened now)).ledger := by
  rw [ledger_after]
  change RequestEffect adapter station (.opened now)
    (station.circuit.opened now).2.connection.ledger
  cases ho : station.connection.everOpened with
  | true =>
    rw [Circuit.opened_of_everOpened _ _ ho]
    exact .of_leads (by rw [resent, if_pos ho]) (fun _ _ => ho) .refl
  | false =>
    have hresent : station.resent adapter (.opened now) =
        station.connection.replay.filter (!·.isPrivate) := by
      rw [resent, if_neg (by simp [ho])]
    rw [(station.circuit.opened_ledger now ho).1]
    exact hresent ▸ .opened rfl ho

lemma requestEffect_close (adapter : Adapter) (station : Station) :
    RequestEffect adapter station .close (station.after adapter .close).ledger := by
  rw [ledger_after]
  refine .of_leads rfl (by simp) ?_
  change Ledger.Leads _ _ _ station.circuit.sayClose.2.connection.ledger
  unfold Circuit.sayClose
  dsimp only
  split
  · rename_i hopen
    exact .single (.queued .close (.inl (of_decide_eq_true hopen)))
  · exact .refl

/-- Most steps are no business of the requests. -/
lemma requestEffect_of_quiet (hr : station.resent adapter step = [])
    (hn : ∀ now, step ≠ .opened now) (hl : (station.work adapter step).2.ledger = station.ledger) :
    RequestEffect adapter station step (station.after adapter step).ledger := by
  rw [ledger_after, hl]
  exact .of_leads hr (fun now hs => absurd hs (hn now)) .refl

lemma requestEffect (hq : station.IsQuiet) (adapter : Adapter) (step : Step) :
    RequestEffect adapter station step (station.after adapter step).ledger := by
  cases step with
  | advance index => exact requestEffect_advance hq adapter index
  | opened now => exact station.requestEffect_opened adapter now
  | unsubscribe hash =>
    rw [ledger_after]
    exact .of_leads rfl (by simp) (station.connection.leads_unsubscribe adapter rfl)
  | send frame =>
    rw [ledger_after]
    exact .of_leads rfl (by simp) (station.connection.leads_send _ frame)
  | close => exact station.requestEffect_close adapter
  | probe now =>
    rw [ledger_after]
    exact .of_leads rfl (by simp) (.single (.queued _ (.inr ⟨now, rfl⟩)))
  | finish =>
    refine requestEffect_of_quiet rfl (by simp) ?_
    rw [work]
    dsimp only
    split <;> rfl
  | dial delayed =>
    refine requestEffect_of_quiet rfl (by simp) ?_
    rw [work, Circuit.dial]
    dsimp only
    split <;> rfl
  | text now text =>
    exact requestEffect_of_quiet rfl (by simp) (station.circuit.ledger_takeText adapter now text)
  | bytes now bytes =>
    exact requestEffect_of_quiet rfl (by simp) (station.circuit.ledger_takeBytes adapter now bytes)
  | ping | fail | silence | begin | settle | drop | feed =>
    exact requestEffect_of_quiet rfl (by simp) rfl

/-! How a step changes the state, and what it leaves of the calls. -/

/-- Only a socket that opens leads to an open connection, and nothing leads back. -/
lemma state_after (adapter : Adapter) (station : Station) (ho : ∀ now, step ≠ .opened now) :
    (station.after adapter step).connection.state = station.connection.state ∨
      (station.after adapter step).connection.state.isLive = false := by
  by_cases hf : step = .finish
  · subst hf
    unfold after
    rw [work]
    dsimp only
    split
    · exact .inr rfl
    · exact .inl rfl
  · have hserves := (serves_work adapter station ho hf).connection.state
    unfold after
    cases hw : station.work adapter step with
    | mk fault worked =>
      rw [hw] at hserves
      cases fault with
      | none => exact .inl hserves
      | some fault =>
        dsimp only [Circuit.beginTeardown]
        split
        · exact .inl hserves
        · exact .inr rfl

lemma state_opened (adapter : Adapter) (station : Station) (now : Int) :
    (station.after adapter (.opened now)).connection.state =
      if station.connection.state = .connecting ∧ station.connection.everOpened = false
        then .opened else station.connection.state := by
  change (station.circuit.opened now).2.connection.state = _
  cases ho : station.connection.everOpened with
  | true =>
    rw [Circuit.opened_of_everOpened _ _ ho, if_neg (by simp)]
    rfl
  | false =>
    rw [(station.circuit.opened_ledger now ho).2.1]
    simp [connection]

lemma connecting_of_after
    (h : (station.after adapter step).connection.state = .connecting) :
    station.connection.state = .connecting ∧
      ∀ now, step = .opened now → station.connection.everOpened = true := by
  by_cases ho : ∃ now, step = .opened now
  · obtain ⟨now, rfl⟩ := ho
    rw [state_opened] at h
    split at h
    · exact absurd h (by simp)
    · rename_i hn
      refine ⟨h, fun _ _ => ?_⟩
      simpa [h] using hn
  · have ho : ∀ now, step ≠ .opened now := fun now hn => ho ⟨now, hn⟩
    rcases state_after adapter station ho with hsame | hdead
    · exact ⟨hsame.symm.trans h, fun now hn => absurd hn (ho now)⟩
    · rw [h] at hdead
      exact absurd hdead (by simp [Lifecycle.isLive])

lemma opened_of_after (h : (station.after adapter step).connection.state = .opened) :
    station.connection.state = .opened ∨
      station.connection.state = .connecting ∧ station.connection.everOpened = false ∧
        ∃ now, step = .opened now := by
  by_cases ho : ∃ now, step = .opened now
  · obtain ⟨now, rfl⟩ := ho
    rw [state_opened] at h
    split at h
    · rename_i hc
      exact .inr ⟨hc.1, hc.2, now, rfl⟩
    · exact .inl h
  · have ho : ∀ now, step ≠ .opened now := fun now hn => ho ⟨now, hn⟩
    rcases state_after adapter station ho with hsame | hdead
    · exact .inl (hsame.symm.trans h)
    · rw [h] at hdead
      exact absurd hdead (by simp [Lifecycle.isLive])

lemma calls_after (adapter : Adapter) (station : Station) (step : Step) :
    (station.after adapter step).calls = (station.work adapter step).2.calls := by
  unfold after
  cases station.work adapter step with
  | mk fault worked => cases fault <;> rfl

/-- The calls after a socket has opened: one more, if there are private records to be sent again and
the connection has not been closed. -/
lemma calls_opened (adapter : Adapter) (station : Station) (now : Int) :
    (station.after adapter (.opened now)).calls =
      if station.connection.state = .connecting ∧ station.connection.everOpened = false
        then withRestore station.calls (station.connection.replay.filter (·.isPrivate))
        else station.calls := by
  change withRestore station.calls (station.circuit.opened now).1 = _
  cases ho : station.connection.everOpened with
  | true =>
    rw [Circuit.opened_of_everOpened _ _ ho, if_neg (by simp)]
    rfl
  | false =>
    rw [(station.circuit.opened_ledger now ho).2.2]
    by_cases hc : station.circuit.connection.state = .connecting
    · rw [if_pos hc]
      exact (if_pos ⟨hc, rfl⟩).symm
    · rw [if_neg hc]
      exact (if_neg fun h => hc h.1).symm

/-- Where a call that waits comes from. -/
inductive Origin (adapter : Adapter) (station : Station) (step : Step) (call : Call) : Prop
  | kept (hm : .blocked call ∈ station.calls)
  | advanced {index : Nat} {before : Call} (hs : step = .advance index)
      (hb : station.calls[index]? = some (.blocked before)) (hp : call.purpose = before.purpose)
      (hw : station.connection.state = .connecting → call.stage.isLoggingIn = false)
  | begun {number : Nat} (hs : step = .begin call.purpose)
      (hc : call = .begin number call.purpose)
  | restoring {number : Nat} {now : Int} (hs : step = .opened now)
      (ho : station.connection.everOpened = false)
      (hc : call = .begin number
        (.restore (station.connection.replay.filter (·.isPrivate))))

lemma isLoggingIn_begin (number : Nat) (purpose : Purpose) :
    (Call.begin number purpose).stage.isLoggingIn = false := by
  cases purpose <;> rfl

lemma purpose_begin (number : Nat) (purpose : Purpose) :
    (Call.begin number purpose).purpose = purpose := by
  cases purpose <;> rfl

lemma origin (hq : station.IsQuiet) {call : Call}
    (h : .blocked call ∈ (station.after adapter step).calls) :
    Origin adapter station step call := by
  cases step with
  | advance index =>
    rcases advance_idle adapter station index with ⟨before, hbefore⟩ | ⟨hsame, -⟩
    · have hadvance : Call.Advance (.advance index) before station.connection _ _ :=
        Call.advance_cases (hq.waits hbefore) adapter
      rw [after_advance hbefore] at h
      rcases List.mem_or_eq_of_mem_set h with hm | heq
      · exact .kept hm
      · rw [← heq] at hadvance
        exact .advanced rfl hbefore hadvance.of_blocked.1 hadvance.of_blocked.2
    · exact .kept (hsame ▸ h)
  | opened now =>
    rw [calls_opened] at h
    split at h
    · rename_i hearly
      unfold withRestore at h
      split at h
      · exact .kept h
      · rcases List.mem_append.mp h with hm | hm
        · exact .kept hm
        · exact .restoring rfl hearly.2 (Progress.blocked.inj (List.mem_singleton.mp hm))
    · exact .kept h
  | begin purpose =>
    rcases List.mem_append.mp h with hm | hm
    · exact .kept hm
    · obtain rfl := Progress.blocked.inj (List.mem_singleton.mp hm)
      have hpurpose := purpose_begin station.calls.length purpose
      exact .begun (by rw [hpurpose]) (by rw [hpurpose])
  | finish =>
    rw [calls_after, work] at h
    dsimp only at h
    split at h
    · exact .kept h
    · exact .kept h
  | _ =>
    rw [calls_after] at h
    exact .kept h

lemma isQuiet_after (hq : station.IsQuiet) (adapter : Adapter) (step : Step) :
    (station.after adapter step).IsQuiet := by
  intro hc
  obtain ⟨hconnecting, hopened⟩ := connecting_of_after hc
  obtain ⟨heverOpened, hauthenticated, hcalls⟩ := hq hconnecting
  have heffect := requestEffect hq adapter step
  have hledger : (station.after adapter step).ledger.everOpened = false ∧
      (station.after adapter step).ledger.authenticated = false := by
    generalize (station.after adapter step).ledger = after at heffect
    cases heffect with
    | served hl =>
      rw [hconnecting] at hl
      exact ⟨hl.frame.1.trans heverOpened, hl.frame_of_connecting.2.trans hauthenticated⟩
    | opened hs =>
      have hearly := hopened _ hs
      rw [heverOpened] at hearly
      exact absurd hearly (by simp)
  refine ⟨hledger.1, hledger.2, fun call hm => ?_⟩
  cases origin hq hm with
  | kept hm => exact hcalls call hm
  | advanced _ _ _ hw => exact hw hconnecting
  | begun _ hb => rw [hb]; exact isLoggingIn_begin ..
  | restoring _ _ hb => rw [hb]; exact isLoggingIn_begin ..

/-- What is known of every connection from its beginning on. -/
structure TookOver (records : List SubscriptionRecord) (station : Station) : Prop where
  quiet : station.IsQuiet
  opened : station.connection.state = .opened → station.ledger.everOpened = true
  ledger : station.ledger.TookOver records

lemma tookOver_new (url : String) (settings : ConnectionSettings)
    (records : List SubscriptionRecord) (store : FeedStore) :
    (new url settings records store).TookOver records where
  quiet := fun _ => ⟨rfl, rfl, fun _ hm => absurd hm List.not_mem_nil⟩
  opened := fun ho => absurd ho (by simp [new, connection, Connection.new])
  ledger := by
    refine ⟨Subscriptions.numbered_restore _ records,
      Nat.le_of_eq (Subscriptions.nextSequence_restore_new _ records).symm, fun _ => rfl, ?_⟩
    rintro ⟨key, record⟩ hm -
    obtain ⟨source, hsource, -, hrecord⟩ := Subscriptions.exists_of_mem_restore hm
    refine ⟨source, hsource, ?_⟩
    dsimp only
    rw [hrecord]
    exact ⟨rfl, rfl, rfl⟩

lemma tookOver_after (h : station.TookOver records) (adapter : Adapter) (step : Step) :
    (station.after adapter step).TookOver records := by
  have heffect := requestEffect h.quiet adapter step
  refine ⟨isQuiet_after h.quiet adapter step, fun ho => ?_, ?_⟩
  · have hopened := opened_of_after ho
    generalize (station.after adapter step).ledger = after at heffect ⊢
    cases heffect with
    | opened => rfl
    | served hl _ hlate =>
      refine hl.frame.1.trans ?_
      rcases hopened with hopen | ⟨-, -, now, hnow⟩
      · exact h.opened hopen
      · exact hlate now hnow
  · generalize (station.after adapter step).ledger = after at heffect
    cases heffect with
    | served hl => exact (h.ledger.leads hl).push _
    | opened =>
      exact ⟨h.ledger.numbered, h.ledger.enough, fun he => absurd he (by simp), h.ledger.restored⟩

lemma tookOver_run (h : station.TookOver records) (adapter : Adapter) (steps : List Step) :
    (station.run adapter steps).TookOver records := by
  induction steps generalizing station with
  | nil => exact h
  | cons step rest ih => exact ih (tookOver_after h adapter step)

/-- What all the steps of a run keep holds after it. -/
lemma run_keeps {property : Station → Prop} (ht : station.TookOver records) (h : property station)
    (hsteps : ∀ step ∈ steps, ∀ reached : Station, reached.TookOver records → property reached →
      property (reached.after adapter step)) : property (station.run adapter steps) := by
  induction steps generalizing station with
  | nil => exact h
  | cons step rest ih =>
    have hafter := hsteps step (List.mem_cons_self ..) station ht h
    exact ih (tookOver_after ht adapter step) hafter fun later hm =>
      hsteps later (List.mem_cons_of_mem _ hm)

/-- A record either was there before or bears a number above all that were. -/
lemma provenance_after (h : station.TookOver records) (adapter : Adapter) (step : Step)
    {record : SubscriptionRecord}
    (hm : record ∈ (station.after adapter step).connection.subscriptions.ordered) :
    (∃ earlier ∈ station.connection.subscriptions.ordered, earlier.Continues record) ∨
      ∀ earlier ∈ station.connection.subscriptions.ordered,
        earlier.sequence < record.sequence := by
  obtain ⟨⟨key, record⟩, hentry, rfl⟩ := List.mem_map.mp (Subscriptions.mem_ordered.mp hm)
  have heffect := requestEffect h.quiet adapter step
  change (key, record) ∈
    (station.after adapter step).ledger.subscriptions.records.entries at hentry
  generalize (station.after adapter step).ledger = after at heffect hentry
  cases heffect with
  | served hl =>
    rcases hl.provenance hentry with ⟨earlier, hearlier, hcontinues⟩ | hnew
    · exact .inl ⟨earlier, Subscriptions.mem_ordered.mpr (List.mem_map_of_mem hearlier), hcontinues⟩
    · refine .inr fun earlier hearlier => ?_
      obtain ⟨entry, hm, rfl⟩ := List.mem_map.mp (Subscriptions.mem_ordered.mp hearlier)
      exact Nat.lt_of_lt_of_le (h.ledger.numbered.below _ (List.mem_map_of_mem hm)) hnew
  | opened =>
    exact .inl ⟨record, Subscriptions.mem_ordered.mpr (List.mem_map_of_mem hentry), .refl record⟩

/-! An exchange with a private channel. -/

/-- It asks for a login and accepts what arrives on "auth". -/
def loginAdapter : Adapter :=
  { Adapter.plain with login := some ⟨.oneShot "auth" (.str "login"), fun _ => .ok ()⟩ }

def ordersRecord : SubscriptionRecord := ⟨"orders", ["orders"], .str "orders", none, true, 0⟩

end Station

end MarketFeed
