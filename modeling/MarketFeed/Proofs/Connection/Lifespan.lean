import MarketFeed.Proofs.Connection.Serving
import MarketFeed.Proofs.Connection.Station

/-!
# The life of a connection

A connection opens once at most and is closed once for good. Whoever closes it first determines the
fault, which callers are told from then on. Everybody who waits by then gets the fault as the last
delivery.
-/

namespace MarketFeed

/-- The moves from one state to another one. -/
inductive Lifecycle.Moves : Lifecycle → Lifecycle → Prop
  | opens : Moves .connecting .opened
  | fails : Moves .connecting .closing
  | closes : Moves .opened .closing
  | ends : Moves .closing .closed

namespace Station

/-- The hashes that a step may register waiters on. -/
def joins (adapter : Adapter) (station : Station) : Step → List String
  | .advance index =>
    match station.calls[index]? with
    | some (.blocked call) => call.joins adapter
    | _ => []
  | _ => []

/-- All that a step can do to the life of a connection. -/
inductive LifeEffect (adapter : Adapter) (station : Station) (step : Step) :
    Option (Fault × Bool) → Station → Prop
  | served {teardown : Option (Fault × Bool)} {after : Station}
      (hs : station.circuit.Serves step.drops (station.joins adapter step) after.circuit)
      (ht : ∀ fault won, teardown = some (fault, won) →
        won = false ∧ station.connection.closeFault.isSome = true) :
      LifeEffect adapter station step teardown after
  | opened {after : Station} (ho : station.connection.state = .connecting)
      (hl : after.connection.life = { station.connection.life with state := .opened })
      (hr : station.registry.Leads [] [] after.registry)
      (he : ∃ more, after.circuit.events = station.circuit.events ++ more ∧
        ∀ event ∈ more, event.isClosed = false) : LifeEffect adapter station step none after
  | begun {fault : Fault} {after : Station} (hc : station.connection.closeFault = none)
      (hl : after.connection.life = ⟨station.connection.url, .closing, some fault⟩)
      (hr : station.registry.Leads step.drops (station.joins adapter step) after.registry)
      (he : ∃ more, after.circuit.events = station.circuit.events ++ more ∧
        ∀ event ∈ more, event.isMilestone = false) :
      LifeEffect adapter station step (some (fault, true)) after
  | ended {after : Station} (hc : station.connection.state = .closing)
      (hl : after.connection.life = { station.connection.life with state := .closed })
      (hr : after.registry = (station.registry.rejectAll station.connection.closeReason).2)
      (he : after.circuit.events = station.circuit.events ++
        [.closed station.connection.url station.connection.closeReason.message]) :
      LifeEffect adapter station step none after

variable {adapter : Adapter} {station : Station} {step : Step}

lemma lifeEffect_of_serves (h : station.circuit.Serves step.drops (station.joins adapter step)
    (station.work adapter step).2.circuit) :
    LifeEffect adapter station step (station.teardown? adapter step)
      (station.after adapter step) := by
  unfold teardown? after
  cases hw : station.work adapter step with
  | mk fault worked =>
    rw [hw] at h
    cases fault with
    | none => exact .served h fun _ _ ht => absurd ht (by simp)
    | some fault =>
      have hsame : worked.connection.closeFault = station.connection.closeFault :=
        congrArg Life.closeFault h.connection.life
      dsimp only
      unfold Circuit.beginTeardown
      split
      · rename_i hclosed
        refine .served h fun _ _ ht => ?_
        obtain ⟨-, rfl⟩ := Prod.mk.inj (Option.some.inj ht)
        exact ⟨rfl, hsame ▸ hclosed⟩
      · rename_i hlive
        have hnone : worked.circuit.connection.closeFault = none := by simpa using hlive
        have hurl : worked.connection.url = station.connection.url :=
          congrArg Life.url h.connection.life
        exact .begun (hsame ▸ hnone) (hurl ▸ rfl) h.connection.registry h.events

/-- Only the socket that opens and the second step of closing change the life of a connection by
what they do. -/
lemma serves_work (adapter : Adapter) (station : Station) (ho : ∀ now, step ≠ .opened now)
    (hf : step ≠ .finish) : station.circuit.Serves step.drops (station.joins adapter step)
      (station.work adapter step).2.circuit := by
  cases step with
  | opened now => exact absurd rfl (ho now)
  | finish => exact absurd rfl hf
  | dial delayed => exact station.circuit.serves_dial delayed
  | text now text => exact station.circuit.serves_takeText adapter now text
  | bytes now bytes => exact station.circuit.serves_takeBytes adapter now bytes
  | ping now => exact .of_eq rfl rfl rfl
  | fail fault => exact .refl station.circuit
  | close => exact station.circuit.serves_sayClose
  | silence elapsed => exact station.circuit.serves_emit rfl
  | probe now => exact .of_eq rfl rfl rfl
  | begin purpose => exact .refl station.circuit
  | advance index =>
    rw [work, joins]
    cases station.calls[index]? with
    | none => exact .refl station.circuit
    | some progress =>
      cases progress with
      | done result => exact .refl station.circuit
      | blocked call => exact .of_connection (call.serves_advance adapter station.connection) rfl
  | unsubscribe hash => exact .of_connection (Connection.serves_unsubscribe ..) rfl
  | settle hash delivery => exact .of_connection (Connection.serves_settle ..) rfl
  | send frame => exact .of_connection (Connection.serves_send ..) rfl
  | drop waiter => exact .of_connection (Connection.serves_discard ..) rfl
  | feed store => exact .of_eq rfl rfl rfl

lemma lifeEffect (adapter : Adapter) (station : Station) (step : Step) :
    LifeEffect adapter station step (station.teardown? adapter step)
      (station.after adapter step) := by
  cases step with
  | opened now =>
    rcases station.circuit.opened_cases now with hserves | ⟨hstate, hlife, hregistry, hevents⟩
    · exact lifeEffect_of_serves hserves
    · exact .opened hstate hlife hregistry hevents
  | finish =>
    by_cases hc : station.connection.state = .closing
    · have hafter : station.after adapter .finish =
          { station with
            circuit := station.circuit.finishClosing station.connection.closeReason } := by
        rw [after, work, if_pos hc]
      rw [hafter]
      exact .ended hc rfl rfl rfl
    · apply lifeEffect_of_serves
      rw [work, if_neg hc]
      exact .refl station.circuit
  | _ => exact lifeEffect_of_serves (serves_work adapter station (by simp) (by simp))

lemma circuit_after_finish (adapter : Adapter) (station : Station) :
    (station.after adapter .finish).circuit = if station.connection.state = .closing
      then station.circuit.finishClosing station.connection.closeReason else station.circuit := by
  unfold after
  rw [work]
  dsimp only
  split <;> rfl

/-! What holds of every connection from its beginning on. -/

/-- A connection that has not been closed has no fault. The end is reported once it has come, and
nothing but signs of life comes after. -/
structure Sound (station : Station) : Prop where
  live : station.connection.state.isLive = true ↔ station.connection.closeFault = none
  silent : station.connection.state ≠ .closed →
    ∀ event ∈ station.circuit.events, event.isClosed = false
  reported : ∀ fault, station.connection.state = .closed →
    station.connection.closeFault = some fault → ∃ earlier later,
      station.circuit.events =
        earlier ++ .closed station.connection.url fault.message :: later ∧
      (∀ event ∈ earlier, event.isClosed = false) ∧ ∀ event ∈ later, event.isMilestone = false
  wired : station.registry.Wired

lemma sound_new (url : String) (settings : ConnectionSettings) (records : List SubscriptionRecord)
    (store : FeedStore) : (new url settings records store).Sound where
  live := by simp [new, connection, Connection.new, Lifecycle.isLive]
  silent := fun _ _ hm => absurd hm List.not_mem_nil
  reported := fun _ hclosed => absurd hclosed (by simp [new, connection, Connection.new])
  wired := Traffic.wired_quiet_empty

lemma Sound.of_serves {other : Station} {drops : List Waiter} {joins : List String}
    (h : station.Sound) (hs : station.circuit.Serves drops joins other.circuit) : other.Sound := by
  obtain ⟨⟨hlife, hregistry⟩, more, hevents, hquiet⟩ := hs
  have hstate : other.connection.state = station.connection.state := congrArg Life.state hlife
  have hfault : other.connection.closeFault = station.connection.closeFault :=
    congrArg Life.closeFault hlife
  have hurl : other.connection.url = station.connection.url := congrArg Life.url hlife
  constructor
  · rw [hstate, hfault]
    exact h.live
  · intro hopen
    rw [hevents]
    exact List.forall_mem_append.mpr ⟨h.silent (hstate ▸ hopen), fun event hm =>
      ConnectionEvent.isClosed_of_not_milestone (hquiet event hm)⟩
  · intro fault hclosed hf
    obtain ⟨earlier, later, hsplit, hearlier, hlater⟩ :=
      h.reported fault (hstate ▸ hclosed) (hfault ▸ hf)
    refine ⟨earlier, later ++ more, ?_, hearlier, List.forall_mem_append.mpr ⟨hlater, hquiet⟩⟩
    rw [hevents, hsplit, hurl, List.append_assoc]
    rfl
  · exact hregistry.wired h.wired

lemma sound_after (h : station.Sound) (step : Step) : (station.after adapter step).Sound := by
  have heffect := lifeEffect adapter station step
  generalize station.teardown? adapter step = teardown at heffect
  generalize station.after adapter step = after at heffect ⊢
  cases heffect with
  | served hs => exact h.of_serves hs
  | opened ho hl hr he =>
    obtain ⟨more, hevents, hquiet⟩ := he
    have hstate : after.connection.state = .opened := congrArg Life.state hl
    have hfault : after.connection.closeFault = station.connection.closeFault :=
      congrArg Life.closeFault hl
    constructor
    · rw [hstate, hfault, ← h.live, ho]
      rfl
    · intro _
      rw [hevents]
      exact List.forall_mem_append.mpr ⟨h.silent (by simp [ho]), hquiet⟩
    · intro fault hclosed
      exact absurd (hstate.symm.trans hclosed) (by simp)
    · exact hr.wired h.wired
  | @begun fault _ hc hl hr he =>
    obtain ⟨more, hevents, hquiet⟩ := he
    have hstate : after.connection.state = .closing := congrArg Life.state hl
    have hopen : station.connection.state ≠ .closed := by
      intro hclosed
      have hlive := h.live.mpr hc
      rw [hclosed] at hlive
      exact absurd hlive (by simp [Lifecycle.isLive])
    constructor
    · have hfault : after.connection.closeFault = some fault := congrArg Life.closeFault hl
      simp [hstate, hfault, Lifecycle.isLive]
    · intro _
      rw [hevents]
      exact List.forall_mem_append.mpr ⟨h.silent hopen, fun event hm =>
        ConnectionEvent.isClosed_of_not_milestone (hquiet event hm)⟩
    · intro fault hclosed
      exact absurd (hstate.symm.trans hclosed) (by simp)
    · exact hr.wired h.wired
  | ended hc hl hr he =>
    have hstate : after.connection.state = .closed := congrArg Life.state hl
    have hfault : after.connection.closeFault = station.connection.closeFault :=
      congrArg Life.closeFault hl
    constructor
    · rw [hstate, hfault, ← h.live, hc]
      rfl
    · exact fun hopen => absurd hstate hopen
    · intro fault _ hf
      have hreason : station.connection.closeReason = fault := by
        rw [Connection.closeReason, ← hfault, hf, Option.getD_some]
      have hurl : after.connection.url = station.connection.url := congrArg Life.url hl
      refine ⟨station.circuit.events, [], ?_, h.silent (by simp [hc]), by simp⟩
      rw [he, hreason, hurl]
    · rw [hr]
      exact (Registry.leads_rejectAll ..).wired h.wired

lemma sound_run (h : station.Sound) (steps : List Step) : (station.run adapter steps).Sound := by
  induction steps generalizing station with
  | nil => exact h
  | cons step rest ih => exact ih (sound_after h step)

/-! Moves and faults. -/

lemma moves_after (h : station.Sound) (adapter : Adapter) (step : Step) :
    (station.after adapter step).connection.state = station.connection.state ∨
      station.connection.state.Moves (station.after adapter step).connection.state := by
  have heffect := lifeEffect adapter station step
  generalize station.teardown? adapter step = teardown at heffect
  generalize station.after adapter step = after at heffect ⊢
  cases heffect with
  | served hs => exact .inl hs.connection.state
  | opened ho hl =>
    have hstate : after.connection.state = .opened := congrArg Life.state hl
    rw [ho, hstate]
    exact .inr .opens
  | begun hc hl =>
    have hstate : after.connection.state = .closing := congrArg Life.state hl
    have hlive := h.live.mpr hc
    rw [hstate]
    right
    cases hbefore : station.connection.state with
    | connecting => exact .fails
    | opened => exact .closes
    | closing => exact absurd hlive (by simp [hbefore, Lifecycle.isLive])
    | closed => exact absurd hlive (by simp [hbefore, Lifecycle.isLive])
  | ended hc hl =>
    have hstate : after.connection.state = .closed := congrArg Life.state hl
    rw [hc, hstate]
    exact .inr .ends

/-- The first fault that a connection is closed with stays. -/
lemma refused_after {fault : Fault} (h : station.connection.closeFault = some fault)
    (adapter : Adapter) (step : Step) :
    (station.after adapter step).connection.closeFault = some fault ∧
      ∀ teardown ∈ station.teardown? adapter step, teardown.2 = false := by
  have heffect := lifeEffect adapter station step
  generalize station.teardown? adapter step = teardown at heffect
  generalize station.after adapter step = after at heffect ⊢
  cases heffect with
  | served hs ht =>
    refine ⟨(congrArg Life.closeFault hs.connection.life).trans h, fun attempt hm => ?_⟩
    exact (ht attempt.1 attempt.2 hm).1
  | opened _ hl => exact ⟨(congrArg Life.closeFault hl).trans h, fun _ hm => absurd hm (by simp)⟩
  | begun hc => exact absurd (hc.symm.trans h) (by simp)
  | ended _ hl => exact ⟨(congrArg Life.closeFault hl).trans h, fun _ hm => absurd hm (by simp)⟩

lemma refused_run {fault : Fault} (h : station.connection.closeFault = some fault)
    (adapter : Adapter) (steps : List Step) :
    (station.run adapter steps).connection.closeFault = some fault ∧
      ∀ teardown ∈ station.teardowns adapter steps, teardown.2 = false := by
  induction steps generalizing station with
  | nil => exact ⟨h, fun _ hm => absurd hm List.not_mem_nil⟩
  | cons step rest ih =>
    obtain ⟨hafter, hrefused⟩ := refused_after h adapter step
    obtain ⟨hrun, hlater⟩ := ih hafter
    refine ⟨hrun, ?_⟩
    rw [teardowns]
    refine List.forall_mem_append.mpr ⟨fun teardown hm => hrefused teardown ?_, hlater⟩
    simpa using hm

lemma first_after (h : station.connection.closeFault = none) (adapter : Adapter) (step : Step) :
    (station.teardown? adapter step = none ∧
      (station.after adapter step).connection.closeFault = none) ∨
    ∃ fault, station.teardown? adapter step = some (fault, true) ∧
      (station.after adapter step).connection.closeFault = some fault := by
  have heffect := lifeEffect adapter station step
  generalize station.teardown? adapter step = teardown at heffect ⊢
  generalize station.after adapter step = after at heffect ⊢
  cases heffect with
  | served hs ht =>
    refine .inl ⟨?_, (congrArg Life.closeFault hs.connection.life).trans h⟩
    cases teardown with
    | none => rfl
    | some attempt =>
      have hclosed := (ht attempt.1 attempt.2 rfl).2
      rw [h] at hclosed
      exact absurd hclosed (by simp)
  | opened _ hl => exact .inl ⟨rfl, (congrArg Life.closeFault hl).trans h⟩
  | begun _ hl => exact .inr ⟨_, rfl, congrArg Life.closeFault hl⟩
  | ended _ hl => exact .inl ⟨rfl, (congrArg Life.closeFault hl).trans h⟩

/-- The first attempt to close a connection succeeds, and no other one. -/
lemma first_run (h : station.connection.closeFault = none) (adapter : Adapter)
    (steps : List Step) :
    (station.teardowns adapter steps = [] ∧
      (station.run adapter steps).connection.closeFault = none) ∨
    ∃ fault rest, station.teardowns adapter steps = (fault, true) :: rest ∧
      (∀ teardown ∈ rest, teardown.2 = false) ∧
      (station.run adapter steps).connection.closeFault = some fault := by
  induction steps generalizing station with
  | nil => exact .inl ⟨rfl, h⟩
  | cons step rest ih =>
    rcases first_after h adapter step with ⟨hnone, hafter⟩ | ⟨fault, hfirst, hafter⟩
    · rw [teardowns, hnone]
      exact ih hafter
    · obtain ⟨hrun, hrefused⟩ := refused_run hafter adapter rest
      refine .inr ⟨fault, (station.after adapter step).teardowns adapter rest, ?_, hrefused, hrun⟩
      rw [teardowns, hfirst]
      rfl

/-! Callers and waiters. -/

lemma closeReason_of_closeFault {connection : Connection} {fault : Fault}
    (h : connection.closeFault = some fault) : connection.closeReason = fault := by
  rw [Connection.closeReason, h, Option.getD_some]

/-- Callers who come later are told the fault at once. -/
lemma refuses {connection : Connection} {fault : Fault} (hs : connection.state.isLive = false)
    (hf : connection.closeFault = some fault) (adapter : Adapter) :
    connection.ready? = some (.error fault) ∧ ∀ number request,
      (Call.begin number (.subscribe request)).advance adapter connection =
        (.done (.error fault), connection) := by
  have hready : connection.ready? = some (.error fault) := by
    unfold Connection.ready?
    rw [closeReason_of_closeFault hf]
    cases hstate : connection.state with
    | connecting => exact absurd hs (by simp [hstate, Lifecycle.isLive])
    | opened => exact absurd hs (by simp [hstate, Lifecycle.isLive])
    | closing => rfl
    | closed => rfl
  refine ⟨hready, fun number request => ?_⟩
  unfold Call.begin Call.advance
  dsimp only
  rw [hready]

lemma endsWith_after {waiter : Waiter} {delivery : Delivery Update} (h : station.Sound)
    (he : station.registry.EndsWith waiter delivery)
    (hs : ∀ dropped ∈ step.drops, dropped.claim ≠ waiter.claim) :
    (station.after adapter step).registry.EndsWith waiter delivery := by
  have heffect := lifeEffect adapter station step
  generalize station.teardown? adapter step = teardown at heffect
  generalize station.after adapter step = after at heffect ⊢
  cases heffect with
  | served hserves => exact hserves.connection.registry.endsWith h.wired he fun _ => hs
  | opened _ _ hr => exact hr.endsWith h.wired he (by simp)
  | begun _ _ hr => exact hr.endsWith h.wired he fun _ => hs
  | ended _ _ hr =>
    rw [hr]
    exact (Registry.leads_rejectAll ..).endsWith h.wired he (by simp)

lemma endsWith_run {waiter : Waiter} {delivery : Delivery Update} {steps : List Step}
    (h : station.Sound) (he : station.registry.EndsWith waiter delivery)
    (hs : ∀ dropped, .drop dropped ∈ steps → dropped.claim ≠ waiter.claim) :
    (station.run adapter steps).registry.EndsWith waiter delivery := by
  induction steps generalizing station with
  | nil => exact he
  | cons step rest ih =>
    apply ih (sound_after h step)
    · apply endsWith_after h he
      intro dropped hm
      exact hs dropped (Step.eq_of_mem_drops hm ▸ List.mem_cons_self ..)
    · exact fun dropped hm => hs dropped (List.mem_cons_of_mem _ hm)

lemma registry_finish {fault : Fault} (hs : station.connection.state = .closing)
    (hf : station.connection.closeFault = some fault) :
    (station.after adapter .finish).registry = (station.registry.rejectAll fault).2 := by
  rw [after, work, if_pos hs, closeReason_of_closeFault hf]
  rfl

/-- What the second step of closing is for. -/
lemma endsWith_finish {waiter : Waiter} {fault : Fault} (h : station.Sound)
    (hs : station.connection.state = .closing) (hf : station.connection.closeFault = some fault)
    (he : station.registry.Enters waiter) (adapter : Adapter) :
    (station.after adapter .finish).registry.EndsWith waiter (.error fault) := by
  rw [registry_finish hs hf]
  exact Registry.endsWith_rejectAll h.wired he fault

/-- What holds of a connection from the first step of closing it on. -/
structure ClosedBy (adapter : Adapter) (station : Station) (fault : Fault) : Prop where
  /-- The fault stays, and the connection does not come back to life. -/
  forGood : ∀ late, (station.run adapter late).connection.closeFault = some fault ∧
    (station.run adapter late).connection.state.isLive = false
  ready : station.connection.ready? = some (.error fault)
  subscribe : ∀ number request, (Call.begin number (.subscribe request)).advance adapter
    station.connection = (.done (.error fault), station.connection)
  /-- The second step is the end for the waiters that are entered by then. -/
  lastDelivery : station.connection.state = .closing → ∀ waiter late,
    station.registry.Enters waiter →
    (∀ dropped, .drop dropped ∈ late → dropped.claim ≠ waiter.claim) →
    (station.run adapter (.finish :: late)).registry.EndsWith waiter (.error fault)
  silent : station.connection.state = .closing →
    ∀ event ∈ station.circuit.events, event.isClosed = false
  /-- The end has been reported once, and nothing but signs of life has come after. -/
  reported : station.connection.state = .closed → ∃ earlier later,
    station.circuit.events = earlier ++ .closed station.connection.url fault.message :: later ∧
    (∀ event ∈ earlier, event.isClosed = false) ∧ ∀ event ∈ later, event.isMilestone = false

lemma Sound.closedBy {fault : Fault} (h : station.Sound)
    (hf : station.connection.closeFault = some fault) (adapter : Adapter) :
    station.ClosedBy adapter fault := by
  have hdead : ∀ {other : Station}, other.Sound → other.connection.closeFault = some fault →
      other.connection.state.isLive = false := by
    intro other hother hfault
    rw [Bool.eq_false_iff, ne_eq, hother.live, hfault]
    simp
  obtain ⟨hready, hsubscribe⟩ := refuses (hdead h hf) hf adapter
  constructor
  · intro late
    have hlate := (refused_run hf adapter late).1
    exact ⟨hlate, hdead (sound_run h late) hlate⟩
  · exact hready
  · exact hsubscribe
  · intro hclosing waiter late henters hs
    have hends := endsWith_finish h hclosing hf henters adapter
    have hlate : ((station.after adapter .finish).run adapter late).registry.EndsWith waiter
        (.error fault) := endsWith_run (sound_after h .finish) hends hs
    exact hlate
  · intro hclosing
    exact h.silent (by simp [hclosing])
  · exact fun hclosed => h.reported fault hclosed hf

/-- In whatever order the tasks of a connection take their steps, its state only moves on, from
connecting by way of open or not to closing and closed. Of all attempts to close it the first one
succeeds alone. Its fault is what everybody is told from then on. -/
theorem closed_once_for_good (adapter : Adapter) (url : String) (settings : ConnectionSettings)
    (records : List SubscriptionRecord) (store : FeedStore) (steps : List Step) :
    let start := new url settings records store
    let reached := start.run adapter steps
    start.connection.state = .connecting ∧
    (∀ step, (reached.after adapter step).connection.state = reached.connection.state ∨
      reached.connection.state.Moves (reached.after adapter step).connection.state) ∧
    (start.teardowns adapter steps = [] →
      reached.connection.state.isLive = true ∧ reached.connection.closeFault = none ∧
      ∀ event ∈ reached.circuit.events, event.isClosed = false) ∧
    ∀ fault won rest, start.teardowns adapter steps = (fault, won) :: rest →
      won = true ∧ (∀ teardown ∈ rest, teardown.2 = false) ∧ reached.ClosedBy adapter fault := by
  intro start reached
  have hsound : reached.Sound := sound_run (sound_new url settings records store) steps
  have hfirst := first_run (rfl : start.connection.closeFault = none) adapter steps
  refine ⟨rfl, moves_after hsound adapter, fun hnone => ?_, fun fault won rest hcons => ?_⟩
  · rcases hfirst with ⟨-, hfault⟩ | ⟨_, _, hsome, -⟩
    · have hlive := hsound.live.mpr hfault
      refine ⟨hlive, hfault, hsound.silent fun hclosed => ?_⟩
      rw [hclosed] at hlive
      exact absurd hlive (by simp [Lifecycle.isLive])
    · exact absurd (hnone.symm.trans hsome) (by simp)
  · rcases hfirst with ⟨hnone, -⟩ | ⟨_, _, hsome, hlater, hfault⟩
    · exact absurd (hnone.symm.trans hcons) (by simp)
    · obtain ⟨⟨⟩, rfl⟩ := List.cons.inj (hsome.symm.trans hcons)
      exact ⟨rfl, hlater, hsound.closedBy hfault adapter⟩

/-- A connection is given up for its silence just before its caller closes it, and the socket opens
between the two steps of that. Somebody who waits then gets the timeout as the last delivery. -/
theorem silence_before_close :
    let settings := ConnectionSettings.standard
    let fault : Fault := .timeout
      ("no liveness response within " ++ toString settings.heartbeat.window ++ "ms")
    let start := new "ws://feed" settings [] (.new .standard .strict)
    let steps : List Step := [.dial false, .opened 0, .begin (.subscribe (.persistent "book" .null)),
      .advance 0, .settle "book" (.ok (.message .null)), .silence 30000, .close]
    let late : List Step := [.opened 1, .settle "book" (.ok (.message .null)), .close]
    let reached := start.run .plain steps
    let joined := (reached.registry.register "book" .persistent).1
    reached.connection.state = .closing ∧
    (start.teardowns .plain steps).map (·.2) = [true, false] ∧
    reached.connection.ready? = some (.error fault) ∧
    reached.registry.Enters joined ∧
    (reached.run .plain (.finish :: late)).registry.EndsWith joined (.error fault) := by
  -- without the names of the statement, so that what is evaluated is closed
  dsimp only
  obtain ⟨-, -, -, hclosed⟩ := closed_once_for_good .plain "ws://feed" .standard []
    (.new .standard .strict) [.dial false, .opened 0,
      .begin (.subscribe (.persistent "book" .null)), .advance 0,
      .settle "book" (.ok (.message .null)), .silence 30000, .close]
  obtain ⟨-, -, hby⟩ := hclosed
    (.timeout ("no liveness response within " ++
      toString ConnectionSettings.standard.heartbeat.window ++ "ms"))
    true [(.connectionClosed "connection closed by caller", false)] rfl
  refine ⟨rfl, rfl, hby.ready, rfl, hby.lastDelivery rfl _ _ rfl ?_⟩
  intro dropped hm
  exact absurd hm (by simp)

end Station

end MarketFeed
