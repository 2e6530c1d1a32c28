import MarketFeed.Proofs.Connection.Desk
import MarketFeed.Proofs.Registry.Rounds

/-!
# Errors of private channels

An error frame may concern all private channels. Its error goes to the hashes that are marked as
private, and it is a request that marks a hash, not a waiter: the mark stays when the waiter has its
answer, and it is gone as soon as the hash is released, whoever may still wait.
-/

namespace MarketFeed

/-! The marks that requests leave. -/

namespace Desk

variable {isOpen : Bool} {desk : Desk} {request : Request} {requests : List Request} {hash : String}

/-- The hashes that requests mark as private when they come one after the other. -/
def marks (isOpen : Bool) (desk : Desk) : List Request → List String
  | [] => []
  | request :: rest =>
    (if request.isPrivate && desk.admits request then [request.messageHash] else []) ++
      (desk.take isOpen request).marks isOpen rest

lemma privateHashes_take (isOpen : Bool) (desk : Desk) (request : Request) :
    (desk.take isOpen request).privateHashes =
      if request.isPrivate && desk.admits request
        then insertNew request.messageHash desk.privateHashes else desk.privateHashes := by
  have henter : (desk.enter request).privateHashes = desk.privateHashes := by
    unfold enter
    split <;> rfl
  unfold take mark push
  cases desk.admits request with
  | false => simp
  | true =>
    rw [if_pos rfl, Bool.and_true]
    cases request.isPrivate with
    | false => exact henter
    | true => exact congrArg (insertNew _) henter

lemma mem_privateHashes_takeAll : hash ∈ (desk.takeAll isOpen requests).privateHashes ↔
    hash ∈ desk.privateHashes ∨ hash ∈ desk.marks isOpen requests := by
  induction requests generalizing desk with
  | nil => exact ⟨.inl, fun h => h.resolve_right List.not_mem_nil⟩
  | cons request rest ih =>
    have hrest : hash ∈ (desk.takeAll isOpen (request :: rest)).privateHashes ↔
        hash ∈ (desk.take isOpen request).privateHashes ∨
          hash ∈ (desk.take isOpen request).marks isOpen rest := ih
    rw [hrest, privateHashes_take, marks, List.mem_append, ← or_assoc]
    split
    · rw [mem_insertNew, List.mem_singleton]
    · rw [or_iff_left (List.not_mem_nil (a := hash))]

lemma exists_of_mem_marks (h : hash ∈ desk.marks isOpen requests) :
    ∃ request ∈ requests, request.isPrivate = true ∧ request.messageHash = hash := by
  induction requests generalizing desk with
  | nil => exact absurd h List.not_mem_nil
  | cons request rest ih =>
    rw [marks, List.mem_append] at h
    rcases h with h | h
    · split at h
      · rename_i hmarks
        rw [Bool.and_eq_true] at hmarks
        exact ⟨request, List.mem_cons_self .., hmarks.1, (List.mem_singleton.mp h).symm⟩
      · exact absurd h List.not_mem_nil
    · obtain ⟨other, hm, hother⟩ := ih h
      exact ⟨other, List.mem_cons_of_mem _ hm, hother⟩

end Desk

lemma Connection.mem_privateHashes_new {hash : String} (url : String)
    (settings : ConnectionSettings) (records : List SubscriptionRecord) :
    hash ∈ (Connection.new url settings records).privateHashes ↔
      ∃ record ∈ records, record.isPrivate = true ∧ hash ∈ record.hashes := by
  have hfold : ∀ (records : List SubscriptionRecord) (hashes : List String),
      hash ∈ records.foldl (fun hashes record =>
        record.hashes.foldl (fun hashes hash => insertNew hash hashes) hashes) hashes ↔
      hash ∈ hashes ∨ ∃ record ∈ records, hash ∈ record.hashes := by
    intro records
    induction records with
    | nil => simp
    | cons record rest ih =>
      intro hashes
      rw [List.foldl_cons, ih, mem_foldl_insertNew]
      simp [or_assoc]
  change hash ∈ (records.filter (·.isPrivate)).foldl _ [] ↔ _
  rw [hfold]
  simp [and_assoc]

/-! The requests of a call are its own and that of the login. -/

namespace Call

variable {adapter : Adapter} {call : Call} {connection : Connection} {request : Request}

/-- The request is the one of the call, or it is the one of the login. -/
def Asks (adapter : Adapter) (call : Call) (request : Request) : Prop :=
  request ∈ call.purpose.requests ∨ ∃ login, adapter.login = some login ∧ request = login.request

lemma mem_requestsEnding {result : Except Fault Unit} (h : request ∈ call.requestsEnding result) :
    request ∈ call.purpose.requests := by
  cases result with
  | ok => exact h
  | error => exact absurd h List.not_mem_nil

lemma mem_requestsJudging {login : Login} {waiter : Waiter}
    (h : request ∈ call.requestsJudging login waiter connection) :
    request ∈ call.purpose.requests := by
  unfold requestsJudging at h
  split at h
  · exact mem_requestsEnding h
  · exact absurd h List.not_mem_nil
  · exact absurd h List.not_mem_nil

lemma asks_of_mem_requestsLoggingIn (h : request ∈ call.requestsLoggingIn adapter connection) :
    call.Asks adapter request := by
  unfold requestsLoggingIn at h
  split at h
  · exact .inl h
  · rename_i login _ hlogin
    rcases List.mem_cons.mp h with rfl | h
    · exact .inr ⟨login, hlogin, rfl⟩
    · split at h
      · exact .inl (mem_requestsJudging h)
      · exact absurd h List.not_mem_nil
  · exact absurd h List.not_mem_nil
  · exact absurd h List.not_mem_nil

lemma asks_of_mem_requestsInTurn (h : request ∈ call.requestsInTurn adapter connection) :
    call.Asks adapter request := by
  unfold requestsInTurn at h
  split at h
  · exact .inl h
  · split at h
    · exact asks_of_mem_requestsLoggingIn h
    · exact absurd h List.not_mem_nil

lemma asks_of_mem_requests (h : request ∈ call.requests adapter connection) :
    call.Asks adapter request := by
  unfold requests at h
  split at h
  · split at h
    · split at h
      · exact asks_of_mem_requestsInTurn h
      · exact .inl h
    · exact absurd h List.not_mem_nil
    · exact absurd h List.not_mem_nil
  · exact asks_of_mem_requestsInTurn h
  · exact asks_of_mem_requestsLoggingIn h
  · split at h
    · exact .inl (mem_requestsJudging h)
    · exact .inl h

end Call

namespace Station

variable {adapter : Adapter} {station : Station} {step : Step} {steps : List Step} {hash : String}
  {records : List SubscriptionRecord}

def marks (adapter : Adapter) (station : Station) (step : Step) : List String :=
  station.desk.marks station.connection.isOpen (station.requests adapter step)

lemma mem_privateHashes_after :
    hash ∈ (station.after adapter step).connection.privateHashes ↔
      hash ∈ station.connection.privateHashes ∧ step ≠ .unsubscribe hash ∨
        hash ∈ station.marks adapter step := by
  change hash ∈ (station.after adapter step).desk.privateHashes ↔ _
  rw [desk_after]
  rcases step.eq_unsubscribe_or with ⟨other, rfl⟩ | hs
  · have hnone : hash ∉ station.marks adapter (.unsubscribe other) := List.not_mem_nil
    rw [or_iff_left hnone]
    change hash ∈ station.connection.privateHashes.filter (· ≠ other) ↔ _
    rw [List.mem_filter, decide_eq_true_iff, ne_eq, ne_eq, Step.unsubscribe.injEq, eq_comm]
  · rw [deskAfter_eq hs, and_iff_left (hs hash)]
    exact Desk.mem_privateHashes_takeAll

/-- A hash is marked after a run if it was marked before or at some step, and never released
since. -/
lemma mem_privateHashes_run :
    hash ∈ (station.run adapter steps).connection.privateHashes ↔
      hash ∈ station.connection.privateHashes ∧ .unsubscribe hash ∉ steps ∨
      ∃ early step late, steps = early ++ step :: late ∧
        hash ∈ (station.run adapter early).marks adapter step ∧ .unsubscribe hash ∉ late := by
  induction steps generalizing station with
  | nil => simp [run]
  | cons first rest ih =>
    change hash ∈ ((station.after adapter first).run adapter rest).connection.privateHashes ↔ _
    -- a mark of the first step is one after an empty early part
    rw [ih, mem_privateHashes_after]
    constructor
    · rintro (⟨⟨hm, hfirst⟩ | hmark, hrest⟩ | ⟨early, step, late, rfl, hmark, hlate⟩)
      · exact .inl ⟨hm, fun hn => (List.mem_cons.mp hn).elim (fun he => hfirst he.symm) hrest⟩
      · exact .inr ⟨[], first, rest, rfl, hmark, hrest⟩
      · exact .inr ⟨first :: early, step, late, rfl, hmark, hlate⟩
    · rintro (⟨hm, hn⟩ | ⟨early, step, late, hsplit, hmark, hlate⟩)
      · obtain ⟨hfirst, hrest⟩ := not_or.mp fun h => hn (List.mem_cons.mpr h)
        exact .inl ⟨.inl ⟨hm, Ne.symm hfirst⟩, hrest⟩
      · cases early with
        | nil =>
          obtain ⟨rfl, rfl⟩ := List.cons.inj hsplit
          exact .inl ⟨.inr hmark, hlate⟩
        | cons _ early =>
          obtain ⟨rfl, rfl⟩ := List.cons.inj hsplit
          exact .inr ⟨early, step, late, rfl, hmark, hlate⟩

/-- A record that was taken over or a private request has marked the hash, and it has not been
released since. -/
def MarkedPrivate (adapter : Adapter) (start : Station) (records : List SubscriptionRecord)
    (steps : List Step) (hash : String) : Prop :=
  (∃ record ∈ records, record.isPrivate = true ∧ hash ∈ record.hashes) ∧ .unsubscribe hash ∉ steps ∨
  ∃ early step late, steps = early ++ step :: late ∧
    hash ∈ (start.run adapter early).marks adapter step ∧ .unsubscribe hash ∉ late

lemma markedPrivate_iff (adapter : Adapter) (url : String) (settings : ConnectionSettings)
    (records : List SubscriptionRecord) (store : FeedStore) (steps : List Step) (hash : String) :
    MarkedPrivate adapter (new url settings records store) records steps hash ↔
      hash ∈ ((new url settings records store).run adapter steps).connection.privateHashes := by
  rw [mem_privateHashes_run, MarkedPrivate, ← Connection.mem_privateHashes_new url settings]
  rfl

/-! Hashes that nobody asks for privately. -/

/-- Whoever asks for the hash asks publicly. -/
structure IsPublic (adapter : Adapter) (records : List SubscriptionRecord) (steps : List Step)
    (hash : String) : Prop where
  restored : ∀ record ∈ records, hash ∈ record.hashes → record.isPrivate = false
  called : ∀ request, .begin (.subscribe request) ∈ steps → request.messageHash = hash →
    request.isPrivate = false
  login : ∀ login, adapter.login = some login → login.request.messageHash = hash →
    login.request.isPrivate = false

/-- The calls that wait ask publicly for the hash. -/
def AsksPublicly (hash : String) (station : Station) : Prop :=
  ∀ call, .blocked call ∈ station.calls → ∀ request ∈ call.purpose.requests,
    request.messageHash = hash → request.isPrivate = false

lemma asksPublicly_after (ht : station.TookOver records) (h : station.AsksPublicly hash)
    (hs : ∀ request, step = .begin (.subscribe request) → request.messageHash = hash →
      request.isPrivate = false) : (station.after adapter step).AsksPublicly hash := by
  intro call hm request hrequest
  cases origin ht.quiet hm with
  | kept hm => exact h call hm request hrequest
  | @advanced index before _ hb hp =>
    exact h before (List.mem_of_getElem? hb) request (hp ▸ hrequest)
  | begun hbegin =>
    cases hp : call.purpose with
    | subscribe own =>
      rw [hp] at hbegin hrequest
      obtain rfl : request = own := List.mem_singleton.mp hrequest
      exact hs request hbegin
    | authenticate => exact absurd (hp ▸ hrequest) List.not_mem_nil
    | restore => exact absurd (hp ▸ hrequest) List.not_mem_nil
  | restoring _ _ hc =>
    rw [hc, purpose_begin] at hrequest
    exact absurd hrequest List.not_mem_nil

lemma exists_of_mem_requests {request : Request} (h : request ∈ station.requests adapter step) :
    ∃ (index : Nat) (call : Call), station.calls[index]? = some (.blocked call) ∧
      request ∈ call.requests adapter station.connection := by
  cases step with
  | advance index =>
    unfold requests at h
    dsimp only at h
    split at h
    · exact ⟨index, _, ‹_›, h⟩
    · exact absurd h List.not_mem_nil
  | _ => exact absurd h List.not_mem_nil

lemma not_mem_marks (h : station.AsksPublicly hash)
    (hl : ∀ login, adapter.login = some login → login.request.messageHash = hash →
      login.request.isPrivate = false) (step : Step) : hash ∉ station.marks adapter step := by
  intro hm
  obtain ⟨request, hrequest, hprivate, hhash⟩ := Desk.exists_of_mem_marks hm
  have hpublic : request.isPrivate = false := by
    -- only a call that goes on asks, for its own request or for the one of the login
    obtain ⟨index, call, hcall, hrequest⟩ := exists_of_mem_requests hrequest
    rcases Call.asks_of_mem_requests hrequest with hown | ⟨login, hlogin, rfl⟩
    · exact h call (List.mem_of_getElem? hcall) request hown hhash
    · exact hl login hlogin hhash
  exact absurd (hprivate.symm.trans hpublic) (by simp)

lemma IsPublic.not_markedPrivate (h : IsPublic adapter records steps hash) (url : String)
    (settings : ConnectionSettings) (store : FeedStore) :
    ¬MarkedPrivate adapter (new url settings records store) records steps hash := by
  rintro (⟨⟨record, hm, hprivate, hhash⟩, -⟩ | ⟨early, step, late, rfl, hmark, -⟩)
  · exact absurd (hprivate.symm.trans (h.restored record hm hhash)) (by simp)
  · have hstart := tookOver_new url settings records store
    have hasks : (new url settings records store).AsksPublicly hash :=
      fun _ hm => absurd hm List.not_mem_nil
    refine not_mem_marks (run_keeps hstart hasks fun step hm reached ht hasks => ?_) h.login step
      hmark
    refine asksPublicly_after ht hasks fun request hbegin => h.called request ?_
    exact List.mem_append_left _ (hbegin ▸ hm)

/-! A waiter that was granted privately. -/

/-- Step `index` lets a private call go on, and grants it a waiter. -/
structure GrantsPrivately (adapter : Adapter) (station : Station) (index : Nat) (waiter : Waiter) :
    Prop where
  asked : ∃ call request, station.calls[index]? = some (.blocked call) ∧
    call.purpose = .subscribe request ∧ request.isPrivate = true
  granted : (station.after adapter (.advance index)).calls[index]? = some (.done (.ok (some waiter)))

end Station

namespace Connection

variable {connection : Connection} {request : Request} {waiter : Waiter}

lemma hash_enter (connection : Connection) (request : Request) :
    (connection.enter request).1.hash = request.messageHash := by
  change ((connection.markPrivate request).registry.register request.messageHash
    request.kind).1.hash = _
  cases request.kind with
  | persistent => exact (Registry.enters_register _ _).1
  | oneShot => rfl

lemma hash_ask (h : (connection.ask request).1 = .ok waiter) :
    waiter.hash = request.messageHash := by
  unfold ask sendFor at h
  split at h
  · exact Except.ok.inj h ▸ hash_enter connection request
  · exact absurd h (by simp)

lemma admits_of_takeRequest (h : (connection.takeRequest request).1 = .ok waiter) :
    connection.desk.admits request = true ∧ waiter.hash = request.messageHash := by
  have hadmits : ∀ isNew subscriptions, request.kind = .persistent →
      connection.subscriptions.add request = (.ok isNew, subscriptions) →
      connection.desk.admits request = true := by
    intro isNew subscriptions hk ha
    rw [Desk.admits, hk]
    exact congrArg (·.1.isOk) ha
  have htaking := connection.taking request
  generalize connection.takeRequest request = taken at htaking h
  cases htaking with
  | sent hk => exact ⟨by rw [Desk.admits, hk], hash_ask h⟩
  | refused => exact absurd h (by simp)
  | joined hk ha => exact ⟨hadmits _ _ hk ha, Except.ok.inj h ▸ hash_enter _ request⟩
  | added hk ha => exact ⟨hadmits _ _ hk ha, hash_ask h⟩

lemma marked_of_takeRequest (h : (connection.takeRequest request).1 = .ok waiter)
    (hp : request.isPrivate = true) :
    waiter.hash ∈ (connection.takeRequest request).2.privateHashes := by
  obtain ⟨hadmits, hhash⟩ := admits_of_takeRequest h
  change waiter.hash ∈ (connection.takeRequest request).2.desk.privateHashes
  rw [desk_takeRequest, Desk.privateHashes_take, hp, hadmits, hhash, Bool.and_self,
    if_pos rfl, mem_insertNew]
  exact .inr rfl

end Connection

namespace Station

variable {adapter : Adapter} {station : Station} {step : Step} {steps : List Step} {hash : String}
  {records : List SubscriptionRecord} {waiter : Waiter} {index : Nat}

lemma GrantsPrivately.marked (h : station.GrantsPrivately adapter index waiter)
    (hq : station.IsQuiet) :
    waiter.hash ∈ (station.after adapter (.advance index)).connection.privateHashes := by
  obtain ⟨⟨call, request, hcall, hp, hprivate⟩, hgranted⟩ := h
  have hadvance : Call.Advance (.advance index) call station.connection _ _ :=
    Call.advance_cases (hq.waits hcall) adapter
  obtain ⟨hlt, -⟩ := List.getElem?_eq_some_iff.mp hcall
  rw [after_advance hcall] at hgranted ⊢
  rw [List.getElem?_set_self hlt] at hgranted
  change _ ∈ (call.advance adapter station.connection).2.privateHashes
  generalize call.advance adapter station.connection = advanced at hadvance hgranted ⊢
  obtain ⟨progress, after⟩ := advanced
  dsimp only at hadvance hgranted ⊢
  cases hadvance with
  | waits => exact absurd hgranted (by simp)
  | fails => exact absurd hgranted (by simp)
  | @completes middle =>
    unfold Call.complete at hgranted ⊢
    rw [hp] at hgranted ⊢
    dsimp only at hgranted ⊢
    cases hresult : (middle.takeRequest request).1 with
    | error fault =>
      rw [hresult] at hgranted
      exact absurd hgranted (by simp [Except.map])
    | ok taken =>
      rw [hresult] at hgranted
      obtain rfl : taken = waiter := by simpa [Except.map] using hgranted
      exact Connection.marked_of_takeRequest hresult hprivate

/-! The error itself. -/

lemma queued_after (h : station.registry.Queued) (adapter : Adapter) (step : Step) :
    (station.after adapter step).registry.Queued := by
  have heffect := lifeEffect adapter station step
  generalize station.teardown? adapter step = teardown at heffect
  generalize station.after adapter step = after at heffect ⊢
  cases heffect with
  | served hs => exact hs.connection.registry.queued h
  | opened _ _ hr => exact hr.queued h
  | begun _ _ hr => exact hr.queued h
  | ended _ _ hr => exact hr ▸ (Registry.leads_rejectAll ..).queued h

lemma queued_run (h : station.registry.Queued) (adapter : Adapter) (steps : List Step) :
    (station.run adapter steps).registry.Queued := by
  induction steps generalizing station with
  | nil => exact h
  | cons step rest ih => exact ih (queued_after h adapter step)

end Station

lemma Connection.registry_cancel (adapter : Adapter) (connection : Connection)
    (records : List SubscriptionRecord) :
    (connection.cancel adapter records).2.registry = connection.registry := by
  induction records generalizing connection with
  | nil => rfl
  | cons record rest ih =>
    unfold cancel
    cases adapter.unsubscribeFrame record with
    | none => exact ih connection
    | some frame =>
      unfold send
      cases connection.isOpen with
      | true => exact ih (connection.enqueue frame)
      | false => rfl

lemma Connection.registry_settleAll (connection : Connection)
    (given : List (String × Delivery Update)) :
    (connection.settleAll given).registry = connection.registry.giveAll given := by
  unfold settleAll
  induction given generalizing connection with
  | nil => rfl
  | cons first rest ih => exact ih (connection.settle first.1 first.2).2

namespace Station

variable {adapter : Adapter} {step : Step} {fault : Fault}

/-- The step brings a frame with an error of the private channels. -/
def BringsPrivateError (adapter : Adapter) (step : Step) (fault : Fault) : Prop :=
  ∃ frame, step.frame? = some frame ∧ adapter.isPong frame = false ∧
    adapter.classify frame = some ⟨.privateChannels, fault⟩

lemma BringsPrivateError.settles (h : BringsPrivateError adapter step fault) (station : Station) :
    (station.after adapter step).connection.life = station.connection.life ∧
    (station.after adapter step).registry =
      station.registry.settleAll station.connection.privateHashes (.error fault) := by
  obtain ⟨frame, hframe, hpong, hclass⟩ := h
  obtain ⟨now, size, hwork⟩ := work_of_frame adapter station hframe
  let counted := station.circuit.countReceived now size
  have hrejected : (station.after adapter step).connection =
      counted.connection.settleAll
        (station.connection.privateHashes.map fun hash => (hash, .error fault)) := by
    unfold after
    rw [hwork]
    unfold receive Circuit.dispatch
    dsimp only
    rw [hpong, hclass]
    rfl
  rw [registry, hrejected]
  refine ⟨(Connection.serves_settleAll ..).life, ?_⟩
  rw [Connection.registry_settleAll, Registry.giveAll_map]
  rfl

/-- An error of the private channels leaves the connection as it is. It goes to those who wait on a
hash that is marked as private, and everybody else finds what there was before. The hash of a waiter
that was granted privately is marked until it is released; one that nobody asks for privately never
is. -/
theorem private_error_goes_to_marked_hashes (adapter : Adapter) (url : String)
    (settings : ConnectionSettings) (records : List SubscriptionRecord) (store : FeedStore)
    (steps : List Step) (step : Step) (fault : Fault) :
    let start := new url settings records store
    let reached := start.run adapter steps
    let after := reached.after adapter step
    BringsPrivateError adapter step fault →
    after.connection.life = reached.connection.life ∧
    (∀ waiter, reached.registry.Awaits waiter →
      (MarkedPrivate adapter start records steps waiter.hash →
        (after.registry.take waiter).1 = .delivery (.error fault)) ∧
      (¬MarkedPrivate adapter start records steps waiter.hash →
        reached.registry.Spared waiter after.registry)) ∧
    (∀ early index late waiter, steps = early ++ .advance index :: late →
      (start.run adapter early).GrantsPrivately adapter index waiter →
      .unsubscribe waiter.hash ∉ late →
      MarkedPrivate adapter start records steps waiter.hash) ∧
    ∀ hash, IsPublic adapter records steps hash →
      ¬MarkedPrivate adapter start records steps hash := by
  intro start reached after herror
  have hwired : reached.registry.Wired :=
    (sound_run (sound_new url settings records store) steps).wired
  have hempty : start.registry.Queued := Registry.queued_empty
  have hqueued : reached.registry.Queued := queued_run hempty adapter steps
  obtain ⟨hlife, hregistry⟩ := herror.settles reached
  refine ⟨hlife, fun waiter hawaits => ⟨fun hmarked => ?_, fun hmarked => ?_⟩, ?_,
    fun hash hpublic => hpublic.not_markedPrivate url settings store⟩
  · have hm : waiter.hash ∈ reached.connection.privateHashes := (markedPrivate_iff ..).mp hmarked
    rw [hregistry]
    exact Registry.take_of_offers (Registry.offers_settleAll hwired hqueued hawaits hm _)
  · have hn : waiter.hash ∉ reached.connection.privateHashes :=
      fun hm => hmarked ((markedPrivate_iff ..).mpr hm)
    rw [hregistry]
    exact Registry.spared_settleAll hwired hqueued hawaits hn _
  · rintro early index late waiter rfl hgrants hlate
    have hquiet := (tookOver_run (tookOver_new url settings records store) adapter early).quiet
    have hrun : start.run adapter (early ++ .advance index :: late) =
        ((start.run adapter early).after adapter (.advance index)).run adapter late := run_append ..
    refine (markedPrivate_iff ..).mpr ?_
    rw [hrun]
    exact mem_privateHashes_run.mpr (.inl ⟨hgrants.marked hquiet, hlate⟩)

/-- An exchange with a login on which every frame says that the session has expired. -/
def expiringAdapter : Adapter :=
  { loginAdapter with
    classify := fun _ => some ⟨.privateChannels, .authentication "session expired"⟩ }

/-- A private channel is taken over, a balance is asked for once, and trades are followed. -/
def followingTrades : List Step :=
  [.opened 0, .advance 0, .settle "auth" (.ok (.message .null)), .advance 0,
    .begin (.subscribe (Request.oneShot "balance" (.str "balance")).asPrivate), .advance 1,
    .begin (.subscribe (.persistent "trades" (.str "trades"))), .advance 2]

def balanceWaiter : Waiter := ⟨"balance", .ticket (some 1)⟩

def tradesWaiter : Waiter := ⟨"trades", .receiver 0 0⟩

/-- The balance will not come; trades go on. -/
theorem expired_session_ends_balance :
    let start := new "ws://feed" .standard [ordersRecord] (.new .standard .strict)
    let reached := start.run expiringAdapter followingTrades
    let after := reached.after expiringAdapter (.text 0 "null")
    after.connection.state = .opened ∧
    (after.registry.take balanceWaiter).1 =
      .delivery (.error (.authentication "session expired")) ∧
    after.registry.Awaits tradesWaiter ∧ (after.registry.take tradesWaiter).1 = .nothingYet := by
  dsimp only
  have herror : BringsPrivateError expiringAdapter (.text 0 "null")
      (.authentication "session expired") := ⟨.null, rfl, rfl, rfl⟩
  have hgoes := private_error_goes_to_marked_hashes expiringAdapter "ws://feed" .standard
    [ordersRecord] (.new .standard .strict) followingTrades (.text 0 "null")
    (.authentication "session expired") herror
  generalize hstart : new "ws://feed" .standard [ordersRecord] (.new .standard .strict) = start
    at hgoes ⊢
  obtain ⟨hlife, hwaiters, hgranted, hpublic⟩ := hgoes
  generalize (start.run expiringAdapter followingTrades).after expiringAdapter (.text 0 "null") =
    after at hlife hwaiters ⊢
  have hopened : (start.run expiringAdapter followingTrades).connection.state = .opened := by
    rw [← hstart]
    rfl
  have hbalance : (start.run expiringAdapter followingTrades).registry.Awaits balanceWaiter := by
    rw [← hstart]
    exact ⟨⟨by decide +kernel, rfl⟩, fun _ _ hc => absurd hc (by simp [balanceWaiter])⟩
  have htrades : (start.run expiringAdapter followingTrades).registry.Awaits tradesWaiter := by
    rw [← hstart]
    refine ⟨rfl, ?_⟩
    rintro number seen ⟨⟩ channel -
    exact Nat.zero_le _
  have hprivate : (start.run expiringAdapter (followingTrades.take 5)).GrantsPrivately
      expiringAdapter 1 balanceWaiter := by
    rw [← hstart]
    exact ⟨⟨_, _, rfl, rfl, rfl⟩, rfl⟩
  have htold : IsPublic expiringAdapter [ordersRecord] followingTrades "trades" := by
    constructor
    · simp [ordersRecord]
    · simp [followingTrades, Request.oneShot, Request.asPrivate, Request.persistent]
    · simp [expiringAdapter, loginAdapter, Request.oneShot]
  have hmarked : MarkedPrivate expiringAdapter start [ordersRecord] followingTrades "balance" :=
    hgranted (followingTrades.take 5) 1 _ balanceWaiter rfl hprivate (by simp)
  have hspared := (hwaiters tradesWaiter htrades).2 (hpublic "trades" htold)
  have hstate : after.connection.state = .opened := (congrArg Life.state hlife).trans hopened
  have hended := (hwaiters balanceWaiter hbalance).1 hmarked
  have hpending : ((start.run expiringAdapter followingTrades).registry.take tradesWaiter).1 =
      .nothingYet := by
    rw [← hstart]
    rfl
  exact ⟨hstate, hended, hspared.awaits, (congrArg Prod.fst hspared.take).trans hpending⟩

lemma registry_unsubscribe (adapter : Adapter) (station : Station) (hash : String) :
    (station.after adapter (.unsubscribe hash)).registry =
      (station.registry.unsubscribe hash).2 := by
  change (station.connection.unsubscribe adapter hash).2.registry = _
  unfold Connection.unsubscribe
  dsimp only
  split
  · exact Connection.registry_cancel ..
  · rfl

/-- Someone logs in and asks for a private channel once. -/
def askingOnce (hash : String) : List Step :=
  [.opened 0, .begin (.subscribe (Request.oneShot hash .null).asPrivate), .advance 0,
    .settle "auth" (.ok (.message .null)), .advance 0]

/-- The answer comes, and then the channel is followed publicly. -/
def answeredAndFollowed : List Step :=
  askingOnce "status" ++ [.settle "status" (.ok (.message .null)),
    .begin (.subscribe (.persistent "status" .null)), .advance 1]

def statusWaiter : Waiter := ⟨"status", .receiver 0 0⟩

def freshFeed : Station := new "ws://feed" .standard [] (.new .standard .strict)

def askedForBalance : Station := freshFeed.run expiringAdapter (askingOnce "balance")

def releasedBalance : Station := askedForBalance.after expiringAdapter (.unsubscribe "balance")

def followedStatus : Station := freshFeed.run expiringAdapter answeredAndFollowed

/-- A private waiter whose hash has been released still waits, and does not get the error. A public
one gets it, on a hash that was asked for privately and answered before. -/
theorem error_misses_private_and_hits_public :
    let error : Step := .text 0 "null"
    BringsPrivateError expiringAdapter error (.authentication "session expired") ∧
    ((freshFeed.run expiringAdapter ((askingOnce "balance").take 4)).GrantsPrivately
        expiringAdapter 0 balanceWaiter ∧
      releasedBalance.connection.state = .opened ∧
      releasedBalance.registry.Awaits balanceWaiter ∧
      ((releasedBalance.after expiringAdapter error).registry.take balanceWaiter).1 =
        .nothingYet) ∧
    followedStatus.registry.queue "status" = [] ∧
    followedStatus.calls[1]? = some (.done (.ok (some statusWaiter))) ∧
    ((followedStatus.after expiringAdapter error).registry.take statusWaiter).1 =
      .delivery (.error (.authentication "session expired")) := by
  intro error
  have herror : BringsPrivateError expiringAdapter error (.authentication "session expired") :=
    ⟨.null, rfl, rfl, rfl⟩
  have hprivate : (freshFeed.run expiringAdapter ((askingOnce "balance").take 4)).GrantsPrivately
      expiringAdapter 0 balanceWaiter := ⟨⟨_, _, rfl, rfl, rfl⟩, rfl⟩
  have hopened : releasedBalance.connection.state = .opened :=
    (askedForBalance.connection.serves_unsubscribe expiringAdapter "balance").state
  have hregistry : releasedBalance.registry = (askedForBalance.registry.unsubscribe "balance").2 :=
    registry_unsubscribe ..
  have hunmarked : releasedBalance.connection.privateHashes = [] :=
    congrArg Desk.privateHashes
      (askedForBalance.connection.desk_unsubscribe expiringAdapter "balance")
  have hmissed : (releasedBalance.after expiringAdapter error).registry =
      releasedBalance.registry := by
    rw [(herror.settles releasedBalance).2, hunmarked]
    rfl
  have hawaits : releasedBalance.registry.Awaits balanceWaiter := by
    rw [hregistry]
    exact ⟨⟨List.mem_singleton_self 1, rfl⟩, fun _ _ hc => absurd hc (by simp [balanceWaiter])⟩
  have hpending : ((releasedBalance.after expiringAdapter error).registry.take balanceWaiter).1 =
      .nothingYet := by
    rw [hmissed, hregistry]
    rfl
  exact ⟨herror, ⟨hprivate, hopened, hawaits, hpending⟩, rfl, rfl, rfl⟩

end Station

end MarketFeed
