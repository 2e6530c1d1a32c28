import Mathlib.Logic.Relation
import MarketFeed.Proofs.Connection.Lifespan
import MarketFeed.Proofs.Subscriptions.Records

/-!
# The requests of a connection

What a connection does about requests comes down to a few moves: a request is recorded and its frame
queued, a hash is released, something is queued for the socket. Which of them can happen depends on
the state of the connection. The records of an earlier connection are sent again at two moments, the
public ones when the socket opens and the private ones when the call that waits for the login goes
on.
-/

namespace MarketFeed

/-- The part of a connection that is about requests. -/
structure Ledger where
  subscriptions : Subscriptions
  outbox : List Outgoing
  replay : List SubscriptionRecord
  everOpened : Bool
  authenticated : Bool

/-- The frames of records, as they are queued. -/
def SubscriptionRecord.frames (records : List SubscriptionRecord) : List Outgoing :=
  records.map (.frame ·.request)

namespace Ledger

def push (ledger : Ledger) (outgoing : List Outgoing) : Ledger :=
  { ledger with outbox := ledger.outbox ++ outgoing }

lemma push_nil (ledger : Ledger) : ledger.push [] = ledger :=
  congrArg (Ledger.mk _ · _ _ _) (List.append_nil _)

lemma push_push (ledger : Ledger) (first second : List Outgoing) :
    (ledger.push first).push second = ledger.push (first ++ second) :=
  congrArg (Ledger.mk _ · _ _ _) (List.append_assoc ..)

/-- What a step can do at once in a given state of the connection. A request whose key is on record
joins it; a new one is sent, if the socket is open. -/
inductive Move (state : Lifecycle) (step : Station.Step) (ledger : Ledger) : Ledger → Prop
  | queued (outgoing : Outgoing) (hs : state = .opened ∨ ∃ now, step = .probe now) :
      Move state step ledger (ledger.push [outgoing])
  | joined (request : Request) {front back : List (String × SubscriptionRecord)}
      {record : SubscriptionRecord} (hs : state ≠ .connecting)
      (he : ledger.subscriptions.records.entries = front ++ (request.key, record) :: back) :
      Move state step ledger { ledger with
        subscriptions :=
          ledger.subscriptions.joinAt front request.key record back request.messageHash }
  | added (request : Request) (hs : state ≠ .connecting)
      (hk : request.key ∉ ledger.subscriptions.records.keys) :
      Move state step ledger
        ({ ledger with subscriptions := ledger.subscriptions.extend request }.push
          (if state = Lifecycle.opened then [.frame request.frame] else []))
  | released (hash : String) (hs : step = .unsubscribe hash) :
      Move state step ledger
        { ledger with subscriptions := (ledger.subscriptions.removeHash hash).2 }
  | loggedIn (hs : state ≠ .connecting) :
      Move state step ledger { ledger with authenticated := true }

/-- What a step can do by and by, without interruption. -/
abbrev Leads (state : Lifecycle) (step : Station.Step) : Ledger → Ledger → Prop :=
  Relation.ReflTransGen (Move state step)

variable {state : Lifecycle} {step : Station.Step} {before middle after : Ledger}

/-! What a step keeps. -/

lemma Leads.frame (h : Leads state step before after) :
    after.everOpened = before.everOpened ∧ after.replay = before.replay := by
  induction h with
  | refl => exact ⟨rfl, rfl⟩
  | tail _ hmove ih => cases hmove <;> exact ih

/-- Before the socket has opened hashes are released, and that is all. -/
lemma Leads.frame_of_connecting (h : Leads .connecting step before after) :
    after.subscriptions.nextSequence = before.subscriptions.nextSequence ∧
      after.authenticated = before.authenticated := by
  induction h with
  | refl => exact ⟨rfl, rfl⟩
  | tail _ hmove ih =>
    cases hmove with
    | queued | released => exact ih
    | joined _ hs | added _ hs | loggedIn hs => exact absurd rfl hs

/-- What is queued stays in its place. -/
lemma Leads.outbox (h : Leads state step before after) :
    before.outbox <+: after.outbox := by
  induction h with
  | refl => exact List.prefix_rfl
  | tail _ hmove ih =>
    cases hmove with
    | queued | added => exact ih.trans (List.prefix_append ..)
    | _ => exact ih

lemma Leads.numbered (h : Leads state step before after) (hn : before.subscriptions.Numbered) :
    after.subscriptions.Numbered := by
  induction h with
  | refl => exact hn
  | tail _ hmove ih =>
    cases hmove with
    | queued | loggedIn => exact ih
    | released hash => exact ih.removeHash hash
    | joined request _ he => exact ih.joinAt he _
    | added request _ hk => exact ih.extend hk

lemma Leads.nextSequence (h : Leads state step before after) :
    before.subscriptions.nextSequence ≤ after.subscriptions.nextSequence := by
  induction h with
  | refl => exact Nat.le_refl _
  | tail _ hmove ih =>
    cases hmove with
    | added => exact Nat.le_succ_of_le ih
    | _ => exact ih

/-- A record either was there before or is new, and then its frame has been queued if it could
be. -/
lemma Move.provenance (h : Move state step before after) {key : String}
    {record : SubscriptionRecord} (hm : (key, record) ∈ after.subscriptions.records.entries) :
    (∃ earlier, (key, earlier) ∈ before.subscriptions.records.entries ∧
      earlier.Continues record) ∨
    state ≠ .connecting ∧ record.sequence = before.subscriptions.nextSequence ∧
      after.outbox = before.outbox ++
        if state = .opened then [.frame record.request] else [] := by
  cases h with
  | queued | loggedIn => exact .inl ⟨record, hm, .refl record⟩
  | released hash =>
    obtain ⟨earlier, hearlier, hrest⟩ := Subscriptions.mem_removeHash.mp hm
    exact .inl ⟨earlier, hearlier, SubscriptionRecord.continues_without? hrest⟩
  | @joined request front back joined hs he =>
    rcases Subscriptions.mem_joinAt he _ _ hm with heq | hm
    · obtain ⟨rfl, rfl⟩ := Prod.mk.inj heq
      exact .inl ⟨joined, by simp [he], joined.continues_join _⟩
    · exact .inl ⟨record, hm, .refl record⟩
  | added request hs =>
    rcases List.mem_append.mp hm with hm | hm
    · exact .inl ⟨record, hm, .refl record⟩
    · obtain ⟨-, rfl⟩ := Prod.mk.inj (List.mem_singleton.mp hm)
      exact .inr ⟨hs, rfl, rfl⟩

/-- A record stays as long as one of its hashes is not released. -/
lemma Move.survival (h : Move state step before after) {key hash : String}
    {record : SubscriptionRecord} (hm : (key, record) ∈ before.subscriptions.records.entries)
    (hh : hash ∈ record.hashes) (hs : step ≠ .unsubscribe hash) :
    ∃ later, (key, later) ∈ after.subscriptions.records.entries ∧ record.Continues later ∧
      hash ∈ later.hashes := by
  cases h with
  | queued | loggedIn => exact ⟨record, hm, .refl record, hh⟩
  | added => exact ⟨record, List.mem_append_left _ hm, .refl record, hh⟩
  | released other ho =>
    have hne : hash ≠ other := fun heq => hs (heq ▸ ho)
    cases hrest : record.without? other with
    | none => exact absurd (SubscriptionRecord.without?_eq_none hrest hash hh) hne
    | some rest =>
      exact ⟨rest, Subscriptions.mem_removeHash.mpr ⟨record, hm, hrest⟩,
        SubscriptionRecord.continues_without? hrest,
        ((SubscriptionRecord.without?_frame hrest).2.2.2.2 hash).mpr ⟨hh, hne⟩⟩
  | @joined request front back joined _ he =>
    rw [he] at hm
    rcases List.mem_append.mp hm with hm | hm
    · exact ⟨record, List.mem_append_left _ hm, .refl record, hh⟩
    · rcases List.mem_cons.mp hm with heq | hm
      · obtain ⟨rfl, rfl⟩ := Prod.mk.inj heq
        exact ⟨record.join request.messageHash, by simp [Subscriptions.joinAt],
          record.continues_join _, ((record.join_frame _).2.2.2.2 hash).mpr (.inl hh)⟩
      · exact ⟨record, List.mem_append_right _ (List.mem_cons_of_mem _ hm), .refl record, hh⟩

lemma Leads.provenance (h : Leads state step before after) {key : String}
    {record : SubscriptionRecord} (hm : (key, record) ∈ after.subscriptions.records.entries) :
    (∃ earlier, (key, earlier) ∈ before.subscriptions.records.entries ∧
      earlier.Continues record) ∨
    before.subscriptions.nextSequence ≤ record.sequence := by
  induction h generalizing record with
  | refl => exact .inl ⟨record, hm, .refl record⟩
  | tail hleads hmove ih =>
    rcases hmove.provenance hm with ⟨middle, hmiddle, hcontinues⟩ | ⟨-, hsequence, -⟩
    · rcases ih hmiddle with ⟨earlier, hearlier, hbefore⟩ | hle
      · exact .inl ⟨earlier, hearlier, hbefore.trans hcontinues⟩
      · exact .inr (hcontinues.sequence ▸ hle)
    · exact .inr (hsequence ▸ Leads.nextSequence hleads)

lemma Leads.survival (h : Leads state step before after) {key hash : String}
    {record : SubscriptionRecord} (hm : (key, record) ∈ before.subscriptions.records.entries)
    (hh : hash ∈ record.hashes) (hs : step ≠ .unsubscribe hash) :
    ∃ later, (key, later) ∈ after.subscriptions.records.entries ∧ record.Continues later ∧
      hash ∈ later.hashes := by
  induction h with
  | refl => exact ⟨record, hm, .refl record, hh⟩
  | tail _ hmove ih =>
    obtain ⟨middle, hmiddle, hcontinues, hmh⟩ := ih
    obtain ⟨later, hlater, hcontinues', hlh⟩ := hmove.survival hmiddle hmh hs
    exact ⟨later, hlater, hcontinues.trans hcontinues', hlh⟩

/-- The frames of the records that bear a number from `number` on have been queued, after the first
`length` ones, as soon as the connection is open. -/
structure Requested (state : Lifecycle) (number length : Nat) (ledger : Ledger) : Prop where
  queued : length ≤ ledger.outbox.length
  early : state = .connecting → ledger.subscriptions.nextSequence ≤ number
  sent : state = .opened → ∀ entry ∈ ledger.subscriptions.records.entries,
    number ≤ entry.2.sequence → .frame entry.2.request ∈ ledger.outbox.drop length

variable {number length : Nat}

lemma requested_of_numbered (hn : after.subscriptions.Numbered) (state : Lifecycle) :
    Requested state after.subscriptions.nextSequence after.outbox.length after := by
  refine ⟨Nat.le_refl _, fun _ => Nat.le_refl _, fun _ entry hm hle => ?_⟩
  exact absurd (hn.below _ (List.mem_map_of_mem hm)) (Nat.not_lt_of_le hle)

lemma Requested.push (h : Requested state number length before) (outgoing : List Outgoing) :
    Requested state number length (before.push outgoing) := by
  refine ⟨?_, h.early, fun ho entry hm hle => ?_⟩
  · exact Nat.le_trans h.queued (List.prefix_append ..).length_le
  · exact (List.drop_append_of_le_length h.queued).symm ▸
      List.mem_append_left _ (h.sent ho entry hm hle)

lemma Requested.move (h : Requested state number length before) (hm : Move state step before after) :
    Requested state number length after := by
  have hleads : Leads state step before after := .single hm
  obtain ⟨more, hmore⟩ := hleads.outbox
  have hdrop : after.outbox.drop length = before.outbox.drop length ++ more := by
    rw [← hmore, List.drop_append_of_le_length h.queued]
  refine ⟨Nat.le_trans h.queued hleads.outbox.length_le, fun hc => ?_, ?_⟩
  · subst hc
    exact hleads.frame_of_connecting.1 ▸ h.early rfl
  · rintro ho ⟨key, record⟩ hentry hle
    rcases hm.provenance hentry with ⟨earlier, hearlier, hcontinues⟩ | ⟨-, -, hsent⟩
    · have hframe := h.sent ho _ hearlier (hcontinues.sequence ▸ hle)
      rw [hdrop]
      exact List.mem_append_left _ (hcontinues.request ▸ hframe)
    · have hnew : more = [.frame record.request] := by
        rw [if_pos ho] at hsent
        exact List.append_cancel_left (hmore.trans hsent)
      rw [hdrop, hnew]
      exact List.mem_append_right _ (List.mem_singleton_self _)

lemma Requested.leads (h : Requested state number length before)
    (hl : Leads state step before after) : Requested state number length after := by
  induction hl with
  | refl => exact h
  | tail _ hm ih => exact ih.move hm

/-- The ledger of a connection that took over the given records. They bear the numbers of their
places, and wait for the socket to open. -/
structure TookOver (records : List SubscriptionRecord) (ledger : Ledger) : Prop where
  numbered : ledger.subscriptions.Numbered
  enough : records.length ≤ ledger.subscriptions.nextSequence
  waiting : ledger.everOpened = false → ledger.replay = records
  restored : ∀ entry ∈ ledger.subscriptions.records.entries,
    entry.2.sequence < records.length → ∃ source, records[entry.2.sequence]? = some source ∧
      source.Continues { entry.2 with sequence := source.sequence }

variable {records : List SubscriptionRecord}

lemma TookOver.leads (h : before.TookOver records) (hl : Leads state step before after) :
    after.TookOver records where
  numbered := hl.numbered h.numbered
  enough := Nat.le_trans h.enough hl.nextSequence
  waiting := fun he => hl.frame.2.trans (h.waiting (hl.frame.1 ▸ he))
  restored := by
    rintro ⟨key, record⟩ hm hlt
    rcases hl.provenance hm with ⟨earlier, hearlier, hcontinues⟩ | hle
    · obtain ⟨source, hsource, hsame⟩ := h.restored _ hearlier (hcontinues.sequence ▸ hlt)
      refine ⟨source, hcontinues.sequence ▸ hsource, ?_⟩
      exact ⟨hcontinues.request.trans hsame.request, hcontinues.isPrivate.trans hsame.isPrivate, rfl⟩
    · exact absurd (Nat.lt_of_lt_of_le hlt h.enough) (Nat.not_lt_of_le hle)

lemma TookOver.push (h : before.TookOver records) (outgoing : List Outgoing) :
    (before.push outgoing).TookOver records :=
  ⟨h.numbered, h.enough, h.waiting, h.restored⟩

end Ledger

namespace Connection

variable {connection : Connection} {step : Station.Step}

def ledger (connection : Connection) : Ledger :=
  ⟨connection.subscriptions, connection.outbox, connection.replay, connection.everOpened,
    connection.authenticated⟩

lemma ledger_resend (connection : Connection) (records : List SubscriptionRecord) :
    (connection.resend records).ledger =
      connection.ledger.push (SubscriptionRecord.frames records) := by
  unfold resend SubscriptionRecord.frames
  induction records generalizing connection with
  | nil => exact (Ledger.push_nil _).symm
  | cons record rest ih =>
    rw [List.foldl_cons, ih]
    exact connection.ledger.push_push [.frame record.request] _

lemma leads_send (connection : Connection) (step : Station.Step) (frame : Json) :
    connection.ledger.Leads connection.state step (connection.send frame).2.ledger := by
  unfold send
  split
  · rename_i hopen
    exact .single (.queued (.frame frame) (.inl (by simpa [isOpen] using hopen)))
  · exact .refl

lemma ledger_markPrivate (connection : Connection) (request : Request) :
    (connection.markPrivate request).ledger = connection.ledger := by
  unfold markPrivate
  split <;> rfl

/-- The frame of a request is queued if the socket is open. -/
lemma ledger_sendFor (connection : Connection) (waiter : Waiter) (frame : Json) :
    (connection.sendFor waiter frame).2.ledger = connection.ledger.push
      (if connection.state = .opened then [.frame frame] else []) := by
  unfold sendFor send
  by_cases hopen : connection.state = .opened
  · rw [if_pos (by simpa [isOpen] using hopen), if_pos hopen]
    rfl
  · rw [if_neg (by simpa [isOpen] using hopen), if_neg hopen]
    exact (Ledger.push_nil _).symm

lemma ledger_enter (connection : Connection) (request : Request) :
    (connection.enter request).2.ledger = connection.ledger :=
  connection.ledger_markPrivate request

lemma ledger_ask (connection : Connection) (request : Request) :
    (connection.ask request).2.ledger = connection.ledger.push
      (if connection.state = .opened then [.frame request.frame] else []) := by
  have hstate : (connection.enter request).2.state = connection.state :=
    (connection.serves_markPrivate request).state
  rw [ask, ledger_sendFor, hstate, ledger_enter]

lemma leads_takeRequest (hs : connection.state ≠ .connecting) (step : Station.Step)
    (request : Request) :
    connection.ledger.Leads connection.state step (connection.takeRequest request).2.ledger := by
  have htaking := connection.taking request
  generalize connection.takeRequest request = taken at htaking ⊢
  cases htaking with
  | sent =>
    rw [ledger_ask]
    split
    · rename_i hopen
      exact .single (.queued (.frame request.frame) (.inl hopen))
    · rw [Ledger.push_nil]
  | refused => exact .refl
  | joined _ _ he hjoined =>
    rw [ledger_enter, hjoined]
    exact .single (.joined request hs he)
  | added _ _ hn _ hadded =>
    rw [ledger_ask, hadded]
    exact .single (.added request hs hn)

lemma leads_cancel (connection : Connection) (adapter : Adapter)
    (records : List SubscriptionRecord) :
    connection.ledger.Leads connection.state step (connection.cancel adapter records).2.ledger := by
  induction records generalizing connection with
  | nil => exact .refl
  | cons record rest ih =>
    unfold cancel
    cases adapter.unsubscribeFrame record with
    | none => exact ih connection
    | some frame =>
      have hsend := connection.leads_send step frame
      have hstate := (connection.serves_send frame).state
      dsimp only
      cases hs : connection.send frame with
      | mk result sent =>
        rw [hs] at hsend hstate
        cases result with
        | ok => exact hsend.trans (hstate ▸ ih sent)
        | error fault => exact hsend

lemma leads_unsubscribe (adapter : Adapter) (connection : Connection) {hash : String}
    (hs : step = .unsubscribe hash) : connection.ledger.Leads connection.state step
      (connection.unsubscribe adapter hash).2.ledger := by
  let freed := { connection with
    subscriptions := (connection.subscriptions.removeHash hash).2
    registry := (connection.registry.unsubscribe hash).2
    privateHashes := connection.privateHashes.filter (· ≠ hash) }
  have hreleased : connection.ledger.Leads connection.state step freed.ledger :=
    .single (.released hash hs)
  unfold unsubscribe
  dsimp only
  split
  · exact hreleased.trans (freed.leads_cancel adapter _)
  · exact hreleased

lemma ledger_settleAll (connection : Connection) (deliveries : List (String × Delivery Update)) :
    (connection.settleAll deliveries).ledger = connection.ledger := by
  unfold settleAll
  induction deliveries generalizing connection with
  | nil => rfl
  | cons delivery rest ih => exact ih (connection.settle delivery.1 delivery.2).2

end Connection

/-! What becomes of a call. -/

def Stage.isLoggingIn : Stage → Bool
  | .loggingIn _ => true
  | _ => false

namespace Call

/-- Nobody is logged in on a connection that has yet to open, and nobody is about to be. -/
def Waits (call : Call) (connection : Connection) : Prop :=
  connection.state = .connecting →
    connection.authenticated = false ∧ call.stage.isLoggingIn = false

/-- All that can become of a call that goes on. It does what it is for on a connection that has
opened, and if it has to be, that is logged in. -/
inductive Advance (step : Station.Step) (call : Call) (connection : Connection) :
    Progress → Connection → Prop
  | waits {stage : Stage} {after : Connection}
      (hl : connection.ledger.Leads connection.state step after.ledger)
      (hs : connection.state = .connecting → stage.isLoggingIn = false) :
      Advance step call connection (.blocked { call with stage }) after
  | fails {fault : Fault} {after : Connection}
      (hl : connection.ledger.Leads connection.state step after.ledger) :
      Advance step call connection (.done (.error fault)) after
  | completes {middle : Connection}
      (hl : connection.ledger.Leads connection.state step middle.ledger)
      (hm : middle.state = connection.state) (hs : connection.state ≠ .connecting)
      (ha : call.purpose.needsLogin = true → middle.authenticated = true) :
      Advance step call connection (call.complete middle).1 (call.complete middle).2

variable {adapter : Adapter} {step : Station.Step} {call : Call} {connection middle : Connection}

lemma Advance.of_leads {progress : Progress} {after : Connection}
    (h : Advance step call middle progress after)
    (hl : connection.ledger.Leads connection.state step middle.ledger)
    (hm : middle.state = connection.state) : Advance step call connection progress after := by
  cases h with
  | waits hl' hs => exact .waits (hl.trans (hm ▸ hl')) (hm ▸ hs)
  | fails hl' => exact .fails (hl.trans (hm ▸ hl'))
  | completes hl' hm' hs ha => exact .completes (hl.trans (hm ▸ hl')) (hm'.trans hm) (hm ▸ hs) ha

lemma complete_ne_blocked (call other : Call) (connection : Connection) :
    (call.complete connection).1 ≠ .blocked other := by
  unfold complete
  cases call.purpose <;> simp

/-- A call that still waits is the same as before, but for how far it has come. -/
lemma Advance.of_blocked {blocked : Call} {after : Connection}
    (h : Advance step call connection (.blocked blocked) after) :
    blocked.purpose = call.purpose ∧
      (connection.state = .connecting → blocked.stage.isLoggingIn = false) := by
  generalize hp : Progress.blocked blocked = progress at h
  cases h with
  | waits _ hs =>
    obtain rfl := Progress.blocked.inj hp
    exact ⟨rfl, hs⟩
  | fails => exact absurd hp (by simp)
  | @completes middle => exact absurd hp.symm (call.complete_ne_blocked blocked middle)

lemma ledger_joinQueue (call : Call) (connection : Connection) :
    (call.joinQueue connection).ledger = connection.ledger := by
  unfold joinQueue
  split <;> rfl

lemma advance_endTurn (hs : connection.state ≠ .connecting) (call : Call)
    (result : Except Fault Unit) : Advance step call connection
      (call.endTurn connection result).1 (call.endTurn connection result).2 := by
  unfold endTurn
  cases result with
  | error fault => exact .fails .refl
  | ok => exact .completes (.single (.loggedIn hs)) rfl hs fun _ => rfl

lemma advance_judge (hs : connection.state ≠ .connecting) (login : Login) (call : Call)
    (waiter : Waiter) : Advance step call connection
      (call.judge login waiter connection).1 (call.judge login waiter connection).2 := by
  unfold judge
  cases connection.registry.take waiter with
  | mk arrival taken =>
    cases arrival with
    | nothingYet => exact .waits .refl fun hc => absurd hc hs
    | delivery delivery =>
      let dropped := { connection with registry := connection.registry.discard taken }
      have hdropped : dropped.state ≠ .connecting := hs
      have hended : Advance step call dropped _ _ :=
        advance_endTurn hdropped call (delivery.bind login.accept)
      exact hended.of_leads .refl rfl
    -- the channel has ended
    | _ => exact advance_endTurn hs call _

lemma advance_logIn (adapter : Adapter) (call : Call) (connection : Connection) :
    Advance step call connection
      (call.logIn adapter connection).1 (call.logIn adapter connection).2 := by
  unfold logIn Connection.ready?
  cases hstate : connection.state with
  | connecting => exact .waits .refl fun _ => rfl
  | closing => exact advance_endTurn (by simp [hstate]) call _
  | closed => exact advance_endTurn (by simp [hstate]) call _
  | opened =>
    have hs : connection.state ≠ .connecting := by simp [hstate]
    dsimp only
    cases adapter.login with
    | none => exact advance_endTurn hs call _
    | some login =>
      have hleads := Connection.leads_takeRequest hs step login.request
      have hstate' := (connection.serves_takeRequest login.request).state
      dsimp only
      cases hr : connection.takeRequest login.request with
      | mk result taken =>
        rw [hr] at hleads hstate'
        cases result with
        | error fault => exact (advance_endTurn (hstate' ▸ hs) call _).of_leads hleads hstate'
        | ok waiter => exact (advance_judge (hstate' ▸ hs) login call waiter).of_leads hleads hstate'

lemma advance_takeTurn (hw : connection.state = .connecting → connection.authenticated = false)
    (adapter : Adapter) (call : Call) : Advance step call connection
      (call.takeTurn adapter connection).1 (call.takeTurn adapter connection).2 := by
  have hledger := call.ledger_joinQueue connection
  have hstate := (call.serves_joinQueue connection).state
  unfold takeTurn
  split
  · rename_i ha
    have hs : connection.state ≠ .connecting := fun hc => by
      rw [hw hc] at ha
      exact absurd ha (by simp)
    have hleft : connection.ledger.Leads connection.state step
        (call.leaveQueue connection).ledger := .refl
    exact .completes hleft rfl hs fun _ => ha
  · dsimp only
    split
    · exact (advance_logIn adapter call _).of_leads (hledger ▸ .refl) hstate
    · exact .waits (hledger ▸ .refl) fun _ => rfl

lemma advance_cases (hw : call.Waits connection) (adapter : Adapter) :
    Advance step call connection
      (call.advance adapter connection).1 (call.advance adapter connection).2 := by
  unfold advance
  cases hstage : call.stage with
  | awaitingTurn => exact advance_takeTurn (fun hc => (hw hc).1) adapter call
  | holdingTurn => exact advance_logIn adapter call connection
  | loggingIn waiter =>
    have hs : connection.state ≠ .connecting := fun hc => by
      have hquiet := (hw hc).2
      rw [hstage] at hquiet
      exact absurd hquiet (by simp [Stage.isLoggingIn])
    dsimp only
    cases adapter.login with
    | none => exact advance_endTurn hs call _
    | some login => exact advance_judge hs login call waiter
  | awaitingOpen =>
    have hwait : Advance step call connection (.blocked call) connection :=
      @Advance.waits step call connection call.stage connection .refl fun hc => (hw hc).2
    dsimp only
    unfold Connection.ready?
    cases hstate : connection.state with
    | connecting => exact hwait
    | closing => exact .fails .refl
    | closed => exact .fails .refl
    | opened =>
      dsimp only
      split
      · exact advance_takeTurn (fun hc => (hw hc).1) adapter call
      · rename_i hn
        exact .completes .refl rfl (by simp [hstate]) fun ha => absurd ha hn

end Call

/-! What comes in concerns no request. -/

namespace Circuit

lemma ledger_conclude (circuit : Circuit) (dispatch : Dispatch) (result : Except Stop Unit) :
    (circuit.conclude dispatch result).2.connection.ledger = circuit.connection.ledger := by
  unfold conclude
  cases result with
  | ok => exact Connection.ledger_settleAll ..
  | error stop =>
    cases stop with
    | overflow overflow => rfl
    | fault fault =>
      dsimp only
      split
      · rfl
      · exact Connection.ledger_settleAll ..

lemma ledger_applyFrameError (circuit : Circuit) (error : FrameError) :
    (circuit.applyFrameError error).2.connection.ledger = circuit.connection.ledger := by
  unfold applyFrameError
  cases error.scope with
  | hashes hashes => exact Connection.ledger_settleAll ..
  | privateChannels => exact Connection.ledger_settleAll ..
  | connection => rfl

lemma ledger_dispatch (adapter : Adapter) (circuit : Circuit) (now : Int) (frame : Json) :
    (circuit.dispatch adapter now frame).2.connection.ledger = circuit.connection.ledger := by
  unfold dispatch
  split
  · rfl
  · cases adapter.classify frame with
    | some error => exact circuit.ledger_applyFrameError error
    | none =>
      dsimp only
      cases (adapter.streamKind frame).bind adapter.handlers.get? with
      | none => rfl
      | some handler => exact circuit.ledger_conclude _ _

lemma ledger_takeText (adapter : Adapter) (circuit : Circuit) (now : Int) (text : String) :
    (circuit.takeText adapter now text).2.connection.ledger = circuit.connection.ledger := by
  unfold takeText
  dsimp only
  cases Json.parse text with
  | ok frame => exact ledger_dispatch adapter (circuit.countReceived now _) now frame
  | error fault => rfl

lemma ledger_takeBytes (adapter : Adapter) (circuit : Circuit) (now : Int) (bytes : List UInt8) :
    (circuit.takeBytes adapter now bytes).2.connection.ledger = circuit.connection.ledger := by
  unfold takeBytes
  cases String.fromUTF8? ⟨bytes.toArray⟩ with
  | some text => exact ledger_takeText adapter circuit now text
  | none => rfl

lemma ledger_beginTeardown (circuit : Circuit) (fault : Fault) :
    (circuit.beginTeardown fault).2.connection.ledger = circuit.connection.ledger := by
  unfold beginTeardown
  split <;> rfl

/-- A socket that has opened sends the public records of an earlier connection again. The private
ones are left to a call, unless the connection has been closed by then. -/
lemma opened_ledger (circuit : Circuit) (now : Int) (h : circuit.connection.everOpened = false) :
    (circuit.opened now).2.connection.ledger =
      { circuit.connection.ledger.push (SubscriptionRecord.frames
          (circuit.connection.replay.filter (!·.isPrivate))) with
        replay := []
        everOpened := true } ∧
    (circuit.opened now).2.connection.state = (if circuit.connection.state = .connecting
      then .opened else circuit.connection.state) ∧
    (circuit.opened now).1 = if circuit.connection.state = .connecting
      then circuit.connection.replay.filter (·.isPrivate) else [] := by
  unfold opened
  rw [if_neg (by simp [h]), List.partition_eq_filter_filter]
  dsimp only
  let started := { circuit.connection with
    stats := circuit.connection.stats.recordConnected now
    everOpened := true
    replay := [] }
  let publicRecords := circuit.connection.replay.filter (not ∘ (·.isPrivate))
  have hledger := started.ledger_resend publicRecords
  have hstate : (started.resend publicRecords).state = circuit.connection.state :=
    (started.serves_resend publicRecords).state
  split
  · rename_i hlate
    have hlate : circuit.connection.state ≠ .connecting := fun hc => hlate (hstate.trans hc)
    rw [if_neg hlate, if_neg hlate]
    exact ⟨hledger, hstate, rfl⟩
  · rename_i hconnecting
    have hconnecting : (started.resend publicRecords).state = .connecting := by
      simpa using hconnecting
    rw [if_pos (hstate.symm.trans hconnecting), if_pos (hstate.symm.trans hconnecting)]
    dsimp only
    split
    · exact ⟨hledger, rfl, rfl⟩
    · exact ⟨hledger, rfl, rfl⟩

lemma opened_of_everOpened (circuit : Circuit) (now : Int)
    (h : circuit.connection.everOpened = true) : circuit.opened now = ([], circuit) := by
  unfold opened
  rw [if_pos h]

end Circuit

end MarketFeed
