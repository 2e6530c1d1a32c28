import Mathlib.Data.List.Nodup
import MarketFeed.Proofs.Connection.Desk
import MarketFeed.Proofs.Subscriptions.Handover

/-!
# What the exchange is told

The exchange knows of a subscription what the frames tell it: that it begins, and that it ends. On
an open connection that took over no records these frames take turns for every key, and the
subscriptions that the exchange takes to be under way are those on record.
-/

namespace MarketFeed

/-- What is queued for the socket, by what it is about: a subscription begins or ends, or
neither. -/
inductive Notice where
  | began (key : String) (frame : Json)
  | ended (key : String) (frame : Json)
  | aside (outgoing : Outgoing)

namespace Notice

def outgoing : Notice → Outgoing
  | began _ frame | ended _ frame => .frame frame
  | aside outgoing => outgoing

/-- What a notice says of the subscription of a key: whether it is under way from now on. -/
def turn? (key : String) : Notice → Option Bool
  | began other _ => if other = key then some true else none
  | ended other _ => if other = key then some false else none
  | aside _ => none

def turns (key : String) (notices : List Notice) : List Bool := notices.filterMap (turn? key)

lemma turns_append (key : String) (first second : List Notice) :
    turns key (first ++ second) = turns key first ++ turns key second := List.filterMap_append

lemma turns_aside (key : String) (outgoing : List Outgoing) :
    turns key (outgoing.map aside) = [] := by
  rw [turns, List.filterMap_map]
  exact List.filterMap_eq_nil_iff.mpr fun _ _ => rfl

end Notice

/-- Beginnings and ends take turns. The first turn is a beginning, and so is the last one exactly if
the subscription is on record. -/
structure TakesTurns (turns : List Bool) (isRecorded : Prop) : Prop where
  alternate : ∀ place turn, turns[place]? = some turn → (turn = true ↔ place % 2 = 0)
  recorded : isRecorded ↔ turns.length % 2 = 1

namespace TakesTurns

variable {turns : List Bool} {isRecorded : Prop}

lemma concat {turn : Bool} {becomes : Prop} (h : TakesTurns turns isRecorded)
    (ht : turn = true ↔ ¬isRecorded) (hb : becomes ↔ turn = true) :
    TakesTurns (turns ++ [turn]) becomes := by
  have hplace : turn = true ↔ turns.length % 2 = 0 := by
    rw [ht, h.recorded]
    omega
  refine ⟨fun place other hother => ?_, ?_⟩
  · rcases Nat.lt_trichotomy place turns.length with hlt | rfl | hgt
    · rw [List.getElem?_append_left hlt] at hother
      exact h.alternate place other hother
    · rw [List.getElem?_concat_length] at hother
      obtain rfl := Option.some.inj hother
      exact hplace
    · rw [List.getElem?_eq_none (by simp; omega)] at hother
      exact absurd hother (by simp)
  · rw [hb, hplace, List.length_append, List.length_singleton]
    omega

lemma getLast?_eq (h : TakesTurns turns isRecorded) :
    turns.getLast? = some true ↔ isRecorded := by
  rw [h.recorded, List.getLast?_eq_getElem?]
  constructor
  · intro hlast
    obtain ⟨hlt, -⟩ := List.getElem?_eq_some_iff.mp hlast
    have heven := (h.alternate _ _ hlast).mp rfl
    omega
  · intro hodd
    have hlt : turns.length - 1 < turns.length := by omega
    have hlast : turns[turns.length - 1]? = some turns[turns.length - 1] :=
      List.getElem?_eq_getElem hlt
    rw [hlast, Option.some.injEq]
    exact (h.alternate _ _ hlast).mpr (by omega)

end TakesTurns

namespace Desk

variable {desk : Desk} {room : Nat} {told : List Notice}

/-- What the exchange is told for a request. -/
def notice (isOpen : Bool) (desk : Desk) (request : Request) : List Notice :=
  if isOpen && desk.needsFrame request then
    match request.kind with
    | .oneShot => [.aside (.frame request.frame)]
    | .persistent => [.began request.key request.frame]
  else []

def notices (isOpen : Bool) (desk : Desk) : List Request → List Notice
  | [] => []
  | request :: rest => desk.notice isOpen request ++ (desk.take isOpen request).notices isOpen rest

/-- What the exchange is told when a hash is released. -/
def farewells (adapter : Adapter) (desk : Desk) (hash : String) : List Notice :=
  (desk.subscriptions.dropped hash).filterMap fun entry =>
    (adapter.unsubscribeFrame entry.2).map (.ended entry.1)

lemma outbox_mark (desk : Desk) (request : Request) : (desk.mark request).outbox = desk.outbox := by
  unfold mark
  split <;> rfl

lemma subscriptions_mark (desk : Desk) (request : Request) :
    (desk.mark request).subscriptions = desk.subscriptions := by
  unfold mark
  split <;> rfl

lemma outbox_take (isOpen : Bool) (desk : Desk) (request : Request) :
    (desk.take isOpen request).outbox =
      desk.outbox ++ (desk.notice isOpen request).map Notice.outgoing := by
  unfold notice needsFrame
  cases hk : request.kind with
  | oneShot =>
    rw [take_of_oneShot hk, push, outbox_mark, Bool.and_true]
    cases isOpen <;> rfl
  | persistent =>
    dsimp only
    cases ha : desk.subscriptions.add request with
    | mk result subscriptions =>
      cases result with
      | error fault =>
        rw [take_of_error hk ha, Bool.and_false]
        exact (List.append_nil _).symm
      | ok isNew =>
        rw [take_of_ok hk ha, push, outbox_mark]
        cases isOpen <;> cases isNew <;> rfl

lemma outbox_takeAll (isOpen : Bool) (desk : Desk) (requests : List Request) :
    (desk.takeAll isOpen requests).outbox =
      desk.outbox ++ (desk.notices isOpen requests).map Notice.outgoing := by
  induction requests generalizing desk with
  | nil => exact (List.append_nil _).symm
  | cons request rest ih =>
    have hrest := ih (desk.take isOpen request)
    rw [outbox_take, List.append_assoc, ← List.map_append] at hrest
    exact hrest

lemma outbox_release (adapter : Adapter) (isOpen : Bool) (desk : Desk) (hash : String) :
    (desk.release adapter isOpen hash).outbox = desk.outbox ++
      ((if isOpen then desk.farewells adapter hash else []).map Notice.outgoing) := by
  unfold release push
  dsimp only
  cases isOpen with
  | false => rfl
  | true =>
    rw [if_pos rfl, if_pos rfl, Subscriptions.removed_eq, farewells, List.filterMap_map,
      List.map_filterMap, List.map_filterMap]
    congr 2
    funext entry
    cases h : adapter.unsubscribeFrame entry.2 <;> simp [h, Notice.outgoing]

/-- The exchange has been told of the subscriptions on record, and there is room for them. -/
structure Told (desk : Desk) (room : Nat) (told : List Notice) : Prop where
  turns : ∀ key, TakesTurns (Notice.turns key told) (key ∈ desk.subscriptions.records.keys)
  capacity : desk.subscriptions.capacity = room
  bounded : desk.subscriptions.count ≤ room

lemma Told.of_silent {after : Desk} {more : List Notice} (h : desk.Told room told)
    (hs : after.subscriptions.records.keys = desk.subscriptions.records.keys)
    (hc : after.subscriptions.capacity = desk.subscriptions.capacity)
    (hm : ∀ key, Notice.turns key more = []) : after.Told room (told ++ more) := by
  refine ⟨fun key => ?_, hc.trans h.capacity, ?_⟩
  · rw [Notice.turns_append, hm, List.append_nil, hs]
    exact h.turns key
  · rw [Subscriptions.count_eq_length_keys, hs, ← Subscriptions.count_eq_length_keys]
    exact h.bounded

lemma Told.extend (h : desk.Told room told) {request : Request}
    (hk : request.key ∉ desk.subscriptions.records.keys)
    (hf : desk.subscriptions.count < desk.subscriptions.capacity) {after : Desk}
    (ha : after.subscriptions = desk.subscriptions.extend request) :
    after.Told room (told ++ [.began request.key request.frame]) := by
  have hkeys : after.subscriptions.records.keys =
      desk.subscriptions.records.keys ++ [request.key] := by
    rw [ha]
    exact List.map_append
  refine ⟨fun key => ?_, ?_, ?_⟩
  · rw [Notice.turns_append, hkeys]
    by_cases hkey : request.key = key
    · have hnew : key ∉ desk.subscriptions.records.keys := hkey ▸ hk
      have hbegan : Notice.turns key [.began request.key request.frame] = [true] := by
        simp [Notice.turns, Notice.turn?, hkey]
      rw [hbegan]
      exact (h.turns key).concat (by simp [hnew]) (by simp [hkey])
    · have hquiet : Notice.turns key [.began request.key request.frame] = [] := by
        simp [Notice.turns, Notice.turn?, hkey]
      have hsame : key ∈ desk.subscriptions.records.keys ++ [request.key] ↔
          key ∈ desk.subscriptions.records.keys := by
        simp [Ne.symm hkey]
      rw [hquiet, List.append_nil, hsame]
      exact h.turns key
  · rw [ha]
    exact h.capacity
  · rw [Subscriptions.count_eq_length_keys, hkeys, List.length_append, List.length_singleton,
      ← Subscriptions.count_eq_length_keys, ← h.capacity]
    exact hf

lemma Told.take (h : desk.Told room told) (request : Request) :
    (desk.take true request).Told room (told ++ desk.notice true request) := by
  unfold notice needsFrame
  cases hk : request.kind with
  | oneShot =>
    rw [take_of_oneShot hk]
    have hsubscriptions := desk.subscriptions_mark request
    exact h.of_silent (by rw [push, hsubscriptions]) (by rw [push, hsubscriptions])
      fun key => Notice.turns_aside key [.frame request.frame]
  | persistent =>
    have hadmission := desk.subscriptions.admission request
    dsimp only
    cases ha : desk.subscriptions.add request with
    | mk result subscriptions =>
      have hsubscriptions := { desk with subscriptions }.subscriptions_mark request
      rw [ha] at hadmission
      dsimp only at hadmission
      cases hadmission with
      | refused =>
        rw [take_of_error hk ha]
        exact h.of_silent rfl rfl fun _ => rfl
      | joined he =>
        rw [take_of_ok hk ha]
        refine h.of_silent ?_ ?_ fun _ => rfl
        · rw [push, hsubscriptions]
          exact Subscriptions.keys_joinAt he _
        · rw [push, hsubscriptions]
          rfl
      | added hnew hroom =>
        rw [take_of_ok hk ha]
        exact h.extend hnew hroom hsubscriptions

lemma Told.takeAll (h : desk.Told room told) (requests : List Request) :
    (desk.takeAll true requests).Told room (told ++ desk.notices true requests) := by
  induction requests generalizing desk told with
  | nil => exact (List.append_nil told).symm ▸ h
  | cons request rest ih =>
    have hrest := ih (h.take request)
    rwa [List.append_assoc] at hrest

/-- The subscriptions of the records that are dropped end, each of them once. -/
lemma turns_farewells {adapter : Adapter}
    (ha : ∀ record, (adapter.unsubscribeFrame record).isSome = true)
    (hn : desk.subscriptions.records.keys.Nodup) (hash key : String) :
    Notice.turns key (desk.farewells adapter hash) =
      if key ∈ (desk.subscriptions.dropped hash).map (·.1) then [false] else [] := by
  have hnodup := Subscriptions.nodup_dropped hn hash
  unfold farewells Notice.turns
  generalize desk.subscriptions.dropped hash = entries at hnodup
  induction entries with
  | nil => rfl
  | cons entry rest ih =>
    obtain ⟨frame, hframe⟩ := Option.isSome_iff_exists.mp (ha entry.2)
    obtain ⟨hnew, hrest⟩ := List.nodup_cons.mp hnodup
    have hturns := ih hrest
    rw [List.filterMap_cons, hframe, Option.map_some, List.filterMap_cons, hturns]
    by_cases hkey : entry.1 = key
    · have hgone : key ∉ rest.map (·.1) := hkey ▸ hnew
      rw [if_neg hgone, if_pos (by simp [hkey])]
      simp [Notice.turn?, hkey]
    · have hmem : key ∈ (entry :: rest).map (·.1) ↔ key ∈ rest.map (·.1) := by
        rw [List.map_cons, List.mem_cons, or_iff_right (Ne.symm hkey)]
      have hother : Notice.turn? key (.ended entry.1 frame) = none := if_neg hkey
      simp only [hother, hmem]

lemma Told.release {adapter : Adapter} (h : desk.Told room told)
    (ha : ∀ record, (adapter.unsubscribeFrame record).isSome = true)
    (hn : desk.subscriptions.records.keys.Nodup) (hash : String) :
    (desk.release adapter true hash).Told room (told ++ desk.farewells adapter hash) := by
  have hkeys := Subscriptions.removeHash_sublist Prod.fst (fun _ _ _ _ _ => rfl)
    desk.subscriptions hash
  refine ⟨fun key => ?_, h.capacity, ?_⟩
  · rw [Notice.turns_append, turns_farewells ha hn]
    change TakesTurns _ (key ∈ (desk.subscriptions.removeHash hash).2.records.keys)
    have hdropped : key ∈ (desk.subscriptions.dropped hash).map (·.1) ↔
        key ∈ desk.subscriptions.records.keys ∧
          key ∉ (desk.subscriptions.removeHash hash).2.records.keys := Subscriptions.mem_dropped hn
    by_cases hd : key ∈ (desk.subscriptions.dropped hash).map (·.1)
    · rw [if_pos hd]
      obtain ⟨hmem, hgone⟩ := hdropped.mp hd
      exact (h.turns key).concat (by simp [hmem]) (by simp [hgone])
    · rw [if_neg hd, List.append_nil]
      have hsame : key ∈ (desk.subscriptions.removeHash hash).2.records.keys ↔
          key ∈ desk.subscriptions.records.keys := by
        refine ⟨fun hm => hkeys.subset hm, fun hm => ?_⟩
        by_contra hgone
        exact hd (hdropped.mpr ⟨hm, hgone⟩)
      rw [hsame]
      exact h.turns key
  · refine Nat.le_trans ?_ h.bounded
    rw [Subscriptions.count_eq_length_keys, Subscriptions.count_eq_length_keys]
    exact hkeys.length_le

end Desk

namespace Call

variable {adapter : Adapter} {call : Call} {connection : Connection}

lemma requests_of_connecting (hs : connection.state = .connecting) (hw : call.Waits connection)
    (adapter : Adapter) : call.requests adapter connection = [] := by
  obtain ⟨hauthenticated, hstage⟩ := hw hs
  have hready : ∀ other : Connection, other.state = .connecting → other.ready? = none := by
    intro other ho
    rw [Connection.ready?, ho]
  have hjoined := (call.serves_joinQueue connection).state.trans hs
  have hturn : call.requestsInTurn adapter connection = [] := by
    unfold requestsInTurn requestsLoggingIn
    rw [if_neg (by simp [hauthenticated]), hready _ hjoined]
    split <;> rfl
  unfold requests requestsLoggingIn
  rw [hready connection hs]
  cases hcall : call.stage with
  | awaitingOpen => rfl
  | awaitingTurn => exact hturn
  | holdingTurn => rfl
  | loggingIn waiter =>
    rw [hcall] at hstage
    exact absurd hstage (by simp [Stage.isLoggingIn])

end Call

namespace Station

variable {adapter : Adapter} {station : Station} {step : Step} {steps : List Step}

/-- What a step tells the exchange. -/
def notices (adapter : Adapter) (station : Station) : Step → List Notice
  | .unsubscribe hash =>
    if station.connection.isOpen then station.desk.farewells adapter hash else []
  | step =>
    station.desk.notices station.connection.isOpen (station.requests adapter step) ++
      (station.resent adapter step).map (fun record => .began record.key record.request) ++
      (station.queued adapter step).map .aside

def told (adapter : Adapter) (station : Station) : List Step → List Notice
  | [] => []
  | step :: rest => station.notices adapter step ++ (station.after adapter step).told adapter rest

lemma notices_eq (hs : ∀ hash, step ≠ .unsubscribe hash) :
    station.notices adapter step =
      station.desk.notices station.connection.isOpen (station.requests adapter step) ++
        (station.resent adapter step).map (fun record => .began record.key record.request) ++
        (station.queued adapter step).map .aside := by
  unfold notices
  split
  · rename_i hash
    exact absurd rfl (hs hash)
  · rfl

/-- What is queued for the socket is what the exchange is told. -/
lemma outbox_notices (adapter : Adapter) (station : Station) (step : Step) :
    (station.after adapter step).connection.outbox =
      station.connection.outbox ++ (station.notices adapter step).map Notice.outgoing := by
  have hdesk := congrArg Desk.outbox (station.desk_after adapter step)
  refine hdesk.trans ?_
  rcases step.eq_unsubscribe_or with ⟨hash, rfl⟩ | hs
  · exact Desk.outbox_release ..
  · have hresent : ∀ records : List SubscriptionRecord, SubscriptionRecord.frames records =
        (records.map fun record => Notice.began record.key record.request).map
          Notice.outgoing := by
      intro records
      rw [List.map_map]
      rfl
    have hqueued : ∀ outgoing : List Outgoing, outgoing =
        (outgoing.map Notice.aside).map Notice.outgoing := by
      intro outgoing
      rw [List.map_map]
      exact (List.map_id outgoing).symm
    rw [deskAfter_eq hs, notices_eq hs, List.map_append, List.map_append, ← hresent, ← hqueued]
    simp only [Desk.push, Desk.serve, Desk.outbox_takeAll, List.append_assoc]
    rfl

/-- What a step queues, but for the records that it sends again. -/
def own (adapter : Adapter) (station : Station) : Step → List Outgoing
  | .unsubscribe hash =>
    (if station.connection.isOpen then station.desk.farewells adapter hash else []).map
      Notice.outgoing
  | step =>
    (station.desk.notices station.connection.isOpen (station.requests adapter step)).map
      Notice.outgoing ++ station.queued adapter step

lemma own_eq (hs : ∀ hash, step ≠ .unsubscribe hash) : station.own adapter step =
    (station.desk.notices station.connection.isOpen (station.requests adapter step)).map
      Notice.outgoing ++ station.queued adapter step := by
  unfold own
  split
  · rename_i hash
    exact absurd rfl (hs hash)
  · rfl

lemma queued_or_resent (adapter : Adapter) (station : Station) (step : Step) :
    station.queued adapter step = [] ∨ station.resent adapter step = [] := by
  cases step with
  | opened | advance => exact .inl rfl
  | _ => exact .inr rfl

/-- The records that are sent again come last. -/
lemma outbox_own (adapter : Adapter) (station : Station) (step : Step) :
    (station.after adapter step).connection.outbox = station.connection.outbox ++
      station.own adapter step ++ SubscriptionRecord.frames (station.resent adapter step) := by
  rw [outbox_notices, List.append_assoc]
  congr 1
  rcases step.eq_unsubscribe_or with ⟨hash, rfl⟩ | hs
  · exact (List.append_nil _).symm
  · have hresent : ((station.resent adapter step).map fun record =>
        Notice.began record.key record.request).map Notice.outgoing =
          SubscriptionRecord.frames (station.resent adapter step) := List.map_map
    have hqueued : ((station.queued adapter step).map Notice.aside).map Notice.outgoing =
        station.queued adapter step := List.map_map.trans (List.map_id _)
    rw [notices_eq hs, own_eq hs, List.map_append, List.map_append, hresent, hqueued]
    rcases station.queued_or_resent adapter step with hnone | hnone
    · rw [hnone, List.append_nil, List.append_nil]
    · rw [hnone]
      simp [SubscriptionRecord.frames]

lemma outbox_told (adapter : Adapter) (station : Station) (steps : List Step) :
    (station.run adapter steps).connection.outbox =
      station.connection.outbox ++ (station.told adapter steps).map Notice.outgoing := by
  induction steps generalizing station with
  | nil => exact (List.append_nil _).symm
  | cons step rest ih =>
    have hrest := ih (station.after adapter step)
    rw [outbox_notices, List.append_assoc, ← List.map_append] at hrest
    exact hrest

/-! Nothing is sent again. -/

/-- No call waits that is to send records again. -/
def RestoresNothing (station : Station) : Prop :=
  ∀ call, .blocked call ∈ station.calls → ∀ progress, call.purpose.resends progress = []

lemma replay_of_tookOver (ht : station.TookOver []) (ho : station.connection.everOpened = false)
    (keep : SubscriptionRecord → Bool) : station.connection.replay.filter keep = [] := by
  have hreplay : station.connection.replay = [] := ht.ledger.waiting ho
  rw [hreplay, List.filter_nil]

lemma restoresNothing_after (ht : station.TookOver []) (h : station.RestoresNothing)
    (hs : ∀ records, step ≠ .begin (.restore records)) (adapter : Adapter) :
    (station.after adapter step).RestoresNothing := by
  intro call hm progress
  cases origin ht.quiet hm with
  | kept hm => exact h call hm progress
  | advanced _ hb hp =>
    rw [hp]
    exact h _ (List.mem_of_getElem? hb) progress
  | begun hb =>
    cases hp : call.purpose with
    | restore records => exact absurd (hp ▸ hb) (hs records)
    | _ => rfl
  | restoring _ ho hc =>
    rw [hc, purpose_begin, replay_of_tookOver ht ho]
    cases progress with
    | blocked other => rfl
    | done result => cases result <;> rfl

lemma resent_eq_nil (ht : station.TookOver []) (h : station.RestoresNothing) (adapter : Adapter)
    (step : Step) : station.resent adapter step = [] := by
  cases step with
  | opened now =>
    rw [resent]
    split
    · rfl
    · rename_i ho
      exact replay_of_tookOver ht (by simpa using ho) _
  | advance index =>
    cases hcall : station.calls[index]? with
    | none => rw [resent, hcall]
    | some progress =>
      cases progress with
      | done result => rw [resent, hcall]
      | blocked call =>
        rw [resent_advance adapter hcall]
        exact h call (List.mem_of_getElem? hcall) _
  | _ => rfl

/-! A whole run. -/

lemma requests_eq_nil (hq : station.IsQuiet) (hc : station.connection.state = .connecting)
    (adapter : Adapter) (step : Step) : station.requests adapter step = [] := by
  cases step with
  | advance index =>
    rw [requests]
    split
    · rename_i call hcall
      exact Call.requests_of_connecting hc (hq.waits hcall) adapter
    · rfl
  | _ => rfl

/-- What is known of a connection that took over no records, as long as it is not closed. -/
structure Informs (station : Station) (room : Nat) (told : List Notice) : Prop where
  tookOver : station.TookOver []
  restoresNothing : station.RestoresNothing
  told : station.connection.state.isLive = true → station.desk.Told room told
  early : station.connection.state = .connecting → station.desk.subscriptions.records.entries = []

variable {room : Nat} {told : List Notice}

lemma told_of_opened (h : station.Informs room told) (ho : station.connection.state = .opened)
    (ha : ∀ record, (adapter.unsubscribeFrame record).isSome = true) (step : Step) :
    (station.after adapter step).desk.Told room (told ++ station.notices adapter step) := by
  have htold : station.desk.Told room told := h.told (by rw [ho]; rfl)
  have hopen : station.connection.isOpen = true := decide_eq_true ho
  have hnodup : station.desk.subscriptions.records.keys.Nodup := h.tookOver.ledger.numbered.keys
  rw [desk_after]
  rcases step.eq_unsubscribe_or with ⟨hash, rfl⟩ | hs
  · rw [deskAfter, notices, hopen, if_pos rfl]
    exact htold.release ha hnodup hash
  · -- what other steps do to the records comes of their requests, for nothing is sent again
    have hresent := resent_eq_nil h.tookOver h.restoresNothing adapter step
    rw [deskAfter_eq hs, notices_eq hs, hopen, hresent, List.map_nil, List.append_nil,
      ← List.append_assoc]
    have htaken := htold.takeAll (station.requests adapter step)
    exact htaken.of_silent rfl rfl fun key => Notice.turns_aside key _

lemma told_of_connecting (h : station.Informs room told)
    (hc : station.connection.state = .connecting) (adapter : Adapter) (step : Step) :
    (station.after adapter step).desk.Told room (told ++ station.notices adapter step) ∧
      (station.after adapter step).desk.subscriptions.records.entries = [] := by
  have htold : station.desk.Told room told := h.told (by rw [hc]; rfl)
  have hempty := h.early hc
  have hclosed : station.connection.isOpen = false := by simp [Connection.isOpen, hc]
  rw [desk_after]
  rcases step.eq_unsubscribe_or with ⟨hash, rfl⟩ | hs
  · have hreleased : (station.desk.release adapter false hash).subscriptions.records.entries =
        [] := by
      change (station.desk.subscriptions.removeHash hash).2.records.entries = []
      rw [Subscriptions.entries_removeHash, hempty, List.filterMap_nil]
    rw [deskAfter, notices, hclosed, if_neg (by simp)]
    refine ⟨htold.of_silent ?_ rfl fun _ => rfl, hreleased⟩
    rw [Table.keys, hreleased, Table.keys, hempty]
  · have hresent := resent_eq_nil h.tookOver h.restoresNothing adapter step
    have hrequests := requests_eq_nil h.tookOver.quiet hc adapter step
    rw [deskAfter_eq hs, notices_eq hs, hresent, hrequests, List.map_nil, List.append_nil]
    exact ⟨htold.of_silent rfl rfl fun key => Notice.turns_aside key _, hempty⟩

lemma informs_new (url : String) (settings : ConnectionSettings) (store : FeedStore) :
    (new url settings [] store).Informs settings.maxSubscriptions [] where
  tookOver := tookOver_new url settings [] store
  restoresNothing := fun _ hm => absurd hm List.not_mem_nil
  told := fun _ => by
    refine ⟨fun key => ⟨fun place turn ht => absurd ht (by simp [Notice.turns]), ?_⟩,
      rfl, Nat.zero_le _⟩
    constructor
    · intro hm
      exact absurd hm List.not_mem_nil
    · intro hodd
      exact absurd hodd (by simp [Notice.turns])
  early := fun _ => rfl

lemma informs_after (h : station.Informs room told)
    (ha : ∀ record, (adapter.unsubscribeFrame record).isSome = true)
    (hs : ∀ records, step ≠ .begin (.restore records)) :
    (station.after adapter step).Informs room (told ++ station.notices adapter step) := by
  refine ⟨tookOver_after h.tookOver adapter step,
    restoresNothing_after h.tookOver h.restoresNothing hs adapter, fun hlive => ?_, fun hc => ?_⟩
  · -- a connection that lives after the step has been alive before it
    cases hstate : (station.after adapter step).connection.state with
    | connecting =>
      exact (told_of_connecting h (connecting_of_after hstate).1 adapter step).1
    | opened =>
      rcases opened_of_after hstate with ho | ⟨hc, -⟩
      · exact told_of_opened h ho ha step
      · exact (told_of_connecting h hc adapter step).1
    | closing => exact absurd hlive (by simp [hstate, Lifecycle.isLive])
    | closed => exact absurd hlive (by simp [hstate, Lifecycle.isLive])
  · exact (told_of_connecting h (connecting_of_after hc).1 adapter step).2

lemma informs_run (h : station.Informs room told)
    (ha : ∀ record, (adapter.unsubscribeFrame record).isSome = true)
    (hs : ∀ records, .begin (.restore records) ∉ steps) :
    (station.run adapter steps).Informs room (told ++ station.told adapter steps) := by
  induction steps generalizing station told with
  | nil => exact (List.append_nil told).symm ▸ h
  | cons step rest ih =>
    have hfirst : ∀ records, step ≠ .begin (.restore records) := fun records hn =>
      hs records (hn ▸ List.mem_cons_self ..)
    have hafter := informs_after h ha hfirst
    have hrest := ih hafter fun records hm => hs records (List.mem_cons_of_mem _ hm)
    rwa [List.append_assoc] at hrest

end Station

/-! A request that is refused. -/

namespace Connection

variable {connection : Connection} {request : Request}

lemma takeRequest_of_full (hk : request.kind = .persistent)
    (hn : request.key ∉ connection.subscriptions.records.keys)
    (hf : connection.subscriptions.capacity ≤ connection.subscriptions.count) :
    connection.takeRequest request = (.error connection.subscriptions.full, connection) := by
  have htaking := connection.taking request
  generalize connection.takeRequest request = taken at htaking ⊢
  cases htaking with
  | sent hsent => exact absurd (hk.symm.trans hsent) (by simp)
  | refused => rfl
  | joined _ _ he => exact absurd (by simp [Table.keys, he]) hn
  | added _ _ _ hroom => exact absurd hf (Nat.not_le_of_lt hroom)

lemma ask_of_open (h : connection.isOpen = true) (request : Request) :
    ∃ waiter, (connection.ask request).1 = .ok waiter := by
  have hopen : (connection.enter request).2.isOpen = true := (isOpen_enter ..).trans h
  have hsent : (connection.enter request).2.send request.frame =
      (.ok (), (connection.enter request).2.enqueue request.frame) := if_pos hopen
  rw [ask, sendFor, hsent]
  exact ⟨_, rfl⟩

lemma takeRequest_of_room (ho : connection.isOpen = true)
    (hr : request.key ∈ connection.subscriptions.records.keys ∨
      connection.subscriptions.count < connection.subscriptions.capacity) :
    ∃ waiter, (connection.takeRequest request).1 = .ok waiter := by
  have htaking := connection.taking request
  generalize connection.takeRequest request = taken at htaking ⊢
  cases htaking with
  | sent => exact ask_of_open ho request
  | refused _ _ hn hf => exact (hr.elim hn (Nat.not_lt_of_le hf)).elim
  | joined => exact ⟨_, rfl⟩
  | @added subscriptions =>
    have hopen : ({ connection with subscriptions } : Connection).isOpen = true := ho
    exact ask_of_open hopen request

end Connection

namespace Call

variable {adapter : Adapter} {connection : Connection} {request : Request}

/-- Who needs no login, or no longer, asks at once. -/
lemma advance_subscribe (ho : connection.state = .opened)
    (hp : request.isPrivate = true → connection.authenticated = true) (adapter : Adapter)
    (number : Nat) : ∃ left : Connection, left.desk = connection.desk ∧
      left.registry = connection.registry ∧ left.isOpen = true ∧
      (Call.begin number (.subscribe request)).advance adapter connection =
        (.done ((left.takeRequest request).1.map some), (left.takeRequest request).2) := by
  have hopen : connection.isOpen = true := decide_eq_true ho
  have hready : connection.ready? = some (.ok ()) := by rw [Connection.ready?, ho]
  let call := Call.begin number (.subscribe request)
  cases hprivate : request.isPrivate with
  | false =>
    refine ⟨connection, rfl, rfl, hopen, ?_⟩
    unfold advance begin
    dsimp only
    rw [hready]
    dsimp only
    rw [if_neg (by simp [Purpose.needsLogin, hprivate])]
    rfl
  | true =>
    refine ⟨call.leaveQueue connection, rfl, rfl, hopen, ?_⟩
    unfold advance begin
    dsimp only
    rw [hready]
    dsimp only
    rw [if_pos (by simp [Purpose.needsLogin, hprivate]), takeTurn, if_pos (hp hprivate)]
    rfl

/-- What comes of a request that is to be recorded, on an open connection that needs no login for
it. -/
structure Decides (adapter : Adapter) (connection : Connection) (number : Nat) (request : Request) :
    Prop where
  refused : request.key ∉ connection.subscriptions.records.keys →
    connection.subscriptions.capacity ≤ connection.subscriptions.count →
    ((Call.begin number (.subscribe request)).advance adapter connection).1 =
      .done (.error connection.subscriptions.full)
  granted : (request.key ∈ connection.subscriptions.records.keys ∨
      connection.subscriptions.count < connection.subscriptions.capacity) →
    ∃ waiter, ((Call.begin number (.subscribe request)).advance adapter connection).1 =
      .done (.ok (some waiter))
  /-- Whatever a request is refused with, it leaves nothing behind. -/
  unchanged : ∀ fault, ((Call.begin number (.subscribe request)).advance adapter connection).1 =
      .done (.error fault) →
    ((Call.begin number (.subscribe request)).advance adapter connection).2.desk =
      connection.desk ∧
    ((Call.begin number (.subscribe request)).advance adapter connection).2.registry =
      connection.registry

lemma decides (ho : connection.state = .opened) (hk : request.kind = .persistent)
    (hp : request.isPrivate = true → connection.authenticated = true) (adapter : Adapter)
    (number : Nat) : Decides adapter connection number request := by
  obtain ⟨left, hdesk, hregistry, hopen, hadvance⟩ := advance_subscribe ho hp adapter number
  have hsubscriptions : left.subscriptions = connection.subscriptions :=
    congrArg Desk.subscriptions hdesk
  have hfull : request.key ∉ connection.subscriptions.records.keys →
      connection.subscriptions.capacity ≤ connection.subscriptions.count →
      left.takeRequest request = (.error connection.subscriptions.full, left) := by
    intro hn hf
    rw [← hsubscriptions] at hn hf ⊢
    exact Connection.takeRequest_of_full hk hn hf
  have hroom : (request.key ∈ connection.subscriptions.records.keys ∨
      connection.subscriptions.count < connection.subscriptions.capacity) →
      ∃ waiter, (left.takeRequest request).1 = .ok waiter := by
    intro hr
    rw [← hsubscriptions] at hr
    exact Connection.takeRequest_of_room hopen hr
  constructor
  · intro hn hf
    rw [hadvance, hfull hn hf]
    rfl
  · intro hr
    obtain ⟨waiter, hwaiter⟩ := hroom hr
    rw [hadvance, hwaiter]
    exact ⟨waiter, rfl⟩
  · intro fault hrefused
    by_cases hr : request.key ∈ connection.subscriptions.records.keys ∨
        connection.subscriptions.count < connection.subscriptions.capacity
    · obtain ⟨waiter, hwaiter⟩ := hroom hr
      rw [hadvance, hwaiter] at hrefused
      exact absurd hrefused (by simp [Except.map])
    · obtain ⟨hn, hf⟩ := not_or.mp hr
      rw [hadvance, hfull hn (Nat.le_of_not_lt hf)]
      exact ⟨hdesk, hregistry⟩

end Call

namespace Station

/-- The exchange of an open connection that took over no records is told of every subscription in
turns that it begins and that it ends. Those that it takes to be under way are the ones on record,
of which there are never too many. A request that is refused leaves nothing behind. -/
theorem exchange_told_in_turns (adapter : Adapter)
    (ha : ∀ record, (adapter.unsubscribeFrame record).isSome = true) (url : String)
    (settings : ConnectionSettings) (store : FeedStore) (steps : List Step)
    (hs : ∀ records, .begin (.restore records) ∉ steps) :
    let start := new url settings [] store
    let reached := start.run adapter steps
    let told := start.told adapter steps
    reached.connection.state = .opened →
    reached.connection.outbox = told.map Notice.outgoing ∧
    (∀ key, (∀ place turn, (Notice.turns key told)[place]? = some turn →
        (turn = true ↔ place % 2 = 0)) ∧
      ((Notice.turns key told).getLast? = some true ↔
        key ∈ reached.connection.subscriptions.records.keys)) ∧
    reached.connection.subscriptions.count ≤ settings.maxSubscriptions ∧
    ∀ number request, request.kind = .persistent →
      (request.isPrivate = true → reached.connection.authenticated = true) →
      Call.Decides adapter reached.connection number request := by
  intro start reached told ho
  have hinforms : reached.Informs settings.maxSubscriptions told :=
    informs_run (informs_new url settings store) ha hs
  have htold : reached.desk.Told settings.maxSubscriptions told := hinforms.told (by rw [ho]; rfl)
  have houtbox : reached.connection.outbox = told.map Notice.outgoing :=
    start.outbox_told adapter steps
  exact ⟨houtbox, fun key => ⟨(htold.turns key).alternate, (htold.turns key).getLast?_eq⟩,
    htold.bounded, fun number request hk hp => Call.decides ho hk hp adapter number⟩

/-- An exchange that takes a request back for the end of its subscription. -/
def echoAdapter : Adapter :=
  { Adapter.plain with unsubscribeFrame := fun record => some record.request }

/-- Two channels share a subscription, which ends with the second one and then begins again. -/
def sharing : List Step :=
  let request := fun hash => (Request.persistent hash .null).withKey (some "book")
  [.opened 0, .begin (.subscribe (request "book:10")), .advance 0,
    .begin (.subscribe (request "book:50")), .advance 1, .unsubscribe "book:10",
    .unsubscribe "book:50", .begin (.subscribe (request "book:20")), .advance 2]

def sharedSettings : ConnectionSettings :=
  { ConnectionSettings.standard with maxSubscriptions := 1 }

/-- The exchange is told that the shared subscription begins, ends and begins. While it is on record
there is no room for another one. -/
theorem shared_subscription_in_turns :
    let start := new "ws://feed" sharedSettings [] (.new .standard .strict)
    let reached := start.run echoAdapter sharing
    let call := Call.begin 3 (.subscribe (.persistent "trades" .null))
    reached.connection.state = .opened ∧
    Notice.turns "book" (start.told echoAdapter sharing) = [true, false, true] ∧
    "book" ∈ reached.connection.subscriptions.records.keys ∧
    (call.advance echoAdapter reached.connection).1 =
      .done (.error reached.connection.subscriptions.full) ∧
    (call.advance echoAdapter reached.connection).2.registry = reached.connection.registry := by
  dsimp only
  have htold := exchange_told_in_turns echoAdapter (fun _ => rfl) "ws://feed"
    sharedSettings (.new .standard .strict) sharing (by simp [sharing])
  dsimp only at htold
  generalize hstart : new "ws://feed" sharedSettings [] (.new .standard .strict) = start at htold ⊢
  have hopened : (start.run echoAdapter sharing).connection.state = .opened := by
    rw [← hstart]
    decide +kernel
  obtain ⟨-, hturns, -, hdecides⟩ := htold hopened
  have hsaid : Notice.turns "book" (start.told echoAdapter sharing) = [true, false, true] := by
    rw [← hstart]
    decide +kernel
  have hrecorded : "book" ∈ (start.run echoAdapter sharing).connection.subscriptions.records.keys :=
    (hturns "book").2.mp (by rw [hsaid]; rfl)
  have hfull : "trades" ∉ (start.run echoAdapter sharing).connection.subscriptions.records.keys ∧
      (start.run echoAdapter sharing).connection.subscriptions.capacity ≤
        (start.run echoAdapter sharing).connection.subscriptions.count := by
    rw [← hstart]
    decide +kernel
  have hcall := hdecides 3 (.persistent "trades" .null) rfl (by simp [Request.persistent])
  have hrefused := hcall.refused hfull.1 hfull.2
  exact ⟨hopened, hsaid, hrecorded, hrefused, (hcall.unchanged _ hrefused).2⟩

end Station

end MarketFeed
