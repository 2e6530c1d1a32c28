import MarketFeed.Client.Basic
import MarketFeed.Proofs.Connection.Replay

/-!
# A client and all that goes on on its connections

The connections to an address follow each other, and each takes over the records of the one before.
So that a record can be told from others over all generations it keeps the place of its birth: the
connection that it was first recorded on, and its number there.
-/

namespace MarketFeed

/-- Where a subscription was recorded first. -/
structure Birth where
  connection : Nat
  number : Nat
deriving DecidableEq, Repr

/-- Numbers are given out in order, and a connection takes its records over from earlier ones when
it is made. -/
def Birth.Before (a b : Birth) : Prop :=
  a.connection < b.connection ∨ a.connection = b.connection ∧ a.number < b.number

/-- A record that has been handed over. -/
structure Heir where
  birth : Birth
  record : SubscriptionRecord

/-- The calls on a connection, and the records that it took over. -/
structure Generation where
  calls : List Progress
  heirs : List Heir

namespace Generation

def records (generation : Generation) : List SubscriptionRecord := generation.heirs.map (·.record)

/-- The birth of the record with a given number. What is not an heir was born here. -/
def birth (generation : Generation) (connection number : Nat) : Birth :=
  (generation.heirs[number]?.map (·.birth)).getD ⟨connection, number⟩

def handOver (generation : Generation) (connection : Nat) (records : List SubscriptionRecord) :
    List Heir :=
  records.map fun record => ⟨generation.birth connection record.sequence, record⟩

end Generation

/-- A client, and the generation of each of its connections. -/
structure Pool where
  client : Client
  generations : List Generation

namespace Pool

inductive Step where
  | get (draw : Float) (url : String)
  | close (url : String)
  /-- A task or a caller goes on on a connection. -/
  | on (number : Nat) (step : Station.Step)

def new (adapter : Adapter) (settings : ConnectionSettings) (store : FeedStore) : Pool :=
  ⟨.new adapter settings store, []⟩

/-- The births of records that the connection to an address hands over. -/
def heirs (pool : Pool) (url : String) (records : List SubscriptionRecord) : List Heir :=
  match pool.client.number? url with
  | none => (⟨[], []⟩ : Generation).handOver 0 records
  | some number => (pool.generations[number]?.getD ⟨[], []⟩).handOver number records

/-- Asks for the connection to an address. If that makes one, its list of records to send again is
what it took over. -/
def get (pool : Pool) (draw : Float) (url : String) : Pool :=
  let client := (pool.client.get draw url).2
  match client.connection? pool.client.connections.length with
  | none => { pool with client }
  | some made => ⟨client, pool.generations ++ [⟨[], pool.heirs url made.replay⟩]⟩

/-- A step on a connection, if it is one that the tasks take. -/
def serve (pool : Pool) (number : Nat) (step : Station.Step) : Pool :=
  match pool.generations[number]? with
  | none => pool
  | some generation =>
    let (calls, client) := pool.client.onCircuit number fun circuit =>
      let station : Station := ⟨circuit, generation.calls⟩
      if station.permits step then
        let station := station.after pool.client.adapter step
        (station.calls, station.circuit)
      else (station.calls, station.circuit)
    ⟨client, pool.generations.set number
      { generation with calls := calls.getD generation.calls }⟩

def after (pool : Pool) : Step → Pool
  | .get draw url => pool.get draw url
  | .close url => { pool with client := (pool.client.close url).2 }
  | .on number step => pool.serve number step

def run (pool : Pool) (steps : List Step) : Pool := steps.foldl after pool

end Pool

/-! What becomes of a connection. -/

namespace Station

variable {adapter : Adapter} {station other : Station} {step : Step}
  {records : List SubscriptionRecord}

/-- A connection that passes on the given records. -/
structure Relays (records : List SubscriptionRecord) (station : Station) : Prop where
  tookOver : station.TookOver records
  restores : station.RestoresTaken records
  prompt : station.IsPrompt records

lemma relays_new (url : String) (settings : ConnectionSettings)
    (records : List SubscriptionRecord) (store : FeedStore) :
    (new url settings records store).Relays records :=
  ⟨tookOver_new .., fun _ _ hm => absurd hm List.not_mem_nil, fun _ => rfl,
    fun he => absurd (show false = true from he) (by simp)⟩

lemma relays_after (h : station.Relays records) (hp : station.permits step = true)
    (adapter : Adapter) : (station.after adapter step).Relays records := by
  have hs : ∀ restored, step ≠ .begin (.restore restored) := by
    rintro restored rfl
    exact absurd hp (by simp [permits])
  exact ⟨tookOver_after h.tookOver adapter step,
    restoresTaken_after h.tookOver h.restores hs adapter,
    isPrompt_after h.tookOver h.restores h.prompt hp adapter⟩

/-- What is said here does not depend on the store, nor on what becomes of a dead connection. -/
lemma Relays.of_eq (h : station.Relays records) (hl : other.ledger = station.ledger)
    (hc : other.calls = station.calls)
    (hs : other.connection.state = station.connection.state ∨
      other.connection.state.isLive = false) : other.Relays records := by
  have hstate : ∀ state : Lifecycle, state.isLive = true → other.connection.state = state →
      station.connection.state = state := by
    intro state hlive heq
    rcases hs with hsame | hdead
    · exact hsame.symm.trans heq
    · rw [heq, hlive] at hdead
      exact absurd hdead (by simp)
  refine ⟨⟨fun hconnecting => ?_, fun hopen => ?_, hl ▸ h.tookOver.ledger⟩, ?_, ?_⟩
  · obtain ⟨hearly, hlogin, hcalls⟩ := h.tookOver.quiet (hstate _ rfl hconnecting)
    exact ⟨(congrArg Ledger.everOpened hl).trans hearly,
      (congrArg Ledger.authenticated hl).trans hlogin, hc ▸ hcalls⟩
  · exact hl ▸ h.tookOver.opened (hstate _ rfl hopen)
  · unfold RestoresTaken
    rw [hl, hc]
    exact h.restores
  · unfold IsPrompt
    rw [hl]
    exact h.prompt

/-- Closing at once leaves the ledger alone, and comes to the same as its first step if the
connection has been closed before. -/
lemma teardown_frame (circuit : Circuit) (fault : Fault) :
    (circuit.teardown fault).2.connection.ledger = circuit.connection.ledger ∧
      ((circuit.teardown fault).2.connection.state =
          (circuit.beginTeardown fault).2.connection.state ∨
        (circuit.teardown fault).2.connection.state.isLive = false) := by
  unfold Circuit.teardown Circuit.beginTeardown
  by_cases hclosed : circuit.connection.closeFault.isSome = true
  · rw [if_pos hclosed]
    exact ⟨rfl, .inl rfl⟩
  · rw [if_neg hclosed]
    exact ⟨rfl, .inr rfl⟩

lemma relays_close (h : station.Relays records) :
    (⟨station.circuit.close, station.calls⟩ : Station).Relays records := by
  have hclosed : (station.after .plain .close).Relays records := relays_after h rfl .plain
  obtain ⟨hledger, hstate⟩ := teardown_frame station.circuit.sayClose.2
    (.connectionClosed "connection closed by caller")
  exact hclosed.of_eq (hledger.trans (ledger_after .plain station .close).symm)
    (calls_after .plain station .close).symm hstate

end Station

/-! What becomes of a client. -/

namespace Client

variable {client : Client} {url : String}

/-- The records that the connection to an address hands over, if it is dead. -/
def handedOver (client : Client) (previous : Connection) : List SubscriptionRecord :=
  if client.settings.reconnect.resubscribe then previous.subscriptions.ordered else []

/-- All that can become of the connections when an address is asked for. -/
inductive Getting (client : Client) (url : String) (connections : List Connection) : Prop
  | kept (hc : connections = client.connections)
  | spawned (hc : connections = client.connections ++ [.new url client.settings []])
  | replaced {number : Nat} {previous : Connection} (hn : client.number? url = some number)
      (hp : client.connection? number = some previous)
      (hc : connections = client.connections ++
        [.new url client.settings (client.handedOver previous)])

lemma connections_replace (client : Client) (draw : Float) (url : String) (previous : Connection) :
    (client.replace draw url previous).2.connections = client.connections ++
      [.new url client.settings (client.handedOver previous)] := by
  unfold replace handedOver
  dsimp only
  split <;> rfl

lemma replace_spec (client : Client) (draw : Float) (url : String) (previous : Connection) :
    ∃ delay, (client.replace draw url previous).1 = ⟨client.connections.length, some delay⟩ ∧
      (client.replace draw url previous).2.current =
        client.current.insert url client.connections.length := by
  unfold replace
  dsimp only
  split <;> exact ⟨_, rfl, rfl⟩

lemma number?_replace (client : Client) (draw : Float) (url : String) (previous : Connection) :
    (client.replace draw url previous).2.number? url = some client.connections.length := by
  obtain ⟨_, -, hcurrent⟩ := client.replace_spec draw url previous
  rw [number?, hcurrent, Table.get?_insert, if_pos rfl]

/-- No live connection stands for the address. -/
def Vacant (client : Client) (url : String) : Prop :=
  ∀ number connection, client.number? url = some number →
    client.connection? number = some connection → connection.state.isLive = false

/-- All that can come of asking for an address. -/
inductive Granting (client : Client) (url : String) : Except Fault Grant × Client → Prop
  | refused {fault : Fault} (hu : checkUrl url = .error fault) :
      Granting client url (.error fault, client)
  | found {number : Nat} {connection : Connection} (hn : client.number? url = some number)
      (hc : client.connection? number = some connection) (hl : connection.state.isLive = true) :
      Granting client url (.ok ⟨number, none⟩, client)
  | made {delay : Nat} {records : List SubscriptionRecord} {after : Client}
      (hv : client.Vacant url)
      (hr : records = [] ∨ ∃ number previous, client.number? url = some number ∧
        client.connection? number = some previous ∧ records = client.handedOver previous)
      (hc : after.connections = client.connections ++ [.new url client.settings records])
      (hn : after.current = client.current.insert url client.connections.length) :
      Granting client url (.ok ⟨client.connections.length, some delay⟩, after)

lemma granting (client : Client) (draw : Float) (url : String) :
    client.Granting url (client.get draw url) := by
  unfold get
  cases hu : checkUrl url with
  | error fault => exact .refused hu
  | ok =>
    dsimp only
    cases hn : client.number? url with
    | none =>
      have hvacant : client.Vacant url := fun _ _ hsome => absurd (hn.symm.trans hsome) (by simp)
      exact .made hvacant (.inl rfl) rfl rfl
    | some number =>
      rw [Option.bind_some]
      cases hp : client.connection? number with
      | none =>
        have hvacant : client.Vacant url := by
          intro other _ hother hsome
          obtain rfl := Option.some.inj (hn.symm.trans hother)
          exact absurd (hp.symm.trans hsome) (by simp)
        exact .made hvacant (.inl rfl) rfl rfl
      | some previous =>
        rw [Option.map_some]
        dsimp only
        split
        · rename_i hlive
          exact .found hn hp hlive
        · rename_i hdead
          have hvacant : client.Vacant url := by
            intro other _ hother hsome
            obtain rfl := Option.some.inj (hn.symm.trans hother)
            obtain rfl := Option.some.inj (hp.symm.trans hsome)
            simpa using hdead
          obtain ⟨delay, hgrant, hcurrent⟩ := client.replace_spec draw url previous
          rw [hgrant]
          exact .made hvacant (.inr ⟨number, previous, hn, hp, rfl⟩) (connections_replace ..)
            hcurrent

lemma getting (client : Client) (draw : Float) (url : String) :
    client.Getting url (client.get draw url).2.connections := by
  have hgranting := client.granting draw url
  generalize client.get draw url = got at hgranting ⊢
  cases hgranting with
  | refused => exact .kept rfl
  | found => exact .kept rfl
  | made _ hr hc =>
    rcases hr with rfl | ⟨number, previous, hn, hp, rfl⟩
    · exact .spawned hc
    · exact .replaced hn hp hc

lemma frame_replace (client : Client) (draw : Float) (url : String) (previous : Connection) :
    (client.replace draw url previous).2.adapter = client.adapter ∧
      (client.replace draw url previous).2.settings = client.settings := by
  unfold replace
  dsimp only
  split <;> exact ⟨rfl, rfl⟩

lemma frame_get (client : Client) (draw : Float) (url : String) :
    (client.get draw url).2.adapter = client.adapter ∧
      (client.get draw url).2.settings = client.settings := by
  unfold get
  cases checkUrl url with
  | error fault => exact ⟨rfl, rfl⟩
  | ok =>
    dsimp only
    split
    · exact ⟨rfl, rfl⟩
    · split
      · exact ⟨rfl, rfl⟩
      · exact frame_replace ..

lemma frame_onCircuit {α : Type} (client : Client) (number : Nat)
    (change : Circuit → α × Circuit) :
    (client.onCircuit number change).2.adapter = client.adapter ∧
      (client.onCircuit number change).2.settings = client.settings := by
  unfold onCircuit
  split <;> exact ⟨rfl, rfl⟩

lemma frame_close (client : Client) (url : String) :
    (client.close url).2.adapter = client.adapter ∧
      (client.close url).2.settings = client.settings := by
  unfold close
  dsimp only
  split
  · exact ⟨rfl, rfl⟩
  · exact frame_onCircuit ..

/-- To change a connection leaves the others alone. -/
lemma onCircuit_of_connection {α : Type} {number : Nat} {connection : Connection}
    (h : client.connection? number = some connection) (change : Circuit → α × Circuit) :
    client.onCircuit number change =
      let changed := change ⟨connection, client.store, client.events⟩
      (some changed.1, { client with
        connections := client.connections.set number changed.2.connection
        store := changed.2.store
        events := changed.2.events }) := by
  unfold onCircuit
  rw [h]

end Client

namespace Pool

variable {pool : Pool} {adapter : Adapter} {number : Nat}

/-- What is known of the generation of a connection. -/
structure Lineage (number : Nat) (connection : Connection) (generation : Generation) : Prop where
  relays : ∀ store events,
    (⟨⟨connection, store, events⟩, generation.calls⟩ : Station).Relays generation.records
  born : ∀ heir ∈ generation.heirs, heir.birth.connection < number
  inOrder : generation.heirs.Pairwise fun a b => a.birth.Before b.birth

variable {connection previous : Connection} {generation : Generation}

lemma records_handOver (generation : Generation) (number : Nat) (records : List SubscriptionRecord) :
    (generation.handOver number records).map (·.record) = records := by
  rw [Generation.handOver, List.map_map]
  exact List.map_id _

/-- Births come in the order of the numbers. -/
lemma Lineage.birth_before (h : Lineage number connection generation) {a b : Nat} (hab : a < b) :
    (generation.birth number a).Before (generation.birth number b) := by
  unfold Generation.birth
  cases hb : generation.heirs[b]? with
  | some second =>
    obtain ⟨hlt, hsecond⟩ := List.getElem?_eq_some_iff.mp hb
    have ha : a < generation.heirs.length := Nat.lt_trans hab hlt
    rw [List.getElem?_eq_getElem ha, ← hsecond]
    exact List.pairwise_iff_getElem.mp h.inOrder a b ha hlt hab
  | none =>
    cases ha : generation.heirs[a]? with
    | some first => exact .inl (h.born first (List.mem_of_getElem? ha))
    | none => exact .inr ⟨rfl, hab⟩

lemma Lineage.birth_le (h : Lineage number connection generation) (a : Nat) :
    (generation.birth number a).connection ≤ number := by
  unfold Generation.birth
  cases ha : generation.heirs[a]? with
  | some first => exact Nat.le_of_lt (h.born first (List.mem_of_getElem? ha))
  | none => exact Nat.le_refl _

lemma Lineage.numbered (h : Lineage number connection generation) :
    connection.subscriptions.Numbered :=
  (h.relays (.new .standard .strict) []).tookOver.ledger.numbered

/-- The records of a connection stand in the order of their births. -/
lemma Lineage.ordered (h : Lineage number connection generation) :
    connection.subscriptions.ordered.Pairwise fun a b =>
      (generation.birth number a.sequence).Before (generation.birth number b.sequence) :=
  h.numbered.ordered_ascending.imp h.birth_before

/-- A connection that takes over the records of another one. -/
lemma Lineage.handOver (h : Lineage number previous generation) {next : Nat} (hn : number < next)
    (url : String) (settings : ConnectionSettings) :
    Lineage next (.new url settings previous.subscriptions.ordered)
      ⟨[], generation.handOver number previous.subscriptions.ordered⟩ where
  relays := fun store events => by
    have hnew := Station.relays_new url settings previous.subscriptions.ordered store
    rw [Generation.records, records_handOver]
    exact hnew.of_eq rfl rfl (.inl rfl)
  born := by
    intro heir hm
    obtain ⟨record, -, rfl⟩ := List.mem_map.mp hm
    exact Nat.lt_of_le_of_lt (h.birth_le record.sequence) hn
  inOrder := List.pairwise_map.mpr h.ordered

lemma lineage_new (number : Nat) (url : String) (settings : ConnectionSettings) :
    Lineage number (.new url settings []) ⟨[], []⟩ where
  relays := fun store _ => (Station.relays_new url settings [] store).of_eq rfl rfl (.inl rfl)
  born := fun _ hm => absurd hm List.not_mem_nil
  inOrder := .nil

/-- Every connection has its generation. -/
structure Sound (pool : Pool) : Prop where
  lengths : pool.generations.length = pool.client.connections.length
  lineage : ∀ number connection generation, pool.client.connection? number = some connection →
    pool.generations[number]? = some generation → Lineage number connection generation

lemma sound_new (adapter : Adapter) (settings : ConnectionSettings) (store : FeedStore) :
    (new adapter settings store).Sound :=
  ⟨rfl, fun _ _ _ hc => absurd hc (by simp [new, Client.new, Client.connection?])⟩

lemma Sound.exists_generation (h : pool.Sound)
    (hc : pool.client.connection? number = some connection) :
    ∃ generation, pool.generations[number]? = some generation ∧
      Lineage number connection generation := by
  obtain ⟨hlt, -⟩ := List.getElem?_eq_some_iff.mp hc
  have hg := List.getElem?_eq_getElem (h.lengths ▸ hlt)
  exact ⟨_, hg, h.lineage number connection _ hc hg⟩

lemma Sound.update (h : pool.Sound) {client : Client} {generations : List Generation}
    (hc : client.connections = pool.client.connections.set number connection)
    (hg : generations = pool.generations.set number generation)
    (hl : Lineage number connection generation) : Sound ⟨client, generations⟩ := by
  subst hg
  constructor
  · rw [hc, List.length_set, List.length_set, h.lengths]
  · intro other connection' generation' hc' hg'
    rw [Client.connection?, hc] at hc'
    by_cases hn : number = other
    · subst hn
      rw [List.getElem?_set_self'] at hc' hg'
      obtain ⟨-, -, rfl⟩ := Option.map_eq_some_iff.mp hc'
      obtain ⟨-, -, rfl⟩ := Option.map_eq_some_iff.mp hg'
      exact hl
    · rw [List.getElem?_set_ne hn] at hc' hg'
      exact h.lineage other _ _ hc' hg'

lemma Sound.append (h : pool.Sound) {client : Client}
    (hc : client.connections = pool.client.connections ++ [connection])
    (hl : Lineage pool.client.connections.length connection generation) :
    Sound ⟨client, pool.generations ++ [generation]⟩ := by
  constructor
  · rw [hc, List.length_append, List.length_append, h.lengths]
    rfl
  · intro number connection' generation' hc' hg'
    rw [Client.connection?, hc] at hc'
    rcases Nat.lt_or_ge number pool.client.connections.length with hlt | hge
    · rw [List.getElem?_append_left hlt] at hc'
      rw [List.getElem?_append_left (h.lengths.symm ▸ hlt)] at hg'
      exact h.lineage number _ _ hc' hg'
    · rw [List.getElem?_append_right hge] at hc'
      rw [List.getElem?_append_right (h.lengths.symm ▸ hge), h.lengths] at hg'
      obtain ⟨hlast, rfl⟩ := List.getElem?_eq_some_iff.mp hc'
      obtain ⟨-, rfl⟩ := List.getElem?_eq_some_iff.mp hg'
      have hnumber : number = pool.client.connections.length := by
        rw [List.length_singleton] at hlast
        omega
      subst hnumber
      simpa using hl

lemma heirs_of_number {url : String} (hn : pool.client.number? url = some number)
    (hg : pool.generations[number]? = some generation) (records : List SubscriptionRecord) :
    pool.heirs url records = generation.handOver number records := by
  rw [heirs, hn]
  dsimp only
  rw [hg]
  rfl

lemma heirs_nil (pool : Pool) (url : String) : pool.heirs url [] = [] := by
  unfold heirs
  split <;> rfl

/-- The pool after an address has been asked for and a connection been made. -/
lemma get_of_append {draw : Float} {url : String} {made : Connection}
    (h : (pool.client.get draw url).2.connections = pool.client.connections ++ [made]) :
    pool.get draw url = ⟨(pool.client.get draw url).2,
      pool.generations ++ [⟨[], pool.heirs url made.replay⟩]⟩ := by
  unfold get
  dsimp only
  rw [Client.connection?, h, List.getElem?_concat_length]

lemma sound_get (h : pool.Sound) (hr : pool.client.settings.reconnect.resubscribe = true)
    (draw : Float) (url : String) : (pool.get draw url).Sound := by
  cases pool.client.getting draw url with
  | kept hc =>
    have hnone : (pool.client.get draw url).2.connection? pool.client.connections.length = none := by
      rw [Client.connection?, hc]
      exact List.getElem?_eq_none (Nat.le_refl _)
    have hget : pool.get draw url = { pool with client := (pool.client.get draw url).2 } := by
      unfold get
      dsimp only
      rw [hnone]
    rw [hget]
    refine ⟨h.lengths.trans (congrArg List.length hc.symm), fun number _ _ hc' => ?_⟩
    rw [Client.connection?, hc] at hc'
    exact h.lineage number _ _ hc'
  | spawned hc =>
    have hheirs : pool.heirs url
        (Connection.new url pool.client.settings []).replay = [] := pool.heirs_nil url
    rw [get_of_append hc, hheirs]
    exact h.append hc (lineage_new ..)
  | @replaced number previous hn hp hc =>
    obtain ⟨generation, hg, hlineage⟩ := h.exists_generation hp
    have hrecords : pool.client.handedOver previous = previous.subscriptions.ordered := if_pos hr
    rw [hrecords] at hc
    obtain ⟨hlt, -⟩ := List.getElem?_eq_some_iff.mp hp
    rw [get_of_append hc, heirs_of_number hn hg]
    exact h.append hc (hlineage.handOver hlt url _)

lemma Lineage.of_relays (h : Lineage number connection generation) {station : Station}
    (hs : station.Relays generation.records) :
    Lineage number station.connection { generation with calls := station.calls } where
  relays := fun _ _ => hs.of_eq rfl rfl (.inl rfl)
  born := h.born
  inOrder := h.inOrder

lemma sound_serve (h : pool.Sound) (number : Nat) (step : Station.Step) :
    (pool.serve number step).Sound := by
  unfold serve
  cases hg : pool.generations[number]? with
  | none => exact h
  | some generation =>
    have hlt : number < pool.client.connections.length :=
      h.lengths ▸ (List.getElem?_eq_some_iff.mp hg).1
    obtain ⟨connection, hc⟩ : ∃ connection, pool.client.connection? number = some connection :=
      ⟨_, List.getElem?_eq_getElem hlt⟩
    have hlineage := h.lineage number _ generation hc hg
    have hbefore := hlineage.relays pool.client.store pool.client.events
    dsimp only
    rw [Client.onCircuit_of_connection hc]
    split
    · rename_i hp
      exact h.update rfl rfl
        (hlineage.of_relays (Station.relays_after hbefore hp pool.client.adapter))
    · exact h.update rfl rfl (hlineage.of_relays hbefore)

lemma sound_close (h : pool.Sound) (url : String) :
    Sound ⟨(pool.client.close url).2, pool.generations⟩ := by
  unfold Client.close
  dsimp only
  split
  · exact ⟨h.lengths, h.lineage⟩
  · rename_i number _
    cases hc : pool.client.connection? number with
    | none =>
      unfold Client.onCircuit
      dsimp only [Client.connection?] at hc ⊢
      rw [hc]
      exact ⟨h.lengths, h.lineage⟩
    | some connection =>
      obtain ⟨generation, hg, hlineage⟩ := h.exists_generation hc
      obtain ⟨hlt, rfl⟩ := List.getElem?_eq_some_iff.mp hg
      let forgotten := { pool.client with
        failures := pool.client.failures.erase url
        current := pool.client.current.erase url }
      have hforgotten : forgotten.connection? number = some connection := hc
      rw [Client.onCircuit_of_connection hforgotten]
      have hclosed := Station.relays_close (hlineage.relays pool.client.store pool.client.events)
      exact h.update rfl (List.set_getElem_self hlt).symm (hlineage.of_relays hclosed)

lemma frame_after (pool : Pool) (step : Step) :
    (pool.after step).client.adapter = pool.client.adapter ∧
      (pool.after step).client.settings = pool.client.settings := by
  cases step with
  | close url => exact pool.client.frame_close url
  | get draw url =>
    have hframe := pool.client.frame_get draw url
    change (pool.get draw url).client.adapter = _ ∧ (pool.get draw url).client.settings = _
    unfold get
    dsimp only
    split <;> exact hframe
  | on number step =>
    change (pool.serve number step).client.adapter = _ ∧ (pool.serve number step).client.settings = _
    unfold serve
    split
    · exact ⟨rfl, rfl⟩
    · exact pool.client.frame_onCircuit ..

lemma sound_after (h : pool.Sound) (hr : pool.client.settings.reconnect.resubscribe = true)
    (step : Step) : (pool.after step).Sound := by
  cases step with
  | get draw url => exact sound_get h hr draw url
  | close url => exact sound_close h url
  | on number step => exact sound_serve h number step

/-- What is known of a pool that sends subscriptions again holds after every run. -/
lemma sound_run (h : pool.Sound) (hr : pool.client.settings.reconnect.resubscribe = true)
    (steps : List Step) : (pool.run steps).Sound ∧
      (pool.run steps).client.adapter = pool.client.adapter ∧
      (pool.run steps).client.settings = pool.client.settings := by
  induction steps generalizing pool with
  | nil => exact ⟨h, rfl, rfl⟩
  | cons step rest ih =>
    obtain ⟨hadapter, hsettings⟩ := pool.frame_after step
    obtain ⟨hsound, hadapter', hsettings'⟩ := ih (sound_after h hr step) (hsettings ▸ hr)
    exact ⟨hsound, hadapter'.trans hadapter, hsettings'.trans hsettings⟩

end Pool

end MarketFeed
