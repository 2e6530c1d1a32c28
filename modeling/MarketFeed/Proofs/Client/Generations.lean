import MarketFeed.Proofs.Client.Pool
import MarketFeed.Proofs.Connection.Restoring

/-!
# The order of records over generations

A connection that is replaced hands its records over in their order, and the next one numbers them
anew in that order before it can record any others. So the order in which subscriptions were made is
never lost, however many connections come and go, open or not.
-/

namespace MarketFeed

lemma Birth.Before.asymm {a b : Birth} (h : a.Before b) : ¬b.Before a := by
  unfold Before at *
  omega

/-- Births in the order in which they happened. -/
def Birth.InOrder (births : List Birth) : Prop :=
  ∀ (i j : Nat) (a b : Birth), births[i]? = some a → births[j]? = some b → (a.Before b ↔ i < j)

lemma Birth.inOrder_of_pairwise {births : List Birth} (h : births.Pairwise Before) :
    InOrder births := by
  have hbefore : ∀ (i j : Nat) (a b : Birth), births[i]? = some a → births[j]? = some b →
      i < j → a.Before b := by
    intro i j a b ha hb hij
    obtain ⟨hi, rfl⟩ := List.getElem?_eq_some_iff.mp ha
    obtain ⟨hj, rfl⟩ := List.getElem?_eq_some_iff.mp hb
    exact List.pairwise_iff_getElem.mp h i j hi hj hij
  intro i j a b ha hb
  refine ⟨fun hab => ?_, hbefore i j a b ha hb⟩
  by_contra hij
  rcases Nat.lt_or_eq_of_le (Nat.le_of_not_lt hij) with hji | rfl
  · exact hab.asymm (hbefore j i b a hb ha hji)
  · obtain rfl := Option.some.inj (ha.symm.trans hb)
    exact hab.asymm hab

namespace Generation

/-- The frames that an exchange is to get again, of public or of private channels. -/
def heirsOf (generation : Generation) (isPrivate : Bool) : List Heir :=
  generation.heirs.filter (·.record.isPrivate = isPrivate)

lemma records_heirsOf (generation : Generation) (isPrivate : Bool) :
    (generation.heirsOf isPrivate).map (·.record) =
      generation.records.filter (·.isPrivate = isPrivate) := by
  rw [heirsOf, records, List.filter_map]
  rfl

/-- A connection keeps the order of the records that it took over, and that of its own. -/
structure KeepsOrder (adapter : Adapter) (number : Nat) (generation : Generation)
    (station : Station) : Prop where
  /-- The records of each kind wait in the order of their births. -/
  heirs : ∀ isPrivate, Birth.InOrder ((generation.heirsOf isPrivate).map (·.birth))
  records : Birth.InOrder (station.connection.subscriptions.ordered.map fun record =>
    generation.birth number record.sequence)
  /-- A record that is still there is the one that was taken over under its number. -/
  inherited : ∀ record ∈ station.connection.subscriptions.ordered, ∀ heir,
    generation.heirs[record.sequence]? = some heir →
    record.request = heir.record.request ∧ record.isPrivate = heir.record.isPrivate
  /-- A record that is not there yet comes after all that are. -/
  newcomers : ∀ step, ∀ record ∈ (station.after adapter step).connection.subscriptions.ordered,
    (∃ earlier ∈ station.connection.subscriptions.ordered, earlier.Continues record) ∨
      ∀ earlier ∈ station.connection.subscriptions.ordered,
        (generation.birth number earlier.sequence).Before
          (generation.birth number record.sequence)
  silent : station.connection.everOpened = false →
    station.connection.replay = generation.records ∧ station.connection.outbox = []
  /-- The socket that opens queues the public ones and nothing else, and leaves the private ones to
  a call. -/
  opens : station.connection.everOpened = false → ∀ now,
    (station.after adapter (.opened now)).connection.outbox =
      SubscriptionRecord.frames ((generation.heirsOf false).map (·.record)) ∧
    (station.connection.state = .connecting →
      (station.after adapter (.opened now)).calls =
        Station.withRestore station.calls ((generation.heirsOf true).map (·.record)))
  publicFirst : station.connection.everOpened = true →
    SubscriptionRecord.frames ((generation.heirsOf false).map (·.record)) <+:
      station.connection.outbox
  /-- The private ones come last in the step in which that call is done. The connection is logged in
  by then. -/
  restores : ∀ index, station.Restores adapter index →
    (station.after adapter (.advance index)).connection.authenticated = true ∧
    (station.after adapter (.advance index)).connection.outbox =
      station.connection.outbox ++ station.own adapter (.advance index) ++
        SubscriptionRecord.frames ((generation.heirsOf true).map (·.record))
  /-- The call is done when its turn comes on a connection that is logged in, or when it has logged
  in itself. -/
  finishes : ∀ index call restored, station.calls[index]? = some (.blocked call) →
    call.purpose = .restore restored →
    station.connection.authenticated = true ∧ call.stage = .awaitingTurn ∨
      station.connection.authenticated = false ∧
        (station.after adapter (.advance index)).connection.authenticated = true →
    station.Restores adapter index
  /-- No other step sends a record again. -/
  otherwise : ∀ step, (∀ now, step = .opened now → station.connection.everOpened = true) →
    (∀ index, step = .advance index → ¬station.Restores adapter index) →
    (station.after adapter step).connection.outbox =
      station.connection.outbox ++ station.own adapter step

end Generation

namespace Pool

variable {number : Nat} {connection : Connection} {generation : Generation}

lemma keepsOrder_of_lineage {station : Station} (h : Lineage number station.connection generation)
    (hc : station.calls = generation.calls) (adapter : Adapter) :
    generation.KeepsOrder adapter number station := by
  have hrelays := h.relays station.circuit.store station.circuit.events
  obtain ⟨htook, hrestores, hprompt⟩ : station.Relays generation.records :=
    hrelays.of_eq rfl hc (.inl rfl)
  have hpublic : (generation.heirsOf false).map (·.record) =
      generation.records.filter (!·.isPrivate) := by
    rw [Generation.records_heirsOf]
    simp
  have hprivate : (generation.heirsOf true).map (·.record) =
      generation.records.filter (·.isPrivate) := by
    rw [Generation.records_heirsOf]
    simp
  have hsilent : station.connection.everOpened = false →
      station.connection.replay = generation.records ∧ station.connection.outbox = [] :=
    fun he => ⟨htook.ledger.waiting he, hprompt.1 he⟩
  refine ⟨fun isPrivate => ?_, ?_, ?_, fun step record hm => ?_, hsilent, fun he now => ?_,
    fun he => ?_, fun index hr => ?_, fun index call restored hcall hp hlogin => ?_,
    fun step ho hr => ?_⟩
  · exact Birth.inOrder_of_pairwise (List.pairwise_map.mpr (h.inOrder.filter _))
  · exact Birth.inOrder_of_pairwise (List.pairwise_map.mpr h.ordered)
  · intro record hm heir hheir
    obtain ⟨entry, hentry, rfl⟩ := List.mem_map.mp (Subscriptions.mem_ordered.mp hm)
    obtain ⟨hlt, -⟩ := List.getElem?_eq_some_iff.mp hheir
    obtain ⟨source, hsource, hcontinues⟩ := htook.ledger.restored entry hentry
      (by rw [Generation.records, List.length_map]; exact hlt)
    rw [Generation.records, List.getElem?_map, hheir] at hsource
    obtain rfl := Option.some.inj hsource
    exact ⟨hcontinues.request, hcontinues.isPrivate⟩
  · exact (Station.provenance_after htook adapter step hm).imp_right fun hnew earlier hearlier =>
      h.birth_before (hnew earlier hearlier)
  · obtain ⟨hreplay, hempty⟩ := hsilent he
    have hresent : station.resent adapter (.opened now) = station.connection.replay.filter
        (!·.isPrivate) := by
      rw [Station.resent, if_neg (by simp [he])]
    refine ⟨?_, fun hc => ?_⟩
    · rw [Station.outbox_own, hempty, hresent, hreplay, hpublic]
      rfl
    · rw [Station.calls_opened, if_pos ⟨hc, he⟩, hreplay, hprivate]
  · rw [hpublic]
    exact hprompt.2 he
  · refine ⟨Station.authenticated_of_restores htook.quiet hr, ?_⟩
    rw [Station.outbox_own, Station.resent_of_restores hrestores hr, hprivate]
  · rcases hlogin with ⟨ha, hs⟩ | ⟨hn, ha⟩
    · exact Station.restores_of_turn hcall hp hs ha adapter
    · exact Station.restores_of_login hcall hp hn ha
  · rw [Station.outbox_own, Station.resent_eq_nil_of_other ho hr]
    exact List.append_nil _

/-- A dead connection hands its records over when its address is asked for again. -/
lemma get_of_dead {pool : Pool} {url : String} (hn : pool.client.number? url = some number)
    (hc : pool.client.connection? number = some connection)
    (hg : pool.generations[number]? = some generation) (hd : connection.state.isLive = false)
    (hu : Client.checkUrl url = .ok ())
    (hr : pool.client.settings.reconnect.resubscribe = true) (draw : Float) :
    (pool.get draw url).client.number? url = some pool.client.connections.length ∧
    (pool.get draw url).client.connections = pool.client.connections ++
      [.new url pool.client.settings connection.subscriptions.ordered] ∧
    (pool.get draw url).generations = pool.generations ++
      [⟨[], generation.handOver number connection.subscriptions.ordered⟩] := by
  have hclient : (pool.client.get draw url).2 =
      (pool.client.replace draw url connection).2 := by
    unfold Client.get
    rw [hu, hn, Option.bind_some, hc, Option.map_some]
    dsimp only
    rw [if_neg (by simp [hd])]
  have hmade : (pool.client.get draw url).2.connections = pool.client.connections ++
      [.new url pool.client.settings connection.subscriptions.ordered] := by
    rw [hclient, Client.connections_replace, Client.handedOver, if_pos hr]
  rw [get_of_append hmade, heirs_of_number hn hg]
  exact ⟨hclient ▸ Client.number?_replace .., hmade, rfl⟩

/-- In every chain of connections that a client makes to an address, each connection waits to send
again what its predecessor had on record when it was replaced. When its socket opens the public part
of this comes first and the private part after a login, both in order. A subscription that was made
before another one, on whatever connection, stands before it on record and in what is sent again, as
long as both are there. -/
theorem replay_order_survives_replacements (adapter : Adapter) (settings : ConnectionSettings)
    (store : FeedStore) (hr : settings.reconnect.resubscribe = true) (steps : List Step) :
    let pool := (new adapter settings store).run steps
    (∀ number connection generation, pool.client.connection? number = some connection →
      pool.generations[number]? = some generation →
      generation.KeepsOrder adapter number
        ⟨⟨connection, pool.client.store, pool.client.events⟩, generation.calls⟩) ∧
    ∀ draw url number previous generation, pool.client.number? url = some number →
      pool.client.connection? number = some previous →
      pool.generations[number]? = some generation → previous.state.isLive = false →
      Client.checkUrl url = .ok () →
      (pool.get draw url).client.number? url = some pool.client.connections.length ∧
      (pool.get draw url).client.connections = pool.client.connections ++
        [.new url settings previous.subscriptions.ordered] ∧
      (pool.get draw url).generations = pool.generations ++
        [⟨[], generation.handOver number previous.subscriptions.ordered⟩] := by
  intro pool
  obtain ⟨hsound, -, hsettings⟩ := sound_run (sound_new adapter settings store) hr steps
  have hresubscribes : pool.client.settings.reconnect.resubscribe = true := hsettings ▸ hr
  refine ⟨fun number connection generation hc hg => ?_, ?_⟩
  · exact keepsOrder_of_lineage (hsound.lineage number connection generation hc hg) rfl adapter
  · intro draw url number previous generation hn hp hg hd hu
    have hget := get_of_dead hn hp hg hd hu hresubscribes draw
    rwa [hsettings] at hget

def channelRecord (hash : String) (isPrivate : Bool) (number : Nat) : SubscriptionRecord :=
  ⟨hash, [hash], .str hash, none, isPrivate, number⟩

def channelRequest (hash : String) (isPrivate : Bool) : Station.Step :=
  .begin (.subscribe { Request.persistent hash (.str hash) with isPrivate })

def loginAnswered : Station.Step := .settle "auth" (.ok (.message .null))

/-- Three channels are subscribed to, the second of them with a login, and then the connection is
lost. -/
def losingChannels : List Step :=
  [.get 0 "ws://[::1]", .on 0 (.opened 0), .on 0 (channelRequest "trades" false),
    .on 0 (.advance 0), .on 0 (channelRequest "orders" true), .on 0 (.advance 1),
    .on 0 loginAnswered, .on 0 (.advance 1), .on 0 (channelRequest "books" false),
    .on 0 (.advance 2), .on 0 (.fail (.transport .notConnected)), .on 0 .finish]

def heldChannels : List SubscriptionRecord :=
  [channelRecord "trades" false 0, channelRecord "orders" true 1, channelRecord "books" false 2]

/-- The second connection to the address opens and asks for its login, which is answered. -/
def reopening : List Step := [.on 1 (.opened 0), .on 1 (.advance 0), .on 1 loginAnswered]

/-- The client that has lost them. -/
def lostChannels : Pool :=
  (new Station.loginAdapter .standard (.new .standard .strict)).run losingChannels

lemma ordered_lostChannels : ∃ previous, lostChannels.client.connection? 0 = some previous ∧
    previous.state.isLive = false ∧ previous.subscriptions.ordered = heldChannels := by
  obtain ⟨previous, hprevious, hdead, hrecords⟩ : ∃ previous,
      lostChannels.client.connection? 0 = some previous ∧ previous.state.isLive = false ∧
      previous.subscriptions.records.values = heldChannels := ⟨_, rfl, rfl, rfl⟩
  refine ⟨previous, hprevious, hdead, ?_⟩
  rw [Subscriptions.ordered, hrecords]
  exact SubscriptionRecord.inOrder_of_ascending (by decide)

/-- The second connection, with the records as they come out of their sort. -/
lemma get_lostChannels :
    lostChannels.get 0 "ws://[::1]" =
      ⟨{ lostChannels.client with
          connections := lostChannels.client.connections ++
            [.new "ws://[::1]" .standard heldChannels]
          current := lostChannels.client.current.insert "ws://[::1]" 1
          failures := lostChannels.client.failures.erase "ws://[::1]" },
        lostChannels.generations ++ [⟨[], lostChannels.heirs "ws://[::1]" heldChannels⟩]⟩ := by
  obtain ⟨previous, hprevious, -, hordered⟩ := ordered_lostChannels
  have hclient : (lostChannels.client.get 0 "ws://[::1]").2 =
      { lostChannels.client with
        connections := lostChannels.client.connections ++
          [.new "ws://[::1]" .standard heldChannels]
        current := lostChannels.client.current.insert "ws://[::1]" 1
        failures := lostChannels.client.failures.erase "ws://[::1]" } := by
    rw [← hordered]
    cases hprevious
    rfl
  rw [get_of_append (congrArg Client.connections hclient), hclient]
  rfl

/-- The second connection takes over all three channels in their order. When it opens it asks for
the public ones, and for the private one after its login. -/
theorem channels_handed_over_in_order :
    let answered := (new Station.loginAdapter .standard (.new .standard .strict)).run
      (losingChannels ++ .get 0 "ws://[::1]" :: reopening)
    ConnectionSettings.standard.reconnect.resubscribe = true ∧
    (lostChannels.get 0 "ws://[::1]").client.connections =
      lostChannels.client.connections ++ [.new "ws://[::1]" .standard heldChannels] ∧
    ∃ connection generation, answered.client.connection? 1 = some connection ∧
      answered.generations[1]? = some generation ∧
      connection.authenticated = false ∧
      connection.outbox = [.frame (.str "trades"), .frame (.str "books"), .frame (.str "login")] ∧
      let restored := Station.after Station.loginAdapter
        ⟨⟨connection, answered.client.store, answered.client.events⟩, generation.calls⟩ (.advance 0)
      restored.connection.authenticated = true ∧
      restored.connection.outbox = connection.outbox ++ [.frame (.str "orders")] := by
  intro answered
  obtain ⟨-, hget⟩ := replay_order_survives_replacements Station.loginAdapter .standard
    (.new .standard .strict) rfl losingChannels
  obtain ⟨hkeeps, -⟩ := replay_order_survives_replacements Station.loginAdapter .standard
    (.new .standard .strict) rfl (losingChannels ++ .get 0 "ws://[::1]" :: reopening)
  obtain ⟨previous, hprevious, hdead, hordered⟩ := ordered_lostChannels
  obtain ⟨-, hconnections, -⟩ := hget 0 "ws://[::1]" 0 previous _ rfl hprevious rfl hdead rfl
  rw [hordered] at hconnections
  have hanswered : answered = (lostChannels.get 0 "ws://[::1]").run reopening := rfl
  rw [get_lostChannels] at hanswered
  obtain ⟨connection, generation, hc, hg⟩ : ∃ connection generation,
      answered.client.connection? 1 = some connection ∧
      answered.generations[1]? = some generation := by
    rw [hanswered]
    exact ⟨_, _, rfl, rfl⟩
  obtain ⟨ha, hqueued, hheirs, hrestores, hown⟩ : connection.authenticated = false ∧
      connection.outbox =
        [.frame (.str "trades"), .frame (.str "books"), .frame (.str "login")] ∧
      (generation.heirsOf true).map (·.record) = [channelRecord "orders" true 1] ∧
      let station : Station :=
        ⟨⟨connection, answered.client.store, answered.client.events⟩, generation.calls⟩
      station.Restores Station.loginAdapter 0 ∧
      station.own Station.loginAdapter (.advance 0) = [] := by
    rw [hanswered] at hc hg ⊢
    cases hc
    cases hg
    exact ⟨rfl, rfl, rfl, ⟨_, _, _, rfl, rfl, rfl⟩, rfl⟩
  obtain ⟨hlogin, hfollows⟩ := (hkeeps 1 connection generation hc hg).restores 0 hrestores
  rw [hown, hheirs, List.append_nil] at hfollows
  exact ⟨rfl, hconnections, connection, generation, hc, hg, ha, hqueued, hlogin, hfollows⟩

end Pool

end MarketFeed
