import MarketFeed.Proofs.Client.Pool

/-!
# One live connection to an address

Connections leave the table of a client when they are replaced or closed, and their tasks go on all
the same. None of them can come back to life: a connection is replaced only once it is dead, closed
when it is forgotten, and a dead one stays dead whatever its tasks still do.
-/

namespace MarketFeed

/-! A connection that is dead stays dead. -/

namespace Connection

/-- A connection that nobody has closed has no fault. -/
def IsSound (connection : Connection) : Prop :=
  connection.state.isLive = true → connection.closeFault = none

lemma IsSound.new (url : String) (settings : ConnectionSettings)
    (records : List SubscriptionRecord) : (Connection.new url settings records).IsSound :=
  fun _ => rfl

/-- The one connection is what becomes of the other: it keeps its address, and lives only if the
other one does. -/
structure Ages (before after : Connection) : Prop where
  url : after.url = before.url
  live : after.state.isLive = true → before.state.isLive = true
  isSound : before.IsSound → after.IsSound

end Connection

namespace Station

lemma ages_after (adapter : Adapter) (station : Station) (step : Step) :
    station.connection.Ages (station.after adapter step).connection := by
  have heffect := lifeEffect adapter station step
  generalize station.teardown? adapter step = teardown at heffect
  generalize station.after adapter step = after at heffect ⊢
  have hdead : ∀ {state : Lifecycle}, after.connection.state = state → state.isLive = false →
      after.connection.state.isLive ≠ true := by
    rintro _ rfl hfalse
    rw [hfalse]
    simp
  cases heffect with
  | served hs =>
    have hlife := hs.connection.life
    have hstate := hs.connection.state
    refine ⟨congrArg Life.url hlife, fun hlive => hstate ▸ hlive, fun hsound hlive => ?_⟩
    exact (congrArg Life.closeFault hlife).trans (hsound (hstate ▸ hlive))
  | opened ho hl =>
    have hlive : station.connection.state.isLive = true := by rw [ho]; rfl
    exact ⟨congrArg Life.url hl, fun _ => hlive, fun hsound _ =>
      (congrArg Life.closeFault hl).trans (hsound hlive)⟩
  | begun _ hl =>
    have hclosing := hdead (congrArg Life.state hl) rfl
    exact ⟨congrArg Life.url hl, fun hlive => absurd hlive hclosing,
      fun _ hlive => absurd hlive hclosing⟩
  | ended _ hl =>
    have hclosed := hdead (congrArg Life.state hl) rfl
    exact ⟨congrArg Life.url hl, fun hlive => absurd hlive hclosed,
      fun _ hlive => absurd hlive hclosed⟩

end Station

namespace Circuit

/-- A connection that its caller closes is dead from then on, whoever has closed it first. -/
lemma ages_close (circuit : Circuit) (h : circuit.connection.IsSound) :
    circuit.connection.Ages circuit.close.connection ∧
      circuit.close.connection.state.isLive = false := by
  have hlife := circuit.serves_sayClose.connection.life
  have hstate : circuit.sayClose.2.connection.state = circuit.connection.state :=
    congrArg Life.state hlife
  have hurl : circuit.sayClose.2.connection.url = circuit.connection.url :=
    congrArg Life.url hlife
  have hfault : circuit.sayClose.2.connection.closeFault = circuit.connection.closeFault :=
    congrArg Life.closeFault hlife
  suffices hdead : circuit.close.connection.url = circuit.connection.url ∧
      circuit.close.connection.state.isLive = false by
    have hlate : circuit.close.connection.state.isLive ≠ true := by simp [hdead.2]
    exact ⟨⟨hdead.1, fun hlive => absurd hlive hlate, fun _ hlive => absurd hlive hlate⟩, hdead.2⟩
  change (circuit.sayClose.2.teardown _).2.connection.url = _ ∧
    (circuit.sayClose.2.teardown _).2.connection.state.isLive = false
  generalize circuit.sayClose.2 = said at hstate hurl hfault
  unfold teardown beginTeardown
  by_cases hclosed : said.connection.closeFault.isSome = true
  · -- it has been closed before, and is dead by now: a live one has no fault
    rw [if_pos hclosed]
    refine ⟨hurl, Bool.eq_false_iff.mpr fun hlive => ?_⟩
    rw [hfault, h (hstate ▸ hlive)] at hclosed
    exact absurd hclosed (by simp)
  · rw [if_neg hclosed]
    exact ⟨hurl, rfl⟩

end Circuit

/-! What callers and tasks do. -/

namespace Client

/-- What can happen next. To close all connections is to close one after the other; where others act
in between, these are as many steps. -/
inductive Step where
  | get (draw : Float) (url : String)
  | close (url : String)
  | closeAll
  /-- A task or a caller goes on on a connection, in the table or out of it, whatever calls are
  under way there. -/
  | on (number : Nat) (calls : List Progress) (step : Station.Step)

def serve (client : Client) (number : Nat) (calls : List Progress) (step : Station.Step) : Client :=
  (client.onCircuit number fun circuit =>
    ((), (Station.after client.adapter ⟨circuit, calls⟩ step).circuit)).2

def after (client : Client) : Step → Client
  | .get draw url => (client.get draw url).2
  | .close url => (client.close url).2
  | .closeAll => client.closeAll
  | .on number calls step => client.serve number calls step

def run (client : Client) (steps : List Step) : Client := steps.foldl after client

variable {client : Client} {number : Nat} {connection : Connection} {url : String}

/-- Every address in the table has its connection, and a connection that is live stands in it. -/
structure Tenanted (client : Client) : Prop where
  current : ∀ url number, client.number? url = some number →
    ∃ connection, client.connection? number = some connection ∧ connection.url = url
  live : ∀ number connection, client.connection? number = some connection →
    connection.state.isLive = true → client.number? connection.url = some number
  isSound : ∀ number connection, client.connection? number = some connection → connection.IsSound

lemma tenanted_new (adapter : Adapter) (settings : ConnectionSettings) (store : FeedStore) :
    (new adapter settings store).Tenanted :=
  ⟨fun _ _ hn => absurd hn (by simp [new, number?]),
    fun _ _ hc => absurd hc (by simp [new, connection?]),
    fun _ _ hc => absurd hc (by simp [new, connection?])⟩

lemma Tenanted.ne_of_live (h : client.Tenanted) (hv : client.Vacant url)
    (hc : client.connection? number = some connection) (hl : connection.state.isLive = true) :
    url ≠ connection.url := by
  intro he
  have hdead := hv number connection (he ▸ h.live number connection hc hl) hc
  exact absurd (hl.symm.trans hdead) (by simp)

lemma connection?_set {other : Client} {after : Connection}
    (hc : client.connection? number = some connection)
    (hs : other.connections = client.connections.set number after) (index : Nat) :
    other.connection? index = if number = index then some after else client.connection? index := by
  obtain ⟨hlt, -⟩ := List.getElem?_eq_some_iff.mp hc
  unfold connection?
  rw [hs]
  split
  · rename_i heq
    rw [← heq, List.getElem?_set_self hlt]
  · rename_i hne
    exact List.getElem?_set_ne hne

lemma Tenanted.set (h : client.Tenanted) (hb : client.connection? number = some connection)
    {after : Connection} (ha : connection.Ages after) {other : Client}
    (hs : other.connections = client.connections.set number after)
    (hn : other.current = client.current) : other.Tenanted := by
  have hread := connection?_set hb hs
  have hnumber : ∀ url, other.number? url = client.number? url := fun url => by
    rw [number?, hn, number?]
  refine ⟨fun url index hi => ?_, fun index found hf hl => ?_, fun index found hf => ?_⟩
  · obtain ⟨before, hbefore, hurl⟩ := h.current url index (hnumber url ▸ hi)
    rw [hread]
    split
    · rename_i heq
      subst heq
      obtain rfl := Option.some.inj (hb.symm.trans hbefore)
      exact ⟨after, rfl, ha.url.trans hurl⟩
    · exact ⟨before, hbefore, hurl⟩
  · rw [hread] at hf
    rw [hnumber]
    split at hf
    · rename_i heq
      subst heq
      obtain rfl := Option.some.inj hf
      rw [ha.url]
      exact h.live number connection hb (ha.live hl)
    · exact h.live index found hf hl
  · rw [hread] at hf
    split at hf
    · obtain rfl := Option.some.inj hf
      exact ha.isSound (h.isSound number connection hb)
    · exact h.isSound index found hf

lemma tenanted_serve (h : client.Tenanted) (number : Nat) (calls : List Progress)
    (step : Station.Step) : (client.serve number calls step).Tenanted := by
  unfold serve
  cases hc : client.connection? number with
  | none =>
    have hsame : client.onCircuit number (fun circuit =>
        ((), (Station.after client.adapter ⟨circuit, calls⟩ step).circuit)) = (none, client) := by
      unfold onCircuit
      rw [hc]
    rw [hsame]
    exact h
  | some connection =>
    rw [onCircuit_of_connection hc]
    exact h.set hc (Station.ages_after client.adapter ⟨⟨connection, _, _⟩, calls⟩ step) rfl rfl

lemma Tenanted.forget (h : client.Tenanted) (hv : client.Vacant url) {other : Client}
    (hc : other.connections = client.connections)
    (hn : other.current = client.current.erase url) : other.Tenanted := by
  have hconnection : ∀ index, other.connection? index = client.connection? index := fun index => by
    rw [connection?, hc, connection?]
  have hnumber : ∀ key, other.number? key = if url = key then none else client.number? key :=
    fun key => by rw [number?, hn, Table.get?_erase, number?]
  refine ⟨fun key index hi => ?_, fun index found hf hl => ?_, fun index found hf => ?_⟩
  · rw [hnumber] at hi
    rw [hconnection]
    split at hi
    · exact absurd hi (by simp)
    · exact h.current key index hi
  · rw [hconnection] at hf
    rw [hnumber, if_neg (h.ne_of_live hv hf hl)]
    exact h.live index found hf hl
  · exact h.isSound index found (hconnection index ▸ hf)

lemma connection?_concat {other : Client} {made : Connection}
    (hc : other.connections = client.connections ++ [made]) (index : Nat) :
    other.connection? index =
      if index = client.connections.length then some made else client.connection? index := by
  unfold connection?
  rw [hc]
  split
  · rename_i heq
    rw [heq, List.getElem?_concat_length]
  · rename_i hne
    rcases Nat.lt_or_gt_of_ne hne with hlt | hgt
    · rw [List.getElem?_append_left hlt]
    · rw [List.getElem?_eq_none (Nat.le_of_lt hgt), List.getElem?_eq_none]
      rw [List.length_append]
      exact hgt

lemma Tenanted.spawn (h : client.Tenanted) (hv : client.Vacant url)
    {settings : ConnectionSettings} {records : List SubscriptionRecord} {other : Client}
    (hc : other.connections = client.connections ++ [.new url settings records])
    (hn : other.current = client.current.insert url client.connections.length) :
    other.Tenanted := by
  have hread := connection?_concat hc
  have hnumber : ∀ key, other.number? key =
      if url = key then some client.connections.length else client.number? key :=
    fun key => by rw [number?, hn, Table.get?_insert, number?]
  refine ⟨fun key index hi => ?_, fun index found hf hl => ?_, fun index found hf => ?_⟩
  · rw [hnumber] at hi
    split at hi
    · rename_i heq
      obtain rfl := Option.some.inj hi
      exact ⟨.new url settings records, by rw [hread, if_pos rfl], heq⟩
    · obtain ⟨found, hf, hurl⟩ := h.current key index hi
      obtain ⟨hlt, -⟩ := List.getElem?_eq_some_iff.mp hf
      exact ⟨found, by rw [hread, if_neg (Nat.ne_of_lt hlt), hf], hurl⟩
  · rw [hread] at hf
    rw [hnumber]
    split at hf
    · rename_i heq
      obtain rfl := Option.some.inj hf
      rw [heq]
      exact if_pos rfl
    · rw [if_neg (h.ne_of_live hv hf hl)]
      exact h.live index found hf hl
  · rw [hread] at hf
    split at hf
    · obtain rfl := Option.some.inj hf
      exact .new url settings records
    · exact h.isSound index found hf

lemma tenanted_get (h : client.Tenanted) (draw : Float) (url : String) :
    (client.get draw url).2.Tenanted := by
  have hgranting := client.granting draw url
  generalize client.get draw url = got at hgranting ⊢
  cases hgranting with
  | refused => exact h
  | found => exact h
  | made hv _ hc hn => exact h.spawn hv hc hn

lemma tenanted_close (h : client.Tenanted) (url : String) : (client.close url).2.Tenanted := by
  unfold close
  dsimp only
  split
  · rename_i hn
    exact ⟨h.current, h.live, h.isSound⟩
  · rename_i number hn
    obtain ⟨connection, hc, -⟩ := h.current url number hn
    let circuit : Circuit := ⟨connection, client.store, client.events⟩
    obtain ⟨hages, hdead⟩ := circuit.ages_close (h.isSound number connection hc)
    -- The address is forgotten before the connection is closed. Nobody acts in between, and in the
    -- other order what is forgotten is dead.
    let closed := { client with
      connections := client.connections.set number circuit.close.connection }
    have hclosed : closed.Tenanted := h.set hc hages rfl rfl
    have hforgotten : { client with
        failures := client.failures.erase url
        current := client.current.erase url }.connection? number = some connection := hc
    rw [onCircuit_of_connection hforgotten]
    have hvacant : closed.Vacant url := by
      intro index found hi hf
      obtain rfl := Option.some.inj (hn.symm.trans hi)
      rw [connection?_set hc rfl, if_pos rfl] at hf
      obtain rfl := Option.some.inj hf
      exact hdead
    exact hclosed.forget hvacant rfl rfl

lemma tenanted_closeAll (h : client.Tenanted) : client.closeAll.Tenanted := by
  unfold closeAll
  generalize client.current.keys = keys
  induction keys generalizing client with
  | nil => exact h
  | cons url rest ih => exact ih (tenanted_close h url)

lemma tenanted_after (h : client.Tenanted) (step : Step) : (client.after step).Tenanted := by
  cases step with
  | get draw url => exact tenanted_get h draw url
  | close url => exact tenanted_close h url
  | closeAll => exact tenanted_closeAll h
  | on number calls step => exact tenanted_serve h number calls step

lemma tenanted_run (h : client.Tenanted) (steps : List Step) : (client.run steps).Tenanted := by
  induction steps generalizing client with
  | nil => exact h
  | cons step rest ih => exact ih (tenanted_after h step)

/-- What asking for an address that is one of a stream comes to. -/
structure Answers (client : Client) (draw : Float) (url : String) : Prop where
  found : ∀ number connection, client.connection? number = some connection →
    connection.url = url → connection.state.isLive = true →
    client.get draw url = (.ok ⟨number, none⟩, client)
  /-- One connection is made and stands for the address, if none is live. -/
  made : (∀ number connection, client.number? url = some number →
      client.connection? number = some connection → connection.state.isLive = false) →
    ∃ delay records, (client.get draw url).1 = .ok ⟨client.connections.length, some delay⟩ ∧
      (client.get draw url).2.connections =
        client.connections ++ [.new url client.settings records] ∧
      (client.get draw url).2.number? url = some client.connections.length

lemma Tenanted.answers (h : client.Tenanted) (hu : checkUrl url = .ok ()) (draw : Float) :
    client.Answers draw url := by
  have hgranting := client.granting draw url
  constructor
  · intro number connection hc hurl hl
    have hn : client.number? url = some number := hurl ▸ h.live number connection hc hl
    generalize client.get draw url = got at hgranting ⊢
    cases hgranting with
    | refused hrefused => exact absurd (hu.symm.trans hrefused) (by simp)
    | found hfound =>
      obtain rfl := Option.some.inj (hn.symm.trans hfound)
      rfl
    | made hv => exact absurd hurl.symm (h.ne_of_live hv hc hl)
  · intro hd
    generalize client.get draw url = got at hgranting ⊢
    cases hgranting with
    | refused hrefused => exact absurd (hu.symm.trans hrefused) (by simp)
    | @found number connection hn hc hl =>
      rw [hd number connection hn hc] at hl
      exact absurd hl (by simp)
    | @made delay records after _ _ hc hn =>
      refine ⟨delay, records, rfl, hc, ?_⟩
      rw [number?, hn, Table.get?_insert, if_pos rfl]

/-- In whatever order addresses are asked for and closed and the tasks of all connections go on,
also of those that have been replaced or forgotten, at most one connection to an address is live,
and it is the one that stands for the address. Whoever asks for the address is given it. If there is
none, just one is made. -/
theorem one_live_connection (adapter : Adapter) (settings : ConnectionSettings) (store : FeedStore)
    (steps : List Step) :
    let client := (new adapter settings store).run steps
    (∀ first second connection other, client.connection? first = some connection →
      client.connection? second = some other → connection.url = other.url →
      connection.state.isLive = true → other.state.isLive = true → first = second) ∧
    (∀ number connection, client.connection? number = some connection →
      connection.state.isLive = true → client.number? connection.url = some number) ∧
    ∀ draw url, checkUrl url = .ok () → client.Answers draw url := by
  intro client
  have htenanted : client.Tenanted := tenanted_run (tenanted_new adapter settings store) steps
  refine ⟨fun first second connection other hf hs hurl hl hl' => ?_, htenanted.live,
    fun draw url hu => htenanted.answers hu draw⟩
  have hfirst := htenanted.live first connection hf hl
  have hsecond := htenanted.live second other hs hl'
  exact Option.some.inj (hfirst.symm.trans (hurl ▸ hsecond))

/-- A connection fails before it has opened, and its replacement is closed while it waits to dial.
Both sockets open all the same. -/
def closingReplacement : List Step :=
  [.get 0 "ws://[::1]", .on 0 [] (.fail (.transport .notConnected)), .on 0 [] .finish,
    .get 0 "ws://[::1]", .close "ws://[::1]", .on 0 [] (.opened 0), .on 1 [] (.dial true),
    .on 1 [] (.opened 0), .get 0 "ws://[::1]", .on 2 [] (.opened 0)]

/-- The third connection to an address is the only one that is live, and the one that is given to
those who ask. -/
theorem late_sockets_stay_dead :
    let settings := { ConnectionSettings.standard with reconnect.resubscribe := false }
    let client := (new .plain settings (.new .standard .strict)).run closingReplacement
    client.connections.map (·.state) = [.closed, .closed, .opened] ∧
    client.connections.map (·.everOpened) = [true, true, true] ∧
    client.number? "ws://[::1]" = some 2 ∧
    (client.get 0 "ws://[::1]").1 = .ok ⟨2, none⟩ := by
  intro settings client
  obtain ⟨-, hlive, hanswers⟩ := one_live_connection .plain settings (.new .standard .strict)
    closingReplacement
  have hthird : (client.connection? 2).map (fun connection => (connection.url, connection.state)) =
      some ("ws://[::1]", .opened) := by decide +kernel
  obtain ⟨connection, hc, hthird⟩ := Option.map_eq_some_iff.mp hthird
  obtain ⟨hurl, hstate⟩ := Prod.mk.inj hthird
  have hl : connection.state.isLive = true := by rw [hstate]; rfl
  have hanswer := (hanswers 0 "ws://[::1]" rfl).found 2 connection hc hurl hl
  exact ⟨by decide +kernel, by decide +kernel, hurl ▸ hlive 2 connection hc hl,
    congrArg Prod.fst hanswer⟩

end Client

end MarketFeed
