import Mathlib.Data.List.DropRight
import MarketFeed.Proofs.Client.Tenancy
import MarketFeed.Proofs.Connection.Opening

/-!
# Failures in a row

A client keeps a number for each address, apart from its connections. It goes up when a connection
to the address is replaced that has never opened, and starts over when one is replaced that has, or
when the address is closed. So it is the number of failures in a row, whatever goes on on the
connections to other addresses.
-/

namespace MarketFeed

namespace Client

/-- What becomes of the connection that stands for an address: it is replaced, after it has opened
or without having done so, or it is closed by its caller. -/
inductive Turn where
  | failed
  | renewed
  | closed
deriving DecidableEq

/-- The number of failures after all other turns. -/
def inARow (turns : List Turn) : Nat := (turns.rtakeWhile (· = .failed)).length

variable {client : Client} {number : Nat} {connection : Connection} {url other : String}
  {draw : Float} {step : Step}

/-- The connection that stands for an address. -/
def standing? (client : Client) (url : String) : Option Connection :=
  (client.number? url).bind client.connection?

/-- The turn that a step brings to an address. -/
def turn? (client : Client) (url : String) : Step → Option Turn
  | .get _ other =>
    if other = url ∧ (checkUrl url).isOk = true then
      (client.standing? url).bind fun connection =>
        if connection.state.isLive then none
        else some (if connection.everOpened then .renewed else .failed)
    else none
  | .close other => if other = url then some .closed else none
  | .closeAll => if (client.number? url).isSome then some .closed else none
  | .on _ _ _ => none

/-- The turns of an address in a run. -/
def turns (client : Client) (url : String) : List Step → List Turn
  | [] => []
  | step :: rest => (client.turn? url step).toList ++ (client.after step).turns url rest

lemma run_concat (client : Client) (steps : List Step) (last : Step) :
    client.run (steps ++ [last]) = (client.run steps).after last :=
  List.foldl_concat ..

lemma turns_concat (client : Client) (url : String) (steps : List Step) (last : Step) :
    client.turns url (steps ++ [last]) =
      client.turns url steps ++ ((client.run steps).turn? url last).toList := by
  induction steps generalizing client with
  | nil => exact List.append_nil _
  | cons step rest ih =>
    rw [List.cons_append, turns, ih, turns, List.append_assoc]
    rfl

/-! What is counted. -/

/-- The count of an address. -/
def failed (client : Client) (url : String) : Nat := (client.failures.get? url).getD 0

/-- The count after a turn. -/
def Turn.count (count : Nat) : Turn → Nat
  | failed => count + 1
  | renewed | closed => 0

lemma inARow_concat (turns : List Turn) (turn : Turn) :
    inARow (turns ++ [turn]) = turn.count (inARow turns) := by
  unfold inARow
  cases turn with
  | failed => rw [List.rtakeWhile_concat_pos _ _ _ (by decide), List.length_append]; rfl
  | renewed => rw [List.rtakeWhile_concat_neg _ _ _ (by decide)]; rfl
  | closed => rw [List.rtakeWhile_concat_neg _ _ _ (by decide)]; rfl

/-- All that asking for an address can do to the counts and to what is reported. -/
inductive Counting (client : Client) (draw : Float) (url : String) :
    Option Turn → Except Fault Grant × Client → Prop
  | idle {result : Except Fault Grant} {after : Client} (hf : after.failures = client.failures)
      (he : after.events = client.events) : Counting client draw url none (result, after)
  | renewed {after : Client} (hf : after.failures = client.failures.erase url)
      (he : after.events = client.events) :
      Counting client draw url (some .renewed)
        (.ok ⟨client.connections.length, some 0⟩, after)
  | failed {after : Client} {delay : Nat}
      (hd : delay = client.settings.reconnect.backoff.delay draw (client.failed url))
      (hf : after.failures = client.failures.insert url (client.failed url + 1))
      (he : after.events = client.events ++
        [.backoff url (client.failed url + 1) (Duration.ofMillis delay)]) :
      Counting client draw url (some .failed)
        (.ok ⟨client.connections.length, some delay⟩, after)

lemma counting (client : Client) (draw : Float) (url : String) :
    client.Counting draw url (client.turn? url (.get draw url)) (client.get draw url) := by
  unfold turn? standing? get
  dsimp only
  cases checkUrl url with
  | error fault =>
    rw [if_neg fun h => absurd h.2 (by simp [Except.isOk, Except.toBool])]
    exact .idle rfl rfl
  | ok =>
    rw [if_pos ⟨rfl, rfl⟩]
    dsimp only
    cases client.number? url with
    | none => exact .idle rfl rfl
    | some number =>
      rw [Option.bind_some, Option.bind_some]
      cases client.connection? number with
      | none => exact .idle rfl rfl
      | some connection =>
        rw [Option.bind_some, Option.map_some]
        dsimp only
        cases connection.state.isLive with
        | true => exact .idle rfl rfl
        | false =>
          rw [if_neg Bool.false_ne_true, if_neg Bool.false_ne_true]
          unfold replace
          cases connection.everOpened with
          | true =>
            rw [if_pos rfl, if_pos rfl]
            exact .renewed rfl rfl
          | false =>
            rw [if_neg Bool.false_ne_true, if_neg Bool.false_ne_true]
            exact .failed rfl rfl rfl

lemma failures_onCircuit {α : Type} (client : Client) (number : Nat)
    (change : Circuit → α × Circuit) :
    (client.onCircuit number change).2.failures = client.failures := by
  unfold onCircuit
  split <;> rfl

lemma failures_close (client : Client) (url : String) :
    (client.close url).2.failures = client.failures.erase url := by
  unfold close
  dsimp only
  split
  · rfl
  · exact failures_onCircuit ..

lemma failures_closeAll (client : Client) (url : String) :
    client.closeAll.failures.get? url =
      if (client.number? url).isSome then none else client.failures.get? url := by
  have hkeys : (client.number? url).isSome = true ↔ url ∈ client.current.keys := by
    rw [← not_iff_not, Bool.not_eq_true, Option.isSome_eq_false_iff, Option.isNone_iff_eq_none]
    exact Table.find?_eq_none_iff
  rw [if_congr hkeys rfl rfl]
  clear hkeys
  unfold closeAll
  generalize client.current.keys = keys
  induction keys generalizing client with
  | nil => rw [if_neg List.not_mem_nil]; rfl
  | cons key rest ih =>
    rw [List.foldl_cons, ih, failures_close, Table.get?_erase]
    by_cases hk : key = url
    · simp [hk]
    · simp [hk, Ne.symm hk]

/-- A turn of an address counts for it, and nothing else does. -/
lemma failed_after (client : Client) (url : String) (step : Step) :
    (client.after step).failed url =
      (client.turn? url step).elim (client.failed url) (Turn.count (client.failed url)) := by
  cases step with
  | get draw other =>
    have hcounting := client.counting draw other
    change (client.get draw other).2.failed url = _
    by_cases ho : other = url
    · subst ho
      generalize client.turn? other (.get draw other) = turn at hcounting ⊢
      generalize client.get draw other = got at hcounting ⊢
      cases hcounting with
      | idle hf => rw [failed, hf]; rfl
      | renewed hf => rw [failed, hf, Table.get?_erase, if_pos rfl]; rfl
      | failed _ hf => rw [failed, hf, Table.get?_insert, if_pos rfl]; rfl
    · have hturn : client.turn? url (.get draw other) = none := if_neg fun h => ho h.1
      rw [hturn]
      generalize client.turn? other (.get draw other) = turn at hcounting
      generalize client.get draw other = got at hcounting ⊢
      cases hcounting with
      | idle hf => rw [failed, hf]; rfl
      | renewed hf => rw [failed, hf, Table.get?_erase, if_neg ho]; rfl
      | failed _ hf => rw [failed, hf, Table.get?_insert, if_neg ho]; rfl
  | close other =>
    rw [after, failed, failures_close, Table.get?_erase, turn?]
    split <;> rfl
  | closeAll =>
    rw [after, failed, failures_closeAll, turn?]
    split <;> rfl
  | on number calls step => rw [after, serve, failed, failures_onCircuit]; rfl

lemma failed_run (h : client.failed url = 0) (steps : List Step) :
    (client.run steps).failed url = inARow (client.turns url steps) := by
  induction steps using List.reverseRecOn with
  | nil => exact h
  | append_singleton steps last ih =>
    rw [run_concat, failed_after, turns_concat, ih]
    cases (client.run steps).turn? url last with
    | none => exact congrArg inARow (List.append_nil _).symm
    | some turn => exact (inARow_concat _ turn).symm

/-! What is reported. -/

lemma backoffs_onCircuit {α : Type} (change : Circuit → α × Circuit)
    (h : ∀ circuit, (change circuit).2.events.filter (·.isBackoff) =
      circuit.events.filter (·.isBackoff)) (client : Client) (number : Nat) :
    (client.onCircuit number change).2.events.filter (·.isBackoff) =
      client.events.filter (·.isBackoff) := by
  unfold onCircuit
  split
  · rfl
  · exact h _

lemma backoffs_close (client : Client) (url : String) :
    (client.close url).2.events.filter (·.isBackoff) = client.events.filter (·.isBackoff) := by
  unfold close
  dsimp only
  split
  · rfl
  · exact backoffs_onCircuit (fun circuit => ((), circuit.close)) Circuit.backoffs_close _ _

/-- Nothing but a failure is reported as one. -/
lemma backoffs_after (client : Client) (step : Step)
    (h : ∀ draw url, step = .get draw url → client.turn? url step ≠ some .failed) :
    (client.after step).events.filter (·.isBackoff) = client.events.filter (·.isBackoff) := by
  cases step with
  | get draw url =>
    have hcounting := client.counting draw url
    have hturn := h draw url rfl
    change (client.get draw url).2.events.filter _ = _
    generalize client.turn? url (.get draw url) = turn at hcounting hturn
    generalize client.get draw url = got at hcounting ⊢
    cases hcounting with
    | idle _ he => rw [he]
    | renewed _ he => rw [he]
    | failed => exact absurd rfl hturn
  | close url => exact backoffs_close client url
  | closeAll =>
    change client.closeAll.events.filter _ = _
    unfold closeAll
    generalize client.current.keys = keys
    induction keys generalizing client with
    | nil => rfl
    | cons key rest ih => exact (ih _ (by simp)).trans (backoffs_close client key)
  | on number calls step =>
    exact backoffs_onCircuit _
      (fun circuit => Station.backoffs_after client.adapter ⟨circuit, calls⟩ step) _ _

/-! Who has opened. -/

def hasOpened (client : Client) (number : Nat) : Bool :=
  ((client.connection? number).map (·.everOpened)).getD false

/-- The step is that the socket of a connection opens. -/
def Step.opens (number : Nat) : Step → Bool
  | .on index _ step => decide (index = number) && step.opens
  | .get _ _ | .close _ | .closeAll => false

lemma hasOpened_onCircuit {α : Type} (change : Circuit → α × Circuit) {opens : Bool}
    (h : ∀ circuit, (change circuit).2.connection.everOpened =
      (circuit.connection.everOpened || opens)) (client : Client) (index number : Nat) :
    (client.onCircuit index change).2.hasOpened number = (client.hasOpened number ||
      (decide (index = number) && opens) && decide (number < client.connections.length)) := by
  unfold onCircuit
  cases hc : client.connection? index with
  | none =>
    have hge : client.connections.length ≤ index := List.getElem?_eq_none_iff.mp hc
    by_cases heq : index = number
    · subst heq
      simp [Nat.not_lt_of_le hge]
    · simp [heq]
  | some connection =>
    obtain ⟨hlt, -⟩ := List.getElem?_eq_some_iff.mp hc
    unfold hasOpened
    rw [connection?_set hc rfl]
    by_cases heq : index = number
    · subst heq
      rw [if_pos rfl, hc]
      simp [h, hlt]
    · simp [heq]

lemma hasOpened_close (client : Client) (url : String) (number : Nat) :
    (client.close url).2.hasOpened number = client.hasOpened number := by
  unfold close
  dsimp only
  split
  · rfl
  · have hclose : ∀ circuit : Circuit, circuit.close.connection.everOpened =
        (circuit.connection.everOpened || false) := fun circuit =>
      circuit.everOpened_close.trans (Bool.or_false _).symm
    rw [hasOpened_onCircuit (fun circuit => ((), circuit.close)) hclose, Bool.and_false,
      Bool.false_and, Bool.or_false]
    rfl

lemma hasOpened_after (client : Client) (step : Step) (number : Nat) :
    (client.after step).hasOpened number = (client.hasOpened number ||
      step.opens number && decide (number < client.connections.length)) := by
  cases step with
  | get draw url =>
    have hmade : ∀ records, (client.get draw url).2.connections =
        client.connections ++ [.new url client.settings records] →
        (client.get draw url).2.hasOpened number = client.hasOpened number := by
      intro records hc
      unfold hasOpened
      rw [connection?_concat hc]
      split
      · rename_i heq
        rw [heq, connection?, List.getElem?_eq_none (Nat.le_refl _)]
        rfl
      · rfl
    rw [Step.opens, Bool.false_and, Bool.or_false]
    cases client.getting draw url with
    | kept hc => rw [after, hasOpened, connection?, hc]; rfl
    | spawned hc => exact hmade _ hc
    | replaced _ _ hc => exact hmade _ hc
  | close url =>
    rw [Step.opens, Bool.false_and, Bool.or_false]
    exact hasOpened_close client url number
  | closeAll =>
    rw [Step.opens, Bool.false_and, Bool.or_false]
    change client.closeAll.hasOpened number = _
    unfold closeAll
    generalize client.current.keys = keys
    induction keys generalizing client with
    | nil => rfl
    | cons key rest ih => exact (ih _).trans (hasOpened_close client key number)
  | on index calls step =>
    exact hasOpened_onCircuit _
      (fun circuit => Station.everOpened_eq client.adapter ⟨circuit, calls⟩ step) _ _ _

lemma Step.opens_iff : step.opens number = true ↔
    ∃ calls now, step = .on number calls (.opened now) := by
  constructor
  · intro h
    cases step with
    | on index calls step =>
      obtain ⟨hindex, hopens⟩ := (Bool.and_eq_true ..).mp h
      obtain rfl := of_decide_eq_true hindex
      cases step with
      | opened now => exact ⟨calls, now, rfl⟩
      | _ => exact absurd hopens Bool.false_ne_true
    | _ => exact absurd h Bool.false_ne_true
  · rintro ⟨calls, now, rfl⟩
    simp [Step.opens, Station.Step.opens]

/-- A connection has opened if its socket has, at some time after it was made. -/
lemma hasOpened_run (client : Client) (steps : List Step) (number : Nat) :
    (client.run steps).hasOpened number = true ↔ client.hasOpened number = true ∨
      ∃ early step late, steps = early ++ step :: late ∧ step.opens number = true ∧
        number < (client.run early).connections.length := by
  induction steps generalizing client with
  | nil => simp [run]
  | cons step rest ih =>
    change ((client.after step).run rest).hasOpened number = true ↔ _
    rw [ih, hasOpened_after, Bool.or_eq_true, Bool.and_eq_true, decide_eq_true_iff, or_assoc]
    refine or_congr_right ⟨?_, ?_⟩
    · rintro (⟨hopens, hlt⟩ | ⟨early, later, late, rfl, hopens, hlt⟩)
      · exact ⟨[], step, rest, rfl, hopens, hlt⟩
      · exact ⟨step :: early, later, late, rfl, hopens, hlt⟩
    · rintro ⟨early, later, late, hsteps, hopens, hlt⟩
      cases early with
      | nil =>
        obtain ⟨rfl, rfl⟩ := List.cons.inj hsteps
        exact .inl ⟨hopens, hlt⟩
      | cons first early =>
        obtain ⟨rfl, rfl⟩ := List.cons.inj hsteps
        exact .inr ⟨early, later, late, rfl, hopens, hlt⟩

lemma settings_after (client : Client) (step : Step) :
    (client.after step).settings = client.settings := by
  cases step with
  | get draw url => exact (client.frame_get draw url).2
  | close url => exact (client.frame_close url).2
  | closeAll =>
    change client.closeAll.settings = client.settings
    unfold closeAll
    generalize client.current.keys = keys
    induction keys generalizing client with
    | nil => rfl
    | cons key rest ih => exact (ih _).trans (client.frame_close key).2
  | on number calls step => exact (client.frame_onCircuit number _).2

lemma settings_run (client : Client) (steps : List Step) :
    (client.run steps).settings = client.settings := by
  induction steps generalizing client with
  | nil => rfl
  | cons step rest ih => exact (ih _).trans (client.settings_after step)

/-- What it comes to that a dead connection is replaced, if there are `count` failures in a row. One
that has never opened is a failure more: it is reported with its number, and the new connection
waits as long as that number calls for. Any other one is replaced at once, without a word. -/
structure Replaces (client : Client) (backoff : Backoff) (draw : Float) (url : String)
    (connection : Connection) (count : Nat) : Prop where
  failed : connection.everOpened = false →
    let delay := backoff.delay draw count
    (client.get draw url).1 = .ok ⟨client.connections.length, some delay⟩ ∧
      (client.get draw url).2.events =
        client.events ++ [.backoff url (count + 1) (Duration.ofMillis delay)]
  renewed : connection.everOpened = true →
    (client.get draw url).1 = .ok ⟨client.connections.length, some 0⟩ ∧
      (client.get draw url).2.events = client.events

lemma replaces (hu : checkUrl url = .ok ()) (hs : client.standing? url = some connection)
    (hd : connection.state.isLive = false) (draw : Float) :
    client.Replaces client.settings.reconnect.backoff draw url connection (client.failed url) := by
  have hcounting := client.counting draw url
  have hturn : client.turn? url (.get draw url) =
      some (if connection.everOpened then .renewed else .failed) := by
    rw [turn?, if_pos ⟨rfl, by rw [hu]; rfl⟩, hs, Option.bind_some, hd]
    exact if_neg Bool.false_ne_true
  rw [hturn] at hcounting
  constructor
  · intro he
    rw [he, if_neg Bool.false_ne_true] at hcounting
    generalize client.get draw url = got at hcounting ⊢
    cases hcounting with
    | failed hdelay _ hevents => exact ⟨by rw [hdelay], by rw [hevents, hdelay]⟩
  · intro he
    rw [he, if_pos rfl] at hcounting
    generalize client.get draw url = got at hcounting ⊢
    cases hcounting with
    | renewed _ hevents => exact ⟨rfl, hevents⟩

/-- The number of an attempt is that of the failures of its address in a row, since the address was
first asked for or last closed, or a connection to it was replaced that had opened. Nothing else is
reported as a failure; a connection has opened if its socket has; and what happens to other
addresses and on whatever connection makes no difference. -/
theorem attempts_count_failures_in_a_row (adapter : Adapter) (settings : ConnectionSettings)
    (store : FeedStore) (steps : List Step) :
    let start := new adapter settings store
    let client := start.run steps
    (∀ draw url number connection, checkUrl url = .ok () → client.number? url = some number →
      client.connection? number = some connection → connection.state.isLive = false →
      client.Replaces settings.reconnect.backoff draw url connection
        (inARow (start.turns url steps))) ∧
    (∀ step, (∀ draw url, step = .get draw url → client.turn? url step ≠ some .failed) →
      (client.after step).events.filter (·.isBackoff) = client.events.filter (·.isBackoff)) ∧
    (∀ number connection, client.connection? number = some connection →
      (connection.everOpened = true ↔ ∃ early calls now late,
        steps = early ++ .on number calls (.opened now) :: late ∧
          number < (start.run early).connections.length)) ∧
    ∀ url step, (∀ draw, step ≠ .get draw url) → step ≠ .close url → step ≠ .closeAll →
      start.turns url (steps ++ [step]) = start.turns url steps := by
  intro start client
  refine ⟨fun draw url number connection hu hn hc hd => ?_,
    client.backoffs_after, fun number connection hc => ?_, fun url step hget hclose hall => ?_⟩
  · have hstanding : client.standing? url = some connection := by
      rw [standing?, hn, Option.bind_some, hc]
    have hcount : client.failed url = inARow (start.turns url steps) := failed_run rfl steps
    have hsettings : client.settings = settings := start.settings_run steps
    rw [← hcount, ← hsettings]
    exact replaces hu hstanding hd draw
  · have hopened : client.hasOpened number = connection.everOpened := by
      rw [hasOpened, hc, Option.map_some, Option.getD_some]
    have hnew : start.hasOpened number ≠ true := by simp [start, hasOpened, new, connection?]
    rw [← hopened, hasOpened_run, or_iff_right hnew]
    constructor
    · rintro ⟨early, step, late, hsteps, hopens, hlt⟩
      obtain ⟨calls, now, rfl⟩ := Step.opens_iff.mp hopens
      exact ⟨early, calls, now, late, hsteps, hlt⟩
    · rintro ⟨early, calls, now, late, hsteps, hlt⟩
      exact ⟨early, _, late, hsteps, Step.opens_iff.mpr ⟨calls, now, rfl⟩, hlt⟩
  · have hturn : (start.run steps).turn? url step = none := by
      cases step with
      | get draw other => exact if_neg fun h => hget draw (by rw [h.1])
      | close other => exact if_neg fun h => hclose (by rw [h])
      | closeAll => exact absurd rfl hall
      | on number calls step => rfl
    rw [turns_concat, hturn]
    exact List.append_nil _

/-- Connections to an address fail twice before they have opened. In between another address is
given up, and is closed. -/
def failingTwice : List Step :=
  [.get 0 "ws://[::1]", .on 0 [] (.fail (.transport .notConnected)), .on 0 [] .finish,
    .get 0 "ws://[::2]", .on 1 [] (.fail (.transport .notConnected)), .on 1 [] .finish,
    .get 0 "ws://[::1]", .get 0 "ws://[::2]", .close "ws://[::2]",
    .on 2 [] (.fail (.transport .notConnected)), .on 2 [] .finish]

/-- The next attempt is the second one after a failure. -/
theorem second_failure_reported_as_such :
    let settings := { ConnectionSettings.standard with reconnect.resubscribe := false }
    let client := (new .plain settings (.new .standard .strict)).run failingTwice
    let delay := settings.reconnect.backoff.delay 0 1
    client.number? "ws://[::1]" = some 2 ∧
    (client.connection? 2).map (fun connection => (connection.state, connection.everOpened)) =
      some (.closed, false) ∧
    (client.get 0 "ws://[::1]").2.events =
      client.events ++ [.backoff "ws://[::1]" 2 (Duration.ofMillis delay)] := by
  intro settings client delay
  obtain ⟨hreplaces, -⟩ := attempts_count_failures_in_a_row .plain settings
    (.new .standard .strict) failingTwice
  have hnumber : client.number? "ws://[::1]" = some 2 := by decide +kernel
  have hthird : (client.connection? 2).map (fun connection =>
      (connection.state, connection.everOpened)) = some (.closed, false) := by decide +kernel
  obtain ⟨connection, hc, hstate⟩ := Option.map_eq_some_iff.mp hthird
  obtain ⟨hclosed, hnever⟩ := Prod.mk.inj hstate
  have hdead : connection.state.isLive = false := by rw [hclosed]; rfl
  have hcount : inARow ((new .plain settings (.new .standard .strict)).turns "ws://[::1]"
      failingTwice) = 1 := by decide +kernel
  have hreplaced : client.Replaces settings.reconnect.backoff 0 "ws://[::1]" connection _ :=
    hreplaces 0 "ws://[::1]" 2 connection rfl hnumber hc hdead
  rw [hcount] at hreplaced
  exact ⟨hnumber, hthird, (hreplaced.failed hnever).2⟩

end Client

end MarketFeed
