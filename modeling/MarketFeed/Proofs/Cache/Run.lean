import MarketFeed.Proofs.Cache.Slots
import MarketFeed.Proofs.Decimal.Attempt

/-!
# Runs of a keyed cache

The operations on a cache, their answers, and all that one of them can do: it exchanges a record for
a changed one, or it leaves one half changed because an overflow ended it, or it adds a record, or
there is no record to change. A statement about caches that survives these holds along every run.
-/

namespace MarketFeed

/-- What is done to a cache. -/
inductive KeyedOperation (α : Type) where
  | append (record : α)
  | modify (symbol key : String) (change : Attempt α Unit)

/-- What the operation does to the record that it finds. -/
def KeyedOperation.change {α : Type} [Identified α] : KeyedOperation α → Attempt α Unit
  | append record => Identified.merge record
  | modify _ _ change => change

namespace KeyedCache

variable {α : Type} [Identified α]

/-- The result says whether there was a record to change or to add. -/
def perform (cache : KeyedCache α) :
    KeyedOperation α → Except Decimal.Overflow Bool × KeyedCache α
  | .append record => ((append record).runOn cache).map (Except.map fun _ => true) id
  | .modify symbol key change =>
    ((alter symbol key change).runOn cache).map (Except.map Option.isSome) id

def answer (cache : KeyedCache α) (operation : KeyedOperation α) : Except Decimal.Overflow Bool :=
  (cache.perform operation).1

/-- The cache after an operation, also after one that an overflow ended. -/
def after (cache : KeyedCache α) (operation : KeyedOperation α) : KeyedCache α :=
  (cache.perform operation).2

def run (cache : KeyedCache α) (operations : List (KeyedOperation α)) : KeyedCache α :=
  operations.foldl after cache

def answers (cache : KeyedCache α) : List (KeyedOperation α) → List (Except Decimal.Overflow Bool)
  | [] => []
  | operation :: rest => cache.answer operation :: (cache.after operation).answers rest

/-- Each operation of the run has the property at the cache that it meets. -/
def Along (P : KeyedCache α → KeyedOperation α → Prop) (cache : KeyedCache α) :
    List (KeyedOperation α) → Prop
  | [] => True
  | operation :: rest => P cache operation ∧ (cache.after operation).Along P rest

/-- No overflow ends the operation. -/
def Completes (cache : KeyedCache α) (operation : KeyedOperation α) : Prop :=
  ∃ found, cache.answer operation = .ok found

instance (cache : KeyedCache α) (operation : KeyedOperation α) :
    Decidable (cache.Completes operation) :=
  match h : cache.answer operation with
  | .ok found => isTrue ⟨found, h⟩
  | .error _ => isFalse fun ⟨_, hf⟩ => nomatch h.symm.trans hf

/-- A modification leaves a part of the keys of the record that it meets as it is. -/
def LeavesKeys {β : Type} (part : RecordKeys → β) (cache : KeyedCache α) :
    KeyedOperation α → Prop
  | .append _ => True
  | .modify symbol key change => ∀ record, cache.get? symbol key = some record →
      part (.of (change.runOn record).2) = part (.of record)

/-- Some operation of the run has the property at the cache that it meets. -/
def Sometime (P : KeyedCache α → KeyedOperation α → Prop) (cache : KeyedCache α)
    (operations : List (KeyedOperation α)) : Prop :=
  ∃ before operation later, operations = before ++ operation :: later ∧
    P (cache.run before) operation

instance Along.decidable {P : KeyedCache α → KeyedOperation α → Prop}
    [∀ cache operation, Decidable (P cache operation)] :
    (cache : KeyedCache α) → (operations : List (KeyedOperation α)) →
      Decidable (cache.Along P operations)
  | _, [] => isTrue trivial
  | cache, operation :: rest =>
    @instDecidableAnd _ _ inferInstance (Along.decidable (cache.after operation) rest)

lemma Along.and {P Q : KeyedCache α → KeyedOperation α → Prop} {cache : KeyedCache α}
    {operations : List (KeyedOperation α)} (hp : cache.Along P operations)
    (hq : cache.Along Q operations) :
    cache.Along (fun cache operation => P cache operation ∧ Q cache operation) operations := by
  induction operations generalizing cache with
  | nil => trivial
  | cons operation rest ih => exact ⟨⟨hp.1, hq.1⟩, ih hp.2 hq.2⟩

lemma Along.append {P : KeyedCache α → KeyedOperation α → Prop} {cache : KeyedCache α}
    {operations more : List (KeyedOperation α)} (h : cache.Along P operations)
    (hm : (cache.run operations).Along P more) : cache.Along P (operations ++ more) := by
  induction operations generalizing cache with
  | nil => exact hm
  | cons operation rest ih => exact ⟨h.1, ih h.2 hm⟩

lemma Along.of_forall {P : KeyedCache α → KeyedOperation α → Prop}
    {operations : List (KeyedOperation α)}
    (h : ∀ operation ∈ operations, ∀ cache, P cache operation) (cache : KeyedCache α) : cache.Along P operations := by
  induction operations generalizing cache with
  | nil => trivial
  | cons operation rest ih =>
    exact ⟨h operation (List.mem_cons_self ..) cache,
      ih (fun other hm => h other (List.mem_cons_of_mem _ hm)) _⟩

/-- Either no operation of a run has a property, or there is one to blame. -/
lemma along_not_of_not_sometime {P : KeyedCache α → KeyedOperation α → Prop}
    {cache : KeyedCache α} {operations : List (KeyedOperation α)}
    (h : ¬ cache.Sometime P operations) :
    cache.Along (fun cache operation => ¬ P cache operation) operations := by
  induction operations generalizing cache with
  | nil => trivial
  | cons operation rest ih =>
    refine ⟨fun hp => h ⟨[], operation, rest, rfl, hp⟩, ih ?_⟩
    rintro ⟨before, other, later, rfl, hp⟩
    exact h ⟨operation :: before, other, later, rfl, hp⟩

lemma Along.at {P : KeyedCache α → KeyedOperation α → Prop} {cache : KeyedCache α}
    {before later : List (KeyedOperation α)} {operation : KeyedOperation α}
    (h : cache.Along P (before ++ operation :: later)) : P (cache.run before) operation := by
  induction before generalizing cache with
  | nil => exact h.1
  | cons first rest ih => exact ih h.2

/-- What holds of a cache and survives every operation with a property holds after a run of them. -/
lemma Along.run {P : KeyedCache α → KeyedOperation α → Prop} {Q : KeyedCache α → Prop}
    (step : ∀ cache operation, Q cache → P cache operation → Q (cache.after operation))
    {cache : KeyedCache α} (h : Q cache) {operations : List (KeyedOperation α)}
    (hp : cache.Along P operations) : Q (cache.run operations) := by
  induction operations generalizing cache with
  | nil => exact h
  | cons operation rest ih => exact ih (step cache operation h hp.1) hp.2

/-- The record leaves the position together with its keys. -/
def vacate (cache : KeyedCache α) (position : Nat) (record : α) : KeyedCache α :=
  (cache.setSlot position none).leave (.of record) position

/-- A record and its keys give way to another one and its keys at the same position. -/
def replace (cache : KeyedCache α) (position : Nat) (older newer : α) : KeyedCache α :=
  ((cache.setSlot position (some newer)).leave (.of older) position).enter (.of newer) position

/-- A record gives way to a changed one, which goes where the placement puts it. -/
def exchange (cache : KeyedCache α) (position : Nat) (older newer : α) : KeyedCache α :=
  if cache.placement = .moveToNewest ∧ position + 1 ≠ cache.nextPosition then
    ((cache.vacate position older).push newer).trimFront.compact
  else cache.replace position older newer

/-- The record comes to the end, and the oldest one leaves where there is no room. -/
def accept (cache : KeyedCache α) (record : α) : KeyedCache α :=
  let grown := { cache.push record with live := cache.live + 1 }
  if grown.limit < grown.live then grown.evictOldest else grown

variable {cache : KeyedCache α} {operation : KeyedOperation α} {position : Nat}
  {record older newer : α} {β : Type} {overflow : Decimal.Overflow}

lemma rekey_setSlot (h : cache.slot? position = some older) (newer : α) :
    (cache.setSlot position (some newer)).rekey position (.of older) =
      cache.exchange position older newer := by
  have hs : ((cache.setSlot position (some newer)).leave (.of older) position).slot? position =
      some newer := by
    change (cache.setSlot position (some newer)).slot? position = some newer
    rw [slot?_setSlot h, Function.update_self]
  have hn : ((cache.setSlot position (some newer)).leave (.of older) position).nextPosition =
      cache.nextPosition :=
    nextPosition_setSlot cache position (some newer)
  have hp : ((cache.setSlot position (some newer)).leave (.of older) position).placement =
      cache.placement := rfl
  rw [rekey, exchange]
  simp only [hs, hn, hp]
  by_cases hm : cache.placement = .moveToNewest ∧ position + 1 ≠ cache.nextPosition
  · rw [if_pos hm, if_pos hm]
    simp [vacate, setSlot, leave]
  · rw [if_neg hm, if_neg hm]
    rfl

lemma runOn_update_ok {change : Attempt α β} {result : β} (h : cache.slot? position = some older)
    (hc : change.runOn older = (.ok result, newer)) :
    (update position older change).runOn cache =
      (.ok result, cache.exchange position older newer) := by
  have hp : (change.onPart older fun record cache => cache.setSlot position (some record)).runOn
      cache = (.ok result, cache.setSlot position (some newer)) := by
    rw [Attempt.runOn_onPart, hc]
  rw [update, Attempt.runOn_bind_ok hp, Attempt.runOn_bind_ok (Attempt.runOn_modify _ _),
    Attempt.runOn_pure, rekey_setSlot h]

lemma runOn_update_error {change : Attempt α β}
    (hc : change.runOn older = (.error overflow, newer)) :
    (update position older change).runOn cache =
      (.error overflow, cache.setSlot position (some newer)) := by
  have hp : (change.onPart older fun record cache => cache.setSlot position (some record)).runOn
      cache = (.error overflow, cache.setSlot position (some newer)) := by
    rw [Attempt.runOn_onPart, hc]
  rw [update, Attempt.runOn_bind_error hp]

lemma runOn_alter_of_none {symbol key : String} (h : cache.get? symbol key = none)
    (change : Attempt α β) : (alter symbol key change).runOn cache = (.ok none, cache) := by
  have hf : ((cache.position? symbol key).bind fun position =>
      (cache.slot? position).map ((position, ·))) = none := by
    simpa [get?, Option.bind_eq_none_iff] using h
  rw [alter, Attempt.runOn_bind_ok (Attempt.runOn_get _), hf]
  rfl

lemma runOn_alter_of_slot? {symbol key : String} (hp : cache.position? symbol key = some position)
    (hs : cache.slot? position = some older) (change : Attempt α β) :
    (alter symbol key change).runOn cache =
      ((update position older change).runOn cache).map (Except.map some) id := by
  rw [alter, Attempt.runOn_bind_ok (Attempt.runOn_get _), hp, Option.bind_some, hs,
    Option.map_some, Attempt.runOn_bind]
  rcases (update position older change).runOn cache with ⟨result | result, next⟩ <;> rfl

/-- The position of the record that an operation changes. -/
def target? (cache : KeyedCache α) : KeyedOperation α → Option Nat
  | .append record => cache.match? record
  | .modify symbol key _ => cache.position? symbol key

/-- The operation finds this record at this position. -/
structure Meets (cache : KeyedCache α) (operation : KeyedOperation α) (position : Nat)
    (older : α) : Prop where
  target : cache.target? operation = some position
  slot : cache.slot? position = some older

/-- The operation finds this record, and an overflow ends it where the record has come to this. -/
structure Breaks (cache : KeyedCache α) (operation : KeyedOperation α) (position : Nat)
    (older newer : α) : Prop extends cache.Meets operation position older where
  ended : ∃ overflow, operation.change.runOn older = (.error overflow, newer)

/-- All that an operation can come to: what it answers and the cache after it. -/
inductive Outcome (cache : KeyedCache α) :
    KeyedOperation α → Except Decimal.Overflow Bool → KeyedCache α → Prop
  | changed {operation : KeyedOperation α} {position : Nat} {older newer : α}
      (h : cache.Meets operation position older)
      (hc : operation.change.runOn older = (.ok (), newer)) :
      Outcome cache operation (.ok true) (cache.exchange position older newer)
  | ended {operation : KeyedOperation α} {position : Nat} {older newer : α}
      {overflow : Decimal.Overflow} (h : cache.Meets operation position older)
      (hc : operation.change.runOn older = (.error overflow, newer)) :
      Outcome cache operation (.error overflow) (cache.setSlot position (some newer))
  | added {record : α} (h : (cache.match? record).bind cache.slot? = none) :
      Outcome cache (.append record) (.ok true) (cache.accept record)
  | missed {symbol key : String} {change : Attempt α Unit} (h : cache.get? symbol key = none) :
      Outcome cache (.modify symbol key change) (.ok false) cache

lemma runOn_append_of_slot? (hm : cache.match? record = some position)
    (hs : cache.slot? position = some older) : (append record).runOn cache =
      (update position older (Identified.merge record)).runOn cache := by
  rw [append, Attempt.runOn_bind_ok (Attempt.runOn_get _), hm, Option.bind_some, hs]
  rfl

lemma runOn_append_of_none (h : (cache.match? record).bind cache.slot? = none) :
    (append record).runOn cache = (.ok (), cache.accept record) := by
  have hf : ((cache.match? record).bind fun position =>
      (cache.slot? position).map ((position, ·))) = none := by
    simpa [Option.bind_eq_none_iff] using h
  rw [append, Attempt.runOn_bind_ok (Attempt.runOn_get _), hf]
  rfl

lemma completes_append {after : KeyedCache α}
    (h : (append record).runOn cache = (.ok (), after)) : cache.Completes (.append record) := by
  refine ⟨true, ?_⟩
  rw [answer, perform, h]
  rfl

lemma perform_of_meets (h : cache.Meets operation position older) : cache.perform operation =
    ((update position older operation.change).runOn cache).map (Except.map fun _ => true) id := by
  obtain ⟨ht, hs⟩ := h
  cases operation with
  | append record =>
    rw [perform, runOn_append_of_slot? ht hs]
    rfl
  | modify symbol key change =>
    rw [perform, runOn_alter_of_slot? ht hs, KeyedOperation.change]
    rcases (update position older change).runOn cache with ⟨result | result, next⟩ <;> rfl

lemma perform_append_of_none (h : (cache.match? record).bind cache.slot? = none) :
    cache.perform (.append record) = (.ok true, cache.accept record) := by
  rw [perform, runOn_append_of_none h]
  rfl

lemma perform_modify_of_none {symbol key : String} {change : Attempt α Unit}
    (h : cache.get? symbol key = none) :
    cache.perform (.modify symbol key change) = (.ok false, cache) := by
  rw [perform, runOn_alter_of_none h]
  rfl

lemma perform_outcome (cache : KeyedCache α) (operation : KeyedOperation α) :
    cache.Outcome operation (cache.answer operation) (cache.after operation) := by
  cases hf : (cache.target? operation).bind cache.slot? with
  | none =>
    cases operation with
    | append record =>
      rw [answer, after, perform_append_of_none hf]
      exact .added hf
    | modify symbol key change =>
      rw [answer, after, perform_modify_of_none hf]
      exact .missed hf
  | some older =>
    obtain ⟨position, ht, hs⟩ := Option.bind_eq_some_iff.mp hf
    have hm : cache.Meets operation position older := ⟨ht, hs⟩
    rw [answer, after, perform_of_meets hm]
    rcases hc : operation.change.runOn older with ⟨overflow | result, newer⟩
    · rw [runOn_update_error hc]
      exact .ended hm hc
    · rw [runOn_update_ok hs hc]
      exact .changed hm hc

lemma Breaks.not_completes (h : cache.Breaks operation position older newer) :
    ¬ cache.Completes operation := by
  obtain ⟨overflow, hr⟩ := h.ended
  rintro ⟨found, hf⟩
  rw [answer, perform_of_meets h.toMeets, runOn_update_error hr] at hf
  exact absurd hf (by simp [Except.map])

/-- An operation that an overflow ends changes the record that it found, and that alone. -/
lemma breaks_of_answer (h : cache.answer operation = .error overflow) :
    ∃ position older newer, cache.Breaks operation position older newer ∧
      cache.after operation = cache.setSlot position (some newer) := by
  have ho := perform_outcome cache operation
  rw [h] at ho
  generalize cache.after operation = after at ho
  cases ho with
  | @ended operation position older newer overflow hm hc =>
    exact ⟨position, older, newer, ⟨hm, overflow, hc⟩, rfl⟩

/-- An operation that finds a record and completes changes it. -/
lemma after_of_meets (hm : cache.Meets operation position older) (hc : cache.Completes operation) :
    ∃ newer, operation.change.runOn older = (.ok (), newer) ∧
      cache.after operation = cache.exchange position older newer := by
  obtain ⟨found, hf⟩ := hc
  rw [answer, perform_of_meets hm] at hf
  rw [after, perform_of_meets hm]
  rcases hr : operation.change.runOn older with ⟨overflow | result, newer⟩
  · rw [runOn_update_error hr] at hf
    exact absurd hf (by simp [Except.map])
  · rw [runOn_update_ok hm.slot hr]
    exact ⟨newer, rfl, rfl⟩

/-- A modification comes to the same whether or not the change has a result. -/
lemma perform_modify_discard {symbol key : String} (change : Attempt α β) :
    cache.perform (.modify symbol key (discard change)) =
      ((alter symbol key change).runOn cache).map (Except.map Option.isSome) id := by
  cases hg : cache.get? symbol key with
  | none =>
    rw [perform_modify_of_none hg, runOn_alter_of_none hg]
    rfl
  | some older =>
    obtain ⟨position, hp, hs⟩ := Option.bind_eq_some_iff.mp hg
    rw [perform, runOn_alter_of_slot? hp hs, runOn_alter_of_slot? hp hs]
    rcases hc : change.runOn older with ⟨overflow | result, newer⟩
    · rw [runOn_update_error hc, runOn_update_error (by rw [Attempt.runOn_discard, hc]; rfl)]
      rfl
    · rw [runOn_update_ok hs hc, runOn_update_ok hs (by rw [Attempt.runOn_discard, hc]; rfl)]
      rfl

lemma answer_modify_eq_false {symbol key : String} {change : Attempt α Unit} :
    cache.answer (.modify symbol key change) = .ok false ↔ cache.get? symbol key = none := by
  constructor
  · intro ha
    have ho := perform_outcome cache (.modify symbol key change)
    rw [ha] at ho
    generalize cache.after (.modify symbol key change) = after at ho
    cases ho with
    | missed hg => exact hg
  · intro hg
    rw [answer, perform_modify_of_none hg]

end KeyedCache

end MarketFeed
