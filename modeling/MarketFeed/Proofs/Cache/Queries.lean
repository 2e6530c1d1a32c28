import Mathlib.Data.List.DropRight
import MarketFeed.Cache.Recent
import MarketFeed.Proofs.Cache.Buckets
import MarketFeed.Proofs.Order.Run

/-!
# Questions to caches

A cache of the latest records holds the end of what it was given. Every cache answers a question
with the end of those of its records that are wanted, in their order, as long as the limit of the
question allows: records are left out before they are counted. Asking leaves a cache as it is, so
that questions between the changes make no difference to later answers.
-/

namespace MarketFeed

namespace Query

variable {α : Type}

/-- What is taken from the newest record on and turned round is the end of the list. -/
lemma reverse_newestFirst (limit : Option Nat) (records : List α) (wants : α → Bool) :
    (limit.elim (records.reverse.filter wants) (records.reverse.filter wants).take).reverse =
      limit.elim (records.filter wants) (records.filter wants).rtake := by
  rw [List.filter_reverse]
  cases limit with
  | none => exact List.reverse_reverse _
  | some count => exact (List.rtake_eq_reverse_take_reverse ..).symm

variable [Stamped α]

/-- A record is wanted if it is of the symbol and from the bound on; it needs a time only where
there is a bound. -/
def Wants (query : Query) (record : α) : Prop :=
  (∀ symbol ∈ query.symbol, Stamped.symbol? record = some symbol) ∧
    ∀ since ∈ query.since, ∃ time ∈ Stamped.timestamp? record, since ≤ time

instance (query : Query) (record : α) : Decidable (query.Wants record) :=
  inferInstanceAs (Decidable (_ ∧ _))

/-- The last of the wanted records, as many as the limit allows. -/
def wanted (query : Query) (records : List α) : List α :=
  let matching := records.filter fun record => query.Wants record
  query.limit.elim matching matching.rtake

lemma admits_eq (query : Query) (record : α) : query.admits record = decide (query.Wants record) := by
  rw [Bool.eq_iff_iff, decide_eq_true_iff, admits, Wants, Bool.and_eq_true, Option.all_eq_true,
    Option.all_eq_true]
  simp [Option.any_eq_true]

lemma select_eq_wanted (query : Query) (records : List α) :
    query.select records = query.wanted records := by
  have hwants : query.admits = fun record : α => decide (query.Wants record) :=
    funext query.admits_eq
  rw [select, wanted, ← hwants]
  exact reverse_newestFirst query.limit records query.admits

/-- A question without a bound is one for the latest records. -/
lemma latest_eq_wanted (symbol : Option String) (limit : Option Nat) (records : List α) :
    latest symbol limit records = wanted ⟨symbol, none, limit⟩ records := by
  have hadmits : admits ⟨symbol, none, limit⟩ = fun record : α =>
      symbol.all fun symbol => Stamped.symbol? record == some symbol :=
    funext fun record => Bool.and_true _
  rw [← select_eq_wanted, latest, select, hadmits]

end Query

/-! The end of what has arrived. -/

namespace RecentCache

variable {α : Type}

/-- What is done to a cache of the latest records. -/
inductive Operation (α : Type) where
  | append (record : α)
  | clear

def after (cache : RecentCache α) : Operation α → RecentCache α
  | .append record => cache.append record
  | .clear => cache.clear

lemma append_rtake {arrived : List α} {count : Nat} (h : 0 < count) (record : α) :
    append ⟨arrived.rtake count, count⟩ record = ⟨(arrived ++ [record]).rtake count, count⟩ := by
  rw [append]
  congr 1
  have hlength : (arrived.rtake count).length = min arrived.length count := by
    rw [List.rtake, List.length_drop]
    omega
  dsimp only
  rw [List.length_append, List.length_singleton, hlength]
  by_cases hroom : arrived.length < count
  · rw [if_neg (by omega), List.rtake, List.rtake, List.length_append, List.length_singleton,
      Nat.sub_eq_zero_of_le (Nat.le_of_lt hroom), Nat.sub_eq_zero_of_le hroom]
    rfl
  · -- the first of the records that were kept leaves
    have hone : arrived.length + 1 - count = arrived.length - count + 1 := by omega
    have hkept : arrived.rtake count ≠ [] := by
      rw [← List.length_pos_iff, hlength]
      omega
    rw [if_pos (by omega), List.tail_append_of_ne_nil hkept, List.rtake, List.rtake,
      List.tail_drop, List.length_append, List.length_singleton, hone,
      List.drop_append_of_le_length (by omega)]

/-- The last records that arrived are held, in order. -/
lemma records_foldl_append (limit : Nat) (arrived : List α) :
    arrived.foldl append (new limit) = ⟨arrived.rtake (max limit 1), max limit 1⟩ := by
  induction arrived using List.reverseRecOn with
  | nil => rw [List.rtake_nil, List.foldl_nil, new]
  | append_singleton arrived record ih =>
    rw [List.foldl_concat, ih, append_rtake (by omega)]

end RecentCache

/-! Questions in between. -/

/-- What callers do with a cache: they change it, or ask for records. -/
inductive Visit (ω : Type) where
  | change (operation : ω)
  | latest (symbol : Option String) (limit : Option Nat)
  | select (query : Query)

namespace Visit

variable {σ ω α : Type} [Stamped α]

def change? : Visit ω → Option ω
  | change operation => some operation
  | _ => none

/-- The visits to a cache: what each of them brings, which is nothing for a change, and the cache
after them all. -/
def attend (after : σ → ω → σ) (records : σ → List α) (cache : σ) :
    List (Visit ω) → List (Option (List α)) × σ
  | [] => ([], cache)
  | .change operation :: rest =>
    ((attend after records (after cache operation) rest).map (none :: ·) id)
  | .latest symbol limit :: rest =>
    (attend after records cache rest).map (some (Query.latest symbol limit (records cache)) :: ·) id
  | .select query :: rest =>
    (attend after records cache rest).map (some (query.select (records cache)) :: ·) id

/-- The question of a visit. -/
def query? : Visit ω → Option Query
  | change _ => none
  | latest symbol limit => some ⟨symbol, none, limit⟩
  | select query => some query

variable {after : σ → ω → σ} {records : σ → List α}

/-- A cache answers questions from the records that the changes before have left, and only changes
change it. -/
structure Serves (after : σ → ω → σ) (records : σ → List α) (cache : σ) : Prop where
  unchanged : ∀ visits, (attend after records cache visits).2 =
    (visits.filterMap change?).foldl after cache
  answers : ∀ visits, (attend after records cache visits).1 = visits.mapIdx fun place visit =>
    visit.query?.map fun query =>
      query.wanted (records (((visits.take place).filterMap change?).foldl after cache))

lemma serves (after : σ → ω → σ) (records : σ → List α) (cache : σ) :
    Serves after records cache where
  unchanged visits := by
    induction visits generalizing cache with
    | nil => rfl
    | cons visit rest ih => cases visit <;> exact ih _
  answers visits := by
    induction visits generalizing cache with
    | nil => rfl
    | cons visit rest ih =>
      rw [List.mapIdx_cons]
      cases visit with
      | change operation => exact congrArg (none :: ·) (ih _)
      | latest symbol limit =>
        rw [attend, Query.latest_eq_wanted]
        exact congrArg (_ :: ·) (ih _)
      | select query =>
        rw [attend, Query.select_eq_wanted]
        exact congrArg (_ :: ·) (ih _)

end Visit

/-- A cache of the latest records holds the end of what has arrived. Whatever has been done to a
cache of any kind, it answers every question with the last of the wanted records that it holds, and
asking changes none of them. -/
theorem questions_answered_from_wanted_records :
    (∀ (α : Type) (limit : Nat) (arrived : List α),
      let cache := arrived.foldl RecentCache.append (.new limit)
      cache.records = arrived.rtake (max limit 1) ∧
        cache.size = min arrived.length (max limit 1)) ∧
    (∀ (α : Type) [Stamped α] (limit : Nat),
      Visit.Serves RecentCache.after RecentCache.records (.new limit : RecentCache α)) ∧
    (∀ (α : Type) [Stamped α] (limit : Nat),
      Visit.Serves BucketCache.append BucketCache.records (.new limit : BucketCache α)) ∧
    (∀ (α : Type) [Identified α] (limit : Nat) (placement : Placement),
      Visit.Serves KeyedCache.after KeyedCache.records (.new limit placement : KeyedCache α)) ∧
    ∀ (limit pendingLimit : Nat) (placement : Placement),
      Visit.Serves OrderCache.after OrderCache.records (.new limit pendingLimit placement) := by
  refine ⟨fun α limit arrived => ?_, fun α _ limit => Visit.serves _ _ _,
    fun α _ limit => Visit.serves _ _ _, fun α _ limit placement => Visit.serves _ _ _,
    fun limit pendingLimit placement => Visit.serves _ _ _⟩
  intro cache
  have hcache : cache = ⟨arrived.rtake (max limit 1), max limit 1⟩ :=
    RecentCache.records_foldl_append limit arrived
  refine ⟨congrArg RecentCache.records hcache, ?_⟩
  rw [hcache, RecentCache.size, List.rtake, List.length_drop]
  omega

/-- Records are left out before they are counted, and an order without a time only if there is a
bound. -/
example :
    let order := fun id symbol timestamp => { Order.blank with id, symbol, timestamp }
    let orders := [order "1" "A" (some 1), order "2" "A" none, order "3" "B" (some 3),
      order "4" "B" none]
    (Query.select ⟨some "A", none, some 2⟩ orders).map (·.id) = ["1", "2"] ∧
      (Query.select ⟨none, some 1, some 1⟩ orders).map (·.id) = ["3"] := by
  decide

end MarketFeed
