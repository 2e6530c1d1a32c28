import MarketFeed.Cache.Bucket
import Mathlib

/-!
# The newest buckets

A cache of buckets holds the newest times that its records ever had, each with the last record of
that time. A bucket that was dropped stays older than those that were kept, so it does not matter
when the records of one time came between those of another.
-/

namespace MarketFeed.BucketCache

variable {α : Type} {timestamp time : Int} {record : α} {buckets : List (Int × α)}

/-! Placing a record in buckets in the order of their times. -/

def Ascending (buckets : List (Int × α)) : Prop := buckets.Pairwise fun a b => a.1 < b.1

lemma place_of_forall_lt (h : ∀ bucket ∈ buckets, timestamp < bucket.1) :
    place timestamp record buckets = (timestamp, record) :: buckets := by
  cases buckets with
  | nil => rfl
  | cons head rest => rw [place, if_pos (h head (List.mem_cons_self ..))]

lemma mem_place {bucket : Int × α} (h : bucket ∈ place timestamp record buckets) :
    bucket = (timestamp, record) ∨ bucket ∈ buckets := by
  induction buckets with
  | nil => exact Or.inl (List.mem_singleton.mp h)
  | cons head rest ih =>
    rw [place] at h
    split_ifs at h with hlt heq
    · exact (List.mem_cons.mp h)
    · rw [← heq] at h
      exact (List.mem_cons.mp h).imp_right (List.mem_cons_of_mem _)
    · rcases List.mem_cons.mp h with rfl | hm
      · exact Or.inr (List.mem_cons_self ..)
      · exact (ih hm).imp_right (List.mem_cons_of_mem _)

lemma Ascending.place (h : Ascending buckets) (timestamp : Int) (record : α) :
    Ascending (place timestamp record buckets) := by
  induction buckets with
  | nil => exact List.pairwise_singleton _ _
  | cons head rest ih =>
    obtain ⟨hhead, hrest⟩ := List.pairwise_cons.mp h
    rw [BucketCache.place]
    split_ifs with hlt heq
    · refine List.pairwise_cons.mpr ⟨?_, h⟩
      exact List.forall_mem_cons.mpr ⟨hlt, fun bucket hm => hlt.trans (hhead bucket hm)⟩
    · exact List.pairwise_cons.mpr ⟨hhead, hrest⟩
    · refine List.pairwise_cons.mpr ⟨fun bucket hm => ?_, ih hrest⟩
      rcases mem_place hm with rfl | hm
      · change head.1 < timestamp
        omega
      · exact hhead bucket hm

lemma length_place (timestamp : Int) (record : α) (buckets : List (Int × α)) :
    buckets.length ≤ (place timestamp record buckets).length ∧
      (place timestamp record buckets).length ≤ buckets.length + 1 := by
  induction buckets with
  | nil => simp [place]
  | cons head rest ih =>
    rw [place]
    split_ifs with hlt heq
    · simp
    · simp
    · simpa using ih

/-- The bucket of a time. -/
def bucket? (buckets : List (Int × α)) (time : Int) : Option α :=
  (buckets.find? (·.1 == time)).map (·.2)

lemma bucket?_cons (head : Int × α) (rest : List (Int × α)) (time : Int) :
    bucket? (head :: rest) time = if head.1 = time then some head.2 else bucket? rest time := by
  by_cases h : head.1 = time <;> simp [bucket?, h]

lemma bucket?_place (timestamp : Int) (record : α) (buckets : List (Int × α)) (time : Int) :
    bucket? (place timestamp record buckets) time =
      if timestamp = time then some record else bucket? buckets time := by
  induction buckets with
  | nil => rw [place, bucket?_cons]
  | cons head rest ih =>
    rw [place, bucket?_cons head rest]
    by_cases hlt : timestamp < head.1
    · rw [if_pos hlt, bucket?_cons, bucket?_cons]
    · rw [if_neg hlt]
      by_cases heq : timestamp = head.1
      · rw [if_pos heq, bucket?_cons, ← heq]
        by_cases ht : timestamp = time <;> simp [ht]
      · rw [if_neg heq, bucket?_cons, ih]
        by_cases ht : timestamp = time
        · subst ht
          simp [Ne.symm heq]
        · simp [ht]

lemma isSome_bucket? : (bucket? buckets time).isSome = true ↔ time ∈ buckets.map (·.1) := by
  induction buckets with
  | nil => simp [bucket?]
  | cons head rest ih =>
    rw [bucket?_cons, List.map_cons, List.mem_cons, ← ih]
    by_cases h : head.1 = time
    · simp [h]
    · simp [h, Ne.symm h]

lemma bucket?_eq_none (h : time ∉ buckets.map (·.1)) : bucket? buckets time = none := by
  rw [← isSome_bucket?] at h
  simpa using h

/-! A limit can be kept to record by record, or at the end. -/

lemma Ascending.rtake (h : Ascending buckets) (count : Nat) : Ascending (buckets.rtake count) :=
  List.Pairwise.sublist (List.drop_sublist _ _) h

lemma rtake_of_length_le {count : Nat} (h : buckets.length ≤ count) :
    buckets.rtake count = buckets := by
  rw [List.rtake, Nat.sub_eq_zero_of_le h, List.drop_zero]

lemma rtake_cons {count : Nat} (head : Int × α) {rest : List (Int × α)}
    (h : count ≤ rest.length) : (head :: rest).rtake count = rest.rtake count := by
  rw [List.rtake, List.length_cons, Nat.succ_sub h, List.drop_succ_cons, List.rtake]

lemma mem_of_mem_rtake {count : Nat} {bucket : Int × α} (h : bucket ∈ buckets.rtake count) :
    bucket ∈ buckets :=
  List.mem_of_mem_drop h

/-- The oldest buckets have no part in what the newest ones become. -/
lemma rtake_place (h : Ascending buckets) (count : Nat) :
    (place timestamp record (buckets.rtake count)).rtake count =
      (place timestamp record buckets).rtake count := by
  induction buckets with
  | nil => simp
  | cons head rest ih =>
    obtain ⟨hhead, hrest⟩ := List.pairwise_cons.mp h
    by_cases hfull : count ≤ rest.length
    · have hkept : count ≤ (rest.rtake count).length := by
        rw [List.rtake, List.length_drop]
        omega
      have hfront (hle : timestamp ≤ head.1) :
          (place timestamp record (rest.rtake count)).rtake count = rest.rtake count := by
        have hlt : ∀ bucket ∈ rest.rtake count, timestamp < bucket.1 := fun bucket hm =>
          lt_of_le_of_lt hle (hhead bucket (mem_of_mem_rtake hm))
        rw [place_of_forall_lt hlt, rtake_cons _ hkept]
        exact rtake_of_length_le (by rw [List.rtake, List.length_drop]; omega)
      rw [rtake_cons head hfull, place]
      split_ifs with hlt heq
      · rw [hfront hlt.le, rtake_cons _ (Nat.le_succ_of_le hfull), rtake_cons _ hfull]
      · rw [hfront heq.le, rtake_cons _ hfull]
      · rw [ih hrest, rtake_cons _ (hfull.trans (length_place timestamp record rest).1)]
    · rw [rtake_of_length_le (show (head :: rest).length ≤ count by simp; omega)]

lemma bucket?_rtake (h : Ascending buckets) (count : Nat) (time : Int) :
    bucket? (buckets.rtake count) time =
      if time ∈ (buckets.rtake count).map (·.1) then bucket? buckets time else none := by
  split_ifs with hm
  · induction buckets with
    | nil => simp
    | cons head rest ih =>
      obtain ⟨hhead, hrest⟩ := List.pairwise_cons.mp h
      by_cases hfull : count ≤ rest.length
      · rw [rtake_cons head hfull] at hm ⊢
        obtain ⟨bucket, hbucket, rfl⟩ := List.mem_map.mp hm
        rw [ih hrest hm, bucket?_cons, if_neg (hhead bucket (mem_of_mem_rtake hbucket)).ne]
      · rw [rtake_of_length_le (show (head :: rest).length ≤ count by simp; omega)]
  · exact bucket?_eq_none hm

/-- Buckets are known from their times and what is found under these. -/
lemma map_found (h : Ascending buckets) : buckets.map (fun bucket => (bucket.1, some bucket.2)) =
    (buckets.map (·.1)).map fun time => (time, bucket? buckets time) := by
  induction buckets with
  | nil => rfl
  | cons head rest ih =>
    obtain ⟨hhead, hrest⟩ := List.pairwise_cons.mp h
    have hsame : (rest.map (·.1)).map (fun time => (time, bucket? (head :: rest) time)) =
        (rest.map (·.1)).map fun time => (time, bucket? rest time) := by
      apply List.map_congr_left
      intro time hm
      obtain ⟨bucket, hbucket, rfl⟩ := List.mem_map.mp hm
      rw [bucket?_cons, if_neg (hhead bucket hbucket).ne]
    rw [List.map_cons, List.map_cons, List.map_cons, ih hrest, hsame, bucket?_cons, if_pos rfl]

variable [Stamped α]

/-- The times that records have. -/
def times (records : List α) : Finset Int := (records.filterMap Stamped.timestamp?).toFinset

/-- The last one of the records of a time. -/
def lastOf? (records : List α) (time : Int) : Option α :=
  records.reverse.find? (Stamped.timestamp? · == some time)

/-- The largest times that records have, at most `count` of them, in ascending order. -/
def newestTimes (count : Nat) (records : List α) : List Int := (times records).sort.rtake count

def run (limit : Nat) (records : List α) : BucketCache α := records.foldl append (new limit)

/-- Places a record in the bucket of its time. -/
def gather (buckets : List (Int × α)) (record : α) : List (Int × α) :=
  (Stamped.timestamp? record).elim buckets (place · record buckets)

/-- The buckets of records, however many there are. -/
def gathered (records : List α) : List (Int × α) := records.foldl gather []

lemma gathered_concat (records : List α) (record : α) :
    gathered (records ++ [record]) = gather (gathered records) record := by
  rw [gathered, List.foldl_concat, gathered]

lemma run_concat (limit : Nat) (records : List α) (record : α) :
    run limit (records ++ [record]) = (run limit records).append record := by
  rw [run, List.foldl_concat, run]

lemma times_eq (records : List α) (time : Int) :
    time ∈ times records ↔ (lastOf? records time).isSome = true := by
  simp [times, lastOf?]

lemma lastOf?_concat (records : List α) (record : α) (time : Int) :
    lastOf? (records ++ [record]) time =
      if Stamped.timestamp? record = some time then some record else lastOf? records time := by
  by_cases h : Stamped.timestamp? record = some time <;> simp [lastOf?, h]

/-- Without a limit, the buckets are those of the last records. -/
lemma gathered_spec (records : List α) :
    Ascending (gathered records) ∧ bucket? (gathered records) = lastOf? records := by
  induction records using List.reverseRecOn with
  | nil => exact ⟨List.Pairwise.nil, rfl⟩
  | append_singleton records record ih =>
    rw [gathered_concat, gather]
    cases ht : Stamped.timestamp? record with
    | none =>
      refine ⟨ih.1, ?_⟩
      funext time
      rw [Option.elim_none, ih.2, lastOf?_concat, ht, if_neg (by simp)]
    | some timestamp =>
      refine ⟨ih.1.place timestamp record, ?_⟩
      funext time
      rw [Option.elim_some, bucket?_place, ih.2, lastOf?_concat, ht]
      simp only [Option.some.injEq]

lemma map_fst_gathered (records : List α) :
    (gathered records).map (·.1) = (times records).sort := by
  obtain ⟨hascending, hlast⟩ := gathered_spec records
  have hkeys : ((gathered records).map (·.1)).Pairwise (· < ·) :=
    List.pairwise_map.mpr hascending
  have htimes : ((gathered records).map (·.1)).toFinset = times records := by
    ext time
    rw [List.mem_toFinset, ← isSome_bucket?, hlast, times_eq]
  rw [← htimes]
  exact ((List.toFinset_sort _ hkeys.nodup).mpr (hkeys.imp le_of_lt)).symm

lemma append_eq {cache : BucketCache α} (h : cache.buckets.length ≤ cache.limit) (record : α) :
    cache.append record =
      { cache with buckets := (gather cache.buckets record).rtake cache.limit } := by
  rw [append, gather]
  cases Stamped.timestamp? record with
  | none => rw [Option.elim_none, rtake_of_length_le h]
  | some timestamp =>
    have hlength := (length_place timestamp record cache.buckets).2
    rw [Option.elim_some]
    dsimp only
    split_ifs with hfull
    · have hone : (place timestamp record cache.buckets).length - cache.limit = 1 := by omega
      rw [List.rtake, hone, List.drop_one]
    · rw [rtake_of_length_le (by omega)]

/-- A cache holds the newest of all buckets. -/
lemma run_eq (limit : Nat) (records : List α) :
    run limit records = ⟨(gathered records).rtake (max limit 1), max limit 1⟩ := by
  induction records using List.reverseRecOn with
  | nil => simp [run, new, gathered]
  | append_singleton records record ih =>
    have hlength : ((gathered records).rtake (max limit 1)).length ≤ max limit 1 := by
      rw [List.rtake, List.length_drop]
      omega
    rw [run_concat, ih, append_eq hlength, gathered_concat]
    congr 1
    unfold gather
    cases Stamped.timestamp? record with
    | none => exact rtake_of_length_le hlength
    | some timestamp => exact rtake_place (gathered_spec records).1 (max limit 1)

lemma map_found_gathered (records : List α) :
    (gathered records).map (fun bucket => (bucket.1, some bucket.2)) =
      (times records).sort.map fun time => (time, lastOf? records time) := by
  obtain ⟨hascending, hlast⟩ := gathered_spec records
  rw [map_found hascending, map_fst_gathered, hlast]

/-- Records with the same last record of each time fill the same buckets. -/
lemma gathered_factorsThrough :
    Function.FactorsThrough gathered (lastOf? : List α → Int → Option α) := by
  intro records others hlast
  have htimes : times records = times others := by
    ext time
    rw [times_eq, times_eq, hlast]
  have hinjective : Function.Injective fun bucket : Int × α => (bucket.1, some bucket.2) := by
    intro bucket other h
    obtain ⟨htime, hrecord⟩ := Prod.mk.inj h
    exact Prod.ext htime (Option.some.inj hrecord)
  apply List.map_injective_iff.mpr hinjective
  rw [map_found_gathered, map_found_gathered, htimes, hlast]

/-- A cache holds the last record of each of the newest times that it was given, as many as its
limit allows and one at least, in ascending order, and finds records of these times and of no
others. So what it holds is known from the last record of each time. -/
theorem newest_buckets_hold_last_records (limit : Nat) :
    (∀ records : List α,
      let cache := run limit records
      let kept := newestTimes (max limit 1) records
      kept.Pairwise (· < ·) ∧ cache.records.map some = kept.map (lastOf? records) ∧
        ∀ time, cache.get? time = if time ∈ kept then lastOf? records time else none) ∧
    (run limit).FactorsThrough (lastOf? : List α → Int → Option α) := by
  refine ⟨fun records => ?_, fun records others hlast => ?_⟩
  · intro cache kept
    obtain ⟨hascending, hlast⟩ := gathered_spec records
    have hcache : cache.buckets = (gathered records).rtake (max limit 1) :=
      congrArg buckets (run_eq limit records)
    have hkept : cache.buckets.map (·.1) = kept := by
      rw [hcache, List.rtake, List.map_drop, ← List.length_map (·.1), map_fst_gathered]
      rfl
    have hkeys : Ascending cache.buckets := hcache ▸ hascending.rtake (max limit 1)
    have hget : ∀ time, cache.get? time = if time ∈ kept then lastOf? records time else none := by
      intro time
      rw [← hkept, ← hlast, hcache, ← bucket?_rtake hascending, ← hcache]
      rfl
    have hrecords : cache.records.map some = kept.map cache.get? := by
      have hfound := congrArg (List.map (·.2)) (map_found hkeys)
      rw [List.map_map, List.map_map, hkept] at hfound
      rw [BucketCache.records, List.map_map]
      exact hfound
    refine ⟨hkept ▸ List.pairwise_map.mpr hkeys, ?_, hget⟩
    rw [hrecords]
    apply List.map_congr_left
    intro time hm
    rw [hget, if_pos hm]
  · rw [run_eq, run_eq, gathered_factorsThrough hlast]

/-- A late bucket takes its place in the order, a bucket that was dropped does not come back, and a
bucket shows its last candle. -/
example :
    let candle := fun timestamp closing => { Candle.blank with timestamp, closing }
    let arrived := [candle 60 .zero, candle 180 .zero, candle 120 .zero, candle 120 .two,
      candle 60 .two]
    (run 2 arrived).records = [candle 120 .two, candle 180 .zero] := by
  decide

end MarketFeed.BucketCache
