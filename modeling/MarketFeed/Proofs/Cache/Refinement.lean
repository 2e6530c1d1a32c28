import MarketFeed.Proofs.Cache.Coherence

/-!
# Keyed caches as plain lists

Without client ids, and as long as modifications leave the keys of records alone, a cache does what
a bounded list does that is searched from the front: the slots, their positions and the indexes
do not show.
-/

namespace MarketFeed

/-- The symbol and the key by which an operation looks for a record. A record without an id that is
appended looks for none. -/
def KeyedOperation.key? {α : Type} [Identified α] :
    KeyedOperation α → Option (String × String)
  | append record => (Identified.id? record).map ((RecordKeys.of record).symbol, ·)
  | modify symbol key _ => some (symbol, key)

/-- What is appended has no client id. -/
def KeyedOperation.Nameless {α : Type} [Identified α] : KeyedOperation α → Prop
  | append record => Identified.clientId? record = none
  | modify _ _ _ => True

/-- Records in their order, with room for so many. -/
structure PlainCache (α : Type) where
  records : List α
  limit : Nat
  placement : Placement

namespace PlainCache

variable {α : Type}

def new (limit : Nat) (placement : Placement) : PlainCache α := ⟨[], max limit 1, placement⟩

/-- Adds a record at the end; the first one leaves where there are too many then. -/
def add (cache : PlainCache α) (record : α) : PlainCache α :=
  let records := cache.records ++ [record]
  { cache with records := if cache.limit < records.length then records.tail else records }

variable [Identified α]

def hasKey (symbol key : String) (record : α) : Bool :=
  (RecordKeys.of record).symbol == symbol && Identified.id? record == some key

def get? (cache : PlainCache α) (symbol key : String) : Option α :=
  cache.records.find? (hasKey symbol key)

def contains (cache : PlainCache α) (symbol key : String) : Bool :=
  cache.records.any (hasKey symbol key)

/-- The first record with the key, between those before and behind it. -/
def split? (cache : PlainCache α) (symbol key : String) : Option (List α × α × List α) :=
  match cache.records.dropWhile fun record => !hasKey symbol key record with
  | [] => none
  | record :: behind =>
    some (cache.records.takeWhile fun record => !hasKey symbol key record, record, behind)

/-- Where there is no record with the key, one that is appended is added. -/
def unmatched (cache : PlainCache α) :
    KeyedOperation α → Except Decimal.Overflow Bool × PlainCache α
  | .append record => (.ok true, cache.add record)
  | .modify _ _ _ => (.ok false, cache)

/-- The record with the key is changed and put where the placement says, or left half changed where
it was by an overflow. -/
def perform (cache : PlainCache α) (operation : KeyedOperation α) :
    Except Decimal.Overflow Bool × PlainCache α :=
  match operation.key?.bind fun (symbol, key) => cache.split? symbol key with
  | some (before, older, behind) =>
    match operation.change.runOn older with
    | (.ok _, newer) =>
      (.ok true, { cache with records := cache.placement.relocate before newer behind })
    | (.error overflow, newer) =>
      (.error overflow, { cache with records := before ++ newer :: behind })
  | none => cache.unmatched operation

def run (cache : PlainCache α) (operations : List (KeyedOperation α)) : PlainCache α :=
  operations.foldl (fun cache operation => (cache.perform operation).2) cache

def answers (cache : PlainCache α) :
    List (KeyedOperation α) → List (Except Decimal.Overflow Bool)
  | [] => []
  | operation :: rest => (cache.perform operation).1 :: (cache.perform operation).2.answers rest

variable {cache : PlainCache α} {symbol key : String} {record : α}

lemma hasKey_iff : hasKey symbol key record = true ↔
    (RecordKeys.of record).symbol = symbol ∧ (RecordKeys.of record).id = some key := by
  rw [hasKey, Bool.and_eq_true, beq_iff_eq, beq_iff_eq]
  rfl

lemma split?_of_first {before behind : List α} (h : cache.records = before ++ record :: behind)
    (hk : hasKey symbol key record = true)
    (hb : ∀ other ∈ before, hasKey symbol key other = false) :
    cache.split? symbol key = some (before, record, behind) := by
  have ht : ∀ other ∈ before, (!hasKey symbol key other) = true := fun other hm => by
    rw [hb other hm]
    rfl
  rw [split?, h, List.takeWhile_append_of_pos ht, List.dropWhile_append_of_pos ht,
    List.takeWhile_cons_of_neg (by simp [hk]), List.dropWhile_cons_of_neg (by simp [hk]),
    List.append_nil]

lemma split?_of_none (h : ∀ record ∈ cache.records, hasKey symbol key record = false) :
    cache.split? symbol key = none := by
  have hd : cache.records.dropWhile (fun record => !hasKey symbol key record) = [] :=
    List.dropWhile_eq_nil_iff.mpr fun record hm => by simp [h record hm]
  rw [split?, hd]

end PlainCache

namespace KeyedCache

variable {α : Type}

/-- The list that a cache amounts to. -/
def plain (cache : KeyedCache α) : PlainCache α := ⟨cache.records, cache.limit, cache.placement⟩

lemma plain_of_settings {cache after : KeyedCache α} {records : List α}
    (hs : after.settings = cache.settings) (hr : after.records = records) :
    after.plain = { cache.plain with records } := by
  obtain ⟨hl, hp⟩ := Prod.mk.inj hs
  rw [plain, hl, hp, hr]
  rfl

variable [Identified α]

/-- The cache is coherent and no record has a client id. -/
structure Nameless (cache : KeyedCache α) : Prop where
  packed : cache.Packed
  sound : ∀ kind, cache.Sound kind
  complete : cache.Complete .id
  nameless : ∀ record ∈ cache.records, (RecordKeys.of record).clientId = none

variable {cache : KeyedCache α} {operation : KeyedOperation α} {position : Nat}
  {record older newer : α} {symbol key : String}

lemma nameless_new (limit : Nat) (placement : Placement) :
    (new limit placement : KeyedCache α).Nameless :=
  ⟨packed_new limit placement, fun _ => sound_of_empty rfl rfl, complete_of_empty rfl,
    fun _ hm => nomatch hm⟩

/-- Nothing is found by a client id. -/
lemma Nameless.get?_clientId (h : cache.Nameless) (symbol key : String) :
    cache.byClientId.get? (symbol, key) = none := by
  by_contra he
  obtain ⟨position, hp⟩ := Option.ne_none_iff_exists'.mp he
  obtain ⟨record, hs, -, hk⟩ := (h.sound .clientId).lookup hp
  have hn := h.nameless record (mem_records.mpr ⟨position, hs⟩)
  exact absurd (hk.symm.trans hn) (by simp)

lemma Nameless.position? (h : cache.Nameless) (symbol key : String) :
    cache.position? symbol key = cache.byId.get? (symbol, key) := by
  rw [KeyedCache.position?, h.get?_clientId]
  cases cache.byId.get? (symbol, key) <;> rfl

lemma Nameless.target? (h : cache.Nameless) (operation : KeyedOperation α) :
    cache.target? operation = operation.key?.bind cache.byId.get? := by
  cases operation with
  | append record =>
    have hc : cache.byClientId.find? (RecordKeys.of record).symbol
        (RecordKeys.of record).clientId = none := by
      cases hk : (RecordKeys.of record).clientId with
      | none => rfl
      | some clientId => exact h.get?_clientId _ _
    rw [KeyedCache.target?, match?, hc, KeyedOperation.key?, KeyIndex.find?]
    change ((Identified.id? record).bind _ <|> none) = _
    cases Identified.id? record with
    | none => rfl
    | some id =>
      rw [Option.map_some, Option.bind_some, Option.bind_some]
      cases cache.byId.get? ((RecordKeys.of record).symbol, id) <;> rfl
  | modify symbol key change => exact h.position? symbol key

/-! What a key leads to. -/

lemma Nameless.hasKey (h : cache.Nameless) (hi : cache.byId.get? (symbol, key) = some position)
    (hs : cache.slot? position = some older) : PlainCache.hasKey symbol key older = true := by
  obtain ⟨found, hf, hsymbol, hkey⟩ := (h.sound .id).lookup hi
  obtain rfl : found = older := Option.some.inj (hf.symm.trans hs)
  exact PlainCache.hasKey_iff.mpr ⟨hsymbol, hkey⟩

lemma Nameless.get?_of_hasKey (h : cache.Nameless) (hm : record ∈ cache.records)
    (hk : PlainCache.hasKey symbol key record = true) : cache.get? symbol key = some record := by
  obtain ⟨rfl, hid⟩ := PlainCache.hasKey_iff.mp hk
  exact h.complete.get?_of_mem hm hid

lemma Nameless.get?_plain (h : cache.Nameless) (symbol key : String) :
    cache.get? symbol key = cache.plain.get? symbol key := by
  rw [PlainCache.get?]
  cases hf : cache.plain.records.find? (PlainCache.hasKey symbol key) with
  | some record =>
    exact h.get?_of_hasKey (List.mem_of_find?_eq_some hf) (List.find?_some hf)
  | none =>
    by_contra he
    obtain ⟨record, hg⟩ := Option.ne_none_iff_exists'.mp he
    obtain ⟨position, hp, hs⟩ := Option.bind_eq_some_iff.mp hg
    rw [h.position?] at hp
    exact List.find?_eq_none.mp hf record (mem_records.mpr ⟨position, hs⟩) (h.hasKey hp hs)

lemma Nameless.contains_eq (h : cache.Nameless) (symbol key : String) :
    cache.contains symbol key = (cache.get? symbol key).isSome := by
  rw [KeyedCache.contains, KeyedCache.get?, h.position?]
  cases hp : cache.byId.get? (symbol, key) with
  | none => rfl
  | some position =>
    obtain ⟨record, hs, -⟩ := (h.sound .id).lookup hp
    rw [Option.bind_some, hs]
    rfl

lemma Nameless.contains_plain (h : cache.Nameless) (symbol key : String) :
    cache.contains symbol key = cache.plain.contains symbol key := by
  rw [h.contains_eq, h.get?_plain]
  exact Bool.eq_iff_iff.mpr (List.find?_isSome.trans List.any_eq_true.symm)

lemma Nameless.answer_modify (h : cache.Nameless) (symbol key : String)
    (change : Attempt α Unit) : cache.answer (.modify symbol key change) = .ok false ↔
      cache.plain.contains symbol key = false := by
  rw [answer_modify_eq_false, ← h.contains_plain, h.contains_eq, Option.isSome_eq_false_iff,
    Option.isNone_iff_eq_none]

lemma Nameless.split?_of_slots (h : cache.Nameless) {before behind : List (Option α)}
    (hi : cache.byId.get? (symbol, key) = some position)
    (hslot : cache.slot? position = some older)
    (hs : cache.slots = before ++ some older :: behind) :
    cache.plain.split? symbol key = some (before.filterMap id, older, behind.filterMap id) := by
  have hd := h.complete.pairwise
  rw [records_of_slots hs] at hd
  have hk := h.hasKey hi hslot
  refine PlainCache.split?_of_first (records_of_slots hs) hk fun other hm => ?_
  by_contra ho
  obtain ⟨hsymbol, hid⟩ := PlainCache.hasKey_iff.mp (by simpa using ho)
  obtain ⟨hsymbol', hid'⟩ := PlainCache.hasKey_iff.mp hk
  exact (List.pairwise_append.mp hd).2.2 other hm older (List.mem_cons_self ..)
    ⟨hsymbol.trans hsymbol'.symm, key, hid, hid'⟩

lemma Nameless.split?_of_meets (h : cache.Nameless)
    (hm : cache.Meets operation position older) :
    ∃ before behind, cache.slots = before ++ some older :: behind ∧
      position = cache.base + before.length ∧
      (operation.key?.bind fun (symbol, key) => cache.plain.split? symbol key) =
        some (before.filterMap id, older, behind.filterMap id) := by
  obtain ⟨before, behind, hs, hp⟩ := slots_of_slot? hm.slot
  have ht := hm.target
  rw [h.target?] at ht
  obtain ⟨⟨symbol, key⟩, hk, hi⟩ := Option.bind_eq_some_iff.mp ht
  exact ⟨before, behind, hs, hp, by rw [hk]; exact h.split?_of_slots hi hm.slot hs⟩

lemma Nameless.split?_of_missed (h : cache.Nameless) (operation : KeyedOperation α)
    (hn : (cache.target? operation).bind cache.slot? = none) :
    (operation.key?.bind fun (symbol, key) => cache.plain.split? symbol key) = none := by
  rw [h.target?] at hn
  cases hk : operation.key? with
  | none => rfl
  | some found =>
    obtain ⟨symbol, key⟩ := found
    rw [hk, Option.bind_some] at hn
    refine PlainCache.split?_of_none fun record hm => ?_
    by_contra he
    have hg := h.get?_of_hasKey hm (by simpa using he)
    rw [KeyedCache.get?, h.position?, hn] at hg
    exact absurd hg (by simp)

/-! Operations keep the cache nameless and answer as the list does. -/

/-- A record that comes back under its keys has no client id either. -/
lemma Nameless.of_relocated (h : cache.Nameless) (hs : cache.slot? position = some older)
    (hk : RecordKeys.of newer = .of older) {before behind : List α}
    (hr : cache.records = before ++ older :: behind) (placement : Placement) :
    ∀ record ∈ placement.relocate before newer behind,
      (RecordKeys.of record).clientId = none := by
  intro record hm
  rcases List.mem_cons.mp ((placement.relocate_perm ..).mem_iff.mp hm) with rfl | hm
  · rw [hk]
    exact h.nameless older (mem_records.mpr ⟨position, hs⟩)
  · refine h.nameless record ?_
    rw [hr, List.perm_middle.mem_iff]
    exact List.mem_cons_of_mem _ hm

/-- A record that is left half changed under the keys it had is found as before. -/
lemma Nameless.setSlot (h : cache.Nameless) (hs : cache.slot? position = some older)
    (hk : RecordKeys.of newer = .of older) :
    (cache.setSlot position (some newer)).Nameless := by
  obtain ⟨before, behind, hb, rfl⟩ := slots_of_slot? hs
  refine ⟨h.packed.setSlot hb newer, fun kind symbol key => (h.sound kind symbol key).setSlot hs ?_,
    fun symbol key => (h.complete symbol key).setSlot hs ?_, ?_⟩
  · rw [hk]
    exact id
  · rw [hk]
    exact id
  · rw [records_of_slots (slots_setSlot hb (some newer))]
    exact h.of_relocated hs hk (records_of_slots hb) .keep

lemma Nameless.exchange (h : cache.Nameless) (hs : cache.slot? position = some older)
    (hk : RecordKeys.of newer = .of older) : (cache.exchange position older newer).Nameless := by
  obtain ⟨before, behind, hb, hp⟩ := slots_of_slot? hs
  refine ⟨h.packed.exchange hs newer, fun kind => (h.sound kind).exchange hs newer,
    h.complete.exchange hs (h.complete.newTo_of_unchanged hs ?_ ?_), ?_⟩
  · rw [hk]
  · rw [hk]
  · rw [records_exchange hb hp]
    exact h.of_relocated hs hk (records_of_slots hb) _

lemma Nameless.accept (h : cache.Nameless) (hn : (RecordKeys.of record).clientId = none)
    (hm : (cache.match? record).bind cache.slot? = none) : (cache.accept record).Nameless := by
  refine ⟨h.packed.accept record, fun kind => (h.sound kind).accept h.packed record,
    h.complete.accept h.packed (h.complete.newTo_of_unmatched hm), fun other ho => ?_⟩
  have hmem : other ∈ cache.records ++ [record] := by
    rw [h.packed.records_accept] at ho
    split_ifs at ho
    · exact ho
    · exact List.mem_of_mem_tail ho
  rcases List.mem_append.mp hmem with hc | hr
  · exact h.nameless other hc
  · rw [List.mem_singleton.mp hr]
    exact hn

lemma Nameless.accept_plain (h : cache.Nameless) (record : α) :
    (cache.accept record).plain = cache.plain.add record := by
  have hr := h.packed.records_accept record
  have hlen : cache.plain.records.length = cache.live := h.packed.live.symm
  rw [plain_of_settings (h.packed.settings_accept record) hr, PlainCache.add, List.length_append,
    List.length_singleton, hlen]
  by_cases hl : cache.live < cache.limit
  · have hf : ¬ cache.plain.limit < cache.live + 1 := Nat.not_lt.mpr hl
    rw [if_pos hl, if_neg hf]
    rfl
  · have hf : cache.plain.limit < cache.live + 1 := Nat.lt_succ_of_le (Nat.not_lt.mp hl)
    rw [if_neg hl, if_pos hf]
    rfl

/-- The list answers as the cache does and goes on to be the list that the cache amounts to. -/
lemma Nameless.perform_plain (h : cache.Nameless) (operation : KeyedOperation α) :
    cache.plain.perform operation = (cache.answer operation, (cache.after operation).plain) := by
  have ho := perform_outcome cache operation
  have hset := settings_after h.packed operation
  generalize cache.answer operation = answer, cache.after operation = after at ho hset
  cases ho with
  | changed hm hc =>
    obtain ⟨before, behind, hb, hp, hf⟩ := h.split?_of_meets hm
    simp only [PlainCache.perform, hf, hc]
    rw [plain_of_settings hset (records_exchange hb hp _)]
    rfl
  | ended hm hc =>
    obtain ⟨before, behind, hb, rfl, hf⟩ := h.split?_of_meets hm
    simp only [PlainCache.perform, hf, hc]
    rw [plain_of_settings hset (records_of_slots (slots_setSlot hb _))]
  | @added record hm =>
    simp only [PlainCache.perform, h.split?_of_missed (.append record) hm, PlainCache.unmatched]
    rw [h.accept_plain]
  | @missed symbol key change hg =>
    simp only [PlainCache.perform, h.split?_of_missed (.modify symbol key change) hg,
      PlainCache.unmatched]

variable [LawfulIdentified α]

lemma Nameless.keys_kept (h : cache.Nameless) (hm : cache.Meets operation position older)
    (hn : operation.Nameless) (hk : cache.LeavesKeys id operation) :
    RecordKeys.of (operation.change.runOn older).2 = .of older := by
  obtain ⟨ht, hs⟩ := hm
  have ho : (RecordKeys.of older).clientId = none :=
    h.nameless older (mem_records.mpr ⟨position, hs⟩)
  have htarget := h.target? operation
  rw [ht] at htarget
  cases operation with
  | append record =>
    obtain ⟨found, hf, hi⟩ := Option.bind_eq_some_iff.mp htarget.symm
    obtain ⟨key, hid, rfl⟩ := Option.map_eq_some_iff.mp hf
    obtain ⟨hsymbol, hkey⟩ := PlainCache.hasKey_iff.mp (h.hasKey hi hs)
    have hclient : (RecordKeys.of record).clientId = none := hn
    have hrecord : (RecordKeys.of record).id = some key := hid
    have hmerged := LawfulIdentified.keys_merge record older
    rw [hclient, ho, hrecord, ← hkey, ← hsymbol] at hmerged
    rw [KeyedOperation.change, hmerged]
    change (⟨(RecordKeys.of older).symbol, (RecordKeys.of older).id, none⟩ : RecordKeys) = _
    rw [← ho]
  | modify symbol key change =>
    exact hk older (Option.bind_eq_some_iff.mpr ⟨position, ht, hs⟩)

lemma Nameless.after (h : cache.Nameless) (hn : operation.Nameless)
    (hk : cache.LeavesKeys id operation) : (cache.after operation).Nameless := by
  have ho := perform_outcome cache operation
  generalize cache.answer operation = answer, cache.after operation = after at ho
  cases ho with
  | changed hm hc =>
    have hkeys := h.keys_kept hm hn hk
    rw [hc] at hkeys
    exact h.exchange hm.slot hkeys
  | ended hm hc =>
    have hkeys := h.keys_kept hm hn hk
    rw [hc] at hkeys
    exact h.setSlot hm.slot hkeys
  | added hm => exact h.accept hn hm
  | missed hg => exact h

lemma Nameless.run (h : cache.Nameless) {operations : List (KeyedOperation α)}
    (hn : ∀ operation ∈ operations, operation.Nameless)
    (hk : cache.Along (LeavesKeys id) operations) : (cache.run operations).Nameless ∧
      cache.plain.run operations = (cache.run operations).plain ∧
      cache.plain.answers operations = cache.answers operations := by
  induction operations generalizing cache with
  | nil => exact ⟨h, rfl, rfl⟩
  | cons operation rest ih =>
    have hs := h.perform_plain operation
    obtain ⟨hrun, hplain, hanswers⟩ := ih
      (h.after (hn operation (List.mem_cons_self ..)) hk.1)
      (fun other hm => hn other (List.mem_cons_of_mem _ hm)) hk.2
    refine ⟨hrun, ?_, ?_⟩
    · change (cache.plain.perform operation).2.run rest = _
      rw [hs]
      exact hplain
    · rw [PlainCache.answers, answers, hs, hanswers]

/-- A run from an empty cache answers as the plain list does, and so does the cache after it when
it is asked for a key, as long as no record has a client id and modifications leave keys alone. -/
theorem run_eq_plain (limit : Nat) (placement : Placement) (operations : List (KeyedOperation α))
    (hn : ∀ record, .append record ∈ operations → Identified.clientId? record = none)
    (hk : (new limit placement : KeyedCache α).Along (LeavesKeys id) operations) :
    let start : KeyedCache α := new limit placement
    let list := PlainCache.new limit placement
    let cache := start.run operations
    let later := list.run operations
    start.answers operations = list.answers operations ∧ cache.records = later.records ∧
      cache.size = later.records.length ∧
      (∀ symbol key, cache.get? symbol key = later.get? symbol key) ∧
      (∀ symbol key, cache.contains symbol key = later.contains symbol key) ∧
      ∀ symbol key change, cache.answer (.modify symbol key change) = .ok false ↔
        later.contains symbol key = false := by
  intro start list cache later
  have hnameless : ∀ operation ∈ operations, operation.Nameless := by
    intro operation hm
    cases operation with
    | append record => exact hn record hm
    | modify symbol key change => trivial
  obtain ⟨h, hplain, hanswers⟩ := (nameless_new limit placement).run hnameless hk
  have hl : later = cache.plain := hplain
  rw [hl]
  exact ⟨hanswers.symm, rfl, h.packed.live, h.get?_plain, h.contains_plain, h.answer_modify⟩

/-- Trades with and without ids: one comes again, one is changed, and the oldest one leaves. -/
theorem repeated_trades_eq_plain :
    let trade := fun id timestamp => (⟨id, none, "BTC/USDT", .buy, none, .zero, .zero, .zero, none,
      timestamp, .null⟩ : Trade)
    let operations : List (KeyedOperation Trade) :=
      [.append (trade (some "a") 1), .append (trade none 2), .append (trade (some "b") 3),
        .append (trade (some "a") 4),
        .modify "BTC/USDT" "b" (modify fun trade => { trade with timestamp := 5 }),
        .append (trade none 6)]
    let start : KeyedCache Trade := new 3 .moveToNewest
    let cache := start.run operations
    let later := (PlainCache.new 3 .moveToNewest).run operations
    (∀ record, .append record ∈ operations → Identified.clientId? record = none) ∧
      start.Along (LeavesKeys id) operations ∧ cache.records = later.records ∧
      cache.records.map (·.timestamp) = [4, 5, 6] ∧
      cache.get? "BTC/USDT" "b" = later.get? "BTC/USDT" "b" := by
  intro trade operations start cache later
  have hn : ∀ record : Trade, .append record ∈ operations → Identified.clientId? record = none :=
    fun _ _ => rfl
  have hk : start.Along (LeavesKeys id) operations :=
    ⟨trivial, trivial, trivial, trivial, fun _ _ => rfl, trivial, trivial⟩
  obtain ⟨-, hr, -, hg, -⟩ := run_eq_plain 3 .moveToNewest operations hn hk
  exact ⟨hn, hk, hr, by decide +kernel, hg "BTC/USDT" "b"⟩

end KeyedCache

end MarketFeed
