import MarketFeed.Proofs.Decimal.Rounding
import MarketFeed.Proofs.Order.Accounting

/-!
# What fills add up to

The fills of a new order add up to an account that can be read off the list of fills. A fill whose
trade came before does not count. Filled amount, cost and fee are sums over the others, and the
average, what is left and the status follow from these sums.
-/

namespace MarketFeed

/-- A trade of the same id came before. A trade without an id repeats none. -/
def Trade.Repeats (earlier : List Trade) (trade : Trade) : Prop :=
  trade.id ≠ none ∧ trade.id ∈ earlier.map (·.id)

instance (earlier : List Trade) (trade : Trade) : Decidable (trade.Repeats earlier) :=
  inferInstanceAs (Decidable (_ ∧ _))

/-- Of each trade whether it repeats none before it. -/
def Trade.novelties (trades : List Trade) : List Bool :=
  trades.mapIdx fun place trade => !decide (trade.Repeats (trades.take place))

/-- The trades without those that repeat one before them. -/
def Trade.withoutRepeats (trades : List Trade) : List Trade :=
  ((trades.zip (novelties trades)).filter (·.2)).map (·.1)

/-- The fee of some charges is the sum of those in the currency of the first one. -/
def Fee.AddsUp : (charges : List Fee) → Option Fee → Prop
  | [], fee => fee = none
  | first :: rest, fee => ∃ cost,
    Decimal.sum (((first :: rest).filter (·.currency = first.currency)).map (·.cost)) = .ok cost ∧
      fee = some { Fee.ofCurrency first.currency with cost }

section Repeats

variable {trades earlier : List Trade} {trade : Trade}

lemma Trade.novelties_concat (trades : List Trade) (trade : Trade) :
    novelties (trades ++ [trade]) = novelties trades ++ [!decide (trade.Repeats trades)] := by
  rw [novelties, List.mapIdx_concat, List.take_left, novelties]
  congr 1
  apply List.ext_getElem
  · simp
  · intro place hplace _
    rw [List.getElem_mapIdx, List.getElem_mapIdx, List.take_append_of_le_length]
    rw [List.length_mapIdx] at hplace
    exact hplace.le

lemma Trade.length_novelties (trades : List Trade) : (novelties trades).length = trades.length :=
  List.length_mapIdx

lemma Trade.withoutRepeats_concat (trades : List Trade) (trade : Trade) :
    withoutRepeats (trades ++ [trade]) =
      withoutRepeats trades ++ if trade.Repeats trades then [] else [trade] := by
  rw [withoutRepeats, novelties_concat, List.zip_append (length_novelties trades).symm,
    List.filter_append, List.map_append, ← withoutRepeats]
  by_cases h : trade.Repeats trades
  · simp [h]
  · simp [h]

lemma Trade.mem_of_mem_withoutRepeats (h : trade ∈ withoutRepeats trades) : trade ∈ trades := by
  obtain ⟨⟨_, novel⟩, hm, rfl⟩ := List.mem_map.mp h
  exact (List.of_mem_zip (List.mem_filter.mp hm).1).1

/-- Leaving out repeats leaves out no id. -/
lemma Trade.mem_ids_withoutRepeats {id : Option String} :
    id ∈ (withoutRepeats trades).map (·.id) ↔ id ∈ trades.map (·.id) := by
  induction trades using List.reverseRecOn with
  | nil => rfl
  | append_singleton trades last ih =>
    rw [withoutRepeats_concat, List.map_append, List.mem_append, ih, List.map_append,
      List.mem_append]
    by_cases hlast : last.Repeats trades
    · have hknown : id ∈ [last].map (·.id) → id ∈ trades.map (·.id) := by
        intro hm
        rw [List.map_singleton, List.mem_singleton] at hm
        rw [hm]
        exact hlast.2
      rw [if_pos hlast]
      simpa using hknown
    · rw [if_neg hlast]

/-- An order with all trades but the repeats on record knows the repeats. -/
lemma Order.hasTrade_iff_repeats {order : Order} (h : order.trades = Trade.withoutRepeats trades)
    (trade : Trade) : order.hasTrade trade = true ↔ trade.Repeats trades := by
  rw [hasTrade_iff, h, Trade.mem_ids_withoutRepeats, Trade.Repeats]

end Repeats

lemma Fee.AddsUp.concat {charges : List Fee} {fee : Option Fee} {charged after : Fee}
    (h : AddsUp charges fee) :
    let before := fee.getD (.ofCurrency charged.currency)
    (before.currency = charged.currency → ∃ cost, before.cost.add charged.cost = .ok cost ∧
      after = { before with cost }) → (before.currency ≠ charged.currency → after = before) →
    AddsUp (charges ++ [charged]) (some after) := by
  intro before hsame hother
  cases charges with
  | nil =>
    obtain rfl : fee = none := h
    obtain ⟨cost, hcost, rfl⟩ := hsame rfl
    refine ⟨cost, ?_, rfl⟩
    have hsum := Decimal.sum_concat [] charged.cost
    simpa using hsum.trans hcost
  | cons first rest =>
    obtain ⟨sum, hsum, rfl⟩ := h
    rw [List.cons_append, AddsUp, ← List.cons_append, List.filter_append, List.map_append]
    by_cases hcurrency : charged.currency = first.currency
    · obtain ⟨cost, hcost, rfl⟩ := hsame hcurrency.symm
      refine ⟨cost, ?_, rfl⟩
      have hlast : [charged].filter (·.currency = first.currency) = [charged] := by
        simp [hcurrency]
      rw [hlast, List.map_singleton, Decimal.sum_concat, hsum]
      exact hcost
    · obtain rfl := hother (Ne.symm hcurrency)
      refine ⟨sum, ?_, rfl⟩
      have hlast : [charged].filter (·.currency = first.currency) = [] := by
        simp [hcurrency]
      rw [hlast, List.map_nil, List.append_nil]
      exact hsum

namespace Order

variable {placed order newer : Order} {trades : List Trade} {trade : Trade}
  {amount filled left : Decimal}

/-- The order is the one that was placed, with the trades on its account. -/
structure Accounts (placed : Order) (recorded : List Trade) (order : Order) : Prop where
  frame : { order with
    lastTradeTimestamp := placed.lastTradeTimestamp, filled := placed.filled
    remaining := placed.remaining, cost := placed.cost, average := placed.average
    status := placed.status, fee := placed.fee, trades := placed.trades } = placed
  trades : order.trades = recorded
  filled : Decimal.sum (recorded.map (·.amount)) = .ok order.filled
  cost : Decimal.sum (recorded.map (·.cost)) = .ok order.cost
  unpriced : (∀ trade ∈ recorded, ¬ 0 < trade.amount.value) → order.average = none
  priced : (∃ trade ∈ recorded, 0 < trade.amount.value) →
    ∃ quotient, order.cost.div order.filled = .ok quotient ∧ order.average = some quotient
  lastTrade : order.lastTradeTimestamp = (recorded.map (·.timestamp)).max?
  unbounded : placed.amount = none → order.remaining = none
  bounded : ∀ amount, placed.amount = some amount → ∃ difference left,
    amount.sub order.filled = .ok difference ∧ order.remaining = some left ∧
      left.value = max difference.value 0
  status : order.status = .live ∨ order.status = .closed
  closed : order.status = .closed ↔ placed.amount.isSome = true ∧ recorded ≠ [] ∧
    ∃ left, order.remaining = some left ∧ left.value = 0
  fee : Fee.AddsUp (recorded.filterMap (·.fee)) order.fee

lemma accounts_new (id symbol : String) (side : TradeSide) {amount price : Option Decimal}
    (h : ∀ total, amount = some total → 0 ≤ total.value) :
    let placed := Order.new id symbol side amount price
    Accounts placed [] placed where
  frame := rfl
  trades := rfl
  filled := rfl
  cost := rfl
  unpriced _ := rfl
  priced := by simp
  lastTrade := rfl
  unbounded hnone := hnone
  bounded total ht := by
    obtain ⟨difference, hd, hv⟩ := total.sub_zero_ok
    exact ⟨difference, total, hd, ht, by rw [hv, max_eq_left (h total ht)]⟩
  status := .inl rfl
  closed := by simp [new]
  fee := rfl

lemma Accounts.amount_eq (h : Accounts placed trades order) : order.amount = placed.amount := by
  rw [← h.frame]

/-- Once an order is closed, its amount is filled. -/
lemma Accounts.filled_of_closed (h : Accounts placed trades order) (hc : order.status = .closed)
    (ha : placed.amount = some amount) : amount.value ≤ order.filled.value := by
  obtain ⟨-, -, left, hleft, hzero⟩ := h.closed.mp hc
  obtain ⟨difference, remaining, hsub, hremaining, hvalue⟩ := h.bounded amount ha
  obtain rfl : left = remaining := Option.some.inj (hleft.symm.trans hremaining)
  rw [← Decimal.sub_nonpos_iff hsub]
  exact max_eq_right_iff.mp (hvalue.symm.trans hzero)

lemma left_eq_zero_iff (h : remainder amount filled = .ok left) :
    left.value = 0 ↔ amount.value ≤ filled.value := by
  obtain ⟨difference, hsub, hvalue⟩ := remainder_ok h
  rw [hvalue, max_eq_right_iff, Decimal.sub_nonpos_iff hsub]

lemma max?_concat (stamps : List Int) (stamp : Int) :
    (stamps ++ [stamp]).max? = some (stamps.max?.elim stamp (max · stamp)) := by
  cases stamps with
  | nil => rfl
  | cons first rest =>
    rw [List.cons_append, List.max?_cons', List.foldl_append, List.max?_cons']
    rfl

/-- The fee of the trades on the account after one that is recorded. -/
lemma Accounts.fee_record (h : Accounts placed trades order) {counted : Order}
    (hcounted : counted.fee = order.fee) (hfree : trade.fee = none → newer = counted)
    (hcharged : ∀ fee, trade.fee = some fee → (addFee fee).runOn counted = (.ok (), newer)) :
    ∃ fee, newer = { counted with fee } ∧
      Fee.AddsUp ((trades ++ [trade]).filterMap (·.fee)) fee := by
  rw [List.filterMap_append]
  cases htrade : trade.fee with
  | none =>
    refine ⟨counted.fee, hfree htrade, ?_⟩
    have hlast : [trade].filterMap (·.fee) = [] := by simp [htrade]
    rw [hlast, List.append_nil, hcounted]
    exact h.fee
  | some charged =>
    obtain ⟨fee, hnewer, hsame, hother⟩ := addFee_ok (hcharged charged htrade)
    rw [hcounted] at hsame hother
    refine ⟨some fee, hnewer, ?_⟩
    have hlast : [trade].filterMap (·.fee) = [charged] := by simp [htrade]
    rw [hlast]
    exact h.fee.concat hsame hother

/-- What is left and whether the order is closed, after a trade that is recorded. -/
lemma Accounts.closed_record (h : Accounts placed trades order)
    {remaining : Option Decimal} {status : OrderStatus} (hle : order.filled.value ≤ filled.value)
    (hunbounded : order.amount = none → remaining = order.remaining ∧ status = order.status)
    (hbounded : ∀ total, order.amount = some total → ∃ left,
      remainder total filled = .ok left ∧ remaining = some left ∧
        status = if left.isZero ∧ order.status = .live then .closed else order.status) :
    (status = .live ∨ status = .closed) ∧ (status = .closed ↔ placed.amount.isSome = true ∧
      ∃ left, remaining = some left ∧ left.value = 0) := by
  rw [h.amount_eq] at hunbounded hbounded
  cases ha : placed.amount with
  | none =>
    obtain ⟨-, rfl⟩ := hunbounded ha
    refine ⟨h.status, ?_⟩
    rw [h.closed, ha]
    simp
  | some total =>
    obtain ⟨left, hleft, rfl, hstatus⟩ := hbounded total ha
    have hzero := left_eq_zero_iff hleft
    -- What an earlier fill closed stays filled, as no amount is negative.
    have hclosed : order.status = .closed → left.value = 0 :=
      fun hc => hzero.mpr ((h.filled_of_closed hc ha).trans hle)
    rcases h.status with hlive | hdone
    · by_cases hnothing : left.value = 0
      · simp [hstatus, hlive, hnothing]
      · simp [hstatus, hlive, hnothing]
    · simp [hstatus, hdone, hclosed hdone]

lemma filled_pos_iff (h : Decimal.sum (trades.map (·.amount)) = .ok filled)
    (hnonneg : ∀ trade ∈ trades, 0 ≤ trade.amount.value) :
    0 < filled.value ↔ ∃ trade ∈ trades, 0 < trade.amount.value := by
  have hamounts : ∀ amount ∈ trades.map (·.amount), 0 ≤ amount.value := by
    intro amount hm
    obtain ⟨trade, ht, rfl⟩ := List.mem_map.mp hm
    exact hnonneg trade ht
  rw [Decimal.sum_pos_iff h hamounts]
  simp

/-- The average after a trade that is recorded: there is none before an amount is filled. -/
lemma Accounts.average_record (h : Accounts placed trades order) {cost : Decimal}
    {average : Option Decimal}
    (hpositive : 0 < filled.value ↔ ∃ other ∈ trades ++ [trade], 0 < other.amount.value)
    (hpriced : filled.isPositive = true → ∃ quotient, cost.div filled = .ok quotient ∧
      average = some quotient) (hunpriced : filled.isPositive = false → average = order.average) :
    ((∀ other ∈ trades ++ [trade], ¬ 0 < other.amount.value) → average = none) ∧
      ((∃ other ∈ trades ++ [trade], 0 < other.amount.value) →
        ∃ quotient, cost.div filled = .ok quotient ∧ average = some quotient) := by
  rw [← Decimal.isPositive_iff] at hpositive
  constructor
  · intro hnone
    have hzero : filled.isPositive = false := by
      rw [← Bool.not_eq_true, hpositive]
      rintro ⟨other, hm, hamount⟩
      exact hnone other hm hamount
    rw [hunpriced hzero]
    exact h.unpriced fun other hm => hnone other (List.mem_append_left _ hm)
  · intro hsome
    exact hpriced (hpositive.mpr hsome)

lemma Accounts.record (h : Accounts placed trades order)
    (hnonneg : ∀ other ∈ trades ++ [trade], 0 ≤ other.amount.value)
    (hnew : order.hasTrade trade = false) {changed : Bool}
    (hfill : (applyFill trade).runOn order = (.ok changed, newer)) :
    Accounts placed (trades ++ [trade]) newer := by
  obtain ⟨-, costed, counted, hcosted, hcounted, hfree, hcharged⟩ := applyFill_steps hnew hfill
  obtain ⟨cost, total, average, rfl, htotals, hpriced, hunpriced⟩ := recost_ok hcosted
  obtain ⟨filled, remaining, status, rfl, hadd, hunbounded, hbounded⟩ := addFilled_ok hcounted
  obtain ⟨fee, rfl, hfee⟩ := h.fee_record (by rfl) hfree hcharged
  have hrecorded : order.trades ++ [trade] = trades ++ [trade] := by rw [h.trades]
  obtain ⟨hcost, htotal⟩ := sum_of_totals htotals
  have hfilled : Decimal.sum ((trades ++ [trade]).map (·.amount)) = .ok filled := by
    rw [List.map_append, List.map_singleton, Decimal.sum_concat, h.filled]
    exact hadd
  obtain rfl : total = filled := by
    rw [← hrecorded] at hfilled
    exact Except.ok.inj (htotal.symm.trans hfilled)
  have hle : order.filled.value ≤ total.value :=
    Decimal.left_le_add hadd (hnonneg trade (by simp))
  obtain ⟨hstatus, hclosed⟩ := h.closed_record hle hunbounded hbounded
  obtain ⟨hnoAverage, haverage⟩ :=
    h.average_record (filled_pos_iff hfilled hnonneg) hpriced hunpriced
  refine ⟨h.frame, hrecorded, hfilled, ?_, hnoAverage, haverage, ?_, ?_, ?_, hstatus, ?_, hfee⟩
  · rw [← hrecorded]
    exact hcost
  · rw [List.map_append, List.map_singleton, max?_concat, ← h.lastTrade]
    rfl
  · intro hnone
    obtain ⟨hremaining, -⟩ := hunbounded (h.amount_eq.trans hnone)
    exact hremaining.trans (h.unbounded hnone)
  · intro amount ha
    obtain ⟨left, hleft, hremaining, -⟩ := hbounded amount (h.amount_eq.trans ha)
    obtain ⟨difference, hsub, hvalue⟩ := remainder_ok hleft
    exact ⟨difference, left, hsub, hremaining, hvalue⟩
  · rw [hclosed]
    simp

/-- Fills of a new order that complete tell which of them repeat an earlier one, and leave the order
with the others on its account. -/
theorem fills_accumulate (id symbol : String) (side : TradeSide) {amount price : Option Decimal}
    {fills : List Trade} {answers : List Bool} {order : Order}
    (hamount : ∀ total, amount = some total → 0 ≤ total.value)
    (hfills : ∀ fill ∈ fills, 0 ≤ fill.amount.value)
    (h : (fills.mapM applyFill).runOn (Order.new id symbol side amount price) =
      (.ok answers, order)) :
    answers = Trade.novelties fills ∧
      Accounts (Order.new id symbol side amount price) (Trade.withoutRepeats fills) order := by
  induction fills using List.reverseRecOn generalizing answers order with
  | nil =>
    obtain ⟨hanswers, rfl⟩ := Prod.mk.inj h
    exact ⟨(Except.ok.inj hanswers).symm, accounts_new id symbol side hamount⟩
  | append_singleton fills fill ih =>
    obtain ⟨earlier, before, last, hearlier, hlast, rfl⟩ := Attempt.runOn_mapM_concat_eq_ok h
    have hkept : ∀ other ∈ fills, 0 ≤ other.amount.value := fun other hm =>
      hfills other (List.mem_append_left _ hm)
    obtain ⟨rfl, haccounts⟩ := ih hkept hearlier
    -- The order asks the trades on record, and these have every id that came before.
    have hknown := hasTrade_iff_repeats haccounts.trades fill
    rw [Trade.novelties_concat, Trade.withoutRepeats_concat]
    obtain ⟨rfl, ⟨hold, rfl⟩ | ⟨hnew, -⟩⟩ := applyFill_cases hlast
    · rw [if_pos (hknown.mp hold), List.append_nil, decide_eq_true (hknown.mp hold), hold]
      exact ⟨rfl, haccounts⟩
    · have hfirst : ¬ fill.Repeats fills := by
        rw [← hknown, hnew]
        exact Bool.false_ne_true
      rw [if_neg hfirst, decide_eq_false hfirst, hnew]
      refine ⟨rfl, haccounts.record ?_ hnew hlast⟩
      intro other hm
      rcases List.mem_append.mp hm with hm | hm
      · exact hkept other (Trade.mem_of_mem_withoutRepeats hm)
      · exact hfills other (List.mem_append_right _ hm)

/-- Of five fills the second repeats the first one, and the two without an id count both. They
exceed the amount, and of the fees only those in the first currency are added up. -/
theorem repeated_and_unnamed_fills_accumulate :
    let half : Decimal := ⟨5, 1, by decide, by decide⟩
    let hundred : Decimal := ⟨100, 0, by decide, by decide⟩
    let fee := fun currency => some (⟨currency, half, none⟩ : Fee)
    let fill := fun id amount fee timestamp =>
      { Trade.blank with id, amount, cost := hundred, fee, timestamp }
    let fills := [fill (some "t1") .two (fee "USDT") 7, fill (some "t1") .two (fee "USDT") 9,
      fill none half (fee "BTC") 5, fill none half none 5, fill (some "t2") .two (fee "USDT") 8]
    let placed := Order.new "A" "BTC/USDT" .buy (some ⟨4, 0, by decide, by decide⟩) none
    let order := ((fills.mapM applyFill).runOn placed).2
    (∀ fill ∈ fills, 0 ≤ fill.amount.value) ∧
      (fills.mapM applyFill).runOn placed = (.ok [true, false, true, true, true], order) ∧
      (order.trades.length, order.filled, order.cost, order.average) =
        (4, ⟨50, 1, by decide, by decide⟩, ⟨400, 0, by decide, by decide⟩,
          some ⟨80, 0, by decide, by decide⟩) ∧
      (order.lastTradeTimestamp, order.status, order.fee) =
        (some 8, .closed, some ⟨"USDT", ⟨10, 1, by decide, by decide⟩, none⟩) ∧
      Accounts placed (Trade.withoutRepeats fills) order := by
  intro half hundred fee fill fills placed order
  have hfills : ∀ fill ∈ fills, 0 ≤ fill.amount.value := by
    have hcoefficients : ∀ fill ∈ fills, 0 ≤ fill.amount.coefficient := by decide +kernel
    intro fill hm
    exact div_nonneg (Int.cast_nonneg (hcoefficients fill hm)) (by positivity)
  have hamount : ∀ total, placed.amount = some total → 0 ≤ total.value := by
    rintro _ ⟨rfl⟩
    norm_num [Decimal.value]
  have hrun : (fills.mapM applyFill).runOn placed = (.ok [true, false, true, true, true], order) :=
    Prod.ext (by decide +kernel) rfl
  exact ⟨hfills, hrun, by decide +kernel, by decide +kernel,
    (fills_accumulate "A" "BTC/USDT" .buy hamount hfills hrun).2⟩

end Order

end MarketFeed
