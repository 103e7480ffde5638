import QuantDinger.Library.Runs
import QuantDinger.Model.FeeLedger
import QuantDinger.Analysis.Posting

/-!
# When a base fee is reported

An order's fills are posted the same way whatever is known of their fees, and once the last fees
are known they are all posted. What depends on the time is the test that takes a base fee off
the inventory: the one of a fill asks for a spot market, the one of an adjustment for a spot or a
crypto market. So the two ways agree exactly where the fees that come with a posted fill would be
taken off by both tests.
-/

namespace QuantDinger.Analysis

open QuantDinger.Library
open QuantDinger.Model
open QuantDinger.Model.Live

/-! ## Sums of fees -/

@[simp] theorem feeIn_empty (currency : String) : feeIn Dict.empty currency = 0 := rfl

theorem feeIn_addFees (fees added : Fees) (currency : String) :
    feeIn (addFees fees added) currency = feeIn fees currency + feeIn added currency := by
  unfold feeIn addFees
  rw [Dict.get?_foldl_updateWith added fun _ amount before => some (before.getD 0 + amount)]
  cases added.get? currency with
  | none => simp
  | some amount => simp

theorem feeIn_unpostedFees (fees posted : Fees) (currency : String) :
    feeIn (unpostedFees fees posted) currency = feeIn fees currency - feeIn posted currency := by
  unfold unpostedFees
  rw [feeIn_addFees, sub_eq_add_neg]
  congr 1
  unfold feeIn
  rw [Dict.get?_mapValues]
  cases posted.get? currency with
  | none => simp
  | some amount => simp

theorem feeIn_of_entries_nil {fees : Fees} (h : fees.entries = []) (currency : String) :
    feeIn fees currency = 0 := by
  have hempty : fees = Dict.empty := Dict.ext h
  rw [hempty, feeIn_empty]

/-- INTERNAL: a row without a breakdown has no commission. -/
def SoundTrade (trade : FeeTrade) : Prop :=
  trade.commissionBreakdown.entries = [] → trade.commission = 0

theorem feeIn_set_zero (ccy currency : String) :
    feeIn (Dict.empty.set ccy (0 : Amount)) currency = 0 := by
  unfold feeIn
  rw [Dict.get?_set]
  by_cases hccy : currency = ccy
  · simp [hccy]
  · simp [hccy]

theorem feeIn_fees {trade : FeeTrade} (h : SoundTrade trade) (currency : String) :
    feeIn trade.fees currency = feeIn trade.commissionBreakdown currency := by
  unfold FeeTrade.fees
  by_cases hbreakdown : trade.commissionBreakdown.entries = []
  · rw [if_neg (not_not.mpr hbreakdown), feeIn_of_entries_nil hbreakdown, h hbreakdown]
    by_cases hccy : trade.commissionCcy ≠ ""
    · rw [if_pos hccy, feeIn_set_zero]
    · rw [if_neg hccy, feeIn_empty]
  · rw [if_pos hbreakdown]

theorem feeIn_previousFees {trade : FeeTrade} (h : SoundTrade trade) (currency : String) :
    feeIn trade.previousFees currency = feeIn trade.commissionBreakdown currency := by
  unfold FeeTrade.previousFees
  by_cases hbreakdown : trade.commissionBreakdown.entries = []
  · rw [if_neg (not_not.mpr hbreakdown), feeIn_of_entries_nil hbreakdown, h hbreakdown]
    by_cases hccy : trade.commissionCcy ∉ ["", "MIXED"]
    · rw [if_pos hccy, feeIn_set_zero]
    · rw [if_neg hccy, feeIn_empty]
  · rw [if_pos hbreakdown]

theorem soundTrade_recordTrade (order : FeeOrder) (filled price : Amount) (fees : Fees) :
    SoundTrade (order.recordTrade filled price fees) := by
  intro hnone
  have hentries : fees.entries = [] := hnone
  show (feeStorage fees).1 = 0
  unfold feeStorage
  rw [hentries]

theorem soundTrade_adjusted (trade : FeeTrade) (fees : Fees) : SoundTrade (trade.adjusted fees) := by
  intro hnone
  have hentries : (addFees trade.previousFees fees).entries = [] := hnone
  unfold FeeTrade.adjusted
  simp only [hentries]

theorem feeIn_postedFees {store : FeeStore} (h : ∀ trade ∈ store.trades, SoundTrade trade)
    (currency : String) :
    feeIn store.postedFees currency =
      (store.trades.map fun trade => feeIn trade.commissionBreakdown currency).sum := by
  have hgeneral : ∀ (trades : List FeeTrade) (total : Fees), (∀ trade ∈ trades, SoundTrade trade) →
      feeIn (trades.foldl (fun total trade => addFees total trade.fees) total) currency =
        feeIn total currency +
          (trades.map fun trade => feeIn trade.commissionBreakdown currency).sum := by
    intro trades
    induction trades with
    | nil => simp
    | cons trade trades ih =>
      intro total hsound
      rw [List.foldl_cons, ih _ fun other hother => hsound other (List.mem_cons_of_mem _ hother),
        feeIn_addFees, feeIn_fees (hsound trade List.mem_cons_self), List.map_cons, List.sum_cons]
      ring
  unfold FeeStore.postedFees
  rw [hgeneral store.trades Dict.empty h, feeIn_empty, zero_add]

/-! ## The books of an order -/

/-- What is kept of an order's books while fills of a quantity and a value are reported. -/
structure Books (order : FeeOrder) (quantity value : Amount) (store : FeeStore) : Prop where
  nonneg : 0 ≤ store.postedQuantity
  behind : store.postedQuantity ≤ quantity
  value : store.postedValue ≤ value
  priced : 0 < store.postedQuantity → 0 < store.postedValue
  started : store.postedQuantity = 0 → store.trades = []
  observed : store.filledQuantity ≤ quantity
  sound : ∀ trade ∈ store.trades, SoundTrade trade
  rows : ∀ trade ∈ store.trades,
    trade.symbol = order.rowSymbol ∧ trade.marketType = order.rowMarketType

/-- The fees of a report that are not posted yet. -/
def reportedFees (store : FeeStore) (report : FeeReport) : Fees :=
  (report.fees.map fun fees => unpostedFees fees store.postedFees).getD Dict.empty

/-- A report has a fill that is posted: it is above the tolerance. -/
def PostsFill (posted total : Amount) : Prop := posted + quantityTolerance posted total < total

instance (posted total : Amount) : Decidable (PostsFill posted total) :=
  inferInstanceAs (Decidable (_ < _))

theorem postedQuantity_mul_average {order : FeeOrder} {quantity value : Amount} {store : FeeStore}
    (h : Books order quantity value store) :
    store.postedQuantity * store.postedAverage = store.postedValue := by
  unfold FeeStore.postedAverage
  by_cases hposted : 0 < store.postedQuantity
  · rw [if_pos hposted, mul_div_cancel₀ _ hposted.ne']
  · rw [if_neg hposted, mul_zero]
    unfold FeeStore.postedValue
    rw [h.started (le_antisymm (not_lt.mp hposted) h.nonneg)]
    rfl

theorem cumulativeDelta_tolerated {previousQty previousAvg totalQty totalAvg : Amount}
    (hprevious : 0 ≤ previousQty) (htotal : 0 ≤ totalQty) (h : ¬ PostsFill previousQty totalQty) :
    cumulativeDelta previousQty previousAvg totalQty totalAvg = .ok (0, 0) := by
  unfold cumulativeDelta
  rw [if_neg (not_lt.mpr (le_min hprevious htotal)), if_pos (not_lt.mp h)]

def unpostedPrice (store : FeeStore) (quantity value : Amount) : Amount :=
  (value - store.postedValue) / (quantity - store.postedQuantity)

section Report

variable {order : FeeOrder} {quantity value : Amount} {store : FeeStore} {report : FeeReport}

theorem delta_posts (h : Books order quantity value store) (hquantity : 0 < quantity)
    (hvalue : 0 < value) (hgrown : store.postedValue < value)
    (hposts : PostsFill store.postedQuantity quantity) :
    cumulativeDelta store.postedQuantity store.postedAverage quantity (value / quantity) =
        .ok (quantity - store.postedQuantity, unpostedPrice store quantity value) ∧
      1 / 10 ^ 12 < quantity - store.postedQuantity ∧ 0 < unpostedPrice store quantity value := by
  have htotal : quantity * (value / quantity) = value := mul_div_cancel₀ _ hquantity.ne'
  have hprevious := postedQuantity_mul_average h
  have htolerance : 1 / 10 ^ 12 ≤ quantityTolerance store.postedQuantity quantity := le_max_left _ _
  have hmore : 1 / 10 ^ 12 < quantity - store.postedQuantity := by
    unfold PostsFill at hposts
    linarith
  have hpositive : 0 < quantity - store.postedQuantity := lt_trans (by norm_num) hmore
  refine ⟨?_, hmore, div_pos (by linarith) hpositive⟩
  rw [cumulativeDelta_ok h.nonneg hposts (div_pos hvalue hquantity)]
  · rw [htotal, hprevious]
    rfl
  · intro hposted
    unfold FeeStore.postedAverage
    rw [if_pos hposted]
    exact div_pos (h.priced hposted) hposted
  · rw [htotal, hprevious]
    exact hgrown

def recordedFill (store : FeeStore) (order : FeeOrder) (filled price : Amount) (fees : Fees) :
    FeeStore :=
  { store with
    leg := applyToRow store.leg order.signal
      (spotPositionFillQuantity order.marketType order.symbol order.signal filled fees) price
    trades := store.trades ++ [order.recordTrade filled price fees] }

theorem recordFill_ok (store : FeeStore) (order : FeeOrder) {filled price : Amount}
    (hfilled : 0 < filled) (hprice : 0 < price) (fees : Fees) :
    store.recordFill order filled price fees = .ok (recordedFill store order filled price fees) := by
  have hrequire : requireExecution filled price = .ok () := if_pos ⟨hfilled, hprice⟩
  unfold FeeStore.recordFill
  rw [hrequire]
  rfl

def adjustedFee (store : FeeStore) (trade : FeeTrade) (fees : Fees) : FeeStore :=
  { store with
    leg := adjustLeg store.leg trade fees
    trades := store.trades.dropLast ++ [trade.adjusted fees] }

theorem adjustOrderFee_ok (hposted : 0 < store.postedQuantity) (fees : Fees) :
    ∃ trade, store.trades.getLast? = some trade ∧
      store.adjustOrderFee fees = .ok (adjustedFee store trade fees) := by
  cases hlast : store.trades.getLast? with
  | none =>
    rw [List.getLast?_eq_none_iff] at hlast
    simp [FeeStore.postedQuantity, hlast] at hposted
  | some trade =>
    unfold FeeStore.adjustOrderFee
    rw [hlast]
    exact ⟨trade, rfl, rfl⟩

theorem eventDelta_posts (h : Books order quantity value store) (hquantity : 0 < quantity)
    (hvalue : 0 < value) (hgrown : store.postedValue < value)
    (hposts : PostsFill store.postedQuantity quantity) (fees : Option Fees) :
    store.eventDelta ⟨quantity, value / quantity, fees⟩ =
      .ok (quantity - store.postedQuantity, unpostedPrice store quantity value) := by
  obtain ⟨hdelta, hmore, hprice⟩ := delta_posts h hquantity hvalue hgrown hposts
  have hpositive : 0 < quantity - store.postedQuantity := lt_trans (by norm_num) hmore
  have hcomplete : ¬ (quantity ≤ 0 ∨ value / quantity ≤ 0) :=
    not_or.mpr ⟨not_le.mpr hquantity, not_le.mpr (div_pos hvalue hquantity)⟩
  have hrequire : requireExecution (quantity - store.postedQuantity)
      (unpostedPrice store quantity value) = .ok () := if_pos ⟨hpositive, hprice⟩
  unfold FeeStore.eventDelta
  rw [if_neg hcomplete]
  simp only [hdelta, if_pos hpositive, hrequire]

theorem eventDelta_tolerated (h : Books order quantity value store) (hquantity : 0 < quantity)
    (hvalue : 0 < value) (hposts : ¬ PostsFill store.postedQuantity quantity)
    (fees : Option Fees) :
    store.eventDelta ⟨quantity, value / quantity, fees⟩ = .ok (0, 0) := by
  have hcomplete : ¬ (quantity ≤ 0 ∨ value / quantity ≤ 0) :=
    not_or.mpr ⟨not_le.mpr hquantity, not_le.mpr (div_pos hvalue hquantity)⟩
  unfold FeeStore.eventDelta
  rw [if_neg hcomplete]
  simp only [cumulativeDelta_tolerated h.nonneg hquantity.le hposts, lt_irrefl, if_false]

theorem incrementalFees_eq (h : store.postedQuantity ≤ report.cumulative) :
    store.incrementalFees report = reportedFees store report := by
  have hfresh : ¬ report.cumulative + 1 / 10 ^ 12 < store.postedQuantity := by
    have htolerance : (0 : Amount) < 1 / 10 ^ 12 := by norm_num
    linarith
  unfold FeeStore.incrementalFees reportedFees
  cases report.fees with
  | none => rfl
  | some fees => exact if_neg hfresh

theorem post_posts (h : Books order quantity value store) (hquantity : 0 < quantity)
    (hvalue : 0 < value) (hgrown : store.postedValue < value)
    (hposts : PostsFill store.postedQuantity quantity) (channel : ReportChannel)
    (fees : Option Fees) :
    ∃ observed ≤ quantity, store.post order channel ⟨quantity, value / quantity, fees⟩ =
      { recordedFill store order (quantity - store.postedQuantity)
          (unpostedPrice store quantity value)
          (reportedFees store ⟨quantity, value / quantity, fees⟩) with
        filledQuantity := observed } := by
  obtain ⟨hdelta, hmore, hprice⟩ := delta_posts h hquantity hvalue hgrown hposts
  have hpositive : 0 < quantity - store.postedQuantity := lt_trans (by norm_num) hmore
  have hfees := @incrementalFees_eq store ⟨quantity, value / quantity, fees⟩ h.behind
  have hevent := eventDelta_posts h hquantity hvalue hgrown hposts fees
  unfold FeeStore.post
  cases howner : order.owner with
  | gridOrder =>
    have hfresh : ¬ quantity + 1 / 10 ^ 12 < store.filledQuantity := by
      have htolerance : (0 : Amount) < 1 / 10 ^ 12 := by norm_num
      have := h.observed
      linarith
    refine ⟨max store.filledQuantity quantity, max_le h.observed le_rfl, ?_⟩
    unfold FeeStore.projectGrid
    simp only [hevent, if_neg hfresh, hfees, if_neg (not_le.mpr hmore)]
    rw [recordFill_ok _ _ hpositive hprice]
    simp only [liftFill, recordedFill]
  | pendingOrder =>
    refine ⟨store.filledQuantity, h.observed, ?_⟩
    cases channel with
    | rest =>
      have hfresh : ¬ quantity + 1 / 10 ^ 12 < store.postedQuantity := by
        have htolerance : (0 : Amount) < 1 / 10 ^ 12 := by norm_num
        have := h.behind
        linarith
      have hlarge : ¬ |quantity - store.postedQuantity| ≤ 1 / 10 ^ 12 := by
        rw [abs_of_pos hpositive]
        exact not_le.mpr hmore
      unfold FeeStore.persistStrategyFill
      simp only [hdelta, if_neg hfresh, if_neg (not_le.mpr hpositive), if_neg hlarge]
      rw [recordFill_ok _ _ hpositive hprice]
      simp only [liftFill, recordedFill, reportedFees]
    | stream =>
      have hboth : 1 / 10 ^ 12 < quantity - store.postedQuantity ∧
          0 < unpostedPrice store quantity value := ⟨hmore, hprice⟩
      unfold FeeStore.projectPendingOrder
      simp only [hevent, hfees, if_pos hboth]
      rw [recordFill_ok _ _ hpositive hprice]
      simp only [liftFill, recordedFill]

theorem post_tolerated (h : Books order quantity value store) (hquantity : 0 < quantity)
    (hvalue : 0 < value) (hposts : ¬ PostsFill store.postedQuantity quantity)
    (channel : ReportChannel) (fees : Option Fees) :
    ∃ observed ≤ quantity,
      (0 < store.postedQuantity ∧ fees.isSome = true ∧ ∃ trade, store.trades.getLast? = some trade ∧
        store.post order channel ⟨quantity, value / quantity, fees⟩ =
          { adjustedFee store trade (reportedFees store ⟨quantity, value / quantity, fees⟩) with
            filledQuantity := observed }) ∨
      (¬ (0 < store.postedQuantity ∧ fees.isSome = true) ∧
        store.post order channel ⟨quantity, value / quantity, fees⟩ =
          { store with filledQuantity := observed }) := by
  have hdelta := @cumulativeDelta_tolerated store.postedQuantity store.postedAverage quantity
    (value / quantity) h.nonneg hquantity.le hposts
  have hfees := @incrementalFees_eq store ⟨quantity, value / quantity, fees⟩ h.behind
  have hevent := eventDelta_tolerated h hquantity hvalue hposts fees
  have hzero : ¬ ((1 : Amount) / 10 ^ 12 < 0 ∧ (0 : Amount) < 0) := fun hboth => lt_irrefl _ hboth.2
  have hsmall : (0 : Amount) ≤ 1 / 10 ^ 12 := by norm_num
  by_cases hknown : 0 < store.postedQuantity ∧ fees.isSome = true
  · obtain ⟨trade, hlast, hadjust⟩ := adjustOrderFee_ok hknown.1
      (reportedFees store ⟨quantity, value / quantity, fees⟩)
    unfold FeeStore.post
    cases howner : order.owner with
    | gridOrder =>
      have hfresh : ¬ quantity + 1 / 10 ^ 12 < store.filledQuantity := by
        have := h.observed
        linarith
      obtain ⟨trade', hlast', hadjust'⟩ := @adjustOrderFee_ok
        { store with filledQuantity := max store.filledQuantity quantity } hknown.1
        (reportedFees store ⟨quantity, value / quantity, fees⟩)
      refine ⟨max store.filledQuantity quantity, max_le h.observed le_rfl,
        Or.inl ⟨hknown.1, hknown.2, trade', hlast', ?_⟩⟩
      unfold FeeStore.projectGrid
      simp only [hevent, if_neg hfresh, hfees, if_pos hsmall, if_pos hknown, hadjust']
      simp only [liftFill, adjustedFee]
    | pendingOrder =>
      refine ⟨store.filledQuantity, h.observed, Or.inl ⟨hknown.1, hknown.2, trade, hlast, ?_⟩⟩
      cases channel with
      | rest =>
        have hfresh : ¬ quantity + 1 / 10 ^ 12 < store.postedQuantity := by
          have := h.behind
          linarith
        unfold reportedFees at hadjust
        unfold FeeStore.persistStrategyFill
        simp only [hdelta, if_neg hfresh, le_refl, if_true, if_pos hknown, hadjust]
        simp only [liftFill, adjustedFee, reportedFees]
      | stream =>
        unfold FeeStore.projectPendingOrder
        simp only [hevent, hfees, if_neg hzero, if_pos hknown, hadjust]
        simp only [liftFill, adjustedFee]
  · unfold FeeStore.post
    cases howner : order.owner with
    | gridOrder =>
      have hfresh : ¬ quantity + 1 / 10 ^ 12 < store.filledQuantity := by
        have := h.observed
        linarith
      refine ⟨max store.filledQuantity quantity, max_le h.observed le_rfl, Or.inr ⟨hknown, ?_⟩⟩
      unfold FeeStore.projectGrid
      simp only [hevent, if_neg hfresh, if_pos hsmall, if_neg hknown]
    | pendingOrder =>
      refine ⟨store.filledQuantity, h.observed, Or.inr ⟨hknown, ?_⟩⟩
      cases channel with
      | rest =>
        have hfresh : ¬ quantity + 1 / 10 ^ 12 < store.postedQuantity := by
          have := h.behind
          linarith
        unfold FeeStore.persistStrategyFill
        simp only [hdelta, if_neg hfresh, le_refl, if_true, if_neg hknown]
      | stream =>
        unfold FeeStore.projectPendingOrder
        simp only [hevent, hfees, if_neg hzero, if_neg hknown]
        by_cases hentries : (reportedFees store ⟨quantity, value / quantity, fees⟩).entries = []
        · simp only [if_neg (not_not.mpr hentries)]
        · simp only [if_pos hentries]

end Report

/-! ## The inventory -/

/-- The base fee that a fill takes off: only on a spot market. -/
def baseFeeAtFill (order : FeeOrder) (fees : Fees) : Amount :=
  if lower (strip order.marketType) = "spot" then feeIn fees (symbolCurrencies order.symbol).1
  else 0

def lateBaseFee (order : FeeOrder) (fees : Fees) : Amount :=
  feeIn fees (symbolCurrencies order.rowSymbol).1

/-- The direction in which a signal moves its leg. -/
def flow (signal : SignalType) : Amount := if signal.opens then 1 else -1

/-- The orders in question: long ones on a spot or a crypto market. -/
structure SpotOrCrypto (order : FeeOrder) : Prop where
  market : order.marketType = "spot" ∨ order.marketType = "crypto"
  long : order.signal.side = .long

/-- A fill hits no zero clamp: a buy pays its base fee out of its quantity, and a sale out of the
leg. -/
def FillUnclamped (order : FeeOrder) (size gross : Amount) (fees : Fees) : Prop :=
  if order.signal.opens then baseFeeAtFill order fees ≤ gross
  else 0 ≤ gross + baseFeeAtFill order fees ∧ gross + baseFeeAtFill order fees ≤ size

instance (order : FeeOrder) (size gross : Amount) (fees : Fees) :
    Decidable (FillUnclamped order size gross fees) := by
  unfold FillUnclamped
  infer_instance

/-- An adjustment hits no zero clamp: it finds a leg that can pay. -/
def AdjustUnclamped (order : FeeOrder) (store : FeeStore) (fees : Fees) : Prop :=
  lateBaseFee order fees = 0 ∨ (store.leg.isSome = true ∧ lateBaseFee order fees ≤ store.size)

instance (order : FeeOrder) (store : FeeStore) (fees : Fees) :
    Decidable (AdjustUnclamped order store fees) :=
  inferInstanceAs (Decidable (_ ∨ _))

def Unclamped (order : FeeOrder) (store : FeeStore) (report : FeeReport) : Prop :=
  if PostsFill store.postedQuantity report.cumulative then
    FillUnclamped order store.size (report.cumulative - store.postedQuantity)
      (reportedFees store report)
  else 0 < store.postedQuantity → AdjustUnclamped order store (reportedFees store report)

instance (order : FeeOrder) (store : FeeStore) (report : FeeReport) :
    Decidable (Unclamped order store report) := by
  unfold Unclamped
  infer_instance

theorem spotPositionFillQuantity_unclamped {order : FeeOrder} (hlong : order.signal.side = .long)
    {size gross : Amount} {fees : Fees} (hgross : 0 < gross)
    (h : FillUnclamped order size gross fees) :
    spotPositionFillQuantity order.marketType order.symbol order.signal gross fees =
      gross - flow order.signal * baseFeeAtFill order fees := by
  have hmax : max 0 gross = gross := max_eq_right hgross.le
  unfold spotPositionFillQuantity
  unfold FillUnclamped baseFeeAtFill at h
  unfold baseFeeAtFill
  by_cases hspot : lower (strip order.marketType) = "spot"
  · simp only [hspot, hmax, if_true, ne_eq, not_true, if_false] at h ⊢
    cases hsignal : order.signal with
    | openLong =>
      simp only [hsignal, SignalType.opens, if_true, flow, one_mul] at h ⊢
      exact max_eq_right (sub_nonneg.mpr h)
    | addLong =>
      simp only [hsignal, SignalType.opens, if_true, flow, one_mul] at h ⊢
      exact max_eq_right (sub_nonneg.mpr h)
    | closeLong => simp [SignalType.opens, flow]
    | reduceLong => simp [SignalType.opens, flow]
    | openShort => simp [hsignal, SignalType.side] at hlong
    | addShort => simp [hsignal, SignalType.side] at hlong
    | closeShort => simp [hsignal, SignalType.side] at hlong
    | reduceShort => simp [hsignal, SignalType.side] at hlong
  · simp [hspot, hmax]

theorem size_applyToRow (row : Option LegPosition) (signal : SignalType) {filled price : Amount}
    (hfilled : 0 ≤ filled) (hprice : 0 < price)
    (h : signal.opens = false → filled ≤ (row.getD {}).size) :
    ((applyToRow row signal filled price).getD {}).size =
      (row.getD {}).size + flow signal * filled := by
  unfold applyToRow
  rcases hfilled.eq_or_lt with rfl | hpos
  · simp
  · have hgoes : ¬ (filled ≤ 0 ∨ price ≤ 0) := not_or.mpr ⟨not_le.mpr hpos, not_le.mpr hprice⟩
    rw [if_neg hgoes]
    unfold LegPosition.applyFill flow
    simp only [if_neg hgoes]
    by_cases hopens : signal.opens = true
    · simp [hopens, LegPosition.openBy]
    · have hcloses : signal.opens = false := by simpa using hopens
      have hcovered := h hcloses
      simp only [hcloses, Bool.false_eq_true, if_false, true_and, LegPosition.closeBy]
      by_cases hused : (row.getD {}).size - filled ≤ 0
      · simp only [if_pos hused, le_refl, if_true]
        show (0 : Amount) = _
        linarith
      · simp only [if_neg hused]
        rw [Option.getD_some]
        ring

theorem size_recordedFill {order : FeeOrder} (hlong : order.signal.side = .long)
    {store : FeeStore} {gross price : Amount} {fees : Fees} (hgross : 0 < gross) (hprice : 0 < price)
    (h : FillUnclamped order store.size gross fees) :
    (recordedFill store order gross price fees).size =
      store.size + flow order.signal * gross - baseFeeAtFill order fees := by
  have hquantity := spotPositionFillQuantity_unclamped hlong hgross h
  unfold FeeStore.size at h ⊢
  unfold recordedFill
  simp only [hquantity]
  by_cases hopens : order.signal.opens = true
  · have hflow : flow order.signal = 1 := if_pos hopens
    unfold FillUnclamped at h
    rw [if_pos hopens] at h
    rw [size_applyToRow _ _ (by rw [hflow]; linarith) hprice (by simp [hopens]), hflow]
    ring
  · have hflow : flow order.signal = -1 := if_neg hopens
    unfold FillUnclamped at h
    rw [if_neg hopens] at h
    have hcovered : gross - flow order.signal * baseFeeAtFill order fees ≤
        (store.leg.getD {}).size := by
      rw [hflow]
      linarith [h.2]
    rw [size_applyToRow _ _ (by rw [hflow]; linarith [h.1]) hprice (fun _ => hcovered), hflow]
    ring

theorem lower_rowMarketType {order : FeeOrder} (h : SpotOrCrypto order) :
    lower order.rowMarketType ∈ ["spot", "crypto"] := by
  unfold FeeOrder.rowMarketType
  by_cases halpaca : lower (strip order.exchangeId) = "alpaca"
  · rw [if_pos halpaca]
    decide
  · rw [if_neg halpaca]
    rcases h.market with hmarket | hmarket
    · rw [hmarket]
      decide
    · rw [hmarket]
      decide

theorem size_adjustedFee {order : FeeOrder} (horder : SpotOrCrypto order) {store : FeeStore}
    {trade : FeeTrade} {fees : Fees}
    (hrow : trade.symbol = order.rowSymbol ∧ trade.marketType = order.rowMarketType)
    (h : AdjustUnclamped order store fees) :
    (adjustedFee store trade fees).size = store.size - lateBaseFee order fees := by
  have hmarket : lower trade.marketType ∈ ["spot", "crypto"] := hrow.2 ▸ lower_rowMarketType horder
  have hfee : feeIn fees (symbolCurrencies trade.symbol).1 = lateBaseFee order fees := by
    unfold lateBaseFee
    rw [hrow.1]
  unfold FeeStore.size adjustedFee adjustLeg
  simp only [if_pos hmarket, hfee]
  by_cases hzero : lateBaseFee order fees = 0
  · rw [if_pos hzero, hzero, sub_zero]
  · rw [if_neg hzero]
    obtain ⟨hsome, hcovered⟩ := h.resolve_left hzero
    obtain ⟨leg, hleg⟩ := Option.isSome_iff_exists.mp hsome
    unfold FeeStore.size at hcovered
    simp only [hleg, Option.map_some, Option.getD_some] at hcovered ⊢
    exact max_eq_right (sub_nonneg.mpr hcovered)

/-! ## One report -/

theorem sum_adjusted {trades : List FeeTrade} {trade : FeeTrade}
    (hlast : trades.getLast? = some trade) (adjusted : FeeTrade) (f : FeeTrade → Amount) :
    ((trades.dropLast ++ [adjusted]).map f).sum = (trades.map f).sum - f trade + f adjusted := by
  obtain ⟨front, rfl⟩ := List.getLast?_eq_some_iff.mp hlast
  simp only [List.dropLast_concat, List.map_append, List.sum_append, List.map_cons, List.map_nil,
    List.sum_cons, List.sum_nil]
  ring

section Effect

variable {order : FeeOrder} {quantity value : Amount} {store : FeeStore}

theorem feeIn_adjusted {trade : FeeTrade} (h : SoundTrade trade) (fees : Fees) (currency : String) :
    feeIn (trade.adjusted fees).commissionBreakdown currency =
      feeIn trade.commissionBreakdown currency + feeIn fees currency := by
  show feeIn (addFees trade.previousFees fees) currency = _
  rw [feeIn_addFees, feeIn_previousFees h]

theorem posted_recorded (hmore : store.postedQuantity < quantity) {next : FeeStore} {fees : Fees}
    (htrades : next.trades = store.trades ++ [order.recordTrade (quantity - store.postedQuantity)
      (unpostedPrice store quantity value) fees]) :
    next.postedQuantity = quantity ∧ next.postedValue = value := by
  have hlastQuantity : (order.recordTrade (quantity - store.postedQuantity)
      (unpostedPrice store quantity value) fees).amount = quantity - store.postedQuantity := rfl
  have hlastPrice : (order.recordTrade (quantity - store.postedQuantity)
      (unpostedPrice store quantity value) fees).price = unpostedPrice store quantity value := rfl
  constructor
  · have hquantity : next.postedQuantity = store.postedQuantity + (order.recordTrade
        (quantity - store.postedQuantity) (unpostedPrice store quantity value) fees).amount := by
      rw [FeeStore.postedQuantity, htrades, List.map_append, List.sum_append, List.map_cons,
        List.map_nil, List.sum_singleton]
      rfl
    rw [hquantity, hlastQuantity, add_sub_cancel]
  · have hvalue : next.postedValue = store.postedValue + (order.recordTrade
        (quantity - store.postedQuantity) (unpostedPrice store quantity value) fees).amount *
        (order.recordTrade (quantity - store.postedQuantity) (unpostedPrice store quantity value)
          fees).price := by
      unfold FeeStore.postedValue
      rw [htrades, List.map_append, List.sum_append, List.map_cons, List.map_nil,
        List.sum_singleton]
    rw [hvalue, hlastQuantity, hlastPrice]
    unfold unpostedPrice
    rw [mul_div_cancel₀ _ (sub_pos.mpr hmore).ne', add_sub_cancel]

theorem Books.recorded (h : Books order quantity value store)
    (hmore : store.postedQuantity < quantity) (hvalue : 0 < value) {next : FeeStore} {fees : Fees}
    (htrades : next.trades = store.trades ++ [order.recordTrade (quantity - store.postedQuantity)
      (unpostedPrice store quantity value) fees]) (hobserved : next.filledQuantity ≤ quantity) :
    Books order quantity value next := by
  obtain ⟨hnextQuantity, hnextValue⟩ := posted_recorded hmore htrades
  have hpositive : 0 < quantity := lt_of_le_of_lt h.nonneg hmore
  have hmem : ∀ trade ∈ next.trades, trade ∈ store.trades ∨
      trade = order.recordTrade (quantity - store.postedQuantity)
        (unpostedPrice store quantity value) fees := by
    intro trade htrade
    rw [htrades] at htrade
    simpa using htrade
  refine ⟨?_, hnextQuantity.le, hnextValue.le, fun _ => ?_, ?_, hobserved, ?_, ?_⟩
  · rw [hnextQuantity]
    exact hpositive.le
  · rw [hnextValue]
    exact hvalue
  · intro hnone
    exact absurd (hnextQuantity.symm.trans hnone) hpositive.ne'
  · intro trade htrade
    rcases hmem trade htrade with hold | rfl
    · exact h.sound trade hold
    · exact soundTrade_recordTrade order _ _ fees
  · intro trade htrade
    rcases hmem trade htrade with hold | rfl
    · exact h.rows trade hold
    · simp only [FeeOrder.recordTrade, and_self]

theorem Books.adjusted (h : Books order quantity value store) {trade : FeeTrade}
    (hlast : store.trades.getLast? = some trade) {next : FeeStore} {fees : Fees}
    (htrades : next.trades = store.trades.dropLast ++ [trade.adjusted fees])
    (hobserved : next.filledQuantity ≤ quantity) :
    Books order quantity value next ∧ next.postedQuantity = store.postedQuantity := by
  have hmem : trade ∈ store.trades := List.mem_of_getLast? hlast
  have hquantity : next.postedQuantity = store.postedQuantity := by
    unfold FeeStore.postedQuantity
    rw [htrades, sum_adjusted hlast]
    exact sub_add_cancel _ _
  have hvalue : next.postedValue = store.postedValue := by
    unfold FeeStore.postedValue
    rw [htrades, sum_adjusted hlast]
    exact sub_add_cancel _ _
  have hfront : ∀ other ∈ next.trades, other ∈ store.trades ∨ other = trade.adjusted fees := by
    intro other hother
    rw [htrades] at hother
    rcases List.mem_append.mp hother with hold | hnew
    · exact Or.inl (List.mem_of_mem_dropLast hold)
    · exact Or.inr (List.mem_singleton.mp hnew)
  refine ⟨⟨?_, ?_, ?_, ?_, ?_, hobserved, ?_, ?_⟩, hquantity⟩
  · rw [hquantity]
    exact h.nonneg
  · rw [hquantity]
    exact h.behind
  · rw [hvalue]
    exact h.value
  · rw [hquantity, hvalue]
    exact h.priced
  · intro hnone
    have hempty := h.started (hquantity.symm.trans hnone)
    rw [hempty] at hmem
    exact nomatch hmem
  · intro other hother
    rcases hfront other hother with hold | rfl
    · exact h.sound other hold
    · exact soundTrade_adjusted trade fees
  · intro other hother
    rcases hfront other hother with hold | rfl
    · exact h.rows other hold
    · exact h.rows trade hmem

/-- The fees that a report brings into the books: those of a posted fill, and all of them once
something is posted. -/
def countedFee (store : FeeStore) (quantity : Amount) (fees : Fees) (currency : String) : Amount :=
  if PostsFill store.postedQuantity quantity ∨ 0 < store.postedQuantity then feeIn fees currency
  else 0

/-- What one report does to the posted quantity, to the leg and to the posted fees. -/
structure ReportEffect (order : FeeOrder) (store : FeeStore) (quantity : Amount) (fees : Fees)
    (next : FeeStore) : Prop where
  posted : next.postedQuantity =
    if PostsFill store.postedQuantity quantity then quantity else store.postedQuantity
  size : next.size = store.size +
    flow order.signal * (next.postedQuantity - store.postedQuantity) -
      if PostsFill store.postedQuantity quantity then baseFeeAtFill order fees
      else countedFee store quantity fees (symbolCurrencies order.rowSymbol).1
  fees : ∀ currency, feeIn next.postedFees currency =
    feeIn store.postedFees currency + countedFee store quantity fees currency

theorem feeIn_postedFees_recorded (h : Books order quantity value store) {next : FeeStore}
    (hsound : ∀ trade ∈ next.trades, SoundTrade trade) {filled price : Amount} {fees : Fees}
    (htrades : next.trades = store.trades ++ [order.recordTrade filled price fees])
    (currency : String) :
    feeIn next.postedFees currency = feeIn store.postedFees currency + feeIn fees currency := by
  rw [feeIn_postedFees hsound, feeIn_postedFees h.sound, htrades, List.map_append, List.sum_append,
    List.map_cons, List.map_nil, List.sum_singleton]
  rfl

theorem feeIn_postedFees_adjusted (h : Books order quantity value store) {next : FeeStore}
    (hsound : ∀ trade ∈ next.trades, SoundTrade trade) {trade : FeeTrade} {fees : Fees}
    (hlast : store.trades.getLast? = some trade)
    (htrades : next.trades = store.trades.dropLast ++ [trade.adjusted fees]) (currency : String) :
    feeIn next.postedFees currency = feeIn store.postedFees currency + feeIn fees currency := by
  have hadjusted := feeIn_adjusted (h.sound trade (List.mem_of_getLast? hlast)) fees currency
  rw [feeIn_postedFees hsound, feeIn_postedFees h.sound, htrades, sum_adjusted hlast, hadjusted]
  ring

theorem PostsFill.lt {posted total : Amount} (h : PostsFill posted total) : posted < total := by
  have : 0 < quantityTolerance posted total := lt_of_lt_of_le (by norm_num) (le_max_left _ _)
  unfold PostsFill at h
  linarith

theorem post_effect (horder : SpotOrCrypto order) (h : Books order quantity value store)
    (hquantity : 0 < quantity) (hvalue : 0 < value)
    (hgrown : PostsFill store.postedQuantity quantity → store.postedValue < value)
    (channel : ReportChannel) (fees : Option Fees)
    (hfree : Unclamped order store ⟨quantity, value / quantity, fees⟩) :
    Books order quantity value (store.post order channel ⟨quantity, value / quantity, fees⟩) ∧
      ReportEffect order store quantity
        (reportedFees store ⟨quantity, value / quantity, fees⟩)
        (store.post order channel ⟨quantity, value / quantity, fees⟩) := by
  unfold Unclamped at hfree
  by_cases hposts : PostsFill store.postedQuantity quantity
  · -- the fill is recorded with the fees of the report
    have hmore := hposts.lt
    obtain ⟨observed, hobserved, hnext⟩ := post_posts h hquantity hvalue (hgrown hposts) hposts
      channel fees
    rw [if_pos hposts] at hfree
    have hprice := (delta_posts h hquantity hvalue (hgrown hposts) hposts).2.2
    have hsize := size_recordedFill horder.long (sub_pos.mpr hmore) hprice hfree
    generalize store.post order channel ⟨quantity, value / quantity, fees⟩ = next at hnext ⊢
    generalize reportedFees store ⟨quantity, value / quantity, fees⟩ = reported at hnext hsize ⊢
    have htrades : next.trades = store.trades ++ [order.recordTrade
        (quantity - store.postedQuantity) (unpostedPrice store quantity value) reported] := by
      rw [hnext]
      simp only [recordedFill]
    have hfilled : next.filledQuantity ≤ quantity := by
      rw [hnext]
      exact hobserved
    have hbooks := h.recorded hmore hvalue htrades hfilled
    have hposted := (posted_recorded hmore htrades).1
    refine ⟨hbooks, ?_, ?_, ?_⟩
    · rw [if_pos hposts, hposted]
    · have hleg : next.size = (recordedFill store order (quantity - store.postedQuantity)
          (unpostedPrice store quantity value) reported).size := by
        rw [hnext]
        simp only [FeeStore.size]
      rw [if_pos hposts, hposted, hleg, hsize]
    · intro currency
      unfold countedFee
      rw [if_pos (Or.inl hposts), feeIn_postedFees_recorded h hbooks.sound htrades]
  · rw [if_neg hposts] at hfree
    obtain ⟨observed, hobserved, ⟨hposted, -, trade, hlast, hnext⟩ | ⟨hunknown, hnext⟩⟩ :=
      post_tolerated h hquantity hvalue hposts channel fees
    · -- the fees of the report are taken off late
      have hsize := size_adjustedFee horder (h.rows trade (List.mem_of_getLast? hlast))
        (hfree hposted)
      generalize store.post order channel ⟨quantity, value / quantity, fees⟩ = next at hnext ⊢
      generalize reportedFees store ⟨quantity, value / quantity, fees⟩ = reported at hnext hsize ⊢
      have htrades : next.trades = store.trades.dropLast ++ [trade.adjusted reported] := by
        rw [hnext]
        simp only [adjustedFee]
      have hfilled : next.filledQuantity ≤ quantity := by
        rw [hnext]
        exact hobserved
      obtain ⟨hbooks, hsame⟩ := h.adjusted hlast htrades hfilled
      refine ⟨hbooks, ?_, ?_, ?_⟩
      · rw [if_neg hposts, hsame]
      · have hleg : next.size = (adjustedFee store trade reported).size := by
          rw [hnext]
          simp only [FeeStore.size]
        unfold countedFee
        rw [if_neg hposts, if_pos (Or.inr hposted), hsame, hleg, hsize]
        unfold lateBaseFee
        ring
      · intro currency
        unfold countedFee
        rw [if_pos (Or.inr hposted), feeIn_postedFees_adjusted h hbooks.sound hlast htrades]
    · -- nothing is posted yet, or no fee is known
      have hnone : ∀ currency, countedFee store quantity
          (reportedFees store ⟨quantity, value / quantity, fees⟩) currency = 0 := by
        intro currency
        unfold countedFee
        by_cases hposted : 0 < store.postedQuantity
        · have hfees : fees = none := by
            cases hfees : fees with
            | none => rfl
            | some known => exact absurd ⟨hposted, by simp [hfees]⟩ hunknown
          rw [if_pos (Or.inr hposted), hfees]
          rfl
        · rw [if_neg (not_or.mpr ⟨hposts, hposted⟩)]
      rw [hnext]
      refine ⟨⟨h.nonneg, h.behind, h.value, h.priced, h.started, hobserved, h.sound, h.rows⟩,
        ?_, ?_, ?_⟩
      · rw [if_neg hposts]
        rfl
      · rw [if_neg hposts, hnone]
        show store.size = store.size + flow order.signal *
          (store.postedQuantity - store.postedQuantity) - 0
        ring
      · intro currency
        rw [hnone, add_zero]
        rfl

end Effect

/-! ## Schedules -/

/-- A fill of an order, and its cumulative fees after it. -/
structure OrderFill where
  quantity : Amount
  price : Amount
  fees : Fees
  channel : ReportChannel := .rest

/-- The transaction of a report with its channel. -/
def postReport (order : FeeOrder) (store : FeeStore) (report : ReportChannel × FeeReport) :
    FeeStore :=
  store.post order report.1 report.2

/-- The reports of the fills after a quantity and a value, with the fees that come with them. -/
def fillReports (reported : OrderFill → Option Fees) : Amount → Amount → List OrderFill →
    List (ReportChannel × FeeReport)
  | _, _, [] => []
  | quantity, value, fill :: rest =>
    (fill.channel, ⟨quantity + fill.quantity,
      (value + fill.quantity * fill.price) / (quantity + fill.quantity), reported fill⟩) ::
      fillReports reported (quantity + fill.quantity) (value + fill.quantity * fill.price) rest

def atOnce (fill : OrderFill) : Option Fees := some fill.fees

def notYet (_ : OrderFill) : Option Fees := none

def filledTotal (fills : List OrderFill) : Amount := (fills.map OrderFill.quantity).sum

def filledValue (fills : List OrderFill) : Amount :=
  (fills.map fun fill => fill.quantity * fill.price).sum

def lateReports (quantity value : Amount) (late : List (ReportChannel × Fees)) :
    List (ReportChannel × FeeReport) :=
  late.map fun report => (report.1, ⟨quantity, value / quantity, some report.2⟩)

def RunUnclamped (order : FeeOrder) : FeeStore → List (ReportChannel × FeeReport) → Prop :=
  Along (postReport order) fun store report => Unclamped order store report.2

instance (order : FeeOrder) (store : FeeStore) (reports : List (ReportChannel × FeeReport)) :
    Decidable (RunUnclamped order store reports) :=
  inferInstanceAs (Decidable (Along _ _ _ _))

def postedAfter : Amount → Amount → List OrderFill → Amount
  | posted, _, [] => posted
  | posted, quantity, fill :: rest =>
    postedAfter (if PostsFill posted (quantity + fill.quantity) then quantity + fill.quantity
      else posted) (quantity + fill.quantity) rest

/-- The fees in a currency that come with the posted fills. -/
def attachedFee (currency : String) : Amount → Amount → Amount → List OrderFill → Amount
  | _, _, _, [] => 0
  | posted, quantity, before, fill :: rest =>
    if PostsFill posted (quantity + fill.quantity) then
      feeIn fill.fees currency - before + attachedFee currency (quantity + fill.quantity)
        (quantity + fill.quantity) (feeIn fill.fees currency) rest
    else attachedFee currency posted (quantity + fill.quantity)
      (if 0 < posted then feeIn fill.fees currency else before) rest

section Runs

variable {order : FeeOrder}

theorem Books.mono {quantity value more higher : Amount} {store : FeeStore}
    (h : Books order quantity value store) (hmore : quantity ≤ more) (hhigher : value ≤ higher) :
    Books order more higher store :=
  ⟨h.nonneg, h.behind.trans hmore, h.value.trans hhigher, h.priced, h.started,
    h.observed.trans hmore, h.sound, h.rows⟩

theorem Books.value_nonneg {quantity value : Amount} {store : FeeStore}
    (h : Books order quantity value store) : 0 ≤ value := by
  refine le_trans ?_ h.value
  rcases h.nonneg.eq_or_lt with hnone | hposted
  · unfold FeeStore.postedValue
    rw [h.started hnone.symm]
    exact le_rfl
  · exact (h.priced hposted).le

theorem Books.before_fill {quantity value : Amount} {store : FeeStore}
    (h : Books order quantity value store) {fill : OrderFill}
    (hfill : 0 < fill.quantity ∧ 0 < fill.price) :
    Books order (quantity + fill.quantity) (value + fill.quantity * fill.price) store ∧
      0 < quantity + fill.quantity ∧ 0 < value + fill.quantity * fill.price ∧
      store.postedValue < value + fill.quantity * fill.price := by
  have hvalue := mul_pos hfill.1 hfill.2
  have hbehind := h.nonneg.trans h.behind
  have hpaid := h.value_nonneg
  have hposted := h.value
  refine ⟨h.mono ?_ ?_, ?_, ?_, ?_⟩
  · linarith [hfill.1]
  · linarith
  · linarith [hfill.1]
  · linarith
  · linarith

theorem feeIn_reportedFees (store : FeeStore) (quantity average : Amount) (fees : Fees)
    (currency : String) :
    feeIn (reportedFees store ⟨quantity, average, some fees⟩) currency =
      feeIn fees currency - feeIn store.postedFees currency :=
  feeIn_unpostedFees fees store.postedFees currency

theorem ReportEffect.known {store next : FeeStore} {quantity average : Amount} {fees : Fees}
    (h : ReportEffect order store quantity
      (reportedFees store ⟨quantity, average, some fees⟩) next) (currency : String) :
    feeIn next.postedFees currency =
      if PostsFill store.postedQuantity quantity ∨ 0 < store.postedQuantity
      then feeIn fees currency else feeIn store.postedFees currency := by
  rw [h.fees, countedFee]
  by_cases hcounted : PostsFill store.postedQuantity quantity ∨ 0 < store.postedQuantity
  · rw [if_pos hcounted, if_pos hcounted, feeIn_reportedFees]
    ring
  · rw [if_neg hcounted, if_neg hcounted, add_zero]

/-- What the fills leave behind that have come without their fees. -/
structure FilledOnly (order : FeeOrder) (quantity value : Amount) (fills : List OrderFill)
    (store next : FeeStore) : Prop where
  books : Books order (quantity + filledTotal fills) (value + filledValue fills) next
  posted : next.postedQuantity = postedAfter store.postedQuantity quantity fills
  size : next.size = store.size +
    flow order.signal * (next.postedQuantity - store.postedQuantity)
  fees : ∀ currency, feeIn next.postedFees currency = feeIn store.postedFees currency

theorem filledTotal_cons (fill : OrderFill) (fills : List OrderFill) :
    filledTotal (fill :: fills) = fill.quantity + filledTotal fills := by
  simp [filledTotal]

theorem filledValue_cons (fill : OrderFill) (fills : List OrderFill) :
    filledValue (fill :: fills) = fill.quantity * fill.price + filledValue fills := by
  simp [filledValue]

theorem run_filledOnly (horder : SpotOrCrypto order) {fills : List OrderFill}
    (hfills : ∀ fill ∈ fills, 0 < fill.quantity ∧ 0 < fill.price) {quantity value : Amount}
    {store : FeeStore} (h : Books order quantity value store)
    (hfree : RunUnclamped order store (fillReports notYet quantity value fills)) :
    FilledOnly order quantity value fills store
      (runActions (postReport order) store (fillReports notYet quantity value fills)) := by
  induction fills generalizing quantity value store with
  | nil =>
    refine ⟨?_, rfl, ?_, fun _ => rfl⟩
    · show Books order (quantity + 0) (value + 0) store
      rw [add_zero, add_zero]
      exact h
    · show store.size = store.size + _ * (store.postedQuantity - store.postedQuantity)
      ring
  | cons fill rest ih =>
    obtain ⟨hbooks, hquantity, hvalue, hgrown⟩ := h.before_fill (hfills fill List.mem_cons_self)
    obtain ⟨hnext, heffect⟩ := post_effect horder hbooks hquantity hvalue (fun _ => hgrown)
      fill.channel none hfree.1
    have hlater := ih (fun other hother => hfills other (List.mem_cons_of_mem _ hother)) hnext
      hfree.2
    have hnone : ∀ currency, countedFee store (quantity + fill.quantity) Dict.empty currency = 0 :=
      fun _ => ite_self 0
    have hatFill : baseFeeAtFill order Dict.empty = 0 := ite_self 0
    have hreported : reportedFees store ⟨quantity + fill.quantity,
        (value + fill.quantity * fill.price) / (quantity + fill.quantity), none⟩ = Dict.empty := rfl
    have hsize := heffect.size
    rw [hreported, hnone, hatFill, ite_self, sub_zero] at hsize
    show FilledOnly order quantity value (fill :: rest) store (runActions (postReport order)
      (store.post order fill.channel ⟨quantity + fill.quantity,
        (value + fill.quantity * fill.price) / (quantity + fill.quantity), none⟩)
      (fillReports notYet (quantity + fill.quantity) (value + fill.quantity * fill.price) rest))
    generalize runActions (postReport order) (store.post order fill.channel
      ⟨quantity + fill.quantity, (value + fill.quantity * fill.price) / (quantity + fill.quantity),
        none⟩) (fillReports notYet (quantity + fill.quantity)
          (value + fill.quantity * fill.price) rest) = final at hlater ⊢
    refine ⟨?_, ?_, ?_, ?_⟩
    · rw [filledTotal_cons, filledValue_cons, ← add_assoc, ← add_assoc]
      exact hlater.books
    · rw [postedAfter, ← heffect.posted]
      exact hlater.posted
    · rw [hlater.size, hsize]
      ring
    · intro currency
      rw [hlater.fees currency, heffect.fees, hreported, hnone, add_zero]

/-- The base fees of the posted fills that a fill takes off: only on a spot market. -/
def takenAtFill (order : FeeOrder) (store : FeeStore) (quantity : Amount) (fills : List OrderFill) :
    Amount :=
  if lower (strip order.marketType) = "spot" then
    attachedFee (symbolCurrencies order.symbol).1 store.postedQuantity quantity
      (feeIn store.postedFees (symbolCurrencies order.symbol).1) fills
  else 0

/-- The base fees of the posted fills, in the currency an adjustment looks for. -/
def attachedBaseFee (order : FeeOrder) (store : FeeStore) (quantity : Amount)
    (fills : List OrderFill) : Amount :=
  attachedFee (symbolCurrencies order.rowSymbol).1 store.postedQuantity quantity
    (feeIn store.postedFees (symbolCurrencies order.rowSymbol).1) fills

/-- What the fills leave behind that have come with their fees. -/
structure FilledWithFees (order : FeeOrder) (quantity value : Amount) (fills : List OrderFill)
    (store next : FeeStore) : Prop where
  books : Books order (quantity + filledTotal fills) (value + filledValue fills) next
  posted : next.postedQuantity = postedAfter store.postedQuantity quantity fills
  size : next.size = store.size +
    flow order.signal * (next.postedQuantity - store.postedQuantity) -
      takenAtFill order store quantity fills -
      (feeIn next.postedFees (symbolCurrencies order.rowSymbol).1 -
        feeIn store.postedFees (symbolCurrencies order.rowSymbol).1 -
        attachedBaseFee order store quantity fills)
  fees : ∀ hfills : fills ≠ [], 0 < next.postedQuantity → ∀ currency,
    feeIn next.postedFees currency = feeIn (fills.getLast hfills).fees currency

theorem attachedFee_cons {store next : FeeStore} {quantity average : Amount} {fill : OrderFill}
    {rest : List OrderFill}
    (h : ReportEffect order store (quantity + fill.quantity)
      (reportedFees store ⟨quantity + fill.quantity, average, some fill.fees⟩) next)
    (currency : String) :
    attachedFee currency store.postedQuantity quantity (feeIn store.postedFees currency)
        (fill :: rest) =
      (if PostsFill store.postedQuantity (quantity + fill.quantity)
        then feeIn fill.fees currency - feeIn store.postedFees currency else 0) +
      attachedFee currency next.postedQuantity (quantity + fill.quantity)
        (feeIn next.postedFees currency) rest := by
  rw [attachedFee, h.posted, h.known]
  by_cases hposts : PostsFill store.postedQuantity (quantity + fill.quantity)
  · simp only [if_pos hposts, if_pos (Or.inl hposts)]
  · simp only [hposts, if_false, false_or, zero_add]

theorem takenAtFill_cons {store next : FeeStore} {quantity average : Amount} {fill : OrderFill}
    {rest : List OrderFill}
    (h : ReportEffect order store (quantity + fill.quantity)
      (reportedFees store ⟨quantity + fill.quantity, average, some fill.fees⟩) next) :
    takenAtFill order store quantity (fill :: rest) =
      (if PostsFill store.postedQuantity (quantity + fill.quantity) then
        baseFeeAtFill order (reportedFees store
          ⟨quantity + fill.quantity, average, some fill.fees⟩) else 0) +
      takenAtFill order next (quantity + fill.quantity) rest := by
  unfold takenAtFill baseFeeAtFill
  rw [feeIn_reportedFees]
  by_cases hspot : lower (strip order.marketType) = "spot"
  · simp only [if_pos hspot]
    exact attachedFee_cons h _
  · simp only [if_neg hspot, ite_self, add_zero]

theorem run_filledWithFees (horder : SpotOrCrypto order) {fills : List OrderFill}
    (hfills : ∀ fill ∈ fills, 0 < fill.quantity ∧ 0 < fill.price) {quantity value : Amount}
    {store : FeeStore} (h : Books order quantity value store)
    (hfree : RunUnclamped order store (fillReports atOnce quantity value fills)) :
    FilledWithFees order quantity value fills store
      (runActions (postReport order) store (fillReports atOnce quantity value fills)) := by
  induction fills generalizing quantity value store with
  | nil =>
    refine ⟨?_, rfl, ?_, fun hnil => absurd rfl hnil⟩
    · show Books order (quantity + 0) (value + 0) store
      rw [add_zero, add_zero]
      exact h
    · show store.size = store.size + _ * (store.postedQuantity - store.postedQuantity) -
        (if _ then 0 else 0) - (feeIn store.postedFees _ - feeIn store.postedFees _ - 0)
      rw [ite_self]
      ring
  | cons fill rest ih =>
    obtain ⟨hbooks, hquantity, hvalue, hgrown⟩ := h.before_fill (hfills fill List.mem_cons_self)
    obtain ⟨hnext, heffect⟩ := post_effect horder hbooks hquantity hvalue (fun _ => hgrown)
      fill.channel (some fill.fees) hfree.1
    have hlater := ih (fun other hother => hfills other (List.mem_cons_of_mem _ hother)) hnext
      hfree.2
    show FilledWithFees order quantity value (fill :: rest) store (runActions (postReport order)
      (store.post order fill.channel ⟨quantity + fill.quantity,
        (value + fill.quantity * fill.price) / (quantity + fill.quantity), some fill.fees⟩)
      (fillReports atOnce (quantity + fill.quantity) (value + fill.quantity * fill.price) rest))
    generalize hfinal : runActions (postReport order) (store.post order fill.channel
      ⟨quantity + fill.quantity, (value + fill.quantity * fill.price) / (quantity + fill.quantity),
        some fill.fees⟩) (fillReports atOnce (quantity + fill.quantity)
          (value + fill.quantity * fill.price) rest) = final at hlater ⊢
    refine ⟨?_, ?_, ?_, ?_⟩
    · rw [filledTotal_cons, filledValue_cons, ← add_assoc, ← add_assoc]
      exact hlater.books
    · rw [postedAfter, ← heffect.posted]
      exact hlater.posted
    · have hsize := heffect.size
      have hfees := heffect.fees (symbolCurrencies order.rowSymbol).1
      have hattached : attachedBaseFee order store quantity (fill :: rest) = _ :=
        attachedFee_cons heffect (symbolCurrencies order.rowSymbol).1
      rw [hlater.size, takenAtFill_cons heffect, hattached]
      unfold countedFee at hsize hfees
      unfold attachedBaseFee
      rw [feeIn_reportedFees] at hfees
      by_cases hposts : PostsFill store.postedQuantity (quantity + fill.quantity)
      · simp only [if_pos hposts, if_pos (Or.inl hposts)] at hsize hfees ⊢
        rw [hsize]
        linarith
      · simp only [if_neg hposts] at hsize ⊢
        rw [feeIn_reportedFees] at hsize
        rw [hsize]
        linarith
    · intro hcons hposted currency
      by_cases hrest : rest = []
      · subst hrest
        have hsame : final = store.post order fill.channel ⟨quantity + fill.quantity,
            (value + fill.quantity * fill.price) / (quantity + fill.quantity), some fill.fees⟩ :=
          hfinal.symm
        rw [hsame] at hposted ⊢
        rw [heffect.known]
        have hcounted : PostsFill store.postedQuantity (quantity + fill.quantity) ∨
            0 < store.postedQuantity := by
          by_cases hposts : PostsFill store.postedQuantity (quantity + fill.quantity)
          · exact Or.inl hposts
          · rw [heffect.posted, if_neg hposts] at hposted
            exact Or.inr hposted
        rw [if_pos hcounted]
        rfl
      · rw [hlater.fees hrest hposted, List.getLast_cons hrest]

/-- What the late reports leave behind. -/
structure FeesSettled (order : FeeOrder) (quantity value : Amount)
    (late : List (ReportChannel × Fees)) (store next : FeeStore) : Prop where
  books : Books order quantity value next
  posted : next.postedQuantity = store.postedQuantity
  size : next.size = store.size - (feeIn next.postedFees (symbolCurrencies order.rowSymbol).1 -
    feeIn store.postedFees (symbolCurrencies order.rowSymbol).1)
  fees : ∀ hlate : late ≠ [], 0 < store.postedQuantity → ∀ currency,
    feeIn next.postedFees currency = feeIn (late.getLast hlate).2 currency

theorem run_settled (horder : SpotOrCrypto order) {late : List (ReportChannel × Fees)}
    {quantity value : Amount} (hquantity : 0 < quantity) (hvalue : 0 < value) {store : FeeStore}
    (h : Books order quantity value store) (hrest : ¬ PostsFill store.postedQuantity quantity)
    (hfree : RunUnclamped order store (lateReports quantity value late)) :
    FeesSettled order quantity value late store
      (runActions (postReport order) store (lateReports quantity value late)) := by
  induction late generalizing store with
  | nil =>
    refine ⟨h, rfl, ?_, fun hnil => absurd rfl hnil⟩
    show store.size = store.size - (feeIn store.postedFees _ - feeIn store.postedFees _)
    ring
  | cons report others ih =>
    obtain ⟨hnext, heffect⟩ := post_effect horder h hquantity hvalue
      (fun hposts => absurd hposts hrest) report.1 (some report.2) hfree.1
    have hposted := heffect.posted
    rw [if_neg hrest] at hposted
    have hlater := ih hnext (hposted ▸ hrest) hfree.2
    show FeesSettled order quantity value (report :: others) store (runActions (postReport order)
      (store.post order report.1 ⟨quantity, value / quantity, some report.2⟩)
      (lateReports quantity value others))
    generalize hfinal : runActions (postReport order)
      (store.post order report.1 ⟨quantity, value / quantity, some report.2⟩)
      (lateReports quantity value others) = final at hlater ⊢
    refine ⟨hlater.books, hlater.posted.trans hposted, ?_, ?_⟩
    · have hsize := heffect.size
      rw [if_neg hrest, hposted, sub_self, mul_zero, add_zero] at hsize
      rw [hlater.size, hsize, heffect.fees]
      ring
    · intro hcons hsome currency
      by_cases hothers : others = []
      · subst hothers
        have hsame : final = store.post order report.1
            ⟨quantity, value / quantity, some report.2⟩ := hfinal.symm
        rw [hsame, heffect.known, if_pos (Or.inr hsome)]
        rfl
      · rw [hlater.fees hothers (hposted.symm ▸ hsome), List.getLast_cons hothers]

/-! ## The two schedules -/

/-- Two runs leave the same long leg and the same fees per currency. -/
def SameFeeBooks (store other : FeeStore) : Prop :=
  store.size = other.size ∧
    ∀ currency, feeIn store.postedFees currency = feeIn other.postedFees currency

/-- The base fees of the posted fills are taken off by the test of a fill as by the one of an
adjustment: on a spot market where the order's symbol and its canonical form have the same base
fees, and elsewhere when there are none. -/
def FeesMatched (order : FeeOrder) (fills : List OrderFill) : Prop :=
  if lower (strip order.marketType) = "spot" then
    attachedFee (symbolCurrencies order.symbol).1 0 0 0 fills =
      attachedFee (symbolCurrencies order.rowSymbol).1 0 0 0 fills
  else attachedFee (symbolCurrencies order.rowSymbol).1 0 0 0 fills = 0

instance (order : FeeOrder) (fills : List OrderFill) : Decidable (FeesMatched order fills) := by
  unfold FeesMatched
  infer_instance

theorem books_fresh (row : Option LegPosition) : Books order 0 0 { leg := row } := by
  refine ⟨le_rfl, le_rfl, le_rfl, fun h => absurd h (lt_irrefl _), fun _ => rfl, le_rfl, ?_, ?_⟩
  · intro trade hmem
    exact nomatch hmem
  · intro trade hmem
    exact nomatch hmem

theorem not_postsFill_after {fills : List OrderFill} (hfills : fills ≠ []) (posted quantity : Amount) :
    ¬ PostsFill (postedAfter posted quantity fills) (quantity + filledTotal fills) := by
  induction fills generalizing posted quantity with
  | nil => exact absurd rfl hfills
  | cons fill rest ih =>
    rw [postedAfter, filledTotal_cons, ← add_assoc]
    by_cases hrest : rest = []
    · subst hrest
      show ¬ PostsFill (if _ then _ else _) (quantity + fill.quantity + 0)
      rw [add_zero]
      by_cases hposts : PostsFill posted (quantity + fill.quantity)
      · rw [if_pos hposts]
        exact fun hagain => lt_irrefl _ hagain.lt
      · rw [if_neg hposts]
        exact hposts
    · exact ih hrest _ _

theorem feeIn_postedFees_none {quantity value : Amount} {store : FeeStore}
    (h : Books order quantity value store) (hnone : store.postedQuantity = 0) (currency : String) :
    feeIn store.postedFees currency = 0 := by
  unfold FeeStore.postedFees
  rw [h.started hnone]
  rfl

theorem filled_pos {fills : List OrderFill} (hfills : fills ≠ [])
    (hpositive : ∀ fill ∈ fills, 0 < fill.quantity ∧ 0 < fill.price) :
    0 < filledTotal fills ∧ 0 < filledValue fills := by
  induction fills with
  | nil => exact absurd rfl hfills
  | cons fill rest ih =>
    obtain ⟨hquantity, hprice⟩ := hpositive fill List.mem_cons_self
    have hvalue := mul_pos hquantity hprice
    rw [filledTotal_cons, filledValue_cons]
    by_cases hrest : rest = []
    · subst hrest
      simpa [filledTotal, filledValue] using And.intro hquantity hvalue
    · obtain ⟨hmore, hhigher⟩ := ih hrest fun other hother =>
        hpositive other (List.mem_cons_of_mem _ hother)
      exact ⟨add_pos hquantity hmore, add_pos hvalue hhigher⟩

/-- **When it does not matter that a base fee is late**: whether each cumulative fee arrives with
its fill or after the last fill, the long leg and the fees per currency are the same exactly if the
base fees of the posted fills are taken off by both tests. -/
theorem base_fee_timing (horder : SpotOrCrypto order) (row : Option LegPosition)
    {fills : List OrderFill} (hfills : fills ≠ [])
    (hpositive : ∀ fill ∈ fills, 0 < fill.quantity ∧ 0 < fill.price)
    {late : List (ReportChannel × Fees)} (hlate : late ≠ [])
    (hlast : (late.getLast hlate).2 = (fills.getLast hfills).fees)
    (honce : RunUnclamped order { leg := row } (fillReports atOnce 0 0 fills))
    (hlater : RunUnclamped order { leg := row } (fillReports notYet 0 0 fills ++
      lateReports (filledTotal fills) (filledValue fills) late)) :
    SameFeeBooks (runActions (postReport order) { leg := row } (fillReports atOnce 0 0 fills))
        (runActions (postReport order) { leg := row } (fillReports notYet 0 0 fills ++
          lateReports (filledTotal fills) (filledValue fills) late)) ↔
      FeesMatched order fills := by
  obtain ⟨hfilling, hsettling⟩ := along_append.mp hlater
  have hrun : runActions (postReport order) { leg := row } (fillReports notYet 0 0 fills ++
      lateReports (filledTotal fills) (filledValue fills) late) =
    runActions (postReport order) (runActions (postReport order) { leg := row }
      (fillReports notYet 0 0 fills)) (lateReports (filledTotal fills) (filledValue fills) late) :=
    List.foldl_append
  have hwith := run_filledWithFees horder hpositive (books_fresh row) honce
  have honly := run_filledOnly horder hpositive (books_fresh row) hfilling
  have hbooks := honly.books
  have hdone := not_postsFill_after hfills 0 0
  rw [zero_add] at hdone
  rw [zero_add, zero_add] at hbooks
  obtain ⟨hquantity, hvalue⟩ := filled_pos hfills hpositive
  have hrest : ¬ PostsFill (runActions (postReport order) { leg := row }
      (fillReports notYet 0 0 fills)).postedQuantity (filledTotal fills) := by
    rw [honly.posted]
    exact hdone
  have hsettled := run_settled horder hquantity hvalue hbooks hrest hsettling
  rw [hrun]
  generalize runActions (postReport order) { leg := row } (fillReports atOnce 0 0 fills) = once
    at hwith ⊢
  generalize runActions (postReport order) { leg := row } (fillReports notYet 0 0 fills) = filled
    at honly hsettled ⊢
  generalize runActions (postReport order) filled
    (lateReports (filledTotal fills) (filledValue fills) late) = settled at hsettled ⊢
  have hsame : settled.postedQuantity = once.postedQuantity :=
    hsettled.posted.trans (honly.posted.trans hwith.posted.symm)
  have hfees : ∀ currency, feeIn once.postedFees currency = feeIn settled.postedFees currency := by
    intro currency
    rcases hwith.books.nonneg.eq_or_lt with hnone | hposted
    · rw [feeIn_postedFees_none hwith.books hnone.symm,
        feeIn_postedFees_none hsettled.books (hsame.trans hnone.symm)]
    · have hposted' : 0 < filled.postedQuantity := by
        rw [← hsettled.posted, hsame]
        exact hposted
      rw [hwith.fees hfills hposted, hsettled.fees hlate hposted', hlast]
  have hstart : ∀ currency, feeIn filled.postedFees currency = 0 := honly.fees
  have honce := hwith.size
  have hlate := hsettled.size
  rw [honly.size, hstart, ← hfees, ← hsettled.posted, hsame] at hlate
  have htaken : takenAtFill order { leg := row } 0 fills = attachedBaseFee order { leg := row } 0 fills ↔
      FeesMatched order fills := by
    unfold takenAtFill attachedBaseFee FeesMatched
    by_cases hspot : lower (strip order.marketType) = "spot"
    · rw [if_pos hspot, if_pos hspot]
      exact Iff.rfl
    · rw [if_neg hspot, if_neg hspot]
      exact eq_comm
  have hzero : ∀ currency, feeIn (FeeStore.postedFees { leg := row }) currency = 0 := fun _ => rfl
  rw [hzero] at honce
  rw [← htaken]
  constructor
  · rintro ⟨hsize, -⟩
    linarith
  · intro hmatched
    refine ⟨?_, hfees⟩
    linarith

end Runs

private def bitcoinFee (amount : Amount) : Fees := Dict.ofPairs [("BTC", amount)]

/-- A sale of 2 from a leg of 3 on a market of a given type, with base fees. -/
private def sale (marketType : String) : FeeOrder where
  symbol := "BTC/USDT"
  marketType := marketType
  signal := .reduceLong

private def saleFills : List OrderFill :=
  [⟨1, 100, bitcoinFee (1 / 1000), .rest⟩, ⟨1, 110, bitcoinFee (1 / 500), .stream⟩]

/-- On a spot market the leg ends with 998/1000 either way. -/
theorem spot_sale_matched : SameFeeBooks
    (runActions (postReport (sale "spot")) { leg := some ⟨3, 90⟩ } (fillReports atOnce 0 0 saleFills))
    (runActions (postReport (sale "spot")) { leg := some ⟨3, 90⟩ } (fillReports notYet 0 0 saleFills ++
      lateReports (filledTotal saleFills) (filledValue saleFills)
        [(.rest, bitcoinFee (1 / 1000)), (.stream, bitcoinFee (1 / 500))])) := by
  apply (base_fee_timing ⟨Or.inl rfl, rfl⟩ (some ⟨3, 90⟩) (List.cons_ne_nil _ _) _
    (List.cons_ne_nil _ _) _ _ _).mpr
  · decide +kernel
  · decide +kernel
  · rfl
  · decide +kernel
  · decide +kernel

/-- On a crypto market a fee of 1/500 stays in the leg when it comes with the fills, and is taken
off when it comes after them. -/
theorem crypto_sale_differs : ¬ ∀ (order : FeeOrder), SpotOrCrypto order →
    ∀ (row : Option LegPosition) (fills : List OrderFill) (hfills : fills ≠ []),
    (∀ fill ∈ fills, 0 < fill.quantity ∧ 0 < fill.price) →
    ∀ (late : List (ReportChannel × Fees)) (hlate : late ≠ []),
    (late.getLast hlate).2 = (fills.getLast hfills).fees →
    RunUnclamped order { leg := row } (fillReports atOnce 0 0 fills) →
    RunUnclamped order { leg := row } (fillReports notYet 0 0 fills ++
      lateReports (filledTotal fills) (filledValue fills) late) →
    SameFeeBooks (runActions (postReport order) { leg := row } (fillReports atOnce 0 0 fills))
      (runActions (postReport order) { leg := row } (fillReports notYet 0 0 fills ++
        lateReports (filledTotal fills) (filledValue fills) late)) := by
  intro hclaim
  have hsize := (hclaim (sale "crypto") ⟨Or.inr rfl, rfl⟩ (some ⟨3, 90⟩) saleFills
    (List.cons_ne_nil _ _) (by decide +kernel) [(.rest, bitcoinFee (1 / 500))]
    (List.cons_ne_nil _ _) rfl (by decide +kernel) (by decide +kernel)).1
  revert hsize
  decide +kernel

end QuantDinger.Analysis
