import QuantDinger.Model.LegPosition
import QuantDinger.Model.FillPosting

/-!
# Fees of a live order

The trades of one order with their fees, and the three transactions that report a cumulative
fill and its cumulative fees: the REST result of a pending order, the private stream on a pending
order, and the projection onto a grid order. Each of them takes the fees that are not posted yet
off the inventory with the fill, or adjusts the last trade and the leg when nothing is left to
fill. Quote values and states of fees, profits and the rows of grid cells are left out.
-/

namespace QuantDinger.Model.Live

open QuantDinger.Library

/-! ## Rows -/

/-- The owner column of an order's trades. -/
inductive OrderOwner
  | pendingOrder
  | gridOrder
  deriving DecidableEq

/-- An order whose fills are reported. -/
structure FeeOrder where
  owner : OrderOwner := .pendingOrder
  symbol : String
  marketType : String := "spot"
  exchangeId : String := ""
  signal : SignalType
  deriving DecidableEq

/-- A row of `qd_strategy_trades` with its fees. -/
structure FeeTrade where
  symbol : String
  marketType : String
  amount : Amount
  price : Amount
  commission : Amount := 0
  commissionCcy : String := ""
  commissionBreakdown : Fees := Dict.empty

/-- What one order moves: the row of its long leg, its trades, and the filled quantity of its
grid row. -/
structure FeeStore where
  leg : Option LegPosition := none
  trades : List FeeTrade := []
  filledQuantity : Amount := 0

/-- `market_type` of the leg of an order.
SOURCE: leg_context.py:72-118 -/
def FeeOrder.rowMarketType (order : FeeOrder) : String :=
  if lower (strip order.exchangeId) = "alpaca" then "spot" else normalizeMarketType order.marketType

/-- `symbol` of the trade rows of an order.
SOURCE: records.py:545 -/
def FeeOrder.rowSymbol (order : FeeOrder) : String :=
  textOrElse (normalizeStrategySymbol order.symbol) (strip order.symbol)

/-! ## Sums of fees -/

/-- Fees added up per currency. -/
def addFees (fees added : Fees) : Fees :=
  added.entries.foldl (fun total fee =>
    total.updateWith fee.1 fun before => some (before.getD 0 + fee.2)) fees

/-- The fees that have not been posted yet.
SOURCE: fill_records.py:103; processor.py:529-531 -/
def unpostedFees (fees posted : Fees) : Fees :=
  addFees fees (posted.mapValues fun _ amount => -amount)

/-- `_fee_storage`.
SOURCE: processor.py:192-199 -/
def feeStorage (fees : Fees) : Amount × String :=
  match fees.entries with
  | [] => (0, "")
  | [(currency, amount)] => (amount, currency)
  | _ => (0, "MIXED")

/-- The fees of a row as `posted_totals` counts them.
SOURCE: fill_accounting.py:99-109 -/
def FeeTrade.fees (trade : FeeTrade) : Fees :=
  if trade.commissionBreakdown.entries ≠ [] then trade.commissionBreakdown
  else if trade.commissionCcy ≠ "" then Dict.empty.set trade.commissionCcy trade.commission
  else Dict.empty

namespace FeeStore

variable (store : FeeStore)

/-- `posted["quantity"]`. -/
def postedQuantity : Amount := (store.trades.map FeeTrade.amount).sum

/-- The value of the posted trades. -/
def postedValue : Amount := (store.trades.map fun trade => trade.amount * trade.price).sum

/-- `posted["average"]`. -/
def postedAverage : Amount :=
  if 0 < store.postedQuantity then store.postedValue / store.postedQuantity else 0

/-- `posted["fees"]`. -/
def postedFees : Fees := store.trades.foldl (fun total trade => addFees total trade.fees) Dict.empty

/-- The size of the long leg. -/
def size : Amount := (store.leg.getD {}).size

end FeeStore

/-! ## Recording a fill -/

/-- `apply_fill_to_local_position` on the row of a leg: a leg that is used up is deleted.
SOURCE: records.py:873-977 -/
def applyToRow (row : Option LegPosition) (signal : SignalType) (filled price : Amount) :
    Option LegPosition :=
  if filled ≤ 0 ∨ price ≤ 0 then row
  else
    let next := ((row.getD {}).applyFill signal filled price).1
    if signal.opens = false ∧ next.size ≤ 0 then none else some next

/-- The row `record_trade` inserts.
SOURCE: records.py:510-615 -/
def FeeOrder.recordTrade (order : FeeOrder) (filled price : Amount) (fees : Fees) : FeeTrade where
  symbol := order.rowSymbol
  marketType := order.rowMarketType
  amount := filled
  price := price
  commission := (feeStorage fees).1
  commissionCcy := (feeStorage fees).2
  commissionBreakdown := fees

/-- A fill reaches the leg without its base fee and is recorded.
SOURCE: fill_records.py:145-205; fill_handler.py:27-90 -/
def FeeStore.recordFill (store : FeeStore) (order : FeeOrder) (filled price : Amount)
    (fees : Fees) : Except FillError FeeStore :=
  match requireExecution filled price with
  | .error e => .error e
  | .ok () => .ok { store with
      leg := applyToRow store.leg order.signal
        (spotPositionFillQuantity order.marketType order.symbol order.signal filled fees) price
      trades := store.trades ++ [order.recordTrade filled price fees] }

/-! ## Adjusting a recorded fee -/

/-- The fees of the last row before an adjustment.
SOURCE: fill_accounting.py:165-169 -/
def FeeTrade.previousFees (trade : FeeTrade) : Fees :=
  if trade.commissionBreakdown.entries ≠ [] then trade.commissionBreakdown
  else if trade.commissionCcy ∉ ["", "MIXED"] then
    Dict.empty.set trade.commissionCcy trade.commission
  else Dict.empty

/-- The last row after an adjustment.
SOURCE: fill_accounting.py:165-185 -/
def FeeTrade.adjusted (trade : FeeTrade) (fees : Fees) : FeeTrade :=
  let total := addFees trade.previousFees fees
  { trade with
    commission := match total.entries with
      | [(_, amount)] => amount
      | _ => 0
    commissionCcy := match total.entries with
      | [(currency, _)] => currency
      | _ => "MIXED"
    commissionBreakdown := total }

/-- The row of the leg after an adjustment; an absent row stays absent.
SOURCE: fill_accounting.py:137-156 -/
def adjustLeg (row : Option LegPosition) (trade : FeeTrade) (fees : Fees) : Option LegPosition :=
  if lower trade.marketType ∈ ["spot", "crypto"] then
    let baseFee := feeIn fees (symbolCurrencies trade.symbol).1
    if baseFee = 0 then row
    else row.map fun leg => { leg with size := max 0 (leg.size - baseFee) }
  else row

/-- `adjust_order_fee`.
SOURCE: fill_accounting.py:122-188 -/
def FeeStore.adjustOrderFee (store : FeeStore) (fees : Fees) : Except FillError FeeStore :=
  match store.trades.getLast? with
  | none => .error .fillSnapshotNotReady
  | some trade => .ok { store with
      leg := adjustLeg store.leg trade fees
      trades := store.trades.dropLast ++ [trade.adjusted fees] }

/-! ## Reports -/

/-- What is reported of an order: its cumulative fill, and its cumulative fees once they are
known. -/
structure FeeReport where
  cumulative : Amount
  average : Amount
  fees : Option Fees

/-- The errors of a report; either rolls its transaction back. -/
inductive FeeError
  | fill (error : FillError)
  | tradeRowNotReady
  deriving DecidableEq

/-- An error of the fill evidence. -/
def liftFill : Except FillError FeeStore → Except FeeError FeeStore
  | .error e => .error (.fill e)
  | .ok store => .ok store

/-- `persist_strategy_fill` with cumulative fees.
SOURCE: fill_records.py:71-145 -/
def FeeStore.persistStrategyFill (store : FeeStore) (order : FeeOrder) (report : FeeReport) :
    Except FeeError FeeStore :=
  match cumulativeDelta store.postedQuantity store.postedAverage report.cumulative
      report.average with
  | .error e => .error (.fill e)
  | .ok (quantity, price) =>
    if report.cumulative + 1 / 10 ^ 12 < store.postedQuantity then .ok store
    else
      let fees := (report.fees.map fun fees => unpostedFees fees store.postedFees).getD Dict.empty
      if quantity ≤ 0 then
        if 0 < store.postedQuantity ∧ report.fees.isSome then liftFill (store.adjustOrderFee fees)
        else .ok store
      else if |quantity| ≤ 1 / 10 ^ 12 then .ok store
      else liftFill (store.recordFill order quantity price fees)

/-- `_incremental_fees` of a cumulative event.
SOURCE: processor.py:522-532 -/
def FeeStore.incrementalFees (store : FeeStore) (report : FeeReport) : Fees :=
  match report.fees with
  | none => Dict.empty
  | some fees =>
    if report.cumulative + 1 / 10 ^ 12 < store.postedQuantity then Dict.empty
    else unpostedFees fees store.postedFees

/-- The unposted part of an event and its price, once the snapshot is complete.
SOURCE: fill_snapshot.py:57-66; processor.py:251-267, 561-570 -/
def FeeStore.eventDelta (store : FeeStore) (report : FeeReport) :
    Except FillError (Amount × Amount) :=
  if report.cumulative ≤ 0 ∨ report.average ≤ 0 then .error .fillSnapshotNotReady
  else match cumulativeDelta store.postedQuantity store.postedAverage report.cumulative
      report.average with
    | .error e => .error e
    | .ok (delta, price) =>
      if 0 < delta then
        match requireExecution delta price with
        | .error e => .error e
        | .ok () => .ok (delta, price)
      else .ok (delta, price)

/-- `_project_pending_order` of a cumulative event.
SOURCE: processor.py:221-422 -/
def FeeStore.projectPendingOrder (store : FeeStore) (order : FeeOrder) (report : FeeReport) :
    Except FeeError FeeStore :=
  match store.eventDelta report with
  | .error e => .error (.fill e)
  | .ok (delta, price) =>
    let fees := store.incrementalFees report
    if 1 / 10 ^ 12 < delta ∧ 0 < price then liftFill (store.recordFill order delta price fees)
    else if 0 < store.postedQuantity ∧ report.fees.isSome then liftFill (store.adjustOrderFee fees)
    else if fees.entries ≠ [] then .error .tradeRowNotReady
    else .ok store

/-- `_project_grid` of a cumulative event.
SOURCE: processor.py:542-664 -/
def FeeStore.projectGrid (store : FeeStore) (order : FeeOrder) (report : FeeReport) :
    Except FeeError FeeStore :=
  match store.eventDelta report with
  | .error e => .error (.fill e)
  | .ok (delta, price) =>
    if report.cumulative + 1 / 10 ^ 12 < store.filledQuantity then .ok store
    else
      let observed := { store with filledQuantity := max store.filledQuantity report.cumulative }
      let fees := store.incrementalFees report
      if delta ≤ 1 / 10 ^ 12 then
        if 0 < store.postedQuantity ∧ report.fees.isSome then
          liftFill (observed.adjustOrderFee fees)
        else .ok observed
      else liftFill (observed.recordFill order delta price fees)

/-- Where a report of a pending order comes from. -/
inductive ReportChannel
  | rest
  | stream
  deriving DecidableEq

/-- The transaction of a report; one that fails is rolled back. -/
def FeeStore.post (store : FeeStore) (order : FeeOrder) (channel : ReportChannel)
    (report : FeeReport) : FeeStore :=
  let result := match order.owner, channel with
    | .gridOrder, _ => store.projectGrid order report
    | .pendingOrder, .rest => store.persistStrategyFill order report
    | .pendingOrder, .stream => store.projectPendingOrder order report
  match result with
  | .error _ => store
  | .ok next => next

end QuantDinger.Model.Live
