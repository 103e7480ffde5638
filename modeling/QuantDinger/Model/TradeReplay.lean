import QuantDinger.Model.FeeLedger
import QuantDinger.Model.GridEngine

/-!
# Positions from trades

The position rows and the trades of one strategy, the two functions that post a fill to both
(`persist_strategy_fill` and `apply_grid_fill_to_local_state`), and
`rebuild_positions_from_trades`, which replays the trades into an empty position table. Market data
of the rows, profits, quote values, fee states and runtime records are left out.
-/

namespace QuantDinger.Model.Live

open QuantDinger.Library

/-! ## Rows -/

/-- A row of `qd_strategy_positions` of the strategy. -/
structure LegRow where
  position : LegPosition
  marketType : String := "swap"
  credentialId : ℕ := 0
  deriving DecidableEq

/-- The position rows; symbol and side are unique within the strategy. -/
abbrev PositionTable := Dict (String × PositionSide) LegRow

/-- `LegContext`. -/
structure LegContext where
  marketType : String := "swap"
  credentialId : ℕ := 0
  deriving DecidableEq

/-- A row of `qd_strategy_trades` with its signal and its order. -/
structure LedgerTrade extends FeeTrade where
  signal : SignalType
  credentialId : ℕ := 0
  pendingOrderId : ℕ := 0
  executionEventId : ℕ := 0

/-- Positions and trades of a strategy. -/
structure TradeLedger where
  positions : PositionTable := Dict.empty
  trades : List LedgerTrade := []

/-! ## Position rows -/

/-- `_resolve_write_symbol`; also the symbol that `record_trade` stores.
SOURCE: records.py:373-375, 545 -/
def resolveWriteSymbol (symbol : String) : String :=
  textOrElse (normalizeStrategySymbol symbol) (strip symbol)

namespace PositionTable

variable (table : PositionTable)

/-- `_fetch_position_fuzzy`: the first alias with a row that holds something; an absent row is an
empty leg.
SOURCE: records.py:171-183 -/
def fetchFuzzy (symbol : String) (side : PositionSide) : LegPosition :=
  (((positionSymbolCandidates symbol).findSome? fun candidate =>
    (table.get? (candidate, side)).filter fun row => 0 < row.position.size).map
      LegRow.position).getD {}

/-- `_delete_position`: every alias is deleted.
SOURCE: records.py:630-645 -/
def deletePosition (symbol : String) (side : PositionSide) : PositionTable :=
  (positionSymbolCandidates symbol).foldl (fun table candidate => table.erase (candidate, side)) table

/-- `_purge_position_symbol_duplicates`.
SOURCE: records.py:378-398 -/
def purgeDuplicates (side : PositionSide) (symbol : String) : PositionTable :=
  let canonical := resolveWriteSymbol symbol
  if canonical = "" then table
  else ((table.keys.filter fun key => key.2 = side ∧ strip key.1 ≠ "" ∧ strip key.1 ≠ canonical ∧
    normalizeStrategySymbol (strip key.1) = canonical).foldl (fun table key => table.erase key) table)

/-- `upsert_position`.
SOURCE: records.py:800-870 -/
def upsertPosition (symbol : String) (side : PositionSide) (position : LegPosition)
    (leg : LegContext) : PositionTable :=
  let symKey := resolveWriteSymbol symbol
  let before := (table.get? (symKey, side)).map LegRow.credentialId
  let row : LegRow :=
    { position := position
      marketType := normalizeMarketType leg.marketType
      credentialId := if 0 < leg.credentialId then leg.credentialId else before.getD 0 }
  PositionTable.purgeDuplicates (table.set (symKey, side) row) side symKey

/-- `apply_fill_to_local_position`.
SOURCE: records.py:873-974 -/
def applyFill (symbol : String) (signal : SignalType) (filled price : Amount)
    (leg : LegContext) : PositionTable :=
  if filled ≤ 0 ∨ price ≤ 0 then table
  else
    let current := PositionTable.fetchFuzzy table symbol signal.side
    let symKey := resolveWriteSymbol symbol
    if signal.opens then
      PositionTable.upsertPosition table symKey signal.side (current.openBy filled price) leg
    else if current.size - filled ≤ 0 then
      PositionTable.deletePosition table symKey signal.side
    else PositionTable.upsertPosition table symKey signal.side (current.closeBy filled price) leg

end PositionTable

/-! ## Posting a fill -/

/-- The arguments of `persist_strategy_fill`. `feeStatusKnown` says that `fee_status` is `actual` or
`actual_zero`. -/
structure FillCall where
  symbol : String
  signal : SignalType
  filled : Amount
  avgPrice : Amount
  marketType : String
  exchangeId : String := ""
  credentialId : ℕ := 0
  orderId : ℕ := 0
  executionEventId : ℕ := 0
  positionFilled : Option Amount := none
  commission : Amount := 0
  commissionCcy : String := ""
  feesByCcy : Fees := Dict.empty
  feeStatusKnown : Bool := false
  cumulativeFilled : Option Amount := none
  cumulativeAveragePrice : Amount := 0
  cumulativeFees : Option Fees := none

/-- The leg context of a call.
SOURCE: leg_context.py:72-118 -/
def FillCall.leg (call : FillCall) : LegContext where
  marketType := if lower (strip call.exchangeId) = "alpaca" then "spot"
    else normalizeMarketType call.marketType
  credentialId := call.credentialId

/-- The fees `record_trade` stores.
SOURCE: records.py:607 -/
def storedFees (feesByCcy : Fees) (commission : Amount) (commissionCcy : String) : Fees :=
  if feesByCcy.entries ≠ [] then feesByCcy
  else if commissionCcy ∉ ["", "MIXED"] then Dict.empty.set commissionCcy commission
  else Dict.empty

/-- What a call posts: the trade and the quantity that reaches the position. -/
structure FillPost where
  symbol : String
  signal : SignalType
  filled : Amount
  avgPrice : Amount
  positionQty : Amount
  leg : LegContext
  orderId : ℕ := 0
  executionEventId : ℕ := 0
  commission : Amount := 0
  commissionCcy : String := ""
  feesByCcy : Fees := Dict.empty

/-- The row `record_trade` inserts.
SOURCE: records.py:510-615 -/
def FillPost.trade (post : FillPost) : LedgerTrade where
  symbol := resolveWriteSymbol post.symbol
  marketType := post.leg.marketType
  amount := post.filled
  price := post.avgPrice
  commission := post.commission
  commissionCcy := post.commissionCcy
  commissionBreakdown := storedFees post.feesByCcy post.commission post.commissionCcy
  signal := post.signal
  credentialId := post.leg.credentialId
  pendingOrderId := post.orderId
  executionEventId := post.executionEventId

section Trade

variable (post : FillPost)

@[simp] theorem FillPost.trade_symbol : post.trade.symbol = resolveWriteSymbol post.symbol := by
  unfold FillPost.trade
  dsimp only

@[simp] theorem FillPost.trade_signal : post.trade.signal = post.signal := rfl

@[simp] theorem FillPost.trade_amount : post.trade.amount = post.filled := rfl

@[simp] theorem FillPost.trade_price : post.trade.price = post.avgPrice := rfl

end Trade

/-- The position is moved and the trade recorded.
SOURCE: fill_records.py:157-205; fill_handler.py:58-92 -/
def TradeLedger.post (ledger : TradeLedger) (post : FillPost) : TradeLedger where
  positions := PositionTable.applyFill ledger.positions post.symbol post.signal post.positionQty
    post.avgPrice post.leg
  trades := ledger.trades ++ [post.trade]

/-- The trades of a pending order, as `posted_totals` reads them. -/
def TradeLedger.orderStore (ledger : TradeLedger) (orderId : ℕ) : FeeStore where
  trades := (ledger.trades.filter fun trade => trade.pendingOrderId = orderId).map
    LedgerTrade.toFeeTrade

/-- The last row that meets the condition is rewritten. -/
def updateLast {α : Type} (p : α → Bool) (f : α → α) : List α → List α
  | [] => []
  | row :: rows =>
    if p row = true ∧ rows.all (fun later => !p later) then f row :: rows
    else row :: updateLast p f rows

/-- `adjust_order_fee` of a pending order: the leg of its last trade and the fees of that trade.
SOURCE: fill_accounting.py:122-188 -/
def TradeLedger.adjustOrderFee (ledger : TradeLedger) (orderId : ℕ) (fees : Fees) :
    Except FillError TradeLedger :=
  match (ledger.trades.filter fun trade => trade.pendingOrderId = orderId).getLast? with
  | none => .error .fillSnapshotNotReady
  | some trade => .ok
    { positions := ledger.positions.updateWith (trade.symbol, .long) fun row =>
        row.bind fun row =>
          if row.credentialId = trade.credentialId ∧ row.marketType = trade.marketType then
            (adjustLeg (some row.position) trade.toFeeTrade fees).map fun position =>
              { row with position := position }
          else none
      trades := updateLast (fun row => row.pendingOrderId = orderId)
        (fun row => { row with toFeeTrade := row.toFeeTrade.adjusted fees }) ledger.trades }

/-- What a call of `persist_strategy_fill` comes to. -/
inductive FillEffect
  | nothing
  | adjust (orderId : ℕ) (fees : Fees)
  | post (fill : FillPost)

/-- `_persist_strategy_fill`, up to its writes.
SOURCE: fill_records.py:145-166 -/
def FillCall.toPost (call : FillCall) : Except FillError FillEffect :=
  if |call.filled| ≤ 1 / 10 ^ 12 then .ok .nothing
  else match requireExecution call.filled call.avgPrice with
    | .error e => .error e
    | .ok () => .ok (.post
      { symbol := call.symbol
        signal := call.signal
        filled := call.filled
        avgPrice := call.avgPrice
        positionQty := call.positionFilled.getD call.filled
        leg := call.leg
        orderId := call.orderId
        executionEventId := call.executionEventId
        commission := call.commission
        commissionCcy := call.commissionCcy
        feesByCcy := call.feesByCcy })

/-- The call with what a cumulative report leaves to post.
SOURCE: fill_records.py:94-122 -/
def FillCall.increment (call : FillCall) (quantity price : Amount) (fees : Fees) : FillCall :=
  { call with
    filled := quantity
    avgPrice := price
    feesByCcy := fees
    commission := match fees.entries with
      | [] => call.commission
      | [(_, amount)] => amount
      | _ => 0
    commissionCcy := match fees.entries with
      | [] => call.commissionCcy
      | [(currency, _)] => currency
      | _ => "MIXED"
    positionFilled := some
      (spotPositionFillQuantity call.marketType call.symbol call.signal quantity fees) }

/-- `persist_strategy_fill` with a cumulative report of an order, up to its writes.
SOURCE: fill_records.py:89-123 -/
def FillCall.fromCumulative (call : FillCall) (store : FeeStore) (cumulative : Amount) :
    Except FillError FillEffect :=
  match cumulativeDelta store.postedQuantity store.postedAverage cumulative
      call.cumulativeAveragePrice with
  | .error e => .error e
  | .ok (quantity, price) =>
    if cumulative + 1 / 10 ^ 12 < store.postedQuantity then .ok .nothing
    else
      let reported := call.cumulativeFees.getD (if call.commissionCcy ≠ ""
        then Dict.empty.set call.commissionCcy call.commission else Dict.empty)
      let feesKnown := reported.entries ≠ [] ∨ call.feeStatusKnown = true
      let fees := if feesKnown then unpostedFees reported store.postedFees else Dict.empty
      if quantity ≤ 0 then
        if 0 < store.postedQuantity ∧ feesKnown then .ok (.adjust call.orderId fees)
        else .ok .nothing
      else (call.increment quantity price fees).toPost

/-- `persist_strategy_fill`, up to its writes.
SOURCE: fill_records.py:71-123 -/
def FillCall.outcome (call : FillCall) (ledger : TradeLedger) : Except FillError FillEffect :=
  if call.executionEventId ≠ 0 ∧
      ∃ trade ∈ ledger.trades, trade.executionEventId = call.executionEventId then .ok .nothing
  else match call.cumulativeFilled with
  | some cumulative =>
    if call.orderId ≠ 0 then call.fromCumulative (ledger.orderStore call.orderId) cumulative
    else call.toPost
  | none => call.toPost

/-- The arguments of `apply_grid_fill_to_local_state`; exchange and credential are those of the
strategy's row. -/
structure GridFillCall where
  symbol : String
  purpose : GridPurpose
  filledQty : Amount
  avgPrice : Amount
  marketType : String
  exchangeId : String := ""
  credentialId : ℕ := 0
  executionEventId : ℕ := 0
  commission : Amount := 0
  commissionCcy : String := ""
  feesByCcy : Fees := Dict.empty

/-- `apply_grid_fill_to_local_state`, up to its writes.
SOURCE: fill_handler.py:44-92 -/
def GridFillCall.outcome (call : GridFillCall) : Except FillError FillEffect :=
  let sym := normalizeStrategySymbol call.symbol
  match requireExecution call.filledQty call.avgPrice with
  | .error e => .error e
  | .ok () => .ok (.post
    { symbol := sym
      signal := call.purpose.signal
      filled := call.filledQty
      avgPrice := call.avgPrice
      positionQty := spotPositionFillQuantity call.marketType sym call.purpose.signal
        call.filledQty call.feesByCcy
      leg :=
        { marketType := if lower (strip call.exchangeId) = "alpaca" then "spot"
            else normalizeMarketType call.marketType
          credentialId := call.credentialId }
      executionEventId := call.executionEventId
      commission := call.commission
      commissionCcy := call.commissionCcy
      feesByCcy := call.feesByCcy })

/-- A fill that is posted, through one of the two functions. -/
inductive PostedFill
  | strategy (call : FillCall)
  | grid (call : GridFillCall)

/-- The symbol as the caller spells it. -/
def PostedFill.symbol : PostedFill → String
  | .strategy call => call.symbol
  | .grid call => call.symbol

/-- What a fill comes to. -/
def PostedFill.outcome (fill : PostedFill) (ledger : TradeLedger) : Except FillError FillEffect :=
  match fill with
  | .strategy call => call.outcome ledger
  | .grid call => call.outcome

/-- The transaction of a fill; one that fails is rolled back. -/
def postFill (ledger : TradeLedger) (fill : PostedFill) : TradeLedger :=
  match fill.outcome ledger with
  | .error _ => ledger
  | .ok .nothing => ledger
  | .ok (.post fill) => ledger.post fill
  | .ok (.adjust orderId fees) =>
    match ledger.adjustOrderFee orderId fees with
    | .error _ => ledger
    | .ok next => next

/-! ## Replaying -/

/-- One round of the loop of `rebuild_positions_from_trades`.
SOURCE: records.py:350-369 -/
def replayTrade (table : PositionTable) (trade : LedgerTrade) : PositionTable :=
  PositionTable.applyFill table (textOrElse (normalizeStrategySymbol trade.symbol) trade.symbol)
    trade.signal trade.amount trade.price
    { marketType := normalizeMarketType trade.marketType, credentialId := trade.credentialId }

/-- `rebuild_positions_from_trades` once the position rows are deleted.
SOURCE: records.py:315-370 -/
def rebuildPositionsFromTrades (trades : List LedgerTrade) : PositionTable :=
  trades.foldl replayTrade Dict.empty

/-- Size and entry price of the row of a symbol and a side. -/
def PositionTable.leg (table : PositionTable) (key : String × PositionSide) : Option LegPosition :=
  (table.get? key).map LegRow.position

end QuantDinger.Model.Live
