import QuantDinger.Model.LegPosition
import QuantDinger.Model.FillPosting

/-!
# The virtual account of a signal strategy

The ledger of one signal-only strategy (its account, its virtual orders, positions and trades, and
the status of its pending orders) and the transactions on it: the execution of a signal order, the
settlement of a pending order, the matching of open orders, the marking of positions and the
cancellation of an order. Matching and cancelling work on rows that were read before. Order
intents, the copy of a fill in `strategy_order_fills` and columns that are only displayed are left
out.
-/

namespace QuantDinger.Model.Live

open QuantDinger.Library

/-- `canonical_symbol`.
SOURCE: virtual_trading.py:18-22 -/
def canonicalSymbol (value : String) : String :=
  upper (beforeFirst '@' (afterFirst ':' (strip value)))

/-- The signal buys. -/
def SignalType.buys : SignalType → Bool
  | .openLong | .addLong | .reduceShort | .closeShort => true
  | .closeLong | .reduceLong | .openShort | .addShort => false

/-! ## Fills -/

/-- `status` of a virtual order. -/
inductive VirtualStatus
  | opened
  | filled
  | cancelled
  | rejected
  | noPosition
  deriving DecidableEq

/-- `VirtualFillTransition`. -/
structure VirtualFillTransition where
  fillQuantity : Amount
  nextSize : Amount
  nextEntryPrice : Amount
  grossRealizedPnl : Amount
  status : VirtualStatus
  deriving DecidableEq

/-- `calculate_virtual_fill`.
SOURCE: virtual_trading.py:36-69 -/
def calculateVirtualFill (action : SignalType) (requestedQuantity fillPrice currentSize
    currentEntryPrice : Amount) : VirtualFillTransition :=
  let requested := max 0 requestedQuantity
  let price := max 0 fillPrice
  let size := max 0 currentSize
  let entry := max 0 currentEntryPrice
  if action.opens then
    if requested ≤ 0 ∨ price ≤ 0 then ⟨0, size, entry, 0, .rejected⟩
    else ⟨requested, size + requested,
      (size * entry + requested * price) / (size + requested), 0, .filled⟩
  else if size ≤ 0 ∨ price ≤ 0 then ⟨0, size, entry, 0, .noPosition⟩
  else
    let quantity := if requested ≤ 0 then size else min size requested
    ⟨quantity, max 0 (size - quantity), entry,
      match action.side with
      | .short => (entry - price) * quantity
      | .long => (price - entry) * quantity, .filled⟩

/-- `_fill_price`.
SOURCE: virtual_trading.py:72-77 -/
def slippedPrice (action : SignalType) (referencePrice slippageRate : Amount) : Amount :=
  max 0 (referencePrice * if action.buys then 1 + slippageRate else 1 - slippageRate)

/-- `calculate_virtual_limit_fill_price`.
SOURCE: virtual_trading.py:80-101 -/
def calculateVirtualLimitFillPrice (action : SignalType) (limitPrice marketPrice
    slippageRate : Amount) : Option Amount :=
  let limit := max 0 limitPrice
  let market := max 0 marketPrice
  if limit ≤ 0 ∨ market ≤ 0 then none
  else if action.buys then
    if limit < market then none else some (min limit (slippedPrice action market slippageRate))
  else if market < limit then none
  else some (max limit (slippedPrice action market slippageRate))

/-- `VirtualExecutionCostPolicy`, with the rates it is built with. -/
structure VirtualExecutionCostPolicy where
  commissionRate : Amount := 5 / 10000
  slippageRate : Amount := 5 / 10000
  deriving DecidableEq

/-- `commission_for`.
SOURCE: virtual_execution_costs.py:24-26 -/
def VirtualExecutionCostPolicy.commissionFor (policy : VirtualExecutionCostPolicy)
    (quantity fillPrice : Amount) : Amount :=
  max 0 quantity * max 0 fillPrice * policy.commissionRate

/-- `slippage_quote_for`.
SOURCE: virtual_execution_costs.py:28-38 -/
def slippageQuoteFor (quantity referencePrice fillPrice : Amount) : Amount :=
  max 0 quantity * |fillPrice - referencePrice|

/-! ## Rows -/

/-- A row of `qd_strategy_virtual_accounts`. -/
structure VirtualAccount where
  initialCash : Amount
  cashBalance : Amount
  realizedPnl : Amount := 0
  totalCommission : Amount := 0
  deriving DecidableEq

/-- A row of `qd_strategy_virtual_orders`; `pending_order_id` is unique. -/
structure VirtualOrder where
  id : ℕ
  strategyRunId : ℕ
  pendingOrderId : ℕ
  symbol : String
  action : SignalType
  orderType : String
  requestedQty : Amount
  fillQty : Amount := 0
  referencePrice : Amount
  limitPrice : Amount
  fillPrice : Amount := 0
  commissionQuote : Amount := 0
  slippageRate : Amount
  slippageQuote : Amount := 0
  status : VirtualStatus
  deriving DecidableEq

/-- A row of `qd_strategy_virtual_positions`, filed under its canonical symbol and side. -/
structure VirtualPosition where
  strategyRunId : ℕ
  size : Amount
  entryPrice : Amount
  currentPrice : Amount
  highestPrice : Amount
  lowestPrice : Amount
  unrealizedPnl : Amount
  pnlPercent : Amount := 0
  deriving DecidableEq

/-- A row of `qd_strategy_virtual_trades`. -/
structure VirtualTrade where
  virtualOrderId : ℕ
  pendingOrderId : ℕ
  symbolCanonical : String
  action : SignalType
  price : Amount
  amount : Amount
  commission : Amount
  profit : Amount
  matchedEntryPrice : Amount
  accountEquity : Amount
  deriving DecidableEq

/-- What a pending order and its payload say. -/
structure VirtualRequest where
  executionMode : String := "signal"
  payloadMode : String := "signal"
  orderId : ℕ
  strategyId : ℕ
  userId : ℕ
  strategyRunId : ℕ := 0
  action : Option SignalType
  symbol : String
  requestedQuantity : Amount
  referencePrice : Amount
  orderType : String := "market"
  limitPrice : Amount := 0
  forcedFillPrice : Amount := 0
  sizingCapital : Amount := 0
  policy : VirtualExecutionCostPolicy := {}
  deriving DecidableEq

/-- A row of `pending_orders`. -/
structure VirtualPending where
  status : QueueStatus
  request : VirtualRequest
  deriving DecidableEq

/-- The row of the strategy. -/
structure VirtualStrategy where
  id : ℕ
  userId : ℕ
  executionMode : String := "signal"
  initialCapital : Amount
  deriving DecidableEq

/-- The rows of one strategy; `reads` are the order rows that a matcher or a canceller has read and
may still work on. -/
structure VirtualStore where
  strategy : VirtualStrategy
  account : Option VirtualAccount := none
  orders : List VirtualOrder := []
  positions : Dict (String × PositionSide) VirtualPosition := Dict.empty
  trades : List VirtualTrade := []
  pending : ℕ → Option VirtualPending := fun _ => none
  reads : List VirtualOrder := []

/-- The errors that roll a transaction back. -/
inductive VirtualError
  | signalModeRequired
  | invalidIdentity
  | unsupportedAction
  | strategyNotFound
  | liveStrategyRejected
  | pendingOrderNotFound
  deriving DecidableEq

/-- What the execution of an order returns. -/
structure VirtualResult where
  virtualOrderId : ℕ
  status : VirtualStatus
  fillQuantity : Amount
  fillPrice : Amount
  commission : Amount := 0
  accountEquity : Amount := 0
  idempotent : Bool
  deriving DecidableEq

namespace VirtualStore

variable (store : VirtualStore)

/-- The virtual order of a pending order. -/
def orderOf (pendingOrderId : ℕ) : Option VirtualOrder :=
  store.orders.find? fun order => order.pendingOrderId = pendingOrderId

/-- The account, created with the initial cash where there is none.
SOURCE: virtual_trading.py:199-211 -/
def accountOr (initialCash : Amount) : VirtualAccount :=
  store.account.getD { initialCash := initialCash, cashBalance := initialCash }

/-- The status of a pending order. -/
def setPending (pendingOrderId : ℕ) (status : QueueStatus) : VirtualStore :=
  { store with
    pending := Function.update store.pending pendingOrderId
      ((store.pending pendingOrderId).map fun row => { row with status := status }) }

/-- The sum of `unrealized_pnl`. -/
def unrealizedTotal : Amount := store.positions.sumBy fun _ position => position.unrealizedPnl

end VirtualStore

/-- `initial_cash`.
SOURCE: virtual_trading.py:198 -/
def initialCash (strategy : VirtualStrategy) (request : VirtualRequest) : Amount :=
  if strategy.initialCapital ≠ 0 then strategy.initialCapital else request.sizingCapital

/-! ## Executing an order -/

/-- Profit of a position at a price. -/
def unrealizedAt (side : PositionSide) (size entryPrice price : Amount) : Amount :=
  match side with
  | .short => (entryPrice - price) * size
  | .long => (price - entryPrice) * size

/-- The order row that waits for the market.
SOURCE: virtual_trading.py:228-248 -/
def VirtualRequest.openOrder (request : VirtualRequest) (action : SignalType) (id : ℕ) :
    VirtualOrder where
  id := id
  strategyRunId := request.strategyRunId
  pendingOrderId := request.orderId
  symbol := request.symbol
  action := action
  orderType := request.orderType
  requestedQty := request.requestedQuantity
  referencePrice := request.referencePrice
  limitPrice := request.limitPrice
  slippageRate := request.policy.slippageRate
  status := .opened

/-- The order row with its fill.
SOURCE: virtual_trading.py:306-344 -/
def VirtualOrder.withFill (order : VirtualOrder) (referencePrice fillPrice commission
    slippageQuote : Amount) (transition : VirtualFillTransition) : VirtualOrder :=
  { order with
    fillQty := transition.fillQuantity
    referencePrice := referencePrice
    fillPrice := fillPrice
    commissionQuote := commission
    slippageQuote := slippageQuote
    status := transition.status }

/-- The positions after a fill.
SOURCE: virtual_trading.py:346-389 -/
def VirtualStore.fillPosition (store : VirtualStore) (request : VirtualRequest)
    (side : PositionSide) (fillPrice : Amount) (transition : VirtualFillTransition) :
    Dict (String × PositionSide) VirtualPosition :=
  let key := (canonicalSymbol request.symbol, side)
  if transition.status ≠ .filled then store.positions
  else if transition.nextSize ≤ 1 / 10 ^ 12 then store.positions.erase key
  else store.positions.set key
    { strategyRunId := request.strategyRunId
      size := transition.nextSize
      entryPrice := transition.nextEntryPrice
      currentPrice := fillPrice
      highestPrice := ((store.positions.get? key).map fun position =>
        max position.highestPrice fillPrice).getD fillPrice
      lowestPrice := ((store.positions.get? key).map fun position =>
        if position.lowestPrice ≤ 0 then fillPrice
        else min position.lowestPrice fillPrice).getD fillPrice
      unrealizedPnl := unrealizedAt side transition.nextSize transition.nextEntryPrice fillPrice
      pnlPercent := ((store.positions.get? key).map VirtualPosition.pnlPercent).getD 0 }

/-- The order rows after a fill.
SOURCE: virtual_trading.py:304-344 -/
def VirtualStore.fillOrders (store : VirtualStore) (request : VirtualRequest) (action : SignalType)
    (fillPrice commission slippageQuote : Amount) (transition : VirtualFillTransition) :
    List VirtualOrder × ℕ :=
  match store.orderOf request.orderId with
  | some existing =>
    (store.orders.map fun order =>
      if order.id = existing.id ∧ order.status = .opened
      then order.withFill request.referencePrice fillPrice commission slippageQuote transition
      else order, existing.id)
  | none =>
    (store.orders ++ [(request.openOrder action (store.orders.length + 1)).withFill
      request.referencePrice fillPrice commission slippageQuote transition],
      store.orders.length + 1)

/-- The transition of an order at a price, on the position it is about.
SOURCE: virtual_trading.py:271-286 -/
def VirtualStore.transition (store : VirtualStore) (request : VirtualRequest)
    (action : SignalType) (fillPrice : Amount) : VirtualFillTransition :=
  let position := store.positions.get? (canonicalSymbol request.symbol, action.side)
  calculateVirtualFill action request.requestedQuantity fillPrice
    ((position.map VirtualPosition.size).getD 0) ((position.map VirtualPosition.entryPrice).getD 0)

/-- The trade of a fill.
SOURCE: virtual_trading.py:407-431 -/
def VirtualRequest.trade (request : VirtualRequest) (action : SignalType) (virtualOrderId : ℕ)
    (fillPrice commission matchedEntryPrice accountEquity : Amount)
    (transition : VirtualFillTransition) : VirtualTrade where
  virtualOrderId := virtualOrderId
  pendingOrderId := request.orderId
  symbolCanonical := canonicalSymbol request.symbol
  action := action
  price := fillPrice
  amount := transition.fillQuantity
  commission := commission
  profit := transition.grossRealizedPnl
  matchedEntryPrice := matchedEntryPrice
  accountEquity := accountEquity

/-- An order is filled at a price.
SOURCE: virtual_trading.py:271-459 -/
def VirtualStore.fillOrder (store : VirtualStore) (request : VirtualRequest) (action : SignalType)
    (fillPrice : Amount) : VirtualStore × VirtualResult :=
  let cash := initialCash store.strategy request
  let account := store.accountOr cash
  let position := store.positions.get? (canonicalSymbol request.symbol, action.side)
  let transition := store.transition request action fillPrice
  let commission := request.policy.commissionFor transition.fillQuantity fillPrice
  let slippageQuote := slippageQuoteFor transition.fillQuantity request.referencePrice fillPrice
  let nextRealized := account.realizedPnl + transition.grossRealizedPnl - commission
  let orders := store.fillOrders request action fillPrice commission slippageQuote transition
  let next : VirtualStore := { store with
    orders := orders.1
    positions := store.fillPosition request action.side fillPrice transition
    account := some { account with
      cashBalance := account.initialCash + nextRealized
      realizedPnl := nextRealized
      totalCommission := account.totalCommission + commission } }
  let equity := cash + nextRealized + next.unrealizedTotal
  let result : VirtualResult :=
    ⟨orders.2, transition.status, transition.fillQuantity, fillPrice, commission, equity, false⟩
  if transition.status = .filled then
    let trade := request.trade action orders.2 fillPrice commission
      ((position.map VirtualPosition.entryPrice).getD 0) equity transition
    ({ next with trades := next.trades ++ [trade] }.setPending request.orderId .filled, result)
  else (next, result)

/-- The order waits: it is inserted as open.
SOURCE: virtual_trading.py:227-269 -/
def VirtualStore.deferOrder (store : VirtualStore) (request : VirtualRequest)
    (action : SignalType) : VirtualStore × VirtualResult :=
  let account := store.accountOr (initialCash store.strategy request)
  ({ store with
      account := some account
      orders := store.orders ++ [request.openOrder action (store.orders.length + 1)] },
    { virtualOrderId := store.orders.length + 1
      status := .opened
      fillQuantity := 0
      fillPrice := 0
      accountEquity := account.initialCash
      idempotent := false })

/-- The price an order is filled at now, or none when it waits.
SOURCE: virtual_trading.py:173, 216-270 -/
def VirtualRequest.priceNow (request : VirtualRequest) (action : SignalType) (marketOpen : Bool) :
    Option Amount :=
  if marketOpen = false ∨ (request.orderType = "limit" ∧ request.forcedFillPrice ≤ 0) then
    if marketOpen then calculateVirtualLimitFillPrice action request.limitPrice
      request.referencePrice request.policy.slippageRate
    else none
  else if request.forcedFillPrice ≠ 0 then some request.forcedFillPrice
  else some (slippedPrice action request.referencePrice request.policy.slippageRate)

/-- An order that exists already is executed once more: only while it is open, the market is open
and the price is given.
SOURCE: virtual_trading.py:183-187 -/
def VirtualRequest.Resumes (request : VirtualRequest) (marketOpen : Bool)
    (existing : VirtualOrder) : Prop :=
  marketOpen = true ∧ 0 < request.forcedFillPrice ∧ existing.status = .opened

instance (request : VirtualRequest) (marketOpen : Bool) (existing : VirtualOrder) :
    Decidable (request.Resumes marketOpen existing) :=
  inferInstanceAs (Decidable (_ ∧ _))

/-- `execute_virtual_signal_order`. A mode that is empty counts as none is given.
SOURCE: virtual_trading.py:104-477 -/
def VirtualStore.executeVirtualSignalOrder (store : VirtualStore) (request : VirtualRequest)
    (marketOpen : Bool) : Except VirtualError (VirtualStore × VirtualResult) :=
  if lower (strip (textOrElse request.executionMode request.payloadMode)) ≠ "signal" ∨
      lower (strip (textOrElse request.payloadMode "signal")) ≠ "signal" then
    .error .signalModeRequired
  else if request.orderId = 0 ∨ request.strategyId = 0 ∨ request.userId = 0 then
    .error .invalidIdentity
  else match request.action with
    | none => .error .unsupportedAction
    | some action =>
      if store.strategy.id ≠ request.strategyId ∨ store.strategy.userId ≠ request.userId then
        .error .strategyNotFound
      else if lower (strip (textOrElse store.strategy.executionMode "signal")) ≠ "signal" then
        .error .liveStrategyRejected
      else match store.orderOf request.orderId with
        | some existing =>
          if request.Resumes marketOpen existing then
            .ok (store.fillOrder request action request.forcedFillPrice)
          else .ok (store, {
            virtualOrderId := existing.id
            status := existing.status
            fillQuantity := existing.fillQty
            fillPrice := existing.fillPrice
            idempotent := true })
        | none =>
          match request.priceNow action marketOpen with
          | none => .ok (store.deferOrder request action)
          | some price => .ok (store.fillOrder request action price)

/-- `settle_virtual_pending_order`.
SOURCE: virtual_trading.py:480-500 -/
def VirtualStore.settleVirtualPendingOrder (store : VirtualStore) (pendingOrderId : ℕ)
    (marketOpen : Bool) : Except VirtualError (VirtualStore × VirtualResult) :=
  if pendingOrderId = 0 then .error .invalidIdentity
  else match store.pending pendingOrderId with
    | none => .error .pendingOrderNotFound
    | some row => store.executeVirtualSignalOrder
        { row.request with orderId := pendingOrderId } marketOpen

/-! ## Open orders -/

/-- The statuses a pending order can be cancelled from. -/
def cancellable : List QueueStatus := [.pending, .processing, .sent, .syncing]

/-- `_cancel_virtual_order`, with the ids of a row.
SOURCE: virtual_trading.py:503-532 -/
def VirtualStore.cancelVirtualOrder (store : VirtualStore) (row : VirtualOrder) : VirtualStore :=
  let orders := store.orders.map fun order =>
    if order.id = row.id ∧ order.status = .opened then { order with status := .cancelled }
    else order
  let cancelled := { store with orders := orders }
  match store.pending row.pendingOrderId with
  | some pending =>
    if pending.status ∈ cancellable then cancelled.setPending row.pendingOrderId .cancelled
    else cancelled
  | none => cancelled

/-- `strategy_run_id` of a call matches a row: 0 stands for every run. -/
def RunMatches (runId rowRunId : ℕ) : Prop := runId = 0 ∨ rowRunId = runId

instance (runId rowRunId : ℕ) : Decidable (RunMatches runId rowRunId) :=
  inferInstanceAs (Decidable (_ ∨ _))

/-- The open orders that a matcher or a canceller reads.
SOURCE: virtual_trading.py:537-548, 570-587 -/
def VirtualStore.readOpenOrders (store : VirtualStore) (runId : ℕ) : VirtualStore :=
  { store with reads := store.reads ++ store.orders.filter fun order =>
      order.status = .opened ∧ RunMatches runId order.strategyRunId }

/-- `normalized_prices` of `match_virtual_limit_orders`.
SOURCE: virtual_trading.py:564-568 -/
def normalizedPrices (prices : List (String × Amount)) : Dict String Amount :=
  Dict.ofPairs ((prices.filter fun entry => canonicalSymbol entry.1 ≠ "" ∧ 0 < entry.2).map
    fun entry => (canonicalSymbol entry.1, entry.2))

/-- The price an open order is matched at.
SOURCE: virtual_trading.py:609-624 -/
def VirtualOrder.matchPrice (row : VirtualOrder) (marketPrice : Amount) : Option Amount :=
  if row.orderType = "market" then
    if 0 < marketPrice then some (slippedPrice row.action marketPrice row.slippageRate) else none
  else calculateVirtualLimitFillPrice row.action row.limitPrice marketPrice row.slippageRate

/-- The request a matched order is executed with.
SOURCE: virtual_trading.py:627-656 -/
def VirtualOrder.matchRequest (row : VirtualOrder) (strategy : VirtualStrategy)
    (policy : VirtualExecutionCostPolicy) (sizingCapital marketPrice fillPrice : Amount) :
    VirtualRequest where
  orderId := row.pendingOrderId
  strategyId := strategy.id
  userId := strategy.userId
  strategyRunId := row.strategyRunId
  action := some row.action
  symbol := row.symbol
  requestedQuantity := row.requestedQty
  referencePrice := marketPrice
  orderType := row.orderType
  limitPrice := row.limitPrice
  forcedFillPrice := fillPrice
  sizingCapital := sizingCapital
  policy := policy

/-- What a matcher finds when it comes to a row: the cancel flag of its payload, the session, the
prices, and what the payload says about costs and capital. -/
structure MatchContext where
  cancelRequested : Bool := false
  marketOpen : Bool := true
  prices : List (String × Amount)
  policy : VirtualExecutionCostPolicy := {}
  sizingCapital : Amount := 0

/-- One row of the loop of `match_virtual_limit_orders`.
SOURCE: virtual_trading.py:591-657 -/
def VirtualStore.matchVirtualOrder (store : VirtualStore) (row : VirtualOrder)
    (context : MatchContext) : Except VirtualError VirtualStore :=
  if context.cancelRequested then .ok (store.cancelVirtualOrder row)
  else if context.marketOpen = false then .ok store
  else
    let marketPrice := ((normalizedPrices context.prices).get? (canonicalSymbol row.symbol)).getD 0
    match row.matchPrice marketPrice with
    | none => .ok store
    | some fillPrice =>
      (store.executeVirtualSignalOrder (row.matchRequest store.strategy context.policy
        context.sizingCapital marketPrice fillPrice) context.marketOpen).map Prod.fst

/-! ## Marks -/

/-- The prices of `mark_virtual_positions`: a symbol with two different prices has none.
SOURCE: virtual_trading.py:668-686 -/
def markPrices (prices : List (String × Amount)) : Dict String Amount :=
  let read := prices.foldl (fun (state : Dict String Amount × List String)
      (entry : String × Amount) =>
    let key := canonicalSymbol entry.1
    if key = "" ∨ entry.2 ≤ 0 then state
    else match state.1.get? key with
      | some previous =>
        if max (1 / 10 ^ 10) (|previous| * (1 / 10 ^ 10)) < |previous - entry.2|
        then (state.1, key :: state.2) else (state.1.set key entry.2, state.2)
      | none => (state.1.set key entry.2, state.2)) (Dict.empty, [])
  read.2.foldl Dict.erase read.1

/-- A position with its mark.
SOURCE: virtual_trading.py:706-749 -/
def VirtualPosition.marked (position : VirtualPosition) (side : PositionSide) (price : Amount) :
    VirtualPosition :=
  let size := max 0 position.size
  let entryPrice := max 0 position.entryPrice
  if size ≤ 1 / 10 ^ 12 ∨ entryPrice ≤ 0 then position
  else
    let unrealized := unrealizedAt side size entryPrice price
    let notional := entryPrice * size
    { position with
      currentPrice := price
      highestPrice := max position.highestPrice price
      lowestPrice := if position.lowestPrice ≤ 0 then price else min position.lowestPrice price
      unrealizedPnl := unrealized
      pnlPercent := if 0 < notional then unrealized / notional * 100 else 0 }

/-- `mark_virtual_positions`.
SOURCE: virtual_trading.py:661-755 -/
def VirtualStore.markVirtualPositions (store : VirtualStore) (prices : List (String × Amount))
    (runId : ℕ) : VirtualStore :=
  { store with positions := store.positions.mapValues fun key position =>
      if RunMatches runId position.strategyRunId then
        match (markPrices prices).get? (canonicalSymbol key.1) with
        | some price => position.marked key.2 price
        | none => position
      else position }

/-! ## Transactions -/

/-- A transaction on the account of the strategy. -/
inductive VirtualCall
  | execute (request : VirtualRequest) (marketOpen : Bool)
  | settle (pendingOrderId : ℕ) (marketOpen : Bool)
  | readOpen (runId : ℕ)
  | matchRow (row : VirtualOrder) (context : MatchContext)
  | cancelRow (row : VirtualOrder)
  | mark (prices : List (String × Amount)) (runId : ℕ)

/-- A transaction; one that fails is rolled back, and a matcher or a canceller works on rows that
have been read. -/
def VirtualStore.call (store : VirtualStore) : VirtualCall → VirtualStore
  | .execute request marketOpen =>
    match store.executeVirtualSignalOrder request marketOpen with
    | .error _ => store
    | .ok (next, _) => next
  | .settle pendingOrderId marketOpen =>
    match store.settleVirtualPendingOrder pendingOrderId marketOpen with
    | .error _ => store
    | .ok (next, _) => next
  | .readOpen runId => store.readOpenOrders runId
  | .matchRow row context =>
    if row ∈ store.reads then
      match store.matchVirtualOrder row context with
      | .error _ => store
      | .ok next => next
    else store
  | .cancelRow row => if row ∈ store.reads then store.cancelVirtualOrder row else store
  | .mark prices runId => store.markVirtualPositions prices runId

end QuantDinger.Model.Live
