import QuantDinger.Model.Account
import QuantDinger.Model.Portal

/-!
# The simulation broker: deciding and settling one order

`MultiAssetSimulationBroker.execute` works through a batch order by order. For one
order it decides first and writes afterwards, and the two halves are kept apart here:
`planOrder` computes the outcome from the account, the bar and the batch-start equity,
and `settle` applies it to the books, the protections and the order ledger.

`history` is a history variable: it records, for every order the broker considered,
what the decision was taken from, what it was, and the account before and after. The
source has no such list and nothing here reads it; statements about every fill of a
run quantify over it.
-/

namespace QuantDinger.Model

open QuantDinger.Library

/-- The parameters of a broker, as the constructor normalises them.
SOURCE: runtime.py:768-781 -/
structure BrokerConfig where
  leverage : Amount
  commission : Amount
  slippage : Amount
  instrumentRules : Symbol → Option InstrumentRules
  one_le_leverage : 1 ≤ leverage
  commission_nonneg : 0 ≤ commission
  slippage_nonneg : 0 ≤ slippage

namespace BrokerConfig

/-- The constructor's clamping. -/
def create (leverage commission slippage : Amount)
    (instrumentRules : Symbol → Option InstrumentRules) : BrokerConfig where
  leverage := max 1 leverage
  commission := max 0 commission
  slippage := max 0 slippage
  instrumentRules := instrumentRules
  one_le_leverage := le_max_left _ _
  commission_nonneg := le_max_left _ _
  slippage_nonneg := le_max_left _ _

/-- `_rules_for`.
SOURCE: runtime.py:1278-1288 -/
def rulesFor (config : BrokerConfig) (symbol : Symbol) : InstrumentRules :=
  (config.instrumentRules symbol).getD (defaultRulesForSymbol symbol)

/-- The lot of an instrument. -/
def lot (config : BrokerConfig) (symbol : Symbol) : Amount :=
  lotSize symbol (config.rulesFor symbol)

theorem lot_pos (config : BrokerConfig) (symbol : Symbol) : 0 < config.lot symbol :=
  lotSize_pos _ _

end BrokerConfig

/-! ## Sizing -/

/-- `1 if x > 0 else -1 if x < 0 else 0`. -/
def direction (x : Amount) : ℤ := if 0 < x then 1 else if x < 0 then -1 else 0

/-- `_target_quantity`.
SOURCE: runtime.py:1611-1626 -/
def targetQuantity (config : BrokerConfig) (order : OrderIntent) (current : Position)
    (price equity : Amount) : Amount :=
  match order.kind with
  | .quantity => current.amount + order.value
  | .value => current.amount + order.value * config.leverage / price
  | .targetQuantity => order.value
  | .targetValue => order.value * config.leverage / price
  | .targetPercent =>
    let targetValue := equity * order.value * config.leverage
    if 0 < targetValue then
      targetValue / ((1 + config.slippage) * (1 + config.commission)) / price
    else targetValue / price

/-- The position an order trades, a flat one when none is stored.
SOURCE: runtime.py:842-845 -/
def Account.currentPosition (account : Account) (order : OrderIntent) : Position :=
  (account.positions.get? order.key).getD
    { symbol := order.symbol, positionSide := order.positionSide }

/-- `_execution_block_reason`.
SOURCE: runtime.py:1212-1233 -/
def executionBlockReason (config : BrokerConfig) (account : Account) (order : OrderIntent)
    (bar : Option Bar) (openPrice : Option Amount) : Option StatusReason :=
  match bar, openPrice with
  | some bar, some price =>
    if price ≤ 0 then some .noPrice
    else if bar.flag "suspended" then some .suspended
    else
      let current := account.currentPosition order
      let target := targetQuantity config order current price (max account.totalValue 0)
      let delta := target - current.amount
      if 0 < delta ∧ bar.flag "limit_up" then some .limitUp
      else if delta < 0 ∧ bar.flag "limit_down" then some .limitDown
      else none
  | _, _ => some .noPrice

/-- What `execute` knows of an order once it has sized it.
SOURCE: runtime.py:842-874 -/
structure Sizing where
  current : Position
  openPrice : Amount
  sizingPrice : Amount
  targetQuantity : Amount
  requestedDelta : Amount
  closesPosition : Bool
  reconcilesRemainder : Bool
  deriving DecidableEq

/-- SOURCE: runtime.py:842-874 -/
def sizeOrder (config : BrokerConfig) (account : Account) (order : OrderIntent)
    (openPrice equity : Amount) : Sizing :=
  let current := account.currentPosition order
  let sizingPrice := if order.isLimit ∧ 0 < order.limitPrice then order.limitPrice else openPrice
  let target := targetQuantity config order current sizingPrice equity
  let closes := order.kind.isTarget && (|target| ≤ 1 / 10 ^ 12 : Bool) &&
    (1 / 10 ^ 12 < |current.amount| : Bool)
  { current := current
    openPrice := openPrice
    sizingPrice := sizingPrice
    targetQuantity := target
    requestedDelta := target - current.amount
    closesPosition := closes
    reconcilesRemainder := closes &&
      (isCryptoSwapSymbol order.symbol || isDollarCryptoSymbol order.symbol) }

/-- The three ways an order is rejected as already met.
SOURCE: runtime.py:861-867, 875-893 -/
def Sizing.alreadyMet (s : Sizing) (order : OrderIntent) : Bool :=
  (order.pendingDirection ≠ 0 && direction s.requestedDelta ≠ order.pendingDirection) ||
  (isDollarCryptoSymbol order.symbol && order.kind.isTarget &&
    (0 < s.current.amount * s.targetQuantity : Bool) &&
    (|s.requestedDelta * s.sizingPrice| ≤ 10 + 1 / 10 ^ 9 : Bool)) ||
  (|s.requestedDelta| ≤ 1 / 10 ^ 12 : Bool) ||
  ((|s.requestedDelta * s.sizingPrice| < 1 / 100 : Bool) && !s.closesPosition)

/-! ## The fill price -/

/-- Where an order fills in a bar. -/
inductive PriceDecision
  | limitPriceRequired
  | resting
  | fill (price : Amount) (reference : FillReference)

/-- `float((bar or {}).get(...) or open_price)` for the high and the low. -/
def barRange (bar : Option Bar) (openPrice : Amount) : Amount × Amount :=
  (orElse ((bar.map Bar.high).getD 0) openPrice, orElse ((bar.map Bar.low).getD 0) openPrice)

/-- The fill price and its reference.
SOURCE: runtime.py:894-940 -/
def fillPrice (config : BrokerConfig) (order : OrderIntent) (bar : Option Bar)
    (openPrice delta : Amount) : PriceDecision :=
  if order.isLimit then
    if order.limitPrice ≤ 0 then .limitPriceRequired
    else if 0 < delta ∧ openPrice ≤ order.limitPrice then .fill openPrice .gapOpen
    else if 0 < delta ∧ (barRange bar openPrice).2 ≤ order.limitPrice then
      .fill order.limitPrice .limit
    else if delta < 0 ∧ order.limitPrice ≤ openPrice then .fill openPrice .gapOpen
    else if delta < 0 ∧ order.limitPrice ≤ (barRange bar openPrice).1 then
      .fill order.limitPrice .limit
    else .resting
  else
    .fill (openPrice * (if 0 < delta then 1 + config.slippage else 1 - config.slippage)) .barOpen

/-! ## From the requested to the traded quantity -/

/-- A quantity on its way to a fill, and whether it closes a residue exactly. -/
structure Trade where
  delta : Amount
  exactClose : Bool
  deriving DecidableEq

/-- Lot rounding of the request, with the exact close of a sub-lot residue.
SOURCE: runtime.py:941-951 -/
def Sizing.roundRequest (s : Sizing) (fillPrice lot : Amount) : Trade :=
  let delta := roundToLot s.requestedDelta lot
  if s.reconcilesRemainder ∧ |delta| < lot - 1 / 10 ^ 12 ∧ |s.current.amount * fillPrice| ≤ 10
  then ⟨-s.current.amount, true⟩
  else ⟨delta, false⟩

/-- A quantity cut to the liquidity cap.
SOURCE: runtime.py:959-961 -/
def Trade.capTo (trade : Trade) (cap : Option Amount) : Trade :=
  match cap with
  | some limit => if limit < |trade.delta| then ⟨copysign limit trade.delta, false⟩ else trade
  | none => trade

/-- The liquidity cap, and the exact close of a residue the capped trade would leave.
SOURCE: runtime.py:958-970 -/
def Sizing.capLiquidity (s : Sizing) (trade : Trade) (cap : Option Amount)
    (fillPrice lot : Amount) : Trade :=
  let capped := trade.capTo cap
  let residual := s.current.amount + capped.delta
  if s.reconcilesRemainder ∧ s.current.amount * capped.delta < 0 ∧ 0 < |residual| ∧
      |residual| < lot - 1 / 10 ^ 12 ∧ |residual * fillPrice| ≤ 10 ∧
      (∀ limit ∈ cap, |s.current.amount| ≤ limit)
  then ⟨-s.current.amount, true⟩
  else capped

/-- Cash above the borrowing floor of the batch.
SOURCE: runtime.py:1250-1251 -/
def Account.spendable (config : BrokerConfig) (account : Account) (equity : Amount) : Amount :=
  max 0 (account.availableCash - -equity * (config.leverage - 1))

/-- The largest buy the spendable cash pays for.
SOURCE: runtime.py:1252 -/
def Account.cashCap (config : BrokerConfig) (account : Account) (fillPrice equity : Amount) :
    Amount :=
  account.spendable config equity / max (fillPrice * (1 + config.commission)) (1 / 10 ^ 12)

/-- The largest position the gross limit admits next to the other positions.
SOURCE: runtime.py:1256-1257 -/
def Account.maxTargetAbs (config : BrokerConfig) (account : Account) (key : PositionKey)
    (fillPrice equity : Amount) : Amount :=
  max 0 (equity * config.leverage - account.grossValue key) / max fillPrice (1 / 10 ^ 12)

/-- A buy cut to the cash cap.
SOURCE: runtime.py:1247-1255 -/
def Account.cashFeasible (config : BrokerConfig) (account : Account)
    (delta fillPrice equity : Amount) : Amount :=
  if 0 < delta ∧ account.cashCap config fillPrice equity < delta
  then account.cashCap config fillPrice equity else delta

/-- A delta cut so that the target keeps the gross limit.
SOURCE: runtime.py:1258-1262 -/
def grossFeasible (cap amount feasible : Amount) : Amount :=
  if cap + 1 / 10 ^ 12 < |amount + feasible| then copysign cap (amount + feasible) - amount
  else feasible

/-- `_feasible_delta`.
SOURCE: runtime.py:1235-1269 -/
def feasibleDelta (config : BrokerConfig) (account : Account) (key : PositionKey)
    (current : Position) (delta fillPrice equity lot : Amount) : Amount × Option StatusReason :=
  let affordable := account.cashFeasible config delta fillPrice equity
  let cap := account.maxTargetAbs config key fillPrice equity
  let feasible := grossFeasible cap current.amount affordable
  let reason : Option StatusReason :=
    if cap + 1 / 10 ^ 12 < |current.amount + affordable| then some .positionLimit
    else if 0 < delta ∧ account.cashCap config fillPrice equity < delta then
      some .insufficientCash
    else none
  if direction delta ≠ 0 ∧ direction feasible ≠ 0 ∧ direction feasible ≠ direction delta then
    (0, reason <|> some .positionLimit)
  else (roundToLot feasible lot, reason)

/-- The minimum amount and notional of the instrument.
SOURCE: runtime.py:995-1023 -/
def belowMinimum (rules : InstrumentRules) (order : OrderIntent) (currentAmount fillPrice : Amount)
    (trade : Trade) : Option StatusReason :=
  let minAmount := max 0 rules.minAmount
  let minNotional := max 0 rules.minNotional
  let swapReduction := isPureReduction currentAmount trade.delta && isCryptoSwapSymbol order.symbol
  let exempt := order.forced || swapReduction || trade.exactClose
  if 0 < minAmount ∧ |trade.delta| + 1 / 10 ^ 12 < minAmount ∧ exempt = false then
    some .minimumTradeUnit
  else if 0 < minNotional ∧ 0 < fillPrice ∧ exempt = false ∧
      |trade.delta * fillPrice| < minNotional then
    some .minNotional
  else none

/-! ## The outcome of one order -/

/-- A fill the broker is about to book. -/
structure FillPlan where
  sizing : Sizing
  fillPrice : Amount
  fillReference : FillReference
  lot : Amount
  liquidityCap : Option Amount
  delta : Amount
  exactClose : Bool
  constraintReason : Option StatusReason
  deriving DecidableEq

namespace FillPlan

variable (plan : FillPlan)

/-- `remaining_quantity`.
SOURCE: runtime.py:1025 -/
def remainingQuantity : Amount := max 0 (|plan.sizing.requestedDelta| - |plan.delta|)

/-- `has_tradable_remainder`.
SOURCE: runtime.py:1026-1029 -/
def hasTradableRemainder : Bool :=
  (plan.lot ≤ plan.remainingQuantity + 1 / 10 ^ 12 : Bool) &&
    (1 / 100 ≤ plan.remainingQuantity * plan.fillPrice + 1 / 10 ^ 12 : Bool)

/-- `execution_status`. -/
def status : EventStatus := if plan.hasTradableRemainder then .partialFill else .filled

/-- The position after the fill, before the snap to zero. -/
def targetAmount : Amount := plan.sizing.current.amount + plan.delta

end FillPlan

/-- What the broker does with an order. -/
inductive Outcome
  | blocked (reason : StatusReason)
  | rejected (reason : StatusReason) (requestedQuantity : Amount)
  | resting (requestedQuantity : Amount)
  | fill (plan : FillPlan)
  deriving DecidableEq

/-- The liquidity cap of an order: a forced one has none.
SOURCE: runtime.py:958 -/
def orderCap (order : OrderIntent) (bar : Option Bar) (lot : Amount) : Option Amount :=
  if order.forced then none else liquidityCap bar lot

/-- What the account can trade of a capped quantity, with the reason of a cut. Forced
orders and exact closes are not cut.
SOURCE: runtime.py:971-981 -/
def feasibleTrade (config : BrokerConfig) (account : Account) (order : OrderIntent)
    (current : Position) (capped : Trade) (price equity lot : Amount) :
    Amount × Option StatusReason :=
  if order.forced ∨ capped.exactClose then (capped.delta, none)
  else feasibleDelta config account order.key current capped.delta price equity lot

/-- The quantity is below the smallest one the instrument trades.
SOURCE: runtime.py:952, 982 -/
def Trade.belowLot (trade : Trade) (lot : Amount) : Bool :=
  (|trade.delta| < lot - 1 / 10 ^ 12 : Bool) && !trade.exactClose

/-- The decision once the order is sized and its fill price is known.
SOURCE: runtime.py:941-1023 -/
def planFill (config : BrokerConfig) (account : Account) (order : OrderIntent)
    (bar : Option Bar) (equity : Amount) (s : Sizing) (price : Amount)
    (reference : FillReference) : Outcome :=
  let lot := config.lot order.symbol
  let rounded := s.roundRequest price lot
  if rounded.belowLot lot then .rejected .minimumTradeUnit |s.requestedDelta|
  else
    let cap := orderCap order bar lot
    let capped := s.capLiquidity rounded cap price lot
    let feasible := feasibleTrade config account order s.current capped price equity lot
    let trade : Trade := ⟨feasible.1, capped.exactClose⟩
    if trade.belowLot lot then .rejected (feasible.2.getD .positionLimit) |s.requestedDelta|
    else match belowMinimum (config.rulesFor order.symbol) order s.current.amount price trade with
      | some reason => .rejected reason |s.requestedDelta|
      | none => .fill
          { sizing := s
            fillPrice := price
            fillReference := reference
            lot := lot
            liquidityCap := cap
            delta := trade.delta
            exactClose := trade.exactClose
            constraintReason := feasible.2 }

/-- The decision for an order with a price.
SOURCE: runtime.py:842-1023 -/
def decideOrder (config : BrokerConfig) (account : Account) (order : OrderIntent)
    (bar : Option Bar) (openPrice equity : Amount) : Outcome :=
  let s := sizeOrder config account order openPrice equity
  if s.alreadyMet order then .rejected .targetAlreadyMet 0
  else match fillPrice config order bar openPrice s.requestedDelta with
    | .limitPriceRequired => .rejected .limitPriceRequired |s.requestedDelta|
    | .resting => .resting |s.requestedDelta|
    | .fill price reference => planFill config account order bar equity s price reference

/-- The decision for one order of a batch. Only a forced order gets past the blocking
check without a price, and then the arithmetic on `None` raises.
SOURCE: runtime.py:826-1023 -/
def planOrder (config : BrokerConfig) (account : Account) (order : OrderIntent)
    (bar : Option Bar) (openPrice : Option Amount) (equity : Amount) :
    Except StrategyError Outcome :=
  match if order.forced then none else executionBlockReason config account order bar openPrice with
  | some reason => .ok (.blocked reason)
  | none => match openPrice with
    | some price => .ok (decideOrder config account order bar price equity)
    | none => .error (.type "unsupported operand type(s) for *: 'float' and 'NoneType'")

/-! ## The order ledger -/

/-- The audit fields of a compacted resting row. -/
structure RestingAudit where
  firstEventTime : Time
  lastEventTime : Time
  lastOrderId : Option (Time × ℕ)
  occurrenceCount : ℕ
  minRequestedQuantity : Amount
  maxRequestedQuantity : Amount
  deriving DecidableEq

/-- One row of `broker.order_ledger`.
SOURCE: runtime.py:1325-1356 -/
structure OrderEvent where
  orderId : Time × ℕ
  clientOrderId : String
  symbol : Symbol
  positionSide : Option Side
  kind : OrderKind
  value : Amount
  reason : String
  status : EventStatus
  statusReason : StatusReason
  signalTime : Time
  eventTime : Time
  attempt : ℕ
  requestedQuantity : Amount
  filledQuantity : Amount := 0
  price : Amount := 0
  commission : Amount := 0
  resting : Option RestingAudit := none
  deriving DecidableEq

/-- `_order_event`.
SOURCE: runtime.py:1325-1356 -/
def orderEvent (orderId : Time × ℕ) (order : OrderIntent) (ts : Time) (status : EventStatus)
    (reason : StatusReason) (requestedQuantity filledQuantity price commission : Amount) :
    OrderEvent where
  orderId := orderId
  clientOrderId := order.clientOrderId
  symbol := order.symbol
  positionSide := order.positionSide
  kind := order.kind
  value := order.value
  reason := order.reason
  status := status
  statusReason := reason
  signalTime := backtestTimeIso (order.signalTime.getD ts)
  eventTime := backtestTimeIso ts
  attempt := order.attempts + 1
  requestedQuantity := requestedQuantity
  filledQuantity := filledQuantity
  price := price
  commission := commission

/-- The order ledger with its open compaction windows. -/
structure Ledger where
  orderLedger : List OrderEvent
  restingDeferredEvents : Dict String ℕ

namespace Ledger

/-- A repeated poll folded into the row of its window.
SOURCE: runtime.py:1383-1397 -/
def coalesce (existing event : OrderEvent) : OrderEvent :=
  let requested := event.requestedQuantity
  let audit := existing.resting.getD
    { firstEventTime := existing.eventTime
      lastEventTime := existing.eventTime
      lastOrderId := none
      occurrenceCount := 1
      minRequestedQuantity := requested
      maxRequestedQuantity := requested }
  { existing with
    requestedQuantity := requested
    resting := some
      { audit with
        lastEventTime := event.eventTime
        lastOrderId := some event.orderId
        occurrenceCount := (if audit.occurrenceCount = 0 then 1 else audit.occurrenceCount) + 1
        minRequestedQuantity := min (orElse audit.minRequestedQuantity requested) requested
        maxRequestedQuantity := max (orElse audit.maxRequestedQuantity requested) requested } }

/-- The first row of a compaction window.
SOURCE: runtime.py:1400-1405 -/
def openWindow (event : OrderEvent) : OrderEvent :=
  { event with
    resting := some
      { firstEventTime := event.eventTime
        lastEventTime := event.eventTime
        lastOrderId := none
        occurrenceCount := 1
        minRequestedQuantity := event.requestedQuantity
        maxRequestedQuantity := event.requestedQuantity } }

/-- `_append_order_event(event)`: a row of its own, which ends the window of its id.
SOURCE: runtime.py:1406-1413 -/
def append (ledger : Ledger) (event : OrderEvent) : Ledger where
  orderLedger := ledger.orderLedger ++ [event]
  restingDeferredEvents :=
    if strip event.clientOrderId ≠ "" then
      ledger.restingDeferredEvents.erase (strip event.clientOrderId)
    else ledger.restingDeferredEvents

/-- `_append_order_event(event, coalesce_resting=True)`.
SOURCE: runtime.py:1358-1414 -/
def appendResting (ledger : Ledger) (event : OrderEvent) : Ledger :=
  let reference := strip event.clientOrderId
  if reference = "" then { ledger with orderLedger := ledger.orderLedger ++ [event] }
  else
    let window : Option (ℕ × OrderEvent) :=
      (ledger.restingDeferredEvents.get? reference).bind fun index =>
        (ledger.orderLedger[index]?).bind fun existing =>
          if existing.status = .deferred ∧ existing.statusReason = .limitNotReached
          then some (index, existing) else none
    match window with
    | some (index, existing) =>
      { ledger with orderLedger := ledger.orderLedger.set index (coalesce existing event) }
    | none =>
      { orderLedger := ledger.orderLedger ++ [openWindow event]
        restingDeferredEvents :=
          ledger.restingDeferredEvents.set reference ledger.orderLedger.length }

/-- `release_resting_order_references`.
SOURCE: runtime.py:1416-1419 -/
def release (ledger : Ledger) (references : List String) : Ledger :=
  { ledger with
    restingDeferredEvents :=
      references.foldl (fun windows reference => windows.erase (strip reference))
        ledger.restingDeferredEvents }

end Ledger

/-! ## The broker -/

/-- One point of `broker.equity_curve`.
SOURCE: runtime.py:1589-1595 -/
structure EquityPoint where
  time : Time
  value : Amount
  cash : Amount
  grossExposure : Amount
  netExposure : Amount
  deriving DecidableEq

/-- One entry of `broker.liquidation_events`. -/
structure LiquidationEvent where
  time : Time
  equityBefore : Amount
  deficitAbsorbed : Amount
  positionsClosed : ℕ
  deriving DecidableEq

/-- One order the broker considered: what it decided from, its decision, and the account
around it. -/
structure Decision where
  order : OrderIntent
  bar : Option Bar
  openPrice : Option Amount
  equity : Amount
  before : Account
  outcome : Outcome
  after : Account

/-- `MultiAssetSimulationBroker`, with the history variable.
SOURCE: runtime.py:767-800 -/
structure Broker extends Account where
  protections : Dict PositionKey ProtectionState
  ledger : Ledger
  equityCurve : List EquityPoint
  orderSequence : ℕ
  bankrupt : Bool
  liquidationEvents : List LiquidationEvent
  history : List Decision

namespace Broker

/-- A broker fresh from the constructor.
SOURCE: runtime.py:776-800 -/
def create (initialCapital : Amount) : Broker where
  startingCash := initialCapital
  availableCash := initialCapital
  positions := Dict.empty
  totalValue := initialCapital
  executions := []
  closedTrades := []
  entries := Dict.empty
  gridEntries := Dict.empty
  liquidationAdjustment := 0
  protections := Dict.empty
  ledger := ⟨[], Dict.empty⟩
  equityCurve := []
  orderSequence := 0
  bankrupt := false
  liquidationEvents := []
  history := []

end Broker

end QuantDinger.Model
