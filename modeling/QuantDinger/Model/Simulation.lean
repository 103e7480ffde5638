import QuantDinger.Model.Broker

/-!
# The simulation broker: batches, protections and liquidation

The stateful half of `MultiAssetSimulationBroker`: marking the book, settling what
`planOrder` decided, and the three passes of a bar that trade (`execute`,
`process_protections`, `liquidate_if_insolvent`).

The rows `_record_rebalance`, the holding snapshots and the protection events add to
the report are left out: no code reads them back. The mark `_record_rebalance` makes
of the book is kept.
-/

namespace QuantDinger.Model

open QuantDinger.Library

/-! ## Booking a fill -/

namespace FillPlan

variable (plan : FillPlan)

/-- `fee`.
SOURCE: runtime.py:1031-1032 -/
def fee (config : BrokerConfig) : Amount := |plan.delta * plan.fillPrice| * config.commission

/-- Is what the fill leaves taken for a closed position? -/
def closes : Bool := |plan.targetAmount| ≤ 1 / 10 ^ 12

/-- The position the fill leaves.
SOURCE: runtime.py:1034-1038 -/
def position : Position :=
  { plan.sizing.current with
    amount := plan.targetAmount
    avgCost := nextAverageCost plan.sizing.current.amount plan.sizing.current.avgCost
      plan.delta plan.fillPrice
    lastPrice := plan.fillPrice }

/-- The execution record of the fill.
SOURCE: runtime.py:1071-1097 -/
def execution (config : BrokerConfig) (orderId : Time × ℕ) (ts : Time) (order : OrderIntent)
    (balance : Amount) : Execution :=
  let identity := executionIdentity plan.sizing.current.amount plan.targetAmount plan.delta
  { orderId := orderId
    symbol := order.symbol
    time := backtestTimeIso ts
    isBuy := 0 < plan.delta
    type := identity.1
    positionSide := order.positionSide.getD identity.2
    positionKey := order.key
    quantity := |plan.delta|
    price := plan.fillPrice
    notional := |plan.delta * plan.fillPrice|
    commission := plan.fee config
    balance := balance
    reason := order.reason
    clientOrderId := order.clientOrderId
    signalTime := backtestTimeIso (order.signalTime.getD ts)
    fillReference := plan.fillReference
    referencePrice := plan.sizing.openPrice
    isLimit := order.isLimit
    limitPrice := if order.isLimit then order.limitPrice else 0
    status := plan.status
    requestedQuantity := |plan.sizing.requestedDelta|
    subLotReconciled := plan.exactClose }

/-- The reason of the order event of the fill.
SOURCE: runtime.py:1099-1105 -/
def statusReason (order : OrderIntent) : StatusReason :=
  match plan.status with
  | .partialFill => plan.constraintReason.getD
      (if ∃ limit ∈ plan.liquidityCap, limit < |plan.sizing.requestedDelta|
        then .insufficientLiquidity else .partialFill)
  | _ => if order.forced then .marginLiquidation else .filled

/-- The value the unfilled part of an incremental order is queued again with. A target
order keeps its target.
SOURCE: runtime.py:1122-1151 -/
def remainingValue (order : OrderIntent) : Amount :=
  match order.kind with
  | .quantity => copysign plan.remainingQuantity plan.sizing.requestedDelta
  | .value =>
    copysign (plan.remainingQuantity * plan.sizing.sizingPrice) plan.sizing.requestedDelta
  | _ => order.value

/-- The order that goes on working for the unfilled part.
SOURCE: runtime.py:1122-1151 -/
def remainder (order : OrderIntent) : Option OrderIntent :=
  if plan.status = .partialFill ∧ (order.isLimit ∨ order.attempts < 4) then
    some { order with
      value := plan.remainingValue order
      attempts := if order.isLimit then order.attempts else order.attempts + 1
      pendingDirection := if 0 < plan.sizing.requestedDelta then 1 else -1 }
  else none

end FillPlan

namespace Account

/-- Cash and positions after a fill.
SOURCE: runtime.py:1031-1070 -/
def book (config : BrokerConfig) (account : Account) (key : PositionKey) (plan : FillPlan) :
    Account :=
  let cash := account.availableCash - plan.delta * plan.fillPrice - plan.fee config
  let positions := if plan.closes then account.positions.erase key
    else account.positions.set key plan.position
  { account with
    availableCash := cash
    positions := positions
    totalValue := cash + positions.sumBy fun _ position => position.marketValue }

/-- A fill with its execution record and its trade.
SOURCE: runtime.py:1031-1121 -/
def fill (config : BrokerConfig) (account : Account) (orderId : Time × ℕ) (ts : Time)
    (order : OrderIntent) (plan : FillPlan) : Account :=
  let booked := account.book config order.key plan
  let execution := plan.execution config orderId ts order booked.totalValue
  { booked with executions := booked.executions ++ [execution] }.recordClosedTrade execution
    plan.sizing.current.amount plan.sizing.current.avgCost plan.targetAmount

/-- The account with every position marked anew.
SOURCE: runtime.py:1536-1547 -/
def remark (account : Account) (positions : Dict PositionKey Position) : Account :=
  { account with
    positions := positions
    totalValue := account.availableCash +
      positions.sumBy fun _ position => position.marketValue }

/-- The deficit written off after a forced liquidation.
SOURCE: runtime.py:1195-1201 -/
def absorbDeficit (account : Account) : Account :=
  let deficit := max 0 (-account.availableCash)
  { account with
    liquidationAdjustment := account.liquidationAdjustment + deficit
    availableCash := account.availableCash + deficit }

end Account

/-- The protection of a position that a fill left open.
SOURCE: runtime.py:1045-1067 -/
def protectionAfterFill (order : OrderIntent) (plan : FillPlan) (ts : Time)
    (existing : Option ProtectionState) : Option ProtectionState :=
  let side := sideOf plan.targetAmount
  let sideChanged := existing.any fun state => state.side ≠ side
  if order.protection.isSome ∨ sideChanged then
    match order.protection <|> existing.map ProtectionState.spec with
    | none => existing
    | some spec => match existing with
      | some state =>
        if sideChanged then
          some (ProtectionState.opened order.symbol side plan.position.avgCost spec ts)
        else some (state.applyScaleIn plan.position.avgCost plan.fillPrice spec ts)
      | none => some (ProtectionState.opened order.symbol side plan.position.avgCost spec ts)
  else existing

/-- The protections after a fill.
SOURCE: runtime.py:1040-1067 -/
def protectionsAfterFill (protections : Dict PositionKey ProtectionState) (order : OrderIntent)
    (plan : FillPlan) (ts : Time) : Dict PositionKey ProtectionState :=
  if plan.closes then protections.erase order.key
  else match protectionAfterFill order plan ts (protections.get? order.key) with
    | some state => protections.set order.key state
    | none => protections

/-! ## One batch -/

/-- What `execute` carries from order to order: the broker, the orders to work again and
the prices the closing mark uses. -/
structure Batch where
  broker : Broker
  deferred : List OrderIntent
  marks : Dict PositionKey Amount

/-- The price a mapping of overrides gives a position, by its key and else by its symbol.
SOURCE: runtime.py:828-830 -/
def overridePrice (overrides : Dict PositionKey Amount) (key : PositionKey) : Option Amount :=
  overrides.get? key <|> overrides.get? ⟨key.symbol, none⟩

namespace Broker

/-- The broker with its account part replaced. -/
def withAccount (broker : Broker) (account : Account) : Broker :=
  { broker with toAccount := account }

/-- The books, protections and ledger after one order, with the order that goes on.
SOURCE: runtime.py:826-1151 -/
def settle (config : BrokerConfig) (ts : Time) (order : OrderIntent) (broker : Broker) :
    Outcome → Broker × Option OrderIntent
  | .blocked reason =>
    let status : EventStatus := if 4 ≤ order.attempts then .rejected else .deferred
    ({ broker with
        ledger := broker.ledger.append
          (orderEvent (ts, broker.orderSequence) order ts status reason 0 0 0 0) },
      if 4 ≤ order.attempts then none else some { order with attempts := order.attempts + 1 })
  | .rejected reason requested =>
    ({ broker with
        ledger := broker.ledger.append
          (orderEvent (ts, broker.orderSequence) order ts .rejected reason requested 0 0 0) },
      none)
  | .resting requested =>
    ({ broker with
        ledger := broker.ledger.appendResting
          (orderEvent (ts, broker.orderSequence) order ts .deferred .limitNotReached requested 0
            order.limitPrice 0) },
      some order)
  | .fill plan =>
    ({ broker with
        toAccount := broker.toAccount.fill config (ts, broker.orderSequence) ts order plan
        protections := protectionsAfterFill broker.protections order plan ts
        ledger := broker.ledger.append
          (orderEvent (ts, broker.orderSequence) order ts plan.status (plan.statusReason order)
            |plan.sizing.requestedDelta| |plan.delta| plan.fillPrice (plan.fee config)) },
      plan.remainder order)

/-- The broker after one order, with the order that goes on. The broker numbers the
order first, and keeps its decision.
SOURCE: runtime.py:823-1151 -/
def work (config : BrokerConfig) (ts : Time) (equity : Amount) (order : OrderIntent)
    (bar : Option Bar) (openPrice : Option Amount) (outcome : Outcome) (broker : Broker) :
    Broker × Option OrderIntent :=
  let settled := { broker with orderSequence := broker.orderSequence + 1 }.settle
    config ts order outcome
  ({ settled.1 with
      history := settled.1.history ++ [
        { order := order
          bar := bar
          openPrice := openPrice
          equity := equity
          before := broker.toAccount
          outcome := outcome
          after := settled.1.toAccount }] },
    settled.2)

/-- The prices of the closing mark after one order. -/
def marksAfter (marks : Dict PositionKey Amount) (order : OrderIntent) :
    Outcome → Dict PositionKey Amount
  | .fill plan => marks.set order.key plan.fillPrice
  | _ => marks

/-- One order of a batch.
SOURCE: runtime.py:823-1151 -/
def executeOrder (config : BrokerConfig) (ts : Time) (overrides : Dict PositionKey Amount)
    (equity : Amount) (batch : Batch) (order : OrderIntent) : PortalM Batch := do
  let bar ← Portal.barAt order.symbol ts
  let openPrice := overridePrice overrides order.key <|> bar.map Bar.openPrice
  let outcome ← Library.ofExcept
    (planOrder config batch.broker.toAccount order bar openPrice equity)
  let worked := batch.broker.work config ts equity order bar openPrice outcome
  pure
    { broker := worked.1
      deferred := batch.deferred ++ worked.2.toList
      marks := marksAfter batch.marks order outcome }

/-! ## Marking the book -/

/-- `float(price or position.last_price or position.avg_cost)`. -/
def markPrice (price : Amount) (position : Position) : Amount :=
  orElse price (orElse position.lastPrice position.avgCost)

/-- Mark every position at the price `quote` gives for it. -/
def markWith (quote : PositionKey → Position → PortalM Amount) (broker : Broker) :
    PortalM Broker := do
  let positions ← broker.positions.mapValuesM fun key position => do
    let price ← quote key position
    pure { position with lastPrice := markPrice price position }
  pure (broker.withAccount (broker.toAccount.remark positions))

/-- The price `mark_to_market` takes: the close of the bar, else the latest visible close.
SOURCE: runtime.py:1538-1543 -/
def closeQuote (ts : Time) (position : Position) : PortalM Amount := do
  match ← Portal.closeAt position.symbol ts with
  | some price => pure price
  | none => Portal.current position.symbol "close" position.lastPrice none

/-- The price `mark_to_market_before_fill` takes: an override, else the open of the bar,
else the latest visible close.
SOURCE: runtime.py:1564-1576 -/
def fillQuote (ts : Time) (overrides : Dict PositionKey Amount) (key : PositionKey)
    (position : Position) : PortalM Amount := do
  let given := overrides.get? key <|> overrides.get? ⟨position.symbol, none⟩
  match given.filter (0 < ·) with
  | some price => pure price
  | none => match ← Portal.openAt position.symbol ts with
    | some price => pure price
    | none => Portal.current position.symbol "close" position.lastPrice none

/-- `mark_to_market`.
SOURCE: runtime.py:1536-1547 -/
def markToMarket (ts : Time) (broker : Broker) : PortalM Broker :=
  broker.markWith fun _ position => closeQuote ts position

/-- `mark_to_market_before_fill`.
SOURCE: runtime.py:1549-1580 -/
def markToMarketBeforeFill (ts : Time) (overrides : Dict PositionKey Amount) (broker : Broker) :
    PortalM Broker :=
  broker.markWith (fillQuote ts overrides)

/-- `execute`: the orders to work again, and the broker.
SOURCE: runtime.py:802-1161 -/
def execute (config : BrokerConfig) (ts : Time) (overrides : Dict PositionKey Amount)
    (orders : List OrderIntent) (broker : Broker) : PortalM (List OrderIntent × Broker) :=
  if orders = [] then pure ([], broker)
  else do
    let broker ← broker.markToMarketBeforeFill ts overrides
    let batch ← orders.foldlM (executeOrder config ts overrides broker.totalValue)
      ⟨broker, [], overrides⟩
    let broker ← batch.broker.markToMarketBeforeFill ts batch.marks
    pure (batch.deferred, broker)

/-- `round(x, 8)`. -/
def round8 (x : Amount) : Amount := roundHalfEven (x * 10 ^ 8) / 10 ^ 8

/-- `record_equity`.
SOURCE: runtime.py:1582-1609 -/
def recordEquity (ts : Time) (broker : Broker) : PortalM Broker := do
  let broker ← broker.markToMarket ts
  let value := broker.totalValue
  let gross := broker.positions.sumBy fun _ position => |position.marketValue|
  let net := broker.positions.sumBy fun _ position => position.marketValue
  pure { broker with
    equityCurve := broker.equityCurve ++ [
      { time := backtestTimeIso ts
        value := round8 value
        cash := round8 broker.availableCash
        grossExposure := if value ≠ 0 then gross / value else 0
        netExposure := if value ≠ 0 then net / value else 0 }] }

/-! ## Protection exits -/

/-- A protection that fired, on its way to an order. -/
structure Exit where
  key : PositionKey
  symbol : Symbol
  positionSide : Option Side
  decision : ProtectionDecision

/-- The exit order of a protection. -/
def Exit.order (exit : Exit) (ts : Time) : OrderIntent :=
  { symbol := exit.symbol
    kind := .targetQuantity
    value := 0
    reason := exit.decision.reason.text
    signalTime := some ts
    positionSide := exit.positionSide }

/-- One protection of the pass. A protection without a position is dropped; one without
a bar waits.
SOURCE: runtime.py:1468-1497 -/
def checkProtection (ts : Time) (pass : Broker × List Exit)
    (entry : PositionKey × ProtectionState) : PortalM (Broker × List Exit) := do
  let position := pass.1.positions.get? entry.1
  let symbol := (position.map Position.symbol).getD entry.2.symbol
  let bar ← Portal.barAt symbol ts
  match position, bar with
  | none, _ => pure ({ pass.1 with protections := pass.1.protections.erase entry.1 }, pass.2)
  | some _, none => pure pass
  | some position, some bar =>
    let checked := ProtectionEngine.evaluateBar .conservative
      { entry.2 with entryPrice := position.avgCost } ts bar.openPrice bar.high bar.low
    pure ({ pass.1 with protections := pass.1.protections.set entry.1 checked.2 },
      pass.2 ++ (checked.1.map fun decision =>
        (⟨entry.1, symbol, position.positionSide, decision⟩ : Exit)).toList)

/-- Did the order of the exit fill?
SOURCE: runtime.py:1510-1516 -/
def Exit.executed (exit : Exit) (executions : List Execution) : Bool :=
  executions.any fun execution =>
    execution.positionKey = exit.key ∧ execution.reason = exit.decision.reason.text

/-- Was the order of the exit rejected because the position is already flat?
SOURCE: runtime.py:1517-1523 -/
def Exit.alreadyMet (exit : Exit) (events : List OrderEvent) : Bool :=
  events.any fun event =>
    event.symbol = exit.symbol ∧ event.positionSide = exit.positionSide ∧
      event.reason = exit.decision.reason.text ∧ event.statusReason = .targetAlreadyMet

/-- `process_protections`: the decisions that led to a fill.
SOURCE: runtime.py:1460-1534 -/
def processProtections (config : BrokerConfig) (ts : Time) (broker : Broker) :
    PortalM (List ProtectionDecision × Broker) := do
  let pass ← broker.protections.entries.foldlM (checkProtection ts) (broker, [])
  if pass.2 = [] then pure ([], pass.1)
  else do
    let executionStart := pass.1.executions.length
    let ledgerStart := pass.1.ledger.orderLedger.length
    let overrides := Dict.ofPairs (pass.2.map fun exit => (exit.key, exit.decision.price))
    let result ← pass.1.execute config ts overrides (pass.2.map fun exit => exit.order ts)
    let executions := result.2.executions.drop executionStart
    let events := result.2.ledger.orderLedger.drop ledgerStart
    let settled := pass.2.foldl (fun (protections : Dict PositionKey ProtectionState) exit =>
        if exit.executed executions = false ∧ exit.alreadyMet events then
          protections.erase exit.key
        else protections)
      result.2.protections
    pure ((pass.2.filter fun exit => exit.executed executions).map Exit.decision,
      { result.2 with protections := settled })

/-! ## Insolvency -/

/-- The forced order of one position with its price, when it has one.
SOURCE: runtime.py:1176-1192 -/
def liquidationOrder (ts : Time) (batch : List OrderIntent × Dict PositionKey Amount)
    (entry : PositionKey × Position) :
    PortalM (List OrderIntent × Dict PositionKey Amount) := do
  let position := entry.2
  let close ← Portal.closeAt position.symbol ts
  let price := match close with
    | some price => price
    | none => orElse position.lastPrice position.avgCost
  if price ≤ 0 then pure batch
  else pure (batch.1 ++ [
      { symbol := position.symbol
        kind := .targetQuantity
        value := 0
        reason := "margin_liquidation"
        signalTime := some ts
        positionSide := position.positionSide }],
    batch.2.set ⟨position.symbol, none⟩ price)

/-- The end of a liquidation: the deficit is written off and the account stops.
SOURCE: runtime.py:1195-1209 -/
def closeOut (ts : Time) (equityBefore : Amount) (positionsClosed : ℕ) (broker : Broker) :
    PortalM Broker := do
  let deficit := max 0 (-broker.availableCash)
  let marked ← (broker.withAccount broker.toAccount.absorbDeficit).markToMarket ts
  pure { marked with
    totalValue := max 0 marked.totalValue
    bankrupt := true
    liquidationEvents := marked.liquidationEvents ++
      [⟨backtestTimeIso ts, equityBefore, deficit, positionsClosed⟩] }

/-- `liquidate_if_insolvent`.
SOURCE: runtime.py:1163-1210 -/
def liquidateIfInsolvent (config : BrokerConfig) (ts : Time) (broker : Broker) :
    PortalM (Bool × Broker) :=
  if broker.bankrupt then pure (true, broker)
  else do
    let marked ← broker.markToMarket ts
    if 0 < marked.totalValue then pure (false, marked)
    else do
      let forced ← marked.positions.entries.foldlM (liquidationOrder ts) ([], Dict.empty)
      let result ← marked.execute config ts forced.2 forced.1
      let closed ← result.2.closeOut ts marked.totalValue forced.1.length
      pure (true, closed)

end Broker

end QuantDinger.Model
