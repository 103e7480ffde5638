import QuantDinger.Model.Context

/-!
# The backtest runner

`StrategyV2BacktestRunner.run`: for every stamp of the driving frequency, the pending
orders are executed, the opening handlers run and their orders are executed, the
protections and the solvency of the account are checked, and the closing handlers run.

The local list `opening_orders` is a field of the run, so that a handler which cancels
an order can be seen to find it there. `trace` is a history variable like the broker's:
what the handlers queued and cancelled, what was filled, and the arguments of every
merge, in the order of their occurrence.
-/

namespace QuantDinger.Model

open QuantDinger.Library

/-- An entry of the trace. A successful cancellation is recorded with its argument and
the ids that wait in the queue of the context, in the pending and in the opening orders. -/
inductive Event
  | queued (order : OrderIntent)
  | cancelled (reference : String) (queue pending opening : List String)
  | filled (reference : String)
  | merged (current incoming : List OrderIntent)
  deriving DecidableEq

/-- The state of a backtest between two steps of the runner. -/
structure Run where
  context : Context
  broker : Broker
  pending : List OrderIntent
  opening : List OrderIntent
  statusCursor : ℕ
  summaries : Dict String OrderStatus
  previous : Option Time
  trace : List Event

/-- A compiled strategy: its manifest, as far as the runner reads it, and its handlers
over a state of its own. -/
structure Strategy (σ : Type) where
  isPortfolio : Bool
  schedules : List ScheduleSpec
  handler : String → Option (Handler σ)

/-- `_merge_pending`.
SOURCE: runtime.py:2937-2951 -/
def mergePending (current incoming : List OrderIntent) : List OrderIntent :=
  incoming.foldl (fun output order =>
      (if order.kind.isTarget then
        output.filter fun item => !(item.key = order.key && item.kind.isTarget)
      else output) ++ [order])
    current

/-- The ids of a list of orders. -/
def orderIds (orders : List OrderIntent) : List String := orders.map OrderIntent.clientOrderId

/-- The exception `_invoke` raises for the exception of a handler.
SOURCE: runtime.py:2006-2016 -/
def handlerError (name : String) : StrategyError → StrategyError
  | .contract message => .contract message
  | .data message => .contract ("strategyV2.runtimeFailed:" ++ name ++ ":" ++ message)
  | .parse message => .contract ("strategyV2.runtimeFailed:" ++ name ++ ":" ++ message)
  | .type message => .contract ("strategyV2.runtimeFailed:" ++ name ++ ":" ++ message)

namespace Run

/-- A run before its first bar. -/
def create (initialCapital : Amount) : Run where
  context := {}
  broker := Broker.create initialCapital
  pending := []
  opening := []
  statusCursor := 0
  summaries := Dict.empty
  previous := none
  trace := []

/-! ## The calls of the API -/

/-- The run after a handler queued an order. -/
def queueOrder (run : Run) (order : OrderIntent) : Run :=
  { run with
    context := run.context.enqueue order
    trace := run.trace ++ [.queued order] }

/-- The run after a handler cancelled a reference. -/
def cancelOrder (run : Run) (clientOrderId : String) : Bool × Run :=
  let result := run.context.cancelOrder clientOrderId
  (result.1,
    { run with
      context := result.2
      trace := if result.1 then
          run.trace ++ [.cancelled clientOrderId (orderIds run.context.orders)
            (orderIds run.pending) (orderIds run.opening)]
        else run.trace })

/-- The order call of the API: an order it cannot read leaves the run as it is. -/
def placeOrder (run : Run) (symbol : String) (kind : OrderKind) (value : Argument)
    (options : OrderOptions) : PortalM (Except StrategyError (Option String) × Run) := do
  match ← attempt (run.context.readOrder symbol kind value options) with
  | .error e => pure (.error e, run)
  | .ok order => pure (.ok (Context.returnedReference options order), run.queueOrder order)

/-- A call that only reads: its value or its exception, and the run as it was. -/
def reading {α : Type} (run : Run) (m : PortalM α) : PortalM (Except StrategyError α × Run) := do
  let response ← attempt m
  pure (response, run)

/-- The answer of the runtime to a call. -/
def answer : (call : ApiCall) → Run → PortalM (call.Response × Run)
  | .current symbol field frequency, run => run.reading (Portal.current symbol field 0 frequency)
  | .history symbols count fields frequency, run =>
    run.reading (Portal.history symbols count fields frequency)
  | .getHistory count frequency fields securities, run =>
    run.reading (Context.getHistory count frequency fields securities)
  | .panel symbols count frequency, run => run.reading (Portal.panel symbols count frequency)
  | .visibleFrame symbol count frequency, run =>
    run.reading (Portal.visibleFrame symbol count frequency)
  | .getPosition symbol side, run =>
    run.reading (Context.getPosition run.broker.toAccount symbol side)
  | .getPositions symbols side, run =>
    run.reading (Context.getPositions run.broker.toAccount symbols side)
  | .portfolio, run =>
    pure (⟨run.broker.startingCash, run.broker.availableCash, run.broker.totalValue⟩, run)
  | .getOrderStatus reference, run => pure (run.context.getOrderStatus reference, run)
  | .cancelOrder reference, run => pure (run.cancelOrder reference)
  | .order symbol kind value options, run => run.placeOrder symbol kind value options
  | .setDefaultProtection values, run =>
    pure ((), { run with context :=
      { run.context with defaultProtection := ProtectionSpec.fromValue values {} } })
  | .consumeLastExitReason symbol, run =>
    pure ((run.context.lastExitReasons.get? symbol).getD "",
      { run with context :=
        { run.context with lastExitReasons := run.context.lastExitReasons.erase symbol } })
  | .clock, run => pure ((run.context.currentDt, run.context.previousTradingDate), run)

/-! ## Orders and statuses -/

/-- `_remove_cancelled_orders` on the pending orders.
SOURCE: runtime.py:1946-1955 -/
def removeCancelledOrders (run : Run) : Run :=
  let cancelled := run.context.cancelledOrderIds
  if cancelled = [] then run
  else
    { run with
      context := run.context.flushCancelled
      broker := { run.broker with ledger := run.broker.ledger.release cancelled }
      pending := run.pending.filter fun order => order.clientOrderId ∉ cancelled }

/-- One event folded into the summaries, with the references it changed.
SOURCE: runtime.py:1959-1978 -/
def summarize (state : Dict String OrderStatus × Dict String OrderStatus) (event : OrderEvent) :
    Dict String OrderStatus × Dict String OrderStatus :=
  let reference := strip event.clientOrderId
  if reference = "" then state
  else
    let current := (state.1.get? reference).getD
      { clientOrderId := reference, status := .unknown }
    let quantity := max 0 event.filledQuantity
    let price := max 0 event.price
    let next : OrderStatus :=
      { current with
        filledQuantity := some (current.filledQuantity.getD 0 + quantity)
        filledNotional := some (current.filledNotional.getD 0 + quantity * price)
        fee := some (current.fee.getD 0 + max 0 event.commission)
        status := event.status.state
        reason := some (.event event.statusReason) }
    (state.1.set reference next, state.2.set reference next)

/-- `_sync_order_statuses`.
SOURCE: runtime.py:1957-1980 -/
def syncOrderStatuses (run : Run) : Run :=
  let events := run.broker.ledger.orderLedger.drop run.statusCursor
  let result := events.foldl summarize (run.summaries, Dict.empty)
  { run with
    summaries := result.1
    statusCursor := run.broker.ledger.orderLedger.length
    context := run.context.updateOrderStatuses result.2.entries }

/-- The run with the broker a trading pass left, and its fills in the trace. -/
def traded (run : Run) (broker : Broker) : Run :=
  { run with
    broker := broker
    trace := run.trace ++
      (broker.executions.drop run.broker.executions.length).map
        fun execution => .filled execution.clientOrderId }

/-- `pending_orders = _merge_pending(pending_orders, incoming)`. -/
def merge (run : Run) (incoming : List OrderIntent) : Run :=
  { run with
    pending := mergePending run.pending incoming
    trace := run.trace ++ [.merged run.pending incoming] }

/-- The queue of the context moved to the opening orders.
SOURCE: runtime.py:1894, 1903, 1907 -/
def collectOpening (run : Run) : Run :=
  { run with
    opening := run.opening ++ run.context.orders
    context := run.context.flushOrders }

/-- The queue of the context merged into the pending orders.
SOURCE: runtime.py:1933, 1936 -/
def mergeQueue (run : Run) : Run :=
  { run.merge run.context.orders with context := run.context.flushOrders }

/-! ## The trading passes of a bar -/

/-- The pending orders executed at the open.
SOURCE: runtime.py:1888-1890 -/
def executePending (config : BrokerConfig) (ts : Time) (run : Run) : PortalM Run := do
  if run.pending = [] then pure run
  else do
    let result ← run.broker.execute config ts Dict.empty run.pending
    pure { run.traded result.2 with pending := result.1 }.syncOrderStatuses

/-- The opening orders executed at the open.
SOURCE: runtime.py:1908-1913 -/
def executeOpening (config : BrokerConfig) (ts : Time) (run : Run) : PortalM Run := do
  if run.opening = [] then pure run
  else do
    let result ← run.broker.execute config ts Dict.empty run.opening
    pure ({ run.traded result.2 with opening := [] }.merge result.1).syncOrderStatuses

/-- The protection pass.
SOURCE: runtime.py:1915-1920 -/
def protect (config : BrokerConfig) (ts : Time) (run : Run) : PortalM Run := do
  let result ← run.broker.processProtections config ts
  let synced := (run.traded result.2).syncOrderStatuses
  pure { synced with
    context := result.1.foldl (fun context decision =>
        context.setLastExitReason decision.symbol decision.reason.text)
      synced.context }

/-- The end of a bar: the equity point and the stamp of the bar.
SOURCE: runtime.py:1942-1943 -/
def recordBar (ts : Time) (run : Run) : PortalM Run := do
  let broker ← run.broker.recordEquity ts
  pure { run with broker := broker, previous := some ts }

/-- The bar becomes the current one.
SOURCE: runtime.py:1882-1884 -/
def enterBar (ts : Time) (run : Run) : Run :=
  { run with
    context := { run.context with
      currentDt := some ts
      previousTradingDate := run.previous } }

end Run

namespace Strategy

variable {σ : Type} (strategy : Strategy σ) (config : BrokerConfig)

/-- `_invoke`: play a handler against the run.
SOURCE: runtime.py:2006-2016 -/
def invoke (name : String) (argument : HandlerArgument) (state : σ × Run) : PortalM (σ × Run) :=
  match strategy.handler name with
  | none => pure state
  | some handler =>
    mapError (handlerError name) ((handler argument state.1).run Run.answer state.2)

/-- An opening handler: its cancellations reach the pending orders, its orders the
opening ones.
SOURCE: runtime.py:1892-1894, 1901-1903 -/
def openingHandler (name : String) (argument : HandlerArgument) (state : σ × Run) :
    PortalM (σ × Run) := do
  let state ← strategy.invoke name argument state
  pure (state.1, state.2.removeCancelledOrders.collectOpening)

/-- One schedule of the manifest.
SOURCE: runtime.py:1895-1903 -/
def runSchedule (ts : Time) (state : σ × Run) (schedule : ScheduleSpec) : PortalM (σ × Run) := do
  let frequency ← fun portal : Portal =>
    (.ok portal.data.drivingFrequency portal : EStateM.Result StrategyError Portal String)
  if schedule.due ts state.2.previous frequency then
    strategy.openingHandler schedule.callback .data state
  else pure state

/-- The handlers of the open.
SOURCE: runtime.py:1892-1907 -/
def openingHandlers (ts : Time) (state : σ × Run) : PortalM (σ × Run) := do
  let state ← strategy.openingHandler "before_trading_start" .data
    (state.1, { state.2 with opening := [] })
  let state ← strategy.schedules.foldlM (strategy.runSchedule ts) state
  if strategy.isPortfolio ∧ strategy.schedules = [] then
    let panel ← Portal.panel [] none none
    strategy.openingHandler "on_rebalance" (.panel panel) state
  else pure state

/-- A closing handler.
SOURCE: runtime.py:1931-1936 -/
def closingHandler (name : String) (state : σ × Run) : PortalM (σ × Run) := do
  let state ← strategy.invoke name .data state
  pure (state.1, state.2.removeCancelledOrders.mergeQueue)

/-- The closing half of a bar, once the account is known to be solvent or not.
SOURCE: runtime.py:1923-1943 -/
def closeBar (ts : Time) (insolvent : Bool) (state : σ × Run) : PortalM (σ × Run) := do
  if insolvent then
    let run ← Run.recordBar ts
      { state.2 with pending := [], context := state.2.context.flushOrders }
    pure (state.1, run)
  else do
    let state ← strategy.closingHandler "handle_data" state
    let state ← strategy.closingHandler "after_trading_end" state
    let run ← state.2.recordBar ts
    pure (state.1, run)

/-- The opening phase: the pending orders and the handlers of the open, up to the point
where their orders are executed.
SOURCE: runtime.py:1887-1907 -/
def openBar (ts : Time) (state : σ × Run) : PortalM (σ × Run) := do
  modify fun portal => portal.setClock ts false
  let run ← state.2.executePending config ts
  strategy.openingHandlers ts (state.1, run)

/-- The opening orders, the protections, and the clock at the close of the bar.
SOURCE: runtime.py:1908-1922 -/
def tradeBar (ts : Time) (state : σ × Run) : PortalM (σ × Run) := do
  let run ← state.2.executeOpening config ts
  let run ← run.protect config ts
  modify fun portal => portal.setClock ts true
  pure (state.1, run)

/-- The solvency check and what follows it.
SOURCE: runtime.py:1923-1943 -/
def finishBar (ts : Time) (state : σ × Run) : PortalM (σ × Run) := do
  let result ← state.2.broker.liquidateIfInsolvent config ts
  strategy.closeBar ts result.1 (state.1, state.2.traded result.2)

/-- One iteration of the loop of `run`.
SOURCE: runtime.py:1881-1943 -/
def runBar (state : σ × Run) (ts : Time) : PortalM (σ × Run) := do
  let run := state.2.enterBar ts
  if run.broker.bankrupt then
    modify fun portal => portal.setClock ts true
    let run ← run.recordBar ts
    pure (state.1, run)
  else do
    let state ← strategy.openBar config ts (state.1, run)
    let state ← tradeBar config ts state
    strategy.finishBar config ts state

/-- The loop of `run` over some stamps. -/
def runBars (state : σ × Run) (timestamps : List Time) : PortalM (σ × Run) :=
  timestamps.foldlM (strategy.runBar config) state

end Strategy

/-- The stamps of a run: those of the driving frames within the requested dates.
SOURCE: runtime.py:1872-1876 -/
def runTimestamps (data : MarketData) (startDate endDate : Option Time) : List Time :=
  data.timestamps.filter fun t => startDate.all (· ≤ t) && endDate.all (t ≤ ·)

/-- A backtest: what `StrategyV2BacktestRunner` is constructed with and run on. -/
structure Backtest (σ : Type) where
  strategy : Strategy σ
  initial : σ
  config : BrokerConfig
  initialCapital : Amount
  data : MarketData
  startDate : Option Time := none
  endDate : Option Time := none

namespace Backtest

variable {σ : Type} (test : Backtest σ)

/-- The stamps `run` goes through. -/
def timestamps : List Time := runTimestamps test.data test.startDate test.endDate

/-- The loop of `run` over the stamps that satisfy `p`.
SOURCE: runtime.py:1871-1943 -/
def runOver (p : Time → Bool) : EStateM.Result StrategyError Portal (σ × Run) :=
  if test.timestamps = [] then
    .error (.contract "strategyV2.backtestRangeEmpty") (Portal.create test.data)
  else test.strategy.runBars test.config (test.initial, Run.create test.initialCapital)
    (test.timestamps.filter p) (Portal.create test.data)

/-- The state of `run` after the bar `t`. -/
def after (t : Time) : EStateM.Result StrategyError Portal (σ × Run) := test.runOver (· ≤ t)

/-- The run gets through the bar `t`, and this is its state there. -/
def Reaches (t : Time) (run : Run) : Prop :=
  ∃ state portal, test.after t = .ok (state, run) portal

end Backtest

end QuantDinger.Model
