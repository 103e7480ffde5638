import QuantDinger.Model.Runner

/-!
# The audit of a finished run

`_reconcile` recomputes cash and positions from the execution log and compares fees,
fill prices, fill times, positions and equity with what the broker reports.
-/

namespace QuantDinger.Model

open QuantDinger.Library

/-- The audit of one run.
SOURCE: runtime.py:2382-2399 -/
structure Reconciliation where
  passed : Bool
  executionCount : ℕ
  closedTradeCount : ℕ
  cashLedger : Amount
  cashLedgerBeforeLiquidationAdjustment : Amount
  liquidationAdjustment : Amount
  ledgerEquity : Amount
  reportedEquity : Amount
  equityDifference : Amount
  feeMismatchIndexes : List ℕ
  fillMismatchIndexes : List ℕ
  timingMismatchIndexes : List ℕ
  positionMismatchSymbols : List PositionKey

/-- `abs(actual - expected) > max(1e-8, abs(expected) * 1e-9)`. -/
def differs (actual expected : Amount) : Bool :=
  max (1 / 10 ^ 8) (|expected| * (1 / 10 ^ 9)) < |actual - expected|

namespace Execution

variable (config : BrokerConfig) (execution : Execution)

/-- The commission is not the rate on the notional.
SOURCE: runtime.py:2342-2344 -/
def feeMismatch : Bool :=
  differs execution.commission (execution.notional * config.commission)

/-- The price the audit expects.
SOURCE: runtime.py:2352-2360 -/
def expectedPrice : Amount :=
  match execution.fillReference with
  | .limit => execution.limitPrice
  | .gapOpen => execution.referencePrice
  | .barOpen => execution.referencePrice *
      (if execution.isBuy then 1 + config.slippage else 1 - config.slippage)

/-- The price is not the expected one.
SOURCE: runtime.py:2361-2363 -/
def fillMismatch : Bool :=
  execution.referencePrice ≤ 0 || differs execution.price (execution.expectedPrice config)

/-- The execution is older than its signal.
SOURCE: runtime.py:2364-2367 -/
def timingMismatch : Bool := execution.time < execution.signalTime

end Execution

/-- What the executions cost, commissions included.
SOURCE: runtime.py:2345-2346 -/
def journalCost (executions : List Execution) : Amount :=
  (executions.map fun execution =>
    execution.signedQuantity * execution.price + execution.commission).sum

/-- What the executions traded under a key.
SOURCE: runtime.py:2347-2348 -/
def journalAmount (executions : List Execution) (key : PositionKey) : Amount :=
  ((executions.filter fun execution => execution.positionKey = key).map
    Execution.signedQuantity).sum

/-- The positions of the elements that satisfy a test. -/
def indexesOf {α : Type} (p : α → Bool) (l : List α) : List ℕ :=
  (l.zipIdx.filter fun e => p e.1).map Prod.snd

/-- `_reconcile`.
SOURCE: runtime.py:2330-2399 -/
def Broker.reconcile (config : BrokerConfig) (broker : Broker) : Reconciliation :=
  let fees := indexesOf (Execution.feeMismatch config) broker.executions
  let fills := indexesOf (Execution.fillMismatch config) broker.executions
  let timings := indexesOf Execution.timingMismatch broker.executions
  let keys := ((broker.executions.map Execution.positionKey ++ broker.positions.keys).dedup).insertionSort
    fun a b => a.text ≤ b.text
  let positions := keys.filter fun key =>
    1 / 10 ^ 8 < |journalAmount broker.executions key - broker.amountAt key|
  let cash := broker.startingCash - journalCost broker.executions
  let equity := cash + broker.liquidationAdjustment +
    broker.positions.sumBy fun _ position => position.marketValue
  let difference := equity - broker.totalValue
  { passed := fees.isEmpty && fills.isEmpty && timings.isEmpty && positions.isEmpty &&
      (|difference| ≤ 1 / 10 ^ 6 : Bool)
    executionCount := broker.executions.length
    closedTradeCount := broker.closedTrades.length
    cashLedger := cash + broker.liquidationAdjustment
    cashLedgerBeforeLiquidationAdjustment := cash
    liquidationAdjustment := broker.liquidationAdjustment
    ledgerEquity := equity
    reportedEquity := broker.totalValue
    equityDifference := difference
    feeMismatchIndexes := fees
    fillMismatchIndexes := fills
    timingMismatchIndexes := timings
    positionMismatchSymbols := positions }

end QuantDinger.Model
