import QuantDinger.Model.Order

/-!
# The account books

What a fill leaves behind: the execution record, the open entry and the closed trades
of `_record_closed_trade`, and the per-cell books of the grid template. `Account` is
the part of `MultiAssetSimulationBroker` these functions read and write, together with
the portfolio.
-/

namespace QuantDinger.Model

open QuantDinger.Library

/-- `_backtest_time_iso`: the instant its text denotes, whole seconds.
SOURCE: runtime.py:69-87 -/
def backtestTimeIso (t : Time) : Time := seconds (t / 1000000000)

/-- Which price of the bar an execution filled at. -/
inductive FillReference
  | barOpen
  | gapOpen
  | limit
  deriving DecidableEq, Repr

/-- What an execution did to its position. -/
inductive ExecutionType
  | openLong
  | addLong
  | closeLong
  | reduceLong
  | openShort
  | addShort
  | closeShort
  | reduceShort
  | reverseToLong
  | reverseToShort
  deriving DecidableEq, Repr

/-- One entry of `broker.executions`.
SOURCE: runtime.py:1074-1097 -/
structure Execution where
  orderId : Time × ℕ
  symbol : Symbol
  time : Time
  isBuy : Bool
  type : ExecutionType
  positionSide : Side
  positionKey : PositionKey
  quantity : Amount
  price : Amount
  notional : Amount
  commission : Amount
  balance : Amount
  reason : String
  clientOrderId : String
  signalTime : Time
  fillReference : FillReference
  referencePrice : Amount
  isLimit : Bool
  limitPrice : Amount
  status : EventStatus
  requestedQuantity : Amount
  subLotReconciled : Bool
  deriving DecidableEq

/-- The quantity with its direction, as `_reconcile` and `_record_closed_trade` read it. -/
def Execution.signedQuantity (execution : Execution) : Amount :=
  if execution.isBuy then execution.quantity else -execution.quantity

/-- One value of `broker._entries`. -/
structure Entry where
  time : Time
  price : Amount
  quantity : Amount
  commission : Amount
  side : Side
  deriving DecidableEq

inductive GridPhase
  | entry
  | exit
  deriving DecidableEq, Repr

/-- The identity `_grid_order_identity` reads from a client order id. -/
structure GridIdentity where
  cellIndex : ℤ
  positionSide : Side
  phase : GridPhase
  cycle : ℤ
  deriving DecidableEq

/-- `_grid_order_identity`.
SOURCE: runtime.py:121-142 -/
def gridOrderIdentity (clientOrderId : String) : Option GridIdentity :=
  match splitOn '-' (strip clientOrderId) with
  | [head, cell, side, phase, cycle] =>
    if head ≠ "grid" then none
    else
      let phase? : Option GridPhase :=
        if lower (strip phase) = "entry" then some .entry
        else if lower (strip phase) = "exit" then some .exit else none
      match parseInt cell, parseInt cycle, normalizePositionSide side, phase? with
      | some cell, some cycle, some side, some phase =>
        if cell < 0 ∨ cycle < 1 then none else some ⟨cell, side, phase, cycle⟩
      | _, _, _, _ => none
  | _ => none

/-- `_grid_entry_key`.
SOURCE: runtime.py:1733-1739 -/
structure GridKey where
  positionKey : PositionKey
  cellIndex : ℤ
  positionSide : Side
  cycle : ℤ
  deriving DecidableEq

/-- One value of `broker._grid_entries`. -/
structure GridEntry where
  cellIndex : ℤ
  positionSide : Side
  cycle : ℤ
  entryTime : Time
  entryPrice : Amount
  quantity : Amount
  commission : Amount
  deriving DecidableEq

/-- What `_consume_grid_entry` hands to a closed trade. -/
structure GridMatch where
  cellIndex : ℤ
  cycle : ℤ
  entryTime : Time
  entryPrice : Amount
  entryCommission : Amount
  commission : Amount
  grossProfit : Amount
  profit : Amount
  deriving DecidableEq

/-- The account-average figures a grid match moves aside. -/
structure AccountBasis where
  entryTime : Time
  avgEntryPrice : Amount
  grossProfit : Amount
  realizedProfit : Amount
  deriving DecidableEq

/-- One entry of `broker.closed_trades`.
SOURCE: runtime.py:1665-1699 -/
structure ClosedTrade where
  positionKey : PositionKey
  side : Side
  entryTime : Time
  exitTime : Time
  entryPrice : Amount
  exitPrice : Amount
  quantity : Amount
  profit : Amount
  grossProfit : Amount
  entryCommission : Amount
  exitCommission : Amount
  commission : Amount
  balance : Amount
  closeReason : String
  gridMatch : Option GridMatch
  accountBasis : Option AccountBasis
  deriving DecidableEq

/-- `account_realized_profit` when present, else `profit`: what `_attribution` adds up.
SOURCE: runtime.py:2285-2293 -/
def ClosedTrade.accountProfit (trade : ClosedTrade) : Amount :=
  match trade.accountBasis with
  | some basis => basis.realizedProfit
  | none => trade.profit

/-- The portfolio and the books of the broker. -/
structure Account where
  startingCash : Amount
  availableCash : Amount
  positions : Dict PositionKey Position
  totalValue : Amount
  executions : List Execution
  closedTrades : List ClosedTrade
  entries : Dict PositionKey Entry
  gridEntries : Dict GridKey GridEntry
  liquidationAdjustment : Amount

/-- `_next_average_cost`.
SOURCE: runtime.py:2954-2962 -/
def nextAverageCost (oldAmount oldCost delta fillPrice : Amount) : Amount :=
  let newAmount := oldAmount + delta
  if |newAmount| ≤ 1 / 10 ^ 12 then 0
  else if oldAmount = 0 ∨ 0 < oldAmount * delta then
    (oldAmount * oldCost + delta * fillPrice) / newAmount
  else if oldAmount * newAmount < 0 then fillPrice
  else oldCost

/-- `_execution_identity`.
SOURCE: runtime.py:2969-2978 -/
def executionIdentity (oldAmount targetAmount delta : Amount) : ExecutionType × Side :=
  if 0 ≤ oldAmount ∧ 0 ≤ targetAmount then
    if 0 < delta then
      (if |oldAmount| ≤ 1 / 10 ^ 12 then .openLong else .addLong, .long)
    else (if |targetAmount| ≤ 1 / 10 ^ 12 then .closeLong else .reduceLong, .long)
  else if oldAmount ≤ 0 ∧ targetAmount ≤ 0 then
    if delta < 0 then
      (if |oldAmount| ≤ 1 / 10 ^ 12 then .openShort else .addShort, .short)
    else (if |targetAmount| ≤ 1 / 10 ^ 12 then .closeShort else .reduceShort, .short)
  else if 0 < targetAmount then (.reverseToLong, .long)
  else (.reverseToShort, .short)

/-- The side of a nonzero amount, as the source tests it. -/
def sideOf (amount : Amount) : Side := if 0 < amount then .long else .short

namespace Account

/-- `_gross_value(exclude)`.
SOURCE: runtime.py:1628-1629 -/
def grossValue (account : Account) (exclude : PositionKey) : Amount :=
  (account.positions.erase exclude).sumBy fun _ position => |position.marketValue|

/-- Cash plus the marked value of every position. -/
def markedValue (account : Account) : Amount :=
  account.availableCash + account.positions.sumBy fun _ position => position.marketValue

/-- The stored amount under a key, zero when absent. -/
def amountAt (account : Account) (key : PositionKey) : Amount :=
  ((account.positions.get? key).map Position.amount).getD 0

/-- `_record_grid_entry`.
SOURCE: runtime.py:1741-1774 -/
def recordGridEntry (gridEntries : Dict GridKey GridEntry) (execution : Execution)
    (quantity commission : Amount) : Dict GridKey GridEntry :=
  match gridOrderIdentity execution.clientOrderId with
  | none => gridEntries
  | some identity =>
    if identity.phase ≠ .entry ∨ quantity ≤ 1 / 10 ^ 12 then gridEntries
    else
      let key : GridKey :=
        ⟨execution.positionKey, identity.cellIndex, identity.positionSide, identity.cycle⟩
      match gridEntries.get? key with
      | none => gridEntries.set key
          { cellIndex := identity.cellIndex
            positionSide := identity.positionSide
            cycle := identity.cycle
            entryTime := execution.time
            entryPrice := execution.price
            quantity := quantity
            commission := commission }
      | some current =>
        let combined := current.quantity + quantity
        if combined ≤ 1 / 10 ^ 12 then gridEntries
        else gridEntries.set key
          { current with
            entryPrice :=
              (current.entryPrice * current.quantity + execution.price * quantity) / combined
            quantity := combined
            commission := current.commission + commission }

/-- `_consume_grid_entry`.
SOURCE: runtime.py:1776-1818 -/
def consumeGridEntry (gridEntries : Dict GridKey GridEntry) (execution : Execution)
    (closingQuantity closeCommission : Amount) :
    Option GridMatch × Dict GridKey GridEntry :=
  match gridOrderIdentity execution.clientOrderId with
  | none => (none, gridEntries)
  | some identity =>
    if identity.phase ≠ .exit ∨ closingQuantity ≤ 1 / 10 ^ 12 then (none, gridEntries)
    else
      let key : GridKey :=
        ⟨execution.positionKey, identity.cellIndex, identity.positionSide, identity.cycle⟩
      match gridEntries.get? key with
      | none => (none, gridEntries)
      | some entry =>
        if entry.quantity + 1 / 10 ^ 10 < closingQuantity then (none, gridEntries)
        else
          let entryCommission :=
            entry.commission * closingQuantity / max entry.quantity (1 / 10 ^ 12)
          let remaining := max 0 (entry.quantity - closingQuantity)
          let rest := if remaining ≤ 1 / 10 ^ 12 then gridEntries.erase key
            else gridEntries.set key
              { entry with
                quantity := remaining
                commission := max 0 (entry.commission - entryCommission) }
          let direction : Amount := if identity.positionSide = .long then 1 else -1
          let gross := (execution.price - entry.entryPrice) * closingQuantity * direction
          let commission := entryCommission + closeCommission
          (some
            { cellIndex := identity.cellIndex
              cycle := identity.cycle
              entryTime := entry.entryTime
              entryPrice := entry.entryPrice
              entryCommission := entryCommission
              commission := commission
              grossProfit := gross
              profit := gross - commission }, rest)

/-- The closing part of `_record_closed_trade`: the trade it books and the entry it leaves.
SOURCE: runtime.py:1649-1706 -/
def closeEntry (account : Account) (execution : Execution) (oldAmount oldCost targetAmount
    closingQuantity closeFee : Amount) : Account :=
  let key := execution.positionKey
  let entry := (account.entries.get? key).getD
    { time := execution.time
      price := oldCost
      quantity := |oldAmount|
      commission := 0
      side := sideOf oldAmount }
  let entryQuantity := max entry.quantity closingQuantity
  let entryFee := entry.commission * closingQuantity / entryQuantity
  let direction : Amount := if 0 < oldAmount then 1 else -1
  let entryPrice := orElse entry.price oldCost
  let gross := (execution.price - entryPrice) * closingQuantity * direction
  let profit := gross - entryFee - closeFee
  let grid := consumeGridEntry account.gridEntries execution closingQuantity closeFee
  let trade : ClosedTrade := match grid.1 with
    | none =>
      { positionKey := key
        side := entry.side
        entryTime := entry.time
        exitTime := execution.time
        entryPrice := entryPrice
        exitPrice := execution.price
        quantity := closingQuantity
        profit := profit
        grossProfit := gross
        entryCommission := entryFee
        exitCommission := closeFee
        commission := entryFee + closeFee
        balance := execution.balance
        closeReason := execution.reason
        gridMatch := none
        accountBasis := none }
    | some found =>
      { positionKey := key
        side := entry.side
        entryTime := found.entryTime
        exitTime := execution.time
        entryPrice := found.entryPrice
        exitPrice := execution.price
        quantity := closingQuantity
        profit := found.profit
        grossProfit := found.grossProfit
        entryCommission := found.entryCommission
        exitCommission := closeFee
        commission := found.commission
        balance := execution.balance
        closeReason := execution.reason
        gridMatch := some found
        accountBasis := some
          { entryTime := entry.time
            avgEntryPrice := entryPrice
            grossProfit := gross
            realizedProfit := profit } }
  let remaining := max 0 (entryQuantity - closingQuantity)
  { account with
    closedTrades := account.closedTrades ++ [trade]
    gridEntries := grid.2
    entries :=
      if 1 / 10 ^ 12 < remaining ∧ 0 ≤ oldAmount * targetAmount then
        account.entries.set key
          { entry with
            quantity := remaining
            commission := max 0 (entry.commission - entryFee) }
      else account.entries.erase key }

/-- The opening part of `_record_closed_trade`.
SOURCE: runtime.py:1708-1731 -/
def openEntry (account : Account) (execution : Execution)
    (targetAmount openingQuantity openFee : Amount) : Account :=
  let key := execution.positionKey
  let side := sideOf targetAmount
  let fresh : Entry :=
    { time := execution.time
      price := execution.price
      quantity := openingQuantity
      commission := openFee
      side := side }
  let entry := match account.entries.get? key with
    | some existing =>
      if existing.side = side then
        let combined := existing.quantity + openingQuantity
        { existing with
          price := (orElse existing.price execution.price * existing.quantity +
            execution.price * openingQuantity) / combined
          quantity := combined
          commission := existing.commission + openFee }
      else fresh
    | none => fresh
  { account with
    entries := account.entries.set key entry
    gridEntries := recordGridEntry account.gridEntries execution openingQuantity openFee }

/-- The part of a fill that goes against the position.
SOURCE: runtime.py:1642-1644 -/
def closingQuantity (oldAmount delta : Amount) : Amount :=
  if oldAmount * delta < 0 then min |oldAmount| |delta| else 0

/-- The fee of the closing part, pro rata.
SOURCE: runtime.py:1646 -/
def closingFee (execution : Execution) (closing : Amount) : Amount :=
  execution.commission * closing / max |execution.signedQuantity| (1 / 10 ^ 12)

/-- The account once the closing part of an execution is booked.
SOURCE: runtime.py:1649-1706 -/
def bookClosing (account : Account) (execution : Execution)
    (oldAmount oldCost targetAmount : Amount) : Account :=
  let closing := closingQuantity oldAmount execution.signedQuantity
  if 1 / 10 ^ 12 < closing then
    account.closeEntry execution oldAmount oldCost targetAmount closing
      (closingFee execution closing)
  else account

/-- `_record_closed_trade`.
SOURCE: runtime.py:1631-1731 -/
def recordClosedTrade (account : Account) (execution : Execution)
    (oldAmount oldCost targetAmount : Amount) : Account :=
  let closing := closingQuantity oldAmount execution.signedQuantity
  let opening := max 0 (|execution.signedQuantity| - closing)
  let closed := account.bookClosing execution oldAmount oldCost targetAmount
  if 1 / 10 ^ 12 < opening then
    closed.openEntry execution targetAmount opening
      (execution.commission - closingFee execution closing)
  else closed

end Account

end QuantDinger.Model
