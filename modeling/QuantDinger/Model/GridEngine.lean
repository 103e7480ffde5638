import QuantDinger.Model.FillPosting
import QuantDinger.Model.LegPosition

/-!
# The live grid engine

The rows of a resting grid (cells, resting orders, the strategy's legs and trades) and the
engine that keeps them: the placement of limit orders with the cap on exits, the coverage of a
held cell by its exit, the handling of a fill, the projection of an execution snapshot onto
its order, and the periodic placement of entries. What the exchange, the clock and the other
strategies answer comes with each call. Log texts and the ids of working orders are left out.
-/

namespace QuantDinger.Model.Live

open QuantDinger.Library

/-! ## Rows -/

/-- `GridCellState`. -/
inductive GridCellState
  | idle
  | buyOpen
  | longHeld
  | sellOpen
  | shortHeld
  deriving DecidableEq

/-- `purpose` of a resting order. -/
inductive GridPurpose
  | longEntry
  | longExit
  | shortEntry
  | shortExit
  deriving DecidableEq

namespace GridPurpose

/-- `pos_side` of the orders of a purpose. -/
def posSide : GridPurpose → PositionSide
  | .longEntry | .longExit => .long
  | .shortEntry | .shortExit => .short

/-- `reduce_only` of the orders of a purpose. -/
def exits : GridPurpose → Bool
  | .longExit | .shortExit => true
  | .longEntry | .shortEntry => false

/-- The orders of the purpose buy. -/
def buys : GridPurpose → Bool
  | .longEntry | .shortExit => true
  | .longExit | .shortEntry => false

/-- `_PURPOSE_TO_SIGNAL`. -/
def signal : GridPurpose → SignalType
  | .longEntry => .openLong
  | .longExit => .closeLong
  | .shortEntry => .openShort
  | .shortExit => .closeShort

/-- The entries of a side. -/
def entryOf : PositionSide → GridPurpose
  | .long => .longEntry
  | .short => .shortEntry

/-- The exits of a side. -/
def exitOf : PositionSide → GridPurpose
  | .long => .longExit
  | .short => .shortExit

end GridPurpose

/-- A cell that holds inventory of a side. -/
def GridCellState.heldOn : PositionSide → GridCellState
  | .long => .longHeld
  | .short => .shortHeld

/-- A cell with a working entry of a side. -/
def GridCellState.openOn : PositionSide → GridCellState
  | .long => .buyOpen
  | .short => .sellOpen

/-- `GridCellSpec`. -/
structure GridCellSpec where
  index : ℕ
  lowerPrice : Amount
  upperPrice : Amount
  deriving DecidableEq

/-- Where the entries of a side rest in a cell; its exits rest at the other end. -/
def GridCellSpec.entryPrice (spec : GridCellSpec) : PositionSide → Amount
  | .long => spec.lowerPrice
  | .short => spec.upperPrice

def GridCellSpec.exitPrice (spec : GridCellSpec) : PositionSide → Amount
  | .long => spec.upperPrice
  | .short => spec.lowerPrice

/-- A row of `qd_grid_cells`; `entryGridOrderIds` is kept in `extra`. -/
structure GridCell where
  lowerPrice : Amount
  upperPrice : Amount
  state : GridCellState := .idle
  legSize : Amount := 0
  legEntryPrice : Amount := 0
  entryGridOrderIds : List ℕ := []
  deriving DecidableEq

/-- `status` of a resting order. -/
inductive GridOrderStatus
  | pending
  | working
  | partlyFilled
  | filled
  | cancelled
  deriving DecidableEq

/-- `OPEN_STATUSES`. -/
def GridOrderStatus.isOpen : GridOrderStatus → Bool
  | .pending | .working | .partlyFilled => true
  | .filled | .cancelled => false

/-- A row of `qd_grid_resting_orders`. -/
structure GridRestingOrder where
  id : ℕ
  cellIndex : ℕ
  purpose : GridPurpose
  price : Amount
  quantity : Amount
  status : GridOrderStatus := .working
  filledQuantity : Amount := 0
  avgFillPrice : Amount := 0
  processedFillQty : Amount := 0
  entryGridOrderIds : List ℕ := []
  deriving DecidableEq

/-- The quantity of an order whose fills have not been processed. -/
def GridRestingOrder.remaining (order : GridRestingOrder) : Amount :=
  max 0 (order.quantity - order.processedFillQty)

/-- A row of `qd_strategy_trades` of a grid order. -/
structure GridTrade where
  gridOrderId : ℕ
  signal : SignalType
  amount : Amount
  price : Amount
  matched : MatchedFill := {}
  deriving DecidableEq

/-- `grid_direction`. -/
inductive GridDirection
  | long
  | short
  | neutral
  deriving DecidableEq

/-- The configuration of a grid. `budget` is `_grid_budget_usdt` of a cell and `normalize` is
`normalize_grid_order_quantity` of a quantity at a price. -/
structure GridConfig where
  cells : List GridCellSpec
  direction : GridDirection := .long
  maxOpenOrders : ℕ := 999999
  symbol : String := "BTC/USDT"
  marketType : String := "swap"
  leverage : Amount := 1
  budget : ℕ → Amount := fun _ => 0
  normalize : Amount → Amount → Amount := fun quantity _ => quantity

/-- The rows of one grid, and the flags of its engine. -/
structure GridStore where
  cells : ℕ → Option GridCell
  orders : List GridRestingOrder := []
  legs : PositionSide → LegPosition := fun _ => {}
  trades : List GridTrade := []
  lastMarketPrice : Amount := 0
  stopRequested : Bool := false
  pausedEntries : Bool := false

/-! ## Queries and updates -/

namespace GridStore

variable (store : GridStore)

/-- `list_open`. -/
def openOrders : List GridRestingOrder := store.orders.filter fun order => order.status.isOpen

/-- `_open_orders_for_cell`. -/
def openOrdersForCell (index : ℕ) (purpose : GridPurpose) : List GridRestingOrder :=
  store.openOrders.filter fun order => order.cellIndex = index ∧ order.purpose = purpose

/-- The row of an order. -/
def order? (id : ℕ) : Option GridRestingOrder := store.orders.find? fun order => order.id = id

/-- An update of the row of an order. -/
def setOrder (id : ℕ) (f : GridRestingOrder → GridRestingOrder) : GridStore :=
  { store with orders := store.orders.map fun order => if order.id = id then f order else order }

/-- An update of the row of a cell. -/
def setCell (index : ℕ) (cell : GridCell) : GridStore :=
  { store with cells := Function.update store.cells index (some cell) }

/-- `_cell_state_by_index`: a cell without a row is idle. -/
def cellState (index : ℕ) : GridCellState := ((store.cells index).map GridCell.state).getD .idle

/-- `_observe_market_price`. -/
def observeMarketPrice (price : Amount) : GridStore :=
  if 0 < price then { store with lastMarketPrice := price } else store

/-- `_cell_allows_entry`, with the states the caller has read.
SOURCE: engine.py:1133-1153 -/
def CellAllowsEntry (states : ℕ → GridCellState) (index : ℕ) (side : PositionSide) : Prop :=
  states index = .idle ∧ store.openOrdersForCell index (.entryOf side) = [] ∧
    store.openOrdersForCell index (.exitOf side) = []

instance (states : ℕ → GridCellState) (index : ℕ) (side : PositionSide) :
    Decidable (store.CellAllowsEntry states index side) :=
  inferInstanceAs (Decidable (_ ∧ _))

end GridStore

/-! ## Cancellations -/

/-- What the exchange answers when an order is cancelled and queried. -/
structure CancelAnswer where
  cancelled : Bool := true
  filled : Amount := 0
  deriving DecidableEq

/-- The cancellation of an order is confirmed and leaves no fill unprocessed.
SOURCE: engine.py:1484-1487 -/
def CancelConfirmed (order : GridRestingOrder) (answer : CancelAnswer) : Prop :=
  answer.cancelled = true ∧
    max answer.filled order.filledQuantity ≤ order.processedFillQty + 1 / 10 ^ 12

instance (order : GridRestingOrder) (answer : CancelAnswer) :
    Decidable (CancelConfirmed order answer) :=
  inferInstanceAs (Decidable (_ ∧ _))

/-- `_cancel_confirmed_order`.
SOURCE: engine.py:1457-1490 -/
def GridStore.cancelConfirmedOrder (store : GridStore) (order : GridRestingOrder)
    (answer : CancelAnswer) : GridStore × Bool :=
  if CancelConfirmed order answer then
    (store.setOrder order.id fun row => { row with status := .cancelled }, true)
  else (store, false)

/-- The cancellation of orders one after the other, whatever becomes of each. -/
def GridStore.cancelEach (store : GridStore) (orders : List GridRestingOrder)
    (answer : GridRestingOrder → CancelAnswer) : GridStore :=
  orders.foldl (fun store order => (store.cancelConfirmedOrder order (answer order)).1) store

/-- `_cancel_position_orders_on_exchange`.
SOURCE: engine.py:2155-2189 -/
def GridStore.cancelPositionOrders (store : GridStore) (side : PositionSide) (exits : Bool)
    (answer : GridRestingOrder → CancelAnswer) : GridStore :=
  store.cancelEach (store.openOrders.filter fun order =>
    order.purpose.exits = exits ∧ order.purpose.posSide = side) answer

/-! ## Placing an order -/

/-- What the account answers when an exit is sized: the exchange position, the allocation of
the account leg (absent without a credential), the quantity reserved on the exchange (absent
where it is not asked for), the spot clamp, and whether the inventory could be verified. -/
structure ExitAnswers where
  exchangeSize : Amount := 0
  allocated : Option Amount := none
  reserved : Option Amount := none
  spotClamp : Amount → Amount := id
  verified : Bool := true

/-- The quantity of the open exits of a side.
SOURCE: engine.py:599-614 -/
def GridStore.existingExits (store : GridStore) (side : PositionSide) : Amount :=
  ((store.openOrders.filter fun order =>
    order.purpose.exits = true ∧ order.purpose.posSide = side).map
      GridRestingOrder.remaining).sum

/-- `_resolve_grid_exit_quantity`.
SOURCE: engine.py:555-652 -/
def GridStore.resolveGridExitQuantity (store : GridStore) (config : GridConfig)
    (side : PositionSide) (requested : Amount) (answers : ExitAnswers) : Amount :=
  if answers.verified = false then 0
  else
    let dbSize := max 0 (store.legs side).size
    let byLedger := sizeByLedger requested dbSize false
    let byExchange := sizeByExchange byLedger.1 answers.exchangeSize byLedger.2 false
    let resolved := sizeByAllocation byExchange.1 (answers.allocated.getD dbSize) byExchange.2
    let existing := store.existingExits side
    let safeTotal := min (max 0 resolved.2.dbSize) (max 0 resolved.2.exchangeStrategyAvailable)
    let reserved := match answers.reserved with
      | some quantity => max existing quantity
      | none => existing
    let amount := min (max 0 resolved.1) (max 0 (safeTotal - reserved))
    max 0 (if config.marketType = "spot" ∧ 0 < amount then answers.spotClamp amount else amount)

/-- What becomes of an order that is sent: the order guard holds it back, it is refused (and
the errors may stop the engine), its row cannot be inserted, or it rests. -/
inductive GridPlacement
  | guarded
  | refused (stops : Bool)
  | notInserted
  | placed
  deriving DecidableEq

/-- What the outside answers to `_place_limit`. -/
structure PlaceAnswers where
  recentConflict : Bool := false
  allowed : Bool := true
  shortfall : Bool := false
  cancels : GridRestingOrder → CancelAnswer := fun _ => {}
  exit : ExitAnswers := {}
  outcome : GridPlacement := .placed

/-- `is_marketable_limit_price` and the clamp of `normalize_marketable_limit_price`.
SOURCE: limit_price_safety.py:6-40 -/
def marketableLimitPrice (buys : Bool) (price reference : Amount) : Amount :=
  if 0 < price ∧ 0 < reference ∧ (if buys then reference ≤ price else price ≤ reference)
  then reference else price

/-- `_qty_from_usdt`.
SOURCE: engine.py:230-234 -/
def GridConfig.qtyFromUsdt (config : GridConfig) (usdt price : Amount) : Amount :=
  if price ≤ 0 ∨ usdt ≤ 0 then 0
  else usdt * (if config.marketType = "spot" then 1 else config.leverage) / price

/-- `_normalize_grid_base_qty`.
SOURCE: engine.py:1492-1508 -/
def GridConfig.normalizeBaseQty (config : GridConfig) (quantity price : Amount) : Amount :=
  if quantity ≤ 0 ∨ price ≤ 0 then 0 else config.normalize quantity price

/-- `_cell_cost_basis`.
SOURCE: engine.py:1357-1377 -/
def GridCell.costBasis (cell : GridCell) (side : PositionSide) (fallback : Amount) : Amount :=
  if 0 < cell.legEntryPrice then cell.legEntryPrice
  else match side with
    | .long => if cell.lowerPrice = 0 then fallback else cell.lowerPrice
    | .short => if cell.upperPrice = 0 then fallback else cell.upperPrice

/-- The cell after an order has been placed for it.
SOURCE: engine.py:1905-1928 -/
def GridCell.withOrder (cell : GridCell) (purpose : GridPurpose) (price quantity : Amount) :
    GridCell :=
  { cell with
    state := if purpose.exits then .heldOn purpose.posSide else .openOn purpose.posSide
    legSize := quantity
    legEntryPrice := if purpose.exits then cell.costBasis purpose.posSide price else price }

/-- The rows after an order has been placed.
SOURCE: engine.py:1847-1928 -/
def GridStore.recordPlaced (store : GridStore) (index : ℕ) (purpose : GridPurpose)
    (price quantity : Amount) : GridStore :=
  let order : GridRestingOrder := {
    id := store.orders.length + 1
    cellIndex := index
    purpose := purpose
    price := price
    quantity := quantity
    entryGridOrderIds := if purpose.exits
      then ((store.cells index).map GridCell.entryGridOrderIds).getD [] else [] }
  { store with
    orders := store.orders ++ [order]
    cells := Function.update store.cells index
      ((store.cells index).map fun cell => cell.withOrder purpose price quantity) }

/-- The order is sent and recorded.
SOURCE: engine.py:1828-1941 -/
def GridStore.sendLimit (store : GridStore) (index : ℕ) (purpose : GridPurpose)
    (price quantity : Amount) (outcome : GridPlacement) : GridStore × Bool :=
  match outcome with
  | .guarded => (store, false)
  | .refused stops =>
    ({ store with
      stopRequested := store.stopRequested || stops
      pausedEntries := store.pausedEntries || stops }, false)
  | .notInserted => (store, false)
  | .placed => (store.recordPlaced index purpose price quantity, true)

/-- The price an order is sent at. -/
def GridStore.limitPrice (store : GridStore) (purpose : GridPurpose) (price : Amount) : Amount :=
  if 0 < store.lastMarketPrice then marketableLimitPrice purpose.buys price store.lastMarketPrice
  else price

/-- `_place_limit`.
SOURCE: engine.py:1751-1941 -/
def GridStore.placeLimit (store : GridStore) (config : GridConfig) (index : ℕ)
    (purpose : GridPurpose) (price : Amount) (quantity : Option Amount) (answers : PlaceAnswers) :
    GridStore × Bool :=
  if store.stopRequested = true ∨ price ≤ 0 then (store, false)
  else
    let px := store.limitPrice purpose price
    if purpose.exits = true ∧ answers.recentConflict = true then (store, false)
    else
      let qty := config.normalizeBaseQty
        (quantity.getD (config.qtyFromUsdt (config.budget index) px)) px
      if qty ≤ 0 then (store, false)
      else if purpose.exits then
        let qty := config.normalizeBaseQty
          (store.resolveGridExitQuantity config purpose.posSide qty answers.exit) px
        if qty ≤ 0 then (store, false)
        else store.sendLimit index purpose px qty answers.outcome
      else if answers.allowed = false then
        let store := store.cancelPositionOrders purpose.posSide false answers.cancels
        (if answers.shortfall
          then store.cancelPositionOrders purpose.posSide true answers.cancels else store, false)
      else store.sendLimit index purpose px qty answers.outcome

/-! ## Covering a held cell -/

/-- What the outside answers to the follow-up of a fill. -/
structure CoverAnswers where
  client : Bool := true
  cancels : GridRestingOrder → CancelAnswer := fun _ => {}
  place : PlaceAnswers := {}

/-- The cancellation of orders until one is not confirmed. -/
def GridStore.cancelAll (store : GridStore) (answer : GridRestingOrder → CancelAnswer) :
    List GridRestingOrder → GridStore × Bool
  | [] => (store, true)
  | order :: orders =>
    let cancelled := store.cancelConfirmedOrder order (answer order)
    if cancelled.2 then cancelled.1.cancelAll answer orders else (store, false)

/-- The working exits of a cell cover a quantity up to the tolerance.
SOURCE: engine.py:1426-1433 -/
def GridStore.ExitCovered (store : GridStore) (index : ℕ) (side : PositionSide)
    (desired : Amount) : Prop :=
  |((store.openOrdersForCell index (.exitOf side)).map GridRestingOrder.remaining).sum - desired| ≤
    max (1 / 10 ^ 10) (desired * (1 / 10 ^ 8))

instance (store : GridStore) (index : ℕ) (side : PositionSide) (desired : Amount) :
    Decidable (store.ExitCovered index side desired) :=
  inferInstanceAs (Decidable (_ ≤ _))

/-- `_ensure_cell_exit_coverage`.
SOURCE: engine.py:1411-1455 -/
def GridStore.ensureCellExitCoverage (store : GridStore) (config : GridConfig)
    (spec : GridCellSpec) (side : PositionSide) (quantity : Amount) (answers : CoverAnswers) :
    GridStore × Bool :=
  let price := spec.exitPrice side
  let desired := config.normalizeBaseQty quantity price
  if desired ≤ 0 then (store, false)
  else if store.ExitCovered spec.index side desired then (store, true)
  else if answers.client = false then (store, false)
  else
    let cancelled := store.cancelAll answers.cancels
      (store.openOrdersForCell spec.index (.exitOf side))
    if cancelled.2 then
      cancelled.1.placeLimit config spec.index (.exitOf side) price (some desired) answers.place
    else (cancelled.1, false)

/-! ## Fills -/

/-- What `on_order_filled` leaves to be done after the commit: the exit of a held cell, or a
new entry of a cell that was sold out. -/
inductive GridFollowUp
  | cover (spec : GridCellSpec) (side : PositionSide) (quantity : Amount)
  | reenter (spec : GridCellSpec) (side : PositionSide) (quantity : Amount)

/-- The cell after a fill of an entry.
SOURCE: engine.py:1997-2037, 2068-2087 -/
def GridCell.entryFilled (cell : GridCell) (side : PositionSide) (orderId : ℕ)
    (filled price : Amount) : GridCell :=
  let prior := if cell.state = .heldOn side then max 0 cell.legSize else 0
  let held := prior + filled
  let ids := if cell.state ≠ .heldOn side ∨ max 0 cell.legSize ≤ 1 / 10 ^ 10
    then [] else cell.entryGridOrderIds
  { cell with
    state := .heldOn side
    legSize := held
    legEntryPrice := if 0 < held then (max 0 cell.legEntryPrice * prior + price * filled) / held
      else price
    entryGridOrderIds := if orderId ∈ ids then ids else ids ++ [orderId] }

/-- The cell after a fill of an exit.
SOURCE: engine.py:2051-2061, 2102-2110 -/
def GridCell.exitFilled (cell : GridCell) (side : PositionSide) (filled : Amount) : GridCell :=
  let remaining := max 0 (max 0 cell.legSize - filled)
  { cell with
    state := if 1 / 10 ^ 10 < remaining then .heldOn side else .idle
    legSize := remaining
    entryGridOrderIds := if 1 / 10 ^ 10 < remaining then cell.entryGridOrderIds else [] }

/-- What a fill does to the leg and to the trades.
SOURCE: fill_handler.py:27-90 -/
def GridStore.applyGridFill (store : GridStore) (config : GridConfig) (order : GridRestingOrder)
    (filled price : Amount) (fees : Fees) : GridStore :=
  let side := order.purpose.posSide
  let signal := order.purpose.signal
  let applied := (store.legs side).applyFill signal
    (spotPositionFillQuantity config.marketType config.symbol signal filled fees) price
  { store with
    legs := Function.update store.legs side applied.1
    trades := store.trades ++ [⟨order.id, signal, filled, price, applied.2⟩] }

/-- What a fill does to its cell, and what is left to be done.
SOURCE: engine.py:1973-2113 -/
def GridStore.fillCell (store : GridStore) (spec : GridCellSpec) (cell : GridCell)
    (order : GridRestingOrder) (filled price : Amount) : GridStore × Option GridFollowUp :=
  let side := order.purpose.posSide
  if order.purpose.exits then
    let next := cell.exitFilled side filled
    let store := store.setCell spec.index next
    (store, if next.legSize ≤ 1 / 10 ^ 10 ∧ store.pausedEntries = false ∧
        store.CellAllowsEntry store.cellState spec.index side
      then some (.reenter spec side filled) else none)
  else
    let next := cell.entryFilled side order.id filled price
    (store.setCell spec.index next, some (.cover spec side next.legSize))

/-- `on_order_filled`, up to the commit.
SOURCE: engine.py:1943-2113 -/
def GridStore.onOrderFilled (store : GridStore) (config : GridConfig) (order : GridRestingOrder)
    (filled price : Amount) (fees : Fees) : Except FillError (GridStore × Option GridFollowUp) :=
  match requireExecution filled price with
  | .error e => .error e
  | .ok () =>
    let applied := store.applyGridFill config order filled price fees
    match config.cells.find? fun spec => spec.index = order.cellIndex with
    | none => .ok (applied, none)
    | some spec =>
      let owned := spotPositionFillQuantity config.marketType config.symbol order.purpose.signal
        filled fees
      match store.cells spec.index with
      | none => .error .fillSnapshotNotReady
      | some cell =>
        .ok ((applied.observeMarketPrice price).fillCell spec cell order owned price)

/-- The follow-up of a fill, after the commit. -/
def GridStore.runFollowUp (store : GridStore) (config : GridConfig) (answers : CoverAnswers) :
    Option GridFollowUp → GridStore
  | none => store
  | some (.cover spec side quantity) =>
    (store.ensureCellExitCoverage config spec side quantity answers).1
  | some (.reenter spec side quantity) =>
    (store.placeLimit config spec.index (.entryOf side) (spec.entryPrice side) (some quantity)
      answers.place).1

/-! ## Projecting a snapshot -/

namespace GridStore

variable (store : GridStore)

/-- `posted["quantity"]` of a grid order. -/
def postedQuantity (orderId : ℕ) : Amount :=
  ((store.trades.filter fun trade => trade.gridOrderId = orderId).map GridTrade.amount).sum

/-- The value of the posted trades of a grid order. -/
def postedValue (orderId : ℕ) : Amount :=
  ((store.trades.filter fun trade => trade.gridOrderId = orderId).map fun trade =>
    trade.amount * trade.price).sum

/-- `posted["average"]` of a grid order. -/
def postedAverage (orderId : ℕ) : Amount :=
  if 0 < store.postedQuantity orderId then store.postedValue orderId / store.postedQuantity orderId
  else 0

end GridStore

/-- What REST, or its cached answer, says about an order. -/
structure RestSnapshot where
  quantity : Amount
  average : Amount
  orderStatus : String := "partial"
  deriving DecidableEq

/-- `complete_snapshot`: an event without a cumulative value takes the one of REST, and waits
where there is none (or the requests are used up).
SOURCE: fill_snapshot.py:57-117 -/
def completeSnapshot (event : ExecutionEvent) (rest : Option RestSnapshot) :
    Except FillError ExecutionEvent :=
  if 0 < event.cumulativeQuantity ∧ 0 < event.cumulativeAveragePrice then .ok event
  else match rest with
    | none => .error .fillSnapshotNotReady
    | some snapshot =>
      if snapshot.quantity ≤ 0 ∨ snapshot.average ≤ 0 ∨
          snapshot.quantity + 1 / 10 ^ 12 < event.cumulativeQuantity then
        .error .fillSnapshotNotReady
      else .ok { event with
        cumulativeQuantity := snapshot.quantity
        cumulativeAveragePrice := snapshot.average
        orderStatus := snapshot.orderStatus
        isCumulative := true }

/-- `total`: the observed quantity after an event.
SOURCE: processor.py:553-560 -/
def observedTotal (event : ExecutionEvent) (observed : Amount) : Amount :=
  let cumulative := max 0 event.cumulativeQuantity
  if event.isCumulative = true ∨ 0 < cumulative then max observed cumulative
  else observed + max 0 event.quantity

/-- The unposted part of an event and its price.
SOURCE: processor.py:561-572 -/
def gridDelta (event : ExecutionEvent) (observed posted postedAverage : Amount) :
    Except FillError (Amount × Amount) :=
  let pair := if event.cumulativeAveragePrice ≠ 0 then
      cumulativeDelta posted postedAverage (max 0 event.cumulativeQuantity)
        event.cumulativeAveragePrice
    else .ok (max 0 (observedTotal event observed - posted), event.price)
  match pair with
  | .error e => .error e
  | .ok (delta, price) =>
    if 0 < delta then
      match requireExecution delta price with
      | .error e => .error e
      | .ok () => .ok (delta, price)
    else .ok (delta, price)

/-- `avg_fill_price` after an event.
SOURCE: processor.py:573-579 -/
def observedAverage (event : ExecutionEvent) (row : GridRestingOrder) (price : Amount) : Amount :=
  let total := observedTotal event row.filledQuantity
  let grown := max 0 (total - row.filledQuantity)
  if row.filledQuantity ≤ max 0 event.cumulativeQuantity ∧ event.cumulativeAveragePrice ≠ 0 then
    event.cumulativeAveragePrice
  else if 0 < total ∧ 0 < grown then
    (row.filledQuantity * row.avgFillPrice + grown * price) / total
  else if row.avgFillPrice ≠ 0 then row.avgFillPrice else price

/-- `status` after an event: a terminal order stays terminal.
SOURCE: processor.py:580-600 -/
def projectedStatus (status : String) (row : GridOrderStatus) (total : Amount) : GridOrderStatus :=
  if status = "filled" then .filled
  else if status = "cancelled" then .cancelled
  else if row = .filled then .filled
  else if row = .cancelled then .cancelled
  else if 0 < total then .partlyFilled else row

/-- The row of the order after an event.
SOURCE: processor.py:585-603 -/
def GridRestingOrder.observed (row : GridRestingOrder) (event : ExecutionEvent) (price : Amount) :
    GridRestingOrder :=
  { row with
    filledQuantity := observedTotal event row.filledQuantity
    avgFillPrice := observedAverage event row price
    status := projectedStatus event.orderStatus row.status
      (observedTotal event row.filledQuantity) }

/-- The row of the order once the fills up to a total have been handled.
SOURCE: processor.py:650-661 -/
def GridRestingOrder.processed (row : GridRestingOrder) (total : Amount) : GridRestingOrder :=
  { row with processedFillQty := max row.processedFillQty total }

/-- `_project_grid`, up to the commit. The fees are those of the increment.
SOURCE: processor.py:542-664 -/
def GridStore.projectGrid (store : GridStore) (config : GridConfig) (orderId : ℕ)
    (event : ExecutionEvent) (fees : Fees) : Except FillError (GridStore × Option GridFollowUp) :=
  match store.order? orderId with
  | none => .ok (store, none)
  | some row =>
    match gridDelta event row.filledQuantity (store.postedQuantity orderId)
        (store.postedAverage orderId) with
    | .error e => .error e
    | .ok (delta, price) =>
      if max 0 event.cumulativeQuantity + 1 / 10 ^ 12 < row.filledQuantity then .ok (store, none)
      else
        let observed := store.setOrder orderId fun order => order.observed event price
        if delta ≤ 1 / 10 ^ 12 then .ok (observed, none)
        else match observed.onOrderFilled config row delta price fees with
          | .error e => .error e
          | .ok (filled, followUp) =>
            .ok (filled.setOrder orderId fun order =>
              order.processed (observedTotal event row.filledQuantity), followUp)

/-! ## Placing entries -/

/-- What the outside answers to one call of `sync_grid_orders`. -/
structure SyncAnswers where
  waterfallPause : Bool := false
  client : Bool := true
  allowed : PositionSide → Bool := fun _ => true
  shortfall : PositionSide → Bool := fun _ => false
  cancels : GridRestingOrder → CancelAnswer := fun _ => {}
  tooSoon : Bool := false
  dedupe : GridRestingOrder → CancelAnswer := fun _ => {}
  place : PositionSide → ℕ → PlaceAnswers := fun _ _ => {}

/-- `entry_sides`. -/
def GridDirection.sides : GridDirection → List PositionSide
  | .long => [.long]
  | .short => [.short]
  | .neutral => [.long, .short]

/-- The orders of a side that the ownership guard does not allow are cancelled.
SOURCE: engine.py:1176-1199 -/
def GridStore.enforceOwnership (store : GridStore) (answers : SyncAnswers) (side : PositionSide) :
    GridStore :=
  if answers.allowed side then store
  else
    let store := store.cancelPositionOrders side false answers.cancels
    if answers.shortfall side then store.cancelPositionOrders side true answers.cancels else store

/-- The open orders of a purpose beyond the largest one of each cell.
SOURCE: engine.py:1510-1524 -/
def GridStore.duplicateOrders (store : GridStore) (purpose : GridPurpose) :
    List GridRestingOrder :=
  let orders := store.openOrders.filter fun order => order.purpose = purpose
  (orders.map GridRestingOrder.cellIndex).dedup.flatMap fun index =>
    ((orders.filter fun order => order.cellIndex = index).mergeSort fun a b =>
      decide (b.quantity - b.processedFillQty ≤ a.quantity - a.processedFillQty)).drop 1

/-- `_dedupe_open_entry_orders`.
SOURCE: engine.py:1510-1537 -/
def GridStore.dedupeEntries (store : GridStore) (purpose : GridPurpose)
    (answer : GridRestingOrder → CancelAnswer) : GridStore :=
  store.cancelEach (store.duplicateOrders purpose) answer

/-- `open_entries`. -/
def GridStore.openEntries (store : GridStore) : List GridRestingOrder :=
  store.openOrders.filter fun order => order.purpose.exits = false

/-- The variables of a placement loop: the rows, the cell states it has read and written, and
`placed`. -/
structure SyncState where
  store : GridStore
  states : ℕ → GridCellState
  placed : ℕ := 0

/-- An entry of a cell is tried; the flag says that it rests. -/
def SyncState.tryEntry (state : SyncState) (config : GridConfig) (answers : SyncAnswers)
    (spec : GridCellSpec) (side : PositionSide) : SyncState × Bool :=
  let result := state.store.placeLimit config spec.index (.entryOf side) (spec.entryPrice side) none
    (answers.place side spec.index)
  if result.2 then
    (⟨result.1, Function.update state.states spec.index (.openOn side), state.placed + 1⟩, true)
  else ({ state with store := result.1 }, false)

/-- The price has room for an entry of the side in the cell. -/
def GridCellSpec.Reachable (spec : GridCellSpec) (side : PositionSide) (price : Amount) : Prop :=
  match side with
  | .long => spec.lowerPrice < price
  | .short => price < spec.upperPrice

instance (spec : GridCellSpec) (side : PositionSide) (price : Amount) :
    Decidable (spec.Reachable side price) := by
  unfold GridCellSpec.Reachable
  split <;> infer_instance

/-- One cell of the loop of a grid with one direction.
SOURCE: engine.py:1286-1313 -/
def SyncState.directionalCell (config : GridConfig) (answers : SyncAnswers) (price : Amount)
    (side : PositionSide) (slots : ℕ) (state : SyncState) (spec : GridCellSpec) : SyncState :=
  if state.store.stopRequested = true ∨ slots ≤ state.placed then state
  else if answers.allowed side = true ∧ spec.Reachable side price ∧
      state.store.CellAllowsEntry state.states spec.index side then
    (state.tryEntry config answers spec side).1
  else state

/-- The variables of the neutral loop: the open entries and the remaining candidates of each
side. -/
structure NeutralState extends SyncState where
  openBy : PositionSide → ℕ
  pool : PositionSide → List GridCellSpec

/-- The candidates of one side, next to the price first.
SOURCE: engine.py:1223-1238 -/
def GridConfig.candidates (config : GridConfig) (price : Amount) : PositionSide → List GridCellSpec
  | .long => (config.cells.filter fun spec => spec.lowerPrice < price).mergeSort
      fun a b => decide (b.lowerPrice ≤ a.lowerPrice)
  | .short => (config.cells.filter fun spec => price < spec.upperPrice).mergeSort
      fun a b => decide (a.upperPrice ≤ b.upperPrice)

/-- The next candidate of a side that allows an entry is tried.
SOURCE: engine.py:1252-1282 -/
def NeutralState.attempt (state : NeutralState) (config : GridConfig) (answers : SyncAnswers)
    (side : PositionSide) : NeutralState × Bool :=
  if state.store.stopRequested = true ∨ answers.allowed side = false then (state, false)
  else
    match (state.pool side).dropWhile fun spec =>
        !decide (state.store.CellAllowsEntry state.states spec.index side) with
    | [] => ({ state with pool := Function.update state.pool side [] }, false)
    | spec :: rest =>
      let tried := state.toSyncState.tryEntry config answers spec side
      ({ tried.1 with
          openBy := if tried.2 then Function.update state.openBy side (state.openBy side + 1)
            else state.openBy
          pool := Function.update state.pool side rest }, tried.2)

/-- One round: the side with fewer open entries is tried first.
SOURCE: engine.py:1240-1284 -/
def NeutralState.round (state : NeutralState) (config : GridConfig) (answers : SyncAnswers) :
    NeutralState × Bool :=
  let first := if state.openBy .long ≤ state.openBy .short then PositionSide.long else .short
  let second := if state.openBy .long ≤ state.openBy .short then PositionSide.short else .long
  let tried := state.attempt config answers first
  if tried.2 then tried else tried.1.attempt config answers second

/-- The neutral loop: every round that goes on has placed an entry. -/
def NeutralState.rounds (config : GridConfig) (answers : SyncAnswers) :
    ℕ → NeutralState → NeutralState
  | 0, state => state
  | slots + 1, state =>
    if state.store.stopRequested then state
    else
      let tried := state.round config answers
      if tried.2 then NeutralState.rounds config answers slots tried.1 else tried.1

/-- The entries of one call, once ownership, frequency and duplicates are dealt with.
SOURCE: engine.py:1207-1314 -/
def GridStore.placeEntries (store : GridStore) (config : GridConfig) (price : Amount)
    (answers : SyncAnswers) : GridStore :=
  let slots := config.maxOpenOrders - store.openEntries.length
  let state : SyncState := { store := store, states := store.cellState }
  match config.direction with
  | .long => (config.cells.foldl (SyncState.directionalCell config answers price .long slots)
      state).store
  | .short => (config.cells.foldl (SyncState.directionalCell config answers price .short slots)
      state).store
  | .neutral => (NeutralState.rounds config answers slots
      { state with
        openBy := fun side => (store.openOrders.filter fun order =>
          order.purpose = .entryOf side).length
        pool := config.candidates price }).store

/-- `sync_grid_orders`.
SOURCE: engine.py:1155-1314 -/
def GridStore.syncGridOrders (store : GridStore) (config : GridConfig) (price : Amount)
    (answers : SyncAnswers) : GridStore :=
  if store.stopRequested = true ∨ store.pausedEntries = true ∨ price ≤ 0 then store
  else
    let store := store.observeMarketPrice price
    if answers.waterfallPause = true ∨ answers.client = false then store
    else
      let store := config.direction.sides.foldl (fun store side =>
        store.enforceOwnership answers side) store
      if (config.direction.sides.all fun side => !answers.allowed side) ∨ answers.tooSoon = true
      then store
      else
        let store := store.dedupeEntries .longEntry answers.dedupe
        let store := store.dedupeEntries .shortEntry answers.dedupe
        store.placeEntries config price answers

end QuantDinger.Model.Live
