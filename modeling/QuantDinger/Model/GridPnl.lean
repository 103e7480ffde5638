import QuantDinger.Model.LegPosition
import Mathlib.Data.List.Sort

/-!
# Profits of grid cycles

`enrich_grid_order_pnl` replays the trades of grid strategies by id: entries make up lots, one for
each order they are linked to, and exits take from the lots they name at the average price of the
lot. Grid references, purposes and extra data are parsed; a number that is not finite is `none`.
Display fields and the market data of the rows are left out.
-/

namespace QuantDinger.Model.Live

open QuantDinger.Library

/-! ## Rows -/

/-- A row of `qd_strategy_trades` as it is enriched. `entryGridOrderIds` are the texts of the ids in
`grid_order_extra`; `profitGross` is `none` where the row has no such column. -/
structure PnlTrade where
  id : ℤ
  strategyId : Option ℤ := none
  credentialId : ℤ := 0
  strategyRunId : ℤ := 0
  marketType : String := ""
  symbol : String := ""
  type : String := ""
  closeReason : String := ""
  price : Option Amount := none
  amount : Option Amount := none
  commission : Option Amount := none
  commissionCcy : String := ""
  commissionQuote : Option Amount := none
  commissionBreakdown : Fees := Dict.empty
  feeStatus : String := ""
  exchangeOrderId : String := ""
  gridOrderId : ℤ := 0
  gridOrderPurpose : String := ""
  entryGridOrderIds : List String := []
  gridClientReference : String := ""
  profit : Option Amount := none
  profitGross : Option (Option Amount) := none

/-- `execution_fee`.
SOURCE: grid/order_pnl.py:27-45 -/
def executionFee (row : PnlTrade) : Option Amount :=
  if row.feeStatus ≠ "actual" ∧ row.feeStatus ≠ "actual_zero" then none
  else match row.commissionQuote with
    | some fee => some fee
    | none =>
      if row.feeStatus = "actual_zero" then some 0
      else
        let currency := upper row.commissionCcy
        if currency = "" then none
        else if currency = (symbolCurrencies row.symbol).2 then row.commission
        else if currency = (symbolCurrencies row.symbol).1 then
          row.commission.bind fun native => row.price.map (native * ·)
        else none

/-- `inventory_quantity`.
SOURCE: grid/order_pnl.py:48-65 -/
def inventoryQuantity (row : PnlTrade) : Amount :=
  let quantity := row.amount.getD 0
  if lower row.marketType ≠ "spot" ∧ lower row.marketType ≠ "crypto" then quantity
  else
    let base := (symbolCurrencies row.symbol).1
    let native := match row.commissionBreakdown.get? base with
      | some fee => some fee
      | none => if upper row.commissionCcy = base then row.commission else none
    let baseFee := native.getD 0
    if row.type = "open_long" ∨ row.type = "add_long" then max 0 (quantity - baseFee)
    else if startsWith row.type "close_long" ∨ startsWith row.type "reduce_long" then
      quantity + baseFee
    else quantity

/-- `_scope`.
SOURCE: grid/order_pnl.py:68-70 -/
structure PnlScope where
  strategyId : Option ℤ
  credentialId : ℤ
  marketType : String
  symbol : String
  deriving DecidableEq

def PnlTrade.scope (row : PnlTrade) : PnlScope where
  strategyId := row.strategyId
  credentialId := row.credentialId
  marketType := row.marketType
  symbol := row.symbol

/-! ## Identities -/

/-- The key of a lot in its scope. -/
inductive LotKey
  | initial (id : ℤ)
  | resting (gridOrderId : ℤ)
  | v2 (strategyRunId cell : ℤ) (side : PositionSide) (cycle : ℤ)
  deriving DecidableEq

/-- What a row does to lots. -/
inductive LotRole
  | entry
  | exit
  deriving DecidableEq

/-- Side, role and keys of a row. -/
structure LotIdentity where
  side : PositionSide
  role : LotRole
  keys : List LotKey
  deriving DecidableEq

/-- `\d+`. -/
def digits? (s : String) : Option ℤ :=
  if s.toList ≠ [] ∧ s.toList.all Char.isDigit then parseInt s else none

def sideName? (s : String) : Option PositionSide :=
  if s = "long" then some .long else if s = "short" then some .short else none

def roleName? (s : String) : Option LotRole :=
  if s = "entry" then some .entry else if s = "exit" then some .exit else none

/-- `grid_order_purpose`: the side and the role.
SOURCE: grid/order_pnl.py:83-85 -/
def purpose? (purpose : String) : Option (PositionSide × LotRole) :=
  if purpose = "long_entry" then some (.long, .entry)
  else if purpose = "short_entry" then some (.short, .entry)
  else if purpose = "long_exit" then some (.long, .exit)
  else if purpose = "short_exit" then some (.short, .exit)
  else none

/-- `_GRID_REF`, with the run the reference is in.
SOURCE: grid/order_pnl.py:7, 92-96 -/
def gridReference? (strategyRunId : ℤ) (reference : String) : Option LotIdentity :=
  match splitOn '-' reference with
  | [grid, cell, side, kind, cycle] => do
    if grid ≠ "grid" then none
    let cell ← digits? cell
    let side ← sideName? side
    let kind ← roleName? kind
    let cycle ← digits? cycle
    some { side := side, role := kind, keys := [.v2 strategyRunId cell side cycle] }
  | _ => none

/-- The identity of a row that is linked to a resting order.
SOURCE: grid/order_pnl.py:82-91 -/
def restingIdentity (row : PnlTrade) : Option LotIdentity :=
  if row.gridOrderId = 0 then none
  else (purpose? row.gridOrderPurpose).map fun (side, role) =>
    match role with
    | .entry => { side := side, role := .entry, keys := [.resting row.gridOrderId] }
    | .exit =>
      { side := side
        role := .exit
        keys := ((row.entryGridOrderIds.filterMap digits?).filter (0 < ·)).eraseDups.map .resting }

/-- `_identity`.
SOURCE: grid/order_pnl.py:73-99 -/
def PnlTrade.identity (row : PnlTrade) : Option LotIdentity :=
  let reason := lower row.closeReason
  if (reason = "grid_initial_long" ∨ reason = "grid_initial_short") ∧
      lower row.type ∈ ["open_long", "add_long", "open_short", "add_short"] then
    some {
      side := if reason = "grid_initial_long" then .long else .short
      role := .entry
      keys := [.initial row.id] }
  else match restingIdentity row with
    | some identity => some identity
    | none => match gridReference? row.strategyRunId row.gridClientReference with
      | some identity => some identity
      | none =>
        if row.closeReason = "long_exit" then some { side := .long, role := .exit, keys := [] }
        else if row.closeReason = "short_exit" then
          some { side := .short, role := .exit, keys := [] }
        else none

/-! ## Lots -/

/-- A lot: a key in a scope. -/
structure GridLot where
  scope : PnlScope
  key : LotKey
  deriving DecidableEq

/-- `groups[(scope, key)]`, of rows in the order of their ids.
SOURCE: grid/order_pnl.py:108-116 -/
def lotEntries (rows : List PnlTrade) (lot : GridLot) : List PnlTrade :=
  rows.filter fun row => row.scope = lot.scope ∧
    ∃ identity ∈ row.identity, identity.role = .entry ∧ lot.key ∈ identity.keys

/-- `initial_keys[(scope, run, side)]`.
SOURCE: grid/order_pnl.py:108-118 -/
def initialKeys (rows : List PnlTrade) (scope : PnlScope) (strategyRunId : ℤ)
    (side : PositionSide) : List LotKey :=
  rows.flatMap fun row => match row.identity with
    | none => []
    | some identity =>
      if row.scope = scope ∧ row.strategyRunId = strategyRunId ∧ identity.side = side ∧
          identity.role = .entry then
        identity.keys.filter fun key => match key with
          | .initial id => 0 < id
          | _ => false
      else []

/-- `total` of the entries of a lot. -/
def lotTotal (entries : List PnlTrade) : Amount := (entries.map inventoryQuantity).sum

/-- `entry_value` of the entries of a lot. -/
def lotValue (entries : List PnlTrade) : Amount :=
  (entries.map fun entry => inventoryQuantity entry * entry.price.getD 0).sum

/-- The fees of the entries of a lot, where all are known. -/
def lotFees (entries : List PnlTrade) : Option Amount :=
  if ∃ entry ∈ entries, executionFee entry = none then none
  else some (entries.map fun entry => (executionFee entry).getD 0).sum

/-- The entries can be paired with an exit of the side.
SOURCE: grid/order_pnl.py:146-150 -/
def Pairable (side : PositionSide) (entries : List PnlTrade) : Prop :=
  entries ≠ [] ∧ ∀ entry ∈ entries, (∃ identity ∈ entry.identity, identity.side = side) ∧
    entry.exchangeOrderId ≠ "" ∧ ∃ price ∈ entry.price, 0 < price

instance (side : PositionSide) (entries : List PnlTrade) : Decidable (Pairable side entries) :=
  inferInstanceAs (Decidable (_ ∧ _))

/-! ## Exits -/

/-- An allocation. The lot and the share of its fees are sums of the source, not stored with it. -/
structure LotAllocation where
  lot : GridLot
  side : PositionSide
  entryOrderIds : List String
  exitOrderId : String
  quantity : Amount
  entryPrice : Amount
  exitPrice : Amount
  openingFee : Option Amount
  deriving DecidableEq

/-- The variables of the allocation of one exit. -/
structure AllocationState where
  consumed : GridLot → Amount
  remaining : Amount
  gross : Amount := 0
  openingFee : Amount := 0
  entryNotional : Amount := 0
  feeKnown : Bool := true
  allocation : List LotAllocation := []

/-- `1` for a long exit, `-1` for a short one. -/
def pnlSign : PositionSide → Amount
  | .long => 1
  | .short => -1

/-- What an exit takes from a lot.
SOURCE: grid/order_pnl.py:151-170 -/
def takeFromLot (entries : List PnlTrade) (lot : GridLot) (side : PositionSide)
    (exitOrderId : String) (closePrice take : Amount) (state : AllocationState) :
    AllocationState :=
  let total := lotTotal entries
  let price := lotValue entries / total
  let share := (lotFees entries).map fun fees => fees * take / total
  { consumed := Function.update state.consumed lot (state.consumed lot + take)
    remaining := state.remaining - take
    gross := state.gross + (closePrice - price) * take * pnlSign side
    openingFee := state.openingFee + share.getD 0
    entryNotional := state.entryNotional + price * take
    feeKnown := state.feeKnown && share.isSome
    allocation := state.allocation ++ [{
      lot := lot
      side := side
      entryOrderIds := (entries.map PnlTrade.exchangeOrderId).eraseDups.insertionSort (· ≤ ·)
      exitOrderId := exitOrderId
      quantity := take
      entryPrice := price
      exitPrice := closePrice
      openingFee := share }] }

/-- The loop over the keys of an exit.
SOURCE: grid/order_pnl.py:143-173 -/
def allocateKeys (rows : List PnlTrade) (scope : PnlScope) (side : PositionSide)
    (exitOrderId : String) (closePrice : Amount) : List LotKey → AllocationState → AllocationState
  | [], state => state
  | key :: keys, state =>
    let lot : GridLot := ⟨scope, key⟩
    let entries := lotEntries rows lot
    let take := min state.remaining (max 0 (lotTotal entries - state.consumed lot))
    if ¬ Pairable side entries ∨ take ≤ 0 then
      allocateKeys rows scope side exitOrderId closePrice keys state
    else
      let next := takeFromLot entries lot side exitOrderId closePrice take state
      if next.remaining ≤ 1 / 10 ^ 12 then next
      else allocateKeys rows scope side exitOrderId closePrice keys next

/-- `pnl_status`. -/
inductive PnlStatus
  | unmatched
  | feesPending
  | matched
  deriving DecidableEq

/-- The fields that an exit gets. -/
structure ExitPnl where
  accountProfitGross : Option Amount
  pnlStatus : PnlStatus := .unmatched
  matchedOrders : List LotAllocation := []
  profitGross : Option Amount := none
  matchedEntryPrice : Option Amount := none
  netPnl : Option Amount := none
  openCommissionAllocated : Option Amount := none
  closeCommission : Option Amount := none
  totalCommission : Option Amount := none
  deriving DecidableEq

/-- The keys of an exit: those it names, or the initial lots of its run.
SOURCE: grid/order_pnl.py:124-131 -/
def exitKeys (rows : List PnlTrade) (row : PnlTrade) (identity : LotIdentity) : List LotKey :=
  if identity.keys = [] ∧ row.gridOrderId ≠ 0 ∧
      purpose? row.gridOrderPurpose = some (identity.side, .exit) then
    initialKeys rows row.scope row.strategyRunId identity.side
  else identity.keys

/-- The fields of an exit after its allocation.
SOURCE: grid/order_pnl.py:174-187 -/
def settleExit (row : PnlTrade) (needed : Amount) (state : AllocationState) : ExitPnl :=
  let account := row.profitGross.getD row.profit
  if max (1 / 10 ^ 12) (needed * (1 / 10 ^ 10)) < state.remaining then
    { accountProfitGross := account, matchedOrders := state.allocation }
  else
    let pending : ExitPnl :=
      { accountProfitGross := account
        matchedOrders := state.allocation
        pnlStatus := .feesPending
        profitGross := some state.gross
        matchedEntryPrice := some (state.entryNotional / needed) }
    match executionFee row with
    | none => pending
    | some closeFee =>
      if state.feeKnown then
        { pending with
          pnlStatus := .matched
          netPnl := some (state.gross - state.openingFee - closeFee)
          openCommissionAllocated := some state.openingFee
          closeCommission := some closeFee
          totalCommission := some (state.openingFee + closeFee) }
      else pending

/-- One exit: the consumed quantities after it, and the fields it gets.
SOURCE: grid/order_pnl.py:120-187 -/
def enrichExit (rows : List PnlTrade) (consumed : GridLot → Amount) (row : PnlTrade)
    (identity : LotIdentity) : (GridLot → Amount) × ExitPnl :=
  let needed := inventoryQuantity row
  match row.price with
  | none => (consumed, { accountProfitGross := row.profitGross.getD row.profit })
  | some closePrice =>
    if row.exchangeOrderId = "" ∨ closePrice ≤ 0 ∨ needed ≤ 0 then
      (consumed, { accountProfitGross := row.profitGross.getD row.profit })
    else
      let state := allocateKeys rows row.scope identity.side row.exchangeOrderId closePrice
        (exitKeys rows row identity) { consumed := consumed, remaining := needed }
      (state.consumed, settleExit row needed state)

/-- The exits of the rows, in the order of their ids, with the fields they get.
SOURCE: grid/order_pnl.py:119-187 -/
def replayExits (rows : List PnlTrade) :
    List PnlTrade → (GridLot → Amount) → List (PnlTrade × ExitPnl)
  | [], _ => []
  | row :: rest, consumed =>
    match row.identity with
    | some identity =>
      if identity.role = .exit then
        let result := enrichExit rows consumed row identity
        (row, result.2) :: replayExits rows rest result.1
      else replayExits rows rest consumed
    | none => replayExits rows rest consumed

/-- The rows in the order of their ids. -/
def byId (trades : List PnlTrade) : List PnlTrade :=
  trades.insertionSort fun a b => a.id ≤ b.id

/-- The exits with the fields they get. -/
def gridExits (trades : List PnlTrade) : List (PnlTrade × ExitPnl) :=
  replayExits (byId trades) (byId trades) fun _ => 0

/-- `enrich_grid_order_pnl`: the rows as they were given, each exit with the fields it gets.
SOURCE: grid/order_pnl.py:101-191 -/
def enrichGridOrderPnl (trades : List PnlTrade) : List (PnlTrade × Option ExitPnl) :=
  trades.map fun row =>
    (row, ((gridExits trades).find? fun exit => exit.1.id = row.id).map Prod.snd)

end QuantDinger.Model.Live
