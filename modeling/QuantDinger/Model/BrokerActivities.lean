import QuantDinger.Library.Dict
import QuantDinger.Model.Text

/-!
# Broker activities

Fees and interest that the broker charges to the account, and their allocation to the strategies
that trade on it: to the owner of the parent order, by fill share or by position share. What the
broker knows of an activity (`journal`) does not change; fills, orders and positions are read again
by every sync. Symbols are canonical, amounts are exact; currencies, times of the rows and raw data
are left out.
-/

namespace QuantDinger.Model.Activities

open QuantDinger.Library

/-! ## What is read -/

/-- The dates of a row, as day numbers: a system or settle date, a plain date, and the date in New
York at its time. -/
structure ActivityDates where
  explicit : Option ℤ := none
  rawDate : Option ℤ := none
  timeDate : ℤ := 0

/-- `_business_date`.
SOURCE: alpaca_activity_reconciliation.py:111-126 -/
def ActivityDates.businessDate (dates : ActivityDates) (bulkFee : Bool) : ℤ :=
  match dates.explicit, dates.rawDate with
  | some day, _ => day
  | none, some day => if bulkFee then day - 1 else day
  | none, none => dates.timeDate

/-- An activity of the account; `orderId` is its own order reference, if it has one. -/
structure BrokerActivity where
  activityType : String
  activitySubtype : String := ""
  description : String := ""
  netAmount : Amount
  symbol : String := ""
  orderId : String := ""
  parentId : String := ""
  dates : ActivityDates := {}

/-- A fill of the account. -/
structure AccountFill where
  refId : String := ""
  orderId : String := ""
  side : String
  qty : Amount
  price : Amount
  dates : ActivityDates := {}

/-- A row of `pending_orders` with the commission of its trades. -/
structure OrderOwner where
  exchangeOrderId : String
  strategyId : ℤ
  userId : ℤ
  recordedCommission : Amount := 0

/-- A position of the account; short positions have a negative market value. -/
structure AccountPosition where
  symbol : String
  marketValue : Amount

/-- A row of `qd_strategy_positions`. -/
structure StrategyHolding where
  strategyId : ℤ
  userId : ℤ
  symbol : String
  size : Amount
  currentPrice : Amount
  entryPrice : Amount

/-- What a sync reads; the activities are named by their external ids. -/
structure ActivitySync where
  activities : List String
  fills : List AccountFill := []
  orders : List OrderOwner := []
  accountPositions : List AccountPosition := []
  holdings : List StrategyHolding := []

/-! ## Subtypes and owners -/

/-- `_activity_subtype`.
SOURCE: alpaca_activity_reconciliation.py:91-102 -/
def BrokerActivity.subtype (activity : BrokerActivity) : String :=
  let subtype := upper (strip activity.activitySubtype)
  let description := (upper activity.description).toList
  if subtype ≠ "" then subtype
  else match ["REG", "TAF", "CAT", "ADR", "COM", "MGN"].find?
      fun candidate => decide (candidate.toList <:+: description) with
  | some candidate => candidate
  | none =>
    if "MARGIN".toList <:+: description ∧ "INTEREST".toList <:+: description then "MGN" else ""

/-- `_order_owners`; orders of deleted strategies have no strategy id any more.
SOURCE: alpaca_activity_reconciliation.py:138-155 -/
def orderOwners (orders : List OrderOwner) (deleted : List ℤ) (orderId : String) :
    Option OrderOwner :=
  (Dict.ofPairs ((orders.filter fun order =>
    order.exchangeOrderId ≠ "" ∧ order.strategyId ∉ deleted).map
      fun order => (order.exchangeOrderId, order))).get? orderId

/-- `_order_id`.
SOURCE: alpaca_activity_reconciliation.py:129-135, 245-248 -/
def BrokerActivity.orderReference (activity : BrokerActivity) (fills : List AccountFill) : String :=
  if activity.orderId ≠ "" then activity.orderId
  else ((Dict.ofPairs (fills.map fun fill => (fill.refId, fill.orderId))).get?
    (strip activity.parentId)).getD ""

/-! ## Shares -/

/-- A part of an activity: strategy, user, ratio, reason and the commission already recorded. -/
structure Allocation where
  strategyId : ℤ
  userId : ℤ
  ratio : Amount
  reason : String
  recordedCommission : Amount := 0

/-- `_BULK_SELL_FEES`. -/
def bulkSellFees : List String := ["REG", "TAF"]

/-- `_BULK_ALL_FEES`. -/
def bulkAllFees : List String := ["CAT", "NRV", "NRC"]

/-- `_eligible_fill`.
SOURCE: alpaca_activity_reconciliation.py:158-162 -/
def AccountFill.eligible (fill : AccountFill) (subtype : String) (targetDate : ℤ) : Bool :=
  if fill.dates.businessDate false ≠ targetDate then false
  else if subtype ∈ bulkSellFees then lower fill.side = "sell" else true

/-- `_fill_metric`.
SOURCE: alpaca_activity_reconciliation.py:165-171 -/
def AccountFill.metric (fill : AccountFill) (subtype : String) : Amount :=
  if subtype = "REG" ∨ subtype ∉ ["TAF", "CAT"] then |fill.qty| * |fill.price| else |fill.qty|

/-- The totals of `_fill_allocations`: of the account, and of each strategy with its user.
SOURCE: alpaca_activity_reconciliation.py:177-195 -/
def fillTotals (activity : BrokerActivity) (fills : List AccountFill)
    (owners : String → Option OrderOwner) : Amount × Dict ℤ (ℤ × Amount) :=
  let subtype := activity.subtype
  let targetDate := activity.dates.businessDate (subtype ∈ bulkSellFees ++ bulkAllFees)
  fills.foldl (fun (accountTotal, totals) fill =>
    let metric := fill.metric subtype
    if ¬ fill.eligible subtype targetDate ∨ metric ≤ 0 then (accountTotal, totals)
    else match owners fill.orderId with
    | none => (accountTotal + metric, totals)
    | some owner =>
      let previous := ((totals.get? owner.strategyId).map Prod.snd).getD 0
      (accountTotal + metric, totals.set owner.strategyId (owner.userId, previous + metric)))
    (0, Dict.empty)

/-- `_fill_allocations`.
SOURCE: alpaca_activity_reconciliation.py:174-200 -/
def fillAllocations (activity : BrokerActivity) (fills : List AccountFill)
    (owners : String → Option OrderOwner) : List Allocation :=
  let (accountTotal, totals) := fillTotals activity fills owners
  if accountTotal ≤ 0 then []
  else (totals.entries.filter fun entry => 0 < entry.2.2).map fun entry =>
    { strategyId := entry.1
      userId := entry.2.1
      ratio := entry.2.2 / accountTotal
      reason := "account_fill_share" }

/-- The market value of the account's positions in a symbol, long and short alike.
SOURCE: alpaca_activity_reconciliation.py:206-213 -/
def accountTotal (positions : List AccountPosition) (wanted : String) : Amount :=
  ((positions.filter fun row => wanted = "" ∨ row.symbol = wanted).map fun row =>
    |row.marketValue|).sum

/-- The exposure of every strategy and user, over its legs.
SOURCE: alpaca_activity_reconciliation.py:215-232 -/
def exposures (holdings : List StrategyHolding) (deleted : List ℤ) (wanted : String) :
    Dict (ℤ × ℤ) Amount :=
  (holdings.filter fun row => row.strategyId ∉ deleted ∧ 0 < |row.size| ∧
    (wanted = "" ∨ row.symbol = wanted)).foldl (fun totals row =>
      let price := if row.currentPrice ≠ 0 then row.currentPrice else row.entryPrice
      totals.set (row.strategyId, row.userId)
        ((totals.get? (row.strategyId, row.userId)).getD 0 + |row.size * price|)) Dict.empty

/-- `_position_allocations`.
SOURCE: alpaca_activity_reconciliation.py:203-238 -/
def positionAllocations (accountPositions : List AccountPosition)
    (holdings : List StrategyHolding) (deleted : List ℤ) (symbol : String) : List Allocation :=
  let total := accountTotal accountPositions symbol
  if total ≤ 0 then []
  else ((exposures holdings deleted symbol).entries.filter fun entry => 0 < entry.2).map fun entry =>
    { strategyId := entry.1.1
      userId := entry.1.2
      ratio := min 1 (entry.2 / total)
      reason := "account_position_share" }

/-- `_activity_allocations`.
SOURCE: alpaca_activity_reconciliation.py:241-260 -/
def activityAllocations (activity : BrokerActivity) (sync : ActivitySync) (deleted : List ℤ) :
    List Allocation :=
  let owners := orderOwners sync.orders deleted
  match owners (activity.orderReference sync.fills) with
  | some exact =>
    [{ strategyId := exact.strategyId
       userId := exact.userId
       ratio := 1
       reason := "parent_order"
       recordedCommission := exact.recordedCommission }]
  | none =>
    if activity.subtype = "ADR" then
      positionAllocations sync.accountPositions sync.holdings deleted activity.symbol
    else if upper activity.activityType = "INT" ∨ activity.subtype = "MGN" then
      positionAllocations sync.accountPositions sync.holdings deleted ""
    else fillAllocations activity sync.fills owners

/-- `_allocated_amount`.
SOURCE: alpaca_activity_reconciliation.py:263-269 -/
def allocatedAmount (accountAmount ratio : Amount) (subtype : String)
    (recordedCommission : Amount) : Amount :=
  let amount := accountAmount * max 0 (min 1 ratio)
  if subtype = "COM" ∧ amount < 0 ∧ 0 < recordedCommission
  then min 0 (amount + recordedCommission) else amount

/-! ## Rows -/

/-- A row of `qd_strategy_broker_activities`, of one credential. -/
structure BrokerRow where
  userId : ℤ
  strategyId : ℤ
  activityType : String
  activitySubtype : String
  symbol : String
  amount : Amount
  accountAmount : Amount
  allocationRatio : Amount
  allocationReason : String
  externalId : String

/-- The rows, and the strategies that have been deleted. -/
structure ActivityTables where
  rows : List BrokerRow := []
  deleted : List ℤ := []

/-- The key of the unique constraint, within a credential. -/
def BrokerRow.key (row : BrokerRow) : String × ℤ := (row.externalId, row.strategyId)

/-- `1e-12`: an amount up to it is nothing. -/
def dust : Amount := 1 / 1000000000000

/-- The row that is inserted for an allocation. -/
def Allocation.row (externalId : String) (activity : BrokerActivity) (allocation : Allocation) :
    BrokerRow where
  userId := allocation.userId
  strategyId := allocation.strategyId
  activityType := upper activity.activityType
  activitySubtype := activity.subtype
  symbol := activity.symbol
  amount := allocatedAmount activity.netAmount allocation.ratio activity.subtype
    allocation.recordedCommission
  accountAmount := activity.netAmount
  allocationRatio := allocation.ratio
  allocationReason := allocation.reason
  externalId := externalId

section Row

variable (externalId : String) (activity : BrokerActivity) (allocation : Allocation)

@[simp] theorem Allocation.row_strategyId :
    (allocation.row externalId activity).strategyId = allocation.strategyId := rfl

@[simp] theorem Allocation.row_userId :
    (allocation.row externalId activity).userId = allocation.userId := rfl

@[simp] theorem Allocation.row_externalId :
    (allocation.row externalId activity).externalId = externalId := rfl

@[simp] theorem Allocation.row_amount : (allocation.row externalId activity).amount =
    allocatedAmount activity.netAmount allocation.ratio activity.subtype
      allocation.recordedCommission := by
  unfold Allocation.row
  dsimp only

@[simp] theorem Allocation.row_key :
    (allocation.row externalId activity).key = (externalId, allocation.strategyId) := rfl

end Row

/-- One round of the inner loop of `_insert_activities`.
SOURCE: alpaca_activity_reconciliation.py:298-316 -/
def insertAllocation (externalId : String) (activity : BrokerActivity) (rows : List BrokerRow)
    (allocation : Allocation) : List BrokerRow :=
  let row := allocation.row externalId activity
  if row.strategyId ≤ 0 ∨ row.userId ≤ 0 ∨ |row.amount| ≤ dust then rows
  -- ON CONFLICT DO NOTHING
  else if row.key ∈ rows.map BrokerRow.key then rows
  else rows ++ [row]

/-- The activities that are not looked at: other interest, no amount, no id. -/
def skipped (externalId : String) (activity : BrokerActivity) : Bool :=
  (upper activity.activityType = "INT" ∧ activity.subtype ∉ ["MGN", ""]) ∨
    |activity.netAmount| ≤ dust ∨ externalId = ""

/-- One round of the outer loop of `_insert_activities`.
SOURCE: alpaca_activity_reconciliation.py:279-316 -/
def insertActivity (journal : String → BrokerActivity) (sync : ActivitySync)
    (tables : ActivityTables) (externalId : String) : ActivityTables :=
  let activity := journal externalId
  if skipped externalId activity then tables
  else { tables with
    rows := (activityAllocations activity sync tables.deleted).foldl
      (insertAllocation externalId activity) tables.rows }

/-- `_insert_activities`, in one transaction.
SOURCE: alpaca_activity_reconciliation.py:272-319 -/
def insertActivities (journal : String → BrokerActivity) (tables : ActivityTables)
    (sync : ActivitySync) : ActivityTables :=
  sync.activities.foldl (insertActivity journal sync) tables

/-- What happens to the table: a sync, or a strategy is deleted and its rows with it. -/
inductive ActivityEvent
  | sync (inputs : ActivitySync)
  | deleteStrategy (strategyId : ℤ)

/-- The table after an event. -/
def activityStep (journal : String → BrokerActivity) (tables : ActivityTables) :
    ActivityEvent → ActivityTables
  | .sync inputs => insertActivities journal tables inputs
  | .deleteStrategy strategyId =>
    { rows := tables.rows.filter fun row => row.strategyId ≠ strategyId
      deleted := strategyId :: tables.deleted }

end QuantDinger.Model.Activities
