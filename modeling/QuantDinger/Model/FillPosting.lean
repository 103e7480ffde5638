import QuantDinger.Model.CloseReconciliation

/-!
# Posting the fills of a live order

The rows that one pending order owns (its queue row, its trades and the status of its order
intent), the transactions that write them (the worker's own result, the projection of a
private stream event, the REST synchronisation, a cancellation) and their interleavings.
Fee columns and timestamps are left out; where a guard reads them, the answer comes with the
action.
-/

namespace QuantDinger.Model.Live

open QuantDinger.Library

/-! ## Rows -/

/-- `pending_orders.status`. -/
inductive QueueStatus
  | pending
  | processing
  | sent
  | syncing
  | filled
  | cancelled
  | failed
  deriving DecidableEq

/-- `strategy_order_intents.status`. -/
inductive IntentStatus
  | intentCreated
  | submitted
  | partiallyFilled
  | filled
  | cancelPending
  | cancelled
  | rejected
  | failed
  | expired
  deriving DecidableEq

/-- A row of `qd_strategy_trades`. -/
structure StrategyTrade where
  amount : Amount
  price : Amount
  executionEventId : ℕ := 0
  deriving DecidableEq

/-- `live_fill_sync`. -/
structure FillMarker where
  trackedFilled : Amount
  trackedAvgPrice : Amount
  deriving DecidableEq

/-- An entry of `retry_orders`. -/
structure RetryOrder where
  exchangeOrderId : String
  filledQuantity : Amount
  avgPrice : Amount
  deriving DecidableEq

/-- `phases.close_reconciliation`.
SOURCE: close_reconciliation.py:33-54 -/
structure CloseMetadata where
  status : CloseStatus
  targetQuantity : Amount
  remainingQuantity : Amount
  retryOrders : List RetryOrder
  deriving DecidableEq

/-- A leg of `phases.executor`. -/
structure ExecutorLeg where
  exchangeOrderId : String
  filledQty : Amount
  avgPrice : Amount
  deriving DecidableEq

/-- `phases`. -/
structure Phases where
  limitSummary : Option ExecutorLeg := none
  marketSummary : Option ExecutorLeg := none
  closeReconciliation : Option CloseMetadata := none
  deriving DecidableEq

/-- `exchange_response_json`. -/
structure ExchangeResponse where
  liveFillSync : Option FillMarker := none
  phases : Option Phases := none
  deriving DecidableEq

/-- A row of `pending_orders`. -/
structure PendingOrder where
  status : QueueStatus := .processing
  dispatchNote : String := ""
  exchangeId : String := ""
  clientOrderId : String := ""
  exchangeOrderId : String := ""
  amount : Amount := 0
  filled : Amount := 0
  avgPrice : Amount := 0
  response : ExchangeResponse := {}
  attempts : ℕ := 0
  cancelRequested : Bool := false
  deriving DecidableEq

/-- What one pending order owns. -/
structure OrderStore where
  row : PendingOrder
  trades : List StrategyTrade := []
  intent : IntentStatus := .intentCreated
  deriving DecidableEq

/-- The errors that roll a transaction back. -/
inductive FillError
  | fillContractMetadataUnavailable
  | invalidFillQuantity
  | inconsistentFillSnapshot
  | fillSnapshotNotReady
  | zeroDivision
  deriving DecidableEq

/-! ## Cumulative snapshots -/

/-- `require_execution`.
SOURCE: fill_evidence.py:15-17 -/
def requireExecution (quantity price : Amount) : Except FillError Unit :=
  if 0 < quantity ∧ 0 < price then .ok () else .error .fillSnapshotNotReady

theorem requireExecution_ok {quantity price : Amount} (h : requireExecution quantity price = .ok ()) :
    0 < quantity ∧ 0 < price := by
  unfold requireExecution at h
  by_cases hpos : 0 < quantity ∧ 0 < price
  · exact hpos
  · rw [if_neg hpos] at h
    exact nomatch h

/-- `quantity_tolerance`.
SOURCE: fill_accounting.py:63-66 -/
def quantityTolerance (previous total : Amount) : Amount :=
  max (1 / 10 ^ 12) (max |previous| |total| * (1 / 10 ^ 12))

/-- `cumulative_delta`.
SOURCE: fill_accounting.py:56-77 -/
def cumulativeDelta (previousQty previousAvg totalQty totalAvg : Amount) :
    Except FillError (Amount × Amount) :=
  if min previousQty totalQty < 0 then .error .invalidFillQuantity
  else if totalQty ≤ previousQty + quantityTolerance previousQty totalQty then .ok (0, 0)
  else if totalAvg ≤ 0 then .error .fillContractMetadataUnavailable
  else if 0 < previousQty ∧ previousAvg ≤ 0 then .error .fillContractMetadataUnavailable
  else
    let delta := totalQty - previousQty
    let price := (totalQty * totalAvg - previousQty * previousAvg) / delta
    if price ≤ 0 then .error .inconsistentFillSnapshot else .ok (delta, price)

namespace OrderStore

variable (store : OrderStore)

/-- `posted["quantity"]`. -/
def postedQuantity : Amount := (store.trades.map StrategyTrade.amount).sum

/-- The value of the posted trades. -/
def postedValue : Amount := (store.trades.map fun trade => trade.amount * trade.price).sum

/-- `posted["average"]`.
SOURCE: fill_accounting.py:96-110 -/
def postedAverage : Amount :=
  if 0 < store.postedQuantity then store.postedValue / store.postedQuantity else 0

/-- `_already_projected`.
SOURCE: processor.py:138-149 -/
def alreadyProjected (eventId : ℕ) : Prop :=
  0 < eventId ∧ ∃ trade ∈ store.trades, trade.executionEventId = eventId

instance (eventId : ℕ) : Decidable (store.alreadyProjected eventId) :=
  inferInstanceAs (Decidable (_ ∧ _))

/-- `_record_runtime_fill`: what it does to the intent.
SOURCE: fill_records.py:318-327 -/
def recordRuntimeFill (quantity : Amount) : OrderStore :=
  { store with intent := if 0 < quantity then .partiallyFilled else store.intent }

/-- `_persist_strategy_fill`.
SOURCE: fill_records.py:126-248 -/
def appendFill (filled avgPrice : Amount) (eventId : ℕ) : Except FillError OrderStore :=
  if |filled| ≤ 1 / 10 ^ 12 then .ok store
  else match requireExecution filled avgPrice with
    | .error e => .error e
    | .ok () => .ok (recordRuntimeFill
        { store with trades := store.trades ++ [⟨filled, avgPrice, eventId⟩] } filled)

/-- `persist_strategy_fill` with a cumulative snapshot.
SOURCE: fill_records.py:71-123 -/
def persistCumulative (cumulative average : Amount) : Except FillError OrderStore :=
  match cumulativeDelta store.postedQuantity store.postedAverage cumulative average with
  | .error e => .error e
  | .ok (quantity, price) =>
    if cumulative + 1 / 10 ^ 12 < store.postedQuantity then .ok store
    else if quantity ≤ 0 then .ok store
    else store.appendFill quantity price 0

/-- `persist_strategy_fill` with the increment of an event.
SOURCE: fill_records.py:71-123 -/
def persistEvent (eventId : ℕ) (filled avgPrice : Amount) : Except FillError OrderStore :=
  if store.alreadyProjected eventId then .ok store
  else store.appendFill filled avgPrice eventId

end OrderStore

/-! ## Events of the private stream -/

/-- An execution event as it is projected. `combined` says that it is one of a pair of legs
(`_other_fees` in the source). -/
structure ExecutionEvent where
  id : ℕ := 0
  exchangeOrderId : String := ""
  quantity : Amount := 0
  price : Amount := 0
  cumulativeQuantity : Amount := 0
  cumulativeAveragePrice : Amount := 0
  isCumulative : Bool := true
  orderStatus : String := ""
  combined : Bool := false
  deriving DecidableEq

/-- The leg of a summary that names its order. -/
def namedLeg (leg : Option ExecutorLeg) : Option ExecutorLeg :=
  leg.filter fun leg => leg.exchangeOrderId ≠ ""

/-- The executed legs have a price.
SOURCE: fill_snapshot.py:137-139 -/
def pricedLeg (leg : ExecutorLeg) : Except FillError Unit :=
  if 0 < leg.filledQty then requireExecution leg.filledQty leg.avgPrice else .ok ()

/-- The event in the scope of both legs, the first of them being the one it is about.
SOURCE: fill_snapshot.py:132-157 -/
def combineLeg (event : ExecutionEvent) (matching other : ExecutorLeg) (last : Bool) :
    Except FillError (ExecutionEvent × ExecutorLeg) :=
  if event.cumulativeQuantity < matching.filledQty then
    .ok ({ event with cumulativeQuantity := 0, quantity := 0 }, matching)
  else
    let updated := { matching with
      filledQty := event.cumulativeQuantity
      avgPrice := event.cumulativeAveragePrice }
    match pricedLeg updated, pricedLeg other with
    | .ok (), .ok () =>
      let quantity := updated.filledQty + other.filledQty
      let value := updated.filledQty * updated.avgPrice + other.filledQty * other.avgPrice
      let ended := event.orderStatus = "filled" ∨ event.orderStatus = "cancelled"
      .ok ({ event with
          cumulativeQuantity := quantity
          cumulativeAveragePrice := if quantity = 0 then 0 else value / quantity
          orderStatus := if last = false ∧ ended then "partial" else event.orderStatus
          combined := true }, updated)
    | .error e, _ => .error e
    | .ok (), .error e => .error e

/-- `combine_pending_snapshot`.
SOURCE: fill_snapshot.py:120-157 -/
def combinePendingSnapshot (event : ExecutionEvent) (response : ExchangeResponse) :
    Except FillError (ExecutionEvent × ExchangeResponse) :=
  let phases := response.phases.getD {}
  match namedLeg phases.limitSummary, namedLeg phases.marketSummary with
  | some limit, some market =>
    if limit.exchangeOrderId = event.exchangeOrderId then
      match combineLeg event limit market false with
      | .error e => .error e
      | .ok (combined, leg) => .ok (combined,
          { response with phases := some { phases with limitSummary := some leg } })
    else if market.exchangeOrderId = event.exchangeOrderId then
      match combineLeg event market limit true with
      | .error e => .error e
      | .ok (combined, leg) => .ok (combined,
          { response with phases := some { phases with marketSummary := some leg } })
    else .error .inconsistentFillSnapshot
  | _, _ => .ok (event, response)

/-- `queue_status` of an event.
SOURCE: processor.py:273-276 -/
def eventQueueStatus (status : String) : QueueStatus :=
  if status = "cancelled" then .cancelled else if status = "filled" then .filled else .sent

/-- The quantity that the event takes the order to.
SOURCE: processor.py:251-260 -/
def projectedTarget (event : ExecutionEvent) (previous : Amount) : Amount :=
  let cumulative := max 0 event.cumulativeQuantity
  if event.isCumulative = true ∨ 0 < cumulative then max previous cumulative
  else previous + max 0 event.quantity

/-- The unposted part of the event and its price.
SOURCE: processor.py:251-267 -/
def projectedDelta (event : ExecutionEvent) (previous previousAvg : Amount) :
    Except FillError (Amount × Amount) :=
  let cumulative := max 0 event.cumulativeQuantity
  let pair := if event.cumulativeAveragePrice ≠ 0 then
      cumulativeDelta previous previousAvg cumulative event.cumulativeAveragePrice
    else .ok (if event.isCumulative = true ∨ 0 < cumulative
      then max 0 (projectedTarget event previous - previous) else max 0 event.quantity, event.price)
  match pair with
  | .error e => .error e
  | .ok (delta, price) =>
    if 0 < delta then
      match requireExecution delta price with
      | .error e => .error e
      | .ok () => .ok (delta, price)
    else .ok (delta, price)

/-- `aggregate_avg`.
SOURCE: processor.py:268-272 -/
def projectedAverage (previous previousAvg target delta price : Amount) : Amount :=
  if 0 < target ∧ 0 < delta ∧ 0 < price then (previous * previousAvg + delta * price) / target
  else if previousAvg ≠ 0 then previousAvg else price

namespace OrderStore

variable (store : OrderStore)

/-- The update of the order row and of the intent by an event.
SOURCE: processor.py:277-321 -/
def recordEvent (response : ExchangeResponse) (target average : Amount) (queue : QueueStatus) :
    OrderStore :=
  { store with
    row := { store.row with
      response := response
      filled := max store.row.filled target
      avgPrice := if 0 < average then average else store.row.avgPrice
      status := if queue = .filled then .filled
        else if store.row.status = .failed ∧ 0 < target then .sent else store.row.status }
    intent := if store.intent = .filled ∨ queue = .filled then .filled
      else if 0 < target then .partiallyFilled
      else if queue = .cancelled then .cancelled else store.intent }

/-- `_project_pending_order`.
SOURCE: processor.py:221-422 -/
def projectPendingOrder (event : ExecutionEvent) : Except FillError OrderStore :=
  if store.alreadyProjected event.id then .ok store
  else match combinePendingSnapshot event store.row.response with
    | .error e => .error e
    | .ok (event, response) =>
      let previous := store.postedQuantity
      let target := projectedTarget event previous
      match projectedDelta event previous store.postedAverage with
      | .error e => .error e
      | .ok (delta, price) =>
        let recorded := store.recordEvent response target
          (projectedAverage previous store.postedAverage target delta price)
          (eventQueueStatus event.orderStatus)
        if 1 / 10 ^ 12 < delta ∧ 0 < price then recorded.persistEvent event.id delta price
        else .ok recorded

end OrderStore

/-! ## The worker's own result -/

/-- What `_mark_sent` is called with. -/
structure SentReport where
  note : String := "live_order_sent"
  exchangeId : String := ""
  exchangeOrderId : String := ""
  clientOrderId : String := ""
  response : ExchangeResponse := {}
  filled : Amount := 0
  avgPrice : Amount := 0
  finalFilled : Bool := false
  preserveIntentTerminal : Bool := false
  deriving DecidableEq

/-- The terminal statuses of an intent. -/
def terminalIntents : List IntentStatus := [.filled, .cancelled, .rejected, .failed, .expired]

/-- `_mark_sent`.
SOURCE: pending_order_worker.py:2809-2892 -/
def OrderStore.markSent (store : OrderStore) (report : SentReport) : OrderStore :=
  { store with
    row := { store.row with
      status := if store.row.status = .filled ∨ report.finalFilled = true then .filled else .sent
      dispatchNote := report.note
      exchangeId := report.exchangeId
      clientOrderId := textOrElse report.clientOrderId store.row.clientOrderId
      exchangeOrderId := report.exchangeOrderId
      response := report.response
      filled := max store.row.filled report.filled
      avgPrice := if report.filled < store.row.filled ∧ 0 < store.row.avgPrice
        then store.row.avgPrice else report.avgPrice }
    intent := if report.preserveIntentTerminal = true ∧ store.intent ∈ terminalIntents
        then store.intent
      else if report.finalFilled = true then .filled
      else if 0 < report.filled then .partiallyFilled else .submitted }

/-! ## The REST synchronisation -/

/-- `ALPACA_FILL_DELTA_EPSILON`. -/
def fillDeltaEpsilon : Amount := 1 / 10 ^ 8

/-- What the guard of a claim finds in columns that are not modelled: the retry intervals
have passed, and a trade waits for its fee. -/
structure ClaimClock where
  retryDue : Bool := true
  feeRetryDue : Bool := true
  feePending : Bool := false
  deriving DecidableEq

/-- The guard of `_claim_live_sent_order`.
SOURCE: pending_order_worker.py:757-793 -/
def OrderStore.Claimable (store : OrderStore) (clock : ClaimClock) : Prop :=
  ((store.row.status = .sent ∧
        (store.row.dispatchNote ≠ "live_fill_sync:retry_error" ∨ clock.retryDue = true)) ∨
      ((store.row.status = .filled ∨ store.row.status = .cancelled) ∧
        store.postedQuantity < store.row.filled) ∨
      (store.row.status = .filled ∧ store.row.filled ≤ 0 ∧ store.row.avgPrice ≤ 0) ∨
      (store.row.status = .filled ∧ 0 < store.row.filled ∧
        (store.row.dispatchNote ∉ ["live_fee_sync:no_fee", "live_fee_sync:retry"] ∨
          clock.feeRetryDue = true) ∧ clock.feePending = true)) ∧
    lower store.row.exchangeId ≠ "alpaca" ∧
    (store.row.exchangeOrderId ≠ "" ∨ store.row.clientOrderId ≠ "")

instance (store : OrderStore) (clock : ClaimClock) : Decidable (store.Claimable clock) :=
  inferInstanceAs (Decidable (_ ∧ _))

/-- The row that a claim writes and returns. -/
def PendingOrder.claimed (row : PendingOrder) : PendingOrder :=
  { row with status := .syncing, dispatchNote := "live_fill_sync:syncing" }

/-- What the exchange answers to a synchronisation. `boundOrderId` is the order id that a
broker returns for a client order id, `executable` the rounded requested quantity, and
`feesKnown` says that fees came with the answer. -/
structure RestAnswer where
  cumulativeFilled : Amount
  cumulativeAvg : Amount
  exchangeStatus : String
  executable : Amount
  boundOrderId : String := ""
  feesKnown : Bool := false
  deriving DecidableEq

/-- `exchange_status` of an answer.
SOURCE: pending_order_worker.py:899 -/
def RestAnswer.status (answer : RestAnswer) : String :=
  lower (strip (textOrElse answer.exchangeStatus "unknown"))

/-- The order id that a synchronisation works with. -/
def trackedOrderId (row : PendingOrder) (answer : RestAnswer) : String :=
  textOrElse row.exchangeOrderId answer.boundOrderId

/-- The candidate with the larger quantity, the first of them when they are equal. -/
def furthest (best candidate : FillMarker) : FillMarker :=
  if best.trackedFilled < candidate.trackedFilled then candidate else best

/-- The progress of the tracked order that the executor recorded.
SOURCE: sent_order_recovery.py:122-146 -/
def trackedLegs (phases : Phases) (exchangeOrderId : String) : List FillMarker :=
  let market := phases.marketSummary.getD ⟨"", 0, 0⟩
  (if market.exchangeOrderId = exchangeOrderId
      then [⟨max 0 market.filledQty, max 0 market.avgPrice⟩] else []) ++
    (((phases.closeReconciliation.map CloseMetadata.retryOrders).getD []).find? fun retry =>
        retry.exchangeOrderId = exchangeOrderId).toList.map fun retry =>
      ⟨max 0 retry.filledQuantity, max 0 retry.avgPrice⟩

/-- `tracked_fill_baseline`.
SOURCE: sent_order_recovery.py:92-155 -/
def trackedFillBaseline (response : ExchangeResponse) (exchangeOrderId : String)
    (previousFilled previousAvg : Amount) : FillMarker :=
  let legs := trackedLegs (response.phases.getD {}) exchangeOrderId
  let candidates := (response.liveFillSync.toList.map fun marker =>
      ⟨max 0 marker.trackedFilled, max 0 marker.trackedAvgPrice⟩) ++ legs ++
    (if legs = [] then [⟨max 0 previousFilled, max 0 previousAvg⟩] else [])
  match candidates with
  | [] => ⟨0, 0⟩
  | first :: rest => rest.foldl furthest first

/-- The figures of one synchronisation: the growth of the tracked order, the totals of the
pending order, and whether they are handed to `persist_strategy_fill`. -/
structure SyncPlan where
  delta : Amount
  aggregateFilled : Amount
  aggregateAvg : Amount
  posts : Bool
  deriving DecidableEq

/-- The average of the growth.
SOURCE: pending_order_worker.py:928-935 -/
def growthAverage (answer : RestAnswer) (tracked : FillMarker) (delta : Amount) : Amount :=
  let notional := max 0 answer.cumulativeFilled * max 0 answer.cumulativeAvg -
    tracked.trackedFilled * tracked.trackedAvgPrice
  if fillDeltaEpsilon < delta ∧ 0 < tracked.trackedFilled ∧ 0 < tracked.trackedAvgPrice ∧
      0 < notional then notional / delta
  else max 0 answer.cumulativeAvg

/-- The totals of the row after the growth.
SOURCE: pending_order_worker.py:936-942 -/
def grownTotals (previousFilled previousAvg delta deltaAvg : Amount) :
    Except FillError (Amount × Amount) :=
  if 0 < previousFilled ∧ 0 < previousAvg then
    if previousFilled + delta = 0 then .error .zeroDivision
    else .ok (previousFilled + delta,
      (previousFilled * previousAvg + delta * deltaAvg) / (previousFilled + delta))
  else .ok (previousFilled + delta, deltaAvg)

/-- The figures of `_sync_one_live_sent_order` between the answer and the writes.
SOURCE: pending_order_worker.py:897-949, 1010-1015 -/
def syncPlan (row : PendingOrder) (answer : RestAnswer) : Except FillError SyncPlan :=
  let cumulativeFilled := max 0 answer.cumulativeFilled
  let cumulativeAvg := max 0 answer.cumulativeAvg
  let previousFilled := max 0 row.filled
  let previousAvg := max 0 row.avgPrice
  let orderId := trackedOrderId row answer
  let tracked := trackedFillBaseline row.response orderId previousFilled previousAvg
  let delta := cumulativeFilled - tracked.trackedFilled
  match combinePendingSnapshot
      { exchangeOrderId := orderId
        cumulativeQuantity := cumulativeFilled
        cumulativeAveragePrice := cumulativeAvg
        orderStatus := answer.status } row.response with
  | .error e => .error e
  | .ok (combined, _) =>
    if fillDeltaEpsilon < cumulativeFilled ∧ 0 < cumulativeAvg then
      match grownTotals previousFilled previousAvg delta (growthAverage answer tracked delta) with
      | .error e => .error e
      | .ok (filled, average) =>
        if delta ≤ fillDeltaEpsilon then .ok ⟨0, previousFilled, previousAvg, true⟩
        else if combined.combined = true then
          .ok ⟨delta, combined.cumulativeQuantity, combined.cumulativeAveragePrice, true⟩
        else .ok ⟨delta, filled, average, true⟩
    else .ok ⟨delta, previousFilled, previousAvg, false⟩

/-- The posting of a synchronisation.
SOURCE: pending_order_worker.py:976-1003 -/
def OrderStore.syncPersist (store : OrderStore) (row : PendingOrder) (answer : RestAnswer) :
    Except FillError OrderStore :=
  match syncPlan row answer with
  | .error e => .error e
  | .ok plan =>
    if plan.posts = true then store.persistCumulative plan.aggregateFilled plan.aggregateAvg
    else .ok store

/-- `is_final_fill`.
SOURCE: sent_order_recovery.py:22-29 -/
def isFinalFill (requested filled avgPrice : Amount) (status : String) : Prop :=
  0 < requested ∧ 0 < filled ∧ 0 < avgPrice ∧
    (normalizeLiveOrderStatus status = .filled ∨ requested * (999999 / 1000000) ≤ filled)

instance (requested filled avgPrice : Amount) (status : String) :
    Decidable (isFinalFill requested filled avgPrice status) :=
  inferInstanceAs (Decidable (_ ∧ _))

/-- `reconciled_queue_status`.
SOURCE: order_quantities.py:134-158 -/
def reconciledQueueStatus (executable filled avgPrice : Amount) (exchangeStatus : String) :
    QueueStatus :=
  if isFinalFill executable filled avgPrice exchangeStatus then .filled
  else if lower (strip exchangeStatus) = "cancelled" then .cancelled else .sent

/-- The queue status that `reconciled_close_snapshot` leaves: an open close stays queued.
SOURCE: sent_order_recovery.py:64-75 -/
def reconciledCloseStatus (response : ExchangeResponse) (queue : QueueStatus)
    (aggregateFilled requested : Amount) : QueueStatus :=
  match (response.phases.getD {}).closeReconciliation with
  | none => queue
  | some close =>
    let target := max 0 (if close.targetQuantity = 0 then requested else close.targetQuantity)
    let tolerance := max (1 / 10 ^ 12) (target * (1 / 10 ^ 9))
    if close.status ≠ .closed ∧ close.status ≠ .dust ∧
        (aggregateFilled + tolerance < target ∨ tolerance < max 0 close.remainingQuantity)
    then .sent else queue

/-- What `_update_live_sent_order_snapshot` is called with. -/
structure SnapshotUpdate where
  status : QueueStatus
  dispatchNote : String
  filled : Amount
  avgPrice : Amount
  response : ExchangeResponse
  deriving DecidableEq

/-- The update at the end of a synchronisation.
SOURCE: pending_order_worker.py:1010-1068 -/
def syncSnapshot (row : PendingOrder) (answer : RestAnswer) : Except FillError SnapshotUpdate :=
  match syncPlan row answer with
  | .error e => .error e
  | .ok plan =>
    let exchangeStatus := if fillDeltaEpsilon < plan.delta ∧ max 0 answer.cumulativeAvg ≤ 0
      then "fill_price_missing" else answer.status
    let requested := max 0 (if row.amount = 0 then plan.aggregateFilled else row.amount)
    let queue := reconciledCloseStatus row.response
      (reconciledQueueStatus answer.executable plan.aggregateFilled plan.aggregateAvg
        exchangeStatus) plan.aggregateFilled requested
    .ok {
      status := queue
      dispatchNote := if queue = .filled ∧ answer.feesKnown = false ∧ plan.delta ≤ fillDeltaEpsilon
        then "live_fee_sync:retry" else "live_fill_sync:" ++ textOrElse exchangeStatus "unknown"
      filled := plan.aggregateFilled
      avgPrice := plan.aggregateAvg
      response := {
        liveFillSync := some ⟨max 0 answer.cumulativeFilled, max 0 answer.cumulativeAvg⟩
        phases := row.response.phases } }

/-- The update of a synchronisation whose query failed.
SOURCE: pending_order_worker.py:886-895 -/
def failedSnapshot (row : PendingOrder) : SnapshotUpdate where
  status := .sent
  dispatchNote := "live_fill_sync:sync_error"
  filled := row.filled
  avgPrice := row.avgPrice
  response := {}

/-- `_update_live_sent_order_snapshot`.
SOURCE: pending_order_worker.py:1148-1223 -/
def OrderStore.updateLiveSentOrderSnapshot (store : OrderStore) (update : SnapshotUpdate) :
    OrderStore :=
  { store with
    row := if store.row.filled ≤ update.filled then
        { store.row with
          status := update.status
          dispatchNote := update.dispatchNote
          filled := update.filled
          avgPrice := update.avgPrice
          response := {
            liveFillSync := update.response.liveFillSync.or store.row.response.liveFillSync
            phases := update.response.phases.or store.row.response.phases } }
      else store.row
    intent := if update.status = .filled then .filled
      else if update.status = .cancelled then .cancelled
      else if 0 < update.filled then .partiallyFilled else .submitted }

/-! ## Cancellations -/

/-- `persist_cancellations` for the order.
SOURCE: cancellations.py:9-42 -/
def OrderStore.persistCancellation (store : OrderStore) : OrderStore :=
  if store.row.status ∈ [.pending, .processing, .sent, .syncing] then
    let status := if store.row.status = .pending ∧ store.row.attempts = 0 ∧
      store.row.exchangeOrderId = "" then .cancelled else store.row.status
    { store with
      row := { store.row with status := status, cancelRequested := true }
      intent := if store.intent ∈ terminalIntents then store.intent
        else if status = .cancelled then .cancelled else .cancelPending }
  else store

/-! ## Interleavings -/

/-- The store and the synchronisations under way: claimed rows, and rows whose answer has
been posted. -/
structure Desk where
  store : OrderStore
  claimed : List PendingOrder := []
  posted : List (PendingOrder × RestAnswer) := []
  deriving DecidableEq

/-- The transactions on the rows of one order. A synchronisation is made of its claim, the
posting and the update; between them anything else may happen. -/
inductive Transaction
  | markSent (report : SentReport)
  | persist (cumulative average : Amount)
  | project (event : ExecutionEvent)
  | claim (clock : ClaimClock)
  | syncPersist (index : ℕ) (answer : RestAnswer)
  | syncUpdate (index : ℕ)
  | syncFailed (index : ℕ)
  | bind (orderId : String)
  | cancel
  deriving DecidableEq

/-- The store that a transaction leaves; one that fails is rolled back. -/
def OrderStore.commit (store : OrderStore) : Except FillError OrderStore → OrderStore
  | .ok committed => committed
  | .error _ => store

/-- One transaction. A synchronisation whose posting fails ends there. -/
def Desk.act (desk : Desk) : Transaction → Desk
  | .markSent report => { desk with store := desk.store.markSent report }
  | .persist cumulative average =>
    { desk with store := desk.store.commit (desk.store.persistCumulative cumulative average) }
  | .project event =>
    { desk with store := desk.store.commit (desk.store.projectPendingOrder event) }
  | .claim clock =>
    if desk.store.Claimable clock then
      { desk with
        store := { desk.store with row := desk.store.row.claimed }
        claimed := desk.claimed ++ [desk.store.row.claimed] }
    else desk
  | .syncPersist index answer =>
    match desk.claimed[index]? with
    | none => desk
    | some row =>
      match desk.store.syncPersist row answer with
      | .error _ => { desk with claimed := desk.claimed.eraseIdx index }
      | .ok store =>
        { store := store
          claimed := desk.claimed.eraseIdx index
          posted := desk.posted ++ [(row, answer)] }
  | .syncUpdate index =>
    match desk.posted[index]? with
    | none => desk
    | some (row, answer) =>
      { desk with
        store := match syncSnapshot row answer with
          | .ok update => desk.store.updateLiveSentOrderSnapshot update
          | .error _ => desk.store
        posted := desk.posted.eraseIdx index }
  | .syncFailed index =>
    match desk.claimed[index]? with
    | none => desk
    | some row =>
      { desk with
        store := desk.store.updateLiveSentOrderSnapshot (failedSnapshot row)
        claimed := desk.claimed.eraseIdx index }
  | .bind orderId =>
    { desk with
      store := { desk.store with row := { desk.store.row with exchangeOrderId := orderId } } }
  | .cancel => { desk with store := desk.store.persistCancellation }

end QuantDinger.Model.Live
