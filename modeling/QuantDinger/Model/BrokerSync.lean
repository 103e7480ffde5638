import QuantDinger.Model.FillPosting

/-!
# Synchronisation of broker orders

`_sync_one_alpaca_sent_order` for a row of an Alpaca, Tiger or Webull order: the claim, the
increment that is derived from the row, the posting of the cumulative snapshot and the update of
the row. Fees, the cancellation that is passed on, log texts and the returns before the broker is
asked are left out.
-/

namespace QuantDinger.Model.Live

open QuantDinger.Library

/-- What the broker answers. -/
structure BrokerAnswer where
  orderId : String := ""
  status : String
  filled : Amount
  avgPrice : Amount
  deriving DecidableEq

/-- The guard of `_claim_alpaca_sent_order`.
SOURCE: alpaca_sync_persistence.py:78-121 -/
def OrderStore.BrokerClaimable (store : OrderStore) (clock : ClaimClock) : Prop :=
  (store.row.status = .sent ∨
      ((store.row.status = .filled ∨ store.row.status = .cancelled) ∧
        store.postedQuantity < store.row.filled) ∨
      (store.row.status = .filled ∧ 0 < store.row.filled ∧ clock.feeRetryDue = true ∧
        clock.feePending = true)) ∧
    lower store.row.exchangeId ∈ ["alpaca", "tiger", "webull"] ∧
    (store.row.exchangeOrderId ≠ "" ∨ store.row.clientOrderId ≠ "")

instance (store : OrderStore) (clock : ClaimClock) : Decidable (store.BrokerClaimable clock) :=
  inferInstanceAs (Decidable (_ ∧ _))

/-- The row that the claim writes and returns. -/
def PendingOrder.brokerClaimed (row : PendingOrder) : PendingOrder :=
  { row with status := .syncing, dispatchNote := "alpaca_fill_sync:syncing" }

/-- `_bind_reconciled_exchange_order_id`, of a row without an exchange order id.
SOURCE: pending_order_worker.py:493-502, submission_recovery.py:110-138 -/
def PendingOrder.bound (row : PendingOrder) (answer : BrokerAnswer) : PendingOrder :=
  if strip row.exchangeOrderId = "" ∧ strip answer.orderId ≠ "" then
    { row with exchangeOrderId := answer.orderId }
  else row

/-- The increment and its price, derived from the row; `none` where there is nothing to post.
SOURCE: pending_order_worker.py:532-538 -/
def brokerIncrement (row : PendingOrder) (answer : BrokerAnswer) :
    Except FillError (Option (Amount × Amount)) :=
  let delta := answer.filled - row.filled
  if fillDeltaEpsilon < answer.filled ∧ 0 < answer.avgPrice then
    if 0 < row.filled ∧ 0 < row.avgPrice then
      let deltaNotional := answer.filled * answer.avgPrice - row.filled * row.avgPrice
      if 0 < deltaNotional then
        if delta = 0 then .error .zeroDivision else .ok (some (delta, deltaNotional / delta))
      else .ok (some (delta, answer.avgPrice))
    else .ok (some (delta, answer.avgPrice))
  else .ok none

/-- `new_status`.
SOURCE: pending_order_worker.py:589-596 -/
def brokerQueueStatus (status : String) : QueueStatus :=
  if status = "filled" then .filled
  else if status = "canceled" ∨ status = "cancelled" then .cancelled
  else if status = "rejected" ∨ status = "expired" then .failed
  else .sent

/-- `_update_alpaca_sent_order_snapshot`.
SOURCE: alpaca_sync_persistence.py:123-202 -/
def OrderStore.updateBrokerSnapshot (store : OrderStore) (answer : BrokerAnswer) : OrderStore :=
  let exchangeStatus := lower (strip answer.status)
  let status := brokerQueueStatus exchangeStatus
  { store with
    row := { store.row with
      status := status
      dispatchNote := "alpaca_fill_sync:" ++ textOrElse exchangeStatus "unknown"
      filled := answer.filled
      avgPrice := answer.avgPrice }
    intent := match status with
      | .filled => .filled
      | .failed => .rejected
      | .cancelled => .cancelled
      | _ => if 0 < answer.filled then .partiallyFilled else .submitted }

/-- `_sync_one_alpaca_sent_order`: the store it leaves, and the increment of a claimed row. What
raises ends the synchronisation of the claimed row.
SOURCE: pending_order_worker.py:438-608 -/
def OrderStore.syncBrokerOrder (store : OrderStore) (clock : ClaimClock) (answer : BrokerAnswer) :
    OrderStore × Option (Except FillError (Option (Amount × Amount))) :=
  if store.BrokerClaimable clock then
    let row := store.row.brokerClaimed
    let claimed := { store with row := row.bound answer }
    match brokerIncrement row answer with
    | .error e => (claimed, some (.error e))
    | .ok none => (claimed.updateBrokerSnapshot answer, some (.ok none))
    | .ok (some increment) =>
      match claimed.persistCumulative answer.filled answer.avgPrice with
      | .error _ => (claimed, some (.ok (some increment)))
      | .ok posted => (posted.updateBrokerSnapshot answer, some (.ok (some increment)))
  else (store, none)

/-- A row whose synchronisation did not end, queued again.
SOURCE: alpaca_sync_persistence.py:16-35 -/
def OrderStore.requeueStaleSync (store : OrderStore) : OrderStore :=
  if store.row.status = .syncing ∧ lower store.row.exchangeId ∈ ["alpaca", "tiger", "webull"] then
    { store with row := { store.row with
      status := .sent
      dispatchNote := "alpaca_fill_sync:requeued_stale_sync" } }
  else store

end QuantDinger.Model.Live
