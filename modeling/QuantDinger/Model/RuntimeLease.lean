import QuantDinger.Model.FillPosting

/-!
# The runtime lease of a strategy

The lease row of one strategy and the statements that write it, each a transaction of its own: the
acquisition, renewal, release and revocation of the lease and the clean-up of old rows. Beside it
the rows that are fenced with its token: the pending orders and the checkpoint of the grid actor.
Times are in microseconds. Heartbeats and columns that are only displayed are left out.
-/

namespace QuantDinger.Model.Live

/-- `INTERVAL '1 second'`. -/
def oneSecond : Time := 1000000

/-- `INTERVAL '1 day'`. -/
def oneDay : Time := 86400 * oneSecond

/-- An owner id that is not empty. -/
structure WorkerId where
  text : String
  nonempty : text ≠ ""
  deriving DecidableEq

/-! ## Rows -/

/-- A row of `qd_strategy_runtime_leases`; the empty owner is nobody. -/
structure LeaseRow where
  ownerId : String
  fencingToken : ℕ
  leaseExpiresAt : Time
  deriving DecidableEq

/-- A row of `pending_orders`; the token 0 stands for no fence. -/
structure FencedOrder where
  status : QueueStatus
  attempts : ℕ := 0
  runtimeFencingToken : ℕ := 0
  lastError : String := ""
  dispatchNote : String := ""
  deriving DecidableEq

/-- A row of `qd_grid_actor_state`. -/
structure GridCheckpoint where
  strategyRunId : ℕ
  ownerId : String
  fencingToken : ℕ
  status : String
  stateJson : String
  lastExecutionEventId : ℕ
  version : ℕ
  deriving DecidableEq

/-- What an acquisition has returned, and to whom. -/
structure Grant where
  owner : WorkerId
  token : ℕ
  deriving DecidableEq

/-- The rows of one strategy; `grants` remembers what has been acquired, the last one first. -/
structure LeaseStore where
  lease : Option LeaseRow := none
  orders : ℕ → Option FencedOrder := fun _ => none
  checkpointRow : Option GridCheckpoint := none
  grants : List Grant := []

namespace LeaseStore

variable (store : LeaseStore)

/-! ## The lease -/

/-- `acquire_strategy_lease`.
SOURCE: strategy_command_repository.py:265-297 -/
def acquireStrategyLease (now : Time) (owner : WorkerId) (leaseSeconds : ℤ) :
    LeaseStore × Option ℕ :=
  let granted (token : ℕ) : LeaseStore × Option ℕ :=
    ({ store with
        lease := some ⟨owner.text, token, now + leaseSeconds * oneSecond⟩
        grants := ⟨owner, token⟩ :: store.grants }, some token)
  match store.lease with
  | none => granted 1
  | some row =>
    if row.ownerId = owner.text then granted row.fencingToken
    else if row.leaseExpiresAt < now then granted (row.fencingToken + 1)
    else (store, none)

/-- `renew_strategy_lease`.
SOURCE: strategy_command_repository.py:299-318 -/
def renewStrategyLease (now : Time) (owner : WorkerId) (leaseSeconds : ℤ) : LeaseStore × Bool :=
  match store.lease with
  | none => (store, false)
  | some row =>
    if row.ownerId = owner.text ∧ now ≤ row.leaseExpiresAt then
      ({ store with
          lease := some { row with leaseExpiresAt := now + leaseSeconds * oneSecond } }, true)
    else (store, false)

/-- `release_strategy_lease`.
SOURCE: strategy_command_repository.py:320-338 -/
def releaseStrategyLease (now : Time) (owner : WorkerId) : LeaseStore :=
  match store.lease with
  | none => store
  | some row =>
    if row.ownerId = owner.text then
      { store with lease := some { row with ownerId := "", leaseExpiresAt := now - oneSecond } }
    else store

/-- `revoke_strategy_lease`.
SOURCE: strategy_command_repository.py:340-361 -/
def revokeStrategyLease (now : Time) : LeaseStore × Bool :=
  match store.lease with
  | none => (store, false)
  | some row =>
    ({ store with lease := some ⟨"", row.fencingToken + 1, now - oneSecond⟩ }, true)

/-- `cleanup_runtime_metadata`, as far as it touches the lease.
SOURCE: strategy_command_repository.py:509-512 -/
def cleanupRuntimeMetadata (now : Time) : LeaseStore :=
  match store.lease with
  | none => store
  | some row => if row.leaseExpiresAt < now - oneDay then { store with lease := none } else store

/-! ## The fenced rows -/

/-- The fence of a pending order is current, or there is none.
SOURCE: claims.py:25-34 -/
def FenceCurrent (now : Time) (order : FencedOrder) : Prop :=
  order.runtimeFencingToken = 0 ∨
    ∃ row ∈ store.lease, row.fencingToken = order.runtimeFencingToken ∧ now ≤ row.leaseExpiresAt

instance (now : Time) (order : FencedOrder) : Decidable (store.FenceCurrent now order) :=
  inferInstanceAs (Decidable (_ ∨ _))

/-- `claim_pending_order`.
SOURCE: claims.py:12-61 -/
def claimPendingOrder (now : Time) (orderId : ℕ) : LeaseStore × Bool :=
  match store.orders orderId with
  | none => (store, false)
  | some order =>
    if order.status ≠ .pending then (store, false)
    else if store.FenceCurrent now order then
      ({ store with orders := Function.update store.orders orderId (some
          { order with status := .processing, attempts := order.attempts + 1 }) }, true)
    else
      ({ store with orders := Function.update store.orders orderId (some
          { order with
            status := .failed
            lastError := "strategyRuntime.staleFencingToken"
            dispatchNote := "runtime_fence_rejected" }) }, false)

/-- The lease that a checkpoint is written under.
SOURCE: actor.py:355-360 -/
def checkpointLease (now : Time) : Option LeaseRow :=
  store.lease.filter fun row => row.ownerId ≠ "" ∧ now ≤ row.leaseExpiresAt

/-- `checkpoint` of the grid actor.
SOURCE: actor.py:335-396 -/
def checkpoint (now : Time) (strategyRunId : ℕ) (stateJson status : String)
    (lastExecutionEventId : ℕ) : LeaseStore × Bool :=
  match store.checkpointLease now with
  | none => (store, false)
  | some lease =>
    let row : GridCheckpoint :=
      ⟨strategyRunId, lease.ownerId, lease.fencingToken, if status = "" then "running" else status,
        stateJson, lastExecutionEventId, 1⟩
    match store.checkpointRow with
    | none => ({ store with checkpointRow := some row }, true)
    | some saved =>
      if saved.fencingToken ≤ row.fencingToken then
        ({ store with checkpointRow := some { row with
            lastExecutionEventId :=
              if saved.strategyRunId = strategyRunId
              then max saved.lastExecutionEventId lastExecutionEventId
              else lastExecutionEventId
            version := saved.version + 1 } }, true)
      else (store, false)

end LeaseStore

/-! ## Histories -/

/-- A statement on the rows of the strategy. -/
inductive LeaseAction
  | acquire (owner : WorkerId) (leaseSeconds : ℤ)
  | renew (owner : WorkerId) (leaseSeconds : ℤ)
  | release (owner : WorkerId)
  | revoke
  | cleanup
  | place (orderId : ℕ) (order : FencedOrder)
  | claim (orderId : ℕ)
  | save (strategyRunId : ℕ) (stateJson status : String) (lastExecutionEventId : ℕ)

/-- A statement, and what NOW() is when it runs. -/
structure LeaseEvent where
  now : Time
  action : LeaseAction

/-- One statement. A pending order may be stamped with any token, late as it may be. -/
def LeaseStore.step (store : LeaseStore) (event : LeaseEvent) : LeaseStore :=
  match event.action with
  | .acquire owner leaseSeconds => (store.acquireStrategyLease event.now owner leaseSeconds).1
  | .renew owner leaseSeconds => (store.renewStrategyLease event.now owner leaseSeconds).1
  | .release owner => store.releaseStrategyLease event.now owner
  | .revoke => (store.revokeStrategyLease event.now).1
  | .cleanup => store.cleanupRuntimeMetadata event.now
  | .place orderId order =>
    { store with orders := Function.update store.orders orderId (some order) }
  | .claim orderId => (store.claimPendingOrder event.now orderId).1
  | .save strategyRunId stateJson status lastExecutionEventId =>
    (store.checkpoint event.now strategyRunId stateJson status lastExecutionEventId).1

end QuantDinger.Model.Live
