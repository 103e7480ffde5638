import QuantDinger.Library.Faults
import QuantDinger.Model.RuntimeLease

/-!
# The grid actor

The mailbox of one strategy: the rows of `qd_grid_actor_events` beside its runtime lease, and
`drain_owned`, which projects the events a worker has claimed, checkpoints the runner and reports
on each event. Each call is one transaction. A worker may have several drains under way, and any of
them may stall between two calls or never go on. The columns of `qd_execution_events` that the
mailbox copies its results to are left out.
-/

namespace QuantDinger.Model.Live

open QuantDinger.Library

/-! ## Rows -/

/-- `status` of a row of `qd_grid_actor_events`. -/
inductive ActorStatus
  | pending
  | processing
  | failed
  | completed
  | dead
  deriving DecidableEq

/-- An event that is done with. -/
def ActorStatus.finished : ActorStatus → Bool
  | .completed | .dead => true
  | .pending | .processing | .failed => false

/-- A row of `qd_grid_actor_events`; `execution_event_id` is unique. -/
structure ActorRow where
  id : ℕ
  executionEventId : ℕ
  gridOrderId : ℕ
  status : ActorStatus := .pending
  attempts : ℕ := 0
  claimedBy : String := ""
  fencingToken : ℕ := 0
  availableAt : Time
  leaseExpiresAt : Option Time := none
  completedAt : Option Time := none
  errorMessage : String := ""
  deriving DecidableEq

/-- `GridActorEvent`: the row as a claim returns it.
SOURCE: actor.py:16-34 -/
structure GridActorEvent where
  id : ℕ
  executionEventId : ℕ
  gridOrderId : ℕ
  attempts : ℕ
  fencingToken : ℕ
  deriving DecidableEq

/-- `GridActorEvent.from_row`. -/
def GridActorEvent.fromRow (row : ActorRow) : GridActorEvent :=
  ⟨row.id, row.executionEventId, row.gridOrderId, row.attempts, row.fencingToken⟩

/-- Where `drain_owned` is with an event: the call it makes next. -/
inductive DrainStage
  | projecting
  | checkpointing
  | completing
  | failing (error : String)
  | done
  deriving DecidableEq

/-- An event that a drain has claimed, for whom and with which `max_attempts`. -/
structure DrainedEvent where
  owner : WorkerId
  maxAttempts : ℕ
  event : GridActorEvent
  stage : DrainStage := .projecting
  deriving DecidableEq

/-- A projection that was committed: by whom, for which claim, and NOW(). -/
structure Projection where
  owner : WorkerId
  event : GridActorEvent
  now : Time
  deriving DecidableEq

/-- The rows of one strategy, what its drains are doing, and the projections so far. -/
structure GridActorStore where
  leases : LeaseStore := {}
  events : List ActorRow := []
  drained : List DrainedEvent := []
  projections : List Projection := []

namespace GridActorStore

variable (store : GridActorStore)

/-- The row of an event. -/
def row (id : ℕ) : Option ActorRow := store.events.find? fun row => row.id = id

/-- An update of the rows that a condition holds of. -/
def updateWhere (p : ActorRow → Prop) [DecidablePred p] (f : ActorRow → ActorRow) :
    GridActorStore :=
  { store with events := store.events.map fun row => if p row then f row else row }

/-- The worker holds the lease of the strategy. -/
def Holds (now : Time) (owner : WorkerId) : Prop :=
  ∃ lease ∈ store.leases.lease, lease.ownerId = owner.text ∧ now ≤ lease.leaseExpiresAt

instance (now : Time) (owner : WorkerId) : Decidable (store.Holds now owner) :=
  inferInstanceAs (Decidable (∃ lease ∈ store.leases.lease, _))

/-- The worker holds the lease under the token of the event. -/
def HoldsToken (now : Time) (owner : WorkerId) (event : GridActorEvent) : Prop :=
  ∃ lease ∈ store.leases.lease, lease.ownerId = owner.text ∧
    lease.fencingToken = event.fencingToken ∧ now ≤ lease.leaseExpiresAt

instance (now : Time) (owner : WorkerId) (event : GridActorEvent) :
    Decidable (store.HoldsToken now owner event) :=
  inferInstanceAs (Decidable (∃ lease ∈ store.leases.lease, _))

/-! ## The mailbox -/

/-- `enqueue`; an event that is not positive raises.
SOURCE: actor.py:40-73 -/
def enqueue (now : Time) (executionEventId gridOrderId : ℕ) : GridActorStore :=
  if executionEventId = 0 ∨ gridOrderId = 0 then store
  else if store.events.any fun row => row.executionEventId = executionEventId then store
  else { store with events := store.events ++ [{
    id := store.events.length + 1
    executionEventId := executionEventId
    gridOrderId := gridOrderId
    availableAt := now }] }

/-- An event that has used up its attempts.
SOURCE: actor.py:93-106 -/
def Exhausted (now : Time) (maxAttempts : ℕ) (row : ActorRow) : Prop :=
  maxAttempts ≤ row.attempts ∧
    (row.status = .pending ∨ row.status = .failed ∨ row.status = .processing) ∧
    ∀ expires ∈ row.leaseExpiresAt, expires < now

instance (now : Time) (maxAttempts : ℕ) (row : ActorRow) : Decidable (Exhausted now maxAttempts row) :=
  inferInstanceAs (Decidable (_ ∧ _))

/-- The first statement of `claim_for_owner`.
SOURCE: actor.py:91-114 -/
def buryExhausted (now : Time) (maxAttempts : ℕ) : GridActorStore :=
  store.updateWhere (Exhausted now maxAttempts) fun row =>
    { row with
      status := .dead
      completedAt := some now
      leaseExpiresAt := none
      errorMessage :=
        if row.errorMessage = "" then "gridActor.maxAttemptsExceeded" else row.errorMessage }

/-- An event that a worker with the lease can claim.
SOURCE: actor.py:117-140 -/
def Ready (now : Time) (maxAttempts : ℕ) (row : ActorRow) : Prop :=
  row.attempts < maxAttempts ∧ row.availableAt ≤ now ∧
    (row.status = .pending ∨ row.status = .failed ∨
      (row.status = .processing ∧ ∃ expires ∈ row.leaseExpiresAt, expires < now))

instance (now : Time) (maxAttempts : ℕ) (row : ActorRow) : Decidable (Ready now maxAttempts row) :=
  inferInstanceAs (Decidable (_ ∧ _))

/-- The second statement of `claim_for_owner`; events that another transaction has locked are
skipped.
SOURCE: actor.py:115-165 -/
def claimReady (now : Time) (owner : WorkerId) (limit leaseSeconds : ℤ) (maxAttempts : ℕ)
    (locked : ℕ → Bool) : GridActorStore :=
  match store.leases.lease with
  | none => store
  | some lease =>
    if lease.ownerId = owner.text ∧ now ≤ lease.leaseExpiresAt then
      let ready := ((store.events.filter fun row =>
        Ready now maxAttempts row ∧ locked row.id = false).take (max 1 limit).toNat).map ActorRow.id
      let claimed := store.updateWhere (fun row => row.id ∈ ready) fun row =>
        { row with
          status := .processing
          attempts := row.attempts + 1
          claimedBy := owner.text
          fencingToken := lease.fencingToken
          leaseExpiresAt := some (now + max 10 leaseSeconds * oneSecond)
          errorMessage := "" }
      { claimed with drained := store.drained ++
          (claimed.events.filter fun row => row.id ∈ ready).map fun row =>
            { owner := owner, maxAttempts := maxAttempts, event := .fromRow row } }
    else store

/-- `claim_for_owner`.
SOURCE: actor.py:75-176 -/
def claimForOwner (now : Time) (owner : WorkerId) (limit leaseSeconds : ℤ) (maxAttempts : ℕ)
    (locked : ℕ → Bool) : GridActorStore :=
  (store.buryExhausted now maxAttempts).claimReady now owner limit leaseSeconds maxAttempts locked

/-- The row is the one that was claimed, and in process.
SOURCE: actor.py:187-190, 236-238 -/
def InProcess (owner : WorkerId) (event : GridActorEvent) (row : ActorRow) : Prop :=
  row.id = event.id ∧ row.status = .processing ∧ row.claimedBy = owner.text ∧
    row.fencingToken = event.fencingToken

instance (owner : WorkerId) (event : GridActorEvent) (row : ActorRow) :
    Decidable (InProcess owner event row) :=
  inferInstanceAs (Decidable (_ ∧ _))

/-- `complete`.
SOURCE: actor.py:178-220 -/
def complete (now : Time) (owner : WorkerId) (event : GridActorEvent) : GridActorStore × Bool :=
  if store.HoldsToken now owner event ∧ ∃ row ∈ store.events, InProcess owner event row then
    (store.updateWhere (InProcess owner event) fun row =>
      { row with status := .completed, completedAt := some now, leaseExpiresAt := none }, true)
  else (store, false)

/-- `lock_ownership`: the lease is locked for the transaction, or it raises.
SOURCE: actor.py:222-254 -/
def lockOwnership (now : Time) (owner : WorkerId) (event : GridActorEvent) : Except String Unit :=
  if store.HoldsToken now owner event ∧ ∃ row ∈ store.events, InProcess owner event row then
    .ok ()
  else .error "gridActor.runtimeLeaseLost"

/-- A report of failure reaches the row: status and attempt are not looked at.
SOURCE: actor.py:279 -/
def Reached (owner : WorkerId) (event : GridActorEvent) (row : ActorRow) : Prop :=
  row.id = event.id ∧ row.claimedBy = owner.text ∧ row.fencingToken = event.fencingToken

instance (owner : WorkerId) (event : GridActorEvent) (row : ActorRow) :
    Decidable (Reached owner event row) :=
  inferInstanceAs (Decidable (_ ∧ _))

/-- `LEAST(60, POWER(2, LEAST(attempts, 6)))` seconds. -/
def retryDelay (attempts : ℕ) : Time := min 60 (2 ^ min attempts 6) * oneSecond

/-- `fail`.
SOURCE: actor.py:256-307 -/
def fail (now : Time) (owner : WorkerId) (event : GridActorEvent) (error : String)
    (maxAttempts : ℕ) : GridActorStore :=
  let terminal := decide (max 1 maxAttempts ≤ event.attempts)
  store.updateWhere (Reached owner event) fun row =>
    { row with
      status := if terminal then .dead else .failed
      availableAt := if terminal then row.availableAt else now + retryDelay row.attempts
      leaseExpiresAt := none
      errorMessage := truncate 2000 error
      completedAt := if terminal then some now else none }

/-- `checkpoint`.
SOURCE: actor.py:335-396 -/
def checkpoint (now : Time) (strategyRunId : ℕ) (stateJson status : String)
    (lastExecutionEventId : ℕ) : GridActorStore × Bool :=
  let saved := store.leases.checkpoint now strategyRunId stateJson status lastExecutionEventId
  ({ store with leases := saved.1 }, saved.2)

end GridActorStore

/-! ## Draining -/

/-- What a drain meets in one of its steps: NOW(), the fault of its call, the runner and the event
it finds, how `_process_grid` ends, and the state that the runner saves. -/
structure DrainTurn where
  now : Time
  fault : Fault := .fine
  runnerReady : Bool := true
  eventFound : Bool := true
  runnerMatches : Bool := true
  processed : Except String Unit := .ok ()
  strategyRunId : ℕ := 1
  stateJson : String := "{}"

/-- What `process_grid_actor_event` raises before its transaction.
SOURCE: actor.py:450-452, processor.py:117-121 -/
def DrainTurn.refusal (turn : DrainTurn) : Option String :=
  if turn.runnerReady = false then some "gridActor.ownerRuntimeNotReady"
  else if turn.eventFound = false then some "gridActor.executionEventMissing"
  else if turn.runnerMatches = false then some "gridActor.ownerRuntimeMismatch"
  else none

/-- The projection transaction: it commits what `_process_grid` did under the lock, or nothing.
SOURCE: processor.py:127-129 -/
def GridActorStore.project (store : GridActorStore) (turn : DrainTurn) (owner : WorkerId)
    (event : GridActorEvent) : GridActorStore × Except String Unit :=
  match store.lockOwnership turn.now owner event with
  | .error error => (store, .error error)
  | .ok () =>
    match turn.processed with
    | .error error => (store, .error error)
    | .ok () =>
      turn.fault.call store
        ({ store with projections := ⟨owner, event, turn.now⟩ :: store.projections }, ())

/-- One call of `drain_owned` on an event; a runner without a run takes no checkpoint, and one that
raises goes on.
SOURCE: actor.py:448-474, processor.py:110-135, runner.py:314-346 -/
def GridActorStore.drain (store : GridActorStore) (item : DrainedEvent) (turn : DrainTurn) :
    GridActorStore × DrainStage :=
  match item.stage with
  | .projecting =>
    match turn.refusal with
    | some error => (store, .failing error)
    | none =>
      match store.project turn item.owner item.event with
      | (after, .ok ()) => (after, .checkpointing)
      | (after, .error error) => (after, .failing error)
  | .checkpointing =>
    if turn.strategyRunId = 0 then (store, .completing)
    else
      ((turn.fault.call store (store.checkpoint turn.now turn.strategyRunId turn.stateJson "running"
        item.event.executionEventId)).1, .completing)
  | .completing =>
    match turn.fault.call store (store.complete turn.now item.owner item.event) with
    | (after, .ok true) => (after, .done)
    | (after, .ok false) => (after, .failing "gridActor.leaseChangedBeforeCommit")
    | (after, .error error) => (after, .failing error)
  | .failing error =>
    ((turn.fault.call store
      (store.fail turn.now item.owner item.event error item.maxAttempts, ())).1, .done)
  | .done => (store, .done)

/-! ## Histories -/

/-- What can happen to the strategy: its lease changes hands, an event is routed to it, a worker
drains it, goes on with one of its events, or saves its state. -/
inductive GridActorMove
  | acquire (now : Time) (owner : WorkerId) (leaseSeconds : ℤ)
  | renew (now : Time) (owner : WorkerId) (leaseSeconds : ℤ)
  | release (now : Time) (owner : WorkerId)
  | revoke (now : Time)
  | cleanup (now : Time)
  | enqueue (now : Time) (executionEventId gridOrderId : ℕ)
  | claim (now : Time) (owner : WorkerId) (limit leaseSeconds : ℤ) (maxAttempts : ℕ)
      (locked : ℕ → Bool)
  | drain (index : ℕ) (turn : DrainTurn)
  | save (now : Time) (owner : WorkerId) (strategyRunId : ℕ) (stateJson status : String)
      (lastExecutionEventId : ℕ)

/-- One move. -/
def GridActorStore.step (store : GridActorStore) : GridActorMove → GridActorStore
  | .acquire now owner leaseSeconds =>
    { store with leases := (store.leases.acquireStrategyLease now owner leaseSeconds).1 }
  | .renew now owner leaseSeconds =>
    { store with leases := (store.leases.renewStrategyLease now owner leaseSeconds).1 }
  | .release now owner => { store with leases := store.leases.releaseStrategyLease now owner }
  | .revoke now => { store with leases := (store.leases.revokeStrategyLease now).1 }
  | .cleanup now => { store with leases := store.leases.cleanupRuntimeMetadata now }
  | .enqueue now executionEventId gridOrderId => store.enqueue now executionEventId gridOrderId
  | .claim now owner limit leaseSeconds maxAttempts locked =>
    store.claimForOwner now owner limit leaseSeconds maxAttempts locked
  | .drain index turn =>
    match store.drained[index]? with
    | none => store
    | some item =>
      let (after, stage) := store.drain item turn
      { after with drained := after.drained.set index { item with stage := stage } }
  | .save now _ strategyRunId stateJson status lastExecutionEventId =>
    (store.checkpoint now strategyRunId stateJson status lastExecutionEventId).1

end QuantDinger.Model.Live
