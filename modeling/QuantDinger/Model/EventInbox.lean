import Mathlib.Data.List.Dedup
import Mathlib.Data.List.Sort
import QuantDinger.Library.Faults
import QuantDinger.Model.RuntimeLease

/-!
# The inbox of the strategy evaluators

The rows of `qd_event_inbox` and `qd_strategy_shard_leases` with the statements that write them,
and `handle`, the consumer of strategy-evaluation batches, call by call. Any number of evaluators
work on the same tables, each on one event at a time. A call of the database may raise, with or
without its effect. Counters, `owned_shards` and the result columns that nothing reads are left
out.
-/

namespace QuantDinger.Model.Events

open QuantDinger.Library
open QuantDinger.Model.Live

/-! ## Events -/

/-- An `EventEnvelope`, as far as its consumers look at it. -/
structure EventEnvelope (Payload : Type) where
  eventId : String
  eventType : String
  partitionKey : String
  payload : Payload
  deriving DecidableEq

/-- What `int` makes of a value of a payload. -/
inductive RawInt
  | int (n : ℤ)
  | invalid (error : String)
  deriving DecidableEq

/-- `int(value)`. -/
def RawInt.toInt : RawInt → Except String ℤ
  | .int n => .ok n
  | .invalid error => .error error

/-- The payload of a batch; the ids are `none` when they are not a list. -/
structure BatchPayload where
  strategyShard : Option RawInt
  strategyIds : Option (List RawInt)
  sourceEventId : String := ""
  closedBarToken : ℤ := 0
  timeframe : String := ""
  batchIndex : ℕ := 0
  deriving DecidableEq

/-- An event with the payload of a batch. -/
abbrev BatchEvent : Type := EventEnvelope BatchPayload

/-- `StrategyEvaluationBatchV1.event_type`. -/
def evaluateEventType : String := "strategy.evaluate.v1"

/-- `sorted({int(item) for item in ids})`. -/
def sortedIds (ids : List ℤ) : List ℤ := ids.dedup.insertionSort (· ≤ ·)

theorem mem_sortedIds {ids : List ℤ} {id : ℤ} : id ∈ sortedIds ids ↔ id ∈ ids := by
  unfold sortedIds
  rw [List.mem_insertionSort, List.mem_dedup]

/-- `strategy_shard`.
SOURCE: strategy_event_subscriptions.py:13-20 -/
def strategyShard (shardCount : ℤ) (strategyId : ℤ) : ℤ := strategyId % max 1 shardCount

/-- The partition key of a shard. -/
def shardPartition (shard : ℤ) : String := "strategy-shard:" ++ toString shard

/-- `_validate`: the shard and the strategies of a batch.
SOURCE: evaluator.py:235-246 -/
def validate (shardCount : ℤ) (event : BatchEvent) : Except String (ℤ × List ℤ) := do
  let shard ← (event.payload.strategyShard.getD (.int (-1))).toInt
  let raw := event.payload.strategyIds.getD []
  if shard < 0 ∨ raw = [] then
    throw ("strategyEvaluator.invalidBatch:" ++ event.eventId)
  let ids ← raw.mapM RawInt.toInt
  let strategyIds := sortedIds ids
  if event.partitionKey ≠ shardPartition shard then
    throw ("strategyEvaluator.invalidPartition:" ++ event.eventId)
  if strategyIds.any fun id => strategyShard shardCount id ≠ shard then
    throw ("strategyEvaluator.invalidShard:" ++ event.eventId)
  return (shard, strategyIds)

/-! ## Rows -/

/-- `status` of a row of `qd_event_inbox`. -/
inductive InboxStatus
  | processing
  | completed
  | failed
  | dead
  deriving DecidableEq

/-- A batch that is done with. -/
def InboxStatus.finished : InboxStatus → Bool
  | .completed | .dead => true
  | .processing | .failed => false

/-- A row of `qd_event_inbox`. -/
structure InboxRow where
  status : InboxStatus
  attempts : ℕ
  claimedBy : String
  leaseExpiresAt : Option Time
  errorMessage : String := ""
  completedAt : Option Time := none
  deriving DecidableEq

/-- The primary key of `qd_event_inbox`. -/
structure InboxKey where
  consumerGroup : String
  eventId : String
  deriving DecidableEq

/-- A row of `qd_strategy_shard_leases`. -/
structure ShardLease where
  ownerId : String
  fencingToken : ℕ
  leaseExpiresAt : Time
  deriving DecidableEq

/-- The tables; `claims` and `refusals` remember the claims that were made, and those that were
handed back because another evaluator held the shard. -/
structure EventStore where
  inbox : InboxKey → Option InboxRow := fun _ => none
  shards : ℤ → Option ShardLease := fun _ => none
  claims : List InboxKey := []
  refusals : List InboxKey := []

/-- `InboxClaim`. -/
inductive InboxClaim
  | acquired (attempts : ℕ)
  | completed
  | dead
  | busy
  deriving DecidableEq

namespace EventStore

variable (store : EventStore)

/-- A row of the inbox is written. -/
def setRow (key : InboxKey) (row : InboxRow) : EventStore :=
  { store with inbox := Function.update store.inbox key (some row) }

/-- The condition under which a claim takes a row.
SOURCE: event_inbox.py:48-53 -/
def Claimable (now : Time) (owner : String) (row : InboxRow) : Prop :=
  (row.status = .processing ∨ row.status = .failed) ∧
    (row.claimedBy = owner ∨ ∀ expires ∈ row.leaseExpiresAt, expires < now)

instance (now : Time) (owner : String) (row : InboxRow) : Decidable (Claimable now owner row) :=
  inferInstanceAs (Decidable (_ ∧ _))

/-- `EventInboxRepository.claim`.
SOURCE: event_inbox.py:23-87 -/
def claim (now : Time) (key : InboxKey) (owner : String) (leaseSeconds : ℤ) :
    EventStore × InboxClaim :=
  let expires := now + max 1 leaseSeconds * oneSecond
  let taken (row : InboxRow) : EventStore :=
    { store.setRow key row with claims := key :: store.claims }
  match store.inbox key with
  | none => (taken ⟨.processing, 1, owner, some expires, "", none⟩, .acquired 1)
  | some row =>
    if Claimable now owner row then
      (taken { row with
        status := .processing
        attempts := row.attempts + 1
        claimedBy := owner
        leaseExpiresAt := some expires
        errorMessage := "" }, .acquired (row.attempts + 1))
    else
      (store, match row.status with
        | .completed => .completed
        | .dead => .dead
        | _ => .busy)

/-- The row that the owner is working on. -/
def claimedRow (key : InboxKey) (owner : String) : Option InboxRow :=
  (store.inbox key).filter fun row => row.status = .processing ∧ row.claimedBy = owner

/-- `EventInboxRepository.complete`.
SOURCE: event_inbox.py:89-125 -/
def complete (now : Time) (key : InboxKey) (owner : String) : EventStore × Bool :=
  match store.claimedRow key owner with
  | none => (store, false)
  | some row =>
    (store.setRow key { row with
      status := .completed
      leaseExpiresAt := none
      completedAt := some now }, true)

/-- `EventInboxRepository.fail`.
SOURCE: event_inbox.py:127-162 -/
def fail (now : Time) (key : InboxKey) (owner error : String) (terminal : Bool) :
    EventStore × Bool :=
  match store.claimedRow key owner with
  | none => (store, false)
  | some row =>
    (store.setRow key { row with
      status := if terminal then .dead else .failed
      errorMessage := truncate 4000 error
      leaseExpiresAt := none
      completedAt := if terminal then some now else none }, true)

/-- `StrategyShardLeaseRepository.acquire`.
SOURCE: event_inbox.py:166-207 -/
def acquireShard (now : Time) (shard : ℤ) (owner : String) (leaseSeconds : ℤ) :
    EventStore × Option ℕ :=
  let granted (token : ℕ) : EventStore × Option ℕ :=
    ({ store with shards := Function.update store.shards shard (some
        ⟨owner, token, now + max 1 leaseSeconds * oneSecond⟩) }, some token)
  match store.shards shard with
  | none => granted 1
  | some lease =>
    if lease.ownerId = owner then granted lease.fencingToken
    else if lease.leaseExpiresAt < now then granted (lease.fencingToken + 1)
    else (store, none)

/-- `StrategyShardLeaseRepository.release`.
SOURCE: event_inbox.py:209-245 -/
def releaseShard (now : Time) (shard : ℤ) (owner : String) (token : ℕ) : EventStore :=
  match store.shards shard with
  | none => store
  | some lease =>
    if lease.ownerId = owner ∧ lease.fencingToken = token then
      { store with shards := Function.update store.shards shard (some
          ⟨"", lease.fencingToken, now - oneSecond⟩) }
    else store

/-- `StrategyShardLeaseRepository.release_all`.
SOURCE: event_inbox.py:247-271 -/
def releaseAll (now : Time) (owner : String) : EventStore :=
  { store with shards := fun shard => (store.shards shard).map fun lease =>
      if lease.ownerId = owner then ⟨"", lease.fencingToken, now - oneSecond⟩ else lease }

end EventStore

/-! ## Handling a batch -/

/-- `mode` of an evaluator. -/
inductive EvaluatorMode
  | shadow
  | active
  deriving DecidableEq

/-- What an evaluator is configured with.
SOURCE: evaluator.py:29-62 -/
structure EvaluatorConfig where
  consumerGroup : String
  leaseSeconds : ℤ
  maxAttempts : ℕ
  mode : EvaluatorMode
  shardCount : ℤ
  leaseSeconds_le : 10 ≤ leaseSeconds
  maxAttempts_pos : 1 ≤ maxAttempts

/-- The row of an event. -/
def EvaluatorConfig.key (config : EvaluatorConfig) (event : BatchEvent) : InboxKey :=
  ⟨config.consumerGroup, event.eventId⟩

/-- A shard lease that is held. -/
structure ShardHold where
  shard : ℤ
  token : ℕ
  deriving DecidableEq

/-- Where `handle` is: the call it makes next, with what it knows by then. `attempts` is the number
of its claim. -/
inductive Stage
  | claiming
  | acquiring (attempts : ℕ) (shard : ℤ) (ids : List ℤ)
  | handingBack (attempts : ℕ)
  | listing (attempts : ℕ) (lease : ShardHold) (ids : List ℤ)
  | evaluating (attempts : ℕ) (lease : ShardHold) (running : List ℤ)
  | completing (attempts : ℕ) (lease : ShardHold)
  | failing (attempts : ℕ) (lease : Option ShardHold) (error : String)
  | releasing (lease : ShardHold) (answer : Except String Bool)

/-- `handle` goes on, or returns or raises. -/
inductive Progress
  | next (stage : Stage)
  | returned (answer : Except String Bool)

/-- What an evaluator meets in one of its steps: NOW(), the fault of its call, which strategies are
running and how their evaluations end. -/
structure Turn where
  now : Time
  fault : Fault := .fine
  isRunning : ℤ → Bool := fun _ => true
  evaluate : ℤ → Except String Bool := fun _ => .ok true

/-- `finally`: the lease is released before `handle` ends.
SOURCE: evaluator.py:172-188 -/
def ending (lease : Option ShardHold) (answer : Except String Bool) : Progress :=
  match lease with
  | none => .returned answer
  | some lease => .next (.releasing lease answer)

/-- `all(results)`, once every evaluation has ended.
SOURCE: evaluator.py:123-137 -/
def evaluateAll (evaluate : ℤ → Except String Bool) (running : List ℤ) : Except String Unit := do
  let results ← running.mapM evaluate
  if results.all id = true then return ()
  else throw "strategyEvaluator.runtimeEvaluationFailed"

/-- One call of `handle`.
SOURCE: evaluator.py:85-188 -/
def advance (config : EvaluatorConfig) (owner : String) (store : EventStore) (event : BatchEvent)
    (turn : Turn) : Stage → EventStore × Progress
  | .claiming =>
    if event.eventType ≠ evaluateEventType then (store, .returned (.ok true))
    else
      match turn.fault.call store
          (store.claim turn.now (config.key event) owner config.leaseSeconds) with
      | (after, .error error) => (after, .returned (.error error))
      | (after, .ok .completed) => (after, .returned (.ok true))
      | (after, .ok .dead) => (after, .returned (.ok true))
      | (after, .ok .busy) => (after, .returned (.ok false))
      | (after, .ok (.acquired attempts)) =>
        match validate config.shardCount event with
        | .error error => (after, .next (.failing attempts none error))
        | .ok (shard, ids) => (after, .next (.acquiring attempts shard ids))
  | .acquiring attempts shard ids =>
    match turn.fault.call store
        (store.acquireShard turn.now shard owner config.leaseSeconds) with
    | (after, .error error) => (after, .next (.failing attempts none error))
    | (after, .ok none) =>
      ({ after with refusals := config.key event :: after.refusals },
        .next (.handingBack attempts))
    | (after, .ok (some token)) => (after, .next (.listing attempts ⟨shard, token⟩ ids))
  | .handingBack attempts =>
    match turn.fault.call store (store.fail turn.now (config.key event) owner
        "strategyEvaluator.shardLeaseBusy" false) with
    | (after, .error error) => (after, .next (.failing attempts none error))
    | (after, .ok _) => (after, .returned (.ok false))
  | .listing attempts lease ids =>
    match turn.fault.call store (store, ids.filter turn.isRunning) with
    | (after, .error error) => (after, .next (.failing attempts (some lease) error))
    | (after, .ok running) =>
      if config.mode = .active ∧ running ≠ [] then
        (after, .next (.evaluating attempts lease running))
      else (after, .next (.completing attempts lease))
  | .evaluating attempts lease running =>
    match evaluateAll turn.evaluate running with
    | .error error => (store, .next (.failing attempts (some lease) error))
    | .ok () => (store, .next (.completing attempts lease))
  | .completing attempts lease =>
    match turn.fault.call store (store.complete turn.now (config.key event) owner) with
    | (after, .error error) => (after, .next (.failing attempts (some lease) error))
    | (after, .ok completed) => (after, ending (some lease) (.ok completed))
  | .failing attempts lease error =>
    let terminal := decide (config.maxAttempts ≤ attempts)
    match turn.fault.call store
        (store.fail turn.now (config.key event) owner error terminal) with
    | (after, .error raised) => (after, ending lease (.error raised))
    | (after, .ok _) => (after, ending lease (.ok terminal))
  | .releasing lease answer =>
    ((turn.fault.call store
      (store.releaseShard turn.now lease.shard owner lease.token, ())).1, .returned answer)

/-! ## Any number of evaluators -/

/-- What an evaluator is working on. -/
structure Handling where
  event : BatchEvent
  stage : Stage

/-- The evaluators by their owner ids, and the tables; `acknowledged` remembers the events for
which `handle` has returned True, and to whom. -/
structure EvaluatorPool where
  store : EventStore := {}
  working : String → Option Handling := fun _ => none
  acknowledged : List (String × BatchEvent) := []

/-- What can happen to the evaluators. -/
inductive PoolMove
  | receive (owner : String) (event : BatchEvent)
  | advance (owner : String) (turn : Turn)
  | crash (owner : String)
  | close (owner : String) (now : Time)

/-- One step of the pool. An evaluator that is at work takes no second event. -/
def EvaluatorPool.step (config : String → EvaluatorConfig) (pool : EvaluatorPool) :
    PoolMove → EvaluatorPool
  | .receive owner event =>
    match pool.working owner with
    | some _ => pool
    | none => { pool with working := Function.update pool.working owner (some ⟨event, .claiming⟩) }
  | .advance owner turn =>
    match pool.working owner with
    | none => pool
    | some handling =>
      match advance (config owner) owner pool.store handling.event turn handling.stage with
      | (store, .next stage) =>
        { pool with
          store := store
          working := Function.update pool.working owner (some ⟨handling.event, stage⟩) }
      | (store, .returned answer) =>
        { pool with
          store := store
          working := Function.update pool.working owner none
          acknowledged :=
            if answer.toOption = some true then (owner, handling.event) :: pool.acknowledged
            else pool.acknowledged }
  | .crash owner => { pool with working := Function.update pool.working owner none }
  | .close owner now => { pool with store := pool.store.releaseAll now owner }

end QuantDinger.Model.Events
