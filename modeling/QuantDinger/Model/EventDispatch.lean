import QuantDinger.Model.BarEvents

/-!
# Dispatch of closed bars to the evaluators

The subscriptions of `strategy_event_subscriptions.py`, `StrategyDueDispatcher.dispatch` with the
batches it creates, and the system they form with the evaluators: strategies subscribe and
unsubscribe, start and stop while one bar event is dispatched any number of times, any of the
batches of a dispatch are published, and evaluators handle the published batches in any order.
Counters are left out.
-/

namespace QuantDinger.Model.Events

open QuantDinger.Library

/-! ## Subscriptions -/

/-- A row of `qd_strategy_event_subscriptions`. -/
structure Subscription where
  strategyId : ℤ
  eventType : String
  partitionKey : String
  timeframe : String
  strategyShard : ℤ
  deriving DecidableEq

/-- The subscriptions, and the strategies whose status is running. -/
structure SubscriptionStore where
  subscriptions : List Subscription := []
  running : ℤ → Bool := fun _ => false

namespace SubscriptionStore

variable (store : SubscriptionStore)

/-- `strategy_ids_for_event`.
SOURCE: strategy_event_subscriptions.py:107-127 -/
def strategyIdsForEvent (eventType partitionKey : String) : List ℤ :=
  let rows := store.subscriptions.filter fun row =>
    row.eventType = eventType ∧ row.partitionKey = partitionKey ∧
      store.running row.strategyId = true
  let ordered := rows.insertionSort fun row other =>
    row.strategyShard < other.strategyShard ∨
      row.strategyShard = other.strategyShard ∧ row.strategyId ≤ other.strategyId
  ordered.map Subscription.strategyId

/-- `INSERT … ON CONFLICT (strategy_id, event_type, partition_key) DO UPDATE`. -/
def upsert (rows : List Subscription) (row : Subscription) : List Subscription :=
  let same (other : Subscription) : Bool :=
    other.strategyId = row.strategyId ∧ other.eventType = row.eventType ∧
      other.partitionKey = row.partitionKey
  if rows.any same then rows.map fun other => if same other = true then row else other
  else rows ++ [row]

/-- `replace_bar_streams`; a stream is its partition key and its timeframe.
SOURCE: strategy_event_subscriptions.py:51-92 -/
def replaceBarStreams (shardCount strategyId : ℤ) (streams : List (String × String)) :
    SubscriptionStore :=
  let rows := streams.dedup.insertionSort fun row other =>
    row.1 < other.1 ∨ row.1 = other.1 ∧ row.2 ≤ other.2
  let kept := store.subscriptions.filter fun row => row.strategyId ≠ strategyId
  { store with
    subscriptions := rows.foldl (fun written row => upsert written
      ⟨strategyId, barClosedEventType, row.1, row.2, strategyShard shardCount strategyId⟩) kept }

/-- `remove_strategy`.
SOURCE: strategy_event_subscriptions.py:94-105 -/
def removeStrategy (strategyId : ℤ) : SubscriptionStore :=
  { store with subscriptions := store.subscriptions.filter fun row => row.strategyId ≠ strategyId }

/-- A strategy is started or stopped. -/
def setRunning (strategyId : ℤ) (running : Bool) : SubscriptionStore :=
  { store with running := Function.update store.running strategyId running }

end SubscriptionStore

/-! ## Dispatch -/

/-- What the dispatcher is configured with.
SOURCE: dispatcher.py:18-36 -/
structure DispatcherConfig where
  shardCount : ℤ
  batchSize : ℕ
  batchSize_pos : 1 ≤ batchSize
  batchSize_le : batchSize ≤ 2000

/-- `StrategyEvaluationBatchV1.create`.
SOURCE: protocol.py:200-236 -/
def evaluationBatch (uuid5 : String → String) (shard : ℤ) (strategyIds : List ℤ)
    (sourceEventId : String) (closedBarToken : ℤ) (timeframe : String) (batchIndex : ℕ) :
    Except String BatchEvent := do
  let sourceId ← required sourceEventId "source_event_id"
  let normalizedIds := sortedIds strategyIds
  if normalizedIds = [] then throw "eventProtocol.emptyStrategyBatch"
  let identity := sourceId ++ ":" ++ toString shard ++ ":" ++ toString batchIndex
  return {
    eventId := uuid5 identity
    eventType := evaluateEventType
    partitionKey := shardPartition shard
    payload := {
      strategyShard := some (.int shard)
      strategyIds := some (normalizedIds.map .int)
      sourceEventId := sourceId
      closedBarToken := closedBarToken
      timeframe := ← required timeframe "timeframe"
      batchIndex := batchIndex } }

/-- `grouped`: the strategies by their shards, in the order the shards are met.
SOURCE: dispatcher.py:45-47 -/
def groupByShard (shardCount : ℤ) (strategyIds : List ℤ) : List (ℤ × List ℤ) :=
  (strategyIds.map (strategyShard shardCount)).eraseDups.map fun shard =>
    (shard, strategyIds.filter fun id => strategyShard shardCount id = shard)

/-- The chunk of a shard that starts at `index * batch_size`. -/
def chunkOf (batchSize index : ℕ) (shardIds : List ℤ) : List ℤ :=
  (shardIds.drop (index * batchSize)).take batchSize

/-- The batches of one shard: one for each `start` of `range(0, len(shard_ids), batch_size)`.
SOURCE: dispatcher.py:51-60 -/
def shardBatches (dispatcher : DispatcherConfig) (uuid5 : String → String) (event : BarEvent)
    (shard : ℤ) (shardIds : List ℤ) : Except String (List BatchEvent) :=
  let chunks := (shardIds.length + dispatcher.batchSize - 1) / dispatcher.batchSize
  (List.range chunks).mapM fun index =>
    evaluationBatch uuid5 shard (chunkOf dispatcher.batchSize index shardIds) event.eventId
      event.payload.closedBarToken event.payload.timeframe index

/-- The batches that `dispatch` hands to `publish_batch`.
SOURCE: dispatcher.py:37-60 -/
def dispatchBatches (dispatcher : DispatcherConfig) (uuid5 : String → String)
    (store : SubscriptionStore) (event : BarEvent) : Except String (List BatchEvent) :=
  if event.eventType ≠ barClosedEventType then .ok []
  else do
    let strategyIds := store.strategyIdsForEvent event.eventType event.partitionKey
    let batches ← (groupByShard dispatcher.shardCount strategyIds).mapM fun group =>
      shardBatches dispatcher uuid5 event group.1 group.2
    return batches.flatten

/-! ## Deliveries of one event -/

/-- The subscriptions and the evaluators. `dispatches` remembers the batches of every dispatch of
the event, the last one first, and `published` those that were published; `evaluated` remembers
the strategies that were passed to `runtime_host.evaluate`, with their batches. -/
structure DispatchSystem where
  tables : SubscriptionStore := {}
  pool : EvaluatorPool := {}
  dispatches : List (List BatchEvent) := []
  published : List BatchEvent := []
  evaluated : List (ℤ × BatchEvent) := []

/-- What can happen. -/
inductive DispatchMove
  | replaceStreams (strategyId : ℤ) (streams : List (String × String))
  | removeStrategy (strategyId : ℤ)
  | setRunning (strategyId : ℤ) (running : Bool)
  | dispatch
  | publish (dispatch index : ℕ)
  | deliver (owner : String) (index : ℕ)
  | advance (owner : String) (now : Time) (fault : Fault)
  | crash (owner : String)
  | close (owner : String) (now : Time)

/-- The evaluations that the next call of an evaluator submits. -/
def EvaluatorPool.submitted (pool : EvaluatorPool) (owner : String) : List (ℤ × BatchEvent) :=
  match pool.working owner with
  | some ⟨event, .evaluating _ _ running⟩ => running.map fun strategyId => (strategyId, event)
  | _ => []

/-- One step while `event` is delivered. Every evaluation succeeds; a dispatch that raises
publishes nothing. -/
def DispatchSystem.step (config : String → EvaluatorConfig) (dispatcher : DispatcherConfig)
    (uuid5 : String → String) (event : BarEvent) (system : DispatchSystem) :
    DispatchMove → DispatchSystem
  | .replaceStreams strategyId streams =>
    { system with
      tables := system.tables.replaceBarStreams dispatcher.shardCount strategyId streams }
  | .removeStrategy strategyId => { system with tables := system.tables.removeStrategy strategyId }
  | .setRunning strategyId running =>
    { system with tables := system.tables.setRunning strategyId running }
  | .dispatch =>
    match dispatchBatches dispatcher uuid5 system.tables event with
    | .error _ => system
    | .ok batches => { system with dispatches := batches :: system.dispatches }
  | .publish dispatch index =>
    match system.dispatches[dispatch]?.bind fun batches => batches[index]? with
    | none => system
    | some batch => { system with published := batch :: system.published }
  | .deliver owner index =>
    match system.published[index]? with
    | none => system
    | some batch => { system with pool := system.pool.step config (.receive owner batch) }
  | .advance owner now fault =>
    { system with
      pool := system.pool.step config (.advance owner
        ⟨now, fault, system.tables.running, fun _ => .ok true⟩)
      evaluated := system.pool.submitted owner ++ system.evaluated }
  | .crash owner => { system with pool := system.pool.step config (.crash owner) }
  | .close owner now => { system with pool := system.pool.step config (.close owner now) }

end QuantDinger.Model.Events
