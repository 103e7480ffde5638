import QuantDinger.Analysis.BatchInbox
import QuantDinger.Library.Outcomes
import QuantDinger.Model.EventDispatch

/-!
# Redelivered bars

A completed batch has passed every strategy it names that is still running to `evaluate`. The inbox
knows batches by their ids, and an id is made of the event, the shard and the index of the chunk:
so after a second delivery a strategy is evaluated if the batch that was completed under the id of
its chunk names it too. That is the case unless strategies with smaller ids started or stopped
between two deliveries and moved it into another chunk.
-/

namespace QuantDinger.Analysis

open QuantDinger.Library
open QuantDinger.Model
open QuantDinger.Model.Events

def memberIds (batch : BatchEvent) : List ℤ :=
  (batch.payload.strategyIds.getD []).filterMap fun raw => raw.toInt.toOption

/-- The strategy is subscribed to the event and running. -/
def Subscribed (event : BarEvent) (strategyId : ℤ) (system : DispatchSystem)
    (_ : DispatchMove) : Prop :=
  (∃ row ∈ system.tables.subscriptions, row.strategyId = strategyId ∧
    row.eventType = event.eventType ∧ row.partitionKey = event.partitionKey) ∧
    system.tables.running strategyId = true

instance (event : BarEvent) (strategyId : ℤ) (system : DispatchSystem) (move : DispatchMove) :
    Decidable (Subscribed event strategyId system move) :=
  inferInstanceAs (Decidable (_ ∧ _))

/-- The evaluator does not give its batch up: the failure it reports is not its last attempt. -/
def RetriesLeft (config : String → EvaluatorConfig) (system : DispatchSystem) :
    DispatchMove → Prop
  | .advance owner _ _ =>
    match system.pool.working owner with
    | some ⟨_, .failing attempts _ _⟩ => attempts < (config owner).maxAttempts
    | _ => True
  | _ => True

instance (config : String → EvaluatorConfig) (system : DispatchSystem) (move : DispatchMove) :
    Decidable (RetriesLeft config system move) := by
  unfold RetriesLeft
  split
  · split <;> infer_instance
  · infer_instance

/-- Every batch that was published under the id of the strategy's chunk of the last dispatch names
the strategy. -/
def Retained (strategyId : ℤ) (system : DispatchSystem) : Prop :=
  ∀ last ∈ system.dispatches.head?, ∀ batch ∈ last, strategyId ∈ memberIds batch →
    ∀ other ∈ system.published, other.eventId = batch.eventId → strategyId ∈ memberIds other

instance (strategyId : ℤ) (system : DispatchSystem) : Decidable (Retained strategyId system) :=
  inferInstanceAs (Decidable (∀ last ∈ system.dispatches.head?, _))

/-- The strategy was passed to `evaluate` for the event. -/
def EvaluatedFor (event : BarEvent) (strategyId : ℤ) (system : DispatchSystem) : Prop :=
  ∃ batch, (strategyId, batch) ∈ system.evaluated ∧
    batch.payload.sourceEventId = strip event.eventId

/-! ## The batches of a dispatch -/

theorem required_ok {value field normalized : String} (h : required value field = .ok normalized) :
    normalized = strip value := by
  unfold required at h
  dsimp only at h
  split_ifs at h
  cases h
  rfl

theorem evaluationBatch_ok {uuid5 : String → String} {shard : ℤ} {ids : List ℤ}
    {sourceEventId timeframe : String} {token : ℤ} {index : ℕ} {batch : BatchEvent}
    (h : evaluationBatch uuid5 shard ids sourceEventId token timeframe index = .ok batch) :
    sortedIds ids ≠ [] ∧ batch.eventType = evaluateEventType ∧
      batch.partitionKey = shardPartition shard ∧
      batch.payload.strategyShard = some (.int shard) ∧
      batch.payload.strategyIds = some ((sortedIds ids).map .int) ∧
      batch.payload.sourceEventId = strip sourceEventId := by
  unfold evaluationBatch at h
  obtain ⟨source, hsource, h⟩ := bind_ok_iff.mp h
  by_cases hempty : sortedIds ids = []
  · rw [if_pos hempty] at h
    exact nomatch h
  · rw [if_neg hempty] at h
    obtain ⟨normalized, -, h⟩ := bind_ok_iff.mp h
    cases h
    exact ⟨hempty, rfl, rfl, rfl, rfl, required_ok hsource⟩

/-- A batch of the event that evaluators accept. -/
structure Dispatched (shardCount : ℤ) (event : BarEvent) (batch : BatchEvent) : Prop where
  eventType : batch.eventType = evaluateEventType
  source : batch.payload.sourceEventId = strip event.eventId
  valid : ∃ accepted, validate shardCount batch = .ok accepted

theorem validate_ok_iff {batch : BatchEvent} {shardCount shard : ℤ} {ids : List ℤ} :
    validate shardCount batch = .ok (shard, ids) ↔
      (batch.payload.strategyShard.getD (.int (-1))).toInt = .ok shard ∧
        ¬(shard < 0 ∨ batch.payload.strategyIds.getD [] = []) ∧
        ∃ raw, (batch.payload.strategyIds.getD []).mapM RawInt.toInt = .ok raw ∧
          batch.partitionKey = shardPartition shard ∧
          (sortedIds raw).any (fun id => strategyShard shardCount id ≠ shard) = false ∧
          ids = sortedIds raw := by
  unfold validate
  rw [bind_ok_iff]
  constructor
  · rintro ⟨found, hshard, h⟩
    dsimp only at h
    by_cases hempty : found < 0 ∨ batch.payload.strategyIds.getD [] = []
    · rw [if_pos hempty] at h
      exact nomatch h
    rw [if_neg hempty] at h
    obtain ⟨raw, hraw, h⟩ := bind_ok_iff.mp h
    by_cases hkey : batch.partitionKey = shardPartition found
    · rw [if_neg (not_not.mpr hkey)] at h
      cases hany : (sortedIds raw).any fun id => strategyShard shardCount id ≠ found with
      | true =>
        rw [if_pos hany] at h
        exact nomatch h
      | false =>
        rw [if_neg (by rw [hany]; exact Bool.false_ne_true)] at h
        cases h
        exact ⟨hshard, hempty, raw, hraw, hkey, hany, rfl⟩
    · rw [if_pos hkey] at h
      exact nomatch h
  · rintro ⟨hshard, hempty, raw, hraw, hkey, hany, rfl⟩
    refine ⟨shard, hshard, ?_⟩
    dsimp only
    rw [if_neg hempty, bind_ok_iff]
    refine ⟨raw, hraw, ?_⟩
    rw [if_neg (not_not.mpr hkey), if_neg (by rw [hany]; exact Bool.false_ne_true)]
    rfl

theorem evaluationBatch_sound {uuid5 : String → String} {event : BarEvent} {shardCount shard : ℤ}
    {ids : List ℤ} {timeframe : String} {token : ℤ} {index : ℕ} {batch : BatchEvent}
    (hshard : ∀ id ∈ ids, strategyShard shardCount id = shard)
    (h : evaluationBatch uuid5 shard ids event.eventId token timeframe index = .ok batch) :
    Dispatched shardCount event batch ∧ ∀ id, id ∈ memberIds batch ↔ id ∈ ids := by
  obtain ⟨hsome, htype, hpartition, hshardOf, hids, hsource⟩ := evaluationBatch_ok h
  have hnames : (((sortedIds ids).map RawInt.int).filterMap fun raw => raw.toInt.toOption) =
      sortedIds ids := by
    rw [List.filterMap_map]
    exact List.filterMap_some
  refine ⟨⟨htype, hsource, (shard, sortedIds (sortedIds ids)), validate_ok_iff.mpr ?_⟩, ?_⟩
  · obtain ⟨id, hid⟩ := List.exists_mem_of_ne_nil _ hsome
    have hnonneg : 0 ≤ shard := by
      rw [← hshard id (mem_sortedIds.mp hid)]
      exact Int.emod_nonneg id (by omega)
    rw [hshardOf, hids, Option.getD_some, Option.getD_some]
    refine ⟨rfl, ?_, sortedIds ids, ?_, hpartition, ?_, rfl⟩
    · rw [not_or, List.map_eq_nil_iff]
      exact ⟨not_lt.mpr hnonneg, hsome⟩
    · rw [List.mapM_map]
      exact List.mapM_pure.trans (congrArg _ (List.map_id' _))
    · rw [List.any_eq_false]
      intro id hid
      simpa using hshard id (mem_sortedIds.mp (mem_sortedIds.mp hid))
  · intro id
    unfold memberIds
    rw [hids, Option.getD_some, hnames, mem_sortedIds]

theorem mem_chunkOf {batchSize : ℕ} (hsize : 1 ≤ batchSize) {shardIds : List ℤ} {id : ℤ}
    (h : id ∈ shardIds) :
    ∃ index < (shardIds.length + batchSize - 1) / batchSize,
      id ∈ chunkOf batchSize index shardIds := by
  obtain ⟨i, hi⟩ := List.mem_iff_getElem?.mp h
  have hlength : i < shardIds.length := (List.getElem?_eq_some_iff.mp hi).1
  refine ⟨i / batchSize, ?_, ?_⟩
  · rw [Nat.div_lt_iff_lt_mul hsize]
    have hdiv := Nat.div_add_mod (shardIds.length + batchSize - 1) batchSize
    have hmod := Nat.mod_lt (shardIds.length + batchSize - 1) hsize
    rw [Nat.mul_comm] at hdiv
    omega
  · refine List.mem_iff_getElem?.mpr ⟨i % batchSize, ?_⟩
    unfold chunkOf
    rw [List.getElem?_take_of_lt (Nat.mod_lt i hsize), List.getElem?_drop, Nat.div_add_mod']
    exact hi

theorem dispatchBatches_sound {dispatcher : DispatcherConfig} {uuid5 : String → String}
    {store : SubscriptionStore} {event : BarEvent} {batches : List BatchEvent}
    (hbar : event.eventType = barClosedEventType)
    (h : dispatchBatches dispatcher uuid5 store event = .ok batches) :
    (∀ batch ∈ batches, Dispatched dispatcher.shardCount event batch) ∧
      ∀ id ∈ store.strategyIdsForEvent event.eventType event.partitionKey,
        ∃ batch ∈ batches, id ∈ memberIds batch := by
  unfold dispatchBatches at h
  rw [if_neg (not_not.mpr hbar)] at h
  generalize store.strategyIdsForEvent event.eventType event.partitionKey = ids at h ⊢
  obtain ⟨groups, hgroups, h⟩ := bind_ok_iff.mp h
  cases h
  -- a batch of a group is created from strategies of its shard
  have hbatch : ∀ {shard : ℤ} {index : ℕ} {batch : BatchEvent},
      evaluationBatch uuid5 shard (chunkOf dispatcher.batchSize index
          (ids.filter fun id => strategyShard dispatcher.shardCount id = shard)) event.eventId
        event.payload.closedBarToken event.payload.timeframe index = .ok batch →
      Dispatched dispatcher.shardCount event batch ∧
        ∀ id, id ∈ memberIds batch ↔ id ∈ chunkOf dispatcher.batchSize index
          (ids.filter fun id => strategyShard dispatcher.shardCount id = shard) := by
    intro shard index batch hcreated
    refine evaluationBatch_sound ?_ hcreated
    intro id hid
    exact of_decide_eq_true (List.mem_filter.mp (List.mem_of_mem_drop (List.mem_of_mem_take hid))).2
  constructor
  · intro batch hmem
    obtain ⟨group, hgroup, hmem⟩ := List.mem_flatten.mp hmem
    obtain ⟨⟨shard, shardIds⟩, hshard, hbatches⟩ := exists_of_mapM_ok hgroups hgroup
    obtain ⟨_, -, hshard⟩ := List.mem_map.mp hshard
    cases hshard
    obtain ⟨index, -, hcreated⟩ := exists_of_mapM_ok hbatches hmem
    exact (hbatch hcreated).1
  · intro id hid
    have hshard : (strategyShard dispatcher.shardCount id, ids.filter fun other =>
        strategyShard dispatcher.shardCount other = strategyShard dispatcher.shardCount id) ∈
          groupByShard dispatcher.shardCount ids :=
      List.mem_map.mpr ⟨_, List.mem_eraseDups.mpr (List.mem_map_of_mem hid), rfl⟩
    obtain ⟨group, hgroup, hbatches⟩ := answer_of_mapM_ok hgroups hshard
    have hself : id ∈ ids.filter fun other =>
        strategyShard dispatcher.shardCount other = strategyShard dispatcher.shardCount id :=
      List.mem_filter.mpr ⟨hid, decide_eq_true rfl⟩
    obtain ⟨index, hindex, hchunk⟩ := mem_chunkOf dispatcher.batchSize_pos hself
    obtain ⟨batch, hmem, hcreated⟩ := answer_of_mapM_ok hbatches (List.mem_range.mpr hindex)
    exact ⟨batch, List.mem_flatten.mpr ⟨group, hgroup, hmem⟩, ((hbatch hcreated).2 id).mpr hchunk⟩

theorem subscribed_listed {event : BarEvent} {strategyId : ℤ} {system : DispatchSystem}
    {move : DispatchMove} (h : Subscribed event strategyId system move) :
    strategyId ∈ system.tables.strategyIdsForEvent event.eventType event.partitionKey := by
  obtain ⟨⟨row, hrow, hid, htype, hkey⟩, hrunning⟩ := h
  refine List.mem_map.mpr ⟨row, ?_, hid⟩
  rw [List.mem_insertionSort]
  refine List.mem_filter.mpr ⟨hrow, decide_eq_true ⟨htype, hkey, ?_⟩⟩
  rw [hid]
  exact hrunning

/-! ## Where the batches come from -/

variable {config : String → EvaluatorConfig} {dispatcher : DispatcherConfig}
  {uuid5 : String → String} {event : BarEvent} {strategyId : ℤ}

/-- The batches that are made, published and handled are batches of the event. -/
structure Sourced (shardCount : ℤ) (event : BarEvent) (system : DispatchSystem) : Prop where
  dispatches : ∀ batches ∈ system.dispatches, ∀ batch ∈ batches, Dispatched shardCount event batch
  published : ∀ batch ∈ system.published, Dispatched shardCount event batch
  working : ∀ owner handling, system.pool.working owner = some handling →
    handling.event ∈ system.published

theorem advance_pool {pool : EvaluatorPool} {owner : String} {handling : Handling} {turn : Turn}
    {after : EventStore} {progress : Progress} (hworking : pool.working owner = some handling)
    (hadvance : advance (config owner) owner pool.store handling.event turn handling.stage =
      (after, progress)) :
    (pool.step config (.advance owner turn)).store = after ∧
      (∀ other handling', (pool.step config (.advance owner turn)).working other = some handling' →
        pool.working other = some handling' ∨
          ∃ stage, progress = .next stage ∧ other = owner ∧ handling' = ⟨handling.event, stage⟩) ∧
      ((pool.step config (.advance owner turn)).acknowledged = pool.acknowledged ∨
        (pool.step config (.advance owner turn)).acknowledged =
          (owner, handling.event) :: pool.acknowledged) := by
  have hothers : ∀ {value : Option Handling} {other : String} {handling' : Handling},
      Function.update pool.working owner value other = some handling' →
      pool.working other = some handling' ∨ (other = owner ∧ value = some handling') := by
    intro value other handling' hnext
    by_cases hsame : other = owner
    · subst hsame
      exact Or.inr ⟨rfl, (Function.update_self other _ _).symm.trans hnext⟩
    · exact Or.inl ((Function.update_of_ne hsame _ _).symm.trans hnext)
  cases progress with
  | next stage =>
    rw [step_next hworking hadvance]
    refine ⟨rfl, ?_, Or.inl rfl⟩
    intro other handling' hnext
    rcases hothers hnext with hbefore | ⟨hsame, hself⟩
    · exact Or.inl hbefore
    · exact Or.inr ⟨stage, rfl, hsame, (Option.some.inj hself).symm⟩
  | returned answer =>
    rw [step_returned hworking hadvance]
    refine ⟨rfl, ?_, ?_⟩
    · intro other handling' hnext
      rcases hothers hnext with hbefore | ⟨-, hself⟩
      · exact Or.inl hbefore
      · exact nomatch hself
    · by_cases htrue : answer.toOption = some true
      · exact Or.inr (if_pos htrue)
      · exact Or.inl (if_neg htrue)

theorem working_step {pool : EvaluatorPool} {move : PoolMove} {owner : String}
    {handling : Handling} (h : (pool.step config move).working owner = some handling) :
    pool.working owner = some handling ∨
      (∃ turn before after, move = .advance owner turn ∧ pool.working owner = some before ∧
        before.event = handling.event ∧
        advance (config owner) owner pool.store before.event turn before.stage =
          (after, .next handling.stage)) ∨
      (move = .receive owner handling.event ∧ handling.stage = .claiming) := by
  cases move with
  | receive other batch =>
    cases hworking : pool.working other with
    | some busy =>
      simp only [EvaluatorPool.step, hworking] at h
      exact Or.inl h
    | none =>
      simp only [EvaluatorPool.step, hworking] at h
      by_cases hsame : owner = other
      · subst hsame
        cases (Function.update_self owner _ _).symm.trans h
        exact Or.inr (Or.inr ⟨rfl, rfl⟩)
      · exact Or.inl ((Function.update_of_ne hsame _ _).symm.trans h)
  | advance other turn =>
    cases hworking : pool.working other with
    | none =>
      rw [step_idle hworking] at h
      exact Or.inl h
    | some busy =>
      cases hadvance : advance (config other) other pool.store busy.event turn busy.stage with
      | mk after progress =>
      obtain ⟨-, hhandlings, -⟩ := advance_pool hworking hadvance
      rcases hhandlings owner handling h with hbefore | ⟨stage, hprogress, rfl, rfl⟩
      · exact Or.inl hbefore
      · rw [hprogress] at hadvance
        exact Or.inr (Or.inl ⟨turn, busy, after, rfl, hworking, rfl, hadvance⟩)
  | crash other =>
    by_cases hsame : owner = other
    · subst hsame
      cases (Function.update_self owner _ _).symm.trans h
    · exact Or.inl ((Function.update_of_ne hsame _ _).symm.trans h)
  | close other now => exact Or.inl h

theorem Sourced.pool_step {shardCount : ℤ} {system : DispatchSystem}
    (h : Sourced shardCount event system) {move : PoolMove}
    (hgiven : ∀ owner batch, move = .receive owner batch → batch ∈ system.published)
    (evaluated : List (ℤ × BatchEvent)) :
    Sourced shardCount event
      { system with pool := system.pool.step config move, evaluated := evaluated } := by
  refine ⟨h.dispatches, h.published, ?_⟩
  intro owner handling hnext
  rcases working_step hnext with hbefore | ⟨_, before, _, _, hbefore, hevent, _⟩ | ⟨hmove, -⟩
  · exact h.working owner handling hbefore
  · rw [← hevent]
    exact h.working owner before hbefore
  · exact hgiven owner handling.event hmove

theorem sourced_step {system : DispatchSystem} {move : DispatchMove}
    (hbar : event.eventType = barClosedEventType)
    (h : Sourced dispatcher.shardCount event system) :
    Sourced dispatcher.shardCount event (system.step config dispatcher uuid5 event move) := by
  cases move with
  | replaceStreams other streams => exact ⟨h.dispatches, h.published, h.working⟩
  | removeStrategy other => exact ⟨h.dispatches, h.published, h.working⟩
  | setRunning other running => exact ⟨h.dispatches, h.published, h.working⟩
  | dispatch =>
    simp only [DispatchSystem.step]
    cases hdispatch : dispatchBatches dispatcher uuid5 system.tables event with
    | error error => exact h
    | ok batches =>
      refine ⟨?_, h.published, h.working⟩
      intro made hmade
      rcases List.mem_cons.mp hmade with rfl | hmade
      · exact (dispatchBatches_sound hbar hdispatch).1
      · exact h.dispatches made hmade
  | publish dispatch index =>
    simp only [DispatchSystem.step]
    cases hbatch : system.dispatches[dispatch]?.bind fun batches => batches[index]? with
    | none => exact h
    | some batch =>
      obtain ⟨batches, hbatches, hindex⟩ := Option.bind_eq_some_iff.mp hbatch
      refine ⟨h.dispatches, ?_, ?_⟩
      · intro other hother
        rcases List.mem_cons.mp hother with rfl | hother
        · exact h.dispatches batches (List.mem_of_getElem? hbatches) other
            (List.mem_of_getElem? hindex)
        · exact h.published other hother
      · intro owner handling hworking
        exact List.mem_cons_of_mem batch (h.working owner handling hworking)
  | deliver owner index =>
    simp only [DispatchSystem.step]
    cases hbatch : system.published[index]? with
    | none => exact h
    | some batch =>
      refine h.pool_step ?_ system.evaluated
      rintro _ _ hmove
      cases hmove
      exact List.mem_of_getElem? hbatch
  | advance owner now fault =>
    refine h.pool_step ?_ _
    rintro _ _ hmove
    exact nomatch hmove
  | crash owner =>
    refine h.pool_step ?_ system.evaluated
    rintro _ _ hmove
    exact nomatch hmove
  | close owner now =>
    refine h.pool_step ?_ system.evaluated
    rintro _ _ hmove
    exact nomatch hmove

theorem sourced_start (shardCount : ℤ) (event : BarEvent) (tables : SubscriptionStore) :
    Sourced shardCount event { tables := tables } where
  dispatches := fun _ hmem => nomatch hmem
  published := fun _ hmem => nomatch hmem
  working := fun _ _ hworking => nomatch hworking

/-! ## Runs without faults -/

def FaultFree (_ : DispatchSystem) : DispatchMove → Prop
  | .advance _ _ fault => fault = .fine
  | _ => True

instance (system : DispatchSystem) (move : DispatchMove) : Decidable (FaultFree system move) := by
  unfold FaultFree
  split <;> infer_instance

def IsFailing : Stage → Prop
  | .failing _ _ _ => True
  | _ => False

theorem evaluateAll_succeed (running : List ℤ) :
    evaluateAll (fun _ => .ok true) running = .ok () := by
  have hall : running.mapM (fun _ => Except.ok (ε := String) true) =
      .ok (running.map fun _ => true) := List.mapM_pure
  unfold evaluateAll
  rw [hall]
  have htrue : (running.map fun _ => true).all id = true := by simp
  simp only [bind, Except.bind, htrue, if_true]
  rfl

theorem calm_advance {evaluator : EvaluatorConfig} {owner : String} {store after : EventStore}
    {batch : BatchEvent} {turn : Turn} {stage next : Stage} (hfine : turn.fault = .fine)
    (hevaluate : turn.evaluate = fun _ => .ok true)
    (hvalid : ∃ accepted, validate evaluator.shardCount batch = .ok accepted)
    (hcalm : ¬ IsFailing stage)
    (hadvance : advance evaluator owner store batch turn stage = (after, .next next)) :
    ¬ IsFailing next := by
  have hcall : ∀ {α : Type} (effect : EventStore × α),
      turn.fault.call store effect = (effect.1, .ok effect.2) := by
    intro α effect
    rw [hfine]
    rfl
  cases stage with
  | claiming =>
    obtain ⟨⟨shard, ids⟩, hvalid⟩ := hvalid
    simp only [advance, hcall, hvalid] at hadvance
    split_ifs at hadvance
    · cases hadvance
    split at hadvance
    all_goals
      cases hadvance
      try exact id
  | acquiring attempts shard ids =>
    simp only [advance, hcall] at hadvance
    split at hadvance
    · rename_i hnext
      cases (Prod.mk.inj hnext).2
    · cases hadvance
      exact id
    · cases hadvance
      exact id
  | handingBack attempts =>
    simp only [advance, hcall] at hadvance
    cases hadvance
  | listing attempts lease ids =>
    simp only [advance, hcall] at hadvance
    split_ifs at hadvance
    · cases hadvance
      exact id
    · cases hadvance
      exact id
  | evaluating attempts lease running =>
    rw [advance, hevaluate, evaluateAll_succeed] at hadvance
    cases hadvance
    exact id
  | completing attempts lease =>
    simp only [advance, hcall] at hadvance
    cases hadvance
    exact id
  | failing attempts lease error => exact absurd trivial hcalm
  | releasing lease answer =>
    simp only [advance] at hadvance
    cases hadvance

/-- While no call of the database raises, no batch is given up. -/
theorem retriesLeft_of_faultFree (hbar : event.eventType = barClosedEventType)
    (hshards : ∀ owner, (config owner).shardCount = dispatcher.shardCount)
    {tables : SubscriptionStore} {moves : List DispatchMove}
    (h : Along (DispatchSystem.step config dispatcher uuid5 event) FaultFree { tables := tables }
      moves) :
    Along (DispatchSystem.step config dispatcher uuid5 event) (RetriesLeft config)
      { tables := tables } moves := by
  refine h.strengthen (I := fun system => Sourced dispatcher.shardCount event system ∧
    ∀ owner handling, system.pool.working owner = some handling → ¬ IsFailing handling.stage) ?_
    ⟨sourced_start _ event tables, fun _ _ hworking => nomatch hworking⟩
  rintro system move ⟨hsourced, hcalm⟩ hfine
  refine ⟨⟨sourced_step hbar hsourced, ?_⟩, ?_⟩
  · -- every move but a call leaves the stages, or starts one
    have hpool : ∀ pool : PoolMove, (∀ owner turn, pool = .advance owner turn →
        turn.fault = .fine ∧ turn.evaluate = fun _ => .ok true) →
        ∀ owner handling, (system.pool.step config pool).working owner = some handling →
          ¬ IsFailing handling.stage := by
      intro pool hturn owner handling hnext
      rcases working_step hnext with hbefore | ⟨turn, before, after, hmove, hbefore, -, hadvance⟩ |
        ⟨-, hstage⟩
      · exact hcalm owner handling hbefore
      · obtain ⟨hfault, hevaluate⟩ := hturn owner turn hmove
        refine calm_advance hfault hevaluate ?_ (hcalm owner before hbefore) hadvance
        rw [hshards]
        exact (hsourced.published _ (hsourced.working owner before hbefore)).valid
      · rw [hstage]
        exact id
    cases move with
    | replaceStreams other streams => exact hcalm
    | removeStrategy other => exact hcalm
    | setRunning other running => exact hcalm
    | dispatch =>
      simp only [DispatchSystem.step]
      split
      · exact hcalm
      · exact hcalm
    | publish dispatch index =>
      simp only [DispatchSystem.step]
      split
      · exact hcalm
      · exact hcalm
    | deliver owner index =>
      simp only [DispatchSystem.step]
      split
      · exact hcalm
      · exact hpool _ (fun _ _ hmove => (nomatch hmove))
    | advance owner now fault =>
      refine hpool _ ?_
      rintro _ _ hmove
      cases hmove
      exact ⟨hfine, rfl⟩
    | crash owner => exact hpool (.crash owner) (fun _ _ hmove => (nomatch hmove))
    | close owner now => exact hpool (.close owner now) (fun _ _ hmove => (nomatch hmove))
  · cases move with
    | advance owner now fault =>
      simp only [RetriesLeft]
      split
      · rename_i batch attempts lease error hworking
        exact absurd trivial (hcalm owner _ hworking)
      · trivial
    | replaceStreams other streams => trivial
    | removeStrategy other => trivial
    | setRunning other running => trivial
    | dispatch => trivial
    | publish dispatch index => trivial
    | deliver owner index => trivial
    | crash owner => trivial
    | close owner now => trivial

/-! ## The invariant -/

def Completed (store : EventStore) (key : InboxKey) : Prop :=
  ∃ row ∈ store.inbox key, row.status = .completed

/-- What an evaluator knows of the strategy at a stage: it is still among those that the stage works
on, or its evaluation is behind. -/
def Remembered (strategyId : ℤ) (batch : BatchEvent) (evaluated : List (ℤ × BatchEvent)) :
    Stage → Prop
  | .acquiring _ _ ids | .listing _ _ ids | .evaluating _ _ ids => strategyId ∈ ids
  | .completing _ _ => (strategyId, batch) ∈ evaluated
  | .claiming | .handingBack _ | .failing _ _ _ | .releasing _ _ => True

/-- The invariant of the deliveries, for one strategy that stays subscribed and running. -/
structure DeliverySound (config : String → EvaluatorConfig) (dispatcher : DispatcherConfig)
    (event : BarEvent) (strategyId : ℤ) (system : DispatchSystem) : Prop where
  sourced : Sourced dispatcher.shardCount event system
  pool : PoolSound config system.pool
  alive : ∀ key, ¬ GivenUp system.pool.store key
  named : ∀ batches ∈ system.dispatches, ∃ batch ∈ batches, strategyId ∈ memberIds batch
  remembered : ∀ owner handling, system.pool.working owner = some handling →
    strategyId ∈ memberIds handling.event →
      Remembered strategyId handling.event system.evaluated handling.stage
  completed : ∀ key, Completed system.pool.store key →
    ∃ batch ∈ system.published, batch.eventId = key.eventId ∧
      (strategyId ∈ memberIds batch → (strategyId, batch) ∈ system.evaluated)
  acknowledged : ∀ owner batch, (owner, batch) ∈ system.pool.acknowledged →
    Finished system.pool.store ((config owner).key batch)

theorem Remembered.mono {batch : BatchEvent} {evaluated more : List (ℤ × BatchEvent)}
    {stage : Stage} (hsub : evaluated ⊆ more) (h : Remembered strategyId batch evaluated stage) :
    Remembered strategyId batch more stage := by
  cases stage with
  | completing attempts lease => exact hsub h
  | claiming => trivial
  | acquiring attempts shard ids => exact h
  | handingBack attempts => trivial
  | listing attempts lease ids => exact h
  | evaluating attempts lease running => exact h
  | failing attempts lease error => trivial
  | releasing lease answer => trivial

theorem DeliverySound.quiet {system next : DispatchSystem}
    (h : DeliverySound config dispatcher event strategyId system)
    (hsourced : Sourced dispatcher.shardCount event next) (hpool : PoolSound config next.pool)
    (hnamed : ∀ batches ∈ next.dispatches, ∃ batch ∈ batches, strategyId ∈ memberIds batch)
    (hinbox : next.pool.store.inbox = system.pool.store.inbox)
    (hacknowledged : next.pool.acknowledged = system.pool.acknowledged)
    (hworking : ∀ owner handling, next.pool.working owner = some handling →
      system.pool.working owner = some handling ∨ handling.stage = .claiming)
    (hpublished : system.published ⊆ next.published)
    (hevaluated : next.evaluated = system.evaluated) :
    DeliverySound config dispatcher event strategyId next := by
  refine ⟨hsourced, hpool, ?_, hnamed, ?_, ?_, ?_⟩
  · rintro key ⟨row, hrow, hdead⟩
    rw [hinbox] at hrow
    exact h.alive key ⟨row, hrow, hdead⟩
  · intro owner handling hnext hmember
    rcases hworking owner handling hnext with hbefore | hstage
    · rw [hevaluated]
      exact h.remembered owner handling hbefore hmember
    · rw [hstage]
      trivial
  · rintro key ⟨row, hrow, hcompleted⟩
    rw [hinbox] at hrow
    obtain ⟨batch, hbatch, hrest⟩ := h.completed key ⟨row, hrow, hcompleted⟩
    rw [hevaluated]
    exact ⟨batch, hpublished hbatch, hrest⟩
  · intro owner batch hmem
    rw [hacknowledged] at hmem
    obtain ⟨row, hrow, hfinished⟩ := h.acknowledged owner batch hmem
    refine ⟨row, ?_, hfinished⟩
    rw [hinbox]
    exact hrow

/-! ## Calls of an evaluator -/

section Advance

variable {evaluator : EvaluatorConfig} {owner : String} {store after : EventStore}
  {batch : BatchEvent} {turn : Turn} {stage next : Stage} {progress : Progress}

theorem validate_ids {shardCount shard : ℤ} {ids : List ℤ}
    (h : validate shardCount batch = .ok (shard, ids)) {id : ℤ} (hid : id ∈ memberIds batch) :
    id ∈ ids := by
  obtain ⟨-, -, raw, hraw, -, -, rfl⟩ := validate_ok_iff.mp h
  obtain ⟨value, hvalue, hint⟩ := List.mem_filterMap.mp hid
  obtain ⟨found, hfound, hok⟩ := answer_of_mapM_ok hraw hvalue
  rw [hok] at hint
  cases hint
  exact mem_sortedIds.mpr hfound

theorem remembered_advance {evaluated more : List (ℤ × BatchEvent)}
    (h : Remembered strategyId batch evaluated stage) (hactive : evaluator.mode = .active)
    (hrunning : turn.isRunning strategyId = true) (hnamed : strategyId ∈ memberIds batch)
    (hpassed : ∀ attempts lease running, stage = .evaluating attempts lease running →
      strategyId ∈ running → (strategyId, batch) ∈ more)
    (hadvance : advance evaluator owner store batch turn stage = (after, .next next)) :
    Remembered strategyId batch more next := by
  cases stage with
  | claiming =>
    simp only [advance] at hadvance
    split_ifs at hadvance
    · cases hadvance
    split at hadvance
    · cases hadvance
    · cases hadvance
    · cases hadvance
    · cases hadvance
    · split at hadvance
      · cases hadvance
        trivial
      · rename_i shard ids hvalid
        cases hadvance
        exact validate_ids hvalid hnamed
  | acquiring attempts shard ids =>
    simp only [advance] at hadvance
    split at hadvance
    · cases hadvance
      trivial
    · cases hadvance
      trivial
    · cases hadvance
      exact h
  | handingBack attempts =>
    simp only [advance] at hadvance
    split at hadvance
    · cases hadvance
      trivial
    · cases hadvance
  | listing attempts lease ids =>
    simp only [advance] at hadvance
    split at hadvance
    · cases hadvance
      trivial
    · rename_i running hlisted
      have hanswer := (Fault.call_ok hlisted).2
      have hmem : strategyId ∈ running := by
        rw [← (Prod.mk.inj hanswer).2]
        exact List.mem_filter.mpr ⟨h, hrunning⟩
      split_ifs at hadvance with hgo
      · cases hadvance
        exact hmem
      · exact absurd ⟨hactive, List.ne_nil_of_mem hmem⟩ hgo
  | evaluating attempts lease running =>
    simp only [advance] at hadvance
    split at hadvance
    · cases hadvance
      trivial
    · cases hadvance
      exact hpassed attempts lease running rfl h
  | completing attempts lease =>
    simp only [advance] at hadvance
    split at hadvance
    · cases hadvance
      trivial
    · cases hadvance
      trivial
  | failing attempts lease error =>
    simp only [advance] at hadvance
    split at hadvance
    all_goals
      cases lease with
      | none => cases hadvance
      | some lease =>
        cases hadvance
        trivial
  | releasing lease answer =>
    simp only [advance] at hadvance
    cases hadvance


theorem advance_completed {key : InboxKey}
    (h : advance evaluator owner store batch turn stage = (after, progress))
    (hbefore : ¬ Completed store key) (hafter : Completed after key) :
    ∃ attempts lease, stage = .completing attempts lease ∧ key = evaluator.key batch := by
  obtain ⟨row, hrow, hstatus⟩ := hafter
  -- a row that is written and not completed is not the one
  have hset : ∀ {written : InboxRow} {other : InboxKey},
      after.inbox = (store.setRow other written).inbox →
      key = other ∧ written = row := by
    intro written other hinbox
    rw [hinbox] at hrow
    by_cases hkey : key = other
    · subst hkey
      exact ⟨rfl, Option.some.inj ((Function.update_self key _ _).symm.trans hrow)⟩
    · exact absurd ⟨row, (Function.update_of_ne hkey _ _).symm.trans hrow, hstatus⟩ hbefore
  have hkept : after.inbox ≠ store.inbox := by
    intro hsame
    rw [hsame] at hrow
    exact hbefore ⟨row, hrow, hstatus⟩
  have hfail : ∀ {error : String} {terminal : Bool}, after.inbox =
      (store.fail turn.now (evaluator.key batch) owner error terminal).1.inbox → False := by
    intro error terminal hinbox
    unfold EventStore.fail at hinbox
    cases hclaimed : store.claimedRow (evaluator.key batch) owner with
    | none =>
      rw [hclaimed] at hinbox
      exact hkept hinbox
    | some old =>
      rw [hclaimed] at hinbox
      obtain ⟨-, rfl⟩ := hset hinbox
      cases terminal with
      | true => exact nomatch hstatus
      | false => exact nomatch hstatus
  rcases advance_inbox h with hsame | ⟨-, hclaim⟩ | ⟨attempts, -, hhanded⟩ |
    ⟨attempts, lease, hstage, hcomplete⟩ | ⟨attempts, lease, error, -, -, hfailed⟩
  · exact absurd hsame hkept
  · unfold EventStore.claim at hclaim
    cases hold : store.inbox (evaluator.key batch) with
    | none =>
      rw [hold] at hclaim
      obtain ⟨-, rfl⟩ := hset hclaim
      exact nomatch hstatus
    | some old =>
      rw [hold] at hclaim
      dsimp only at hclaim
      by_cases htaken : EventStore.Claimable turn.now owner old
      · rw [if_pos htaken] at hclaim
        obtain ⟨-, rfl⟩ := hset hclaim
        exact nomatch hstatus
      · rw [if_neg htaken] at hclaim
        exact absurd hclaim hkept
  · exact (hfail hhanded).elim
  · unfold EventStore.complete at hcomplete
    cases hclaimed : store.claimedRow (evaluator.key batch) owner with
    | none =>
      rw [hclaimed] at hcomplete
      exact absurd hcomplete hkept
    | some old =>
      rw [hclaimed] at hcomplete
      exact ⟨attempts, lease, hstage, (hset hcomplete).1⟩
  · exact (hfail hfailed).elim

end Advance

/-! ## Steps -/

theorem sound_advanced {system : DispatchSystem} {owner : String} {now : Time} {fault : Fault}
    (h : DeliverySound config dispatcher event strategyId system)
    (hbar : event.eventType = barClosedEventType) (hactive : (config owner).mode = .active)
    (hon : Subscribed event strategyId system (.advance owner now fault))
    (hretries : RetriesLeft config system (.advance owner now fault)) :
    DeliverySound config dispatcher event strategyId
      (system.step config dispatcher uuid5 event (.advance owner now fault)) := by
  set turn : Turn := ⟨now, fault, system.tables.running, fun _ => .ok true⟩ with hturn
  have htimely : ReportsInTime config system.pool (.advance owner turn) := by
    cases hworking : system.pool.working owner with
    | none =>
      simp only [ReportsInTime, hworking]
    | some handling =>
      obtain ⟨batch, stage⟩ := handling
      simp only [RetriesLeft, ReportsInTime, hworking] at hretries ⊢
      cases stage with
      | failing attempts lease error =>
        exact fun hterminal => absurd hterminal (not_le.mpr hretries)
      | claiming => trivial
      | acquiring attempts shard ids => trivial
      | handingBack attempts => trivial
      | listing attempts lease ids => trivial
      | evaluating attempts lease running => trivial
      | completing attempts lease => trivial
      | releasing lease answer => trivial
  obtain ⟨hpool, hsafe⟩ := pool_step h.pool htimely
  cases hworking : system.pool.working owner with
  | none =>
    have hsame : system.step config dispatcher uuid5 event (.advance owner now fault) =
        { system with evaluated := [] ++ system.evaluated } := by
      simp only [DispatchSystem.step, EvaluatorPool.submitted, EvaluatorPool.step, hworking]
    rw [hsame]
    exact h
  | some handling =>
    cases hadvance : advance (config owner) owner system.pool.store handling.event turn
      handling.stage with
    | mk after progress =>
    obtain ⟨hstore, hhandlings, hanswers⟩ := advance_pool hworking hadvance
    have hpublished := h.sourced.working owner handling hworking
    have hremembered := h.remembered owner handling hworking
    have hmore : system.evaluated ⊆ system.pool.submitted owner ++ system.evaluated :=
      List.subset_append_right _ _
    refine ⟨sourced_step hbar h.sourced, hpool, ?_, h.named, ?_, ?_, ?_⟩
    · intro key hdead
      rw [show (system.step config dispatcher uuid5 event (.advance owner now fault)).pool.store =
        after from hstore] at hdead
      obtain ⟨attempts, lease, error, hstage, hterminal, -⟩ :=
        advance_givenUp hadvance (h.alive key) hdead
      obtain ⟨batch, stage⟩ := handling
      cases hstage
      simp only [RetriesLeft, hworking] at hretries
      exact absurd hterminal (not_le.mpr hretries)
    · intro other handling' hnext hnamed
      rcases hhandlings other handling' hnext with hbefore | ⟨stage, hprogress, rfl, rfl⟩
      · exact (h.remembered other handling' hbefore hnamed).mono hmore
      · rw [hprogress] at hadvance
        refine remembered_advance (hremembered hnamed) hactive hon.2 hnamed ?_ hadvance
        intro attempts lease running hstage hmem
        refine List.mem_append_left _ ?_
        obtain ⟨batch, stage⟩ := handling
        cases hstage
        simp only [EvaluatorPool.submitted, hworking]
        exact List.mem_map_of_mem hmem
    · intro key hcompleted
      rw [show (system.step config dispatcher uuid5 event (.advance owner now fault)).pool.store =
        after from hstore] at hcompleted
      by_cases hbefore : Completed system.pool.store key
      · obtain ⟨batch, hbatch, hid, hevaluated⟩ := h.completed key hbefore
        exact ⟨batch, hbatch, hid, fun hnamed => hmore (hevaluated hnamed)⟩
      · obtain ⟨attempts, lease, hstage, rfl⟩ := advance_completed hadvance hbefore hcompleted
        refine ⟨handling.event, hpublished, rfl, fun hnamed => hmore ?_⟩
        have hbehind := hremembered hnamed
        rw [hstage] at hbehind
        exact hbehind
    · intro other batch hmem
      have hkept : ∀ key, Finished system.pool.store key →
          Finished (system.pool.step config (.advance owner turn)).store key := by
        rintro key ⟨row, hrow, hfinished⟩
        exact ⟨row, hsafe.absorbing key row hrow hfinished, hfinished⟩
      rcases hanswers with hsame | hnew
      · rw [show (system.step config dispatcher uuid5 event
          (.advance owner now fault)).pool.acknowledged = _ from hsame] at hmem
        exact hkept _ (h.acknowledged other batch hmem)
      · rw [show (system.step config dispatcher uuid5 event
          (.advance owner now fault)).pool.acknowledged = _ from hnew] at hmem
        rcases List.mem_cons.mp hmem with hfirst | hmem
        · cases hfirst
          exact hsafe.acknowledged owner handling.event (h.sourced.published _ hpublished).eventType hnew
        · exact hkept _ (h.acknowledged other batch hmem)

theorem delivery_step {system : DispatchSystem} {move : DispatchMove}
    (hbar : event.eventType = barClosedEventType)
    (hactive : ∀ owner, (config owner).mode = .active)
    (h : DeliverySound config dispatcher event strategyId system)
    (hon : Subscribed event strategyId system move) (hretries : RetriesLeft config system move) :
    DeliverySound config dispatcher event strategyId
      (system.step config dispatcher uuid5 event move) := by
  have hsourced : Sourced dispatcher.shardCount event
      (system.step config dispatcher uuid5 event move) := sourced_step hbar h.sourced
  cases move with
  | replaceStreams other streams =>
    exact h.quiet hsourced h.pool h.named rfl rfl (fun _ _ => Or.inl) (fun _ => id) rfl
  | removeStrategy other =>
    exact h.quiet hsourced h.pool h.named rfl rfl (fun _ _ => Or.inl) (fun _ => id) rfl
  | setRunning other running =>
    exact h.quiet hsourced h.pool h.named rfl rfl (fun _ _ => Or.inl) (fun _ => id) rfl
  | dispatch =>
    simp only [DispatchSystem.step] at hsourced ⊢
    cases hdispatch : dispatchBatches dispatcher uuid5 system.tables event with
    | error error => exact h
    | ok batches =>
      rw [hdispatch] at hsourced
      refine h.quiet hsourced h.pool ?_ rfl rfl (fun _ _ => Or.inl) (fun _ => id) rfl
      intro made hmade
      rcases List.mem_cons.mp hmade with rfl | hmade
      · exact (dispatchBatches_sound hbar hdispatch).2 strategyId (subscribed_listed hon)
      · exact h.named made hmade
  | publish dispatch index =>
    simp only [DispatchSystem.step] at hsourced ⊢
    cases hbatch : system.dispatches[dispatch]?.bind fun batches => batches[index]? with
    | none => exact h
    | some batch =>
      rw [hbatch] at hsourced
      exact h.quiet hsourced h.pool h.named rfl rfl (fun _ _ => Or.inl)
        (fun _ => List.mem_cons_of_mem batch) rfl
  | deliver owner index =>
    simp only [DispatchSystem.step] at hsourced ⊢
    cases hbatch : system.published[index]? with
    | none => exact h
    | some batch =>
      rw [hbatch] at hsourced
      have hsame : (system.pool.step config (.receive owner batch)).store = system.pool.store ∧
          (system.pool.step config (.receive owner batch)).acknowledged =
            system.pool.acknowledged := by
        cases hworking : system.pool.working owner with
        | none => simp only [EvaluatorPool.step, hworking, and_self]
        | some handling => simp only [EvaluatorPool.step, hworking, and_self]
      have htimely : ReportsInTime config system.pool (.receive owner batch) := trivial
      refine h.quiet hsourced (pool_step h.pool htimely).1 h.named
        (congrArg EventStore.inbox hsame.1) hsame.2 ?_ (fun _ => id) rfl
      intro other handling hnext
      rcases working_step hnext with hbefore | ⟨_, _, _, hmove, _⟩ | ⟨-, hstage⟩
      · exact Or.inl hbefore
      · cases hmove
      · exact Or.inr hstage
  | advance owner now fault => exact sound_advanced h hbar (hactive owner) hon hretries
  | crash owner =>
    have htimely : ReportsInTime config system.pool (.crash owner) := trivial
    refine h.quiet hsourced (pool_step h.pool htimely).1 h.named rfl rfl ?_ (fun _ => id) rfl
    intro other handling hnext
    have hcrashed : (system.pool.step config (.crash owner)).working other = some handling := hnext
    rcases working_step hcrashed with hbefore | ⟨_, _, _, hmove, _⟩ | ⟨hmove, -⟩
    · exact Or.inl hbefore
    · cases hmove
    · cases hmove
  | close owner now =>
    have htimely : ReportsInTime config system.pool (.close owner now) := trivial
    exact h.quiet hsourced (pool_step h.pool htimely).1 h.named rfl rfl (fun _ _ => Or.inl)
      (fun _ => id) rfl

theorem delivery_start (tables : SubscriptionStore) :
    DeliverySound config dispatcher event strategyId { tables := tables } where
  sourced := sourced_start _ event tables
  pool := poolSound_empty
  alive := by
    rintro key ⟨row, hrow, -⟩
    exact nomatch hrow
  named := fun _ hmem => nomatch hmem
  remembered := fun _ _ hworking => nomatch hworking
  completed := by
    rintro key ⟨row, hrow, -⟩
    exact nomatch hrow
  acknowledged := fun _ _ hmem => nomatch hmem

/-! ## Main theorem -/

/-- **Redelivered bars.** In every run in which a strategy stays subscribed and running and no batch
is given up, it is evaluated for the event once the batches of the last dispatch are published and
every published batch is acknowledged, if every batch published under the id of its chunk names
it. -/
theorem subscriber_evaluated (config : String → EvaluatorConfig) (dispatcher : DispatcherConfig)
    (uuid5 : String → String) (event : BarEvent) (hbar : event.eventType = barClosedEventType)
    (hactive : ∀ owner, (config owner).mode = .active) (tables : SubscriptionStore)
    (moves : List DispatchMove) (strategyId : ℤ) {system : DispatchSystem}
    (hsystem : runActions (DispatchSystem.step config dispatcher uuid5 event)
      { tables := tables } moves = system)
    (hon : Along (DispatchSystem.step config dispatcher uuid5 event) (Subscribed event strategyId)
      { tables := tables } moves)
    (hretries : Along (DispatchSystem.step config dispatcher uuid5 event) (RetriesLeft config)
      { tables := tables } moves)
    {last : List BatchEvent} (hlast : system.dispatches.head? = some last)
    (hpublished : ∀ batch ∈ last, batch ∈ system.published)
    (hacknowledged : ∀ batch ∈ system.published,
      ∃ owner, (owner, batch) ∈ system.pool.acknowledged)
    (hretained : Retained strategyId system) : EvaluatedFor event strategyId system := by
  have hsound : DeliverySound config dispatcher event strategyId system := by
    rw [← hsystem]
    refine Along.invariant (P := fun system move => Subscribed event strategyId system move ∧
      RetriesLeft config system move) ?_ (delivery_start tables) (hon.and hretries)
    intro system move h hgood
    exact delivery_step hbar hactive h hgood.1 hgood.2
  obtain ⟨batch, hbatch, hnamed⟩ := hsound.named last (List.mem_of_mem_head? hlast)
  obtain ⟨owner, hanswered⟩ := hacknowledged batch (hpublished batch hbatch)
  obtain ⟨row, hrow, hfinished⟩ := hsound.acknowledged owner batch hanswered
  have hcompleted : Completed system.pool.store ((config owner).key batch) := by
    refine ⟨row, hrow, ?_⟩
    cases hstatus : row.status with
    | completed => rfl
    | dead => exact absurd ⟨row, hrow, hstatus⟩ (hsound.alive _)
    | processing =>
      rw [hstatus] at hfinished
      exact nomatch hfinished
    | failed =>
      rw [hstatus] at hfinished
      exact nomatch hfinished
  obtain ⟨other, hother, hid, hevaluated⟩ := hsound.completed _ hcompleted
  exact ⟨other, hevaluated (hretained last hlast batch hbatch hnamed other hother hid),
    (hsound.sourced.published other hother).source⟩

/-! ## A redelivered bar, and a strategy that is missed -/

def closedMinute : BarEvent where
  eventId := "bar-event"
  eventType := barClosedEventType
  partitionKey := "bar:okx:crypto:spot:btc/usdt:1m"
  payload := ⟨"okx", "Crypto", "spot", "BTC/USDT", "BTC/USDT", "1m", 7, 480000000000⟩

/-- The strategies 1 and 129, which are in one shard, are subscribed to the bar and running. -/
def bothSubscribed : SubscriptionStore where
  subscriptions := [⟨1, barClosedEventType, "bar:okx:crypto:spot:btc/usdt:1m", "1m", 1⟩,
    ⟨129, barClosedEventType, "bar:okx:crypto:spot:btc/usdt:1m", "1m", 1⟩]
  running := fun strategyId => strategyId = 1 ∨ strategyId = 129

def singleDispatcher : DispatcherConfig where
  shardCount := 128
  batchSize := 1
  batchSize_pos := by decide
  batchSize_le := by decide

def handlingLast : List DispatchMove :=
  .deliver "worker-a" 0 :: List.replicate 6 (.advance "worker-a" 0 .fine)

def redeliveredBar : List DispatchMove :=
  [.dispatch, .publish 0 0] ++ handlingLast ++ [.publish 0 1] ++ handlingLast ++
    [.dispatch, .publish 0 0] ++ handlingLast ++ [.publish 0 1] ++ handlingLast

/-- Strategy 129 is evaluated. -/
theorem redelivered_bar_evaluated :
    EvaluatedFor closedMinute 129
      (runActions (DispatchSystem.step (fun _ => defaultEvaluator) singleDispatcher id closedMinute)
        { tables := bothSubscribed } redeliveredBar) :=
  subscriber_evaluated (fun _ => defaultEvaluator) singleDispatcher id closedMinute rfl
    (fun _ => rfl) bothSubscribed redeliveredBar 129 rfl (by decide +kernel) (by decide +kernel)
    rfl (by decide +kernel)
    (fun batch hbatch => ⟨"worker-a", (by decide +kernel : ∀ batch ∈ (runActions
      (DispatchSystem.step (fun _ => defaultEvaluator) singleDispatcher id closedMinute)
      { tables := bothSubscribed } redeliveredBar).published, ("worker-a", batch) ∈ (runActions
      (DispatchSystem.step (fun _ => defaultEvaluator) singleDispatcher id closedMinute)
      { tables := bothSubscribed } redeliveredBar).pool.acknowledged) batch hbatch⟩)
    (by decide +kernel)

/-- No batch of the bar that is delivered twice is given up. -/
theorem redelivered_bar_retried :
    Along (DispatchSystem.step (fun _ => defaultEvaluator) singleDispatcher id closedMinute)
      (RetriesLeft fun _ => defaultEvaluator) { tables := bothSubscribed } redeliveredBar :=
  retriesLeft_of_faultFree rfl (fun _ => rfl) (by decide +kernel)

/-- Only the batch of strategy 1 is published at first; it stops before the second delivery. -/
def movedStrategy : List DispatchMove :=
  [.dispatch, .publish 0 0] ++ handlingLast ++ [.setRunning 1 false, .dispatch, .publish 0 0] ++
    handlingLast

/-- The batch of strategy 129 is dropped under the id of the batch of strategy 1. -/
theorem moved_strategy_missed :
    ∃ system last, runActions (DispatchSystem.step (fun _ => defaultEvaluator) singleDispatcher id
        closedMinute) { tables := bothSubscribed } movedStrategy = system ∧
      Along (DispatchSystem.step (fun _ => defaultEvaluator) singleDispatcher id closedMinute)
        (Subscribed closedMinute 129) { tables := bothSubscribed } movedStrategy ∧
      Along (DispatchSystem.step (fun _ => defaultEvaluator) singleDispatcher id closedMinute)
        FaultFree { tables := bothSubscribed } movedStrategy ∧
      system.dispatches.head? = some last ∧ (∀ batch ∈ last, batch ∈ system.published) ∧
      (∀ batch ∈ system.published, ("worker-a", batch) ∈ system.pool.acknowledged) ∧
      ¬ EvaluatedFor closedMinute 129 system := by
  refine ⟨_, _, rfl, by decide +kernel, by decide +kernel, rfl, by decide +kernel,
    by decide +kernel, ?_⟩
  rintro ⟨batch, hbatch, -⟩
  have hothers : ∀ entry ∈ (runActions (DispatchSystem.step (fun _ => defaultEvaluator)
      singleDispatcher id closedMinute) { tables := bothSubscribed } movedStrategy).evaluated,
      entry.1 ≠ 129 := by decide +kernel
  exact hothers _ hbatch rfl

end QuantDinger.Analysis
