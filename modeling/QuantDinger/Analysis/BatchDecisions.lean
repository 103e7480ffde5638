import QuantDinger.Analysis.BorrowingBound

/-!
# The decisions of a batch

A batch is told by the decisions it takes, in the order of its orders: what it hands back to be
worked again and what it records are read off them.
-/

namespace QuantDinger.Analysis

open QuantDinger.Library QuantDinger.Model

def carriedOrder (order : OrderIntent) : Outcome → Option OrderIntent
  | .blocked _ =>
    if 4 ≤ order.attempts then none else some { order with attempts := order.attempts + 1 }
  | .rejected _ _ => none
  | .resting _ => some order
  | .fill plan => plan.remainder order

def recorded (decision : Decision) : List Execution :=
  decision.after.executions.drop decision.before.executions.length

/-- The decisions of a batch: their orders, what goes on, what is recorded, and how each of them
was taken. -/
structure DecisionsOf (config : BrokerConfig) (broker : Broker) (orders deferred : List OrderIntent)
    (after : Broker) (decisions : List Decision) : Prop where
  history : after.history = broker.history ++ decisions
  orders : decisions.map Decision.order = orders
  deferred : deferred =
    decisions.flatMap fun decision => (carriedOrder decision.order decision.outcome).toList
  executions : after.executions = broker.executions ++ decisions.flatMap recorded
  taken : ∀ decision ∈ decisions, Taken config decision
  idle : ∀ decision ∈ decisions, (∀ plan, decision.outcome ≠ .fill plan) →
    decision.after = decision.before

section Decisions

variable {config : BrokerConfig} {ts : Time} {overrides : Dict PositionKey Amount}
  {broker : Broker}

theorem work_carried (equity : Amount) (order : OrderIntent) (bar : Option Bar)
    (openPrice : Option Amount) (outcome : Outcome) :
    (broker.work config ts equity order bar openPrice outcome).2 = carriedOrder order outcome := by
  cases outcome with
  | fill plan => rfl
  | blocked reason => rfl
  | rejected reason requested => rfl
  | resting requested => rfl

theorem accountAfter_executions (config : BrokerConfig) (ts : Time) (broker : Broker)
    (order : OrderIntent) (outcome : Outcome) :
    ∃ added, (accountAfter config ts order broker outcome).executions =
      broker.executions ++ added := by
  cases outcome with
  | fill plan =>
    exact ⟨[executionOf config broker.toAccount (ts, broker.orderSequence + 1) ts order plan],
      fill_executions config broker.toAccount (ts, broker.orderSequence + 1) ts order plan⟩
  | blocked reason => exact ⟨[], (List.append_nil _).symm⟩
  | rejected reason requested => exact ⟨[], (List.append_nil _).symm⟩
  | resting requested => exact ⟨[], (List.append_nil _).symm⟩

theorem DecisionsOf.next {orders : List OrderIntent} {batch : Batch} {decisions : List Decision}
    (h : DecisionsOf config broker orders batch.deferred batch.broker decisions)
    {equity : Amount} {order : OrderIntent} {bar : Option Bar} {outcome : Outcome}
    (hplan : planOrder config batch.broker.toAccount order bar (openPriceOf overrides order bar)
      equity = .ok outcome) :
    DecisionsOf config broker (orders ++ [order])
      (Batch.next config ts overrides equity batch order bar outcome).deferred
      (Batch.next config ts overrides equity batch order bar outcome).broker
      (decisions ++ [⟨order, bar, openPriceOf overrides order bar, equity, batch.broker.toAccount,
        outcome, accountAfter config ts order batch.broker outcome⟩]) := by
  refine ⟨?_, ?_, ?_, ?_, ?_, ?_⟩
  · show (batch.broker.work config ts equity order bar _ outcome).1.history = _
    rw [work_history, h.history, List.append_assoc]
  · rw [List.map_append, h.orders]
    rfl
  · show batch.deferred ++ (batch.broker.work config ts equity order bar _ outcome).2.toList = _
    rw [work_carried, h.deferred, List.flatMap_append, List.flatMap_singleton]
  · show (batch.broker.work config ts equity order bar _ outcome).1.toAccount.executions = _
    rw [work_account, List.flatMap_append, List.flatMap_singleton, ← List.append_assoc,
      ← h.executions]
    obtain ⟨added, hadded⟩ := accountAfter_executions config ts batch.broker order outcome
    unfold recorded
    dsimp only
    rw [hadded, List.drop_left]
  · intro decision hmem
    rcases List.mem_append.mp hmem with hold | hnew
    · exact h.taken decision hold
    · rw [List.mem_singleton.mp hnew]
      refine ⟨hplan, fun plan hfill => ?_⟩
      dsimp only at hfill ⊢
      subst hfill
      exact ⟨_, _, rfl⟩
  · intro decision hmem hunfilled
    rcases List.mem_append.mp hmem with hold | hnew
    · exact h.idle decision hold hunfilled
    · rw [List.mem_singleton.mp hnew] at hunfilled ⊢
      dsimp only at hunfilled ⊢
      cases outcome with
      | fill plan => exact absurd rfl (hunfilled plan)
      | blocked reason => rfl
      | rejected reason requested => rfl
      | resting requested => rfl

theorem execute_decisions (orders : List OrderIntent) (portal portal' : Portal)
    (result : List OrderIntent × Broker)
    (h : broker.execute config ts overrides orders portal = .ok result portal') :
    ∃ decisions, DecisionsOf config broker orders result.1 result.2 decisions := by
  have hrule : Post (Serves portal.view.data) (broker.execute config ts overrides orders)
      (fun result => ∃ decisions, DecisionsOf config broker orders result.1 result.2 decisions) := by
    refine execute_rule (P := fun _ rest batch => ∃ done decisions, orders = done ++ rest ∧
      DecisionsOf config broker done batch.deferred batch.broker decisions) ?_ ?_ ?_ ?_
    · refine (markToMarketBeforeFill_post overrides broker).mono ?_
      rintro marked ⟨positions, rfl⟩
      exact ⟨[], [], rfl, ⟨(List.append_nil _).symm, rfl, rfl, (List.append_nil _).symm,
        fun _ hmem => absurd hmem List.not_mem_nil, fun _ hmem => absurd hmem List.not_mem_nil⟩⟩
    · rintro equity order rest batch key outcome ⟨done, decisions, horders, hdone⟩ hplan
      refine ⟨done ++ [order], _, ?_, hdone.next hplan⟩
      rw [horders, List.append_assoc]
      rfl
    · rintro equity batch ⟨done, decisions, horders, hdone⟩
      rw [List.append_nil] at horders
      refine (markToMarketBeforeFill_post batch.marks batch.broker).mono ?_
      rintro closed ⟨positions, rfl⟩
      refine ⟨decisions, ?_⟩
      rw [horders]
      exact ⟨hdone.history, hdone.orders, hdone.deferred, hdone.executions, hdone.taken,
        hdone.idle⟩
    · intro hempty
      exact ⟨[], ⟨(List.append_nil _).symm, hempty.symm, rfl, (List.append_nil _).symm,
        fun _ hmem => absurd hmem List.not_mem_nil, fun _ hmem => absurd hmem List.not_mem_nil⟩⟩
  exact (hrule.of_ok rfl h).2

def decisionsAfter (config : BrokerConfig) (broker : Broker) (orders : List OrderIntent)
    (portal : Portal) : List Decision :=
  ((batchAfter config broker Dict.empty orders portal).map fun result =>
    result.2.history.drop broker.history.length).getD []

theorem decisions_eq_decisionsAfter {orders : List OrderIntent} {portal portal' : Portal}
    {result : List OrderIntent × Broker} {decisions : List Decision}
    (h : broker.execute config 0 Dict.empty orders portal = .ok result portal')
    (hdecisions : DecisionsOf config broker orders result.1 result.2 decisions) :
    decisions = decisionsAfter config broker orders portal := by
  unfold decisionsAfter batchAfter
  rw [h]
  show decisions = result.2.history.drop broker.history.length
  rw [hdecisions.history, List.drop_left]

end Decisions

end QuantDinger.Analysis
