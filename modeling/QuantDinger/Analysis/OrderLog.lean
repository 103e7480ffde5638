import QuantDinger.Analysis.Positions

/-!
# What the passes write to the order log

Two lists record what became of an order: the executions and the order ledger. A pass
appends to both, and only under the ids of the orders it works (`Grows`). The orders of
the protections and of a forced liquidation have no id of their own.
-/

namespace QuantDinger.Analysis

open QuantDinger.Library QuantDinger.Model

def fillIds (broker : Broker) : List String := broker.executions.map Execution.clientOrderId

def rowOf (event : OrderEvent) : String × EventStatus := (event.clientOrderId, event.status)

def statusRows (broker : Broker) : List (String × EventStatus) :=
  broker.ledger.orderLedger.map rowOf

/-! ## One order -/

/-- The status of the ledger row an order gets. -/
def rowStatus (order : OrderIntent) : Outcome → EventStatus
  | .blocked _ => if 4 ≤ order.attempts then .rejected else .deferred
  | .rejected _ _ => .rejected
  | .resting _ => .deferred
  | .fill plan => plan.status

def filledIds (order : OrderIntent) : Outcome → List String
  | .fill _ => [order.clientOrderId]
  | _ => []

theorem appendResting_rows (ledger : Ledger) (event : OrderEvent) :
    (ledger.appendResting event).orderLedger.map rowOf =
        ledger.orderLedger.map rowOf ++ [rowOf event] ∨
      (ledger.appendResting event).orderLedger.map rowOf = ledger.orderLedger.map rowOf := by
  unfold Ledger.appendResting
  dsimp only
  split
  · left
    simp
  · split
    · rename_i index existing hwindow
      right
      obtain ⟨index', -, hwindow⟩ := Option.bind_eq_some_iff.mp hwindow
      obtain ⟨row, hrow, hwindow⟩ := Option.bind_eq_some_iff.mp hwindow
      split at hwindow
      · cases hwindow
        -- The folded row keeps its id and its status.
        have hkeep : rowOf (Ledger.coalesce existing event) = rowOf existing := rfl
        rw [List.map_set, hkeep]
        refine List.ext_getElem? fun i => ?_
        rw [List.getElem?_set, List.getElem?_map]
        by_cases hi : index = i
        · subst hi
          have hlt := (List.getElem?_eq_some_iff.mp hrow).1
          rw [hrow]
          simp [hlt]
        · simp [hi]
      · cases hwindow
    · left
      simp [rowOf, Ledger.openWindow]

section Work

variable (config : BrokerConfig) (ts : Time) (equity : Amount) (order : OrderIntent)
  (bar : Option Bar) (openPrice : Option Amount) (outcome : Outcome) (broker : Broker)

theorem work_fillIds :
    fillIds (broker.work config ts equity order bar openPrice outcome).1 =
      fillIds broker ++ filledIds order outcome := by
  unfold fillIds
  rw [work_account]
  cases outcome with
  | fill plan =>
    rw [accountAfter, fill_executions]
    simp [filledIds, executionOf, FillPlan.execution]
  | blocked reason => simp [accountAfter, filledIds]
  | rejected reason requested => simp [accountAfter, filledIds]
  | resting requested => simp [accountAfter, filledIds]

theorem work_statusRows :
    statusRows (broker.work config ts equity order bar openPrice outcome).1 =
        statusRows broker ++ [(order.clientOrderId, rowStatus order outcome)] ∨
      (statusRows (broker.work config ts equity order bar openPrice outcome).1 =
          statusRows broker ∧
        (broker.work config ts equity order bar openPrice outcome).2 = some order) := by
  cases outcome with
  | fill plan =>
    left
    show List.map _ (broker.ledger.orderLedger ++ _) = _
    simp [statusRows, rowOf, rowStatus, orderEvent]
  | blocked reason =>
    left
    show List.map _ (broker.ledger.orderLedger ++ _) = _
    simp [statusRows, rowOf, rowStatus, orderEvent]
  | rejected reason requested =>
    left
    show List.map _ (broker.ledger.orderLedger ++ _) = _
    simp [statusRows, rowOf, rowStatus, orderEvent]
  | resting requested =>
    rcases appendResting_rows broker.ledger (orderEvent (ts, broker.orderSequence + 1) order ts
      .deferred .limitNotReached requested 0 order.limitPrice 0) with h | h
    · exact Or.inl h
    · exact Or.inr ⟨h, rfl⟩

theorem work_ended (h : (broker.work config ts equity order bar openPrice outcome).2 = none) :
    (rowStatus order outcome).state.live = false ∨
      ∃ plan, outcome = .fill plan ∧ plan.status = .partialFill ∧ order.isLimit = false ∧
        4 ≤ order.attempts := by
  cases outcome with
  | fill plan =>
    have hnext : plan.remainder order = none := h
    unfold FillPlan.remainder at hnext
    split at hnext
    · cases hnext
    · rename_i hcond
      cases hstatus : plan.status with
      | partialFill =>
        right
        rw [hstatus] at hcond
        simp only [true_and, not_or, not_lt, Bool.not_eq_true] at hcond
        exact ⟨plan, rfl, hstatus, hcond.1, hcond.2⟩
      | filled => exact Or.inl (by rw [rowStatus, hstatus]; rfl)
      | deferred => exact absurd hstatus (by unfold FillPlan.status; split <;> simp)
      | rejected => exact absurd hstatus (by unfold FillPlan.status; split <;> simp)
  | blocked reason =>
    have hnext : (if 4 ≤ order.attempts then none
      else some { order with attempts := order.attempts + 1 }) = none := h
    split at hnext
    · rename_i hattempts
      left
      simp [rowStatus, hattempts, EventStatus.state, OrderState.live]
    · cases hnext
  | rejected reason requested => exact Or.inl rfl
  | resting requested => cases h

end Work

/-! ## Whole passes -/

/-- The log has grown, under these ids only. -/
structure Grows (ids : List String) (broker broker' : Broker) : Prop where
  fills : ∃ new, fillIds broker' = fillIds broker ++ new ∧ ∀ r ∈ new, r ∈ ids
  rows : ∃ new, statusRows broker' = statusRows broker ++ new ∧ ∀ row ∈ new, row.1 ∈ ids
  history : broker.history <+: broker'.history
  bankrupt : broker.bankrupt = true → broker'.bankrupt = true

theorem Grows.of_eq {ids : List String} {broker broker' : Broker}
    (hexecutions : broker'.executions = broker.executions)
    (hledger : broker'.ledger.orderLedger = broker.ledger.orderLedger)
    (hhistory : broker'.history = broker.history)
    (hbankrupt : broker.bankrupt = true → broker'.bankrupt = true) : Grows ids broker broker' where
  fills := ⟨[], by simp [fillIds, hexecutions], by simp⟩
  rows := ⟨[], by simp [statusRows, hledger], by simp⟩
  history := by rw [hhistory]
  bankrupt := hbankrupt

theorem Grows.trans {ids : List String} {first second third : Broker}
    (h : Grows ids first second) (h' : Grows ids second third) : Grows ids first third := by
  obtain ⟨f, hf, hfi⟩ := h.fills
  obtain ⟨f', hf', hfi'⟩ := h'.fills
  obtain ⟨r, hr, hri⟩ := h.rows
  obtain ⟨r', hr', hri'⟩ := h'.rows
  refine ⟨⟨f ++ f', ?_, ?_⟩, ⟨r ++ r', ?_, ?_⟩, h.history.trans h'.history,
    fun hb => h'.bankrupt (h.bankrupt hb)⟩
  · rw [hf', hf, List.append_assoc]
  · intro x hx
    rcases List.mem_append.mp hx with hx | hx
    · exact hfi x hx
    · exact hfi' x hx
  · rw [hr', hr, List.append_assoc]
  · intro x hx
    rcases List.mem_append.mp hx with hx | hx
    · exact hri x hx
    · exact hri' x hx

theorem grows_work {ids : List String} (config : BrokerConfig) (ts : Time) (equity : Amount)
    {order : OrderIntent} (bar : Option Bar) (openPrice : Option Amount) (outcome : Outcome)
    (broker : Broker) (hid : order.clientOrderId ∈ ids) :
    Grows ids broker (broker.work config ts equity order bar openPrice outcome).1 := by
  refine ⟨⟨_, work_fillIds config ts equity order bar openPrice outcome broker, ?_⟩, ?_, ?_, ?_⟩
  · intro r hr
    cases outcome with
    | fill plan =>
      rw [filledIds, List.mem_singleton] at hr
      rw [hr]
      exact hid
    | blocked reason => cases hr
    | rejected reason requested => cases hr
    | resting requested => cases hr
  · rcases work_statusRows config ts equity order bar openPrice outcome broker with h | ⟨h, -⟩
    · exact ⟨_, h, by simpa using hid⟩
    · exact ⟨[], by rw [h, List.append_nil], by simp⟩
  · rw [work_history]
    exact List.prefix_append _ _
  · intro hb
    rw [work_bankrupt]
    exact hb

section Passes

variable {data : MarketData} {config : BrokerConfig} {ts : Time}

theorem execute_grows (overrides : Dict PositionKey Amount) (orders : List OrderIntent)
    (broker : Broker) :
    Post (Serves data) (broker.execute config ts overrides orders)
      (fun r => Grows (orderIds orders) broker r.2 ∧
        ∀ o ∈ r.1, ∃ order ∈ orders, Continues order o) := by
  refine execute_rule (P := fun _ rest batch => Grows (orderIds orders) broker batch.broker ∧
    (∀ o ∈ batch.deferred, ∃ order ∈ orders, Continues order o) ∧ ∀ o ∈ rest, o ∈ orders)
    ?_ ?_ ?_ fun _ => ⟨Grows.of_eq rfl rfl rfl id, by simp⟩
  · refine (markToMarketBeforeFill_post overrides broker).mono ?_
    rintro b ⟨positions, rfl⟩
    exact ⟨Grows.of_eq rfl rfl rfl id, by simp, fun o ho => ho⟩
  · rintro equity order rest batch key outcome ⟨hgrows, hdeferred, hrest⟩ hplan
    have horder := hrest order (by simp)
    refine ⟨hgrows.trans (grows_work _ _ _ _ _ _ _ (List.mem_map_of_mem horder)), ?_,
      fun o ho => hrest o (List.mem_cons_of_mem _ ho)⟩
    intro o ho
    rcases List.mem_append.mp ho with ho | ho
    · exact hdeferred o ho
    · exact ⟨order, horder, settle_next (Option.mem_toList.mp ho)⟩
  · rintro equity batch ⟨hgrows, hdeferred, -⟩
    refine (markToMarketBeforeFill_post batch.marks batch.broker).mono ?_
    rintro b ⟨positions, rfl⟩
    exact ⟨hgrows.trans (Grows.of_eq rfl rfl rfl id), hdeferred⟩

theorem execute_grows_anonymous (overrides : Dict PositionKey Amount) {orders : List OrderIntent}
    (horders : ∀ order ∈ orders, order.clientOrderId = "") (broker : Broker) :
    Post (Serves data) (broker.execute config ts overrides orders)
      (fun r => Grows [""] broker r.2) := by
  refine (execute_grows overrides orders broker).mono fun r hr => ?_
  have hids : ∀ r ∈ orderIds orders, r ∈ [""] := by
    intro r hr
    obtain ⟨order, horder, rfl⟩ := List.mem_map.mp hr
    rw [horders order horder]
    simp
  obtain ⟨f, hf, hfi⟩ := hr.1.fills
  obtain ⟨rows, hrows, hri⟩ := hr.1.rows
  exact ⟨⟨f, hf, fun x hx => hids x (hfi x hx)⟩, ⟨rows, hrows, fun x hx => hids _ (hri x hx)⟩,
    hr.1.history, hr.1.bankrupt⟩

theorem processProtections_grows (broker : Broker) :
    Post (Serves data) (broker.processProtections config ts) (fun r => Grows [""] broker r.2) := by
  refine Post.bind (Q := fun pass => Grows [""] broker pass.1) ?_ fun pass hpass => ?_
  · refine Post.foldlM (fun pass entry _ hpass => ?_) (Grows.of_eq rfl rfl rfl id)
    refine (checkProtection_post pass entry).mono ?_
    rintro next ⟨protections, hnext⟩
    refine hpass.trans ?_
    rw [hnext]
    exact Grows.of_eq rfl rfl rfl id
  · refine Post.ite (fun _ => Post.pure hpass) fun _ => ?_
    refine Post.bind (execute_grows_anonymous _ ?_ pass.1) fun result hresult => ?_
    · intro order horder
      obtain ⟨exit, -, rfl⟩ := List.mem_map.mp horder
      rfl
    · exact Post.pure ((hpass.trans hresult).trans (Grows.of_eq rfl rfl rfl id))

theorem liquidateIfInsolvent_grows (broker : Broker) :
    Post (Serves data) (broker.liquidateIfInsolvent config ts)
      (fun r => Grows [""] broker r.2) := by
  have hmark : ∀ b : Broker, Post (Serves data) (b.markToMarket ts) (fun b' => Grows [""] b b') := by
    intro b
    refine (markToMarket_post b).mono ?_
    rintro b' ⟨positions, rfl⟩
    exact Grows.of_eq rfl rfl rfl id
  refine Post.ite (fun _ => Post.pure (Grows.of_eq rfl rfl rfl id)) fun _ => ?_
  refine Post.bind (hmark broker) fun marked hmarked => ?_
  refine Post.ite (fun _ => Post.pure hmarked) fun _ => ?_
  refine Post.bind (Q := fun forced => ∀ order ∈ forced.1, order.clientOrderId = "") ?_
    fun forced hforced => ?_
  · refine Post.foldlM (fun forced entry _ hforced => ?_) (by simp)
    refine Post.bind (post_of_reads (Portal.closeAt_reads _ ts)) fun close _ => ?_
    refine Post.ite (fun _ => Post.pure hforced) fun _ => Post.pure ?_
    intro order horder
    rcases List.mem_append.mp horder with horder | horder
    · exact hforced order horder
    · rw [List.mem_singleton] at horder
      rw [horder]
  · refine Post.bind (execute_grows_anonymous _ hforced marked) fun result hresult => ?_
    refine Post.bind (Q := fun closed => Grows [""] result.2 closed) ?_ fun closed hclosed => ?_
    · refine Post.bind (hmark _) fun b hb => Post.pure ?_
      have habsorb : Grows [""] result.2 (result.2.withAccount result.2.absorbDeficit) :=
        Grows.of_eq rfl rfl rfl id
      exact (habsorb.trans hb).trans (Grows.of_eq rfl rfl rfl fun _ => rfl)
    · exact Post.pure ((hmarked.trans hresult).trans hclosed)

theorem recordEquity_grows (broker : Broker) :
    Post (Serves data) (broker.recordEquity ts) (fun b => Grows [""] broker b) := by
  refine Post.bind (markToMarket_post broker) fun b hb => Post.pure ?_
  obtain ⟨positions, rfl⟩ := hb
  exact Grows.of_eq rfl rfl rfl id

end Passes

theorem traded_trace {ids : List String} {run : Run} {broker : Broker}
    (h : Grows ids run.broker broker) :
    ∃ new : List String, (∀ r ∈ new, r ∈ ids) ∧
      (run.traded broker).trace = run.trace ++ new.map Event.filled := by
  obtain ⟨new, hfills, hids⟩ := h.fills
  refine ⟨new, hids, ?_⟩
  have hlength : run.broker.executions.length = (fillIds run.broker).length := by simp [fillIds]
  have hdrop : (broker.executions.drop run.broker.executions.length).map Execution.clientOrderId =
      new := by
    rw [List.map_drop, hlength]
    show (fillIds broker).drop _ = new
    rw [hfills, List.drop_left]
  unfold Run.traded
  rw [← hdrop, List.map_map]
  rfl

end QuantDinger.Analysis
