import QuantDinger.Analysis.RequestBound

/-!
# What is left of a partly filled order

`execute` queues the unfilled part of an incremental order again, encoded as a quantity or as a
value, and `_target_quantity` decodes it on the next bar. For a quantity the two are inverse to
each other. For a value the decoding multiplies by the leverage and the encoding does not divide
by it, so that every retry asks for the leverage times what was left. The file follows an order
through its retries with the quantity filled so far and the quantity queued again.
-/

namespace QuantDinger.Analysis

open QuantDinger.Library QuantDinger.Model

/-! ## Retries -/

/-- What the broker finds on a bar on which it works an order. -/
structure Attempt where
  broker : Broker
  ts : Time
  bar : Option Bar
  openPrice : Option Amount
  equity : Amount

def Attempt.outcome (config : BrokerConfig) (attempt : Attempt) (order : OrderIntent) :
    Option Outcome :=
  (planOrder config attempt.broker.toAccount order attempt.bar attempt.openPrice
    attempt.equity).toOption

def filledBy : Outcome → Amount
  | .fill plan => |plan.delta|
  | _ => 0

def leftBy : Outcome → Amount
  | .fill plan => plan.remainingQuantity
  | _ => 0

/-- An order with what was filled of it so far, and what was left over its fills. -/
structure WorkingOrder where
  order : OrderIntent
  filled : Amount := 0
  requeued : Amount := 0

/-- The order that goes on to the next bar, if it does. -/
def WorkingOrder.retry (config : BrokerConfig) (working : WorkingOrder) (attempt : Attempt) :
    Option WorkingOrder :=
  (attempt.outcome config working.order).bind fun outcome =>
    (attempt.broker.work config attempt.ts attempt.equity working.order attempt.bar
        attempt.openPrice outcome).2.map fun next =>
      { order := next
        filled := working.filled + filledBy outcome
        requeued := working.requeued + leftBy outcome }

def WorkingOrder.retries (config : BrokerConfig) (working : WorkingOrder) (attempts : List Attempt) :
    Option WorkingOrder :=
  attempts.foldlM (WorkingOrder.retry config) working

/-- The order is sized at one price on every bar. -/
def SizedAt (config : BrokerConfig) (price : Amount) : WorkingOrder → List Attempt → Prop
  | _, [] => True
  | working, attempt :: attempts =>
    (∀ openPrice ∈ attempt.openPrice, (sizeOrder config attempt.broker.toAccount working.order
        openPrice attempt.equity).sizingPrice = price) ∧
      ∀ next, working.retry config attempt = some next → SizedAt config price next attempts

/-- The absolute quantity that an order resolves to, from any position and equity.
SOURCE: runtime.py:1611-1626 -/
def resolved (config : BrokerConfig) (order : OrderIntent) (price : Amount) (current : Position)
    (equity : Amount) : Amount :=
  |targetQuantity config order current price equity - current.amount|

def increment (config : BrokerConfig) (order : OrderIntent) (price : Amount) : Amount :=
  if order.kind = .value then order.value * config.leverage / price else order.value

def Incremental (order : OrderIntent) : Prop := order.kind = .quantity ∨ order.kind = .value

section Retry

variable {config : BrokerConfig} {price : Amount}

theorem resolved_eq {order : OrderIntent} (hkind : Incremental order) (current : Position)
    (equity : Amount) :
    resolved config order price current equity = |increment config order price| := by
  unfold resolved increment targetQuantity
  rcases hkind with hquantity | hvalue
  · rw [hquantity]
    simp
  · rw [hvalue]
    simp

theorem remainingQuantity_partly_filled {plan : FillPlan} (h : plan.status = .partialFill) :
    plan.remainingQuantity = |plan.sizing.requestedDelta| - |plan.delta| ∧
      0 < plan.remainingQuantity := by
  have htradable : plan.hasTradableRemainder = true := by
    unfold FillPlan.status at h
    split_ifs at h with hyes
    exact hyes
  unfold FillPlan.hasTradableRemainder at htradable
  simp only [Bool.and_eq_true, decide_eq_true_eq] at htradable
  have hpos : plan.remainingQuantity ≠ 0 := by
    intro hzero
    have hworth := htradable.2
    rw [hzero, zero_mul] at hworth
    norm_num at hworth
  have hnonneg : 0 ≤ plan.remainingQuantity := le_max_left _ _
  have hlt : 0 < plan.remainingQuantity := lt_of_le_of_ne hnonneg hpos.symm
  refine ⟨?_, hlt⟩
  unfold FillPlan.remainingQuantity at hlt ⊢
  refine max_eq_right ?_
  by_contra hneg
  rw [max_eq_left (not_le.mp hneg).le] at hlt
  exact lt_irrefl 0 hlt

theorem requestedDelta_eq {account : Account} {order : OrderIntent} {openPrice equity : Amount}
    (hkind : Incremental order)
    (hprice : (sizeOrder config account order openPrice equity).sizingPrice = price) :
    (sizeOrder config account order openPrice equity).requestedDelta =
      increment config order price := by
  have hrequest : (sizeOrder config account order openPrice equity).requestedDelta =
      targetQuantity config order (account.currentPosition order)
        (sizeOrder config account order openPrice equity).sizingPrice equity -
          (account.currentPosition order).amount := rfl
  rw [hrequest, hprice]
  unfold increment targetQuantity
  rcases hkind with hquantity | hvalue
  · rw [hquantity]
    simp
  · rw [hvalue]
    simp

variable (config) in
theorem increment_remainder (hpos : 0 < price) {order next : OrderIntent} {plan : FillPlan}
    (hkind : Incremental order) (hprice : plan.sizing.sizingPrice = price)
    (h : plan.remainder order = some next) :
    Incremental next ∧ next.kind = order.kind ∧ next.symbol = order.symbol ∧
      plan.status = .partialFill ∧
      |increment config next price| = plan.remainingQuantity *
        (if order.kind = .value then config.leverage else 1) := by
  unfold FillPlan.remainder at h
  by_cases hcovers : plan.status = .partialFill ∧ (order.isLimit = true ∨ order.attempts < 4)
  swap
  · rw [if_neg hcovers] at h
    cases h
  rw [if_pos hcovers] at h
  cases h
  have hrest := (remainingQuantity_partly_filled hcovers.1).2
  refine ⟨hkind, rfl, rfl, hcovers.1, ?_⟩
  unfold increment FillPlan.remainingValue
  dsimp only
  rcases hkind with hquantity | hvalue
  · rw [hquantity]
    simp only [reduceCtorEq, if_false, mul_one]
    rw [abs_copysign, abs_of_pos hrest]
  · rw [hvalue, hprice]
    simp only [if_true]
    have hleverage : 0 < config.leverage := lt_of_lt_of_le one_pos config.one_le_leverage
    rw [abs_div, abs_mul, abs_copysign, abs_of_pos (mul_pos hrest hpos), abs_of_pos hleverage,
      abs_of_pos hpos]
    field_simp

/-- The balance of an order: filled and asked for add up to the first request, and for a value
to what the leverage has added over the retries. -/
structure InBalance (config : BrokerConfig) (price : Amount) (first : OrderIntent)
    (working : WorkingOrder) : Prop where
  incremental : Incremental working.order
  kind : working.order.kind = first.kind
  symbol : working.order.symbol = first.symbol
  requeued_nonneg : 0 ≤ working.requeued
  balance : working.filled + |increment config working.order price| =
    |increment config first price| +
      (if first.kind = .value then (config.leverage - 1) * working.requeued else 0)

theorem attempt_outcome {attempt : Attempt} {order : OrderIntent} {outcome : Outcome}
    (h : attempt.outcome config order = some outcome) :
    planOrder config attempt.broker.toAccount order attempt.bar attempt.openPrice
      attempt.equity = .ok outcome := by
  unfold Attempt.outcome at h
  cases hresult : planOrder config attempt.broker.toAccount order attempt.bar attempt.openPrice
      attempt.equity with
  | error e =>
    rw [hresult] at h
    cases h
  | ok decided =>
    rw [hresult] at h
    cases h
    rfl

theorem InBalance.retry (hpos : 0 < price) {first : OrderIntent} {working next : WorkingOrder}
    (h : InBalance config price first working) {attempt : Attempt}
    (hsized : ∀ openPrice ∈ attempt.openPrice, (sizeOrder config attempt.broker.toAccount
      working.order openPrice attempt.equity).sizingPrice = price)
    (hnext : working.retry config attempt = some next) : InBalance config price first next := by
  unfold WorkingOrder.retry at hnext
  obtain ⟨outcome, houtcome, hnext⟩ := Option.bind_eq_some_iff.mp hnext
  obtain ⟨order, horder, rfl⟩ := Option.map_eq_some_iff.mp hnext
  have hplan := attempt_outcome houtcome
  change ({ attempt.broker with orderSequence := attempt.broker.orderSequence + 1 }.settle config
    attempt.ts working.order outcome).2 = some order at horder
  cases outcome with
  | blocked reason =>
    unfold Broker.settle at horder
    dsimp only at horder
    split_ifs at horder
    cases horder
    have hnothing : filledBy (.blocked reason) = 0 ∧ leftBy (.blocked reason) = 0 := ⟨rfl, rfl⟩
    refine ⟨h.incremental, h.kind, h.symbol, ?_, ?_⟩
    · exact add_nonneg h.requeued_nonneg (le_of_eq hnothing.2.symm)
    · dsimp only
      rw [hnothing.1, hnothing.2, add_zero, add_zero]
      exact h.balance
  | rejected reason requested => cases horder
  | resting requested =>
    cases horder
    have hnothing : filledBy (.resting requested) = 0 ∧ leftBy (.resting requested) = 0 := ⟨rfl, rfl⟩
    refine ⟨h.incremental, h.kind, h.symbol, ?_, ?_⟩
    · exact add_nonneg h.requeued_nonneg (le_of_eq hnothing.2.symm)
    · dsimp only
      rw [hnothing.1, hnothing.2, add_zero, add_zero]
      exact h.balance
  | fill plan =>
    obtain ⟨openPrice, hopen, -, -, hfilled⟩ := planOrder_fill hplan
    have hprice := hsized openPrice hopen
    have hrequest := requestedDelta_eq h.incremental hprice
    rw [← hfilled.sizing] at hprice hrequest
    obtain ⟨hincremental, hkind, hsymbol, hcovers, hincrement⟩ :=
      increment_remainder config hpos h.incremental hprice horder
    have hleft := (remainingQuantity_partly_filled hcovers).1
    refine ⟨hincremental, hkind.trans h.kind, hsymbol.trans h.symbol,
      add_nonneg h.requeued_nonneg (le_max_left _ _), ?_⟩
    have hbalance := h.balance
    unfold filledBy leftBy
    dsimp only
    rw [hincrement, h.kind]
    rw [hrequest] at hleft
    split_ifs at hbalance ⊢ with hvalue
    · have hsum : working.filled + |plan.delta| + plan.remainingQuantity * config.leverage =
          working.filled + |increment config working.order price| +
            (config.leverage - 1) * plan.remainingQuantity := by
        rw [hleft]
        ring
      rw [hsum, hbalance]
      ring
    · rw [← hbalance, hleft]
      ring

theorem InBalance.retries (hpos : 0 < price) {first : OrderIntent} {attempts : List Attempt}
    {working last : WorkingOrder} (h : InBalance config price first working)
    (hsized : SizedAt config price working attempts)
    (hlast : working.retries config attempts = some last) :
    InBalance config price first last := by
  induction attempts generalizing working with
  | nil =>
    cases hlast
    exact h
  | cons attempt attempts ih =>
    unfold WorkingOrder.retries at hlast
    rw [List.foldlM_cons] at hlast
    obtain ⟨next, hnext, hrest⟩ := Option.bind_eq_some_iff.mp hlast
    exact ih (h.retry hpos hsized.1 hnext) (hsized.2 next hnext) hrest

theorem SizedAt.take {attempts : List Attempt} {working : WorkingOrder}
    (h : SizedAt config price working attempts) (n : ℕ) :
    SizedAt config price working (attempts.take n) := by
  induction attempts generalizing working n with
  | nil =>
    rw [List.take_nil]
    trivial
  | cons attempt attempts ih =>
    cases n with
    | zero => trivial
    | succ n => exact ⟨h.1, fun next hnext => ih (h.2 next hnext) n⟩

theorem SizedAt.next {attempts : List Attempt} {working last : WorkingOrder}
    (h : SizedAt config price working attempts) {n : ℕ} {attempt : Attempt}
    (hlast : working.retries config (attempts.take n) = some last)
    (hattempt : attempts[n]? = some attempt) :
    ∀ openPrice ∈ attempt.openPrice, (sizeOrder config attempt.broker.toAccount last.order
      openPrice attempt.equity).sizingPrice = price := by
  induction attempts generalizing working n with
  | nil => cases hattempt
  | cons other attempts ih =>
    cases n with
    | zero =>
      cases hlast
      cases hattempt
      exact h.1
    | succ n =>
      unfold WorkingOrder.retries at hlast
      rw [List.take_succ_cons, List.foldlM_cons] at hlast
      obtain ⟨next, hnext, hrest⟩ := Option.bind_eq_some_iff.mp hlast
      exact ih (h.2 next hnext) hrest hattempt

theorem filled_le_request {account : Account} {order : OrderIntent} {bar : Option Bar}
    {openPrice equity : Amount} {plan : FillPlan}
    (h : planOrder config account order bar (some openPrice) equity = .ok (.fill plan))
    (hsize : order.forced = false → ¬ OversizedFill config account order bar
      (sizeOrder config account order openPrice equity) equity) :
    |plan.delta| ≤ |(sizeOrder config account order openPrice equity).requestedDelta| +
      sizeTolerance (sizeOrder config account order openPrice equity)
        (config.lot order.symbol) := by
  cases hforced : order.forced with
  | false => exact ((plan_within_request_iff hforced h).mpr (hsize hforced)).2
  | true =>
    obtain ⟨price', hprice, -, -, hfilled⟩ := planOrder_fill h
    cases hprice
    have hdelta := congrArg Prod.fst hfilled.feasible
    unfold feasibleTrade at hdelta
    rw [if_pos (Or.inl hforced)] at hdelta
    have hsame : plan.delta =
        (cappedDelta (sizeOrder config account order openPrice equity) plan).delta := hdelta
    rw [← hfilled.lot, hsame]
    exact hfilled.capped_le

end Retry

/-! ## A value order with leverage -/

def thinBar (capital : Amount) : Attempt where
  broker := Broker.create capital
  ts := 0
  bar := some (flatBar 0 100 50)
  openPrice := some 100
  equity := capital

def doubleConfig : BrokerConfig := BrokerConfig.create 2 0 0 fun _ => none

def buyValue : OrderIntent where
  symbol := "USStock:X"
  kind := .value
  value := 500

end QuantDinger.Analysis
