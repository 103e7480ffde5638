import QuantDinger.Analysis.FillSize

/-!
# A fill against its request

When does the executed quantity keep the sign of the request and not pass it? Always,
except for the fills `OversizedFill` describes: the position is over the gross limit, and
the excess that `_feasible_delta` trades is larger than the request or goes the other way.
-/

namespace QuantDinger.Analysis

open QuantDinger.Library QuantDinger.Model

theorem execution_signedQuantity (config : BrokerConfig) (plan : FillPlan) (orderId : Time × ℕ)
    (ts : Time) (order : OrderIntent) (balance : Amount) :
    (plan.execution config orderId ts order balance).signedQuantity = plan.delta := by
  unfold Execution.signedQuantity FillPlan.execution
  by_cases h : 0 < plan.delta
  · simp [h, abs_of_pos h]
  · simp [h, abs_of_nonpos (not_lt.mp h)]

theorem work_executions {config : BrokerConfig} {ts : Time} {equity : Amount}
    {order : OrderIntent} {bar : Option Bar} {openPrice : Option Amount} {outcome : Outcome}
    {broker : Broker} {execution : Execution}
    (h : (broker.work config ts equity order bar openPrice outcome).1.executions =
      broker.executions ++ [execution]) :
    ∃ plan, outcome = .fill plan ∧
      execution = executionOf config broker.toAccount (ts, broker.orderSequence + 1) ts order plan := by
  cases outcome with
  | fill plan =>
    refine ⟨plan, rfl, ?_⟩
    have hfill : (broker.work config ts equity order bar openPrice (.fill plan)).1.executions =
        broker.executions ++
          [executionOf config broker.toAccount (ts, broker.orderSequence + 1) ts order plan] :=
      fill_executions config broker.toAccount (ts, broker.orderSequence + 1) ts order plan
    rw [hfill] at h
    simpa using (List.append_cancel_left h).symm
  | blocked reason => exact absurd (congrArg List.length h) (by simp [Broker.work, Broker.settle])
  | rejected reason requested =>
    exact absurd (congrArg List.length h) (by simp [Broker.work, Broker.settle])
  | resting requested =>
    exact absurd (congrArg List.length h) (by simp [Broker.work, Broker.settle])

/-- The fills that go wrong, from what the broker knows before it fills. The order leaves
a position over the gross limit, and the whole excess over the limit, in lots, passes the
request or (when liquidity has left nothing of the order) goes against it. The last line
is for lots of at most `10⁻¹²`, for which a quantity of zero passes as a trade.
SOURCE: runtime.py:1235-1269 -/
def OversizedAt (config : BrokerConfig) (account : Account) (order : OrderIntent)
    (equity : Amount) (s : Sizing) (capped : Trade) (price lot : Amount) : Prop :=
  capped.exactClose = false ∧
    ((OverGross config account order.key s.current capped.delta price equity ∧
      ((capped.delta = 0 ∧ 0 < s.current.amount * s.requestedDelta) ∨
        |s.requestedDelta| + sizeTolerance s lot <
          |roundToLot (copysign (account.maxTargetAbs config order.key price equity)
            s.current.amount - s.current.amount) lot|)) ∨
    (lot ≤ 1 / 10 ^ 12 ∧
      (feasibleDelta config account order.key s.current capped.delta price equity lot).1 = 0))

/-- The order would be filled so: its fill price, and the quantity that the rounding and
the liquidity cap leave at that price. -/
def OversizedFill (config : BrokerConfig) (account : Account) (order : OrderIntent)
    (bar : Option Bar) (s : Sizing) (equity : Amount) : Prop :=
  ∃ price reference, fillPrice config order bar s.openPrice s.requestedDelta =
      .fill price reference ∧
    OversizedAt config account order equity s
      (s.capLiquidity (s.roundRequest price (config.lot order.symbol))
        (orderCap order bar (config.lot order.symbol)) price (config.lot order.symbol))
      price (config.lot order.symbol)

section Bound

variable {config : BrokerConfig} {account : Account} {order : OrderIntent} {bar : Option Bar}
  {price equity : Amount} {plan : FillPlan}

theorem within_request_of_exactClose
    (hfilled : Filled config account order bar equity
      (sizeOrder config account order price equity) plan) (hx : plan.exactClose = true) :
    0 < plan.delta * (sizeOrder config account order price equity).requestedDelta ∧
      |plan.delta| ≤ |(sizeOrder config account order price equity).requestedDelta| +
        sizeTolerance (sizeOrder config account order price equity) plan.lot := by
  obtain ⟨hdelta, hr⟩ := hfilled.delta_of_exactClose hx
  rw [hdelta, abs_neg]
  refine ⟨(sizeOrder_reconciled hr).1, (sizeOrder_reconciled hr).2.trans ?_⟩
  unfold sizeTolerance
  rw [if_pos hr]
  exact add_le_add_right (le_max_left _ _) _

theorem delta_of_not_exactClose (hforced : order.forced = false) {s : Sizing}
    (hfilled : Filled config account order bar equity s plan) (hx : plan.exactClose = false) :
    plan.delta = (feasibleDelta config account order.key s.current (cappedDelta s plan).delta
      plan.fillPrice equity plan.lot).1 := by
  have hd := congrArg Prod.fst hfilled.feasible
  dsimp only at hd
  rw [hd]
  unfold feasibleTrade
  rw [if_neg]
  · rfl
  · rw [← hfilled.exact, hx, hforced]
    simp

theorem excess_sign {lot cap amount : Amount} (hlot : 0 < lot) (hcap : 0 ≤ cap)
    (h : cap + 1 / 10 ^ 12 < |amount|) :
    roundToLot (copysign cap amount - amount) lot * amount ≤ 0 := by
  have htol : (0 : Amount) < 1 / 10 ^ 12 := by norm_num
  rcases lt_or_ge amount 0 with ha | ha
  · rw [abs_of_neg ha] at h
    rw [copysign_of_neg ha, abs_of_nonneg hcap]
    exact mul_nonpos_of_nonneg_of_nonpos (roundToLot_nonneg hlot (by linarith)) ha.le
  · rw [abs_of_nonneg ha] at h
    rw [copysign_of_nonneg ha, abs_of_nonneg hcap]
    exact mul_nonpos_of_nonpos_of_nonneg (roundToLot_nonpos hlot (by linarith)) ha

theorem overGross_against {s : Sizing} {delta price : Amount} (hd : delta ≠ 0)
    (hover : OverGross config account order.key s.current delta price equity) :
    s.current.amount * delta < 0 := by
  have hcap := maxTargetAbs_nonneg config account order.key price equity
  have htol : (0 : Amount) < 1 / 10 ^ 12 := by norm_num
  rcases hover with ⟨hd', hlong⟩ | ⟨hd', hshort⟩ | ⟨hd', -⟩
  · exact mul_neg_of_pos_of_neg (by linarith) hd'
  · have hb := (@affordable_bounds config account delta price equity).1 hd'
    exact mul_neg_of_neg_of_pos (by linarith [hb.1]) hd'
  · exact absurd hd' hd

theorem mul_pos_iff_of_opposite {x y z : Amount} (h : x * y < 0) : 0 < x * z ↔ y * z < 0 := by
  rcases mul_neg_iff.mp h with ⟨h1, h2⟩ | ⟨h1, h2⟩
  · simp [mul_neg_iff, h1, h2, not_lt.mpr h2.le]
  · simp [mul_pos_iff, mul_neg_iff, h1, h2, not_lt.mpr h1.le, not_lt.mpr h2.le]

theorem feasible_direction {s : Sizing} {capped : Trade} {price lot delta : Amount}
    (hlot : 0 < lot) (hreq : s.requestedDelta ≠ 0) (hmultiple : IsMultiple lot capped.delta)
    (hsign : 0 < capped.delta * s.requestedDelta ∨ capped.delta = 0)
    (hdelta : delta = (feasibleDelta config account order.key s.current capped.delta price
      equity lot).1) (hne : delta ≠ 0) :
    0 < delta * s.requestedDelta ↔
      ¬ (OverGross config account order.key s.current capped.delta price equity ∧
        capped.delta = 0 ∧ 0 < s.current.amount * s.requestedDelta) := by
  by_cases hover : OverGross config account order.key s.current capped.delta price equity
  · obtain ⟨hexcess, habs⟩ := @feasibleDelta_of_over config account order.key s.current
      capped.delta price equity lot hover
    have hagainst := excess_sign hlot (maxTargetAbs_nonneg config account order.key price equity)
      habs
    rw [← hexcess, ← hdelta] at hagainst
    have hamount : s.current.amount ≠ 0 := by
      intro h0
      rw [h0, abs_zero] at habs
      have := maxTargetAbs_nonneg config account order.key price equity
      have : (0 : Amount) < 1 / 10 ^ 12 := by norm_num
      linarith
    have hopp : delta * s.current.amount < 0 :=
      lt_of_le_of_ne hagainst (mul_ne_zero hne hamount)
    rw [mul_pos_iff_of_opposite hopp]
    constructor
    · rintro h ⟨-, -, h'⟩
      exact absurd h (not_lt.mpr h'.le)
    · intro h
      rcases hsign with hcs | hc0
      · have hd0 : capped.delta ≠ 0 := left_ne_zero_of_mul hcs.ne'
        have hopp' := overGross_against hd0 hover
        rw [mul_comm] at hopp'
        exact (mul_pos_iff_of_opposite hopp').mp hcs
      · by_contra hge
        exact h ⟨hover, hc0, lt_of_le_of_ne (not_lt.mp hge) (mul_ne_zero hamount hreq).symm⟩
  · obtain ⟨hsize, hdir⟩ := @feasibleDelta_of_not_over config account order.key s.current
      capped.delta price equity lot hlot hmultiple hover
    rw [← hdelta] at hsize hdir
    refine iff_of_true ?_ fun h => hover h.1
    rcases hsign with hcs | hc0
    · rcases pos_and_pos_or_neg_and_neg_of_mul_pos hcs with ⟨h1, h2⟩ | ⟨h1, h2⟩
      · exact mul_pos (lt_of_le_of_ne (nonneg_of_mul_nonneg_left hdir h1) (Ne.symm hne)) h2
      · exact mul_pos_of_neg_of_neg (lt_of_le_of_ne (nonpos_of_mul_nonneg_left hdir h1) hne) h2
    · rw [hc0, abs_zero] at hsize
      exact absurd (abs_eq_zero.mp (le_antisymm hsize (abs_nonneg _))) hne

theorem within_request_iff {s : Sizing} {capped : Trade} {price lot delta : Amount}
    (hlot : 0 < lot) (hreq : s.requestedDelta ≠ 0) (hx : capped.exactClose = false)
    (hmultiple : IsMultiple lot capped.delta)
    (hle : |capped.delta| ≤ |s.requestedDelta| + sizeTolerance s lot)
    (hsign : 0 < capped.delta * s.requestedDelta ∨ capped.delta = 0)
    (hdelta : delta = (feasibleDelta config account order.key s.current capped.delta price
      equity lot).1) (hzero : delta = 0 → lot ≤ 1 / 10 ^ 12) :
    (0 < delta * s.requestedDelta ∧ |delta| ≤ |s.requestedDelta| + sizeTolerance s lot) ↔
      ¬ OversizedAt config account order equity s capped price lot := by
  by_cases hne : delta = 0
  · refine iff_of_false (fun h => ?_) fun h => h ⟨hx, Or.inr ⟨hzero hne, hdelta ▸ hne⟩⟩
    rw [hne, zero_mul] at h
    exact lt_irrefl _ h.1
  rw [feasible_direction hlot hreq hmultiple hsign hdelta hne]
  unfold OversizedAt
  by_cases hover : OverGross config account order.key s.current capped.delta price equity
  · obtain ⟨hexcess, -⟩ := @feasibleDelta_of_over config account order.key s.current
      capped.delta price equity lot hover
    rw [← hexcess, ← hdelta]
    simp only [hover, hx, hne, true_and, and_false, or_false, not_or, not_lt]
  · obtain ⟨hsize, -⟩ := @feasibleDelta_of_not_over config account order.key s.current
      capped.delta price equity lot hlot hmultiple hover
    rw [← hdelta] at hsize ⊢
    simp only [hover, hne, false_and, and_false, or_false, not_false_eq_true, true_and]
    exact iff_of_true (hsize.trans hle) trivial

theorem plan_within_request_iff (hforced : order.forced = false)
    (h : planOrder config account order bar (some price) equity = .ok (.fill plan)) :
    (0 < plan.delta * (sizeOrder config account order price equity).requestedDelta ∧
      |plan.delta| ≤ |(sizeOrder config account order price equity).requestedDelta| +
        sizeTolerance (sizeOrder config account order price equity)
          (config.lot order.symbol)) ↔
      ¬ OversizedFill config account order bar (sizeOrder config account order price equity)
        equity := by
  obtain ⟨price', hprice, hmet, hfill, hfilled⟩ := planOrder_fill h
  cases hprice
  have hreq : (sizeOrder config account order price equity).requestedDelta ≠ 0 := by
    intro hzero
    have := request_of_not_met hmet
    rw [hzero, abs_zero] at this
    norm_num at this
  have hiff : OversizedFill config account order bar
      (sizeOrder config account order price equity) equity ↔
      OversizedAt config account order equity (sizeOrder config account order price equity)
        (cappedDelta (sizeOrder config account order price equity) plan) plan.fillPrice
        plan.lot := by
    unfold OversizedFill cappedDelta
    rw [hfilled.cap, ← hfilled.lot]
    constructor
    · rintro ⟨p, r, hp, hat⟩
      have : PriceDecision.fill plan.fillPrice plan.fillReference = .fill p r :=
        hfill.symm.trans hp
      cases this
      exact hat
    · exact fun hat => ⟨plan.fillPrice, plan.fillReference, hfill, hat⟩
  have hexact : plan.exactClose =
      (cappedDelta (sizeOrder config account order price equity) plan).exactClose := hfilled.exact
  rw [hiff, ← hfilled.lot]
  cases hx : plan.exactClose with
  | true =>
    refine iff_of_true (within_request_of_exactClose hfilled hx) ?_
    rintro ⟨hnot, -⟩
    rw [hx, hnot] at hexact
    cases hexact
  | false =>
    rw [hx] at hexact
    refine within_request_iff hfilled.lot_pos hreq hexact.symm
      (hfilled.isMultiple_cappedDelta hexact.symm) hfilled.capped_le
      (hfilled.capped_sign hmet) (delta_of_not_exactClose hforced hfilled hx) ?_
    intro hd
    have htraded := hfilled.traded
    rw [hd, hx] at htraded
    simpa [Trade.belowLot] using htraded

theorem plan_direction
    (h : planOrder config account order bar (some price) equity = .ok (.fill plan))
    (hne : plan.delta ≠ 0) :
    0 < plan.delta * (sizeOrder config account order price equity).requestedDelta ∨
      (plan.delta * (sizeOrder config account order price equity).requestedDelta < 0 ∧
        plan.exactClose = false ∧ order.forced = false ∧ orderCap order bar plan.lot = some 0 ∧
        0 < (sizeOrder config account order price equity).current.amount *
          (sizeOrder config account order price equity).requestedDelta ∧
        account.maxTargetAbs config order.key plan.fillPrice equity + 1 / 10 ^ 12 <
          |(sizeOrder config account order price equity).current.amount| ∧
        plan.delta = roundToLot (copysign
          (account.maxTargetAbs config order.key plan.fillPrice equity)
          (sizeOrder config account order price equity).current.amount -
            (sizeOrder config account order price equity).current.amount) plan.lot) := by
  obtain ⟨price', hprice, hmet, hfill, hfilled⟩ := planOrder_fill h
  cases hprice
  have hreq : (sizeOrder config account order price equity).requestedDelta ≠ 0 := by
    intro hzero
    have := request_of_not_met hmet
    rw [hzero, abs_zero] at this
    norm_num at this
  have hexact : plan.exactClose =
      (cappedDelta (sizeOrder config account order price equity) plan).exactClose := hfilled.exact
  have hsign := hfilled.capped_sign hmet
  cases hx : plan.exactClose with
  | true => exact Or.inl (within_request_of_exactClose hfilled hx).1
  | false =>
    rw [hx] at hexact
    cases hforced : order.forced with
    | true =>
      have hdelta : plan.delta =
          (cappedDelta (sizeOrder config account order price equity) plan).delta := by
        have hd := congrArg Prod.fst hfilled.feasible
        unfold feasibleTrade at hd
        rw [if_pos (Or.inl hforced)] at hd
        exact hd
      rcases hsign with hcs | hc0
      · exact Or.inl (hdelta ▸ hcs)
      · exact absurd (hdelta.trans hc0) hne
    | false =>
      have hdelta := delta_of_not_exactClose hforced hfilled hx
      have hdir := feasible_direction hfilled.lot_pos hreq
        (hfilled.isMultiple_cappedDelta hexact.symm) hsign hdelta hne
      by_cases hpos : 0 <
          plan.delta * (sizeOrder config account order price equity).requestedDelta
      · exact Or.inl hpos
      · right
        obtain ⟨hover, hc0, ha⟩ := not_not.mp (fun hn => hpos (hdir.mpr hn))
        have hexcess := @feasibleDelta_of_over _ _ _ _ _ _ _ plan.lot hover
        refine ⟨lt_of_le_of_ne (not_lt.mp hpos) (mul_ne_zero hne hreq), rfl, rfl, ?_, ha,
          hexcess.2, hdelta.trans hexcess.1⟩
        -- Nothing is left of the order only when the cap is zero.
        rw [← hfilled.cap]
        have hround := hfilled.rounded_sign hmet
        unfold cappedDelta at hc0 hexact
        rcases capLiquidity_cases (sizeOrder config account order price equity)
          ((sizeOrder config account order price equity).roundRequest plan.fillPrice plan.lot)
          plan.liquidityCap plan.fillPrice plan.lot with ⟨-, hc⟩ | hc | ⟨limit, hl, -, hc⟩
        · rw [hc] at hexact
          cases hexact
        · rw [hc] at hc0
          rw [hc0, zero_mul] at hround
          exact absurd hround (lt_irrefl _)
        · rw [hc] at hc0
          have hlimit := abs_copysign limit ((sizeOrder config account order price
            equity).roundRequest plan.fillPrice plan.lot).delta
          rw [show copysign limit ((sizeOrder config account order price equity).roundRequest
            plan.fillPrice plan.lot).delta = 0 from hc0, abs_zero] at hlimit
          rw [← abs_eq_zero.mp hlimit.symm]
          exact hl

/-- **The size of an execution against its request.** Whatever the state of the broker and
the bar, an execution of an order that is not forced has the sign of the requested
quantity and does not pass it, up to the rounding tolerance, if and only if the order is
not one of the oversized ones. -/
theorem execution_within_request_iff {broker : Broker} {ts : Time} {outcome : Outcome}
    {execution : Execution} (hforced : order.forced = false)
    (hplan : planOrder config broker.toAccount order bar (some price) equity = .ok outcome)
    (hexecution : (broker.work config ts equity order bar (some price) outcome).1.executions =
      broker.executions ++ [execution]) :
    (0 < execution.signedQuantity *
        (sizeOrder config broker.toAccount order price equity).requestedDelta ∧
      |execution.signedQuantity| ≤
        |(sizeOrder config broker.toAccount order price equity).requestedDelta| +
          sizeTolerance (sizeOrder config broker.toAccount order price equity)
            (config.lot order.symbol)) ↔
      ¬ OversizedFill config broker.toAccount order bar
        (sizeOrder config broker.toAccount order price equity) equity := by
  obtain ⟨plan, rfl, rfl⟩ := work_executions hexecution
  rw [executionOf, execution_signedQuantity]
  exact plan_within_request_iff hforced hplan

end Bound

/-! ## A position over its limit -/

def plainConfig : BrokerConfig := BrokerConfig.create 1 0 0 fun _ => none

/-- Ten shares sold short at 50 and now at 100: the limit at an equity of 500 is five. -/
def overLimitShort : Broker :=
  { Broker.create 1000 with
    availableCash := 1500
    positions := Dict.ofPairs [(⟨"USStock:X", none⟩,
      { symbol := "USStock:X", amount := -10, avgCost := 50, lastPrice := 100 })]
    totalValue := 500 }

def buy (quantity : Amount) : OrderIntent where
  symbol := "USStock:X"
  kind := .quantity
  value := quantity

def outcomeAt (config : BrokerConfig) (broker : Broker) (order : OrderIntent) (price equity : Amount) :
    Outcome :=
  match planOrder config broker.toAccount order (some (flatBar 0 price 0)) (some price) equity with
  | .ok outcome => outcome
  | .error _ => .blocked .noPrice

def executionAt (config : BrokerConfig) (broker : Broker) (order : OrderIntent)
    (price equity : Amount) : Option Execution :=
  (broker.work config 0 equity order (some (flatBar 0 price 0)) (some price)
    (outcomeAt config broker order price equity)).1.executions[broker.executions.length]?

/-- An order to buy one share back buys five. -/
theorem buy_one_fills_five :
    (sizeOrder plainConfig overLimitShort.toAccount (buy 1) 100 500).requestedDelta = 1 ∧
      (executionAt plainConfig overLimitShort (buy 1) 100 500).map Execution.signedQuantity =
        some 5 ∧
      ¬ |(5 : Amount)| ≤ |1| + sizeTolerance
        (sizeOrder plainConfig overLimitShort.toAccount (buy 1) 100 500)
        (plainConfig.lot "USStock:X") := by
  decide +kernel

def firstShare : Execution :=
  (executionAt plainConfig (Broker.create 1000) (buy 1) 100 1000).get (by decide +kernel)

/-- The bound at a fresh account that buys one share. -/
theorem first_share_within_request :
    (0 < firstShare.signedQuantity *
        (sizeOrder plainConfig (Broker.create 1000).toAccount (buy 1) 100 1000).requestedDelta ∧
      |firstShare.signedQuantity| ≤
        |(sizeOrder plainConfig (Broker.create 1000).toAccount (buy 1) 100 1000).requestedDelta| +
          sizeTolerance (sizeOrder plainConfig (Broker.create 1000).toAccount (buy 1) 100 1000)
            (plainConfig.lot (buy 1).symbol)) ↔
      ¬ OversizedFill plainConfig (Broker.create 1000).toAccount (buy 1)
        (some (flatBar 0 100 0))
        (sizeOrder plainConfig (Broker.create 1000).toAccount (buy 1) 100 1000) 1000 :=
  execution_within_request_iff (by decide +kernel)
    (by decide +kernel : planOrder plainConfig (Broker.create 1000).toAccount (buy 1)
      (some (flatBar 0 100 0)) (some 100) 1000 =
        .ok (outcomeAt plainConfig (Broker.create 1000) (buy 1) 100 1000))
    (by decide +kernel : ((Broker.create 1000).work plainConfig 0 1000 (buy 1)
      (some (flatBar 0 100 0)) (some 100)
      (outcomeAt plainConfig (Broker.create 1000) (buy 1) 100 1000)).1.executions =
        (Broker.create 1000).executions ++ [firstShare])

end QuantDinger.Analysis
