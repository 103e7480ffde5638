import QuantDinger.Analysis.BatchDecisions

/-!
# Bars at a price limit

`_execution_block_reason` sizes an order at the open price and the running total, and blocks it
when the bar is at its limit on that side. The fill is sized at the limit price and at the equity
the batch started with, and the account check may turn it. An order on the other side of the two
sizings is not stopped (`UnwatchedSide`); every other fill keeps to the side the bar admits.
-/

namespace QuantDinger.Analysis

open QuantDinger.Library QuantDinger.Model

/-! ## The two sides -/

/-- The quantity the block test takes an order to trade.
SOURCE: runtime.py:1222-1228 -/
def checkedDelta (config : BrokerConfig) (account : Account) (order : OrderIntent)
    (price : Amount) : Amount :=
  targetQuantity config order (account.currentPosition order) price (max account.totalValue 0) -
    (account.currentPosition order).amount

/-- The execution is on a side that the bar admits. -/
def WithinLimits (bar : Bar) (execution : Execution) : Prop :=
  (execution.isBuy = true → bar.flag "limit_up" = false) ∧
    (execution.isBuy = false → bar.flag "limit_down" = false)

instance (bar : Bar) (execution : Execution) : Decidable (WithinLimits bar execution) :=
  inferInstanceAs (Decidable (_ ∧ _))

/-- The account check turns the order: its position is over the gross limit, and liquidity has
left nothing of the order itself.
SOURCE: runtime.py:1258-1262 -/
def TurnedAt (config : BrokerConfig) (account : Account) (order : OrderIntent) (equity : Amount)
    (s : Sizing) (capped : Trade) (price : Amount) : Prop :=
  capped.exactClose = false ∧
    OverGross config account order.key s.current capped.delta price equity ∧
    capped.delta = 0 ∧ 0 < s.current.amount * s.requestedDelta

/-- Nothing is left to trade. Only with lots of at most `10⁻¹²` it is recorded all the same, as a
sale. -/
def EmptyAt (config : BrokerConfig) (account : Account) (order : OrderIntent) (equity : Amount)
    (s : Sizing) (capped : Trade) (price lot : Amount) : Prop :=
  capped.exactClose = false ∧
    (feasibleDelta config account order.key s.current capped.delta price equity lot).1 = 0

/-- The order is filled by a purchase, from what the broker knows before it fills: a request to
buy that is not turned, or a request to sell that is. -/
def Buys (config : BrokerConfig) (account : Account) (order : OrderIntent) (bar : Bar)
    (s : Sizing) (equity : Amount) : Prop :=
  ∃ price reference, fillPrice config order (some bar) s.openPrice s.requestedDelta =
      .fill price reference ∧
    ¬ EmptyAt config account order equity s
      (s.capLiquidity (s.roundRequest price (config.lot order.symbol))
        (orderCap order (some bar) (config.lot order.symbol)) price (config.lot order.symbol))
      price (config.lot order.symbol) ∧
    (0 < s.requestedDelta ↔ ¬ TurnedAt config account order equity s
      (s.capLiquidity (s.roundRequest price (config.lot order.symbol))
        (orderCap order (some bar) (config.lot order.symbol)) price (config.lot order.symbol))
      price)

/-- The bar is at its limit on the side the order fills on, and the block test has not taken the
order for one of that side. -/
def UnwatchedSide (config : BrokerConfig) (account : Account) (order : OrderIntent) (bar : Bar)
    (price equity : Amount) : Prop :=
  (bar.flag "limit_up" = true ∧ checkedDelta config account order price ≤ 0 ∧
      Buys config account order bar (sizeOrder config account order price equity) equity) ∨
    (bar.flag "limit_down" = true ∧ 0 ≤ checkedDelta config account order price ∧
      ¬ Buys config account order bar (sizeOrder config account order price equity) equity)

section Plan

variable {config : BrokerConfig} {account : Account} {order : OrderIntent} {bar : Bar}
  {price equity : Amount} {plan : FillPlan}

theorem checked_of_not_blocked
    (h : executionBlockReason config account order (some bar) (some price) = none) :
    (0 < checkedDelta config account order price → bar.flag "limit_up" = false) ∧
      (checkedDelta config account order price < 0 → bar.flag "limit_down" = false) := by
  unfold executionBlockReason at h
  dsimp only at h
  by_cases hprice : price ≤ 0
  · rw [if_pos hprice] at h
    cases h
  rw [if_neg hprice] at h
  by_cases hsuspended : bar.flag "suspended" = true
  · rw [if_pos hsuspended] at h
    cases h
  rw [if_neg hsuspended] at h
  change (if 0 < checkedDelta config account order price ∧ bar.flag "limit_up" = true then
      some StatusReason.limitUp
    else if checkedDelta config account order price < 0 ∧ bar.flag "limit_down" = true then
      some StatusReason.limitDown else none) = none at h
  by_cases hup : 0 < checkedDelta config account order price ∧ bar.flag "limit_up" = true
  · rw [if_pos hup] at h
    cases h
  rw [if_neg hup] at h
  by_cases hdown : checkedDelta config account order price < 0 ∧ bar.flag "limit_down" = true
  · rw [if_pos hdown] at h
    cases h
  constructor
  · intro hbuys
    exact Bool.eq_false_iff.mpr fun hflag => hup ⟨hbuys, hflag⟩
  · intro hsells
    exact Bool.eq_false_iff.mpr fun hflag => hdown ⟨hsells, hflag⟩

theorem not_blocked_of_fill (hforced : order.forced = false)
    (h : planOrder config account order (some bar) (some price) equity = .ok (.fill plan)) :
    executionBlockReason config account order (some bar) (some price) = none := by
  unfold planOrder at h
  rw [hforced, if_neg Bool.false_ne_true] at h
  cases hreason : executionBlockReason config account order (some bar) (some price) with
  | none => rfl
  | some reason =>
    rw [hreason] at h
    cases h

theorem plan_buys_iff (hforced : order.forced = false)
    (h : planOrder config account order (some bar) (some price) equity = .ok (.fill plan)) :
    0 < plan.delta ↔
      Buys config account order bar (sizeOrder config account order price equity) equity := by
  obtain ⟨price', hprice, hmet, hfill, hfilled⟩ := planOrder_fill h
  cases hprice
  have hreq : (sizeOrder config account order price equity).requestedDelta ≠ 0 := by
    intro hzero
    have hlarge := request_of_not_met hmet
    rw [hzero, abs_zero] at hlarge
    norm_num at hlarge
  -- The fill price is determined, so the condition is about the planned fill.
  have hiff : Buys config account order bar (sizeOrder config account order price equity) equity ↔
      ¬ EmptyAt config account order equity (sizeOrder config account order price equity)
          (cappedDelta (sizeOrder config account order price equity) plan) plan.fillPrice plan.lot ∧
        (0 < (sizeOrder config account order price equity).requestedDelta ↔
          ¬ TurnedAt config account order equity (sizeOrder config account order price equity)
            (cappedDelta (sizeOrder config account order price equity) plan) plan.fillPrice) := by
    unfold Buys cappedDelta
    rw [hfilled.cap, ← hfilled.lot]
    constructor
    · rintro ⟨p, r, hp, hat⟩
      have hsame : PriceDecision.fill plan.fillPrice plan.fillReference = .fill p r :=
        hfill.symm.trans hp
      cases hsame
      exact hat
    · intro hat
      exact ⟨plan.fillPrice, plan.fillReference, hfill, hat⟩
  rw [hiff]
  have hexact : plan.exactClose =
      (cappedDelta (sizeOrder config account order price equity) plan).exactClose := hfilled.exact
  have hsame : ∀ {x : Amount}, 0 < plan.delta * x → (0 < plan.delta ↔ 0 < x) := by
    intro x hx
    rcases pos_and_pos_or_neg_and_neg_of_mul_pos hx with ⟨hd, hp⟩ | ⟨hd, hp⟩
    · exact iff_of_true hd hp
    · exact iff_of_false hd.not_gt hp.not_gt
  cases hx : plan.exactClose with
  | true =>
    have hnot : ¬ (cappedDelta (sizeOrder config account order price equity) plan).exactClose =
        false := by
      rw [← hexact, hx]
      exact Bool.noConfusion
    rw [hsame (within_request_of_exactClose hfilled hx).1]
    constructor
    · intro hbuy
      exact ⟨fun hempty => hnot hempty.1, iff_of_true hbuy fun hturned => hnot hturned.1⟩
    · rintro ⟨-, hbuy⟩
      exact hbuy.mpr fun hturned => hnot hturned.1
  | false =>
    rw [hx] at hexact
    have hdelta := delta_of_not_exactClose hforced hfilled hx
    have hempty : EmptyAt config account order equity
        (sizeOrder config account order price equity)
        (cappedDelta (sizeOrder config account order price equity) plan) plan.fillPrice
        plan.lot ↔ plan.delta = 0 := by
      unfold EmptyAt
      rw [← hdelta]
      exact and_iff_right hexact.symm
    rw [hempty]
    by_cases hzero : plan.delta = 0
    · rw [hzero]
      exact iff_of_false (lt_irrefl _) fun hboth => hboth.1 rfl
    have hdir := feasible_direction hfilled.lot_pos hreq
      (hfilled.isMultiple_cappedDelta hexact.symm) (hfilled.capped_sign hmet) hdelta hzero
    have hturned : TurnedAt config account order equity
        (sizeOrder config account order price equity)
        (cappedDelta (sizeOrder config account order price equity) plan) plan.fillPrice ↔
        ¬ 0 < plan.delta * (sizeOrder config account order price equity).requestedDelta := by
      rw [hdir, not_not]
      unfold TurnedAt
      exact and_iff_right hexact.symm
    rw [hturned, not_not, and_iff_right hzero]
    by_cases hwith : 0 < plan.delta * (sizeOrder config account order price equity).requestedDelta
    · rw [hsame hwith]
      exact ⟨fun hbuy => iff_of_true hbuy hwith, fun hboth => hboth.mpr hwith⟩
    · have hagainst : 0 < plan.delta *
          -(sizeOrder config account order price equity).requestedDelta := by
        rw [mul_neg, neg_pos]
        exact lt_of_le_of_ne (not_lt.mp hwith) (mul_ne_zero hzero hreq)
      rw [hsame hagainst, neg_pos]
      constructor
      · intro hsell
        exact iff_of_false hsell.not_gt hwith
      · intro hboth
        exact lt_of_le_of_ne (not_lt.mp fun hbuy => hwith (hboth.mp hbuy)) hreq

theorem plan_within_limits_iff (hforced : order.forced = false)
    (h : planOrder config account order (some bar) (some price) equity = .ok (.fill plan)) :
    ((0 < plan.delta → bar.flag "limit_up" = false) ∧
        (¬ 0 < plan.delta → bar.flag "limit_down" = false)) ↔
      ¬ UnwatchedSide config account order bar price equity := by
  obtain ⟨hup, hdown⟩ := checked_of_not_blocked (not_blocked_of_fill hforced h)
  rw [plan_buys_iff hforced h]
  unfold UnwatchedSide
  constructor
  · rintro ⟨hbuy, hsell⟩ (⟨hflag, -, hbuys⟩ | ⟨hflag, -, hsells⟩)
    · rw [hbuy hbuys] at hflag
      exact Bool.noConfusion hflag
    · rw [hsell hsells] at hflag
      exact Bool.noConfusion hflag
  · intro hwatched
    rw [not_or] at hwatched
    constructor
    · intro hbuys
      by_cases hchecked : 0 < checkedDelta config account order price
      · exact hup hchecked
      · exact Bool.eq_false_iff.mpr fun hflag => hwatched.1 ⟨hflag, not_lt.mp hchecked, hbuys⟩
    · intro hsells
      by_cases hchecked : checkedDelta config account order price < 0
      · exact hdown hchecked
      · exact Bool.eq_false_iff.mpr fun hflag => hwatched.2 ⟨hflag, not_lt.mp hchecked, hsells⟩

end Plan

/-! ## The fills of a batch -/

section Batch

variable {config : BrokerConfig} {ts : Time}

theorem recorded_of_taken {decision : Decision} {execution : Execution}
    (htaken : Taken config decision) (hidle : (∀ plan, decision.outcome ≠ .fill plan) →
      decision.after = decision.before) (hmem : execution ∈ recorded decision) :
    ∃ plan, decision.outcome = .fill plan ∧ execution.isBuy = decide (0 < plan.delta) := by
  unfold recorded at hmem
  by_cases hfill : ∃ plan, decision.outcome = .fill plan
  · obtain ⟨plan, hplan⟩ := hfill
    obtain ⟨orderId, time, hafter⟩ := htaken.2 plan hplan
    rw [hafter, fill_executions, List.drop_left, List.mem_singleton] at hmem
    refine ⟨plan, hplan, ?_⟩
    rw [hmem]
    rfl
  · rw [not_exists] at hfill
    rw [hidle hfill, List.drop_length] at hmem
    exact absurd hmem List.not_mem_nil

/-- **Price limits in a batch.** In every batch, whatever was filled in it before, an execution of
an order that is not forced keeps to the side its bar admits if and only if the block test looked
at that side. -/
theorem limit_bars_iff {broker : Broker} {overrides : Dict PositionKey Amount}
    {orders : List OrderIntent} {portal portal' : Portal} {result : List OrderIntent × Broker}
    (h : broker.execute config ts overrides orders portal = .ok result portal') :
    ∃ decisions, DecisionsOf config broker orders result.1 result.2 decisions ∧
      ∀ decision ∈ decisions, ∀ bar price, decision.bar = some bar →
        decision.openPrice = some price → decision.order.forced = false →
        ∀ execution ∈ recorded decision,
          (WithinLimits bar execution ↔ ¬ UnwatchedSide config decision.before decision.order bar
            price decision.equity) := by
  obtain ⟨decisions, hdecisions⟩ := execute_decisions orders portal portal' result h
  refine ⟨decisions, hdecisions, ?_⟩
  intro decision hmem bar price hbar hprice hforced execution hrecorded
  have htaken := hdecisions.taken decision hmem
  obtain ⟨plan, hfill, hside⟩ :=
    recorded_of_taken htaken (hdecisions.idle decision hmem) hrecorded
  have hplan := htaken.1
  rw [hbar, hprice, hfill] at hplan
  rw [← plan_within_limits_iff hforced hplan]
  unfold WithinLimits
  rw [hside, decide_eq_true_iff, decide_eq_false_iff_not]

end Batch

/-! ## A limit order on a bar at its limit -/

def limitUpBar : Bar where
  time := 0
  openPrice := 100
  high := 100
  low := 80
  closePrice := 100
  volume := 0
  extra := [("limit_up", .number 1)]

def limitUpMarket : MarketData :=
  singleMarket "USStock:X" ⟨[limitUpBar], List.pairwise_singleton _ _⟩

def tenHeld : Broker :=
  { Broker.create 1500 with
    availableCash := 500
    positions := Dict.ofPairs [(⟨"USStock:X", none⟩,
      { symbol := "USStock:X", amount := 10, avgCost := 100, lastPrice := 100 })]
    totalValue := 1500 }

/-- A limit order at 80 for a position worth 960: more than ten shares at 80, and less than ten at
100. -/
def limitAtEighty : OrderIntent where
  symbol := "USStock:X"
  kind := .targetValue
  value := 960
  orderType := .limit
  limitPrice := 80
  executionAlgo := .limit

/-- The block test takes the limit order for a sale, and it buys two shares on a bar at its upper
limit. -/
theorem limit_up_bar_bought :
    (decisionsAfter plainConfig tenHeld [limitAtEighty] (Portal.create limitUpMarket)).map
        (fun decision => (decision.order.forced, decision.bar.map fun bar => bar.flag "limit_up",
          (recorded decision).map fun execution => (execution.isBuy, execution.quantity))) =
      [(false, some true, [(true, 2)])] := by
  decide +kernel

/-- The batch of a fresh account that buys one share keeps to the side its bar admits. -/
theorem first_share_within_limits :
    ∃ result portal', (Broker.create 1000).execute plainConfig 0 Dict.empty [buy 1]
        (Portal.create (singleMarket "USStock:X" (flatFrame [(100, 0)]))) = .ok result portal' ∧
      ∃ decisions, DecisionsOf plainConfig (Broker.create 1000) [buy 1] result.1 result.2
          decisions ∧
        ∀ decision ∈ decisions, ∀ bar price, decision.bar = some bar →
          decision.openPrice = some price → decision.order.forced = false →
          ∀ execution ∈ recorded decision,
            (WithinLimits bar execution ↔ ¬ UnwatchedSide plainConfig decision.before
              decision.order bar price decision.equity) := by
  have hsome : (batchAfter plainConfig (Broker.create 1000) Dict.empty [buy 1]
      (Portal.create (singleMarket "USStock:X" (flatFrame [(100, 0)])))).isSome = true := by
    decide +kernel
  unfold batchAfter at hsome
  cases hrun : (Broker.create 1000).execute plainConfig 0 Dict.empty [buy 1]
      (Portal.create (singleMarket "USStock:X" (flatFrame [(100, 0)]))) with
  | error e portal' =>
    rw [hrun] at hsome
    cases hsome
  | ok result portal' => exact ⟨result, portal', rfl, limit_bars_iff hrun⟩

end QuantDinger.Analysis
