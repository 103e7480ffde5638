import QuantDinger.Analysis.BatchDecisions

/-!
# Thin volume

An order cut to the liquidity cap of its bar is filled by what is left of it and queued again for
the rest, unless what is left of it is less than a lot or below a minimum of the instrument: then
the whole order is rejected. What is left is the cap itself, or the excess over the gross limit
where the position stays over it (`coveredDelta`).
-/

namespace QuantDinger.Analysis

open QuantDinger.Library QuantDinger.Model

/-! ## A part of a feasible quantity is feasible -/

section Gross

variable {cap amount full part affordable lot : Amount}

theorem part_of_feasible_buy (hcap : 0 ≤ cap) (hlot : 0 < lot)
    (hlimit : -(cap + 1 / 10 ^ 12) ≤ amount + affordable)
    (hround : full ≤ grossFeasible cap amount affordable + lot / 2) (hless : part + lot ≤ full) :
    part < affordable ∧ amount + part ≤ cap + 1 / 10 ^ 12 := by
  have htol : (0 : Amount) < 1 / 10 ^ 12 := by norm_num
  unfold grossFeasible at hround
  by_cases hcut : cap + 1 / 10 ^ 12 < |amount + affordable|
  · have hpos : 0 ≤ amount + affordable := by
      by_contra hneg
      rw [abs_of_neg (not_le.mp hneg)] at hcut
      linarith
    rw [if_pos hcut, copysign_of_nonneg hpos, abs_of_nonneg hcap] at hround
    rw [abs_of_nonneg hpos] at hcut
    constructor <;> linarith
  · rw [if_neg hcut] at hround
    have habs := (abs_le.mp (not_lt.mp hcut)).2
    constructor <;> linarith

theorem part_of_feasible_sell (hcap : 0 ≤ cap) (hlot : 0 < lot)
    (hlimit : amount + full ≤ cap + 1 / 10 ^ 12)
    (hround : grossFeasible cap amount full ≤ full + lot / 2) (hless : full + lot ≤ part) :
    -(cap + 1 / 10 ^ 12) ≤ amount + part := by
  have htol : (0 : Amount) < 1 / 10 ^ 12 := by norm_num
  unfold grossFeasible at hround
  by_cases hcut : cap + 1 / 10 ^ 12 < |amount + full|
  · have hneg : amount + full < 0 := by
      by_contra hpos
      rw [abs_of_nonneg (not_lt.mp hpos)] at hcut
      linarith
    rw [if_pos hcut, copysign_of_neg hneg, abs_of_nonneg hcap] at hround
    linarith
  · have habs := (abs_le.mp (not_lt.mp hcut)).1
    linarith

end Gross

section Part

variable {config : BrokerConfig} {account : Account} {key : PositionKey} {current : Position}
  {full part price equity lot : Amount}

theorem feasibleDelta_eq_round
    (h : (feasibleDelta config account key current full price equity lot).1 ≠ 0) :
    (feasibleDelta config account key current full price equity lot).1 =
      roundToLot (grossFeasible (account.maxTargetAbs config key price equity) current.amount
        (account.cashFeasible config full price equity)) lot := by
  by_cases hturned : direction full ≠ 0 ∧
      direction (grossFeasible (account.maxTargetAbs config key price equity) current.amount
        (account.cashFeasible config full price equity)) ≠ 0 ∧
      direction (grossFeasible (account.maxTargetAbs config key price equity) current.amount
        (account.cashFeasible config full price equity)) ≠ direction full
  · refine absurd ?_ h
    unfold feasibleDelta
    dsimp only
    rw [if_pos hturned]
  · unfold feasibleDelta
    dsimp only
    rw [if_neg hturned]

theorem feasibleDelta_of_kept (hlot : 0 < lot) (hmultiple : IsMultiple lot part)
    (hcash : account.cashFeasible config part price equity = part)
    (hgross : |current.amount + part| ≤ account.maxTargetAbs config key price equity +
      1 / 10 ^ 12) :
    (feasibleDelta config account key current part price equity lot).1 = part := by
  have hkept : grossFeasible (account.maxTargetAbs config key price equity) current.amount part =
      part := if_neg (not_lt.mpr hgross)
  unfold feasibleDelta
  dsimp only
  rw [hcash, hkept, if_neg fun hturned => hturned.2.2 rfl]
  exact roundToLot_of_isMultiple hlot hmultiple

theorem feasibleDelta_part (hlot : 0 < lot)
    (hfull : (feasibleDelta config account key current full price equity lot).1 = full)
    (hne : full ≠ 0) (hmultiple : IsMultiple lot part) (hsign : 0 ≤ part * full)
    (hless : |part| + lot ≤ |full|)
    (hover : ¬ OverGross config account key current part price equity) :
    (feasibleDelta config account key current part price equity lot).1 = part := by
  have hcap := maxTargetAbs_nonneg config account key price equity
  have htol : (0 : Amount) < 1 / 10 ^ 12 := by norm_num
  have hround := feasibleDelta_eq_round (hfull.trans_ne hne)
  rw [hfull] at hround
  unfold OverGross OverLimit at hover
  rw [not_or, not_or, not_and, not_and, not_and, not_lt, not_lt, not_lt] at hover
  obtain ⟨hlong, hshort, hzero⟩ := hover
  rcases eq_or_ne part 0 with hpart | hpart
  · have hcash : account.cashFeasible config part price equity = part :=
      cashFeasible_of_nonpos hpart.le
    refine feasibleDelta_of_kept hlot hmultiple hcash ?_
    rw [hpart, add_zero]
    exact hzero hpart
  rcases lt_or_gt_of_ne hne with hsell | hbuy
  · have hneg : part < 0 :=
      lt_of_le_of_ne (nonpos_of_mul_nonneg_left hsign hsell) hpart
    rw [abs_of_neg hneg, abs_of_neg hsell] at hless
    have hcash : account.cashFeasible config part price equity = part :=
      cashFeasible_of_nonpos hneg.le
    have hlimit := hlong hneg
    rw [cashFeasible_of_nonpos hsell.le] at hround
    refine feasibleDelta_of_kept hlot hmultiple hcash ?_
    rw [abs_le]
    refine ⟨@part_of_feasible_sell _ _ full _ _ hcap hlot (by linarith) ?_ (by linarith), hlimit⟩
    have hhalf := @abs_roundToGrid_le_half lotTolerance (grossFeasible
      (account.maxTargetAbs config key price equity) current.amount full) lot hlot
    rw [← roundToLot_eq hlot, ← hround, abs_of_neg hsell] at hhalf
    rcases lt_or_ge (grossFeasible (account.maxTargetAbs config key price equity) current.amount
      full) 0 with hf | hf
    · rw [abs_of_neg hf] at hhalf
      linarith
    · exact absurd (hround ▸ roundToLot_nonneg hlot hf) (not_le.mpr hsell)
  · have hpos : 0 < part :=
      lt_of_le_of_ne (nonneg_of_mul_nonneg_left hsign hbuy) hpart.symm
    rw [abs_of_pos hpos, abs_of_pos hbuy] at hless
    have haffordable : account.cashFeasible config part price equity ≤
        account.cashFeasible config full price equity := by
      unfold Account.cashFeasible
      split_ifs with h h' h'
      · exact le_rfl
      · exact h.2.le.trans (by linarith)
      · exact not_lt.mp fun hlt => h ⟨hpos, hlt⟩
      · linarith
    have hlimit := hshort hpos
    have hhalf := @abs_roundToGrid_le_half lotTolerance (grossFeasible
      (account.maxTargetAbs config key price equity) current.amount
      (account.cashFeasible config full price equity)) lot hlot
    rw [← roundToLot_eq hlot, ← hround, abs_of_pos hbuy] at hhalf
    have hfits : full ≤ grossFeasible (account.maxTargetAbs config key price equity)
        current.amount (account.cashFeasible config full price equity) + lot / 2 := by
      rcases lt_or_ge 0 (grossFeasible (account.maxTargetAbs config key price equity)
        current.amount (account.cashFeasible config full price equity)) with hf | hf
      · rw [abs_of_pos hf] at hhalf
        exact hhalf
      · exact absurd (hround ▸ roundToLot_nonpos hlot hf) (not_le.mpr hbuy)
    obtain ⟨hless', hupper⟩ := @part_of_feasible_buy _ _ _ part _ _ hcap hlot (by linarith) hfits
      hless
    have hcash : account.cashFeasible config part price equity = part := by
      unfold Account.cashFeasible at hless' ⊢
      refine if_neg fun hpoor => ?_
      rw [if_pos ⟨hbuy, hpoor.2.trans (by linarith)⟩] at hless'
      exact absurd hless' hpoor.2.not_gt
    rw [hcash] at hlimit
    exact feasibleDelta_of_kept hlot hmultiple hcash (abs_le.mpr ⟨hlimit, hupper⟩)

end Part

/-! ## What is left of an order -/

instance (cap amount delta affordable : Amount) : Decidable (OverLimit cap amount delta affordable) :=
  inferInstanceAs (Decidable (_ ∨ _ ∨ _))

instance (config : BrokerConfig) (account : Account) (key : PositionKey) (current : Position)
    (delta price equity : Amount) :
    Decidable (OverGross config account key current delta price equity) :=
  inferInstanceAs (Decidable (OverLimit _ _ _ _))

/-- The liquidity cap of the bar is what binds an order that is sized and priced: the request
rounded to lots is a trade that the account check leaves alone, and it is above the cap. -/
structure OnlyLiquidity (config : BrokerConfig) (account : Account) (order : OrderIntent)
    (bar : Bar) (price equity fill limit : Amount) : Prop where
  unblocked : executionBlockReason config account order (some bar) (some price) = none
  asked : (sizeOrder config account order price equity).alreadyMet order = false
  priced : ∃ reference, fillPrice config order (some bar) price
    (sizeOrder config account order price equity).requestedDelta = .fill fill reference
  whole : config.lot order.symbol - 1 / 10 ^ 12 ≤
    |roundToLot (sizeOrder config account order price equity).requestedDelta
      (config.lot order.symbol)|
  feasible : (feasibleDelta config account order.key
      (sizeOrder config account order price equity).current
      (roundToLot (sizeOrder config account order price equity).requestedDelta
        (config.lot order.symbol)) fill equity (config.lot order.symbol)).1 =
    roundToLot (sizeOrder config account order price equity).requestedDelta
      (config.lot order.symbol)
  cap : orderCap order (some bar) (config.lot order.symbol) = some limit
  binding : limit < |roundToLot (sizeOrder config account order price equity).requestedDelta
    (config.lot order.symbol)|

/-- What the cap leaves of the order: the cap itself; the excess over the gross limit where the
position stays over it; the position where what is left of it closes with it. -/
def coveredDelta (config : BrokerConfig) (account : Account) (order : OrderIntent) (s : Sizing)
    (fill equity limit : Amount) : Trade :=
  let lot := config.lot order.symbol
  if (s.capLiquidity ⟨roundToLot s.requestedDelta lot, false⟩ (some limit) fill lot).exactClose then
    ⟨-s.current.amount, true⟩
  else if OverGross config account order.key s.current
      (copysign limit (roundToLot s.requestedDelta lot)) fill equity then
    ⟨roundToLot (copysign (account.maxTargetAbs config order.key fill equity) s.current.amount -
      s.current.amount) lot, false⟩
  else ⟨copysign limit (roundToLot s.requestedDelta lot), false⟩

/-- The part of the request that a quantity does not cover. -/
def uncovered (s : Sizing) (covered : Amount) : Amount := max 0 (|s.requestedDelta| - |covered|)

def remainderOf (order : OrderIntent) (s : Sizing) (covered : Amount) : OrderIntent :=
  { order with
    value := match order.kind with
      | .quantity => copysign (uncovered s covered) s.requestedDelta
      | .value => copysign (uncovered s covered * s.sizingPrice) s.requestedDelta
      | _ => order.value
    attempts := if order.isLimit then order.attempts else order.attempts + 1
    pendingDirection := if 0 < s.requestedDelta then 1 else -1 }

/-- A quantity is traded: it is a lot at least, and above the minima of the instrument.
SOURCE: runtime.py:982-1023 -/
def Placeable (config : BrokerConfig) (order : OrderIntent) (s : Sizing) (fill : Amount)
    (trade : Trade) : Prop :=
  trade.belowLot (config.lot order.symbol) = false ∧
    belowMinimum (config.rulesFor order.symbol) order s.current.amount fill trade = none

/-- The uncovered part is still tradable.
SOURCE: runtime.py:1025-1029 -/
def RestTradable (config : BrokerConfig) (order : OrderIntent) (s : Sizing)
    (fill covered : Amount) : Prop :=
  config.lot order.symbol ≤ uncovered s covered + 1 / 10 ^ 12 ∧
    1 / 100 ≤ uncovered s covered * fill + 1 / 10 ^ 12

section Order

variable {config : BrokerConfig} {account : Account} {order : OrderIntent} {bar : Bar}
  {price equity fill limit : Amount}

theorem not_forced_of_cap {lot : Amount} {bar : Option Bar} (h : orderCap order bar lot = some limit) :
    order.forced = false := by
  unfold orderCap at h
  by_cases hforced : order.forced = true
  · rw [if_pos hforced] at h
    cases h
  · exact Bool.eq_false_iff.mpr hforced

theorem cap_of_orderCap {lot : Amount} {bar : Option Bar} (hlot : 0 < lot)
    (h : orderCap order bar lot = some limit) : IsMultiple lot limit ∧ 0 ≤ limit := by
  unfold orderCap at h
  rw [not_forced_of_cap h, if_neg Bool.false_ne_true] at h
  refine ⟨isMultiple_liquidityCap h, ?_⟩
  unfold liquidityCap at h
  dsimp only at h
  by_cases hvolume : (bar.map Bar.volume).getD 0 ≤ 0
  · rw [if_pos hvolume] at h
    cases h
  rw [if_neg hvolume] at h
  cases h
  have hpos := not_le.mp hvolume
  have hfloor : 0 ≤ ⌊(bar.map Bar.volume).getD 0 * (1 / 10) / lot + 1 / 10 ^ 10⌋ :=
    Int.floor_nonneg.mpr (by positivity)
  have hcast : (0 : Amount) ≤ ⌊(bar.map Bar.volume).getD 0 * (1 / 10) / lot + 1 / 10 ^ 10⌋ := by
    exact_mod_cast hfloor
  positivity

theorem add_lot_le_of_lt {lot x y : Amount} (hlot : 0 < lot) (hx : IsMultiple lot x)
    (hy : IsMultiple lot y) (h : x < y) : x + lot ≤ y := by
  obtain ⟨n, rfl⟩ := hx
  obtain ⟨m, rfl⟩ := hy
  have hless : n < m := by
    have hcast := lt_of_mul_lt_mul_right h hlot.le
    exact_mod_cast hcast
  have hstep : ((n + 1 : ℤ) : Amount) ≤ m := by exact_mod_cast hless
  push_cast at hstep
  nlinarith

namespace OnlyLiquidity

variable (h : OnlyLiquidity config account order bar price equity fill limit)

include h

theorem rounded :
    (sizeOrder config account order price equity).roundRequest fill (config.lot order.symbol) =
      ⟨roundToLot (sizeOrder config account order price equity).requestedDelta
        (config.lot order.symbol), false⟩ := by
  unfold Sizing.roundRequest
  exact if_neg fun hsmall => absurd hsmall.2.1 (not_lt.mpr h.whole)

theorem trade_eq :
    (⟨(feasibleTrade config account order (sizeOrder config account order price equity).current
        ((sizeOrder config account order price equity).capLiquidity
          ⟨roundToLot (sizeOrder config account order price equity).requestedDelta
            (config.lot order.symbol), false⟩ (some limit) fill (config.lot order.symbol)) fill
        equity (config.lot order.symbol)).1,
      ((sizeOrder config account order price equity).capLiquidity
        ⟨roundToLot (sizeOrder config account order price equity).requestedDelta
          (config.lot order.symbol), false⟩ (some limit) fill
        (config.lot order.symbol)).exactClose⟩ : Trade) =
      coveredDelta config account order (sizeOrder config account order price equity) fill equity
        limit := by
  have hlot := config.lot_pos order.symbol
  obtain ⟨hmultiple, hnonneg⟩ := cap_of_orderCap hlot h.cap
  have hfeasible := h.feasible
  have hbinding := h.binding
  have hforced := not_forced_of_cap h.cap
  have hround : IsMultiple (config.lot order.symbol)
      (roundToLot (sizeOrder config account order price equity).requestedDelta
        (config.lot order.symbol)) := isMultiple_roundToLot hlot
  unfold coveredDelta
  dsimp only
  generalize sizeOrder config account order price equity = s at *
  generalize roundToLot s.requestedDelta (config.lot order.symbol) = full at *
  have hne : full ≠ 0 := by
    intro hzero
    rw [hzero, abs_zero] at hbinding
    exact absurd hbinding (not_lt.mpr hnonneg)
  have hcut : (⟨full, false⟩ : Trade).capTo (some limit) = ⟨copysign limit full, false⟩ :=
    if_pos hbinding
  have hcases : s.capLiquidity ⟨full, false⟩ (some limit) fill (config.lot order.symbol) =
        ⟨-s.current.amount, true⟩ ∨
      s.capLiquidity ⟨full, false⟩ (some limit) fill (config.lot order.symbol) =
        ⟨copysign limit full, false⟩ := by
    unfold Sizing.capLiquidity
    dsimp only
    rw [hcut]
    exact (ite_eq_or_eq _ _ _)
  unfold feasibleTrade
  rcases hcases with hclosed | hcapped
  · rw [hclosed, if_pos rfl, if_pos (Or.inr rfl)]
  · rw [hcapped, if_neg Bool.false_ne_true, if_neg]
    · dsimp only
      by_cases hover : OverGross config account order.key s.current (copysign limit full) fill equity
      · rw [if_pos hover, (feasibleDelta_of_over hover).1]
      · rw [if_neg hover, feasibleDelta_part hlot hfeasible hne hmultiple.copysign ?_ ?_ hover]
        · rcases lt_or_gt_of_ne hne with hsell | hbuy
          · rw [copysign_of_neg hsell]
            exact mul_nonneg_of_nonpos_of_nonpos (neg_nonpos.mpr (abs_nonneg _)) hsell.le
          · rw [copysign_of_nonneg hbuy.le]
            exact mul_nonneg (abs_nonneg _) hbuy.le
        · rw [abs_copysign, abs_of_nonneg hnonneg]
          refine add_lot_le_of_lt hlot hmultiple ?_ hbinding
          rcases abs_choice full with habs | habs
          · rw [habs]
            exact hround
          · rw [habs]
            exact hround.neg
    · rw [hforced]
      simp

theorem outcome_cases {outcome : Outcome}
    (hplan : planOrder config account order (some bar) (some price) equity = .ok outcome) :
    (Placeable config order (sizeOrder config account order price equity) fill
        (coveredDelta config account order (sizeOrder config account order price equity) fill
          equity limit) →
      ∃ plan, outcome = .fill plan ∧ plan.fillPrice = fill ∧ plan.lot = config.lot order.symbol ∧
        plan.sizing = sizeOrder config account order price equity ∧
        plan.delta = (coveredDelta config account order
          (sizeOrder config account order price equity) fill equity limit).delta) ∧
    (¬ Placeable config order (sizeOrder config account order price equity) fill
        (coveredDelta config account order (sizeOrder config account order price equity) fill
          equity limit) → ∃ reason requested, outcome = .rejected reason requested) := by
  obtain ⟨reference, hpriced⟩ := h.priced
  have htrade := h.trade_eq
  have hdecide : planOrder config account order (some bar) (some price) equity =
      .ok (planFill config account order (some bar) equity
        (sizeOrder config account order price equity) fill reference) := by
    unfold planOrder
    rw [not_forced_of_cap h.cap, if_neg Bool.false_ne_true, h.unblocked]
    dsimp only
    unfold decideOrder
    dsimp only
    rw [h.asked, if_neg Bool.false_ne_true, hpriced]
  rw [hdecide, Except.ok.injEq] at hplan
  have hwhole : (⟨roundToLot (sizeOrder config account order price equity).requestedDelta
      (config.lot order.symbol), false⟩ : Trade).belowLot (config.lot order.symbol) = false := by
    unfold Trade.belowLot
    rw [decide_eq_false (not_lt.mpr h.whole)]
    rfl
  unfold planFill at hplan
  dsimp only at hplan
  rw [h.rounded, hwhole, if_neg Bool.false_ne_true, h.cap, htrade] at hplan
  unfold Placeable
  by_cases hlots : (coveredDelta config account order (sizeOrder config account order price equity)
      fill equity limit).belowLot (config.lot order.symbol) = true
  · rw [if_pos hlots] at hplan
    refine ⟨fun hplaceable => ?_, fun _ => ⟨_, _, hplan.symm⟩⟩
    rw [hlots] at hplaceable
    exact Bool.noConfusion hplaceable.1
  rw [if_neg hlots] at hplan
  rw [Bool.not_eq_true] at hlots
  cases hminimum : belowMinimum (config.rulesFor order.symbol) order
      (sizeOrder config account order price equity).current.amount fill
      (coveredDelta config account order (sizeOrder config account order price equity) fill equity
        limit) with
  | some reason =>
    rw [hminimum] at hplan
    refine ⟨fun hplaceable => ?_, fun _ => ⟨_, _, hplan.symm⟩⟩
    cases hplaceable.2
  | none =>
    rw [hminimum] at hplan
    refine ⟨fun _ => ⟨_, hplan.symm, rfl, rfl, rfl, congrArg Trade.delta htrade⟩, fun hnot => ?_⟩
    exact absurd ⟨hlots, rfl⟩ hnot

theorem carried_iff {outcome : Outcome}
    (hplan : planOrder config account order (some bar) (some price) equity = .ok outcome)
    (hrest : RestTradable config order (sizeOrder config account order price equity) fill
      (coveredDelta config account order (sizeOrder config account order price equity) fill equity
        limit).delta) (hagain : order.isLimit = true ∨ order.attempts < 4) :
    carriedOrder order outcome = some (remainderOf order
        (sizeOrder config account order price equity)
        (coveredDelta config account order (sizeOrder config account order price equity) fill
          equity limit).delta) ↔
      Placeable config order (sizeOrder config account order price equity) fill
        (coveredDelta config account order (sizeOrder config account order price equity) fill
          equity limit) := by
  obtain ⟨hfilled, hrejected⟩ := h.outcome_cases hplan
  by_cases hplaceable : Placeable config order (sizeOrder config account order price equity) fill
      (coveredDelta config account order (sizeOrder config account order price equity) fill
        equity limit)
  · refine iff_of_true ?_ hplaceable
    obtain ⟨plan, rfl, hprice, hlot, hsizing, hdelta⟩ := hfilled hplaceable
    have hremaining : plan.remainingQuantity = uncovered
        (sizeOrder config account order price equity) (coveredDelta config account order
          (sizeOrder config account order price equity) fill equity limit).delta := by
      unfold FillPlan.remainingQuantity uncovered
      rw [hsizing, hdelta]
    have hremainder : plan.hasTradableRemainder = true := by
      refine Bool.and_eq_true_iff.mpr ⟨decide_eq_true ?_, decide_eq_true ?_⟩
      · rw [hremaining, hlot]
        exact hrest.1
      · rw [hremaining, hprice]
        exact hrest.2
    have hcovers : plan.status = .partialFill := if_pos hremainder
    show plan.remainder order = _
    unfold FillPlan.remainder remainderOf FillPlan.remainingValue
    cases hkind : order.kind with
    | quantity => simp only [hcovers, hagain, hremaining, hsizing, and_self, if_true]
    | value => simp only [hcovers, hagain, hremaining, hsizing, and_self, if_true]
    | targetQuantity => simp only [hcovers, hagain, hsizing, and_self, if_true]
    | targetValue => simp only [hcovers, hagain, hsizing, and_self, if_true]
    | targetPercent => simp only [hcovers, hagain, hsizing, and_self, if_true]
  · refine iff_of_false ?_ hplaceable
    obtain ⟨reason, requested, rfl⟩ := hrejected hplaceable
    exact fun hnone => nomatch hnone

end OnlyLiquidity

end Order

/-! ## The orders of a batch -/

section Batch

variable {config : BrokerConfig} {ts : Time}

/-- **Thin volume in a batch.** In every batch, whatever was filled in it before, an order that
only the liquidity cap of its bar binds, and whose uncovered part is still tradable, goes on for
that part if and only if what the cap leaves of it is traded. -/
theorem thin_volume_iff {broker : Broker} {overrides : Dict PositionKey Amount}
    {orders : List OrderIntent} {portal portal' : Portal} {result : List OrderIntent × Broker}
    (h : broker.execute config ts overrides orders portal = .ok result portal') :
    ∃ decisions, DecisionsOf config broker orders result.1 result.2 decisions ∧
      ∀ decision ∈ decisions, ∀ bar price fill limit, decision.bar = some bar →
        decision.openPrice = some price →
        OnlyLiquidity config decision.before decision.order bar price decision.equity fill limit →
        RestTradable config decision.order
          (sizeOrder config decision.before decision.order price decision.equity) fill
          (coveredDelta config decision.before decision.order
            (sizeOrder config decision.before decision.order price decision.equity) fill
            decision.equity limit).delta →
        decision.order.isLimit = true ∨ decision.order.attempts < 4 →
        (carriedOrder decision.order decision.outcome = some (remainderOf decision.order
            (sizeOrder config decision.before decision.order price decision.equity)
            (coveredDelta config decision.before decision.order
              (sizeOrder config decision.before decision.order price decision.equity) fill
              decision.equity limit).delta) ↔
          Placeable config decision.order
            (sizeOrder config decision.before decision.order price decision.equity) fill
            (coveredDelta config decision.before decision.order
              (sizeOrder config decision.before decision.order price decision.equity) fill
              decision.equity limit)) := by
  obtain ⟨decisions, hdecisions⟩ := execute_decisions orders portal portal' result h
  refine ⟨decisions, hdecisions, ?_⟩
  intro decision hmem bar price fill limit hbar hprice honly hrest hagain
  have hplan := (hdecisions.taken decision hmem).1
  rw [hbar, hprice] at hplan
  exact honly.carried_iff hplan hrest hagain

end Batch

/-! ## A cap of no lots -/

def limitBuyTen : OrderIntent where
  symbol := "USStock:X"
  kind := .quantity
  value := 10
  orderType := .limit
  limitPrice := 100
  executionAlgo := .limit

def freshDecisions (volume : Amount) (order : OrderIntent) : List Decision :=
  decisionsAfter plainConfig (Broker.create 10000) [order]
    (Portal.create (singleMarket "USStock:X" (flatFrame [(100, volume)])))

/-- A volume of 5 caps the order at no share, and the order is rejected: the ten shares would have
been filled without the cap. -/
theorem thin_volume_rejects :
    ((freshDecisions 5 limitBuyTen).map fun decision => (decision.outcome,
        carriedOrder decision.order decision.outcome)) =
      [(.rejected .positionLimit 10, none)] ∧
    ((freshDecisions 0 limitBuyTen).map fun decision => match decision.outcome with
        | .fill plan => (plan.delta, plan.status)
        | _ => (0, .rejected)) = [(10, .filled)] ∧
    (orderCap limitBuyTen (some (flatBar 0 100 5)) 1 = some 0) := by
  decide +kernel

theorem capped_buy_decided :
    (batchAfter plainConfig (Broker.create 10000) Dict.empty [limitBuyTen]
        (Portal.create (singleMarket "USStock:X" (flatFrame [(100, 50)])))).isSome = true ∧
      (freshDecisions 50 limitBuyTen).length = 1 ∧
      ∀ decision ∈ freshDecisions 50 limitBuyTen, decision.order = limitBuyTen ∧
        decision.bar = some (flatBar 0 100 50) ∧ decision.openPrice = some 100 ∧
        executionBlockReason plainConfig decision.before limitBuyTen (some (flatBar 0 100 50))
          (some 100) = none ∧
        (sizeOrder plainConfig decision.before limitBuyTen 100 decision.equity).alreadyMet
          limitBuyTen = false ∧
        (sizeOrder plainConfig decision.before limitBuyTen 100 decision.equity).requestedDelta = 10 ∧
        (feasibleDelta plainConfig decision.before limitBuyTen.key
          (sizeOrder plainConfig decision.before limitBuyTen 100 decision.equity).current 10 100
          decision.equity 1).1 = 10 ∧
        coveredDelta plainConfig decision.before limitBuyTen
          (sizeOrder plainConfig decision.before limitBuyTen 100 decision.equity) 100
          decision.equity 5 = ⟨5, false⟩ := by
  decide +kernel

/-- A volume of 50 caps the order at five shares, and it goes on for the other five. -/
theorem thin_volume_carries :
    ∃ result portal', (Broker.create 10000).execute plainConfig 0 Dict.empty [limitBuyTen]
        (Portal.create (singleMarket "USStock:X" (flatFrame [(100, 50)]))) = .ok result portal' ∧
      ∃ decisions, DecisionsOf plainConfig (Broker.create 10000) [limitBuyTen] result.1 result.2
          decisions ∧
        decisions.length = 1 ∧ ∀ decision ∈ decisions,
          (carriedOrder decision.order decision.outcome = some (remainderOf limitBuyTen
              (sizeOrder plainConfig decision.before limitBuyTen 100 decision.equity) 5) ↔
            Placeable plainConfig limitBuyTen
              (sizeOrder plainConfig decision.before limitBuyTen 100 decision.equity) 100
              ⟨5, false⟩) := by
  obtain ⟨hsome, hlength, hfacts⟩ := capped_buy_decided
  unfold batchAfter at hsome
  cases hrun : (Broker.create 10000).execute plainConfig 0 Dict.empty [limitBuyTen]
      (Portal.create (singleMarket "USStock:X" (flatFrame [(100, 50)]))) with
  | error e portal' =>
    rw [hrun] at hsome
    cases hsome
  | ok result portal' =>
    obtain ⟨decisions, hdecisions, hiff⟩ := thin_volume_iff hrun
    have hsame : decisions = freshDecisions 50 limitBuyTen :=
      decisions_eq_decisionsAfter hrun hdecisions
    refine ⟨result, portal', rfl, decisions, hdecisions, hsame ▸ hlength, ?_⟩
    intro decision hmem
    obtain ⟨horder, hbar, hprice, hblocked, hmet, hrequest, hfeasible, hcovered⟩ :=
      hfacts decision (hsame ▸ hmem)
    have hround : roundToLot (sizeOrder plainConfig decision.before limitBuyTen 100
        decision.equity).requestedDelta (plainConfig.lot limitBuyTen.symbol) = 10 := by
      rw [hrequest]
      decide +kernel
    have honly : OnlyLiquidity plainConfig decision.before limitBuyTen (flatBar 0 100 50) 100
        decision.equity 100 5 := by
      refine ⟨hblocked, hmet, ⟨.gapOpen, ?_⟩, ?_, ?_, ?_, ?_⟩
      · rw [hrequest]
        rfl
      · rw [hround]
        decide +kernel
      · rw [hround]
        exact hfeasible
      · decide +kernel
      · rw [hround]
        decide +kernel
    have hbatch := hiff decision hmem (flatBar 0 100 50) 100 100 5 hbar hprice
      (horder ▸ honly)
    rw [horder, hcovered] at hbatch
    rw [horder]
    refine hbatch ?_ (Or.inl rfl)
    unfold RestTradable uncovered
    rw [hrequest]
    decide +kernel

end QuantDinger.Analysis
