import QuantDinger.Analysis.RequestBound

/-!
# Borrowing and exposure of a batch

`_feasible_delta` cuts a fill to the cash above the borrowing floor of the batch, and its
target to the gross limit next to the other positions. The second cut comes last and does
not look at the cash again: a short position over its limit is bought back by the whole
excess (`OverspentBuy`), and only such a purchase can pass the floor. Both bounds hold up to
the tolerances of the source: `10⁻¹²` on the position, and the rounding to lots.
-/

namespace QuantDinger.Analysis

open QuantDinger.Library QuantDinger.Model

/-! ## The two bounds -/

/-- What a trade takes out of the cash: its notional and its commission. -/
def costOf (config : BrokerConfig) (price quantity : Amount) : Amount :=
  quantity * price + |quantity * price| * config.commission

/-- How far the rounding to lots may pass a quantity. -/
def roundingSlack (quantity lot : Amount) : Amount := lotTolerance (|quantity| / lot) * lot

/-- What the account check leaves of a quantity, before the rounding.
SOURCE: runtime.py:1246-1262 -/
def feasibleQuantity (config : BrokerConfig) (account : Account) (key : PositionKey)
    (current : Position) (delta price equity : Amount) : Amount :=
  grossFeasible (account.maxTargetAbs config key price equity) current.amount
    (account.cashFeasible config delta price equity)

/-- A purchase leaves the cash above the floor, or where it was. -/
def CashKept (config : BrokerConfig) (equity slack : Amount) (plan : FillPlan)
    (before after : Account) : Prop :=
  0 < plan.delta → min before.availableCash (-equity * (config.leverage - 1)) ≤
    after.availableCash + costOf config plan.fillPrice slack

/-- A fill that enlarges or turns the position leaves it, up to the tolerance, within the gross
limit next to the other positions. -/
def ExposureKept (config : BrokerConfig) (equity tolerance : Amount) (key : PositionKey)
    (plan : FillPlan) (before after : Account) : Prop :=
  |before.amountAt key| < |after.amountAt key| ∨
      before.amountAt key * after.amountAt key < 0 →
    |after.amountAt key| ≤ tolerance ∨
      (|after.amountAt key| - tolerance) * plan.fillPrice + after.grossValue key ≤
        equity * config.leverage

/-- The whole lots by which a position is over its limit. -/
def excessLots (config : BrokerConfig) (account : Account) (key : PositionKey)
    (amount price equity lot : Amount) : Amount :=
  roundToLot (copysign (account.maxTargetAbs config key price equity) amount - amount) lot

/-- A short position over its limit is bought back by lots that the cash above the floor does
not pay for. -/
def OverspentAt (config : BrokerConfig) (account : Account) (key : PositionKey)
    (current : Position) (delta price equity lot : Amount) : Prop :=
  OverGross config account key current delta price equity ∧
    0 < excessLots config account key current.amount price equity lot ∧
    account.spendable config equity + costOf config price (roundingSlack
        (copysign (account.maxTargetAbs config key price equity) current.amount -
          current.amount) lot) <
      costOf config price (excessLots config account key current.amount price equity lot)

/-- The order would be filled so: its fill price, and the quantity that the rounding and the
liquidity cap leave at that price. -/
def OverspentBuy (config : BrokerConfig) (account : Account) (order : OrderIntent)
    (bar : Option Bar) (s : Sizing) (equity : Amount) : Prop :=
  ∃ price reference, fillPrice config order bar s.openPrice s.requestedDelta =
      .fill price reference ∧
    OverspentAt config account order.key s.current
      (s.capLiquidity (s.roundRequest price (config.lot order.symbol))
        (orderCap order bar (config.lot order.symbol)) price (config.lot order.symbol)).delta
      price equity (config.lot order.symbol)

/-! ## The account check -/

section Check

variable {config : BrokerConfig} {account : Account} {key : PositionKey} {current : Position}
  {delta price equity lot : Amount}

theorem roundingSlack_nonneg (quantity : Amount) (hlot : 0 < lot) :
    0 ≤ roundingSlack quantity lot :=
  mul_nonneg (lotTolerance_pos _).le hlot.le

theorem abs_add_grossFeasible {cap amount affordable : Amount} (hcap : 0 ≤ cap) :
    |amount + grossFeasible cap amount affordable| ≤ cap + 1 / 10 ^ 12 := by
  have htol : (0 : Amount) < 1 / 10 ^ 12 := by norm_num
  unfold grossFeasible
  split_ifs with hover
  · have hcancel : amount + (copysign cap (amount + affordable) - amount) =
        copysign cap (amount + affordable) := by ring
    rw [hcancel, abs_copysign, abs_of_nonneg hcap]
    linarith
  · exact not_lt.mp hover

theorem grossFeasible_le {cap amount affordable : Amount}
    (hshort : -(cap + 1 / 10 ^ 12) ≤ amount + affordable) (hcap : 0 ≤ cap) :
    grossFeasible cap amount affordable ≤ affordable := by
  have htol : (0 : Amount) < 1 / 10 ^ 12 := by norm_num
  unfold grossFeasible
  split_ifs with hover
  · have hpos : 0 ≤ amount + affordable := by
      by_contra hneg
      rw [not_le] at hneg
      rw [abs_of_neg hneg] at hover
      linarith
    rw [abs_of_nonneg hpos] at hover
    rw [copysign_of_nonneg hpos, abs_of_nonneg hcap]
    linarith
  · exact le_refl _

theorem feasibleDelta_cases (hlot : 0 < lot) :
    ((feasibleDelta config account key current delta price equity lot).1 = 0) ∨
      ((direction delta ≠ 0 →
          direction (feasibleQuantity config account key current delta price equity) ≠ 0 →
          direction (feasibleQuantity config account key current delta price equity) =
            direction delta) ∧
        (feasibleDelta config account key current delta price equity lot).1 =
          roundToLot (feasibleQuantity config account key current delta price equity) lot ∧
        |(feasibleDelta config account key current delta price equity lot).1| ≤
          |feasibleQuantity config account key current delta price equity| +
            roundingSlack (feasibleQuantity config account key current delta price equity) lot) := by
  by_cases hguard : direction delta ≠ 0 ∧
      direction (feasibleQuantity config account key current delta price equity) ≠ 0 ∧
      direction (feasibleQuantity config account key current delta price equity) ≠ direction delta
  · left
    unfold feasibleDelta
    dsimp only
    unfold feasibleQuantity at hguard
    rw [if_pos hguard]
  · right
    have hrounded : (feasibleDelta config account key current delta price equity lot).1 =
        roundToLot (feasibleQuantity config account key current delta price equity) lot := by
      unfold feasibleDelta feasibleQuantity
      dsimp only
      unfold feasibleQuantity at hguard
      rw [if_neg hguard]
    refine ⟨fun hdelta hfeasible => ?_, hrounded, ?_⟩
    · by_contra hne
      exact hguard ⟨hdelta, hfeasible, hne⟩
    · rw [hrounded]
      exact abs_roundToLot_le hlot

theorem pos_of_roundToLot_pos {value : Amount} (hlot : 0 < lot)
    (h : 0 < roundToLot value lot) : 0 < value := by
  by_contra hnonpos
  exact absurd (roundToLot_nonpos hlot (not_lt.mp hnonpos)) (not_le.mpr h)

theorem cost_of_not_over (hlot : 0 < lot) (hprice : 0 < delta → 0 < price)
    (hover : ¬ OverGross config account key current delta price equity)
    (hbuy : 0 < (feasibleDelta config account key current delta price equity lot).1) :
    costOf config price (feasibleDelta config account key current delta price equity lot).1 ≤
      account.spendable config equity + costOf config price (roundingSlack
        (feasibleQuantity config account key current delta price equity) lot) := by
  have hcap := maxTargetAbs_nonneg config account key price equity
  obtain ⟨hbounds, hsell⟩ := @affordable_bounds config account delta price equity
  have hslack := roundingSlack_nonneg
    (feasibleQuantity config account key current delta price equity) hlot
  rcases @feasibleDelta_cases config account key current delta price equity lot hlot with
    hzero | ⟨hdirection, hrounded, habs⟩
  · rw [hzero] at hbuy
    exact absurd hbuy (lt_irrefl 0)
  have hfeasible : 0 < feasibleQuantity config account key current delta price equity := by
    rw [hrounded] at hbuy
    exact pos_of_roundToLot_pos hlot hbuy
  obtain ⟨hle, hge⟩ := grossFeasible_of_not_overLimit hcap hbounds hsell hover
  -- A sale is not turned into a purchase, and nothing is bought without an order.
  have hdelta : 0 < delta := by
    rcases lt_trichotomy delta 0 with hneg | hzero | hpos
    · have hsame := hdirection (fun h => hneg.ne (direction_eq_zero.mp h))
        (fun h => hfeasible.ne' (direction_eq_zero.mp h))
      have hproduct := (direction_eq_iff hfeasible.ne' hneg.ne).mp hsame
      exact absurd hproduct (not_lt.mpr (mul_nonpos_of_nonneg_of_nonpos hfeasible.le hneg.le))
    · exact absurd hfeasible (not_lt.mpr ((hle hzero.ge).trans hzero.le))
    · exact hpos
  have hp := hprice hdelta
  have hunit : 0 < price * (1 + config.commission) :=
    mul_pos hp (by linarith [config.commission_nonneg])
  have hcost : ∀ quantity, 0 ≤ quantity →
      costOf config price quantity = quantity * (price * (1 + config.commission)) := by
    intro quantity hquantity
    unfold costOf
    rw [abs_of_nonneg (mul_nonneg hquantity hp.le)]
    ring
  have haffordable : feasibleQuantity config account key current delta price equity ≤
      account.cashFeasible config delta price equity := by
    refine grossFeasible_le ?_ hcap
    unfold OverGross OverLimit at hover
    simp only [not_or, not_and, not_lt] at hover
    exact hover.2.1 hdelta
  have hcash : account.cashFeasible config delta price equity ≤
      account.cashCap config price equity := by
    unfold Account.cashFeasible
    split_ifs with hcut
    · exact le_refl _
    · exact not_lt.mp fun hlt => hcut ⟨hdelta, hlt⟩
  have hspend : feasibleQuantity config account key current delta price equity *
      (price * (1 + config.commission)) ≤ account.spendable config equity := by
    have hmax : 0 < max (price * (1 + config.commission)) (1 / 10 ^ 12) :=
      lt_max_of_lt_left hunit
    calc feasibleQuantity config account key current delta price equity *
          (price * (1 + config.commission))
        ≤ account.cashCap config price equity * (price * (1 + config.commission)) :=
          mul_le_mul_of_nonneg_right (haffordable.trans hcash) hunit.le
      _ ≤ account.cashCap config price equity *
            max (price * (1 + config.commission)) (1 / 10 ^ 12) :=
          mul_le_mul_of_nonneg_left (le_max_left _ _) (cashCap_nonneg config account price equity)
      _ = account.spendable config equity := div_mul_cancel₀ _ hmax.ne'
  rw [abs_of_pos hbuy, abs_of_pos hfeasible] at habs
  rw [hcost _ hbuy.le, hcost _ hslack]
  have hscaled := mul_le_mul_of_nonneg_right habs hunit.le
  rw [add_mul] at hscaled
  linarith

theorem abs_add_le_of_grown {a f r slack bound : Amount} (hbound : |a + f| ≤ bound)
    (hsame : 0 ≤ r * f) (hr : |r| ≤ |f| + slack) (hgrown : |a| < |a + r| ∨ a * (a + r) < 0) :
    |a + r| ≤ bound + slack := by
  have hle := abs_le.mp hbound
  rcases lt_trichotomy r 0 with hneg | hzero | hpos
  · have hf : f ≤ 0 := nonpos_of_mul_nonneg_right hsame hneg
    rw [abs_of_neg hneg, abs_of_nonpos hf] at hr
    have htarget : a + r < 0 := by
      rcases hgrown with hlarger | hturned
      · by_contra hge
        rw [abs_of_nonneg (not_lt.mp hge), abs_of_nonneg (by linarith)] at hlarger
        linarith
      · by_contra hge
        exact absurd hturned (not_lt.mpr (mul_nonneg (by linarith) (not_lt.mp hge)))
    rw [abs_of_neg htarget]
    linarith
  · rw [hzero, add_zero] at hgrown
    rcases hgrown with hlarger | hturned
    · exact absurd hlarger (lt_irrefl _)
    · exact absurd hturned (not_lt.mpr (mul_self_nonneg _))
  · have hf : 0 ≤ f := nonneg_of_mul_nonneg_right hsame hpos
    rw [abs_of_pos hpos, abs_of_nonneg hf] at hr
    have htarget : 0 < a + r := by
      rcases hgrown with hlarger | hturned
      · by_contra hle
        rw [abs_of_nonpos (not_lt.mp hle), abs_of_nonpos (by linarith)] at hlarger
        linarith
      · by_contra hle
        exact absurd hturned
          (not_lt.mpr (mul_nonneg_of_nonpos_of_nonpos (by linarith) (not_lt.mp hle)))
    rw [abs_of_pos htarget]
    linarith

theorem abs_target_le (hlot : 0 < lot)
    (hgrown : |current.amount| <
        |current.amount + (feasibleDelta config account key current delta price equity lot).1| ∨
      current.amount *
        (current.amount + (feasibleDelta config account key current delta price equity lot).1) < 0) :
    |current.amount + (feasibleDelta config account key current delta price equity lot).1| ≤
      account.maxTargetAbs config key price equity + (1 / 10 ^ 12 + roundingSlack
        (feasibleQuantity config account key current delta price equity) lot) := by
  have htarget := @abs_add_grossFeasible _ current.amount
    (account.cashFeasible config delta price equity)
    (maxTargetAbs_nonneg config account key price equity)
  rw [← add_assoc]
  rcases @feasibleDelta_cases config account key current delta price equity lot hlot with
    hzero | ⟨-, hrounded, habs⟩
  · rw [hzero, add_zero] at hgrown
    rcases hgrown with hlt | hneg
    · exact absurd hlt (lt_irrefl _)
    · exact absurd hneg (not_lt.mpr (mul_self_nonneg _))
  · refine abs_add_le_of_grown htarget ?_ habs hgrown
    rw [hrounded]
    rcases le_total 0 (feasibleQuantity config account key current delta price equity) with hf | hf
    · exact mul_nonneg (roundToLot_nonneg hlot hf) hf
    · exact mul_nonneg_of_nonpos_of_nonpos (roundToLot_nonpos hlot hf) hf

theorem exposure_of_target {amount tolerance : Amount}
    (h : |amount| ≤ account.maxTargetAbs config key price equity + tolerance) :
    |amount| ≤ tolerance ∨
      (|amount| - tolerance) * price + account.grossValue key ≤ equity * config.leverage := by
  by_cases hsmall : |amount| ≤ tolerance
  · exact Or.inl hsmall
  right
  have hrest : 0 < |amount| - tolerance := by linarith [not_le.mp hsmall]
  have hmax : (0 : Amount) < max price (1 / 10 ^ 12) := lt_max_of_lt_right (by norm_num)
  have hcap : 0 < account.maxTargetAbs config key price equity := by linarith
  have hlimit : 0 < equity * config.leverage - account.grossValue key := by
    by_contra hnone
    unfold Account.maxTargetAbs at hcap
    rw [max_eq_left (not_lt.mp hnone), zero_div] at hcap
    exact lt_irrefl 0 hcap
  have htotal : account.maxTargetAbs config key price equity * max price (1 / 10 ^ 12) =
      equity * config.leverage - account.grossValue key := by
    unfold Account.maxTargetAbs
    rw [div_mul_cancel₀ _ hmax.ne', max_eq_right hlimit.le]
  have hle : (|amount| - tolerance) * price ≤ equity * config.leverage - account.grossValue key :=
    calc (|amount| - tolerance) * price
        ≤ (|amount| - tolerance) * max price (1 / 10 ^ 12) :=
          mul_le_mul_of_nonneg_left (le_max_left _ _) hrest.le
      _ ≤ account.maxTargetAbs config key price equity * max price (1 / 10 ^ 12) :=
          mul_le_mul_of_nonneg_right (by linarith) hmax.le
      _ = equity * config.leverage - account.grossValue key := htotal
  linarith

end Check

/-! ## A fill -/

section Fill

variable {config : BrokerConfig} {account : Account} {order : OrderIntent} {bar : Option Bar}
  {price equity : Amount} {plan : FillPlan}

/-- How far the rounding of a fill may pass what the account check left. -/
def fillSlack (config : BrokerConfig) (account : Account) (order : OrderIntent) (equity : Amount)
    (plan : FillPlan) : Amount :=
  roundingSlack (feasibleQuantity config account order.key plan.sizing.current
    (cappedDelta plan.sizing plan).delta plan.fillPrice equity) plan.lot

theorem amountAt_key (account : Account) (order : OrderIntent) :
    account.amountAt order.key = (account.currentPosition order).amount := by
  unfold Account.amountAt Account.currentPosition
  cases account.positions.get? order.key with
  | none => rfl
  | some position => rfl

theorem amountAt_key_fill (orderId : Time × ℕ) (ts : Time) :
    (account.fill config orderId ts order plan).amountAt order.key =
      if plan.closes = true then 0 else plan.targetAmount := by
  unfold Account.amountAt
  rw [fill_positions]
  split_ifs with hcloses
  · rw [Dict.get?_erase, if_pos rfl]
    rfl
  · rw [Dict.get?_set_self]
    rfl

theorem grossValue_fill (orderId : Time × ℕ) (ts : Time) :
    (account.fill config orderId ts order plan).grossValue order.key =
      account.grossValue order.key := by
  unfold Account.grossValue
  rw [fill_positions]
  split_ifs with hcloses
  · rw [Dict.sumBy_erase, Dict.get?_erase, if_pos rfl]
    exact sub_zero _
  · rw [Dict.sumBy_erase, Dict.get?_set_self, Dict.sumBy_set, Dict.sumBy_erase]
    simp

theorem planOrder_open_pos (hforced : order.forced = false)
    (h : planOrder config account order bar (some price) equity = .ok (.fill plan)) :
    0 < price := by
  unfold planOrder at h
  rw [hforced] at h
  simp only [Bool.false_eq_true, if_false] at h
  unfold executionBlockReason at h
  cases bar with
  | none => cases h
  | some bar =>
    dsimp only at h
    by_contra hprice
    rw [if_pos (not_lt.mp hprice)] at h
    cases h

theorem fillPrice_pos_of_buy {openPrice delta fill : Amount} {reference : FillReference}
    (hopen : 0 < openPrice) (hbuy : 0 < delta)
    (h : fillPrice config order bar openPrice delta = .fill fill reference) : 0 < fill := by
  unfold fillPrice at h
  split_ifs at h with hlimit hrequired hgap hlow hgap' hhigh
  · cases h
    exact hopen
  · cases h
    exact not_le.mp hrequired
  · cases h
    exact hopen
  · cases h
    exact not_le.mp hrequired
  · cases h
    exact mul_pos hopen (by linarith [config.slippage_nonneg])

theorem min_cash_floor (config : BrokerConfig) (account : Account) (equity : Amount) :
    min account.availableCash (-equity * (config.leverage - 1)) =
      account.availableCash - account.spendable config equity := by
  unfold Account.spendable
  rcases le_total account.availableCash (-equity * (config.leverage - 1)) with hle | hle
  · rw [min_eq_left hle, max_eq_left (by linarith), sub_zero]
  · rw [min_eq_right hle, max_eq_right (by linarith)]
    ring

theorem cashKept_iff {slack : Amount} (orderId : Time × ℕ) (ts : Time) :
    CashKept config equity slack plan account (account.fill config orderId ts order plan) ↔
      (0 < plan.delta → costOf config plan.fillPrice plan.delta ≤
        account.spendable config equity + costOf config plan.fillPrice slack) := by
  have hafter : (account.fill config orderId ts order plan).availableCash =
      account.availableCash - costOf config plan.fillPrice plan.delta := by
    rw [fill_availableCash]
    unfold FillPlan.fee costOf
    ring
  unfold CashKept
  rw [min_cash_floor, hafter]
  refine imp_congr_right fun _ => ?_
  constructor
  · intro hkept
    linarith
  · intro hpaid
    linarith

theorem exposureKept (hlot : 0 < plan.lot) (hcurrent : plan.sizing.current =
      account.currentPosition order)
    (hdelta : plan.delta = (feasibleDelta config account order.key plan.sizing.current
      (cappedDelta plan.sizing plan).delta plan.fillPrice equity plan.lot).1)
    (orderId : Time × ℕ) (ts : Time) :
    ExposureKept config equity (1 / 10 ^ 12 + fillSlack config account order equity plan)
      order.key plan account (account.fill config orderId ts order plan) := by
  intro hgrown
  rw [amountAt_key_fill, amountAt_key, ← hcurrent] at hgrown
  rw [amountAt_key_fill, grossValue_fill]
  by_cases hcloses : plan.closes = true
  · rw [if_pos hcloses] at hgrown
    rcases hgrown with hlarger | hturned
    · rw [abs_zero] at hlarger
      exact absurd (abs_nonneg _) (not_le.mpr hlarger)
    · rw [mul_zero] at hturned
      exact absurd hturned (lt_irrefl 0)
  · rw [if_neg hcloses] at hgrown ⊢
    have htarget : plan.targetAmount = plan.sizing.current.amount +
        (feasibleDelta config account order.key plan.sizing.current
          (cappedDelta plan.sizing plan).delta plan.fillPrice equity plan.lot).1 := by
      unfold FillPlan.targetAmount
      rw [← hdelta]
    rw [htarget] at hgrown ⊢
    exact exposure_of_target (abs_target_le hlot hgrown)

theorem overspentBuy_iff
    (hfill : fillPrice config order bar price
      (sizeOrder config account order price equity).requestedDelta =
        .fill plan.fillPrice plan.fillReference)
    (hfilled : Filled config account order bar equity
      (sizeOrder config account order price equity) plan) :
    OverspentBuy config account order bar (sizeOrder config account order price equity) equity ↔
      OverspentAt config account order.key (sizeOrder config account order price equity).current
        (cappedDelta (sizeOrder config account order price equity) plan).delta plan.fillPrice
        equity plan.lot := by
  unfold OverspentBuy cappedDelta
  rw [hfilled.cap, ← hfilled.lot]
  constructor
  · rintro ⟨fill, reference, hsame, hat⟩
    have heq : PriceDecision.fill plan.fillPrice plan.fillReference = .fill fill reference :=
      hfill.symm.trans hsame
    cases heq
    exact hat
  · intro hat
    exact ⟨plan.fillPrice, plan.fillReference, hfill, hat⟩

theorem plan_bounds_iff (hforced : order.forced = false) (hexact : plan.exactClose = false)
    (h : planOrder config account order bar (some price) equity = .ok (.fill plan))
    (orderId : Time × ℕ) (ts : Time) :
    (CashKept config equity (fillSlack config account order equity plan) plan account
        (account.fill config orderId ts order plan) ∧
      ExposureKept config equity (1 / 10 ^ 12 + fillSlack config account order equity plan)
        order.key plan account (account.fill config orderId ts order plan)) ↔
      ¬ OverspentBuy config account order bar (sizeOrder config account order price equity)
        equity := by
  obtain ⟨price', hprice, hmet, hfill, hfilled⟩ := planOrder_fill h
  cases hprice
  have hlot := hfilled.lot_pos
  have hdelta := delta_of_not_exactClose hforced hfilled hexact
  have hcurrent : plan.sizing.current = account.currentPosition order := by
    rw [hfilled.sizing]
    rfl
  have hexposure := exposureKept hlot hcurrent (by rw [hfilled.sizing]; exact hdelta) orderId ts
  rw [and_iff_left hexposure, cashKept_iff, overspentBuy_iff hfill hfilled]
  unfold fillSlack
  rw [hfilled.sizing]
  by_cases hover : OverGross config account order.key
      (sizeOrder config account order price equity).current
      (cappedDelta (sizeOrder config account order price equity) plan).delta plan.fillPrice equity
  · have hexcess := (@feasibleDelta_of_over _ _ _ _ _ _ _ plan.lot hover).1
    obtain ⟨hbuy, hsell⟩ := @affordable_bounds config account
      (cappedDelta (sizeOrder config account order price equity) plan).delta plan.fillPrice equity
    have hquantity := (grossFeasible_of_overLimit
      (maxTargetAbs_nonneg config account order.key plan.fillPrice equity) hbuy hsell hover).1
    unfold OverspentAt feasibleQuantity excessLots
    rw [hquantity, hdelta, hexcess, not_and, not_and, not_lt]
    exact ⟨fun hkept _ => hkept, fun hkept => hkept hover⟩
  · refine iff_of_true (fun hbought => ?_) fun hspent => hover hspent.1
    rw [hdelta] at hbought ⊢
    refine cost_of_not_over hlot (fun hcapped => ?_) hover hbought
    refine fillPrice_pos_of_buy (planOrder_open_pos hforced h) ?_ hfill
    rcases hfilled.capped_sign hmet with hsame | hzero
    · rcases pos_and_pos_or_neg_and_neg_of_mul_pos hsame with ⟨-, hrequest⟩ | ⟨hneg, -⟩
      · exact hrequest
      · exact absurd hcapped (not_lt.mpr hneg.le)
    · exact absurd hzero hcapped.ne'

end Fill

/-! ## The fills of a batch -/

section Batch

variable {config : BrokerConfig} {ts : Time}

/-- A decision as the broker takes it: from the account before it, with the account after it. -/
def Taken (config : BrokerConfig) (decision : Decision) : Prop :=
  planOrder config decision.before decision.order decision.bar decision.openPrice
      decision.equity = .ok decision.outcome ∧
    ∀ plan, decision.outcome = .fill plan → ∃ orderId time,
      decision.after = decision.before.fill config orderId time decision.order plan

theorem executeOrders_decisions {data : MarketData} {overrides : Dict PositionKey Amount}
    {broker : Broker} {equity : Amount} (orders : List OrderIntent) (batch : Batch)
    (h : ∃ decisions, batch.broker.history = broker.history ++ decisions ∧
      ∀ decision ∈ decisions, decision.equity = equity ∧ Taken config decision) :
    Post (Serves data) (orders.foldlM (Broker.executeOrder config ts overrides equity) batch)
      (fun next => ∃ decisions, next.broker.history = broker.history ++ decisions ∧
        ∀ decision ∈ decisions, decision.equity = equity ∧ Taken config decision) := by
  refine Post.foldlM (J := fun batch : Batch => ∃ decisions,
    batch.broker.history = broker.history ++ decisions ∧
      ∀ decision ∈ decisions, decision.equity = equity ∧ Taken config decision) ?_ h
  rintro batch order - ⟨decisions, hhistory, hdecisions⟩
  refine (executeOrder_post overrides equity batch order).mono ?_
  rintro next ⟨key, outcome, hplan, rfl⟩
  refine ⟨decisions ++ [⟨order, data.rowAt key ts,
    openPriceOf overrides order (data.rowAt key ts), equity, batch.broker.toAccount, outcome,
    accountAfter config ts order batch.broker outcome⟩], ?_, ?_⟩
  · show (batch.broker.work config ts equity order (data.rowAt key ts)
      (openPriceOf overrides order (data.rowAt key ts)) outcome).1.history = _
    rw [work_history, hhistory, List.append_assoc]
  · intro decision hmem
    rcases List.mem_append.mp hmem with hold | hnew
    · exact hdecisions decision hold
    · rw [List.mem_singleton.mp hnew]
      refine ⟨rfl, hplan, fun plan hfill => ?_⟩
      dsimp only at hfill ⊢
      subst hfill
      exact ⟨_, _, rfl⟩

/-- **Borrowing and exposure in a batch.** In every batch, whatever was filled in it before, a
fill that goes through the account check keeps the borrowing floor and the gross limit of the
equity that the batch started with, if and only if it does not buy back a short position over
its limit beyond the cash. -/
theorem batch_bounds_iff (broker : Broker) (overrides : Dict PositionKey Amount)
    (orders : List OrderIntent) (hne : orders ≠ []) (portal portal' : Portal)
    (result : List OrderIntent × Broker)
    (h : broker.execute config ts overrides orders portal = .ok result portal') :
    ∃ marked start decisions,
      broker.markToMarketBeforeFill ts overrides portal = .ok marked start ∧
      result.2.history = broker.history ++ decisions ∧
      ∀ decision ∈ decisions, decision.equity = marked.totalValue ∧
        ∀ price plan, decision.openPrice = some price → decision.outcome = .fill plan →
          decision.order.forced = false → plan.exactClose = false →
          ((CashKept config marked.totalValue
                (fillSlack config decision.before decision.order marked.totalValue plan) plan
                decision.before decision.after ∧
              ExposureKept config marked.totalValue (1 / 10 ^ 12 +
                  fillSlack config decision.before decision.order marked.totalValue plan)
                decision.order.key plan decision.before decision.after) ↔
            ¬ OverspentBuy config decision.before decision.order decision.bar
              (sizeOrder config decision.before decision.order price marked.totalValue)
              marked.totalValue) := by
  unfold Broker.execute at h
  rw [if_neg hne] at h
  obtain ⟨marked, start, hmark, hrest⟩ := bind_eq_ok h
  obtain ⟨batch, middle, horders, hrest⟩ := bind_eq_ok hrest
  obtain ⟨closed, last, hclose, hresult⟩ := bind_eq_ok hrest
  cases hresult
  have hmarked : marked.history = broker.history := by
    obtain ⟨-, positions, hsame⟩ := (@markToMarketBeforeFill_post portal.view.data ts
      overrides broker).of_ok rfl hmark
    rw [hsame]
    rfl
  have hclosed : closed.history = batch.broker.history := by
    obtain ⟨-, positions, hsame⟩ := (@markToMarketBeforeFill_post middle.view.data ts
      batch.marks batch.broker).of_ok rfl hclose
    rw [hsame]
    rfl
  obtain ⟨-, decisions, hhistory, hdecisions⟩ := (@executeOrders_decisions config ts
    start.view.data overrides marked marked.totalValue orders ⟨marked, [], overrides⟩
    ⟨[], (List.append_nil _).symm, fun _ hmem => absurd hmem List.not_mem_nil⟩).of_ok rfl horders
  refine ⟨marked, start, decisions, hmark, ?_, fun decision hmem => ?_⟩
  · show closed.history = _
    rw [hclosed, hhistory]
    exact congrArg (· ++ decisions) hmarked
  · obtain ⟨hequity, hplan, hafter⟩ := hdecisions decision hmem
    refine ⟨hequity, fun price plan hprice hfill hforced hexact => ?_⟩
    obtain ⟨orderId, time, hsame⟩ := hafter plan hfill
    rw [hprice, hfill, hequity] at hplan
    rw [hsame]
    exact plan_bounds_iff hforced hexact hplan orderId time

end Batch

/-! ## A short position next to a long one over the limit -/

def batchAfter (config : BrokerConfig) (broker : Broker) (overrides : Dict PositionKey Amount)
    (orders : List OrderIntent) (portal : Portal) : Option (List OrderIntent × Broker) :=
  match broker.execute config 0 overrides orders portal with
  | .ok result _ => some result
  | .error _ _ => none

def fillsAfter (config : BrokerConfig) (broker : Broker) (overrides : Dict PositionKey Amount)
    (orders : List OrderIntent) (portal : Portal) : List (Decision × FillPlan) :=
  ((batchAfter config broker overrides orders portal).map fun result =>
      result.2.history.filterMap fun decision => match decision.outcome with
        | .fill plan => some (decision, plan)
        | _ => none).getD []

/-- Five shares of X are short, now at 250, and five of Y are held at 100. The equity is 250,
and the held shares alone are worth more. -/
def hedgedShort : Broker :=
  { Broker.create 1000 with
    availableCash := 1000
    positions := Dict.ofPairs [
      (⟨"USStock:X", none⟩, { symbol := "USStock:X", amount := -5, avgCost := 100, lastPrice := 250 }),
      (⟨"USStock:Y", none⟩, { symbol := "USStock:Y", amount := 5, avgCost := 100, lastPrice := 100 })]
    totalValue := 250 }

def hedgedFills : List (Decision × FillPlan) :=
  fillsAfter plainConfig hedgedShort (Dict.ofPairs [(⟨"USStock:Y", none⟩, 100)]) [buy 1]
    (Portal.create (singleMarket "USStock:X" (flatFrame [(250, 0)])))

/-- An order to buy one share back buys all five and takes an account without leverage from a
cash of 1000 into a debt of 250. -/
theorem buy_one_back_borrows :
    (hedgedFills.map fun fill => (fill.1.order.forced, fill.2.exactClose, fill.2.delta,
        fill.1.equity, fill.1.before.availableCash, fill.1.after.availableCash)) =
      [(false, false, 5, 250, 1000, -250)] ∧
      ∀ fill ∈ hedgedFills, ¬ CashKept plainConfig fill.1.equity
        (fillSlack plainConfig fill.1.before fill.1.order fill.1.equity fill.2) fill.2
        fill.1.before fill.1.after := by
  unfold CashKept
  decide +kernel

theorem first_share_batch :
    (batchAfter plainConfig (Broker.create 1000) Dict.empty [buy 1]
      (Portal.create (singleMarket "USStock:X" (flatFrame [(100, 0)])))).isSome = true := by
  decide +kernel

/-- The bounds in the batch of a fresh account that buys one share. -/
theorem first_share_bounds :
    ∃ result portal', (Broker.create 1000).execute plainConfig 0 Dict.empty [buy 1]
        (Portal.create (singleMarket "USStock:X" (flatFrame [(100, 0)]))) = .ok result portal' ∧
      ∃ marked start decisions, (Broker.create 1000).markToMarketBeforeFill 0 Dict.empty
          (Portal.create (singleMarket "USStock:X" (flatFrame [(100, 0)]))) = .ok marked start ∧
        result.2.history = (Broker.create 1000).history ++ decisions ∧
        ∀ decision ∈ decisions, decision.equity = marked.totalValue ∧
          ∀ price plan, decision.openPrice = some price → decision.outcome = .fill plan →
            decision.order.forced = false → plan.exactClose = false →
            ((CashKept plainConfig marked.totalValue
                  (fillSlack plainConfig decision.before decision.order marked.totalValue plan)
                  plan decision.before decision.after ∧
                ExposureKept plainConfig marked.totalValue (1 / 10 ^ 12 +
                    fillSlack plainConfig decision.before decision.order marked.totalValue plan)
                  decision.order.key plan decision.before decision.after) ↔
              ¬ OverspentBuy plainConfig decision.before decision.order decision.bar
                (sizeOrder plainConfig decision.before decision.order price marked.totalValue)
                marked.totalValue) := by
  have hsome := first_share_batch
  unfold batchAfter at hsome
  cases hrun : (Broker.create 1000).execute plainConfig 0 Dict.empty [buy 1]
      (Portal.create (singleMarket "USStock:X" (flatFrame [(100, 0)]))) with
  | error e portal' =>
    rw [hrun] at hsome
    cases hsome
  | ok result portal' =>
    exact ⟨result, portal', rfl, batch_bounds_iff (Broker.create 1000) Dict.empty [buy 1]
      (List.cons_ne_nil _ _) _ portal' result hrun⟩

end QuantDinger.Analysis
