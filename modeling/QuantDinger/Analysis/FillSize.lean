import QuantDinger.Analysis.Positions

/-!
# How large a fill can be

The requested quantity is rounded to lots, capped by liquidity and handed to
`_feasible_delta`, which cuts it to the cash and to the gross limit. The first two never
enlarge or turn it (`Filled.capped_le`, `Filled.capped_sign`). The third does neither
unless the position is beyond the gross limit on the side the order leaves it on
(`OverLimit`): there it trades the whole excess instead.
-/

namespace QuantDinger.Analysis

open QuantDinger.Library QuantDinger.Model

/-! ## Rounding to lots -/

section Round

variable {value lot : Amount}

theorem roundToLot_eq (hlot : 0 < lot) : roundToLot value lot = roundToGrid lotTolerance value lot :=
  if_neg (not_le.mpr hlot)

theorem abs_roundToLot_le (hlot : 0 < lot) :
    |roundToLot value lot| ≤ |value| + lotTolerance (|value| / lot) * lot := by
  rw [roundToLot_eq hlot]
  exact abs_roundToGrid_le_tol hlot (lotTolerance_pos _).le

theorem abs_roundToLot_le_of_le (hlot : 0 < lot) {bound : Amount} (hb : IsMultiple lot bound)
    (h : |value| ≤ bound) : |roundToLot value lot| ≤ bound := by
  rw [roundToLot_eq hlot]
  exact abs_roundToGrid_le_of_le hlot hb h

theorem roundToLot_nonneg (hlot : 0 < lot) (h : 0 ≤ value) : 0 ≤ roundToLot value lot := by
  rw [roundToLot_eq hlot]
  exact roundToGrid_nonneg h

theorem roundToLot_nonpos (hlot : 0 < lot) (h : value ≤ 0) : roundToLot value lot ≤ 0 := by
  rw [roundToLot_eq hlot]
  exact roundToGrid_nonpos h

theorem roundToLot_ne_zero (hlot : 0 < lot) (h : lot ≤ |value|) : roundToLot value lot ≠ 0 := by
  rw [roundToLot_eq hlot]
  exact roundToGrid_ne_zero hlot h

theorem roundToLot_of_isMultiple (hlot : 0 < lot) (h : IsMultiple lot value) :
    roundToLot value lot = value := by
  rw [roundToLot_eq hlot]
  exact roundToGrid_of_isMultiple hlot h

end Round

/-! ## The cash and the gross limit -/

theorem spendable_nonneg (config : BrokerConfig) (account : Account) (equity : Amount) :
    0 ≤ account.spendable config equity := le_max_left _ _

theorem cashCap_nonneg (config : BrokerConfig) (account : Account) (price equity : Amount) :
    0 ≤ account.cashCap config price equity :=
  div_nonneg (spendable_nonneg config account equity) (le_max_of_le_right (by norm_num))

theorem maxTargetAbs_nonneg (config : BrokerConfig) (account : Account) (key : PositionKey)
    (price equity : Amount) : 0 ≤ account.maxTargetAbs config key price equity :=
  div_nonneg (le_max_left _ _) (le_max_of_le_right (by norm_num))

section Cash

variable {config : BrokerConfig} {account : Account} {delta price equity : Amount}

theorem cashFeasible_of_nonpos (h : delta ≤ 0) :
    account.cashFeasible config delta price equity = delta :=
  if_neg fun hc => absurd hc.1 (not_lt.mpr h)

theorem cashFeasible_bounds (h : 0 < delta) :
    0 ≤ account.cashFeasible config delta price equity ∧
      account.cashFeasible config delta price equity ≤ delta := by
  unfold Account.cashFeasible
  split
  · rename_i hc
    exact ⟨cashCap_nonneg config account price equity, hc.2.le⟩
  · exact ⟨h.le, le_rfl⟩

end Cash

/-- The position is over the gross limit on the side where the order leaves it: a sale
that leaves too long a position, a purchase that leaves too short a one, or an order
without any quantity left next to a position that is too large.
SOURCE: runtime.py:1256-1262 -/
def OverLimit (cap amount delta affordable : Amount) : Prop :=
  (delta < 0 ∧ cap + 1 / 10 ^ 12 < amount + delta) ∨
    (0 < delta ∧ amount + affordable < -(cap + 1 / 10 ^ 12)) ∨
    (delta = 0 ∧ cap + 1 / 10 ^ 12 < |amount|)

section Gross

variable {cap amount delta affordable : Amount} (hcap : 0 ≤ cap)
  (hbuy : 0 < delta → 0 ≤ affordable ∧ affordable ≤ delta) (hsell : delta ≤ 0 → affordable = delta)

include hcap hbuy hsell

theorem grossFeasible_of_overLimit (h : OverLimit cap amount delta affordable) :
    grossFeasible cap amount affordable = copysign cap amount - amount ∧
      cap + 1 / 10 ^ 12 < |amount| := by
  have htol : (0 : Amount) < 1 / 10 ^ 12 := by norm_num
  unfold grossFeasible
  rcases h with ⟨hd, hlong⟩ | ⟨hd, hshort⟩ | ⟨hd, habs⟩
  · have haff := hsell hd.le
    have hpos : 0 < amount + affordable := by rw [haff]; linarith
    have hamount : 0 < amount := by linarith
    rw [if_pos (by rw [abs_of_pos hpos, haff]; exact hlong), copysign_of_nonneg hpos.le,
      copysign_of_nonneg hamount.le, abs_of_pos hamount]
    exact ⟨rfl, by linarith⟩
  · have haff := hbuy hd
    have hneg : amount + affordable < 0 := by linarith
    have hamount : amount < 0 := by linarith
    rw [if_pos (by rw [abs_of_neg hneg]; linarith), copysign_of_neg hneg,
      copysign_of_neg hamount, abs_of_neg hamount]
    exact ⟨rfl, by linarith⟩
  · have haff : affordable = 0 := (hsell hd.le).trans hd
    rw [haff, add_zero, if_pos habs]
    exact ⟨rfl, habs⟩

theorem grossFeasible_of_not_overLimit (h : ¬ OverLimit cap amount delta affordable) :
    (0 ≤ delta → grossFeasible cap amount affordable ≤ delta) ∧
      (delta ≤ 0 → delta ≤ grossFeasible cap amount affordable) := by
  simp only [OverLimit, not_or, not_and, not_lt] at h
  obtain ⟨hlong, hshort, hzero⟩ := h
  have htol : (0 : Amount) < 1 / 10 ^ 12 := by norm_num
  unfold grossFeasible
  split
  · rename_i hover
    have hcabs : |cap| = cap := abs_of_nonneg hcap
    rcases lt_trichotomy delta 0 with hd | hd | hd
    · have haff := hsell hd.le
      have hnot := hlong hd
      have hneg : amount + affordable < 0 := by
        by_contra hge
        rw [not_lt] at hge
        rw [abs_of_nonneg hge, haff] at hover
        linarith
      rw [abs_of_neg hneg] at hover
      rw [copysign_of_neg hneg, hcabs]
      exact ⟨fun h0 => absurd hd (not_lt.mpr h0), fun _ => by linarith⟩
    · have haff : affordable = 0 := (hsell hd.le).trans hd
      rw [haff, add_zero] at hover
      exact absurd (hzero hd) (not_le.mpr hover)
    · have haff := hbuy hd
      have hnot := hshort hd
      have hpos : 0 ≤ amount + affordable := by
        by_contra hlt
        rw [not_le] at hlt
        rw [abs_of_neg hlt] at hover
        linarith
      rw [abs_of_nonneg hpos] at hover
      rw [copysign_of_nonneg hpos, hcabs]
      exact ⟨fun _ => by linarith, fun h0 => absurd hd (not_lt.mpr h0)⟩
  · refine ⟨fun h0 => ?_, fun h0 => (hsell h0).ge⟩
    rcases eq_or_lt_of_le h0 with h0 | h0
    · exact (hsell h0.ge).le
    · exact (hbuy h0).2

end Gross

/-! ## From the request to the capped quantity -/

/-- How far a fill may pass its request: the tolerance of the lot rounding, and `10⁻¹²`
where a target within `10⁻¹²` of zero closes the position. -/
def sizeTolerance (s : Sizing) (lot : Amount) : Amount :=
  if s.reconcilesRemainder then
    max (1 / 10 ^ 12) (lotTolerance (|s.requestedDelta| / lot) * lot)
  else lotTolerance (|s.requestedDelta| / lot) * lot

theorem lotTolerance_le_sizeTolerance (s : Sizing) (lot : Amount) :
    lotTolerance (|s.requestedDelta| / lot) * lot ≤ sizeTolerance s lot := by
  unfold sizeTolerance
  split
  · exact le_max_right _ _
  · exact le_rfl

section Capped

variable {config : BrokerConfig} {account : Account} {order : OrderIntent} {bar : Option Bar}
  {price equity : Amount} {plan : FillPlan}

theorem sizeOrder_reconciled
    (h : (sizeOrder config account order price equity).reconcilesRemainder = true) :
    0 < -(sizeOrder config account order price equity).current.amount *
        (sizeOrder config account order price equity).requestedDelta ∧
      |(sizeOrder config account order price equity).current.amount| ≤
        |(sizeOrder config account order price equity).requestedDelta| + 1 / 10 ^ 12 := by
  have hopen := sizeOrder_reconciles h
  have htarget : |(sizeOrder config account order price equity).targetQuantity| ≤ 1 / 10 ^ 12 := by
    unfold sizeOrder at h ⊢
    simp only [Bool.and_eq_true, decide_eq_true_eq] at h
    exact h.1.1.2
  have hreq : (sizeOrder config account order price equity).requestedDelta =
      (sizeOrder config account order price equity).targetQuantity -
        (sizeOrder config account order price equity).current.amount := rfl
  rw [hreq]
  generalize (sizeOrder config account order price equity).targetQuantity = target at *
  generalize (sizeOrder config account order price equity).current.amount = a at *
  have ht := abs_le.mp htarget
  rcases lt_or_ge a 0 with ha | ha
  · rw [abs_of_neg ha] at hopen ⊢
    rw [abs_of_pos (by linarith)]
    exact ⟨mul_pos (by linarith) (by linarith), by linarith⟩
  · rw [abs_of_nonneg ha] at hopen ⊢
    rw [abs_of_neg (by linarith)]
    exact ⟨mul_pos_of_neg_of_neg (by linarith) (by linarith), by linarith⟩

theorem request_of_not_met {s : Sizing} (h : s.alreadyMet order = false) :
    1 / 10 ^ 12 < |s.requestedDelta| := by
  unfold Sizing.alreadyMet at h
  simp only [Bool.or_eq_false_iff, decide_eq_false_iff_not, not_le] at h
  exact h.1.2

variable (hfilled : Filled config account order bar equity
    (sizeOrder config account order price equity) plan)
  (hmet : (sizeOrder config account order price equity).alreadyMet order = false)

include hfilled

theorem Filled.rounded_sign
    (hmet : (sizeOrder config account order price equity).alreadyMet order = false) :
    0 < ((sizeOrder config account order price equity).roundRequest plan.fillPrice plan.lot).delta *
      (sizeOrder config account order price equity).requestedDelta := by
  have hlot := hfilled.lot_pos
  have hreq := request_of_not_met hmet
  have hnot := hfilled.rounded
  generalize hs : sizeOrder config account order price equity = s at *
  rcases roundRequest_cases s plan.fillPrice plan.lot with ⟨hr, hc⟩ | hc
  · subst hs
    rw [hc]
    exact (sizeOrder_reconciled hr).1
  · rw [hc] at hnot ⊢
    have hne : roundToLot s.requestedDelta plan.lot ≠ 0 := by
      intro hzero
      simp only [Trade.belowLot, hzero, abs_zero, Bool.not_false, Bool.and_true,
        decide_eq_false_iff_not, not_lt] at hnot
      exact roundToLot_ne_zero hlot (by linarith) hzero
    rcases lt_trichotomy s.requestedDelta 0 with h | h | h
    · exact mul_pos_of_neg_of_neg (lt_of_le_of_ne (roundToLot_nonpos hlot h.le) hne) h
    · rw [h, abs_zero] at hreq
      norm_num at hreq
    · exact mul_pos (lt_of_le_of_ne (roundToLot_nonneg hlot h.le) hne.symm) h

theorem Filled.rounded_le :
    |((sizeOrder config account order price equity).roundRequest plan.fillPrice plan.lot).delta| ≤
      |(sizeOrder config account order price equity).requestedDelta| +
        sizeTolerance (sizeOrder config account order price equity) plan.lot := by
  have hlot := hfilled.lot_pos
  rcases roundRequest_cases (sizeOrder config account order price equity) plan.fillPrice
    plan.lot with ⟨hr, hc⟩ | hc
  · rw [hc, abs_neg]
    refine (sizeOrder_reconciled hr).2.trans ?_
    unfold sizeTolerance
    rw [if_pos hr]
    exact add_le_add_right (le_max_left _ _) _
  · rw [hc]
    exact (abs_roundToLot_le hlot).trans
      (add_le_add_right (lotTolerance_le_sizeTolerance _ _) _)

theorem Filled.cap_nonneg {limit : Amount} (hl : limit ∈ plan.liquidityCap) : 0 ≤ limit := by
  have hlot := hfilled.lot_pos
  rw [hfilled.cap] at hl
  unfold orderCap at hl
  split at hl
  · cases hl
  · unfold liquidityCap at hl
    dsimp only at hl
    split at hl
    · cases hl
    · rename_i hvolume
      cases hl
      have : 0 ≤ ⌊(bar.map Bar.volume).getD 0 * (1 / 10) / plan.lot + 1 / 10 ^ 10⌋ := by
        refine Int.floor_nonneg.mpr ?_
        have := not_le.mp hvolume
        positivity
      have hcast : (0 : Amount) ≤
          ⌊(bar.map Bar.volume).getD 0 * (1 / 10) / plan.lot + 1 / 10 ^ 10⌋ := by
        exact_mod_cast this
      positivity

/-- The quantity that reaches the account check. -/
def cappedDelta (s : Sizing) (plan : FillPlan) : Trade :=
  s.capLiquidity (s.roundRequest plan.fillPrice plan.lot) plan.liquidityCap plan.fillPrice plan.lot

theorem Filled.capped_le :
    |(cappedDelta (sizeOrder config account order price equity) plan).delta| ≤
      |(sizeOrder config account order price equity).requestedDelta| +
        sizeTolerance (sizeOrder config account order price equity) plan.lot := by
  unfold cappedDelta
  rcases capLiquidity_cases (sizeOrder config account order price equity)
    ((sizeOrder config account order price equity).roundRequest plan.fillPrice plan.lot)
    plan.liquidityCap plan.fillPrice plan.lot with ⟨hr, hc⟩ | hc | ⟨limit, hl, hlt, hc⟩
  · rw [hc, abs_neg]
    refine (sizeOrder_reconciled hr).2.trans ?_
    unfold sizeTolerance
    rw [if_pos hr]
    exact add_le_add_right (le_max_left _ _) _
  · rw [hc]
    exact hfilled.rounded_le
  · rw [hc, abs_copysign, abs_of_nonneg (hfilled.cap_nonneg hl)]
    exact hlt.le.trans hfilled.rounded_le

theorem Filled.capped_sign
    (hmet : (sizeOrder config account order price equity).alreadyMet order = false) :
    0 < (cappedDelta (sizeOrder config account order price equity) plan).delta *
        (sizeOrder config account order price equity).requestedDelta ∨
      (cappedDelta (sizeOrder config account order price equity) plan).delta = 0 := by
  have hsign := hfilled.rounded_sign hmet
  unfold cappedDelta
  rcases capLiquidity_cases (sizeOrder config account order price equity)
    ((sizeOrder config account order price equity).roundRequest plan.fillPrice plan.lot)
    plan.liquidityCap plan.fillPrice plan.lot with ⟨hr, hc⟩ | hc | ⟨limit, hl, hlt, hc⟩
  · rw [hc]
    exact Or.inl (sizeOrder_reconciled hr).1
  · rw [hc]
    exact Or.inl hsign
  · rw [hc]
    have hnonneg := hfilled.cap_nonneg hl
    rcases eq_or_lt_of_le hnonneg with hzero | hpos
    · right
      rw [← hzero]
      simp [copysign]
    · left
      generalize ((sizeOrder config account order price equity).roundRequest plan.fillPrice
        plan.lot).delta = r at *
      rcases pos_and_pos_or_neg_and_neg_of_mul_pos hsign with ⟨hr, hq⟩ | ⟨hr, hq⟩
      · rw [copysign_of_nonneg hr.le, abs_of_pos hpos]
        exact mul_pos hpos hq
      · rw [copysign_of_neg hr, abs_of_pos hpos]
        exact mul_pos_of_neg_of_neg (by linarith) hq

theorem Filled.isMultiple_cappedDelta
    (hx : (cappedDelta (sizeOrder config account order price equity) plan).exactClose = false) :
    IsMultiple plan.lot (cappedDelta (sizeOrder config account order price equity) plan).delta := by
  unfold cappedDelta at *
  rcases capLiquidity_cases (sizeOrder config account order price equity)
    ((sizeOrder config account order price equity).roundRequest plan.fillPrice plan.lot)
    plan.liquidityCap plan.fillPrice plan.lot with ⟨hr, hc⟩ | hc | ⟨limit, hl, hlt, hc⟩
  · rw [hc] at hx
    cases hx
  · rw [hc] at hx ⊢
    rcases roundRequest_cases (sizeOrder config account order price equity) plan.fillPrice
      plan.lot with ⟨hr, hround⟩ | hround
    · rw [hround] at hx
      cases hx
    · rw [hround]
      exact isMultiple_roundToLot hfilled.lot_pos
  · rw [hc]
    exact (hfilled.isMultiple_cap hl).copysign

end Capped

/-! ## What the account check leaves -/

section Feasible

variable {config : BrokerConfig} {account : Account} {key : PositionKey} {current : Position}
  {delta price equity lot : Amount}

theorem direction_eq_zero {x : Amount} : direction x = 0 ↔ x = 0 := by
  unfold direction
  rcases lt_trichotomy x 0 with h | h | h
  · simp [h, h.ne, not_lt.mpr h.le]
  · simp [h]
  · simp [h, h.ne']

theorem direction_eq_iff {x y : Amount} (hx : x ≠ 0) (hy : y ≠ 0) :
    direction x = direction y ↔ 0 < x * y := by
  unfold direction
  rcases lt_or_gt_of_ne hx with h | h <;> rcases lt_or_gt_of_ne hy with h' | h'
  · simp [h, h', not_lt.mpr h.le, not_lt.mpr h'.le, mul_pos_of_neg_of_neg h h']
  · simp [h, h', not_lt.mpr h.le]
  · simp [h, h', not_lt.mpr h'.le]
  · simp [h, h', mul_pos h h']

/-- The position is over the limit for this quantity. -/
def OverGross (config : BrokerConfig) (account : Account) (key : PositionKey)
    (current : Position) (delta price equity : Amount) : Prop :=
  OverLimit (account.maxTargetAbs config key price equity) current.amount delta
    (account.cashFeasible config delta price equity)

theorem affordable_bounds :
    (0 < delta → 0 ≤ account.cashFeasible config delta price equity ∧
      account.cashFeasible config delta price equity ≤ delta) ∧
    (delta ≤ 0 → account.cashFeasible config delta price equity = delta) :=
  ⟨cashFeasible_bounds, cashFeasible_of_nonpos⟩

theorem feasibleDelta_of_over
    (h : OverGross config account key current delta price equity) :
    (feasibleDelta config account key current delta price equity lot).1 =
        roundToLot (copysign (account.maxTargetAbs config key price equity) current.amount -
          current.amount) lot ∧
      account.maxTargetAbs config key price equity + 1 / 10 ^ 12 < |current.amount| := by
  have hcap := maxTargetAbs_nonneg config account key price equity
  obtain ⟨hbuy, hsell⟩ := @affordable_bounds config account delta price equity
  obtain ⟨hgross, habs⟩ := grossFeasible_of_overLimit hcap hbuy hsell h
  refine ⟨?_, habs⟩
  unfold feasibleDelta
  dsimp only
  rw [hgross, if_neg]
  rintro ⟨hd, hf, hne⟩
  rw [ne_eq, direction_eq_zero] at hd hf
  refine hne ((direction_eq_iff hf hd).mpr ?_)
  unfold OverGross at h
  generalize account.maxTargetAbs config key price equity = cap at *
  have htol : (0 : Amount) < 1 / 10 ^ 12 := by norm_num
  rcases h with ⟨hd', hlong⟩ | ⟨hd', hshort⟩ | ⟨hd', -⟩
  · have ha : 0 < current.amount := by linarith
    rw [abs_of_pos ha] at habs
    rw [copysign_of_nonneg ha.le, abs_of_nonneg hcap]
    exact mul_pos_of_neg_of_neg (by linarith) hd'
  · have ha : current.amount < 0 := by linarith [(hbuy hd').1]
    rw [abs_of_neg ha] at habs
    rw [copysign_of_neg ha, abs_of_nonneg hcap]
    exact mul_pos (by linarith) hd'
  · exact absurd hd' hd

theorem feasibleDelta_of_not_over (hlot : 0 < lot) (hmultiple : IsMultiple lot delta)
    (h : ¬ OverGross config account key current delta price equity) :
    |(feasibleDelta config account key current delta price equity lot).1| ≤ |delta| ∧
      0 ≤ (feasibleDelta config account key current delta price equity lot).1 * delta := by
  have hcap := maxTargetAbs_nonneg config account key price equity
  obtain ⟨hbuy, hsell⟩ := @affordable_bounds config account delta price equity
  obtain ⟨hle, hge⟩ := grossFeasible_of_not_overLimit hcap hbuy hsell h
  unfold feasibleDelta
  dsimp only
  split
  · simp
  · rename_i hdir
    generalize grossFeasible (account.maxTargetAbs config key price equity) current.amount
      (account.cashFeasible config delta price equity) = f at *
    -- The sign guard leaves a quantity of the right sign, or none.
    have hsign : f = 0 ∨ delta = 0 ∨ 0 < f * delta := by
      by_contra hne
      rw [not_or, not_or] at hne
      refine hdir ⟨fun hd => hne.2.1 (direction_eq_zero.mp hd),
        fun hf => hne.1 (direction_eq_zero.mp hf), fun heq => hne.2.2 ?_⟩
      exact (direction_eq_iff hne.1 hne.2.1).mp heq
    have habs : |f| ≤ |delta| := by
      rcases hsign with hf | hd | hpos
      · rw [hf, abs_zero]; exact abs_nonneg _
      · have := hle hd.ge
        have := hge hd.le
        rw [hd] at *
        rw [le_antisymm ‹f ≤ 0› ‹0 ≤ f›]
      · rcases pos_and_pos_or_neg_and_neg_of_mul_pos hpos with ⟨hf, hd⟩ | ⟨hf, hd⟩
        · rw [abs_of_pos hf, abs_of_pos hd]; exact hle hd.le
        · rw [abs_of_neg hf, abs_of_neg hd]; exact neg_le_neg (hge hd.le)
    have hbound : IsMultiple lot |delta| := by
      rcases abs_choice delta with hd | hd
      · rw [hd]; exact hmultiple
      · rw [hd]; exact hmultiple.neg
    refine ⟨abs_roundToLot_le_of_le hlot hbound habs, ?_⟩
    rcases hsign with hf | hd | hpos
    · rw [hf, roundToLot_of_isMultiple hlot (IsMultiple.zero lot), zero_mul]
    · rw [hd, mul_zero]
    · rcases pos_and_pos_or_neg_and_neg_of_mul_pos hpos with ⟨hf, hd⟩ | ⟨hf, hd⟩
      · exact mul_nonneg (roundToLot_nonneg hlot hf.le) hd.le
      · exact mul_nonneg_of_nonpos_of_nonpos (roundToLot_nonpos hlot hf.le) hd.le

end Feasible

end QuantDinger.Analysis
