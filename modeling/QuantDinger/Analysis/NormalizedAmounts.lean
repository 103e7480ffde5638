import QuantDinger.Model.InstrumentMetadata

/-!
# Order amounts that can be executed

A metadata row states the step of the order size, or its precision in decimal places. Normalised
amounts are whole multiples of the stated step exactly where the parser reads that step. It misses
it in two ways: a zero precision counts as a missing field in an `or`, and a `LOT_SIZE` filter
without a step hides the one of `MARKET_LOT_SIZE`.
-/

namespace QuantDinger.Analysis

open QuantDinger.Library QuantDinger.Model

/-! ## What a row states -/

/-- The size precision a field states: an integer from 0 to 18. -/
def precisionOf (value : MetaValue) : Option ℕ :=
  match value.toInt with
  | none => none
  | some places => if 0 ≤ places ∧ places ≤ 18 then some places.toNat else none

/-- The first positive number among the fields. -/
def firstSize (fields : List MetaValue) : Option ℚ :=
  (fields.find? fun value => decide (0 < value.positive)).map MetaValue.positive

def firstPrecision (fields : List MetaValue) : Option ℕ := fields.findSome? precisionOf

/-- The fields of an exchange that hold a size step. -/
def stepFields (exchange : RulesExchange) (market : RulesMarket) (raw : MetaRow) :
    List MetaValue :=
  match exchange with
  | .binance => [(raw.filterNamed "LOT_SIZE").get "stepSize",
      (raw.filterNamed "MARKET_LOT_SIZE").get "stepSize"]
  | .bybit => [(raw.object "lotSizeFilter").get "qtyStep",
      (raw.object "lotSizeFilter").get "basePrecision"]
  | .okx => [raw.get "lotSz"]
  | .bitget => bitgetSteps market raw
  | .gate => []
  | .htx => []

/-- The fields of an exchange that hold a size precision. -/
def precisionFields (exchange : RulesExchange) (market : RulesMarket) (raw : MetaRow) :
    List MetaValue :=
  match exchange, market with
  | .bitget, _ => bitgetPrecisions market raw
  | .gate, .spot => [raw.get "amount_precision"]
  | .htx, .spot => htxPrecisions raw
  | _, _ => []

/-- The base units in one unit of the size fields: the contract size, and 1 on spot markets. -/
def unitSize (exchange : RulesExchange) (market : RulesMarket) (raw : MetaRow) : ℚ :=
  match exchange, market with
  | .okx, _ => okxContract market raw
  | .bitget, .swap => bitgetContract raw
  | .gate, .swap => gateContract raw
  | .htx, .swap => htxContract raw
  | _, _ => 1

/-- The step in the units of the size fields. Gate and HTX contracts are counted: in the decimal
unit of the smallest order, and in whole contracts. -/
def statedUnits (exchange : RulesExchange) (market : RulesMarket) (raw : MetaRow) : Option ℚ :=
  match exchange, market with
  | .gate, .swap => some (decimalUnit (orUnit (raw.get "order_size_min").positive))
  | .htx, .swap => some 1
  | _, _ =>
    match firstSize (stepFields exchange market raw) with
    | some size => some size
    | none =>
      (firstPrecision (precisionFields exchange market raw)).map fun places => 1 / 10 ^ places

def statedStep (exchange : RulesExchange) (market : RulesMarket) (raw : MetaRow) : Option ℚ :=
  (statedUnits exchange market raw).map (· * unitSize exchange market raw)

/-- The parser comes upon what the row states. A `LOT_SIZE` filter of Binance holds a step itself,
and without a size step the precision field that an `or` stops at holds the first precision. -/
def ReadsStatedStep (exchange : RulesExchange) (market : RulesMarket) (raw : MetaRow) : Prop :=
  (exchange = .binance → raw.filterNamed "LOT_SIZE" ≠ [] →
    0 < ((raw.filterNamed "LOT_SIZE").get "stepSize").positive) ∧
  (firstSize (stepFields exchange market raw) = none →
    precisionOf (orValues (precisionFields exchange market raw)) =
      firstPrecision (precisionFields exchange market raw))

/-- What amounts normalised with the minimum enforced are, for every requested amount. -/
structure Executable (rules : InstrumentRules) (step : ℚ) : Prop where
  nonneg : ∀ amount, 0 ≤ normalizeAmount rules amount true
  whole : ∀ amount, IsMultiple step (normalizeAmount rules amount true)
  /-- Not above the request, but for one part per trillion of it or of a step. -/
  within : ∀ amount, normalizeAmount rules amount true ≤
    max amount 0 + 1 / 10 ^ 12 * max step amount
  minimum : ∀ amount, normalizeAmount rules amount true = 0 ∨
    rules.minAmount ≤ normalizeAmount rules amount true
  idempotent : ∀ amount,
    normalizeAmount rules (normalizeAmount rules amount true) true =
      normalizeAmount rules amount true
  monotone : Monotone fun amount => normalizeAmount rules amount true

/-! ## Flooring -/

theorem positiveNumber_eq_max (value : ℚ) : positiveNumber value = max value 0 := by
  unfold positiveNumber
  split_ifs with h
  · exact (max_eq_left h.le).symm
  · exact (max_eq_right (not_lt.mp h)).symm

theorem positiveNumber_nonneg (value : ℚ) : 0 ≤ positiveNumber value := by
  rw [positiveNumber_eq_max]
  exact le_max_right _ _

theorem positiveNumber_of_nonneg {value : ℚ} (h : 0 ≤ value) : positiveNumber value = value := by
  rw [positiveNumber_eq_max, max_eq_left h]

theorem edgeTolerance_pos (units : ℚ) : 0 < edgeTolerance units :=
  lt_max_of_lt_left (by norm_num)

theorem edgeTolerance_mono {x y : ℚ} (h0 : 0 ≤ x) (h : x ≤ y) :
    edgeTolerance x ≤ edgeTolerance y := by
  unfold edgeTolerance
  rw [abs_of_nonneg h0, abs_of_nonneg (h0.trans h)]
  exact max_le_max le_rfl (mul_le_mul_of_nonneg_right h (by norm_num))

theorem edgeTolerance_mul {value step : ℚ} (hs : 0 < step) (h : 0 ≤ value) :
    edgeTolerance (value / step) * step = 1 / 10 ^ 12 * max step value := by
  unfold edgeTolerance
  rw [abs_of_nonneg (div_nonneg h hs.le), max_mul_of_nonneg _ _ hs.le, mul_right_comm,
    div_mul_cancel₀ _ hs.ne', mul_max_of_nonneg _ _ (by norm_num), mul_comm value]

theorem floorDecimalToStep_eq {value step : ℚ} (hs : 0 < step) (h : 0 ≤ value) :
    floorDecimalToStep value step = snapToStep edgeTolerance value step := by
  unfold floorDecimalToStep
  split_ifs with h0 hstep
  · have hzero : value = 0 := le_antisymm h0 h
    rw [hzero, snapToStep_of_isMultiple hs (IsMultiple.zero step)]
  · exact absurd hs (not_lt.mpr hstep)
  · rfl

/-! ## Rules with the stated step -/

section

variable {rules : InstrumentRules}

theorem normalizeAmount_eq (hs : 0 < rules.amountStep) (amount : ℚ) :
    normalizeAmount rules amount true =
      if snapToStep edgeTolerance (max amount 0) rules.amountStep < max rules.minAmount 0 then 0
      else snapToStep edgeTolerance (max amount 0) rules.amountStep := by
  unfold normalizeAmount
  simp only [Bool.true_and, decide_eq_true_eq]
  rw [positiveNumber_of_nonneg hs.le, if_pos hs, positiveNumber_eq_max, positiveNumber_eq_max,
    floorDecimalToStep_eq hs (le_max_right _ _)]

theorem normalizeAmount_of_no_step (hs : rules.amountStep = 0) {amount : ℚ} (h0 : 0 ≤ amount)
    (hmin : rules.minAmount ≤ amount) : normalizeAmount rules amount true = amount := by
  unfold normalizeAmount
  simp only [Bool.true_and, decide_eq_true_eq]
  rw [hs, positiveNumber_of_nonneg le_rfl, if_neg (lt_irrefl _), positiveNumber_of_nonneg h0,
    positiveNumber_eq_max, if_neg (not_lt.mpr (max_le hmin h0))]

theorem normalizeAmount_of_isMultiple (hs : 0 < rules.amountStep) {amount : ℚ}
    (h : IsMultiple rules.amountStep amount) (h0 : 0 ≤ amount) (hmin : rules.minAmount ≤ amount) :
    normalizeAmount rules amount true = amount := by
  rw [normalizeAmount_eq hs, max_eq_left h0, snapToStep_of_isMultiple hs h,
    if_neg (not_lt.mpr (max_le hmin h0))]

theorem normalizeAmount_cases (hs : 0 < rules.amountStep) (amount : ℚ) :
    normalizeAmount rules amount true = 0 ∨
      normalizeAmount rules amount true =
          snapToStep edgeTolerance (max amount 0) rules.amountStep ∧
        max rules.minAmount 0 ≤ normalizeAmount rules amount true := by
  rw [normalizeAmount_eq hs]
  split_ifs with h
  · exact Or.inl rfl
  · exact Or.inr ⟨rfl, not_lt.mp h⟩

theorem normalizeAmount_nonneg (hs : 0 < rules.amountStep) (amount : ℚ) :
    0 ≤ normalizeAmount rules amount true := by
  rcases normalizeAmount_cases hs amount with h | ⟨-, h⟩
  · exact h.ge
  · exact (le_max_right _ _).trans h

theorem normalizeAmount_isMultiple (hs : 0 < rules.amountStep) (amount : ℚ) :
    IsMultiple rules.amountStep (normalizeAmount rules amount true) := by
  rcases normalizeAmount_cases hs amount with h | ⟨h, -⟩
  · rw [h]
    exact IsMultiple.zero _
  · rw [h]
    exact isMultiple_snapToStep

theorem normalizeAmount_le (hs : 0 < rules.amountStep) (amount : ℚ) :
    normalizeAmount rules amount true ≤
      max amount 0 + 1 / 10 ^ 12 * max rules.amountStep amount := by
  have hmax : max rules.amountStep (max amount 0) = max rules.amountStep amount := by
    rw [max_comm amount, ← max_assoc, max_eq_left hs.le]
  rcases normalizeAmount_cases hs amount with h | ⟨h, -⟩
  · rw [h]
    have htol : (0 : ℚ) ≤ 1 / 10 ^ 12 * max rules.amountStep amount :=
      mul_nonneg (by norm_num) (hs.le.trans (le_max_left _ _))
    exact add_nonneg (le_max_right _ _) htol
  · rw [h, ← hmax, ← edgeTolerance_mul hs (le_max_right amount 0)]
    exact snapToStep_le hs (edgeTolerance_pos _).le

theorem normalizeAmount_monotone (hs : 0 < rules.amountStep) :
    Monotone fun amount => normalizeAmount rules amount true := by
  intro amount other h
  have hrequest : max amount 0 ≤ max other 0 := max_le_max h le_rfl
  have hsnap : snapToStep edgeTolerance (max amount 0) rules.amountStep ≤
      snapToStep edgeTolerance (max other 0) rules.amountStep := by
    apply snapToStep_mono hs hrequest
    exact edgeTolerance_mono (div_nonneg (le_max_right _ _) hs.le)
      ((div_le_div_iff_of_pos_right hs).mpr hrequest)
  simp only [normalizeAmount_eq hs]
  split_ifs with h1 h2 h2
  · exact le_rfl
  · exact (le_max_right _ _).trans (not_lt.mp h2)
  · exact absurd (hsnap.trans_lt h2) h1
  · exact hsnap

theorem executable_of_step (hs : 0 < rules.amountStep) :
    Executable rules rules.amountStep where
  nonneg := normalizeAmount_nonneg hs
  whole := normalizeAmount_isMultiple hs
  within := normalizeAmount_le hs
  minimum amount := by
    rcases normalizeAmount_cases hs amount with h | ⟨-, h⟩
    · exact Or.inl h
    · exact Or.inr ((le_max_left _ _).trans h)
  idempotent amount := by
    rcases normalizeAmount_cases hs amount with h | ⟨-, h⟩
    · -- 0 stays 0: it is below a positive minimum, and else a multiple that reaches it
      rw [h]
      have hzero : snapToStep edgeTolerance 0 rules.amountStep = 0 :=
        snapToStep_of_isMultiple hs (IsMultiple.zero _)
      rw [normalizeAmount_eq hs, max_self, hzero, ite_self]
    · exact normalizeAmount_of_isMultiple hs (normalizeAmount_isMultiple hs amount)
        (normalizeAmount_nonneg hs amount) ((le_max_left _ _).trans h)
  monotone := normalizeAmount_monotone hs

theorem executable_iff_step {step : ℚ} (hs : 0 < step) (h0 : 0 ≤ rules.amountStep)
    (hle : rules.amountStep ≤ step) : Executable rules step ↔ rules.amountStep = step := by
  constructor
  · intro hexec
    by_contra hne
    rcases h0.eq_or_lt with hzero | hpos
    · obtain ⟨amount, hamount, hoff⟩ := exists_off_step hs (max rules.minAmount 0)
      apply hoff
      have hwhole := hexec.whole amount
      rwa [normalizeAmount_of_no_step hzero.symm ((le_max_right _ _).trans hamount)
        ((le_max_left _ _).trans hamount)] at hwhole
    · obtain ⟨amount, hamount, hm, hoff⟩ :=
        exists_finer_off_step hpos (lt_of_le_of_ne hle hne) (max rules.minAmount 0)
      apply hoff
      have hwhole := hexec.whole amount
      rwa [normalizeAmount_of_isMultiple hpos hm ((le_max_right _ _).trans hamount)
        ((le_max_left _ _).trans hamount)] at hwhole
  · rintro rfl
    exact executable_of_step hs

end

/-! ## Reading the fields -/

theorem firstPositive_eq (fields : List MetaValue) :
    firstPositive fields = (firstSize fields).getD 0 := by
  induction fields with
  | nil => rfl
  | cons value rest ih =>
    unfold firstPositive firstSize
    rw [List.find?_cons]
    by_cases h : 0 < value.positive
    · simp [h]
    · simpa [h, firstSize] using ih

theorem firstSize_pos {fields : List MetaValue} {size : ℚ} (h : firstSize fields = some size) :
    0 < size := by
  obtain ⟨value, hfind, rfl⟩ := Option.map_eq_some_iff.mp h
  simpa using List.find?_some hfind

theorem precisionStep_eq (value : MetaValue) :
    precisionStep value = ((precisionOf value).map fun places => 1 / 10 ^ places).getD 0 := by
  unfold precisionStep precisionOf
  cases value.toInt with
  | none => rfl
  | some places =>
    dsimp only
    split_ifs <;> rfl

theorem precisionOf_of_not_truthy {value : MetaValue} (h : value.truthy = false) :
    precisionOf value = none ∨ precisionOf value = some 0 := by
  cases value with
  | null => exact Or.inl rfl
  | flag value =>
    right
    rw [show value = false from h]
    rfl
  | number value =>
    right
    have hzero : value = 0 := by simpa [MetaValue.truthy] using h
    rw [hzero]
    rfl
  | text characters decimal integer =>
    left
    have hempty : characters = "" := by simpa [MetaValue.truthy] using h
    simp [precisionOf, MetaValue.toInt, hempty]

/-- The step of the parser against the stated one: never coarser, and the same just where `ok`. -/
structure StepReading (parsed stated : ℚ) (ok : Prop) : Prop where
  stated_pos : 0 < stated
  parsed_nonneg : 0 ≤ parsed
  parsed_le : parsed ≤ stated
  eq_iff : parsed = stated ↔ ok

theorem StepReading.exact {stated : ℚ} {ok : Prop} (hpos : 0 < stated) (hok : ok) :
    StepReading stated stated ok :=
  ⟨hpos, hpos.le, le_rfl, iff_of_true rfl hok⟩

theorem StepReading.missed {parsed stated : ℚ} {ok : Prop} (h0 : 0 ≤ parsed)
    (hlt : parsed < stated) (hok : ¬ ok) : StepReading parsed stated ok :=
  ⟨h0.trans_lt hlt, h0, hlt.le, iff_of_false hlt.ne hok⟩

theorem StepReading.scale {parsed stated unit : ℚ} {ok : Prop} (h : StepReading parsed stated ok)
    (hunit : 0 < unit) : StepReading (parsed * unit) (stated * unit) ok where
  stated_pos := mul_pos h.stated_pos hunit
  parsed_nonneg := mul_nonneg h.parsed_nonneg hunit.le
  parsed_le := mul_le_mul_of_nonneg_right h.parsed_le hunit.le
  eq_iff := (mul_left_inj' hunit.ne').trans h.eq_iff

theorem precisionStep_reading {value : MetaValue} {places : ℕ}
    (h : precisionOf value = some places ∨ precisionOf value = none ∨ places = 0) :
    StepReading (precisionStep value) (1 / 10 ^ places)
      (precisionOf value = some places) := by
  have hpos : (0 : ℚ) < 1 / 10 ^ places := by positivity
  rcases hread : precisionOf value with _ | read
  · rw [precisionStep_eq, hread]
    exact StepReading.missed le_rfl hpos (by simp)
  · have hstep : precisionStep value = 1 / 10 ^ read := by
      rw [precisionStep_eq, hread]
      rfl
    rw [hstep]
    by_cases hsame : read = places
    · rw [hsame]
      exact StepReading.exact hpos rfl
    · have hzero : places = 0 := by
        rcases h with h | h | h
        · exact absurd (Option.some.inj (hread.symm.trans h)) hsame
        · exact absurd (hread.symm.trans h) (by simp)
        · exact h
      subst hzero
      apply StepReading.missed (by positivity)
      · have hten : (1 : ℚ) < 10 ^ read := one_lt_pow₀ (by norm_num) hsame
        rw [pow_zero, div_one]
        exact (div_lt_one (by positivity)).mpr hten
      · exact fun heq => hsame (Option.some.inj heq)

theorem orValues_reading {fields : List MetaValue} {places : ℕ}
    (h : firstPrecision fields = some places) :
    StepReading (precisionStep (orValues fields)) (1 / 10 ^ places)
      (precisionOf (orValues fields) = some places) := by
  apply precisionStep_reading
  induction fields with
  | nil => exact nomatch h
  | cons value rest ih =>
    cases rest with
    | nil =>
      left
      simpa [firstPrecision, orValues] using h
    | cons other rest =>
      unfold firstPrecision at h
      rw [List.findSome?_cons] at h
      cases hv : value.truthy with
      | true =>
        rw [orValues, if_pos hv]
        cases hp : precisionOf value with
        | none => exact Or.inr (Or.inl rfl)
        | some read =>
          left
          rwa [hp] at h
      | false =>
        rw [orValues, if_neg (by simp [hv])]
        rcases precisionOf_of_not_truthy hv with hp | hp
        · rw [hp] at h
          exact ih h
        · rw [hp] at h
          exact Or.inr (Or.inr (Option.some.inj h).symm)

theorem stepOrPrecision_reading {steps precisions : List MetaValue} {units : ℚ}
    (h : (match firstSize steps with
      | some size => some size
      | none => (firstPrecision precisions).map fun places => 1 / 10 ^ places) = some units) :
    StepReading (stepOrPrecision steps precisions) units
      (firstSize steps = none → precisionOf (orValues precisions) = firstPrecision precisions) := by
  unfold stepOrPrecision
  rw [firstPositive_eq]
  cases hsize : firstSize steps with
  | some size =>
    rw [hsize] at h
    obtain rfl : size = units := Option.some.inj h
    have hpos := firstSize_pos hsize
    rw [Option.getD_some, if_neg (not_le.mpr hpos)]
    exact StepReading.exact hpos (by simp)
  | none =>
    rw [hsize] at h
    obtain ⟨places, hplaces, rfl⟩ := Option.map_eq_some_iff.mp h
    rw [Option.getD_none, if_pos le_rfl, hplaces]
    have hread := orValues_reading hplaces
    exact ⟨hread.stated_pos, hread.parsed_nonneg, hread.parsed_le,
      hread.eq_iff.trans ⟨fun hok _ => hok, fun hok => hok rfl⟩⟩

/-! ## Reading the rows -/

theorem orUnit_pos {value : ℚ} (h : 0 ≤ value) : 0 < orUnit value := by
  unfold orUnit
  split_ifs with hzero
  · exact one_pos
  · exact lt_of_le_of_ne h (Ne.symm hzero)

theorem firstPositive_nonneg (fields : List MetaValue) : 0 ≤ firstPositive fields := by
  rw [firstPositive_eq]
  cases hsize : firstSize fields with
  | none => exact le_rfl
  | some size => exact (firstSize_pos hsize).le

theorem okxContract_pos (market : RulesMarket) (raw : MetaRow) : 0 < okxContract market raw := by
  unfold okxContract
  generalize (if market = .swap then (raw.get "ctVal").positive else 1) = contract
  dsimp only
  split_ifs with h
  · exact one_pos
  · exact not_le.mp h

theorem unitSize_pos (exchange : RulesExchange) (market : RulesMarket) (raw : MetaRow) :
    0 < unitSize exchange market raw := by
  unfold unitSize
  split
  · exact okxContract_pos market raw
  · exact orUnit_pos (firstPositive_nonneg _)
  · exact orUnit_pos (firstPositive_nonneg _)
  · exact orUnit_pos (positiveNumber_nonneg _)
  · exact one_pos

theorem decimalUnit_pos (value : ℚ) : 0 < decimalUnit value := by
  unfold decimalUnit
  positivity

theorem stepOrPrecision_nil (steps : List MetaValue) :
    stepOrPrecision steps [] = firstPositive steps := by
  unfold stepOrPrecision
  split_ifs with h
  · exact le_antisymm (firstPositive_nonneg steps) h
  · rfl

theorem firstPositive_singleton (value : MetaValue) : firstPositive [value] = value.positive := by
  unfold firstPositive
  split_ifs with h
  · rfl
  · exact le_antisymm (positiveNumber_nonneg _) (not_lt.mp h)

theorem stepOrPrecision_of_nil (precisions : List MetaValue) :
    stepOrPrecision [] precisions = precisionStep (orValues precisions) := if_pos le_rfl

theorem statedStep_binance {market : RulesMarket} {raw : MetaRow} {step : ℚ}
    (h : statedStep .binance market raw = some step) :
    firstSize (stepFields .binance market raw) = some step := by
  obtain ⟨units, hstated, rfl⟩ := Option.map_eq_some_iff.mp h
  unfold statedUnits at hstated
  unfold unitSize
  dsimp only at hstated ⊢
  rw [mul_one]
  cases hsize : firstSize (stepFields .binance market raw) with
  | none =>
    rw [hsize] at hstated
    exact nomatch hstated
  | some size =>
    rw [hsize] at hstated
    exact hstated

theorem binance_reading {market : RulesMarket} {raw : MetaRow} {step : ℚ}
    (h : statedStep .binance market raw = some step) :
    StepReading (parseRules .binance market raw).amountStep step
      (ReadsStatedStep .binance market raw) := by
  have hsize := statedStep_binance h
  have hstep := firstSize_pos hsize
  have hfirst : firstPositive (stepFields .binance market raw) = step := by
    rw [firstPositive_eq, hsize, Option.getD_some]
  have hprec : firstSize (stepFields .binance market raw) = none →
      precisionOf (orValues (precisionFields .binance market raw)) =
        firstPrecision (precisionFields .binance market raw) := fun _ => rfl
  have hparsed : (parseRules .binance market raw).amountStep =
      ((raw.filterOr "LOT_SIZE" "MARKET_LOT_SIZE").get "stepSize").positive := rfl
  rw [hparsed]
  unfold MetaRow.filterOr
  unfold stepFields at hfirst
  dsimp only at hfirst
  split_ifs with hlot
  · by_cases hown : 0 < ((raw.filterNamed "LOT_SIZE").get "stepSize").positive
    · rw [firstPositive, if_pos hown] at hfirst
      rw [hfirst]
      exact StepReading.exact hstep ⟨fun _ _ => hown, hprec⟩
    · -- the filter is there and states no step: the one of the other filter is not looked at
      have hzero : ((raw.filterNamed "LOT_SIZE").get "stepSize").positive = 0 :=
        le_antisymm (not_lt.mp hown) (positiveNumber_nonneg _)
      rw [hzero]
      exact StepReading.missed le_rfl hstep fun hok => hown (hok.1 rfl hlot)
  · have hempty : raw.filterNamed "LOT_SIZE" = [] := not_ne_iff.mp hlot
    have hnone : ¬ 0 < ((raw.filterNamed "LOT_SIZE").get "stepSize").positive := by
      rw [hempty]
      exact lt_irrefl _
    rw [firstPositive, if_neg hnone, firstPositive_singleton] at hfirst
    rw [hfirst]
    exact StepReading.exact hstep ⟨fun _ hne => absurd hempty hne, hprec⟩

theorem fields_reading {exchange : RulesExchange} {market : RulesMarket} {raw : MetaRow}
    {step : ℚ} (hne : exchange ≠ .binance)
    (hparsed : (parseRules exchange market raw).amountStep =
      stepOrPrecision (stepFields exchange market raw) (precisionFields exchange market raw) *
        unitSize exchange market raw)
    (hunits : statedUnits exchange market raw =
      match firstSize (stepFields exchange market raw) with
      | some size => some size
      | none =>
        (firstPrecision (precisionFields exchange market raw)).map fun places => 1 / 10 ^ places)
    (h : statedStep exchange market raw = some step) :
    StepReading (parseRules exchange market raw).amountStep step
      (ReadsStatedStep exchange market raw) := by
  obtain ⟨units, hstated, rfl⟩ := Option.map_eq_some_iff.mp h
  rw [hparsed]
  have hread := (stepOrPrecision_reading (hunits ▸ hstated)).scale
    (unitSize_pos exchange market raw)
  exact ⟨hread.stated_pos, hread.parsed_nonneg, hread.parsed_le,
    hread.eq_iff.trans ⟨fun hok => ⟨fun heq => absurd heq hne, hok⟩, fun hok => hok.2⟩⟩

theorem unit_reading {exchange : RulesExchange} {market : RulesMarket} {raw : MetaRow}
    {units step : ℚ} (hne : exchange ≠ .binance) (hpos : 0 < units)
    (hprec : precisionFields exchange market raw = [])
    (hparsed : (parseRules exchange market raw).amountStep = units * unitSize exchange market raw)
    (hunits : statedUnits exchange market raw = some units)
    (h : statedStep exchange market raw = some step) :
    StepReading (parseRules exchange market raw).amountStep step
      (ReadsStatedStep exchange market raw) := by
  obtain ⟨stated, hstated, rfl⟩ := Option.map_eq_some_iff.mp h
  obtain rfl : units = stated := Option.some.inj (hunits.symm.trans hstated)
  rw [hparsed]
  apply StepReading.exact (mul_pos hpos (unitSize_pos exchange market raw))
  refine ⟨fun heq => absurd heq hne, ?_⟩
  intro _
  rw [hprec]
  rfl

theorem parsed_step_reading {exchange : RulesExchange} {market : RulesMarket} {raw : MetaRow}
    {step : ℚ} (h : statedStep exchange market raw = some step) :
    StepReading (parseRules exchange market raw).amountStep step
      (ReadsStatedStep exchange market raw) := by
  cases exchange with
  | binance => exact binance_reading h
  | bybit =>
    apply fields_reading (by simp) _ rfl h
    show firstPositive _ = stepOrPrecision _ [] * 1
    rw [stepOrPrecision_nil, mul_one]
    rfl
  | okx =>
    apply fields_reading (by simp) _ rfl h
    show _ * okxContract market raw = stepOrPrecision [_] [] * okxContract market raw
    rw [stepOrPrecision_nil, firstPositive_singleton]
  | bitget =>
    cases market with
    | swap => exact fields_reading (by simp) rfl rfl h
    | spot =>
      apply fields_reading (by simp) _ rfl h
      exact (mul_one _).symm
  | gate =>
    cases market with
    | swap => exact unit_reading (by simp) (decimalUnit_pos _) rfl rfl rfl h
    | spot =>
      apply fields_reading (by simp) _ rfl h
      show precisionStep _ = stepOrPrecision [] [_] * 1
      rw [stepOrPrecision_of_nil, mul_one]
      rfl
  | htx =>
    cases market with
    | swap =>
      apply unit_reading (by simp) one_pos rfl _ rfl h
      exact (one_mul _).symm
    | spot =>
      apply fields_reading (by simp) _ rfl h
      show precisionStep _ = stepOrPrecision [] _ * 1
      rw [stepOrPrecision_of_nil, mul_one]
      rfl

/-- Of a row that states a step, the normalised amounts are whole multiples of it, and all else
they should be, exactly where the parser reads it. -/
theorem normalized_amounts_iff (exchange : RulesExchange) (market : RulesMarket) (raw : MetaRow)
    (step : ℚ) (h : statedStep exchange market raw = some step) :
    Executable (normalizeRules exchange market raw) step ↔
      ReadsStatedStep exchange market raw := by
  have hread := parsed_step_reading h
  exact (executable_iff_step hread.stated_pos hread.parsed_nonneg hread.parsed_le).trans
    hread.eq_iff

/-- A Gate pair of whole units states its precision 0, and it is read. -/
theorem normalized_amounts_whole_units :
    Executable (normalizeRules .gate .spot ⟨[("amount_precision", .number 0)], [], .absent⟩) 1 :=
  (normalized_amounts_iff .gate .spot ⟨[("amount_precision", .number 0)], [], .absent⟩ 1
    (by decide +kernel)).mpr ⟨nofun, fun _ => rfl⟩

/-- An HTX pair of whole units states it too, and one and a half units are ordered. -/
theorem zero_precision_not_executable :
    ¬ ∀ exchange market raw step, statedStep exchange market raw = some step →
      Executable (normalizeRules exchange market raw) step := by
  intro h
  have hexec := h .htx .spot ⟨[("amount-precision", .number 0)], [], .absent⟩ 1 (by decide +kernel)
  obtain ⟨n, hn⟩ := hexec.whole (3 / 2)
  have hhalf : normalizeAmount
      (normalizeRules .htx .spot ⟨[("amount-precision", .number 0)], [], .absent⟩) (3 / 2) true =
      3 / 2 := by
    decide +kernel
  rw [hhalf, mul_one] at hn
  have hdouble : (3 : ℤ) = 2 * n := by
    have : (3 : ℚ) = 2 * n := by linarith
    exact_mod_cast this
  omega

end QuantDinger.Analysis
