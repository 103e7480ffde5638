import Mathlib.Data.List.MinMax
import QuantDinger.Analysis.InferredRanges
import QuantDinger.Library.Trimming

/-!
# Automatic search ranges

A numeric parameter gets the bounds it declares, else those of the numbers it lists, else bounds
inferred from its name, its type and its default. The range is in order, its step climbs, and it
and the recommended window contain a default within the declared bounds exactly if the inference
is not cut off below the default and the window survives its rounding (`ranges_well_formed_iff`).
-/

namespace QuantDinger.Analysis.SearchRanges

open Library Model Model.Evolution RecommendedWindows InferredRanges

variable {Choice : Type} (reading : Reading Choice) (row : ParameterPayload Choice)

/-! ## What a range must be -/

/-- The default is a positive number within the bounds declared, if any. -/
def Counts (d : ℚ) : Prop :=
  0 < d ∧ (∀ low, row.min = some low → low ≤ d) ∧ ∀ high, row.max = some high → d ≤ high

/-- The normalized parameter has a range in order with a climbing step and a recommended window
within it, both contain a default that counts, and the search accepts it. -/
def WellFormed (out : NormalizedParameter Choice) : Prop :=
  ∃ minimum maximum step low high, out.min = some minimum ∧ out.max = some maximum ∧
    out.step = some step ∧ out.recommendedMin = some low ∧ out.recommendedMax = some high ∧
    minimum ≤ maximum ∧ 0 < step ∧ (minimum ≤ low ∧ low ≤ high ∧ high ≤ maximum) ∧
    (∀ d, reading.number row.default = some d → Counts row d →
      (minimum ≤ d ∧ d ≤ maximum) ∧ low ≤ d ∧ d ≤ high) ∧
    ∃ parameter, SearchParameter.fromPayload out.toParameterPayload = .ok parameter

/-! ## Where the bounds come from -/

def listed : List ℚ := numericValues reading (declaredChoices row)

/-- The numbers listed serve as bounds: bounds are missing, and there are such numbers. -/
def ListsBounds (low high : ℚ) : Prop :=
  (row.min = none ∨ row.max = none) ∧ (listed reading row).min? = some low ∧
    (listed reading row).max? = some high

/-- The bounds are inferred: they are missing with no numbers listed, or declared out of order. -/
def InfersBounds : Prop :=
  (row.min = none ∨ row.max = none) ∧ listed reading row = [] ∨
    ∃ low high, row.min = some low ∧ row.max = some high ∧ high < low

def inferredRange : SearchRange :=
  inferNumericRange (strip row.name) (declaredKind row) (reading.number row.default)

/-- The bounds and the step a parameter starts from. -/
inductive BoundsFrom : ℚ → ℚ → Option ℚ → Prop
  | declared {low high : ℚ} (hmin : row.min = some low) (hmax : row.max = some high)
      (hle : low ≤ high) : BoundsFrom low high row.step
  | listed {low high : ℚ} (hlists : ListsBounds reading row low high) :
      BoundsFrom low high (some (orNumber row.step (smallestStep (listed reading row))))
  | inferred (hinfers : InfersBounds reading row) :
      BoundsFrom (inferredRange reading row).minimum (inferredRange reading row).maximum
        (some (orNumber row.step (inferredRange reading row).step))

theorem min?_le_max? {values : List ℚ} {low high : ℚ} (hlow : values.min? = some low)
    (hhigh : values.max? = some high) : low ≤ high := by
  have hmem := (List.max?_eq_some_iff.1 hhigh).1
  exact (List.min?_eq_some_iff.1 hlow).2 _ hmem

/-- INTERNAL: the bounds and the step before they are fitted to the type. -/
def resolved : ℚ × ℚ × Option ℚ :=
  resolvedRange row (strip row.name) (declaredKind row) (listed reading row)
    (reading.number row.default)

theorem resolved_eq {low high : ℚ} {step : Option ℚ}
    (h : BoundsFrom reading row low high step) : resolved reading row = (low, high, step) := by
  unfold resolved resolvedRange
  cases h with
  | declared hmin hmax hle =>
    have hdeclared : declaredRange row (listed reading row) = (some low, some high, row.step) := by
      rw [declaredRange, hmin, hmax]
    simp only [hdeclared, not_lt.2 hle, if_false]
  | listed hlists =>
    obtain ⟨hmissing, hlow, hhigh⟩ := hlists
    have hdeclared : declaredRange row (listed reading row) = (some low, some high,
        some (orNumber row.step (smallestStep (listed reading row)))) := by
      rw [declaredRange, hlow, hhigh]
      rcases hmissing with hmissing | hmissing
      · rw [hmissing]
      · rw [hmissing]
        cases row.min <;> rfl
    simp only [hdeclared, not_lt.2 (min?_le_max? hlow hhigh), if_false]
  | inferred hinfers =>
    rcases hinfers with ⟨hmissing, hempty⟩ | ⟨low, high, hmin, hmax, hlt⟩
    · have hdeclared : declaredRange row (listed reading row) = (row.min, row.max, row.step) := by
        rw [declaredRange, hempty]
        rcases hmissing with hmissing | hmissing
        · rw [hmissing]
          rfl
        · rw [hmissing]
          cases row.min <;> rfl
      rw [hdeclared]
      rcases hmissing with hmissing | hmissing
      · rw [hmissing]
        rfl
      · rw [hmissing]
        cases row.min <;> rfl
    · have hdeclared : declaredRange row (listed reading row) =
          (some low, some high, row.step) := by
        rw [declaredRange, hmin, hmax]
      simp only [hdeclared, hlt, if_true]
      rfl

theorem exists_boundsFrom : ∃ low high step, BoundsFrom reading row low high step := by
  by_cases hmissing : row.min = none ∨ row.max = none
  · rcases hempty : listed reading row with _ | ⟨x, rest⟩
    · exact ⟨_, _, _, .inferred (.inl ⟨hmissing, hempty⟩)⟩
    · have hne : listed reading row ≠ [] := hempty ▸ List.cons_ne_nil _ _
      obtain ⟨low, hlow⟩ := Option.isSome_iff_exists.1 (List.isSome_min?_of_ne_nil hne)
      obtain ⟨high, hhigh⟩ := Option.isSome_iff_exists.1 (List.isSome_max?_of_ne_nil hne)
      exact ⟨low, high, _, .listed ⟨hmissing, hlow, hhigh⟩⟩
  · push Not at hmissing
    obtain ⟨low, hmin⟩ := Option.ne_none_iff_exists'.1 hmissing.1
    obtain ⟨high, hmax⟩ := Option.ne_none_iff_exists'.1 hmissing.2
    rcases le_or_gt low high with hle | hlt
    · exact ⟨low, high, _, .declared hmin hmax hle⟩
    · exact ⟨_, _, _, .inferred (.inr ⟨low, high, hmin, hmax, hlt⟩)⟩

/-! ## The range of a parameter -/

/-- The type a numeric parameter is searched with. -/
def searchType : ParameterKind := normalizedType (strip row.name) (declaredKind row)

def searchRange : SearchRange :=
  fittedRange (searchType row) (resolved reading row).1 (resolved reading row).2.1
    (resolved reading row).2.2

theorem decimalStep_pos (low high : ℚ) : 0 < decimalStep low high := by
  unfold decimalStep
  dsimp only
  split_ifs <;> norm_num

theorem fittedRange_step_pos (type : ParameterKind) (low high : ℚ) (step : Option ℚ) :
    0 < (fittedRange type low high step).step := by
  unfold fittedRange
  split_ifs with hinteger hstep
  · have hone : ((1 : ℤ) : ℚ) ≤ (max 1 (roundHalfEven (orNumber step 1)) : ℤ) := by
      exact_mod_cast le_max_left _ _
    exact lt_of_lt_of_le (by norm_num) hone
  · exact hstep
  · exact decimalStep_pos _ _

theorem exists_fromPayload {payload : ParameterPayload Choice} {type : ParameterKind}
    {minimum maximum step : ℚ} (hname : strip payload.name ≠ "") (htype : payload.type = type.text)
    (hnumeric : type = .integer ∨ type = .number ∨ type = .percent)
    (hmin : payload.min = some minimum) (hmax : payload.max = some maximum)
    (hstep : payload.step = some step) (hle : minimum ≤ maximum) (hpos : 0 < step) :
    ∃ parameter, SearchParameter.fromPayload payload = .ok parameter := by
  have hkind : kindOf (lower (orText (orText payload.type payload.kind) "number")) =
      some type := by
    have htext : orText (orText type.text payload.kind) "number" = type.text := by
      rcases hnumeric with rfl | rfl | rfl <;> rfl
    rw [htype, htext]
    rcases hnumeric with rfl | rfl | rfl <;> decide +kernel
  unfold SearchParameter.fromPayload
  simp only [hname, if_false, hkind, hmin, hmax, hstep, not_lt.2 hle, Option.any_some,
    decide_eq_true_eq, not_le.2 hpos]
  rcases hnumeric with rfl | rfl | rfl <;> exact ⟨_, rfl⟩

theorem searchType_numeric :
    searchType row = .integer ∨ searchType row = .number ∨ searchType row = .percent := by
  unfold searchType normalizedType
  split_ifs
  · exact .inl rfl
  · exact .inr (.inr rfl)
  · exact .inr (.inl rfl)

/-- INTERNAL: the numeric parameter made ready for the search. -/
def searched : NormalizedParameter Choice :=
  normalizeNumeric reading row (strip row.name) (declaredKind row)

theorem strip_strip (s : String) : strip (strip s) = strip s := by
  change String.ofList (trim isSpace (String.ofList (trim isSpace s.toList)).toList) = _
  rw [String.toList_ofList, (trimmed_trim isSpace s.toList).trim_eq]
  rfl

theorem searched_range : (searched reading row).min = some (searchRange reading row).minimum ∧
    (searched reading row).max = some (searchRange reading row).maximum ∧
    (searched reading row).step = some (searchRange reading row).step :=
  ⟨rfl, rfl, rfl⟩

theorem searched_window :
    (searched reading row).recommendedMin = some (recommendedNumericRange (searchRange reading row)
      (reading.number row.default) (searchType row) (strip row.name)).1 ∧
    (searched reading row).recommendedMax = some (recommendedNumericRange (searchRange reading row)
      (reading.number row.default) (searchType row) (strip row.name)).2 := by
  simp only [searched, normalizeNumeric, searchRange, resolved, listed, searchType, and_self]

theorem normalizeParameter_numeric (hname : strip row.name ≠ "")
    (hkind : declaredKind row ∈ numericTypes) :
    normalizeParameter reading row = some (searched reading row) := by
  have hboolean : declaredKind row ∉ booleanTypes := by
    intro hmem
    simp only [numericTypes, booleanTypes, List.mem_cons, List.not_mem_nil, or_false] at hkind hmem
    rcases hmem with hmem | hmem <;> simp [hmem] at hkind
  unfold normalizeParameter
  dsimp only
  rw [if_neg hname, if_neg hboolean, if_neg (not_not.2 hkind)]
  rfl

theorem wellFormed_iff (hname : strip row.name ≠ "") :
    WellFormed reading row (searched reading row) ↔
      Contains (searchRange reading row) (reading.number row.default) (Counts row) ∧
        Recommends (searchRange reading row) (reading.number row.default) (searchType row)
          (strip row.name) (Counts row) := by
  obtain ⟨hmin, hmax, hstep⟩ := searched_range reading row
  obtain ⟨hlow, hhigh⟩ := searched_window reading row
  have hpos : 0 < (searchRange reading row).step := fittedRange_step_pos _ _ _ _
  unfold WellFormed Recommends
  constructor
  · rintro ⟨minimum, maximum, step, low, high, hmin', hmax', -, hlow', hhigh', hle, -, hwindow,
      hcontains, -⟩
    obtain rfl := Option.some.inj (hmin.symm.trans hmin')
    obtain rfl := Option.some.inj (hmax.symm.trans hmax')
    obtain rfl := Option.some.inj (hlow.symm.trans hlow')
    obtain rfl := Option.some.inj (hhigh.symm.trans hhigh')
    refine ⟨⟨hle, fun d hd hcounts => (hcontains d hd hcounts).1⟩, ?_⟩
    exact ⟨hwindow.1, hwindow.2.1, hwindow.2.2, fun d hd hcounts => (hcontains d hd hcounts).2⟩
  · rintro ⟨⟨hle, hcontains⟩, hbelow, horder, habove, hwindow⟩
    have hstrip : strip (searched reading row).name ≠ "" := by
      change strip (strip row.name) ≠ ""
      rwa [strip_strip]
    exact ⟨_, _, _, _, _, hmin, hmax, hstep, hlow, hhigh, hle, hpos, ⟨hbelow, horder, habove⟩,
      fun d hd hcounts => ⟨hcontains d hd hcounts, hwindow d hd hcounts⟩,
      exists_fromPayload hstrip rfl (searchType_numeric row) hmin hmax hstep hle hpos⟩

/-! ## When the range fits -/

/-- A range, to whole bounds for the integer type. -/
def Around (type : ParameterKind) (low high d : ℚ) : Prop :=
  if type = .integer then (⌊low⌋ : ℚ) ≤ d ∧ d ≤ (⌈high⌉ : ℚ) else low ≤ d ∧ d ≤ high

/-- The condition on a declaration: numbers listed as bounds lie around a default that counts, an
inferred range does not cut it off, and for a number no window leaves its range as it is rounded to
eight decimals. -/
structure Fits : Prop where
  listed : ∀ low high, ListsBounds reading row low high → ∀ d,
    reading.number row.default = some d → Counts row d → Around (searchType row) low high d
  inferred : InfersBounds reading row → InferenceFits (strip row.name) (declaredKind row)
    (reading.number row.default) (Counts row)
  rounded : searchType row ≠ .integer → ∀ low high step, BoundsFrom reading row low high step →
    ∀ d, reading.number row.default = some d → low ≤ d → d ≤ high →
      RoundsInside (fittedRange (searchType row) low high step) d (searchType row)
        (strip row.name) (Counts row d)

section

variable {reading row}

theorem searchRange_eq {low high : ℚ} {step : Option ℚ}
    (h : BoundsFrom reading row low high step) :
    searchRange reading row = fittedRange (searchType row) low high step := by
  unfold searchRange
  rw [resolved_eq reading row h]

theorem around_of_between {type : ParameterKind} {low high d : ℚ} (h : low ≤ d ∧ d ≤ high) :
    Around type low high d := by
  unfold Around
  split_ifs
  · exact ⟨(Int.floor_le low).trans h.1, h.2.trans (Int.le_ceil high)⟩
  · exact h

theorem contains_fitted_iff {type : ParameterKind} {low high : ℚ} {step : Option ℚ}
    {default : Option ℚ} {counts : ℚ → Prop} (hle : low ≤ high) :
    Contains (fittedRange type low high step) default counts ↔
      ∀ d, default = some d → counts d → Around type low high d := by
  unfold Contains fittedRange Around
  by_cases hinteger : type = .integer
  · simp only [hinteger, if_true]
    refine and_iff_right ?_
    have hwhole := (Int.floor_le low).trans (hle.trans (Int.le_ceil high))
    exact_mod_cast hwhole
  · simp only [hinteger, if_false]
    exact and_iff_right hle

theorem contains_inferred_iff :
    Contains (fittedRange (searchType row) (inferredRange reading row).minimum
      (inferredRange reading row).maximum
      (some (orNumber row.step (inferredRange reading row).step)))
        (reading.number row.default) (Counts row) ↔
      Contains (inferredRange reading row) (reading.number row.default) (Counts row) := by
  unfold Contains fittedRange
  split_ifs with hinteger
  · have hkind : isIntegerKind (declaredKind row) = true := by
      unfold searchType normalizedType at hinteger
      split_ifs at hinteger with hkind
      exact hkind
    unfold inferredRange inferNumericRange
    simp only [hkind, Bool.true_or, if_true, Int.floor_intCast, Int.ceil_intCast]
  all_goals exact Iff.rfl

theorem not_missing {low high : ℚ} (hmin : row.min = some low) (hmax : row.max = some high) :
    ¬(row.min = none ∨ row.max = none) := by
  rw [hmin, hmax]
  simp

theorem contains_iff :
    Contains (searchRange reading row) (reading.number row.default) (Counts row) ↔
      (∀ low high, ListsBounds reading row low high → ∀ d,
        reading.number row.default = some d → Counts row d →
          Around (searchType row) low high d) ∧
      (InfersBounds reading row → InferenceFits (strip row.name) (declaredKind row)
        (reading.number row.default) (Counts row)) := by
  obtain ⟨low, high, step, hfrom⟩ := exists_boundsFrom reading row
  rw [searchRange_eq hfrom]
  cases hfrom with
  | declared hmin hmax hle =>
    rw [contains_fitted_iff hle]
    refine iff_of_true ?_ ⟨?_, ?_⟩
    · intro d hd hcounts
      exact around_of_between ⟨hcounts.2.1 low hmin, hcounts.2.2 high hmax⟩
    · exact fun _ _ hlists => absurd hlists.1 (not_missing hmin hmax)
    · rintro (⟨hmissing, -⟩ | ⟨low', high', hmin', hmax', hlt⟩)
      · exact absurd hmissing (not_missing hmin hmax)
      · obtain rfl := Option.some.inj (hmin.symm.trans hmin')
        obtain rfl := Option.some.inj (hmax.symm.trans hmax')
        exact absurd hle (not_le.2 hlt)
  | listed hlists =>
    rw [contains_fitted_iff (min?_le_max? hlists.2.1 hlists.2.2)]
    constructor
    · intro haround
      refine ⟨?_, ?_⟩
      · rintro low' high' ⟨-, hlow, hhigh⟩
        obtain rfl := Option.some.inj (hlists.2.1.symm.trans hlow)
        obtain rfl := Option.some.inj (hlists.2.2.symm.trans hhigh)
        exact haround
      · rintro (⟨-, hempty⟩ | ⟨low', high', hmin', hmax', -⟩)
        · have hlow := hlists.2.1
          rw [hempty] at hlow
          exact nomatch hlow
        · exact absurd hlists.1 (not_missing hmin' hmax')
    · exact fun hfits => hfits.1 low high hlists
  | inferred hinfers =>
    rw [contains_inferred_iff, inferredRange, inferred_range_iff fun d hcounts => hcounts.1]
    constructor
    · intro hinference
      refine ⟨?_, fun _ => hinference⟩
      rintro low high ⟨hmissing, hlow, -⟩
      rcases hinfers with ⟨-, hempty⟩ | ⟨low', high', hmin', hmax', -⟩
      · rw [hempty] at hlow
        exact nomatch hlow
      · exact absurd hmissing (not_missing hmin' hmax')
    · exact fun hfits => hfits.2 hinfers

theorem fittedRange_whole {low high : ℚ} {step : Option ℚ} :
    IsMultiple 1 (fittedRange .integer low high step).minimum ∧
      IsMultiple 1 (fittedRange .integer low high step).maximum ∧
      IsMultiple 1 (fittedRange .integer low high step).step :=
  ⟨⟨_, (mul_one _).symm⟩, ⟨_, (mul_one _).symm⟩, ⟨_, (mul_one _).symm⟩⟩

theorem recommends_range_iff {low high : ℚ} {step : Option ℚ} {type : ParameterKind}
    {name : String} {default : Option ℚ}
    (hcontains : Contains (fittedRange type low high step) default (Counts row)) :
    Recommends (fittedRange type low high step) default type name (Counts row) ↔
      (type ≠ .integer → ∀ d, default = some d → low ≤ d → d ≤ high →
        RoundsInside (fittedRange type low high step) d type name (Counts row d)) := by
  have hrange : Ordered (fittedRange type low high step) :=
    ⟨hcontains.1, fittedRange_step_pos _ _ _ _⟩
  by_cases hinside : ∃ d, default = some d ∧ (fittedRange type low high step).minimum ≤ d ∧
      d ≤ (fittedRange type low high step).maximum
  · obtain ⟨d, rfl, hdefault⟩ := hinside
    by_cases hinteger : type = .integer
    · subst hinteger
      obtain ⟨hmin, hmax, hstep⟩ := @fittedRange_whole low high step
      refine iff_of_true ?_ fun hnot => absurd rfl hnot
      exact recommends_integer hrange (fun hcounts => hcounts.1) hdefault hmin hmax hstep
    · rw [recommends_iff hrange hinteger hdefault]
      simp only [fittedRange, hinteger, if_false] at hdefault
      constructor
      · rintro hrounds - d' hd - -
        obtain rfl := Option.some.inj hd
        exact hrounds
      · exact fun hrounds => hrounds hinteger d rfl hdefault.1 hdefault.2
  · refine iff_of_true ?_ ?_
    · refine recommends_range hrange hcontains.2 ?_
      rcases default with _ | d
      · rfl
      · exact if_pos fun hdefault => hinside ⟨d, rfl, hdefault⟩
    · intro hinteger d hd hlow hhigh
      refine absurd ⟨d, hd, ?_⟩ hinside
      simp only [fittedRange, hinteger, if_false]
      exact ⟨hlow, hhigh⟩

end

/-- A numeric parameter is made well formed exactly if its declaration fits. -/
theorem ranges_well_formed_iff (hname : strip row.name ≠ "")
    (hkind : declaredKind row ∈ numericTypes) :
    (∃ out, normalizeParameter reading row = some out ∧ WellFormed reading row out) ↔
      Fits reading row := by
  obtain ⟨low, high, step, hfrom⟩ := exists_boundsFrom reading row
  have hsearched : (∃ out, normalizeParameter reading row = some out ∧
      WellFormed reading row out) ↔ WellFormed reading row (searched reading row) := by
    simp only [normalizeParameter_numeric reading row hname hkind, Option.some.injEq,
      exists_eq_left']
  rw [hsearched, wellFormed_iff reading row hname]
  constructor
  · rintro ⟨hcontains, hrecommends⟩
    obtain ⟨hlisted, hinferred⟩ := contains_iff.1 hcontains
    refine ⟨hlisted, hinferred, fun hinteger low' high' step' hfrom' => ?_⟩
    rw [searchRange_eq hfrom'] at hcontains hrecommends
    exact (recommends_range_iff hcontains).1 hrecommends hinteger
  · intro hfits
    have hcontains := contains_iff.2 ⟨hfits.listed, hfits.inferred⟩
    refine ⟨hcontains, ?_⟩
    rw [searchRange_eq hfrom] at hcontains ⊢
    exact (recommends_range_iff hcontains).2 fun hinteger =>
      hfits.rounded hinteger low high step hfrom

def plainReading : Reading ℚ where
  finite := some
  item := id
  ofNumber := id
  ofBool := fun b => if b then 1 else 0

def shortPeriod : ParameterPayload ℚ :=
  { name := "fast_period", type := "int", default := .integer 20 }

theorem short_period_well_formed :
    ∃ out, normalizeParameter plainReading shortPeriod = some out ∧
      WellFormed plainReading shortPeriod out := by
  refine (ranges_well_formed_iff plainReading shortPeriod (by decide +kernel)
    (by decide +kernel)).2 ⟨?_, ?_, fun hinteger => absurd (by decide +kernel) hinteger⟩
  · rintro low high ⟨-, hlow, -⟩
    exact nomatch hlow
  · rintro - d hd
    obtain rfl : (20 : ℚ) = d := Option.some.inj hd
    have hcount : (isIntegerKind (declaredKind shortPeriod) ||
        isCountName (strip shortPeriod.name)) = true := by decide +kernel
    rw [if_pos hcount]
    exact ⟨by decide +kernel, fun _ => by norm_num⟩

def longPeriod (default : ℤ) : ParameterPayload ℚ :=
  { name := "lookback", type := "int", default := .integer default }

/-- The range inferred for a period of 5000 runs from 2500 to 1000, the one for a period of 1500
from 750 to 1000. -/
theorem long_periods_cut_off :
    (∃ out, normalizeParameter plainReading (longPeriod 5000) = some out ∧
      ¬ WellFormed plainReading (longPeriod 5000) out) ∧
    ∃ out, normalizeParameter plainReading (longPeriod 1500) = some out ∧
      ¬ WellFormed plainReading (longPeriod 1500) out := by
  have hname (n : ℤ) : strip (longPeriod n).name ≠ "" := by
    change strip "lookback" ≠ ""
    decide +kernel
  have hkind (n : ℤ) : declaredKind (longPeriod n) ∈ numericTypes := by
    change lower (orText "int" "number") ∈ numericTypes
    decide +kernel
  refine ⟨⟨_, normalizeParameter_numeric _ _ (hname _) (hkind _), fun h => ?_⟩,
    ⟨_, normalizeParameter_numeric _ _ (hname _) (hkind _), fun h => ?_⟩⟩
  · have hrange : searchRange plainReading (longPeriod 5000) = ⟨2500, 1000, 1⟩ := by
      decide +kernel
    have hle := ((wellFormed_iff plainReading _ (hname _)).1 h).1.1
    rw [hrange] at hle
    norm_num at hle
  · have hrange : searchRange plainReading (longPeriod 1500) = ⟨750, 1000, 1⟩ := by
      decide +kernel
    have hcounts : Counts (longPeriod 1500) 1500 :=
      ⟨by norm_num, (fun _ hnone => nomatch hnone), (fun _ hnone => nomatch hnone)⟩
    have hbound := (((wellFormed_iff plainReading _ (hname _)).1 h).1.2 1500 rfl hcounts).2
    rw [hrange] at hbound
    norm_num at hbound

end QuantDinger.Analysis.SearchRanges
