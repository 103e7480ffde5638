import QuantDinger.Model.Schedule

/-!
# The walk-forward split

`walk_forward.py`: the one fold of training and validation bars and the blind holdout that a search
is split into. Ratios are exact, and observations are zone-less instants already.
-/

namespace QuantDinger.Model.Evolution

/-- What the split raises. -/
inductive PlanError
  | valueError (message : String)
  | indexError
  deriving DecidableEq, Repr

/-- `WalkForwardFold`. SOURCE: walk_forward.py:11-20 -/
structure WalkForwardFold where
  index : ℤ
  trainStart : Time
  trainEnd : Time
  validationStart : Time
  validationEnd : Time
  trainBars : ℤ := 0
  validationBars : ℤ := 0
  embargoBars : ℤ := 0
  deriving DecidableEq, Repr

/-- `WalkForwardPlan`. SOURCE: walk_forward.py:35-48 -/
structure WalkForwardPlan where
  folds : List WalkForwardFold
  blindStart : Option Time
  blindEnd : Option Time
  sampleCount : ℤ := 0
  developmentBars : ℤ := 0
  blindBars : ℤ := 0
  requestedFolds : ℤ := 0
  effectiveFolds : ℤ := 0
  minimumTrainBars : ℤ := 0
  minimumValidationBars : ℤ := 0
  embargoBars : ℤ := 0
  blindOmittedReason : Option String := none
  deriving DecidableEq, Repr

/-- `WalkForwardRequirements`. SOURCE: walk_forward.py:67-73 -/
structure WalkForwardRequirements where
  warmupBars : ℤ
  minimumTrainBars : ℤ
  minimumValidationBars : ℤ
  embargoBars : ℤ
  minimumRequiredBars : ℤ
  deriving DecidableEq, Repr

/-- The options both functions take; an embargo in days stands in for one in bars. -/
structure WalkForwardOptions where
  warmupBars : ℤ
  embargoBars : Option ℤ
  embargoDays : Option ℤ
  blindRatio : ℚ
  deriving DecidableEq, Repr

/-- `walk_forward_requirements`.
SOURCE: walk_forward.py:85-102 -/
def walkForwardRequirements (options : WalkForwardOptions) : WalkForwardRequirements :=
  let gapBars := max 0 (options.embargoBars.getD (options.embargoDays.getD 0))
  let hasBlindHoldout := 0 < options.blindRatio
  let requiredGaps : ℤ := if hasBlindHoldout then 2 else 1
  { warmupBars := max 1 options.warmupBars
    minimumTrainBars := 1
    minimumValidationBars := 1
    embargoBars := gapBars
    minimumRequiredBars := 2 + (if hasBlindHoldout then 1 else 0) + requiredGaps * gapBars }

/-- `_observation_times`. Without observations, one on every day of the range.
SOURCE: walk_forward.py:186-195 -/
def observationTimes (start finish : Time) : Option (List Time) → List Time
  | none => (List.range (dayOf finish - dayOf start + 1).toNat).map fun index : ℕ =>
    start + index * dayLength
  | some observations =>
    (observations.toFinset.filter fun value => start ≤ value ∧ value ≤ finish).sort (· ≤ ·)

/-- `_fraction_count`, which truncates.
SOURCE: walk_forward.py:207-208 -/
def fractionCount (total : ℤ) (ratio : ℚ) : ℤ :=
  if 0 ≤ total * ratio then ⌊total * ratio⌋ else ⌈total * ratio⌉

/-- The entry of a tuple at an index, a negative one counted from the end. -/
def entryAt (timestamps : List Time) (index : ℤ) : Except PlanError Time :=
  match timestamps[(if index < 0 then timestamps.length + index else index).toNat]? with
  | some value =>
    if (if index < 0 then timestamps.length + index else index) < 0 then .error .indexError
    else .ok value
  | none => .error .indexError

/-- The sizes of the split. SOURCE: walk_forward.py:138-155 -/
structure SplitSizes where
  blindCount : ℤ
  blindGap : ℤ
  developmentLimit : ℤ
  trainBars : ℤ
  validationStartIndex : ℤ
  validationEndIndex : ℤ
  validationBars : ℤ
  deriving DecidableEq, Repr

/-- How many bars each part of the split takes.
SOURCE: walk_forward.py:138-155 -/
def splitSizes (sampleCount : ℤ) (trainRatio blindRatio : ℚ)
    (requirements : WalkForwardRequirements) : SplitSizes :=
  let gapBars := requirements.embargoBars
  let blindFraction := max 0 (min (3 / 10) blindRatio)
  let blindCount :=
    if 0 < blindFraction then max 1 (fractionCount sampleCount blindFraction) else 0
  let blindGap := if blindCount ≠ 0 then gapBars else 0
  let developmentLimit := sampleCount - blindCount - blindGap
  let maximumTrainBars := developmentLimit - gapBars - requirements.minimumValidationBars
  let trainBars := min maximumTrainBars
    (max requirements.minimumTrainBars (fractionCount sampleCount trainRatio))
  let validationStartIndex := trainBars + gapBars
  let validationEndIndex := developmentLimit - 1
  { blindCount, blindGap, developmentLimit, trainBars, validationStartIndex, validationEndIndex
    validationBars := validationEndIndex - validationStartIndex + 1 }

/-- `build_walk_forward_plan`. The number of folds asked for is not read.
SOURCE: walk_forward.py:116-183 -/
def buildWalkForwardPlan (start finish : Time) (trainRatio : ℚ)
    (observations : Option (List Time)) (options : WalkForwardOptions) :
    Except PlanError WalkForwardPlan :=
  if finish ≤ start then .error (.valueError "strategyEvolution.dateRangeInvalid")
  else
    let timestamps := observationTimes start finish observations
    let sampleCount : ℤ := timestamps.length
    let requirements := walkForwardRequirements options
    if sampleCount < requirements.minimumRequiredBars then
      .error (.valueError "strategyEvolution.observationRangeTooShort")
    else
      let sizes := splitSizes sampleCount trainRatio options.blindRatio requirements
      if sizes.trainBars < requirements.minimumTrainBars ∨
          sizes.validationBars < requirements.minimumValidationBars then
        .error (.valueError "strategyEvolution.observationRangeTooShort")
      else do
        let blind ← if sizes.blindCount ≠ 0 then do
            let blindStart ← entryAt timestamps (sizes.developmentLimit + sizes.blindGap)
            let blindEnd ← entryAt timestamps (-1)
            pure (some blindStart, some blindEnd)
          else pure (none, none)
        let trainStart ← entryAt timestamps 0
        let trainEnd ← entryAt timestamps (sizes.trainBars - 1)
        let validationStart ← entryAt timestamps sizes.validationStartIndex
        let validationEnd ← entryAt timestamps sizes.validationEndIndex
        return {
          folds := [{
            index := 1
            trainStart, trainEnd, validationStart, validationEnd
            trainBars := sizes.trainBars
            validationBars := sizes.validationBars
            embargoBars := requirements.embargoBars }]
          blindStart := blind.1
          blindEnd := blind.2
          sampleCount
          developmentBars := sizes.developmentLimit
          blindBars := sizes.blindCount
          requestedFolds := 1
          effectiveFolds := 1
          minimumTrainBars := requirements.minimumTrainBars
          minimumValidationBars := requirements.minimumValidationBars
          embargoBars := requirements.embargoBars }

end QuantDinger.Model.Evolution
