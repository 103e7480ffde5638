import Mathlib.Data.Nat.Sqrt
import Mathlib.Data.Prod.Lex
import QuantDinger.Model.EvolutionSearch
import QuantDinger.Model.ParameterSpace
import QuantDinger.Model.WalkForward

/-!
# A run of the evolution engine

`StrategyEvolutionEngine.run` of `engine.py` from the plan to the selected candidate: the trials of
the search with what they were scored on, the shortlist, its order and its ranks. What a backtest
answers is the evaluator's; what `statistics.py` makes of answers is a parameter. The report on the
selected candidate asks the evaluator again, about the blind range, and may raise.
-/

namespace QuantDinger.Model.Evolution

open Library

/-- What the run reads of a `metric_snapshot`. SOURCE: statistics.py:11-24 -/
structure Metric where
  valid : ℚ
  activity : ℚ
  totalReturn : ℚ
  drawdown : ℚ
  deriving DecidableEq

/-- What the run reads of the components of a score; the others go into the trial as they are.
SOURCE: statistics.py:75-88 -/
structure Components (Rest : Type) where
  oosReturn : ℚ
  maxDrawdown : ℚ
  validationActivity : ℚ
  rest : Rest

/-- The functions that are applied to what a backtest answers, with the weights of the
configuration; `bucket` rounds to four digits. -/
structure Scoring (Result Rest : Type) where
  snapshot : Result → Metric
  composite : List Metric → List Metric → ℚ × Components Rest
  training : List Metric → ℚ × Rest
  signature : List Result → String
  bucket : ℚ → ℚ

/-- An evaluator: a backtest of a range with a commission and a slippage, the backtest of a whole
plan if it has one, and its context: the observations and the warm-up. -/
structure Evaluator (Choice Result : Type) where
  backtest : Candidate Choice → Time → Time → ℚ → ℚ → Result
  evaluatePlan : Option (Candidate Choice → List WalkForwardFold → ℚ → ℚ → List (Result × Result))
  context : Time → Time → Option (List Time) × ℤ

/-- `PreparedEvolutionEvaluator.evaluate_plan`: one backtest from the first training bar to the last
validation bar, which is sliced. SOURCE: evaluator.py:191-213 -/
def preparedPlan {Choice Result : Type} (slice : Result → Time → Time → Result)
    (backtest : Candidate Choice → Time → Time → ℚ → ℚ → Result) (params : Candidate Choice)
    (folds : List WalkForwardFold) (commission slippage : ℚ) : List (Result × Result) :=
  match folds.head?, folds.getLast? with
  | some first, some last =>
    let result := backtest params first.trainStart last.validationEnd commission slippage
    folds.map fun fold => (slice result fold.trainStart fold.trainEnd,
      slice result fold.validationStart fold.validationEnd)
  | _, _ => []

/-- What the run reads of an `EvolutionConfig`. -/
structure RunConfig extends SearchConfig where
  trainRatio : ℚ
  blindRatio : ℚ
  embargoBars : ℤ
  autoPrune : Bool
  topCandidates : ℕ
  costMultipliers : List ℚ

/-! ## Trials -/

/-- `row["folds"]` of a trial. SOURCE: engine.py:353-361 -/
structure FoldRow where
  fold : WalkForwardFold
  train : Metric
  validation : Metric
  searchScore : ℚ
  qualityScore : ℚ

/-- A trial. SOURCE: engine.py:381-411 -/
structure TrialRow (Choice Result Rest : Type) where
  number : ℕ
  params : Candidate Choice
  score : ℚ
  searchScore : ℚ
  components : Components Rest
  qualityScore : ℚ
  training : Rest
  positiveValidationFolds : ℕ
  validationFolds : ℕ
  folds : List FoldRow
  pruned : Bool
  reason : String
  validationResults : List Result
  validationSignature : String

/-- `median`. -/
def median (values : List ℚ) : ℚ :=
  let sorted := values.insertionSort (· ≤ ·)
  if sorted.length % 2 = 1 then sorted.getD (sorted.length / 2) 0
  else (sorted.getD (sorted.length / 2 - 1) 0 + sorted.getD (sorted.length / 2) 0) / 2

section

variable {Choice Result Rest : Type} (scoring : Scoring Result Rest)
  (evaluator : Evaluator Choice Result)

/-- What a trial has gathered of its folds. -/
structure FoldScan (Result : Type) where
  train : List Metric := []
  validation : List Metric := []
  results : List Result := []
  rows : List FoldRow := []
  pruned : Bool := false

/-- The loop over the folds, each with its two answers; a trial that is pruned leaves it.
SOURCE: engine.py:340-375 -/
def scanFolds (autoPrune : Bool) (priorScores : List ℚ) :
    List (WalkForwardFold × Result × Result) → FoldScan Result → FoldScan Result
  | [], scan => scan
  | (fold, trainResult, validationResult) :: rest, scan =>
    let train := scoring.snapshot trainResult
    let validation := scoring.snapshot validationResult
    let trains := scan.train ++ [train]
    let validations := scan.validation ++ [validation]
    let partialScore := (scoring.training trains).1
    let row : FoldRow :=
      { fold := fold
        train := train
        validation := validation
        searchScore := partialScore
        qualityScore := (scoring.composite trains validations).1 }
    let next : FoldScan Result :=
      { scan with
        train := trains
        validation := validations
        results := scan.results ++ [validationResult]
        rows := scan.rows ++ [row] }
    if train.valid ≤ 0 ∨ validation.valid ≤ 0 then { next with pruned := true }
    else if autoPrune = true ∧ train.activity ≤ 0 then { next with pruned := true }
    else if autoPrune = true ∧ 2 ≤ next.rows.length ∧ 6 ≤ priorScores.length ∧
        (partialScore < median priorScores - 8 ∨ train.drawdown ≤ -70) then
      { next with pruned := true }
    else scanFolds autoPrune priorScores rest next

/-- The answers for the folds.
SOURCE: engine.py:338-345 -/
def foldResults (params : Candidate Choice) (folds : List WalkForwardFold)
    (commission slippage : ℚ) : List (Result × Result) :=
  match evaluator.evaluatePlan with
  | some evaluatePlan => evaluatePlan params folds commission slippage
  | none => folds.map fun fold =>
    (evaluator.backtest params fold.trainStart fold.trainEnd commission slippage,
      evaluator.backtest params fold.validationStart fold.validationEnd commission slippage)

/-- `_evaluate_trial`.
SOURCE: engine.py:323-411 -/
def evaluateTrial (config : RunConfig) (folds : List WalkForwardFold) (commission slippage : ℚ)
    (number : ℕ) (params : Candidate Choice) (priorScores : List ℚ) :
    TrialRow Choice Result Rest :=
  let scan := scanFolds scoring config.autoPrune priorScores
    (folds.zip (foldResults evaluator params folds commission slippage)) {}
  let (qualityScore, components) := scoring.composite scan.train scan.validation
  let (searchScore, training) := scoring.training scan.train
  { number := number
    params := params
    score := components.oosReturn
    searchScore := searchScore
    components := components
    qualityScore := qualityScore
    training := training
    positiveValidationFolds := scan.validation.countP fun row => 0 < row.totalReturn
    validationFolds := scan.validation.length
    folds := scan.rows
    pruned := scan.pruned
    reason :=
      if (scan.train ++ scan.validation).any fun row => row.valid ≤ 0 then "invalidMetrics"
      else if components.validationActivity ≤ 0 then "noValidationActivity"
      else if scan.pruned then "autoPruned"
      else ""
    validationResults := scan.results
    validationSignature := scoring.signature scan.results }

/-- What the search reads of a trial. -/
def TrialRow.evaluation (row : TrialRow Choice Result Rest) : Evaluation :=
  { pruned := row.pruned, searchScore := row.searchScore }

/-- The rows of the trials, each evaluated with the scores of the trials before it that were not
pruned. SOURCE: engine.py:138-149 -/
def trialRows (evaluate : ℕ → Candidate Choice → List ℚ → TrialRow Choice Result Rest) :
    List ℚ → List (Trial Choice) → List (TrialRow Choice Result Rest)
  | _, [] => []
  | priorScores, trial :: rest =>
    let row := evaluate trial.number trial.params priorScores
    row :: trialRows evaluate
      (if row.pruned then priorScores else priorScores ++ [row.searchScore]) rest

/-! ## Selection -/

/-- `int(math.ceil(math.sqrt(count)))` -/
def ceilSqrt (count : ℕ) : ℕ :=
  if count.sqrt * count.sqrt = count then count.sqrt else count.sqrt + 1

/-- The key the shortlist is sorted by.
SOURCE: engine.py:183-188 -/
def shortlistKey (row : TrialRow Choice Result Rest) : ℚ ×ₗ ℚ ×ₗ ℚ ×ₗ ℚ :=
  toLex (row.score, toLex (-row.components.maxDrawdown,
    toLex (row.components.validationActivity, row.searchScore)))

/-- The trials that were not pruned, the best search score first.
SOURCE: engine.py:158-162 -/
def searchedRows (rows : List (TrialRow Choice Result Rest)) :
    List (TrialRow Choice Result Rest) :=
  (rows.filter fun row => ¬ row.pruned).insertionSort fun a b => b.searchScore ≤ a.searchScore

/-- The shortlist, in its order.
SOURCE: engine.py:168-190 -/
def shortlist (topCandidates : ℕ) (searched : List (TrialRow Choice Result Rest)) :
    List (TrialRow Choice Result Rest) :=
  let size := min searched.length (max (topCandidates * 2) (ceilSqrt searched.length))
  ((searched.filter fun row => 0 < row.components.validationActivity).take size).insertionSort
    fun a b => shortlistKey b ≤ shortlistKey a

/-- What `_rank_validation_candidates` notes on a row. -/
structure Ranking where
  rank : ℕ
  validationTieCount : ℕ
  behaviorEquivalentCount : ℕ
  deriving DecidableEq

/-- The loop of `_rank_validation_candidates`, from the candidate with this index on.
SOURCE: engine.py:585-596 -/
def rankFrom (completed : List (TrialRow Choice Result Rest)) :
    ℕ → Option ℚ → ℕ → List (TrialRow Choice Result Rest) → List (ℕ × Ranking)
  | _, _, _, [] => []
  | index, previousReturn, currentRank, row :: rest =>
    let returnBucket := scoring.bucket row.score
    let rank := if previousReturn = some returnBucket then currentRank else index
    (row.number,
        { rank := rank
          validationTieCount := completed.countP fun other =>
            scoring.bucket other.score = returnBucket
          behaviorEquivalentCount := completed.countP fun other =>
            other.validationSignature = row.validationSignature }) ::
      rankFrom completed (index + 1) (some returnBucket) rank rest

/-- A row without what is private, and with its ranking, which is noted on the row itself. -/
structure PublicTrial (Choice Rest : Type) where
  number : ℕ
  params : Candidate Choice
  score : ℚ
  searchScore : ℚ
  components : Components Rest
  qualityScore : ℚ
  training : Rest
  positiveValidationFolds : ℕ
  validationFolds : ℕ
  folds : List FoldRow
  pruned : Bool
  reason : String
  ranking : Option Ranking

/-- `_public_trial`. SOURCE: engine.py:531-534 -/
def publicTrial (rankings : List (ℕ × Ranking)) (row : TrialRow Choice Result Rest) :
    PublicTrial Choice Rest :=
  { row with ranking := (rankings.find? fun entry => entry.1 = row.number).map Prod.snd }

/-- What is selected: the trials, the best of the shortlist, and its parameters. -/
structure Selection (Choice Rest : Type) where
  trials : List (PublicTrial Choice Rest)
  topCandidates : List (PublicTrial Choice Rest)
  bestParams : Candidate Choice

/-- The selection from the trials, and the row of the best.
SOURCE: engine.py:158-192, 298-300 -/
def selectCandidates (topCandidates : ℕ) (rows : List (TrialRow Choice Result Rest)) :
    Except String (Selection Choice Rest × TrialRow Choice Result Rest) :=
  let completed := shortlist topCandidates (searchedRows rows)
  if (searchedRows rows).isEmpty then .error "strategyEvolution.allTrialsPruned"
  else match completed with
  | [] => .error "strategyEvolution.allTrialsPruned"
  | best :: _ =>
    let rankings := rankFrom scoring completed 1 none 0 completed
    .ok ({ trials := rows.map (publicTrial rankings)
           topCandidates := (completed.take topCandidates).map (publicTrial rankings)
           bestParams := best.params }, best)

/-! ## The run -/

/-- The answers the report is made from: of the blind range, and under each cost multiplier.
SOURCE: engine.py:193-195, 219-226, 505-507 -/
def reportResults (config : RunConfig) (plan : WalkForwardPlan) (start finish : Time)
    (commission slippage : ℚ) (params : Candidate Choice) : Option Result × List Result :=
  (match plan.blindStart, plan.blindEnd with
    | some blindStart, some blindEnd =>
      some (evaluator.backtest params blindStart blindEnd commission slippage)
    | _, _ => none,
    config.costMultipliers.map fun multiplier =>
      evaluator.backtest params (plan.blindStart.getD start) (plan.blindEnd.getD finish)
        (commission * multiplier) (slippage * multiplier))

/-- What a run raises: an error of its arguments or its plan, no candidate, or an error of the
report. -/
inductive RunError
  | invalid (message : String)
  | plan (e : PlanError)
  | search (message : String)
  | report (message : String)
  deriving DecidableEq

variable {G Constraint Report : Type} [DecidableEq Choice] (source : RandomSource G)
  (numerics : Numerics Choice) (accepts : Constraint → Candidate Choice → Bool)
  (constraints : List Constraint)

/-- `parameter_lookback_bars`. SOURCE: engine.py:633-642 -/
def parameterLookbackBars (parameters : List (SearchParameter Choice)) : ℤ :=
  ((parameters.filter fun parameter =>
      0 < parameter.maximum.getD 0 ∧
        namesAny ["period", "lookback", "window", "length", "bars"]
          (lower parameter.name)).map
    fun parameter => ⌊parameter.maximum.getD 0⌋).foldl max 0

/-- The plan of a run.
SOURCE: engine.py:65-83 -/
def runPlan (parameters : List (SearchParameter Choice)) (config : RunConfig)
    (start finish : Time) : Except PlanError WalkForwardPlan :=
  let context := evaluator.context start finish
  buildWalkForwardPlan start finish config.trainRatio context.1
    { warmupBars := max context.2 (parameterLookbackBars parameters)
      embargoBars := some config.embargoBars
      embargoDays := none
      blindRatio := config.blindRatio }

/-- The run up to the selected candidate; the generator is seeded by the configuration.
SOURCE: engine.py:61-192 -/
def runSelection (parameters : List (SearchParameter Choice)) (config : RunConfig)
    (start finish : Time) (commission slippage : ℚ) :
    StateM G (Except RunError
      (WalkForwardPlan × Selection Choice Rest × TrialRow Choice Result Rest)) := do
  if parameters = [] then return .error (.invalid "strategyEvolution.parametersRequired")
  else if 8 < parameters.length then
    return .error (.invalid "strategyEvolution.parameterLimitExceeded")
  else match runPlan evaluator parameters config start finish with
  | .error e => return .error (.plan e)
  | .ok plan =>
    let evaluate := evaluateTrial scoring evaluator config plan.folds commission slippage
    let searched ← search source numerics accepts constraints
      (fun number params priorScores => (evaluate number params priorScores).evaluation)
      parameters config.toSearchConfig
    match searched with
    | .error message => return .error (.search message)
    | .ok state =>
      match selectCandidates scoring config.topCandidates (trialRows evaluate [] state.trials) with
      | .error message => return .error (.search message)
      | .ok (selection, best) => return .ok (plan, selection, best)

/-- The report on what was selected, from the answers it asks for.
SOURCE: engine.py:193-321 -/
def reportRun (report : Selection Choice Rest → TrialRow Choice Result Rest →
      Option Result × List Result → Except String Report)
    (config : RunConfig) (start finish : Time) (commission slippage : ℚ)
    (selected : Except RunError
      (WalkForwardPlan × Selection Choice Rest × TrialRow Choice Result Rest)) :
    Except RunError (Selection Choice Rest × Report) :=
  match selected with
  | .error e => .error e
  | .ok (plan, selection, best) =>
    match report selection best
        (reportResults evaluator config plan start finish commission slippage best.params) with
    | .error message => .error (.report message)
    | .ok report => .ok (selection, report)

/-- `StrategyEvolutionEngine.run`. SOURCE: engine.py:48-321 -/
def run (report : Selection Choice Rest → TrialRow Choice Result Rest →
      Option Result × List Result → Except String Report)
    (parameters : List (SearchParameter Choice)) (config : RunConfig) (start finish : Time)
    (commission slippage : ℚ) :
    StateM G (Except RunError (Selection Choice Rest × Report)) := do
  let selected ← runSelection scoring evaluator source numerics accepts constraints parameters
    config start finish commission slippage
  return reportRun evaluator report config start finish commission slippage selected

end

end QuantDinger.Model.Evolution
