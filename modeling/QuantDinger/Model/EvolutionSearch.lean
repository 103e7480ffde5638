import QuantDinger.Model.ParameterSearch

/-!
# The search loop

`StrategyEvolutionEngine.run` of `engine.py`, as far as the trials it evaluates: the sampled list,
the fallback list and the loop over attempts. What a trial scores is the evaluator's, and the
walk-forward plan comes before the search.
-/

namespace QuantDinger.Model.Evolution

open Library

/-- `SUPPORTED_METHODS`. -/
inductive SearchMethod
  | grid | random | tpe
  deriving DecidableEq, Repr

/-- What the search reads of an `EvolutionConfig`. -/
structure SearchConfig where
  method : SearchMethod
  trials : ℕ
  deriving DecidableEq, Repr

/-- What the evaluator says of a candidate. -/
structure Evaluation where
  pruned : Bool
  searchScore : ℚ
  deriving DecidableEq, Repr

/-- An evaluated trial. -/
structure Trial (Choice : Type) where
  number : ℕ
  params : Candidate Choice
  evaluation : Evaluation

/-- The variables of the loop; of the fallback list, what its index has not passed. -/
structure SearchState (Choice : Type) where
  trials : List (Trial Choice) := []
  history : List (Candidate Choice × ℚ) := []
  seen : List Identity := []
  fallback : List (Candidate Choice) := []
  attempts : ℕ := 0
  constraintRejections : ℕ := 0
  duplicateRejections : ℕ := 0

section

variable {G Choice Constraint : Type} [DecidableEq Choice] (source : RandomSource G)
  (numerics : Numerics Choice) (accepts : Constraint → Candidate Choice → Bool)
  (constraints : List Constraint)

/-- `first_rejection`.
SOURCE: constraints.py:65-69 -/
def firstRejection (params : Candidate Choice) : Option Constraint :=
  constraints.find? fun constraint => ¬ accepts constraint params

/-- `_candidate`. The grid is not empty when a trial is asked for.
SOURCE: engine.py:521-529 -/
def nextCandidate (parameters : List (SearchParameter Choice)) (config : SearchConfig)
    (grid : List (Candidate Choice)) (history : List (Candidate Choice × ℚ)) (index : ℕ) :
    StateM G (Candidate Choice) :=
  match config.method with
  | .grid | .random => return grid.getD (index % grid.length) Dict.empty
  | .tpe =>
    if 0 < index ∧ index % 5 = 0 then randomCandidate source parameters
    else tpeCandidate source numerics parameters history 48

local instance lawfulIdentities : LawfulBEq Identity := inferInstance

/-- The next fallback candidate that has not been seen, and what the index leaves.
SOURCE: engine.py:127-136 -/
def nextFallback (seen : List Identity) (fallback : List (Candidate Choice)) :
    Option (Candidate Choice) × List (Candidate Choice) :=
  match fallback.dropWhile (identity numerics · ∈ seen) with
  | [] => (none, [])
  | candidate :: rest => (some candidate, rest)

/-- A candidate is evaluated and becomes a trial.
SOURCE: engine.py:137-149 -/
def recordTrial (evaluate : ℕ → Candidate Choice → List ℚ → Evaluation)
    (params : Candidate Choice) (state : SearchState Choice) : SearchState Choice :=
  let number := state.trials.length + 1
  let evaluation := evaluate number params (state.history.map Prod.snd)
  { state with
    seen := state.seen ++ [identity numerics params]
    trials := state.trials ++ [{ number, params, evaluation }]
    history :=
      if evaluation.pruned then state.history
      else state.history ++ [(params, evaluation.searchScore)] }

/-- A candidate that cannot be used is replaced from the fallback list, if that has a new one.
SOURCE: engine.py:126-149 -/
def replaceTrial (evaluate : ℕ → Candidate Choice → List ℚ → Evaluation)
    (state : SearchState Choice) : SearchState Choice :=
  match nextFallback numerics state.seen state.fallback with
  | (none, rest) => { state with fallback := rest }
  | (some replacement, rest) =>
    recordTrial numerics evaluate replacement { state with fallback := rest }

/-- The body of the loop.
SOURCE: engine.py:117-149 -/
def searchStep (evaluate : ℕ → Candidate Choice → List ℚ → Evaluation)
    (parameters : List (SearchParameter Choice)) (config : SearchConfig)
    (grid : List (Candidate Choice)) (state : SearchState Choice) :
    StateM G (SearchState Choice) := do
  let params ← nextCandidate source numerics parameters config grid state.history
    state.trials.length
  let state := { state with attempts := state.attempts + 1 }
  if (firstRejection accepts constraints params).isSome then
    return replaceTrial numerics evaluate
      { state with constraintRejections := state.constraintRejections + 1 }
  else if identity numerics params ∈ state.seen then
    return replaceTrial numerics evaluate
      { state with duplicateRejections := state.duplicateRejections + 1 }
  else return recordTrial numerics evaluate params state

/-- The loop, with the attempts that are left.
SOURCE: engine.py:114-149 -/
def searchLoop (evaluate : ℕ → Candidate Choice → List ℚ → Evaluation)
    (parameters : List (SearchParameter Choice)) (config : SearchConfig)
    (grid : List (Candidate Choice)) (trialCount : ℕ) :
    ℕ → SearchState Choice → StateM G (SearchState Choice)
  | 0, state => return state
  | attempts + 1, state =>
    if state.trials.length < trialCount then do
      let state ←
        searchStep source numerics accepts constraints evaluate parameters config grid state
      searchLoop evaluate parameters config grid trialCount attempts state
    else return state

/-- The filter of a grid.
SOURCE: engine.py:91 -/
def acceptedBy (params : Candidate Choice) : Bool :=
  (firstRejection accepts constraints params).isNone

/-- The sampled list, and how many combinations its filter rejected.
SOURCE: engine.py:88-97 -/
def sampledGrid (parameters : List (SearchParameter Choice)) (config : SearchConfig) :
    StateM G (List (Candidate Choice) × ℕ) :=
  match config.method with
  | .grid =>
    let scan := gridWithStats parameters config.trials (acceptedBy accepts constraints)
    return (scan.candidates, scan.rejected)
  | .random => do
    return (← stratifiedCandidates source numerics parameters
      (min config.trials (spaceSize parameters)), 0)
  | .tpe => return ([], 0)

/-- `trial_count`. SOURCE: engine.py:98 -/
def trialCountOf (parameters : List (SearchParameter Choice)) (config : SearchConfig)
    (grid : List (Candidate Choice)) : ℕ :=
  if config.method = .tpe then min config.trials (spaceSize parameters) else grid.length

/-- `fallback_grid`.
SOURCE: engine.py:99-104 -/
def fallbackGrid (parameters : List (SearchParameter Choice)) (config : SearchConfig)
    (trialCount : ℕ) : List (Candidate Choice) :=
  if config.method ≠ .grid ∧ spaceSize parameters ≤ 100000 then
    (gridWithStats parameters (min (spaceSize parameters) (max (trialCount * 3) trialCount))
      (acceptedBy accepts constraints)).candidates
  else []

/-- The search of `StrategyEvolutionEngine.run`.
SOURCE: engine.py:61-64, 84-149 -/
def search (evaluate : ℕ → Candidate Choice → List ℚ → Evaluation)
    (parameters : List (SearchParameter Choice)) (config : SearchConfig) :
    StateM G (Except String (SearchState Choice)) := do
  if parameters = [] then return .error "strategyEvolution.parametersRequired"
  else if 8 < parameters.length then return .error "strategyEvolution.parameterLimitExceeded"
  else
    let (grid, rejected) ← sampledGrid source numerics accepts constraints parameters config
    let trialCount := trialCountOf parameters config grid
    let maxAttempts :=
      if config.method = .grid then trialCount else max (trialCount * 30) (trialCount + 100)
    let state ← searchLoop source numerics accepts constraints evaluate parameters config grid
      trialCount maxAttempts
      { fallback := fallbackGrid accepts constraints parameters config trialCount
        constraintRejections := rejected }
    return .ok state

end

end QuantDinger.Model.Evolution
