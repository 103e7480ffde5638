import Mathlib.Data.List.Sort
import QuantDinger.Library.Dict
import QuantDinger.Library.Draws
import QuantDinger.Library.Grid
import QuantDinger.Model.Text

/-!
# The parameter search

`models.py` and `search.py` of the strategy evolution, and the search loop of `engine.py`: declared
parameters, the samplers that draw candidates from their domains, and the trials a run evaluates.
Numbers are exact.
-/

namespace QuantDinger.Model.Evolution

open Library

/-- The kinds of parameters. SOURCE: models.py:29-37 -/
inductive ParameterKind
  | integer | number | percent | boolean | enum | string
  deriving DecidableEq, Repr

/-- The value of one parameter. A choice is whatever the declaration lists. -/
inductive Value (Choice : Type)
  | integer (n : ℤ)
  | number (x : ℚ)
  | boolean (b : Bool)
  | choice (c : Choice)
  deriving DecidableEq, Repr

/-- `SearchParameter`. SOURCE: models.py:12-20 -/
structure SearchParameter (Choice : Type) where
  name : String
  kind : ParameterKind
  minimum : Option ℚ := none
  maximum : Option ℚ := none
  step : Option ℚ := none
  choices : List Choice := []
  default : Value Choice
  deriving DecidableEq, Repr

/-- The declaration of a parameter, its bounds already read as numbers; what is missing or empty
is `""`, `none` or `[]`. -/
structure ParameterPayload (Choice : Type) where
  name : String := ""
  type : String := ""
  kind : String := ""
  min : Option ℚ := none
  max : Option ℚ := none
  step : Option ℚ := none
  choices : List Choice := []
  options : List Choice := []
  values : List Choice := []
  default : Value Choice

/-- The kind a text names. SOURCE: models.py:27-37 -/
def kindOf : String → Option ParameterKind
  | "int" | "integer" => some .integer
  | "float" | "number" => some .number
  | "percent" => some .percent
  | "bool" | "boolean" => some .boolean
  | "select" | "enum" => some .enum
  | "text" | "string" => some .string
  | _ => none

/-- `a or b` on lists. -/
def orList {α : Type} (a b : List α) : List α := if a.isEmpty then b else a

/-- `a or b` on texts. -/
def orText (a b : String) : String := if a = "" then b else a

/-- `SearchParameter.from_payload`.
SOURCE: models.py:22-56 -/
def SearchParameter.fromPayload {Choice : Type} (payload : ParameterPayload Choice) :
    Except String (SearchParameter Choice) :=
  let name := strip payload.name
  if name = "" then .error "strategyEvolution.parameterNameRequired"
  else
    match kindOf (lower (orText (orText payload.type payload.kind) "number")) with
    | none => .error "strategyEvolution.parameterTypeUnsupported"
    | some kind =>
      let choices := orList (orList payload.choices payload.options) payload.values
      let parameter : SearchParameter Choice :=
        { name, kind, choices, minimum := payload.min, maximum := payload.max,
          step := payload.step, default := payload.default }
      match kind with
      | .integer | .number | .percent =>
        match payload.min, payload.max with
        | some minimum, some maximum =>
          if maximum < minimum then .error "strategyEvolution.parameterRangeInvalid"
          else if payload.step.any (· ≤ 0) then .error "strategyEvolution.parameterStepInvalid"
          else .ok parameter
        | _, _ => .error "strategyEvolution.parameterRangeInvalid"
      | .enum | .string =>
        if choices.isEmpty then .error "strategyEvolution.parameterChoicesRequired"
        else .ok parameter
      | .boolean => .ok parameter

/-- A candidate: one value for each parameter name. -/
abbrev Candidate (Choice : Type) := Dict String (Value Choice)

/-- What tells candidates apart in the search. -/
abbrev Identity := List (String × String)

/-! ## Domains -/

namespace SearchParameter

variable {Choice : Type} (item : SearchParameter Choice)

/-- `float(item.minimum or 0)` -/
def low : ℚ := item.minimum.getD 0

/-- `float(item.maximum if item.maximum is not None else low)` -/
def high : ℚ := item.maximum.getD item.low

/-- `float(item.step or fallback or 1)` -/
def stepOr (fallback : ℚ) : ℚ :=
  if item.step.getD 0 ≠ 0 then item.step.getD 0 else if fallback ≠ 0 then fallback else 1

end SearchParameter

section

variable {Choice : Type}

/-- The whole steps between two bounds, a part of `1e-12` more counted in.
SOURCE: search.py:86-87 -/
def regularSteps (low high step : ℚ) : ℕ := ⌊(high - low) / step + 1 / 10 ^ 12⌋.toNat

/-- How far the maximum may lie beyond the last step and still be that step.
SOURCE: search.py:89 -/
def tolerance (low high : ℚ) : ℚ := max 1 (max |low| |high|) * (1 / 10 ^ 10)

/-- `_domain_size` of a numeric parameter.
SOURCE: search.py:82-90 -/
def steppedSize (low high step : ℚ) : ℕ :=
  if high ≤ low then 1
  else
    regularSteps low high step + 1 +
      if low + regularSteps low high step * step < high - tolerance low high then 1 else 0

/-- `_domain_size`.
SOURCE: search.py:75-90 -/
def domainSize (item : SearchParameter Choice) : ℕ :=
  if item.kind = .boolean then 2
  else if item.choices ≠ [] then max 1 item.choices.length
  else steppedSize item.low item.high (item.stepOr ((item.high - item.low) / 9))

/-- `_domain_value`.
SOURCE: search.py:248-251 -/
def domainValue (index domainSize : ℕ) (low high step : ℚ) : ℚ :=
  if domainSize - 1 ≤ index then high else min high (low + index * step)

/-- `round(value, 10)` -/
def round10 (value : ℚ) : ℚ := roundHalfEven (value * 10 ^ 10) / 10 ^ 10

/-- `_cast`.
SOURCE: search.py:289-292 -/
def SearchParameter.cast (item : SearchParameter Choice) (value : ℚ) : Value Choice :=
  if item.kind = .integer then .integer (roundHalfEven value) else .number (round10 value)

/-- `sorted` of a set of indices. -/
def sortedSet (indices : List ℕ) : List ℕ := indices.dedup.insertionSort (· ≤ ·)

/-- The domain indices a grid axis takes.
SOURCE: search.py:168-174 -/
def axisIndices (domainSize limit : ℕ) : List ℕ :=
  if domainSize ≤ limit then List.range domainSize
  else if limit ≤ 1 then [0]
  else
    sortedSet ((List.range limit).map fun index : ℕ =>
      (roundHalfEven (index * (domainSize - 1) / (limit - 1))).toNat)

/-- `_grid_values`.
SOURCE: search.py:160-176 -/
def gridValues (item : SearchParameter Choice) (limit : ℕ) : List (Value Choice) :=
  if item.kind = .boolean then [.boolean false, .boolean true]
  else if item.choices ≠ [] then item.choices.map .choice
  else
    let step := item.stepOr ((item.high - item.low) / max 1 (min limit 10 - 1 : ℕ))
    (axisIndices (domainSize item) limit).map fun index =>
      item.cast (domainValue index (domainSize item) item.low item.high step)

/-- `_value_at_domain_index`. An index of a choice is below their number.
SOURCE: search.py:190-198 -/
def valueAtDomainIndex (item : SearchParameter Choice) (index size : ℕ) : Value Choice :=
  if item.kind = .boolean then .boolean (index ≠ 0)
  else
    match item.choices with
    | first :: rest => .choice ((first :: rest).getD index first)
    | [] =>
      let step := item.stepOr ((item.high - item.low) / 9)
      item.cast (domainValue index size item.low item.high step)

/-- The nearer of two points to a value, the lower one of two equally near ones. -/
def nearer (value a b : ℚ) : ℚ :=
  if |b - value| < |a - value| ∨ |b - value| = |a - value| ∧ b < a then b else a

/-- `_snap_to_domain`.
SOURCE: search.py:253-267 -/
def snapToDomain (item : SearchParameter Choice) (value : ℚ) : ℚ :=
  let low := item.low
  let high := item.high
  let step := item.stepOr 1
  let size := domainSize item
  if size ≤ 1 then low
  else
    let rawIndex := (value - low) / step
    let clamp (index : ℤ) : ℕ := (max 0 (min ((size : ℤ) - 1) index)).toNat
    let point (index : ℕ) := domainValue index size low high step
    nearer value (nearer value (point (clamp ⌊rawIndex⌋)) (point (clamp ⌈rawIndex⌉)))
      (point (size - 1))

/-! ## Grids -/

/-- `itertools.product`. -/
def product {α : Type} : List (List α) → List (List α)
  | [] => [[]]
  | axis :: axes => axis.flatMap fun value => (product axes).map (value :: ·)

/-- The values of a flat index on the axes, and what is left of it.
SOURCE: search.py:228-234 -/
def combinationFrom {α : Type} : List (List α) → ℕ → Option (List α × ℕ)
  | [], remaining => some ([], remaining)
  | axis :: axes, flatIndex => do
    let (values, remaining) ← combinationFrom axes flatIndex
    let value ← axis[remaining % axis.length]?
    return (value :: values, remaining / axis.length)

/-- `_combination_at`.
SOURCE: search.py:227-234 -/
def combinationAt {α : Type} (axes : List (List α)) (flatIndex : ℕ) : Option (List α) :=
  (combinationFrom axes flatIndex).map Prod.fst

/-- `_spread_indices`.
SOURCE: search.py:237-245 -/
def spreadIndices (total count : ℕ) : List ℕ :=
  if total ≤ count then List.range total
  else if count ≤ 1 then [0]
  else (List.range count).map fun index : ℕ =>
    (roundHalfEven (index * (total - 1) / (count - 1))).toNat

/-- `{item.name: value for item, value in zip(parameters, values)}` -/
def candidateOf (parameters : List (SearchParameter Choice)) (values : List (Value Choice)) :
    Candidate Choice :=
  Dict.ofPairs ((parameters.map (·.name)).zip values)

/-- What a scan over combinations has collected. -/
structure GridScan (Choice : Type) where
  candidates : List (Candidate Choice) := []
  scanned : ℕ := 0
  eligible : ℕ := 0
  rejected : ℕ := 0

/-- The loop of `grid_with_stats`.
SOURCE: search.py:43-53 -/
def scanCombinations (accept : Candidate Choice → Bool) (limit : ℕ) :
    List (Candidate Choice) → GridScan Choice → GridScan Choice
  | [], state => state
  | candidate :: rest, state =>
    let state := { state with scanned := state.scanned + 1 }
    if ¬ accept candidate then
      scanCombinations accept limit rest { state with rejected := state.rejected + 1 }
    else
      let state := { state with eligible := state.eligible + 1
                                candidates := state.candidates ++ [candidate] }
      if limit ≤ state.candidates.length then state else scanCombinations accept limit rest state

/-- The combinations a grid scans. There are more than `limit` of them only if no axis is empty.
SOURCE: search.py:24-42 -/
def combinations (parameters : List (SearchParameter Choice)) (limit : ℕ) :
    List (List (Value Choice)) :=
  let axes := parameters.map (gridValues · limit)
  let combinationCount := (axes.map List.length).prod
  let maxScan := max (limit * 30) (limit + 100)
  if combinationCount ≤ limit then product axes
  else
    let sampleCount := min combinationCount maxScan
    let primary := spreadIndices combinationCount (min limit combinationCount)
    let backup := (spreadIndices combinationCount sampleCount).filter (· ∉ primary)
    (primary ++ backup).filterMap (combinationAt axes)

/-- `grid_with_stats`. Without a filter every candidate is accepted.
SOURCE: search.py:23-57 -/
def gridWithStats (parameters : List (SearchParameter Choice)) (limit : ℕ)
    (accept : Candidate Choice → Bool) : GridScan Choice :=
  scanCombinations accept limit ((combinations parameters limit).map (candidateOf parameters)) {}

/-- `grid`. SOURCE: search.py:19-21 -/
def grid (parameters : List (SearchParameter Choice)) (limit : ℕ) : List (Candidate Choice) :=
  (gridWithStats parameters limit fun _ => true).candidates

/-- The loop of `space_size`. SOURCE: search.py:69-73 -/
def spaceSizeFrom (cap : ℕ) : List (SearchParameter Choice) → ℕ → ℕ
  | [], size => size
  | item :: rest, size =>
    if cap ≤ size * domainSize item then cap else spaceSizeFrom cap rest (size * domainSize item)

/-- `space_size`.
SOURCE: search.py:67-73 -/
def spaceSize (parameters : List (SearchParameter Choice)) : ℕ :=
  spaceSizeFrom 10000000 parameters 1

end

/-! ## Random candidates -/

/-- What the samplers need of Python and of floating-point functions: how a value is written, the
root in a bandwidth and the density ratio that ranks proposals. -/
structure Numerics (Choice : Type) where
  repr : Value Choice → String
  bandwidth : SearchParameter Choice → ℕ → ℚ
  densityRatio : SearchParameter Choice → Value Choice →
    List (Candidate Choice) → List (Candidate Choice) → ℚ

section

variable {G Choice : Type} [DecidableEq Choice] (source : RandomSource G)
  (numerics : Numerics Choice)

/-- `tuple(sorted((str(key), repr(value)) for key, value in candidate.items()))` -/
def identity (candidate : Candidate Choice) : Identity :=
  (candidate.entries.map fun entry => (entry.1, numerics.repr entry.2)).insertionSort
    fun a b => a.1 < b.1 ∨ a.1 = b.1 ∧ a.2 ≤ b.2

/-- `_random_value`.
SOURCE: search.py:178-188 -/
def randomValue (item : SearchParameter Choice) : StateM G (Value Choice) :=
  if item.kind = .boolean then do
    let bit ← source.index 2
    return .boolean (bit ≠ 0)
  else
    match item.choices with
    | first :: rest => do return .choice (← source.choice first rest)
    | [] => do
      let value ← source.uniform item.low item.high
      let value := if item.step.getD 0 ≠ 0 then snapToDomain item value else value
      return item.cast (min item.high (max item.low value))

/-- `random_candidate`.
SOURCE: search.py:92-93 -/
def randomCandidate (parameters : List (SearchParameter Choice)) : StateM G (Candidate Choice) := do
  return candidateOf parameters (← parameters.mapM (randomValue source))

/-- One axis of a stratified sample.
SOURCE: search.py:107-115 -/
def stratifiedAxis (target : ℕ) (item : SearchParameter Choice) :
    StateM G (List (Value Choice)) := do
  let strata ← source.shuffle (List.range target)
  strata.mapM fun stratum : ℕ => do
    let quantile := (stratum + (← source.fraction)) / target
    let index := min (domainSize item - 1) ⌊quantile * domainSize item⌋.toNat
    return valueAtDomainIndex item index (domainSize item)

/-- The candidates whose identity is new, after those already taken.
SOURCE: search.py:117-124 -/
def appendNew (candidates : List (Candidate Choice)) (candidate : Candidate Choice) :
    List (Candidate Choice) :=
  if identity numerics candidate ∈ candidates.map (identity numerics) then candidates
  else candidates ++ [candidate]

/-- The candidate in a row of the axes. Every axis has all rows. -/
def rowCandidate (parameters : List (SearchParameter Choice))
    (axes : Dict String (List (Value Choice))) (row : ℕ) : Candidate Choice :=
  Dict.ofPairs (parameters.map fun item =>
    (item.name, (((axes.get? item.name).getD [])[row]?).getD item.default))

/-- The second loop of `stratified_candidates`.
SOURCE: search.py:126-134 -/
def fillRandom (parameters : List (SearchParameter Choice)) (target : ℕ) :
    ℕ → List (Candidate Choice) → StateM G (List (Candidate Choice))
  | 0, candidates => return candidates
  | attempts + 1, candidates =>
    if candidates.length < target then do
      let candidate ← randomCandidate source parameters
      fillRandom parameters target attempts (appendNew numerics candidates candidate)
    else return candidates

/-- `stratified_candidates`.
SOURCE: search.py:95-135 -/
def stratifiedCandidates (parameters : List (SearchParameter Choice)) (count : ℕ) :
    StateM G (List (Candidate Choice)) := do
  let target := min count (spaceSize parameters)
  if target = 0 then return []
  else if spaceSize parameters ≤ target ∧ spaceSize parameters ≤ 100000 then
    let candidates ← source.shuffle (grid parameters (spaceSize parameters))
    return candidates.take target
  else
    let columns ← parameters.mapM (stratifiedAxis source target)
    let axes := Dict.ofPairs ((parameters.map (·.name)).zip columns)
    let rows := (List.range target).map (rowCandidate parameters axes)
    fillRandom source numerics parameters target (target * 30)
      (rows.foldl (appendNew numerics) [])

/-- `float(value)`. Under the name of a numeric parameter there are only numbers. -/
def Value.float? : Value Choice → Option ℚ
  | .integer n => some n
  | .number x => some x
  | .boolean b => some (if b then 1 else 0)
  | .choice _ => none

/-- The first of some proposals that lies within the bounds, else a uniform one.
SOURCE: search.py:214-221 -/
def propose (low high center bandwidth : ℚ) : ℕ → StateM G ℚ
  | 0 => source.uniform low high
  | tries + 1 => do
    let proposal ← fun g => source.gauss g center bandwidth
    if low ≤ proposal ∧ proposal ≤ high then return proposal
    else propose low high center bandwidth tries

/-- `Counter(values)`, and one more for each value. -/
def weights (values : List (Value Choice)) : List (Value Choice × ℕ) :=
  (values.reverse.dedup.reverse).map fun value => (value, values.count value + 1)

/-- `_tpe_value`. Nothing is drawn from an empty population.
SOURCE: search.py:200-224 -/
def tpeValue (item : SearchParameter Choice) (good : List (Candidate Choice)) :
    StateM G (Value Choice) :=
  if item.kind = .boolean ∨ item.choices ≠ [] then
    match weights (good.map fun row => (row.get? item.name).getD item.default) with
    | first :: rest => source.weightedChoice first rest
    | [] => return item.default
  else
    match good.filterMap fun row => (row.get? item.name).bind Value.float? with
    | [] => randomValue source item
    | first :: rest => do
      let center ← source.choice first rest
      let value ← propose source item.low item.high center
        (numerics.bandwidth item (first :: rest).length) 8
      let value := if item.step.getD 0 ≠ 0 then snapToDomain item value else value
      return item.cast (min item.high (max item.low value))

/-- The loop of `tpe_candidate` over its samples.
SOURCE: search.py:147-157 -/
def bestProposal (parameters : List (SearchParameter Choice)) (seen : List Identity)
    (good bad : List (Candidate Choice)) :
    ℕ → Option (Candidate Choice × ℚ) → StateM G (Option (Candidate Choice × ℚ))
  | 0, best => return best
  | samples + 1, best => do
    let values ← parameters.mapM fun item => tpeValue source numerics item good
    let candidate := candidateOf parameters values
    if identity numerics candidate ∈ seen then
      bestProposal parameters seen good bad samples best
    else
      let ratio := ((parameters.zip values).map fun entry =>
        numerics.densityRatio entry.1 ((candidate.get? entry.1.name).getD entry.2) good bad).sum
      let better := best.all fun b => b.2 < ratio
      bestProposal parameters seen good bad samples
        (if better then some (candidate, ratio) else best)

/-- `tpe_candidate`.
SOURCE: search.py:137-158 -/
def tpeCandidate (parameters : List (SearchParameter Choice))
    (history : List (Candidate Choice × ℚ)) (samples : ℕ) : StateM G (Candidate Choice) :=
  if history.length < max 5 (parameters.length + 1) then randomCandidate source parameters
  else do
    let ranked := history.mergeSort fun a b => b.2 ≤ a.2
    let split := max 3 (ranked.length / 4)
    let good := (ranked.take split).map Prod.fst
    let bad := (ranked.drop split).map Prod.fst
    let seen := history.map fun row => identity numerics row.1
    match ← bestProposal source numerics parameters seen good bad samples none with
    | some (best, _) => if best.entries = [] then randomCandidate source parameters else return best
    | none => randomCandidate source parameters

end

end QuantDinger.Model.Evolution
