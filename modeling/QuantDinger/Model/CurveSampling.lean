import Mathlib.Data.Finset.Sort
import QuantDinger.Library.Spacing

/-!
# Sampling of an equity curve

`curve_sampling.py`: the points a stored backtest keeps of its equity curve. Numbers are exact. A
point carries its `value` (`none` where it is not finite), its saved `drawdown` where it has one,
and its other fields.
-/

namespace QuantDinger.Model

open QuantDinger.Library

/-- A point of an equity curve. -/
structure CurvePoint (δ : Type) where
  value : Option ℚ
  drawdown : Option ℚ
  fields : δ

/-- What the sampling raises. -/
inductive SampleError
  | valueError (message : String)
  | zeroDivision
  | indexError
  deriving DecidableEq

/-- The local variables of the pass over the points. -/
structure CurveScan where
  peak : ℚ
  peakIndex : ℕ
  worst : ℚ
  worstPair : ℕ × ℕ
  low : WithTop ℚ
  lowIndex : ℕ
  high : WithBot ℚ
  highIndex : ℕ
  savedWorst : ℚ
  savedIndex : ℕ
  firstInsolvent : Option ℕ

namespace CurveScan

/-- Before the pass. SOURCE: curve_sampling.py:17-22 -/
def start (initial : ℚ) : CurveScan where
  peak := initial
  peakIndex := 0
  worst := 0
  worstPair := (0, 0)
  low := ⊤
  lowIndex := 0
  high := ⊥
  highIndex := 0
  savedWorst := 0
  savedIndex := 0
  firstInsolvent := none

/-- One point with a finite value.
SOURCE: curve_sampling.py:27-40 -/
def observeValue (scan : CurveScan) (index : ℕ) (value : ℚ) (saved : Option ℚ) : CurveScan :=
  let peaks := scan.peak ≤ 0 ∨ scan.peak < value
  let peak := if peaks then value else scan.peak
  let peakIndex := if peaks then index else scan.peakIndex
  let drawdown := if 0 < peak then (value / peak - 1) * 100 else 0
  let deeper := drawdown < scan.worst
  { peak := peak
    peakIndex := peakIndex
    worst := if deeper then drawdown else scan.worst
    worstPair := if deeper then (peakIndex, index) else scan.worstPair
    low := if (value : WithTop ℚ) < scan.low then value else scan.low
    lowIndex := if (value : WithTop ℚ) < scan.low then index else scan.lowIndex
    high := if scan.high < (value : WithBot ℚ) then value else scan.high
    highIndex := if scan.high < (value : WithBot ℚ) then index else scan.highIndex
    savedWorst := match saved with
      | some saved => if saved < scan.savedWorst then saved else scan.savedWorst
      | none => scan.savedWorst
    savedIndex := match saved with
      | some saved => if saved < scan.savedWorst then index else scan.savedIndex
      | none => scan.savedIndex
    firstInsolvent :=
      if value ≤ 0 ∧ scan.firstInsolvent = none then some index else scan.firstInsolvent }

/-- One point; points without a finite value are passed over.
SOURCE: curve_sampling.py:23-40 -/
def observe {δ : Type} (scan : CurveScan) (index : ℕ) (item : CurvePoint δ) : CurveScan :=
  match item.value with
  | some value => scan.observeValue index value item.drawdown
  | none => scan

/-- The pass over the points.
SOURCE: curve_sampling.py:23-40 -/
def pass {δ : Type} (items : List (CurvePoint δ)) (initial : ℚ) : CurveScan :=
  items.zipIdx.foldl (fun scan entry => scan.observe entry.2 entry.1) (start initial)

/-- `required`, of a curve with `count` points.
SOURCE: curve_sampling.py:16, 42-44 -/
def required (scan : CurveScan) (count : ℕ) : Finset ℕ :=
  let kept : Finset ℕ := {0, count - 1, scan.worstPair.1, scan.worstPair.2, scan.lowIndex,
    scan.highIndex, scan.savedIndex}
  match scan.firstInsolvent with
  | some first => kept ∪ {first - 1, first}
  | none => kept

end CurveScan

/-- `sample_equity_curve`.
SOURCE: curve_sampling.py:9-49 -/
def sampleEquityCurve {δ : Type} (items : List (CurvePoint δ)) (limit : ℤ) (initial : ℚ) :
    Except SampleError (List (CurvePoint δ)) :=
  if items.length ≤ limit then .ok items
  else if limit < 10 then
    .error (.valueError "Equity curve sampling requires at least ten points")
  else
    let required := (CurveScan.pass items initial).required items.length
    let candidates := (List.range items.length).filter (· ∉ required)
    let slots := limit - required.card
    if slots - 1 = 0 then .error .zeroDivision
    else
      let step : ℚ := ((candidates.length : ℤ) - 1 : ℤ) / (slots - 1 : ℤ)
      match (List.range slots.toNat).mapM fun index => candidates[spacedPosition step index]? with
      | none => .error .indexError
      | some picked =>
        .ok (((required ∪ picked.toFinset).sort (· ≤ ·)).filterMap (items[·]?))

end QuantDinger.Model
