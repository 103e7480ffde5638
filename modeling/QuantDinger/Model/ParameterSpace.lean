import QuantDinger.Library.Ladder
import QuantDinger.Model.ParameterSearch

/-!
# The automatic parameter space

`parameter_space.py` of the strategy evolution: how a declared parameter gets its search range, its
step and its recommended window. Numbers are exact.
-/

namespace QuantDinger.Model.Evolution

open Library

/-! ## Declarations -/

/-- What the declarations of parameters hold: any value, with its readings. `finite` is `_finite`,
`item` the `"value"` of a mapping and any other value itself. -/
structure Reading (Choice : Type) where
  finite : Choice → Option ℚ
  item : Choice → Choice
  ofNumber : ℚ → Choice
  ofBool : Bool → Choice

variable {Choice : Type}

/-- `_finite` of a parameter's value. SOURCE: parameter_space.py:401-406 -/
def Reading.number (reading : Reading Choice) : Value Choice → Option ℚ
  | .integer n => some n
  | .number x => some x
  | .boolean b => some (if b then 1 else 0)
  | .choice c => reading.finite c

/-- The roles of parameters. SOURCE: parameter_space.py:303-305 -/
inductive ParameterRole
  | signal | risk | regime
  deriving DecidableEq, Repr

/-- A declaration made ready for the search; what it does not say is `none`. -/
structure NormalizedParameter (Choice : Type) extends ParameterPayload Choice where
  autoRange : Bool := true
  role : ParameterRole
  defaultSelected : Bool
  optimizable : Option Bool := none
  recommendedMin : Option ℚ := none
  recommendedMax : Option ℚ := none

/-- `a or b` on numbers. -/
def orNumber (a : Option ℚ) (b : ℚ) : ℚ := if a.getD 0 ≠ 0 then a.getD 0 else b

/-! ## Names and types -/

/-- `token in name` for one of the tokens. -/
def namesAny (tokens : List String) (name : String) : Bool :=
  tokens.any fun token => decide (token.toList <:+: name.toList)

/-- `_NUMERIC_TYPES`. SOURCE: parameter_space.py:14 -/
def numericTypes : List String := ["int", "integer", "float", "number", "percent"]

/-- `_BOOLEAN_TYPES`. SOURCE: parameter_space.py:15 -/
def booleanTypes : List String := ["bool", "boolean"]

/-- `_RISK_NAME_TOKENS`. SOURCE: parameter_space.py:17-29 -/
def riskNameTokens : List String :=
  ["allocation", "budget", "exposure", "leverage", "position", "risk", "size", "stop",
    "take_profit", "target_pct", "weight"]

/-- `kind in {"int", "integer"}` -/
def isIntegerKind (kind : String) : Bool := kind ∈ ["int", "integer"]

/-- A name that counts bars, orders or layers. SOURCE: parameter_space.py:290 -/
def isCountName (name : String) : Bool :=
  namesAny ["period", "lookback", "window", "length", "bars", "count", "orders", "layers",
    "levels"] (lower name)

/-- A name that counts bars. SOURCE: parameter_space.py:319 -/
def isPeriodName (name : String) : Bool :=
  namesAny ["period", "lookback", "window", "length", "bars"] (lower name)

/-- `_is_percent_name`. SOURCE: parameter_space.py:409-411 -/
def isPercentName (name : String) : Bool :=
  namesAny ["pct", "percent", "ratio", "weight", "allocation", "fraction", "rate"] (lower name)

/-- `_parameter_role`. SOURCE: parameter_space.py:303-305 -/
def parameterRole (name : String) : ParameterRole :=
  if namesAny riskNameTokens (lower name) then .risk else .signal

/-- The type a numeric parameter is searched with.
SOURCE: parameter_space.py:198 -/
def normalizedType (name kind : String) : ParameterKind :=
  if isIntegerKind kind then .integer
  else if kind = "percent" ∨ isPercentName name then .percent else .number

/-- The text of a normalized type. -/
def ParameterKind.text : ParameterKind → String
  | .integer => "integer"
  | .number => "number"
  | .percent => "percent"
  | .boolean => "boolean"
  | .enum => "enum"
  | .string => "string"

/-! ## Choices -/

/-- `_numeric_values`: the numbers listed, ascending.
SOURCE: parameter_space.py:367-375 -/
def numericValues (reading : Reading Choice) (values : List Choice) : List ℚ :=
  ((values.filterMap reading.finite).dedup).insertionSort (· ≤ ·)

/-- The gaps between neighbours. -/
def gaps (values : List ℚ) : List ℚ :=
  (values.zip values.tail).map fun (left, right) => right - left

/-- `_smallest_step`. SOURCE: parameter_space.py:382-384 -/
def smallestStep (values : List ℚ) : ℚ := ((gaps values).filter (0 < ·)).min?.getD 1

/-- `math.isclose` with an absolute tolerance only. -/
def isClose (a b tolerance : ℚ) : Bool := decide (|a - b| ≤ tolerance)

/-- `_is_regular_grid`. SOURCE: parameter_space.py:387-398 -/
def isRegularGrid (values : List ℚ) (minimum maximum step : ℚ) : Bool :=
  let tolerance := max (1 / 10 ^ 10) (|step| * (1 / 10 ^ 8))
  match values.head?, values.getLast? with
  | some first, some last =>
    isClose first minimum tolerance && isClose last maximum tolerance &&
      (gaps values).all fun gap => isClose gap step tolerance
  | _, _ => false

/-! ## Ranges -/

/-- The bounds of a parameter and the step between its values. -/
structure SearchRange where
  minimum : ℚ
  maximum : ℚ
  step : ℚ
  deriving DecidableEq, Repr

/-- `_rounded`. SOURCE: parameter_space.py:425-426 -/
def rounded (value : ℚ) : ℚ := roundTo (1 / 10 ^ 8) value

/-- `_decimal_step`. SOURCE: parameter_space.py:414-422 -/
def decimalStep (low high : ℚ) : ℚ :=
  let span := |high - low|
  if span ≤ 2 / 100 then 1 / 1000
  else if span ≤ 2 / 10 then 5 / 1000
  else if span ≤ 2 then 5 / 100
  else 1 / 10

/-- The number a count-like range is built around.
SOURCE: parameter_space.py:291 -/
def countBase (value : ℚ) : ℤ := max 2 (roundHalfEven (if value ≠ 0 then value else 10))

/-- `_infer_numeric_range`.
SOURCE: parameter_space.py:287-300 -/
def inferNumericRange (name kind : String) (default : Option ℚ) : SearchRange :=
  let value := default.getD 0
  if isIntegerKind kind || isCountName name then
    let base := countBase value
    { minimum := (max 1 (base / 2) : ℤ)
      maximum := (min 1000 (max (base + 1) (base * 2)) : ℤ)
      step := 1 }
  else if isPercentName name then
    if value ≤ 0 then { minimum := 0, maximum := 1 / 10, step := 1 / 100 }
    else
      { minimum := rounded (max 0 (value * (1 / 2)))
        maximum := rounded (min 1 (max (value * (3 / 2)) (value + 1 / 100)))
        step := decimalStep 0 value }
  else if value = 0 then { minimum := -1, maximum := 1, step := 1 / 10 }
  else
    let low := min (value * (1 / 2)) (value * (3 / 2))
    let high := max (value * (1 / 2)) (value * (3 / 2))
    { minimum := rounded low, maximum := rounded high, step := decimalStep low high }

/-- The bounds declared, else those of the numbers listed, with the step so far.
SOURCE: parameter_space.py:187-193 -/
def declaredRange (row : ParameterPayload Choice) (numericChoices : List ℚ) :
    Option ℚ × Option ℚ × Option ℚ :=
  match row.min, row.max, numericChoices.min?, numericChoices.max? with
  | some minimum, some maximum, _, _ => (some minimum, some maximum, row.step)
  | _, _, some minimum, some maximum =>
    (some minimum, some maximum, some (orNumber row.step (smallestStep numericChoices)))
  | minimum, maximum, _, _ => (minimum, maximum, row.step)

/-- The bounds and the step before they are fitted to the type.
SOURCE: parameter_space.py:187-197 -/
def resolvedRange (row : ParameterPayload Choice) (name kind : String) (numericChoices : List ℚ)
    (default : Option ℚ) : ℚ × ℚ × Option ℚ :=
  let inferred := inferNumericRange name kind default
  match declaredRange row numericChoices with
  | (some minimum, some maximum, step) =>
    if maximum < minimum then
      (inferred.minimum, inferred.maximum, some (orNumber step inferred.step))
    else (minimum, maximum, step)
  | (_, _, step) => (inferred.minimum, inferred.maximum, some (orNumber step inferred.step))

/-- The bounds and the step fitted to the type.
SOURCE: parameter_space.py:199-203 -/
def fittedRange (type : ParameterKind) (minimum maximum : ℚ) (step : Option ℚ) : SearchRange :=
  if type = .integer then
    { minimum := ⌊minimum⌋
      maximum := ⌈maximum⌉
      step := (max 1 (roundHalfEven (orNumber step 1)) : ℤ) }
  else
    { minimum, maximum
      step := if 0 < step.getD 0 then step.getD 0 else decimalStep minimum maximum }

/-! ## The recommended window -/

/-- `_snap_to_step`. SOURCE: parameter_space.py:339-342 -/
def snapToStep (value minimum step : ℚ) (ceiling : Bool) : ℚ :=
  let units := (value - minimum) / step
  minimum + (if ceiling then ⌈units⌉ else ⌊units⌋ : ℤ) * step

/-- Where the recommended window should begin and end.
SOURCE: parameter_space.py:318-329 -/
def recommendedTargets (range : SearchRange) (default : ℚ) (kind : ParameterKind) (name : String) :
    ℚ × ℚ :=
  if kind = .integer ∧ isPeriodName name then (default * (1 / 2), default * (5 / 2))
  else if kind = .percent ∨ parameterRole name = .risk then
    (default * (65 / 100), default * (115 / 100))
  else if default = 0 then
    let span := max (range.step * 10) ((range.maximum - range.minimum) * (1 / 4))
    (-span, span)
  else (default * (1 / 2), default * (3 / 2))

/-- The window between two targets, on the steps of the range.
SOURCE: parameter_space.py:330-334 -/
def alignedWindow (range : SearchRange) (lowTarget highTarget : ℚ) : ℚ × ℚ :=
  let low := snapToStep (max range.minimum lowTarget) range.minimum range.step false
  let high := snapToStep (min range.maximum highTarget) range.minimum range.step true
  let low := max range.minimum low
  let high := min range.maximum high
  if high ≤ low then (range.minimum, range.maximum) else (low, high)

/-- `_recommended_numeric_range`.
SOURCE: parameter_space.py:308-337 -/
def recommendedNumericRange (range : SearchRange) (default : Option ℚ) (kind : ParameterKind)
    (name : String) : ℚ × ℚ :=
  match default with
  | none => (range.minimum, range.maximum)
  | some default =>
    if ¬(range.minimum ≤ default ∧ default ≤ range.maximum) then (range.minimum, range.maximum)
    else
      let (lowTarget, highTarget) := recommendedTargets range default kind name
      let (low, high) := alignedWindow range lowTarget highTarget
      if kind = .integer then ((roundHalfEven low : ℤ), (roundHalfEven high : ℤ))
      else (rounded low, rounded high)

/-! ## Parameters -/

/-- The lower-cased type of a declaration. -/
def declaredKind (row : ParameterPayload Choice) : String := lower (orText row.type "number")

/-- The choices of a declaration. -/
def declaredChoices (row : ParameterPayload Choice) : List Choice :=
  orList (orList row.choices row.options) row.values

/-- `_normalize_parameter` of a numeric parameter.
SOURCE: parameter_space.py:187-231 -/
def normalizeNumeric (reading : Reading Choice) (row : ParameterPayload Choice)
    (name kind : String) : NormalizedParameter Choice :=
  let numericChoices := numericValues reading (declaredChoices row)
  let default := reading.number row.default
  let (minimum, maximum, step) := resolvedRange row name kind numericChoices default
  let type := normalizedType name kind
  let range := fittedRange type minimum maximum step
  let choices :=
    if numericChoices ≠ [] ∧
        ¬ isRegularGrid numericChoices range.minimum range.maximum range.step then
      numericChoices.map reading.ofNumber
    else []
  let role := parameterRole name
  let (recommendedMinimum, recommendedMaximum) :=
    recommendedNumericRange range default type name
  { row with
    name, choices, role
    options := []
    values := []
    type := type.text
    min := some range.minimum
    max := some range.maximum
    step := some range.step
    defaultSelected := role = .signal
    recommendedMin := some recommendedMinimum
    recommendedMax := some recommendedMaximum }

/-- `_normalize_parameter`.
SOURCE: parameter_space.py:156-231 -/
def normalizeParameter (reading : Reading Choice) (row : ParameterPayload Choice) :
    Option (NormalizedParameter Choice) :=
  let name := strip row.name
  let kind := declaredKind row
  if name = "" then none
  else if kind ∈ booleanTypes then
    some { row with
      name
      type := "boolean"
      choices := [reading.ofBool false, reading.ofBool true]
      role := .regime
      defaultSelected := false
      optimizable := some false }
  else if kind ∉ numericTypes then
    if declaredChoices row = [] then none
    else
      some { row with
        name
        choices := (declaredChoices row).map reading.item
        role := .regime
        defaultSelected := false
        optimizable := some false }
  else some (normalizeNumeric reading row name kind)

end QuantDinger.Model.Evolution
