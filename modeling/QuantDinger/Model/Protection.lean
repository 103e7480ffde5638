import QuantDinger.Model.Text

/-!
# Position protection

`ProtectionSpec`, `ProtectionState` and `ProtectionEngine`, which the backtest asks once a
bar and a live session on every price. A specification carries the bounds `__post_init__`
clamps its ratios to.
-/

namespace QuantDinger.Model

/-- The side of an open leg. -/
inductive Side
  | long
  | short
  deriving DecidableEq, Repr

/-- `_ratio(value, maximum)`.
SOURCE: protection.py:351-353 -/
def ratio (value maximum : Amount) : Amount := min maximum (max 0 value)

/-- `ProtectionSpec`, with what `__post_init__` establishes.
SOURCE: protection.py:11-34 -/
structure ProtectionSpec where
  stopLossPct : Amount
  takeProfitPct : Amount
  trailingStopPct : Amount
  trailingActivationPct : Amount
  timeLimitSeconds : ℤ
  trailingRebaseOnScaleIn : Bool
  stopLoss_bounds : 0 ≤ stopLossPct ∧ stopLossPct ≤ 1
  takeProfit_bounds : 0 ≤ takeProfitPct ∧ takeProfitPct ≤ 5
  trailingStop_bounds : 0 ≤ trailingStopPct ∧ trailingStopPct ≤ 1
  trailingActivation_bounds : 0 ≤ trailingActivationPct ∧ trailingActivationPct ≤ 5
  timeLimit_nonneg : 0 ≤ timeLimitSeconds
  deriving DecidableEq

/-- The values a strategy passes for a protection: a mapping with an optional nested
`trailing` mapping. An absent value is `none`. -/
structure ProtectionValues where
  stopLossPct : Option Amount := none
  takeProfitPct : Option Amount := none
  trailingStopPct : Option Amount := none
  trailingActivationPct : Option Amount := none
  timeLimitSeconds : Option Amount := none
  trailingRebaseOnScaleIn : Option Bool := none
  trailing : Option (Option Amount × Option Amount) := none

theorem ratio_bounds {value maximum : Amount} (h : 0 ≤ maximum) :
    0 ≤ ratio value maximum ∧ ratio value maximum ≤ maximum :=
  ⟨le_min h (le_max_left _ _), min_le_left _ _⟩

namespace ProtectionSpec

/-- The constructor: every ratio clamped, the time limit truncated and not negative.
SOURCE: protection.py:20-34 -/
def create (stopLoss takeProfit trailingStop trailingActivation timeLimit : Amount)
    (rebase : Bool) : ProtectionSpec where
  stopLossPct := ratio stopLoss 1
  takeProfitPct := ratio takeProfit 5
  trailingStopPct := ratio trailingStop 1
  trailingActivationPct := ratio trailingActivation 5
  timeLimitSeconds := max 0 (if 0 ≤ timeLimit then ⌊timeLimit⌋ else ⌈timeLimit⌉)
  trailingRebaseOnScaleIn := rebase
  stopLoss_bounds := ratio_bounds (by norm_num)
  takeProfit_bounds := ratio_bounds (by norm_num)
  trailingStop_bounds := ratio_bounds (by norm_num)
  trailingActivation_bounds := ratio_bounds (by norm_num)
  timeLimit_nonneg := le_max_left _ _

/-- `enabled`.
SOURCE: protection.py:36-43 -/
def enabled (spec : ProtectionSpec) : Bool :=
  0 < spec.stopLossPct || 0 < spec.takeProfitPct || 0 < spec.trailingStopPct ||
    0 < spec.timeLimitSeconds

/-- `from_value(value, **overrides)`: the overrides win, the nested `trailing` mapping
fills what is still absent, and a specification with nothing enabled is dropped.
SOURCE: protection.py:48-71 -/
def fromValue (value overrides : ProtectionValues) : Option ProtectionSpec :=
  let trailing := overrides.trailing <|> value.trailing
  let spec := create
    ((overrides.stopLossPct <|> value.stopLossPct).getD 0)
    ((overrides.takeProfitPct <|> value.takeProfitPct).getD 0)
    ((overrides.trailingStopPct <|> value.trailingStopPct <|> trailing.bind Prod.fst).getD 0)
    ((overrides.trailingActivationPct <|> value.trailingActivationPct <|>
      trailing.bind Prod.snd).getD 0)
    ((overrides.timeLimitSeconds <|> value.timeLimitSeconds).getD 0)
    ((overrides.trailingRebaseOnScaleIn <|> value.trailingRebaseOnScaleIn).getD true)
  if spec.enabled then some spec else none

/-- `ProtectionSpec.metadata`, in the form `from_value` reads it.
SOURCE: protection.py:45-46 -/
def metadata (spec : ProtectionSpec) : ProtectionValues where
  stopLossPct := some spec.stopLossPct
  takeProfitPct := some spec.takeProfitPct
  trailingStopPct := some spec.trailingStopPct
  trailingActivationPct := some spec.trailingActivationPct
  timeLimitSeconds := some spec.timeLimitSeconds
  trailingRebaseOnScaleIn := some spec.trailingRebaseOnScaleIn

end ProtectionSpec

/-- `ProtectionState`.
SOURCE: protection.py:74-84 -/
structure ProtectionState where
  symbol : Symbol
  side : Side
  entryPrice : Amount
  spec : ProtectionSpec
  openedAt : Time
  highestPrice : Amount
  lowestPrice : Amount
  trailingActive : Bool := false
  deriving DecidableEq

/-- `x or y` on numbers. -/
def orElse (x y : Amount) : Amount := if x ≠ 0 then x else y

namespace ProtectionState

/-- `ProtectionState.open`.
SOURCE: protection.py:86-105 -/
def opened (symbol : Symbol) (side : Side) (entryPrice : Amount) (spec : ProtectionSpec)
    (openedAt : Time) : ProtectionState where
  symbol := symbol
  side := side
  entryPrice := entryPrice
  spec := spec
  openedAt := openedAt
  highestPrice := entryPrice
  lowestPrice := entryPrice

/-- `apply_scale_in`.
SOURCE: protection.py:107-136 -/
def applyScaleIn (state : ProtectionState) (entryPrice fillPrice : Amount)
    (spec : ProtectionSpec) (scaledAt : Time) : ProtectionState :=
  let entry := orElse entryPrice state.entryPrice
  let fill := orElse fillPrice entry
  let reference := if fill ≤ 0 then entry else fill
  let state := { state with entryPrice := entry, spec := spec }
  if spec.trailingRebaseOnScaleIn then
    { state with
      trailingActive := false
      highestPrice := max entry reference
      lowestPrice := min entry reference
      openedAt := scaledAt }
  else if state.trailingActive then state
  else
    { state with
      highestPrice := max entry reference
      lowestPrice := min entry reference }

end ProtectionState

/-- The mapping a protection state is stored as. An absent value is `none`. -/
structure StateMetadata where
  symbol : Option Symbol := none
  side : Option Side := none
  entryPrice : Option Amount := none
  spec : Option ProtectionValues := none
  openedAt : Option Time := none
  highestPrice : Option Amount := none
  lowestPrice : Option Amount := none
  trailingActive : Option Bool := none

namespace ProtectionState

/-- `ProtectionState.metadata`.
SOURCE: protection.py:138-148 -/
def metadata (state : ProtectionState) : StateMetadata where
  symbol := some state.symbol
  side := some state.side
  entryPrice := some state.entryPrice
  spec := some state.spec.metadata
  openedAt := some state.openedAt
  highestPrice := some state.highestPrice
  lowestPrice := some state.lowestPrice
  trailingActive := some state.trailingActive

/-- `from_metadata`: nothing without an enabled specification and a positive entry, and
extremes on their sides of the entry.
SOURCE: protection.py:150-167 -/
def fromMetadata (now : Time) (value : StateMetadata) : Option ProtectionState :=
  let entry := value.entryPrice.getD 0
  match ProtectionSpec.fromValue (value.spec.getD {}) {} with
  | none => none
  | some spec =>
    if entry ≤ 0 then none
    else
      let lowest := value.lowestPrice.getD entry
      some { opened (value.symbol.getD "") (value.side.getD .long) entry spec
          (value.openedAt.getD now) with
        highestPrice := max entry (value.highestPrice.getD entry)
        lowestPrice := min entry (if 0 < lowest then lowest else entry)
        trailingActive := value.trailingActive.getD false }

end ProtectionState

/-- Why a protection closes a position. -/
inductive ExitReason
  | stopLoss
  | trailingStop
  | takeProfit
  | timeLimit
  deriving DecidableEq, Repr

/-- The reason as the order carries it. -/
def ExitReason.text : ExitReason → String
  | .stopLoss => "stop_loss"
  | .trailingStop => "trailing_stop"
  | .takeProfit => "take_profit"
  | .timeLimit => "time_limit"

/-- `ProtectionDecision`.
SOURCE: protection.py:170-177 -/
structure ProtectionDecision where
  symbol : Symbol
  side : Side
  reason : ExitReason
  price : Amount
  triggerPrice : Amount
  timestamp : Time
  deriving DecidableEq

/-- The intrabar modes of the engine. -/
inductive IntrabarMode
  | conservative
  | balanced
  | aggressive
  deriving DecidableEq, Repr

namespace ProtectionEngine

/-- `_decision`.
SOURCE: protection.py:332-348 -/
def decision (state : ProtectionState) (reason : ExitReason) (price trigger : Amount)
    (ts : Time) : ProtectionDecision where
  symbol := state.symbol
  side := state.side
  reason := reason
  price := price
  triggerPrice := trigger
  timestamp := ts

/-- `_trailing_trigger`: the trailing price if trailing is active, and the state with
the activation recorded.
SOURCE: protection.py:286-307 -/
def trailingTrigger (state : ProtectionState) : Option Amount × ProtectionState :=
  if state.spec.trailingStopPct ≤ 0 then (none, state)
  else match state.side with
    | .long =>
      let state := if state.trailingActive = false ∧
          state.entryPrice * (1 + state.spec.trailingActivationPct) ≤ state.highestPrice
        then { state with trailingActive := true } else state
      if state.trailingActive then
        (some (state.highestPrice * (1 - state.spec.trailingStopPct)), state)
      else (none, state)
    | .short =>
      let state := if state.trailingActive = false ∧
          state.lowestPrice ≤ state.entryPrice * (1 - state.spec.trailingActivationPct)
        then { state with trailingActive := true } else state
      if state.trailingActive then
        (some (state.lowestPrice * (1 + state.spec.trailingStopPct)), state)
      else (none, state)

/-- `_time_limit_reached`.
SOURCE: protection.py:309-312 -/
def timeLimitReached (state : ProtectionState) (ts : Time) : Bool :=
  0 < state.spec.timeLimitSeconds && seconds state.spec.timeLimitSeconds ≤ ts - state.openedAt

/-- A stop below a long or above a short: the price it fills at, when the bar touches it. -/
def stopTouched (side : Side) (trigger openPrice high low : Amount) : Option Amount :=
  match side with
  | .long => if low ≤ trigger then some (if openPrice ≤ trigger then openPrice else trigger)
    else none
  | .short => if trigger ≤ high then some (if trigger ≤ openPrice then openPrice else trigger)
    else none

/-- A target above a long or below a short: the price it fills at, when the bar touches it. -/
def targetTouched (side : Side) (trigger openPrice high low : Amount) : Option Amount :=
  match side with
  | .long => if trigger ≤ high then some (if trigger ≤ openPrice then openPrice else trigger)
    else none
  | .short => if low ≤ trigger then some (if openPrice ≤ trigger then openPrice else trigger)
    else none

/-- `_bar_candidates`, with the state `_trailing_trigger` leaves.
SOURCE: protection.py:229-260 -/
def barCandidates (state : ProtectionState) (ts : Time) (openPrice high low : Amount) :
    List ProtectionDecision × ProtectionState :=
  let spec := state.spec
  let entry := state.entryPrice
  let stopTrigger := match state.side with
    | .long => entry * (1 - spec.stopLossPct)
    | .short => entry * (1 + spec.stopLossPct)
  let stop := if 0 < spec.stopLossPct then
      (stopTouched state.side stopTrigger openPrice high low).map fun price =>
        decision state .stopLoss price stopTrigger ts
    else none
  let trailing := trailingTrigger state
  let trail := trailing.1.bind fun trigger =>
    (stopTouched state.side trigger openPrice high low).map fun price =>
      decision state .trailingStop price trigger ts
  let targetTrigger := match state.side with
    | .long => entry * (1 + spec.takeProfitPct)
    | .short => entry * (1 - spec.takeProfitPct)
  let target := if 0 < spec.takeProfitPct then
      (targetTouched state.side targetTrigger openPrice high low).map fun price =>
        decision state .takeProfit price targetTrigger ts
    else none
  let limit := if timeLimitReached state ts then
      some (decision state .timeLimit openPrice openPrice ts)
    else none
  ([stop, trail, target, limit].filterMap id, trailing.2)

/-- The first candidate with the least key. -/
def firstMin {α : Type} (key : α → Amount) : List α → Option α
  | [] => none
  | a :: l => match firstMin key l with
    | none => some a
    | some b => if key b < key a then some b else some a

/-- The priority tables of `_choose`.
SOURCE: protection.py:323-330 -/
def priority (mode : IntrabarMode) (reason : ExitReason) : Amount :=
  match mode, reason with
  | .aggressive, .takeProfit => 0
  | .aggressive, .trailingStop => 1
  | .aggressive, .timeLimit => 2
  | .aggressive, .stopLoss => 3
  | _, .stopLoss => 0
  | _, .trailingStop => 1
  | _, .timeLimit => 2
  | _, .takeProfit => 3

/-- `_choose`.
SOURCE: protection.py:314-330 -/
def choose (mode : IntrabarMode) (candidates : List ProtectionDecision) (reference : Amount) :
    Option ProtectionDecision :=
  match mode with
  | .balanced => firstMin (fun item => |item.triggerPrice - reference|) candidates
  | mode => firstMin (fun item => priority mode item.reason) candidates

/-- `evaluate_bar`: the decision, and the state with the bar's extremes when there is none.
SOURCE: protection.py:189-208 -/
def evaluateBar (mode : IntrabarMode) (state : ProtectionState) (ts : Time)
    (openPrice highPrice lowPrice : Amount) : Option ProtectionDecision × ProtectionState :=
  let high := max openPrice highPrice
  let low := min openPrice lowPrice
  let candidates := barCandidates state ts openPrice high low
  match choose mode candidates.1 openPrice with
  | some decision => (some decision, candidates.2)
  | none => (none, { candidates.2 with
      highestPrice := max candidates.2.highestPrice high
      lowestPrice := min candidates.2.lowestPrice low })

/-- `_price_candidates`, with the state `_trailing_trigger` leaves.
SOURCE: protection.py:262-284 -/
def priceCandidates (state : ProtectionState) (ts : Time) (price : Amount) :
    List ProtectionDecision × ProtectionState :=
  let spec := state.spec
  let entry := state.entryPrice
  let below trigger : Bool := match state.side with
    | .long => price ≤ trigger
    | .short => trigger ≤ price
  let beyond trigger : Bool := match state.side with
    | .long => trigger ≤ price
    | .short => price ≤ trigger
  let stopTrigger := match state.side with
    | .long => entry * (1 - spec.stopLossPct)
    | .short => entry * (1 + spec.stopLossPct)
  let stop := if 0 < spec.stopLossPct ∧ below stopTrigger then
      some (decision state .stopLoss price stopTrigger ts)
    else none
  let trailing := trailingTrigger state
  let trail := trailing.1.bind fun trigger =>
    if below trigger then some (decision state .trailingStop price trigger ts) else none
  let targetTrigger := match state.side with
    | .long => entry * (1 + spec.takeProfitPct)
    | .short => entry * (1 - spec.takeProfitPct)
  let target := if 0 < spec.takeProfitPct ∧ beyond targetTrigger then
      some (decision state .takeProfit price targetTrigger ts)
    else none
  let limit := if timeLimitReached state ts then
      some (decision state .timeLimit price price ts)
    else none
  ([stop, trail, target, limit].filterMap id, trailing.2)

/-- `evaluate_price`: the extremes move first, a price that is not positive is ignored.
SOURCE: protection.py:210-227 -/
def evaluatePrice (mode : IntrabarMode) (state : ProtectionState) (ts : Time)
    (price : Amount) : Option ProtectionDecision × ProtectionState :=
  if price ≤ 0 then (none, state)
  else
    let state := { state with
      highestPrice := max state.highestPrice price
      lowestPrice := min state.lowestPrice price }
    let candidates := priceCandidates state ts price
    (choose mode candidates.1 price, candidates.2)

end ProtectionEngine

end QuantDinger.Model
