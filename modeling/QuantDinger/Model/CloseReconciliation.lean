import QuantDinger.Model.OrderExecution

/-!
# Reconciliation of a reduce-only market close

`close_target_remaining` and the retry loop of `reconcile_reduce_only_market_close`, as a
program over the queries of the account position and the calls of the market executor.
-/

namespace QuantDinger.Model.Live

open QuantDinger.Library

/-- `_EPSILON`. -/
def closeEpsilon : Amount := 1 / 10 ^ 12

/-- The target of a close covers the whole account position.
SOURCE: close_reconciliation.py:76-80 -/
def fullAccountClose (target before : Amount) : Prop :=
  before ≤ target + max closeEpsilon (before * (1 / 10 ^ 9))

instance (target before : Amount) : Decidable (fullAccountClose target before) :=
  inferInstanceAs (Decidable (_ ≤ _))

/-- `close_target_remaining`: the expected position and the part of the target still to be
executed.
SOURCE: close_reconciliation.py:57-81 -/
def closeTargetRemaining (targetQuantity filledQuantity prePosition : Amount)
    (postPosition : Option Amount) : Amount × Amount :=
  let target := max 0 targetQuantity
  let before := max 0 prePosition
  let expected := max 0 (before - min before target)
  let fillGap := max 0 (target - max 0 filledQuantity)
  match postPosition with
  | none => (expected, fillGap)
  | some post =>
    let after := max 0 post
    let positionGap := max 0 (after - expected)
    if positionGap ≤ closeEpsilon then (expected, 0)
    else if fillGap ≤ closeEpsilon then
      (expected, if fullAccountClose target before then positionGap else 0)
    else (expected, min fillGap positionGap)

/-- The `status` of a reconciliation. -/
inductive CloseStatus
  | closed
  | awaitingExchange
  | partialClose
  | dust
  | failed
  deriving DecidableEq

/-- `CloseReconciliationResult`.
SOURCE: close_reconciliation.py:16-27 -/
structure CloseReconciliationResult where
  status : CloseStatus
  targetQuantity : Amount
  filledQuantity : Amount
  prePosition : Amount
  expectedPosition : Amount
  postPosition : Option Amount
  remainingQuantity : Amount
  retryResults : List OrderExecutionResult
  error : String

/-- What the loop is called with. -/
structure CloseRequest where
  intent : OrderIntent
  initialResult : OrderExecutionResult
  prePosition : Amount
  normalizeQuantity : Amount → Amount
  clientOrderId : ℕ → String
  maxWaitSec : Amount := 12

/-- The variables of the loop. -/
structure CloseState where
  totalFilled : Amount
  latest : OrderExecutionResult
  retries : List OrderExecutionResult

namespace CloseRequest

variable (request : CloseRequest)

/-- `target`. -/
def target : Amount := max 0 request.intent.quantity

/-- `before`. -/
def before : Amount := max 0 request.prePosition

/-- `tolerance`. -/
def tolerance : Amount := max closeEpsilon (request.target * (1 / 10 ^ 9))

/-- The variables before the loop.
SOURCE: close_reconciliation.py:104-109 -/
def start : CloseState where
  totalFilled := max 0 request.initialResult.filledQty
  latest := request.initialResult
  retries := []

/-- The position a query observed and the error of the verification.
SOURCE: close_reconciliation.py:112-120 -/
def observe : Except AdapterError Amount → Option Amount × String
  | .ok observed => if observed < 0 then (none, "negative exchange position") else (some observed, "")
  | .error (.unknownOutcome text) => (none, text)
  | .error (.priceBand text) => (none, text)
  | .error (.refused text) => (none, text)
  | .error (.other text) => (none, text)

/-- The residual at one pass of the loop. -/
def residual (state : CloseState) (after : Option Amount) : Amount × Amount :=
  closeTargetRemaining request.target state.totalFilled request.before after

/-- A result with the figures of one pass. -/
def result (state : CloseState) (seen : Option Amount × String) (status : CloseStatus)
    (remaining : Amount) : CloseReconciliationResult where
  status := status
  targetQuantity := request.target
  filledQuantity := state.totalFilled
  prePosition := request.before
  expectedPosition := (request.residual state seen.1).1
  postPosition := seen.1
  remainingQuantity := remaining
  retryResults := state.retries
  error := seen.2

/-- The first two exits of a pass: nothing is left, or the exchange still works an order.
SOURCE: close_reconciliation.py:122-158 -/
def settled (state : CloseState) (seen : Option Amount × String) :
    Option CloseReconciliationResult :=
  let remaining := (request.residual state seen.1).2
  if remaining ≤ request.tolerance then some (request.result state seen .closed 0)
  else if ¬ Terminal state.latest.status then
    some (request.result state seen .awaitingExchange remaining)
  else none

/-- The order of a retry.
SOURCE: close_reconciliation.py:189-196 -/
def retryIntent (attempt : ℕ) (executable remaining : Amount) : OrderIntent :=
  { request.intent with
    quantity := min executable remaining
    price := 0
    quoteAmount := 0
    clientOrderId := some (request.clientOrderId (attempt + 1))
    fallbackClientOrderId := some "" }

/-- The passes of the loop that are left, the attempts made so far being the argument of
the client order id.
SOURCE: close_reconciliation.py:111-213 -/
def loop (request : CloseRequest) :
    (left attempt : ℕ) → CloseState → AdapterProgram CloseReconciliationResult
  | 0, _, state => .call .queryPosition fun response =>
    let seen := observe response
    .done ((request.settled state seen).getD
      (request.result state seen .partialClose (request.residual state seen.1).2))
  | left + 1, attempt, state => .call .queryPosition fun response =>
    let seen := observe response
    let remaining := (request.residual state seen.1).2
    match request.settled state seen with
    | some result => .done result
    | none =>
      let executable := max 0 (request.normalizeQuantity remaining)
      if executable ≤ request.tolerance then .done (request.result state seen .dust remaining)
      else (MarketOrderExecutor.execute request.maxWaitSec
          (request.retryIntent attempt executable remaining)).bind fun latest =>
        let retried := { state with latest := latest, retries := state.retries ++ [latest] }
        if latest.success = false then
          .done { request.result retried seen
              (if latest.status = "unknown" then .awaitingExchange else .failed) remaining with
            error := textOrElse latest.error seen.2 }
        else loop request left (attempt + 1)
          { retried with totalFilled := state.totalFilled + max 0 latest.filledQty }

/-- `reconcile_reduce_only_market_close`.
SOURCE: close_reconciliation.py:84-228 -/
def reconcile (maxRetries : ℕ) : AdapterProgram CloseReconciliationResult :=
  request.loop maxRetries 0 request.start

end CloseRequest

end QuantDinger.Model.Live
