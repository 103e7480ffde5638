import QuantDinger.Model.FillPosting

/-!
# Claiming and submitting a pending live order

The client order ids of a pending order, and the worker processes that dispatch it: the
transactions that claim, requeue, release, prepare and mark its queue row, the advisory lock
of its account and instrument, and the external submit. A worker may stop between any two of
them, for any time or for good. Notes and error texts of the row are left out, and so are the
filters of a fetch that only delay it.
-/

namespace QuantDinger.Model.Live

/-! ## Client order ids -/

/-- The phases of a pending order that have an id of their own. -/
inductive OrderPhase
  | whole
  | mkt
  | lmt
  | r1
  | r2
  deriving DecidableEq

/-- The `phase` texts of the worker.
SOURCE: pending_order_worker.py:2057-2060, 2091-2095, 2188-2190 -/
def OrderPhase.text : OrderPhase → String
  | .whole => ""
  | .mkt => "mkt"
  | .lmt => "lmt"
  | .r1 => "r1"
  | .r2 => "r2"

/-- The exchange whose client order ids take letters and digits only. -/
def isOkx (exchangeId : String) : Prop := lower (strip exchangeId) = "okx"

instance (exchangeId : String) : Decidable (isOkx exchangeId) :=
  inferInstanceAs (Decidable (_ = _))

/-- `make_client_order_id`.
SOURCE: live_order_support.py:196-205 -/
def makeClientOrderId (exchangeId : String) (strategyId orderId : ℕ) (phase : String) : String :=
  let ph := lower (strip phase)
  if isOkx exchangeId then
    let base := "qd" ++ toString strategyId ++ toString orderId ++ ph
    let base := String.ofList (base.toList.filter Char.isAlphanum)
    let base := if base = "" then "qd" ++ toString strategyId ++ toString orderId else base
    truncate 32 base
  else "qd_" ++ toString strategyId ++ "_" ++ toString orderId ++ (if ph = "" then "" else "_" ++ ph)

/-! ## The queue row -/

/-- How an order is executed: by a stock broker, or by one of the executors of an exchange. -/
inductive DispatchAlgo
  | broker
  | market
  | marketClose
  | limit
  | limitThenMarket
  deriving DecidableEq

/-- The phases an execution submits, in their order; it may end before the last one.
SOURCE: pending_order_worker.py:1695-1712, 2123-2150, 2183-2193 -/
def DispatchAlgo.phases : DispatchAlgo → List OrderPhase
  | .broker => [.whole]
  | .market => [.mkt]
  | .marketClose => [.mkt, .r1, .r2]
  | .limit => [.lmt]
  | .limitThenMarket => [.lmt, .mkt]

/-- What never changes: the identity of the order, its execution, how long a claim may rest,
and whether its credential gives it a lock.
SOURCE: pending_order_worker.py:139-143, execution_lock.py:60-73 -/
structure DispatchConfig where
  exchangeId : String := "binance"
  strategyId : ℕ := 1
  orderId : ℕ := 1
  algo : DispatchAlgo := .market
  maxAttempts : ℕ := 2
  staleSec : ℕ := 90
  serialized : Bool := true

/-- A row of `pending_orders` as the dispatch sees it; `leverageRetryAttempt` and
`leverageRetryNotBefore` are the fields of its payload, zero when absent. -/
structure QueueRow where
  status : QueueStatus := .pending
  attempts : ℕ := 0
  clientOrderId : String := ""
  updatedAt : ℕ := 0
  leverageRetryAttempt : ℕ := 0
  leverageRetryNotBefore : ℕ := 0
  deriving DecidableEq

/-- The client order id of a phase of the order. -/
def DispatchConfig.clientOrderId (config : DispatchConfig) (phase : OrderPhase) : String :=
  makeClientOrderId config.exchangeId config.strategyId config.orderId phase.text

/-- `MAX_LEVERAGE_RETRIES`. -/
def maxLeverageRetries : ℕ := 3

namespace QueueRow

variable (row : QueueRow) (now : ℕ)

/-- The row has not been written for longer than a claim may rest. -/
def Stale (config : DispatchConfig) : Prop := row.updatedAt + config.staleSec < now

instance (config : DispatchConfig) : Decidable (row.Stale now config) :=
  inferInstanceAs (Decidable (_ < _))

/-- `claim_pending_order` of a pending row: it is claimed while its runtime fence is current
and fails otherwise.
SOURCE: claims.py:12-64 -/
def claim (fenceCurrent : Bool) : QueueRow :=
  if fenceCurrent then
    { row with status := .processing, attempts := row.attempts + 1, updatedAt := now }
  else { row with status := .failed, updatedAt := now }

/-- `_recover_stale_submissions`.
SOURCE: submission_recovery.py:32-52 -/
def recoverStaleSubmission (config : DispatchConfig) : QueueRow :=
  if 0 < config.staleSec ∧ row.status = .processing ∧ row.clientOrderId ≠ "" ∧ row.Stale now config
  then { row with status := .sent, updatedAt := now } else row

/-- The requeue of a stale claim in `_fetch_pending_orders`.
SOURCE: pending_order_worker.py:1233-1262 -/
def requeueStale (config : DispatchConfig) : QueueRow :=
  if 0 < config.staleSec ∧ row.status = .processing ∧ row.clientOrderId = "" ∧
      row.Stale now config ∧ (row.attempts < config.maxAttempts ∨ 0 < row.leverageRetryAttempt)
  then
    { row with
      status := .pending
      attempts := if config.maxAttempts ≤ row.attempts ∧ 0 < row.leverageRetryAttempt
        then config.maxAttempts - 1 else row.attempts
      updatedAt := now }
  else row

/-- The row is returned by `_fetch_pending_orders`.
SOURCE: pending_order_worker.py:1264-1297 -/
def Fetched (config : DispatchConfig) : Prop :=
  row.status = .pending ∧ row.attempts < config.maxAttempts ∧ row.leverageRetryNotBefore ≤ now

instance (config : DispatchConfig) : Decidable (row.Fetched now config) :=
  inferInstanceAs (Decidable (_ ∧ _))

/-- `release_busy_pending_order`.
SOURCE: execution_lock.py:19-36 -/
def releaseBusy : QueueRow :=
  if row.status = .processing then
    { row with status := .pending, attempts := row.attempts - 1, updatedAt := now }
  else row

/-- `schedule_leverage_retry` with the attempt the payload of the dispatch leads to; when the
first update fails, the second one only takes a row in process.
SOURCE: leverage_retry.py:33-95 -/
def scheduleLeverageRetry (attempt : ℕ) (saved : Bool) : QueueRow :=
  if saved then
    { row with
      status := .pending
      attempts := row.attempts - 1
      leverageRetryAttempt := attempt
      leverageRetryNotBefore := now + attempt * 30
      updatedAt := now }
  else if row.status = .processing then
    { row with status := .pending, attempts := row.attempts - 1, updatedAt := now }
  else row

/-- `_mark_deferred`.
SOURCE: pending_order_worker.py:2966-2991 -/
def markDeferred (config : DispatchConfig) : QueueRow :=
  { row with
    status := if config.maxAttempts ≤ row.attempts then .failed else .pending
    updatedAt := now }

/-- `_prepare_submission`: `none` when the lease is lost.
SOURCE: submission_recovery.py:73-108 -/
def prepareSubmission (clientOrderId : String) : Option QueueRow :=
  if row.status = .processing then
    some { row with clientOrderId := clientOrderId, updatedAt := now }
  else none

/-- `_mark_sent`, as far as the dispatch sees it.
SOURCE: pending_order_worker.py:2809-2858 -/
def markSent (clientOrderId : String) (finalFilled : Bool) : QueueRow :=
  { row with
    status := if row.status = .filled ∨ finalFilled = true then .filled else .sent
    clientOrderId := textOrElse clientOrderId row.clientOrderId
    updatedAt := now }

/-- `_mark_submit_unknown`.
SOURCE: submission_recovery.py:141-169 -/
def markSubmitUnknown : QueueRow := { row with status := .sent, updatedAt := now }

/-- `_mark_failed`.
SOURCE: pending_order_worker.py:2936-2964 -/
def markFailed : QueueRow := { row with status := .failed, updatedAt := now }

end QueueRow

/-! ## Workers -/

/-- Where a worker stands. `attempt` is the leverage retry of the payload it fetched, `rest`
the phases its execution has not prepared; `elsewhere` dispatches another order of the same
account and instrument. -/
inductive Stage
  | idle
  | elsewhere
  | fetched (attempt : ℕ)
  | claimed (attempt : ℕ)
  | dispatching (attempt : ℕ)
  | prepared (phase : OrderPhase) (rest : List OrderPhase)
  | submitted (rest : List OrderPhase)
  | leaseLost
  deriving DecidableEq

/-- The queue row, the time, the holder of the lock, the workers, the worker that made the
latest claim, and the phases that were submitted. -/
structure DispatchDesk where
  row : QueueRow := {}
  now : ℕ := 0
  lock : Option ℕ := none
  stage : ℕ → Stage := fun _ => .idle
  owner : Option ℕ := none
  submissions : List OrderPhase := []

/-- The atomic steps. -/
inductive DispatchStep
  | tick (seconds : ℕ)
  | recoverStale
  | requeueStale
  | fetch (worker : ℕ)
  | claim (worker : ℕ) (fenceCurrent : Bool)
  | lock (worker : ℕ)
  | busy (worker : ℕ)
  | leverageRetry (worker : ℕ) (saved : Bool)
  | defer (worker : ℕ)
  | prepare (worker : ℕ)
  | submit (worker : ℕ)
  | markSent (worker : ℕ) (clientOrderId : String) (finalFilled : Bool)
  | markSubmitUnknown (worker : ℕ)
  | markFailed (worker : ℕ)
  | lockElsewhere (worker : ℕ)
  | unlockElsewhere (worker : ℕ)
  | crash (worker : ℕ)
  deriving DecidableEq

namespace DispatchDesk

variable (desk : DispatchDesk)

/-- The worker goes on to a stage. -/
def goto (worker : ℕ) (stage : Stage) : DispatchDesk :=
  { desk with stage := Function.update desk.stage worker stage }

/-- The worker leaves the dispatch: it lets the lock go. -/
def leave (worker : ℕ) : DispatchDesk :=
  { desk.goto worker .idle with lock := if desk.lock = some worker then none else desk.lock }

/-- The worker writes the row and leaves. -/
def finish (worker : ℕ) (row : QueueRow) : DispatchDesk :=
  { desk.leave worker with row := row }

/-- The phases that a worker may prepare next. -/
def todo (config : DispatchConfig) (worker : ℕ) : List OrderPhase :=
  match desk.stage worker with
  | .dispatching _ => config.algo.phases
  | .submitted rest => rest
  | _ => []

/-- One atomic step; a step that its worker is not ready for changes nothing. -/
def act (config : DispatchConfig) : DispatchStep → DispatchDesk
  | .tick seconds => { desk with now := desk.now + seconds }
  | .recoverStale => { desk with row := desk.row.recoverStaleSubmission desk.now config }
  | .requeueStale => { desk with row := desk.row.requeueStale desk.now config }
  | .fetch worker =>
    if desk.stage worker = .idle ∧ desk.row.Fetched desk.now config then
      desk.goto worker (.fetched desk.row.leverageRetryAttempt)
    else desk
  | .claim worker fenceCurrent =>
    match desk.stage worker with
    | .fetched attempt =>
      if desk.row.status = .pending then
        let claimed := { desk with row := desk.row.claim desk.now fenceCurrent }
        if fenceCurrent then
          { claimed.goto worker (.claimed attempt) with owner := some worker }
        else claimed.goto worker .idle
      else desk.goto worker .idle
    | _ => desk
  | .lock worker =>
    match desk.stage worker with
    | .claimed attempt =>
      if config.serialized = false then desk.goto worker (.dispatching attempt)
      else if desk.lock = none then
        { desk.goto worker (.dispatching attempt) with lock := some worker }
      else desk
    | _ => desk
  | .busy worker =>
    match desk.stage worker with
    | .claimed _ =>
      if config.serialized = true ∧ desk.lock ≠ none then
        desk.finish worker (desk.row.releaseBusy desk.now)
      else desk
    | _ => desk
  | .leverageRetry worker saved =>
    match desk.stage worker with
    | .dispatching attempt =>
      if attempt + 1 ≤ maxLeverageRetries then
        desk.finish worker (desk.row.scheduleLeverageRetry desk.now (attempt + 1) saved)
      else desk
    | _ => desk
  | .defer worker =>
    match desk.stage worker with
    | .dispatching _ => desk.finish worker (desk.row.markDeferred desk.now config)
    | _ => desk
  | .prepare worker =>
    match desk.todo config worker with
    | [] => desk
    | phase :: rest =>
      match desk.row.prepareSubmission desk.now (config.clientOrderId phase) with
      | some row => { desk.goto worker (.prepared phase rest) with row := row }
      | none => desk.goto worker .leaseLost
  | .submit worker =>
    match desk.stage worker with
    | .prepared phase rest =>
      { desk.goto worker (.submitted rest) with submissions := desk.submissions ++ [phase] }
    | _ => desk
  | .markSent worker clientOrderId finalFilled =>
    match desk.stage worker with
    | .submitted _ => desk.finish worker (desk.row.markSent desk.now clientOrderId finalFilled)
    | _ => desk
  | .markSubmitUnknown worker =>
    match desk.stage worker with
    | .prepared _ _ => desk.finish worker (desk.row.markSubmitUnknown desk.now)
    | .submitted _ => desk.finish worker (desk.row.markSubmitUnknown desk.now)
    | _ => desk
  | .markFailed worker =>
    match desk.stage worker with
    | .claimed _ => desk.finish worker (desk.row.markFailed desk.now)
    | .dispatching _ => desk.finish worker (desk.row.markFailed desk.now)
    | .prepared _ _ => desk.finish worker (desk.row.markFailed desk.now)
    | .submitted _ => desk.finish worker (desk.row.markFailed desk.now)
    | .leaseLost => desk.finish worker (desk.row.markFailed desk.now)
    | _ => desk
  | .lockElsewhere worker =>
    if desk.stage worker = .idle ∧ desk.lock = none then
      { desk.goto worker .elsewhere with lock := some worker }
    else desk
  | .unlockElsewhere worker =>
    if desk.stage worker = .elsewhere then desk.leave worker else desk
  | .crash worker => desk.leave worker

end DispatchDesk

end QuantDinger.Model.Live
