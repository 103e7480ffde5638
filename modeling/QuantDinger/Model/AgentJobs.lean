import QuantDinger.Library.Faults
import QuantDinger.Library.Processes
import QuantDinger.Library.SerialOrder
import QuantDinger.Model.Billing

/-!
# Billed agent jobs

`agent_jobs.py`: the transactions on `qd_agent_jobs`, and the programs that make them: submitting a
job, running it in the thread pool or from Celery, cancelling it, and expiring billed jobs. Progress
events, results, times and texts are left out. A payload stands for a JSON value without the key
`__billing`, which is kept apart. A transaction is one step; its locks are what makes it one.
-/

namespace QuantDinger.Model.AgentJobs

open QuantDinger.Library QuantDinger.Model.Billing

/-! ## The tables -/

/-- `status` of a job. -/
inductive JobStatus
  | queued
  | running
  | succeeded
  | failed
  | cancelled
  deriving DecidableEq, Repr

/-- `status IN ('queued', 'running')`. -/
def JobStatus.live : JobStatus → Bool
  | queued | running => true
  | succeeded | failed | cancelled => false

/-- A row of `qd_agent_jobs`. SOURCE: agent_auth.py:85-100 -/
structure AgentJob (π : Type) where
  jobId : String
  userId : ℕ
  agentTokenId : Option ℕ
  kind : String
  status : JobStatus
  request : π
  /-- `__billing` of the request. -/
  billing : Option Charge
  idempotencyKey : Option String

/-- The tables. The rows of `qd_credits_log` carry their user; the jobs are in the order of their
ids. -/
structure JobStore (π : Type) where
  users : ℕ → Option UserRow
  log : List (ℕ × CreditEntry)
  jobs : List (AgentJob π)

/-- A transaction: what it returns and leaves, or what it raises and is rolled back for. -/
abbrev Transaction (π β : Type) := JobStore π → Except String (β × JobStore π)

section

variable {π β : Type}

/-- The effect of a transaction on what is committed. -/
def Transaction.effect (transaction : Transaction π β) (store : JobStore π) :
    JobStore π × Except String β :=
  match transaction store with
  | .error e => (store, .error e)
  | .ok (result, after) => (after, .ok result)

/-- A transaction over a connection that may fail before or after the commit. -/
def Transaction.attempt (transaction : Transaction π β) (fault : Fault) (store : JobStore π) :
    JobStore π × Except String β :=
  let (after, result) := fault.call store (transaction.effect store)
  (after, result.bind id)

namespace JobStore

variable (store : JobStore π)

/-- The row of a user and the rows of the log with the user. -/
def account (userId : ℕ) : Option (Database UserRow CreditEntry String) :=
  (store.users userId).map fun row =>
    { row := row, entries := (store.log.filter fun entry => entry.1 = userId).map Prod.snd }

/-- What the statements of a billing call have changed. -/
def withAccount (userId : ℕ) (before after : Database UserRow CreditEntry String) : JobStore π :=
  { store with
    users := Function.update store.users userId (some after.row)
    log := store.log ++ (after.entries.drop before.entries.length).map fun entry =>
      (userId, entry) }

/-- `BillingError.args`. -/
def billingCode : BillingError → String
  | .insufficientCredits _ _ _ _ => "INSUFFICIENT_CREDITS"
  | .debitNotFound => "BILLING_DEBIT_NOT_FOUND"

/-- A call of the billing service in the transaction of a job. -/
def bill (userId : ℕ) (script : BillingScript (Except BillingError Charge)) :
    Except String (Charge × JobStore π) :=
  match store.account userId with
  | none => .error "BILLING_ACCOUNT_NOT_FOUND"
  | some account =>
    match script.finish 0 account account with
    | (after, some (.ok charge)) => .ok (charge, store.withAccount userId account after)
    | (_, some (.error e)) => .error (billingCode e)
    | (_, none) => .error "TypeError"

/-- An update of the job with an id. -/
def updateJob (jobId : String) (f : AgentJob π → AgentJob π) : JobStore π :=
  { store with jobs := store.jobs.map fun job => if job.jobId = jobId then f job else job }

/-- The job with an id. -/
def find (jobId : String) : Option (AgentJob π) :=
  store.jobs.find? fun job => job.jobId = jobId

end JobStore

/-! ## Transactions -/

/-- The arguments of `submit_job`. -/
structure SubmitCall (π : Type) where
  userId : ℕ
  agentTokenId : Option ℕ
  kind : String
  payload : π
  idempotencyKey : Option String

/-- The token and the key of a call, `if idempotency_key and agent_token_id`. -/
def SubmitCall.keyed (call : SubmitCall π) : Option (ℕ × String) :=
  match call.agentTokenId, call.idempotencyKey with
  | some token, some key => if token ≠ 0 ∧ key ≠ "" then some (token, key) else none
  | _, _ => none

/-- The job is of the user, token, kind and key of the call. SOURCE: agent_jobs.py:109 -/
def SubmitCall.Names (call : SubmitCall π) (token : ℕ) (key : String) (job : AgentJob π) : Prop :=
  job.userId = call.userId ∧ job.agentTokenId = some token ∧ job.kind = call.kind ∧
    job.idempotencyKey = some key

instance decidableNames (call : SubmitCall π) (token : ℕ) (key : String) (job : AgentJob π) :
    Decidable (call.Names token key job) := by
  unfold SubmitCall.Names
  infer_instance

/-- The job that was submitted with the same key. SOURCE: agent_jobs.py:105-111 -/
def SubmitCall.existing (call : SubmitCall π) (store : JobStore π) : Option (AgentJob π) :=
  match call.keyed with
  | none => none
  | some (token, key) => store.jobs.reverse.find? fun job => call.Names token key job

/-- What the transaction of `submit_job` finds or makes. -/
inductive SubmitReply (π : Type)
  | duplicate (job : AgentJob π)
  | created

/-- The reference of the charge of a job. SOURCE: agent_jobs.py:122 -/
def billingReference (jobId : String) : String := "agent-backtest:" ++ jobId

/-- The two rows agree in a unique index: `job_id`, or `(agent_token_id, kind, idempotency_key)`
where none of them is NULL. SOURCE: agent_auth.py:87, 102-104 -/
def Collide (job other : AgentJob π) : Prop :=
  job.jobId = other.jobId ∨
    job.agentTokenId ≠ none ∧ job.idempotencyKey ≠ none ∧ job.agentTokenId = other.agentTokenId ∧
      job.kind = other.kind ∧ job.idempotencyKey = other.idempotencyKey

instance decidableCollide (job other : AgentJob π) : Decidable (Collide job other) := by
  unfold Collide
  infer_instance

/-- The charge of a job that is submitted, which only backtests have.
SOURCE: agent_jobs.py:120-122 -/
def chargeJob (config : ChargeConfig) (call : SubmitCall π) (jobId : String) :
    Transaction π (Option Charge) := fun store =>
  if call.kind = "backtest" then
    (store.bill call.userId
      (consumeInTransaction config "backtest" (billingReference jobId) closeCall)).map
      fun result => (some result.1, result.2)
  else .ok (none, store)

/-- The row of a job that is submitted. SOURCE: agent_jobs.py:123-134 -/
def SubmitCall.row (call : SubmitCall π) (jobId : String) (billing : Option Charge) :
    AgentJob π where
  jobId := jobId
  userId := call.userId
  agentTokenId := call.agentTokenId
  kind := call.kind
  status := .queued
  request := call.payload
  billing := billing
  idempotencyKey := call.idempotencyKey

/-- The transaction of `submit_job`. SOURCE: agent_jobs.py:103-136 -/
def submitTransaction [DecidableEq π] (config : ChargeConfig) (call : SubmitCall π)
    (jobId : String) : Transaction π (SubmitReply π) := fun store =>
  match call.existing store with
  | some job =>
    if job.request = call.payload then .ok (.duplicate job, store)
    else .error "IDEMPOTENCY_CONFLICT"
  | none =>
    match chargeJob config call jobId store with
    | .error e => .error e
    | .ok (billing, charged) =>
      if (store.users call.userId).isNone then .error "ForeignKeyViolation"
      else if ∃ other ∈ store.jobs, Collide (call.row jobId billing) other then
        .error "UniqueViolation"
      else .ok (.created, { charged with jobs := charged.jobs ++ [call.row jobId billing] })

/-- `_set_status` with `running`: whether a queued row was updated.
SOURCE: agent_jobs.py:409-426 -/
def setRunning (jobId : String) : Transaction π Bool := fun store =>
  if ∃ job ∈ store.jobs, job.jobId = jobId ∧ job.status = .queued then
    .ok (true, store.updateJob jobId fun job =>
      if job.status = .queued then { job with status := .running } else job)
  else .ok (false, store)

/-- `_finish_job`; `_set_result` and `_set_failure` give no user.
SOURCE: agent_jobs.py:429-462 -/
def finishJob (jobId : String) (status : JobStatus) (userId : Option ℕ) : Transaction π Bool :=
  fun store =>
  match store.find jobId with
  | none => .ok (false, store)
  | some row =>
    if (userId ≠ none ∧ userId ≠ some row.userId) ∨ row.status.live = false then
      .ok (false, store)
    else match row.billing with
      | none => .ok (true, store.updateJob jobId fun job => { job with status := status })
      | some charge =>
        if status ≠ .succeeded then
          (store.bill row.userId (refundInTransaction charge closeCall)).map fun result =>
            (true, result.2.updateJob jobId fun job =>
              { job with status := status, billing := some result.1 })
        else .ok (true, store.updateJob jobId fun job =>
          { job with status := status, billing := some charge })

/-- The jobs `expire_billed_jobs` selects; `due` are the old ones, the oldest first.
SOURCE: agent_jobs.py:590-599 -/
def expiredJobs (due : List String) (limit : ℕ) (store : JobStore π) : List String :=
  (due.filter fun jobId => store.jobs.any fun job =>
    job.jobId = jobId ∧ job.status.live = true ∧ job.billing.isSome = true).take limit

/-! ## Programs -/

/-- How a runner ends: it returns, raises `JobCancelledError`, or raises something else. -/
inductive RunnerOutcome
  | returned
  | cancelled
  | raised (error : String)

/-- The calls of the programs. -/
inductive GatewayCall (π : Type)
  | newJobId
  | submit (call : SubmitCall π) (jobId : String)
  | dispatch (jobId : String) (celery : Bool)
  | setRunning (jobId : String)
  | getJob (jobId : String)
  | startRunner (jobId : String) (payload : π)
  | awaitRunner (jobId : String)
  | finish (jobId : String) (status : JobStatus) (userId : Option ℕ)
  | expired

/-- What the calls answer. -/
def GatewayResponse : GatewayCall π → Type
  | .newJobId => String
  | .submit _ _ => Except String (SubmitReply π)
  | .dispatch _ _ => Except String Unit
  | .setRunning _ => Except String Bool
  | .getJob _ => Except String (Option (AgentJob π))
  | .startRunner _ _ => Unit
  | .awaitRunner _ => RunnerOutcome
  | .finish _ _ _ => Except String Bool
  | .expired => Except String (List String)

/-- What the programs return: `_job_receipt`, or nothing of interest. -/
inductive GatewayResult
  | receipt (jobId : String) (status : JobStatus) (duplicate : Bool)
  | finished

/-- A program of the gateway. -/
abbrev GatewayProgram (π : Type) :=
  Interaction (GatewayCall π) GatewayResponse String GatewayResult

/-- `SUPPORTED_KINDS`. SOURCE: tasks/agent_jobs.py:13-21 -/
def supportedKinds : List String :=
  ["backtest", "factor_benchmark", "factor_benchmark_human", "factor_research",
    "strategy_evolution"]

/-- `submit_job`. SOURCE: agent_jobs.py:81-202 -/
def submitJob (celeryEnabled : Bool) (call : SubmitCall π) : GatewayProgram π :=
  .call .newJobId fun jobId => .call (.submit call jobId) fun reply =>
    match reply with
    | .error e => .fail e
    | .ok (.duplicate job) => .done (.receipt job.jobId job.status true)
    | .ok .created =>
      .call (.dispatch jobId (celeryEnabled && call.kind ∈ supportedKinds)) fun sent =>
        match sent with
        | .ok () => .done (.receipt jobId .queued false)
        | .error _ => .call (.finish jobId .failed none) fun failed =>
          match failed with
          | .error e => .fail e
          | .ok _ => .call (.getJob jobId) fun row =>
            match row with
            | .error e => .fail e
            | .ok none => .fail "AttributeError"
            -- the row was selected by this job id
            | .ok (some job) => .done (.receipt jobId job.status false)

/-- `_publish_terminal_state`, of which the look at the row is kept.
SOURCE: agent_jobs.py:327-330 -/
def publishTerminalState (jobId : String) (next : Except String Unit → GatewayProgram π) :
    GatewayProgram π :=
  .call (.getJob jobId) fun row =>
    match row with
    | .error e => next (.error e)
    | .ok _ => next (.ok ())

/-- The handler of an exception of a runner; the Celery task raises it again.
SOURCE: agent_jobs.py:164-180, tasks/agent_jobs.py:87-103 -/
def reportFailure (jobId : String) (reraise : Bool) (error : String) : GatewayProgram π :=
  let ending : GatewayProgram π := if reraise then .fail error else .done .finished
  .call (.finish jobId .failed none) fun failed =>
    match failed with
    | .error e => .fail e
    | .ok true => ending
    | .ok false => publishTerminalState jobId fun published =>
      match published with
      | .error e => .fail e
      | .ok () => ending

/-- The runner and the report of how it ended.
SOURCE: agent_jobs.py:148-180, tasks/agent_jobs.py:69-103 -/
def runAndReport (jobId : String) (payload : π) (reraise : Bool) : GatewayProgram π :=
  .call (.startRunner jobId payload) fun _ => .call (.awaitRunner jobId) fun outcome =>
    match outcome with
    | .returned => .call (.finish jobId .succeeded none) fun succeeded =>
      match succeeded with
      | .error e => reportFailure jobId reraise e
      | .ok true => .done .finished
      | .ok false => publishTerminalState jobId fun published =>
        match published with
        | .error e => reportFailure jobId reraise e
        | .ok () => .done .finished
    | .cancelled => publishTerminalState jobId fun published =>
      match published with
      | .error e => .fail e
      | .ok () => .done .finished
    | .raised e => reportFailure jobId reraise e

/-- `_run` of the thread pool. SOURCE: agent_jobs.py:140-180 -/
def localRun (jobId : String) (payload : π) : GatewayProgram π :=
  .call (.setRunning jobId) fun changed =>
    match changed with
    | .error e => .fail e
    | .ok false => .done .finished
    | .ok true => .call (.getJob jobId) fun row =>
      match row with
      | .error e => .fail e
      | .ok none => runAndReport jobId payload false
      | .ok (some job) =>
        if job.status = .cancelled then .done .finished else runAndReport jobId payload false

/-- `execute_agent_job`. SOURCE: tasks/agent_jobs.py:54-103 -/
def executeAgentJob (jobId : String) : GatewayProgram π :=
  .call (.getJob jobId) fun row =>
    match row with
    | .error e => .fail e
    | .ok none => .fail "Agent job does not exist"
    | .ok (some job) =>
      if job.status.live = false then .done .finished
      else if job.kind ∉ supportedKinds then .fail "Unsupported durable agent job kind"
      else .call (.setRunning jobId) fun changed =>
        match changed with
        | .error e => .fail e
        | .ok false => .done .finished
        | .ok true => runAndReport jobId job.request true

/-- `cancel_job`. SOURCE: agent_jobs.py:577-585 -/
def cancelJob (jobId : String) (userId : ℕ) : GatewayProgram π :=
  .call (.finish jobId .cancelled (some userId)) fun changed =>
    match changed with
    | .error e => .fail e
    | .ok _ => .call (.getJob jobId) fun row =>
      match row with
      | .error e => .fail e
      | .ok _ => .done .finished

/-- The failures `expire_billed_jobs` sets one by one. SOURCE: agent_jobs.py:600 -/
def expireEach : List String → GatewayProgram π
  | [] => .done .finished
  | jobId :: rest => .call (.finish jobId .failed none) fun failed =>
    match failed with
    | .error e => .fail e
    | .ok _ => expireEach rest

/-- `expire_billed_jobs`. SOURCE: agent_jobs.py:588-600 -/
def expireBilledJobs : GatewayProgram π :=
  .call .expired fun rows =>
    match rows with
    | .error e => .fail e
    | .ok jobIds => expireEach jobIds

/-- What is started: a request, the delivery of a job to a worker, or the expiry. A delivery may
come twice, late, for no job, or never. -/
inductive GatewayTask (π : Type)
  | submit (celeryEnabled : Bool) (call : SubmitCall π)
  | deliverLocal (jobId : String) (payload : π)
  | deliverCelery (jobId : String)
  | cancel (jobId : String) (userId : ℕ)
  | expire

/-- The program of a task. -/
def GatewayTask.program : GatewayTask π → GatewayProgram π
  | .submit celeryEnabled call => submitJob celeryEnabled call
  | .deliverLocal jobId payload => localRun jobId payload
  | .deliverCelery jobId => executeAgentJob jobId
  | .cancel jobId userId => cancelJob jobId userId
  | .expire => expireBilledJobs

/-! ## The gateway -/

/-- The tables, and the ids of the jobs whose runner was started. -/
structure Gateway (π : Type) where
  store : JobStore π
  starts : List String := []

/-- What the outside adds to the answer of a call: the fault of the connection, a new id, the
dispatch, the end of the runner, and the jobs that are old enough to expire. -/
structure GatewayInput where
  fault : Fault := .fine
  jobId : String := ""
  sent : Except String Unit := .ok ()
  outcome : RunnerOutcome := .returned
  due : List String := []
  limit : ℕ := 100

/-- The answer of a call. -/
def Gateway.answer [DecidableEq π] (config : ChargeConfig) (input : GatewayInput)
    (c : GatewayCall π) (gateway : Gateway π) : GatewayResponse c × Gateway π :=
  match c with
  | .newJobId => (input.jobId, gateway)
  | .submit call jobId =>
    let (store, reply) := (submitTransaction config call jobId).attempt input.fault gateway.store
    (reply, { gateway with store := store })
  | .dispatch _ _ => (input.sent, gateway)
  | .setRunning jobId =>
    let (store, reply) := (setRunning jobId).attempt input.fault gateway.store
    (reply, { gateway with store := store })
  | .getJob jobId => ((input.fault.call gateway (gateway, gateway.store.find jobId)).2, gateway)
  | .startRunner jobId _ => ((), { gateway with starts := gateway.starts ++ [jobId] })
  | .awaitRunner _ => (input.outcome, gateway)
  | .finish jobId status userId =>
    let (store, reply) := (finishJob jobId status userId).attempt input.fault gateway.store
    (reply, { gateway with store := store })
  | .expired =>
    let expired := expiredJobs input.due input.limit gateway.store
    ((input.fault.call gateway (gateway, expired)).2, gateway)

/-- The gateway with its processes. -/
abbrev GatewaySystem (π : Type) :=
  Processes (GatewayCall π) GatewayResponse String GatewayResult (Gateway π) (GatewayTask π)

/-- One event of the gateway. -/
def gatewayStep [DecidableEq π] (config : ChargeConfig) (system : GatewaySystem π)
    (event : ProcessEvent (GatewayTask π) GatewayInput) : GatewaySystem π :=
  system.step GatewayTask.program (Gateway.answer config) event

end

end QuantDinger.Model.AgentJobs
