import QuantDinger.Model.RuntimeLease

/-!
# Lifecycle commands of strategies

The command queue: enqueueing, claiming under a lease, the reports of completion and failure, and
the sweep of exhausted commands. Each is one transaction. A worker that has claimed a command may
report on it at any later time; `claims` remembers which claim a report is for.
-/

namespace QuantDinger.Model.Live

/-- `command_type`. -/
inductive CommandType
  | start
  | stop
  | restart
  | reconcile
  deriving DecidableEq

/-- `status` of a command. -/
inductive CommandStatus
  | pending
  | processing
  | succeeded
  | failed
  | cancelled
  deriving DecidableEq

/-- `TERMINAL_COMMAND_STATUSES`.
SOURCE: strategy_command_repository.py:13 -/
def CommandStatus.terminal : CommandStatus → Bool
  | .succeeded | .failed | .cancelled => true
  | .pending | .processing => false

/-- `payload_json`: the key that is looked at, and the rest. -/
structure CommandPayload where
  closePositions : Bool := false
  body : String := ""
  deriving DecidableEq

/-- A row of `qd_strategy_commands`; `idempotency_key` is unique. -/
structure CommandRow where
  id : ℕ
  strategyId : ℕ
  userId : ℕ
  commandType : CommandType
  status : CommandStatus := .pending
  idempotencyKey : String
  payload : CommandPayload
  result : String := "{}"
  attempts : ℕ := 0
  errorMessage : String := ""
  availableAt : Time
  claimedBy : String := ""
  claimedAt : Option Time := none
  leaseExpiresAt : Option Time := none
  completedAt : Option Time := none
  deriving DecidableEq

/-- A claim of a command, and who made it. -/
structure CommandClaim where
  commandId : ℕ
  owner : String
  deriving DecidableEq

/-- The queue, by ascending ids, and the claims that were made, in order. -/
structure CommandStore where
  rows : List CommandRow := []
  claims : List CommandClaim := []
  deriving DecidableEq

/-- What is enqueued. -/
structure CommandRequest where
  strategyId : ℕ
  commandType : CommandType
  userId : ℕ := 0
  payload : CommandPayload := {}
  idempotencyKey : String
  deriving DecidableEq

namespace CommandStore

variable (store : CommandStore)

/-- The row of a command. -/
def row (id : ℕ) : Option CommandRow := store.rows.find? fun row => row.id = id

/-- An update of the row of a command. -/
def updateRow (id : ℕ) (f : CommandRow → CommandRow) : CommandStore :=
  { store with rows := store.rows.map fun row => if row.id = id then f row else row }

/-- `enqueue`.
SOURCE: strategy_command_repository.py:52-125 -/
def enqueue (now : Time) (request : CommandRequest) : CommandStore :=
  match store.rows.reverse.find? fun row =>
      row.strategyId = request.strategyId ∧ row.commandType = request.commandType ∧
        (row.status = .pending ∨ row.status = .processing) with
  | some row =>
    if request.commandType = .stop ∧ request.payload.closePositions = true ∧
        row.payload.closePositions = false then
      store.updateRow row.id fun row =>
        { row with payload := { row.payload with closePositions := true } }
    else store
  | none =>
    if store.rows.any fun row => row.idempotencyKey = request.idempotencyKey then store
    else { store with rows := store.rows ++ [{
      id := store.rows.length + 1
      strategyId := request.strategyId
      userId := request.userId
      commandType := request.commandType
      idempotencyKey := request.idempotencyKey
      payload := request.payload
      availableAt := now }] }

/-- A command can be claimed.
SOURCE: strategy_command_repository.py:136-152 -/
def Claimable (now : Time) (owner : String) (maxAttempts : ℕ) (leases : ℕ → Option LeaseRow)
    (row : CommandRow) : Prop :=
  row.attempts < maxAttempts ∧
    ((row.status = .pending ∧ row.availableAt ≤ now) ∨
      (row.status = .processing ∧ ∃ expires ∈ row.leaseExpiresAt, expires < now)) ∧
    (row.commandType ∈ [.start, .stop, .reconcile] ∨
      ∀ lease ∈ leases row.strategyId, lease.ownerId = owner ∨ lease.leaseExpiresAt < now)

instance (now : Time) (owner : String) (maxAttempts : ℕ) (leases : ℕ → Option LeaseRow)
    (row : CommandRow) : Decidable (Claimable now owner maxAttempts leases row) :=
  inferInstanceAs (Decidable (_ ∧ _))

/-- `claim_next`; rows that another transaction has locked are skipped.
SOURCE: strategy_command_repository.py:127-177 -/
def claimNext (now : Time) (owner : String) (leaseSeconds : ℤ) (maxAttempts : ℕ)
    (leases : ℕ → Option LeaseRow) (locked : ℕ → Bool) : CommandStore :=
  match store.rows.find? fun row =>
      locked row.id = false ∧ Claimable now owner maxAttempts leases row with
  | none => store
  | some candidate =>
    let claimed := store.updateRow candidate.id fun row =>
      { row with
        status := .processing
        claimedBy := owner
        claimedAt := some (row.claimedAt.getD now)
        leaseExpiresAt := some (now + leaseSeconds * oneSecond)
        attempts := row.attempts + 1 }
    { claimed with claims := store.claims ++ [⟨candidate.id, owner⟩] }

/-- `_finish`.
SOURCE: strategy_command_repository.py:202-222 -/
def finish (now : Time) (id : ℕ) (status : CommandStatus) (result error : String) : CommandStore :=
  store.updateRow id fun row =>
    { row with
      status := status
      result := result
      errorMessage := error
      completedAt := some now
      leaseExpiresAt := none }

/-- `complete`.
SOURCE: strategy_command_repository.py:179-180 -/
def complete (now : Time) (id : ℕ) (result : String) : CommandStore :=
  store.finish now id .succeeded result ""

/-- `fail`, with and without a retry delay.
SOURCE: strategy_command_repository.py:182-200 -/
def fail (now : Time) (id : ℕ) (error : String) (retryDelaySeconds : Option ℤ) : CommandStore :=
  match retryDelaySeconds with
  | none => store.finish now id .failed "{}" (truncate 4000 error)
  | some delay =>
    store.updateRow id fun row =>
      { row with
        status := .pending
        errorMessage := truncate 4000 error
        availableAt := now + delay * oneSecond
        leaseExpiresAt := none }

/-- `fail_exhausted_commands`.
SOURCE: strategy_command_repository.py:458-479 -/
def failExhaustedCommands (now : Time) (maxAttempts : ℕ) : CommandStore :=
  { store with rows := store.rows.map fun row =>
      if row.status = .processing ∧ (∃ expires ∈ row.leaseExpiresAt, expires < now) ∧
          maxAttempts ≤ row.attempts then
        { row with
          status := .failed
          errorMessage :=
            if row.errorMessage = "" then "Command lease expired after maximum attempts."
            else row.errorMessage
          completedAt := some now
          leaseExpiresAt := none }
      else row }

end CommandStore

/-! ## Histories -/

/-- What a worker reports of a command it has claimed. -/
inductive CommandReport
  | complete (result : String)
  | fail (error : String) (retryDelaySeconds : Option ℤ)
  deriving DecidableEq

/-- A transaction on the queue. A report is for the claim with the given number. -/
inductive CommandAction
  | enqueue (request : CommandRequest)
  | claimNext (owner : String) (leaseSeconds : ℤ) (maxAttempts : ℕ)
      (leases : ℕ → Option LeaseRow) (locked : ℕ → Bool)
  | report (claim : ℕ) (report : CommandReport)
  | failExhausted (maxAttempts : ℕ)

/-- A transaction, and what NOW() is when it runs. -/
structure CommandEvent where
  now : Time
  action : CommandAction

/-- One transaction. -/
def CommandStore.step (store : CommandStore) (event : CommandEvent) : CommandStore :=
  match event.action with
  | .enqueue request => store.enqueue event.now request
  | .claimNext owner leaseSeconds maxAttempts leases locked =>
    store.claimNext event.now owner leaseSeconds maxAttempts leases locked
  | .report claim report =>
    match store.claims[claim]? with
    | none => store
    | some made =>
      match report with
      | .complete result => store.complete event.now made.commandId result
      | .fail error retryDelaySeconds =>
        store.fail event.now made.commandId error retryDelaySeconds
  | .failExhausted maxAttempts => store.failExhaustedCommands event.now maxAttempts

end QuantDinger.Model.Live
