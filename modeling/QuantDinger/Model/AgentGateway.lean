import Mathlib.Data.Rat.Defs
import Mathlib.Logic.Function.Basic
import QuantDinger.Library.Runs

/-!
# The agent gateway

`agent_required` counts the requests of a token in a sliding minute, lets a mutating request run
only under a reservation of its `Idempotency-Key`, and logs a redacted summary.

Any number of requests is in flight. Each statement of a request is atomic, and a request may die
between two of them. The log of a slot is a history variable: the reservations and the responses
that were stored, in their order.
-/

namespace QuantDinger.Model.Agent

open QuantDinger.Library

/-! ## Reservations -/

/-- What the unique constraint of `qd_agent_idempotency` is on.
SOURCE: agent_auth.py:517-522 -/
structure IdempotencySlot where
  agentTokenId : ℤ
  method : String
  route : String
  idempotencyKey : String
  deriving DecidableEq

/-- A request: its slot and its `_request_fingerprint`. -/
structure AgentRequest where
  slot : IdempotencySlot
  requestHash : String

/-- A response, as far as it is stored: its JSON payload and its status. -/
structure AgentResponse where
  payload : String
  status : ℕ

/-- A row of `qd_agent_idempotency`. -/
structure IdempotencyRow where
  requestHash : String
  completed : Bool := false
  response : Option AgentResponse := none
  updatedAt : ℤ

/-- The response that a completed row replays.
SOURCE: agent_auth.py:700-704 -/
def IdempotencyRow.replay (row : IdempotencyRow) : AgentResponse :=
  match row.response with
  | none => { payload := "null", status := 200 }
  | some response =>
    { response with status := if response.status = 0 then 200 else response.status }

/-- What a request is answered. -/
inductive GatewayAnswer
  | executed (response : AgentResponse)
  | replayed (response : AgentResponse)
  | mismatch
  | inProgress

/-- How far a request is. The instant is the start of its reserving transaction. -/
inductive RequestStage
  | arrived
  | reading (now : ℤ)
  | renewing (now : ℤ)
  | executing
  | completing (response : AgentResponse)
  | answered (answer : GatewayAnswer)
  | dead

/-- An entry of the history of a slot. -/
inductive SlotEvent
  | reserved (request : ℕ) (requestHash : String) (since : ℤ)
  | stored (requestHash : String) (response : AgentResponse)

structure SlotState where
  row : Option IdempotencyRow := none
  log : List SlotEvent := []

structure Gateway where
  slots : IdempotencySlot → SlotState := fun _ => {}
  stage : ℕ → RequestStage := fun _ => .arrived

/-- A statement of a request, the return of its handler, or its death. -/
inductive GatewayMove
  | insert (i : ℕ) (now : ℤ)
  | select (i : ℕ)
  | renew (i : ℕ)
  | handle (i : ℕ) (response : AgentResponse)
  | complete (i : ℕ) (now : ℤ) (persisted : Bool)
  | die (i : ℕ)

/-- Seconds after which a reservation is stale.
SOURCE: agent_auth.py:543-548 -/
def staleAfter (ttl : Option ℤ) : ℤ :=
  match ttl with
  | some seconds => max 60 seconds
  | none => 900

namespace Gateway

variable (g : Gateway)

/-- A request writes its slot and goes on. -/
def write (i : ℕ) (slot : IdempotencySlot) (state : SlotState) (stage : RequestStage) : Gateway :=
  { slots := Function.update g.slots slot state, stage := Function.update g.stage i stage }

/-- A request goes on. -/
def pass (i : ℕ) (stage : RequestStage) : Gateway :=
  { g with stage := Function.update g.stage i stage }

/-- A request holds the reservation and its handler runs. -/
def start (i : ℕ) (request : AgentRequest) (row : IdempotencyRow) : Gateway :=
  g.write i request.slot
    { row := some row
      log := (g.slots request.slot).log ++ [.reserved i request.requestHash row.updatedAt] }
    .executing

/-- The insert with `ON CONFLICT DO NOTHING`.
SOURCE: agent_auth.py:515-529 -/
def insert (i : ℕ) (request : AgentRequest) (now : ℤ) : Gateway :=
  match (g.slots request.slot).row with
  | none => g.start i request { requestHash := request.requestHash, updatedAt := now }
  | some _ => g.pass i (.reading now)

/-- The row is read: a started reservation of the same request may be taken over, any other row
answers the request.
SOURCE: agent_auth.py:530-541, 568-575 -/
def select (i : ℕ) (request : AgentRequest) (now : ℤ) : Gateway :=
  match (g.slots request.slot).row with
  | none => g.pass i (.answered .inProgress)
  | some row =>
    if row.requestHash ≠ request.requestHash then g.pass i (.answered .mismatch)
    else if row.completed then g.pass i (.answered (.replayed row.replay))
    else g.pass i (.renewing now)

/-- A started row that is stale is taken over.
SOURCE: agent_auth.py:542-575 -/
def renew (ttl : Option ℤ) (i : ℕ) (request : AgentRequest) (now : ℤ) : Gateway :=
  match (g.slots request.slot).row with
  | none => g.pass i (.answered .inProgress)
  | some row =>
    if row.completed = false ∧ row.updatedAt < now - staleAfter ttl then
      g.start i request { row with updatedAt := now }
    else g.pass i (.answered .inProgress)

/-- `_complete_idempotency`, which may fail: the response is returned either way.
SOURCE: agent_auth.py:578-600, 717-727 -/
def complete (i : ℕ) (request : AgentRequest) (response : AgentResponse) (now : ℤ)
    (persisted : Bool) : Gateway :=
  match (g.slots request.slot).row, persisted with
  | some row, true =>
    g.write i request.slot
      { row := some { row with completed := true, response := some response, updatedAt := now }
        log := (g.slots request.slot).log ++ [.stored request.requestHash response] }
      (.answered (.executed response))
  | _, _ => g.pass i (.answered (.executed response))

/-- One step of the gateway. A move that its request is not at changes nothing. -/
def act (ttl : Option ℤ) (requests : ℕ → AgentRequest) (g : Gateway) : GatewayMove → Gateway
  | .insert i now => match g.stage i with
    | .arrived => g.insert i (requests i) now
    | _ => g
  | .select i => match g.stage i with
    | .reading now => g.select i (requests i) now
    | _ => g
  | .renew i => match g.stage i with
    | .renewing now => g.renew ttl i (requests i) now
    | _ => g
  | .handle i response => match g.stage i with
    | .executing => g.pass i (.completing response)
    | _ => g
  | .complete i now persisted => match g.stage i with
    | .completing response => g.complete i (requests i) response now persisted
    | _ => g
  | .die i => g.pass i .dead

end Gateway

/-! ## The sliding minute -/

/-- What `_memory_rate_limit` decides. -/
structure RateDecision where
  allowed : Bool
  limit : ℤ
  remaining : ℤ
  reset : ℤ

/-- `_memory_rate_limit`, with the bucket of the key and the one that it keeps.
SOURCE: agent_auth.py:254-278 -/
def memoryRateLimit (bucket : List ℚ) (now : ℚ) (limitPerMin : ℤ) : RateDecision × List ℚ :=
  let recent := bucket.filter fun t => now - 60 ≤ t
  let reset (first : ℚ) : ℤ := max 1 (first + 60 - now).floor
  if max 1 limitPerMin ≤ recent.length then
    ({ allowed := false
       limit := max 1 limitPerMin
       remaining := 0
       reset := (recent.head?.map reset).getD 60 }, recent)
  else
    ({ allowed := true
       limit := max 1 limitPerMin
       remaining := max 0 (limitPerMin - (recent ++ [now]).length)
       reset := reset (recent.headD now) }, recent ++ [now])

/-- The calls of one bucket, with the instants of those that were allowed. -/
structure RateWindow where
  bucket : List ℚ := []
  accepted : List ℚ := []

def RateWindow.call (window : RateWindow) (now : ℚ) (limitPerMin : ℤ) : RateWindow :=
  let (decision, bucket) := memoryRateLimit window.bucket now limitPerMin
  { bucket := bucket
    accepted := if decision.allowed then window.accepted ++ [now] else window.accepted }

/-! ## The audit log -/

/-- A value of a request or a response. -/
inductive Json
  | null
  | bool (value : Bool)
  | number (literal : String)
  | str (text : String)
  | array (items : List Json)
  | object (fields : List (String × Json))

/-- The keys whose values are not logged.
SOURCE: agent_auth.py:394-418 -/
def redactKeys : List String :=
  ["password", "secret", "secretkey", "secret_key", "token", "apikey", "api_key", "authorization",
    "passphrase", "privatekey", "private_key", "accesstoken", "access_token", "refreshtoken",
    "refresh_token", "bottoken", "bot_token", "webhooksecret", "webhook_secret", "signingsecret",
    "signing_secret", "clientsecret", "client_secret"]

/-- `lower` of a character, as far as ASCII letters come out of it: the Kelvin sign is the only
other character that becomes one of them alone. -/
def lowerChar (c : Char) : Char := if c = Char.ofNat 0x212a then 'k' else c.toLower

/-- The key names a secret.
SOURCE: agent_auth.py:427 -/
def isSecret (key : String) : Bool :=
  redactKeys.contains
    (String.ofList (key.toList.map fun c => lowerChar (if c = '-' then '_' else c)))

/-- Long texts are cut off.
SOURCE: agent_auth.py:434-435 -/
def clip (text : String) : String :=
  if 500 < text.length then String.ofList (text.toList.take 500) ++ "..." else text

/-- `_redact`, with what is left of its four levels.
SOURCE: agent_auth.py:421-437 -/
def redact : ℕ → Json → Json
  | 0, _ => .str "<truncated>"
  | levels + 1, .object fields => .object (fields.map fun field =>
      (field.1, if isSecret field.1 then .str "<redacted>" else redact levels field.2))
  | levels + 1, .array items => .array ((items.take 20).map (redact levels))
  | _ + 1, .str text => .str (clip text)
  | _ + 1, value => value

end QuantDinger.Model.Agent
