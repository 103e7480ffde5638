import QuantDinger.Library.Grid
import QuantDinger.Model.RuntimeLease

/-!
# Stablecoin payment orders

The orders of one chain, which all pay to the same address and are told apart by their amounts, and
the workers that serve them: the creation of an order, and the refresh of an order with the
confirmation that activates the membership. A worker takes one statement, or one look at the chain,
at a time, and may be lost anywhere. A sweep over many orders is as many workers that have loaded
their rows. The purchase of a membership is one transaction that claims a fulfilment reference.
Payment URIs, addresses and log texts are left out.
-/

namespace QuantDinger.Model.UsdtPayment

open QuantDinger.Library

/-- The supported currencies. -/
inductive Currency
  | usdt
  | usdc
  deriving DecidableEq

/-- The statuses of an order. -/
inductive OrderStatus
  | pending
  | paid
  | expired
  | confirmed
  deriving DecidableEq

/-- A row of `qd_usdt_orders`. -/
structure CryptoOrder where
  userId : ℕ
  plan : String
  currency : Currency
  amount : Amount
  status : OrderStatus := .pending
  txHash : String := ""
  paidAt : Option Time := none
  expiresAt : Option Time
  createdAt : Time
  deriving DecidableEq

/-- The rows that the unique index on (currency, chain, amount) covers. -/
def CryptoOrder.Active (order : CryptoOrder) : Prop :=
  order.status = .pending ∨ order.status = .paid

instance (order : CryptoOrder) : Decidable order.Active := instDecidableOr

/-- A transfer that a watcher reports. -/
structure IncomingTransfer where
  txHash : String
  blockTimestampMs : ℤ := 0
  value : ℤ
  deriving DecidableEq

/-- The settings of the service. -/
structure PaymentConfig where
  enabled : Currency → Bool := fun _ => true
  confirmSeconds : ℤ := 30
  orderExpireMinutes : ℤ := 30
  suffixDecimals : ℕ := 6
  priceUsd : String → Option Amount

/-! ## Amounts -/

/-- `quantize` with `ROUND_HALF_UP`, for amounts that are not negative. -/
def quantizeHalfUp (amount : Amount) (decimals : ℕ) : Amount :=
  ⌊amount * 10 ^ decimals + 1 / 2⌋ / 10 ^ decimals

/-- The amount of an order, with the slot that has been drawn.
SOURCE: usdt_payment/chains.py:238-280 -/
def buildAmountWithSuffix (baseAmount : Amount) (decimals slot : ℕ) : Amount :=
  let space := max 100 (10 ^ (decimals - 2))
  let suffix := quantizeHalfUp (((slot % space + 1 : ℕ) : Amount) / 10 ^ decimals) decimals
  quantizeHalfUp (baseAmount + suffix) decimals

/-! ## The watcher of an EVM chain -/

/-- A transfer log. -/
structure TransferLog where
  block : ℤ
  value : ℤ
  txHash : String
  deriving DecidableEq

/-- What the RPC nodes answer during one scan. -/
structure RpcView where
  blockNumber : Option ℤ
  getLogs : ℤ → ℤ → Option (List TransferLog)

/-- The block time and the largest range of a chain, and the decimals of the token. -/
structure EvmChain where
  avgBlockTime : ℚ
  maxBlockLookback : ℤ
  decimals : ℕ

/-- The first log of the right amount.
SOURCE: usdt_payment/watchers/evm.py:462-492 -/
def matchLog (target : ℤ) (logs : List TransferLog) : Option IncomingTransfer :=
  (logs.find? fun log => target - 1 ≤ log.value ∧ log.value ≤ target + 1).map fun log =>
    { txHash := log.txHash, value := log.value }

/-- The chunks of a scan, from the newest to the oldest.
SOURCE: usdt_payment/watchers/evm.py:432-494 -/
def scanChunks (view : RpcView) (target floorBlock chunkSize : ℤ) : ℕ → ℤ → Option IncomingTransfer
  | 0, _ => none
  | chunks + 1, last =>
    if last < floorBlock then none
    else
      let start := max floorBlock (last - (chunkSize - 1))
      match view.getLogs start last with
      | none => scanChunks view target floorBlock chunkSize chunks (start - 1)
      | some logs => match matchLog target logs with
        | some transfer => some transfer
        | none => scanChunks view target floorBlock chunkSize chunks (start - 1)

/-- `_scan_rpc`. At most four times the largest range is scanned, which five chunks cover.
SOURCE: usdt_payment/watchers/evm.py:366-502 -/
def scanRpc (chain : EvmChain) (view : RpcView) (amount : Amount) (createdAt now : Time) :
    Option IncomingTransfer :=
  let target := roundHalfEven (amount * 10 ^ chain.decimals)
  match view.blockNumber with
  | none => none
  | some latest =>
    let secs : ℚ := max 0 (((now - createdAt : ℤ) : ℚ) / Live.oneSecond + 60)
    let lookback := ⌊secs / chain.avgBlockTime⌋ + 20
    let lookback := max chain.maxBlockLookback (min lookback (chain.maxBlockLookback * 4))
    scanChunks view target (max 0 (latest - lookback)) chain.maxBlockLookback 5 latest

/-! ## The service -/

/-- What a customer asks for. -/
structure OrderRequest where
  userId : ℕ
  plan : String
  currency : Currency
  deriving DecidableEq

/-- Where a worker stands, between two statements. -/
inductive PaymentWorker
  | idle
  | probing (request : OrderRequest)
  | inserting (request : OrderRequest) (baseAmount : Amount) (expiresAt : Time) (attempt : ℕ)
  | loaded (id : ℕ) (row : CryptoOrder)
  | matched (id : ℕ) (transfer : IncomingTransfer) (now : Time)
  | expiring (id : ℕ)
  | confirming (id : ℕ)
  | activating (id : ℕ) (currency : Currency)
  | finishing (id : ℕ)
  deriving DecidableEq

/-- The orders by their ids, the references that are fulfilled, the orders whose membership has
been granted, and the workers. -/
structure PaymentState (ι : Type) where
  orders : ℕ → Option CryptoOrder
  ids : List ℕ
  fulfilled : List String
  granted : List ℕ
  workers : ι → PaymentWorker

/-- What happens: a customer orders, a worker loads an order, a worker takes its next step, or is
lost. -/
inductive PaymentEvent (ι V : Type)
  | create (worker : ι) (request : OrderRequest)
  | load (worker : ι) (id : ℕ)
  | advance (worker : ι) (now : Time) (view : V) (slot : ℕ)
  | crash (worker : ι)

/-- The reference under which the membership of an order is fulfilled.
SOURCE: usdt_payment/service.py:555 -/
def fulfillmentRef (currency : Currency) (id : ℕ) : String :=
  (match currency with
    | .usdt => "usdt_order:"
    | .usdc => "usdc_order:") ++ toString id

section Service

variable {ι V : Type} [DecidableEq ι]

namespace PaymentState

variable (state : PaymentState ι)

/-- The worker goes on. -/
def goes (worker : ι) (next : PaymentWorker) : PaymentState ι :=
  { state with workers := Function.update state.workers worker next }

/-- The row is written. -/
def writes (id : ℕ) (row : CryptoOrder) : PaymentState ι :=
  { state with orders := Function.update state.orders id (some row) }

/-- Another row holds the amount in the unique index. -/
def Collides (id : ℕ) (currency : Currency) (amount : Amount) : Prop :=
  ∃ other ∈ state.ids, other ≠ id ∧ ∃ row ∈ state.orders other,
    row.Active ∧ row.currency = currency ∧ row.amount = amount

instance (id : ℕ) (currency : Currency) (amount : Amount) :
    Decidable (state.Collides id currency amount) := by
  unfold Collides
  infer_instance

/-- `_find_active_order` finds one.
SOURCE: usdt_payment/service.py:291-330 -/
def HasActiveOrder (request : OrderRequest) (now : Time) : Prop :=
  ∃ id ∈ state.ids, ∃ row ∈ state.orders id,
    row.userId = request.userId ∧ row.plan = request.plan ∧ row.currency = request.currency ∧
      row.status = .pending ∧ ∀ expires ∈ row.expiresAt, now < expires

instance (request : OrderRequest) (now : Time) : Decidable (state.HasActiveOrder request now) := by
  unfold HasActiveOrder
  infer_instance

end PaymentState

/-- `_CREATE_RETRY_LIMIT`. -/
def createRetryLimit : ℕ := 10

/-- The id that the table gives to the next row. -/
def nextId (ids : List ℕ) : ℕ := ids.foldr max 0 + 1

/-- The INSERT of a new order.
SOURCE: usdt_payment/service.py:191-289 -/
def insertOrder (config : PaymentConfig) (state : PaymentState ι) (worker : ι)
    (request : OrderRequest) (baseAmount : Amount) (expiresAt : Time) (attempt : ℕ) (now : Time)
    (slot : ℕ) : PaymentState ι :=
  let amount := buildAmountWithSuffix baseAmount config.suffixDecimals slot
  let id := nextId state.ids
  if state.Collides id request.currency amount then
    if attempt + 1 < createRetryLimit then
      state.goes worker (.inserting request baseAmount expiresAt (attempt + 1))
    else state.goes worker .idle
  else
    let row : CryptoOrder :=
      { userId := request.userId
        plan := request.plan
        currency := request.currency
        amount := amount
        expiresAt := some expiresAt
        createdAt := now }
    { (state.writes id row).goes worker .idle with ids := state.ids ++ [id] }

/-- `_refresh_one_order` up to its first statement, with what the watcher finds.
SOURCE: usdt_payment/service.py:441-536 -/
def refreshOne (config : PaymentConfig) (find : V → CryptoOrder → Time → Option IncomingTransfer)
    (state : PaymentState ι) (worker : ι) (id : ℕ) (row : CryptoOrder) (now : Time) (view : V) :
    PaymentState ι :=
  if config.enabled row.currency = false ∨ row.amount ≤ 0 then state.goes worker .idle
  else match row.status with
    | .confirmed => state.goes worker .idle
    | .paid => match row.paidAt with
      | some paidAt =>
        if config.confirmSeconds * Live.oneSecond ≤ now - paidAt then
          state.goes worker (.confirming id)
        else state.goes worker .idle
      | none =>
        if config.confirmSeconds ≤ 0 then state.goes worker (.confirming id)
        else state.goes worker .idle
    | status => match find view row now with
      | some transfer => state.goes worker (.matched id transfer now)
      | none =>
        if status = .pending ∧ ∃ expires ∈ row.expiresAt, expires ≤ now then
          state.goes worker (.expiring id)
        else state.goes worker .idle

/-- After an order has been marked as paid.
SOURCE: usdt_payment/service.py:513-520 -/
def afterPaid (config : PaymentConfig) (transfer : IncomingTransfer) (id : ℕ) (now : Time) :
    PaymentWorker :=
  if transfer.blockTimestampMs ≠ 0 then
    if config.confirmSeconds * Live.oneSecond ≤ now - transfer.blockTimestampMs * 1000 then
      .confirming id
    else .idle
  else if config.confirmSeconds ≤ 0 then .confirming id
  else .idle

/-- The UPDATE that marks an order as paid applies to its row.
SOURCE: usdt_payment/service.py:498-503 -/
def Payable (row : CryptoOrder) : Prop := row.status = .pending ∨ row.status = .expired

instance (row : CryptoOrder) : Decidable (Payable row) := instDecidableOr

/-- An order is marked as paid; a collision in the unique index ends the refresh.
SOURCE: usdt_payment/service.py:494-520 -/
def markPaid (config : PaymentConfig) (state : PaymentState ι) (worker : ι) (id : ℕ)
    (transfer : IncomingTransfer) (readAt now : Time) : PaymentState ι :=
  match state.orders id with
  | none => state.goes worker (afterPaid config transfer id readAt)
  | some row =>
    if Payable row then
      if state.Collides id row.currency row.amount then state.goes worker .idle
      else (state.writes id
        { row with status := .paid, txHash := transfer.txHash, paidAt := some now }).goes worker
          (afterPaid config transfer id readAt)
    else state.goes worker (afterPaid config transfer id readAt)

/-- The transaction of `purchase_membership`.
SOURCE: usdt_payment/service.py:551-560, billing_service.py:349-362 -/
def purchase (state : PaymentState ι) (worker : ι) (id : ℕ) (currency : Currency) :
    PaymentState ι :=
  let ref := fulfillmentRef currency id
  if ref ∈ state.fulfilled then state.goes worker (.finishing id)
  else { state.goes worker (.finishing id) with
    fulfilled := state.fulfilled ++ [ref], granted := state.granted ++ [id] }

/-- An UPDATE of the status where it is one of some.
SOURCE: usdt_payment/service.py:526-536, 561-568 -/
def updateStatus (state : PaymentState ι) (id : ℕ) (among : List OrderStatus)
    (status : OrderStatus) : PaymentState ι :=
  match state.orders id with
  | none => state
  | some row => if row.status ∈ among then state.writes id { row with status := status } else state

/-- The next step of a worker. -/
def PaymentState.advance (config : PaymentConfig)
    (find : V → CryptoOrder → Time → Option IncomingTransfer) (state : PaymentState ι) (worker : ι)
    (now : Time) (view : V) (slot : ℕ) : PaymentState ι :=
  match state.workers worker with
  | .idle => state
  | .probing request =>
    match config.priceUsd request.plan with
    | none => state.goes worker .idle
    | some baseAmount =>
      if config.enabled request.currency = false ∨ baseAmount ≤ 0 ∨
          state.HasActiveOrder request now then state.goes worker .idle
      else state.goes worker (.inserting request baseAmount
        (now + config.orderExpireMinutes * 60 * Live.oneSecond) 0)
  | .inserting request baseAmount expiresAt attempt =>
    insertOrder config state worker request baseAmount expiresAt attempt now slot
  | .loaded id row => refreshOne config find state worker id row now view
  | .matched id transfer readAt => markPaid config state worker id transfer readAt now
  | .expiring id => (updateStatus state id [.pending] .expired).goes worker .idle
  | .confirming id =>
    match state.orders id with
    | none => state.goes worker (.activating id .usdt)
    | some row =>
      if row.status = .confirmed then state.goes worker .idle
      else state.goes worker (.activating id row.currency)
  | .activating id currency => purchase state worker id currency
  | .finishing id => (updateStatus state id [.paid, .pending] .confirmed).goes worker .idle

/-- One event. -/
def PaymentState.step (config : PaymentConfig)
    (find : V → CryptoOrder → Time → Option IncomingTransfer) (state : PaymentState ι)
    (event : PaymentEvent ι V) : PaymentState ι :=
  match event with
  | .create worker request => state.goes worker (.probing request)
  | .load worker id => match state.orders id with
    | none => state.goes worker .idle
    | some row => state.goes worker (.loaded id row)
  | .advance worker now view slot => state.advance config find worker now view slot
  | .crash worker => state.goes worker .idle

/-- No orders yet. -/
def PaymentState.start (ι : Type) (fulfilled : List String) : PaymentState ι :=
  { orders := fun _ => none
    ids := []
    fulfilled := fulfilled
    granted := []
    workers := fun _ => .idle }

end Service

end QuantDinger.Model.UsdtPayment
