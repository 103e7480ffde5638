import QuantDinger.Library.Transcript
import QuantDinger.Model.Text

/-!
# Order executors

`MarketOrderExecutor` and `LimitThenMarketExecutor` as programs over the calls of an
exchange adapter. Every call may raise, and the errors are those the executors tell apart:
an outcome that is not known (`_is_unknown_submit_outcome`), a refusal for the price band
(`is_exchange_price_band_error`), any other `LiveTradingError`, and any other exception.

Of the nested `raw` mappings the summaries of the two legs are kept; nothing else in them
is read.
-/

namespace QuantDinger.Model.Live

open QuantDinger.Library

/-! ## Contracts -/

/-- `OrderIntent` of the adapter contracts, without the exchange configuration.
SOURCE: contracts.py:17-32 -/
structure OrderIntent where
  symbol : String
  side : String
  quantity : Amount
  marketType : String := "swap"
  price : Amount := 0
  posSide : String := ""
  reduceOnly : Bool := false
  clientOrderId : Option String := none
  fallbackClientOrderId : Option String := none
  leverage : Amount := 1
  marginMode : String := "cross"
  postOnly : Bool := false
  quoteAmount : Amount := 0
  deriving DecidableEq

/-- Fees by currency. -/
abbrev Fees := Dict String Amount

/-- `FillSnapshot`.
SOURCE: contracts.py:35-42 -/
structure FillSnapshot where
  filledQty : Amount
  avgPrice : Amount
  status : String
  feesByCcy : Fees := Dict.empty

/-- `LiveOrderResult`.
SOURCE: base.py:140-146 -/
structure LiveOrderResult where
  exchangeId : String := ""
  exchangeOrderId : String := ""
  filled : Amount := 0
  avgPrice : Amount := 0

/-- An exception of the adapter, as the executors tell them apart.
SOURCE: executors.py:19-23, 254-281 -/
inductive AdapterError
  | unknownOutcome (text : String)
  | priceBand (text : String)
  | refused (text : String)
  | other (text : String)
  deriving DecidableEq

/-- A call of the exchange adapter, and the query of the account position. -/
inductive AdapterCall
  | placeMarketOrder (intent : OrderIntent)
  | placeLimitOrder (intent : OrderIntent)
  | cancelOrder (intent : OrderIntent) (orderId : String)
  | waitForFill (intent : OrderIntent) (orderId : String) (maxWaitSec : Amount)
  | queryPosition

/-- What a call returns or raises. -/
def AdapterCall.Response : AdapterCall → Type
  | placeMarketOrder _ => Except AdapterError LiveOrderResult
  | placeLimitOrder _ => Except AdapterError LiveOrderResult
  | cancelOrder .. => Except AdapterError Unit
  | waitForFill .. => Except AdapterError (Option FillSnapshot)
  | queryPosition => Except AdapterError Amount

/-- A program that talks to the adapter. -/
abbrev AdapterProgram := Interaction AdapterCall AdapterCall.Response AdapterError

/-- A call with its response. -/
abbrev AdapterEvent := Sigma AdapterCall.Response

/-- The states `normalize_live_order_status` tells apart. -/
inductive LiveStatus
  | filled
  | cancelled
  | partialFill
  | opened
  | unknown
  deriving DecidableEq

/-- `normalize_live_order_status`.
SOURCE: sent_order_recovery.py:9-19 -/
def normalizeLiveOrderStatus (status : String) : LiveStatus :=
  let normalized := String.ofList ((lower (strip status)).toList.filter (· ≠ '_'))
  if normalized ∈ ["filled", "complete", "completed"] then .filled
  else if normalized ∈ ["cancelled", "canceled", "apicancelled", "inactive", "expired",
      "rejected"] then .cancelled
  else if normalized ∈ ["partiallyfilled", "partial", "partialfill"] then .partialFill
  else if normalized ∈ ["submitted", "presubmitted", "pendingsubmit", "pendingcancel", "open",
      "new"] then .opened
  else .unknown

/-- The status says that the order is at its end. -/
def Terminal (status : String) : Prop :=
  normalizeLiveOrderStatus status = .filled ∨ normalizeLiveOrderStatus status = .cancelled

instance (status : String) : Decidable (Terminal status) :=
  inferInstanceAs (Decidable (_ ∨ _))

/-! ## Results -/

/-- The summary of one leg.
SOURCE: executors.py:234-248 -/
structure LegSummary where
  exchangeOrderId : String
  filledQty : Amount
  avgPrice : Amount
  feesByCcy : Fees := Dict.empty

/-- `OrderExecutionResult`.
SOURCE: executors.py:26-37 -/
structure OrderExecutionResult where
  success : Bool
  exchangeId : String := ""
  exchangeOrderId : String := ""
  filledQty : Amount := 0
  avgPrice : Amount := 0
  status : String := ""
  error : String := ""
  feesByCcy : Fees := Dict.empty
  limitSummary : Option LegSummary := none
  marketSummary : Option LegSummary := none

/-- `x or y` on texts. -/
def textOrElse (x y : String) : String := if x = "" then y else x

/-- `positive_number(value) or 0.0`. -/
def positivePart (value : Amount) : Amount := if 0 < value then value else 0

namespace OrderExecutionResult

/-- `from_live_order`.
SOURCE: executors.py:39-49 -/
def fromLiveOrder (result : LiveOrderResult) (status : String) : OrderExecutionResult where
  success := true
  exchangeId := result.exchangeId
  exchangeOrderId := result.exchangeOrderId
  filledQty := result.filled
  avgPrice := result.avgPrice
  status := status

/-- `rejected`.
SOURCE: executors.py:51-53 -/
def rejected (error : String) : OrderExecutionResult where
  success := false
  status := "rejected"
  error := textOrElse error "order rejected"

/-- `submit_unknown`.
SOURCE: executors.py:55-62 -/
def submitUnknown (error : String) : OrderExecutionResult where
  success := false
  status := "unknown"
  error := textOrElse error "submit outcome unknown"

end OrderExecutionResult

open OrderExecutionResult

/-- `_execution_pair`.
SOURCE: executors.py:285-294 -/
def executionPair (result : LiveOrderResult) (fill : Option FillSnapshot) : Amount × Amount :=
  let placed := result.filled
  match fill with
  | some fill =>
    let observed := fill.filledQty
    if placed ≤ observed then
      let average := positivePart fill.avgPrice
      if observed = placed ∧ average = 0 then (observed, positivePart result.avgPrice)
      else (observed, average)
    else (placed, positivePart result.avgPrice)
  | none => (placed, positivePart result.avgPrice)

/-- `_limit_result`.
SOURCE: executors.py:297-313 -/
def limitResult (result : LiveOrderResult) (fill : Option FillSnapshot) (pending : Bool) :
    OrderExecutionResult :=
  let pair := executionPair result fill
  { success := true
    exchangeId := result.exchangeId
    exchangeOrderId := result.exchangeOrderId
    filledQty := pair.1
    avgPrice := pair.2
    status := if pending then "submitted"
      else textOrElse ((fill.map FillSnapshot.status).getD "") "submitted"
    feesByCcy := (fill.map FillSnapshot.feesByCcy).getD Dict.empty
    limitSummary := some
      { exchangeOrderId := result.exchangeOrderId, filledQty := pair.1, avgPrice := pair.2 } }

/-- `_is_complete`.
SOURCE: executors.py:316-323 -/
def isComplete (fill : Option FillSnapshot) (requestedQty : Amount) : Bool :=
  match fill with
  | none => false
  | some fill =>
    lower (strip fill.status) ∈ ["filled", "closed", "complete"] ||
      (0 < requestedQty && requestedQty * (999999 / 1000000) ≤ fill.filledQty)

/-- `_weighted_avg` of two fills.
SOURCE: executors.py:326-337 -/
def weightedAvg (first second : Amount × Amount) : Amount :=
  let totalQty := max 0 first.1 + max 0 second.1
  if totalQty ≤ 0 then 0
  else if (0 < max 0 first.1 ∧ positivePart first.2 = 0) ∨
      (0 < max 0 second.1 ∧ positivePart second.2 = 0) then 0
  else
    let notional := max 0 first.1 * positivePart first.2 + max 0 second.1 * positivePart second.2
    if 0 < notional then notional / totalQty else 0

/-- `_merge_fee_breakdowns` of two breakdowns.
SOURCE: executors.py:340-350 -/
def mergeFeeBreakdowns (first second : Fees) : Fees :=
  (first.entries ++ second.entries).foldl (fun merged entry =>
    let key := textOrElse (upper (strip entry.1)) "UNKNOWN"
    merged.set key ((merged.get? key).getD 0 + entry.2)) Dict.empty

/-! ## The market executor -/

namespace MarketOrderExecutor

/-- What the executor makes of an order without a snapshot of its fill.
SOURCE: executors.py:105-113 -/
def placedOnly (intent : OrderIntent) (result : LiveOrderResult) : OrderExecutionResult :=
  let placedFill := max 0 result.filled
  let requested := max 0 intent.quantity
  fromLiveOrder result
    (if 0 < requested ∧ requested * (999999 / 1000000) ≤ placedFill then "filled"
      else if 0 < placedFill then "partial" else "submitted")

/-- What the executor makes of an order and a snapshot of its fill.
SOURCE: executors.py:93-104 -/
def observed (result : LiveOrderResult) (fill : FillSnapshot) : OrderExecutionResult :=
  let pair := executionPair result (some fill)
  { success := true
    exchangeId := result.exchangeId
    exchangeOrderId := result.exchangeOrderId
    filledQty := pair.1
    avgPrice := pair.2
    status := textOrElse fill.status "submitted"
    feesByCcy := fill.feesByCcy }

/-- `MarketOrderExecutor.execute`.
SOURCE: executors.py:74-118 -/
def execute (maxWaitSec : Amount) (intent : OrderIntent) : AdapterProgram OrderExecutionResult :=
  .call (.placeMarketOrder intent) fun
    | .error (.unknownOutcome text) => .done (submitUnknown text)
    | .error (.priceBand text) => .done (rejected text)
    | .error (.refused text) => .done (rejected text)
    | .error (.other text) => .fail (.other text)
    | .ok result => .call (.waitForFill intent result.exchangeOrderId maxWaitSec) fun
      | .error _ => .done (fromLiveOrder result "submitted")
      | .ok (some fill) => .done (observed result fill)
      | .ok none => .done (placedOnly intent result)

end MarketOrderExecutor

/-! ## The limit-then-market executor -/

namespace LimitThenMarketExecutor

/-- The market order that follows a settled limit order.
SOURCE: executors.py:181-191 -/
def marketIntent (intent : OrderIntent) (fill : FillSnapshot) : OrderIntent :=
  { intent with
    quantity := max 0 (intent.quantity - fill.filledQty)
    price := 0
    clientOrderId := match intent.fallbackClientOrderId with
      | some reference => if reference = "" then intent.clientOrderId else some reference
      | none => intent.clientOrderId
    quoteAmount := max 0 (intent.quoteAmount - fill.filledQty * fill.avgPrice) }

/-- The result of both legs.
SOURCE: executors.py:193-252 -/
def bothLegs (result : LiveOrderResult) (fill : FillSnapshot) (market : OrderExecutionResult) :
    OrderExecutionResult :=
  if market.success = false then
    if market.status = "unknown" then
      { market with
        filledQty := fill.filledQty, avgPrice := fill.avgPrice, feesByCcy := fill.feesByCcy }
    else limitResult result (some fill) false
  else
    { success := true
      exchangeId := textOrElse market.exchangeId result.exchangeId
      exchangeOrderId := textOrElse market.exchangeOrderId result.exchangeOrderId
      filledQty := fill.filledQty + market.filledQty
      avgPrice := weightedAvg (fill.filledQty, fill.avgPrice) (market.filledQty, market.avgPrice)
      status := textOrElse market.status "submitted"
      error := market.error
      feesByCcy := mergeFeeBreakdowns fill.feesByCcy market.feesByCcy
      limitSummary := some
        { exchangeOrderId := result.exchangeOrderId
          filledQty := fill.filledQty
          avgPrice := fill.avgPrice
          feesByCcy := fill.feesByCcy }
      marketSummary := some
        { exchangeOrderId := market.exchangeOrderId
          filledQty := market.filledQty
          avgPrice := market.avgPrice
          feesByCcy := market.feesByCcy } }

/-- The rest of `execute` once a snapshot after the cancellation is there. An exception of
the market leg is caught.
SOURCE: executors.py:174-256 -/
def settle (intent : OrderIntent) (result : LiveOrderResult) (fill : FillSnapshot) :
    AdapterProgram OrderExecutionResult :=
  if ¬ Terminal fill.status then .done (limitResult result (some fill) true)
  else if 0 < fill.filledQty ∧ fill.avgPrice ≤ 0 then
    .done (limitResult result (some fill) true)
  else if max 0 (intent.quantity - fill.filledQty) ≤ 0 ∨ isComplete (some fill) intent.quantity then
    .done (limitResult result (some fill) false)
  else if 0 < intent.quoteAmount ∧ (marketIntent intent fill).quoteAmount ≤ 0 then
    .done (limitResult result (some fill) false)
  else (MarketOrderExecutor.execute 12 (marketIntent intent fill)).attempt.bind fun
    | .ok market => .done (bothLegs result fill market)
    | .error _ => .done (limitResult result (some fill) true)

/-- `execute` once the limit order is placed. `result` is known from here on, so every
exception defers to a later reconciliation.
SOURCE: executors.py:159-173, 253-256 -/
def afterPlacing (maxWaitSec : Amount) (fallbackToMarket : Bool) (intent : OrderIntent)
    (result : LiveOrderResult) : AdapterProgram OrderExecutionResult :=
  .call (.waitForFill intent result.exchangeOrderId maxWaitSec) fun
    | .error _ => .done (limitResult result none true)
    | .ok fill =>
      if isComplete fill intent.quantity then .done (limitResult result fill false)
      else if fallbackToMarket = false then .done (limitResult result fill false)
      else .call (.cancelOrder intent result.exchangeOrderId) fun
        | .error _ => .done (limitResult result fill true)
        | .ok _ => .call (.waitForFill intent result.exchangeOrderId maxWaitSec) fun
          | .error _ => .done (limitResult result fill true)
          | .ok none => .done (limitResult result fill true)
          | .ok (some confirmed) =>
            if confirmed.filledQty < max result.filled ((fill.map FillSnapshot.filledQty).getD 0)
            then .done (limitResult result fill true)
            else settle intent result confirmed

/-- The market order that replaces a limit order refused for its price.
SOURCE: executors.py:264-270 -/
def replacementIntent (intent : OrderIntent) : OrderIntent :=
  { intent with
    price := 0
    clientOrderId := match intent.fallbackClientOrderId with
      | some reference => if reference = "" then intent.clientOrderId else some reference
      | none => intent.clientOrderId }

/-- `LimitThenMarketExecutor.execute`.
SOURCE: executors.py:157-282 -/
def execute (maxWaitSec : Amount) (fallbackToMarket : Bool) (intent : OrderIntent) :
    AdapterProgram OrderExecutionResult :=
  if intent.price ≤ 0 then MarketOrderExecutor.execute 12 intent
  else .call (.placeLimitOrder intent) fun
    | .ok result => afterPlacing maxWaitSec fallbackToMarket intent result
    | .error (.unknownOutcome text) => .done (submitUnknown text)
    | .error (.priceBand text) =>
      if fallbackToMarket then MarketOrderExecutor.execute 12 (replacementIntent intent)
      else .done (rejected text)
    | .error (.refused text) => .done (rejected text)
    | .error (.other text) => .fail (.other text)

end LimitThenMarketExecutor

end QuantDinger.Model.Live
