import QuantDinger.Library.Interaction
import QuantDinger.Model.Schedule
import QuantDinger.Model.Simulation

/-!
# The runtime context

`StrategyRuntimeContext`: the order queue, the order statuses and the calls a handler can
make. A handler is an arbitrary terminating program over these calls (`Handler`); a call
that raises hands the exception to the handler, which may catch it.

The factor and indicator calls read the market through `visible_frame` only, so
`visibleFrame` stands for what they see. Log lines are left out: nothing reads them.
-/

namespace QuantDinger.Model

open QuantDinger.Library

/-- The `status` of an order as the context reports it. -/
inductive OrderState
  | unknown
  | queued
  | deferred
  | partialFill
  | filled
  | rejected
  | cancelled
  | cancelPending
  deriving DecidableEq, Repr

/-- The order is not at an end: `queued`, `deferred` or `partial`. -/
def OrderState.live : OrderState → Bool
  | .queued => true
  | .deferred => true
  | .partialFill => true
  | _ => false

/-- `str(event.get("status"))`. -/
def EventStatus.state : EventStatus → OrderState
  | .filled => .filled
  | .partialFill => .partialFill
  | .deferred => .deferred
  | .rejected => .rejected

/-- The `reason` of a status. -/
inductive StatusNote
  | event (reason : StatusReason)
  | cancelledByStrategy
  deriving DecidableEq, Repr

/-- One value of `context._order_statuses`. The three figures are absent when an order
nobody queued is cancelled. -/
structure OrderStatus where
  clientOrderId : String
  status : OrderState
  filledQuantity : Option Amount := some 0
  filledNotional : Option Amount := some 0
  fee : Option Amount := some 0
  reason : Option StatusNote := none
  deriving DecidableEq

/-- `StrategyRuntimeContext`.
SOURCE: runtime.py:247-283 -/
structure Context where
  currentDt : Option Time := none
  previousTradingDate : Option Time := none
  orders : List OrderIntent := []
  defaultProtection : Option ProtectionSpec := none
  orderSequence : ℕ := 0
  orderStatuses : Dict String OrderStatus := Dict.empty
  cancelledOrderIds : List String := []
  liveOrderCancellation : Bool := false
  lastExitReasons : Dict String String := Dict.empty

/-- An argument where the source calls `float`: a finite number, or what `float` rejects. -/
inductive Argument
  | number (value : Amount)
  | invalid
  deriving DecidableEq

/-- `float(argument)`, with `0.0` for an absent one. -/
def Argument.orZero : Option Argument → Option Amount
  | none => some 0
  | some (.number value) => some value
  | some .invalid => none

/-- The keyword arguments of an order call. -/
structure OrderOptions where
  clientOrderId : Option String := none
  reason : Option String := none
  positionSide : Option String := none
  orderType : Option String := none
  type : Option String := none
  executionAlgo : Option String := none
  limitPrice : Option Argument := none
  price : Option Argument := none
  makerWaitSec : Option Argument := none
  makerOffsetBps : Option Argument := none
  protection : ProtectionValues := {}
  inlineProtection : ProtectionValues := {}
  unsupported : List String := []

/-- `str(value or "")`. -/
def textOr (value : Option String) (fallback : String) : String :=
  match value with
  | some text => if text = "" then fallback else text
  | none => fallback

/-- The kind as the error text spells it. -/
def OrderKind.text : OrderKind → String
  | .quantity => "quantity"
  | .value => "value"
  | .targetQuantity => "target_quantity"
  | .targetValue => "target_value"
  | .targetPercent => "target_percent"

/-- `sorted(names)[0]`. -/
def firstName : List String → Option String
  | [] => none
  | name :: names => match firstName names with
    | none => some name
    | some other => some (if other < name then other else name)

namespace OrderOptions

variable (options : OrderOptions)

/-- The order type and the execution algorithm.
SOURCE: runtime.py:655-664 -/
def execution : Except StrategyError (OrderType × ExecutionAlgo) :=
  let typeText := lower (strip (textOr options.orderType (textOr options.type "market")))
  let algoText := lower (strip (textOr options.executionAlgo ""))
  let type? : Option OrderType :=
    if typeText = "market" then some .market else if typeText = "limit" then some .limit else none
  match type? with
  | none => .error (.contract "strategyV2.orderTypeUnsupported")
  | some type =>
    if algoText = "" then .ok (type, if type = .limit then .limit else .market)
    else if algoText = "maker" ∨ algoText = "limit_then_market" ∨ algoText = "maker_then_market" then
      .ok (type, .makerThenMarket)
    else if algoText = "market" then .ok (type, .market)
    else if algoText = "limit" then .ok (type, .limit)
    else .error (.contract "strategyV2.executionAlgoUnsupported")

/-- The limit price and the two maker settings.
SOURCE: runtime.py:665-675 -/
def prices (type : OrderType) (algo : ExecutionAlgo) :
    Except StrategyError (Amount × Amount × Amount) :=
  let limit := match options.limitPrice with
    | some price => some price
    | none => if type = .limit then options.price else none
  match Argument.orZero limit, Argument.orZero options.makerWaitSec,
      Argument.orZero options.makerOffsetBps with
  | some limit, some wait, some offset =>
    if algo = .limit ∧ limit ≤ 0 then .error (.contract "strategyV2.limitPriceRequired")
    else .ok (limit, max 0 wait, max 0 offset)
  | _, _, _ => .error (.contract "strategyV2.invalidOrderPrice")

end OrderOptions

namespace Context

/-- The id an order is queued under.
SOURCE: runtime.py:676-690 -/
def orderReference (context : Context) (options : OrderOptions) : String :=
  let given := strip (textOr options.clientOrderId "")
  let stamp := match context.currentDt with
    | some t => isoformat t
    | none => "discovery"
  truncate 100 (if given = "" then
      "strategy-v2:" ++ stamp ++ ":" ++ toString (context.orderSequence + 1)
    else given)

/-- The order `_queue` builds, once every argument has been read.
SOURCE: runtime.py:637-712 -/
def orderOf (context : Context) (key : Symbol) (kind : OrderKind) (value : Argument)
    (options : OrderOptions) : Except StrategyError OrderIntent := do
  match value with
  | .invalid => throw (.contract "strategyV2.orderValueInvalid")
  | .number number =>
    let execution ← options.execution
    let prices ← options.prices execution.1 execution.2
    pure
      { symbol := key
        kind := kind
        value := number
        reason := textOr options.reason "strategy"
        protection := ProtectionSpec.fromValue options.protection options.inlineProtection <|>
          context.defaultProtection
        signalTime := context.currentDt
        orderType := execution.1
        limitPrice := prices.1
        executionAlgo := execution.2
        makerWaitSec := prices.2.1
        makerOffsetBps := prices.2.2
        positionSide := normalizePositionSide (textOr options.positionSide "")
        clientOrderId := context.orderReference options }

/-- The context with an order in its queue; a reference that has a status keeps it.
SOURCE: runtime.py:676-712 -/
def enqueue (context : Context) (order : OrderIntent) : Context :=
  { context with
    orderSequence := context.orderSequence + 1
    orders := context.orders ++ [order]
    orderStatuses :=
      if context.orderStatuses.contains order.clientOrderId then context.orderStatuses
      else context.orderStatuses.set order.clientOrderId
        { clientOrderId := order.clientOrderId, status := .queued } }

/-- What `_queue` returns: the reference, when the caller chose one.
SOURCE: runtime.py:677-678, 716 -/
def returnedReference (options : OrderOptions) (order : OrderIntent) : Option String :=
  if strip (textOr options.clientOrderId "") = "" then none else some order.clientOrderId

/-- `_queue` up to the point where the order exists.
SOURCE: runtime.py:618-712 -/
def readOrder (context : Context) (symbol : String) (kind : OrderKind) (value : Argument)
    (options : OrderOptions) : PortalM OrderIntent := do
  match firstName options.unsupported with
  | some name => throw (.contract ("strategyV2.apiCallInvalid:" ++ kind.text ++
      ":unsupportedArgument:" ++ name))
  | none =>
    let key ← Portal.resolveKey symbol none
    Library.ofExcept (context.orderOf key kind value options)

/-- `get_order_status`.
SOURCE: runtime.py:317-325 -/
def getOrderStatus (context : Context) (clientOrderId : String) : OrderStatus :=
  let reference := strip clientOrderId
  (context.orderStatuses.get? reference).getD
    { clientOrderId := reference, status := .unknown }

/-- `cancel_order`.
SOURCE: runtime.py:327-349 -/
def cancelOrder (context : Context) (clientOrderId : String) : Bool × Context :=
  let reference := strip clientOrderId
  if reference = "" then (false, context)
  else
    let known := context.orderStatuses.get? reference
    if known.any fun status => status.status = .filled then (false, context)
    else
      let queued := context.orders.any fun order => order.clientOrderId = reference
      let current : OrderStatus := known.getD
        { clientOrderId := reference
          status := .unknown
          filledQuantity := none
          filledNotional := none
          fee := none }
      (true,
        { context with
          orders := context.orders.filter fun order => order.clientOrderId ≠ reference
          orderStatuses := context.orderStatuses.set reference
            { current with
              clientOrderId := reference
              status := if context.liveOrderCancellation ∧ queued = false then .cancelPending
                else .cancelled
              reason := some .cancelledByStrategy }
          cancelledOrderIds := reference :: context.cancelledOrderIds })

/-- `flush_orders`: what the queue held is read before.
SOURCE: runtime.py:614-617 -/
def flushOrders (context : Context) : Context := { context with orders := [] }

/-- `flush_cancelled_order_ids`: what the set held is read before.
SOURCE: runtime.py:346-349 -/
def flushCancelled (context : Context) : Context := { context with cancelledOrderIds := [] }

/-- `update_order_statuses`.
SOURCE: runtime.py:351-356 -/
def updateOrderStatuses (context : Context) (values : List (String × OrderStatus)) : Context :=
  { context with
    orderStatuses := values.foldl (fun statuses value =>
        if strip value.1 = "" then statuses else statuses.set (strip value.1) value.2)
      context.orderStatuses }

/-- `set_last_exit_reason`.
SOURCE: runtime.py:364-365 -/
def setLastExitReason (context : Context) (symbol reason : String) : Context :=
  { context with lastExitReasons := context.lastExitReasons.set symbol reason }

/-- The hedge legs of a key, when no side is named.
SOURCE: runtime.py:396-403 -/
def matchingLegs (account : Account) (key : Symbol) (side : Option Side) : List Position :=
  if side.isSome then []
  else (account.positions.entries.filter fun entry =>
    entry.1.symbol = key ∧ entry.1.side.isSome).map Prod.snd

/-- The position of a resolved key: the stored leg, the only open leg when no side is
named, or a flat position.
SOURCE: runtime.py:392-424 -/
def positionOf (account : Account) (key : Symbol) (side : Option Side) : PortalM Position :=
  match account.positions.get? ⟨key, side⟩ with
  | some position => pure position
  | none =>
    let legs := matchingLegs account key side
    match legs.filter (fun position => 1 / 10 ^ 12 < |position.amount|), legs with
    | [position], _ => pure position
    | _ :: _ :: _, _ => throw (.contract "strategyV2.positionSideRequired")
    | [], [position] => pure position
    | [], _ => do
      let price ← attempt (Portal.current key "close" 0 none)
      pure
        { symbol := key
          lastPrice := match price with
            | .ok price => price
            | .error _ => 0
          positionSide := side }

/-- `get_position(symbol, position_side)` for one symbol.
SOURCE: runtime.py:380-424 -/
def getPosition (account : Account) (symbol positionSide : String) : PortalM Position := do
  let resolved ← attempt (Portal.resolveKey symbol none)
  let key := match resolved with
    | .ok key => key
    | .error _ => symbol
  positionOf account key (normalizePositionSide positionSide)

/-- `get_position(symbols, position_side)` for a list of symbols, or for all positions.
SOURCE: runtime.py:386-387, 425-431 -/
def getPositions (account : Account) (symbols : Option (List String)) (positionSide : String) :
    PortalM (Dict PositionKey Position) :=
  match symbols with
  | none => pure account.positions
  | some symbols => do
    let keys ← symbols.mapM fun symbol => Portal.resolveKey symbol none
    pure (Dict.ofPairs (keys.filterMap fun key =>
      let leg : PositionKey := ⟨key, normalizePositionSide positionSide⟩
      (account.positions.get? leg).map fun position => (leg, position)))

/-- `get_history`.
SOURCE: runtime.py:439-455 -/
def getHistory (count : ℤ) (frequency : Option String) (fields securities : List String) :
    PortalM (Dict Symbol (List Portal.HistoryRow)) := do
  let keys ← Portal.frameKeys frequency
  Portal.history (if securities.isEmpty then keys else securities) count fields frequency

end Context

/-! ## The calls of a handler -/

/-- The market data of `on_rebalance`. -/
abbrev Panel := Dict Symbol (List Portal.HistoryRow)

/-- A call of the runtime API. -/
inductive ApiCall
  | current (symbol field : String) (frequency : Option String)
  | history (symbols : List String) (count : ℤ) (fields : List String) (frequency : Option String)
  | getHistory (count : ℤ) (frequency : Option String) (fields securities : List String)
  | panel (symbols : List String) (count : Option ℤ) (frequency : Option String)
  | visibleFrame (symbol : String) (count : Option ℤ) (frequency : Option String)
  | getPosition (symbol positionSide : String)
  | getPositions (symbols : Option (List String)) (positionSide : String)
  | portfolio
  | getOrderStatus (clientOrderId : String)
  | cancelOrder (clientOrderId : String)
  | order (symbol : String) (kind : OrderKind) (value : Argument) (options : OrderOptions)
  | setDefaultProtection (values : ProtectionValues)
  | consumeLastExitReason (symbol : String)
  | clock

/-- What a handler reads of `context.portfolio`. -/
structure PortfolioView where
  startingCash : Amount
  availableCash : Amount
  totalValue : Amount

/-- What a call returns. -/
def ApiCall.Response : ApiCall → Type
  | current .. => Except StrategyError Amount
  | history .. => Except StrategyError (Dict Symbol (List Portal.HistoryRow))
  | getHistory .. => Except StrategyError (Dict Symbol (List Portal.HistoryRow))
  | panel .. => Except StrategyError Panel
  | visibleFrame .. => Except StrategyError (List Bar)
  | getPosition .. => Except StrategyError Position
  | getPositions .. => Except StrategyError (Dict PositionKey Position)
  | portfolio => PortfolioView
  | getOrderStatus _ => OrderStatus
  | cancelOrder _ => Bool
  | order .. => Except StrategyError (Option String)
  | setDefaultProtection _ => Unit
  | consumeLastExitReason _ => String
  | clock => Option Time × Option Time

/-- The second argument of a handler. -/
inductive HandlerArgument
  | data
  | panel (panel : Panel)

/-- A handler: from the strategy's own state, a program over the calls of the API that
returns the state it leaves. -/
abbrev Handler (σ : Type) :=
  HandlerArgument → σ → Interaction ApiCall ApiCall.Response StrategyError σ

end QuantDinger.Model
