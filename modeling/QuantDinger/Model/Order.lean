import QuantDinger.Library.Grid
import QuantDinger.Model.Market
import QuantDinger.Model.Protection

/-!
# Orders, positions and instrument rules

The records the broker and the runtime context exchange, and the per-instrument rules
that decide lot sizes and minimum trades.

A position key is the instrument key with its optional leg. The source renders it as
`symbol` or `symbol::side`; an instrument key never ends in `::long` or `::short` (its
symbol part is upper case and its venue part ends in a product name), so the rendering
is injective and the pair stands for the string.
-/

namespace QuantDinger.Model

open QuantDinger.Library

/-- `_normalize_position_side`.
SOURCE: runtime.py:110-112 -/
def normalizePositionSide (value : String) : Option Side :=
  let side := lower (strip value)
  if side = "long" then some .long else if side = "short" then some .short else none

/-- `_position_key(symbol, position_side)`.
SOURCE: runtime.py:115-118 -/
structure PositionKey where
  symbol : Symbol
  side : Option Side
  deriving DecidableEq

/-- A position key as text. -/
def PositionKey.text (key : PositionKey) : String :=
  match key.side with
  | none => key.symbol
  | some .long => key.symbol ++ "::long"
  | some .short => key.symbol ++ "::short"

/-- `Position`.
SOURCE: runtime.py:90-100 -/
structure Position where
  symbol : Symbol
  amount : Amount := 0
  avgCost : Amount := 0
  lastPrice : Amount := 0
  positionSide : Option Side := none
  deriving DecidableEq

/-- `market_value`. -/
def Position.marketValue (position : Position) : Amount := position.amount * position.lastPrice

/-- The order kinds of the strategy API. -/
inductive OrderKind
  | quantity
  | value
  | targetQuantity
  | targetValue
  | targetPercent
  deriving DecidableEq, Repr

/-- `kind.startswith("target_")`. -/
def OrderKind.isTarget : OrderKind → Bool
  | .quantity => false
  | .value => false
  | .targetQuantity => true
  | .targetValue => true
  | .targetPercent => true

inductive OrderType
  | market
  | limit
  deriving DecidableEq, Repr

inductive ExecutionAlgo
  | market
  | limit
  | makerThenMarket
  deriving DecidableEq, Repr

/-- `OrderIntent`.
SOURCE: runtime.py:174-190 -/
structure OrderIntent where
  symbol : Symbol
  kind : OrderKind
  value : Amount
  reason : String := "strategy"
  protection : Option ProtectionSpec := none
  signalTime : Option Time := none
  attempts : ℕ := 0
  pendingDirection : ℤ := 0
  orderType : OrderType := .market
  limitPrice : Amount := 0
  executionAlgo : ExecutionAlgo := .market
  makerWaitSec : Amount := 0
  makerOffsetBps : Amount := 0
  positionSide : Option Side := none
  clientOrderId : String := ""
  deriving DecidableEq

namespace OrderIntent

/-- The position the order trades. -/
def key (order : OrderIntent) : PositionKey := ⟨order.symbol, order.positionSide⟩

/-- `order.order_type == "limit" or order.execution_algo == "limit"`. -/
def isLimit (order : OrderIntent) : Bool :=
  order.orderType = .limit || order.executionAlgo = .limit

/-- `order.reason == "margin_liquidation"`: the order of a forced liquidation, or one
whose strategy gave that reason. -/
def forced (order : OrderIntent) : Bool := order.reason = "margin_liquidation"

end OrderIntent

/-- What an order event says about its order. -/
inductive EventStatus
  | filled
  | partialFill
  | deferred
  | rejected
  deriving DecidableEq, Repr

/-- `statusReason` of an order event. -/
inductive StatusReason
  | noPrice
  | suspended
  | limitUp
  | limitDown
  | targetAlreadyMet
  | limitPriceRequired
  | limitNotReached
  | minimumTradeUnit
  | insufficientCash
  | positionLimit
  | minNotional
  | filled
  | marginLiquidation
  | insufficientLiquidity
  | partialFill
  deriving DecidableEq, Repr

/-! ## Instrument rules -/

/-- The part of `InstrumentRules` the simulation reads.
SOURCE: instrument_rules.py:86-102 -/
structure InstrumentRules where
  amountStep : Amount := 0
  minAmount : Amount := 0
  minNotional : Amount := 0
  deriving DecidableEq

/-- `default_rules_for_symbol`.
SOURCE: instrument_rules.py:826-837 -/
def defaultRulesForSymbol (symbol : Symbol) : InstrumentRules where
  amountStep := if startsWith symbol "Crypto:" then 1 / 10 ^ 8 else 1

/-- `_lot_size`.
SOURCE: runtime.py:1271-1276 -/
def lotSize (symbol : Symbol) (rules : InstrumentRules) : Amount :=
  if 0 < rules.amountStep then rules.amountStep
  else if startsWith symbol "Crypto:" then 1 / 10 ^ 8 else 1

/-- `_is_crypto_swap_symbol`.
SOURCE: runtime.py:1297-1303 -/
def isCryptoSwapSymbol (symbol : Symbol) : Bool :=
  let text := lower (strip symbol)
  if startsWith text "crypto:" && text.toList.contains '@' then
    let binding := afterLast '@' text
    binding = "swap" || endsWith binding ":swap"
  else false

/-- The test `execute` writes out twice: a crypto pair quoted in USDT, USDC or USD.
SOURCE: runtime.py:871-873, 876-877 -/
def isDollarCryptoSymbol (symbol : Symbol) : Bool :=
  startsWith (lower symbol) "crypto:" &&
    ["/USDT", "/USDC", "/USD"].any (endsWith (upper (beforeFirst '@' symbol)))

theorem lotSize_pos (symbol : Symbol) (rules : InstrumentRules) : 0 < lotSize symbol rules := by
  unfold lotSize
  split
  · assumption
  · split <;> norm_num

/-- `_is_pure_reduction`.
SOURCE: runtime.py:1290-1295 -/
def isPureReduction (currentAmount delta : Amount) : Bool :=
  currentAmount * delta < 0 && |delta| ≤ |currentAmount| + 1 / 10 ^ 12

/-- How far, in lots, `_round_to_lot` lets a ratio lie from the integer it takes it for. -/
def lotTolerance (ratio : Amount) : Amount := max (1 / 10 ^ 12) (4 * ulp ratio)

/-- `_round_to_lot`.
SOURCE: runtime.py:1305-1314 -/
def roundToLot (value lot : Amount) : Amount :=
  if lot ≤ 0 then value else roundToGrid lotTolerance value lot

/-- `_liquidity_cap`.
SOURCE: runtime.py:1316-1323 -/
def liquidityCap (bar : Option Bar) (lot : Amount) : Option Amount :=
  let volume := (bar.map Bar.volume).getD 0
  if volume ≤ 0 then none else some (⌊volume * (1 / 10) / lot + 1 / 10 ^ 10⌋ * lot)

theorem lotTolerance_pos (ratio : Amount) : 0 < lotTolerance ratio :=
  lt_max_of_lt_left (by norm_num)

end QuantDinger.Model
