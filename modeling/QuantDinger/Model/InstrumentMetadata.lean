import QuantDinger.Library.StepFloor
import QuantDinger.Model.Order

/-!
# Instrument rules from exchange metadata

The parsers of `instrument_rules.py`, one for each exchange, and `normalize_amount` on what they
return. A metadata row is what the exchange sends for one instrument: plain fields, named nested
mappings, and the `filters` of Binance. Numbers are exact.
-/

namespace QuantDinger.Model

open QuantDinger.Library

/-- A plain value of a metadata row. A text carries the finite number `Decimal` reads from it and
the integer `int` reads from it, where they read one. -/
inductive MetaValue
  | null
  | flag (value : Bool)
  | number (value : ℚ)
  | text (characters : String) (decimal : Option ℚ) (integer : Option ℤ)

namespace MetaValue

/-- Whether Python takes the value for true. -/
def truthy : MetaValue → Bool
  | null => false
  | flag value => value
  | number value => value ≠ 0
  | text characters _ _ => characters ≠ ""

/-- `_decimal`. SOURCE: instrument_rules.py:43-48 -/
def toDecimal : MetaValue → ℚ
  | number value => value
  | text _ decimal _ => decimal.getD 0
  | _ => 0

/-- What `int` makes of the value, which truncates. The empty text reads as no integer. -/
def toInt : MetaValue → Option ℤ
  | null => none
  | flag value => some (if value then 1 else 0)
  | number value => some (value.num.tdiv value.den)
  | text characters _ integer => if characters = "" then none else integer

/-- The characters of a text. Of other values none name a filter. -/
def toText : MetaValue → String
  | text characters _ _ => characters
  | _ => ""

end MetaValue

/-- `_positive` of a number. -/
def positiveNumber (value : ℚ) : ℚ := if 0 < value then value else 0

/-- `_positive`. SOURCE: instrument_rules.py:51-53 -/
def MetaValue.positive (value : MetaValue) : ℚ := positiveNumber value.toDecimal

/-- `_precision_step`. SOURCE: instrument_rules.py:56-61 -/
def precisionStep (value : MetaValue) : ℚ :=
  match value.toInt with
  | none => 0
  | some places => if 0 ≤ places ∧ places ≤ 18 then 1 / 10 ^ places.toNat else 0

/-- `_first_positive`. SOURCE: instrument_rules.py:64-69 -/
def firstPositive : List MetaValue → ℚ
  | [] => 0
  | value :: rest => if 0 < value.positive then value.positive else firstPositive rest

/-- `a or b or …`: the first value that counts as true, else the last. -/
def orValues : List MetaValue → MetaValue
  | [] => .null
  | [value] => value
  | value :: other :: rest => if value.truthy then value else orValues (other :: rest)

/-- `number or Decimal("1")`. -/
def orUnit (value : ℚ) : ℚ := if value = 0 then 1 else value

/-! ## Rows -/

/-- The plain fields of a mapping. -/
abbrev MetaFields := List (String × MetaValue)

/-- `mapping.get(name)`. -/
def MetaFields.get (fields : MetaFields) (name : String) : MetaValue :=
  (fields.lookup name).getD .null

/-- The `filters` of a row. An item of the list that is not a mapping is `none`. -/
inductive MetaFilters
  | absent
  | listed (items : List (Option MetaFields))
  | mapped (entries : List (String × MetaFields))

/-- The metadata row of an instrument. -/
structure MetaRow where
  fields : MetaFields
  objects : List (String × MetaFields) := []
  filters : MetaFilters := .absent

namespace MetaRow

/-- `raw.get(name)` of a plain field. -/
def get (raw : MetaRow) (name : String) : MetaValue := raw.fields.get name

/-- `raw.get(name) or {}` of a nested mapping. -/
def object (raw : MetaRow) (name : String) : MetaFields := (raw.objects.lookup name).getD []

/-- `filters.get(name)` of a Binance row, empty where there is none. In a list the last filter of
a type is the one that stays.
SOURCE: instrument_rules.py:607-610 -/
def filterNamed (raw : MetaRow) (name : String) : MetaFields :=
  match raw.filters with
  | .absent => raw.object name
  | .listed items =>
    ((items.reduceOption.reverse.find? fun item => (item.get "filterType").toText = name)).getD []
  | .mapped entries => (entries.lookup name).getD []

/-- `filters.get(name) or filters.get(other) or {}`. -/
def filterOr (raw : MetaRow) (name other : String) : MetaFields :=
  if raw.filterNamed name ≠ [] then raw.filterNamed name else raw.filterNamed other

end MetaRow

/-! ## Parsers -/

/-- The kinds of market a row is parsed for. -/
inductive RulesMarket
  | spot
  | swap
  deriving DecidableEq, Repr

/-- `SUPPORTED_RULE_EXCHANGES`. SOURCE: instrument_rules.py:38 -/
inductive RulesExchange
  | binance
  | bybit
  | okx
  | bitget
  | gate
  | htx
  deriving DecidableEq, Repr

/-- What a parser returns; the defaults are `_empty_values`.
SOURCE: instrument_rules.py:595-602 -/
structure RuleValues where
  amountStep : ℚ := 0
  minAmount : ℚ := 0
  minNotional : ℚ := 0
  priceTick : ℚ := 0
  contractSize : ℚ := 1

/-- `_parse_binance`. SOURCE: instrument_rules.py:605-620 -/
def parseBinance (_market : RulesMarket) (raw : MetaRow) : RuleValues :=
  let lot := raw.filterOr "LOT_SIZE" "MARKET_LOT_SIZE"
  let price := raw.filterNamed "PRICE_FILTER"
  let notional := raw.filterOr "NOTIONAL" "MIN_NOTIONAL"
  { amountStep := (lot.get "stepSize").positive
    minAmount := (lot.get "minQty").positive
    minNotional := firstPositive [notional.get "minNotional", notional.get "notional"]
    priceTick := (price.get "tickSize").positive }

/-- `_parse_bybit`. SOURCE: instrument_rules.py:623-636 -/
def parseBybit (market : RulesMarket) (raw : MetaRow) : RuleValues :=
  let lot := raw.object "lotSizeFilter"
  let price := raw.object "priceFilter"
  { amountStep := firstPositive [lot.get "qtyStep", lot.get "basePrecision"]
    minAmount := firstPositive [lot.get "minOrderQty", lot.get "minTradingQty"]
    minNotional := firstPositive
      [lot.get "minNotionalValue", if market = .spot then lot.get "minOrderAmt" else .null]
    priceTick := (price.get "tickSize").positive }

/-- The contract value `_parse_okx` multiplies by. SOURCE: instrument_rules.py:641-643 -/
def okxContract (market : RulesMarket) (raw : MetaRow) : ℚ :=
  let contract := if market = .swap then (raw.get "ctVal").positive else 1
  if contract ≤ 0 then 1 else contract

/-- `_parse_okx`. SOURCE: instrument_rules.py:639-651 -/
def parseOkx (market : RulesMarket) (raw : MetaRow) : RuleValues :=
  let contract := okxContract market raw
  { amountStep := (raw.get "lotSz").positive * contract
    minAmount := (raw.get "minSz").positive * contract
    minNotional := firstPositive [raw.get "minNotional", raw.get "minNotionalValue"]
    priceTick := (raw.get "tickSz").positive
    contractSize := contract }

/-- The contract size `_parse_bitget` multiplies by. SOURCE: instrument_rules.py:658 -/
def bitgetContract (raw : MetaRow) : ℚ :=
  orUnit (firstPositive [raw.get "contractSize", raw.get "contractSz", raw.get "ctVal"])

/-- A step from the step fields of a row, or else from its precision fields. -/
def stepOrPrecision (steps precisions : List MetaValue) : ℚ :=
  if firstPositive steps ≤ 0 then precisionStep (orValues precisions) else firstPositive steps

/-- The size step fields of Bitget. SOURCE: instrument_rules.py:659-664, 693-698 -/
def bitgetSteps (market : RulesMarket) (raw : MetaRow) : List MetaValue :=
  match market with
  | .swap => [raw.get "quantityMultiplier", raw.get "sizeMultiplier", raw.get "sizeStep",
      raw.get "lotSize"]
  | .spot => [raw.get "quantityMultiplier", raw.get "quantityStep", raw.get "sizeStep",
      raw.get "minTradeIncrement"]

/-- The size precision fields of Bitget. SOURCE: instrument_rules.py:666, 700 -/
def bitgetPrecisions (market : RulesMarket) (raw : MetaRow) : List MetaValue :=
  match market with
  | .swap => [raw.get "quantityPrecision", raw.get "sizePlace"]
  | .spot => [raw.get "quantityPrecision", raw.get "quantityPlace"]

/-- `_parse_bitget`. SOURCE: instrument_rules.py:654-724 -/
def parseBitget (market : RulesMarket) (raw : MetaRow) : RuleValues :=
  let amountStep := stepOrPrecision (bitgetSteps market raw) (bitgetPrecisions market raw)
  let minNotional := firstPositive
    [raw.get "minOrderAmount", raw.get "minTradeUSDT", raw.get "minNotional"]
  match market with
  | .swap =>
    let contract := bitgetContract raw
    let priceTick := firstPositive
      [raw.get "priceMultiplier", raw.get "priceStep", raw.get "tickSize"]
    { amountStep := amountStep * contract
      minAmount := firstPositive [raw.get "minOrderQty", raw.get "minTradeNum", raw.get "minQty",
        raw.get "minSize"] * contract
      minNotional := minNotional
      priceTick :=
        if priceTick ≤ 0 then
          (raw.get "priceEndStep").positive *
            precisionStep (orValues [raw.get "pricePrecision", raw.get "pricePlace"])
        else priceTick
      contractSize := contract }
  | .spot =>
    { amountStep := amountStep
      minAmount := firstPositive [raw.get "minOrderQty", raw.get "minTradeAmount",
        raw.get "minTradeNum", raw.get "minQty"]
      minNotional := minNotional
      priceTick := stepOrPrecision
        [raw.get "priceMultiplier", raw.get "priceStep", raw.get "tickSize", raw.get "priceTick"]
        [raw.get "pricePrecision", raw.get "pricePlace"] }

/-- How many decimal places a number needs, looked for up to `fuel`. -/
def placesUpTo : ℕ → ℚ → ℕ
  | 0, _ => 0
  | fuel + 1, value => if value.den = 1 then 0 else placesUpTo fuel (value * 10) + 1

/-- `Decimal("1").scaleb(exponent)` for the exponent of the normalised number where it is negative,
else 1. SOURCE: instrument_rules.py:732-733 -/
def decimalUnit (value : ℚ) : ℚ := 1 / 10 ^ placesUpTo value.den value

/-- The contract size `_parse_gate` multiplies by. SOURCE: instrument_rules.py:730 -/
def gateContract (raw : MetaRow) : ℚ :=
  orUnit (firstPositive [raw.get "quanto_multiplier", raw.get "contract_size"])

/-- `_parse_gate`. SOURCE: instrument_rules.py:727-748 -/
def parseGate (market : RulesMarket) (raw : MetaRow) : RuleValues :=
  match market with
  | .swap =>
    let contract := gateContract raw
    let orderMin := orUnit (raw.get "order_size_min").positive
    { amountStep := decimalUnit orderMin * contract
      minAmount := orderMin * contract
      minNotional := firstPositive [raw.get "order_value_min", raw.get "min_notional"]
      priceTick := (raw.get "order_price_round").positive
      contractSize := contract }
  | .spot =>
    { amountStep := precisionStep (raw.get "amount_precision")
      minAmount := (raw.get "min_base_amount").positive
      minNotional := (raw.get "min_quote_amount").positive
      priceTick := precisionStep (raw.get "precision") }

/-- The contract size `_parse_htx` multiplies by. SOURCE: instrument_rules.py:754 -/
def htxContract (raw : MetaRow) : ℚ := orUnit (raw.get "contract_size").positive

/-- The size precision fields of HTX. SOURCE: instrument_rules.py:764 -/
def htxPrecisions (raw : MetaRow) : List MetaValue :=
  [raw.get "ap", raw.get "amount-precision", raw.get "amount_precision"]

/-- `_parse_htx`. SOURCE: instrument_rules.py:751-771 -/
def parseHtx (market : RulesMarket) (raw : MetaRow) : RuleValues :=
  match market with
  | .swap =>
    let contract := htxContract raw
    { amountStep := contract
      minAmount :=
        firstPositive [raw.get "min_volume", raw.get "min_order_volume", .number 1] * contract
      minNotional := firstPositive [raw.get "min_notional", raw.get "min_order_value"]
      priceTick := (raw.get "price_tick").positive
      contractSize := contract }
  | .spot =>
    { amountStep := precisionStep (orValues (htxPrecisions raw))
      minAmount := firstPositive
        [raw.get "minoa", raw.get "min-order-amt", raw.get "limit-order-min-order-amt"]
      minNotional := firstPositive [raw.get "minov", raw.get "min-order-value"]
      priceTick := precisionStep
        (orValues [raw.get "pp", raw.get "price-precision", raw.get "price_precision"]) }

/-- The parser of an exchange. SOURCE: instrument_rules.py:444-452 -/
def parseRules : RulesExchange → RulesMarket → MetaRow → RuleValues
  | .binance => parseBinance
  | .bybit => parseBybit
  | .okx => parseOkx
  | .bitget => parseBitget
  | .gate => parseGate
  | .htx => parseHtx

/-- The rules `normalize` builds from the values of a parser.
SOURCE: instrument_rules.py:453-465 -/
def normalizeRules (exchange : RulesExchange) (market : RulesMarket) (raw : MetaRow) :
    InstrumentRules where
  amountStep := (parseRules exchange market raw).amountStep
  minAmount := (parseRules exchange market raw).minAmount
  minNotional := (parseRules exchange market raw).minNotional

/-! ## Amounts -/

/-- How far, in units, `floor_decimal_to_step` lets a ratio lie from the integer it takes it for.
SOURCE: numeric_precision.py:9, 38-41 -/
def edgeTolerance (units : ℚ) : ℚ := max (1 / 10 ^ 12) (|units| * (1 / 10 ^ 12))

/-- `floor_decimal_to_step`. SOURCE: numeric_precision.py:20-49 -/
def floorDecimalToStep (value step : ℚ) : ℚ :=
  if value ≤ 0 then 0
  else if step ≤ 0 then value
  else snapToStep edgeTolerance value step

/-- `InstrumentRules.normalize_amount`, with `enforce_minimum` as given; its default is true.
SOURCE: instrument_rules.py:112-119 -/
def normalizeAmount (rules : InstrumentRules) (amount : ℚ) (enforceMinimum : Bool) : ℚ :=
  let step := positiveNumber rules.amountStep
  let requested :=
    if 0 < step then floorDecimalToStep (positiveNumber amount) step else positiveNumber amount
  if enforceMinimum && decide (requested < positiveNumber rules.minAmount) then 0 else requested

end QuantDinger.Model
