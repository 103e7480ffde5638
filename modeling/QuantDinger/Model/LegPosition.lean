import QuantDinger.Model.PositionLedger

/-!
# Fills on a strategy's leg

What a live fill does to the ledger row of its leg: the quantity that reaches the strategy's
inventory once the fees in the base currency are taken off, and the weighted entry price.
High and low marks of the row are left out.
-/

namespace QuantDinger.Model.Live

open QuantDinger.Library

/-! ## Signals -/

/-- `signal_type` of a fill. -/
inductive SignalType
  | openLong
  | addLong
  | closeLong
  | reduceLong
  | openShort
  | addShort
  | closeShort
  | reduceShort
  deriving DecidableEq

/-- The side a signal is about.
SOURCE: records.py:902-907 -/
def SignalType.side : SignalType → PositionSide
  | .openLong | .addLong | .closeLong | .reduceLong => .long
  | .openShort | .addShort | .closeShort | .reduceShort => .short

/-- The signal opens or adds.
SOURCE: records.py:909-910 -/
def SignalType.opens : SignalType → Bool
  | .openLong | .addLong | .openShort | .addShort => true
  | .closeLong | .reduceLong | .closeShort | .reduceShort => false

/-! ## Fees in the base currency -/

/-- `fees.get(currency, 0.0)`. -/
def feeIn (fees : Fees) (currency : String) : Amount := (fees.get? currency).getD 0

/-- `symbol_currencies`.
SOURCE: fee_quote.py:13-18 -/
def symbolCurrencies (symbol : String) : String × String :=
  let normalized := normalizeStrategySymbol symbol
  if '/' ∈ normalized.toList then
    (upper (beforeFirst '/' normalized),
      upper (beforeFirst ':' (afterFirst '/' normalized)))
  else ("", "")

/-- `spot_position_fill_quantity`: a base fee of a buy is not received, and one of a sale is
sold on top.
SOURCE: fill_records.py:22-43 -/
def spotPositionFillQuantity (marketType symbol : String) (signal : SignalType)
    (grossQuantity : Amount) (fees : Fees) : Amount :=
  let gross := max 0 grossQuantity
  if lower (strip marketType) ≠ "spot" then gross
  else
    let baseFee := feeIn fees (symbolCurrencies symbol).1
    match signal with
    | .openLong | .addLong => max 0 (gross - baseFee)
    | .closeLong | .reduceLong => gross + baseFee
    | _ => gross

/-! ## The leg -/

/-- Size and entry price of a leg; an absent row is an empty leg. -/
structure LegPosition where
  size : Amount := 0
  entryPrice : Amount := 0
  deriving DecidableEq

/-- What a fill realises: the profit and the entry price it was matched with. -/
structure MatchedFill where
  profit : Option Amount := none
  matchedEntry : Option Amount := none
  deriving DecidableEq

namespace LegPosition

variable (leg : LegPosition)

/-- An opening fill.
SOURCE: records.py:923-946 -/
def openBy (filled price : Amount) : LegPosition where
  size := leg.size + filled
  entryPrice := if 0 < leg.size ∧ 0 < leg.entryPrice
    then (leg.size * leg.entryPrice + filled * price) / (leg.size + filled) else price

/-- A closing fill; a leg that is used up is deleted.
SOURCE: records.py:957-975 -/
def closeBy (filled price : Amount) : LegPosition :=
  if leg.size - filled ≤ 0 then {}
  else
    { size := leg.size - filled
      entryPrice := if 0 < leg.entryPrice then leg.entryPrice else price }

/-- What a closing fill realises.
SOURCE: records.py:948-956 -/
def realise (side : PositionSide) (filled price : Amount) : MatchedFill :=
  if 0 < leg.size ∧ 0 < leg.entryPrice then
    let closeQty := min leg.size filled
    { profit := some (match side with
        | .long => (price - leg.entryPrice) * closeQty
        | .short => (leg.entryPrice - price) * closeQty)
      matchedEntry := some leg.entryPrice }
  else {}

/-- `apply_fill_to_local_position` on the leg of the signal.
SOURCE: records.py:873-977 -/
def applyFill (signal : SignalType) (filled price : Amount) : LegPosition × MatchedFill :=
  if filled ≤ 0 ∨ price ≤ 0 then (leg, {})
  else if signal.opens then (leg.openBy filled price, {})
  else (leg.closeBy filled price, leg.realise signal.side filled price)

end LegPosition

end QuantDinger.Model.Live
