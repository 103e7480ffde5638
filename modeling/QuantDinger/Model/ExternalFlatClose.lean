import QuantDinger.Model.LegPosition
import Mathlib.Data.List.Sort

/-!
# Closes the exchange made on its own

A leg that is flat on the exchange while the trades of its strategy still show an open quantity
was closed outside the strategy. `reconcile_external_flat_closes` looks for the close fills of
the exchange that explain exactly this quantity and books each as a closing trade. The history
of the exchange and the number of strategies on the leg are arguments.
-/

namespace QuantDinger.Model.Live

open QuantDinger.Library

/-- `_EPS`.
SOURCE: external_flat_close.py:35 -/
def flatEpsilon : Amount := 1 / 10 ^ 12

/-! ## The trades of a leg -/

/-- A row of `qd_strategy_trades` of the strategy on the symbol. -/
structure LegTrade where
  type : SignalType
  price : Amount
  amount : Amount
  profit : Option Amount := none
  matchedEntry : Option Amount := none
  exchangeFillId : String := ""
  createdAt : Time := 0
  deriving DecidableEq

/-- The trades of a strategy on a symbol by their id, and its two legs. -/
structure LegBook where
  marketType : String := "swap"
  symbol : String
  trades : List LegTrade := []
  position : PositionSide → LegPosition := fun _ => {}

/-- A fill of the strategy's own order. -/
structure OwnFill where
  signal : SignalType
  quantity : Amount
  price : Amount
  fees : Fees := Dict.empty
  exchangeFillId : String := ""
  createdAt : Time := 0
  quantity_pos : 0 < quantity
  price_pos : 0 < price

/-- The signal that closes a side. -/
def closeSignal : PositionSide → SignalType
  | .long => .closeLong
  | .short => .closeShort

namespace LegBook

variable (book : LegBook)

/-- `_persist_strategy_fill`: the fill moves the position and is recorded with what it realised.
SOURCE: fill_records.py:126-217 -/
def persistStrategyFill (fill : OwnFill) : LegBook :=
  if |fill.quantity| ≤ 1 / 10 ^ 12 then book
  else
    let applied := (book.position fill.signal.side).applyFill fill.signal
      (spotPositionFillQuantity book.marketType book.symbol fill.signal fill.quantity fill.fees)
      fill.price
    { book with
      position := Function.update book.position fill.signal.side applied.1
      trades := book.trades ++ [{
        type := fill.signal
        price := fill.price
        amount := fill.quantity
        profit := applied.2.profit
        matchedEntry := applied.2.matchedEntry
        exchangeFillId := fill.exchangeFillId
        createdAt := fill.createdAt }] }

/-- `trade_side_net_qty`.
SOURCE: external_flat_close.py:38-73 -/
def tradeSideNetQty (side : PositionSide) : Amount :=
  let rows := book.trades.filter fun trade => trade.type.side = side
  let net := rows.foldl
    (fun net trade => if trade.type.opens then net + trade.amount else net - trade.amount) 0
  if flatEpsilon < net then net else 0

/-- `_last_open_trade`.
SOURCE: external_flat_close.py:76-97 -/
def lastOpenTrade (side : PositionSide) : Option LegTrade :=
  (book.trades.filter fun trade => trade.type.side = side ∧ trade.type.opens).getLast?

/-- `_already_recorded_fill`.
SOURCE: external_flat_close.py:100-116 -/
def AlreadyRecordedFill (exchangeFillId : String) : Prop :=
  strip exchangeFillId ≠ "" ∧
    ∃ trade ∈ book.trades, trade.exchangeFillId = strip exchangeFillId

instance : DecidablePred book.AlreadyRecordedFill :=
  fun _ => inferInstanceAs (Decidable (_ ∧ _))

end LegBook

/-! ## The close fills of the exchange -/

/-- A fill of the exchange as `_fill` accepts it.
SOURCE: exchange_close_history.py:102-129 -/
structure CloseFill where
  exchangeFillId : String
  amount : Amount
  price : Amount
  closedAt : Time
  exchangeOrderId : String := ""
  id_ne : exchangeFillId ≠ ""
  amount_pos : 0 < amount
  price_pos : 0 < price

/-- `_select_exact_close`: every close fill that is neither recorded nor older than the last
open, if they add up to the target.
SOURCE: exchange_close_history.py:459-505 -/
def selectExactClose (rows : List CloseFill) (targetQty : Amount) (openedAfter : Option Time)
    (isRecorded : String → Prop) [DecidablePred isRecorded] : Option (List CloseFill) :=
  let candidates := (rows.filter fun row =>
    ¬ (∃ opened ∈ openedAfter, row.closedAt < opened) ∧ ¬ isRecorded row.exchangeFillId ∧
      ¬ (row.exchangeOrderId ≠ "" ∧ isRecorded row.exchangeOrderId)).insertionSort
    fun a b => a.closedAt ≤ b.closedAt
  let tolerance := max (1 / 10 ^ 12) (|targetQty| * (1 / 10 ^ 6))
  let total := (candidates.map CloseFill.amount).sum
  if candidates = [] ∨ tolerance < |total - targetQty| then none else some candidates

/-- What the exchange and the other strategies say about the leg: the credential, how many
strategies hold it, and the close fills the history of the client lists. The client is given the
time of the last open, and may have no history. -/
structure FlatLeg where
  credentialId : ℕ
  strategies : ℕ
  closeFills : Option Time → Option (List CloseFill)

/-- `_leg_owner_count`.
SOURCE: external_flat_close.py:119-153 -/
def FlatLeg.legOwnerCount (leg : FlatLeg) : ℕ :=
  if leg.credentialId = 0 then 1 else max 1 leg.strategies

/-- `resolve_exchange_external_close`.
SOURCE: exchange_close_history.py:508-553 -/
def FlatLeg.resolveExternalClose (leg : FlatLeg) (targetQty : Amount) (openedAfter : Option Time)
    (isRecorded : String → Prop) [DecidablePred isRecorded] : Option (List CloseFill) :=
  (leg.closeFills openedAfter).bind fun rows =>
    selectExactClose rows targetQty openedAfter isRecorded

/-! ## Booking -/

/-- `_gross_close_profit`.
SOURCE: external_flat_close.py:322-330 -/
def grossCloseProfit (side : PositionSide) (entry close qty : Amount) : Amount :=
  if entry ≤ 0 ∨ close ≤ 0 ∨ qty ≤ 0 then 0
  else match side with
    | .long => (close - entry) * qty
    | .short => (entry - close) * qty

/-- The trade an external close is recorded as.
SOURCE: external_flat_close.py:363-389 -/
def externalTrade (side : PositionSide) (entryPrice : Amount) (component : CloseFill) :
    LegTrade where
  type := closeSignal side
  price := component.price
  amount := component.amount
  profit := some (grossCloseProfit side entryPrice component.price component.amount)
  matchedEntry := if 0 < entryPrice then some entryPrice else none
  exchangeFillId := component.exchangeFillId
  createdAt := component.closedAt

namespace LegBook

variable (book : LegBook) (side : PositionSide)

/-- The position after an external close of the quantity.
SOURCE: external_flat_close.py:390-400 -/
def clearLocal (qty price : Amount) : LegBook :=
  let localSize := (book.position side).size
  if flatEpsilon < localSize then
    { book with
      position := Function.update book.position side
        ((book.position side).applyFill (closeSignal side) (min localSize qty) price).1 }
  else book

/-- `record_external_flat_close`.
SOURCE: external_flat_close.py:333-413 -/
def recordExternalFlatClose (entryPrice : Amount) (clearLocalPosition : Bool)
    (component : CloseFill) : LegBook :=
  if component.amount ≤ flatEpsilon ∨ component.price ≤ 0 then book
  else if book.AlreadyRecordedFill component.exchangeFillId then book
  else
    let recorded := { book with
      trades := book.trades ++ [externalTrade side entryPrice component] }
    if clearLocalPosition then recorded.clearLocal side component.amount component.price
    else recorded

/-- The quantity to explain, the entry price, and the time from which the exchange is asked.
SOURCE: external_flat_close.py:433-458 -/
def flatResidual : Option (Amount × Amount × Option Time) :=
  let residual := book.tradeSideNetQty side
  let held := book.position side
  if residual ≤ flatEpsilon then
    if held.size ≤ flatEpsilon then none else some (held.size, held.entryPrice, none)
  else
    let lastOpen := book.lastOpenTrade side
    let entry := (lastOpen.map LegTrade.price).getD 0
    some (residual, if entry ≤ 0 then held.entryPrice else entry,
      lastOpen.map LegTrade.createdAt)

/-- The set of close fills the exchange explains the residual with; none while several
strategies hold the leg.
SOURCE: external_flat_close.py:460-492 -/
def closeComponents (leg : FlatLeg) (residual : Amount) (openedAfter : Option Time) :
    List CloseFill :=
  if 1 < leg.legOwnerCount then []
  else (leg.resolveExternalClose residual openedAfter book.AlreadyRecordedFill).getD []

/-- `reconcile_external_flat_closes`.
SOURCE: external_flat_close.py:416-523 -/
def reconcileExternalFlatCloses (leg : FlatLeg) (clearLocalPosition : Bool) : LegBook :=
  match book.flatResidual side with
  | none => book
  | some (residual, entry, openedAfter) =>
    (book.closeComponents leg residual openedAfter).foldl
      (fun book component => book.recordExternalFlatClose side entry clearLocalPosition component)
      book

end LegBook

end QuantDinger.Model.Live
