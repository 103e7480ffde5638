import QuantDinger.Model.Text

/-!
# Position history of Binance futures

`binance_position_history`: closed legs rebuilt from the fills of an account. Numbers are read and
exact already; the text of an instant is a parameter.
-/

namespace QuantDinger.Model.Activity

/-- A row of `get_user_trades`; `rowId` is its own id, its order's or its time as text. -/
structure UserTrade where
  time : ℚ
  id : ℚ
  rowId : String
  symbol : String
  qty : ℚ
  price : ℚ
  commission : ℚ
  commissionAsset : String
  realizedPnl : ℚ
  side : String
  positionSide : String
  deriving DecidableEq, Repr

/-- The keys of `states`. -/
inductive LegSide
  | long
  | short
  deriving DecidableEq, Repr

namespace LegSide

def text : LegSide → String
  | long => "long"
  | short => "short"

def other : LegSide → LegSide
  | long => short
  | short => long

end LegSide

/-- An entry of `states`. -/
structure LegState where
  quantity : ℚ
  notional : ℚ
  fee : ℚ
  openedAt : Option ℚ
  deriving DecidableEq, Repr

/-- A state without a position. SOURCE: position_activity.py:131-134 -/
def LegState.empty : LegState := ⟨0, 0, 0, none⟩

/-- A row of `result`. SOURCE: position_activity.py:157-171 -/
structure ClosedLeg where
  id : String
  symbol : String
  side : String
  openedAt : Option String
  closedAt : Option String
  entryPrice : ℚ
  exitPrice : ℚ
  quantity : ℚ
  pnl : ℚ
  grossPnl : ℚ
  fee : ℚ
  funding : ℚ := 0
  source : String := "exchange"
  deriving DecidableEq, Repr

/-- `states` and `result`. -/
structure LegReplay where
  states : LegSide → LegState
  result : List ClosedLeg

/-- What the replay takes for nothing left. -/
def dust : ℚ := 1 / 1000000000000000

/-- `utc_time`; `iso` writes an instant in seconds. Milliseconds are told by their size.
SOURCE: position_activity.py:30-36 -/
def utcTime (iso : ℚ → String) : Option ℚ → Option String
  | none => none
  | some value =>
    if value = 0 then none else some (iso (if 100000000000 < |value| then value / 1000 else value))

namespace LegReplay

/-- The start of the replay. -/
def start : LegReplay := ⟨fun _ => LegState.empty, []⟩

/-- `add`. SOURCE: position_activity.py:137-143 -/
def add (replay : LegReplay) (side : LegSide) (quantity price fee : ℚ) (timestamp : ℚ) :
    LegReplay :=
  let state := replay.states side
  { replay with
    states := Function.update replay.states side
      { openedAt := if state.quantity ≤ 0 then some timestamp else state.openedAt
        quantity := state.quantity + quantity
        notional := state.notional + quantity * price
        fee := state.fee + fee } }

/-- `close`, with the quantity that is left of the fill.
SOURCE: position_activity.py:145-177 -/
def close (iso : ℚ → String) (symbol : String) (replay : LegReplay) (side : LegSide)
    (quantity price fee grossPnl : ℚ) (timestamp : ℚ) (rowId : String) : LegReplay × ℚ :=
  let state := replay.states side
  let closing := min quantity state.quantity
  if closing ≤ 0 then (replay, quantity)
  else
    let before := state.quantity
    let ratio := closing / before
    let entryPrice := if 0 < before then state.notional / before else 0
    let allocatedOpenFee := state.fee * ratio
    let totalFee := allocatedOpenFee + fee * (if 0 < quantity then closing / quantity else 0)
    let allocatedPnl := grossPnl * (if 0 < quantity then closing / quantity else 0)
    let leg : ClosedLeg := {
      id := rowId ++ ":" ++ side.text
      symbol
      side := side.text
      openedAt := utcTime iso state.openedAt
      closedAt := utcTime iso (some timestamp)
      entryPrice
      exitPrice := price
      quantity := closing
      pnl := allocatedPnl - totalFee
      grossPnl := allocatedPnl
      fee := totalFee }
    let remainingRatio := max 0 (1 - ratio)
    let left : LegState := {
      quantity := state.quantity - closing
      notional := state.notional * remainingRatio
      fee := state.fee * remainingRatio
      openedAt := state.openedAt }
    ({ states := Function.update replay.states side
        (if left.quantity ≤ dust then LegState.empty else left)
       result := replay.result ++ [leg] }, quantity - closing)

/-- The branch of one-way mode: close one side, open the other with the rest.
SOURCE: position_activity.py:207-214 -/
def oneWay (iso : ℚ → String) (symbol : String) (replay : LegReplay) (closing : LegSide)
    (trade : UserTrade) (quantity fee : ℚ) : LegReplay :=
  let closed := replay.close iso symbol closing quantity trade.price fee trade.realizedPnl
    trade.time trade.rowId
  if dust < closed.2 then
    closed.1.add closing.other closed.2 trade.price (fee * (closed.2 / quantity)) trade.time
  else closed.1

/-- The fee assets that count as money. -/
def stableAssets : List String := ["USDT", "USDC", "BUSD", ""]

/-- One row of the history.
SOURCE: position_activity.py:183-214 -/
def apply (iso : ℚ → String) (symbol nativeSymbol : String) (replay : LegReplay)
    (trade : UserTrade) : LegReplay :=
  if upper trade.symbol ≠ nativeSymbol then replay
  else
    let quantity := |trade.qty|
    if quantity ≤ 0 ∨ trade.price ≤ 0 then replay
    else
      let fee := if upper trade.commissionAsset ∈ stableAssets then |trade.commission| else 0
      let side := upper trade.side
      let positionSide := upper (if trade.positionSide = "" then "BOTH" else trade.positionSide)
      let add := fun leg => replay.add leg quantity trade.price fee trade.time
      let close := fun leg => (replay.close iso symbol leg quantity trade.price fee
        trade.realizedPnl trade.time trade.rowId).1
      if positionSide = "LONG" then if side = "BUY" then add .long else close .long
      else if positionSide = "SHORT" then if side = "SELL" then add .short else close .short
      else if side = "BUY" then replay.oneWay iso symbol .short trade quantity fee
      else if side = "SELL" then replay.oneWay iso symbol .long trade quantity fee
      else replay

end LegReplay

/-- The order of the replay: by time, then by id.
SOURCE: position_activity.py:179-182 -/
def orderTrades (rows : List UserTrade) : List UserTrade :=
  rows.mergeSort fun earlier later =>
    decide (earlier.time < later.time ∨ earlier.time = later.time ∧ earlier.id ≤ later.id)

/-- The replay of ordered rows. SOURCE: position_activity.py:183-214 -/
def replayTrades (iso : ℚ → String) (symbol nativeSymbol : String) (ordered : List UserTrade) :
    LegReplay :=
  ordered.foldl (LegReplay.apply iso symbol nativeSymbol) LegReplay.start

/-- `binance_position_history` of the rows it fetched, newest first and truncated.
SOURCE: position_activity.py:119-217 -/
def binancePositionHistory (iso : ℚ → String) (symbol nativeSymbol : String)
    (rows : List UserTrade) (limit : ℤ) : List ClosedLeg :=
  ((replayTrades iso symbol nativeSymbol (orderTrades rows)).result.mergeSort fun first second =>
    decide (second.closedAt.getD "" ≤ first.closedAt.getD "")).take
      (max 1 (if limit = 0 then 50 else limit)).toNat

end QuantDinger.Model.Activity
