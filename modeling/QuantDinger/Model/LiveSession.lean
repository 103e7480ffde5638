import QuantDinger.Model.Context

/-!
# The live session

The protection side of `StrategyV2LiveSession`: the specifications its orders carried, the
state of each protected position, and the latch of the exits that are under way. The
session learns positions from `synchronize_positions` and prices from
`evaluate_protections`; a restart goes through `protection_snapshot` and
`restore_protection_snapshot`.

Of the handlers that `process` runs (and `evaluate_equity_risk` and `evaluate_price_tick`,
which end alike) the protections see the clock they ran at and the orders they queued.
-/

namespace QuantDinger.Model

open QuantDinger.Library

/-- `text.rpartition("::")`, as the parts around the last separator. -/
def splitLastColons : List Char → Option (List Char × List Char)
  | [] => none
  | c :: rest =>
    match splitLastColons rest with
    | some (front, back) => some (c :: front, back)
    | none => match rest with
      | d :: back => if c = ':' ∧ d = ':' then some ([], back) else none
      | [] => none

/-- What the caller of `synchronize_positions` says about a position. -/
structure RawPosition where
  amount : Option Amount := none
  side : Option String := none
  positionSide : Option String := none
  avgCost : Option Amount := none
  lastPrice : Option Amount := none

/-- What the handlers of a call leave to the session: the data they saw, the clock, and
the queued orders. `_queue` drops a protection with nothing enabled. -/
structure Handled where
  data : MarketData
  currentDt : Option Time
  orders : List OrderIntent
  enabled : ∀ order ∈ orders, ∀ spec, order.protection = some spec → spec.enabled = true

/-- The stored form of a session's protections. -/
structure ProtectionSnapshot where
  specs : Dict PositionKey ProtectionValues
  states : Dict PositionKey StateMetadata
  exitPending : Finset PositionKey

/-- `StrategyV2LiveSession`.
SOURCE: runtime.py:2400-2452 -/
structure LiveSession where
  data : MarketData
  currentDt : Option Time
  availableCash : Amount
  totalValue : Amount
  positions : Dict PositionKey Position
  lastExitReasons : Dict String String
  protectionSpecs : Dict PositionKey ProtectionSpec
  protectionStates : Dict PositionKey ProtectionState
  exitPending : Finset PositionKey

namespace LiveSession

/-- A session fresh from the constructor. -/
def create (data : MarketData) (initialCapital : Amount) : LiveSession where
  data := data
  currentDt := none
  availableCash := initialCapital
  totalValue := initialCapital
  positions := Dict.empty
  lastExitReasons := Dict.empty
  protectionSpecs := Dict.empty
  protectionStates := Dict.empty
  exitPending := ∅

/-- `_capture_protection_intents`.
SOURCE: runtime.py:2863-2867 -/
def captureProtectionIntents (specs : Dict PositionKey ProtectionSpec)
    (orders : List OrderIntent) : Dict PositionKey ProtectionSpec :=
  orders.foldl (fun specs order => match order.protection with
    | some spec => specs.set order.key spec
    | none => specs) specs

/-- `process`, once its handlers have run.
SOURCE: runtime.py:2454-2503 -/
def process (session : LiveSession) (handled : Handled) : LiveSession :=
  { session with
    data := handled.data
    currentDt := handled.currentDt
    protectionSpecs := captureProtectionIntents session.protectionSpecs handled.orders }

/-! ## Positions -/

/-- One entry of the caller's mapping, read.
SOURCE: runtime.py:2522-2546 -/
def readPosition (session : LiveSession) (entry : String × RawPosition) :
    PositionKey × Position :=
  let source := entry.1
  let raw := entry.2
  let parts := splitLastColons source.toList
  let suffixSide := parts.bind fun p => normalizePositionSide (String.ofList p.2)
  let resolveSymbol := match parts with
    | some p => if suffixSide.isSome then String.ofList p.1 else source
    | none => source
  let symbol := match session.data.resolveKey resolveSymbol none with
    | .ok key => key
    | .error _ => resolveSymbol
  let amount := raw.amount.getD 0
  let short := lower (strip (textOr raw.side "long")) = "short"
  let positionSide := suffixSide <|> normalizePositionSide (textOr raw.positionSide "")
  (⟨symbol, positionSide⟩,
    { symbol := symbol
      amount := if short ∧ 0 < amount then -amount else amount
      avgCost := raw.avgCost.getD 0
      lastPrice := raw.lastPrice.getD 0
      positionSide := positionSide })

/-- The side of a position that is open. -/
def sideOf (position : Position) : Side := if 0 < position.amount then .long else .short

/-- What `synchronize_positions` writes for one position, if anything.
SOURCE: runtime.py:2548-2575 -/
def protectPosition (specs : Dict PositionKey ProtectionSpec) (currentDt : Option Time)
    (now : Time) (key : PositionKey) (position : Position) (state : Option ProtectionState) :
    Option ProtectionState :=
  match specs.get? key with
  | none => none
  | some spec =>
    if |position.amount| ≤ 1 / 10 ^ 12 ∨ position.avgCost ≤ 0 then none
    else
      let side := sideOf position
      let fresh := ProtectionState.opened key.text side position.avgCost spec (currentDt.getD now)
      match state with
      | none => some fresh
      | some state =>
        if state.side ≠ side then some fresh
        else
          let newAverage := position.avgCost
          if max (1 / 10 ^ 12) (|state.entryPrice| * (1 / 10 ^ 10)) <
              |newAverage - state.entryPrice| then
            some (state.applyScaleIn newAverage (orElse position.lastPrice newAverage) spec
              (currentDt.getD state.openedAt))
          else none

/-- `synchronize_positions`. The caller's clock stands for `pd.Timestamp.utcnow()`.
SOURCE: runtime.py:2514-2587 -/
def synchronizePositions (session : LiveSession) (raw : List (String × RawPosition))
    (availableCash totalValue : Option Amount) (now : Time) : LiveSession :=
  let synced := Dict.ofPairs (raw.map session.readPosition)
  let states := synced.entries.foldl (fun states entry => states.updateWith entry.1
      (protectPosition session.protectionSpecs session.currentDt now entry.1 entry.2))
    session.protectionStates
  -- An exit that is under way ends when its position is gone, and with it the protection.
  let gone := session.exitPending.filter fun key => (synced.get? key).isNone
  { session with
    positions := synced
    protectionSpecs := session.protectionSpecs.filterMapValues fun key spec =>
      if key ∈ gone then none else some spec
    protectionStates := states.filterMapValues fun key state =>
      if key ∈ gone then none else some state
    exitPending := session.exitPending \ gone
    availableCash := availableCash.getD session.availableCash
    totalValue := totalValue.getD session.totalValue }

/-! ## Prices -/

/-- The price a protection is asked about: none for a latched, unknown or flat position.
SOURCE: runtime.py:2597-2613 -/
def priceFor (session : LiveSession) (prices : Dict String Amount) (key : PositionKey) :
    Option (Position × Amount) :=
  if key ∈ session.exitPending then none
  else match session.positions.get? key with
    | none => none
    | some position =>
      if |position.amount| ≤ 1 / 10 ^ 12 then none
      else ((prices.get? position.symbol).or (prices.get? key.text)).map fun price =>
        (position, price)

/-- One state of `evaluate_protections`: the position and the decision to close it, and
the state that is left.
SOURCE: runtime.py:2597-2622 -/
def evaluateOne (session : LiveSession) (prices : Dict String Amount) (ts : Time)
    (key : PositionKey) (state : ProtectionState) :
    Option (Position × ProtectionDecision) × ProtectionState :=
  match session.priceFor prices key with
  | none => (none, state)
  | some (position, price) =>
    let result := ProtectionEngine.evaluatePrice .conservative state ts price
    (result.1.map fun decision => (position, decision), result.2)

/-- The order that closes a protected position.
SOURCE: runtime.py:2623-2629 -/
def exitOrder (position : Position) (decision : ProtectionDecision) : OrderIntent where
  symbol := position.symbol
  kind := .targetQuantity
  value := 0
  reason := decision.reason.text
  positionSide := position.positionSide

/-- `evaluate_protections`. A state is asked once and sees no latch but its own, so the
loop is a pass over the states.
SOURCE: runtime.py:2589-2634 -/
def evaluateProtections (session : LiveSession) (prices : Dict String Amount) (ts : Time) :
    List OrderIntent × LiveSession :=
  let exits := session.protectionStates.entries.filterMap fun entry =>
    (session.evaluateOne prices ts entry.1 entry.2).1.map fun exit => (entry.1, exit)
  (exits.map fun exit => exitOrder exit.2.1 exit.2.2,
    { session with
      protectionStates := session.protectionStates.mapValues fun key state =>
        (session.evaluateOne prices ts key state).2
      lastExitReasons := exits.foldl (fun reasons exit =>
          (reasons.set exit.1.text exit.2.2.reason.text).set exit.2.1.symbol
            exit.2.2.reason.text) session.lastExitReasons
      exitPending := session.exitPending ∪ (exits.map Prod.fst).toFinset })

/-- `release_protection_exit`.
SOURCE: runtime.py:2756-2765 -/
def releaseProtectionExit (session : LiveSession) (symbol positionSide : String) : LiveSession :=
  { session with
    exitPending := session.exitPending.erase ⟨symbol, normalizePositionSide positionSide⟩ }

/-! ## Restarts -/

/-- `protection_snapshot`.
SOURCE: runtime.py:2829-2834 -/
def protectionSnapshot (session : LiveSession) : ProtectionSnapshot where
  specs := session.protectionSpecs.mapValues fun _ spec => spec.metadata
  states := session.protectionStates.mapValues fun _ state => state.metadata
  exitPending := session.exitPending

/-- `restore_protection_snapshot`: what fails its checks is dropped, and so is a latch
without a specification and a state.
SOURCE: runtime.py:2836-2861 -/
def restoreProtectionSnapshot (session : LiveSession) (snapshot : ProtectionSnapshot)
    (now : Time) : LiveSession :=
  let specs := snapshot.specs.filterMapValues fun _ value => ProtectionSpec.fromValue value {}
  let states := snapshot.states.filterMapValues fun _ value =>
    ProtectionState.fromMetadata now value
  { session with
    protectionSpecs := specs
    protectionStates := states
    exitPending := snapshot.exitPending.filter fun key => specs.contains key ∧ states.contains key }

/-! ## Runs -/

/-- The operations on a session. The prices of a tick come with its time, and the calls
that may ask for the current time with the answer. -/
inductive Operation
  | process (handled : Handled)
  | synchronize (raw : List (String × RawPosition)) (availableCash totalValue : Option Amount)
      (now : Time)
  | evaluate (prices : Dict String Amount) (ts : Time)
  | release (symbol positionSide : String)
  | restore (snapshot : ProtectionSnapshot) (now : Time)

/-- One operation: the exits it asks for, and the session it leaves. -/
def step (session : LiveSession) : Operation → List OrderIntent × LiveSession
  | .process handled => ([], session.process handled)
  | .synchronize raw availableCash totalValue now =>
    ([], session.synchronizePositions raw availableCash totalValue now)
  | .evaluate prices ts => session.evaluateProtections prices ts
  | .release symbol positionSide => ([], session.releaseProtectionExit symbol positionSide)
  | .restore snapshot now => ([], session.restoreProtectionSnapshot snapshot now)

/-- The session after a sequence of operations. -/
def after (session : LiveSession) (operations : List Operation) : LiveSession :=
  operations.foldl (fun session operation => (session.step operation).2) session

end LiveSession

end QuantDinger.Model
