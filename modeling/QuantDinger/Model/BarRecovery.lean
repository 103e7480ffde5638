import QuantDinger.Model.BarEvents
import QuantDinger.Model.RuntimeLease

/-!
# Recovery of closed bars

The candle calendar (`timeframe_seconds`, `candle_origin`, `completed_bar_token`), the routes that
`BarRecoveryRoute.parse` reads off a partition key, and `StrategyBarRecoveryPublisher` with its last
tokens. The exchange calendars behind `is_equity_bar_close` and `uuid5` are parameters. Counters are
left out.
-/

namespace QuantDinger.Model.Events

open QuantDinger.Model.Live (oneSecond)

/-! ## The candle calendar -/

/-- `TIMEFRAME_SECONDS`.
SOURCE: data_sources/base.py:16-26 -/
def timeframeTable : List (String × ℤ) :=
  [("1m", 60), ("3m", 180), ("5m", 300), ("15m", 900), ("30m", 1800), ("1H", 3600), ("4H", 14400),
    ("1D", 86400), ("1W", 604800)]

/-- `aliases` of `timeframe_seconds`.
SOURCE: data_sources/base.py:32-41 -/
def timeframeAliases : List (String × ℤ) :=
  [("1h", 3600), ("2h", 7200), ("4h", 14400), ("6h", 21600), ("8h", 28800), ("12h", 43200),
    ("1d", 86400), ("1w", 604800)]

/-- `timeframe_seconds`.
SOURCE: data_sources/base.py:29-47 -/
def timeframeSeconds (value : String) : Except String ℤ :=
  let raw := strip value
  match timeframeTable.lookup raw with
  | some seconds => .ok seconds
  | none =>
    match timeframeAliases.lookup (lower raw) with
    | some seconds => .ok seconds
    | none => .error "marketData.unsupportedTimeframe"

/-- `candle_origin`, in seconds.
SOURCE: candle_calendar.py:6-14 -/
def candleOrigin (timeframe venue marketType : String) : Except String ℤ := do
  let seconds ← timeframeSeconds timeframe
  let venue := lower venue
  let offset : ℤ := if venue ∈ ["okx", "bitget", "htx", "huobi"] then -8 * 3600 else 0
  if seconds = 604800 then
    if venue = "gate" ∧ marketType = "swap" then return 0
    else return (offset + 4 * 86400) % seconds
  else return offset % seconds

/-- `completed_bar_token`.
SOURCE: strategy_runtime/timeframes.py:59-67 -/
def completedBarToken (frequency : String) (now : Time) (venue marketType : String) :
    Except String ℤ := do
  let seconds := max 1 (frequencySeconds frequency)
  let origin ← candleOrigin frequency venue marketType
  return (now - origin * oneSecond) / (seconds * oneSecond) - 1

/-- `completed_bar_close`.
SOURCE: strategy_runtime/timeframes.py:70-75 -/
def completedBarClose (frequency : String) (token : ℤ) (venue marketType : String) :
    Except String Time := do
  let origin ← candleOrigin frequency venue marketType
  return ((token + 1) * frequencySeconds frequency + origin) * oneSecond

/-! ## Streams and routes -/

/-- `BarStreamKey`.
SOURCE: bar_clock.py:22-28 -/
structure BarStreamKey where
  venue : String
  market : String
  marketType : String
  instrumentId : String
  symbol : String
  timeframe : String
  deriving DecidableEq

/-- `BarStreamKey.partition_key`.
SOURCE: bar_clock.py:68-76 -/
def BarStreamKey.partitionKey (key : BarStreamKey) : Except String String :=
  barPartitionKey key.venue key.market key.marketType key.instrumentId key.timeframe

/-- The event that the clock publishes for a bar of the stream.
SOURCE: bar_clock.py:175-193 -/
def BarStreamKey.event (uuid5 : String → String) (key : BarStreamKey) (token : ℤ) :
    Except String BarEvent := do
  let closedAt ← completedBarClose key.timeframe token key.venue key.marketType
  barClosed uuid5 key.venue key.market key.marketType key.instrumentId key.symbol key.timeframe
    token closedAt

/-- `_CANONICAL_MARKETS`.
SOURCE: bar_recovery.py:21-28 -/
def canonicalMarkets : List (String × String) :=
  [("astock", "AStock"), ("cnstock", "CNStock"), ("crypto", "Crypto"),
    ("cryptocurrency", "Cryptocurrency"), ("hkstock", "HKStock"), ("usstock", "USStock")]

/-- `BarRecoveryRoute`. -/
structure BarRecoveryRoute where
  partitionKey : String
  venue : String
  market : String
  marketType : String
  instrumentId : String
  timeframe : String
  deriving DecidableEq

/-- `BarRecoveryRoute.parse`.
SOURCE: bar_recovery.py:41-63 -/
def BarRecoveryRoute.parse (partitionKey timeframe : String) : Except String BarRecoveryRoute :=
  let normalized := strip partitionKey
  let parts := splitOn ':' normalized
  let last := parts.getLastD ""
  if parts.length < 6 ∨ lower (parts.getD 0 "") ≠ "bar" then
    .error "strategyBarRecovery.invalidPartitionKey"
  else
    let routeTimeframe :=
      normalizeFrequency (some (strip (if timeframe = "" then last else timeframe))) "1d"
    if normalizeFrequency (some last) "1d" ≠ routeTimeframe then
      .error "strategyBarRecovery.timeframeMismatch"
    else
      let instrumentId := strip (joinColon ((parts.drop 4).dropLast))
      if instrumentId = "" then .error "strategyBarRecovery.instrumentRequired"
      else
        let market := strip (parts.getD 2 "")
        .ok {
          partitionKey := normalized
          venue := lower (strip (parts.getD 1 ""))
          market := (canonicalMarkets.lookup (lower market)).getD market
          marketType := lower (strip (parts.getD 3 ""))
          instrumentId := instrumentId
          timeframe := routeTimeframe }

/-- `BarRecoveryRoute.event`.
SOURCE: bar_recovery.py:65-75 -/
def BarRecoveryRoute.event (uuid5 : String → String) (route : BarRecoveryRoute) (token : ℤ) :
    Except String BarEvent := do
  let closedAt ← completedBarClose route.timeframe token route.venue route.marketType
  barClosed uuid5 route.venue route.market route.marketType route.instrumentId route.instrumentId
    route.timeframe token closedAt

/-! ## The publisher -/

/-- What the publisher rests on: `uuid5`, `is_equity_bar_close`, which may raise, and the grace. -/
structure RecoveryConfig where
  uuid5 : String → String
  isEquityBarClose : String → Time → Except String Bool
  grace : Time
  grace_nonneg : 0 ≤ grace

/-- An observation that moved the last token of a stream from `before` to `after`. -/
structure Jump where
  partitionKey : String
  before : ℤ
  after : ℤ
  deriving DecidableEq

/-- `_last_tokens`. The other fields remember: `known`, the first token that was known for a stream;
`seen`, the bars that were observed or published; `jumps`, the observations that moved a last
token. -/
structure RecoveryPublisher where
  lastTokens : String → Option ℤ := fun _ => none
  known : String → Option ℤ := fun _ => none
  seen : List (String × ℤ) := []
  jumps : List Jump := []

/-- `observe`.
SOURCE: bar_recovery.py:109-120 -/
def RecoveryPublisher.observe (publisher : RecoveryPublisher) (event : BarEvent) :
    RecoveryPublisher :=
  if event.eventType ≠ barClosedEventType then publisher
  else
    let key := event.partitionKey
    let token := event.payload.closedBarToken
    let previous := (publisher.lastTokens key).getD token
    { lastTokens := Function.update publisher.lastTokens key (some (max token previous))
      known := Function.update publisher.known key ((publisher.known key).getD token)
      seen := (key, token) :: publisher.seen
      jumps := if previous < token then ⟨key, previous, token⟩ :: publisher.jumps
        else publisher.jumps }

/-- `range(previous + 1, token + 1)`. -/
def dueTokens (previous token : ℤ) : List ℤ :=
  (List.range (token - previous).toNat).map fun i : ℕ => previous + 1 + (i : ℤ)

/-- The loop over the due tokens of a route: the events with those of the earlier routes, and
`route_has_events`.
SOURCE: bar_recovery.py:162-181 -/
def collectDue (config : RecoveryConfig) (route : BarRecoveryRoute) (partitionKey : String) :
    List ℤ → List BarEvent → Bool → Except String (List BarEvent × Bool)
  | [], events, routeHasEvents => .ok (events, routeHasEvents)
  | token :: tokens, events, routeHasEvents => do
    let event ← route.event config.uuid5 token
    if event.partitionKey ≠ partitionKey then return (events, false)
    if ← config.isEquityBarClose route.market event.payload.closedAt then
      collectDue config route partitionKey tokens (events ++ [event]) true
    else collectDue config route partitionKey tokens events routeHasEvents

/-- What the loop over the rows gathers. -/
structure RecoveryPlan where
  activeKeys : List String := []
  events : List BarEvent := []
  eventTokens : List (String × ℤ) := []
  sessionTokens : List (String × ℤ) := []

/-- The route of a row with its due token.
SOURCE: bar_recovery.py:142-147 -/
def routeDue (partitionKey timeframe : String) (eligibleAt : Time) :
    Except String (BarRecoveryRoute × ℤ) := do
  let route ← BarRecoveryRoute.parse partitionKey timeframe
  let token ← completedBarToken route.timeframe eligibleAt route.venue route.marketType
  return (route, token)

/-- The loop over the rows of `active_bar_routes`; an exception in the middle keeps the last tokens
that were set before.
SOURCE: bar_recovery.py:137-185 -/
def planRows (config : RecoveryConfig) (eligibleAt : Time) :
    List (String × String) → (String → Option ℤ) → RecoveryPlan →
      (String → Option ℤ) × Except String RecoveryPlan
  | [], lastTokens, plan => (lastTokens, .ok plan)
  | (rowKey, timeframe) :: rows, lastTokens, plan =>
    let key := strip rowKey
    if key = "" then planRows config eligibleAt rows lastTokens plan
    else
      let plan := { plan with activeKeys := key :: plan.activeKeys }
      match routeDue key timeframe eligibleAt with
      | .error _ => planRows config eligibleAt rows lastTokens plan
      | .ok (route, token) =>
        let previous := (lastTokens key).getD (token - 1)
        let lastTokens := Function.update lastTokens key (some previous)
        if token ≤ previous then planRows config eligibleAt rows lastTokens plan
        else
          match collectDue config route key (dueTokens previous token) plan.events false with
          | .error error => (lastTokens, .error error)
          | .ok (events, true) =>
            planRows config eligibleAt rows lastTokens
              { plan with events := events, eventTokens := (key, token) :: plan.eventTokens }
          | .ok (events, false) =>
            planRows config eligibleAt rows lastTokens
              { plan with events := events, sessionTokens := (key, token) :: plan.sessionTokens }

/-- `dict.update`; the entry that was added last is the first one. -/
def updateTokens (lastTokens : String → Option ℤ) (entries : List (String × ℤ)) :
    String → Option ℤ := fun key => (entries.lookup key).or (lastTokens key)

/-- How `publish_batch` ends; when it fails, it may have published some of the events. -/
inductive BatchAnswer
  | delivered
  | failed (published : List ℕ)
  deriving DecidableEq

/-- How `publish_due` ends. -/
inductive DueAnswer
  | raised (error : String)
  | nothing
  | failed
  | delivered
  deriving DecidableEq

/-- The bar of an event. -/
def barOf (event : BarEvent) : String × ℤ := (event.partitionKey, event.payload.closedBarToken)

/-- `publish_due`.
SOURCE: bar_recovery.py:122-209 -/
def RecoveryPublisher.publishDue (config : RecoveryConfig) (publisher : RecoveryPublisher)
    (now : Time) (rows : List (String × String)) (answer : BatchAnswer) :
    RecoveryPublisher × DueAnswer :=
  let (lastTokens, planned) := planRows config (now - config.grace) rows publisher.lastTokens {}
  let publisher := { publisher with
    lastTokens := lastTokens
    known := fun key => (publisher.known key).or (lastTokens key) }
  match planned with
  | .error error => (publisher, .raised error)
  | .ok plan =>
    let updated := updateTokens lastTokens plan.sessionTokens
    let publisher := { publisher with
      lastTokens := fun key => if key ∈ plan.activeKeys then updated key else none }
    if plan.events = [] then (publisher, .nothing)
    else
      match answer with
      | .failed published =>
        ({ publisher with
          seen := published.filterMap (fun i => plan.events[i]?.map barOf) ++ publisher.seen },
          .failed)
      | .delivered =>
        ({ publisher with
          lastTokens := updateTokens publisher.lastTokens plan.eventTokens
          seen := plan.events.map barOf ++ publisher.seen }, .delivered)

/-- What can happen to the publisher. -/
inductive RecoveryMove
  | observe (event : BarEvent)
  | publishDue (now : Time) (rows : List (String × String)) (answer : BatchAnswer)

/-- One step. -/
def RecoveryPublisher.step (config : RecoveryConfig) (publisher : RecoveryPublisher) :
    RecoveryMove → RecoveryPublisher
  | .observe event => publisher.observe event
  | .publishDue now rows answer => (publisher.publishDue config now rows answer).1

end QuantDinger.Model.Events
