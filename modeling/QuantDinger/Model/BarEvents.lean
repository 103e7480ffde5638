import QuantDinger.Model.EventInbox
import QuantDinger.Model.Text

/-!
# Events of closed bars

`MarketBarClosedV1` of `protocol.py`: the partition key of a bar stream and the event of one closed
bar. `uuid5` in the URL namespace is a parameter. `occurred_at`, which no consumer reads, is left out.
-/

namespace QuantDinger.Model.Events

/-- `_required`.
SOURCE: protocol.py:22-26 -/
def required (value field : String) : Except String String :=
  let normalized := strip value
  if normalized = "" then .error ("eventProtocol.missingField:" ++ field) else .ok normalized

/-- `_part`.
SOURCE: protocol.py:29-30 -/
def part (value : String) : Except String String := do
  let normalized ← required value "partition_key_part"
  return lower (strip normalized)

/-- `":".join(parts)`. -/
def joinColon (parts : List String) : String :=
  String.ofList ([':'].intercalate (parts.map String.toList))

/-- `MarketBarClosedV1.event_type`. -/
def barClosedEventType : String := "market.bar.closed.v1"

/-- The payload of a closed bar. -/
structure BarPayload where
  venue : String
  market : String
  marketType : String
  instrumentId : String
  symbol : String
  timeframe : String
  closedBarToken : ℤ
  closedAt : Time
  deriving DecidableEq

/-- An event with the payload of a closed bar. -/
abbrev BarEvent : Type := EventEnvelope BarPayload

/-- `MarketBarClosedV1.partition_key`.
SOURCE: protocol.py:108-124 -/
def barPartitionKey (venue market marketType instrumentId timeframe : String) :
    Except String String := do
  let venue ← part venue
  let market ← part market
  let marketType ← part marketType
  let instrumentId ← part instrumentId
  let timeframe ← part timeframe
  return joinColon ["bar", venue, market, marketType, instrumentId, timeframe]

/-- `_utc_iso`: an event carries its instants to the millisecond.
SOURCE: protocol.py:12-19 -/
def toMillisecond (value : Time) : Time := value - value % 1000000

/-- `MarketBarClosedV1.create`.
SOURCE: protocol.py:126-166 -/
def barClosed (uuid5 : String → String)
    (venue market marketType instrumentId symbol timeframe : String) (closedBarToken : ℤ)
    (closedAt : Time) : Except String BarEvent := do
  let partitionKey ← barPartitionKey venue market marketType instrumentId timeframe
  return {
    eventId := uuid5 (partitionKey ++ ":" ++ toString closedBarToken)
    eventType := barClosedEventType
    partitionKey := partitionKey
    payload := {
      venue := ← part venue
      market := ← required market "market"
      marketType := ← part marketType
      instrumentId := ← required instrumentId "instrument_id"
      symbol := ← required symbol "symbol"
      timeframe := ← required timeframe "timeframe"
      closedBarToken := closedBarToken
      closedAt := toMillisecond closedAt } }

end QuantDinger.Model.Events
