import QuantDinger.Model.EquityCalendar

/-!
# Expected bars of a frame

`expected_bar`, `frame_is_current` and `frame_covers_bar` of `candle_readiness.py`. A frame is the
list of its stamps in UTC. ISO weeks are compared by their Mondays.
-/

namespace QuantDinger.Model.Equity

open QuantDinger.Model.Events

/-- The fields of a candidate that say where its candles come from. -/
structure CandidateMember where
  market : String
  exchangeId : String
  marketType : String
  apiFamily : String
  underlyingMarket : String
  deriving DecidableEq

/-- `equity_data_market` of a candidate.
SOURCE: market_schedule.py:23-30, candle_readiness.py:19 -/
def equityDataMarket (member : CandidateMember) : Except ScheduleError String :=
  let market := if member.market = "" then "Crypto" else member.market
  if market = "Crypto" ∧ lower member.apiFamily = "stock" then
    if member.underlyingMarket ∈ ["USStock", "HKStock"] then .ok member.underlyingMarket
    else .error (.marketSchedule "portfolio.marketCalendarUnsupported")
  else .ok market

/-- `completed_candle_open`, in seconds.
SOURCE: candle_calendar.py:17-24 -/
def completedCandleOpen (now : Time) (timeframe venue marketType : String) :
    Except String ℤ := do
  let length ← timeframeSeconds timeframe
  let origin ← candleOrigin timeframe venue marketType
  return (now - seconds origin) / seconds length * length + origin - length

/-- `expected_bar`.
SOURCE: candle_readiness.py:15-33 -/
def expectedBar (calendars : String → ExchangeCalendar) (member : CandidateMember)
    (frequency : String) (now : Time) (frame : List Time) : Except ScheduleError Time := do
  let market ← equityDataMarket member
  let length ← (timeframeSeconds frequency).mapError .valueError
  if market ∈ ["USStock", "HKStock"] then
    if length = 86400 then equityDailyBarCutoff calendars market now
    else if length = 604800 then equityWeeklyBarCutoff calendars market now
    else equityIntradayBarOpen calendars market length now
  else
    let stamp ← match frame.getLast? with
      | some last =>
        if member.exchangeId = "" ∧ lower market ∈ ["crypto", "cryptocurrency"] then
          let origin := Int.tdiv last (seconds 1) % length
          pure ((now - seconds origin) / seconds length * length + origin - length)
        else (completedCandleOpen now frequency member.exchangeId
          (if member.marketType = "" then "spot" else member.marketType)).mapError .valueError
      | none => (completedCandleOpen now frequency member.exchangeId
          (if member.marketType = "" then "spot" else member.marketType)).mapError .valueError
    return seconds stamp

/-- `frame_covers_bar`.
SOURCE: candle_readiness.py:43-56 -/
def frameCoversBar (frame : List Time) (member : CandidateMember) (frequency : String)
    (expected : Time) : Except ScheduleError Bool :=
  match frame.getLast? with
  | none => .ok false
  | some latest => do
    let market ← equityDataMarket member
    if market ∈ ["USStock", "HKStock"] then
      let length ← (timeframeSeconds frequency).mapError .valueError
      if 86400 ≤ length then
        let actualDay := equityBarSessionDate latest market
        let expectedDay := equityBarSessionDate expected market
        if length = 604800 then
          return decide (actualDay - weekday actualDay = expectedDay - weekday expectedDay)
        else return decide (actualDay = expectedDay)
      else return decide (latest = expected)
    else return decide (latest = expected)

/-- `frame_is_current`.
SOURCE: candle_readiness.py:36-40 -/
def frameIsCurrent (calendars : String → ExchangeCalendar) (frame : List Time)
    (member : CandidateMember) (frequency : String) (now : Time) : Except ScheduleError Bool :=
  if frame = [] then .ok false
  else do
    let expected ← expectedBar calendars member frequency now frame
    frameCoversBar frame member frequency expected

end QuantDinger.Model.Equity
