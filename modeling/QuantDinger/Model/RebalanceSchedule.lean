import QuantDinger.Model.EquityCalendar

/-!
# The next portfolio rebalance

`next_rebalance_run` of `market_schedule.py`. A calendar says which days have a session and when
that closes; it may go on for ever, and the finite calendars of the exchanges are instances
(`ExchangeCalendar.sessionCalendar`).
-/

namespace QuantDinger.Model.Equity

open QuantDinger.Library QuantDinger.Model.Events

/-- The sessions of a calendar by their labels, and `session_close`. -/
structure SessionCalendar where
  isSession : ℤ → Bool
  sessionClose : ℤ → Time

/-- The calendar of the sessions of an exchange. -/
def ExchangeCalendar.sessionCalendar (calendar : ExchangeCalendar) : SessionCalendar where
  isSession day := (calendar.session? day).isSome
  sessionClose day := ((calendar.session? day).map fun session => seconds session.closes).getD 0

/-- `sessions_in_range`, as labels. -/
def SessionCalendar.sessionsInRange (calendar : SessionCalendar) (first last : ℤ) : List ℤ :=
  ((List.range (last - first + 1).toNat).map fun offset : ℕ => first + offset).filter
    calendar.isSession

/-- `isocalendar().week`: weeks begin on Monday and belong to the year of their Thursday. -/
def isoWeek (day : ℤ) : ℤ :=
  let thursday := day - weekday day + 3
  (thursday - (⟨(dateOfDay thursday).year, 1, 1⟩ : Date).toDay) / 7 + 1

/-- `_is_period_end`.
SOURCE: market_schedule.py:302-311 -/
def isPeriodEnd (sessions : List ℤ) (index : ℕ) (frequency : String) : Bool :=
  if frequency = "daily" then true
  else
    match sessions[index]?, sessions[index + 1]? with
    | some current, some following =>
      if frequency = "weekly" then
        decide (isoWeek current ≠ isoWeek following ∨
          (dateOfDay current).year ≠ (dateOfDay following).year)
      else
        decide ((dateOfDay current).month ≠ (dateOfDay following).month ∨
          (dateOfDay current).year ≠ (dateOfDay following).year)
    | _, _ => false

/-- `clean_frequency`. -/
def cleanFrequency (frequency : String) : String :=
  lower (strip (if frequency = "" then "weekly" else frequency))

/-- `timedelta(minutes=max(0, int(data_delay_minutes)))`. -/
def dataDelay (dataDelayMinutes : ℤ) : Time := seconds (60 * max 0 dataDelayMinutes)

/-- `run_at` of a session. -/
def SessionCalendar.runAt (calendar : SessionCalendar) (dataDelayMinutes : ℤ) (day : ℤ) : Time :=
  calendar.sessionClose day + dataDelay dataDelayMinutes

/-- A candidate moved on by days until it fits, at most `fuel` times. -/
def moveByDays (fits : Time → Bool) : ℕ → Time → Time
  | 0, candidate => candidate
  | fuel + 1, candidate =>
    if fits candidate then candidate else moveByDays fits fuel (candidate + dayLength)

/-- The branch of a market that never rests.
SOURCE: market_schedule.py:277-286 -/
def nextContinuousRun (frequency : String) (current : Time) (dataDelayMinutes : ℤ) : Time :=
  let candidate := (dayOf current + 1) * dayLength + dataDelay dataDelayMinutes
  if frequency = "weekly" then
    moveByDays (fun candidate => decide (weekday (dayOf candidate) = 0)) 6 candidate
  else if frequency = "monthly" then
    moveByDays (fun candidate => decide ((dateOfDay (dayOf candidate)).day = 1)) 30 candidate
  else candidate

/-- The test of the loop over the sessions.
SOURCE: market_schedule.py:294-297 -/
def isNextRun (calendar : SessionCalendar) (sessions : List ℤ) (frequency : String)
    (current : Time) (dataDelayMinutes : ℤ) (index : ℕ) : Bool :=
  match sessions[index]? with
  | none => false
  | some session =>
    decide (current < calendar.runAt dataDelayMinutes session) &&
      isPeriodEnd sessions index frequency

/-- The loop over the sessions of the window.
SOURCE: market_schedule.py:288-299 -/
def nextSessionRun (calendar : SessionCalendar) (frequency : String) (current : Time)
    (dataDelayMinutes : ℤ) : Except ScheduleError Time :=
  let sessions := calendar.sessionsInRange (dayOf current) (dayOf (current + 360 * dayLength))
  let found := (List.range sessions.length).find?
    (isNextRun calendar sessions frequency current dataDelayMinutes)
  match found.bind fun index => sessions[index]? with
  | some session => .ok (calendar.runAt dataDelayMinutes session)
  | none => .error (.marketSchedule "portfolio.nextMarketSessionUnavailable")

/-- `next_rebalance_run` over the calendars by their codes.
SOURCE: market_schedule.py:266-299 -/
def nextRebalanceRun (calendars : String → SessionCalendar) (market frequency : String)
    (current : Time) (dataDelayMinutes : ℤ) : Except ScheduleError Time :=
  let clean := cleanFrequency frequency
  if ¬ (clean = "daily" ∨ clean = "weekly" ∨ clean = "monthly") then
    .error (.marketSchedule "portfolio.invalidRebalanceFrequency")
  else if strip market = "Crypto" ∨ strip market = "Cryptocurrency" then
    .ok (nextContinuousRun clean current dataDelayMinutes)
  else
    match calendarByMarket.lookup (strip market) with
    | none => .error (.marketSchedule "portfolio.marketCalendarUnsupported")
    | some code => nextSessionRun (calendars code) clean current dataDelayMinutes

end QuantDinger.Model.Equity
