import QuantDinger.Library.Dict
import QuantDinger.Model.BarRecovery
import QuantDinger.Model.Schedule

/-!
# Exchange sessions and equity bars

`market_schedule.py` over any exchange calendars: the last completed bar of each length, the filter
of closed rows, resampling, and the boundaries that close a bar. Sessions are in whole seconds since
the epoch, labelled by their day. What rounds a volume is a parameter.
-/

namespace QuantDinger.Model.Equity

open QuantDinger.Library QuantDinger.Model.Events

/-- What the schedule raises. -/
inductive ScheduleError
  | marketSchedule (message : String)
  | valueError (message : String)
  | indexError
  deriving DecidableEq, Repr

/-! ## Calendars -/

/-- One session of an exchange, with its lunch break, inside the UTC date that labels it. -/
structure Session where
  day : ℤ
  opens : ℤ
  closes : ℤ
  lunch : Option (ℤ × ℤ)
  opens_lt_closes : opens < closes
  lunch_inside : ∀ breakStart breakEnd, lunch = some (breakStart, breakEnd) →
    opens < breakStart ∧ breakStart < breakEnd ∧ breakEnd < closes
  on_day : day * 86400 ≤ opens ∧ closes < (day + 1) * 86400
  deriving DecidableEq

/-- The trading segments of a session. -/
def Session.segments (session : Session) : List (ℤ × ℤ) :=
  match session.lunch with
  | none => [(session.opens, session.closes)]
  | some (breakStart, breakEnd) => [(session.opens, breakStart), (breakEnd, session.closes)]

/-- A calendar of `exchange_calendars`: its sessions, the date of an instant in its zone and the
instant a date begins there. A session is labelled by its date in the zone. -/
structure ExchangeCalendar where
  sessions : List Session
  localDay : ℤ → ℤ
  midnight : ℤ → ℤ
  increasing : sessions.Pairwise fun earlier later => earlier.day < later.day
  localDay_session : ∀ session ∈ sessions, ∀ instant, session.opens ≤ instant →
    instant ≤ session.closes → localDay instant = session.day

namespace ExchangeCalendar

/-- `is_session` with the lookups that follow it. -/
def session? (calendar : ExchangeCalendar) (day : ℤ) : Option Session :=
  calendar.sessions.find? fun session => decide (session.day = day)

/-- `sessions_in_range`. -/
def sessionsInRange (calendar : ExchangeCalendar) (first last : ℤ) : List Session :=
  calendar.sessions.filter fun session => decide (first ≤ session.day ∧ session.day ≤ last)

end ExchangeCalendar

/-- `CALENDAR_BY_MARKET`. SOURCE: market_schedule.py:11-16 -/
def calendarByMarket : List (String × String) :=
  [("USStock", "XNYS"), ("HKStock", "XHKG"), ("AStock", "XSHG"), ("CNStock", "XSHG")]

/-- `_calendar`, which finds a calendar by its code.
SOURCE: market_schedule.py:344-352 -/
def marketCalendar (calendars : String → ExchangeCalendar) (market : String) :
    Except ScheduleError ExchangeCalendar :=
  match calendarByMarket.lookup (strip market) with
  | some code => .ok (calendars code)
  | none => .error (.marketSchedule "portfolio.marketCalendarUnsupported")

/-- `equity_bar_session_date`. Hong Kong is eight hours ahead of UTC.
SOURCE: market_schedule.py:33-36 -/
def equityBarSessionDate (value : Time) (market : String) : ℤ :=
  dayOf (if market = "HKStock" then value + seconds 28800 else value)

/-- `_equity_week_sessions`.
SOURCE: market_schedule.py:48-51 -/
def equityWeekSessions (calendar : ExchangeCalendar) (day : ℤ) : List Session :=
  calendar.sessionsInRange (day - weekday day) (day - weekday day + 6)

/-! ## Closed bars -/

/-- `latest_completed_session` of an exchange, as a day.
SOURCE: market_schedule.py:258-281 -/
def latestCompletedSession (calendars : String → ExchangeCalendar) (market : String)
    (now : Time) (dataDelayMinutes : ℤ) : Except ScheduleError ℤ := do
  let calendar ← marketCalendar calendars market
  let sessions := calendar.sessionsInRange (dayOf (now - 14 * dayLength)) (dayOf now)
  let delay := seconds (60 * max 0 dataDelayMinutes)
  let completed := sessions.filter fun session => decide (seconds session.closes + delay ≤ now)
  match completed.getLast? with
  | some session => return session.day
  | none => throw (.marketSchedule "portfolio.noCompletedMarketSession")

/-- The last instant of a daily label, a microsecond before the next; Hong Kong labels begin eight
hours earlier. -/
def dailyLabelEnd (market : String) (day : ℤ) : Time :=
  day * dayLength - (if market = "HKStock" then seconds 28800 else 0) + dayLength - 1000

/-- `equity_daily_bar_cutoff`.
SOURCE: market_schedule.py:39-45 -/
def equityDailyBarCutoff (calendars : String → ExchangeCalendar) (market : String)
    (now : Time) : Except ScheduleError Time := do
  let session ← latestCompletedSession calendars market now 15
  return dailyLabelEnd market session

/-- `equity_weekly_bar_cutoff`.
SOURCE: market_schedule.py:54-63 -/
def equityWeeklyBarCutoff (calendars : String → ExchangeCalendar) (market : String)
    (now : Time) : Except ScheduleError Time := do
  let session ← latestCompletedSession calendars market now 15
  let calendar ← marketCalendar calendars market
  match (equityWeekSessions calendar session).getLast? with
  | none => throw .indexError
  | some last =>
    if now < seconds last.closes + seconds 900 then
      match (equityWeekSessions calendar (session - 7)).getLast? with
      | none => throw .indexError
      | some last => return dailyLabelEnd market last.day
    else return dailyLabelEnd market last.day

/-- Does a bar overlap a segment? -/
def overlaps (barStart barEnd : ℤ) (segment : ℤ × ℤ) : Bool :=
  decide (barStart < segment.2 ∧ segment.1 < barEnd)

/-- When a bar closes: the latest end among the segments it overlaps, cut at its own. -/
def barClose (segments : List (ℤ × ℤ)) (barStart barEnd : ℤ) : Option ℤ :=
  ((segments.filter (overlaps barStart barEnd)).map fun segment => min barEnd segment.2).max?

/-- The body of the loop of `equity_intraday_bar_open`; `none` where it continues.
SOURCE: market_schedule.py:78-96 -/
def segmentBar (session : Session) (barSeconds : ℤ) (current : Time) (segment : ℤ × ℤ) :
    Except ScheduleError (Option Time) :=
  let start := session.opens
  let index : Option ℤ :=
    if seconds segment.2 ≤ current then some (max 0 ((segment.2 - start - 1) / barSeconds))
    else if seconds (start + barSeconds) ≤ current then
      some ((current - seconds start) / seconds barSeconds - 1)
    else none
  match index with
  | none => .ok none
  | some index =>
    let barStart := start + index * barSeconds
    let barEnd := barStart + barSeconds
    if barEnd ≤ segment.1 then .ok none
    else
      match barClose session.segments barStart barEnd with
      | none => .error (.valueError "max() arg is an empty sequence")
      | some closedAt =>
        if current < seconds closedAt then .ok none else .ok (some (seconds barStart))

/-- `equity_intraday_bar_open`.
SOURCE: market_schedule.py:66-97 -/
def equityIntradayBarOpen (calendars : String → ExchangeCalendar) (market : String)
    (barSeconds : ℤ) (current : Time) : Except ScheduleError Time := do
  let calendar ← marketCalendar calendars market
  let sessions := calendar.sessionsInRange (dayOf (current - 20 * dayLength)) (dayOf current)
  let found ← sessions.reverse.findSomeM? fun session =>
    session.segments.reverse.findSomeM? (segmentBar session barSeconds current)
  match found with
  | some bar => return bar
  | none => throw (.marketSchedule "portfolio.noCompletedMarketSession")

/-- A row of a provider; `time` is in seconds or milliseconds. -/
structure Kline where
  time : ℤ
  openPrice : ℚ
  high : ℚ
  low : ℚ
  closePrice : ℚ
  volume : Option ℚ
  deriving DecidableEq

/-- The stamp of a row of `filter_closed_equity_klines`.
SOURCE: market_schedule.py:108 -/
def Kline.stamp (row : Kline) : Time :=
  if 10000000000 < row.time then row.time * 1000000 else seconds row.time

/-- When a row closes; `none` where the filter drops it for want of a session.
SOURCE: market_schedule.py:109-129 -/
def rowClose (calendar : ExchangeCalendar) (market : String) (barSeconds : ℤ) (stamp : Time) :
    Option Time :=
  let day := equityBarSessionDate stamp market
  if 604800 ≤ barSeconds then
    (equityWeekSessions calendar day).getLast?.map fun session =>
      seconds session.closes + seconds 900
  else if 86400 ≤ barSeconds then
    (calendar.session? day).map fun session => seconds session.closes + seconds 900
  else
    match calendar.session? day with
    | none => none
    | some session =>
      let barEnd := stamp + seconds barSeconds
      let intersections := (session.segments.filter fun segment =>
        decide (stamp < seconds segment.2 ∧ seconds segment.1 < barEnd)).map fun segment =>
          min barEnd (seconds segment.2)
      intersections.max?

/-- `filter_closed_equity_klines`, from the bar length on.
SOURCE: market_schedule.py:104-132 -/
def filterClosedRows (calendar : ExchangeCalendar) (market : String) (barSeconds : ℤ)
    (current : Time) (rows : List Kline) : List Kline :=
  let accepted : Dict ℤ Kline := rows.foldl
    (fun accepted row =>
      match rowClose calendar market barSeconds row.stamp with
      | none => accepted
      | some closes => if closes ≤ current then accepted.set row.time row else accepted)
    Dict.empty
  (accepted.keys.toFinset.sort (· ≤ ·)).filterMap accepted.get?

/-- `filter_closed_equity_klines`.
SOURCE: market_schedule.py:100-132 -/
def filterClosedEquityKlines (calendars : String → ExchangeCalendar) (rows : List Kline)
    (timeframe market : String) (current : Time) : Except ScheduleError (List Kline) := do
  let barSeconds ← (timeframeSeconds timeframe).mapError .valueError
  let calendar ← marketCalendar calendars market
  return filterClosedRows calendar market barSeconds current rows

/-! ## Resampling -/

/-- `range(start, stop, step)` for a positive step, as a set. -/
def rangeSet (start stop step : ℤ) : Finset ℤ :=
  ((List.range ((stop - start + step - 1) / step).toNat).map fun index : ℕ =>
    start + index * step).toFinset

/-- Where a row goes: the key of its bucket, what is expected there and its own key; `none` where it
is passed over.
SOURCE: market_schedule.py:141-166 -/
def bucketOf (calendar : ExchangeCalendar) (market : String) (sourceSeconds targetSeconds : ℤ)
    (row : Kline) : Option (ℤ × Finset ℤ × ℤ) :=
  let day := equityBarSessionDate (seconds row.time) market
  match calendar.session? day with
  | none => none
  | some session =>
    if targetSeconds = 604800 ∧ sourceSeconds = 86400 then
      some (calendar.midnight (day - weekday day),
        ((equityWeekSessions calendar day).map Session.day).toFinset, day)
    else
      let stamp := row.time
      let sourceEnd := stamp + sourceSeconds
      if stamp < session.opens ∨ ¬ session.segments.any (overlaps stamp sourceEnd) then none
      else
        let offset := (stamp - session.opens) / targetSeconds * targetSeconds
        let key := session.opens + offset
        let finish := min (key + targetSeconds) session.closes
        some (key,
          (rangeSet key finish sourceSeconds).filter fun value =>
            session.segments.any (overlaps value (value + sourceSeconds)),
          stamp)

/-- `buckets` and `expected`. -/
structure Buckets where
  buckets : Dict ℤ (Dict ℤ Kline)
  expected : Dict ℤ (Finset ℤ)

/-- One row put into its bucket, a later one of the same stamp in place of an earlier.
SOURCE: market_schedule.py:140-166 -/
def Buckets.put (calendar : ExchangeCalendar) (market : String)
    (sourceSeconds targetSeconds : ℤ) (state : Buckets) (row : Kline) : Buckets :=
  match bucketOf calendar market sourceSeconds targetSeconds row with
  | none => state
  | some (key, expected, sourceKey) =>
    { buckets := state.buckets.set key
        (((state.buckets.get? key).getD Dict.empty).set sourceKey row)
      expected := state.expected.set key expected }

/-- A complete bucket as one row. `chunk[0]` of an empty chunk is an error.
SOURCE: market_schedule.py:170-177 -/
def mergeChunk (roundVolume : ℚ → ℚ) (key : ℤ) (chunk : List Kline) :
    Except ScheduleError Kline :=
  match chunk.head?, chunk.getLast?, (chunk.map Kline.high).max?, (chunk.map Kline.low).min? with
  | some first, some last, some high, some low => .ok {
      time := key
      openPrice := first.openPrice
      closePrice := last.closePrice
      high
      low
      volume := some (roundVolume (chunk.map fun row => row.volume.getD 0).sum) }
  | _, _, _, _ => .error .indexError

/-- The rows of the complete buckets, in the order of their keys.
SOURCE: market_schedule.py:167-178 -/
def Buckets.merged (roundVolume : ℚ → ℚ) (state : Buckets) :
    Except ScheduleError (List Kline) :=
  (state.buckets.keys.toFinset.sort (· ≤ ·)).foldlM
    (fun merged key => do
      let bucket := (state.buckets.get? key).getD Dict.empty
      let expected := (state.expected.get? key).getD ∅
      if ¬ expected ⊆ bucket.keys.toFinset then return merged
      else
        let row ← mergeChunk roundVolume key
          ((expected.sort (· ≤ ·)).filterMap bucket.get?)
        return merged ++ [row])
    []

/-- `resample_equity_klines`.
SOURCE: market_schedule.py:135-178 -/
def resampleEquityKlines (roundVolume : ℚ → ℚ) (calendars : String → ExchangeCalendar)
    (rows : List Kline) (market : String) (sourceSeconds targetSeconds : ℤ) :
    Except ScheduleError (List Kline) := do
  let calendar ← marketCalendar calendars market
  (rows.foldl (Buckets.put calendar market sourceSeconds targetSeconds)
    ⟨Dict.empty, Dict.empty⟩).merged roundVolume

/-! ## Boundaries -/

/-- `is_equity_bar_close`. Other markets never rest.
SOURCE: market_schedule.py:222-241 -/
def isEquityBarClose (calendars : String → ExchangeCalendar) (market : String)
    (boundary : Time) : Bool :=
  match calendarByMarket.lookup (strip market) with
  | none => true
  | some code =>
    match (calendars code).session? ((calendars code).localDay (boundary / seconds 1)) with
    | none => false
    | some session =>
      decide (seconds session.opens < boundary ∧ boundary ≤ seconds session.closes) &&
        match session.lunch with
        | none => true
        | some (breakStart, breakEnd) =>
          !decide (seconds breakStart < boundary ∧ boundary ≤ seconds breakEnd)

end QuantDinger.Model.Equity
