import QuantDinger.Model.Text

/-!
# Calendar dates and schedules

`_schedule_due` and the little of `pd.Timestamp` it needs: the day an instant falls on,
its weekday, its date in the proleptic Gregorian calendar, and the text of
`isoformat`. Stamps are zone-less.
-/

namespace QuantDinger.Model

/-- Nanoseconds of a day. -/
def dayLength : Time := seconds 86400

/-- The day an instant falls on, counted from 1970-01-01. -/
def dayOf (t : Time) : ℤ := t / dayLength

/-- `weekday()` of a day count: Monday is 0. -/
def weekday (day : ℤ) : ℤ := (day + 3) % 7

/-- A calendar date. -/
structure Date where
  year : ℤ
  month : ℤ
  day : ℤ
  deriving DecidableEq, Repr

/-- The date of a day count. Years are counted from March, in eras of 400 years. -/
def dateOfDay (days : ℤ) : Date :=
  let z := days + 719468
  let era := z / 146097
  let doe := z % 146097
  let yoe := (doe - doe / 1460 + doe / 36524 - doe / 146096) / 365
  let doy := doe - (365 * yoe + yoe / 4 - yoe / 100)
  let mp := (5 * doy + 2) / 153
  let month := if mp < 10 then mp + 3 else mp - 9
  { year := yoe + era * 400 + (if month ≤ 2 then 1 else 0)
    month := month
    day := doy - (153 * mp + 2) / 5 + 1 }

/-- The day count of a date. -/
def Date.toDay (date : Date) : ℤ :=
  let y := if date.month ≤ 2 then date.year - 1 else date.year
  let era := y / 400
  let yoe := y % 400
  let doy := (153 * (if 2 < date.month then date.month - 3 else date.month + 9) + 2) / 5 +
    date.day - 1
  era * 146097 + (yoe * 365 + yoe / 4 - yoe / 100 + doy) - 719468

/-- `calendar.monthrange(year, month)[1]`. -/
def monthLength (year month : ℤ) : ℤ :=
  let next : Date := if month = 12 then ⟨year + 1, 1, 1⟩ else ⟨year, month + 1, 1⟩
  next.toDay - (⟨year, month, 1⟩ : Date).toDay

/-- A number in decimal with at least `width` digits. -/
def padded (width : ℕ) (n : ℤ) : String :=
  let digits := toString n.toNat
  String.ofList (List.replicate (width - digits.length) '0') ++ digits

/-- `t.isoformat()` of a zone-less stamp. -/
def isoformat (t : Time) : String :=
  let date := dateOfDay (dayOf t)
  let nanos := t % dayLength
  let second := nanos / 1000000000
  let fraction := nanos % 1000000000
  padded 4 date.year ++ "-" ++ padded 2 date.month ++ "-" ++ padded 2 date.day ++ "T" ++
    padded 2 (second / 3600) ++ ":" ++ padded 2 (second / 60 % 60) ++ ":" ++
    padded 2 (second % 60) ++
    (if fraction = 0 then ""
      else if fraction % 1000 = 0 then "." ++ padded 6 (fraction / 1000)
      else "." ++ padded 9 fraction)

/-! ## Schedules -/

/-- The schedule frequencies `_schedule_due` knows, and the rest. -/
inductive ScheduleFrequency
  | daily
  | weekly
  | monthly
  | unsupported
  deriving DecidableEq, Repr

/-- `ScheduleSpec`.
SOURCE: models.py:67-72 -/
structure ScheduleSpec where
  frequency : ScheduleFrequency
  callback : String
  time : String := ""
  weekday : Option ℤ := none
  monthday : Option ℤ := none

/-- `_is_intraday_frequency`.
SOURCE: runtime.py:2916-2918 -/
def isIntradayFrequency (frequency : String) : Bool :=
  let normalized := lower (strip (if frequency = "" then "1d" else frequency))
  endsWith normalized "m" || endsWith normalized "h"

/-- `_parse_schedule_time`.
SOURCE: runtime.py:2929-2934 -/
def parseScheduleTime (value : String) : Time :=
  let text := if value = "" then "00:00" else value
  if ':' ∈ text.toList then
    match parseInt (beforeFirst ':' text), parseInt (afterFirst ':' text) with
    | some hours, some minutes => seconds (hours * 3600 + minutes * 60)
    | _, _ => 0
  else 0

/-- `int(value or 1)`. -/
def orOne (value : Option ℤ) : ℤ :=
  match value with
  | some n => if n = 0 then 1 else n
  | none => 1

namespace ScheduleSpec

/-- `occurrence(anchor)`, for the day of the anchor.
SOURCE: runtime.py:2031-2051 -/
def occurrence (schedule : ScheduleSpec) (barFrequency : String) (anchorDay : ℤ) : Time :=
  let day : ℤ := match schedule.frequency with
    | .weekly => anchorDay + (max 1 (min 7 (orOne schedule.weekday)) - 1) - Model.weekday anchorDay
    | .monthly =>
      let date := dateOfDay anchorDay
      (⟨date.year, date.month,
        min (max 1 (orOne schedule.monthday)) (monthLength date.year date.month)⟩ : Date).toDay
    | _ => anchorDay
  day * dayLength +
    (if isIntradayFrequency barFrequency ∧ schedule.time ≠ "" then parseScheduleTime schedule.time
      else 0)

/-- The day whose occurrence a bar before its own occurrence catches up.
SOURCE: runtime.py:2056-2062 -/
def previousAnchor (schedule : ScheduleSpec) (day : ℤ) : ℤ :=
  match schedule.frequency with
  | .weekly => day - 7
  | _ => day - (dateOfDay day).day

/-- `_schedule_due`.
SOURCE: runtime.py:2018-2068 -/
def due (schedule : ScheduleSpec) (current : Time) (previous : Option Time)
    (barFrequency : String) : Bool :=
  if schedule.frequency = .unsupported then false
  else
    let scheduledAt := schedule.occurrence barFrequency (dayOf current)
    if current < scheduledAt then
      match previous with
      | none => false
      | some previous =>
        if schedule.frequency = .daily then false
        else
          let earlier := schedule.occurrence barFrequency
            (schedule.previousAnchor (dayOf current))
          previous < earlier && earlier ≤ current
    else match previous with
      | none => true
      | some previous =>
        if schedule.frequency = .daily ∧ isIntradayFrequency barFrequency = false then
          dayOf current ≠ dayOf previous
        else previous < scheduledAt && scheduledAt ≤ current

end ScheduleSpec

end QuantDinger.Model
