import QuantDinger.Analysis.Calendar
import QuantDinger.Library.Recurrence

/-!
# Weekly and monthly schedules

An occurrence of a weekly schedule is on its day of any week, one of a monthly schedule on its day
of any month, or the last one of a shorter month. A bar is due exactly when an occurrence lies
after the bar before and not after the bar itself.
-/

namespace QuantDinger.Analysis

open QuantDinger.Library QuantDinger.Model

/-! ## Occurrences -/

/-- The time of the day at which a schedule occurs. -/
def timeOfDay (schedule : ScheduleSpec) (barFrequency : String) : Time :=
  if isIntradayFrequency barFrequency ∧ schedule.time ≠ "" then parseScheduleTime schedule.time
  else 0

/-- The weekday of a weekly schedule, Monday is 0. -/
def targetWeekday (schedule : ScheduleSpec) : ℤ := max 1 (min 7 (orOne schedule.weekday)) - 1

/-- The day of a monthly schedule in a month of `length` days. -/
def targetMonthday (schedule : ScheduleSpec) (length : ℤ) : ℤ :=
  min (max 1 (orOne schedule.monthday)) length

def OccursOn (schedule : ScheduleSpec) (day : ℤ) : Prop :=
  match schedule.frequency with
  | .weekly => weekday day = targetWeekday schedule
  | .monthly => (dateOfDay day).day =
      targetMonthday schedule (monthLength (dateOfDay day).year (dateOfDay day).month)
  | _ => False

def Occurrence (schedule : ScheduleSpec) (barFrequency : String) (o : Time) : Prop :=
  ∃ day, OccursOn schedule day ∧ o = day * dayLength + timeOfDay schedule barFrequency

/-- Over the bars `t 0 < t 1 < ... < t n`, a bar after the first is due exactly when an occurrence
lies after the bar before and not after itself, and each occurrence followed by a bar belongs to
one bar, which is due. -/
structure FiresOnce (schedule : ScheduleSpec) (barFrequency : String) (t : ℕ → Time) (n : ℕ) :
    Prop where
  due_iff : ∀ i < n, schedule.due (t (i + 1)) (some (t i)) barFrequency = true ↔
    ∃ o, Occurrence schedule barFrequency o ∧ t i < o ∧ o ≤ t (i + 1)
  fired_once : ∀ o, Occurrence schedule barFrequency o → t 0 < o → o ≤ t n →
    ∃! i, i < n ∧ (t i < o ∧ o ≤ t (i + 1)) ∧
      schedule.due (t (i + 1)) (some (t i)) barFrequency = true

/-! ## Days -/

theorem dayLength_pos : 0 < dayLength := by decide

theorem days_of_dayOf {t : Time} (first last : ℤ) (hfirst : first ≤ dayOf t)
    (hlast : dayOf t < last) : first * dayLength ≤ t ∧ t < last * dayLength := by
  unfold dayOf at hfirst hlast
  exact ⟨(Int.le_ediv_iff_mul_le dayLength_pos).1 hfirst,
    (Int.ediv_lt_iff_lt_mul dayLength_pos).1 hlast⟩

theorem days_of_time {time day : ℤ} (first last : ℤ) (htime : 0 ≤ time ∧ time < dayLength)
    (hfirst : first ≤ day) (hlast : day < last) :
    first * dayLength ≤ day * dayLength + time ∧ day * dayLength + time < last * dayLength := by
  have hnext : day + 1 ≤ last := hlast
  have hstart := mul_le_mul_of_nonneg_right hfirst (le_of_lt dayLength_pos)
  have hend := mul_le_mul_of_nonneg_right hnext (le_of_lt dayLength_pos)
  rw [add_mul, one_mul] at hend
  omega

/-! ## Due bars -/

section

variable {schedule : ScheduleSpec} {barFrequency : String} {start occur : ℤ → ℤ}
  {current previous : Time} {k : ℤ}

theorem due_iff_of_recurrence (hrecur : Recurrence start occur)
    (hfrequency : schedule.frequency = .weekly ∨ schedule.frequency = .monthly)
    (hstart : start k ≤ current) (hend : current < start (k + 1))
    (hthis : schedule.occurrence barFrequency (dayOf current) = occur k)
    (hprevious : schedule.occurrence barFrequency (schedule.previousAnchor (dayOf current)) =
      occur (k - 1)) :
    schedule.due current (some previous) barFrequency = true ↔
      ∃ j, previous < occur j ∧ occur j ≤ current := by
  have hreached := hrecur.lastUpTo_le hstart
  have hsupported : schedule.frequency ≠ .unsupported := by
    rcases hfrequency with h | h <;> rw [h] <;> decide
  have hperiodic : schedule.frequency ≠ .daily := by
    rcases hfrequency with h | h <;> rw [h] <;> decide
  rw [hrecur.exists_between_iff hstart hend]
  unfold ScheduleSpec.due
  rw [if_neg hsupported]
  dsimp only
  rw [hthis, hprevious]
  unfold lastUpTo at hreached ⊢
  by_cases hlater : current < occur k
  · rw [if_pos hlater] at hreached ⊢
    rw [if_pos hlater, if_neg hperiodic, Bool.and_eq_true, decide_eq_true_eq, decide_eq_true_eq]
    exact and_iff_left hreached
  · rw [if_neg hlater] at hreached ⊢
    rw [if_neg hlater, if_neg fun hboth => hperiodic hboth.1, Bool.and_eq_true,
      decide_eq_true_eq, decide_eq_true_eq]
    exact and_iff_left hreached

/-! ## Weeks -/

/-- The occurrence in a week; weeks are counted from the one of 1970-01-01. -/
def weekOccurrence (schedule : ScheduleSpec) (barFrequency : String) (w : ℤ) : ℤ :=
  (7 * w - 3 + targetWeekday schedule) * dayLength + timeOfDay schedule barFrequency

theorem targetWeekday_range (schedule : ScheduleSpec) :
    0 ≤ targetWeekday schedule ∧ targetWeekday schedule ≤ 6 := by
  unfold targetWeekday
  omega

theorem week_recurrence (htime : 0 ≤ timeOfDay schedule barFrequency ∧
    timeOfDay schedule barFrequency < dayLength) :
    Recurrence (fun w => (7 * w - 3) * dayLength) (weekOccurrence schedule barFrequency) := by
  have hrange := targetWeekday_range schedule
  constructor
  · intro w
    exact (days_of_time (7 * w - 3) (7 * (w + 1) - 3) htime (by omega) (by omega)).1
  · intro w
    exact (days_of_time (7 * w - 3) (7 * (w + 1) - 3) htime (by omega) (by omega)).2

theorem week_occurrence_iff (hfrequency : schedule.frequency = .weekly) (o : Time) :
    Occurrence schedule barFrequency o ↔ ∃ w, o = weekOccurrence schedule barFrequency w := by
  have hrange := targetWeekday_range schedule
  unfold Occurrence OccursOn weekOccurrence weekday
  rw [hfrequency]
  constructor
  · rintro ⟨day, hday, rfl⟩
    dsimp only at hday
    refine ⟨(day + 3) / 7, ?_⟩
    rw [← hday, show 7 * ((day + 3) / 7) - 3 + (day + 3) % 7 = day by omega]
  · rintro ⟨w, rfl⟩
    exact ⟨7 * w - 3 + targetWeekday schedule, by dsimp only; omega, rfl⟩

theorem week_due_iff (hfrequency : schedule.frequency = .weekly)
    (htime : 0 ≤ timeOfDay schedule barFrequency ∧
      timeOfDay schedule barFrequency < dayLength) :
    schedule.due current (some previous) barFrequency = true ↔
      ∃ o, Occurrence schedule barFrequency o ∧ previous < o ∧ o ≤ current := by
  have hweek : ∀ day, schedule.occurrence barFrequency day =
      weekOccurrence schedule barFrequency ((day + 3) / 7) := by
    intro day
    unfold ScheduleSpec.occurrence weekOccurrence targetWeekday timeOfDay weekday
    rw [hfrequency]
    dsimp only
    rw [show day + (max 1 (min 7 (orOne schedule.weekday)) - 1) - (day + 3) % 7 =
      7 * ((day + 3) / 7) - 3 + (max 1 (min 7 (orOne schedule.weekday)) - 1) by omega]
  have hanchor : schedule.previousAnchor (dayOf current) = dayOf current - 7 := by
    unfold ScheduleSpec.previousAnchor
    rw [hfrequency]
  have hdays := days_of_dayOf (t := current) (7 * ((dayOf current + 3) / 7) - 3)
    (7 * ((dayOf current + 3) / 7 + 1) - 3) (by omega) (by omega)
  rw [due_iff_of_recurrence (week_recurrence htime) (Or.inl hfrequency) hdays.1 hdays.2
    (hweek _)]
  · simp only [week_occurrence_iff hfrequency]
    constructor
    · rintro ⟨j, hj⟩
      exact ⟨_, ⟨j, rfl⟩, hj⟩
    · rintro ⟨_, ⟨j, rfl⟩, hj⟩
      exact ⟨j, hj⟩
  · rw [hanchor, hweek, show (dayOf current - 7 + 3) / 7 = (dayOf current + 3) / 7 - 1 by omega]

/-! ## Months -/

/-- The occurrence in a month; months are counted from January of the year 0. -/
def monthOccurrence (schedule : ScheduleSpec) (barFrequency : String) (k : ℤ) : ℤ :=
  (monthStart k + (targetMonthday schedule (monthStart (k + 1) - monthStart k) - 1)) * dayLength +
    timeOfDay schedule barFrequency

theorem targetMonthday_range (schedule : ScheduleSpec) (k : ℤ) :
    1 ≤ targetMonthday schedule (monthStart (k + 1) - monthStart k) ∧
      targetMonthday schedule (monthStart (k + 1) - monthStart k) ≤
        monthStart (k + 1) - monthStart k := by
  have hlength := monthStart_succ k
  unfold targetMonthday
  omega

theorem month_recurrence (htime : 0 ≤ timeOfDay schedule barFrequency ∧
    timeOfDay schedule barFrequency < dayLength) :
    Recurrence (fun k => monthStart k * dayLength) (monthOccurrence schedule barFrequency) := by
  constructor
  · intro k
    have hrange := targetMonthday_range schedule k
    exact (days_of_time (monthStart k) (monthStart (k + 1)) htime (by omega) (by omega)).1
  · intro k
    have hrange := targetMonthday_range schedule k
    exact (days_of_time (monthStart k) (monthStart (k + 1)) htime (by omega) (by omega)).2

theorem month_occurrence_iff (hfrequency : schedule.frequency = .monthly) (o : Time) :
    Occurrence schedule barFrequency o ↔ ∃ k, o = monthOccurrence schedule barFrequency k := by
  unfold Occurrence OccursOn monthOccurrence
  rw [hfrequency]
  constructor
  · rintro ⟨day, hday, rfl⟩
    obtain ⟨k, hstart, hend⟩ := exists_month day
    refine ⟨k, ?_⟩
    rw [dateOfDay_of_month hstart hend] at hday
    dsimp only at hday
    rw [monthLength_eq] at hday
    rw [← hday]
    ring
  · rintro ⟨k, rfl⟩
    have hrange := targetMonthday_range schedule k
    refine ⟨_, ?_, rfl⟩
    rw [dateOfDay_of_month (k := k) (by omega) (by omega)]
    dsimp only
    rw [monthLength_eq]
    ring

theorem month_due_iff (hfrequency : schedule.frequency = .monthly)
    (htime : 0 ≤ timeOfDay schedule barFrequency ∧
      timeOfDay schedule barFrequency < dayLength) :
    schedule.due current (some previous) barFrequency = true ↔
      ∃ o, Occurrence schedule barFrequency o ∧ previous < o ∧ o ≤ current := by
  have hmonth : ∀ day k, monthStart k ≤ day → day < monthStart (k + 1) →
      schedule.occurrence barFrequency day = monthOccurrence schedule barFrequency k := by
    intro day k hstart hend
    unfold ScheduleSpec.occurrence monthOccurrence targetMonthday timeOfDay
    rw [hfrequency]
    dsimp only
    rw [dateOfDay_of_month hstart hend]
    dsimp only
    rw [monthLength_eq, toDay_of_index]
  obtain ⟨k, hstart, hend⟩ := exists_month (dayOf current)
  have hanchor : schedule.previousAnchor (dayOf current) = monthStart k - 1 := by
    unfold ScheduleSpec.previousAnchor
    rw [hfrequency]
    dsimp only
    rw [dateOfDay_of_month hstart hend]
    ring
  have hshort := monthStart_succ (k - 1)
  rw [sub_add_cancel] at hshort
  have hdays := days_of_dayOf _ _ hstart hend
  rw [due_iff_of_recurrence (month_recurrence htime) (Or.inr hfrequency) hdays.1 hdays.2
    (hmonth _ k hstart hend)]
  · simp only [month_occurrence_iff hfrequency]
    constructor
    · rintro ⟨j, hj⟩
      exact ⟨_, ⟨j, rfl⟩, hj⟩
    · rintro ⟨_, ⟨j, rfl⟩, hj⟩
      exact ⟨j, hj⟩
  · rw [hanchor]
    exact hmonth _ (k - 1) (by omega) (by rw [sub_add_cancel]; omega)

end

/-! ## Runs of bars -/

/-- A weekly or monthly schedule at a time inside the day fires once for every occurrence. -/
theorem schedule_fires_once (schedule : ScheduleSpec) (barFrequency : String) (t : ℕ → Time)
    (n : ℕ) (hfrequency : schedule.frequency = .weekly ∨ schedule.frequency = .monthly)
    (htime : 0 ≤ parseScheduleTime schedule.time ∧ parseScheduleTime schedule.time < dayLength)
    (ht : ∀ i < n, t i < t (i + 1)) : FiresOnce schedule barFrequency t n := by
  have hinside : 0 ≤ timeOfDay schedule barFrequency ∧
      timeOfDay schedule barFrequency < dayLength := by
    unfold timeOfDay
    split_ifs
    · exact htime
    · exact ⟨le_refl 0, dayLength_pos⟩
  have hdue : ∀ i, schedule.due (t (i + 1)) (some (t i)) barFrequency = true ↔
      ∃ o, Occurrence schedule barFrequency o ∧ t i < o ∧ o ≤ t (i + 1) := by
    intro i
    rcases hfrequency with hweekly | hmonthly
    · exact week_due_iff hweekly hinside
    · exact month_due_iff hmonthly hinside
  refine ⟨fun i _ => hdue i, ?_⟩
  intro o ho hfirst hlast
  obtain ⟨i, ⟨hin, hgap⟩, honly⟩ := existsUnique_gap ht hfirst hlast
  refine ⟨i, ⟨hin, hgap, (hdue i).2 ⟨o, ho, hgap⟩⟩, ?_⟩
  rintro j ⟨hjn, hjgap, _⟩
  exact honly j ⟨hjn, hjgap⟩

/-- Bars at noon, on the last day of each month at half past nine. -/
theorem month_end_fires_once :
    FiresOnce ⟨.monthly, "rebalance", "09:30", none, some 31⟩ "1h"
      (fun i => i * dayLength + seconds 43200) 400 := by
  refine schedule_fires_once _ _ _ _ (Or.inr rfl) (by decide +kernel) ?_
  intro i _
  have hpos := dayLength_pos
  push_cast
  linarith

end QuantDinger.Analysis
