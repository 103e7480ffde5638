import QuantDinger.Analysis.Calendar
import QuantDinger.Model.RebalanceSchedule

/-!
# Weeks, months and years of sessions

Days that are not far apart are in one ISO week exactly when `isoWeek` gives them one number, so
what `_is_period_end` compares beside it, the calendar year, only parts days of one week.
-/

namespace QuantDinger.Analysis

open QuantDinger.Model QuantDinger.Model.Equity

/-! ## Periods -/

/-- Two days of one ISO week, which begins on a Monday. -/
def SameWeek (day other : ℤ) : Prop := day - weekday day = other - weekday other

def SameMonth (day other : ℤ) : Prop :=
  (dateOfDay day).month = (dateOfDay other).month ∧ (dateOfDay day).year = (dateOfDay other).year

instance (day other : ℤ) : Decidable (SameWeek day other) :=
  inferInstanceAs (Decidable (_ = _))

theorem sameWeek_of_between {first between last : ℤ} (h : SameWeek first last)
    (hfirst : first ≤ between) (hlast : between ≤ last) : SameWeek first between := by
  unfold SameWeek weekday at *
  omega

theorem not_sameWeek_of_add_le {day other : ℤ} (h : day + 7 ≤ other) : ¬ SameWeek day other := by
  unfold SameWeek weekday
  omega

theorem monthStart_strictMono : StrictMono monthStart :=
  strictMono_int_of_lt_succ fun k => by linarith [monthStart_succ k]

theorem monthStart_succ_le (k : ℤ) : monthStart (k + 1) ≤ monthStart k + 31 := by
  rw [monthStart_eq, monthStart_eq]
  by_cases hlast : (k - 2) % 12 = 11
  · have hyear : (k + 1 - 2) / 12 = (k - 2) / 12 + 1 := by omega
    have hmonth : (k + 1 - 2) % 12 = 0 := by omega
    have hnext := yearStart_succ ((k - 2) / 12)
    rw [hyear, hmonth, hlast]
    omega
  · have hyear : (k + 1 - 2) / 12 = (k - 2) / 12 := by omega
    have hmonth : (k + 1 - 2) % 12 = (k - 2) % 12 + 1 := by omega
    rw [hyear, hmonth]
    omega

theorem sameMonth_iff {day other k : ℤ} (hstart : monthStart k ≤ day)
    (hend : day < monthStart (k + 1)) :
    SameMonth day other ↔ monthStart k ≤ other ∧ other < monthStart (k + 1) := by
  obtain ⟨j, hjstart, hjend⟩ := exists_month other
  unfold SameMonth
  rw [dateOfDay_of_month hstart hend, dateOfDay_of_month hjstart hjend]
  dsimp only
  constructor
  · rintro ⟨hmonth, hyear⟩
    obtain rfl : k = j := by omega
    exact ⟨hjstart, hjend⟩
  · rintro ⟨hother, hother'⟩
    have hjk := monthStart_strictMono.lt_iff_lt.1 (hjstart.trans_lt hother')
    have hkj := monthStart_strictMono.lt_iff_lt.1 (hother.trans_lt hjend)
    obtain rfl : k = j := by omega
    exact ⟨rfl, rfl⟩

theorem sameMonth_of_between {first between last : ℤ} (h : SameMonth first last)
    (hfirst : first ≤ between) (hlast : between ≤ last) : SameMonth first between := by
  obtain ⟨k, hstart, hend⟩ := exists_month first
  rw [sameMonth_iff hstart hend] at h ⊢
  exact ⟨hstart.trans hfirst, hlast.trans_lt h.2⟩

theorem not_sameMonth_of_add_le {day other : ℤ} (h : day + 31 ≤ other) :
    ¬ SameMonth day other := by
  obtain ⟨k, hstart, hend⟩ := exists_month day
  rw [sameMonth_iff hstart hend]
  rintro ⟨-, hother⟩
  have hlength := monthStart_succ_le k
  omega

/-! ## Years -/

theorem year_eq_iff {day y : ℤ} : (dateOfDay day).year = y ↔
    monthStart (12 * y) ≤ day ∧ day < monthStart (12 * (y + 1)) := by
  obtain ⟨k, hyear, -, hstart, hend, -⟩ := dateOfDay_spec day
  rw [hyear]
  constructor
  · rintro rfl
    have hfirst : monthStart (12 * (k / 12)) ≤ monthStart k :=
      monthStart_strictMono.monotone (by omega)
    have hlast : monthStart (k + 1) ≤ monthStart (12 * (k / 12 + 1)) :=
      monthStart_strictMono.monotone (by omega)
    exact ⟨hfirst.trans hstart, hend.trans_le hlast⟩
  · rintro ⟨hfirst, hlast⟩
    have hle := monthStart_strictMono.lt_iff_lt.1 (hfirst.trans_lt hend)
    have hlt := monthStart_strictMono.lt_iff_lt.1 (hstart.trans_lt hlast)
    omega

theorem add_le_next_year (y : ℤ) :
    monthStart (12 * y) + 365 ≤ monthStart (12 * (y + 1)) := by
  have hyear : (12 * y - 2) / 12 = y - 1 := by omega
  have hmonth : (12 * y - 2) % 12 = 10 := by omega
  have hyear' : (12 * (y + 1) - 2) / 12 = y - 1 + 1 := by omega
  have hmonth' : (12 * (y + 1) - 2) % 12 = 10 := by omega
  have hnext := (yearStart_succ (y - 1)).1
  rw [monthStart_eq, monthStart_eq, hyear, hmonth, hyear', hmonth']
  omega

/-! ## Numbers of weeks -/

theorem isoWeek_eq {day y : ℤ} (hy : (dateOfDay (day - weekday day + 3)).year = y) :
    isoWeek day = (day - weekday day + 3 - monthStart (12 * y)) / 7 + 1 := by
  have hfirst : (⟨y, 1, 1⟩ : Date).toDay = monthStart (12 * y) := by
    have hdiv : 12 * y / 12 = y := by omega
    have hmod : 12 * y % 12 + 1 = 1 := by omega
    unfold monthStart
    rw [hdiv, hmod]
  unfold isoWeek
  dsimp only
  rw [hy, hfirst]

theorem isoWeek_eq_iff {day other : ℤ} (hle : day ≤ other) (hnear : other ≤ day + 60) :
    isoWeek day = isoWeek other ↔ SameWeek day other := by
  constructor
  · intro hnumber
    by_contra hweek
    have hapart : day - weekday day + 7 ≤ other - weekday other := by
      unfold SameWeek weekday at *
      omega
    have hspan : other - weekday other ≤ day - weekday day + 66 := by
      unfold weekday
      omega
    obtain ⟨y, hy⟩ : ∃ y, (dateOfDay (day - weekday day + 3)).year = y := ⟨_, rfl⟩
    obtain ⟨y', hy'⟩ : ∃ y', (dateOfDay (other - weekday other + 3)).year = y' := ⟨_, rfl⟩
    rw [isoWeek_eq hy, isoWeek_eq hy'] at hnumber
    obtain ⟨hstart, hend⟩ := year_eq_iff.1 hy
    obtain ⟨hstart', hend'⟩ := year_eq_iff.1 hy'
    rcases lt_trichotomy y y' with hlt | rfl | hgt
    · -- the first number is near the end of a year, the second one at the beginning
      have hlength := add_le_next_year y
      have hyears : monthStart (12 * (y + 1)) ≤ monthStart (12 * y') :=
        monthStart_strictMono.monotone (by omega)
      omega
    · omega
    · have hyears : monthStart (12 * (y' + 1)) ≤ monthStart (12 * y) :=
        monthStart_strictMono.monotone (by omega)
      omega
  · intro hweek
    unfold SameWeek at hweek
    unfold isoWeek
    rw [hweek]

/-! ## Markets that never rest -/

theorem fits_moveByDays {fits : Time → Bool} {fuel : ℕ} {candidate : Time}
    (h : ∃ days : ℕ, days ≤ fuel ∧ fits (candidate + days * dayLength) = true) :
    fits (moveByDays fits fuel candidate) = true := by
  induction fuel generalizing candidate with
  | zero =>
    obtain ⟨days, hdays, hfits⟩ := h
    obtain rfl := Nat.le_zero.1 hdays
    rw [Nat.cast_zero, zero_mul, add_zero] at hfits
    exact hfits
  | succ fuel ih =>
    unfold moveByDays
    split_ifs with hnow
    · exact hnow
    · obtain ⟨days, hdays, hfits⟩ := h
      cases days with
      | zero =>
        rw [Nat.cast_zero, zero_mul, add_zero] at hfits
        exact absurd hfits hnow
      | succ days =>
        refine ih ⟨days, Nat.le_of_succ_le_succ hdays, ?_⟩
        rw [Nat.cast_succ, add_mul, one_mul, add_comm ((days : ℤ) * dayLength),
          ← add_assoc] at hfits
        exact hfits

theorem dayOf_add_days (t : Time) (days : ℤ) : dayOf (t + days * dayLength) = dayOf t + days := by
  unfold dayOf
  exact Int.add_mul_ediv_right _ _ (by decide)

/-- Where a market never rests, a weekly run is on a Monday and a monthly one on the first day of
a month. -/
theorem nextContinuousRun_fits (current : Time) (dataDelayMinutes : ℤ) :
    weekday (dayOf (nextContinuousRun "weekly" current dataDelayMinutes)) = 0 ∧
      (dateOfDay (dayOf (nextContinuousRun "monthly" current dataDelayMinutes))).day = 1 := by
  unfold nextContinuousRun
  dsimp only
  rw [if_pos rfl, if_neg (by decide), if_pos rfl]
  constructor
  · refine of_decide_eq_true (@fits_moveByDays (fun candidate =>
      decide (weekday (dayOf candidate) = 0)) _ _ ?_)
    obtain ⟨day, hday⟩ : ∃ day, dayOf ((dayOf current + 1) * dayLength +
      dataDelay dataDelayMinutes) = day := ⟨_, rfl⟩
    obtain ⟨days, hdays⟩ : ∃ days : ℕ, (days : ℤ) = 6 - (day + 2) % 7 :=
      ⟨(6 - (day + 2) % 7).toNat, Int.toNat_of_nonneg (by omega)⟩
    refine ⟨days, by omega, decide_eq_true ?_⟩
    rw [dayOf_add_days, hday, hdays]
    unfold weekday
    omega
  · refine of_decide_eq_true (@fits_moveByDays (fun candidate =>
      decide ((dateOfDay (dayOf candidate)).day = 1)) _ _ ?_)
    obtain ⟨day, hday⟩ : ∃ day, dayOf ((dayOf current + 1) * dayLength +
      dataDelay dataDelayMinutes) = day := ⟨_, rfl⟩
    obtain ⟨k, hstart, hend⟩ := exists_month day
    have hlength := monthStart_succ_le k
    -- the day itself where it is the first of its month, else the start of the next one
    by_cases hfirst : monthStart k = day
    · refine ⟨0, Nat.zero_le _, decide_eq_true ?_⟩
      rw [dayOf_add_days, hday, Nat.cast_zero, add_zero, dateOfDay_of_month hstart hend, hfirst]
      dsimp only
      omega
    · obtain ⟨days, hdays⟩ : ∃ days : ℕ, (days : ℤ) = monthStart (k + 1) - day :=
        ⟨(monthStart (k + 1) - day).toNat, Int.toNat_of_nonneg (by omega)⟩
      refine ⟨days, by omega, decide_eq_true ?_⟩
      have hnext : day + (days : ℤ) = monthStart (k + 1) := by omega
      rw [dayOf_add_days, hday, hnext,
        dateOfDay_of_month (le_refl _) (monthStart_strictMono (lt_add_one (k + 1)))]
      dsimp only
      omega

end QuantDinger.Analysis
