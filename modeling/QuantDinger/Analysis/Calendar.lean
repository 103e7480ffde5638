import Mathlib.Order.SuccPred.IntervalSucc
import QuantDinger.Model.Schedule

/-!
# The calendar

`dateOfDay` and `Date.toDay` are inverse, and the months of the calendar are consecutive: a day is
in the month of its date, which starts on its first day and has `monthLength` days.
-/

namespace QuantDinger.Analysis

open QuantDinger.Model

/-! ## Years counted from March -/

def yearStart (y : ℤ) : ℤ := 365 * y + y / 4 - y / 100 + y / 400

/-- A day of an era by century, leap cycle, year of the cycle and day of the year.

INTERNAL: the last day of a leap year ends a leap cycle, that of the last century ends the era. -/
theorem era_day_cases {doe : ℤ} (h0 : 0 ≤ doe) (h1 : doe < 146097) :
    ∃ c q s doy : ℤ, (0 ≤ c ∧ c ≤ 3) ∧ (0 ≤ q ∧ q ≤ 24) ∧ (0 ≤ s ∧ s ≤ 3) ∧
      (0 ≤ doy ∧ doy ≤ 365) ∧ (doy = 365 → s = 3 ∧ (q = 24 → c = 3)) ∧
      doe = 36524 * c + 1461 * q + 365 * s + doy := by
  obtain ⟨c, r, hc, hr, hdoe⟩ : ∃ c r : ℤ, (0 ≤ c ∧ c ≤ 3) ∧
      (0 ≤ r ∧ r ≤ 36524 ∧ (r = 36524 → c = 3)) ∧ doe = 36524 * c + r := by
    by_cases hlast : doe < 146096
    · exact ⟨doe / 36524, doe % 36524, by omega, by omega, by omega⟩
    · exact ⟨3, 36524, by omega, by omega, by omega⟩
  obtain ⟨q, t, hq, ht, hr'⟩ : ∃ q t : ℤ, (0 ≤ q ∧ q ≤ 24) ∧
      (0 ≤ t ∧ t ≤ 1460 ∧ (t = 1460 → q = 24 → c = 3)) ∧ r = 1461 * q + t :=
    ⟨r / 1461, r % 1461, by omega, by omega, by omega⟩
  by_cases hlast : t < 1460
  · exact ⟨c, q, t / 365, t % 365, hc, hq, by omega, by omega, by omega, by omega⟩
  · exact ⟨c, q, 3, 365, hc, hq, by omega, by omega, by omega, by omega⟩

section

variable {c q s doy doe : ℤ}

theorem year_formula (hc : 0 ≤ c ∧ c ≤ 3) (hq : 0 ≤ q ∧ q ≤ 24) (hs : 0 ≤ s ∧ s ≤ 3)
    (hdoy : 0 ≤ doy ∧ doy ≤ 365) (hleap : doy = 365 → s = 3 ∧ (q = 24 → c = 3))
    (hdoe : doe = 36524 * c + 1461 * q + 365 * s + doy) :
    (doe - doe / 1460 + doe / 36524 - doe / 146096) / 365 = 100 * c + 4 * q + s := by
  obtain ⟨e, hcycle, hday⟩ : ∃ e : ℤ, doe / 1460 = 25 * c + q + e ∧
      (0 ≤ doy - e ∧ doy - e < 365) := by
    refine ⟨(24 * c + q + 365 * s + doy) / 1460, by omega, ?_⟩
    by_cases hs3 : s = 3
    · omega
    · have hzero : (24 * c + q + 365 * s + doy) / 1460 = 0 := by omega
      omega
  have hera : doe / 36524 - doe / 146096 = c := by
    by_cases hlast : doe = 146096
    · rw [hlast]
      omega
    · have hrest : 1461 * q + 365 * s + doy < 36524 := by
        by_cases hq24 : q = 24
        · omega
        · omega
      have hcentury : doe / 36524 = c := by omega
      have hera : doe / 146096 = 0 := by omega
      rw [hcentury, hera, sub_zero]
  have hsum : doe - doe / 1460 + doe / 36524 - doe / 146096 =
      365 * (100 * c + 4 * q + s) + (doy - e) := by
    rw [add_sub_assoc, hera, hcycle, hdoe]
    ring
  rw [hsum]
  generalize doy - e = rest at hday
  omega

theorem yearStart_cycle (hc : 0 ≤ c ∧ c ≤ 3) (hq : 0 ≤ q ∧ q ≤ 24) (hs : 0 ≤ s ∧ s ≤ 3) :
    yearStart (100 * c + 4 * q + s) = 36524 * c + 1461 * q + 365 * s := by
  have hquarter : (100 * c + 4 * q + s) / 4 = 25 * c + q := by omega
  have hcentury : (100 * c + 4 * q + s) / 100 = c := by omega
  have hfirst : (100 * c + 4 * q + s) / 400 = 0 := by omega
  unfold yearStart
  rw [hquarter, hcentury, hfirst]
  ring

theorem lt_yearStart_cycle (hc : 0 ≤ c ∧ c ≤ 3) (hq : 0 ≤ q ∧ q ≤ 24) (hs : 0 ≤ s ∧ s ≤ 3)
    (hdoy : 0 ≤ doy ∧ doy ≤ 365) (hleap : doy = 365 → s = 3 ∧ (q = 24 → c = 3)) :
    36524 * c + 1461 * q + 365 * s + doy < yearStart (100 * c + 4 * q + s + 1) := by
  by_cases hs3 : s < 3
  · have hnext := yearStart_cycle (s := s + 1) hc hq (by omega)
    rw [← add_assoc] at hnext
    rw [hnext]
    omega
  · have hs3 : s = 3 := by omega
    subst hs3
    by_cases hq24 : q < 24
    · have hnext := yearStart_cycle (q := q + 1) (s := 0) hc (by omega) (by omega)
      rw [show 100 * c + 4 * q + 3 + 1 = 100 * c + 4 * (q + 1) + 0 by ring, hnext]
      omega
    · have hq24 : q = 24 := by omega
      subst hq24
      by_cases hc3 : c < 3
      · have hnext := yearStart_cycle (c := c + 1) (q := 0) (s := 0) (by omega) (by omega)
          (by omega)
        rw [show 100 * c + 4 * 24 + 3 + 1 = 100 * (c + 1) + 4 * 0 + 0 by ring, hnext]
        omega
      · have hc3 : c = 3 := by omega
        subst hc3
        have hera : yearStart (100 * 3 + 4 * 24 + 3 + 1) = 146097 := by decide
        rw [hera]
        omega

end

theorem year_of_era {doe : ℤ} (h0 : 0 ≤ doe) (h1 : doe < 146097) {yoe : ℤ}
    (hyoe : yoe = (doe - doe / 1460 + doe / 36524 - doe / 146096) / 365) :
    (0 ≤ yoe ∧ yoe < 400) ∧ yearStart yoe ≤ doe ∧ doe < yearStart (yoe + 1) := by
  obtain ⟨c, q, s, doy, hc, hq, hs, hdoy, hleap, hdoe⟩ := era_day_cases h0 h1
  rw [year_formula hc hq hs hdoy hleap hdoe] at hyoe
  subst hyoe
  refine ⟨by omega, ?_, ?_⟩
  · rw [yearStart_cycle hc hq hs]
    omega
  · rw [hdoe]
    exact lt_yearStart_cycle hc hq hs hdoy hleap

theorem yearStart_era (era yoe : ℤ) : yearStart (yoe + era * 400) = era * 146097 + yearStart yoe := by
  have hquarter : (yoe + era * 400) / 4 = yoe / 4 + era * 100 := by omega
  have hcentury : (yoe + era * 400) / 100 = yoe / 100 + era * 4 := by omega
  have hfirst : (yoe + era * 400) / 400 = yoe / 400 + era := by omega
  unfold yearStart
  omega

theorem yearStart_succ (y : ℤ) :
    yearStart y + 365 ≤ yearStart (y + 1) ∧ yearStart (y + 1) ≤ yearStart y + 366 := by
  obtain ⟨a, b, hb, rfl⟩ : ∃ a b : ℤ, (0 ≤ b ∧ b < 100) ∧ y = 100 * a + b :=
    ⟨y / 100, y % 100, by omega, by omega⟩
  have hquarter : (100 * a + b) / 4 = 25 * a + b / 4 := by omega
  have hquarter' : (100 * a + b + 1) / 4 = 25 * a + (b + 1) / 4 := by omega
  have hcentury : (100 * a + b) / 100 = a := by omega
  have hquarters : b / 4 ≤ (b + 1) / 4 ∧ (b + 1) / 4 ≤ b / 4 + 1 := by omega
  unfold yearStart
  by_cases hlast : b = 99
  · have hcentury' : (100 * a + b + 1) / 100 = a + 1 := by omega
    have hfirst : (100 * a + b) / 400 ≤ (100 * a + b + 1) / 400 ∧
        (100 * a + b + 1) / 400 ≤ (100 * a + b) / 400 + 1 := by omega
    rw [hquarter, hquarter', hcentury, hcentury', hlast]
    omega
  · have hcentury' : (100 * a + b + 1) / 100 = a := by omega
    have hfirst : (100 * a + b + 1) / 400 = (100 * a + b) / 400 := by omega
    rw [hquarter, hquarter', hcentury, hcentury', hfirst]
    omega

/-! ## Months -/

/-- The first day of a month; months are counted from January of the year 0. -/
def monthStart (k : ℤ) : ℤ := (⟨k / 12, k % 12 + 1, 1⟩ : Date).toDay

theorem toDay_eq {y m : ℤ} (hm : 1 ≤ m ∧ m ≤ 12) (day : ℤ) :
    (⟨y, m, day⟩ : Date).toDay = yearStart ((12 * y + m - 3) / 12) +
      (153 * ((12 * y + m - 3) % 12) + 2) / 5 + day - 719469 := by
  unfold Date.toDay yearStart
  dsimp only
  split_ifs with hearly hlate hlate
  · omega
  · have hyear : (12 * y + m - 3) / 12 = y - 1 := by omega
    have hmonth : (12 * y + m - 3) % 12 = m + 9 := by omega
    rw [hyear, hmonth]
    omega
  · have hyear : (12 * y + m - 3) / 12 = y := by omega
    have hmonth : (12 * y + m - 3) % 12 = m - 3 := by omega
    rw [hyear, hmonth]
    omega
  · omega

theorem toDay_of_index {k day : ℤ} :
    (⟨k / 12, k % 12 + 1, day⟩ : Date).toDay = monthStart k + (day - 1) := by
  unfold monthStart
  rw [toDay_eq (by omega), toDay_eq (by omega)]
  ring

theorem monthStart_eq (k : ℤ) :
    monthStart k = yearStart ((k - 2) / 12) + (153 * ((k - 2) % 12) + 2) / 5 - 719468 := by
  have hindex : 12 * (k / 12) + (k % 12 + 1) - 3 = k - 2 := by omega
  unfold monthStart
  rw [toDay_eq (by omega), hindex]
  ring

theorem monthStart_succ (k : ℤ) : monthStart k + 28 ≤ monthStart (k + 1) := by
  rw [monthStart_eq, monthStart_eq]
  by_cases hlast : (k - 2) % 12 = 11
  · have hyear : (k + 1 - 2) / 12 = (k - 2) / 12 + 1 := by omega
    have hmonth : (k + 1 - 2) % 12 = 0 := by omega
    have hnext := yearStart_succ ((k - 2) / 12)
    rw [hyear, hmonth, hlast]
    omega
  · have hyear : (k + 1 - 2) / 12 = (k - 2) / 12 := by omega
    have hmonth : (k + 1 - 2) % 12 = (k - 2) % 12 + 1 := by omega
    rw [hyear, hmonth]
    omega

theorem monthLength_eq (k : ℤ) :
    monthLength (k / 12) (k % 12 + 1) = monthStart (k + 1) - monthStart k := by
  unfold monthLength
  dsimp only
  split_ifs with hlast
  · have hyear : (k + 1) / 12 = k / 12 + 1 := by omega
    have hmonth : (k + 1) % 12 + 1 = 1 := by omega
    unfold monthStart
    rw [hyear, hmonth]
  · have hyear : (k + 1) / 12 = k / 12 := by omega
    have hmonth : (k + 1) % 12 + 1 = k % 12 + 1 + 1 := by omega
    unfold monthStart
    rw [hyear, hmonth]

/-! ## Dates -/

theorem dateOfDay_spec (d : ℤ) : ∃ k, (dateOfDay d).year = k / 12 ∧
    (dateOfDay d).month = k % 12 + 1 ∧ monthStart k ≤ d ∧ d < monthStart (k + 1) ∧
    (dateOfDay d).day = d - monthStart k + 1 := by
  obtain ⟨era, doe, hera, hdoe, hz⟩ : ∃ era doe : ℤ, (d + 719468) / 146097 = era ∧
      (d + 719468) % 146097 = doe ∧ (0 ≤ doe ∧ doe < 146097) ∧
      d = era * 146097 + doe - 719468 :=
    ⟨_, _, rfl, rfl, by omega, by omega⟩
  obtain ⟨hrange, hd⟩ := hz
  obtain ⟨yoe, hyoe⟩ : ∃ yoe, (doe - doe / 1460 + doe / 36524 - doe / 146096) / 365 = yoe :=
    ⟨_, rfl⟩
  obtain ⟨⟨hyoe0, hyoe1⟩, hbefore, hafter⟩ := year_of_era hrange.1 hrange.2 hyoe.symm
  have hyear := (yearStart_succ yoe).2
  obtain ⟨doy, hdoy⟩ : ∃ doy, doe - (365 * yoe + yoe / 4 - yoe / 100) = doy := ⟨_, rfl⟩
  have hstart : yearStart yoe = doe - doy := by
    unfold yearStart
    omega
  obtain ⟨mp, hmp⟩ : ∃ mp, (5 * doy + 2) / 153 = mp := ⟨_, rfl⟩
  have hmonth : 0 ≤ mp ∧ mp ≤ 11 := by omega
  have hdate : dateOfDay d =
      { year := yoe + era * 400 + (if (if mp < 10 then mp + 3 else mp - 9) ≤ 2 then 1 else 0)
        month := if mp < 10 then mp + 3 else mp - 9
        day := doy - (153 * mp + 2) / 5 + 1 } := by
    unfold dateOfDay
    dsimp only
    rw [hera, hdoe, hyoe, hdoy, hmp]
  have hindex : (12 * (yoe + era * 400) + mp + 2 - 2) / 12 = yoe + era * 400 ∧
      (12 * (yoe + era * 400) + mp + 2 - 2) % 12 = mp := by omega
  have hfirst : monthStart (12 * (yoe + era * 400) + mp + 2) = d - doy + (153 * mp + 2) / 5 := by
    rw [monthStart_eq, hindex.1, hindex.2, yearStart_era, hstart]
    omega
  refine ⟨12 * (yoe + era * 400) + mp + 2, ?_, ?_, ?_, ?_, ?_⟩
  · rw [hdate]
    dsimp only
    split_ifs with hspring hearly hearly <;> omega
  · rw [hdate]
    dsimp only
    split_ifs with hspring <;> omega
  · rw [hfirst]
    omega
  · by_cases hfebruary : mp = 11
    · have hnext : (12 * (yoe + era * 400) + mp + 2 + 1 - 2) / 12 = yoe + 1 + era * 400 ∧
          (12 * (yoe + era * 400) + mp + 2 + 1 - 2) % 12 = 0 := by omega
      rw [monthStart_eq, hnext.1, hnext.2, yearStart_era]
      omega
    · have hnext : (12 * (yoe + era * 400) + mp + 2 + 1 - 2) / 12 = yoe + era * 400 ∧
          (12 * (yoe + era * 400) + mp + 2 + 1 - 2) % 12 = mp + 1 := by omega
      rw [monthStart_eq, hnext.1, hnext.2, yearStart_era, hstart]
      omega
  · rw [hdate, hfirst]
    dsimp only
    omega

theorem dateOfDay_of_month {d k : ℤ} (hstart : monthStart k ≤ d) (hend : d < monthStart (k + 1)) :
    dateOfDay d = ⟨k / 12, k % 12 + 1, d - monthStart k + 1⟩ := by
  obtain ⟨j, hyear, hmonth, hj, hjnext, hday⟩ := dateOfDay_spec d
  have hmonths : StrictMono monthStart :=
    strictMono_int_of_lt_succ fun k => by linarith [monthStart_succ k]
  have hjk : j < k + 1 := hmonths.lt_iff_lt.1 (lt_of_le_of_lt hj hend)
  have hkj : k < j + 1 := hmonths.lt_iff_lt.1 (lt_of_le_of_lt hstart hjnext)
  have hsame : j = k := by omega
  subst hsame
  cases hdate : dateOfDay d with
  | mk year month day =>
    rw [hdate] at hyear hmonth hday
    dsimp only at hyear hmonth hday
    rw [hyear, hmonth, hday]

theorem exists_month (d : ℤ) : ∃ k, monthStart k ≤ d ∧ d < monthStart (k + 1) := by
  obtain ⟨k, _, _, hstart, hend, _⟩ := dateOfDay_spec d
  exact ⟨k, hstart, hend⟩

end QuantDinger.Analysis
