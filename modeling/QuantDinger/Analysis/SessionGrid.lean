import QuantDinger.Model.EquityCalendar

/-!
# Sessions and their segments

What the three readers of an exchange calendar share: which session an instant belongs to, how the
trading segments lie in it, and which stretches of time overlap one of them.
-/

namespace QuantDinger.Analysis

open QuantDinger.Model QuantDinger.Model.Equity

/-- Sessions of a Hong Kong calendar end before 16:00 UTC, where the next date begins there. -/
def EndsOnDate (market : String) (calendar : ExchangeCalendar) : Prop :=
  market = "HKStock" → ∀ session ∈ calendar.sessions, session.closes < session.day * 86400 + 57600

def wholeSeconds (t : Time) : ℤ := t / seconds 1

/-! ## Sessions -/

section

variable {calendar : ExchangeCalendar} {session other : Session} {market : String}

theorem seconds_le_iff {n t : ℤ} : seconds n ≤ t ↔ n ≤ wholeSeconds t := by
  change n * 1000000000 ≤ t ↔ n ≤ t / 1000000000
  omega

theorem lt_seconds_iff {n t : ℤ} : t < seconds n ↔ wholeSeconds t < n := by
  change t < n * 1000000000 ↔ t / 1000000000 < n
  omega

theorem wholeSeconds_seconds (n : ℤ) : wholeSeconds (seconds n) = n := by
  change n * 1000000000 / 1000000000 = n
  omega

theorem wholeSeconds_mono {t t' : ℤ} (h : t ≤ t') : wholeSeconds t ≤ wholeSeconds t' :=
  Int.ediv_le_ediv (by decide) h

theorem wholeSeconds_add (t n : ℤ) : wholeSeconds (t + seconds n) = wholeSeconds t + n := by
  change (t + n * 1000000000) / 1000000000 = t / 1000000000 + n
  omega

theorem dayOf_eq (t : ℤ) : dayOf t = wholeSeconds t / 86400 := by
  change t / 86400000000000 = t / 1000000000 / 86400
  omega

theorem session?_eq_some_iff {day : ℤ} :
    calendar.session? day = some session ↔ session ∈ calendar.sessions ∧ session.day = day := by
  unfold ExchangeCalendar.session?
  constructor
  · intro h
    have hday := List.find?_some h
    rw [decide_eq_true_iff] at hday
    exact ⟨List.mem_of_find?_eq_some h, hday⟩
  · rintro ⟨hmem, rfl⟩
    have hpairwise := calendar.increasing
    revert hmem hpairwise
    induction calendar.sessions with
    | nil => exact fun hmem => nomatch hmem
    | cons first rest ih =>
      intro hmem hpairwise
      rw [List.find?_cons]
      rcases List.mem_cons.mp hmem with rfl | hrest
      · rw [decide_eq_true rfl]
      · have hlt := (List.pairwise_cons.mp hpairwise).1 session hrest
        rw [decide_eq_false (by omega)]
        exact ih hrest (List.pairwise_cons.mp hpairwise).2

theorem session_eq_of_day (h : session ∈ calendar.sessions) (h' : other ∈ calendar.sessions)
    (hday : session.day = other.day) : session = other := by
  have h1 := session?_eq_some_iff.mpr ⟨h, rfl⟩
  have h2 := session?_eq_some_iff.mpr ⟨h', rfl⟩
  rw [hday, h2] at h1
  exact (Option.some.inj h1).symm

theorem session_eq_of_instant {t : ℤ} (h : session ∈ calendar.sessions)
    (h' : other ∈ calendar.sessions) (ht : session.opens ≤ t ∧ t ≤ session.closes)
    (ht' : other.opens ≤ t ∧ t ≤ other.closes) : session = other := by
  have h1 := session.on_day
  have h2 := other.on_day
  exact session_eq_of_day h h' (by omega)

theorem sessionDate_eq (hk : EndsOnDate market calendar) (h : session ∈ calendar.sessions)
    {t : Time} (ht : seconds session.opens ≤ t) (ht' : t ≤ seconds session.closes) :
    equityBarSessionDate t market = session.day := by
  have hday := session.on_day
  rw [seconds_le_iff] at ht
  have hle : wholeSeconds t ≤ session.closes := by
    rw [← wholeSeconds_seconds session.closes]
    exact wholeSeconds_mono ht'
  unfold equityBarSessionDate
  rw [dayOf_eq]
  by_cases hmarket : market = "HKStock"
  · have hclose := hk hmarket session h
    rw [if_pos hmarket, wholeSeconds_add]
    omega
  · rw [if_neg hmarket]
    omega

end

/-! ## Segments -/

section

variable {session : Session} {x y : ℤ}

theorem segments_within {segment : ℤ × ℤ} (h : segment ∈ session.segments) :
    session.opens ≤ segment.1 ∧ segment.1 < segment.2 ∧ segment.2 ≤ session.closes := by
  have hopen := session.opens_lt_closes
  have hinside := session.lunch_inside
  unfold Session.segments at h
  split at h
  · rw [List.mem_singleton.mp h]
    exact ⟨le_rfl, hopen, le_rfl⟩
  · rename_i breakStart breakEnd hlunch
    obtain ⟨h1, h2, h3⟩ := hinside breakStart breakEnd hlunch
    rcases List.mem_pair.mp h with rfl | rfl
    · exact ⟨le_rfl, h1, by omega⟩
    · exact ⟨by omega, h3, le_rfl⟩

theorem overlaps_iff {segment : ℤ × ℤ} :
    overlaps x y segment = true ↔ x < segment.2 ∧ segment.1 < y := by
  unfold overlaps
  rw [decide_eq_true_iff]

theorem any_overlaps_iff :
    session.segments.any (overlaps x y) = true ↔
      ∃ segment ∈ session.segments, x < segment.2 ∧ segment.1 < y := by
  rw [List.any_eq_true]
  simp only [overlaps_iff]

end

/-! ## Grids -/

def OnGrid (session : Session) (length bar : ℤ) : Prop :=
  session.opens ≤ bar ∧ length ∣ bar - session.opens

def gridBar (session : Session) (length instant : ℤ) : ℤ :=
  session.opens + (instant - session.opens) / length * length

section

variable {session : Session} {length bar bar' instant : ℤ}

theorem gridBar_le (hpos : 0 < length) : gridBar session length instant ≤ instant := by
  have hdiv := Int.emod_add_mul_ediv (instant - session.opens) length
  have hmod := Int.emod_nonneg (instant - session.opens) hpos.ne'
  unfold gridBar
  linarith [mul_comm length ((instant - session.opens) / length)]

theorem lt_gridBar_add (hpos : 0 < length) : instant < gridBar session length instant + length := by
  have hdiv := Int.emod_add_mul_ediv (instant - session.opens) length
  have hmod := Int.emod_lt_of_pos (instant - session.opens) hpos
  unfold gridBar
  linarith [mul_comm length ((instant - session.opens) / length)]

theorem onGrid_gridBar (hpos : 0 < length) (h : session.opens ≤ instant) :
    OnGrid session length (gridBar session length instant) := by
  have hquot : 0 ≤ (instant - session.opens) / length :=
    Int.ediv_nonneg (by linarith) hpos.le
  have hprod := mul_nonneg hquot hpos.le
  unfold OnGrid gridBar
  refine ⟨by linarith, ?_⟩
  rw [add_sub_cancel_left]
  exact dvd_mul_left _ _

theorem grid_step (hb : OnGrid session length bar)
    (hb' : OnGrid session length bar') (h : bar < bar') : bar + length ≤ bar' := by
  have hsub : length ∣ bar' - bar := by
    have heq : bar' - bar = (bar' - session.opens) - (bar - session.opens) := by ring
    rw [heq]
    exact dvd_sub hb'.2 hb.2
  have hle := Int.le_of_dvd (by linarith) hsub
  linarith

theorem le_gridBar (hpos : 0 < length) (hb : OnGrid session length bar)
    (h : bar ≤ instant) : bar ≤ gridBar session length instant := by
  by_contra hlt
  have hgrid := onGrid_gridBar hpos (hb.1.trans h)
  have hstep := grid_step hgrid hb (not_le.mp hlt)
  have hlater : instant < gridBar session length instant + length := lt_gridBar_add hpos
  linarith

theorem add_le_gridBar (hpos : 0 < length) (hb : OnGrid session length bar)
    (h : bar + length ≤ instant) : bar + length ≤ gridBar session length instant := by
  refine le_gridBar hpos ⟨by linarith [hb.1], ?_⟩ h
  have heq : bar + length - session.opens = (bar - session.opens) + length := by ring
  rw [heq]
  exact dvd_add hb.2 (dvd_refl length)

theorem onGrid_sub (hpos : 0 < length) (h : session.opens + length ≤ instant) :
    OnGrid session length (gridBar session length instant - length) := by
  have hfirst : OnGrid session length session.opens := ⟨le_rfl, by simp⟩
  have hle := add_le_gridBar hpos hfirst h
  have hgrid := @onGrid_gridBar session _ instant hpos (by linarith)
  refine ⟨by linarith, ?_⟩
  have heq : gridBar session length instant - length - session.opens =
      (gridBar session length instant - session.opens) - length := by ring
  rw [heq]
  exact dvd_sub hgrid.2 (dvd_refl length)

end

/-! ## Closing times -/

section

variable {session : Session} {x y close : ℤ}

theorem barClose_eq_some_iff_all (segments : List (ℤ × ℤ)) :
    barClose segments x y = some close ↔
      (∃ segment ∈ segments, x < segment.2 ∧ segment.1 < y ∧ close = min y segment.2) ∧
        ∀ segment ∈ segments, x < segment.2 → segment.1 < y → min y segment.2 ≤ close := by
  unfold barClose
  rw [List.max?_eq_some_iff]
  simp only [List.mem_map, List.mem_filter, overlaps_iff]
  constructor
  · rintro ⟨⟨segment, ⟨hmem, hend, hstart⟩, rfl⟩, hle⟩
    exact ⟨⟨segment, hmem, hend, hstart, rfl⟩, fun other hother hend' hstart' =>
      hle _ ⟨other, ⟨hother, hend', hstart'⟩, rfl⟩⟩
  · rintro ⟨⟨segment, hmem, hend, hstart, rfl⟩, hle⟩
    refine ⟨⟨segment, ⟨hmem, hend, hstart⟩, rfl⟩, ?_⟩
    rintro _ ⟨other, ⟨hother, hend', hstart'⟩, rfl⟩
    exact hle other hother hend' hstart'

theorem barClose_whole_iff (h : session.lunch = none) :
    barClose session.segments x y = some close ↔
      x < session.closes ∧ session.opens < y ∧ close = min y session.closes := by
  have hsegments : session.segments = [(session.opens, session.closes)] := by
    unfold Session.segments
    rw [h]
  rw [hsegments, barClose_eq_some_iff_all]
  simp only [List.mem_singleton, exists_eq_left, forall_eq]
  constructor
  · exact fun h => h.1
  · rintro ⟨hend, hstart, rfl⟩
    exact ⟨⟨hend, hstart, rfl⟩, fun _ _ => le_rfl⟩

theorem barClose_break_iff {breakStart breakEnd : ℤ}
    (h : session.lunch = some (breakStart, breakEnd)) :
    barClose session.segments x y = some close ↔
      (x < session.closes ∧ breakEnd < y ∧ close = min y session.closes) ∨
        (x < breakStart ∧ session.opens < y ∧ y ≤ breakEnd ∧ close = min y breakStart) := by
  obtain ⟨hopens, hlength, hcloses⟩ := session.lunch_inside breakStart breakEnd h
  have hsegments : session.segments =
      [(session.opens, breakStart), (breakEnd, session.closes)] := by
    unfold Session.segments
    rw [h]
  rw [hsegments, barClose_eq_some_iff_all]
  simp only [List.mem_pair, exists_eq_or_imp, exists_eq_left, forall_eq_or_imp, forall_eq]
  omega

end

/-! ## Two days in Hong Kong -/

/-- A full day in Hong Kong: 01:30 to 08:00 UTC with a break from 04:00 to 05:00. -/
def hongKongDay (day : ℤ) : Session where
  day
  opens := day * 86400 + 5400
  closes := day * 86400 + 28800
  lunch := some (day * 86400 + 14400, day * 86400 + 18000)
  opens_lt_closes := by omega
  lunch_inside breakStart breakEnd h := by
    obtain ⟨rfl, rfl⟩ := Prod.mk.inj (Option.some.inj h)
    omega
  on_day := by omega

def hongKongDays : ExchangeCalendar where
  sessions := [hongKongDay 20000, hongKongDay 20001]
  localDay instant := (instant + 28800) / 86400
  midnight day := day * 86400 - 28800
  increasing := by
    refine List.pairwise_pair.mpr ?_
    decide
  localDay_session session h instant hopens hcloses := by
    rcases List.mem_pair.mp h with rfl | rfl <;> simp only [hongKongDay] at hopens hcloses ⊢ <;>
      omega

theorem hongKongDays_ends : EndsOnDate "HKStock" hongKongDays := by
  intro _ session h
  rcases List.mem_pair.mp h with rfl | rfl <;> simp only [hongKongDay] <;> omega

theorem marketCalendar_hongKong (calendars : String → ExchangeCalendar) :
    marketCalendar calendars "HKStock" = .ok (calendars "XHKG") := by
  have hcode : calendarByMarket.lookup (strip "HKStock") = some "XHKG" := by decide +kernel
  unfold marketCalendar
  rw [hcode]

end QuantDinger.Analysis
