import QuantDinger.Analysis.RebalanceDates
import QuantDinger.Analysis.Schedules
import QuantDinger.Library.Succession

/-!
# Rebalancing runs

`nextSessionRun_isLeast`: the next run is the least one above the instant among the sessions whose
next session `_is_period_end` tells apart from them. `rebalance_once_iff` compares these with the
last sessions of the periods: they are the same for months, and for weeks where no week has
sessions in two years.
-/

namespace QuantDinger.Analysis

open QuantDinger.Library QuantDinger.Model QuantDinger.Model.Equity

/-! ## What the runs should be -/

def SamePeriod (frequency : String) : ℤ → ℤ → Prop :=
  if frequency = "weekly" then SameWeek else SameMonth

def IsLastSession (calendar : SessionCalendar) (frequency : String) (day : ℤ) : Prop :=
  calendar.isSession day = true ∧
    ∀ later, day < later → calendar.isSession later = true → ¬ SamePeriod frequency day later

/-- The runs of the last sessions of the periods. -/
def lastRuns (calendar : SessionCalendar) (frequency : String) (dataDelayMinutes : ℤ) : Set Time :=
  {t | ∃ day, IsLastSession calendar frequency day ∧ calendar.runAt dataDelayMinutes day = t}

/-- Every session runs on its own UTC date, and from a day on no gap is longer than thirty days. -/
structure RegularSessions (calendar : SessionCalendar) (dataDelayMinutes start : ℤ) : Prop where
  on_day : ∀ day, calendar.isSession day = true →
    dayOf (calendar.runAt dataDelayMinutes day) = day
  gaps : ∀ day, start ≤ day → ∃ later, day ≤ later ∧ later < day + 30 ∧
    calendar.isSession later = true

/-! ## Sessions of a window -/

section

variable {calendar : SessionCalendar} {first last : ℤ}

theorem mem_sessionsInRange {day : ℤ} : day ∈ calendar.sessionsInRange first last ↔
    (first ≤ day ∧ day ≤ last) ∧ calendar.isSession day = true := by
  unfold SessionCalendar.sessionsInRange
  rw [List.mem_filter, List.mem_map]
  refine and_congr_left fun _ => ?_
  constructor
  · rintro ⟨offset, hoffset, rfl⟩
    rw [List.mem_range] at hoffset
    omega
  · rintro ⟨hfirst, hlast⟩
    obtain ⟨offset, hoffset⟩ : ∃ offset : ℕ, (offset : ℤ) = day - first :=
      ⟨(day - first).toNat, Int.toNat_of_nonneg (by omega)⟩
    exact ⟨offset, List.mem_range.2 (by omega), by omega⟩

theorem sessionsInRange_sorted : (calendar.sessionsInRange first last).Pairwise (· < ·) := by
  unfold SessionCalendar.sessionsInRange
  refine (List.pairwise_map.2 (List.pairwise_lt_range.imp fun hlt => ?_)).filter _
  omega

theorem next_session_iff {index : ℕ} {day later : ℤ}
    (hday : (calendar.sessionsInRange first last)[index]? = some day) :
    (calendar.sessionsInRange first last)[index + 1]? = some later ↔
      Library.Follows (fun day => calendar.isSession day = true) day later ∧ later ≤ last := by
  have hfirst := (mem_sessionsInRange.1 (List.mem_of_getElem? hday)).1.1
  rw [getElem?_succ_iff sessionsInRange_sorted hday]
  constructor
  · intro h
    obtain ⟨⟨-, hlast⟩, hmem⟩ := mem_sessionsInRange.1 h.mem
    refine ⟨⟨h.lt, hmem, fun between hafter hbefore hbetween => ?_⟩, hlast⟩
    refine h.none_between between hafter hbefore (mem_sessionsInRange.2 ⟨⟨?_, ?_⟩, hbetween⟩)
    · omega
    · omega
  · rintro ⟨h, hlast⟩
    have hlt := h.lt
    refine ⟨hlt, mem_sessionsInRange.2 ⟨⟨by omega, hlast⟩, h.mem⟩, ?_⟩
    exact fun between hafter hbefore hbetween =>
      h.none_between between hafter hbefore (mem_sessionsInRange.1 hbetween).2

end

theorem sessionCalendar_sessionsInRange (calendar : ExchangeCalendar) (first last : ℤ) :
    calendar.sessionCalendar.sessionsInRange first last =
      (calendar.sessionsInRange first last).map Session.day := by
  have hsorted : ((calendar.sessionsInRange first last).map Session.day).Pairwise (· < ·) :=
    List.pairwise_map.2 (calendar.increasing.filter _)
  have hmem : ∀ day, day ∈ calendar.sessionCalendar.sessionsInRange first last ↔
      day ∈ (calendar.sessionsInRange first last).map Session.day := by
    intro day
    rw [mem_sessionsInRange, List.mem_map]
    unfold ExchangeCalendar.sessionsInRange ExchangeCalendar.sessionCalendar
      ExchangeCalendar.session?
    dsimp only
    rw [List.find?_isSome]
    constructor
    · rintro ⟨hrange, session, hsession, hday⟩
      obtain rfl := of_decide_eq_true hday
      exact ⟨session, List.mem_filter.2 ⟨hsession, decide_eq_true hrange⟩, rfl⟩
    · rintro ⟨session, hsession, rfl⟩
      obtain ⟨hsession, hrange⟩ := List.mem_filter.1 hsession
      exact ⟨of_decide_eq_true hrange, session, hsession, decide_eq_true rfl⟩
  refine List.Perm.eq_of_pairwise (fun a b _ _ hab hba => absurd hba (not_lt.2 (le_of_lt hab)))
    sessionsInRange_sorted hsorted ?_
  exact (List.perm_ext_iff_of_nodup (sessionsInRange_sorted.imp fun hlt => ne_of_lt hlt)
    (hsorted.imp fun hlt => ne_of_lt hlt)).2 hmem

/-! ## Ends of periods -/

/-- What `_is_period_end` compares. -/
def periodKey (frequency : String) (day : ℤ) : ℤ × ℤ :=
  (if frequency = "weekly" then isoWeek day else (dateOfDay day).month, (dateOfDay day).year)

/-- A session the next one after which is told apart from it. -/
def EndsPeriod (calendar : SessionCalendar) (frequency : String) (day : ℤ) : Prop :=
  calendar.isSession day = true ∧
    ∃ later, Library.Follows (fun day => calendar.isSession day = true) day later ∧
      periodKey frequency day ≠ periodKey frequency later

def endRuns (calendar : SessionCalendar) (frequency : String) (dataDelayMinutes : ℤ) : Set Time :=
  {t | ∃ day, EndsPeriod calendar frequency day ∧ calendar.runAt dataDelayMinutes day = t}

theorem isPeriodEnd_iff {sessions : List ℤ} {index : ℕ} {frequency : String}
    (hfrequency : frequency ≠ "daily") : isPeriodEnd sessions index frequency = true ↔
      ∃ day later, sessions[index]? = some day ∧ sessions[index + 1]? = some later ∧
        periodKey frequency day ≠ periodKey frequency later := by
  unfold isPeriodEnd periodKey
  rw [if_neg hfrequency]
  rcases hday : sessions[index]? with _ | day
  · exact ⟨fun h => (nomatch h), fun ⟨_, _, h, _⟩ => (nomatch h)⟩
  rcases hlater : sessions[index + 1]? with _ | later
  · exact ⟨fun h => (nomatch h), fun ⟨_, _, _, h, _⟩ => (nomatch h)⟩
  have hkeys : ∀ {a b c d : ℤ}, (a, b) ≠ (c, d) ↔ a ≠ c ∨ b ≠ d := by
    intro a b c d
    rw [ne_eq, Prod.mk.injEq, not_and_or]
  dsimp only
  constructor
  · intro h
    refine ⟨day, later, rfl, rfl, hkeys.2 ?_⟩
    split_ifs at h ⊢
    · exact of_decide_eq_true h
    · exact of_decide_eq_true h
  · rintro ⟨_, _, hday, hlater, h⟩
    obtain rfl := Option.some.inj hday
    obtain rfl := Option.some.inj hlater
    rw [hkeys] at h
    split_ifs at h ⊢
    · exact decide_eq_true h
    · exact decide_eq_true h

section

variable {calendar : SessionCalendar} {frequency : String} {dataDelayMinutes start : ℤ}

theorem RegularSessions.runAt_lt_iff (h : RegularSessions calendar dataDelayMinutes start)
    {day other : ℤ}
    (hday : calendar.isSession day = true) (hother : calendar.isSession other = true) :
    calendar.runAt dataDelayMinutes day < calendar.runAt dataDelayMinutes other ↔
      day < other := by
  have hmono : ∀ {a b}, calendar.isSession a = true → calendar.isSession b = true → a < b →
      calendar.runAt dataDelayMinutes a < calendar.runAt dataDelayMinutes b := by
    intro a b ha hb hlt
    have hda := h.on_day a ha
    have hdb := h.on_day b hb
    by_contra hle
    have hdays : dayOf (calendar.runAt dataDelayMinutes b) ≤
        dayOf (calendar.runAt dataDelayMinutes a) :=
      Int.ediv_le_ediv dayLength_pos (not_lt.1 hle)
    omega
  constructor
  · intro hlt
    rcases lt_trichotomy day other with h' | rfl | h'
    · exact h'
    · exact absurd hlt (lt_irrefl _)
    · exact absurd (hmono hother hday h') (not_lt.2 (le_of_lt hlt))
  · exact hmono hday hother

theorem RegularSessions.dayOf_le (h : RegularSessions calendar dataDelayMinutes start)
    {day : ℤ} {current : Time}
    (hday : calendar.isSession day = true)
    (hlt : current < calendar.runAt dataDelayMinutes day) : dayOf current ≤ day := by
  have hle : dayOf current ≤ dayOf (calendar.runAt dataDelayMinutes day) :=
    Int.ediv_le_ediv dayLength_pos (le_of_lt hlt)
  rw [h.on_day day hday] at hle
  exact hle

theorem periodKey_ne {day later : ℤ} (hfar : day + 31 ≤ later) (hnear : later ≤ day + 60) :
    periodKey frequency day ≠ periodKey frequency later := by
  intro h
  obtain ⟨hnumber, hyear⟩ := Prod.mk.inj h
  split_ifs at hnumber with hweekly
  · exact not_sameWeek_of_add_le (by omega) ((isoWeek_eq_iff (by omega) hnear).1 hnumber)
  · exact not_sameMonth_of_add_le hfar ⟨hnumber, hyear⟩

theorem RegularSessions.exists_endsPeriod (h : RegularSessions calendar dataDelayMinutes start)
    (frequency : String) {day : ℤ} (hstart : start ≤ day) :
    ∃ last later, day < last ∧ later ≤ day + 100 ∧
      calendar.isSession last = true ∧
        Library.Follows (fun day => calendar.isSession day = true) last later ∧
          periodKey frequency last ≠ periodKey frequency later := by
  obtain ⟨first, hfirst, hfirst', hsession⟩ := h.gaps (day + 1) (by omega)
  obtain ⟨far, hfar, hfar', hsession'⟩ := h.gaps (first + 31) (by omega)
  have hkeys : periodKey frequency first ≠ periodKey frequency far :=
    periodKey_ne hfar (by omega)
  obtain ⟨last, later, hle, hle', hlast, hfollows, hkey⟩ :=
    exists_change (P := fun day => calendar.isSession day = true) hsession hsession'
      (by omega) hkeys
  exact ⟨last, later, by omega, by omega, hlast, hfollows, hkey⟩

theorem isNextRun_iff (hfrequency : frequency ≠ "daily") {current : Time} {first last : ℤ}
    {index : ℕ} : isNextRun calendar (calendar.sessionsInRange first last) frequency current
        dataDelayMinutes index = true ↔
      ∃ day later, (calendar.sessionsInRange first last)[index]? = some day ∧
        current < calendar.runAt dataDelayMinutes day ∧
          Library.Follows (fun day => calendar.isSession day = true) day later ∧ later ≤ last ∧
            periodKey frequency day ≠ periodKey frequency later := by
  unfold isNextRun
  rcases hday : (calendar.sessionsInRange first last)[index]? with _ | day
  · exact ⟨fun h => (nomatch h), fun ⟨_, _, h, _⟩ => (nomatch h)⟩
  dsimp only
  rw [Bool.and_eq_true, decide_eq_true_iff, isPeriodEnd_iff hfrequency]
  constructor
  · rintro ⟨hlt, _, later, hday', hlater, hkey⟩
    rw [hday] at hday'
    obtain rfl := Option.some.inj hday'
    obtain ⟨hfollows, hlast⟩ := (next_session_iff hday).1 hlater
    exact ⟨day, later, rfl, hlt, hfollows, hlast, hkey⟩
  · rintro ⟨_, later, hday', hlt, hfollows, hlast, hkey⟩
    obtain rfl := Option.some.inj hday'
    exact ⟨hlt, day, later, hday, (next_session_iff hday).2 ⟨hfollows, hlast⟩, hkey⟩

theorem exists_isNextRun (h : RegularSessions calendar dataDelayMinutes start)
    (hfrequency : frequency ≠ "daily") {current : Time} (hstart : start ≤ dayOf current) :
    ∃ index < (calendar.sessionsInRange (dayOf current) (dayOf current + 360)).length,
      isNextRun calendar (calendar.sessionsInRange (dayOf current) (dayOf current + 360)) frequency
        current dataDelayMinutes index = true := by
  obtain ⟨last, later, hlast, hlater, hsession, hfollows, hkey⟩ :=
    h.exists_endsPeriod frequency hstart
  have hlt := hfollows.lt
  obtain ⟨index, hat⟩ := List.mem_iff_getElem?.1 (mem_sessionsInRange.2
    ⟨⟨le_of_lt hlast, show last ≤ dayOf current + 360 by omega⟩, hsession⟩)
  have hrun : current < calendar.runAt dataDelayMinutes last := by
    by_contra hle
    have hdays : dayOf (calendar.runAt dataDelayMinutes last) ≤ dayOf current :=
      Int.ediv_le_ediv dayLength_pos (not_lt.1 hle)
    rw [h.on_day last hsession] at hdays
    omega
  exact ⟨index, (List.getElem?_eq_some_iff.1 hat).1,
    (isNextRun_iff hfrequency).2 ⟨last, later, hat, hrun, hfollows, by omega, hkey⟩⟩

theorem nextSessionRun_isLeast (h : RegularSessions calendar dataDelayMinutes start)
    (hfrequency : frequency ≠ "daily") {current : Time} (hstart : start ≤ dayOf current) :
    ∃ run, nextSessionRun calendar frequency current dataDelayMinutes = .ok run ∧
      IsLeast {t | t ∈ endRuns calendar frequency dataDelayMinutes ∧ current < t} run := by
  unfold nextSessionRun
  dsimp only
  rw [dayOf_add_days]
  rcases hfound : (List.range (calendar.sessionsInRange (dayOf current)
      (dayOf current + 360)).length).find? (isNextRun calendar (calendar.sessionsInRange
        (dayOf current) (dayOf current + 360)) frequency current dataDelayMinutes) with _ | index
  · obtain ⟨index, hlength, htrue⟩ := exists_isNextRun h hfrequency hstart
    exact absurd htrue (List.find?_eq_none.1 hfound index (List.mem_range.2 hlength))
  rw [List.find?_range_eq_some] at hfound
  obtain ⟨htrue, -, hleast⟩ := hfound
  obtain ⟨day, later, hday, hrun, hfollows, hlater, hkey⟩ := (isNextRun_iff hfrequency).1 htrue
  obtain ⟨-, hmem⟩ := mem_sessionsInRange.1 (List.mem_of_getElem? hday)
  rw [Option.bind_some, hday]
  refine ⟨_, rfl, ⟨⟨day, ⟨hmem, later, hfollows, hkey⟩, rfl⟩, hrun⟩, ?_⟩
  rintro _ ⟨⟨other, ⟨hother, next, hnext, hkey'⟩, rfl⟩, hrun'⟩
  by_contra hless
  -- an earlier session that ends a period is in the window too, and its test comes first
  have hbefore := (h.runAt_lt_iff hother hmem).1 (not_le.1 hless)
  have hfirst := h.dayOf_le hother hrun'
  have hnextle := hnext.le_of_mem hbefore hmem
  have hlt := hfollows.lt
  obtain ⟨index', hat⟩ := List.mem_iff_getElem?.1 (mem_sessionsInRange.2
    ⟨⟨hfirst, show other ≤ dayOf current + 360 by omega⟩, hother⟩)
  have hearlier := hleast index' ((index_lt_iff sessionsInRange_sorted hat hday).2 hbefore)
  rw [(isNextRun_iff hfrequency).2 ⟨other, next, hat, hrun', hnext, by omega, hkey'⟩] at hearlier
  exact nomatch hearlier

/-! ## Last sessions -/

theorem samePeriod_of_between {first between last : ℤ} (h : SamePeriod frequency first last)
    (hfirst : first ≤ between) (hlast : between ≤ last) :
    SamePeriod frequency first between := by
  unfold SamePeriod at *
  split_ifs at h ⊢
  · exact sameWeek_of_between h hfirst hlast
  · exact sameMonth_of_between h hfirst hlast

theorem RegularSessions.isLastSession_iff
    (h : RegularSessions calendar dataDelayMinutes start) {day : ℤ}
    (hstart : start ≤ day) : IsLastSession calendar frequency day ↔
      calendar.isSession day = true ∧
        ∃ later, Library.Follows (fun day => calendar.isSession day = true) day later ∧
          later ≤ day + 30 ∧ ¬ SamePeriod frequency day later := by
  refine and_congr_right fun _ => ?_
  constructor
  · intro hlast
    obtain ⟨top, htop, htop', hsession⟩ := h.gaps (day + 1) (by omega)
    obtain ⟨later, hfollows, hle⟩ :=
      exists_follows (P := fun day => calendar.isSession day = true)
        (show day < top by omega) hsession
    exact ⟨later, hfollows, by omega, hlast later hfollows.lt hfollows.mem⟩
  · rintro ⟨later, hfollows, -, hother⟩ next hlt hnext hsame
    exact hother (samePeriod_of_between hsame (le_of_lt hfollows.lt)
      (hfollows.le_of_mem hlt hnext))

theorem periodKey_ne_iff (hfrequency : frequency = "weekly" ∨ frequency = "monthly")
    {day later : ℤ} (hle : day ≤ later) (hnear : later ≤ day + 60) :
    periodKey frequency day ≠ periodKey frequency later ↔
      ¬ SamePeriod frequency day later ∨ frequency = "weekly" ∧
        (dateOfDay day).year ≠ (dateOfDay later).year := by
  unfold periodKey SamePeriod
  rw [ne_eq, Prod.mk.injEq, not_and_or]
  rcases hfrequency with rfl | rfl
  · rw [if_pos rfl, if_pos rfl, if_pos rfl, isoWeek_eq_iff hle hnear]
    simp only [true_and, ne_eq]
  · have hmonthly : ¬ "monthly" = "weekly" := by decide
    rw [if_neg hmonthly, if_neg hmonthly, if_neg hmonthly, ← not_and_or]
    simp only [hmonthly, false_and, or_false]
    rfl

theorem RegularSessions.endsPeriod_of_isLastSession
    (h : RegularSessions calendar dataDelayMinutes start)
    (hfrequency : frequency = "weekly" ∨ frequency = "monthly") {day : ℤ} (hstart : start ≤ day)
    (hlast : IsLastSession calendar frequency day) : EndsPeriod calendar frequency day := by
  obtain ⟨hday, later, hfollows, hnear, hother⟩ := (h.isLastSession_iff hstart).1 hlast
  exact ⟨hday, later, hfollows,
    (periodKey_ne_iff hfrequency (le_of_lt hfollows.lt) (by omega)).2 (Or.inl hother)⟩

theorem RegularSessions.endRuns_iff (h : RegularSessions calendar dataDelayMinutes start)
    (hfrequency : frequency = "weekly" ∨ frequency = "monthly") {now : Time}
    (hstart : start ≤ dayOf now) :
    (∀ t, now < t → (t ∈ endRuns calendar frequency dataDelayMinutes ↔
        t ∈ lastRuns calendar frequency dataDelayMinutes)) ↔
      (frequency = "weekly" → ∀ day later, calendar.isSession day = true →
        calendar.isSession later = true → day < later → SameWeek day later →
          now < calendar.runAt dataDelayMinutes day →
            (dateOfDay day).year = (dateOfDay later).year) := by
  constructor
  · rintro hsame rfl day later hday hlater hlt hweek hrun
    by_contra hyear
    obtain ⟨last, next, hle, hnext, hlast, hfollows, hchange⟩ :=
      @exists_change (fun day => calendar.isSession day = true) ℤ (fun day => (dateOfDay day).year)
        _ _ hday hlater hlt hyear
    have hbetween : SameWeek last next := by
      have hfollow := hfollows.lt
      have hfirst := sameWeek_of_between hweek hle (by omega)
      have hsecond := sameWeek_of_between hweek (by omega) hnext
      exact hfirst.symm.trans hsecond
    have hrun' : now < calendar.runAt dataDelayMinutes last := by
      refine lt_of_lt_of_le hrun (not_lt.1 fun hless => ?_)
      exact absurd ((h.runAt_lt_iff hlast hday).1 hless) (not_lt.2 hle)
    have hnear : next ≤ last + 60 := by
      by_contra hfar
      exact not_sameWeek_of_add_le (by omega) hbetween
    have hend : calendar.runAt dataDelayMinutes last ∈
        endRuns calendar "weekly" dataDelayMinutes := by
      refine ⟨last, ⟨hlast, next, hfollows, ?_⟩, rfl⟩
      exact (periodKey_ne_iff (Or.inl rfl) (le_of_lt hfollows.lt) hnear).2
        (Or.inr ⟨rfl, hchange⟩)
    obtain ⟨other, hother, heq⟩ := (hsame _ hrun').1 hend
    obtain rfl : other = last := by
      rw [← h.on_day other hother.1, heq, h.on_day last hlast]
    exact hother.2 next hfollows.lt hfollows.mem hbetween
  · intro hyears t ht
    constructor
    · rintro ⟨day, ⟨hday, later, hfollows, hkey⟩, rfl⟩
      have hfrom := hstart.trans (h.dayOf_le hday ht)
      refine ⟨day, (h.isLastSession_iff hfrom).2 ⟨hday, later, hfollows, ?_⟩, rfl⟩
      obtain ⟨top, htop, htop', hsession⟩ := h.gaps (day + 1) (by omega)
      have hnear := hfollows.le_of_mem (by omega) hsession
      refine ⟨by omega, ?_⟩
      rcases (periodKey_ne_iff hfrequency (le_of_lt hfollows.lt) (by omega)).1 hkey with
        hother | ⟨rfl, hyear⟩
      · exact hother
      · intro hweek
        exact hyear (hyears rfl day later hday hfollows.mem hfollows.lt hweek ht)
    · rintro ⟨day, hlast, rfl⟩
      have hfrom := hstart.trans (h.dayOf_le hlast.1 ht)
      exact ⟨day, h.endsPeriod_of_isLastSession hfrequency hfrom hlast, rfl⟩

end

/-! ## Runs -/

theorem nextRebalanceRun_eq {calendars : String → SessionCalendar} {market frequency code : String}
    (hmarket : calendarByMarket.lookup (strip market) = some code)
    (hfrequency : cleanFrequency frequency = "weekly" ∨ cleanFrequency frequency = "monthly")
    (current : Time) (dataDelayMinutes : ℤ) :
    nextRebalanceRun calendars market frequency current dataDelayMinutes =
      nextSessionRun (calendars code) (cleanFrequency frequency) current dataDelayMinutes := by
  have hrests : ¬ (strip market = "Crypto" ∨ strip market = "Cryptocurrency") := by
    have hcrypto : calendarByMarket.lookup "Crypto" = none := by decide
    have hcurrency : calendarByMarket.lookup "Cryptocurrency" = none := by decide
    rintro (h | h)
    · rw [h, hcrypto] at hmarket
      exact nomatch hmarket
    · rw [h, hcurrency] at hmarket
      exact nomatch hmarket
  unfold nextRebalanceRun
  dsimp only
  rw [if_neg (not_not.2 (Or.inr hfrequency)), if_neg hrests, hmarket]

/-- Each run at what the last one returned: these are the runs of the last sessions of the weeks or
months after the start, each once and in order, exactly when the frequency is monthly or no week
has a session of the old year still to run and one of the new year. -/
theorem rebalance_once_iff (calendars : String → SessionCalendar) (market frequency code : String)
    (dataDelayMinutes : ℤ) (now : Time)
    (hmarket : calendarByMarket.lookup (strip market) = some code)
    (hfrequency : cleanFrequency frequency = "weekly" ∨ cleanFrequency frequency = "monthly")
    (hregular : RegularSessions (calendars code) dataDelayMinutes (dayOf now)) :
    Visits (fun current => nextRebalanceRun calendars market frequency current dataDelayMinutes)
        now (lastRuns (calendars code) (cleanFrequency frequency) dataDelayMinutes) ↔
      (cleanFrequency frequency = "weekly" → ∀ day later,
        (calendars code).isSession day = true → (calendars code).isSession later = true →
          day < later → SameWeek day later →
            now < (calendars code).runAt dataDelayMinutes day →
              (dateOfDay day).year = (dateOfDay later).year) := by
  have hdaily : cleanFrequency frequency ≠ "daily" := by
    rcases hfrequency with h | h
    · rw [h]
      decide
    · rw [h]
      decide
  have hvisits : Visits (fun current =>
      nextRebalanceRun calendars market frequency current dataDelayMinutes) now
        (endRuns (calendars code) (cleanFrequency frequency) dataDelayMinutes) := by
    refine visits_of_isLeast fun t ht => ?_
    rw [nextRebalanceRun_eq hmarket hfrequency]
    exact nextSessionRun_isLeast hregular hdaily (Int.ediv_le_ediv dayLength_pos ht)
  rw [hvisits.visits_iff]
  exact hregular.endRuns_iff hfrequency (le_refl _)

/-- The days from Monday to Friday but for the first of January 2025, a Wednesday; sessions close at
21:00 UTC. -/
def newYearCalendar : SessionCalendar where
  isSession day := decide (weekday day < 5 ∧ day ≠ 20089)
  sessionClose day := day * dayLength + seconds 75600

theorem newYearCalendar_regular (start : ℤ) : RegularSessions newYearCalendar 15 start where
  on_day day _ := by
    have hrun : newYearCalendar.runAt 15 day = seconds 76500 + day * dayLength := by
      unfold SessionCalendar.runAt newYearCalendar
      have hdelay : dataDelay 15 = seconds 900 := by decide
      have hsum : seconds 75600 + seconds 900 = seconds 76500 := by decide
      rw [hdelay, add_assoc, hsum, add_comm]
    have hzero : dayOf (seconds 76500) = 0 := by decide
    rw [hrun, dayOf_add_days, hzero, zero_add]
  gaps day _ := by
    refine ⟨day + (4 - (day + 3) % 7) % 7, by omega, by omega, decide_eq_true ?_⟩
    unfold weekday
    omega

/-- In the week of New Year 2025 the code runs on Tuesday and again on Friday. -/
theorem new_year_week_runs_twice :
    RegularSessions newYearCalendar 15 (dayOf (20085 * dayLength)) ∧
      ¬ Visits (fun current => nextRebalanceRun (fun _ => newYearCalendar) "USStock" "weekly"
        current 15) (20085 * dayLength) (lastRuns newYearCalendar "weekly" 15) := by
  refine ⟨newYearCalendar_regular _, ?_⟩
  rintro ⟨walk, hzero, hnext, -, hmem⟩
  have hrun : nextRebalanceRun (fun _ => newYearCalendar) "USStock" "weekly"
      (20085 * dayLength) 15 = .ok (newYearCalendar.runAt 15 20088) := by decide +kernel
  have hfirst := hnext 0
  dsimp only at hfirst
  rw [hzero, hrun] at hfirst
  have hvisited := (hmem _).1 ⟨0, (Except.ok.inj hfirst).symm⟩
  obtain ⟨day, hlast, heq⟩ := hvisited.1
  obtain rfl : day = 20088 := by
    have hday := (newYearCalendar_regular 0).on_day day hlast.1
    have hother := (newYearCalendar_regular 0).on_day 20088 (by decide)
    rw [heq] at hday
    exact hday.symm.trans hother
  have hweek : SamePeriod "weekly" 20088 20090 := by
    unfold SamePeriod
    rw [if_pos rfl]
    decide
  exact hlast.2 20090 (by decide) (by decide) hweek

theorem rebalance_monthly_once :
    Visits (fun current => nextRebalanceRun (fun _ => newYearCalendar) "USStock" "monthly"
      current 15) (20085 * dayLength) (lastRuns newYearCalendar (cleanFrequency "monthly") 15) :=
  (rebalance_once_iff (fun _ => newYearCalendar) "USStock" "monthly" "XNYS" 15
    (20085 * dayLength) (by decide +kernel) (Or.inr (by decide +kernel))
      (newYearCalendar_regular _)).2 fun h => absurd h (by decide +kernel)

end QuantDinger.Analysis
