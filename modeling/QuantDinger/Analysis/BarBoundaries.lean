import QuantDinger.Analysis.ExpectedBars

/-!
# Bar-close events of equity bars

The bar clock closes bars on the multiples of their length since the epoch, where equity bars are
counted from the session open and cut at the break and at the close. Every bar of a session has an
event of its own exactly where the two grids agree as far as the session needs it.
-/

namespace QuantDinger.Analysis

open QuantDinger.Model QuantDinger.Model.Equity QuantDinger.Model.Events
open QuantDinger.Model.Live (oneSecond)

/-- `SUPPORTED_SUBSCRIPTION_FREQUENCIES`, those below a day.
SOURCE: strategy_v2/frequencies.py:21-31 -/
def intradayFrequencies : List String := ["1m", "3m", "5m", "15m", "30m", "1h", "4h"]

/-- The instant of a `datetime`, which counts microseconds. -/
def ofMicroseconds (value : Time) : Time := value * 1000

/-- An event of the bar clock between the close of a bar and that of the next one of its session, or
the next session. At the event the bar is the newest closed one. -/
def HasOwnEvent (calendars : String → ExchangeCalendar) (calendar : ExchangeCalendar)
    (market frequency venue marketType : String) (session : Session) (bar close : ℤ) : Prop :=
  ∃ token closedAt boundary, completedBarClose frequency token venue marketType = .ok closedAt ∧
    boundary = ofMicroseconds closedAt ∧
    isEquityBarClose calendars market boundary = true ∧ seconds close ≤ boundary ∧
    (∀ next nextClose, OnGrid session (frequencySeconds frequency) next → bar < next →
      barClose session.segments next (next + frequencySeconds frequency) = some nextClose →
      boundary < seconds nextClose) ∧
    (∀ later ∈ calendar.sessions, session.day < later.day → boundary < seconds later.opens) ∧
    IsGreatest (acceptedBars calendar market (frequencySeconds frequency) boundary) bar

/-- The grid of the clock meets a session: it has the close, the break start unless one bar holds
the seconds before and after the break, and the open unless every segment is a single bar. -/
def MeetsClock (session : Session) (length : ℤ) : Prop :=
  length ∣ session.closes ∧
    match session.lunch with
    | none => length ∣ session.opens ∨ session.closes ≤ session.opens + length
    | some (breakStart, breakEnd) =>
      (length ∣ breakStart ∨
        gridBar session length (breakStart - 1) = gridBar session length breakEnd) ∧
      (length ∣ session.opens ∨
        gridBar session length (breakStart - 1) = session.opens ∧
          gridBar session length (session.closes - 1) = gridBar session length breakEnd)

/-- A boundary in whole seconds that serves a bar. -/
def ServesBar (session : Session) (length bar close boundary : ℤ) : Prop :=
  length ∣ boundary ∧ close ≤ boundary ∧ boundary ≤ session.closes ∧
    (∀ breakStart breakEnd, session.lunch = some (breakStart, breakEnd) →
      boundary ≤ breakStart ∨ breakEnd < boundary) ∧
    ∀ next nextClose, OnGrid session length next → bar < next →
      barClose session.segments next (next + length) = some nextClose → boundary < nextClose

/-! ## The clock -/

section

variable {frequency venue marketType : String} {token : ℤ}

theorem frequency_length (h : frequency ∈ intradayFrequencies) :
    timeframeSeconds frequency = .ok (frequencySeconds frequency) ∧
      frequencySeconds frequency ∣ 28800 ∧ frequencySeconds frequency < 86400 := by
  revert frequency
  decide +kernel

theorem candleOrigin_eq {length : ℤ} (h : timeframeSeconds frequency = .ok length)
    (hdvd : length ∣ 28800) (hlt : length < 86400) :
    candleOrigin frequency venue marketType = .ok 0 := by
  unfold candleOrigin
  rw [h]
  dsimp only [bind, Except.bind, pure, Except.pure]
  rw [if_neg (by omega)]
  generalize lower venue = name
  by_cases hname : name ∈ ["okx", "bitget", "htx", "huobi"]
  · rw [if_pos hname]
    exact congrArg Except.ok (Int.emod_eq_zero_of_dvd (dvd_neg.mpr hdvd))
  · rw [if_neg hname, Int.zero_emod]

theorem completedBarClose_eq (h : frequency ∈ intradayFrequencies) :
    completedBarClose frequency token venue marketType =
      .ok ((token + 1) * frequencySeconds frequency * oneSecond) := by
  obtain ⟨hseconds, hdvd, hlt⟩ := frequency_length h
  unfold completedBarClose
  rw [candleOrigin_eq hseconds hdvd hlt]
  generalize frequencySeconds frequency = length
  dsimp only [bind, Except.bind, pure, Except.pure]
  rw [add_zero]

theorem ofMicroseconds_seconds (n : ℤ) : ofMicroseconds (n * oneSecond) = seconds n := by
  unfold ofMicroseconds oneSecond seconds
  ring

end

/-! ## Boundaries that serve a bar -/

section

variable {session : Session} {length bar close boundary : ℤ} {breakStart breakEnd : ℤ}

theorem le_sub_of_dvd {x y : ℤ} (hx : length ∣ x) (hy : length ∣ y) (h : x < y) :
    x ≤ y - length := by
  have hle := Int.le_of_dvd (by linarith) (dvd_sub hy hx)
  linarith

theorem dvd_iff_of_onGrid (hgrid : OnGrid session length bar) :
    length ∣ bar ↔ length ∣ session.opens := by
  have hsum : bar = (bar - session.opens) + session.opens := by ring
  rw [hsum]
  exact dvd_add_right hgrid.2

theorem onGrid_pred (hgrid : OnGrid session length bar) (h : session.opens < bar) :
    OnGrid session length (bar - length) := by
  have hstep := grid_step ⟨le_rfl, by simp⟩ hgrid h
  refine ⟨by linarith, ?_⟩
  have heq : bar - length - session.opens = (bar - session.opens) - length := by ring
  rw [heq]
  exact dvd_sub hgrid.2 (dvd_refl length)

theorem gridBar_mono (hpos : 0 < length) {x y : ℤ} (hx : session.opens ≤ x) (h : x ≤ y) :
    gridBar session length x ≤ gridBar session length y := by
  have hle : gridBar session length x ≤ x := gridBar_le hpos
  exact le_gridBar hpos (onGrid_gridBar hpos hx) (by linarith)

theorem next_bounds (hpos : 0 < length) {next nextClose : ℤ} (hgrid : OnGrid session length next)
    (h : barClose session.segments next (next + length) = some nextClose) :
    next < session.closes ∧ next < nextClose := by
  have hclosed : next ∈ closedBars session length nextClose := ⟨hgrid, nextClose, le_rfl, h⟩
  have hbounds := closedBars_bounds hclosed hpos
  exact ⟨hbounds.2.1, hbounds.2.2⟩

theorem lt_nextClose (hpos : 0 < length) (hgrid : OnGrid session length bar)
    (h : boundary ≤ bar + length) {next nextClose : ℤ} (hnext : OnGrid session length next)
    (hlt : bar < next) (hclose : barClose session.segments next (next + length) = some nextClose) :
    boundary < nextClose := by
  have hbounds := next_bounds hpos hnext hclose
  linarith [grid_step hgrid hnext hlt]

theorem serves_closes (hpos : 0 < length) (hgrid : OnGrid session length bar)
    (hdvd : length ∣ session.closes) (hend : session.closes ≤ bar + length) :
    ServesBar session length bar session.closes session.closes := by
  refine ⟨hdvd, le_rfl, le_rfl, ?_, ?_⟩
  · intro breakStart breakEnd hlunch
    exact Or.inr (session.lunch_inside breakStart breakEnd hlunch).2.2
  · intro next nextClose hnext hlt hclose
    exact lt_nextClose hpos hgrid hend hnext hlt hclose

theorem serves_breakStart (hpos : 0 < length) (hgrid : OnGrid session length bar)
    (hlunch : session.lunch = some (breakStart, breakEnd)) (hdvd : length ∣ breakStart)
    (hend : breakStart ≤ bar + length) :
    ServesBar session length bar breakStart breakStart := by
  obtain ⟨hopens, hlength, hcloses⟩ := session.lunch_inside breakStart breakEnd hlunch
  refine ⟨hdvd, le_rfl, by linarith, ?_, ?_⟩
  · intro breakStart' breakEnd' hlunch'
    rw [hlunch] at hlunch'
    rw [(Prod.mk.inj (Option.some.inj hlunch')).1]
    exact Or.inl le_rfl
  · intro next nextClose hnext hlt hclose
    exact lt_nextClose hpos hgrid hend hnext hlt hclose

theorem serves_end (hpos : 0 < length) (hgrid : OnGrid session length bar)
    (hdvd : length ∣ session.opens) (hend : bar + length ≤ session.closes)
    (hbreak : ∀ breakStart breakEnd, session.lunch = some (breakStart, breakEnd) →
      bar + length ≤ breakStart ∨ breakEnd < bar + length) :
    ServesBar session length bar (bar + length) (bar + length) := by
  refine ⟨?_, le_rfl, hend, hbreak, ?_⟩
  · exact dvd_add ((dvd_iff_of_onGrid hgrid).mpr hdvd) (dvd_refl length)
  · intro next nextClose hnext hlt hclose
    exact lt_nextClose hpos hgrid le_rfl hnext hlt hclose

theorem serves_of_meetsClock (hpos : 0 < length) (h : MeetsClock session length)
    (hgrid : OnGrid session length bar)
    (hclose : barClose session.segments bar (bar + length) = some close) :
    ∃ boundary, ServesBar session length bar close boundary := by
  obtain ⟨hcloses, hrest⟩ := h
  cases hlunch : session.lunch with
  | none =>
    rw [hlunch] at hrest
    obtain ⟨hlt, -, rfl⟩ := (barClose_whole_iff hlunch).mp hclose
    by_cases hend : session.closes ≤ bar + length
    · rw [min_eq_right hend]
      exact ⟨_, serves_closes hpos hgrid hcloses hend⟩
    · rw [not_le] at hend
      rw [min_eq_left hend.le]
      rcases hrest with hopens | hsingle
      · refine ⟨_, serves_end hpos hgrid hopens hend.le ?_⟩
        intro breakStart breakEnd hlunch'
        rw [hlunch] at hlunch'
        exact nomatch hlunch'
      · linarith [hgrid.1]
  | some lunch =>
    obtain ⟨breakStart, breakEnd⟩ := lunch
    rw [hlunch] at hrest
    obtain ⟨hbreakStart, hopens⟩ := hrest
    obtain ⟨hfirst, hlength, hlast⟩ := session.lunch_inside breakStart breakEnd hlunch
    rcases (barClose_break_iff hlunch).mp hclose with
      ⟨hlt, hreach, rfl⟩ | ⟨hlt, -, hend, rfl⟩
    · by_cases hcut : session.closes ≤ bar + length
      · rw [min_eq_right hcut]
        exact ⟨_, serves_closes hpos hgrid hcloses hcut⟩
      · rw [not_le] at hcut
        rw [min_eq_left hcut.le]
        rcases hopens with hopens | ⟨-, hsingle⟩
        · refine ⟨_, serves_end hpos hgrid hopens hcut.le ?_⟩
          intro breakStart' breakEnd' hlunch'
          rw [hlunch] at hlunch'
          rw [← (Prod.mk.inj (Option.some.inj hlunch')).2]
          exact Or.inr hreach
        · -- the afternoon is a single bar, which closes with the session
          have hend := le_gridBar hpos hgrid (by linarith : bar ≤ session.closes - 1)
          rw [hsingle] at hend
          have hbreakEnd : gridBar session length breakEnd ≤ breakEnd := gridBar_le hpos
          have hafternoon := @onGrid_gridBar session _ breakEnd hpos
            (by linarith)
          have hlate : session.closes - 1 < gridBar session length (session.closes - 1) + length :=
            lt_gridBar_add hpos
          rw [hsingle] at hlate
          rcases hend.lt_or_eq with hbefore | rfl
          · linarith [grid_step hgrid hafternoon hbefore]
          · omega
    · by_cases hcut : breakStart ≤ bar + length
      · rw [min_eq_right hcut]
        refine ⟨_, serves_breakStart hpos hgrid hlunch ?_ hcut⟩
        rcases hbreakStart with hbreakStart | hcover
        · exact hbreakStart
        · -- no bar that ends by the break end covers the break
          have hle := le_gridBar hpos hgrid (by linarith : bar ≤ breakStart - 1)
          have hlate : breakEnd < gridBar session length breakEnd + length := lt_gridBar_add hpos
          have hheld : gridBar session length (breakStart - 1) ≤ breakStart - 1 := gridBar_le hpos
          have hmorning := @onGrid_gridBar session _ (breakStart - 1) hpos
            (by linarith)
          rw [← hcover] at hlate
          rcases hle.lt_or_eq with hbefore | rfl
          · linarith [grid_step hgrid hmorning hbefore]
          · linarith
      · rw [not_le] at hcut
        rw [min_eq_left hcut.le]
        rcases hopens with hopens | ⟨hsingle, -⟩
        · refine ⟨_, serves_end hpos hgrid hopens (by linarith) ?_⟩
          intro breakStart' breakEnd' hlunch'
          rw [hlunch] at hlunch'
          rw [← (Prod.mk.inj (Option.some.inj hlunch')).1]
          exact Or.inl hcut.le
        · have hlate : breakStart - 1 < gridBar session length (breakStart - 1) + length :=
            lt_gridBar_add hpos
          rw [hsingle] at hlate
          linarith [hgrid.1]

theorem opens_of_boundary (hgrid : OnGrid session length bar) {limit : ℤ} (hlimit : length ∣ limit)
    (hnear : limit ≤ bar + length) (hdvd : length ∣ boundary) (hle : bar ≤ boundary)
    (hlt : boundary < limit) : length ∣ session.opens := by
  have hsub := le_sub_of_dvd hdvd hlimit hlt
  have heq : boundary = bar := by linarith
  rw [heq] at hdvd
  exact (dvd_iff_of_onGrid hgrid).mp hdvd

theorem meetsClock_of_serves (hpos : 0 < length)
    (h : ∀ bar close, OnGrid session length bar →
      barClose session.segments bar (bar + length) = some close →
      ∃ boundary, ServesBar session length bar close boundary) :
    MeetsClock session length := by
  have hopenClose := session.opens_lt_closes
  obtain ⟨hlastGrid, hlastClose⟩ := @barClose_last session _ hpos
  have hlastLe : gridBar session length (session.closes - 1) ≤ session.closes - 1 :=
    gridBar_le hpos
  have hlastLate : session.closes - 1 < gridBar session length (session.closes - 1) + length :=
    lt_gridBar_add hpos
  have hcloses : length ∣ session.closes := by
    obtain ⟨boundary, hdvd, hle, hle', -⟩ := h _ _ hlastGrid hlastClose
    rwa [le_antisymm hle' hle] at hdvd
  refine ⟨hcloses, ?_⟩
  cases hlunch : session.lunch with
  | none =>
    by_cases hsingle : session.closes ≤ session.opens + length
    · exact Or.inr hsingle
    · -- the bar before the last one ends inside the session
      left
      have hfirst : session.opens < gridBar session length (session.closes - 1) := by
        by_contra hle
        linarith [hlastGrid.1]
      have hgrid := onGrid_pred hlastGrid hfirst
      obtain ⟨boundary, hdvd, hle, -, -, hnext⟩ := h _ _ hgrid
        ((barClose_whole_iff hlunch).mpr ⟨by linarith, by linarith [hgrid.1], rfl⟩)
      rw [sub_add_cancel, min_eq_left (by linarith)] at hle
      have hlt := hnext _ _ hlastGrid (by linarith) hlastClose
      exact opens_of_boundary hlastGrid hcloses (by linarith) hdvd hle hlt
  | some lunch =>
    obtain ⟨breakStart, breakEnd⟩ := lunch
    obtain ⟨hopens, hlength, hlast⟩ := session.lunch_inside breakStart breakEnd hlunch
    dsimp only
    -- the last bar of the morning and the first one of the afternoon
    have hmorningGrid : OnGrid session length (gridBar session length (breakStart - 1)) :=
      onGrid_gridBar hpos (by linarith)
    have hmorningLe : gridBar session length (breakStart - 1) ≤ breakStart - 1 := gridBar_le hpos
    have hmorningLate : breakStart - 1 < gridBar session length (breakStart - 1) + length :=
      lt_gridBar_add hpos
    have hnoonGrid : OnGrid session length (gridBar session length breakEnd) :=
      onGrid_gridBar hpos (by linarith)
    have hnoonLe : gridBar session length breakEnd ≤ breakEnd := gridBar_le hpos
    have hnoonLate : breakEnd < gridBar session length breakEnd + length := lt_gridBar_add hpos
    have hnoonClose := (barClose_break_iff (x := gridBar session length breakEnd) hlunch).mpr
      (Or.inl ⟨by linarith, hnoonLate, rfl⟩)
    have horder : gridBar session length (breakStart - 1) ≤ gridBar session length breakEnd :=
      gridBar_mono hpos (by linarith) (by linarith)
    have hafternoon : length ∣ session.opens ∨
        gridBar session length (session.closes - 1) = gridBar session length breakEnd := by
      by_cases hsame : gridBar session length (session.closes - 1) = gridBar session length breakEnd
      · exact Or.inr hsame
      · left
        have hbefore : gridBar session length breakEnd <
            gridBar session length (session.closes - 1) :=
          lt_of_le_of_ne (gridBar_mono hpos (by linarith) (by linarith)) (Ne.symm hsame)
        have hstep := grid_step hnoonGrid hlastGrid hbefore
        have hgrid := onGrid_pred hlastGrid (by linarith [hnoonGrid.1])
        obtain ⟨boundary, hdvd, hle, -, -, hnext⟩ := h _ _ hgrid
          ((barClose_break_iff hlunch).mpr (Or.inl ⟨by linarith, by linarith, rfl⟩))
        rw [sub_add_cancel, min_eq_left (by linarith)] at hle
        have hlt := hnext _ _ hlastGrid (by linarith) hlastClose
        exact opens_of_boundary hlastGrid hcloses (by linarith) hdvd hle hlt
    have hbreakStart : length ∣ breakStart ∨
        gridBar session length (breakStart - 1) = gridBar session length breakEnd := by
      by_cases hsame : gridBar session length (breakStart - 1) = gridBar session length breakEnd
      · exact Or.inr hsame
      · left
        have hbefore := lt_of_le_of_ne horder hsame
        have hstep := grid_step hmorningGrid hnoonGrid hbefore
        obtain ⟨boundary, hdvd, hle, -, hbreak, hnext⟩ := h _ _ hmorningGrid
          ((barClose_break_iff hlunch).mpr
            (Or.inr ⟨by linarith, by linarith, by linarith, rfl⟩))
        rw [min_eq_right (by linarith)] at hle
        have hlt := hnext _ _ hnoonGrid hbefore hnoonClose
        rcases hbreak breakStart breakEnd hlunch with hbreak | hbreak
        · rwa [le_antisymm hbreak hle] at hdvd
        · -- there is no multiple between the break end and the end of the first afternoon bar
          exfalso
          rcases hafternoon with hopensDvd | hsingle
          · have hnoonDvd := (dvd_iff_of_onGrid hnoonGrid).mpr hopensDvd
            have hsub := le_sub_of_dvd hnoonDvd hdvd (by linarith)
            have := min_le_left (gridBar session length breakEnd + length) session.closes
            linarith
          · rw [hsingle] at hlastLate
            have hsub := le_sub_of_dvd hdvd hcloses (lt_of_lt_of_le hlt (min_le_right _ _))
            linarith
    refine ⟨hbreakStart, ?_⟩
    rcases hafternoon with hopensDvd | hsingle
    · exact Or.inl hopensDvd
    · by_cases hfirst : gridBar session length (breakStart - 1) = session.opens
      · exact Or.inr ⟨hfirst, hsingle⟩
      · -- the bar before the last one of the morning
        left
        have hbefore : session.opens < gridBar session length (breakStart - 1) :=
          lt_of_le_of_ne hmorningGrid.1 (Ne.symm hfirst)
        have hgrid := onGrid_pred hmorningGrid hbefore
        obtain ⟨boundary, hdvd, hle, -, -, hnext⟩ := h _ _ hgrid
          ((barClose_break_iff hlunch).mpr
            (Or.inr ⟨by linarith, by linarith [hgrid.1], by linarith, rfl⟩))
        rw [sub_add_cancel, min_eq_left (by linarith)] at hle
        by_cases hcover : gridBar session length (breakStart - 1) = gridBar session length breakEnd
        · -- the last bar of the morning is the last of the session
          rw [hcover, ← hsingle] at hle hgrid hmorningGrid hbefore hnext
          have hlt := hnext _ _ hlastGrid (by linarith) hlastClose
          exact opens_of_boundary hlastGrid hcloses (by linarith) hdvd hle hlt
        · have hstep := grid_step hmorningGrid hnoonGrid (lt_of_le_of_ne horder hcover)
          have hmorningClose := (barClose_break_iff (x := gridBar session length (breakStart - 1))
            (y := gridBar session length (breakStart - 1) + length) hlunch).mpr
              (Or.inr ⟨by linarith, by linarith, by linarith, rfl⟩)
          have hlt := hnext _ _ hmorningGrid (by linarith) hmorningClose
          exact opens_of_boundary hmorningGrid (hbreakStart.resolve_right hcover) (by linarith)
            hdvd hle (lt_of_lt_of_le hlt (min_le_right _ _))

end

/-! ## Events -/

section

variable {calendars : String → ExchangeCalendar} {calendar : ExchangeCalendar}
  {market frequency venue marketType : String} {session : Session} {bar close boundary : ℤ}

theorem seconds_lt_seconds {m n : ℤ} : seconds m < seconds n ↔ m < n := by
  rw [lt_seconds_iff, wholeSeconds_seconds]

theorem isEquityBarClose_iff (hmarket : marketCalendar calendars market = .ok calendar) :
    isEquityBarClose calendars market (seconds boundary) = true ↔
      ∃ session ∈ calendar.sessions, session.opens < boundary ∧ boundary ≤ session.closes ∧
        ∀ breakStart breakEnd, session.lunch = some (breakStart, breakEnd) →
          boundary ≤ breakStart ∨ breakEnd < boundary := by
  unfold marketCalendar at hmarket
  unfold isEquityBarClose
  cases hcode : calendarByMarket.lookup (strip market) with
  | none =>
    rw [hcode] at hmarket
    cases hmarket
  | some code =>
    rw [hcode] at hmarket
    have hcalendar : calendars code = calendar := Except.ok.inj hmarket
    dsimp only
    rw [hcalendar]
    have hwhole : seconds boundary / seconds 1 = boundary :=
      wholeSeconds_seconds boundary
    rw [hwhole]
    constructor
    · intro h
      cases hfound : calendar.session? (calendar.localDay boundary) with
      | none =>
        rw [hfound] at h
        cases h
      | some session =>
        rw [hfound] at h
        dsimp only at h
        rw [Bool.and_eq_true, decide_eq_true_iff, seconds_lt_seconds, seconds_le_seconds] at h
        refine ⟨session, (session?_eq_some_iff.mp hfound).1, h.1.1, h.1.2, ?_⟩
        intro breakStart breakEnd hlunch
        have hbreak := h.2
        rw [hlunch] at hbreak
        dsimp only at hbreak
        rw [Bool.not_eq_true', decide_eq_false_iff_not, seconds_lt_seconds,
          seconds_le_seconds] at hbreak
        omega
    · rintro ⟨session, hsession, hopens, hcloses, hbreak⟩
      have hday := calendar.localDay_session session hsession boundary hopens.le hcloses
      rw [session?_eq_some_iff.mpr ⟨hsession, hday.symm⟩]
      dsimp only
      rw [Bool.and_eq_true, decide_eq_true_iff, seconds_lt_seconds, seconds_le_seconds]
      refine ⟨⟨hopens, hcloses⟩, ?_⟩
      cases hlunch : session.lunch with
      | none => rfl
      | some lunch =>
        obtain ⟨breakStart, breakEnd⟩ := lunch
        have := hbreak breakStart breakEnd hlunch
        dsimp only
        rw [Bool.not_eq_true', decide_eq_false_iff_not, seconds_lt_seconds, seconds_le_seconds]
        omega

theorem hasOwnEvent_iff (hmarket : marketCalendar calendars market = .ok calendar)
    (hk : EndsOnDate market calendar) (hfrequency : frequency ∈ intradayFrequencies)
    (hsession : session ∈ calendar.sessions)
    (hgrid : OnGrid session (frequencySeconds frequency) bar)
    (hclose : barClose session.segments bar (bar + frequencySeconds frequency) = some close) :
    HasOwnEvent calendars calendar market frequency venue marketType session bar close ↔
      ∃ boundary, ServesBar session (frequencySeconds frequency) bar close boundary := by
  have hpos := frequencySeconds_pos frequency
  have hlength := (frequency_length hfrequency).2.2
  have hbegins := next_bounds hpos hgrid hclose
  constructor
  · rintro ⟨token, closedAt, _, hclosedAt, rfl, hpasses, hle, hnext, hlater, -⟩
    rw [completedBarClose_eq hfrequency] at hclosedAt
    rw [← Except.ok.inj hclosedAt, ofMicroseconds_seconds] at hpasses hle hnext hlater
    rw [seconds_le_seconds] at hle
    refine ⟨(token + 1) * frequencySeconds frequency, dvd_mul_left _ _, hle, ?_⟩
    obtain ⟨passed, hpassed, hopens, hcloses, hbreak⟩ := (isEquityBarClose_iff hmarket).mp hpasses
    have hsame : passed = session := by
      have hday := session.on_day
      have hday' := passed.on_day
      apply session_eq_of_day hpassed hsession
      rcases lt_trichotomy session.day passed.day with hlt | heq | hgt
      · exact absurd (seconds_lt_seconds.mp (hlater passed hpassed hlt)) (not_lt.mpr hopens.le)
      · exact heq.symm
      · have := hgrid.1
        omega
    subst hsame
    refine ⟨hcloses, hbreak, ?_⟩
    intro next nextClose hnextGrid hlt hnextClose
    exact seconds_lt_seconds.mp (hnext next nextClose hnextGrid hlt hnextClose)
  · rintro ⟨boundary, ⟨index, hindex⟩, hle, hcloses, hbreak, hnext⟩
    have hday := session.on_day
    refine ⟨index - 1, index * frequencySeconds frequency * oneSecond, seconds boundary, ?_, ?_,
      ?_, seconds_le_seconds.mpr hle, ?_, ?_, ?_⟩
    · rw [completedBarClose_eq hfrequency, sub_add_cancel]
    · rw [ofMicroseconds_seconds, hindex, mul_comm]
    · exact (isEquityBarClose_iff hmarket).mpr
        ⟨session, hsession, by linarith [hgrid.1], hcloses, hbreak⟩
    · intro next nextClose hnextGrid hlt hnextClose
      exact seconds_lt_seconds.mpr (hnext next nextClose hnextGrid hlt hnextClose)
    · intro later _ hlt
      have hdayLater := later.on_day
      exact seconds_lt_seconds.mpr (by omega)
    · constructor
      · refine (mem_acceptedBars_iff hk hlength).mpr ⟨session, hsession, hgrid, close, ?_, hclose⟩
        rwa [wholeSeconds_seconds]
      · intro other hother
        obtain ⟨owner, howner, hclosed⟩ := (mem_acceptedBars_iff hk hlength).mp hother
        have hbounds := closedBars_bounds hclosed hpos
        rw [wholeSeconds_seconds] at hclosed hbounds
        rcases lt_trichotomy session.day owner.day with hlt | heq | hgt
        · have hdayOwner := owner.on_day
          omega
        · rw [← session_eq_of_day hsession howner heq] at hclosed
          obtain ⟨hotherGrid, otherClose, hotherLe, hotherClose⟩ := hclosed
          by_contra hafter
          have := hnext other otherClose hotherGrid (not_le.mp hafter) hotherClose
          linarith
        · exact (lt_of_day_lt hpos hgt hclosed ⟨hgrid, close, hle, hclose⟩).le

end

/-- Every bar of a session has a bar-close event of its own exactly where the grid of the clock
meets the session. -/
theorem own_events_iff {calendars : String → ExchangeCalendar} {calendar : ExchangeCalendar}
    {market frequency venue marketType : String} {session : Session}
    (hmarket : marketCalendar calendars market = .ok calendar) (hk : EndsOnDate market calendar)
    (hfrequency : frequency ∈ intradayFrequencies) (hsession : session ∈ calendar.sessions) :
    (∀ bar close, OnGrid session (frequencySeconds frequency) bar →
      barClose session.segments bar (bar + frequencySeconds frequency) = some close →
      HasOwnEvent calendars calendar market frequency venue marketType session bar close) ↔
    MeetsClock session (frequencySeconds frequency) := by
  have hpos := frequencySeconds_pos frequency
  constructor
  · intro h
    apply meetsClock_of_serves hpos
    intro bar close hgrid hclose
    exact (hasOwnEvent_iff hmarket hk hfrequency hsession hgrid hclose).mp
      (h bar close hgrid hclose)
  · intro hmeets bar close hgrid hclose
    exact (hasOwnEvent_iff hmarket hk hfrequency hsession hgrid hclose).mpr
      (serves_of_meetsClock hpos hmeets hgrid hclose)

theorem own_events_halfHourly :
    ((∀ bar close, OnGrid (hongKongDay 20000) (frequencySeconds "30m") bar →
      barClose (hongKongDay 20000).segments bar (bar + frequencySeconds "30m") = some close →
      HasOwnEvent (fun _ => hongKongDays) hongKongDays "HKStock" "30m" "" "spot"
        (hongKongDay 20000) bar close) ↔
      MeetsClock (hongKongDay 20000) (frequencySeconds "30m")) ∧
    MeetsClock (hongKongDay 20000) (frequencySeconds "30m") := by
  refine ⟨own_events_iff (marketCalendar_hongKong _) hongKongDays_ends (by decide)
    List.mem_cons_self, ?_⟩
  have hlength : frequencySeconds "30m" = 1800 := by decide +kernel
  rw [hlength]
  exact ⟨by decide, Or.inl (by decide), Or.inl (by decide)⟩

def newYorkDay (day : ℤ) : Session where
  day
  opens := day * 86400 + 52200
  closes := day * 86400 + 75600
  lunch := none
  opens_lt_closes := by omega
  lunch_inside _ _ h := nomatch h
  on_day := by omega

def newYorkDays : ExchangeCalendar where
  sessions := [newYorkDay 20000]
  localDay instant := (instant - 18000) / 86400
  midnight day := day * 86400 + 18000
  increasing := List.pairwise_singleton _ _
  localDay_session session h instant hopens hcloses := by
    rw [List.mem_singleton.mp h] at hopens hcloses ⊢
    simp only [newYorkDay] at hopens hcloses ⊢
    omega

/-- Hourly bars in New York: between the close of the bar of half past seven and the close of the
session there is no whole hour. -/
theorem hourly_bars_without_event :
    ¬ ∀ (calendars : String → ExchangeCalendar) (calendar : ExchangeCalendar)
        (market frequency venue marketType : String) (session : Session) (bar close : ℤ),
      marketCalendar calendars market = .ok calendar → EndsOnDate market calendar →
      frequency ∈ intradayFrequencies → session ∈ calendar.sessions →
      OnGrid session (frequencySeconds frequency) bar →
      barClose session.segments bar (bar + frequencySeconds frequency) = some close →
      HasOwnEvent calendars calendar market frequency venue marketType session bar close := by
  intro h
  have hcode : calendarByMarket.lookup (strip "USStock") = some "XNYS" := by decide +kernel
  have hmarket : marketCalendar (fun _ => newYorkDays) "USStock" = .ok newYorkDays := by
    unfold marketCalendar
    rw [hcode]
  have hends : EndsOnDate "USStock" newYorkDays := fun hmarket => absurd hmarket (by decide)
  have hlength : frequencySeconds "1h" = 3600 := by decide +kernel
  have hfrequency : "1h" ∈ intradayFrequencies := by decide
  have hsession : newYorkDay 20000 ∈ newYorkDays.sessions := List.mem_cons_self
  have hmeets : MeetsClock (newYorkDay 20000) (frequencySeconds "1h") := by
    apply meetsClock_of_serves (frequencySeconds_pos _)
    intro bar close hgrid hclose
    exact (hasOwnEvent_iff hmarket hends hfrequency hsession hgrid hclose).mp
      (h _ _ _ _ "" "spot" _ bar close hmarket hends hfrequency hsession hgrid hclose)
  rw [hlength] at hmeets
  rcases hmeets.2 with hopens | hsingle
  · exact absurd hopens (by decide)
  · exact absurd hsingle (by decide)

end QuantDinger.Analysis
