import QuantDinger.Analysis.SessionGrid
import QuantDinger.Model.CandleReadiness
import Mathlib.Order.Bounds.Basic

/-!
# The newest closed bar

`equity_intraday_bar_open` looks for the newest closed bar by its index in a segment, walking the
sessions backwards, where the filter of closed rows intersects a bar with the segments. Inside a bar
that covers the whole break the walk tries that bar only and then leaves the session, so the bars
that closed before it are missed until it closes.
-/

namespace QuantDinger.Analysis

open QuantDinger.Model QuantDinger.Model.Equity QuantDinger.Model.Events

/-! ## Closed bars -/

/-- The bars of a session that have closed by an instant. -/
def closedBars (session : Session) (length instant : ℤ) : Set ℤ :=
  {bar | OnGrid session length bar ∧
    ∃ close ≤ instant, barClose session.segments bar (bar + length) = some close}

/-- The bar that holds the last second of the morning covers the whole break, is not the first of
its session, and has not closed although the break has begun. -/
def HiddenByBreak (session : Session) (length instant : ℤ) : Prop :=
  ∃ breakStart breakEnd, session.lunch = some (breakStart, breakEnd) ∧ breakStart ≤ instant ∧
    session.opens < gridBar session length (breakStart - 1) ∧
    breakEnd < gridBar session length (breakStart - 1) + length ∧
    instant < gridBar session length (breakStart - 1) + length ∧ instant < session.closes

/-! ## One segment of the walk -/

section

variable {session : Session} {length : ℤ} {current : Time} {segment : ℤ × ℤ}

theorem runningIndex_eq (opens length t : ℤ) :
    (t - seconds opens) / seconds length = (wholeSeconds t - opens) / length := by
  have hsub : (t - opens * 1000000000) / 1000000000 = t / 1000000000 - opens := by omega
  change (t - opens * 1000000000) / (length * 1000000000) = (t / 1000000000 - opens) / length
  rw [mul_comm length, ← Int.ediv_ediv_of_nonneg (by norm_num), hsub]

theorem segmentBar_over (hpos : 0 < length) (h : segment ∈ session.segments)
    (hover : segment.2 ≤ wholeSeconds current) {close : ℤ}
    (hclose : barClose session.segments (gridBar session length (segment.2 - 1))
      (gridBar session length (segment.2 - 1) + length) = some close) :
    segmentBar session length current segment = .ok
      (if wholeSeconds current < close then none
        else some (seconds (gridBar session length (segment.2 - 1)))) := by
  obtain ⟨hopens, hne, -⟩ := segments_within h
  have hindex : max 0 ((segment.2 - session.opens - 1) / length) =
      (segment.2 - 1 - session.opens) / length := by
    have hnonneg : 0 ≤ (segment.2 - 1 - session.opens) / length :=
      Int.ediv_nonneg (by linarith) hpos.le
    rw [sub_right_comm, max_eq_right hnonneg]
  have hlater : segment.2 - 1 < gridBar session length (segment.2 - 1) + length :=
    lt_gridBar_add hpos
  unfold segmentBar
  dsimp only
  rw [if_pos (seconds_le_iff.mpr hover), hindex]
  change (if gridBar session length (segment.2 - 1) + length ≤ segment.1 then _ else _) = _
  rw [if_neg (by linarith)]
  unfold gridBar at hclose ⊢
  rw [hclose]
  dsimp only
  simp only [lt_seconds_iff, apply_ite Except.ok]

theorem segmentBar_running (hpos : 0 < length)
    (hrunning : wholeSeconds current < segment.2)
    (hfirst : session.opens + length ≤ wholeSeconds current)
    (hclose : segment.1 < gridBar session length (wholeSeconds current) →
      barClose session.segments (gridBar session length (wholeSeconds current) - length)
        (gridBar session length (wholeSeconds current)) =
          some (gridBar session length (wholeSeconds current))) :
    segmentBar session length current segment = .ok
      (if gridBar session length (wholeSeconds current) ≤ segment.1 then none
        else some (seconds (gridBar session length (wholeSeconds current) - length))) := by
  have hstart : session.opens +
      ((current - seconds session.opens) / seconds length - 1) * length =
        gridBar session length (wholeSeconds current) - length := by
    rw [runningIndex_eq]
    unfold gridBar
    ring
  have hle : gridBar session length (wholeSeconds current) ≤ wholeSeconds current :=
    gridBar_le hpos
  unfold segmentBar
  dsimp only
  rw [if_neg (not_le.mpr (lt_seconds_iff.mpr hrunning)), if_pos (seconds_le_iff.mpr hfirst)]
  dsimp only
  rw [hstart, sub_add_cancel]
  by_cases hbefore : gridBar session length (wholeSeconds current) ≤ segment.1
  · rw [if_pos hbefore, if_pos hbefore]
  · rw [if_neg hbefore, if_neg hbefore, hclose (not_le.mp hbefore)]
    dsimp only
    rw [if_neg (not_lt.mpr (seconds_le_iff.mpr hle))]

theorem segmentBar_waiting (hrunning : wholeSeconds current < segment.2)
    (hfirst : wholeSeconds current < session.opens + length) :
    segmentBar session length current segment = .ok none := by
  unfold segmentBar
  dsimp only
  rw [if_neg (not_le.mpr (lt_seconds_iff.mpr hrunning)),
    if_neg (not_le.mpr (lt_seconds_iff.mpr hfirst))]

end

/-! ## One session of the walk -/

section

variable {ε α β : Type} {f : α → Except ε (Option β)} {a : α} {l : List α}

theorem findSomeM?_of_none (h : f a = .ok none) : (a :: l).findSomeM? f = l.findSomeM? f := by
  rw [List.findSomeM?_cons, h]
  rfl

theorem findSomeM?_of_some {b : β} (h : f a = .ok (some b)) :
    (a :: l).findSomeM? f = .ok (some b) := by
  rw [List.findSomeM?_cons, h]
  rfl

end

section

variable {session : Session} {length : ℤ} {current : Time}

/-- The bar of a session the walk stops at, if any. -/
def sessionBar (session : Session) (length : ℤ) (current : Time) :
    Except ScheduleError (Option Time) :=
  session.segments.reverse.findSomeM? (segmentBar session length current)

/-- What is to be shown of a session: the walk stops at its newest closed bar, or it has none, or
the break hides them. -/
def WalksSession (session : Session) (length : ℤ) (current : Time) : Prop :=
  (∃ bar, sessionBar session length current = .ok (some (seconds bar)) ∧
    IsGreatest (closedBars session length (wholeSeconds current)) bar) ∨
  (sessionBar session length current = .ok none ∧
    (closedBars session length (wholeSeconds current) = ∅ ∨
      HiddenByBreak session length (wholeSeconds current)))

theorem barClose_last (hpos : 0 < length) :
    OnGrid session length (gridBar session length (session.closes - 1)) ∧
      barClose session.segments (gridBar session length (session.closes - 1))
        (gridBar session length (session.closes - 1) + length) = some session.closes := by
  have hopens := session.opens_lt_closes
  have hle : gridBar session length (session.closes - 1) ≤ session.closes - 1 := gridBar_le hpos
  have hlater : session.closes - 1 < gridBar session length (session.closes - 1) + length :=
    lt_gridBar_add hpos
  have hgrid : OnGrid session length (gridBar session length (session.closes - 1)) :=
    onGrid_gridBar hpos (by linarith)
  refine ⟨hgrid, ?_⟩
  cases hlunch : session.lunch with
  | none =>
    rw [barClose_whole_iff hlunch, min_eq_right (by linarith)]
    exact ⟨by linarith, by linarith [hgrid.1], rfl⟩
  | some lunch =>
    obtain ⟨breakStart, breakEnd⟩ := lunch
    obtain ⟨-, -, hcloses⟩ := session.lunch_inside breakStart breakEnd hlunch
    rw [barClose_break_iff hlunch, min_eq_right (by linarith)]
    exact Or.inl ⟨by linarith, by linarith, rfl⟩

theorem walksSession_whole (hpos : 0 < length) (hlunch : session.lunch = none) :
    WalksSession session length current := by
  have hopens := session.opens_lt_closes
  have hsegments : session.segments = [(session.opens, session.closes)] := by
    unfold Session.segments
    rw [hlunch]
  have hmem : (session.opens, session.closes) ∈ session.segments := by
    rw [hsegments]
    exact List.mem_cons_self
  unfold WalksSession sessionBar closedBars
  rw [show session.segments.reverse = [(session.opens, session.closes)] by
    rw [hsegments]; rfl]
  simp only [barClose_whole_iff hlunch]
  by_cases hover : session.closes ≤ wholeSeconds current
  · -- the session is over, and its last bar closes with it
    obtain ⟨hgrid, hclose⟩ := @barClose_last session _ hpos
    left
    refine ⟨gridBar session length (session.closes - 1), ?_, ?_⟩
    · apply findSomeM?_of_some
      rw [segmentBar_over hpos hmem hover hclose, if_neg (not_lt.mpr hover)]
    · constructor
      · exact ⟨hgrid, session.closes, hover, (barClose_whole_iff hlunch).mp hclose⟩
      · rintro bar ⟨hbar, close, -, hlt, -⟩
        exact le_gridBar hpos hbar (by linarith)
  · by_cases hfirst : session.opens + length ≤ wholeSeconds current
    · -- the session runs, and a bar has ended
      have hle : gridBar session length (wholeSeconds current) ≤ wholeSeconds current :=
        gridBar_le hpos
      have hgrid : OnGrid session length (gridBar session length (wholeSeconds current) - length) :=
        onGrid_sub hpos hfirst
      have hclose : barClose session.segments
          (gridBar session length (wholeSeconds current) - length)
          (gridBar session length (wholeSeconds current)) =
            some (gridBar session length (wholeSeconds current)) := by
        rw [barClose_whole_iff hlunch]
        refine ⟨by linarith, by linarith [hgrid.1], ?_⟩
        rw [min_eq_left (by linarith)]
      left
      refine ⟨gridBar session length (wholeSeconds current) - length, ?_, ?_⟩
      · apply findSomeM?_of_some
        rw [segmentBar_running hpos (not_le.mp hover) hfirst fun _ => hclose,
          if_neg (by linarith [hgrid.1])]
      · constructor
        · refine ⟨hgrid, gridBar session length (wholeSeconds current), hle, ?_⟩
          rw [sub_add_cancel]
          exact (barClose_whole_iff hlunch).mp hclose
        · rintro bar ⟨hbar, close, hcloseLe, -, -, rfl⟩
          have hend : bar + length ≤ wholeSeconds current := by
            rcases min_le_iff.mp hcloseLe with h | h
            · exact h
            · exact absurd h hover
          linarith [add_le_gridBar hpos hbar hend]
    · right
      refine ⟨findSomeM?_of_none (segmentBar_waiting (not_le.mp hover) (not_le.mp hfirst)), ?_⟩
      left
      refine Set.eq_empty_of_forall_notMem ?_
      rintro bar ⟨hbar, close, hcloseLe, -, -, rfl⟩
      rcases min_le_iff.mp hcloseLe with h | h
      · linarith [hbar.1]
      · exact hover h

section

variable {breakStart breakEnd : ℤ}

theorem segments_break (hlunch : session.lunch = some (breakStart, breakEnd)) :
    session.segments = [(session.opens, breakStart), (breakEnd, session.closes)] := by
  unfold Session.segments
  rw [hlunch]

theorem sessionBar_break (hlunch : session.lunch = some (breakStart, breakEnd)) :
    sessionBar session length current =
      [(breakEnd, session.closes), (session.opens, breakStart)].findSomeM?
        (segmentBar session length current) := by
  unfold sessionBar
  rw [segments_break hlunch]
  rfl

theorem segmentBar_afternoon (hpos : 0 < length) (hrunning : wholeSeconds current < session.closes)
    (hnone : ∀ bar, OnGrid session length bar → bar + length ≤ wholeSeconds current →
      bar + length ≤ breakEnd) :
    segmentBar session length current (breakEnd, session.closes) = .ok none := by
  by_cases hfirst : session.opens + length ≤ wholeSeconds current
  · have hend := hnone _ (onGrid_sub hpos hfirst) (by
      rw [sub_add_cancel]
      exact gridBar_le hpos)
    rw [sub_add_cancel] at hend
    rw [segmentBar_running hpos hrunning hfirst fun h => absurd h (not_lt.mpr hend), if_pos hend]
  · exact segmentBar_waiting hrunning (not_le.mp hfirst)

theorem barClose_lastMorning (hpos : 0 < length)
    (hlunch : session.lunch = some (breakStart, breakEnd)) :
    OnGrid session length (gridBar session length (breakStart - 1)) ∧
      barClose session.segments (gridBar session length (breakStart - 1))
        (gridBar session length (breakStart - 1) + length) =
          some (if breakEnd < gridBar session length (breakStart - 1) + length then
            min (gridBar session length (breakStart - 1) + length) session.closes
          else breakStart) := by
  obtain ⟨hopens, hlength, hcloses⟩ := session.lunch_inside breakStart breakEnd hlunch
  have hle : gridBar session length (breakStart - 1) ≤ breakStart - 1 := gridBar_le hpos
  have hlater : breakStart - 1 < gridBar session length (breakStart - 1) + length :=
    lt_gridBar_add hpos
  have hgrid : OnGrid session length (gridBar session length (breakStart - 1)) :=
    onGrid_gridBar hpos (by linarith)
  refine ⟨hgrid, ?_⟩
  rw [barClose_break_iff hlunch]
  split_ifs with hcover
  · exact Or.inl ⟨by linarith, hcover, rfl⟩
  · refine Or.inr ⟨by linarith, by linarith [hgrid.1], not_lt.mp hcover, ?_⟩
    rw [min_eq_right (by linarith)]

theorem walksSession_break (hpos : 0 < length)
    (hlunch : session.lunch = some (breakStart, breakEnd)) :
    WalksSession session length current := by
  obtain ⟨hopens, hlength, hcloses⟩ := session.lunch_inside breakStart breakEnd hlunch
  have hmorning : (session.opens, breakStart) ∈ session.segments := by
    rw [segments_break hlunch]
    exact List.mem_cons_self
  have hafternoon : (breakEnd, session.closes) ∈ session.segments := by
    rw [segments_break hlunch]
    exact List.mem_cons_of_mem _ List.mem_cons_self
  have hle : gridBar session length (wholeSeconds current) ≤ wholeSeconds current :=
    gridBar_le hpos
  unfold WalksSession closedBars
  rw [sessionBar_break hlunch]
  simp only [barClose_break_iff hlunch]
  by_cases hover : session.closes ≤ wholeSeconds current
  · -- the session is over, and its last bar closes with it
    obtain ⟨hgrid, hclose⟩ := @barClose_last session _ hpos
    left
    refine ⟨gridBar session length (session.closes - 1), ?_, ?_⟩
    · apply findSomeM?_of_some
      rw [segmentBar_over hpos hafternoon hover hclose, if_neg (not_lt.mpr hover)]
    · constructor
      · exact ⟨hgrid, session.closes, hover, (barClose_break_iff hlunch).mp hclose⟩
      · rintro bar ⟨hbar, close, -, hshape⟩
        refine le_gridBar hpos hbar ?_
        omega
  · rw [not_le] at hover
    by_cases hended : session.opens + length ≤ wholeSeconds current ∧
        breakEnd < gridBar session length (wholeSeconds current)
    · -- a bar has ended in the afternoon
      obtain ⟨hfirst, hreach⟩ := hended
      have hgrid := onGrid_sub hpos hfirst
      have hclose : barClose session.segments
          (gridBar session length (wholeSeconds current) - length)
          (gridBar session length (wholeSeconds current)) =
            some (gridBar session length (wholeSeconds current)) := by
        rw [barClose_break_iff hlunch]
        refine Or.inl ⟨by linarith, hreach, ?_⟩
        rw [min_eq_left (by linarith)]
      left
      refine ⟨gridBar session length (wholeSeconds current) - length, ?_, ?_⟩
      · apply findSomeM?_of_some
        rw [segmentBar_running hpos hover hfirst fun _ => hclose, if_neg (not_le.mpr hreach)]
      · constructor
        · refine ⟨hgrid, gridBar session length (wholeSeconds current), hle, ?_⟩
          rw [sub_add_cancel]
          exact (barClose_break_iff hlunch).mp hclose
        · rintro bar ⟨hbar, close, hcloseLe, hshape⟩
          have hend : bar + length ≤ wholeSeconds current := by omega
          linarith [add_le_gridBar hpos hbar hend]
    · -- no bar that reaches the afternoon has ended
      have hnone : ∀ bar, OnGrid session length bar → bar + length ≤ wholeSeconds current →
          bar + length ≤ breakEnd := by
        intro bar hbar hend
        have hgridEnd := add_le_gridBar hpos hbar hend
        by_contra hreach
        exact hended ⟨by linarith [hbar.1], by linarith⟩
      rw [findSomeM?_of_none (segmentBar_afternoon hpos hover hnone)]
      obtain ⟨hlastGrid, hlastClose⟩ := barClose_lastMorning hpos hlunch
      have hlastLe : gridBar session length (breakStart - 1) ≤ breakStart - 1 := gridBar_le hpos
      have hlastLater : breakStart - 1 < gridBar session length (breakStart - 1) + length :=
        lt_gridBar_add hpos
      by_cases hbreak : breakStart ≤ wholeSeconds current
      · by_cases hcover : breakEnd < gridBar session length (breakStart - 1) + length
        · -- the last bar of the morning covers the break and has not closed
          rw [if_pos hcover] at hlastClose
          have hopen : wholeSeconds current <
              gridBar session length (breakStart - 1) + length := by
            by_contra hend
            exact absurd (hnone _ hlastGrid (not_lt.mp hend)) (not_le.mpr hcover)
          right
          refine ⟨findSomeM?_of_none ?_, ?_⟩
          · rw [segmentBar_over hpos hmorning hbreak hlastClose, if_pos (lt_min hopen hover)]
          · by_cases hfirst : session.opens < gridBar session length (breakStart - 1)
            · exact Or.inr ⟨breakStart, breakEnd, hlunch, hbreak, hfirst, hcover, hopen, hover⟩
            · left
              refine Set.eq_empty_of_forall_notMem ?_
              rintro bar ⟨hbar, close, hcloseLe, hshape⟩
              rcases hshape with ⟨-, hreach, rfl⟩ | ⟨hstart, -, hend, rfl⟩
              · have hended' : bar + length ≤ wholeSeconds current := by omega
                exact absurd (hnone bar hbar hended') (not_le.mpr hreach)
              · have hlastBar := le_gridBar hpos hbar (by linarith : bar ≤ breakStart - 1)
                linarith [hbar.1]
        · rw [if_neg hcover] at hlastClose
          left
          refine ⟨gridBar session length (breakStart - 1), ?_, ?_⟩
          · apply findSomeM?_of_some
            rw [segmentBar_over hpos hmorning hbreak hlastClose, if_neg (not_lt.mpr hbreak)]
          · constructor
            · exact ⟨hlastGrid, breakStart, hbreak, (barClose_break_iff hlunch).mp hlastClose⟩
            · rintro bar ⟨hbar, close, hcloseLe, hshape⟩
              rcases hshape with ⟨-, hreach, rfl⟩ | ⟨hstart, -, -, -⟩
              · have hended' : bar + length ≤ wholeSeconds current := by omega
                exact absurd (hnone bar hbar hended') (not_le.mpr hreach)
              · exact le_gridBar hpos hbar (by linarith)
      · rw [not_le] at hbreak
        by_cases hfirst : session.opens + length ≤ wholeSeconds current
        · have hgrid := onGrid_sub hpos hfirst
          have hclose : barClose session.segments
              (gridBar session length (wholeSeconds current) - length)
              (gridBar session length (wholeSeconds current)) =
                some (gridBar session length (wholeSeconds current)) := by
            rw [barClose_break_iff hlunch]
            refine Or.inr ⟨by linarith, by linarith [hgrid.1], by linarith, ?_⟩
            rw [min_eq_left (by linarith)]
          left
          refine ⟨gridBar session length (wholeSeconds current) - length, ?_, ?_⟩
          · apply findSomeM?_of_some
            rw [segmentBar_running hpos hbreak hfirst fun _ => hclose,
              if_neg (by linarith [hgrid.1])]
          · constructor
            · refine ⟨hgrid, gridBar session length (wholeSeconds current), hle, ?_⟩
              rw [sub_add_cancel]
              exact (barClose_break_iff hlunch).mp hclose
            · rintro bar ⟨hbar, close, hcloseLe, hshape⟩
              have hend : bar + length ≤ wholeSeconds current := by omega
              linarith [add_le_gridBar hpos hbar hend]
        · right
          refine ⟨findSomeM?_of_none (segmentBar_waiting hbreak (not_le.mp hfirst)), ?_⟩
          left
          refine Set.eq_empty_of_forall_notMem ?_
          rintro bar ⟨hbar, close, hcloseLe, hshape⟩
          have hend : bar + length ≤ wholeSeconds current := by omega
          linarith [hbar.1]

end

theorem walksSession (hpos : 0 < length) : WalksSession session length current := by
  cases hlunch : session.lunch with
  | none => exact walksSession_whole hpos hlunch
  | some lunch => exact walksSession_break hpos hlunch

theorem hidden_session (hpos : 0 < length)
    (h : HiddenByBreak session length (wholeSeconds current)) :
    sessionBar session length current = .ok none ∧
      ∃ bar, bar ∈ closedBars session length (wholeSeconds current) := by
  obtain ⟨breakStart, breakEnd, hlunch, hbreak, hfirst, hcover, hopen, hover⟩ := h
  obtain ⟨hopens, hlength, hcloses⟩ := session.lunch_inside breakStart breakEnd hlunch
  obtain ⟨hlastGrid, hlastClose⟩ := barClose_lastMorning hpos hlunch
  have hlastLe : gridBar session length (breakStart - 1) ≤ breakStart - 1 := gridBar_le hpos
  constructor
  · have hmorning : (session.opens, breakStart) ∈ session.segments := by
      rw [segments_break hlunch]
      exact List.mem_cons_self
    have hnone : ∀ bar, OnGrid session length bar → bar + length ≤ wholeSeconds current →
        bar + length ≤ breakEnd := by
      intro bar hbar hend
      have hbefore : bar < gridBar session length (breakStart - 1) := by linarith
      linarith [grid_step hbar hlastGrid hbefore]
    rw [if_pos hcover] at hlastClose
    rw [sessionBar_break hlunch, findSomeM?_of_none (segmentBar_afternoon hpos hover hnone)]
    apply findSomeM?_of_none
    rw [segmentBar_over hpos hmorning hbreak hlastClose, if_pos (lt_min hopen hover)]
  · -- the bar before the one that covers the break
    have hstep : session.opens + length ≤ gridBar session length (breakStart - 1) :=
      grid_step ⟨le_rfl, by simp⟩ hlastGrid hfirst
    refine ⟨gridBar session length (breakStart - 1) - length, ⟨by linarith, ?_⟩,
      gridBar session length (breakStart - 1), by linarith, ?_⟩
    · have heq : gridBar session length (breakStart - 1) - length - session.opens =
          (gridBar session length (breakStart - 1) - session.opens) - length := by ring
      rw [heq]
      exact dvd_sub hlastGrid.2 (dvd_refl length)
    · rw [sub_add_cancel, barClose_break_iff hlunch]
      refine Or.inr ⟨by linarith, by linarith, by linarith, ?_⟩
      rw [min_eq_left (by linarith)]

end

/-! ## The walk over the sessions -/

section

variable {calendar : ExchangeCalendar} {market : String} {session other : Session}
  {length bar instant later : ℤ} {current : Time}

theorem closedBars_bounds (h : bar ∈ closedBars session length instant) (hpos : 0 < length) :
    session.opens ≤ bar ∧ bar < session.closes ∧ bar < instant := by
  obtain ⟨hgrid, close, hle, hclose⟩ := h
  obtain ⟨⟨segment, hsegment, hend, -, hmin⟩, -⟩ :=
    (barClose_eq_some_iff_all session.segments).mp hclose
  obtain ⟨-, -, hcloses⟩ := segments_within hsegment
  have hlt : bar < close := by
    rw [hmin]
    exact lt_min (by linarith) hend
  exact ⟨hgrid.1, by linarith, by linarith⟩

theorem closedBars_mono (h : instant ≤ later) :
    closedBars session length instant ⊆ closedBars session length later := by
  rintro bar ⟨hgrid, close, hle, hclose⟩
  exact ⟨hgrid, close, hle.trans h, hclose⟩

theorem lt_of_day_lt {bar' : ℤ} (hpos : 0 < length) (hday : session.day < other.day)
    (hbar : bar ∈ closedBars session length instant)
    (hbar' : bar' ∈ closedBars other length instant) : bar < bar' := by
  have h1 := closedBars_bounds hbar hpos
  have h2 := closedBars_bounds hbar' hpos
  have h3 := session.on_day
  have h4 := other.on_day
  omega

theorem closedBars_of_completed (hpos : 0 < length) (h : session.closes ≤ instant) :
    (closedBars session length instant).Nonempty ∧ ¬ HiddenByBreak session length instant := by
  obtain ⟨hgrid, hclose⟩ := @barClose_last session _ hpos
  constructor
  · exact ⟨_, hgrid, session.closes, h, hclose⟩
  · rintro ⟨-, -, -, -, -, -, -, hover⟩
    exact absurd h (not_le.mpr hover)

theorem walk_back (hpos : 0 < length) {sessions : List Session}
    (hsorted : sessions.Pairwise fun later earlier => earlier.day < later.day)
    (hsome : ∃ session ∈ sessions,
      (closedBars session length (wholeSeconds current)).Nonempty ∧
        ¬ HiddenByBreak session length (wholeSeconds current)) :
    ∃ session ∈ sessions, ∃ bar,
      sessions.findSomeM? (sessionBar · length current) = .ok (some (seconds bar)) ∧
      sessionBar session length current = .ok (some (seconds bar)) ∧
      IsGreatest (closedBars session length (wholeSeconds current)) bar ∧
      ∀ other ∈ sessions, session.day < other.day →
        closedBars other length (wholeSeconds current) = ∅ ∨
          HiddenByBreak other length (wholeSeconds current) := by
  induction sessions with
  | nil =>
    obtain ⟨session, hsession, -⟩ := hsome
    exact nomatch hsession
  | cons first rest ih =>
    obtain ⟨hfirst, hrest⟩ := List.pairwise_cons.mp hsorted
    rcases @walksSession first _ current hpos with
      ⟨bar, hbar, hgreatest⟩ | ⟨hnone, hwhy⟩
    · refine ⟨first, List.mem_cons_self, bar, findSomeM?_of_some hbar, hbar, hgreatest, ?_⟩
      intro other hother hday
      rcases List.mem_cons.mp hother with rfl | hother
      · exact absurd hday (lt_irrefl _)
      · exact absurd (hfirst other hother) (not_lt.mpr hday.le)
    · have hsome' : ∃ session ∈ rest,
          (closedBars session length (wholeSeconds current)).Nonempty ∧
            ¬ HiddenByBreak session length (wholeSeconds current) := by
        obtain ⟨session, hsession, hnonempty, hshown⟩ := hsome
        rcases List.mem_cons.mp hsession with rfl | hsession
        · rcases hwhy with hempty | hhidden
          · exact absurd hempty hnonempty.ne_empty
          · exact absurd hhidden hshown
        · exact ⟨session, hsession, hnonempty, hshown⟩
      obtain ⟨session, hsession, bar, hfound, hbar, hgreatest, hlater⟩ := ih hrest hsome'
      refine ⟨session, List.mem_cons_of_mem _ hsession, bar,
        (findSomeM?_of_none (f := (sessionBar · length current)) hnone).trans hfound, hbar,
        hgreatest, ?_⟩
      intro other hother hday
      rcases List.mem_cons.mp hother with rfl | hother
      · exact hwhy
      · exact hlater other hother hday

/-- A session of the calendar has ended within the last twenty days. -/
def CompletedLately (calendar : ExchangeCalendar) (current : Time) : Prop :=
  ∃ session ∈ calendar.sessions, seconds session.closes ≤ current ∧
    current - 20 * dayLength ≤ seconds session.closes

def walkedSessions (calendar : ExchangeCalendar) (current : Time) : List Session :=
  (calendar.sessionsInRange (dayOf (current - 20 * dayLength)) (dayOf current)).reverse

theorem mem_walkedSessions_iff :
    session ∈ walkedSessions calendar current ↔ session ∈ calendar.sessions ∧
      dayOf (current - 20 * dayLength) ≤ session.day ∧ session.day ≤ dayOf current := by
  unfold walkedSessions ExchangeCalendar.sessionsInRange
  rw [List.mem_reverse, List.mem_filter, decide_eq_true_iff]

theorem walkedSessions_sorted :
    (walkedSessions calendar current).Pairwise fun later earlier => earlier.day < later.day := by
  unfold walkedSessions ExchangeCalendar.sessionsInRange
  rw [List.pairwise_reverse]
  exact calendar.increasing.filter _

theorem mem_walkedSessions_of_completed (hsession : session ∈ calendar.sessions)
    (h : seconds session.closes ≤ current)
    (h' : current - 20 * dayLength ≤ seconds session.closes) :
    session ∈ walkedSessions calendar current := by
  have hday := session.on_day
  have hopens := session.opens_lt_closes
  refine mem_walkedSessions_iff.mpr ⟨hsession, ?_, ?_⟩
  · have hwhole := wholeSeconds_mono h'
    rw [wholeSeconds_seconds] at hwhole
    rw [dayOf_eq]
    omega
  · rw [seconds_le_iff] at h
    rw [dayOf_eq]
    omega

theorem day_le_of_closed (hpos : 0 < length)
    (h : (closedBars session length (wholeSeconds current)).Nonempty) :
    session.day ≤ dayOf current := by
  obtain ⟨bar, hbar⟩ := h
  have hbounds := closedBars_bounds hbar hpos
  have hday := session.on_day
  rw [dayOf_eq]
  omega

theorem intradayBarOpen_spec {calendars : String → ExchangeCalendar}
    (hmarket : marketCalendar calendars market = .ok calendar) (hpos : 0 < length)
    (hcompleted : CompletedLately calendar current) :
    ∃ session ∈ calendar.sessions, ∃ bar,
      equityIntradayBarOpen calendars market length current = .ok (seconds bar) ∧
      sessionBar session length current = .ok (some (seconds bar)) ∧
      IsGreatest (closedBars session length (wholeSeconds current)) bar ∧
      ∀ other ∈ calendar.sessions, session.day < other.day →
        closedBars other length (wholeSeconds current) = ∅ ∨
          HiddenByBreak other length (wholeSeconds current) := by
  obtain ⟨ended, hended, hcloses, hlately⟩ := hcompleted
  have hwalked := mem_walkedSessions_of_completed hended hcloses hlately
  rw [seconds_le_iff] at hcloses
  obtain ⟨session, hsession, bar, hfound, hbar, hgreatest, hlater⟩ := walk_back
    hpos (@walkedSessions_sorted calendar current)
    ⟨ended, hwalked, closedBars_of_completed hpos hcloses⟩
  obtain ⟨hmem, hfrom, -⟩ := mem_walkedSessions_iff.mp hsession
  refine ⟨session, hmem, bar, ?_, hbar, hgreatest, ?_⟩
  · unfold equityIntradayBarOpen
    rw [hmarket]
    have hwalk : (calendar.sessionsInRange (dayOf (current - 20 * dayLength))
        (dayOf current)).reverse.findSomeM? (fun session =>
          session.segments.reverse.findSomeM? (segmentBar session length current)) =
            .ok (some (seconds bar)) := hfound
    dsimp only [bind, Except.bind]
    rw [hwalk]
    rfl
  · intro other hother hday
    by_cases hclosed : (closedBars other length (wholeSeconds current)).Nonempty
    · exact hlater other (mem_walkedSessions_iff.mpr
        ⟨hother, by linarith, day_le_of_closed hpos hclosed⟩) hday
    · exact Or.inl (Set.not_nonempty_iff_eq_empty.mp hclosed)

end

/-! ## The filter of closed rows -/

/-- The filter keeps a row of the bar, in seconds or in milliseconds. -/
def AcceptsBar (calendar : ExchangeCalendar) (market : String) (length : ℤ) (current : Time)
    (bar : ℤ) : Prop :=
  ∀ row : Kline, row.stamp = seconds bar →
    filterClosedRows calendar market length current [row] = [row]

/-- The bars of the sessions' grids that overlap a segment and pass the filter. -/
def acceptedBars (calendar : ExchangeCalendar) (market : String) (length : ℤ) (current : Time) :
    Set ℤ :=
  {bar | ∃ session ∈ calendar.sessions, OnGrid session length bar ∧
    (∃ segment ∈ session.segments, bar < segment.2 ∧ segment.1 < bar + length) ∧
    AcceptsBar calendar market length current bar}

section

variable {calendar : ExchangeCalendar} {market : String} {session : Session} {length bar : ℤ}
  {current : Time}

def stampedRow (time : ℤ) : Kline :=
  { time, openPrice := 0, high := 0, low := 0, closePrice := 0, volume := none }

theorem exists_row (bar : ℤ) : ∃ row : Kline, row.stamp = seconds bar := by
  by_cases h : bar ≤ 10000000000
  · exact ⟨stampedRow bar, if_neg (not_lt.mpr h)⟩
  · refine ⟨stampedRow (bar * 1000), ?_⟩
    unfold Kline.stamp stampedRow
    dsimp only
    rw [if_pos (by omega)]
    unfold seconds
    ring

theorem rowClose_eq (hk : EndsOnDate market calendar) (hlength : length < 86400)
    (hsession : session ∈ calendar.sessions) (hgrid : OnGrid session length bar) {close : ℤ}
    (hclose : barClose session.segments bar (bar + length) = some close) :
    rowClose calendar market length (seconds bar) = some (seconds close) := by
  obtain ⟨⟨segment, hsegment, hend, -, -⟩, -⟩ :=
    (barClose_eq_some_iff_all session.segments).mp hclose
  obtain ⟨-, -, hcloses⟩ := segments_within hsegment
  have hdate : equityBarSessionDate (seconds bar) market = session.day := by
    apply sessionDate_eq hk hsession
    · rw [seconds_le_iff, wholeSeconds_seconds]
      exact hgrid.1
    · exact mul_le_mul_of_nonneg_right (by linarith) (by norm_num)
  have hfound : calendar.session? session.day = some session :=
    session?_eq_some_iff.mpr ⟨hsession, rfl⟩
  have hlt : ∀ m n : ℤ, seconds m < seconds n ↔ m < n := by
    intro m n
    rw [lt_seconds_iff, wholeSeconds_seconds]
  have hadd : seconds bar + seconds length = seconds (bar + length) := by
    unfold seconds
    ring
  unfold rowClose
  dsimp only
  rw [if_neg (by linarith), if_neg (by linarith), hdate, hfound]
  dsimp only
  rw [hadd]
  obtain ⟨⟨last, hlast, hlastEnd, hlastStart, rfl⟩, hmax⟩ :=
    (barClose_eq_some_iff_all session.segments).mp hclose
  have hmono : ∀ m n : ℤ, seconds (min m n) = min (seconds m) (seconds n) := fun m n =>
    (monotone_id.comp fun _ _ h => mul_le_mul_of_nonneg_right h (by norm_num)).map_min
  rw [hmono, List.max?_eq_some_iff]
  constructor
  · refine List.mem_map.mpr ⟨last, List.mem_filter.mpr ⟨hlast, ?_⟩, rfl⟩
    rw [decide_eq_true_iff, hlt, hlt]
    exact ⟨hlastEnd, hlastStart⟩
  · intro value hvalue
    obtain ⟨other, hother, rfl⟩ := List.mem_map.mp hvalue
    obtain ⟨hmem, hoverlap⟩ := List.mem_filter.mp hother
    rw [decide_eq_true_iff, hlt, hlt] at hoverlap
    rw [← hmono, ← hmono]
    exact mul_le_mul_of_nonneg_right (hmax other hmem hoverlap.1 hoverlap.2) (by norm_num)

theorem filterClosedRows_singleton (row : Kline) {close : Time}
    (hclose : rowClose calendar market length row.stamp = some close) :
    filterClosedRows calendar market length current [row] =
      if close ≤ current then [row] else [] := by
  unfold filterClosedRows
  dsimp only [List.foldl_cons, List.foldl_nil]
  rw [hclose]
  dsimp only
  split_ifs with h
  · have hkeys : (Library.Dict.empty.set row.time row).keys.toFinset = {row.time} := by
      ext key
      rw [List.mem_toFinset, Library.Dict.mem_keys_set, Finset.mem_singleton, or_iff_left]
      exact List.not_mem_nil
    rw [hkeys, Finset.sort_singleton, List.filterMap_cons_some (Library.Dict.get?_set_self _ _ _),
      List.filterMap_nil]
  · have hkeys : (Library.Dict.empty : Library.Dict ℤ Kline).keys.toFinset = ∅ := rfl
    rw [hkeys, Finset.sort_empty, List.filterMap_nil]

theorem mem_acceptedBars_iff (hk : EndsOnDate market calendar) (hlength : length < 86400) :
    bar ∈ acceptedBars calendar market length current ↔
      ∃ session ∈ calendar.sessions, bar ∈ closedBars session length (wholeSeconds current) := by
  unfold acceptedBars
  rw [Set.mem_ofPred_eq]
  refine exists_congr fun session => and_congr_right fun hsession => ?_
  constructor
  · rintro ⟨hgrid, ⟨segment, hsegment, hend, hstart⟩, haccepts⟩
    have hsome : (barClose session.segments bar (bar + length)).isSome := by
      unfold barClose
      rw [List.isSome_max?_iff]
      refine List.ne_nil_of_mem (List.mem_map.mpr ⟨segment, List.mem_filter.mpr ⟨hsegment, ?_⟩,
        rfl⟩)
      exact overlaps_iff.mpr ⟨hend, hstart⟩
    obtain ⟨close, hclose⟩ := Option.isSome_iff_exists.mp hsome
    refine ⟨hgrid, close, ?_, hclose⟩
    obtain ⟨row, hrow⟩ := exists_row bar
    have hkept := haccepts row hrow
    have hrowClose := rowClose_eq hk hlength hsession hgrid hclose
    rw [← hrow] at hrowClose
    rw [filterClosedRows_singleton row hrowClose] at hkept
    split_ifs at hkept with hle
    exact seconds_le_iff.mp hle
  · rintro ⟨hgrid, close, hle, hclose⟩
    obtain ⟨⟨segment, hsegment, hend, hstart, -⟩, -⟩ :=
      (barClose_eq_some_iff_all session.segments).mp hclose
    refine ⟨hgrid, ⟨segment, hsegment, hend, hstart⟩, ?_⟩
    intro row hrow
    have hrowClose := rowClose_eq hk hlength hsession hgrid hclose
    rw [← hrow] at hrowClose
    rw [filterClosedRows_singleton row hrowClose, if_pos (seconds_le_iff.mpr hle)]

end

/-! ## The expected bar -/

/-- A frame that holds exactly the accepted bars is judged current, whichever way its candidate and
its frequency are written. -/
def CurrentFrames (calendars : String → ExchangeCalendar) (market : String) (length : ℤ)
    (current : Time) (accepted : Set ℤ) : Prop :=
  ∀ (frame : List Time) (member : CandidateMember) (frequency : String),
    frame.Pairwise (· < ·) → (∀ stamp, stamp ∈ frame ↔ ∃ bar ∈ accepted, stamp = seconds bar) →
    equityDataMarket member = .ok market → market ∈ ["USStock", "HKStock"] →
    timeframeSeconds frequency = .ok length →
    frameIsCurrent calendars frame member frequency current = .ok true

/-- What is expected at an instant: the newest accepted bar, not before what was expected earlier,
and the last bar of every frame that holds the accepted ones. -/
structure ExpectsNewest (calendars : String → ExchangeCalendar) (calendar : ExchangeCalendar)
    (market : String) (length : ℤ) (current : Time) (bar : ℤ) : Prop where
  returned : equityIntradayBarOpen calendars market length current = .ok (seconds bar)
  newest : IsGreatest (acceptedBars calendar market length current) bar
  monotone : ∀ earlier, earlier ≤ current → CompletedLately calendar earlier →
    ∃ value ≤ seconds bar, equityIntradayBarOpen calendars market length earlier = .ok value
  frames : CurrentFrames calendars market length current
    (acceptedBars calendar market length current)

section

variable {calendars : String → ExchangeCalendar} {calendar : ExchangeCalendar} {market : String}
  {length bar : ℤ} {current : Time}

theorem seconds_le_seconds {m n : ℤ} : seconds m ≤ seconds n ↔ m ≤ n := by
  rw [seconds_le_iff, wholeSeconds_seconds]

theorem seconds_injective {m n : ℤ} (h : seconds m = seconds n) : m = n := by
  rw [← wholeSeconds_seconds m, h, wholeSeconds_seconds]

theorem frame_last {accepted : Set ℤ} (hbar : IsGreatest accepted bar) {frame : List Time}
    (hsorted : frame.Pairwise (· < ·))
    (hframe : ∀ stamp, stamp ∈ frame ↔ ∃ bar ∈ accepted, stamp = seconds bar) :
    frame.getLast? = some (seconds bar) := by
  have hmem : seconds bar ∈ frame := (hframe _).mpr ⟨bar, hbar.1, rfl⟩
  obtain ⟨before, after, rfl⟩ := List.mem_iff_append.mp hmem
  cases after with
  | nil => simp
  | cons next rest =>
    have hlt : seconds bar < next :=
      (List.pairwise_cons.mp (List.pairwise_append.mp hsorted).2.1).1 next List.mem_cons_self
    obtain ⟨other, hother, rfl⟩ := (hframe next).mp
      (List.mem_append_right _ (List.mem_cons_of_mem _ List.mem_cons_self))
    exact absurd (seconds_le_seconds.mpr (hbar.2 hother)) (not_le.mpr hlt)

theorem currentFrames_of_newest (hlength : length < 86400)
    (hreturned : equityIntradayBarOpen calendars market length current = .ok (seconds bar))
    (hbar : IsGreatest (acceptedBars calendar market length current) bar) :
    CurrentFrames calendars market length current
      (acceptedBars calendar market length current) := by
  intro frame member frequency hsorted hframe hmember hequity hfrequency
  have hlast := frame_last hbar hsorted hframe
  have hne : frame ≠ [] := by
    rintro rfl
    exact nomatch hlast
  have hexpected : expectedBar calendars member frequency current frame = .ok (seconds bar) := by
    unfold expectedBar
    rw [hmember, hfrequency]
    change (if market ∈ ["USStock", "HKStock"] then
      if length = 86400 then equityDailyBarCutoff calendars market current
      else if length = 604800 then equityWeeklyBarCutoff calendars market current
      else equityIntradayBarOpen calendars market length current else _) = _
    rw [if_pos hequity, if_neg (by omega), if_neg (by omega), hreturned]
  unfold frameIsCurrent
  rw [if_neg hne, hexpected]
  change frameCoversBar frame member frequency (seconds bar) = _
  unfold frameCoversBar
  rw [hlast]
  dsimp only
  rw [hmember, hfrequency]
  change (if market ∈ ["USStock", "HKStock"] then
    if 86400 ≤ length then _ else (.ok (decide (seconds bar = seconds bar)) :
      Except ScheduleError Bool) else _) = _
  rw [if_pos hequity, if_neg (by omega), decide_eq_true rfl]

theorem not_expectsNewest_of_hidden (hmarket : marketCalendar calendars market = .ok calendar)
    (hk : EndsOnDate market calendar) (hpos : 0 < length) (hlength : length < 86400)
    (hcompleted : CompletedLately calendar current) {hidden : Session}
    (hhidden : hidden ∈ calendar.sessions)
    (hhide : HiddenByBreak hidden length (wholeSeconds current)) :
    ¬ ∃ bar, ExpectsNewest calendars calendar market length current bar := by
  rintro ⟨expected, hexpected⟩
  obtain ⟨session, hsession, bar, hreturned, hshown, hgreatest, -⟩ :=
    intradayBarOpen_spec hmarket hpos hcompleted
  obtain ⟨hnone, newer, hnewer⟩ := hidden_session hpos hhide
  have hsame : expected = bar := by
    have heq := hexpected.returned
    rw [hreturned] at heq
    exact (seconds_injective (Except.ok.inj heq)).symm
  have hle := hexpected.newest.2
    ((mem_acceptedBars_iff hk hlength).mpr ⟨hidden, hhidden, hnewer⟩)
  rcases lt_trichotomy session.day hidden.day with hday | hday | hday
  · have hlt := lt_of_day_lt hpos hday hgreatest.1 hnewer
    omega
  · rw [session_eq_of_day hsession hhidden hday, hnone] at hshown
    exact nomatch hshown
  · -- no session comes after the one that is open
    obtain ⟨breakStart, breakEnd, hlunch, hbreak, -, -, -, hover⟩ := hhide
    have hinside := hidden.lunch_inside breakStart breakEnd hlunch
    have hbounds := closedBars_bounds hgreatest.1 hpos
    have hdayHidden := hidden.on_day
    have hdaySession := session.on_day
    omega

theorem expectsNewest_of_shown (hmarket : marketCalendar calendars market = .ok calendar)
    (hk : EndsOnDate market calendar) (hpos : 0 < length) (hlength : length < 86400)
    (hcompleted : CompletedLately calendar current)
    (hall : ∀ session ∈ calendar.sessions,
      ¬ HiddenByBreak session length (wholeSeconds current)) :
    ∃ bar, ExpectsNewest calendars calendar market length current bar := by
  obtain ⟨session, hsession, bar, hreturned, -, hgreatest, hlater⟩ :=
    intradayBarOpen_spec hmarket hpos hcompleted
  have hnewest : IsGreatest (acceptedBars calendar market length current) bar := by
    refine ⟨(mem_acceptedBars_iff hk hlength).mpr ⟨session, hsession, hgreatest.1⟩, ?_⟩
    intro other hother
    obtain ⟨otherSession, hmem, hclosed⟩ := (mem_acceptedBars_iff hk hlength).mp hother
    rcases lt_trichotomy session.day otherSession.day with hday | hday | hday
    · rcases hlater otherSession hmem hday with hempty | hhide
      · rw [hempty] at hclosed
        exact absurd hclosed (Set.notMem_empty other)
      · exact absurd hhide (hall otherSession hmem)
    · rw [← session_eq_of_day hsession hmem hday] at hclosed
      exact hgreatest.2 hclosed
    · exact (lt_of_day_lt hpos hday hclosed hgreatest.1).le
  refine ⟨bar, hreturned, hnewest, ?_, currentFrames_of_newest hlength hreturned hnewest⟩
  intro earlier hearlier hcompletedEarlier
  obtain ⟨before, hbefore, beforeBar, hbeforeReturned, -, hbeforeGreatest, -⟩ :=
    intradayBarOpen_spec hmarket hpos hcompletedEarlier
  refine ⟨seconds beforeBar, seconds_le_seconds.mpr (hnewest.2 ?_), hbeforeReturned⟩
  exact (mem_acceptedBars_iff hk hlength).mpr
    ⟨before, hbefore, closedBars_mono (wholeSeconds_mono hearlier) hbeforeGreatest.1⟩

end

/-- The expected bar is the newest accepted one, for frames and over time, exactly where no session
hides its bars behind a break. -/
theorem expectsNewest_iff {calendars : String → ExchangeCalendar} {calendar : ExchangeCalendar}
    {market : String} {length : ℤ} {current : Time}
    (hmarket : marketCalendar calendars market = .ok calendar)
    (hk : EndsOnDate market calendar) (hpos : 0 < length) (hlength : length < 86400)
    (hcompleted : CompletedLately calendar current) :
    (∃ bar, ExpectsNewest calendars calendar market length current bar) ↔
      ∀ session ∈ calendar.sessions,
        ¬ HiddenByBreak session length (wholeSeconds current) := by
  constructor
  · intro h session hsession hhide
    exact not_expectsNewest_of_hidden hmarket hk hpos hlength hcompleted hsession hhide h
  · exact expectsNewest_of_shown hmarket hk hpos hlength hcompleted

def inBreak : Time := seconds (20001 * 86400 + 16200)

theorem completedLately_inBreak : CompletedLately hongKongDays inBreak :=
  ⟨hongKongDay 20000, List.mem_cons_self, by decide, by decide⟩

/-- Hourly bars in the break: none of them reaches the afternoon. -/
theorem expectsNewest_hourly :
    ∃ bar, ExpectsNewest (fun _ => hongKongDays) hongKongDays "HKStock" 3600 inBreak bar := by
  refine (expectsNewest_iff (marketCalendar_hongKong _) hongKongDays_ends (by decide) (by decide)
    completedLately_inBreak).mpr ?_
  rintro session hsession ⟨breakStart, breakEnd, hlunch, -, -, hcover, -⟩
  rcases List.mem_pair.mp hsession with rfl | rfl <;>
    obtain ⟨rfl, rfl⟩ := Prod.mk.inj (Option.some.inj hlunch) <;>
    exact absurd hcover (by decide)

/-- Two-hour bars in the break: the bar of half past three covers it, and the one of half past one,
which has closed, is not found. -/
theorem two_hour_bar_hidden :
    ¬ ∀ (calendars : String → ExchangeCalendar) (calendar : ExchangeCalendar) (market : String)
        (length : ℤ) (current : Time), marketCalendar calendars market = .ok calendar →
      EndsOnDate market calendar → 0 < length →
      (∀ session ∈ calendar.sessions, length ≤ session.closes - session.opens) →
      CompletedLately calendar current →
      ∃ bar, ExpectsNewest calendars calendar market length current bar := by
  intro h
  have hhide : HiddenByBreak (hongKongDay 20001) 7200 (wholeSeconds inBreak) :=
    ⟨20001 * 86400 + 14400, 20001 * 86400 + 18000, rfl, by decide, by decide, by decide,
      by decide, by decide⟩
  refine not_expectsNewest_of_hidden (marketCalendar_hongKong fun _ => hongKongDays)
    hongKongDays_ends (by decide) (by decide) completedLately_inBreak
    (List.mem_cons_of_mem _ List.mem_cons_self) hhide ?_
  refine h _ _ _ _ _ (marketCalendar_hongKong _) hongKongDays_ends (by decide) ?_
    completedLately_inBreak
  intro session hsession
  rcases List.mem_pair.mp hsession with rfl | rfl <;> decide

end QuantDinger.Analysis
