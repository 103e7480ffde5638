import QuantDinger.Model.Protection
import Mathlib.Tactic.Linarith

/-!
# Bars and ticks protect alike

`evaluate_price` moves the extremes before it tests the triggers and `evaluate_bar` after,
and both switch trailing on while they compute its trigger. On prices fed as degenerate bars
the two states differ in between: the price side may already trail where the bar side will
only find out at the next price. What stays equal is the state once the pending activation
is taken into account (`activated`), and a price that moves an extreme triggers nothing.
-/

namespace QuantDinger.Analysis

open QuantDinger.Model QuantDinger.Model.ProtectionEngine

/-! ## Extremes and activation -/

/-- The state with a price taken into its extremes. -/
def observed (state : ProtectionState) (price : Amount) : ProtectionState :=
  { state with
    highestPrice := max state.highestPrice price
    lowestPrice := min state.lowestPrice price }

/-- The state with trailing switched on, if the extremes have reached the activation. -/
def activated (state : ProtectionState) : ProtectionState := (trailingTrigger state).2

/-- The extremes have reached the activation of the trailing stop. -/
def ActivationReached (state : ProtectionState) : Prop :=
  match state.side with
  | .long => state.entryPrice * (1 + state.spec.trailingActivationPct) ≤ state.highestPrice
  | .short => state.lowestPrice ≤ state.entryPrice * (1 - state.spec.trailingActivationPct)

instance (state : ProtectionState) : Decidable (ActivationReached state) := by
  unfold ActivationReached
  cases state.side <;> infer_instance

def trailingLevel (state : ProtectionState) : Amount :=
  match state.side with
  | .long => state.highestPrice * (1 - state.spec.trailingStopPct)
  | .short => state.lowestPrice * (1 + state.spec.trailingStopPct)

/-- The price has crossed a stop of the position. -/
def crossed (side : Side) (price trigger : Amount) : Bool :=
  match side with
  | .long => price ≤ trigger
  | .short => trigger ≤ price

theorem trailingTrigger_eq (state : ProtectionState) :
    trailingTrigger state =
      if state.spec.trailingStopPct ≤ 0 then (none, state)
      else if state.trailingActive = true ∨ ActivationReached state then
        (some (trailingLevel state), { state with trailingActive := true })
      else (none, state) := by
  unfold trailingTrigger ActivationReached trailingLevel
  rcases state with ⟨symbol, side, entry, spec, openedAt, highest, lowest, active⟩
  by_cases hpct : spec.trailingStopPct ≤ 0
  · simp only [hpct, if_true]
  · cases side with
    | long =>
      by_cases hreached : entry * (1 + spec.trailingActivationPct) ≤ highest
      · cases active <;> simp [hpct, hreached]
      · cases active <;> simp [hpct, hreached]
    | short =>
      by_cases hreached : lowest ≤ entry * (1 - spec.trailingActivationPct)
      · cases active <;> simp [hpct, hreached]
      · cases active <;> simp [hpct, hreached]

def Trails (state : ProtectionState) : Prop :=
  0 < state.spec.trailingStopPct ∧ (state.trailingActive = true ∨ ActivationReached state)

instance (state : ProtectionState) : Decidable (Trails state) :=
  inferInstanceAs (Decidable (_ ∧ _))

theorem trailingTrigger_fst (state : ProtectionState) :
    (trailingTrigger state).1 = if Trails state then some (trailingLevel state) else none := by
  rw [trailingTrigger_eq]
  unfold Trails
  by_cases hpct : state.spec.trailingStopPct ≤ 0
  · simp [hpct, not_lt.mpr hpct]
  · by_cases hactive : state.trailingActive = true ∨ ActivationReached state
    · simp [hpct, hactive, not_le.mp hpct]
    · simp [hpct, hactive]

theorem activated_of_trails {state : ProtectionState} (h : Trails state) :
    activated state = { state with trailingActive := true } := by
  unfold activated
  rw [trailingTrigger_eq, if_neg (not_le.mpr h.1), if_pos h.2]

theorem activated_of_not_trails {state : ProtectionState} (h : ¬ Trails state) :
    activated state = state := by
  unfold activated
  rw [trailingTrigger_eq]
  split_ifs with hpct hactive
  · rfl
  · exact absurd ⟨not_le.mp hpct, hactive⟩ h
  · rfl

theorem Trails.observed {state : ProtectionState} (h : Trails state) (price : Amount) :
    Trails (observed state price) := by
  refine ⟨h.1, h.2.imp id fun hreached => ?_⟩
  unfold ActivationReached Analysis.observed at *
  cases hside : state.side with
  | long =>
    rw [hside] at hreached
    exact le_trans hreached (le_max_left _ _)
  | short =>
    rw [hside] at hreached
    exact le_trans (min_le_left _ _) hreached

theorem activated_observed (state : ProtectionState) (price : Amount) :
    activated (observed (activated state) price) = activated (observed state price) := by
  by_cases h : Trails state
  · rw [activated_of_trails h, activated_of_trails (h.observed price)]
    refine activated_of_trails ⟨h.1, Or.inl rfl⟩
  · rw [activated_of_not_trails h]

theorem activated_activated (state : ProtectionState) :
    activated (activated state) = activated state := by
  by_cases h : Trails state
  · rw [activated_of_trails h]
    exact activated_of_trails ⟨h.1, Or.inl rfl⟩
  · rw [activated_of_not_trails h, activated_of_not_trails h]

/-! ## The candidates -/

/-- What a protection may close at a price: the candidates, as functions of the trailing
trigger alone. -/
def candidatesAt (state : ProtectionState) (trailing : Option Amount) (ts : Time)
    (price : Amount) : List ProtectionDecision :=
  let stopTrigger := match state.side with
    | .long => state.entryPrice * (1 - state.spec.stopLossPct)
    | .short => state.entryPrice * (1 + state.spec.stopLossPct)
  let targetTrigger := match state.side with
    | .long => state.entryPrice * (1 + state.spec.takeProfitPct)
    | .short => state.entryPrice * (1 - state.spec.takeProfitPct)
  [if 0 < state.spec.stopLossPct ∧ crossed state.side price stopTrigger then
      some (decision state .stopLoss price stopTrigger ts) else none,
    trailing.bind fun trigger => if crossed state.side price trigger then
      some (decision state .trailingStop price trigger ts) else none,
    if 0 < state.spec.takeProfitPct ∧ crossed state.side (-price) (-targetTrigger) then
      some (decision state .takeProfit price targetTrigger ts) else none,
    if timeLimitReached state ts then some (decision state .timeLimit price price ts)
      else none].filterMap id

theorem stopTouched_degenerate (side : Side) (trigger price : Amount) :
    stopTouched side trigger price price price =
      if crossed side price trigger then some price else none := by
  unfold stopTouched crossed
  cases side with
  | long => by_cases h : price ≤ trigger <;> simp [h]
  | short => by_cases h : trigger ≤ price <;> simp [h]

theorem targetTouched_degenerate (side : Side) (trigger price : Amount) :
    targetTouched side trigger price price price =
      if crossed side (-price) (-trigger) then some price else none := by
  unfold targetTouched crossed
  cases side with
  | long => by_cases h : trigger ≤ price <;> simp [h]
  | short => by_cases h : price ≤ trigger <;> simp [h]

theorem map_gate {α β : Type} (c d : Prop) [Decidable c] [Decidable d] (f : α → β) (a : α) :
    (if c then Option.map f (if d then some a else none) else none) =
      if c ∧ d then some (f a) else none := by
  by_cases hc : c <;> by_cases hd : d <;> simp [hc, hd]

theorem barCandidates_degenerate (state : ProtectionState) (ts : Time) (price : Amount) :
    barCandidates state ts price price price =
      (candidatesAt state (trailingTrigger state).1 ts price, activated state) := by
  unfold barCandidates candidatesAt activated
  simp only [stopTouched_degenerate, targetTouched_degenerate, map_gate]
  rcases state with ⟨symbol, side, entry, spec, openedAt, highest, lowest, active⟩
  refine Prod.ext ?_ rfl
  cases side with
  | long =>
    cases (trailingTrigger ⟨symbol, .long, entry, spec, openedAt, highest, lowest, active⟩).1 with
    | none => simp [crossed]
    | some trigger => by_cases h : price ≤ trigger <;> simp [crossed, h]
  | short =>
    cases (trailingTrigger ⟨symbol, .short, entry, spec, openedAt, highest, lowest, active⟩).1
        with
    | none => simp [crossed]
    | some trigger => by_cases h : trigger ≤ price <;> simp [crossed, h]

theorem priceCandidates_eq (state : ProtectionState) (ts : Time) (price : Amount) :
    priceCandidates state ts price =
      (candidatesAt state (trailingTrigger state).1 ts price, activated state) := by
  unfold priceCandidates candidatesAt activated
  rcases state with ⟨symbol, side, entry, spec, openedAt, highest, lowest, active⟩
  refine Prod.ext ?_ rfl
  cases side with
  | long => simp [crossed]
  | short => simp [crossed]

/-- The price is a new extreme on the side that the trailing stop follows. -/
def Extreme (state : ProtectionState) (price : Amount) : Prop :=
  match state.side with
  | .long => state.highestPrice ≤ price
  | .short => price ≤ state.lowestPrice

theorem not_crossed_of_extreme {state : ProtectionState} (hpct : 0 < state.spec.trailingStopPct)
    {price : Amount} (hprice : 0 < price) (h : Extreme state price) :
    ¬ crossed state.side price (trailingLevel state) := by
  have hone := state.spec.trailingStop_bounds.2
  unfold crossed trailingLevel
  unfold Extreme at h
  cases hside : state.side with
  | long =>
    rw [hside] at h
    rw [decide_eq_true_iff]
    dsimp only at h
    nlinarith
  | short =>
    rw [hside] at h
    rw [decide_eq_true_iff]
    dsimp only at h
    nlinarith

theorem trailing_bind_eq_none {state : ProtectionState} {price : Amount} (hprice : 0 < price)
    (h : Extreme state price) {β : Type} (f : Amount → β) :
    ((trailingTrigger state).1.bind fun trigger =>
        if crossed state.side price trigger then some (f trigger) else none) = none := by
  rw [trailingTrigger_fst]
  by_cases htrails : Trails state
  · rw [if_pos htrails, Option.bind_some, if_neg (not_crossed_of_extreme htrails.1 hprice h)]
  · rw [if_neg htrails, Option.bind_none]

theorem trailing_crossed_observed (state : ProtectionState) {price : Amount} (hprice : 0 < price)
    {β : Type} (f : Amount → β) :
    ((trailingTrigger (observed state price)).1.bind fun trigger =>
        if crossed state.side price trigger then some (f trigger) else none) =
      (trailingTrigger state).1.bind fun trigger =>
        if crossed state.side price trigger then some (f trigger) else none := by
  by_cases hextreme : Extreme state price
  · have hobserved : Extreme (observed state price) price := by
      unfold Extreme observed at *
      cases hside : state.side with
      | long =>
        rw [hside] at hextreme
        exact max_le hextreme le_rfl
      | short =>
        rw [hside] at hextreme
        exact le_min hextreme le_rfl
    rw [trailing_bind_eq_none hprice hextreme f]
    exact trailing_bind_eq_none hprice hobserved f
  · have hreached : ActivationReached (observed state price) ↔ ActivationReached state := by
      unfold ActivationReached observed Extreme at *
      cases hside : state.side with
      | long =>
        rw [hside] at hextreme
        simp only [max_eq_left (not_le.mp hextreme).le]
      | short =>
        rw [hside] at hextreme
        simp only [min_eq_left (not_le.mp hextreme).le]
    have hlevel : trailingLevel (observed state price) = trailingLevel state := by
      unfold trailingLevel observed Extreme at *
      cases hside : state.side with
      | long =>
        rw [hside] at hextreme
        simp only [max_eq_left (not_le.mp hextreme).le]
      | short =>
        rw [hside] at hextreme
        simp only [min_eq_left (not_le.mp hextreme).le]
    have htrails : Trails (observed state price) ↔ Trails state :=
      and_congr Iff.rfl (or_congr Iff.rfl hreached)
    rw [trailingTrigger_fst, trailingTrigger_fst, hlevel, if_congr htrails rfl rfl]

/-! ## One price -/

/-- The two states agree once pending activations are taken into account. -/
def Parity (bar tick : ProtectionState) : Prop := activated bar = activated tick

theorem candidatesAt_congr {bar tick : ProtectionState} (h : Parity bar tick)
    (trailing : Option Amount) (ts : Time) (price : Amount) :
    candidatesAt bar trailing ts price = candidatesAt tick trailing ts price := by
  have hfree : ∀ state : ProtectionState,
      candidatesAt (activated state) trailing ts price = candidatesAt state trailing ts price := by
    intro state
    by_cases htrails : Trails state
    · rw [activated_of_trails htrails]
      rfl
    · rw [activated_of_not_trails htrails]
  rw [← hfree bar, ← hfree tick, h]

theorem trailingTrigger_activated (state : ProtectionState) :
    (trailingTrigger (activated state)).1 = (trailingTrigger state).1 := by
  by_cases htrails : Trails state
  · have hactive : Trails { state with trailingActive := true } := ⟨htrails.1, Or.inl rfl⟩
    rw [activated_of_trails htrails, trailingTrigger_fst, trailingTrigger_fst, if_pos htrails,
      if_pos hactive]
    rfl
  · rw [activated_of_not_trails htrails]

theorem candidates_parity {bar tick : ProtectionState} (h : Parity bar tick) (ts : Time)
    {price : Amount} (hprice : 0 < price) :
    candidatesAt bar (trailingTrigger bar).1 ts price =
      candidatesAt (observed tick price) (trailingTrigger (observed tick price)).1 ts price := by
  have htrigger : (trailingTrigger bar).1 = (trailingTrigger tick).1 := by
    rw [← trailingTrigger_activated bar, ← trailingTrigger_activated tick, h]
  rw [candidatesAt_congr h, htrigger]
  unfold candidatesAt
  have htrail := trailing_crossed_observed tick hprice
    fun trigger => decision tick .trailingStop price trigger ts
  dsimp only at htrail ⊢
  rw [← htrail]
  rfl

theorem evaluate_parity (mode : IntrabarMode) {bar tick : ProtectionState} (h : Parity bar tick)
    (ts : Time) {price : Amount} (hprice : 0 < price) :
    (evaluateBar mode bar ts price price price).1 = (evaluatePrice mode tick ts price).1 ∧
      ((evaluateBar mode bar ts price price price).1 = none →
        Parity (evaluateBar mode bar ts price price price).2
          (evaluatePrice mode tick ts price).2) := by
  have hbar : evaluateBar mode bar ts price price price =
      (choose mode (candidatesAt bar (trailingTrigger bar).1 ts price) price).elim
        (none, observed (activated bar) price) fun decision => (some decision, activated bar) := by
    unfold evaluateBar
    simp only [max_self, min_self, barCandidates_degenerate]
    cases choose mode (candidatesAt bar (trailingTrigger bar).1 ts price) price with
    | some decision => rfl
    | none => rfl
  have htick : evaluatePrice mode tick ts price =
      (choose mode (candidatesAt (observed tick price)
        (trailingTrigger (observed tick price)).1 ts price) price,
        activated (observed tick price)) := by
    unfold evaluatePrice
    rw [if_neg (not_le.mpr hprice)]
    simp only [priceCandidates_eq]
    rfl
  rw [hbar, htick, candidates_parity h ts hprice]
  cases choose mode (candidatesAt (observed tick price)
      (trailingTrigger (observed tick price)).1 ts price) price with
  | some decision => exact ⟨rfl, fun hnone => by cases hnone⟩
  | none =>
    refine ⟨rfl, fun _ => ?_⟩
    show activated (observed (activated bar) price) = activated (activated (observed tick price))
    rw [activated_activated, h, activated_observed]

/-! ## A sequence of prices -/

/-- The first decision of an evaluator along a sequence of timed prices, with its index. -/
def firstDecision
    (evaluate : ProtectionState → Time → Amount → Option ProtectionDecision × ProtectionState) :
    ProtectionState → List (Time × Amount) → Option (ℕ × ProtectionDecision)
  | _, [] => none
  | state, (ts, price) :: ticks =>
    match evaluate state ts price with
    | (some decision, _) => some (0, decision)
    | (none, state') => (firstDecision evaluate state' ticks).map fun d => (d.1 + 1, d.2)

theorem firstDecision_parity (mode : IntrabarMode) (ticks : List (Time × Amount))
    (hticks : ∀ tick ∈ ticks, 0 < tick.2) {bar tick : ProtectionState} (h : Parity bar tick) :
    firstDecision (fun state ts price => evaluateBar mode state ts price price price) bar ticks =
      firstDecision (evaluatePrice mode) tick ticks := by
  induction ticks generalizing bar tick with
  | nil => rfl
  | cons head ticks ih =>
    obtain ⟨ts, price⟩ := head
    have hprice : 0 < price := hticks (ts, price) List.mem_cons_self
    have hrest : ∀ tick ∈ ticks, 0 < tick.2 := fun tick ht =>
      hticks tick (List.mem_cons_of_mem _ ht)
    obtain ⟨hdecision, hstate⟩ := evaluate_parity mode h ts hprice
    unfold firstDecision
    rcases hbar : evaluateBar mode bar ts price price price with ⟨d, bar'⟩
    rcases htick : evaluatePrice mode tick ts price with ⟨d', tick'⟩
    rw [hbar, htick] at hdecision hstate
    dsimp only at hdecision hstate
    subst hdecision
    cases d with
    | some decision => rfl
    | none =>
      dsimp only
      rw [ih hrest (hstate rfl)]

/-- **Bars and ticks protect alike.** On every sequence of positive prices, a protection
opened for a position takes its first decision at the same price, for the same reason and
at the same trigger, whether the prices come as degenerate bars or as ticks. -/
theorem bar_tick_decisions_agree (mode : IntrabarMode) (symbol : Symbol) (side : Side)
    (entryPrice : Amount) (spec : ProtectionSpec) (openedAt : Time)
    (ticks : List (Time × Amount)) (hticks : ∀ tick ∈ ticks, 0 < tick.2) :
    firstDecision (fun state ts price => evaluateBar mode state ts price price price)
        (.opened symbol side entryPrice spec openedAt) ticks =
      firstDecision (evaluatePrice mode) (.opened symbol side entryPrice spec openedAt) ticks :=
  firstDecision_parity mode ticks hticks rfl

def trailingTenth : ProtectionSpec := .create 0 0 (1 / 10) 0 0 true

/-- From 100 over 120 to 108 the stop moves to 108 and closes there, on bars as on ticks. -/
theorem trailing_tenth_agrees :
    firstDecision (fun state ts price => evaluateBar .conservative state ts price price price)
        (.opened "X" .long 100 trailingTenth 0) [(1, 110), (2, 120), (3, 108)] =
      some (2, ⟨"X", .long, .trailingStop, 108, 108, 3⟩) ∧
    firstDecision (evaluatePrice .conservative)
        (.opened "X" .long 100 trailingTenth 0) [(1, 110), (2, 120), (3, 108)] =
      some (2, ⟨"X", .long, .trailingStop, 108, 108, 3⟩) := by
  have hbar : firstDecision
      (fun state ts price => evaluateBar .conservative state ts price price price)
        (.opened "X" .long 100 trailingTenth 0) [(1, 110), (2, 120), (3, 108)] =
      some (2, ⟨"X", .long, .trailingStop, 108, 108, 3⟩) := by decide +kernel
  refine ⟨hbar, ?_⟩
  rw [← bar_tick_decisions_agree .conservative "X" .long 100 trailingTenth 0 _ (by decide)]
  exact hbar

end QuantDinger.Analysis
