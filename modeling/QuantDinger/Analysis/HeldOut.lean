import QuantDinger.Analysis.HistoryRequirement
import QuantDinger.Analysis.SearchTrials
import QuantDinger.Model.EvolutionRun

/-!
# Held-out data

The ranges of a walk-forward plan lie one after the other in the observations, with the embargo
between neighbours. All that the search and the selection ask of an evaluator lies in the first two
of them, so evaluators that differ only later select alike: the run is the same function of both up
to the report.
-/

namespace QuantDinger.Analysis

open QuantDinger.Library QuantDinger.Model QuantDinger.Model.Evolution

/-! ## The ranges of a plan -/

/-- The training, the validation and the blind range of a plan. -/
def planRanges (plan : WalkForwardPlan) : List (Time × Time) :=
  plan.folds.flatMap (fun fold =>
      [(fold.trainStart, fold.trainEnd), (fold.validationStart, fold.validationEnd)]) ++
    (plan.blindStart.bind fun first => plan.blindEnd.map fun last => (first, last)).toList

/-- The number of observations strictly between two instants. -/
def betweenCount (timestamps : List Time) (first last : Time) : ℕ :=
  timestamps.countP fun value => first < value ∧ value < last

/-- There is a blind range where a ratio asks for one; the ranges begin and end with observations,
they are disjoint and in order, and neighbours are the embargo apart. -/
structure RangesApart (timestamps : List Time) (options : WalkForwardOptions)
    (plan : WalkForwardPlan) : Prop where
  count : (planRanges plan).length = if 0 < options.blindRatio then 3 else 2
  embargo : plan.embargoBars = max 0 (options.embargoBars.getD (options.embargoDays.getD 0))
  observed : ∀ range ∈ planRanges plan,
    range.1 ∈ timestamps ∧ range.2 ∈ timestamps ∧ range.1 ≤ range.2
  ordered : (planRanges plan).Pairwise fun earlier later => earlier.2 < later.1
  disjoint : (planRanges plan).Pairwise fun earlier later =>
    Disjoint (observationsBetween timestamps earlier.1 earlier.2)
      (observationsBetween timestamps later.1 later.2)
  separated : (planRanges plan).IsChain fun earlier later =>
    (betweenCount timestamps earlier.2 later.1 : ℤ) = plan.embargoBars

section

variable {timestamps : List Time} {first last : Time} {i j : ℕ}

theorem countP_lt_entry (hsorted : timestamps.Pairwise (· < ·)) (hj : timestamps[j]? = some last) :
    timestamps.countP (fun value => value < last) = j := by
  induction timestamps generalizing j with
  | nil => simp at hj
  | cons head rest ih =>
    obtain ⟨hhead, hrest⟩ := List.pairwise_cons.1 hsorted
    cases j with
    | zero =>
      obtain rfl : head = last := by simpa using hj
      refine List.countP_eq_zero.2 ?_
      intro value hvalue
      rcases List.mem_cons.1 hvalue with rfl | htail
      · simp
      · simpa using (hhead value htail).le
    | succ j =>
      have hentry : rest[j]? = some last := by simpa using hj
      have hlt : head < last := hhead last (List.mem_of_getElem? hentry)
      rw [List.countP_cons_of_pos (by simpa using hlt), ih hrest hentry]

theorem betweenCount_entries (hsorted : timestamps.Pairwise (· < ·))
    (hi : timestamps[i]? = some first) (hj : timestamps[j]? = some last) (h : i < j) :
    betweenCount timestamps first last = j - i - 1 := by
  unfold betweenCount
  induction timestamps generalizing i j with
  | nil => simp at hi
  | cons head rest ih =>
    obtain ⟨hhead, hrest⟩ := List.pairwise_cons.1 hsorted
    obtain ⟨j, rfl⟩ : ∃ k, j = k + 1 := ⟨j - 1, by omega⟩
    have hentry : rest[j]? = some last := by simpa using hj
    cases i with
    | zero =>
      obtain rfl : head = first := by simpa using hi
      rw [List.countP_cons_of_neg (by simp), ← Nat.add_sub_cancel j 1, ← Nat.sub_zero (j + 1)]
      rw [Nat.sub_zero, Nat.sub_zero, ← countP_lt_entry hrest hentry]
      refine List.countP_congr ?_
      intro value hvalue
      simp [hhead value hvalue]
    | succ i =>
      have hfirst : rest[i]? = some first := by simpa using hi
      have hlt : head < first := hhead first (List.mem_of_getElem? hfirst)
      rw [List.countP_cons_of_neg (by simp [hlt.le]), ih hrest hfirst hentry (by omega)]
      omega

theorem entry_lt (hsorted : timestamps.Pairwise (· < ·)) (hi : timestamps[i]? = some first)
    (hj : timestamps[j]? = some last) (h : i < j) : first < last := by
  obtain ⟨hi', rfl⟩ := List.getElem?_eq_some_iff.1 hi
  obtain ⟨hj', rfl⟩ := List.getElem?_eq_some_iff.1 hj
  exact List.pairwise_iff_getElem.1 hsorted i j hi' hj' h

theorem entry_le (hsorted : timestamps.Pairwise (· < ·)) (hi : timestamps[i]? = some first)
    (hj : timestamps[j]? = some last) (h : i ≤ j) : first ≤ last := by
  rcases h.lt_or_eq with hlt | rfl
  · exact (entry_lt hsorted hi hj hlt).le
  · rw [hi] at hj
    exact (Option.some.inj hj).le

end

variable {start finish : Time} {trainRatio : ℚ} {observations : Option (List Time)}
  {options : WalkForwardOptions} {plan : WalkForwardPlan}

theorem observationTimes_pairwise :
    (observationTimes start finish observations).Pairwise (· < ·) := by
  cases observations with
  | none =>
    unfold observationTimes
    refine List.pairwise_map.2 (List.pairwise_lt_range.imp ?_)
    intro a b hlt
    have hday : (0 : ℤ) < dayLength := by decide
    have hcast : (a : ℤ) < b := by exact_mod_cast hlt
    have hproduct := mul_lt_mul_of_pos_right hcast hday
    linarith
  | some observations => exact observationTimes_sorted

theorem planEntries_of_build
    (hplan : buildWalkForwardPlan start finish trainRatio observations options = .ok plan) :
    let timestamps := observationTimes start finish observations
    let requirements := walkForwardRequirements options
    let sizes := splitSizes timestamps.length trainRatio options.blindRatio requirements
    requirements.embargoBars + 2 ≤ sizes.developmentLimit ∧ PlanEntries timestamps sizes plan ∧
      plan.embargoBars = requirements.embargoBars := by
  intro timestamps requirements sizes
  have hmade := hplan
  unfold buildWalkForwardPlan at hplan
  dsimp only at hplan
  by_cases hrange : finish ≤ start
  · rw [if_pos hrange] at hplan
    cases hplan
  · rw [if_neg hrange] at hplan
    by_cases hshort : ((observationTimes start finish observations).length : ℤ) <
        (walkForwardRequirements options).minimumRequiredBars
    · rw [if_pos hshort] at hplan
      cases hplan
    · rw [if_neg hshort] at hplan
      by_cases hroom : (walkForwardRequirements options).embargoBars + 2 ≤
          (splitSizes (observationTimes start finish observations).length trainRatio
            options.blindRatio (walkForwardRequirements options)).developmentLimit
      · obtain ⟨other, hother, hentries, hgap⟩ :=
          build_entries (not_le.1 hrange) (not_lt.1 hshort) hroom
        rw [hmade] at hother
        cases hother
        exact ⟨hroom, hentries, hgap⟩
      · rw [if_pos (not_not.1 (mt halves_iff.1 hroom))] at hplan
        cases hplan

theorem observationsBetween_disjoint {timestamps : List Time} {earlier later : Time × Time}
    (h : earlier.2 < later.1) : Disjoint (observationsBetween timestamps earlier.1 earlier.2)
      (observationsBetween timestamps later.1 later.2) := by
  refine Finset.disjoint_left.2 ?_
  intro value hearlier hlater
  unfold observationsBetween at hearlier hlater
  have hle := (Finset.mem_filter.1 hearlier).2.2
  have hge := (Finset.mem_filter.1 hlater).2.1
  exact absurd (hle.trans_lt h) (not_lt.2 hge)

theorem ranges_apart
    (hplan : buildWalkForwardPlan start finish trainRatio observations options = .ok plan) :
    RangesApart (observationTimes start finish observations) options plan := by
  have hsorted := @observationTimes_pairwise start finish observations
  obtain ⟨hroom, ⟨⟨fold, hfolds, hget1, hget2, hget3, hget4⟩, hblind⟩, hgap⟩ :=
    planEntries_of_build hplan
  obtain ⟨htrain, hstart, hend, hlast, hblindStart, hblindSum⟩ := sizes_within trainRatio hroom
  obtain ⟨hcount, hblindPos⟩ := @blindCount_pos_iff trainRatio options
    (observationTimes start finish observations).length
  have hembargo : 0 ≤ (walkForwardRequirements options).embargoBars := gap_nonneg
  generalize observationTimes start finish observations = timestamps at *
  generalize splitSizes timestamps.length trainRatio options.blindRatio
    (walkForwardRequirements options) = sizes at *
  have htrained := entry_le hsorted hget1 hget2 (Nat.zero_le _)
  have hvalidated := entry_le hsorted hget3 hget4 (by omega)
  have hbefore := entry_lt hsorted hget2 hget3 (by omega)
  have hapart := betweenCount_entries hsorted hget2 hget3 (by omega)
  have hfold : (betweenCount timestamps fold.trainEnd fold.validationStart : ℤ) =
      plan.embargoBars := by
    rw [hapart, hgap]
    omega
  by_cases hzero : sizes.blindCount = 0
  · rw [if_neg (not_not.2 hzero)] at hblind
    have hranges : planRanges plan =
        [(fold.trainStart, fold.trainEnd), (fold.validationStart, fold.validationEnd)] := by
      unfold planRanges
      rw [hfolds, hblind.1]
      rfl
    have hordered : (planRanges plan).Pairwise fun earlier later => earlier.2 < later.1 := by
      rw [hranges]
      exact List.pairwise_pair.2 hbefore
    refine ⟨?_, hgap, ?_, hordered, hordered.imp observationsBetween_disjoint, ?_⟩
    · rw [hranges, if_neg fun hpos => hblindPos.2 hpos hzero]
      rfl
    · rw [hranges]
      intro range hrange
      simp only [List.mem_cons, List.not_mem_nil, or_false] at hrange
      rcases hrange with rfl | rfl
      · exact ⟨List.mem_of_getElem? hget1, List.mem_of_getElem? hget2, htrained⟩
      · exact ⟨List.mem_of_getElem? hget3, List.mem_of_getElem? hget4, hvalidated⟩
    · rw [hranges]
      exact List.IsChain.cons_cons hfold (List.IsChain.singleton _)
  · rw [if_pos hzero] at hblind hblindStart
    obtain ⟨first, last, hfirst, hlastSome, hget5, hget6⟩ := hblind
    have hheld := entry_le hsorted hget5 hget6 (by omega)
    have hafter := entry_lt hsorted hget4 hget5 (by omega)
    have hapart' := betweenCount_entries hsorted hget4 hget5 (by omega)
    have hblindApart : (betweenCount timestamps fold.validationEnd first : ℤ) =
        plan.embargoBars := by
      rw [hapart', hgap]
      omega
    have hranges : planRanges plan = [(fold.trainStart, fold.trainEnd),
        (fold.validationStart, fold.validationEnd), (first, last)] := by
      unfold planRanges
      rw [hfolds, hfirst, hlastSome]
      rfl
    have hordered : (planRanges plan).Pairwise fun earlier later => earlier.2 < later.1 := by
      rw [hranges]
      refine List.pairwise_cons.2 ⟨?_, List.pairwise_pair.2 hafter⟩
      intro range hrange
      simp only [List.mem_cons, List.not_mem_nil, or_false] at hrange
      rcases hrange with rfl | rfl
      · exact hbefore
      · exact hbefore.trans (hvalidated.trans_lt hafter)
    refine ⟨?_, hgap, ?_, hordered, hordered.imp observationsBetween_disjoint, ?_⟩
    · rw [hranges, if_pos (hblindPos.1 hzero)]
      rfl
    · rw [hranges]
      intro range hrange
      simp only [List.mem_cons, List.not_mem_nil, or_false] at hrange
      rcases hrange with rfl | rfl | rfl
      · exact ⟨List.mem_of_getElem? hget1, List.mem_of_getElem? hget2, htrained⟩
      · exact ⟨List.mem_of_getElem? hget3, List.mem_of_getElem? hget4, hvalidated⟩
      · exact ⟨List.mem_of_getElem? hget5, List.mem_of_getElem? hget6, hheld⟩
    · rw [hranges]
      exact List.IsChain.cons_cons hfold (List.IsChain.cons_cons hblindApart
        (List.IsChain.singleton _))

/-! ## The rows of a run -/

section

variable {G Choice Constraint Result Rest : Type} {source : RandomSource G}
  {numerics : Numerics Choice} {accepts : Constraint → Candidate Choice → Bool}
  {constraints : List Constraint} {parameters : List (SearchParameter Choice)}
  {config : SearchConfig} {evaluate : ℕ → Candidate Choice → List ℚ → TrialRow Choice Result Rest}

/-- The scores of the rows that were not pruned. -/
def keptScores (rows : List (TrialRow Choice Result Rest)) : List ℚ :=
  (rows.filter fun row => ¬ row.pruned).map TrialRow.searchScore

/-- The rows of the trials are what the search has evaluated. -/
structure TrialRowsKept (evaluate : ℕ → Candidate Choice → List ℚ → TrialRow Choice Result Rest)
    (state : SearchState Choice) : Prop where
  evaluations : (trialRows evaluate [] state.trials).map TrialRow.evaluation =
    state.trials.map Trial.evaluation
  scores : state.history.map Prod.snd = keptScores (trialRows evaluate [] state.trials)

theorem trialRows_append (trials : List (Trial Choice)) (trial : Trial Choice)
    (priorScores : List ℚ) :
    trialRows evaluate priorScores (trials ++ [trial]) =
      trialRows evaluate priorScores trials ++ [evaluate trial.number trial.params
        (priorScores ++ keptScores (trialRows evaluate priorScores trials))] := by
  induction trials generalizing priorScores with
  | nil => simp [trialRows, keptScores]
  | cons first rest ih =>
    rw [List.cons_append, trialRows, trialRows, ih, List.cons_append]
    unfold keptScores
    by_cases hpruned : (evaluate first.number first.params priorScores).pruned = true
    · simp [hpruned]
    · simp [hpruned]

theorem recordTrial_rows {state : SearchState Choice} (h : TrialRowsKept evaluate state)
    (params : Candidate Choice) :
    TrialRowsKept evaluate (recordTrial numerics
      (fun number params priorScores => (evaluate number params priorScores).evaluation) params
      state) := by
  have hrows := @trialRows_append _ _ _ evaluate state.trials
  unfold recordTrial
  refine ⟨?_, ?_⟩
  · dsimp only
    rw [hrows, List.map_append, List.map_append, h.evaluations, ← h.scores]
    rfl
  · dsimp only
    rw [hrows, ← h.scores, List.nil_append]
    unfold keptScores
    rw [List.filter_append, List.map_append]
    change _ = keptScores (trialRows evaluate [] state.trials) ++ _
    rw [← h.scores]
    unfold TrialRow.evaluation
    dsimp only
    by_cases hpruned : (evaluate (state.trials.length + 1) params
        (state.history.map Prod.snd)).pruned = true
    · simp [hpruned]
    · simp [hpruned]

theorem replaceTrial_rows {state : SearchState Choice} (h : TrialRowsKept evaluate state) :
    TrialRowsKept evaluate (replaceTrial numerics
      (fun number params priorScores => (evaluate number params priorScores).evaluation)
      state) := by
  unfold replaceTrial
  rcases hnext : nextFallback numerics state.seen state.fallback with ⟨replacement, rest⟩
  cases replacement with
  | none => exact ⟨h.evaluations, h.scores⟩
  | some replacement =>
    refine recordTrial_rows ?_ replacement
    exact ⟨h.evaluations, h.scores⟩

variable [DecidableEq Choice]

theorem searchStep_rows {state : SearchState Choice} (h : TrialRowsKept evaluate state)
    (grid : List (Candidate Choice)) :
    Yields (searchStep source numerics accepts constraints
      (fun number params priorScores => (evaluate number params priorScores).evaluation) parameters
      config grid state) (TrialRowsKept evaluate) := by
  unfold searchStep
  refine Yields.any.bind fun params _ => ?_
  refine Yields.ite (fun _ => Yields.pure ?_) fun _ => ?_
  · exact replaceTrial_rows ⟨h.evaluations, h.scores⟩
  · refine Yields.ite (fun _ => Yields.pure ?_) fun _ => Yields.pure ?_
    · exact replaceTrial_rows ⟨h.evaluations, h.scores⟩
    · refine recordTrial_rows ?_ params
      exact ⟨h.evaluations, h.scores⟩

theorem searchLoop_rows {state : SearchState Choice} (h : TrialRowsKept evaluate state)
    (grid : List (Candidate Choice)) (trialCount attempts : ℕ) :
    Yields (searchLoop source numerics accepts constraints
      (fun number params priorScores => (evaluate number params priorScores).evaluation) parameters
      config grid trialCount attempts state) (TrialRowsKept evaluate) := by
  induction attempts generalizing state with
  | zero => exact Yields.pure h
  | succ attempts ih =>
    unfold searchLoop
    refine Yields.ite (fun _ => ?_) fun _ => Yields.pure h
    exact (searchStep_rows h grid).bind fun next hnext => ih hnext

/-- The rows the selection is made from are the trials of the search, scored as it scored them. -/
theorem search_rows :
    Yields (search source numerics accepts constraints
      (fun number params priorScores => (evaluate number params priorScores).evaluation) parameters
      config) fun searched => ∀ state, searched = .ok state → TrialRowsKept evaluate state := by
  unfold search
  refine Yields.ite (fun _ => Yields.pure ?_) fun _ =>
    Yields.ite (fun _ => Yields.pure ?_) fun _ => ?_
  · intro state hstate
    cases hstate
  · intro state hstate
    cases hstate
  · refine Yields.any.bind fun drawn _ => ?_
    refine (searchLoop_rows ⟨rfl, rfl⟩ _ _ _).bind fun final hfinal => Yields.pure ?_
    intro state hstate
    cases hstate
    exact hfinal

end

/-! ## Two evaluators -/

section

variable {Choice Result Rest : Type}

/-- The evaluators answer alike what ends by an instant. -/
structure AgreeUntil (limit : Time) (one other : Evaluator Choice Result) : Prop where
  backtest : ∀ params start finish commission slippage, finish ≤ limit →
    one.backtest params start finish commission slippage =
      other.backtest params start finish commission slippage
  evaluatePlan : ∀ params folds commission slippage,
    (∀ fold ∈ folds, fold.trainEnd ≤ limit ∧ fold.validationEnd ≤ limit) →
      one.evaluatePlan.map (fun evaluate => evaluate params folds commission slippage) =
        other.evaluatePlan.map fun evaluate => evaluate params folds commission slippage

/-- An evaluator that slices one backtest of a plan. -/
def preparedEvaluator (slice : Result → Time → Time → Result)
    (context : Time → Time → Option (List Time) × ℤ)
    (backtest : Candidate Choice → Time → Time → ℚ → ℚ → Result) : Evaluator Choice Result where
  backtest := backtest
  evaluatePlan := some (preparedPlan slice backtest)
  context := context

theorem prepared_agree {slice : Result → Time → Time → Result}
    {context : Time → Time → Option (List Time) × ℤ}
    {one other : Candidate Choice → Time → Time → ℚ → ℚ → Result} {limit : Time}
    (h : ∀ params start finish commission slippage, finish ≤ limit →
      one params start finish commission slippage =
        other params start finish commission slippage) :
    AgreeUntil limit (preparedEvaluator slice context one)
      (preparedEvaluator slice context other) := by
  refine ⟨h, ?_⟩
  intro params folds commission slippage hfolds
  show some (preparedPlan slice one params folds commission slippage) =
    some (preparedPlan slice other params folds commission slippage)
  unfold preparedPlan
  cases hfirst : folds.head? with
  | none => rfl
  | some first =>
    cases hlast : folds.getLast? with
    | none => rfl
    | some last =>
      dsimp only
      rw [h params first.trainStart last.validationEnd commission slippage
        (hfolds last (List.mem_of_getLast? hlast)).2]

variable {scoring : Scoring Result Rest} {one other : Evaluator Choice Result} {limit : Time}
  {config : RunConfig} {folds : List WalkForwardFold} {commission slippage : ℚ}

theorem foldResults_agree (h : AgreeUntil limit one other)
    (hfolds : ∀ fold ∈ folds, fold.trainEnd ≤ limit ∧ fold.validationEnd ≤ limit)
    (params : Candidate Choice) :
    foldResults one params folds commission slippage =
      foldResults other params folds commission slippage := by
  have hplan := h.evaluatePlan params folds commission slippage hfolds
  unfold foldResults
  cases hone : one.evaluatePlan with
  | some evaluate =>
    rw [hone] at hplan
    cases hother : other.evaluatePlan with
    | some evaluate' =>
      rw [hother] at hplan
      exact Option.some.inj hplan
    | none =>
      rw [hother] at hplan
      cases hplan
  | none =>
    rw [hone] at hplan
    cases hother : other.evaluatePlan with
    | some evaluate' =>
      rw [hother] at hplan
      cases hplan
    | none =>
      refine List.map_congr_left ?_
      intro fold hfold
      rw [h.backtest params fold.trainStart fold.trainEnd commission slippage
          (hfolds fold hfold).1,
        h.backtest params fold.validationStart fold.validationEnd commission slippage
          (hfolds fold hfold).2]

theorem evaluateTrial_agree (h : AgreeUntil limit one other)
    (hfolds : ∀ fold ∈ folds, fold.trainEnd ≤ limit ∧ fold.validationEnd ≤ limit) :
    evaluateTrial scoring one config folds commission slippage =
      evaluateTrial scoring other config folds commission slippage := by
  funext number params priorScores
  unfold evaluateTrial
  rw [foldResults_agree h hfolds params]

theorem fold_ends
    (hplan : buildWalkForwardPlan start finish trainRatio observations options = .ok plan) :
    ∃ fold, plan.folds = [fold] ∧ fold.trainEnd ≤ fold.validationEnd := by
  have hsorted := @observationTimes_pairwise start finish observations
  obtain ⟨hroom, ⟨⟨fold, hfolds, -, hget2, -, hget4⟩, -⟩, -⟩ := planEntries_of_build hplan
  obtain ⟨htrain, hstart, hend, -⟩ := sizes_within trainRatio hroom
  have hembargo : 0 ≤ (walkForwardRequirements options).embargoBars := gap_nonneg
  exact ⟨fold, hfolds, entry_le hsorted hget2 hget4 (by omega)⟩

end

section

variable {G Choice Constraint Result Rest Report : Type} {source : RandomSource G}
  {numerics : Numerics Choice} {accepts : Constraint → Candidate Choice → Bool}
  {constraints : List Constraint} {scoring : Scoring Result Rest}
  {one other : Evaluator Choice Result} {parameters : List (SearchParameter Choice)}
  {config : RunConfig} {commission slippage : ℚ}

/-- The last validation bar of the plan of a run. -/
def LastValidation (evaluator : Evaluator Choice Result)
    (parameters : List (SearchParameter Choice)) (config : RunConfig) (start finish : Time)
    (limit : Time) : Prop :=
  ∃ plan, runPlan evaluator parameters config start finish = .ok plan ∧
    ∃ fold ∈ plan.folds.getLast?, fold.validationEnd = limit

/-- What two runs that may only differ in their reports have in common: runs that end with a
selection have the same trials, candidates and parameters, and what one raises before its report
the other raises too. -/
structure SameSelection (one other : Except RunError (Selection Choice Rest × Report)) : Prop where
  selected : ∀ selection report, one = .ok (selection, report) →
    ∀ selection' report', other = .ok (selection', report') →
      selection'.trials = selection.trials ∧ selection'.topCandidates = selection.topCandidates ∧
        selection'.bestParams = selection.bestParams
  raised : ∀ e, (∀ message, e ≠ .report message) → (one = .error e ↔ other = .error e)

theorem reportRun_same (report : Selection Choice Rest → TrialRow Choice Result Rest →
      Option Result × List Result → Except String Report)
    (selected : Except RunError
      (WalkForwardPlan × Selection Choice Rest × TrialRow Choice Result Rest)) :
    SameSelection (reportRun one report config start finish commission slippage selected)
      (reportRun other report config start finish commission slippage selected) := by
  cases selected with
  | error e =>
    refine ⟨?_, fun _ _ => Iff.rfl⟩
    intro selection report hone
    cases hone
  | ok chosen =>
    obtain ⟨plan, selection, best⟩ := chosen
    unfold reportRun
    dsimp only
    cases hone : report selection best
        (reportResults one config plan start finish commission slippage best.params) with
    | error message =>
      refine ⟨?_, ?_⟩
      · intro selected told hno
        cases hno
      · intro e he
        constructor
        · intro hmessage
          cases hmessage
          exact absurd rfl (he message)
        · intro hother
          cases htold : report selection best
              (reportResults other config plan start finish commission slippage
                best.params) with
          | error message' =>
            rw [htold] at hother
            cases hother
            exact absurd rfl (he message')
          | ok told =>
            rw [htold] at hother
            cases hother
    | ok told =>
      refine ⟨?_, ?_⟩
      · intro selected report' hsame selected' report'' hother
        cases hsame
        cases htold : report selection best
            (reportResults other config plan start finish commission slippage
              best.params) with
        | error message =>
          rw [htold] at hother
          cases hother
        | ok told' =>
          rw [htold] at hother
          cases hother
          exact ⟨rfl, rfl, rfl⟩
      · intro e he
        constructor
        · intro hno
          cases hno
        · intro hother
          cases htold : report selection best
              (reportResults other config plan start finish commission slippage
                best.params) with
          | error message =>
            rw [htold] at hother
            cases hother
            exact absurd rfl (he message)
          | ok told' =>
            rw [htold] at hother
            cases hother

variable [DecidableEq Choice]

theorem runSelection_agree (hcontext : one.context = other.context)
    (hagree : ∀ limit, LastValidation one parameters config start finish limit →
      AgreeUntil limit one other) :
    runSelection scoring one source numerics accepts constraints parameters config start finish
        commission slippage =
      runSelection scoring other source numerics accepts constraints parameters config start finish
        commission slippage := by
  have hplans : runPlan other parameters config start finish =
      runPlan one parameters config start finish := by
    unfold runPlan
    rw [hcontext]
  unfold runSelection
  rw [hplans]
  cases hplan : runPlan one parameters config start finish with
  | error e => rfl
  | ok plan =>
    obtain ⟨fold, hfolds, hends⟩ := fold_ends hplan
    have hlimit : LastValidation one parameters config start finish fold.validationEnd := by
      refine ⟨plan, hplan, fold, ?_, rfl⟩
      rw [hfolds]
      exact rfl
    have hevaluate : evaluateTrial scoring one config plan.folds commission slippage =
        evaluateTrial scoring other config plan.folds commission slippage := by
      refine evaluateTrial_agree (hagree _ hlimit) ?_
      intro last hlast
      rw [hfolds] at hlast
      rw [List.mem_singleton.1 hlast]
      exact ⟨hends, le_rfl⟩
    dsimp only
    rw [hevaluate]

theorem run_agree (report : Selection Choice Rest → TrialRow Choice Result Rest →
      Option Result × List Result → Except String Report)
    (hcontext : one.context = other.context)
    (hagree : ∀ limit, LastValidation one parameters config start finish limit →
      AgreeUntil limit one other) (g : G) :
    SameSelection
      ((run scoring one source numerics accepts constraints report parameters config start finish
        commission slippage).run g).1
      ((run scoring other source numerics accepts constraints report parameters config start finish
        commission slippage).run g).1 := by
  unfold run
  rw [runSelection_agree hcontext hagree]
  exact reportRun_same report _

end

/-- The search and the selection never see held-out data: the ranges of every plan are apart, and
runs with evaluators that agree until the last validation bar select alike; of evaluators that slice
one backtest of the plan, only the backtests have to agree. -/
theorem held_out_unseen {G Choice Constraint Result Rest Report : Type} [DecidableEq Choice] :
    (∀ start finish trainRatio observations options plan,
      buildWalkForwardPlan start finish trainRatio observations options = .ok plan →
        RangesApart (observationTimes start finish observations) options plan) ∧
    (∀ (scoring : Scoring Result Rest) (source : RandomSource G) (numerics : Numerics Choice)
      (accepts : Constraint → Candidate Choice → Bool) (constraints : List Constraint)
      (report : Selection Choice Rest → TrialRow Choice Result Rest →
        Option Result × List Result → Except String Report)
      (parameters : List (SearchParameter Choice)) (config : RunConfig) (start finish : Time)
      (commission slippage : ℚ) (g : G),
      (∀ one other : Evaluator Choice Result, one.context = other.context →
        (∀ limit, LastValidation one parameters config start finish limit →
          AgreeUntil limit one other) →
        SameSelection
          ((run scoring one source numerics accepts constraints report parameters config start
            finish commission slippage).run g).1
          ((run scoring other source numerics accepts constraints report parameters config start
            finish commission slippage).run g).1) ∧
      ∀ (slice : Result → Time → Time → Result) (context : Time → Time → Option (List Time) × ℤ)
        (one other : Candidate Choice → Time → Time → ℚ → ℚ → Result),
        (∀ limit, LastValidation (preparedEvaluator slice context one) parameters config start
            finish limit →
          ∀ params first last commission slippage, last ≤ limit →
            one params first last commission slippage =
              other params first last commission slippage) →
        SameSelection
          ((run scoring (preparedEvaluator slice context one) source numerics accepts constraints
            report parameters config start finish commission slippage).run g).1
          ((run scoring (preparedEvaluator slice context other) source numerics accepts constraints
            report parameters config start finish commission slippage).run g).1) := by
  refine ⟨?_, ?_⟩
  · intro start finish trainRatio observations options plan hplan
    exact ranges_apart hplan
  · intro scoring source numerics accepts constraints report parameters config start finish
      commission slippage g
    refine ⟨?_, ?_⟩
    · intro one other hcontext hagree
      exact run_agree report hcontext hagree g
    · intro slice context one other hagree
      have hcontext : (preparedEvaluator slice context one).context =
          (preparedEvaluator slice context other).context := rfl
      refine run_agree report hcontext ?_ g
      exact fun limit hlimit => prepared_agree (hagree limit hlimit)

/-! ## Ten days -/

def returnsOnly : Scoring ℚ Unit where
  snapshot := fun result => ⟨1, 1, result, 0⟩
  composite := fun _ validation => (0, ⟨(validation.map Metric.totalReturn).sum, 0, 1, ()⟩)
  training := fun train => ((train.map Metric.totalReturn).sum, ())
  signature := fun _ => ""
  bucket := id

def gainsUntil (day : ℤ) (_ : Candidate String) (_ finish : Time) (_ _ : ℚ) : ℚ :=
  if finish ≤ day * dayLength then 1 else -1

def daily (_ _ : Time) : Option (List Time) × ℤ := (none, 0)

def tenDays : RunConfig := ⟨⟨.grid, 2⟩, 1 / 2, 1 / 10, 1, false, 5, [1, 2]⟩

def tenDayRun (evaluator : Evaluator String ℚ) :
    Except RunError (Selection String Unit × Unit) :=
  ((run returnsOnly evaluator .lowest SearchTrials.decimal SearchTrials.anything []
    (fun _ _ _ => .ok ()) [SearchTrials.flag] tenDays 0 (9 * dayLength) 0 0).run ()).1

theorem tenDays_agree {evaluator : Evaluator String ℚ} (hcontext : evaluator.context = daily)
    {limit : Time}
    (h : LastValidation evaluator [SearchTrials.flag] tenDays 0 (9 * dayLength) limit)
    {finish : Time} (hfinish : finish ≤ limit) (params : Candidate String) (start : Time)
    (commission slippage : ℚ) :
    gainsUntil 7 params start finish commission slippage =
      gainsUntil 8 params start finish commission slippage := by
  obtain ⟨plan, hplan, fold, hfold, rfl⟩ := h
  have hknown : (runPlan (⟨gainsUntil 7, none, daily⟩ : Evaluator String ℚ) [SearchTrials.flag]
      tenDays 0 (9 * dayLength)).toOption.map
        (fun plan => plan.folds.getLast?.map WalkForwardFold.validationEnd) =
          some (some (7 * dayLength)) := by
    decide +kernel
  unfold runPlan at hknown hplan
  rw [hcontext] at hplan
  dsimp only at hknown hplan
  rw [hplan] at hknown
  have hend : plan.folds.getLast?.map WalkForwardFold.validationEnd = some (7 * dayLength) :=
    Option.some.inj hknown
  rw [Option.mem_def.1 hfold] at hend
  have hseven : finish ≤ 7 * dayLength := hfinish.trans (Option.some.inj hend).le
  have height : finish ≤ 8 * dayLength := hseven.trans (by decide)
  unfold gainsUntil
  rw [if_pos hseven, if_pos height]

theorem held_out_unseen_ten_days :
    (∃ plan, buildWalkForwardPlan 0 (9 * dayLength) (1 / 2) none ⟨0, some 1, none, 1 / 10⟩ =
        .ok plan ∧
      RangesApart (observationTimes 0 (9 * dayLength) none) ⟨0, some 1, none, 1 / 10⟩ plan) ∧
    SameSelection (tenDayRun ⟨gainsUntil 7, none, daily⟩)
      (tenDayRun ⟨gainsUntil 8, none, daily⟩) ∧
    SameSelection (tenDayRun (preparedEvaluator (fun result _ _ => result) daily (gainsUntil 7)))
      (tenDayRun (preparedEvaluator (fun result _ _ => result) daily (gainsUntil 8))) ∧
    (tenDayRun ⟨gainsUntil 7, none, daily⟩).toOption.isSome = true := by
  obtain ⟨hranges, hruns⟩ := @held_out_unseen Unit String Unit ℚ Unit Unit _
  obtain ⟨hplain, hprepared⟩ := hruns returnsOnly .lowest SearchTrials.decimal
    SearchTrials.anything [] (fun _ _ _ => .ok ()) [SearchTrials.flag] tenDays 0 (9 * dayLength) 0
    0 ()
  refine ⟨?_, ?_, ?_, by decide +kernel⟩
  · have hbuilt : (buildWalkForwardPlan 0 (9 * dayLength) (1 / 2) none
        ⟨0, some 1, none, 1 / 10⟩).toOption.isSome = true := by decide +kernel
    cases hplan : buildWalkForwardPlan 0 (9 * dayLength) (1 / 2) none
        ⟨0, some 1, none, 1 / 10⟩ with
    | error e =>
      rw [hplan] at hbuilt
      cases hbuilt
    | ok plan => exact ⟨plan, rfl, hranges _ _ _ _ _ plan hplan⟩
  · refine hplain _ _ rfl fun limit hlimit => ⟨?_, fun _ _ _ _ _ => rfl⟩
    intro params start finish commission slippage hfinish
    exact tenDays_agree rfl hlimit hfinish params start commission slippage
  · refine hprepared _ _ _ _ fun limit hlimit => ?_
    intro params first last commission slippage hlast
    exact tenDays_agree rfl hlimit hlast params first commission slippage

end QuantDinger.Analysis
