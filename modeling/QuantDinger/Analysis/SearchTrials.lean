import Mathlib.Data.List.TakeWhile
import QuantDinger.Library.Replacements
import QuantDinger.Model.EvolutionSearch

/-!
# The trials of a grid or random search

The loop fills the places of the sampled list, with the fallback list as its reserve
(`searchStep_filling`, `searchLoop_filling`). So its trials are always different and accepted, and
they are as many as the sampled list has usable candidates exactly if no beginning of that list,
together with the fallback list, has fewer usable candidates than places.
-/

namespace QuantDinger.Analysis.SearchTrials

open Library Model Model.Evolution
open RandomSource (lowest)

section

variable {G Choice Constraint : Type} (source : RandomSource G)
  (numerics : Numerics Choice) (accepts : Constraint → Candidate Choice → Bool)
  (constraints : List Constraint) (evaluate : ℕ → Candidate Choice → List ℚ → Evaluation)
  (parameters : List (SearchParameter Choice)) (config : SearchConfig)

/-- How many different candidates of a list every constraint accepts. -/
def validCount (l : List (Candidate Choice)) : ℕ :=
  (usableKeys (identity numerics) (acceptedBy accepts constraints) l).card

/-- The trials are different, accepted by every constraint, and no fewer than the different
accepted candidates of the sampled list. -/
def WastesNone (sampled trials : List (Candidate Choice)) : Prop :=
  (trials.map (identity numerics)).Nodup ∧
  (∀ params ∈ trials, ∀ constraint ∈ constraints, accepts constraint params) ∧
  validCount numerics accepts constraints sampled ≤ trials.length

variable {numerics accepts constraints evaluate parameters config}

theorem acceptedBy_iff {params : Candidate Choice} :
    acceptedBy accepts constraints params ↔
      ∀ constraint ∈ constraints, accepts constraint params := by
  simp [acceptedBy, firstRejection]

/-! ## The fallback list -/

theorem scanCombinations_accepted {accept : Candidate Choice → Bool} {limit : ℕ}
    {l : List (Candidate Choice)} {state : GridScan Choice}
    (h : ∀ params ∈ state.candidates, accept params) :
    ∀ params ∈ (scanCombinations accept limit l state).candidates, accept params := by
  induction l generalizing state with
  | nil => exact h
  | cons candidate rest ih =>
    unfold scanCombinations
    dsimp only
    split_ifs with haccept hfull
    · have hnext : ∀ params ∈ state.candidates ++ [candidate], accept params := by
        intro params hmem
        rcases List.mem_append.1 hmem with hmem | hmem
        · exact h params hmem
        · exact List.mem_singleton.1 hmem ▸ haccept
      exact hnext
    · refine ih fun params hmem => ?_
      rcases List.mem_append.1 hmem with hmem | hmem
      · exact h params hmem
      · exact List.mem_singleton.1 hmem ▸ haccept
    · exact ih h

theorem fallbackGrid_accepted {trialCount : ℕ} :
    ∀ params ∈ fallbackGrid accepts constraints parameters config trialCount,
      acceptedBy accepts constraints params := by
  unfold fallbackGrid
  split_ifs
  · exact scanCombinations_accepted (by simp)
  · simp

/-! ## One attempt -/

variable (numerics accepts constraints) in
/-- The loop's variables as a filling of the sampled list. -/
structure Fills (sampled reserve : List (Candidate Choice)) (state : SearchState Choice) :
    Prop where
  filling : Filling (identity numerics) (acceptedBy accepts constraints) sampled reserve
    (state.trials.map (·.params)) state.fallback
  seen : state.seen = (state.trials.map (·.params)).map (identity numerics)

theorem recordTrial_filling {sampled reserve : List (Candidate Choice)}
    {state : SearchState Choice} {params : Candidate Choice} {left : List (Candidate Choice)}
    (hseen : state.seen = (state.trials.map (·.params)).map (identity numerics))
    (h : Filling (identity numerics) (acceptedBy accepts constraints) sampled reserve
      (state.trials.map (·.params) ++ [params]) left) (hleft : state.fallback = left) :
    Fills numerics accepts constraints sampled reserve
      (recordTrial numerics evaluate params state) := by
  constructor
  · simpa [recordTrial, hleft] using h
  · simp [recordTrial, hseen]

@[simp] theorem length_recordTrial (params : Candidate Choice) (state : SearchState Choice) :
    (recordTrial numerics evaluate params state).trials.length = state.trials.length + 1 := by
  simp [recordTrial]

variable (numerics) in
theorem nextFallback_spec (seen : List Identity) (fallback : List (Candidate Choice)) :
    (nextFallback numerics seen fallback = (none, []) ∧
        ∀ params ∈ fallback, identity numerics params ∈ seen) ∨
      ∃ skipped params rest, nextFallback numerics seen fallback = (some params, rest) ∧
        fallback = skipped ++ params :: rest ∧ identity numerics params ∉ seen ∧
        ∀ other ∈ skipped, identity numerics other ∈ seen := by
  have hsplit := List.takeWhile_append_dropWhile
    (p := fun params : Candidate Choice => decide (identity numerics params ∈ seen))
    (l := fallback)
  have hskipped : ∀ other ∈ fallback.takeWhile fun params => identity numerics params ∈ seen,
      identity numerics other ∈ seen := by
    intro other hother
    simpa using List.mem_takeWhile_imp hother
  unfold nextFallback
  cases hdrop : fallback.dropWhile fun params => identity numerics params ∈ seen with
  | nil =>
    rw [hdrop, List.append_nil] at hsplit
    refine .inl ⟨rfl, fun params hparams => hskipped params ?_⟩
    rwa [hsplit]
  | cons params rest =>
    refine .inr ⟨_, params, rest, rfl, (hdrop ▸ hsplit).symm, ?_, hskipped⟩
    have hhead := List.head?_dropWhile_not
      (fun params : Candidate Choice => decide (identity numerics params ∈ seen)) fallback
    rw [hdrop] at hhead
    simpa using hhead

theorem replaceTrial_filling {sampled reserve : List (Candidate Choice)}
    {state : SearchState Choice} {params : Candidate Choice}
    (hreserve : ∀ params ∈ reserve, acceptedBy accepts constraints params)
    (h : Fills numerics accepts constraints sampled reserve state)
    (hplace : sampled[state.trials.length]? = some params)
    (hentry : acceptedBy accepts constraints params → identity numerics params ∈ state.seen) :
    Fills numerics accepts constraints sampled reserve (replaceTrial numerics evaluate state) ∧
      ((replaceTrial numerics evaluate state).trials.length = state.trials.length + 1 ∨
        Stuck (identity numerics) (acceptedBy accepts constraints) sampled reserve
          ((replaceTrial numerics evaluate state).trials.map (·.params))) := by
  have hplace' : sampled[(state.trials.map (·.params)).length]? = some params := by
    rw [List.length_map, hplace]
  rw [h.seen] at hentry
  unfold replaceTrial
  rcases nextFallback_spec numerics state.seen state.fallback with
    ⟨hnext, hknown⟩ | ⟨skipped, replacement, rest, hnext, hfallback, hnew, hskipped⟩
  · rw [hnext]
    rw [h.seen] at hknown
    obtain ⟨hfilling, hnone⟩ := h.filling.exhaust hknown
    exact ⟨⟨hfilling, h.seen⟩, .inr ⟨params, hplace', hentry, hnone⟩⟩
  · rw [hnext]
    rw [h.seen] at hnew hskipped
    have hfilling := h.filling.replace hplace' hentry hreserve hfallback hskipped hnew
    exact ⟨recordTrial_filling h.seen hfilling rfl, .inl (length_recordTrial _ _)⟩

variable [DecidableEq Choice] (evaluate parameters)

theorem nextCandidate_eq (hmethod : config.method ≠ .tpe) {grid : List (Candidate Choice)}
    {history : List (Candidate Choice × ℚ)} {index : ℕ} {params : Candidate Choice}
    (hplace : grid[index]? = some params) :
    nextCandidate source numerics parameters config grid history index = pure params := by
  obtain ⟨hlt, hparams⟩ := List.getElem?_eq_some_iff.1 hplace
  have hget : grid.getD (index % grid.length) Dict.empty = params := by
    rw [Nat.mod_eq_of_lt hlt, List.getD_eq_getElem?_getD, hplace, Option.getD_some]
  unfold nextCandidate
  cases hkind : config.method with
  | grid => rw [hget]
  | random => rw [hget]
  | tpe => exact absurd hkind hmethod

theorem searchStep_filling (hmethod : config.method ≠ .tpe)
    {sampled reserve : List (Candidate Choice)} {state : SearchState Choice}
    (hreserve : ∀ params ∈ reserve, acceptedBy accepts constraints params)
    (h : Fills numerics accepts constraints sampled reserve state)
    (hopen : state.trials.length < sampled.length) :
    ∃ next, searchStep source numerics accepts constraints evaluate parameters config sampled
        state = pure next ∧
      Fills numerics accepts constraints sampled reserve next ∧
      (next.trials.length = state.trials.length + 1 ∨
        Stuck (identity numerics) (acceptedBy accepts constraints) sampled reserve
          (next.trials.map (·.params))) := by
  have hplace : sampled[state.trials.length]? = some (sampled[state.trials.length]) :=
    List.getElem?_eq_getElem hopen
  generalize sampled[state.trials.length] = params at hplace
  unfold searchStep
  rw [nextCandidate_eq source parameters hmethod hplace, pure_bind]
  dsimp only
  split_ifs with hrejected hseen
  · refine ⟨_, rfl, replaceTrial_filling hreserve ⟨h.filling, h.seen⟩ hplace ?_⟩
    intro haccepted
    rw [acceptedBy, Option.isNone_iff_eq_none] at haccepted
    rw [haccepted] at hrejected
    exact absurd hrejected Bool.false_ne_true
  · exact ⟨_, rfl, replaceTrial_filling hreserve ⟨h.filling, h.seen⟩ hplace fun _ => hseen⟩
  · have hplace' : sampled[(state.trials.map (·.params)).length]? = some params := by
      rw [List.length_map, hplace]
    have haccepted : acceptedBy accepts constraints params := by
      simpa [acceptedBy, Option.isNone_iff_eq_none] using hrejected
    rw [h.seen] at hseen
    exact ⟨_, rfl, recordTrial_filling h.seen (h.filling.take hplace' haccepted hseen) rfl,
      .inl (length_recordTrial _ _)⟩

/-! ## The loop -/

theorem searchLoop_filling (hmethod : config.method ≠ .tpe)
    {sampled reserve : List (Candidate Choice)} {state : SearchState Choice} {attempts : ℕ}
    (hreserve : ∀ params ∈ reserve, acceptedBy accepts constraints params)
    (h : Fills numerics accepts constraints sampled reserve state)
    (hattempts : sampled.length ≤ state.trials.length + attempts ∨
      Stuck (identity numerics) (acceptedBy accepts constraints) sampled reserve
        (state.trials.map (·.params))) :
    ∃ final, searchLoop source numerics accepts constraints evaluate parameters config sampled
        sampled.length attempts state = pure final ∧
      Fills numerics accepts constraints sampled reserve final ∧
      (final.trials.length = sampled.length ∨
        Stuck (identity numerics) (acceptedBy accepts constraints) sampled reserve
          (final.trials.map (·.params))) := by
  have hfits {state : SearchState Choice}
      (h : Fills numerics accepts constraints sampled reserve state) :
      state.trials.length ≤ sampled.length := by
    simpa using h.filling.fits
  induction attempts generalizing state with
  | zero =>
    refine ⟨state, rfl, h, hattempts.imp_left fun hle => ?_⟩
    exact le_antisymm (hfits h) hle
  | succ attempts ih =>
    unfold searchLoop
    split_ifs with hopen
    · obtain ⟨next, hstep, hnext, hmoved⟩ :=
        searchStep_filling source evaluate parameters hmethod hreserve h hopen
      rw [hstep, pure_bind]
      refine ih hnext ?_
      rcases hmoved with hlonger | hstuck
      · refine .inl ?_
        rcases hattempts with hle | hstuck
        · omega
        · refine absurd hstuck (h.filling.not_stuck_of_longer hnext.filling ?_)
          rw [List.length_map, List.length_map, hlonger]
      · exact .inr hstuck
    · exact ⟨state, rfl, h, .inl (le_antisymm (hfits h) (not_lt.1 hopen))⟩

variable (numerics accepts constraints config)

theorem search_filling (hmethod : config.method ≠ .tpe) (hsome : parameters ≠ [])
    (hfew : parameters.length ≤ 8) (g : G) :
    ∃ final, ((search source numerics accepts constraints evaluate parameters config).run g).1 =
        .ok final ∧
      let sampled := ((sampledGrid source numerics accepts constraints parameters config).run g).1.1
      let reserve := fallbackGrid accepts constraints parameters config sampled.length
      Fills numerics accepts constraints sampled reserve final ∧
      (final.trials.length = sampled.length ∨
        Stuck (identity numerics) (acceptedBy accepts constraints) sampled reserve
          (final.trials.map (·.params))) := by
  unfold search
  rw [if_neg hsome, if_neg (not_lt.2 hfew)]
  generalize hgrid : (sampledGrid source numerics accepts constraints parameters config).run g =
    drawn
  obtain ⟨⟨sampled, rejected⟩, g'⟩ := drawn
  have hcount : trialCountOf parameters config sampled = sampled.length := if_neg hmethod
  have hattempts : sampled.length ≤
      (if config.method = .grid then sampled.length
        else max (sampled.length * 30) (sampled.length + 100)) := by
    split_ifs
    · exact le_rfl
    · exact (Nat.le_add_right _ _).trans (le_max_right _ _)
  have hstart : Fills numerics accepts constraints sampled
      (fallbackGrid accepts constraints parameters config sampled.length)
      { fallback := fallbackGrid accepts constraints parameters config sampled.length
        constraintRejections := rejected } :=
    ⟨.start, rfl⟩
  obtain ⟨final, hloop, hfinal⟩ := searchLoop_filling source evaluate parameters hmethod
    fallbackGrid_accepted hstart (.inl (by simpa using hattempts))
  refine ⟨final, ?_, hfinal⟩
  rw [StateT.run_bind, hgrid]
  change (StateT.run (do
    let state ← searchLoop source numerics accepts constraints evaluate parameters config sampled
      (trialCountOf parameters config sampled)
      (if config.method = .grid then trialCountOf parameters config sampled
        else max (trialCountOf parameters config sampled * 30)
          (trialCountOf parameters config sampled + 100))
      { fallback := fallbackGrid accepts constraints parameters config
          (trialCountOf parameters config sampled)
        constraintRejections := rejected }
    pure (Except.ok state)) g').1 = .ok final
  rw [hcount, hloop]
  rfl

/-! ## The search -/

/-- The trials of a grid or random search waste no valid candidate exactly if every beginning of
the sampled list has, together with the fallback list, as many different valid candidates as
places, up to the number of different valid candidates of the whole list. -/
theorem search_wastes_none_iff (hmethod : config.method ≠ .tpe) (hsome : parameters ≠ [])
    (hfew : parameters.length ≤ 8) (g : G) :
    ∃ final, ((search source numerics accepts constraints evaluate parameters config).run g).1 =
        .ok final ∧
      let sampled := ((sampledGrid source numerics accepts constraints parameters config).run g).1.1
      let fallback := fallbackGrid accepts constraints parameters config sampled.length
      (WastesNone numerics accepts constraints sampled (final.trials.map (·.params)) ↔
        ∀ k ≤ validCount numerics accepts constraints sampled,
          k ≤ validCount numerics accepts constraints (sampled.take k ++ fallback)) := by
  obtain ⟨final, hfinal, hfills, hend⟩ := search_filling source numerics accepts constraints
    evaluate parameters config hmethod hsome hfew g
  refine ⟨final, hfinal, ?_⟩
  dsimp only
  have hiff := hfills.filling.card_le_length_iff (by simpa using hend)
  constructor
  · rintro ⟨_, _, hcount⟩
    exact hiff.1 hcount
  · intro hbeginnings
    refine ⟨hfills.filling.distinct, ?_, hiff.2 hbeginnings⟩
    exact fun params hparams => acceptedBy_iff.1 (hfills.filling.good params hparams)

end

/-! ## An integer parameter without a step -/

def decimal : Numerics String where
  repr
    | .integer n => toString n
    | .number x => toString x.num ++ "/" ++ toString x.den
    | .boolean b => if b then "True" else "False"
    | .choice c => c
  bandwidth := fun item _ => (item.high - item.low) / 6
  densityRatio := fun _ _ _ _ => 0

def window : SearchParameter String :=
  { name := "window", kind := .integer, minimum := some 0, maximum := some 3
    default := .integer 1 }

def flag : SearchParameter String :=
  { name := "flag", kind := .boolean, default := .boolean false }

def anything (_ : Unit) (_ : Candidate String) : Bool := true

def flat : ℕ → Candidate String → List ℚ → Evaluation := fun _ _ _ => ⟨false, 0⟩

theorem search_wastes_none_flag :
    ∃ final, ((search lowest decimal anything [] flat [flag] ⟨.grid, 4⟩).run ()).1 =
        .ok final ∧
      let sampled :=
        ((sampledGrid lowest decimal anything [] [flag] ⟨.grid, 4⟩).run ()).1.1
      let fallback := fallbackGrid anything [] [flag] ⟨.grid, 4⟩ sampled.length
      (WastesNone decimal anything [] sampled (final.trials.map (·.params)) ↔
        ∀ k ≤ validCount decimal anything [] sampled,
          k ≤ validCount decimal anything [] (sampled.take k ++ fallback)) :=
  search_wastes_none_iff lowest decimal anything [] flat [flag] ⟨.grid, 4⟩ (by decide) (by decide)
    (by decide) ()

/-- The grid of the window lists 0 twice; the search is stuck at the second one. -/
theorem window_search_stuck :
    SearchParameter.fromPayload
        { name := "window", type := "integer", min := some 0, max := some 3
          default := Value.integer 1 } = .ok window ∧
      ∃ final, ((search lowest decimal anything [] flat [window] ⟨.grid, 10⟩).run
          ()).1 = .ok final ∧
        ¬ WastesNone decimal anything []
          ((sampledGrid lowest decimal anything [] [window] ⟨.grid, 10⟩).run ()).1.1
          (final.trials.map (·.params)) := by
  refine ⟨by rfl, ?_⟩
  obtain ⟨final, hfinal, hfills, hend⟩ := search_filling lowest decimal anything []
    flat [window] ⟨.grid, 10⟩ (by decide) (by decide) (by decide) ()
  refine ⟨final, hfinal, ?_⟩
  rintro ⟨_, _, hcount⟩
  have hbeginnings := (hfills.filling.card_le_length_iff (by simpa using hend)).1 hcount
  have htwo := hbeginnings 2 (by decide +kernel)
  revert htwo
  decide +kernel

end QuantDinger.Analysis.SearchTrials
