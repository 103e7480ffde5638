import QuantDinger.Model.WalkForward

/-!
# The history a walk-forward split needs

`walk_forward_requirements` asks for one bar in every part of the split and the embargo gaps between
them. The split itself gives the blind holdout its fraction of the whole sample, the gaps included,
so a long embargo can leave no bar to train on in a sample of the advertised size.
-/

namespace QuantDinger.Analysis

open QuantDinger.Model QuantDinger.Model.Evolution

def observationsBetween (observations : List Time) (first last : Time) : Finset Time :=
  observations.toFinset.filter fun value => first ≤ value ∧ value ≤ last

/-- Every part of the split has an observation. -/
structure Populated (observations : List Time) (blindRatio : ℚ) (plan : WalkForwardPlan) :
    Prop where
  folds : plan.folds ≠ []
  train : ∀ fold ∈ plan.folds,
    (observationsBetween observations fold.trainStart fold.trainEnd).Nonempty
  validation : ∀ fold ∈ plan.folds,
    (observationsBetween observations fold.validationStart fold.validationEnd).Nonempty
  blind : 0 < blindRatio → ∃ first last, plan.blindStart = some first ∧
    plan.blindEnd = some last ∧ (observationsBetween observations first last).Nonempty

/-- The blind share of `count` observations leaves room for the two gaps, a bar to train on and one
to validate on. A sample short of the requirement is refused in any case. -/
def BlindShareFits (count : ℕ) (options : WalkForwardOptions) : Prop :=
  let gap := (walkForwardRequirements options).embargoBars
  options.blindRatio = 0 ∨ count < 3 + 2 * gap ∨
    ⌊(count : ℚ) * options.blindRatio⌋ + 2 * gap + 2 ≤ count

/-! ## Entries of the sorted observations -/

section

variable {timestamps : List Time} {i j : ℤ}

theorem entryAt_ok (h0 : 0 ≤ i) (h : i < timestamps.length) :
    ∃ value, entryAt timestamps i = .ok value ∧ timestamps[i.toNat]? = some value := by
  have hlt : i.toNat < timestamps.length := by omega
  refine ⟨timestamps.get ⟨i.toNat, hlt⟩, ?_, by simp [hlt]⟩
  unfold entryAt
  rw [if_neg (by omega), List.getElem?_eq_getElem hlt]
  exact if_neg (by omega)

theorem entryAt_last (h : timestamps ≠ []) :
    ∃ value, entryAt timestamps (-1) = .ok value ∧
      timestamps[timestamps.length - 1]? = some value := by
  have hpos : 0 < timestamps.length := List.length_pos_of_ne_nil h
  have hlt : timestamps.length - 1 < timestamps.length := by omega
  refine ⟨timestamps.get ⟨_, hlt⟩, ?_, by simp [hlt]⟩
  have hindex : ((timestamps.length : ℤ) + -1).toNat = timestamps.length - 1 := by omega
  unfold entryAt
  rw [if_pos (by omega), hindex, List.getElem?_eq_getElem hlt]
  exact if_neg (by omega)

theorem observationsBetween_nonempty {observations : List Time} {first last : Time} {m n : ℕ}
    (hsorted : timestamps.Pairwise (· < ·)) (hmem : ∀ value ∈ timestamps, value ∈ observations)
    (hm : timestamps[m]? = some first) (hn : timestamps[n]? = some last) (h : m ≤ n) :
    (observationsBetween observations first last).Nonempty := by
  have hle : first ≤ last := by
    obtain ⟨hm', rfl⟩ := List.getElem?_eq_some_iff.mp hm
    obtain ⟨hn', rfl⟩ := List.getElem?_eq_some_iff.mp hn
    rcases h.lt_or_eq with hlt | rfl
    · exact (List.pairwise_iff_getElem.mp hsorted m n hm' hn' hlt).le
    · exact le_rfl
  refine ⟨first, ?_⟩
  unfold observationsBetween
  rw [Finset.mem_filter, List.mem_toFinset]
  exact ⟨hmem first (List.mem_of_getElem? hm), le_rfl, hle⟩

end

/-! ## Sizes of the parts -/

section

variable {start finish : Time} {trainRatio : ℚ} {observations : List Time}
  {options : WalkForwardOptions} {count : ℤ}

theorem gap_nonneg : 0 ≤ (walkForwardRequirements options).embargoBars := le_max_left _ _

theorem minimumRequiredBars_eq (h0 : 0 ≤ options.blindRatio) :
    (walkForwardRequirements options).minimumRequiredBars =
      if options.blindRatio = 0 then 2 + (walkForwardRequirements options).embargoBars
      else 3 + 2 * (walkForwardRequirements options).embargoBars := by
  unfold walkForwardRequirements
  dsimp only
  by_cases hzero : options.blindRatio = 0
  · rw [hzero, if_neg (lt_irrefl _), if_neg (lt_irrefl _), if_pos rfl]
    ring
  · have hpos : 0 < options.blindRatio := lt_of_le_of_ne h0 (Ne.symm hzero)
    rw [if_pos hpos, if_pos hpos, if_neg hzero]
    ring

theorem two_le_minimumRequiredBars (h0 : 0 ≤ options.blindRatio) :
    2 ≤ (walkForwardRequirements options).minimumRequiredBars := by
  have hgap : 0 ≤ (walkForwardRequirements options).embargoBars := gap_nonneg
  rw [minimumRequiredBars_eq h0]
  split_ifs <;> omega

theorem observationTimes_length (hrange : ∀ value ∈ observations, start ≤ value ∧ value ≤ finish) :
    (observationTimes start finish (some observations)).length = observations.toFinset.card := by
  unfold observationTimes
  rw [Finset.length_sort, Finset.filter_true_of_mem]
  intro value hvalue
  exact hrange value (List.mem_toFinset.mp hvalue)

theorem mem_of_mem_observationTimes {value : Time}
    (h : value ∈ observationTimes start finish (some observations)) : value ∈ observations := by
  unfold observationTimes at h
  rw [Finset.mem_sort, Finset.mem_filter, List.mem_toFinset] at h
  exact h.1

theorem observationTimes_sorted :
    (observationTimes start finish (some observations)).Pairwise (· < ·) :=
  (Finset.sortedLT_sort _).pairwise

theorem card_le_one (hrange : ∀ value ∈ observations, start ≤ value ∧ value ≤ finish)
    (h : finish ≤ start) : observations.toFinset.card ≤ 1 := by
  apply Finset.card_le_one.mpr
  intro a ha b hb
  have hra := hrange a (List.mem_toFinset.mp ha)
  have hrb := hrange b (List.mem_toFinset.mp hb)
  exact le_antisymm (hra.2.trans (h.trans hrb.1)) (hrb.2.trans (h.trans hra.1))

variable (trainRatio) in
theorem blindCount_eq (h0 : 0 ≤ options.blindRatio) (h3 : options.blindRatio ≤ 3 / 10)
    (hcount : 0 ≤ count) :
    (splitSizes count trainRatio options.blindRatio (walkForwardRequirements options)).blindCount =
      if 0 < options.blindRatio then max 1 ⌊(count : ℚ) * options.blindRatio⌋ else 0 := by
  have hproduct : 0 ≤ (count : ℚ) * options.blindRatio :=
    mul_nonneg (by exact_mod_cast hcount) h0
  unfold splitSizes fractionCount
  dsimp only
  rw [min_eq_right h3, max_eq_right h0, if_pos hproduct]

theorem halves_iff :
    let requirements := walkForwardRequirements options
    let sizes := splitSizes count trainRatio options.blindRatio requirements
    ¬ (sizes.trainBars < requirements.minimumTrainBars ∨
        sizes.validationBars < requirements.minimumValidationBars) ↔
      requirements.embargoBars + 2 ≤ sizes.developmentLimit := by
  intro requirements sizes
  have htrain : sizes.trainBars = min (sizes.developmentLimit - requirements.embargoBars - 1)
    (max 1 (fractionCount count trainRatio)) := rfl
  have hvalidation : sizes.validationBars =
    sizes.developmentLimit - 1 - (sizes.trainBars + requirements.embargoBars) + 1 := rfl
  have hmin : requirements.minimumTrainBars = 1 := rfl
  have hmin' : requirements.minimumValidationBars = 1 := rfl
  rw [hmin, hmin', hvalidation, htrain]
  omega

variable (trainRatio) in
theorem blindCount_pos_iff :
    let sizes := splitSizes count trainRatio options.blindRatio (walkForwardRequirements options)
    (sizes.blindCount = 0 ∨ 1 ≤ sizes.blindCount) ∧
      (sizes.blindCount ≠ 0 ↔ 0 < options.blindRatio) := by
  intro sizes
  have hblind : sizes.blindCount = if 0 < max 0 (min (3 / 10) options.blindRatio) then
      max 1 (fractionCount count (max 0 (min (3 / 10) options.blindRatio))) else 0 := rfl
  have hpos : 0 < max 0 (min (3 / 10) options.blindRatio) ↔ 0 < options.blindRatio := by
    rw [lt_max_iff, lt_min_iff]
    constructor
    · rintro (hno | ⟨-, hpos⟩)
      · exact absurd hno (lt_irrefl _)
      · exact hpos
    · exact fun hpos => Or.inr ⟨by norm_num, hpos⟩
  rw [hblind]
  by_cases h : 0 < options.blindRatio
  · rw [if_pos (hpos.mpr h)]
    have hone := le_max_left 1 (fractionCount count (max 0 (min (3 / 10) options.blindRatio)))
    exact ⟨Or.inr hone, fun _ => h, fun _ => by omega⟩
  · rw [if_neg fun hno => h (hpos.mp hno)]
    exact ⟨Or.inl rfl, fun hno => absurd rfl hno, fun hno => absurd hno h⟩

variable (trainRatio) in
theorem sizes_within :
    let requirements := walkForwardRequirements options
    let sizes := splitSizes count trainRatio options.blindRatio requirements
    requirements.embargoBars + 2 ≤ sizes.developmentLimit →
      1 ≤ sizes.trainBars ∧
      sizes.validationStartIndex = sizes.trainBars + requirements.embargoBars ∧
      sizes.validationStartIndex ≤ sizes.validationEndIndex ∧
      sizes.validationEndIndex < count ∧
      sizes.developmentLimit + sizes.blindGap =
        sizes.validationEndIndex + 1 + (if sizes.blindCount ≠ 0 then requirements.embargoBars
          else 0) ∧
      sizes.developmentLimit + sizes.blindGap + sizes.blindCount = count := by
  intro requirements sizes hroom
  have hgap : 0 ≤ requirements.embargoBars := gap_nonneg
  have htrain : sizes.trainBars = min (sizes.developmentLimit - requirements.embargoBars - 1)
    (max 1 (fractionCount count trainRatio)) := rfl
  have hstart : sizes.validationStartIndex = sizes.trainBars + requirements.embargoBars := rfl
  have hend : sizes.validationEndIndex = sizes.developmentLimit - 1 := rfl
  have hlimit : sizes.developmentLimit = count - sizes.blindCount - sizes.blindGap := rfl
  have hblindGap : sizes.blindGap = if sizes.blindCount ≠ 0 then requirements.embargoBars else 0 :=
    rfl
  have hcountNonneg : sizes.blindCount = 0 ∨ 1 ≤ sizes.blindCount :=
    (blindCount_pos_iff trainRatio).1
  have hgapNonneg : 0 ≤ sizes.blindGap := by
    rw [hblindGap]
    split_ifs
    · exact hgap
    · exact le_rfl
  refine ⟨by omega, hstart, by omega, by omega, ?_, by omega⟩
  rw [← hblindGap]
  omega

/-- Where the parts of a plan begin and end in the sample. -/
structure PlanEntries (timestamps : List Time) (sizes : SplitSizes) (plan : WalkForwardPlan) :
    Prop where
  folds : ∃ fold, plan.folds = [fold] ∧ timestamps[0]? = some fold.trainStart ∧
    timestamps[(sizes.trainBars - 1).toNat]? = some fold.trainEnd ∧
    timestamps[sizes.validationStartIndex.toNat]? = some fold.validationStart ∧
    timestamps[sizes.validationEndIndex.toNat]? = some fold.validationEnd
  blind : if sizes.blindCount ≠ 0 then
      ∃ first last, plan.blindStart = some first ∧ plan.blindEnd = some last ∧
        timestamps[(sizes.developmentLimit + sizes.blindGap).toNat]? = some first ∧
        timestamps[timestamps.length - 1]? = some last
    else plan.blindStart = none ∧ plan.blindEnd = none

theorem build_entries {observations : Option (List Time)} (hlt : start < finish)
    (hcount : (walkForwardRequirements options).minimumRequiredBars ≤
      ((observationTimes start finish observations).length : ℤ))
    (hroom : (walkForwardRequirements options).embargoBars + 2 ≤
      (splitSizes (observationTimes start finish observations).length trainRatio options.blindRatio
        (walkForwardRequirements options)).developmentLimit) :
    ∃ plan, buildWalkForwardPlan start finish trainRatio observations options = .ok plan ∧
      PlanEntries (observationTimes start finish observations)
        (splitSizes (observationTimes start finish observations).length trainRatio
          options.blindRatio (walkForwardRequirements options)) plan ∧
      plan.embargoBars = (walkForwardRequirements options).embargoBars := by
  have hhalves := halves_iff.mpr hroom
  unfold buildWalkForwardPlan
  dsimp only
  rw [if_neg (not_le.mpr hlt), if_neg (not_lt.mpr hcount), if_neg hhalves]
  obtain ⟨htrain, hstart, hend, hlast, hblindStart, hblindSum⟩ := sizes_within trainRatio hroom
  have hblindCount := (@blindCount_pos_iff trainRatio options
    (observationTimes start finish observations).length).1
  generalize observationTimes start finish observations = timestamps at *
  generalize splitSizes timestamps.length trainRatio options.blindRatio
    (walkForwardRequirements options) = sizes at *
  have hgap : 0 ≤ (walkForwardRequirements options).embargoBars := gap_nonneg
  have hne : timestamps ≠ [] := List.ne_nil_of_length_pos (by omega)
  obtain ⟨trainStart, hok1, hget1⟩ := @entryAt_ok timestamps 0 le_rfl (by omega)
  obtain ⟨trainEnd, hok2, hget2⟩ := @entryAt_ok timestamps
    (sizes.trainBars - 1) (by omega) (by omega)
  obtain ⟨validationStart, hok3, hget3⟩ := @entryAt_ok timestamps
    sizes.validationStartIndex (by omega) (by omega)
  obtain ⟨validationEnd, hok4, hget4⟩ := @entryAt_ok timestamps
    sizes.validationEndIndex (by omega) hlast
  obtain ⟨blindEnd, hok6, hget6⟩ := entryAt_last hne
  rw [hok1, hok2, hok3, hok4]
  by_cases hzero : sizes.blindCount = 0
  · rw [if_neg (not_not.mpr hzero)]
    refine ⟨_, rfl, ⟨⟨_, rfl, hget1, hget2, hget3, hget4⟩, ?_⟩, rfl⟩
    rw [if_neg (not_not.mpr hzero)]
    exact ⟨rfl, rfl⟩
  · rw [if_pos hzero] at hblindStart
    obtain ⟨blindStart, hok5, hget5⟩ := @entryAt_ok timestamps
      (sizes.developmentLimit + sizes.blindGap) (by omega) (by omega)
    rw [if_pos hzero, hok5, hok6]
    refine ⟨_, rfl, ⟨⟨_, rfl, hget1, hget2, hget3, hget4⟩, ?_⟩, rfl⟩
    rw [if_pos hzero]
    exact ⟨blindStart, blindEnd, rfl, rfl, hget5, hget6⟩

theorem build_of_room (hlt : start < finish)
    (hrange : ∀ value ∈ observations, start ≤ value ∧ value ≤ finish)
    (hcount : (walkForwardRequirements options).minimumRequiredBars ≤ observations.toFinset.card)
    (hroom : (walkForwardRequirements options).embargoBars + 2 ≤
      (splitSizes observations.toFinset.card trainRatio options.blindRatio
        (walkForwardRequirements options)).developmentLimit) :
    ∃ plan, buildWalkForwardPlan start finish trainRatio (some observations) options = .ok plan ∧
      Populated observations options.blindRatio plan := by
  have hlength : ((observationTimes start finish (some observations)).length : ℤ) =
      observations.toFinset.card := congrArg Nat.cast (observationTimes_length hrange)
  have hsorted := @observationTimes_sorted start finish observations
  have hmem : ∀ value ∈ observationTimes start finish (some observations),
      value ∈ observations := fun value hvalue => mem_of_mem_observationTimes hvalue
  rw [← hlength] at hcount hroom
  obtain ⟨plan, hplan, ⟨⟨fold, hfolds, hget1, hget2, hget3, hget4⟩, hblind⟩, -⟩ :=
    build_entries hlt hcount hroom
  obtain ⟨htrain, hstart, hend, hlast, hblindStart, hblindSum⟩ := sizes_within trainRatio hroom
  have hblindPos := @blindCount_pos_iff trainRatio options
    (observationTimes start finish (some observations)).length
  refine ⟨plan, hplan, ?_, ?_, ?_, ?_⟩
  · rw [hfolds]
    exact List.cons_ne_nil _ _
  · intro other hother
    rw [hfolds] at hother
    rw [List.mem_singleton.mp hother]
    exact observationsBetween_nonempty hsorted hmem hget1 hget2 (Nat.zero_le _)
  · intro other hother
    rw [hfolds] at hother
    rw [List.mem_singleton.mp hother]
    exact observationsBetween_nonempty hsorted hmem hget3 hget4 (by omega)
  · intro hpos
    have hone := hblindPos.1.resolve_left (hblindPos.2.mpr hpos)
    rw [if_pos (hblindPos.2.mpr hpos)] at hblind
    obtain ⟨first, last, hfirst, hlastSome, hget5, hget6⟩ := hblind
    exact ⟨first, last, hfirst, hlastSome,
      observationsBetween_nonempty hsorted hmem hget5 hget6 (by omega)⟩

theorem build_iff (hrange : ∀ value ∈ observations, start ≤ value ∧ value ≤ finish)
    (h0 : 0 ≤ options.blindRatio) :
    (∃ plan, buildWalkForwardPlan start finish trainRatio (some observations) options = .ok plan ∧
      Populated observations options.blindRatio plan) ↔
    (walkForwardRequirements options).minimumRequiredBars ≤ observations.toFinset.card ∧
      (walkForwardRequirements options).embargoBars + 2 ≤
        (splitSizes observations.toFinset.card trainRatio options.blindRatio
          (walkForwardRequirements options)).developmentLimit := by
  have hlength : ((observationTimes start finish (some observations)).length : ℤ) =
      observations.toFinset.card := congrArg Nat.cast (observationTimes_length hrange)
  constructor
  · rintro ⟨plan, hplan, -⟩
    unfold buildWalkForwardPlan at hplan
    dsimp only at hplan
    rw [hlength] at hplan
    split_ifs at hplan with hlt hshort hhalves
    · exact ⟨not_lt.mp hshort, halves_iff.mp hhalves⟩
    · exact ⟨not_lt.mp hshort, halves_iff.mp hhalves⟩
  · rintro ⟨hcount, hroom⟩
    have hlt : start < finish := by
      by_contra h
      have hone := card_le_one hrange (not_lt.mp h)
      have htwo := two_le_minimumRequiredBars h0
      omega
    exact build_of_room hlt hrange hcount hroom

variable (trainRatio) in
theorem room_iff {count : ℕ} (h0 : 0 ≤ options.blindRatio) (h3 : options.blindRatio ≤ 3 / 10)
    (hcount : (walkForwardRequirements options).minimumRequiredBars ≤ count) :
    (walkForwardRequirements options).embargoBars + 2 ≤
        (splitSizes count trainRatio options.blindRatio
          (walkForwardRequirements options)).developmentLimit ↔ BlindShareFits count options := by
  have hgap : 0 ≤ (walkForwardRequirements options).embargoBars := gap_nonneg
  have hblind := blindCount_eq trainRatio h0 h3 (Int.natCast_nonneg count)
  have hlimit : (splitSizes count trainRatio options.blindRatio
      (walkForwardRequirements options)).developmentLimit = count -
    (splitSizes count trainRatio options.blindRatio
      (walkForwardRequirements options)).blindCount -
    (if (splitSizes count trainRatio options.blindRatio
      (walkForwardRequirements options)).blindCount ≠ 0 then
        (walkForwardRequirements options).embargoBars else 0) := rfl
  rw [hlimit, hblind]
  rw [minimumRequiredBars_eq h0] at hcount
  unfold BlindShareFits
  dsimp only
  by_cases hzero : options.blindRatio = 0
  · rw [if_pos hzero] at hcount
    rw [if_neg (by rw [hzero]; exact lt_irrefl _), if_neg (not_not.mpr rfl)]
    exact ⟨fun _ => Or.inl hzero, fun _ => by omega⟩
  · have hpos : 0 < options.blindRatio := lt_of_le_of_ne h0 (Ne.symm hzero)
    rw [if_neg hzero] at hcount
    rw [if_pos hpos, Int.cast_natCast]
    generalize ⌊(count : ℚ) * options.blindRatio⌋ = share
    rw [if_pos (by omega : max 1 share ≠ 0)]
    constructor
    · intro hroom
      exact Or.inr (Or.inr (by omega))
    · rintro (h | h | h)
      · exact absurd h hzero
      · omega
      · omega

end

/-! ## The requirement -/

/-- The advertised number of observations is enough, and needed, exactly where the blind share of
the sample fits. -/
theorem history_enough_iff {start finish : Time} {observations : List Time} {trainRatio : ℚ}
    {options : WalkForwardOptions}
    (hrange : ∀ value ∈ observations, start ≤ value ∧ value ≤ finish)
    (h0 : 0 ≤ options.blindRatio) (h3 : options.blindRatio ≤ 3 / 10) :
    ((∃ plan,
        buildWalkForwardPlan start finish trainRatio (some observations) options = .ok plan ∧
        Populated observations options.blindRatio plan) ↔
      (walkForwardRequirements options).minimumRequiredBars ≤ observations.toFinset.card) ↔
    BlindShareFits observations.toFinset.card options := by
  rw [build_iff hrange h0]
  by_cases hcount :
      (walkForwardRequirements options).minimumRequiredBars ≤ observations.toFinset.card
  · have hroom := room_iff trainRatio h0 h3 hcount
    constructor
    · intro h
      exact hroom.mp (h.mpr hcount).2
    · intro hfits
      exact ⟨fun _ => hcount, fun _ => ⟨hcount, hroom.mpr hfits⟩⟩
  · refine ⟨fun _ => ?_, fun _ => ⟨fun h => h.1, fun h => absurd h hcount⟩⟩
    rw [minimumRequiredBars_eq h0] at hcount
    by_cases hzero : options.blindRatio = 0
    · exact Or.inl hzero
    · rw [if_neg hzero] at hcount
      exact Or.inr (Or.inl (not_le.mp hcount))

def dailyObservations : List Time := (List.range 23).map fun day : ℕ => day * dayLength

def longEmbargo : WalkForwardOptions :=
  { warmupBars := 0, embargoBars := some 10, embargoDays := none, blindRatio := 3 / 10 }

/-- With an embargo of ten bars the advertised 23 observations leave nothing to train on: the blind
share of six and the two gaps take all but minus three of them. -/
theorem history_not_enough :
    ¬ ∀ (start finish : Time) (observations : List Time) (trainRatio : ℚ)
        (options : WalkForwardOptions),
      (∀ value ∈ observations, start ≤ value ∧ value ≤ finish) →
      0 ≤ options.embargoBars.getD 0 → 0 ≤ options.blindRatio → options.blindRatio ≤ 3 / 10 →
      55 / 100 ≤ trainRatio → trainRatio ≤ 85 / 100 →
      ((∃ plan,
          buildWalkForwardPlan start finish trainRatio (some observations) options = .ok plan ∧
          Populated observations options.blindRatio plan) ↔
        (walkForwardRequirements options).minimumRequiredBars ≤ observations.toFinset.card) := by
  intro h
  have hrange : ∀ value ∈ dailyObservations, 0 ≤ value ∧ value ≤ 22 * dayLength := by
    decide +kernel
  have hcard : dailyObservations.toFinset.card = 23 := by decide +kernel
  have hrequired : (walkForwardRequirements longEmbargo).minimumRequiredBars = 23 := by
    decide +kernel
  have h0 : 0 ≤ longEmbargo.blindRatio := by norm_num [longEmbargo]
  have h3 : longEmbargo.blindRatio ≤ 3 / 10 := by norm_num [longEmbargo]
  have hbuilt := (h 0 (22 * dayLength) dailyObservations (7 / 10) longEmbargo hrange (by decide)
    h0 h3 (by norm_num) (by norm_num)).mpr (by rw [hcard, hrequired]; rfl)
  obtain ⟨hcount, hroom⟩ := (build_iff hrange h0).mp hbuilt
  rw [hcard] at hcount hroom
  have hfits := (room_iff _ h0 h3 hcount).mp hroom
  revert hfits
  unfold BlindShareFits
  decide +kernel

theorem history_enough_iff_daily :
    (∀ value ∈ dailyObservations, 0 ≤ value ∧ value ≤ 22 * dayLength) ∧
    (((∃ plan, buildWalkForwardPlan 0 (22 * dayLength) (7 / 10) (some dailyObservations)
          longEmbargo = .ok plan ∧ Populated dailyObservations longEmbargo.blindRatio plan) ↔
      (walkForwardRequirements longEmbargo).minimumRequiredBars ≤
        dailyObservations.toFinset.card) ↔
    BlindShareFits dailyObservations.toFinset.card longEmbargo) := by
  have hrange : ∀ value ∈ dailyObservations, 0 ≤ value ∧ value ≤ 22 * dayLength := by
    decide +kernel
  exact ⟨hrange, history_enough_iff hrange (by norm_num [longEmbargo]) (by norm_num [longEmbargo])⟩

end QuantDinger.Analysis
