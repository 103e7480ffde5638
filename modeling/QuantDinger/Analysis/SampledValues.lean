import QuantDinger.Analysis.GridSamples

/-!
# The values of a regular parameter

Whatever function draws it, a value of a regular parameter is a point of its ladder cast to its
kind, so it is in the domain; and the points of one axis are all different.
-/

namespace QuantDinger.Analysis.SampledValues

open Library Model Model.Evolution ParameterDomains GridSamples

section

variable {G Choice : Type} {source : RandomSource G}
  {numerics : Numerics Choice} {item : SearchParameter Choice} {step : ℚ}

theorem inDomain_of_onLadder (hnumeric : Numeric item) (hstep : item.step = some step) {x : ℚ}
    (h : OnLadder item.low item.high step (roundTo (unitOf item) x)) :
    InDomain item (item.cast x) := by
  refine (inDomain_cast_iff hnumeric).2 ⟨h.1, h.2.1, fun other hother => ?_⟩
  obtain rfl : other = step := by
    rw [hstep] at hother
    exact (Option.some.inj hother).symm
  exact h.2.2

theorem inDomain_flat (hnumeric : Numeric item) (hregular : Regular item)
    (hstep : item.step = none) {x : ℚ} (hlow : item.low ≤ x) (hhigh : x ≤ item.high) :
    InDomain item (item.cast x) := by
  have hflat := hregular hnumeric
  rw [hstep] at hflat
  obtain ⟨hbounds, hmultiple⟩ := hflat
  obtain rfl : x = item.low := le_antisymm (hhigh.trans_eq hbounds.symm) hlow
  rw [inDomain_cast_iff hnumeric, (roundTo_eq_self_iff unitOf_pos).2 hmultiple]
  refine ⟨le_rfl, hbounds.le, fun step hmem => ?_⟩
  rw [hstep] at hmem
  exact absurd hmem (Option.not_mem_none step)

theorem domainValue_stepped (hnumeric : Numeric item) (hvalid : ValidRange item)
    (hstep : item.step = some step) (index : ℕ) (fallback : ℚ) :
    domainValue index (domainSize item) item.low item.high (item.stepOr fallback) =
      ladderPoint item.low item.high step (lastIndex item step) index := by
  have hpos := hvalid.step_pos step hstep
  rw [domainSize_numeric hnumeric, stepOr_some hstep hpos, stepOr_some hstep hpos,
    domainValue_eq hpos hvalid.low_le]
  rfl

theorem domainSize_stepped (hnumeric : Numeric item) (hvalid : ValidRange item)
    (hstep : item.step = some step) : domainSize item = lastIndex item step + 1 := by
  rw [domainSize_numeric hnumeric, stepOr_some hstep (hvalid.step_pos step hstep)]
  exact (Nat.sub_add_cancel steppedSize_pos).symm

/-- A point of the ladder of a stepped parameter. -/
def IsPoint (item : SearchParameter Choice) (step x : ℚ) : Prop :=
  ∃ i ≤ lastIndex item step, x = ladderPoint item.low item.high step (lastIndex item step) i

theorem nearer_mem {P : ℚ → Prop} {value a b : ℚ} (ha : P a) (hb : P b) :
    P (nearer value a b) := by
  unfold nearer
  split_ifs
  · exact hb
  · exact ha

theorem snapToDomain_mem (hnumeric : Numeric item) (hvalid : ValidRange item)
    (hstep : item.step = some step) (value : ℚ) :
    snapToDomain item value = item.low ∨ IsPoint item step (snapToDomain item value) := by
  have hsize := domainSize_stepped hnumeric hvalid hstep
  have hclamp (index : ℤ) :
      (max 0 (min ((domainSize item : ℤ) - 1) index)).toNat ≤ lastIndex item step := by
    rw [hsize]
    omega
  have hpoint (index : ℕ) (hindex : index ≤ lastIndex item step) : IsPoint item step
      (domainValue index (domainSize item) item.low item.high (item.stepOr 1)) :=
    ⟨index, hindex, domainValue_stepped hnumeric hvalid hstep index 1⟩
  unfold snapToDomain
  dsimp only
  split_ifs
  · exact .inl rfl
  · refine .inr (nearer_mem (nearer_mem ?_ ?_) ?_)
    · exact hpoint _ (hclamp _)
    · exact hpoint _ (hclamp _)
    · exact hpoint _ (by rw [hsize]; omega)

theorem inDomain_of_isPoint (hnumeric : Numeric item) (hvalid : ValidRange item)
    (hregular : Regular item) (hstep : item.step = some step) {x : ℚ}
    (h : x = item.low ∨ IsPoint item step x) : InDomain item (item.cast x) := by
  obtain ⟨hon, _, hlow⟩ := (regular_iff_roundsWell hnumeric hvalid hstep).1 hregular
  refine inDomain_of_onLadder hnumeric hstep ?_
  rcases h with rfl | ⟨i, hi, rfl⟩
  · exact hlow
  · exact hon i hi

theorem isPoint_between (hvalid : ValidRange item) (hstep : item.step = some step) {x : ℚ}
    (h : x = item.low ∨ IsPoint item step x) : item.low ≤ x ∧ x ≤ item.high := by
  have hpos := hvalid.step_pos step hstep
  have hladder := isLadder hpos hvalid.low_le
  rcases h with rfl | ⟨i, hi, rfl⟩
  · exact ⟨le_rfl, hvalid.low_le⟩
  · unfold ladderPoint
    split_ifs with hlt
    · have hnonneg : (0 : ℚ) ≤ i * step := mul_nonneg (Nat.cast_nonneg _) hpos.le
      exact ⟨by linarith, (hladder.rung_lt i hlt).le⟩
    · exact ⟨hvalid.low_le, le_rfl⟩

theorem clamped_inDomain (hnumeric : Numeric item) (hvalid : ValidRange item)
    (hregular : Regular item) (value : ℚ) :
    InDomain item (item.cast (min item.high (max item.low
      (if item.step.getD 0 ≠ 0 then snapToDomain item value else value)))) := by
  cases hstep : item.step with
  | none =>
    rw [if_neg (by simp)]
    exact inDomain_flat hnumeric hregular hstep (le_min hvalid.low_le (le_max_left _ _))
      (min_le_left _ _)
  | some step =>
    have hpos := hvalid.step_pos step hstep
    rw [if_pos (by simpa using hpos.ne')]
    have hpoint := snapToDomain_mem hnumeric hvalid hstep value
    obtain ⟨hlow, hhigh⟩ := isPoint_between hvalid hstep hpoint
    rw [max_eq_right hlow, min_eq_right hhigh]
    exact inDomain_of_isPoint hnumeric hvalid hregular hstep hpoint

/-! ## Axes -/

/-- What is known of an accepted parameter: bounds and step in order if it takes numbers, choices
without repetition if it takes those. -/
structure WellFormed (item : SearchParameter Choice) : Prop where
  range : Numeric item → ValidRange item
  choices : item.kind ≠ .boolean → item.choices.Nodup

theorem gridValues_flat (hnumeric : Numeric item) (hflat : item.low = item.high) {limit : ℕ}
    (hlimit : 0 < limit) : gridValues item limit = [item.cast item.high] := by
  have hsize : domainSize item = 1 := by
    rw [domainSize_numeric hnumeric]
    exact if_pos hflat.ge
  unfold gridValues
  rw [if_neg hnumeric.1, if_neg (not_not.2 hnumeric.2), hsize, axisIndices_eq_range hlimit]
  simp [domainValue]

theorem gridValues_spec (hwell : WellFormed item) (hregular : Regular item) {limit : ℕ}
    (hlimit : 0 < limit) :
    (gridValues item limit).Nodup ∧ gridValues item limit ≠ [] ∧
      ∀ value ∈ gridValues item limit, InDomain item value := by
  by_cases hnumeric : Numeric item
  · have hvalid := hwell.range hnumeric
    cases hstep : item.step with
    | none =>
      have hflat := hregular hnumeric
      rw [hstep] at hflat
      rw [gridValues_flat hnumeric hflat.1 hlimit]
      refine ⟨List.nodup_singleton _, List.cons_ne_nil _ _, fun value hvalue => ?_⟩
      rw [List.mem_singleton.1 hvalue]
      exact inDomain_flat hnumeric hregular hstep hvalid.low_le le_rfl
    | some step =>
      obtain ⟨hnodup, hne, hlt⟩ :=
        axisIndices_spec (Nat.succ_pos (lastIndex item step)) hlimit
      have hapart := ((regular_iff_roundsWell hnumeric hvalid hstep).1 hregular).2.1
      rw [gridValues_stepped hnumeric hvalid hstep]
      refine ⟨?_, by simpa using hne, ?_⟩
      · refine hnodup.map_on fun i hi j hj heq => ?_
        rw [cast_eq_cast_iff] at heq
        rcases lt_trichotomy i j with hij | rfl | hij
        · exact absurd heq (hapart i j hij (Nat.lt_succ_iff.1 (hlt j hj)))
        · rfl
        · exact absurd heq.symm (hapart j i hij (Nat.lt_succ_iff.1 (hlt i hi)))
      · intro value hvalue
        obtain ⟨i, hi, rfl⟩ := List.mem_map.1 hvalue
        exact inDomain_of_isPoint hnumeric hvalid hregular hstep
          (.inr ⟨i, Nat.lt_succ_iff.1 (hlt i hi), rfl⟩)
  · unfold gridValues InDomain
    split_ifs with hboolean hchoices
    · exact ⟨by simp, by simp, by simp⟩
    · refine ⟨?_, by simpa using hchoices, ?_⟩
      · exact (hwell.choices hboolean).map fun a b hab => Value.choice.inj hab
      · intro value hvalue
        obtain ⟨choice, hchoice, rfl⟩ := List.mem_map.1 hvalue
        exact ⟨choice, hchoice, rfl⟩
    · exact absurd ⟨hboolean, not_not.1 hchoices⟩ hnumeric

theorem length_gridValues {limit : ℕ} (h : domainSize item ≤ limit) :
    (gridValues item limit).length = domainSize item := by
  unfold gridValues
  split_ifs with hboolean hchoices
  · simp [domainSize, hboolean]
  · have hpos := List.length_pos_of_ne_nil hchoices
    unfold domainSize
    rw [if_neg hboolean, if_pos hchoices, List.length_map, max_eq_right hpos]
  · rw [List.length_map, axisIndices_eq_range h, List.length_range]

theorem valueAtDomainIndex_inDomain (hwell : WellFormed item) (hregular : Regular item) {index : ℕ}
    (hindex : index < domainSize item) :
    InDomain item (valueAtDomainIndex item index (domainSize item)) := by
  by_cases hnumeric : Numeric item
  · have hvalid := hwell.range hnumeric
    unfold valueAtDomainIndex
    rw [if_neg hnumeric.1, hnumeric.2]
    dsimp only
    cases hstep : item.step with
    | none =>
      have hflat := hregular hnumeric
      rw [hstep] at hflat
      have hsize : domainSize item = 1 := by
        rw [domainSize_numeric hnumeric]
        exact if_pos hflat.1.ge
      rw [domainValue, if_pos (by omega)]
      exact inDomain_flat hnumeric hregular hstep hvalid.low_le le_rfl
    | some step =>
      have hsize := domainSize_stepped hnumeric hvalid hstep
      rw [domainValue_stepped hnumeric hvalid hstep]
      exact inDomain_of_isPoint hnumeric hvalid hregular hstep (.inr ⟨index, by omega, rfl⟩)
  · unfold valueAtDomainIndex InDomain
    split_ifs with hboolean hchoices
    · exact ⟨_, rfl⟩
    · cases hlist : item.choices with
      | nil => exact absurd hlist hchoices
      | cons first rest =>
        have hlt : index < (first :: rest).length := by
          simpa [domainSize, hboolean, hlist] using hindex
        refine ⟨_, ?_, rfl⟩
        rw [List.getD_eq_getElem?_getD, List.getElem?_eq_getElem hlt, Option.getD_some]
        exact List.getElem_mem hlt
    · exact absurd ⟨hboolean, not_not.1 hchoices⟩ hnumeric

/-! ## Drawn values -/

theorem randomValue_inDomain (hwell : WellFormed item) (hregular : Regular item) :
    Yields (randomValue source item) (InDomain item) := by
  unfold randomValue
  by_cases hnumeric : Numeric item
  · rw [if_neg hnumeric.1, hnumeric.2]
    exact Yields.any.bind fun value _ =>
      .pure (clamped_inDomain hnumeric (hwell.range hnumeric) hregular value)
  · refine Yields.ite (fun hboolean => ?_) fun hboolean => ?_
    · refine Yields.any.bind fun bit _ => .pure ?_
      unfold InDomain
      rw [if_pos hboolean]
      exact ⟨_, rfl⟩
    · cases hlist : item.choices with
      | nil => exact absurd ⟨hboolean, hlist⟩ hnumeric
      | cons first rest =>
        refine (RandomSource.choice_mem first rest).bind fun choice hchoice => .pure ?_
        unfold InDomain
        rw [if_neg hboolean, if_pos (by simp [hlist]), hlist]
        exact ⟨choice, hchoice, rfl⟩

theorem stratifiedAxis_inDomain (hwell : WellFormed item) (hregular : Regular item) {target : ℕ} :
    Yields (stratifiedAxis source target item) fun values =>
      values.length = target ∧ ∀ value ∈ values, InDomain item value := by
  have hpos : 0 < domainSize item := by
    unfold domainSize
    split_ifs
    · exact zero_lt_two
    · exact Nat.lt_of_lt_of_le zero_lt_one (le_max_left _ _)
    · exact steppedSize_pos
  refine (RandomSource.shuffle_mem (List.range target)).bind fun strata hstrata => ?_
  refine (Yields.mapM (R := fun _ value => InDomain item value) fun stratum _ => ?_).mono
    fun values hvalues => ?_
  · refine Yields.any.bind fun fraction _ => .pure ?_
    exact valueAtDomainIndex_inDomain hwell hregular (by omega)
  · refine ⟨?_, fun value hvalue => ?_⟩
    · rw [← hvalues.length_eq, hstrata.1, List.length_range]
    · clear hstrata
      induction hvalues with
      | nil => simp at hvalue
      | cons hhead _ ih =>
        rcases List.mem_cons.1 hvalue with rfl | hvalue
        · exact hhead
        · exact ih hvalue

end

end QuantDinger.Analysis.SampledValues
