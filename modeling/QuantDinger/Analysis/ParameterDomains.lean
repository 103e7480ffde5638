import QuantDinger.Library.Ladder
import QuantDinger.Library.Spacing
import QuantDinger.Model.ParameterSearch

/-!
# The domains of search parameters

The axis of a stepped parameter is a ladder from its minimum to its maximum, cast to its kind. Its
length and the point the maximum stands for come from `_domain_size`, which counts a maximum that
lies barely off a step as that step (`EndsAt`).
-/

namespace QuantDinger.Analysis.ParameterDomains

open Library Model Model.Evolution

/-! ## The ladder of a stepped range -/

/-- The maximum counts as the `k`-th step: it lies on it, or beyond it by no more than the
tolerance and by less than a step. -/
def EndsAt (low high step : ℚ) (k : ℕ) : Prop :=
  low + k * step ≤ high ∧ high - (low + k * step) ≤ tolerance low high ∧
    high - (low + k * step) < (1 - 1 / 10 ^ 12) * step

section

variable {low high step : ℚ} {k : ℕ}

theorem tolerance_pos : 0 < tolerance low high := by
  unfold tolerance
  have hone : (1 : ℚ) ≤ max 1 (max |low| |high|) := le_max_left _ _
  positivity

theorem regularSteps_spec (hstep : 0 < step) (hle : low ≤ high) :
    (regularSteps low high step - 1 / 10 ^ 12) * step ≤ high - low ∧
      high - low < (regularSteps low high step + 1 - 1 / 10 ^ 12) * step := by
  have hspan : 0 ≤ (high - low) / step + 1 / 10 ^ 12 := by
    have : 0 ≤ (high - low) / step := div_nonneg (sub_nonneg.2 hle) hstep.le
    linarith
  have hcast : ((regularSteps low high step : ℕ) : ℚ) = ⌊(high - low) / step + 1 / 10 ^ 12⌋ := by
    unfold regularSteps
    exact_mod_cast Int.toNat_of_nonneg (Int.floor_nonneg.2 hspan)
  have hfloor := Int.floor_le ((high - low) / step + 1 / 10 ^ 12)
  have hlt := Int.lt_floor_add_one ((high - low) / step + 1 / 10 ^ 12)
  rw [← hcast] at hfloor hlt
  have hmul : (high - low) / step * step = high - low := div_mul_cancel₀ _ hstep.ne'
  constructor
  · calc (regularSteps low high step - 1 / 10 ^ 12) * step ≤ (high - low) / step * step :=
          mul_le_mul_of_nonneg_right (by linarith) hstep.le
      _ = high - low := hmul
  · calc high - low = (high - low) / step * step := hmul.symm
      _ < (regularSteps low high step + 1 - 1 / 10 ^ 12) * step :=
          mul_lt_mul_of_pos_right (by linarith) hstep

theorem lt_steppedSize_iff (hstep : 0 < step) (hle : low ≤ high) :
    k < steppedSize low high step - 1 ↔ low + k * step < high ∧ ¬ EndsAt low high step k := by
  obtain ⟨hfloor, hnext⟩ := regularSteps_spec hstep hle
  have hpos := @tolerance_pos low high
  unfold steppedSize EndsAt
  split_ifs with hflat hextra
  · have hnonneg : (0 : ℚ) ≤ k * step := mul_nonneg (Nat.cast_nonneg _) hstep.le
    constructor
    · intro hlt
      omega
    · rintro ⟨hlt, _⟩
      linarith
  all_goals
    generalize regularSteps low high step = steps at *
    rcases lt_trichotomy k steps with hlt | rfl | hgt
    · have hcast : (k : ℚ) + 1 ≤ steps := by exact_mod_cast hlt
      have hmul := mul_le_mul_of_nonneg_right hcast hstep.le
      constructor
      · intro _
        refine ⟨by nlinarith, ?_⟩
        rintro ⟨_, _, hnear⟩
        nlinarith
      · intro _
        omega
    · constructor
      · intro hlast
        first
          | omega
          | exact ⟨by linarith, fun hends => by linarith [hends.2.1]⟩
      · rintro ⟨hbelow, hends⟩
        first
          | omega
          | exact absurd ⟨hbelow.le, by linarith, by linarith⟩ hends
    · have hcast : (steps : ℚ) + 1 ≤ k := by exact_mod_cast hgt
      have hmul := mul_le_mul_of_nonneg_right hcast hstep.le
      constructor
      · intro _
        omega
      · rintro ⟨hbelow, _⟩
        nlinarith

theorem isLadder (hstep : 0 < step) (hle : low ≤ high) :
    IsLadder low high step (steppedSize low high step - 1) where
  step_pos := hstep
  low_le := hle
  rung_lt := fun _ hi => ((lt_steppedSize_iff hstep hle).1 hi).1
  lt_next := by
    -- the point after the last one is no step below the maximum, nor does the maximum count as it
    have hnext := (regularSteps_spec hstep hle).2
    have hsize : regularSteps low high step ≤ steppedSize low high step - 1 ∨ high ≤ low := by
      unfold steppedSize
      split_ifs with hflat
      · exact .inr hflat
      · exact .inl (by omega)
      · exact .inl (by omega)
    rcases hsize with hsize | hflat
    · have hcast : (regularSteps low high step : ℚ) ≤ (steppedSize low high step - 1 : ℕ) := by
        exact_mod_cast hsize
      nlinarith [mul_le_mul_of_nonneg_right hcast hstep.le]
    · have hnonneg : (0 : ℚ) ≤ (steppedSize low high step - 1 : ℕ) * step :=
        mul_nonneg (Nat.cast_nonneg _) hstep.le
      linarith

theorem endsAt_iff (hstep : 0 < step) (hle : low ≤ high) :
    EndsAt low high step k ↔ low + k * step ≤ high ∧ k = steppedSize low high step - 1 := by
  have hladder := isLadder hstep hle
  constructor
  · intro hends
    refine ⟨hends.1, le_antisymm (hladder.rung_le_iff hends.1) ?_⟩
    by_contra hlt
    exact ((lt_steppedSize_iff hstep hle).1 (not_le.1 hlt)).2 hends
  · rintro ⟨hk, rfl⟩
    by_contra hends
    rcases hk.lt_or_eq with hlt | heq
    · exact lt_irrefl _ ((lt_steppedSize_iff hstep hle).2 ⟨hlt, hends⟩)
    · refine hends ⟨hk, ?_, ?_⟩
      · rw [heq, sub_self]
        exact tolerance_pos.le
      · rw [heq, sub_self]
        norm_num
        exact hstep

theorem domainValue_eq (hstep : 0 < step) (hle : low ≤ high) (index : ℕ) :
    domainValue index (steppedSize low high step) low high step =
      ladderPoint low high step (steppedSize low high step - 1) index := by
  unfold domainValue ladderPoint
  split_ifs with hlast hlt hlt
  · omega
  · rfl
  · exact min_eq_right ((isLadder hstep hle).rung_lt index hlt).le
  · omega

theorem steppedSize_pos : 0 < steppedSize low high step := by
  unfold steppedSize
  split_ifs <;> omega

end

/-! ## Values -/

section

variable {Choice : Type} {item : SearchParameter Choice}

def unitOf (item : SearchParameter Choice) : ℚ := if item.kind = .integer then 1 else 1 / 10 ^ 10

def Denotes (item : SearchParameter Choice) (value : Value Choice) (x : ℚ) : Prop :=
  if item.kind = .integer then ∃ n : ℤ, (n : ℚ) = x ∧ value = .integer n else value = .number x

/-- A parameter whose values are numbers between its bounds. -/
def Numeric (item : SearchParameter Choice) : Prop := item.kind ≠ .boolean ∧ item.choices = []

/-- The domain of a parameter: both booleans, the choices, or the numbers of its kind between the
bounds, with a step only the minimum plus a multiple of the step or the maximum. -/
def InDomain (item : SearchParameter Choice) (value : Value Choice) : Prop :=
  if item.kind = .boolean then ∃ b, value = .boolean b
  else if item.choices ≠ [] then ∃ choice ∈ item.choices, value = .choice choice
  else
    ∃ x, Denotes item value x ∧ item.low ≤ x ∧ x ≤ item.high ∧
      ∀ step ∈ item.step, (∃ k : ℕ, x = item.low + k * step) ∨ x = item.high

theorem unitOf_pos : 0 < unitOf item := by
  unfold unitOf
  split_ifs <;> norm_num

theorem inDomain_numeric (h : Numeric item) {value : Value Choice} :
    InDomain item value ↔ ∃ x, Denotes item value x ∧ item.low ≤ x ∧ x ≤ item.high ∧
      ∀ step ∈ item.step, (∃ k : ℕ, x = item.low + k * step) ∨ x = item.high := by
  unfold InDomain
  rw [if_neg h.1, if_neg (not_not.2 h.2)]

theorem denotes_cast (x : ℚ) : Denotes item (item.cast x) (roundTo (unitOf item) x) := by
  unfold Denotes SearchParameter.cast roundTo unitOf
  split_ifs
  · exact ⟨_, by simp, rfl⟩
  · rw [round10]
    norm_num
    ring

theorem denotes_unique {value : Value Choice} {x y : ℚ} (hx : Denotes item value x)
    (hy : Denotes item value y) : x = y := by
  unfold Denotes at hx hy
  split_ifs at hx hy
  · obtain ⟨n, rfl, rfl⟩ := hx
    obtain ⟨m, rfl, hm⟩ := hy
    injection hm with hm
    rw [hm]
  · rw [hx] at hy
    injection hy

theorem value_unique {value other : Value Choice} {x : ℚ} (hvalue : Denotes item value x)
    (hother : Denotes item other x) : value = other := by
  unfold Denotes at hvalue hother
  split_ifs at hvalue hother
  · obtain ⟨n, rfl, rfl⟩ := hvalue
    obtain ⟨m, hm, rfl⟩ := hother
    rw [Int.cast_injective hm]
  · rw [hvalue, hother]

theorem cast_eq_cast_iff {x y : ℚ} :
    item.cast x = item.cast y ↔ roundTo (unitOf item) x = roundTo (unitOf item) y := by
  constructor
  · intro h
    exact denotes_unique (denotes_cast x) (h ▸ denotes_cast y)
  · intro h
    exact value_unique (denotes_cast x) (h ▸ denotes_cast y)

theorem inDomain_cast_iff (h : Numeric item) {x : ℚ} :
    InDomain item (item.cast x) ↔
      item.low ≤ roundTo (unitOf item) x ∧ roundTo (unitOf item) x ≤ item.high ∧
        ∀ step ∈ item.step, (∃ k : ℕ, roundTo (unitOf item) x = item.low + k * step) ∨
          roundTo (unitOf item) x = item.high := by
  rw [inDomain_numeric h]
  constructor
  · rintro ⟨y, hy, hdomain⟩
    rwa [denotes_unique (denotes_cast x) hy]
  · intro hdomain
    exact ⟨_, denotes_cast x, hdomain⟩

/-! ## Accepted and regular parameters -/

/-- The bounds and the step of a parameter whose values are numbers. -/
structure ValidRange (item : SearchParameter Choice) : Prop where
  low_le : item.low ≤ item.high
  step_pos : ∀ step ∈ item.step, 0 < step

theorem validRange_of_checks {minimum maximum : ℚ} (hmin : item.minimum = some minimum)
    (hmax : item.maximum = some maximum) (hrange : ¬ maximum < minimum)
    (hstep : ¬ item.step.any (· ≤ 0)) : ValidRange item := by
  constructor
  · simpa [SearchParameter.low, SearchParameter.high, hmin, hmax] using hrange
  · intro step hmem
    by_contra hle
    refine hstep ((Option.any_eq_true _ _).2 ⟨step, hmem, ?_⟩)
    simpa using hle

theorem validRange_of_accepted {payload : ParameterPayload Choice}
    (h : SearchParameter.fromPayload payload = .ok item) (hnumeric : Numeric item) :
    ValidRange item := by
  unfold SearchParameter.fromPayload at h
  dsimp only at h
  split at h
  case isTrue => exact absurd h (by simp)
  case isFalse =>
    split at h
    case h_1 => exact absurd h (by simp)
    case h_2 kind _ =>
      cases kind
      case boolean =>
        obtain rfl := Except.ok.inj h
        exact absurd rfl hnumeric.1
      case enum | string =>
        dsimp only at h
        split at h
        case isTrue => exact absurd h (by simp)
        case isFalse hsome =>
          obtain rfl := Except.ok.inj h
          exact absurd (List.isEmpty_iff.2 hnumeric.2) hsome
      all_goals
        dsimp only at h
        split at h
        case h_1 minimum maximum hmin hmax =>
          split_ifs at h with hrange hstep
          obtain rfl := Except.ok.inj h
          exact validRange_of_checks hmin hmax hrange hstep
        case h_2 => exact absurd h (by simp)

/-- The bounds, and with a point in between the step, are multiples of the unit the values are
rounded to; a maximum may instead be rounded to the step it counts as, and the minimum of a
single point to the maximum. Without a step there is only one value. -/
def Regular (item : SearchParameter Choice) : Prop :=
  Numeric item →
    match item.step with
    | none => item.low = item.high ∧ IsMultiple (unitOf item) item.low
    | some step =>
      (IsMultiple (unitOf item) item.high ∨
        ∃ k, EndsAt item.low item.high step k ∧
          roundTo (unitOf item) item.high = item.low + k * step) ∧
      (IsMultiple (unitOf item) item.low ∨
        EndsAt item.low item.high step 0 ∧ roundTo (unitOf item) item.low = item.high) ∧
      (item.low + step < item.high → ¬ EndsAt item.low item.high step 1 →
        IsMultiple (unitOf item) step)

/-- The index of the last point of a stepped parameter. -/
def lastIndex (item : SearchParameter Choice) (step : ℚ) : ℕ :=
  steppedSize item.low item.high step - 1

theorem regular_iff_roundsWell (hnumeric : Numeric item) (hvalid : ValidRange item) {step : ℚ}
    (hstep : item.step = some step) :
    Regular item ↔
      RoundsWell (unitOf item) item.low item.high step (lastIndex item step) := by
  have hpos := hvalid.step_pos step hstep
  have hle := hvalid.low_le
  have hends {k : ℕ} : EndsAt item.low item.high step k ↔
      item.low + k * step ≤ item.high ∧ k = lastIndex item step := endsAt_iff hpos hle
  have hinner : (item.low + step < item.high → ¬ EndsAt item.low item.high step 1 →
      IsMultiple (unitOf item) step) ↔
      (2 ≤ lastIndex item step → IsMultiple (unitOf item) step) := by
    have hlt := lt_steppedSize_iff (k := 1) hpos hle
    rw [Nat.cast_one, one_mul] at hlt
    rw [← and_imp, ← hlt]
    rfl
  have hladder : IsLadder item.low item.high step (lastIndex item step) := isLadder hpos hle
  rw [hladder.roundsWell_iff unitOf_pos]
  unfold Regular
  rw [hstep]
  dsimp only
  rw [hinner]
  change (Numeric item → _) ↔ (_ ∨ item.low + (lastIndex item step) * step ≤ item.high ∧ _) ∧
    (_ ∨ lastIndex item step = 0 ∧ _) ∧ _
  constructor
  · intro h
    obtain ⟨hend, hbegin, hinner⟩ := h hnumeric
    refine ⟨hend.imp_right ?_, hbegin.imp_right ?_, hinner⟩
    · rintro ⟨k, hk, hround⟩
      obtain ⟨hk, rfl⟩ := hends.1 hk
      exact ⟨hk, hround⟩
    · rintro ⟨hzero, hround⟩
      exact ⟨(hends.1 hzero).2.symm, hround⟩
  · rintro ⟨hend, hbegin, hinner⟩ _
    refine ⟨hend.imp_right ?_, hbegin.imp_right ?_, hinner⟩
    · rintro ⟨hk, hround⟩
      exact ⟨_, hends.2 ⟨hk, rfl⟩, hround⟩
    · rintro ⟨hzero, hround⟩
      refine ⟨hends.2 ⟨?_, hzero.symm⟩, hround⟩
      rw [Nat.cast_zero, zero_mul, add_zero]
      exact hle

/-! ## Axes -/

theorem stepOr_some {step fallback : ℚ} (hstep : item.step = some step) (hpos : 0 < step) :
    item.stepOr fallback = step := by
  simp [SearchParameter.stepOr, hstep, hpos.ne']

theorem domainSize_numeric (hnumeric : Numeric item) :
    domainSize item =
      steppedSize item.low item.high (item.stepOr ((item.high - item.low) / 9)) := by
  unfold domainSize
  rw [if_neg hnumeric.1, if_neg (not_not.2 hnumeric.2)]

theorem gridValues_stepped (hnumeric : Numeric item) (hvalid : ValidRange item) {step : ℚ}
    (hstep : item.step = some step) (limit : ℕ) :
    gridValues item limit = (axisIndices (lastIndex item step + 1) limit).map fun index =>
      item.cast (ladderPoint item.low item.high step (lastIndex item step) index) := by
  have hpos := hvalid.step_pos step hstep
  have hsize : domainSize item = steppedSize item.low item.high step := by
    rw [domainSize_numeric hnumeric, stepOr_some hstep hpos]
  have hlast : lastIndex item step + 1 = steppedSize item.low item.high step :=
    Nat.sub_add_cancel steppedSize_pos
  unfold gridValues
  rw [if_neg hnumeric.1, if_neg (not_not.2 hnumeric.2)]
  dsimp only
  rw [stepOr_some hstep hpos, hsize, hlast]
  refine List.map_congr_left fun index _ => ?_
  rw [domainValue_eq hpos hvalid.low_le]
  rfl

theorem spread_eq (total count i : ℕ) :
    (roundHalfEven ((i : ℚ) * (total - 1) / (count - 1))).toNat =
      spacedPosition (((total : ℚ) - 1) / (count - 1)) i := by
  unfold spacedPosition
  rw [mul_div_assoc]

theorem spread_lt {total count i : ℕ} (htotal : 0 < total) (hcount : 2 ≤ count)
    (hi : i < count) : spacedPosition (((total : ℚ) - 1) / (count - 1)) i < total := by
  have hone : (1 : ℚ) ≤ total := by exact_mod_cast htotal
  have htwo : (2 : ℚ) ≤ count := by exact_mod_cast hcount
  have hspread : ((total : ℚ) - 1) / (count - 1) * (count - 1 : ℕ) = (total - 1 : ℕ) := by
    rw [Nat.cast_sub (by omega), Nat.cast_sub htotal, Nat.cast_one,
      div_mul_cancel₀ _ (by linarith)]
  have hle := spacedPosition_le (div_nonneg (by linarith) (by linarith)) hspread
    (Nat.le_sub_one_of_lt hi)
  omega

theorem mem_sortedSet {l : List ℕ} {i : ℕ} : i ∈ sortedSet l ↔ i ∈ l := by
  simp [sortedSet]

theorem nodup_sortedSet (l : List ℕ) : (sortedSet l).Nodup :=
  (List.perm_insertionSort _ _).nodup_iff.2 (List.nodup_dedup l)

theorem axisIndices_eq_range {size limit : ℕ} (h : size ≤ limit) :
    axisIndices size limit = List.range size := if_pos h

theorem axisIndices_spec {size limit : ℕ} (hsize : 0 < size) (hlimit : 0 < limit) :
    (axisIndices size limit).Nodup ∧ axisIndices size limit ≠ [] ∧
      ∀ index ∈ axisIndices size limit, index < size := by
  unfold axisIndices
  split_ifs with hall hone
  · refine ⟨List.nodup_range, ?_, fun index hindex => List.mem_range.1 hindex⟩
    rw [ne_eq, List.range_eq_nil]
    omega
  · exact ⟨List.nodup_singleton _, List.cons_ne_nil _ _, by simpa using hsize⟩
  · refine ⟨nodup_sortedSet _, ?_, ?_⟩
    · refine List.ne_nil_of_mem (mem_sortedSet.2 (List.mem_map.2 ⟨0, ?_, rfl⟩))
      exact List.mem_range.2 hlimit
    · intro index hindex
      obtain ⟨i, hi, rfl⟩ := List.mem_map.1 (mem_sortedSet.1 hindex)
      rw [spread_eq]
      exact spread_lt hsize (by omega) (List.mem_range.1 hi)

end

end QuantDinger.Analysis.ParameterDomains
