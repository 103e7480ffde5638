import QuantDinger.Library.Grid

/-!
# Ladders of points, rounded to a unit

`roundTo unit x` is the nearest multiple of a unit, ties to the even one. A ladder climbs from `low`
in equal steps for `last` rungs and ends at `high`, which lies on or off the next rung. Its rounded
points stay on the ladder and apart exactly if rounding leaves the rungs alone and takes the end
to itself or to the rung it stands for (`rounded_ladder_iff`).
-/

namespace QuantDinger.Library

/-! ## Rounding to a unit -/

theorem roundHalfEven_mono {x y : ℚ} (h : x ≤ y) : roundHalfEven x ≤ roundHalfEven y := by
  by_contra hlt
  have hx := abs_le.1 (abs_sub_roundHalfEven_le x)
  have hy := abs_le.1 (abs_sub_roundHalfEven_le y)
  have hstep : (roundHalfEven y : ℚ) + 1 ≤ roundHalfEven x := by exact_mod_cast not_le.1 hlt
  have heq : x = y := by linarith
  exact hlt (heq ▸ le_rfl)

/-- The nearest multiple of `unit`. -/
def roundTo (unit x : ℚ) : ℚ := roundHalfEven (x / unit) * unit

section

variable {unit x y : ℚ}

theorem isMultiple_roundTo : IsMultiple unit (roundTo unit x) := ⟨_, rfl⟩

theorem roundTo_mono (hunit : 0 < unit) (h : x ≤ y) : roundTo unit x ≤ roundTo unit y := by
  have hround := roundHalfEven_mono (div_le_div_of_nonneg_right h hunit.le)
  exact mul_le_mul_of_nonneg_right (by exact_mod_cast hround) hunit.le

theorem roundTo_eq_self_iff (hunit : 0 < unit) : roundTo unit x = x ↔ IsMultiple unit x := by
  constructor
  · exact fun h => h ▸ isMultiple_roundTo
  · rintro ⟨n, rfl⟩
    rw [roundTo, mul_div_cancel_right₀ _ hunit.ne', roundHalfEven_intCast]

theorem roundTo_roundTo (hunit : 0 < unit) : roundTo unit (roundTo unit x) = roundTo unit x :=
  (roundTo_eq_self_iff hunit).2 isMultiple_roundTo

/-- What lies between a number and its rounding is rounded alike. -/
theorem roundTo_eq_of_between (hunit : 0 < unit) (hxy : x ≤ y) (hy : y ≤ roundTo unit x) :
    roundTo unit y = roundTo unit x := by
  refine le_antisymm ?_ (roundTo_mono hunit hxy)
  rw [← roundTo_roundTo hunit (x := x)]
  exact roundTo_mono hunit hy

theorem abs_sub_roundTo_le (hunit : 0 < unit) : |x - roundTo unit x| ≤ unit / 2 := by
  have hhalf := abs_sub_roundHalfEven_le (x / unit)
  have hsplit : x - roundTo unit x = (x / unit - roundHalfEven (x / unit)) * unit := by
    rw [roundTo, sub_mul, div_mul_cancel₀ _ hunit.ne']
  rw [hsplit, abs_mul, abs_of_pos hunit]
  calc |x / unit - roundHalfEven (x / unit)| * unit ≤ 1 / 2 * unit :=
        mul_le_mul_of_nonneg_right hhalf hunit.le
    _ = unit / 2 := by ring

/-- Two multiples of a unit are at least the unit apart. -/
theorem IsMultiple.add_unit_le (hunit : 0 < unit) (hx : IsMultiple unit x)
    (hy : IsMultiple unit y) (h : x < y) : x + unit ≤ y := by
  have hfar := (hy.add hx.neg).step_le_abs hunit (by linarith : y + -x ≠ 0)
  rw [abs_of_pos (by linarith)] at hfar
  linarith

end

/-! ## Rungs -/

/-- A point whole steps away from `low`. -/
def IsRung (low step x : ℚ) : Prop := ∃ k : ℤ, x = low + k * step

section

variable {unit low step x value : ℚ}

theorem isRung_self : IsRung low step low := ⟨0, by simp⟩

theorem IsRung.isMultiple (h : IsRung low step x) (hlow : IsMultiple unit low)
    (hstep : IsMultiple unit step) : IsMultiple unit x := by
  obtain ⟨k, rfl⟩ := h
  obtain ⟨n, rfl⟩ := hstep
  refine hlow.add ⟨k * n, ?_⟩
  push_cast
  ring

theorem isGreatest_rung (hstep : 0 < step) (low value : ℚ) :
    IsGreatest {x | IsRung low step x ∧ x ≤ value} (low + ⌊(value - low) / step⌋ * step) := by
  refine ⟨⟨⟨_, rfl⟩, ?_⟩, ?_⟩
  · have hfloor := (le_div_iff₀ hstep).1 (Int.floor_le ((value - low) / step))
    linarith
  · rintro x ⟨⟨k, rfl⟩, hle⟩
    have hk : k ≤ ⌊(value - low) / step⌋ := by
      rw [Int.le_floor, le_div_iff₀ hstep]
      linarith
    have hcast : (k : ℚ) ≤ ⌊(value - low) / step⌋ := by exact_mod_cast hk
    linarith [mul_le_mul_of_nonneg_right hcast hstep.le]

theorem isLeast_rung (hstep : 0 < step) (low value : ℚ) :
    IsLeast {x | IsRung low step x ∧ value ≤ x} (low + ⌈(value - low) / step⌉ * step) := by
  refine ⟨⟨⟨_, rfl⟩, ?_⟩, ?_⟩
  · have hceil := (div_le_iff₀ hstep).1 (Int.le_ceil ((value - low) / step))
    linarith
  · rintro x ⟨⟨k, rfl⟩, hle⟩
    have hk : ⌈(value - low) / step⌉ ≤ k := by
      rw [Int.ceil_le, div_le_iff₀ hstep]
      linarith
    have hcast : (⌈(value - low) / step⌉ : ℚ) ≤ k := by exact_mod_cast hk
    linarith [mul_le_mul_of_nonneg_right hcast hstep.le]

end

/-! ## Ladders -/

/-- The points of a ladder: rungs below `last`, then the end. -/
def ladderPoint (low high step : ℚ) (last i : ℕ) : ℚ := if i < last then low + i * step else high

/-- A value on the ladder: within the bounds, and a rung or the end. -/
def OnLadder (low high step value : ℚ) : Prop :=
  low ≤ value ∧ value ≤ high ∧ ((∃ k : ℕ, value = low + k * step) ∨ value = high)

/-- The rungs below `last` lie below the end, the rung after it beyond. -/
structure IsLadder (low high step : ℚ) (last : ℕ) : Prop where
  step_pos : 0 < step
  low_le : low ≤ high
  rung_lt : ∀ i < last, low + i * step < high
  lt_next : high < low + (last + 1) * step

section

variable {unit low high step : ℚ} {last : ℕ}

/-- The rounded points are on the ladder, no two alike, and so is the rounded beginning. -/
def RoundsWell (unit low high step : ℚ) (last : ℕ) : Prop :=
  (∀ i ≤ last, OnLadder low high step (roundTo unit (ladderPoint low high step last i))) ∧
  (∀ i j, i < j → j ≤ last → roundTo unit (ladderPoint low high step last i) ≠
    roundTo unit (ladderPoint low high step last j)) ∧
  OnLadder low high step (roundTo unit low)

theorem ladderPoint_of_lt {i : ℕ} (h : i < last) :
    ladderPoint low high step last i = low + i * step := if_pos h

@[simp] theorem ladderPoint_last : ladderPoint low high step last last = high :=
  if_neg (lt_irrefl _)

namespace IsLadder

variable (h : IsLadder low high step last)
include h

theorem rung_le_iff {k : ℕ} (hk : low + k * step ≤ high) : k ≤ last := by
  by_contra hlt
  have hge : (last : ℚ) + 1 ≤ k := by exact_mod_cast not_le.1 hlt
  have hmul := mul_le_mul_of_nonneg_right hge h.step_pos.le
  linarith [h.lt_next]

theorem rung_lt_rung {i j : ℕ} (hij : i < j) : low + i * step < low + j * step := by
  have hlt : (i : ℚ) < j := by exact_mod_cast hij
  linarith [mul_lt_mul_of_pos_right hlt h.step_pos]

theorem rung_fixed (hunit : 0 < unit) (hwell : RoundsWell unit low high step last) {i : ℕ}
    (hi : i < last) (hup : low + i * step ≤ roundTo unit (low + i * step)) :
    roundTo unit (low + i * step) = low + i * step := by
  obtain ⟨hon, hapart, _⟩ := hwell
  have hpoint : ladderPoint low high step last i = low + i * step := ladderPoint_of_lt hi
  by_contra hmoved
  have hlt : low + i * step < roundTo unit (low + i * step) := lt_of_le_of_ne hup (Ne.symm hmoved)
  have hend := hapart i last hi le_rfl
  rw [hpoint, ladderPoint_last] at hend
  have hhigh : roundTo unit (low + i * step) ≤ roundTo unit high :=
    roundTo_mono hunit (h.rung_lt i hi).le
  obtain ⟨_, hle, ⟨k, hk⟩ | hk⟩ := hpoint ▸ hon i hi.le
  · have hik : i < k := by
      by_contra hge
      have hki : (k : ℚ) ≤ i := by exact_mod_cast not_lt.1 hge
      have hmul := mul_le_mul_of_nonneg_right hki h.step_pos.le
      linarith
    have hklast : k ≤ last := h.rung_le_iff (hk ▸ hle)
    have hnext : low + (i + 1 : ℕ) * step ≤ roundTo unit (low + i * step) := by
      rw [hk]
      have hki : ((i + 1 : ℕ) : ℚ) ≤ k := by exact_mod_cast hik
      linarith [mul_le_mul_of_nonneg_right hki h.step_pos.le]
    have hsame := roundTo_eq_of_between hunit (h.rung_lt_rung (Nat.lt_succ_self i)).le hnext
    rcases Nat.lt_or_ge (i + 1) last with hinner | hlast
    · -- the next rung is rounded to the same value
      have hne := hapart i (i + 1) (Nat.lt_succ_self i) hinner.le
      rw [hpoint, ladderPoint_of_lt hinner] at hne
      exact hne hsame.symm
    · -- the next rung is the last one, and the end is rounded no lower
      obtain rfl : k = i + 1 := by omega
      have hlastEq : last = i + 1 := by omega
      subst hlastEq
      have honEnd := hon (i + 1) le_rfl
      rw [ladderPoint_last] at honEnd
      obtain ⟨_, hleEnd, ⟨j, hj⟩ | hj⟩ := honEnd
      · have hjlast : j ≤ i + 1 := h.rung_le_iff (hj ▸ hleEnd)
        rcases hjlast.lt_or_eq with hjlt | rfl
        · have := h.rung_lt_rung hjlt
          linarith
        · exact hend (hk.trans hj.symm)
      · have hgap := IsMultiple.add_unit_le hunit isMultiple_roundTo isMultiple_roundTo
          (lt_of_le_of_ne hhigh hend)
        have hhalf := (abs_le.1 (abs_sub_roundTo_le hunit (x := low + i * step))).1
        have hbound := h.lt_next
        push_cast at hk hbound
        nlinarith
  · refine hend ?_
    rw [← roundTo_roundTo hunit, hk]

theorem low_isMultiple (hunit : 0 < unit) (hwell : RoundsWell unit low high step last)
    (hlast : 0 < last) : IsMultiple unit low := by
  have hfixed := h.rung_fixed hunit hwell hlast
  simp only [Nat.cast_zero, zero_mul, add_zero] at hfixed
  exact (roundTo_eq_self_iff hunit).1 (hfixed hwell.2.2.1)

theorem step_isMultiple (hunit : 0 < unit) (hwell : RoundsWell unit low high step last)
    (hlast : 2 ≤ last) : IsMultiple unit step := by
  have hlow := h.low_isMultiple hunit hwell (by omega)
  have hpoint : ladderPoint low high step last 1 = low + step := by
    rw [ladderPoint_of_lt (by omega), Nat.cast_one, one_mul]
  have hon := hwell.1 1 (by omega)
  have hne := hwell.2.1 0 1 zero_lt_one (by omega)
  rw [hpoint] at hon
  rw [hpoint, ladderPoint_of_lt (by omega), Nat.cast_zero, zero_mul, add_zero,
    (roundTo_eq_self_iff hunit).2 hlow] at hne
  have hup : low + step ≤ roundTo unit (low + step) := by
    obtain ⟨_, _, ⟨k, hk⟩ | hk⟩ := hon
    · have hkpos : 1 ≤ k := by
        by_contra hzero
        obtain rfl : k = 0 := by omega
        rw [hk, Nat.cast_zero, zero_mul, add_zero] at hne
        exact hne rfl
      have hcast : (1 : ℚ) ≤ k := by exact_mod_cast hkpos
      rw [hk]
      linarith [mul_le_mul_of_nonneg_right hcast h.step_pos.le]
    · have hrung := h.rung_lt 1 (by omega)
      rw [Nat.cast_one, one_mul] at hrung
      rw [hk]
      exact hrung.le
  have hfixed := h.rung_fixed hunit hwell (i := 1) (by omega)
  rw [Nat.cast_one, one_mul] at hfixed
  have hmultiple := ((roundTo_eq_self_iff hunit).1 (hfixed hup)).add hlow.neg
  rwa [add_neg_cancel_comm] at hmultiple

theorem end_isMultiple (hunit : 0 < unit) (hwell : RoundsWell unit low high step last) :
    IsMultiple unit high ∨
      low + last * step ≤ high ∧ roundTo unit high = low + last * step := by
  have hon := hwell.1 last le_rfl
  rw [ladderPoint_last] at hon
  obtain ⟨_, hle, ⟨k, hk⟩ | hk⟩ := hon
  · have hklast : k ≤ last := h.rung_le_iff (hk ▸ hle)
    rcases hklast.lt_or_eq with hklt | rfl
    · -- an earlier rung is a point of its own
      have hfixed : roundTo unit (low + k * step) = low + k * step := by
        rw [roundTo_eq_self_iff hunit, ← hk]
        exact isMultiple_roundTo
      have hne := hwell.2.1 k last hklt le_rfl
      rw [ladderPoint_of_lt hklt, ladderPoint_last] at hne
      exact absurd (hfixed.trans hk.symm) hne
    · exact .inr ⟨hk ▸ hle, hk⟩
  · exact .inl ((roundTo_eq_self_iff hunit).1 hk)

omit h in
theorem rung_eq (hunit : 0 < unit) (hbegin : 0 < last → IsMultiple unit low)
    (hstep : 2 ≤ last → IsMultiple unit step) {i : ℕ} (hi : i < last) :
    roundTo unit (ladderPoint low high step last i) = low + i * step := by
  rw [ladderPoint_of_lt hi, roundTo_eq_self_iff hunit]
  have hlow := hbegin (by omega)
  rcases Nat.eq_zero_or_pos i with rfl | hpos
  · rwa [Nat.cast_zero, zero_mul, add_zero]
  · obtain ⟨n, hn⟩ := hstep (by omega)
    refine hlow.add ⟨i * n, ?_⟩
    rw [hn]
    push_cast
    ring

theorem roundsWell (hunit : 0 < unit)
    (hend : IsMultiple unit high ∨
      low + last * step ≤ high ∧ roundTo unit high = low + last * step)
    (hbegin : IsMultiple unit low ∨ last = 0 ∧ roundTo unit low = high)
    (hstep : 2 ≤ last → IsMultiple unit step) : RoundsWell unit low high step last := by
  have hrung {i : ℕ} (hi : i < last) :
      roundTo unit (ladderPoint low high step last i) = low + i * step :=
    rung_eq hunit (fun hpos => hbegin.resolve_right fun hzero => by omega) hstep hi
  have hhigh : OnLadder low high step (roundTo unit high) ∧
      ∀ i < last, low + i * step < roundTo unit high := by
    rcases hend with hend | ⟨hle, hend⟩
    · rw [(roundTo_eq_self_iff hunit).2 hend]
      exact ⟨⟨h.low_le, le_rfl, .inr rfl⟩, h.rung_lt⟩
    · rw [hend]
      have hnonneg : (0 : ℚ) ≤ last * step := mul_nonneg (Nat.cast_nonneg _) h.step_pos.le
      exact ⟨⟨by linarith, hle, .inl ⟨last, rfl⟩⟩, fun i hi => h.rung_lt_rung hi⟩
  refine ⟨?_, ?_, ?_⟩
  · intro i hi
    rcases hi.lt_or_eq with hi | rfl
    · rw [hrung hi]
      have hnonneg : (0 : ℚ) ≤ i * step := mul_nonneg (Nat.cast_nonneg _) h.step_pos.le
      exact ⟨by linarith, (h.rung_lt i hi).le, .inl ⟨i, rfl⟩⟩
    · rw [ladderPoint_last]
      exact hhigh.1
  · intro i j hij hj
    rw [hrung (hij.trans_le hj)]
    rcases hj.lt_or_eq with hj | rfl
    · rw [hrung hj]
      exact (h.rung_lt_rung hij).ne
    · rw [ladderPoint_last]
      exact (hhigh.2 i hij).ne
  · rcases hbegin with hbegin | ⟨_, hbegin⟩
    · rw [(roundTo_eq_self_iff hunit).2 hbegin]
      exact ⟨le_rfl, h.low_le, .inl ⟨0, by simp⟩⟩
    · rw [hbegin]
      exact ⟨h.low_le, le_rfl, .inr rfl⟩

/-- The rounded points of a ladder stay on it and apart exactly if the end is rounded to itself or
to the rung it stands for, the beginning is not moved (or is the only point, and moved to the
end), and with a rung in between neither is the step. -/
theorem roundsWell_iff (hunit : 0 < unit) :
    RoundsWell unit low high step last ↔
      (IsMultiple unit high ∨
        low + last * step ≤ high ∧ roundTo unit high = low + last * step) ∧
      (IsMultiple unit low ∨ last = 0 ∧ roundTo unit low = high) ∧
      (2 ≤ last → IsMultiple unit step) := by
  constructor
  · intro hwell
    refine ⟨h.end_isMultiple hunit hwell, ?_, h.step_isMultiple hunit hwell⟩
    rcases Nat.eq_zero_or_pos last with hlast | hlast
    · obtain ⟨_, hle, ⟨k, hk⟩ | hk⟩ := hwell.2.2
      · have hkzero : k ≤ last := h.rung_le_iff (hk ▸ hle)
        obtain rfl : k = 0 := by omega
        rw [Nat.cast_zero, zero_mul, add_zero] at hk
        exact .inl ((roundTo_eq_self_iff hunit).1 hk)
      · exact .inr ⟨hlast, hk⟩
    · exact .inl (h.low_isMultiple hunit hwell hlast)
  · rintro ⟨hend, hbegin, hstep⟩
    exact h.roundsWell hunit hend hbegin hstep

end IsLadder

end

end QuantDinger.Library
