import Mathlib.Data.Int.Log
import Mathlib.Data.Rat.Floor
import Mathlib.Tactic

/-!
# Rounding a quantity to a grid

Quantities are traded in whole multiples of a step. `roundToGrid tol value step`
rounds the magnitude of `value` down to the grid, except that a ratio within
`tol ratio` of the nearest integer is taken to be that integer, and restores the
sign of `value`.

The integer part of the work is `gridUnits`, with its three bounds: it never
passes an integer the ratio does not pass, it exceeds the ratio by at most half a
unit and by at most the tolerance, and it is the identity on integers. The lemmas
about `roundToGrid` are those bounds multiplied by the step.
-/

namespace QuantDinger.Library

/-- The magnitude of `x` with the sign of `v`. -/
def copysign (x v : ℚ) : ℚ := if v < 0 then -|x| else |x|

/-- Nearest integer, ties to the even one. -/
def roundHalfEven (x : ℚ) : ℤ :=
  if x - ⌊x⌋ < 1 / 2 then ⌊x⌋
  else if 1 / 2 < x - ⌊x⌋ then ⌊x⌋ + 1
  else if ⌊x⌋ % 2 = 0 then ⌊x⌋ else ⌊x⌋ + 1

/-- The spacing of binary64 numbers at `x`. -/
def ulp (x : ℚ) : ℚ :=
  if x = 0 then 2 ^ (-1074 : ℤ) else 2 ^ max (Int.log 2 |x| - 52) (-1074)

/-- `x` is a whole multiple of `step`. -/
def IsMultiple (step x : ℚ) : Prop := ∃ n : ℤ, x = n * step

/-- The whole number of grid units in `ratio`. -/
def gridUnits (tol : ℚ → ℚ) (ratio : ℚ) : ℤ :=
  if |ratio - roundHalfEven ratio| ≤ tol ratio then roundHalfEven ratio else ⌊ratio⌋

/-- `value` rounded to the grid of `step`. -/
def roundToGrid (tol : ℚ → ℚ) (value step : ℚ) : ℚ :=
  if gridUnits tol (|value| / step) ≠ 0 then
    copysign (gridUnits tol (|value| / step) * step) value
  else 0

/-! ## Signs and magnitudes -/

@[simp] theorem abs_copysign (x v : ℚ) : |copysign x v| = |x| := by
  unfold copysign
  split <;> simp

theorem copysign_of_neg {x v : ℚ} (h : v < 0) : copysign x v = -|x| := if_pos h

theorem copysign_of_nonneg {x v : ℚ} (h : 0 ≤ v) : copysign x v = |x| := if_neg (not_lt.mpr h)

@[simp] theorem copysign_abs (v : ℚ) : copysign (|v|) v = v := by
  by_cases h : v < 0
  · rw [copysign_of_neg h, abs_abs, abs_of_neg h, neg_neg]
  · rw [copysign_of_nonneg (not_lt.mp h), abs_abs, abs_of_nonneg (not_lt.mp h)]

theorem ulp_pos (x : ℚ) : 0 < ulp x := by
  unfold ulp
  split <;> positivity

/-! ## Multiples -/

theorem IsMultiple.zero (step : ℚ) : IsMultiple step 0 := ⟨0, by simp⟩

theorem IsMultiple.add {step x y : ℚ} (hx : IsMultiple step x) (hy : IsMultiple step y) :
    IsMultiple step (x + y) := by
  obtain ⟨n, rfl⟩ := hx
  obtain ⟨m, rfl⟩ := hy
  exact ⟨n + m, by push_cast; ring⟩

theorem IsMultiple.neg {step x : ℚ} (hx : IsMultiple step x) : IsMultiple step (-x) := by
  obtain ⟨n, rfl⟩ := hx
  exact ⟨-n, by push_cast; ring⟩

theorem IsMultiple.copysign {step x v : ℚ} (hx : IsMultiple step x) :
    IsMultiple step (copysign x v) := by
  have habs : IsMultiple step |x| := by
    rcases abs_choice x with h | h <;> rw [h]
    · exact hx
    · exact hx.neg
  unfold Library.copysign
  split
  · exact habs.neg
  · exact habs

/-- A multiple of a positive step that is smaller than the step is zero. -/
theorem IsMultiple.eq_zero_of_abs_lt {step x : ℚ} (hs : 0 < step) (hx : IsMultiple step x)
    (h : |x| < step) : x = 0 := by
  obtain ⟨n, rfl⟩ := hx
  rw [abs_mul, abs_of_pos hs] at h
  have hn : |(n : ℚ)| < 1 := by
    by_contra hge
    rw [not_lt] at hge
    nlinarith
  have hn0 : n = 0 := by
    rw [← Int.cast_abs] at hn
    have : |n| < 1 := by exact_mod_cast hn
    exact Int.abs_lt_one_iff.mp this
  simp [hn0]

/-- A nonzero multiple of a positive step is at least the step. -/
theorem IsMultiple.step_le_abs {step x : ℚ} (hs : 0 < step) (hx : IsMultiple step x)
    (h : x ≠ 0) : step ≤ |x| := by
  by_contra hlt
  exact h (hx.eq_zero_of_abs_lt hs (not_le.mp hlt))

/-! ## Grid units -/

section Units

variable {tol : ℚ → ℚ} {ratio : ℚ}

theorem abs_sub_roundHalfEven_le (x : ℚ) : |x - roundHalfEven x| ≤ 1 / 2 := by
  have h0 : (⌊x⌋ : ℚ) ≤ x := Int.floor_le x
  have h1 : x < ⌊x⌋ + 1 := Int.lt_floor_add_one x
  unfold roundHalfEven
  rw [abs_le]
  split_ifs with ha hb hc
  · constructor <;> linarith
  · push_cast
    constructor <;> linarith
  · constructor <;> linarith
  · push_cast
    constructor <;> linarith

theorem roundHalfEven_le_of_le {x : ℚ} {n : ℤ} (h : x ≤ n) : roundHalfEven x ≤ n := by
  have hfloor : ⌊x⌋ ≤ n := by
    have : (⌊x⌋ : ℚ) ≤ n := le_trans (Int.floor_le x) h
    exact_mod_cast this
  have hup : ⌊x⌋ ≠ n → ⌊x⌋ + 1 ≤ n := by
    intro hne
    omega
  have hsub : ⌊x⌋ = n → x - ⌊x⌋ < 1 / 2 := by
    intro heq
    rw [heq]
    linarith
  unfold roundHalfEven
  split_ifs with ha hb hc
  · exact hfloor
  · exact hup fun heq => ha (hsub heq)
  · exact hfloor
  · exact hup fun heq => ha (hsub heq)

theorem roundHalfEven_intCast (n : ℤ) : roundHalfEven (n : ℚ) = n := by
  unfold roundHalfEven
  rw [if_pos] <;> simp

theorem gridUnits_nonneg (h : 0 ≤ ratio) : 0 ≤ gridUnits tol ratio := by
  have hfloor : 0 ≤ ⌊ratio⌋ := Int.floor_nonneg.mpr h
  unfold gridUnits roundHalfEven
  split_ifs <;> omega

theorem gridUnits_le_of_le {n : ℤ} (h : ratio ≤ n) : gridUnits tol ratio ≤ n := by
  unfold gridUnits
  split_ifs with ht
  · exact roundHalfEven_le_of_le h
  · have : (⌊ratio⌋ : ℚ) ≤ n := le_trans (Int.floor_le ratio) h
    exact_mod_cast this

theorem gridUnits_le_add_half : (gridUnits tol ratio : ℚ) ≤ ratio + 1 / 2 := by
  unfold gridUnits
  split_ifs with ht
  · have := abs_le.mp (abs_sub_roundHalfEven_le ratio)
    linarith
  · have := Int.floor_le ratio
    linarith

theorem gridUnits_le_add_tol (htol : 0 ≤ tol ratio) :
    (gridUnits tol ratio : ℚ) ≤ ratio + tol ratio := by
  unfold gridUnits
  split_ifs with ht
  · have := abs_le.mp ht
    linarith
  · have := Int.floor_le ratio
    linarith

theorem gridUnits_intCast (n : ℤ) : gridUnits tol (n : ℚ) = n := by
  unfold gridUnits
  rw [roundHalfEven_intCast, Int.floor_intCast, ite_self]

end Units

/-! ## Rounding -/

section Rounding

variable {tol : ℚ → ℚ} {value step : ℚ}

theorem isMultiple_roundToGrid : IsMultiple step (roundToGrid tol value step) := by
  unfold roundToGrid
  split_ifs
  · exact IsMultiple.copysign ⟨_, rfl⟩
  · exact IsMultiple.zero step

theorem abs_roundToGrid (hs : 0 < step) :
    |roundToGrid tol value step| = gridUnits tol (|value| / step) * step := by
  have hr : 0 ≤ |value| / step := by positivity
  have hu : (0 : ℚ) ≤ gridUnits tol (|value| / step) := by exact_mod_cast gridUnits_nonneg hr
  unfold roundToGrid
  split_ifs with h
  · rw [abs_copysign, abs_of_nonneg (by positivity)]
  · rw [not_ne_iff] at h
    simp [h]

theorem abs_roundToGrid_le_half (hs : 0 < step) :
    |roundToGrid tol value step| ≤ |value| + step / 2 := by
  rw [abs_roundToGrid hs]
  have h := mul_le_mul_of_nonneg_right (@gridUnits_le_add_half tol (|value| / step)) hs.le
  have hcancel : |value| / step * step = |value| := div_mul_cancel₀ _ hs.ne'
  nlinarith

theorem abs_roundToGrid_le_tol (hs : 0 < step) (htol : 0 ≤ tol (|value| / step)) :
    |roundToGrid tol value step| ≤ |value| + tol (|value| / step) * step := by
  rw [abs_roundToGrid hs]
  have h := mul_le_mul_of_nonneg_right (gridUnits_le_add_tol htol) hs.le
  have hcancel : |value| / step * step = |value| := div_mul_cancel₀ _ hs.ne'
  nlinarith

/-- A value that does not pass a grid point is not rounded past it. -/
theorem abs_roundToGrid_le_of_le (hs : 0 < step) {bound : ℚ} (hb : IsMultiple step bound)
    (h : |value| ≤ bound) : |roundToGrid tol value step| ≤ bound := by
  obtain ⟨n, rfl⟩ := hb
  rw [abs_roundToGrid hs]
  have hr : |value| / step ≤ n := by rwa [div_le_iff₀ hs]
  have hu : (gridUnits tol (|value| / step) : ℚ) ≤ n := by
    exact_mod_cast gridUnits_le_of_le hr
  exact mul_le_mul_of_nonneg_right hu hs.le

/-- A value of at least one step is not rounded to zero. -/
theorem roundToGrid_ne_zero (hs : 0 < step) (h : step ≤ |value|) :
    roundToGrid tol value step ≠ 0 := by
  have hratio : 1 ≤ |value| / step := (one_le_div hs).mpr h
  have hfloor : 1 ≤ ⌊|value| / step⌋ := Int.le_floor.mpr (by exact_mod_cast hratio)
  have hunits : 1 ≤ gridUnits tol (|value| / step) := by
    unfold gridUnits roundHalfEven
    split_ifs <;> omega
  rw [ne_eq, ← abs_eq_zero, abs_roundToGrid hs]
  have : (0 : ℚ) < gridUnits tol (|value| / step) := by exact_mod_cast hunits
  exact (mul_pos this hs).ne'

/-- Grid points round to themselves. -/
theorem roundToGrid_of_isMultiple (hs : 0 < step) (h : IsMultiple step value) :
    roundToGrid tol value step = value := by
  obtain ⟨n, rfl⟩ := h
  have hratio : |(n : ℚ) * step| / step = ((|n| : ℤ) : ℚ) := by
    rw [abs_mul, abs_of_pos hs, mul_div_cancel_right₀ _ hs.ne', Int.cast_abs]
  unfold roundToGrid
  rw [hratio, gridUnits_intCast]
  split_ifs with h
  · have : (((|n| : ℤ) : ℚ)) * step = |(n : ℚ) * step| := by
      rw [abs_mul, abs_of_pos hs, Int.cast_abs]
    rw [this, copysign_abs]
  · rw [not_ne_iff, abs_eq_zero] at h
    simp [h]

theorem roundToGrid_nonneg (h : 0 ≤ value) : 0 ≤ roundToGrid tol value step := by
  unfold roundToGrid
  split_ifs
  · rw [copysign_of_nonneg h]
    exact abs_nonneg _
  · exact le_rfl

theorem roundToGrid_nonpos (h : value ≤ 0) : roundToGrid tol value step ≤ 0 := by
  rcases lt_or_eq_of_le h with h | rfl
  · unfold roundToGrid
    split_ifs
    · rw [copysign_of_neg h]
      exact neg_nonpos.mpr (abs_nonneg _)
    · exact le_rfl
  · have hunits : gridUnits tol 0 = 0 := by
      simpa using @gridUnits_intCast tol 0
    simp [roundToGrid, hunits]

end Rounding

end QuantDinger.Library
