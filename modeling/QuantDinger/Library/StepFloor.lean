import QuantDinger.Library.Grid

/-!
# Flooring to a step, with snapping at the edge

`snapUnits tol ratio` floors a ratio, except that a ratio within `tol ratio` of a positive nearest
integer is taken for that integer. It is never below the floor, never more than the tolerance
above the ratio, the identity on integers, and monotone where the tolerance does not shrink.
-/

namespace QuantDinger.Library

/-- The nearest integer of a ratio that is not negative, a tie going up. -/
def roundHalfUp (x : ℚ) : ℤ := ⌊x + 1 / 2⌋

/-- The whole units in a ratio, one that is nearly there counted in. -/
def snapUnits (tol : ℚ → ℚ) (x : ℚ) : ℤ :=
  if 0 < roundHalfUp x ∧ |x - roundHalfUp x| ≤ tol x then roundHalfUp x else ⌊x⌋

/-- A value in whole steps, a step that is nearly there counted in. -/
def snapToStep (tol : ℚ → ℚ) (value step : ℚ) : ℚ := snapUnits tol (value / step) * step

/-! ## Units -/

section

variable {tol : ℚ → ℚ} {x y : ℚ}

theorem roundHalfUp_mono (h : x ≤ y) : roundHalfUp x ≤ roundHalfUp y :=
  Int.floor_le_floor (by linarith)

theorem floor_le_roundHalfUp (x : ℚ) : ⌊x⌋ ≤ roundHalfUp x := Int.floor_le_floor (by linarith)

theorem roundHalfUp_le_of_le {n : ℤ} (h : x ≤ n) : roundHalfUp x ≤ n := by
  have hlt : x + 1 / 2 < ((n + 1 : ℤ) : ℚ) := by
    push_cast
    linarith
  exact Int.lt_add_one_iff.mp (Int.floor_lt.mpr hlt)

theorem roundHalfUp_intCast (n : ℤ) : roundHalfUp (n : ℚ) = n := by
  apply le_antisymm (roundHalfUp_le_of_le le_rfl)
  simpa using floor_le_roundHalfUp (n : ℚ)

theorem floor_le_snapUnits (x : ℚ) : ⌊x⌋ ≤ snapUnits tol x := by
  unfold snapUnits
  split_ifs
  · exact floor_le_roundHalfUp x
  · exact le_rfl

theorem snapUnits_le_add_tol (htol : 0 ≤ tol x) : (snapUnits tol x : ℚ) ≤ x + tol x := by
  unfold snapUnits
  split_ifs with h
  · have := (abs_le.mp h.2).1
    linarith
  · have := Int.floor_le x
    linarith

theorem snapUnits_intCast (n : ℤ) : snapUnits tol (n : ℚ) = n := by
  unfold snapUnits
  rw [roundHalfUp_intCast, Int.floor_intCast, ite_self]

theorem snapUnits_eq_of_lt (h : ⌊x⌋ < snapUnits tol x) :
    0 < roundHalfUp x ∧ |x - roundHalfUp x| ≤ tol x ∧ snapUnits tol x = roundHalfUp x := by
  unfold snapUnits at h ⊢
  split_ifs at h ⊢ with hsnap
  · exact ⟨hsnap.1, hsnap.2, rfl⟩
  · exact absurd h (lt_irrefl _)

/-- A larger ratio has no fewer units, as its tolerance is no smaller. -/
theorem snapUnits_mono (hxy : x ≤ y) (htol : tol x ≤ tol y) :
    snapUnits tol x ≤ snapUnits tol y := by
  have hfloor : ⌊x⌋ ≤ snapUnits tol x := floor_le_snapUnits x
  rcases hfloor.lt_or_eq with hlt | heq
  · obtain ⟨hpos, hnear, hsnap⟩ := snapUnits_eq_of_lt hlt
    rw [hsnap]
    by_cases hpass : (roundHalfUp x : ℚ) ≤ y
    · exact (Int.le_floor.mpr hpass).trans (floor_le_snapUnits y)
    · -- `y` lies between `x` and the integer `x` is taken for, so it is taken for it as well
      have hyn : y ≤ roundHalfUp x := (not_le.mp hpass).le
      have hnearest : roundHalfUp y = roundHalfUp x :=
        le_antisymm (roundHalfUp_le_of_le hyn) (roundHalfUp_mono hxy)
      have hclose : |y - roundHalfUp y| ≤ tol y := by
        rw [hnearest, abs_sub_comm, abs_of_nonneg (by linarith)]
        have := (abs_le.mp hnear).1
        linarith
      have hsnapped : snapUnits tol y = roundHalfUp y := by
        unfold snapUnits
        rw [if_pos ⟨hnearest ▸ hpos, hclose⟩]
      rw [hsnapped, hnearest]
  · rw [← heq]
    exact (Int.floor_le_floor hxy).trans (floor_le_snapUnits y)

end

/-! ## Steps -/

section

variable {tol : ℚ → ℚ} {value step : ℚ}

theorem isMultiple_snapToStep : IsMultiple step (snapToStep tol value step) := ⟨_, rfl⟩

theorem snapToStep_le (hs : 0 < step) (htol : 0 ≤ tol (value / step)) :
    snapToStep tol value step ≤ value + tol (value / step) * step := by
  have h := mul_le_mul_of_nonneg_right (snapUnits_le_add_tol htol) hs.le
  have hcancel : value / step * step = value := div_mul_cancel₀ _ hs.ne'
  unfold snapToStep
  linarith [add_mul (value / step) (tol (value / step)) step]

/-- Whole multiples of the step stay. -/
theorem snapToStep_of_isMultiple (hs : 0 < step) (h : IsMultiple step value) :
    snapToStep tol value step = value := by
  obtain ⟨n, rfl⟩ := h
  unfold snapToStep
  rw [mul_div_cancel_right₀ _ hs.ne', snapUnits_intCast]

theorem snapToStep_mono {other : ℚ} (hs : 0 < step) (h : value ≤ other)
    (htol : tol (value / step) ≤ tol (other / step)) :
    snapToStep tol value step ≤ snapToStep tol other step := by
  have hunits := snapUnits_mono ((div_le_div_iff_of_pos_right hs).mpr h) htol
  exact mul_le_mul_of_nonneg_right (by exact_mod_cast hunits) hs.le

/-- Past every bound there is a value half a step away from the multiples. -/
theorem exists_off_step (hs : 0 < step) (bound : ℚ) :
    ∃ value, bound ≤ value ∧ ¬ IsMultiple step value := by
  refine ⟨⌈bound / step⌉ * step + step / 2, ?_, ?_⟩
  · have h := mul_le_mul_of_nonneg_right (Int.le_ceil (bound / step)) hs.le
    rw [div_mul_cancel₀ _ hs.ne'] at h
    linarith
  · rintro ⟨n, hn⟩
    have hunits : (⌈bound / step⌉ : ℚ) + 1 / 2 = n := by
      apply mul_right_cancel₀ hs.ne'
      linarith [add_mul (⌈bound / step⌉ : ℚ) (1 / 2) step]
    have hdouble : 2 * ⌈bound / step⌉ + 1 = 2 * n := by
      have : 2 * (⌈bound / step⌉ : ℚ) + 1 = 2 * n := by linarith
      exact_mod_cast this
    omega

/-- Past every bound there is a multiple of a finer step that is no multiple of this one. -/
theorem exists_finer_off_step {fine : ℚ} (hf : 0 < fine) (hfs : fine < step) (bound : ℚ) :
    ∃ value, bound ≤ value ∧ IsMultiple fine value ∧ ¬ IsMultiple step value := by
  have hreach := mul_le_mul_of_nonneg_right (Int.le_ceil (bound / fine)) hf.le
  rw [div_mul_cancel₀ _ hf.ne'] at hreach
  by_cases hm : IsMultiple step (⌈bound / fine⌉ * fine)
  · refine ⟨⌈bound / fine⌉ * fine + fine, by linarith, ⟨⌈bound / fine⌉ + 1, by push_cast; ring⟩, ?_⟩
    intro hm'
    -- the difference of the two would be a multiple of the step smaller than it
    have hdiff : IsMultiple step fine := by
      have := hm'.add hm.neg
      rwa [add_neg_cancel_comm] at this
    exact hf.ne' (hdiff.eq_zero_of_abs_lt (hf.trans hfs) (by rwa [abs_of_pos hf]))
  · exact ⟨⌈bound / fine⌉ * fine, hreach, ⟨_, rfl⟩, hm⟩

end

end QuantDinger.Library
