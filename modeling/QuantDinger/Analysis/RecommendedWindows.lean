import QuantDinger.Model.ParameterSpace

/-!
# Recommended windows

The window recommended within a range runs from the last step at or below one target to the first
step at or above another, and is then rounded to eight decimals. Before the rounding it lies
in the range and contains what lies between the targets (`alignedWindow_ordered`,
`alignedWindow_contains`); the rounding can move an end out of the range.
-/

namespace QuantDinger.Analysis.RecommendedWindows

open Library Model Model.Evolution

/-- A range whose bounds are in order and whose step climbs. -/
structure Ordered (range : SearchRange) : Prop where
  bounds : range.minimum ≤ range.maximum
  step_pos : 0 < range.step

/-- `low` and `high` are the steps around two targets, cut off at the bounds of the range; where
they are not apart they are the bounds themselves. -/
def Window (range : SearchRange) (lowTarget highTarget low high : ℚ) : Prop :=
  ∃ below above,
    IsGreatest {x | IsRung range.minimum range.step x ∧ x ≤ max range.minimum lowTarget} below ∧
    IsLeast {x | IsRung range.minimum range.step x ∧ min range.maximum highTarget ≤ x} above ∧
    (below < min range.maximum above ∧ low = below ∧ high = min range.maximum above ∨
      min range.maximum above ≤ below ∧ low = range.minimum ∧ high = range.maximum)

section

variable {range : SearchRange} {lowTarget highTarget low high value : ℚ}

theorem Window.unique {low' high' : ℚ} (h : Window range lowTarget highTarget low high)
    (h' : Window range lowTarget highTarget low' high') : low = low' ∧ high = high' := by
  obtain ⟨below, above, hbelow, habove, hends⟩ := h
  obtain ⟨below', above', hbelow', habove', hends'⟩ := h'
  obtain rfl := hbelow.unique hbelow'
  obtain rfl := habove.unique habove'
  rcases hends with ⟨hlt, rfl, rfl⟩ | ⟨hle, rfl, rfl⟩
  · rcases hends' with ⟨-, rfl, rfl⟩ | ⟨hle, -, -⟩
    · exact ⟨rfl, rfl⟩
    · exact absurd hlt (not_lt.2 hle)
  · rcases hends' with ⟨hlt, -, -⟩ | ⟨-, rfl, rfl⟩
    · exact absurd hlt (not_lt.2 hle)
    · exact ⟨rfl, rfl⟩

theorem alignedWindow_window (hstep : 0 < range.step) :
    Window range lowTarget highTarget (alignedWindow range lowTarget highTarget).1
      (alignedWindow range lowTarget highTarget).2 := by
  have hbelow := isGreatest_rung hstep range.minimum (max range.minimum lowTarget)
  have habove := isLeast_rung hstep range.minimum (min range.maximum highTarget)
  refine ⟨_, _, hbelow, habove, ?_⟩
  -- the beginning is a step itself, so the step below the target is no lower
  have hmin : range.minimum ≤ range.minimum +
      ⌊(max range.minimum lowTarget - range.minimum) / range.step⌋ * range.step :=
    hbelow.2 ⟨isRung_self, le_max_left _ _⟩
  simp only [alignedWindow, Evolution.snapToStep, Bool.false_eq_true, if_false, if_true,
    max_eq_right hmin]
  split_ifs with hle
  · exact .inr ⟨hle, rfl, rfl⟩
  · exact .inl ⟨not_le.1 hle, rfl, rfl⟩

theorem Window.ordered (h : Window range lowTarget highTarget low high)
    (hle : range.minimum ≤ range.maximum) :
    range.minimum ≤ low ∧ low ≤ high ∧ high ≤ range.maximum := by
  obtain ⟨below, above, hbelow, -, ⟨hlt, rfl, rfl⟩ | ⟨-, rfl, rfl⟩⟩ := h
  · exact ⟨hbelow.2 ⟨isRung_self, le_max_left _ _⟩, hlt.le, min_le_left _ _⟩
  · exact ⟨le_rfl, hle, le_rfl⟩

theorem Window.contains (h : Window range lowTarget highTarget low high)
    (hrange : range.minimum ≤ value ∧ value ≤ range.maximum)
    (htargets : lowTarget ≤ value ∧ value ≤ highTarget) : low ≤ value ∧ value ≤ high := by
  obtain ⟨below, above, hbelow, habove, ⟨-, rfl, rfl⟩ | ⟨-, rfl, rfl⟩⟩ := h
  · refine ⟨hbelow.1.2.trans (max_le hrange.1 htargets.1), le_min hrange.2 ?_⟩
    exact (le_min hrange.2 htargets.2).trans habove.1.2
  · exact hrange

theorem Window.isMultiple {unit : ℚ} (h : Window range lowTarget highTarget low high)
    (hmin : IsMultiple unit range.minimum) (hmax : IsMultiple unit range.maximum)
    (hstep : IsMultiple unit range.step) : IsMultiple unit low ∧ IsMultiple unit high := by
  obtain ⟨below, above, hbelow, habove, ⟨-, rfl, rfl⟩ | ⟨-, rfl, rfl⟩⟩ := h
  · refine ⟨hbelow.1.1.isMultiple hmin hstep, ?_⟩
    rcases min_choice range.maximum above with hchoice | hchoice
    · rw [hchoice]
      exact hmax
    · rw [hchoice]
      exact habove.1.1.isMultiple hmin hstep
  · exact ⟨hmin, hmax⟩

end

/-! ## Targets -/

theorem recommendedTargets_around {range : SearchRange} {default : ℚ} {kind : ParameterKind}
    {name : String} (hpos : 0 < default) :
    (recommendedTargets range default kind name).1 ≤ default ∧
      default ≤ (recommendedTargets range default kind name).2 := by
  unfold recommendedTargets
  split_ifs with hperiod hrisk hzero
  · exact ⟨by linarith, by linarith⟩
  · exact ⟨by linarith, by linarith⟩
  · exact absurd hzero hpos.ne'
  · exact ⟨by linarith, by linarith⟩

/-! ## Rounded windows -/

def eightDecimals : ℚ := 1 / 10 ^ 8

theorem eightDecimals_pos : 0 < eightDecimals := by
  unfold eightDecimals
  norm_num

/-- The window around a default, rounded to eight decimals, has not left the range and, if the
default counts, contains it. -/
def RoundsInside (range : SearchRange) (default : ℚ) (kind : ParameterKind) (name : String)
    (counts : Prop) : Prop :=
  ∀ low high, Window range (recommendedTargets range default kind name).1
    (recommendedTargets range default kind name).2 low high →
      range.minimum ≤ rounded low ∧ rounded high ≤ range.maximum ∧
        (counts → rounded low ≤ default ∧ default ≤ rounded high)

/-! ## The window recommended -/

/-- The recommended window is in order and within its range, and contains the default if that
counts. -/
def Recommends (range : SearchRange) (default : Option ℚ) (kind : ParameterKind) (name : String)
    (counts : ℚ → Prop) : Prop :=
  let window := recommendedNumericRange range default kind name
  range.minimum ≤ window.1 ∧ window.1 ≤ window.2 ∧ window.2 ≤ range.maximum ∧
    ∀ d, default = some d → counts d → window.1 ≤ d ∧ d ≤ window.2

section

variable {range : SearchRange} {kind : ParameterKind} {name : String} {counts : ℚ → Prop}

theorem recommends_range {default : Option ℚ} (hrange : Ordered range)
    (hcounts : ∀ d, default = some d → counts d → range.minimum ≤ d ∧ d ≤ range.maximum)
    (hnone : recommendedNumericRange range default kind name =
      (range.minimum, range.maximum)) : Recommends range default kind name counts := by
  unfold Recommends
  rw [hnone]
  exact ⟨le_rfl, hrange.bounds, le_rfl, hcounts⟩

theorem recommends_integer {default : ℚ} (hrange : Ordered range)
    (hcounts : counts default → 0 < default)
    (hdefault : range.minimum ≤ default ∧ default ≤ range.maximum)
    (hmin : IsMultiple 1 range.minimum) (hmax : IsMultiple 1 range.maximum)
    (hstep : IsMultiple 1 range.step) :
    Recommends range (some default) .integer name counts := by
  have hwindow := @alignedWindow_window range (recommendedTargets range default .integer name).1
    (recommendedTargets range default .integer name).2 hrange.step_pos
  obtain ⟨⟨n, hn⟩, ⟨m, hm⟩⟩ := hwindow.isMultiple hmin hmax hstep
  obtain ⟨hle, hlt, hge⟩ := hwindow.ordered hrange.bounds
  have hwhole : recommendedNumericRange range (some default) .integer name =
      alignedWindow range (recommendedTargets range default .integer name).1
        (recommendedTargets range default .integer name).2 := by
    refine Prod.ext ?_ ?_
    · simp only [recommendedNumericRange, hdefault.1, hdefault.2, and_self, not_true_eq_false,
        if_false, if_true]
      rw [hn, mul_one, roundHalfEven_intCast]
    · simp only [recommendedNumericRange, hdefault.1, hdefault.2, and_self, not_true_eq_false,
        if_false, if_true]
      rw [hm, mul_one, roundHalfEven_intCast]
  unfold Recommends
  rw [hwhole]
  refine ⟨hle, hlt, hge, ?_⟩
  rintro d hd hd'
  obtain rfl := Option.some.inj hd
  exact hwindow.contains hdefault (recommendedTargets_around (hcounts hd'))

theorem recommends_iff {default : ℚ} (hrange : Ordered range) (hkind : kind ≠ .integer)
    (hdefault : range.minimum ≤ default ∧ default ≤ range.maximum) :
    Recommends range (some default) kind name counts ↔
      RoundsInside range default kind name (counts default) := by
  have hwindow := @alignedWindow_window range (recommendedTargets range default kind name).1
    (recommendedTargets range default kind name).2 hrange.step_pos
  have hrounded : recommendedNumericRange range (some default) kind name =
      (rounded (alignedWindow range (recommendedTargets range default kind name).1
        (recommendedTargets range default kind name).2).1,
      rounded (alignedWindow range (recommendedTargets range default kind name).1
        (recommendedTargets range default kind name).2).2) := by
    simp only [recommendedNumericRange, hdefault.1, hdefault.2, and_self, not_true_eq_false,
      if_false, hkind]
  unfold Recommends
  rw [hrounded]
  constructor
  · rintro ⟨hle, -, hge, hcontains⟩ low high hother
    obtain ⟨rfl, rfl⟩ := hwindow.unique hother
    exact ⟨hle, hge, hcontains default rfl⟩
  · intro hinside
    obtain ⟨hle, hge, hcontains⟩ := hinside _ _ hwindow
    refine ⟨hle, ?_, hge, ?_⟩
    · exact roundTo_mono eightDecimals_pos (hwindow.ordered hrange.bounds).2.1
    · rintro d hd hd'
      obtain rfl := Option.some.inj hd
      exact hcontains hd'

end

end QuantDinger.Analysis.RecommendedWindows
