import QuantDinger.Analysis.RecommendedWindows

/-!
# Inferred ranges

A range inferred around a default is cut off: at 1 and 1000 where the name or the type counts
something, at 1 where the name is one of a percentage. What lies beyond is not in the range,
and for a default far enough beyond it the bounds are out of order (`inferred_range_iff`).
-/

namespace QuantDinger.Analysis.InferredRanges

open Library Model Model.Evolution RecommendedWindows

/-! ## Rounding around a positive number -/

section

variable {unit x : ℚ}

theorem roundTo_le_two_mul (hunit : 0 < unit) (hx : 0 ≤ x) : roundTo unit x ≤ 2 * x := by
  have hhalf := (abs_le.1 (abs_sub_roundTo_le hunit (x := x))).1
  obtain ⟨n, hn⟩ := @isMultiple_roundTo unit x
  rcases le_or_gt n 0 with hneg | hpos
  · have hcast : (n : ℚ) ≤ 0 := by exact_mod_cast hneg
    have hmul := mul_le_mul_of_nonneg_right hcast hunit.le
    linarith
  · have hcast : (1 : ℚ) ≤ n := by exact_mod_cast hpos
    have hmul := mul_le_mul_of_nonneg_right hcast hunit.le
    linarith

theorem le_roundTo_iff (hunit : 0 < unit) (hx : 0 < x) :
    x ≤ roundTo unit (x * (3 / 2)) ↔ unit < 3 * x := by
  have hhalf := (abs_le.1 (abs_sub_roundTo_le hunit (x := x * (3 / 2)))).2
  constructor
  · intro hle
    by_contra hsmall
    have hzero : roundTo unit (x * (3 / 2)) ≤ roundTo unit (unit / 2) :=
      roundTo_mono hunit (by linarith)
    have hround : roundTo unit (unit / 2) = 0 := by
      have hratio : unit / 2 / unit = 1 / 2 := by
        field_simp
      have hval : roundHalfEven (1 / 2) = 0 := by decide +kernel
      rw [roundTo, hratio, hval, Int.cast_zero, zero_mul]
    linarith
  · intro hlarge
    obtain ⟨n, hn⟩ := @isMultiple_roundTo unit (x * (3 / 2))
    have hpos : 0 < n := by
      by_contra hneg
      have hcast : (n : ℚ) ≤ 0 := by exact_mod_cast not_lt.1 hneg
      have hmul := mul_le_mul_of_nonneg_right hcast hunit.le
      linarith
    have hcast : (1 : ℚ) ≤ n := by exact_mod_cast hpos
    have hmul := mul_le_mul_of_nonneg_right hcast hunit.le
    linarith

end

/-! ## Ranges that are in order and contain the default -/

/-- The bounds are in order, and contain the default if that counts. -/
def Contains (range : SearchRange) (default : Option ℚ) (counts : ℚ → Prop) : Prop :=
  range.minimum ≤ range.maximum ∧
    ∀ d, default = some d → counts d → range.minimum ≤ d ∧ d ≤ range.maximum

/-- The default lies where the inference does not cut it off. -/
def InferenceFits (name kind : String) (default : Option ℚ) (counts : ℚ → Prop) : Prop :=
  ∀ d, default = some d →
    if isIntegerKind kind || isCountName name then
      roundHalfEven d ≤ 2001 ∧ (counts d → 1 ≤ d ∧ d ≤ 1000)
    else if isPercentName name then rounded (d * (1 / 2)) ≤ 1 ∧ (counts d → d ≤ 1)
    else counts d → eightDecimals < 3 * d

section

variable {name kind : String} {default : Option ℚ} {counts : ℚ → Prop}

theorem countBase_spec {d : ℚ} (hd : d ≠ 0) :
    2 ≤ countBase d ∧ roundHalfEven d ≤ countBase d ∧
      (countBase d = 2 ∨ countBase d = roundHalfEven d) := by
  unfold countBase
  rw [if_pos hd]
  omega

theorem count_range_iff (hcounts : ∀ d, counts d → 0 < d)
    (hname : (isIntegerKind kind || isCountName name) = true) :
    Contains (inferNumericRange name kind default) default counts ↔
      ∀ d, default = some d → roundHalfEven d ≤ 2001 ∧ (counts d → 1 ≤ d ∧ d ≤ 1000) := by
  unfold Contains inferNumericRange
  simp only [hname, if_true, Int.cast_le]
  rcases default with _ | d
  · simp only [Option.getD_none, reduceCtorEq, false_implies, implies_true, and_true, iff_true]
    decide +kernel
  · simp only [Option.getD_some, Option.some.injEq, forall_eq']
    rcases eq_or_ne d 0 with rfl | hd
    · have hzero : roundHalfEven 0 = 0 := roundHalfEven_intCast 0
      have hnot : ¬ counts 0 := fun h => lt_irrefl _ (hcounts 0 h)
      simp only [hnot, hzero, false_implies, and_true]
      decide +kernel
    · obtain ⟨htwo, hge, hbase⟩ := countBase_spec hd
      have hhalf := abs_le.1 (abs_sub_roundHalfEven_le d)
      generalize countBase d = base at *
      generalize roundHalfEven d = near at *
      have horder : max 1 (base / 2) ≤ min 1000 (max (base + 1) (base * 2)) ↔ near ≤ 2001 := by
        omega
      rw [horder]
      refine and_congr_right fun _ => forall_congr' fun _ => ?_
      constructor
      · rintro ⟨hlow, hhigh⟩
        have hone : ((1 : ℤ) : ℚ) ≤ (max 1 (base / 2) : ℤ) := by exact_mod_cast le_max_left _ _
        have htop : ((min 1000 (max (base + 1) (base * 2)) : ℤ) : ℚ) ≤ (1000 : ℤ) := by
          exact_mod_cast min_le_left _ _
        push_cast at hone htop hlow hhigh
        exact ⟨hone.trans hlow, hhigh.trans htop⟩
      · rintro ⟨hone, htop⟩
        have hbelow : ((base / 2 : ℤ) : ℚ) * 2 ≤ base := by
          exact_mod_cast Int.ediv_mul_le base two_ne_zero
        have hbasele : (near : ℚ) ≤ base := by exact_mod_cast hge
        push_cast
        refine ⟨max_le hone ?_, le_min htop (le_max_of_le_left ?_)⟩
        · rcases hbase with rfl | rfl
          · exact hone
          · linarith
        · linarith

theorem percent_range_iff (hcounts : ∀ d, counts d → 0 < d)
    (hname : (isIntegerKind kind || isCountName name) = false)
    (hpercent : isPercentName name = true) :
    Contains (inferNumericRange name kind default) default counts ↔
      ∀ d, default = some d → rounded (d * (1 / 2)) ≤ 1 ∧ (counts d → d ≤ 1) := by
  have hone : rounded 1 = 1 :=
    (roundTo_eq_self_iff eightDecimals_pos).2 ⟨10 ^ 8, by norm_num [eightDecimals]⟩
  have hmono {x y : ℚ} (h : x ≤ y) : rounded x ≤ rounded y := roundTo_mono eightDecimals_pos h
  unfold Contains inferNumericRange
  simp only [hname, hpercent, Bool.false_eq_true, if_false, if_true]
  rcases default with _ | d
  · simp
  · simp only [Option.getD_some, Option.some.injEq, forall_eq']
    rcases le_or_gt d 0 with hneg | hpos
    · have hnot : ¬ counts d := fun h => absurd (hcounts d h) (not_lt.2 hneg)
      have hhalf : rounded (d * (1 / 2)) ≤ 1 := (hmono (by linarith)).trans_eq hone
      rw [if_pos hneg]
      simp only [hnot, hhalf, false_implies, and_true]
      norm_num
    · rw [if_neg (not_le.2 hpos)]
      have hzero : max 0 (d * (1 / 2)) = d * (1 / 2) := max_eq_right (by linarith)
      simp only [hzero]
      rcases le_or_gt d 1 with hle | hgt
      · have hup : d ≤ min 1 (max (d * (3 / 2)) (d + 1 / 100)) :=
          le_min hle (le_max_of_le_right (by linarith))
        have horder := hmono ((show d * (1 / 2) ≤ d by linarith).trans hup)
        have hhalf : rounded (d * (1 / 2)) ≤ 1 := (hmono (by linarith)).trans_eq hone
        have hlow : rounded (d * (1 / 2)) ≤ 2 * (d * (1 / 2)) :=
          roundTo_le_two_mul eightDecimals_pos (by linarith)
        have hhigh : d ≤ rounded (min 1 (max (d * (3 / 2)) (d + 1 / 100))) := by
          rcases le_or_gt (d + 1 / 100) 1 with hroom | htight
          · have hnear := (abs_le.1 (abs_sub_roundTo_le eightDecimals_pos (x := d + 1 / 100))).2
            refine le_trans ?_ (hmono (le_min hroom (le_max_right _ _)))
            have hsmall : eightDecimals ≤ 1 / 100 := by norm_num [eightDecimals]
            change d ≤ roundTo eightDecimals (d + 1 / 100)
            linarith
          · rw [min_eq_left (le_max_of_le_right htight.le), hone]
            exact hle
        simp only [horder, hhalf, hle, hhigh, implies_true, and_true, true_and, iff_true]
        intro _
        linarith
      · have htop : min 1 (max (d * (3 / 2)) (d + 1 / 100)) = 1 :=
          min_eq_left (le_max_of_le_left (by linarith))
        simp only [htop, hone, not_le.2 hgt, and_false]

theorem number_range_iff (hcounts : ∀ d, counts d → 0 < d)
    (hname : (isIntegerKind kind || isCountName name) = false)
    (hpercent : isPercentName name = false) :
    Contains (inferNumericRange name kind default) default counts ↔
      ∀ d, default = some d → counts d → eightDecimals < 3 * d := by
  have hmono {x y : ℚ} (h : x ≤ y) : rounded x ≤ rounded y := roundTo_mono eightDecimals_pos h
  unfold Contains inferNumericRange
  simp only [hname, hpercent, Bool.false_eq_true, if_false]
  rcases default with _ | d
  · simp
  · simp only [Option.getD_some, Option.some.injEq, forall_eq']
    rcases eq_or_ne d 0 with rfl | hd
    · have hnot : ¬ counts 0 := fun h => lt_irrefl _ (hcounts 0 h)
      simp [hnot]
    · rw [if_neg hd]
      simp only [hmono min_le_max, true_and]
      refine forall_congr' fun hd' => ?_
      have hpos := hcounts d hd'
      rw [min_eq_left (by linarith), max_eq_right (by linarith)]
      have hlow : rounded (d * (1 / 2)) ≤ 2 * (d * (1 / 2)) :=
        roundTo_le_two_mul eightDecimals_pos (by linarith)
      rw [← le_roundTo_iff eightDecimals_pos hpos]
      exact and_iff_right (by linarith)

theorem inferred_range_iff (hcounts : ∀ d, counts d → 0 < d) :
    Contains (inferNumericRange name kind default) default counts ↔
      InferenceFits name kind default counts := by
  unfold InferenceFits
  rcases hname : isIntegerKind kind || isCountName name with _ | _
  · rcases hpercent : isPercentName name with _ | _
    · simpa [hname, hpercent] using number_range_iff hcounts hname hpercent
    · simpa [hname, hpercent] using percent_range_iff hcounts hname hpercent
  · simpa [hname] using count_range_iff hcounts hname

end

end QuantDinger.Analysis.InferredRanges
