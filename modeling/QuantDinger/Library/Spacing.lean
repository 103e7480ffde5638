import QuantDinger.Library.Grid

/-!
# Evenly spaced positions

Positions `step` apart, rounded to integers, ties to the even one. More than one apart they are
different, and from the first to the last of a list they stay inside it.
-/

namespace QuantDinger.Library

/-- Numbers more than one apart are rounded apart. -/
theorem roundHalfEven_lt_of_add_one_lt {x y : ℚ} (h : x + 1 < y) :
    roundHalfEven x < roundHalfEven y := by
  have hx := abs_le.1 (abs_sub_roundHalfEven_le x)
  have hy := abs_le.1 (abs_sub_roundHalfEven_le y)
  have hlt : (roundHalfEven x : ℚ) < roundHalfEven y := by linarith
  exact_mod_cast hlt

theorem roundHalfEven_nonneg {x : ℚ} (h : 0 ≤ x) : 0 ≤ roundHalfEven x := by
  have hx := abs_le.1 (abs_sub_roundHalfEven_le x)
  have hlt : (-1 : ℚ) < roundHalfEven x := by linarith
  have hint : -1 < roundHalfEven x := by exact_mod_cast hlt
  omega

/-- The `i`-th of the positions `step` apart. -/
def spacedPosition (step : ℚ) (i : ℕ) : ℕ := (roundHalfEven (i * step)).toNat

section

variable {step : ℚ} {i j : ℕ}

theorem spacedPosition_lt (hstep : 1 < step) (hij : i < j) :
    spacedPosition step i < spacedPosition step j := by
  have hi : (0 : ℚ) ≤ i * step := by positivity
  have hle : (i : ℚ) + 1 ≤ j := by exact_mod_cast hij
  have hfar : (i : ℚ) * step + 1 < j * step := by nlinarith
  have hround := roundHalfEven_lt_of_add_one_lt hfar
  have hnonneg := roundHalfEven_nonneg hi
  unfold spacedPosition
  omega

theorem spacedPosition_le {last count : ℕ} (hstep : 0 ≤ step) (hcount : step * count = last)
    (hi : i ≤ count) : spacedPosition step i ≤ last := by
  have hle : (i : ℚ) ≤ count := by exact_mod_cast hi
  have hbound : (i : ℚ) * step ≤ ((last : ℤ) : ℚ) := by
    rw [Int.cast_natCast, ← hcount, mul_comm step]
    exact mul_le_mul_of_nonneg_right hle hstep
  have hround := roundHalfEven_le_of_le hbound
  unfold spacedPosition
  omega

theorem mapM_eq_pmap {ι β : Type*} {P : ι → Prop} {g : ι → Option β} {f : ∀ i, P i → β}
    (h : ∀ i hi, g i = some (f i hi)) {l : List ι} (hl : ∀ i ∈ l, P i) :
    l.mapM g = some (l.pmap f hl) := by
  induction l with
  | nil => rfl
  | cons i l ih =>
    have hrest : ∀ i ∈ l, P i := fun i hi => hl i (List.mem_cons_of_mem _ hi)
    rw [List.mapM_cons, h i (hl i List.mem_cons_self), ih hrest]
    rfl

/-- As many spaced positions of a list as asked for, all different. -/
theorem spaced_members {α : Type*} {l : List α} {count : ℕ} (hl : l.Nodup) (hstep : 1 < step)
    (hspread : step * (count - 1 : ℕ) = (l.length - 1 : ℕ)) (hne : l ≠ []) :
    ∃ picked, (List.range count).mapM (fun i => l[spacedPosition step i]?) = some picked ∧
      picked.Nodup ∧ picked.length = count ∧ ∀ x ∈ picked, x ∈ l := by
  have hpos : 0 < l.length := List.length_pos_iff.2 hne
  have hinside : ∀ i < count, spacedPosition step i < l.length := by
    intro i hi
    have hle := spacedPosition_le (zero_le_one.trans (le_of_lt hstep)) hspread
      (Nat.le_sub_one_of_lt hi)
    omega
  refine ⟨(List.range count).pmap (fun i hi => l.get ⟨spacedPosition step i, hinside i hi⟩)
    fun i hi => List.mem_range.1 hi, ?_, ?_, ?_, ?_⟩
  · exact mapM_eq_pmap (fun i hi => List.getElem?_eq_getElem (hinside i hi)) _
  · refine List.nodup_range.pmap ?_
    intro i hi j hj heq
    have hposition := Fin.mk.inj_iff.1 (List.nodup_iff_injective_get.1 hl heq)
    rcases lt_trichotomy i j with hlt | rfl | hlt
    · exact absurd hposition (spacedPosition_lt hstep hlt).ne
    · rfl
    · exact absurd hposition (spacedPosition_lt hstep hlt).ne'
  · simp
  · intro x hx
    obtain ⟨i, _, rfl⟩ := List.mem_pmap.1 hx
    exact List.get_mem _ _

end

end QuantDinger.Library
