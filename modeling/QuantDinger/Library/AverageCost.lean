import Mathlib.Algebra.Order.Field.Basic
import Mathlib.Algebra.Order.Ring.Abs
import Mathlib.Tactic

/-!
# Positions carried at average cost

A position of signed size `a` is carried at a cost `c` per unit. A trade of signed size
`d` at the price `p` extends it, reduces it, closes it or reverses it. The part of the
trade that goes against the position is `closedPart`, and it realises `realized`; the
cost of what is left is `averageCost`.

The identity `averageCost_identity` is all there is to such books: whatever the trade,
the value at cost changes by what was paid and what was realised.
-/

namespace QuantDinger.Library

variable {R : Type} [Field R] [LinearOrder R] [IsStrictOrderedRing R]

/-- The size of the part of the trade that goes against the position. -/
def closedPart (a d : R) : R := if a * d < 0 then min |a| |d| else 0

/-- The sign of a nonzero size. -/
def signOf (a : R) : R := if 0 < a then 1 else -1

/-- What the closed part realises. -/
def realized (a c d p : R) : R := (p - c) * closedPart a d * signOf a

/-- The cost of the position after the trade. -/
def averageCost (a c d p : R) : R :=
  if a + d = 0 then 0
  else if a = 0 ∨ 0 < a * d then (a * c + d * p) / (a + d)
  else if a * (a + d) < 0 then p
  else c

theorem abs_mul_signOf (a : R) : |a| * signOf a = a := by
  unfold signOf
  split
  · rename_i hp; rw [abs_of_pos hp, mul_one]
  · rename_i hp
    rw [abs_of_nonpos (not_lt.mp hp)]
    ring

theorem signOf_eq_neg {a d : R} (h : a * d < 0) : signOf a = -signOf d := by
  unfold signOf
  rcases mul_neg_iff.mp h with ⟨ha, hd⟩ | ⟨ha, hd⟩
  · rw [if_pos ha, if_neg (not_lt.mpr hd.le)]; ring
  · rw [if_neg (not_lt.mpr ha.le), if_pos hd]

/-- The four ways a trade meets a position. -/
theorem trade_cases (a d : R) :
    0 ≤ a * d ∨ (a * d < 0 ∧ |d| < |a| ∧ 0 < a * (a + d) ∧ |a + d| = |a| - |d|) ∨
      (a * d < 0 ∧ a + d = 0) ∨
      (a * d < 0 ∧ |a| < |d| ∧ a * (a + d) < 0 ∧ |a + d| = |d| - |a|) := by
  rcases le_or_gt 0 (a * d) with h | h
  · exact Or.inl h
  · right
    rcases mul_neg_iff.mp h with ⟨ha, hd⟩ | ⟨ha, hd⟩
    · rw [abs_of_pos ha, abs_of_neg hd]
      rcases lt_trichotomy (a + d) 0 with hs | hs | hs
      · exact Or.inr (Or.inr ⟨h, by linarith, mul_neg_of_pos_of_neg ha hs, by
          rw [abs_of_neg hs]; ring⟩)
      · exact Or.inr (Or.inl ⟨h, hs⟩)
      · exact Or.inl ⟨h, by linarith, mul_pos ha hs, by rw [abs_of_pos hs]; ring⟩
    · rw [abs_of_neg ha, abs_of_pos hd]
      rcases lt_trichotomy (a + d) 0 with hs | hs | hs
      · exact Or.inl ⟨h, by linarith, mul_pos_of_neg_of_neg ha hs, by rw [abs_of_neg hs]; ring⟩
      · exact Or.inr (Or.inl ⟨h, hs⟩)
      · exact Or.inr (Or.inr ⟨h, by linarith, mul_neg_of_neg_of_pos ha hs, by
          rw [abs_of_pos hs]; ring⟩)

/-- The value at cost changes by what was paid and what was realised. -/
theorem averageCost_identity (a c d p : R) :
    (a + d) * averageCost a c d p = a * c + d * p + realized a c d p := by
  unfold averageCost realized closedPart
  rcases trade_cases a d with h | ⟨h, hlt, hpos, -⟩ | ⟨h, hzero⟩ | ⟨h, hlt, hneg, -⟩
  · rw [if_neg (not_lt.mpr h)]
    by_cases hd : d = 0
    · -- Without a trade the cost is the old one, whatever it was.
      subst hd
      by_cases ha : a = 0
      · simp [ha]
      · have hsq : ¬ a * a < 0 := not_lt.mpr (mul_self_nonneg a)
        simp [ha, hsq]
    · have hcond : a = 0 ∨ 0 < a * d := by
        by_cases ha : a = 0
        · exact Or.inl ha
        · exact Or.inr (lt_of_le_of_ne h (mul_ne_zero ha hd).symm)
      have hs : a + d ≠ 0 := by
        intro hs
        have hda : d = -a := by linarith
        rcases hcond with ha | hpos
        · exact hd (by rw [hda, ha, neg_zero])
        · rw [hda, mul_neg, neg_pos] at hpos
          exact absurd hpos (not_lt.mpr (mul_self_nonneg a))
      rw [if_neg hs, if_pos hcond, mul_div_cancel₀ _ hs]
      ring
  · have ha : a ≠ 0 := by rintro rfl; simp at h
    have hs : a + d ≠ 0 := by intro hs; rw [hs] at hpos; simp at hpos
    have hcond : ¬ (a = 0 ∨ 0 < a * d) := by
      rintro (ha' | hd)
      · exact ha ha'
      · exact absurd hd (not_lt.mpr h.le)
    have hd : |d| * signOf a = -d := by rw [signOf_eq_neg h, mul_neg, abs_mul_signOf]
    rw [if_neg hs, if_neg hcond, if_neg (not_lt.mpr hpos.le), if_pos h, min_eq_right hlt.le,
      mul_assoc, hd]
    ring
  · have hd : d = -a := by linarith
    rw [if_pos hzero, if_pos h, hd, abs_neg, min_self, mul_assoc, abs_mul_signOf]
    ring
  · have ha : a ≠ 0 := by rintro rfl; simp at h
    have hs : a + d ≠ 0 := by intro hs; rw [hs] at hneg; simp at hneg
    have hcond : ¬ (a = 0 ∨ 0 < a * d) := by
      rintro (ha' | hd)
      · exact ha ha'
      · exact absurd hd (not_lt.mpr h.le)
    rw [if_neg hs, if_neg hcond, if_pos hneg, if_pos h, min_eq_left hlt.le, mul_assoc,
      abs_mul_signOf]
    ring

end QuantDinger.Library
