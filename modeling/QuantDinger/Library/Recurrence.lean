import Mathlib.Order.Monotone.Basic
import Mathlib.Tactic

/-!
# Recurring instants

An instant in each of the consecutive periods of a line: the last one up to a point is that of the
point's own period, or that of the period before.
-/

namespace QuantDinger.Library

/-- `start` is where each period starts, `occur` lies in its period. -/
structure Recurrence (start occur : ℤ → ℤ) : Prop where
  from_start : ∀ k, start k ≤ occur k
  before_next : ∀ k, occur k < start (k + 1)

section

variable {start occur : ℤ → ℤ} {now : ℤ}

theorem Recurrence.occur_lt (h : Recurrence start occur) (k : ℤ) : occur k < occur (k + 1) :=
  lt_of_lt_of_le (h.before_next k) (h.from_start (k + 1))

theorem Recurrence.occur_le_iff (h : Recurrence start occur) {j k : ℤ} :
    occur j ≤ occur k ↔ j ≤ k :=
  (strictMono_int_of_lt_succ h.occur_lt).le_iff_le

/-- The last instant up to a point of period `k`. -/
def lastUpTo (occur : ℤ → ℤ) (now k : ℤ) : ℤ := if now < occur k then k - 1 else k

theorem Recurrence.lastUpTo_le (h : Recurrence start occur) {k : ℤ} (hk : start k ≤ now) :
    occur (lastUpTo occur now k) ≤ now := by
  unfold lastUpTo
  by_cases hlater : now < occur k
  · rw [if_pos hlater]
    have hprevious := h.before_next (k - 1)
    rw [sub_add_cancel] at hprevious
    exact (le_of_lt hprevious).trans hk
  · rw [if_neg hlater]
    exact not_lt.1 hlater

theorem Recurrence.lt_lastUpTo_succ (h : Recurrence start occur) {k : ℤ}
    (hk : now < start (k + 1)) : now < occur (lastUpTo occur now k + 1) := by
  unfold lastUpTo
  by_cases hlater : now < occur k
  · rw [if_pos hlater, sub_add_cancel]
    exact hlater
  · rw [if_neg hlater]
    exact lt_of_lt_of_le hk (h.from_start (k + 1))

/-- Whether an instant lies between two points is read off the period of the later one and the
period before. -/
theorem Recurrence.exists_between_iff (h : Recurrence start occur) {k before : ℤ}
    (hstart : start k ≤ now) (hend : now < start (k + 1)) :
    (∃ j, before < occur j ∧ occur j ≤ now) ↔ before < occur (lastUpTo occur now k) := by
  constructor
  · rintro ⟨j, hbefore, hj⟩
    have hle : j ≤ lastUpTo occur now k := by
      have hlt : j < lastUpTo occur now k + 1 :=
        (strictMono_int_of_lt_succ h.occur_lt).lt_iff_lt.1
          (lt_of_le_of_lt hj (h.lt_lastUpTo_succ hend))
      omega
    exact lt_of_lt_of_le hbefore (h.occur_le_iff.2 hle)
  · exact fun hbefore => ⟨_, hbefore, h.lastUpTo_le hstart⟩

end

/-- A point between the first and the last of some increasing points lies between two neighbours
only. -/
theorem existsUnique_gap {t : ℕ → ℤ} {n : ℕ} (ht : ∀ i < n, t i < t (i + 1)) {o : ℤ}
    (hfirst : t 0 < o) (hlast : o ≤ t n) : ∃! i, i < n ∧ t i < o ∧ o ≤ t (i + 1) := by
  have hmono : ∀ i j, i ≤ j → j ≤ n → t i ≤ t j := by
    intro i j hij hj
    induction j, hij using Nat.le_induction with
    | base => exact le_refl _
    | succ j _ ih => exact (ih (by omega)).trans (le_of_lt (ht j (by omega)))
  have hex : ∃ i, o ≤ t (i + 1) := by
    cases n with
    | zero => exact absurd hlast (not_le.2 hfirst)
    | succ n => exact ⟨n, hlast⟩
  obtain ⟨i, hi, hleast⟩ : ∃ i, o ≤ t (i + 1) ∧ ∀ j < i, ¬ o ≤ t (j + 1) :=
    ⟨Nat.find hex, Nat.find_spec hex, fun j hj => Nat.find_min hex hj⟩
  have hbefore : t i < o := by
    cases i with
    | zero => exact hfirst
    | succ i => exact not_le.1 (hleast i (Nat.lt_succ_self i))
  have hin : i < n := by
    by_contra hout
    cases n with
    | zero => exact absurd hlast (not_le.2 hfirst)
    | succ n => exact hleast n (by omega) hlast
  refine ⟨i, ⟨hin, hbefore, hi⟩, ?_⟩
  rintro j ⟨hjn, hjbefore, hj⟩
  rcases lt_trichotomy j i with hlt | rfl | hlt
  · exact absurd hj (hleast j hlt)
  · rfl
  · have hle := hmono (i + 1) j hlt (le_of_lt hjn)
    omega

end QuantDinger.Library
