import Mathlib.Data.List.Range
import Mathlib.Order.Basic
import Mathlib.Order.Lattice
import Mathlib.Tactic

/-!
# The first index of a least value

What a single pass over a sequence knows of its least value: the first index that has it, the
running bound, and the first index that falls below a threshold and is least. Greatest values are
least values of the dual order.
-/

namespace QuantDinger.Library

/-- The first index below `n` with the property. -/
def firstIndex (p : ℕ → Prop) [DecidablePred p] (n : ℕ) : Option ℕ := (List.range n).find? (p ·)

theorem firstIndex_eq_some {p : ℕ → Prop} [DecidablePred p] {n i : ℕ} (hi : i < n) (hp : p i)
    (hfirst : ∀ j < i, ¬ p j) : firstIndex p n = some i := by
  unfold firstIndex
  rw [List.find?_range_eq_some]
  refine ⟨decide_eq_true hp, List.mem_range.2 hi, ?_⟩
  intro j hj
  simpa using hfirst j hj

theorem firstIndex_eq_none {p : ℕ → Prop} [DecidablePred p] {n : ℕ} (h : ∀ i < n, ¬ p i) :
    firstIndex p n = none := by
  unfold firstIndex
  rw [List.find?_eq_none]
  intro i hi
  simpa using h i (List.mem_range.1 hi)

theorem firstIndex_spec {p : ℕ → Prop} [DecidablePred p] {n i : ℕ} (h : firstIndex p n = some i) :
    i < n ∧ p i ∧ ∀ j < i, ¬ p j := by
  unfold firstIndex at h
  rw [List.find?_range_eq_some] at h
  refine ⟨List.mem_range.1 h.2.1, of_decide_eq_true h.1, fun j hj => ?_⟩
  simpa using h.2.2 j hj

theorem firstIndex_getD_lt {p : ℕ → Prop} [DecidablePred p] {n : ℕ} (hn : 0 < n) :
    (firstIndex p n).getD 0 < n := by
  cases h : firstIndex p n with
  | none => exact hn
  | some i => exact (firstIndex_spec h).1

theorem firstIndex_none {p : ℕ → Prop} [DecidablePred p] {n : ℕ} (h : firstIndex p n = none) :
    ∀ i < n, ¬ p i := by
  unfold firstIndex at h
  rw [List.find?_eq_none] at h
  intro i hi
  simpa using h i (List.mem_range.2 hi)

theorem firstIndex_succ (p : ℕ → Prop) [DecidablePred p] (n : ℕ) :
    firstIndex p (n + 1) =
      if p n ∧ firstIndex p n = none then some n else firstIndex p n := by
  unfold firstIndex
  rw [List.range_succ, List.find?_append]
  cases h : (List.range n).find? (p ·) with
  | none => by_cases hp : p n <;> simp [hp]
  | some i => simp

section

variable {α : Type*} [LinearOrder α] {f : ℕ → α} {n i j : ℕ}

/-- `i` is the first index below `n` with the least value. -/
structure FirstLeast (f : ℕ → α) (n i : ℕ) : Prop where
  lt : i < n
  least : ∀ j < n, f i ≤ f j
  first : ∀ j < i, f i < f j

theorem FirstLeast.succ_of_lt (h : FirstLeast f n i) (hlt : f n < f i) :
    FirstLeast f (n + 1) n := by
  have hbelow : ∀ j < n, f n < f j := fun j hj => lt_of_lt_of_le hlt (h.least j hj)
  refine ⟨Nat.lt_succ_self n, ?_, hbelow⟩
  intro j hj
  rcases Nat.lt_succ_iff_lt_or_eq.1 hj with hj | rfl
  · exact le_of_lt (hbelow j hj)
  · exact le_refl _

theorem FirstLeast.succ_of_le (h : FirstLeast f n i) (hle : f i ≤ f n) :
    FirstLeast f (n + 1) i := by
  refine ⟨Nat.lt_succ_of_lt h.lt, ?_, h.first⟩
  intro j hj
  rcases Nat.lt_succ_iff_lt_or_eq.1 hj with hj | rfl
  · exact h.least j hj
  · exact hle

/-- A value under a bound of all earlier ones is the first least. -/
theorem firstLeast_of_bound (bound : α) (hbound : ∀ j < n, bound ≤ f j) (hlt : f n < bound) :
    FirstLeast f (n + 1) n := by
  have hbelow : ∀ j < n, f n < f j := fun j hj => lt_of_lt_of_le hlt (hbound j hj)
  refine ⟨Nat.lt_succ_self n, ?_, hbelow⟩
  intro j hj
  rcases Nat.lt_succ_iff_lt_or_eq.1 hj with hj | rfl
  · exact le_of_lt (hbelow j hj)
  · exact le_refl _

theorem FirstLeast.firstIndex (h : FirstLeast f n i) :
    firstIndex (fun i => ∀ j < n, f i ≤ f j) n = some i := by
  refine firstIndex_eq_some h.lt h.least ?_
  intro j hj hleast
  exact absurd (hleast i h.lt) (not_le.2 (h.first j hj))

theorem exists_least (f : ℕ → α) (hn : 0 < n) : ∃ i < n, ∀ j < n, f i ≤ f j := by
  obtain ⟨i, hi, hleast⟩ := (Finset.range n).exists_min_image f ⟨0, Finset.mem_range.2 hn⟩
  exact ⟨i, Finset.mem_range.1 hi, fun j hj => hleast j (Finset.mem_range.2 hj)⟩

theorem firstIndex_least (f : ℕ → α) (hn : 0 < n) :
    ∀ j < n, f ((firstIndex (fun i => ∀ j < n, f i ≤ f j) n).getD 0) ≤ f j := by
  cases h : firstIndex (fun i => ∀ j < n, f i ≤ f j) n with
  | none =>
    obtain ⟨i, hi, hleast⟩ := exists_least f hn
    exact absurd hleast (firstIndex_none h i hi)
  | some i => exact (firstIndex_spec h).2.1

theorem le_of_firstIndex_none {threshold : α}
    (h : firstIndex (fun i => f i < threshold ∧ ∀ j < n, f i ≤ f j) n = none) :
    ∀ j < n, threshold ≤ f j := by
  intro j hj
  obtain ⟨i, hi, hleast⟩ := exists_least f (Nat.zero_lt_of_lt hj)
  by_contra hlt
  exact firstIndex_none h i hi ⟨lt_of_le_of_lt (hleast j hj) (not_le.1 hlt), hleast⟩

/-- The least value so far under the threshold, and the first index that has it; the threshold and
the first index of all where nothing is under it. -/
inductive Deepest (f : ℕ → α) (threshold : α) (n : ℕ) : α → ℕ → Prop
  | none (h : ∀ j < n, threshold ≤ f j) : Deepest f threshold n threshold 0
  | some {i : ℕ} (h : FirstLeast f n i) (hlt : f i < threshold) : Deepest f threshold n (f i) i

theorem Deepest.succ {threshold depth : α} (h : Deepest f threshold n depth i) :
    Deepest f threshold (n + 1) (if f n < depth then f n else depth)
      (if f n < depth then n else i) := by
  cases h with
  | none hnone =>
    split_ifs with hlt
    · exact .some (firstLeast_of_bound _ hnone hlt) hlt
    · refine .none fun j hj => ?_
      rcases Nat.lt_succ_iff_lt_or_eq.1 hj with hj | rfl
      · exact hnone j hj
      · exact not_lt.1 hlt
  | some hfirst hunder =>
    split_ifs with hlt
    · exact .some (hfirst.succ_of_lt hlt) (hlt.trans hunder)
    · exact .some (hfirst.succ_of_le (not_lt.1 hlt)) hunder

theorem Deepest.firstIndex {threshold depth : α} (h : Deepest f threshold n depth i) :
    (firstIndex (fun i => f i < threshold ∧ ∀ j < n, f i ≤ f j) n).getD 0 = i := by
  cases h with
  | none hnone =>
    rw [firstIndex_eq_none]
    · rfl
    · exact fun i hi hboth => absurd (hnone i hi) (not_le.2 hboth.1)
  | some hfirst hunder =>
    rw [firstIndex_eq_some hfirst.lt ⟨hunder, hfirst.least⟩]
    · rfl
    · intro j hj hboth
      exact absurd (hboth.2 i hfirst.lt) (not_le.2 (hfirst.first j hj))

theorem Deepest.le_threshold {threshold depth : α} (h : Deepest f threshold n depth i) :
    depth ≤ threshold := by
  cases h with
  | none _ => exact le_refl _
  | some _ hunder => exact le_of_lt hunder

theorem Deepest.least {threshold depth : α} (h : Deepest f threshold n depth i) :
    ∀ j < n, depth ≤ f j := by
  cases h with
  | none hnone => exact hnone
  | some hfirst _ => exact hfirst.least

/-- The greatest of a bound and the values before `n`. -/
def runningMax (f : ℕ → α) (bound : α) : ℕ → α
  | 0 => bound
  | n + 1 => max (runningMax f bound n) (f n)

variable {bound : α}

theorem le_runningMax (hj : j < n) : f j ≤ runningMax f bound n := by
  induction n with
  | zero => exact absurd hj (Nat.not_lt_zero j)
  | succ n ih =>
    rcases Nat.lt_succ_iff_lt_or_eq.1 hj with hj | rfl
    · exact (ih hj).trans (le_max_left _ _)
    · exact le_max_right _ _

theorem bound_le_runningMax (n : ℕ) : bound ≤ runningMax f bound n := by
  induction n with
  | zero => exact le_refl _
  | succ n ih => exact ih.trans (le_max_left _ _)

theorem runningMax_le {x : α} (hbound : bound ≤ x) (h : ∀ j < n, f j ≤ x) :
    runningMax f bound n ≤ x := by
  induction n with
  | zero => exact hbound
  | succ n ih =>
    exact max_le (ih fun j hj => h j (Nat.lt_succ_of_lt hj)) (h n (Nat.lt_succ_self n))

/-- The running greatest is the bound or a value above it. -/
theorem runningMax_cases (f : ℕ → α) (bound : α) (n : ℕ) :
    runningMax f bound n = bound ∨ ∃ j < n, bound < f j ∧ f j = runningMax f bound n := by
  induction n with
  | zero => exact Or.inl rfl
  | succ n ih =>
    rcases le_or_gt (f n) (runningMax f bound n) with hle | hlt
    · have hsame : runningMax f bound (n + 1) = runningMax f bound n := max_eq_left hle
      rw [hsame]
      exact ih.imp_right fun ⟨j, hj, hboth⟩ => ⟨j, Nat.lt_succ_of_lt hj, hboth⟩
    · have hself : runningMax f bound (n + 1) = f n := max_eq_right (le_of_lt hlt)
      exact Or.inr ⟨n, Nat.lt_succ_self n, lt_of_le_of_lt (bound_le_runningMax n) hlt, hself.symm⟩

/-- The greatest value so far over a bound, and the first index that has it. -/
def Highest (f : ℕ → α) (bound : α) (n : ℕ) (height : α) (i : ℕ) : Prop :=
  Deepest (fun j => OrderDual.toDual (f j)) (OrderDual.toDual bound) n (OrderDual.toDual height) i

theorem Highest.succ {height : α} (h : Highest f bound n height i) :
    Highest f bound (n + 1) (if height < f n then f n else height)
      (if height < f n then n else i) := by
  have hsucc := Deepest.succ h
  unfold Highest
  by_cases hlt : height < f n
  · rw [if_pos hlt, if_pos hlt]
    rw [if_pos (OrderDual.toDual_lt_toDual.2 hlt), if_pos (OrderDual.toDual_lt_toDual.2 hlt)] at hsucc
    exact hsucc
  · rw [if_neg hlt, if_neg hlt]
    rw [if_neg (fun hdual => hlt (OrderDual.toDual_lt_toDual.1 hdual)),
      if_neg (fun hdual => hlt (OrderDual.toDual_lt_toDual.1 hdual))] at hsucc
    exact hsucc

/-- With nothing to start from, the first least value. -/
theorem Deepest.of_top {depth : WithTop α}
    (h : Deepest (fun j => (f j : WithTop α)) ⊤ n depth i) (hn : 0 < n) : FirstLeast f n i := by
  cases h with
  | none hnone => exact absurd (hnone 0 hn) (not_le.2 (WithTop.coe_lt_top _))
  | some hfirst _ =>
    exact ⟨hfirst.lt, fun j hj => WithTop.coe_le_coe.1 (hfirst.least j hj),
      fun j hj => WithTop.coe_lt_coe.1 (hfirst.first j hj)⟩

theorem Highest.of_bot {height : WithBot α}
    (h : Highest (fun j => (f j : WithBot α)) ⊥ n height i) (hn : 0 < n) :
    FirstLeast (fun j => OrderDual.toDual (f j)) n i := by
  generalize hdual : OrderDual.toDual height = depth at h
  unfold Highest at h
  rw [hdual] at h
  cases h with
  | none hnone => exact absurd (hnone 0 hn) (not_le.2 (WithBot.bot_lt_coe (f 0)))
  | some hfirst _ =>
    refine ⟨hfirst.lt, fun j hj => ?_, fun j hj => ?_⟩
    · have hle : f j ≤ f i :=
        WithBot.coe_le_coe.1 (OrderDual.toDual_le_toDual.1 (hfirst.least j hj))
      exact hle
    · have hlt : f j < f i :=
        WithBot.coe_lt_coe.1 (OrderDual.toDual_lt_toDual.1 (hfirst.first j hj))
      exact hlt

theorem Highest.eq_runningMax {height : α} (h : Highest f bound n height i) :
    height = runningMax f bound n := by
  apply le_antisymm
  · generalize hdual : OrderDual.toDual height = depth at h
    unfold Highest at h
    rw [hdual] at h
    cases h with
    | none _ =>
      rw [OrderDual.toDual_inj.1 hdual]
      exact bound_le_runningMax n
    | some hfirst _ =>
      rw [OrderDual.toDual_inj.1 hdual]
      exact le_runningMax hfirst.lt
  · exact runningMax_le h.le_threshold h.least

end

end QuantDinger.Library
