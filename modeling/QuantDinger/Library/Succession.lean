import QuantDinger.Library.Recurrence

/-!
# The next member of a set of integers

`Follows` relates a member of a predicate on the integers to the next one. A walk that always moves
to the least member of a set above where it is goes through all of them, each once and in order
(`IsWalk.visits`).
-/

namespace QuantDinger.Library

/-! ## Neighbours -/

section

variable {P : ℤ → Prop} {κ : Type}

/-- `later` is the next member after `a`. -/
structure Follows (P : ℤ → Prop) (a later : ℤ) : Prop where
  lt : a < later
  mem : P later
  none_between : ∀ between, a < between → between < later → ¬ P between

theorem Follows.le_of_mem {a later other : ℤ} (h : Follows P a later) (hlt : a < other)
    (hother : P other) : later ≤ other := by
  by_contra hbetween
  exact h.none_between other hlt (not_le.1 hbetween) hother

theorem Follows.unique {a later other : ℤ} (h : Follows P a later) (h' : Follows P a other) :
    later = other :=
  le_antisymm (h.le_of_mem h'.lt h'.mem) (h'.le_of_mem h.lt h.mem)

/-- Below any later member there is a next one. -/
theorem exists_follows {a top : ℤ} (hlt : a < top) (htop : P top) :
    ∃ later, Follows P a later ∧ later ≤ top := by
  classical
  obtain ⟨later, ⟨hlater, hmem⟩, hleast⟩ := Int.exists_least_of_bdd
    (P := fun other => a < other ∧ P other) ⟨a, fun other h => le_of_lt h.1⟩ ⟨top, hlt, htop⟩
  refine ⟨later, ⟨hlater, hmem, fun between hbetween hless h => ?_⟩, hleast top ⟨hlt, htop⟩⟩
  exact absurd (hleast between ⟨hbetween, h⟩) (not_le.2 hless)

/-- Between two members of different keys there are neighbours of different keys. -/
theorem exists_change {key : ℤ → κ} {first last : ℤ} (hfirst : P first) (hlast : P last)
    (hlt : first < last) (hkey : key first ≠ key last) :
    ∃ a later, first ≤ a ∧ later ≤ last ∧ P a ∧ Follows P a later ∧ key a ≠ key later := by
  classical
  obtain ⟨later, hfollows, hle⟩ := exists_follows hlt hlast
  by_cases hnext : key first = key later
  · have hless : later < last := by
      refine lt_of_le_of_ne hle ?_
      rintro rfl
      exact hkey hnext
    obtain ⟨a, other, ha, hother, hrest⟩ := exists_change hfollows.mem hlast hless (hnext ▸ hkey)
    exact ⟨a, other, (le_of_lt hfollows.lt).trans ha, hother, hrest⟩
  · exact ⟨first, later, le_refl _, hle, hfirst, hfollows, hnext⟩
  termination_by (last - first).toNat
  decreasing_by
    have hmoved := hfollows.lt
    omega

end

/-! ## Positions in a sorted list -/

section

variable {l : List ℤ} {i j index : ℕ} {a b later : ℤ}

theorem lt_of_index_lt (hsorted : l.Pairwise (· < ·)) (ha : l[i]? = some a) (hb : l[j]? = some b)
    (h : i < j) : a < b := by
  obtain ⟨hi, rfl⟩ := List.getElem?_eq_some_iff.1 ha
  obtain ⟨hj, rfl⟩ := List.getElem?_eq_some_iff.1 hb
  exact List.pairwise_iff_getElem.1 hsorted i j hi hj h

/-- In a list in order, a smaller element has an earlier position. -/
theorem index_lt_iff (hsorted : l.Pairwise (· < ·)) (ha : l[i]? = some a)
    (hb : l[j]? = some b) : i < j ↔ a < b := by
  constructor
  · exact lt_of_index_lt hsorted ha hb
  · intro hlt
    rcases Nat.lt_trichotomy i j with h | rfl | h
    · exact h
    · rw [ha] at hb
      exact absurd (Option.some.inj hb) (ne_of_lt hlt)
    · exact absurd (lt_of_index_lt hsorted hb ha h) (not_lt.2 (le_of_lt hlt))

/-- In a list in order, the element at the next position is the next member. -/
theorem getElem?_succ_iff (hsorted : l.Pairwise (· < ·)) (ha : l[index]? = some a) :
    l[index + 1]? = some later ↔ Follows (· ∈ l) a later := by
  have hnext : ∀ {next : ℤ}, l[index + 1]? = some next → Follows (· ∈ l) a next := by
    intro next hindex
    refine ⟨lt_of_index_lt hsorted ha hindex (Nat.lt_succ_self _),
      List.mem_of_getElem? hindex, ?_⟩
    intro between hafter hbefore hmem
    obtain ⟨other, hother⟩ := List.mem_iff_getElem?.1 hmem
    have hmore := (index_lt_iff hsorted ha hother).2 hafter
    have hless := (index_lt_iff hsorted hother hindex).2 hbefore
    omega
  constructor
  · exact hnext
  · intro hfollows
    obtain ⟨other, hother⟩ := List.mem_iff_getElem?.1 hfollows.mem
    have hmore := (index_lt_iff hsorted ha hother).2 hfollows.lt
    have hlength : index + 1 < l.length :=
      lt_of_le_of_lt hmore (List.getElem?_eq_some_iff.1 hother).1
    have hindex := List.getElem?_eq_getElem hlength
    rw [hindex, (hnext hindex).unique hfollows]

end

/-! ## Walks -/

/-- A walk that always moves to the least member above where it is. -/
def IsWalk (members : Set ℤ) (walk : ℕ → ℤ) : Prop :=
  ∀ n, IsLeast {t | t ∈ members ∧ walk n < t} (walk (n + 1))

theorem IsWalk.lt_succ {members : Set ℤ} {walk : ℕ → ℤ} (h : IsWalk members walk) (n : ℕ) :
    walk n < walk (n + 1) :=
  (h n).1.2

theorem IsWalk.strictMono {members : Set ℤ} {walk : ℕ → ℤ} (h : IsWalk members walk) :
    StrictMono walk :=
  strictMono_nat_of_lt_succ h.lt_succ

/-- A walk goes through every member above its start, and through nothing else. -/
theorem IsWalk.visits {members : Set ℤ} {walk : ℕ → ℤ} (h : IsWalk members walk) (t : ℤ) :
    (∃ n, walk (n + 1) = t) ↔ t ∈ members ∧ walk 0 < t := by
  constructor
  · rintro ⟨n, rfl⟩
    exact ⟨(h n).1.1, h.strictMono (Nat.succ_pos n)⟩
  · rintro ⟨hmem, hlt⟩
    have hgrows : ∀ n : ℕ, walk 0 + n ≤ walk n := by
      intro n
      induction n with
      | zero => simp
      | succ n ih =>
        have hstep := h.lt_succ n
        push_cast
        omega
    have hbound := hgrows (t - walk 0).toNat
    obtain ⟨n, ⟨-, hbefore, hupto⟩, -⟩ := existsUnique_gap (t := walk)
      (n := (t - walk 0).toNat) (fun i _ => h.lt_succ i) hlt (by omega)
    exact ⟨n, le_antisymm ((h n).2 ⟨hmem, hbefore⟩) hupto⟩

/-! ## Iterated calls -/

/-- Calls of `next`, each at what the last one returned, return the members above the start, each
once and in order. -/
def Visits {ε : Type} (next : ℤ → Except ε ℤ) (start : ℤ) (members : Set ℤ) : Prop :=
  ∃ walk : ℕ → ℤ, walk 0 = start ∧ (∀ n, next (walk n) = .ok (walk (n + 1))) ∧
    StrictMono walk ∧ ∀ t, (∃ n, walk (n + 1) = t) ↔ t ∈ members ∧ start < t

section

variable {ε : Type} {next : ℤ → Except ε ℤ} {start : ℤ} {members others : Set ℤ}

/-- Calls that return the least member above go through all members. -/
theorem visits_of_isLeast (h : ∀ t, start ≤ t → ∃ u, next t = .ok u ∧
    IsLeast {v | v ∈ members ∧ t < v} u) : Visits next start members := by
  obtain ⟨step, hstep⟩ : ∃ step : {t // start ≤ t} → {t // start ≤ t}, ∀ t,
      next t.1 = .ok (step t).1 ∧ IsLeast {v | v ∈ members ∧ t.1 < v} (step t).1 := by
    choose f hf hleast using h
    exact ⟨fun t => ⟨f t.1 t.2, t.2.trans (le_of_lt (hleast t.1 t.2).1.2)⟩,
      fun t => ⟨hf t.1 t.2, hleast t.1 t.2⟩⟩
  obtain ⟨walk, hzero, hsucc⟩ : ∃ walk : ℕ → {t // start ≤ t}, walk 0 = ⟨start, le_refl _⟩ ∧
      ∀ n, walk (n + 1) = step (walk n) :=
    ⟨fun n => step^[n] ⟨start, le_refl _⟩, rfl, fun n => Function.iterate_succ_apply' _ _ _⟩
  have hwalk : IsWalk members fun n => (walk n).1 := by
    intro n
    dsimp only
    rw [hsucc]
    exact (hstep (walk n)).2
  have hstart : (walk 0).1 = start := by rw [hzero]
  refine ⟨fun n => (walk n).1, hstart, fun n => ?_, hwalk.strictMono, fun t => ?_⟩
  · dsimp only
    rw [hsucc]
    exact (hstep (walk n)).1
  · have hvisits := hwalk.visits t
    rw [hstart] at hvisits
    exact hvisits

/-- What the calls return determines the members above the start. -/
theorem Visits.visits_iff (h : Visits next start members) :
    Visits next start others ↔ ∀ t, start < t → (t ∈ members ↔ t ∈ others) := by
  obtain ⟨walk, hzero, hnext, hmono, hmem⟩ := h
  constructor
  · rintro ⟨walk', hzero', hnext', -, hmem'⟩ t ht
    have hsame : ∀ n, walk n = walk' n := by
      intro n
      induction n with
      | zero => rw [hzero, hzero']
      | succ n ih =>
        have hstep := hnext n
        rw [ih, hnext' n] at hstep
        exact (Except.ok.inj hstep).symm
    have hboth := (hmem t).symm.trans ((exists_congr fun n => by rw [hsame]).trans (hmem' t))
    exact ⟨fun hin => (hboth.1 ⟨hin, ht⟩).1, fun hin => (hboth.2 ⟨hin, ht⟩).1⟩
  · intro hsame
    exact ⟨walk, hzero, hnext, hmono, fun t => (hmem t).trans (and_congr_left (hsame t))⟩

end

end QuantDinger.Library
