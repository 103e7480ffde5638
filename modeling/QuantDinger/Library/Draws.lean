import Mathlib.Tactic

/-!
# Random draws

A `RandomSource` over a generator state `G` gives fractions of the unit interval, indices below a
bound and normal deviates; what is computed from draws is a program over the state. `Yields m P`
says that `m` ends in a value satisfying `P` whatever the generator holds, and the rules below
carry it through the program's text.
-/

namespace QuantDinger.Library

/-- A pseudo-random generator. -/
structure RandomSource (G : Type) where
  /-- `random()` -/
  random : G → ℚ × G
  random_nonneg : ∀ g, 0 ≤ (random g).1
  random_lt_one : ∀ g, (random g).1 < 1
  /-- `randrange(bound)` -/
  below : G → ℕ → ℕ × G
  below_lt : ∀ g bound, 0 < bound → (below g bound).1 < bound
  /-- `gauss(mean, deviation)` -/
  gauss : G → ℚ → ℚ → ℚ × G

/-- Whatever the generator holds, `m` ends in a value satisfying `P`. -/
def Yields {G α : Type} (m : StateM G α) (P : α → Prop) : Prop := ∀ g, P (m.run g).1

namespace Yields

variable {G α β : Type} {m : StateM G α} {P Q : α → Prop}

theorem mono (h : Yields m P) (hPQ : ∀ a, P a → Q a) : Yields m Q := fun g => hPQ _ (h g)

theorem pure {a : α} (h : P a) : Yields (Pure.pure a : StateM G α) P := fun _ => h

theorem bind {f : α → StateM G β} {R : β → Prop} (h : Yields m P)
    (hf : ∀ a, P a → Yields (f a) R) : Yields (m >>= f) R :=
  fun g => hf _ (h g) _

theorem any : Yields m fun _ => True := fun _ => trivial

theorem ite {c : Prop} [Decidable c] {m' : StateM G α} (h : c → Yields m P)
    (h' : ¬ c → Yields m' P) : Yields (if c then m else m') P := by
  split_ifs with hc
  · exact h hc
  · exact h' hc

/-- A drawn list, entry by entry. -/
theorem mapM {f : β → StateM G α} {R : β → α → Prop} {l : List β}
    (h : ∀ b ∈ l, Yields (f b) (R b)) : Yields (l.mapM f) (List.Forall₂ R l) := by
  induction l with
  | nil => exact pure .nil
  | cons b l ih =>
    rw [List.mapM_cons]
    refine (h b List.mem_cons_self).bind fun a ha => ?_
    refine (ih fun c hc => h c (List.mem_cons_of_mem _ hc)).bind fun as has => ?_
    exact pure (.cons ha has)

end Yields

namespace RandomSource

/-- A generator that always draws the lowest outcome. -/
def lowest : RandomSource Unit where
  random := fun _ => (0, ())
  random_nonneg := fun _ => le_rfl
  random_lt_one := fun _ => zero_lt_one
  below := fun _ _ => (0, ())
  below_lt := fun _ _ h => h
  gauss := fun _ mean _ => (mean, ())

variable {G : Type} (source : RandomSource G)

/-- `random()`. -/
def fraction : StateM G ℚ := source.random

/-- `uniform(low, high)`. -/
def uniform (low high : ℚ) : StateM G ℚ := fun g =>
  (low + (high - low) * (source.random g).1, (source.random g).2)

/-- An index below `bound`. -/
def index (bound : ℕ) : StateM G ℕ := fun g => source.below g bound

/-- `choice` among `first :: rest`. -/
def choice {α : Type} (first : α) (rest : List α) : StateM G α := do
  let i ← source.index (first :: rest).length
  return (first :: rest).getD i first

/-- The list with the entries at `i` and `j` exchanged. -/
def swap {α : Type} (l : List α) (i j : ℕ) : List α :=
  match l[i]?, l[j]? with
  | some a, some b => (l.set i b).set j a
  | _, _ => l

/-- The swaps of `shuffle` at the positions below `i + 1`, from the last to the first. -/
def shuffleBelow {α : Type} : ℕ → List α → StateM G (List α)
  | 0, l => return l
  | i + 1, l => do
    let j ← source.index (i + 2)
    shuffleBelow i (swap l (i + 1) j)

/-- `shuffle`. -/
def shuffle {α : Type} (l : List α) : StateM G (List α) := source.shuffleBelow (l.length - 1) l

/-- The first entry whose cumulative weight exceeds `point`, the last one if there is none. -/
def pick {α : Type} (first : α × ℕ) : List (α × ℕ) → ℚ → α
  | [], _ => first.1
  | next :: rest, point =>
    if point < first.2 then first.1 else pick next rest (point - first.2)

/-- `choices(population, weights, k=1)`. -/
def weightedChoice {α : Type} (first : α × ℕ) (rest : List (α × ℕ)) : StateM G α := fun g =>
  let total := ((first :: rest).map Prod.snd).sum
  (pick first rest (total * (source.random g).1), (source.random g).2)

variable {source}

theorem index_lt {bound : ℕ} (h : 0 < bound) : Yields (source.index bound) (· < bound) :=
  fun g => source.below_lt g bound h

theorem choice_mem {α : Type} (first : α) (rest : List α) :
    Yields (source.choice first rest) (· ∈ first :: rest) := by
  refine (index_lt (List.length_pos_of_ne_nil (List.cons_ne_nil first rest))).bind
    fun i hi => Yields.pure ?_
  rw [List.getD_eq_getElem?_getD, List.getElem?_eq_getElem hi, Option.getD_some]
  exact List.getElem_mem hi

theorem mem_of_mem_swap {α : Type} {l : List α} {i j : ℕ} {a : α} (h : a ∈ swap l i j) :
    a ∈ l := by
  unfold swap at h
  split at h
  case h_1 x y hx hy =>
    rcases List.mem_or_eq_of_mem_set h with h | rfl
    · rcases List.mem_or_eq_of_mem_set h with h | rfl
      · exact h
      · exact List.mem_of_getElem? hy
    · exact List.mem_of_getElem? hx
  case h_2 => exact h

theorem length_swap {α : Type} {l : List α} {i j : ℕ} : (swap l i j).length = l.length := by
  unfold swap
  split <;> simp

/-- A shuffle keeps the length and brings in nothing new. -/
theorem shuffle_mem {α : Type} (l : List α) :
    Yields (source.shuffle l) fun shuffled =>
      shuffled.length = l.length ∧ ∀ a ∈ shuffled, a ∈ l := by
  have hbelow : ∀ (i : ℕ) (l : List α), Yields (source.shuffleBelow i l) fun shuffled =>
      shuffled.length = l.length ∧ ∀ a ∈ shuffled, a ∈ l := by
    intro i
    induction i with
    | zero => exact fun l => Yields.pure ⟨rfl, fun _ ha => ha⟩
    | succ i ih =>
      intro l
      refine Yields.any.bind fun j _ => (ih _).mono fun shuffled h => ?_
      exact ⟨h.1.trans length_swap, fun a ha => mem_of_mem_swap (h.2 a ha)⟩
  exact hbelow _ l

theorem pick_mem {α : Type} (first : α × ℕ) (rest : List (α × ℕ)) (point : ℚ) :
    pick first rest point ∈ (first :: rest).map Prod.fst := by
  induction rest generalizing first point with
  | nil => exact List.mem_singleton_self _
  | cons next rest ih =>
    unfold pick
    split_ifs
    · exact List.mem_cons_self
    · exact List.mem_cons_of_mem _ (ih next _)

theorem weightedChoice_mem {α : Type} (first : α × ℕ) (rest : List (α × ℕ)) :
    Yields (source.weightedChoice first rest) (· ∈ (first :: rest).map Prod.fst) :=
  fun _ => pick_mem first rest _

end RandomSource

end QuantDinger.Library
