import Mathlib.Algebra.BigOperators.Group.List.Basic
import Mathlib.Data.Finset.Sort
import Mathlib.Order.Std
import Mathlib.Order.Lattice

/-!
# Summaries of a list read in parts

A list that is the concatenation of parts, and one value for every part. Where the values are the
first, the last, the greatest, the least or the total of their parts, the first, last, greatest,
least or total of the values is that of the whole list. A sorted list is one such concatenation
where its members are those of the parts and the parts follow each other.
-/

namespace QuantDinger.Library

variable {α β γ : Type} {parts : α → List β} {f : β → γ} {g : α → γ} {l : List α}

theorem head?_regroup (h : ∀ a ∈ l, ((parts a).map f).head? = some (g a)) :
    ((l.flatMap parts).map f).head? = (l.map g).head? := by
  cases l with
  | nil => rfl
  | cons a l =>
    have ha := h a List.mem_cons_self
    rw [List.flatMap_cons, List.map_append, List.head?_append, ha]
    rfl

theorem getLast?_regroup (h : ∀ a ∈ l, ((parts a).map f).getLast? = some (g a)) :
    ((l.flatMap parts).map f).getLast? = (l.map g).getLast? := by
  induction l with
  | nil => rfl
  | cons a l ih =>
    have ha := h a List.mem_cons_self
    have hl := ih fun b hb => h b (List.mem_cons_of_mem a hb)
    rw [List.flatMap_cons, List.map_append, List.getLast?_append, ha, hl, List.map_cons,
      List.getLast?_cons]
    cases (l.map g).getLast? <;> rfl

theorem sum_regroup [AddMonoid γ] (h : ∀ a ∈ l, ((parts a).map f).sum = g a) :
    ((l.flatMap parts).map f).sum = (l.map g).sum := by
  induction l with
  | nil => rfl
  | cons a l ih =>
    rw [List.flatMap_cons, List.map_append, List.sum_append, h a List.mem_cons_self,
      ih fun b hb => h b (List.mem_cons_of_mem a hb), List.map_cons, List.sum_cons]

section

variable [LinearOrder γ]

instance lawfulOrderMax : Std.LawfulOrderMax γ where
  max_eq_or := max_choice

instance lawfulOrderMin : Std.LawfulOrderMin γ where
  min_eq_or := min_choice

theorem max?_regroup (h : ∀ a ∈ l, ((parts a).map f).max? = some (g a)) :
    ((l.flatMap parts).map f).max? = (l.map g).max? := by
  have hpart : ∀ a ∈ l, g a ∈ (parts a).map f ∧ ∀ c ∈ (parts a).map f, c ≤ g a :=
    fun a ha => List.max?_eq_some_iff.mp (h a ha)
  ext m
  rw [List.max?_eq_some_iff, List.max?_eq_some_iff]
  constructor
  · rintro ⟨hmem, hle⟩
    obtain ⟨b, hb, rfl⟩ := List.mem_map.mp hmem
    obtain ⟨a, ha, hba⟩ := List.mem_flatMap.mp hb
    have hup : ∀ a' ∈ l, g a' ≤ f b := by
      intro a' ha'
      obtain ⟨b', hb', heq⟩ := List.mem_map.mp (hpart a' ha').1
      rw [← heq]
      exact hle _ (List.mem_map.mpr ⟨b', List.mem_flatMap.mpr ⟨a', ha', hb'⟩, rfl⟩)
    have heq : g a = f b :=
      le_antisymm (hup a ha) ((hpart a ha).2 _ (List.mem_map.mpr ⟨b, hba, rfl⟩))
    refine ⟨List.mem_map.mpr ⟨a, ha, heq⟩, ?_⟩
    intro c hc
    obtain ⟨a', ha', rfl⟩ := List.mem_map.mp hc
    exact hup a' ha'
  · rintro ⟨hmem, hle⟩
    obtain ⟨a, ha, rfl⟩ := List.mem_map.mp hmem
    obtain ⟨b, hb, heq⟩ := List.mem_map.mp (hpart a ha).1
    refine ⟨List.mem_map.mpr ⟨b, List.mem_flatMap.mpr ⟨a, ha, hb⟩, heq⟩, ?_⟩
    intro c hc
    obtain ⟨b', hb', rfl⟩ := List.mem_map.mp hc
    obtain ⟨a', ha', hba'⟩ := List.mem_flatMap.mp hb'
    exact ((hpart a' ha').2 _ (List.mem_map.mpr ⟨b', hba', rfl⟩)).trans
      (hle _ (List.mem_map.mpr ⟨a', ha', rfl⟩))

theorem min?_regroup (h : ∀ a ∈ l, ((parts a).map f).min? = some (g a)) :
    ((l.flatMap parts).map f).min? = (l.map g).min? := by
  have hpart : ∀ a ∈ l, g a ∈ (parts a).map f ∧ ∀ c ∈ (parts a).map f, g a ≤ c :=
    fun a ha => List.min?_eq_some_iff.mp (h a ha)
  ext m
  rw [List.min?_eq_some_iff, List.min?_eq_some_iff]
  constructor
  · rintro ⟨hmem, hle⟩
    obtain ⟨b, hb, rfl⟩ := List.mem_map.mp hmem
    obtain ⟨a, ha, hba⟩ := List.mem_flatMap.mp hb
    have hlow : ∀ a' ∈ l, f b ≤ g a' := by
      intro a' ha'
      obtain ⟨b', hb', heq⟩ := List.mem_map.mp (hpart a' ha').1
      rw [← heq]
      exact hle _ (List.mem_map.mpr ⟨b', List.mem_flatMap.mpr ⟨a', ha', hb'⟩, rfl⟩)
    have heq : g a = f b :=
      le_antisymm ((hpart a ha).2 _ (List.mem_map.mpr ⟨b, hba, rfl⟩)) (hlow a ha)
    refine ⟨List.mem_map.mpr ⟨a, ha, heq⟩, ?_⟩
    intro c hc
    obtain ⟨a', ha', rfl⟩ := List.mem_map.mp hc
    exact hlow a' ha'
  · rintro ⟨hmem, hle⟩
    obtain ⟨a, ha, rfl⟩ := List.mem_map.mp hmem
    obtain ⟨b, hb, heq⟩ := List.mem_map.mp (hpart a ha).1
    refine ⟨List.mem_map.mpr ⟨b, List.mem_flatMap.mpr ⟨a, ha, hb⟩, heq⟩, ?_⟩
    intro c hc
    obtain ⟨b', hb', rfl⟩ := List.mem_map.mp hc
    obtain ⟨a', ha', hba'⟩ := List.mem_flatMap.mp hb'
    exact (hle _ (List.mem_map.mpr ⟨a', ha', rfl⟩)).trans
      ((hpart a' ha').2 _ (List.mem_map.mpr ⟨b', hba', rfl⟩))

end

/-- The sorted members of a set, part by part, where the parts follow each other. -/
theorem sort_eq_flatMap [LinearOrder β] {s : Finset β} {t : List α} {parts : α → Finset β}
    (hmem : ∀ b, b ∈ s ↔ ∃ a ∈ t, b ∈ parts a)
    (hfollow : t.Pairwise fun a a' => ∀ b ∈ parts a, ∀ b' ∈ parts a', b < b') :
    s.sort (· ≤ ·) = t.flatMap fun a => (parts a).sort (· ≤ ·) := by
  have hsorted : (t.flatMap fun a => (parts a).sort (· ≤ ·)).Pairwise (· < ·) := by
    rw [List.flatMap_def, List.pairwise_flatten]
    refine ⟨?_, ?_⟩
    · intro part hpart
      obtain ⟨a, -, rfl⟩ := List.mem_map.mp hpart
      exact (Finset.sortedLT_sort _).pairwise
    · rw [List.pairwise_map]
      refine hfollow.imp ?_
      intro a a' h b hb b' hb'
      exact h b ((Finset.mem_sort _).mp hb) b' ((Finset.mem_sort _).mp hb')
  refine List.Pairwise.eq_of_mem_iff (Finset.sortedLT_sort s).pairwise hsorted ?_
  intro b
  rw [Finset.mem_sort, hmem, List.mem_flatMap]
  simp only [Finset.mem_sort]

end QuantDinger.Library
