import Mathlib.Data.List.TakeWhile

/-!
# Lists trimmed at both ends

What is left of a list when the elements that satisfy a predicate are dropped at both ends, and the
lists with nothing to drop.
-/

namespace QuantDinger.Library

variable {α β : Type*} {p : α → Bool} {l : List α}

/-- The list without what satisfies `p` at its ends. -/
def trim (p : α → Bool) (l : List α) : List α := ((l.dropWhile p).reverse.dropWhile p).reverse

/-- There is nothing to drop. -/
structure Trimmed (p : α → Bool) (l : List α) : Prop where
  first : ∀ a ∈ l.head?, p a = false
  last : ∀ a ∈ l.getLast?, p a = false

theorem dropWhile_of_head (h : ∀ a ∈ l.head?, p a = false) : l.dropWhile p = l := by
  cases l with
  | nil => rfl
  | cons a l =>
    rw [List.dropWhile_cons_of_neg]
    rw [h a rfl]
    exact Bool.false_ne_true

theorem head_dropWhile {a : α} (h : a ∈ (l.dropWhile p).head?) : p a = false := by
  have hnot := List.head?_dropWhile_not p l
  rw [h] at hnot
  exact hnot

theorem Trimmed.trim_eq (h : Trimmed p l) : trim p l = l := by
  unfold trim
  rw [dropWhile_of_head h.first, dropWhile_of_head, List.reverse_reverse]
  rw [List.head?_reverse]
  exact h.last

theorem trimmed_trim (p : α → Bool) (l : List α) : Trimmed p (trim p l) where
  first := by
    intro a ha
    unfold trim at ha
    rw [List.head?_reverse] at ha
    obtain ⟨before, hsplit⟩ := List.dropWhile_suffix (l := (l.dropWhile p).reverse) p
    have hlast : a ∈ (l.dropWhile p).reverse.getLast? := by
      rw [← hsplit, List.getLast?_append]
      rw [Option.mem_def] at ha ⊢
      rw [ha]
      rfl
    rw [List.getLast?_reverse] at hlast
    exact head_dropWhile hlast
  last := by
    intro a ha
    unfold trim at ha
    rw [List.getLast?_reverse] at ha
    exact head_dropWhile ha

theorem mem_of_mem_trim {a : α} (h : a ∈ trim p l) : a ∈ l := by
  unfold trim at h
  have hreverse := (List.dropWhile_suffix p).subset (List.mem_reverse.mp h)
  exact (List.dropWhile_suffix p).subset (List.mem_reverse.mp hreverse)

theorem Trimmed.map {q : β → Bool} {f : α → β} (hf : ∀ a, q (f a) = p a) (h : Trimmed p l) :
    Trimmed q (l.map f) where
  first := by
    intro b hb
    rw [List.head?_map] at hb
    obtain ⟨a, ha, rfl⟩ := Option.map_eq_some_iff.mp hb
    rw [hf]
    exact h.first a ha
  last := by
    intro b hb
    rw [List.getLast?_map] at hb
    obtain ⟨a, ha, rfl⟩ := Option.map_eq_some_iff.mp hb
    rw [hf]
    exact h.last a ha

/-- The ends of a list are those of its first and its last part. -/
theorem Trimmed.enclose {before after : List α} (hbefore : Trimmed p before)
    (hafter : Trimmed p after) (hfirst : before ≠ []) (hlast : after ≠ []) (middle : List α) :
    Trimmed p (before ++ (middle ++ after)) where
  first := by
    intro a ha
    cases before with
    | nil => exact absurd rfl hfirst
    | cons b before => exact hbefore.first a ha
  last := by
    intro a ha
    rw [← List.append_assoc, List.getLast?_append] at ha
    cases hend : after.getLast? with
    | none => exact absurd (List.getLast?_eq_none_iff.mp hend) hlast
    | some b =>
      rw [hend] at ha
      exact hafter.last a (hend.trans ha)

end QuantDinger.Library
