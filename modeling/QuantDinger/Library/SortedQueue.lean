import Mathlib.Data.List.Sort

/-!
# Queues filtered

What a filter keeps of a sorted queue when an element is inserted, and when elements at the head
are dropped.
-/

namespace QuantDinger.Library

variable {α : Type*} {r : α → α → Prop} [DecidableRel r] {p q : α → Bool} {a : α} {l : List α}

theorem filter_orderedInsert (r : α → α → Prop) [DecidableRel r] (p : α → Bool) (a : α)
    (l : List α) :
    ((l.orderedInsert r a).filter p).Perm ((a :: l).filter p) :=
  (List.perm_orderedInsert r a l).filter p

/-- What the filter drops may be inserted. -/
theorem filter_orderedInsert_of_neg (h : p a = false) :
    (l.orderedInsert r a).filter p = l.filter p := by
  induction l with
  | nil => simp [h]
  | cons b l ih =>
    rw [List.orderedInsert_cons]
    split
    · rw [List.filter_cons_of_neg]
      rw [h]
      exact Bool.false_ne_true
    · rw [List.filter_cons, List.filter_cons, ih]

/-- If the filter keeps nothing of the queue, it keeps what is inserted. -/
theorem filter_orderedInsert_of_empty (h : p a = true) (hl : ∀ b ∈ l, p b = false) :
    (l.orderedInsert r a).filter p = [a] := by
  have hnone : l.filter p = [] := by
    rw [List.filter_eq_nil_iff]
    intro b hb
    rw [hl b hb]
    exact Bool.false_ne_true
  have hperm := filter_orderedInsert r p a l
  rw [List.filter_cons_of_pos h, hnone] at hperm
  exact List.perm_singleton.1 hperm

/-- Elements that the filter drops may be dropped at the head. -/
theorem filter_dropWhile (h : ∀ b ∈ l, q b = true → p b = false) :
    (l.dropWhile q).filter p = l.filter p := by
  induction l with
  | nil => rfl
  | cons b l ih =>
    cases hb : q b with
    | false => rw [List.dropWhile_cons_of_neg (by simp [hb])]
    | true =>
      rw [List.dropWhile_cons_of_pos hb, List.filter_cons_of_neg]
      · exact ih fun c hc => h c (List.mem_cons_of_mem b hc)
      · rw [h b List.mem_cons_self hb]
        exact Bool.false_ne_true

/-- Nor does the filter see another one that drops less. -/
theorem filter_filter_of_imp (h : ∀ b ∈ l, p b = true → q b = true) :
    (l.filter q).filter p = l.filter p := by
  rw [List.filter_filter]
  apply List.filter_congr
  intro b hb
  cases hp : p b with
  | false => rfl
  | true => rw [h b hb hp]; rfl

end QuantDinger.Library
