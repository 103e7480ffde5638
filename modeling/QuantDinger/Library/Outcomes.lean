import Mathlib.Data.List.Forall2

/-!
# Fallible maps

A list map that stops at the first error answers with the list of its answers.
-/

namespace QuantDinger.Library

variable {ε α β : Type} {f : α → Except ε β}

theorem bind_ok_iff {x : Except ε α} {b : β} {g : α → Except ε β} :
    (x >>= g) = .ok b ↔ ∃ a, x = .ok a ∧ g a = .ok b := by
  cases x with
  | error e =>
    constructor
    · intro h
      exact nomatch h
    · rintro ⟨_, h, -⟩
      exact nomatch h
  | ok a =>
    refine ⟨fun h => ⟨a, rfl, h⟩, ?_⟩
    rintro ⟨_, hsame, h⟩
    cases hsame
    exact h

theorem mapM_ok_iff {l : List α} {answers : List β} :
    l.mapM f = .ok answers ↔ List.Forall₂ (fun a b => f a = .ok b) l answers := by
  induction l generalizing answers with
  | nil =>
    rw [List.mapM_nil, List.forall₂_nil_left_iff]
    exact ⟨fun h => by cases h; rfl, fun h => by rw [h]; rfl⟩
  | cons a l ih =>
    rw [List.mapM_cons, List.forall₂_cons_left_iff, bind_ok_iff]
    constructor
    · rintro ⟨b, hb, hrest⟩
      obtain ⟨bs, hbs, hanswers⟩ := bind_ok_iff.mp hrest
      cases hanswers
      exact ⟨b, bs, hb, ih.mp hbs, rfl⟩
    · rintro ⟨b, bs, hb, hbs, rfl⟩
      exact ⟨b, hb, bind_ok_iff.mpr ⟨bs, ih.mpr hbs, rfl⟩⟩

/-- Every answer is the answer for some element. -/
theorem exists_of_mapM_ok {l : List α} {answers : List β} (h : l.mapM f = .ok answers) {b : β}
    (hb : b ∈ answers) : ∃ a ∈ l, f a = .ok b := by
  have hall := mapM_ok_iff.mp h
  clear h
  induction hall with
  | nil => exact nomatch hb
  | @cons a b' l bs hfirst _ ih =>
    rcases List.mem_cons.mp hb with rfl | hb
    · exact ⟨a, List.mem_cons_self, hfirst⟩
    · obtain ⟨a', ha', hf⟩ := ih hb
      exact ⟨a', List.mem_cons_of_mem a ha', hf⟩

/-- Every element has its answer in the list. -/
theorem answer_of_mapM_ok {l : List α} {answers : List β} (h : l.mapM f = .ok answers) {a : α}
    (ha : a ∈ l) : ∃ b ∈ answers, f a = .ok b := by
  have hall := mapM_ok_iff.mp h
  clear h
  induction hall with
  | nil => exact nomatch ha
  | @cons a' b l bs hfirst _ ih =>
    rcases List.mem_cons.mp ha with rfl | ha
    · exact ⟨b, List.mem_cons_self, hfirst⟩
    · obtain ⟨b', hb', hf⟩ := ih ha
      exact ⟨b', List.mem_cons_of_mem b hb', hf⟩

end QuantDinger.Library
