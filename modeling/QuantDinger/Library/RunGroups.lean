import Mathlib.Data.List.SplitBy
import Mathlib.Tactic

/-!
# Groups of a growing list

`List.splitBy` cuts a list where two neighbours are not related. One more element joins the last
group or starts a new one.
-/

namespace QuantDinger.Library

section

variable {α : Type*} {r : α → α → Bool} {l : List α} {x : α}

/-- An element unrelated to the last one starts a group. -/
theorem splitBy_concat_new (h : ∀ y ∈ l.getLast?, r y x = false) :
    (l ++ [x]).splitBy r = l.splitBy r ++ [[x]] :=
  List.splitBy_append_cons [] h

/-- An element related to the last one joins its group. -/
theorem splitBy_concat_joined {y : α} (hlast : l.getLast? = some y) (h : r y x = true) :
    ∃ init group, l.splitBy r = init ++ [group] ∧ group.getLast? = some y ∧
      (l ++ [x]).splitBy r = init ++ [group ++ [x]] := by
  have hne : l ≠ [] := by
    rintro rfl
    exact nomatch hlast
  have hgroups := List.splitBy_ne_nil (r := r).2 hne
  obtain ⟨init, group, hsplit⟩ : ∃ init group, l.splitBy r = init ++ [group] :=
    ⟨_, _, (List.dropLast_append_getLast hgroups).symm⟩
  obtain ⟨hflat, hnil, hchain, hcut⟩ := List.splitBy_eq_iff.1 hsplit
  have hgroup : group ≠ [] := by
    rintro rfl
    exact hnil (List.mem_append_right _ List.mem_cons_self)
  have hlastGroup : group.getLast? = some y := by
    rw [hflat, List.flatten_append, List.flatten_singleton,
      List.getLast?_append_of_ne_nil _ hgroup] at hlast
    exact hlast
  refine ⟨init, group, hsplit, hlastGroup, ?_⟩
  rw [List.splitBy_eq_iff]
  refine ⟨?_, ?_, ?_, ?_⟩
  · rw [hflat]
    simp
  · intro hmem
    rcases List.mem_append.1 hmem with hmem | hmem
    · exact hnil (List.mem_append_left _ hmem)
    · exact absurd (List.mem_singleton.1 hmem).symm (by simp)
  · intro m hm
    rcases List.mem_append.1 hm with hm | hm
    · exact hchain m (List.mem_append_left _ hm)
    · rw [List.mem_singleton.1 hm, List.isChain_append]
      refine ⟨hchain group (List.mem_append_right _ List.mem_cons_self), List.isChain_singleton _, ?_⟩
      intro a ha b hb
      rw [hlastGroup, Option.mem_some_iff] at ha
      rw [List.head?_cons, Option.mem_some_iff] at hb
      rw [← ha, ← hb]
      exact h
  · rw [List.isChain_append] at hcut ⊢
    refine ⟨hcut.1, List.isChain_singleton _, ?_⟩
    intro a ha b hb
    obtain ⟨hane, hbne, hfalse⟩ := hcut.2.2 a ha group (by simp)
    rw [List.head?_cons, Option.mem_some_iff] at hb
    subst hb
    refine ⟨hane, by simp, ?_⟩
    rw [List.head_append_of_ne_nil hbne]
    exact hfalse

end

end QuantDinger.Library
