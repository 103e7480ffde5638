import Mathlib.Data.List.Basic

/-!
# Runs of a deterministic system

A system that takes one action after the other, a condition that every action of a run meets
in the state it is applied to, and the rule for what such runs keep.
-/

namespace QuantDinger.Library

variable {σ α : Type} (act : σ → α → σ)

/-- The state after a sequence of actions. -/
def runActions (s : σ) (actions : List α) : σ := actions.foldl act s

/-- Every action of the sequence meets the condition in the state it is applied to. -/
def Along (P : σ → α → Prop) : σ → List α → Prop
  | _, [] => True
  | s, action :: actions => P s action ∧ Along P (act s action) actions

variable {act}

instance decidableAlong {P : σ → α → Prop} [∀ s a, Decidable (P s a)] :
    (s : σ) → (actions : List α) → Decidable (Along act P s actions)
  | _, [] => isTrue trivial
  | s, action :: actions =>
    @instDecidableAnd (P s action) (Along act P (act s action) actions) _
      (decidableAlong (act s action) actions)

theorem along_append {P : σ → α → Prop} {s : σ} {actions more : List α} :
    Along act P s (actions ++ more) ↔
      Along act P s actions ∧ Along act P (runActions act s actions) more := by
  induction actions generalizing s with
  | nil => simp [Along, runActions]
  | cons action actions ih =>
    show P s action ∧ Along act P (act s action) (actions ++ more) ↔ _
    rw [ih, ← and_assoc]
    rfl

theorem Along.and {P Q : σ → α → Prop} {s : σ} {actions : List α} (hP : Along act P s actions)
    (hQ : Along act Q s actions) : Along act (fun s a => P s a ∧ Q s a) s actions := by
  induction actions generalizing s with
  | nil => exact trivial
  | cons action actions ih => exact ⟨⟨hP.1, hQ.1⟩, ih hP.2 hQ.2⟩

theorem along_of_forall {P : σ → α → Prop} (h : ∀ s action, P s action) (s : σ)
    (actions : List α) : Along act P s actions := by
  induction actions generalizing s with
  | nil => exact trivial
  | cons action actions ih => exact ⟨h s action, ih _⟩

/-- What every action keeps that meets the condition holds after every run that meets it. -/
theorem Along.invariant {P : σ → α → Prop} {I : σ → Prop}
    (hstep : ∀ s action, I s → P s action → I (act s action)) {s : σ} (hstart : I s)
    {actions : List α} (hrun : Along act P s actions) : I (runActions act s actions) := by
  induction actions generalizing s with
  | nil => exact hstart
  | cons action actions ih => exact ih (hstep s action hstart hrun.1) hrun.2

/-- What follows from the condition under an invariant that the condition keeps, follows along the
run. -/
theorem Along.strengthen {P Q : σ → α → Prop} {I : σ → Prop}
    (hstep : ∀ s action, I s → P s action → I (act s action) ∧ Q s action) {s : σ} (hstart : I s)
    {actions : List α} (hrun : Along act P s actions) : Along act Q s actions := by
  induction actions generalizing s with
  | nil => exact trivial
  | cons action actions ih =>
    obtain ⟨hnext, hgood⟩ := hstep s action hstart hrun.1
    exact ⟨hgood, ih hnext hrun.2⟩

/-- Two conditions that say the same under an invariant of every action say the same along every
run. -/
theorem along_iff_of_invariant {P Q : σ → α → Prop} {I : σ → Prop}
    (hkeeps : ∀ s action, I s → I (act s action))
    (hiff : ∀ s action, I s → (P s action ↔ Q s action)) {s : σ} (hstart : I s)
    (actions : List α) : Along act P s actions ↔ Along act Q s actions :=
  ⟨fun h => h.strengthen (fun s action hs hP => ⟨hkeeps s action hs, (hiff s action hs).mp hP⟩)
      hstart,
    fun h => h.strengthen (fun s action hs hQ => ⟨hkeeps s action hs, (hiff s action hs).mpr hQ⟩)
      hstart⟩

/-- The same, where the actions of the run keep the invariant. -/
theorem along_iff_of_invariant_of_mem {P Q : σ → α → Prop} {I : σ → Prop} {actions : List α}
    (hkeeps : ∀ s, ∀ action ∈ actions, I s → I (act s action))
    (hiff : ∀ s, ∀ action ∈ actions, I s → (P s action ↔ Q s action)) {s : σ} (hstart : I s) :
    Along act P s actions ↔ Along act Q s actions := by
  induction actions generalizing s with
  | nil => exact Iff.rfl
  | cons action actions ih =>
    refine and_congr (hiff s action List.mem_cons_self hstart) (ih ?_ ?_ ?_)
    · exact fun s later hlater => hkeeps s later (List.mem_cons_of_mem action hlater)
    · exact fun s later hlater => hiff s later (List.mem_cons_of_mem action hlater)
    · exact hkeeps s action List.mem_cons_self hstart

/-- What every action keeps holds after every run. -/
theorem runActions_invariant {I : σ → Prop} (hstep : ∀ s action, I s → I (act s action)) {s : σ}
    (hstart : I s) (actions : List α) : I (runActions act s actions) := by
  induction actions generalizing s with
  | nil => exact hstart
  | cons action actions ih => exact ih (hstep s action hstart)

/-- A condition that says exactly when an action keeps an invariant says, along a run, exactly when
the invariant holds in every state of it. -/
theorem along_iff_throughout {P : σ → α → Prop} {I : σ → Prop} {actions : List α}
    (hstep : ∀ s, ∀ action ∈ actions, I s → (I (act s action) ↔ P s action)) {s : σ}
    (hstart : I s) :
    Along act P s actions ↔ ∀ earlier, earlier <+: actions → I (runActions act s earlier) := by
  induction actions generalizing s with
  | nil =>
    refine ⟨fun _ earlier hearlier => ?_, fun _ => trivial⟩
    rw [List.prefix_nil.1 hearlier]
    exact hstart
  | cons action actions ih =>
    have hfirst := hstep s action List.mem_cons_self hstart
    have hrest : ∀ s, ∀ later ∈ actions, I s → (I (act s later) ↔ P s later) :=
      fun s later hlater => hstep s later (List.mem_cons_of_mem action hlater)
    constructor
    · intro hrun earlier hearlier
      cases earlier with
      | nil => exact hstart
      | cons first earlier =>
        obtain ⟨rfl, hinitial⟩ := List.cons_prefix_cons.1 hearlier
        exact (ih hrest (hfirst.2 hrun.1)).1 hrun.2 earlier hinitial
    · intro hall
      have hnext : I (act s action) := hall [action] (by simp)
      refine ⟨hfirst.1 hnext, (ih hrest hnext).2 ?_⟩
      intro earlier hearlier
      exact hall (action :: earlier) (List.cons_prefix_cons.2 ⟨rfl, hearlier⟩)

/-- If no action restores the invariant, its last state decides. -/
theorem along_iff_final {P : σ → α → Prop} {I : σ → Prop}
    (hback : ∀ s action, I (act s action) → I s)
    (hstep : ∀ s action, I s → (I (act s action) ↔ P s action)) {s : σ} (hstart : I s)
    (actions : List α) : Along act P s actions ↔ I (runActions act s actions) := by
  have hbefore : ∀ (more : List α) (s : σ), I (runActions act s more) → I s := by
    intro more
    induction more with
    | nil => exact fun _ h => h
    | cons action more ih => exact fun s h => hback s action (ih _ h)
  rw [along_iff_throughout (fun s action _ => hstep s action) hstart]
  constructor
  · intro hall
    exact hall actions (List.prefix_refl actions)
  · rintro hlast earlier ⟨more, rfl⟩
    refine hbefore more _ ?_
    unfold runActions at hlast ⊢
    rw [← List.foldl_append]
    exact hlast

end QuantDinger.Library
