import Mathlib.Tactic.TypeStar

/-!
# Calls that may raise

A call of a store has an effect and a value. It may raise instead, before its effect or after it;
the caller cannot tell which. Such a call has its effect or none, and one that answers had it.
-/

namespace QuantDinger.Library

variable {σ α : Type*}

/-- What may go wrong with a call: it raises before its effect, or after it. -/
inductive Fault
  | fine
  | lost (error : String)
  | uncertain (error : String)
  deriving DecidableEq

namespace Fault

/-- A call under a fault. -/
def call (fault : Fault) (store : σ) (effect : σ × α) : σ × Except String α :=
  match fault with
  | fine => (effect.1, .ok effect.2)
  | lost error => (store, .error error)
  | uncertain error => (effect.1, .error error)

/-- A call with this fault has its effect. -/
def takesEffect : Fault → Bool
  | fine | uncertain _ => true
  | lost _ => false

variable {fault : Fault} {store after : σ} {effect : σ × α}

/-- Whatever goes wrong, a call has its effect or none. -/
theorem call_store (fault : Fault) (store : σ) (effect : σ × α) :
    (fault.call store effect).1 = store ∨ (fault.call store effect).1 = effect.1 := by
  cases fault with
  | fine => exact Or.inr rfl
  | lost error => exact Or.inl rfl
  | uncertain error => exact Or.inr rfl

/-- A call that answers had its effect. -/
theorem call_ok {value : α} (h : fault.call store effect = (after, .ok value)) :
    fault = .fine ∧ effect = (after, value) := by
  obtain ⟨next, result⟩ := effect
  cases fault with
  | fine =>
    cases h
    exact ⟨rfl, rfl⟩
  | lost error => exact nomatch h
  | uncertain error => exact nomatch h

/-- What is kept by the effect of a call is kept by the call. -/
theorem call_keeps {P : σ → Prop} {result : Except String α}
    (h : fault.call store effect = (after, result)) (hstore : P store) (heffect : P effect.1) :
    P after := by
  rcases call_store fault store effect with hsame | hother
  · rw [h] at hsame
    rw [show after = store from hsame]
    exact hstore
  · rw [h] at hother
    rw [show after = effect.1 from hother]
    exact heffect

end Fault

end QuantDinger.Library
