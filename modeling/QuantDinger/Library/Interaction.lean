import QuantDinger.Library.Effect

/-!
# Programs that talk to a host

An `Interaction Call Response ε α` is a program that returns an `α`, raises an `ε`,
or issues a call and continues with the host's response. The tree is well founded
and branches on every possible response, so it stands for an arbitrary terminating
deterministic program that sees the world only through its calls.

`run` plays the program against a host that answers calls from its own state. What
one answer keeps, the whole conversation keeps (`Post.run`), and two hosts that
answer alike are told apart by no program (`Relates.run`).
-/

namespace QuantDinger.Library

/-- A program over the calls `Call`, each answered by a `Response` of its own type. -/
inductive Interaction (Call : Type) (Response : Call → Type) (ε α : Type) : Type
  | done (a : α)
  | fail (e : ε)
  | call (c : Call) (k : Response c → Interaction Call Response ε α)

namespace Interaction

variable {Call : Type} {Response : Call → Type} {ε σ τ α : Type}

/-- Play the program against a host with state `τ` over the ambient state `σ`. -/
def run (answer : (c : Call) → τ → EStateM ε σ (Response c × τ)) :
    Interaction Call Response ε α → τ → EStateM ε σ (α × τ)
  | done a, t => pure (a, t)
  | fail e, _ => throw e
  | call c k, t => do
    let r ← answer c t
    run answer (k r.1) r.2

end Interaction

variable {Call : Type} {Response : Call → Type} {ε σ τ α : Type}

/-- The conversation rule: an invariant of the host's state that every answer keeps
is kept by every program. -/
theorem Post.run {I : σ → Prop} {J : τ → Prop}
    {answer : (c : Call) → τ → EStateM ε σ (Response c × τ)}
    (h : ∀ c t, J t → Post I (answer c t) (fun r => J r.2))
    (p : Interaction Call Response ε α) {t : τ} (ht : J t) :
    Post I (p.run answer t) (fun r => J r.2) := by
  induction p generalizing t with
  | done a => exact Post.pure ht
  | fail e => exact Post.throw
  | call c k ih => exact Post.bind (h c t ht) fun r hr => ih r.1 hr

/-- Hosts that give equal answers from related ambient states are told apart by no
program. -/
theorem Relates.run {R : σ → σ → Prop}
    {answer : (c : Call) → τ → EStateM ε σ (Response c × τ)}
    (h : ∀ c t, Relates R Eq (answer c t) (answer c t))
    (p : Interaction Call Response ε α) (t : τ) :
    Relates R Eq (p.run answer t) (p.run answer t) := by
  induction p generalizing t with
  | done a => exact Relates.pure rfl
  | fail e => exact Relates.throw
  | call c k ih =>
    refine Relates.bind (h c t) fun r r' hr => ?_
    subst hr
    exact ih r.1 r.2

end QuantDinger.Library
