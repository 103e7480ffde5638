import QuantDinger.Library.Interaction

/-!
# Transcripts of a program

`Plays p transcript outcome`: against some host, the program `p` exchanges the calls and
responses of the transcript and ends with the outcome. The host is free in every response,
so a statement about all transcripts is one about every host. The equations below run a
program symbolically, one call at a time.
-/

namespace QuantDinger.Library

namespace Interaction

variable {Call : Type} {Response : Call → Type} {ε α β : Type}

/-- One program after another. -/
def bind : Interaction Call Response ε α → (α → Interaction Call Response ε β) →
    Interaction Call Response ε β
  | done a, f => f a
  | fail e, _ => fail e
  | call c k, f => call c fun r => (k r).bind f

/-- The program with its failure as a value. -/
def attempt : Interaction Call Response ε α → Interaction Call Response ε (Except ε α)
  | done a => done (.ok a)
  | fail e => done (.error e)
  | call c k => call c fun r => (k r).attempt

/-- The transcripts of a program and the outcomes they lead to. -/
inductive Plays : Interaction Call Response ε α → List (Sigma Response) → Except ε α → Prop
  | done (a : α) : Plays (.done a) [] (.ok a)
  | fail (e : ε) : Plays (.fail e) [] (.error e)
  | call {c : Call} {k : Response c → Interaction Call Response ε α} (r : Response c)
      {transcript : List (Sigma Response)} {outcome : Except ε α}
      (rest : Plays (k r) transcript outcome) :
      Plays (.call c k) (⟨c, r⟩ :: transcript) outcome

theorem plays_done {a : α} {transcript : List (Sigma Response)} {outcome : Except ε α} :
    Plays (.done a) transcript outcome ↔ transcript = [] ∧ outcome = .ok a := by
  constructor
  · rintro ⟨⟩
    exact ⟨rfl, rfl⟩
  · rintro ⟨rfl, rfl⟩
    exact .done a

theorem plays_fail {e : ε} {transcript : List (Sigma Response)} {outcome : Except ε α} :
    Plays (.fail e) transcript outcome ↔ transcript = [] ∧ outcome = .error e := by
  constructor
  · rintro ⟨⟩
    exact ⟨rfl, rfl⟩
  · rintro ⟨rfl, rfl⟩
    exact .fail e

theorem plays_call {c : Call} {k : Response c → Interaction Call Response ε α}
    {transcript : List (Sigma Response)} {outcome : Except ε α} :
    Plays (.call c k) transcript outcome ↔
      ∃ r rest, transcript = ⟨c, r⟩ :: rest ∧ Plays (k r) rest outcome := by
  constructor
  · rintro (_ | _ | ⟨r, h⟩)
    exact ⟨r, _, rfl, h⟩
  · rintro ⟨r, rest, rfl, h⟩
    exact .call r h

/-- A program after another raises the error of the first, or continues from its value. -/
theorem plays_bind {p : Interaction Call Response ε α} {f : α → Interaction Call Response ε β}
    {transcript : List (Sigma Response)} {outcome : Except ε β} :
    Plays (p.bind f) transcript outcome ↔
      (∃ e, Plays p transcript (.error e) ∧ outcome = .error e) ∨
      ∃ a front back, transcript = front ++ back ∧ Plays p front (.ok a) ∧
        Plays (f a) back outcome := by
  induction p generalizing transcript with
  | done a =>
    constructor
    · intro h
      exact Or.inr ⟨a, [], transcript, rfl, .done a, h⟩
    · rintro (⟨e, h, -⟩ | ⟨a', front, back, rfl, h, hback⟩)
      · cases h
      · cases h
        exact hback
  | fail e =>
    constructor
    · intro h
      cases h
      exact Or.inl ⟨e, .fail e, rfl⟩
    · rintro (⟨e', h, rfl⟩ | ⟨a', front, back, rfl, h, -⟩)
      · cases h
        exact .fail e
      · cases h
  | call c k ih =>
    constructor
    · intro h
      obtain ⟨r, rest, rfl, hrest⟩ := plays_call.mp h
      rcases (ih r).mp hrest with ⟨e, he, rfl⟩ | ⟨a, front, back, rfl, hfront, hback⟩
      · exact Or.inl ⟨e, .call r he, rfl⟩
      · exact Or.inr ⟨a, ⟨c, r⟩ :: front, back, rfl, .call r hfront, hback⟩
    · rintro (⟨e, he, rfl⟩ | ⟨a, front, back, rfl, hfront, hback⟩)
      · obtain ⟨r, rest, rfl, hrest⟩ := plays_call.mp he
        exact .call r ((ih r).mpr (Or.inl ⟨e, hrest, rfl⟩))
      · obtain ⟨r, rest, rfl, hrest⟩ := plays_call.mp hfront
        exact .call r ((ih r).mpr (Or.inr ⟨a, rest, back, rfl, hrest, hback⟩))

theorem plays_attempt {p : Interaction Call Response ε α} {transcript : List (Sigma Response)}
    {outcome : Except ε (Except ε α)} :
    Plays p.attempt transcript outcome ↔ ∃ o, outcome = .ok o ∧ Plays p transcript o := by
  induction p generalizing transcript with
  | done a =>
    constructor
    · intro h
      cases h
      exact ⟨.ok a, rfl, .done a⟩
    · rintro ⟨o, rfl, h⟩
      cases h
      exact .done _
  | fail e =>
    constructor
    · intro h
      cases h
      exact ⟨.error e, rfl, .fail e⟩
    · rintro ⟨o, rfl, h⟩
      cases h
      exact .done _
  | call c k ih =>
    constructor
    · intro h
      obtain ⟨r, rest, rfl, hrest⟩ := plays_call.mp h
      obtain ⟨o, rfl, ho⟩ := (ih r).mp hrest
      exact ⟨o, rfl, .call r ho⟩
    · rintro ⟨o, rfl, h⟩
      obtain ⟨r, rest, rfl, hrest⟩ := plays_call.mp h
      exact .call r ((ih r).mpr ⟨o, rfl, hrest⟩)

end Interaction

end QuantDinger.Library
