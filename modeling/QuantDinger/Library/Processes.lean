import QuantDinger.Library.Interaction
import QuantDinger.Library.Runs

/-!
# Processes that share a host

Programs run as processes. Each call of a process is answered at once from the state they share, and
the calls of different processes come in any order; a process that gets no more turns is lost.

A protocol follows the calls of one program with a state of its own: which calls it allows, how an
answer moves it on, and which results it ends with. Programs that keep to a protocol keep together
every invariant of the host and the protocol states that each allowed call keeps.
-/

namespace QuantDinger.Library

variable {Call : Type} {Response : Call → Type} {ε α σ ο ν γ : Type}

/-- What a process was started as, and what is left of its program. -/
structure Process (Call : Type) (Response : Call → Type) (ε α ο : Type) where
  origin : ο
  program : Interaction Call Response ε α

/-- The shared state and the processes. -/
structure Processes (Call : Type) (Response : Call → Type) (ε α σ ο : Type) where
  host : σ
  processes : List (Process Call Response ε α ο) := []

/-- A process is started, or makes its next call; `input` is what the outside adds to the answer. -/
inductive ProcessEvent (ο ν : Type)
  | start (origin : ο)
  | run (index : ℕ) (input : ν)

/-- One event. -/
def Processes.step (program : ο → Interaction Call Response ε α)
    (answer : ν → (c : Call) → σ → Response c × σ) (system : Processes Call Response ε α σ ο)
    (event : ProcessEvent ο ν) : Processes Call Response ε α σ ο :=
  match event with
  | .start origin =>
    { system with processes := system.processes ++ [⟨origin, program origin⟩] }
  | .run index input =>
    match system.processes[index]? with
    | some ⟨origin, .call c k⟩ =>
      { host := (answer input c system.host).2
        processes := system.processes.set index ⟨origin, k (answer input c system.host).1⟩ }
    | _ => system

/-- A protocol: the state a program starts in, the calls that are allowed, how an answer moves the
state on, and the results to end with. -/
structure Protocol (Call : Type) (Response : Call → Type) (α ο γ : Type) where
  start : γ
  allows : ο → γ → Call → Prop
  next : γ → (c : Call) → Response c → γ
  ends : ο → γ → α → Prop

namespace Protocol

variable (protocol : Protocol Call Response α ο γ)

/-- A program keeps to the protocol from a state on. -/
def Kept (origin : ο) : Interaction Call Response ε α → γ → Prop
  | .done a, state => protocol.ends origin state a
  | .fail _, _ => True
  | .call c k, state =>
    protocol.allows origin state c ∧ ∀ r, Kept origin (k r) (protocol.next state c r)

/-- The processes keep to the protocol, each from its own state on. -/
def Together (system : Processes Call Response ε α σ ο) (states : ℕ → γ) : Prop :=
  ∀ i process, system.processes[i]? = some process →
    protocol.Kept process.origin process.program (states i)

variable {protocol} {program : ο → Interaction Call Response ε α}
  {answer : ν → (c : Call) → σ → Response c × σ} {I : σ → (ℕ → γ) → Prop}

/-- One event keeps an invariant that each start and each allowed call keeps. -/
theorem together_step (hprogram : ∀ origin, protocol.Kept origin (program origin) protocol.start)
    (hstart : ∀ host states i, I host states → I host (Function.update states i protocol.start))
    (hcall : ∀ host states i origin input c, I host states → protocol.allows origin (states i) c →
      I (answer input c host).2
        (Function.update states i (protocol.next (states i) c (answer input c host).1)))
    {system : Processes Call Response ε α σ ο} {states : ℕ → γ} (hI : I system.host states)
    (hkept : protocol.Together system states) (event : ProcessEvent ο ν) :
    ∃ states, I (system.step program answer event).host states ∧
      protocol.Together (system.step program answer event) states := by
  cases event with
  | start origin =>
    refine ⟨Function.update states system.processes.length protocol.start,
      hstart _ _ _ hI, ?_⟩
    intro i process hi
    unfold Processes.step at hi
    rcases lt_trichotomy i system.processes.length with hlt | heq | hgt
    · rw [List.getElem?_append_left hlt] at hi
      rw [Function.update_of_ne hlt.ne]
      exact hkept i process hi
    · subst heq
      rw [List.getElem?_concat_length] at hi
      obtain rfl := Option.some.inj hi
      rw [Function.update_self]
      exact hprogram origin
    · rw [List.getElem?_eq_none (by simpa using hgt)] at hi
      cases hi
  | run index input =>
    unfold Processes.step
    dsimp only
    split
    · rename_i origin c k hprocess
      obtain ⟨hallows, hrest⟩ := hkept index _ hprocess
      refine ⟨Function.update states index
        (protocol.next (states index) c (answer input c system.host).1),
        hcall _ _ _ origin _ _ hI hallows, ?_⟩
      intro i process hi
      by_cases hsame : i = index
      · subst hsame
        have hlt : i < system.processes.length := (List.getElem?_eq_some_iff.mp hprocess).1
        rw [List.getElem?_set_self hlt] at hi
        obtain rfl := Option.some.inj hi
        rw [Function.update_self]
        exact hrest _
      · rw [List.getElem?_set_ne (Ne.symm hsame)] at hi
        rw [Function.update_of_ne hsame]
        exact hkept i process hi
    · exact ⟨states, hI, hkept⟩

/-- The rule for a whole run: programs that keep to the protocol keep the invariant together. -/
theorem together_run (hprogram : ∀ origin, protocol.Kept origin (program origin) protocol.start)
    (hstart : ∀ host states i, I host states → I host (Function.update states i protocol.start))
    (hcall : ∀ host states i origin input c, I host states → protocol.allows origin (states i) c →
      I (answer input c host).2
        (Function.update states i (protocol.next (states i) c (answer input c host).1)))
    {system : Processes Call Response ε α σ ο} {states : ℕ → γ} (hI : I system.host states)
    (hkept : protocol.Together system states) (events : List (ProcessEvent ο ν)) :
    ∃ states, I (runActions (Processes.step program answer) system events).host states ∧
      protocol.Together (runActions (Processes.step program answer) system events) states := by
  refine runActions_invariant
    (I := fun system : Processes Call Response ε α σ ο =>
      ∃ states, I system.host states ∧ protocol.Together system states) ?_ ?_ events
  · rintro system event ⟨states, hI, hkept⟩
    exact together_step hprogram hstart hcall hI hkept event
  · exact ⟨states, hI, hkept⟩

end Protocol

end QuantDinger.Library
