import QuantDinger.Library.Dict

/-!
# Rules for computations that read a state and may fail

`EStateM ε σ α` is a computation that returns a value or raises `ε` and keeps its
state `σ` either way. Two judgements about such computations are used throughout:

* `Post I m Q`: from a state in `I`, `m` ends in a state in `I`, and the value it
  returns satisfies `Q`;
* `Relates R S m m'`: from related states the two computations end in related
  states, and they return values related by `S` or raise the same error.

Each comes with a rule for `pure`, `throw`, `bind`, a guarded choice, a loop over a
list and a pass over the values of a dictionary.

A computation over a state with caches usually returns a function of the part of the
state that is not a cache, and changes the caches only. `Reads view m f` says so for
the function `f` of the `view`, and yields both judgements at once.
-/

namespace QuantDinger.Library

variable {ε σ α β γ δ : Type}

/-- `m` keeps the invariant `I` of the state, and what it returns satisfies `Q`. -/
def Post (I : σ → Prop) (m : EStateM ε σ α) (Q : α → Prop) : Prop :=
  ∀ s, I s → match m s with
    | .ok a s' => I s' ∧ Q a
    | .error _ s' => I s'

/-- From states related by `R` both computations end in states related by `R`, and
either return values related by `S` or raise the same error. -/
def Relates (R : σ → σ → Prop) (S : α → β → Prop)
    (m : EStateM ε σ α) (m' : EStateM ε σ β) : Prop :=
  ∀ s s', R s s' → match m s, m' s' with
    | .ok a t, .ok b t' => R t t' ∧ S a b
    | .error e t, .error e' t' => R t t' ∧ e = e'
    | _, _ => False

/-- Run `m` and hand its failure to the caller as a value. -/
def attempt (m : EStateM ε σ α) : EStateM ε σ (Except ε α) := fun s =>
  match m s with
  | .ok a s' => .ok (.ok a) s'
  | .error e s' => .ok (.error e) s'

/-- Run `m` and rewrite the error it raises. -/
def mapError (g : ε → ε) (m : EStateM ε σ α) : EStateM ε σ α := fun s =>
  match m s with
  | .ok a s' => .ok a s'
  | .error e s' => .error (g e) s'

/-- A pass over the values of a dictionary, in insertion order. -/
def mapEntriesM {κ : Type} (f : κ → α → EStateM ε σ β) :
    (l : List (κ × α)) → EStateM ε σ { l' : List (κ × β) // l'.map Prod.fst = l.map Prod.fst }
  | [] => pure ⟨[], rfl⟩
  | (k, a) :: l => do
    let b ← f k a
    let rest ← mapEntriesM f l
    pure ⟨(k, b) :: rest.1, by simp [rest.2]⟩

/-- `mapEntriesM` as an operation of dictionaries. -/
def Dict.mapValuesM {κ : Type} (d : Dict κ α) (f : κ → α → EStateM ε σ β) :
    EStateM ε σ (Dict κ β) := do
  let rest ← mapEntriesM f d.entries
  pure ⟨rest.1, by rw [rest.2]; exact d.nodup⟩

/-! ## The rules of `Post` -/

section Post

variable {I : σ → Prop}

theorem Post.pure {a : α} {Q : α → Prop} (h : Q a) :
    Post I (Pure.pure a : EStateM ε σ α) Q := fun _ hs => ⟨hs, h⟩

theorem Post.throw {e : ε} {Q : α → Prop} :
    Post I (MonadExcept.throw e : EStateM ε σ α) Q := fun _ hs => hs

theorem Post.bind {m : EStateM ε σ α} {f : α → EStateM ε σ β} {Q : α → Prop} {Q' : β → Prop}
    (hm : Post I m Q) (hf : ∀ a, Q a → Post I (f a) Q') : Post I (m >>= f) Q' := by
  intro s hs
  have h := hm s hs
  show match EStateM.bind m f s with
    | .ok a s' => I s' ∧ Q' a
    | .error _ s' => I s'
  unfold EStateM.bind
  cases hr : m s with
  | ok a s' =>
    rw [hr] at h
    exact hf a h.2 s' h.1
  | error e s' =>
    rw [hr] at h
    exact h

theorem Post.mono {m : EStateM ε σ α} {Q Q' : α → Prop} (hm : Post I m Q)
    (h : ∀ a, Q a → Q' a) : Post I m Q' := by
  intro s hs
  have hms := hm s hs
  cases hr : m s with
  | ok a s' => rw [hr] at hms; exact ⟨hms.1, h a hms.2⟩
  | error e s' => rw [hr] at hms; exact hms

theorem Post.ite {p : Prop} [Decidable p] {m m' : EStateM ε σ α} {Q : α → Prop}
    (ht : p → Post I m Q) (hf : ¬ p → Post I m' Q) : Post I (if p then m else m') Q := by
  by_cases h : p
  · simpa [h] using ht h
  · simpa [h] using hf h

theorem Post.attempt {m : EStateM ε σ α} {Q : α → Prop} (hm : Post I m Q) :
    Post I (attempt m) (fun r => ∀ a, r = .ok a → Q a) := by
  intro s hs
  have h := hm s hs
  unfold Library.attempt
  cases hr : m s with
  | ok a s' =>
    rw [hr] at h
    refine ⟨h.1, ?_⟩
    rintro b hb
    cases hb
    exact h.2
  | error e s' =>
    rw [hr] at h
    refine ⟨h, ?_⟩
    rintro b hb
    cases hb

theorem Post.mapError {g : ε → ε} {m : EStateM ε σ α} {Q : α → Prop} (hm : Post I m Q) :
    Post I (mapError g m) Q := by
  intro s hs
  have h := hm s hs
  unfold Library.mapError
  cases hr : m s with
  | ok a s' => rw [hr] at h; exact h
  | error e s' => rw [hr] at h; exact h

/-- The loop rule: an invariant `J` of the accumulator that one iteration keeps is
kept by the whole loop. -/
theorem Post.foldlM {f : β → α → EStateM ε σ β} {J : β → Prop} {l : List α}
    (h : ∀ b a, a ∈ l → J b → Post I (f b a) J) {b : β} (hb : J b) :
    Post I (l.foldlM f b) J := by
  induction l generalizing b with
  | nil => exact Post.pure hb
  | cons a l ih =>
    rw [List.foldlM_cons]
    exact Post.bind (h b a (by simp) hb) fun b' hb' =>
      ih (fun b a ha hb => h b a (List.mem_cons_of_mem _ ha) hb) hb'

/-- The loop rule with an invariant that may mention what is left to do. -/
theorem Post.foldlM_rest {f : β → α → EStateM ε σ β} {J : List α → β → Prop}
    (h : ∀ b a l, J (a :: l) b → Post I (f b a) (J l)) {l : List α} {b : β} (hb : J l b) :
    Post I (l.foldlM f b) (J []) := by
  induction l generalizing b with
  | nil => exact Post.pure hb
  | cons a l ih =>
    rw [List.foldlM_cons]
    exact Post.bind (h b a l hb) fun b' hb' => ih hb'

/-- Any computation ends in some state with some value. -/
theorem Post.trivial (m : EStateM ε σ α) : Post (fun _ => True) m (fun _ => True) := by
  intro s _
  cases m s with
  | ok a s' => exact ⟨True.intro, True.intro⟩
  | error e s' => exact True.intro

/-- The rule of conjunction. -/
theorem Post.and {m : EStateM ε σ α} {Q Q' : α → Prop} (hm : Post I m Q) (hm' : Post I m Q') :
    Post I m (fun a => Q a ∧ Q' a) := by
  intro s hs
  have h := hm s hs
  have h' := hm' s hs
  cases hr : m s with
  | ok a s' => rw [hr] at h h'; exact ⟨h.1, h.2, h'.2⟩
  | error e s' => rw [hr] at h; exact h

/-- The frame rule: what holds of the value from any state may be added. -/
theorem Post.frame {m : EStateM ε σ α} {Q Q' : α → Prop} (hm : Post I m Q)
    (hm' : Post (fun _ => True) m Q') : Post I m (fun a => Q a ∧ Q' a) := by
  intro s hs
  have h := hm s hs
  have h' := hm' s True.intro
  cases hr : m s with
  | ok a s' => rw [hr] at h h'; exact ⟨h.1, h.2, h'.2⟩
  | error e s' => rw [hr] at h; exact h

/-- The rule for a pass over entries: the result has an entry for each old one,
with the old key and a new value satisfying `Q`. -/
theorem Post.mapEntriesM {κ : Type} {f : κ → α → EStateM ε σ β} {Q : κ → α → β → Prop}
    {l : List (κ × α)} (h : ∀ e ∈ l, Post I (f e.1 e.2) (Q e.1 e.2)) :
    Post I (mapEntriesM f l)
      (fun l' => List.Forall₂ (fun e e' => e'.1 = e.1 ∧ Q e.1 e.2 e'.2) l l'.1) := by
  induction l with
  | nil => exact Post.pure List.Forall₂.nil
  | cons e l ih =>
    refine Post.bind (h e (by simp)) fun b hb => ?_
    refine Post.bind (ih fun x hx => h x (List.mem_cons_of_mem _ hx)) fun rest hrest => ?_
    exact Post.pure (List.Forall₂.cons ⟨rfl, hb⟩ hrest)

theorem Post.mapValuesM {κ : Type} {f : κ → α → EStateM ε σ β} {Q : κ → α → β → Prop}
    {d : Dict κ α} (h : ∀ e ∈ d.entries, Post I (f e.1 e.2) (Q e.1 e.2)) :
    Post I (d.mapValuesM f)
      (fun d' => List.Forall₂ (fun e e' => e'.1 = e.1 ∧ Q e.1 e.2 e'.2) d.entries d'.entries) :=
  Post.bind (Post.mapEntriesM h) fun _ hrest => Post.pure hrest

/-- A computation that keeps `I` from one start delivers its postcondition there. -/
theorem Post.of_ok {m : EStateM ε σ α} {Q : α → Prop} (hm : Post I m Q) {s s' : σ} {a : α}
    (hs : I s) (h : m s = .ok a s') : I s' ∧ Q a := by
  have := hm s hs
  rwa [h] at this

end Post

/-- A sequence that returns went through both of its parts. -/
theorem bind_eq_ok {m : EStateM ε σ α} {f : α → EStateM ε σ β} {s t : σ} {b : β}
    (h : (m >>= f) s = .ok b t) : ∃ a u, m s = .ok a u ∧ f a u = .ok b t := by
  change EStateM.bind m f s = _ at h
  unfold EStateM.bind at h
  cases hr : m s with
  | ok a u =>
    rw [hr] at h
    exact ⟨a, u, rfl, h⟩
  | error e u =>
    rw [hr] at h
    cases h

/-! ## The rules of `Relates` -/

section Relates

variable {R : σ → σ → Prop}

theorem Relates.pure {S : α → β → Prop} {a : α} {b : β} (h : S a b) :
    Relates R S (Pure.pure a : EStateM ε σ α) (Pure.pure b) := fun _ _ hs => ⟨hs, h⟩

theorem Relates.throw {S : α → β → Prop} {e : ε} :
    Relates R S (MonadExcept.throw e : EStateM ε σ α) (MonadExcept.throw e) :=
  fun _ _ hs => ⟨hs, rfl⟩

theorem Relates.bind {S : α → β → Prop} {S' : γ → δ → Prop}
    {m : EStateM ε σ α} {m' : EStateM ε σ β} {f : α → EStateM ε σ γ} {f' : β → EStateM ε σ δ}
    (hm : Relates R S m m') (hf : ∀ a b, S a b → Relates R S' (f a) (f' b)) :
    Relates R S' (m >>= f) (m' >>= f') := by
  intro s s' hs
  have h := hm s s' hs
  show match EStateM.bind m f s, EStateM.bind m' f' s' with
    | .ok a t, .ok b t' => R t t' ∧ S' a b
    | .error e t, .error e' t' => R t t' ∧ e = e'
    | _, _ => False
  unfold EStateM.bind
  cases hr : m s with
  | ok a t =>
    cases hr' : m' s' with
    | ok b t' =>
      rw [hr, hr'] at h
      exact hf a b h.2 t t' h.1
    | error e t' => rw [hr, hr'] at h; exact h.elim
  | error e t =>
    cases hr' : m' s' with
    | ok b t' => rw [hr, hr'] at h; exact h.elim
    | error e' t' => rw [hr, hr'] at h; exact h

theorem Relates.attempt {m m' : EStateM ε σ α} (hm : Relates R Eq m m') :
    Relates R Eq (attempt m) (attempt m') := by
  intro s s' hs
  have h := hm s s' hs
  unfold Library.attempt
  cases hr : m s with
  | ok a t =>
    cases hr' : m' s' with
    | ok b t' => rw [hr, hr'] at h; exact ⟨h.1, by rw [h.2]⟩
    | error e t' => rw [hr, hr'] at h; exact h.elim
  | error e t =>
    cases hr' : m' s' with
    | ok b t' => rw [hr, hr'] at h; exact h.elim
    | error e' t' => rw [hr, hr'] at h; exact ⟨h.1, by rw [h.2]⟩

theorem Relates.mapError {S : α → β → Prop} {g : ε → ε} {m : EStateM ε σ α} {m' : EStateM ε σ β}
    (hm : Relates R S m m') : Relates R S (mapError g m) (mapError g m') := by
  intro s s' hs
  have h := hm s s' hs
  unfold Library.mapError
  cases hr : m s with
  | ok a t =>
    cases hr' : m' s' with
    | ok b t' => rw [hr, hr'] at h; exact h
    | error e t' => rw [hr, hr'] at h; exact h.elim
  | error e t =>
    cases hr' : m' s' with
    | ok b t' => rw [hr, hr'] at h; exact h.elim
    | error e' t' => rw [hr, hr'] at h; exact ⟨h.1, by rw [h.2]⟩

/-- The loop rule: iterations that relate related accumulators relate whole loops. -/
theorem Relates.foldlM {S : β → γ → Prop} {f : β → α → EStateM ε σ β}
    {f' : γ → α → EStateM ε σ γ} {l : List α}
    (h : ∀ b c a, a ∈ l → S b c → Relates R S (f b a) (f' c a)) {b : β} {c : γ} (hb : S b c) :
    Relates R S (l.foldlM f b) (l.foldlM f' c) := by
  induction l generalizing b c with
  | nil => exact Relates.pure hb
  | cons a l ih =>
    rw [List.foldlM_cons, List.foldlM_cons]
    exact Relates.bind (h b c a (by simp) hb) fun b' c' hb' =>
      ih (fun b c a ha hb => h b c a (List.mem_cons_of_mem _ ha) hb) hb'

theorem Relates.mapEntriesM {κ : Type} {f f' : κ → α → EStateM ε σ β} {l : List (κ × α)}
    (h : ∀ e ∈ l, Relates R Eq (f e.1 e.2) (f' e.1 e.2)) :
    Relates R Eq (mapEntriesM f l) (mapEntriesM f' l) := by
  induction l with
  | nil => exact Relates.pure rfl
  | cons e l ih =>
    refine Relates.bind (h e (by simp)) fun b b' hb => ?_
    refine Relates.bind (ih fun x hx => h x (List.mem_cons_of_mem _ hx)) fun r r' hr => ?_
    subst hb hr
    exact Relates.pure rfl

theorem Relates.mapValuesM {κ : Type} {f f' : κ → α → EStateM ε σ β} {d : Dict κ α}
    (h : ∀ e ∈ d.entries, Relates R Eq (f e.1 e.2) (f' e.1 e.2)) :
    Relates R Eq (d.mapValuesM f) (d.mapValuesM f') := by
  refine Relates.bind (Relates.mapEntriesM h) fun r r' hr => ?_
  subst hr
  exact Relates.pure rfl

end Relates

/-! ## Computations that only read a view of the state -/

/-- The outcome `r` in the state `s`. -/
def ofExcept : Except ε α → σ → EStateM.Result ε σ α
  | .ok a, s => .ok a s
  | .error e, s => .error e s

section Reads

variable {ν : Type} {view : σ → ν}

/-- `m` returns (or raises) what `f` says of the view, and leaves the view alone. -/
def Reads (view : σ → ν) (m : EStateM ε σ α) (f : ν → Except ε α) : Prop :=
  ∀ s, ∃ s', view s' = view s ∧ m s = ofExcept (f (view s)) s'

theorem Reads.pure (a : α) : Reads view (Pure.pure a : EStateM ε σ α) (fun _ => Pure.pure a) :=
  fun s => ⟨s, rfl, rfl⟩

theorem Reads.bind {m : EStateM ε σ α} {f : ν → Except ε α} {g : α → EStateM ε σ β}
    {h : α → ν → Except ε β} (hm : Reads view m f) (hg : ∀ a, Reads view (g a) (h a)) :
    Reads view (m >>= g) (fun v => f v >>= fun a => h a v) := by
  intro s
  obtain ⟨s₁, hv, hs⟩ := hm s
  show ∃ s', view s' = view s ∧ EStateM.bind m g s = _
  unfold EStateM.bind
  rw [hs]
  cases hf : f (view s) with
  | error e => exact ⟨s₁, hv, by simp only [hf]; rfl⟩
  | ok a =>
    obtain ⟨s₂, hv₂, hs₂⟩ := hg a s₁
    refine ⟨s₂, hv₂.trans hv, ?_⟩
    rw [hv] at hs₂
    simp only [hf]
    exact hs₂

theorem Reads.congr {m : EStateM ε σ α} {f f' : ν → Except ε α} (hm : Reads view m f)
    (h : ∀ v, f v = f' v) : Reads view m f' := by
  intro s
  obtain ⟨s', hv, hs⟩ := hm s
  exact ⟨s', hv, by rw [hs, h]⟩

theorem Reads.mapM {f : α → EStateM ε σ β} {g : α → ν → Except ε β} {l : List α}
    (h : ∀ a ∈ l, Reads view (f a) (g a)) :
    Reads view (l.mapM f) (fun v => l.mapM fun a => g a v) := by
  induction l with
  | nil => exact Reads.pure []
  | cons a l ih =>
    rw [List.mapM_cons]
    refine (Reads.bind (h a (by simp)) fun b =>
      Reads.bind (ih fun x hx => h x (List.mem_cons_of_mem _ hx)) fun bs =>
        Reads.pure (b :: bs)).congr fun v => ?_
    rw [List.mapM_cons]

/-- What a reading returns, it returns of some view that satisfies the invariant. -/
theorem Reads.post {m : EStateM ε σ α} {f : ν → Except ε α} (hm : Reads view m f)
    {I : ν → Prop} {Q : α → Prop} (h : ∀ v a, I v → f v = .ok a → Q a) :
    Post (fun s => I (view s)) m Q := by
  intro s hs
  obtain ⟨s', hv, hms⟩ := hm s
  have hI : I (view s') := by rwa [hv]
  rw [hms]
  cases hf : f (view s) with
  | ok a => exact ⟨hI, h _ a hs hf⟩
  | error e => exact hI

/-- Readings that agree on related views are related computations. -/
theorem Reads.relates {m m' : EStateM ε σ α} {f f' : ν → Except ε α} (hm : Reads view m f)
    (hm' : Reads view m' f') {R : ν → ν → Prop} (h : ∀ v v', R v v' → f v = f' v') :
    Relates (fun s s' => R (view s) (view s')) Eq m m' := by
  intro s s' hs
  obtain ⟨t, hv, hms⟩ := hm s
  obtain ⟨t', hv', hms'⟩ := hm' s'
  have hR : R (view t) (view t') := by rwa [hv, hv']
  rw [hms, hms', h _ _ hs]
  cases f' (view s') with
  | ok a => exact ⟨hR, rfl⟩
  | error e => exact ⟨hR, rfl⟩

end Reads

end QuantDinger.Library
