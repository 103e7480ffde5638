import Mathlib.Algebra.BigOperators.Group.List.Basic
import Mathlib.Algebra.Order.Ring.Rat
import Mathlib.Data.List.Nodup
import Mathlib.Tactic

/-!
# Insertion-ordered dictionaries

A `Dict κ α` is a list of entries whose keys are pairwise distinct: writing an
existing key keeps its place, writing a fresh key appends it, and erasing a key
drops its entry. Iteration goes through `entries`, in insertion order.

The lemmas below say how `get?` and a sum over the entries (`sumBy`) react to
`set`, `erase` and `mapValues`; nothing after this file looks inside `entries`
except through them.
-/

namespace QuantDinger.Library

/-- A dictionary in insertion order; the keys are pairwise distinct. -/
structure Dict (κ α : Type) where
  entries : List (κ × α)
  nodup : (entries.map Prod.fst).Nodup

namespace Dict

variable {κ α β : Type}

@[ext] theorem ext {d e : Dict κ α} (h : d.entries = e.entries) : d = e := by
  cases d; cases e; cases h; rfl

/-- The empty dictionary. -/
def empty : Dict κ α := ⟨[], List.nodup_nil⟩

/-- The keys, in insertion order. -/
def keys (d : Dict κ α) : List κ := d.entries.map Prod.fst

/-- The values, in insertion order. -/
def values (d : Dict κ α) : List α := d.entries.map Prod.snd

/-- The entries with every value rewritten, key and value in hand. -/
def mapValues (d : Dict κ α) (f : κ → α → β) : Dict κ β where
  entries := d.entries.map fun e => (e.1, f e.1 e.2)
  nodup := by simpa [Function.comp_def] using d.nodup

/-- The sum of `f` over the entries. -/
def sumBy {M : Type} [AddCommGroup M] (d : Dict κ α) (f : κ → α → M) : M :=
  (d.entries.map fun e => f e.1 e.2).sum

variable [DecidableEq κ]

/-- The value stored under `k`. -/
def get? (d : Dict κ α) (k : κ) : Option α :=
  (d.entries.find? fun e => decide (e.1 = k)).map Prod.snd

/-- The dictionary without `k`. -/
def erase (d : Dict κ α) (k : κ) : Dict κ α where
  entries := d.entries.filter fun e => decide (e.1 ≠ k)
  nodup := d.nodup.sublist (List.filter_sublist.map _)

/-- Is `k` a key? -/
def contains (d : Dict κ α) (k : κ) : Bool := (d.get? k).isSome

/-! ## Lookup -/

theorem get?_eq_some_iff {d : Dict κ α} {k : κ} {a : α} :
    d.get? k = some a ↔ (k, a) ∈ d.entries := by
  unfold get?
  constructor
  · intro h
    obtain ⟨e, he, rfl⟩ := Option.map_eq_some_iff.mp h
    have hk := List.find?_some he
    have hm := List.mem_of_find?_eq_some he
    simp only [decide_eq_true_eq] at hk
    subst hk
    exact hm
  · intro h
    obtain ⟨entries, nodup⟩ := d
    simp only at h ⊢
    induction entries with
    | nil => simp at h
    | cons e l ih =>
      rw [List.map_cons, List.nodup_cons] at nodup
      rcases List.mem_cons.mp h with rfl | h
      · simp
      · have hne : e.1 ≠ k := by
          rintro rfl
          exact nodup.1 (List.mem_map.mpr ⟨_, h, rfl⟩)
        simp only [List.find?_cons, hne, decide_false]
        exact ih nodup.2 h

theorem get?_eq_none_iff {d : Dict κ α} {k : κ} :
    d.get? k = none ↔ ∀ e ∈ d.entries, e.1 ≠ k := by
  simp [get?, List.find?_eq_none]

@[simp] theorem get?_empty (k : κ) : (empty : Dict κ α).get? k = none := rfl

theorem get?_erase (d : Dict κ α) (k j : κ) :
    (d.erase k).get? j = if j = k then none else d.get? j := by
  by_cases hj : j = k
  · subst hj
    rw [if_pos rfl, get?_eq_none_iff]
    intro e he
    simpa using List.of_mem_filter he
  · rw [if_neg hj]
    cases h : d.get? j with
    | none =>
      rw [get?_eq_none_iff] at h ⊢
      intro e he
      exact h e (List.mem_of_mem_filter he)
    | some a =>
      rw [get?_eq_some_iff] at h ⊢
      exact List.mem_filter.mpr ⟨h, by simpa using hj⟩

/-- Erasing a list of keys. -/
theorem get?_foldl_erase (keys : List κ) (d : Dict κ α) (k : κ) :
    (keys.foldl erase d).get? k = if k ∈ keys then none else d.get? k := by
  induction keys generalizing d with
  | nil => rfl
  | cons key keys ih =>
    rw [List.foldl_cons, ih, get?_erase]
    by_cases hk : k = key
    · subst hk
      rw [if_pos rfl, if_pos List.mem_cons_self, ite_self]
    · simp only [hk, if_false, List.mem_cons, false_or]

@[simp] theorem get?_mapValues (d : Dict κ α) (f : κ → α → β) (k : κ) :
    (d.mapValues f).get? k = (d.get? k).map (f k) := by
  cases h : d.get? k with
  | none =>
    rw [get?_eq_none_iff] at h
    rw [Option.map_none, get?_eq_none_iff]
    intro e he
    obtain ⟨e', he', rfl⟩ := List.mem_map.mp he
    exact h e' he'
  | some a =>
    rw [get?_eq_some_iff] at h
    rw [Option.map_some, get?_eq_some_iff]
    exact List.mem_map.mpr ⟨(k, a), h, rfl⟩

theorem fst_mem_of_get? {d : Dict κ α} {k : κ} {a : α} (h : d.get? k = some a) :
    k ∈ d.keys :=
  List.mem_map.mpr ⟨(k, a), get?_eq_some_iff.mp h, rfl⟩

theorem mem_keys_iff {d : Dict κ α} {k : κ} : k ∈ d.keys ↔ ∃ a, d.get? k = some a := by
  constructor
  · intro h
    obtain ⟨⟨j, a⟩, he, rfl⟩ := List.mem_map.mp h
    exact ⟨a, get?_eq_some_iff.mpr he⟩
  · rintro ⟨a, h⟩
    exact fst_mem_of_get? h

/-! ## Writing a key -/

/-- Write `a` under `k`: in place when `k` is present, at the end otherwise. -/
def set (d : Dict κ α) (k : κ) (a : α) : Dict κ α :=
  if h : k ∈ d.keys then
    { entries := d.entries.map fun e => if e.1 = k then (k, a) else e
      nodup := by
        have hkeys : (d.entries.map fun e => if e.1 = k then (k, a) else e).map Prod.fst =
            d.entries.map Prod.fst := by
          rw [List.map_map]
          refine List.map_congr_left fun e _ => ?_
          by_cases he : e.1 = k <;> simp [he]
        rw [hkeys]
        exact d.nodup }
  else
    { entries := d.entries ++ [(k, a)]
      nodup := by
        rw [List.map_append, List.nodup_append]
        refine ⟨d.nodup, by simp, ?_⟩
        rintro x hx y hy rfl
        simp only [List.map_cons, List.map_nil, List.mem_singleton] at hy
        exact h (hy ▸ hx) }

theorem mem_entries_set {d : Dict κ α} {k : κ} {a : α} {e : κ × α} :
    e ∈ (d.set k a).entries ↔ e = (k, a) ∨ (e ∈ d.entries ∧ e.1 ≠ k) := by
  unfold set
  split
  · rename_i h
    simp only [List.mem_map]
    constructor
    · rintro ⟨e', he', rfl⟩
      by_cases hk : e'.1 = k
      · simp [hk]
      · simp [hk, he']
    · rintro (rfl | ⟨he, hk⟩)
      · obtain ⟨e', he', hk'⟩ := List.mem_map.mp h
        exact ⟨e', he', by simp [hk']⟩
      · exact ⟨e, he, by simp [hk]⟩
  · rename_i h
    simp only [List.mem_append, List.mem_singleton]
    constructor
    · rintro (he | rfl)
      · exact Or.inr ⟨he, fun hk => h (hk ▸ List.mem_map.mpr ⟨e, he, rfl⟩)⟩
      · exact Or.inl rfl
    · rintro (rfl | ⟨he, -⟩)
      · exact Or.inr rfl
      · exact Or.inl he

theorem get?_set (d : Dict κ α) (k j : κ) (a : α) :
    (d.set k a).get? j = if j = k then some a else d.get? j := by
  by_cases hj : j = k
  · subst hj
    rw [if_pos rfl, get?_eq_some_iff, mem_entries_set]
    exact Or.inl rfl
  · rw [if_neg hj]
    cases h : d.get? j with
    | none =>
      rw [get?_eq_none_iff] at h ⊢
      intro e he
      rcases mem_entries_set.mp he with rfl | ⟨he, -⟩
      · exact fun hk => hj hk.symm
      · exact h e he
    | some b =>
      rw [get?_eq_some_iff] at h ⊢
      exact mem_entries_set.mpr (Or.inr ⟨h, hj⟩)

theorem mem_keys_set {d : Dict κ α} {k j : κ} {a : α} :
    j ∈ (d.set k a).keys ↔ j = k ∨ j ∈ d.keys := by
  unfold keys
  rw [List.mem_map, List.mem_map]
  constructor
  · rintro ⟨e, he, rfl⟩
    rcases mem_entries_set.mp he with rfl | ⟨he, -⟩
    · exact Or.inl rfl
    · exact Or.inr ⟨e, he, rfl⟩
  · rintro (rfl | ⟨e, he, rfl⟩)
    · exact ⟨(j, a), mem_entries_set.mpr (Or.inl rfl), rfl⟩
    · by_cases hk : e.1 = k
      · exact ⟨(k, a), mem_entries_set.mpr (Or.inl rfl), hk.symm⟩
      · exact ⟨e, mem_entries_set.mpr (Or.inr ⟨he, hk⟩), rfl⟩

@[simp] theorem get?_set_self (d : Dict κ α) (k : κ) (a : α) : (d.set k a).get? k = some a := by
  simp [get?_set]

theorem mem_entries_erase {d : Dict κ α} {k : κ} {e : κ × α} :
    e ∈ (d.erase k).entries ↔ e ∈ d.entries ∧ e.1 ≠ k := by
  simp [erase]

/-- The dictionary built by writing the pairs in order. -/
def ofPairs (l : List (κ × α)) : Dict κ α := l.foldl (fun d e => d.set e.1 e.2) empty

/-- What is read from a dictionary built from pairs is one of the pairs. -/
theorem mem_of_get?_ofPairs {l : List (κ × α)} {k : κ} {a : α}
    (h : (ofPairs l).get? k = some a) : (k, a) ∈ l := by
  have hgen : ∀ (l : List (κ × α)) (d : Dict κ α),
      (l.foldl (fun d e => d.set e.1 e.2) d).get? k = some a → (k, a) ∈ l ∨ d.get? k = some a := by
    intro l
    induction l with
    | nil => exact fun d hd => Or.inr hd
    | cons e l ih =>
      intro d hd
      rcases ih _ hd with hl | he
      · exact Or.inl (List.mem_cons_of_mem _ hl)
      · rw [get?_set] at he
        split at he
        · rename_i hk
          cases he
          exact Or.inl (by simp [hk])
        · exact Or.inr he
  rcases hgen l empty h with hl | he
  · exact hl
  · simp at he

theorem keys_set (d : Dict κ α) (k : κ) (a : α) :
    (d.set k a).keys = if k ∈ d.keys then d.keys else d.keys ++ [k] := by
  unfold set
  split_ifs with h
  · unfold keys
    rw [List.map_map]
    refine List.map_congr_left fun e _ => ?_
    by_cases he : e.1 = k <;> simp [he]
  · simp [keys]

/-- Dictionaries with the same keys in the same order that read alike are equal. -/
theorem ext_get? {d e : Dict κ α} (hkeys : d.keys = e.keys) (h : ∀ k, d.get? k = e.get? k) :
    d = e := by
  have hlength : d.entries.length = e.entries.length := by
    simpa [keys] using congrArg List.length hkeys
  apply ext
  refine List.ext_getElem hlength fun i hd he => ?_
  have hfst : (d.entries[i]).1 = (e.entries[i]).1 := by
    have hget := congrArg (fun l => l[i]?) hkeys
    simpa [keys, hd, he] using hget
  have hread : d.get? (d.entries[i]).1 = some (d.entries[i]).2 :=
    get?_eq_some_iff.2 (List.getElem_mem hd)
  have hread' : e.get? (e.entries[i]).1 = some (e.entries[i]).2 :=
    get?_eq_some_iff.2 (List.getElem_mem he)
  rw [h, hfst, hread'] at hread
  exact Prod.ext hfst (Option.some.inj hread).symm

/-- A value that is written over later leaves no trace. -/
theorem foldl_set_eq_of_overwritten {l : List (κ × α)} {k : κ} (hk : k ∈ l.map Prod.fst)
    {d e : Dict κ α} (hkeys : d.keys = e.keys) (h : ∀ j ≠ k, d.get? j = e.get? j) :
    l.foldl (fun d e => d.set e.1 e.2) d = l.foldl (fun d e => d.set e.1 e.2) e := by
  induction l generalizing d e with
  | nil => simp at hk
  | cons entry l ih =>
    have hset : (d.set entry.1 entry.2).keys = (e.set entry.1 entry.2).keys := by
      rw [keys_set, keys_set, hkeys]
    rw [List.foldl_cons, List.foldl_cons]
    by_cases hfirst : entry.1 = k
    · have heq : d.set entry.1 entry.2 = e.set entry.1 entry.2 := by
        refine ext_get? hset fun j => ?_
        rw [get?_set, get?_set]
        split_ifs with hj
        · rfl
        · exact h j fun hjk => hj (hjk.trans hfirst.symm)
      rw [heq]
    · refine ih ?_ hset fun j hj => ?_
      · rw [List.map_cons, List.mem_cons] at hk
        exact hk.resolve_left fun hk => hfirst hk.symm
      · rw [get?_set, get?_set, h j hj]

/-- Writing other keys leaves a key alone. -/
theorem get?_foldl_set_of_notMem {l : List (κ × α)} {k : κ} (h : k ∉ l.map Prod.fst)
    (d : Dict κ α) : (l.foldl (fun d e => d.set e.1 e.2) d).get? k = d.get? k := by
  induction l generalizing d with
  | nil => rfl
  | cons e l ih =>
    rw [List.map_cons, List.mem_cons, not_or] at h
    rw [List.foldl_cons, ih h.2, get?_set, if_neg h.1]

/-- A key that is written is there. -/
theorem exists_get?_foldl_set {l : List (κ × α)} {k : κ} (h : k ∈ l.map Prod.fst)
    (d : Dict κ α) : ∃ a, (l.foldl (fun d e => d.set e.1 e.2) d).get? k = some a := by
  induction l generalizing d with
  | nil => simp at h
  | cons e l ih =>
    by_cases hlater : k ∈ l.map Prod.fst
    · exact ih hlater _
    · obtain rfl : k = e.1 := by
        rw [List.map_cons, List.mem_cons] at h
        exact h.resolve_right hlater
      exact ⟨e.2, by rw [List.foldl_cons, get?_foldl_set_of_notMem hlater, get?_set_self]⟩

/-- Writing the entries of one dictionary over another. -/
theorem get?_foldl_set (d u : Dict κ α) (k : κ) :
    (u.entries.foldl (fun d e => d.set e.1 e.2) d).get? k = (u.get? k <|> d.get? k) := by
  have hgen : ∀ (l : List (κ × α)), (l.map Prod.fst).Nodup → ∀ d : Dict κ α,
      (l.foldl (fun d e => d.set e.1 e.2) d).get? k =
        ((l.find? fun e => decide (e.1 = k)).map Prod.snd <|> d.get? k) := by
    intro l
    induction l with
    | nil => intro _ d; simp
    | cons e l ih =>
      intro hnodup d
      rw [List.map_cons, List.nodup_cons] at hnodup
      rw [List.foldl_cons, ih hnodup.2, get?_set]
      by_cases hk : e.1 = k
      · have hnone : (l.find? fun e => decide (e.1 = k)) = none := by
          rw [List.find?_eq_none]
          intro x hx
          have hne : x.1 ≠ k := fun hxk =>
            hnodup.1 (List.mem_map.mpr ⟨x, hx, hxk.trans hk.symm⟩)
          simpa using hne
        simp [hnone, hk]
      · simp [hk, Ne.symm hk]
  exact hgen u.entries u.nodup d

/-! ## Entries kept or rewritten -/

omit [DecidableEq κ] in
theorem nodup_filterMap {f : κ → α → Option β} {l : List (κ × α)} (h : (l.map Prod.fst).Nodup) :
    ((l.filterMap fun e => (f e.1 e.2).map fun b => (e.1, b)).map Prod.fst).Nodup := by
  refine h.sublist ?_
  induction l with
  | nil => simp
  | cons e l ih =>
    rw [List.map_cons, List.nodup_cons] at h
    rw [List.filterMap_cons]
    cases f e.1 e.2 with
    | none => exact (ih h.2).cons _
    | some b => simpa using ih h.2

/-- The entries with their values rewritten, without those `f` has no value for. -/
def filterMapValues (d : Dict κ α) (f : κ → α → Option β) : Dict κ β where
  entries := d.entries.filterMap fun e => (f e.1 e.2).map fun b => (e.1, b)
  nodup := nodup_filterMap d.nodup

@[simp] theorem get?_filterMapValues (d : Dict κ α) (f : κ → α → Option β) (k : κ) :
    (d.filterMapValues f).get? k = (d.get? k).bind (f k) := by
  refine Option.ext fun b => ?_
  rw [get?_eq_some_iff, Option.bind_eq_some_iff]
  unfold filterMapValues
  simp only [List.mem_filterMap, Option.map_eq_some_iff, Prod.mk.injEq]
  constructor
  · rintro ⟨e, he, b', hb, rfl, rfl⟩
    exact ⟨e.2, get?_eq_some_iff.mpr he, hb⟩
  · rintro ⟨a, ha, hb⟩
    exact ⟨(k, a), get?_eq_some_iff.mp ha, b, hb, rfl, rfl⟩

omit [DecidableEq κ] in
/-- A pass that reads back what another pass wrote is the identity. -/
theorem filterMapValues_mapValues {d : Dict κ α} {f : κ → β → Option α} {g : κ → α → β}
    (h : ∀ e ∈ d.entries, f e.1 (g e.1 e.2) = some e.2) :
    (d.mapValues g).filterMapValues f = d := by
  refine Dict.ext ?_
  show (d.entries.map fun e => (e.1, g e.1 e.2)).filterMap
    (fun e => (f e.1 e.2).map fun b => (e.1, b)) = d.entries
  rw [List.filterMap_map]
  have hid : d.entries.filterMap
      ((fun e => (f e.1 e.2).map fun b => (e.1, b)) ∘ fun e => (e.1, g e.1 e.2)) =
        d.entries.filterMap some :=
    List.filterMap_congr fun e he => by simp [h e he]
  rw [hid, List.filterMap_some]

/-- Rewrite what is stored under `k`, or leave it when `f` has no value. -/
def updateWith (d : Dict κ α) (k : κ) (f : Option α → Option α) : Dict κ α :=
  match f (d.get? k) with
  | some a => d.set k a
  | none => d

theorem get?_updateWith (d : Dict κ α) (k j : κ) (f : Option α → Option α) :
    (d.updateWith k f).get? j = if j = k then (f (d.get? k)).or (d.get? k) else d.get? j := by
  unfold updateWith
  cases f (d.get? k) with
  | none =>
    by_cases hj : j = k
    · simp [hj]
    · simp [hj]
  | some a => simp [get?_set]

/-- A pass over the entries of `u` that rewrites each key once. -/
theorem get?_foldl_updateWith {γ : Type} (u : Dict κ γ) (f : κ → γ → Option α → Option α)
    (d : Dict κ α) (k : κ) :
    (u.entries.foldl (fun d e => d.updateWith e.1 (f e.1 e.2)) d).get? k =
      ((u.get? k).bind fun c => f k c (d.get? k)).or (d.get? k) := by
  have hgen : ∀ (l : List (κ × γ)), (l.map Prod.fst).Nodup → ∀ d : Dict κ α,
      (l.foldl (fun d e => d.updateWith e.1 (f e.1 e.2)) d).get? k =
        (((l.find? fun e => decide (e.1 = k)).map Prod.snd).bind fun c =>
          f k c (d.get? k)).or (d.get? k) := by
    intro l
    induction l with
    | nil => intro _ d; simp
    | cons e l ih =>
      intro hnodup d
      rw [List.map_cons, List.nodup_cons] at hnodup
      rw [List.foldl_cons, ih hnodup.2, get?_updateWith]
      by_cases hk : e.1 = k
      · have hnone : (l.find? fun e => decide (e.1 = k)) = none := by
          rw [List.find?_eq_none]
          intro x hx
          have hne : x.1 ≠ k := fun hxk =>
            hnodup.1 (List.mem_map.mpr ⟨x, hx, hxk.trans hk.symm⟩)
          simpa using hne
        simp [hnone, hk]
      · simp [hk, Ne.symm hk]
  exact hgen u.entries u.nodup d

/-! ## Dictionaries related entry by entry -/

theorem exists_of_forall₂ {γ δ : Type} {R : γ → δ → Prop} {l : List γ} {l' : List δ}
    (h : List.Forall₂ R l l') {b : δ} (hb : b ∈ l') : ∃ a ∈ l, R a b := by
  induction h with
  | nil => simp at hb
  | cons hab _ ih =>
    rcases List.mem_cons.mp hb with rfl | hb
    · exact ⟨_, by simp, hab⟩
    · obtain ⟨a, ha, hR⟩ := ih hb
      exact ⟨a, List.mem_cons_of_mem _ ha, hR⟩

/-- Entries related in order, with equal keys, are related key by key. -/
theorem exists_get?_of_forall₂ {R : α → β → Prop} {d : Dict κ α} {d' : Dict κ β}
    (h : List.Forall₂ (fun e e' => e'.1 = e.1 ∧ R e.2 e'.2) d.entries d'.entries) {k : κ} {b : β}
    (hb : d'.get? k = some b) : ∃ a, d.get? k = some a ∧ R a b := by
  obtain ⟨e, he, hk, hR⟩ := exists_of_forall₂ h (get?_eq_some_iff.mp hb)
  obtain ⟨j, a⟩ := e
  dsimp only at hk hR
  subst hk
  exact ⟨a, get?_eq_some_iff.mpr he, hR⟩

/-! ## Sums over the entries -/

section Sum

variable {M : Type} [AddCommGroup M]

omit [DecidableEq κ] in
@[simp] theorem sumBy_empty (f : κ → α → M) : (empty : Dict κ α).sumBy f = 0 := rfl

theorem sum_filter_ne (f : κ → α → M) (k : κ) (l : List (κ × α))
    (h : (l.map Prod.fst).Nodup) :
    ((l.filter fun e => decide (e.1 ≠ k)).map fun e => f e.1 e.2).sum =
      (l.map fun e => f e.1 e.2).sum -
        (((l.find? fun e => decide (e.1 = k)).map Prod.snd).elim 0 (f k)) := by
  induction l with
  | nil => simp
  | cons e l ih =>
    rw [List.map_cons, List.nodup_cons] at h
    by_cases hk : e.1 = k
    · subst hk
      have hall : (l.filter fun x => decide (x.1 ≠ e.1)) = l := by
        refine List.filter_eq_self.mpr fun x hx => ?_
        simp only [decide_eq_true_eq]
        intro hxe
        exact h.1 (List.mem_map.mpr ⟨x, hx, hxe⟩)
      rw [List.filter_cons_of_neg (by simp), hall]
      simp
    · simp only [List.filter_cons, List.find?_cons, hk, ne_eq, not_false_eq_true, decide_true,
        decide_false, if_true, List.map_cons, List.sum_cons]
      rw [ih h.2]
      abel

theorem sumBy_erase (d : Dict κ α) (k : κ) (f : κ → α → M) :
    (d.erase k).sumBy f = d.sumBy f - (d.get? k).elim 0 (f k) :=
  sum_filter_ne f k d.entries d.nodup

theorem sum_map_replace (f : κ → α → M) (k : κ) (a : α) (l : List (κ × α))
    (h : (l.map Prod.fst).Nodup) (hk : k ∈ l.map Prod.fst) :
    ((l.map fun e => if e.1 = k then (k, a) else e).map fun e => f e.1 e.2).sum =
      (l.map fun e => f e.1 e.2).sum -
        (((l.find? fun e => decide (e.1 = k)).map Prod.snd).elim 0 (f k)) + f k a := by
  induction l with
  | nil => simp at hk
  | cons e l ih =>
    rw [List.map_cons, List.nodup_cons] at h
    by_cases he : e.1 = k
    · subst he
      have htail : (l.map fun x => if x.1 = e.1 then (e.1, a) else x) = l := by
        conv_rhs => rw [← List.map_id l]
        refine List.map_congr_left fun x hx => ?_
        have hxe : x.1 ≠ e.1 := fun hxe => h.1 (List.mem_map.mpr ⟨x, hx, hxe⟩)
        simp [hxe]
      simp only [List.map_cons, htail, if_true, List.sum_cons, List.find?_cons, decide_true,
        Option.map_some, Option.elim_some]
      abel
    · have hk' : k ∈ l.map Prod.fst := by
        rcases List.mem_cons.mp (by simpa using hk : k ∈ e.1 :: l.map Prod.fst) with rfl | hk'
        · exact absurd rfl he
        · exact hk'
      simp only [List.map_cons, he, if_false, List.sum_cons, List.find?_cons, decide_false]
      rw [ih h.2 hk']
      abel

theorem sumBy_set (d : Dict κ α) (k : κ) (a : α) (f : κ → α → M) :
    (d.set k a).sumBy f = d.sumBy f - (d.get? k).elim 0 (f k) + f k a := by
  unfold set sumBy
  split
  · rename_i h
    exact sum_map_replace f k a d.entries d.nodup h
  · rename_i h
    have hnone : d.get? k = none :=
      get?_eq_none_iff.mpr fun e he hk => h (hk ▸ List.mem_map.mpr ⟨e, he, rfl⟩)
    simp [hnone]

omit [DecidableEq κ] in
theorem sumBy_sub (d : Dict κ α) (f g : κ → α → M) :
    d.sumBy (fun k a => f k a - g k a) = d.sumBy f - d.sumBy g := by
  unfold sumBy
  induction d.entries with
  | nil => simp
  | cons e l ih =>
    simp only [List.map_cons, List.sum_cons, ih]
    abel

omit [DecidableEq κ] in
theorem sumBy_mapValues (d : Dict κ α) (g : κ → α → β) (f : κ → β → M) :
    (d.mapValues g).sumBy f = d.sumBy fun k a => f k (g k a) := by
  unfold sumBy mapValues
  rw [List.map_map]
  rfl

omit [DecidableEq κ] in
/-- Entries related in order that contribute alike have equal sums. -/
theorem sumBy_eq_of_forall₂ {d : Dict κ α} {d' : Dict κ β} {f : κ → α → M} {g : κ → β → M}
    (h : List.Forall₂ (fun e e' => f e.1 e.2 = g e'.1 e'.2) d.entries d'.entries) :
    d.sumBy f = d'.sumBy g := by
  unfold sumBy
  generalize d.entries = l at h
  generalize d'.entries = l' at h
  induction h with
  | nil => rfl
  | cons hab _ ih => rw [List.map_cons, List.map_cons, List.sum_cons, List.sum_cons, hab, ih]

end Sum

end Dict

end QuantDinger.Library
