import Mathlib.Data.Finset.Card
import Mathlib.Data.List.Nodup
import Mathlib.Tactic

/-!
# Filling places from a list and a reserve

A list is gone through place by place. An entry that is usable and has a new key is taken; in the
place of any other the next entry of a reserve with a new key is taken, and when the reserve has
none left the filling is stuck at that place. `Filling` is the invariant of such a loop, and
`card_le_length_iff` says when as much is taken as the list has usable keys: exactly if every
beginning of the list has, with the reserve, as many usable keys as places.
-/

namespace QuantDinger.Library

section

variable {α ι : Type} [DecidableEq ι] (key : α → ι) (usable : α → Bool)

/-- The keys of the usable entries. -/
def usableKeys (l : List α) : Finset ι := ((l.filter usable).map key).toFinset

variable {key usable}

theorem mem_usableKeys {l : List α} {i : ι} :
    i ∈ usableKeys key usable l ↔ ∃ a ∈ l, usable a ∧ key a = i := by
  simp [usableKeys, and_assoc]

theorem usableKeys_mono {l l' : List α} (h : ∀ a ∈ l, a ∈ l') :
    usableKeys key usable l ⊆ usableKeys key usable l' := by
  intro i hi
  obtain ⟨a, ha, hok, rfl⟩ := mem_usableKeys.1 hi
  exact mem_usableKeys.2 ⟨a, h a ha, hok, rfl⟩

theorem length_le_card {taken : List α} {keys : Finset ι} (hdistinct : (taken.map key).Nodup)
    (hkeys : ∀ a ∈ taken, key a ∈ keys) : taken.length ≤ keys.card := by
  have hsubset : (taken.map key).toFinset ⊆ keys := by
    intro i hi
    obtain ⟨a, ha, rfl⟩ := List.mem_map.1 (List.mem_toFinset.1 hi)
    exact hkeys a ha
  have hcard := Finset.card_le_card hsubset
  rwa [List.toFinset_card_of_nodup hdistinct, List.length_map] at hcard

variable (key usable) in
/-- What is taken so far, one entry for each place passed, and what the reserve has left. -/
structure Filling (list reserve taken left : List α) : Prop where
  fits : taken.length ≤ list.length
  distinct : (taken.map key).Nodup
  good : ∀ a ∈ taken, usable a
  covered : ∀ a ∈ list.take taken.length, usable a → key a ∈ taken.map key
  known : ∀ a ∈ taken, key a ∈ usableKeys key usable (list.take taken.length ++ reserve)
  spent : ∀ a ∈ reserve, key a ∈ taken.map key ∨ a ∈ left
  left_mem : ∀ a ∈ left, a ∈ reserve
  enough : ∀ k ≤ taken.length, k ≤ (usableKeys key usable (list.take k ++ reserve)).card

/-- The entry of the next place cannot be used, and nothing in the reserve is new. -/
def Stuck (key : α → ι) (usable : α → Bool) (list reserve taken : List α) : Prop :=
  ∃ a, list[taken.length]? = some a ∧ (usable a → key a ∈ taken.map key) ∧
    ∀ b ∈ reserve, key b ∈ taken.map key

namespace Filling

variable {list reserve taken left : List α} {a : α}

theorem start : Filling key usable list reserve [] reserve where
  fits := Nat.zero_le _
  distinct := List.nodup_nil
  good := by simp
  covered := by simp
  known := by simp
  spent := fun _ hb => .inr hb
  left_mem := fun _ hb => hb
  enough := by
    intro k hk
    have hzero : k = 0 := by simpa using hk
    omega

theorem push (h : Filling key usable list reserve taken left) {entry : α} {left' : List α}
    (hplace : list[taken.length]? = some entry) (hok : usable a)
    (hnew : key a ∉ taken.map key) (hmem : a = entry ∨ a ∈ reserve)
    (hcovered : usable entry → key entry ∈ (taken ++ [a]).map key)
    (hspent : ∀ b ∈ reserve, key b ∈ (taken ++ [a]).map key ∨ b ∈ left')
    (hleft : ∀ b ∈ left', b ∈ reserve) :
    Filling key usable list reserve (taken ++ [a]) left' := by
  obtain ⟨hlt, hentry⟩ := List.getElem?_eq_some_iff.1 hplace
  have htake : list.take (taken ++ [a]).length = list.take taken.length ++ [entry] := by
    rw [List.length_append, List.length_singleton, List.take_add_one, hplace, Option.toList_some]
  have hknown : ∀ b ∈ taken ++ [a],
      key b ∈ usableKeys key usable (list.take (taken ++ [a]).length ++ reserve) := by
    intro b hb
    rw [htake]
    rcases List.mem_append.1 hb with hb | hb
    · refine usableKeys_mono ?_ (h.known b hb)
      intro c hc
      simp only [List.mem_append] at hc ⊢
      tauto
    · obtain rfl := List.mem_singleton.1 hb
      refine mem_usableKeys.2 ⟨b, ?_, hok, rfl⟩
      rcases hmem with rfl | hmem <;> simp_all
  have hdistinct : ((taken ++ [a]).map key).Nodup := by
    rw [List.map_append, List.map_singleton]
    exact List.nodup_append.2 ⟨h.distinct, List.nodup_singleton _, by
      intro i hi j hj hij
      rw [List.mem_singleton.1 hj] at hij
      exact hnew (hij ▸ hi)⟩
  refine ⟨?_, hdistinct, ?_, ?_, hknown, hspent, hleft, ?_⟩
  · rw [List.length_append, List.length_singleton]
    omega
  · intro b hb
    rcases List.mem_append.1 hb with hb | hb
    · exact h.good b hb
    · exact List.mem_singleton.1 hb ▸ hok
  · intro b hb hbok
    rw [htake] at hb
    rcases List.mem_append.1 hb with hb | hb
    · rw [List.map_append]
      exact List.mem_append_left _ (h.covered b hb hbok)
    · exact List.mem_singleton.1 hb ▸ hcovered (List.mem_singleton.1 hb ▸ hbok)
  · intro k hk
    rcases Nat.lt_or_ge taken.length k with hlast | hearlier
    · have hk' : k = (taken ++ [a]).length := by
        rw [List.length_append, List.length_singleton] at hk ⊢
        omega
      rw [hk']
      exact length_le_card hdistinct hknown
    · exact h.enough k hearlier

/-- The entry of the place is taken. -/
theorem take (h : Filling key usable list reserve taken left)
    (hplace : list[taken.length]? = some a) (hok : usable a) (hnew : key a ∉ taken.map key) :
    Filling key usable list reserve (taken ++ [a]) left := by
  refine h.push hplace hok hnew (.inl rfl) ?_ ?_ h.left_mem
  · intro _
    rw [List.map_append]
    exact List.mem_append_right _ (List.mem_singleton_self _)
  · intro b hb
    rw [List.map_append]
    exact (h.spent b hb).imp_left (List.mem_append_left _)

/-- The place is filled from the reserve: what stood before the entry is known already. -/
theorem replace (h : Filling key usable list reserve taken left) {entry : α}
    {skipped rest : List α} (hplace : list[taken.length]? = some entry)
    (hentry : usable entry → key entry ∈ taken.map key)
    (hreserve : ∀ b ∈ reserve, usable b) (hleft : left = skipped ++ a :: rest)
    (hskipped : ∀ b ∈ skipped, key b ∈ taken.map key) (hnew : key a ∉ taken.map key) :
    Filling key usable list reserve (taken ++ [a]) rest := by
  have hmem : a ∈ reserve := h.left_mem a (by simp [hleft])
  refine h.push hplace (hreserve a hmem) hnew (.inr hmem) ?_ ?_ ?_
  · intro hok
    rw [List.map_append]
    exact List.mem_append_left _ (hentry hok)
  · intro b hb
    rw [List.map_append, List.mem_append]
    rcases h.spent b hb with hb | hb
    · exact .inl (.inl hb)
    · rw [hleft, List.mem_append, List.mem_cons] at hb
      rcases hb with hb | rfl | hb
      · exact .inl (.inl (hskipped b hb))
      · exact .inl (.inr (by simp))
      · exact .inr hb
  · intro b hb
    exact h.left_mem b (by simp [hleft, hb])

/-- The reserve is gone through and nothing in it is new. -/
theorem exhaust (h : Filling key usable list reserve taken left)
    (hleft : ∀ b ∈ left, key b ∈ taken.map key) :
    Filling key usable list reserve taken [] ∧ ∀ b ∈ reserve, key b ∈ taken.map key := by
  have hall : ∀ b ∈ reserve, key b ∈ taken.map key := fun b hb => (h.spent b hb).elim id (hleft b)
  exact ⟨{ h with spent := fun b hb => .inl (hall b hb), left_mem := by simp }, hall⟩

theorem card_le_of_stuck (h : Filling key usable list reserve taken left)
    (hstuck : Stuck key usable list reserve taken) :
    (usableKeys key usable (list.take (taken.length + 1) ++ reserve)).card ≤ taken.length := by
  obtain ⟨a, hplace, hentry, hreserve⟩ := hstuck
  have hsubset : usableKeys key usable (list.take (taken.length + 1) ++ reserve) ⊆
      (taken.map key).toFinset := by
    intro i hi
    obtain ⟨b, hb, hok, rfl⟩ := mem_usableKeys.1 hi
    rw [List.take_add_one, hplace, Option.toList_some] at hb
    rw [List.mem_toFinset]
    rcases List.mem_append.1 hb with hb | hb
    · rcases List.mem_append.1 hb with hb | hb
      · exact h.covered b hb hok
      · exact List.mem_singleton.1 hb ▸ hentry (List.mem_singleton.1 hb ▸ hok)
    · exact hreserve b hb
  have hcard := Finset.card_le_card hsubset
  rwa [List.toFinset_card_of_nodup h.distinct, List.length_map] at hcard

/-- Where the filling is stuck, no further place is ever filled. -/
theorem not_stuck_of_longer {taken' left' : List α}
    (h : Filling key usable list reserve taken left)
    (h' : Filling key usable list reserve taken' left')
    (hlength : taken'.length = taken.length + 1) : ¬ Stuck key usable list reserve taken := by
  intro hstuck
  have hbound := h.card_le_of_stuck hstuck
  have henough := h'.enough _ hlength.ge
  omega

theorem card_usableKeys_le (l : List α) : (usableKeys key usable l).card ≤ l.length := by
  calc (usableKeys key usable l).card ≤ ((l.filter usable).map key).length :=
        List.toFinset_card_le _
    _ = (l.filter usable).length := List.length_map _
    _ ≤ l.length := List.length_filter_le _ _

/-- A filling that has passed every place or is stuck has as many entries as the list has usable
keys, exactly if no beginning of the list, the reserve counted in, falls short. -/
theorem card_le_length_iff (h : Filling key usable list reserve taken left)
    (hend : taken.length = list.length ∨ Stuck key usable list reserve taken) :
    (usableKeys key usable list).card ≤ taken.length ↔
      ∀ k ≤ (usableKeys key usable list).card,
        k ≤ (usableKeys key usable (list.take k ++ reserve)).card := by
  constructor
  · intro hall k hk
    exact h.enough k (hk.trans hall)
  · intro hbeginnings
    rcases hend with hfull | hstuck
    · exact hfull ▸ card_usableKeys_le list
    · by_contra hless
      have hnext := hbeginnings (taken.length + 1) (by omega)
      have hbound := h.card_le_of_stuck hstuck
      omega

end Filling

end

end QuantDinger.Library
