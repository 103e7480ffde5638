import Mathlib.Data.List.Basic

/-!
# Looking for the first entry that fits

A scan looks at entries in order: it skips an entry, stops without a result, or finds one. What it
finds is good exactly when every entry it would wrongly take stands behind one that it rightly
takes, or behind the stop.
-/

namespace QuantDinger.Library

variable {α β : Type}

/-- What a look at an entry comes to. -/
inductive Look (β : Type)
  | skip
  | stop
  | found (result : β)

/-- The first entry that is found, before the scan stops. -/
def firstFound (look : α → Look β) : List α → Option β
  | [] => none
  | entry :: rest =>
    match look entry with
    | .skip => firstFound look rest
    | .stop => none
    | .found result => some result

/-- Every entry that would wrongly be taken stands behind one that is rightly taken, or behind the
stop. -/
def StraysBehind (look : α → Look β) (good : β → Prop) (entries : List α) : Prop :=
  ∀ before entry after stray, entries = before ++ entry :: after → look entry = .found stray →
    ¬ good stray → ∃ earlier ∈ before,
      look earlier = .stop ∨ ∃ result, look earlier = .found result ∧ good result

variable {look : α → Look β} {good : β → Prop}

theorem straysBehind_nil : StraysBehind look good [] := by
  intro before entry after stray h
  exact absurd h (by simp)

theorem straysBehind_cons_skip {entry : α} {rest : List α} (hskip : look entry = .skip) :
    StraysBehind look good (entry :: rest) ↔ StraysBehind look good rest := by
  constructor
  · intro h before stray after result hsplit hfound hbad
    obtain ⟨earlier, hm, hearlier⟩ :=
      h (entry :: before) stray after result (by rw [hsplit]; rfl) hfound hbad
    rcases List.mem_cons.mp hm with rfl | hm
    · rw [hskip] at hearlier
      rcases hearlier with hstop | ⟨_, hfound', -⟩
      · exact nomatch hstop
      · exact nomatch hfound'
    · exact ⟨earlier, hm, hearlier⟩
  · intro h before stray after result hsplit hfound hbad
    cases before with
    | nil =>
      obtain ⟨rfl, -⟩ := List.cons.inj hsplit
      rw [hskip] at hfound
      exact nomatch hfound
    | cons first before =>
      obtain ⟨-, hrest⟩ := List.cons.inj hsplit
      obtain ⟨earlier, hm, hearlier⟩ := h before stray after result hrest hfound hbad
      exact ⟨earlier, List.mem_cons_of_mem _ hm, hearlier⟩

theorem straysBehind_cons_stop {entry : α} {rest : List α} (hstop : look entry = .stop) :
    StraysBehind look good (entry :: rest) := by
  intro before stray after result hsplit hfound _
  cases before with
  | nil =>
    obtain ⟨rfl, -⟩ := List.cons.inj hsplit
    rw [hstop] at hfound
    exact nomatch hfound
  | cons first before =>
    obtain ⟨rfl, -⟩ := List.cons.inj hsplit
    exact ⟨entry, List.mem_cons_self, Or.inl hstop⟩

theorem straysBehind_cons_found {entry : α} {rest : List α} {result : β}
    (hfound : look entry = .found result) :
    StraysBehind look good (entry :: rest) ↔ good result := by
  constructor
  · intro h
    by_contra hbad
    obtain ⟨_, hm, -⟩ := h [] entry rest result rfl hfound hbad
    exact absurd hm List.not_mem_nil
  · intro h before stray after other hsplit hfound' hbad
    cases before with
    | nil =>
      obtain ⟨rfl, -⟩ := List.cons.inj hsplit
      rw [hfound] at hfound'
      cases hfound'
      exact absurd h hbad
    | cons first before =>
      obtain ⟨rfl, -⟩ := List.cons.inj hsplit
      exact ⟨entry, List.mem_cons_self, Or.inr ⟨result, hfound, h⟩⟩

/-- What a scan finds is found at an entry. -/
theorem exists_of_firstFound {entries : List α} {result : β}
    (h : result ∈ firstFound look entries) :
    ∃ entry ∈ entries, look entry = .found result := by
  induction entries with
  | nil => exact nomatch h
  | cons entry rest ih =>
    unfold firstFound at h
    cases hlook : look entry with
    | skip =>
      rw [hlook] at h
      obtain ⟨other, hm, hfound⟩ := ih h
      exact ⟨other, List.mem_cons_of_mem _ hm, hfound⟩
    | stop =>
      rw [hlook] at h
      exact nomatch h
    | found other =>
      rw [hlook] at h
      cases h
      exact ⟨entry, List.mem_cons_self, hlook⟩

/-- What a scan finds is good exactly when the strays stand behind. -/
theorem firstFound_good_iff (look : α → Look β) (good : β → Prop) (entries : List α) :
    (∀ result ∈ firstFound look entries, good result) ↔ StraysBehind look good entries := by
  induction entries with
  | nil => exact iff_of_true (by simp [firstFound]) straysBehind_nil
  | cons entry rest ih =>
    unfold firstFound
    cases hlook : look entry with
    | skip => exact ih.trans (straysBehind_cons_skip hlook).symm
    | stop => exact iff_of_true (by simp) (straysBehind_cons_stop hlook)
    | found result => simpa using (straysBehind_cons_found hlook).symm

/-- A scan of two lists goes on to the second where nothing stops it and the first has no find. -/
theorem firstFound_append {entries : List α} (more : List α)
    (h : ∀ entry ∈ entries, look entry ≠ .stop) :
    firstFound look (entries ++ more) = (firstFound look entries).or (firstFound look more) := by
  induction entries with
  | nil => rfl
  | cons entry rest ih =>
    have hrest := ih fun other hm => h other (List.mem_cons_of_mem _ hm)
    rw [List.cons_append, firstFound, firstFound]
    cases hlook : look entry with
    | skip => exact hrest
    | stop => exact absurd hlook (h entry List.mem_cons_self)
    | found result => rfl

end QuantDinger.Library
