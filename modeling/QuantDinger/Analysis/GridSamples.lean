import QuantDinger.Analysis.ParameterDomains

/-!
# Which combinations a grid takes

Up to its limit a grid takes every combination of the axes, beyond it the combinations at spread
indices. Either way they are different combinations, as many as there are or as the limit allows
(`samples_spec`), and they stay different as candidates unless one parameter takes the name of
another (`candidateOf_injective`).
-/

namespace QuantDinger.Analysis.GridSamples

open Library Model Model.Evolution ParameterDomains

/-! ## Products and flat indices -/

section

variable {α : Type} {axes : List (List α)} {values : List α}

theorem mem_product_iff : values ∈ product axes ↔ List.Forall₂ (· ∈ ·) values axes := by
  induction axes generalizing values with
  | nil => simp [product]
  | cons axis axes ih =>
    simp only [product, List.mem_flatMap, List.mem_map]
    constructor
    · rintro ⟨value, hvalue, rest, hrest, rfl⟩
      exact .cons hvalue (ih.1 hrest)
    · rintro (_ | ⟨hvalue, hrest⟩)
      exact ⟨_, hvalue, _, ih.2 hrest, rfl⟩

theorem length_product : (product axes).length = (axes.map List.length).prod := by
  induction axes with
  | nil => rfl
  | cons axis axes ih => simp [product, List.length_flatMap, ih]

theorem nodup_product (h : ∀ axis ∈ axes, axis.Nodup) : (product axes).Nodup := by
  induction axes with
  | nil => exact List.nodup_singleton _
  | cons axis axes ih =>
    have hrest := ih fun axis haxis => h axis (List.mem_cons_of_mem _ haxis)
    refine List.nodup_flatMap.2 ⟨fun value _ => ?_, ?_⟩
    · exact hrest.map fun a b hab => (List.cons.inj hab).2
    · refine (h axis List.mem_cons_self).imp fun {value other} hne => ?_
      intro combination hvalue hother
      obtain ⟨_, _, rfl⟩ := List.mem_map.1 hvalue
      obtain ⟨_, _, heq⟩ := List.mem_map.1 hother
      exact hne (List.cons.inj heq).1.symm

theorem combinationFrom_cons {axis : List α} {index left : ℕ}
    (h : combinationFrom (axis :: axes) index = some (values, left)) :
    ∃ value rest remaining, combinationFrom axes index = some (rest, remaining) ∧
      axis[remaining % axis.length]? = some value ∧ values = value :: rest ∧
      left = remaining / axis.length := by
  unfold combinationFrom at h
  simp only [Option.bind_eq_bind, Option.bind_eq_some_iff] at h
  obtain ⟨⟨rest, remaining⟩, hrest, value, hvalue, heq⟩ := h
  obtain ⟨rfl, rfl⟩ := Prod.mk.inj (Option.some.inj heq)
  exact ⟨value, rest, remaining, hrest, hvalue, rfl, rfl⟩

theorem combinationFrom_left {index left : ℕ}
    (h : combinationFrom axes index = some (values, left)) :
    left = index / (axes.map List.length).prod := by
  induction axes generalizing values left with
  | nil =>
    obtain ⟨_, rfl⟩ := Prod.mk.inj (Option.some.inj h)
    simp
  | cons axis axes ih =>
    obtain ⟨_, _, _, hrest, _, _, rfl⟩ := combinationFrom_cons h
    rw [ih hrest, Nat.div_div_eq_div_mul, List.map_cons, List.prod_cons, mul_comm axis.length]

theorem combinationFrom_mem {index left : ℕ}
    (h : combinationFrom axes index = some (values, left)) :
    List.Forall₂ (· ∈ ·) values axes := by
  induction axes generalizing values left with
  | nil =>
    obtain ⟨rfl, _⟩ := Prod.mk.inj (Option.some.inj h)
    exact .nil
  | cons axis axes ih =>
    obtain ⟨value, rest, _, hrest, hvalue, rfl, _⟩ := combinationFrom_cons h
    exact .cons (List.mem_of_getElem? hvalue) (ih hrest)

theorem exists_combinationFrom (h : ∀ axis ∈ axes, axis ≠ []) (index : ℕ) :
    ∃ values left, combinationFrom axes index = some (values, left) := by
  induction axes with
  | nil => exact ⟨[], index, rfl⟩
  | cons axis axes ih =>
    obtain ⟨rest, remaining, hrest⟩ := ih fun axis haxis => h axis (List.mem_cons_of_mem _ haxis)
    have hpos := List.length_pos_of_ne_nil (h axis List.mem_cons_self)
    have hlt := Nat.mod_lt remaining hpos
    refine ⟨axis[remaining % axis.length] :: rest, remaining / axis.length, ?_⟩
    simp [combinationFrom, hrest, List.getElem?_eq_getElem hlt]

theorem combinationFrom_mod (h : ∀ axis ∈ axes, axis.Nodup) {i j left right : ℕ}
    (hi : combinationFrom axes i = some (values, left))
    (hj : combinationFrom axes j = some (values, right)) :
    i % (axes.map List.length).prod = j % (axes.map List.length).prod := by
  induction axes generalizing values left right with
  | nil => simp [Nat.mod_one]
  | cons axis axes ih =>
    obtain ⟨value, rest, remaining, hrest, hvalue, rfl, _⟩ := combinationFrom_cons hi
    obtain ⟨other, rest', remaining', hrest', hother, heq, _⟩ := combinationFrom_cons hj
    obtain ⟨rfl, rfl⟩ := List.cons.inj heq
    have hmod := ih (fun axis haxis => h axis (List.mem_cons_of_mem _ haxis)) hrest hrest'
    have hdigit : remaining % axis.length = remaining' % axis.length := by
      obtain ⟨hlt, hget⟩ := List.getElem?_eq_some_iff.1 hvalue
      obtain ⟨hlt', hget'⟩ := List.getElem?_eq_some_iff.1 hother
      exact ((h axis List.mem_cons_self).getElem_inj_iff).1 (hget.trans hget'.symm)
    rw [combinationFrom_left hrest, combinationFrom_left hrest'] at hdigit
    rw [List.map_cons, List.prod_cons, mul_comm axis.length, Nat.mod_mul, Nat.mod_mul, hmod,
      hdigit]

theorem exists_combinationAt (h : ∀ axis ∈ axes, axis ≠ []) (index : ℕ) :
    ∃ values, combinationAt axes index = some values := by
  obtain ⟨values, left, hvalues⟩ := exists_combinationFrom h index
  exact ⟨values, by rw [combinationAt, hvalues, Option.map_some]⟩

theorem combinationAt_mem {index : ℕ} (h : combinationAt axes index = some values) :
    List.Forall₂ (· ∈ ·) values axes := by
  obtain ⟨⟨_, left⟩, hfrom, rfl⟩ := Option.map_eq_some_iff.1 h
  exact combinationFrom_mem hfrom

theorem exists_combination (h : ∀ axis ∈ axes, axis ≠ []) :
    ∃ values, List.Forall₂ (· ∈ ·) values axes := by
  obtain ⟨values, hvalues⟩ := exists_combinationAt h 0
  exact ⟨values, combinationAt_mem hvalues⟩

theorem combinationAt_injective (h : ∀ axis ∈ axes, axis.Nodup) {i j : ℕ}
    (hi : combinationAt axes i = some values) (hj : combinationAt axes j = some values)
    (hilt : i < (axes.map List.length).prod) (hjlt : j < (axes.map List.length).prod) : i = j := by
  obtain ⟨⟨_, left⟩, hfrom, rfl⟩ := Option.map_eq_some_iff.1 hi
  obtain ⟨⟨_, right⟩, hfrom', heq⟩ := Option.map_eq_some_iff.1 hj
  obtain rfl := heq
  have hmod := combinationFrom_mod h hfrom hfrom'
  rwa [Nat.mod_eq_of_lt hilt, Nat.mod_eq_of_lt hjlt] at hmod

end

/-! ## Spread indices -/

section

variable {total count : ℕ}

theorem spreadIndices_spec (hcount : 0 < count) (hle : count ≤ total) :
    (spreadIndices total count).Nodup ∧ (spreadIndices total count).length = count ∧
      ∀ index ∈ spreadIndices total count, index < total := by
  unfold spreadIndices
  split_ifs with hall hone
  · exact ⟨List.nodup_range, by rw [List.length_range]; omega, fun i hi => List.mem_range.1 hi⟩
  · refine ⟨List.nodup_singleton _, ?_, ?_⟩
    · rw [List.length_singleton]
      omega
    · intro index hindex
      rw [List.mem_singleton.1 hindex]
      omega
  · have hstep : (1 : ℚ) < ((total : ℚ) - 1) / (count - 1) := by
      have htwo : (2 : ℚ) ≤ count := by exact_mod_cast (by omega : 2 ≤ count)
      have hlt : (count : ℚ) < total := by exact_mod_cast not_le.1 hall
      rw [lt_div_iff₀ (by linarith)]
      linarith
    refine ⟨?_, by rw [List.length_map, List.length_range], ?_⟩
    · refine List.nodup_range.map_on ?_
      intro i _ j _ heq
      rw [spread_eq, spread_eq] at heq
      rcases lt_trichotomy i j with hlt | rfl | hlt
      · exact absurd heq (spacedPosition_lt hstep hlt).ne
      · rfl
      · exact absurd heq (spacedPosition_lt hstep hlt).ne'
    · intro index hindex
      obtain ⟨i, hi, rfl⟩ := List.mem_map.1 hindex
      rw [spread_eq]
      exact spread_lt (by omega) (by omega) (List.mem_range.1 hi)

end

/-! ## Candidates -/

section

variable {Choice : Type} {parameters : List (SearchParameter Choice)} {limit : ℕ}

theorem scanCombinations_true {l : List (Candidate Choice)} {state : GridScan Choice}
    (h : state.candidates.length < limit) :
    (scanCombinations (fun _ => true) limit l state).candidates =
      state.candidates ++ l.take (limit - state.candidates.length) := by
  induction l generalizing state with
  | nil => simp [scanCombinations]
  | cons candidate rest ih =>
    obtain ⟨room, hroom⟩ : ∃ room, limit - state.candidates.length = room + 1 :=
      ⟨limit - state.candidates.length - 1, by omega⟩
    unfold scanCombinations
    rw [if_neg (by simp)]
    dsimp only
    rw [List.length_append, List.length_singleton, hroom, List.take_succ_cons]
    split_ifs with hfull
    · obtain rfl : room = 0 := by omega
      rw [List.take_zero]
    · rw [ih (by simpa using hfull)]
      have hrest : limit - (state.candidates ++ [candidate]).length = room := by
        rw [List.length_append, List.length_singleton]
        omega
      dsimp only
      rw [hrest, List.append_assoc, List.singleton_append]

theorem grid_eq_take (hlimit : 0 < limit) :
    grid parameters limit =
      ((combinations parameters limit).take limit).map (candidateOf parameters) := by
  unfold grid gridWithStats
  rw [scanCombinations_true (by simpa using hlimit), List.map_take]
  simp

theorem samples_spec (hlimit : 0 < limit)
    (haxes : ∀ item ∈ parameters, (gridValues item limit).Nodup ∧ gridValues item limit ≠ []) :
    ((combinations parameters limit).take limit).Nodup ∧
      ((combinations parameters limit).take limit).length =
        min limit (parameters.map fun item => (gridValues item limit).length).prod ∧
      ∀ values ∈ (combinations parameters limit).take limit,
        List.Forall₂ (· ∈ ·) values (parameters.map (gridValues · limit)) := by
  have hnodup : ∀ axis ∈ parameters.map (gridValues · limit), axis.Nodup := by
    intro axis haxis
    obtain ⟨item, hitem, rfl⟩ := List.mem_map.1 haxis
    exact (haxes item hitem).1
  have hsome : ∀ axis ∈ parameters.map (gridValues · limit), axis ≠ [] := by
    intro axis haxis
    obtain ⟨item, hitem, rfl⟩ := List.mem_map.1 haxis
    exact (haxes item hitem).2
  have hcount : (parameters.map fun item => (gridValues item limit).length).prod =
      ((parameters.map (gridValues · limit)).map List.length).prod := by
    rw [List.map_map]
    rfl
  rw [hcount]
  unfold combinations
  dsimp only
  generalize parameters.map (gridValues · limit) = axes at hnodup hsome
  split_ifs with hall
  · have htake : (product axes).take limit = product axes :=
      List.take_of_length_le (length_product.trans_le hall)
    rw [htake]
    exact ⟨nodup_product hnodup, by rw [length_product, min_eq_right hall],
      fun values hvalues => mem_product_iff.1 hvalues⟩
  · have hmin : min limit (axes.map List.length).prod = limit := min_eq_left (not_le.1 hall).le
    obtain ⟨hindices, hlength, hlt⟩ := spreadIndices_spec hlimit (not_le.1 hall).le
    have hvalues : ∀ index, combinationAt axes index =
        some ((combinationAt axes index).getD []) := by
      intro index
      obtain ⟨values, hvalues⟩ := exists_combinationAt hsome index
      rw [hvalues, Option.getD_some]
    have hmap (l : List ℕ) : l.filterMap (combinationAt axes) =
        l.map fun index => (combinationAt axes index).getD [] := by
      rw [← List.filterMap_eq_map]
      exact List.filterMap_congr fun index _ => hvalues index
    rw [hmin, hmap, List.map_append, List.take_left' (by rw [List.length_map, hlength])]
    refine ⟨?_, by rw [List.length_map, hlength], ?_⟩
    · refine hindices.map_on fun i hi j hj heq => ?_
      refine combinationAt_injective hnodup (hvalues i) ?_ (hlt i hi) (hlt j hj)
      rw [heq]
      exact hvalues j
    · intro values hmem
      obtain ⟨index, _, rfl⟩ := List.mem_map.1 hmem
      exact combinationAt_mem (hvalues index)

theorem map_fst_zip {γ : Type} {R : γ → SearchParameter Choice → Prop} {entries : List γ}
    (h : List.Forall₂ R entries parameters) :
    ((parameters.map (·.name)).zip entries).map Prod.fst = parameters.map (·.name) := by
  rw [List.map_fst_zip]
  rw [List.length_map, h.length_eq]

theorem candidateOf_injective {R : Value Choice → SearchParameter Choice → Prop}
    (hnames : parameters.Pairwise fun item other =>
      item.name = other.name → ∀ v w, R v item → R w item → v = w)
    {values values' : List (Value Choice)} (h : List.Forall₂ R values parameters)
    (h' : List.Forall₂ R values' parameters)
    (heq : candidateOf parameters values = candidateOf parameters values') : values = values' := by
  have hgen : ∀ d d' : Candidate Choice,
      ((parameters.map (·.name)).zip values).foldl (fun d e => d.set e.1 e.2) d =
        ((parameters.map (·.name)).zip values').foldl (fun d e => d.set e.1 e.2) d' →
      values = values' := by
    clear heq
    induction h generalizing values' with
    | nil =>
      intro _ _ _
      exact (List.forall₂_nil_right_iff.1 h').symm
    | @cons v item values rest hv hvalues ih =>
      cases h' with
      | @cons w _ values' _ hw hvalues' =>
        intro d d' heq
        rw [List.pairwise_cons] at hnames
        rw [List.map_cons, List.zip_cons_cons, List.zip_cons_cons, List.foldl_cons,
          List.foldl_cons] at heq
        have hrest := ih hnames.2 hvalues' _ _ heq
        have hhead : v = w := by
          by_cases hlater : item.name ∈ rest.map (·.name)
          · obtain ⟨other, hother, hname⟩ := List.mem_map.1 hlater
            exact hnames.1 other hother hname.symm v w hv hw
          · have hread := congrArg (fun d : Candidate Choice => d.get? item.name) heq
            simp only at hread
            rw [Dict.get?_foldl_set_of_notMem (by rwa [map_fst_zip hvalues]),
              Dict.get?_foldl_set_of_notMem (by rwa [map_fst_zip hvalues']), Dict.get?_set_self,
              Dict.get?_set_self] at hread
            exact Option.some.inj hread
        rw [hhead, hrest]
  exact hgen _ _ heq

theorem candidateOf_overwritten {front back : List (SearchParameter Choice)}
    {item : SearchParameter Choice} {values rest : List (Value Choice)} {v w : Value Choice}
    (hfront : values.length = front.length) (hback : rest.length = back.length)
    (hname : item.name ∈ back.map (·.name)) :
    candidateOf (front ++ item :: back) (values ++ v :: rest) =
      candidateOf (front ++ item :: back) (values ++ w :: rest) := by
  unfold candidateOf Dict.ofPairs
  rw [List.map_append, List.map_cons, List.zip_append (by rw [List.length_map, hfront]),
    List.zip_append (by rw [List.length_map, hfront]), List.zip_cons_cons, List.zip_cons_cons,
    List.foldl_append, List.foldl_append, List.foldl_cons, List.foldl_cons]
  refine Dict.foldl_set_eq_of_overwritten (k := item.name) ?_ ?_ ?_
  · rwa [List.map_fst_zip (by rw [List.length_map, hback])]
  · rw [Dict.keys_set, Dict.keys_set]
  · intro j hj
    rw [Dict.get?_set, Dict.get?_set, if_neg hj, if_neg hj]

theorem ofPairs_get? {γ : Type} {R : γ → SearchParameter Choice → Prop} {entries : List γ}
    (h : List.Forall₂ R entries parameters) {item} (hitem : item ∈ parameters) :
    ∃ entry, (Dict.ofPairs ((parameters.map (·.name)).zip entries)).get? item.name = some entry ∧
      ∃ other ∈ parameters, other.name = item.name ∧ R entry other := by
  have hname : item.name ∈ ((parameters.map (·.name)).zip entries).map Prod.fst := by
    rw [map_fst_zip h]
    exact List.mem_map_of_mem hitem
  obtain ⟨entry, hentry⟩ := Dict.exists_get?_foldl_set hname Dict.empty
  refine ⟨entry, hentry, ?_⟩
  have hmem := Dict.mem_of_get?_ofPairs hentry
  clear hname hentry hitem
  generalize item.name = name at hmem
  induction h with
  | nil => simp at hmem
  | @cons v first entries rest hv _ ih =>
    rw [List.map_cons, List.zip_cons_cons, List.mem_cons] at hmem
    rcases hmem with heq | hmem
    · obtain ⟨rfl, rfl⟩ := Prod.mk.inj heq
      exact ⟨first, List.mem_cons_self, rfl, hv⟩
    · obtain ⟨other, hother, hrest⟩ := ih hmem
      exact ⟨other, List.mem_cons_of_mem _ hother, hrest⟩

end

end QuantDinger.Analysis.GridSamples
