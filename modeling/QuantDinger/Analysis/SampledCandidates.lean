import QuantDinger.Analysis.SampledValues

/-!
# Sampled candidates are points of their domain

What the samplers draw for accepted parameters is asked in one statement, `SampledWell`: a grid has
as many different candidates as its axes or its limit allow, and every value a sampler gives a
parameter is in the domain of a parameter of that name. It holds of a list of parameters and of
each of them alone exactly if every parameter is regular and no name with more than one value is
taken again (`sampled_well_iff`).
-/

namespace QuantDinger.Analysis.SampledCandidates

open Library Model Model.Evolution ParameterDomains GridSamples SampledValues

section

variable {G Choice : Type}

/-- The value is in the domain of a parameter of that name. -/
def NamedDomain (parameters : List (SearchParameter Choice)) (name : String)
    (value : Value Choice) : Prop :=
  ∃ item ∈ parameters, item.name = name ∧ InDomain item value

/-- The candidate gives each parameter a value of the domain. -/
def Fits (parameters : List (SearchParameter Choice)) (candidate : Candidate Choice) : Prop :=
  ∀ item ∈ parameters, ∃ value, candidate.get? item.name = some value ∧
    NamedDomain parameters item.name value

/-- What is asked of the samplers. -/
structure SampledWell [DecidableEq Choice] (parameters : List (SearchParameter Choice)) : Prop where
  grid : ∀ limit, 0 < limit →
    (grid parameters limit).length =
        min limit (parameters.map fun item => (gridValues item limit).length).prod ∧
      (grid parameters limit).Nodup ∧ ∀ candidate ∈ grid parameters limit, Fits parameters candidate
  random : ∀ (G : Type) (source : RandomSource G), ∀ item ∈ parameters,
    Yields (randomValue source item) (InDomain item)
  stratified : ∀ (G : Type) (source : RandomSource G) (numerics : Numerics Choice) (count : ℕ),
    Yields (stratifiedCandidates source numerics parameters count) fun candidates =>
      ∀ candidate ∈ candidates, Fits parameters candidate
  tpe : ∀ (G : Type) (source : RandomSource G) (numerics : Numerics Choice)
    (history : List (Candidate Choice × ℚ)) (samples : ℕ),
    (∀ row ∈ history, Fits parameters row.1) →
      Yields (tpeCandidate source numerics parameters history samples) (Fits parameters)

def Single (item : SearchParameter Choice) : Prop :=
  item.kind ≠ .boolean ∧
    if item.choices ≠ [] then item.choices.length = 1
    else
      match item.step with
      | none => item.low = item.high
      | some step => EndsAt item.low item.high step 0

/-- Every parameter is regular, and a parameter whose name a later one takes has one value. -/
def RegularList (parameters : List (SearchParameter Choice)) : Prop :=
  (∀ item ∈ parameters, Regular item) ∧
    parameters.Pairwise fun item other => item.name = other.name → Single item

variable {source : RandomSource G} {numerics : Numerics Choice}
  {parameters : List (SearchParameter Choice)} {item : SearchParameter Choice}

theorem single_iff (hwell : WellFormed item) (hregular : Regular item) :
    Single item ↔ domainSize item = 1 := by
  unfold Single
  by_cases hnumeric : Numeric item
  · have hvalid := hwell.range hnumeric
    rw [if_neg (not_not.2 hnumeric.2)]
    cases hstep : item.step with
    | none =>
      have hflat := hregular hnumeric
      rw [hstep] at hflat
      rw [domainSize_numeric hnumeric]
      exact iff_of_true ⟨hnumeric.1, hflat.1⟩ (if_pos hflat.1.ge)
    | some step =>
      have hpos := hvalid.step_pos step hstep
      rw [domainSize_stepped hnumeric hvalid hstep]
      dsimp only
      rw [endsAt_iff hpos hvalid.low_le, Nat.cast_zero, zero_mul, add_zero]
      constructor
      · rintro ⟨_, _, hlast⟩
        exact congrArg (· + 1) hlast.symm
      · intro hlast
        exact ⟨hnumeric.1, hvalid.low_le, (Nat.succ_injective hlast).symm⟩
  · unfold domainSize
    split_ifs with hchoices hboolean hboolean
    · simp [hboolean]
    · have hpos := List.length_pos_of_ne_nil hchoices
      rw [max_eq_right (Nat.succ_le_of_lt hpos)]
      exact and_iff_right hboolean
    · simp [hboolean]
    · exact absurd ⟨hboolean, not_not.1 hchoices⟩ hnumeric

theorem fits_candidateOf {values : List (Value Choice)}
    (h : List.Forall₂ (fun value item => NamedDomain parameters item.name value) values
      parameters) : Fits parameters (candidateOf parameters values) := by
  intro item hitem
  obtain ⟨value, hvalue, other, _, hname, hdomain⟩ := ofPairs_get? h hitem
  exact ⟨value, hvalue, hname ▸ hdomain⟩

/-! ## Regular parameters are sampled well -/

section

variable (hwell : ∀ item ∈ parameters, WellFormed item)
  (hregular : ∀ item ∈ parameters, Regular item)
include hwell hregular

theorem randomCandidate_fits : Yields (randomCandidate source parameters) (Fits parameters) := by
  have hvalues : Yields (parameters.mapM (randomValue source))
      (List.Forall₂ (fun item value => NamedDomain parameters item.name value) parameters) := by
    refine Yields.mapM fun item hitem => ?_
    exact (randomValue_inDomain (hwell item hitem) (hregular item hitem)).mono
      fun value hvalue => ⟨item, hitem, rfl, hvalue⟩
  exact hvalues.bind fun values hvalues => .pure (fits_candidateOf hvalues.flip)

omit hwell hregular in
theorem appendNew_fits {candidates : List (Candidate Choice)} {candidate : Candidate Choice}
    (h : ∀ candidate ∈ candidates, Fits parameters candidate) (hnew : Fits parameters candidate) :
    ∀ other ∈ appendNew numerics candidates candidate, Fits parameters other := by
  intro other hother
  unfold appendNew at hother
  split at hother
  · exact h other hother
  · rcases List.mem_append.1 hother with hother | hother
    · exact h other hother
    · rw [List.mem_singleton.1 hother]
      exact hnew

theorem fillRandom_fits {target attempts : ℕ} {candidates : List (Candidate Choice)}
    (h : ∀ candidate ∈ candidates, Fits parameters candidate) :
    Yields (fillRandom source numerics parameters target attempts candidates)
      fun candidates => ∀ candidate ∈ candidates, Fits parameters candidate := by
  induction attempts generalizing candidates with
  | zero => exact .pure h
  | succ attempts ih =>
    refine Yields.ite (fun _ => ?_) fun _ => .pure h
    exact (randomCandidate_fits hwell hregular).bind fun candidate hcandidate =>
      ih (appendNew_fits h hcandidate)

omit hwell hregular in
theorem rowCandidate_fits {target row : ℕ} (hrow : row < target)
    {columns : List (List (Value Choice))}
    (h : List.Forall₂ (fun item (column : List (Value Choice)) =>
      column.length = target ∧ ∀ value ∈ column, InDomain item value) parameters columns) :
    Fits parameters
      (rowCandidate parameters (Dict.ofPairs ((parameters.map (·.name)).zip columns)) row) := by
  have hpairs (axes : Dict String (List (Value Choice))) : rowCandidate parameters axes row =
      candidateOf parameters (parameters.map fun item =>
        (((axes.get? item.name).getD [])[row]?).getD item.default) := by
    unfold rowCandidate candidateOf
    rw [List.zip_map']
  rw [hpairs]
  refine fits_candidateOf ?_
  rw [List.forall₂_map_left_iff, List.forall₂_same]
  intro item hitem
  obtain ⟨column, hcolumn, other, hother, hname, hlength, hdomain⟩ := ofPairs_get? h.flip hitem
  have hlt : row < column.length := by omega
  rw [hcolumn, Option.getD_some, List.getElem?_eq_getElem hlt, Option.getD_some]
  exact ⟨other, hother, hname, hdomain _ (List.getElem_mem hlt)⟩

theorem stratifiedCandidates_fits
    (hgrid : ∀ candidate ∈ grid parameters (spaceSize parameters), Fits parameters candidate)
    {count : ℕ} :
    Yields (stratifiedCandidates source numerics parameters count)
      fun candidates => ∀ candidate ∈ candidates, Fits parameters candidate := by
  unfold stratifiedCandidates
  refine Yields.ite (fun _ => .pure (by simp)) fun _ => ?_
  refine Yields.ite (fun _ => ?_) fun _ => ?_
  · refine (RandomSource.shuffle_mem _).bind fun shuffled hshuffled => .pure ?_
    intro candidate hcandidate
    exact hgrid candidate (hshuffled.2 candidate (List.mem_of_mem_take hcandidate))
  · have hcolumns : Yields (parameters.mapM
        (stratifiedAxis source (min count (spaceSize parameters))))
        (List.Forall₂ (fun item column => column.length = min count (spaceSize parameters) ∧
          ∀ value ∈ column, InDomain item value) parameters) :=
      Yields.mapM fun item hitem =>
        stratifiedAxis_inDomain (hwell item hitem) (hregular item hitem)
    refine hcolumns.bind fun columns hcolumns => fillRandom_fits hwell hregular ?_
    have hrows : ∀ (rows : List ℕ) (candidates : List (Candidate Choice)),
        (∀ row ∈ rows, row < min count (spaceSize parameters)) →
        (∀ candidate ∈ candidates, Fits parameters candidate) →
        ∀ candidate ∈ (rows.map (rowCandidate parameters
          (Dict.ofPairs ((parameters.map (·.name)).zip columns)))).foldl
            (appendNew numerics) candidates, Fits parameters candidate := by
      intro rows
      induction rows with
      | nil => exact fun _ _ h => h
      | cons row rows ih =>
        intro candidates hlt h
        refine ih _ (fun other hother => hlt other (List.mem_cons_of_mem _ hother)) ?_
        exact appendNew_fits h
          (rowCandidate_fits (hlt row List.mem_cons_self) hcolumns)
    exact hrows _ _ (fun row hrow => List.mem_range.1 hrow) (by simp)

/-! ## Proposals from the history -/

variable [DecidableEq Choice]

theorem tpeValue_named (hitem : item ∈ parameters) {good : List (Candidate Choice)}
    (hsome : good ≠ []) (hgood : ∀ row ∈ good, Fits parameters row) :
    Yields (tpeValue source numerics item good) (NamedDomain parameters item.name) := by
  have hown {value : Value Choice} (h : InDomain item value) :
      NamedDomain parameters item.name value := ⟨item, hitem, rfl, h⟩
  unfold tpeValue
  refine Yields.ite (fun _ => ?_) fun hnumeric => ?_
  · have hvalues : ∀ value ∈ good.map fun row => (row.get? item.name).getD item.default,
        NamedDomain parameters item.name value := by
      intro value hvalue
      obtain ⟨row, hrow, rfl⟩ := List.mem_map.1 hvalue
      obtain ⟨value, hget, hnamed⟩ := hgood row hrow item hitem
      rwa [hget, Option.getD_some]
    have hne : (good.map fun row => (row.get? item.name).getD item.default) ≠ [] := by
      simpa using hsome
    generalize (good.map fun row => (row.get? item.name).getD item.default) = values at *
    have hweights : ∀ value ∈ (weights values).map Prod.fst,
        NamedDomain parameters item.name value := by
      intro value hvalue
      refine hvalues value ?_
      simpa [weights, Function.comp_def] using hvalue
    cases hlist : weights values with
    | nil =>
      obtain ⟨value, hvalue⟩ := List.exists_mem_of_ne_nil _ hne
      have hnone : value ∈ (weights values).map Prod.fst := by
        simpa [weights, Function.comp_def] using hvalue
      rw [hlist] at hnone
      exact absurd hnone (by simp)
    | cons first rest =>
      rw [hlist] at hweights
      exact (RandomSource.weightedChoice_mem first rest).mono hweights
  · have hnumeric : Numeric item := by
      rw [not_or, not_not] at hnumeric
      exact hnumeric
    split
    · exact (randomValue_inDomain (hwell item hitem) (hregular item hitem)).mono fun _ => hown
    · refine Yields.any.bind fun center _ => Yields.any.bind fun value _ => .pure (hown ?_)
      exact clamped_inDomain hnumeric ((hwell item hitem).range hnumeric) (hregular item hitem) _

theorem bestProposal_fits {seen : List Identity} {good bad : List (Candidate Choice)}
    (hsome : good ≠ []) (hgood : ∀ row ∈ good, Fits parameters row) {samples : ℕ}
    {best : Option (Candidate Choice × ℚ)} (h : ∀ b ∈ best, Fits parameters b.1) :
    Yields (bestProposal source numerics parameters seen good bad samples best)
      fun best => ∀ b ∈ best, Fits parameters b.1 := by
  induction samples generalizing best with
  | zero => exact .pure h
  | succ samples ih =>
    have hvalues : Yields (parameters.mapM fun item => tpeValue source numerics item good)
        (List.Forall₂ (fun item value => NamedDomain parameters item.name value) parameters) :=
      Yields.mapM fun item hitem => tpeValue_named hwell hregular hitem hsome hgood
    refine hvalues.bind fun values hvalues => Yields.ite (fun _ => ih h) fun _ => ih ?_
    intro b hb
    split at hb
    · obtain rfl := Option.some.inj hb
      exact fits_candidateOf hvalues.flip
    · exact h b hb

theorem tpeCandidate_fits {history : List (Candidate Choice × ℚ)} {samples : ℕ}
    (hhistory : ∀ row ∈ history, Fits parameters row.1) :
    Yields (tpeCandidate source numerics parameters history samples) (Fits parameters) := by
  have hrandom := @randomCandidate_fits _ _ source _ hwell hregular
  unfold tpeCandidate
  refine Yields.ite (fun _ => hrandom) fun hlong => ?_
  have hperm := List.mergeSort_perm history fun a b => decide (b.2 ≤ a.2)
  generalize (history.mergeSort fun a b => decide (b.2 ≤ a.2)) = ranked at hperm
  have hgood : ∀ row ∈ (ranked.take (max 3 (ranked.length / 4))).map Prod.fst,
      Fits parameters row := by
    intro row hrow
    obtain ⟨entry, hentry, rfl⟩ := List.mem_map.1 hrow
    exact hhistory entry (hperm.mem_iff.1 (List.mem_of_mem_take hentry))
  have hsome : (ranked.take (max 3 (ranked.length / 4))).map Prod.fst ≠ [] := by
    have hlength := hperm.length_eq
    rw [← List.length_pos_iff, List.length_map, List.length_take]
    omega
  refine (bestProposal_fits hwell hregular hsome hgood (by simp)).bind fun best hbest => ?_
  cases best with
  | none => exact hrandom
  | some best => exact Yields.ite (fun _ => hrandom) fun _ => .pure (hbest best rfl)

end

/-! ## Grids of regular parameters -/

theorem grid_regular (hwell : ∀ item ∈ parameters, WellFormed item)
    (hregular : RegularList parameters) {limit : ℕ} (hlimit : 0 < limit) :
    (grid parameters limit).length =
        min limit (parameters.map fun item => (gridValues item limit).length).prod ∧
      (grid parameters limit).Nodup ∧
      ∀ candidate ∈ grid parameters limit, Fits parameters candidate := by
  have haxes : ∀ item ∈ parameters, (gridValues item limit).Nodup ∧ gridValues item limit ≠ [] ∧
      ∀ value ∈ gridValues item limit, InDomain item value :=
    fun item hitem => gridValues_spec (hwell item hitem) (hregular.1 item hitem) hlimit
  obtain ⟨hnodup, hlength, hmem⟩ :=
    samples_spec hlimit fun item hitem => ⟨(haxes item hitem).1, (haxes item hitem).2.1⟩
  have hvalues : ∀ values ∈ (combinations parameters limit).take limit,
      List.Forall₂ (fun value item => value ∈ gridValues item limit) values parameters :=
    fun values hvalues => List.forall₂_map_right_iff.1 (hmem values hvalues)
  have hnames : parameters.Pairwise fun item other => item.name = other.name →
      ∀ v w, v ∈ gridValues item limit → w ∈ gridValues item limit → v = w := by
    refine hregular.2.imp_of_mem fun {item other} hitem _ hsingle hname v w hv hw => ?_
    have hone := (single_iff (hwell item hitem) (hregular.1 item hitem)).1 (hsingle hname)
    have haxis := @length_gridValues _ item limit (by omega)
    rw [hone] at haxis
    obtain ⟨value, hvalue⟩ := List.length_eq_one_iff.1 haxis
    rw [hvalue, List.mem_singleton] at hv hw
    rw [hv, hw]
  rw [grid_eq_take hlimit]
  refine ⟨by rw [List.length_map, hlength], ?_, ?_⟩
  · refine hnodup.map_on fun values hv values' hv' heq => ?_
    exact candidateOf_injective hnames (hvalues values hv) (hvalues values' hv') heq
  · intro candidate hcandidate
    obtain ⟨values, hv, rfl⟩ := List.mem_map.1 hcandidate
    refine fits_candidateOf ?_
    have hdomain : ∀ {values : List (Value Choice)} {items : List (SearchParameter Choice)},
        (∀ item ∈ items, item ∈ parameters) →
        List.Forall₂ (fun value item => value ∈ gridValues item limit) values items →
        List.Forall₂ (fun value item => NamedDomain parameters item.name value) values items := by
      intro values items hitems h
      induction h with
      | nil => exact .nil
      | @cons value item values items hvalue _ ih =>
        have hitem := hitems item List.mem_cons_self
        exact .cons ⟨item, hitem, rfl, (haxes item hitem).2.2 value hvalue⟩
          (ih fun other hother => hitems other (List.mem_cons_of_mem _ hother))
    exact hdomain (fun _ hitem => hitem) (hvalues values hv)

theorem domainSize_pos : 0 < domainSize item := by
  unfold domainSize
  split_ifs
  · exact zero_lt_two
  · exact Nat.lt_of_lt_of_le zero_lt_one (le_max_left _ _)
  · exact steppedSize_pos

theorem spaceSize_pos : 0 < spaceSize parameters := by
  have hfrom : ∀ (items : List (SearchParameter Choice)) (size : ℕ), 0 < size →
      0 < spaceSizeFrom 10000000 items size := by
    intro items
    induction items with
    | nil => exact fun _ h => h
    | cons item items ih =>
      intro size h
      unfold spaceSizeFrom
      split_ifs
      · norm_num
      · exact ih _ (Nat.mul_pos h domainSize_pos)
  exact hfrom parameters 1 zero_lt_one

theorem sampledWell_of_regular [DecidableEq Choice]
    (hwell : ∀ item ∈ parameters, WellFormed item) (hregular : RegularList parameters) :
    SampledWell parameters where
  grid := fun _ hlimit => grid_regular hwell hregular hlimit
  random := fun _ _ item hitem => randomValue_inDomain (hwell item hitem) (hregular.1 item hitem)
  stratified := fun _ _ _ _ => stratifiedCandidates_fits hwell hregular.1
    (grid_regular hwell hregular spaceSize_pos).2.2
  tpe := fun _ _ _ _ _ hhistory => tpeCandidate_fits hwell hregular.1 hhistory

/-! ## Irregular parameters -/

section

theorem grid_single {limit : ℕ} (hlimit : 0 < limit)
    (hlength : (gridValues item limit).length ≤ limit) :
    grid [item] limit = (gridValues item limit).map fun value => candidateOf [item] [value] := by
  have hproduct : product [gridValues item limit] = (gridValues item limit).map ([·]) := by
    simp only [product, List.map_singleton]
    exact List.map_eq_flatMap.symm
  rw [grid_eq_take hlimit]
  unfold combinations
  dsimp only
  rw [if_pos (by simpa using hlength), List.map_singleton, hproduct,
    List.take_of_length_le (by rwa [List.length_map]), List.map_map]
  rfl

theorem domainSize_stepless (hnumeric : Numeric item) (hstep : item.step = none)
    (hrange : item.low < item.high) : domainSize item = 10 := by
  have hspan : 0 < item.high - item.low := sub_pos.2 hrange
  have hninth : item.stepOr ((item.high - item.low) / 9) = (item.high - item.low) / 9 := by
    have hne : (item.high - item.low) / 9 ≠ 0 := by positivity
    simp only [SearchParameter.stepOr, hstep, Option.getD_none, ne_eq, not_true_eq_false,
      if_false]
    exact if_pos hne
  have hnine : (item.high - item.low) / ((item.high - item.low) / 9) = 9 := by
    field_simp
  have hsteps : regularSteps item.low item.high ((item.high - item.low) / 9) = 9 := by
    unfold regularSteps
    rw [hnine]
    norm_num
    rfl
  have hpos := @ParameterDomains.tolerance_pos item.low item.high
  rw [domainSize_numeric hnumeric, hninth]
  unfold steppedSize
  rw [if_neg (not_le.2 hrange), hsteps, if_neg (by push_cast; linarith)]

theorem gridValues_stepless (hnumeric : Numeric item) (hstep : item.step = none)
    (hrange : item.low < item.high) :
    gridValues item 3 = [item.cast item.low, item.cast item.high, item.cast item.high] := by
  have hspan : 0 < item.high - item.low := sub_pos.2 hrange
  have hhalf : item.stepOr ((item.high - item.low) / max 1 (min 3 10 - 1 : ℕ)) =
      (item.high - item.low) / 2 := by
    have hne : (item.high - item.low) / 2 ≠ 0 := by positivity
    norm_num [SearchParameter.stepOr, hstep, hne]
  have hindices : axisIndices 10 3 = [0, 4, 9] := by decide +kernel
  unfold gridValues
  rw [if_neg hnumeric.1, if_neg (not_not.2 hnumeric.2)]
  dsimp only
  rw [domainSize_stepless hnumeric hstep hrange, hhalf, hindices]
  have hbeyond : item.high ≤ item.low + 4 * ((item.high - item.low) / 2) := by linarith
  simp [domainValue, hrange.le, hbeyond]

variable [DecidableEq Choice]

theorem axis_of_sampledWell (h : SampledWell [item]) {limit : ℕ} (hlimit : 0 < limit)
    (hlength : (gridValues item limit).length ≤ limit) :
    (gridValues item limit).Nodup ∧ ∀ value ∈ gridValues item limit, InDomain item value := by
  obtain ⟨_, hnodup, hfits⟩ := h.grid limit hlimit
  rw [grid_single hlimit hlength] at hnodup hfits
  refine ⟨hnodup.of_map, fun value hvalue => ?_⟩
  obtain ⟨other, hother, named, hnamed, _, hdomain⟩ :=
    hfits _ (List.mem_map_of_mem hvalue) item List.mem_cons_self
  have hget : (candidateOf [item] [value]).get? item.name = some value := by
    simp [candidateOf, Dict.ofPairs]
  rw [hget] at hother
  obtain rfl := Option.some.inj hother
  rwa [← List.mem_singleton.1 hnamed]

theorem regular_of_sampledWell_stepped (h : SampledWell [item]) (hnumeric : Numeric item)
    (hvalid : ValidRange item) {step : ℚ} (hstep : item.step = some step) : Regular item := by
  have hpos := hvalid.step_pos step hstep
  have haxis := gridValues_stepped hnumeric hvalid hstep (lastIndex item step + 1)
  rw [axisIndices_eq_range le_rfl] at haxis
  obtain ⟨hnodup, hdomain⟩ := axis_of_sampledWell h
    (Nat.succ_pos (lastIndex item step)) (by rw [haxis, List.length_map, List.length_range])
  rw [haxis] at hnodup hdomain
  have honLadder {x : ℚ} (hx : InDomain item (item.cast x)) :
      OnLadder item.low item.high step (roundTo (unitOf item) x) := by
    obtain ⟨hlow, hhigh, hsteps⟩ := (inDomain_cast_iff hnumeric).1 hx
    exact ⟨hlow, hhigh, hsteps step hstep⟩
  have hpoint {i : ℕ} (hi : i ≤ lastIndex item step) : OnLadder item.low item.high step
      (roundTo (unitOf item) (ladderPoint item.low item.high step (lastIndex item step) i)) :=
    honLadder (hdomain _ (List.mem_map_of_mem (List.mem_range.2 (Nat.lt_succ_of_le hi))))
  refine (regular_iff_roundsWell hnumeric hvalid hstep).2 ⟨fun i hi => hpoint hi, ?_, ?_⟩
  · intro i j hij hj heq
    have hi := List.mem_range.2 (Nat.lt_succ_of_le (hij.le.trans hj))
    have hj := List.mem_range.2 (Nat.lt_succ_of_le hj)
    exact hij.ne (List.inj_on_of_nodup_map hnodup hi hj (cast_eq_cast_iff.2 heq))
  · rcases Nat.eq_zero_or_pos (lastIndex item step) with hlast | hlast
    · -- with one point a random value is the minimum
      have hrandom := h.random Unit RandomSource.lowest item List.mem_cons_self ()
      have hsnap (value : ℚ) : snapToDomain item value = item.low := by
        unfold snapToDomain
        dsimp only
        rw [if_pos (by rw [domainSize_stepped hnumeric hvalid hstep, hlast])]
      unfold randomValue at hrandom
      rw [if_neg hnumeric.1, hnumeric.2] at hrandom
      change InDomain item (item.cast (min item.high (max item.low
        (if item.step.getD 0 ≠ 0 then snapToDomain item _ else _)))) at hrandom
      rw [hstep, Option.getD_some, if_pos hpos.ne', hsnap, max_self,
        min_eq_right hvalid.low_le] at hrandom
      exact honLadder hrandom
    · have hfirst := hpoint (i := 0) (Nat.zero_le _)
      rwa [ladderPoint_of_lt hlast, Nat.cast_zero, zero_mul, add_zero] at hfirst

theorem regular_of_sampledWell_stepless (h : SampledWell [item]) (hnumeric : Numeric item)
    (hvalid : ValidRange item) (hstep : item.step = none) : Regular item := by
  have hflat : item.low = item.high := by
    refine (le_antisymm hvalid.low_le ?_)
    by_contra hrange
    have haxis := gridValues_stepless hnumeric hstep (not_le.1 hrange)
    have hnodup := (axis_of_sampledWell h (Nat.succ_pos 2) (by simp [haxis])).1
    rw [haxis] at hnodup
    simp at hnodup
  have haxis := gridValues_flat hnumeric hflat zero_lt_one
  have hdomain := (axis_of_sampledWell h zero_lt_one (by simp [haxis])).2 (item.cast item.high)
    (by simp [haxis])
  obtain ⟨hlow, hhigh, _⟩ := (inDomain_cast_iff hnumeric).1 hdomain
  intro _
  rw [hstep]
  refine ⟨hflat, (roundTo_eq_self_iff unitOf_pos).1 ?_⟩
  rw [hflat]
  exact le_antisymm hhigh (hflat ▸ hlow)

theorem regular_of_sampledWell (hwell : WellFormed item) (h : SampledWell [item]) :
    Regular item := by
  by_cases hnumeric : Numeric item
  · cases hstep : item.step with
    | none => exact regular_of_sampledWell_stepless h hnumeric (hwell.range hnumeric) hstep
    | some step => exact regular_of_sampledWell_stepped h hnumeric (hwell.range hnumeric) hstep
  · exact fun hnumeric' => absurd hnumeric' hnumeric

omit [DecidableEq Choice] in
theorem names_of_nodup (hwell : ∀ item ∈ parameters, WellFormed item)
    (hregular : ∀ item ∈ parameters, Regular item)
    (hnodup : ∀ limit, 0 < limit → (grid parameters limit).Nodup) :
    parameters.Pairwise fun item other => item.name = other.name → Single item := by
  have hpos : 0 < (parameters.map domainSize).prod := by
    refine List.prod_pos fun size hsize => ?_
    obtain ⟨item, _, rfl⟩ := List.mem_map.1 hsize
    exact domainSize_pos
  have haxes : ∀ item ∈ parameters,
      (gridValues item (parameters.map domainSize).prod).length = domainSize item := by
    intro item hitem
    exact length_gridValues
      (Nat.le_of_dvd hpos (List.dvd_prod (List.mem_map_of_mem hitem)))
  have hcount : ((parameters.map (gridValues · (parameters.map domainSize).prod)).map
      List.length).prod = (parameters.map domainSize).prod := by
    rw [List.map_map]
    exact congrArg List.prod (List.map_congr_left haxes)
  have hgrid := hnodup _ hpos
  rw [grid_eq_take hpos] at hgrid
  unfold combinations at hgrid
  dsimp only at hgrid
  rw [if_pos hcount.le, List.take_of_length_le (length_product.trans hcount).le] at hgrid
  generalize (parameters.map domainSize).prod = limit at *
  have hsplit : ∀ back front, parameters = front ++ back →
      back.Pairwise fun item other => item.name = other.name → Single item := by
    intro back
    induction back with
    | nil => exact fun _ _ => .nil
    | cons item back ih =>
      intro front heq
      refine .cons (fun other hother hname => ?_) (ih (front ++ [item]) (by simp [heq]))
      have hitem : item ∈ parameters := by simp [heq]
      refine (single_iff (hwell item hitem) (hregular item hitem)).2 ?_
      by_contra hmany
      have hsize := @domainSize_pos _ item
      have hlength := haxes item hitem
      obtain ⟨hdistinct, _⟩ := gridValues_spec (hwell item hitem) (hregular item hitem) hpos
      have hfirst : 0 < (gridValues item limit).length := by omega
      have hsecond : 1 < (gridValues item limit).length := by omega
      have hrest {items : List (SearchParameter Choice)} (h : ∀ item ∈ items, item ∈ parameters) :
          ∃ values, List.Forall₂ (· ∈ ·) values (items.map (gridValues · limit)) := by
        refine exists_combination fun axis haxis => ?_
        obtain ⟨other, hother, rfl⟩ := List.mem_map.1 haxis
        exact (gridValues_spec (hwell other (h other hother)) (hregular other (h other hother))
          hpos).2.1
      obtain ⟨values, hvalues⟩ := @hrest front fun other hother => by simp [heq, hother]
      obtain ⟨rest, hrest⟩ := @hrest back fun other hother => by simp [heq, hother]
      have hmem {value : Value Choice} (hvalue : value ∈ gridValues item limit) :
          values ++ value :: rest ∈ product (parameters.map (gridValues · limit)) := by
        rw [mem_product_iff, heq, List.map_append, List.map_cons]
        exact List.rel_append hvalues (.cons hvalue hrest)
      have hsame := List.inj_on_of_nodup_map hgrid (hmem (List.getElem_mem hfirst))
        (hmem (List.getElem_mem hsecond)) (by
          rw [heq]
          refine candidateOf_overwritten ?_ ?_ ?_
          · simpa using hvalues.length_eq
          · simpa using hrest.length_eq
          · exact hname ▸ List.mem_map_of_mem hother)
      have hvalue := (List.cons.inj (List.append_cancel_left hsame)).1
      have hindex := (hdistinct.getElem_inj_iff).1 hvalue
      omega
  exact hsplit parameters [] rfl

/-- A list of accepted parameters, their choices without repetition, and each of them alone are
sampled well exactly if every parameter is regular and only parameters with one value share their
name with a later one. -/
theorem sampled_well_iff
    (haccepted : ∀ item ∈ parameters, ∃ payload, SearchParameter.fromPayload payload = .ok item)
    (hchoices : ∀ item ∈ parameters, item.kind ≠ .boolean → item.choices.Nodup) :
    (SampledWell parameters ∧ ∀ item ∈ parameters, SampledWell [item]) ↔
      RegularList parameters := by
  have hwell : ∀ item ∈ parameters, WellFormed item := by
    intro item hitem
    obtain ⟨payload, hpayload⟩ := haccepted item hitem
    exact ⟨validRange_of_accepted hpayload, hchoices item hitem⟩
  constructor
  · rintro ⟨hlist, halone⟩
    have hregular : ∀ item ∈ parameters, Regular item :=
      fun item hitem => regular_of_sampledWell (hwell item hitem) (halone item hitem)
    exact ⟨hregular,
      names_of_nodup hwell hregular fun limit hlimit => (hlist.grid limit hlimit).2.1⟩
  · intro hregular
    refine ⟨sampledWell_of_regular hwell hregular, fun item hitem => ?_⟩
    have honly {other : SearchParameter Choice} (hother : other ∈ [item]) : other = item :=
      List.mem_singleton.1 hother
    refine sampledWell_of_regular (fun other hother => honly hother ▸ hwell item hitem)
      ⟨fun other hother => honly hother ▸ hregular.1 item hitem, List.pairwise_singleton _ _⟩

end

end

/-! ## A range with a step and one without -/

def period : SearchParameter String :=
  { name := "period", kind := .integer, minimum := some 5, maximum := some 20, step := some 5
    default := .integer 10 }

def threshold : SearchParameter String :=
  { name := "threshold", kind := .number, minimum := some 0, maximum := some 1
    default := .number (1 / 2) }

theorem sampled_well_period :
    (SampledWell [period] ∧ ∀ item ∈ [period], SampledWell [item]) ↔ RegularList [period] := by
  refine sampled_well_iff ?_ ?_
  · intro item hitem
    rw [List.mem_singleton.1 hitem]
    exact ⟨{ name := "period", type := "integer", min := some 5, max := some 20, step := some 5
             default := .integer 10 }, by rfl⟩
  · intro item hitem _
    rw [List.mem_singleton.1 hitem]
    exact List.nodup_nil

/-- A grid of three lists the minimum of the threshold once and its maximum twice. -/
theorem threshold_sampled_twice :
    SearchParameter.fromPayload
        { name := "threshold", type := "number", min := some 0, max := some 1
          default := Value.number (1 / 2) } = .ok threshold ∧
      ¬ (grid [threshold] 3).Nodup := by
  refine ⟨by rfl, fun hnodup => ?_⟩
  have haxis := @gridValues_stepless _ threshold ⟨by decide, rfl⟩ rfl (by decide +kernel)
  rw [grid_single (by decide) (by simp [haxis]), haxis] at hnodup
  simp at hnodup

end QuantDinger.Analysis.SampledCandidates
