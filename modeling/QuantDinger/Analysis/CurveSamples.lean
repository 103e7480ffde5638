import QuantDinger.Library.FirstLeast
import QuantDinger.Model.CurveSampling

/-!
# What a sampled equity curve keeps

A sampled curve of at least ten points keeps its first and last point, a lowest and a highest one,
a peak and a trough of its deepest drawdown, and the first insolvent point with the one before.
These are nine indexes at most. With nine different ones and a limit of ten one slot is left, and
the spacing of one slot divides by zero.
-/

namespace QuantDinger.Analysis

open QuantDinger.Library QuantDinger.Model

/-! ## The curve -/

section

variable {δ : Type} (items : List (CurvePoint δ)) (initial : ℚ)

def FiniteValues : Prop := ∀ item ∈ items, item.value ≠ none

def valueAt (i : ℕ) : ℚ := ((items[i]?).bind CurvePoint.value).getD 0

/-- The saved drawdown at an index, 0 where there is none. -/
def savedAt (i : ℕ) : ℚ := ((items[i]?).bind CurvePoint.drawdown).getD 0

/-- The highest of the initial capital and the values up to an index. -/
def peakAt (i : ℕ) : ℚ := runningMax (valueAt items) initial (i + 1)

/-- The drawdown at an index, in percent of the peak. -/
def drawdownAt (i : ℕ) : ℚ :=
  if 0 < peakAt items initial i then (valueAt items i / peakAt items initial i - 1) * 100 else 0

def pointsAt (picked : List ℕ) : List (CurvePoint δ) := picked.filterMap (items[·]?)

/-- What the sample at the indexes `picked` keeps. -/
structure KeepsCurve (limit : ℕ) (picked : List ℕ) : Prop where
  ordered : picked.Pairwise (· < ·)
  inside : ∀ i ∈ picked, i < items.length
  length : picked.length = min items.length limit
  endpoints : items ≠ [] → 0 ∈ picked ∧ items.length - 1 ∈ picked
  low : items ≠ [] → ∃ i ∈ picked, ∀ j < items.length, valueAt items i ≤ valueAt items j
  high : items ≠ [] → ∃ i ∈ picked, ∀ j < items.length, valueAt items j ≤ valueAt items i
  /-- The peak of the deepest drawdown is a sampled point, or the initial capital. -/
  drawdown : items ≠ [] → ∃ peak ∈ picked, ∃ trough ∈ picked, peak ≤ trough ∧
    (peakAt items initial trough = valueAt items peak ∨
      peak = 0 ∧ peakAt items initial trough = initial) ∧
    ∀ j < items.length, drawdownAt items initial trough ≤ drawdownAt items initial j
  insolvent : ∀ i < items.length, valueAt items i ≤ 0 → (∀ j < i, 0 < valueAt items j) →
    i ∈ picked ∧ i - 1 ∈ picked

/-- The sampling succeeds and keeps what it promises. -/
def CurveKept (limit : ℕ) : Prop :=
  ∃ picked, sampleEquityCurve items limit initial = .ok (pointsAt items picked) ∧
    KeepsCurve items initial limit picked

/-! ## The marked indexes -/

def lowMark : ℕ :=
  (firstIndex (fun i => ∀ j < items.length, valueAt items i ≤ valueAt items j)
    items.length).getD 0

def highMark : ℕ :=
  (firstIndex (fun i => ∀ j < items.length, valueAt items j ≤ valueAt items i)
    items.length).getD 0

def troughMark : ℕ :=
  (firstIndex (fun i => drawdownAt items initial i < 0 ∧
    ∀ j < items.length, drawdownAt items initial i ≤ drawdownAt items initial j)
    items.length).getD 0

/-- The first point with the peak value at an index, where that is not the initial capital. -/
def peakMark (trough : ℕ) : ℕ :=
  (firstIndex (fun i => initial < valueAt items i ∧ valueAt items i = peakAt items initial trough)
    (trough + 1)).getD 0

/-- The first point of the lowest saved drawdown. -/
def savedMark : ℕ :=
  (firstIndex (fun i => savedAt items i < 0 ∧
    ∀ j < items.length, savedAt items i ≤ savedAt items j) items.length).getD 0

def insolventMark : Option ℕ := firstIndex (fun i => valueAt items i ≤ 0) items.length

def marks : List ℕ :=
  [0, items.length - 1, peakMark items initial (troughMark items initial),
    troughMark items initial, lowMark items, highMark items, savedMark items] ++
    match insolventMark items with
    | some first => [first - 1, first]
    | none => []

def NineMarks : Prop := (marks items initial).Nodup ∧ (insolventMark items).isSome = true

instance : Decidable (NineMarks items initial) := inferInstanceAs (Decidable (_ ∧ _))

end

/-! ## The pass -/

section

variable {δ : Type} {items : List (CurvePoint δ)} {initial : ℚ} {n : ℕ} {scan : CurveScan}

/-- What the pass knows after `n` points.

INTERNAL: the invariant of the pass. -/
structure ScanOf (items : List (CurvePoint δ)) (initial : ℚ) (n : ℕ) (scan : CurveScan) : Prop where
  peak : 0 < scan.peak → Highest (valueAt items) initial n scan.peak scan.peakIndex
  insolventPeak : scan.peak ≤ 0 → initial ≤ 0 ∧ ∀ j < n, valueAt items j ≤ 0
  worst : Deepest (drawdownAt items initial) 0 n scan.worst scan.worstPair.2
  worstPeak : scan.worstPair.1 = peakMark items initial scan.worstPair.2
  low : Deepest (fun i => (valueAt items i : WithTop ℚ)) ⊤ n scan.low scan.lowIndex
  high : Highest (fun i => (valueAt items i : WithBot ℚ)) ⊥ n scan.high scan.highIndex
  saved : Deepest (savedAt items) 0 n scan.savedWorst scan.savedIndex
  insolvent : scan.firstInsolvent = firstIndex (fun i => valueAt items i ≤ 0) n

theorem peakMark_zero : peakMark items initial 0 = 0 := by
  have hlt : peakMark items initial 0 < 0 + 1 := firstIndex_getD_lt (Nat.succ_pos 0)
  omega

theorem scanOf_start : ScanOf items initial 0 (.start initial) where
  peak _ := .none fun j hj => absurd hj (Nat.not_lt_zero j)
  insolventPeak h := ⟨h, fun j hj => absurd hj (Nat.not_lt_zero j)⟩
  worst := .none fun j hj => absurd hj (Nat.not_lt_zero j)
  worstPeak := peakMark_zero.symm
  low := .none fun j hj => absurd hj (Nat.not_lt_zero j)
  high := .none fun j hj => absurd hj (Nat.not_lt_zero j)
  saved := .none fun j hj => absurd hj (Nat.not_lt_zero j)
  insolvent := rfl

theorem ScanOf.peak_succ (h : ScanOf items initial n scan) {value : ℚ}
    (hvalue : valueAt items n = value) {peak : ℚ} {peakIndex : ℕ}
    (hpeak : peak = if scan.peak ≤ 0 ∨ scan.peak < value then value else scan.peak)
    (hindex : peakIndex = if scan.peak ≤ 0 ∨ scan.peak < value then n else scan.peakIndex) :
    (0 < peak → Highest (valueAt items) initial (n + 1) peak peakIndex) ∧
      (peak ≤ 0 → initial ≤ 0 ∧ ∀ j < n + 1, valueAt items j ≤ 0) := by
  subst hvalue
  by_cases hdry : scan.peak ≤ 0
  · rw [if_pos (Or.inl hdry)] at hpeak hindex
    subst hpeak hindex
    obtain ⟨hinitial, hbefore⟩ := h.insolventPeak hdry
    constructor
    · -- the first positive value is above all earlier ones
      intro hpos
      refine .some (firstLeast_of_bound (OrderDual.toDual (0 : ℚ)) ?_ ?_) ?_
      · exact fun j hj => hbefore j hj
      · exact hpos
      · exact OrderDual.toDual_lt_toDual.2 (lt_of_le_of_lt hinitial hpos)
    · intro hneg
      refine ⟨hinitial, fun j hj => ?_⟩
      rcases Nat.lt_succ_iff_lt_or_eq.1 hj with hj | rfl
      · exact hbefore j hj
      · exact hneg
  · have hpos : 0 < scan.peak := not_le.1 hdry
    have hsucc := (h.peak hpos).succ
    have hiff : (scan.peak ≤ 0 ∨ scan.peak < valueAt items n) ↔ scan.peak < valueAt items n :=
      ⟨fun hor => hor.resolve_left hdry, Or.inr⟩
    simp only [hiff] at hpeak hindex
    rw [← hpeak, ← hindex] at hsucc
    refine ⟨fun _ => hsucc, fun hneg => ?_⟩
    split_ifs at hpeak with hlt
    · rw [hpeak] at hneg
      exact absurd (hpos.trans hlt) (not_lt.2 hneg)
    · rw [hpeak] at hneg
      exact absurd hneg hdry

theorem eq_peakMark {height : ℚ} {i : ℕ}
    (h : Highest (valueAt items) initial (n + 1) height i) : i = peakMark items initial n := by
  have hheight := h.eq_runningMax
  unfold Analysis.peakMark Analysis.peakAt
  generalize hdual : OrderDual.toDual height = depth at h
  unfold Highest at h
  rw [hdual] at h
  cases h with
  | none hbelow =>
    rw [firstIndex_eq_none]
    · rfl
    · exact fun i hi hboth => absurd (hbelow i hi) (not_le.2 hboth.1)
  | some hfirst hover =>
    have hself : height = valueAt items i := OrderDual.toDual_inj.1 hdual
    rw [firstIndex_eq_some hfirst.lt ⟨hover, by rw [← hself, hheight]⟩]
    · rfl
    · intro j hj hboth
      have hlt : valueAt items j < valueAt items i := hfirst.first j hj
      rw [hboth.2, ← hheight, hself] at hlt
      exact lt_irrefl _ hlt

theorem ScanOf.observe (h : ScanOf items initial n scan) {value : ℚ} {saved : Option ℚ}
    (hvalue : valueAt items n = value) (hsaved : savedAt items n = saved.getD 0) :
    ScanOf items initial (n + 1) (scan.observeValue n value saved) := by
  set next := scan.observeValue n value saved with hnext
  obtain ⟨hpeak, hdry⟩ :
      (0 < next.peak → Highest (valueAt items) initial (n + 1) next.peak next.peakIndex) ∧
        (next.peak ≤ 0 → initial ≤ 0 ∧ ∀ j < n + 1, valueAt items j ≤ 0) :=
    h.peak_succ hvalue rfl rfl
  have hdrawdown : drawdownAt items initial n =
      (if 0 < next.peak then (value / next.peak - 1) * 100 else 0) := by
    unfold drawdownAt peakAt
    by_cases hpos : 0 < next.peak
    · rw [hvalue, ← (hpeak hpos).eq_runningMax]
    · obtain ⟨hinitial, hall⟩ := hdry (not_lt.1 hpos)
      rw [if_neg hpos, if_neg (not_lt.2 (runningMax_le hinitial hall))]
  have hworst : next.worst =
      if drawdownAt items initial n < scan.worst then drawdownAt items initial n
      else scan.worst := by
    rw [hdrawdown]
    rfl
  have hpair : next.worstPair =
      if drawdownAt items initial n < scan.worst then (next.peakIndex, n)
      else scan.worstPair := by
    rw [hdrawdown]
    rfl
  constructor
  · exact hpeak
  · exact hdry
  · rw [hworst, hpair, apply_ite Prod.snd]
    exact h.worst.succ
  · rw [hpair]
    split_ifs with hdeeper
    · -- a negative drawdown has a positive peak
      have hneg := lt_of_lt_of_le hdeeper h.worst.le_threshold
      by_cases hpos : 0 < next.peak
      · exact eq_peakMark (hpeak hpos)
      · rw [hdrawdown, if_neg hpos] at hneg
        exact absurd hneg (lt_irrefl 0)
    · exact h.worstPeak
  · have hsucc := h.low.succ
    rw [hvalue] at hsucc
    exact hsucc
  · have hsucc := h.high.succ
    rw [hvalue] at hsucc
    exact hsucc
  · have hsucc := h.saved.succ
    rw [hsaved] at hsucc
    cases saved with
    | some saved => exact hsucc
    | none =>
      have hnot : ¬ (0 : ℚ) < scan.savedWorst := not_lt.2 h.saved.le_threshold
      dsimp only [Option.getD_none] at hsucc
      rw [if_neg hnot, if_neg hnot] at hsucc
      exact hsucc
  · rw [firstIndex_succ, ← h.insolvent, hvalue]
    rfl

theorem scanOf_pass (hfinite : FiniteValues items) :
    ScanOf items initial items.length (.pass items initial) := by
  have hprefix : ∀ k ≤ items.length, ScanOf items initial k
      ((items.take k).zipIdx.foldl (fun scan entry => scan.observe entry.2 entry.1)
        (.start initial)) := by
    intro k hk
    induction k with
    | zero => exact scanOf_start
    | succ k ih =>
      have hlt : k < items.length := hk
      obtain ⟨value, hvalue⟩ := Option.ne_none_iff_exists'.1
        (hfinite items[k] (List.getElem_mem hlt))
      have hlength : (items.take k).length = k := by
        rw [List.length_take]
        omega
      have hvalueAt : valueAt items k = value := by
        unfold valueAt
        rw [List.getElem?_eq_getElem hlt, Option.bind_some, hvalue]
        rfl
      have hsavedAt : savedAt items k = items[k].drawdown.getD 0 := by
        unfold savedAt
        rw [List.getElem?_eq_getElem hlt]
        rfl
      rw [List.take_succ_eq_append_getElem hlt, List.zipIdx_append, List.foldl_append, hlength]
      have hnext := (ih (by omega)).observe hvalueAt hsavedAt
      simp only [List.zipIdx_cons, List.zipIdx_nil, List.foldl_cons, List.foldl_nil,
        CurveScan.observe, hvalue, Nat.zero_add]
      exact hnext
  have hall := hprefix items.length (le_refl _)
  rw [List.take_length] at hall
  exact hall

theorem required_eq (hfinite : FiniteValues items) (hne : items ≠ []) :
    (CurveScan.pass items initial).required items.length = (marks items initial).toFinset := by
  have h : ScanOf items initial items.length (.pass items initial) := scanOf_pass hfinite
  have htrough : (CurveScan.pass items initial).worstPair.2 = troughMark items initial :=
    h.worst.firstIndex.symm
  have hpos : 0 < items.length := List.length_pos_iff.2 hne
  have hlow : (CurveScan.pass items initial).lowIndex = lowMark items := by
    unfold lowMark
    rw [(h.low.of_top hpos).firstIndex]
    rfl
  have hhigh : (CurveScan.pass items initial).highIndex = highMark items := by
    have hfirst := (h.high.of_bot hpos).firstIndex
    unfold highMark
    simp only [OrderDual.toDual_le_toDual] at hfirst
    rw [hfirst]
    rfl
  have hsaved : (CurveScan.pass items initial).savedIndex = savedMark items :=
    h.saved.firstIndex.symm
  have hpeak := h.worstPeak
  rw [htrough] at hpeak
  unfold CurveScan.required marks
  rw [h.insolvent, hpeak, htrough, hlow, hhigh, hsaved]
  unfold insolventMark
  cases firstIndex (fun i => valueAt items i ≤ 0) items.length with
  | none =>
    dsimp only
    simp
  | some first =>
    dsimp only
    ext i
    simp
    grind

/-! ## What the marks promise -/

theorem marks_lt (hne : items ≠ []) : ∀ i ∈ marks items initial, i < items.length := by
  have hpos : 0 < items.length := List.length_pos_iff.2 hne
  have htrough : troughMark items initial < items.length := firstIndex_getD_lt hpos
  have hpeak : peakMark items initial (troughMark items initial) <
      troughMark items initial + 1 := firstIndex_getD_lt (Nat.succ_pos _)
  have hlow : lowMark items < items.length := firstIndex_getD_lt hpos
  have hhigh : highMark items < items.length := firstIndex_getD_lt hpos
  have hsaved : savedMark items < items.length := firstIndex_getD_lt hpos
  intro i hi
  unfold marks at hi
  rcases List.mem_append.1 hi with hi | hi
  · simp only [List.mem_cons, List.not_mem_nil, or_false] at hi
    omega
  · cases hfirst : insolventMark items with
    | none =>
      rw [hfirst] at hi
      exact nomatch hi
    | some first =>
      have hlt := (firstIndex_spec hfirst).1
      rw [hfirst] at hi
      simp only [List.mem_cons, List.not_mem_nil, or_false] at hi
      omega

theorem drawdownAt_nonpos (i : ℕ) : drawdownAt items initial i ≤ 0 := by
  unfold drawdownAt
  split_ifs with hpos
  · have hle : valueAt items i ≤ peakAt items initial i := le_runningMax (Nat.lt_succ_self i)
    have hratio : valueAt items i / peakAt items initial i ≤ 1 := (div_le_one hpos).2 hle
    linarith
  · exact le_refl 0

theorem troughMark_least : ∀ j < items.length,
    drawdownAt items initial (troughMark items initial) ≤ drawdownAt items initial j := by
  unfold troughMark
  cases h : firstIndex (fun i => drawdownAt items initial i < 0 ∧
      ∀ j < items.length, drawdownAt items initial i ≤ drawdownAt items initial j)
      items.length with
  | none => exact fun j hj => (drawdownAt_nonpos 0).trans (le_of_firstIndex_none h j hj)
  | some trough => exact (firstIndex_spec h).2.1.2

theorem peakMark_peak (trough : ℕ) :
    peakAt items initial trough = valueAt items (peakMark items initial trough) ∨
      peakMark items initial trough = 0 ∧ peakAt items initial trough = initial := by
  unfold peakMark
  cases h : firstIndex (fun i => initial < valueAt items i ∧
      valueAt items i = peakAt items initial trough) (trough + 1) with
  | none =>
    right
    refine ⟨rfl, ?_⟩
    rcases runningMax_cases (valueAt items) initial (trough + 1) with hbound | ⟨j, hj, hboth⟩
    · exact hbound
    · exact absurd hboth (firstIndex_none h j hj)
  | some peak =>
    left
    exact (firstIndex_spec h).2.1.2.symm

theorem keepsCurve_of_marks {limit : ℕ} {picked : List ℕ}
    (hordered : picked.Pairwise (· < ·)) (hinside : ∀ i ∈ picked, i < items.length)
    (hlength : picked.length = min items.length limit)
    (hmarks : items ≠ [] → ∀ i ∈ marks items initial, i ∈ picked) :
    KeepsCurve items initial limit picked := by
  have hmark : ∀ i, i ∈ [0, items.length - 1, peakMark items initial (troughMark items initial),
      troughMark items initial, lowMark items, highMark items, savedMark items] →
      items ≠ [] → i ∈ picked :=
    fun i hi hne => hmarks hne i (List.mem_append_left _ hi)
  refine ⟨hordered, hinside, hlength, ?_, ?_, ?_, ?_, ?_⟩
  · exact fun hne => ⟨hmark _ (by simp) hne, hmark _ (by simp) hne⟩
  · intro hne
    exact ⟨lowMark items, hmark _ (by simp) hne,
      firstIndex_least (valueAt items) (List.length_pos_iff.2 hne)⟩
  · intro hne
    exact ⟨highMark items, hmark _ (by simp) hne,
      firstIndex_least (fun i => OrderDual.toDual (valueAt items i)) (List.length_pos_iff.2 hne)⟩
  · intro hne
    have hbefore : peakMark items initial (troughMark items initial) <
        troughMark items initial + 1 := firstIndex_getD_lt (Nat.succ_pos _)
    exact ⟨_, hmark _ (by simp) hne, troughMark items initial, hmark _ (by simp) hne,
      Nat.lt_succ_iff.1 hbefore, peakMark_peak _, troughMark_least⟩
  · intro i hi hbroke hsolvent
    have hne : items ≠ [] := List.length_pos_iff.1 (Nat.zero_lt_of_lt hi)
    have hfirst : insolventMark items = some i :=
      firstIndex_eq_some hi hbroke fun j hj => not_le.2 (hsolvent j hj)
    have htail : ∀ k ∈ [i - 1, i], k ∈ picked := by
      intro k hk
      apply hmarks hne
      unfold marks
      rw [hfirst]
      exact List.mem_append_right _ hk
    exact ⟨htail i (by simp), htail (i - 1) (by simp)⟩

/-! ## The sample -/

theorem pointsAt_range {δ : Type} (items : List (CurvePoint δ)) :
    pointsAt items (List.range items.length) = items := by
  unfold pointsAt
  induction items with
  | nil => rfl
  | cons item items ih =>
    rw [List.length_cons, List.range_succ_eq_map, List.filterMap_cons, List.filterMap_map]
    simp only [List.getElem?_cons_zero, List.cons.injEq, true_and]
    exact ih

theorem marks_length (items : List (CurvePoint δ)) (initial : ℚ) :
    (marks items initial).length = if (insolventMark items).isSome then 9 else 7 := by
  unfold marks
  cases insolventMark items with
  | none => rfl
  | some first => rfl

theorem card_marks_le (items : List (CurvePoint δ)) (initial : ℚ) :
    (marks items initial).toFinset.card ≤ 9 := by
  have hle := List.toFinset_card_le (marks items initial)
  rw [marks_length] at hle
  split_ifs at hle <;> omega

theorem card_marks_eq_iff (items : List (CurvePoint δ)) (initial : ℚ) :
    (marks items initial).toFinset.card = 9 ↔ NineMarks items initial := by
  have hlength := marks_length items initial
  have hle := List.toFinset_card_le (marks items initial)
  constructor
  · intro hnine
    have hsome : (insolventMark items).isSome = true := by
      by_contra hnone
      rw [if_neg hnone] at hlength
      omega
    rw [if_pos hsome] at hlength
    refine ⟨?_, hsome⟩
    rw [← Multiset.coe_nodup, ← Multiset.toFinset_card_eq_card_iff_nodup]
    simpa [hlength] using hnine
  · rintro ⟨hnodup, hsome⟩
    rw [if_pos hsome] at hlength
    rw [List.toFinset_card_of_nodup hnodup, hlength]

theorem candidates_length {required : Finset ℕ} {n : ℕ} (h : ∀ i ∈ required, i < n) :
    ((List.range n).filter (· ∉ required)).length = n - required.card := by
  have hnodup : ((List.range n).filter (· ∉ required)).Nodup := List.nodup_range.filter _
  have hsdiff : ((List.range n).filter (· ∉ required)).toFinset = Finset.range n \ required := by
    ext i
    simp
  have hsub : required ⊆ Finset.range n := fun i hi => Finset.mem_range.2 (h i hi)
  rw [← List.toFinset_card_of_nodup hnodup, hsdiff, Finset.card_sdiff_of_subset hsub,
    Finset.card_range]

theorem sample_of_slots {items : List (CurvePoint δ)} {initial : ℚ} {limit : ℕ}
    (hfinite : FiniteValues items) (hlimit : 10 ≤ limit) (hlonger : limit < items.length)
    (hslots : (marks items initial).toFinset.card + 1 < limit) :
    CurveKept items initial limit := by
  have hne : items ≠ [] := List.length_pos_iff.1 (Nat.zero_lt_of_lt hlonger)
  set required := (marks items initial).toFinset with hrequired
  have hinside : ∀ i ∈ required, i < items.length := fun i hi =>
    marks_lt hne i (List.mem_toFinset.1 hi)
  set candidates := (List.range items.length).filter (· ∉ required) with hcandidates
  have hcount : candidates.length = items.length - required.card := candidates_length hinside
  have hnodup : candidates.Nodup := List.nodup_range.filter _
  have hcandidate : ∀ i ∈ candidates, i < items.length ∧ i ∉ required := by
    intro i hi
    rw [hcandidates, List.mem_filter] at hi
    exact ⟨List.mem_range.1 hi.1, of_decide_eq_true hi.2⟩
  have hslotCount : ((limit : ℤ) - required.card).toNat = limit - required.card := by omega
  set step : ℚ := ((candidates.length : ℤ) - 1 : ℤ) / ((limit : ℤ) - required.card - 1 : ℤ)
    with hstepDef
  have hdenom : (0 : ℚ) < ((limit : ℤ) - required.card - 1 : ℤ) := by
    have hpos : (0 : ℤ) < (limit : ℤ) - required.card - 1 := by omega
    exact_mod_cast hpos
  have hstep : 1 < step := by
    rw [hstepDef, one_lt_div hdenom]
    have hlt : (limit : ℤ) - required.card - 1 < (candidates.length : ℤ) - 1 := by omega
    exact_mod_cast hlt
  have hspread : step * ((limit - required.card - 1 : ℕ) : ℚ) =
      ((candidates.length - 1 : ℕ) : ℚ) := by
    have hslot : ((limit - required.card - 1 : ℕ) : ℚ) =
        ((limit : ℤ) - required.card - 1 : ℤ) := by
      have hint : ((limit - required.card - 1 : ℕ) : ℤ) = (limit : ℤ) - required.card - 1 := by
        omega
      exact_mod_cast hint
    have hlast : ((candidates.length - 1 : ℕ) : ℚ) = ((candidates.length : ℤ) - 1 : ℤ) := by
      have hint : ((candidates.length - 1 : ℕ) : ℤ) = (candidates.length : ℤ) - 1 := by omega
      exact_mod_cast hint
    rw [hslot, hlast, hstepDef, div_mul_cancel₀ _ hdenom.ne']
  have hcandidatesNe : candidates ≠ [] := List.length_pos_iff.1 (by omega)
  obtain ⟨picked, hpicked, hpickedNodup, hpickedLength, hmem⟩ :=
    spaced_members hnodup hstep hspread hcandidatesNe
  have hdisjoint : Disjoint required picked.toFinset := by
    rw [Finset.disjoint_right]
    exact fun i hi => (hcandidate i (hmem i (List.mem_toFinset.1 hi))).2
  have hcard : (required ∪ picked.toFinset).card = limit := by
    rw [Finset.card_union_of_disjoint hdisjoint, List.toFinset_card_of_nodup hpickedNodup,
      hpickedLength]
    omega
  refine ⟨(required ∪ picked.toFinset).sort (· ≤ ·), ?_, ?_⟩
  · unfold sampleEquityCurve
    rw [if_neg (by omega), if_neg (by omega), required_eq hfinite hne]
    dsimp only
    rw [← hrequired, if_neg (by omega), hslotCount, ← hcandidates, ← hstepDef, hpicked]
    rfl
  · apply keepsCurve_of_marks
    · exact (Finset.sortedLT_sort _).pairwise
    · intro i hi
      rw [Finset.mem_sort, Finset.mem_union] at hi
      rcases hi with hi | hi
      · exact hinside i hi
      · exact (hcandidate i (hmem i (List.mem_toFinset.1 hi))).1
    · rw [Finset.length_sort, hcard]
      omega
    · intro _ i hi
      rw [Finset.mem_sort]
      exact Finset.mem_union_left _ (List.mem_toFinset.2 hi)

theorem sample_of_nine {items : List (CurvePoint δ)} {initial : ℚ} (hfinite : FiniteValues items)
    (hlonger : 10 < items.length) (hnine : NineMarks items initial) :
    sampleEquityCurve items 10 initial = .error .zeroDivision := by
  have hne : items ≠ [] := List.length_pos_iff.1 (Nat.zero_lt_of_lt hlonger)
  have hcard := (card_marks_eq_iff items initial).2 hnine
  unfold sampleEquityCurve
  rw [if_neg (by omega), if_neg (by omega), required_eq hfinite hne]
  dsimp only
  rw [if_pos (by omega)]

/-- The sampling keeps its promises unless the limit is ten, the curve is longer and the nine
marked points are different. -/
theorem curve_kept_iff {δ : Type} (items : List (CurvePoint δ)) (initial : ℚ) (limit : ℕ)
    (hfinite : FiniteValues items) (hlimit : 10 ≤ limit) :
    CurveKept items initial limit ↔
      ¬ (limit = 10 ∧ 10 < items.length ∧ NineMarks items initial) := by
  have hcard := card_marks_le items initial
  have hnine := card_marks_eq_iff items initial
  by_cases hshort : items.length ≤ limit
  · refine iff_of_true ⟨List.range items.length, ?_, ?_⟩ (by omega)
    · rw [pointsAt_range]
      unfold sampleEquityCurve
      rw [if_pos (by omega)]
    · apply keepsCurve_of_marks
      · exact List.pairwise_lt_range
      · exact fun i hi => List.mem_range.1 hi
      · rw [List.length_range]
        omega
      · exact fun hne i hi => List.mem_range.2 (marks_lt hne i hi)
  · have hlonger : limit < items.length := not_le.1 hshort
    by_cases hslots : (marks items initial).toFinset.card + 1 < limit
    · refine iff_of_true (sample_of_slots hfinite hlimit hlonger hslots) ?_
      rintro ⟨hten, _, hmarks⟩
      have hall := hnine.2 hmarks
      omega
    · have hten : limit = 10 ∧ (marks items initial).toFinset.card = 9 := by omega
      refine iff_of_false ?_ fun hnot =>
        hnot ⟨hten.1, hten.1 ▸ hlonger, hnine.1 hten.2⟩
      rintro ⟨picked, hresult, _⟩
      obtain ⟨rfl, hall⟩ := hten
      have herror := sample_of_nine hfinite hlonger (hnine.1 hall)
      rw [Nat.cast_ofNat, herror] at hresult
      exact nomatch hresult

/-- A curve of eleven points.

INTERNAL: its nine marked points are different. -/
def crowdedCurve : List (CurvePoint Unit) :=
  [⟨some 50, none, ()⟩, ⟨some 100, none, ()⟩, ⟨some 99, none, ()⟩, ⟨some 0, none, ()⟩,
    ⟨some (-10), none, ()⟩, ⟨some 1000, none, ()⟩, ⟨some (-20), none, ()⟩,
    ⟨some 5, some (-500), ()⟩, ⟨some 6, none, ()⟩, ⟨some 7, none, ()⟩, ⟨some 8, none, ()⟩]

theorem crowded_kept_of_eleven : CurveKept crowdedCurve 50 11 :=
  (curve_kept_iff crowdedCurve 50 11 (by unfold FiniteValues crowdedCurve; simp) (by decide)).2
    (by decide)

/-- With a limit of ten, eleven points with nine marked ones are not sampled at all. -/
theorem crowded_not_kept :
    ¬ ∀ (items : List (CurvePoint Unit)) (initial : ℚ) (limit : ℕ), FiniteValues items →
      10 ≤ limit → CurveKept items initial limit := by
  intro hall
  have hfinite : FiniteValues crowdedCurve := by
    unfold FiniteValues crowdedCurve
    simp
  have hnine : NineMarks crowdedCurve 50 := by decide +kernel
  obtain ⟨picked, hresult, _⟩ := hall crowdedCurve 50 10 hfinite (le_refl 10)
  have herror := sample_of_nine hfinite (by decide) hnine
  rw [Nat.cast_ofNat, herror] at hresult
  exact nomatch hresult

end

end QuantDinger.Analysis
