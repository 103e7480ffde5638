import QuantDinger.Model.Submission

/-!
# Client order ids

With separators the two numbers and the phase of a client order id can be read back, so the
id names one phase of one order. On OKX the separators are left out: the digits of the two
numbers run together, and orders of different strategies share an id.
-/

namespace QuantDinger.Analysis

open QuantDinger.Model
open QuantDinger.Model.Live

/-! ## Reading an id back -/

private theorem toDigits_injective {m n : ℕ} (h : Nat.toDigits 10 m = Nat.toDigits 10 n) : m = n := by
  have hread := congrArg (fun digits => Nat.ofDigitChars 10 digits 0) h
  simpa using hread

private theorem append_separated {l l' rest rest' : List Char} {c : Char} (hl : c ∉ l) (hl' : c ∉ l')
    (h : l ++ c :: rest = l' ++ c :: rest') : l = l' ∧ rest = rest' := by
  induction l generalizing l' with
  | nil =>
    cases l' with
    | nil => simpa using h
    | cons x l' =>
      simp only [List.nil_append, List.cons_append, List.cons.injEq] at h
      exact absurd (h.1 ▸ List.mem_cons_self) hl'
  | cons x l ih =>
    cases l' with
    | nil =>
      simp only [List.nil_append, List.cons_append, List.cons.injEq] at h
      exact absurd (h.1 ▸ List.mem_cons_self) hl
    | cons y l' =>
      simp only [List.cons_append, List.cons.injEq] at h
      obtain ⟨hxy, hrest⟩ := h
      obtain ⟨hll, hr⟩ := ih (fun hc => hl (List.mem_cons_of_mem _ hc))
        (fun hc => hl' (List.mem_cons_of_mem _ hc)) hrest
      exact ⟨by rw [hxy, hll], hr⟩

/-- INTERNAL: what stands after the numbers of an id. -/
private def phaseSuffix (phase : OrderPhase) : List Char :=
  if phase.text = "" then [] else '_' :: phase.text.toList

private theorem phase_text_kept (phase : OrderPhase) : lower (strip phase.text) = phase.text := by
  cases phase <;> decide +kernel

private theorem phaseSuffix_cases (phase : OrderPhase) :
    phaseSuffix phase = [] ∨ ∃ l, phaseSuffix phase = '_' :: l := by
  unfold phaseSuffix
  by_cases h : phase.text = ""
  · simp [h]
  · simp [h]

private theorem phaseSuffix_injective {phase phase' : OrderPhase}
    (h : phaseSuffix phase = phaseSuffix phase') : phase = phase' := by
  cases phase <;> cases phase' <;> first | rfl | exact absurd h (by decide +kernel)

private theorem separated_toList {exchangeId : String} (h : ¬ isOkx exchangeId)
    (strategyId orderId : ℕ) (phase : OrderPhase) :
    (makeClientOrderId exchangeId strategyId orderId phase.text).toList =
      ['q', 'd', '_'] ++ (Nat.toDigits 10 strategyId ++
        '_' :: (Nat.toDigits 10 orderId ++ phaseSuffix phase)) := by
  unfold makeClientOrderId phaseSuffix
  simp only [phase_text_kept, if_neg h]
  by_cases hp : phase.text = ""
  · simp [hp]
  · simp [hp]

theorem separated_injective {exchangeId : String} (h : ¬ isOkx exchangeId)
    {strategyId strategyId' orderId orderId' : ℕ} {phase phase' : OrderPhase}
    (hid : makeClientOrderId exchangeId strategyId orderId phase.text =
      makeClientOrderId exchangeId strategyId' orderId' phase'.text) :
    strategyId = strategyId' ∧ orderId = orderId' ∧ phase = phase' := by
  have hlist := congrArg String.toList hid
  rw [separated_toList h, separated_toList h] at hlist
  obtain ⟨hstrategy, hrest⟩ := append_separated Nat.underscore_not_in_toDigits
    Nat.underscore_not_in_toDigits (List.append_cancel_left hlist)
  refine ⟨toDigits_injective hstrategy, ?_⟩
  -- The order's digits end at the separator of a phase, or at the end of the id.
  rcases phaseSuffix_cases phase with hp | ⟨l, hp⟩
  · rcases phaseSuffix_cases phase' with hp' | ⟨l', hp'⟩
    · rw [hp, hp', List.append_nil, List.append_nil] at hrest
      exact ⟨toDigits_injective hrest, phaseSuffix_injective (hp.trans hp'.symm)⟩
    · rw [hp, hp', List.append_nil] at hrest
      have hmem : '_' ∈ Nat.toDigits 10 orderId := by
        rw [hrest]
        simp
      exact absurd hmem Nat.underscore_not_in_toDigits
  · rcases phaseSuffix_cases phase' with hp' | ⟨l', hp'⟩
    · rw [hp, hp', List.append_nil] at hrest
      have hmem : '_' ∈ Nat.toDigits 10 orderId' := by
        rw [← hrest]
        simp
      exact absurd hmem Nat.underscore_not_in_toDigits
    · rw [hp, hp'] at hrest
      obtain ⟨horder, hl⟩ := append_separated Nat.underscore_not_in_toDigits
        Nat.underscore_not_in_toDigits hrest
      exact ⟨toDigits_injective horder, phaseSuffix_injective (by rw [hp, hp', hl])⟩

/-! ## OKX -/

/-- The numbers and the phase of an order written without separators. -/
def runTogether (strategyId orderId : ℕ) (phase : OrderPhase) : List Char :=
  Nat.toDigits 10 strategyId ++ (Nat.toDigits 10 orderId ++ phase.text.toList)

private theorem phase_text_alphanum (phase : OrderPhase) :
    phase.text.toList.all Char.isAlphanum = true := by
  cases phase <;> rfl

private theorem runTogether_alphanum (strategyId orderId : ℕ) (phase : OrderPhase) :
    ∀ c ∈ runTogether strategyId orderId phase, c.isAlphanum = true := by
  intro c hc
  unfold runTogether at hc
  rw [List.mem_append, List.mem_append] at hc
  have hdigit : ∀ n : ℕ, c ∈ Nat.toDigits 10 n → c.isAlphanum = true := by
    intro n hn
    have := Nat.isDigit_of_mem_toDigits (by decide) (by decide) hn
    simp [Char.isAlphanum, this]
  rcases hc with hc | hc | hc
  · exact hdigit strategyId hc
  · exact hdigit orderId hc
  · exact List.all_eq_true.mp (phase_text_alphanum phase) c hc

private theorem okx_toList {exchangeId : String} (h : isOkx exchangeId) (strategyId orderId : ℕ)
    (phase : OrderPhase) :
    (makeClientOrderId exchangeId strategyId orderId phase.text).toList =
      'q' :: 'd' :: (runTogether strategyId orderId phase).take 30 := by
  have hbase : ("qd" ++ toString strategyId ++ toString orderId ++ phase.text).toList =
      'q' :: 'd' :: runTogether strategyId orderId phase := by
    simp [runTogether]
  have hkept : ('q' :: 'd' :: runTogether strategyId orderId phase).filter Char.isAlphanum =
      'q' :: 'd' :: runTogether strategyId orderId phase := by
    rw [List.filter_eq_self]
    intro c hc
    rcases List.mem_cons.mp hc with rfl | hc
    · decide
    · rcases List.mem_cons.mp hc with rfl | hc
      · decide
      · exact runTogether_alphanum strategyId orderId phase c hc
  have hne : String.ofList ('q' :: 'd' :: runTogether strategyId orderId phase) ≠ "" := by
    intro hempty
    have := congrArg String.toList hempty
    simp at this
  unfold makeClientOrderId
  simp only [phase_text_kept, if_pos h, hbase, hkept, if_neg hne, truncate]
  simp

/-! ## When ids identify orders -/

/-- Client order ids identify orders: ids of different orders differ whatever their phases,
and so do the ids of the phases of one order. -/
def Identifying (exchangeId : String) : Prop :=
  (∀ strategyId orderId strategyId' orderId' : ℕ, 0 < strategyId → 0 < orderId →
    0 < strategyId' → 0 < orderId' → (strategyId, orderId) ≠ (strategyId', orderId') →
    ∀ phase phase' : OrderPhase,
      makeClientOrderId exchangeId strategyId orderId phase.text ≠
        makeClientOrderId exchangeId strategyId' orderId' phase'.text) ∧
  ∀ strategyId orderId : ℕ, 0 < strategyId → 0 < orderId → ∀ phase phase' : OrderPhase,
    phase ≠ phase' →
      makeClientOrderId exchangeId strategyId orderId phase.text ≠
        makeClientOrderId exchangeId strategyId orderId phase'.text

/-- Client order ids identify orders exactly on the exchanges other than OKX. On OKX two ids
are equal exactly when the numbers and phases, written without separators, agree in their
first thirty characters. -/
theorem client_order_ids_identify_iff (exchangeId : String) :
    (Identifying exchangeId ↔ ¬ isOkx exchangeId) ∧
      (isOkx exchangeId → ∀ (strategyId orderId strategyId' orderId' : ℕ)
        (phase phase' : OrderPhase),
        makeClientOrderId exchangeId strategyId orderId phase.text =
            makeClientOrderId exchangeId strategyId' orderId' phase'.text ↔
          (runTogether strategyId orderId phase).take 30 =
            (runTogether strategyId' orderId' phase').take 30) := by
  have hokx : isOkx exchangeId → ∀ (strategyId orderId strategyId' orderId' : ℕ)
      (phase phase' : OrderPhase),
      makeClientOrderId exchangeId strategyId orderId phase.text =
          makeClientOrderId exchangeId strategyId' orderId' phase'.text ↔
        (runTogether strategyId orderId phase).take 30 =
          (runTogether strategyId' orderId' phase').take 30 := by
    intro h strategyId orderId strategyId' orderId' phase phase'
    rw [← String.toList_inj, okx_toList h, okx_toList h]
    simp
  refine ⟨⟨fun hident h => ?_, fun h => ⟨?_, ?_⟩⟩, hokx⟩
  · -- Order 11 of strategy 1 and order 1 of strategy 11.
    refine hident.1 1 11 11 1 (by decide) (by decide) (by decide) (by decide) (by decide)
      .mkt .mkt ?_
    rw [hokx h]
    decide
  · intro strategyId orderId strategyId' orderId' _ _ _ _ hpair phase phase' hid
    obtain ⟨hstrategy, horder, -⟩ := separated_injective h hid
    exact hpair (by rw [hstrategy, horder])
  · intro strategyId orderId _ _ phase phase' hphase hid
    exact hphase (separated_injective h hid).2.2

/-- Order 11 of strategy 1 and order 1 of strategy 11 have one id. -/
theorem okx_ids_collide :
    (1, 11) ≠ (11, 1) ∧ makeClientOrderId "okx" 1 11 "mkt" = "qd111mkt" ∧
      makeClientOrderId "okx" 11 1 "mkt" = "qd111mkt" ∧ ¬ Identifying "okx" := by
  refine ⟨by decide, by decide +kernel, by decide +kernel, fun hident => ?_⟩
  exact hident.1 1 11 11 1 (by decide) (by decide) (by decide) (by decide) (by decide) .mkt .mkt
    (by decide +kernel)

end QuantDinger.Analysis
