import Mathlib.Tactic.Linarith
import QuantDinger.Model.CloseReconciliation

/-!
# How much a close sells

The retries of a close are sized by `close_target_remaining`. As long as part of the target
is unfilled the residual is at most that part, so the fills add up to the target at most.
Once the target is filled, a close of the whole account takes every position above the
expected one for its residual, whoever owns it. This file determines the closes for which
no behaviour of the account and the exchange makes the fills exceed the target.
-/

namespace QuantDinger.Analysis

open QuantDinger.Library QuantDinger.Model QuantDinger.Model.Live
open QuantDinger.Library.Interaction

/-! ## Fills within the size of an order -/

/-- The event reports no more filled than the size of its order. -/
def WithinSize : AdapterEvent → Prop
  | ⟨.placeMarketOrder intent, .ok result⟩ => result.filled ≤ intent.quantity
  | ⟨.waitForFill intent _ _, .ok (some fill)⟩ => fill.filledQty ≤ intent.quantity
  | _ => True

theorem market_fill_le {maxWait : Amount} {intent : OrderIntent} {transcript : List AdapterEvent}
    {result : OrderExecutionResult} (hquantity : 0 ≤ intent.quantity)
    (h : Plays (MarketOrderExecutor.execute maxWait intent) transcript (.ok result))
    (hsize : ∀ event ∈ transcript, WithinSize event) :
    max 0 result.filledQty ≤ intent.quantity ∧
      (result.success = false → result.filledQty = 0) := by
  unfold MarketOrderExecutor.execute at h
  obtain ⟨response, rest, rfl, hrest⟩ := plays_call.mp h
  rcases response with (text | text | text | text) | placed
  · obtain ⟨-, heq⟩ := plays_done.mp hrest
    cases heq
    exact ⟨by simpa [OrderExecutionResult.submitUnknown] using hquantity, fun _ => rfl⟩
  · obtain ⟨-, heq⟩ := plays_done.mp hrest
    cases heq
    exact ⟨by simpa [OrderExecutionResult.rejected] using hquantity, fun _ => rfl⟩
  · obtain ⟨-, heq⟩ := plays_done.mp hrest
    cases heq
    exact ⟨by simpa [OrderExecutionResult.rejected] using hquantity, fun _ => rfl⟩
  · obtain ⟨-, heq⟩ := plays_fail.mp hrest
    cases heq
  · have hplaced : placed.filled ≤ intent.quantity := hsize _ List.mem_cons_self
    obtain ⟨answer, rest, rfl, hanswer⟩ := plays_call.mp hrest
    rcases answer with e | _ | fill
    · obtain ⟨-, heq⟩ := plays_done.mp hanswer
      cases heq
      exact ⟨max_le hquantity hplaced, fun hfail => nomatch hfail⟩
    · obtain ⟨-, heq⟩ := plays_done.mp hanswer
      cases heq
      exact ⟨max_le hquantity hplaced, fun hfail => nomatch hfail⟩
    · have hfill : fill.filledQty ≤ intent.quantity :=
        hsize _ (List.mem_cons_of_mem _ List.mem_cons_self)
      obtain ⟨-, heq⟩ := plays_done.mp hanswer
      cases heq
      refine ⟨max_le hquantity ?_, fun hfail => nomatch hfail⟩
      show (executionPair placed (some fill)).1 ≤ intent.quantity
      unfold executionPair
      dsimp only
      split_ifs
      · exact hfill
      · exact hfill
      · exact hplaced

/-! ## The residual -/

section Residual

variable (request : CloseRequest)

theorem tolerance_pos : 0 < request.tolerance :=
  lt_of_lt_of_le (by unfold closeEpsilon; norm_num) (le_max_left closeEpsilon _)

def fillGap (filled : Amount) : Amount := max 0 (request.target - max 0 filled)

theorem residual_le_fillGap {state : CloseState} (after : Option Amount)
    (h : closeEpsilon < fillGap request state.totalFilled ∨
      ¬ fullAccountClose request.target request.before) :
    (request.residual state after).2 ≤ fillGap request state.totalFilled := by
  have htarget : max 0 request.target = request.target := max_eq_right (le_max_left _ _)
  have hbefore : max 0 request.before = request.before := max_eq_right (le_max_left _ _)
  have hnonneg : 0 ≤ fillGap request state.totalFilled := le_max_left _ _
  unfold CloseRequest.residual closeTargetRemaining
  simp only [htarget, hbefore]
  cases after with
  | none => exact le_refl _
  | some post =>
    dsimp only
    split_ifs with hposition hfill hfull
    · exact hnonneg
    · rcases h with h | h
      · exact absurd hfill (not_le.mpr h)
      · exact absurd hfull h
    · exact hnonneg
    · exact min_le_left _ _

/-- The fills of a reconciliation, the initial one included. -/
def closeFills (result : CloseReconciliationResult) : Amount :=
  max 0 request.initialResult.filledQty +
    (result.retryResults.map fun retry => max 0 retry.filledQty).sum

def closeLimit : Amount := max (max 0 request.initialResult.filledQty) request.target

/-- With so many retries left, no position can be taken for a residual of a filled target. -/
def Bounded (left : ℕ) (filled : Amount) : Prop :=
  fullAccountClose request.target request.before →
    (fillGap request filled ≤ closeEpsilon → left = 0) ∧
      (request.tolerance < fillGap request filled → left ≤ 1)

end Residual

/-! ## The loop -/

/-- INTERNAL: the fills of the retries so far are those of the total. -/
structure Tallied (request : CloseRequest) (state : CloseState) : Prop where
  total : state.totalFilled = max 0 request.initialResult.filledQty +
    (state.retries.map fun retry => max 0 retry.filledQty).sum
  nonneg : 0 ≤ state.totalFilled
  bound : state.totalFilled ≤ closeLimit request

theorem closeFills_result {request : CloseRequest} {state : CloseState} (h : Tallied request state)
    (seen : Option Amount × String) (status : CloseStatus) (remaining : Amount) :
    closeFills request (request.result state seen status remaining) ≤ closeLimit request := by
  have := h.bound
  rw [h.total] at this
  exact this

theorem settled_fills {request : CloseRequest} {state : CloseState} (h : Tallied request state)
    {seen : Option Amount × String} {result : CloseReconciliationResult}
    (hsettled : request.settled state seen = some result) :
    closeFills request result ≤ closeLimit request := by
  unfold CloseRequest.settled at hsettled
  dsimp only at hsettled
  split at hsettled
  · cases hsettled
    exact closeFills_result h seen _ _
  · split at hsettled
    · cases hsettled
      exact closeFills_result h seen _ _
    · cases hsettled

theorem residual_of_not_settled {request : CloseRequest} {state : CloseState}
    {seen : Option Amount × String} (h : request.settled state seen = none) :
    request.tolerance < (request.residual state seen.1).2 ∧ Terminal state.latest.status := by
  unfold CloseRequest.settled at h
  dsimp only at h
  split at h
  · cases h
  · rename_i hremaining
    split at h
    · cases h
    · rename_i hterminal
      exact ⟨not_le.mp hremaining, not_not.mp hterminal⟩

theorem retry_le {request : CloseRequest} {left : ℕ} {state : CloseState}
    {seen : Option Amount × String} (htally : Tallied request state)
    (hbounded : Bounded request (left + 1) state.totalFilled)
    (h : request.settled state seen = none) :
    state.totalFilled + (request.residual state seen.1).2 ≤ request.target ∧
      (fullAccountClose request.target request.before → left = 0) := by
  have hresidual := (residual_of_not_settled h).1
  have hepsilon : closeEpsilon ≤ request.tolerance := le_max_left _ _
  have hgap : closeEpsilon < fillGap request state.totalFilled ∨
      ¬ fullAccountClose request.target request.before := by
    by_cases hfull : fullAccountClose request.target request.before
    · refine Or.inl (not_le.mp fun hsmall => ?_)
      exact absurd ((hbounded hfull).1 hsmall) (Nat.succ_ne_zero left)
    · exact Or.inr hfull
  have hle := residual_le_fillGap request seen.1 hgap
  have hpos : 0 < closeEpsilon := by
    unfold closeEpsilon
    norm_num
  have hunfilled : fillGap request state.totalFilled = request.target - state.totalFilled := by
    unfold fillGap at hle ⊢
    rw [max_eq_right htally.nonneg] at hle ⊢
    refine max_eq_right (not_lt.mp fun hneg => ?_)
    rw [max_eq_left hneg.le] at hle
    linarith
  refine ⟨by linarith, fun hfull => ?_⟩
  have := (hbounded hfull).2 (by linarith)
  omega

theorem loop_fills_le {request : CloseRequest} {left attempt : ℕ} {state : CloseState} (htally : Tallied request state)
    (hbounded : Bounded request left state.totalFilled) {transcript : List AdapterEvent}
    {result : CloseReconciliationResult}
    (h : Plays (request.loop left attempt state) transcript (.ok result))
    (hsize : ∀ event ∈ transcript, WithinSize event) :
    closeFills request result ≤ closeLimit request := by
  induction left generalizing attempt state transcript with
  | zero =>
    unfold CloseRequest.loop at h
    obtain ⟨response, rest, rfl, hrest⟩ := plays_call.mp h
    obtain ⟨-, heq⟩ := plays_done.mp hrest
    cases heq
    cases hsettled : request.settled state (CloseRequest.observe response) with
    | some result => exact settled_fills htally hsettled
    | none => exact closeFills_result htally _ _ _
  | succ left ih =>
    unfold CloseRequest.loop at h
    obtain ⟨response, rest, rfl, hrest⟩ := plays_call.mp h
    dsimp only at hrest
    cases hsettled : request.settled state (CloseRequest.observe response) with
    | some result =>
      rw [hsettled] at hrest
      obtain ⟨-, heq⟩ := plays_done.mp hrest
      cases heq
      exact settled_fills htally hsettled
    | none =>
      rw [hsettled] at hrest
      dsimp only at hrest
      split at hrest
      · obtain ⟨-, heq⟩ := plays_done.mp hrest
        cases heq
        exact closeFills_result htally _ _ _
      · rename_i hexecutable
        obtain ⟨hroom, hlast⟩ := retry_le htally hbounded hsettled
        have hresidual := (residual_of_not_settled hsettled).1
        rcases plays_bind.mp hrest with ⟨e, -, heq⟩ | ⟨latest, front, back, rfl, hfront, hback⟩
        · cases heq
        · have hquantity : 0 ≤ (request.retryIntent attempt
              (max 0 (request.normalizeQuantity (request.residual state
                (CloseRequest.observe response).1).2))
              (request.residual state (CloseRequest.observe response).1).2).quantity :=
            le_min (le_max_left _ _) ((tolerance_pos request).trans hresidual).le
          obtain ⟨hfill, hfailed⟩ := market_fill_le hquantity hfront fun event he =>
            hsize event (List.mem_cons_of_mem _ (List.mem_append_left _ he))
          have hfill' : max 0 latest.filledQty ≤
              (request.residual state (CloseRequest.observe response).1).2 :=
            hfill.trans (min_le_right _ _)
          have htally' : Tallied request
              { totalFilled := state.totalFilled + max 0 latest.filledQty
                latest := latest
                retries := state.retries ++ [latest] } := by
            refine ⟨?_, add_nonneg htally.nonneg (le_max_left _ _), ?_⟩
            · simp only [List.map_append, List.map_singleton, List.sum_append,
                List.sum_singleton]
              rw [htally.total]
              ring
            · exact le_trans (by dsimp only; linarith) (le_max_right _ _)
          split at hback
          · rename_i hfail
            obtain ⟨-, heq⟩ := plays_done.mp hback
            cases heq
            have := htally'.bound
            rw [htally'.total] at this
            exact this
          · refine ih htally' ?_ hback fun event he =>
              hsize event (List.mem_cons_of_mem _ (List.mem_append_right _ he))
            intro hfull
            have hzero := hlast hfull
            exact ⟨fun _ => hzero, fun _ => by omega⟩

/-! ## The exact condition -/

/-- The closes that no position of the account can enlarge: the first order is not at its
end, or the target leaves part of the account position, or there is no retry left once the
target is filled. -/
def Contained (request : CloseRequest) (maxRetries : ℕ) : Prop :=
  ¬ Terminal request.initialResult.status ∨
    ¬ fullAccountClose request.target request.before ∨
    ((fillGap request request.initialResult.filledQty ≤ closeEpsilon → maxRetries = 0) ∧
      (request.tolerance < fillGap request request.initialResult.filledQty → maxRetries ≤ 1))

theorem tallied_start (request : CloseRequest) : Tallied request request.start := by
  refine ⟨?_, le_max_left _ _, le_max_left _ _⟩
  simp [CloseRequest.start]

theorem loop_fills_of_open {request : CloseRequest} (h : ¬ Terminal request.initialResult.status)
    (left : ℕ) {transcript : List AdapterEvent} {result : CloseReconciliationResult}
    (hplays : Plays (request.loop left 0 request.start) transcript (.ok result)) :
    closeFills request result ≤ closeLimit request := by
  have hsome : ∀ seen, ∃ result, request.settled request.start seen = some result := by
    intro seen
    cases hsettled : request.settled request.start seen with
    | some result => exact ⟨result, rfl⟩
    | none => exact absurd (residual_of_not_settled hsettled).2 h
  cases left with
  | zero =>
    unfold CloseRequest.loop at hplays
    obtain ⟨response, rest, rfl, hrest⟩ := plays_call.mp hplays
    obtain ⟨-, heq⟩ := plays_done.mp hrest
    cases heq
    obtain ⟨settled, hsettled⟩ := hsome (CloseRequest.observe response)
    rw [hsettled]
    exact settled_fills (tallied_start request) hsettled
  | succ left =>
    unfold CloseRequest.loop at hplays
    obtain ⟨response, rest, rfl, hrest⟩ := plays_call.mp hplays
    obtain ⟨settled, hsettled⟩ := hsome (CloseRequest.observe response)
    dsimp only at hrest
    rw [hsettled] at hrest
    obtain ⟨-, heq⟩ := plays_done.mp hrest
    cases heq
    exact settled_fills (tallied_start request) hsettled

theorem contained_fills_le {request : CloseRequest} {maxRetries : ℕ}
    (hcontained : Contained request maxRetries) {transcript : List AdapterEvent}
    {result : CloseReconciliationResult}
    (h : Plays (request.reconcile maxRetries) transcript (.ok result))
    (hsize : ∀ event ∈ transcript, WithinSize event) :
    closeFills request result ≤ closeLimit request := by
  have hgap : fillGap request request.start.totalFilled =
      fillGap request request.initialResult.filledQty := by
    show max 0 (request.target - max 0 (max 0 request.initialResult.filledQty)) = _
    rw [max_eq_right (le_max_left 0 request.initialResult.filledQty)]
    rfl
  rcases hcontained with hopen | hpart | hlast
  · exact loop_fills_of_open hopen maxRetries h
  · exact loop_fills_le (tallied_start request) (fun hfull => absurd hfull hpart) h hsize
  · refine loop_fills_le (tallied_start request) (fun _ => ?_) h hsize
    rw [hgap]
    exact hlast

/-! ## What an enlarged close looks like -/

section Enlarged

variable {request : CloseRequest}

/-- The position that is expected after the close. -/
def expectedPosition (request : CloseRequest) : Amount :=
  max 0 (request.before - min request.before request.target)

theorem plays_settled (left attempt : ℕ) {state : CloseState}
    {response : Except AdapterError Amount} {result : CloseReconciliationResult}
    (h : request.settled state (CloseRequest.observe response) = some result) :
    Plays (request.loop left attempt state) [⟨.queryPosition, response⟩] (.ok result) := by
  cases left with
  | zero =>
    unfold CloseRequest.loop
    refine .call _ ?_
    dsimp only
    rw [h]
    exact .done _
  | succ left =>
    unfold CloseRequest.loop
    refine .call _ ?_
    dsimp only
    rw [h]
    exact .done _

/-- The snapshot of a retry that fills the quantity. -/
def retryFill (quantity : Amount) : FillSnapshot := ⟨quantity, 1, "filled", Dict.empty⟩

theorem observed_retryFill {quantity : Amount} (h : 0 < quantity) :
    (MarketOrderExecutor.observed {} (retryFill quantity)).filledQty = quantity := by
  have hpair : executionPair {} (some (retryFill quantity)) = (quantity, 1) := by
    unfold executionPair retryFill positivePart
    simp [h.le]
  unfold MarketOrderExecutor.observed
  rw [hpair]

/-- The variables after a retry that filled the quantity. -/
def retried (state : CloseState) (quantity : Amount) : CloseState where
  totalFilled := state.totalFilled + quantity
  latest := MarketOrderExecutor.observed {} (retryFill quantity)
  retries := state.retries ++ [MarketOrderExecutor.observed {} (retryFill quantity)]

theorem plays_retry {left attempt : ℕ} {state : CloseState}
    (response : Except AdapterError Amount) {quantity : Amount} (hquantity : 0 < quantity)
    (hnormalize : request.normalizeQuantity = id)
    (hresidual : (request.residual state (CloseRequest.observe response).1).2 = quantity)
    (htolerance : request.tolerance < quantity) (hterminal : Terminal state.latest.status)
    {back : List AdapterEvent} {result : CloseReconciliationResult}
    (hback : Plays (request.loop left (attempt + 1) (retried state quantity)) back (.ok result))
    (hsize : ∀ event ∈ back, WithinSize event) :
    ∃ transcript, Plays (request.loop (left + 1) attempt state) transcript (.ok result) ∧
      ∀ event ∈ transcript, WithinSize event := by
  have hnone : request.settled state (CloseRequest.observe response) = none := by
    unfold CloseRequest.settled
    dsimp only
    rw [hresidual, if_neg (not_le.mpr htolerance), if_neg (not_not.mpr hterminal)]
  have hexecutable : max 0 (request.normalizeQuantity quantity) = quantity := by
    rw [hnormalize]
    exact max_eq_right hquantity.le
  have hintent : (request.retryIntent attempt quantity quantity).quantity = quantity := min_self _
  let intent := request.retryIntent attempt quantity quantity
  refine ⟨⟨.queryPosition, response⟩ :: ([⟨.placeMarketOrder intent, .ok {}⟩,
    ⟨.waitForFill intent "" request.maxWaitSec, .ok (some (retryFill quantity))⟩] ++ back), ?_, ?_⟩
  · unfold CloseRequest.loop
    refine .call _ ?_
    dsimp only
    rw [hnone, hresidual, hexecutable, if_neg (not_le.mpr htolerance)]
    refine plays_bind.mpr (Or.inr ⟨_, _, back, rfl, .call _ (.call _ (.done _)), ?_⟩)
    rw [if_neg (by simp [MarketOrderExecutor.observed])]
    have hmax : max 0 (MarketOrderExecutor.observed {} (retryFill quantity)).filledQty =
        quantity := by
      rw [observed_retryFill hquantity]
      exact max_eq_right hquantity.le
    rw [hmax]
    exact hback
  · intro event he
    rcases List.mem_cons.mp he with rfl | he
    · trivial
    · rcases List.mem_append.mp he with he | he
      · simp only [List.mem_cons, List.not_mem_nil, or_false] at he
        rcases he with rfl | rfl
        · show (0 : Amount) ≤ intent.quantity
          rw [hintent]
          exact hquantity.le
        · show quantity ≤ intent.quantity
          rw [hintent]
      · exact hsize event he

theorem residual_of_filled {state : CloseState} {excess : Amount}
    (hfull : fullAccountClose request.target request.before)
    (hgap : fillGap request state.totalFilled ≤ closeEpsilon) (hexcess : closeEpsilon < excess) :
    (request.residual state (some (expectedPosition request + excess))).2 = excess := by
  have htarget : max 0 request.target = request.target := max_eq_right (le_max_left _ _)
  have hbefore : max 0 request.before = request.before := max_eq_right (le_max_left _ _)
  have hexpected : 0 ≤ expectedPosition request := le_max_left _ _
  have hpos : 0 < closeEpsilon := by
    unfold closeEpsilon
    norm_num
  have hposition : max 0 (max 0 (expectedPosition request + excess) - expectedPosition request) =
      excess := by
    have hsum : 0 ≤ expectedPosition request + excess := by linarith
    rw [max_eq_right hsum, add_sub_cancel_left]
    exact max_eq_right (by linarith)
  unfold CloseRequest.residual closeTargetRemaining
  simp only [htarget, hbefore]
  change (if max 0 (max 0 (expectedPosition request + excess) - expectedPosition request) ≤
      closeEpsilon then (expectedPosition request, (0 : Amount))
    else if fillGap request state.totalFilled ≤ closeEpsilon then
      (expectedPosition request, if fullAccountClose request.target request.before then
        max 0 (max 0 (expectedPosition request + excess) - expectedPosition request) else 0)
    else _).2 = excess
  rw [hposition, if_neg (not_le.mpr hexcess), if_pos hgap, if_pos hfull]

theorem settled_of_expected (request : CloseRequest) (state : CloseState) :
    ∃ result, request.settled state (CloseRequest.observe (.ok (expectedPosition request))) =
        some result ∧ result.retryResults = state.retries := by
  have hexpected : 0 ≤ expectedPosition request := le_max_left _ _
  have hobserve : CloseRequest.observe (.ok (expectedPosition request)) =
      (some (expectedPosition request), "") := if_neg (not_lt.mpr hexpected)
  have htarget : max 0 request.target = request.target := max_eq_right (le_max_left _ _)
  have hbefore : max 0 request.before = request.before := max_eq_right (le_max_left _ _)
  have hpos : 0 < closeEpsilon := by
    unfold closeEpsilon
    norm_num
  have hresidual : (request.residual state (some (expectedPosition request))).2 = 0 := by
    have hposition : max 0 (max 0 (expectedPosition request) - expectedPosition request) = 0 := by
      rw [max_eq_right hexpected, sub_self, max_self]
    unfold CloseRequest.residual closeTargetRemaining
    simp only [htarget, hbefore]
    change (if max 0 (max 0 (expectedPosition request) - expectedPosition request) ≤
        closeEpsilon then (expectedPosition request, (0 : Amount)) else _).2 = 0
    rw [hposition, if_pos hpos.le]
  refine ⟨request.result state (some (expectedPosition request), "") .closed 0, ?_, rfl⟩
  unfold CloseRequest.settled
  rw [hobserve]
  dsimp only
  rw [hresidual, if_pos (tolerance_pos request).le]

theorem exists_enlarged (left attempt : ℕ) {state : CloseState}
    (hnormalize : request.normalizeQuantity = id)
    (hfull : fullAccountClose request.target request.before)
    (hgap : fillGap request state.totalFilled ≤ closeEpsilon)
    (hterminal : Terminal state.latest.status) {excess : Amount}
    (hexcess : request.tolerance < excess) :
    ∃ transcript result, Plays (request.loop (left + 1) attempt state) transcript (.ok result) ∧
      (∀ event ∈ transcript, WithinSize event) ∧
      result.retryResults = (retried state excess).retries := by
  have hepsilon : closeEpsilon < excess := (le_max_left closeEpsilon _).trans_lt hexcess
  have hpos : 0 < excess := lt_trans (by unfold closeEpsilon; norm_num) hepsilon
  have hobserve : CloseRequest.observe (.ok (expectedPosition request + excess)) =
      (some (expectedPosition request + excess), "") :=
    if_neg (not_lt.mpr (add_nonneg (le_max_left _ _) hpos.le))
  obtain ⟨result, hsettled, hretries⟩ := settled_of_expected request
    (retried state excess)
  obtain ⟨transcript, hplays, hsize⟩ := plays_retry
    (.ok (expectedPosition request + excess)) hpos hnormalize (by rw [hobserve]; exact residual_of_filled hfull hgap hepsilon) hexcess hterminal
    (plays_settled left (attempt + 1) hsettled) (by simp [WithinSize])
  exact ⟨transcript, result, hplays, hsize, hretries⟩

end Enlarged

/-! ## The exact bound -/

/-- A close as the retry loop is called with it, up to what the environment supplies. -/
def closeRequest (intent : OrderIntent) (initial : OrderExecutionResult) (pre : Amount)
    (normalize : Amount → Amount) (ids : ℕ → String) (wait : Amount) : CloseRequest where
  intent := intent
  initialResult := initial
  prePosition := pre
  normalizeQuantity := normalize
  clientOrderId := ids
  maxWaitSec := wait

theorem exists_exceeding {request : CloseRequest} {maxRetries : ℕ}
    (hnormalize : request.normalizeQuantity = id) (h : ¬ Contained request maxRetries) :
    ∃ transcript result, Plays (request.reconcile maxRetries) transcript (.ok result) ∧
      (∀ event ∈ transcript, WithinSize event) ∧
      closeLimit request * (1 + 1 / 10 ^ 9) < closeFills request result := by
  unfold Contained at h
  rw [not_or, not_or, not_not, not_not] at h
  obtain ⟨hterminal, hfull, hretries⟩ := h
  have htarget : 0 ≤ request.target := le_max_left _ _
  have hinitial : 0 ≤ request.start.totalFilled := le_max_left _ _
  have hlimit : 0 ≤ closeLimit request := le_trans htarget (le_max_right _ _)
  have htargetLe : request.target ≤ closeLimit request := le_max_right _ _
  -- The excess that the account shows is larger than everything the close is about.
  have hexcess : request.tolerance < 2 * closeLimit request + 1 := by
    unfold CloseRequest.tolerance closeEpsilon
    refine max_lt ?_ ?_
    · linarith [show (1 : Amount) / 10 ^ 12 < 1 by norm_num]
    · nlinarith
  have hfill := observed_retryFill ((tolerance_pos request).trans hexcess)
  have hgapStart : fillGap request request.start.totalFilled =
      fillGap request request.initialResult.filledQty := by
    show max 0 (request.target - max 0 (max 0 request.initialResult.filledQty)) = _
    rw [max_eq_right (le_max_left 0 request.initialResult.filledQty)]
    rfl
  by_cases hgap : fillGap request request.initialResult.filledQty ≤ closeEpsilon
  · have hone : maxRetries ≠ 0 := by
      intro hzero
      refine hretries ⟨fun _ => hzero, fun _ => ?_⟩
      omega
    obtain ⟨left, rfl⟩ := Nat.exists_eq_succ_of_ne_zero hone
    obtain ⟨transcript, result, hplays, hsize, hresults⟩ := exists_enlarged left 0 hnormalize
      hfull (hgapStart.le.trans hgap) hterminal hexcess
    refine ⟨transcript, result, hplays, hsize, ?_⟩
    have hsum : closeFills request result =
        request.start.totalFilled + max 0 (2 * closeLimit request + 1) := by
      unfold closeFills
      rw [hresults]
      simp only [retried, CloseRequest.start, List.nil_append, List.map_singleton,
        List.sum_singleton, hfill]
    rw [hsum, max_eq_right (by linarith)]
    nlinarith
  · have htolerance : request.tolerance < fillGap request request.initialResult.filledQty := by
      by_contra hsmall
      exact hretries ⟨fun h => absurd h hgap, fun h => absurd h hsmall⟩
    have htwo : 1 < maxRetries := by
      by_contra hfew
      exact hretries ⟨fun h => absurd h hgap, fun _ => by omega⟩
    obtain ⟨left, rfl⟩ : ∃ left, maxRetries = left + 2 := ⟨maxRetries - 2, by omega⟩
    have hunfilled : fillGap request request.initialResult.filledQty =
        request.target - request.start.totalFilled := by
      have hpos := (tolerance_pos request).trans htolerance
      unfold fillGap at hpos ⊢
      refine max_eq_right (not_lt.mp fun hneg => ?_)
      rw [max_eq_left hneg.le] at hpos
      exact lt_irrefl 0 hpos
    have hfilled : fillGap request (retried request.start
        (fillGap request request.initialResult.filledQty)).totalFilled ≤ closeEpsilon := by
      have htotal : (retried request.start
          (fillGap request request.initialResult.filledQty)).totalFilled = request.target := by
        show request.start.totalFilled + fillGap request request.initialResult.filledQty = _
        rw [hunfilled]
        ring
      rw [htotal]
      show max 0 (request.target - max 0 request.target) ≤ closeEpsilon
      rw [max_eq_right htarget, sub_self, max_self]
      unfold closeEpsilon
      norm_num
    have hresidual : (request.residual request.start none).2 =
        fillGap request request.initialResult.filledQty := by
      rw [← hgapStart]
      show max 0 (max 0 request.target - max 0 request.start.totalFilled) = _
      rw [max_eq_right htarget]
      rfl
    -- The first retry fills the rest of the target, the second sells what the account shows.
    obtain ⟨back, result, hback, hbackSize, hresults⟩ := exists_enlarged left 1 hnormalize hfull
      hfilled (show Terminal "filled" by decide +kernel) hexcess
    have hpos := (tolerance_pos request).trans htolerance
    obtain ⟨transcript, hplays, hsize⟩ := plays_retry (.error (.other "")) hpos hnormalize
      hresidual htolerance hterminal hback hbackSize
    refine ⟨transcript, result, hplays, hsize, ?_⟩
    have hsum : closeFills request result = request.start.totalFilled +
        (max 0 (fillGap request request.initialResult.filledQty) +
          max 0 (2 * closeLimit request + 1)) := by
      unfold closeFills
      rw [hresults]
      simp only [retried, CloseRequest.start, List.nil_append, List.map_singleton,
        List.sum_singleton, hfill, List.map_append, List.sum_append, observed_retryFill hpos]
    rw [hsum, max_eq_right hpos.le, max_eq_right (by linarith)]
    nlinarith

/-- A close of the intent stays within its limit: whatever the account, the exchange and the
rounding of quantities do, the fills are at most the larger of the first fill and the target,
up to the tolerance. -/
def ClosesWithinTarget (intent : OrderIntent) (initial : OrderExecutionResult) (pre : Amount)
    (maxRetries : ℕ) : Prop :=
  ∀ (normalize : Amount → Amount) (ids : ℕ → String) (wait : Amount),
    (∀ quantity, normalize quantity ≤ quantity) →
    ∀ (transcript : List AdapterEvent) (result : CloseReconciliationResult),
      Plays ((closeRequest intent initial pre normalize ids wait).reconcile maxRetries)
        transcript (.ok result) →
      (∀ event ∈ transcript, WithinSize event) →
      closeFills (closeRequest intent initial pre normalize ids wait) result ≤
        closeLimit (closeRequest intent initial pre normalize ids wait) * (1 + 1 / 10 ^ 9)

/-- A close stays within its limit exactly when it is contained. -/
theorem close_within_target_iff (intent : OrderIntent) (initial : OrderExecutionResult)
    (pre : Amount) (maxRetries : ℕ) :
    ClosesWithinTarget intent initial pre maxRetries ↔
      Contained (closeRequest intent initial pre id (fun _ => "") 12) maxRetries := by
  constructor
  · intro hwithin
    by_contra hopen
    obtain ⟨transcript, result, hplays, hsize, hexceeds⟩ := exists_exceeding rfl hopen
    have hle := hwithin id (fun _ => "") 12 (fun _ => le_refl _) transcript result hplays hsize
    exact absurd hexceeds (not_lt.mpr hle)
  · intro hcontained normalize ids wait _ transcript result hplays hsize
    have hfills : closeFills (closeRequest intent initial pre normalize ids wait) result ≤
        closeLimit (closeRequest intent initial pre normalize ids wait) := by
      have hsame : Contained (closeRequest intent initial pre normalize ids wait) maxRetries :=
        hcontained
      exact contained_fills_le hsame hplays hsize
    have hlimit : 0 ≤ closeLimit (closeRequest intent initial pre normalize ids wait) :=
      le_trans (le_max_left _ _) (le_max_left _ _)
    linarith [mul_nonneg hlimit (show (0 : Amount) ≤ 1 / 10 ^ 9 by norm_num)]

/-- One share of a strategy is sold completely out of an account that held only it, and the
two retries of the default are allowed. A share that someone else buys in the meantime is
then sold too. -/
theorem close_sells_others_share :
    ¬ ClosesWithinTarget ⟨"BTC/USDT", "sell", 1, "spot", 0, "", true, none, none, 1, "cash",
        false, 0⟩ ⟨true, "", "7", 1, 100, "filled", "", Dict.empty, none, none⟩ 1 2 := by
  intro hwithin
  let request := closeRequest ⟨"BTC/USDT", "sell", 1, "spot", 0, "", true, none, none, 1,
    "cash", false, 0⟩ ⟨true, "", "7", 1, 100, "filled", "", Dict.empty, none, none⟩ 1 id
    (fun _ => "") 12
  have htarget : request.target = 1 := by decide +kernel
  have hfull : fullAccountClose request.target request.before := by decide +kernel
  have hgap : fillGap request request.start.totalFilled ≤ closeEpsilon := by decide +kernel
  have hterminal : Terminal request.start.latest.status := by decide +kernel
  have hexcess : request.tolerance < 1 := by decide +kernel
  obtain ⟨transcript, result, hplays, hsize, hresults⟩ :=
    @exists_enlarged request 1 0 _ rfl hfull hgap hterminal 1 hexcess
  have hfills : closeFills request result = 2 := by
    unfold closeFills
    rw [hresults]
    decide +kernel
  have hlimit : closeLimit request = 1 := by decide +kernel
  have hle := hwithin id (fun _ => "") 12 (fun _ => le_refl _) transcript result hplays hsize
  change closeFills request result ≤ closeLimit request * (1 + 1 / 10 ^ 9) at hle
  rw [hfills, hlimit] at hle
  norm_num at hle

end QuantDinger.Analysis
