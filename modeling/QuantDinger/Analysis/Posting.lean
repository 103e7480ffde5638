import Mathlib.Tactic.Linarith
import QuantDinger.Model.FillPosting

/-!
# What the posting transactions do

A cumulative snapshot posts its unposted part or nothing, and so does an event of the private
stream. The cases are stated once here; the invariants of the interleavings use them.
-/

namespace QuantDinger.Analysis

open QuantDinger.Library QuantDinger.Model QuantDinger.Model.Live

/-- Nothing of the cumulative snapshot is left to post. -/
def NothingUnposted (store : OrderStore) (cumulative average : Amount) : Prop :=
  ∀ quantity price, cumulativeDelta store.postedQuantity store.postedAverage cumulative average =
    .ok (quantity, price) → quantity ≤ 0

def EventPosted (store : OrderStore) (event : ExecutionEvent) : Prop :=
  store.alreadyProjected event.id ∨
    ∀ combined response delta price,
      combinePendingSnapshot event store.row.response = .ok (combined, response) →
      projectedDelta combined store.postedQuantity store.postedAverage = .ok (delta, price) →
      ¬ (1 / 10 ^ 12 < delta ∧ 0 < price)

section Posting

variable {store : OrderStore}

theorem cumulativeDelta_pos {previousQty previousAvg totalQty totalAvg quantity price : Amount}
    (h : cumulativeDelta previousQty previousAvg totalQty totalAvg = .ok (quantity, price))
    (hpos : 0 < quantity) :
    quantity = totalQty - previousQty ∧
      price = (totalQty * totalAvg - previousQty * previousAvg) / (totalQty - previousQty) ∧
      0 < price ∧ previousQty + quantityTolerance previousQty totalQty < totalQty := by
  unfold cumulativeDelta at h
  dsimp only at h
  split_ifs at h with hneg hstale havg hprevious hprice
  · cases h
    exact absurd hpos (lt_irrefl 0)
  · cases h
    exact ⟨rfl, rfl, not_le.mp hprice, not_le.mp hstale⟩

theorem cumulativeDelta_ok {previousQty previousAvg totalQty totalAvg : Amount}
    (hprevious : 0 ≤ previousQty)
    (hgrown : previousQty + quantityTolerance previousQty totalQty < totalQty)
    (havg : 0 < totalAvg) (hpriced : 0 < previousQty → 0 < previousAvg)
    (hvalue : previousQty * previousAvg < totalQty * totalAvg) :
    cumulativeDelta previousQty previousAvg totalQty totalAvg =
      .ok (totalQty - previousQty,
        (totalQty * totalAvg - previousQty * previousAvg) / (totalQty - previousQty)) := by
  have htolerance : 0 < quantityTolerance previousQty totalQty :=
    lt_of_lt_of_le (by norm_num) (le_max_left _ _)
  have hless : previousQty < totalQty := by linarith
  have hprice : 0 < (totalQty * totalAvg - previousQty * previousAvg) / (totalQty - previousQty) :=
    div_pos (by linarith) (by linarith)
  have hmin : ¬ min previousQty totalQty < 0 :=
    not_lt.mpr (le_min hprevious (hprevious.trans hless.le))
  have hold : ¬ (0 < previousQty ∧ previousAvg ≤ 0) :=
    fun hboth => absurd hboth.2 (not_le.mpr (hpriced hboth.1))
  unfold cumulativeDelta
  dsimp only
  rw [if_neg hmin, if_neg (not_le.mpr hgrown), if_neg (not_le.mpr havg), if_neg hold,
    if_neg (not_le.mpr hprice)]

theorem appendFill_ok {filled price : Amount} (eventId : ℕ) (hfilled : 1 / 10 ^ 12 < filled)
    (hprice : 0 < price) :
    store.appendFill filled price eventId =
      .ok { store with
        trades := store.trades ++ [⟨filled, price, eventId⟩]
        intent := .partiallyFilled } := by
  have hpos : 0 < filled := lt_trans (by norm_num) hfilled
  unfold OrderStore.appendFill requireExecution OrderStore.recordRuntimeFill
  rw [abs_of_pos hpos, if_neg (not_le.mpr hfilled), if_pos ⟨hpos, hprice⟩]
  simp only [if_pos hpos]

variable (store) in
theorem persistCumulative_cases (cumulative average : Amount) :
    (∃ quantity price,
      cumulativeDelta store.postedQuantity store.postedAverage cumulative average =
          .ok (quantity, price) ∧ 0 < quantity ∧
        store.persistCumulative cumulative average =
          .ok { store with
            trades := store.trades ++ [⟨quantity, price, 0⟩]
            intent := .partiallyFilled }) ∨
      (NothingUnposted store cumulative average ∧
        (store.persistCumulative cumulative average = .ok store ∨
          ∃ e, store.persistCumulative cumulative average = .error e)) := by
  unfold OrderStore.persistCumulative NothingUnposted
  cases hdelta : cumulativeDelta store.postedQuantity store.postedAverage cumulative average with
  | error e => exact Or.inr ⟨fun _ _ hok => (nomatch hok), Or.inr ⟨e, rfl⟩⟩
  | ok pair =>
    obtain ⟨quantity, price⟩ := pair
    by_cases hquantity : quantity ≤ 0
    · refine Or.inr ⟨fun _ _ hok => ?_, Or.inl ?_⟩
      · cases hok
        exact hquantity
      · simp only [if_pos hquantity, ite_self]
    · have hpos := not_le.mp hquantity
      obtain ⟨hq, -, hprice, hgrown⟩ := cumulativeDelta_pos hdelta hpos
      have htolerance : (1 : Amount) / 10 ^ 12 ≤
          quantityTolerance store.postedQuantity cumulative := le_max_left _ _
      refine Or.inl ⟨quantity, price, rfl, hpos, ?_⟩
      have hnew : ¬ cumulative + 1 / 10 ^ 12 < store.postedQuantity := by
        have : (0 : Amount) < 1 / 10 ^ 12 := by norm_num
        linarith
      simp only [if_neg hnew, if_neg hquantity]
      exact appendFill_ok 0 (by linarith) hprice

theorem combined_id {event combined : ExecutionEvent} {response response' : ExchangeResponse}
    (h : combinePendingSnapshot event response = .ok (combined, response')) :
    combined.id = event.id := by
  have hleg : ∀ {matching other : ExecutorLeg} {last : Bool} {leg : ExecutorLeg}
      {result : ExecutionEvent}, combineLeg event matching other last = .ok (result, leg) →
        result.id = event.id := by
    intro matching other last leg result hresult
    unfold combineLeg at hresult
    dsimp only at hresult
    split at hresult
    · cases hresult
      rfl
    · split at hresult
      · cases hresult
        rfl
      · cases hresult
      · cases hresult
  unfold combinePendingSnapshot at h
  dsimp only at h
  split at h
  · split at h
    · split at h
      · cases h
      · rename_i hresult
        cases h
        exact hleg hresult
    · split at h
      · split at h
        · cases h
        · rename_i hresult
          cases h
          exact hleg hresult
      · cases h
  · cases h
    rfl

/-- The store after an event whose unposted part is `delta`. -/
def projectedStore (store : OrderStore) (event : ExecutionEvent) (response : ExchangeResponse)
    (delta price : Amount) : OrderStore :=
  store.recordEvent response (projectedTarget event store.postedQuantity)
    (projectedAverage store.postedQuantity store.postedAverage
      (projectedTarget event store.postedQuantity) delta price)
    (eventQueueStatus event.orderStatus)

variable (store) in
theorem projectPendingOrder_cases (event : ExecutionEvent) :
    (EventPosted store event ∧ store.commit (store.projectPendingOrder event) = store) ∨
      ∃ combined response delta price,
        combinePendingSnapshot event store.row.response = .ok (combined, response) ∧
        projectedDelta combined store.postedQuantity store.postedAverage = .ok (delta, price) ∧
        ((EventPosted store event ∧ ¬ (1 / 10 ^ 12 < delta ∧ 0 < price) ∧
            store.projectPendingOrder event =
              .ok (projectedStore store combined response delta price)) ∨
          (¬ EventPosted store event ∧ 1 / 10 ^ 12 < delta ∧ 0 < price ∧
            store.projectPendingOrder event =
              .ok { projectedStore store combined response delta price with
                trades := store.trades ++ [⟨delta, price, combined.id⟩]
                intent := .partiallyFilled })) := by
  unfold OrderStore.projectPendingOrder
  by_cases hdone : store.alreadyProjected event.id
  · rw [if_pos hdone]
    exact Or.inl ⟨Or.inl hdone, rfl⟩
  rw [if_neg hdone]
  cases hcombine : combinePendingSnapshot event store.row.response with
  | error e =>
    refine Or.inl ⟨Or.inr fun combined response delta price hok => ?_, rfl⟩
    rw [hcombine] at hok
    cases hok
  | ok pair =>
    obtain ⟨combined, response⟩ := pair
    dsimp only
    cases hdelta : projectedDelta combined store.postedQuantity store.postedAverage with
    | error e =>
      refine Or.inl ⟨Or.inr fun combined' response' delta price hok hdelta' => ?_, rfl⟩
      rw [hcombine] at hok
      cases hok
      rw [hdelta] at hdelta'
      cases hdelta'
    | ok pair =>
      obtain ⟨delta, price⟩ := pair
      refine Or.inr ⟨combined, response, delta, price, rfl, hdelta, ?_⟩
      dsimp only
      by_cases hposts : 1 / 10 ^ 12 < delta ∧ 0 < price
      · have hid : combined.id = event.id := combined_id hcombine
        have hnew : ¬ (projectedStore store combined response delta price).alreadyProjected
            combined.id := by
          rw [hid]
          exact hdone
        refine Or.inr ⟨fun hposted => ?_, hposts.1, hposts.2, ?_⟩
        · rcases hposted with hposted | hposted
          · exact hdone hposted
          · exact hposted _ _ _ _ hcombine hdelta hposts
        · rw [if_pos hposts]
          show (projectedStore store combined response delta price).persistEvent combined.id
            delta price = _
          unfold OrderStore.persistEvent
          rw [if_neg hnew, appendFill_ok combined.id hposts.1 hposts.2]
          rfl
      · refine Or.inl ⟨Or.inr fun combined' response' delta' price' hok hdelta' => ?_, hposts, ?_⟩
        · rw [hcombine] at hok
          cases hok
          rw [hdelta] at hdelta'
          cases hdelta'
          exact hposts
        · rw [if_neg hposts]
          rfl

variable (store) in
theorem commit_syncPersist (row : PendingOrder) (answer : RestAnswer) :
    (∃ plan, syncPlan row answer = .ok plan ∧ plan.posts = true ∧
        store.syncPersist row answer =
          store.persistCumulative plan.aggregateFilled plan.aggregateAvg) ∨
      ((∀ plan, syncPlan row answer = .ok plan → plan.posts = false) ∧
        store.commit (store.syncPersist row answer) = store) := by
  unfold OrderStore.syncPersist
  cases hplan : syncPlan row answer with
  | error e => exact Or.inr ⟨fun plan hok => (nomatch hok), rfl⟩
  | ok plan =>
    cases hposts : plan.posts with
    | true => exact Or.inl ⟨plan, rfl, hposts, by simp only [hposts, if_true]⟩
    | false =>
      refine Or.inr ⟨fun plan' hok => ?_, ?_⟩
      · cases hok
        exact hposts
      · simp only [hposts, Bool.false_eq_true, if_false]
        rfl

end Posting

/-! ## The figures of a synchronisation -/

section Plan

variable {row : PendingOrder} {answer : RestAnswer}

/-- The baseline of the order that a synchronisation tracks. -/
def baselineOf (row : PendingOrder) (answer : RestAnswer) : FillMarker :=
  trackedFillBaseline row.response (trackedOrderId row answer) (max 0 row.filled)
    (max 0 row.avgPrice)

def growthOf (row : PendingOrder) (answer : RestAnswer) : Amount :=
  max 0 answer.cumulativeFilled - (baselineOf row answer).trackedFilled

/-- The average of the totals after the growth. -/
def grownAverage (previousFilled previousAvg delta deltaAvg : Amount) : Amount :=
  if 0 < previousFilled ∧ 0 < previousAvg then
    (previousFilled * previousAvg + delta * deltaAvg) / (previousFilled + delta)
  else deltaAvg

theorem grownAverage_value {filled average delta deltaAvg : Amount} (hfilled : 0 ≤ filled)
    (hpriced : 0 < filled → 0 < average) (hdelta : 0 < delta) :
    (filled + delta) * grownAverage filled average delta deltaAvg =
      filled * average + delta * deltaAvg := by
  unfold grownAverage
  rcases hfilled.eq_or_lt with hzero | hpos
  · rw [← hzero, if_neg (fun hboth => lt_irrefl 0 hboth.1)]
    ring
  · rw [if_pos ⟨hpos, hpriced hpos⟩]
    exact mul_div_cancel₀ _ (by linarith)

theorem combine_of_noMarket {response : ExchangeResponse}
    (h : (response.phases.getD {}).marketSummary = none) (event : ExecutionEvent) :
    combinePendingSnapshot event response = .ok (event, response) := by
  have hleg : namedLeg (response.phases.getD {}).marketSummary = none := by
    rw [h]
    rfl
  unfold combinePendingSnapshot
  dsimp only
  rw [hleg]
  cases namedLeg (response.phases.getD {}).limitSummary with
  | none => rfl
  | some limit => rfl

variable (hmarket : (row.response.phases.getD {}).marketSummary = none)

include hmarket

theorem syncPlan_silent
    (h : ¬ (fillDeltaEpsilon < max 0 answer.cumulativeFilled ∧ 0 < max 0 answer.cumulativeAvg)) :
    syncPlan row answer =
      .ok ⟨growthOf row answer, max 0 row.filled, max 0 row.avgPrice, false⟩ := by
  unfold syncPlan
  dsimp only
  rw [combine_of_noMarket hmarket]
  dsimp only
  rw [if_neg h]
  rfl

theorem syncPlan_priced
    (h : fillDeltaEpsilon < max 0 answer.cumulativeFilled ∧ 0 < max 0 answer.cumulativeAvg)
    {totals : Except FillError (Amount × Amount)}
    (htotals : grownTotals (max 0 row.filled) (max 0 row.avgPrice) (growthOf row answer)
      (growthAverage answer (baselineOf row answer) (growthOf row answer)) = totals) :
    syncPlan row answer = totals.bind fun total =>
      if growthOf row answer ≤ fillDeltaEpsilon then
        Except.ok ⟨0, max 0 row.filled, max 0 row.avgPrice, true⟩
      else Except.ok ⟨growthOf row answer, total.1, total.2, true⟩ := by
  unfold growthOf baselineOf at htotals ⊢
  unfold syncPlan
  dsimp only
  rw [combine_of_noMarket hmarket]
  dsimp only
  rw [if_pos h, htotals]
  cases totals with
  | error e => rfl
  | ok total => rfl

theorem syncPlan_grown
    (h : fillDeltaEpsilon < max 0 answer.cumulativeFilled ∧ 0 < max 0 answer.cumulativeAvg)
    (hgrown : fillDeltaEpsilon < growthOf row answer) :
    syncPlan row answer = .ok ⟨growthOf row answer, max 0 row.filled + growthOf row answer,
      grownAverage (max 0 row.filled) (max 0 row.avgPrice) (growthOf row answer)
        (growthAverage answer (baselineOf row answer) (growthOf row answer)), true⟩ := by
  have hfilled : (0 : Amount) ≤ max 0 row.filled := le_max_left _ _
  have hpos : (0 : Amount) < fillDeltaEpsilon := by
    unfold fillDeltaEpsilon
    norm_num
  have hsum : max 0 row.filled + growthOf row answer ≠ 0 := by
    apply ne_of_gt
    linarith
  have htotals : grownTotals (max 0 row.filled) (max 0 row.avgPrice) (growthOf row answer)
      (growthAverage answer (baselineOf row answer) (growthOf row answer)) =
      .ok (max 0 row.filled + growthOf row answer,
        grownAverage (max 0 row.filled) (max 0 row.avgPrice) (growthOf row answer)
          (growthAverage answer (baselineOf row answer) (growthOf row answer))) := by
    unfold grownTotals grownAverage
    rw [if_neg hsum]
    split <;> rfl
  rw [syncPlan_priced hmarket h htotals]
  exact if_neg (not_le.mpr hgrown)

theorem syncPlan_stale
    (h : fillDeltaEpsilon < max 0 answer.cumulativeFilled ∧ 0 < max 0 answer.cumulativeAvg)
    (hstale : growthOf row answer ≤ fillDeltaEpsilon) :
    syncPlan row answer = .ok ⟨0, max 0 row.filled, max 0 row.avgPrice, true⟩ ∨
      (0 < max 0 row.filled ∧ max 0 row.filled + growthOf row answer = 0 ∧
        syncPlan row answer = .error .zeroDivision) := by
  cases htotals : grownTotals (max 0 row.filled) (max 0 row.avgPrice) (growthOf row answer)
      (growthAverage answer (baselineOf row answer) (growthOf row answer)) with
  | ok total =>
    rw [syncPlan_priced hmarket h htotals]
    exact Or.inl (if_pos hstale)
  | error e =>
    rw [syncPlan_priced hmarket h htotals]
    unfold grownTotals at htotals
    split_ifs at htotals with hrow hzero
    · cases htotals
      exact Or.inr ⟨hrow.1, hzero, rfl⟩

end Plan

/-! ## The baseline of an order with one leg -/

section SingleLeg

/-- The response of an order that was executed as one exchange order. -/
def SingleLeg (response : ExchangeResponse) : Prop :=
  (response.phases.getD {}).marketSummary = none ∧
    (((response.phases.getD {}).closeReconciliation).map CloseMetadata.retryOrders).getD [] = []

theorem trackedLegs_single {response : ExchangeResponse} (h : SingleLeg response)
    (orderId : String) :
    trackedLegs (response.phases.getD {}) orderId =
      if orderId = "" then [⟨0, 0⟩] else [] := by
  unfold trackedLegs
  rw [h.1, h.2]
  simp [eq_comm]

variable (row : PendingOrder) (hsingle : SingleLeg row.response)

include hsingle

theorem baseline_of_marker {marker : FillMarker} (hmarker : row.response.liveFillSync = some marker)
    (hle : row.filled ≤ marker.trackedFilled) (hnonneg : 0 ≤ marker.trackedFilled)
    (answer : RestAnswer) :
    (baselineOf row answer).trackedFilled = marker.trackedFilled := by
  unfold baselineOf trackedFillBaseline
  dsimp only
  rw [trackedLegs_single hsingle, hmarker]
  by_cases hid : trackedOrderId row answer = ""
  · simp [hid, furthest, hnonneg, not_lt.mpr hnonneg]
  · simp [hid, furthest, hnonneg, not_lt.mpr hnonneg, not_lt.mpr hle]

theorem baseline_of_row (hmarker : row.response.liveFillSync = none)
    (hid : row.exchangeOrderId ≠ "" ∨ row.filled = 0) (hnonneg : 0 ≤ row.filled)
    (answer : RestAnswer) : (baselineOf row answer).trackedFilled = row.filled := by
  unfold baselineOf trackedFillBaseline
  dsimp only
  rw [trackedLegs_single hsingle, hmarker]
  by_cases htracked : trackedOrderId row answer = ""
  · have hempty : row.exchangeOrderId = "" := by
      by_contra hne
      unfold trackedOrderId textOrElse at htracked
      rw [if_neg hne] at htracked
      exact hne htracked
    have hzero : row.filled = 0 := hid.resolve_left (not_not.mpr hempty)
    simp [htracked, hzero]
  · simp [htracked, hnonneg]

end SingleLeg

theorem syncSnapshot_ok {row : PendingOrder} {answer : RestAnswer} {plan : SyncPlan}
    (h : syncPlan row answer = .ok plan) :
    ∃ update, syncSnapshot row answer = .ok update ∧ update.filled = plan.aggregateFilled ∧
      update.avgPrice = plan.aggregateAvg ∧
      update.response =
        { liveFillSync := some ⟨max 0 answer.cumulativeFilled, max 0 answer.cumulativeAvg⟩
          phases := row.response.phases } := by
  unfold syncSnapshot
  rw [h]
  exact ⟨_, rfl, rfl, rfl, rfl⟩

/-! ## The posted totals -/

section Totals

variable {store : OrderStore}

/-- The trades have a sign: without a quantity they have no value. -/
def Posted (store : OrderStore) : Prop :=
  0 ≤ store.postedQuantity ∧ (store.postedQuantity = 0 → store.postedValue = 0)

theorem postedValue_eq (h : Posted store) :
    store.postedValue = store.postedQuantity * store.postedAverage := by
  unfold OrderStore.postedAverage
  rcases h.1.eq_or_lt with hzero | hpos
  · rw [h.2 hzero.symm, ← hzero, zero_mul]
  · rw [if_pos hpos, mul_div_cancel₀ _ hpos.ne']

theorem posted_append (trade : StrategyTrade) (intent : IntentStatus) (row : PendingOrder) :
    (OrderStore.mk row (store.trades ++ [trade]) intent).postedQuantity =
        store.postedQuantity + trade.amount ∧
      (OrderStore.mk row (store.trades ++ [trade]) intent).postedValue =
        store.postedValue + trade.amount * trade.price := by
  unfold OrderStore.postedQuantity OrderStore.postedValue
  simp only [List.map_append, List.map_singleton, List.sum_append, List.sum_singleton,
    and_self]

theorem totals_of_unposted (h : Posted store) {cumulative average quantity price : Amount}
    (hdelta : cumulativeDelta store.postedQuantity store.postedAverage cumulative average =
      .ok (quantity, price)) (hpos : 0 < quantity) :
    store.postedQuantity + quantity = cumulative ∧
      store.postedValue + quantity * price = cumulative * average := by
  obtain ⟨hquantity, hprice, -, -⟩ := cumulativeDelta_pos hdelta hpos
  have hne : cumulative - store.postedQuantity ≠ 0 := by
    rw [← hquantity]
    exact hpos.ne'
  refine ⟨by linarith, ?_⟩
  rw [hprice, hquantity, mul_div_cancel₀ _ hne, postedValue_eq h]
  ring

theorem cumulativeDelta_stale {previousQty previousAvg totalQty totalAvg : Amount}
    (hnonneg : 0 ≤ totalQty) (h : totalQty ≤ previousQty) :
    cumulativeDelta previousQty previousAvg totalQty totalAvg = .ok (0, 0) := by
  have htolerance : 0 < quantityTolerance previousQty totalQty :=
    lt_of_lt_of_le (by norm_num) (le_max_left _ _)
  have hmin : ¬ min previousQty totalQty < 0 := not_lt.mpr (le_min (hnonneg.trans h) hnonneg)
  unfold cumulativeDelta
  rw [if_neg hmin, if_pos (by linarith)]

theorem persistCumulative_stale {cumulative average : Amount} (hnonneg : 0 ≤ cumulative)
    (h : cumulative ≤ store.postedQuantity) :
    store.persistCumulative cumulative average = .ok store := by
  unfold OrderStore.persistCumulative
  rw [cumulativeDelta_stale hnonneg h]
  dsimp only
  rw [if_pos (le_refl 0), ite_self]

theorem nothingUnposted_of_le {cumulative average : Amount}
    (h : cumulative ≤ store.postedQuantity) : NothingUnposted store cumulative average := by
  intro quantity price hdelta
  by_contra hpos
  obtain ⟨hquantity, -, -, -⟩ := cumulativeDelta_pos hdelta (not_le.mp hpos)
  linarith [not_le.mp hpos]

/-- The growth to the quantity is within the relative tolerance of `cumulative_delta`. -/
def Swallowed (store : OrderStore) (cumulative : Amount) : Prop :=
  store.postedQuantity < cumulative ∧
    cumulative ≤ store.postedQuantity + quantityTolerance store.postedQuantity cumulative

theorem persist_quantity {after : OrderStore} {cumulative average : Amount}
    (hnonneg : 0 ≤ cumulative)
    (h : store.persistCumulative cumulative average = .ok after) :
    after.row = store.row ∧ (Swallowed store cumulative ∨
      after.postedQuantity = max store.postedQuantity cumulative) ∧
      store.postedQuantity ≤ after.postedQuantity ∧
      after.postedQuantity ≤ max store.postedQuantity cumulative := by
  rcases le_or_gt cumulative store.postedQuantity with hstale | hnew
  · rw [persistCumulative_stale hnonneg hstale] at h
    cases h
    rw [max_eq_left hstale]
    exact ⟨rfl, Or.inr rfl, le_refl _, le_refl _⟩
  · rcases persistCumulative_cases store cumulative average with
      ⟨quantity, price, hdelta, hpos, hresult⟩ | ⟨hnothing, hresult | ⟨e, hresult⟩⟩
    · rw [hresult] at h
      cases h
      obtain ⟨hquantity, -, -, -⟩ := cumulativeDelta_pos hdelta hpos
      have htotal := (@posted_append store ⟨quantity, price, 0⟩ .partiallyFilled store.row).1
      have hsum : store.postedQuantity + quantity = cumulative := by linarith
      have hreached := htotal.trans hsum
      rw [max_eq_right hnew.le]
      exact ⟨rfl, Or.inr hreached, hreached.ge.trans' hnew.le, hreached.le⟩
    · rw [hresult] at h
      cases h
      refine ⟨rfl, Or.inl ⟨hnew, ?_⟩, le_refl _, le_max_left _ _⟩
      -- Otherwise there is an increment, or an error.
      by_contra hgrown
      unfold OrderStore.persistCumulative at hresult
      cases hdelta : cumulativeDelta store.postedQuantity store.postedAverage cumulative average with
      | error e =>
        rw [hdelta] at hresult
        cases hresult
      | ok pair =>
        have hquantity : pair.1 ≤ 0 := hnothing pair.1 pair.2 hdelta
        unfold cumulativeDelta at hdelta
        dsimp only at hdelta
        split_ifs at hdelta
        cases hdelta
        dsimp only at hquantity
        linarith
    · rw [hresult] at h
      cases h

theorem projectedDelta_eq {event : ExecutionEvent} (hquantity : 0 < event.cumulativeQuantity)
    (haverage : 0 < event.cumulativeAveragePrice) {previous average delta price : Amount}
    (h : projectedDelta event previous average = .ok (delta, price)) :
    cumulativeDelta previous average event.cumulativeQuantity event.cumulativeAveragePrice =
      .ok (delta, price) := by
  unfold projectedDelta at h
  dsimp only at h
  rw [if_pos haverage.ne', max_eq_right hquantity.le] at h
  cases hdelta : cumulativeDelta previous average event.cumulativeQuantity
      event.cumulativeAveragePrice with
  | error e =>
    rw [hdelta] at h
    cases h
  | ok pair =>
    rw [hdelta] at h
    dsimp only at h
    split_ifs at h
    · split at h
      · cases h
      · exact congrArg _ (Except.ok.inj h)
    · exact congrArg _ (Except.ok.inj h)

theorem projectedTarget_eq {event : ExecutionEvent} (hquantity : 0 < event.cumulativeQuantity)
    (previous : Amount) :
    projectedTarget event previous = max previous event.cumulativeQuantity := by
  unfold projectedTarget
  rw [max_eq_right hquantity.le, if_pos (Or.inr hquantity)]

theorem project_quantity {event : ExecutionEvent}
    (hmarket : (store.row.response.phases.getD {}).marketSummary = none)
    (hquantity : 0 < event.cumulativeQuantity) (haverage : 0 < event.cumulativeAveragePrice) :
    store.commit (store.projectPendingOrder event) = store ∨
      ((store.commit (store.projectPendingOrder event)).row.filled =
          max store.row.filled (max store.postedQuantity event.cumulativeQuantity) ∧
        (store.commit (store.projectPendingOrder event)).row.response = store.row.response ∧
        (store.commit (store.projectPendingOrder event)).row.exchangeOrderId =
          store.row.exchangeOrderId ∧
        (Swallowed store event.cumulativeQuantity ∨
          (store.commit (store.projectPendingOrder event)).postedQuantity =
            max store.postedQuantity event.cumulativeQuantity) ∧
        store.postedQuantity ≤ (store.commit (store.projectPendingOrder event)).postedQuantity ∧
        (store.commit (store.projectPendingOrder event)).postedQuantity ≤
          max store.postedQuantity event.cumulativeQuantity) := by
  have hcombine := combine_of_noMarket hmarket event
  have htarget := projectedTarget_eq hquantity store.postedQuantity
  rcases projectPendingOrder_cases store event with ⟨-, hresult⟩ |
    ⟨combined, response, delta, price, hsame, hdelta, ⟨-, hsmall, hresult⟩ |
      ⟨-, hlarge, hprice, hresult⟩⟩
  · exact Or.inl hresult
  · rw [hcombine] at hsame
    cases hsame
    have hpair := projectedDelta_eq hquantity haverage hdelta
    rw [hresult]
    refine Or.inr ⟨?_, rfl, rfl, ?_, le_refl _, le_max_left _ _⟩
    · rw [← htarget]
      rfl
    · rcases le_or_gt event.cumulativeQuantity store.postedQuantity with hstale | hnew
      · exact Or.inr (max_eq_left hstale).symm
      · refine Or.inl ⟨hnew, ?_⟩
        by_contra hgrown
        unfold cumulativeDelta at hpair
        dsimp only at hpair
        split_ifs at hpair with hneg havg hold hpositive
        cases hpair
        have htolerance : (1 : Amount) / 10 ^ 12 ≤ quantityTolerance store.postedQuantity
          event.cumulativeQuantity := le_max_left _ _
        exact hsmall ⟨by linarith [not_le.mp hgrown], not_le.mp hpositive⟩
  · rw [hcombine] at hsame
    cases hsame
    have hpair := projectedDelta_eq hquantity haverage hdelta
    have hpos : 0 < delta := lt_trans (by norm_num) hlarge
    obtain ⟨hdifference, -, -, hgrown⟩ := cumulativeDelta_pos hpair hpos
    have htotal := (@posted_append store ⟨delta, price, event.id⟩ .partiallyFilled
      (projectedStore store event store.row.response delta price).row).1
    have hsum : store.postedQuantity + delta = event.cumulativeQuantity := by linarith
    have hreached := htotal.trans hsum
    have hnew : store.postedQuantity < event.cumulativeQuantity := by linarith
    have hmax : max store.postedQuantity event.cumulativeQuantity = event.cumulativeQuantity :=
      max_eq_right hnew.le
    rw [hresult, hmax]
    refine Or.inr ⟨?_, rfl, rfl, Or.inr hreached, hreached.ge.trans' hnew.le, hreached.le⟩
    rw [← hmax, ← htarget]
    rfl

end Totals

section Jobs

variable {desk : Desk} {index : ℕ}

theorem act_syncPersist_none (h : desk.claimed[index]? = none) (answer : RestAnswer) :
    desk.act (.syncPersist index answer) = desk := by
  simp only [Desk.act, h]

theorem act_syncPersist_store {row : PendingOrder} (h : desk.claimed[index]? = some row)
    (answer : RestAnswer) :
    (desk.act (.syncPersist index answer)).store =
      desk.store.commit (desk.store.syncPersist row answer) := by
  simp only [Desk.act, h]
  cases desk.store.syncPersist row answer with
  | error e => rfl
  | ok store => rfl

theorem act_syncUpdate_none (h : desk.posted[index]? = none) :
    desk.act (.syncUpdate index) = desk := by
  simp only [Desk.act, h]

theorem act_syncUpdate_store {row : PendingOrder} {answer : RestAnswer}
    (h : desk.posted[index]? = some (row, answer)) :
    (∃ update, syncSnapshot row answer = .ok update ∧
        (desk.act (.syncUpdate index)).store = desk.store.updateLiveSentOrderSnapshot update) ∨
      ((∃ e, syncSnapshot row answer = .error e) ∧
        (desk.act (.syncUpdate index)).store = desk.store) := by
  simp only [Desk.act, h]
  cases hsnapshot : syncSnapshot row answer with
  | error e => exact Or.inr ⟨⟨e, rfl⟩, rfl⟩
  | ok update => exact Or.inl ⟨update, rfl, rfl⟩

theorem act_syncFailed_none (h : desk.claimed[index]? = none) :
    desk.act (.syncFailed index) = desk := by
  simp only [Desk.act, h]

theorem act_syncFailed_store {row : PendingOrder} (h : desk.claimed[index]? = some row) :
    (desk.act (.syncFailed index)).store =
      desk.store.updateLiveSentOrderSnapshot (failedSnapshot row) := by
  simp only [Desk.act, h]

end Jobs

end QuantDinger.Analysis
