import QuantDinger.Library.Runs
import QuantDinger.Analysis.Posting

/-!
# The fills of an order with one leg are posted once

Three writers derive increments from three baselines: the posted trades, the queue row and
the marker in the response. As long as the row holds the quantity and the average of one
snapshot of the exchange, all of them post the difference to such a snapshot, whatever the
order of the transactions. This file states that invariant, and the steps that can break it.
-/

namespace QuantDinger.Analysis

open QuantDinger.Library QuantDinger.Model QuantDinger.Model.Live

/-! ## The exchange -/

/-- The cumulative snapshots of one exchange order: the notional is a strictly increasing
function of the quantity, and quantities are multiples of a lot. -/
structure ExchangeHistory where
  quantities : Set Amount
  value : Amount → Amount
  lot : Amount
  lot_ge : 1 / 10 ^ 7 ≤ lot
  multiple : ∀ quantity ∈ quantities, ∃ count : ℕ, quantity = count * lot
  quantity_pos : ∀ quantity ∈ quantities, 0 < quantity
  value_pos : ∀ quantity ∈ quantities, 0 < value quantity
  value_lt : ∀ quantity ∈ quantities, ∀ larger ∈ quantities, quantity < larger →
    value quantity < value larger

namespace ExchangeHistory

variable (history : ExchangeHistory)

/-- The snapshot with the quantity and the average. -/
def Snapshot (quantity average : Amount) : Prop :=
  quantity ∈ history.quantities ∧ quantity * average = history.value quantity

def Progress (quantity average : Amount) : Prop :=
  quantity = 0 ∨ history.Snapshot quantity average

variable {history}

theorem Snapshot.pos {quantity average : Amount} (h : history.Snapshot quantity average) :
    0 < quantity ∧ 0 < average := by
  have hquantity := history.quantity_pos quantity h.1
  have hvalue := history.value_pos quantity h.1
  rw [← h.2] at hvalue
  exact ⟨hquantity, (mul_pos_iff_of_pos_left hquantity).mp hvalue⟩

theorem Progress.nonneg {quantity average : Amount} (h : history.Progress quantity average) :
    0 ≤ quantity := by
  rcases h with rfl | h
  · exact le_refl 0
  · exact h.pos.1.le

theorem Snapshot.average_unique {quantity average other : Amount}
    (h : history.Snapshot quantity average) (h' : history.Snapshot quantity other) :
    average = other :=
  mul_left_cancel₀ h.pos.1.ne' (h.2.trans h'.2.symm)

theorem lot_le_sub {smaller larger : Amount} (hsmaller : ∃ count : ℕ, smaller = count * history.lot)
    (hlarger : ∃ count : ℕ, larger = count * history.lot) (h : smaller < larger) :
    history.lot ≤ larger - smaller := by
  obtain ⟨few, rfl⟩ := hsmaller
  obtain ⟨many, rfl⟩ := hlarger
  have hlot : 0 < history.lot := lt_of_lt_of_le (by norm_num) history.lot_ge
  have hcount : (few : Amount) < many := lt_of_mul_lt_mul_right h hlot.le
  have hnext : (few : Amount) + 1 ≤ many := by exact_mod_cast hcount
  calc history.lot = ((few : Amount) + 1) * history.lot - few * history.lot := by ring
    _ ≤ many * history.lot - few * history.lot :=
      sub_le_sub_right (mul_le_mul_of_nonneg_right hnext hlot.le) _

theorem Progress.multiple {quantity average : Amount} (h : history.Progress quantity average) :
    ∃ count : ℕ, quantity = count * history.lot := by
  rcases h with rfl | h
  · exact ⟨0, by simp⟩
  · exact history.multiple quantity h.1

theorem epsilon_lt_sub {smaller smallerAvg larger largerAvg : Amount}
    (hsmaller : history.Progress smaller smallerAvg) (hlarger : history.Progress larger largerAvg)
    (h : smaller < larger) : fillDeltaEpsilon < larger - smaller := by
  have hlot := lot_le_sub hsmaller.multiple hlarger.multiple h
  refine lt_of_lt_of_le ?_ (history.lot_ge.trans hlot)
  unfold fillDeltaEpsilon
  norm_num

theorem Progress.value_lt {smaller smallerAvg larger largerAvg : Amount}
    (hsmaller : history.Progress smaller smallerAvg)
    (hlarger : history.Snapshot larger largerAvg) (h : smaller < larger) :
    smaller * smallerAvg < larger * largerAvg := by
  rcases hsmaller with rfl | hsmaller
  · rw [zero_mul]
    exact mul_pos hlarger.pos.1 hlarger.pos.2
  · rw [hsmaller.2, hlarger.2]
    exact history.value_lt smaller hsmaller.1 larger hlarger.1 h

end ExchangeHistory

/-! ## What the transactions deliver -/

/-- The transaction brings snapshots of the exchange order, and is one of an order that is
executed as a single leg. -/
def Delivers (history : ExchangeHistory) : Transaction → Prop
  | .markSent report => SingleLeg report.response ∧ report.response.liveFillSync = none ∧
      history.Progress report.filled report.avgPrice
  | .persist cumulative average => history.Snapshot cumulative average
  | .project event => history.Snapshot event.cumulativeQuantity event.cumulativeAveragePrice
  | .syncPersist _ answer => history.Progress answer.cumulativeFilled answer.cumulativeAvg
  | _ => True

/-- A synchronisation of the row finds the progress of its order: the order has an id, or no
fill, or the marker is at the fill. -/
def Locatable (row : PendingOrder) (answer : RestAnswer) : Prop :=
  trackedOrderId row answer ≠ "" ∨ row.filled = 0 ∨
    ∃ average, row.response.liveFillSync = some ⟨row.filled, average⟩

/-- An event does not take the average of the row away from its quantity. -/
def AgreesWithRow (store : OrderStore) (event : ExecutionEvent) : Prop :=
  store.row.filled ≤ max store.postedQuantity event.cumulativeQuantity ∨
    store.row.avgPrice = if store.postedQuantity < event.cumulativeQuantity
      then event.cumulativeAveragePrice else store.postedAverage

/-- The transaction does not take one of the steps that lose or repeat a fill. -/
def Coherent (desk : Desk) : Transaction → Prop
  | .persist cumulative _ => ¬ Swallowed desk.store cumulative
  | .project event => desk.store.alreadyProjected event.id ∨
      (¬ Swallowed desk.store event.cumulativeQuantity ∧ AgreesWithRow desk.store event)
  | .syncPersist index answer => ∀ row, desk.claimed[index]? = some row →
      Locatable row answer ∧ ¬ Swallowed desk.store (max row.filled answer.cumulativeFilled)
  | _ => True

/-! ## The invariant -/

def Totals (history : ExchangeHistory) (store : OrderStore) : Prop :=
  (store.postedQuantity = 0 ∧ store.postedValue = 0) ∨
    (store.postedQuantity ∈ history.quantities ∧
      store.postedValue = history.value store.postedQuantity)

/-- The row holds a snapshot, and its marker an earlier one. -/
structure RowOk (history : ExchangeHistory) (row : PendingOrder) : Prop where
  single : SingleLeg row.response
  progress : history.Progress row.filled row.avgPrice
  marker : ∀ marker, row.response.liveFillSync = some marker →
    marker.trackedFilled ≤ row.filled ∧
      history.Progress marker.trackedFilled marker.trackedAvgPrice

/-- A synchronisation whose posting is done. -/
structure JobOk (history : ExchangeHistory) (row : PendingOrder) (answer : RestAnswer) : Prop where
  rowOk : RowOk history row
  locatable : Locatable row answer
  progress : history.Progress answer.cumulativeFilled answer.cumulativeAvg

/-- What every transaction keeps. -/
structure PostedOnce (history : ExchangeHistory) (desk : Desk) : Prop where
  totals : Totals history desk.store
  row : RowOk history desk.store.row
  claimed : ∀ row ∈ desk.claimed, RowOk history row
  posted : ∀ job ∈ desk.posted, JobOk history job.1 job.2

section Store

variable {history : ExchangeHistory} {store : OrderStore}

theorem Totals.posted (h : Totals history store) : Posted store := by
  rcases h with ⟨hquantity, hvalue⟩ | ⟨hquantity, hvalue⟩
  · exact ⟨hquantity.ge, fun _ => hvalue⟩
  · have hpos := history.quantity_pos _ hquantity
    exact ⟨hpos.le, fun hzero => absurd hzero hpos.ne'⟩

theorem Totals.progress (h : Totals history store) :
    history.Progress store.postedQuantity store.postedAverage := by
  have hvalue := postedValue_eq h.posted
  rcases h with ⟨hquantity, -⟩ | ⟨hquantity, hsame⟩
  · exact Or.inl hquantity
  · exact Or.inr ⟨hquantity, hvalue.symm.trans hsame⟩

theorem Totals.delta (h : Totals history store) {cumulative average : Amount}
    (hsnapshot : history.Snapshot cumulative average) (hclear : ¬ Swallowed store cumulative)
    (hnew : store.postedQuantity < cumulative) :
    ∃ price, cumulativeDelta store.postedQuantity store.postedAverage cumulative average =
      .ok (cumulative - store.postedQuantity, price) := by
  have hgrown : store.postedQuantity + quantityTolerance store.postedQuantity cumulative <
      cumulative := not_le.mp fun hsmall => hclear ⟨hnew, hsmall⟩
  have hpriced : 0 < store.postedQuantity → 0 < store.postedAverage := by
    intro hpos
    rcases h.progress with hzero | hposted
    · exact absurd hzero hpos.ne'
    · exact hposted.pos.2
  exact ⟨_, cumulativeDelta_ok h.posted.1 hgrown hsnapshot.pos.2 hpriced
    (h.progress.value_lt hsnapshot hnew)⟩

theorem totals_of_snapshot {cumulative average : Amount}
    (hsnapshot : history.Snapshot cumulative average)
    (hquantity : store.postedQuantity = cumulative)
    (hvalue : store.postedValue = cumulative * average) : Totals history store := by
  refine Or.inr ⟨hquantity ▸ hsnapshot.1, ?_⟩
  rw [hvalue, hsnapshot.2, hquantity]

theorem persist_snapshot (h : Totals history store) {cumulative average : Amount}
    (hsnapshot : history.Snapshot cumulative average) (hclear : ¬ Swallowed store cumulative) :
    ∃ after, store.persistCumulative cumulative average = .ok after ∧ after.row = store.row ∧
      after.postedQuantity = max store.postedQuantity cumulative ∧ Totals history after := by
  rcases le_or_gt cumulative store.postedQuantity with hstale | hnew
  · refine ⟨store, persistCumulative_stale hsnapshot.pos.1.le hstale, rfl, ?_, h⟩
    exact (max_eq_left hstale).symm
  · obtain ⟨price, hdelta⟩ := h.delta hsnapshot hclear hnew
    have hpos : 0 < cumulative - store.postedQuantity := sub_pos.mpr hnew
    rcases persistCumulative_cases store cumulative average with
      ⟨quantity, price', hfound, -, hresult⟩ | ⟨hnothing, -⟩
    · rw [hdelta] at hfound
      cases hfound
      have htotals := totals_of_unposted h.posted hdelta hpos
      have happend := @posted_append store ⟨cumulative - store.postedQuantity, price, 0⟩
        .partiallyFilled store.row
      have hquantity := happend.1.trans htotals.1
      refine ⟨_, hresult, rfl, ?_, ?_⟩
      · exact hquantity.trans (max_eq_right hnew.le).symm
      · exact totals_of_snapshot hsnapshot hquantity (happend.2.trans htotals.2)
    · exact absurd (hnothing _ _ hdelta) (not_le.mpr hpos)

end Store

/-! ## Synchronisations -/

section Sync

variable {history : ExchangeHistory} {row : PendingOrder} {answer : RestAnswer}

theorem JobOk.baseline (h : JobOk history row answer) :
    (baselineOf row answer).trackedFilled = row.filled ∧
      (0 < row.filled → (baselineOf row answer).trackedAvgPrice = row.avgPrice) := by
  have hnonneg := h.rowOk.progress.nonneg
  have hpriced : 0 < row.filled → 0 < row.avgPrice := by
    intro hpos
    rcases h.rowOk.progress with hzero | hsnapshot
    · exact absurd hzero hpos.ne'
    · exact hsnapshot.pos.2
  unfold baselineOf trackedFillBaseline
  dsimp only
  rw [trackedLegs_single h.rowOk.single]
  cases hmarker : row.response.liveFillSync with
  | none =>
    by_cases hid : trackedOrderId row answer = ""
    · have hzero : row.filled = 0 := by
        rcases h.locatable with hnamed | hzero | ⟨average, hmarker'⟩
        · exact absurd hid hnamed
        · exact hzero
        · rw [hmarker] at hmarker'
          cases hmarker'
      simp [hid, hzero]
    · refine ⟨by simp [hid, hnonneg], fun hpos => ?_⟩
      simp [hid, (hpriced hpos).le]
  | some marker =>
    obtain ⟨hle, hprogress⟩ := h.rowOk.marker marker hmarker
    have hmarkerNonneg := hprogress.nonneg
    -- A marker that is at the fill has the average of the row.
    have hsame : marker.trackedFilled = row.filled → 0 < row.filled →
        max 0 marker.trackedAvgPrice = row.avgPrice := by
      intro hequal hpos
      rw [hequal] at hprogress
      have hmarkerSnapshot := hprogress.resolve_left hpos.ne'
      have hrowSnapshot := h.rowOk.progress.resolve_left hpos.ne'
      rw [max_eq_right hmarkerSnapshot.pos.2.le]
      exact hmarkerSnapshot.average_unique hrowSnapshot
    by_cases hid : trackedOrderId row answer = ""
    · have hequal : marker.trackedFilled = row.filled := by
        rcases h.locatable with hnamed | hzero | ⟨average, hmarker'⟩
        · exact absurd hid hnamed
        · rw [hzero] at hle ⊢
          exact le_antisymm hle hmarkerNonneg
        · rw [hmarker] at hmarker'
          cases hmarker'
          rfl
      have hfurthest : furthest ⟨max 0 marker.trackedFilled, max 0 marker.trackedAvgPrice⟩
          ⟨0, 0⟩ = ⟨max 0 marker.trackedFilled, max 0 marker.trackedAvgPrice⟩ :=
        if_neg (not_lt.mpr (le_max_left _ _))
      simp only [hid, if_true, Option.toList_some, List.map_cons, List.map_nil,
        List.cons_append, List.nil_append, List.cons_ne_nil, if_false, List.append_nil,
        List.foldl_cons, List.foldl_nil, hfurthest]
      rw [max_eq_right hmarkerNonneg]
      exact ⟨hequal, hsame hequal⟩
    · simp only [hid, if_false, Option.toList_some, List.map_cons, List.map_nil,
        List.cons_append, List.nil_append, if_true, List.foldl_cons, List.foldl_nil]
      unfold furthest
      dsimp only
      rw [max_eq_right (le_max_left 0 row.filled), max_eq_right (le_max_left 0 row.avgPrice),
        max_eq_right hmarkerNonneg, max_eq_right hnonneg]
      split_ifs with hless
      · exact ⟨rfl, fun hpos => max_eq_right (hpriced hpos).le⟩
      · exact ⟨le_antisymm hle (not_lt.mp hless),
          hsame (le_antisymm hle (not_lt.mp hless))⟩

theorem JobOk.growth (h : JobOk history row answer) :
    growthOf row answer = answer.cumulativeFilled - row.filled := by
  unfold growthOf
  rw [h.baseline.1, max_eq_right h.progress.nonneg]

theorem JobOk.growth_value (h : JobOk history row answer) (hnew : row.filled < answer.cumulativeFilled) :
    (row.filled + (answer.cumulativeFilled - row.filled)) *
        grownAverage row.filled (max 0 row.avgPrice) (answer.cumulativeFilled - row.filled)
          (growthAverage answer (baselineOf row answer) (answer.cumulativeFilled - row.filled)) =
      answer.cumulativeFilled * answer.cumulativeAvg := by
  have hdelta : 0 < answer.cumulativeFilled - row.filled := sub_pos.mpr hnew
  have hnonneg := h.rowOk.progress.nonneg
  have hanswerPos : answer.cumulativeFilled ≠ 0 := (hnonneg.trans_lt hnew).ne'
  have hanswer := h.progress.resolve_left hanswerPos
  have hpriced : 0 < row.filled → 0 < max 0 row.avgPrice := by
    intro hpos
    exact lt_max_of_lt_right (h.rowOk.progress.resolve_left hpos.ne').pos.2
  rw [grownAverage_value hnonneg hpriced hdelta]
  rcases hnonneg.eq_or_lt with hzero | hpos
  · have hgrowth : growthAverage answer (baselineOf row answer)
        (answer.cumulativeFilled - row.filled) = answer.cumulativeAvg := by
      unfold growthAverage
      rw [h.baseline.1, ← hzero]
      dsimp only
      rw [if_neg (fun hall => lt_irrefl 0 hall.2.1), max_eq_right hanswer.pos.2.le]
    rw [hgrowth, ← hzero]
    ring
  · have hrow := h.rowOk.progress.resolve_left hpos.ne'
    have hnotional : 0 < answer.cumulativeFilled * answer.cumulativeAvg -
        row.filled * row.avgPrice :=
      sub_pos.mpr (h.rowOk.progress.value_lt hanswer hnew)
    have hgrowth : growthAverage answer (baselineOf row answer)
        (answer.cumulativeFilled - row.filled) =
          (answer.cumulativeFilled * answer.cumulativeAvg - row.filled * row.avgPrice) /
            (answer.cumulativeFilled - row.filled) := by
      unfold growthAverage
      rw [h.baseline.1, h.baseline.2 hpos, max_eq_right hanswer.pos.1.le,
        max_eq_right hanswer.pos.2.le]
      exact if_pos ⟨ExchangeHistory.epsilon_lt_sub h.rowOk.progress h.progress hnew, hpos,
        hrow.pos.2, hnotional⟩
    rw [hgrowth, max_eq_right hrow.pos.2.le, mul_div_cancel₀ _ hdelta.ne']
    ring

theorem JobOk.plan (h : JobOk history row answer) :
    ∃ plan, syncPlan row answer = .ok plan ∧
      plan.aggregateFilled = max row.filled answer.cumulativeFilled ∧
      history.Progress plan.aggregateFilled plan.aggregateAvg ∧
      (plan.posts = true ↔ 0 < answer.cumulativeFilled) := by
  have hmarket := h.rowOk.single.1
  have hnonneg := h.rowOk.progress.nonneg
  have hrow : history.Progress row.filled (max 0 row.avgPrice) := by
    rcases h.rowOk.progress with hzero | hsnapshot
    · exact Or.inl hzero
    · rw [max_eq_right hsnapshot.pos.2.le]
      exact Or.inr hsnapshot
  rcases h.progress with hzero | hanswer
  · have hsilent : ¬ (fillDeltaEpsilon < max 0 answer.cumulativeFilled ∧
        0 < max 0 answer.cumulativeAvg) := by
      rw [hzero]
      rintro ⟨hpos, -⟩
      revert hpos
      unfold fillDeltaEpsilon
      norm_num
    refine ⟨_, syncPlan_silent hmarket hsilent, ?_, ?_, ?_⟩
    · rw [hzero]
      exact (max_eq_right hnonneg).trans (max_eq_left hnonneg).symm
    · dsimp only
      rw [max_eq_right hnonneg]
      exact hrow
    · rw [hzero]
      exact ⟨fun hfalse => (nomatch hfalse), fun hpos => absurd hpos (lt_irrefl 0)⟩
  · have hpriced : fillDeltaEpsilon < max 0 answer.cumulativeFilled ∧
        0 < max 0 answer.cumulativeAvg := by
      refine ⟨lt_max_of_lt_right ?_, lt_max_of_lt_right hanswer.pos.2⟩
      have hstart : history.Progress 0 0 := Or.inl rfl
      have hlarge := ExchangeHistory.epsilon_lt_sub hstart (Or.inr hanswer) hanswer.pos.1
      rwa [sub_zero] at hlarge
    rcases le_or_gt answer.cumulativeFilled row.filled with hstale | hnew
    · have hgrowth : growthOf row answer ≤ fillDeltaEpsilon := by
        rw [h.growth]
        refine le_trans (sub_nonpos.mpr hstale) ?_
        unfold fillDeltaEpsilon
        norm_num
      rcases syncPlan_stale hmarket hpriced hgrowth with hplan | ⟨-, hzero, -⟩
      · refine ⟨_, hplan, ?_, ?_, ?_⟩
        · exact (max_eq_right hnonneg).trans (max_eq_left hstale).symm
        · dsimp only
          rw [max_eq_right hnonneg]
          exact hrow
        · exact ⟨fun _ => hanswer.pos.1, fun _ => rfl⟩
      · rw [h.growth, max_eq_right hnonneg] at hzero
        linarith [hanswer.pos.1]
    · have hgrown : fillDeltaEpsilon < growthOf row answer := by
        rw [h.growth]
        exact ExchangeHistory.epsilon_lt_sub h.rowOk.progress h.progress hnew
      have hplan := syncPlan_grown hmarket hpriced hgrown
      rw [h.growth, max_eq_right hnonneg] at hplan
      refine ⟨_, hplan, ?_, Or.inr ⟨?_, ?_⟩, ?_⟩
      · dsimp only
        rw [max_eq_right hnew.le]
        ring
      · dsimp only
        rw [add_sub_cancel]
        exact hanswer.1
      · dsimp only
        rw [h.growth_value hnew, add_sub_cancel]
        exact hanswer.2
      · exact ⟨fun _ => hanswer.pos.1, fun _ => rfl⟩

end Sync

/-! ## Events -/

section Events

variable {history : ExchangeHistory} {store : OrderStore} {event : ExecutionEvent}

theorem RowOk.raise {row : PendingOrder} (h : RowOk history row) {target average : Amount}
    (hsnapshot : history.Snapshot target average)
    (hagrees : row.filled ≤ target ∨ row.avgPrice = average) (status : QueueStatus) :
    RowOk history { row with
      filled := max row.filled target
      avgPrice := if 0 < average then average else row.avgPrice
      status := status } := by
  have hpos := hsnapshot.pos
  refine ⟨h.single, ?_, fun marker hmarker => ?_⟩
  · dsimp only
    rw [if_pos hpos.2]
    rcases le_total row.filled target with hle | hle
    · rw [max_eq_right hle]
      exact Or.inr hsnapshot
    · rw [max_eq_left hle]
      rcases hagrees with hless | hsame
      · rw [le_antisymm hless hle]
        exact Or.inr hsnapshot
      · rw [← hsame]
        exact h.progress
  · obtain ⟨hle, hprogress⟩ := h.marker marker hmarker
    exact ⟨hle.trans (le_max_left _ _), hprogress⟩

theorem project_snapshot (htotals : Totals history store) (hrow : RowOk history store.row)
    (hsnapshot : history.Snapshot event.cumulativeQuantity event.cumulativeAveragePrice)
    (hclear : ¬ Swallowed store event.cumulativeQuantity) (hagrees : AgreesWithRow store event)
    (hnew : ¬ store.alreadyProjected event.id) :
    RowOk history (store.commit (store.projectPendingOrder event)).row ∧
      (store.commit (store.projectPendingOrder event)).postedQuantity =
        max store.postedQuantity event.cumulativeQuantity ∧
      Totals history (store.commit (store.projectPendingOrder event)) := by
  have hcombine := combine_of_noMarket hrow.single.1 event
  have hpos := hsnapshot.pos
  rcases le_or_gt event.cumulativeQuantity store.postedQuantity with hstale | hgrown
  · -- The posted snapshot is the larger one, and its average is written to the row.
    have hmax : max store.postedQuantity event.cumulativeQuantity = store.postedQuantity :=
      max_eq_left hstale
    have hposted : history.Snapshot store.postedQuantity store.postedAverage :=
      htotals.progress.resolve_left (hpos.1.trans_le hstale).ne'
    have hzero := @cumulativeDelta_stale store.postedQuantity store.postedAverage
      event.cumulativeQuantity event.cumulativeAveragePrice hpos.1.le hstale
    rcases projectPendingOrder_cases store event with ⟨-, hresult⟩ |
      ⟨combined, response, delta, price, hsame, hdelta, ⟨-, -, hresult⟩ | ⟨-, hlarge, -, -⟩⟩
    · rw [hresult, hmax]
      exact ⟨hrow, rfl, htotals⟩
    · rw [hcombine] at hsame
      cases hsame
      have hpair := projectedDelta_eq hpos.1 hpos.2 hdelta
      rw [hzero] at hpair
      cases hpair
      rw [hresult, hmax]
      refine ⟨?_, rfl, htotals⟩
      have haverage : projectedAverage store.postedQuantity store.postedAverage
          (projectedTarget event store.postedQuantity) 0 0 = store.postedAverage := by
        unfold projectedAverage
        rw [if_neg (fun hall => lt_irrefl 0 hall.2.1), if_pos hposted.pos.2.ne']
      unfold projectedStore
      rw [haverage, projectedTarget_eq hpos.1, hmax]
      refine hrow.raise hposted ?_ _
      unfold AgreesWithRow at hagrees
      rw [hmax, if_neg (not_lt.mpr hstale)] at hagrees
      exact hagrees
    · rw [hcombine] at hsame
      cases hsame
      have hpair := projectedDelta_eq hpos.1 hpos.2 hdelta
      rw [hzero] at hpair
      cases hpair
      norm_num at hlarge
  · have hmax : max store.postedQuantity event.cumulativeQuantity = event.cumulativeQuantity :=
      max_eq_right hgrown.le
    obtain ⟨price, hpriced⟩ := htotals.delta hsnapshot hclear hgrown
    have hdeltaPos : 0 < event.cumulativeQuantity - store.postedQuantity := sub_pos.mpr hgrown
    obtain ⟨-, -, hpricePos, htolerance⟩ := cumulativeDelta_pos hpriced hdeltaPos
    have htiny : 1 / 10 ^ 12 < event.cumulativeQuantity - store.postedQuantity := by
      have : (1 : Amount) / 10 ^ 12 ≤ quantityTolerance store.postedQuantity
        event.cumulativeQuantity := le_max_left _ _
      linarith
    have hprojected : projectedDelta event store.postedQuantity store.postedAverage =
        .ok (event.cumulativeQuantity - store.postedQuantity, price) := by
      unfold projectedDelta requireExecution
      dsimp only
      rw [if_pos hpos.2.ne', max_eq_right hpos.1.le, hpriced]
      dsimp only
      rw [if_pos hdeltaPos, if_pos ⟨hdeltaPos, hpricePos⟩]
    have hopen : ¬ EventPosted store event := by
      rintro (hdone | hall)
      · exact hnew hdone
      · exact hall _ _ _ _ hcombine hprojected ⟨htiny, hpricePos⟩
    rcases projectPendingOrder_cases store event with ⟨hposted, -⟩ |
      ⟨combined, response, delta, price', hsame, hdelta, ⟨hposted, -, -⟩ | ⟨-, -, -, hresult⟩⟩
    · exact absurd hposted hopen
    · exact absurd hposted hopen
    · rw [hcombine] at hsame
      cases hsame
      rw [hprojected] at hdelta
      cases hdelta
      have htotal := totals_of_unposted htotals.posted hpriced hdeltaPos
      have happend := @posted_append store
        ⟨event.cumulativeQuantity - store.postedQuantity, price, event.id⟩ .partiallyFilled
        (projectedStore store event store.row.response
          (event.cumulativeQuantity - store.postedQuantity) price).row
      have hquantity := happend.1.trans htotal.1
      rw [hresult, hmax]
      refine ⟨?_, hquantity, totals_of_snapshot hsnapshot hquantity (happend.2.trans htotal.2)⟩
      have haverage : projectedAverage store.postedQuantity store.postedAverage
          (projectedTarget event store.postedQuantity)
          (event.cumulativeQuantity - store.postedQuantity) price =
            event.cumulativeAveragePrice := by
        unfold projectedAverage
        rw [projectedTarget_eq hpos.1, hmax, if_pos ⟨hpos.1, hdeltaPos, hpricePos⟩,
          ← postedValue_eq htotals.posted, htotal.2, mul_div_cancel_left₀ _ hpos.1.ne']
      show RowOk history (projectedStore store event store.row.response
        (event.cumulativeQuantity - store.postedQuantity) price).row
      unfold projectedStore
      rw [haverage, projectedTarget_eq hpos.1, hmax]
      refine hrow.raise hsnapshot ?_ _
      unfold AgreesWithRow at hagrees
      rw [hmax, if_pos hgrown] at hagrees
      exact hagrees

end Events

/-! ## Transactions -/

/-- The cumulative quantity that a transaction hands to the posting, or 0. -/
def handed (desk : Desk) : Transaction → Amount
  | .persist cumulative _ => cumulative
  | .project event =>
    if desk.store.alreadyProjected event.id then 0 else event.cumulativeQuantity
  | .syncPersist index answer =>
    match desk.claimed[index]? with
    | none => 0
    | some row =>
      match syncPlan row answer with
      | .error _ => 0
      | .ok plan => if plan.posts = true then plan.aggregateFilled else 0
  | _ => 0

section Transactions

variable {history : ExchangeHistory} {desk : Desk}

theorem RowOk.markSent {store : OrderStore} (h : RowOk history store.row) {report : SentReport}
    (hreport : Delivers history (.markSent report)) :
    RowOk history (store.markSent report).row := by
  obtain ⟨hsingle, hmarker, hprogress⟩ := hreport
  refine ⟨hsingle, ?_, fun marker hsome => ?_⟩
  · show history.Progress (max store.row.filled report.filled) _
    rcases lt_or_ge report.filled store.row.filled with hless | hge
    · have hrow := h.progress.resolve_left (hprogress.nonneg.trans_lt hless).ne'
      rw [max_eq_left hless.le]
      dsimp only [OrderStore.markSent]
      rw [if_pos ⟨hless, hrow.pos.2⟩]
      exact h.progress
    · rw [max_eq_right hge]
      dsimp only [OrderStore.markSent]
      rw [if_neg (fun hboth => absurd hboth.1 (not_lt.mpr hge))]
      exact hprogress
  · rw [show (store.markSent report).row.response = report.response from rfl, hmarker] at hsome
    cases hsome

theorem RowOk.update {store : OrderStore} (h : RowOk history store.row) {update : SnapshotUpdate}
    (hprogress : history.Progress update.filled update.avgPrice)
    (hphases : update.response.phases = none ∨ SingleLeg { phases := update.response.phases })
    (hmarker : ∀ marker, update.response.liveFillSync = some marker →
      marker.trackedFilled ≤ update.filled ∧
        history.Progress marker.trackedFilled marker.trackedAvgPrice) :
    RowOk history (store.updateLiveSentOrderSnapshot update).row := by
  unfold OrderStore.updateLiveSentOrderSnapshot
  dsimp only
  split_ifs with hguard
  · refine ⟨?_, hprogress, fun marker hsome => ?_⟩
    · unfold SingleLeg at hphases ⊢
      dsimp only at hphases ⊢
      cases hnone : update.response.phases with
      | none => exact h.single
      | some phases =>
        rw [hnone] at hphases
        exact hphases.resolve_left (by simp)
    · dsimp only at hsome
      cases hnone : update.response.liveFillSync with
      | none =>
        rw [hnone, Option.none_or] at hsome
        obtain ⟨hle, hold⟩ := h.marker marker hsome
        exact ⟨hle.trans hguard, hold⟩
      | some marker' =>
        rw [hnone, Option.some_or] at hsome
        cases hsome
        exact hmarker marker hnone
  · exact h

theorem JobOk.update {store : OrderStore} (hrow : RowOk history store.row) {row : PendingOrder}
    {answer : RestAnswer} (h : JobOk history row answer) {update : SnapshotUpdate}
    (hupdate : syncSnapshot row answer = .ok update) :
    RowOk history (store.updateLiveSentOrderSnapshot update).row := by
  obtain ⟨plan, hplan, hfilled, hprogress, -⟩ := h.plan
  obtain ⟨update', hupdate', hupdateFilled, hupdateAvg, hresponse⟩ := syncSnapshot_ok hplan
  rw [hupdate] at hupdate'
  cases hupdate'
  refine hrow.update ?_ (Or.inr ?_) ?_
  · rw [hupdateFilled, hupdateAvg]
    exact hprogress
  · rw [hresponse]
    exact h.rowOk.single
  · intro marker hmarker
    rw [hresponse] at hmarker
    cases hmarker
    dsimp only
    rw [max_eq_right h.progress.nonneg, hupdateFilled, hfilled]
    refine ⟨le_max_right _ _, ?_⟩
    rcases h.progress with hzero | hsnapshot
    · exact Or.inl hzero
    · rw [max_eq_right hsnapshot.pos.2.le]
      exact Or.inr hsnapshot

theorem totals_congr {store other : OrderStore} (h : Totals history store)
    (htrades : other.trades = store.trades) : Totals history other := by
  unfold Totals OrderStore.postedQuantity OrderStore.postedValue at h ⊢
  rw [htrades]
  exact h

theorem persist_job {store : OrderStore} (htotals : Totals history store) {row : PendingOrder}
    {answer : RestAnswer} (h : JobOk history row answer)
    (hclear : ¬ Swallowed store (max row.filled answer.cumulativeFilled)) :
    ∃ after, store.syncPersist row answer = .ok after ∧ after.row = store.row ∧
      Totals history after ∧ after.postedQuantity = max store.postedQuantity
        (match syncPlan row answer with
          | .error _ => 0
          | .ok plan => if plan.posts = true then plan.aggregateFilled else 0) := by
  obtain ⟨plan, hplan, hfilled, hprogress, hposts⟩ := h.plan
  unfold OrderStore.syncPersist
  rw [hplan]
  dsimp only
  by_cases hpost : plan.posts = true
  · rw [if_pos hpost, if_pos hpost]
    have hpos : plan.aggregateFilled ≠ 0 := by
      rw [hfilled]
      exact (lt_max_of_lt_right (hposts.mp hpost)).ne'
    rw [← hfilled] at hclear
    obtain ⟨after, hafter, hrow, hquantity, htotals'⟩ :=
      persist_snapshot htotals (hprogress.resolve_left hpos) hclear
    exact ⟨after, hafter, hrow, htotals', hquantity⟩
  · rw [if_neg hpost, if_neg hpost]
    exact ⟨store, rfl, rfl, htotals, (max_eq_left htotals.posted.1).symm⟩

theorem PostedOnce.act (h : PostedOnce history desk) {transaction : Transaction}
    (hdelivers : Delivers history transaction) (hcoherent : Coherent desk transaction) :
    PostedOnce history (desk.act transaction) ∧
      (desk.act transaction).store.postedQuantity =
        max desk.store.postedQuantity (handed desk transaction) := by
  have hzero : max desk.store.postedQuantity 0 = desk.store.postedQuantity :=
    max_eq_left h.totals.posted.1
  cases transaction with
  | markSent report =>
    exact ⟨⟨totals_congr h.totals rfl, h.row.markSent hdelivers, h.claimed, h.posted⟩, hzero.symm⟩
  | persist cumulative average =>
    obtain ⟨after, hafter, hrow, hquantity, htotals⟩ :=
      persist_snapshot h.totals hdelivers hcoherent
    have hstore : (desk.act (.persist cumulative average)).store = after := by
      show desk.store.commit (desk.store.persistCumulative cumulative average) = after
      rw [hafter]
      rfl
    refine ⟨⟨?_, ?_, h.claimed, h.posted⟩, ?_⟩
    · rw [hstore]
      exact htotals
    · rw [hstore, hrow]
      exact h.row
    · rw [hstore]
      exact hquantity
  | project event =>
    by_cases hdone : desk.store.alreadyProjected event.id
    · have hstore : (desk.act (.project event)).store = desk.store := by
        show desk.store.commit (desk.store.projectPendingOrder event) = desk.store
        unfold OrderStore.projectPendingOrder
        rw [if_pos hdone]
        rfl
      refine ⟨⟨?_, ?_, h.claimed, h.posted⟩, ?_⟩
      · rw [hstore]
        exact h.totals
      · rw [hstore]
        exact h.row
      · rw [hstore]
        unfold handed
        dsimp only
        rw [if_pos hdone, hzero]
    · obtain ⟨hclear, hagrees⟩ := hcoherent.resolve_left hdone
      obtain ⟨hrow, hquantity, htotals⟩ :=
        project_snapshot h.totals h.row hdelivers hclear hagrees hdone
      refine ⟨⟨htotals, hrow, h.claimed, h.posted⟩, ?_⟩
      unfold handed
      dsimp only
      rw [if_neg hdone]
      exact hquantity
  | claim clock =>
    have hclaimed : RowOk history desk.store.row.claimed :=
      ⟨h.row.single, h.row.progress, h.row.marker⟩
    unfold Desk.act
    dsimp only
    split
    · refine ⟨⟨totals_congr h.totals rfl, hclaimed, fun row hrow => ?_, h.posted⟩, hzero.symm⟩
      rcases List.mem_append.mp hrow with hold | hnew
      · exact h.claimed row hold
      · rw [List.mem_singleton.mp hnew]
        exact hclaimed
    · exact ⟨h, hzero.symm⟩
  | syncPersist index answer =>
    cases hrow : desk.claimed[index]? with
    | none =>
      rw [act_syncPersist_none hrow]
      refine ⟨h, ?_⟩
      unfold handed
      dsimp only
      rw [hrow]
      exact hzero.symm
    | some row =>
      obtain ⟨hlocatable, hclear⟩ := hcoherent row hrow
      have hjob : JobOk history row answer :=
        ⟨h.claimed row (List.mem_of_getElem? hrow), hlocatable, hdelivers⟩
      obtain ⟨after, hafter, hsame, htotals, hquantity⟩ := persist_job h.totals hjob hclear
      have hact : desk.act (.syncPersist index answer) =
          { store := after
            claimed := desk.claimed.eraseIdx index
            posted := desk.posted ++ [(row, answer)] } := by
        simp only [Desk.act, hrow, hafter]
      rw [hact]
      refine ⟨⟨htotals, ?_, fun row' hrow' => ?_, fun job hjob' => ?_⟩, ?_⟩
      · dsimp only
        rw [hsame]
        exact h.row
      · exact h.claimed row' (List.mem_of_mem_eraseIdx hrow')
      · rcases List.mem_append.mp hjob' with hold | hnew
        · exact h.posted job hold
        · rw [List.mem_singleton.mp hnew]
          exact hjob
      · unfold handed
        dsimp only
        rw [hrow]
        exact hquantity
  | syncUpdate index =>
    cases hjob : desk.posted[index]? with
    | none =>
      rw [act_syncUpdate_none hjob]
      exact ⟨h, hzero.symm⟩
    | some job =>
      obtain ⟨row, answer⟩ := job
      have hok := h.posted _ (List.mem_of_getElem? hjob)
      obtain ⟨plan, hplan, -, -, -⟩ := hok.plan
      obtain ⟨update, hupdate, -, -, -⟩ := syncSnapshot_ok hplan
      have hact : desk.act (.syncUpdate index) =
          { desk with
            store := desk.store.updateLiveSentOrderSnapshot update
            posted := desk.posted.eraseIdx index } := by
        simp only [Desk.act, hjob, hupdate]
      rw [hact]
      refine ⟨⟨totals_congr h.totals rfl, hok.update h.row hupdate, h.claimed,
        fun job' hjob' => ?_⟩, hzero.symm⟩
      exact h.posted job' (List.mem_of_mem_eraseIdx hjob')
  | syncFailed index =>
    cases hrow : desk.claimed[index]? with
    | none =>
      rw [act_syncFailed_none hrow]
      exact ⟨h, hzero.symm⟩
    | some row =>
      have hok := h.claimed row (List.mem_of_getElem? hrow)
      have hact : desk.act (.syncFailed index) =
          { desk with
            store := desk.store.updateLiveSentOrderSnapshot (failedSnapshot row)
            claimed := desk.claimed.eraseIdx index } := by
        simp only [Desk.act, hrow]
      rw [hact]
      refine ⟨⟨totals_congr h.totals rfl, ?_, fun row' hrow' => ?_, h.posted⟩, hzero.symm⟩
      · exact h.row.update hok.progress (Or.inl rfl) fun marker hmarker => by cases hmarker
      · exact h.claimed row' (List.mem_of_mem_eraseIdx hrow')
  | bind orderId =>
    exact ⟨⟨totals_congr h.totals rfl, ⟨h.row.single, h.row.progress, h.row.marker⟩, h.claimed,
      h.posted⟩, hzero.symm⟩
  | cancel =>
    have hfields : desk.store.persistCancellation.trades = desk.store.trades ∧
        RowOk history desk.store.persistCancellation.row := by
      unfold OrderStore.persistCancellation
      split
      · exact ⟨rfl, h.row.single, h.row.progress, h.row.marker⟩
      · exact ⟨rfl, h.row⟩
    have hquantity : desk.store.persistCancellation.postedQuantity =
        desk.store.postedQuantity := by
      unfold OrderStore.postedQuantity
      rw [hfields.1]
    exact ⟨⟨totals_congr h.totals hfields.1, hfields.2, h.claimed, h.posted⟩,
      hquantity.trans hzero.symm⟩

theorem PostedOnce.stale (h : PostedOnce history desk) {transaction : Transaction}
    (hdelivers : Delivers history transaction)
    (hstale : handed desk transaction ≤ desk.store.postedQuantity) :
    (desk.act transaction).store.trades = desk.store.trades := by
  cases transaction with
  | markSent report => rfl
  | persist cumulative average =>
    show (desk.store.commit (desk.store.persistCumulative cumulative average)).trades = _
    rw [persistCumulative_stale hdelivers.pos.1.le hstale]
    rfl
  | project event =>
    show (desk.store.commit (desk.store.projectPendingOrder event)).trades = _
    rcases projectPendingOrder_cases desk.store event with ⟨-, hresult⟩ |
      ⟨combined, response, delta, price, hsame, hdelta, ⟨-, -, hresult⟩ |
        ⟨hopen, hlarge, -, -⟩⟩
    · rw [hresult]
    · rw [hresult]
      rfl
    · unfold handed at hstale
      dsimp only at hstale
      rw [if_neg fun hdone => hopen (Or.inl hdone)] at hstale
      rw [combine_of_noMarket h.row.single.1] at hsame
      cases hsame
      have hpair := projectedDelta_eq hdelivers.pos.1 hdelivers.pos.2 hdelta
      rw [cumulativeDelta_stale hdelivers.pos.1.le hstale] at hpair
      cases hpair
      norm_num at hlarge
  | claim clock =>
    unfold Desk.act
    dsimp only
    split <;> rfl
  | syncPersist index answer =>
    cases hrow : desk.claimed[index]? with
    | none => rw [act_syncPersist_none hrow]
    | some row =>
      rw [act_syncPersist_store hrow]
      unfold handed at hstale
      dsimp only at hstale
      rw [hrow] at hstale
      rcases commit_syncPersist desk.store row answer with
        ⟨plan, hplan, hposts, hresult⟩ | ⟨-, hresult⟩
      · dsimp only at hstale
        rw [hplan] at hstale
        dsimp only at hstale
        rw [if_pos hposts] at hstale
        rw [hresult]
        rcases persistCumulative_cases desk.store plan.aggregateFilled plan.aggregateAvg with
          ⟨quantity, price, hdelta, hpos, -⟩ | ⟨-, hsame | ⟨e, hfailed⟩⟩
        · exact absurd (nothingUnposted_of_le hstale _ _ hdelta) (not_le.mpr hpos)
        · rw [hsame]
          rfl
        · rw [hfailed]
          rfl
      · rw [hresult]
  | syncUpdate index =>
    cases hjob : desk.posted[index]? with
    | none => rw [act_syncUpdate_none hjob]
    | some job =>
      rcases act_syncUpdate_store hjob with ⟨update, -, hstore⟩ | ⟨-, hstore⟩
      · rw [hstore]
        rfl
      · rw [hstore]
  | syncFailed index =>
    cases hrow : desk.claimed[index]? with
    | none => rw [act_syncFailed_none hrow]
    | some row =>
      rw [act_syncFailed_store hrow]
      rfl
  | bind orderId => rfl
  | cancel =>
    show desk.store.persistCancellation.trades = _
    unfold OrderStore.persistCancellation
    split <;> rfl

end Transactions

/-! ## Runs -/

/-- The largest quantity that the transactions of a run have handed to the posting. -/
def largestHanded : Desk → Amount → List Transaction → Amount
  | _, largest, [] => largest
  | desk, largest, transaction :: transactions =>
    largestHanded (desk.act transaction) (max largest (handed desk transaction)) transactions

/-- The conditions on a run: it delivers snapshots of the exchange order, coherently. -/
def CoherentRun (history : ExchangeHistory) (desk : Desk) (transactions : List Transaction) :
    Prop :=
  Along Desk.act (fun desk transaction => Delivers history transaction ∧
    Coherent desk transaction) desk transactions

theorem PostedOnce.run {history : ExchangeHistory} {desk : Desk} (h : PostedOnce history desk)
    {transactions : List Transaction} (hrun : CoherentRun history desk transactions) :
    PostedOnce history (runActions Desk.act desk transactions) ∧
      (runActions Desk.act desk transactions).store.postedQuantity =
        largestHanded desk desk.store.postedQuantity transactions := by
  induction transactions generalizing desk with
  | nil => exact ⟨h, rfl⟩
  | cons transaction transactions ih =>
    obtain ⟨⟨hdelivers, hcoherent⟩, hrest⟩ := hrun
    obtain ⟨hnext, hquantity⟩ := h.act hdelivers hcoherent
    obtain ⟨hlast, hlargest⟩ := ih hnext hrest
    refine ⟨hlast, ?_⟩
    show (runActions Desk.act (desk.act transaction) transactions).store.postedQuantity = _
    rw [hlargest, hquantity]
    rfl

/-- The desk of an order that nothing has been reported of. -/
def unfilledDesk (row : PendingOrder) : Desk :=
  { store := { row := { row with filled := 0, avgPrice := 0, response := {} } } }

theorem postedOnce_unfilled (history : ExchangeHistory) (row : PendingOrder) :
    PostedOnce history (unfilledDesk row) where
  totals := Or.inl ⟨rfl, rfl⟩
  row := ⟨⟨rfl, rfl⟩, Or.inl rfl, fun _ hmarker => (nomatch hmarker)⟩
  claimed := fun _ hrow => absurd hrow List.not_mem_nil
  posted := fun _ hjob => absurd hjob List.not_mem_nil

/-- **The fills of an order with one leg are posted once.** After every coherent run, in any
order and with any repetition of its transactions, the trades add up to the largest quantity
handed to the posting and to the notional of its snapshot, and a transaction that brings no
larger one changes no trade. -/
theorem fills_posted_once (history : ExchangeHistory) (row : PendingOrder)
    (transactions : List Transaction)
    (hrun : CoherentRun history (unfilledDesk row) transactions) :
    (runActions Desk.act (unfilledDesk row) transactions).store.postedQuantity =
        largestHanded (unfilledDesk row) 0 transactions ∧
      Totals history (runActions Desk.act (unfilledDesk row) transactions).store ∧
      ∀ transaction, Delivers history transaction →
        handed (runActions Desk.act (unfilledDesk row) transactions) transaction ≤
          (runActions Desk.act (unfilledDesk row) transactions).store.postedQuantity →
        ((runActions Desk.act (unfilledDesk row) transactions).act transaction).store.trades =
          (runActions Desk.act (unfilledDesk row) transactions).store.trades := by
  obtain ⟨hposted, hlargest⟩ := (postedOnce_unfilled history row).run hrun
  exact ⟨hlargest, hposted.totals, fun transaction hdelivers hstale =>
    hposted.stale hdelivers hstale⟩

def twoFills : ExchangeHistory where
  quantities := {4, 10}
  value := fun quantity => if quantity = 4 then 400 else 1030
  lot := 1
  lot_ge := by norm_num
  multiple := by
    rintro quantity (rfl | rfl)
    · exact ⟨4, by norm_num⟩
    · exact ⟨10, by norm_num⟩
  quantity_pos := by
    rintro quantity (rfl | rfl) <;> norm_num
  value_pos := by
    rintro quantity (rfl | rfl) <;> norm_num
  value_lt := by
    rintro quantity (rfl | rfl) larger (rfl | rfl) <;> norm_num

theorem twoFills_four : twoFills.Snapshot 4 100 := ⟨Or.inl rfl, by decide +kernel⟩

theorem twoFills_ten : twoFills.Snapshot 10 103 := ⟨Or.inr rfl, by decide +kernel⟩

def fillEvent (id : ℕ) (quantity average : Amount) : ExecutionEvent :=
  { id := id
    exchangeOrderId := "7"
    cumulativeQuantity := quantity
    cumulativeAveragePrice := average }

/-- The worker reports and posts the first fill, and an event brings the second. -/
theorem second_fill_posted_once :
    (runActions Desk.act (unfilledDesk {})
        [.markSent { exchangeOrderId := "7", filled := 4, avgPrice := 100 }, .persist 4 100,
          .project (fillEvent 1 10 103)]).store.postedQuantity = 10 := by
  have hrun : CoherentRun twoFills (unfilledDesk {})
      [.markSent { exchangeOrderId := "7", filled := 4, avgPrice := 100 }, .persist 4 100,
        .project (fillEvent 1 10 103)] := by
    refine ⟨⟨⟨⟨rfl, rfl⟩, rfl, Or.inr twoFills_four⟩, trivial⟩, ⟨twoFills_four, ?_⟩,
      ⟨twoFills_ten, Or.inr ⟨?_, Or.inl ?_⟩⟩, trivial⟩
    · unfold Coherent Swallowed
      decide +kernel
    · unfold Swallowed
      decide +kernel
    · decide +kernel
  rw [(fills_posted_once twoFills {} _ hrun).1]
  decide +kernel

/-- The worker has reported 10 at 103 but not posted it when the event of the first 4 comes.
The event posts them and writes their average 100 into the row that says 10; the next
synchronisation takes that pair for the snapshot and posts the rest at 100. -/
theorem early_event_misprices_rest :
    let transactions : List Transaction :=
      [.markSent { exchangeOrderId := "7", filled := 10, avgPrice := 103 },
        .project (fillEvent 1 4 100), .claim {}, .syncPersist 0 ⟨10, 103, "filled", 10, "", false⟩]
    let store := (runActions Desk.act (unfilledDesk {}) transactions).store
    (∀ transaction ∈ transactions, Delivers twoFills transaction) ∧
      store.postedQuantity = 10 ∧ store.postedValue = 1000 ∧ ¬ Totals twoFills store := by
  intro transactions store
  have hquantity : store.postedQuantity = 10 := by decide +kernel
  have hvalue : store.postedValue = 1000 := by decide +kernel
  refine ⟨?_, hquantity, hvalue, ?_⟩
  · intro transaction hmem
    simp only [transactions, List.mem_cons, List.not_mem_nil, or_false] at hmem
    rcases hmem with rfl | rfl | rfl | rfl
    · exact ⟨⟨rfl, rfl⟩, rfl, Or.inr twoFills_ten⟩
    · exact twoFills_four
    · trivial
    · exact Or.inr twoFills_ten
  · rintro (⟨hzero, -⟩ | ⟨-, hsame⟩)
    · rw [hquantity] at hzero
      norm_num at hzero
    · rw [hquantity, hvalue] at hsame
      revert hsame
      decide +kernel

end QuantDinger.Analysis
