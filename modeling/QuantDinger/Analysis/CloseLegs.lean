import QuantDinger.Library.Runs
import QuantDinger.Analysis.Posting

/-!
# The legs of a close with retries

A close is executed as an initial order and any number of retries; the queue row adds up the
legs, and a synchronisation tracks the last of them. Its baseline is the progress of the
tracked leg, kept in the retry list and in the marker, and its total is the row plus the
growth over the baseline. Nothing is posted twice as long as the row is ahead of the baseline
by the other legs exactly. This file states the moves of a close, that invariant of the row
and what a synchronisation does to it.
-/

namespace QuantDinger.Analysis

open QuantDinger.Library QuantDinger.Model QuantDinger.Model.Live

/-! ## Legs -/

/-- The exchange orders of a close: the tracked one is the last, the initial one is the first
of the others, if there are any. -/
structure CloseLegs where
  others : List String
  tracked : String
  distinct : (others ++ [tracked]).Nodup
  named : tracked ≠ ""

/-- The store of the close, what the exchange has executed on each leg, the total that the
worker has reported, and whether it has posted it. -/
structure CloseDesk where
  desk : Desk
  executed : String → Amount
  reported : Option Amount := none
  recorded : Bool := false

/-- The exchange executes a leg up to a quantity, or a transaction is made. -/
inductive CloseMove
  | execute (leg : String) (quantity : Amount)
  | transact (transaction : Transaction)

/-- The worker's posting of the transaction succeeds. -/
def recordsReport (store : OrderStore) : Transaction → Bool
  | .persist cumulative average =>
    match store.persistCumulative cumulative average with
    | .ok _ => true
    | .error _ => false
  | _ => false

/-- The total that the worker has reported after the transaction. -/
def reportedAfter (reported : Option Amount) : Transaction → Option Amount
  | .markSent report => some report.filled
  | _ => reported

def CloseDesk.act (state : CloseDesk) : CloseMove → CloseDesk
  | .execute leg quantity => { state with executed := Function.update state.executed leg quantity }
  | .transact transaction =>
    { state with
      desk := state.desk.act transaction
      reported := reportedAfter state.reported transaction
      recorded := state.recorded || recordsReport state.desk.store transaction }

section Legs

variable (legs : CloseLegs)

/-- What the exchange has executed on the legs before the tracked one. -/
def restExecuted (executed : String → Amount) : Amount := (legs.others.map executed).sum

/-- What the exchange has executed on all legs. -/
def allExecuted (executed : String → Amount) : Amount :=
  restExecuted legs executed + executed legs.tracked

def retryOrdersOf (response : ExchangeResponse) : List RetryOrder :=
  (((response.phases.getD {}).closeReconciliation).map CloseMetadata.retryOrders).getD []

/-- What the worker reports: the legs before the tracked one are at their end, and the tracked
one is reported with a quantity that the exchange had executed. -/
structure CloseReport (executed : String → Amount) (report : SentReport) (last : Amount) :
    Prop where
  orderId : report.exchangeOrderId = legs.tracked
  marker : report.response.liveFillSync = none
  market : (report.response.phases.getD {}).marketSummary = none
  nonneg : 0 ≤ last
  executed_le : last ≤ executed legs.tracked
  filled : report.filled = restExecuted legs executed + last
  retries : if legs.others = [] then retryOrdersOf report.response = []
    else ∃ front retry, retryOrdersOf report.response = front ++ [retry] ∧
      front.map RetryOrder.exchangeOrderId = legs.others.tail ∧
      (∀ entry ∈ front, entry.filledQuantity = executed entry.exchangeOrderId) ∧
      retry.exchangeOrderId = legs.tracked ∧ retry.filledQuantity = last

/-- The moves of a close. Legs before the tracked one end before the worker reports, and only
the tracked one is synchronised. -/
def Plausible (state : CloseDesk) : CloseMove → Prop
  | .execute leg quantity => leg ∈ legs.others ++ [legs.tracked] ∧
      state.executed leg ≤ quantity ∧ (state.reported = none ∨ leg = legs.tracked)
  | .transact (.markSent report) => state.reported = none ∧
      ∃ last, CloseReport legs state.executed report last
  | .transact (.persist cumulative average) => state.reported = some cumulative ∧ 0 < average
  | .transact (.project event) => event.exchangeOrderId ∈ legs.others ++ [legs.tracked] ∧
      0 < event.cumulativeQuantity ∧
      event.cumulativeQuantity ≤ state.executed event.exchangeOrderId ∧
      0 < event.cumulativeAveragePrice
  | .transact (.claim _) => state.reported ≠ none
  | .transact (.syncPersist _ answer) => 0 ≤ answer.cumulativeFilled ∧
      answer.cumulativeFilled ≤ state.executed legs.tracked ∧
      (0 < answer.cumulativeFilled → 0 < answer.cumulativeAvg)
  | .transact (.bind _) => False
  | .transact _ => True

/-- What the retry list has of the tracked leg. -/
def retryProgress (row : PendingOrder) : Amount :=
  (((retryOrdersOf row.response).find? fun retry => retry.exchangeOrderId = legs.tracked).map
    RetryOrder.filledQuantity).getD 0

def markerProgress (row : PendingOrder) : Amount :=
  (row.response.liveFillSync.map FillMarker.trackedFilled).getD 0

/-- The progress of the tracked leg that a synchronisation of the row starts from. -/
def legProgress (row : PendingOrder) : Amount :=
  if legs.others = [] then row.filled else max (retryProgress legs row) (markerProgress row)

/-- The answer of a synchronisation does not take the marker behind the row, and grows by
nothing or by more than 1e-8. -/
def AnswerFits (row : PendingOrder) (answer : RestAnswer) : Prop :=
  legProgress legs row + fillDeltaEpsilon < answer.cumulativeFilled ∨
    (answer.cumulativeFilled ≤ legProgress legs row ∧
      (legs.others = [] ∨ answer.cumulativeFilled = legProgress legs row ∨
        retryProgress legs row = legProgress legs row))

/-- The total of a synchronisation: the row and the growth over the progress, if any. -/
def syncTotal (row : PendingOrder) (answer : RestAnswer) : Amount :=
  max row.filled (row.filled + (answer.cumulativeFilled - legProgress legs row))

/-- The move does not take one of the steps that post a fill twice or lose it. -/
def Separate (state : CloseDesk) : CloseMove → Prop
  | .transact (.markSent report) =>
    legs.others = [] ∨ state.desk.store.row.filled ≤ report.filled
  | .transact (.persist cumulative _) => ¬ Swallowed state.desk.store cumulative
  | .transact (.project event) => ¬ Swallowed state.desk.store event.cumulativeQuantity ∧
      (legs.others = [] ∨ state.reported = none ∨
        max state.desk.store.postedQuantity event.cumulativeQuantity ≤ state.desk.store.row.filled)
  | .transact (.syncPersist index answer) => ∀ row, state.desk.claimed[index]? = some row →
      AnswerFits legs row answer ∧ ¬ Swallowed state.desk.store (syncTotal legs row answer)
  | _ => True

end Legs

/-! ## Rows -/

/-- The row is ahead of the progress of the tracked leg by the other legs. -/
structure RowAt (legs : CloseLegs) (rest last progress : Amount) (row : PendingOrder) : Prop where
  orderId : row.exchangeOrderId = legs.tracked
  market : (row.response.phases.getD {}).marketSummary = none
  retries : ((retryOrdersOf row.response).find? fun retry =>
      retry.exchangeOrderId = legs.tracked).map RetryOrder.filledQuantity =
    if legs.others = [] then none else some last
  filled : row.filled = rest + progress
  rest_nonneg : 0 ≤ rest
  rest_zero : legs.others = [] → rest = 0
  last_nonneg : 0 ≤ last
  last_le : last ≤ progress
  marker : ∀ marker, row.response.liveFillSync = some marker →
    0 ≤ marker.trackedFilled ∧ marker.trackedFilled ≤ progress
  reached : legs.others = [] ∨ last = progress ∨
    ∃ average, row.response.liveFillSync = some ⟨progress, average⟩

section Row

variable {legs : CloseLegs} {rest last progress : Amount} {row : PendingOrder}
  {answer : RestAnswer}

theorem RowAt.progress_nonneg (h : RowAt legs rest last progress row) : 0 ≤ progress :=
  h.last_nonneg.trans h.last_le

theorem RowAt.filled_nonneg (h : RowAt legs rest last progress row) : 0 ≤ row.filled := by
  rw [h.filled]
  exact add_nonneg h.rest_nonneg h.progress_nonneg

theorem RowAt.retryProgress (h : RowAt legs rest last progress row) (hothers : legs.others ≠ []) :
    retryProgress legs row = last := by
  unfold QuantDinger.Analysis.retryProgress
  rw [h.retries, if_neg hothers]
  rfl

theorem RowAt.legProgress (h : RowAt legs rest last progress row) :
    legProgress legs row = progress := by
  unfold QuantDinger.Analysis.legProgress
  by_cases hothers : legs.others = []
  · rw [if_pos hothers, h.filled, h.rest_zero hothers, zero_add]
  · rw [if_neg hothers, h.retryProgress hothers]
    unfold markerProgress
    cases hmarker : row.response.liveFillSync with
    | none =>
      have hreached : last = progress := by
        rcases h.reached with hnone | hlast | ⟨average, hsome⟩
        · exact absurd hnone hothers
        · exact hlast
        · rw [hmarker] at hsome
          cases hsome
      rw [hreached]
      exact max_eq_left h.progress_nonneg
    | some marker =>
      obtain ⟨-, hle⟩ := h.marker marker hmarker
      rcases h.reached with hnone | hlast | ⟨average, hsome⟩
      · exact absurd hnone hothers
      · rw [hlast]
        exact max_eq_left hle
      · rw [hmarker] at hsome
        cases hsome
        exact max_eq_right h.last_le

theorem RowAt.raise (h : RowAt legs rest last progress row) {row' : PendingOrder}
    (hid : row'.exchangeOrderId = row.exchangeOrderId) (hresponse : row'.response = row.response)
    {progress' : Amount} (hfilled : row'.filled = rest + progress') (hle : progress ≤ progress')
    (hreached : legs.others = [] ∨ progress' = progress) :
    RowAt legs rest last progress' row' := by
  have hmarker : row'.response.liveFillSync = row.response.liveFillSync := by rw [hresponse]
  refine ⟨hid.trans h.orderId, ?_, ?_, hfilled, h.rest_nonneg, h.rest_zero, h.last_nonneg,
    h.last_le.trans hle, fun marker hsome => ?_, ?_⟩
  · rw [hresponse]
    exact h.market
  · rw [hresponse]
    exact h.retries
  · obtain ⟨hnonneg, hbehind⟩ := h.marker marker (hmarker.symm.trans hsome)
    exact ⟨hnonneg, hbehind.trans hle⟩
  · rcases hreached with hothers | rfl
    · exact Or.inl hothers
    · rw [hmarker]
      exact h.reached

theorem furthest_filled (best candidate : FillMarker) :
    (furthest best candidate).trackedFilled =
      max best.trackedFilled candidate.trackedFilled := by
  unfold furthest
  split_ifs with hless
  · exact (max_eq_right hless.le).symm
  · exact (max_eq_left (not_lt.mp hless)).symm

theorem RowAt.trackedLegs (h : RowAt legs rest last progress row) (answer : RestAnswer) :
    (trackedLegs (row.response.phases.getD {}) (trackedOrderId row answer)).map
        FillMarker.trackedFilled = if legs.others = [] then [] else [last] := by
  have hid : trackedOrderId row answer = legs.tracked := by
    unfold trackedOrderId textOrElse
    rw [h.orderId, if_neg legs.named]
  have hretries := h.retries
  unfold retryOrdersOf at hretries
  unfold Model.Live.trackedLegs
  rw [hid, h.market]
  dsimp only [Option.getD_none]
  rw [if_neg legs.named.symm, List.nil_append]
  cases hfound : (((row.response.phases.getD {}).closeReconciliation.map
      CloseMetadata.retryOrders).getD []).find? fun retry =>
        retry.exchangeOrderId = legs.tracked with
  | none =>
    rw [hfound] at hretries
    split_ifs at hretries ⊢ with hothers
    · rfl
    · cases hretries
  | some retry =>
    rw [hfound] at hretries
    split_ifs at hretries ⊢ with hothers
    · cases hretries
    · have hlast : retry.filledQuantity = last := Option.some.inj hretries
      simp [hlast, h.last_nonneg]

theorem RowAt.baseline (h : RowAt legs rest last progress row) :
    (baselineOf row answer).trackedFilled = progress := by
  have hlegs := h.trackedLegs answer
  have hprogress := h.progress_nonneg
  unfold baselineOf trackedFillBaseline
  dsimp only
  by_cases hothers : legs.others = []
  · have hempty : Model.Live.trackedLegs (row.response.phases.getD {})
        (trackedOrderId row answer) = [] := by
      rw [if_pos hothers] at hlegs
      exact List.map_eq_nil_iff.mp hlegs
    have hrow : row.filled = progress := by
      rw [h.filled, h.rest_zero hothers, zero_add]
    rw [hempty, if_pos rfl]
    cases hmarker : row.response.liveFillSync with
    | none => simp [hrow, hprogress]
    | some marker =>
      obtain ⟨hnonneg, hle⟩ := h.marker marker hmarker
      simp [furthest_filled, hrow, hprogress, hnonneg, hle]
  · rw [if_neg hothers] at hlegs
    obtain ⟨leg, hleg⟩ : ∃ leg, Model.Live.trackedLegs (row.response.phases.getD {})
        (trackedOrderId row answer) = [leg] := by
      refine List.length_eq_one_iff.mp ?_
      have := congrArg List.length hlegs
      simpa using this
    have hlast : leg.trackedFilled = last := by
      rw [hleg] at hlegs
      exact List.head_eq_of_cons_eq hlegs
    rw [hleg, if_neg (List.cons_ne_nil _ _)]
    cases hmarker : row.response.liveFillSync with
    | none =>
      have hreached : last = progress := by
        rcases h.reached with hnone | hsame | ⟨average, hsome⟩
        · exact absurd hnone hothers
        · exact hsame
        · rw [hmarker] at hsome
          cases hsome
      simp [hlast, hreached]
    | some marker =>
      obtain ⟨hnonneg, hle⟩ := h.marker marker hmarker
      have hmax : max marker.trackedFilled last = progress := by
        rcases h.reached with hnone | hsame | ⟨average, hsome⟩
        · exact absurd hnone hothers
        · rw [hsame]
          exact max_eq_right hle
        · rw [hmarker] at hsome
          cases hsome
          exact max_eq_left h.last_le
      simp [furthest_filled, hlast, hnonneg, hmax]

theorem RowAt.growth (h : RowAt legs rest last progress row)
    (hnonneg : 0 ≤ answer.cumulativeFilled) :
    growthOf row answer = answer.cumulativeFilled - progress := by
  unfold growthOf
  rw [h.baseline, max_eq_right hnonneg]

theorem RowAt.total (h : RowAt legs rest last progress row) :
    syncTotal legs row answer = rest + max progress answer.cumulativeFilled := by
  unfold syncTotal
  rw [h.legProgress, h.filled]
  rcases le_total answer.cumulativeFilled progress with hle | hle
  · rw [max_eq_left hle]
    exact max_eq_left (by linarith)
  · rw [max_eq_right hle]
    refine (max_eq_right (by linarith)).trans ?_
    ring

theorem RowAt.plan (h : RowAt legs rest last progress row) (hnonneg : 0 ≤ answer.cumulativeFilled)
    (hpriced : 0 < answer.cumulativeFilled → 0 < answer.cumulativeAvg)
    (hfits : AnswerFits legs row answer) :
    ∃ plan, syncPlan row answer = .ok plan ∧ plan.aggregateFilled = syncTotal legs row answer ∧
      (plan.posts = false → answer.cumulativeFilled ≤ progress ∧
        answer.cumulativeFilled ≤ fillDeltaEpsilon) := by
  have hepsilon : (0 : Amount) < fillDeltaEpsilon := by
    unfold fillDeltaEpsilon
    norm_num
  have hrow : max 0 row.filled = row.filled := max_eq_right h.filled_nonneg
  have hgrowth := h.growth hnonneg
  rw [h.total]
  unfold AnswerFits at hfits
  rw [h.legProgress] at hfits
  by_cases hposts : fillDeltaEpsilon < max 0 answer.cumulativeFilled ∧
      0 < max 0 answer.cumulativeAvg
  · rcases hfits with hgrown | ⟨hstale, -⟩
    · have hlarge : fillDeltaEpsilon < growthOf row answer := by
        rw [hgrowth]
        linarith
      refine ⟨_, syncPlan_grown h.market hposts hlarge, ?_, fun hfalse => (nomatch hfalse)⟩
      dsimp only
      rw [hrow, hgrowth, h.filled, max_eq_right (by linarith : progress ≤ _)]
      ring
    · have hsmall : growthOf row answer ≤ fillDeltaEpsilon := by
        rw [hgrowth]
        linarith
      rcases syncPlan_stale h.market hposts hsmall with hplan | ⟨-, hzero, -⟩
      · refine ⟨_, hplan, ?_, fun hfalse => (nomatch hfalse)⟩
        dsimp only
        rw [hrow, h.filled, max_eq_left hstale]
      · rw [hrow, hgrowth, h.filled] at hzero
        have hanswer := hposts.1
        rw [max_eq_right hnonneg] at hanswer
        linarith [h.rest_nonneg]
  · -- Without a price there is no fill, so the answer is not beyond the progress.
    have hsmall : answer.cumulativeFilled ≤ fillDeltaEpsilon := by
      by_contra hlarge
      refine hposts ⟨lt_max_of_lt_right (not_le.mp hlarge), lt_max_of_lt_right (hpriced ?_)⟩
      exact hepsilon.trans (not_le.mp hlarge)
    have hstale : answer.cumulativeFilled ≤ progress := by
      rcases hfits with hgrown | ⟨hstale, -⟩
      · linarith [h.progress_nonneg]
      · exact hstale
    refine ⟨_, syncPlan_silent h.market hposts, ?_, fun _ => ⟨hstale, hsmall⟩⟩
    dsimp only
    rw [hrow, h.filled, max_eq_left hstale]

theorem RowAt.update {store : OrderStore} {current : Amount}
    (hrow : RowAt legs rest last current store.row) (h : RowAt legs rest last progress row)
    (hbehind : row.filled ≤ store.row.filled) (hnonneg : 0 ≤ answer.cumulativeFilled)
    (hfits : AnswerFits legs row answer) {update : SnapshotUpdate}
    (hfilled : update.filled = syncTotal legs row answer)
    (hresponse : update.response =
      { liveFillSync := some ⟨max 0 answer.cumulativeFilled, max 0 answer.cumulativeAvg⟩
        phases := row.response.phases }) :
    ∃ reached, RowAt legs rest last reached (store.updateLiveSentOrderSnapshot update).row ∧
      reached ≤ max current answer.cumulativeFilled ∧
      ((store.updateLiveSentOrderSnapshot update).row.filled = store.row.filled ∨
        (progress < answer.cumulativeFilled ∧
          (store.updateLiveSentOrderSnapshot update).row.filled = rest + answer.cumulativeFilled ∧
          store.row.filled ≤ rest + answer.cumulativeFilled)) := by
  have hepsilon : (0 : Amount) < fillDeltaEpsilon := by
    unfold fillDeltaEpsilon
    norm_num
  by_cases hguard : store.row.filled ≤ update.filled
  · have hupdated : (store.updateLiveSentOrderSnapshot update).row =
        { store.row with
          status := update.status
          dispatchNote := update.dispatchNote
          filled := update.filled
          avgPrice := update.avgPrice
          response := {
            liveFillSync := some ⟨answer.cumulativeFilled, max 0 answer.cumulativeAvg⟩
            phases := row.response.phases.or store.row.response.phases } } := by
      unfold OrderStore.updateLiveSentOrderSnapshot
      dsimp only
      rw [if_pos hguard, hresponse, max_eq_right hnonneg]
      rfl
    rw [h.total] at hfilled
    unfold AnswerFits at hfits
    rw [h.legProgress] at hfits
    have hphases : ((row.response.phases.or store.row.response.phases).getD {}).marketSummary =
          none ∧
        ((retryOrdersOf { phases := row.response.phases.or store.row.response.phases }).find?
          fun retry => retry.exchangeOrderId = legs.tracked).map RetryOrder.filledQuantity =
            if legs.others = [] then none else some last := by
      cases hsome : row.response.phases with
      | none => exact ⟨hrow.market, hrow.retries⟩
      | some phases =>
        have hmarket := h.market
        have hretries := h.retries
        unfold retryOrdersOf at hretries
        rw [hsome] at hmarket hretries
        exact ⟨hmarket, hretries⟩
    rcases hfits with hgrown | ⟨hstale, hfits⟩
    · have hprogress : progress < answer.cumulativeFilled := by linarith
      rw [max_eq_right hprogress.le] at hfilled
      refine ⟨answer.cumulativeFilled, ?_, le_max_right _ _, Or.inr ⟨hprogress, ?_, ?_⟩⟩
      · rw [hupdated]
        refine ⟨hrow.orderId, hphases.1, hphases.2, hfilled, hrow.rest_nonneg, hrow.rest_zero,
          hrow.last_nonneg, h.last_le.trans hprogress.le, fun marker hmarker => ?_,
          Or.inr (Or.inr ⟨_, rfl⟩)⟩
        cases hmarker
        exact ⟨hnonneg, le_refl _⟩
      · rw [hupdated]
        exact hfilled
      · rw [← hfilled]
        exact hguard
    · -- Nothing is new: by the guard the row is still the one that was claimed.
      rw [max_eq_left hstale, ← h.filled] at hfilled
      have hsame : row.filled = store.row.filled := by
        rw [hfilled] at hguard
        exact le_antisymm hbehind hguard
      have hcurrent : progress = current := by
        have hleft := h.filled
        have hright := hrow.filled
        linarith
      subst hcurrent
      refine ⟨progress, ?_, le_max_left _ _, Or.inl ?_⟩
      · rw [hupdated]
        refine ⟨hrow.orderId, hphases.1, hphases.2, hfilled.trans h.filled, hrow.rest_nonneg,
          hrow.rest_zero, hrow.last_nonneg, h.last_le, fun marker hmarker => ?_, ?_⟩
        · cases hmarker
          exact ⟨hnonneg, hstale⟩
        · rcases hfits with hnone | hsame' | hretry
          · exact Or.inl hnone
          · refine Or.inr (Or.inr ⟨max 0 answer.cumulativeAvg, ?_⟩)
            rw [← hsame']
          · by_cases hothers : legs.others = []
            · exact Or.inl hothers
            · rw [h.retryProgress hothers] at hretry
              exact Or.inr (Or.inl hretry)
      · rw [hupdated]
        exact hfilled.trans hsame
  · have hunchanged : (store.updateLiveSentOrderSnapshot update).row = store.row := by
      unfold OrderStore.updateLiveSentOrderSnapshot
      dsimp only
      rw [if_neg hguard]
    rw [hunchanged]
    exact ⟨current, hrow, le_max_left _ _, Or.inl rfl⟩

end Row

end QuantDinger.Analysis
