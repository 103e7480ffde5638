import QuantDinger.Library.Runs
import QuantDinger.Analysis.Posting

/-!
# Fills whose price comes late

A snapshot without a price posts nothing, but it moves the marker that the next
synchronisation takes for its baseline. This file follows the marker through any number of
undisturbed synchronisations of an order with one leg: what is posted falls short of the last
snapshot by exactly the growth that came without a price, or in steps of at most 1e-8.
-/

namespace QuantDinger.Analysis

open QuantDinger.Library QuantDinger.Model QuantDinger.Model.Live

/-! ## Undisturbed synchronisations -/

/-- A synchronisation from its claim to its update with nothing in between. -/
def syncOnce (desk : Desk) (snapshot : ClaimClock × RestAnswer) : Desk :=
  if desk.store.Claimable snapshot.1 then
    runActions Desk.act desk ([.claim snapshot.1] ++
      (if desk.store.row.exchangeOrderId = "" ∧ snapshot.2.boundOrderId ≠ ""
        then [.bind snapshot.2.boundOrderId] else []) ++
      [.syncPersist 0 snapshot.2, .syncUpdate 0])
  else desk

/-- The snapshots that are not behind the one before. -/
def Nondecreasing : Amount → List (ClaimClock × RestAnswer) → Prop
  | _, [] => True
  | seen, (_, answer) :: snapshots =>
    seen ≤ answer.cumulativeFilled ∧ Nondecreasing answer.cumulativeFilled snapshots

/-- The growth has a price and is more than the smallest one that is posted. -/
def GrowthPosts (seen : Amount) (answer : RestAnswer) : Prop :=
  0 < answer.cumulativeAvg ∧ fillDeltaEpsilon < answer.cumulativeFilled - seen

instance (seen : Amount) (answer : RestAnswer) : Decidable (GrowthPosts seen answer) :=
  inferInstanceAs (Decidable (_ ∧ _))

/-- Every growth that posts is more than the relative tolerance of the quantities. -/
def Resolvable : Amount → List (ClaimClock × RestAnswer) → Prop
  | _, [] => True
  | seen, (_, answer) :: snapshots =>
    (GrowthPosts seen answer →
      answer.cumulativeFilled * (1 / 10 ^ 12) < answer.cumulativeFilled - seen) ∧
      Resolvable answer.cumulativeFilled snapshots

/-- The growth that came without a price, or in steps too small to be posted. -/
def skippedGrowth : Amount → List (ClaimClock × RestAnswer) → Amount
  | _, [] => 0
  | seen, (_, answer) :: snapshots =>
    (if GrowthPosts seen answer then 0 else answer.cumulativeFilled - seen) +
      skippedGrowth answer.cumulativeFilled snapshots

def lastSeen : Amount → List (ClaimClock × RestAnswer) → Amount
  | seen, [] => seen
  | _, (_, answer) :: snapshots => lastSeen answer.cumulativeFilled snapshots

/-! ## The invariant -/

/-- Between synchronisations: the row and the trades agree, and the marker stands at the last
snapshot seen. -/
structure Synced (desk : Desk) (seen : Amount) : Prop where
  claimed : desk.claimed = []
  posted : desk.posted = []
  single : SingleLeg desk.store.row.response
  nonneg : 0 ≤ desk.store.row.filled
  behind : desk.store.row.filled ≤ seen
  quantity : desk.store.postedQuantity = desk.store.row.filled
  value : desk.store.postedValue = desk.store.row.filled * desk.store.row.avgPrice
  priced : 0 < desk.store.row.filled → 0 < desk.store.row.avgPrice
  tracked : (∃ average, desk.store.row.response.liveFillSync = some ⟨seen, average⟩) ∨
    (desk.store.row.response.liveFillSync = none ∧ desk.store.row.filled = seen ∧
      (desk.store.row.exchangeOrderId ≠ "" ∨ seen = 0))

section Step

variable {desk : Desk} {seen : Amount}

theorem Synced.postedStore (h : Synced desk seen) : Posted desk.store := by
  refine ⟨h.quantity.symm ▸ h.nonneg, fun hzero => ?_⟩
  rw [h.value, ← h.quantity, hzero, zero_mul]

theorem Synced.average (h : Synced desk seen) (hpos : 0 < desk.store.row.filled) :
    desk.store.postedAverage = desk.store.row.avgPrice := by
  unfold OrderStore.postedAverage
  rw [h.quantity, if_pos hpos, h.value, mul_div_cancel_left₀ _ hpos.ne']

theorem Synced.growth (h : Synced desk seen) {answer : RestAnswer}
    (hseen : seen ≤ answer.cumulativeFilled) :
    growthOf desk.store.row.claimed answer = answer.cumulativeFilled - seen := by
  have hzero : 0 ≤ seen := h.nonneg.trans h.behind
  have hsingle : SingleLeg desk.store.row.claimed.response := h.single
  have hbase : (baselineOf desk.store.row.claimed answer).trackedFilled = seen := by
    rcases h.tracked with ⟨average, hmarker⟩ | ⟨hnone, hfilled, hid⟩
    · exact baseline_of_marker desk.store.row.claimed hsingle hmarker h.behind hzero answer
    · rw [← hfilled]
      refine baseline_of_row desk.store.row.claimed hsingle hnone ?_ h.nonneg answer
      rw [← hfilled] at hid
      exact hid
  unfold growthOf
  rw [hbase, max_eq_right (hzero.trans hseen)]

/-- INTERNAL: the store of the posting differs from the one of the claim in nothing that the
posting reads. -/
structure Unchanged (store other : OrderStore) : Prop where
  trades : other.trades = store.trades
  filled : other.row.filled = store.row.filled
  response : other.row.response = store.row.response

theorem Synced.skip (h : Synced desk seen) {answer : RestAnswer}
    (hseen : seen ≤ answer.cumulativeFilled) (hskip : ¬ GrowthPosts seen answer)
    {mid : OrderStore} (hmid : Unchanged desk.store mid) :
    ∃ plan, syncPlan desk.store.row.claimed answer = .ok plan ∧
      plan.aggregateFilled = desk.store.row.filled ∧
      plan.aggregateAvg = max 0 desk.store.row.avgPrice ∧
      mid.syncPersist desk.store.row.claimed answer = .ok mid := by
  have hmarket : (desk.store.row.claimed.response.phases.getD {}).marketSummary = none :=
    h.single.1
  have hrow : max 0 desk.store.row.claimed.filled = desk.store.row.filled :=
    max_eq_right h.nonneg
  have hgrowth := h.growth hseen
  by_cases hpriced : fillDeltaEpsilon < max 0 answer.cumulativeFilled ∧
      0 < max 0 answer.cumulativeAvg
  · have hstale : growthOf desk.store.row.claimed answer ≤ fillDeltaEpsilon := by
      rw [hgrowth]
      refine not_lt.mp fun hgrown => hskip ⟨?_, hgrown⟩
      exact (lt_max_iff.mp hpriced.2).resolve_left (lt_irrefl 0)
    have hplan : syncPlan desk.store.row.claimed answer =
        .ok ⟨0, max 0 desk.store.row.claimed.filled, max 0 desk.store.row.claimed.avgPrice,
          true⟩ := by
      rcases syncPlan_stale hmarket hpriced hstale with hok | ⟨hpos, hzero, -⟩
      · exact hok
      · rw [hgrowth] at hzero
        linarith
    refine ⟨_, hplan, hrow, rfl, ?_⟩
    have hquantity : mid.postedQuantity = desk.store.row.filled := by
      unfold OrderStore.postedQuantity
      rw [hmid.trades]
      exact h.quantity
    unfold OrderStore.syncPersist
    rw [hplan]
    dsimp only
    rw [if_pos rfl, hrow]
    exact persistCumulative_stale h.nonneg hquantity.ge
  · refine ⟨_, syncPlan_silent hmarket hpriced, hrow, rfl, ?_⟩
    unfold OrderStore.syncPersist
    rw [syncPlan_silent hmarket hpriced]
    rfl

theorem growthAverage_pos {answer : RestAnswer} (h : 0 < answer.cumulativeAvg)
    (tracked : FillMarker) {delta : Amount} (hdelta : 0 < delta) :
    0 < growthAverage answer tracked delta := by
  unfold growthAverage
  dsimp only
  split_ifs with hnotional
  · exact div_pos hnotional.2.2.2 hdelta
  · exact lt_max_of_lt_right h

theorem Synced.post (h : Synced desk seen) {answer : RestAnswer}
    (hseen : seen ≤ answer.cumulativeFilled) (hposts : GrowthPosts seen answer)
    (hresolved : answer.cumulativeFilled * (1 / 10 ^ 12) < answer.cumulativeFilled - seen)
    {mid : OrderStore} (hmid : Unchanged desk.store mid) :
    ∃ plan price, syncPlan desk.store.row.claimed answer = .ok plan ∧
      plan.aggregateFilled = desk.store.row.filled + (answer.cumulativeFilled - seen) ∧
      0 < plan.aggregateAvg ∧
      desk.store.postedValue + (answer.cumulativeFilled - seen) * price =
        plan.aggregateFilled * plan.aggregateAvg ∧
      mid.syncPersist desk.store.row.claimed answer =
        .ok { mid with
          trades := desk.store.trades ++ [⟨answer.cumulativeFilled - seen, price, 0⟩]
          intent := .partiallyFilled } := by
  have hepsilon : (0 : Amount) < fillDeltaEpsilon := by
    unfold fillDeltaEpsilon
    norm_num
  have hdelta : 0 < answer.cumulativeFilled - seen := hepsilon.trans hposts.2
  have hzero : 0 ≤ seen := h.nonneg.trans h.behind
  have hmarket : (desk.store.row.claimed.response.phases.getD {}).marketSummary = none :=
    h.single.1
  have hrow : max 0 desk.store.row.claimed.filled = desk.store.row.filled :=
    max_eq_right h.nonneg
  have hrowAvg : desk.store.row.claimed.avgPrice = desk.store.row.avgPrice := rfl
  have hgrowth := h.growth hseen
  have hpriced : fillDeltaEpsilon < max 0 answer.cumulativeFilled ∧
      0 < max 0 answer.cumulativeAvg := by
    refine ⟨lt_max_of_lt_right ?_, lt_max_of_lt_right hposts.1⟩
    linarith [hposts.2]
  have hplan := syncPlan_grown hmarket hpriced (by rw [hgrowth]; exact hposts.2)
  rw [hgrowth, hrow, hrowAvg] at hplan
  set growth := answer.cumulativeFilled - seen with hgrowthDef
  set deltaAvg := growthAverage answer (baselineOf desk.store.row.claimed answer) growth
  have hdeltaAvg : 0 < deltaAvg := growthAverage_pos hposts.1 _ hdelta
  have haverage : 0 < desk.store.row.filled → 0 < max 0 desk.store.row.avgPrice :=
    fun hpos => lt_max_of_lt_right (h.priced hpos)
  have hvalue := @grownAverage_value _ _ _ deltaAvg h.nonneg haverage hdelta
  set average := grownAverage desk.store.row.filled (max 0 desk.store.row.avgPrice) growth
    deltaAvg
  -- The value of the row is the posted one, so the difference is that of the growth.
  have hposted : desk.store.row.filled * max 0 desk.store.row.avgPrice =
      desk.store.postedValue := by
    rw [h.value]
    rcases h.nonneg.eq_or_lt with hnil | hpos
    · rw [← hnil, zero_mul, zero_mul]
    · rw [max_eq_right (h.priced hpos).le]
  have hproduct : 0 < growth * deltaAvg := mul_pos hdelta hdeltaAvg
  have hnonneg : 0 ≤ desk.store.postedValue := by
    rw [← hposted]
    exact mul_nonneg h.nonneg (le_max_left _ _)
  have hsum : 0 < desk.store.row.filled + growth := by linarith [h.nonneg]
  have hpositive : 0 < average := by
    have : 0 < (desk.store.row.filled + growth) * average := by linarith
    exact (mul_pos_iff_of_pos_left hsum).mp this
  have hmidQuantity : mid.postedQuantity = desk.store.postedQuantity := by
    unfold OrderStore.postedQuantity
    rw [hmid.trades]
  have hmidValue : mid.postedValue = desk.store.postedValue := by
    unfold OrderStore.postedValue
    rw [hmid.trades]
  have hmidPosted : Posted mid := by
    have hstore := h.postedStore
    unfold Posted at hstore ⊢
    rw [hmidQuantity, hmidValue]
    exact hstore
  have htolerance : desk.store.row.filled +
      quantityTolerance desk.store.row.filled (desk.store.row.filled + growth) <
        desk.store.row.filled + growth := by
    have hlarger : max |desk.store.row.filled| |desk.store.row.filled + growth| =
        desk.store.row.filled + growth := by
      rw [abs_of_nonneg h.nonneg, abs_of_pos hsum]
      exact max_eq_right (by linarith)
    have hbound : desk.store.row.filled + growth ≤ answer.cumulativeFilled := by
      linarith [h.behind]
    have hsmall : quantityTolerance desk.store.row.filled (desk.store.row.filled + growth) <
        growth := by
      unfold quantityTolerance
      rw [hlarger]
      refine max_lt ?_ ?_
      · refine lt_trans ?_ hposts.2
        unfold fillDeltaEpsilon
        norm_num
      · refine lt_of_le_of_lt ?_ hresolved
        exact mul_le_mul_of_nonneg_right hbound (by norm_num)
    linarith
  obtain ⟨price, hdeltaOk⟩ : ∃ price, cumulativeDelta mid.postedQuantity mid.postedAverage
      (desk.store.row.filled + growth) average = .ok (growth, price) := by
    have hpostedPos : 0 < mid.postedQuantity → 0 < mid.postedAverage := by
      intro hpos
      have hmidAverage : mid.postedAverage = desk.store.postedAverage := by
        unfold OrderStore.postedAverage
        rw [hmidQuantity, hmidValue]
      rw [hmidQuantity, h.quantity] at hpos
      rw [hmidAverage, h.average hpos]
      exact h.priced hpos
    have hvalueLess : mid.postedQuantity * mid.postedAverage <
        (desk.store.row.filled + growth) * average := by
      rw [← postedValue_eq hmidPosted, hmidValue]
      linarith
    have hmidFilled : mid.postedQuantity = desk.store.row.filled := hmidQuantity.trans h.quantity
    have hok := cumulativeDelta_ok hmidPosted.1 (by rw [hmidFilled]; exact htolerance) hpositive
      hpostedPos hvalueLess
    have hdifference : desk.store.row.filled + growth - mid.postedQuantity = growth := by
      rw [hmidFilled]
      ring
    rw [hdifference] at hok
    exact ⟨_, hok⟩
  have htotals := totals_of_unposted hmidPosted hdeltaOk hdelta
  refine ⟨_, price, hplan, rfl, hpositive, ?_, ?_⟩
  · rw [← hmidValue]
    exact htotals.2
  · unfold OrderStore.syncPersist
    rw [hplan]
    dsimp only
    rw [if_pos rfl]
    rcases persistCumulative_cases mid (desk.store.row.filled + growth) average with
      ⟨quantity, price, hfound, -, hresult⟩ | ⟨hnothing, -⟩
    · rw [hdeltaOk] at hfound
      cases hfound
      rw [hresult, hmid.trades]
    · exact absurd (hnothing _ _ hdeltaOk) (not_le.mpr hdelta)

theorem run_sync {mid : Desk} {row : PendingOrder} {answer : RestAnswer} {store : OrderStore}
    {update : SnapshotUpdate} (hclaimed : mid.claimed = [row]) (hposted : mid.posted = [])
    (hpersist : mid.store.syncPersist row answer = .ok store)
    (hupdate : syncSnapshot row answer = .ok update) :
    runActions Desk.act mid [.syncPersist 0 answer, .syncUpdate 0] =
      { store := store.updateLiveSentOrderSnapshot update, claimed := [], posted := [] } := by
  have hfirst : mid.act (.syncPersist 0 answer) =
      { store := store, claimed := [], posted := [(row, answer)] } := by
    simp only [Desk.act, hclaimed, hposted, hpersist, List.getElem?_cons_zero,
      List.eraseIdx_zero, List.tail_cons, List.nil_append]
  show (mid.act (.syncPersist 0 answer)).act (.syncUpdate 0) = _
  rw [hfirst]
  simp only [Desk.act, hupdate, List.getElem?_cons_zero, List.eraseIdx_zero, List.tail_cons]

theorem syncOnce_eq (h : Synced desk seen) {snapshot : ClaimClock × RestAnswer}
    (hclaim : desk.store.Claimable snapshot.1) :
    ∃ mid, Unchanged desk.store mid ∧
      ∀ store update, mid.syncPersist desk.store.row.claimed snapshot.2 = .ok store →
        syncSnapshot desk.store.row.claimed snapshot.2 = .ok update →
        syncOnce desk snapshot =
          { store := store.updateLiveSentOrderSnapshot update, claimed := [], posted := [] } := by
  have hafter : desk.act (.claim snapshot.1) =
      { store := { desk.store with row := desk.store.row.claimed }
        claimed := [desk.store.row.claimed]
        posted := [] } := by
    unfold Desk.act
    dsimp only
    rw [if_pos hclaim, h.claimed, h.posted]
    rfl
  unfold syncOnce
  rw [if_pos hclaim]
  by_cases hbind : desk.store.row.exchangeOrderId = "" ∧ snapshot.2.boundOrderId ≠ ""
  · refine ⟨{ desk.store with row := { desk.store.row.claimed with
      exchangeOrderId := snapshot.2.boundOrderId } }, ⟨rfl, rfl, rfl⟩, ?_⟩
    intro store update hpersist hupdate
    rw [if_pos hbind]
    show runActions Desk.act ((desk.act (.claim snapshot.1)).act (.bind snapshot.2.boundOrderId))
      [.syncPersist 0 snapshot.2, .syncUpdate 0] = _
    rw [hafter]
    exact run_sync rfl rfl hpersist hupdate
  · refine ⟨{ desk.store with row := desk.store.row.claimed }, ⟨rfl, rfl, rfl⟩, ?_⟩
    intro store update hpersist hupdate
    rw [if_neg hbind]
    show runActions Desk.act (desk.act (.claim snapshot.1))
      [.syncPersist 0 snapshot.2, .syncUpdate 0] = _
    rw [hafter]
    exact run_sync rfl rfl hpersist hupdate

theorem synced_of_update {store : OrderStore} {update : SnapshotUpdate} {average : Amount}
    {phases : Option Phases} (hphases : store.row.response.phases = phases)
    (hsingle : SingleLeg { phases := phases }) (hguard : store.row.filled ≤ update.filled)
    (hnonneg : 0 ≤ update.filled) (hbehind : update.filled ≤ seen)
    (hquantity : store.postedQuantity = update.filled)
    (hvalue : store.postedValue = update.filled * update.avgPrice)
    (hpriced : 0 < update.filled → 0 < update.avgPrice)
    (hresponse : update.response = { liveFillSync := some ⟨seen, average⟩, phases := phases }) :
    Synced { store := store.updateLiveSentOrderSnapshot update, claimed := [], posted := [] }
      seen := by
  have hrow : (store.updateLiveSentOrderSnapshot update).row =
      { store.row with
        status := update.status
        dispatchNote := update.dispatchNote
        filled := update.filled
        avgPrice := update.avgPrice
        response := { liveFillSync := some ⟨seen, average⟩, phases := phases } } := by
    unfold OrderStore.updateLiveSentOrderSnapshot
    dsimp only
    rw [if_pos hguard, hresponse, hphases, Option.or_self]
    rfl
  constructor
  · rfl
  · rfl
  · rw [hrow]
    exact hsingle
  · rw [hrow]
    exact hnonneg
  · rw [hrow]
    exact hbehind
  · rw [hrow]
    exact hquantity
  · rw [hrow]
    exact hvalue
  · rw [hrow]
    exact hpriced
  · rw [hrow]
    exact Or.inl ⟨average, rfl⟩

theorem Synced.step (h : Synced desk seen) {snapshot : ClaimClock × RestAnswer}
    (hclaim : desk.store.Claimable snapshot.1) (hseen : seen ≤ snapshot.2.cumulativeFilled)
    (hresolved : GrowthPosts seen snapshot.2 → snapshot.2.cumulativeFilled * (1 / 10 ^ 12) <
      snapshot.2.cumulativeFilled - seen) :
    Synced (syncOnce desk snapshot) snapshot.2.cumulativeFilled ∧
      (syncOnce desk snapshot).store.row.filled = desk.store.row.filled +
        (if GrowthPosts seen snapshot.2 then snapshot.2.cumulativeFilled - seen else 0) := by
  have hzero : 0 ≤ snapshot.2.cumulativeFilled := h.nonneg.trans (h.behind.trans hseen)
  have hmax : max 0 snapshot.2.cumulativeFilled = snapshot.2.cumulativeFilled := max_eq_right hzero
  obtain ⟨mid, hmid, hresult⟩ := syncOnce_eq h hclaim
  have hphases : mid.row.response.phases = desk.store.row.response.phases := by rw [hmid.response]
  by_cases hposts : GrowthPosts seen snapshot.2
  · obtain ⟨plan, price, hplan, hfilled, haverage, hvalue, hpersist⟩ :=
      h.post hseen hposts (hresolved hposts) hmid
    obtain ⟨update, hupdate, hupdateFilled, hupdateAvg, hresponse⟩ := syncSnapshot_ok hplan
    have hgrowth : 0 < snapshot.2.cumulativeFilled - seen := by
      refine lt_trans ?_ hposts.2
      unfold fillDeltaEpsilon
      norm_num
    have hguard : mid.row.filled ≤ update.filled := by
      rw [hmid.filled, hupdateFilled, hfilled]
      linarith
    have htotals := @posted_append desk.store ⟨snapshot.2.cumulativeFilled - seen, price, 0⟩
      .partiallyFilled mid.row
    rw [hresult _ _ hpersist hupdate, if_pos hposts]
    refine ⟨synced_of_update hphases h.single hguard ?_ ?_ ?_ ?_ ?_ (hmax ▸ hresponse), ?_⟩
    · exact (hmid.filled.symm ▸ h.nonneg).trans hguard
    · rw [hupdateFilled, hfilled]
      linarith [h.behind]
    · rw [hupdateFilled, hfilled, ← h.quantity]
      exact htotals.1
    · rw [hupdateFilled, hupdateAvg, ← hvalue]
      exact htotals.2
    · intro _
      rw [hupdateAvg]
      exact haverage
    · unfold OrderStore.updateLiveSentOrderSnapshot
      dsimp only
      rw [if_pos hguard]
      exact hupdateFilled.trans hfilled
  · obtain ⟨plan, hplan, hfilled, haverage, hpersist⟩ := h.skip hseen hposts hmid
    obtain ⟨update, hupdate, hupdateFilled, hupdateAvg, hresponse⟩ := syncSnapshot_ok hplan
    have hguard : mid.row.filled ≤ update.filled := by
      rw [hmid.filled, hupdateFilled, hfilled]
    have hquantity : mid.postedQuantity = desk.store.row.filled := by
      unfold OrderStore.postedQuantity
      rw [hmid.trades]
      exact h.quantity
    have hvalue : mid.postedValue = desk.store.row.filled * max 0 desk.store.row.avgPrice := by
      unfold OrderStore.postedValue
      rw [hmid.trades]
      refine h.value.trans ?_
      rcases h.nonneg.eq_or_lt with hnil | hpos
      · rw [← hnil, zero_mul, zero_mul]
      · rw [max_eq_right (h.priced hpos).le]
    rw [hresult _ _ hpersist hupdate, if_neg hposts, add_zero]
    refine ⟨synced_of_update hphases h.single hguard ?_ ?_ ?_ ?_ ?_ (hmax ▸ hresponse), ?_⟩
    · exact (hmid.filled.symm ▸ h.nonneg).trans hguard
    · rw [hupdateFilled, hfilled]
      exact h.behind.trans hseen
    · rw [hupdateFilled, hfilled]
      exact hquantity
    · rw [hupdateFilled, hupdateAvg, hfilled, haverage]
      exact hvalue
    · intro hpos
      rw [hupdateFilled, hfilled] at hpos
      rw [hupdateAvg, haverage]
      exact lt_max_of_lt_right (h.priced hpos)
    · unfold OrderStore.updateLiveSentOrderSnapshot
      dsimp only
      rw [if_pos hguard]
      exact hupdateFilled.trans hfilled

end Step

/-! ## Runs -/

/-- Every synchronisation of the run finds its row claimable. -/
def AllClaimed (desk : Desk) (snapshots : List (ClaimClock × RestAnswer)) : Prop :=
  Along syncOnce (fun desk snapshot => desk.store.Claimable snapshot.1) desk snapshots

theorem Synced.run {desk : Desk} {seen : Amount} (h : Synced desk seen)
    {snapshots : List (ClaimClock × RestAnswer)} (hclaims : AllClaimed desk snapshots)
    (hmono : Nondecreasing seen snapshots) (hresolved : Resolvable seen snapshots) :
    Synced (runActions syncOnce desk snapshots) (lastSeen seen snapshots) ∧
      (runActions syncOnce desk snapshots).store.row.filled = desk.store.row.filled +
        (lastSeen seen snapshots - seen) - skippedGrowth seen snapshots := by
  induction snapshots generalizing desk seen with
  | nil =>
    refine ⟨h, ?_⟩
    simp [runActions, lastSeen, skippedGrowth]
  | cons snapshot snapshots ih =>
    obtain ⟨clock, answer⟩ := snapshot
    obtain ⟨hclaim, hclaims⟩ := hclaims
    obtain ⟨hseen, hmono⟩ := hmono
    obtain ⟨hgrowth, hresolved⟩ := hresolved
    obtain ⟨hnext, hmoved⟩ := h.step hclaim hseen hgrowth
    obtain ⟨hsynced, hfilled⟩ := ih hnext hclaims hmono hresolved
    refine ⟨hsynced, ?_⟩
    show (runActions syncOnce (syncOnce desk (clock, answer)) snapshots).store.row.filled = _
    have hskipped : skippedGrowth seen ((clock, answer) :: snapshots) =
        (if GrowthPosts seen answer then 0 else answer.cumulativeFilled - seen) +
          skippedGrowth answer.cumulativeFilled snapshots := rfl
    have hlast : lastSeen seen ((clock, answer) :: snapshots) =
        lastSeen answer.cumulativeFilled snapshots := rfl
    rw [hfilled, hmoved, hskipped, hlast]
    dsimp only
    split_ifs
    · ring
    · ring

theorem skippedGrowth_nonneg {seen : Amount} {snapshots : List (ClaimClock × RestAnswer)}
    (hmono : Nondecreasing seen snapshots) : 0 ≤ skippedGrowth seen snapshots := by
  induction snapshots generalizing seen with
  | nil => exact le_refl 0
  | cons snapshot snapshots ih =>
    obtain ⟨clock, answer⟩ := snapshot
    refine add_nonneg ?_ (ih hmono.2)
    split_ifs
    · exact le_refl 0
    · exact sub_nonneg.mpr hmono.1

theorem run_front {seen : Amount} {front rest : List (ClaimClock × RestAnswer)} :
    (Nondecreasing seen (front ++ rest) → Nondecreasing seen front) ∧
      (Resolvable seen (front ++ rest) → Resolvable seen front) := by
  induction front generalizing seen with
  | nil => exact ⟨fun _ => trivial, fun _ => trivial⟩
  | cons snapshot front ih =>
    exact ⟨fun hmono => ⟨hmono.1, ih.1 hmono.2⟩, fun hres => ⟨hres.1, ih.2 hres.2⟩⟩

theorem lastSeen_append (seen : Amount) (front : List (ClaimClock × RestAnswer))
    (clock : ClaimClock) (answer : RestAnswer) :
    lastSeen seen (front ++ [(clock, answer)]) = answer.cumulativeFilled := by
  induction front generalizing seen with
  | nil => rfl
  | cons snapshot front ih => exact ih _

/-- After every snapshot with a price the posted amounts are its quantity, up to 1e-8. -/
def PostsEverySnapshot (desk : Desk) (snapshots : List (ClaimClock × RestAnswer)) : Prop :=
  ∀ front clock answer, front ++ [(clock, answer)] <+: snapshots → 0 < answer.cumulativeAvg →
    |(runActions syncOnce desk (front ++ [(clock, answer)])).store.postedQuantity -
      answer.cumulativeFilled| ≤ 1 / 10 ^ 8

/-- At every snapshot with a price, the growth that came without a price, or in steps of at
most 1e-8, adds up to 1e-8 at most. -/
def PricedInTime (seen : Amount) (snapshots : List (ClaimClock × RestAnswer)) : Prop :=
  ∀ front clock answer, front ++ [(clock, answer)] <+: snapshots → 0 < answer.cumulativeAvg →
    skippedGrowth seen (front ++ [(clock, answer)]) ≤ 1 / 10 ^ 8

/-- **When a late price loses nothing.** Along every sequence of snapshots of an order whose
row and trades agree, every snapshot with a price is posted completely exactly when the
growth that came without a price stays within the tolerance. -/
theorem late_price_posted_iff (desk : Desk) (seen : Amount) (h : Synced desk seen)
    (hsettled : desk.store.row.filled = seen) (snapshots : List (ClaimClock × RestAnswer))
    (hclaims : AllClaimed desk snapshots) (hmono : Nondecreasing seen snapshots)
    (hresolved : Resolvable seen snapshots) :
    PostsEverySnapshot desk snapshots ↔ PricedInTime seen snapshots := by
  have hshort : ∀ front clock answer, front ++ [(clock, answer)] <+: snapshots →
      |(runActions syncOnce desk (front ++ [(clock, answer)])).store.postedQuantity -
        answer.cumulativeFilled| = skippedGrowth seen (front ++ [(clock, answer)]) := by
    rintro front clock answer ⟨rest, rfl⟩
    have hfront := run_front.1 hmono
    obtain ⟨hsynced, hfilled⟩ := h.run (along_append.mp hclaims).1 hfront (run_front.2 hresolved)
    rw [lastSeen_append] at hfilled
    rw [hsynced.quantity, hfilled, hsettled, abs_sub_comm]
    refine Eq.trans (abs_of_nonneg ?_) ?_
    · linarith [skippedGrowth_nonneg hfront]
    · ring
  constructor
  · intro hposts front clock answer hinitial hpriced
    rw [← hshort front clock answer hinitial]
    exact hposts front clock answer hinitial hpriced
  · intro hpriced front clock answer hinitial havg
    rw [hshort front clock answer hinitial]
    exact hpriced front clock answer hinitial havg

def restingDesk : Desk where
  store := { row := { status := .sent, exchangeOrderId := "7", amount := 1 } }

theorem synced_resting : Synced restingDesk 0 := by
  constructor
  · rfl
  · rfl
  · exact ⟨rfl, rfl⟩
  · exact le_refl _
  · exact le_refl _
  · rfl
  · decide +kernel
  · intro hpos
    exact absurd hpos (lt_irrefl 0)
  · exact Or.inr ⟨rfl, rfl, Or.inr rfl⟩

def shareAnswer (filled average : Amount) (status : String) : ClaimClock × RestAnswer :=
  ({}, ⟨filled, average, status, 1, "", false⟩)

/-- A share that is reported with its price is posted. -/
theorem priced_share_posted :
    PostsEverySnapshot restingDesk [shareAnswer 1 100 "filled"] := by
  refine (late_price_posted_iff restingDesk 0 synced_resting rfl [shareAnswer 1 100 "filled"]
    ⟨by decide +kernel, trivial⟩ ⟨by decide +kernel, trivial⟩ ⟨?_, trivial⟩).mpr ?_
  · intro _
    decide +kernel
  · intro front clock answer hinitial _
    have hone : front = [] ∧ (clock, answer) = shareAnswer 1 100 "filled" := by
      cases front with
      | nil => exact ⟨rfl, (List.cons_prefix_cons.mp hinitial).1⟩
      | cons snapshot front =>
        have hnil := List.prefix_nil.mp (List.cons_prefix_cons.mp hinitial).2
        simp at hnil
    rw [hone.1, hone.2]
    decide +kernel

/-- A share is reported filled without a price, and then with its price: it is never posted. -/
theorem late_price_share_lost :
    ¬ PostsEverySnapshot restingDesk [shareAnswer 1 0 "filled", shareAnswer 1 100 "filled"] := by
  intro hposts
  have hlast := hposts [shareAnswer 1 0 "filled"] {} (shareAnswer 1 100 "filled").2
    (List.prefix_refl _) (by decide +kernel)
  revert hlast
  decide +kernel

end QuantDinger.Analysis
