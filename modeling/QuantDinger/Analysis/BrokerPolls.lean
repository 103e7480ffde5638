import QuantDinger.Analysis.Posting
import QuantDinger.Library.Runs
import QuantDinger.Model.BrokerSync

/-!
# Polls of a broker order

The worker derives the increment of a poll from the row, the posting derives it again from the
posted trades. The first divides by a quantity that may be zero and may be negative, the second
posts nothing of a snapshot without a price, within the tolerance or of no larger value. Along
polls that do neither, the trades add up to the largest quantity seen.
-/

namespace QuantDinger.Analysis

open QuantDinger.Library QuantDinger.Model QuantDinger.Model.Live

/-! ## Polls -/

/-- What happens to a broker order. -/
inductive BrokerAction
  | requeue
  | poll (clock : ClaimClock) (answer : BrokerAnswer)

/-- The store of an order with its history: the largest cumulative quantity seen, and the
increments of the polls. -/
structure BrokerHistory where
  store : OrderStore
  largest : Amount
  increments : List (Except FillError (Option (Amount × Amount))) := []

def BrokerHistory.act (history : BrokerHistory) : BrokerAction → BrokerHistory
  | .requeue => { history with store := history.store.requeueStaleSync }
  | .poll clock answer =>
    let result := history.store.syncBrokerOrder clock answer
    match result.2 with
    | none => history
    | some increment =>
      { store := result.1
        largest := max history.largest answer.filled
        increments := history.increments ++ [increment] }

/-- The history of a store before its first poll. -/
def BrokerHistory.start (store : OrderStore) : BrokerHistory where
  store := store
  largest := store.postedQuantity

/-- No increment failed or was negative, and the trades add up to the largest quantity seen. -/
structure Reconciled (history : BrokerHistory) : Prop where
  computed : ∀ increment ∈ history.increments, ∃ result, increment = .ok result ∧
    ∀ delta price, result = some (delta, price) → 0 ≤ delta
  posted : history.store.postedQuantity = history.largest

def BrokerAction.Nonneg : BrokerAction → Prop
  | requeue => True
  | poll _ answer => 0 ≤ answer.filled ∧ 0 ≤ answer.avgPrice

/-- An order as its columns allow: quantities and prices are not negative, those of trades
positive. -/
structure OrderlyStore (store : OrderStore) : Prop where
  filled : 0 ≤ store.row.filled
  avgPrice : 0 ≤ store.row.avgPrice
  trades : ∀ trade ∈ store.trades, 0 < trade.amount ∧ 0 < trade.price

def Priced (answer : BrokerAnswer) : Prop := fillDeltaEpsilon < answer.filled ∧ 0 < answer.avgPrice

/-- The snapshot revises the average of an unchanged quantity upward. -/
def RevisedUp (store : OrderStore) (answer : BrokerAnswer) : Prop :=
  answer.filled = store.row.filled ∧ 0 < store.row.avgPrice ∧ store.row.avgPrice < answer.avgPrice

/-- The snapshot is beyond the tolerance of what is posted, and of a larger value. -/
def Grown (store : OrderStore) (answer : BrokerAnswer) : Prop :=
  store.postedQuantity + quantityTolerance store.postedQuantity answer.filled < answer.filled ∧
    store.postedValue < answer.filled * answer.avgPrice

/-- A poll that is not made, or whose snapshot is neither a smaller quantity than the row's nor an
unchanged one at a higher average, and is posted already or a priced growth. -/
def PollFits (history : BrokerHistory) : BrokerAction → Prop
  | .requeue => True
  | .poll clock answer => history.store.BrokerClaimable clock →
      (Priced answer → history.store.row.filled ≤ answer.filled ∧
        ¬ RevisedUp history.store answer) ∧
      (answer.filled ≤ history.store.postedQuantity ∨
        (Priced answer ∧ Grown history.store answer))

instance (answer : BrokerAnswer) : Decidable (Priced answer) := inferInstanceAs (Decidable (_ ∧ _))

instance (store : OrderStore) (answer : BrokerAnswer) : Decidable (RevisedUp store answer) :=
  inferInstanceAs (Decidable (_ ∧ _))

instance (store : OrderStore) (answer : BrokerAnswer) : Decidable (Grown store answer) :=
  inferInstanceAs (Decidable (_ ∧ _))

instance (history : BrokerHistory) : DecidablePred (PollFits history)
  | .requeue => inferInstanceAs (Decidable True)
  | .poll clock _ =>
    inferInstanceAs (Decidable (history.store.BrokerClaimable clock → _))

/-! ## The increment -/

section

variable {row : PendingOrder} {answer : BrokerAnswer} {store : OrderStore} {clock : ClaimClock}

theorem brokerIncrement_iff :
    (∃ result, brokerIncrement row answer = .ok result ∧
        ∀ delta price, result = some (delta, price) → 0 ≤ delta) ↔
      (Priced answer → row.filled ≤ answer.filled ∧
        ¬ (answer.filled = row.filled ∧ 0 < row.avgPrice ∧ row.avgPrice < answer.avgPrice)) := by
  have hcomputed : ∀ {delta price : Amount} {P : Prop}, (0 ≤ delta ↔ P) →
      ((∃ result, (Except.ok (some (delta, price)) : Except FillError _) = .ok result ∧
        ∀ delta price, result = some (delta, price) → 0 ≤ delta) ↔ P) := by
    intro delta price P hiff
    rw [← hiff]
    constructor
    · rintro ⟨result, hresult, hall⟩
      cases hresult
      exact hall delta price rfl
    · rintro hnonneg
      refine ⟨_, rfl, ?_⟩
      rintro _ _ ⟨⟩
      exact hnonneg
  unfold brokerIncrement Priced
  dsimp only
  by_cases hpriced : fillDeltaEpsilon < answer.filled ∧ 0 < answer.avgPrice
  · rw [if_pos hpriced]
    have hpos : 0 < answer.filled := lt_trans (by unfold fillDeltaEpsilon; norm_num) hpriced.1
    by_cases hknown : 0 < row.filled ∧ 0 < row.avgPrice
    · rw [if_pos hknown]
      by_cases hnotional : 0 < answer.filled * answer.avgPrice - row.filled * row.avgPrice
      · rw [if_pos hnotional]
        by_cases hsame : answer.filled - row.filled = 0
        · -- the quantity is unchanged, so the average has gone up
          have hequal : answer.filled = row.filled := sub_eq_zero.1 hsame
          rw [if_pos hsame]
          refine iff_of_false (fun ⟨_, herror, _⟩ => nomatch herror) fun h => ?_
          refine (h hpriced).2 ⟨hequal, hknown.2, ?_⟩
          rw [hequal, ← mul_sub] at hnotional
          exact sub_pos.1 ((mul_pos_iff_of_pos_left hknown.1).1 hnotional)
        · rw [if_neg hsame]
          refine hcomputed ⟨fun hnonneg _ => ⟨sub_nonneg.1 hnonneg, fun hboth => ?_⟩,
            fun h => sub_nonneg.2 (h hpriced).1⟩
          exact hsame (sub_eq_zero.2 hboth.1)
      · rw [if_neg hnotional]
        refine hcomputed ⟨fun hnonneg _ => ⟨sub_nonneg.1 hnonneg, fun hboth => ?_⟩,
          fun h => sub_nonneg.2 (h hpriced).1⟩
        apply hnotional
        rw [hboth.1, ← mul_sub]
        exact mul_pos hknown.1 (sub_pos.2 hboth.2.2)
    · rw [if_neg hknown]
      refine hcomputed ⟨fun hnonneg _ => ⟨sub_nonneg.1 hnonneg, fun hboth => ?_⟩,
        fun h => sub_nonneg.2 (h hpriced).1⟩
      exact hknown ⟨hboth.1 ▸ hpos, hboth.2.1⟩
  · rw [if_neg hpriced]
    refine iff_of_true ⟨none, rfl, fun _ _ h => nomatch h⟩ fun h => absurd h hpriced

/-! ## The posting -/

theorem OrderlyStore.posted (h : OrderlyStore store) :
    Posted store ∧ (0 < store.postedQuantity → 0 < store.postedAverage) := by
  have hsums : ∀ trades : List StrategyTrade,
      (∀ trade ∈ trades, 0 < trade.amount ∧ 0 < trade.price) →
      0 ≤ (trades.map StrategyTrade.amount).sum ∧
        (trades = [] ∨ 0 < (trades.map StrategyTrade.amount).sum ∧
          0 < (trades.map fun trade => trade.amount * trade.price).sum) := by
    intro trades htrades
    induction trades with
    | nil => exact ⟨le_refl 0, Or.inl rfl⟩
    | cons trade trades ih =>
      obtain ⟨hamount, hprice⟩ := htrades trade List.mem_cons_self
      obtain ⟨hnonneg, hrest⟩ := ih fun t ht => htrades t (List.mem_cons_of_mem _ ht)
      have hvalue := mul_pos hamount hprice
      simp only [List.map_cons, List.sum_cons]
      refine ⟨by linarith, Or.inr ⟨by linarith, ?_⟩⟩
      rcases hrest with rfl | hboth
      · simpa using hvalue
      · linarith [hboth.2]
  obtain ⟨hnonneg, hrest⟩ := hsums store.trades h.trades
  refine ⟨⟨hnonneg, ?_⟩, ?_⟩
  · intro hzero
    rcases hrest with hnil | hboth
    · unfold OrderStore.postedValue
      rw [hnil]
      rfl
    · exact absurd hzero hboth.1.ne'
  · intro hpos
    unfold OrderStore.postedAverage
    rw [if_pos hpos]
    rcases hrest with hnil | hboth
    · unfold OrderStore.postedQuantity at hpos
      rw [hnil] at hpos
      exact absurd hpos (lt_irrefl 0)
    · exact div_pos hboth.2 hpos

theorem OrderlyStore.commit (h : OrderlyStore store) (cumulative average : Amount) :
    OrderlyStore (store.commit (store.persistCumulative cumulative average)) ∧
      (store.commit (store.persistCumulative cumulative average)).row = store.row := by
  rcases persistCumulative_cases store cumulative average with
    ⟨quantity, price, hdelta, hpos, hresult⟩ | ⟨_, hresult | ⟨e, hresult⟩⟩
  · rw [hresult]
    refine ⟨⟨h.filled, h.avgPrice, ?_⟩, rfl⟩
    intro trade htrade
    rcases List.mem_append.1 htrade with htrade | htrade
    · exact h.trades trade htrade
    · rw [List.mem_singleton.1 htrade]
      exact ⟨hpos, (cumulativeDelta_pos hdelta hpos).2.2.1⟩
  · rw [hresult]
    exact ⟨h, rfl⟩
  · rw [hresult]
    exact ⟨h, rfl⟩

theorem commit_posted_iff (h : OrderlyStore store) {cumulative average : Amount}
    (hnonneg : 0 ≤ cumulative) (havg : 0 < average) :
    (store.commit (store.persistCumulative cumulative average)).postedQuantity =
        max store.postedQuantity cumulative ↔
      cumulative ≤ store.postedQuantity ∨
        (store.postedQuantity + quantityTolerance store.postedQuantity cumulative < cumulative ∧
          store.postedValue < cumulative * average) := by
  obtain ⟨hposted, hpriced⟩ := h.posted
  rcases le_or_gt cumulative store.postedQuantity with hstale | hnew
  · rw [persistCumulative_stale hnonneg hstale]
    exact iff_of_true (max_eq_left hstale).symm (Or.inl hstale)
  · rw [max_eq_right hnew.le, or_iff_right (not_le.2 hnew)]
    constructor
    · intro hreached
      rcases persistCumulative_cases store cumulative average with
        ⟨quantity, price, hdelta, hpos, hresult⟩ | ⟨_, hresult | ⟨e, hresult⟩⟩
      · obtain ⟨hquantity, hprice, hpricePos, hgrown⟩ := cumulativeDelta_pos hdelta hpos
        refine ⟨hgrown, ?_⟩
        obtain ⟨_, hvalue⟩ := totals_of_unposted hposted hdelta hpos
        linarith [mul_pos hpos hpricePos]
      · rw [hresult] at hreached
        exact absurd hreached hnew.ne
      · rw [hresult] at hreached
        exact absurd hreached hnew.ne
    · rintro ⟨hgrown, hvalue⟩
      rw [postedValue_eq hposted] at hvalue
      have hdelta := cumulativeDelta_ok hposted.1 hgrown havg hpriced hvalue
      have hpos : 0 < cumulative - store.postedQuantity := sub_pos.2 hnew
      rcases persistCumulative_cases store cumulative average with
        ⟨quantity, price, hdelta', _, hresult⟩ | ⟨hnothing, _⟩
      · rw [hdelta] at hdelta'
        cases hdelta'
        rw [hresult]
        refine (posted_append _ _ _).1.trans ?_
        dsimp only
        ring
      · exact absurd (hnothing _ _ hdelta) (not_le.2 hpos)

/-! ## One poll -/

theorem bound_figures (row : PendingOrder) (answer : BrokerAnswer) :
    (row.bound answer).filled = row.filled ∧ (row.bound answer).avgPrice = row.avgPrice := by
  unfold PendingOrder.bound
  split_ifs
  · exact ⟨rfl, rfl⟩
  · exact ⟨rfl, rfl⟩

theorem brokerIncrement_congr {row row' : PendingOrder} (hfilled : row.filled = row'.filled)
    (havg : row.avgPrice = row'.avgPrice) :
    brokerIncrement row answer = brokerIncrement row' answer := by
  unfold brokerIncrement
  rw [hfilled, havg]

theorem postedQuantity_of_trades {store other : OrderStore} (h : store.trades = other.trades) :
    store.postedQuantity = other.postedQuantity ∧ store.postedValue = other.postedValue := by
  unfold OrderStore.postedQuantity OrderStore.postedValue
  rw [h]
  exact ⟨rfl, rfl⟩

theorem updated_trades (store : OrderStore) (answer : BrokerAnswer) :
    (store.updateBrokerSnapshot answer).trades = store.trades := by
  unfold OrderStore.updateBrokerSnapshot
  dsimp only

theorem updated_posted (store : OrderStore) (answer : BrokerAnswer) :
    (store.updateBrokerSnapshot answer).postedQuantity = store.postedQuantity :=
  (postedQuantity_of_trades (updated_trades store answer)).1

theorem updated_figures (store : OrderStore) (answer : BrokerAnswer) :
    (store.updateBrokerSnapshot answer).row.filled = answer.filled ∧
      (store.updateBrokerSnapshot answer).row.avgPrice = answer.avgPrice := by
  unfold OrderStore.updateBrokerSnapshot
  dsimp only
  exact ⟨rfl, rfl⟩

theorem OrderlyStore.updated (h : OrderlyStore store)
    (hanswer : 0 ≤ answer.filled ∧ 0 ≤ answer.avgPrice) :
    OrderlyStore (store.updateBrokerSnapshot answer) := by
  obtain ⟨hfilled, havg⟩ := updated_figures store answer
  refine ⟨?_, ?_, ?_⟩
  · rw [hfilled]
    exact hanswer.1
  · rw [havg]
    exact hanswer.2
  · rw [updated_trades]
    exact h.trades

theorem priced_of_increment {result : Option (Amount × Amount)}
    (h : brokerIncrement row answer = .ok result) : result.isSome = true ↔ Priced answer := by
  unfold brokerIncrement at h
  unfold Priced
  dsimp only at h
  split_ifs at h with hpriced hknown hnotional hzero
  · cases h
    exact iff_of_true rfl hpriced
  · cases h
    exact iff_of_true rfl hpriced
  · cases h
    exact iff_of_true rfl hpriced
  · cases h
    exact iff_of_false Bool.false_ne_true hpriced

/-- What a poll does to the quantities: an increment that fails posts nothing, a priced snapshot is
posted, one without a price is not.

INTERNAL: everything that the invariants need of a poll that is made. -/
theorem sync_cases (h : OrderlyStore store) (hanswer : 0 ≤ answer.filled ∧ 0 ≤ answer.avgPrice)
    (hclaim : store.BrokerClaimable clock) :
    ∃ after, store.syncBrokerOrder clock answer =
        (after, some (brokerIncrement store.row answer)) ∧ OrderlyStore after ∧
      ((∃ e, brokerIncrement store.row answer = .error e) ∨
        (Priced answer ∧ (after.postedQuantity = max store.postedQuantity answer.filled ↔
          answer.filled ≤ store.postedQuantity ∨ Grown store answer)) ∨
        (¬ Priced answer ∧ after.postedQuantity = store.postedQuantity)) := by
  have hsame : brokerIncrement store.row.brokerClaimed answer = brokerIncrement store.row answer :=
    brokerIncrement_congr rfl rfl
  set claimed : OrderStore := { store with row := store.row.brokerClaimed.bound answer }
    with hclaimed
  have hfigures := bound_figures store.row.brokerClaimed answer
  have horderly : OrderlyStore claimed := by
    refine ⟨?_, ?_, h.trades⟩
    · exact hfigures.1.symm ▸ h.filled
    · exact hfigures.2.symm ▸ h.avgPrice
  have htotals : claimed.postedQuantity = store.postedQuantity ∧
      claimed.postedValue = store.postedValue := postedQuantity_of_trades rfl
  unfold OrderStore.syncBrokerOrder
  rw [if_pos hclaim]
  dsimp only
  rw [hsame, ← hclaimed]
  cases hincrement : brokerIncrement store.row answer with
  | error e => exact ⟨claimed, rfl, horderly, Or.inl ⟨e, rfl⟩⟩
  | ok result =>
    have hpriced := priced_of_increment hincrement
    cases result with
    | none =>
      refine ⟨claimed.updateBrokerSnapshot answer, rfl, horderly.updated hanswer, ?_⟩
      refine Or.inr (Or.inr ⟨fun hsome => ?_, ?_⟩)
      · exact Bool.false_ne_true (hpriced.2 hsome)
      · rw [updated_posted, htotals.1]
    | some increment =>
      have havg := hpriced.1 rfl
      have hposted := commit_posted_iff horderly hanswer.1 havg.2
      rw [htotals.1, htotals.2] at hposted
      have hcommit := (horderly.commit answer.filled answer.avgPrice).1
      dsimp only
      cases hpersist : claimed.persistCumulative answer.filled answer.avgPrice with
      | error e =>
        rw [hpersist] at hposted
        exact ⟨claimed, rfl, horderly, Or.inr (Or.inl ⟨havg, hposted⟩)⟩
      | ok after =>
        rw [hpersist] at hposted hcommit
        unfold OrderStore.commit at hposted
        dsimp only at hposted
        rw [← updated_posted after answer] at hposted
        exact ⟨after.updateBrokerSnapshot answer, rfl, hcommit.updated hanswer,
          Or.inr (Or.inl ⟨havg, hposted⟩)⟩

theorem OrderlyStore.requeued (h : OrderlyStore store) :
    OrderlyStore store.requeueStaleSync ∧
      store.requeueStaleSync.postedQuantity = store.postedQuantity := by
  unfold OrderStore.requeueStaleSync
  split_ifs
  · exact ⟨⟨h.filled, h.avgPrice, h.trades⟩, rfl⟩
  · exact ⟨h, rfl⟩

/-! ## Runs of polls -/

theorem act_orderly {history : BrokerHistory} {action : BrokerAction}
    (h : OrderlyStore history.store) (haction : action.Nonneg) :
    OrderlyStore (history.act action).store := by
  cases action with
  | requeue => exact h.requeued.1
  | poll clock answer =>
    unfold BrokerHistory.act
    dsimp only
    by_cases hclaim : history.store.BrokerClaimable clock
    · obtain ⟨after, hsync, hafter, _⟩ := sync_cases h haction hclaim
      rw [hsync]
      exact hafter
    · unfold OrderStore.syncBrokerOrder
      rw [if_neg hclaim]
      exact h

theorem act_reconciled_iff {history : BrokerHistory} {action : BrokerAction}
    (h : OrderlyStore history.store) (haction : action.Nonneg) (hbefore : Reconciled history) :
    Reconciled (history.act action) ↔ PollFits history action := by
  cases action with
  | requeue =>
    exact iff_of_true ⟨hbefore.computed, h.requeued.2.trans hbefore.posted⟩ trivial
  | poll clock answer =>
    unfold BrokerHistory.act PollFits
    dsimp only
    by_cases hclaim : history.store.BrokerClaimable clock
    · obtain ⟨after, hsync, _, hcases⟩ := sync_cases h haction hclaim
      have hincrement := @brokerIncrement_iff history.store.row answer
      rw [hsync, forall_prop_of_true hclaim]
      have hmax : max history.largest answer.filled =
          max history.store.postedQuantity answer.filled := by rw [hbefore.posted]
      constructor
      · intro hafter
        have hcomputed := hafter.computed (brokerIncrement history.store.row answer)
          (List.mem_append_right _ List.mem_cons_self)
        have hposted := hafter.posted
        dsimp only at hposted
        rw [hmax] at hposted
        refine ⟨hincrement.1 hcomputed, ?_⟩
        rcases hcases with ⟨e, herror⟩ | ⟨hpriced, hiff⟩ | ⟨_, hkept⟩
        · obtain ⟨_, hok, _⟩ := hcomputed
          rw [herror] at hok
          exact nomatch hok
        · exact (hiff.1 hposted).imp_right fun hgrown => ⟨hpriced, hgrown⟩
        · exact Or.inl (max_eq_left_iff.1 (hposted.symm.trans hkept))
      · rintro ⟨hfits, hreaches⟩
        have hcomputed := hincrement.2 hfits
        constructor
        · intro increment hmem
          rcases List.mem_append.1 hmem with hmem | hmem
          · exact hbefore.computed increment hmem
          · rw [List.mem_singleton.1 hmem]
            exact hcomputed
        · dsimp only
          rw [hmax]
          rcases hcases with ⟨e, herror⟩ | ⟨_, hiff⟩ | ⟨hnone, hkept⟩
          · obtain ⟨_, hok, _⟩ := hcomputed
            rw [herror] at hok
            exact nomatch hok
          · exact hiff.2 (hreaches.imp_right And.right)
          · rw [hkept]
            exact (max_eq_left (hreaches.resolve_right fun hboth => hnone hboth.1)).symm
    · unfold OrderStore.syncBrokerOrder
      rw [if_neg hclaim]
      exact iff_of_true hbefore fun hmade => absurd hmade hclaim

end

theorem runs_orderly {history : BrokerHistory} {actions : List BrokerAction}
    (h : OrderlyStore history.store) (hactions : ∀ action ∈ actions, action.Nonneg) :
    OrderlyStore (runActions BrokerHistory.act history actions).store := by
  induction actions generalizing history with
  | nil => exact h
  | cons action actions ih =>
    exact ih (act_orderly h (hactions action List.mem_cons_self))
      fun later hlater => hactions later (List.mem_cons_of_mem _ hlater)

/-- The polls of an order are reconciled in every state exactly when all of them fit. -/
theorem polls_reconciled_iff (store : OrderStore) (actions : List BrokerAction)
    (hstore : OrderlyStore store) (hactions : ∀ action ∈ actions, action.Nonneg) :
    (∀ earlier, earlier <+: actions →
        Reconciled (runActions BrokerHistory.act (.start store) earlier)) ↔
      Along BrokerHistory.act PollFits (.start store) actions := by
  have hstep : ∀ history : BrokerHistory, ∀ action ∈ actions,
      OrderlyStore history.store ∧ Reconciled history →
      ((OrderlyStore (history.act action).store ∧ Reconciled (history.act action)) ↔
        PollFits history action) := by
    intro history action hmem hboth
    have hnext := act_orderly hboth.1 (hactions action hmem)
    rw [← act_reconciled_iff hboth.1 (hactions action hmem) hboth.2]
    exact ⟨And.right, fun h => ⟨hnext, h⟩⟩
  have hreconciled : Reconciled (.start store) := by
    constructor
    · intro increment hmem
      exact nomatch hmem
    · rfl
  rw [along_iff_throughout hstep ⟨hstore, hreconciled⟩]
  constructor
  · intro hall earlier hearlier
    exact ⟨runs_orderly hstore fun action hmem => hactions action (hearlier.mem hmem),
      hall earlier hearlier⟩
  · exact fun hall earlier hearlier => (hall earlier hearlier).2

def sharePosted : OrderStore where
  row := { status := .sent, exchangeId := "alpaca", exchangeOrderId := "41", amount := 2
           filled := 1, avgPrice := 100 }
  trades := [⟨1, 100, 0⟩]

theorem sharePosted_orderly : OrderlyStore sharePosted := by
  refine ⟨by decide, by decide, ?_⟩
  intro trade htrade
  rw [List.mem_singleton.1 htrade]
  exact ⟨by decide, by decide⟩

/-- A second share, and the same answer once more. -/
theorem second_share_reconciled :
    Reconciled (runActions BrokerHistory.act (.start sharePosted)
      [.poll {} ⟨"41", "partially_filled", 2, 101⟩, .poll {} ⟨"41", "filled", 2, 101⟩]) := by
  refine (polls_reconciled_iff sharePosted _ sharePosted_orderly ?_).2 (by decide +kernel) _
    (List.prefix_refl _)
  intro action haction
  simp only [List.mem_cons, List.not_mem_nil, or_false] at haction
  rcases haction with rfl | rfl
  · exact ⟨by decide, by decide⟩
  · exact ⟨by decide, by decide⟩

/-- A revised average of the same quantity divides by zero. -/
theorem revised_average_fails :
    ¬ ∀ (store : OrderStore) (actions : List BrokerAction), OrderlyStore store →
      (∀ action ∈ actions, action.Nonneg) → ∀ earlier, earlier <+: actions →
      Reconciled (runActions BrokerHistory.act (.start store) earlier) := by
  intro hall
  have hnonneg : ∀ action ∈ [BrokerAction.poll {} ⟨"41", "partially_filled", 1, 101⟩],
      action.Nonneg := by
    intro action haction
    rw [List.mem_singleton.1 haction]
    exact ⟨by decide, by decide⟩
  have hreconciled := hall sharePosted _ sharePosted_orderly hnonneg _ (List.prefix_refl _)
  have hincrement : (runActions BrokerHistory.act (.start sharePosted)
      [.poll {} ⟨"41", "partially_filled", 1, 101⟩]).increments = [.error .zeroDivision] := by
    decide +kernel
  obtain ⟨_, hok, _⟩ := hreconciled.computed (.error .zeroDivision) (by
    rw [hincrement]
    exact List.mem_cons_self)
  exact nomatch hok

end QuantDinger.Analysis
