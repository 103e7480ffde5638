import QuantDinger.Analysis.Ledger
import QuantDinger.Library.AverageCost

/-!
# Profit attribution

The position of a key and its open entry are kept by two bookkeepers: `_next_average_cost`
on the position, and `_record_closed_trade` on the entries, which also splits the fee of a
fill between the part that closes and the part that opens. `Attributed` says that they
agree and that the realised profits, the value at cost and the open commissions account
for the cash. A fill meets the position in one of four ways (`trade_cases`), and each of
them rebooks the entry by the same rule (`Rebooked`).
-/

namespace QuantDinger.Analysis

open QuantDinger.Library QuantDinger.Model

/-- The entry stands for a position of this amount at this cost. -/
structure Carries (amount cost : Amount) (entry : Entry) : Prop where
  quantity : entry.quantity = |amount|
  price : entry.price = cost
  side : entry.side = sideOf amount
  commission : 0 ≤ entry.commission

/-- The account-average profit of the closed trades. -/
def realizedProfit (account : Account) : Amount :=
  (account.closedTrades.map ClosedTrade.accountProfit).sum

def openCommission (account : Account) : Amount :=
  account.entries.sumBy fun _ entry => entry.commission

def costValue (account : Account) : Amount :=
  account.positions.sumBy fun _ position => position.amount * position.avgCost

/-- What the open positions would realise at their last prices. -/
def unrealizedProfit (account : Account) : Amount :=
  account.positions.sumBy fun _ position =>
    (position.lastPrice - position.avgCost) * position.amount

/-- The entries stand for the positions, and the profits account for the cash. -/
structure Attributed (account : Account) : Prop where
  entries : ∀ key, Option.Rel (fun position entry => Carries position.amount position.avgCost entry)
    (account.positions.get? key) (account.entries.get? key)
  cash : account.availableCash = account.startingCash + account.liquidationAdjustment +
    realizedProfit account - costValue account - openCommission account

/-! ## The entry of a fill -/

/-- What booking a fill does to the entries and the trades: the entry of the key stands for
the new position, no other changes, and the balance moves by `gain`. -/
structure Rebooked (old new : Account) (key : PositionKey) (amount cost gain : Amount) : Prop where
  others : ∀ k, k ≠ key → new.entries.get? k = old.entries.get? k
  closed : amount = 0 → new.entries.get? key = none
  opened : amount ≠ 0 → ∃ entry, new.entries.get? key = some entry ∧ Carries amount cost entry
  balance : realizedProfit new - openCommission new =
    realizedProfit old - openCommission old + gain

section Entry

variable {account : Account} {execution : Execution} {a c d p : Amount}

theorem closingQuantity_eq : Account.closingQuantity a d = closedPart a d := rfl

theorem openCommission_set (entry : Entry) (key : PositionKey) (trades : List ClosedTrade)
    (grid : Dict GridKey GridEntry) :
    openCommission { account with
      closedTrades := trades
      gridEntries := grid
      entries := account.entries.set key entry } =
      openCommission account - (account.entries.get? key).elim 0 Entry.commission +
        entry.commission :=
  Dict.sumBy_set _ _ _ _

theorem openCommission_erase (key : PositionKey) (trades : List ClosedTrade)
    (grid : Dict GridKey GridEntry) :
    openCommission { account with
      closedTrades := trades
      gridEntries := grid
      entries := account.entries.erase key } =
      openCommission account - (account.entries.get? key).elim 0 Entry.commission :=
  Dict.sumBy_erase _ _ _

theorem sideOf_eq_of_mul_pos {x y : Amount} (h : 0 < x * y) : sideOf x = sideOf y := by
  unfold sideOf
  simp only [pos_iff_pos_of_mul_pos h]

theorem closeEntry_eq {entry : Entry} (hentry : account.entries.get? execution.positionKey =
      some entry) (hcarries : Carries a c entry) {closing fee target : Amount}
    (hclosing : 0 < closing) (hle : closing ≤ |a|) :
    ∃ trades grid, (trades.map ClosedTrade.accountProfit).sum = realizedProfit account +
        ((execution.price - c) * closing * signOf a - entry.commission * closing / |a| - fee) ∧
      account.closeEntry execution a c target closing fee =
        { account with
          closedTrades := trades
          gridEntries := grid
          entries := if 1 / 10 ^ 12 < |a| - closing ∧ 0 ≤ a * target then
              account.entries.set execution.positionKey
                { entry with
                  quantity := |a| - closing
                  commission := entry.commission - entry.commission * closing / |a| }
            else account.entries.erase execution.positionKey } := by
  have ha : 0 < |a| := lt_of_lt_of_le hclosing hle
  have hquantity : max entry.quantity closing = |a| := by
    rw [hcarries.quantity, max_eq_left hle]
  have hprice : orElse entry.price c = c := by
    rw [hcarries.price]
    simp [orElse]
  have hshare : entry.commission * closing / |a| ≤ entry.commission := by
    rw [div_le_iff₀ ha]
    exact mul_le_mul_of_nonneg_left hle hcarries.commission
  have hremaining : max 0 (|a| - closing) = |a| - closing := max_eq_right (sub_nonneg.mpr hle)
  have hcommission : max 0 (entry.commission - entry.commission * closing / |a|) =
      entry.commission - entry.commission * closing / |a| := max_eq_right (sub_nonneg.mpr hshare)
  have hprofit : ∀ trade : ClosedTrade, trade.accountProfit =
      (execution.price - c) * closing * signOf a - entry.commission * closing / |a| - fee →
      ((account.closedTrades ++ [trade]).map ClosedTrade.accountProfit).sum =
        realizedProfit account + ((execution.price - c) * closing * signOf a -
          entry.commission * closing / |a| - fee) := by
    intro trade htrade
    simp [realizedProfit, htrade]
  unfold Account.closeEntry
  simp only [hentry, Option.getD_some, hquantity, hprice, hremaining, hcommission]
  refine ⟨_, _, hprofit _ ?_, rfl⟩
  cases (Account.consumeGridEntry account.gridEntries execution closing fee).1 with
  | none => rfl
  | some found => rfl

theorem Rebooked.trans {first second third : Account} {key : PositionKey}
    {amount cost gain amount' cost' gain' : Amount}
    (h : Rebooked first second key amount cost gain)
    (h' : Rebooked second third key amount' cost' gain') :
    Rebooked first third key amount' cost' (gain + gain') where
  others k hk := (h'.others k hk).trans (h.others k hk)
  closed := h'.closed
  opened := h'.opened
  balance := by rw [h'.balance, h.balance, add_assoc]

theorem openEntry_fresh {target opening fee : Amount}
    (hnone : account.entries.get? execution.positionKey = none) (hfee : 0 ≤ fee)
    (htarget : target ≠ 0) (hopening : opening = |target|) :
    Rebooked account (account.openEntry execution target opening fee) execution.positionKey
      target execution.price (-fee) := by
  unfold Account.openEntry
  simp only [hnone]
  refine ⟨?_, ?_, ?_, ?_⟩
  · intro k hk
    exact (Dict.get?_set _ _ _ _).trans (if_neg hk)
  · intro h
    exact absurd h htarget
  · intro _
    exact ⟨_, Dict.get?_set_self _ _ _, hopening, rfl, rfl, hfee⟩
  · have hcommission := @openCommission_set account
      { time := execution.time, price := execution.price, quantity := opening,
        commission := fee, side := sideOf target } execution.positionKey account.closedTrades
      (Account.recordGridEntry account.gridEntries execution opening fee)
    rw [hnone] at hcommission
    simp only [Option.elim_none, sub_zero] at hcommission
    rw [hcommission]
    show realizedProfit account - _ = _
    ring

theorem openEntry_added {entry : Entry} {target opening fee : Amount}
    (hentry : account.entries.get? execution.positionKey = some entry)
    (hcarries : Carries a c entry) (hc : 0 < c) (hside : sideOf a = sideOf target)
    (hfee : 0 ≤ fee) (hopening : |a| + opening = |target|) (htarget : target ≠ 0) :
    Rebooked account (account.openEntry execution target opening fee) execution.positionKey
      target ((c * |a| + execution.price * opening) / |target|) (-fee) := by
  have hprice : orElse entry.price execution.price = c := by
    rw [hcarries.price]
    simp [orElse, hc.ne']
  unfold Account.openEntry
  simp only [hentry, hcarries.side, hside, if_true, hprice, hcarries.quantity, hopening]
  refine ⟨?_, ?_, ?_, ?_⟩
  · intro k hk
    exact (Dict.get?_set _ _ _ _).trans (if_neg hk)
  · intro h
    exact absurd h htarget
  · intro _
    exact ⟨_, Dict.get?_set_self _ _ _, rfl, rfl, rfl, add_nonneg hcarries.commission hfee⟩
  · have hcommission := @openCommission_set account
      { entry with
        price := (c * |a| + execution.price * opening) / |target|
        quantity := |target|
        commission := entry.commission + fee
        side := sideOf target } execution.positionKey account.closedTrades
      (Account.recordGridEntry account.gridEntries execution opening fee)
    rw [hentry] at hcommission
    simp only [Option.elim_some] at hcommission
    rw [hcommission]
    show realizedProfit account - _ = _
    ring

theorem closeEntry_reduced {entry : Entry} {target closing fee : Amount}
    (hentry : account.entries.get? execution.positionKey = some entry)
    (hcarries : Carries a c entry) (hclosing : 0 < closing) (hrest : |a| - closing = |target|)
    (htarget : 1 / 10 ^ 12 < |target|) (hsame : 0 < a * target) :
    Rebooked account (account.closeEntry execution a c target closing fee)
      execution.positionKey target c
      ((execution.price - c) * closing * signOf a - fee) := by
  have hle : closing ≤ |a| := by linarith [abs_nonneg target]
  obtain ⟨trades, grid, hprofit, heq⟩ := @closeEntry_eq account execution a c entry hentry
    hcarries closing fee target hclosing hle
  rw [heq, if_pos ⟨by rw [hrest]; exact htarget, hsame.le⟩, hrest]
  have htarget' : target ≠ 0 := by
    intro h
    rw [h, abs_zero] at htarget
    norm_num at htarget
  have hshare : 0 ≤ entry.commission - entry.commission * closing / |a| := by
    rw [sub_nonneg, div_le_iff₀ (lt_of_lt_of_le hclosing hle)]
    exact mul_le_mul_of_nonneg_left hle hcarries.commission
  refine ⟨?_, ?_, ?_, ?_⟩
  · intro k hk
    exact (Dict.get?_set _ _ _ _).trans (if_neg hk)
  · intro h
    exact absurd h htarget'
  · intro _
    refine ⟨_, Dict.get?_set_self _ _ _, rfl, hcarries.price, ?_, hshare⟩
    rw [hcarries.side]
    exact sideOf_eq_of_mul_pos hsame
  · rw [openCommission_set, hentry]
    show (trades.map ClosedTrade.accountProfit).sum - _ = _
    rw [hprofit]
    simp only [Option.elim_some]
    ring

theorem closeEntry_closed {entry : Entry} {target fee cost : Amount}
    (hentry : account.entries.get? execution.positionKey = some entry)
    (hcarries : Carries a c entry) (ha : 0 < |a|) :
    Rebooked account (account.closeEntry execution a c target |a| fee)
      execution.positionKey 0 cost ((execution.price - c) * |a| * signOf a - fee) := by
  obtain ⟨trades, grid, hprofit, heq⟩ := @closeEntry_eq account execution a c entry hentry
    hcarries |a| fee target ha le_rfl
  rw [heq, if_neg (by rw [sub_self]; norm_num)]
  refine ⟨?_, ?_, ?_, ?_⟩
  · intro k hk
    exact (Dict.get?_erase _ _ _).trans (if_neg hk)
  · intro _
    exact (Dict.get?_erase _ _ _).trans (if_pos rfl)
  · intro h
    exact absurd rfl h
  · rw [openCommission_erase, hentry]
    show (trades.map ClosedTrade.accountProfit).sum - _ = _
    rw [hprofit, mul_div_cancel_right₀ _ ha.ne']
    simp only [Option.elim_some]
    ring

/-- The entry that a position of this amount and cost has before a fill. -/
def Held (account : Account) (key : PositionKey) (amount cost : Amount) : Prop :=
  (amount = 0 ∧ account.entries.get? key = none) ∨
    (amount ≠ 0 ∧ 0 < cost ∧ ∃ entry, account.entries.get? key = some entry ∧
      Carries amount cost entry)

section Cases

variable (hd : 1 / 10 ^ 12 < |d|) (hq : execution.signedQuantity = d)
  (hfee : 0 ≤ execution.commission)

include hd hq

theorem closingFee_eq (closing : Amount) :
    Account.closingFee execution closing = execution.commission * closing / |d| := by
  unfold Account.closingFee
  rw [hq, max_eq_left hd.le]

include hfee

theorem rebooked_opening (hheld : Held account execution.positionKey a c) (h : 0 ≤ a * d) :
    Rebooked account (account.recordClosedTrade execution a c (a + d)) execution.positionKey
      (a + d) (averageCost a c d execution.price)
      (realized a c d execution.price - execution.commission) := by
  have hd0 : d ≠ 0 := abs_pos.mp (lt_trans (by norm_num) hd)
  have hclosing : closedPart a d = 0 := if_neg (not_lt.mpr h)
  have heq : account.recordClosedTrade execution a c (a + d) =
      account.openEntry execution (a + d) |d| execution.commission := by
    unfold Account.recordClosedTrade Account.bookClosing
    simp only [hq, closingQuantity_eq, hclosing, closingFee_eq hd hq, sub_zero, mul_zero, zero_div,
      max_eq_right (abs_nonneg d), if_pos hd]
    rw [if_neg (by norm_num)]
  have hgain : realized a c d execution.price - execution.commission = -execution.commission := by
    simp [realized, hclosing]
  rw [heq, hgain]
  rcases hheld with ⟨ha, hnone⟩ | ⟨ha, hc, entry, hentry, hcarries⟩
  · have hcost : averageCost a c d execution.price = execution.price := by
      subst ha
      simp [averageCost, hd0]
    rw [hcost]
    subst ha
    exact openEntry_fresh hnone hfee (by simpa using hd0) (by simp)
  · have hpos : 0 < a * d := lt_of_le_of_ne h (mul_ne_zero ha hd0).symm
    have hsum : 0 < a * (a + d) := by
      rw [mul_add]
      exact add_pos (mul_self_pos.mpr ha) hpos
    have hs : a + d ≠ 0 := right_ne_zero_of_mul hsum.ne'
    have habs : |a| + |d| = |a + d| := by
      rcases pos_and_pos_or_neg_and_neg_of_mul_pos hpos with ⟨h1, h2⟩ | ⟨h1, h2⟩
      · rw [abs_of_pos h1, abs_of_pos h2, abs_of_pos (add_pos h1 h2)]
      · rw [abs_of_neg h1, abs_of_neg h2, abs_of_neg (add_neg h1 h2)]
        ring
    have hcost : averageCost a c d execution.price =
        (c * |a| + execution.price * |d|) / |a + d| := by
      unfold averageCost
      rw [if_neg hs, if_pos (Or.inr hpos)]
      rcases pos_and_pos_or_neg_and_neg_of_mul_pos hpos with ⟨h1, h2⟩ | ⟨h1, h2⟩
      · rw [abs_of_pos h1, abs_of_pos h2, abs_of_pos (add_pos h1 h2)]
        ring
      · rw [abs_of_neg h1, abs_of_neg h2, abs_of_neg (add_neg h1 h2), div_eq_div_iff hs (neg_ne_zero.mpr hs)]
        ring
    rw [hcost]
    exact openEntry_added hentry hcarries hc (sideOf_eq_of_mul_pos hsum) hfee habs hs

omit hfee in
theorem rebooked_reducing {entry : Entry}
    (hentry : account.entries.get? execution.positionKey = some entry)
    (hcarries : Carries a c entry) (h : a * d < 0) (hlt : |d| < |a|) (hsame : 0 < a * (a + d))
    (habs : |a + d| = |a| - |d|) (htarget : 1 / 10 ^ 12 < |a + d|) :
    Rebooked account (account.recordClosedTrade execution a c (a + d)) execution.positionKey
      (a + d) (averageCost a c d execution.price)
      (realized a c d execution.price - execution.commission) := by
  have hd0 : 0 < |d| := lt_trans (by norm_num) hd
  have ha : a ≠ 0 := left_ne_zero_of_mul h.ne
  have hclosing : closedPart a d = |d| := by rw [closedPart, if_pos h, min_eq_right hlt.le]
  have heq : account.recordClosedTrade execution a c (a + d) =
      account.closeEntry execution a c (a + d) |d| execution.commission := by
    unfold Account.recordClosedTrade Account.bookClosing
    simp only [hq, closingQuantity_eq, hclosing, closingFee_eq hd hq, sub_self, max_self,
      if_pos hd, mul_div_cancel_right₀ _ hd0.ne']
    rw [if_neg (by norm_num)]
  have hcost : averageCost a c d execution.price = c := by
    unfold averageCost
    rw [if_neg (right_ne_zero_of_mul hsame.ne'), if_neg, if_neg (not_lt.mpr hsame.le)]
    rintro (ha' | hpos)
    · exact ha ha'
    · exact absurd hpos (not_lt.mpr h.le)
  rw [heq, hcost, realized, hclosing]
  exact closeEntry_reduced hentry hcarries hd0 habs.symm htarget hsame

omit hfee in
theorem rebooked_closing {entry : Entry}
    (hentry : account.entries.get? execution.positionKey = some entry)
    (hcarries : Carries a c entry) (h : a * d < 0) (hzero : a + d = 0) :
    Rebooked account (account.recordClosedTrade execution a c (a + d)) execution.positionKey
      (a + d) (averageCost a c d execution.price)
      (realized a c d execution.price - execution.commission) := by
  have hda : |d| = |a| := by rw [eq_neg_of_add_eq_zero_right hzero, abs_neg]
  have hd0 : 0 < |d| := lt_trans (by norm_num) hd
  have hclosing : closedPart a d = |a| := by rw [closedPart, if_pos h, hda, min_self]
  have heq : account.recordClosedTrade execution a c (a + d) =
      account.closeEntry execution a c (a + d) |a| execution.commission := by
    rw [hda] at hd hd0
    unfold Account.recordClosedTrade Account.bookClosing
    simp only [hq, closingQuantity_eq, hclosing, closingFee_eq (hda ▸ hd) hq, hda, sub_self,
      max_self, if_pos hd, mul_div_cancel_right₀ _ hd0.ne']
    rw [if_neg (by norm_num)]
  rw [heq, realized, hclosing, hzero]
  exact closeEntry_closed hentry hcarries (hda ▸ hd0)

theorem rebooked_reversing {entry : Entry}
    (hentry : account.entries.get? execution.positionKey = some entry)
    (hcarries : Carries a c entry) (h : a * d < 0) (hlt : |a| < |d|) (hagainst : a * (a + d) < 0)
    (habs : |a + d| = |d| - |a|) (ha : 1 / 10 ^ 12 < |a|) (htarget : 1 / 10 ^ 12 < |a + d|) :
    Rebooked account (account.recordClosedTrade execution a c (a + d)) execution.positionKey
      (a + d) (averageCost a c d execution.price)
      (realized a c d execution.price - execution.commission) := by
  have hd0 : 0 < |d| := lt_trans (by norm_num) hd
  have ha0 : a ≠ 0 := left_ne_zero_of_mul h.ne
  have hs : a + d ≠ 0 := right_ne_zero_of_mul hagainst.ne
  have hclosing : closedPart a d = |a| := by rw [closedPart, if_pos h, min_eq_left hlt.le]
  have hshare : execution.commission * |a| / |d| ≤ execution.commission := by
    rw [div_le_iff₀ hd0]
    exact mul_le_mul_of_nonneg_left hlt.le hfee
  have heq : account.recordClosedTrade execution a c (a + d) =
      (account.closeEntry execution a c (a + d) |a|
        (execution.commission * |a| / |d|)).openEntry execution (a + d) |a + d|
        (execution.commission - execution.commission * |a| / |d|) := by
    unfold Account.recordClosedTrade Account.bookClosing
    simp only [hq, closingQuantity_eq, hclosing, closingFee_eq hd hq, ← habs,
      max_eq_right (abs_nonneg (a + d)), if_pos ha, if_pos htarget]
  have hcost : averageCost a c d execution.price = execution.price := by
    unfold averageCost
    rw [if_neg hs, if_neg, if_pos hagainst]
    rintro (ha' | hpos)
    · exact ha0 ha'
    · exact absurd hpos (not_lt.mpr h.le)
  -- The old entry is removed first, and the rest of the fill opens a new one.
  have hclosed := @closeEntry_closed account execution a c entry (a + d)
    (execution.commission * |a| / |d|) 0 hentry hcarries (abs_pos.mpr ha0)
  have hopened := openEntry_fresh (hclosed.closed rfl) (sub_nonneg.mpr hshare) hs rfl
  have htotal := hclosed.trans hopened
  rw [heq, hcost, realized, hclosing]
  convert htotal using 1
  ring

theorem recordClosedTrade_rebooked (hheld : Held account execution.positionKey a c)
    (ha : a ≠ 0 → 1 / 10 ^ 12 < |a|) (htarget : a + d ≠ 0 → 1 / 10 ^ 12 < |a + d|) :
    Rebooked account (account.recordClosedTrade execution a c (a + d)) execution.positionKey
      (a + d) (averageCost a c d execution.price)
      (realized a c d execution.price - execution.commission) := by
  rcases trade_cases a d with h | hcases
  · exact rebooked_opening hd hq hfee hheld h
  · have hagainst : a * d < 0 := by
      rcases hcases with h | h | h <;> exact h.1
    have ha0 : a ≠ 0 := left_ne_zero_of_mul hagainst.ne
    rcases hheld with ⟨hzero, -⟩ | ⟨-, -, entry, hentry, hcarries⟩
    · exact absurd hzero ha0
    rcases hcases with ⟨h, hlt, hsame, habs⟩ | ⟨h, hzero⟩ | ⟨h, hlt, hneg, habs⟩
    · exact rebooked_reducing hd hq hentry hcarries h hlt hsame habs
        (htarget (right_ne_zero_of_mul hsame.ne'))
    · exact rebooked_closing hd hq hentry hcarries h hzero
    · exact rebooked_reversing hd hq hfee hentry hcarries h hlt hneg habs (ha ha0)
        (htarget (right_ne_zero_of_mul hneg.ne))

end Cases

end Entry

/-! ## The invariant -/

section Fill

variable {config : BrokerConfig} (hlots : ∀ symbol, 1 / 10 ^ 8 ≤ config.lot symbol)
  {account : Account} {order : OrderIntent} {bar : Option Bar} {openPrice : Option Amount}
  {equity : Amount} {plan : FillPlan}

theorem Attributed.held (h : Attributed account) (hsound : SoundPositions config account) :
    Held account order.key (account.currentPosition order).amount
      (account.currentPosition order).avgCost := by
  have hrel := h.entries order.key
  rcases currentPosition_cases account order with hp | ⟨hn, hp⟩
  · have hok := hsound _ _ hp
    rw [hp] at hrel
    cases hentry : account.entries.get? order.key with
    | none =>
      rw [hentry] at hrel
      cases hrel
    | some entry =>
      rw [hentry] at hrel
      cases hrel with
      | some hcarries =>
        refine Or.inr ⟨?_, hok.avgCost, entry, hentry, hcarries⟩
        have hopened := hok.opened
        intro hzero
        rw [hzero, abs_zero] at hopened
        norm_num at hopened
  · rw [hn] at hrel
    rw [hp]
    cases hentry : account.entries.get? order.key with
    | none => exact Or.inl ⟨rfl, hentry⟩
    | some entry =>
      rw [hentry] at hrel
      cases hrel

theorem costValue_current (account : Account) (order : OrderIntent) :
    (account.positions.get? order.key).elim 0 (fun position => position.amount * position.avgCost) =
      (account.currentPosition order).amount * (account.currentPosition order).avgCost := by
  rcases currentPosition_cases account order with hp | ⟨hn, hp⟩
  · rw [hp]
    rfl
  · rw [hn, hp]
    simp

include hlots

theorem nextAverageCost_eq {symbol : Symbol} {a c d p : Amount}
    (h : IsMultiple (config.lot symbol) (a + d)) :
    nextAverageCost a c d p = averageCost a c d p := by
  unfold nextAverageCost averageCost
  have hiff : |a + d| ≤ 1 / 10 ^ 12 ↔ a + d = 0 := by
    constructor
    · exact eq_zero_of_isMultiple hlots symbol h
    · intro hzero
      rw [hzero, abs_zero]
      norm_num
  simp only [hiff]

theorem fill_rebooked (hsound : SoundPositions config account)
    (hplan : planOrder config account order bar openPrice equity = .ok (.fill plan))
    (h : Attributed account) (orderId : Time × ℕ) (ts : Time) :
    Rebooked account (account.fill config orderId ts order plan) order.key plan.targetAmount
      plan.position.avgCost
      (realized plan.sizing.current.amount plan.sizing.current.avgCost plan.delta plan.fillPrice -
        plan.fee config) := by
  obtain ⟨hcurrent, ha, hdelta⟩ := fill_isMultiple hsound hplan
  obtain ⟨price, -, -, -, hfilled⟩ := planOrder_fill hplan
  have hd0 := (hfilled.delta_ne_zero hlots).1
  have hbig : ∀ {x : Amount}, IsMultiple (config.lot order.symbol) x → x ≠ 0 →
      1 / 10 ^ 12 < |x| := by
    intro x hx hne
    by_contra hle
    exact hne (eq_zero_of_isMultiple hlots order.symbol hx (not_lt.mp hle))
  have hheld : Held account order.key plan.sizing.current.amount plan.sizing.current.avgCost := by
    rw [hcurrent]
    exact h.held hsound
  rw [← hcurrent] at ha
  have hbooked := @recordClosedTrade_rebooked
    { account.book config order.key plan with
      executions := account.executions ++ [executionOf config account orderId ts order plan] }
    (executionOf config account orderId ts order plan) plan.sizing.current.amount
    plan.sizing.current.avgCost plan.delta (hbig hdelta hd0) (execution_signedQuantity config plan orderId ts order _)
    (mul_nonneg (abs_nonneg _) config.commission_nonneg) hheld (hbig ha)
    (hbig (ha.add hdelta))
  have hcost : plan.position.avgCost = averageCost plan.sizing.current.amount
      plan.sizing.current.avgCost plan.delta plan.fillPrice :=
    nextAverageCost_eq hlots (ha.add hdelta)
  rw [hcost]
  exact ⟨hbooked.others, hbooked.closed, hbooked.opened, hbooked.balance⟩

theorem attributed_fill (hsound : SoundPositions config account)
    (hplan : planOrder config account order bar openPrice equity = .ok (.fill plan))
    (h : Attributed account) (orderId : Time × ℕ) (ts : Time) :
    Attributed (account.fill config orderId ts order plan) := by
  have hbooked := fill_rebooked hlots hsound hplan h orderId ts
  obtain ⟨hcurrent, ha, hdelta⟩ := fill_isMultiple hsound hplan
  rw [← hcurrent] at ha
  have hcloses : plan.closes = true ↔ plan.targetAmount = 0 := by
    unfold FillPlan.closes
    rw [decide_eq_true_iff]
    constructor
    · exact eq_zero_of_isMultiple hlots order.symbol (ha.add hdelta)
    · intro hzero
      rw [hzero, abs_zero]
      norm_num
  constructor
  · intro key
    rw [fill_positions]
    by_cases hkey : key = order.key
    · subst hkey
      by_cases hzero : plan.targetAmount = 0
      · rw [if_pos (hcloses.mpr hzero), Dict.get?_erase, if_pos rfl, hbooked.closed hzero]
        exact Option.Rel.none
      · obtain ⟨entry, hentry, hcarries⟩ := hbooked.opened hzero
        rw [if_neg (fun hc => hzero (hcloses.mp hc)), Dict.get?_set_self, hentry]
        exact Option.Rel.some hcarries
    · have hpositions : (if plan.closes then account.positions.erase order.key
          else account.positions.set order.key plan.position).get? key =
            account.positions.get? key := by
        split
        · rw [Dict.get?_erase, if_neg hkey]
        · rw [Dict.get?_set, if_neg hkey]
      rw [hpositions, hbooked.others key hkey]
      exact h.entries key
  · have hcost : costValue (account.fill config orderId ts order plan) = costValue account -
        plan.sizing.current.amount * plan.sizing.current.avgCost +
          plan.targetAmount * plan.position.avgCost := by
      have hold := costValue_current account order
      unfold costValue
      rw [fill_positions]
      by_cases hzero : plan.targetAmount = 0
      · rw [if_pos (hcloses.mpr hzero), Dict.sumBy_erase, hold, hzero, hcurrent]
        ring
      · rw [if_neg (fun hc => hzero (hcloses.mp hc)), Dict.sumBy_set, hold, hcurrent]
        rfl
    have hidentity : plan.targetAmount * plan.position.avgCost =
        plan.sizing.current.amount * plan.sizing.current.avgCost + plan.delta * plan.fillPrice +
          realized plan.sizing.current.amount plan.sizing.current.avgCost plan.delta
            plan.fillPrice := by
      rw [← averageCost_identity, ← nextAverageCost_eq hlots (ha.add hdelta)]
      rfl
    have hbalance := hbooked.balance
    rw [fill_availableCash, fill_startingCash, fill_liquidationAdjustment, hcost, hidentity, h.cash]
    linarith

end Fill

section Steps

variable {config : BrokerConfig} (hlots : ∀ symbol, 1 / 10 ^ 8 ≤ config.lot symbol)
  (hslip : config.slippage < 1)

theorem attributed_remark {account : Account} {positions : Dict PositionKey Position}
    (hmarked : Remarked account.positions positions) (h : Attributed account) :
    Attributed (account.remark positions) := by
  constructor
  · intro key
    show Option.Rel _ (positions.get? key) (account.entries.get? key)
    have hrel := h.entries key
    cases hnew : positions.get? key with
    | none =>
      cases hold : account.positions.get? key with
      | none =>
        rw [hold] at hrel
        exact hrel
      | some old =>
        obtain ⟨new, hnew', -⟩ := Dict.exists_get?_of_forall₂
          (R := fun new old => MarkedAs old new)
          (List.Forall₂.flip (hmarked.imp fun _ _ he => ⟨he.1.symm, he.2⟩)) hold
        rw [hnew] at hnew'
        cases hnew'
    | some new =>
      obtain ⟨old, hold, price, -, rfl⟩ := Dict.exists_get?_of_forall₂ hmarked hnew
      rw [hold] at hrel
      cases hentry : account.entries.get? key with
      | none =>
        rw [hentry] at hrel
        cases hrel
      | some entry =>
        rw [hentry] at hrel
        cases hrel with
        | some hcarries => exact Option.Rel.some hcarries
  · have hcost : costValue (account.remark positions) = costValue account := by
      unfold costValue
      symm
      refine Dict.sumBy_eq_of_forall₂ (hmarked.imp ?_)
      rintro e e' ⟨-, price, -, he⟩
      rw [he]
    have := h.cash
    rw [hcost]
    exact this

/-- The attribution holds now and held after every fill so far. -/
structure AttributedSoFar (broker : Broker) : Prop where
  now : Attributed broker.toAccount
  fills : ∀ d ∈ broker.history, ∀ plan, d.outcome = .fill plan →
    Attributed d.after ∧ Marked d.after

include hlots

theorem attributed_step {broker broker' : Broker} (hstep : Step config broker broker')
    (hsound : SoundPositions config broker.toAccount) (h : AttributedSoFar broker) :
    AttributedSoFar broker' := by
  cases hstep with
  | mark hmarked => exact ⟨attributed_remark hmarked h.now, h.fills⟩
  | @work ts equity order bar openPrice outcome hplan hopen _ =>
    have hnow : Attributed (accountAfter config ts order broker outcome) := by
      cases outcome with
      | fill plan => exact attributed_fill hlots hsound hplan h.now _ ts
      | blocked reason => exact h.now
      | rejected reason requested => exact h.now
      | resting requested => exact h.now
    refine ⟨by rw [work_account]; exact hnow, ?_⟩
    intro d hd plan houtcome
    rw [work_history] at hd
    rcases List.mem_append.mp hd with hold | hnew
    · exact h.fills d hold plan houtcome
    · rw [List.mem_singleton] at hnew
      subst hnew
      cases houtcome
      exact ⟨hnow, fill_totalValue _ _ _ _ _ _⟩
  | absorb =>
    refine ⟨⟨h.now.entries, ?_⟩, h.fills⟩
    have hcash := h.now.cash
    show broker.availableCash + max 0 (-broker.availableCash) =
      broker.startingCash + (broker.liquidationAdjustment + max 0 (-broker.availableCash)) +
        realizedProfit broker.toAccount - costValue broker.toAccount -
          openCommission broker.toAccount
    rw [hcash]
    ring
  | other hbooks =>
    refine ⟨?_, ?_⟩
    · rw [hbooks.account]
      exact ⟨h.now.entries, h.now.cash⟩
    · rw [hbooks.history]
      exact h.fills

include hslip

theorem attributed_steps {broker broker' : Broker} (hsteps : Steps config broker broker')
    (hsound : SoundPositions config broker.toAccount) (h : AttributedSoFar broker) :
    AttributedSoFar broker' := by
  induction hsteps with
  | refl => exact h
  | tail hsteps hstep ih =>
    exact attributed_step hlots hstep (soundPositions_steps hslip hsteps hsound) ih

end Steps

theorem attributed_create (capital : Amount) : AttributedSoFar (Broker.create capital) where
  now := by
    refine ⟨fun key => ?_, ?_⟩
    · simp only [Broker.create, Dict.get?_empty]
      exact Option.Rel.none
    · simp [Broker.create, realizedProfit, costValue, openCommission]
  fills := by simp [Broker.create]

/-! ## The identity -/

/-- The account is worth its start, the write-offs, the realised and the unrealised
profits, less the commissions of what is open; and the entries stand for the positions. -/
structure Attribution (account : Account) : Prop where
  identity : account.totalValue - account.startingCash - account.liquidationAdjustment =
    realizedProfit account + unrealizedProfit account - openCommission account
  entries : ∀ key, Option.Rel (fun position entry => Carries position.amount position.avgCost entry)
    (account.positions.get? key) (account.entries.get? key)

theorem attribution_of_attributed {account : Account} (h : Attributed account)
    (hmarked : Marked account) : Attribution account := by
  refine ⟨?_, h.entries⟩
  have hsplit : unrealizedProfit account =
      (account.positions.sumBy fun _ position => position.marketValue) - costValue account := by
    unfold unrealizedProfit costValue
    rw [← Dict.sumBy_sub]
    refine congrArg _ ?_
    funext key position
    unfold Position.marketValue
    ring
  have hcash := h.cash
  unfold Marked Account.markedValue at hmarked
  rw [hmarked, hsplit, hcash]
  ring

/-- **Profit attribution.** After every fill of every backtest, and after every bar, the
profits add up to the account and every entry stands for its position. -/
theorem attribution_of_reaches {σ : Type} {test : Backtest σ} (hdata : test.data.Positive)
    (hslip : test.config.slippage < 1)
    (hlots : ∀ symbol, 1 / 10 ^ 8 ≤ test.config.lot symbol) {t : Time} {run : Run}
    (h : test.Reaches t run) :
    (∀ d ∈ run.broker.history, ∀ plan, d.outcome = .fill plan → Attribution d.after) ∧
      Attribution run.broker.toAccount := by
  have hsofar := attributed_steps hlots hslip (steps_of_reaches hdata h)
    (soundPositions_create test.config test.initialCapital) (attributed_create _)
  refine ⟨?_, attribution_of_attributed hsofar.now (marked_of_reaches h)⟩
  intro d hd plan houtcome
  obtain ⟨hattributed, hmarked⟩ := hsofar.fills d hd plan houtcome
  exact attribution_of_attributed hattributed hmarked

def turnedShare : Backtest ℕ :=
  shareTest (BrokerConfig.create 2 (1 / 100) (1 / 10) fun _ => none) 1000
    [(100, 0), (110, 0), (120, 0), (90, 0)] false fun name n =>
      if name = "handle_data" then
        if n = 0 then [orderShares 2 "bought"]
        else if n = 1 then [orderShares (-3) "turned"]
        else if n = 2 then [orderShares 1 "closed"] else []
      else []

def turnedRun : Run := (runAfter turnedShare (day 3)).get (by decide +kernel)

/-- The attribution of the turned share: a long and a short trade were closed. -/
theorem turned_share_attribution :
    turnedRun.broker.closedTrades.map ClosedTrade.side = [.long, .short] ∧
      (∀ d ∈ turnedRun.broker.history, ∀ plan, d.outcome = .fill plan → Attribution d.after) ∧
      Attribution turnedRun.broker.toAccount := by
  have hdata : turnedShare.data.Positive := flatFrame_positive (by decide +kernel)
  have hreaches : turnedShare.Reaches (day 3) turnedRun :=
    reaches_of_runAfter (by simp [turnedRun])
  exact ⟨by decide +kernel, attribution_of_reaches hdata (by decide +kernel)
    (lot_of_default 2 (1 / 100) (1 / 10)) hreaches⟩

end QuantDinger.Analysis
