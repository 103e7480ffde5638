import QuantDinger.Model.GridPnl

/-!
# What grid cycles earn

An exit takes from a lot no more than is left of it, at the average price of its entries and with
its share of their fees. So nothing is taken twice, and what a lot has earned when all of it is
taken is what its exits brought in less what its entries cost, whatever exits took from it and in
what parts. The order in which the rows are given does not matter, since they are replayed by id.
-/

namespace QuantDinger.Analysis

open QuantDinger.Library QuantDinger.Model QuantDinger.Model.Live

/-! ## Allocations -/

def ofLot (lot : GridLot) (allocations : List LotAllocation) : List LotAllocation :=
  allocations.filter fun a => a.lot = lot

def takenFrom (lot : GridLot) (allocations : List LotAllocation) : Amount :=
  ((ofLot lot allocations).map LotAllocation.quantity).sum

/-- What an allocation earns, by the side of its exit. -/
def allocationGain (a : LotAllocation) : Amount :=
  (a.exitPrice - a.entryPrice) * a.quantity * pnlSign a.side

/-- An allocation at the average price of its lot, with its share of the fees. -/
structure FairAllocation (rows : List PnlTrade) (a : LotAllocation) : Prop where
  quantity_pos : 0 < a.quantity
  total_pos : 0 < lotTotal (lotEntries rows a.lot)
  paired : Pairable a.side (lotEntries rows a.lot)
  entryPrice : a.entryPrice =
    lotValue (lotEntries rows a.lot) / lotTotal (lotEntries rows a.lot)
  openingFee : a.openingFee = (lotFees (lotEntries rows a.lot)).map
    fun fees => fees * a.quantity / lotTotal (lotEntries rows a.lot)

@[simp] theorem takenFrom_nil (lot : GridLot) : takenFrom lot [] = 0 := rfl

theorem takenFrom_append (lot : GridLot) (allocations more : List LotAllocation) :
    takenFrom lot (allocations ++ more) = takenFrom lot allocations + takenFrom lot more := by
  simp [takenFrom, ofLot]

theorem takenFrom_singleton (lot : GridLot) (a : LotAllocation) :
    takenFrom lot [a] = if a.lot = lot then a.quantity else 0 := by
  unfold takenFrom ofLot
  by_cases hlot : a.lot = lot
  · rw [if_pos hlot, List.filter_cons_of_pos (by simpa using hlot)]
    simp
  · rw [if_neg hlot, List.filter_cons_of_neg (by simpa using hlot)]
    rfl

/-! ## One exit -/

/-- What the loop over the keys of an exit keeps: the quantities, the totals and the allocations
agree, and no lot is used up twice. -/
structure AllocationSound (rows : List PnlTrade) (consumed : GridLot → Amount) (needed : Amount)
    (state : AllocationState) : Prop where
  consumed : ∀ lot, state.consumed lot = consumed lot + takenFrom lot state.allocation
  within : ∀ lot, state.consumed lot ≤ max 0 (lotTotal (lotEntries rows lot))
  fair : ∀ a ∈ state.allocation, FairAllocation rows a
  remaining : state.remaining = needed - (state.allocation.map LotAllocation.quantity).sum
  gross : state.gross = (state.allocation.map allocationGain).sum
  openingFee : state.openingFee = (state.allocation.map fun a => a.openingFee.getD 0).sum
  feeKnown : state.feeKnown = true ↔ ∀ a ∈ state.allocation, a.openingFee.isSome = true

theorem AllocationSound.take {rows : List PnlTrade} {consumed : GridLot → Amount} {needed : Amount}
    {state : AllocationState} (h : AllocationSound rows consumed needed state) {lot : GridLot}
    {side : PositionSide} (exitOrderId : String) (closePrice : Amount) {take : Amount}
    (hpaired : Pairable side (lotEntries rows lot)) (hpos : 0 < take)
    (hleft : take ≤ max 0 (lotTotal (lotEntries rows lot) - state.consumed lot))
    (hconsumed : 0 ≤ state.consumed lot) :
    AllocationSound rows consumed needed
      (takeFromLot (lotEntries rows lot) lot side exitOrderId closePrice take state) := by
  have hroom : state.consumed lot + take ≤ lotTotal (lotEntries rows lot) := by
    rcases le_max_iff.mp hleft with hzero | hle
    · exact absurd hzero (not_le.mpr hpos)
    · linarith
  have htotal : 0 < lotTotal (lotEntries rows lot) := by linarith
  unfold takeFromLot
  dsimp only
  refine ⟨fun other => ?_, fun other => ?_, fun a hm => ?_, ?_, ?_, ?_, ?_⟩
  · dsimp only
    rw [takenFrom_append, takenFrom_singleton, ← add_assoc, ← h.consumed]
    dsimp only
    by_cases hlot : other = lot
    · subst hlot
      rw [Function.update_self, if_pos rfl]
    · rw [Function.update_of_ne hlot, if_neg (Ne.symm hlot), add_zero]
  · dsimp only
    by_cases hlot : other = lot
    · subst hlot
      rw [Function.update_self]
      exact le_max_of_le_right hroom
    · rw [Function.update_of_ne hlot]
      exact h.within other
  · rcases List.mem_append.mp hm with hm | hm
    · exact h.fair a hm
    · rw [List.mem_singleton.mp hm]
      exact ⟨hpos, htotal, hpaired, rfl, rfl⟩
  · dsimp only
    rw [h.remaining, List.map_append, List.sum_append]
    simp only [List.map_cons, List.map_nil, List.sum_cons, List.sum_nil]
    ring
  · dsimp only
    rw [h.gross, List.map_append, List.sum_append]
    simp only [List.map_cons, List.map_nil, List.sum_cons, List.sum_nil, add_zero]
    rfl
  · dsimp only
    rw [h.openingFee, List.map_append, List.sum_append]
    simp only [List.map_cons, List.map_nil, List.sum_cons, List.sum_nil, add_zero]
  · dsimp only
    rw [Bool.and_eq_true, h.feeKnown]
    constructor
    · rintro ⟨hold, hnew⟩ a hm
      rcases List.mem_append.mp hm with hm | hm
      · exact hold a hm
      · rw [List.mem_singleton.mp hm]
        exact hnew
    · intro hall
      exact ⟨fun a hm => hall a (List.mem_append_left _ hm),
        hall _ (List.mem_append_right _ (List.mem_singleton_self _))⟩

theorem takenFrom_nonneg {rows : List PnlTrade} {allocations : List LotAllocation}
    (h : ∀ a ∈ allocations, FairAllocation rows a) (lot : GridLot) :
    0 ≤ takenFrom lot allocations := by
  refine List.sum_nonneg fun quantity hm => ?_
  obtain ⟨a, ha, rfl⟩ := List.mem_map.mp hm
  exact (h a (List.mem_of_mem_filter ha)).quantity_pos.le

theorem AllocationSound.keys {rows : List PnlTrade} {consumed : GridLot → Amount} {needed : Amount}
    (hconsumed : ∀ lot, 0 ≤ consumed lot) (scope : PnlScope) (side : PositionSide)
    (exitOrderId : String) (closePrice : Amount) (keys : List LotKey) {state : AllocationState}
    (h : AllocationSound rows consumed needed state) :
    AllocationSound rows consumed needed
      (allocateKeys rows scope side exitOrderId closePrice keys state) := by
  induction keys generalizing state with
  | nil => exact h
  | cons key keys ih =>
    unfold allocateKeys
    dsimp only
    split
    · exact ih h
    · rename_i htaken
      push Not at htaken
      have hnonneg : 0 ≤ state.consumed ⟨scope, key⟩ := by
        rw [h.consumed]
        exact add_nonneg (hconsumed _) (takenFrom_nonneg h.fair _)
      have hnext := h.take exitOrderId closePrice htaken.1 htaken.2 (min_le_right _ _) hnonneg
      split
      · exact hnext
      · exact ih hnext

/-- What an exit gets: its allocations take what the consumed quantities grow by, and the totals
that are reported are theirs. -/
structure ExitSound (rows : List PnlTrade) (consumed later : GridLot → Amount) (pnl : ExitPnl) :
    Prop where
  consumed : ∀ lot, later lot = consumed lot + takenFrom lot pnl.matchedOrders
  within : ∀ lot, later lot ≤ max 0 (lotTotal (lotEntries rows lot))
  fair : ∀ a ∈ pnl.matchedOrders, FairAllocation rows a
  gross : ∀ gross ∈ pnl.profitGross, gross = (pnl.matchedOrders.map allocationGain).sum
  matched : pnl.pnlStatus = .matched →
    pnl.openCommissionAllocated =
        some (pnl.matchedOrders.map fun a => a.openingFee.getD 0).sum ∧
      ∀ a ∈ pnl.matchedOrders, a.openingFee.isSome = true

theorem settleExit_sound {rows : List PnlTrade} {consumed : GridLot → Amount} {needed : Amount}
    {state : AllocationState} (h : AllocationSound rows consumed needed state) (row : PnlTrade) :
    ExitSound rows consumed state.consumed (settleExit row needed state) := by
  unfold settleExit
  dsimp only
  split
  · exact ⟨h.consumed, h.within, h.fair, fun _ hm => (nomatch hm), fun hm => nomatch hm⟩
  · have hgross : ∀ gross ∈ some state.gross,
        gross = (state.allocation.map allocationGain).sum := by
      intro gross hm
      rw [← Option.mem_some_iff.mp hm]
      exact h.gross
    split
    · exact ⟨h.consumed, h.within, h.fair, hgross, fun hm => nomatch hm⟩
    · split
      · rename_i hknown
        exact ⟨h.consumed, h.within, h.fair, hgross,
          fun _ => ⟨congrArg some h.openingFee, h.feeKnown.mp hknown⟩⟩
      · exact ⟨h.consumed, h.within, h.fair, hgross, fun hm => nomatch hm⟩

theorem enrichExit_sound {rows : List PnlTrade} {consumed : GridLot → Amount}
    (hconsumed : ∀ lot, 0 ≤ consumed lot)
    (hwithin : ∀ lot, consumed lot ≤ max 0 (lotTotal (lotEntries rows lot))) (row : PnlTrade)
    (identity : LotIdentity) :
    ExitSound rows consumed (enrichExit rows consumed row identity).1
      (enrichExit rows consumed row identity).2 := by
  have hskip : ExitSound rows consumed consumed
      { accountProfitGross := row.profitGross.getD row.profit } :=
    ⟨fun _ => (add_zero _).symm, hwithin, fun _ hm => absurd hm List.not_mem_nil,
      fun _ hm => (nomatch hm), fun hm => nomatch hm⟩
  unfold enrichExit
  dsimp only
  split
  · exact hskip
  · split
    · exact hskip
    · refine settleExit_sound (AllocationSound.keys hconsumed _ _ _ _ _
        ⟨?_, hwithin, ?_, ?_, rfl, rfl, ?_⟩) row
      · exact fun _ => (add_zero _).symm
      · exact fun _ hm => absurd hm List.not_mem_nil
      · exact (sub_zero _).symm
      · exact iff_of_true rfl fun _ hm => absurd hm List.not_mem_nil

/-! ## All exits -/

def allAllocations (exits : List (PnlTrade × ExitPnl)) : List LotAllocation :=
  exits.flatMap fun exit => exit.2.matchedOrders

/-- The exits that are matched, with all fees known. -/
def matchedExits (exits : List (PnlTrade × ExitPnl)) : List (PnlTrade × ExitPnl) :=
  exits.filter fun exit => exit.2.pnlStatus = .matched

/-- What holds of the exits of a replay. -/
structure ReplaySound (rows : List PnlTrade) (consumed : GridLot → Amount)
    (exits : List (PnlTrade × ExitPnl)) : Prop where
  within : ∀ lot, consumed lot + takenFrom lot (allAllocations exits) ≤
    max 0 (lotTotal (lotEntries rows lot))
  fair : ∀ a ∈ allAllocations exits, FairAllocation rows a
  gross : ∀ exit ∈ exits, ∀ gross ∈ exit.2.profitGross,
    gross = (exit.2.matchedOrders.map allocationGain).sum
  matched : ∀ exit ∈ exits, exit.2.pnlStatus = .matched →
    exit.2.openCommissionAllocated =
        some (exit.2.matchedOrders.map fun a => a.openingFee.getD 0).sum ∧
      ∀ a ∈ exit.2.matchedOrders, a.openingFee.isSome = true

theorem replayExits_sound (rows todo : List PnlTrade) {consumed : GridLot → Amount}
    (hconsumed : ∀ lot, 0 ≤ consumed lot)
    (hwithin : ∀ lot, consumed lot ≤ max 0 (lotTotal (lotEntries rows lot))) :
    ReplaySound rows consumed (replayExits rows todo consumed) := by
  induction todo generalizing consumed with
  | nil =>
    refine ⟨fun lot => ?_, fun _ hm => absurd hm List.not_mem_nil,
      fun _ hm => absurd hm List.not_mem_nil, fun _ hm => absurd hm List.not_mem_nil⟩
    exact (add_zero (consumed lot)).le.trans (hwithin lot)
  | cons row rest ih =>
    unfold replayExits
    split
    · rename_i identity _
      split
      · have hexit := enrichExit_sound hconsumed hwithin row identity
        have hlater : ∀ lot, 0 ≤ (enrichExit rows consumed row identity).1 lot := by
          intro lot
          rw [hexit.consumed]
          exact add_nonneg (hconsumed lot) (takenFrom_nonneg hexit.fair lot)
        have hrest := ih hlater hexit.within
        dsimp only
        refine ⟨fun lot => ?_, fun a hm => ?_, fun exit hm => ?_, fun exit hm => ?_⟩
        · unfold allAllocations
          rw [List.flatMap_cons, takenFrom_append, ← add_assoc, ← hexit.consumed]
          exact hrest.within lot
        · unfold allAllocations at hm
          rw [List.flatMap_cons] at hm
          rcases List.mem_append.mp hm with hm | hm
          · exact hexit.fair a hm
          · exact hrest.fair a hm
        · rcases List.mem_cons.mp hm with rfl | hm
          · exact hexit.gross
          · exact hrest.gross exit hm
        · rcases List.mem_cons.mp hm with rfl | hm
          · exact hexit.matched
          · exact hrest.matched exit hm
      · exact ih hconsumed hwithin
    · exact ih hconsumed hwithin

theorem gridExits_sound (trades : List PnlTrade) :
    ReplaySound (byId trades) (fun _ => 0) (gridExits trades) :=
  replayExits_sound _ _ (fun _ => le_refl 0) fun _ => le_max_left _ _

/-! ## What a lot earns -/

theorem pairable_side_eq {side other : PositionSide} {entries : List PnlTrade}
    (h : Pairable side entries) (hother : Pairable other entries) : side = other := by
  obtain ⟨entry, hm⟩ := List.exists_mem_of_ne_nil entries h.1
  obtain ⟨identity, hidentity, rfl⟩ := (h.2 entry hm).1
  obtain ⟨identity', hidentity', rfl⟩ := (hother.2 entry hm).1
  rw [Option.mem_unique hidentity hidentity']

theorem gain_of_fair (rows : List PnlTrade) (lot : GridLot) (side : PositionSide)
    {allocations : List LotAllocation}
    (h : ∀ a ∈ allocations, FairAllocation rows a ∧ a.lot = lot ∧ a.side = side) :
    (allocations.map allocationGain).sum = pnlSign side *
      ((allocations.map fun a => a.quantity * a.exitPrice).sum -
        lotValue (lotEntries rows lot) / lotTotal (lotEntries rows lot) *
          (allocations.map LotAllocation.quantity).sum) := by
  induction allocations with
  | nil => simp
  | cons a rest ih =>
    obtain ⟨hfair, rfl, rfl⟩ := h a List.mem_cons_self
    simp only [List.map_cons, List.sum_cons]
    rw [ih fun other hm => h other (List.mem_cons_of_mem _ hm)]
    unfold allocationGain
    rw [hfair.entryPrice]
    ring

theorem fees_of_fair {rows : List PnlTrade} {lot : GridLot} {fees : Amount}
    {allocations : List LotAllocation} (hfees : lotFees (lotEntries rows lot) = some fees)
    (h : ∀ a ∈ allocations, FairAllocation rows a ∧ a.lot = lot) :
    (allocations.map fun a => a.openingFee.getD 0).sum =
      fees * (allocations.map LotAllocation.quantity).sum / lotTotal (lotEntries rows lot) := by
  induction allocations with
  | nil => simp
  | cons a rest ih =>
    obtain ⟨hfair, rfl⟩ := h a List.mem_cons_self
    simp only [List.map_cons, List.sum_cons]
    rw [ih fun other hm => h other (List.mem_cons_of_mem _ hm), hfair.openingFee, hfees]
    simp only [Option.map_some, Option.getD_some]
    ring

/-- The profits of grid cycles are conserved and do not depend on the order of the rows. -/
structure ConservativePnl (trades : List PnlTrade) : Prop where
  /-- No more is taken from a lot than its inventory, and nothing from a lot without one. -/
  within : ∀ lot, takenFrom lot (allAllocations (gridExits trades)) ≤
    max 0 (lotTotal (lotEntries (byId trades) lot))
  /-- A lot that matched exits take as a whole earns what they bring in less what it cost, and they
  carry its fees. -/
  earned : ∀ lot, 0 < lotTotal (lotEntries (byId trades) lot) →
    takenFrom lot (allAllocations (matchedExits (gridExits trades))) =
      lotTotal (lotEntries (byId trades) lot) →
    ∃ side fees, Pairable side (lotEntries (byId trades) lot) ∧
      lotFees (lotEntries (byId trades) lot) = some fees ∧
      ((ofLot lot (allAllocations (matchedExits (gridExits trades)))).map allocationGain).sum =
        pnlSign side *
          (((ofLot lot (allAllocations (matchedExits (gridExits trades)))).map
              fun a => a.quantity * a.exitPrice).sum -
            lotValue (lotEntries (byId trades) lot)) ∧
      ((ofLot lot (allAllocations (matchedExits (gridExits trades)))).map
        fun a => a.openingFee.getD 0).sum = fees
  /-- The gross profit of an exit and the opening fees of a matched one are those of its
  allocations. -/
  reported : ∀ exit ∈ gridExits trades,
    (∀ gross ∈ exit.2.profitGross, gross = (exit.2.matchedOrders.map allocationGain).sum) ∧
      (exit.2.pnlStatus = .matched → exit.2.openCommissionAllocated =
        some (exit.2.matchedOrders.map fun a => a.openingFee.getD 0).sum)
  /-- Every row gets the same in every order of the rows. -/
  ordered : ∀ others, trades.Perm others → ∀ row pnl,
    (row, pnl) ∈ enrichGridOrderPnl trades ↔ (row, pnl) ∈ enrichGridOrderPnl others

theorem mem_matchedAllocations {exits : List (PnlTrade × ExitPnl)} {a : LotAllocation}
    (h : a ∈ allAllocations (matchedExits exits)) :
    ∃ exit ∈ exits, exit.2.pnlStatus = .matched ∧ a ∈ exit.2.matchedOrders := by
  obtain ⟨exit, hexit, ha⟩ := List.mem_flatMap.mp h
  obtain ⟨hm, hmatched⟩ := List.mem_filter.mp hexit
  exact ⟨exit, hm, of_decide_eq_true hmatched, ha⟩

theorem lot_earned (trades : List PnlTrade) {lot : GridLot}
    (hpos : 0 < lotTotal (lotEntries (byId trades) lot))
    (hall : takenFrom lot (allAllocations (matchedExits (gridExits trades))) =
      lotTotal (lotEntries (byId trades) lot)) :
    ∃ side fees, Pairable side (lotEntries (byId trades) lot) ∧
      lotFees (lotEntries (byId trades) lot) = some fees ∧
      ((ofLot lot (allAllocations (matchedExits (gridExits trades)))).map allocationGain).sum =
        pnlSign side *
          (((ofLot lot (allAllocations (matchedExits (gridExits trades)))).map
              fun a => a.quantity * a.exitPrice).sum -
            lotValue (lotEntries (byId trades) lot)) ∧
      ((ofLot lot (allAllocations (matchedExits (gridExits trades)))).map
        fun a => a.openingFee.getD 0).sum = fees := by
  have hsound := gridExits_sound trades
  have hfair : ∀ a ∈ ofLot lot (allAllocations (matchedExits (gridExits trades))),
      FairAllocation (byId trades) a ∧ a.lot = lot ∧ a.openingFee.isSome = true := by
    intro a hm
    obtain ⟨hmem, hlot⟩ := List.mem_filter.mp hm
    obtain ⟨exit, hexit, hmatched, ha⟩ := mem_matchedAllocations hmem
    exact ⟨hsound.fair a (List.mem_flatMap.mpr ⟨exit, hexit, ha⟩), of_decide_eq_true hlot,
      (hsound.matched exit hexit hmatched).2 a ha⟩
  -- Something is taken from the lot, and it tells its side and its fees.
  have hne : ofLot lot (allAllocations (matchedExits (gridExits trades))) ≠ [] := by
    intro hnil
    unfold takenFrom at hall
    rw [hnil] at hall
    exact absurd hall hpos.ne
  obtain ⟨first, hfirst⟩ := List.exists_mem_of_ne_nil _ hne
  obtain ⟨hfirstFair, hfirstLot, hknown⟩ := hfair first hfirst
  have hpaired := hfirstFair.paired
  have hshare := hfirstFair.openingFee
  rw [hfirstLot] at hpaired hshare
  cases hfees : lotFees (lotEntries (byId trades) lot) with
  | none =>
    rw [hfees] at hshare
    rw [hshare] at hknown
    exact nomatch hknown
  | some fees =>
    refine ⟨first.side, fees, hpaired, rfl, ?_, ?_⟩
    · rw [gain_of_fair (byId trades) lot first.side]
      · unfold takenFrom at hall
        rw [hall, div_mul_cancel₀ _ hpos.ne']
      · intro a hm
        obtain ⟨ha, hlot, -⟩ := hfair a hm
        refine ⟨ha, hlot, ?_⟩
        have hside := ha.paired
        rw [hlot] at hside
        exact pairable_side_eq hside hpaired
    · rw [fees_of_fair hfees fun a hm => ⟨(hfair a hm).1, (hfair a hm).2.1⟩]
      unfold takenFrom at hall
      rw [hall, mul_div_cancel_right₀ _ hpos.ne']

/-! ## The order of the rows -/

theorem byId_perm {trades others : List PnlTrade} (hids : (trades.map PnlTrade.id).Nodup)
    (h : trades.Perm others) : byId trades = byId others := by
  unfold byId
  have hperm : (trades.insertionSort fun a b => a.id ≤ b.id).Perm
      (others.insertionSort fun a b => a.id ≤ b.id) :=
    ((List.perm_insertionSort _ trades).trans h).trans (List.perm_insertionSort _ others).symm
  refine hperm.eq_of_pairwise ?_ (List.pairwise_insertionSort _ trades)
    (List.pairwise_insertionSort _ others)
  intro a b ha hb hle hge
  have hainput := (List.perm_insertionSort _ trades).mem_iff.mp ha
  have hbinput := h.mem_iff.mpr ((List.perm_insertionSort _ others).mem_iff.mp hb)
  exact List.inj_on_of_nodup_map hids hainput hbinput (le_antisymm hle hge)

theorem enrich_perm {trades others : List PnlTrade} (hids : (trades.map PnlTrade.id).Nodup)
    (h : trades.Perm others) (row : PnlTrade) (pnl : Option ExitPnl) :
    (row, pnl) ∈ enrichGridOrderPnl trades ↔ (row, pnl) ∈ enrichGridOrderPnl others := by
  have hexits : gridExits trades = gridExits others := by
    unfold gridExits
    rw [byId_perm hids h]
  unfold enrichGridOrderPnl
  rw [hexits]
  exact (h.map _).mem_iff

def cellCycle : List PnlTrade :=
  [{ id := 3, symbol := "BTC/USDT", type := "close_long", price := some 130, amount := some 2,
     commissionQuote := some 2, feeStatus := "actual", exchangeOrderId := "c",
     gridClientReference := "grid-4-long-exit-1" },
   { id := 1, symbol := "BTC/USDT", type := "open_long", price := some 100, amount := some 1,
     commissionQuote := some 1, feeStatus := "actual", exchangeOrderId := "a",
     gridClientReference := "grid-4-long-entry-1" },
   { id := 2, symbol := "BTC/USDT", type := "open_long", price := some 110, amount := some 1,
     commissionQuote := some 1, feeStatus := "actual", exchangeOrderId := "b",
     gridClientReference := "grid-4-long-entry-1" }]

example : (gridExits cellCycle).map (fun exit => (exit.1.id, exit.2.profitGross, exit.2.netPnl)) =
    [(3, some 50, some 46)] := by
  decide +kernel

end QuantDinger.Analysis
