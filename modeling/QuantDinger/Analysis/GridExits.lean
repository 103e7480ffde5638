import QuantDinger.Library.Runs
import QuantDinger.Analysis.JointCloses
import QuantDinger.Analysis.GridPosting

/-!
# The resting exits of a grid and the ledger

An exit is capped once, when it is placed, against a ledger and open orders that fills keep
changing. Between a fill and its posting the exchange is ahead of the rows; a cancelled order
leaves the open list only when nothing of it is unposted, so that no fill can be posted later for
an order that no longer reserves its quantity. Hence the open exits of a side are always backed by
the ledger.
-/

namespace QuantDinger.Analysis

open QuantDinger.Library
open QuantDinger.Model
open QuantDinger.Model.Live

/-! ## Runs -/

/-- The rows of a grid, and the exchange: what it has executed of each order, and whether the
order has left the book. -/
structure GridMarket where
  store : GridStore
  executed : ℕ → Amount := fun _ => 0
  finished : ℕ → Bool := fun _ => false

/-- A step of the exchange (an execution, an order that leaves the book) or of the grid: a
delivered snapshot, a placement, and a cancellation. -/
inductive MarketAction
  | execute (orderId : ℕ) (quantity : Amount)
  | finish (orderId : ℕ)
  | deliver (orderId : ℕ) (delivery : GridDelivery)
  | place (index : ℕ) (purpose : GridPurpose) (price : Amount) (quantity : Option Amount)
      (answers : PlaceAnswers)
  | cancel (orderId : ℕ) (answer : CancelAnswer)

namespace GridMarket

/-- A delivered snapshot, in a transaction that is rolled back when it fails. -/
def deliver (config : GridConfig) (market : GridMarket) (orderId : ℕ) (delivery : GridDelivery) :
    GridStore :=
  match completeSnapshot delivery.event delivery.rest with
  | .error _ => market.store
  | .ok event =>
    match market.store.projectGrid config orderId event delivery.fees with
    | .error _ => market.store
    | .ok (next, _) => next

def act (config : GridConfig) (market : GridMarket) : MarketAction → GridMarket
  | .execute orderId quantity =>
    { market with
      executed := Function.update market.executed orderId (market.executed orderId + quantity) }
  | .finish orderId => { market with finished := Function.update market.finished orderId true }
  | .deliver orderId delivery => { market with store := market.deliver config orderId delivery }
  | .place index purpose price quantity answers =>
    { market with store := (market.store.placeLimit config index purpose price quantity answers).1 }
  | .cancel orderId answer =>
    { market with store := match market.store.order? orderId with
        | none => market.store
        | some order => (market.store.cancelConfirmedOrder order answer).1 }

end GridMarket

/-- The sum of `quantity - processed_fill_qty` over the open exits of a side. -/
def openExitQuantity (store : GridStore) (side : PositionSide) : Amount :=
  ((store.openOrders.filter fun order =>
    order.purpose.exits = true ∧ order.purpose.posSide = side).map fun order =>
      order.quantity - order.processedFillQty).sum

/-! ## The exchange -/

/-- An order that is reported cancelled has left the book, with a final fill. -/
def Truthful (market : GridMarket) (order : GridRestingOrder) (answer : CancelAnswer) : Prop :=
  answer.cancelled = true →
    market.finished order.id = true ∧ market.executed order.id ≤ answer.filled

/-- What the exchange keeps to: it executes only orders in the book, and no exit beyond its size;
a snapshot is no further than the executions, and a final one is the final one. -/
def ExchangeRules (market : GridMarket) : MarketAction → Prop
  | .execute orderId quantity => 0 ≤ quantity ∧ market.finished orderId = false ∧
      orderId ∈ market.store.orders.map GridRestingOrder.id ∧
      ∀ order ∈ market.store.orders, order.id = orderId → order.purpose.exits = true →
        market.executed orderId + quantity ≤ order.quantity
  | .finish _ => True
  | .deliver orderId delivery => ∀ event ∈ (completeSnapshot delivery.event delivery.rest).toOption,
      event.cumulativeQuantity ≤ market.executed orderId ∧
      (event.orderStatus = "filled" ∨ event.orderStatus = "cancelled" →
        market.finished orderId = true ∧ market.executed orderId ≤ event.cumulativeQuantity)
  | .place _ _ _ _ answers => ∀ order ∈ market.store.openOrders,
      Truthful market order (answers.cancels order)
  | .cancel orderId answer => ∀ order ∈ market.store.order? orderId, Truthful market order answer

instance (market : GridMarket) (order : GridRestingOrder) (answer : CancelAnswer) :
    Decidable (Truthful market order answer) :=
  inferInstanceAs (Decidable (_ → _))

instance (market : GridMarket) (action : MarketAction) :
    Decidable (ExchangeRules market action) := by
  unfold ExchangeRules
  split <;> infer_instance

/-! ## The invariant -/

/-- What holds of an order and the exchange: its processed quantity is what is posted, and is not
ahead of the exchange; an order that is not open is final, with nothing of it left to post. -/
structure OrderTracked (market : GridMarket) (order : GridRestingOrder) : Prop where
  processed : order.processedFillQty = market.store.postedQuantity order.id
  nonneg : 0 ≤ order.processedFillQty
  executed : order.processedFillQty ≤ market.executed order.id
  bounded : order.purpose.exits = true → market.executed order.id ≤ order.quantity
  observed : order.filledQuantity ≤ market.executed order.id
  covered : Covered order.processedFillQty order.filledQuantity
  final : order.status.isOpen = false → market.finished order.id = true ∧
    Covered order.processedFillQty (market.executed order.id)

/-- The orders are tracked, and the open exits of each side are backed by its leg. -/
structure ExitsBacked (market : GridMarket) : Prop where
  ids : (market.store.orders.map GridRestingOrder.id).Nodup
  bound : ∀ order ∈ market.store.orders, order.id ≤ market.store.orders.length
  trades : ∀ trade ∈ market.store.trades, trade.gridOrderId ≤ market.store.orders.length
  fresh : ∀ id, market.store.orders.length < id → market.executed id = 0
  tracked : ∀ order ∈ market.store.orders, OrderTracked market order
  backed : ∀ side, market.store.existingExits side ≤ (market.store.legs side).size

/-! ## Sums over the open exits -/

def exitWeight (side : PositionSide) (order : GridRestingOrder) : Amount :=
  if order.status.isOpen = true ∧ order.purpose.exits = true ∧ order.purpose.posSide = side
  then order.remaining else 0

theorem exitWeight_nonneg (side : PositionSide) (order : GridRestingOrder) :
    0 ≤ exitWeight side order := by
  unfold exitWeight
  split_ifs
  · exact le_max_left _ _
  · exact le_rfl

theorem existingExits_eq (store : GridStore) (side : PositionSide) :
    store.existingExits side = (store.orders.map (exitWeight side)).sum := by
  unfold GridStore.existingExits GridStore.openOrders
  rw [List.filter_filter]
  induction store.orders with
  | nil => rfl
  | cons order orders ih =>
    rw [List.filter_cons, List.map_cons, List.sum_cons, ← ih]
    by_cases hcounts : order.status.isOpen = true ∧ order.purpose.exits = true ∧
        order.purpose.posSide = side
    · have hdecide : (decide (order.purpose.exits = true ∧ order.purpose.posSide = side) &&
          order.status.isOpen) = true := by simp [hcounts]
      rw [if_pos hdecide, List.map_cons, List.sum_cons, exitWeight, if_pos hcounts]
    · have hdecide : ¬ (decide (order.purpose.exits = true ∧ order.purpose.posSide = side) &&
          order.status.isOpen) = true := by
        simp only [Bool.and_eq_true, decide_eq_true_eq]
        exact fun h => hcounts ⟨h.2, h.1⟩
      rw [if_neg hdecide, exitWeight, if_neg hcounts, zero_add]

theorem sum_weight_update {orders : List GridRestingOrder} {row : GridRestingOrder}
    (hrow : row ∈ orders) (f : GridRestingOrder → GridRestingOrder) {side : PositionSide}
    {drop : Amount} (hle : ∀ order ∈ orders, exitWeight side (f order) ≤ exitWeight side order)
    (hdrop : exitWeight side (f row) ≤ exitWeight side row - drop) :
    ((orders.map f).map (exitWeight side)).sum ≤ (orders.map (exitWeight side)).sum - drop := by
  induction orders with
  | nil => exact nomatch hrow
  | cons order orders ih =>
    simp only [List.map_cons, List.sum_cons]
    rcases List.mem_cons.mp hrow with rfl | hrow
    · have hrest : ((orders.map f).map (exitWeight side)).sum ≤
          (orders.map (exitWeight side)).sum := by
        rw [List.map_map]
        exact List.sum_le_sum fun other hother => hle other (List.mem_cons_of_mem _ hother)
      linarith
    · have hrest := ih hrow fun other hother => hle other (List.mem_cons_of_mem _ hother)
      have hfirst := hle order List.mem_cons_self
      linarith

theorem openExitQuantity_le_existingExits (store : GridStore) (side : PositionSide) :
    openExitQuantity store side ≤ store.existingExits side :=
  List.sum_le_sum fun _ _ => le_max_right _ _

/-! ## Updating one order -/

variable {market : GridMarket} {row : GridRestingOrder}

theorem ExitsBacked.updateRow (h : ExitsBacked market) (hrow : row ∈ market.store.orders)
    {next : GridStore} (f : GridRestingOrder → GridRestingOrder)
    (hid : ∀ order, (f order).id = order.id)
    (horders : next.orders =
      market.store.orders.map fun order => if order.id = row.id then f order else order)
    (htrades : ∀ trade ∈ next.trades, trade ∈ market.store.trades ∨ trade.gridOrderId = row.id)
    (hposted : ∀ id, id ≠ row.id → next.postedQuantity id = market.store.postedQuantity id)
    (htracked : OrderTracked { market with store := next } (f row))
    (hbacked : ∀ side, next.existingExits side ≤ (next.legs side).size) :
    ExitsBacked { market with store := next } := by
  have hlength : next.orders.length = market.store.orders.length := by
    rw [horders, List.length_map]
  have hids : next.orders.map GridRestingOrder.id = market.store.orders.map GridRestingOrder.id := by
    rw [horders, List.map_map]
    apply List.map_congr_left
    intro order _
    simp only [Function.comp_apply]
    split_ifs
    · exact hid order
    · rfl
  refine ⟨hids ▸ h.ids, ?_, ?_, ?_, ?_, hbacked⟩
  · intro order horder
    rw [hlength]
    have hmem : order.id ∈ market.store.orders.map GridRestingOrder.id :=
      hids ▸ List.mem_map_of_mem horder
    obtain ⟨before, hbefore, heq⟩ := List.mem_map.mp hmem
    exact heq ▸ h.bound before hbefore
  · intro trade htrade
    rw [hlength]
    rcases htrades trade htrade with hbefore | hown
    · exact h.trades trade hbefore
    · rw [hown]
      exact h.bound row hrow
  · intro id hless
    rw [hlength] at hless
    exact h.fresh id hless
  · intro order horder
    replace horder : order ∈ next.orders := horder
    rw [horders] at horder
    obtain ⟨before, hbefore, rfl⟩ := List.mem_map.mp horder
    by_cases hother : before.id = row.id
    · rw [if_pos hother, List.inj_on_of_nodup_map h.ids hbefore hrow hother]
      exact htracked
    · rw [if_neg hother]
      have hbeforeTracked := h.tracked before hbefore
      refine ⟨?_, hbeforeTracked.nonneg, hbeforeTracked.executed, hbeforeTracked.bounded,
        hbeforeTracked.observed, hbeforeTracked.covered, hbeforeTracked.final⟩
      rw [hbeforeTracked.processed]
      exact (hposted before.id hother).symm

theorem ExitsBacked.sameRows (h : ExitsBacked market) {next : GridStore}
    (hsame : SameRows market.store next) : ExitsBacked { market with store := next } := by
  have hposted : ∀ id, next.postedQuantity id = market.store.postedQuantity id := by
    intro id
    unfold GridStore.postedQuantity
    rw [hsame.trades]
  obtain ⟨-, horders, hlegs, htrades⟩ := hsame
  refine ⟨horders ▸ h.ids, ?_, ?_, ?_, ?_, ?_⟩
  · intro order horder
    rw [horders] at horder ⊢
    exact h.bound order horder
  · intro trade htrade
    rw [htrades] at htrade
    rw [horders]
    exact h.trades trade htrade
  · intro id hless
    rw [horders] at hless
    exact h.fresh id hless
  · intro order horder
    have hbefore := h.tracked order (horders ▸ horder)
    exact ⟨hbefore.processed.trans (hposted order.id).symm, hbefore.nonneg, hbefore.executed,
      hbefore.bounded, hbefore.observed, hbefore.covered, hbefore.final⟩
  · intro side
    rw [existingExits_eq, horders, hlegs, ← existingExits_eq]
    exact h.backed side

theorem existingExits_update (hrow : row ∈ market.store.orders) {next : GridStore}
    (f : GridRestingOrder → GridRestingOrder)
    (horders : next.orders =
      market.store.orders.map fun order => if order.id = row.id then f order else order)
    (side : PositionSide) (drop : Amount)
    (hle : ∀ order, exitWeight side (f order) ≤ exitWeight side order)
    (hdrop : exitWeight side (f row) ≤ exitWeight side row - drop) :
    next.existingExits side ≤ market.store.existingExits side - drop := by
  rw [existingExits_eq, existingExits_eq, horders]
  apply sum_weight_update hrow
  · intro order _
    split_ifs
    · exact hle order
    · exact le_rfl
  · rw [if_pos rfl]
    exact hdrop

/-! ## Cancellations -/

theorem covered_of_le_add {posted quantity : Amount} (h : quantity ≤ posted + 1 / 10 ^ 12) :
    Covered posted quantity := by
  have : (1 : Amount) / 10 ^ 12 ≤ quantityTolerance posted quantity := le_max_left _ _
  unfold Covered
  linarith

theorem ExitsBacked.cancelConfirmedOrder (h : ExitsBacked market) {order : GridRestingOrder}
    (hrow : row ∈ market.store.orders) (hid : row.id = order.id)
    (hprocessed : row.processedFillQty = order.processedFillQty) {answer : CancelAnswer}
    (htruth : Truthful market order answer) :
    ExitsBacked { market with store := (market.store.cancelConfirmedOrder order answer).1 } := by
  unfold GridStore.cancelConfirmedOrder
  by_cases hconfirmed : CancelConfirmed order answer
  · rw [if_pos hconfirmed]
    have htracked := h.tracked row hrow
    have horders : (market.store.setOrder order.id fun row =>
        { row with status := .cancelled }).orders = market.store.orders.map fun other =>
          if other.id = row.id then { other with status := .cancelled } else other := by
      rw [hid]
      rfl
    refine h.updateRow hrow (fun other => { other with status := .cancelled }) (fun _ => rfl)
      horders (fun _ htrade => Or.inl htrade) (fun _ _ => rfl) ?_ ?_
    · refine ⟨htracked.processed, htracked.nonneg, htracked.executed, htracked.bounded,
        htracked.observed, htracked.covered, fun _ => ?_⟩
      obtain ⟨hfinished, hfinal⟩ := htruth hconfirmed.1
      have hfill := (le_max_left answer.filled order.filledQuantity).trans hconfirmed.2
      refine ⟨hid ▸ hfinished, covered_of_le_add ?_⟩
      show market.executed row.id ≤ row.processedFillQty + 1 / 10 ^ 12
      rw [hid, hprocessed]
      exact hfinal.trans hfill
    · intro side
      have hdrop := existingExits_update hrow (fun other => { other with status := .cancelled })
        horders side 0 (fun other => exitWeight_nonneg side other)
        (by rw [sub_zero]; exact exitWeight_nonneg side row)
      rw [sub_zero] at hdrop
      exact hdrop.trans (h.backed side)
  · rw [if_neg hconfirmed]
    exact h

theorem progress_cancelConfirmedOrder {store : GridStore} {order other : GridRestingOrder}
    {answer : CancelAnswer}
    (h : ∃ row ∈ store.orders, row.id = other.id ∧ row.processedFillQty = other.processedFillQty) :
    ∃ row ∈ (store.cancelConfirmedOrder order answer).1.orders,
      row.id = other.id ∧ row.processedFillQty = other.processedFillQty := by
  unfold GridStore.cancelConfirmedOrder
  by_cases hconfirmed : CancelConfirmed order answer
  · rw [if_pos hconfirmed]
    obtain ⟨row, hrow, hid, hprocessed⟩ := h
    refine ⟨if row.id = order.id then { row with status := .cancelled } else row,
      List.mem_map.mpr ⟨row, hrow, rfl⟩, ?_, ?_⟩
    · split_ifs <;> exact hid
    · split_ifs <;> exact hprocessed
  · rw [if_neg hconfirmed]
    exact h

theorem ExitsBacked.cancelEach (h : ExitsBacked market) (orders : List GridRestingOrder)
    (answer : GridRestingOrder → CancelAnswer)
    (hrows : ∀ order ∈ orders, ∃ row ∈ market.store.orders,
      row.id = order.id ∧ row.processedFillQty = order.processedFillQty)
    (htruth : ∀ order ∈ orders, Truthful market order (answer order)) :
    ExitsBacked { market with store := market.store.cancelEach orders answer } := by
  induction orders generalizing market with
  | nil => exact h
  | cons order orders ih =>
    obtain ⟨row, hrow, hid, hprocessed⟩ := hrows order List.mem_cons_self
    have hfirst := h.cancelConfirmedOrder hrow hid hprocessed (htruth order List.mem_cons_self)
    apply ih hfirst
    · intro other hother
      exact progress_cancelConfirmedOrder (hrows other (List.mem_cons_of_mem _ hother))
    · intro other hother
      exact htruth other (List.mem_cons_of_mem _ hother)

theorem ExitsBacked.cancelPositionOrders (h : ExitsBacked market) (side : PositionSide)
    (exits : Bool) {answer : GridRestingOrder → CancelAnswer}
    (htruth : ∀ order ∈ market.store.openOrders, Truthful market order (answer order)) :
    ExitsBacked { market with store := market.store.cancelPositionOrders side exits answer } := by
  apply h.cancelEach
  · intro order horder
    have hopen := (List.mem_filter.mp horder).1
    exact ⟨order, (List.mem_filter.mp hopen).1, rfl, rfl⟩
  · intro order horder
    exact htruth order (List.mem_filter.mp horder).1

theorem ExitsBacked.entryRefused (h : ExitsBacked market) (side : PositionSide)
    {answers : PlaceAnswers}
    (htruth : ∀ order ∈ market.store.openOrders, Truthful market order (answers.cancels order)) :
    ExitsBacked { market with store := entryRefused market.store side answers } := by
  have hentries := h.cancelPositionOrders side false htruth
  unfold QuantDinger.Analysis.entryRefused
  by_cases hshort : answers.shortfall = true
  · rw [if_pos hshort]
    refine hentries.cancelPositionOrders side true ?_
    intro order horder
    exact htruth order
      ((onlyCancels_cancelPositionOrders market.store side false _).openOrders.subset horder)
  · rw [if_neg hshort]
    exact hentries

/-! ## Placements -/

theorem sizeByAllocation_dbSize (amount allocated : Amount) (details : ReduceOnlyMeta) :
    (sizeByAllocation amount allocated details).2.dbSize = details.dbSize := by
  simp only [sizeByAllocation]
  split_ifs <;> rfl

theorem resolveGridExitQuantity_le (store : GridStore) {config : GridConfig}
    (hspot : config.marketType ≠ "spot") (side : PositionSide) (requested : Amount)
    (answers : ExitAnswers) :
    store.resolveGridExitQuantity config side requested answers ≤
      max 0 (max 0 (store.legs side).size - store.existingExits side) := by
  unfold GridStore.resolveGridExitQuantity
  by_cases hverified : answers.verified = false
  · rw [if_pos hverified]
    exact le_max_left _ _
  rw [if_neg hverified]
  have hdetails := (sizeByExchange_details requested (max 0 (store.legs side).size)
    answers.exchangeSize).1
  simp only [hspot, false_and, if_false, sizeByAllocation_dbSize, hdetails]
  refine max_le (le_max_left _ _) ((min_le_right _ _).trans (max_le_max le_rfl ?_))
  apply sub_le_sub
  · exact (min_le_left _ _).trans (max_le (le_max_left _ _) le_rfl)
  · cases answers.reserved with
    | none => exact le_rfl
    | some quantity => exact le_max_left _ _

def RoundsDown (config : GridConfig) : Prop :=
  ∀ quantity price, config.normalize quantity price ≤ quantity

theorem normalizeBaseQty_le {config : GridConfig} (hround : RoundsDown config)
    {quantity price : Amount} (h : 0 < config.normalizeBaseQty quantity price) :
    0 < quantity ∧ config.normalizeBaseQty quantity price ≤ quantity := by
  unfold GridConfig.normalizeBaseQty at *
  by_cases hnone : quantity ≤ 0 ∨ price ≤ 0
  · rw [if_pos hnone] at h
    exact absurd h (lt_irrefl _)
  · rw [if_neg hnone]
    exact ⟨not_le.mp (not_or.mp hnone).1, hround quantity price⟩

theorem existingExits_recordPlaced (store : GridStore) (index : ℕ) (purpose : GridPurpose)
    (price quantity : Amount) (hpos : 0 < quantity) (side : PositionSide) :
    (store.recordPlaced index purpose price quantity).existingExits side =
      store.existingExits side +
        if purpose.exits = true ∧ purpose.posSide = side then quantity else 0 := by
  rw [existingExits_eq, existingExits_eq]
  simp only [GridStore.recordPlaced, List.map_append, List.sum_append, List.map_cons, List.map_nil,
    List.sum_cons, List.sum_nil, add_zero]
  congr 1
  unfold exitWeight GridRestingOrder.remaining
  simp [GridOrderStatus.isOpen, hpos.le]

theorem ExitsBacked.postedQuantity_fresh (h : ExitsBacked market) {id : ℕ}
    (hid : market.store.orders.length < id) : market.store.postedQuantity id = 0 := by
  unfold GridStore.postedQuantity
  have hnone : (market.store.trades.filter fun trade => trade.gridOrderId = id) = [] := by
    apply List.filter_eq_nil_iff.mpr
    intro trade htrade
    have := h.trades trade htrade
    simp only [decide_eq_true_eq]
    omega
  rw [hnone]
  rfl

theorem ExitsBacked.place (h : ExitsBacked market) {config : GridConfig}
    (hspot : config.marketType ≠ "spot") (hround : RoundsDown config) (index : ℕ)
    (purpose : GridPurpose) (price : Amount) (quantity : Option Amount) {answers : PlaceAnswers}
    (htruth : ∀ order ∈ market.store.openOrders, Truthful market order (answers.cancels order)) :
    ExitsBacked { market with
      store := (market.store.placeLimit config index purpose price quantity answers).1 } := by
  rcases placeLimit_forms market.store config index purpose price quantity answers with
    ⟨hsame, -⟩ | hrefused | ⟨sent, hrests, hplaced⟩
  · exact h.sameRows hsame
  · rw [hrefused]
    exact h.entryRefused purpose.posSide htruth
  rw [hplaced]
  have hnew := Nat.lt_succ_self market.store.orders.length
  have horders : (market.store.recordPlaced index purpose
      (market.store.limitPrice purpose price) sent).orders = market.store.orders ++
        [{ id := market.store.orders.length + 1, cellIndex := index, purpose := purpose,
           price := market.store.limitPrice purpose price, quantity := sent,
           entryGridOrderIds := if purpose.exits
             then ((market.store.cells index).map GridCell.entryGridOrderIds).getD [] else [] }] :=
    rfl
  refine ⟨?_, ?_, ?_, ?_, ?_, ?_⟩
  · rw [horders, List.map_append]
    refine List.nodup_append.mpr ⟨h.ids, List.nodup_singleton _, ?_⟩
    intro id hid other hother
    obtain ⟨order, horder, rfl⟩ := List.mem_map.mp hid
    rw [List.mem_singleton.mp hother]
    exact ((h.bound order horder).trans_lt hnew).ne
  · intro order horder
    rw [horders] at horder ⊢
    rw [List.length_append, List.length_singleton]
    rcases List.mem_append.mp horder with hbefore | hlast
    · exact (h.bound order hbefore).trans hnew.le
    · rw [List.mem_singleton.mp hlast]
  · intro trade htrade
    rw [horders, List.length_append, List.length_singleton]
    exact (h.trades trade htrade).trans hnew.le
  · intro id hless
    rw [horders, List.length_append, List.length_singleton] at hless
    exact h.fresh id (hnew.trans hless)
  · intro order horder
    rw [horders] at horder
    rcases List.mem_append.mp horder with hbefore | hlast
    · exact ⟨(h.tracked order hbefore).processed, (h.tracked order hbefore).nonneg,
        (h.tracked order hbefore).executed, (h.tracked order hbefore).bounded,
        (h.tracked order hbefore).observed, (h.tracked order hbefore).covered,
        (h.tracked order hbefore).final⟩
    · have hexecuted := h.fresh _ hnew
      rw [List.mem_singleton.mp hlast]
      refine ⟨(h.postedQuantity_fresh hnew).symm, le_rfl, hexecuted.ge, ?_, hexecuted.ge,
        covered_self 0, ?_⟩
      · intro _
        exact hexecuted.le.trans hrests.positive.le
      · intro hclosed
        exact nomatch hclosed
  · intro side
    show _ ≤ (market.store.legs side).size
    rw [existingExits_recordPlaced _ _ _ _ _ hrests.positive]
    by_cases hexit : purpose.exits = true ∧ purpose.posSide = side
    · rw [if_pos hexit]
      obtain ⟨hexits, rfl⟩ := hexit
      have hsent := hrests.sent
      rw [sentQuantity, if_pos hexits] at hsent
      obtain ⟨hcapped, hle⟩ := normalizeBaseQty_le hround (hsent ▸ hrests.positive)
      have hcap := resolveGridExitQuantity_le market.store hspot purpose.posSide
        (config.normalizeBaseQty (requestedQuantity market.store config index purpose price quantity)
          (market.store.limitPrice purpose price)) answers.exit
      have hroom := h.backed purpose.posSide
      have hnonneg : 0 ≤ market.store.existingExits purpose.posSide := by
        rw [existingExits_eq]
        apply List.sum_nonneg
        intro weight hweight
        obtain ⟨order, -, rfl⟩ := List.mem_map.mp hweight
        exact exitWeight_nonneg _ order
      rw [max_eq_right (hnonneg.trans hroom), max_eq_right (by linarith)] at hcap
      rw [← hsent] at hle
      linarith
    · rw [if_neg hexit, add_zero]
      exact h.backed side

/-! ## Snapshots -/

theorem gridDelta_inv {event : ExecutionEvent} (hpos : 0 < event.cumulativeQuantity)
    (havg : 0 < event.cumulativeAveragePrice) {observed posted average delta price : Amount}
    (hposted : 0 ≤ posted)
    (h : gridDelta event observed posted average = .ok (delta, price)) :
    (delta ≤ 0 ∧ Covered posted event.cumulativeQuantity) ∨
      (0 < delta ∧ 0 < price ∧ delta = event.cumulativeQuantity - posted ∧
        ¬ Covered posted event.cumulativeQuantity) := by
  unfold gridDelta at h
  rw [max_eq_right hpos.le] at h
  simp only [if_pos havg.ne'] at h
  cases hdelta : cumulativeDelta posted average event.cumulativeQuantity
      event.cumulativeAveragePrice with
  | error e =>
    simp only [hdelta] at h
    cases h
  | ok pair =>
    obtain ⟨quantity, value⟩ := pair
    simp only [hdelta] at h
    have hresult : quantity = delta ∧ value = price := by
      by_cases hlarge : 0 < quantity
      · rw [if_pos hlarge] at h
        cases hrequire : requireExecution quantity value with
        | error e =>
          simp only [hrequire] at h
          cases h
        | ok _ =>
          simp only [hrequire, Except.ok.injEq, Prod.mk.injEq] at h
          exact h
      · simpa only [if_neg hlarge, Except.ok.injEq, Prod.mk.injEq] using h
    obtain ⟨rfl, rfl⟩ := hresult
    by_cases hlarge : 0 < quantity
    · obtain ⟨hquantity, -, hprice, hgrown⟩ := cumulativeDelta_pos hdelta hlarge
      exact Or.inr ⟨hlarge, hprice, hquantity, not_le.mpr hgrown⟩
    · refine Or.inl ⟨not_lt.mp hlarge, ?_⟩
      by_contra hahead
      unfold cumulativeDelta at hdelta
      rw [if_neg (not_lt.mpr (le_min hposted hpos.le)), if_neg (show ¬ _ ≤ _ from hahead)]
        at hdelta
      dsimp only at hdelta
      split_ifs at hdelta
      cases hdelta
      have htolerance : (0 : Amount) ≤ quantityTolerance posted event.cumulativeQuantity :=
        le_trans (by norm_num) (le_max_left _ _)
      have := not_le.mp hahead
      linarith

theorem projectedStatus_final {status : String} {before : GridOrderStatus} {total : Amount}
    (h : (projectedStatus status before total).isOpen = false) :
    before.isOpen = false ∨ status = "filled" ∨ status = "cancelled" := by
  unfold projectedStatus at h
  split_ifs at h with hfilled hcancelled hrow hrow' htotal
  · exact Or.inr (Or.inl hfilled)
  · exact Or.inr (Or.inr hcancelled)
  · rw [hrow]
    exact Or.inl rfl
  · rw [hrow']
    exact Or.inl rfl
  · exact nomatch h
  · exact Or.inl h

theorem exitWeight_observed_le (side : PositionSide) (order : GridRestingOrder)
    (event : ExecutionEvent) (price : Amount) :
    exitWeight side (order.observed event price) ≤ exitWeight side order := by
  unfold exitWeight
  by_cases hafter : (order.observed event price).status.isOpen = true ∧
      (order.observed event price).purpose.exits = true ∧
      (order.observed event price).purpose.posSide = side
  · have hbefore : order.status.isOpen = true ∧ order.purpose.exits = true ∧
        order.purpose.posSide = side := ⟨projectedStatus_isOpen hafter.1, hafter.2⟩
    rw [if_pos hafter, if_pos hbefore]
    exact le_rfl
  · rw [if_neg hafter]
    exact exitWeight_nonneg side order

theorem exitWeight_processed_le (side : PositionSide) (order : GridRestingOrder) (total : Amount) :
    exitWeight side (order.processed total) ≤ exitWeight side order := by
  unfold exitWeight
  by_cases hcounts : order.status.isOpen = true ∧ order.purpose.exits = true ∧
      order.purpose.posSide = side
  · rw [if_pos hcounts, if_pos (show (order.processed total).status.isOpen = true ∧
      (order.processed total).purpose.exits = true ∧
      (order.processed total).purpose.posSide = side from hcounts)]
    exact max_le_max le_rfl (sub_le_sub le_rfl (le_max_left _ _))
  · rw [if_neg hcounts, if_neg (show ¬ ((order.processed total).status.isOpen = true ∧
      (order.processed total).purpose.exits = true ∧
      (order.processed total).purpose.posSide = side) from hcounts)]

theorem applyFill_opens (leg : LegPosition) {signal : SignalType} (hopens : signal.opens = true)
    {filled price : Amount} (hfilled : 0 < filled) (hprice : 0 < price) :
    (leg.applyFill signal filled price).1.size = leg.size + filled := by
  unfold LegPosition.applyFill
  rw [if_neg (not_or.mpr ⟨not_le.mpr hfilled, not_le.mpr hprice⟩), if_pos hopens]
  rfl

theorem applyFill_closes (leg : LegPosition) {signal : SignalType} (hcloses : signal.opens = false)
    {filled price : Amount} (hfilled : 0 < filled) (hprice : 0 < price) :
    leg.size - filled ≤ (leg.applyFill signal filled price).1.size := by
  unfold LegPosition.applyFill
  rw [if_neg (not_or.mpr ⟨not_le.mpr hfilled, not_le.mpr hprice⟩), hcloses]
  unfold LegPosition.closeBy
  by_cases hempty : leg.size - filled ≤ 0
  · simp only [Bool.false_eq_true, if_false, if_pos hempty]
    exact hempty
  · simp only [Bool.false_eq_true, if_false, if_neg hempty]
    exact le_rfl

theorem orders_setOrder_setOrder {store filled : GridStore} {id : ℕ}
    {f g : GridRestingOrder → GridRestingOrder} (hf : ∀ order, (f order).id = order.id)
    (horders : filled.orders = (store.setOrder id f).orders) :
    (filled.setOrder id g).orders =
      store.orders.map fun order => if order.id = id then g (f order) else order := by
  show filled.orders.map _ = _
  rw [horders]
  show (store.orders.map _).map _ = _
  rw [List.map_map]
  apply List.map_congr_left
  intro order _
  by_cases hid : order.id = id
  · simp [hid, hf]
  · simp [hid]

theorem OrderTracked.isOpen {order : GridRestingOrder} (h : OrderTracked market order)
    {quantity : Amount} (hreached : quantity ≤ market.executed order.id)
    (hahead : ¬ Covered order.processedFillQty quantity) : order.status.isOpen = true := by
  by_contra hclosed
  exact hahead ((h.final (Bool.not_eq_true _ ▸ hclosed)).2.mono h.nonneg hreached)

section Deliver

variable {config : GridConfig} {event : ExecutionEvent} {price : Amount}

theorem OrderTracked.observes {order : GridRestingOrder} (h : OrderTracked market order)
    (hpos : 0 < event.cumulativeQuantity)
    (hreached : event.cumulativeQuantity ≤ market.executed order.id)
    (hfinal : event.orderStatus = "filled" ∨ event.orderStatus = "cancelled" →
      market.finished order.id = true ∧ market.executed order.id ≤ event.cumulativeQuantity)
    (hcovered : Covered order.processedFillQty event.cumulativeQuantity) {next : GridStore}
    (htrades : next.trades = market.store.trades) :
    OrderTracked { market with store := next } (order.observed event price) := by
  have htotal : (order.observed event price).filledQuantity =
      max order.filledQuantity event.cumulativeQuantity :=
    observedTotal_cumulative hpos order.filledQuantity
  refine ⟨?_, h.nonneg, h.executed, h.bounded, ?_, ?_, ?_⟩
  · show order.processedFillQty = next.postedQuantity order.id
    unfold GridStore.postedQuantity
    rw [htrades]
    exact h.processed
  · rw [htotal]
    exact max_le h.observed hreached
  · rw [htotal]
    rcases max_cases order.filledQuantity event.cumulativeQuantity with ⟨heq, -⟩ | ⟨heq, -⟩
    · rw [heq]
      exact h.covered
    · rw [heq]
      exact hcovered
  · intro hclosed
    rcases projectedStatus_final hclosed with hbefore | hstatus
    · exact h.final hbefore
    · obtain ⟨hfinished, hall⟩ := hfinal hstatus
      exact ⟨hfinished, hcovered.mono h.nonneg hall⟩

theorem OrderTracked.posts {order : GridRestingOrder} (h : OrderTracked market order)
    (hpos : 0 < event.cumulativeQuantity)
    (hreached : event.cumulativeQuantity ≤ market.executed order.id)
    (hfinal : event.orderStatus = "filled" ∨ event.orderStatus = "cancelled" →
      market.finished order.id = true ∧ market.executed order.id ≤ event.cumulativeQuantity)
    (hahead : ¬ Covered order.processedFillQty event.cumulativeQuantity) {next : GridStore}
    (hposted : next.postedQuantity order.id = event.cumulativeQuantity) :
    observedTotal event order.filledQuantity = event.cumulativeQuantity ∧
      OrderTracked { market with store := next }
        ((order.observed event price).processed (observedTotal event order.filledQuantity)) := by
  have hbehind : order.processedFillQty < event.cumulativeQuantity := by
    by_contra hle
    exact hahead ((covered_self _).mono h.nonneg (not_lt.mp hle))
  have hless : order.filledQuantity ≤ event.cumulativeQuantity := by
    by_contra hlater
    exact hahead (h.covered.mono h.nonneg (not_le.mp hlater).le)
  have htotal : observedTotal event order.filledQuantity = event.cumulativeQuantity := by
    rw [observedTotal_cumulative hpos, max_eq_right hless]
  have hprocessed : ((order.observed event price).processed
      (observedTotal event order.filledQuantity)).processedFillQty = event.cumulativeQuantity := by
    show max order.processedFillQty (observedTotal event order.filledQuantity) = _
    rw [htotal, max_eq_right hbehind.le]
  have hfilled : ((order.observed event price).processed
      (observedTotal event order.filledQuantity)).filledQuantity = event.cumulativeQuantity := htotal
  refine ⟨htotal, ?_, ?_, ?_, h.bounded, ?_, ?_, ?_⟩
  · rw [hprocessed]
    exact hposted.symm
  · rw [hprocessed]
    exact hpos.le
  · rw [hprocessed]
    exact hreached
  · rw [hfilled]
    exact hreached
  · rw [hprocessed, hfilled]
    exact covered_self _
  · intro hclosed
    rcases projectedStatus_final hclosed with hbefore | hstatus
    · rw [h.isOpen hreached hahead] at hbefore
      exact nomatch hbefore
    · obtain ⟨hfinished, hall⟩ := hfinal hstatus
      refine ⟨hfinished, ?_⟩
      rw [hprocessed]
      exact (covered_self _).mono hpos.le hall

theorem exitWeight_posts {order : GridRestingOrder} (h : OrderTracked market order)
    (hexit : order.purpose.exits = true) (hopen : order.status.isOpen = true)
    (hreached : event.cumulativeQuantity ≤ market.executed order.id)
    (hbehind : order.processedFillQty ≤ event.cumulativeQuantity) :
    exitWeight order.purpose.posSide
        ((order.observed event price).processed event.cumulativeQuantity) ≤
      exitWeight order.purpose.posSide order -
        (event.cumulativeQuantity - order.processedFillQty) := by
  have hbound := hreached.trans (h.bounded hexit)
  have hbefore : exitWeight order.purpose.posSide order =
      order.quantity - order.processedFillQty := by
    rw [exitWeight, if_pos ⟨hopen, hexit, rfl⟩]
    exact max_eq_right (by linarith)
  have hafter : ((order.observed event price).processed event.cumulativeQuantity).remaining =
      order.quantity - event.cumulativeQuantity := by
    show max 0 (order.quantity - max order.processedFillQty event.cumulativeQuantity) = _
    rw [max_eq_right hbehind, max_eq_right (by linarith)]
  rw [hbefore, exitWeight]
  split_ifs
  · rw [hafter]
    linarith
  · linarith

theorem postedQuantity_applyGridFill (store : GridStore) (order : GridRestingOrder)
    (filled : Amount) (fees : Fees) (id : ℕ) :
    (store.applyGridFill config order filled price fees).postedQuantity id =
      store.postedQuantity id + if id = order.id then filled else 0 := by
  unfold GridStore.postedQuantity GridStore.applyGridFill
  simp only [List.filter_append, List.map_append, List.sum_append]
  by_cases hid : id = order.id
  · simp [hid]
  · simp [hid, Ne.symm hid]

theorem ExitsBacked.projectGrid (h : ExitsBacked market) (hswap : config.marketType = "swap")
    {orderId : ℕ} (hpos : 0 < event.cumulativeQuantity) (havg : 0 < event.cumulativeAveragePrice)
    (hreached : event.cumulativeQuantity ≤ market.executed orderId)
    (hfinal : event.orderStatus = "filled" ∨ event.orderStatus = "cancelled" →
      market.finished orderId = true ∧ market.executed orderId ≤ event.cumulativeQuantity)
    {fees : Fees} {next : GridStore} {followUp : Option GridFollowUp}
    (hproject : market.store.projectGrid config orderId event fees = .ok (next, followUp)) :
    ExitsBacked { market with store := next } := by
  rcases projectGrid_cases hproject with ⟨rfl, -⟩ | ⟨row, delta, price, hrow, hdelta, -, hcase⟩
  · exact h
  have hmem : row ∈ market.store.orders := List.mem_of_find?_eq_some hrow
  obtain rfl : row.id = orderId := by simpa using List.find?_some hrow
  have htracked := h.tracked row hmem
  rw [← htracked.processed] at hdelta
  have hparts := gridDelta_inv hpos havg htracked.nonneg hdelta
  rcases hcase with ⟨hsmall, -, rfl⟩ | ⟨hlarge, filled, hfill, rfl⟩
  · -- nothing is posted: the increment is within the tolerance
    have hcovered : Covered row.processedFillQty event.cumulativeQuantity := by
      rcases hparts with ⟨-, hcovered⟩ | ⟨-, -, hquantity, -⟩
      · exact hcovered
      · apply covered_of_le_add
        linarith
    have horders : (market.store.setOrder row.id fun order => order.observed event price).orders =
        market.store.orders.map fun order =>
          if order.id = row.id then order.observed event price else order := rfl
    refine h.updateRow hmem (fun order => order.observed event price) (fun _ => rfl) horders
      (fun _ htrade => Or.inl htrade) (fun _ _ => rfl)
      (htracked.observes hpos hreached hfinal hcovered rfl) ?_
    intro side
    have hdrop := existingExits_update hmem (fun order => order.observed event price) horders side 0
      (fun order => exitWeight_observed_le side order event price)
      (by rw [sub_zero]; exact exitWeight_observed_le side row event price)
    rw [sub_zero] at hdrop
    exact hdrop.trans (h.backed side)
  · obtain ⟨-, hprice, hquantity, hahead⟩ : 0 < delta ∧ 0 < price ∧
        delta = event.cumulativeQuantity - row.processedFillQty ∧
        ¬ Covered row.processedFillQty event.cumulativeQuantity := by
      rcases hparts with ⟨hnone, -⟩ | hparts
      · have : (0 : Amount) < 1 / 10 ^ 12 := by norm_num
        linarith
      · exact hparts
    have hdelta_pos : 0 < delta := lt_trans (by norm_num) hlarge
    have hopen := htracked.isOpen hreached hahead
    obtain ⟨hlegs, htrades⟩ := onOrderFilled_ledger hfill
    have hpostedAt : ∀ id, (filled.setOrder row.id fun order => order.processed
        (observedTotal event row.filledQuantity)).postedQuantity id =
          market.store.postedQuantity id + if id = row.id then delta else 0 := by
      intro id
      rw [← @postedQuantity_applyGridFill config price _ row delta fees id]
      unfold GridStore.postedQuantity
      rw [setOrder_trades, htrades]
      rfl
    have hposted : (filled.setOrder row.id fun order => order.processed
        (observedTotal event row.filledQuantity)).postedQuantity row.id =
          event.cumulativeQuantity := by
      rw [hpostedAt, if_pos rfl, ← htracked.processed, hquantity]
      ring
    obtain ⟨htotal, hnext⟩ := @OrderTracked.posts market event price row htracked hpos hreached
      hfinal hahead _ hposted
    have horders := @orders_setOrder_setOrder market.store filled row.id
      (fun order => order.observed event price)
      (fun order => order.processed (observedTotal event row.filledQuantity)) (fun _ => rfl)
      (onOrderFilled_frame hfill).1
    have hweight : ∀ side order, exitWeight side ((order.observed event price).processed
        (observedTotal event row.filledQuantity)) ≤ exitWeight side order := fun side order =>
      (exitWeight_processed_le side _ _).trans (exitWeight_observed_le side order event price)
    refine h.updateRow hmem (fun order => (order.observed event price).processed
      (observedTotal event row.filledQuantity)) (fun _ => rfl) horders ?_ ?_ hnext ?_
    · intro trade htrade
      replace htrade : trade ∈ filled.trades := htrade
      rw [htrades] at htrade
      rcases List.mem_append.mp htrade with hbefore | hnew
      · exact Or.inl hbefore
      · rw [List.mem_singleton.mp hnew]
        exact Or.inr rfl
    · intro id hother
      rw [hpostedAt, if_neg hother, add_zero]
    · intro side
      show _ ≤ (filled.legs side).size
      rw [hlegs]
      have hsame := existingExits_update hmem _ horders side 0 (hweight side)
        (by rw [sub_zero]; exact hweight side row)
      rw [sub_zero] at hsame
      show _ ≤ (Function.update market.store.legs row.purpose.posSide
        ((market.store.legs row.purpose.posSide).applyFill row.purpose.signal
          (spotPositionFillQuantity config.marketType config.symbol row.purpose.signal delta fees)
          price).1 side).size
      rw [hswap, spotPositionFillQuantity_swap, max_eq_right hdelta_pos.le]
      by_cases hside : side = row.purpose.posSide
      · subst hside
        rw [Function.update_self]
        by_cases hexit : row.purpose.exits = true
        · -- the leg and what the exits reserve of it shrink by the same quantity
          have hcloses : row.purpose.signal.opens = false := by
            cases hp : row.purpose <;> simp [hp, GridPurpose.exits] at hexit <;> rfl
          have hbehind : row.processedFillQty ≤ event.cumulativeQuantity := by linarith
          have hdrop := existingExits_update hmem _ horders row.purpose.posSide delta
            (hweight row.purpose.posSide)
            (by rw [htotal, hquantity]; exact exitWeight_posts htracked hexit hopen hreached hbehind)
          have hleg := applyFill_closes (market.store.legs row.purpose.posSide) hcloses hdelta_pos hprice
          have hbacked := h.backed row.purpose.posSide
          linarith
        · have hopens : row.purpose.signal.opens = true := by
            cases hp : row.purpose <;> simp [hp, GridPurpose.exits] at hexit <;> rfl
          rw [applyFill_opens _ hopens hdelta_pos hprice]
          have hbacked := h.backed row.purpose.posSide
          linarith
      · rw [Function.update_of_ne hside]
        exact hsame.trans (h.backed side)

end Deliver

/-! ## Whole runs -/

variable {config : GridConfig}

theorem ExitsBacked.exchange (h : ExitsBacked market) {executed : ℕ → Amount} {finished : ℕ → Bool}
    (hfresh : ∀ id, market.store.orders.length < id → executed id = 0)
    (hgrows : ∀ id, market.executed id ≤ executed id)
    (hbounded : ∀ order ∈ market.store.orders, order.purpose.exits = true →
      executed order.id ≤ order.quantity)
    (hfinal : ∀ id, market.finished id = true → finished id = true ∧
      executed id = market.executed id) :
    ExitsBacked { market with executed := executed, finished := finished } := by
  refine ⟨h.ids, h.bound, h.trades, hfresh, ?_, h.backed⟩
  intro order horder
  have htracked := h.tracked order horder
  refine ⟨htracked.processed, htracked.nonneg, htracked.executed.trans (hgrows order.id),
    hbounded order horder, htracked.observed.trans (hgrows order.id), htracked.covered, ?_⟩
  intro hclosed
  obtain ⟨hfinished, hcovered⟩ := htracked.final hclosed
  obtain ⟨hstill, hsame⟩ := hfinal order.id hfinished
  refine ⟨hstill, ?_⟩
  show Covered order.processedFillQty (executed order.id)
  rw [hsame]
  exact hcovered

theorem ExitsBacked.act (h : ExitsBacked market) (hswap : config.marketType = "swap")
    (hround : RoundsDown config) {action : MarketAction} (hrules : ExchangeRules market action) :
    ExitsBacked (market.act config action) := by
  have hspot : config.marketType ≠ "spot" := by rw [hswap]; decide
  cases action with
  | execute orderId quantity =>
    obtain ⟨hquantity, hopen, hlisted, hbounded⟩ := hrules
    apply h.exchange
    · intro id hless
      have hother : id ≠ orderId := by
        rintro rfl
        obtain ⟨order, horder, heq⟩ := List.mem_map.mp hlisted
        have := h.bound order horder
        omega
      rw [Function.update_of_ne hother]
      exact h.fresh id hless
    · intro id
      rw [Function.update_apply]
      split_ifs with hid
      · rw [hid]
        linarith
      · exact le_rfl
    · intro order horder hexit
      rw [Function.update_apply]
      split_ifs with hid
      · exact hbounded order horder hid hexit
      · exact (h.tracked order horder).bounded hexit
    · intro id hfinished
      have hother : id ≠ orderId := by
        rintro rfl
        rw [hopen] at hfinished
        exact nomatch hfinished
      exact ⟨hfinished, Function.update_of_ne hother _ _⟩
  | finish orderId =>
    apply h.exchange h.fresh (fun _ => le_rfl)
      (fun order horder => (h.tracked order horder).bounded)
    intro id hfinished
    refine ⟨?_, rfl⟩
    rw [Function.update_apply]
    split_ifs
    · rfl
    · exact hfinished
  | deliver orderId delivery =>
    show ExitsBacked { market with store := market.deliver config orderId delivery }
    unfold GridMarket.deliver
    cases hcomplete : completeSnapshot delivery.event delivery.rest with
    | error e => exact h
    | ok event =>
      obtain ⟨hpos, havg⟩ := completeSnapshot_ok hcomplete
      obtain ⟨hreached, hfinal⟩ := hrules event (by rw [hcomplete]; rfl)
      cases hproject : market.store.projectGrid config orderId event delivery.fees with
      | error e =>
        simp only [hproject]
        exact h
      | ok result =>
        simp only [hproject]
        exact h.projectGrid hswap hpos havg hreached hfinal hproject
  | place index purpose price quantity answers =>
    exact h.place hspot hround index purpose price quantity hrules
  | cancel orderId answer =>
    unfold GridMarket.act
    cases horder : market.store.order? orderId with
    | none =>
      simp only [horder]
      exact h
    | some order =>
      simp only [horder]
      exact h.cancelConfirmedOrder (List.mem_of_find?_eq_some horder) rfl rfl
        (hrules order horder)

/-- A grid with no orders, no trades and empty legs. -/
structure EmptyGrid (store : GridStore) : Prop where
  orders : store.orders = []
  trades : store.trades = []
  legs : ∀ side, (store.legs side).size = 0

theorem EmptyGrid.exitsBacked {store : GridStore} (h : EmptyGrid store) :
    ExitsBacked { store := store } := by
  refine ⟨?_, ?_, ?_, fun _ _ => rfl, ?_, ?_⟩
  · rw [h.orders]
    exact List.nodup_nil
  · intro order horder
    rw [h.orders] at horder
    exact nomatch horder
  · intro trade htrade
    rw [h.trades] at htrade
    exact nomatch htrade
  · intro order horder
    rw [h.orders] at horder
    exact nomatch horder
  · intro side
    rw [existingExits_eq, h.orders, h.legs]
    exact le_refl (0 : Amount)

/-- An entry of 1 fills; its exit fills by half, and is cancelled before the half is posted (which
is not confirmed) and after it. -/
private def racedExit : List MarketAction :=
  [.place 0 .longEntry 90 (some 1) {},
    .execute 1 1,
    .finish 1,
    .deliver 1 { event := { cumulativeQuantity := 1, cumulativeAveragePrice := 90,
                            orderStatus := "filled" } },
    .place 0 .longExit 110 (some 1) { exit := { exchangeSize := 1 } },
    .execute 2 (1 / 2),
    .finish 2,
    .cancel 2 { filled := 1 / 2 },
    .deliver 2 { event := { cumulativeQuantity := 1 / 2, cumulativeAveragePrice := 110 } },
    .cancel 2 { filled := 1 / 2 }]

private def racedGrid : GridStore where
  cells := fun index => if index = 0 then some { lowerPrice := 90, upperPrice := 110 } else none

end QuantDinger.Analysis
