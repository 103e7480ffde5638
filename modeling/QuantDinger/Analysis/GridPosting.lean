import QuantDinger.Analysis.Posting
import QuantDinger.Analysis.GridSteps

/-!
# The posted fills of a grid order

Snapshots of one grid order reach `_project_grid` in any order and any number of times. What is
posted is always one of the delivered snapshots, the increments between the posted ones are what
`on_order_filled` is called with, and no delivered snapshot is ahead of the posted one by more
than the tolerance of `cumulative_delta`.
-/

namespace QuantDinger.Analysis

open QuantDinger.Library
open QuantDinger.Model
open QuantDinger.Model.Live

/-! ## Snapshots and deliveries -/

/-- The cumulative quantity and value of an order. -/
structure OrderSnapshot where
  quantity : Amount
  notional : Amount
  deriving DecidableEq

def OrderSnapshot.start : OrderSnapshot := ⟨0, 0⟩

/-- The snapshots of an order: quantity and value are positive and grow strictly. -/
structure Growing (history : List OrderSnapshot) : Prop where
  positive : ∀ snapshot ∈ history, 0 < snapshot.quantity ∧ 0 < snapshot.notional
  increasing : history.Pairwise fun before after =>
    before.quantity < after.quantity ∧ before.notional < after.notional

/-- An event of the order with what REST would answer, and the fees of its increment. -/
structure GridDelivery where
  event : ExecutionEvent
  rest : Option RestSnapshot := none
  fees : Fees := Dict.empty

def snapshotOf (event : ExecutionEvent) : OrderSnapshot :=
  ⟨event.cumulativeQuantity, event.cumulativeQuantity * event.cumulativeAveragePrice⟩

/-- The snapshots that reach `_project_grid`: an event that cannot be completed is refused before
the transaction. -/
def deliveredSnapshots (deliveries : List GridDelivery) : List OrderSnapshot :=
  deliveries.filterMap fun delivery =>
    (completeSnapshot delivery.event delivery.rest).toOption.map snapshotOf

/-- The rows, next to what `on_order_filled` has been called with for the order. -/
structure GridFeed where
  store : GridStore
  calls : List (Amount × Amount) := []

/-- What `_project_grid` calls `on_order_filled` with. -/
def fillCalls (store : GridStore) (orderId : ℕ) (event : ExecutionEvent) :
    List (Amount × Amount) :=
  match store.order? orderId with
  | none => []
  | some row =>
    match gridDelta event row.filledQuantity (store.postedQuantity orderId)
      (store.postedAverage orderId) with
    | .error _ => []
    | .ok (delta, price) =>
      if max 0 event.cumulativeQuantity + 1 / 10 ^ 12 < row.filledQuantity then []
      else if delta ≤ 1 / 10 ^ 12 then [] else [(delta, price)]

/-- One delivery, in a transaction that is rolled back when it fails. -/
def GridFeed.deliver (config : GridConfig) (orderId : ℕ) (feed : GridFeed)
    (delivery : GridDelivery) : GridFeed :=
  match completeSnapshot delivery.event delivery.rest with
  | .error _ => feed
  | .ok event =>
    match feed.store.projectGrid config orderId event delivery.fees with
    | .error _ => feed
    | .ok (next, _) => ⟨next, feed.calls ++ fillCalls feed.store orderId event⟩

def GridFeed.deliverAll (config : GridConfig) (orderId : ℕ) (feed : GridFeed)
    (deliveries : List GridDelivery) : GridFeed :=
  deliveries.foldl (GridFeed.deliver config orderId) feed

/-- The increments of a chain of snapshots: each with the price of the difference in value. -/
def increments : OrderSnapshot → List OrderSnapshot → List (Amount × Amount)
  | _, [] => []
  | before, after :: rest =>
    (after.quantity - before.quantity,
      (after.notional - before.notional) / (after.quantity - before.quantity)) ::
        increments after rest

def lastSnapshot (chain : List OrderSnapshot) : OrderSnapshot := chain.getLast?.getD .start

/-- The amounts and prices posted for an order. -/
def postedFills (store : GridStore) (orderId : ℕ) : List (Amount × Amount) :=
  (store.trades.filter fun trade => trade.gridOrderId = orderId).map fun trade =>
    (trade.amount, trade.price)

def OrderClosed (store : GridStore) (orderId : ℕ) : Prop :=
  ∀ row ∈ store.order? orderId, row.status = .filled ∨ row.status = .cancelled

/-- An order with no fills, in a grid with rows for its cells. -/
structure FreshOrder (config : GridConfig) (store : GridStore) (orderId : ℕ) : Prop where
  rows : ∀ spec ∈ config.cells, (store.cells spec.index).isSome
  row : ∃ row, store.order? orderId = some row ∧ row.filledQuantity = 0
  unposted : postedFills store orderId = []

/-! ## The tolerance -/

/-- The quantity is not ahead of the posted one by more than the tolerance. -/
def Covered (posted quantity : Amount) : Prop :=
  quantity ≤ posted + quantityTolerance posted quantity

theorem Covered.mono {posted smaller larger : Amount} (hposted : 0 ≤ posted)
    (hle : smaller ≤ larger) (h : Covered posted larger) : Covered posted smaller := by
  unfold Covered quantityTolerance at *
  rcases le_or_gt smaller posted with hsmall | hsmall
  · have : (0 : Amount) ≤ max (1 / 10 ^ 12) (max |posted| |smaller| * (1 / 10 ^ 12)) :=
      le_trans (by norm_num) (le_max_left _ _)
    linarith
  have hpos : 0 ≤ smaller := hposted.trans hsmall.le
  rw [abs_of_nonneg hposted, abs_of_nonneg (hpos.trans hle),
    max_eq_right (hsmall.le.trans hle)] at h
  rw [abs_of_nonneg hposted, abs_of_nonneg hpos, max_eq_right hsmall.le]
  rcases max_cases (1 / 10 ^ 12 : Amount) (larger * (1 / 10 ^ 12)) with ⟨heq, -⟩ | ⟨heq, -⟩
  · rw [heq] at h
    have := le_max_left (1 / 10 ^ 12 : Amount) (smaller * (1 / 10 ^ 12))
    linarith
  · rw [heq] at h
    have := le_max_right (1 / 10 ^ 12 : Amount) (smaller * (1 / 10 ^ 12))
    linarith

theorem covered_self (posted : Amount) : Covered posted posted := by
  have : (0 : Amount) ≤ quantityTolerance posted posted :=
    le_trans (by norm_num) (le_max_left _ _)
  unfold Covered
  linarith

/-! ## Chains -/

theorem lastSnapshot_append (chain : List OrderSnapshot) (snapshot : OrderSnapshot) :
    lastSnapshot (chain ++ [snapshot]) = snapshot := by
  simp [lastSnapshot]

theorem increments_append (before : OrderSnapshot) (chain : List OrderSnapshot)
    (after : OrderSnapshot) :
    increments before (chain ++ [after]) = increments before chain ++
      [(after.quantity - (chain.getLast?.getD before).quantity,
        (after.notional - (chain.getLast?.getD before).notional) /
          (after.quantity - (chain.getLast?.getD before).quantity))] := by
  induction chain generalizing before with
  | nil => rfl
  | cons snapshot chain ih =>
    rw [List.cons_append, increments, ih, increments, List.cons_append, List.getLast?_cons,
      Option.getD_some]

theorem Growing.notional_lt {history : List OrderSnapshot} (h : Growing history)
    {before after : OrderSnapshot} (hbefore : before ∈ history) (hafter : after ∈ history)
    (hquantity : before.quantity < after.quantity) : before.notional < after.notional := by
  have hincreasing := h.increasing
  clear h
  induction history with
  | nil => exact nomatch hbefore
  | cons first rest ih =>
    obtain ⟨hfirst, hrest⟩ := List.pairwise_cons.mp hincreasing
    rcases List.mem_cons.mp hbefore with rfl | hbehind
    · rcases List.mem_cons.mp hafter with rfl | hahead
      · exact absurd hquantity (lt_irrefl _)
      · exact (hfirst after hahead).2
    · rcases List.mem_cons.mp hafter with rfl | hahead
      · exact absurd ((hfirst before hbehind).1.trans hquantity) (lt_irrefl _)
      · exact ih hbehind hahead hrest

/-! ## One delivery -/

theorem order?_setOrder {store : GridStore} {id : ℕ} {f : GridRestingOrder → GridRestingOrder}
    (hid : ∀ order, (f order).id = order.id) :
    (store.setOrder id f).order? id = (store.order? id).map f := by
  simp only [GridStore.order?, GridStore.setOrder]
  induction store.orders with
  | nil => rfl
  | cons order orders ih =>
    rw [List.map_cons]
    by_cases hat : order.id = id
    · rw [if_pos hat, List.find?_cons_of_pos (by simp [hid, hat]),
        List.find?_cons_of_pos (by simp [hat]), Option.map_some]
    · rw [if_neg hat, List.find?_cons_of_neg (by simp [hat]),
        List.find?_cons_of_neg (by simp [hat]), ih]

theorem order?_observed {store : GridStore} {id : ℕ} {row : GridRestingOrder}
    (hrow : store.order? id = some row) (event : ExecutionEvent) (price : Amount) :
    (store.setOrder id fun order => order.observed event price).order? id =
      some (row.observed event price) := by
  have hupdated := @order?_setOrder store id (fun order => order.observed event price) fun _ => rfl
  rw [hupdated, hrow, Option.map_some]

theorem order?_processed {store : GridStore} {id : ℕ} {row : GridRestingOrder}
    (hrow : store.order? id = some row) (total : Amount) :
    (store.setOrder id fun order => order.processed total).order? id =
      some (row.processed total) := by
  have hupdated := @order?_setOrder store id (fun order => order.processed total) fun _ => rfl
  rw [hupdated, hrow, Option.map_some]

theorem order?_congr {store next : GridStore} (h : next.orders = store.orders) (id : ℕ) :
    next.order? id = store.order? id := by
  unfold GridStore.order?
  rw [h]

theorem postedQuantity_eq_sum (store : GridStore) (orderId : ℕ) :
    store.postedQuantity orderId = ((postedFills store orderId).map Prod.fst).sum := by
  unfold GridStore.postedQuantity postedFills
  rw [List.map_map]
  rfl

theorem postedValue_eq_sum (store : GridStore) (orderId : ℕ) :
    store.postedValue orderId =
      ((postedFills store orderId).map fun fill => fill.1 * fill.2).sum := by
  unfold GridStore.postedValue postedFills
  rw [List.map_map]
  rfl

theorem postedFills_congr {store next : GridStore} (h : next.trades = store.trades) (id : ℕ) :
    postedFills next id = postedFills store id := by
  unfold postedFills
  rw [h]

theorem postedFills_applyGridFill (store : GridStore) (config : GridConfig)
    (order : GridRestingOrder) (filled price : Amount) (fees : Fees) :
    postedFills (store.applyGridFill config order filled price fees) order.id =
      postedFills store order.id ++ [(filled, price)] := by
  simp [postedFills, GridStore.applyGridFill]

theorem onOrderFilled_accepts {store : GridStore} {config : GridConfig}
    (hrows : ∀ spec ∈ config.cells, (store.cells spec.index).isSome) (order : GridRestingOrder)
    {filled price : Amount} (hfilled : 0 < filled) (hprice : 0 < price) (fees : Fees) :
    ∃ result, store.onOrderFilled config order filled price fees = .ok result := by
  have hrequire : requireExecution filled price = .ok () := if_pos ⟨hfilled, hprice⟩
  unfold GridStore.onOrderFilled
  rw [hrequire]
  cases hspec : config.cells.find? fun spec => spec.index = order.cellIndex with
  | none => exact ⟨_, rfl⟩
  | some spec =>
    obtain ⟨cell, hcell⟩ :=
      Option.isSome_iff_exists.mp (hrows spec (List.mem_of_find?_eq_some hspec))
    simp only [hcell]
    exact ⟨_, rfl⟩

theorem onOrderFilled_frame {store next : GridStore} {config : GridConfig}
    {order : GridRestingOrder} {filled price : Amount} {fees : Fees} {followUp : Option GridFollowUp}
    (h : store.onOrderFilled config order filled price fees = .ok (next, followUp)) :
    next.orders = store.orders ∧
      postedFills next order.id = postedFills store order.id ++ [(filled, price)] ∧
      ∀ index, (store.cells index).isSome → (next.cells index).isSome := by
  have hposted := postedFills_applyGridFill store config order filled price fees
  obtain ⟨-, -, ⟨-, -, rfl⟩ | ⟨spec, -, -, cell, -, rfl, -⟩⟩ := onOrderFilled_cases h
  · exact ⟨rfl, hposted, fun _ => id⟩
  · refine ⟨filledStore_orders _ _ _ _ _ _ _ _, ?_, ?_⟩
    · rw [← hposted]
      exact postedFills_congr (filledStore_trades _ _ _ _ _ _ _ _) order.id
    · intro index hsome
      rw [filledStore_cells]
      split_ifs
      · rfl
      · exact hsome

theorem completeSnapshot_ok {event completed : ExecutionEvent} {rest : Option RestSnapshot}
    (h : completeSnapshot event rest = .ok completed) :
    0 < completed.cumulativeQuantity ∧ 0 < completed.cumulativeAveragePrice := by
  unfold completeSnapshot at h
  by_cases hown : 0 < event.cumulativeQuantity ∧ 0 < event.cumulativeAveragePrice
  · rw [if_pos hown] at h
    cases h
    exact hown
  · rw [if_neg hown] at h
    cases rest with
    | none => exact nomatch h
    | some snapshot =>
      simp only at h
      split_ifs at h with hbad
      · cases h
        obtain ⟨hquantity, haverage⟩ := not_or.mp hbad
        exact ⟨not_le.mp hquantity, not_le.mp (not_or.mp haverage).1⟩

section Projections

variable {store : GridStore} {config : GridConfig} {orderId : ℕ} {row : GridRestingOrder}
  {event : ExecutionEvent} {delta price : Amount}

theorem projectGrid_unposted (hrow : store.order? orderId = some row)
    (hdelta : gridDelta event row.filledQuantity (store.postedQuantity orderId)
      (store.postedAverage orderId) = .ok (delta, price))
    (hsmall : delta ≤ 1 / 10 ^ 12) (fees : Fees) :
    fillCalls store orderId event = [] ∧
    store.projectGrid config orderId event fees =
      .ok (if max 0 event.cumulativeQuantity + 1 / 10 ^ 12 < row.filledQuantity then store
        else store.setOrder orderId fun order => order.observed event price, none) := by
  unfold GridStore.projectGrid fillCalls
  simp only [hrow, hdelta]
  by_cases hstale : max 0 event.cumulativeQuantity + 1 / 10 ^ 12 < row.filledQuantity
  · simp only [if_pos hstale, and_self]
  · simp only [if_neg hstale, if_pos hsmall, and_self]

theorem projectGrid_posts (hrow : store.order? orderId = some row)
    (hdelta : gridDelta event row.filledQuantity (store.postedQuantity orderId)
      (store.postedAverage orderId) = .ok (delta, price))
    (hfresh : row.filledQuantity ≤ max 0 event.cumulativeQuantity + 1 / 10 ^ 12)
    (hlarge : 1 / 10 ^ 12 < delta) {fees : Fees} {filled : GridStore}
    {followUp : Option GridFollowUp}
    (hfill : (store.setOrder orderId fun order => order.observed event price).onOrderFilled config
      row delta price fees = .ok (filled, followUp)) :
    fillCalls store orderId event = [(delta, price)] ∧
    store.projectGrid config orderId event fees =
      .ok (filled.setOrder orderId fun order =>
        order.processed (observedTotal event row.filledQuantity), followUp) := by
  unfold GridStore.projectGrid fillCalls
  simp only [hrow, hdelta, if_neg (not_lt.mpr hfresh), if_neg (not_le.mpr hlarge), hfill, and_self]

end Projections

/-! ## The invariant -/

/-- What is posted is a chain of delivered snapshots, and every delivered snapshot and the row are
covered by its last one. -/
structure PostsChain (config : GridConfig) (orderId : ℕ) (delivered chain : List OrderSnapshot)
    (feed : GridFeed) : Prop where
  rows : ∀ spec ∈ config.cells, (feed.store.cells spec.index).isSome
  row : ∃ row, feed.store.order? orderId = some row ∧
    Covered (lastSnapshot chain).quantity row.filledQuantity
  subset : ∀ snapshot ∈ chain, snapshot ∈ delivered
  calls : feed.calls = increments .start chain
  fills : postedFills feed.store orderId = feed.calls
  quantity : feed.store.postedQuantity orderId = (lastSnapshot chain).quantity
  value : feed.store.postedValue orderId = (lastSnapshot chain).notional
  covered : ∀ snapshot ∈ delivered, Covered (lastSnapshot chain).quantity snapshot.quantity

theorem lastSnapshot_cases (chain : List OrderSnapshot) :
    chain = [] ∨ lastSnapshot chain ∈ chain := by
  rcases List.eq_nil_or_concat chain with rfl | ⟨front, snapshot, rfl⟩
  · exact Or.inl rfl
  · right
    rw [List.concat_eq_append, lastSnapshot_append]
    simp

variable {config : GridConfig} {orderId : ℕ} {history delivered chain : List OrderSnapshot}
  {feed : GridFeed}

theorem PostsChain.posted (h : PostsChain config orderId delivered chain feed)
    (hgrowing : Growing history) (hhistory : ∀ snapshot ∈ delivered, snapshot ∈ history) :
    (lastSnapshot chain = .start) ∨
      (0 < (lastSnapshot chain).quantity ∧ 0 < (lastSnapshot chain).notional ∧
        lastSnapshot chain ∈ history) := by
  rcases lastSnapshot_cases chain with rfl | hlast
  · exact Or.inl rfl
  · have hmem := hhistory _ (h.subset _ hlast)
    obtain ⟨hquantity, hnotional⟩ := hgrowing.positive _ hmem
    exact Or.inr ⟨hquantity, hnotional, hmem⟩

theorem PostsChain.average (h : PostsChain config orderId delivered chain feed)
    (hgrowing : Growing history) (hhistory : ∀ snapshot ∈ delivered, snapshot ∈ history) :
    (lastSnapshot chain).quantity * feed.store.postedAverage orderId =
        (lastSnapshot chain).notional ∧
      (0 < (lastSnapshot chain).quantity → 0 < feed.store.postedAverage orderId) := by
  unfold GridStore.postedAverage
  rw [h.quantity, h.value]
  rcases h.posted hgrowing hhistory with hstart | ⟨hquantity, hnotional, -⟩
  · rw [hstart]
    simp [OrderSnapshot.start]
  · rw [if_pos hquantity]
    exact ⟨mul_div_cancel₀ _ hquantity.ne', fun _ => div_pos hnotional hquantity⟩

theorem observedTotal_cumulative {event : ExecutionEvent} (hpos : 0 < event.cumulativeQuantity)
    (observed : Amount) : observedTotal event observed = max observed event.cumulativeQuantity := by
  unfold observedTotal
  rw [max_eq_right hpos.le]
  simp only [if_pos (Or.inr hpos : event.isCumulative = true ∨ 0 < event.cumulativeQuantity)]

theorem gridDelta_cumulative {event : ExecutionEvent} (hpos : 0 < event.cumulativeQuantity)
    (havg : 0 < event.cumulativeAveragePrice) (observed posted average : Amount) {delta price : Amount}
    (hdelta : cumulativeDelta posted average event.cumulativeQuantity event.cumulativeAveragePrice =
      .ok (delta, price)) (hpriced : 0 < delta → 0 < price) :
    gridDelta event observed posted average = .ok (delta, price) := by
  unfold gridDelta
  rw [max_eq_right hpos.le]
  simp only [if_pos havg.ne', hdelta]
  by_cases hlarge : 0 < delta
  · simp only [if_pos hlarge, requireExecution, if_pos (And.intro hlarge (hpriced hlarge))]
  · simp only [if_neg hlarge]

theorem PostsChain.covers (h : PostsChain config orderId delivered chain feed)
    (hgrowing : Growing history) (hhistory : ∀ snapshot ∈ delivered, snapshot ∈ history)
    {event : ExecutionEvent} (hpos : 0 < event.cumulativeQuantity)
    (havg : 0 < event.cumulativeAveragePrice)
    (hcovered : Covered (lastSnapshot chain).quantity event.cumulativeQuantity) (fees : Fees) :
    ∃ next, feed.store.projectGrid config orderId event fees = .ok (next, none) ∧
      PostsChain config orderId (delivered ++ [snapshotOf event]) chain
        ⟨next, feed.calls ++ fillCalls feed.store orderId event⟩ := by
  obtain ⟨row, hrow, hrowCovered⟩ := h.row
  have hposted : 0 ≤ (lastSnapshot chain).quantity := by
    rcases h.posted hgrowing hhistory with hstart | hpositive
    · rw [hstart]
      exact le_refl (0 : Amount)
    · exact hpositive.1.le
  have hzero : cumulativeDelta (feed.store.postedQuantity orderId) (feed.store.postedAverage orderId)
      event.cumulativeQuantity event.cumulativeAveragePrice = .ok (0, 0) := by
    unfold cumulativeDelta
    rw [h.quantity, if_neg (not_lt.mpr (le_min hposted hpos.le)),
      if_pos (show _ ≤ _ from hcovered)]
  have hdelta := gridDelta_cumulative hpos havg row.filledQuantity _ _ hzero
    (fun hlarge => absurd hlarge (lt_irrefl _))
  obtain ⟨hcalls, hproject⟩ := @projectGrid_unposted _ config _ _ _ _ _ hrow hdelta (by norm_num) fees
  refine ⟨_, hproject, ?_⟩
  rw [hcalls, List.append_nil]
  have hall : ∀ snapshot ∈ delivered ++ [snapshotOf event],
      Covered (lastSnapshot chain).quantity snapshot.quantity := by
    intro snapshot hsnapshot
    rcases List.mem_append.mp hsnapshot with hbefore | hnew
    · exact h.covered snapshot hbefore
    · rw [List.mem_singleton.mp hnew]
      exact hcovered
  have hsubset : ∀ snapshot ∈ chain, snapshot ∈ delivered ++ [snapshotOf event] :=
    fun snapshot hsnapshot => List.mem_append_left _ (h.subset snapshot hsnapshot)
  split_ifs
  · exact ⟨h.rows, h.row, hsubset, h.calls, h.fills, h.quantity, h.value, hall⟩
  · refine ⟨h.rows, ⟨row.observed event 0, ?_, ?_⟩, hsubset, h.calls, h.fills, h.quantity, h.value,
      hall⟩
    · exact order?_observed hrow event 0
    · show Covered _ (observedTotal event row.filledQuantity)
      rw [observedTotal_cumulative hpos]
      rcases max_cases row.filledQuantity event.cumulativeQuantity with ⟨heq, -⟩ | ⟨heq, -⟩
      · rw [heq]
        exact hrowCovered
      · rw [heq]
        exact hcovered

theorem PostsChain.advances (h : PostsChain config orderId delivered chain feed)
    (hgrowing : Growing history) (hhistory : ∀ snapshot ∈ delivered, snapshot ∈ history)
    {event : ExecutionEvent} (hpos : 0 < event.cumulativeQuantity)
    (havg : 0 < event.cumulativeAveragePrice) (hmem : snapshotOf event ∈ history)
    (hahead : ¬ Covered (lastSnapshot chain).quantity event.cumulativeQuantity) (fees : Fees) :
    ∃ next followUp, feed.store.projectGrid config orderId event fees = .ok (next, followUp) ∧
      PostsChain config orderId (delivered ++ [snapshotOf event]) (chain ++ [snapshotOf event])
        ⟨next, feed.calls ++ fillCalls feed.store orderId event⟩ := by
  obtain ⟨row, hrow, hrowCovered⟩ := h.row
  obtain ⟨haverage, hpriced⟩ := h.average hgrowing hhistory
  have hid : row.id = orderId := by simpa using List.find?_some hrow
  have hgrown : (lastSnapshot chain).quantity +
      quantityTolerance (lastSnapshot chain).quantity event.cumulativeQuantity <
        event.cumulativeQuantity := not_le.mp hahead
  have htolerance : (1 : Amount) / 10 ^ 12 ≤
      quantityTolerance (lastSnapshot chain).quantity event.cumulativeQuantity := le_max_left _ _
  have hdust : (0 : Amount) < 1 / 10 ^ 12 := by norm_num
  have hless : (lastSnapshot chain).quantity < event.cumulativeQuantity := by linarith
  -- the value grows with the quantity, so the increment has a positive price
  obtain ⟨hnonneg, hvalue⟩ : 0 ≤ (lastSnapshot chain).quantity ∧ (lastSnapshot chain).notional <
      event.cumulativeQuantity * event.cumulativeAveragePrice := by
    rcases h.posted hgrowing hhistory with hstart | ⟨hquantity, -, hlast⟩
    · rw [hstart]
      exact ⟨le_refl (0 : Amount), mul_pos hpos havg⟩
    · exact ⟨hquantity.le, hgrowing.notional_lt hlast hmem hless⟩
  have hincrement := cumulativeDelta_ok hnonneg hgrown havg hpriced (haverage ▸ hvalue)
  rw [haverage] at hincrement
  have hpositive : 0 < (event.cumulativeQuantity * event.cumulativeAveragePrice -
      (lastSnapshot chain).notional) / (event.cumulativeQuantity - (lastSnapshot chain).quantity) :=
    div_pos (by linarith) (by linarith)
  have hdelta : gridDelta event row.filledQuantity (feed.store.postedQuantity orderId)
      (feed.store.postedAverage orderId) =
        .ok (event.cumulativeQuantity - (lastSnapshot chain).quantity,
          (event.cumulativeQuantity * event.cumulativeAveragePrice - (lastSnapshot chain).notional) /
            (event.cumulativeQuantity - (lastSnapshot chain).quantity)) := by
    rw [h.quantity]
    exact gridDelta_cumulative hpos havg _ _ _ hincrement fun _ => hpositive
  have hlarge : 1 / 10 ^ 12 < event.cumulativeQuantity - (lastSnapshot chain).quantity := by
    linarith
  have hfresh : row.filledQuantity ≤ max 0 event.cumulativeQuantity + 1 / 10 ^ 12 := by
    rw [max_eq_right hpos.le]
    by_contra hstale
    exact hahead (hrowCovered.mono hnonneg (by linarith [not_le.mp hstale]))
  have hrows : ∀ spec ∈ config.cells, ((feed.store.setOrder orderId fun order =>
      order.observed event ((event.cumulativeQuantity * event.cumulativeAveragePrice -
        (lastSnapshot chain).notional) /
          (event.cumulativeQuantity - (lastSnapshot chain).quantity))).cells spec.index).isSome :=
    h.rows
  obtain ⟨⟨filled, followUp⟩, hfill⟩ :=
    onOrderFilled_accepts hrows row (hdust.trans hlarge) hpositive fees
  obtain ⟨hcalls, hproject⟩ := projectGrid_posts hrow hdelta hfresh hlarge hfill
  obtain ⟨horders, hfills, hkept⟩ := onOrderFilled_frame hfill
  refine ⟨_, followUp, hproject, ?_⟩
  have hposted : postedFills (filled.setOrder orderId fun order =>
      order.processed (observedTotal event row.filledQuantity)) orderId =
        feed.calls ++ fillCalls feed.store orderId event := by
    rw [hcalls, ← h.fills, ← hid]
    exact hfills
  refine ⟨fun spec hspec => hkept spec.index (hrows spec hspec), ?_, ?_, ?_, hposted, ?_, ?_, ?_⟩
  · refine ⟨_, order?_processed ((order?_congr horders orderId).trans
      (order?_observed hrow event _)) _, ?_⟩
    show Covered _ (observedTotal event row.filledQuantity)
    rw [observedTotal_cumulative hpos, lastSnapshot_append]
    rcases max_cases row.filledQuantity event.cumulativeQuantity with ⟨-, hle⟩ | ⟨heq, -⟩
    · exact absurd (hrowCovered.mono hnonneg hle) hahead
    · rw [heq]
      exact covered_self _
  · intro snapshot hsnapshot
    rcases List.mem_append.mp hsnapshot with hbefore | hnew
    · exact List.mem_append_left _ (h.subset snapshot hbefore)
    · exact List.mem_append_right _ hnew
  · rw [hcalls, increments_append, h.calls]
    rfl
  · rw [postedQuantity_eq_sum, hposted, hcalls, List.map_append, List.sum_append, ← h.fills,
      ← postedQuantity_eq_sum, h.quantity, lastSnapshot_append]
    simp [snapshotOf]
  · rw [postedValue_eq_sum, hposted, hcalls, List.map_append, List.sum_append, ← h.fills,
      ← postedValue_eq_sum, h.value, lastSnapshot_append]
    have hne : event.cumulativeQuantity - (lastSnapshot chain).quantity ≠ 0 := by linarith
    simp only [List.map_cons, List.map_nil, List.sum_cons, List.sum_nil, snapshotOf]
    rw [mul_div_cancel₀ _ hne]
    ring
  · intro snapshot hsnapshot
    rw [lastSnapshot_append]
    rcases List.mem_append.mp hsnapshot with hbefore | hnew
    · -- a snapshot that was covered is behind the new one
      refine (covered_self _).mono hpos.le ?_
      by_contra hlater
      exact hahead ((h.covered snapshot hbefore).mono hnonneg (not_le.mp hlater).le)
    · rw [List.mem_singleton.mp hnew]
      exact covered_self _

/-! ## Whole runs -/

theorem PostsChain.deliver (h : PostsChain config orderId delivered chain feed)
    (hgrowing : Growing history) (delivery : GridDelivery)
    (hhistory : ∀ snapshot ∈ delivered ++ deliveredSnapshots [delivery], snapshot ∈ history) :
    ∃ longer, PostsChain config orderId (delivered ++ deliveredSnapshots [delivery]) longer
      (feed.deliver config orderId delivery) := by
  unfold GridFeed.deliver
  have hbefore : ∀ snapshot ∈ delivered, snapshot ∈ history :=
    fun snapshot hsnapshot => hhistory snapshot (List.mem_append_left _ hsnapshot)
  cases hcomplete : completeSnapshot delivery.event delivery.rest with
  | error e =>
    have hnone : deliveredSnapshots [delivery] = [] := by
      simp [deliveredSnapshots, hcomplete, Except.toOption]
    rw [hnone, List.append_nil]
    exact ⟨chain, h⟩
  | ok event =>
    have hone : deliveredSnapshots [delivery] = [snapshotOf event] := by
      simp [deliveredSnapshots, hcomplete, Except.toOption]
    rw [hone] at hhistory ⊢
    obtain ⟨hpos, havg⟩ := completeSnapshot_ok hcomplete
    have hmem : snapshotOf event ∈ history :=
      hhistory _ (List.mem_append_right _ (List.mem_singleton_self _))
    by_cases hcovered : Covered (lastSnapshot chain).quantity event.cumulativeQuantity
    · obtain ⟨next, hproject, hnext⟩ :=
        h.covers hgrowing hbefore hpos havg hcovered delivery.fees
      simp only [hproject]
      exact ⟨chain, hnext⟩
    · obtain ⟨next, followUp, hproject, hnext⟩ :=
        h.advances hgrowing hbefore hpos havg hmem hcovered delivery.fees
      simp only [hproject]
      exact ⟨_, hnext⟩

theorem PostsChain.deliverAll (h : PostsChain config orderId delivered chain feed)
    (hgrowing : Growing history) (deliveries : List GridDelivery)
    (hhistory : ∀ snapshot ∈ delivered ++ deliveredSnapshots deliveries, snapshot ∈ history) :
    ∃ longer, PostsChain config orderId (delivered ++ deliveredSnapshots deliveries) longer
      (feed.deliverAll config orderId deliveries) := by
  induction deliveries generalizing delivered chain feed with
  | nil => exact ⟨chain, by simpa [deliveredSnapshots, GridFeed.deliverAll] using h⟩
  | cons delivery deliveries ih =>
    have hsplit : delivered ++ deliveredSnapshots (delivery :: deliveries) =
        (delivered ++ deliveredSnapshots [delivery]) ++ deliveredSnapshots deliveries := by
      rw [List.append_assoc]
      unfold deliveredSnapshots
      rw [← List.filterMap_append]
      rfl
    rw [hsplit] at hhistory ⊢
    obtain ⟨longer, hfirst⟩ := h.deliver hgrowing delivery
      fun snapshot hsnapshot => hhistory snapshot (List.mem_append_left _ hsnapshot)
    exact ih hfirst hhistory

theorem FreshOrder.postsChain {store : GridStore} (h : FreshOrder config store orderId) :
    PostsChain config orderId [] [] { store := store } := by
  obtain ⟨row, hrow, hfilled⟩ := h.row
  refine ⟨h.rows, ⟨row, hrow, ?_⟩, ?_, rfl, h.unposted, ?_, ?_, ?_⟩
  · rw [hfilled]
    exact covered_self _
  · exact fun _ hsnapshot => nomatch hsnapshot
  · rw [postedQuantity_eq_sum, h.unposted]
    rfl
  · rw [postedValue_eq_sum, h.unposted]
    rfl
  · exact fun _ hsnapshot => nomatch hsnapshot

/-! ## Final orders -/

theorem projectedStatus_closed (status : String) {row : GridOrderStatus} (total : Amount)
    (h : row = .filled ∨ row = .cancelled) :
    projectedStatus status row total = .filled ∨ projectedStatus status row total = .cancelled := by
  unfold projectedStatus
  split_ifs with hfilled hcancelled hrow hrow'
  · exact Or.inl rfl
  · exact Or.inr rfl
  · exact Or.inl rfl
  · exact Or.inr rfl
  · exact absurd h (not_or.mpr ⟨hrow, hrow'⟩)
  · exact absurd h (not_or.mpr ⟨hrow, hrow'⟩)

theorem OrderClosed.deliver (h : OrderClosed feed.store orderId) (delivery : GridDelivery) :
    OrderClosed (feed.deliver config orderId delivery).store orderId := by
  unfold GridFeed.deliver
  cases hcomplete : completeSnapshot delivery.event delivery.rest with
  | error e => exact h
  | ok event =>
    cases hproject : feed.store.projectGrid config orderId event delivery.fees with
    | error e =>
      simp only [hproject]
      exact h
    | ok result =>
      obtain ⟨next, followUp⟩ := result
      simp only [hproject]
      rcases projectGrid_cases hproject with ⟨rfl, -⟩ | ⟨row, delta, price, hrow, -, -, hcase⟩
      · exact h
      have hclosed := projectedStatus_closed event.orderStatus
        (observedTotal event row.filledQuantity) (h row hrow)
      have hobserved := order?_observed hrow event price
      rcases hcase with ⟨-, -, rfl⟩ | ⟨-, filled, hfill, rfl⟩
      · intro other hother
        obtain rfl := Option.some.inj (hobserved.symm.trans hother)
        exact hclosed
      · have hprocessed := order?_processed ((order?_congr (onOrderFilled_frame hfill).1 orderId).trans
          hobserved) (observedTotal event row.filledQuantity)
        intro other hother
        obtain rfl := Option.some.inj (hprocessed.symm.trans hother)
        exact hclosed

theorem OrderClosed.deliverAll (h : OrderClosed feed.store orderId)
    (deliveries : List GridDelivery) :
    OrderClosed (feed.deliverAll config orderId deliveries).store orderId := by
  induction deliveries generalizing feed with
  | nil => exact h
  | cons delivery deliveries ih => exact ih (h.deliver delivery)

/-! ## The result -/

/-- No two delivered snapshots, and none and the empty one, are within the tolerance of each
other. -/
def Separated (delivered : List OrderSnapshot) : Prop :=
  ∀ before ∈ .start :: delivered, ∀ after ∈ delivered,
    before.quantity < after.quantity → ¬ Covered before.quantity after.quantity

theorem Growing.quantity_inj {history : List OrderSnapshot} (h : Growing history)
    {one other : OrderSnapshot} (hone : one ∈ history) (hother : other ∈ history)
    (heq : one.quantity = other.quantity) : one = other := by
  have hincreasing := h.increasing
  clear h
  induction history with
  | nil => exact nomatch hone
  | cons first rest ih =>
    obtain ⟨hfirst, hrest⟩ := List.pairwise_cons.mp hincreasing
    rcases List.mem_cons.mp hone with rfl | hone'
    · rcases List.mem_cons.mp hother with rfl | hother'
      · rfl
      · exact absurd heq (hfirst other hother').1.ne
    · rcases List.mem_cons.mp hother with rfl | hother'
      · exact absurd heq (hfirst one hone').1.ne'
      · exact ih hone' hother' hrest

theorem PostsChain.largest (h : PostsChain config orderId delivered chain feed)
    (hgrowing : Growing history) (hhistory : ∀ snapshot ∈ delivered, snapshot ∈ history)
    (hseparated : Separated delivered) {largest : OrderSnapshot} (hmem : largest ∈ delivered)
    (hlargest : ∀ snapshot ∈ delivered, snapshot.quantity ≤ largest.quantity) :
    lastSnapshot chain = largest := by
  have hpositive := (hgrowing.positive largest (hhistory largest hmem)).1
  have hlast : lastSnapshot chain ∈ .start :: delivered := by
    rcases lastSnapshot_cases chain with rfl | hlast
    · exact List.mem_cons_self
    · exact List.mem_cons_of_mem _ (h.subset _ hlast)
  have hreached : largest.quantity ≤ (lastSnapshot chain).quantity := by
    by_contra hbehind
    exact hseparated _ hlast largest hmem (not_le.mp hbehind) (h.covered largest hmem)
  rcases List.mem_cons.mp hlast with hstart | hdelivered
  · rw [hstart] at hreached
    exact absurd (hpositive.trans_le hreached) (lt_irrefl _)
  · exact hgrowing.quantity_inj (hhistory _ hdelivered) (hhistory _ hmem)
      (le_antisymm (hlargest _ hdelivered) hreached)

/-- Whatever snapshots of an order are delivered, and in whatever order and number: the posted
fills are the increments of a chain of delivered snapshots and what `on_order_filled` was called
with, quantity and value are those of its last one, no delivered snapshot is ahead of it by more
than the tolerance, and it is the largest one unless two of them are within the tolerance. A
final order stays final. -/
theorem grid_fills_posted_once (config : GridConfig) (orderId : ℕ) (history : List OrderSnapshot)
    (hgrowing : Growing history) (store : GridStore) (hfresh : FreshOrder config store orderId)
    (deliveries : List GridDelivery)
    (hhistory : ∀ snapshot ∈ deliveredSnapshots deliveries, snapshot ∈ history) :
    (∃ chain : List OrderSnapshot,
      (∀ snapshot ∈ chain, snapshot ∈ deliveredSnapshots deliveries) ∧
      (GridFeed.deliverAll config orderId { store := store } deliveries).calls =
        increments .start chain ∧
      postedFills (GridFeed.deliverAll config orderId { store := store } deliveries).store orderId =
        (GridFeed.deliverAll config orderId { store := store } deliveries).calls ∧
      (GridFeed.deliverAll config orderId { store := store } deliveries).store.postedQuantity
        orderId = (lastSnapshot chain).quantity ∧
      (GridFeed.deliverAll config orderId { store := store } deliveries).store.postedValue
        orderId = (lastSnapshot chain).notional ∧
      (∀ snapshot ∈ deliveredSnapshots deliveries,
        Covered (lastSnapshot chain).quantity snapshot.quantity) ∧
      (Separated (deliveredSnapshots deliveries) → ∀ largest ∈ deliveredSnapshots deliveries,
        (∀ snapshot ∈ deliveredSnapshots deliveries, snapshot.quantity ≤ largest.quantity) →
        lastSnapshot chain = largest)) ∧
    ∀ more : List GridDelivery,
      OrderClosed (GridFeed.deliverAll config orderId { store := store } deliveries).store orderId →
      OrderClosed (GridFeed.deliverAll config orderId { store := store }
        (deliveries ++ more)).store orderId := by
  refine ⟨?_, ?_⟩
  · obtain ⟨chain, hchain⟩ := hfresh.postsChain.deliverAll hgrowing deliveries hhistory
    exact ⟨chain, hchain.subset, hchain.calls, hchain.fills, hchain.quantity, hchain.value,
      hchain.covered, fun hseparated _ hmem hlargest =>
        hchain.largest hgrowing hhistory hseparated hmem hlargest⟩
  · intro more hclosed
    unfold GridFeed.deliverAll at *
    rw [List.foldl_append]
    exact OrderClosed.deliverAll hclosed more

/-! ## One order -/

private def oneOrderStore : GridStore where
  cells := fun index => if index = 0 then some { lowerPrice := 90, upperPrice := 110 } else none
  orders := [{ id := 1, cellIndex := 0, purpose := .longEntry, price := 90, quantity := 2 }]

private def oneOrderConfig : GridConfig where
  cells := [⟨0, 90, 110⟩]

private theorem oneOrderStore_fresh : FreshOrder oneOrderConfig oneOrderStore 1 := by
  refine ⟨?_, ⟨_, rfl, rfl⟩, rfl⟩
  intro spec hspec
  obtain rfl := List.mem_singleton.mp hspec
  rfl

private def snapshotEvent (quantity average : Amount) : ExecutionEvent where
  cumulativeQuantity := quantity
  cumulativeAveragePrice := average

/-- The last of two snapshots comes first, with its value from REST, and then each of them. -/
theorem late_snapshot_posts_nothing :
    (GridFeed.deliverAll oneOrderConfig 1 { store := oneOrderStore }
      [{ event := { cumulativeQuantity := 2 }, rest := some ⟨2, 89, "filled"⟩ },
        { event := snapshotEvent 1 90 }, { event := snapshotEvent 2 89 }]).store.postedValue 1 =
      178 := by
  obtain ⟨⟨chain, -, -, -, -, hvalue, -, hlargest⟩, -⟩ := grid_fills_posted_once oneOrderConfig 1
    [⟨1, 90⟩, ⟨2, 178⟩] ⟨by decide +kernel, by decide +kernel⟩ oneOrderStore oneOrderStore_fresh
    [{ event := { cumulativeQuantity := 2 }, rest := some ⟨2, 89, "filled"⟩ },
      { event := snapshotEvent 1 90 }, { event := snapshotEvent 2 89 }] (by decide +kernel)
  have hseparated : Separated (deliveredSnapshots
      [{ event := { cumulativeQuantity := 2 }, rest := some ⟨2, 89, "filled"⟩ },
        { event := snapshotEvent 1 90 }, { event := snapshotEvent 2 89 }]) := by
    unfold Separated Covered quantityTolerance
    decide +kernel
  rw [hvalue, hlargest hseparated ⟨2, 178⟩ (by decide +kernel) (by decide +kernel)]

/-- A growth of half the tolerance is never posted. -/
theorem growth_within_tolerance_unposted : ¬ ∀ (config : GridConfig) (orderId : ℕ)
    (history : List OrderSnapshot) (store : GridStore) (deliveries : List GridDelivery),
    Growing history → FreshOrder config store orderId →
    (∀ snapshot ∈ deliveredSnapshots deliveries, snapshot ∈ history) →
    ∀ largest ∈ deliveredSnapshots deliveries,
      (∀ snapshot ∈ deliveredSnapshots deliveries, snapshot.quantity ≤ largest.quantity) →
      (GridFeed.deliverAll config orderId { store := store } deliveries).store.postedQuantity
        orderId = largest.quantity := by
  intro hclaim
  have hposted := hclaim oneOrderConfig 1 [⟨1, 90⟩, ⟨1 + 1 / (2 * 10 ^ 12), 90 + 90 / (2 * 10 ^ 12)⟩]
    oneOrderStore [{ event := snapshotEvent 1 90 },
      { event := snapshotEvent (1 + 1 / (2 * 10 ^ 12)) 90 }]
    ⟨by decide +kernel, by decide +kernel⟩ oneOrderStore_fresh (by decide +kernel)
    ⟨1 + 1 / (2 * 10 ^ 12), 90 + 90 / (2 * 10 ^ 12)⟩ (by decide +kernel) (by decide +kernel)
  revert hposted
  decide +kernel

end QuantDinger.Analysis
