import QuantDinger.Library.Runs
import QuantDinger.Model.VirtualTrading

/-!
# The books of a virtual account

Every transaction on the account defers an order, fills one that has no virtual order or an open
one, cancels rows that were read, marks positions, or changes nothing. From these cases: an order
that is no longer open is never filled, so each pending order has at most one trade and none after
its cancellation; and the realised profit is always what the trades have paid in and out, plus the
open positions at cost, less the commissions.
-/

namespace QuantDinger.Analysis

open QuantDinger.Library
open QuantDinger.Model
open QuantDinger.Model.Live

/-! ## Transactions -/

/-- A pending order can be filled: it has no virtual order, or an open one. -/
def Fillable (store : VirtualStore) (pendingOrderId : ℕ) : Prop :=
  ∀ existing, store.orderOf pendingOrderId = some existing → existing.status = .opened

/-- What a transaction does to the rows. -/
inductive VirtualEffect (store : VirtualStore) : VirtualStore → Prop
  | none : VirtualEffect store store
  | read (runId : ℕ) : VirtualEffect store (store.readOpenOrders runId)
  | defer (request : VirtualRequest) (action : SignalType)
      (h : store.orderOf request.orderId = Option.none) :
      VirtualEffect store (store.deferOrder request action).1
  | fill (request : VirtualRequest) (action : SignalType) (price : Amount)
      (h : Fillable store request.orderId) : VirtualEffect store (store.fillOrder request action price).1
  | cancel (row : VirtualOrder) (h : row ∈ store.reads) : VirtualEffect store (store.cancelVirtualOrder row)
  | mark (prices : List (String × Amount)) (runId : ℕ) :
      VirtualEffect store (store.markVirtualPositions prices runId)

theorem effect_execute {store next : VirtualStore} {request : VirtualRequest} {marketOpen : Bool}
    {result : VirtualResult}
    (h : store.executeVirtualSignalOrder request marketOpen = .ok (next, result)) :
    VirtualEffect store next := by
  unfold VirtualStore.executeVirtualSignalOrder at h
  by_cases hmode : lower (strip (textOrElse request.executionMode request.payloadMode)) ≠ "signal" ∨
      lower (strip (textOrElse request.payloadMode "signal")) ≠ "signal"
  · rw [if_pos hmode] at h
    exact nomatch h
  rw [if_neg hmode] at h
  by_cases hid : request.orderId = 0 ∨ request.strategyId = 0 ∨ request.userId = 0
  · rw [if_pos hid] at h
    exact nomatch h
  rw [if_neg hid] at h
  cases haction : request.action with
  | none =>
    simp only [haction] at h
    exact nomatch h
  | some action =>
    simp only [haction] at h
    by_cases hstrategy : store.strategy.id ≠ request.strategyId ∨
        store.strategy.userId ≠ request.userId
    · rw [if_pos hstrategy] at h
      exact nomatch h
    rw [if_neg hstrategy] at h
    by_cases hlive : lower (strip (textOrElse store.strategy.executionMode "signal")) ≠ "signal"
    · rw [if_pos hlive] at h
      exact nomatch h
    rw [if_neg hlive] at h
    cases hexisting : store.orderOf request.orderId with
    | some existing =>
      simp only [hexisting] at h
      by_cases hresumes : request.Resumes marketOpen existing
      · rw [if_pos hresumes] at h
        have hnext : _ = next := congrArg Prod.fst (Except.ok.inj h)
        rw [← hnext]
        refine VirtualEffect.fill request action _ ?_
        intro other hother
        rw [hexisting] at hother
        cases hother
        exact hresumes.2.2
      · rw [if_neg hresumes] at h
        have hnext : _ = next := congrArg Prod.fst (Except.ok.inj h)
        rw [← hnext]
        exact VirtualEffect.none
    | none =>
      simp only [hexisting] at h
      cases hprice : request.priceNow action marketOpen with
      | none =>
        simp only [hprice] at h
        have hnext : _ = next := congrArg Prod.fst (Except.ok.inj h)
        rw [← hnext]
        exact VirtualEffect.defer request action hexisting
      | some price =>
        simp only [hprice] at h
        have hnext : _ = next := congrArg Prod.fst (Except.ok.inj h)
        rw [← hnext]
        refine VirtualEffect.fill request action price ?_
        intro other hother
        rw [hexisting] at hother
        exact nomatch hother

theorem effect_matchRow {store next : VirtualStore} {row : VirtualOrder} {context : MatchContext}
    (hread : row ∈ store.reads) (h : store.matchVirtualOrder row context = .ok next) :
    VirtualEffect store next := by
  unfold VirtualStore.matchVirtualOrder at h
  by_cases hcancel : context.cancelRequested = true
  · rw [if_pos hcancel] at h
    cases h
    exact VirtualEffect.cancel row hread
  rw [if_neg hcancel] at h
  by_cases hclosed : context.marketOpen = false
  · rw [if_pos hclosed] at h
    cases h
    exact VirtualEffect.none
  rw [if_neg hclosed] at h
  cases hprice : row.matchPrice
      (((normalizedPrices context.prices).get? (canonicalSymbol row.symbol)).getD 0) with
  | none =>
    simp only [hprice] at h
    cases h
    exact VirtualEffect.none
  | some fillPrice =>
    simp only [hprice] at h
    cases hexecute : store.executeVirtualSignalOrder (row.matchRequest store.strategy context.policy
        context.sizingCapital (((normalizedPrices context.prices).get?
          (canonicalSymbol row.symbol)).getD 0) fillPrice) context.marketOpen with
    | error e =>
      rw [hexecute] at h
      exact nomatch h
    | ok pair =>
      rw [hexecute] at h
      have hnext : pair.1 = next := Except.ok.inj h
      rw [← hnext]
      exact effect_execute hexecute

theorem effect_call (store : VirtualStore) (call : VirtualCall) : VirtualEffect store (store.call call) := by
  cases call with
  | execute request marketOpen =>
    cases h : store.executeVirtualSignalOrder request marketOpen with
    | error e =>
      simp only [VirtualStore.call, h]
      exact VirtualEffect.none
    | ok pair =>
      simp only [VirtualStore.call, h]
      exact effect_execute h
  | settle pendingOrderId marketOpen =>
    cases h : store.settleVirtualPendingOrder pendingOrderId marketOpen with
    | error e =>
      simp only [VirtualStore.call, h]
      exact VirtualEffect.none
    | ok pair =>
      simp only [VirtualStore.call, h]
      unfold VirtualStore.settleVirtualPendingOrder at h
      by_cases hid : pendingOrderId = 0
      · rw [if_pos hid] at h
        exact nomatch h
      rw [if_neg hid] at h
      cases hpending : store.pending pendingOrderId with
      | none =>
        simp only [hpending] at h
        exact nomatch h
      | some row =>
        simp only [hpending] at h
        exact effect_execute h
  | readOpen runId => exact VirtualEffect.read runId
  | matchRow row context =>
    simp only [VirtualStore.call]
    by_cases hread : row ∈ store.reads
    · rw [if_pos hread]
      cases h : store.matchVirtualOrder row context with
      | error e => exact VirtualEffect.none
      | ok next => exact effect_matchRow hread h
    · rw [if_neg hread]
      exact VirtualEffect.none
  | cancelRow row =>
    simp only [VirtualStore.call]
    by_cases hread : row ∈ store.reads
    · rw [if_pos hread]
      exact VirtualEffect.cancel row hread
    · rw [if_neg hread]
      exact VirtualEffect.none
  | mark prices runId => exact VirtualEffect.mark prices runId

/-! ## Orders -/

/-- A pending order has a virtual order that is no longer open. -/
def NoLongerOpen (store : VirtualStore) (pendingOrderId : ℕ) : Prop :=
  ∃ order ∈ store.orders, order.pendingOrderId = pendingOrderId ∧ order.status ≠ .opened

def tradesOf (store : VirtualStore) (pendingOrderId : ℕ) : List VirtualTrade :=
  store.trades.filter fun trade => trade.pendingOrderId = pendingOrderId

/-- INTERNAL: the order rows, the trades and the rows that were read fit together. -/
structure OrdersSound (store : VirtualStore) : Prop where
  unique : (store.orders.map VirtualOrder.pendingOrderId).Nodup
  once : (store.trades.map VirtualTrade.pendingOrderId).Nodup
  traded : ∀ trade ∈ store.trades, NoLongerOpen store trade.pendingOrderId
  reads : ∀ row ∈ store.reads, ∃ order ∈ store.orders,
    order.id = row.id ∧ order.pendingOrderId = row.pendingOrderId

theorem orderOf_some {store : VirtualStore} {pendingOrderId : ℕ} {order : VirtualOrder}
    (h : store.orderOf pendingOrderId = some order) :
    order ∈ store.orders ∧ order.pendingOrderId = pendingOrderId :=
  ⟨List.mem_of_find?_eq_some h, by simpa using List.find?_some h⟩

theorem orderOf_none {store : VirtualStore} {pendingOrderId : ℕ}
    (h : store.orderOf pendingOrderId = none) {order : VirtualOrder} (hmem : order ∈ store.orders) :
    order.pendingOrderId ≠ pendingOrderId := by
  simpa using List.find?_eq_none.mp h order hmem

theorem eq_of_pendingOrderId {orders : List VirtualOrder}
    (h : (orders.map VirtualOrder.pendingOrderId).Nodup) {order other : VirtualOrder}
    (hmem : order ∈ orders) (hother : other ∈ orders)
    (hsame : order.pendingOrderId = other.pendingOrderId) : order = other :=
  List.inj_on_of_nodup_map h hmem hother hsame

theorem not_settled_of_fillable {store : VirtualStore} (h : OrdersSound store) {pendingOrderId : ℕ}
    (hfill : Fillable store pendingOrderId) : ¬ NoLongerOpen store pendingOrderId := by
  rintro ⟨order, hmem, hpending, hstatus⟩
  cases hexisting : store.orderOf pendingOrderId with
  | none => exact orderOf_none hexisting hmem hpending
  | some existing =>
    obtain ⟨hmem', hpending'⟩ := orderOf_some hexisting
    have hsame := eq_of_pendingOrderId h.unique hmem hmem' (hpending.trans hpending'.symm)
    exact hstatus (hsame ▸ hfill existing hexisting)

theorem calculateVirtualFill_status (action : SignalType) (requested price size entry : Amount) :
    (calculateVirtualFill action requested price size entry).status ≠ .opened := by
  unfold calculateVirtualFill
  by_cases hopens : action.opens = true
  · simp only [if_pos hopens]
    split_ifs
    · exact VirtualStatus.noConfusion
    · exact VirtualStatus.noConfusion
  · simp only [if_neg hopens]
    split_ifs
    · exact VirtualStatus.noConfusion
    · exact VirtualStatus.noConfusion
    · exact VirtualStatus.noConfusion

/-- INTERNAL: between two lists of order rows, rows are appended and open ones change. -/
structure OrdersGrow (orders next : List VirtualOrder) : Prop where
  kept : ∀ order ∈ orders, ∃ later ∈ next, later.id = order.id ∧
    later.pendingOrderId = order.pendingOrderId ∧
    (order.status ≠ .opened → later.status ≠ .opened)

theorem OrdersGrow.settled {store next : VirtualStore} (h : OrdersGrow store.orders next.orders)
    {pendingOrderId : ℕ} (hsettled : NoLongerOpen store pendingOrderId) :
    NoLongerOpen next pendingOrderId := by
  obtain ⟨order, hmem, hpending, hstatus⟩ := hsettled
  obtain ⟨later, hlater, -, hsame, hclosed⟩ := h.kept order hmem
  exact ⟨later, hlater, hsame.trans hpending, hclosed hstatus⟩

theorem ordersGrow_map {orders : List VirtualOrder} {f : VirtualOrder → VirtualOrder}
    (h : ∀ order, (f order).id = order.id ∧ (f order).pendingOrderId = order.pendingOrderId ∧
      (order.status ≠ .opened → (f order).status ≠ .opened)) :
    OrdersGrow orders (orders.map f) :=
  ⟨fun order hmem => ⟨f order, List.mem_map_of_mem hmem, h order⟩⟩

theorem ordersGrow_append (orders more : List VirtualOrder) : OrdersGrow orders (orders ++ more) :=
  ⟨fun order hmem => ⟨order, List.mem_append_left _ hmem, rfl, rfl, id⟩⟩

/-! ## The rows of a fill -/

section Fill

variable (store : VirtualStore) (request : VirtualRequest) (action : SignalType) (price : Amount)

def fillCommission : Amount :=
  request.policy.commissionFor (store.transition request action price).fillQuantity price

def ordersFilled : List VirtualOrder × ℕ :=
  store.fillOrders request action price (fillCommission store request action price)
    (slippageQuoteFor (store.transition request action price).fillQuantity request.referencePrice
      price) (store.transition request action price)

def accountFilled : VirtualAccount :=
  let account := store.accountOr (initialCash store.strategy request)
  let nextRealized := account.realizedPnl +
    (store.transition request action price).grossRealizedPnl -
      fillCommission store request action price
  { account with
    cashBalance := account.initialCash + nextRealized
    realizedPnl := nextRealized
    totalCommission := account.totalCommission + fillCommission store request action price }

theorem fillOrder_orders :
    (store.fillOrder request action price).1.orders = (ordersFilled store request action price).1 := by
  unfold VirtualStore.fillOrder ordersFilled fillCommission
  dsimp only
  split_ifs
  · rfl
  · rfl

theorem fillOrder_reads : (store.fillOrder request action price).1.reads = store.reads := by
  unfold VirtualStore.fillOrder
  dsimp only
  split_ifs
  · rfl
  · rfl

theorem fillOrder_positions :
    (store.fillOrder request action price).1.positions =
      store.fillPosition request action.side price (store.transition request action price) := by
  unfold VirtualStore.fillOrder
  dsimp only
  split_ifs
  · rfl
  · rfl

theorem fillOrder_account :
    (store.fillOrder request action price).1.account =
      some (accountFilled store request action price) := by
  unfold VirtualStore.fillOrder accountFilled fillCommission
  dsimp only
  split_ifs
  · rfl
  · rfl

theorem fillOrder_trades :
    ∃ (id : ℕ) (entry equity : Amount), (store.fillOrder request action price).1.trades =
      if (store.transition request action price).status = .filled then
        store.trades ++ [request.trade action id price (fillCommission store request action price)
          entry equity (store.transition request action price)]
      else store.trades := by
  unfold VirtualStore.fillOrder
  dsimp only
  by_cases hfilled : (store.transition request action price).status = .filled
  · simp only [if_pos hfilled]
    exact ⟨_, _, _, rfl⟩
  · refine ⟨0, 0, 0, ?_⟩
    simp only [if_neg hfilled]

variable {store request}

theorem ordersFilled_grow (hfill : Fillable store request.orderId) :
    OrdersGrow store.orders (ordersFilled store request action price).1 ∧
      (∃ order ∈ (ordersFilled store request action price).1,
        order.pendingOrderId = request.orderId ∧ order.status ≠ .opened) ∧
      ((store.orders.map VirtualOrder.pendingOrderId).Nodup →
        ((ordersFilled store request action price).1.map VirtualOrder.pendingOrderId).Nodup) := by
  have hstatus : (store.transition request action price).status ≠ .opened :=
    calculateVirtualFill_status _ _ _ _ _
  unfold ordersFilled VirtualStore.fillOrders
  cases hexisting : store.orderOf request.orderId with
  | some existing =>
    obtain ⟨hmem, hpending⟩ := orderOf_some hexisting
    have hopen := hfill existing hexisting
    refine ⟨ordersGrow_map ?_, ⟨_, List.mem_map_of_mem hmem, ?_⟩, ?_⟩
    · intro order
      split_ifs with h
      · exact ⟨rfl, rfl, fun _ => hstatus⟩
      · exact ⟨rfl, rfl, id⟩
    · rw [if_pos ⟨rfl, hopen⟩]
      exact ⟨hpending, hstatus⟩
    · intro hunique
      rw [List.map_map]
      convert hunique using 1
      apply List.map_congr_left
      intro order _
      simp only [Function.comp_apply]
      split_ifs
      · rfl
      · rfl
  | none =>
    refine ⟨ordersGrow_append _ _, ⟨_, List.mem_append_right _ (List.mem_singleton_self _), rfl,
      hstatus⟩, ?_⟩
    intro hunique
    rw [List.map_append, List.nodup_append]
    refine ⟨hunique, List.nodup_singleton _, ?_⟩
    intro id hid other hother
    obtain ⟨order, hmem, rfl⟩ := List.mem_map.mp hid
    rw [List.map_singleton, List.mem_singleton] at hother
    rw [hother]
    exact orderOf_none hexisting hmem

end Fill

/-! ## One trade at most -/

/-- INTERNAL: what a transaction leaves of the order rows and the trades. -/
structure KeepsOrders (store next : VirtualStore) : Prop where
  sound : OrdersSound next
  grow : OrdersGrow store.orders next.orders
  trades : ∀ pendingOrderId, NoLongerOpen store pendingOrderId →
    tradesOf next pendingOrderId = tradesOf store pendingOrderId

theorem KeepsOrders.ofGrow {store next : VirtualStore} (h : OrdersSound store)
    (hgrow : OrdersGrow store.orders next.orders) (htrades : next.trades = store.trades)
    (hunique : (next.orders.map VirtualOrder.pendingOrderId).Nodup)
    (hreads : ∀ row ∈ next.reads, ∃ order ∈ next.orders,
      order.id = row.id ∧ order.pendingOrderId = row.pendingOrderId) :
    KeepsOrders store next := by
  refine ⟨⟨hunique, ?_, ?_, hreads⟩, hgrow, ?_⟩
  · rw [htrades]
    exact h.once
  · intro trade hmem
    rw [htrades] at hmem
    exact hgrow.settled (h.traded trade hmem)
  · intro pendingOrderId _
    unfold tradesOf
    rw [htrades]

theorem OrdersGrow.reads {store next : VirtualStore} (h : OrdersSound store)
    (hgrow : OrdersGrow store.orders next.orders) {row : VirtualOrder} (hmem : row ∈ store.reads) :
    ∃ order ∈ next.orders, order.id = row.id ∧ order.pendingOrderId = row.pendingOrderId := by
  obtain ⟨order, horder, hid, hpending⟩ := h.reads row hmem
  obtain ⟨later, hlater, hid', hpending', -⟩ := hgrow.kept order horder
  exact ⟨later, hlater, hid'.trans hid, hpending'.trans hpending⟩

theorem OrdersGrow.refl (orders : List VirtualOrder) : OrdersGrow orders orders :=
  ⟨fun order hmem => ⟨order, hmem, rfl, rfl, id⟩⟩

theorem cancelVirtualOrder_orders (store : VirtualStore) (row : VirtualOrder) :
    (store.cancelVirtualOrder row).orders = store.orders.map fun order =>
      if order.id = row.id ∧ order.status = .opened then { order with status := .cancelled }
      else order := by
  unfold VirtualStore.cancelVirtualOrder
  dsimp only
  split
  · split_ifs
    · rfl
    · rfl
  · rfl

theorem cancelVirtualOrder_frame (store : VirtualStore) (row : VirtualOrder) :
    (store.cancelVirtualOrder row).trades = store.trades ∧
      (store.cancelVirtualOrder row).reads = store.reads ∧
      (store.cancelVirtualOrder row).positions = store.positions ∧
      (store.cancelVirtualOrder row).account = store.account := by
  unfold VirtualStore.cancelVirtualOrder
  dsimp only
  split
  · split_ifs
    · exact ⟨rfl, rfl, rfl, rfl⟩
    · exact ⟨rfl, rfl, rfl, rfl⟩
  · exact ⟨rfl, rfl, rfl, rfl⟩

theorem cancelVirtualOrder_grow (store : VirtualStore) (row : VirtualOrder) :
    OrdersGrow store.orders (store.cancelVirtualOrder row).orders := by
  rw [cancelVirtualOrder_orders]
  apply ordersGrow_map
  intro order
  split_ifs with h
  · exact ⟨rfl, rfl, fun _ => VirtualStatus.noConfusion⟩
  · exact ⟨rfl, rfl, id⟩

theorem cancelVirtualOrder_closes {store : VirtualStore} (h : OrdersSound store)
    {row : VirtualOrder} (hread : row ∈ store.reads) :
    NoLongerOpen (store.cancelVirtualOrder row) row.pendingOrderId := by
  obtain ⟨order, hmem, hid, hpending⟩ := h.reads row hread
  unfold NoLongerOpen
  rw [cancelVirtualOrder_orders]
  refine ⟨_, List.mem_map_of_mem hmem, ?_⟩
  split_ifs with hopen
  · exact ⟨hpending, VirtualStatus.noConfusion⟩
  · exact ⟨hpending, fun hstatus => hopen ⟨hid, hstatus⟩⟩

theorem keepsOrders_cancel {store : VirtualStore} (h : OrdersSound store) (row : VirtualOrder) :
    KeepsOrders store (store.cancelVirtualOrder row) := by
  obtain ⟨htrades, hreads, -, -⟩ := cancelVirtualOrder_frame store row
  have hgrow := cancelVirtualOrder_grow store row
  apply KeepsOrders.ofGrow h hgrow htrades
  · rw [cancelVirtualOrder_orders, List.map_map]
    convert h.unique using 1
    apply List.map_congr_left
    intro order _
    simp only [Function.comp_apply]
    split_ifs
    · rfl
    · rfl
  · intro other hmem
    rw [hreads] at hmem
    exact hgrow.reads h hmem

theorem keepsOrders_read {store : VirtualStore} (h : OrdersSound store) (runId : ℕ) :
    KeepsOrders store (store.readOpenOrders runId) := by
  refine KeepsOrders.ofGrow h (OrdersGrow.refl store.orders) rfl h.unique ?_
  intro row hmem
  rcases List.mem_append.mp hmem with hbefore | hrow
  · exact h.reads row hbefore
  · exact ⟨row, (List.mem_filter.mp hrow).1, rfl, rfl⟩

theorem keepsOrders_defer {store : VirtualStore} (h : OrdersSound store) (request : VirtualRequest)
    (action : SignalType) (hnone : store.orderOf request.orderId = none) :
    KeepsOrders store (store.deferOrder request action).1 := by
  have hgrow : OrdersGrow store.orders (store.deferOrder request action).1.orders :=
    ordersGrow_append store.orders [request.openOrder action (store.orders.length + 1)]
  refine KeepsOrders.ofGrow h hgrow rfl ?_ ?_
  · show ((store.orders ++ [request.openOrder action (store.orders.length + 1)]).map
      VirtualOrder.pendingOrderId).Nodup
    rw [List.map_append, List.nodup_append]
    refine ⟨h.unique, List.nodup_singleton _, ?_⟩
    intro id hid other hother
    obtain ⟨order, hmem, rfl⟩ := List.mem_map.mp hid
    rw [List.map_singleton, List.mem_singleton] at hother
    rw [hother]
    exact orderOf_none hnone hmem
  · intro row hmem
    exact hgrow.reads h hmem

theorem keepsOrders_fill {store : VirtualStore} (h : OrdersSound store) (request : VirtualRequest)
    (action : SignalType) (price : Amount) (hfill : Fillable store request.orderId) :
    KeepsOrders store (store.fillOrder request action price).1 := by
  obtain ⟨hgrow, ⟨filled, hfilled, hpending, hstatus⟩, hunique⟩ :=
    ordersFilled_grow action price hfill
  rw [← fillOrder_orders] at hgrow hunique hfilled
  have hopen : ¬ NoLongerOpen store request.orderId := not_settled_of_fillable h hfill
  have hclosed : NoLongerOpen (store.fillOrder request action price).1 request.orderId :=
    ⟨filled, hfilled, hpending, hstatus⟩
  have hreads : ∀ row ∈ (store.fillOrder request action price).1.reads,
      ∃ order ∈ (store.fillOrder request action price).1.orders,
        order.id = row.id ∧ order.pendingOrderId = row.pendingOrderId := by
    intro row hmem
    rw [fillOrder_reads] at hmem
    exact hgrow.reads h hmem
  obtain ⟨id, entry, equity, htrades⟩ := fillOrder_trades store request action price
  by_cases hstatus : (store.transition request action price).status = .filled
  · rw [if_pos hstatus] at htrades
    refine ⟨⟨hunique h.unique, ?_, ?_, hreads⟩, hgrow, ?_⟩
    · rw [htrades, List.map_append, List.nodup_append]
      refine ⟨h.once, List.nodup_singleton _, ?_⟩
      intro traded hid other hother hsame
      obtain ⟨trade, hmem, rfl⟩ := List.mem_map.mp hid
      rw [List.map_singleton, List.mem_singleton] at hother
      apply hopen
      have hsettled := h.traded trade hmem
      rw [hsame, hother] at hsettled
      exact hsettled
    · intro trade hmem
      rw [htrades] at hmem
      rcases List.mem_append.mp hmem with hbefore | hnew
      · exact hgrow.settled (h.traded trade hbefore)
      · rw [List.mem_singleton] at hnew
        rw [hnew]
        exact hclosed
    · intro pendingOrderId hsettled
      have hother : request.orderId ≠ pendingOrderId := by
        rintro rfl
        exact hopen hsettled
      unfold tradesOf
      rw [htrades, List.filter_append, List.filter_cons_of_neg, List.filter_nil, List.append_nil]
      simp [VirtualRequest.trade, hother]
  · rw [if_neg hstatus] at htrades
    exact KeepsOrders.ofGrow h hgrow htrades (hunique h.unique) hreads

theorem keepsOrders_call {store : VirtualStore} (h : OrdersSound store) (call : VirtualCall) :
    KeepsOrders store (store.call call) := by
  have heffect := effect_call store call
  generalize store.call call = next at heffect ⊢
  cases heffect with
  | none => exact KeepsOrders.ofGrow h (OrdersGrow.refl _) rfl h.unique h.reads
  | read runId => exact keepsOrders_read h runId
  | defer request action hnone => exact keepsOrders_defer h request action hnone
  | fill request action price hfill => exact keepsOrders_fill h request action price hfill
  | cancel row => exact keepsOrders_cancel h row
  | mark prices runId => exact KeepsOrders.ofGrow h (OrdersGrow.refl _) rfl h.unique h.reads

theorem keepsOrders_run {store : VirtualStore} (h : OrdersSound store) (calls : List VirtualCall) :
    OrdersSound (runActions VirtualStore.call store calls) := by
  induction calls generalizing store with
  | nil => exact h
  | cons call calls ih => exact ih (keepsOrders_call h call).sound

theorem settled_run {store : VirtualStore} (h : OrdersSound store) {pendingOrderId : ℕ}
    (hsettled : NoLongerOpen store pendingOrderId) (calls : List VirtualCall) :
    tradesOf (runActions VirtualStore.call store calls) pendingOrderId =
      tradesOf store pendingOrderId := by
  induction calls generalizing store with
  | nil => rfl
  | cons call calls ih =>
    have hkept := keepsOrders_call h call
    calc tradesOf (runActions VirtualStore.call (store.call call) calls) pendingOrderId
        = tradesOf (store.call call) pendingOrderId :=
          ih hkept.sound (hkept.grow.settled hsettled)
      _ = tradesOf store pendingOrderId := hkept.trades pendingOrderId hsettled

theorem tradesOf_length {store : VirtualStore} (h : OrdersSound store) (pendingOrderId : ℕ) :
    (tradesOf store pendingOrderId).length ≤ 1 := by
  have hcount := List.nodup_iff_count_le_one.mp h.once pendingOrderId
  rw [List.count, List.countP_map, List.countP_eq_length_filter] at hcount
  unfold tradesOf
  convert hcount using 3
  ext trade
  rw [Function.comp_apply, beq_eq_decide]

/-- The transaction cancels the order of a pending order. -/
def Cancels (store : VirtualStore) (call : VirtualCall) (pendingOrderId : ℕ) : Prop :=
  ∃ row ∈ store.reads, row.pendingOrderId = pendingOrderId ∧
    (call = .cancelRow row ∨ ∃ context : MatchContext,
      context.cancelRequested = true ∧ call = .matchRow row context)

theorem call_of_cancels {store : VirtualStore} {call : VirtualCall} {pendingOrderId : ℕ}
    (h : Cancels store call pendingOrderId) : ∃ row ∈ store.reads,
      row.pendingOrderId = pendingOrderId ∧ store.call call = store.cancelVirtualOrder row := by
  obtain ⟨row, hread, hpending, rfl | ⟨context, hcancel, rfl⟩⟩ := h
  · refine ⟨row, hread, hpending, ?_⟩
    simp only [VirtualStore.call]
    rw [if_pos hread]
  · refine ⟨row, hread, hpending, ?_⟩
    simp only [VirtualStore.call]
    rw [if_pos hread]
    unfold VirtualStore.matchVirtualOrder
    rw [if_pos hcancel]

/-! ## The books -/

/-- An amount of a position, short ones counted negative. -/
def signed (side : PositionSide) (amount : Amount) : Amount :=
  match side with
  | .long => amount
  | .short => -amount

/-- What a trade pays in or out, its commission apart. -/
def cashFlow (trade : VirtualTrade) : Amount :=
  if trade.action.buys then -(trade.price * trade.amount) else trade.price * trade.amount

def bookCost (store : VirtualStore) : Amount :=
  store.positions.sumBy fun key position => signed key.2 (position.size * position.entryPrice)

/-- Realised profit and commissions of the account; zero while there is none. -/
def realizedOf (store : VirtualStore) : Amount :=
  (store.account.map VirtualAccount.realizedPnl).getD 0

def commissionOf (store : VirtualStore) : Amount :=
  (store.account.map VirtualAccount.totalCommission).getD 0

/-- INTERNAL: the books agree with the trades. -/
structure Accounted (store : VirtualStore) : Prop where
  cash : ∀ account, store.account = some account →
    account.cashBalance = account.initialCash + account.realizedPnl
  realized : realizedOf store =
    (store.trades.map cashFlow).sum + bookCost store - commissionOf store
  sized : ∀ key position, store.positions.get? key = some position →
    0 ≤ position.size ∧ 0 ≤ position.entryPrice

def sizeLeft (store : VirtualStore) (trade : VirtualTrade) : Amount :=
  let size := ((store.positions.get? (trade.symbolCanonical, trade.action.side)).map
    VirtualPosition.size).getD 0
  if trade.action.opens then size + trade.amount else size - trade.amount

/-- The transaction leaves no position between zero and the dust threshold. -/
def Undusted (store : VirtualStore) (call : VirtualCall) : Prop :=
  ∀ trade ∈ (store.call call).trades.drop store.trades.length,
    sizeLeft store trade = 0 ∨ 1 / 10 ^ 12 < sizeLeft store trade

instance (store : VirtualStore) (call : VirtualCall) : Decidable (Undusted store call) :=
  inferInstanceAs (Decidable (∀ trade ∈ (store.call call).trades.drop store.trades.length,
    sizeLeft store trade = 0 ∨ 1 / 10 ^ 12 < sizeLeft store trade))

theorem cashFlow_eq (trade : VirtualTrade) :
    cashFlow trade = signed trade.action.side
      (if trade.action.opens then -(trade.price * trade.amount)
        else trade.price * trade.amount) := by
  unfold cashFlow
  cases trade.action with
  | openLong => rfl
  | addLong => rfl
  | reduceLong => rfl
  | closeLong => rfl
  | openShort => exact (neg_neg _).symm
  | addShort => exact (neg_neg _).symm
  | reduceShort => rfl
  | closeShort => rfl

theorem signed_add (side : PositionSide) (a b : Amount) :
    signed side (a + b) = signed side a + signed side b := by
  cases side with
  | long => rfl
  | short => exact neg_add a b

theorem signed_sub (side : PositionSide) (a b : Amount) :
    signed side (a - b) = signed side a - signed side b := by
  cases side with
  | long => rfl
  | short =>
    show -(a - b) = -a - -b
    ring

/-- What a fill does to a position of nonnegative size and entry price. -/
structure FillOutcome (action : SignalType) (price size entry : Amount)
    (transition : VirtualFillTransition) : Prop where
  left : transition.nextSize =
    if action.opens then size + transition.fillQuantity else size - transition.fillQuantity
  nonneg : 0 ≤ transition.nextSize ∧ 0 ≤ transition.nextEntryPrice
  gross : transition.grossRealizedPnl =
    signed action.side (if action.opens then -(price * transition.fillQuantity)
      else price * transition.fillQuantity) +
    signed action.side (transition.nextSize * transition.nextEntryPrice) -
    signed action.side (size * entry)

theorem fillOutcome_entry {action : SignalType} {requested price size entry : Amount}
    (hsize : 0 ≤ size) (hentry : 0 ≤ entry) (hopens : action.opens = true)
    (hrequested : 0 < requested) (hprice : 0 < price) :
    FillOutcome action price size entry
      ⟨requested, size + requested, (size * entry + requested * price) / (size + requested), 0,
        .filled⟩ := by
  have hpositive : 0 < size + requested := add_pos_of_nonneg_of_pos hsize hrequested
  have hcost : (size + requested) * ((size * entry + requested * price) / (size + requested)) =
      size * entry + requested * price := mul_div_cancel₀ _ hpositive.ne'
  refine ⟨?_, ⟨hpositive.le, by positivity⟩, ?_⟩
  · rw [if_pos hopens]
  · rw [if_pos hopens]
    dsimp only
    rw [hcost, ← signed_add, ← signed_sub]
    have hzero : -(price * requested) + (size * entry + requested * price) - size * entry = 0 := by
      ring
    rw [hzero]
    cases action.side with
    | long => rfl
    | short => exact neg_zero.symm

theorem fillOutcome_exit {action : SignalType} {quantity price size entry : Amount}
    (hentry : 0 ≤ entry) (hopens : action.opens = false) (hquantity : quantity ≤ size) :
    FillOutcome action price size entry
      ⟨quantity, max 0 (size - quantity), entry,
        match action.side with
        | .short => (entry - price) * quantity
        | .long => (price - entry) * quantity, .filled⟩ := by
  have hleft : max 0 (size - quantity) = size - quantity := max_eq_right (sub_nonneg.mpr hquantity)
  have hcloses : ¬ action.opens = true := by
    rw [hopens]
    exact Bool.false_ne_true
  refine ⟨?_, ⟨le_max_left _ _, hentry⟩, ?_⟩
  · rw [if_neg hcloses]
    exact hleft
  · rw [if_neg hcloses]
    dsimp only
    rw [hleft, ← signed_add, ← signed_sub]
    cases action.side with
    | long =>
      show (price - entry) * quantity = price * quantity + (size - quantity) * entry - size * entry
      ring
    | short =>
      show (entry - price) * quantity =
        -(price * quantity + (size - quantity) * entry - size * entry)
      ring

theorem calculateVirtualFill_outcome (action : SignalType) (requested price : Amount)
    {size entry : Amount} (hsize : 0 ≤ size) (hentry : 0 ≤ entry) :
    ((calculateVirtualFill action requested price size entry).status = .filled ∧
      FillOutcome action price size entry
        (calculateVirtualFill action requested price size entry)) ∨
    ((calculateVirtualFill action requested price size entry).status ≠ .filled ∧
      (calculateVirtualFill action requested price size entry).fillQuantity = 0 ∧
      (calculateVirtualFill action requested price size entry).grossRealizedPnl = 0) := by
  unfold calculateVirtualFill
  dsimp only
  rw [max_eq_right hsize, max_eq_right hentry]
  by_cases hopens : action.opens = true
  · rw [if_pos hopens]
    by_cases hrejected : max 0 requested ≤ 0 ∨ max 0 price ≤ 0
    · rw [if_pos hrejected]
      exact Or.inr ⟨VirtualStatus.noConfusion, rfl, rfl⟩
    rw [if_neg hrejected]
    obtain ⟨hrequested, hprice⟩ := not_or.mp hrejected
    have hpaid : 0 < price := by simpa using hprice
    rw [max_eq_right hpaid.le]
    exact Or.inl ⟨rfl, fillOutcome_entry hsize hentry hopens (not_le.mp hrequested) hpaid⟩
  · rw [if_neg hopens]
    by_cases hnone : size ≤ 0 ∨ max 0 price ≤ 0
    · rw [if_pos hnone]
      exact Or.inr ⟨VirtualStatus.noConfusion, rfl, rfl⟩
    rw [if_neg hnone]
    have hpaid : 0 < price := by simpa using (not_or.mp hnone).2
    rw [max_eq_right hpaid.le]
    refine Or.inl ⟨rfl, fillOutcome_exit hentry (Bool.not_eq_true _ ▸ hopens) ?_⟩
    split_ifs
    · exact le_rfl
    · exact min_le_left _ _

theorem position_nonneg {store : VirtualStore} (h : Accounted store)
    (key : String × PositionSide) :
    0 ≤ ((store.positions.get? key).map VirtualPosition.size).getD 0 ∧
      0 ≤ ((store.positions.get? key).map VirtualPosition.entryPrice).getD 0 := by
  cases hposition : store.positions.get? key with
  | none => exact ⟨le_rfl, le_rfl⟩
  | some position => exact h.sized key position hposition

theorem bookCost_key (store : VirtualStore) (key : String × PositionSide) :
    ((store.positions.get? key).elim 0 fun position =>
      signed key.2 (position.size * position.entryPrice)) =
    signed key.2 (((store.positions.get? key).map VirtualPosition.size).getD 0 *
      ((store.positions.get? key).map VirtualPosition.entryPrice).getD 0) := by
  cases store.positions.get? key with
  | some position => rfl
  | none =>
    show (0 : Amount) = signed key.2 (0 * 0)
    rw [zero_mul]
    cases key.2 with
    | long => rfl
    | short => exact neg_zero.symm

section FillBooks

variable {store : VirtualStore} {request : VirtualRequest} {action : SignalType} {price : Amount}

theorem bookCost_fill
    (hfilled : (store.transition request action price).status = .filled)
    (hdust : (store.transition request action price).nextSize = 0 ∨
      1 / 10 ^ 12 < (store.transition request action price).nextSize) :
    bookCost (store.fillOrder request action price).1 = bookCost store -
      signed action.side
        (((store.positions.get? (canonicalSymbol request.symbol, action.side)).map
          VirtualPosition.size).getD 0 *
        ((store.positions.get? (canonicalSymbol request.symbol, action.side)).map
          VirtualPosition.entryPrice).getD 0) +
      signed action.side ((store.transition request action price).nextSize *
        (store.transition request action price).nextEntryPrice) := by
  have hkey := bookCost_key store (canonicalSymbol request.symbol, action.side)
  unfold bookCost
  rw [fillOrder_positions]
  unfold VirtualStore.fillPosition
  dsimp only
  rw [if_neg (not_not_intro hfilled)]
  by_cases hsmall : (store.transition request action price).nextSize ≤ 1 / 10 ^ 12
  · have hzero : (store.transition request action price).nextSize = 0 :=
      hdust.resolve_right (not_lt.mpr hsmall)
    rw [if_pos hsmall, Dict.sumBy_erase, hkey, hzero, zero_mul]
    cases action.side with
    | long => exact (add_zero _).symm
    | short =>
      show _ = _ + -(0 : Amount)
      rw [neg_zero, add_zero]
  · rw [if_neg hsmall, Dict.sumBy_set, hkey]

theorem sized_fill (h : Accounted store)
    (hnonneg : 0 ≤ (store.transition request action price).nextSize ∧
      0 ≤ (store.transition request action price).nextEntryPrice)
    (key : String × PositionSide) (position : VirtualPosition)
    (hposition : (store.fillOrder request action price).1.positions.get? key = some position) :
    0 ≤ position.size ∧ 0 ≤ position.entryPrice := by
  rw [fillOrder_positions] at hposition
  unfold VirtualStore.fillPosition at hposition
  dsimp only at hposition
  by_cases hfilled : (store.transition request action price).status ≠ .filled
  · rw [if_pos hfilled] at hposition
    exact h.sized key position hposition
  rw [if_neg hfilled] at hposition
  by_cases hsame : key = (canonicalSymbol request.symbol, action.side)
  · subst hsame
    by_cases hsmall : (store.transition request action price).nextSize ≤ 1 / 10 ^ 12
    · rw [if_pos hsmall, Dict.get?_erase, if_pos rfl] at hposition
      exact nomatch hposition
    · rw [if_neg hsmall, Dict.get?_set_self] at hposition
      cases hposition
      exact hnonneg
  · by_cases hsmall : (store.transition request action price).nextSize ≤ 1 / 10 ^ 12
    · rw [if_pos hsmall, Dict.get?_erase, if_neg hsame] at hposition
      exact h.sized key position hposition
    · rw [if_neg hsmall, Dict.get?_set, if_neg hsame] at hposition
      exact h.sized key position hposition

end FillBooks

theorem accountOr_realized (store : VirtualStore) (cash : Amount) :
    (store.accountOr cash).realizedPnl = realizedOf store ∧
      (store.accountOr cash).totalCommission = commissionOf store := by
  unfold VirtualStore.accountOr realizedOf commissionOf
  cases store.account with
  | none => exact ⟨rfl, rfl⟩
  | some account => exact ⟨rfl, rfl⟩

theorem Accounted.keep {store next : VirtualStore} (h : Accounted store)
    (haccount : next.account = store.account) (htrades : next.trades = store.trades)
    (hbook : bookCost next = bookCost store)
    (hsized : ∀ key position, next.positions.get? key = some position →
      0 ≤ position.size ∧ 0 ≤ position.entryPrice) : Accounted next := by
  refine ⟨?_, ?_, hsized⟩
  · intro account hsome
    rw [haccount] at hsome
    exact h.cash account hsome
  · have hrealized : realizedOf next = realizedOf store := by
      unfold realizedOf
      rw [haccount]
    have hcommission : commissionOf next = commissionOf store := by
      unfold commissionOf
      rw [haccount]
    rw [hrealized, hcommission, htrades, hbook]
    exact h.realized

theorem accounted_defer {store : VirtualStore} (h : Accounted store) (request : VirtualRequest)
    (action : SignalType) : Accounted (store.deferOrder request action).1 := by
  obtain ⟨hrealized, hcommission⟩ := accountOr_realized store (initialCash store.strategy request)
  refine ⟨?_, ?_, h.sized⟩
  · intro account hsome
    have hcreated : store.accountOr (initialCash store.strategy request) = account :=
      Option.some.inj hsome
    rw [← hcreated]
    unfold VirtualStore.accountOr
    cases hbefore : store.account with
    | none => exact (add_zero _).symm
    | some before => exact h.cash before hbefore
  · calc realizedOf (store.deferOrder request action).1
        = (store.accountOr (initialCash store.strategy request)).realizedPnl := rfl
      _ = realizedOf store := hrealized
      _ = (store.trades.map cashFlow).sum + bookCost store - commissionOf store := h.realized
      _ = (store.trades.map cashFlow).sum + bookCost store -
          (store.accountOr (initialCash store.strategy request)).totalCommission := by
            rw [hcommission]

theorem marked_size (position : VirtualPosition) (side : PositionSide) (price : Amount) :
    (position.marked side price).size = position.size ∧
      (position.marked side price).entryPrice = position.entryPrice := by
  unfold VirtualPosition.marked
  dsimp only
  by_cases hsmall : max 0 position.size ≤ 1 / 10 ^ 12 ∨ max 0 position.entryPrice ≤ 0
  · rw [if_pos hsmall]
    exact ⟨rfl, rfl⟩
  · rw [if_neg hsmall]
    exact ⟨rfl, rfl⟩

theorem accounted_mark {store : VirtualStore} (h : Accounted store)
    (prices : List (String × Amount)) (runId : ℕ) :
    Accounted (store.markVirtualPositions prices runId) := by
  obtain ⟨mark, hmark, hkept⟩ :
      ∃ mark : String × PositionSide → VirtualPosition → VirtualPosition,
        (store.markVirtualPositions prices runId).positions = store.positions.mapValues mark ∧
          ∀ key position, (mark key position).size = position.size ∧
            (mark key position).entryPrice = position.entryPrice := by
    unfold VirtualStore.markVirtualPositions
    dsimp only
    refine ⟨_, rfl, fun key position => ?_⟩
    split_ifs
    · split
      · exact marked_size _ _ _
      · exact ⟨rfl, rfl⟩
    · exact ⟨rfl, rfl⟩
  refine Accounted.keep h rfl rfl ?_ ?_
  · unfold bookCost
    rw [hmark, Dict.sumBy_mapValues]
    congr 1
    funext key position
    obtain ⟨hsize, hentry⟩ := hkept key position
    exact congrArg (signed key.2) (congrArg₂ (· * ·) hsize hentry)
  · intro key position hposition
    rw [hmark, Dict.get?_mapValues] at hposition
    obtain ⟨before, hbefore, rfl⟩ := Option.map_eq_some_iff.mp hposition
    obtain ⟨hsize, hentry⟩ := hkept key before
    rw [hsize, hentry]
    exact h.sized key before hbefore

theorem fillCommission_zero {store : VirtualStore} {request : VirtualRequest} {action : SignalType}
    {price : Amount} (h : (store.transition request action price).fillQuantity = 0) :
    fillCommission store request action price = 0 := by
  unfold fillCommission VirtualExecutionCostPolicy.commissionFor
  rw [h, max_self, zero_mul, zero_mul]

theorem accountFilled_cash (store : VirtualStore) (request : VirtualRequest) (action : SignalType)
    (price : Amount) : (accountFilled store request action price).cashBalance =
      (accountFilled store request action price).initialCash +
        (accountFilled store request action price).realizedPnl := rfl

theorem accounted_fill {store : VirtualStore} (h : Accounted store) (request : VirtualRequest)
    (action : SignalType) (price : Amount)
    (hdust : ∀ trade ∈ (store.fillOrder request action price).1.trades.drop store.trades.length,
      sizeLeft store trade = 0 ∨ 1 / 10 ^ 12 < sizeLeft store trade) :
    Accounted (store.fillOrder request action price).1 := by
  obtain ⟨hsize, hentry⟩ := position_nonneg h (canonicalSymbol request.symbol, action.side)
  obtain ⟨hbefore, hpaid⟩ := accountOr_realized store (initialCash store.strategy request)
  obtain ⟨id, entry, equity, htrades⟩ := fillOrder_trades store request action price
  have hcash : ∀ account, (store.fillOrder request action price).1.account = some account →
      account.cashBalance = account.initialCash + account.realizedPnl := by
    intro account hsome
    rw [fillOrder_account] at hsome
    cases hsome
    exact accountFilled_cash store request action price
  have hrealized : realizedOf (store.fillOrder request action price).1 = realizedOf store +
      (store.transition request action price).grossRealizedPnl -
        fillCommission store request action price := by
    unfold realizedOf at hbefore ⊢
    rw [fillOrder_account, ← hbefore]
    rfl
  have hcommission : commissionOf (store.fillOrder request action price).1 =
      commissionOf store + fillCommission store request action price := by
    unfold commissionOf at hpaid ⊢
    rw [fillOrder_account, ← hpaid]
    rfl
  rcases calculateVirtualFill_outcome action request.requestedQuantity price hsize hentry with
    ⟨hfilled, houtcome⟩ | ⟨hnone, hquantity, hgross⟩
  · change (store.transition request action price).status = .filled at hfilled
    change FillOutcome action price _ _ (store.transition request action price) at houtcome
    rw [if_pos hfilled] at htrades
    have hleft : (store.transition request action price).nextSize = 0 ∨
        1 / 10 ^ 12 < (store.transition request action price).nextSize := by
      rw [htrades, List.drop_left] at hdust
      rw [houtcome.left]
      exact hdust _ (List.mem_singleton_self _)
    refine ⟨hcash, ?_, sized_fill h houtcome.nonneg⟩
    rw [hrealized, hcommission, bookCost_fill hfilled hleft, htrades, List.map_append,
      List.sum_append, List.map_singleton, List.sum_singleton, cashFlow_eq, houtcome.gross,
      h.realized]
    unfold VirtualRequest.trade
    dsimp only
    ring
  · change (store.transition request action price).status ≠ .filled at hnone
    change (store.transition request action price).fillQuantity = 0 at hquantity
    change (store.transition request action price).grossRealizedPnl = 0 at hgross
    have hpositions : (store.fillOrder request action price).1.positions = store.positions := by
      rw [fillOrder_positions]
      unfold VirtualStore.fillPosition
      dsimp only
      rw [if_pos hnone]
    rw [if_neg hnone] at htrades
    refine ⟨hcash, ?_, ?_⟩
    · unfold bookCost
      rw [hrealized, hcommission, fillCommission_zero hquantity, hgross, htrades, hpositions,
        add_zero, sub_zero, add_zero]
      exact h.realized
    · rw [hpositions]
      exact h.sized

theorem accounted_call {store : VirtualStore} (call : VirtualCall) (h : Accounted store)
    (hdust : Undusted store call) : Accounted (store.call call) := by
  unfold Undusted at hdust
  have heffect := effect_call store call
  generalize store.call call = next at heffect hdust ⊢
  cases heffect with
  | none => exact h
  | read runId => exact Accounted.keep h rfl rfl rfl h.sized
  | defer request action _ => exact accounted_defer h request action
  | fill request action price _ => exact accounted_fill h request action price hdust
  | cancel row _ =>
    obtain ⟨htrades, -, hpositions, haccount⟩ := cancelVirtualOrder_frame store row
    have hbook : bookCost (store.cancelVirtualOrder row) = bookCost store := by
      unfold bookCost
      rw [hpositions]
    refine Accounted.keep h haccount htrades hbook ?_
    rw [hpositions]
    exact h.sized
  | mark prices runId => exact accounted_mark h prices runId

/-! ## Main theorem -/

/-- A strategy that has not traded yet, with any pending orders. -/
def freshStore (strategy : VirtualStrategy) (pending : ℕ → Option VirtualPending) :
    VirtualStore :=
  { strategy := strategy, pending := pending }

theorem ordersSound_fresh (strategy : VirtualStrategy) (pending : ℕ → Option VirtualPending) :
    OrdersSound (freshStore strategy pending) :=
  ⟨List.nodup_nil, List.nodup_nil, fun _ hmem => absurd hmem List.not_mem_nil,
    fun _ hmem => absurd hmem List.not_mem_nil⟩

theorem accounted_fresh (strategy : VirtualStrategy) (pending : ℕ → Option VirtualPending) :
    Accounted (freshStore strategy pending) := by
  refine ⟨?_, ?_, ?_⟩
  · intro account hsome
    exact nomatch hsome
  · show (0 : Amount) = 0 + 0 - 0
    ring
  · intro key position hsome
    exact nomatch hsome

theorem unrealized_sum (store : VirtualStore) (marks : String → Amount) :
    (store.positions.sumBy fun key position =>
      unrealizedAt key.2 position.size position.entryPrice (marks key.1)) =
    (store.positions.sumBy fun key position => signed key.2 (position.size * marks key.1)) -
      bookCost store := by
  unfold bookCost
  rw [← Dict.sumBy_sub]
  congr 1
  funext key position
  rw [← signed_sub]
  cases key.2 with
  | long =>
    show (marks key.1 - position.entryPrice) * position.size = _
    unfold signed
    ring
  | short =>
    show (position.entryPrice - marks key.1) * position.size = _
    unfold signed
    ring

theorem no_trade_after_cancel {store : VirtualStore} (h : OrdersSound store)
    (before after : List VirtualCall) (call : VirtualCall) {pendingOrderId : ℕ}
    (hcancels : Cancels (runActions VirtualStore.call store before) call pendingOrderId) :
    tradesOf (runActions VirtualStore.call store (before ++ call :: after)) pendingOrderId =
      tradesOf (runActions VirtualStore.call store before) pendingOrderId := by
  have hsound := keepsOrders_run h before
  obtain ⟨row, hread, rfl, hcall⟩ := call_of_cancels hcancels
  have hclosed := cancelVirtualOrder_closes hsound hread
  have hkept := (keepsOrders_cancel hsound row).sound
  obtain ⟨htrades, -⟩ := cancelVirtualOrder_frame (runActions VirtualStore.call store before) row
  calc tradesOf (runActions VirtualStore.call store (before ++ call :: after)) row.pendingOrderId
      = tradesOf (runActions VirtualStore.call
          ((runActions VirtualStore.call store before).call call) after) row.pendingOrderId := by
        unfold runActions
        rw [List.foldl_append]
        rfl
    _ = tradesOf ((runActions VirtualStore.call store before).cancelVirtualOrder row)
          row.pendingOrderId := by
        rw [hcall]
        exact settled_run hkept hclosed after
    _ = tradesOf (runActions VirtualStore.call store before) row.pendingOrderId := by
        unfold tradesOf
        rw [htrades]

/-- Over every sequence of transactions that leaves no dust: a pending order is traded once at
most and never after its cancellation, the cash is the initial cash plus the realised profit, and
at any prices the profit is what the trades have paid plus what the positions are worth, less the
commissions. -/
theorem virtual_account_conserves (strategy : VirtualStrategy)
    (pending : ℕ → Option VirtualPending) (calls : List VirtualCall)
    (hdust : Along VirtualStore.call Undusted (freshStore strategy pending) calls) :
    (∀ pendingOrderId, (tradesOf (runActions VirtualStore.call (freshStore strategy pending) calls)
      pendingOrderId).length ≤ 1) ∧
    (∀ before call after pendingOrderId, calls = before ++ call :: after →
      Cancels (runActions VirtualStore.call (freshStore strategy pending) before) call
        pendingOrderId →
      tradesOf (runActions VirtualStore.call (freshStore strategy pending) calls) pendingOrderId =
        tradesOf (runActions VirtualStore.call (freshStore strategy pending) before)
          pendingOrderId) ∧
    (∀ account,
      (runActions VirtualStore.call (freshStore strategy pending) calls).account = some account →
      account.cashBalance = account.initialCash + account.realizedPnl) ∧
    (∀ marks : String → Amount,
      realizedOf (runActions VirtualStore.call (freshStore strategy pending) calls) +
        ((runActions VirtualStore.call (freshStore strategy pending) calls).positions.sumBy
          fun key position =>
            unrealizedAt key.2 position.size position.entryPrice (marks key.1)) =
      ((runActions VirtualStore.call (freshStore strategy pending) calls).trades.map
        cashFlow).sum +
        ((runActions VirtualStore.call (freshStore strategy pending) calls).positions.sumBy
          fun key position => signed key.2 (position.size * marks key.1)) -
        commissionOf (runActions VirtualStore.call (freshStore strategy pending) calls)) := by
  have hsound := keepsOrders_run (ordersSound_fresh strategy pending) calls
  have haccounted : Accounted (runActions VirtualStore.call (freshStore strategy pending) calls) :=
    Along.invariant (fun _ call hkept hleft => accounted_call call hkept hleft)
      (accounted_fresh strategy pending) hdust
  refine ⟨tradesOf_length hsound, ?_, haccounted.cash, ?_⟩
  · intro before call after pendingOrderId hcalls hcancels
    rw [hcalls]
    exact no_trade_after_cancel (ordersSound_fresh strategy pending) before after call hcancels
  · intro marks
    rw [unrealized_sum, haccounted.realized]
    ring

def tradedStrategy : VirtualStrategy := { id := 1, userId := 1, initialCapital := 1000 }

def marketEntry : VirtualRequest where
  orderId := 1
  strategyId := 1
  userId := 1
  action := some .openLong
  symbol := "BTC/USDT"
  requestedQuantity := 2
  referencePrice := 100

def limitExit : VirtualRequest where
  orderId := 2
  strategyId := 1
  userId := 1
  action := some .reduceLong
  symbol := "BTC/USDT"
  requestedQuantity := 1
  referencePrice := 100
  orderType := "limit"
  limitPrice := 110

/-- The entry is delivered twice, the exit waits, is read by two matchers and met by the market. -/
def tradedCalls : List VirtualCall :=
  [.execute marketEntry true, .execute marketEntry true, .execute limitExit true, .readOpen 0,
    .readOpen 0, .mark [("BTC/USDT", 112)] 0,
    .matchRow (limitExit.openOrder .reduceLong 2) { prices := [("BTC/USDT", 112)] },
    .matchRow (limitExit.openOrder .reduceLong 2) { prices := [("BTC/USDT", 113)] },
    .cancelRow (limitExit.openOrder .reduceLong 2)]

/-- Such a run trades twice and its books agree. -/
theorem entry_and_limit_exit_conserve :
    (runActions VirtualStore.call (freshStore tradedStrategy fun _ => none)
      tradedCalls).trades.length = 2 ∧
    (∀ account, (runActions VirtualStore.call (freshStore tradedStrategy fun _ => none)
      tradedCalls).account = some account →
      account.cashBalance = account.initialCash + account.realizedPnl) :=
  ⟨by decide +kernel, (virtual_account_conserves tradedStrategy (fun _ => none) tradedCalls
    (by decide +kernel)).2.2.1⟩

end QuantDinger.Analysis
