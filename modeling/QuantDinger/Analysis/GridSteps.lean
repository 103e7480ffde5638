import QuantDinger.Model.GridEngine

/-!
# What the grid engine's calls write

Cancellations only take orders off the open list, and a placement either does no more than
that or inserts one order and rewrites its cell. Every invariant of the grid is derived from
the lemmas `placeLimit_forms`, `ensureCellExitCoverage_cases`, `onOrderFilled_cases` and
`projectGrid_cases`.
-/

namespace QuantDinger.Analysis

open QuantDinger.Library
open QuantDinger.Model
open QuantDinger.Model.Live

/-! ## Cancellations -/

/-- INTERNAL: between two stores orders have been cancelled, flags may have been raised, and
nothing else has happened. -/
structure OnlyCancels (store next : GridStore) : Prop where
  cells : next.cells = store.cells
  legs : next.legs = store.legs
  trades : next.trades = store.trades
  openOrders : next.openOrders.Sublist store.openOrders

theorem OnlyCancels.refl (store : GridStore) : OnlyCancels store store :=
  ⟨rfl, rfl, rfl, List.Sublist.refl _⟩

theorem OnlyCancels.trans {store middle next : GridStore} (h : OnlyCancels store middle)
    (h' : OnlyCancels middle next) : OnlyCancels store next :=
  ⟨h'.cells.trans h.cells, h'.legs.trans h.legs, h'.trades.trans h.trades,
    h'.openOrders.trans h.openOrders⟩

theorem openOrders_cancel (store : GridStore) (id : ℕ) :
    (store.setOrder id fun row => { row with status := .cancelled }).openOrders =
      store.openOrders.filter fun order => order.id ≠ id := by
  have hclosed : GridOrderStatus.isOpen .cancelled = false := rfl
  simp only [GridStore.openOrders, GridStore.setOrder]
  induction store.orders with
  | nil => rfl
  | cons order orders ih =>
    simp only [List.map_cons, List.filter_cons, ih]
    by_cases hid : order.id = id
    · by_cases hopen : order.status.isOpen = true
      · simp [hid, hopen, hclosed]
      · simp [hid, hopen, hclosed]
    · by_cases hopen : order.status.isOpen = true
      · simp [hid, hopen]
      · simp [hid, hopen]

theorem onlyCancels_cancelConfirmedOrder (store : GridStore) (order : GridRestingOrder)
    (answer : CancelAnswer) : OnlyCancels store (store.cancelConfirmedOrder order answer).1 := by
  unfold GridStore.cancelConfirmedOrder
  by_cases h : CancelConfirmed order answer
  · rw [if_pos h]
    refine ⟨rfl, rfl, rfl, ?_⟩
    rw [openOrders_cancel]
    exact List.filter_sublist
  · rw [if_neg h]
    exact OnlyCancels.refl store

theorem onlyCancels_cancelEach (store : GridStore) (orders : List GridRestingOrder)
    (answer : GridRestingOrder → CancelAnswer) :
    OnlyCancels store (store.cancelEach orders answer) := by
  unfold GridStore.cancelEach
  induction orders generalizing store with
  | nil => exact OnlyCancels.refl store
  | cons order orders ih =>
    exact (onlyCancels_cancelConfirmedOrder store order (answer order)).trans (ih _)

theorem onlyCancels_cancelPositionOrders (store : GridStore) (side : PositionSide) (exits : Bool)
    (answer : GridRestingOrder → CancelAnswer) :
    OnlyCancels store (store.cancelPositionOrders side exits answer) :=
  onlyCancels_cancelEach store _ answer

theorem onlyCancels_cancelAll (store : GridStore) (answer : GridRestingOrder → CancelAnswer)
    (orders : List GridRestingOrder) : OnlyCancels store (store.cancelAll answer orders).1 := by
  induction orders generalizing store with
  | nil => exact OnlyCancels.refl store
  | cons order orders ih =>
    have hfirst := onlyCancels_cancelConfirmedOrder store order (answer order)
    unfold GridStore.cancelAll
    by_cases h : (store.cancelConfirmedOrder order (answer order)).2 = true
    · simp only [if_pos h]
      exact hfirst.trans (ih _)
    · simp only [if_neg h]
      exact OnlyCancels.refl store

/-! ## Placements -/

/-- The quantity an order of a purpose goes out with at a price: it is normalised, and an exit
is capped and normalised again. -/
def sentQuantity (store : GridStore) (config : GridConfig) (purpose : GridPurpose)
    (price quantity : Amount) (answers : ExitAnswers) : Amount :=
  if purpose.exits then
    config.normalizeBaseQty (store.resolveGridExitQuantity config purpose.posSide
      (config.normalizeBaseQty quantity price) answers) price
  else config.normalizeBaseQty quantity price

/-- The quantity a caller of `_place_limit` asks for. -/
def requestedQuantity (store : GridStore) (config : GridConfig) (index : ℕ)
    (purpose : GridPurpose) (price : Amount) (quantity : Option Amount) : Amount :=
  quantity.getD (config.qtyFromUsdt (config.budget index) (store.limitPrice purpose price))

/-- What a placement that rests has inserted: an order of the purpose for the cell, of the
quantity it was sent with. -/
structure Rests (store : GridStore) (config : GridConfig) (index : ℕ) (purpose : GridPurpose)
    (price : Amount) (quantity : Option Amount) (answers : PlaceAnswers) (sent : Amount) :
    Prop where
  running : store.stopRequested = false
  priced : 0 < price
  positive : 0 < sent
  sent : sent = sentQuantity store config purpose (store.limitPrice purpose price)
    (requestedQuantity store config index purpose price quantity) answers.exit

/-- INTERNAL: between two stores flags may have been raised, and no row has been written. -/
structure SameRows (store next : GridStore) : Prop where
  cells : next.cells = store.cells
  orders : next.orders = store.orders
  legs : next.legs = store.legs
  trades : next.trades = store.trades

theorem SameRows.refl (store : GridStore) : SameRows store store := ⟨rfl, rfl, rfl, rfl⟩

theorem SameRows.onlyCancels {store next : GridStore} (h : SameRows store next) :
    OnlyCancels store next := by
  refine ⟨h.cells, h.legs, h.trades, ?_⟩
  unfold GridStore.openOrders
  rw [h.orders]

theorem sendLimit_cases (store : GridStore) (index : ℕ) (purpose : GridPurpose)
    (price quantity : Amount) (outcome : GridPlacement) :
    (SameRows store (store.sendLimit index purpose price quantity outcome).1 ∧
      (store.sendLimit index purpose price quantity outcome).2 = false) ∨
    store.sendLimit index purpose price quantity outcome =
      (store.recordPlaced index purpose price quantity, true) := by
  cases outcome with
  | guarded => exact Or.inl ⟨SameRows.refl store, rfl⟩
  | refused stops => exact Or.inl ⟨⟨rfl, rfl, rfl, rfl⟩, rfl⟩
  | notInserted => exact Or.inl ⟨SameRows.refl store, rfl⟩
  | placed => exact Or.inr rfl

/-- The rows after an entry that the ownership guard does not allow. -/
def entryRefused (store : GridStore) (side : PositionSide) (answers : PlaceAnswers) : GridStore :=
  if answers.shortfall then
    (store.cancelPositionOrders side false answers.cancels).cancelPositionOrders side true
      answers.cancels
  else store.cancelPositionOrders side false answers.cancels

theorem onlyCancels_entryRefused (store : GridStore) (side : PositionSide)
    (answers : PlaceAnswers) : OnlyCancels store (entryRefused store side answers) := by
  have hentries := onlyCancels_cancelPositionOrders store side false answers.cancels
  unfold entryRefused
  by_cases hshort : answers.shortfall = true
  · rw [if_pos hshort]
    exact hentries.trans (onlyCancels_cancelPositionOrders _ side true _)
  · rw [if_neg hshort]
    exact hentries

theorem placeLimit_forms (store : GridStore) (config : GridConfig) (index : ℕ)
    (purpose : GridPurpose) (price : Amount) (quantity : Option Amount) (answers : PlaceAnswers) :
    (SameRows store (store.placeLimit config index purpose price quantity answers).1 ∧
      (store.placeLimit config index purpose price quantity answers).2 = false) ∨
    store.placeLimit config index purpose price quantity answers =
      (entryRefused store purpose.posSide answers, false) ∨
    ∃ sent, Rests store config index purpose price quantity answers sent ∧
      store.placeLimit config index purpose price quantity answers =
        (store.recordPlaced index purpose (store.limitPrice purpose price) sent, true) := by
  unfold GridStore.placeLimit
  by_cases hstop : store.stopRequested = true ∨ price ≤ 0
  · rw [if_pos hstop]
    exact Or.inl ⟨SameRows.refl store, rfl⟩
  rw [if_neg hstop]
  obtain ⟨hrunning, hpriced⟩ := not_or.mp hstop
  by_cases hconflict : purpose.exits = true ∧ answers.recentConflict = true
  · rw [if_pos hconflict]
    exact Or.inl ⟨SameRows.refl store, rfl⟩
  rw [if_neg hconflict]
  by_cases hqty : config.normalizeBaseQty (quantity.getD (config.qtyFromUsdt (config.budget index)
      (store.limitPrice purpose price))) (store.limitPrice purpose price) ≤ 0
  · rw [if_pos hqty]
    exact Or.inl ⟨SameRows.refl store, rfl⟩
  rw [if_neg hqty]
  by_cases hexit : purpose.exits = true
  · rw [if_pos hexit]
    by_cases hcapped : config.normalizeBaseQty (store.resolveGridExitQuantity config
        purpose.posSide (config.normalizeBaseQty (quantity.getD (config.qtyFromUsdt
          (config.budget index) (store.limitPrice purpose price))) (store.limitPrice purpose price))
        answers.exit) (store.limitPrice purpose price) ≤ 0
    · rw [if_pos hcapped]
      exact Or.inl ⟨SameRows.refl store, rfl⟩
    · rw [if_neg hcapped]
      rcases sendLimit_cases store index purpose (store.limitPrice purpose price)
        (config.normalizeBaseQty (store.resolveGridExitQuantity config
          purpose.posSide (config.normalizeBaseQty (quantity.getD (config.qtyFromUsdt
            (config.budget index) (store.limitPrice purpose price)))
          (store.limitPrice purpose price)) answers.exit) (store.limitPrice purpose price))
        answers.outcome with hfail | hsent
      · exact Or.inl hfail
      · refine Or.inr (Or.inr ⟨_, ⟨by simpa using hrunning, not_le.mp hpriced,
          not_le.mp hcapped, ?_⟩, hsent⟩)
        rw [sentQuantity, if_pos hexit]
        rfl
  · rw [if_neg hexit]
    by_cases hallowed : answers.allowed = false
    · rw [if_pos hallowed]
      exact Or.inr (Or.inl rfl)
    · rw [if_neg hallowed]
      rcases sendLimit_cases store index purpose (store.limitPrice purpose price)
        (config.normalizeBaseQty (quantity.getD (config.qtyFromUsdt (config.budget index)
          (store.limitPrice purpose price))) (store.limitPrice purpose price))
        answers.outcome with hfail | hsent
      · exact Or.inl hfail
      · refine Or.inr (Or.inr ⟨_, ⟨by simpa using hrunning, not_le.mp hpriced, not_le.mp hqty, ?_⟩,
          hsent⟩)
        rw [sentQuantity, if_neg hexit]
        rfl

theorem placeLimit_cases (store : GridStore) (config : GridConfig) (index : ℕ)
    (purpose : GridPurpose) (price : Amount) (quantity : Option Amount) (answers : PlaceAnswers) :
    (OnlyCancels store (store.placeLimit config index purpose price quantity answers).1 ∧
      (store.placeLimit config index purpose price quantity answers).2 = false) ∨
    ∃ sent, Rests store config index purpose price quantity answers sent ∧
      store.placeLimit config index purpose price quantity answers =
        (store.recordPlaced index purpose (store.limitPrice purpose price) sent, true) := by
  rcases placeLimit_forms store config index purpose price quantity answers with
    ⟨hsame, hfalse⟩ | hrefused | hrests
  · exact Or.inl ⟨hsame.onlyCancels, hfalse⟩
  · rw [hrefused]
    exact Or.inl ⟨onlyCancels_entryRefused store _ answers, rfl⟩
  · exact Or.inr hrests

/-- The rows once the working exits of a cell have been cancelled. -/
def exitsCancelled (store : GridStore) (index : ℕ) (side : PositionSide)
    (answer : GridRestingOrder → CancelAnswer) : GridStore :=
  (store.cancelAll answer (store.openOrdersForCell index (.exitOf side))).1

theorem ensureCellExitCoverage_cases (store : GridStore) (config : GridConfig)
    (spec : GridCellSpec) (side : PositionSide) (quantity : Amount) (answers : CoverAnswers) :
    OnlyCancels store (store.ensureCellExitCoverage config spec side quantity answers).1 ∨
    (¬ store.ExitCovered spec.index side
        (config.normalizeBaseQty quantity (spec.exitPrice side)) ∧
      store.ensureCellExitCoverage config spec side quantity answers =
        (exitsCancelled store spec.index side answers.cancels).placeLimit config spec.index
          (.exitOf side) (spec.exitPrice side)
          (some (config.normalizeBaseQty quantity (spec.exitPrice side))) answers.place) := by
  unfold GridStore.ensureCellExitCoverage
  by_cases hdesired : config.normalizeBaseQty quantity (spec.exitPrice side) ≤ 0
  · rw [if_pos hdesired]
    exact Or.inl (OnlyCancels.refl store)
  rw [if_neg hdesired]
  by_cases hcovered : store.ExitCovered spec.index side
      (config.normalizeBaseQty quantity (spec.exitPrice side))
  · rw [if_pos hcovered]
    exact Or.inl (OnlyCancels.refl store)
  rw [if_neg hcovered]
  by_cases hclient : answers.client = false
  · rw [if_pos hclient]
    exact Or.inl (OnlyCancels.refl store)
  rw [if_neg hclient]
  by_cases hcancelled : (store.cancelAll answers.cancels
      (store.openOrdersForCell spec.index (.exitOf side))).2 = true
  · rw [if_pos hcancelled]
    exact Or.inr ⟨hcovered, rfl⟩
  · rw [if_neg hcancelled]
    exact Or.inl (onlyCancels_cancelAll store _ _)

theorem openOrders_cancelAll {answer : GridRestingOrder → CancelAnswer}
    {orders : List GridRestingOrder} {store : GridStore}
    (h : (store.cancelAll answer orders).2 = true) :
    (store.cancelAll answer orders).1.openOrders =
      store.openOrders.filter fun order => order.id ∉ orders.map GridRestingOrder.id := by
  induction orders generalizing store with
  | nil => simp [GridStore.cancelAll]
  | cons order orders ih =>
    unfold GridStore.cancelAll at h ⊢
    by_cases hconfirmed : CancelConfirmed order (answer order)
    · have hfirst : store.cancelConfirmedOrder order (answer order) =
          (store.setOrder order.id fun row => { row with status := .cancelled }, true) :=
        if_pos hconfirmed
      simp only [hfirst, if_true] at h ⊢
      rw [ih h, openOrders_cancel, List.filter_filter]
      apply List.filter_congr
      intro other _
      by_cases hother : other.id = order.id
      · simp [hother]
      · simp [hother]
    · have hfirst : store.cancelConfirmedOrder order (answer order) = (store, false) :=
        if_neg hconfirmed
      simp [hfirst] at h

theorem ensureCellExitCoverage_true {store : GridStore} {config : GridConfig}
    {spec : GridCellSpec} {side : PositionSide} {quantity : Amount} {answers : CoverAnswers}
    (h : (store.ensureCellExitCoverage config spec side quantity answers).2 = true) :
    (store.ExitCovered spec.index side (config.normalizeBaseQty quantity (spec.exitPrice side)) ∧
      (store.ensureCellExitCoverage config spec side quantity answers).1 = store) ∨
    ∃ sent, (exitsCancelled store spec.index side answers.cancels).openOrdersForCell spec.index
        (.exitOf side) = [] ∧
      Rests (exitsCancelled store spec.index side answers.cancels) config spec.index
        (.exitOf side) (spec.exitPrice side)
        (some (config.normalizeBaseQty quantity (spec.exitPrice side))) answers.place sent ∧
      (store.ensureCellExitCoverage config spec side quantity answers).1 =
        (exitsCancelled store spec.index side answers.cancels).recordPlaced spec.index
          (.exitOf side) ((exitsCancelled store spec.index side answers.cancels).limitPrice
            (.exitOf side) (spec.exitPrice side)) sent := by
  unfold GridStore.ensureCellExitCoverage at h ⊢
  by_cases hdesired : config.normalizeBaseQty quantity (spec.exitPrice side) ≤ 0
  · rw [if_pos hdesired] at h
    exact nomatch h
  rw [if_neg hdesired] at h ⊢
  by_cases hcovered : store.ExitCovered spec.index side
      (config.normalizeBaseQty quantity (spec.exitPrice side))
  · rw [if_pos hcovered]
    exact Or.inl ⟨hcovered, rfl⟩
  rw [if_neg hcovered] at h ⊢
  by_cases hclient : answers.client = false
  · rw [if_pos hclient] at h
    exact nomatch h
  rw [if_neg hclient] at h ⊢
  by_cases hcancelled : (store.cancelAll answers.cancels
      (store.openOrdersForCell spec.index (.exitOf side))).2 = true
  · rw [if_pos hcancelled] at h ⊢
    rcases placeLimit_cases (exitsCancelled store spec.index side answers.cancels) config spec.index
      (.exitOf side) (spec.exitPrice side)
      (some (config.normalizeBaseQty quantity (spec.exitPrice side))) answers.place with
      ⟨-, hfalse⟩ | ⟨sent, hrests, hplaced⟩
    · exact absurd (hfalse.symm.trans h) (by decide)
    · refine Or.inr ⟨sent, ?_, hrests, congrArg Prod.fst hplaced⟩
      rw [GridStore.openOrdersForCell, exitsCancelled, openOrders_cancelAll hcancelled]
      apply List.filter_eq_nil_iff.mpr
      intro order horder hcell
      obtain ⟨hopen, hkept⟩ := List.mem_filter.mp horder
      apply of_decide_eq_true hkept
      exact List.mem_map_of_mem (List.mem_filter.mpr ⟨hopen, hcell⟩)
  · rw [if_neg hcancelled] at h
    exact nomatch h

/-! ## The written rows -/

@[simp] theorem recordPlaced_legs (store : GridStore) (index : ℕ) (purpose : GridPurpose)
    (price quantity : Amount) :
    (store.recordPlaced index purpose price quantity).legs = store.legs := rfl

@[simp] theorem recordPlaced_trades (store : GridStore) (index : ℕ) (purpose : GridPurpose)
    (price quantity : Amount) :
    (store.recordPlaced index purpose price quantity).trades = store.trades := rfl

theorem recordPlaced_cells (store : GridStore) (index other : ℕ) (purpose : GridPurpose)
    (price quantity : Amount) :
    (store.recordPlaced index purpose price quantity).cells other =
      if other = index
      then (store.cells index).map fun cell => cell.withOrder purpose price quantity
      else store.cells other := by
  simp only [GridStore.recordPlaced, Function.update_apply]

@[simp] theorem setOrder_cells (store : GridStore) (id : ℕ)
    (f : GridRestingOrder → GridRestingOrder) : (store.setOrder id f).cells = store.cells := rfl

@[simp] theorem setOrder_legs (store : GridStore) (id : ℕ)
    (f : GridRestingOrder → GridRestingOrder) : (store.setOrder id f).legs = store.legs := rfl

@[simp] theorem setOrder_trades (store : GridStore) (id : ℕ)
    (f : GridRestingOrder → GridRestingOrder) : (store.setOrder id f).trades = store.trades := rfl

@[simp] theorem observeMarketPrice_cells (store : GridStore) (price : Amount) :
    (store.observeMarketPrice price).cells = store.cells := by
  unfold GridStore.observeMarketPrice
  split_ifs <;> rfl

@[simp] theorem observeMarketPrice_legs (store : GridStore) (price : Amount) :
    (store.observeMarketPrice price).legs = store.legs := by
  unfold GridStore.observeMarketPrice
  split_ifs <;> rfl

@[simp] theorem observeMarketPrice_trades (store : GridStore) (price : Amount) :
    (store.observeMarketPrice price).trades = store.trades := by
  unfold GridStore.observeMarketPrice
  split_ifs <;> rfl

@[simp] theorem observeMarketPrice_pausedEntries (store : GridStore) (price : Amount) :
    (store.observeMarketPrice price).pausedEntries = store.pausedEntries := by
  unfold GridStore.observeMarketPrice
  split_ifs <;> rfl

@[simp] theorem observeMarketPrice_orders (store : GridStore) (price : Amount) :
    (store.observeMarketPrice price).orders = store.orders := by
  unfold GridStore.observeMarketPrice
  split_ifs <;> rfl

/-! ## Fills -/

theorem spotPositionFillQuantity_swap (symbol : String) (signal : SignalType) (quantity : Amount)
    (fees : Fees) : spotPositionFillQuantity "swap" symbol signal quantity fees = max 0 quantity := by
  have hswap : lower (strip "swap") ≠ "spot" := by decide
  unfold spotPositionFillQuantity
  rw [if_pos hswap]

def filledCell (cell : GridCell) (order : GridRestingOrder) (filled price : Amount) : GridCell :=
  if order.purpose.exits then cell.exitFilled order.purpose.posSide filled
  else cell.entryFilled order.purpose.posSide order.id filled price

/-- The rows after a fill of an order of a cell. -/
def filledStore (store : GridStore) (config : GridConfig) (spec : GridCellSpec) (cell : GridCell)
    (order : GridRestingOrder) (filled price : Amount) (fees : Fees) : GridStore :=
  ((store.applyGridFill config order filled price fees).observeMarketPrice price).setCell spec.index
    (filledCell cell order (spotPositionFillQuantity config.marketType config.symbol
      order.purpose.signal filled fees) price)

/-- What is left to be done after a fill of an order of a cell. -/
def filledFollowUp (next : GridStore) (spec : GridCellSpec) (cell : GridCell)
    (order : GridRestingOrder) (filled price : Amount) : Option GridFollowUp :=
  if order.purpose.exits then
    if (filledCell cell order filled price).legSize ≤ 1 / 10 ^ 10 ∧ next.pausedEntries = false ∧
        next.CellAllowsEntry next.cellState spec.index order.purpose.posSide
    then some (.reenter spec order.purpose.posSide filled) else none
  else some (.cover spec order.purpose.posSide (filledCell cell order filled price).legSize)

theorem onOrderFilled_cases {store next : GridStore} {config : GridConfig}
    {order : GridRestingOrder} {filled price : Amount} {fees : Fees} {followUp : Option GridFollowUp}
    (h : store.onOrderFilled config order filled price fees = .ok (next, followUp)) :
    0 < filled ∧ 0 < price ∧
      (((∀ spec ∈ config.cells, spec.index ≠ order.cellIndex) ∧ followUp = none ∧
        next = store.applyGridFill config order filled price fees) ∨
      ∃ spec ∈ config.cells, spec.index = order.cellIndex ∧ ∃ cell,
        store.cells spec.index = some cell ∧
        next = filledStore store config spec cell order filled price fees ∧
        followUp = filledFollowUp next spec cell order (spotPositionFillQuantity
          config.marketType config.symbol order.purpose.signal filled fees) price) := by
  unfold GridStore.onOrderFilled at h
  cases hrequire : requireExecution filled price with
  | error e =>
    rw [hrequire] at h
    exact nomatch h
  | ok _ =>
    rw [hrequire] at h
    obtain ⟨hfilled, hprice⟩ := requireExecution_ok hrequire
    refine ⟨hfilled, hprice, ?_⟩
    cases hspec : config.cells.find? fun spec => spec.index = order.cellIndex with
    | none =>
      simp only [hspec] at h
      cases h
      refine Or.inl ⟨?_, rfl, rfl⟩
      intro spec hmem
      simpa using List.find?_eq_none.mp hspec spec hmem
    | some spec =>
      simp only [hspec] at h
      have hmem := List.mem_of_find?_eq_some hspec
      have hindex : spec.index = order.cellIndex := by
        simpa using List.find?_some hspec
      cases hcell : store.cells spec.index with
      | none =>
        simp only [hcell] at h
        exact nomatch h
      | some cell =>
        simp only [hcell] at h
        refine Or.inr ⟨spec, hmem, hindex, cell, hcell, ?_⟩
        injection h with hpair
        unfold GridStore.fillCell at hpair
        by_cases hexit : order.purpose.exits = true
        · rw [if_pos hexit] at hpair
          obtain ⟨rfl, rfl⟩ := Prod.mk.inj hpair
          simp only [filledStore, filledFollowUp, filledCell, if_pos hexit, and_self]
        · rw [if_neg hexit] at hpair
          obtain ⟨rfl, rfl⟩ := Prod.mk.inj hpair
          simp only [filledStore, filledFollowUp, filledCell, if_neg hexit, and_self]

theorem onOrderFilled_eq {store : GridStore} {config : GridConfig} {order : GridRestingOrder}
    {spec : GridCellSpec} {cell : GridCell}
    (hspec : (config.cells.find? fun spec => spec.index = order.cellIndex) = some spec)
    (hcell : store.cells spec.index = some cell) {filled price : Amount} (hfilled : 0 < filled)
    (hprice : 0 < price) (fees : Fees) :
    store.onOrderFilled config order filled price fees =
      .ok (filledStore store config spec cell order filled price fees,
        filledFollowUp (filledStore store config spec cell order filled price fees) spec cell order
          (spotPositionFillQuantity config.marketType config.symbol order.purpose.signal filled fees)
          price) := by
  have hrequire : requireExecution filled price = .ok () := if_pos ⟨hfilled, hprice⟩
  unfold GridStore.onOrderFilled
  rw [hrequire]
  simp only [hspec, hcell, GridStore.fillCell]
  by_cases hexit : order.purpose.exits = true
  · simp only [filledStore, filledFollowUp, filledCell, if_pos hexit]
  · simp only [filledStore, filledFollowUp, filledCell, if_neg hexit]

@[simp] theorem applyGridFill_cells (store : GridStore) (config : GridConfig)
    (order : GridRestingOrder) (filled price : Amount) (fees : Fees) :
    (store.applyGridFill config order filled price fees).cells = store.cells := rfl

@[simp] theorem applyGridFill_orders (store : GridStore) (config : GridConfig)
    (order : GridRestingOrder) (filled price : Amount) (fees : Fees) :
    (store.applyGridFill config order filled price fees).orders = store.orders := rfl

@[simp] theorem filledStore_orders (store : GridStore) (config : GridConfig)
    (spec : GridCellSpec) (cell : GridCell) (order : GridRestingOrder) (filled price : Amount)
    (fees : Fees) :
    (filledStore store config spec cell order filled price fees).orders = store.orders := by
  show (GridStore.observeMarketPrice _ price).orders = _
  rw [observeMarketPrice_orders, applyGridFill_orders]

@[simp] theorem filledStore_pausedEntries (store : GridStore) (config : GridConfig)
    (spec : GridCellSpec) (cell : GridCell) (order : GridRestingOrder) (filled price : Amount)
    (fees : Fees) :
    (filledStore store config spec cell order filled price fees).pausedEntries =
      store.pausedEntries := by
  show (GridStore.observeMarketPrice _ price).pausedEntries = _
  rw [observeMarketPrice_pausedEntries]
  rfl

@[simp] theorem filledStore_trades (store : GridStore) (config : GridConfig) (spec : GridCellSpec)
    (cell : GridCell) (order : GridRestingOrder) (filled price : Amount) (fees : Fees) :
    (filledStore store config spec cell order filled price fees).trades =
      (store.applyGridFill config order filled price fees).trades := by
  show (GridStore.observeMarketPrice _ price).trades = _
  rw [observeMarketPrice_trades]

@[simp] theorem filledStore_legs (store : GridStore) (config : GridConfig) (spec : GridCellSpec)
    (cell : GridCell) (order : GridRestingOrder) (filled price : Amount) (fees : Fees) :
    (filledStore store config spec cell order filled price fees).legs =
      (store.applyGridFill config order filled price fees).legs := by
  show (GridStore.observeMarketPrice _ price).legs = _
  rw [observeMarketPrice_legs]

theorem onOrderFilled_ledger {store next : GridStore} {config : GridConfig}
    {order : GridRestingOrder} {filled price : Amount} {fees : Fees} {followUp : Option GridFollowUp}
    (h : store.onOrderFilled config order filled price fees = .ok (next, followUp)) :
    next.legs = (store.applyGridFill config order filled price fees).legs ∧
      next.trades = (store.applyGridFill config order filled price fees).trades := by
  obtain ⟨-, -, ⟨-, -, rfl⟩ | ⟨spec, -, -, cell, -, rfl, -⟩⟩ := onOrderFilled_cases h
  · exact ⟨rfl, rfl⟩
  · exact ⟨filledStore_legs _ _ _ _ _ _ _ _, filledStore_trades _ _ _ _ _ _ _ _⟩

theorem filledStore_cells (store : GridStore) (config : GridConfig) (spec : GridCellSpec)
    (cell : GridCell) (order : GridRestingOrder) (filled price : Amount) (fees : Fees) (index : ℕ) :
    (filledStore store config spec cell order filled price fees).cells index =
      if index = spec.index then some (filledCell cell order (spotPositionFillQuantity
        config.marketType config.symbol order.purpose.signal filled fees) price)
      else store.cells index := by
  show Function.update (GridStore.observeMarketPrice _ price).cells spec.index _ index = _
  rw [observeMarketPrice_cells, applyGridFill_cells, Function.update_apply]

/-! ## Projections -/

theorem projectedStatus_isOpen {status : String} {row : GridOrderStatus} {total : Amount}
    (h : (projectedStatus status row total).isOpen = true) : row.isOpen = true := by
  unfold projectedStatus at h
  split_ifs at h with hfilled hcancelled hrow hrow' htotal
  · exact absurd h (by decide)
  · exact absurd h (by decide)
  · exact absurd h (by decide)
  · exact absurd h (by decide)
  · cases row with
    | pending => rfl
    | working => rfl
    | partlyFilled => rfl
    | filled => exact absurd rfl hrow
    | cancelled => exact absurd rfl hrow'
  · exact h

theorem projectGrid_cases {store next : GridStore} {config : GridConfig} {orderId : ℕ}
    {event : ExecutionEvent} {fees : Fees} {followUp : Option GridFollowUp}
    (h : store.projectGrid config orderId event fees = .ok (next, followUp)) :
    (next = store ∧ followUp = none) ∨
    ∃ row delta price, store.order? orderId = some row ∧
      gridDelta event row.filledQuantity (store.postedQuantity orderId)
        (store.postedAverage orderId) = .ok (delta, price) ∧
      row.filledQuantity ≤ max 0 event.cumulativeQuantity + 1 / 10 ^ 12 ∧
      ((delta ≤ 1 / 10 ^ 12 ∧ followUp = none ∧
          next = store.setOrder orderId fun order => order.observed event price) ∨
        (1 / 10 ^ 12 < delta ∧ ∃ filled,
          (store.setOrder orderId fun order => order.observed event price).onOrderFilled config row
            delta price fees = .ok (filled, followUp) ∧
          next = filled.setOrder orderId fun order =>
            order.processed (observedTotal event row.filledQuantity))) := by
  unfold GridStore.projectGrid at h
  cases horder : store.order? orderId with
  | none =>
    simp only [horder] at h
    cases h
    exact Or.inl ⟨rfl, rfl⟩
  | some row =>
    simp only [horder] at h
    cases hdelta : gridDelta event row.filledQuantity (store.postedQuantity orderId)
        (store.postedAverage orderId) with
    | error e =>
      simp only [hdelta] at h
      exact nomatch h
    | ok pair =>
      obtain ⟨delta, price⟩ := pair
      simp only [hdelta] at h
      by_cases hstale : max 0 event.cumulativeQuantity + 1 / 10 ^ 12 < row.filledQuantity
      · rw [if_pos hstale] at h
        cases h
        exact Or.inl ⟨rfl, rfl⟩
      rw [if_neg hstale] at h
      refine Or.inr ⟨row, delta, price, rfl, hdelta, not_lt.mp hstale, ?_⟩
      by_cases hsmall : delta ≤ 1 / 10 ^ 12
      · rw [if_pos hsmall] at h
        cases h
        exact Or.inl ⟨hsmall, rfl, rfl⟩
      · rw [if_neg hsmall] at h
        refine Or.inr ⟨not_le.mp hsmall, ?_⟩
        cases hfill : (store.setOrder orderId fun order =>
            order.observed event price).onOrderFilled config row delta price fees with
        | error e =>
          simp only [hfill] at h
          exact nomatch h
        | ok result =>
          simp only [hfill] at h
          cases h
          exact ⟨result.1, rfl, rfl⟩

end QuantDinger.Analysis
