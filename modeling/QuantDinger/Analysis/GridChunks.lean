import QuantDinger.Analysis.GridSteps

/-!
# Fills in one part or in many

A fill reaches `on_order_filled` at once or in parts, and each part runs its follow-up. The cell
ends up the same: the parts of an entry add up to the same leg at the same average, and each
coverage leaves exits that cover the held size up to its tolerance; the parts of an exit take the
same quantity off the leg, and the cell is entered again after the last of them or not at all.
-/

namespace QuantDinger.Analysis

open QuantDinger.Library
open QuantDinger.Model
open QuantDinger.Model.Live

/-! ## Deliveries -/

/-- One part of a fill: its quantity and what the follow-up finds. -/
structure FillPart where
  quantity : Amount
  answers : CoverAnswers := {}

/-- The row of an order when a part of its fill is observed, and once it has been handled.
SOURCE: processor.py:585-603, 650-661 -/
def observesPart (row : GridRestingOrder) (status : GridOrderStatus)
    (quantity : Amount) : GridRestingOrder :=
  { row with status := status, filledQuantity := row.filledQuantity + quantity }

def processesPart (row : GridRestingOrder) (quantity : Amount) :
    GridRestingOrder :=
  { row with processedFillQty := row.processedFillQty + quantity }

section

variable (config : GridConfig) (order : GridRestingOrder) (price : Amount)

/-- A part up to the commit: the rows and what is left to be done. -/
def commitPart (store : GridStore) (status : GridOrderStatus) (quantity : Amount) :
    GridStore × Option GridFollowUp :=
  match (store.setOrder order.id fun row => observesPart row status quantity).onOrderFilled config
    order quantity price Dict.empty with
  | .error _ => (store, none)
  | .ok (filled, followUp) =>
    (filled.setOrder order.id fun row => processesPart row quantity, followUp)

def deliverPart (store : GridStore) (status : GridOrderStatus) (part : FillPart) : GridStore :=
  (commitPart config order price store status part.quantity).1.runFollowUp config part.answers
    (commitPart config order price store status part.quantity).2

/-- The status of the order at a part: the last one may complete it. -/
def partStatus (completes : Bool) (rest : List FillPart) : GridOrderStatus :=
  if rest = [] ∧ completes = true then .filled else .partlyFilled

def deliverParts (completes : Bool) : GridStore → List FillPart → GridStore
  | store, [] => store
  | store, part :: rest =>
    deliverParts completes (deliverPart config order price store (partStatus completes rest) part)
      rest

/-- The follow-up succeeds, and its exit is neither capped nor off the lot. -/
def Unhindered (store : GridStore) (answers : CoverAnswers) : Option GridFollowUp → Prop
  | none => True
  | some (.cover spec side quantity) =>
    (store.ensureCellExitCoverage config spec side quantity answers).2 = true ∧
      config.normalizeBaseQty quantity (spec.exitPrice side) = quantity ∧
      sentQuantity (exitsCancelled store spec.index side answers.cancels) config (.exitOf side)
        ((exitsCancelled store spec.index side answers.cancels).limitPrice (.exitOf side)
          (spec.exitPrice side)) quantity answers.place.exit = quantity
  | some (.reenter spec side quantity) =>
    (store.placeLimit config spec.index (.entryOf side) (spec.entryPrice side) (some quantity)
      answers.place).2 = true

/-- Every part has a positive quantity and an unhindered follow-up. -/
def PartsUnhindered (completes : Bool) : GridStore → List FillPart → Prop
  | _, [] => True
  | store, part :: rest => 0 < part.quantity ∧
    Unhindered config (commitPart config order price store (partStatus completes rest)
      part.quantity).1 part.answers
      (commitPart config order price store (partStatus completes rest) part.quantity).2 ∧
    PartsUnhindered completes
      (deliverPart config order price store (partStatus completes rest) part) rest

end

def partsTotal (parts : List FillPart) : Amount := (parts.map FillPart.quantity).sum

/-! ## One part -/

section Part

variable {config : GridConfig} {order : GridRestingOrder} {price : Amount} {store : GridStore}
  {spec : GridCellSpec} {cell : GridCell}

/-- INTERNAL: the rows a part leaves, up to the commit. -/
def committed (config : GridConfig) (order : GridRestingOrder) (price : Amount) (store : GridStore)
    (spec : GridCellSpec) (cell : GridCell) (status : GridOrderStatus) (quantity : Amount) :
    GridStore :=
  (filledStore (store.setOrder order.id fun row => observesPart row status quantity) config spec
    cell order quantity price Dict.empty).setOrder order.id fun row => processesPart row quantity

theorem commitPart_eq (hswap : config.marketType = "swap")
    (hspec : (config.cells.find? fun spec => spec.index = order.cellIndex) = some spec)
    (hcell : store.cells spec.index = some cell) (hprice : 0 < price) {quantity : Amount}
    (hquantity : 0 < quantity) (status : GridOrderStatus) :
    commitPart config order price store status quantity =
      (committed config order price store spec cell status quantity,
        filledFollowUp (filledStore (store.setOrder order.id fun row =>
          observesPart row status quantity) config spec cell order quantity price Dict.empty)
          spec cell order quantity price) := by
  have hcell' : (store.setOrder order.id fun row => observesPart row status quantity).cells
      spec.index = some cell := hcell
  unfold commitPart committed
  rw [onOrderFilled_eq hspec hcell' hquantity hprice, hswap, spotPositionFillQuantity_swap,
    max_eq_right hquantity.le]

theorem committed_cells (hswap : config.marketType = "swap") {quantity : Amount}
    (hquantity : 0 < quantity) (status : GridOrderStatus) (index : ℕ) :
    (committed config order price store spec cell status quantity).cells index =
      if index = spec.index then some (filledCell cell order quantity price)
      else store.cells index := by
  unfold committed
  rw [setOrder_cells, filledStore_cells, hswap, spotPositionFillQuantity_swap,
    max_eq_right hquantity.le, setOrder_cells]

end Part

/-! ## Entries -/

/-- What the result is about: the state of a cell, its leg and its entry price. -/
structure CellView where
  state : GridCellState
  legSize : Amount
  legEntryPrice : Amount
  deriving DecidableEq

def viewCell (cell : GridCell) : CellView := ⟨cell.state, cell.legSize, cell.legEntryPrice⟩

/-- The cell after a quantity of an entry has filled. -/
def entryView (cell : GridCell) (side : PositionSide) (filled price : Amount) : CellView :=
  viewCell (cell.entryFilled side 0 filled price)

theorem entryView_congr {cell other : GridCell} (h : viewCell other = viewCell cell)
    (side : PositionSide) (filled price : Amount) :
    entryView other side filled price = entryView cell side filled price := by
  obtain ⟨hstate, hleg, hentry⟩ := CellView.mk.inj h
  unfold entryView viewCell GridCell.entryFilled
  simp only [hstate, hleg, hentry]

theorem entryView_add (cell : GridCell) (side : PositionSide) (orderId : ℕ)
    {first second price : Amount} (hfirst : 0 < first) (hsecond : 0 < second) (hprice : 0 < price) :
    entryView (cell.entryFilled side orderId first price) side second price =
      entryView cell side (first + second) price := by
  unfold entryView viewCell GridCell.entryFilled
  simp only [if_true]
  generalize hprior : (if cell.state = .heldOn side then max 0 cell.legSize else 0) = prior
  have hnonneg : 0 ≤ prior := by
    rw [← hprior]
    split_ifs
    · exact le_max_left _ _
    · exact le_rfl
  have hheld : 0 < prior + first := by linarith
  have hall : 0 < prior + first + second := by linarith
  have hentry : 0 ≤ (max 0 cell.legEntryPrice * prior + price * first) / (prior + first) := by
    have := mul_nonneg (le_max_left 0 cell.legEntryPrice) hnonneg
    have := mul_pos hprice hfirst
    apply div_nonneg
    · linarith
    · exact hheld.le
  rw [max_eq_right hheld.le, if_pos hheld, max_eq_right hentry, if_pos hall,
    if_pos (by linarith : 0 < prior + (first + second)), div_mul_cancel₀ _ hheld.ne']
  refine CellView.mk.injEq .. ▸ ⟨rfl, by ring, ?_⟩
  rw [add_assoc]
  ring_nf

theorem viewCell_withExit {cell : GridCell} {side : PositionSide} (hheld : cell.state = .heldOn side)
    (hentry : 0 < cell.legEntryPrice) (price : Amount) :
    viewCell (cell.withOrder (.exitOf side) price cell.legSize) = viewCell cell := by
  have hexits : (GridPurpose.exitOf side).exits = true := by
    cases side <;> rfl
  have hside : (GridPurpose.exitOf side).posSide = side := by
    cases side <;> rfl
  unfold viewCell GridCell.withOrder GridCell.costBasis
  rw [if_pos hexits, if_pos hexits, hside, if_pos hentry, hheld]

theorem entryFilled_pos (cell : GridCell) (side : PositionSide) (orderId : ℕ)
    {filled price : Amount} (hfilled : 0 < filled) (hprice : 0 < price) :
    0 < (cell.entryFilled side orderId filled price).legSize ∧
      0 < (cell.entryFilled side orderId filled price).legEntryPrice := by
  unfold GridCell.entryFilled
  have hprior : 0 ≤ if cell.state = .heldOn side then max 0 cell.legSize else 0 := by
    split_ifs
    · exact le_max_left _ _
    · exact le_rfl
  have hheld : 0 < (if cell.state = .heldOn side then max 0 cell.legSize else 0) + filled := by
    linarith
  refine ⟨hheld, ?_⟩
  simp only [if_pos hheld]
  apply div_pos _ hheld
  have hvalue := mul_nonneg (le_max_left 0 cell.legEntryPrice) hprior
  have hadded := mul_pos hprice hfilled
  linarith

theorem exitCovered_recordPlaced {store : GridStore} {index : ℕ} {side : PositionSide}
    {price sent : Amount} (hnone : store.openOrdersForCell index (.exitOf side) = [])
    (hsent : 0 < sent) :
    (store.recordPlaced index (.exitOf side) price sent).ExitCovered index side sent := by
  have hopen : (store.recordPlaced index (.exitOf side) price sent).openOrdersForCell index
      (.exitOf side) = [{
        id := store.orders.length + 1
        cellIndex := index
        purpose := .exitOf side
        price := price
        quantity := sent
        entryGridOrderIds := if (GridPurpose.exitOf side).exits
          then ((store.cells index).map GridCell.entryGridOrderIds).getD [] else [] }] := by
    unfold GridStore.openOrdersForCell GridStore.openOrders at hnone ⊢
    simp only [GridStore.recordPlaced, List.filter_append, hnone, List.nil_append]
    simp [GridOrderStatus.isOpen]
  unfold GridStore.ExitCovered
  rw [hopen]
  simp only [List.map_cons, List.map_nil, List.sum_cons, List.sum_nil, GridRestingOrder.remaining,
    sub_zero, add_zero, max_eq_right hsent.le, sub_self, abs_zero]
  exact le_max_of_le_left (by norm_num)

/-- What a fill of an entry leaves: the cell has taken it up, and exits cover the leg. -/
structure EntryServed (spec : GridCellSpec) (side : PositionSide) (cell : GridCell)
    (filled price : Amount) (next : GridStore) : Prop where
  entered : ∃ row, next.cells spec.index = some row ∧
    viewCell row = entryView cell side filled price
  covered : next.ExitCovered spec.index side (entryView cell side filled price).legSize

theorem entryServed_recordPlaced {spec : GridCellSpec} {side : PositionSide} {cell next : GridCell}
    {filled price : Amount} {store : GridStore} (hview : viewCell next = entryView cell side filled price)
    (hheld : next.state = .heldOn side) (hentry : 0 < next.legEntryPrice)
    (hleg : 0 < next.legSize) (hcell : store.cells spec.index = some next)
    (hnone : store.openOrdersForCell spec.index (.exitOf side) = []) (exitPrice : Amount) :
    EntryServed spec side cell filled price
      (store.recordPlaced spec.index (.exitOf side) exitPrice next.legSize) := by
  refine ⟨⟨next.withOrder (.exitOf side) exitPrice next.legSize, ?_, ?_⟩, ?_⟩
  · rw [recordPlaced_cells, if_pos rfl, hcell]
    rfl
  · rw [viewCell_withExit hheld hentry, hview]
  · rw [← hview]
    exact exitCovered_recordPlaced hnone hleg

section Entry

variable {config : GridConfig} {order : GridRestingOrder} {price : Amount} {spec : GridCellSpec}

theorem deliverPart_entry (hswap : config.marketType = "swap") (hprice : 0 < price)
    (hspec : (config.cells.find? fun spec => spec.index = order.cellIndex) = some spec)
    (hentry : order.purpose.exits = false) {store : GridStore} {cell : GridCell}
    (hcell : store.cells spec.index = some cell) {status : GridOrderStatus} {part : FillPart}
    (hpos : 0 < part.quantity)
    (h : Unhindered config (commitPart config order price store status part.quantity).1 part.answers
      (commitPart config order price store status part.quantity).2) :
    EntryServed spec order.purpose.posSide cell part.quantity price
      (deliverPart config order price store status part) := by
  have hfilled : filledCell cell order part.quantity price =
      cell.entryFilled order.purpose.posSide order.id part.quantity price := by
    unfold filledCell
    rw [hentry]
    rfl
  have hrow : (committed config order price store spec cell status part.quantity).cells spec.index =
      some (cell.entryFilled order.purpose.posSide order.id part.quantity price) := by
    rw [committed_cells hswap hpos, if_pos rfl, hfilled]
  obtain ⟨hleg, hcost⟩ := entryFilled_pos cell order.purpose.posSide order.id hpos hprice
  unfold deliverPart
  rw [commitPart_eq hswap hspec hcell hprice hpos] at h ⊢
  unfold filledFollowUp at h ⊢
  rw [if_neg (by simp [hentry]), hfilled] at h ⊢
  generalize committed config order price store spec cell status part.quantity = rows at hrow h ⊢
  obtain ⟨hcovers, haligned, huncapped⟩ := h
  show EntryServed _ _ _ _ _ (rows.ensureCellExitCoverage config spec _ _ part.answers).1
  rcases ensureCellExitCoverage_true hcovers with ⟨hcovered, hsame⟩ | ⟨sent, hnone, hrests, hplaced⟩
  · rw [hsame]
    rw [haligned] at hcovered
    exact ⟨⟨_, hrow, rfl⟩, hcovered⟩
  · have hsent := hrests.sent
    rw [haligned] at hsent
    rw [hplaced, hsent.trans huncapped]
    have hcells : (exitsCancelled rows spec.index order.purpose.posSide part.answers.cancels).cells =
        rows.cells := (onlyCancels_cancelAll rows _ _).cells
    apply entryServed_recordPlaced _ _ hcost hleg _ hnone
    · rfl
    · rfl
    · rw [hcells, hrow]

theorem partsTotal_pos {completes : Bool} {parts : List FillPart} (hparts : parts ≠ [])
    {store : GridStore} (h : PartsUnhindered config order price completes store parts) :
    0 < partsTotal parts := by
  induction parts generalizing store with
  | nil => exact absurd rfl hparts
  | cons part rest ih =>
    obtain ⟨hpos, -, hrest⟩ := h
    unfold partsTotal at ih ⊢
    rw [List.map_cons, List.sum_cons]
    by_cases hempty : rest = []
    · simpa [hempty] using hpos
    · have := ih hempty hrest
      linarith

theorem deliverParts_entry (hswap : config.marketType = "swap") (hprice : 0 < price)
    (hspec : (config.cells.find? fun spec => spec.index = order.cellIndex) = some spec)
    (hentry : order.purpose.exits = false) {completes : Bool} {parts : List FillPart}
    (hparts : parts ≠ []) {store : GridStore} {cell : GridCell}
    (hcell : store.cells spec.index = some cell)
    (h : PartsUnhindered config order price completes store parts) :
    EntryServed spec order.purpose.posSide cell (partsTotal parts) price
      (deliverParts config order price completes store parts) := by
  induction parts generalizing store cell with
  | nil => exact absurd rfl hparts
  | cons part rest ih =>
    obtain ⟨hpos, hfirst, hrest⟩ := h
    have hserved := deliverPart_entry hswap hprice hspec hentry hcell hpos hfirst
    by_cases hempty : rest = []
    · subst hempty
      simpa [partsTotal, deliverParts] using hserved
    · obtain ⟨row, hrow, hview⟩ := hserved.entered
      have hlater := ih hempty hrow hrest
      have hmerged : entryView row order.purpose.posSide (partsTotal rest) price =
          entryView cell order.purpose.posSide (partsTotal (part :: rest)) price := by
        rw [entryView_congr hview, entryView_add cell _ 0 hpos (partsTotal_pos hempty hrest) hprice]
        rfl
      refine ⟨?_, ?_⟩
      · rw [← hmerged]
        exact hlater.entered
      · rw [← hmerged]
        exact hlater.covered

end Entry

/-! ## Exits -/

/-- INTERNAL: two stores differ in the legs and the trades only. -/
structure SameGrid (store other : GridStore) : Prop where
  cells : store.cells = other.cells
  orders : store.orders = other.orders
  lastMarketPrice : store.lastMarketPrice = other.lastMarketPrice
  stopRequested : store.stopRequested = other.stopRequested
  pausedEntries : store.pausedEntries = other.pausedEntries

theorem SameGrid.trans {store middle other : GridStore} (h : SameGrid store middle)
    (h' : SameGrid middle other) : SameGrid store other :=
  ⟨h.cells.trans h'.cells, h.orders.trans h'.orders,
    h.lastMarketPrice.trans h'.lastMarketPrice, h.stopRequested.trans h'.stopRequested,
    h.pausedEntries.trans h'.pausedEntries⟩

theorem SameGrid.symm {store other : GridStore} (h : SameGrid store other) : SameGrid other store :=
  ⟨h.cells.symm, h.orders.symm, h.lastMarketPrice.symm, h.stopRequested.symm, h.pausedEntries.symm⟩

theorem exitFilled_add (cell : GridCell) (side : PositionSide) (first : Amount) {second : Amount}
    (hsecond : 0 < second) :
    (cell.exitFilled side first).exitFilled side second = cell.exitFilled side (first + second) := by
  have hleft : max 0 (max 0 (max 0 (max 0 cell.legSize - first)) - second) =
      max 0 (max 0 cell.legSize - (first + second)) := by
    rcases le_total (max 0 cell.legSize - first) 0 with hsold | hleft
    · rw [max_eq_left hsold, max_self, max_eq_left (by linarith), max_eq_left (by linarith)]
    · rw [max_eq_right hleft, max_eq_right hleft, sub_sub]
  unfold GridCell.exitFilled
  simp only [hleft]
  by_cases hmore : 1 / 10 ^ 10 < max 0 (max 0 cell.legSize - (first + second))
  · have hmore' : 1 / 10 ^ 10 < max 0 (max 0 cell.legSize - first) :=
      lt_of_lt_of_le hmore (max_le_max le_rfl (by linarith))
    simp only [if_pos hmore, if_pos hmore']
  · simp only [if_neg hmore]

/-- The row of an order once a part has been handled. -/
def handledPart (row : GridRestingOrder) (status : GridOrderStatus) (quantity : Amount) :
    GridRestingOrder :=
  processesPart (observesPart row status quantity) quantity

theorem handledPart_add (row : GridRestingOrder) (status final : GridOrderStatus)
    (first second : Amount) :
    handledPart (handledPart row status first) final second =
      handledPart row final (first + second) := by
  unfold handledPart processesPart observesPart
  simp only [add_assoc]

/-- A cell that has been sold out and may be entered again. -/
def SoldOut (store : GridStore) (spec : GridCellSpec) (side : PositionSide) : Prop :=
  (∃ cell, store.cells spec.index = some cell ∧ cell.legSize ≤ 1 / 10 ^ 10) ∧
    store.pausedEntries = false ∧ store.CellAllowsEntry store.cellState spec.index side

def HasRow (store : GridStore) (order : GridRestingOrder) : Prop :=
  ∃ row ∈ store.orders, row.id = order.id ∧ row.purpose = order.purpose ∧
    row.cellIndex = order.cellIndex

theorem SameGrid.openOrdersForCell {store other : GridStore} (h : SameGrid store other) (index : ℕ)
    (purpose : GridPurpose) :
    store.openOrdersForCell index purpose = other.openOrdersForCell index purpose := by
  unfold GridStore.openOrdersForCell GridStore.openOrders
  rw [h.orders]

theorem SameGrid.soldOut_iff {store other : GridStore} (h : SameGrid store other)
    (spec : GridCellSpec) (side : PositionSide) : SoldOut store spec side ↔ SoldOut other spec side := by
  have hstates : store.cellState = other.cellState := by
    funext index
    unfold GridStore.cellState
    rw [h.cells]
  unfold SoldOut GridStore.CellAllowsEntry
  rw [h.cells, h.pausedEntries, hstates, h.openOrdersForCell, h.openOrdersForCell]

section Exit

variable {config : GridConfig} {order : GridRestingOrder} {price : Amount} {spec : GridCellSpec}

theorem committed_orders (store : GridStore) (cell : GridCell) (status : GridOrderStatus)
    (quantity : Amount) :
    (committed config order price store spec cell status quantity).orders =
      store.orders.map fun row =>
        if row.id = order.id then handledPart row status quantity else row := by
  show List.map _ (filledStore _ config spec cell order quantity price Dict.empty).orders = _
  rw [filledStore_orders]
  show List.map _ (List.map _ store.orders) = _
  rw [List.map_map]
  apply List.map_congr_left
  intro row _
  by_cases hid : row.id = order.id
  · simp [handledPart, observesPart, hid]
  · simp [hid]

theorem committed_flags (hprice : 0 < price) (store : GridStore) (cell : GridCell)
    (status : GridOrderStatus) (quantity : Amount) :
    (committed config order price store spec cell status quantity).lastMarketPrice = price ∧
      (committed config order price store spec cell status quantity).stopRequested =
        store.stopRequested ∧
      (committed config order price store spec cell status quantity).pausedEntries =
        store.pausedEntries := by
  have hobserved : ∀ rows : GridStore,
      rows.observeMarketPrice price = { rows with lastMarketPrice := price } := fun _ => if_pos hprice
  unfold committed filledStore
  rw [hobserved]
  exact ⟨rfl, rfl, rfl⟩

theorem hasRow_committed {store : GridStore} (h : HasRow store order) (cell : GridCell)
    (status : GridOrderStatus) (quantity : Amount) :
    HasRow (committed config order price store spec cell status quantity) order := by
  obtain ⟨row, hmem, hid, hpurpose, hcell⟩ := h
  refine ⟨handledPart row status quantity, ?_, hid, hpurpose, hcell⟩
  rw [committed_orders]
  exact List.mem_map.mpr ⟨row, hmem, if_pos hid⟩

theorem sameGrid_committed_add (hswap : config.marketType = "swap") (hprice : 0 < price)
    (hexit : order.purpose.exits = true) (store : GridStore) (cell : GridCell)
    (status final : GridOrderStatus) {first second : Amount} (hfirst : 0 < first)
    (hsecond : 0 < second) :
    SameGrid (committed config order price (committed config order price store spec cell status first)
        spec (cell.exitFilled order.purpose.posSide first) final second)
      (committed config order price store spec cell final (first + second)) := by
  have hfilled : ∀ (row : GridCell) (quantity : Amount), filledCell row order quantity price =
      row.exitFilled order.purpose.posSide quantity := fun _ _ => if_pos hexit
  obtain ⟨hlast, hstop, hpaused⟩ := committed_flags hprice store cell status first
  obtain ⟨hlast', hstop', hpaused'⟩ := committed_flags hprice
    (committed config order price store spec cell status first)
    (cell.exitFilled order.purpose.posSide first) final second
  obtain ⟨hlast'', hstop'', hpaused''⟩ := committed_flags hprice store cell final (first + second)
  refine ⟨?_, ?_, hlast'.trans hlast''.symm, hstop'.trans (hstop.trans hstop''.symm),
    hpaused'.trans (hpaused.trans hpaused''.symm)⟩
  · funext index
    rw [committed_cells hswap hsecond, committed_cells hswap hfirst,
      committed_cells hswap (add_pos hfirst hsecond), hfilled, hfilled, exitFilled_add _ _ _ hsecond]
    by_cases hindex : index = spec.index
    · simp only [if_pos hindex, hfilled]
    · simp only [if_neg hindex]
  · rw [committed_orders, committed_orders, committed_orders, List.map_map]
    apply List.map_congr_left
    intro row _
    by_cases hid : row.id = order.id
    · have hid' : (handledPart row status first).id = order.id := hid
      simp only [Function.comp_apply, if_pos hid, if_pos hid', handledPart_add]
    · simp only [Function.comp_apply, if_neg hid]

theorem purpose_exitOf (hexit : order.purpose.exits = true) :
    order.purpose = .exitOf order.purpose.posSide := by
  cases hpurpose : order.purpose with
  | longExit => rfl
  | shortExit => rfl
  | longEntry =>
    rw [hpurpose] at hexit
    exact nomatch hexit
  | shortEntry =>
    rw [hpurpose] at hexit
    exact nomatch hexit

theorem openOrdersForCell_processesPart (store : GridStore) (index : ℕ) (purpose : GridPurpose)
    (id : ℕ) (quantity : Amount) :
    (store.setOrder id fun row => processesPart row quantity).openOrdersForCell index purpose = [] ↔
      store.openOrdersForCell index purpose = [] := by
  unfold GridStore.openOrdersForCell GridStore.openOrders GridStore.setOrder
  rw [List.filter_filter, List.filter_filter, List.filter_map, List.map_eq_nil_iff]
  rw [List.filter_congr]
  intro row _
  by_cases hid : row.id = id
  · simp [hid, processesPart]
  · simp [hid]

theorem commitPart_exit (hswap : config.marketType = "swap") (hprice : 0 < price)
    (hspec : (config.cells.find? fun spec => spec.index = order.cellIndex) = some spec)
    (hexit : order.purpose.exits = true) {store : GridStore} {cell : GridCell}
    (hcell : store.cells spec.index = some cell) (status : GridOrderStatus) {quantity : Amount}
    (hpos : 0 < quantity) :
    (commitPart config order price store status quantity).1 =
        committed config order price store spec cell status quantity ∧
      ((SoldOut (committed config order price store spec cell status quantity) spec
          order.purpose.posSide ∧ (commitPart config order price store status quantity).2 =
            some (.reenter spec order.purpose.posSide quantity)) ∨
        (¬ SoldOut (committed config order price store spec cell status quantity) spec
          order.purpose.posSide ∧ (commitPart config order price store status quantity).2 = none)) := by
  have hrow : (committed config order price store spec cell status quantity).cells spec.index =
      some (filledCell cell order quantity price) := by
    rw [committed_cells hswap hpos, if_pos rfl]
  have hsold : ((filledCell cell order quantity price).legSize ≤ 1 / 10 ^ 10 ∧
      (filledStore (store.setOrder order.id fun row => observesPart row status quantity) config spec
        cell order quantity price Dict.empty).pausedEntries = false ∧
      (filledStore (store.setOrder order.id fun row => observesPart row status quantity) config spec
        cell order quantity price Dict.empty).CellAllowsEntry
          (filledStore (store.setOrder order.id fun row => observesPart row status quantity) config
            spec cell order quantity price Dict.empty).cellState spec.index order.purpose.posSide) ↔
      SoldOut (committed config order price store spec cell status quantity) spec
        order.purpose.posSide := by
    unfold SoldOut
    rw [hrow]
    unfold committed GridStore.CellAllowsEntry
    rw [openOrdersForCell_processesPart, openOrdersForCell_processesPart]
    constructor
    · rintro ⟨hleg, hpaused, hallows⟩
      exact ⟨⟨_, rfl, hleg⟩, hpaused, hallows⟩
    · rintro ⟨⟨_, hsame, hleg⟩, hpaused, hallows⟩
      cases hsame
      exact ⟨hleg, hpaused, hallows⟩
  rw [commitPart_eq hswap hspec hcell hprice hpos]
  refine ⟨rfl, ?_⟩
  unfold filledFollowUp
  rw [if_pos hexit]
  by_cases hout : SoldOut (committed config order price store spec cell status quantity) spec
      order.purpose.posSide
  · exact Or.inl ⟨hout, if_pos (hsold.mpr hout)⟩
  · exact Or.inr ⟨hout, if_neg fun h => hout (hsold.mp h)⟩

theorem not_soldOut_of_working (hexit : order.purpose.exits = true)
    (hindex : spec.index = order.cellIndex) {store : GridStore} (h : HasRow store order)
    (cell : GridCell) (quantity : Amount) :
    ¬ SoldOut (committed config order price store spec cell .partlyFilled quantity) spec
      order.purpose.posSide := by
  rintro ⟨-, -, -, -, hexits⟩
  obtain ⟨row, hmem, hid, hpurpose, hcell⟩ := h
  have hworks : handledPart row .partlyFilled quantity ∈ (committed config order price store spec cell
      .partlyFilled quantity).openOrdersForCell spec.index (.exitOf order.purpose.posSide) := by
    refine List.mem_filter.mpr ⟨List.mem_filter.mpr ⟨?_, rfl⟩, ?_⟩
    · rw [committed_orders]
      exact List.mem_map.mpr ⟨row, hmem, if_pos hid⟩
    · apply decide_eq_true
      exact ⟨hcell.trans hindex.symm, hpurpose.trans (purpose_exitOf hexit)⟩
  rw [hexits] at hworks
  exact nomatch hworks

/-- What the last part of an exit leaves: the cell is entered again when it has been sold out. -/
def ExitServed (spec : GridCellSpec) (side : PositionSide) (rows final : GridStore) : Prop :=
  (¬ SoldOut rows spec side ∧ final = rows) ∨
    (SoldOut rows spec side ∧ ∃ sent, final = rows.recordPlaced spec.index (.entryOf side)
      (rows.limitPrice (.entryOf side) (spec.entryPrice side)) sent)

theorem deliverPart_exit (hswap : config.marketType = "swap") (hprice : 0 < price)
    (hspec : (config.cells.find? fun spec => spec.index = order.cellIndex) = some spec)
    (hexit : order.purpose.exits = true) {store : GridStore} {cell : GridCell}
    (hcell : store.cells spec.index = some cell) {status : GridOrderStatus} {part : FillPart}
    (hpos : 0 < part.quantity)
    (h : Unhindered config (commitPart config order price store status part.quantity).1 part.answers
      (commitPart config order price store status part.quantity).2) :
    ExitServed spec order.purpose.posSide
      (committed config order price store spec cell status part.quantity)
      (deliverPart config order price store status part) := by
  obtain ⟨hrows, ⟨hout, hfollow⟩ | ⟨hout, hfollow⟩⟩ :=
    commitPart_exit hswap hprice hspec hexit hcell status hpos
  · unfold deliverPart
    rw [hrows, hfollow] at h ⊢
    refine Or.inr ⟨hout, ?_⟩
    rcases placeLimit_cases (committed config order price store spec cell status part.quantity) config
      spec.index (.entryOf order.purpose.posSide) (spec.entryPrice order.purpose.posSide)
      (some part.quantity) part.answers.place with ⟨-, hfalse⟩ | ⟨sent, -, hplaced⟩
    · exact absurd (hfalse.symm.trans h) (by decide)
    · exact ⟨sent, congrArg Prod.fst hplaced⟩
  · unfold deliverPart
    rw [hrows, hfollow]
    exact Or.inl ⟨hout, rfl⟩

theorem deliverParts_exit (hswap : config.marketType = "swap") (hprice : 0 < price)
    (hspec : (config.cells.find? fun spec => spec.index = order.cellIndex) = some spec)
    (hexit : order.purpose.exits = true) {completes : Bool} {parts : List FillPart}
    (hparts : parts ≠ []) {store : GridStore} {cell : GridCell} (hrow : HasRow store order)
    (hcell : store.cells spec.index = some cell)
    (h : PartsUnhindered config order price completes store parts) :
    ∃ rows, SameGrid rows (committed config order price store spec cell (partStatus completes [])
        (partsTotal parts)) ∧
      ExitServed spec order.purpose.posSide rows
        (deliverParts config order price completes store parts) := by
  induction parts generalizing store cell with
  | nil => exact absurd rfl hparts
  | cons part rest ih =>
    obtain ⟨hpos, hfirst, hrest⟩ := h
    have hserved := deliverPart_exit hswap hprice hspec hexit hcell hpos hfirst
    by_cases hempty : rest = []
    · subst hempty
      refine ⟨_, ?_, hserved⟩
      rw [show partsTotal [part] = part.quantity from by simp [partsTotal]]
      exact ⟨rfl, rfl, rfl, rfl, rfl⟩
    · have hstatus : partStatus completes rest = .partlyFilled := if_neg fun h => hempty h.1
      have hindex : spec.index = order.cellIndex := by
        simpa using List.find?_some hspec
      have hwaits : deliverPart config order price store (partStatus completes rest) part =
          committed config order price store spec cell .partlyFilled part.quantity := by
        rw [hstatus] at hserved ⊢
        rcases hserved with ⟨-, hsame⟩ | ⟨hout, -⟩
        · exact hsame
        · exact absurd hout (not_soldOut_of_working hexit hindex hrow cell part.quantity)
      have hnext : (committed config order price store spec cell .partlyFilled part.quantity).cells
          spec.index = some (cell.exitFilled order.purpose.posSide part.quantity) := by
        rw [committed_cells hswap hpos, if_pos rfl]
        unfold filledCell
        rw [if_pos hexit]
      show ∃ rows, SameGrid rows _ ∧ ExitServed _ _ rows (deliverParts config order price completes
        (deliverPart config order price store (partStatus completes rest) part) rest)
      rw [hwaits] at hrest ⊢
      obtain ⟨rows, hsame, hlast⟩ := ih hempty (hasRow_committed hrow cell _ _) hnext hrest
      refine ⟨rows, hsame.trans ?_, hlast⟩
      exact sameGrid_committed_add hswap hprice hexit store cell _ _ hpos
        (partsTotal_pos hempty hrest)

end Exit

/-! ## One fill or many -/

/-- Two ways of delivering a fill agree on its cell. The exits of an entry cover the same leg up to
the tolerance of the coverage; a cell that an exit has sold out is entered again in both or in
neither, and the leg of a cell that is entered again is the new order's. -/
structure DeliveriesAgree (spec : GridCellSpec) (order : GridRestingOrder) (parted whole : GridStore) :
    Prop where
  cells : ∃ row other, parted.cells spec.index = some row ∧ whole.cells spec.index = some other ∧
    row.state = other.state ∧ row.legEntryPrice = other.legEntryPrice ∧
    (order.purpose.exits = false → row.legSize = other.legSize ∧
      parted.ExitCovered spec.index order.purpose.posSide row.legSize ∧
      whole.ExitCovered spec.index order.purpose.posSide other.legSize) ∧
    (order.purpose.exits = true → row.state ≠ .openOn order.purpose.posSide →
      row.legSize = other.legSize)
  entries : order.purpose.exits = true →
    (parted.openOrdersForCell spec.index (.entryOf order.purpose.posSide)).length =
      (whole.openOrdersForCell spec.index (.entryOf order.purpose.posSide)).length
  exits : order.purpose.exits = true →
    parted.openOrdersForCell spec.index (.exitOf order.purpose.posSide) =
      whole.openOrdersForCell spec.index (.exitOf order.purpose.posSide)

theorem EntryServed.agree {spec : GridCellSpec} {order : GridRestingOrder} {cell : GridCell}
    {filled price : Amount} {parted whole : GridStore} (hentry : order.purpose.exits = false)
    (h : EntryServed spec order.purpose.posSide cell filled price parted)
    (h' : EntryServed spec order.purpose.posSide cell filled price whole) :
    DeliveriesAgree spec order parted whole := by
  have hnot : order.purpose.exits ≠ true := by simp [hentry]
  obtain ⟨row, hrow, hview⟩ := h.entered
  obtain ⟨other, hother, hview'⟩ := h'.entered
  obtain ⟨hstate, hleg, hcost⟩ := CellView.mk.inj (hview.trans hview'.symm)
  refine ⟨⟨row, other, hrow, hother, hstate, hcost, ?_, fun hexit => absurd hexit hnot⟩,
    fun hexit => absurd hexit hnot, fun hexit => absurd hexit hnot⟩
  intro _
  refine ⟨hleg, ?_, ?_⟩
  · have hcovered := h.covered
    rw [← hview] at hcovered
    exact hcovered
  · have hcovered := h'.covered
    rw [← hview'] at hcovered
    exact hcovered

theorem length_entries_recordPlaced {store : GridStore} {index : ℕ} {side : PositionSide}
    (hnone : store.openOrdersForCell index (.entryOf side) = []) (price sent : Amount) :
    ((store.recordPlaced index (.entryOf side) price sent).openOrdersForCell index
      (.entryOf side)).length = 1 := by
  unfold GridStore.openOrdersForCell GridStore.openOrders at hnone ⊢
  simp only [GridStore.recordPlaced, List.filter_append, hnone, List.nil_append]
  simp [GridOrderStatus.isOpen]

theorem cells_reentered {store : GridStore} {index : ℕ} {cell : GridCell}
    (hcell : store.cells index = some cell) (side : PositionSide) (price sent : Amount) :
    ∃ row, (store.recordPlaced index (.entryOf side) price sent).cells index = some row ∧
      row.state = .openOn side ∧ row.legEntryPrice = price := by
  have hrow : (store.recordPlaced index (.entryOf side) price sent).cells index =
      some (cell.withOrder (.entryOf side) price sent) := by
    rw [recordPlaced_cells, if_pos rfl, hcell]
    rfl
  refine ⟨_, hrow, ?_, ?_⟩
  · cases side <;> rfl
  · cases side <;> rfl

theorem exits_recordPlaced_entry (store : GridStore) (index : ℕ) (side : PositionSide)
    (price sent : Amount) :
    (store.recordPlaced index (.entryOf side) price sent).openOrdersForCell index (.exitOf side) =
      store.openOrdersForCell index (.exitOf side) := by
  have hne : GridPurpose.entryOf side ≠ .exitOf side := by
    cases side <;> decide
  unfold GridStore.openOrdersForCell GridStore.openOrders
  simp only [GridStore.recordPlaced, List.filter_append]
  simp [GridOrderStatus.isOpen, hne]

theorem ExitServed.agree {spec : GridCellSpec} {order : GridRestingOrder} {cell : GridCell}
    {rows others parted whole : GridStore} (hexit : order.purpose.exits = true)
    (hsame : SameGrid rows others) (hcell : rows.cells spec.index = some cell)
    (h : ExitServed spec order.purpose.posSide rows parted)
    (h' : ExitServed spec order.purpose.posSide others whole) :
    DeliveriesAgree spec order parted whole := by
  have hnot : order.purpose.exits ≠ false := by simp [hexit]
  have hcell' : others.cells spec.index = some cell := hsame.cells ▸ hcell
  rcases h with ⟨hkept, rfl⟩ | ⟨hout, sent, rfl⟩
  · rcases h' with ⟨-, rfl⟩ | ⟨hout', -⟩
    · refine ⟨⟨cell, cell, hcell, hcell', rfl, rfl, fun hentry => absurd hentry hnot,
        fun _ _ => rfl⟩, ?_, fun _ => hsame.openOrdersForCell _ _⟩
      intro _
      rw [hsame.openOrdersForCell]
    · exact absurd ((hsame.soldOut_iff spec _).mpr hout') hkept
  · rcases h' with ⟨hkept', -⟩ | ⟨hout', sent', rfl⟩
    · exact absurd ((hsame.soldOut_iff spec _).mp hout) hkept'
    · have hprice : rows.limitPrice (.entryOf order.purpose.posSide)
          (spec.entryPrice order.purpose.posSide) = others.limitPrice
            (.entryOf order.purpose.posSide) (spec.entryPrice order.purpose.posSide) := by
        unfold GridStore.limitPrice
        rw [hsame.lastMarketPrice]
      obtain ⟨row, hrow, hstate, hcost⟩ := cells_reentered hcell order.purpose.posSide
        (rows.limitPrice (.entryOf order.purpose.posSide) (spec.entryPrice order.purpose.posSide)) sent
      obtain ⟨other, hother, hstate', hcost'⟩ := cells_reentered hcell' order.purpose.posSide
        (others.limitPrice (.entryOf order.purpose.posSide) (spec.entryPrice order.purpose.posSide))
        sent'
      refine ⟨⟨row, other, hrow, hother, hstate.trans hstate'.symm, ?_,
        fun hentry => absurd hentry hnot, fun _ hopen => absurd hstate hopen⟩, ?_, ?_⟩
      · rw [hcost, hcost', hprice]
      · intro _
        rw [length_entries_recordPlaced hout.2.2.2.1, length_entries_recordPlaced hout'.2.2.2.1]
      · intro _
        rw [exits_recordPlaced_entry, exits_recordPlaced_entry, hsame.openOrdersForCell]

/-- **A grid cell does not depend on how a fill is chunked**: whether a fill is delivered at once
or in parts, its cell ends in the same state with the same entry price; an entry makes the same leg
and exits cover it, and an exit leaves the same leg, or a new entry in both runs. -/
theorem chunked_fills_agree {config : GridConfig} {order : GridRestingOrder} {price : Amount}
    {store : GridStore} {spec : GridCellSpec} {cell : GridCell} (hswap : config.marketType = "swap")
    (hprice : 0 < price)
    (hspec : (config.cells.find? fun spec => spec.index = order.cellIndex) = some spec)
    (hcell : store.cells spec.index = some cell) (horder : order ∈ store.openOrders)
    {completes : Bool} {parts : List FillPart} {answers : CoverAnswers} (hparts : parts ≠ [])
    (hparted : PartsUnhindered config order price completes store parts)
    (hwhole : PartsUnhindered config order price completes store [⟨partsTotal parts, answers⟩]) :
    DeliveriesAgree spec order (deliverParts config order price completes store parts)
      (deliverParts config order price completes store [⟨partsTotal parts, answers⟩]) := by
  have htotal : partsTotal [⟨partsTotal parts, answers⟩] = partsTotal parts := by
    simp [partsTotal]
  by_cases hexit : order.purpose.exits = true
  · have hrow : HasRow store order := ⟨order, (List.mem_filter.mp horder).1, rfl, rfl, rfl⟩
    obtain ⟨rows, hsame, hserved⟩ := deliverParts_exit hswap hprice hspec hexit hparts hrow hcell
      hparted
    obtain ⟨others, hsame', hserved'⟩ := deliverParts_exit hswap hprice hspec hexit
      (List.cons_ne_nil _ _) hrow hcell hwhole
    rw [htotal] at hsame'
    have hfilled : rows.cells spec.index = some (filledCell cell order (partsTotal parts) price) := by
      rw [hsame.cells, committed_cells hswap (partsTotal_pos hparts hparted), if_pos rfl]
    exact ExitServed.agree hexit (hsame.trans hsame'.symm) hfilled hserved hserved'
  · have hentry : order.purpose.exits = false := by simpa using hexit
    have hserved := deliverParts_entry hswap hprice hspec hentry hparts hcell hparted
    have hserved' := deliverParts_entry hswap hprice hspec hentry (List.cons_ne_nil _ _) hcell hwhole
    rw [htotal] at hserved'
    exact EntryServed.agree hentry hserved hserved'

/-- A cell from 1 to 2 whose entry of a given quantity works. -/
private def entryStore (quantity : Amount) : GridStore where
  cells := fun index => if index = 0 then
    some { lowerPrice := 1, upperPrice := 2, state := .buyOpen, legSize := quantity,
           legEntryPrice := 1 } else none
  orders := [⟨1, 0, .longEntry, 1, quantity, .working, 0, 0, 0, []⟩]

private def entryOrder (quantity : Amount) : GridRestingOrder :=
  ⟨1, 0, .longEntry, 1, quantity, .working, 0, 0, 0, []⟩

private def entryConfig : GridConfig where
  cells := [⟨0, 1, 2⟩]

/-- The account shows a position of the quantity. -/
private def coveredBy (quantity : Amount) : CoverAnswers where
  place := { exit := { exchangeSize := quantity } }

instance (config : GridConfig) (store : GridStore) (answers : CoverAnswers)
    (followUp : Option GridFollowUp) : Decidable (Unhindered config store answers followUp) := by
  cases followUp with
  | none => exact isTrue trivial
  | some followUp =>
    cases followUp with
    | cover spec side quantity => exact inferInstanceAs (Decidable (_ ∧ _ ∧ _))
    | reenter spec side quantity => exact inferInstanceAs (Decidable (_ = _))

instance decidablePartsUnhindered (config : GridConfig) (order : GridRestingOrder) (price : Amount)
    (completes : Bool) : (store : GridStore) → (parts : List FillPart) →
    Decidable (PartsUnhindered config order price completes store parts)
  | _, [] => isTrue trivial
  | store, part :: rest =>
    have := decidablePartsUnhindered config order price completes
      (deliverPart config order price store (partStatus completes rest) part) rest
    inferInstanceAs (Decidable (_ ∧ _ ∧ _))

/-- An entry of 3 that fills at once or in parts of 1 and 2. -/
theorem three_fill_in_two_parts : DeliveriesAgree ⟨0, 1, 2⟩ (entryOrder 3)
    (deliverParts entryConfig (entryOrder 3) 1 true (entryStore 3)
      [⟨1, coveredBy 3⟩, ⟨2, coveredBy 3⟩])
    (deliverParts entryConfig (entryOrder 3) 1 true (entryStore 3)
      [⟨partsTotal [⟨1, coveredBy 3⟩, ⟨2, coveredBy 3⟩], coveredBy 3⟩]) := by
  apply chunked_fills_agree
  · rfl
  · norm_num
  · rfl
  · rfl
  · exact List.mem_cons_self
  · exact List.cons_ne_nil _ _
  · decide +kernel
  · decide +kernel

def workingQuantity (store : GridStore) (index : ℕ) (purpose : GridPurpose) : Amount :=
  ((store.openOrdersForCell index purpose).map GridRestingOrder.remaining).sum

/-- Two stores agree on a cell and on the quantities that work for it. -/
structure SameOutcome (index : ℕ) (parted whole : GridStore) : Prop where
  cells : (parted.cells index).map viewCell = (whole.cells index).map viewCell
  working : ∀ purpose, workingQuantity parted index purpose = workingQuantity whole index purpose

/-- An entry of 10 ^ 9 fills up to 5: the exit of the first part is within the tolerance of the
whole leg, so 5 of it are never offered. -/
theorem tolerated_part_is_not_offered : ¬ ∀ (config : GridConfig) (order : GridRestingOrder)
    (price : Amount) (store : GridStore) (spec : GridCellSpec) (cell : GridCell) (completes : Bool)
    (parts : List FillPart) (answers : CoverAnswers), config.marketType = "swap" → 0 < price →
    (config.cells.find? fun spec => spec.index = order.cellIndex) = some spec →
    store.cells spec.index = some cell → order ∈ store.openOrders → parts ≠ [] →
    PartsUnhindered config order price completes store parts →
    PartsUnhindered config order price completes store [⟨partsTotal parts, answers⟩] →
    SameOutcome spec.index (deliverParts config order price completes store parts)
      (deliverParts config order price completes store [⟨partsTotal parts, answers⟩]) := by
  intro hclaim
  have hworking := (hclaim entryConfig (entryOrder (10 ^ 9)) 1 (entryStore (10 ^ 9)) ⟨0, 1, 2⟩ _ true
    [⟨10 ^ 9 - 5, coveredBy (10 ^ 9)⟩, ⟨5, coveredBy (10 ^ 9)⟩] (coveredBy (10 ^ 9)) rfl (by norm_num)
    rfl rfl List.mem_cons_self (List.cons_ne_nil _ _) (by decide +kernel)
    (by decide +kernel)).working .longExit
  have hparted : workingQuantity (deliverParts entryConfig (entryOrder (10 ^ 9)) 1 true
      (entryStore (10 ^ 9)) [⟨10 ^ 9 - 5, coveredBy (10 ^ 9)⟩, ⟨5, coveredBy (10 ^ 9)⟩]) 0 .longExit =
        10 ^ 9 - 5 := by
    decide +kernel
  have hwhole : workingQuantity (deliverParts entryConfig (entryOrder (10 ^ 9)) 1 true
      (entryStore (10 ^ 9)) [⟨partsTotal [⟨10 ^ 9 - 5, coveredBy (10 ^ 9)⟩, ⟨5, coveredBy (10 ^ 9)⟩],
        coveredBy (10 ^ 9)⟩]) 0 .longExit = 10 ^ 9 := by
    decide +kernel
  rw [show (⟨0, 1, 2⟩ : GridCellSpec).index = 0 from rfl, hparted, hwhole] at hworking
  norm_num at hworking

end QuantDinger.Analysis
