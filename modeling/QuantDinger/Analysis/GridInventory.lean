import QuantDinger.Library.Runs
import QuantDinger.Analysis.GridSteps

/-!
# The inventory of a grid cell

`leg_size` of a held cell is meant to be what its entries filled and its exits have not yet
sold. The fills keep it so, but `_place_limit` writes the quantity of the exit it has sent over
it, which the caps and the lot size can make smaller. In the runs where every exit goes out for
the whole leg, and every fill finds its cell in a state its order can have left it in, the leg
size is the net quantity filled since the cell was last idle.
-/

namespace QuantDinger.Analysis

open QuantDinger.Library
open QuantDinger.Model
open QuantDinger.Model.Live

/-! ## Runs -/

/-- A call that can write a cell: a fill of an order, the coverage of a cell, and a placement.
The follow-up of a fill is a coverage or a placement. -/
inductive InventoryAction
  | fill (orderId : ℕ) (quantity price : Amount) (fees : Fees)
  | cover (spec : GridCellSpec) (side : PositionSide) (quantity : Amount) (answers : CoverAnswers)
  | place (index : ℕ) (purpose : GridPurpose) (price : Amount) (quantity : Option Amount)
      (answers : PlaceAnswers)

/-- The rows of a grid next to what the fills of each cell add up to since it was last idle:
those of its entries less those of its exits. -/
structure TalliedGrid where
  store : GridStore
  net : ℕ → Amount := fun _ => 0

namespace TalliedGrid

/-- The tally of a cell at the start of a step: it begins again in an idle cell. -/
def sinceIdle (grid : TalliedGrid) (index : ℕ) : Amount :=
  if grid.store.cellState index = .idle then 0 else grid.net index

def contribution (order : GridRestingOrder) (quantity : Amount) (index : ℕ) : Amount :=
  if index = order.cellIndex then (if order.purpose.exits then -quantity else quantity) else 0

/-- One call; a fill that is refused is rolled back. -/
def act (config : GridConfig) (grid : TalliedGrid) : InventoryAction → TalliedGrid
  | .fill orderId quantity price fees =>
    match grid.store.order? orderId with
    | none => grid
    | some order =>
      match grid.store.onOrderFilled config order quantity price fees with
      | .error _ => grid
      | .ok (store, _) =>
        ⟨store, fun index => grid.sinceIdle index + contribution order quantity index⟩
  | .cover spec side quantity answers =>
    ⟨(grid.store.ensureCellExitCoverage config spec side quantity answers).1, grid.sinceIdle⟩
  | .place index purpose price quantity answers =>
    ⟨(grid.store.placeLimit config index purpose price quantity answers).1, grid.sinceIdle⟩

end TalliedGrid

def GridCellState.Held (state : GridCellState) : Prop := state = .longHeld ∨ state = .shortHeld

def GridCellState.Working (state : GridCellState) : Prop := state = .buyOpen ∨ state = .sellOpen

instance (state : GridCellState) : Decidable (GridCellState.Held state) :=
  inferInstanceAs (Decidable (_ ∨ _))

instance (state : GridCellState) : Decidable (GridCellState.Working state) :=
  inferInstanceAs (Decidable (_ ∨ _))

/-- The leg size of every held cell is its tally, and the tally of every idle cell is used
up. -/
def Conserved (grid : TalliedGrid) : Prop :=
  ∀ index cell, grid.store.cells index = some cell →
    (GridCellState.Held cell.state → cell.legSize = grid.net index) ∧
    (cell.state = .idle → grid.net index ≤ 1 / 10 ^ 10)

/-! ## The condition -/

/-- A placement that rests leaves the leg of its cell alone: an entry is for a cell that holds
nothing, and an exit is sent for the whole leg of a held cell. -/
def KeepsLeg (store : GridStore) (config : GridConfig) (index : ℕ) (purpose : GridPurpose)
    (price : Amount) (quantity : Option Amount) (answers : PlaceAnswers) : Prop :=
  (store.placeLimit config index purpose price quantity answers).2 = true →
    ∀ cell ∈ store.cells index,
      if purpose.exits then GridCellState.Held cell.state ∧
        sentQuantity store config purpose (store.limitPrice purpose price)
          (requestedQuantity store config index purpose price quantity) answers.exit = cell.legSize
      else ¬ GridCellState.Held cell.state

/-- A fill finds its cell as its order can have left it: the cell of an entry holds nothing of
the other side, and the cell of an exit does not wait for an entry. -/
def FindsCell (store : GridStore) (order : GridRestingOrder) : Prop :=
  ∀ cell ∈ store.cells order.cellIndex,
    if order.purpose.exits then ¬ GridCellState.Working cell.state
    else GridCellState.Held cell.state → cell.state = .heldOn order.purpose.posSide

def LegRespecting (config : GridConfig) (grid : TalliedGrid) : InventoryAction → Prop
  | .fill orderId _ _ _ => ∀ order ∈ grid.store.order? orderId, FindsCell grid.store order
  | .cover spec side quantity answers =>
    ¬ grid.store.ExitCovered spec.index side
      (config.normalizeBaseQty quantity (spec.exitPrice side)) →
    KeepsLeg (exitsCancelled grid.store spec.index side answers.cancels) config spec.index
      (.exitOf side) (spec.exitPrice side)
      (some (config.normalizeBaseQty quantity (spec.exitPrice side))) answers.place
  | .place index purpose price quantity answers =>
    KeepsLeg grid.store config index purpose price quantity answers

instance (store : GridStore) (config : GridConfig) (index : ℕ) (purpose : GridPurpose)
    (price : Amount) (quantity : Option Amount) (answers : PlaceAnswers) :
    Decidable (KeepsLeg store config index purpose price quantity answers) := by
  unfold KeepsLeg
  infer_instance

instance (store : GridStore) (order : GridRestingOrder) : Decidable (FindsCell store order) := by
  unfold FindsCell
  infer_instance

instance (config : GridConfig) (grid : TalliedGrid) (action : InventoryAction) :
    Decidable (LegRespecting config grid action) := by
  unfold LegRespecting
  split <;> infer_instance

/-! ## One cell -/

/-- What holds between a cell and its tally. -/
structure CellTallied (cell : GridCell) (net : Amount) : Prop where
  nonneg : 0 ≤ cell.legSize
  held : GridCellState.Held cell.state → cell.legSize = net
  working : GridCellState.Working cell.state → net = 0
  idle : cell.state = .idle → net ≤ 1 / 10 ^ 10 ∧ cell.legSize ≤ 1 / 10 ^ 10

theorem state_cases (state : GridCellState) :
    GridCellState.Held state ∨ GridCellState.Working state ∨ state = .idle := by
  cases state with
  | idle => exact Or.inr (Or.inr rfl)
  | buyOpen => exact Or.inr (Or.inl (Or.inl rfl))
  | longHeld => exact Or.inl (Or.inl rfl)
  | sellOpen => exact Or.inr (Or.inl (Or.inr rfl))
  | shortHeld => exact Or.inl (Or.inr rfl)

theorem held_heldOn (side : PositionSide) : GridCellState.Held (.heldOn side) := by
  cases side with
  | long => exact Or.inl rfl
  | short => exact Or.inr rfl

theorem working_openOn (side : PositionSide) : GridCellState.Working (.openOn side) := by
  cases side with
  | long => exact Or.inl rfl
  | short => exact Or.inr rfl

theorem Held.not_idle {state : GridCellState} (h : GridCellState.Held state) : state ≠ .idle := by
  rcases h with rfl | rfl <;> decide

theorem Held.not_working {state : GridCellState} (h : GridCellState.Held state) :
    ¬ GridCellState.Working state := by
  rcases h with rfl | rfl <;> decide

theorem Working.not_idle {state : GridCellState} (h : GridCellState.Working state) :
    state ≠ .idle := by
  rcases h with rfl | rfl <;> decide

theorem cellTallied_of_held {cell : GridCell} {net : Amount} (hstate : GridCellState.Held cell.state)
    (hleg : cell.legSize = net) (hnonneg : 0 ≤ net) : CellTallied cell net where
  nonneg := hleg ▸ hnonneg
  held := fun _ => hleg
  working := fun h => absurd h (Held.not_working hstate)
  idle := fun h => absurd h (Held.not_idle hstate)

theorem CellTallied.restart {cell : GridCell} {net : Amount} (h : CellTallied cell net) :
    CellTallied cell (if cell.state = .idle then 0 else net) := by
  by_cases hidle : cell.state = .idle
  · rw [if_pos hidle]
    refine ⟨h.nonneg, ?_, fun _ => rfl, fun _ => ⟨by norm_num, (h.idle hidle).2⟩⟩
    intro hheld
    exact absurd hidle (Held.not_idle hheld)
  · rw [if_neg hidle]
    exact h

theorem CellTallied.entryFilled {cell : GridCell} {net : Amount} (h : CellTallied cell net)
    {side : PositionSide} (hside : GridCellState.Held cell.state → cell.state = .heldOn side)
    (orderId : ℕ) {filled : Amount} (hfilled : 0 < filled) (price : Amount) :
    CellTallied (cell.entryFilled side orderId filled price)
      ((if cell.state = .idle then 0 else net) + filled) := by
  have hprior : (if cell.state = .heldOn side then max 0 cell.legSize else 0) =
      if cell.state = .idle then 0 else net := by
    rcases state_cases cell.state with hheld | hworking | hidle
    · rw [if_pos (hside hheld), if_neg (Held.not_idle hheld), max_eq_right h.nonneg, h.held hheld]
    · have hother : cell.state ≠ .heldOn side := fun heq =>
        Held.not_working (held_heldOn side) (heq ▸ hworking)
      rw [if_neg hother, if_neg (Working.not_idle hworking), h.working hworking]
    · have hother : cell.state ≠ .heldOn side := fun heq =>
        Held.not_idle (held_heldOn side) (heq ▸ hidle)
      rw [if_neg hother, if_pos hidle]
  have hnonneg : 0 ≤ if cell.state = .heldOn side then max 0 cell.legSize else 0 := by
    split_ifs
    · exact le_max_left _ _
    · exact le_rfl
  rw [← hprior]
  exact cellTallied_of_held (held_heldOn side) rfl (by linarith)

theorem CellTallied.exitFilled {cell : GridCell} {net : Amount} (h : CellTallied cell net)
    (hstate : ¬ GridCellState.Working cell.state) (side : PositionSide) {filled : Amount}
    (hfilled : 0 < filled) :
    CellTallied (cell.exitFilled side filled)
      ((if cell.state = .idle then 0 else net) + -filled) := by
  have hleg : max 0 cell.legSize = cell.legSize := max_eq_right h.nonneg
  have hremaining : (cell.exitFilled side filled).legSize = max 0 (cell.legSize - filled) := by
    show max 0 (max 0 cell.legSize - filled) = _
    rw [hleg]
  have hnext : (cell.exitFilled side filled).state =
      if 1 / 10 ^ 10 < max 0 (cell.legSize - filled) then .heldOn side else .idle := by
    show (if 1 / 10 ^ 10 < max 0 (max 0 cell.legSize - filled) then _ else _) = _
    rw [hleg]
  -- a cell that still holds more than dust held its tally before
  by_cases hmore : 1 / 10 ^ 10 < max 0 (cell.legSize - filled)
  · rw [if_pos hmore] at hnext
    have hpos : 1 / 10 ^ 10 < cell.legSize - filled := by
      rcases lt_max_iff.mp hmore with hzero | hpos
      · norm_num at hzero
      · exact hpos
    have hdust : (0 : Amount) < 1 / 10 ^ 10 := by norm_num
    have hheld : GridCellState.Held cell.state := by
      rcases state_cases cell.state with hheld | hworking | hidle
      · exact hheld
      · exact absurd hworking hstate
      · have := (h.idle hidle).2
        linarith
    rw [if_neg (Held.not_idle hheld)]
    apply cellTallied_of_held
    · rw [hnext]
      exact held_heldOn side
    · rw [hremaining, max_eq_right (by linarith), h.held hheld]
      ring
    · rw [← h.held hheld]
      linarith
  · rw [if_neg hmore] at hnext
    have hless := not_lt.mp hmore
    refine ⟨?_, ?_, ?_, ?_⟩
    · rw [hremaining]
      exact le_max_left _ _
    · intro hheld
      exact absurd hnext (Held.not_idle hheld)
    · intro hworking
      exact absurd hnext (Working.not_idle hworking)
    · intro _
      refine ⟨?_, hremaining ▸ hless⟩
      rcases state_cases cell.state with hheld | hworking | hidle
      · rw [if_neg (Held.not_idle hheld), ← h.held hheld]
        have := (le_max_right 0 (cell.legSize - filled)).trans hless
        linarith
      · exact absurd hworking hstate
      · rw [if_pos hidle]
        have : (0 : Amount) < 1 / 10 ^ 10 := by norm_num
        linarith

theorem CellTallied.withEntry {cell : GridCell} {net : Amount} (h : CellTallied cell net)
    (hstate : ¬ GridCellState.Held cell.state) {purpose : GridPurpose}
    (hentry : purpose.exits = false) (price : Amount) {quantity : Amount} (hpos : 0 < quantity) :
    CellTallied (cell.withOrder purpose price quantity)
      (if cell.state = .idle then 0 else net) := by
  have hnext : (cell.withOrder purpose price quantity).state = .openOn purpose.posSide := by
    show (if purpose.exits = true then _ else _) = _
    rw [hentry]
    rfl
  have hworking : GridCellState.Working (cell.withOrder purpose price quantity).state :=
    hnext ▸ working_openOn purpose.posSide
  refine ⟨hpos.le, ?_, ?_, ?_⟩
  · intro hheld
    exact absurd hworking (Held.not_working hheld)
  · intro _
    rcases state_cases cell.state with hheld | hwaits | hidle
    · exact absurd hheld hstate
    · rw [if_neg (Working.not_idle hwaits), h.working hwaits]
    · rw [if_pos hidle]
  · intro hidle
    exact absurd hidle (Working.not_idle hworking)

theorem CellTallied.withExit {cell : GridCell} {net : Amount} (h : CellTallied cell net)
    (hstate : GridCellState.Held cell.state) {purpose : GridPurpose}
    (hexit : purpose.exits = true) (price : Amount) :
    CellTallied (cell.withOrder purpose price cell.legSize)
      (if cell.state = .idle then 0 else net) := by
  have hnext : (cell.withOrder purpose price cell.legSize).state = .heldOn purpose.posSide := by
    show (if purpose.exits = true then _ else _) = _
    rw [if_pos hexit]
  rw [if_neg (Held.not_idle hstate)]
  apply cellTallied_of_held
  · rw [hnext]
    exact held_heldOn purpose.posSide
  · exact h.held hstate
  · rw [← h.held hstate]
    exact h.nonneg

/-! ## The rows -/

/-- Every row belongs to a cell of the configuration and agrees with its tally. -/
structure Tallies (config : GridConfig) (grid : TalliedGrid) : Prop where
  listed : ∀ index, (grid.store.cells index).isSome → ∃ spec ∈ config.cells, spec.index = index
  cell : ∀ index cell, grid.store.cells index = some cell → CellTallied cell (grid.net index)

theorem Tallies.conserved {config : GridConfig} {grid : TalliedGrid} (h : Tallies config grid) :
    Conserved grid := by
  intro index cell hcell
  have htallied := h.cell index cell hcell
  exact ⟨htallied.held, fun hidle => (htallied.idle hidle).1⟩

theorem sinceIdle_eq {grid : TalliedGrid} {index : ℕ} {cell : GridCell}
    (hcell : grid.store.cells index = some cell) :
    grid.sinceIdle index = if cell.state = .idle then 0 else grid.net index := by
  unfold TalliedGrid.sinceIdle GridStore.cellState
  rw [hcell]
  rfl

theorem Tallies.same_cells {config : GridConfig} {grid : TalliedGrid} (h : Tallies config grid)
    {store : GridStore} (hcells : store.cells = grid.store.cells) :
    Tallies config ⟨store, grid.sinceIdle⟩ := by
  refine ⟨?_, ?_⟩
  · intro index hsome
    exact h.listed index (hcells ▸ hsome)
  · intro index cell hcell
    replace hcell : grid.store.cells index = some cell := hcells ▸ hcell
    show CellTallied cell (grid.sinceIdle index)
    rw [sinceIdle_eq hcell]
    exact (h.cell index cell hcell).restart

theorem Tallies.place {config : GridConfig} {grid : TalliedGrid} (h : Tallies config grid)
    {store : GridStore} (hcells : store.cells = grid.store.cells) {index : ℕ}
    {purpose : GridPurpose} {price : Amount} {quantity : Option Amount} {answers : PlaceAnswers}
    (hkeeps : KeepsLeg store config index purpose price quantity answers) :
    Tallies config
      ⟨(store.placeLimit config index purpose price quantity answers).1, grid.sinceIdle⟩ := by
  rcases placeLimit_cases store config index purpose price quantity answers with
    ⟨hcancels, -⟩ | ⟨sent, hrests, hplaced⟩
  · exact h.same_cells (hcancels.cells.trans hcells)
  have hfits := hkeeps (by rw [hplaced])
  rw [hplaced]
  refine ⟨?_, ?_⟩
  · intro other hsome
    rw [recordPlaced_cells] at hsome
    apply h.listed
    rw [← hcells]
    by_cases hother : other = index
    · subst hother
      simpa using hsome
    · simpa [hother] using hsome
  · intro other cell hcell
    rw [recordPlaced_cells] at hcell
    by_cases hother : other = index
    · subst hother
      rw [if_pos rfl] at hcell
      obtain ⟨before, hbefore, rfl⟩ := Option.map_eq_some_iff.mp hcell
      have hrow : grid.store.cells other = some before := hcells ▸ hbefore
      show CellTallied _ (grid.sinceIdle other)
      rw [sinceIdle_eq hrow]
      have hfit := hfits before hbefore
      by_cases hexit : purpose.exits = true
      · rw [if_pos hexit] at hfit
        rw [hrests.sent, hfit.2]
        exact (h.cell other before hrow).withExit hfit.1 hexit _
      · rw [if_neg hexit] at hfit
        exact (h.cell other before hrow).withEntry hfit (Bool.not_eq_true _ ▸ hexit) _
          hrests.positive
    · rw [if_neg hother] at hcell
      have hrow : grid.store.cells other = some cell := hcells ▸ hcell
      show CellTallied _ (grid.sinceIdle other)
      rw [sinceIdle_eq hrow]
      exact (h.cell other cell hrow).restart

/-! ## Whole runs -/

theorem Tallies.fill {config : GridConfig} (hswap : config.marketType = "swap")
    {grid : TalliedGrid} (h : Tallies config grid) {order : GridRestingOrder}
    (hfinds : FindsCell grid.store order) {filled price : Amount} {fees : Fees}
    {store : GridStore} {followUp : Option GridFollowUp}
    (hok : grid.store.onOrderFilled config order filled price fees = .ok (store, followUp)) :
    Tallies config ⟨store, fun index =>
      grid.sinceIdle index + TalliedGrid.contribution order filled index⟩ := by
  obtain ⟨hfilled, -, ⟨hnone, -, rfl⟩ | ⟨spec, hspec, hindex, cell, hcell, rfl, -⟩⟩ :=
    onOrderFilled_cases hok
  · -- a cell that is not configured has no row
    refine ⟨h.listed, ?_⟩
    intro index cell hcell
    replace hcell : grid.store.cells index = some cell := hcell
    have hother : index ≠ order.cellIndex := by
      intro heq
      obtain ⟨spec, hspec, hindex⟩ := h.listed index (by rw [hcell]; rfl)
      exact hnone spec hspec (hindex.trans heq)
    show CellTallied cell (grid.sinceIdle index + TalliedGrid.contribution order filled index)
    rw [TalliedGrid.contribution, if_neg hother, add_zero, sinceIdle_eq hcell]
    exact (h.cell index cell hcell).restart
  · refine ⟨?_, ?_⟩
    · intro index hsome
      rw [filledStore_cells] at hsome
      by_cases heq : index = spec.index
      · exact ⟨spec, hspec, heq.symm⟩
      · rw [if_neg heq] at hsome
        exact h.listed index hsome
    · intro index after hafter
      rw [filledStore_cells, hswap, spotPositionFillQuantity_swap, max_eq_right hfilled.le]
        at hafter
      show CellTallied after (grid.sinceIdle index + TalliedGrid.contribution order filled index)
      by_cases heq : index = spec.index
      · subst heq
        rw [if_pos rfl] at hafter
        obtain rfl := Option.some.inj hafter
        have hfound := hfinds cell (hindex ▸ hcell)
        rw [sinceIdle_eq hcell, TalliedGrid.contribution, if_pos hindex, filledCell]
        by_cases hexit : order.purpose.exits = true
        · rw [if_pos hexit] at hfound
          rw [if_pos hexit, if_pos hexit]
          exact (h.cell _ cell hcell).exitFilled hfound _ hfilled
        · rw [if_neg hexit] at hfound
          rw [if_neg hexit, if_neg hexit]
          exact (h.cell _ cell hcell).entryFilled hfound _ hfilled _
      · rw [if_neg heq] at hafter
        rw [TalliedGrid.contribution, if_neg (fun h => heq (h.trans hindex.symm)), add_zero,
          sinceIdle_eq hafter]
        exact (h.cell index after hafter).restart

theorem Tallies.act {config : GridConfig} (hswap : config.marketType = "swap")
    {grid : TalliedGrid} (h : Tallies config grid) {action : InventoryAction}
    (hmeets : LegRespecting config grid action) : Tallies config (grid.act config action) := by
  cases action with
  | fill orderId quantity price fees =>
    unfold TalliedGrid.act
    cases horder : grid.store.order? orderId with
    | none => simpa only [horder] using h
    | some order =>
      cases hfill : grid.store.onOrderFilled config order quantity price fees with
      | error e => simpa only [horder, hfill] using h
      | ok result =>
        simp only [horder, hfill]
        exact h.fill hswap (hmeets order horder) hfill
  | cover spec side quantity answers =>
    show Tallies config ⟨_, grid.sinceIdle⟩
    rcases ensureCellExitCoverage_cases grid.store config spec side quantity answers with
      hcancels | ⟨hcovered, hplaced⟩
    · exact h.same_cells hcancels.cells
    · rw [hplaced]
      exact h.place (onlyCancels_cancelAll _ _ _).cells (hmeets hcovered)
  | place index purpose price quantity answers => exact h.place rfl hmeets

/-- A grid at its start: the cells of the configuration are idle and empty. -/
structure FreshGrid (config : GridConfig) (store : GridStore) : Prop where
  listed : ∀ index, (store.cells index).isSome → ∃ spec ∈ config.cells, spec.index = index
  idle : ∀ index cell, store.cells index = some cell → cell.state = .idle ∧ cell.legSize = 0

theorem FreshGrid.tallies {config : GridConfig} {store : GridStore} (h : FreshGrid config store) :
    Tallies config { store := store } := by
  refine ⟨h.listed, ?_⟩
  intro index cell hcell
  obtain ⟨hidle, hleg⟩ := h.idle index cell hcell
  refine ⟨hleg.ge, ?_, fun _ => rfl, fun _ => ⟨by norm_num, by rw [hleg]; norm_num⟩⟩
  intro hheld
  exact absurd hidle (Held.not_idle hheld)

private def oneCell : GridConfig where
  cells := [⟨0, 90, 110⟩]

private def oneCellStore : GridStore where
  cells := fun index => if index = 0 then some { lowerPrice := 90, upperPrice := 110 } else none
  lastMarketPrice := 100

/-- An entry of 1 fills, and its exit is sent while the account shows a position. -/
private def coveredEntry (exchangeSize : Amount) : List InventoryAction :=
  [.place 0 .longEntry 90 (some 1) {},
    .fill 1 1 90 Dict.empty,
    .cover ⟨0, 90, 110⟩ .long 1 { place := { exit := { exchangeSize := exchangeSize } } }]

private theorem oneCellStore_fresh : FreshGrid oneCell oneCellStore := by
  refine ⟨?_, ?_⟩
  · intro index hsome
    by_cases hindex : index = 0
    · exact ⟨⟨0, 90, 110⟩, List.mem_singleton_self _, hindex.symm⟩
    · simp [oneCellStore, hindex] at hsome
  · intro index cell hcell
    by_cases hindex : index = 0
    · simp only [oneCellStore, if_pos hindex, Option.some.injEq] at hcell
      subst hcell
      exact ⟨rfl, rfl⟩
    · simp [oneCellStore, hindex] at hcell

end QuantDinger.Analysis
