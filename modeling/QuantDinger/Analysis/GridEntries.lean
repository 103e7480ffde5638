import QuantDinger.Library.Runs
import QuantDinger.Analysis.GridSteps

/-!
# The open entries of a grid

`sync_grid_orders` counts the open entries against `max_open_orders`, but the entry that follows
a sold out cell is placed without a count, and `_cell_allows_entry` looks only at the orders of
its own side. In the runs where a fill that sells out a cell leaves a slot for the entry that
follows, and finds no entry of that cell which the check would miss, the open entries stay within
the limit and no cell has two of them.
-/

namespace QuantDinger.Analysis

open QuantDinger.Library
open QuantDinger.Model
open QuantDinger.Model.Live

/-! ## Runs -/

/-- A call of the engine: a placement of entries at a price, and an execution snapshot of an
order with the follow-up of its fill. -/
inductive GridAction
  | sync (price : Amount) (answers : SyncAnswers)
  | deliver (orderId : ℕ) (event : ExecutionEvent) (fees : Fees) (answers : CoverAnswers)

/-- One call; a snapshot that is refused is rolled back. -/
def gridAct (config : GridConfig) (store : GridStore) : GridAction → GridStore
  | .sync price answers => store.syncGridOrders config price answers
  | .deliver orderId event fees answers =>
    match store.projectGrid config orderId event fees with
    | .error _ => store
    | .ok (next, followUp) => next.runFollowUp config answers followUp

/-- The open entries are within the limit, and no cell has two. -/
def WithinLimit (config : GridConfig) (store : GridStore) : Prop :=
  store.openEntries.length ≤ config.maxOpenOrders ∧
    (store.openEntries.map GridRestingOrder.cellIndex).Nodup

instance (config : GridConfig) (store : GridStore) : Decidable (WithinLimit config store) :=
  inferInstanceAs (Decidable (_ ∧ _))

/-! ## The condition -/

/-- The unposted part of a snapshot of an exit sells out its cell. -/
def SellsOut (store : GridStore) (config : GridConfig) (row : GridRestingOrder) (cell : GridCell)
    (event : ExecutionEvent) (fees : Fees) : Prop :=
  row.purpose.exits = true ∧
    match gridDelta event row.filledQuantity (store.postedQuantity row.id)
      (store.postedAverage row.id) with
    | .error _ => False
    | .ok (delta, _) => max 0 cell.legSize - spotPositionFillQuantity config.marketType
        config.symbol row.purpose.signal delta fees ≤ 1 / 10 ^ 10

/-- The sold out cell may be entered again: entries are not paused, the snapshot closes its
order, and no other order of its side is open for the cell. -/
def Reenters (store : GridStore) (row : GridRestingOrder) (event : ExecutionEvent) : Prop :=
  store.pausedEntries = false ∧
    (projectedStatus event.orderStatus row.status
      (observedTotal event row.filledQuantity)).isOpen = false ∧
    ∀ order ∈ store.openOrders, order.cellIndex = row.cellIndex →
      order.purpose.posSide = row.purpose.posSide → order.id = row.id

/-- The condition on a step: a snapshot that sells out a cell finds no entry of the cell that is
open, except one of its own side in a grid of that direction, and a free slot where the cell may
be entered again. -/
def LeavesRoom (config : GridConfig) (store : GridStore) : GridAction → Prop
  | .sync _ _ => True
  | .deliver orderId event fees _ =>
    ∀ row ∈ store.order? orderId, ∀ cell ∈ store.cells row.cellIndex,
      SellsOut store config row cell event fees →
        (∀ entry ∈ store.openEntries, entry.cellIndex = row.cellIndex →
          entry.purpose.posSide = row.purpose.posSide ∧
            config.direction.sides = [row.purpose.posSide]) ∧
        (Reenters store row event → store.openEntries.length < config.maxOpenOrders)

instance (store : GridStore) (config : GridConfig) (row : GridRestingOrder) (cell : GridCell)
    (event : ExecutionEvent) (fees : Fees) : Decidable (SellsOut store config row cell event fees) := by
  unfold SellsOut
  split <;> infer_instance

instance (store : GridStore) (row : GridRestingOrder) (event : ExecutionEvent) :
    Decidable (Reenters store row event) :=
  inferInstanceAs (Decidable (_ ∧ _))

instance (config : GridConfig) (store : GridStore) (action : GridAction) :
    Decidable (LeavesRoom config store action) := by
  unfold LeavesRoom
  split <;> infer_instance

/-! ## Cells and sides of the open entries -/

def entryKeys (store : GridStore) : List (ℕ × PositionSide) :=
  store.openEntries.map fun order => (order.cellIndex, order.purpose.posSide)

theorem entryKeys_length (store : GridStore) :
    (entryKeys store).length = store.openEntries.length := List.length_map _

theorem entryKeys_fst (store : GridStore) :
    (entryKeys store).map Prod.fst = store.openEntries.map GridRestingOrder.cellIndex := by
  simp [entryKeys, Function.comp_def]

theorem OnlyCancels.entryKeys {store next : GridStore} (h : OnlyCancels store next) :
    (entryKeys next).Sublist (entryKeys store) :=
  (h.openOrders.filter _).map _

theorem entryKeys_setOrder (store : GridStore) (id : ℕ) (f : GridRestingOrder → GridRestingOrder)
    (hcell : ∀ order, (f order).cellIndex = order.cellIndex)
    (hpurpose : ∀ order, (f order).purpose = order.purpose)
    (hopen : ∀ order, (f order).status.isOpen = true → order.status.isOpen = true) :
    (entryKeys (store.setOrder id f)).Sublist (entryKeys store) := by
  simp only [entryKeys, GridStore.openEntries, GridStore.openOrders, GridStore.setOrder,
    List.filter_filter]
  induction store.orders with
  | nil => exact List.Sublist.refl _
  | cons order orders ih =>
    rw [List.map_cons, List.filter_cons, List.filter_cons]
    by_cases hid : order.id = id
    · rw [if_pos hid, hpurpose]
      by_cases hkept : ((decide (order.purpose.exits = false)) && (f order).status.isOpen) = true
      · have hbefore : ((decide (order.purpose.exits = false)) && order.status.isOpen) = true := by
          rw [Bool.and_eq_true] at hkept ⊢
          exact ⟨hkept.1, hopen order hkept.2⟩
        rw [if_pos hkept, if_pos hbefore, List.map_cons, List.map_cons, hcell, hpurpose]
        exact ih.cons_cons _
      · rw [if_neg hkept]
        split_ifs
        · rw [List.map_cons]
          exact ih.cons _
        · exact ih
    · rw [if_neg hid]
      split_ifs
      · rw [List.map_cons, List.map_cons]
        exact ih.cons_cons _
      · exact ih

theorem entryKeys_observed (store : GridStore) (id : ℕ) (event : ExecutionEvent) (price : Amount) :
    (entryKeys (store.setOrder id fun order => order.observed event price)).Sublist
      (entryKeys store) :=
  entryKeys_setOrder store id _ (fun _ => rfl) (fun _ => rfl) fun _ => projectedStatus_isOpen

theorem entryKeys_processed (store : GridStore) (id : ℕ) (total : Amount) :
    (entryKeys (store.setOrder id fun order => order.processed total)).Sublist (entryKeys store) :=
  entryKeys_setOrder store id _ (fun _ => rfl) (fun _ => rfl) fun _ h => h

theorem entryKeys_recordPlaced (store : GridStore) (index : ℕ) (purpose : GridPurpose)
    (price quantity : Amount) :
    entryKeys (store.recordPlaced index purpose price quantity) =
      if purpose.exits then entryKeys store else entryKeys store ++ [(index, purpose.posSide)] := by
  have hopen : (store.recordPlaced index purpose price quantity).openOrders = store.openOrders ++
      [{ id := store.orders.length + 1, cellIndex := index, purpose := purpose, price := price,
         quantity := quantity, entryGridOrderIds := if purpose.exits
           then ((store.cells index).map GridCell.entryGridOrderIds).getD [] else [] }] := by
    simp [GridStore.recordPlaced, GridStore.openOrders, GridOrderStatus.isOpen]
  unfold entryKeys GridStore.openEntries
  rw [hopen]
  by_cases hexit : purpose.exits = true
  · simp [hexit]
  · simp [hexit]

theorem mem_openOrdersForCell_of_key {store : GridStore} {index : ℕ} {side : PositionSide}
    (h : (index, side) ∈ entryKeys store) :
    store.openOrdersForCell index (.entryOf side) ≠ [] := by
  obtain ⟨order, horder, hkey⟩ := List.mem_map.mp h
  obtain ⟨hcell, hside⟩ := Prod.mk.inj hkey
  obtain ⟨hopen, hentry⟩ := List.mem_filter.mp horder
  have hpurpose : order.purpose = .entryOf side := by
    rw [← hside]
    cases hp : order.purpose with
    | longEntry => rfl
    | longExit => simp [hp, GridPurpose.exits] at hentry
    | shortEntry => rfl
    | shortExit => simp [hp, GridPurpose.exits] at hentry
  apply List.ne_nil_of_mem (a := order)
  apply List.mem_filter.mpr
  exact ⟨hopen, by simp [hcell, hpurpose]⟩

/-! ## The invariant -/

/-- The rows of the configured cells exist, no cell has two open entries, and an entry that is
open for an idle cell is of the only side the grid trades. The states are those a placement loop
has read, which may lag behind the rows but call no idle cell anything else. -/
structure EntriesFit (config : GridConfig) (store : GridStore) (states : ℕ → GridCellState) :
    Prop where
  rows : ∀ spec ∈ config.cells, (store.cells spec.index).isSome
  single : ((entryKeys store).map Prod.fst).Nodup
  idle : ∀ key ∈ entryKeys store, states key.1 = .idle → config.direction.sides = [key.2]
  seen : ∀ index, store.cellState index = .idle → states index = .idle

variable {config : GridConfig} {store next : GridStore} {states : ℕ → GridCellState}

theorem EntriesFit.shrink (h : EntriesFit config store states)
    (hkeys : (entryKeys next).Sublist (entryKeys store)) (hcells : next.cells = store.cells) :
    EntriesFit config next states where
  rows := fun spec hspec => hcells ▸ h.rows spec hspec
  single := h.single.sublist (hkeys.map _)
  idle := fun key hkey => h.idle key (hkeys.subset hkey)
  seen := by
    intro index hidle
    apply h.seen
    rw [← hidle]
    unfold GridStore.cellState
    rw [hcells]

theorem EntriesFit.cancels (h : EntriesFit config store states) (hcancels : OnlyCancels store next) :
    EntriesFit config next states :=
  h.shrink hcancels.entryKeys hcancels.cells

theorem EntriesFit.settle (h : EntriesFit config store states) :
    EntriesFit config store store.cellState where
  rows := h.rows
  single := h.single
  idle := fun key hkey hidle => h.idle key hkey (h.seen key.1 hidle)
  seen := fun _ => id

theorem cellState_recordPlaced (store : GridStore) (index other : ℕ) (purpose : GridPurpose)
    (price quantity : Amount) :
    (store.recordPlaced index purpose price quantity).cellState other =
      if other = index ∧ (store.cells index).isSome then
        if purpose.exits then .heldOn purpose.posSide else .openOn purpose.posSide
      else store.cellState other := by
  unfold GridStore.cellState
  rw [recordPlaced_cells]
  by_cases hother : other = index
  · subst hother
    rw [if_pos rfl]
    cases hcell : store.cells other with
    | none => simp
    | some cell => simp [GridCell.withOrder]
  · simp [hother]

theorem openOn_ne_idle (side : PositionSide) : GridCellState.openOn side ≠ .idle := by
  cases side with
  | long => decide
  | short => decide

theorem heldOn_ne_idle (side : PositionSide) : GridCellState.heldOn side ≠ .idle := by
  cases side with
  | long => decide
  | short => decide

theorem rows_recordPlaced (h : ∀ spec ∈ config.cells, (store.cells spec.index).isSome) (index : ℕ)
    (purpose : GridPurpose) (price quantity : Amount) :
    ∀ spec ∈ config.cells,
      ((store.recordPlaced index purpose price quantity).cells spec.index).isSome := by
  intro spec hspec
  rw [recordPlaced_cells]
  by_cases hindex : spec.index = index
  · rw [if_pos hindex, Option.isSome_map, ← hindex]
    exact h spec hspec
  · rw [if_neg hindex]
    exact h spec hspec

theorem EntriesFit.placeExit (h : EntriesFit config store store.cellState) (index : ℕ)
    {purpose : GridPurpose} (hexit : purpose.exits = true) (price : Amount)
    (quantity : Option Amount) (answers : PlaceAnswers) :
    EntriesFit config (store.placeLimit config index purpose price quantity answers).1
        (store.placeLimit config index purpose price quantity answers).1.cellState ∧
      (entryKeys (store.placeLimit config index purpose price quantity answers).1).Sublist
        (entryKeys store) := by
  rcases placeLimit_cases store config index purpose price quantity answers with
    ⟨hcancels, -⟩ | ⟨sent, -, hplaced⟩
  · exact ⟨(h.cancels hcancels).settle, hcancels.entryKeys⟩
  · rw [hplaced]
    have hkeys := entryKeys_recordPlaced store index purpose (store.limitPrice purpose price) sent
    rw [if_pos hexit] at hkeys
    refine ⟨⟨rows_recordPlaced h.rows _ _ _ _, ?_, ?_, fun _ => id⟩, ?_⟩
    · rw [hkeys]
      exact h.single
    · intro key hkey hidle
      rw [hkeys] at hkey
      apply h.idle key hkey
      rw [cellState_recordPlaced] at hidle
      by_cases hcell : key.1 = index ∧ (store.cells index).isSome
      · rw [if_pos hcell, if_pos hexit] at hidle
        exact absurd hidle (heldOn_ne_idle _)
      · rw [if_neg hcell] at hidle
        exact hidle
    · rw [hkeys]

/-! ## Entries -/

theorem EntriesFit.recordEntry (h : EntriesFit config store states) {spec : GridCellSpec}
    (hspec : spec ∈ config.cells) {side : PositionSide}
    (hnone : spec.index ∉ (entryKeys store).map Prod.fst) (price quantity : Amount) :
    EntriesFit config (store.recordPlaced spec.index (.entryOf side) price quantity)
        (Function.update states spec.index (.openOn side)) ∧
      (entryKeys (store.recordPlaced spec.index (.entryOf side) price quantity)).length =
        (entryKeys store).length + 1 := by
  have hentry : (GridPurpose.entryOf side).exits = false := by cases side <;> rfl
  have hside : (GridPurpose.entryOf side).posSide = side := by cases side <;> rfl
  have hkeys := entryKeys_recordPlaced store spec.index (.entryOf side) price quantity
  rw [hentry, hside] at hkeys
  refine ⟨⟨rows_recordPlaced h.rows _ _ _ _, ?_, ?_, ?_⟩, ?_⟩
  · rw [hkeys]
    simp only [Bool.false_eq_true, if_false, List.map_append, List.map_cons, List.map_nil]
    exact List.nodup_append.mpr ⟨h.single, List.nodup_singleton _, fun a ha b hb => by
      rw [List.mem_singleton] at hb
      rintro rfl
      exact hnone (hb ▸ ha)⟩
  · intro key hkey hidle
    rw [hkeys] at hkey
    by_cases hindex : key.1 = spec.index
    · rw [hindex, Function.update_self] at hidle
      exact absurd hidle (openOn_ne_idle side)
    · rw [Function.update_of_ne hindex] at hidle
      simp only [Bool.false_eq_true, if_false, List.mem_append, List.mem_singleton] at hkey
      rcases hkey with hkey | rfl
      · exact h.idle key hkey hidle
      · exact absurd rfl hindex
  · intro index hidle
    rw [cellState_recordPlaced] at hidle
    by_cases hindex : index = spec.index
    · rw [if_pos ⟨hindex, h.rows spec hspec⟩, hentry, hside] at hidle
      exact absurd hidle (openOn_ne_idle side)
    · rw [if_neg (fun hcell => hindex hcell.1)] at hidle
      rw [Function.update_of_ne hindex]
      exact h.seen index hidle
  · rw [hkeys]
    simp

theorem EntriesFit.no_entry (h : EntriesFit config store states) {index : ℕ}
    {side : PositionSide} (hside : side ∈ config.direction.sides)
    (hallows : store.CellAllowsEntry states index side) :
    index ∉ (entryKeys store).map Prod.fst := by
  intro hmem
  obtain ⟨key, hkey, rfl⟩ := List.mem_map.mp hmem
  have hsides := h.idle key hkey hallows.1
  rw [hsides, List.mem_singleton] at hside
  subst hside
  exact mem_openOrdersForCell_of_key hkey hallows.2.1

/-- A tried entry keeps the invariant, and is counted when it rests. -/
structure SyncFits (config : GridConfig) (base : ℕ) (state : SyncState) : Prop where
  fits : EntriesFit config state.store state.states
  count : (entryKeys state.store).length ≤ base + state.placed

theorem SyncFits.tryEntry {base : ℕ} {state : SyncState} (h : SyncFits config base state)
    (answers : SyncAnswers) {spec : GridCellSpec} (hspec : spec ∈ config.cells)
    {side : PositionSide} (hside : side ∈ config.direction.sides)
    (hallows : state.store.CellAllowsEntry state.states spec.index side) :
    SyncFits config base (state.tryEntry config answers spec side).1 ∧
      (state.tryEntry config answers spec side).1.placed =
        state.placed + if (state.tryEntry config answers spec side).2 then 1 else 0 := by
  unfold SyncState.tryEntry
  rcases placeLimit_cases state.store config spec.index (.entryOf side) (spec.entryPrice side) none
    (answers.place side spec.index) with ⟨hcancels, hfalse⟩ | ⟨sent, -, hplaced⟩
  · simp only [hfalse, Bool.false_eq_true, if_false, add_zero, and_true]
    exact ⟨h.fits.cancels hcancels, hcancels.entryKeys.length_le.trans h.count⟩
  · simp only [hplaced, if_true, and_true]
    obtain ⟨hfits, hlength⟩ := h.fits.recordEntry hspec (h.fits.no_entry hside hallows)
      (state.store.limitPrice (.entryOf side) (spec.entryPrice side)) sent
    refine ⟨hfits, ?_⟩
    rw [hlength]
    have := h.count
    show _ ≤ base + (state.placed + 1)
    omega

/-! ## The placement loops -/

theorem SyncFits.directionalCell {base slots : ℕ} {state : SyncState} (answers : SyncAnswers)
    (price : Amount) {side : PositionSide} (hside : side ∈ config.direction.sides)
    {spec : GridCellSpec} (hspec : spec ∈ config.cells)
    (h : SyncFits config base state ∧ state.placed ≤ slots) :
    SyncFits config base (SyncState.directionalCell config answers price side slots state spec) ∧
      (SyncState.directionalCell config answers price side slots state spec).placed ≤ slots := by
  unfold SyncState.directionalCell
  by_cases hdone : state.store.stopRequested = true ∨ slots ≤ state.placed
  · rw [if_pos hdone]
    exact h
  rw [if_neg hdone]
  by_cases htry : answers.allowed side = true ∧ spec.Reachable side price ∧
      state.store.CellAllowsEntry state.states spec.index side
  · rw [if_pos htry]
    obtain ⟨hfits, hplaced⟩ := h.1.tryEntry answers hspec hside htry.2.2
    refine ⟨hfits, ?_⟩
    rw [hplaced]
    have hless := not_le.mp (not_or.mp hdone).2
    split_ifs <;> omega
  · rw [if_neg htry]
    exact h

theorem SyncFits.directional {base : ℕ} (slots : ℕ) (answers : SyncAnswers) (price : Amount)
    {side : PositionSide} (hside : side ∈ config.direction.sides) (cells : List GridCellSpec)
    (hcells : ∀ spec ∈ cells, spec ∈ config.cells) {state : SyncState}
    (h : SyncFits config base state ∧ state.placed ≤ slots) :
    SyncFits config base
        (cells.foldl (SyncState.directionalCell config answers price side slots) state) ∧
      (cells.foldl (SyncState.directionalCell config answers price side slots) state).placed ≤
        slots := by
  induction cells generalizing state with
  | nil => exact h
  | cons spec cells ih =>
    apply ih (fun other hother => hcells other (List.mem_cons_of_mem _ hother))
    exact SyncFits.directionalCell answers price hside (hcells spec List.mem_cons_self) h

/-- The invariant of the neutral loop: its candidates are cells of the grid. -/
structure NeutralFits (config : GridConfig) (base : ℕ) (state : NeutralState) : Prop where
  sync : SyncFits config base state.toSyncState
  pool : ∀ side, ∀ spec ∈ state.pool side, spec ∈ config.cells

theorem pool_update {pool : PositionSide → List GridCellSpec}
    (h : ∀ side, ∀ spec ∈ pool side, spec ∈ config.cells) (side : PositionSide)
    {rest : List GridCellSpec} (hrest : ∀ spec ∈ rest, spec ∈ config.cells) :
    ∀ other, ∀ spec ∈ Function.update pool side rest other, spec ∈ config.cells := by
  intro other spec hspec
  by_cases hother : other = side
  · subst hother
    rw [Function.update_self] at hspec
    exact hrest spec hspec
  · rw [Function.update_of_ne hother] at hspec
    exact h other spec hspec

theorem NeutralFits.attempt {base : ℕ} {state : NeutralState} (h : NeutralFits config base state)
    (answers : SyncAnswers) {side : PositionSide} (hside : side ∈ config.direction.sides) :
    NeutralFits config base (state.attempt config answers side).1 ∧
      (state.attempt config answers side).1.placed =
        state.placed + if (state.attempt config answers side).2 then 1 else 0 := by
  unfold NeutralState.attempt
  by_cases hstop : state.store.stopRequested = true ∨ answers.allowed side = false
  · rw [if_pos hstop]
    exact ⟨h, rfl⟩
  rw [if_neg hstop]
  cases hpool : (state.pool side).dropWhile fun spec =>
      !decide (state.store.CellAllowsEntry state.states spec.index side) with
  | nil =>
    simp only
    exact ⟨⟨h.sync, pool_update h.pool side (fun _ hspec => nomatch hspec)⟩, rfl⟩
  | cons spec rest =>
    simp only
    have hsuffix : spec :: rest <:+ state.pool side := hpool ▸ List.dropWhile_suffix _
    have hmem : ∀ other ∈ spec :: rest, other ∈ config.cells := fun other hother =>
      h.pool side other (hsuffix.subset hother)
    have hallows : state.store.CellAllowsEntry state.states spec.index side := by
      have hne : (state.pool side).dropWhile (fun spec =>
          !decide (state.store.CellAllowsEntry state.states spec.index side)) ≠ [] := by
        rw [hpool]
        exact List.cons_ne_nil _ _
      simpa [hpool] using List.head_dropWhile_not _ hne
    obtain ⟨hfits, hplaced⟩ :=
      h.sync.tryEntry answers (hmem spec List.mem_cons_self) hside hallows
    refine ⟨⟨hfits, pool_update h.pool side fun other hother => ?_⟩, hplaced⟩
    exact hmem other (List.mem_cons_of_mem _ hother)

theorem NeutralFits.round {base : ℕ} {state : NeutralState} (h : NeutralFits config base state)
    (answers : SyncAnswers) (hsides : ∀ side, side ∈ config.direction.sides) :
    NeutralFits config base (state.round config answers).1 ∧
      (state.round config answers).1.placed =
        state.placed + if (state.round config answers).2 then 1 else 0 := by
  simp only [NeutralState.round]
  have hfirst := h.attempt answers (hsides
    (if state.openBy .long ≤ state.openBy .short then PositionSide.long else .short))
  by_cases hplaced : (state.attempt config answers
      (if state.openBy .long ≤ state.openBy .short then PositionSide.long else .short)).2 = true
  · simp only [if_pos hplaced] at hfirst ⊢
    exact hfirst
  · simp only [if_neg hplaced, add_zero] at hfirst ⊢
    have hsecond := hfirst.1.attempt answers (hsides
      (if state.openBy .long ≤ state.openBy .short then PositionSide.short else .long))
    rw [hfirst.2] at hsecond
    exact hsecond

theorem NeutralFits.rounds {base : ℕ} {state : NeutralState} (h : NeutralFits config base state)
    (answers : SyncAnswers) (hsides : ∀ side, side ∈ config.direction.sides) (slots : ℕ) :
    NeutralFits config base (NeutralState.rounds config answers slots state) ∧
      (NeutralState.rounds config answers slots state).placed ≤ state.placed + slots := by
  induction slots generalizing state with
  | zero => exact ⟨h, le_rfl⟩
  | succ slots ih =>
    unfold NeutralState.rounds
    by_cases hstop : state.store.stopRequested = true
    · rw [if_pos hstop]
      exact ⟨h, Nat.le_add_right _ _⟩
    rw [if_neg hstop]
    obtain ⟨hround, hplaced⟩ := h.round answers hsides
    by_cases hmore : (state.round config answers).2 = true
    · rw [if_pos hmore] at hplaced
      obtain ⟨hrest, hcount⟩ := ih hround
      simp only [if_pos hmore]
      exact ⟨hrest, by omega⟩
    · rw [if_neg hmore] at hplaced
      simp only [if_neg hmore]
      exact ⟨hround, by omega⟩

/-! ## `sync_grid_orders` -/

/-- The invariant of the rows between two calls. -/
structure GridFits (config : GridConfig) (store : GridStore) : Prop where
  fits : EntriesFit config store store.cellState
  count : (entryKeys store).length ≤ config.maxOpenOrders

theorem GridFits.withinLimit (h : GridFits config store) : WithinLimit config store := by
  refine ⟨?_, ?_⟩
  · rw [← entryKeys_length]
    exact h.count
  · rw [← entryKeys_fst]
    exact h.fits.single

theorem SyncFits.gridFits {base : ℕ} {state : SyncState} (h : SyncFits config base state)
    (hcount : base + state.placed ≤ config.maxOpenOrders) : GridFits config state.store where
  fits := h.fits.settle
  count := h.count.trans hcount

theorem GridFits.shrink (h : GridFits config store)
    (hkeys : (entryKeys next).Sublist (entryKeys store)) (hcells : next.cells = store.cells) :
    GridFits config next where
  fits := (h.fits.shrink hkeys hcells).settle
  count := hkeys.length_le.trans h.count

theorem GridFits.cancels (h : GridFits config store) (hcancels : OnlyCancels store next) :
    GridFits config next :=
  h.shrink hcancels.entryKeys hcancels.cells

theorem mem_candidates {price : Amount} {side : PositionSide} {spec : GridCellSpec}
    (h : spec ∈ config.candidates price side) : spec ∈ config.cells := by
  cases side with
  | long => exact (List.mem_filter.mp (List.mem_mergeSort.mp h)).1
  | short => exact (List.mem_filter.mp (List.mem_mergeSort.mp h)).1

theorem GridFits.placeEntries (h : GridFits config store) (price : Amount)
    (answers : SyncAnswers) : GridFits config (store.placeEntries config price answers) := by
  have hslots : (entryKeys store).length + (config.maxOpenOrders - store.openEntries.length) =
      config.maxOpenOrders := by
    have := h.count
    rw [entryKeys_length] at this ⊢
    omega
  have hstart : SyncFits config (entryKeys store).length
      { store := store, states := store.cellState } := ⟨h.fits, le_rfl⟩
  unfold GridStore.placeEntries
  cases hdirection : config.direction with
  | long =>
    have hside : PositionSide.long ∈ config.direction.sides := by rw [hdirection]; decide
    obtain ⟨hfits, hplaced⟩ := SyncFits.directional
      (config.maxOpenOrders - store.openEntries.length) answers price hside config.cells
      (fun _ hspec => hspec) ⟨hstart, Nat.zero_le _⟩
    exact hfits.gridFits (by omega)
  | short =>
    have hside : PositionSide.short ∈ config.direction.sides := by rw [hdirection]; decide
    obtain ⟨hfits, hplaced⟩ := SyncFits.directional
      (config.maxOpenOrders - store.openEntries.length) answers price hside config.cells
      (fun _ hspec => hspec) ⟨hstart, Nat.zero_le _⟩
    exact hfits.gridFits (by omega)
  | neutral =>
    have hsides : ∀ side, side ∈ config.direction.sides := by
      intro side
      rw [hdirection]
      cases side <;> decide
    have hneutral : NeutralFits config (entryKeys store).length
        { store := store, states := store.cellState,
          openBy := fun side => (store.openOrders.filter fun order =>
            order.purpose = .entryOf side).length,
          pool := config.candidates price } :=
      ⟨hstart, fun _ _ hspec => mem_candidates hspec⟩
    obtain ⟨hfits, hplaced⟩ := hneutral.rounds answers hsides
      (config.maxOpenOrders - store.openEntries.length)
    refine hfits.sync.gridFits ?_
    simp only at hplaced
    omega

theorem onlyCancels_enforceOwnership (answers : SyncAnswers) (sides : List PositionSide)
    {before : GridStore} (h : OnlyCancels before store) :
    OnlyCancels before (sides.foldl (fun store side => store.enforceOwnership answers side)
      store) := by
  induction sides generalizing store with
  | nil => exact h
  | cons side sides ih =>
    apply ih
    show OnlyCancels before (store.enforceOwnership answers side)
    unfold GridStore.enforceOwnership
    by_cases hallowed : answers.allowed side = true
    · rw [if_pos hallowed]
      exact h
    · rw [if_neg hallowed]
      have hentries := onlyCancels_cancelPositionOrders store side false answers.cancels
      by_cases hshort : answers.shortfall side = true
      · simp only [if_pos hshort]
        exact h.trans (hentries.trans (onlyCancels_cancelPositionOrders _ side true _))
      · simp only [if_neg hshort]
        exact h.trans hentries

theorem GridFits.syncGridOrders (h : GridFits config store) (price : Amount)
    (answers : SyncAnswers) : GridFits config (store.syncGridOrders config price answers) := by
  unfold GridStore.syncGridOrders
  by_cases hpaused : store.stopRequested = true ∨ store.pausedEntries = true ∨ price ≤ 0
  · rw [if_pos hpaused]
    exact h
  rw [if_neg hpaused]
  have hobserved : OnlyCancels store (store.observeMarketPrice price) := by
    refine ⟨by simp, by simp, by simp, ?_⟩
    unfold GridStore.openOrders
    rw [observeMarketPrice_orders]
  by_cases hclient : answers.waterfallPause = true ∨ answers.client = false
  · simp only [if_pos hclient]
    exact h.cancels hobserved
  simp only [if_neg hclient]
  have howned : OnlyCancels store (config.direction.sides.foldl (fun store side =>
      store.enforceOwnership answers side) (store.observeMarketPrice price)) :=
    onlyCancels_enforceOwnership answers _ hobserved
  by_cases hsoon : (config.direction.sides.all fun side => !answers.allowed side) ∨
      answers.tooSoon = true
  · simp only [if_pos hsoon]
    exact h.cancels howned
  · simp only [if_neg hsoon]
    apply GridFits.placeEntries
    apply GridFits.cancels _ (onlyCancels_cancelEach _ _ _)
    apply GridFits.cancels _ (onlyCancels_cancelEach _ _ _)
    exact h.cancels howned

/-! ## Snapshots -/

theorem GridFits.writeCell (h : GridFits config store)
    (hkeys : (entryKeys next).Sublist (entryKeys store)) {index : ℕ} {cell : GridCell}
    (hcells : ∀ other, next.cells other = if other = index then some cell else store.cells other)
    (hidle : cell.state = .idle → ∀ key ∈ entryKeys store, key.1 = index →
      config.direction.sides = [key.2]) : GridFits config next := by
  refine ⟨⟨?_, h.fits.single.sublist (hkeys.map _), ?_, fun _ => id⟩,
    hkeys.length_le.trans h.count⟩
  · intro spec hspec
    rw [hcells]
    split_ifs
    · rfl
    · exact h.fits.rows spec hspec
  · intro key hkey hstate
    unfold GridStore.cellState at hstate
    rw [hcells] at hstate
    by_cases hindex : key.1 = index
    · rw [if_pos hindex] at hstate
      exact hidle hstate key (hkeys.subset hkey) hindex
    · rw [if_neg hindex] at hstate
      exact h.fits.idle key (hkeys.subset hkey) hstate

theorem GridFits.cover (h : GridFits config store) (spec : GridCellSpec) (side : PositionSide)
    (quantity : Amount) (answers : CoverAnswers) :
    GridFits config (store.ensureCellExitCoverage config spec side quantity answers).1 := by
  rcases ensureCellExitCoverage_cases store config spec side quantity answers with
    hcancels | ⟨-, hplaced⟩
  · exact h.cancels hcancels
  · rw [hplaced]
    have hcancelled := h.cancels (onlyCancels_cancelAll store answers.cancels
      (store.openOrdersForCell spec.index (.exitOf side)))
    have hexit : (GridPurpose.exitOf side).exits = true := by cases side <;> rfl
    obtain ⟨hfits, hkeys⟩ := hcancelled.fits.placeExit spec.index hexit (spec.exitPrice side)
      (some (config.normalizeBaseQty quantity (spec.exitPrice side))) answers.place
    exact ⟨hfits, hkeys.length_le.trans hcancelled.count⟩

theorem GridFits.enter (h : GridFits config store) {spec : GridCellSpec}
    (hspec : spec ∈ config.cells) {side : PositionSide}
    (hnone : spec.index ∉ (entryKeys store).map Prod.fst)
    (hslot : (entryKeys store).length < config.maxOpenOrders) (price : Amount)
    (quantity : Option Amount) (answers : PlaceAnswers) :
    GridFits config
      (store.placeLimit config spec.index (.entryOf side) price quantity answers).1 := by
  rcases placeLimit_cases store config spec.index (.entryOf side) price quantity answers with
    ⟨hcancels, -⟩ | ⟨sent, -, hplaced⟩
  · exact h.cancels hcancels
  · rw [hplaced]
    obtain ⟨hfits, hlength⟩ := h.fits.recordEntry hspec hnone
      (store.limitPrice (.entryOf side) price) sent
    exact ⟨hfits.settle, hlength ▸ hslot⟩

theorem purpose_cases (purpose : GridPurpose) :
    purpose = .entryOf purpose.posSide ∨ purpose = .exitOf purpose.posSide := by
  cases purpose with
  | longEntry => exact Or.inl rfl
  | longExit => exact Or.inr rfl
  | shortEntry => exact Or.inl rfl
  | shortExit => exact Or.inr rfl

theorem reenters_of_allows {orderId : ℕ} {row : GridRestingOrder}
    (hrow : store.order? orderId = some row) (hexit : row.purpose.exits = true)
    {event : ExecutionEvent} {price : Amount} (hpaused : store.pausedEntries = false)
    (hentries : (store.setOrder orderId fun order => order.observed event price).openOrdersForCell
      row.cellIndex (.entryOf row.purpose.posSide) = [])
    (hexits : (store.setOrder orderId fun order => order.observed event price).openOrdersForCell
      row.cellIndex (.exitOf row.purpose.posSide) = []) : Reenters store row event := by
  have hmem : row ∈ store.orders := List.mem_of_find?_eq_some hrow
  have hid : row.id = orderId := by simpa using List.find?_some hrow
  have hpurpose : row.purpose = .exitOf row.purpose.posSide := by
    rcases purpose_cases row.purpose with hentry | hexit'
    · rw [hentry] at hexit
      exact absurd hexit (by cases row.purpose.posSide <;> decide)
    · exact hexit'
  refine ⟨hpaused, ?_, ?_⟩
  · by_contra hopen
    rw [Bool.not_eq_false] at hopen
    apply List.ne_nil_of_mem _ hexits (a := row.observed event price)
    refine List.mem_filter.mpr ⟨List.mem_filter.mpr ⟨List.mem_map.mpr ⟨row, hmem, ?_⟩, hopen⟩, ?_⟩
    · rw [if_pos hid]
    · rw [← hpurpose]
      simp [GridRestingOrder.observed]
  · intro order horder hcell hside
    by_contra hother
    obtain ⟨hin, hopen⟩ := List.mem_filter.mp horder
    have hkept : order ∈
        (store.setOrder orderId fun order => order.observed event price).openOrders := by
      refine List.mem_filter.mpr ⟨List.mem_map.mpr ⟨order, hin, ?_⟩, hopen⟩
      rw [if_neg (hid ▸ hother)]
    rcases purpose_cases order.purpose with hentry | hexit'
    · apply List.ne_nil_of_mem _ hentries (a := order)
      rw [hside] at hentry
      exact List.mem_filter.mpr ⟨hkept, by simp [hcell, hentry]⟩
    · apply List.ne_nil_of_mem _ hexits (a := order)
      rw [hside] at hexit'
      exact List.mem_filter.mpr ⟨hkept, by simp [hcell, hexit']⟩

theorem sellsOut_of_idle {orderId : ℕ} {row : GridRestingOrder} {cell : GridCell}
    (hrow : store.order? orderId = some row) {event : ExecutionEvent} {fees : Fees}
    {delta price : Amount}
    (hdelta : gridDelta event row.filledQuantity (store.postedQuantity orderId)
      (store.postedAverage orderId) = .ok (delta, price))
    (hidle : (filledCell cell row (spotPositionFillQuantity config.marketType config.symbol
      row.purpose.signal delta fees) price).state = .idle) :
    SellsOut store config row cell event fees := by
  have hid : row.id = orderId := by simpa using List.find?_some hrow
  unfold SellsOut
  rw [hid, hdelta]
  unfold filledCell at hidle
  by_cases hexit : row.purpose.exits = true
  · refine ⟨hexit, ?_⟩
    rw [if_pos hexit] at hidle
    simp only [GridCell.exitFilled] at hidle
    by_cases hmore : 1 / 10 ^ 10 < max 0 (max 0 cell.legSize - spotPositionFillQuantity
        config.marketType config.symbol row.purpose.signal delta fees)
    · rw [if_pos hmore] at hidle
      exact absurd hidle (heldOn_ne_idle _)
    · exact (le_max_right _ _).trans (not_lt.mp hmore)
  · rw [if_neg hexit] at hidle
    exact absurd hidle (heldOn_ne_idle _)

theorem exists_entry_of_key {key : ℕ × PositionSide} (h : key ∈ entryKeys store) :
    ∃ entry ∈ store.openEntries, entry.cellIndex = key.1 ∧ entry.purpose.posSide = key.2 := by
  obtain ⟨entry, hentry, rfl⟩ := List.mem_map.mp h
  exact ⟨entry, hentry, rfl, rfl⟩

theorem GridFits.deliver (h : GridFits config store) {orderId : ℕ} {event : ExecutionEvent}
    {fees : Fees} {answers : CoverAnswers}
    (hroom : LeavesRoom config store (.deliver orderId event fees answers)) :
    GridFits config (gridAct config store (.deliver orderId event fees answers)) := by
  simp only [gridAct]
  cases hproject : store.projectGrid config orderId event fees with
  | error e => exact h
  | ok result =>
    obtain ⟨next, followUp⟩ := result
    show GridFits config (next.runFollowUp config answers followUp)
    rcases projectGrid_cases hproject with ⟨rfl, rfl⟩ | ⟨row, delta, price, hrow, hdelta, -, hcase⟩
    · exact h
    have hobserved := entryKeys_observed store orderId event price
    rcases hcase with ⟨-, rfl, rfl⟩ | ⟨-, filled, hfill, rfl⟩
    · exact h.shrink hobserved rfl
    have hprocessed := entryKeys_processed filled orderId (observedTotal event row.filledQuantity)
    obtain ⟨-, -, ⟨-, rfl, rfl⟩ | ⟨spec, hspec, hindex, cell, hcell, rfl, rfl⟩⟩ :=
      onOrderFilled_cases hfill
    · -- the cell of the order is not configured
      exact h.shrink (hprocessed.trans hobserved) rfl
    have hcell' : store.cells row.cellIndex = some cell := hindex ▸ hcell
    have hsame : entryKeys (filledStore (store.setOrder orderId fun order =>
        order.observed event price) config spec cell row delta price fees) =
          entryKeys (store.setOrder orderId fun order => order.observed event price) := by
      simp only [entryKeys, GridStore.openEntries, GridStore.openOrders, filledStore_orders]
    have hkeys := hprocessed.trans (hsame ▸ hobserved)
    have hnext : GridFits config ((filledStore (store.setOrder orderId fun order =>
        order.observed event price) config spec cell row delta price fees).setOrder orderId
          fun order => order.processed (observedTotal event row.filledQuantity)) := by
      apply h.writeCell hkeys
        (fun other => filledStore_cells (store.setOrder orderId _) config spec cell row delta price
          fees other)
      intro hidle key hkey hat
      obtain ⟨entry, hentry, hentryCell, hentrySide⟩ := exists_entry_of_key hkey
      obtain ⟨hside, hsides⟩ := (hroom row hrow cell hcell'
        (sellsOut_of_idle hrow hdelta hidle)).1 entry hentry (hentryCell.trans (hat.trans hindex))
      rw [hsides, ← hentrySide, hside]
    unfold filledFollowUp
    by_cases hexit : row.purpose.exits = true
    · rw [if_pos hexit]
      by_cases hagain : (filledCell cell row (spotPositionFillQuantity config.marketType
          config.symbol row.purpose.signal delta fees) price).legSize ≤ 1 / 10 ^ 10 ∧
          (filledStore (store.setOrder orderId fun order => order.observed event price) config spec
            cell row delta price fees).pausedEntries = false ∧
          (filledStore (store.setOrder orderId fun order => order.observed event price) config spec
            cell row delta price fees).CellAllowsEntry (filledStore (store.setOrder orderId
              fun order => order.observed event price) config spec cell row delta price
                fees).cellState spec.index row.purpose.posSide
      · rw [if_pos hagain]
        obtain ⟨-, hpaused, hidle, hentries, hexits⟩ := hagain
        have hsold : SellsOut store config row cell event fees := by
          apply sellsOut_of_idle hrow hdelta
          unfold GridStore.cellState at hidle
          rw [filledStore_cells, if_pos rfl] at hidle
          exact hidle
        obtain ⟨hside, hslot⟩ := hroom row hrow cell hcell' hsold
        simp only [GridStore.openOrdersForCell, GridStore.openOrders, filledStore_orders]
          at hentries hexits
        rw [hindex] at hentries hexits
        rw [filledStore_pausedEntries] at hpaused
        have hfree := hslot (reenters_of_allows hrow hexit hpaused hentries hexits)
        apply hnext.enter hspec
        · intro hin
          obtain ⟨key, hkey, hat⟩ := List.mem_map.mp hin
          obtain ⟨entry, hentry, hentryCell, hentrySide⟩ := exists_entry_of_key (hkeys.subset hkey)
          have hown := (hside entry hentry (hentryCell.trans (hat.trans hindex))).1
          have hmem := hsame ▸ hprocessed.subset hkey
          rw [show key = (row.cellIndex, row.purpose.posSide) from
            Prod.ext (hat.trans hindex) (hentrySide.symm.trans hown)] at hmem
          exact mem_openOrdersForCell_of_key hmem hentries
        · rw [← entryKeys_length] at hfree
          exact hkeys.length_le.trans_lt hfree
      · rw [if_neg hagain]
        exact hnext
    · rw [if_neg hexit]
      exact hnext.cover _ _ _ _

/-! ## Whole runs -/

theorem GridFits.act (h : GridFits config store) {action : GridAction}
    (hroom : LeavesRoom config store action) : GridFits config (gridAct config store action) := by
  cases action with
  | sync price answers => exact h.syncGridOrders price answers
  | deliver orderId event fees answers => exact h.deliver hroom

/-- A grid with rows for its cells and no open order. -/
structure NoOpenOrders (config : GridConfig) (store : GridStore) : Prop where
  rows : ∀ spec ∈ config.cells, (store.cells spec.index).isSome
  none : store.openOrders = []

theorem NoOpenOrders.gridFits (h : NoOpenOrders config store) : GridFits config store := by
  have hkeys : entryKeys store = [] := by
    unfold entryKeys GridStore.openEntries
    rw [h.none]
    rfl
  refine ⟨⟨h.rows, ?_, ?_, fun _ => id⟩, ?_⟩
  · rw [hkeys]
    exact List.nodup_nil
  · intro key hkey
    rw [hkeys] at hkey
    exact nomatch hkey
  · rw [hkeys]
    exact Nat.zero_le _

/-- In every run that starts with no open order, and whose snapshots leave room, the open entries
are within the limit and no cell has two. -/
theorem open_entries_within_limit (config : GridConfig) (store : GridStore)
    (hstart : NoOpenOrders config store) (actions : List GridAction)
    (hrun : Along (gridAct config) (LeavesRoom config) store actions) :
    WithinLimit config (runActions (gridAct config) store actions) := by
  apply GridFits.withinLimit
  exact Along.invariant (I := GridFits config) (fun _ _ hinv hroom => hinv.act hroom)
    hstart.gridFits hrun

/-! ## Two cells -/

private def twoCells (maxOpenOrders : ℕ) : GridConfig where
  cells := [⟨0, 90, 100⟩, ⟨1, 100, 110⟩]
  maxOpenOrders := maxOpenOrders
  budget := fun _ => 90

private def twoCellsStore : GridStore where
  cells := fun index =>
    if index = 0 then some { lowerPrice := 90, upperPrice := 100 }
    else if index = 1 then some { lowerPrice := 100, upperPrice := 110 } else none

private def filledSnapshot (price : Amount) : ExecutionEvent where
  cumulativeQuantity := 1
  cumulativeAveragePrice := price
  orderStatus := "filled"

/-- The lower cell is entered and filled, the upper cell is entered, and the exit of the lower
cell fills. -/
private def soldOutRun : List GridAction :=
  [.sync 105 {},
    .deliver 1 (filledSnapshot 90) Dict.empty { place := { exit := { exchangeSize := 1 } } },
    .sync 105 {},
    .deliver 2 (filledSnapshot 100) Dict.empty {}]

private theorem twoCellsStore_starts (maxOpenOrders : ℕ) :
    NoOpenOrders (twoCells maxOpenOrders) twoCellsStore := by
  refine ⟨?_, rfl⟩
  intro spec hspec
  rcases List.mem_cons.mp hspec with rfl | hspec
  · rfl
  · obtain rfl := List.mem_singleton.mp hspec
    rfl

/-- With two slots the lower cell is entered again. -/
theorem two_slots_suffice :
    WithinLimit (twoCells 2) (runActions (gridAct (twoCells 2)) twoCellsStore soldOutRun) :=
  open_entries_within_limit (twoCells 2) twoCellsStore (twoCellsStore_starts 2) soldOutRun
    (by decide +kernel)

/-- With one slot it is entered again too, while the upper cell has the only entry allowed. -/
theorem reentry_exceeds_limit : ¬ ∀ (config : GridConfig) (store : GridStore)
    (actions : List GridAction), NoOpenOrders config store →
    WithinLimit config (runActions (gridAct config) store actions) := by
  intro hclaim
  have hlimit := hclaim (twoCells 1) twoCellsStore soldOutRun (twoCellsStore_starts 1)
  have hcount : (runActions (gridAct (twoCells 1)) twoCellsStore soldOutRun).openEntries.length = 2 := by
    decide +kernel
  have : 2 ≤ 1 := hcount ▸ hlimit.1
  omega

end QuantDinger.Analysis
