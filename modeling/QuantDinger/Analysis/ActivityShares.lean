import QuantDinger.Library.Runs
import QuantDinger.Model.BrokerActivities

/-!
# The shares of broker activities

A row is never written again, its amount has the sign of the activity's, and a strategy has one row
for an activity. The amounts of several strategies are another matter: every share is measured
against the account on its own. They stay within the amount of the activity exactly as long as, at
every sync, what the strategies without a row have in the account fits into what the rows leave of
it.
-/

namespace QuantDinger.Analysis

open QuantDinger.Library QuantDinger.Model QuantDinger.Model.Activities

/-! ## What an activity is shared by -/

/-- What a strategy has in the account: a fill metric, an exposure, an order. -/
structure Part where
  strategyId : ℤ
  userId : ℤ
  size : Amount

/-- The share of a part, which counts up to the whole of the account. -/
def Part.share (part : Part) (whole : Amount) : Amount := max 0 (min part.size whole)

/-- The account's positions and what the strategies hold, in a symbol or in all. -/
def positionParts (sync : ActivitySync) (deleted : List ℤ) (symbol : String) :
    Amount × List Part :=
  (accountTotal sync.accountPositions symbol,
    ((exposures sync.holdings deleted symbol).entries.filter fun entry => 0 < entry.2).map
      fun entry => ⟨entry.1.1, entry.1.2, entry.2⟩)

/-- The account's fills and what the strategies filled. -/
def fillParts (activity : BrokerActivity) (sync : ActivitySync) (deleted : List ℤ) :
    Amount × List Part :=
  let totals := fillTotals activity sync.fills (orderOwners sync.orders deleted)
  (totals.1, (totals.2.entries.filter fun entry => 0 < entry.2.2).map
    fun entry => ⟨entry.1, entry.2.1, entry.2.2⟩)

/-- The commission of an order that is recorded with its trades. -/
def recordedPart (activity : BrokerActivity) (owner : OrderOwner) : Amount :=
  if activity.subtype = "COM" ∧ activity.netAmount < 0 then max 0 owner.recordedCommission else 0

/-- The whole that an activity is measured against, and the strategies' parts of it. -/
def activityParts (activity : BrokerActivity) (sync : ActivitySync) (deleted : List ℤ) :
    Amount × List Part :=
  match orderOwners sync.orders deleted (activity.orderReference sync.fills) with
  | some owner =>
    (|activity.netAmount|,
      [⟨owner.strategyId, owner.userId, |activity.netAmount| - recordedPart activity owner⟩])
  | none =>
    if activity.subtype = "ADR" then positionParts sync deleted activity.symbol
    else if upper activity.activityType = "INT" ∨ activity.subtype = "MGN" then
      positionParts sync deleted ""
    else fillParts activity sync deleted

local instance lawfulAllocationKeys : LawfulBEq (String × ℤ) := inferInstance

/-- The parts that are written down: of strategies that have no row for the activity yet. -/
def unbooked (externalId : String) (accountAmount whole : Amount) :
    List (String × ℤ) → List Part → List Part
  | _, [] => []
  | keys, part :: parts =>
    if part.strategyId ≤ 0 ∨ part.userId ≤ 0 ∨
        |accountAmount| * part.share whole ≤ dust * whole ∨
        (externalId, part.strategyId) ∈ keys then
      unbooked externalId accountAmount whole keys parts
    else part :: unbooked externalId accountAmount whole (keys ++ [(externalId, part.strategyId)])
      parts

/-- What is stored for an activity, in absolute value. -/
def booked (rows : List BrokerRow) (externalId : String) : Amount :=
  ((rows.filter fun row => row.externalId = externalId).map fun row => |row.amount|).sum

def allocatedTotal (rows : List BrokerRow) (externalId : String) : Amount :=
  ((rows.filter fun row => row.externalId = externalId).map BrokerRow.amount).sum

/-- The parts of the strategies that have no row yet fit into what the rows leave. -/
def HasRoom (journal : String → BrokerActivity) (sync : ActivitySync) (tables : ActivityTables)
    (externalId : String) : Prop :=
  let activity := journal externalId
  let parts := activityParts activity sync tables.deleted
  skipped externalId activity = true ∨ parts.1 ≤ 0 ∨
    |activity.netAmount| *
        ((unbooked externalId activity.netAmount parts.1 (tables.rows.map BrokerRow.key)
          parts.2).map fun part => part.share parts.1).sum ≤
      (|activity.netAmount| - booked tables.rows externalId) * parts.1

instance (journal : String → BrokerActivity) (sync : ActivitySync) (tables : ActivityTables)
    (externalId : String) : Decidable (HasRoom journal sync tables externalId) :=
  instDecidableOr

/-- Every activity of a sync has room when it is written. -/
def SyncHasRoom (journal : String → BrokerActivity) (tables : ActivityTables) :
    ActivityEvent → Prop
  | .sync inputs =>
    Along (insertActivity journal inputs) (HasRoom journal inputs) tables inputs.activities
  | .deleteStrategy _ => True

instance (journal : String → BrokerActivity) (tables : ActivityTables) :
    (event : ActivityEvent) → Decidable (SyncHasRoom journal tables event)
  | .sync _ => decidableAlong _ _
  | .deleteStrategy _ => isTrue trivial

/-! ## Allocated amounts -/

theorem abs_allocatedAmount_of_share {accountAmount ratio : Amount} {subtype : String} :
    |allocatedAmount accountAmount ratio subtype 0| = |accountAmount| * max 0 (min 1 ratio) := by
  have hratio : 0 ≤ max 0 (min 1 ratio) := le_max_left 0 _
  unfold allocatedAmount
  dsimp only
  rw [if_neg (fun h => lt_irrefl 0 h.2.2), abs_mul, abs_of_nonneg hratio]

theorem max_min_div {size whole : Amount} (h : 0 < whole) :
    max 0 (min 1 (size / whole)) * whole = max 0 (min size whole) := by
  rw [max_mul_of_nonneg _ _ h.le, min_mul_of_nonneg _ _ h.le, zero_mul, one_mul,
    div_mul_cancel₀ _ h.ne', min_comm]

theorem abs_min_zero_add (x r : Amount) : |min 0 (x + r)| = max 0 (-x - r) := by
  rcases le_total 0 (x + r) with h | h
  · rw [min_eq_left h, abs_zero, max_eq_left (by linarith)]
  · rw [min_eq_right h, abs_of_nonpos h, max_eq_right (by linarith)]
    ring

theorem abs_allocatedAmount_of_order (activity : BrokerActivity) (owner : OrderOwner) :
    |allocatedAmount activity.netAmount 1 activity.subtype owner.recordedCommission| =
      max 0 (min (|activity.netAmount| - recordedPart activity owner) |activity.netAmount|) := by
  have hpart : 0 ≤ recordedPart activity owner := by
    unfold recordedPart
    split_ifs
    · exact le_max_left 0 _
    · exact le_refl 0
  have hall : activity.netAmount * max 0 (min 1 1) = activity.netAmount := by norm_num
  rw [min_eq_left (sub_le_self _ hpart)]
  unfold allocatedAmount recordedPart
  dsimp only
  rw [hall]
  by_cases hcom : activity.subtype = "COM" ∧ activity.netAmount < 0
  · rw [if_pos hcom, abs_of_neg hcom.2]
    by_cases hrecorded : 0 < owner.recordedCommission
    · rw [if_pos ⟨hcom.1, hcom.2, hrecorded⟩, max_eq_right hrecorded.le, abs_min_zero_add]
    · rw [if_neg (fun h => hrecorded h.2.2), max_eq_left (not_lt.1 hrecorded), sub_zero,
        abs_of_neg hcom.2, max_eq_right (neg_pos.2 hcom.2).le]
  · rw [if_neg hcom, if_neg (fun h => hcom ⟨h.1, h.2.1⟩), sub_zero,
      max_eq_right (abs_nonneg _)]

theorem allocatedAmount_sign (accountAmount ratio : Amount) (subtype : String)
    (recorded : Amount) :
    (0 ≤ accountAmount → 0 ≤ allocatedAmount accountAmount ratio subtype recorded) ∧
      (accountAmount ≤ 0 → allocatedAmount accountAmount ratio subtype recorded ≤ 0) := by
  have hratio : 0 ≤ max 0 (min 1 ratio) := le_max_left 0 _
  unfold allocatedAmount
  dsimp only
  constructor
  · intro h
    have hamount : 0 ≤ accountAmount * max 0 (min 1 ratio) := mul_nonneg h hratio
    rw [if_neg fun hcom => absurd hcom.2.1 (not_lt.2 hamount)]
    exact hamount
  · intro h
    split_ifs
    · exact min_le_left 0 _
    · exact mul_nonpos_of_nonpos_of_nonneg h hratio

/-! ## Allocations and parts -/

/-- An allocation writes down the share of a part. -/
structure Allocates (activity : BrokerActivity) (whole : Amount) (part : Part)
    (allocation : Allocation) : Prop where
  strategyId : allocation.strategyId = part.strategyId
  userId : allocation.userId = part.userId
  amount : |allocatedAmount activity.netAmount allocation.ratio activity.subtype
      allocation.recordedCommission| * whole = |activity.netAmount| * part.share whole

theorem allocates_positions (activity : BrokerActivity) {sync : ActivitySync} {deleted : List ℤ}
    {symbol : String} (h : 0 < (positionParts sync deleted symbol).1) :
    List.Forall₂ (Allocates activity (positionParts sync deleted symbol).1)
      (positionParts sync deleted symbol).2
      (positionAllocations sync.accountPositions sync.holdings deleted symbol) := by
  have htotal : 0 < accountTotal sync.accountPositions symbol := h
  unfold positionParts positionAllocations
  dsimp only
  rw [if_neg (not_le.2 htotal), List.forall₂_map_left_iff, List.forall₂_map_right_iff,
    List.forall₂_same]
  intro entry _
  refine ⟨rfl, rfl, ?_⟩
  dsimp only
  rw [abs_allocatedAmount_of_share, ← min_assoc, min_self, mul_assoc, max_min_div htotal]
  rfl

theorem allocates_fills {activity : BrokerActivity} {sync : ActivitySync} {deleted : List ℤ}
    (h : 0 < (fillParts activity sync deleted).1) :
    List.Forall₂ (Allocates activity (fillParts activity sync deleted).1)
      (fillParts activity sync deleted).2
      (fillAllocations activity sync.fills (orderOwners sync.orders deleted)) := by
  have htotal : 0 < (fillTotals activity sync.fills (orderOwners sync.orders deleted)).1 := h
  unfold fillParts fillAllocations
  dsimp only
  rw [if_neg (not_le.2 htotal), List.forall₂_map_left_iff, List.forall₂_map_right_iff,
    List.forall₂_same]
  intro entry _
  refine ⟨rfl, rfl, ?_⟩
  dsimp only
  rw [abs_allocatedAmount_of_share, mul_assoc, max_min_div htotal]
  rfl

theorem allocates_activity {activity : BrokerActivity} {sync : ActivitySync} {deleted : List ℤ}
    (h : 0 < (activityParts activity sync deleted).1) :
    List.Forall₂ (Allocates activity (activityParts activity sync deleted).1)
      (activityParts activity sync deleted).2 (activityAllocations activity sync deleted) := by
  unfold activityParts activityAllocations at *
  dsimp only
  cases howner : orderOwners sync.orders deleted (activity.orderReference sync.fills) with
  | some owner =>
    refine List.Forall₂.cons ⟨rfl, rfl, ?_⟩ List.Forall₂.nil
    dsimp only
    rw [abs_allocatedAmount_of_order, mul_comm]
    rfl
  | none =>
    rw [howner] at h
    dsimp only at h ⊢
    by_cases hadr : activity.subtype = "ADR"
    · rw [if_pos hadr] at h ⊢
      rw [if_pos hadr]
      exact allocates_positions activity h
    · rw [if_neg hadr] at h ⊢
      rw [if_neg hadr]
      by_cases hinterest : upper activity.activityType = "INT" ∨ activity.subtype = "MGN"
      · rw [if_pos hinterest] at h ⊢
        rw [if_pos hinterest]
        exact allocates_positions activity h
      · rw [if_neg hinterest] at h ⊢
        rw [if_neg hinterest]
        exact allocates_fills h

theorem activityAllocations_of_nothing {activity : BrokerActivity} {sync : ActivitySync}
    {deleted : List ℤ} (hamount : 0 < |activity.netAmount|)
    (h : (activityParts activity sync deleted).1 ≤ 0) :
    activityAllocations activity sync deleted = [] := by
  unfold activityParts at h
  unfold activityAllocations
  dsimp only
  cases howner : orderOwners sync.orders deleted (activity.orderReference sync.fills) with
  | some owner =>
    rw [howner] at h
    exact absurd h (not_le.2 hamount)
  | none =>
    rw [howner] at h
    dsimp only at h ⊢
    have hpositions : ∀ symbol, (positionParts sync deleted symbol).1 ≤ 0 →
        positionAllocations sync.accountPositions sync.holdings deleted symbol = [] :=
      fun _ hnothing => if_pos hnothing
    by_cases hadr : activity.subtype = "ADR"
    · rw [if_pos hadr] at h ⊢
      exact hpositions _ h
    · rw [if_neg hadr] at h ⊢
      by_cases hinterest : upper activity.activityType = "INT" ∨ activity.subtype = "MGN"
      · rw [if_pos hinterest] at h ⊢
        exact hpositions _ h
      · rw [if_neg hinterest] at h ⊢
        exact if_pos h

/-! ## One activity -/

section Insertion

variable {externalId : String} {activity : BrokerActivity}

/-- An allocation writes nothing: no strategy, no amount, or there is a row. -/
def Passed (rows : List BrokerRow) (row : BrokerRow) : Prop :=
  row.strategyId ≤ 0 ∨ row.userId ≤ 0 ∨ |row.amount| ≤ dust ∨
    row.key ∈ rows.map BrokerRow.key

theorem insertAllocation_of_passed {rows : List BrokerRow} {allocation : Allocation}
    (h : Passed rows (allocation.row externalId activity)) :
    insertAllocation externalId activity rows allocation = rows := by
  unfold insertAllocation
  dsimp only
  by_cases hconflict : (allocation.row externalId activity).key ∈ rows.map BrokerRow.key
  · rw [if_pos hconflict, ite_self]
  · refine if_pos ?_
    rcases h with h | h | h | h
    · exact Or.inl h
    · exact Or.inr (Or.inl h)
    · exact Or.inr (Or.inr h)
    · exact absurd h hconflict

theorem insertAllocation_of_not_passed {rows : List BrokerRow} {allocation : Allocation}
    (h : ¬ Passed rows (allocation.row externalId activity)) :
    insertAllocation externalId activity rows allocation =
      rows ++ [allocation.row externalId activity] := by
  unfold Passed at h
  rw [not_or, not_or, not_or] at h
  obtain ⟨hstrategy, huser, hlarge, hfree⟩ := h
  unfold insertAllocation
  dsimp only
  rw [if_neg (not_or.2 ⟨hstrategy, not_or.2 ⟨huser, hlarge⟩⟩), if_neg hfree]

/-- The rows an activity adds: its own, with the sign of its amount, under free keys. -/
structure RowsAdded (externalId : String) (accountAmount : Amount) (strategies : List ℤ)
    (rows more : List BrokerRow) : Prop where
  source : ∀ row ∈ more, row.externalId = externalId ∧ row.strategyId ∈ strategies ∧
    (0 ≤ accountAmount → 0 ≤ row.amount) ∧ (accountAmount ≤ 0 → row.amount ≤ 0)
  nodup : (rows.map BrokerRow.key).Nodup → ((rows ++ more).map BrokerRow.key).Nodup

theorem rowsAdded_nil {accountAmount : Amount} {strategies : List ℤ} (rows : List BrokerRow) :
    RowsAdded externalId accountAmount strategies rows [] := by
  constructor
  · intro row hrow
    exact nomatch hrow
  · intro hnodup
    rw [List.append_nil]
    exact hnodup

theorem rowsAdded_insertAllocations (allocations : List Allocation) (rows : List BrokerRow) :
    ∃ more, allocations.foldl (insertAllocation externalId activity) rows = rows ++ more ∧
      RowsAdded externalId activity.netAmount (allocations.map Allocation.strategyId) rows
        more := by
  induction allocations generalizing rows with
  | nil => exact ⟨[], (List.append_nil rows).symm, rowsAdded_nil rows⟩
  | cons allocation allocations ih =>
    rw [List.foldl_cons, List.map_cons]
    by_cases hpassed : Passed rows (allocation.row externalId activity)
    · rw [insertAllocation_of_passed hpassed]
      obtain ⟨more, hmore, hadded⟩ := ih rows
      refine ⟨more, hmore, ?_, hadded.nodup⟩
      intro row hrow
      obtain ⟨hid, hstrategy, hsign⟩ := hadded.source row hrow
      exact ⟨hid, List.mem_cons_of_mem _ hstrategy, hsign⟩
    · rw [insertAllocation_of_not_passed hpassed]
      obtain ⟨more, hmore, hadded⟩ := ih (rows ++ [allocation.row externalId activity])
      refine ⟨allocation.row externalId activity :: more, ?_, ?_, ?_⟩
      · rw [hmore, List.append_assoc]
        rfl
      · intro row hrow
        rcases List.mem_cons.1 hrow with rfl | hlater
        · have hsign := allocatedAmount_sign activity.netAmount allocation.ratio
            activity.subtype allocation.recordedCommission
          rw [Allocation.row_externalId, Allocation.row_strategyId, Allocation.row_amount]
          exact ⟨rfl, List.mem_cons_self, hsign⟩
        · obtain ⟨hid, hstrategy, hsign⟩ := hadded.source row hlater
          exact ⟨hid, List.mem_cons_of_mem _ hstrategy, hsign⟩
      · intro hnodup
        rw [← List.singleton_append, ← List.append_assoc]
        refine hadded.nodup ?_
        rw [List.map_append, List.nodup_append]
        refine ⟨hnodup, List.nodup_singleton _, ?_⟩
        intro key hkey other hother
        rw [List.map_singleton, List.mem_singleton] at hother
        rw [hother]
        rintro rfl
        exact hpassed (Or.inr (Or.inr (Or.inr hkey)))

theorem booked_append (rows more : List BrokerRow) (id : String) :
    booked (rows ++ more) id = booked rows id + booked more id := by
  unfold booked
  rw [List.filter_append, List.map_append, List.sum_append]

theorem booked_nonneg (rows : List BrokerRow) (id : String) : 0 ≤ booked rows id := by
  refine List.sum_nonneg ?_
  intro amount hamount
  obtain ⟨row, -, rfl⟩ := List.mem_map.1 hamount
  exact abs_nonneg _

theorem booked_of_other {rows more : List BrokerRow} {id : String}
    (h : ∀ row ∈ more, row.externalId ≠ id) : booked (rows ++ more) id = booked rows id := by
  have hnone : more.filter (fun row => row.externalId = id) = [] := by
    rw [List.filter_eq_nil_iff]
    intro row hrow
    simpa using h row hrow
  rw [booked_append]
  unfold booked
  rw [hnone]
  simp

theorem booked_insertAllocations (externalId : String) {whole : Amount} (hwhole : 0 < whole) {parts : List Part}
    {allocations : List Allocation}
    (h : List.Forall₂ (Allocates activity whole) parts allocations) (rows : List BrokerRow) :
    booked (allocations.foldl (insertAllocation externalId activity) rows) externalId * whole =
      booked rows externalId * whole + |activity.netAmount| *
        ((unbooked externalId activity.netAmount whole (rows.map BrokerRow.key) parts).map
          fun part => part.share whole).sum := by
  induction h generalizing rows with
  | nil => simp [unbooked]
  | @cons part allocation parts allocations hpart _ ih =>
    have hpassed : Passed rows (allocation.row externalId activity) ↔
        (part.strategyId ≤ 0 ∨ part.userId ≤ 0 ∨
          |activity.netAmount| * part.share whole ≤ dust * whole ∨
          (externalId, part.strategyId) ∈ rows.map BrokerRow.key) := by
      unfold Passed
      rw [Allocation.row_strategyId, Allocation.row_userId, Allocation.row_amount,
        Allocation.row_key, ← hpart.amount, mul_le_mul_iff_left₀ hwhole, hpart.strategyId,
        hpart.userId]
    rw [List.foldl_cons]
    unfold unbooked
    by_cases hskip : Passed rows (allocation.row externalId activity)
    · rw [if_pos (hpassed.1 hskip), insertAllocation_of_passed hskip]
      exact ih rows
    · have hkey : (allocation.row externalId activity).key = (externalId, part.strategyId) := by
        rw [Allocation.row_key, hpart.strategyId]
      have hone : booked [allocation.row externalId activity] externalId * whole =
          |activity.netAmount| * part.share whole := by
        rw [← hpart.amount, ← Allocation.row_amount externalId]
        unfold booked
        simp
      rw [if_neg fun h => hskip (hpassed.2 h), insertAllocation_of_not_passed hskip, ih,
        List.map_append, List.map_singleton, hkey, booked_append, List.map_cons, List.sum_cons,
        add_mul, hone]
      ring

end Insertion

/-! ## Deleted strategies -/

theorem orderOwners_alive {orders : List OrderOwner} {deleted : List ℤ} {orderId : String}
    {owner : OrderOwner} (h : orderOwners orders deleted orderId = some owner) :
    owner.strategyId ∉ deleted := by
  obtain ⟨order, horder, hpair⟩ := List.mem_map.1 (Dict.mem_of_get?_ofPairs h)
  cases hpair
  have hkept := List.of_mem_filter horder
  simp only [decide_eq_true_eq] at hkept
  exact hkept.2

theorem exposures_alive {holdings : List StrategyHolding} {deleted : List ℤ} {symbol : String} :
    ∀ entry ∈ (exposures holdings deleted symbol).entries, entry.1.1 ∉ deleted := by
  unfold exposures
  have hrows : ∀ row ∈ holdings.filter (fun row => row.strategyId ∉ deleted ∧ 0 < |row.size| ∧
      (symbol = "" ∨ row.symbol = symbol)), row.strategyId ∉ deleted := by
    intro row hrow
    have hkept := List.of_mem_filter hrow
    simp only [decide_eq_true_eq] at hkept
    exact hkept.1
  have hstart : ∀ entry ∈ (Dict.empty : Dict (ℤ × ℤ) Amount).entries, entry.1.1 ∉ deleted :=
    fun entry hentry => nomatch hentry
  revert hrows hstart
  generalize holdings.filter _ = rows
  generalize (Dict.empty : Dict (ℤ × ℤ) Amount) = totals
  intro hrows hstart
  induction rows generalizing totals with
  | nil => exact hstart
  | cons row rows ih =>
    refine ih _ (fun other hother => hrows other (List.mem_cons_of_mem _ hother)) ?_
    intro entry hentry
    rcases Dict.mem_entries_set.1 hentry with rfl | ⟨hold, -⟩
    · exact hrows row List.mem_cons_self
    · exact hstart entry hold

theorem fillTotals_alive {activity : BrokerActivity} {fills : List AccountFill}
    {owners : String → Option OrderOwner} {deleted : List ℤ}
    (h : ∀ orderId owner, owners orderId = some owner → owner.strategyId ∉ deleted) :
    ∀ entry ∈ (fillTotals activity fills owners).2.entries, entry.1 ∉ deleted := by
  unfold fillTotals
  dsimp only
  have hstart : ∀ entry ∈ ((0, Dict.empty) : Amount × Dict ℤ (ℤ × Amount)).2.entries,
      entry.1 ∉ deleted := fun entry hentry => nomatch hentry
  revert hstart
  generalize ((0, Dict.empty) : Amount × Dict ℤ (ℤ × Amount)) = totals
  intro hstart
  induction fills generalizing totals with
  | nil => exact hstart
  | cons fill fills ih =>
    refine ih _ ?_
    obtain ⟨total, strategies⟩ := totals
    dsimp only at hstart ⊢
    split
    · exact hstart
    · split
      · exact hstart
      · rename_i owner howner
        intro entry hentry
        rcases Dict.mem_entries_set.1 hentry with rfl | ⟨hold, -⟩
        · exact h _ owner howner
        · exact hstart entry hold

theorem positionAllocations_alive {sync : ActivitySync} {deleted : List ℤ} {symbol : String} :
    ∀ allocation ∈ positionAllocations sync.accountPositions sync.holdings deleted symbol,
      allocation.strategyId ∉ deleted := by
  intro allocation hallocation
  unfold positionAllocations at hallocation
  dsimp only at hallocation
  split at hallocation
  · exact nomatch hallocation
  · obtain ⟨entry, hentry, rfl⟩ := List.mem_map.1 hallocation
    exact exposures_alive entry (List.mem_of_mem_filter hentry)

theorem fillAllocations_alive {activity : BrokerActivity} {sync : ActivitySync}
    {deleted : List ℤ} :
    ∀ allocation ∈ fillAllocations activity sync.fills (orderOwners sync.orders deleted),
      allocation.strategyId ∉ deleted := by
  intro allocation hallocation
  unfold fillAllocations at hallocation
  dsimp only at hallocation
  split at hallocation
  · exact nomatch hallocation
  · obtain ⟨entry, hentry, rfl⟩ := List.mem_map.1 hallocation
    exact fillTotals_alive (fun _ _ => orderOwners_alive) entry (List.mem_of_mem_filter hentry)

theorem activityAllocations_alive (activity : BrokerActivity) (sync : ActivitySync)
    (deleted : List ℤ) :
    ∀ strategyId ∈ (activityAllocations activity sync deleted).map Allocation.strategyId,
      strategyId ∉ deleted := by
  intro strategyId hstrategy
  obtain ⟨allocation, hallocation, rfl⟩ := List.mem_map.1 hstrategy
  unfold activityAllocations at hallocation
  dsimp only at hallocation
  cases howner : orderOwners sync.orders deleted (activity.orderReference sync.fills) with
  | some owner =>
    rw [howner] at hallocation
    rw [List.mem_singleton] at hallocation
    rw [hallocation]
    exact orderOwners_alive howner
  | none =>
    rw [howner] at hallocation
    dsimp only at hallocation
    split_ifs at hallocation
    · exact positionAllocations_alive allocation hallocation
    · exact positionAllocations_alive allocation hallocation
    · exact fillAllocations_alive allocation hallocation

/-! ## The table -/

/-- The rows of the table: amounts have the sign of their activity, keys are unique, and no row is
of a deleted strategy. -/
structure RowsSound (journal : String → BrokerActivity) (tables : ActivityTables) : Prop where
  sign : ∀ row ∈ tables.rows, (0 ≤ (journal row.externalId).netAmount → 0 ≤ row.amount) ∧
    ((journal row.externalId).netAmount ≤ 0 → row.amount ≤ 0)
  nodup : (tables.rows.map BrokerRow.key).Nodup
  alive : ∀ row ∈ tables.rows, row.strategyId ∉ tables.deleted

/-- No activity is stored with more than its amount. -/
def WithinAmounts (journal : String → BrokerActivity) (tables : ActivityTables) : Prop :=
  ∀ externalId, booked tables.rows externalId ≤ |(journal externalId).netAmount|

variable {journal : String → BrokerActivity} {sync : ActivitySync} {tables : ActivityTables}

theorem insertActivity_adds (journal : String → BrokerActivity) (sync : ActivitySync)
    (tables : ActivityTables) (externalId : String) :
    ∃ (strategies : List ℤ) (more : List BrokerRow),
      insertActivity journal sync tables externalId =
        { tables with rows := tables.rows ++ more } ∧
      (∀ strategyId ∈ strategies, strategyId ∉ tables.deleted) ∧
      RowsAdded externalId (journal externalId).netAmount strategies tables.rows more := by
  unfold insertActivity
  dsimp only
  split_ifs
  · refine ⟨[], [], ?_, ?_, rowsAdded_nil tables.rows⟩
    · rw [List.append_nil]
    · intro strategyId hmem
      exact nomatch hmem
  · obtain ⟨more, hmore, hadded⟩ := rowsAdded_insertAllocations
      (activityAllocations (journal externalId) sync tables.deleted) tables.rows
    refine ⟨_, more, ?_, activityAllocations_alive (journal externalId) sync tables.deleted,
      hadded⟩
    rw [hmore]

theorem insertActivity_sound (h : RowsSound journal tables) (externalId : String) :
    RowsSound journal (insertActivity journal sync tables externalId) := by
  obtain ⟨strategies, more, heq, halive, hadded⟩ :=
    insertActivity_adds journal sync tables externalId
  rw [heq]
  refine ⟨?_, hadded.nodup h.nodup, ?_⟩
  · intro row hrow
    rcases List.mem_append.1 hrow with hold | hnew
    · exact h.sign row hold
    · obtain ⟨hid, -, hsign⟩ := hadded.source row hnew
      rw [hid]
      exact hsign
  · intro row hrow
    rcases List.mem_append.1 hrow with hold | hnew
    · exact h.alive row hold
    · exact halive _ (hadded.source row hnew).2.1

theorem sound_of_insertActivity {externalId : String}
    (h : RowsSound journal (insertActivity journal sync tables externalId)) :
    RowsSound journal tables := by
  obtain ⟨strategies, more, heq, -, -⟩ := insertActivity_adds journal sync tables externalId
  rw [heq] at h
  refine ⟨fun row hrow => h.sign row (List.mem_append_left _ hrow), ?_,
    fun row hrow => h.alive row (List.mem_append_left _ hrow)⟩
  have hnodup := h.nodup
  rw [List.map_append] at hnodup
  exact hnodup.of_append_left

theorem within_of_insertActivity {externalId : String}
    (h : WithinAmounts journal (insertActivity journal sync tables externalId)) :
    WithinAmounts journal tables := by
  obtain ⟨strategies, more, heq, -, -⟩ := insertActivity_adds journal sync tables externalId
  rw [heq] at h
  intro id
  refine le_trans ?_ (h id)
  rw [booked_append]
  exact le_add_of_nonneg_right (booked_nonneg more id)

theorem insertActivity_within (h : WithinAmounts journal tables) (externalId : String) :
    WithinAmounts journal (insertActivity journal sync tables externalId) ↔
      HasRoom journal sync tables externalId := by
  have hothers : ∀ id, id ≠ externalId →
      booked (insertActivity journal sync tables externalId).rows id = booked tables.rows id := by
    intro id hid
    obtain ⟨strategies, more, heq, -, hadded⟩ :=
      insertActivity_adds journal sync tables externalId
    rw [heq]
    refine booked_of_other ?_
    intro row hrow hsame
    exact hid (hsame.symm.trans (hadded.source row hrow).1)
  have hone : WithinAmounts journal (insertActivity journal sync tables externalId) ↔
      booked (insertActivity journal sync tables externalId).rows externalId ≤
        |(journal externalId).netAmount| := by
    refine ⟨fun hwithin => hwithin externalId, ?_⟩
    intro hbound id
    by_cases hid : id = externalId
    · rw [hid]
      exact hbound
    · rw [hothers id hid]
      exact h id
  rw [hone]
  unfold HasRoom insertActivity
  dsimp only
  by_cases hskipped : skipped externalId (journal externalId) = true
  · rw [if_pos hskipped]
    exact ⟨fun _ => Or.inl hskipped, fun _ => h externalId⟩
  rw [if_neg hskipped]
  have hamount : 0 < |(journal externalId).netAmount| := by
    unfold skipped at hskipped
    simp only [decide_eq_true_eq, not_or, not_le] at hskipped
    refine lt_trans ?_ hskipped.2.1
    unfold dust
    norm_num
  by_cases hwhole : (activityParts (journal externalId) sync tables.deleted).1 ≤ 0
  · rw [activityAllocations_of_nothing hamount hwhole]
    exact ⟨fun _ => Or.inr (Or.inl hwhole), fun _ => h externalId⟩
  have hpositive := not_le.1 hwhole
  have hgrown := booked_insertAllocations externalId hpositive
    (allocates_activity hpositive) tables.rows
  rw [← mul_le_mul_iff_left₀ hpositive, hgrown, sub_mul]
  constructor
  · intro hbound
    exact Or.inr (Or.inr (by linarith))
  · rintro (hskip | hnothing | hroom)
    · exact absurd hskip hskipped
    · exact absurd hnothing hwhole
    · linarith

/-! ## Runs -/

def TableKept (journal : String → BrokerActivity) (tables : ActivityTables) : Prop :=
  RowsSound journal tables ∧ WithinAmounts journal tables

theorem activityStep_sound (h : RowsSound journal tables) (event : ActivityEvent) :
    RowsSound journal (activityStep journal tables event) := by
  cases event with
  | sync inputs =>
    exact runActions_invariant (I := RowsSound journal)
      (fun _ externalId hsound => insertActivity_sound hsound externalId) h inputs.activities
  | deleteStrategy strategyId =>
    refine ⟨fun row hrow => h.sign row (List.mem_of_mem_filter hrow), ?_, ?_⟩
    · exact h.nodup.sublist (List.filter_sublist.map BrokerRow.key)
    · intro row hrow hdeleted
      rcases List.mem_cons.1 hdeleted with hsame | hbefore
      · have hother := List.of_mem_filter hrow
        simp only [decide_eq_true_eq] at hother
        exact hother hsame
      · exact h.alive row (List.mem_of_mem_filter hrow) hbefore

theorem activityStep_iff (journal : String → BrokerActivity) (tables : ActivityTables)
    (event : ActivityEvent) (h : TableKept journal tables) :
    TableKept journal (activityStep journal tables event) ↔ SyncHasRoom journal tables event := by
  cases event with
  | sync inputs =>
    refine (along_iff_final ?_ ?_ h inputs.activities).symm
    · rintro state externalId ⟨hsound, hwithin⟩
      exact ⟨sound_of_insertActivity hsound, within_of_insertActivity hwithin⟩
    · rintro state externalId ⟨hsound, hwithin⟩
      rw [← insertActivity_within hwithin externalId]
      exact and_iff_right (insertActivity_sound hsound externalId)
  | deleteStrategy strategyId =>
    refine ⟨fun _ => trivial, fun _ => ⟨activityStep_sound h.1 _, ?_⟩⟩
    intro externalId
    refine le_trans ?_ (h.2 externalId)
    refine List.Sublist.sum_le_sum (List.Sublist.map _ (List.filter_sublist.filter _)) ?_
    intro amount hamount
    obtain ⟨row, -, rfl⟩ := List.mem_map.1 hamount
    exact abs_nonneg _

theorem sound_run (journal : String → BrokerActivity) (events : List ActivityEvent) :
    RowsSound journal (runActions (activityStep journal) {} events) := by
  refine runActions_invariant (I := RowsSound journal)
    (fun _ event hsound => activityStep_sound hsound event) ?_ events
  refine ⟨?_, List.nodup_nil, ?_⟩
  · intro row hrow
    exact nomatch hrow
  · intro row hrow
    exact nomatch hrow

theorem allocatedTotal_of_sound (h : RowsSound journal tables) (externalId : String) :
    0 ≤ (journal externalId).netAmount * allocatedTotal tables.rows externalId ∧
      |allocatedTotal tables.rows externalId| = booked tables.rows externalId := by
  have hrows : ∀ row ∈ tables.rows.filter (fun row => row.externalId = externalId),
      (0 ≤ (journal externalId).netAmount → 0 ≤ row.amount) ∧
        ((journal externalId).netAmount ≤ 0 → row.amount ≤ 0) := by
    intro row hrow
    have hid := List.of_mem_filter hrow
    simp only [decide_eq_true_eq] at hid
    rw [← hid]
    exact h.sign row (List.mem_of_mem_filter hrow)
  have hbooked := booked_nonneg tables.rows externalId
  rcases le_total 0 (journal externalId).netAmount with hamount | hamount
  · have htotal : allocatedTotal tables.rows externalId = booked tables.rows externalId := by
      unfold allocatedTotal booked
      congr 1
      refine List.map_congr_left fun row hrow => ?_
      exact (abs_of_nonneg ((hrows row hrow).1 hamount)).symm
    rw [htotal]
    exact ⟨mul_nonneg hamount hbooked, abs_of_nonneg hbooked⟩
  · have htotal : allocatedTotal tables.rows externalId = -booked tables.rows externalId := by
      unfold allocatedTotal booked
      rw [List.sum_neg, List.map_map]
      congr 1
      refine List.map_congr_left fun row hrow => ?_
      show row.amount = -|row.amount|
      rw [abs_of_nonpos ((hrows row hrow).2 hamount), neg_neg]
    rw [htotal, abs_neg]
    exact ⟨mul_nonneg_of_nonpos_of_nonpos hamount (neg_nonpos.2 hbooked), abs_of_nonneg hbooked⟩

/-- Rows stay as they are until their strategy is deleted, one for an activity and a strategy. -/
structure StoredOnce (before after : ActivityTables) : Prop where
  kept : ∀ row ∈ before.rows, row.strategyId ∉ after.deleted → row ∈ after.rows
  unique : (after.rows.map BrokerRow.key).Nodup

/-- INTERNAL: deleted strategies stay deleted, the rows of the others stay. -/
structure RowsGrow (before after : ActivityTables) : Prop where
  deleted : before.deleted ⊆ after.deleted
  kept : ∀ row ∈ before.rows, row.strategyId ∉ after.deleted → row ∈ after.rows

theorem RowsGrow.refl (tables : ActivityTables) : RowsGrow tables tables :=
  ⟨List.Subset.refl _, fun _ hrow _ => hrow⟩

theorem RowsGrow.trans {first second third : ActivityTables} (h : RowsGrow first second)
    (h' : RowsGrow second third) : RowsGrow first third := by
  refine ⟨List.Subset.trans h.deleted h'.deleted, ?_⟩
  intro row hrow halive
  exact h'.kept row (h.kept row hrow fun hbefore => halive (h'.deleted hbefore)) halive

theorem insertActivity_grows (journal : String → BrokerActivity) (sync : ActivitySync)
    (tables : ActivityTables) (externalId : String) :
    RowsGrow tables (insertActivity journal sync tables externalId) := by
  obtain ⟨strategies, more, heq, -, -⟩ := insertActivity_adds journal sync tables externalId
  rw [heq]
  exact ⟨List.Subset.refl _, fun row hrow _ => List.mem_append_left more hrow⟩

theorem activityStep_grows (journal : String → BrokerActivity) (tables : ActivityTables)
    (event : ActivityEvent) : RowsGrow tables (activityStep journal tables event) := by
  cases event with
  | sync inputs =>
    exact runActions_invariant (I := RowsGrow tables)
      (fun state externalId hgrow =>
        hgrow.trans (insertActivity_grows journal inputs state externalId))
      (RowsGrow.refl tables) inputs.activities
  | deleteStrategy strategyId =>
    refine ⟨List.subset_cons_self _ _, ?_⟩
    intro row hrow halive
    refine List.mem_filter.2 ⟨hrow, decide_eq_true ?_⟩
    rintro rfl
    exact halive List.mem_cons_self

theorem storedOnce_run (journal : String → BrokerActivity) {earlier events : List ActivityEvent}
    (h : earlier <+: events) :
    StoredOnce (runActions (activityStep journal) {} earlier)
      (runActions (activityStep journal) {} events) := by
  refine ⟨?_, (sound_run journal events).nodup⟩
  obtain ⟨later, rfl⟩ := h
  have hsplit : runActions (activityStep journal) {} (earlier ++ later) =
      runActions (activityStep journal) (runActions (activityStep journal) {} earlier) later :=
    List.foldl_append
  rw [hsplit]
  generalize runActions (activityStep journal) {} earlier = before
  have hgrow : RowsGrow before (runActions (activityStep journal) before later) :=
    runActions_invariant (I := RowsGrow before)
      (fun state event hbefore => hbefore.trans (activityStep_grows journal state event))
      (RowsGrow.refl before) later
  exact hgrow.kept

/-- In every state of the run the amounts stored for an activity have its sign and do not exceed it
together, and what is stored once is stored at the end. -/
def AllocatedOnce (journal : String → BrokerActivity) (events : List ActivityEvent) : Prop :=
  ∀ earlier, earlier <+: events →
    (∀ externalId,
      0 ≤ (journal externalId).netAmount *
        allocatedTotal (runActions (activityStep journal) {} earlier).rows externalId ∧
      |allocatedTotal (runActions (activityStep journal) {} earlier).rows externalId| ≤
        |(journal externalId).netAmount|) ∧
    StoredOnce (runActions (activityStep journal) {} earlier)
      (runActions (activityStep journal) {} events)

/-- A run allocates every activity at most once exactly if, whenever an activity is written, the
strategies without a row for it have no more in the account than its rows leave. -/
theorem allocated_once_iff (journal : String → BrokerActivity) (events : List ActivityEvent) :
    AllocatedOnce journal events ↔
      Along (activityStep journal) (SyncHasRoom journal) {} events := by
  have hstart : TableKept journal {} := by
    refine ⟨sound_run journal [], ?_⟩
    intro externalId
    exact abs_nonneg _
  rw [along_iff_throughout (fun tables event _ => activityStep_iff journal tables event) hstart]
  constructor
  · intro h earlier hearlier
    refine ⟨sound_run journal earlier, ?_⟩
    intro externalId
    rw [← (allocatedTotal_of_sound (sound_run journal earlier) externalId).2]
    exact ((h earlier hearlier).1 externalId).2
  · intro h earlier hearlier
    refine ⟨?_, storedOnce_run journal hearlier⟩
    intro externalId
    obtain ⟨hsign, hbooked⟩ := allocatedTotal_of_sound (sound_run journal earlier) externalId
    rw [hbooked]
    exact ⟨hsign, (h earlier hearlier).2 externalId⟩

def interestJournal (_ : String) : BrokerActivity :=
  { activityType := "INT", netAmount := -10 }

/-- A strategy that is long and one that is short, in an account whose positions net. -/
def hedgedSync : ActivitySync :=
  { activities := ["i1"]
    accountPositions := [⟨"AAPL", 1000⟩]
    holdings := [⟨1, 1, "AAPL", 30, 100, 100⟩, ⟨2, 1, "AAPL", 20, 100, 100⟩] }

/-- Strategies on opposite sides are charged the interest of the account twice. -/
theorem hedged_strategies_charged_twice :
    ¬ AllocatedOnce interestJournal [.sync hedgedSync] := by
  intro h
  have hbound := ((h _ (List.prefix_refl _)).1 "i1").2
  revert hbound
  decide +kernel

end QuantDinger.Analysis
