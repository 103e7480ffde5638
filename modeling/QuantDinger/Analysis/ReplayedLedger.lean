import QuantDinger.Analysis.SymbolNames
import QuantDinger.Library.Runs
import QuantDinger.Model.TradeReplay

/-!
# Replaying the trades

The replay and the live ledger apply the same function to the same row of a leg, once with what the
trade records and once with what reaches the inventory. A step keeps them equal exactly if the two
quantities are the same or both close the leg.
-/

namespace QuantDinger.Analysis

open QuantDinger.Library QuantDinger.Model QuantDinger.Model.Live

/-! ## Consistent spelling -/

/-- Symbols without blanks that name something, none of them with an alias that is the canonical
name of another. -/
structure Spelled (symbols : List String) : Prop where
  plain : ∀ symbol ∈ symbols, ∀ c ∈ symbol.toList, isSpace c = false
  named : ∀ symbol ∈ symbols, normalizeStrategySymbol symbol ≠ ""
  apart : ∀ symbol ∈ symbols, ∀ other ∈ symbols,
    ∀ spelling ∈ [symbol, normalizeStrategySymbol symbol],
      normalizeStrategySymbol other ∈ positionSymbolCandidates spelling →
        normalizeStrategySymbol other = normalizeStrategySymbol symbol

/-- A symbol as its caller spells it, or by its canonical name. -/
structure Spelling (symbols : List String) (spelling symbol : String) : Prop where
  mem : symbol ∈ symbols
  spelled : spelling ∈ [symbol, normalizeStrategySymbol symbol]

/-- The rows are under canonical names and hold something. -/
def Tidy (symbols : List String) (table : PositionTable) : Prop :=
  ∀ key position, table.leg key = some position →
    (∃ symbol ∈ symbols, key.1 = normalizeStrategySymbol symbol) ∧ 0 < position.size

section Spelling

variable {symbols : List String} {spelling symbol : String} {table : PositionTable}

theorem Spelling.normalize (hspelled : Spelled symbols) (h : Spelling symbols spelling symbol) :
    normalizeStrategySymbol spelling = normalizeStrategySymbol symbol := by
  have hspelling := h.spelled
  rw [List.mem_cons, List.mem_singleton] at hspelling
  rcases hspelling with hself | hname
  · rw [hself]
  · rw [hname]
    exact normalize_normalize (hspelled.plain symbol h.mem)

theorem Spelling.no_space (hspelled : Spelled symbols) (h : Spelling symbols spelling symbol) :
    ∀ c ∈ spelling.toList, isSpace c = false := by
  have hspelling := h.spelled
  rw [List.mem_cons, List.mem_singleton] at hspelling
  rcases hspelling with hself | hname
  · rw [hself]
    exact hspelled.plain symbol h.mem
  · rw [hname]
    exact normalize_no_space (hspelled.plain symbol h.mem)

theorem Spelling.resolve (hspelled : Spelled symbols) (h : Spelling symbols spelling symbol) :
    resolveWriteSymbol spelling = normalizeStrategySymbol symbol := by
  unfold resolveWriteSymbol textOrElse
  rw [h.normalize hspelled, if_neg (hspelled.named symbol h.mem)]

theorem Spelling.canonical (hmem : symbol ∈ symbols) :
    Spelling symbols (normalizeStrategySymbol symbol) symbol := ⟨hmem, by simp⟩

theorem Spelling.mem_candidates (hspelled : Spelled symbols)
    (h : Spelling symbols spelling symbol) :
    normalizeStrategySymbol symbol ∈ positionSymbolCandidates spelling := by
  have hne : normalizeStrategySymbol spelling ≠ "" := by
    rw [h.normalize hspelled]
    exact hspelled.named symbol h.mem
  rw [← h.normalize hspelled]
  exact normalize_mem_candidates (h.no_space hspelled) hne

theorem Tidy.get? (htidy : Tidy symbols table) {key : String × PositionSide} {row : LegRow}
    (h : table.get? key = some row) :
    (∃ symbol ∈ symbols, key.1 = normalizeStrategySymbol symbol) ∧ 0 < row.position.size := by
  refine htidy key row.position ?_
  unfold PositionTable.leg
  rw [h]
  rfl

theorem Spelling.candidate (hspelled : Spelled symbols) (h : Spelling symbols spelling symbol)
    (htidy : Tidy symbols table) {candidate : String} {side : PositionSide} {row : LegRow}
    (hcandidate : candidate ∈ positionSymbolCandidates spelling)
    (hrow : table.get? (candidate, side) = some row) :
    candidate = normalizeStrategySymbol symbol := by
  obtain ⟨⟨other, hother, hname⟩, -⟩ := htidy.get? hrow
  dsimp only at hname
  rw [hname] at hcandidate ⊢
  exact hspelled.apart symbol h.mem other hother spelling h.spelled hcandidate

theorem fetchFuzzy_eq (hspelled : Spelled symbols) (h : Spelling symbols spelling symbol)
    (htidy : Tidy symbols table) (side : PositionSide) :
    PositionTable.fetchFuzzy table spelling side =
      (table.leg (normalizeStrategySymbol symbol, side)).getD {} := by
  unfold PositionTable.fetchFuzzy PositionTable.leg
  cases hfound : (positionSymbolCandidates spelling).findSome? fun candidate =>
      (table.get? (candidate, side)).filter fun row => 0 < row.position.size with
  | none =>
    rw [List.findSome?_eq_none_iff] at hfound
    have hself := hfound _ (h.mem_candidates hspelled)
    cases hrow : table.get? (normalizeStrategySymbol symbol, side) with
    | none => rfl
    | some row =>
      rw [hrow, Option.filter_eq_none_iff] at hself
      exact absurd (decide_eq_true (htidy.get? hrow).2) (hself row rfl)
  | some row =>
    obtain ⟨candidate, hcandidate, hfilter⟩ := List.exists_of_findSome?_eq_some hfound
    have hrow := (Option.filter_eq_some_iff.1 hfilter).1
    have hname := h.candidate hspelled htidy hcandidate hrow
    rw [hname] at hrow
    rw [hrow]

theorem purgeDuplicates_eq (hspelled : Spelled symbols) (hmem : symbol ∈ symbols)
    (htidy : Tidy symbols table) (side : PositionSide) :
    PositionTable.purgeDuplicates table side (normalizeStrategySymbol symbol) = table := by
  have hcanonical := Spelling.canonical hmem
  unfold PositionTable.purgeDuplicates
  dsimp only
  rw [hcanonical.resolve hspelled, if_neg (hspelled.named symbol hmem)]
  have hnone : table.keys.filter (fun key => key.2 = side ∧ strip key.1 ≠ "" ∧
      strip key.1 ≠ normalizeStrategySymbol symbol ∧
      normalizeStrategySymbol (strip key.1) = normalizeStrategySymbol symbol) = [] := by
    rw [List.filter_eq_nil_iff]
    intro key hkey
    obtain ⟨entry, hentry, rfl⟩ := List.mem_map.1 hkey
    obtain ⟨⟨other, hother, hname⟩, -⟩ := htidy.get? (Dict.get?_eq_some_iff.2 hentry)
    have hplain := hspelled.plain other hother
    rw [hname, strip_of_no_space (normalize_no_space hplain), normalize_normalize hplain]
    simp only [decide_eq_true_eq]
    exact fun hdup => hdup.2.2.1 hdup.2.2.2
  rw [hnone]
  rfl

theorem leg_set (key other : String × PositionSide) (row : LegRow) :
    PositionTable.leg (table.set key row) other =
      if other = key then some row.position else table.leg other := by
  unfold PositionTable.leg
  rw [Dict.get?_set]
  split_ifs <;> rfl

theorem Tidy.set (htidy : Tidy symbols table) (hmem : symbol ∈ symbols) {side : PositionSide}
    {row : LegRow} (hsize : 0 < row.position.size) :
    Tidy symbols (table.set (normalizeStrategySymbol symbol, side) row) := by
  intro key position hleg
  rw [leg_set] at hleg
  split_ifs at hleg with hkey
  · cases hleg
    refine ⟨⟨symbol, hmem, ?_⟩, hsize⟩
    rw [hkey]
  · exact htidy key position hleg

theorem leg_upsertPosition (hspelled : Spelled symbols) (hmem : symbol ∈ symbols)
    (htidy : Tidy symbols table) {side : PositionSide} {position : LegPosition}
    (hsize : 0 < position.size) (leg : LegContext) (key : String × PositionSide) :
    PositionTable.leg (PositionTable.upsertPosition table (normalizeStrategySymbol symbol) side
        position leg) key =
      if key = (normalizeStrategySymbol symbol, side) then some position else table.leg key := by
  unfold PositionTable.upsertPosition
  dsimp only
  rw [(Spelling.canonical hmem).resolve hspelled,
    purgeDuplicates_eq hspelled hmem (htidy.set hmem hsize), leg_set]

theorem leg_deletePosition (hspelled : Spelled symbols) (hmem : symbol ∈ symbols)
    (htidy : Tidy symbols table) (side : PositionSide) (key : String × PositionSide) :
    PositionTable.leg (PositionTable.deletePosition table (normalizeStrategySymbol symbol) side)
        key =
      if key = (normalizeStrategySymbol symbol, side) then none else table.leg key := by
  have hcanonical := Spelling.canonical hmem
  have hfold : PositionTable.deletePosition table (normalizeStrategySymbol symbol) side =
      ((positionSymbolCandidates (normalizeStrategySymbol symbol)).map
        fun candidate => (candidate, side)).foldl Dict.erase table := by
    unfold PositionTable.deletePosition
    rw [List.foldl_map]
  rw [hfold]
  unfold PositionTable.leg
  rw [Dict.get?_foldl_erase]
  by_cases hkey : key = (normalizeStrategySymbol symbol, side)
  · rw [if_pos hkey, if_pos]
    · rfl
    · rw [hkey]
      exact List.mem_map.2 ⟨_, hcanonical.mem_candidates hspelled, rfl⟩
  · rw [if_neg hkey]
    split_ifs with hmemkey
    · obtain ⟨candidate, hcandidate, rfl⟩ := List.mem_map.1 hmemkey
      cases hrow : table.get? (candidate, side) with
      | none => rfl
      | some row =>
        have hname := hcanonical.candidate hspelled htidy hcandidate hrow
        rw [hname] at hkey
        exact absurd rfl hkey
    · rfl

theorem leg_applyFill (hspelled : Spelled symbols) (h : Spelling symbols spelling symbol)
    (htidy : Tidy symbols table) (signal : SignalType) (filled price : Amount) (leg : LegContext)
    (key : String × PositionSide) :
    PositionTable.leg (PositionTable.applyFill table spelling signal filled price leg) key =
      if key = (normalizeStrategySymbol symbol, signal.side) then
        applyToRow (table.leg key) signal filled price
      else table.leg key := by
  unfold PositionTable.applyFill applyToRow
  dsimp only
  rw [fetchFuzzy_eq hspelled h htidy, h.resolve hspelled]
  generalize hcurrent : (table.leg (normalizeStrategySymbol symbol, signal.side)).getD {} = current
  have hheld : 0 ≤ current.size := by
    rw [← hcurrent]
    cases hrow : table.leg (normalizeStrategySymbol symbol, signal.side) with
    | none => exact le_refl 0
    | some position => exact (htidy _ _ hrow).2.le
  by_cases hnothing : filled ≤ 0 ∨ price ≤ 0
  · rw [if_pos hnothing, if_pos hnothing, ite_self]
  rw [if_neg hnothing, if_neg hnothing]
  have hfilled : 0 < filled := not_le.1 fun hle => hnothing (Or.inl hle)
  have hrow : key = (normalizeStrategySymbol symbol, signal.side) →
      (table.leg key).getD {} = current := fun hkey => hkey ▸ hcurrent
  cases hopens : signal.opens with
  | true =>
    have hnext : (current.applyFill signal filled price).1 = current.openBy filled price := by
      unfold LegPosition.applyFill
      rw [if_neg hnothing, if_pos hopens]
    have hsize : 0 < (current.openBy filled price).size := by
      show 0 < current.size + filled
      linarith
    rw [if_pos rfl, leg_upsertPosition hspelled h.mem htidy hsize]
    by_cases hkey : key = (normalizeStrategySymbol symbol, signal.side)
    · rw [if_pos hkey, if_pos hkey, hrow hkey, hnext]
      exact (if_neg fun hclosed => Bool.noConfusion hclosed.1).symm
    · rw [if_neg hkey, if_neg hkey]
  | false =>
    have hnext : (current.applyFill signal filled price).1 = current.closeBy filled price := by
      unfold LegPosition.applyFill
      rw [if_neg hnothing, if_neg (by rw [hopens]; exact Bool.false_ne_true)]
    rw [if_neg Bool.false_ne_true]
    by_cases hclosed : current.size - filled ≤ 0
    · have hempty : (current.closeBy filled price).size ≤ 0 := by
        unfold LegPosition.closeBy
        rw [if_pos hclosed]
      rw [if_pos hclosed, leg_deletePosition hspelled h.mem htidy]
      by_cases hkey : key = (normalizeStrategySymbol symbol, signal.side)
      · rw [if_pos hkey, if_pos hkey, hrow hkey, hnext, if_pos ⟨rfl, hempty⟩]
      · rw [if_neg hkey, if_neg hkey]
    · have hsize : 0 < (current.closeBy filled price).size := by
        unfold LegPosition.closeBy
        rw [if_neg hclosed]
        exact not_le.1 hclosed
      rw [if_neg hclosed, leg_upsertPosition hspelled h.mem htidy hsize]
      by_cases hkey : key = (normalizeStrategySymbol symbol, signal.side)
      · rw [if_pos hkey, if_pos hkey, hrow hkey, hnext,
          if_neg fun hboth => not_le.2 hsize hboth.2]
      · rw [if_neg hkey, if_neg hkey]

theorem applyToRow_held {row : Option LegPosition} (hheld : ∀ position ∈ row, 0 < position.size)
    (signal : SignalType) (filled price : Amount) :
    ∀ position ∈ applyToRow row signal filled price, 0 < position.size := by
  intro position hposition
  unfold applyToRow at hposition
  dsimp only at hposition
  by_cases hnothing : filled ≤ 0 ∨ price ≤ 0
  · rw [if_pos hnothing] at hposition
    exact hheld position hposition
  rw [if_neg hnothing] at hposition
  have hfilled : 0 < filled := not_le.1 fun hle => hnothing (Or.inl hle)
  have hbefore : 0 ≤ (row.getD {}).size := by
    cases row with
    | none => exact le_refl 0
    | some before => exact (hheld before rfl).le
  cases hopens : signal.opens with
  | true =>
    rw [if_neg (by rw [hopens]; exact fun hboth => Bool.noConfusion hboth.1)] at hposition
    cases hposition
    unfold LegPosition.applyFill
    rw [if_neg hnothing, if_pos hopens]
    show 0 < (row.getD {}).size + filled
    linarith
  | false =>
    split_ifs at hposition with hclosed
    · exact nomatch hposition
    · cases hposition
      exact not_le.1 fun hle => hclosed ⟨hopens, hle⟩

theorem Tidy.applyFill (hspelled : Spelled symbols) (h : Spelling symbols spelling symbol)
    (htidy : Tidy symbols table) (signal : SignalType) (filled price : Amount)
    (leg : LegContext) :
    Tidy symbols (PositionTable.applyFill table spelling signal filled price leg) := by
  intro key position hleg
  rw [leg_applyFill hspelled h htidy] at hleg
  by_cases hkey : key = (normalizeStrategySymbol symbol, signal.side)
  · rw [if_pos hkey] at hleg
    refine ⟨⟨symbol, h.mem, ?_⟩, ?_⟩
    · rw [hkey]
    · exact applyToRow_held (fun before hbefore => (htidy key before hbefore).2) signal filled
        price position hleg
  · rw [if_neg hkey] at hleg
    exact htidy key position hleg

end Spelling

/-! ## The replay -/

def NamedTrades (symbols : List String) (trades : List LedgerTrade) : Prop :=
  ∀ trade ∈ trades, ∃ symbol ∈ symbols, trade.symbol = normalizeStrategySymbol symbol

section Replay

variable {symbols : List String} {symbol : String}

theorem replayed_symbol (hspelled : Spelled symbols) (hmem : symbol ∈ symbols)
    {trade : LedgerTrade} (h : trade.symbol = normalizeStrategySymbol symbol) :
    textOrElse (normalizeStrategySymbol trade.symbol) trade.symbol =
      normalizeStrategySymbol symbol := by
  rw [h, normalize_normalize (hspelled.plain symbol hmem)]
  unfold textOrElse
  rw [if_neg (hspelled.named symbol hmem)]

theorem tidy_replay (hspelled : Spelled symbols) {trades : List LedgerTrade}
    (h : NamedTrades symbols trades) {table : PositionTable} (htidy : Tidy symbols table) :
    Tidy symbols (trades.foldl replayTrade table) := by
  induction trades generalizing table with
  | nil => exact htidy
  | cons trade trades ih =>
    obtain ⟨symbol, hmem, hname⟩ := h trade List.mem_cons_self
    refine ih (fun later hlater => h later (List.mem_cons_of_mem _ hlater)) ?_
    unfold replayTrade
    rw [replayed_symbol hspelled hmem hname]
    exact htidy.applyFill hspelled (Spelling.canonical hmem) _ _ _ _

theorem tidy_rebuild (hspelled : Spelled symbols) {trades : List LedgerTrade}
    (h : NamedTrades symbols trades) : Tidy symbols (rebuildPositionsFromTrades trades) :=
  tidy_replay hspelled h fun _ _ hleg => nomatch hleg

theorem leg_rebuild_append (hspelled : Spelled symbols) {trades : List LedgerTrade}
    (h : NamedTrades symbols trades) (hmem : symbol ∈ symbols) {trade : LedgerTrade}
    (hname : trade.symbol = normalizeStrategySymbol symbol) (key : String × PositionSide) :
    PositionTable.leg (rebuildPositionsFromTrades (trades ++ [trade])) key =
      if key = (normalizeStrategySymbol symbol, trade.signal.side) then
        applyToRow (PositionTable.leg (rebuildPositionsFromTrades trades) key) trade.signal
          trade.amount trade.price
      else PositionTable.leg (rebuildPositionsFromTrades trades) key := by
  have happend : rebuildPositionsFromTrades (trades ++ [trade]) =
      replayTrade (rebuildPositionsFromTrades trades) trade := by
    unfold rebuildPositionsFromTrades
    rw [List.foldl_append]
    rfl
  rw [happend]
  unfold replayTrade
  rw [replayed_symbol hspelled hmem hname]
  exact leg_applyFill hspelled (Spelling.canonical hmem) (tidy_rebuild hspelled h) _ _ _ _ _

end Replay

/-! ## Equal rows -/

/-- A quantity moves a leg of the given size like the recorded one: it is the same, or there is
nothing left of the leg either way. -/
def QuantityMatches (size : Amount) (signal : SignalType) (recorded moved : Amount) : Prop :=
  moved = recorded ∨ (signal.opens = false ∧ (size ≤ 0 ∨ (size ≤ recorded ∧ size ≤ moved)))

instance (size : Amount) (signal : SignalType) (recorded moved : Amount) :
    Decidable (QuantityMatches size signal recorded moved) := instDecidableOr

section Rows

variable {row : Option LegPosition} {signal : SignalType} {filled price : Amount}

theorem applyToRow_opens (hopens : signal.opens = true) (hfilled : 0 < filled)
    (hprice : 0 < price) :
    applyToRow row signal filled price = some ((row.getD {}).openBy filled price) := by
  have hgoes : ¬ (filled ≤ 0 ∨ price ≤ 0) := not_or.2 ⟨not_le.2 hfilled, not_le.2 hprice⟩
  unfold applyToRow LegPosition.applyFill
  dsimp only
  rw [if_neg hgoes, if_neg hgoes, if_pos hopens]
  exact if_neg fun hboth => Bool.noConfusion (hopens.symm.trans hboth.1)

theorem size_closeBy {leg : LegPosition} (h : ¬ leg.size ≤ filled) :
    (leg.closeBy filled price).size = leg.size - filled := by
  unfold LegPosition.closeBy
  rw [if_neg fun hle => h (sub_nonpos.1 hle)]

theorem applyToRow_closes (hcloses : signal.opens = false) (hfilled : 0 < filled)
    (hprice : 0 < price) :
    applyToRow row signal filled price = if (row.getD {}).size ≤ filled then none
      else some ((row.getD {}).closeBy filled price) := by
  have hgoes : ¬ (filled ≤ 0 ∨ price ≤ 0) := not_or.2 ⟨not_le.2 hfilled, not_le.2 hprice⟩
  unfold applyToRow LegPosition.applyFill
  dsimp only
  rw [if_neg hgoes, if_neg hgoes, hcloses, if_neg Bool.false_ne_true]
  by_cases hused : (row.getD {}).size ≤ filled
  · rw [if_pos hused]
    refine if_pos ⟨rfl, ?_⟩
    unfold LegPosition.closeBy
    rw [if_pos (sub_nonpos.2 hused)]
  · rw [if_neg hused]
    refine if_neg ?_
    rintro ⟨-, hsize⟩
    rw [size_closeBy hused] at hsize
    exact hused (sub_nonpos.1 hsize)

theorem applyToRow_eq_iff (hheld : ∀ position ∈ row, 0 < position.size) {recorded : Amount}
    (hrecorded : 0 < recorded) (hprice : 0 < price) (moved : Amount) :
    applyToRow row signal moved price = applyToRow row signal recorded price ↔
      QuantityMatches (row.getD {}).size signal recorded moved := by
  by_cases hsame : moved = recorded
  · rw [hsame]
    exact ⟨fun _ => Or.inl rfl, fun _ => rfl⟩
  have hrow : ∀ position, row = some position → (row.getD {}).size = position.size := by
    rintro position rfl
    rfl
  cases hopens : signal.opens with
  | true =>
    refine iff_of_false ?_ ?_
    · rw [applyToRow_opens hopens hrecorded hprice]
      by_cases hmoved : 0 < moved
      · rw [applyToRow_opens hopens hmoved hprice]
        intro heq
        have hsize := congrArg LegPosition.size (Option.some.inj heq)
        exact hsame (add_left_cancel hsize)
      · have hstays : applyToRow row signal moved price = row :=
          if_pos (Or.inl (not_lt.1 hmoved))
        rw [hstays]
        intro heq
        have hsize := hrow _ heq
        have hmore : ((row.getD {}).openBy recorded price).size =
            (row.getD {}).size + recorded := rfl
        linarith
    · rintro (h | h)
      · exact hsame h
      · rw [hopens] at h
        exact Bool.noConfusion h.1
  | false =>
    rw [applyToRow_closes hopens hrecorded hprice]
    unfold QuantityMatches
    by_cases hmoved : 0 < moved
    · rw [applyToRow_closes hopens hmoved hprice]
      by_cases hall : (row.getD {}).size ≤ recorded
      · rw [if_pos hall]
        by_cases hboth : (row.getD {}).size ≤ moved
        · rw [if_pos hboth]
          exact ⟨fun _ => Or.inr ⟨hopens, Or.inr ⟨hall, hboth⟩⟩, fun _ => rfl⟩
        · rw [if_neg hboth]
          refine iff_of_false (fun heq => nomatch heq) ?_
          rintro (h | ⟨-, hempty | hclosed⟩)
          · exact hsame h
          · exact hboth (hempty.trans hmoved.le)
          · exact hboth hclosed.2
      · rw [if_neg hall]
        refine iff_of_false ?_ ?_
        · by_cases hboth : (row.getD {}).size ≤ moved
          · rw [if_pos hboth]
            exact fun heq => nomatch heq
          · rw [if_neg hboth]
            intro heq
            have hsize := congrArg LegPosition.size (Option.some.inj heq)
            rw [size_closeBy hboth, size_closeBy hall] at hsize
            exact hsame (by linarith)
        · rintro (h | ⟨-, hempty | hclosed⟩)
          · exact hsame h
          · exact hall (hempty.trans hrecorded.le)
          · exact hall hclosed.1
    · have hstays : applyToRow row signal moved price = row :=
        if_pos (Or.inl (not_lt.1 hmoved))
      rw [hstays]
      cases hcase : row with
      | none =>
        have hzero : ((none : Option LegPosition).getD {}).size ≤ recorded := hrecorded.le
        rw [if_pos hzero]
        exact ⟨fun _ => Or.inr ⟨hopens, Or.inl (le_refl 0)⟩, fun _ => rfl⟩
      | some position =>
        have hpositive := hheld position (by rw [hcase]; rfl)
        rw [Option.getD_some]
        refine iff_of_false ?_ ?_
        · by_cases hall : position.size ≤ recorded
          · rw [if_pos hall]
            exact fun heq => nomatch heq
          · rw [if_neg hall]
            intro heq
            have hsize := congrArg LegPosition.size (Option.some.inj heq)
            rw [size_closeBy hall] at hsize
            linarith
        · rintro (h | ⟨-, hempty | hclosed⟩)
          · exact hsame h
          · exact not_lt.2 hempty hpositive
          · exact hmoved (hpositive.trans_le hclosed.2)

end Rows

/-! ## Late fees -/

/-- A late fee leaves the position alone: not a spot trade, no fee in its base currency, or no row
of its leg. -/
def FeeMatches (ledger : TradeLedger) (orderId : ℕ) (fees : Fees) : Prop :=
  ∀ trade ∈ (ledger.trades.filter fun trade => trade.pendingOrderId = orderId).getLast?,
    lower trade.marketType ∉ ["spot", "crypto"] ∨
      feeIn fees (symbolCurrencies trade.symbol).1 = 0 ∨
      ∀ row ∈ ledger.positions.get? (trade.symbol, .long),
        ¬ (row.credentialId = trade.credentialId ∧ row.marketType = trade.marketType)

instance (ledger : TradeLedger) (orderId : ℕ) (fees : Fees) :
    Decidable (FeeMatches ledger orderId fees) := by
  unfold FeeMatches
  infer_instance

theorem foldl_updateLast {p : LedgerTrade → Bool} {f : LedgerTrade → LedgerTrade}
    (h : ∀ table trade, replayTrade table (f trade) = replayTrade table trade)
    (trades : List LedgerTrade) (table : PositionTable) :
    (updateLast p f trades).foldl replayTrade table = trades.foldl replayTrade table := by
  induction trades generalizing table with
  | nil => rfl
  | cons trade trades ih =>
    unfold updateLast
    split_ifs
    · rw [List.foldl_cons, List.foldl_cons, h]
    · rw [List.foldl_cons, List.foldl_cons, ih]

theorem mem_updateLast {p : LedgerTrade → Bool} {f : LedgerTrade → LedgerTrade}
    {trades : List LedgerTrade} {trade : LedgerTrade} (h : trade ∈ updateLast p f trades) :
    trade ∈ trades ∨ ∃ before ∈ trades, trade = f before := by
  induction trades with
  | nil => exact nomatch h
  | cons first trades ih =>
    unfold updateLast at h
    split_ifs at h
    · rcases List.mem_cons.1 h with heq | hrest
      · exact Or.inr ⟨first, List.mem_cons_self, heq⟩
      · exact Or.inl (List.mem_cons_of_mem _ hrest)
    · rcases List.mem_cons.1 h with heq | hrest
      · exact Or.inl (heq ▸ List.mem_cons_self)
      · rcases ih hrest with hold | ⟨before, hbefore, heq⟩
        · exact Or.inl (List.mem_cons_of_mem _ hold)
        · exact Or.inr ⟨before, List.mem_cons_of_mem _ hbefore, heq⟩

/-- INTERNAL: the rows after the adjustment of a trade's fee. -/
def adjustedPositions (positions : PositionTable) (trade : LedgerTrade) (fees : Fees) :
    PositionTable :=
  positions.updateWith (trade.symbol, .long) fun row => row.bind fun row =>
    if row.credentialId = trade.credentialId ∧ row.marketType = trade.marketType then
      (adjustLeg (some row.position) trade.toFeeTrade fees).map fun position =>
        { row with position := position }
    else none

theorem adjustLeg_eq_iff {position : LegPosition} (hheld : 0 < position.size) (trade : FeeTrade)
    (fees : Fees) :
    adjustLeg (some position) trade fees = some position ↔
      (lower trade.marketType ∉ ["spot", "crypto"] ∨
        feeIn fees (symbolCurrencies trade.symbol).1 = 0) := by
  unfold adjustLeg
  dsimp only
  by_cases hspot : lower trade.marketType ∈ ["spot", "crypto"]
  · rw [if_pos hspot]
    by_cases hzero : feeIn fees (symbolCurrencies trade.symbol).1 = 0
    · rw [if_pos hzero]
      exact ⟨fun _ => Or.inr hzero, fun _ => rfl⟩
    · rw [if_neg hzero]
      refine iff_of_false ?_ ?_
      · intro heq
        have hsize := congrArg LegPosition.size (Option.some.inj heq)
        have hmax : max 0 (position.size - feeIn fees (symbolCurrencies trade.symbol).1) =
            position.size := hsize
        rcases max_choice 0 (position.size - feeIn fees (symbolCurrencies trade.symbol).1) with
          hchoice | hchoice
        · rw [hchoice] at hmax
          exact hheld.ne hmax
        · rw [hchoice] at hmax
          exact hzero (by linarith)
      · rintro (h | h)
        · exact h hspot
        · exact hzero h
  · rw [if_neg hspot]
    exact ⟨fun _ => Or.inl hspot, fun _ => rfl⟩

theorem adjustedPositions_eq_iff {symbols : List String} {positions : PositionTable}
    (htidy : Tidy symbols positions) (trade : LedgerTrade) (fees : Fees) :
    (∀ key, (adjustedPositions positions trade fees).leg key = positions.leg key) ↔
      (lower trade.marketType ∉ ["spot", "crypto"] ∨
        feeIn fees (symbolCurrencies trade.symbol).1 = 0 ∨
        ∀ row ∈ positions.get? (trade.symbol, .long),
          ¬ (row.credentialId = trade.credentialId ∧ row.marketType = trade.marketType)) := by
  have hothers : ∀ key, key ≠ (trade.symbol, PositionSide.long) →
      (adjustedPositions positions trade fees).leg key = positions.leg key := by
    intro key hkey
    unfold adjustedPositions PositionTable.leg
    rw [Dict.get?_updateWith, if_neg hkey]
  have hone : (∀ key, (adjustedPositions positions trade fees).leg key = positions.leg key) ↔
      (adjustedPositions positions trade fees).leg (trade.symbol, .long) =
        positions.leg (trade.symbol, .long) := by
    refine ⟨fun hall => hall _, ?_⟩
    intro hleg key
    by_cases hkey : key = (trade.symbol, PositionSide.long)
    · rw [hkey]
      exact hleg
    · exact hothers key hkey
  rw [hone]
  unfold adjustedPositions PositionTable.leg
  rw [Dict.get?_updateWith, if_pos rfl]
  cases hrow : positions.get? (trade.symbol, .long) with
  | none =>
    exact ⟨fun _ => Or.inr (Or.inr fun _ hnone => nomatch hnone), fun _ => rfl⟩
  | some row =>
    rw [Option.bind_some]
    by_cases hfound : row.credentialId = trade.credentialId ∧ row.marketType = trade.marketType
    · have hheld := (htidy.get? hrow).2
      have hadjust : (((adjustLeg (some row.position) trade.toFeeTrade fees).map
            fun position => { row with position := position }).or (some row)).map
              LegRow.position = some row.position ↔
          adjustLeg (some row.position) trade.toFeeTrade fees = some row.position := by
        cases hleg : adjustLeg (some row.position) trade.toFeeTrade fees with
        | none =>
          have hsome : adjustLeg (some row.position) trade.toFeeTrade fees ≠ none := by
            unfold adjustLeg
            dsimp only
            split_ifs <;> exact fun hnone => nomatch hnone
          exact absurd hleg hsome
        | some position => exact Iff.rfl
      rw [if_pos hfound, Option.map_some, hadjust, adjustLeg_eq_iff hheld, or_assoc.symm]
      refine ⟨Or.inl, ?_⟩
      rintro (h | h)
      · exact h
      · exact absurd hfound (h row rfl)
    · rw [if_neg hfound]
      refine ⟨fun _ => Or.inr (Or.inr ?_), fun _ => rfl⟩
      intro other hother
      cases hother
      exact hfound

/-! ## Steps -/

/-- The replayed rows are the rows of the ledger. -/
def Rebuilt (ledger : TradeLedger) : Prop :=
  ∀ key, (rebuildPositionsFromTrades ledger.trades).leg key = ledger.positions.leg key

/-- What a fill comes to moves the position like its trade does. -/
def OutcomeMatches (ledger : TradeLedger) : Except FillError FillEffect → Prop
  | .ok (.post post) =>
    QuantityMatches
      ((ledger.positions.leg (resolveWriteSymbol post.symbol, post.signal.side)).getD {}).size
      post.signal post.filled post.positionQty
  | .ok (.adjust orderId fees) => FeeMatches ledger orderId fees
  | .ok .nothing => True
  | .error _ => True

instance (ledger : TradeLedger) :
    (outcome : Except FillError FillEffect) → Decidable (OutcomeMatches ledger outcome)
  | .ok (.post _) => inferInstanceAs (Decidable (QuantityMatches _ _ _ _))
  | .ok (.adjust orderId fees) => inferInstanceAs (Decidable (FeeMatches ledger orderId fees))
  | .ok .nothing => isTrue trivial
  | .error _ => isTrue trivial

/-- A fill moves the position like its trade does. -/
def FillMatches (ledger : TradeLedger) (fill : PostedFill) : Prop :=
  OutcomeMatches ledger (fill.outcome ledger)

instance (ledger : TradeLedger) (fill : PostedFill) : Decidable (FillMatches ledger fill) :=
  inferInstanceAs (Decidable (OutcomeMatches _ _))

/-- What is posted is an execution of the symbol of the call. -/
structure ExecutedPost (symbol : String) (post : FillPost) : Prop where
  spelled : post.symbol ∈ [symbol, normalizeStrategySymbol symbol]
  filled : 0 < post.filled
  avgPrice : 0 < post.avgPrice

theorem executed_of_toPost {call : FillCall} {post : FillPost}
    (h : call.toPost = .ok (.post post)) : ExecutedPost call.symbol post := by
  unfold FillCall.toPost at h
  split_ifs at h with htiny
  · cases h
  · cases hexecuted : requireExecution call.filled call.avgPrice with
    | error e =>
      rw [hexecuted] at h
      exact nomatch h
    | ok value =>
      rw [hexecuted] at h
      obtain ⟨hfilled, hprice⟩ := requireExecution_ok hexecuted
      cases h
      exact ⟨List.mem_cons_self, hfilled, hprice⟩

theorem executed_of_fromCumulative {call : FillCall} {store : FeeStore} {cumulative : Amount}
    {post : FillPost} (h : call.fromCumulative store cumulative = .ok (.post post)) :
    ExecutedPost call.symbol post := by
  unfold FillCall.fromCumulative at h
  split at h
  · cases h
  · rename_i quantity price _
    by_cases hlate : cumulative + 1 / 10 ^ 12 < store.postedQuantity
    · rw [if_pos hlate] at h
      cases h
    · rw [if_neg hlate] at h
      dsimp only at h
      by_cases hnothing : quantity ≤ 0
      · rw [if_pos hnothing] at h
        split_ifs at h <;> cases h
      · rw [if_neg hnothing] at h
        have hposted := executed_of_toPost h
        exact ⟨hposted.spelled, hposted.filled, hposted.avgPrice⟩

theorem executed_of_outcome {ledger : TradeLedger} {fill : PostedFill} {post : FillPost}
    (h : fill.outcome ledger = .ok (.post post)) : ExecutedPost fill.symbol post := by
  cases fill with
  | strategy call =>
    unfold PostedFill.outcome FillCall.outcome at h
    dsimp only at h
    split at h
    · exact nomatch h
    · split at h
      · split at h
        · exact executed_of_fromCumulative h
        · exact executed_of_toPost h
      · exact executed_of_toPost h
  | grid call =>
    unfold PostedFill.outcome GridFillCall.outcome at h
    dsimp only at h
    cases hexecuted : requireExecution call.filledQty call.avgPrice with
    | error e =>
      rw [hexecuted] at h
      exact nomatch h
    | ok value =>
      rw [hexecuted] at h
      obtain ⟨hfilled, hprice⟩ := requireExecution_ok hexecuted
      rw [← FillEffect.post.inj (Except.ok.inj h)]
      refine ⟨?_, hfilled, hprice⟩
      dsimp only [PostedFill.symbol]
      rw [List.mem_cons, List.mem_singleton]
      exact Or.inr rfl

section Steps

variable {symbols : List String} {ledger : TradeLedger}

theorem Rebuilt.tidy (hspelled : Spelled symbols) (hnamed : NamedTrades symbols ledger.trades)
    (h : Rebuilt ledger) : Tidy symbols ledger.positions := by
  intro key position hleg
  rw [← h key] at hleg
  exact tidy_rebuild hspelled hnamed key position hleg

theorem post_rebuilt_iff (hspelled : Spelled symbols) (hnamed : NamedTrades symbols ledger.trades)
    (hrebuilt : Rebuilt ledger) {symbol : String} (hmem : symbol ∈ symbols) {post : FillPost}
    (h : ExecutedPost symbol post) :
    NamedTrades symbols (ledger.post post).trades ∧
      (Rebuilt (ledger.post post) ↔ OutcomeMatches ledger (.ok (.post post))) := by
  have hspelling : Spelling symbols post.symbol symbol := ⟨hmem, h.spelled⟩
  have hname : post.trade.symbol = normalizeStrategySymbol symbol := by
    rw [FillPost.trade_symbol, hspelling.resolve hspelled]
  have htidy := hrebuilt.tidy hspelled hnamed
  refine ⟨?_, ?_⟩
  · intro trade htrade
    rcases List.mem_append.1 htrade with hold | hnew
    · exact hnamed trade hold
    · rw [List.mem_singleton] at hnew
      rw [hnew]
      exact ⟨symbol, hmem, hname⟩
  have hheld : ∀ position ∈
      ledger.positions.leg (normalizeStrategySymbol symbol, post.signal.side),
      0 < position.size := fun position hposition => (htidy _ position hposition).2
  have hrows : Rebuilt (ledger.post post) ↔
      applyToRow (ledger.positions.leg (normalizeStrategySymbol symbol, post.signal.side))
          post.signal post.positionQty post.avgPrice =
        applyToRow (ledger.positions.leg (normalizeStrategySymbol symbol, post.signal.side))
          post.signal post.filled post.avgPrice := by
    have hreplayed := leg_rebuild_append hspelled hnamed hmem hname
    rw [FillPost.trade_signal, FillPost.trade_amount, FillPost.trade_price] at hreplayed
    have hmoved := leg_applyFill hspelled hspelling htidy post.signal post.positionQty
      post.avgPrice post.leg
    constructor
    · intro hall
      have hkey := hall (normalizeStrategySymbol symbol, post.signal.side)
      unfold TradeLedger.post at hkey
      dsimp only at hkey
      rw [hreplayed, hmoved, if_pos rfl, if_pos rfl, hrebuilt] at hkey
      exact hkey.symm
    · intro heq key
      unfold TradeLedger.post
      dsimp only
      rw [hreplayed, hmoved, hrebuilt]
      by_cases hkey : key = (normalizeStrategySymbol symbol, post.signal.side)
      · rw [if_pos hkey, if_pos hkey, hkey]
        exact heq.symm
      · rw [if_neg hkey, if_neg hkey]
  rw [hrows, applyToRow_eq_iff hheld h.filled h.avgPrice]
  unfold OutcomeMatches
  dsimp only
  rw [hspelling.resolve hspelled]

theorem adjust_rebuilt_iff (hspelled : Spelled symbols)
    (hnamed : NamedTrades symbols ledger.trades) (hrebuilt : Rebuilt ledger) {orderId : ℕ}
    {fees : Fees} {next : TradeLedger} (h : ledger.adjustOrderFee orderId fees = .ok next) :
    NamedTrades symbols next.trades ∧ (Rebuilt next ↔ FeeMatches ledger orderId fees) := by
  have htidy := hrebuilt.tidy hspelled hnamed
  unfold TradeLedger.adjustOrderFee at h
  cases hlast : (ledger.trades.filter fun trade => trade.pendingOrderId = orderId).getLast? with
  | none =>
    rw [hlast] at h
    exact nomatch h
  | some trade =>
    rw [hlast] at h
    rw [← Except.ok.inj h]
    refine ⟨?_, ?_⟩
    · intro row hrow
      rcases mem_updateLast hrow with hold | ⟨before, hbefore, heq⟩
      · exact hnamed row hold
      · rw [heq]
        exact hnamed before hbefore
    · have hsame : rebuildPositionsFromTrades (updateLast
          (fun row : LedgerTrade => row.pendingOrderId = orderId)
          (fun row => { row with toFeeTrade := row.toFeeTrade.adjusted fees }) ledger.trades) =
          rebuildPositionsFromTrades ledger.trades :=
        foldl_updateLast
          (f := fun row => { row with toFeeTrade := row.toFeeTrade.adjusted fees })
          (fun _ _ => rfl) ledger.trades Dict.empty
      have hrows : (∀ key, (rebuildPositionsFromTrades ledger.trades).leg key =
            (adjustedPositions ledger.positions trade fees).leg key) ↔
          FeeMatches ledger orderId fees := by
        have hmatches := adjustedPositions_eq_iff htidy trade fees
        constructor
        · intro hall row hrow
          rw [hlast] at hrow
          cases hrow
          refine hmatches.1 fun key => ?_
          rw [← hall key, hrebuilt key]
        · intro hfee key
          rw [hmatches.2 (hfee trade hlast) key, hrebuilt key]
      unfold Rebuilt
      dsimp only
      rw [hsame]
      exact hrows

theorem postFill_rebuilt_iff (hspelled : Spelled symbols)
    (hnamed : NamedTrades symbols ledger.trades) (hrebuilt : Rebuilt ledger) {fill : PostedFill}
    (hmem : fill.symbol ∈ symbols) :
    NamedTrades symbols (postFill ledger fill).trades ∧
      (Rebuilt (postFill ledger fill) ↔ FillMatches ledger fill) := by
  unfold postFill FillMatches
  cases houtcome : fill.outcome ledger with
  | error e => exact ⟨hnamed, fun _ => trivial, fun _ => hrebuilt⟩
  | ok outcome =>
    cases outcome with
    | nothing => exact ⟨hnamed, fun _ => trivial, fun _ => hrebuilt⟩
    | post post =>
      exact post_rebuilt_iff hspelled hnamed hrebuilt hmem (executed_of_outcome houtcome)
    | adjust orderId fees =>
      dsimp only
      cases hadjust : ledger.adjustOrderFee orderId fees with
      | ok next => exact adjust_rebuilt_iff hspelled hnamed hrebuilt hadjust
      | error e =>
        refine ⟨hnamed, ?_, fun _ => hrebuilt⟩
        intro _ trade htrade
        unfold TradeLedger.adjustOrderFee at hadjust
        rw [htrade] at hadjust
        exact nomatch hadjust

end Steps

/-! ## Runs -/

/-- The ledger after a sequence of fills, from an empty one. -/
def ledgerAfter (fills : List PostedFill) : TradeLedger := runActions postFill {} fills

/-- For fills of consistently spelled symbols, in every state of the run the replay of the trades
rebuilds the position rows exactly if every fill moves the position like its trade does. -/
theorem replay_rebuilds_iff {symbols : List String} (hspelled : Spelled symbols)
    {fills : List PostedFill} (hsymbols : ∀ fill ∈ fills, fill.symbol ∈ symbols) :
    (∀ earlier, earlier <+: fills → ∀ key,
      (rebuildPositionsFromTrades (ledgerAfter earlier).trades).leg key =
        (ledgerAfter earlier).positions.leg key) ↔
      Along postFill FillMatches {} fills := by
  have hstep : ∀ ledger, ∀ fill ∈ fills,
      (NamedTrades symbols ledger.trades ∧ Rebuilt ledger) →
      ((NamedTrades symbols (postFill ledger fill).trades ∧ Rebuilt (postFill ledger fill)) ↔
        FillMatches ledger fill) := by
    rintro ledger fill hfill ⟨hnamed, hrebuilt⟩
    obtain ⟨hnext, hiff⟩ :=
      postFill_rebuilt_iff hspelled hnamed hrebuilt (hsymbols fill hfill)
    rw [← hiff]
    exact and_iff_right hnext
  have hstart : NamedTrades symbols ({} : TradeLedger).trades ∧ Rebuilt {} :=
    ⟨fun _ htrade => (nomatch htrade), fun _ => rfl⟩
  rw [along_iff_throughout hstep hstart]
  constructor
  · intro hall earlier hearlier
    have hbefore : ∀ shorter, shorter <+: earlier →
        NamedTrades symbols (ledgerAfter shorter).trades := by
      intro shorter
      induction shorter using List.reverseRecOn with
      | nil => exact fun _ => hstart.1
      | append_singleton shorter fill ih =>
        intro hinitial
        have hshorter := (List.prefix_append shorter [fill]).trans hinitial
        have hstate : ledgerAfter (shorter ++ [fill]) = postFill (ledgerAfter shorter) fill := by
          unfold ledgerAfter runActions
          rw [List.foldl_append]
          rfl
        rw [hstate]
        refine (postFill_rebuilt_iff hspelled (ih hshorter)
          (hall shorter (hshorter.trans hearlier)) (hsymbols fill ?_)).1
        exact (hinitial.trans hearlier).subset (by simp)
    exact ⟨hbefore earlier (List.prefix_refl earlier), hall earlier hearlier⟩
  · intro hall earlier hearlier
    exact (hall earlier hearlier).2

theorem spelled_one : Spelled ["BTC/USDT"] := by
  refine ⟨?_, ?_, ?_⟩
  · intro symbol hsymbol c hc
    rw [List.mem_singleton] at hsymbol
    rw [hsymbol] at hc
    have hletters : "BTC/USDT".toList = ['B', 'T', 'C', '/', 'U', 'S', 'D', 'T'] := by decide
    rw [hletters] at hc
    fin_cases hc <;> rfl
  · decide +kernel
  · intro symbol hsymbol other hother _ _ _
    rw [List.mem_singleton] at hsymbol hother
    rw [hsymbol, hother]

/-- A buy, a grid exit of a half, and a sale of the rest, whose base fee does not matter. -/
def closedFills : List PostedFill :=
  [.strategy
    { symbol := "BTC/USDT", signal := .openLong, filled := 2, avgPrice := 100, marketType := "spot"
      feesByCcy := Dict.empty.set "USDT" 1 },
   .grid
    { symbol := "BTC/USDT", purpose := .longExit, filledQty := 1, avgPrice := 110
      marketType := "spot" },
   .strategy
    { symbol := "BTC/USDT", signal := .closeLong, filled := 1, avgPrice := 120, marketType := "spot"
      orderId := 3, cumulativeFilled := some 1, cumulativeAveragePrice := 120
      cumulativeFees := some (Dict.empty.set "BTC" (1 / 1000)) }]

/-- The trades of such fills rebuild the rows. -/
theorem closed_fills_rebuild : Along postFill FillMatches {} closedFills ∧
    ∀ earlier, earlier <+: closedFills → ∀ key,
      (rebuildPositionsFromTrades (ledgerAfter earlier).trades).leg key =
        (ledgerAfter earlier).positions.leg key := by
  have hmatches : Along postFill FillMatches {} closedFills := by decide +kernel
  exact ⟨hmatches, (replay_rebuilds_iff spelled_one (by decide +kernel)).2 hmatches⟩

def baseFeeBuy : PostedFill :=
  .strategy
    { symbol := "BTC/USDT", signal := .openLong, filled := 1, avgPrice := 100, marketType := "spot"
      orderId := 1, cumulativeFilled := some 1, cumulativeAveragePrice := 100
      cumulativeFees := some (Dict.empty.set "BTC" (1 / 1000)) }

/-- The replay of a buy brings the fee back that was taken off the inventory. -/
theorem base_fee_not_replayed : ¬ ∀ symbols, Spelled symbols → ∀ fills : List PostedFill,
    (∀ fill ∈ fills, fill.symbol ∈ symbols) → ∀ key,
      (rebuildPositionsFromTrades (ledgerAfter fills).trades).leg key =
        (ledgerAfter fills).positions.leg key := by
  intro h
  have hkey := h ["BTC/USDT"] spelled_one [baseFeeBuy] (by decide +kernel) ("BTC/USDT", .long)
  revert hkey
  decide +kernel

end QuantDinger.Analysis
