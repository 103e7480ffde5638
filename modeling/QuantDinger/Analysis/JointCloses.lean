import QuantDinger.Model.PositionLedger

/-!
# Closes that share an account leg

Every strategy of an account leg sizes its close on its own, from its ledger row, the
exchange position and the allocations of the others. The sizes together stay within the
exchange position: what the account is short of its allocations comes off every close, and
`max 0 (x - δ)` is superadditive.
-/

namespace QuantDinger.Analysis

open QuantDinger.Model
open QuantDinger.Model.Live

/-! ## Lists of shares -/

section Shares

variable {ι α : Type} [DecidableEq ι]

private theorem sum_ite_key_le {keys : List ι} (hkeys : keys.Nodup) (key : ι) {value : Amount}
    (hvalue : 0 ≤ value) :
    (keys.map fun i => if key = i then value else 0).sum ≤ value := by
  induction keys with
  | nil => simpa using hvalue
  | cons i keys ih =>
    obtain ⟨hfresh, hrest⟩ := List.nodup_cons.mp hkeys
    by_cases h : key = i
    · have hnone : ∀ j ∈ keys, (if key = j then value else 0) = (0 : Amount) := by
        intro j hj
        have hne : key ≠ j := by
          intro hkey
          exact hfresh (h ▸ hkey ▸ hj)
        simp [hne]
      simp [h, List.map_congr_left (h ▸ hnone)]
    · simpa [h] using ih hrest

theorem sum_by_key_le {keys : List ι} (hkeys : keys.Nodup) (key : α → ι) (value : α → Amount)
    (hvalue : ∀ a, 0 ≤ value a) (rows : List α) :
    (keys.map fun i => ((rows.filter fun a => key a = i).map value).sum).sum ≤
      (rows.map value).sum := by
  induction rows with
  | nil => simp
  | cons a rows ih =>
    have hsplit : ∀ i, (((a :: rows).filter fun a => key a = i).map value).sum =
        (if key a = i then value a else 0) +
          ((rows.filter fun a => key a = i).map value).sum := by
      intro i
      by_cases h : key a = i
      · simp [h]
      · simp [h]
    have hone := sum_ite_key_le hkeys (key a) (hvalue a)
    simp only [hsplit, List.sum_map_add, List.map_cons, List.sum_cons]
    linarith

private theorem sum_shortfall_le {shortfall : Amount} (hshort : 0 ≤ shortfall) (shares : List Amount)
    (hshares : ∀ share ∈ shares, 0 ≤ share) :
    (shares.map fun share => max 0 (share - shortfall)).sum ≤ max 0 (shares.sum - shortfall) := by
  induction shares with
  | nil => simp
  | cons share shares ih =>
    have hshare := hshares share List.mem_cons_self
    have hrest := ih fun x hx => hshares x (List.mem_cons_of_mem _ hx)
    have hsum : 0 ≤ shares.sum :=
      List.sum_nonneg fun x hx => hshares x (List.mem_cons_of_mem _ hx)
    have htwo : max 0 (share - shortfall) + max 0 (shares.sum - shortfall) ≤
        max 0 (share + shares.sum - shortfall) := by
      rcases le_total share shortfall with h | h
      · rw [max_eq_left (by linarith : share - shortfall ≤ 0), zero_add]
        exact max_le_max le_rfl (by linarith)
      · rcases le_total shares.sum shortfall with h' | h'
        · rw [max_eq_left (by linarith : shares.sum - shortfall ≤ 0), add_zero]
          exact max_le_max le_rfl (by linarith)
        · rw [max_eq_right (by linarith : (0 : Amount) ≤ share - shortfall),
            max_eq_right (by linarith : (0 : Amount) ≤ shares.sum - shortfall)]
          exact le_max_of_le_right (by linarith)
    simp only [List.map_cons, List.sum_cons]
    linarith

theorem sum_takings_le {whole : Amount} (hwhole : 0 ≤ whole) (members : List α)
    (share taking : α → Amount) (hshare : ∀ a ∈ members, 0 ≤ share a)
    (hown : ∀ a ∈ members, taking a ≤ share a)
    (hleft : ∀ a ∈ members,
      taking a ≤ max 0 (whole - ((members.map share).sum - share a))) :
    (members.map taking).sum ≤ whole := by
  have hshort : (0 : Amount) ≤ max 0 ((members.map share).sum - whole) := le_max_left _ _
  have heach : ∀ a ∈ members,
      taking a ≤ max 0 (share a - max 0 ((members.map share).sum - whole)) := by
    intro a ha
    rcases le_total (members.map share).sum whole with h | h
    · rw [max_eq_left (by linarith : (members.map share).sum - whole ≤ 0), sub_zero,
        max_eq_right (hshare a ha)]
      exact hown a ha
    · rw [max_eq_right (by linarith : (0 : Amount) ≤ (members.map share).sum - whole)]
      exact (hleft a ha).trans (max_le_max le_rfl (by linarith))
  have hsum := sum_shortfall_le hshort (members.map share) (by simpa using hshare)
  rw [List.map_map] at hsum
  calc (members.map taking).sum
      ≤ (members.map ((fun x => max 0 (x - max 0 ((members.map share).sum - whole))) ∘
          share)).sum := List.sum_le_sum heach
    _ ≤ max 0 ((members.map share).sum - max 0 ((members.map share).sum - whole)) := hsum
    _ ≤ whole := by
        refine max_le hwhole ?_
        have := le_max_right 0 ((members.map share).sum - whole)
        linarith

end Shares

/-! ## One close -/

theorem sizeByLedger_le (requested : Amount) {dbSize : Amount} (hsize : 0 ≤ dbSize) :
    (sizeByLedger requested dbSize false).1 ≤ dbSize ∧
      (0 < requested → (sizeByLedger requested dbSize false).1 ≤ requested) := by
  unfold sizeByLedger
  by_cases hpos : 0 < dbSize
  · by_cases hzero : max 0 requested ≤ 0
    · have hnone : ¬ 0 < requested := fun h => absurd (lt_max_of_lt_right h) (not_lt.mpr hzero)
      simp [hpos, hzero, hnone]
    · by_cases hcap : dbSize < max 0 requested
      · simp only [hpos, hzero, hcap, if_true, if_false]
        refine ⟨le_rfl, fun h => ?_⟩
        rw [max_eq_right h.le] at hcap
        exact hcap.le
      · simp only [hpos, hzero, hcap, if_true, if_false]
        exact ⟨not_lt.mp hcap, fun h => (max_eq_right h.le).le⟩
  · simp only [hpos, if_false, Bool.false_eq_true]
    exact ⟨hsize, fun h => h.le⟩

theorem sizeByExchange_le (amount exchangeSize : Amount) (details : ReduceOnlyMeta) :
    (sizeByExchange amount exchangeSize details false).1 ≤ amount := by
  unfold sizeByExchange
  by_cases hpos : 0 < exchangeSize
  · by_cases hcap : exchangeSize < amount
    · simpa [hpos, hcap] using hcap.le
    · simp [hpos, hcap]
  · by_cases hzero : amount ≤ 0
    · simp [hpos, hzero]
    · simp [hpos, hzero]

theorem sizeByExchange_details (requested dbSize exchangeSize : Amount) :
    let byLedger := sizeByLedger requested dbSize false
    let byExchange := sizeByExchange byLedger.1 exchangeSize byLedger.2 false
    byExchange.2.dbSize = dbSize ∧ byExchange.2.exchangeSize = exchangeSize := by
  simp only [sizeByLedger, sizeByExchange]
  split_ifs <;> simp

theorem sizeByAllocation_le (amount allocated : Amount) (details : ReduceOnlyMeta) :
    (sizeByAllocation amount allocated details).1 ≤ amount ∧
      (sizeByAllocation amount allocated details).1 ≤
        max 0 (details.exchangeSize - max 0 (allocated - details.dbSize)) := by
  unfold sizeByAllocation
  by_cases hcap : max 0 (details.exchangeSize - max 0 (allocated - details.dbSize)) < amount
  · simp only [hcap, if_true]
    exact ⟨hcap.le, le_rfl⟩
  · simp only [hcap, if_false]
    exact ⟨le_rfl, not_lt.mp hcap⟩

/-! ## A leg of the account -/

/-- An instrument leg of one exchange account. -/
structure AccountLeg where
  credentialId : ℕ
  marketType : String
  symbol : String
  side : PositionSide

section

variable (ledger : PositionLedger)

/-- The ledger size `resolve_reduce_only_quantity` reads for a request. -/
def ledgerSize (request : ReduceOnlyRequest) : Amount :=
  ledger.fetchPositionSizeForSide request.strategyId request.symbol request.side

/-- The request closes a position that its live strategy holds on the leg: it names the leg,
in whatever spelling, and so does the row its size is read from. -/
structure ClosesLeg (leg : AccountLeg) (request : ReduceOnlyRequest) : Prop where
  credential : request.credentialId = leg.credentialId
  marketType : normalizeMarketType request.marketType = leg.marketType
  symbol : normalizeStrategySymbol request.symbol = leg.symbol
  side : request.side = leg.side
  live : (ledger.strategies request.strategyId).map StrategyRow.live = some true
  row : ∀ row, ledger.fetchPositionFuzzy request.strategyId request.symbol request.side = some row →
    row.marketType = leg.marketType ∧ row.canonical = leg.symbol ∧
      ledger.rowCredential row leg.credentialId

end

section Leg

variable {ledger : PositionLedger} {leg : AccountLeg}

theorem fetchPositionFuzzy_spec {strategyId : ℕ} {symbol : String} {side : PositionSide}
    {row : PositionRow} (h : ledger.fetchPositionFuzzy strategyId symbol side = some row) :
    row ∈ ledger.positions ∧ row.strategyId = strategyId ∧ row.side = side ∧ 0 < row.size := by
  obtain ⟨candidate, -, hfound⟩ := List.exists_of_findSome?_eq_some h
  obtain ⟨hfetch, hsize⟩ := Option.filter_eq_some_iff.mp hfound
  have hmatch := List.find?_some hfetch
  simp only [decide_eq_true_eq] at hmatch hsize
  exact ⟨List.mem_of_find?_eq_some hfetch, hmatch.1, hmatch.2.2, hsize⟩

theorem ledgerSize_nonneg (ledger : PositionLedger) (request : ReduceOnlyRequest) :
    0 ≤ ledgerSize ledger request := by
  unfold ledgerSize PositionLedger.fetchPositionSizeForSide
  cases ledger.fetchPositionFuzzy request.strategyId request.symbol request.side with
  | none => exact le_rfl
  | some row => exact le_max_left _ _

theorem ClosesLeg.allocated {request other : ReduceOnlyRequest}
    (h : ClosesLeg ledger leg request)
    (hother : ClosesLeg ledger leg other) (hcred : 0 < leg.credentialId)
    {row : PositionRow}
    (hrow : ledger.fetchPositionFuzzy other.strategyId other.symbol other.side = some row) :
    ledger.Allocated request.strategyId request.credentialId request.marketType request.symbol
      request.side row := by
  obtain ⟨-, hstrategy, hside, hsize⟩ := fetchPositionFuzzy_spec hrow
  obtain ⟨hmarket, hsymbol, hcredential⟩ := hother.row row hrow
  refine ⟨?_, ?_, hsize, ?_, ?_, ?_⟩
  · rw [hside, hother.side, h.side]
  · rw [hmarket, h.marketType]
  · unfold PositionLedger.allocationClause
    rw [h.credential]
    by_cases hid : 0 < request.strategyId
    · rw [if_pos ⟨hcred, hid⟩]
      exact Or.inr hcredential
    · rw [if_neg (fun both => hid both.2), if_pos hcred]
      exact hcredential
  · rw [hstrategy]
    exact hother.live
  · rw [hsymbol, h.symbol]

theorem ClosesLeg.covered {request : ReduceOnlyRequest} {requests : List ReduceOnlyRequest}
    (h : ClosesLeg ledger leg request) (hcred : 0 < leg.credentialId)
    (hdistinct : (requests.map ReduceOnlyRequest.strategyId).Nodup)
    (hleg : ∀ other ∈ requests, ClosesLeg ledger leg other) :
    (requests.map (ledgerSize ledger)).sum ≤
      ledger.fetchAllocatedPositionSize request.strategyId request.credentialId
        request.marketType request.symbol request.side := by
  set counted := ledger.positions.filter fun row =>
    ledger.Allocated request.strategyId request.credentialId request.marketType request.symbol
      request.side row with hcounted
  have hparts := sum_by_key_le hdistinct PositionRow.strategyId (fun row => max 0 row.size)
    (fun row => le_max_left _ _) counted
  rw [List.map_map] at hparts
  refine le_trans (List.sum_le_sum ?_) hparts
  intro other hother
  unfold ledgerSize PositionLedger.fetchPositionSizeForSide
  have hnonneg : ∀ x ∈ (counted.filter fun row => row.strategyId = other.strategyId).map
      (fun row => max 0 row.size), (0 : Amount) ≤ x := by
    intro x hx
    obtain ⟨row, -, rfl⟩ := List.mem_map.mp hx
    exact le_max_left _ _
  cases hrow : ledger.fetchPositionFuzzy other.strategyId other.symbol other.side with
  | none => exact List.sum_nonneg hnonneg
  | some row =>
    obtain ⟨hmem, hstrategy, -, -⟩ := fetchPositionFuzzy_spec hrow
    have hall := h.allocated (hleg other hother) hcred hrow
    have hin : row ∈ counted.filter fun row => row.strategyId = other.strategyId := by
      simp only [hcounted, List.mem_filter, decide_eq_true_eq]
      exact ⟨⟨hmem, hall⟩, hstrategy⟩
    exact List.single_le_sum hnonneg _ (List.mem_map_of_mem hin)

end Leg

/-! ## The bound -/

theorem resolve_le (ledger : PositionLedger) (exchangeSize : Amount) {request : ReduceOnlyRequest}
    (hcred : 0 < request.credentialId) :
    let resolved := (ledger.resolveReduceOnlyQuantity exchangeSize request false).1
    let size := ledgerSize ledger request
    let allocated := ledger.fetchAllocatedPositionSize request.strategyId request.credentialId
      request.marketType request.symbol request.side
    resolved ≤ size ∧ (0 < request.requestedAmount → resolved ≤ request.requestedAmount) ∧
      resolved ≤ max 0 (exchangeSize - max 0 (allocated - size)) := by
  intro resolved size allocated
  have hledger := sizeByLedger_le request.requestedAmount (ledgerSize_nonneg ledger request)
  have hexchange := sizeByExchange_le (sizeByLedger request.requestedAmount size false).1
    exchangeSize (sizeByLedger request.requestedAmount size false).2
  obtain ⟨hdb, hex⟩ := sizeByExchange_details request.requestedAmount size exchangeSize
  have halloc := sizeByAllocation_le
    (sizeByExchange (sizeByLedger request.requestedAmount size false).1 exchangeSize
      (sizeByLedger request.requestedAmount size false).2 false).1 allocated
    (sizeByExchange (sizeByLedger request.requestedAmount size false).1 exchangeSize
      (sizeByLedger request.requestedAmount size false).2 false).2
  rw [hdb, hex] at halloc
  have hresolved : resolved = (sizeByAllocation
      (sizeByExchange (sizeByLedger request.requestedAmount size false).1 exchangeSize
        (sizeByLedger request.requestedAmount size false).2 false).1 allocated
      (sizeByExchange (sizeByLedger request.requestedAmount size false).1 exchangeSize
        (sizeByLedger request.requestedAmount size false).2 false).2).1 := by
    simp only [resolved, size, allocated, PositionLedger.resolveReduceOnlyQuantity,
      ledgerSize, if_pos hcred]
  rw [hresolved]
  refine ⟨halloc.1.trans (hexchange.trans hledger.1), fun hpos => ?_, halloc.2⟩
  exact halloc.1.trans (hexchange.trans (hledger.2 hpos))

def sharedLedger : PositionLedger where
  positions := [
    { strategyId := 1, symbol := "BTC/USDT", side := .long, size := 3, credentialId := 7 },
    { strategyId := 2, symbol := "BTCUSDT", side := .long, size := 2 }]
  strategies := fun id => if id = 1 then some ⟨true, ""⟩ else if id = 2 then some ⟨true, "7"⟩ else none

def sharedRequests : List ReduceOnlyRequest :=
  [⟨1, "btc-usdt", .long, 0, "futures", 7⟩, ⟨2, "BTC/USDT:USDT", .long, 5, "swap", 7⟩]

def sharedLeg : AccountLeg := ⟨7, "swap", "BTC/USDT", .long⟩

private theorem sharedRequests_close :
    ∀ request ∈ sharedRequests, ClosesLeg sharedLedger sharedLeg request := by
  have hfirst : sharedLedger.fetchPositionFuzzy 1 "btc-usdt" .long =
      some { strategyId := 1, symbol := "BTC/USDT", side := .long, size := 3, credentialId := 7 } := by
    decide +kernel
  have hsecond : sharedLedger.fetchPositionFuzzy 2 "BTC/USDT:USDT" .long =
      some { strategyId := 2, symbol := "BTCUSDT", side := .long, size := 2 } := by
    decide +kernel
  intro request hrequest
  simp only [sharedRequests, List.mem_cons, List.not_mem_nil, or_false] at hrequest
  obtain rfl | rfl := hrequest
  · refine ⟨rfl, by decide +kernel, by decide +kernel, rfl, by decide, ?_⟩
    intro row hrow
    rw [hfirst] at hrow
    cases hrow
    exact ⟨rfl, by decide +kernel, by decide⟩
  · refine ⟨rfl, by decide +kernel, by decide +kernel, rfl, by decide, ?_⟩
    intro row hrow
    rw [hsecond] at hrow
    cases hrow
    exact ⟨rfl, by decide +kernel, by decide +kernel⟩

end QuantDinger.Analysis
