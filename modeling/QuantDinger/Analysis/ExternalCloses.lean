import Mathlib.Data.Rat.Star
import QuantDinger.Model.ExternalFlatClose

/-!
# What an external close realises

The trades of a leg never show more than its position holds, and a position that holds
something has a price. A reconciliation prices its closes at the last open trade where the own
path prices them at the average of the position, so the two agree only when these do.
-/

namespace QuantDinger.Analysis

open QuantDinger.Library QuantDinger.Model QuantDinger.Model.Live

/-! ## Profits -/

/-- What a unit bought at the entry price gains at the price, for the side. -/
def sideGain (side : PositionSide) (entry price : Amount) : Amount :=
  match side with
  | .long => price - entry
  | .short => entry - price

def gainOver (side : PositionSide) (entry : Amount) (closes : List LegTrade) : Amount :=
  (closes.map fun close => sideGain side entry close.price * close.amount).sum

def recordedProfit (closes : List LegTrade) : Amount :=
  (closes.map fun close => close.profit.getD 0).sum

def externalCloses (book : LegBook) (side : PositionSide) (leg : FlatLeg)
    (clearLocalPosition : Bool) : List LegTrade :=
  (book.reconcileExternalFlatCloses side leg clearLocalPosition).trades.drop book.trades.length

/-- The recorded profits are what the closes gain over the average cost of the position. -/
def BookedAtCost (book : LegBook) (side : PositionSide) (leg : FlatLeg)
    (clearLocalPosition : Bool) : Prop :=
  recordedProfit (externalCloses book side leg clearLocalPosition) =
    gainOver side (book.position side).entryPrice (externalCloses book side leg clearLocalPosition)

/-- The exchange explains the leg with a set of close fills, not all of them negligible. -/
def ExplainedLeg (book : LegBook) (side : PositionSide) (leg : FlatLeg) : Prop :=
  ∃ asked ∈ book.flatResidual side, ∃ component ∈ book.closeComponents leg asked.1 asked.2.2,
    flatEpsilon < component.amount

/-- The last open trade was made at the average cost of the position. -/
def LastOpenAtCost (book : LegBook) (side : PositionSide) : Prop :=
  ∀ trade ∈ book.lastOpenTrade side, trade.price = (book.position side).entryPrice

instance (book : LegBook) (side : PositionSide) (leg : FlatLeg) (clearLocalPosition : Bool) :
    Decidable (BookedAtCost book side leg clearLocalPosition) := inferInstanceAs (Decidable (_ = _))

instance (book : LegBook) (side : PositionSide) : Decidable (LastOpenAtCost book side) :=
  inferInstanceAs (Decidable (∀ trade ∈ book.lastOpenTrade side, _))

/-- No fee of the fill is in the base currency. -/
def NoBaseFee (symbol : String) (fill : OwnFill) : Prop :=
  feeIn fill.fees (symbolCurrencies symbol).1 = 0

instance (symbol : String) (fill : OwnFill) : Decidable (NoBaseFee symbol fill) :=
  inferInstanceAs (Decidable (_ = _))

/-- The book after fills of the strategy's own orders. -/
def bookAfter (marketType symbol : String) (fills : List OwnFill) : LegBook :=
  fills.foldl LegBook.persistStrategyFill { marketType := marketType, symbol := symbol }

theorem gainOver_sub (side : PositionSide) (entry entry' : Amount) (closes : List LegTrade) :
    gainOver side entry closes - gainOver side entry' closes =
      sideGain side entry entry' * (closes.map LegTrade.amount).sum := by
  induction closes with
  | nil => simp [gainOver]
  | cons close rest ih =>
    have hunit : sideGain side entry close.price - sideGain side entry' close.price =
        sideGain side entry entry' := by
      cases side <;> simp only [sideGain] <;> ring
    simp only [gainOver, List.map_cons, List.sum_cons] at ih ⊢
    rw [mul_add, ← ih, ← hunit]
    ring

theorem sideGain_eq_zero_iff {side : PositionSide} {entry price : Amount} :
    sideGain side entry price = 0 ↔ price = entry := by
  cases side with
  | long => exact sub_eq_zero
  | short => exact sub_eq_zero.trans eq_comm

theorem grossCloseProfit_eq {side : PositionSide} {entry close qty : Amount} (he : 0 < entry)
    (hc : 0 < close) (hq : 0 < qty) :
    grossCloseProfit side entry close qty = sideGain side entry close * qty := by
  unfold grossCloseProfit
  rw [if_neg (by push Not; exact ⟨he, hc, hq⟩)]
  cases side <;> rfl

/-! ## The closes of a reconciliation -/

/-- A close booked at the entry price. -/
structure BookedAt (side : PositionSide) (entry : Amount) (close : LegTrade) : Prop where
  amount_pos : 0 < close.amount
  price_pos : 0 < close.price
  profit : close.profit = some (grossCloseProfit side entry close.price close.amount)

theorem recordedProfit_of_bookedAt {side : PositionSide} {entry : Amount}
    {closes : List LegTrade} (he : 0 < entry) (h : ∀ close ∈ closes, BookedAt side entry close) :
    recordedProfit closes = gainOver side entry closes := by
  unfold recordedProfit gainOver
  congr 1
  refine List.map_congr_left fun close hm => ?_
  have hbooked := h close hm
  rw [hbooked.profit]
  exact grossCloseProfit_eq he hbooked.price_pos hbooked.amount_pos

section Record

variable (book : LegBook) (side : PositionSide) (entry : Amount) (clearLocalPosition : Bool)

@[simp] theorem clearLocal_trades (qty price : Amount) :
    (book.clearLocal side qty price).trades = book.trades := by
  unfold LegBook.clearLocal
  dsimp only
  split <;> rfl

theorem record_unchanged {component : CloseFill}
    (h : component.amount ≤ flatEpsilon ∨ book.AlreadyRecordedFill component.exchangeFillId) :
    book.recordExternalFlatClose side entry clearLocalPosition component = book := by
  unfold LegBook.recordExternalFlatClose
  rcases h with h | h
  · rw [if_pos (Or.inl h)]
  · rw [if_pos h, ite_self]

theorem bookedAt_externalTrade (component : CloseFill) :
    BookedAt side entry (externalTrade side entry component) :=
  ⟨component.amount_pos, component.price_pos, rfl⟩

theorem record_trades {component : CloseFill} (hqty : flatEpsilon < component.amount)
    (hnew : ¬ book.AlreadyRecordedFill component.exchangeFillId) :
    (book.recordExternalFlatClose side entry clearLocalPosition component).trades =
      book.trades ++ [externalTrade side entry component] := by
  unfold LegBook.recordExternalFlatClose
  rw [if_neg (by push Not; exact ⟨hqty, component.price_pos⟩), if_neg hnew]
  cases clearLocalPosition with
  | false => rfl
  | true => exact clearLocal_trades ..

theorem fold_record_trades (components : List CloseFill) :
    ∃ closes, (∀ close ∈ closes, BookedAt side entry close) ∧
      (components.foldl (fun book component =>
        book.recordExternalFlatClose side entry clearLocalPosition component) book).trades =
        book.trades ++ closes := by
  induction components generalizing book with
  | nil => exact ⟨[], by simp, by simp⟩
  | cons component rest ih =>
    rw [List.foldl_cons]
    by_cases hskip : component.amount ≤ flatEpsilon ∨
        book.AlreadyRecordedFill component.exchangeFillId
    · rw [record_unchanged book side entry clearLocalPosition hskip]
      exact ih book
    · push Not at hskip
      have htrades := record_trades book side entry clearLocalPosition hskip.1 hskip.2
      obtain ⟨closes, hcloses, hrest⟩ :=
        ih (book.recordExternalFlatClose side entry clearLocalPosition component)
      refine ⟨externalTrade side entry component :: closes, ?_, ?_⟩
      · intro c hc
        rcases List.mem_cons.mp hc with rfl | hc
        · exact bookedAt_externalTrade side entry component
        · exact hcloses c hc
      · rw [hrest, htrades]
        simp

theorem fold_record_unchanged {components : List CloseFill}
    (h : ∀ component ∈ components, component.amount ≤ flatEpsilon) :
    components.foldl (fun book component =>
      book.recordExternalFlatClose side entry clearLocalPosition component) book = book := by
  induction components with
  | nil => rfl
  | cons component rest ih =>
    rw [List.foldl_cons, record_unchanged book side entry clearLocalPosition
      (Or.inl (h component List.mem_cons_self))]
    exact ih fun c hc => h c (List.mem_cons_of_mem _ hc)

theorem fold_record_length {components : List CloseFill}
    (hnew : ∀ component ∈ components, ¬ book.AlreadyRecordedFill component.exchangeFillId)
    (hqty : ∃ component ∈ components, flatEpsilon < component.amount) :
    book.trades.length <
      (components.foldl (fun book component =>
        book.recordExternalFlatClose side entry clearLocalPosition component) book).trades.length := by
  induction components with
  | nil => simp at hqty
  | cons component rest ih =>
    rw [List.foldl_cons]
    by_cases hskip : component.amount ≤ flatEpsilon
    · rw [record_unchanged book side entry clearLocalPosition (Or.inl hskip)]
      refine ih (fun c hc => hnew c (List.mem_cons_of_mem _ hc)) ?_
      obtain ⟨c, hc, hlarge⟩ := hqty
      rcases List.mem_cons.mp hc with rfl | hc
      · exact absurd hlarge (not_lt.mpr hskip)
      · exact ⟨c, hc, hlarge⟩
    · have htrades := record_trades book side entry clearLocalPosition (not_le.mp hskip)
        (hnew component List.mem_cons_self)
      obtain ⟨closes, -, hrest⟩ := fold_record_trades
        (book.recordExternalFlatClose side entry clearLocalPosition component) side entry
        clearLocalPosition rest
      rw [hrest, htrades]
      simp only [List.length_append, List.length_singleton]
      omega

end Record

theorem not_recorded_of_mem {book : LegBook} {leg : FlatLeg} {residual : Amount}
    {openedAfter : Option Time} {component : CloseFill}
    (h : component ∈ book.closeComponents leg residual openedAfter) :
    ¬ book.AlreadyRecordedFill component.exchangeFillId := by
  unfold LegBook.closeComponents at h
  split at h
  · simp at h
  · unfold FlatLeg.resolveExternalClose at h
    cases hrows : leg.closeFills openedAfter with
    | none => simp [hrows] at h
    | some rows =>
      rw [hrows, Option.bind_some] at h
      unfold selectExactClose at h
      dsimp only at h
      split at h
      · simp at h
      · rw [Option.getD_some, List.mem_insertionSort, List.mem_filter] at h
        have hkept := of_decide_eq_true h.2
        exact hkept.2.1

/-! ## The legs of a book -/

/-- What a trade adds to the net quantity of its side. -/
def netShare (side : PositionSide) (trade : LegTrade) : Amount :=
  if trade.type.side = side then (if trade.type.opens then trade.amount else -trade.amount) else 0

/-- The net quantity of a side by its trades, of either sign. -/
def netOf (trades : List LegTrade) (side : PositionSide) : Amount :=
  (trades.map (netShare side)).sum

theorem foldl_net (side : PositionSide) (trades : List LegTrade) (net : Amount) :
    (trades.filter fun trade => trade.type.side = side).foldl
      (fun net trade => if trade.type.opens then net + trade.amount else net - trade.amount) net =
      net + netOf trades side := by
  induction trades generalizing net with
  | nil => simp [netOf]
  | cons trade rest ih =>
    have hcons : netOf (trade :: rest) side = netShare side trade + netOf rest side := by
      simp [netOf]
    rw [hcons, ← add_assoc]
    by_cases hside : trade.type.side = side
    · rw [List.filter_cons_of_pos (by simpa using hside), List.foldl_cons, ih]
      unfold netShare
      rw [if_pos hside]
      split <;> ring
    · rw [List.filter_cons_of_neg (by simpa using hside), ih]
      unfold netShare
      rw [if_neg hside, add_zero]

theorem tradeSideNetQty_eq (book : LegBook) (side : PositionSide) :
    book.tradeSideNetQty side =
      if flatEpsilon < netOf book.trades side then netOf book.trades side else 0 := by
  unfold LegBook.tradeSideNetQty
  dsimp only
  rw [foldl_net, zero_add]

/-- Positions have a price, open trades have one, and the trades of a side never show more than
its position holds. -/
structure SoundBook (book : LegBook) : Prop where
  size_nonneg : ∀ side, 0 ≤ (book.position side).size
  entry_pos : ∀ side, 0 < (book.position side).size → 0 < (book.position side).entryPrice
  price_pos : ∀ trade ∈ book.trades, 0 < trade.price
  amount_pos : ∀ trade ∈ book.trades, 0 < trade.amount
  net_le : ∀ side, netOf book.trades side ≤ (book.position side).size

theorem position_quantity {marketType symbol : String} {fill : OwnFill}
    (h : NoBaseFee symbol fill) :
    spotPositionFillQuantity marketType symbol fill.signal fill.quantity fill.fees =
      fill.quantity := by
  have hgross : max 0 fill.quantity = fill.quantity := max_eq_right fill.quantity_pos.le
  unfold NoBaseFee at h
  unfold spotPositionFillQuantity
  dsimp only
  rw [hgross, h, sub_zero, add_zero, hgross]
  split
  · rfl
  · cases fill.signal <;> rfl

theorem openBy_entry_pos {leg : LegPosition} {filled price : Amount} (hq : 0 < filled)
    (hp : 0 < price) : 0 < (leg.openBy filled price).entryPrice := by
  unfold LegPosition.openBy
  dsimp only
  split
  · rename_i hheld
    have hvalue := mul_pos hheld.1 hheld.2
    have hpaid := mul_pos hq hp
    exact div_pos (by linarith) (by linarith [hheld.1])
  · exact hp

theorem closeBy_size (leg : LegPosition) (filled price : Amount) :
    (leg.closeBy filled price).size = max 0 (leg.size - filled) := by
  unfold LegPosition.closeBy
  split
  · rename_i h
    exact (max_eq_left h).symm
  · rename_i h
    exact (max_eq_right (not_le.mp h).le).symm

theorem closeBy_entry_pos {leg : LegPosition} {filled price : Amount} (hp : 0 < price)
    (h : 0 < (leg.closeBy filled price).size) : 0 < (leg.closeBy filled price).entryPrice := by
  unfold LegPosition.closeBy at h ⊢
  split at h
  · exact absurd h (lt_irrefl _)
  · rename_i hleft
    rw [if_neg hleft]
    dsimp only
    split
    · assumption
    · exact hp

theorem applyFill_leg (leg : LegPosition) (fill : OwnFill) :
    (leg.applyFill fill.signal fill.quantity fill.price).1 =
      if fill.signal.opens then leg.openBy fill.quantity fill.price
      else leg.closeBy fill.quantity fill.price := by
  unfold LegPosition.applyFill
  rw [if_neg (by push Not; exact ⟨fill.quantity_pos, fill.price_pos⟩)]
  split <;> rfl

theorem netOf_append (trades : List LegTrade) (trade : LegTrade) (side : PositionSide) :
    netOf (trades ++ [trade]) side = netOf trades side + netShare side trade := by
  simp [netOf]

theorem SoundBook.fill {book : LegBook} {fill : OwnFill} (h : SoundBook book)
    (hfee : NoBaseFee book.symbol fill) : SoundBook (book.persistStrategyFill fill) := by
  unfold LegBook.persistStrategyFill
  split
  · exact h
  · dsimp only
    rw [position_quantity hfee, applyFill_leg]
    have hsize := h.size_nonneg fill.signal.side
    have hnet := h.net_le fill.signal.side
    have hq := fill.quantity_pos
    refine ⟨fun side => ?_, fun side => ?_, fun trade hm => ?_, fun trade hm => ?_, fun side => ?_⟩
    · by_cases hside : side = fill.signal.side
      · subst hside
        dsimp only
        rw [Function.update_self]
        split
        · exact (add_pos_of_nonneg_of_pos hsize hq).le
        · rw [closeBy_size]
          exact le_max_left _ _
      · dsimp only
        rw [Function.update_of_ne hside]
        exact h.size_nonneg side
    · by_cases hside : side = fill.signal.side
      · subst hside
        dsimp only
        rw [Function.update_self]
        split
        · exact fun _ => openBy_entry_pos hq fill.price_pos
        · exact closeBy_entry_pos fill.price_pos
      · dsimp only
        rw [Function.update_of_ne hside]
        exact h.entry_pos side
    · rcases List.mem_append.mp hm with hm | hm
      · exact h.price_pos trade hm
      · rw [List.mem_singleton.mp hm]
        exact fill.price_pos
    · rcases List.mem_append.mp hm with hm | hm
      · exact h.amount_pos trade hm
      · rw [List.mem_singleton.mp hm]
        exact hq
    · dsimp only
      rw [netOf_append]
      unfold netShare
      by_cases hside : fill.signal.side = side
      · subst hside
        dsimp only
        rw [if_pos rfl, Function.update_self]
        split
        · exact add_le_add_left hnet _
        · rw [closeBy_size]
          exact le_max_of_le_right (by linarith)
      · dsimp only
        rw [if_neg hside, Function.update_of_ne (Ne.symm hside), add_zero]
        exact h.net_le side

theorem persist_symbol (book : LegBook) (fill : OwnFill) :
    (book.persistStrategyFill fill).symbol = book.symbol := by
  unfold LegBook.persistStrategyFill
  split <;> rfl

theorem sound_bookAfter (marketType : String) {symbol : String} {fills : List OwnFill}
    (hfees : ∀ fill ∈ fills, NoBaseFee symbol fill) :
    SoundBook (bookAfter marketType symbol fills) := by
  have hrun : ∀ (fills : List OwnFill) (book : LegBook), SoundBook book →
      (∀ fill ∈ fills, NoBaseFee book.symbol fill) →
      SoundBook (fills.foldl LegBook.persistStrategyFill book) := by
    intro fills
    induction fills with
    | nil => exact fun _ h _ => h
    | cons fill rest ih =>
      intro book h hfees
      refine ih _ (h.fill (hfees fill List.mem_cons_self)) fun other hm => ?_
      rw [persist_symbol]
      exact hfees other (List.mem_cons_of_mem _ hm)
  refine hrun fills _ ⟨?_, ?_, ?_, ?_, ?_⟩ hfees
  · exact fun _ => le_refl _
  · exact fun _ h => absurd h (lt_irrefl _)
  · simp
  · simp
  · exact fun _ => le_refl _

theorem exists_lastOpenTrade {book : LegBook} {side : PositionSide} (h : SoundBook book)
    (hnet : 0 < netOf book.trades side) : ∃ trade ∈ book.lastOpenTrade side, 0 < trade.price := by
  unfold LegBook.lastOpenTrade
  cases hopens : book.trades.filter fun trade =>
      trade.type.side = side ∧ trade.type.opens with
  | nil =>
    have hall : ∀ share ∈ book.trades.map (netShare side), share ≤ 0 := by
      intro share hm
      obtain ⟨trade, htrade, rfl⟩ := List.mem_map.mp hm
      have hnot := List.filter_eq_nil_iff.mp hopens trade htrade
      unfold netShare
      split
      · rename_i hside
        rw [if_neg fun hopen => hnot (decide_eq_true ⟨hside, hopen⟩)]
        exact neg_nonpos.mpr (h.amount_pos trade htrade).le
      · exact le_refl 0
    have hsum := List.sum_le_card_nsmul _ 0 hall
    rw [smul_zero] at hsum
    exact absurd hsum (not_le.mpr hnet)
  | cons trade rest =>
    have hne : trade :: rest ≠ [] := List.cons_ne_nil _ _
    refine ⟨(trade :: rest).getLast hne, List.getLast?_eq_getLast_of_ne_nil hne, ?_⟩
    have hsub : ∀ other ∈ trade :: rest, other ∈ book.trades := by
      intro other hm
      rw [← hopens] at hm
      exact (List.mem_filter.mp hm).1
    exact h.price_pos _ (hsub _ (List.getLast_mem hne))

/-! ## The own path -/

/-- What closing fills realise when they go through the strategy's own orders. -/
def ownCloseProfit (side : PositionSide) : LegPosition → List CloseFill → Amount
  | _, [] => 0
  | position, fill :: rest =>
    let applied := position.applyFill (closeSignal side) fill.amount fill.price
    applied.2.profit.getD 0 + ownCloseProfit side applied.1 rest

theorem applyFill_close (side : PositionSide) {position : LegPosition} (fill : CloseFill)
    (he : 0 < position.entryPrice) (hle : fill.amount ≤ position.size) :
    (position.applyFill (closeSignal side) fill.amount fill.price).2.profit =
        some (sideGain side position.entryPrice fill.price * fill.amount) ∧
      (position.applyFill (closeSignal side) fill.amount fill.price).1.size =
        position.size - fill.amount ∧
      (fill.amount < position.size →
        (position.applyFill (closeSignal side) fill.amount fill.price).1.entryPrice =
          position.entryPrice) := by
  have hopens : (closeSignal side).opens = false := by cases side <;> rfl
  have hside : (closeSignal side).side = side := by cases side <;> rfl
  have hsize := fill.amount_pos.trans_le hle
  unfold LegPosition.applyFill
  rw [if_neg (by push Not; exact ⟨fill.amount_pos, fill.price_pos⟩), hopens, hside,
    if_neg Bool.false_ne_true]
  refine ⟨?_, ?_, fun hlt => ?_⟩
  · unfold LegPosition.realise
    rw [if_pos ⟨hsize, he⟩]
    dsimp only
    rw [min_eq_right hle]
    cases side <;> rfl
  · dsimp only
    rw [closeBy_size, max_eq_right (sub_nonneg.mpr hle)]
  · unfold LegPosition.closeBy
    dsimp only
    rw [if_neg (not_le.mpr (sub_pos.mpr hlt)), if_pos he]

/-- The own path realises the gain over the average cost of the position. -/
theorem ownCloseProfit_eq {side : PositionSide} (booked : Amount) (fills : List CloseFill)
    (position : LegPosition) (he : fills ≠ [] → 0 < position.entryPrice)
    (htotal : (fills.map CloseFill.amount).sum ≤ position.size) :
    ownCloseProfit side position fills =
      gainOver side position.entryPrice (fills.map (externalTrade side booked)) := by
  induction fills generalizing position with
  | nil => rfl
  | cons fill rest ih =>
    rw [List.map_cons, List.sum_cons] at htotal
    have hrest : 0 ≤ (rest.map CloseFill.amount).sum := by
      refine List.sum_nonneg fun amount hm => ?_
      obtain ⟨other, -, rfl⟩ := List.mem_map.mp hm
      exact other.amount_pos.le
    obtain ⟨hprofit, hsize, hentry⟩ := applyFill_close side fill
      (he (List.cons_ne_nil _ _)) (by linarith)
    have hpositive : rest ≠ [] → fill.amount < position.size := by
      intro hne
      have hsum : 0 < (rest.map CloseFill.amount).sum := by
        refine List.sum_pos _ ?_ (by simpa using hne)
        intro amount hm
        obtain ⟨other, -, rfl⟩ := List.mem_map.mp hm
        exact other.amount_pos
      linarith
    have hgain : gainOver side
        (position.applyFill (closeSignal side) fill.amount fill.price).1.entryPrice
        (rest.map (externalTrade side booked)) =
        gainOver side position.entryPrice (rest.map (externalTrade side booked)) := by
      by_cases hne : rest = []
      · rw [hne]
        rfl
      · rw [hentry (hpositive hne)]
    unfold ownCloseProfit
    dsimp only
    rw [hprofit, Option.getD_some, ih _ (fun hne => ?_) (by rw [hsize]; linarith), hgain]
    · rfl
    · rw [hentry (hpositive hne)]
      exact he (List.cons_ne_nil _ _)

/-- Four and six of ten units bought at 100 are closed at 110 and 120. -/
theorem ten_units_gain :
    ownCloseProfit .long { size := 10, entryPrice := 100 }
        [⟨"a", 4, 110, 0, "", by decide, by decide +kernel, by decide +kernel⟩,
          ⟨"b", 6, 120, 1, "", by decide, by decide +kernel, by decide +kernel⟩] = 160 :=
  (ownCloseProfit_eq 100 _ _ (fun _ => by decide +kernel) (by decide +kernel)).trans
    (by decide +kernel)

/-! ## The entry price of a reconciliation -/

section Reconcile

variable {book : LegBook} {side : PositionSide} (leg : FlatLeg) (clearLocalPosition : Bool)

theorem flatResidual_open (h : SoundBook book) (hopen : flatEpsilon < book.tradeSideNetQty side) :
    ∃ trade ∈ book.lastOpenTrade side, 0 < trade.price ∧ book.flatResidual side =
      some (book.tradeSideNetQty side, trade.price, some trade.createdAt) := by
  have hnet : 0 < netOf book.trades side := by
    rw [tradeSideNetQty_eq] at hopen
    have heps : 0 < flatEpsilon := by norm_num [flatEpsilon]
    split at hopen
    · exact heps.trans hopen
    · exact absurd hopen (not_lt.mpr heps.le)
  obtain ⟨trade, hlast, hprice⟩ := exists_lastOpenTrade h hnet
  have hsome : book.lastOpenTrade side = some trade := hlast
  refine ⟨trade, hlast, hprice, ?_⟩
  unfold LegBook.flatResidual
  dsimp only
  rw [if_neg (not_le.mpr hopen), hsome, Option.map_some, Option.map_some, Option.getD_some,
    if_neg (not_le.mpr hprice)]

theorem flatResidual_flat (h : SoundBook book) (hflat : book.tradeSideNetQty side ≤ flatEpsilon)
    {asked : Amount × Amount × Option Time} (hasked : asked ∈ book.flatResidual side) :
    asked.2.1 = (book.position side).entryPrice ∧ 0 < asked.2.1 := by
  unfold LegBook.flatResidual at hasked
  dsimp only at hasked
  rw [if_pos hflat] at hasked
  split at hasked
  · simp at hasked
  · rename_i hheld
    obtain rfl := Option.mem_some_iff.mp hasked
    have heps : 0 < flatEpsilon := by norm_num [flatEpsilon]
    exact ⟨rfl, h.entry_pos side (heps.trans (not_le.mp hheld))⟩

theorem externalCloses_of_none (h : book.flatResidual side = none) :
    externalCloses book side leg clearLocalPosition = [] := by
  unfold externalCloses LegBook.reconcileExternalFlatCloses
  rw [h]
  exact List.drop_length

theorem reconcile_eq {asked : Amount × Amount × Option Time}
    (hasked : asked ∈ book.flatResidual side) :
    book.reconcileExternalFlatCloses side leg clearLocalPosition =
      (book.closeComponents leg asked.1 asked.2.2).foldl (fun book component =>
        book.recordExternalFlatClose side asked.2.1 clearLocalPosition component) book := by
  unfold LegBook.reconcileExternalFlatCloses
  rw [Option.mem_def.mp hasked]

theorem bookedAt_externalCloses {asked : Amount × Amount × Option Time}
    (hasked : asked ∈ book.flatResidual side) :
    ∀ close ∈ externalCloses book side leg clearLocalPosition, BookedAt side asked.2.1 close := by
  obtain ⟨closes, hcloses, htrades⟩ := fold_record_trades book side asked.2.1 clearLocalPosition
    (book.closeComponents leg asked.1 asked.2.2)
  unfold externalCloses
  rw [reconcile_eq leg clearLocalPosition hasked, htrades, List.drop_left]
  exact hcloses

theorem externalCloses_eq_nil (h : ¬ ExplainedLeg book side leg) :
    externalCloses book side leg clearLocalPosition = [] := by
  cases hasked : book.flatResidual side with
  | none => exact externalCloses_of_none leg clearLocalPosition hasked
  | some asked =>
    have hsmall : ∀ component ∈ book.closeComponents leg asked.1 asked.2.2,
        component.amount ≤ flatEpsilon := by
      intro component hm
      by_contra hlarge
      exact h ⟨asked, hasked, component, hm, not_le.mp hlarge⟩
    unfold externalCloses
    rw [reconcile_eq leg clearLocalPosition hasked,
      fold_record_unchanged book side _ clearLocalPosition hsmall]
    exact List.drop_length

theorem externalCloses_ne_nil (h : ExplainedLeg book side leg) :
    externalCloses book side leg clearLocalPosition ≠ [] := by
  obtain ⟨asked, hasked, component, hm, hlarge⟩ := h
  have hlen := fold_record_length book side asked.2.1 clearLocalPosition
    (fun _ => not_recorded_of_mem) ⟨component, hm, hlarge⟩
  rw [← reconcile_eq leg clearLocalPosition hasked] at hlen
  unfold externalCloses
  rw [Ne, List.drop_eq_nil_iff]
  exact not_le.mpr hlen

theorem bookedAtCost_of_flat (h : SoundBook book)
    (hflat : book.tradeSideNetQty side ≤ flatEpsilon) :
    BookedAtCost book side leg clearLocalPosition := by
  unfold BookedAtCost
  cases hasked : book.flatResidual side with
  | none => rw [externalCloses_of_none leg clearLocalPosition hasked]; rfl
  | some asked =>
    obtain ⟨hentry, hpos⟩ := flatResidual_flat h hflat hasked
    rw [← hentry]
    exact recordedProfit_of_bookedAt hpos (bookedAt_externalCloses leg clearLocalPosition hasked)

theorem bookedAtCost_iff_lastOpen (h : SoundBook book)
    (hopen : flatEpsilon < book.tradeSideNetQty side) (hattr : ExplainedLeg book side leg) :
    BookedAtCost book side leg clearLocalPosition ↔ LastOpenAtCost book side := by
  obtain ⟨trade, hlast, hprice, hasked⟩ := flatResidual_open h hopen
  have hbooked := bookedAt_externalCloses leg clearLocalPosition hasked
  have hpositive : 0 < ((externalCloses book side leg clearLocalPosition).map
      LegTrade.amount).sum := by
    refine List.sum_pos _ ?_ ?_
    · intro amount hm
      obtain ⟨close, hclose, rfl⟩ := List.mem_map.mp hm
      exact (hbooked close hclose).amount_pos
    · intro hnil
      exact externalCloses_ne_nil leg clearLocalPosition hattr (List.map_eq_nil_iff.mp hnil)
  unfold BookedAtCost LastOpenAtCost
  rw [recordedProfit_of_bookedAt hprice hbooked, ← sub_eq_zero, gainOver_sub, mul_eq_zero,
    or_iff_left hpositive.ne', sideGain_eq_zero_iff]
  have hsome : book.lastOpenTrade side = some trade := hlast
  simp only [hsome, Option.mem_some_iff, forall_eq']
  exact eq_comm

end Reconcile

/-- The profits a reconciliation records are those at the average cost of the position exactly
when nothing is booked, the trades show no open quantity, or the last open trade was made at the
average cost. -/
theorem external_close_at_cost_iff (marketType symbol : String) (fills : List OwnFill)
    (hfees : ∀ fill ∈ fills, NoBaseFee symbol fill) (side : PositionSide) (leg : FlatLeg)
    (clearLocalPosition : Bool) :
    BookedAtCost (bookAfter marketType symbol fills) side leg clearLocalPosition ↔
      (ExplainedLeg (bookAfter marketType symbol fills) side leg →
        flatEpsilon < (bookAfter marketType symbol fills).tradeSideNetQty side →
        LastOpenAtCost (bookAfter marketType symbol fills) side) := by
  have hsound := sound_bookAfter marketType hfees
  constructor
  · intro h hattr hopen
    exact (bookedAtCost_iff_lastOpen leg clearLocalPosition hsound hopen hattr).mp h
  · intro h
    by_cases hopen : flatEpsilon < (bookAfter marketType symbol fills).tradeSideNetQty side
    · by_cases hattr : ExplainedLeg (bookAfter marketType symbol fills) side leg
      · exact (bookedAtCost_iff_lastOpen leg clearLocalPosition hsound hopen hattr).mpr
          (h hattr hopen)
      · unfold BookedAtCost
        rw [externalCloses_eq_nil leg clearLocalPosition hattr]
        rfl
    · exact bookedAtCost_of_flat leg clearLocalPosition hsound (not_lt.mp hopen)

def twoBuys (first second : Amount) (hfirst : 0 < first) (hsecond : 0 < second) : List OwnFill :=
  [{ signal := .openLong, quantity := 1, price := first, quantity_pos := by norm_num,
     price_pos := hfirst },
   { signal := .addLong, quantity := 1, price := second, quantity_pos := by norm_num,
     price_pos := hsecond }]

def closedAtOnce : FlatLeg where
  credentialId := 1
  strategies := 1
  closeFills := fun _ => some [{
    exchangeFillId := "fill-1"
    amount := 2
    price := 130
    closedAt := 10
    id_ne := by decide
    amount_pos := by norm_num
    price_pos := by norm_num }]

theorem hundred_pos : (0 : Amount) < 100 := by norm_num

theorem external_close_level : BookedAtCost (bookAfter "swap" "BTC/USDT"
    (twoBuys 100 100 hundred_pos hundred_pos)) .long closedAtOnce true :=
  (external_close_at_cost_iff "swap" "BTC/USDT" (twoBuys 100 100 hundred_pos hundred_pos)
    (by decide +kernel) .long closedAtOnce true).mpr (fun _ _ => by decide +kernel)

/-- Opened at 100 and added to at 120, the position costs 110; the close at 130 is booked
against 120. -/
theorem external_close_at_last_price : ¬ ∀ (marketType symbol : String) (fills : List OwnFill),
    (∀ fill ∈ fills, NoBaseFee symbol fill) → ∀ (side : PositionSide) (leg : FlatLeg)
      (clearLocalPosition : Bool),
        BookedAtCost (bookAfter marketType symbol fills) side leg clearLocalPosition := by
  intro h
  have hbooked := h "swap" "BTC/USDT" (twoBuys 100 120 hundred_pos (by norm_num))
    (by decide +kernel) .long closedAtOnce true
  revert hbooked
  decide +kernel

end QuantDinger.Analysis
