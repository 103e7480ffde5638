import QuantDinger.Library.AverageCost
import QuantDinger.Model.PositionActivity

/-!
# Totals of the rebuilt position history

In one-way mode a fill reduces the position it meets and opens the other side with the rest. The
replay keeps quantity and fees, but shares the realised profit of a reversing fill between the part
that closes and the part that opens, although it belongs to the closing part alone. Quantities below
its dust limit are lost.
-/

namespace QuantDinger.Analysis

open QuantDinger.Library QuantDinger.Model QuantDinger.Model.Activity

/-! ## What the fills say -/

/-- A fill of the symbol in one-way mode, with its fee in a stable coin. -/
structure OneWayFill (nativeSymbol : String) (trade : UserTrade) : Prop where
  symbol : upper trade.symbol = nativeSymbol
  qty : 0 < trade.qty
  price : 0 < trade.price
  stable : upper trade.commissionAsset ∈ LegReplay.stableAssets
  both : upper (if trade.positionSide = "" then "BOTH" else trade.positionSide) = "BOTH"
  side : upper trade.side = "BUY" ∨ upper trade.side = "SELL"

def signedQty (trade : UserTrade) : ℚ := if upper trade.side = "BUY" then trade.qty else -trade.qty

def netPosition (trades : List UserTrade) : ℚ := (trades.map signedQty).sum

/-- The part of a fill that reduces the position it meets. -/
def reducedQty (net : ℚ) (trade : UserTrade) : ℚ := closedPart net (signedQty trade)

/-- Position and opened quantity of fills in order. -/
structure FillTotals where
  net : ℚ
  opened : ℚ

def FillTotals.next (totals : FillTotals) (trade : UserTrade) : FillTotals where
  net := totals.net + signedQty trade
  opened := totals.opened + (trade.qty - reducedQty totals.net trade)

def tradeTotals (trades : List UserTrade) : FillTotals := trades.foldl FillTotals.next ⟨0, 0⟩

/-- Profit is realised by fills that reduce the position only. -/
def RealizesReductions (ordered : List UserTrade) : Prop :=
  ∀ done trade, done ++ [trade] <+: ordered →
    reducedQty (netPosition done) trade = 0 → trade.realizedPnl = 0

/-- The totals of the rows and the open states against those of the fills. -/
structure TotalsKept (trades : List UserTrade) (replay : LegReplay) : Prop where
  quantity : (tradeTotals trades).opened - (replay.result.map ClosedLeg.quantity).sum =
    (replay.states .long).quantity + (replay.states .short).quantity
  net : netPosition trades = (replay.states .long).quantity - (replay.states .short).quantity
  fees : (replay.result.map ClosedLeg.fee).sum + (replay.states .long).fee +
    (replay.states .short).fee = (trades.map fun trade => |trade.commission|).sum
  pnl : (replay.result.map ClosedLeg.grossPnl).sum = (trades.map UserTrade.realizedPnl).sum
  nonneg : ∀ side, 0 ≤ (replay.states side).quantity
  oneSided : (replay.states .long).quantity = 0 ∨ (replay.states .short).quantity = 0

/-- A fill after which the totals are kept: neither the rest of it nor what it leaves of the
position is dust, and it realises no profit where it reverses the position. -/
def FillKept (net : ℚ) (trade : UserTrade) : Prop :=
  let rest := trade.qty - reducedQty net trade
  let left := |net| - reducedQty net trade
  (rest = 0 ∨ dust < rest) ∧
    (reducedQty net trade = 0 ∨ left = 0 ∨ dust < left) ∧
    (reducedQty net trade = 0 ∨ rest = 0 ∨ trade.realizedPnl = 0)

theorem dust_pos : 0 < dust := by norm_num [dust]

/-! ## One fill -/

def openingSide (trade : UserTrade) : LegSide :=
  if upper trade.side = "BUY" then .long else .short

section

variable {iso : ℚ → String} {symbol nativeSymbol : String} {replay : LegReplay} {trade : UserTrade}

theorem apply_oneWay (h : OneWayFill nativeSymbol trade) :
    replay.apply iso symbol nativeSymbol trade =
      replay.oneWay iso symbol (openingSide trade).other trade trade.qty |trade.commission| := by
  have habs : |trade.qty| = trade.qty := abs_of_pos h.qty
  unfold LegReplay.apply openingSide
  dsimp only
  rw [if_neg (not_not.mpr h.symbol), habs,
    if_neg (not_or.mpr ⟨not_le.mpr h.qty, not_le.mpr h.price⟩), if_pos h.stable, h.both,
    if_neg (by decide), if_neg (by decide)]
  rcases h.side with hbuy | hsell
  · rw [hbuy, if_pos rfl, if_pos rfl]
    rfl
  · rw [hsell, if_neg (by decide), if_pos rfl, if_neg (by decide)]
    rfl

theorem close_spec (iso : ℚ → String) (symbol : String) (side : LegSide)
    (quantity price fee grossPnl timestamp : ℚ) (rowId : String) (hq : 0 < quantity)
    (hstate : 0 ≤ (replay.states side).quantity) :
    let out := replay.close iso symbol side quantity price fee grossPnl timestamp rowId
    let closing := min quantity (replay.states side).quantity
    let left := (replay.states side).quantity - closing
    out.2 = quantity - closing ∧
      out.1.states side.other = replay.states side.other ∧
      (out.1.states side).quantity = (if left ≤ dust then 0 else left) ∧
      (out.1.result.map ClosedLeg.quantity).sum =
        (replay.result.map ClosedLeg.quantity).sum + closing ∧
      (out.1.result.map ClosedLeg.grossPnl).sum =
        (replay.result.map ClosedLeg.grossPnl).sum + grossPnl * (closing / quantity) ∧
      (closing = 0 ∨ left = 0 ∨ dust < left →
        (out.1.result.map ClosedLeg.fee).sum + (out.1.states side).fee =
          (replay.result.map ClosedLeg.fee).sum + (replay.states side).fee +
            fee * (closing / quantity)) := by
  have hdust := dust_pos
  intro out closing left
  rcases hstate.eq_or_lt with hzero | hpos
  · -- nothing to close
    have hclosing : closing = 0 := by
      change min quantity (replay.states side).quantity = 0
      rw [← hzero, min_eq_right hq.le]
    have hout : out = (replay, quantity) := by
      change LegReplay.close iso symbol replay side quantity price fee grossPnl timestamp rowId = _
      unfold LegReplay.close
      dsimp only
      rw [← hzero, min_eq_right hq.le, if_pos le_rfl]
    have hleft : left = 0 := by
      change (replay.states side).quantity - closing = 0
      rw [hclosing, ← hzero, sub_zero]
    rw [hout, hclosing, hleft, if_pos hdust.le, zero_div, mul_zero, mul_zero, add_zero, add_zero,
      add_zero, sub_zero]
    exact ⟨rfl, rfl, hzero.symm, rfl, rfl, fun _ => rfl⟩
  · have hclosing : 0 < closing := lt_min hq hpos
    have hle : closing ≤ (replay.states side).quantity := min_le_right _ _
    have hne : side.other ≠ side := by cases side <;> decide
    have hratio : max 0 (1 - closing / (replay.states side).quantity) =
        1 - closing / (replay.states side).quantity := by
      refine max_eq_right ?_
      rw [sub_nonneg, div_le_one hpos]
      exact hle
    have hclose : out = LegReplay.close iso symbol replay side quantity price fee grossPnl timestamp
      rowId := rfl
    unfold LegReplay.close at hclose
    dsimp only at hclose
    change out = if closing ≤ 0 then _ else _ at hclose
    rw [if_neg (not_le.mpr hclosing)] at hclose
    rw [hclose]
    dsimp only
    change _ ∧ _ ∧
      (Function.update replay.states side (if left ≤ dust then _ else _) side).quantity = _ ∧
      _ ∧ _ ∧
      (_ → _ + (Function.update replay.states side (if left ≤ dust then _ else _) side).fee = _)
    rw [Function.update_self, Function.update_of_ne hne, if_pos hq, hratio]
    simp only [List.map_append, List.sum_append, List.map_cons, List.map_nil, List.sum_cons,
      List.sum_nil, add_zero]
    refine ⟨rfl, trivial, ?_, rfl, rfl, ?_⟩
    · split_ifs
      · rfl
      · rfl
    · intro hkept
      have hshare : (replay.states side).fee * (closing / (replay.states side).quantity) +
          (replay.states side).fee * (1 - closing / (replay.states side).quantity) =
            (replay.states side).fee := by ring
      split_ifs with hempty
      · -- what is reset held no fee
        have hzero : left = 0 := by
          rcases hkept with h | h | h
          · exact absurd h hclosing.ne'
          · exact h
          · exact absurd h (not_lt.mpr hempty)
        have hall : closing / (replay.states side).quantity = 1 := by
          have heq : closing = (replay.states side).quantity := by
            change (replay.states side).quantity - closing = 0 at hzero
            linarith
          rw [heq, div_self hpos.ne']
        rw [hall]
        change _ + LegState.empty.fee = _
        have hnone : LegState.empty.fee = 0 := rfl
        rw [hnone]
        ring
      · linarith

theorem oneWay_spec (iso : ℚ → String) (symbol : String) (replay : LegReplay)
    (trade : UserTrade) (side : LegSide) (quantity fee : ℚ) (hq : 0 < quantity)
    (hstate : 0 ≤ (replay.states side.other).quantity) :
    let out := replay.oneWay iso symbol side.other trade quantity fee
    let closing := min quantity (replay.states side.other).quantity
    let rest := quantity - closing
    let left := (replay.states side.other).quantity - closing
    (out.states side).quantity =
        (replay.states side).quantity + (if dust < rest then rest else 0) ∧
      (out.states side.other).quantity = (if left ≤ dust then 0 else left) ∧
      (out.result.map ClosedLeg.quantity).sum =
        (replay.result.map ClosedLeg.quantity).sum + closing ∧
      (out.result.map ClosedLeg.grossPnl).sum =
        (replay.result.map ClosedLeg.grossPnl).sum + trade.realizedPnl * (closing / quantity) ∧
      (rest = 0 ∨ dust < rest → closing = 0 ∨ left = 0 ∨ dust < left →
        (out.result.map ClosedLeg.fee).sum + (out.states side).fee + (out.states side.other).fee =
          (replay.result.map ClosedLeg.fee).sum + (replay.states side).fee +
            (replay.states side.other).fee + fee) := by
  intro out closing rest left
  obtain ⟨hrest, hother, hleft, hclosed, hpnl, hfee⟩ := close_spec iso symbol side.other quantity
    trade.price fee trade.realizedPnl trade.time trade.rowId hq hstate
  have hback : side.other.other = side := by cases side <;> rfl
  have hne : side.other ≠ side := by cases side <;> decide
  have hout : out = LegReplay.oneWay iso symbol replay side.other trade quantity fee := rfl
  unfold LegReplay.oneWay at hout
  dsimp only at hout
  rw [hback] at hother
  rw [hrest, hback] at hout
  generalize (replay.close iso symbol side.other quantity trade.price fee trade.realizedPnl
    trade.time trade.rowId).1 = closed at hout hother hleft hclosed hpnl hfee
  have hsplit : fee * (closing / quantity) + fee * (rest / quantity) = fee := by
    have hsum : closing + rest = quantity := add_sub_cancel _ _
    rw [← mul_add, ← add_div, hsum, div_self hq.ne', mul_one]
  change out = if dust < rest then _ else _ at hout
  by_cases hopen : dust < rest
  · rw [if_pos hopen] at hout
    rw [hout, if_pos hopen]
    unfold LegReplay.add
    dsimp only
    rw [Function.update_self, Function.update_of_ne hne, hother]
    refine ⟨rfl, hleft, hclosed, hpnl, fun _ hkept => ?_⟩
    have := hfee hkept
    dsimp only
    linarith
  · rw [if_neg hopen] at hout
    rw [hout, if_neg hopen, hother, add_zero]
    refine ⟨rfl, hleft, hclosed, hpnl, fun hrestKept hkept => ?_⟩
    have := hfee hkept
    have hnone : rest = 0 := hrestKept.resolve_right hopen
    rw [hnone, zero_div, mul_zero, add_zero] at hsplit
    linarith

end

/-! ## The position -/

section

variable {trades : List UserTrade} {trade : UserTrade} {nativeSymbol : String}
  {replay : LegReplay}

theorem tradeTotals_append :
    tradeTotals (trades ++ [trade]) = (tradeTotals trades).next trade := by
  unfold tradeTotals
  rw [List.foldl_append]
  rfl

theorem netPosition_append :
    netPosition (trades ++ [trade]) = netPosition trades + signedQty trade := by
  unfold netPosition
  rw [List.map_append, List.sum_append, List.map_singleton, List.sum_singleton]

theorem tradeTotals_net : (tradeTotals trades).net = netPosition trades := by
  induction trades using List.reverseRecOn with
  | nil => rfl
  | append_singleton trades trade ih =>
    rw [tradeTotals_append, netPosition_append, ← ih]
    rfl

theorem bothSides (f : LegState → ℚ) (side : LegSide) :
    f (replay.states .long) + f (replay.states .short) =
      f (replay.states side) + f (replay.states side.other) := by
  cases side with
  | long => rfl
  | short => exact add_comm _ _

theorem reduced_eq (hfill : OneWayFill nativeSymbol trade) (hkept : TotalsKept trades replay) :
    reducedQty (netPosition trades) trade =
        min trade.qty (replay.states (openingSide trade).other).quantity ∧
      |netPosition trades| = (replay.states (openingSide trade)).quantity +
        (replay.states (openingSide trade).other).quantity := by
  have hq := hfill.qty
  have hlong := hkept.nonneg .long
  have hshort := hkept.nonneg .short
  have hnet := hkept.net
  unfold reducedQty closedPart signedQty openingSide
  rw [hnet]
  rcases hfill.side with hside | hside
  · rw [hside, if_pos rfl, if_pos rfl]
    change (if _ then min _ _ else 0) = min trade.qty (replay.states .short).quantity ∧
      _ = (replay.states .long).quantity + (replay.states .short).quantity
    rcases hkept.oneSided with hzero | hzero
    · rw [hzero, zero_sub, zero_add, abs_neg, abs_of_nonneg hshort, abs_of_pos hq]
      refine ⟨?_, rfl⟩
      rcases hshort.eq_or_lt with heq | hpos
      · rw [← heq, neg_zero, zero_mul, if_neg (lt_irrefl _), min_eq_right hq.le]
      · rw [if_pos (by linarith [mul_pos hpos hq]), min_comm]
    · rw [hzero, sub_zero, add_zero, abs_of_nonneg hlong,
        if_neg (not_lt.mpr (mul_nonneg hlong hq.le)), min_eq_right hq.le]
      exact ⟨rfl, rfl⟩
  · have hne : ¬ upper trade.side = "BUY" := by
      rw [hside]
      decide
    rw [if_neg hne, if_neg hne]
    change (if _ then min _ _ else 0) = min trade.qty (replay.states .long).quantity ∧
      _ = (replay.states .short).quantity + (replay.states .long).quantity
    rcases hkept.oneSided with hzero | hzero
    · rw [hzero, zero_sub, add_zero, abs_neg, abs_of_nonneg hshort, neg_mul_neg,
        if_neg (not_lt.mpr (mul_nonneg hshort hq.le)), min_eq_right hq.le]
      exact ⟨rfl, rfl⟩
    · rw [hzero, sub_zero, zero_add, abs_neg, abs_of_nonneg hlong, abs_of_pos hq]
      refine ⟨?_, rfl⟩
      rcases hlong.eq_or_lt with heq | hpos
      · rw [← heq, zero_mul, if_neg (lt_irrefl _), min_eq_right hq.le]
      · rw [if_pos (by linarith [mul_pos hpos hq]), min_comm]

theorem oneSided_iff (side : LegSide) :
    ((replay.states .long).quantity = 0 ∨ (replay.states .short).quantity = 0) ↔
      ((replay.states side).quantity = 0 ∨ (replay.states side.other).quantity = 0) := by
  cases side with
  | long => exact Iff.rfl
  | short => exact or_comm

theorem net_iff (hfill : OneWayFill nativeSymbol trade) {before : LegReplay} (after : LegReplay)
    (hkept : netPosition trades =
      (before.states .long).quantity - (before.states .short).quantity) :
    netPosition (trades ++ [trade]) =
        (after.states .long).quantity - (after.states .short).quantity ↔
      (after.states (openingSide trade)).quantity -
          (after.states (openingSide trade).other).quantity =
        (before.states (openingSide trade)).quantity -
          (before.states (openingSide trade).other).quantity + trade.qty := by
  rw [netPosition_append, hkept]
  unfold signedQty openingSide
  rcases hfill.side with hside | hside
  · rw [hside, if_pos rfl, if_pos rfl]
    change _ ↔ (after.states .long).quantity - (after.states .short).quantity =
      (before.states .long).quantity - (before.states .short).quantity + trade.qty
    exact eq_comm
  · have hne : ¬ upper trade.side = "BUY" := by
      rw [hside]
      decide
    rw [if_neg hne, if_neg hne]
    change _ ↔ (after.states .short).quantity - (after.states .long).quantity =
      (before.states .short).quantity - (before.states .long).quantity + trade.qty
    constructor <;> intro h <;> linarith

theorem totalsKept_step {iso : ℚ → String} {symbol : String}
    (hfill : OneWayFill nativeSymbol trade) (hkept : TotalsKept trades replay)
    (hpnl : reducedQty (netPosition trades) trade = 0 → trade.realizedPnl = 0) :
    TotalsKept (trades ++ [trade]) (replay.apply iso symbol nativeSymbol trade) ↔
      FillKept (netPosition trades) trade := by
  obtain ⟨hreduced, habs⟩ := reduced_eq hfill hkept
  have hq := hfill.qty
  have hdust := dust_pos
  have hstate := hkept.nonneg (openingSide trade).other
  have hopenState := hkept.nonneg (openingSide trade)
  have honeSided := (oneSided_iff (openingSide trade)).mp hkept.oneSided
  have hquantity := hkept.quantity
  have hfees := hkept.fees
  have hprofit := hkept.pnl
  have hopened : (tradeTotals (trades ++ [trade])).opened = (tradeTotals trades).opened +
      (trade.qty - reducedQty (netPosition trades) trade) := by
    rw [tradeTotals_append, ← tradeTotals_net]
    rfl
  obtain ⟨hopen', hleft', hclosed', hprofit', hfee'⟩ := oneWay_spec iso symbol replay trade
    (openingSide trade) trade.qty |trade.commission| hq hstate
  rw [bothSides LegState.quantity (openingSide trade)] at hquantity
  rw [add_assoc, bothSides LegState.fee (openingSide trade)] at hfees
  unfold FillKept
  dsimp only
  rw [apply_oneWay hfill, habs, hreduced]
  rw [hreduced] at hopened hpnl
  have hnet := fun after : LegReplay => net_iff hfill after hkept.net
  generalize replay.oneWay iso symbol (openingSide trade).other trade trade.qty
    |trade.commission| = after at hopen' hleft' hclosed' hprofit' hfee' ⊢
  generalize (replay.states (openingSide trade)).quantity = here at *
  generalize (replay.states (openingSide trade).other).quantity = there at *
  have hclosingLe : min trade.qty there ≤ trade.qty := min_le_left _ _
  have hclosingLe' : min trade.qty there ≤ there := min_le_right _ _
  have hclosingNonneg : 0 ≤ min trade.qty there := le_min hq.le hstate
  have hall : min trade.qty there = trade.qty ∨ min trade.qty there = there := min_choice _ _
  generalize min trade.qty there = closing at *
  -- what the dust limit takes from the rest and from the position
  have hrestLoss : 0 ≤ (trade.qty - closing) -
      (if dust < trade.qty - closing then trade.qty - closing else 0) := by
    split_ifs <;> linarith
  have hleftLoss : 0 ≤ (there - closing) -
      (if there - closing ≤ dust then 0 else there - closing) := by
    split_ifs <;> linarith
  constructor
  · intro h
    have hquantity' := h.quantity
    rw [bothSides LegState.quantity (openingSide trade), hopen', hleft', hclosed', hopened]
      at hquantity'
    have hrest : trade.qty - closing = 0 ∨ dust < trade.qty - closing := by
      by_cases hdusty : dust < trade.qty - closing
      · exact Or.inr hdusty
      · rw [if_neg hdusty] at hquantity' hrestLoss
        exact Or.inl (by linarith)
    have hleft : there - closing = 0 ∨ dust < there - closing := by
      by_cases hdusty : there - closing ≤ dust
      · rw [if_pos hdusty] at hquantity' hleftLoss
        exact Or.inl (by linarith)
      · exact Or.inr (not_le.mp hdusty)
    refine ⟨hrest, ?_, ?_⟩
    · by_cases hclosing : closing = 0
      · exact Or.inl hclosing
      · have hhere : here = 0 := by
          refine honeSided.resolve_right fun hzero => hclosing ?_
          linarith
        rw [hhere, zero_add]
        exact Or.inr hleft
    · have hprofitAll := h.pnl
      rw [hprofit', List.map_append, List.sum_append, List.map_singleton, List.sum_singleton]
        at hprofitAll
      have hshare : trade.realizedPnl * ((trade.qty - closing) / trade.qty) = 0 := by
        rw [sub_div, div_self hq.ne']
        linarith
      rcases mul_eq_zero.mp hshare with hnone | hrestZero
      · exact Or.inr (Or.inr hnone)
      · exact Or.inr (Or.inl ((div_eq_zero_iff.mp hrestZero).resolve_right hq.ne'))
  · rintro ⟨hrest, hleftKept, hpnlKept⟩
    have hleft : closing = 0 ∨ there - closing = 0 ∨ dust < there - closing := by
      by_cases hclosing : closing = 0
      · exact Or.inl hclosing
      · have hhere : here = 0 := by
          refine honeSided.resolve_right fun hzero => hclosing ?_
          linarith
        rw [hhere, zero_add] at hleftKept
        exact hleftKept
    have hthere : closing = 0 → there = 0 := by
      intro hzero
      rcases hall with h | h
      · linarith
      · linarith
    have hopenEq : (after.states (openingSide trade)).quantity = here + (trade.qty - closing) := by
      rw [hopen']
      rcases hrest with hzero | hlarge
      · rw [hzero, if_neg (not_lt.mpr hdust.le)]
      · rw [if_pos hlarge]
    have hleftEq : (after.states (openingSide trade).other).quantity = there - closing := by
      rw [hleft']
      rcases hleft with hzero | hzero | hlarge
      · rw [hthere hzero, hzero, sub_zero, if_pos hdust.le]
      · rw [hzero, if_pos hdust.le]
      · rw [if_neg (not_le.mpr hlarge)]
    refine ⟨?_, ?_, ?_, ?_, ?_, ?_⟩
    · rw [bothSides LegState.quantity (openingSide trade), hopenEq, hleftEq, hclosed', hopened]
      linarith
    · rw [hnet, hopenEq, hleftEq]
      ring
    · have hfeeAll := hfee' hrest hleft
      rw [add_assoc, bothSides LegState.fee (openingSide trade), List.map_append,
        List.sum_append, List.map_singleton, List.sum_singleton]
      linarith
    · rw [hprofit', List.map_append, List.sum_append, List.map_singleton, List.sum_singleton,
        hprofit]
      congr 1
      rcases hpnlKept with hzero | hzero | hzero
      · rw [hpnl hzero, zero_mul]
      · rw [← sub_eq_zero.mp hzero, div_self hq.ne', mul_one]
      · rw [hzero, zero_mul]
    · intro side
      have hsides : side = openingSide trade ∨ side = (openingSide trade).other := by
        cases side <;> cases openingSide trade <;> decide
      rcases hsides with rfl | rfl
      · rw [hopenEq]
        linarith
      · rw [hleftEq]
        linarith
    · rw [oneSided_iff (openingSide trade), hopenEq, hleftEq]
      rcases hall with hwhole | hwhole
      · rw [hwhole, sub_self, add_zero]
        rcases honeSided with hzero | hzero
        · exact Or.inl hzero
        · exact Or.inr (by linarith)
      · exact Or.inr (by linarith)

end

/-! ## All fills -/

theorem totalsKept_start {iso : ℚ → String} {symbol nativeSymbol : String} :
    TotalsKept [] (replayTrades iso symbol nativeSymbol []) where
  quantity := by
    change (0 : ℚ) - 0 = 0 + 0
    norm_num
  net := by
    change (0 : ℚ) = 0 - 0
    norm_num
  fees := by
    change (0 : ℚ) + 0 + 0 = 0
    norm_num
  pnl := rfl
  nonneg _ := le_rfl
  oneSided := Or.inl rfl

/-- The totals are kept after every fill exactly where no fill loses dust or realises a profit in
reversing the position. -/
theorem history_totals_iff {iso : ℚ → String} {symbol nativeSymbol : String}
    {rows : List UserTrade} (hfills : ∀ trade ∈ rows, OneWayFill nativeSymbol trade)
    (hpnl : RealizesReductions (orderTrades rows)) :
    (∀ done, done <+: orderTrades rows →
      TotalsKept done (replayTrades iso symbol nativeSymbol done)) ↔
    ∀ done trade, done ++ [trade] <+: orderTrades rows → FillKept (netPosition done) trade := by
  have hstep : ∀ done trade, done ++ [trade] <+: orderTrades rows →
      TotalsKept done (replayTrades iso symbol nativeSymbol done) →
      (TotalsKept (done ++ [trade]) (replayTrades iso symbol nativeSymbol (done ++ [trade])) ↔
        FillKept (netPosition done) trade) := by
    intro done trade hprefix hkept
    have hmem : trade ∈ rows := by
      have horder := hprefix.subset (List.mem_append_right _ List.mem_cons_self)
      exact (List.mergeSort_perm _ _).subset horder
    have happend : replayTrades iso symbol nativeSymbol (done ++ [trade]) =
        (replayTrades iso symbol nativeSymbol done).apply iso symbol nativeSymbol trade := by
      unfold replayTrades
      rw [List.foldl_append]
      rfl
    rw [happend]
    exact totalsKept_step (hfills trade hmem) hkept (hpnl done trade hprefix)
  constructor
  · intro h done trade hprefix
    have hdone : done <+: orderTrades rows := (List.prefix_append done [trade]).trans hprefix
    exact (hstep done trade hprefix (h done hdone)).mp (h _ hprefix)
  · intro h done
    induction done using List.reverseRecOn with
    | nil =>
      exact fun _ => totalsKept_start
    | append_singleton done trade ih =>
      intro hprefix
      have hdone : done <+: orderTrades rows := (List.prefix_append done [trade]).trans hprefix
      exact (hstep done trade hprefix (ih hdone)).mpr (h done trade hprefix)

def plainFill (id qty price realizedPnl : ℚ) (side : String) : UserTrade :=
  { time := id, id, rowId := "1", symbol := "BTCUSDT", qty, price, commission := 0
    commissionAsset := "USDT", realizedPnl, side, positionSide := "BOTH" }

/-- One bought at 100, two sold at 110: the sale closes the long position with a profit of 10 and
opens a short one. -/
def reversal : List UserTrade := [plainFill 1 1 100 0 "BUY", plainFill 2 2 110 10 "SELL"]

def roundTrip : List UserTrade := [plainFill 1 1 100 0 "BUY", plainFill 2 1 110 10 "SELL"]

theorem orderTrades_of_pairwise {rows : List UserTrade}
    (h : rows.Pairwise fun earlier later =>
      earlier.time < later.time ∨ earlier.time = later.time ∧ earlier.id ≤ later.id) :
    orderTrades rows = rows := by
  unfold orderTrades
  apply List.mergeSort_of_pairwise
  simpa only [decide_eq_true_eq] using h

theorem forall_prefix_cons {P : List UserTrade → UserTrade → Prop} {first : UserTrade}
    {rest : List UserTrade} (hfirst : P [] first)
    (hrest : ∀ done trade, done ++ [trade] <+: rest → P (first :: done) trade) :
    ∀ done trade, done ++ [trade] <+: first :: rest → P done trade := by
  intro done trade h
  cases done with
  | nil =>
    obtain ⟨rfl, -⟩ := List.cons_prefix_cons.mp h
    exact hfirst
  | cons other done =>
    obtain ⟨rfl, hprefix⟩ := List.cons_prefix_cons.mp h
    exact hrest done trade hprefix

theorem forall_prefix_nil {P : List UserTrade → UserTrade → Prop} :
    ∀ done trade, done ++ [trade] <+: [] → P done trade := by
  intro done trade h
  exact absurd (List.prefix_nil.mp h) (by simp)

theorem oneWayFill_plainFill {id qty price realizedPnl : ℚ} {side : String} (hq : 0 < qty)
    (hp : 0 < price) (hside : side = "BUY" ∨ side = "SELL") :
    OneWayFill "BTCUSDT" (plainFill id qty price realizedPnl side) where
  symbol := by
    change upper "BTCUSDT" = "BTCUSDT"
    decide +kernel
  qty := hq
  price := hp
  stable := by
    change upper "USDT" ∈ LegReplay.stableAssets
    decide +kernel
  both := by
    change upper (if "BOTH" = "" then "BOTH" else "BOTH") = "BOTH"
    decide +kernel
  side := by
    change upper side = "BUY" ∨ upper side = "SELL"
    rcases hside with rfl | rfl <;> decide +kernel

theorem orderTrades_roundTrip : orderTrades roundTrip = roundTrip :=
  orderTrades_of_pairwise (List.pairwise_pair.mpr (Or.inl (by norm_num [plainFill])))

theorem orderTrades_reversal : orderTrades reversal = reversal :=
  orderTrades_of_pairwise (List.pairwise_pair.mpr (Or.inl (by norm_num [plainFill])))

theorem history_totals_roundTrip :
    (∀ done, done <+: orderTrades roundTrip →
      TotalsKept done (replayTrades (fun _ => "") "BTC/USDT" "BTCUSDT" done)) ↔
    ∀ done trade, done ++ [trade] <+: orderTrades roundTrip →
      FillKept (netPosition done) trade := by
  refine history_totals_iff ?_ ?_
  · intro trade htrade
    rcases List.mem_pair.mp htrade with rfl | rfl
    · exact oneWayFill_plainFill (by norm_num) (by norm_num) (Or.inl rfl)
    · exact oneWayFill_plainFill (by norm_num) (by norm_num) (Or.inr rfl)
  · unfold RealizesReductions
    rw [orderTrades_roundTrip]
    exact forall_prefix_cons (fun _ => rfl)
      (forall_prefix_cons (by decide +kernel) forall_prefix_nil)

/-- The reversing fill reports half of the profit it realises. -/
theorem reversal_loses_profit :
    ¬ ∀ (iso : ℚ → String) (symbol nativeSymbol : String) (rows : List UserTrade),
      (∀ trade ∈ rows, OneWayFill nativeSymbol trade) → RealizesReductions (orderTrades rows) →
      TotalsKept (orderTrades rows) (replayTrades iso symbol nativeSymbol (orderTrades rows)) := by
  intro h
  have hfills : ∀ trade ∈ reversal, OneWayFill "BTCUSDT" trade := by
    intro trade htrade
    rcases List.mem_pair.mp htrade with rfl | rfl
    · exact oneWayFill_plainFill (by norm_num) (by norm_num) (Or.inl rfl)
    · exact oneWayFill_plainFill (by norm_num) (by norm_num) (Or.inr rfl)
  have hpnl : RealizesReductions (orderTrades reversal) := by
    unfold RealizesReductions
    rw [orderTrades_reversal]
    exact forall_prefix_cons (fun _ => rfl)
      (forall_prefix_cons (by decide +kernel) forall_prefix_nil)
  have hprofit := (h (fun _ => "") "BTC/USDT" "BTCUSDT" reversal hfills hpnl).pnl
  rw [orderTrades_reversal] at hprofit
  revert hprofit
  decide +kernel

end QuantDinger.Analysis
