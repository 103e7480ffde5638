import Mathlib.Tactic.Linarith
import Mathlib.Tactic.FieldSimp
import QuantDinger.Model.OrderExecution

/-!
# The limit-then-market executor does not over-execute

The exchange is free in every response. What ties its reports to what it really executes is
`Executed`: an order executes no more than its size, a report is never ahead of the
execution, a report with a terminal status is the final fill, and an order refused for its
price band executes nothing. A transcript is read as the list of the orders it places, each
with the reports made about it (`placements`).
-/

namespace QuantDinger.Analysis

open QuantDinger.Library QuantDinger.Model QuantDinger.Model.Live
open QuantDinger.Library.Interaction

/-! ## Orders and executions -/

/-- An order as the transcript shows it. -/
structure Placement where
  market : Bool
  intent : OrderIntent
  response : Except AdapterError LiveOrderResult
  reports : List FillSnapshot

/-- The transcript read from its end: the reports that belong to an order placed earlier,
and the orders placed since. -/
def readBack : List AdapterEvent → List FillSnapshot × List Placement
  | [] => ([], [])
  | ⟨.placeMarketOrder intent, response⟩ :: rest =>
    ([], ⟨true, intent, response, (readBack rest).1⟩ :: (readBack rest).2)
  | ⟨.placeLimitOrder intent, response⟩ :: rest =>
    ([], ⟨false, intent, response, (readBack rest).1⟩ :: (readBack rest).2)
  | ⟨.waitForFill _ _ _, .ok (some fill)⟩ :: rest =>
    (fill :: (readBack rest).1, (readBack rest).2)
  | _ :: rest => readBack rest

/-- The orders of a transcript, each with the reports that follow it. -/
def placements (transcript : List AdapterEvent) : List Placement := (readBack transcript).2

/-- What the exchange executes of an order in the end: quantity and average price. -/
abbrev Fill := Amount × Amount

def ReportedTerminal (order : Placement) : Prop :=
  ∃ report ∈ order.reports, Terminal report.status

/-- The order was refused because of its price. -/
def RefusedForPrice (order : Placement) : Prop :=
  ∃ text, order.response = .error (.priceBand text)

/-- What the exchange executes of an order, against what it says about it. -/
structure Executed (order : Placement) (fill : Fill) : Prop where
  nonneg : 0 ≤ fill.1
  size : 0 ≤ order.intent.quantity → fill.1 ≤ order.intent.quantity
  average : 0 < fill.1 → 0 < fill.2
  placed : ∀ result, order.response = .ok result → result.filled ≤ fill.1
  reported : ∀ report ∈ order.reports, report.filledQty ≤ fill.1
  final : ∀ report ∈ order.reports, Terminal report.status →
    report.filledQty = fill.1 ∧ (0 < fill.1 → report.avgPrice = fill.2)
  refused : RefusedForPrice order → fill.1 = 0

/-! ## The transcripts of the executors -/

theorem plays_market {maxWait : Amount} {intent : OrderIntent} {transcript : List AdapterEvent}
    {outcome : Except AdapterError OrderExecutionResult}
    (h : Plays (MarketOrderExecutor.execute maxWait intent) transcript outcome) :
    ∃ response reports, placements transcript = [⟨true, intent, response, reports⟩] ∧
      (readBack transcript).1 = [] ∧
      ∀ report ∈ reports, ∃ result, response = .ok result ∧ reports = [report] ∧
        outcome = .ok (MarketOrderExecutor.observed result report) := by
  unfold MarketOrderExecutor.execute at h
  obtain ⟨response, rest, rfl, hrest⟩ := plays_call.mp h
  rcases response with (text | text | text | text) | result
  · obtain ⟨rfl, rfl⟩ := plays_done.mp hrest
    exact ⟨_, [], rfl, rfl, by simp⟩
  · obtain ⟨rfl, rfl⟩ := plays_done.mp hrest
    exact ⟨_, [], rfl, rfl, by simp⟩
  · obtain ⟨rfl, rfl⟩ := plays_done.mp hrest
    exact ⟨_, [], rfl, rfl, by simp⟩
  · obtain ⟨rfl, rfl⟩ := plays_fail.mp hrest
    exact ⟨_, [], rfl, rfl, by simp⟩
  · obtain ⟨answer, rest, rfl, hanswer⟩ := plays_call.mp hrest
    rcases answer with e | _ | fill
    · obtain ⟨rfl, rfl⟩ := plays_done.mp hanswer
      exact ⟨_, [], rfl, rfl, by simp⟩
    · obtain ⟨rfl, rfl⟩ := plays_done.mp hanswer
      exact ⟨_, [], rfl, rfl, by simp⟩
    · obtain ⟨rfl, rfl⟩ := plays_done.mp hanswer
      refine ⟨_, [fill], rfl, rfl, ?_⟩
      intro report hreport
      rw [List.mem_singleton] at hreport
      subst hreport
      exact ⟨result, rfl, rfl, rfl⟩

/-- A market order that follows a limit order settled by the snapshot `fill`. -/
structure FollowUp (intent : OrderIntent) (result : LiveOrderResult) (fill : FillSnapshot)
    (order : Placement) (outcome : Except AdapterError OrderExecutionResult) : Prop where
  market : order.market = true
  intent_eq : order.intent = LimitThenMarketExecutor.marketIntent intent fill
  terminal : Terminal fill.status
  remaining : fill.filledQty < intent.quantity
  observed : ∀ report ∈ order.reports, ∃ placed, order.response = .ok placed ∧
    order.reports = [report] ∧ outcome = .ok (LimitThenMarketExecutor.bothLegs result fill
      (MarketOrderExecutor.observed placed report))

theorem plays_settle {intent : OrderIntent} {result : LiveOrderResult} {fill : FillSnapshot}
    {transcript : List AdapterEvent} {outcome : Except AdapterError OrderExecutionResult}
    (h : Plays (LimitThenMarketExecutor.settle intent result fill) transcript outcome) :
    (readBack transcript).1 = [] ∧ (placements transcript = [] ∨
      ∃ order, placements transcript = [order] ∧ FollowUp intent result fill order outcome) := by
  unfold LimitThenMarketExecutor.settle at h
  split at h
  · obtain ⟨rfl, rfl⟩ := plays_done.mp h
    exact ⟨rfl, Or.inl rfl⟩
  · rename_i hterminal
    split at h
    · obtain ⟨rfl, rfl⟩ := plays_done.mp h
      exact ⟨rfl, Or.inl rfl⟩
    · split at h
      · obtain ⟨rfl, rfl⟩ := plays_done.mp h
        exact ⟨rfl, Or.inl rfl⟩
      · rename_i hremaining
        split at h
        · obtain ⟨rfl, rfl⟩ := plays_done.mp h
          exact ⟨rfl, Or.inl rfl⟩
        · have hless : fill.filledQty < intent.quantity := by
            by_contra hle
            refine hremaining (Or.inl ?_)
            rw [max_eq_left (by linarith [not_lt.mp hle])]
          rcases plays_bind.mp h with ⟨e, he, -⟩ | ⟨attempted, front, back, rfl, hfront, hback⟩
          · obtain ⟨o, ho, -⟩ := plays_attempt.mp he
            cases ho
          · obtain ⟨o, ho, hmarket⟩ := plays_attempt.mp hfront
            cases ho
            obtain ⟨response, reports, hplaced, hfirst, hobserved⟩ := plays_market hmarket
            have hnil : back = [] := by
              rcases attempted with e | market
              · exact (plays_done.mp hback).1
              · exact (plays_done.mp hback).1
            subst hnil
            rw [List.append_nil]
            refine ⟨hfirst, Or.inr ⟨_, hplaced, rfl, rfl, not_not.mp hterminal, hless, ?_⟩⟩
            intro report hreport
            obtain ⟨placed, hresponse, hreports, houtcome⟩ := hobserved report hreport
            refine ⟨placed, hresponse, hreports, ?_⟩
            subst houtcome
            exact (plays_done.mp hback).2

theorem plays_afterPlacing {maxWait : Amount} {fallback : Bool} {intent : OrderIntent}
    {result : LiveOrderResult} {transcript : List AdapterEvent}
    {outcome : Except AdapterError OrderExecutionResult}
    (h : Plays (LimitThenMarketExecutor.afterPlacing maxWait fallback intent result) transcript
      outcome) :
    placements transcript = [] ∨ ∃ order fill, placements transcript = [order] ∧
      fill ∈ (readBack transcript).1 ∧ FollowUp intent result fill order outcome := by
  unfold LimitThenMarketExecutor.afterPlacing at h
  obtain ⟨first, rest, rfl, hfirst⟩ := plays_call.mp h
  rcases first with e | seen
  · obtain ⟨rfl, rfl⟩ := plays_done.mp hfirst
    exact Or.inl rfl
  · -- What the first snapshot says does not matter to what follows the cancellation.
    have hseen : ∀ tail : List AdapterEvent,
        placements (⟨.waitForFill intent result.exchangeOrderId maxWait, .ok seen⟩ :: tail) =
            placements tail ∧
          (readBack tail).1 ⊆ (readBack
            (⟨.waitForFill intent result.exchangeOrderId maxWait, .ok seen⟩ :: tail)).1 := by
      intro tail
      rcases seen with _ | fill
      · exact ⟨rfl, List.Subset.refl _⟩
      · exact ⟨rfl, List.subset_cons_self _ _⟩
    rw [(hseen rest).1]
    dsimp only at hfirst
    split at hfirst
    · obtain ⟨rfl, rfl⟩ := plays_done.mp hfirst
      exact Or.inl rfl
    · split at hfirst
      · obtain ⟨rfl, rfl⟩ := plays_done.mp hfirst
        exact Or.inl rfl
      · obtain ⟨cancelled, rest, rfl, hcancelled⟩ := plays_call.mp hfirst
        rcases cancelled with e | _
        · obtain ⟨rfl, rfl⟩ := plays_done.mp hcancelled
          exact Or.inl rfl
        · obtain ⟨second, rest, rfl, hsecond⟩ := plays_call.mp hcancelled
          rcases second with e | _ | confirmed
          · obtain ⟨rfl, rfl⟩ := plays_done.mp hsecond
            exact Or.inl rfl
          · obtain ⟨rfl, rfl⟩ := plays_done.mp hsecond
            exact Or.inl rfl
          · dsimp only at hsecond
            split at hsecond
            · obtain ⟨rfl, rfl⟩ := plays_done.mp hsecond
              exact Or.inl rfl
            · obtain ⟨-, hnone | ⟨order, horder, hfollow⟩⟩ := plays_settle hsecond
              · exact Or.inl hnone
              · refine Or.inr ⟨order, confirmed, horder, (hseen _).2 ?_, hfollow⟩
                exact List.mem_cons_self

/-- The orders of the executor: one order, a limit order refused for its price and a market
order for the whole, or a limit order settled by a terminal report and a market order for
the rest. -/
inductive Shape (intent : OrderIntent) (outcome : Except AdapterError OrderExecutionResult) :
    List Placement → Prop
  | single (order : Placement) (h : order.intent = intent) : Shape intent outcome [order]
  | replaced (limit market : Placement) (hlimit : RefusedForPrice limit)
      (hreports : limit.reports = []) (hkind : limit.market = false)
      (hmarket : market.intent.quantity = intent.quantity) :
      Shape intent outcome [limit, market]
  | followed (limit market : Placement) (result : LiveOrderResult) (fill : FillSnapshot)
      (hlimit : limit.intent = intent) (hkind : limit.market = false)
      (hresponse : limit.response = .ok result) (hfill : fill ∈ limit.reports)
      (hmarket : FollowUp intent result fill market outcome) :
      Shape intent outcome [limit, market]

theorem plays_limitThenMarket {maxWait : Amount} {fallback : Bool} {intent : OrderIntent}
    {transcript : List AdapterEvent} {outcome : Except AdapterError OrderExecutionResult}
    (h : Plays (LimitThenMarketExecutor.execute maxWait fallback intent) transcript outcome) :
    Shape intent outcome (placements transcript) := by
  unfold LimitThenMarketExecutor.execute at h
  split at h
  · obtain ⟨response, reports, hplaced, -, -⟩ := plays_market h
    rw [hplaced]
    exact .single _ rfl
  · obtain ⟨response, rest, rfl, hrest⟩ := plays_call.mp h
    rcases response with (text | text | text | text) | result
    · obtain ⟨rfl, rfl⟩ := plays_done.mp hrest
      exact .single _ rfl
    · dsimp only at hrest
      split at hrest
      · obtain ⟨response, reports, hplaced, hfirst, -⟩ := plays_market hrest
        show Shape intent outcome (⟨false, intent, .error (.priceBand text), (readBack rest).1⟩ ::
          placements rest)
        rw [hplaced, hfirst]
        exact .replaced _ _ ⟨text, rfl⟩ rfl rfl rfl
      · obtain ⟨rfl, rfl⟩ := plays_done.mp hrest
        exact .single _ rfl
    · obtain ⟨rfl, rfl⟩ := plays_done.mp hrest
      exact .single _ rfl
    · obtain ⟨rfl, rfl⟩ := plays_fail.mp hrest
      exact .single _ rfl
    · show Shape intent outcome (⟨false, intent, .ok result, (readBack rest).1⟩ ::
        placements rest)
      rcases plays_afterPlacing hrest with hnone | ⟨order, fill, horder, hfill, hfollow⟩
      · rw [hnone]
        exact .single _ rfl
      · rw [horder]
        exact .followed _ order result fill rfl rfl rfl hfill hfollow

/-! ## The bound and the result -/

theorem FollowUp.sum_le {intent : OrderIntent} {result : LiveOrderResult} {fill : FillSnapshot}
    {limit market : Placement} {outcome : Except AdapterError OrderExecutionResult}
    {first second : Fill} (h : FollowUp intent result fill market outcome)
    (hlimit : Executed limit first) (hfill : fill ∈ limit.reports)
    (hmarket : Executed market second) : first.1 + second.1 ≤ intent.quantity := by
  have hfinal := (hlimit.final fill hfill h.terminal).1
  have hquantity : market.intent.quantity = intent.quantity - fill.filledQty := by
    rw [h.intent_eq]
    show max 0 (intent.quantity - fill.filledQty) = _
    rw [max_eq_right (by linarith [h.remaining])]
  have hsize := hmarket.size (by linarith [h.remaining])
  linarith

theorem executionPair_final {order : Placement} {placed : LiveOrderResult} {report : FillSnapshot}
    {fill : Fill} (h : Executed order fill) (hresponse : order.response = .ok placed)
    (hreport : report ∈ order.reports) (hterminal : Terminal report.status) :
    (executionPair placed (some report)).1 = fill.1 ∧
      (0 < fill.1 → (executionPair placed (some report)).2 = fill.2) := by
  obtain ⟨hquantity, haverage⟩ := h.final report hreport hterminal
  have hplaced : placed.filled ≤ report.filledQty := hquantity ▸ h.placed placed hresponse
  unfold executionPair
  simp only [if_pos hplaced]
  constructor
  · split_ifs
    · exact hquantity
    · exact hquantity
  · intro hpos
    have hprice : positivePart report.avgPrice = fill.2 := by
      rw [haverage hpos]
      exact if_pos (h.average hpos)
    have hne : ¬ (report.filledQty = placed.filled ∧ positivePart report.avgPrice = 0) := by
      rintro ⟨-, hzero⟩
      rw [hprice] at hzero
      exact absurd (h.average hpos) (by rw [hzero]; exact lt_irrefl 0)
    rw [if_neg hne]
    exact hprice

/-- The average of two fills, weighted by their quantities. -/
def notionalAverage (first second : Fill) : Amount :=
  (first.1 * first.2 + second.1 * second.2) / (first.1 + second.1)

theorem weightedAvg_eq {first second : Fill} {p q : Amount} (hfirst : 0 ≤ first.1)
    (hsecond : 0 ≤ second.1) (hp : 0 < first.1 → p = first.2 ∧ 0 < first.2)
    (hq : 0 < second.1 → q = second.2 ∧ 0 < second.2) :
    weightedAvg (first.1, p) (second.1, q) = notionalAverage first second := by
  have hterm : ∀ {x r s : Amount}, 0 ≤ x → (0 < x → r = s ∧ 0 < s) →
      x * positivePart r = x * s ∧ ¬ (0 < x ∧ positivePart r = 0) := by
    intro x r s hx hpos
    rcases hx.lt_or_eq with hlt | rfl
    · obtain ⟨rfl, hs⟩ := hpos hlt
      unfold positivePart
      rw [if_pos hs]
      exact ⟨rfl, fun hzero => hs.ne' hzero.2⟩
    · exact ⟨by ring, fun hzero => lt_irrefl 0 hzero.1⟩
  obtain ⟨hfirstTerm, hfirstKnown⟩ := hterm hfirst hp
  obtain ⟨hsecondTerm, hsecondKnown⟩ := hterm hsecond hq
  unfold weightedAvg notionalAverage
  simp only [max_eq_right hfirst, max_eq_right hsecond, hfirstTerm, hsecondTerm]
  by_cases htotal : first.1 + second.1 ≤ 0
  · have hzero : first.1 + second.1 = 0 := le_antisymm htotal (add_nonneg hfirst hsecond)
    rw [if_pos htotal, hzero, div_zero]
  · rw [if_neg htotal, if_neg (by tauto)]
    have hnonneg : ∀ {x s : Amount}, 0 ≤ x → (0 < x → 0 < s) → 0 ≤ x * s ∧ (0 < x → 0 < x * s) := by
      intro x s hx hs
      rcases hx.lt_or_eq with hlt | rfl
      · exact ⟨(mul_pos hlt (hs hlt)).le, fun _ => mul_pos hlt (hs hlt)⟩
      · exact ⟨by simp, fun h => absurd h (lt_irrefl 0)⟩
    obtain ⟨h₁, h₁'⟩ := hnonneg hfirst fun h => (hp h).2
    obtain ⟨h₂, h₂'⟩ := hnonneg hsecond fun h => (hq h).2
    have hnotional : 0 < first.1 * first.2 + second.1 * second.2 := by
      rcases hfirst.lt_or_eq with hlt | hzero
      · exact add_pos_of_pos_of_nonneg (h₁' hlt) h₂
      · exact add_pos_of_nonneg_of_pos h₁ (h₂' (by linarith [not_le.mp htotal]))
    rw [if_pos hnotional]

theorem FollowUp.result_eq {intent : OrderIntent} {result : LiveOrderResult} {fill : FillSnapshot}
    {limit market : Placement} {outcome : Except AdapterError OrderExecutionResult}
    {first second : Fill} (h : FollowUp intent result fill market outcome)
    (hlimit : Executed limit first) (hfill : fill ∈ limit.reports)
    (hmarket : Executed market second) (hterminal : ReportedTerminal market) :
    ∃ both, outcome = .ok both ∧ both.filledQty = first.1 + second.1 ∧
      both.avgPrice = notionalAverage first second := by
  obtain ⟨report, hreport, hstatus⟩ := hterminal
  obtain ⟨placed, hresponse, -, rfl⟩ := h.observed report hreport
  obtain ⟨hquantity, haverage⟩ := hlimit.final fill hfill h.terminal
  obtain ⟨hpair, hprice⟩ := executionPair_final hmarket hresponse hreport hstatus
  refine ⟨_, rfl, ?_, ?_⟩
  · show fill.filledQty + (executionPair placed (some report)).1 = first.1 + second.1
    rw [hquantity, hpair]
  · show weightedAvg (fill.filledQty, fill.avgPrice)
      ((executionPair placed (some report)).1, (executionPair placed (some report)).2) = _
    rw [hquantity, hpair]
    exact weightedAvg_eq hlimit.nonneg hmarket.nonneg
      (fun hpos => ⟨haverage hpos, hlimit.average hpos⟩)
      (fun hpos => ⟨hprice hpos, hmarket.average hpos⟩)

def limitTen : OrderIntent where
  symbol := "BTC/USDT"
  side := "buy"
  quantity := 10
  price := 100

/-- The limit order fills 4 before it is cancelled, and the market order fills the rest. -/
def limitThenMarketRun : List AdapterEvent :=
  [⟨.placeLimitOrder limitTen, .ok { exchangeOrderId := "1" }⟩,
    ⟨.waitForFill limitTen "1" 15, .ok (some ⟨2, 100, "open", Dict.empty⟩)⟩,
    ⟨.cancelOrder limitTen "1", .ok ()⟩,
    ⟨.waitForFill limitTen "1" 15, .ok (some ⟨4, 100, "canceled", Dict.empty⟩)⟩,
    ⟨.placeMarketOrder (LimitThenMarketExecutor.marketIntent limitTen
      ⟨4, 100, "canceled", Dict.empty⟩), .ok { exchangeOrderId := "2" }⟩,
    ⟨.waitForFill (LimitThenMarketExecutor.marketIntent limitTen
      ⟨4, 100, "canceled", Dict.empty⟩) "2" 12, .ok (some ⟨6, 105, "filled", Dict.empty⟩)⟩]

theorem plays_limitThenMarketRun :
    ∃ result, Plays (LimitThenMarketExecutor.execute 15 true limitTen) limitThenMarketRun
      (.ok result) := by
  refine ⟨LimitThenMarketExecutor.bothLegs { exchangeOrderId := "1" }
    ⟨4, 100, "canceled", Dict.empty⟩ (MarketOrderExecutor.observed { exchangeOrderId := "2" }
      ⟨6, 105, "filled", Dict.empty⟩), ?_⟩
  unfold LimitThenMarketExecutor.execute
  rw [if_neg (by decide +kernel)]
  refine .call _ (.call _ ?_)
  dsimp only
  rw [if_neg (by decide +kernel), if_neg (by decide +kernel)]
  refine .call _ (.call _ ?_)
  dsimp only
  rw [if_neg (by decide +kernel)]
  unfold LimitThenMarketExecutor.settle
  rw [if_neg (by decide +kernel), if_neg (by decide +kernel), if_neg (by decide +kernel),
    if_neg (by decide +kernel)]
  exact .call _ (.call _ (.done _))

theorem executed_limitThenMarketRun :
    List.Forall₂ Executed (placements limitThenMarketRun) [(4, 100), (6, 105)] := by
  refine .cons ?_ (.cons ?_ .nil)
  · refine ⟨by decide, fun _ => by decide +kernel, fun _ => by decide, ?_, ?_, ?_, ?_⟩
    · rintro result ⟨⟩
      decide
    · decide +kernel
    · decide +kernel
    · rintro ⟨text, htext⟩
      cases htext
  · refine ⟨by decide, fun _ => by decide +kernel, fun _ => by decide, ?_, ?_, ?_, ?_⟩
    · rintro result ⟨⟩
      decide
    · decide +kernel
    · decide +kernel
    · rintro ⟨text, htext⟩
      cases htext

end QuantDinger.Analysis
