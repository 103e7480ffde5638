import Mathlib.Logic.Relation
import QuantDinger.Analysis.BatchRule

/-!
# What the broker can do

Everything the trading passes of a bar do to the books is one of four steps: mark the
positions, work an order, write off a deficit, or touch something that is not in the
books. `execute`, `process_protections`, `liquidate_if_insolvent` and `record_equity`
are sequences of such steps, and so is every run (`steps_of_reaches`). The invariants of
the account are proved from the steps alone.
-/

namespace QuantDinger.Analysis

open QuantDinger.Library QuantDinger.Model

/-- A position marked again: only its last price changes, and a positive price is not
lost. -/
def MarkedAs (old new : Position) : Prop :=
  ∃ price, (0 < old.lastPrice → 0 < price) ∧ new = { old with lastPrice := price }

def Remarked (old new : Dict PositionKey Position) : Prop :=
  List.Forall₂ (fun e e' => e'.1 = e.1 ∧ MarkedAs e.2 e'.2) old.entries new.entries

/-- The books are the same up to the reported equity. -/
structure SameBooks (broker broker' : Broker) : Prop where
  account : broker'.toAccount = { broker.toAccount with totalValue := broker'.totalValue }
  history : broker'.history = broker.history

/-- One step of the broker on its books. -/
inductive Step (config : BrokerConfig) : Broker → Broker → Prop
  | mark {broker : Broker} {positions : Dict PositionKey Position} :
      Remarked broker.positions positions →
      Step config broker (broker.withAccount (broker.toAccount.remark positions))
  | work {broker : Broker} {ts : Time} {equity : Amount} {order : OrderIntent}
      {bar : Option Bar} {openPrice : Option Amount} {outcome : Outcome} :
      planOrder config broker.toAccount order bar openPrice equity = .ok outcome →
      (∀ price ∈ openPrice, 0 < price) → (∀ s ∈ order.signalTime, s ≤ ts) →
      Step config broker (broker.work config ts equity order bar openPrice outcome).1
  | absorb {broker : Broker} :
      Step config broker (broker.withAccount broker.toAccount.absorbDeficit)
  | other {broker broker' : Broker} : SameBooks broker broker' → Step config broker broker'

abbrev Steps (config : BrokerConfig) : Broker → Broker → Prop :=
  Relation.ReflTransGen (Step config)

/-! ## Prices stay positive -/

section Prices

variable {data : MarketData}

theorem mem_rows_of_rowAt {key : Symbol} {ts : Time} {bar : Bar}
    (h : data.rowAt key ts = some bar) : bar ∈ data.rows key data.drivingFrequency := by
  unfold MarketData.rowAt MarketData.frames at h
  unfold MarketData.rows MarketData.frame?
  cases hd : data.framesByFrequency.get? data.drivingFrequency with
  | none => rw [hd] at h; simp at h
  | some frames =>
    rw [hd] at h
    cases hf : frames.get? key with
    | none => rw [Option.getD_some, hf] at h; simp at h
    | some frame =>
      rw [Option.getD_some, hf] at h
      simpa [hf] using List.mem_of_find?_eq_some h

/-- A bar of positive data has positive prices. -/
def PositiveBar (bar : Bar) : Prop :=
  0 < bar.openPrice ∧ 0 < bar.high ∧ 0 < bar.low ∧ 0 < bar.closePrice

variable (hdata : data.Positive)

include hdata

theorem barAt_positive (symbol : String) (ts : Time) :
    Post (Serves data) (Portal.barAt symbol ts) (fun bar => ∀ row ∈ bar, PositiveBar row) := by
  refine (barAt_post symbol ts).mono ?_
  rintro bar ⟨key, rfl⟩ row hrow
  exact hdata _ _ _ (mem_rows_of_rowAt hrow)

theorem openAt_positive (symbol : String) (ts : Time) :
    Post (Serves data) (Portal.openAt symbol ts) (fun price => ∀ p ∈ price, 0 < p) :=
  Post.bind (barAt_positive hdata symbol ts) fun bar _ => Post.pure fun p hp => by
    simpa using (Option.mem_filter_iff.mp hp).2

theorem closeAt_positive (symbol : String) (ts : Time) :
    Post (Serves data) (Portal.closeAt symbol ts) (fun price => ∀ p ∈ price, 0 < p) :=
  Post.bind (barAt_positive hdata symbol ts) fun bar _ => Post.pure fun p hp => by
    simpa using (Option.mem_filter_iff.mp hp).2

theorem current_close_positive (symbol : String) (fallback : Amount) (frequency : Option String) :
    Post (Serves data) (Portal.current symbol "close" fallback frequency)
      (fun price => 0 < fallback → 0 < price) := by
  refine (Portal.current_reads symbol "close" fallback frequency).post
    (I := fun v => v.data = data) ?_
  intro v price hv hprice hfallback
  unfold Interface.View.current at hprice
  cases hk : v.resolve symbol (some (v.normalize frequency)) with
  | error e => rw [hk] at hprice; cases hprice
  | ok key =>
    rw [hk] at hprice
    cases hprice
    cases hl : (v.visibleRows key (v.normalize frequency)).getLast? with
    | none => simpa using hfallback
    | some row =>
      have hmem := List.mem_of_getLast? hl
      have hrow : row ∈ data.rows key (v.normalize frequency) := by
        unfold Interface.View.visibleRows at hmem
        split at hmem
        · simp at hmem
        · rw [← hv]
          exact List.mem_of_mem_filter hmem
      exact (hdata _ _ _ hrow).2.2.2

omit hdata in
theorem markPrice_pos {price : Amount} {position : Position}
    (hprice : 0 < position.lastPrice → 0 < price) (h : 0 < position.lastPrice) :
    0 < Broker.markPrice price position := by
  have hp := hprice h
  simp [Broker.markPrice, orElse, hp.ne', hp]

theorem closeQuote_positive (ts : Time) (position : Position) :
    Post (Serves data) (Broker.closeQuote ts position)
      (fun price => 0 < position.lastPrice → 0 < price) := by
  refine Post.bind (closeAt_positive hdata position.symbol ts) fun close hclose => ?_
  cases close with
  | some price => exact Post.pure fun _ => hclose price rfl
  | none => exact current_close_positive hdata _ _ _

theorem fillQuote_positive (ts : Time) (overrides : Dict PositionKey Amount)
    (key : PositionKey) (position : Position) :
    Post (Serves data) (Broker.fillQuote ts overrides key position)
      (fun price => 0 < position.lastPrice → 0 < price) := by
  unfold Broker.fillQuote
  dsimp only
  split
  · rename_i price hgiven
    exact Post.pure fun _ => by simpa using (Option.mem_filter_iff.mp hgiven).2
  · refine Post.bind (openAt_positive hdata position.symbol ts) fun price hprice => ?_
    cases price with
    | some price => exact Post.pure fun _ => hprice price rfl
    | none => exact current_close_positive hdata _ _ _

end Prices

/-! ## What an order leaves -/

/-- `next` goes on for `order`: the same order with another value, attempt count and
direction. -/
structure Continues (order next : OrderIntent) : Prop where
  key : next.key = order.key
  signalTime : next.signalTime = order.signalTime
  clientOrderId : next.clientOrderId = order.clientOrderId

theorem settle_next {config : BrokerConfig} {ts : Time} {order next : OrderIntent}
    {broker : Broker} {outcome : Outcome}
    (h : (broker.settle config ts order outcome).2 = some next) : Continues order next := by
  cases outcome with
  | blocked reason =>
    simp only [Broker.settle] at h
    split at h
    · cases h
    · cases h
      exact ⟨rfl, rfl, rfl⟩
  | rejected reason requested => cases h
  | resting requested =>
    cases h
    exact ⟨rfl, rfl, rfl⟩
  | fill plan =>
    simp only [Broker.settle, FillPlan.remainder] at h
    split at h
    · cases h
      exact ⟨rfl, rfl, rfl⟩
    · cases h

/-- The account after an order: only a fill changes it. -/
def accountAfter (config : BrokerConfig) (ts : Time) (order : OrderIntent) (broker : Broker) :
    Outcome → Account
  | .fill plan => broker.toAccount.fill config (ts, broker.orderSequence + 1) ts order plan
  | _ => broker.toAccount

section Work

variable (config : BrokerConfig) (ts : Time) (equity : Amount) (order : OrderIntent)
  (bar : Option Bar) (openPrice : Option Amount) (outcome : Outcome) (broker : Broker)

theorem settle_account :
    ({ broker with orderSequence := broker.orderSequence + 1 }.settle config ts order
      outcome).1.toAccount = accountAfter config ts order broker outcome := by
  cases outcome with
  | fill plan => unfold Broker.settle accountAfter; rfl
  | blocked reason => unfold Broker.settle accountAfter; rfl
  | rejected reason requested => unfold Broker.settle accountAfter; rfl
  | resting requested => unfold Broker.settle accountAfter; rfl

theorem settle_frame :
    ({ broker with orderSequence := broker.orderSequence + 1 }.settle config ts order
      outcome).1.history = broker.history ∧
    ({ broker with orderSequence := broker.orderSequence + 1 }.settle config ts order
      outcome).1.bankrupt = broker.bankrupt := by
  cases outcome with
  | fill plan => unfold Broker.settle; exact ⟨rfl, rfl⟩
  | blocked reason => unfold Broker.settle; exact ⟨rfl, rfl⟩
  | rejected reason requested => unfold Broker.settle; exact ⟨rfl, rfl⟩
  | resting requested => unfold Broker.settle; exact ⟨rfl, rfl⟩

theorem work_account :
    (broker.work config ts equity order bar openPrice outcome).1.toAccount =
      accountAfter config ts order broker outcome :=
  settle_account config ts order outcome broker

theorem work_bankrupt :
    (broker.work config ts equity order bar openPrice outcome).1.bankrupt = broker.bankrupt :=
  (settle_frame config ts order outcome broker).2

theorem work_history :
    (broker.work config ts equity order bar openPrice outcome).1.history =
      broker.history ++ [⟨order, bar, openPrice, equity, broker.toAccount, outcome,
        accountAfter config ts order broker outcome⟩] := by
  unfold Broker.work
  dsimp only
  rw [(settle_frame config ts order outcome broker).1, settle_account]

end Work

theorem fillPrice_pos {config : BrokerConfig} (hslip : config.slippage < 1) {order : OrderIntent}
    {bar : Option Bar} {openPrice delta price : Amount} {reference : FillReference}
    (hopen : 0 < openPrice)
    (h : fillPrice config order bar openPrice delta = .fill price reference) : 0 < price := by
  have hup : 0 < 1 + config.slippage := by linarith [config.slippage_nonneg]
  have hdown : 0 < 1 - config.slippage := by linarith
  unfold fillPrice at h
  split at h
  · split at h
    · cases h
    · rename_i hlimit
      rw [not_le] at hlimit
      split at h
      · cases h; exact hopen
      · split at h
        · cases h; exact hlimit
        · split at h
          · cases h; exact hopen
          · split at h
            · cases h; exact hlimit
            · cases h
  · cases h
    split
    · exact mul_pos hopen hup
    · exact mul_pos hopen hdown

/-- What a fill went through: the rounded request, the liquidity cap and what the account
can trade. -/
structure Filled (config : BrokerConfig) (account : Account) (order : OrderIntent)
    (bar : Option Bar) (equity : Amount) (s : Sizing) (plan : FillPlan) : Prop where
  sizing : plan.sizing = s
  lot : plan.lot = config.lot order.symbol
  cap : plan.liquidityCap = orderCap order bar plan.lot
  rounded : (s.roundRequest plan.fillPrice plan.lot).belowLot plan.lot = false
  exact : plan.exactClose = (s.capLiquidity (s.roundRequest plan.fillPrice plan.lot)
    plan.liquidityCap plan.fillPrice plan.lot).exactClose
  feasible : (plan.delta, plan.constraintReason) = feasibleTrade config account order s.current
    (s.capLiquidity (s.roundRequest plan.fillPrice plan.lot) plan.liquidityCap plan.fillPrice
      plan.lot) plan.fillPrice equity plan.lot
  traded : (⟨plan.delta, plan.exactClose⟩ : Trade).belowLot plan.lot = false

theorem planFill_fill {config : BrokerConfig} {account : Account} {order : OrderIntent}
    {bar : Option Bar} {equity : Amount} {s : Sizing} {price : Amount}
    {reference : FillReference} {plan : FillPlan}
    (h : planFill config account order bar equity s price reference = .fill plan) :
    plan.fillPrice = price ∧ plan.fillReference = reference ∧
      Filled config account order bar equity s plan := by
  unfold planFill at h
  dsimp only at h
  split at h
  · cases h
  · rename_i hrounded
    split at h
    · cases h
    · rename_i htraded
      split at h
      · cases h
      · cases h
        exact ⟨rfl, rfl, rfl, rfl, rfl, by simpa using hrounded, rfl, rfl, by simpa using htraded⟩

theorem planOrder_fill {config : BrokerConfig} {account : Account} {order : OrderIntent}
    {bar : Option Bar} {openPrice : Option Amount} {equity : Amount} {plan : FillPlan}
    (h : planOrder config account order bar openPrice equity = .ok (.fill plan)) :
    ∃ price, openPrice = some price ∧
      (sizeOrder config account order price equity).alreadyMet order = false ∧
      fillPrice config order bar price
        (sizeOrder config account order price equity).requestedDelta =
          .fill plan.fillPrice plan.fillReference ∧
      Filled config account order bar equity (sizeOrder config account order price equity)
        plan := by
  unfold planOrder at h
  split at h
  · cases h
  · split at h
    · rename_i price _
      rw [Except.ok.injEq] at h
      unfold decideOrder at h
      dsimp only at h
      split at h
      · cases h
      · rename_i hmet
        split at h
        · cases h
        · cases h
        · rename_i hfill
          obtain ⟨hp, hr, hfilled⟩ := planFill_fill h
          subst hp hr
          exact ⟨price, rfl, by simpa using hmet, hfill, hfilled⟩
    · cases h

theorem planOrder_fillPrice_pos {config : BrokerConfig} (hslip : config.slippage < 1)
    {account : Account} {order : OrderIntent} {bar : Option Bar} {openPrice : Option Amount}
    {equity : Amount} {plan : FillPlan} (hopen : ∀ price ∈ openPrice, 0 < price)
    (h : planOrder config account order bar openPrice equity = .ok (.fill plan)) :
    0 < plan.fillPrice := by
  obtain ⟨price, hprice, -, hfill, -⟩ := planOrder_fill h
  exact fillPrice_pos hslip (hopen price hprice) hfill

/-! ## The passes are sequences of steps -/

def PositivePrices (overrides : Dict PositionKey Amount) : Prop :=
  ∀ key price, overrides.get? key = some price → 0 < price

theorem overridePrice_pos {overrides : Dict PositionKey Amount} (h : PositivePrices overrides)
    {key : PositionKey} {price : Amount} (hp : overridePrice overrides key = some price) :
    0 < price := by
  unfold overridePrice at hp
  cases hk : overrides.get? key with
  | some p =>
    rw [hk] at hp
    cases hp
    exact h _ _ hk
  | none =>
    rw [hk] at hp
    exact h _ _ hp

section Passes

variable {data : MarketData} (hdata : data.Positive) {config : BrokerConfig}

theorem markWith_steps {quote : PositionKey → Position → PortalM Amount} {broker : Broker}
    (hquote : ∀ e ∈ broker.positions.entries, Post (Serves data) (quote e.1 e.2)
      (fun price => 0 < e.2.lastPrice → 0 < price)) :
    Post (Serves data) (broker.markWith quote) (Steps config broker) := by
  refine (markWith_post (Q := fun _ position price => 0 < position.lastPrice → 0 < price)
    hquote).mono ?_
  rintro b ⟨positions, hp, rfl⟩
  refine Relation.ReflTransGen.single (Step.mark (hp.imp ?_))
  rintro e e' ⟨hkey, price, hprice, he⟩
  exact ⟨hkey, _, markPrice_pos hprice, he⟩

include hdata

variable (config) in
theorem markToMarket_steps (ts : Time) (broker : Broker) :
    Post (Serves data) (broker.markToMarket ts) (Steps config broker) :=
  markWith_steps fun e _ => closeQuote_positive hdata ts e.2

variable (config) in
theorem markToMarketBeforeFill_steps (ts : Time) (overrides : Dict PositionKey Amount)
    (broker : Broker) :
    Post (Serves data) (broker.markToMarketBeforeFill ts overrides) (Steps config broker) :=
  markWith_steps fun e _ => fillQuote_positive hdata ts overrides e.1 e.2

theorem openPriceOf_pos {overrides : Dict PositionKey Amount} (hover : PositivePrices overrides)
    (order : OrderIntent) (key : Symbol) (ts : Time) :
    ∀ price ∈ openPriceOf overrides order (data.rowAt key ts), 0 < price := by
  intro price hprice
  unfold openPriceOf at hprice
  cases ho : overridePrice overrides order.key with
  | some p =>
    rw [ho] at hprice
    cases hprice
    exact overridePrice_pos hover ho
  | none =>
    rw [ho] at hprice
    obtain ⟨row, hrow, rfl⟩ := Option.mem_map.mp hprice
    exact (hdata _ _ _ (mem_rows_of_rowAt hrow)).1

theorem execute_steps {ts : Time} {overrides : Dict PositionKey Amount}
    (hover : PositivePrices overrides) {orders : List OrderIntent}
    (hsignal : ∀ order ∈ orders, ∀ s ∈ order.signalTime, s ≤ ts) (broker : Broker) :
    Post (Serves data) (broker.execute config ts overrides orders)
      (fun r => Steps config broker r.2 ∧ ∀ o ∈ r.1, ∃ order ∈ orders, Continues order o) := by
  refine execute_rule (P := fun _ rest batch => Steps config broker batch.broker ∧
    (∀ o ∈ batch.deferred, ∃ order ∈ orders, Continues order o) ∧ ∀ o ∈ rest, o ∈ orders)
    ?_ ?_ ?_ fun _ => ⟨Relation.ReflTransGen.refl, by simp⟩
  · exact (markToMarketBeforeFill_steps hdata config ts overrides broker).mono
      fun marked hm => ⟨hm, by simp, fun o ho => ho⟩
  · rintro equity order rest batch key outcome ⟨hsteps, hdeferred, hrest⟩ hplan
    have horder := hrest order (by simp)
    refine ⟨?_, ?_, fun o ho => hrest o (List.mem_cons_of_mem _ ho)⟩
    · exact hsteps.tail (Step.work hplan (openPriceOf_pos hdata hover order key ts)
        (hsignal order horder))
    · intro o ho
      rcases List.mem_append.mp ho with ho | ho
      · exact hdeferred o ho
      · exact ⟨order, horder, settle_next (Option.mem_toList.mp ho)⟩
  · rintro equity batch ⟨hsteps, hdeferred, -⟩
    exact (markToMarketBeforeFill_steps hdata config ts batch.marks batch.broker).mono
      fun closed hc => ⟨hsteps.trans hc, hdeferred⟩

omit hdata in
theorem firstMin_mem {α : Type} {key : α → Amount} {l : List α} {a : α}
    (h : ProtectionEngine.firstMin key l = some a) : a ∈ l := by
  induction l with
  | nil => cases h
  | cons b l ih =>
    unfold ProtectionEngine.firstMin at h
    cases hl : ProtectionEngine.firstMin key l with
    | none => rw [hl] at h; cases h; simp
    | some c =>
      rw [hl] at h
      dsimp only at h
      split at h
      · cases h
        exact List.mem_cons_of_mem _ (ih hl)
      · cases h; simp

omit hdata in
theorem stopTouched_pos {side : Side} {trigger openPrice high low price : Amount}
    (ho : 0 < openPrice) (hl : 0 < low)
    (h : ProtectionEngine.stopTouched side trigger openPrice high low = some price) :
    0 < price := by
  unfold ProtectionEngine.stopTouched at h
  cases side with
  | long =>
    dsimp only at h
    split at h
    · cases h
      split
      · exact ho
      · exact lt_of_lt_of_le hl ‹_›
    · cases h
  | short =>
    dsimp only at h
    split at h
    · cases h
      split
      · exact ho
      · exact ho.trans (not_le.mp ‹_›)
    · cases h

omit hdata in
theorem targetTouched_pos {side : Side} {trigger openPrice high low price : Amount}
    (ho : 0 < openPrice) (hl : 0 < low)
    (h : ProtectionEngine.targetTouched side trigger openPrice high low = some price) :
    0 < price := by
  unfold ProtectionEngine.targetTouched at h
  cases side with
  | long =>
    dsimp only at h
    split at h
    · cases h
      split
      · exact ho
      · exact ho.trans (not_le.mp ‹_›)
    · cases h
  | short =>
    dsimp only at h
    split at h
    · cases h
      split
      · exact ho
      · exact lt_of_lt_of_le hl ‹_›
    · cases h

omit hdata in
theorem evaluateBar_price_pos {state : ProtectionState} {ts : Time} {bar : Bar}
    (hbar : PositiveBar bar) {decision : ProtectionDecision}
    (h : (ProtectionEngine.evaluateBar .conservative state ts bar.openPrice bar.high bar.low).1 =
      some decision) : 0 < decision.price := by
  unfold ProtectionEngine.evaluateBar at h
  dsimp only at h
  have hopen := hbar.1
  have hlow : 0 < min bar.openPrice bar.low := lt_min hbar.1 hbar.2.2.1
  split at h
  · rename_i d hd
    cases h
    have hmem := firstMin_mem hd
    simp only [ProtectionEngine.barCandidates, List.mem_filterMap, List.mem_cons, id,
      List.not_mem_nil, or_false] at hmem
    obtain ⟨candidate, hcandidate, hd⟩ := hmem
    subst hd
    rcases hcandidate with hstop | htrail | htarget | hlimit
    · split at hstop
      · obtain ⟨price, hprice, rfl⟩ := Option.map_eq_some_iff.mp hstop.symm
        exact stopTouched_pos hopen hlow hprice
      · cases hstop
    · obtain ⟨trigger, -, htrail⟩ := Option.bind_eq_some_iff.mp htrail.symm
      obtain ⟨price, hprice, rfl⟩ := Option.map_eq_some_iff.mp htrail
      exact stopTouched_pos hopen hlow hprice
    · split at htarget
      · obtain ⟨price, hprice, rfl⟩ := Option.map_eq_some_iff.mp htarget.symm
        exact targetTouched_pos hopen hlow hprice
      · cases htarget
    · split at hlimit
      · cases hlimit
        exact hopen
      · cases hlimit
  · cases h

theorem checkProtection_steps {ts : Time} {broker : Broker} {pass : Broker × List Broker.Exit}
    (entry : PositionKey × ProtectionState) (hpass : Steps config broker pass.1 ∧
      ∀ exit ∈ pass.2, 0 < exit.decision.price) :
    Post (Serves data) (Broker.checkProtection ts pass entry)
      (fun next => Steps config broker next.1 ∧ ∀ exit ∈ next.2, 0 < exit.decision.price) := by
  refine Post.bind (barAt_positive hdata _ ts) fun bar hbar => ?_
  dsimp only
  split
  · exact Post.pure ⟨hpass.1.tail (Step.other ⟨rfl, rfl⟩), hpass.2⟩
  · exact Post.pure hpass
  · rename_i position bar _
    refine Post.pure ⟨hpass.1.tail (Step.other ⟨rfl, rfl⟩), fun exit hexit => ?_⟩
    rcases List.mem_append.mp hexit with hexit | hexit
    · exact hpass.2 exit hexit
    · obtain ⟨decision, hdecision, rfl⟩ :=
        Option.map_eq_some_iff.mp (Option.mem_toList.mp hexit)
      exact evaluateBar_price_pos (hbar bar rfl) hdecision

theorem processProtections_steps (ts : Time) (broker : Broker) :
    Post (Serves data) (broker.processProtections config ts)
      (fun r => Steps config broker r.2) := by
  refine Post.bind (Q := fun pass => Steps config broker pass.1 ∧
    ∀ exit ∈ pass.2, 0 < exit.decision.price) ?_ fun pass hpass => ?_
  · exact Post.foldlM (fun pass entry _ hpass => checkProtection_steps hdata entry hpass)
      ⟨Relation.ReflTransGen.refl, by simp⟩
  refine Post.ite (fun _ => Post.pure hpass.1) fun _ => ?_
  have hover : PositivePrices
      (Dict.ofPairs (pass.2.map fun exit => (exit.key, exit.decision.price))) := by
    intro key price hprice
    obtain ⟨exit, hexit, he⟩ := List.mem_map.mp (Dict.mem_of_get?_ofPairs hprice)
    cases he
    exact hpass.2 exit hexit
  have hsignal : ∀ order ∈ pass.2.map (fun exit => exit.order ts),
      ∀ s ∈ order.signalTime, s ≤ ts := by
    intro order horder s hs
    obtain ⟨exit, -, rfl⟩ := List.mem_map.mp horder
    cases hs
    exact le_rfl
  refine Post.bind (execute_steps hdata hover hsignal pass.1) fun result hresult => ?_
  exact Post.pure ((hpass.1.trans hresult.1).tail (Step.other ⟨rfl, rfl⟩))

theorem liquidationOrder_post {ts : Time} {batch : List OrderIntent × Dict PositionKey Amount}
    (entry : PositionKey × Position) (hbatch : PositivePrices batch.2 ∧
      ∀ order ∈ batch.1, ∀ s ∈ order.signalTime, s ≤ ts) :
    Post (Serves data) (Broker.liquidationOrder ts batch entry)
      (fun next => PositivePrices next.2 ∧ ∀ order ∈ next.1, ∀ s ∈ order.signalTime, s ≤ ts) := by
  refine Post.bind (closeAt_positive hdata _ ts) fun close _ => ?_
  refine Post.ite (fun _ => Post.pure hbatch) fun hprice => Post.pure ⟨?_, ?_⟩
  · intro key price hp
    rw [Dict.get?_set] at hp
    split at hp
    · cases hp
      exact not_le.mp hprice
    · exact hbatch.1 key price hp
  · intro order horder s hs
    rcases List.mem_append.mp horder with horder | horder
    · exact hbatch.2 order horder s hs
    · rw [List.mem_singleton] at horder
      subst horder
      cases hs
      exact le_rfl

variable (config) in
theorem closeOut_steps (ts : Time) (equity : Amount) (count : ℕ) (broker : Broker) :
    Post (Serves data) (broker.closeOut ts equity count) (Steps config broker) := by
  refine Post.bind (markToMarket_steps hdata config ts _) fun marked hm => Post.pure ?_
  exact (Relation.ReflTransGen.head Step.absorb hm).tail (Step.other ⟨rfl, rfl⟩)

theorem liquidateIfInsolvent_steps (ts : Time) (broker : Broker) :
    Post (Serves data) (broker.liquidateIfInsolvent config ts)
      (fun r => Steps config broker r.2) := by
  refine Post.ite (fun _ => Post.pure Relation.ReflTransGen.refl) fun _ => ?_
  refine Post.bind (markToMarket_steps hdata config ts broker) fun marked hm => ?_
  refine Post.ite (fun _ => Post.pure hm) fun _ => ?_
  refine Post.bind (Post.foldlM (fun batch entry _ hbatch =>
    liquidationOrder_post hdata entry hbatch) ⟨fun _ _ h => by simp at h, by simp⟩)
    fun forced hforced => ?_
  refine Post.bind (execute_steps hdata hforced.1 hforced.2 marked) fun result hresult => ?_
  refine Post.bind (closeOut_steps hdata config ts _ _ result.2) fun closed hclosed => ?_
  exact Post.pure ((hm.trans hresult.1).trans hclosed)

variable (config) in
theorem recordEquity_steps (ts : Time) (broker : Broker) :
    Post (Serves data) (broker.recordEquity ts) (Steps config broker) :=
  Post.bind (markToMarket_steps hdata config ts broker) fun _ hm =>
    Post.pure (hm.tail (Step.other ⟨rfl, rfl⟩))

end Passes

/-! ## Every run is a sequence of steps -/

/-- The orders of a run that wait to be executed. -/
def waiting (run : Run) : List OrderIntent := run.pending ++ run.opening ++ run.context.orders

/-- The steps a run has made so far, and no order or clock from the future. -/
structure Progress (config : BrokerConfig) (start : Broker) (t : Time) (run : Run) : Prop where
  steps : Steps config start run.broker
  signals : ∀ order ∈ waiting run, ∀ s ∈ order.signalTime, s ≤ t
  clock : ∀ s ∈ run.context.currentDt, s ≤ t

theorem orderOf_ok {context : Context} {key : Symbol} {kind : OrderKind} {value : Argument}
    {options : OrderOptions} {order : OrderIntent}
    (h : context.orderOf key kind value options = .ok order) :
    order.signalTime = context.currentDt ∧
      order.clientOrderId = context.orderReference options ∧
      order.protection = (ProtectionSpec.fromValue options.protection options.inlineProtection <|>
        context.defaultProtection) := by
  unfold Context.orderOf at h
  cases value with
  | invalid => cases h
  | number number =>
    dsimp only at h
    cases he : options.execution with
    | error e => rw [he] at h; cases h
    | ok execution =>
      rw [he] at h
      cases hp : options.prices execution.1 execution.2 with
      | error e => simp only [bind, Except.bind, hp] at h; cases h
      | ok prices =>
        simp only [bind, Except.bind, hp] at h
        cases h
        exact ⟨rfl, rfl, rfl⟩

/-! The orders that wait after each step of the runner. -/

theorem mem_mergePending {current incoming : List OrderIntent} {order : OrderIntent}
    (h : order ∈ mergePending current incoming) : order ∈ current ∨ order ∈ incoming := by
  unfold mergePending at h
  induction incoming generalizing current with
  | nil => exact Or.inl h
  | cons next incoming ih =>
    rw [List.foldl_cons] at h
    rcases ih h with h | h
    · rcases List.mem_append.mp h with h | h
      · split at h
        · exact Or.inl (List.mem_of_mem_filter h)
        · exact Or.inl h
      · exact Or.inr (by simp_all)
    · exact Or.inr (List.mem_cons_of_mem _ h)

theorem mem_waiting {run : Run} {order : OrderIntent} :
    order ∈ waiting run ↔ order ∈ run.pending ∨ order ∈ run.opening ∨
      order ∈ run.context.orders := by
  simp [waiting]

theorem cancelOrder_orders {context : Context} {reference : String} {order : OrderIntent}
    (h : order ∈ (context.cancelOrder reference).2.orders) : order ∈ context.orders := by
  unfold Context.cancelOrder at h
  dsimp only at h
  split at h
  · exact h
  · split at h
    · exact h
    · exact List.mem_of_mem_filter h

theorem cancelOrder_frame (run : Run) (reference : String) :
    ∃ trace, (run.cancelOrder reference).2 =
      { run with context := (run.context.cancelOrder reference).2, trace := trace } :=
  ⟨_, rfl⟩

theorem cancelOrder_currentDt (context : Context) (reference : String) :
    (context.cancelOrder reference).2.currentDt = context.currentDt := by
  unfold Context.cancelOrder
  dsimp only
  split
  · rfl
  · split <;> rfl

theorem removeCancelledOrders_pending {run : Run} {order : OrderIntent}
    (h : order ∈ run.removeCancelledOrders.pending) : order ∈ run.pending := by
  unfold Run.removeCancelledOrders at h
  dsimp only at h
  split at h
  · exact h
  · exact List.mem_of_mem_filter h

@[simp] theorem removeCancelledOrders_orders (run : Run) :
    run.removeCancelledOrders.context.orders = run.context.orders := by
  unfold Run.removeCancelledOrders
  dsimp only
  split <;> rfl

@[simp] theorem removeCancelledOrders_currentDt (run : Run) :
    run.removeCancelledOrders.context.currentDt = run.context.currentDt := by
  unfold Run.removeCancelledOrders
  dsimp only
  split <;> rfl

@[simp] theorem removeCancelledOrders_trace (run : Run) :
    run.removeCancelledOrders.trace = run.trace := by
  unfold Run.removeCancelledOrders
  dsimp only
  split <;> rfl

theorem removeCancelledOrders_books (run : Run) :
    SameBooks run.broker run.removeCancelledOrders.broker := by
  unfold Run.removeCancelledOrders
  dsimp only
  split <;> exact ⟨rfl, rfl⟩

section ProgressRule

variable {config : BrokerConfig} {data : MarketData} {start : Broker} {t : Time} {run : Run}

theorem Progress.execute (hdata : data.Positive) (h : Progress config start t run)
    {orders : List OrderIntent} (horders : ∀ order ∈ orders, order ∈ waiting run) :
    Post (Serves data) (run.broker.execute config t Dict.empty orders)
      (fun r => Steps config start r.2 ∧ ∀ o ∈ r.1, ∀ s ∈ o.signalTime, s ≤ t) := by
  have hsignal : ∀ order ∈ orders, ∀ s ∈ order.signalTime, s ≤ t :=
    fun order ho => h.signals order (horders order ho)
  refine (execute_steps hdata (fun _ _ hp => by simp at hp) hsignal run.broker).mono ?_
  rintro r ⟨hsteps, hnext⟩
  refine ⟨h.steps.trans hsteps, fun o ho s hs => ?_⟩
  obtain ⟨order, horder, hc⟩ := hnext o ho
  exact hsignal order horder s (hc.signalTime ▸ hs)

theorem progress_rule (hdata : data.Positive) (start : Broker) :
    RunRule config data (Progress config start) (Progress config start) where
  enter := by
    intro b t run hbt h hi
    exact ⟨h.steps, fun order ho s hs => (h.signals order ho s hs).trans hbt,
      fun s hs => by cases hs; exact le_rfl⟩
  handler h := h
  queue := by
    intro t run key kind value options order h horder
    refine ⟨h.steps, fun o ho s hs => ?_, h.clock⟩
    rcases mem_waiting.mp ho with ho | ho | ho
    · exact h.signals o (mem_waiting.mpr (Or.inl ho)) s hs
    · exact h.signals o (mem_waiting.mpr (Or.inr (Or.inl ho))) s hs
    · rcases List.mem_append.mp ho with ho | ho
      · exact h.signals o (mem_waiting.mpr (Or.inr (Or.inr ho))) s hs
      · rw [List.mem_singleton] at ho
        subst ho
        exact h.clock s ((orderOf_ok horder).1 ▸ hs)
  cancel := by
    intro t run h reference
    obtain ⟨trace, hrun⟩ := cancelOrder_frame run reference
    rw [hrun]
    refine ⟨h.steps, fun o ho s hs => ?_, ?_⟩
    · rcases mem_waiting.mp ho with ho | ho | ho
      · exact h.signals o (mem_waiting.mpr (Or.inl ho)) s hs
      · exact h.signals o (mem_waiting.mpr (Or.inr (Or.inl ho))) s hs
      · exact h.signals o (mem_waiting.mpr (Or.inr (Or.inr (cancelOrder_orders ho)))) s hs
    · exact fun s hs => h.clock s (cancelOrder_currentDt run.context reference ▸ hs)
  desk h _ _ := ⟨h.steps, h.signals, h.clock⟩
  collect := by
    intro t run h
    refine ⟨h.steps.tail (Step.other (removeCancelledOrders_books run)), fun o ho s hs => ?_, ?_⟩
    · rcases mem_waiting.mp ho with ho | ho | ho
      · exact h.signals o (mem_waiting.mpr (Or.inl (removeCancelledOrders_pending ho))) s hs
      · simp only [Run.collectOpening, removeCancelledOrders_opening,
          removeCancelledOrders_orders, List.mem_append] at ho
        exact h.signals o (mem_waiting.mpr (Or.inr ho)) s hs
      · simp at ho
    · exact fun s hs => h.clock s (removeCancelledOrders_currentDt run ▸ hs)
  flush := by
    intro t run h _
    refine ⟨h.steps.tail (Step.other (removeCancelledOrders_books run)), fun o ho s hs => ?_, ?_⟩
    · rcases mem_waiting.mp ho with ho | ho | ho
      · rcases mem_mergePending ho with ho | ho
        · exact h.signals o (mem_waiting.mpr (Or.inl (removeCancelledOrders_pending ho))) s hs
        · rw [removeCancelledOrders_orders] at ho
          exact h.signals o (mem_waiting.mpr (Or.inr (Or.inr ho))) s hs
      · rw [mergeQueue_opening, removeCancelledOrders_opening] at ho
        exact h.signals o (mem_waiting.mpr (Or.inr (Or.inl ho))) s hs
      · simp at ho
    · exact fun s hs => h.clock s (removeCancelledOrders_currentDt run ▸ hs)
  pending := by
    intro t run h hi
    refine Post.ite (fun _ => Post.pure h) fun _ => ?_
    refine Post.bind (h.execute hdata fun o ho => mem_waiting.mpr (Or.inl ho)) fun r hr => ?_
    refine Post.pure ⟨hr.1, fun o ho s hs => ?_, h.clock⟩
    rcases mem_waiting.mp ho with ho | ho
    · exact hr.2 o ho s hs
    · exact h.signals o (mem_waiting.mpr (Or.inr ho)) s hs
  opening := by
    intro t run h ho
    refine Post.ite (fun _ => Post.pure h) fun _ => ?_
    refine Post.bind (h.execute hdata fun o ho => mem_waiting.mpr (Or.inr (Or.inl ho)))
      fun r hr => ?_
    refine Post.pure ⟨hr.1, fun o ho s hs => ?_, h.clock⟩
    rcases mem_waiting.mp ho with ho | ho | ho
    · rcases mem_mergePending ho with ho | ho
      · exact h.signals o (mem_waiting.mpr (Or.inl ho)) s hs
      · exact hr.2 o ho s hs
    · cases ho
    · exact h.signals o (mem_waiting.mpr (Or.inr (Or.inr ho))) s hs
  protect := by
    intro t run h hi
    refine Post.bind (processProtections_steps hdata t run.broker) fun r hr => ?_
    obtain ⟨reasons, hreasons⟩ := foldl_setLastExitReason r.1
      (run.traded r.2).syncOrderStatuses.context
    refine Post.pure ?_
    rw [hreasons]
    exact ⟨h.steps.trans hr, h.signals, h.clock⟩
  liquidate := by
    intro t run h hi
    exact (liquidateIfInsolvent_steps hdata t run.broker).mono fun r hr =>
      ⟨h.steps.trans hr, h.signals, h.clock⟩
  stop := by
    intro t run h _
    refine ⟨h.steps, fun o ho s hs => ?_, h.clock⟩
    rcases mem_waiting.mp ho with ho | ho | ho
    · cases ho
    · exact h.signals o (mem_waiting.mpr (Or.inr (Or.inl ho))) s hs
    · cases ho
  record := by
    intro t run h hi
    exact Post.bind (recordEquity_steps hdata config t run.broker) fun broker hb =>
      Post.pure ⟨h.steps.trans hb, h.signals, h.clock⟩

end ProgressRule

theorem steps_of_reaches {σ : Type} {test : Backtest σ} (hdata : test.data.Positive) {t : Time}
    {run : Run} (h : test.Reaches t run) :
    Steps test.config (Broker.create test.initialCapital) run.broker := by
  obtain ⟨⟨c, -, hp⟩, -⟩ := (progress_rule hdata (Broker.create test.initialCapital)).of_reaches
    (fun t => ⟨Relation.ReflTransGen.refl, by simp [waiting, Run.create],
      by simp [Run.create]⟩) h
  exact hp.steps

end QuantDinger.Analysis
