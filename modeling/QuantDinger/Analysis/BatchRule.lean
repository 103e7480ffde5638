import QuantDinger.Analysis.RunRule

/-!
# The invariant rule of a batch

`execute` marks the book, works the orders one by one against the equity of the batch, and
marks the book again. `execute_rule` gives what holds after it from what one order keeps,
with everything the broker knows of the order: the bar, the open price and the decision.
-/

namespace QuantDinger.Analysis

open QuantDinger.Library QuantDinger.Model

variable {data : MarketData} {config : BrokerConfig} {ts : Time}

/-! ## Marking keeps the data -/

theorem closeQuote_post (position : Position) :
    Post (Serves data) (Broker.closeQuote ts position) (fun _ => True) := by
  refine Post.bind (post_of_reads (Portal.closeAt_reads position.symbol ts)) fun close _ => ?_
  cases close with
  | some price => exact Post.pure trivial
  | none => exact post_of_reads (Portal.current_reads _ _ _ _)

theorem fillQuote_post (overrides : Dict PositionKey Amount) (key : PositionKey)
    (position : Position) :
    Post (Serves data) (Broker.fillQuote ts overrides key position) (fun _ => True) := by
  unfold Broker.fillQuote
  dsimp only
  split
  · exact Post.pure trivial
  · refine Post.bind (post_of_reads (Portal.openAt_reads position.symbol ts)) fun price _ => ?_
    cases price with
    | some price => exact Post.pure trivial
    | none => exact post_of_reads (Portal.current_reads _ _ _ _)

theorem markWith_post {quote : PositionKey → Position → PortalM Amount} {broker : Broker}
    {Q : PositionKey → Position → Amount → Prop}
    (hquote : ∀ e ∈ broker.positions.entries, Post (Serves data) (quote e.1 e.2) (Q e.1 e.2)) :
    Post (Serves data) (broker.markWith quote) (fun b => ∃ positions : Dict PositionKey Position,
      List.Forall₂ (fun e e' => e'.1 = e.1 ∧ ∃ price, Q e.1 e.2 price ∧
        e'.2 = { e.2 with lastPrice := Broker.markPrice price e.2 })
        broker.positions.entries positions.entries ∧
      b = broker.withAccount (broker.toAccount.remark positions)) := by
  refine Post.bind (Post.mapValuesM (Q := fun key position position' => ∃ price,
    Q key position price ∧ position' = { position with
      lastPrice := Broker.markPrice price position }) fun e he => ?_) fun positions hp => ?_
  · exact Post.bind (hquote e he) fun price hprice => Post.pure ⟨price, hprice, rfl⟩
  · exact Post.pure ⟨positions, hp, rfl⟩

theorem markToMarketBeforeFill_post (overrides : Dict PositionKey Amount) (broker : Broker) :
    Post (Serves data) (broker.markToMarketBeforeFill ts overrides)
      (fun b => ∃ positions, b = broker.withAccount (broker.toAccount.remark positions)) :=
  (markWith_post (Q := fun _ _ _ => True) fun e _ => fillQuote_post overrides e.1 e.2).mono
    fun _ ⟨positions, _, h⟩ => ⟨positions, h⟩

theorem markToMarket_post (broker : Broker) :
    Post (Serves data) (broker.markToMarket ts)
      (fun b => ∃ positions, b = broker.withAccount (broker.toAccount.remark positions)) :=
  (markWith_post (Q := fun _ _ _ => True) fun e _ => closeQuote_post e.2).mono
    fun _ ⟨positions, _, h⟩ => ⟨positions, h⟩

/-! ## The orders of a batch -/

/-- The open price of an order in a batch: an override, else the open of the bar. -/
def openPriceOf (overrides : Dict PositionKey Amount) (order : OrderIntent) (bar : Option Bar) :
    Option Amount :=
  overridePrice overrides order.key <|> bar.map Bar.openPrice

def Batch.next (config : BrokerConfig) (ts : Time) (overrides : Dict PositionKey Amount)
    (equity : Amount) (batch : Batch) (order : OrderIntent) (bar : Option Bar)
    (outcome : Outcome) : Batch :=
  let worked := batch.broker.work config ts equity order bar (openPriceOf overrides order bar)
    outcome
  { broker := worked.1
    deferred := batch.deferred ++ worked.2.toList
    marks := Broker.marksAfter batch.marks order outcome }

theorem executeOrder_post (overrides : Dict PositionKey Amount) (equity : Amount) (batch : Batch)
    (order : OrderIntent) :
    Post (Serves data) (Broker.executeOrder config ts overrides equity batch order)
      (fun b => ∃ key outcome, planOrder config batch.broker.toAccount order (data.rowAt key ts)
          (openPriceOf overrides order (data.rowAt key ts)) equity = .ok outcome ∧
        b = Batch.next config ts overrides equity batch order (data.rowAt key ts) outcome) := by
  refine Post.bind (barAt_post order.symbol ts) fun bar hbar => ?_
  obtain ⟨key, rfl⟩ := hbar
  refine Post.bind (Q := fun outcome => planOrder config batch.broker.toAccount order
    (data.rowAt key ts) (openPriceOf overrides order (data.rowAt key ts)) equity =
      .ok outcome) ?_ fun outcome houtcome => Post.pure ⟨key, outcome, houtcome, rfl⟩
  intro portal hportal
  unfold openPriceOf
  cases hr : planOrder config batch.broker.toAccount order (data.rowAt key ts)
    (overridePrice overrides order.key <|> (data.rowAt key ts).map Bar.openPrice) equity with
  | ok outcome => exact ⟨hportal, rfl⟩
  | error e => exact hportal

theorem execute_rule {broker : Broker} {overrides : Dict PositionKey Amount}
    {orders : List OrderIntent} {P : Amount → List OrderIntent → Batch → Prop}
    {Q : List OrderIntent × Broker → Prop}
    (start : Post (Serves data) (broker.markToMarketBeforeFill ts overrides)
      (fun marked => P marked.totalValue orders ⟨marked, [], overrides⟩))
    (work : ∀ equity order rest batch key outcome, P equity (order :: rest) batch →
      planOrder config batch.broker.toAccount order (data.rowAt key ts)
        (openPriceOf overrides order (data.rowAt key ts)) equity = .ok outcome →
      P equity rest (Batch.next config ts overrides equity batch order (data.rowAt key ts) outcome))
    (finish : ∀ equity batch, P equity [] batch →
      Post (Serves data) (batch.broker.markToMarketBeforeFill ts batch.marks)
        (fun b => Q (batch.deferred, b)))
    (empty : orders = [] → Q ([], broker)) :
    Post (Serves data) (broker.execute config ts overrides orders) Q := by
  refine Post.ite (fun h => Post.pure (empty h)) fun _ => ?_
  refine Post.bind start fun marked hmarked => ?_
  refine Post.bind (Post.foldlM_rest (J := P marked.totalValue) ?_ hmarked) fun batch hbatch => ?_
  · intro batch order rest hP
    refine (executeOrder_post overrides marked.totalValue batch order).mono ?_
    rintro next ⟨key, outcome, hplan, rfl⟩
    exact work _ _ _ _ _ _ hP hplan
  · exact Post.bind (finish _ _ hbatch) fun b hb => Post.pure hb

/-! ## The other passes -/

theorem checkProtection_post (pass : Broker × List Broker.Exit)
    (entry : PositionKey × ProtectionState) :
    Post (Serves data) (Broker.checkProtection ts pass entry)
      (fun next => ∃ protections, next.1 = { pass.1 with protections := protections }) := by
  refine Post.bind (barAt_post _ ts) fun bar _ => ?_
  dsimp only
  split
  · exact Post.pure ⟨_, rfl⟩
  · exact Post.pure ⟨pass.1.protections, rfl⟩
  · exact Post.pure ⟨_, rfl⟩

end QuantDinger.Analysis
