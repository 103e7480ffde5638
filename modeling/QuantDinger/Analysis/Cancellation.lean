import QuantDinger.Analysis.OrderLog

/-!
# Cancelled orders

After `cancel_order(ref)` has returned true, nothing fills under `ref` unless the strategy
queues the reference again. The cancellation removes the orders of the reference from the
queue at once and from the pending orders when its handler ends; it does not look at the
opening orders, and it compares ids with the stripped reference. Where neither matters
(`Effective`), a cancelled reference is dead (`Dead`) and waits nowhere.
-/

namespace QuantDinger.Analysis

open QuantDinger.Library QuantDinger.Model

/-! ## The trace -/

/-- The reference was cancelled and has not been queued since. -/
def Dead (trace : List Event) (reference : String) : Prop :=
  ∃ head tail queue pending opening,
    trace = head ++ .cancelled reference queue pending opening :: tail ∧
      ∀ order, .queued order ∈ tail → order.clientOrderId ≠ reference

def Honoured (trace : List Event) : Prop :=
  ∀ head reference tail, trace = head ++ .filled reference :: tail → ¬ Dead head reference

/-- The cancellation reaches every order of its reference: none waits in the opening
orders, and the ids it is compared with are the reference itself. -/
def Effective : Event → Prop
  | .cancelled reference queue pending opening =>
    reference ∉ opening ∧ (strip reference = reference ∨
      (reference ∉ queue ∧ reference ∉ pending))
  | _ => True

instance : DecidablePred Effective
  | .cancelled _ _ _ _ => inferInstanceAs (Decidable (_ ∧ _))
  | .queued _ => isTrue trivial
  | .filled _ => isTrue trivial
  | .merged _ _ => isTrue trivial

theorem dead_concat {trace : List Event} {event : Event} {reference : String}
    (h : Dead (trace ++ [event]) reference) :
    (∃ queue pending opening, event = .cancelled reference queue pending opening) ∨
      (Dead trace reference ∧ ∀ order, event = .queued order → order.clientOrderId ≠ reference) := by
  obtain ⟨head, tail, queue, pending, opening, htrace, htail⟩ := h
  rcases List.eq_nil_or_concat tail with hnil | ⟨front, last, hconcat⟩
  · left
    subst hnil
    have := List.append_inj_right' htrace rfl
    simp only [List.cons.injEq, and_true] at this
    exact ⟨queue, pending, opening, this⟩
  · right
    rw [List.concat_eq_append] at hconcat
    subst hconcat
    rw [← List.cons_append, ← List.append_assoc] at htrace
    have hfront := List.append_inj_left' htrace rfl
    have hlast := List.append_inj_right' htrace rfl
    simp only [List.cons.injEq, and_true] at hlast
    subst hlast
    refine ⟨⟨head, front, queue, pending, opening, hfront, ?_⟩, ?_⟩
    · intro order horder
      exact htail order (List.mem_append_left _ horder)
    · intro order horder
      exact htail order (by simp [horder])

theorem honoured_concat {trace : List Event} {event : Event} (h : Honoured trace)
    (hevent : ∀ reference, event = .filled reference → ¬ Dead trace reference) :
    Honoured (trace ++ [event]) := by
  intro head reference tail htrace
  rcases List.eq_nil_or_concat tail with hnil | ⟨front, last, hconcat⟩
  · subst hnil
    have hhead := List.append_inj_left' htrace rfl
    have hlast := List.append_inj_right' htrace rfl
    simp only [List.cons.injEq, and_true] at hlast
    rw [← hhead]
    exact hevent reference hlast
  · rw [List.concat_eq_append] at hconcat
    subst hconcat
    rw [← List.cons_append, ← List.append_assoc] at htrace
    exact h head reference front (List.append_inj_left' htrace rfl)

theorem dead_of_fills {trace : List Event} {reference : String} (fills : List String)
    (h : Dead (trace ++ fills.map Event.filled) reference) : Dead trace reference := by
  induction fills using List.reverseRecOn with
  | nil => simpa using h
  | append_singleton fills r ih =>
    rw [List.map_append, ← List.append_assoc] at h
    rcases dead_concat h with ⟨_, _, _, hevent⟩ | ⟨hdead, -⟩
    · cases hevent
    · exact ih hdead

theorem honoured_fills {trace : List Event} (fills : List String) (h : Honoured trace)
    (hfills : ∀ r ∈ fills, ¬ Dead trace r) : Honoured (trace ++ fills.map Event.filled) := by
  induction fills using List.reverseRecOn with
  | nil => simpa using h
  | append_singleton fills r ih =>
    rw [List.map_append, ← List.append_assoc]
    refine honoured_concat (ih fun x hx => hfills x (List.mem_append_left _ hx)) ?_
    intro reference hevent hdead
    cases hevent
    exact hfills r (by simp) (dead_of_fills fills hdead)

/-! ## What a cancellation writes -/

theorem cancelOrder_cases (context : Context) (reference : String) :
    context.cancelOrder reference = (false, context) ∨
      ∃ status : OrderStatus, status.status.live = false ∧ strip reference ≠ "" ∧
        context.cancelOrder reference = (true,
          { context with
            orders := context.orders.filter fun order => order.clientOrderId ≠ strip reference
            orderStatuses := context.orderStatuses.set (strip reference) status
            cancelledOrderIds := strip reference :: context.cancelledOrderIds }) := by
  unfold Context.cancelOrder
  dsimp only
  split
  · exact Or.inl rfl
  · rename_i hreference
    split
    · exact Or.inl rfl
    · refine Or.inr ⟨_, ?_, hreference, rfl⟩
      dsimp only
      split <;> rfl

/-! ## The invariant -/

/-- Between two steps of the runner a dead reference waits nowhere. -/
structure Settled (run : Run) : Prop where
  honoured : Honoured run.trace
  dead : ∀ reference, Dead run.trace reference → reference ≠ "" ∧
    reference ∉ orderIds run.pending ∧ reference ∉ orderIds run.opening ∧
      reference ∉ orderIds run.context.orders

/-- While a handler runs a dead reference may wait in the pending orders, if it has been
noted. -/
structure Settling (run : Run) : Prop where
  honoured : Honoured run.trace
  dead : ∀ reference, Dead run.trace reference → reference ≠ "" ∧
    (reference ∉ orderIds run.pending ∨ reference ∈ run.context.cancelledOrderIds) ∧
      reference ∉ orderIds run.opening ∧ reference ∉ orderIds run.context.orders

theorem mem_orderIds {orders : List OrderIntent} {reference : String} :
    reference ∈ orderIds orders ↔ ∃ order ∈ orders, order.clientOrderId = reference := by
  simp [orderIds]

theorem orderIds_mergePending {current incoming : List OrderIntent} {reference : String}
    (h : reference ∈ orderIds (mergePending current incoming)) :
    reference ∈ orderIds current ∨ reference ∈ orderIds incoming := by
  obtain ⟨order, horder, rfl⟩ := mem_orderIds.mp h
  rcases mem_mergePending horder with ho | ho
  · exact Or.inl (List.mem_map_of_mem ho)
  · exact Or.inr (List.mem_map_of_mem ho)

theorem settling_cancel {run : Run} (h : Settling run) {reference : String}
    (heffective : Effective (.cancelled reference (orderIds run.context.orders)
      (orderIds run.pending) (orderIds run.opening))) {status : OrderStatus}
    (hreference : strip reference ≠ "") :
    Settling { run with
      context := { run.context with
        orders := run.context.orders.filter fun order => order.clientOrderId ≠ strip reference
        orderStatuses := run.context.orderStatuses.set (strip reference) status
        cancelledOrderIds := strip reference :: run.context.cancelledOrderIds }
      trace := run.trace ++ [.cancelled reference (orderIds run.context.orders)
        (orderIds run.pending) (orderIds run.opening)] } := by
  have hsub : ∀ r, r ∈ orderIds (run.context.orders.filter
      fun order => order.clientOrderId ≠ strip reference) →
      r ∈ orderIds run.context.orders ∧ r ≠ strip reference := by
    intro r hr
    obtain ⟨order, horder, rfl⟩ := mem_orderIds.mp hr
    have hmem := List.mem_filter.mp horder
    exact ⟨List.mem_map_of_mem hmem.1, by simpa using hmem.2⟩
  refine ⟨honoured_concat h.honoured (fun r hr => nomatch hr), ?_⟩
  intro r hr
  rcases dead_concat hr with ⟨queue, pending, opening, hevent⟩ | ⟨hdead, -⟩
  · -- The reference itself: its orders are dropped, or there are none.
    cases hevent
    refine ⟨?_, ?_, heffective.1, fun hmem => ?_⟩
    · intro hempty
      rw [hempty] at hreference
      exact hreference rfl
    · rcases heffective.2 with hstrip | ⟨-, hpending⟩
      · exact Or.inr (by simp [hstrip])
      · exact Or.inl hpending
    · rcases heffective.2 with hstrip | ⟨hqueue, -⟩
      · exact (hsub _ hmem).2 hstrip.symm
      · exact hqueue (hsub _ hmem).1
  · obtain ⟨hne, hpending, hopening, horders⟩ := h.dead r hdead
    refine ⟨hne, ?_, hopening, fun hmem => horders (hsub r hmem).1⟩
    rcases hpending with hpending | hcancelled
    · exact Or.inl hpending
    · exact Or.inr (List.mem_cons_of_mem _ hcancelled)

theorem settling_removed {run : Run} (h : Settling run) :
    Settled run.removeCancelledOrders := by
  unfold Run.removeCancelledOrders
  dsimp only
  split
  · rename_i hnone
    refine ⟨h.honoured, fun r hr => ?_⟩
    obtain ⟨hne, hpending, hrest⟩ := h.dead r hr
    rw [hnone] at hpending
    exact ⟨hne, by simpa using hpending, hrest⟩
  · refine ⟨h.honoured, fun r hr => ?_⟩
    obtain ⟨hne, hpending, hrest⟩ := h.dead r hr
    refine ⟨hne, fun hmem => ?_, hrest⟩
    obtain ⟨order, horder, rfl⟩ := mem_orderIds.mp hmem
    have hfiltered := List.mem_filter.mp horder
    rcases hpending with hpending | hcancelled
    · exact hpending (List.mem_map_of_mem hfiltered.1)
    · simp [hcancelled] at hfiltered

theorem settled_traded {ids : List String} {run : Run} {broker : Broker} (h : Settled run)
    (hgrows : Grows ids run.broker broker) (hids : ∀ r ∈ ids, ¬ Dead run.trace r) :
    Honoured (run.traded broker).trace ∧
      ∀ reference, Dead (run.traded broker).trace reference → Dead run.trace reference := by
  obtain ⟨new, hnew, htrace⟩ := traded_trace hgrows
  rw [htrace]
  exact ⟨honoured_fills new h.honoured fun r hr => hids r (hnew r hr),
    fun r hr => dead_of_fills new hr⟩

theorem settled_anonymous {run : Run} {broker : Broker} (h : Settled run)
    (hgrows : Grows [""] run.broker broker) : Settled (run.traded broker) := by
  obtain ⟨hhonoured, hdead⟩ := settled_traded h hgrows (by
    intro r hr hdead
    rw [List.mem_singleton] at hr
    exact (h.dead r hdead).1 hr)
  exact ⟨hhonoured, fun r hr => h.dead r (hdead r hr)⟩

theorem traded_subset {run : Run} {broker : Broker} {event : Event} (h : event ∈ run.trace) :
    event ∈ (run.traded broker).trace :=
  List.mem_append_left _ h

theorem settled_rule (config : BrokerConfig) (data : MarketData) :
    RunRule config data (fun _ run => (∀ e ∈ run.trace, Effective e) → Settled run)
      (fun _ run => (∀ e ∈ run.trace, Effective e) → Settling run) where
  enter := by
    intro b t run _ h _ he
    exact ⟨(h he).honoured, (h he).dead⟩
  handler := by
    intro t run h he
    refine ⟨(h he).honoured, fun r hr => ?_⟩
    obtain ⟨hne, hpending, hrest⟩ := (h he).dead r hr
    exact ⟨hne, Or.inl hpending, hrest⟩
  queue := by
    intro t run key kind value options order h _ he
    have hrun := h fun e hmem => he e (List.mem_append_left _ hmem)
    refine ⟨honoured_concat hrun.honoured (fun r hr => nomatch hr), fun r hr => ?_⟩
    rcases dead_concat hr with ⟨_, _, _, hevent⟩ | ⟨hdead, hother⟩
    · cases hevent
    · obtain ⟨hne, hpending, hopening, horders⟩ := hrun.dead r hdead
      refine ⟨hne, hpending, hopening, fun hmem => ?_⟩
      obtain ⟨o, ho, rfl⟩ := mem_orderIds.mp hmem
      rcases List.mem_append.mp ho with ho | ho
      · exact horders (List.mem_map_of_mem ho)
      · rw [List.mem_singleton] at ho
        exact hother order rfl (by rw [ho])
  cancel := by
    intro t run h reference he
    unfold Run.cancelOrder at he ⊢
    rcases cancelOrder_cases run.context reference with hcase | ⟨status, -, hne, hcase⟩
    · rw [hcase] at he ⊢
      exact h he
    · rw [hcase] at he ⊢
      refine settling_cancel (h fun e hmem => he e (List.mem_append_left _ hmem)) ?_ hne
      exact he _ (List.mem_append_right _ (by simp))
  desk := by
    intro t run h protection reasons he
    exact ⟨(h he).honoured, (h he).dead⟩
  collect := by
    intro t run h he
    have hremoved : run.removeCancelledOrders.trace = run.trace := removeCancelledOrders_trace run
    have hrun := settling_removed (h fun e hmem => he e (by
      show e ∈ run.removeCancelledOrders.trace
      rw [hremoved]
      exact hmem))
    refine ⟨hrun.honoured, fun r hr => ?_⟩
    obtain ⟨hne, hpending, hopening, horders⟩ := hrun.dead r hr
    refine ⟨hne, hpending, fun hmem => ?_, List.not_mem_nil⟩
    obtain ⟨order, horder, rfl⟩ := mem_orderIds.mp hmem
    rcases List.mem_append.mp horder with ho | ho
    · exact hopening (List.mem_map_of_mem ho)
    · exact horders (List.mem_map_of_mem ho)
  flush := by
    intro t run h _ he
    have hremoved : run.removeCancelledOrders.trace = run.trace := removeCancelledOrders_trace run
    have hrun := settling_removed (h fun e hmem => he e (by
      show e ∈ run.removeCancelledOrders.trace ++ _
      rw [hremoved]
      exact List.mem_append_left _ hmem))
    refine ⟨honoured_concat hrun.honoured (fun r hr => nomatch hr), fun r hr => ?_⟩
    rcases dead_concat hr with ⟨_, _, _, hevent⟩ | ⟨hdead, -⟩
    · cases hevent
    · obtain ⟨hne, hpending, hopening, horders⟩ := hrun.dead r hdead
      refine ⟨hne, fun hmem => ?_, hopening, List.not_mem_nil⟩
      rcases orderIds_mergePending hmem with hm | hm
      · exact hpending hm
      · exact horders hm
  pending := by
    intro t run h hi
    refine Post.ite (fun _ => Post.pure h) fun _ => ?_
    refine Post.bind (execute_grows _ _ _) fun result hresult => Post.pure fun he => ?_
    have hrun := h fun e hmem => he e (traded_subset hmem)
    obtain ⟨hhonoured, hdead⟩ := settled_traded hrun hresult.1
      fun r hr hd => (hrun.dead r hd).2.1 hr
    refine ⟨hhonoured, fun r hr => ?_⟩
    obtain ⟨hne, hpending, hrest⟩ := hrun.dead r (hdead r hr)
    refine ⟨hne, fun hmem => hpending ?_, hrest⟩
    obtain ⟨o, ho, rfl⟩ := mem_orderIds.mp hmem
    obtain ⟨order, horder, hcontinues⟩ := hresult.2 o ho
    rw [hcontinues.clientOrderId]
    exact List.mem_map_of_mem horder
  opening := by
    intro t run h _
    refine Post.ite (fun _ => Post.pure h) fun _ => ?_
    refine Post.bind (execute_grows _ _ _) fun result hresult => Post.pure fun he => ?_
    have hrun := h fun e hmem => he e (List.mem_append_left _ (traded_subset hmem))
    obtain ⟨hhonoured, hdead⟩ := settled_traded hrun hresult.1
      fun r hr hd => (hrun.dead r hd).2.2.1 hr
    refine ⟨honoured_concat hhonoured (fun r hr => nomatch hr), fun r hr => ?_⟩
    rcases dead_concat hr with ⟨_, _, _, hevent⟩ | ⟨hd, -⟩
    · cases hevent
    · obtain ⟨hne, hpending, hopening, horders⟩ := hrun.dead r (hdead r hd)
      refine ⟨hne, fun hmem => ?_, List.not_mem_nil, horders⟩
      rcases orderIds_mergePending hmem with hm | hm
      · exact hpending hm
      · obtain ⟨o, ho, rfl⟩ := mem_orderIds.mp hm
        obtain ⟨order, horder, hcontinues⟩ := hresult.2 o ho
        rw [hcontinues.clientOrderId] at hopening
        exact hopening (List.mem_map_of_mem horder)
  protect := by
    intro t run h hi
    refine Post.bind (processProtections_grows run.broker) fun result hresult =>
      Post.pure fun he => ?_
    have hrun := settled_anonymous (h fun e hmem => he e (traded_subset hmem)) hresult
    obtain ⟨reasons, hreasons⟩ := foldl_setLastExitReason result.1
      (run.traded result.2).syncOrderStatuses.context
    rw [hreasons]
    exact ⟨hrun.honoured, hrun.dead⟩
  liquidate := by
    intro t run h hi
    refine (liquidateIfInsolvent_grows run.broker).mono fun result hresult he => ?_
    exact settled_anonymous (h fun e hmem => he e (traded_subset hmem)) hresult
  stop := by
    intro t run h _ he
    refine ⟨(h he).honoured, fun r hr => ?_⟩
    obtain ⟨hne, -, hopening, -⟩ := (h he).dead r hr
    exact ⟨hne, List.not_mem_nil, hopening, List.not_mem_nil⟩
  record := by
    intro t run h hi
    refine Post.bind (recordEquity_grows run.broker) fun broker _ => Post.pure fun he => ?_
    exact ⟨(h he).honoured, (h he).dead⟩

/-- **A cancelled order does not fill.** In every run whose cancellations all reach their
orders, no execution carries a reference that was cancelled before it and not queued
again in between. -/
theorem cancelled_never_fills {σ : Type} {test : Backtest σ} {t : Time} {run : Run}
    (h : test.Reaches t run) (heffective : ∀ e ∈ run.trace, Effective e) :
    Honoured run.trace := by
  have hstart : ∀ t : Time, (∀ e ∈ (Run.create test.initialCapital).trace, Effective e) →
      Settled (Run.create test.initialCapital) := by
    intro t _
    refine ⟨fun head r tail htrace => ?_, fun r hr => ?_⟩
    · simp [Run.create] at htrace
    · obtain ⟨head, tail, _, _, _, htrace, -⟩ := hr
      simp [Run.create] at htrace
  obtain ⟨⟨c, -, hsettled⟩, -⟩ := (settled_rule test.config test.data).of_reaches hstart h
  exact (hsettled heffective).honoured

/-! ## Two runs -/

def cancelledOpening : Backtest ℕ :=
  shareTest (BrokerConfig.create 1 0 0 fun _ => none) 1000 [(100, 0)] true fun name _ =>
    if name = "before_trading_start" then [orderShares 1 "a"]
    else if name = "on_rebalance" then [.cancelOrder "a"] else []

/-- The cancellation returns true, and the order fills in the same bar. -/
theorem cancelled_opening_fills :
    ∃ run, cancelledOpening.Reaches (day 0) run ∧
      run.broker.executions.map Execution.clientOrderId = ["a"] ∧ ¬ Honoured run.trace := by
  refine ⟨(runAfter cancelledOpening (day 0)).get (by decide +kernel),
    reaches_of_runAfter (by simp), by decide +kernel, ?_⟩
  intro hhonoured
  refine hhonoured (((runAfter cancelledOpening (day 0)).get (by decide +kernel)).trace.take 2) "a"
    (((runAfter cancelledOpening (day 0)).get (by decide +kernel)).trace.drop 3)
    (by decide +kernel) ?_
  exact ⟨((runAfter cancelledOpening (day 0)).get (by decide +kernel)).trace.take 1, [], [], [],
    ["a"], by decide +kernel, by simp⟩

def cancelledPending : Backtest ℕ :=
  shareTest (BrokerConfig.create 1 0 0 fun _ => none) 1000 [(100, 0), (100, 0)] false
    fun name n =>
      if n = 0 ∧ name = "handle_data" then [orderShares 1 "a"]
      else if n = 0 ∧ name = "after_trading_end" then [.cancelOrder "a"] else []

def cancelledPendingRun : Run := (runAfter cancelledPending (day 1)).get (by decide +kernel)

/-- The order cancelled in time does not fill. -/
theorem cancelled_pending_honoured :
    .cancelled "a" [] ["a"] [] ∈ cancelledPendingRun.trace ∧
      Honoured cancelledPendingRun.trace := by
  have hreaches : cancelledPending.Reaches (day 1) cancelledPendingRun :=
    reaches_of_runAfter (by simp [cancelledPendingRun])
  exact ⟨by decide +kernel, cancelled_never_fills hreaches (by decide +kernel)⟩

end QuantDinger.Analysis
