import QuantDinger.Analysis.Cancellation

/-!
# Live orders are worked

A reference whose status is live (`queued`, `deferred` or `partial`) should belong to an
order that waits somewhere. The statuses follow the rows of the order ledger, the orders
follow the lists of the runner, and both move in every pass. `Worked` ties them together.
It is kept unless a merge drops the last order of a reference, a market order is filled in
part on its last attempt, or an id is not its own stripped form.
-/

namespace QuantDinger.Analysis

open QuantDinger.Library QuantDinger.Model

/-! ## The statuses after a synchronisation -/

def LiveIn (context : Context) (reference : String) : Prop :=
  ∃ status, context.orderStatuses.get? reference = some status ∧ status.status.live = true

def lastStatus (rows : List (String × EventStatus)) (reference : String) : Option EventStatus :=
  rows.foldl (fun last row => if row.1 = reference then some row.2 else last) none

/-- The reference has a live status once these rows have been taken into account. -/
def LiveAfter (context : Context) (rows : List (String × EventStatus)) (reference : String) :
    Prop :=
  match lastStatus rows reference with
  | some status => status.state.live = true
  | none => LiveIn context reference

@[simp] theorem lastStatus_concat (rows : List (String × EventStatus)) (row : String × EventStatus)
    (reference : String) :
    lastStatus (rows ++ [row]) reference =
      if row.1 = reference then some row.2 else lastStatus rows reference := by
  simp [lastStatus]

theorem lastStatus_append_left {front rows : List (String × EventStatus)} {reference : String}
    (h : ∀ row ∈ front, row.1 ≠ reference) :
    lastStatus (front ++ rows) reference = lastStatus rows reference := by
  have hfront : lastStatus front reference = none := by
    induction front using List.reverseRecOn with
    | nil => rfl
    | append_singleton front row ih =>
      rw [lastStatus_concat, if_neg (h row (by simp))]
      exact ih fun row hrow => h row (List.mem_append_left _ hrow)
  unfold lastStatus at *
  rw [List.foldl_append, hfront]

theorem summarize_status {reference : String} (hreference : reference ≠ "")
    (events : List OrderEvent) (hevents : ∀ e ∈ events, strip e.clientOrderId = e.clientOrderId)
    (summaries : Dict String OrderStatus) :
    ((events.foldl Run.summarize (summaries, Dict.empty)).2.get? reference).map
        OrderStatus.status = (lastStatus (events.map rowOf) reference).map EventStatus.state := by
  induction events using List.reverseRecOn with
  | nil => simp [lastStatus]
  | append_singleton events event ih =>
    have hevent := hevents event (by simp)
    have ih := ih fun e he => hevents e (List.mem_append_left _ he)
    rw [List.foldl_append, List.map_append, List.map_singleton, lastStatus_concat]
    have hid : (rowOf event).1 = event.clientOrderId := rfl
    simp only [List.foldl_cons, List.foldl_nil, Run.summarize, hevent]
    by_cases hempty : event.clientOrderId = ""
    · have hother : ¬ (rowOf event).1 = reference := by
        rw [hid, hempty]
        exact Ne.symm hreference
      rw [if_pos hempty, if_neg hother]
      exact ih
    · rw [if_neg hempty]
      dsimp only
      rw [Dict.get?_set]
      by_cases hsame : reference = event.clientOrderId
      · rw [if_pos hsame, if_pos (hid.trans hsame.symm)]
        rfl
      · have hother : ¬ (rowOf event).1 = reference := by
          rw [hid]
          exact Ne.symm hsame
        rw [if_neg hsame, if_neg hother]
        exact ih

theorem summarize_keys (events : List OrderEvent)
    (hevents : ∀ e ∈ events, strip e.clientOrderId = e.clientOrderId)
    (summaries : Dict String OrderStatus) :
    ∀ entry ∈ (events.foldl Run.summarize (summaries, Dict.empty)).2.entries,
      strip entry.1 = entry.1 ∧ entry.1 ≠ "" := by
  induction events using List.reverseRecOn with
  | nil => simp [Dict.empty]
  | append_singleton events event ih =>
    have hevent := hevents event (by simp)
    have ih := ih fun e he => hevents e (List.mem_append_left _ he)
    rw [List.foldl_append]
    simp only [List.foldl_cons, List.foldl_nil, Run.summarize, hevent]
    intro entry hentry
    by_cases hempty : event.clientOrderId = ""
    · rw [if_pos hempty] at hentry
      exact ih entry hentry
    · rw [if_neg hempty] at hentry
      rcases Dict.mem_entries_set.mp hentry with rfl | ⟨hold, -⟩
      · exact ⟨hevent, hempty⟩
      · exact ih entry hold

theorem updateOrderStatuses_get? (context : Context) (updates : Dict String OrderStatus)
    (hkeys : ∀ entry ∈ updates.entries, strip entry.1 = entry.1 ∧ entry.1 ≠ "")
    (reference : String) :
    (context.updateOrderStatuses updates.entries).orderStatuses.get? reference =
      (updates.get? reference <|> context.orderStatuses.get? reference) := by
  rw [← Dict.get?_foldl_set]
  unfold Context.updateOrderStatuses
  dsimp only
  refine congrArg (Dict.get? · reference) (List.foldl_ext _ _ _ fun statuses entry hentry => ?_)
  obtain ⟨hstrip, hne⟩ := hkeys entry hentry
  rw [hstrip, if_neg hne]

theorem stripped_events {run : Run}
    (hrows : ∀ row ∈ (statusRows run.broker).drop run.statusCursor, strip row.1 = row.1) :
    ∀ e ∈ run.broker.ledger.orderLedger.drop run.statusCursor,
      strip e.clientOrderId = e.clientOrderId := by
  intro e he
  refine hrows (rowOf e) ?_
  unfold statusRows
  rw [← List.map_drop]
  exact List.mem_map_of_mem he

theorem syncOrderStatuses_live {run : Run} {reference : String} (hreference : reference ≠ "")
    (hrows : ∀ row ∈ (statusRows run.broker).drop run.statusCursor, strip row.1 = row.1)
    (h : LiveIn run.syncOrderStatuses.context reference) :
    LiveAfter run.context ((statusRows run.broker).drop run.statusCursor) reference := by
  obtain ⟨status, hstatus, hlive⟩ := h
  have hevents := stripped_events hrows
  have hupdates := summarize_status hreference _ hevents run.summaries
  rw [show run.syncOrderStatuses.context = run.context.updateOrderStatuses
    ((run.broker.ledger.orderLedger.drop run.statusCursor).foldl Run.summarize
      (run.summaries, Dict.empty)).2.entries from rfl,
    updateOrderStatuses_get? _ _ (summarize_keys _ hevents _)] at hstatus
  rw [List.map_drop] at hupdates
  unfold LiveAfter
  show match lastStatus ((run.broker.ledger.orderLedger.map rowOf).drop run.statusCursor)
    reference with
    | some status => status.state.live = true
    | none => LiveIn run.context reference
  cases hlast : lastStatus ((run.broker.ledger.orderLedger.map rowOf).drop run.statusCursor)
    reference with
  | some last =>
    rw [hlast] at hupdates
    obtain ⟨update, hupdate, heq⟩ := Option.map_eq_some_iff.mp hupdates
    rw [hupdate] at hstatus
    cases hstatus
    dsimp only
    rw [← heq]
    exact hlive
  | none =>
    rw [hlast, Option.map_none, Option.map_eq_none_iff] at hupdates
    rw [hupdates] at hstatus
    exact ⟨status, hstatus, hlive⟩

theorem syncOrderStatuses_empty {run : Run}
    (hrows : ∀ row ∈ (statusRows run.broker).drop run.statusCursor, strip row.1 = row.1)
    (h : LiveIn run.syncOrderStatuses.context "") : LiveIn run.context "" := by
  obtain ⟨status, hstatus, hlive⟩ := h
  have hkeys := summarize_keys _ (stripped_events hrows) run.summaries
  rw [show run.syncOrderStatuses.context = run.context.updateOrderStatuses
    ((run.broker.ledger.orderLedger.drop run.statusCursor).foldl Run.summarize
      (run.summaries, Dict.empty)).2.entries from rfl,
    updateOrderStatuses_get? _ _ hkeys] at hstatus
  have hnone : ((run.broker.ledger.orderLedger.drop run.statusCursor).foldl Run.summarize
      (run.summaries, Dict.empty)).2.get? "" = none := by
    rw [Dict.get?_eq_none_iff]
    exact fun entry hentry => (hkeys entry hentry).2
  rw [hnone] at hstatus
  exact ⟨status, hstatus, hlive⟩

/-! ## What may go wrong -/

/-- A market order is worked for the last time and its fill leaves a tradable remainder. -/
def Exhausted (config : BrokerConfig) (d : Decision) : Prop :=
  d.order.isLimit = false ∧ 4 ≤ d.order.attempts ∧
    ∃ plan, planOrder config d.before d.order d.bar d.openPrice d.equity = .ok (.fill plan) ∧
      plan.hasTradableRemainder = true

/-- A queued id is its own stripped form, and a merge keeps an order of every reference. -/
def Orderly : Event → Prop
  | .queued order => strip order.clientOrderId = order.clientOrderId
  | .merged current incoming => ∀ order ∈ current ++ incoming,
      order.clientOrderId ∈ orderIds (mergePending current incoming)
  | _ => True

instance : DecidablePred Orderly
  | .queued _ => inferInstanceAs (Decidable (_ = _))
  | .merged _ _ => inferInstanceAs (Decidable (∀ order ∈ _, _))
  | .cancelled _ _ _ _ => isTrue trivial
  | .filled _ => isTrue trivial

/-! ## One batch -/

section Batch

variable {data : MarketData} {config : BrokerConfig} {ts : Time}

theorem liveAfter_work {context : Context} {rows : List (String × EventStatus)}
    {rest deferred : List OrderIntent} {others : List String} {equity : Amount}
    {order : OrderIntent} {bar : Option Bar} {openPrice : Option Amount} {outcome : Outcome}
    {broker start : Broker} (hrows : statusRows broker = statusRows start ++ rows)
    (hlive : ∀ r, LiveAfter context rows r →
      r ∈ orderIds deferred ∨ r ∈ orderIds (order :: rest) ∨ r ∈ others)
    (hplan : planOrder config broker.toAccount order bar openPrice equity = .ok outcome)
    (hexhausted : ¬ Exhausted config ⟨order, bar, openPrice, equity, broker.toAccount, outcome,
      accountAfter config ts order broker outcome⟩) :
    ∃ rows', statusRows (broker.work config ts equity order bar openPrice outcome).1 =
        statusRows start ++ (rows ++ rows') ∧ (∀ row ∈ rows', row.1 = order.clientOrderId) ∧
      ∀ r, LiveAfter context (rows ++ rows') r →
        r ∈ orderIds (deferred ++
          (broker.work config ts equity order bar openPrice outcome).2.toList) ∨
          r ∈ orderIds rest ∨ r ∈ others := by
  have hsplit : ∀ r, r ∈ orderIds deferred ∨ r ∈ orderIds (order :: rest) ∨ r ∈ others →
      r = order.clientOrderId ∨ r ∈ orderIds deferred ∨ r ∈ orderIds rest ∨ r ∈ others := by
    intro r hr
    rcases hr with hr | hr | hr
    · exact Or.inr (Or.inl hr)
    · rcases List.mem_cons.mp hr with hr | hr
      · exact Or.inl hr
      · exact Or.inr (Or.inr (Or.inl hr))
    · exact Or.inr (Or.inr (Or.inr hr))
  have hdeferred : ∀ {next : List OrderIntent} {r : String}, r ∈ orderIds deferred →
      r ∈ orderIds (deferred ++ next) := by
    intro next r hr
    obtain ⟨o, ho, rfl⟩ := mem_orderIds.mp hr
    exact List.mem_map_of_mem (List.mem_append_left _ ho)
  rcases work_statusRows config ts equity order bar openPrice outcome broker with
    hrow | ⟨hsame, hnext⟩
  · refine ⟨[(order.clientOrderId, rowStatus order outcome)], ?_, by simp, ?_⟩
    · rw [hrow, hrows, List.append_assoc]
    · intro r hr
      unfold LiveAfter at hr
      rw [lastStatus_concat] at hr
      by_cases hid : order.clientOrderId = r
      · -- The new row decides: a live one means that the order goes on.
        rw [if_pos hid] at hr
        dsimp only at hr
        left
        cases hnext : (broker.work config ts equity order bar openPrice outcome).2 with
        | some next =>
          have hcontinues : Continues order next := settle_next hnext
          refine mem_orderIds.mpr ⟨next, by simp, ?_⟩
          rw [hcontinues.clientOrderId]
          exact hid
        | none =>
          exfalso
          rcases work_ended config ts equity order bar openPrice outcome broker hnext with
            hended | ⟨plan, houtcome, hcovers, hlimit, hattempts⟩
          · rw [hended] at hr
            cases hr
          · subst houtcome
            refine hexhausted ⟨hlimit, hattempts, plan, hplan, ?_⟩
            unfold FillPlan.status at hcovers
            split at hcovers
            · assumption
            · cases hcovers
      · rw [if_neg hid] at hr
        rcases hsplit r (hlive r hr) with heq | hr | hr
        · exact absurd heq.symm hid
        · exact Or.inl (hdeferred hr)
        · exact Or.inr hr
  · refine ⟨[], ?_, by simp, ?_⟩
    · rw [hsame, hrows, List.append_nil]
    · intro r hr
      rw [List.append_nil] at hr
      rw [hnext]
      rcases hsplit r (hlive r hr) with heq | hr | hr
      · exact Or.inl (mem_orderIds.mpr ⟨order, by simp, heq.symm⟩)
      · exact Or.inl (hdeferred hr)
      · exact Or.inr hr

theorem execute_live {context : Context} {orders : List OrderIntent} {others : List String}
    (hlive : ∀ r, LiveIn context r → r ∈ orderIds orders ∨ r ∈ others)
    (overrides : Dict PositionKey Amount) (broker : Broker) :
    Post (Serves data) (broker.execute config ts overrides orders)
      (fun result => (∀ d ∈ result.2.history, ¬ Exhausted config d) →
        ∃ rows, statusRows result.2 = statusRows broker ++ rows ∧
          (∀ row ∈ rows, row.1 ∈ orderIds orders) ∧
          ∀ r, LiveAfter context rows r → r ∈ orderIds result.1 ∨ r ∈ others) := by
  refine execute_rule (P := fun _ rest batch => (∀ o ∈ rest, o ∈ orders) ∧
    ((∀ d ∈ batch.broker.history, ¬ Exhausted config d) →
      ∃ rows, statusRows batch.broker = statusRows broker ++ rows ∧
        (∀ row ∈ rows, row.1 ∈ orderIds orders) ∧
        ∀ r, LiveAfter context rows r →
          r ∈ orderIds batch.deferred ∨ r ∈ orderIds rest ∨ r ∈ others)) ?_ ?_ ?_ ?_
  · refine (markToMarketBeforeFill_post overrides broker).mono ?_
    rintro b ⟨positions, rfl⟩
    exact ⟨fun o ho => ho, fun _ => ⟨[], by simp [statusRows, Broker.withAccount], by simp,
      fun r hr => Or.inr (hlive r hr)⟩⟩
  · rintro equity order rest batch key outcome ⟨hrest, hbatch⟩ hplan
    refine ⟨fun o ho => hrest o (List.mem_cons_of_mem _ ho), fun hhistory => ?_⟩
    unfold Batch.next at hhistory
    dsimp only at hhistory
    rw [work_history] at hhistory
    obtain ⟨rows, hrows, hids, hlive⟩ := hbatch fun d hd => hhistory d (List.mem_append_left _ hd)
    obtain ⟨rows', hrows', hids', hlive'⟩ := liveAfter_work hrows hlive hplan
      (hhistory _ (List.mem_append_right _ (List.mem_singleton_self _)))
    refine ⟨rows ++ rows', hrows', ?_, hlive'⟩
    intro row hrow
    rcases List.mem_append.mp hrow with hrow | hrow
    · exact hids row hrow
    · rw [hids' row hrow]
      exact List.mem_map_of_mem (hrest order (by simp))
  · rintro equity batch ⟨-, hbatch⟩
    refine (markToMarketBeforeFill_post batch.marks batch.broker).mono ?_
    rintro b ⟨positions, rfl⟩ hhistory
    obtain ⟨rows, hrows, hids, hlive⟩ := hbatch hhistory
    refine ⟨rows, hrows, hids, fun r hr => ?_⟩
    rcases hlive r hr with hr | hr | hr
    · exact Or.inl hr
    · cases hr
    · exact Or.inr hr
  · rintro rfl _
    exact ⟨[], by simp, by simp, fun r hr => hlive r hr⟩

end Batch

/-! ## The invariant -/

/-- Between two steps of the runner every live reference belongs to an order that waits. -/
structure Worked (run : Run) : Prop where
  bound : run.statusCursor ≤ (statusRows run.broker).length
  synced : ∀ row ∈ (statusRows run.broker).drop run.statusCursor, row.1 = ""
  ids : ∀ order ∈ waiting run, strip order.clientOrderId = order.clientOrderId ∧
    order.clientOrderId ≠ ""
  live : ∀ reference, LiveIn run.context reference → reference ∈ orderIds (waiting run)
  cancelled : run.context.cancelledOrderIds = []

/-- While a handler runs the references it has cancelled are not live. -/
structure Working (run : Run) : Prop where
  bound : run.statusCursor ≤ (statusRows run.broker).length
  synced : ∀ row ∈ (statusRows run.broker).drop run.statusCursor, row.1 = ""
  ids : ∀ order ∈ waiting run, strip order.clientOrderId = order.clientOrderId ∧
    order.clientOrderId ≠ ""
  live : ∀ reference, LiveIn run.context reference → reference ∈ orderIds (waiting run)
  cancelled : ∀ reference ∈ run.context.cancelledOrderIds, ∃ status,
    run.context.orderStatuses.get? reference = some status ∧ status.status.live = false

theorem Worked.not_live_empty {run : Run} (h : Worked run) : ¬ LiveIn run.context "" := by
  intro hlive
  obtain ⟨order, horder, hid⟩ := mem_orderIds.mp (h.live "" hlive)
  exact (h.ids order horder).2 hid

theorem worked_sync {run : Run} {front rows : List (String × EventStatus)}
    (hrows : (statusRows run.broker).drop run.statusCursor = front ++ rows)
    (hfront : ∀ row ∈ front, row.1 = "") (hstrip : ∀ row ∈ rows, strip row.1 = row.1)
    (hempty : ¬ LiveIn run.context "")
    (hids : ∀ order ∈ waiting run, strip order.clientOrderId = order.clientOrderId ∧
      order.clientOrderId ≠ "")
    (hlive : ∀ reference, LiveAfter run.context rows reference →
      reference ∈ orderIds (waiting run))
    (hcancelled : run.context.cancelledOrderIds = []) : Worked run.syncOrderStatuses := by
  have hall : ∀ row ∈ (statusRows run.broker).drop run.statusCursor, strip row.1 = row.1 := by
    intro row hrow
    rw [hrows] at hrow
    rcases List.mem_append.mp hrow with hrow | hrow
    · rw [hfront row hrow]
      rfl
    · exact hstrip row hrow
  have hcursor : run.syncOrderStatuses.statusCursor =
      (statusRows run.syncOrderStatuses.broker).length := by
    show run.broker.ledger.orderLedger.length = (statusRows run.broker).length
    simp [statusRows]
  refine ⟨hcursor.le, ?_, hids, ?_, hcancelled⟩
  · rw [hcursor, List.drop_length]
    simp
  · intro reference hreference
    by_cases hne : reference = ""
    · subst hne
      exact absurd (syncOrderStatuses_empty hall hreference) hempty
    · refine hlive reference ?_
      have hafter := syncOrderStatuses_live hne hall hreference
      unfold LiveAfter at hafter ⊢
      rwa [hrows, lastStatus_append_left
        (fun row hrow => by rw [hfront row hrow]; exact Ne.symm hne)] at hafter

theorem drop_rows {run : Run} (h : Worked run) {broker : Broker}
    {rows : List (String × EventStatus)} (hrows : statusRows broker = statusRows run.broker ++ rows) :
    (statusRows broker).drop run.statusCursor =
      (statusRows run.broker).drop run.statusCursor ++ rows := by
  rw [hrows, List.drop_append_of_le_length h.bound]

theorem worked_anonymous {run : Run} {broker : Broker} (h : Worked run)
    (hgrows : Grows [""] run.broker broker) : Worked (run.traded broker) := by
  obtain ⟨rows, hrows, hids⟩ := hgrows.rows
  refine ⟨?_, ?_, h.ids, h.live, h.cancelled⟩
  · show run.statusCursor ≤ (statusRows broker).length
    rw [hrows, List.length_append]
    exact h.bound.trans (Nat.le_add_right _ _)
  · intro row hrow
    have hrow : row ∈ (statusRows broker).drop run.statusCursor := hrow
    rw [drop_rows h hrows] at hrow
    rcases List.mem_append.mp hrow with hrow | hrow
    · exact h.synced row hrow
    · simpa using hids row hrow

theorem orderReference_ne_empty (context : Context) (options : OrderOptions) :
    context.orderReference options ≠ "" := by
  unfold Context.orderReference truncate
  dsimp only
  intro hempty
  have hlist := congrArg String.toList hempty
  rw [String.toList_ofList, show "".toList = [] from rfl, List.take_eq_nil_iff] at hlist
  rcases hlist with hlist | hlist
  · cases hlist
  · split at hlist
    · simp at hlist
    · rename_i hgiven
      exact hgiven (String.toList_injective hlist)

theorem working_removed {run : Run} (h : Working run) :
    Working run.removeCancelledOrders ∧
      run.removeCancelledOrders.context.cancelledOrderIds = [] := by
  unfold Run.removeCancelledOrders
  dsimp only
  split
  · rename_i hnone
    exact ⟨h, hnone⟩
  · refine ⟨⟨h.bound, h.synced, ?_, ?_, by simp [Context.flushCancelled]⟩, rfl⟩
    · intro order horder
      rw [mem_waiting] at horder
      refine h.ids order (mem_waiting.mpr ?_)
      rcases horder with horder | horder
      · exact Or.inl (List.mem_of_mem_filter horder)
      · exact Or.inr horder
    · intro reference hlive
      obtain ⟨order, horder, rfl⟩ := mem_orderIds.mp (h.live reference hlive)
      refine mem_orderIds.mpr ⟨order, mem_waiting.mpr ?_, rfl⟩
      rcases mem_waiting.mp horder with horder | horder
      · -- A live reference was not cancelled, so its order stays.
        refine Or.inl (List.mem_filter.mpr ⟨horder, ?_⟩)
        rw [decide_eq_true_eq]
        intro hcancelled
        obtain ⟨status, hstatus, hnot⟩ := h.cancelled _ hcancelled
        obtain ⟨status', hstatus', hlive'⟩ := hlive
        have hsame : status' = status := by
          have : some status' = some status := hstatus'.symm.trans hstatus
          exact Option.some.inj this
        rw [hsame, hnot] at hlive'
        cases hlive'
      · exact Or.inr horder

/-- What the runs of the rule have to satisfy. -/
structure Undisturbed (config : BrokerConfig) (run : Run) : Prop where
  trace : ∀ e ∈ run.trace, Orderly e
  history : ∀ d ∈ run.broker.history, ¬ Exhausted config d
  solvent : run.broker.bankrupt = false

theorem Undisturbed.before {config : BrokerConfig} {ids : List String} {run run' : Run}
    (h : Undisturbed config run') (htrace : ∀ e ∈ run.trace, e ∈ run'.trace)
    (hgrows : Grows ids run.broker run'.broker) : Undisturbed config run where
  trace e he := h.trace e (htrace e he)
  history d hd := h.history d (hgrows.history.subset hd)
  solvent := by
    cases hb : run.broker.bankrupt with
    | false => rfl
    | true =>
      have := hgrows.bankrupt hb
      rw [h.solvent] at this
      cases this

theorem working_queue {run : Run} {order : OrderIntent} (h : Working run)
    (hid : strip order.clientOrderId = order.clientOrderId ∧ order.clientOrderId ≠ "") :
    Working (run.queueOrder order) := by
  have hwaiting : ∀ {o : OrderIntent}, o ∈ waiting (run.queueOrder order) ↔
      o ∈ waiting run ∨ o = order := by
    intro o
    simp only [mem_waiting, Run.queueOrder, Context.enqueue, List.mem_append, List.mem_singleton]
    rw [or_assoc, or_assoc]
  refine ⟨h.bound, h.synced, ?_, ?_, ?_⟩
  · intro o ho
    rcases hwaiting.mp ho with ho | rfl
    · exact h.ids o ho
    · exact hid
  · rintro reference ⟨status, hstatus, hlive⟩
    simp only [Run.queueOrder, Context.enqueue] at hstatus
    have hold : LiveIn run.context reference → reference ∈ orderIds (waiting (run.queueOrder order)) := by
      intro hlive
      obtain ⟨o, ho, rfl⟩ := mem_orderIds.mp (h.live reference hlive)
      exact mem_orderIds.mpr ⟨o, hwaiting.mpr (Or.inl ho), rfl⟩
    split at hstatus
    · exact hold ⟨status, hstatus, hlive⟩
    · rw [Dict.get?_set] at hstatus
      split at hstatus
      · rename_i heq
        exact mem_orderIds.mpr ⟨order, hwaiting.mpr (Or.inr rfl), heq.symm⟩
      · exact hold ⟨status, hstatus, hlive⟩
  · intro reference hreference
    obtain ⟨status, hstatus, hlive⟩ := h.cancelled reference hreference
    refine ⟨status, ?_, hlive⟩
    simp only [Run.queueOrder, Context.enqueue]
    split
    · exact hstatus
    · rename_i hfresh
      rw [Dict.get?_set, if_neg, hstatus]
      rintro rfl
      simp [Dict.contains, hstatus] at hfresh

theorem working_cancel {run : Run} {reference : String} {status : OrderStatus} {trace : List Event}
    (h : Working run) (hstatus : status.status.live = false) :
    Working { run with
      context := { run.context with
        orders := run.context.orders.filter fun order => order.clientOrderId ≠ strip reference
        orderStatuses := run.context.orderStatuses.set (strip reference) status
        cancelledOrderIds := strip reference :: run.context.cancelledOrderIds }
      trace := trace } := by
  refine ⟨h.bound, h.synced, ?_, ?_, ?_⟩
  · intro order horder
    refine h.ids order (mem_waiting.mpr ?_)
    rcases mem_waiting.mp horder with ho | ho | ho
    · exact Or.inl ho
    · exact Or.inr (Or.inl ho)
    · exact Or.inr (Or.inr (List.mem_of_mem_filter ho))
  · rintro r ⟨status', hstatus', hlive⟩
    dsimp only at hstatus'
    rw [Dict.get?_set] at hstatus'
    split at hstatus'
    · cases hstatus'
      rw [hstatus] at hlive
      cases hlive
    · rename_i hne
      obtain ⟨order, horder, rfl⟩ := mem_orderIds.mp (h.live r ⟨status', hstatus', hlive⟩)
      refine mem_orderIds.mpr ⟨order, mem_waiting.mpr ?_, rfl⟩
      rcases mem_waiting.mp horder with ho | ho | ho
      · exact Or.inl ho
      · exact Or.inr (Or.inl ho)
      · exact Or.inr (Or.inr (List.mem_filter.mpr ⟨ho, by simpa using hne⟩))
  · intro r hr
    dsimp only
    rw [Dict.get?_set]
    by_cases heq : r = strip reference
    · exact ⟨status, if_pos heq, hstatus⟩
    · rw [if_neg heq]
      rcases List.mem_cons.mp hr with hr | hr
      · exact absurd hr heq
      · exact h.cancelled r hr

theorem worked_batch {config : BrokerConfig} {run : Run} (run' : Run) {orders : List OrderIntent}
    {result : List OrderIntent × Broker} {others : List String} (h : Worked run)
    (hsub : ∀ order ∈ orders, order ∈ waiting run)
    (hdeferred : ∀ o ∈ result.1, ∃ order ∈ orders, Continues order o)
    (hbatch : (∀ d ∈ result.2.history, ¬ Exhausted config d) →
      ∃ rows, statusRows result.2 = statusRows run.broker ++ rows ∧
        (∀ row ∈ rows, row.1 ∈ orderIds orders) ∧
        ∀ r, LiveAfter run.context rows r → r ∈ orderIds result.1 ∨ r ∈ others)
    (hu : Undisturbed config run') (hbroker : run'.broker = result.2)
    (hcursor : run'.statusCursor = run.statusCursor) (hcontext : run'.context = run.context)
    (hwaiting : ∀ o ∈ waiting run', o ∈ result.1 ∨ o ∈ waiting run)
    (hkept : ∀ r, r ∈ orderIds result.1 ∨ r ∈ others → r ∈ orderIds (waiting run')) :
    Worked run'.syncOrderStatuses := by
  obtain ⟨rows, hrows, hids, hlive⟩ := hbatch (hbroker ▸ hu.history)
  have horders : ∀ order ∈ orders, strip order.clientOrderId = order.clientOrderId ∧
      order.clientOrderId ≠ "" := fun order ho => h.ids order (hsub order ho)
  have hdrop := drop_rows h hrows
  rw [← hbroker, ← hcursor] at hdrop
  refine worked_sync hdrop (hcursor ▸ h.synced) ?_ ?_ ?_ ?_ (hcontext ▸ h.cancelled)
  · intro row hrow
    obtain ⟨order, horder, hid⟩ := mem_orderIds.mp (hids row hrow)
    rw [← hid]
    exact (horders order horder).1
  · rw [hcontext]
    exact h.not_live_empty
  · intro o ho
    rcases hwaiting o ho with ho | ho
    · obtain ⟨order, horder, hcontinues⟩ := hdeferred o ho
      rw [hcontinues.clientOrderId]
      exact horders order horder
    · exact h.ids o ho
  · intro r hr
    rw [hcontext] at hr
    exact hkept r (hlive r hr)

theorem removeCancelledOrders_grows (run : Run) :
    Grows [""] run.broker run.removeCancelledOrders.broker := by
  unfold Run.removeCancelledOrders
  dsimp only
  split <;> exact Grows.of_eq rfl rfl rfl id

theorem grows_refl (broker : Broker) : Grows [""] broker broker := Grows.of_eq rfl rfl rfl id

theorem worked_rule (config : BrokerConfig) (data : MarketData) :
    RunRule config data (fun _ run => Undisturbed config run → Worked run)
      (fun _ run => Undisturbed config run → Working run) where
  enter := by
    intro b t run _ h _ hu
    have hrun := h (hu.before (fun e he => he) (grows_refl _))
    exact ⟨hrun.bound, hrun.synced, hrun.ids, hrun.live, hrun.cancelled⟩
  handler := by
    intro t run h hu
    have hrun := h hu
    refine ⟨hrun.bound, hrun.synced, hrun.ids, hrun.live, ?_⟩
    rw [hrun.cancelled]
    simp
  queue := by
    intro t run key kind value options order h horder hu
    have hrun := h (hu.before (fun e he => List.mem_append_left _ he) (grows_refl _))
    refine working_queue hrun ⟨hu.trace (.queued order) (by simp [Run.queueOrder]), ?_⟩
    rw [(orderOf_ok horder).2.1]
    exact orderReference_ne_empty _ _
  cancel := by
    intro t run h reference hu
    unfold Run.cancelOrder at hu ⊢
    rcases cancelOrder_cases run.context reference with hcase | ⟨status, hstatus, -, hcase⟩
    · rw [hcase] at hu ⊢
      exact h hu
    · rw [hcase] at hu ⊢
      exact working_cancel (h (hu.before (fun e he => List.mem_append_left _ he) (grows_refl _)))
        hstatus
  desk := by
    intro t run h protection reasons hu
    have hrun := h (hu.before (fun e he => he) (grows_refl _))
    exact ⟨hrun.bound, hrun.synced, hrun.ids, hrun.live, hrun.cancelled⟩
  collect := by
    intro t run h hu
    have hgrows : Grows [""] run.broker run.removeCancelledOrders.broker :=
      removeCancelledOrders_grows run
    obtain ⟨hrun, hcancelled⟩ := working_removed (h (hu.before (fun e he => by
      show e ∈ run.removeCancelledOrders.trace
      rwa [removeCancelledOrders_trace]) hgrows))
    have hwaiting : ∀ o, o ∈ waiting run.removeCancelledOrders.collectOpening ↔
        o ∈ waiting run.removeCancelledOrders := by
      intro o
      simp only [mem_waiting, Run.collectOpening, Context.flushOrders, List.mem_append]
      simp
    refine ⟨hrun.bound, hrun.synced, fun o ho => hrun.ids o ((hwaiting o).mp ho), ?_, hcancelled⟩
    intro r hr
    obtain ⟨o, ho, hid⟩ := mem_orderIds.mp (hrun.live r hr)
    exact mem_orderIds.mpr ⟨o, (hwaiting o).mpr ho, hid⟩
  flush := by
    intro t run h hopening hu
    have hgrows : Grows [""] run.broker run.removeCancelledOrders.broker :=
      removeCancelledOrders_grows run
    obtain ⟨hrun, hcancelled⟩ := working_removed (h (hu.before (fun e he => by
      show e ∈ run.removeCancelledOrders.trace ++ _
      rw [removeCancelledOrders_trace]
      exact List.mem_append_left _ he) hgrows))
    have hempty : run.removeCancelledOrders.opening = [] := by simpa using hopening
    have hmerge := hu.trace (.merged run.removeCancelledOrders.pending
      run.removeCancelledOrders.context.orders) (List.mem_append_right _ (by simp))
    refine ⟨hrun.bound, hrun.synced, ?_, ?_, hcancelled⟩
    · intro o ho
      refine hrun.ids o (mem_waiting.mpr ?_)
      rcases mem_waiting.mp ho with ho | ho | ho
      · rcases mem_mergePending ho with ho | ho
        · exact Or.inl ho
        · exact Or.inr (Or.inr ho)
      · exact Or.inr (Or.inl ho)
      · cases ho
    · intro r hr
      obtain ⟨o, ho, rfl⟩ := mem_orderIds.mp (hrun.live r hr)
      have hmem : o ∈ run.removeCancelledOrders.pending ++
          run.removeCancelledOrders.context.orders := by
        rcases mem_waiting.mp ho with ho | ho | ho
        · exact List.mem_append_left _ ho
        · rw [hempty] at ho
          cases ho
        · exact List.mem_append_right _ ho
      obtain ⟨o', ho', hid⟩ := mem_orderIds.mp (hmerge o hmem)
      exact mem_orderIds.mpr ⟨o', mem_waiting.mpr (Or.inl ho'), hid⟩
  pending := by
    intro t run h hi
    refine Post.ite (fun _ => Post.pure h) fun _ => ?_
    by_cases hworked : Worked run
    · have hlive : ∀ r, LiveIn run.context r → r ∈ orderIds run.pending ∨
          r ∈ orderIds (run.opening ++ run.context.orders) := by
        intro r hr
        have hmem := hworked.live r hr
        unfold waiting at hmem
        rw [List.append_assoc, orderIds, List.map_append] at hmem
        exact List.mem_append.mp hmem
      refine Post.bind ((execute_grows Dict.empty run.pending run.broker).and
        (execute_live hlive Dict.empty run.broker)) fun result hresult => Post.pure fun hu => ?_
      refine worked_batch { run.traded result.2 with pending := result.1 } hworked
        (fun o ho => mem_waiting.mpr (Or.inl ho)) hresult.1.2 hresult.2
        ⟨hu.trace, hu.history, hu.solvent⟩ rfl rfl rfl ?_ ?_
      · intro o ho
        rcases mem_waiting.mp ho with ho | ho
        · exact Or.inl ho
        · exact Or.inr (mem_waiting.mpr (Or.inr ho))
      · intro r hr
        show r ∈ orderIds (result.1 ++ run.opening ++ run.context.orders)
        rw [List.append_assoc, orderIds, List.map_append]
        exact List.mem_append.mpr hr
    · refine Post.bind (execute_grows Dict.empty run.pending run.broker) fun result hresult =>
        Post.pure fun hu => absurd (h ?_) hworked
      exact hu.before (fun e he => traded_subset he) hresult.1
  opening := by
    intro t run h ho
    refine Post.ite (fun _ => Post.pure h) fun _ => ?_
    by_cases hworked : Worked run
    · have hlive : ∀ r, LiveIn run.context r → r ∈ orderIds run.opening ∨
          r ∈ orderIds run.pending := by
        intro r hr
        obtain ⟨o, hmem, rfl⟩ := mem_orderIds.mp (hworked.live r hr)
        rcases mem_waiting.mp hmem with hmem | hmem | hmem
        · exact Or.inr (List.mem_map_of_mem hmem)
        · exact Or.inl (List.mem_map_of_mem hmem)
        · rw [ho] at hmem
          cases hmem
      refine Post.bind ((execute_grows Dict.empty run.opening run.broker).and
        (execute_live hlive Dict.empty run.broker)) fun result hresult => Post.pure fun hu => ?_
      have hmerge := hu.trace (.merged run.pending result.1) (List.mem_append_right _ (by simp [Run.traded]))
      refine worked_batch ({ run.traded result.2 with opening := [] }.merge result.1) hworked
        (fun o ho => mem_waiting.mpr (Or.inr (Or.inl ho))) hresult.1.2 hresult.2
        ⟨hu.trace, hu.history, hu.solvent⟩ rfl rfl rfl ?_ ?_
      · intro o ho
        rcases mem_waiting.mp ho with ho | ho | ho
        · rcases mem_mergePending ho with ho | ho
          · exact Or.inr (mem_waiting.mpr (Or.inl ho))
          · exact Or.inl ho
        · cases ho
        · exact Or.inr (mem_waiting.mpr (Or.inr (Or.inr ho)))
      · intro r hr
        have hmem : ∃ o ∈ run.pending ++ result.1, o.clientOrderId = r := by
          rcases hr with hr | hr
          · obtain ⟨o, ho, hid⟩ := mem_orderIds.mp hr
            exact ⟨o, List.mem_append_right _ ho, hid⟩
          · obtain ⟨o, ho, hid⟩ := mem_orderIds.mp hr
            exact ⟨o, List.mem_append_left _ ho, hid⟩
        obtain ⟨o, ho, rfl⟩ := hmem
        obtain ⟨o', ho', hid⟩ := mem_orderIds.mp (hmerge o ho)
        exact mem_orderIds.mpr ⟨o', mem_waiting.mpr (Or.inl ho'), hid⟩
    · refine Post.bind (execute_grows Dict.empty run.opening run.broker) fun result hresult =>
        Post.pure fun hu => absurd (h ?_) hworked
      exact hu.before (fun e he => List.mem_append_left _ (traded_subset he)) hresult.1
  protect := by
    intro t run h hi
    refine Post.bind (processProtections_grows run.broker) fun result hresult =>
      Post.pure fun hu => ?_
    have hrun := worked_anonymous
      (h (hu.before (fun e he => traded_subset he) hresult)) hresult
    have hsynced : Worked (run.traded result.2).syncOrderStatuses :=
      @worked_sync _ _ [] (List.append_nil _).symm hrun.synced (by simp) hrun.not_live_empty
        hrun.ids hrun.live hrun.cancelled
    obtain ⟨reasons, hreasons⟩ := foldl_setLastExitReason result.1
      (run.traded result.2).syncOrderStatuses.context
    rw [hreasons]
    exact ⟨hsynced.bound, hsynced.synced, hsynced.ids, hsynced.live, hsynced.cancelled⟩
  liquidate := by
    intro t run h hi
    refine (liquidateIfInsolvent_grows run.broker).mono fun result hresult hu => ?_
    exact worked_anonymous (h (hu.before (fun e he => traded_subset he) hresult)) hresult
  stop := by
    intro t run _ hb hu
    have := hu.solvent
    rw [hb] at this
    cases this
  record := by
    intro t run h hi
    refine Post.bind (recordEquity_grows run.broker) fun broker hgrows => Post.pure fun hu => ?_
    have hrun := worked_anonymous (h (hu.before (fun e he => he) hgrows)) hgrows
    exact ⟨hrun.bound, hrun.synced, hrun.ids, hrun.live, hrun.cancelled⟩

/-- **No live order without work.** At the end of every bar of every run that is solvent and
undisturbed, a reference with a live status belongs to a pending order. -/
theorem live_order_pending {σ : Type} {test : Backtest σ} {t : Time} {run : Run}
    (h : test.Reaches t run) (hu : Undisturbed test.config run) :
    ∀ reference, LiveIn run.context reference → reference ∈ orderIds run.pending := by
  have hstart : ∀ t : Time, Undisturbed test.config (Run.create test.initialCapital) →
      Worked (Run.create test.initialCapital) := by
    intro t _
    refine ⟨Nat.zero_le _, ?_, ?_, ?_, rfl⟩
    · simp [Run.create, Broker.create, statusRows]
    · simp [Run.create, waiting]
    · rintro r ⟨status, hstatus, -⟩
      simp [Run.create] at hstatus
  obtain ⟨⟨c, -, hworked⟩, hidle⟩ := (worked_rule test.config test.data).of_reaches hstart h
  intro reference hlive
  obtain ⟨o, ho, hid⟩ := mem_orderIds.mp ((hworked hu).live reference hlive)
  rcases mem_waiting.mp ho with ho | ho | ho
  · exact mem_orderIds.mpr ⟨o, ho, hid⟩
  · rw [hidle.1] at ho
    cases ho
  · rw [hidle.2] at ho
    cases ho

/-! ## Two runs -/

/-- An order of `handle_data` whose instrument is targeted again by `after_trading_end`. -/
def supersededOrder : Backtest ℕ :=
  shareTest (BrokerConfig.create 1 0 0 fun _ => none) 1000 [(100, 0)] false fun name _ =>
    if name = "handle_data" then
      [.order "USStock:X" .targetQuantity (.number 1) { clientOrderId := some "a" }]
    else if name = "after_trading_end" then
      [.order "USStock:X" .targetQuantity (.number 2) { clientOrderId := some "b" }]
    else []

def supersededRun : Run := (runAfter supersededOrder (day 0)).get (by decide +kernel)

/-- The merge drops the first order, whose status stays `queued`. -/
theorem superseded_order_stays_live :
    ∃ run, supersededOrder.Reaches (day 0) run ∧ run.broker.bankrupt = false ∧
      LiveIn run.context "a" ∧ "a" ∉ orderIds run.pending := by
  refine ⟨supersededRun, reaches_of_runAfter (by simp [supersededRun]), by decide +kernel, ?_,
    by decide +kernel⟩
  refine ⟨(supersededRun.context.orderStatuses.get? "a").get (by decide +kernel), by simp, ?_⟩
  decide +kernel

def restingOrder : Backtest ℕ :=
  shareTest (BrokerConfig.create 1 0 0 fun _ => none) 1000 [(100, 0), (100, 0)] false
    fun name n =>
      if n = 0 ∧ name = "handle_data" then
        [.order "USStock:X" .quantity (.number 1)
          { clientOrderId := some "a", orderType := some "limit",
            limitPrice := some (.number 50) }]
      else []

def restingRun : Run := (runAfter restingOrder (day 1)).get (by decide +kernel)

/-- The resting order is live and pending. -/
theorem resting_order_pending :
    LiveIn restingRun.context "a" ∧ "a" ∈ orderIds restingRun.pending := by
  have hreaches : restingOrder.Reaches (day 1) restingRun :=
    reaches_of_runAfter (by simp [restingRun])
  have hlimit : ∀ d ∈ restingRun.broker.history, d.order.isLimit = true := by decide +kernel
  have hlive : LiveIn restingRun.context "a" :=
    ⟨(restingRun.context.orderStatuses.get? "a").get (by decide +kernel), by simp,
      by decide +kernel⟩
  refine ⟨hlive, live_order_pending hreaches ⟨by decide +kernel, ?_, by decide +kernel⟩ "a" hlive⟩
  intro d hd hexhausted
  have hmarket := hexhausted.1
  rw [hlimit d hd] at hmarket
  cases hmarket

end QuantDinger.Analysis
