import QuantDinger.Library.RunGroups
import QuantDinger.Model.Runner

/-!
# The compacted order ledger

The order ledger keeps one row for each run of resting polls of a client order id and one row for
every other event. The number of events, the rows of an id and the statuses read from the ledger
are those of the events themselves, whenever the statuses are read.
-/

namespace QuantDinger.Analysis

open QuantDinger.Library QuantDinger.Model

/-! ## Events -/

/-- What happens to the ledger, and the reading of the statuses. -/
inductive LedgerAction
  | append (event : OrderEvent)
  | rest (event : OrderEvent)
  | release (references : List String)
  | sync

/-- A poll of a resting order: nothing of a positive quantity is filled. -/
def IsPoll (event : OrderEvent) : Prop :=
  event.status = .deferred ∧ event.statusReason = .limitNotReached ∧ event.filledQuantity = 0 ∧
    event.commission = 0 ∧ 0 < event.requestedQuantity

namespace LedgerAction

def event? : LedgerAction → Option OrderEvent
  | append event | rest event => some event
  | release _ | sync => none

/-- The events are as `_order_event` makes them, and only polls of resting orders are coalesced. -/
def Recorded : LedgerAction → Prop
  | append event => event.resting = none
  | rest event => event.resting = none ∧ IsPoll event
  | release _ | sync => True

end LedgerAction

def ledgerStep (run : Run) : LedgerAction → Run
  | .append event =>
    { run with broker := { run.broker with ledger := run.broker.ledger.append event } }
  | .rest event =>
    { run with broker := { run.broker with ledger := run.broker.ledger.appendResting event } }
  | .release references =>
    { run with broker := { run.broker with ledger := run.broker.ledger.release references } }
  | .sync => run.syncOrderStatuses

def appended (actions : List LedgerAction) : List OrderEvent :=
  actions.filterMap LedgerAction.event?

def foldSummary (summaries : Dict String OrderStatus) (event : OrderEvent) :
    Dict String OrderStatus :=
  (Run.summarize (summaries, Dict.empty) event).1

/-- `max(1, occurrenceCount)`. -/
def rowOccurrences (row : OrderEvent) : ℕ :=
  max 1 ((row.resting.map RestingAudit.occurrenceCount).getD 0)

/-- The client order id of a row, without blanks around it. -/
def rowReference (row : OrderEvent) : String := strip row.clientOrderId

/-! ## The rows of an id -/

/-- What concerns one client order id. -/
inductive IdAction
  | own (event : OrderEvent)
  | rest (event : OrderEvent)
  | release

namespace IdAction

def joins : IdAction → IdAction → Bool
  | rest _, rest _ => true
  | _, _ => false

def poll? : IdAction → Option OrderEvent
  | rest event => some event
  | own _ | release => none

end IdAction

def idAction (reference : String) : LedgerAction → Option IdAction
  | .append event => if rowReference event = reference then some (.own event) else none
  | .rest event => if rowReference event = reference then some (.rest event) else none
  | .release references => if reference ∈ references.map strip then some .release else none
  | .sync => none

/-- The row of a run of resting polls: `first` and `more` after it. -/
def restingRow (first : OrderEvent) (more : List OrderEvent) : OrderEvent :=
  let last := more.getLastD first
  { first with
    requestedQuantity := last.requestedQuantity
    resting := some
      { firstEventTime := first.eventTime
        lastEventTime := last.eventTime
        lastOrderId := more.getLast?.map OrderEvent.orderId
        occurrenceCount := more.length + 1
        minRequestedQuantity :=
          (more.map OrderEvent.requestedQuantity).foldl min first.requestedQuantity
        maxRequestedQuantity :=
          (more.map OrderEvent.requestedQuantity).foldl max first.requestedQuantity } }

/-- The row of a group: a run of polls, or one event that keeps its own row. -/
def groupRow : List IdAction → Option OrderEvent
  | .own event :: _ => some event
  | .rest first :: more => some (restingRow first (more.filterMap IdAction.poll?))
  | .release :: _ | [] => none

def idActions (reference : String) (actions : List LedgerAction) : List IdAction :=
  actions.filterMap (idAction reference)

/-- The rows an id has: one for each maximal run of resting polls and for each other event. -/
def idRows (reference : String) (actions : List LedgerAction) : List OrderEvent :=
  ((idActions reference actions).splitBy IdAction.joins).filterMap groupRow

/-- The ledger after some actions encodes the events appended. -/
structure FaithfulLedger (actions : List LedgerAction) (run : Run) : Prop where
  occurrences : (run.broker.ledger.orderLedger.map rowOccurrences).sum = (appended actions).length
  rows : ∀ reference, reference ≠ "" →
    run.broker.ledger.orderLedger.filter (rowReference · = reference) = idRows reference actions
  nameless : run.broker.ledger.orderLedger.filter (rowReference · = "") =
    (appended actions).filter (rowReference · = "")
  /-- The statuses read next are those of all events. -/
  statuses : ∀ reference, (ledgerStep run .sync).summaries.get? reference =
    ((appended actions).foldl foldSummary Dict.empty).get? reference

/-! ## Rows of polls -/

theorem foldl_min_pos {values : List ℚ} {first : ℚ} (hfirst : 0 < first)
    (hvalues : ∀ value ∈ values, 0 < value) : 0 < values.foldl min first := by
  induction values generalizing first with
  | nil => exact hfirst
  | cons value values ih =>
    exact ih (lt_min hfirst (hvalues value List.mem_cons_self))
      fun v hv => hvalues v (List.mem_cons_of_mem _ hv)

theorem foldl_max_pos {first : ℚ} (hfirst : 0 < first) (values : List ℚ) :
    0 < values.foldl max first := by
  induction values generalizing first with
  | nil => exact hfirst
  | cons value values ih => exact ih (lt_max_of_lt_left hfirst)

theorem coalesce_restingRow {first event : OrderEvent} {more : List OrderEvent}
    (hfirst : 0 < first.requestedQuantity) (hmore : ∀ e ∈ more, 0 < e.requestedQuantity) :
    Ledger.coalesce (restingRow first more) event = restingRow first (more ++ [event]) := by
  have hvalues : ∀ value ∈ more.map OrderEvent.requestedQuantity, 0 < value := by
    intro value hvalue
    obtain ⟨e, he, rfl⟩ := List.mem_map.1 hvalue
    exact hmore e he
  have hmin := (foldl_min_pos hfirst hvalues).ne'
  have hmax := (foldl_max_pos hfirst (more.map OrderEvent.requestedQuantity)).ne'
  unfold Ledger.coalesce restingRow
  simp only [Option.getD_some, List.map_append, List.map_cons, List.map_nil, List.foldl_append,
    List.foldl_cons, List.foldl_nil, List.length_append, List.length_cons, List.length_nil,
    Nat.add_eq_zero_iff, one_ne_zero, and_false, if_false, orElse, List.getLastD_concat,
    List.getLast?_concat, Option.map_some]
  rw [if_pos hmin, if_pos hmax]

/-! ## The rows after one more action -/

section

variable {reference : String} {actions : List LedgerAction} {action : LedgerAction}

theorem idActions_concat : idActions reference (actions ++ [action]) =
    idActions reference actions ++ (idAction reference action).toList := by
  unfold idActions
  rw [List.filterMap_append]
  cases h : idAction reference action <;> simp [h]

theorem idRows_of_none (h : idAction reference action = none) :
    idRows reference (actions ++ [action]) = idRows reference actions := by
  unfold idRows
  rw [idActions_concat, h, Option.toList_none, List.append_nil]

theorem idRows_of_new {call : IdAction} (h : idAction reference action = some call)
    (hnew : ∀ y ∈ (idActions reference actions).getLast?, y.joins call = false) :
    idRows reference (actions ++ [action]) =
      idRows reference actions ++ (groupRow [call]).toList := by
  unfold idRows
  rw [idActions_concat, h, Option.toList_some, splitBy_concat_new hnew, List.filterMap_append]
  cases hrow : groupRow [call] <;> simp [hrow]

theorem group_of_polls {group : List IdAction} {last : OrderEvent}
    (hchain : group.IsChain fun a b => a.joins b) (hlast : group.getLast? = some (.rest last)) :
    ∃ (first : OrderEvent) (more : List OrderEvent), group = .rest first :: more.map .rest := by
  induction group with
  | nil => exact nomatch hlast
  | cons call group ih =>
    cases group with
    | nil =>
      rw [List.getLast?_singleton, Option.some.injEq] at hlast
      exact ⟨last, [], by rw [hlast]; rfl⟩
    | cons next group =>
      rw [List.getLast?_cons_cons] at hlast
      obtain ⟨hjoin, hrest⟩ := List.isChain_cons_cons.1 hchain
      obtain ⟨first, more, hgroup⟩ := ih hrest hlast
      rw [List.cons.injEq] at hgroup
      rw [hgroup.1, hgroup.2]
      cases call with
      | rest event => exact ⟨event, first :: more, rfl⟩
      | own event => exact nomatch hjoin
      | release => exact nomatch hjoin

theorem idRows_of_poll {event last : OrderEvent}
    (h : idAction reference action = some (.rest event))
    (hlast : (idActions reference actions).getLast? = some (.rest last))
    (hpositive : ∀ e, IdAction.rest e ∈ idActions reference actions → 0 < e.requestedQuantity) :
    ∃ init row, idRows reference actions = init ++ [row] ∧
      idRows reference (actions ++ [action]) = init ++ [Ledger.coalesce row event] := by
  obtain ⟨groups, group, hsplit, hgroupLast, hjoined⟩ :=
    splitBy_concat_joined (r := IdAction.joins) (x := .rest event) hlast rfl
  have hmem : ∀ call ∈ group, call ∈ idActions reference actions := by
    intro call hcall
    rw [← List.flatten_splitBy IdAction.joins (idActions reference actions), hsplit,
      List.flatten_append, List.flatten_singleton]
    exact List.mem_append_right _ hcall
  have hchain : group.IsChain fun a b => a.joins b := by
    apply List.isChain_of_mem_splitBy (l := idActions reference actions)
    rw [hsplit]
    exact List.mem_append_right _ List.mem_cons_self
  obtain ⟨first, more, hgroup⟩ := group_of_polls hchain hgroupLast
  have hpolls : ∀ es : List OrderEvent, (es.map IdAction.rest).filterMap IdAction.poll? = es := by
    intro es
    rw [List.filterMap_map]
    exact List.filterMap_some
  refine ⟨groups.filterMap groupRow, restingRow first more, ?_, ?_⟩
  · unfold idRows
    rw [hsplit, List.filterMap_append, hgroup]
    simp only [List.filterMap_cons, List.filterMap_nil, groupRow, hpolls]
  · unfold idRows
    rw [idActions_concat, h, Option.toList_some, hjoined, List.filterMap_append, hgroup,
      coalesce_restingRow]
    · have hend : more.map IdAction.rest ++ [IdAction.rest event] =
          (more ++ [event]).map IdAction.rest := by simp
      simp only [List.filterMap_cons, List.filterMap_nil, List.cons_append, groupRow, hend, hpolls]
    · exact hpositive first (hmem _ (by rw [hgroup]; exact List.mem_cons_self))
    · intro e he
      refine hpositive e (hmem _ ?_)
      rw [hgroup]
      exact List.mem_cons_of_mem _ (List.mem_map_of_mem he)

end

/-! ## Statuses -/

section

variable {reference : String} {event : OrderEvent} {d d' : Dict String OrderStatus}

/-- The status of an id after one more of its events. -/
def summaryAfter (reference : String) (current : Option OrderStatus) (event : OrderEvent) :
    OrderStatus :=
  let current := current.getD { clientOrderId := reference, status := .unknown }
  { current with
    filledQuantity := some (current.filledQuantity.getD 0 + max 0 event.filledQuantity)
    filledNotional :=
      some (current.filledNotional.getD 0 + max 0 event.filledQuantity * max 0 event.price)
    fee := some (current.fee.getD 0 + max 0 event.commission)
    status := event.status.state
    reason := some (.event event.statusReason) }

theorem get?_foldSummary (d : Dict String OrderStatus) (event : OrderEvent) (reference : String) :
    (foldSummary d event).get? reference =
      if rowReference event = reference ∧ reference ≠ "" then
        some (summaryAfter reference (d.get? reference) event)
      else d.get? reference := by
  unfold foldSummary Run.summarize
  dsimp only
  by_cases hnameless : strip event.clientOrderId = ""
  · rw [if_pos hnameless, if_neg]
    rintro ⟨heq, hne⟩
    exact hne (heq.symm.trans hnameless)
  · rw [if_neg hnameless, Dict.get?_set]
    by_cases heq : reference = strip event.clientOrderId
    · subst heq
      rw [if_pos rfl, if_pos ⟨rfl, hnameless⟩]
      rfl
    · rw [if_neg heq, if_neg fun hboth => heq hboth.1.symm]

theorem get?_foldSummary_congr (h : d.get? reference = d'.get? reference) :
    (foldSummary d event).get? reference = (foldSummary d' event).get? reference := by
  rw [get?_foldSummary, get?_foldSummary, h]

/-- INTERNAL: what the summaries read of a row. -/
def summaryKey (row : OrderEvent) :
    String × Amount × Amount × Amount × EventStatus × StatusReason :=
  (row.clientOrderId, row.filledQuantity, row.price, row.commission, row.status, row.statusReason)

theorem foldSummary_of_key {row row' : OrderEvent} (h : summaryKey row = summaryKey row') :
    foldSummary d row = foldSummary d row' := by
  simp only [summaryKey, Prod.mk.injEq] at h
  obtain ⟨hid, hfilled, hprice, hfee, hstatus, hreason⟩ := h
  unfold foldSummary Run.summarize
  rw [hid, hfilled, hprice, hfee, hstatus, hreason]

theorem foldl_foldSummary_of_keys {rows rows' : List OrderEvent}
    (h : rows.map summaryKey = rows'.map summaryKey) :
    rows.foldl foldSummary d = rows'.foldl foldSummary d := by
  induction rows generalizing rows' d with
  | nil =>
    cases rows' with
    | nil => rfl
    | cons row' rows' => exact nomatch h
  | cons row rows ih =>
    cases rows' with
    | nil => exact nomatch h
    | cons row' rows' =>
      rw [List.map_cons, List.map_cons, List.cons.injEq] at h
      rw [List.foldl_cons, List.foldl_cons, foldSummary_of_key h.1]
      exact ih h.2

/-- A status that a resting poll leaves as it is. -/
structure Polled (status : OrderStatus) : Prop where
  deferred : status.status = .deferred
  resting : status.reason = some (.event .limitNotReached)
  quantity : status.filledQuantity.isSome = true
  notional : status.filledNotional.isSome = true
  fee : status.fee.isSome = true

theorem summaryAfter_polled (h : IsPoll event) (current : Option OrderStatus) :
    Polled (summaryAfter reference current event) := by
  unfold summaryAfter
  rw [h.1, h.2.1]
  exact ⟨rfl, rfl, rfl, rfl, rfl⟩

theorem summaryAfter_of_polled {status : OrderStatus} (hstatus : Polled status)
    (h : IsPoll event) : summaryAfter reference (some status) event = status := by
  obtain ⟨quantity, hquantity⟩ := Option.isSome_iff_exists.1 hstatus.quantity
  obtain ⟨notional, hnotional⟩ := Option.isSome_iff_exists.1 hstatus.notional
  obtain ⟨fee, hfee⟩ := Option.isSome_iff_exists.1 hstatus.fee
  cases status with
  | mk id state filled value cost note =>
    obtain ⟨rfl, rfl, _, _, _⟩ := hstatus
    dsimp only at hquantity hnotional hfee
    subst hquantity hnotional hfee
    unfold summaryAfter
    rw [h.1, h.2.1, h.2.2.1, h.2.2.2.1]
    simp [EventStatus.state]

end

/-! ## The ledger -/

/-- The row of an open window: the last one of its id.

INTERNAL: what makes a row fit for one more poll. -/
def OpenRow (rows : List OrderEvent) (reference : String) (index : ℕ) : Prop :=
  ∃ row, rows[index]? = some row ∧ rowReference row = reference ∧ row.status = .deferred ∧
    row.statusReason = .limitNotReached ∧
    (∃ audit, row.resting = some audit ∧ audit.occurrenceCount ≠ 0) ∧
    ∀ j, index < j → ∀ x, rows[j]? = some x → rowReference x ≠ reference

/-- The ledger after some actions.

INTERNAL: the invariant of the ledger. -/
structure LedgerOf (actions : List LedgerAction) (ledger : Ledger) : Prop where
  occurrences : (ledger.orderLedger.map rowOccurrences).sum = (appended actions).length
  rows : ∀ reference, reference ≠ "" →
    ledger.orderLedger.filter (rowReference · = reference) = idRows reference actions
  nameless : ledger.orderLedger.filter (rowReference · = "") =
    (appended actions).filter (rowReference · = "")
  opened : ∀ reference, reference ≠ "" → ∀ index,
    ledger.restingDeferredEvents.get? reference = some index →
      OpenRow ledger.orderLedger reference index ∧
      (∃ last, (idActions reference actions).getLast? = some (.rest last)) ∧
      ∃ status, ((appended actions).foldl foldSummary Dict.empty).get? reference = some status ∧
        Polled status
  closed : ∀ reference, reference ≠ "" → ledger.restingDeferredEvents.get? reference = none →
    ∀ event, ∀ y ∈ (idActions reference actions).getLast?, y.joins (.rest event) = false
  folded : ∀ reference, (ledger.orderLedger.foldl foldSummary Dict.empty).get? reference =
    ((appended actions).foldl foldSummary Dict.empty).get? reference

section

variable {actions : List LedgerAction} {ledger : Ledger} {event : OrderEvent}

theorem appended_concat (actions : List LedgerAction) (action : LedgerAction) :
    appended (actions ++ [action]) = appended actions ++ action.event?.toList := by
  unfold appended
  rw [List.filterMap_append]
  cases h : action.event? <;> simp [h]

theorem idActions_getLast {reference : String} {action : LedgerAction} {call : IdAction}
    (h : idAction reference action = some call) :
    (idActions reference (actions ++ [action])).getLast? = some call := by
  rw [idActions_concat, h, Option.toList_some, List.getLast?_concat]

theorem idActions_of_none {reference : String} {action : LedgerAction}
    (h : idAction reference action = none) :
    idActions reference (actions ++ [action]) = idActions reference actions := by
  rw [idActions_concat, h, Option.toList_none, List.append_nil]

theorem OpenRow.concat {rows : List OrderEvent} {reference : String} {index : ℕ}
    (h : OpenRow rows reference index) (hother : rowReference event ≠ reference) :
    OpenRow (rows ++ [event]) reference index := by
  obtain ⟨row, hrow, hname, hstatus, hreason, haudit, hlast⟩ := h
  have hlt := (List.getElem?_eq_some_iff.1 hrow).1
  refine ⟨row, by rw [List.getElem?_append_left hlt, hrow], hname, hstatus, hreason, haudit, ?_⟩
  intro j hj x hx
  by_cases hin : j < rows.length
  · rw [List.getElem?_append_left hin] at hx
    exact hlast j hj x hx
  · have hbound := (List.getElem?_eq_some_iff.1 hx).1
    rw [List.length_append, List.length_singleton] at hbound
    have hend : j = rows.length := by omega
    rw [hend, List.getElem?_concat_length, Option.some.injEq] at hx
    rw [← hx]
    exact hother

theorem LedgerOf.append (h : LedgerOf actions ledger) (hplain : event.resting = none) :
    LedgerOf (actions ++ [.append event]) (ledger.append event) := by
  have hrows : (ledger.append event).orderLedger = ledger.orderLedger ++ [event] := rfl
  have happended : appended (actions ++ [.append event]) = appended actions ++ [event] :=
    appended_concat _ _
  have hwindow : ∀ reference, reference ≠ "" →
      (ledger.append event).restingDeferredEvents.get? reference =
        if rowReference event = reference then none
        else ledger.restingDeferredEvents.get? reference := by
    intro reference hne
    unfold Ledger.append
    dsimp only
    by_cases heq : rowReference event = reference
    · have hnamed : strip event.clientOrderId ≠ "" := fun h => hne (heq.symm.trans h)
      rw [if_pos hnamed, if_pos heq, Dict.get?_erase]
      exact if_pos heq.symm
    · rw [if_neg heq]
      split_ifs with hnamed
      · rw [Dict.get?_erase]
        exact if_neg (Ne.symm heq)
      · rfl
  have hown : ∀ reference, rowReference event = reference →
      idAction reference (.append event) = some (.own event) := fun _ heq => if_pos heq
  have hother : ∀ reference, rowReference event ≠ reference →
      idAction reference (.append event) = none := fun _ heq => if_neg heq
  constructor
  · have hone : rowOccurrences event = 1 := by
      unfold rowOccurrences
      rw [hplain]
      rfl
    rw [hrows, happended, List.map_append, List.sum_append, h.occurrences, List.length_append]
    simp [hone]
  · intro reference hne
    rw [hrows, List.filter_append, h.rows reference hne]
    by_cases heq : rowReference event = reference
    · rw [idRows_of_new (hown reference heq)]
      · rw [List.filter_cons_of_pos (by simpa using heq)]
        rfl
      · intro y _
        cases y <;> rfl
    · rw [idRows_of_none (hother reference heq), List.filter_cons_of_neg (by simpa using heq),
        List.filter_nil, List.append_nil]
  · rw [hrows, happended, List.filter_append, List.filter_append, h.nameless]
  · intro reference hne index hindex
    rw [hwindow reference hne] at hindex
    split_ifs at hindex with heq
    obtain ⟨hopen, hlast, status, hstatus, hpolled⟩ := h.opened reference hne index hindex
    refine ⟨hopen.concat heq, ?_, status, ?_, hpolled⟩
    · rw [idActions_of_none (hother reference heq)]
      exact hlast
    · rw [happended, List.foldl_append, List.foldl_cons, List.foldl_nil, get?_foldSummary,
        if_neg fun hboth => heq hboth.1]
      exact hstatus
  · intro reference hne hnone e
    rw [hwindow reference hne] at hnone
    by_cases heq : rowReference event = reference
    · rw [idActions_getLast (hown reference heq)]
      intro y hy
      rw [Option.mem_some_iff] at hy
      rw [← hy]
      rfl
    · rw [if_neg heq] at hnone
      rw [idActions_of_none (hother reference heq)]
      exact h.closed reference hne hnone e
  · intro reference
    rw [hrows, happended, List.foldl_append, List.foldl_append]
    exact get?_foldSummary_congr (h.folded reference)

theorem LedgerOf.rest_new (h : LedgerOf actions ledger) (hpoll : IsPoll event)
    (hnamed : rowReference event ≠ "")
    (hnone : ledger.restingDeferredEvents.get? (rowReference event) = none) :
    LedgerOf (actions ++ [.rest event])
      { orderLedger := ledger.orderLedger ++ [Ledger.openWindow event]
        restingDeferredEvents := ledger.restingDeferredEvents.set (rowReference event)
          ledger.orderLedger.length } := by
  have happended : appended (actions ++ [.rest event]) = appended actions ++ [event] :=
    appended_concat _ _
  have hown : idAction (rowReference event) (.rest event) = some (.rest event) := if_pos rfl
  have hother : ∀ reference, rowReference event ≠ reference →
      idAction reference (.rest event) = none := fun _ heq => if_neg heq
  have hname : rowReference (Ledger.openWindow event) = rowReference event := rfl
  constructor
  · have hone : rowOccurrences (Ledger.openWindow event) = 1 := rfl
    rw [happended, List.map_append, List.sum_append, h.occurrences, List.length_append]
    simp [hone]
  · intro reference hne
    rw [List.filter_append, h.rows reference hne]
    by_cases heq : rowReference event = reference
    · subst heq
      rw [idRows_of_new hown (h.closed _ hne hnone event)]
      rw [List.filter_cons_of_pos (by simpa using hname)]
      rfl
    · rw [idRows_of_none (hother reference heq),
        List.filter_cons_of_neg (by rw [hname]; simpa using heq), List.filter_nil,
        List.append_nil]
  · rw [happended, List.filter_append, List.filter_append, h.nameless]
    rw [List.filter_cons_of_neg (by rw [hname]; simpa using hnamed),
      List.filter_cons_of_neg (by simpa using hnamed), List.filter_nil]
  · intro reference hne index hindex
    dsimp only at hindex ⊢
    rw [Dict.get?_set] at hindex
    split_ifs at hindex with heq
    · subst heq
      rw [Option.some.injEq] at hindex
      subst hindex
      refine ⟨⟨Ledger.openWindow event, List.getElem?_concat_length, rfl, hpoll.1, hpoll.2.1,
        ⟨_, rfl, one_ne_zero⟩, ?_⟩, ⟨event, idActions_getLast hown⟩, ?_⟩
      · intro j hj x hx
        have hbound := (List.getElem?_eq_some_iff.1 hx).1
        rw [List.length_append, List.length_singleton] at hbound
        omega
      · refine ⟨summaryAfter (rowReference event) (((appended actions).foldl foldSummary
          Dict.empty).get? (rowReference event)) event, ?_, summaryAfter_polled hpoll _⟩
        rw [happended, List.foldl_append, List.foldl_cons, List.foldl_nil, get?_foldSummary,
          if_pos ⟨rfl, hne⟩]
    · obtain ⟨hopen, hlast, status, hstatus, hpolled⟩ := h.opened reference hne index hindex
      refine ⟨hopen.concat (Ne.symm heq), ?_, status, ?_, hpolled⟩
      · rw [idActions_of_none (hother reference (Ne.symm heq))]
        exact hlast
      · rw [happended, List.foldl_append, List.foldl_cons, List.foldl_nil, get?_foldSummary,
          if_neg fun hboth => heq hboth.1.symm]
        exact hstatus
  · intro reference hne hclosed e
    dsimp only at hclosed
    rw [Dict.get?_set] at hclosed
    split_ifs at hclosed with heq
    rw [idActions_of_none (hother reference (Ne.symm heq))]
    exact h.closed reference hne hclosed e
  · intro reference
    have hkey : (ledger.orderLedger ++ [Ledger.openWindow event]).foldl foldSummary Dict.empty =
        (ledger.orderLedger ++ [event]).foldl foldSummary Dict.empty := by
      apply foldl_foldSummary_of_keys
      rw [List.map_append, List.map_append]
      rfl
    dsimp only
    rw [hkey, happended, List.foldl_append, List.foldl_append]
    exact get?_foldSummary_congr (h.folded reference)

theorem OpenRow.set_other {rows : List OrderEvent} {reference : String} {index other : ℕ}
    {row next : OrderEvent} (h : OpenRow rows reference index) (hrow : rows[other]? = some row)
    (hname : rowReference next = rowReference row) (hother : rowReference row ≠ reference) :
    OpenRow (rows.set other next) reference index := by
  obtain ⟨mine, hmine, hself, hstatus, hreason, haudit, hlast⟩ := h
  have hne : other ≠ index := by
    rintro rfl
    rw [hmine, Option.some.injEq] at hrow
    exact hother (hrow ▸ hself)
  refine ⟨mine, by rw [List.getElem?_set_ne hne, hmine], hself, hstatus, hreason, haudit, ?_⟩
  intro j hj x hx
  by_cases hsame : other = j
  · have hlt := (List.getElem?_eq_some_iff.1 hrow).1
    rw [← hsame, List.getElem?_set_self hlt, Option.some.injEq] at hx
    rw [← hx, hname]
    exact hother
  · rw [List.getElem?_set_ne hsame] at hx
    exact hlast j hj x hx

theorem rowOccurrences_coalesce {row : OrderEvent} {audit : RestingAudit}
    (haudit : row.resting = some audit) (hcount : audit.occurrenceCount ≠ 0) :
    rowOccurrences (Ledger.coalesce row event) = rowOccurrences row + 1 := by
  unfold rowOccurrences Ledger.coalesce
  rw [haudit]
  simp only [Option.getD_some, Option.map_some, if_neg hcount]
  omega

theorem positive_of_recorded {reference : String}
    (hrecorded : ∀ action ∈ actions, action.Recorded) {poll : OrderEvent}
    (hpoll : IdAction.rest poll ∈ idActions reference actions) : 0 < poll.requestedQuantity := by
  obtain ⟨action, haction, hcall⟩ := List.mem_filterMap.1 hpoll
  cases action with
  | rest event =>
    have hif : (if rowReference event = reference then some (IdAction.rest event) else none) =
        some (.rest poll) := hcall
    split_ifs at hif
    cases hif
    exact (hrecorded _ haction).2.2.2.2.2
  | append event =>
    have hif : (if rowReference event = reference then some (IdAction.own event) else none) =
        some (.rest poll) := hcall
    split_ifs at hif
    cases hif
  | release references =>
    have hif : (if reference ∈ references.map strip then some IdAction.release else none) =
        some (.rest poll) := hcall
    split_ifs at hif
    cases hif
  | sync => exact nomatch hcall

theorem LedgerOf.rest_folded (h : LedgerOf actions ledger)
    (hrecorded : ∀ action ∈ actions, action.Recorded) (hpoll : IsPoll event)
    (hnamed : rowReference event ≠ "") {index : ℕ} {row : OrderEvent}
    (hindex : ledger.restingDeferredEvents.get? (rowReference event) = some index)
    (hrow : ledger.orderLedger[index]? = some row) :
    LedgerOf (actions ++ [.rest event])
      { ledger with orderLedger := ledger.orderLedger.set index (Ledger.coalesce row event) } := by
  have happended : appended (actions ++ [.rest event]) = appended actions ++ [event] :=
    appended_concat _ _
  have hown : idAction (rowReference event) (.rest event) = some (.rest event) := if_pos rfl
  have hother : ∀ reference, rowReference event ≠ reference →
      idAction reference (.rest event) = none := fun _ heq => if_neg heq
  have hname : rowReference (Ledger.coalesce row event) = rowReference row := rfl
  obtain ⟨hopen, ⟨last, hlast⟩, status, hstatus, hpolled⟩ := h.opened _ hnamed index hindex
  obtain ⟨mine, hmine, hself, hdeferred, hreason, ⟨audit, haudit, hcount⟩, hafter⟩ := hopen
  have hsame : mine = row := Option.some.inj (hmine.symm.trans hrow)
  subst hsame
  obtain ⟨hlt, hget⟩ := List.getElem?_eq_some_iff.1 hmine
  obtain ⟨pre, post, hsplit, hlength, hset⟩ :=
    @List.exists_of_set _ _ (Ledger.coalesce mine event) _ hlt
  rw [hget] at hsplit
  have hpost : ∀ x ∈ post, rowReference x ≠ rowReference event := by
    intro x hx
    obtain ⟨k, hk, hkx⟩ := List.mem_iff_getElem.1 hx
    refine hafter (index + 1 + k) (by omega) x ?_
    rw [hsplit, List.getElem?_append_right (by omega), hlength,
      show index + 1 + k - index = k + 1 by omega, List.getElem?_cons_succ,
      List.getElem?_eq_getElem hk, hkx]
  have hkeys : (ledger.orderLedger.set index (Ledger.coalesce mine event)).map summaryKey =
      ledger.orderLedger.map summaryKey := by
    rw [hset, hsplit, List.map_append, List.map_append, List.map_cons, List.map_cons]
    rfl
  constructor
  · have hsum := h.occurrences
    dsimp only
    rw [hset, happended, List.length_append, ← hsum]
    rw [hsplit]
    simp only [List.map_append, List.map_cons, List.sum_append, List.sum_cons,
      rowOccurrences_coalesce haudit hcount, List.length_singleton]
    omega
  · intro reference hne
    have hrows := h.rows reference hne
    dsimp only
    rw [hset]
    rw [hsplit] at hrows
    by_cases heq : rowReference event = reference
    · subst heq
      have hnone : post.filter (rowReference · = rowReference event) = [] :=
        List.filter_eq_nil_iff.2 fun x hx => by simpa using hpost x hx
      rw [List.filter_append, List.filter_cons_of_pos (by simpa using hself), hnone] at hrows
      rw [List.filter_append,
        List.filter_cons_of_pos (by rw [hname]; simpa using hself), hnone]
      obtain ⟨init, final, hbefore, hthen⟩ :=
        idRows_of_poll hown hlast fun _ => positive_of_recorded hrecorded
      rw [hbefore] at hrows
      obtain ⟨hinit, hfinal⟩ := List.append_inj' hrows rfl
      rw [hthen, hinit, (List.cons.inj hfinal).1]
    · have hskip : ¬ rowReference mine = reference := fun hmine => heq (hself.symm.trans hmine)
      rw [List.filter_append, List.filter_cons_of_neg (by simpa using hskip)] at hrows
      rw [List.filter_append, List.filter_cons_of_neg (by rw [hname]; simpa using hskip), hrows,
        idRows_of_none (hother reference heq)]
  · have hrows := h.nameless
    have hskip : ¬ rowReference mine = "" := fun hmine => hnamed (hself.symm.trans hmine)
    dsimp only
    rw [hset]
    rw [hsplit, List.filter_append, List.filter_cons_of_neg (by simpa using hskip)] at hrows
    rw [List.filter_append, List.filter_cons_of_neg (by rw [hname]; simpa using hskip), hrows,
      happended, List.filter_append, List.filter_cons_of_neg (by simpa using hnamed),
      List.filter_nil, List.append_nil]
  · intro reference hne index' hindex'
    dsimp only at hindex' ⊢
    by_cases heq : rowReference event = reference
    · subst heq
      rw [hindex, Option.some.injEq] at hindex'
      subst hindex'
      refine ⟨⟨Ledger.coalesce mine event, List.getElem?_set_self hlt, hself, hdeferred, hreason,
        ⟨_, rfl, Nat.succ_ne_zero _⟩, ?_⟩, ⟨event, idActions_getLast hown⟩, status, ?_, hpolled⟩
      · intro j hj x hx
        rw [List.getElem?_set_ne (by omega)] at hx
        exact hafter j hj x hx
      · rw [happended, List.foldl_append, List.foldl_cons, List.foldl_nil, get?_foldSummary,
          if_pos ⟨rfl, hne⟩, hstatus, summaryAfter_of_polled hpolled hpoll]
    · obtain ⟨hopen', hlast', status', hstatus', hpolled'⟩ := h.opened reference hne index' hindex'
      refine ⟨hopen'.set_other hmine hname (hself ▸ heq), ?_, status', ?_, hpolled'⟩
      · rw [idActions_of_none (hother reference heq)]
        exact hlast'
      · rw [happended, List.foldl_append, List.foldl_cons, List.foldl_nil, get?_foldSummary,
          if_neg fun hboth => heq hboth.1]
        exact hstatus'
  · intro reference hne hclosed e
    dsimp only at hclosed
    have heq : rowReference event ≠ reference := by
      rintro rfl
      rw [hindex] at hclosed
      exact nomatch hclosed
    rw [idActions_of_none (hother reference heq)]
    exact h.closed reference hne hclosed e
  · intro reference
    dsimp only
    rw [foldl_foldSummary_of_keys hkeys, h.folded reference, happended, List.foldl_append,
      List.foldl_cons, List.foldl_nil, get?_foldSummary]
    split_ifs with hboth
    · obtain ⟨rfl, _⟩ := hboth
      rw [hstatus, summaryAfter_of_polled hpolled hpoll]
    · rfl

theorem appendResting_new (hnamed : rowReference event ≠ "")
    (hnone : ledger.restingDeferredEvents.get? (rowReference event) = none) :
    ledger.appendResting event =
      { orderLedger := ledger.orderLedger ++ [Ledger.openWindow event]
        restingDeferredEvents := ledger.restingDeferredEvents.set (rowReference event)
          ledger.orderLedger.length } := by
  unfold rowReference at hnamed hnone
  unfold Ledger.appendResting
  dsimp only
  rw [if_neg hnamed, hnone]
  rfl

theorem appendResting_folded {index : ℕ} {row : OrderEvent} (hnamed : rowReference event ≠ "")
    (hindex : ledger.restingDeferredEvents.get? (rowReference event) = some index)
    (hrow : ledger.orderLedger[index]? = some row)
    (hdeferred : row.status = .deferred ∧ row.statusReason = .limitNotReached) :
    ledger.appendResting event =
      { ledger with orderLedger := ledger.orderLedger.set index (Ledger.coalesce row event) } := by
  unfold rowReference at hnamed hindex
  unfold Ledger.appendResting
  dsimp only
  rw [if_neg hnamed, hindex, Option.bind_some, hrow, Option.bind_some, if_pos hdeferred]

theorem LedgerOf.rest (h : LedgerOf actions ledger)
    (hrecorded : ∀ action ∈ actions, action.Recorded) (hplain : event.resting = none)
    (hpoll : IsPoll event) : LedgerOf (actions ++ [.rest event]) (ledger.appendResting event) := by
  by_cases hnamed : rowReference event = ""
  · -- a poll without an id keeps its own row
    have happended : appended (actions ++ [.rest event]) = appended actions ++ [event] :=
      appended_concat _ _
    have hother : ∀ reference, reference ≠ "" → rowReference event ≠ reference :=
      fun reference hne heq => hne (heq.symm.trans hnamed)
    have hskip : ∀ reference, reference ≠ "" → idAction reference (.rest event) = none :=
      fun reference hne => if_neg (hother reference hne)
    have hledger : ledger.appendResting event =
        { ledger with orderLedger := ledger.orderLedger ++ [event] } := if_pos hnamed
    rw [hledger]
    constructor
    · have hone : rowOccurrences event = 1 := by
        unfold rowOccurrences
        rw [hplain]
        rfl
      rw [happended, List.map_append, List.sum_append, h.occurrences, List.length_append]
      simp [hone]
    · intro reference hne
      rw [List.filter_append, h.rows reference hne, idRows_of_none (hskip reference hne),
        List.filter_cons_of_neg (by simpa using hother reference hne), List.filter_nil,
        List.append_nil]
    · rw [happended, List.filter_append, List.filter_append, h.nameless]
    · intro reference hne index hindex
      obtain ⟨hopen, hlast, status, hstatus, hpolled⟩ := h.opened reference hne index hindex
      refine ⟨hopen.concat (hother reference hne), ?_, status, ?_, hpolled⟩
      · rw [idActions_of_none (hskip reference hne)]
        exact hlast
      · rw [happended, List.foldl_append, List.foldl_cons, List.foldl_nil, get?_foldSummary,
          if_neg fun hboth => hother reference hne hboth.1]
        exact hstatus
    · intro reference hne hclosed e
      rw [idActions_of_none (hskip reference hne)]
      exact h.closed reference hne hclosed e
    · intro reference
      rw [happended, List.foldl_append, List.foldl_append]
      exact get?_foldSummary_congr (h.folded reference)
  · cases hwindow : ledger.restingDeferredEvents.get? (rowReference event) with
    | none =>
      rw [appendResting_new hnamed hwindow]
      exact h.rest_new hpoll hnamed hwindow
    | some index =>
      obtain ⟨⟨row, hrow, _, hstatus, hreason, _, _⟩, _, _⟩ := h.opened _ hnamed index hwindow
      rw [appendResting_folded hnamed hwindow hrow ⟨hstatus, hreason⟩]
      exact h.rest_folded hrecorded hpoll hnamed hwindow hrow

theorem LedgerOf.release (h : LedgerOf actions ledger) (references : List String) :
    LedgerOf (actions ++ [.release references]) (ledger.release references) := by
  have happended : appended (actions ++ [.release references]) = appended actions := by
    rw [appended_concat]
    exact List.append_nil _
  have hwindow : ∀ reference, (ledger.release references).restingDeferredEvents.get? reference =
      if reference ∈ references.map strip then none
      else ledger.restingDeferredEvents.get? reference := by
    intro reference
    unfold Ledger.release
    dsimp only
    rw [← List.foldl_map (f := strip) (g := fun windows key => Dict.erase windows key),
      Dict.get?_foldl_erase]
  have hown : ∀ reference, reference ∈ references.map strip →
      idAction reference (.release references) = some .release := fun _ hmem => if_pos hmem
  have hother : ∀ reference, reference ∉ references.map strip →
      idAction reference (.release references) = none := fun _ hmem => if_neg hmem
  constructor
  · rw [happended]
    exact h.occurrences
  · intro reference hne
    by_cases hmem : reference ∈ references.map strip
    · rw [idRows_of_new (hown reference hmem)]
      · exact (h.rows reference hne).trans (List.append_nil _).symm
      · intro y _
        cases y <;> rfl
    · rw [idRows_of_none (hother reference hmem)]
      exact h.rows reference hne
  · rw [happended]
    exact h.nameless
  · intro reference hne index hindex
    rw [hwindow] at hindex
    split_ifs at hindex with hmem
    obtain ⟨hopen, hlast, status, hstatus, hpolled⟩ := h.opened reference hne index hindex
    refine ⟨hopen, ?_, status, ?_, hpolled⟩
    · rw [idActions_of_none (hother reference hmem)]
      exact hlast
    · rw [happended]
      exact hstatus
  · intro reference hne hnone e
    rw [hwindow] at hnone
    by_cases hmem : reference ∈ references.map strip
    · rw [idActions_getLast (hown reference hmem)]
      intro y hy
      rw [Option.mem_some_iff] at hy
      rw [← hy]
      rfl
    · rw [if_neg hmem] at hnone
      rw [idActions_of_none (hother reference hmem)]
      exact h.closed reference hne hnone e
  · rw [happended]
    exact h.folded

theorem LedgerOf.sync (h : LedgerOf actions ledger) : LedgerOf (actions ++ [.sync]) ledger := by
  have happended : appended (actions ++ [.sync]) = appended actions := by
    rw [appended_concat]
    exact List.append_nil _
  have hother : ∀ reference, idAction reference .sync = none := fun _ => rfl
  constructor
  · rw [happended]
    exact h.occurrences
  · intro reference hne
    rw [idRows_of_none (hother reference)]
    exact h.rows reference hne
  · rw [happended]
    exact h.nameless
  · intro reference hne index hindex
    rw [idActions_of_none (hother reference), happended]
    exact h.opened reference hne index hindex
  · intro reference hne hnone e
    rw [idActions_of_none (hother reference)]
    exact h.closed reference hne hnone e
  · rw [happended]
    exact h.folded

/-! ## The reader -/

/-- The reader has folded the rows up to its cursor.

INTERNAL: the invariant of the reader. -/
structure ReadSoFar (run : Run) : Prop where
  summaries : run.summaries =
    (run.broker.ledger.orderLedger.take run.statusCursor).foldl foldSummary Dict.empty
  inside : run.statusCursor ≤ run.broker.ledger.orderLedger.length

theorem foldl_summarize_fst (events : List OrderEvent)
    (state : Dict String OrderStatus × Dict String OrderStatus) :
    (events.foldl Run.summarize state).1 = events.foldl foldSummary state.1 := by
  induction events generalizing state with
  | nil => rfl
  | cons event events ih =>
    have hfirst : (Run.summarize state event).1 = foldSummary state.1 event := by
      unfold foldSummary Run.summarize
      dsimp only
      split_ifs <;> rfl
    rw [List.foldl_cons, List.foldl_cons, ih, hfirst]

theorem ReadSoFar.sync {run : Run} (h : ReadSoFar run) :
    run.syncOrderStatuses.summaries =
      run.broker.ledger.orderLedger.foldl foldSummary Dict.empty := by
  unfold Run.syncOrderStatuses
  dsimp only
  rw [foldl_summarize_fst, h.summaries, ← List.foldl_append, List.take_append_drop]

theorem ReadSoFar.of_rows {run : Run} (h : ReadSoFar run) {ledger' : Ledger}
    (more : List OrderEvent)
    (hrows : ledger'.orderLedger.map summaryKey =
      (run.broker.ledger.orderLedger ++ more).map summaryKey) :
    ReadSoFar { run with broker := { run.broker with ledger := ledger' } } := by
  have hlength := congrArg List.length hrows
  rw [List.length_map, List.length_map, List.length_append] at hlength
  have hinside := h.inside
  constructor
  · dsimp only
    rw [h.summaries]
    apply foldl_foldSummary_of_keys
    rw [List.map_take, List.map_take, hrows, List.map_append, List.take_append_of_le_length]
    rw [List.length_map]
    exact hinside
  · dsimp only
    omega

theorem appendResting_keys (ledger : Ledger) (event : OrderEvent) :
    ∃ more, (ledger.appendResting event).orderLedger.map summaryKey =
      (ledger.orderLedger ++ more).map summaryKey := by
  unfold Ledger.appendResting
  dsimp only
  split
  · exact ⟨[event], rfl⟩
  · split
    · rename_i index existing hwindow
      obtain ⟨index', _, hwindow⟩ := Option.bind_eq_some_iff.mp hwindow
      obtain ⟨row, hrow, hwindow⟩ := Option.bind_eq_some_iff.mp hwindow
      split_ifs at hwindow
      cases hwindow
      refine ⟨[], ?_⟩
      obtain ⟨hlt, hget⟩ := List.getElem?_eq_some_iff.1 hrow
      obtain ⟨pre, post, hsplit, _, hset⟩ :=
        @List.exists_of_set _ _ (Ledger.coalesce existing event) _ hlt
      rw [hget] at hsplit
      dsimp only
      rw [hset, List.append_nil, hsplit, List.map_append, List.map_append, List.map_cons,
        List.map_cons]
      rfl
    · refine ⟨[event], ?_⟩
      dsimp only
      rw [List.map_append, List.map_append]
      rfl

theorem ReadSoFar.step {run : Run} (h : ReadSoFar run) (action : LedgerAction) :
    ReadSoFar (ledgerStep run action) := by
  cases action with
  | append event => exact h.of_rows [event] rfl
  | rest event =>
    obtain ⟨more, hrows⟩ := appendResting_keys run.broker.ledger event
    exact h.of_rows more hrows
  | release references => exact h.of_rows [] (by rw [List.append_nil]; rfl)
  | sync =>
    constructor
    · refine h.sync.trans ?_
      unfold ledgerStep Run.syncOrderStatuses
      dsimp only
      rw [List.take_length]
    · exact le_refl _

/-! ## Runs -/

theorem ledgerStep_rest (run : Run) (event : OrderEvent) :
    (ledgerStep run (.rest event)).broker.ledger = run.broker.ledger.appendResting event := by
  unfold ledgerStep
  dsimp only

theorem LedgerOf.step {run : Run} (h : LedgerOf actions run.broker.ledger)
    (hrecorded : ∀ action ∈ actions, action.Recorded) {action : LedgerAction}
    (haction : action.Recorded) :
    LedgerOf (actions ++ [action]) (ledgerStep run action).broker.ledger := by
  cases action with
  | append event => exact h.append haction
  | rest event =>
    rw [ledgerStep_rest]
    exact h.rest hrecorded haction.1 haction.2
  | release references => exact h.release references
  | sync => exact h.sync

theorem ledgerOf_start : LedgerOf [] ⟨[], Dict.empty⟩ where
  occurrences := rfl
  rows _ _ := rfl
  nameless := rfl
  opened _ _ _ hindex := nomatch hindex
  closed _ _ _ _ _ hy := nomatch hy
  folded _ := rfl

theorem ledger_run (initialCapital : Amount) (actions : List LedgerAction)
    (hrecorded : ∀ action ∈ actions, action.Recorded) :
    LedgerOf actions (actions.foldl ledgerStep (Run.create initialCapital)).broker.ledger ∧
      ReadSoFar (actions.foldl ledgerStep (Run.create initialCapital)) := by
  induction actions using List.reverseRecOn with
  | nil => exact ⟨ledgerOf_start, rfl, le_refl 0⟩
  | append_singleton actions action ih =>
    have hbefore : ∀ a ∈ actions, a.Recorded := fun a ha =>
      hrecorded a (List.mem_append_left _ ha)
    obtain ⟨hledger, hread⟩ := ih hbefore
    rw [List.foldl_append, List.foldl_cons, List.foldl_nil]
    exact ⟨hledger.step hbefore (hrecorded action (List.mem_append_right _ List.mem_cons_self)),
      hread.step action⟩

/-- The ledger encodes the events appended, and its statuses are theirs, however the appending, the
releasing and the reading are mixed. -/
theorem ledger_faithful (initialCapital : Amount) (actions : List LedgerAction)
    (hrecorded : ∀ action ∈ actions, action.Recorded) :
    FaithfulLedger actions (actions.foldl ledgerStep (Run.create initialCapital)) := by
  obtain ⟨hledger, hread⟩ := ledger_run initialCapital actions hrecorded
  refine ⟨hledger.occurrences, hledger.rows, hledger.nameless, ?_⟩
  intro reference
  have hsync : (ledgerStep (actions.foldl ledgerStep (Run.create initialCapital)) .sync).summaries =
      _ := hread.sync
  rw [hsync]
  exact hledger.folded reference

/-- Two polls read in between, a release, a third poll and a fill.

INTERNAL: an instance of the theorem. -/
def polledActions : List LedgerAction :=
  let order (attempt : ℕ) (status : EventStatus) (reason : StatusReason) (filled : Amount) :
      OrderEvent :=
    { orderId := (0, attempt), clientOrderId := "resting-buy", symbol := "USStock:AAPL",
      positionSide := none, kind := .value, value := 95, reason := "", status := status,
      statusReason := reason, signalTime := 0, eventTime := attempt, attempt := attempt,
      requestedQuantity := 1, filledQuantity := filled, price := 95 }
  [.rest (order 1 .deferred .limitNotReached 0), .sync,
    .rest (order 2 .deferred .limitNotReached 0), .release ["resting-buy"],
    .rest (order 3 .deferred .limitNotReached 0), .append (order 4 .filled .filled 1)]

theorem polled_faithful :
    FaithfulLedger polledActions (polledActions.foldl ledgerStep (Run.create 1000)) := by
  refine ledger_faithful 1000 polledActions ?_
  intro action haction
  simp only [polledActions, List.mem_cons, List.not_mem_nil, or_false] at haction
  rcases haction with rfl | rfl | rfl | rfl | rfl | rfl
  · exact ⟨rfl, rfl, rfl, rfl, rfl, one_pos⟩
  · trivial
  · exact ⟨rfl, rfl, rfl, rfl, rfl, one_pos⟩
  · trivial
  · exact ⟨rfl, rfl, rfl, rfl, rfl, one_pos⟩
  · rfl

/-! ## What the broker appends -/

theorem decideOrder_resting_pos {config : BrokerConfig} {account : Account} {order : OrderIntent}
    {bar : Option Bar} {openPrice equity requested : Amount}
    (h : decideOrder config account order bar openPrice equity = .resting requested) :
    0 < requested := by
  unfold decideOrder at h
  dsimp only at h
  by_cases hmet : (sizeOrder config account order openPrice equity).alreadyMet order = true
  · rw [if_pos hmet] at h
    exact nomatch h
  · rw [if_neg hmet] at h
    have hlarge : ¬ |(sizeOrder config account order openPrice equity).requestedDelta| ≤
        1 / 10 ^ 12 := by
      intro hsmall
      apply hmet
      unfold Sizing.alreadyMet
      simp only [decide_eq_true hsmall, Bool.or_true, Bool.true_or]
    have hpos : 0 < |(sizeOrder config account order openPrice equity).requestedDelta| :=
      lt_trans (by norm_num) (not_le.1 hlarge)
    cases hprice : fillPrice config order bar openPrice
        (sizeOrder config account order openPrice equity).requestedDelta with
    | limitPriceRequired =>
      rw [hprice] at h
      exact nomatch h
    | resting =>
      rw [hprice] at h
      cases h
      exact hpos
    | fill price reference =>
      rw [hprice] at h
      dsimp only at h
      unfold planFill at h
      dsimp only at h
      split at h
      · exact nomatch h
      · split at h
        · exact nomatch h
        · split at h <;> exact nomatch h

theorem work_recorded {config : BrokerConfig} {ts : Time} {equity : Amount} {order : OrderIntent}
    {bar : Option Bar} {openPrice : Option Amount} {outcome : Outcome} (run : Run)
    (hresting : ∀ requested, outcome = .resting requested → 0 < requested) :
    ∃ action : LedgerAction, action.Recorded ∧ (ledgerStep run action).broker.ledger =
      (run.broker.work config ts equity order bar openPrice outcome).1.ledger := by
  cases outcome with
  | blocked reason =>
    exact ⟨.append (orderEvent (ts, run.broker.orderSequence + 1) order ts
      (if 4 ≤ order.attempts then .rejected else .deferred) reason 0 0 0 0), rfl, rfl⟩
  | rejected reason requested =>
    exact ⟨.append (orderEvent (ts, run.broker.orderSequence + 1) order ts .rejected reason
      requested 0 0 0), rfl, rfl⟩
  | resting requested =>
    refine ⟨.rest (orderEvent (ts, run.broker.orderSequence + 1) order ts .deferred
      .limitNotReached requested 0 order.limitPrice 0),
      ⟨rfl, rfl, rfl, rfl, rfl, hresting requested rfl⟩, ?_⟩
    rw [ledgerStep_rest]
    unfold Broker.work Broker.settle
    dsimp only
  | fill plan =>
    exact ⟨.append (orderEvent (ts, run.broker.orderSequence + 1) order ts plan.status
      (plan.statusReason order) |plan.sizing.requestedDelta| |plan.delta| plan.fillPrice
      (plan.fee config)), rfl, rfl⟩

end

end QuantDinger.Analysis
