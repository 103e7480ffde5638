import QuantDinger.Library.Runs
import QuantDinger.Analysis.Posting

/-!
# Does a filled intent stay filled?

Five writers touch the status of an order intent. Two of them guard a status that is already
`filled`; the posting of a fill, the end of a synchronisation and an unguarded `_mark_sent`
do not. This file says for every transaction whether it keeps the status, and from that for
every interleaving.
-/

namespace QuantDinger.Analysis

open QuantDinger.Library QuantDinger.Model QuantDinger.Model.Live

/-! ## The transactions -/

/-- The transaction keeps the status `filled`. -/
def KeepsFilled (desk : Desk) : Transaction → Prop
  | .markSent report => report.preserveIntentTerminal = true ∨ report.finalFilled = true
  | .persist cumulative average => NothingUnposted desk.store cumulative average
  | .project event => EventPosted desk.store event
  | .claim _ => True
  | .syncPersist index answer => ∀ row, desk.claimed[index]? = some row →
      ∀ plan, syncPlan row answer = .ok plan → plan.posts = true →
        NothingUnposted desk.store plan.aggregateFilled plan.aggregateAvg
  | .syncUpdate index => ∀ row answer, desk.posted[index]? = some (row, answer) →
      ∀ update, syncSnapshot row answer = .ok update → update.status = .filled
  | .syncFailed index => desk.claimed[index]? = none
  | .bind _ => True
  | .cancel => True

/-! ## Single transactions -/

section Transactions

variable {store : OrderStore}

theorem intent_persist_iff (h : store.intent = .filled) (cumulative average : Amount) :
    (store.commit (store.persistCumulative cumulative average)).intent = .filled ↔
      NothingUnposted store cumulative average := by
  rcases persistCumulative_cases store cumulative average with
    ⟨quantity, price, hdelta, hpos, hresult⟩ | ⟨hnothing, hresult | ⟨e, hresult⟩⟩
  · rw [hresult]
    refine ⟨fun hfilled => (nomatch hfilled), fun hnothing => ?_⟩
    exact absurd (hnothing quantity price hdelta) (not_le.mpr hpos)
  · rw [hresult]
    exact ⟨fun _ => hnothing, fun _ => h⟩
  · rw [hresult]
    exact ⟨fun _ => hnothing, fun _ => h⟩

theorem intent_project_iff (h : store.intent = .filled) (event : ExecutionEvent) :
    (store.commit (store.projectPendingOrder event)).intent = .filled ↔
      EventPosted store event := by
  rcases projectPendingOrder_cases store event with ⟨hposted, hresult⟩ |
    ⟨combined, response, delta, price, hcombine, hdelta, ⟨hposted, hsmall, hresult⟩ |
      ⟨hopen, hlarge, hprice, hresult⟩⟩
  · rw [hresult]
    exact ⟨fun _ => hposted, fun _ => h⟩
  · rw [hresult]
    exact ⟨fun _ => hposted, fun _ => if_pos (Or.inl h)⟩
  · rw [hresult]
    exact ⟨fun hfilled => (nomatch hfilled), fun hposted => absurd hposted hopen⟩

theorem intent_markSent_iff (h : store.intent = .filled) (report : SentReport) :
    (store.markSent report).intent = .filled ↔
      report.preserveIntentTerminal = true ∨ report.finalFilled = true := by
  have hterminal : store.intent ∈ terminalIntents := by
    rw [h]
    decide
  unfold OrderStore.markSent
  dsimp only
  by_cases hpreserve : report.preserveIntentTerminal = true
  · rw [if_pos ⟨hpreserve, hterminal⟩]
    exact ⟨fun _ => Or.inl hpreserve, fun _ => h⟩
  · rw [if_neg fun hboth => hpreserve hboth.1]
    by_cases hfinal : report.finalFilled = true
    · rw [if_pos hfinal]
      exact ⟨fun _ => Or.inr hfinal, fun _ => rfl⟩
    · rw [if_neg hfinal]
      refine ⟨fun hfilled => ?_, fun hor => ?_⟩
      · split at hfilled <;> cases hfilled
      · rcases hor with hor | hor
        · exact absurd hor hpreserve
        · exact absurd hor hfinal

theorem intent_update_iff (update : SnapshotUpdate) :
    (store.updateLiveSentOrderSnapshot update).intent = .filled ↔ update.status = .filled := by
  unfold OrderStore.updateLiveSentOrderSnapshot
  dsimp only
  by_cases hstatus : update.status = .filled
  · rw [if_pos hstatus]
    exact ⟨fun _ => hstatus, fun _ => rfl⟩
  · rw [if_neg hstatus]
    refine ⟨fun hfilled => ?_, fun hfilled => absurd hfilled hstatus⟩
    split at hfilled
    · cases hfilled
    · split at hfilled <;> cases hfilled

theorem intent_cancellation (h : store.intent = .filled) :
    store.persistCancellation.intent = .filled := by
  have hterminal : store.intent ∈ terminalIntents := by
    rw [h]
    decide
  unfold OrderStore.persistCancellation
  split
  · exact h
  · exact h

end Transactions

theorem intent_act_iff {desk : Desk} (h : desk.store.intent = .filled)
    (transaction : Transaction) :
    (desk.act transaction).store.intent = .filled ↔ KeepsFilled desk transaction := by
  cases transaction with
  | markSent report => exact intent_markSent_iff h report
  | persist cumulative average => exact intent_persist_iff h cumulative average
  | project event => exact intent_project_iff h event
  | claim clock =>
    refine ⟨fun _ => trivial, fun _ => ?_⟩
    unfold Desk.act
    dsimp only
    split
    · exact h
    · exact h
  | syncPersist index answer =>
    unfold KeepsFilled
    dsimp only
    cases hrow : desk.claimed[index]? with
    | none =>
      rw [act_syncPersist_none hrow]
      exact ⟨fun _ row hrow' => (nomatch hrow'), fun _ => h⟩
    | some row =>
      rw [act_syncPersist_store hrow]
      rcases commit_syncPersist desk.store row answer with
        ⟨plan, hplan, hposts, hresult⟩ | ⟨hsilent, hresult⟩
      · rw [hresult, intent_persist_iff h]
        refine ⟨fun hnothing row' hrow' plan' hplan' _ => ?_, fun hall => ?_⟩
        · cases hrow'
          rw [hplan] at hplan'
          cases hplan'
          exact hnothing
        · exact hall row rfl plan hplan hposts
      · rw [hresult]
        refine ⟨fun _ row' hrow' plan hplan hposts => ?_, fun _ => h⟩
        cases hrow'
        rw [hsilent plan hplan] at hposts
        cases hposts
  | syncUpdate index =>
    unfold KeepsFilled
    dsimp only
    cases hjob : desk.posted[index]? with
    | none =>
      rw [act_syncUpdate_none hjob]
      exact ⟨fun _ row answer hjob' => (nomatch hjob'), fun _ => h⟩
    | some job =>
      obtain ⟨row, answer⟩ := job
      rcases act_syncUpdate_store hjob with ⟨update, hupdate, hstore⟩ | ⟨⟨e, hfailed⟩, hstore⟩
      · rw [hstore, intent_update_iff]
        refine ⟨fun hstatus row' answer' hjob' update' hupdate' => ?_, fun hall => ?_⟩
        · cases hjob'
          rw [hupdate] at hupdate'
          cases hupdate'
          exact hstatus
        · exact hall row answer rfl update hupdate
      · rw [hstore]
        refine ⟨fun _ row' answer' hjob' update hupdate => ?_, fun _ => h⟩
        cases hjob'
        rw [hfailed] at hupdate
        cases hupdate
  | syncFailed index =>
    unfold KeepsFilled
    dsimp only
    cases hrow : desk.claimed[index]? with
    | none =>
      rw [act_syncFailed_none hrow]
      exact ⟨fun _ => rfl, fun _ => h⟩
    | some row =>
      rw [act_syncFailed_store hrow, intent_update_iff]
      exact ⟨fun hstatus => (nomatch hstatus), fun hnone => (nomatch hnone)⟩
  | bind orderId => exact ⟨fun _ => trivial, fun _ => h⟩
  | cancel => exact ⟨fun _ => trivial, fun _ => intent_cancellation h⟩

/-! ## Runs -/

/-- The status is `filled` in the state and in every later one of the run. -/
def StaysFilled (desk : Desk) (transactions : List Transaction) : Prop :=
  ∀ front, front <+: transactions → (runActions Desk.act desk front).store.intent = .filled

theorem staysFilled_cons {desk : Desk} {transaction : Transaction}
    {transactions : List Transaction} :
    StaysFilled desk (transaction :: transactions) ↔
      desk.store.intent = .filled ∧ StaysFilled (desk.act transaction) transactions := by
  constructor
  · intro hstays
    refine ⟨hstays [] List.nil_prefix, fun front hfront => ?_⟩
    exact hstays (transaction :: front) (List.cons_prefix_cons.mpr ⟨rfl, hfront⟩)
  · rintro ⟨hnow, hlater⟩ front hfront
    cases front with
    | nil => exact hnow
    | cons action front =>
      obtain ⟨rfl, hrest⟩ := List.cons_prefix_cons.mp hfront
      exact hlater front hrest

theorem staysFilled_iff {desk : Desk} (h : desk.store.intent = .filled)
    (transactions : List Transaction) :
    StaysFilled desk transactions ↔ Along Desk.act KeepsFilled desk transactions := by
  induction transactions generalizing desk with
  | nil =>
    refine ⟨fun _ => trivial, fun _ front hfront => ?_⟩
    rw [List.prefix_nil.mp hfront]
    exact h
  | cons transaction transactions ih =>
    rw [staysFilled_cons]
    constructor
    · rintro ⟨-, hlater⟩
      have hnext : (desk.act transaction).store.intent = .filled := hlater [] List.nil_prefix
      exact ⟨(intent_act_iff h transaction).mp hnext, (ih hnext).mp hlater⟩
    · rintro ⟨hkeeps, hrest⟩
      exact ⟨h, (ih ((intent_act_iff h transaction).mpr hkeeps)).mpr hrest⟩

/-- **When a filled intent stays filled.** From every state in which the intent is filled, the
status stays `filled` along a run exactly when every transaction of the run keeps it; and the
worker's own result of a completely executed order leaves it `filled` exactly when there was
nothing left to post. -/
theorem filled_intent_stays_iff (desk : Desk) (h : desk.store.intent = .filled)
    (transactions : List Transaction) (other : Desk) (report : SentReport)
    (hfinal : report.finalFilled = true) (hplain : report.preserveIntentTerminal = false) :
    (StaysFilled desk transactions ↔ Along Desk.act KeepsFilled desk transactions) ∧
      (other.act (.markSent report)).store.intent = .filled ∧
      (((other.act (.markSent report)).act
          (.persist report.filled report.avgPrice)).store.intent = .filled ↔
        NothingUnposted other.store report.filled report.avgPrice) := by
  have hmarked : (other.act (.markSent report)).store.intent = .filled := by
    show (other.store.markSent report).intent = .filled
    unfold OrderStore.markSent
    simp only [hplain, hfinal, Bool.false_eq_true, false_and, if_false, if_true]
  exact ⟨staysFilled_iff h transactions, hmarked,
    intent_persist_iff hmarked report.filled report.avgPrice⟩

def oneShareReport : SentReport where
  exchangeOrderId := "7"
  filled := 1
  avgPrice := 100
  finalFilled := true

def freshDesk : Desk := { store := { row := { clientOrderId := "qd7", amount := 1 } } }

/-- A filled order whose cancellation comes too late stays filled. -/
theorem filled_intent_survives_cancel :
    StaysFilled (freshDesk.act (.markSent oneShareReport)) [.cancel] := by
  have hfilled : (freshDesk.act (.markSent oneShareReport)).store.intent = .filled := by
    decide +kernel
  exact (filled_intent_stays_iff _ hfilled [.cancel] freshDesk oneShareReport rfl rfl).1.mpr
    ⟨trivial, trivial⟩

/-- The worker marks the order of one share filled and then posts the fill: the posting takes
the intent back to `partially_filled`. -/
theorem posting_downgrades_filled_intent :
    (freshDesk.act (.markSent oneShareReport)).store.intent = .filled ∧
      (runActions Desk.act freshDesk [.markSent oneShareReport, .persist 1 100]).store.intent =
        .partiallyFilled := by
  decide +kernel

end QuantDinger.Analysis
