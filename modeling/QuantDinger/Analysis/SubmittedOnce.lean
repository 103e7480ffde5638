import QuantDinger.Library.Runs
import QuantDinger.Model.Submission

/-!
# One submission for each phase

A worker that stalls after its claim can find the row claimed again when it wakes up: the
status check of `_prepare_submission` does not tell the two claims apart, and neither do the
updates that hand a row back to the queue. In the runs where no worker acts on a claim that
is not its own, the client order id, once written, keeps the row out of the queue, so one
dispatch prepares and submits every phase.
-/

namespace QuantDinger.Analysis

open QuantDinger.Library
open QuantDinger.Model
open QuantDinger.Model.Live

/-! ## The condition -/

/-- The worker does not act on the claim of another: it neither passes the status check of a
preparation nor hands a row with a client order id back to the queue unless it made the
latest claim. -/
def OwnClaim (desk : DispatchDesk) : DispatchStep → Prop
  | .prepare worker => desk.row.status = .processing → desk.owner = some worker
  | .busy worker => desk.row.status = .processing → desk.row.clientOrderId ≠ "" →
      desk.owner = some worker
  | .leverageRetry worker _ => desk.row.clientOrderId ≠ "" → desk.owner = some worker
  | .defer worker => desk.row.clientOrderId ≠ "" → desk.owner = some worker
  | _ => True

instance (desk : DispatchDesk) (step : DispatchStep) : Decidable (OwnClaim desk step) := by
  unfold OwnClaim
  split <;> infer_instance

/-! ## The invariant -/

/-- The worker has prepared a phase and may still submit. -/
def Stage.Sending : Stage → Prop
  | .prepared _ _ => True
  | .submitted _ => True
  | _ => False

/-- What the worker of the latest claim may still submit, next to what was submitted. -/
def Stage.Remaining (stage : Stage) (submissions : List OrderPhase) : Prop :=
  match stage with
  | .prepared phase rest => (submissions ++ phase :: rest).Nodup
  | .submitted rest => (submissions ++ rest).Nodup
  | .claimed _ => False
  | .dispatching _ => False
  | _ => submissions.Nodup

/-- Before a client order id is written nothing has been prepared; afterwards the row is out
of the queue, and only the worker of the latest claim may still submit. -/
structure SubmitsOnce (desk : DispatchDesk) : Prop where
  fresh : desk.row.clientOrderId = "" →
    desk.submissions = [] ∧ ∀ worker, ¬ Stage.Sending (desk.stage worker)
  kept : desk.row.clientOrderId ≠ "" → desk.row.status ≠ .pending ∧
    ∃ worker, desk.owner = some worker ∧ Stage.Remaining (desk.stage worker) desk.submissions ∧
      ∀ other, other ≠ worker → ¬ Stage.Sending (desk.stage other)

theorem Stage.Remaining.nodup {stage : Stage} {submissions : List OrderPhase}
    (h : Stage.Remaining stage submissions) : submissions.Nodup := by
  cases stage with
  | prepared phase rest => exact (List.nodup_append.mp h).1
  | submitted rest => exact (List.nodup_append.mp h).1
  | claimed attempt => exact absurd h id
  | dispatching attempt => exact absurd h id
  | idle => exact h
  | elsewhere => exact h
  | fetched attempt => exact h
  | leaseLost => exact h

theorem SubmitsOnce.nodup {desk : DispatchDesk} (h : SubmitsOnce desk) : desk.submissions.Nodup := by
  by_cases hid : desk.row.clientOrderId = ""
  · rw [(h.fresh hid).1]
    exact List.nodup_nil
  · obtain ⟨-, worker, -, hremaining, -⟩ := h.kept hid
    exact hremaining.nodup

theorem clientOrderId_ne_empty (config : DispatchConfig) (phase : OrderPhase) :
    config.clientOrderId phase ≠ "" := by
  intro hempty
  have hlength := congrArg String.length hempty
  unfold DispatchConfig.clientOrderId makeClientOrderId at hlength
  by_cases h : isOkx config.exchangeId
  · simp [h, truncate] at hlength
  · simp [h] at hlength

theorem phases_nodup (algo : DispatchAlgo) : algo.phases.Nodup := by
  cases algo <;> decide

/-! ## Steps -/

/-- The stage neither submits nor holds back a claim. -/
def Stage.Quiet : Stage → Prop
  | .idle => True
  | .elsewhere => True
  | .fetched _ => True
  | .leaseLost => True
  | _ => False

section Steps

variable {config : DispatchConfig} {desk : DispatchDesk}

theorem SubmitsOnce.fallBack (h : SubmitsOnce desk) {next : DispatchDesk}
    (hsubmissions : next.submissions = desk.submissions) (howner : next.owner = desk.owner)
    (hstage : ∀ worker, next.stage worker = desk.stage worker ∨ Stage.Quiet (next.stage worker))
    (hid : next.row.clientOrderId = "" ↔ desk.row.clientOrderId = "")
    (hstatus : desk.row.clientOrderId ≠ "" → next.row.status ≠ .pending) : SubmitsOnce next := by
  have hquiet : ∀ stage, Stage.Quiet stage → ¬ Stage.Sending stage := by
    intro stage hq hs
    cases stage <;> first | exact hq | exact hs
  have hsilent : ∀ worker, ¬ Stage.Sending (desk.stage worker) →
      ¬ Stage.Sending (next.stage worker) := by
    intro worker hworker
    rcases hstage worker with hsame | hq
    · rw [hsame]
      exact hworker
    · exact hquiet _ hq
  constructor
  · intro hempty
    obtain ⟨hnone, hworkers⟩ := h.fresh (hid.mp hempty)
    exact ⟨hsubmissions.trans hnone, fun worker => hsilent worker (hworkers worker)⟩
  · intro hne
    have hne' : desk.row.clientOrderId ≠ "" := fun hempty => hne (hid.mpr hempty)
    obtain ⟨-, worker, hworker, hremaining, hothers⟩ := h.kept hne'
    refine ⟨hstatus hne', worker, howner.trans hworker, ?_, ?_⟩
    · rw [hsubmissions]
      rcases hstage worker with hsame | hq
      · rw [hsame]
        exact hremaining
      · have hnodup := h.nodup
        cases hs : next.stage worker <;> rw [hs] at hq <;> first | exact hnodup | exact absurd hq id
    · exact fun other hother => hsilent other (hothers other hother)

theorem update_stage_cases (stages : ℕ → Stage) (worker : ℕ) {stage : Stage}
    (hstage : Stage.Quiet stage) (other : ℕ) :
    Function.update stages worker stage other = stages other ∨
      Stage.Quiet (Function.update stages worker stage other) := by
  by_cases h : other = worker
  · right
    rw [h, Function.update_self]
    exact hstage
  · left
    exact Function.update_of_ne h _ _

theorem SubmitsOnce.finish (h : SubmitsOnce desk) (worker : ℕ) {row : QueueRow}
    (hid : row.clientOrderId = "" ↔ desk.row.clientOrderId = "")
    (hstatus : desk.row.clientOrderId ≠ "" → row.status ≠ .pending) :
    SubmitsOnce (desk.finish worker row) :=
  h.fallBack rfl rfl (update_stage_cases desk.stage worker trivial) hid hstatus

theorem SubmitsOnce.goto (h : SubmitsOnce desk) (worker : ℕ) (stage : Stage)
    (hstage : Stage.Quiet stage) (lock : Option ℕ) :
    SubmitsOnce { desk.goto worker stage with lock := lock } :=
  h.fallBack rfl rfl (update_stage_cases desk.stage worker hstage) Iff.rfl
    fun hne => (h.kept hne).1

theorem SubmitsOnce.rewrite (h : SubmitsOnce desk) {row : QueueRow}
    (hid : row.clientOrderId = "" ↔ desk.row.clientOrderId = "")
    (hstatus : desk.row.clientOrderId ≠ "" → row.status ≠ .pending) :
    SubmitsOnce { desk with row := row } :=
  h.fallBack rfl rfl (fun _ => Or.inl rfl) hid hstatus

theorem SubmitsOnce.unwritten (h : SubmitsOnce desk) {worker : ℕ}
    (hworker : ∀ submissions, ¬ Stage.Remaining (desk.stage worker) submissions)
    (hown : desk.row.clientOrderId ≠ "" → desk.owner = some worker) :
    desk.row.clientOrderId = "" := by
  by_contra hne
  obtain ⟨-, owner, howner, hremaining, -⟩ := h.kept hne
  have hsame : owner = worker := Option.some.inj (howner.symm.trans (hown hne))
  exact hworker _ (hsame ▸ hremaining)

theorem SubmitsOnce.recover (h : SubmitsOnce desk) :
    SubmitsOnce (desk.act config .recoverStale) := by
  refine h.rewrite ?_ fun hne => ?_
  · unfold QueueRow.recoverStaleSubmission
    split <;> rfl
  · unfold QueueRow.recoverStaleSubmission
    split
    · simp
    · exact (h.kept hne).1

theorem SubmitsOnce.requeue (h : SubmitsOnce desk) :
    SubmitsOnce (desk.act config .requeueStale) := by
  refine h.rewrite ?_ fun hne => ?_
  · unfold QueueRow.requeueStale
    split <;> rfl
  · unfold QueueRow.requeueStale
    rw [if_neg (fun hstale => hne hstale.2.2.1)]
    exact (h.kept hne).1

theorem SubmitsOnce.claim (h : SubmitsOnce desk) (worker : ℕ) (fenceCurrent : Bool) :
    SubmitsOnce (desk.act config (.claim worker fenceCurrent)) := by
  simp only [DispatchDesk.act]
  cases hs : desk.stage worker with
  | fetched attempt =>
    by_cases hpending : desk.row.status = .pending
    · have hempty : desk.row.clientOrderId = "" := by
        by_contra hne
        exact (h.kept hne).1 hpending
      simp only [if_pos hpending]
      cases fenceCurrent with
      | true =>
        obtain ⟨hnone, hworkers⟩ := h.fresh hempty
        refine ⟨fun _ => ⟨hnone, fun other => ?_⟩, fun hne => absurd hempty hne⟩
        show ¬ Stage.Sending (Function.update desk.stage worker (.claimed attempt) other)
        by_cases hother : other = worker
        · rw [hother, Function.update_self]
          exact id
        · rw [Function.update_of_ne hother]
          exact hworkers other
      | false =>
        exact h.fallBack rfl rfl (update_stage_cases desk.stage worker trivial) Iff.rfl
          fun hne => absurd hempty hne
    · simp only [if_neg hpending]
      exact h.goto worker .idle trivial desk.lock
  | _ => exact h

theorem SubmitsOnce.lock (h : SubmitsOnce desk) (worker : ℕ) :
    SubmitsOnce (desk.act config (.lock worker)) := by
  have hmove : ∀ attempt (lock : Option ℕ), desk.stage worker = .claimed attempt →
      SubmitsOnce { desk.goto worker (.dispatching attempt) with lock := lock } := by
    intro attempt lock hs
    have hsilent : ∀ other, ¬ Stage.Sending (desk.stage other) → ¬ Stage.Sending
        (Function.update desk.stage worker (.dispatching attempt) other) := by
      intro other hother
      by_cases hsame : other = worker
      · rw [hsame, Function.update_self]
        exact id
      · rw [Function.update_of_ne hsame]
        exact hother
    refine ⟨fun hempty => ?_, fun hne => ?_⟩
    · obtain ⟨hnone, hworkers⟩ := h.fresh hempty
      exact ⟨hnone, fun other => hsilent other (hworkers other)⟩
    · obtain ⟨hstatus, owner, howner, hremaining, hothers⟩ := h.kept hne
      have hdiffer : owner ≠ worker := by
        intro hsame
        rw [hsame, hs] at hremaining
        exact hremaining
      refine ⟨hstatus, owner, howner, ?_, fun other hother => hsilent other (hothers other hother)⟩
      show Stage.Remaining (Function.update desk.stage worker (.dispatching attempt) owner) _
      rw [Function.update_of_ne hdiffer]
      exact hremaining
  simp only [DispatchDesk.act]
  cases hs : desk.stage worker with
  | claimed attempt =>
    by_cases hserial : config.serialized = false
    · simp only [if_pos hserial]
      exact hmove attempt desk.lock hs
    · by_cases hfree : desk.lock = none
      · simp only [if_neg hserial, if_pos hfree]
        exact hmove attempt (some worker) hs
      · simp only [if_neg hserial, if_neg hfree]
        exact h
  | _ => exact h

theorem SubmitsOnce.busy (h : SubmitsOnce desk) (worker : ℕ)
    (hown : OwnClaim desk (.busy worker)) : SubmitsOnce (desk.act config (.busy worker)) := by
  simp only [DispatchDesk.act]
  cases hs : desk.stage worker with
  | claimed attempt =>
    by_cases hbusy : config.serialized = true ∧ desk.lock ≠ none
    · simp only [if_pos hbusy]
      unfold QueueRow.releaseBusy
      by_cases hprocessing : desk.row.status = .processing
      · have hempty := h.unwritten (by simp [hs, Stage.Remaining]) (hown hprocessing)
        rw [if_pos hprocessing]
        exact h.finish worker Iff.rfl fun hne => absurd hempty hne
      · rw [if_neg hprocessing]
        exact h.finish worker Iff.rfl fun hne => (h.kept hne).1
    · simp only [if_neg hbusy]
      exact h
  | _ => exact h

theorem SubmitsOnce.leverageRetry (h : SubmitsOnce desk) (worker : ℕ) (saved : Bool)
    (hown : OwnClaim desk (.leverageRetry worker saved)) :
    SubmitsOnce (desk.act config (.leverageRetry worker saved)) := by
  simp only [DispatchDesk.act]
  cases hs : desk.stage worker with
  | dispatching attempt =>
    have hempty := h.unwritten (by simp [hs, Stage.Remaining]) hown
    by_cases hmore : attempt + 1 ≤ maxLeverageRetries
    · simp only [if_pos hmore]
      refine h.finish worker ?_ fun hne => absurd hempty hne
      unfold QueueRow.scheduleLeverageRetry
      split
      · rfl
      · split <;> rfl
    · simp only [if_neg hmore]
      exact h
  | _ => exact h

theorem SubmitsOnce.defer (h : SubmitsOnce desk) (worker : ℕ)
    (hown : OwnClaim desk (.defer worker)) : SubmitsOnce (desk.act config (.defer worker)) := by
  simp only [DispatchDesk.act]
  cases hs : desk.stage worker with
  | dispatching attempt =>
    have hempty := h.unwritten (by simp [hs, Stage.Remaining]) hown
    exact h.finish worker Iff.rfl fun hne => absurd hempty hne
  | _ => exact h

theorem SubmitsOnce.sending {worker : ℕ} {stage : Stage} (row : QueueRow)
    {submissions : List OrderPhase} (hid : row.clientOrderId ≠ "") (hstatus : row.status ≠ .pending)
    (howner : desk.owner = some worker) (hremaining : Stage.Remaining stage submissions)
    (hothers : ∀ other, other ≠ worker → ¬ Stage.Sending (desk.stage other)) :
    SubmitsOnce { desk.goto worker stage with row := row, submissions := submissions } := by
  refine ⟨fun hempty => absurd hempty hid, fun _ => ⟨hstatus, worker, howner, ?_, ?_⟩⟩
  · show Stage.Remaining (Function.update desk.stage worker stage worker) _
    rw [Function.update_self]
    exact hremaining
  · intro other hother
    show ¬ Stage.Sending (Function.update desk.stage worker stage other)
    rw [Function.update_of_ne hother]
    exact hothers other hother

theorem SubmitsOnce.prepare (h : SubmitsOnce desk) (worker : ℕ)
    (hown : OwnClaim desk (.prepare worker)) : SubmitsOnce (desk.act config (.prepare worker)) := by
  simp only [DispatchDesk.act]
  cases htodo : desk.todo config worker with
  | nil => exact h
  | cons phase rest =>
    unfold QueueRow.prepareSubmission
    by_cases hprocessing : desk.row.status = .processing
    · simp only [if_pos hprocessing]
      have howner := hown hprocessing
      -- What the worker may still submit is its list of phases.
      have hlist : (desk.submissions ++ phase :: rest).Nodup ∧
          ∀ other, other ≠ worker → ¬ Stage.Sending (desk.stage other) := by
        by_cases hempty : desk.row.clientOrderId = ""
        · obtain ⟨hnone, hworkers⟩ := h.fresh hempty
          refine ⟨?_, fun other _ => hworkers other⟩
          cases hs : desk.stage worker with
          | dispatching attempt =>
            simp only [DispatchDesk.todo, hs] at htodo
            rw [hnone, List.nil_append, ← htodo]
            exact phases_nodup config.algo
          | submitted rest' => exact absurd (hs ▸ hworkers worker) (fun hnot => hnot trivial)
          | _ => simp [DispatchDesk.todo, hs] at htodo
        · obtain ⟨-, owner, howner', hremaining, hothers⟩ := h.kept hempty
          have hsame : owner = worker := Option.some.inj (howner'.symm.trans howner)
          subst hsame
          refine ⟨?_, hothers⟩
          cases hs : desk.stage owner with
          | dispatching attempt =>
            rw [hs] at hremaining
            exact absurd hremaining id
          | submitted rest' =>
            simp only [DispatchDesk.todo, hs] at htodo
            rw [hs, htodo] at hremaining
            exact hremaining
          | _ => simp [DispatchDesk.todo, hs] at htodo
      have hstatus : desk.row.status ≠ .pending := by
        rw [hprocessing]
        decide
      have hid := clientOrderId_ne_empty config phase
      generalize config.clientOrderId phase = clientOrderId at hid ⊢
      exact SubmitsOnce.sending
        { desk.row with clientOrderId := clientOrderId, updatedAt := desk.now } hid hstatus howner
        hlist.1 hlist.2
    · simp only [if_neg hprocessing]
      exact h.goto worker .leaseLost trivial desk.lock

theorem SubmitsOnce.submit (h : SubmitsOnce desk) (worker : ℕ) :
    SubmitsOnce (desk.act config (.submit worker)) := by
  simp only [DispatchDesk.act]
  cases hs : desk.stage worker with
  | prepared phase rest =>
    have hsending : Stage.Sending (desk.stage worker) := by
      rw [hs]
      trivial
    have hne : desk.row.clientOrderId ≠ "" := fun hempty => (h.fresh hempty).2 worker hsending
    obtain ⟨hstatus, owner, howner, hremaining, hothers⟩ := h.kept hne
    have hsame : worker = owner := by
      by_contra hdiffer
      exact hothers worker hdiffer hsending
    subst hsame
    rw [hs] at hremaining
    have hleft : Stage.Remaining (.submitted rest) (desk.submissions ++ [phase]) := by
      simpa [Stage.Remaining] using hremaining
    exact SubmitsOnce.sending desk.row hne hstatus howner hleft hothers
  | _ => exact h

theorem SubmitsOnce.mark (h : SubmitsOnce desk) (worker : ℕ) (row : QueueRow)
    (hid : row.clientOrderId = desk.row.clientOrderId) (hstatus : row.status ≠ .pending) :
    SubmitsOnce (desk.finish worker row) :=
  h.finish worker (by rw [hid]) fun _ => hstatus

theorem SubmitsOnce.markSent (h : SubmitsOnce desk) (worker : ℕ) (clientOrderId : String)
    (finalFilled : Bool) :
    SubmitsOnce (desk.act config (.markSent worker clientOrderId finalFilled)) := by
  simp only [DispatchDesk.act]
  cases hs : desk.stage worker with
  | submitted rest =>
    have hne : desk.row.clientOrderId ≠ "" := by
      intro hempty
      exact (h.fresh hempty).2 worker (by rw [hs]; trivial)
    refine h.finish worker ?_ fun _ => ?_
    · simp only [QueueRow.markSent, textOrElse]
      by_cases hgiven : clientOrderId = ""
      · simp [hgiven]
      · simp [hgiven, hne]
    · simp only [QueueRow.markSent]
      split <;> decide
  | _ => exact h

theorem SubmitsOnce.act (h : SubmitsOnce desk) (step : DispatchStep) (hown : OwnClaim desk step) :
    SubmitsOnce (desk.act config step) := by
  cases step with
  | tick seconds => exact ⟨h.fresh, h.kept⟩
  | recoverStale => exact h.recover
  | requeueStale => exact h.requeue
  | fetch worker =>
    simp only [DispatchDesk.act]
    split
    · exact h.goto worker (.fetched desk.row.leverageRetryAttempt) trivial desk.lock
    · exact h
  | claim worker fenceCurrent => exact h.claim worker fenceCurrent
  | lock worker => exact h.lock worker
  | busy worker => exact h.busy worker hown
  | leverageRetry worker saved => exact h.leverageRetry worker saved hown
  | defer worker => exact h.defer worker hown
  | prepare worker => exact h.prepare worker hown
  | submit worker => exact h.submit worker
  | markSent worker clientOrderId finalFilled => exact h.markSent worker clientOrderId finalFilled
  | markSubmitUnknown worker =>
    have hmark := h.mark worker (desk.row.markSubmitUnknown desk.now) rfl (by simp [QueueRow.markSubmitUnknown])
    simp only [DispatchDesk.act]
    split
    · exact hmark
    · exact hmark
    · exact h
  | markFailed worker =>
    have hmark := h.mark worker (desk.row.markFailed desk.now) rfl (by simp [QueueRow.markFailed])
    simp only [DispatchDesk.act]
    split
    · exact hmark
    · exact hmark
    · exact hmark
    · exact hmark
    · exact hmark
    · exact h
  | lockElsewhere worker =>
    simp only [DispatchDesk.act]
    split
    · exact h.goto worker .elsewhere trivial (some worker)
    · exact h
  | unlockElsewhere worker =>
    simp only [DispatchDesk.act]
    split
    · exact h.goto worker .idle trivial _
    · exact h
  | crash worker => exact h.goto worker .idle trivial _

end Steps

/-! ## Runs -/

/-- In every run of any number of workers in which no worker acts on the claim of another,
every phase of the order is submitted at most once. -/
theorem phase_submitted_at_most_once (config : DispatchConfig) (steps : List DispatchStep)
    (hown : Along (fun desk step => DispatchDesk.act desk config step) OwnClaim {} steps)
    (phase : OrderPhase) :
    (runActions (fun desk step => DispatchDesk.act desk config step) {}
      steps).submissions.count phase ≤ 1 := by
  have hstart : SubmitsOnce {} :=
    ⟨fun _ => ⟨rfl, fun _ => id⟩, fun hne => absurd rfl hne⟩
  have hstep : ∀ (desk : DispatchDesk) (step : DispatchStep), SubmitsOnce desk →
      OwnClaim desk step → SubmitsOnce (desk.act config step) :=
    fun desk step h hstep => h.act step hstep
  have hend := Along.invariant hstep hstart hown
  exact List.nodup_iff_count_le_one.mp hend.nodup phase

/-- A worker stalls after its claim; another one takes the order over, submits it and crashes. -/
def stalledTakeover : List DispatchStep :=
  [.fetch 0, .claim 0 true, .tick 91, .requeueStale, .fetch 1, .claim 1 true, .lock 1, .prepare 1,
    .submit 1, .crash 1]

def stalledWakeup : List DispatchStep := [.lock 0, .prepare 0, .submit 0]

/-- Up to there no worker acts on the claim of another. -/
theorem takeover_submits_once :
    (runActions (fun desk step => DispatchDesk.act desk {} step) {}
      stalledTakeover).submissions.count .mkt ≤ 1 :=
  phase_submitted_at_most_once {} stalledTakeover (by decide) .mkt

/-- The stalled worker passes the status check of the other's claim. -/
theorem stalled_worker_submits_again :
    (runActions (fun desk step => DispatchDesk.act desk {} step) {}
      (stalledTakeover ++ stalledWakeup)).submissions = [.mkt, .mkt] := by
  decide

end QuantDinger.Analysis
