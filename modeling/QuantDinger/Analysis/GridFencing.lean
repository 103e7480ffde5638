import QuantDinger.Library.Runs
import QuantDinger.Model.GridActor

/-!
# Fencing of the grid actor

A projection is committed under the lock of the lease row, so it is fenced without any condition.
Two statements check less than that. `fail` looks at the owner and the token of a row, not at its
status, so a late report of a drain revives an event that another drain of the same owner has
finished. `checkpoint` reads the owner from the lease row and not from its caller, so a former owner
overwrites the state under the token of the new one. A history is fenced exactly if neither happens.
-/

namespace QuantDinger.Analysis

open QuantDinger.Library
open QuantDinger.Model
open QuantDinger.Model.Live

/-! ## Fenced moves -/

/-- Who makes the checkpoint of a move, and when. -/
def checkpointer (store : GridActorStore) : GridActorMove → Option (WorkerId × Time)
  | .save now owner _ _ _ _ => some (owner, now)
  | .drain index turn =>
    match store.drained[index]? with
    | some ⟨owner, _, _, .checkpointing⟩ => some (owner, turn.now)
    | _ => none
  | _ => none

/-- What one move may do. -/
structure ActorFenced (store : GridActorStore) (move : GridActorMove) : Prop where
  absorbing : ∀ (i : ℕ) (row : ActorRow), store.events[i]? = some row →
    row.status.finished = true →
    ∃ later, (store.step move).events[i]? = some later ∧ later.id = row.id ∧
      later.status = row.status
  projections : ∀ projection,
    (store.step move).projections = projection :: store.projections →
    store.HoldsToken projection.now projection.owner projection.event
  checkpoints : ∀ owner now, checkpointer store move = some (owner, now) →
    ¬ store.Holds now owner →
    (store.step move).leases.checkpointRow = store.leases.checkpointRow

/-- The report of a failure does not find the event finished, or it is dead and buried again. -/
def FailsOpen (store : GridActorStore) (item : DrainedEvent) : Prop :=
  ∀ row ∈ store.events, GridActorStore.Reached item.owner item.event row →
    row.status.finished = true →
    row.status = .dead ∧ max 1 item.maxAttempts ≤ item.event.attempts

instance (store : GridActorStore) (item : DrainedEvent) : Decidable (FailsOpen store item) :=
  inferInstanceAs (Decidable (∀ row ∈ store.events, _))

/-- Whoever saves the state holds the lease, or nobody does, or the state that is saved has a later
token. -/
def SavesOwn (store : GridActorStore) (now : Time) (owner : WorkerId) : Prop :=
  store.Holds now owner ∨ ∀ lease ∈ store.leases.checkpointLease now,
    ∃ saved ∈ store.leases.checkpointRow, lease.fencingToken < saved.fencingToken

instance (store : GridActorStore) (now : Time) (owner : WorkerId) :
    Decidable (SavesOwn store now owner) :=
  inferInstanceAs (Decidable (_ ∨ ∀ lease ∈ store.leases.checkpointLease now, _))

def ReportsKeep (store : GridActorStore) : GridActorMove → Prop
  | .drain index turn =>
    match store.drained[index]? with
    | some ⟨owner, maxAttempts, event, .failing error⟩ =>
      turn.fault.takesEffect = true → FailsOpen store ⟨owner, maxAttempts, event, .failing error⟩
    | _ => True
  | _ => True

/-- No state is saved under the lease of another worker. -/
def SavesFenced (store : GridActorStore) : GridActorMove → Prop
  | .save now owner _ _ _ _ => SavesOwn store now owner
  | .drain index turn =>
    match store.drained[index]? with
    | some ⟨owner, _, _, .checkpointing⟩ =>
      turn.strategyRunId ≠ 0 → turn.fault.takesEffect = true → SavesOwn store turn.now owner
    | _ => True
  | _ => True

/-- The condition on the two statements that check less than the lease. -/
def ActorTimely (store : GridActorStore) (move : GridActorMove) : Prop :=
  ReportsKeep store move ∧ SavesFenced store move

instance (store : GridActorStore) (move : GridActorMove) : Decidable (ReportsKeep store move) := by
  unfold ReportsKeep
  split
  · split <;> infer_instance
  · infer_instance

instance (store : GridActorStore) (move : GridActorMove) : Decidable (SavesFenced store move) := by
  unfold SavesFenced
  split
  · infer_instance
  · split <;> infer_instance
  · infer_instance

instance (store : GridActorStore) (move : GridActorMove) : Decidable (ActorTimely store move) :=
  inferInstanceAs (Decidable (_ ∧ _))

/-! ## Finished events -/

/-- INTERNAL: events are numbered in their order. -/
def Numbered (store : GridActorStore) : Prop :=
  ∀ (i : ℕ) (row : ActorRow), store.events[i]? = some row → row.id = i + 1

/-- INTERNAL: what is finished before is finished after, the same way. -/
def KeepsEvents (before after : List ActorRow) : Prop :=
  ∀ (i : ℕ) (row : ActorRow), before[i]? = some row → row.status.finished = true →
    ∃ later, after[i]? = some later ∧ later.id = row.id ∧ later.status = row.status

theorem keepsEvents_refl (events : List ActorRow) : KeepsEvents events events :=
  fun _ row hrow _ => ⟨row, hrow, rfl, rfl⟩

theorem KeepsEvents.trans {first second third : List ActorRow} (h : KeepsEvents first second)
    (h' : KeepsEvents second third) : KeepsEvents first third := by
  intro i row hrow hfinished
  obtain ⟨next, hnext, hid, hstatus⟩ := h i row hrow hfinished
  obtain ⟨later, hlater, hid', hstatus'⟩ := h' i next hnext (by rw [hstatus]; exact hfinished)
  exact ⟨later, hlater, hid'.trans hid, hstatus'.trans hstatus⟩

section Updates

variable {store : GridActorStore} {p : ActorRow → Prop} [DecidablePred p]
  {f : ActorRow → ActorRow}

theorem updateWhere_get (i : ℕ) :
    (store.updateWhere p f).events[i]? =
      (store.events[i]?).map fun row => if p row then f row else row :=
  List.getElem?_map

theorem numbered_updateWhere (h : Numbered store) (hid : ∀ row, (f row).id = row.id) :
    Numbered (store.updateWhere p f) := by
  intro i row hrow
  rw [updateWhere_get] at hrow
  obtain ⟨before, hbefore, rfl⟩ := Option.map_eq_some_iff.mp hrow
  split_ifs
  · rw [hid]
    exact h i before hbefore
  · exact h i before hbefore

theorem keepsEvents_updateWhere (hid : ∀ row, (f row).id = row.id)
    (hkept : ∀ row ∈ store.events, p row → row.status.finished = true →
      (f row).status = row.status) :
    KeepsEvents store.events (store.updateWhere p f).events := by
  intro i row hrow hfinished
  refine ⟨if p row then f row else row, ?_, ?_, ?_⟩
  · rw [updateWhere_get, hrow]
    rfl
  · split_ifs
    · exact hid row
    · rfl
  · split_ifs with hp
    · exact hkept row (List.mem_of_getElem? hrow) hp hfinished
    · rfl

end Updates

section Statements

variable {store : GridActorStore}

theorem keepsEvents_enqueue (now : Time) (executionEventId gridOrderId : ℕ) :
    KeepsEvents store.events (store.enqueue now executionEventId gridOrderId).events := by
  unfold GridActorStore.enqueue
  split_ifs
  · exact keepsEvents_refl _
  · exact keepsEvents_refl _
  · intro i row hrow _
    refine ⟨row, ?_, rfl, rfl⟩
    have hlt : i < store.events.length := (List.getElem?_eq_some_iff.mp hrow).1
    rw [List.getElem?_append_left hlt]
    exact hrow

theorem numbered_enqueue (h : Numbered store) (now : Time) (executionEventId gridOrderId : ℕ) :
    Numbered (store.enqueue now executionEventId gridOrderId) := by
  unfold GridActorStore.enqueue
  split_ifs
  · exact h
  · exact h
  · intro i row hrow
    by_cases hlt : i < store.events.length
    · rw [List.getElem?_append_left hlt] at hrow
      exact h i row hrow
    · rw [List.getElem?_append_right (not_lt.mp hlt)] at hrow
      obtain ⟨hindex, hnew⟩ := List.getElem?_eq_some_iff.mp hrow
      rw [List.length_singleton] at hindex
      rw [List.getElem_singleton] at hnew
      rw [← hnew]
      show store.events.length + 1 = i + 1
      omega

theorem keepsEvents_buryExhausted (now : Time) (maxAttempts : ℕ) :
    KeepsEvents store.events (store.buryExhausted now maxAttempts).events := by
  refine keepsEvents_updateWhere (fun _ => rfl) ?_
  rintro row - ⟨-, hopen, -⟩ hfinished
  rcases hopen with hpending | hfailed | hprocessing
  · rw [hpending] at hfinished
    exact nomatch hfinished
  · rw [hfailed] at hfinished
    exact nomatch hfinished
  · rw [hprocessing] at hfinished
    exact nomatch hfinished

theorem keepsEvents_claimReady (h : Numbered store) (now : Time) (owner : WorkerId)
    (limit leaseSeconds : ℤ) (maxAttempts : ℕ) (locked : ℕ → Bool) :
    KeepsEvents store.events
      (store.claimReady now owner limit leaseSeconds maxAttempts locked).events := by
  unfold GridActorStore.claimReady
  cases store.leases.lease with
  | none => exact keepsEvents_refl _
  | some lease =>
    dsimp only
    split_ifs
    · refine @keepsEvents_updateWhere store _ _ _ (fun _ => rfl) ?_
      intro row hrow hready hfinished
      obtain ⟨taken, htaken, hid⟩ := List.mem_map.mp hready
      have hclaimed := List.of_mem_filter (List.mem_of_mem_take htaken)
      have hmem := List.mem_of_mem_filter (List.mem_of_mem_take htaken)
      simp only [decide_eq_true_eq] at hclaimed
      have hsame : taken = row := by
        obtain ⟨i, hi⟩ := List.mem_iff_getElem?.mp hmem
        obtain ⟨j, hj⟩ := List.mem_iff_getElem?.mp hrow
        have hindex : i = j := by
          have hnumber := h i taken hi
          have hnumber' := h j row hj
          omega
        rw [hindex] at hi
        exact Option.some.inj (hi.symm.trans hj)
      obtain ⟨⟨-, -, hopen⟩, -⟩ := hclaimed
      rw [hsame] at hopen
      rcases hopen with hpending | hfailed | ⟨hprocessing, -⟩
      · rw [hpending] at hfinished
        exact nomatch hfinished
      · rw [hfailed] at hfinished
        exact nomatch hfinished
      · rw [hprocessing] at hfinished
        exact nomatch hfinished
    · exact keepsEvents_refl _

theorem numbered_claimForOwner (h : Numbered store) (now : Time) (owner : WorkerId)
    (limit leaseSeconds : ℤ) (maxAttempts : ℕ) (locked : ℕ → Bool) :
    Numbered (store.claimForOwner now owner limit leaseSeconds maxAttempts locked) := by
  have hburied : Numbered (store.buryExhausted now maxAttempts) :=
    numbered_updateWhere h fun _ => rfl
  unfold GridActorStore.claimForOwner GridActorStore.claimReady
  cases (store.buryExhausted now maxAttempts).leases.lease with
  | none => exact hburied
  | some lease =>
    dsimp only
    split_ifs
    · exact @numbered_updateWhere (store.buryExhausted now maxAttempts) _ _ _ hburied
        fun _ => rfl
    · exact hburied

theorem keepsEvents_complete (now : Time) (owner : WorkerId) (event : GridActorEvent) :
    KeepsEvents store.events (store.complete now owner event).1.events := by
  unfold GridActorStore.complete
  split_ifs
  · refine keepsEvents_updateWhere (fun _ => rfl) ?_
    rintro row - ⟨-, hprocessing, -⟩ hfinished
    rw [hprocessing] at hfinished
    exact nomatch hfinished
  · exact keepsEvents_refl _

theorem keepsEvents_fail_iff (now : Time) (item : DrainedEvent) (error : String) :
    KeepsEvents store.events
        (store.fail now item.owner item.event error item.maxAttempts).events ↔
      FailsOpen store item := by
  constructor
  · intro hkeeps row hrow hreached hfinished
    obtain ⟨i, hi⟩ := List.mem_iff_getElem?.mp hrow
    obtain ⟨later, hlater, -, hstatus⟩ := hkeeps i row hi hfinished
    unfold GridActorStore.fail at hlater
    rw [updateWhere_get, hi, Option.map_some, if_pos hreached] at hlater
    cases hlater
    dsimp only at hstatus
    by_cases hterminal : max 1 item.maxAttempts ≤ item.event.attempts
    · rw [decide_eq_true hterminal] at hstatus
      exact ⟨hstatus.symm, hterminal⟩
    · rw [decide_eq_false hterminal] at hstatus
      rw [← hstatus] at hfinished
      exact nomatch hfinished
  · intro hopen
    refine keepsEvents_updateWhere (fun _ => rfl) ?_
    intro row hrow hreached hfinished
    obtain ⟨hdead, hterminal⟩ := hopen row hrow hreached hfinished
    rw [hdead]
    show (if decide (max 1 item.maxAttempts ≤ item.event.attempts) = true then ActorStatus.dead
      else ActorStatus.failed) = .dead
    rw [decide_eq_true hterminal]
    rfl

end Statements

/-! ## The state -/

theorem checkpoint_kept_iff (leases : LeaseStore) (now : Time) (strategyRunId : ℕ)
    (stateJson status : String) (lastExecutionEventId : ℕ) :
    (leases.checkpoint now strategyRunId stateJson status lastExecutionEventId).1.checkpointRow =
        leases.checkpointRow ↔
      ∀ lease ∈ leases.checkpointLease now,
        ∃ saved ∈ leases.checkpointRow, lease.fencingToken < saved.fencingToken := by
  unfold LeaseStore.checkpoint
  cases leases.checkpointLease now with
  | none => exact iff_of_true rfl fun _ hlease => nomatch hlease
  | some lease =>
    dsimp only
    cases hsaved : leases.checkpointRow with
    | none =>
      refine iff_of_false (fun h => nomatch h) ?_
      intro hall
      obtain ⟨saved, hnone, -⟩ := hall lease rfl
      exact nomatch hnone
    | some saved =>
      dsimp only
      by_cases hle : saved.fencingToken ≤ lease.fencingToken
      · rw [if_pos hle]
        refine iff_of_false ?_ ?_
        · intro hsame
          have hversion := congrArg GridCheckpoint.version (Option.some.inj hsame)
          exact absurd hversion (Nat.succ_ne_self _)
        · intro hall
          obtain ⟨found, hfound, hlt⟩ := hall lease rfl
          cases hfound
          omega
      · rw [if_neg hle]
        refine iff_of_true hsaved ?_
        intro found hfound
        cases hfound
        exact ⟨saved, rfl, not_le.mp hle⟩

/-! ## Moves -/

section Moves

variable {store : GridActorStore}

theorem step_drain_none {index : ℕ} {turn : DrainTurn} (hitem : store.drained[index]? = none) :
    store.step (.drain index turn) = store := by
  simp only [GridActorStore.step, hitem]

theorem step_drain {index : ℕ} {turn : DrainTurn} {item : DrainedEvent}
    (hitem : store.drained[index]? = some item) :
    store.step (.drain index turn) =
      { (store.drain item turn).1 with
        drained := (store.drain item turn).1.drained.set index
          { item with stage := (store.drain item turn).2 } } := by
  simp only [GridActorStore.step, hitem]

theorem project_kept (turn : DrainTurn) (owner : WorkerId) (event : GridActorEvent) :
    (store.project turn owner event).1.events = store.events ∧
      (store.project turn owner event).1.leases = store.leases := by
  unfold GridActorStore.project
  cases store.lockOwnership turn.now owner event with
  | error error => exact ⟨rfl, rfl⟩
  | ok done =>
    dsimp only
    cases turn.processed with
    | error error => exact ⟨rfl, rfl⟩
    | ok done =>
      dsimp only
      rcases Fault.call_store turn.fault store
        ({ store with projections := ⟨owner, event, turn.now⟩ :: store.projections }, ()) with
        hsame | hother
      · rw [hsame]
        exact ⟨rfl, rfl⟩
      · rw [hother]
        exact ⟨rfl, rfl⟩

theorem drain_events (item : DrainedEvent) (turn : DrainTurn) :
    (store.drain item turn).1.events = store.events ∨
      (item.stage = .completing ∧
        (store.drain item turn).1.events =
          (store.complete turn.now item.owner item.event).1.events) ∨
      ∃ error, item.stage = .failing error ∧ turn.fault.takesEffect = true ∧
        (store.drain item turn).1.events =
          (store.fail turn.now item.owner item.event error item.maxAttempts).events := by
  unfold GridActorStore.drain
  cases hstage : item.stage with
  | projecting =>
    refine Or.inl ?_
    dsimp only
    have hkept := (@project_kept store turn item.owner item.event).1
    cases turn.refusal with
    | some error => rfl
    | none =>
      dsimp only
      split
      · rename_i hproject
        rw [hproject] at hkept
        exact hkept
      · rename_i hproject
        rw [hproject] at hkept
        exact hkept
  | checkpointing =>
    refine Or.inl ?_
    dsimp only
    split_ifs
    · rfl
    · rcases Fault.call_store turn.fault store (store.checkpoint turn.now turn.strategyRunId
        turn.stateJson "running" item.event.executionEventId) with hsame | hother
      · rw [hsame]
      · rw [hother]
        rfl
  | completing =>
    dsimp only
    rcases Fault.call_store turn.fault store
      (store.complete turn.now item.owner item.event) with hsame | hother
    · refine Or.inl ?_
      split
      all_goals
        rename_i hcall
        rw [hcall] at hsame
        rw [show _ = store from hsame]
    · refine Or.inr (Or.inl ⟨rfl, ?_⟩)
      split
      all_goals
        rename_i hcall
        rw [hcall] at hother
        rw [← hother]
  | failing error =>
    cases hfault : turn.fault with
    | fine => exact Or.inr (Or.inr ⟨error, rfl, rfl, rfl⟩)
    | lost raised => exact Or.inl rfl
    | uncertain raised => exact Or.inr (Or.inr ⟨error, rfl, rfl, rfl⟩)
  | done => exact Or.inl rfl

theorem keepsEvents_unreported {item : DrainedEvent} (turn : DrainTurn)
    (hstage : ∀ error, item.stage ≠ .failing error) :
    KeepsEvents store.events (store.drain item turn).1.events := by
  rcases drain_events item turn with hsame | ⟨-, hcomplete⟩ | ⟨error, hfailing, -⟩
  · rw [hsame]
    exact keepsEvents_refl _
  · rw [hcomplete]
    exact keepsEvents_complete turn.now item.owner item.event
  · exact absurd hfailing (hstage error)

theorem drain_checkpoint (turn : DrainTurn) (owner : WorkerId) (maxAttempts : ℕ)
    (event : GridActorEvent) :
    (store.drain ⟨owner, maxAttempts, event, .checkpointing⟩ turn).1.leases.checkpointRow =
      if turn.strategyRunId ≠ 0 ∧ turn.fault.takesEffect = true then
        (store.leases.checkpoint turn.now turn.strategyRunId turn.stateJson "running"
          event.executionEventId).1.checkpointRow
      else store.leases.checkpointRow := by
  unfold GridActorStore.drain
  dsimp only
  by_cases hrun : turn.strategyRunId = 0
  · rw [if_pos hrun, if_neg fun hboth => hboth.1 hrun]
  · rw [if_neg hrun]
    cases turn.fault with
    | fine =>
      rw [if_pos ⟨hrun, rfl⟩]
      rfl
    | lost error =>
      rw [if_neg fun hboth => nomatch hboth.2]
      rfl
    | uncertain error =>
      rw [if_pos ⟨hrun, rfl⟩]
      rfl

theorem numbered_step (h : Numbered store) (move : GridActorMove) :
    Numbered (store.step move) := by
  cases move with
  | acquire now owner leaseSeconds => exact h
  | renew now owner leaseSeconds => exact h
  | release now owner => exact h
  | revoke now => exact h
  | cleanup now => exact h
  | enqueue now executionEventId gridOrderId => exact numbered_enqueue h now _ _
  | claim now owner limit leaseSeconds maxAttempts locked =>
    exact numbered_claimForOwner h now owner limit leaseSeconds maxAttempts locked
  | save now owner strategyRunId stateJson status lastExecutionEventId => exact h
  | drain index turn =>
    cases hitem : store.drained[index]? with
    | none =>
      rw [step_drain_none hitem]
      exact h
    | some item =>
      rw [step_drain hitem]
      show ∀ (i : ℕ) (row : ActorRow), (store.drain item turn).1.events[i]? = some row →
        row.id = i + 1
      rcases drain_events item turn with hsame | ⟨-, hcomplete⟩ | ⟨error, -, -, hfail⟩
      · rw [hsame]
        exact h
      · rw [hcomplete]
        unfold GridActorStore.complete
        split_ifs
        · exact numbered_updateWhere h fun _ => rfl
        · exact h
      · rw [hfail]
        exact numbered_updateWhere h fun _ => rfl

theorem keepsEvents_step_iff (h : Numbered store) (move : GridActorMove) :
    KeepsEvents store.events (store.step move).events ↔ ReportsKeep store move := by
  cases move with
  | acquire now owner leaseSeconds => exact iff_of_true (keepsEvents_refl _) trivial
  | renew now owner leaseSeconds => exact iff_of_true (keepsEvents_refl _) trivial
  | release now owner => exact iff_of_true (keepsEvents_refl _) trivial
  | revoke now => exact iff_of_true (keepsEvents_refl _) trivial
  | cleanup now => exact iff_of_true (keepsEvents_refl _) trivial
  | save now owner strategyRunId stateJson status lastExecutionEventId =>
    exact iff_of_true (keepsEvents_refl _) trivial
  | enqueue now executionEventId gridOrderId =>
    exact iff_of_true (keepsEvents_enqueue now _ _) trivial
  | claim now owner limit leaseSeconds maxAttempts locked =>
    refine iff_of_true ?_ trivial
    have hburied : Numbered (store.buryExhausted now maxAttempts) :=
      numbered_updateWhere h fun _ => rfl
    exact (keepsEvents_buryExhausted now maxAttempts).trans
      (keepsEvents_claimReady hburied now owner limit leaseSeconds maxAttempts locked)
  | drain index turn =>
    cases hitem : store.drained[index]? with
    | none =>
      rw [step_drain_none hitem]
      refine iff_of_true (keepsEvents_refl _) ?_
      simp only [ReportsKeep, hitem]
    | some item =>
      rw [step_drain hitem]
      obtain ⟨owner, maxAttempts, event, stage⟩ := item
      cases stage with
      | failing error =>
        simp only [ReportsKeep, hitem]
        show KeepsEvents store.events (store.drain _ turn).1.events ↔ _
        have hdrain : (store.drain ⟨owner, maxAttempts, event, .failing error⟩ turn).1 =
            (turn.fault.call store
              (store.fail turn.now owner event error maxAttempts, ())).1 := rfl
        rw [hdrain]
        cases hfault : turn.fault with
        | fine =>
          rw [← keepsEvents_fail_iff turn.now _ error]
          exact ⟨fun hkeeps _ => hkeeps, fun hkeeps => hkeeps rfl⟩
        | lost raised =>
          exact iff_of_true (keepsEvents_refl _) fun heffect => nomatch heffect
        | uncertain raised =>
          rw [← keepsEvents_fail_iff turn.now _ error]
          exact ⟨fun hkeeps _ => hkeeps, fun hkeeps => hkeeps rfl⟩
      | projecting =>
        refine iff_of_true ?_ (by simp only [ReportsKeep, hitem])
        exact keepsEvents_unreported turn fun error hstage => nomatch hstage
      | checkpointing =>
        refine iff_of_true ?_ (by simp only [ReportsKeep, hitem])
        exact keepsEvents_unreported turn fun error hstage => nomatch hstage
      | completing =>
        refine iff_of_true ?_ (by simp only [ReportsKeep, hitem])
        exact keepsEvents_unreported turn fun error hstage => nomatch hstage
      | done =>
        refine iff_of_true ?_ (by simp only [ReportsKeep, hitem])
        exact keepsEvents_unreported turn fun error hstage => nomatch hstage

theorem checkpoints_step_iff (move : GridActorMove) :
    (∀ owner now, checkpointer store move = some (owner, now) → ¬ store.Holds now owner →
        (store.step move).leases.checkpointRow = store.leases.checkpointRow) ↔
      SavesFenced store move := by
  cases move with
  | acquire now owner leaseSeconds => exact iff_of_true (fun _ _ hnone => nomatch hnone) trivial
  | renew now owner leaseSeconds => exact iff_of_true (fun _ _ hnone => nomatch hnone) trivial
  | release now owner => exact iff_of_true (fun _ _ hnone => nomatch hnone) trivial
  | revoke now => exact iff_of_true (fun _ _ hnone => nomatch hnone) trivial
  | cleanup now => exact iff_of_true (fun _ _ hnone => nomatch hnone) trivial
  | enqueue now executionEventId gridOrderId =>
    exact iff_of_true (fun _ _ hnone => nomatch hnone) trivial
  | claim now owner limit leaseSeconds maxAttempts locked =>
    exact iff_of_true (fun _ _ hnone => nomatch hnone) trivial
  | save now owner strategyRunId stateJson status lastExecutionEventId =>
    have hkept := checkpoint_kept_iff store.leases now strategyRunId stateJson status
      lastExecutionEventId
    constructor
    · intro hall
      by_cases hholds : store.Holds now owner
      · exact Or.inl hholds
      · exact Or.inr (hkept.mp (hall owner now rfl hholds))
    · rintro hsaves owner' now' hsame hnot
      cases hsame
      rcases hsaves with hholds | hlater
      · exact absurd hholds hnot
      · exact hkept.mpr hlater
  | drain index turn =>
    cases hitem : store.drained[index]? with
    | none =>
      simp only [checkpointer, SavesFenced, hitem]
      exact iff_of_true (fun _ _ hnone => nomatch hnone) trivial
    | some item =>
      obtain ⟨owner, maxAttempts, event, stage⟩ := item
      cases stage with
      | projecting =>
        simp only [checkpointer, SavesFenced, hitem]
        exact iff_of_true (fun _ _ hnone => nomatch hnone) trivial
      | completing =>
        simp only [checkpointer, SavesFenced, hitem]
        exact iff_of_true (fun _ _ hnone => nomatch hnone) trivial
      | failing error =>
        simp only [checkpointer, SavesFenced, hitem]
        exact iff_of_true (fun _ _ hnone => nomatch hnone) trivial
      | done =>
        simp only [checkpointer, SavesFenced, hitem]
        exact iff_of_true (fun _ _ hnone => nomatch hnone) trivial
      | checkpointing =>
        rw [step_drain hitem]
        simp only [checkpointer, SavesFenced, hitem]
        rw [drain_checkpoint]
        have hkept := checkpoint_kept_iff store.leases turn.now turn.strategyRunId
          turn.stateJson "running" event.executionEventId
        constructor
        · intro hall hrun heffect
          have hnow := hall owner turn.now rfl
          rw [if_pos ⟨hrun, heffect⟩] at hnow
          by_cases hholds : store.Holds turn.now owner
          · exact Or.inl hholds
          · exact Or.inr (hkept.mp (hnow hholds))
        · rintro hsaves owner' now' hsame hnot
          cases hsame
          by_cases hwritten : turn.strategyRunId ≠ 0 ∧ turn.fault.takesEffect = true
          · rw [if_pos hwritten]
            rcases hsaves hwritten.1 hwritten.2 with hholds | hlater
            · exact absurd hholds hnot
            · exact hkept.mpr hlater
          · rw [if_neg hwritten]

theorem holds_of_lock {now : Time} {owner : WorkerId} {event : GridActorEvent} {granted : Unit}
    (h : store.lockOwnership now owner event = .ok granted) :
    store.HoldsToken now owner event := by
  unfold GridActorStore.lockOwnership at h
  by_cases hlocked : store.HoldsToken now owner event ∧
      ∃ row ∈ store.events, GridActorStore.InProcess owner event row
  · exact hlocked.1
  · rw [if_neg hlocked] at h
    exact nomatch h

theorem project_projections {turn : DrainTurn} {owner : WorkerId} {event : GridActorEvent}
    {projection : Projection}
    (hnew : (store.project turn owner event).1.projections = projection :: store.projections) :
    store.HoldsToken projection.now projection.owner projection.event := by
  unfold GridActorStore.project at hnew
  cases hlock : store.lockOwnership turn.now owner event with
  | error error =>
    rw [hlock] at hnew
    exact absurd hnew.symm (List.cons_ne_self _ _)
  | ok granted =>
    rw [hlock] at hnew
    dsimp only at hnew
    cases hprocessed : turn.processed with
    | error error =>
      rw [hprocessed] at hnew
      exact absurd hnew.symm (List.cons_ne_self _ _)
    | ok committed =>
      rw [hprocessed] at hnew
      dsimp only at hnew
      rcases Fault.call_store turn.fault store
        ({ store with projections := ⟨owner, event, turn.now⟩ :: store.projections }, ()) with
        hsame | hother
      · rw [hsame] at hnew
        exact absurd hnew.symm (List.cons_ne_self _ _)
      · rw [hother] at hnew
        cases hnew
        exact holds_of_lock hlock

theorem drain_projections (item : DrainedEvent) (turn : DrainTurn) :
    (store.drain item turn).1.projections = store.projections ∨
      (store.drain item turn).1.projections =
        (store.project turn item.owner item.event).1.projections := by
  have hcomplete : (store.complete turn.now item.owner item.event).1.projections =
      store.projections := by
    unfold GridActorStore.complete
    split_ifs
    · rfl
    · rfl
  unfold GridActorStore.drain
  cases item.stage with
  | projecting =>
    dsimp only
    cases turn.refusal with
    | some error => exact Or.inl rfl
    | none =>
      refine Or.inr ?_
      dsimp only
      split
      all_goals
        rename_i hproject
        rw [hproject]
  | checkpointing =>
    refine Or.inl ?_
    dsimp only
    split_ifs
    · rfl
    · rcases Fault.call_store turn.fault store (store.checkpoint turn.now turn.strategyRunId
        turn.stateJson "running" item.event.executionEventId) with hsame | hother
      · rw [hsame]
      · rw [hother]
        rfl
  | completing =>
    refine Or.inl ?_
    dsimp only
    split
    all_goals
      rename_i hcall
      exact Fault.call_keeps (P := fun after => after.projections = store.projections) hcall rfl
        hcomplete
  | failing error =>
    refine Or.inl ?_
    rcases Fault.call_store turn.fault store (store.fail turn.now item.owner item.event error
      item.maxAttempts, ()) with hsame | hother
    · show (turn.fault.call store _).1.projections = _
      rw [hsame]
    · show (turn.fault.call store _).1.projections = _
      rw [hother]
      rfl
  | done => exact Or.inl rfl

theorem projections_step (move : GridActorMove) (projection : Projection)
    (hnew : (store.step move).projections = projection :: store.projections) :
    store.HoldsToken projection.now projection.owner projection.event := by
  have hother : (store.step move).projections ≠ store.projections :=
    fun hsame => List.cons_ne_self _ _ (hnew.symm.trans hsame)
  cases move with
  | acquire now owner leaseSeconds => exact absurd rfl hother
  | renew now owner leaseSeconds => exact absurd rfl hother
  | release now owner => exact absurd rfl hother
  | revoke now => exact absurd rfl hother
  | cleanup now => exact absurd rfl hother
  | save now owner strategyRunId stateJson status lastExecutionEventId => exact absurd rfl hother
  | enqueue now executionEventId gridOrderId =>
    refine absurd ?_ hother
    simp only [GridActorStore.step]
    unfold GridActorStore.enqueue
    split_ifs
    · rfl
    · rfl
    · rfl
  | claim now owner limit leaseSeconds maxAttempts locked =>
    refine absurd ?_ hother
    simp only [GridActorStore.step]
    unfold GridActorStore.claimForOwner GridActorStore.claimReady
    cases (store.buryExhausted now maxAttempts).leases.lease with
    | none => rfl
    | some lease =>
      dsimp only
      split_ifs
      · rfl
      · rfl
  | drain index turn =>
    cases hitem : store.drained[index]? with
    | none =>
      rw [step_drain_none hitem] at hother
      exact absurd rfl hother
    | some item =>
      rw [step_drain hitem] at hnew hother
      rcases @drain_projections store item turn with hsame | hproject
      · exact absurd hsame hother
      · exact project_projections (hproject.symm.trans hnew)

end Moves

/-! ## Main theorem -/

theorem numbered_empty : Numbered {} :=
  fun _ _ hrow => nomatch hrow

theorem fenced_iff_timely {store : GridActorStore} {move : GridActorMove} (h : Numbered store) :
    ActorFenced store move ↔ ActorTimely store move := by
  constructor
  · intro hfenced
    exact ⟨(keepsEvents_step_iff h move).mp hfenced.absorbing,
      (checkpoints_step_iff move).mp hfenced.checkpoints⟩
  · rintro ⟨hreports, hsaves⟩
    exact ⟨(keepsEvents_step_iff h move).mpr hreports, projections_step move,
      (checkpoints_step_iff move).mpr hsaves⟩

/-- **Fencing of the grid actor.** A history is fenced in every move exactly if every report of
failure finds its event open and every state is saved by the holder of the lease. -/
theorem grid_actor_fenced_iff (moves : List GridActorMove) :
    Along GridActorStore.step ActorFenced {} moves ↔
      Along GridActorStore.step ActorTimely {} moves :=
  along_iff_of_invariant (I := Numbered) (fun _ move h => numbered_step h move)
    (fun _ _ h => fenced_iff_timely h) numbered_empty moves

/-! ## A revived event and a former owner -/

theorem gridWorkerA_named : "worker-a" ≠ "" := by decide

theorem gridWorkerB_named : "worker-b" ≠ "" := by decide

def gridWorkerA : WorkerId := ⟨"worker-a", gridWorkerA_named⟩

def gridWorkerB : WorkerId := ⟨"worker-b", gridWorkerB_named⟩

/-- A drain stalls after its projection; a second drain of the same owner claims the event again and
completes it; then the first one goes on and fails. -/
def revivedEvent : List GridActorMove :=
  [.acquire 0 gridWorkerA 600, .enqueue 0 7 3,
    .claim 0 gridWorkerA 100 30 8 (fun _ => false), .drain 0 { now := 0 },
    .claim (40 * oneSecond) gridWorkerA 100 30 8 (fun _ => false),
    .drain 1 { now := 40 * oneSecond }, .drain 1 { now := 40 * oneSecond },
    .drain 1 { now := 40 * oneSecond }, .drain 0 { now := 41 * oneSecond },
    .drain 0 { now := 41 * oneSecond }]

/-- The lease of a worker runs out, another one takes it, and the first one saves its state. -/
def formerOwner : List GridActorMove :=
  [.acquire 0 gridWorkerA 60, .acquire (61 * oneSecond) gridWorkerB 60]

/-- The late report makes the completed event one that failed, and the former owner saves its state
under the lease of the new one. -/
theorem revived_and_overwritten :
    ¬ Along GridActorStore.step ActorFenced {}
        (revivedEvent ++ [.drain 0 { now := 42 * oneSecond }]) ∧
      ¬ Along GridActorStore.step ActorFenced {}
        (formerOwner ++ [.save (62 * oneSecond) gridWorkerA 1 "stale" "running" 0]) := by
  have hnumbered : ∀ moves, Numbered (runActions GridActorStore.step {} moves) :=
    fun moves => runActions_invariant (I := Numbered) (fun _ move h => numbered_step h move)
      numbered_empty moves
  constructor
  · intro h
    obtain ⟨-, hfenced, -⟩ := along_append.mp h
    rw [fenced_iff_timely (hnumbered _)] at hfenced
    revert hfenced
    decide +kernel
  · intro h
    obtain ⟨-, hfenced, -⟩ := along_append.mp h
    rw [fenced_iff_timely (hnumbered _)] at hfenced
    revert hfenced
    decide +kernel

end QuantDinger.Analysis
