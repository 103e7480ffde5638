import Mathlib.Data.Finset.Card
import Mathlib.Data.List.Sort
import Mathlib.Data.Rat.Defs
import Mathlib.Algebra.Order.Ring.Rat
import Mathlib.Logic.Function.Basic

/-!
# The cooperative runtime scheduler

Many strategy runtimes that yield the delay until their next step, a queue of due times and a pool
of workers. An action is one section under `_condition`, one part of a section under a `_run_lock`,
or one write outside of both, so a run of actions is an interleaving. What the runtime itself does
in a step (the delay it yields, or that it ends or raises) comes with the action. `close` is left
out, and with it the end of a worker; `_closed` is still read where the source reads it.
-/

namespace QuantDinger.Model.Scheduling

/-! ## Handles and workers -/

/-- Calls of `start` and `cancel` on a handle that are under way, by what they do next. -/
structure CallsUnderWay where
  /-- `start` has read `_started` and is about to set it. -/
  starting : ℕ := 0
  /-- `start` has set `_started` and is about to call `_schedule`. -/
  scheduling : ℕ := 0
  /-- `cancel` has set `stop_event` and is about to read `_started` and `_done`. -/
  cancelling : ℕ := 0
  /-- `cancel` is about to call `_schedule`. -/
  waking : ℕ := 0
  deriving DecidableEq

/-- `ScheduledRuntimeHandle`. The runtime is a generator; `steps` are the versions of the entries
for which `next` was called on it, the latest first.
SOURCE: scheduler.py:18-43 -/
structure RuntimeHandle where
  strategyId : ℤ := 0
  stopEvent : Bool := false
  done : Bool := false
  started : Bool := false
  scheduleVersion : ℕ := 0
  /-- The worker that holds `_run_lock`. -/
  runLock : Option ℕ := none
  running : Bool := false
  eventPending : Bool := false
  eventWakeQueued : Bool := false
  completedSteps : ℕ := 0
  steps : List ℕ := []
  calls : CallsUnderWay := {}
  deriving DecidableEq

/-- `is_alive`.
SOURCE: scheduler.py:59-60 -/
def RuntimeHandle.isAlive (handle : RuntimeHandle) : Bool := handle.started && !handle.done

/-- An entry of the queue.
SOURCE: scheduler.py:103 -/
structure QueueEntry where
  dueAt : ℚ
  sequence : ℕ
  version : ℕ
  eventWake : Bool
  handle : ℕ
  deriving DecidableEq

/-- The order of the heap; the sequence numbers differ, so nothing after them is compared. -/
def QueueEntry.Before (a b : QueueEntry) : Prop :=
  a.dueAt < b.dueAt ∨ a.dueAt = b.dueAt ∧ a.sequence ≤ b.sequence

instance : DecidableRel QueueEntry.Before :=
  fun a b => inferInstanceAs (Decidable (a.dueAt < b.dueAt ∨ _))

/-- Where a worker is with the entry it has taken from the queue: what it does next. -/
inductive Stage
  /-- Acquire the run lock of the handle. -/
  | claimed
  /-- Under the run lock: the entry is of no use any more; clear `_running`. -/
  | stale
  /-- Under the run lock: in `next(handle.runtime)`. -/
  | stepping
  /-- Under the run lock: the runtime has ended or raised; clear `_running`. -/
  | failed
  /-- Under the run lock: mark the handle done. -/
  | ending
  /-- Under the run lock: forget the handle. -/
  | forgetting
  /-- Count the step. -/
  | stepped (delay : ℚ)
  /-- Schedule the next step. -/
  | counted (delay : ℚ)
  deriving DecidableEq

/-- The stages under the run lock. -/
def Stage.locked : Stage → Bool
  | .stale | .stepping | .failed | .ending | .forgetting => true
  | .claimed | .stepped _ | .counted _ => false

/-- The handle and the version that a worker has taken from the queue. -/
structure Job where
  handle : ℕ
  version : ℕ
  stage : Stage := .claimed
  deriving DecidableEq

/-- `CooperativeRuntimeScheduler`. Handles are numbered as they are created; `handles` and
`handlesByStrategy` are the set and the dictionary of the source, `now` is the clock.
SOURCE: scheduler.py:97-110 -/
structure Scheduler where
  workerCount : ℕ
  queue : List QueueEntry := []
  sequence : ℕ := 0
  workers : List (Option Job) := []
  handles : Finset ℕ := ∅
  handlesByStrategy : ℤ → Option ℕ := fun _ => none
  closed : Bool := false
  created : ℕ := 0
  handle : ℕ → RuntimeHandle := fun _ => {}
  now : ℚ := 0

namespace Scheduler

/-- `__init__`.
SOURCE: scheduler.py:100-110 -/
def init (workerCount : ℤ) : Scheduler := { workerCount := max 1 workerCount.toNat }

variable (s : Scheduler)

/-- An update of one handle. -/
def setHandle (id : ℕ) (f : RuntimeHandle → RuntimeHandle) : Scheduler :=
  { s with handle := Function.update s.handle id (f (s.handle id)) }

/-- What a worker has under way. -/
def job (w : ℕ) : Option Job := s.workers[w]?.join

/-- What a worker has under way from now on. -/
def setJob (w : ℕ) (job : Option Job) : Scheduler := { s with workers := s.workers.set w job }

/-! ## The queue -/

/-- The entry is of the current version of a handle that is alive. -/
def Current (entry : QueueEntry) : Prop :=
  entry.version = (s.handle entry.handle).scheduleVersion ∧
    (s.handle entry.handle).isAlive = true

instance : DecidablePred s.Current :=
  fun entry => inferInstanceAs (Decidable (entry.version = _ ∧ _))

/-- `_compact_queue_locked`.
SOURCE: scheduler.py:238-247 -/
def compactQueueLocked : Scheduler :=
  if s.queue.length ≤ max 128 (s.handles.card * 2) then s
  else { s with queue := s.queue.filter fun entry => s.Current entry }

/-- `_schedule_locked`; the heap is the list of its entries in order.
SOURCE: scheduler.py:221-236 -/
def scheduleLocked (id : ℕ) (delaySeconds : ℚ) (eventWake : Bool) : Scheduler :=
  let version := (s.handle id).scheduleVersion + 1
  let entry : QueueEntry := ⟨s.now + max 0 delaySeconds, s.sequence, version, eventWake, id⟩
  let pushed := s.setHandle id fun handle => { handle with scheduleVersion := version }
  compactQueueLocked { pushed with
    queue := s.queue.orderedInsert QueueEntry.Before entry
    sequence := s.sequence + 1 }

/-- `start`; nothing if it raises.
SOURCE: scheduler.py:168-181 -/
def start : Option Scheduler :=
  if s.workers ≠ [] then some s
  else if s.closed then none
  else some { s with workers := List.replicate s.workerCount none }

/-- `_schedule`.
SOURCE: scheduler.py:211-219 -/
def schedule (id : ℕ) (delaySeconds : ℚ) : Scheduler :=
  if s.closed ∧ (s.handle id).started = false then
    { s.setHandle id fun handle => { handle with done := true } with handles := s.handles.erase id }
  else
    match s.start with
    | none => s
    | some started => started.scheduleLocked id delaySeconds false

/-! ## The calls of the clients -/

/-- `create`.
SOURCE: scheduler.py:112-130 -/
def create (strategyId : ℤ) : Scheduler :=
  if s.closed then s
  else { s with
    handle := Function.update s.handle s.created { strategyId := strategyId }
    handles := insert s.created s.handles
    handlesByStrategy := Function.update s.handlesByStrategy strategyId (some s.created)
    created := s.created + 1 }

/-- The section of `wake_strategy` and what it returns.
SOURCE: scheduler.py:132-145 -/
def wakeStrategy (strategyId : ℤ) : Bool × Scheduler :=
  match s.handlesByStrategy strategyId with
  | none => (false, s)
  | some id =>
    if !(s.handle id).isAlive || s.closed then (false, s)
    else
      let noted := s.setHandle id fun handle => { handle with eventPending := true }
      if (s.handle id).running || (s.handle id).eventWakeQueued then (true, noted)
      else
        let queued := noted.setHandle id fun handle => { handle with eventWakeQueued := true }
        (true, queued.scheduleLocked id 0 true)

/-- The section of `wake_strategy_and_wait` and the step it goes on to wait for.
SOURCE: scheduler.py:147-166 -/
def wakeStrategyAndWait (strategyId : ℤ) : Option ℕ × Scheduler :=
  match s.handlesByStrategy strategyId with
  | none => (none, s)
  | some id =>
    if !(s.handle id).isAlive || s.closed then (none, s)
    else
      let target := (s.handle id).completedSteps + if (s.handle id).running then 2 else 1
      let noted := s.setHandle id fun handle => { handle with eventPending := true }
      if !(s.handle id).running && !(s.handle id).eventWakeQueued then
        let queued := noted.setHandle id fun handle => { handle with eventWakeQueued := true }
        (some target, queued.scheduleLocked id 0 true)
      else (some target, noted)

/-- `_forget`.
SOURCE: scheduler.py:204-209 -/
def forget (id : ℕ) : Scheduler :=
  { s with
    handles := s.handles.erase id
    handlesByStrategy :=
      if s.handlesByStrategy (s.handle id).strategyId = some id then
        Function.update s.handlesByStrategy (s.handle id).strategyId none
      else s.handlesByStrategy }

/-! ## The sections of a worker -/

/-- The section of `_run` that takes an entry: stale entries at the head are dropped, and the worker
waits if nothing is due.
SOURCE: scheduler.py:251-271 -/
def claim (w : ℕ) : Scheduler :=
  match s.queue.dropWhile fun entry => ¬ s.Current entry with
  | [] => { s with queue := [] }
  | entry :: rest =>
    if 0 < entry.dueAt - s.now then { s with queue := entry :: rest }
    else
      let taken := { s with queue := rest }
      (taken.setHandle entry.handle fun handle => { handle with
        eventWakeQueued := if entry.eventWake then false else handle.eventWakeQueued
        eventPending := false
        running := true }).setJob w (some ⟨entry.handle, entry.version, .claimed⟩)

/-- The worker acquires the run lock and looks whether its entry is still of use; if so, the step
begins.
SOURCE: scheduler.py:273-282 -/
def acquire (w : ℕ) (job : Job) : Scheduler :=
  let handle := s.handle job.handle
  if handle.runLock ≠ none then s
  else if ¬ handle.isAlive ∨ job.version ≠ handle.scheduleVersion then
    (s.setHandle job.handle fun handle => { handle with runLock := some w }).setJob w
      (some { job with stage := .stale })
  else
    (s.setHandle job.handle fun handle => { handle with
      runLock := some w
      steps := job.version :: handle.steps }).setJob w (some { job with stage := .stepping })

/-- How a step of the runtime ends. -/
inductive Outcome
  | yields (delay : ℚ)
  | raises
  deriving DecidableEq

/-- The next section of a worker that has taken an entry. The outcome is that of the runtime, where
the worker is in its step.
SOURCE: scheduler.py:273-315 -/
def advance (w : ℕ) (job : Job) (outcome : Outcome) : Scheduler :=
  match job.stage with
  | .claimed => s.acquire w job
  | .stale =>
    (s.setHandle job.handle fun handle => { handle with running := false, runLock := none }).setJob
      w none
  | .stepping =>
    match outcome with
    | .yields delay =>
      (s.setHandle job.handle fun handle => { handle with runLock := none }).setJob w
        (some { job with stage := .stepped delay })
    | .raises => s.setJob w (some { job with stage := .failed })
  | .failed =>
    (s.setHandle job.handle fun handle => { handle with running := false }).setJob w
      (some { job with stage := .ending })
  | .ending =>
    (s.setHandle job.handle fun handle => { handle with done := true }).setJob w
      (some { job with stage := .forgetting })
  | .forgetting =>
    ((s.forget job.handle).setHandle job.handle fun handle => { handle with
      runLock := none }).setJob w none
  | .stepped delay =>
    (s.setHandle job.handle fun handle => { handle with
      completedSteps := handle.completedSteps + 1 }).setJob w
        (some { job with stage := .counted delay })
  | .counted delay =>
    let handle := s.handle job.handle
    let pending := handle.eventPending
    let nextDelay := if handle.stopEvent || pending then 0 else max 0 delay
    ((s.setHandle job.handle fun handle => { handle with
      running := false
      eventWakeQueued := if pending then true else handle.eventWakeQueued }).scheduleLocked
        job.handle nextDelay pending).setJob w none

end Scheduler

/-! ## Interleavings -/

/-- What happens next. -/
inductive SchedulerAction
  | elapse (seconds : ℚ)
  | create (strategyId : ℤ)
  | startCheck (id : ℕ)
  | startFlag (id : ℕ)
  | startSchedule (id : ℕ)
  | cancelStop (id : ℕ)
  | cancelCheck (id : ℕ)
  | cancelSchedule (id : ℕ)
  | wake (strategyId : ℤ)
  | wakeAndWait (strategyId : ℤ)
  | worker (w : ℕ) (outcome : Scheduler.Outcome)
  deriving DecidableEq

namespace Scheduler

/-- An update of the calls under way on a handle. -/
def setCalls (s : Scheduler) (id : ℕ) (f : CallsUnderWay → CallsUnderWay) : Scheduler :=
  s.setHandle id fun handle => { handle with calls := f handle.calls }

/-- The state after an action; an action that is not possible changes nothing. A worker without an
entry looks for one, any other goes on with its own.
SOURCE: scheduler.py:45-54, 132-166, 249-315 -/
def act (s : Scheduler) : SchedulerAction → Scheduler
  | .elapse seconds => { s with now := s.now + max 0 seconds }
  | .create strategyId => s.create strategyId
  | .startCheck id =>
    if id < s.created ∧ (s.handle id).started = false then
      s.setCalls id fun calls => { calls with starting := calls.starting + 1 }
    else s
  | .startFlag id =>
    if 0 < (s.handle id).calls.starting then
      (s.setHandle id fun handle => { handle with started := true }).setCalls id fun calls =>
        { calls with starting := calls.starting - 1, scheduling := calls.scheduling + 1 }
    else s
  | .startSchedule id =>
    if 0 < (s.handle id).calls.scheduling then
      (s.setCalls id fun calls => { calls with scheduling := calls.scheduling - 1 }).schedule id 0
    else s
  | .cancelStop id =>
    if id < s.created then
      (s.setHandle id fun handle => { handle with stopEvent := true }).setCalls id fun calls =>
        { calls with cancelling := calls.cancelling + 1 }
    else s
  | .cancelCheck id =>
    if 0 < (s.handle id).calls.cancelling then
      if (s.handle id).started && !(s.handle id).done then
        s.setCalls id fun calls =>
          { calls with cancelling := calls.cancelling - 1, waking := calls.waking + 1 }
      else s.setCalls id fun calls => { calls with cancelling := calls.cancelling - 1 }
    else s
  | .cancelSchedule id =>
    if 0 < (s.handle id).calls.waking then
      (s.setCalls id fun calls => { calls with waking := calls.waking - 1 }).schedule id 0
    else s
  | .wake strategyId => (s.wakeStrategy strategyId).2
  | .wakeAndWait strategyId => (s.wakeStrategyAndWait strategyId).2
  | .worker w outcome =>
    match s.workers[w]? with
    | none => s
    | some none => s.claim w
    | some (some job) => s.advance w job outcome

end Scheduler

end QuantDinger.Model.Scheduling
