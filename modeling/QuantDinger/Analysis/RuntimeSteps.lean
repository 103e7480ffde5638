import Mathlib.Tactic.Linarith
import QuantDinger.Library.SortedQueue
import QuantDinger.Model.RuntimeScheduler

/-!
# What an action does to one runtime

The scheduler seen from one handle: its flags, the entries of its current version that are queued
while it is alive, and the workers that have taken one of its entries. Stale entries and the other
handles are not seen. `view_act` says what an action can do to such a view; the laws of the
scheduler follow from that alone.
-/

namespace QuantDinger.Analysis

open QuantDinger.Library
open QuantDinger.Model.Scheduling
open QuantDinger.Model.Scheduling.Scheduler (Outcome)

/-! ## Views -/

/-- The scheduler, seen from one handle. An entry is its due time and whether it is a wake. -/
structure RuntimeView where
  born : Bool
  handle : RuntimeHandle
  current : List (ℚ × Bool)
  job : ℕ → Option Job
  now : ℚ

namespace RuntimeView

variable (v : RuntimeView)

def setHandle (f : RuntimeHandle → RuntimeHandle) : RuntimeView := { v with handle := f v.handle }

def setCalls (f : CallsUnderWay → CallsUnderWay) : RuntimeView :=
  v.setHandle fun handle => { handle with calls := f handle.calls }

def setJob (w : ℕ) (job : Option Job) : RuntimeView :=
  { v with job := Function.update v.job w job }

def push (delay : ℚ) (eventWake : Bool) : RuntimeView := { v with
  handle := { v.handle with scheduleVersion := v.handle.scheduleVersion + 1 }
  current := if v.handle.isAlive then [(v.now + max 0 delay, eventWake)] else [] }

end RuntimeView

/-- What kind of call a step is, as far as the laws tell them apart. -/
inductive RuntimeLabel
  | wake
  | start
  | quiet
  deriving DecidableEq

/-- The steps of a view. -/
inductive RuntimeStep : RuntimeLabel → RuntimeView → RuntimeView → Prop
  | rest {label v} (now : ℚ) : v.now ≤ now → RuntimeStep label v { v with now := now }
  | created {v} (strategyId : ℤ) : v.born = false →
      RuntimeStep .quiet v { v.setHandle fun _ => { strategyId := strategyId } with born := true }
  | startChecked {v} : v.born = true → v.handle.started = false →
      RuntimeStep .start v (v.setCalls fun calls => { calls with starting := calls.starting + 1 })
  | startFlagged {v} : 0 < v.handle.calls.starting →
      RuntimeStep .quiet v ((v.setHandle fun handle => { handle with started := true }).setCalls
        fun calls =>
          { calls with starting := calls.starting - 1, scheduling := calls.scheduling + 1 })
  | startScheduled {v} : 0 < v.handle.calls.scheduling →
      RuntimeStep .quiet v
        ((v.setCalls fun calls => { calls with scheduling := calls.scheduling - 1 }).push 0 false)
  | cancelStopped {v} : v.born = true →
      RuntimeStep .quiet v ((v.setHandle fun handle => { handle with stopEvent := true }).setCalls
        fun calls => { calls with cancelling := calls.cancelling + 1 })
  | cancelReturned {v} : 0 < v.handle.calls.cancelling →
      RuntimeStep .quiet v
        (v.setCalls fun calls => { calls with cancelling := calls.cancelling - 1 })
  | cancelChecked {v} : 0 < v.handle.calls.cancelling → v.handle.isAlive = true →
      RuntimeStep .quiet v (v.setCalls fun calls =>
        { calls with cancelling := calls.cancelling - 1, waking := calls.waking + 1 })
  | cancelScheduled {v} : 0 < v.handle.calls.waking →
      RuntimeStep .quiet v
        ((v.setCalls fun calls => { calls with waking := calls.waking - 1 }).push 0 false)
  | wakeNoted {v} : v.handle.isAlive = true →
      v.handle.running = true ∨ v.handle.eventWakeQueued = true →
      RuntimeStep .wake v (v.setHandle fun handle => { handle with eventPending := true })
  | wakePushed {v} : v.handle.isAlive = true → v.handle.running = false →
      v.handle.eventWakeQueued = false →
      RuntimeStep .wake v ((v.setHandle fun handle =>
        { handle with eventPending := true, eventWakeQueued := true }).push 0 true)
  | claimed {v} (w : ℕ) (job : Job) {due : ℚ} {event : Bool} {rest : List (ℚ × Bool)} :
      v.job w = none → v.current = (due, event) :: rest → due ≤ v.now →
      job.version = v.handle.scheduleVersion → job.stage = .claimed →
      RuntimeStep .quiet v ({ v.setHandle fun handle => { handle with
        eventWakeQueued := if event then false else handle.eventWakeQueued
        eventPending := false
        running := true } with current := rest }.setJob w (some job))
  | refused {v} (w : ℕ) {job : Job} : v.job w = some job → job.stage = .claimed →
      v.handle.runLock = none →
      v.handle.isAlive = false ∨ job.version ≠ v.handle.scheduleVersion →
      RuntimeStep .quiet v ((v.setHandle fun handle => { handle with runLock := some w }).setJob w
        (some { job with stage := .stale }))
  | begun {v} (w : ℕ) {job : Job} : v.job w = some job → job.stage = .claimed →
      v.handle.runLock = none → v.handle.isAlive = true →
      job.version = v.handle.scheduleVersion →
      RuntimeStep .quiet v ((v.setHandle fun handle => { handle with
        runLock := some w
        steps := job.version :: handle.steps }).setJob w (some { job with stage := .stepping }))
  | dropped {v} (w : ℕ) {job : Job} : v.job w = some job → job.stage = .stale →
      RuntimeStep .quiet v ((v.setHandle fun handle =>
        { handle with running := false, runLock := none }).setJob w none)
  | yielded {v} (w : ℕ) {job : Job} (delay : ℚ) : v.job w = some job → job.stage = .stepping →
      RuntimeStep .quiet v ((v.setHandle fun handle => { handle with runLock := none }).setJob w
        (some { job with stage := .stepped delay }))
  | raised {v} (w : ℕ) {job : Job} : v.job w = some job → job.stage = .stepping →
      RuntimeStep .quiet v (v.setJob w (some { job with stage := .failed }))
  | cleared {v} (w : ℕ) {job : Job} : v.job w = some job → job.stage = .failed →
      RuntimeStep .quiet v ((v.setHandle fun handle => { handle with running := false }).setJob w
        (some { job with stage := .ending }))
  | ended {v} (w : ℕ) {job : Job} : v.job w = some job → job.stage = .ending →
      RuntimeStep .quiet v ({ v.setHandle fun handle => { handle with done := true } with
        current := [] }.setJob w (some { job with stage := .forgetting }))
  | forgotten {v} (w : ℕ) {job : Job} : v.job w = some job → job.stage = .forgetting →
      RuntimeStep .quiet v
        ((v.setHandle fun handle => { handle with runLock := none }).setJob w none)
  | counted {v} (w : ℕ) {job : Job} {delay : ℚ} : v.job w = some job →
      job.stage = .stepped delay →
      RuntimeStep .quiet v ((v.setHandle fun handle =>
        { handle with completedSteps := handle.completedSteps + 1 }).setJob w
          (some { job with stage := .counted delay }))
  | rescheduled {v} (w : ℕ) {job : Job} {delay : ℚ} : v.job w = some job →
      job.stage = .counted delay →
      RuntimeStep .quiet v (((v.setHandle fun handle => { handle with
        running := false
        eventWakeQueued := if handle.eventPending then true else handle.eventWakeQueued }).push
          (if v.handle.stopEvent || v.handle.eventPending then 0 else max 0 delay)
          v.handle.eventPending).setJob w none)

/-! ## The view of a state -/

/-- The queued entries of the current version of a handle that is alive. -/
def currentEntries (s : Scheduler) (id : ℕ) : List QueueEntry :=
  s.queue.filter fun entry => entry.handle = id ∧ s.Current entry

def view (s : Scheduler) (id : ℕ) : RuntimeView where
  born := decide (id < s.created)
  handle := s.handle id
  current := (currentEntries s id).map fun entry => (entry.dueAt, entry.eventWake)
  job := fun w => (s.job w).filter fun job => job.handle = id
  now := s.now

/-- What holds of every handle: nothing happens to it before it is created, and nothing is queued or
taken before it is started. -/
structure OrderlyView (v : RuntimeView) : Prop where
  unborn : v.born = false → v.handle = {}
  version : 0 < v.handle.scheduleVersion → v.handle.started = true
  scheduling : 0 < v.handle.calls.scheduling → v.handle.started = true
  waking : 0 < v.handle.calls.waking → v.handle.started = true
  job : ∀ w job, v.job w = some job → v.handle.started = true
  current : v.current ≠ [] → v.handle.isAlive = true

/-- What holds in every state. -/
structure Sound (s : Scheduler) : Prop where
  opened : s.closed = false
  versions : ∀ entry ∈ s.queue,
    0 < entry.version ∧ entry.version ≤ (s.handle entry.handle).scheduleVersion
  orderly : ∀ id, OrderlyView (view s id)

/-! ## How the functions of the scheduler change it -/

section

variable {s : Scheduler} {id : ℕ}

theorem mem_currentEntries {entry : QueueEntry} :
    entry ∈ currentEntries s id ↔
      entry ∈ s.queue ∧ entry.handle = id ∧
        entry.version = (s.handle id).scheduleVersion ∧ (s.handle id).isAlive = true := by
  unfold currentEntries Scheduler.Current
  rw [List.mem_filter, decide_eq_true_eq]
  constructor
  · rintro ⟨hmem, rfl, hcurrent⟩
    exact ⟨hmem, rfl, hcurrent⟩
  · rintro ⟨hmem, rfl, hcurrent⟩
    exact ⟨hmem, rfl, hcurrent⟩

theorem currentEntries_of_dead (h : (s.handle id).isAlive = false) : currentEntries s id = [] := by
  rw [List.eq_nil_iff_forall_not_mem]
  intro entry hentry
  obtain ⟨_, _, _, halive⟩ := mem_currentEntries.1 hentry
  rw [h] at halive
  exact Bool.false_ne_true halive

theorem currentEntries_congr {t : Scheduler} (hqueue : t.queue = s.queue)
    (hversion : (t.handle id).scheduleVersion = (s.handle id).scheduleVersion)
    (halive : (t.handle id).isAlive = (s.handle id).isAlive) :
    currentEntries t id = currentEntries s id := by
  unfold currentEntries
  rw [hqueue]
  apply List.filter_congr
  intro entry _
  rw [decide_eq_decide]
  apply and_congr_right
  rintro rfl
  unfold Scheduler.Current
  rw [hversion, halive]

@[simp] theorem setHandle_handle_self (f : RuntimeHandle → RuntimeHandle) :
    (s.setHandle id f).handle id = f (s.handle id) := by
  simp [Scheduler.setHandle]

@[simp] theorem setHandle_queue (f : RuntimeHandle → RuntimeHandle) :
    (s.setHandle id f).queue = s.queue := rfl

theorem setHandle_handle_other {other : ℕ} (f : RuntimeHandle → RuntimeHandle) (h : id ≠ other) :
    (s.setHandle other f).handle id = s.handle id := by
  simp [Scheduler.setHandle, h]

theorem view_setHandle_other {other : ℕ} (f : RuntimeHandle → RuntimeHandle) (h : id ≠ other) :
    view (s.setHandle other f) id = view s id := by
  have hsame := setHandle_handle_other (s := s) f h
  have hentries : currentEntries (s.setHandle other f) id = currentEntries s id :=
    currentEntries_congr rfl (by rw [hsame]) (by rw [hsame])
  unfold view
  rw [hsame, hentries]
  rfl

theorem view_setHandle_self {f : RuntimeHandle → RuntimeHandle}
    (hversion : (f (s.handle id)).scheduleVersion = (s.handle id).scheduleVersion)
    (halive : (f (s.handle id)).isAlive = (s.handle id).isAlive) :
    view (s.setHandle id f) id = (view s id).setHandle f := by
  have hentries : currentEntries (s.setHandle id f) id = currentEntries s id :=
    currentEntries_congr rfl (by simpa using hversion) (by simpa using halive)
  unfold view RuntimeView.setHandle
  rw [setHandle_handle_self, hentries]
  rfl

theorem view_setJob {w : ℕ} (hw : w < s.workers.length) (job : Option Job) :
    view (s.setJob w job) id = (view s id).setJob w (job.filter fun job => job.handle = id) := by
  have hjobs : (view (s.setJob w job) id).job =
      Function.update (view s id).job w (job.filter fun job => job.handle = id) := by
    funext u
    by_cases hu : u = w
    · subst hu
      simp [view, Scheduler.job, Scheduler.setJob, hw]
    · rw [Function.update_of_ne hu]
      simp [view, Scheduler.job, Scheduler.setJob, List.getElem?_set, Ne.symm hu]
  unfold RuntimeView.setJob
  rw [← hjobs]
  rfl

theorem mem_compactQueueLocked {entry : QueueEntry} (hmem : entry ∈ s.queue)
    (hcurrent : s.Current entry) : entry ∈ s.compactQueueLocked.queue := by
  unfold Scheduler.compactQueueLocked
  split
  · exact hmem
  · exact List.mem_filter.2 ⟨hmem, decide_eq_true hcurrent⟩

theorem view_compactQueueLocked : view s.compactQueueLocked id = view s id := by
  unfold Scheduler.compactQueueLocked
  split
  · rfl
  · have hentries : currentEntries
        { s with queue := s.queue.filter fun entry => s.Current entry } id =
          currentEntries s id := by
      apply filter_filter_of_imp
      intro entry _ hentry
      rw [decide_eq_true_eq] at hentry ⊢
      exact hentry.2
    unfold view
    rw [hentries]
    rfl

/-- INTERNAL: what `_schedule_locked` leaves, before it compacts. -/
def pushed (s : Scheduler) (id : ℕ) (delay : ℚ) (event : Bool) : Scheduler :=
  let version := (s.handle id).scheduleVersion + 1
  { s.setHandle id fun handle => { handle with scheduleVersion := version } with
    queue := s.queue.orderedInsert QueueEntry.Before
      ⟨s.now + max 0 delay, s.sequence, version, event, id⟩
    sequence := s.sequence + 1 }

theorem scheduleLocked_eq (delay : ℚ) (event : Bool) :
    s.scheduleLocked id delay event = (pushed s id delay event).compactQueueLocked := rfl

theorem view_scheduleLocked_other {other : ℕ} (delay : ℚ) (event : Bool) (h : id ≠ other) :
    view (s.scheduleLocked other delay event) id = view s id := by
  rw [scheduleLocked_eq, view_compactQueueLocked]
  have hsame : (pushed s other delay event).handle id = s.handle id := by
    simp [pushed, setHandle_handle_other _ h]
  have hentries : currentEntries (pushed s other delay event) id = currentEntries s id := by
    unfold currentEntries
    rw [show (pushed s other delay event).queue = s.queue.orderedInsert QueueEntry.Before _
      from rfl, filter_orderedInsert_of_neg]
    · apply List.filter_congr
      intro entry _
      rw [decide_eq_decide]
      apply and_congr_right
      rintro rfl
      unfold Scheduler.Current
      rw [hsame]
    · simp [Ne.symm h]
  unfold view
  rw [hsame, hentries]
  rfl

theorem view_scheduleLocked_self (delay : ℚ) (event : Bool)
    (h : ∀ entry ∈ s.queue, entry.handle = id →
      entry.version ≤ (s.handle id).scheduleVersion) :
    view (s.scheduleLocked id delay event) id = (view s id).push delay event := by
  rw [scheduleLocked_eq, view_compactQueueLocked]
  have hhandle : (pushed s id delay event).handle id =
      { s.handle id with scheduleVersion := (s.handle id).scheduleVersion + 1 } := by
    simp [pushed]
  have hold : ∀ entry ∈ s.queue,
      decide (entry.handle = id ∧ (pushed s id delay event).Current entry) = false := by
    intro entry hentry
    rw [decide_eq_false_iff_not]
    rintro ⟨rfl, hversion, _⟩
    rw [hhandle] at hversion
    have := h entry hentry rfl
    simp only at hversion
    omega
  have hentries : (currentEntries (pushed s id delay event) id).map
      (fun entry => (entry.dueAt, entry.eventWake)) =
        if (s.handle id).isAlive then [(s.now + max 0 delay, event)] else [] := by
    split
    · next halive =>
      unfold currentEntries
      rw [show (pushed s id delay event).queue = s.queue.orderedInsert QueueEntry.Before _
        from rfl, filter_orderedInsert_of_empty _ hold]
      · rfl
      · rw [decide_eq_true_eq]
        refine ⟨rfl, ?_⟩
        unfold Scheduler.Current
        rw [hhandle]
        exact ⟨rfl, halive⟩
    · next hdead =>
      rw [currentEntries_of_dead]
      · rfl
      · rw [hhandle]
        exact Bool.not_eq_true _ ▸ hdead
  unfold view RuntimeView.push
  rw [hentries, hhandle]
  rfl

end

/-! ## What an action does -/

/-- What kind of call the action is on a handle. -/
def runtimeLabel (s : Scheduler) (id : ℕ) : SchedulerAction → RuntimeLabel
  | .wake strategyId | .wakeAndWait strategyId =>
    if s.handlesByStrategy strategyId = some id then .wake else .quiet
  | .startCheck other => if other = id then .start else .quiet
  | _ => .quiet

section

variable {s t : Scheduler} {id : ℕ}

theorem RuntimeStep.unseen {label : RuntimeLabel} (h : view t id = view s id) :
    RuntimeStep label (view s id) (view t id) := by
  rw [h]
  exact .rest (view s id).now le_rfl

theorem RuntimeView.setJob_none {v : RuntimeView} {w : ℕ} (h : v.job w = none) :
    v.setJob w none = v := by
  unfold RuntimeView.setJob
  rw [← h, Function.update_eq_self]

theorem view_job {w : ℕ} {job : Job} (h : s.workers[w]? = some (some job)) :
    (view s id).job w = if job.handle = id then some job else none := by
  simp [view, Scheduler.job, h, Option.filter]

theorem exists_start (h : s.closed = false) : ∃ t, s.start = some t ∧ t.queue = s.queue ∧
    t.handle = s.handle ∧ t.created = s.created ∧ t.closed = s.closed ∧
    ∀ id, view t id = view s id := by
  unfold Scheduler.start
  by_cases hworkers : s.workers = []
  · rw [if_neg (not_not.2 hworkers), if_neg (by simp [h])]
    refine ⟨_, rfl, rfl, rfl, rfl, rfl, fun id => ?_⟩
    have hjob : ∀ w, Scheduler.job { s with workers := List.replicate s.workerCount none } w =
        s.job w := by
      intro w
      simp only [Scheduler.job, hworkers, List.getElem?_replicate, List.getElem?_nil]
      split <;> rfl
    unfold view
    simp only [hjob]
    rfl
  · rw [if_pos hworkers]
    exact ⟨s, rfl, rfl, rfl, rfl, rfl, fun _ => rfl⟩

theorem view_schedule_self (hopen : s.closed = false) (delay : ℚ)
    (h : ∀ entry ∈ s.queue, entry.handle = id →
      entry.version ≤ (s.handle id).scheduleVersion) :
    view (s.schedule id delay) id = (view s id).push delay false := by
  obtain ⟨t, hstart, hqueue, hhandle, _, _, hview⟩ := exists_start hopen
  unfold Scheduler.schedule
  rw [if_neg (by simp [hopen]), hstart]
  simp only
  rw [view_scheduleLocked_self, hview]
  rw [hqueue, hhandle]
  exact h

theorem view_schedule_other {other : ℕ} (hopen : s.closed = false) (delay : ℚ) (h : id ≠ other) :
    view (s.schedule other delay) id = view s id := by
  obtain ⟨t, hstart, _, _, _, _, hview⟩ := exists_start hopen
  unfold Scheduler.schedule
  rw [if_neg (by simp [hopen]), hstart]
  simp only
  rw [view_scheduleLocked_other _ _ h, hview]

theorem view_create (hs : Sound s) (strategyId : ℤ) :
    RuntimeStep .quiet (view s id) (view (s.create strategyId) id) := by
  have hcreate : view (s.create strategyId) id =
      { view (s.setHandle s.created fun _ => { strategyId := strategyId }) id with
        born := decide (id < s.created + 1) } := by
    unfold Scheduler.create
    rw [if_neg (by simp [hs.opened])]
    rfl
  rw [hcreate]
  by_cases hid : id = s.created
  · have hnew : (view s id).born = false := by simp [view, hid]
    have hfresh : s.handle id = {} := (hs.orderly id).unborn hnew
    rw [← hid, view_setHandle_self (by rw [hfresh]) (by rw [hfresh]; rfl)]
    simpa using RuntimeStep.created strategyId hnew
  · rw [view_setHandle_other _ hid]
    have hborn : decide (id < s.created + 1) = (view s id).born :=
      decide_eq_decide.2 (by omega)
    rw [hborn]
    exact .rest _ le_rfl

theorem view_setCalls_self (f : CallsUnderWay → CallsUnderWay) :
    view (s.setCalls id f) id = (view s id).setCalls f :=
  view_setHandle_self rfl rfl

theorem view_startFlag (hs : Sound s) (f : CallsUnderWay → CallsUnderWay) :
    view ((s.setHandle id fun handle => { handle with started := true }).setCalls id f) id =
      ((view s id).setHandle fun handle => { handle with started := true }).setCalls f := by
  rw [view_setCalls_self]
  congr 1
  cases hstarted : (s.handle id).started with
  | true =>
    refine view_setHandle_self rfl ?_
    simp [RuntimeHandle.isAlive, hstarted]
  | false =>
    have hversion : (s.handle id).scheduleVersion = 0 := by
      by_contra hne
      have hflag : (s.handle id).started = true :=
        (hs.orderly id).version (Nat.pos_of_ne_zero hne)
      rw [hflag] at hstarted
      exact Bool.noConfusion hstarted
    have hnone : ∀ t : Scheduler, t.queue = s.queue →
        (t.handle id).scheduleVersion = 0 → currentEntries t id = [] := by
      intro t hqueue hzero
      rw [List.eq_nil_iff_forall_not_mem]
      intro entry hentry
      obtain ⟨hmem, _, hcurrent, _⟩ := mem_currentEntries.1 hentry
      have := (hs.versions entry (hqueue ▸ hmem)).1
      omega
    have hbefore := hnone s rfl hversion
    have hafter := hnone (s.setHandle id fun handle => { handle with started := true }) rfl
      (by simpa using hversion)
    simp only [view, RuntimeView.setHandle, hbefore, hafter, setHandle_handle_self]
    rfl

theorem dueAt_le_of_not_pos {due now : ℚ} (h : ¬ 0 < due - now) : due ≤ now := by
  linarith [not_lt.1 h]

/-- INTERNAL: the flags a worker sets when it takes an entry. -/
def taken (event : Bool) (handle : RuntimeHandle) : RuntimeHandle := { handle with
  eventWakeQueued := if event then false else handle.eventWakeQueued
  eventPending := false
  running := true }

theorem view_claim {w : ℕ} (hidle : s.workers[w]? = some none) :
    RuntimeStep .quiet (view s id) (view (s.claim w) id) := by
  have hw : w < s.workers.length := (List.getElem?_eq_some_iff.1 hidle).1
  have hkeep : ∀ id, (s.queue.dropWhile fun entry => ¬ s.Current entry).filter
      (fun entry => entry.handle = id ∧ s.Current entry) = currentEntries s id := by
    intro id
    apply filter_dropWhile
    intro entry _ hstale
    rw [decide_eq_true_eq] at hstale
    rw [decide_eq_false_iff_not]
    exact fun hboth => hstale hboth.2
  have hqueue : ∀ queue, view { s with queue := queue } id = { view s id with
      current := (queue.filter fun entry => entry.handle = id ∧ s.Current entry).map
        fun entry => (entry.dueAt, entry.eventWake) } := fun _ => rfl
  unfold Scheduler.claim
  split
  · next hnil =>
    apply RuntimeStep.unseen
    rw [hqueue, ← hnil, hkeep]
    rfl
  · next entry rest hcons =>
    rw [hcons] at hkeep
    split
    · apply RuntimeStep.unseen
      rw [hqueue, hkeep]
      rfl
    · next hdue =>
      have hcurrent : s.Current entry := by
        have hhead := List.head?_dropWhile_not (fun entry => ¬ s.Current entry) s.queue
        rw [hcons] at hhead
        simpa using hhead
      show RuntimeStep .quiet (view s id) (view ((Scheduler.setHandle { s with queue := rest }
        entry.handle (taken entry.eventWake)).setJob w (some ⟨entry.handle, entry.version, .claimed⟩))
          id)
      rw [view_setJob (by exact hw)]
      by_cases hid : id = entry.handle
      · subst hid
        have hentries := hkeep entry.handle
        rw [List.filter_cons_of_pos (by simpa using hcurrent)] at hentries
        rw [view_setHandle_self rfl rfl, hqueue]
        have hnone : (view s entry.handle).job w = none := by
          simp [view, Scheduler.job, hidle]
        have hfirst : (view s entry.handle).current = (entry.dueAt, entry.eventWake) ::
            (rest.filter fun other => other.handle = entry.handle ∧ s.Current other).map
              fun entry => (entry.dueAt, entry.eventWake) := by
          show (currentEntries s entry.handle).map _ = _
          rw [← hentries]
          rfl
        have hjob : (some (⟨entry.handle, entry.version, .claimed⟩ : Job)).filter
            (fun job => job.handle = entry.handle) =
              some ⟨entry.handle, entry.version, .claimed⟩ := by
          simp [Option.filter]
        rw [hjob]
        exact RuntimeStep.claimed w _ hnone hfirst (dueAt_le_of_not_pos hdue) hcurrent.1 rfl
      · have hentries := hkeep id
        rw [List.filter_cons_of_neg (by simp [Ne.symm hid])] at hentries
        have hnone : (view s id).job w = none := by
          simp [view, Scheduler.job, hidle]
        have hrest : view { s with queue := rest } id = view s id := by
          rw [hqueue, hentries]
          rfl
        have hjob : (some (⟨entry.handle, entry.version, .claimed⟩ : Job)).filter
            (fun job => job.handle = id) = none := by
          simp [Option.filter, Ne.symm hid]
        rw [view_setHandle_other _ hid, hrest, hjob, RuntimeView.setJob_none hnone]
        exact .rest _ le_rfl

theorem wakeStrategyAndWait_eq (strategyId : ℤ) :
    (s.wakeStrategyAndWait strategyId).2 = (s.wakeStrategy strategyId).2 := by
  unfold Scheduler.wakeStrategyAndWait Scheduler.wakeStrategy
  cases s.handlesByStrategy strategyId with
  | none => rfl
  | some id =>
    simp only
    cases hrunning : (s.handle id).running <;> cases hqueued : (s.handle id).eventWakeQueued <;>
      split <;> rfl

theorem wakeStrategy_of_dead {strategyId : ℤ} (hid : s.handlesByStrategy strategyId = some id)
    (h : (s.handle id).isAlive = false) : s.wakeStrategy strategyId = (false, s) := by
  simp [Scheduler.wakeStrategy, hid, h]

/-- What a wake does to the view of a handle that is alive. -/
def Woken (v v' : RuntimeView) : Prop :=
  (v.handle.running = true ∨ v.handle.eventWakeQueued = true) ∧
      v' = v.setHandle (fun handle => { handle with eventPending := true }) ∨
    (v.handle.running = false ∧ v.handle.eventWakeQueued = false) ∧
      v' = (v.setHandle fun handle =>
        { handle with eventPending := true, eventWakeQueued := true }).push 0 true

theorem woken_of_alive (hs : Sound s) {strategyId : ℤ}
    (hid : s.handlesByStrategy strategyId = some id) (halive : (s.handle id).isAlive = true) :
    Woken (view s id) (view (s.wakeStrategy strategyId).2 id) := by
  unfold Scheduler.wakeStrategy
  simp only [hid, halive, hs.opened]
  rw [if_neg (by decide)]
  split
  · next hbusy =>
    rw [Bool.or_eq_true] at hbusy
    exact .inl ⟨hbusy, view_setHandle_self rfl rfl⟩
  · next hidle =>
    rw [Bool.or_eq_true, not_or, Bool.not_eq_true, Bool.not_eq_true] at hidle
    refine .inr ⟨hidle, ?_⟩
    rw [view_scheduleLocked_self, view_setHandle_self rfl rfl, view_setHandle_self rfl rfl]
    · rfl
    · intro entry hentry hhandle
      subst hhandle
      simpa using (hs.versions entry hentry).2

theorem exists_of_wake {strategyId : ℤ} (h : (s.wakeStrategy strategyId).1 = true) :
    ∃ id, s.handlesByStrategy strategyId = some id ∧ (s.handle id).isAlive = true := by
  cases hid : s.handlesByStrategy strategyId with
  | none =>
    unfold Scheduler.wakeStrategy at h
    rw [hid] at h
    exact Bool.noConfusion h
  | some id =>
    refine ⟨id, rfl, ?_⟩
    by_contra hdead
    rw [wakeStrategy_of_dead hid (Bool.not_eq_true _ ▸ hdead)] at h
    exact Bool.noConfusion h

theorem view_wake_self (hs : Sound s) {strategyId : ℤ}
    (hid : s.handlesByStrategy strategyId = some id) :
    RuntimeStep .wake (view s id) (view (s.wakeStrategy strategyId).2 id) := by
  cases halive : (s.handle id).isAlive with
  | false =>
    rw [wakeStrategy_of_dead hid halive]
    exact .rest _ le_rfl
  | true =>
    rcases woken_of_alive hs hid halive with ⟨hbusy, hview⟩ | ⟨hidle, hview⟩
    · rw [hview]
      exact .wakeNoted halive hbusy
    · rw [hview]
      exact .wakePushed halive hidle.1 hidle.2

theorem view_wake_other {strategyId : ℤ} (hid : s.handlesByStrategy strategyId ≠ some id) :
    view (s.wakeStrategy strategyId).2 id = view s id := by
  unfold Scheduler.wakeStrategy
  cases hother : s.handlesByStrategy strategyId with
  | none => rfl
  | some other =>
    have hne : id ≠ other := by
      rintro rfl
      exact hid hother
    simp only
    split
    · rfl
    · split
      · rw [view_setHandle_other _ hne]
      · rw [view_scheduleLocked_other _ _ hne, view_setHandle_other _ hne,
          view_setHandle_other _ hne]

@[simp] theorem setHandle_workers (id : ℕ) (f : RuntimeHandle → RuntimeHandle) :
    (s.setHandle id f).workers = s.workers := rfl

@[simp] theorem scheduleLocked_workers (id : ℕ) (delay : ℚ) (event : Bool) :
    (s.scheduleLocked id delay event).workers = s.workers := by
  unfold Scheduler.scheduleLocked Scheduler.compactQueueLocked
  simp only
  split <;> rfl

section

variable {w : ℕ} {job : Job}

theorem view_setJob_other {other : Option Job} (hview : view t id = view s id)
    (hworkers : t.workers = s.workers) (hjob : s.workers[w]? = some (some job))
    (hid : job.handle ≠ id) (hother : ∀ next ∈ other, next.handle = job.handle) :
    view (t.setJob w other) id = view s id := by
  have hw : w < s.workers.length := (List.getElem?_eq_some_iff.1 hjob).1
  have hnone : other.filter (fun job => job.handle = id) = none := by
    rw [Option.filter_eq_none_iff]
    intro next hnext
    rw [hother next hnext]
    simpa using hid
  rw [view_setJob (hworkers ▸ hw), hview, hnone]
  apply RuntimeView.setJob_none
  rw [view_job hjob, if_neg hid]

theorem view_setJob_self {next : Option Job} (hworkers : t.workers = s.workers)
    (hjob : s.workers[w]? = some (some job)) (hnext : ∀ other ∈ next, other.handle = id) :
    view (t.setJob w next) id = (view t id).setJob w next := by
  have hw : w < s.workers.length := (List.getElem?_eq_some_iff.1 hjob).1
  have hsome : next.filter (fun job => job.handle = id) = next := by
    cases next with
    | none => rfl
    | some other => simpa [Option.filter] using hnext other rfl
  rw [view_setJob (hworkers ▸ hw), hsome]

theorem view_advance_other (hjob : s.workers[w]? = some (some job)) (hid : job.handle ≠ id)
    (outcome : Outcome) : view (s.advance w job outcome) id = view s id := by
  have hne : id ≠ job.handle := Ne.symm hid
  have hset : ∀ f, view (s.setHandle job.handle f) id = view s id :=
    fun f => view_setHandle_other f hne
  unfold Scheduler.advance Scheduler.acquire
  split
  · simp only
    split
    · rfl
    · split
      · exact view_setJob_other (hset _) rfl hjob hid (by simp)
      · exact view_setJob_other (hset _) rfl hjob hid (by simp)
  · exact view_setJob_other (hset _) rfl hjob hid (by simp)
  · split
    · exact view_setJob_other (hset _) rfl hjob hid (by simp)
    · exact view_setJob_other rfl rfl hjob hid (by simp)
  · exact view_setJob_other (hset _) rfl hjob hid (by simp)
  · exact view_setJob_other (hset _) rfl hjob hid (by simp)
  · refine view_setJob_other ?_ rfl hjob hid (by simp)
    rw [view_setHandle_other _ hne]
    rfl
  · exact view_setJob_other (hset _) rfl hjob hid (by simp)
  · refine view_setJob_other ?_ (by simp) hjob hid (by simp)
    rw [view_scheduleLocked_other _ _ hne]
    exact hset _

theorem view_advance_self (hs : Sound s) (hjob : s.workers[w]? = some (some job))
    (hid : job.handle = id) (outcome : Outcome) :
    RuntimeStep .quiet (view s id) (view (s.advance w job outcome) id) := by
  subst hid
  have hv : (view s job.handle).job w = some job := by rw [view_job hjob, if_pos rfl]
  unfold Scheduler.advance Scheduler.acquire
  split
  · next hstage =>
    simp only
    split
    · exact .rest _ le_rfl
    · next hfree =>
      rw [ne_eq, not_not] at hfree
      split
      · next hstale =>
        rw [view_setJob_self (by rfl) hjob (by simp), view_setHandle_self rfl rfl]
        rw [Bool.not_eq_true] at hstale
        exact .refused w hv hstage hfree hstale
      · next hfresh =>
        rw [view_setJob_self (by rfl) hjob (by simp), view_setHandle_self rfl rfl]
        rw [not_or, not_not, ne_eq, not_not] at hfresh
        exact .begun w hv hstage hfree hfresh.1 hfresh.2
  · next hstage =>
    rw [view_setJob_self (by rfl) hjob (by simp), view_setHandle_self rfl rfl]
    exact .dropped w hv hstage
  · next hstage =>
    split
    · rw [view_setJob_self (by rfl) hjob (by simp), view_setHandle_self rfl rfl]
      exact .yielded w _ hv hstage
    · rw [view_setJob_self (by rfl) hjob (by simp)]
      exact .raised w hv hstage
  · next hstage =>
    rw [view_setJob_self (by rfl) hjob (by simp), view_setHandle_self rfl rfl]
    exact .cleared w hv hstage
  · next hstage =>
    rw [view_setJob_self (by rfl) hjob (by simp)]
    have hdone : view (s.setHandle job.handle fun handle => { handle with done := true })
        job.handle = { (view s job.handle).setHandle fun handle =>
          { handle with done := true } with current := [] } := by
      have hnone : currentEntries
          (s.setHandle job.handle fun handle => { handle with done := true }) job.handle = [] :=
        currentEntries_of_dead (by simp [RuntimeHandle.isAlive])
      unfold view
      rw [hnone, setHandle_handle_self]
      rfl
    rw [hdone]
    exact .ended w hv hstage
  · next hstage =>
    rw [view_setJob_self (by rfl) hjob (by simp), view_setHandle_self rfl rfl]
    exact .forgotten w hv hstage
  · next hstage =>
    rw [view_setJob_self (by rfl) hjob (by simp), view_setHandle_self rfl rfl]
    exact .counted w hv hstage
  · next hstage =>
    rw [view_setJob_self (by simp) hjob (by simp), view_scheduleLocked_self,
      view_setHandle_self rfl rfl]
    · exact .rescheduled w hv hstage
    · intro entry hentry hhandle
      rw [setHandle_handle_self, ← hhandle]
      exact (hs.versions entry hentry).2

end

theorem view_act (hs : Sound s) (action : SchedulerAction) (id : ℕ) :
    RuntimeStep (runtimeLabel s id action) (view s id) (view (s.act action) id) := by
  have hbound : ∀ entry ∈ s.queue, entry.handle = id →
      entry.version ≤ (s.handle id).scheduleVersion := by
    rintro entry hentry rfl
    exact (hs.versions entry hentry).2
  cases action with
  | elapse seconds => exact .rest _ (le_add_of_nonneg_right (le_max_left 0 seconds))
  | create strategyId => exact view_create hs strategyId
  | startCheck other =>
    unfold Scheduler.act runtimeLabel
    by_cases hid : other = id
    · subst hid
      simp only [if_true]
      split
      · next hnew =>
        rw [view_setCalls_self]
        exact .startChecked (decide_eq_true hnew.1) hnew.2
      · exact .rest _ le_rfl
    · simp only [if_neg hid]
      apply RuntimeStep.unseen
      split
      · exact view_setHandle_other _ (Ne.symm hid)
      · rfl
  | startFlag other =>
    unfold Scheduler.act runtimeLabel
    simp only
    split
    · next hcall =>
      by_cases hid : other = id
      · subst hid
        rw [view_startFlag hs]
        exact .startFlagged hcall
      · apply RuntimeStep.unseen
        unfold Scheduler.setCalls
        rw [view_setHandle_other _ (Ne.symm hid), view_setHandle_other _ (Ne.symm hid)]
    · exact .rest _ le_rfl
  | startSchedule other =>
    unfold Scheduler.act runtimeLabel
    simp only
    split
    · next hcall =>
      by_cases hid : other = id
      · subst hid
        rw [view_schedule_self (by exact hs.opened) _ (by simpa [Scheduler.setCalls] using hbound),
          view_setCalls_self]
        exact .startScheduled hcall
      · apply RuntimeStep.unseen
        rw [view_schedule_other (by exact hs.opened) _ (Ne.symm hid)]
        exact view_setHandle_other _ (Ne.symm hid)
    · exact .rest _ le_rfl
  | cancelStop other =>
    unfold Scheduler.act runtimeLabel
    simp only
    split
    · next hnew =>
      by_cases hid : other = id
      · subst hid
        rw [view_setCalls_self, view_setHandle_self rfl rfl]
        exact .cancelStopped (decide_eq_true hnew)
      · apply RuntimeStep.unseen
        unfold Scheduler.setCalls
        rw [view_setHandle_other _ (Ne.symm hid), view_setHandle_other _ (Ne.symm hid)]
    · exact .rest _ le_rfl
  | cancelCheck other =>
    unfold Scheduler.act runtimeLabel
    simp only
    by_cases hid : other = id
    · subst hid
      split
      · next hcall =>
        split
        · next halive =>
          rw [view_setCalls_self]
          exact .cancelChecked hcall halive
        · rw [view_setCalls_self]
          exact .cancelReturned hcall
      · exact .rest _ le_rfl
    · apply RuntimeStep.unseen
      split
      · split
        · exact view_setHandle_other _ (Ne.symm hid)
        · exact view_setHandle_other _ (Ne.symm hid)
      · rfl
  | cancelSchedule other =>
    unfold Scheduler.act runtimeLabel
    simp only
    split
    · next hcall =>
      by_cases hid : other = id
      · subst hid
        rw [view_schedule_self (by exact hs.opened) _ (by simpa [Scheduler.setCalls] using hbound),
          view_setCalls_self]
        exact .cancelScheduled hcall
      · apply RuntimeStep.unseen
        rw [view_schedule_other (by exact hs.opened) _ (Ne.symm hid)]
        exact view_setHandle_other _ (Ne.symm hid)
    · exact .rest _ le_rfl
  | wake strategyId =>
    unfold Scheduler.act runtimeLabel
    simp only
    split
    · next hid => exact view_wake_self hs hid
    · next hid => exact .unseen (view_wake_other hid)
  | wakeAndWait strategyId =>
    unfold Scheduler.act runtimeLabel
    simp only
    rw [wakeStrategyAndWait_eq]
    split
    · next hid => exact view_wake_self hs hid
    · next hid => exact .unseen (view_wake_other hid)
  | worker w outcome =>
    unfold Scheduler.act runtimeLabel
    simp only
    split
    · exact .rest _ le_rfl
    · next hidle => exact view_claim hidle
    · next job hjob =>
      by_cases hid : job.handle = id
      · exact view_advance_self hs hjob hid outcome
      · exact .unseen (view_advance_other hjob hid outcome)

end

/-! ## What holds in every state -/

section

variable {label : RuntimeLabel} {v v' : RuntimeView}

theorem isAlive_iff {handle : RuntimeHandle} :
    handle.isAlive = true ↔ handle.started = true ∧ handle.done = false := by
  simp [RuntimeHandle.isAlive]

theorem RuntimeStep.version_le (h : RuntimeStep label v v') (ho : OrderlyView v) :
    v.handle.scheduleVersion ≤ v'.handle.scheduleVersion := by
  cases h with
  | created strategyId hborn => rw [ho.unborn hborn]; exact le_rfl
  | startScheduled | cancelScheduled | wakePushed | rescheduled => exact Nat.le_succ _
  | _ => exact le_rfl

theorem OrderlyView.of_started (hborn : v.born = true) (hstarted : v.handle.started = true)
    (hcurrent : v.current ≠ [] → v.handle.done = false) : OrderlyView v where
  unborn := fun h => by rw [hborn] at h; exact Bool.noConfusion h
  version := fun _ => hstarted
  scheduling := fun _ => hstarted
  waking := fun _ => hstarted
  job := fun _ _ _ => hstarted
  current := fun h => isAlive_iff.2 ⟨hstarted, hcurrent h⟩

theorem OrderlyView.born (ho : OrderlyView v) (h : v.handle ≠ {}) : v.born = true := by
  by_contra hnot
  exact h (ho.unborn (Bool.not_eq_true _ ▸ hnot))

theorem OrderlyView.born_of_started (ho : OrderlyView v) (h : v.handle.started = true) :
    v.born = true := by
  apply ho.born
  intro hnew
  rw [hnew] at h
  exact Bool.noConfusion h

theorem OrderlyView.alive_of_cons (ho : OrderlyView v) {entry : ℚ × Bool} {rest : List (ℚ × Bool)}
    (h : v.current = entry :: rest) : v.handle.isAlive = true := by
  apply ho.current
  rw [h]
  exact List.cons_ne_nil entry rest

theorem not_done_of_push {delay : ℚ} {event : Bool} (h : (v.push delay event).current ≠ []) :
    v.handle.done = false := by
  unfold RuntimeView.push at h
  simp only at h
  split at h
  · next halive => exact (isAlive_iff.1 halive).2
  · exact absurd rfl h

theorem RuntimeStep.orderly (h : RuntimeStep label v v') (ho : OrderlyView v) : OrderlyView v' := by
  have hcurrent : v.current ≠ [] → v.handle.done = false :=
    fun hne => (isAlive_iff.1 (ho.current hne)).2
  have hjob : ∀ {w job}, v.job w = some job → v.handle.started = true ∧ v.born = true := by
    intro w job hw
    exact ⟨ho.job w job hw, ho.born_of_started (ho.job w job hw)⟩
  cases h with
  | rest => exact ⟨ho.unborn, ho.version, ho.scheduling, ho.waking, ho.job, ho.current⟩
  | created strategyId hborn =>
    have hnew := ho.unborn hborn
    have hnot : v.handle.started ≠ true := by rw [hnew]; exact Bool.false_ne_true
    refine ⟨fun h => Bool.noConfusion h, fun h => absurd h (lt_irrefl 0),
      fun h => absurd h (lt_irrefl 0), fun h => absurd h (lt_irrefl 0), ?_, ?_⟩
    · intro w job hw
      exact absurd (ho.job w job hw) hnot
    · intro hne
      exact absurd (isAlive_iff.1 (ho.current hne)).1 hnot
  | startChecked hborn =>
    refine ⟨fun h => ?_, ho.version, ho.scheduling, ho.waking, ho.job, ho.current⟩
    exact Bool.noConfusion (hborn.symm.trans h)
  | startFlagged hcall =>
    refine .of_started (ho.born ?_) rfl hcurrent
    intro hnew
    rw [hnew] at hcall
    exact absurd hcall (lt_irrefl 0)
  | startScheduled hcall =>
    have hstarted := ho.scheduling hcall
    exact .of_started (ho.born_of_started hstarted) hstarted not_done_of_push
  | cancelStopped hborn =>
    refine ⟨fun h => ?_, ho.version, ho.scheduling, ho.waking, ho.job, ho.current⟩
    exact Bool.noConfusion (hborn.symm.trans h)
  | cancelReturned hcall =>
    have hborn : v.born = true := by
      apply ho.born
      intro hnew
      rw [hnew] at hcall
      exact absurd hcall (lt_irrefl 0)
    refine ⟨fun h => ?_, ho.version, ho.scheduling, ho.waking, ho.job, ho.current⟩
    exact Bool.noConfusion (hborn.symm.trans h)
  | cancelChecked _ halive =>
    have hstarted := (isAlive_iff.1 halive).1
    exact .of_started (ho.born_of_started hstarted) hstarted hcurrent
  | cancelScheduled hcall =>
    have hstarted := ho.waking hcall
    exact .of_started (ho.born_of_started hstarted) hstarted not_done_of_push
  | wakeNoted halive =>
    have hstarted := (isAlive_iff.1 halive).1
    exact .of_started (ho.born_of_started hstarted) hstarted hcurrent
  | wakePushed halive =>
    have hstarted := (isAlive_iff.1 halive).1
    exact .of_started (ho.born_of_started hstarted) hstarted not_done_of_push
  | claimed w job hnone hfirst =>
    have halive := isAlive_iff.1 (ho.alive_of_cons hfirst)
    exact .of_started (ho.born_of_started halive.1) halive.1 fun _ => halive.2
  | refused w hw => exact .of_started (hjob hw).2 (hjob hw).1 hcurrent
  | begun w hw => exact .of_started (hjob hw).2 (hjob hw).1 hcurrent
  | dropped w hw => exact .of_started (hjob hw).2 (hjob hw).1 hcurrent
  | yielded w delay hw => exact .of_started (hjob hw).2 (hjob hw).1 hcurrent
  | raised w hw => exact .of_started (hjob hw).2 (hjob hw).1 hcurrent
  | cleared w hw => exact .of_started (hjob hw).2 (hjob hw).1 hcurrent
  | ended w hw => exact .of_started (hjob hw).2 (hjob hw).1 fun h => absurd rfl h
  | forgotten w hw => exact .of_started (hjob hw).2 (hjob hw).1 hcurrent
  | counted w hw => exact .of_started (hjob hw).2 (hjob hw).1 hcurrent
  | rescheduled w hw => exact .of_started (hjob hw).2 (hjob hw).1 not_done_of_push

end

section

variable {s : Scheduler}

theorem scheduleLocked_queue {id : ℕ} {delay : ℚ} {event : Bool} {entry : QueueEntry}
    (h : entry ∈ (s.scheduleLocked id delay event).queue) :
    entry ∈ s.queue ∨ 0 < entry.version ∧
      entry.version ≤ ((s.scheduleLocked id delay event).handle entry.handle).scheduleVersion := by
  have hhandle : (s.scheduleLocked id delay event).handle =
      (pushed s id delay event).handle := by
    rw [scheduleLocked_eq]
    unfold Scheduler.compactQueueLocked
    split <;> rfl
  have hqueue : entry ∈ (pushed s id delay event).queue := by
    rw [scheduleLocked_eq] at h
    unfold Scheduler.compactQueueLocked at h
    split at h
    · exact h
    · exact List.mem_of_mem_filter h
  rcases (List.mem_orderedInsert QueueEntry.Before).1 hqueue with rfl | hold
  · right
    rw [hhandle]
    simp [pushed]
  · exact .inl hold

theorem schedule_queue (hopen : s.closed = false) {id : ℕ} {delay : ℚ} {entry : QueueEntry}
    (h : entry ∈ (s.schedule id delay).queue) :
    entry ∈ s.queue ∨ 0 < entry.version ∧
      entry.version ≤ ((s.schedule id delay).handle entry.handle).scheduleVersion := by
  obtain ⟨t, hstart, hqueue, _⟩ := exists_start hopen
  have hschedule : s.schedule id delay = t.scheduleLocked id delay false := by
    unfold Scheduler.schedule
    rw [if_neg (by simp [hopen]), hstart]
  rw [hschedule] at h ⊢
  rw [← hqueue]
  exact scheduleLocked_queue h

theorem wake_queue {strategyId : ℤ} {entry : QueueEntry}
    (h : entry ∈ (s.wakeStrategy strategyId).2.queue) :
    entry ∈ s.queue ∨ 0 < entry.version ∧ entry.version ≤
      ((s.wakeStrategy strategyId).2.handle entry.handle).scheduleVersion := by
  unfold Scheduler.wakeStrategy at h ⊢
  cases hid : s.handlesByStrategy strategyId with
  | none => rw [hid] at h; exact .inl h
  | some id =>
    simp only [hid] at h ⊢
    split at h
    · exact .inl h
    · next hopen =>
      rw [if_neg hopen]
      split at h
      · exact .inl h
      · next hidle =>
        rw [if_neg hidle]
        exact scheduleLocked_queue h

theorem worker_queue {w : ℕ} {outcome : Outcome} {entry : QueueEntry}
    (h : entry ∈ (s.act (.worker w outcome)).queue) :
    entry ∈ s.queue ∨ 0 < entry.version ∧ entry.version ≤
      ((s.act (.worker w outcome)).handle entry.handle).scheduleVersion := by
  simp only [Scheduler.act] at h ⊢
  cases hw : s.workers[w]? with
  | none => simp only [hw] at h; exact .inl h
  | some mine =>
    cases mine with
    | none =>
      simp only [hw] at h
      left
      have hsub := List.dropWhile_sublist (fun entry => ¬ s.Current entry) (l := s.queue)
      unfold Scheduler.claim at h
      split at h
      · exact absurd h List.not_mem_nil
      · next first rest hcons =>
        rw [hcons] at hsub
        split at h
        · exact hsub.subset h
        · exact hsub.subset (List.mem_cons_of_mem first h)
    | some job =>
      simp only [hw] at h ⊢
      unfold Scheduler.advance Scheduler.acquire at h ⊢
      cases hstage : job.stage with
      | counted delay =>
        simp only [hstage] at h ⊢
        exact scheduleLocked_queue h
      | claimed =>
        simp only [hstage] at h
        left
        split at h
        · exact h
        · split at h <;> exact h
      | stepping =>
        simp only [hstage] at h
        left
        cases outcome <;> exact h
      | _ => simp only [hstage] at h; exact .inl h

theorem queue_act (hopen : s.closed = false) {action : SchedulerAction} {entry : QueueEntry}
    (h : entry ∈ (s.act action).queue) :
    entry ∈ s.queue ∨ 0 < entry.version ∧
      entry.version ≤ ((s.act action).handle entry.handle).scheduleVersion := by
  cases action with
  | elapse | startCheck | startFlag | cancelStop =>
    left
    unfold Scheduler.act at h
    first
      | exact h
      | simp only at h; split at h <;> exact h
  | create strategyId =>
    left
    unfold Scheduler.act Scheduler.create at h
    simp only at h
    split at h <;> exact h
  | cancelCheck id =>
    left
    unfold Scheduler.act at h
    simp only at h
    split at h
    · split at h <;> exact h
    · exact h
  | startSchedule id =>
    unfold Scheduler.act at h ⊢
    simp only at h ⊢
    split at h
    · next hcall =>
      rw [if_pos hcall]
      exact schedule_queue (s := s.setCalls id _) hopen h
    · exact .inl h
  | cancelSchedule id =>
    unfold Scheduler.act at h ⊢
    simp only at h ⊢
    split at h
    · next hcall =>
      rw [if_pos hcall]
      exact schedule_queue (s := s.setCalls id _) hopen h
    · exact .inl h
  | wake strategyId => exact wake_queue h
  | wakeAndWait strategyId =>
    simp only [Scheduler.act, wakeStrategyAndWait_eq] at h ⊢
    exact wake_queue h
  | worker w outcome => exact worker_queue h

theorem scheduleLocked_closed (id : ℕ) (delay : ℚ) (event : Bool) :
    (s.scheduleLocked id delay event).closed = s.closed := by
  rw [scheduleLocked_eq]
  unfold Scheduler.compactQueueLocked
  split <;> rfl

theorem schedule_closed (hopen : s.closed = false) (id : ℕ) (delay : ℚ) :
    (s.schedule id delay).closed = false := by
  obtain ⟨t, hstart, _, _, _, hclosed, _⟩ := exists_start hopen
  unfold Scheduler.schedule
  rw [if_neg (by simp [hopen]), hstart]
  simp only
  rw [scheduleLocked_closed, hclosed, hopen]

theorem wake_closed (strategyId : ℤ) : (s.wakeStrategy strategyId).2.closed = s.closed := by
  unfold Scheduler.wakeStrategy
  split
  · rfl
  · simp only
    split
    · rfl
    · split
      · rfl
      · exact scheduleLocked_closed _ _ _

theorem advance_closed (w : ℕ) (job : Job) (outcome : Outcome) :
    (s.advance w job outcome).closed = s.closed := by
  unfold Scheduler.advance Scheduler.acquire
  split
  · simp only
    split
    · rfl
    · split <;> rfl
  · rfl
  · split <;> rfl
  · rfl
  · rfl
  · rfl
  · rfl
  · exact scheduleLocked_closed _ _ _

theorem act_closed (hopen : s.closed = false) (action : SchedulerAction) :
    (s.act action).closed = false := by
  unfold Scheduler.act
  cases action with
  | elapse => exact hopen
  | create =>
    unfold Scheduler.create
    simp only
    split <;> exact hopen
  | startCheck | startFlag | cancelStop =>
    simp only
    split <;> exact hopen
  | startSchedule | cancelSchedule =>
    simp only
    split
    · exact schedule_closed (by exact hopen) _ _
    · exact hopen
  | cancelCheck =>
    simp only
    split
    · split <;> exact hopen
    · exact hopen
  | wake => exact (wake_closed _).trans hopen
  | wakeAndWait strategyId =>
    simp only [wakeStrategyAndWait_eq]
    exact (wake_closed _).trans hopen
  | worker w outcome =>
    simp only
    split
    · exact hopen
    · unfold Scheduler.claim
      split
      · exact hopen
      · split <;> exact hopen
    · exact (advance_closed _ _ _).trans hopen

theorem Sound.act (hs : Sound s) (action : SchedulerAction) : Sound (s.act action) where
  opened := act_closed hs.opened action
  versions := by
    intro entry hentry
    rcases queue_act hs.opened hentry with hold | hnew
    · obtain ⟨hpos, hle⟩ := hs.versions entry hold
      exact ⟨hpos, hle.trans ((view_act hs action entry.handle).version_le (hs.orderly _))⟩
    · exact hnew
  orderly := fun id => (view_act hs action id).orderly (hs.orderly id)

theorem sound_init (workerCount : ℤ) : Sound (Scheduler.init workerCount) where
  opened := rfl
  versions := fun entry hentry => absurd hentry List.not_mem_nil
  orderly := fun id => ⟨fun _ => rfl, fun h => absurd h (lt_irrefl 0), fun h => absurd h (lt_irrefl 0),
    fun h => absurd h (lt_irrefl 0), fun w job h => by simp [view, Scheduler.init, Scheduler.job] at h,
    fun h => absurd rfl h⟩

end

end QuantDinger.Analysis
