import QuantDinger.Library.Runs
import QuantDinger.Analysis.RuntimeSteps

/-!
# Wake-ups of the cooperative scheduler

Steps of one runtime do not overlap, and a handle that is started is being run or queued, in every
interleaving. A wake-up is not lost unless it comes between the two writes of a `start()`: then the
entry of the start supersedes the entry of the wake, `_event_wake_queued` stays set with nothing
queued for it, and every later wake of the sleeping runtime is taken for a duplicate.
-/

namespace QuantDinger.Analysis

open QuantDinger.Library
open QuantDinger.Model.Scheduling
open QuantDinger.Model.Scheduling.Scheduler (Outcome)

/-! ## One runtime runs at a time and stays scheduled -/

/-- The worker is on its way to a step of the version, in a step, or on its way from one. -/
def Runs (job : Job) (version : ℕ) : Prop :=
  match job.stage with
  | .claimed => job.version = version
  | .stale => False
  | _ => True

/-- What holds of a handle in every interleaving. -/
structure Attended (v : RuntimeView) : Prop where
  locked : ∀ w job, v.job w = some job → job.stage.locked = true → v.handle.runLock = some w
  forgetting : ∀ w job, v.job w = some job → job.stage = .forgetting → v.handle.done = true
  scheduled : 0 < v.handle.scheduleVersion → v.handle.done = false →
    (∃ w job, v.job w = some job ∧ Runs job v.handle.scheduleVersion) ∨ v.current ≠ []
  flagged : v.handle.started = true →
    0 < v.handle.scheduleVersion ∨ 0 < v.handle.calls.scheduling
  cancelling : 0 < v.handle.calls.cancelling → v.handle.stopEvent = true
  waking : 0 < v.handle.calls.waking → v.handle.stopEvent = true

section

variable {label : RuntimeLabel} {v v' : RuntimeView} {w : ℕ} {job : Job}

theorem setJob_self (next : Option Job) : (v.setJob w next).job w = next := by
  simp [RuntimeView.setJob]

theorem setJob_of_ne {u : ℕ} (h : u ≠ w) (next : Option Job) :
    (v.setJob w next).job u = v.job u := by
  simp [RuntimeView.setJob, h]

theorem job_setJob {u : ℕ} {next : Option Job} {other : Job}
    (h : (v.setJob w next).job u = some other) :
    u = w ∧ next = some other ∨ u ≠ w ∧ v.job u = some other := by
  by_cases hu : u = w
  · subst hu
    rw [setJob_self] at h
    exact .inl ⟨rfl, h⟩
  · rw [setJob_of_ne hu] at h
    exact .inr ⟨hu, h⟩

theorem RuntimeStep.locked (h : RuntimeStep label v v')
    (hl : ∀ w job, v.job w = some job → job.stage.locked = true → v.handle.runLock = some w)
    (ho : OrderlyView v) :
    ∀ w job, v'.job w = some job → job.stage.locked = true → v'.handle.runLock = some w := by
  intro u other hu hlocked
  cases h with
  | created strategyId hborn =>
    have hstarted := ho.job u other hu
    rw [ho.unborn hborn] at hstarted
    exact Bool.noConfusion hstarted
  | claimed w job hnone hfirst hdue hversion hstage =>
    rcases job_setJob hu with ⟨_, hother⟩ | ⟨_, hold⟩
    · cases hother
      rw [hstage] at hlocked
      exact Bool.noConfusion hlocked
    · exact hl u other hold hlocked
  | refused w hw hstage hfree =>
    rcases job_setJob hu with ⟨rfl, _⟩ | ⟨_, hold⟩
    · rfl
    · have := hl u other hold hlocked
      rw [hfree] at this
      cases this
  | begun w hw hstage hfree =>
    rcases job_setJob hu with ⟨rfl, _⟩ | ⟨_, hold⟩
    · rfl
    · have := hl u other hold hlocked
      rw [hfree] at this
      cases this
  | dropped w hw hstage =>
    rcases job_setJob hu with ⟨_, hother⟩ | ⟨hne, hold⟩
    · cases hother
    · have hmine := hl w _ hw (by rw [hstage]; rfl)
      rw [hl u other hold hlocked] at hmine
      exact absurd (Option.some.inj hmine) hne
  | yielded w delay hw hstage =>
    rcases job_setJob hu with ⟨_, hother⟩ | ⟨hne, hold⟩
    · cases hother
      exact Bool.noConfusion hlocked
    · have hmine := hl w _ hw (by rw [hstage]; rfl)
      rw [hl u other hold hlocked] at hmine
      exact absurd (Option.some.inj hmine) hne
  | forgotten w hw hstage =>
    rcases job_setJob hu with ⟨_, hother⟩ | ⟨hne, hold⟩
    · cases hother
    · have hmine := hl w _ hw (by rw [hstage]; rfl)
      rw [hl u other hold hlocked] at hmine
      exact absurd (Option.some.inj hmine) hne
  | raised w hw hstage =>
    rcases job_setJob hu with ⟨rfl, _⟩ | ⟨_, hold⟩
    · exact hl u _ hw (by rw [hstage]; rfl)
    · exact hl u other hold hlocked
  | cleared w hw hstage =>
    rcases job_setJob hu with ⟨rfl, _⟩ | ⟨_, hold⟩
    · exact hl u _ hw (by rw [hstage]; rfl)
    · exact hl u other hold hlocked
  | ended w hw hstage =>
    rcases job_setJob hu with ⟨rfl, _⟩ | ⟨_, hold⟩
    · exact hl u _ hw (by rw [hstage]; rfl)
    · exact hl u other hold hlocked
  | counted w hw hstage =>
    rcases job_setJob hu with ⟨_, hother⟩ | ⟨_, hold⟩
    · cases hother
      exact Bool.noConfusion hlocked
    · exact hl u other hold hlocked
  | rescheduled w hw hstage =>
    rcases job_setJob hu with ⟨_, hother⟩ | ⟨_, hold⟩
    · cases hother
    · exact hl u other hold hlocked
  | _ => exact hl u other hu hlocked

theorem RuntimeStep.forgetting (h : RuntimeStep label v v')
    (hf : ∀ w job, v.job w = some job → job.stage = .forgetting → v.handle.done = true)
    (ho : OrderlyView v) :
    ∀ w job, v'.job w = some job → job.stage = .forgetting → v'.handle.done = true := by
  intro u other hu hstage
  cases h with
  | created strategyId hborn =>
    have hstarted := ho.job u other hu
    rw [ho.unborn hborn] at hstarted
    exact Bool.noConfusion hstarted
  | claimed w job _ _ _ _ hclaimed =>
    rcases job_setJob hu with ⟨_, hother⟩ | ⟨_, hold⟩
    · cases hother
      rw [hclaimed] at hstage
      exact Stage.noConfusion hstage
    · exact hf u other hold hstage
  | ended => rfl
  | refused | begun | yielded | raised | cleared | counted =>
    rcases job_setJob hu with ⟨_, hother⟩ | ⟨_, hold⟩
    · cases hother
      exact Stage.noConfusion hstage
    · exact hf u other hold hstage
  | dropped | forgotten | rescheduled =>
    rcases job_setJob hu with ⟨_, hother⟩ | ⟨_, hold⟩
    · cases hother
    · exact hf u other hold hstage
  | _ => exact hf u other hu hstage

theorem push_current_ne_nil {delay : ℚ} {event : Bool} (hstarted : v.handle.started = true)
    (hdone : v.handle.done = false) : (v.push delay event).current ≠ [] := by
  unfold RuntimeView.push
  rw [if_pos (isAlive_iff.2 ⟨hstarted, hdone⟩)]
  exact List.cons_ne_nil _ _

theorem attended_of_idle {next : Option Job}
    (hs : (∃ w job, v.job w = some job ∧ Runs job v.handle.scheduleVersion) ∨ v.current ≠ [])
    (hw : v.job w = some job) (hidle : ¬ Runs job v.handle.scheduleVersion) :
    (∃ u other, (v.setJob w next).job u = some other ∧
      Runs other v.handle.scheduleVersion) ∨ v.current ≠ [] := by
  rcases hs with ⟨u, other, hu, hruns⟩ | hcurrent
  · have hne : u ≠ w := by
      rintro rfl
      rw [hw] at hu
      cases hu
      exact hidle hruns
    exact .inl ⟨u, other, (setJob_of_ne hne next).trans hu, hruns⟩
  · exact .inr hcurrent

theorem RuntimeStep.scheduled (h : RuntimeStep label v v') (ha : Attended v) (ho : OrderlyView v)
    (hversion : 0 < v'.handle.scheduleVersion) (hdone : v'.handle.done = false) :
    (∃ w job, v'.job w = some job ∧ Runs job v'.handle.scheduleVersion) ∨ v'.current ≠ [] := by
  cases h with
  | created => exact absurd hversion (lt_irrefl 0)
  | startScheduled hcall => exact .inr (push_current_ne_nil (ho.scheduling hcall) hdone)
  | cancelScheduled hcall => exact .inr (push_current_ne_nil (ho.waking hcall) hdone)
  | wakePushed halive => exact .inr (push_current_ne_nil (isAlive_iff.1 halive).1 hdone)
  | rescheduled w hw => exact .inr (push_current_ne_nil (ho.job w _ hw) hdone)
  | claimed w job _ _ _ hcurrent hstage =>
    refine .inl ⟨w, job, setJob_self _, ?_⟩
    unfold Runs
    rw [hstage]
    exact hcurrent
  | refused w hw hstage hfree hstale =>
    refine attended_of_idle (ha.scheduled hversion hdone) hw ?_
    unfold Runs
    rw [hstage]
    rcases hstale with hdead | hold
    · rw [isAlive_iff.2 ⟨ho.job w _ hw, hdone⟩] at hdead
      exact Bool.noConfusion hdead
    · exact hold
  | dropped w hw hstage =>
    refine attended_of_idle (ha.scheduled hversion hdone) hw ?_
    unfold Runs
    rw [hstage]
    exact not_false
  | forgotten w hw hstage =>
    have := ha.forgetting w _ hw hstage
    exact Bool.noConfusion (this.symm.trans hdone)
  | ended => exact Bool.noConfusion hdone
  | begun w | yielded w | raised w | cleared w | counted w =>
    exact .inl ⟨w, _, setJob_self _, trivial⟩
  | _ => exact ha.scheduled hversion hdone

theorem RuntimeStep.attended (h : RuntimeStep label v v') (ha : Attended v) (ho : OrderlyView v) :
    Attended v' where
  locked := h.locked ha.locked ho
  forgetting := h.forgetting ha.forgetting ho
  scheduled := h.scheduled ha ho
  flagged := by
    intro hstarted
    cases h with
    | created => exact Bool.noConfusion hstarted
    | startFlagged => exact .inr (Nat.succ_pos _)
    | startScheduled | cancelScheduled | wakePushed | rescheduled =>
      exact .inl (Nat.succ_pos _)
    | _ => exact ha.flagged hstarted
  cancelling := by
    intro hcall
    cases h with
    | created => exact absurd hcall (lt_irrefl 0)
    | cancelStopped => rfl
    | cancelReturned hbefore => exact ha.cancelling hbefore
    | cancelChecked hbefore => exact ha.cancelling hbefore
    | _ => exact ha.cancelling hcall
  waking := by
    intro hcall
    cases h with
    | created => exact absurd hcall (lt_irrefl 0)
    | cancelStopped => rfl
    | cancelChecked hbefore => exact ha.cancelling hbefore
    | cancelScheduled hbefore => exact ha.waking hbefore
    | _ => exact ha.waking hcall

end

/-! ## Wake-ups that are owed -/

/-- A handle that is not stopped has one entry, or one worker that has taken it. If a wake-up is
owed, `taken` are the versions that workers had taken when it came: the entry is due, or the worker
will find the wake, or it has taken its entry since. -/
inductive Calm (owed : Option (Set ℕ)) (v : RuntimeView) : Prop
  | done : v.handle.done = true → Calm owed v
  | dying (w : ℕ) (job : Job) : v.job w = some job →
      job.stage = .failed ∨ job.stage = .ending → Calm owed v
  | prompted : v.handle.stopEvent = true → (∀ entry ∈ v.current, entry.1 ≤ v.now) → Calm owed v
  | fresh : owed = none → v.handle.scheduleVersion = 0 → (∀ w, v.job w = none) →
      v.current = [] → v.handle.running = false → v.handle.eventWakeQueued = false →
      (v.handle.started = false → v.handle.calls.starting ≤ 1 ∧ v.handle.calls.scheduling = 0) →
      (v.handle.started = true → v.handle.calls.starting = 0 ∧ v.handle.calls.scheduling = 1) →
      Calm owed v
  | waiting (due : ℚ) (event : Bool) : v.handle.started = true →
      v.handle.calls.starting = 0 → v.handle.calls.scheduling = 0 → (∀ w, v.job w = none) →
      v.handle.running = false → v.current = [(due, event)] →
      (v.handle.eventWakeQueued = true → event = true ∧ due ≤ v.now) →
      (∀ taken ∈ owed, due ≤ v.now ∧ ∀ x ∈ taken, x < v.handle.scheduleVersion) → Calm owed v
  | carried (w : ℕ) (job : Job) : v.handle.started = true →
      v.handle.calls.starting = 0 → v.handle.calls.scheduling = 0 → v.job w = some job →
      (∀ u, u ≠ w → v.job u = none) → v.handle.running = true → v.current = [] →
      v.handle.eventWakeQueued = false → job.version = v.handle.scheduleVersion →
      job.stage ≠ .stale → job.stage ≠ .forgetting →
      (∀ taken ∈ owed, (∀ x ∈ taken, x ≤ v.handle.scheduleVersion) ∧
        (job.version ∈ taken ∧ v.handle.eventPending = true ∨
          job.version ∉ taken ∧ job.stage = .claimed)) → Calm owed v

/-- No wake-up comes while a call of `start` is between its two writes, nor a second such call. -/
def Unhurried (v : RuntimeView) : RuntimeLabel → Prop
  | .wake => v.handle.calls.scheduling = 0
  | .start => v.handle.started = false → v.handle.calls.starting = 0
  | .quiet => True

section

variable {label : RuntimeLabel} {v v' : RuntimeView} {owed : Option (Set ℕ)}

/-- A step begins for an entry that was not taken when the wake-up came. -/
def ServesWake (owed : Option (Set ℕ)) (v v' : RuntimeView) : Prop :=
  ∃ taken ∈ owed, ∃ x, x ∉ taken ∧ v'.handle.steps = x :: v.handle.steps

theorem RuntimeStep.done_le (h : RuntimeStep label v v') (ho : OrderlyView v)
    (hdone : v.handle.done = true) : v'.handle.done = true := by
  cases h with
  | created strategyId hborn =>
    rw [ho.unborn hborn] at hdone
    exact Bool.noConfusion hdone
  | ended => rfl
  | _ => exact hdone

theorem RuntimeStep.stopEvent_le (h : RuntimeStep label v v') (ho : OrderlyView v)
    (hstop : v.handle.stopEvent = true) : v'.handle.stopEvent = true := by
  cases h with
  | created strategyId hborn =>
    rw [ho.unborn hborn] at hstop
    exact Bool.noConfusion hstop
  | cancelStopped => rfl
  | _ => exact hstop

theorem job_kept {w u : ℕ} {job other : Job} {next : Option Job} (hw : v.job w = some job)
    (hu : v.job u = some other) (hne : job.stage ≠ other.stage) :
    (v.setJob u next).job w = some job := by
  have h : w ≠ u := by
    rintro rfl
    rw [hu] at hw
    cases hw
    exact hne rfl
  rw [setJob_of_ne h, hw]

theorem RuntimeStep.dying (h : RuntimeStep label v v') {w : ℕ} {job : Job}
    (hw : v.job w = some job) (hstage : job.stage = .failed ∨ job.stage = .ending) :
    Calm owed v' := by
  have hkeep : ∀ {u : ℕ} {other : Job} {next : Option Job}, v.job u = some other →
      other.stage ≠ .failed → other.stage ≠ .ending →
      (v.setJob u next).job w = some job := by
    intro u other next hu hfailed hending
    refine job_kept hw hu ?_
    rcases hstage with hstage | hstage
    · exact fun heq => hfailed (heq.symm.trans hstage)
    · exact fun heq => hending (heq.symm.trans hstage)
  cases h with
  | claimed u other hnone =>
    have hne : w ≠ u := by
      rintro rfl
      rw [hnone] at hw
      cases hw
    exact .dying w job ((setJob_of_ne hne _).trans hw) hstage
  | cleared u hu hother =>
    by_cases hwu : w = u
    · subst hwu
      exact .dying w _ (setJob_self _) (.inr rfl)
    · exact .dying w job ((setJob_of_ne hwu _).trans hw) hstage
  | ended => exact .done rfl
  | refused u hu hother | begun u hu hother | dropped u hu hother | yielded u _ hu hother
  | raised u hu hother | forgotten u hu hother | counted u hu hother
  | rescheduled u hu hother =>
    refine .dying w job (hkeep hu ?_ ?_) hstage <;> rw [hother] <;> exact Stage.noConfusion
  | _ => exact .dying w job hw hstage

theorem le_add_max {now delay : ℚ} (h : delay = 0) : now + max 0 delay ≤ now := by
  rw [h, max_self, add_zero]

theorem due_of_push {v : RuntimeView} {delay : ℚ} {event : Bool} (h : delay = 0) :
    ∀ entry ∈ (v.push delay event).current, entry.1 ≤ (v.push delay event).now := by
  intro entry hentry
  unfold RuntimeView.push at hentry ⊢
  simp only at hentry ⊢
  split at hentry
  · rw [List.mem_singleton] at hentry
    rw [hentry]
    exact le_add_max h
  · exact absurd hentry List.not_mem_nil

theorem RuntimeStep.prompted (h : RuntimeStep label v v') (ho : OrderlyView v)
    (hstop : v.handle.stopEvent = true) (hdue : ∀ entry ∈ v.current, entry.1 ≤ v.now) :
    Calm owed v' := by
  refine .prompted (h.stopEvent_le ho hstop) ?_
  cases h with
  | rest now hnow => exact fun entry hentry => (hdue entry hentry).trans hnow
  | startScheduled | cancelScheduled | wakePushed => exact due_of_push rfl
  | rescheduled => exact due_of_push (by rw [hstop]; rfl)
  | claimed w job hnone hfirst =>
    intro entry hentry
    apply hdue entry
    rw [hfirst]
    exact List.mem_cons_of_mem _ hentry
  | ended => exact fun entry hentry => absurd hentry List.not_mem_nil
  | _ => exact hdue

theorem RuntimeStep.fresh (h : RuntimeStep label v v') (ha : Attended v) (ho : OrderlyView v)
    (hclear : Unhurried v label) (hversion : v.handle.scheduleVersion = 0)
    (hjob : ∀ w, v.job w = none) (hcurrent : v.current = [])
    (hrunning : v.handle.running = false) (hqueued : v.handle.eventWakeQueued = false)
    (hbefore : v.handle.started = false →
      v.handle.calls.starting ≤ 1 ∧ v.handle.calls.scheduling = 0)
    (hafter : v.handle.started = true →
      v.handle.calls.starting = 0 ∧ v.handle.calls.scheduling = 1) : Calm none v' := by
  have hidle : ∀ {w job}, v.job w = some job → False := by
    intro w job hw
    rw [hjob w] at hw
    cases hw
  cases h with
  | created =>
    exact .fresh rfl rfl hjob hcurrent rfl rfl (fun _ => ⟨Nat.zero_le 1, rfl⟩)
      fun hstarted => Bool.noConfusion hstarted
  | startChecked hborn hnew =>
    refine .fresh rfl hversion hjob hcurrent hrunning hqueued (fun _ => ?_) fun hstarted => ?_
    · have hnone : v.handle.calls.starting = 0 := hclear hnew
      exact ⟨by simp [RuntimeView.setCalls, RuntimeView.setHandle, hnone], (hbefore hnew).2⟩
    · exact Bool.noConfusion (hnew.symm.trans hstarted)
  | startFlagged hcall =>
    cases hstarted : v.handle.started with
    | true =>
      rw [(hafter hstarted).1] at hcall
      exact absurd hcall (lt_irrefl 0)
    | false =>
      obtain ⟨hone, hnone⟩ := hbefore hstarted
      refine .fresh rfl hversion hjob hcurrent hrunning hqueued (fun h => Bool.noConfusion h) fun _ => ?_
      simp only [RuntimeView.setCalls, RuntimeView.setHandle]
      omega
  | startScheduled hcall =>
    have hstarted := ho.scheduling hcall
    cases hdone : v.handle.done with
    | true => exact .done hdone
    | false =>
      obtain ⟨hnone, hone⟩ := hafter hstarted
      refine .waiting (v.now + max 0 0) false hstarted hnone ?_ hjob hrunning ?_ ?_ ?_
      · show v.handle.calls.scheduling - 1 = 0
        omega
      · exact if_pos (isAlive_iff.2 ⟨hstarted, hdone⟩)
      · exact fun hevent => Bool.noConfusion (hqueued.symm.trans hevent)
      · intro taken htaken
        cases htaken
  | cancelScheduled hcall => exact .prompted (ha.waking hcall) (due_of_push rfl)
  | wakeNoted halive =>
    have hone := (hafter (isAlive_iff.1 halive).1).2
    rw [show v.handle.calls.scheduling = 0 from hclear] at hone
    exact absurd hone zero_ne_one
  | wakePushed halive =>
    have hone := (hafter (isAlive_iff.1 halive).1).2
    rw [show v.handle.calls.scheduling = 0 from hclear] at hone
    exact absurd hone zero_ne_one
  | claimed w job hnone hfirst =>
    rw [hcurrent] at hfirst
    cases hfirst
  | refused w hw | begun w hw | dropped w hw | yielded w delay hw | raised w hw | cleared w hw
  | ended w hw | forgotten w hw | counted w hw | rescheduled w hw => exact (hidle hw).elim
  | _ => exact .fresh rfl hversion hjob hcurrent hrunning hqueued hbefore hafter

theorem RuntimeStep.waiting (h : RuntimeStep label v v') (ha : Attended v) (ho : OrderlyView v)
    {due : ℚ} {event : Bool} (hstarted : v.handle.started = true)
    (hstarting : v.handle.calls.starting = 0) (hscheduling : v.handle.calls.scheduling = 0)
    (hjob : ∀ w, v.job w = none) (hrunning : v.handle.running = false)
    (hcurrent : v.current = [(due, event)])
    (hqueued : v.handle.eventWakeQueued = true → event = true ∧ due ≤ v.now)
    (howed : ∀ taken ∈ owed, due ≤ v.now ∧ ∀ x ∈ taken, x < v.handle.scheduleVersion) :
    Calm owed v' := by
  have hidle : ∀ {w job}, v.job w = some job → False := by
    intro w job hw
    rw [hjob w] at hw
    cases hw
  have hnever : ∀ {n : ℕ}, n = 0 → 0 < n → False := by
    rintro n rfl hpos
    exact lt_irrefl 0 hpos
  cases h with
  | rest now hnow =>
    refine .waiting due event hstarted hstarting hscheduling hjob hrunning hcurrent ?_ ?_
    · exact fun h => ⟨(hqueued h).1, (hqueued h).2.trans hnow⟩
    · exact fun taken htaken => ⟨(howed taken htaken).1.trans hnow, (howed taken htaken).2⟩
  | created strategyId hborn =>
    rw [ho.unborn hborn] at hstarted
    exact Bool.noConfusion hstarted
  | startChecked hborn hnew => exact Bool.noConfusion (hnew.symm.trans hstarted)
  | startFlagged hcall => exact (hnever hstarting hcall).elim
  | startScheduled hcall => exact (hnever hscheduling hcall).elim
  | cancelScheduled hcall => exact .prompted (ha.waking hcall) (due_of_push rfl)
  | wakePushed halive hidle hnone =>
    refine .waiting (v.now + max 0 0) true hstarted hstarting hscheduling hjob hrunning
      (if_pos halive) (fun _ => ⟨rfl, le_add_max rfl⟩) fun taken htaken => ⟨le_add_max rfl, ?_⟩
    exact fun x hx => ((howed taken htaken).2 x hx).trans (Nat.lt_succ_self _)
  | claimed w job hnone hfirst hdue hversion hstage =>
    rw [hcurrent] at hfirst
    cases hfirst
    refine .carried w job hstarted hstarting hscheduling (setJob_self _) ?_ rfl rfl ?_ hversion
      ?_ ?_ ?_
    · exact fun u hu => (setJob_of_ne hu _).trans (hjob u)
    · show (if event then false else v.handle.eventWakeQueued) = false
      cases hevent : v.handle.eventWakeQueued with
      | true => rw [if_pos (hqueued hevent).1]
      | false => exact ite_self false
    · rw [hstage]; exact Stage.noConfusion
    · rw [hstage]; exact Stage.noConfusion
    · intro taken htaken
      have hbelow := (howed taken htaken).2
      refine ⟨fun x hx => (hbelow x hx).le, .inr ⟨fun hmem => ?_, hstage⟩⟩
      have := hbelow _ hmem
      rw [hversion] at this
      exact lt_irrefl _ this
  | refused w hw | begun w hw | dropped w hw | yielded w delay hw | raised w hw | cleared w hw
  | ended w hw | forgotten w hw | counted w hw | rescheduled w hw => exact (hidle hw).elim
  | _ =>
    exact .waiting due event hstarted hstarting hscheduling hjob hrunning hcurrent hqueued howed

theorem RuntimeStep.carried (h : RuntimeStep label v v') (ha : Attended v) (ho : OrderlyView v)
    {w : ℕ} {job : Job} (hstarted : v.handle.started = true)
    (hstarting : v.handle.calls.starting = 0) (hscheduling : v.handle.calls.scheduling = 0)
    (hw : v.job w = some job) (hothers : ∀ u, u ≠ w → v.job u = none)
    (hrunning : v.handle.running = true) (hcurrent : v.current = [])
    (hqueued : v.handle.eventWakeQueued = false)
    (hversion : job.version = v.handle.scheduleVersion) (hstale : job.stage ≠ .stale)
    (hforgetting : job.stage ≠ .forgetting)
    (howed : ∀ taken ∈ owed, (∀ x ∈ taken, x ≤ v.handle.scheduleVersion) ∧
      (job.version ∈ taken ∧ v.handle.eventPending = true ∨
        job.version ∉ taken ∧ job.stage = .claimed)) :
    Calm owed v' ∨ ServesWake owed v v' := by
  have honly : ∀ {u other}, v.job u = some other → u = w ∧ job = other := by
    intro u other hu
    by_cases hne : u = w
    · rw [hne, hw] at hu
      cases hu
      exact ⟨hne, rfl⟩
    · rw [hothers u hne] at hu
      cases hu
  have hnever : ∀ {n : ℕ}, n = 0 → 0 < n → False := by
    rintro n rfl hpos
    exact lt_irrefl 0 hpos
  cases h with
  | created strategyId hborn =>
    rw [ho.unborn hborn] at hstarted
    exact Bool.noConfusion hstarted
  | startChecked hborn hnew => exact Bool.noConfusion (hnew.symm.trans hstarted)
  | startFlagged hcall => exact (hnever hstarting hcall).elim
  | startScheduled hcall => exact (hnever hscheduling hcall).elim
  | cancelScheduled hcall => exact .inl (.prompted (ha.waking hcall) (due_of_push rfl))
  | wakeNoted =>
    refine .inl (.carried w job hstarted hstarting hscheduling hw hothers hrunning hcurrent hqueued
      hversion hstale hforgetting fun taken htaken => ⟨(howed taken htaken).1, ?_⟩)
    exact (howed taken htaken).2.imp (fun h => ⟨h.1, rfl⟩) id
  | wakePushed halive hidle => exact Bool.noConfusion (hidle.symm.trans hrunning)
  | claimed u other hnone hfirst =>
    rw [hcurrent] at hfirst
    cases hfirst
  | refused u hu hstage hfree hold =>
    obtain ⟨rfl, rfl⟩ := honly hu
    refine .inl (.done ?_)
    rcases hold with hdead | hold
    · cases hdone : v.handle.done with
      | true => exact hdone
      | false =>
        rw [isAlive_iff.2 ⟨hstarted, hdone⟩] at hdead
        exact Bool.noConfusion hdead
    · exact absurd hversion hold
  | begun u hu hstage =>
    obtain ⟨rfl, rfl⟩ := honly hu
    by_cases hserves : ∃ taken ∈ owed, job.version ∉ taken
    · obtain ⟨taken, htaken, hnot⟩ := hserves
      exact .inr ⟨taken, htaken, job.version, hnot, rfl⟩
    · push Not at hserves
      refine .inl (.carried u _ hstarted hstarting hscheduling (setJob_self _) ?_ hrunning hcurrent
        hqueued hversion Stage.noConfusion Stage.noConfusion fun taken htaken =>
          ⟨(howed taken htaken).1, ?_⟩)
      · exact fun x hx => (setJob_of_ne hx _).trans (hothers x hx)
      · rcases (howed taken htaken).2 with hpending | hnew
        · exact .inl hpending
        · exact absurd (hserves taken htaken) hnew.1
  | dropped u hu hstage =>
    obtain ⟨rfl, rfl⟩ := honly hu
    exact absurd hstage hstale
  | yielded u delay hu hstage =>
    obtain ⟨rfl, rfl⟩ := honly hu
    refine .inl (.carried u _ hstarted hstarting hscheduling (setJob_self _) ?_ hrunning hcurrent
      hqueued hversion Stage.noConfusion Stage.noConfusion fun taken htaken =>
        ⟨(howed taken htaken).1, ?_⟩)
    · exact fun x hx => (setJob_of_ne hx _).trans (hothers x hx)
    · rcases (howed taken htaken).2 with hpending | hnew
      · exact .inl hpending
      · exact Stage.noConfusion (hstage.symm.trans hnew.2)
  | raised u hu => exact .inl (.dying u _ (setJob_self _) (.inl rfl))
  | cleared u hu => exact .inl (.dying u _ (setJob_self _) (.inr rfl))
  | ended => exact .inl (.done rfl)
  | forgotten u hu hstage =>
    obtain ⟨rfl, rfl⟩ := honly hu
    exact absurd hstage hforgetting
  | counted u hu hstage =>
    obtain ⟨rfl, rfl⟩ := honly hu
    refine .inl (.carried u _ hstarted hstarting hscheduling (setJob_self _) ?_ hrunning hcurrent
      hqueued hversion Stage.noConfusion Stage.noConfusion fun taken htaken =>
        ⟨(howed taken htaken).1, ?_⟩)
    · exact fun x hx => (setJob_of_ne hx _).trans (hothers x hx)
    · rcases (howed taken htaken).2 with hpending | hnew
      · exact .inl hpending
      · exact Stage.noConfusion (hstage.symm.trans hnew.2)
  | rescheduled u hu hstage =>
    obtain ⟨rfl, rfl⟩ := honly hu
    left
    cases hdone : v.handle.done with
    | true => exact .done hdone
    | false =>
      refine .waiting _ v.handle.eventPending hstarted hstarting hscheduling ?_ rfl
        (if_pos (isAlive_iff.2 ⟨hstarted, hdone⟩)) ?_ ?_
      · intro x
        by_cases hx : x = u
        · rw [hx]
          exact setJob_self _
        · exact (setJob_of_ne hx _).trans (hothers x hx)
      · intro hevent
        have hpending : v.handle.eventPending = true := by
          by_contra hnot
          rw [Bool.not_eq_true] at hnot
          simp [RuntimeView.setJob, RuntimeView.push, RuntimeView.setHandle, hnot, hqueued]
            at hevent
        refine ⟨hpending, le_add_max ?_⟩
        rw [hpending, Bool.or_true]
        rfl
      · intro taken htaken
        obtain ⟨hbelow, hpending | hnew⟩ := howed taken htaken
        · refine ⟨le_add_max ?_, fun x hx => Nat.lt_succ_of_le (hbelow x hx)⟩
          rw [hpending.2, Bool.or_true]
          rfl
        · exact Stage.noConfusion (hstage.symm.trans hnew.2)
  | _ =>
    exact .inl (.carried w job hstarted hstarting hscheduling hw hothers hrunning hcurrent hqueued
      hversion hstale hforgetting howed)

theorem RuntimeStep.calm (h : RuntimeStep label v v') (ha : Attended v) (ho : OrderlyView v)
    (hclear : Unhurried v label) (hc : Calm owed v) : Calm owed v' ∨ ServesWake owed v v' := by
  cases hc with
  | done hdone => exact .inl (.done (h.done_le ho hdone))
  | dying w job hw hstage => exact .inl (h.dying hw hstage)
  | prompted hstop hdue => exact .inl (h.prompted ho hstop hdue)
  | fresh hnone hversion hjob hcurrent hrunning hqueued hbefore hafter =>
    subst hnone
    exact .inl (h.fresh ha ho hclear hversion hjob hcurrent hrunning hqueued hbefore hafter)
  | waiting due event hstarted hstarting hscheduling hjob hrunning hcurrent hqueued howed =>
    exact .inl (h.waiting ha ho hstarted hstarting hscheduling hjob hrunning hcurrent hqueued howed)
  | carried w job hstarted hstarting hscheduling hw hothers hrunning hcurrent hqueued hversion
      hstale hforgetting howed =>
    exact h.carried ha ho hstarted hstarting hscheduling hw hothers hrunning hcurrent hqueued
      hversion hstale hforgetting howed

/-- The versions that workers have taken and not done with. -/
def takenVersions (v : RuntimeView) : Set ℕ := { x | ∃ w job, v.job w = some job ∧ job.version = x }

theorem Calm.owing (hc : Calm none v) (halive : v.handle.isAlive = true)
    (hclear : v.handle.calls.scheduling = 0) (hw : Woken v v') :
    Calm (some (takenVersions v)) v' := by
  obtain ⟨hstarted, hlive⟩ := isAlive_iff.1 halive
  cases hc with
  | done hdone => exact Bool.noConfusion (hdone.symm.trans hlive)
  | dying w job hjob hstage =>
    rcases hw with ⟨_, rfl⟩ | ⟨_, rfl⟩
    · exact .dying w job hjob hstage
    · exact .dying w job hjob hstage
  | prompted hstop hdue =>
    rcases hw with ⟨_, rfl⟩ | ⟨_, rfl⟩
    · exact .prompted hstop hdue
    · exact .prompted hstop (due_of_push rfl)
  | fresh _ _ _ _ _ _ _ hafter =>
    rw [(hafter hstarted).2] at hclear
    exact absurd hclear one_ne_zero
  | waiting due event _ hstarting hscheduling hjob hrunning hcurrent hqueued =>
    have htaken : ∀ x, x ∉ takenVersions v := by
      rintro x ⟨w, job, hx, _⟩
      rw [hjob w] at hx
      cases hx
    rcases hw with ⟨hbusy, rfl⟩ | ⟨_, rfl⟩
    · rw [hrunning] at hbusy
      have hnow := hqueued (hbusy.resolve_left Bool.false_ne_true)
      refine .waiting due event hstarted hstarting hscheduling hjob hrunning hcurrent hqueued ?_
      rintro taken ⟨⟩
      exact ⟨hnow.2, fun x hx => absurd hx (htaken x)⟩
    · refine .waiting (v.now + max 0 0) true hstarted hstarting hscheduling hjob hrunning
        (if_pos halive) (fun _ => ⟨rfl, le_add_max rfl⟩) ?_
      rintro taken ⟨⟩
      exact ⟨le_add_max rfl, fun x hx => absurd hx (htaken x)⟩
  | carried w job _ hstarting hscheduling hjob hothers hrunning hcurrent hqueued hversion hstale
      hforgetting =>
    rcases hw with ⟨_, rfl⟩ | ⟨hidle, _⟩
    · refine .carried w job hstarted hstarting hscheduling hjob hothers hrunning hcurrent hqueued
        hversion hstale hforgetting ?_
      rintro taken ⟨⟩
      refine ⟨?_, .inl ⟨⟨w, job, hjob, rfl⟩, rfl⟩⟩
      rintro x ⟨u, other, hu, rfl⟩
      by_cases hne : u = w
      · rw [hne, hjob] at hu
        cases hu
        exact hversion.le
      · rw [hothers u hne] at hu
        cases hu
    · exact Bool.noConfusion (hidle.1.symm.trans hrunning)

theorem Calm.answered {taken : Set ℕ} (hc : Calm (some taken) v) (ha : Attended v)
    (hversion : 0 < v.handle.scheduleVersion) : v.handle.done = true ∨
      (∃ w job, v.job w = some job ∧ Runs job v.handle.scheduleVersion) ∨
      ∃ entry ∈ v.current, entry.1 ≤ v.now := by
  cases hc with
  | done hdone => exact .inl hdone
  | dying w job hw hstage =>
    refine .inr (.inl ⟨w, job, hw, ?_⟩)
    unfold Runs
    rcases hstage with hstage | hstage
    · rw [hstage]
      trivial
    · rw [hstage]
      trivial
  | prompted _ hdue =>
    cases hdone : v.handle.done with
    | true => exact .inl rfl
    | false =>
      rcases ha.scheduled hversion hdone with hruns | hcurrent
      · exact .inr (.inl hruns)
      · obtain ⟨entry, hentry⟩ := List.exists_mem_of_ne_nil _ hcurrent
        exact .inr (.inr ⟨entry, hentry, hdue entry hentry⟩)
  | fresh hnone => cases hnone
  | waiting due event _ _ _ _ _ hcurrent _ howed =>
    refine .inr (.inr ⟨(due, event), ?_, (howed taken rfl).1⟩)
    rw [hcurrent]
    exact List.mem_singleton_self _
  | carried w job _ _ _ hw _ _ _ _ hcurrent hstale =>
    refine .inr (.inl ⟨w, job, hw, ?_⟩)
    unfold Runs
    cases hstage : job.stage with
    | stale => exact absurd hstage hstale
    | claimed => exact hcurrent
    | _ => trivial

end

/-! ## Every interleaving -/

/-- A worker has an entry of the handle and a step comes of it, or has come. -/
def BeingRun (s : Scheduler) (id : ℕ) : Prop :=
  ∃ w job, s.job w = some job ∧ job.handle = id ∧ Runs job (s.handle id).scheduleVersion

/-- What holds in a state: no two steps of one runtime, a handle that is started and not done is
being run or queued, and a compaction would remove no such entry. A handle counts as started when
the call of `start` that set the flag has also called `_schedule`. -/
structure Dependable (s : Scheduler) : Prop where
  apart : ∀ w w' job job', s.job w = some job → s.job w' = some job' →
    job.handle = job'.handle → job.stage = .stepping → job'.stage = .stepping → w = w'
  attended : ∀ id, (s.handle id).started = true → (s.handle id).calls.scheduling = 0 →
    (s.handle id).done = false →
    BeingRun s id ∨ ∃ entry ∈ s.queue, entry.handle = id ∧
      entry.version = (s.handle id).scheduleVersion
  compacted : ∀ entry ∈ s.queue, s.Current entry → entry ∈ s.compactQueueLocked.queue

/-- A wake in state `s` that led to `woken` is not lost in a later state: unless a step has begun
since for an entry that no worker had taken before the wake, the handle is done, being run, or
queued with no time left to wait. -/
def WakeKept (s woken later : Scheduler) (id : ℕ) : Prop :=
  ∃ new, (later.handle id).steps = new ++ (woken.handle id).steps ∧
    ((∃ x ∈ new, ¬ ∃ w job, s.job w = some job ∧ job.handle = id ∧ job.version = x) ∨
      (later.handle id).done = true ∨ BeingRun later id ∨
      ∃ entry ∈ later.queue, entry.handle = id ∧
        entry.version = (later.handle id).scheduleVersion ∧ entry.dueAt ≤ later.now)

/-- What the scheduler promises of an interleaving. -/
structure KeepsWakes (workerCount : ℤ) (actions : List SchedulerAction) : Prop where
  dependable : ∀ earlier, earlier <+: actions →
    Dependable (runActions Scheduler.act (Scheduler.init workerCount) earlier)
  kept : ∀ before strategyId after, actions = before ++ .wake strategyId :: after →
    let s := runActions Scheduler.act (Scheduler.init workerCount) before
    (s.wakeStrategy strategyId).1 = true →
    ∃ id, s.handlesByStrategy strategyId = some id ∧
      WakeKept s (s.wakeStrategy strategyId).2
        (runActions Scheduler.act (s.wakeStrategy strategyId).2 after) id

/-- The action is not a wake-up between the two writes of a `start`, nor a second `start` that has
seen the flag unset. -/
def UnhurriedAction (s : Scheduler) : SchedulerAction → Prop
  | .wake strategyId | .wakeAndWait strategyId =>
    ∀ id ∈ s.handlesByStrategy strategyId, (s.handle id).calls.scheduling = 0
  | .startCheck id => (s.handle id).started = false → (s.handle id).calls.starting = 0
  | _ => True

instance (s : Scheduler) : DecidablePred (UnhurriedAction s)
  | .wake strategyId | .wakeAndWait strategyId =>
    inferInstanceAs (Decidable (∀ id ∈ s.handlesByStrategy strategyId, _))
  | .startCheck id => inferInstanceAs (Decidable ((s.handle id).started = false → _))
  | .elapse _ | .create _ | .startFlag _ | .startSchedule _ | .cancelStop _ | .cancelCheck _
  | .cancelSchedule _ | .worker _ _ => isTrue trivial

section

variable {s : Scheduler}

theorem UnhurriedAction.unhurried {action : SchedulerAction} (h : UnhurriedAction s action) (id : ℕ) :
    Unhurried (view s id) (runtimeLabel s id action) := by
  cases action with
  | wake strategyId | wakeAndWait strategyId =>
    unfold runtimeLabel
    simp only
    split
    · next hid => exact h id hid
    · trivial
  | startCheck other =>
    unfold runtimeLabel
    by_cases hid : other = id
    · subst hid
      simp only [if_true]
      exact h
    · simp only [if_neg hid]
      trivial
  | _ => trivial

/-- What holds of a state and of each of its handles. -/
structure Tended (s : Scheduler) : Prop where
  sound : Sound s
  attended : ∀ id, Attended (view s id)

theorem tended_init (workerCount : ℤ) : Tended (Scheduler.init workerCount) where
  sound := sound_init workerCount
  attended := fun id => by
    have hnone : ∀ w, (view (Scheduler.init workerCount) id).job w = none := by
      intro w
      simp [view, Scheduler.init, Scheduler.job]
    have hidle : ∀ {w job}, (view (Scheduler.init workerCount) id).job w = some job → False := by
      intro w job hw
      rw [hnone w] at hw
      cases hw
    exact ⟨fun _ _ hw => (hidle hw).elim, fun _ _ hw => (hidle hw).elim,
      fun h => absurd h (lt_irrefl 0), fun h => Bool.noConfusion h,
      fun h => absurd h (lt_irrefl 0), fun h => absurd h (lt_irrefl 0)⟩

theorem Tended.act (ht : Tended s) (action : SchedulerAction) : Tended (s.act action) where
  sound := ht.sound.act action
  attended := fun id =>
    (view_act ht.sound action id).attended (ht.attended id) (ht.sound.orderly id)

theorem view_job_eq_some {id w : ℕ} {job : Job} :
    (view s id).job w = some job ↔ s.job w = some job ∧ job.handle = id := by
  simp [view, Option.filter_eq_some_iff]

theorem beingRun_iff {id : ℕ} : BeingRun s id ↔
    ∃ w job, (view s id).job w = some job ∧ Runs job (view s id).handle.scheduleVersion := by
  unfold BeingRun
  constructor
  · rintro ⟨w, job, hw, hid, hruns⟩
    exact ⟨w, job, view_job_eq_some.2 ⟨hw, hid⟩, hruns⟩
  · rintro ⟨w, job, hw, hruns⟩
    obtain ⟨hw, hid⟩ := view_job_eq_some.1 hw
    exact ⟨w, job, hw, hid, hruns⟩

theorem exists_of_mem_current {id : ℕ} {entry : ℚ × Bool} (h : entry ∈ (view s id).current) :
    ∃ queued ∈ s.queue, queued.handle = id ∧
      queued.version = (s.handle id).scheduleVersion ∧ queued.dueAt = entry.1 := by
  obtain ⟨queued, hqueued, rfl⟩ := List.mem_map.1 h
  obtain ⟨hmem, hid, hversion, _⟩ := mem_currentEntries.1 hqueued
  exact ⟨queued, hmem, hid, hversion, rfl⟩

theorem Tended.dependable (ht : Tended s) : Dependable s where
  apart := by
    intro w w' job job' hw hw' hsame hstage hstage'
    have hlock := (ht.attended job.handle).locked w job (view_job_eq_some.2 ⟨hw, rfl⟩)
      (by rw [hstage]; rfl)
    have hlock' := (ht.attended job.handle).locked w' job'
      (view_job_eq_some.2 ⟨hw', hsame.symm⟩) (by rw [hstage']; rfl)
    rw [hlock] at hlock'
    exact Option.some.inj hlock'
  attended := by
    intro id hstarted hcalls hdone
    have hversion : 0 < (s.handle id).scheduleVersion := by
      refine ((ht.attended id).flagged hstarted).resolve_right ?_
      intro hcall
      exact (Nat.ne_of_gt hcall) hcalls
    rcases (ht.attended id).scheduled hversion hdone with hruns | hcurrent
    · exact .inl (beingRun_iff.2 hruns)
    · obtain ⟨entry, hentry⟩ := List.exists_mem_of_ne_nil _ hcurrent
      obtain ⟨queued, hmem, hid, hcurrent, _⟩ := exists_of_mem_current hentry
      exact .inr ⟨queued, hmem, hid, hcurrent⟩
  compacted := fun _ hmem hcurrent => mem_compactQueueLocked hmem hcurrent

theorem RuntimeStep.steps_suffix {label : RuntimeLabel} {v v' : RuntimeView}
    (h : RuntimeStep label v v') (ho : OrderlyView v) : v.handle.steps <:+ v'.handle.steps := by
  cases h with
  | created strategyId hborn =>
    rw [ho.unborn hborn]
    exact List.suffix_refl _
  | begun => exact List.suffix_cons _ _
  | _ => exact List.suffix_refl _

theorem calm_act {owed : Option (Set ℕ)} (ht : Tended s) {action : SchedulerAction}
    (hclear : UnhurriedAction s action) {id : ℕ} (hc : Calm owed (view s id)) :
    Calm owed (view (s.act action) id) ∨ ServesWake owed (view s id) (view (s.act action) id) :=
  (view_act ht.sound action id).calm (ht.attended id) (ht.sound.orderly id)
    (hclear.unhurried id) hc

theorem calm_init (workerCount : ℤ) (id : ℕ) :
    Calm none (view (Scheduler.init workerCount) id) :=
  .fresh rfl rfl (fun w => by simp [view, Scheduler.init, Scheduler.job]) rfl rfl rfl
    (fun _ => ⟨Nat.zero_le 1, rfl⟩) fun h => Bool.noConfusion h

/-- What a run without a disturbed start keeps, before any wake-up is owed. -/
structure OnCourse (s : Scheduler) : Prop where
  tended : Tended s
  calm : ∀ id, Calm none (view s id)

theorem onCourse_run {workerCount : ℤ} {actions : List SchedulerAction}
    (hrun : Along Scheduler.act UnhurriedAction (Scheduler.init workerCount) actions) :
    OnCourse (runActions Scheduler.act (Scheduler.init workerCount) actions) := by
  refine hrun.invariant ?_ ⟨tended_init workerCount, calm_init workerCount⟩
  intro s action hs hclear
  refine ⟨hs.tended.act action, fun id => ?_⟩
  rcases calm_act hs.tended hclear (hs.calm id) with hcalm | ⟨taken, htaken, _⟩
  · exact hcalm
  · cases htaken

/-- What a run keeps that owes a wake-up: it has been served, or the handle is still on its
course. -/
structure Owing (taken : Set ℕ) (steps : List ℕ) (id : ℕ) (s : Scheduler) : Prop where
  tended : Tended s
  version : 0 < (s.handle id).scheduleVersion
  served : ∃ new, (s.handle id).steps = new ++ steps ∧
    ((∃ x ∈ new, x ∉ taken) ∨ Calm (some taken) (view s id))

theorem Owing.act {taken : Set ℕ} {steps : List ℕ} {id : ℕ} (ho : Owing taken steps id s)
    {action : SchedulerAction} (hclear : UnhurriedAction s action) :
    Owing taken steps id (s.act action) where
  tended := ho.tended.act action
  version := ho.version.trans_le
    ((view_act ho.tended.sound action id).version_le (ho.tended.sound.orderly id))
  served := by
    obtain ⟨new, hnew, hserved⟩ := ho.served
    obtain ⟨more, hmore⟩ :=
      (view_act ho.tended.sound action id).steps_suffix (ho.tended.sound.orderly id)
    have hsteps : ((s.act action).handle id).steps = (more ++ new) ++ steps := by
      rw [List.append_assoc, ← hnew]
      exact hmore.symm
    refine ⟨more ++ new, hsteps, ?_⟩
    rcases hserved with ⟨x, hx, hnot⟩ | hcalm
    · exact .inl ⟨x, List.mem_append_right _ hx, hnot⟩
    · rcases calm_act ho.tended hclear hcalm with hcalm | ⟨_, ⟨⟩, x, hnot, hcons⟩
      · exact .inr hcalm
      · refine .inl ⟨x, List.mem_append_left _ ?_, hnot⟩
        have hfirst : more = [x] := by
          apply List.append_cancel_right
          exact hmore.trans hcons
        rw [hfirst]
        exact List.mem_singleton_self x

theorem Owing.kept {id : ℕ} {before woken later : Scheduler}
    (ho : Owing (takenVersions (view before id)) (woken.handle id).steps id later) :
    WakeKept before woken later id := by
  obtain ⟨new, hnew, hserved⟩ := ho.served
  refine ⟨new, hnew, ?_⟩
  rcases hserved with ⟨x, hx, hnot⟩ | hcalm
  · refine .inl ⟨x, hx, ?_⟩
    rintro ⟨w, job, hw, hid, hversion⟩
    exact hnot ⟨w, job, view_job_eq_some.2 ⟨hw, hid⟩, hversion⟩
  · rcases hcalm.answered (ho.tended.attended id) ho.version with hdone | hruns | ⟨entry, hentry, hdue⟩
    · exact .inr (.inl hdone)
    · exact .inr (.inr (.inl (beingRun_iff.2 hruns)))
    · obtain ⟨queued, hmem, hid, hversion, hsame⟩ := exists_of_mem_current hentry
      exact .inr (.inr (.inr ⟨queued, hmem, hid, hversion, hsame ▸ hdue⟩))

theorem OnCourse.owing (hs : OnCourse s) {strategyId : ℤ}
    (hclear : UnhurriedAction s (.wake strategyId))
    (hwake : (s.wakeStrategy strategyId).1 = true) :
    ∃ id, s.handlesByStrategy strategyId = some id ∧
      Owing (takenVersions (view s id)) ((s.wakeStrategy strategyId).2.handle id).steps id
        (s.wakeStrategy strategyId).2 := by
  obtain ⟨id, hid, halive⟩ := exists_of_wake hwake
  have hcalls : (s.handle id).calls.scheduling = 0 := hclear id hid
  have hversion : 0 < (s.handle id).scheduleVersion := by
    refine ((hs.tended.attended id).flagged (isAlive_iff.1 halive).1).resolve_right ?_
    intro hcall
    exact (Nat.ne_of_gt hcall) hcalls
  refine ⟨id, hid, hs.tended.act (.wake strategyId), ?_, [], rfl, .inr ?_⟩
  · exact hversion.trans_le ((view_act hs.tended.sound (.wake strategyId) id).version_le
      (hs.tended.sound.orderly id))
  · exact (hs.calm id).owing halive hcalls (woken_of_alive hs.tended.sound hid halive)

end

/-- Where no start is disturbed, the steps of one runtime do not overlap, a started handle is being
run or queued, and no wake-up is lost. -/
theorem wakes_kept (workerCount : ℤ) (actions : List SchedulerAction)
    (hrun : Along Scheduler.act UnhurriedAction (Scheduler.init workerCount) actions) :
    KeepsWakes workerCount actions where
  dependable := by
    rintro earlier ⟨more, rfl⟩
    exact (onCourse_run (along_append.1 hrun).1).tended.dependable
  kept := by
    rintro before strategyId after rfl s hwake
    obtain ⟨hbefore, hclear, hafter⟩ := along_append.1 hrun
    obtain ⟨id, hid, howing⟩ := (onCourse_run hbefore).owing hclear hwake
    refine ⟨id, hid, Owing.kept ?_⟩
    exact hafter.invariant (fun s action hs hclear => hs.act hclear) howing

/-- A runtime that is started, makes a step and is woken while it sleeps. -/
theorem slept_and_woken :
    Along Scheduler.act UnhurriedAction (Scheduler.init 2) [.create 81, .startCheck 0, .startFlag 0,
      .startSchedule 0, .worker 0 .raises, .worker 0 .raises, .worker 0 (.yields 60),
      .worker 0 .raises, .worker 0 .raises, .wake 81, .worker 1 .raises] ∧
    KeepsWakes 2 [.create 81, .startCheck 0, .startFlag 0,
      .startSchedule 0, .worker 0 .raises, .worker 0 .raises, .worker 0 (.yields 60),
      .worker 0 .raises, .worker 0 .raises, .wake 81, .worker 1 .raises] :=
  ⟨by decide +kernel, wakes_kept 2 _ (by decide +kernel)⟩

/-- A wake between the two writes of `start()`, and one that comes while the runtime sleeps: the
second one changes nothing, and the runtime sleeps its minute. -/
theorem second_wake_lost : ¬ ∀ workerCount actions, KeepsWakes workerCount actions := by
  intro h
  obtain ⟨id, hid, new, hnew, hkept⟩ := (h 1 [.create 81, .startCheck 0, .startFlag 0, .wake 81,
    .startSchedule 0, .worker 0 .raises, .worker 0 .raises, .worker 0 (.yields 60),
    .worker 0 .raises, .worker 0 .raises, .wake 81]).kept [.create 81, .startCheck 0,
    .startFlag 0, .wake 81, .startSchedule 0, .worker 0 .raises, .worker 0 .raises,
    .worker 0 (.yields 60), .worker 0 .raises, .worker 0 .raises] 81 [] rfl (by decide +kernel)
  set s := runActions Scheduler.act (Scheduler.init 1) [.create 81, .startCheck 0, .startFlag 0,
    .wake 81, .startSchedule 0, .worker 0 .raises, .worker 0 .raises, .worker 0 (.yields 60),
    .worker 0 .raises, .worker 0 .raises] with hs
  have hworkers : (s.wakeStrategy 81).2.workers = [none] := by rw [hs]; decide +kernel
  have hqueue : ∀ entry ∈ (s.wakeStrategy 81).2.queue,
      ¬ entry.dueAt ≤ (s.wakeStrategy 81).2.now := by rw [hs]; decide +kernel
  have hfirst : some id = some 0 := by
    rw [← hid, hs]
    decide +kernel
  cases hfirst
  have hdone : ((s.wakeStrategy 81).2.handle 0).done = false := by rw [hs]; decide +kernel
  have hempty : new = [] := List.self_eq_append_left.1 hnew
  subst hempty
  rcases hkept with ⟨x, hx, _⟩ | hend | ⟨w, job, hw, _⟩ | ⟨entry, hentry, _, _, hdue⟩
  · exact absurd hx List.not_mem_nil
  · exact Bool.noConfusion (hend.symm.trans hdone)
  · have hjob : Scheduler.job (s.wakeStrategy 81).2 w = some job := hw
    unfold Scheduler.job at hjob
    rw [hworkers] at hjob
    cases w <;> simp at hjob
  · exact hqueue entry hentry hdue

end QuantDinger.Analysis
