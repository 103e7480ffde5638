import QuantDinger.Analysis.ChargeRefund
import QuantDinger.Model.AgentJobs

/-!
# The books of agent jobs

What the transactions on the jobs and the log keep: a backtest is charged when its row is made, and
the charge is paid back when the row is ended without a result. A transaction adds a row, or moves
one that is queued or running; everything else is read off these two.
-/

namespace QuantDinger.Analysis

open QuantDinger.Library QuantDinger.Model QuantDinger.Model.Billing QuantDinger.Model.AgentJobs

variable {π : Type} {cost : ℤ} {store after : JobStore π} {job later : AgentJob π} {jobId : String}

/-! ## What is kept -/

/-- The rows of the log with the reference of a job. -/
def entriesOf (store : JobStore π) (jobId : String) : List (ℕ × CreditEntry) :=
  store.log.filter fun entry => entry.2.referenceId = billingReference jobId

def netLogged (store : JobStore π) (jobId : String) : Amount :=
  ((entriesOf store jobId).map fun entry => entry.2.amount).sum

def debitsOf (store : JobStore π) (jobId : String) : ℕ :=
  (entriesOf store jobId).countP fun entry => entry.2.action = "consume"

def Released (status : JobStatus) : Prop := status = .failed ∨ status = .cancelled

instance decidableReleased (status : JobStatus) : Decidable (Released status) :=
  inferInstanceAs (Decidable (_ ∨ _))

/-- The charge is the debit of the job. -/
structure ChargeOf (cost : ℤ) (jobId : String) (charge : Charge) : Prop where
  feature : charge.feature = "backtest"
  reference : charge.referenceId = billingReference jobId
  charged : charge.charged = cost

/-- What is logged for a backtest: its debit, and the refund if it ended without a result. -/
def LoggedAs (cost : ℤ) (job : AgentJob π) (entries : List (ℕ × CreditEntry)) : Prop :=
  ∃ balance refunds, entries =
      (job.userId, debitEntry cost balance "backtest" (billingReference job.jobId)) :: refunds ∧
    if Released job.status then ∃ balance, refunds =
      [(job.userId, refundEntry cost balance "backtest" (billingReference job.jobId))]
    else refunds = []

def Billed (cost : ℤ) (store : JobStore π) (job : AgentJob π) : Prop :=
  if job.kind = "backtest" then
    (∃ charge, job.billing = some charge ∧ ChargeOf cost job.jobId charge) ∧
      LoggedAs cost job (entriesOf store job.jobId)
  else job.billing = none ∧ entriesOf store job.jobId = []

/-- The rows agree in no unique index, and each agrees with the log; no other job is in the log. -/
structure JobBooks (cost : ℤ) (store : JobStore π) : Prop where
  distinct : store.jobs.Pairwise fun job other => ¬ Collide job other
  billed : ∀ job ∈ store.jobs, Billed cost store job
  unknown : ∀ jobId, (∀ job ∈ store.jobs, job.jobId ≠ jobId) → entriesOf store jobId = []

theorem collide_symm {job other : AgentJob π} (h : Collide job other) : Collide other job := by
  rcases h with hid | ⟨htoken, hkey, hsame, hkind, hsameKey⟩
  · exact Or.inl hid.symm
  · exact Or.inr ⟨hsame ▸ htoken, hsameKey ▸ hkey, hsame.symm, hkind.symm, hsameKey.symm⟩

local instance symmDistinct : Std.Symm fun job other : AgentJob π => ¬ Collide job other where
  symm := fun _ _ hno hyes => hno (collide_symm hyes)

theorem JobBooks.eq_of_collide (h : JobBooks cost store) (hjob : job ∈ store.jobs)
    {other : AgentJob π} (hother : other ∈ store.jobs) (hcollide : Collide job other) :
    job = other := by
  by_contra hne
  exact h.distinct.forall hjob hother hne hcollide

theorem JobBooks.eq_of_jobId (h : JobBooks cost store) (hjob : job ∈ store.jobs)
    {other : AgentJob π} (hother : other ∈ store.jobs) (hid : job.jobId = other.jobId) :
    job = other :=
  h.eq_of_collide hjob hother (Or.inl hid)

theorem find_mem (h : store.find jobId = some job) : job ∈ store.jobs ∧ job.jobId = jobId := by
  unfold JobStore.find at h
  have hid := List.find?_some h
  exact ⟨List.mem_of_find?_eq_some h, of_decide_eq_true hid⟩

theorem JobBooks.find_eq (h : JobBooks cost store) (hjob : job ∈ store.jobs) :
    store.find job.jobId = some job := by
  cases hfind : store.find job.jobId with
  | none =>
    have hno := List.find?_eq_none.1 hfind job hjob
    simp at hno
  | some other =>
    obtain ⟨hother, hid⟩ := find_mem hfind
    rw [h.eq_of_jobId hother hjob hid]

theorem JobBooks.net (h : JobBooks cost store) (hjob : job ∈ store.jobs)
    (hkind : job.kind = "backtest") :
    netLogged store job.jobId = if Released job.status then 0 else -(cost : Amount) := by
  have hbilled := h.billed job hjob
  unfold Billed at hbilled
  rw [if_pos hkind] at hbilled
  obtain ⟨-, balance, refunds, hentries, hrefunds⟩ := hbilled
  unfold netLogged
  rw [hentries]
  by_cases hreleased : Released job.status
  · rw [if_pos hreleased] at hrefunds ⊢
    obtain ⟨later, hrefunds⟩ := hrefunds
    rw [hrefunds]
    simp [debitEntry, refundEntry]
  · rw [if_neg hreleased] at hrefunds ⊢
    rw [hrefunds]
    simp [debitEntry]

theorem JobBooks.debits (h : JobBooks cost store) (hjob : job ∈ store.jobs)
    (hkind : job.kind = "backtest") : debitsOf store job.jobId = 1 := by
  have hbilled := h.billed job hjob
  unfold Billed at hbilled
  rw [if_pos hkind] at hbilled
  obtain ⟨-, balance, refunds, hentries, hrefunds⟩ := hbilled
  unfold debitsOf
  rw [hentries]
  by_cases hreleased : Released job.status
  · rw [if_pos hreleased] at hrefunds
    obtain ⟨later, hrefunds⟩ := hrefunds
    rw [hrefunds]
    simp [debitEntry, refundEntry]
  · rw [if_neg hreleased] at hrefunds
    rw [hrefunds]
    simp [debitEntry]

/-! ## What a transaction may do -/

/-- What a new row does to the log. -/
inductive Opened (cost : ℤ) (store after : JobStore π) (job : AgentJob π) : Prop
  | free (hkind : job.kind ≠ "backtest") (hbilling : job.billing = none)
      (hlog : after.log = store.log)
  | charged {balance : Amount} {charge : Charge} (hkind : job.kind = "backtest")
      (hbilling : job.billing = some charge) (hcharge : ChargeOf cost job.jobId charge)
      (hlog : after.log = store.log ++
        [(job.userId, debitEntry cost balance "backtest" (billingReference job.jobId))])

/-- What a move of a row does to the log. -/
inductive MoveLogged (cost : ℤ) (store after : JobStore π) (job later : AgentJob π) : Prop
  | kept (hkind : job.kind = "backtest" → ¬ Released later.status)
      (hbilling : later.billing = job.billing) (hlog : after.log = store.log)
  | refunded {balance : Amount} {charge : Charge} (hkind : job.kind = "backtest")
      (hreleased : Released later.status) (hbilling : later.billing = some charge)
      (hcharge : ChargeOf cost job.jobId charge)
      (hlog : after.log = store.log ++
        [(job.userId, refundEntry cost balance "backtest" (billingReference job.jobId))])

def replaceJob (jobs : List (AgentJob π)) (later : AgentJob π) : List (AgentJob π) :=
  jobs.map fun job => if job.jobId = later.jobId then later else job

/-- What a transaction does. -/
inductive JobChange (cost : ℤ) (store : JobStore π) : JobStore π → Prop
  | kept : JobChange cost store store
  | added {after : JobStore π} {job : AgentJob π}
      (hnew : ∀ other ∈ store.jobs, ¬ Collide job other) (hqueued : job.status = .queued)
      (hjobs : after.jobs = store.jobs ++ [job]) (hopened : Opened cost store after job) :
      JobChange cost store after
  | moved {after : JobStore π} {job later : AgentJob π} (hmem : job ∈ store.jobs)
      (hlive : job.status.live = true)
      (hlater : later = { job with status := later.status, billing := later.billing })
      (hstatus : later.status ≠ .queued) (hjobs : after.jobs = replaceJob store.jobs later)
      (hlogged : MoveLogged cost store after job later) : JobChange cost store after

/-- What becomes of a row: an ended one keeps its status, and none is queued again. -/
structure Follows (job later : AgentJob π) : Prop where
  row : later = { job with status := later.status, billing := later.billing }
  ended : job.status.live = false → later.status = job.status
  begun : job.status ≠ .queued → later.status ≠ .queued

def Later (store after : JobStore π) : Prop :=
  ∀ job ∈ store.jobs, ∃ later ∈ after.jobs, Follows job later

theorem Follows.refl (job : AgentJob π) : Follows job job := ⟨rfl, fun _ => rfl, fun h => h⟩

theorem Follows.trans {last : AgentJob π} (h : Follows job later) (hnext : Follows later last) :
    Follows job last := by
  refine ⟨?_, ?_, ?_⟩
  · have hrow := h.row
    have hlast := hnext.row
    rw [hrow] at hlast
    exact hlast
  · intro hended
    have hsame := h.ended hended
    rw [hnext.ended (by rw [hsame]; exact hended), hsame]
  · exact fun hbegun => hnext.begun (h.begun hbegun)

theorem Later.refl (store : JobStore π) : Later store store :=
  fun job hjob => ⟨job, hjob, Follows.refl job⟩

theorem Later.trans {last : JobStore π} (h : Later store after) (hnext : Later after last) :
    Later store last := by
  intro job hjob
  obtain ⟨later, hlater, hfollows⟩ := h job hjob
  obtain ⟨last, hlast, hfollows'⟩ := hnext later hlater
  exact ⟨last, hlast, hfollows.trans hfollows'⟩

theorem Follows.sameId (h : Follows job later) : later.jobId = job.jobId := by
  rw [h.row]

theorem JobChange.keepsRows (h : JobChange cost store after) (hbooks : JobBooks cost store) :
    Later store after := by
  cases h with
  | kept => exact Later.refl store
  | added hnew hqueued hjobs hopened =>
    intro job hjob
    refine ⟨job, ?_, Follows.refl job⟩
    rw [hjobs]
    exact List.mem_append_left _ hjob
  | @moved _ old later hmem hlive hlater hstatus hjobs hlogged =>
    intro job hjob
    have hid : later.jobId = old.jobId := by rw [hlater]
    by_cases hsame : job.jobId = later.jobId
    · have heq : job = old := hbooks.eq_of_jobId hjob hmem (hsame.trans hid)
      subst heq
      refine ⟨later, ?_, hlater, ?_, fun _ => hstatus⟩
      · rw [hjobs]
        exact List.mem_map.2 ⟨job, hmem, if_pos hsame⟩
      · intro hended
        rw [hended] at hlive
        cases hlive
    · refine ⟨job, ?_, Follows.refl job⟩
      rw [hjobs]
      exact List.mem_map.2 ⟨job, hjob, if_neg hsame⟩

/-! ## The books are kept -/

theorem billingReference_inj {jobId other : String} :
    billingReference jobId = billingReference other ↔ jobId = other := by
  unfold billingReference
  constructor
  · intro h
    exact String.append_right_inj _ |>.1 h
  · rintro rfl
    rfl

theorem entriesOf_append {entry : ℕ × CreditEntry} {other : String}
    (hlog : after.log = store.log ++ [entry])
    (hreference : entry.2.referenceId = billingReference jobId) :
    entriesOf after other = entriesOf store other ++ if jobId = other then [entry] else [] := by
  unfold entriesOf
  rw [hlog, List.filter_append]
  by_cases hsame : jobId = other
  · rw [if_pos hsame]
    simp [hreference, hsame]
  · rw [if_neg hsame]
    simp [hreference, billingReference_inj, hsame]

theorem entriesOf_congr (hlog : after.log = store.log) (jobId : String) :
    entriesOf after jobId = entriesOf store jobId := by
  unfold entriesOf
  rw [hlog]

theorem Billed.congr (h : Billed cost store job)
    (hentries : entriesOf after job.jobId = entriesOf store job.jobId) : Billed cost after job := by
  unfold Billed at h ⊢
  rw [hentries]
  exact h

theorem Opened.entries_other (h : Opened cost store after job) {other : String}
    (hother : job.jobId ≠ other) : entriesOf after other = entriesOf store other := by
  cases h with
  | free hkind hbilling hlog => exact entriesOf_congr hlog other
  | charged hkind hbilling hcharge hlog =>
    rw [entriesOf_append hlog rfl, if_neg hother, List.append_nil]

theorem Opened.billed (h : Opened cost store after job) (hqueued : job.status = .queued)
    (hnone : entriesOf store job.jobId = []) : Billed cost after job := by
  unfold Billed
  cases h with
  | free hkind hbilling hlog =>
    rw [if_neg hkind, entriesOf_congr hlog]
    exact ⟨hbilling, hnone⟩
  | @charged balance charge hkind hbilling hcharge hlog =>
    rw [if_pos hkind, entriesOf_append hlog rfl, if_pos rfl, hnone, List.nil_append]
    refine ⟨⟨charge, hbilling, hcharge⟩, balance, [], rfl, ?_⟩
    rw [hqueued, if_neg (by decide)]

theorem MoveLogged.entries_other (h : MoveLogged cost store after job later) {other : String}
    (hother : job.jobId ≠ other) : entriesOf after other = entriesOf store other := by
  cases h with
  | kept hkind hbilling hlog => exact entriesOf_congr hlog other
  | refunded hkind hreleased hbilling hcharge hlog =>
    rw [entriesOf_append hlog rfl, if_neg hother, List.append_nil]

theorem not_released_of_live {status : JobStatus} (h : status.live = true) : ¬ Released status := by
  cases status <;> simp_all [Released, JobStatus.live]

theorem MoveLogged.billed (h : MoveLogged cost store after job later)
    (hlive : job.status.live = true)
    (hlater : later = { job with status := later.status, billing := later.billing })
    (hbilled : Billed cost store job) : Billed cost after later := by
  have hid : later.jobId = job.jobId := by rw [hlater]
  have huser : later.userId = job.userId := by rw [hlater]
  have hsame : later.kind = job.kind := by rw [hlater]
  unfold Billed LoggedAs at hbilled ⊢
  rw [hid, huser, hsame]
  cases h with
  | kept hkind hbilling hlog =>
    rw [hbilling, entriesOf_congr hlog]
    by_cases hbacktest : job.kind = "backtest"
    · rw [if_pos hbacktest] at hbilled ⊢
      simp only [if_neg (hkind hbacktest)]
      simp only [if_neg (not_released_of_live hlive)] at hbilled
      exact hbilled
    · rw [if_neg hbacktest] at hbilled ⊢
      exact hbilled
  | @refunded balance charge hkind hreleased hbilling hcharge hlog =>
    rw [if_pos hkind] at hbilled ⊢
    obtain ⟨-, debited, refunds, hentries, hrefunds⟩ := hbilled
    rw [if_neg (not_released_of_live hlive)] at hrefunds
    rw [entriesOf_append hlog rfl, if_pos rfl, hentries, hrefunds]
    refine ⟨⟨charge, hbilling, hcharge⟩, debited, _, rfl, ?_⟩
    rw [if_pos hreleased]
    exact ⟨balance, rfl⟩

theorem JobBooks.add (h : JobBooks cost store) (hnew : ∀ other ∈ store.jobs, ¬ Collide job other)
    (hqueued : job.status = .queued) (hjobs : after.jobs = store.jobs ++ [job])
    (hopened : Opened cost store after job) : JobBooks cost after := by
  have hfresh : ∀ other ∈ store.jobs, other.jobId ≠ job.jobId :=
    fun other hother hid => hnew other hother (Or.inl hid.symm)
  refine ⟨?_, ?_, ?_⟩
  · rw [hjobs, List.pairwise_append]
    refine ⟨h.distinct, List.pairwise_singleton _ _, ?_⟩
    intro other hother last hlast hcollide
    rw [List.mem_singleton.1 hlast] at hcollide
    exact hnew other hother (collide_symm hcollide)
  · intro other hother
    rw [hjobs] at hother
    rcases List.mem_append.1 hother with hold | hlast
    · exact (h.billed other hold).congr (hopened.entries_other (hfresh other hold).symm)
    · rw [List.mem_singleton.1 hlast]
      exact hopened.billed hqueued (h.unknown job.jobId hfresh)
  · intro jobId hjobId
    rw [hjobs] at hjobId
    have hother : job.jobId ≠ jobId :=
      hjobId job (List.mem_append_right _ (List.mem_singleton_self job))
    rw [hopened.entries_other hother]
    exact h.unknown jobId fun old hold => hjobId old (List.mem_append_left _ hold)

theorem mem_replaceJob {jobs : List (AgentJob π)} {other : AgentJob π}
    (h : other ∈ replaceJob jobs later) :
    other = later ∨ other ∈ jobs ∧ other.jobId ≠ later.jobId := by
  obtain ⟨old, hold, hother⟩ := List.mem_map.1 h
  by_cases hsame : old.jobId = later.jobId
  · rw [if_pos hsame] at hother
    exact Or.inl hother.symm
  · rw [if_neg hsame] at hother
    exact Or.inr ⟨hother ▸ hold, hother ▸ hsame⟩

theorem JobBooks.move (h : JobBooks cost store) (hmem : job ∈ store.jobs)
    (hlive : job.status.live = true)
    (hlater : later = { job with status := later.status, billing := later.billing })
    (hjobs : after.jobs = replaceJob store.jobs later)
    (hlogged : MoveLogged cost store after job later) : JobBooks cost after := by
  have hid : later.jobId = job.jobId := by rw [hlater]
  refine ⟨?_, ?_, ?_⟩
  · rw [hjobs]
    refine List.pairwise_map.2 (List.Pairwise.imp_of_mem ?_ h.distinct)
    intro first second hfirst hsecond hno
    -- a row collides as the one it replaces
    have hcollides : ∀ {row other : AgentJob π}, row ∈ store.jobs → 
        (Collide (if row.jobId = later.jobId then later else row) other ↔ Collide row other) := by
      intro row other hrow
      by_cases hsame : row.jobId = later.jobId
      · have heq : row = job := h.eq_of_jobId hrow hmem (hsame.trans hid)
        rw [if_pos hsame, heq, hlater]
        exact Iff.rfl
      · rw [if_neg hsame]
    intro hcollide
    rw [hcollides hfirst] at hcollide
    exact hno (collide_symm ((hcollides hsecond).1 (collide_symm hcollide)))
  · intro other hother
    rw [hjobs] at hother
    rcases mem_replaceJob hother with rfl | ⟨hold, hne⟩
    · exact hlogged.billed hlive hlater (h.billed job hmem)
    · exact (h.billed other hold).congr (hlogged.entries_other (hid ▸ hne).symm)
  · intro jobId hjobId
    have hold : ∀ row ∈ store.jobs, row.jobId ≠ jobId := by
      intro row hrow
      by_cases hsame : row.jobId = later.jobId
      · rw [hsame]
        refine hjobId later ?_
        rw [hjobs]
        exact List.mem_map.2 ⟨row, hrow, if_pos hsame⟩
      · refine hjobId row ?_
        rw [hjobs]
        exact List.mem_map.2 ⟨row, hrow, if_neg hsame⟩
    rw [hlogged.entries_other (hold job hmem)]
    exact h.unknown jobId hold

theorem JobChange.books (h : JobChange cost store after) (hbooks : JobBooks cost store) :
    JobBooks cost after := by
  cases h with
  | kept => exact hbooks
  | added hnew hqueued hjobs hopened => exact hbooks.add hnew hqueued hjobs hopened
  | moved hmem hlive hlater hstatus hjobs hlogged =>
    exact hbooks.move hmem hlive hlater hjobs hlogged

end QuantDinger.Analysis
