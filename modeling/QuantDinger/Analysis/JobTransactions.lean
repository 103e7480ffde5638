import QuantDinger.Analysis.JobBooks

/-!
# The transactions on agent jobs

Submitting, starting and ending a job make the changes that keep the books. A charge finds no debit
under the reference of a new job, and a refund finds the debit and no refund before it.
-/

namespace QuantDinger.Analysis

open QuantDinger.Library QuantDinger.Model QuantDinger.Model.Billing QuantDinger.Model.AgentJobs

variable {π : Type} {cost : ℤ} {config : ChargeConfig} {store after : JobStore π}
  {job : AgentJob π} {jobId : String} {userId : ℕ}
  {account : Database UserRow CreditEntry String}

/-! ## The billing calls -/

theorem lastEntry_eq (log : List CreditEntry) (p : CreditEntry → Bool) :
    lastEntry log p = (log.filter p).getLast? := by
  unfold lastEntry
  rw [← List.head?_filter, List.filter_reverse, List.head?_reverse]

theorem account_filter (jobId : String) (haccount : store.account userId = some account)
    {p : CreditEntry → Bool}
    (hp : ∀ entry, p entry = true → entry.referenceId = billingReference jobId) :
    account.entries.filter p =
      ((entriesOf store jobId).filter fun entry => entry.1 = userId ∧ p entry.2 = true).map
        Prod.snd := by
  obtain ⟨row, -, rfl⟩ := Option.map_eq_some_iff.1 haccount
  unfold entriesOf
  dsimp only
  rw [List.filter_map, List.filter_filter, List.filter_filter]
  congr 1
  refine List.filter_congr ?_
  intro entry _
  have hreference := hp entry.2
  by_cases hfound : p entry.2 = true
  · simp [hfound, hreference hfound]
  · simp [hfound]

theorem lastDebit_none (haccount : store.account userId = some account)
    (hnone : entriesOf store jobId = []) :
    lastDebit account.entries "backtest" (billingReference jobId) = none := by
  unfold lastDebit
  rw [lastEntry_eq, account_filter jobId haccount, hnone]
  · rfl
  · intro entry hfound
    exact (of_decide_eq_true hfound).2.2

theorem lastDebit_some (haccount : store.account userId = some account) {balance : Amount}
    (hentries : entriesOf store jobId =
      [(userId, debitEntry cost balance "backtest" (billingReference jobId))]) :
    lastDebit account.entries "backtest" (billingReference jobId) =
      some (debitEntry cost balance "backtest" (billingReference jobId)) := by
  unfold lastDebit
  rw [lastEntry_eq, account_filter jobId haccount, hentries]
  · simp [debitEntry]
  · intro entry hfound
    exact (of_decide_eq_true hfound).2.2

theorem lastRefund_none (haccount : store.account userId = some account) {balance : Amount}
    (hentries : entriesOf store jobId =
      [(userId, debitEntry cost balance "backtest" (billingReference jobId))]) :
    lastRefund account.entries (billingReference jobId) = none := by
  unfold lastRefund
  rw [lastEntry_eq, account_filter jobId haccount, hentries]
  · simp [debitEntry]
  · intro entry hfound
    exact (of_decide_eq_true hfound).2

theorem billingReference_ne (jobId : String) : billingReference jobId ≠ "" := by
  unfold billingReference
  intro h
  have hempty := (String.append_eq_empty_iff.1 h).1
  revert hempty
  decide

theorem consume_finish {feature reference : String} (henabled : config.enabled = true)
    (hcost : 0 < config.cost) (hreference : reference ≠ "")
    (hnone : lastDebit account.entries feature reference = none) :
    (∃ later balance charge,
      (consumeInTransaction config feature reference closeCall).finish 0 account account =
        (later, some (.ok charge)) ∧
      later.entries = account.entries ++ [debitEntry config.cost balance feature reference] ∧
      charge.feature = feature ∧ charge.referenceId = reference ∧ charge.charged = config.cost) ∨
    ∃ later e, (consumeInTransaction config feature reference closeCall).finish 0 account account =
      (later, some (.error e)) := by
  have hmax : max 0 config.cost = config.cost := max_eq_right hcost.le
  have hpaid : ¬ (config.enabled = false ∨ config.cost = 0) := by
    rw [henabled]
    simp [hcost.ne']
  unfold consumeInTransaction Script.finish
  dsimp only
  rw [hmax, if_neg hreference]
  unfold Script.finish
  dsimp only
  rw [hnone]
  dsimp only
  unfold chargeNow
  rw [if_neg hpaid]
  unfold Script.finish
  dsimp only
  by_cases hcovered : (config.cost : Amount) ≤ account.row.credits
  · rw [if_pos hcovered]
    refine Or.inl ⟨_, account.row.credits - config.cost, _, rfl, ?_, ?_, ?_, ?_⟩
    all_goals rfl
  · rw [if_neg hcovered]
    exact Or.inr ⟨_, _, rfl⟩

theorem refund_finish {charge : Charge} {balance : Amount} (hcost : 0 < cost)
    (hcharged : charge.charged = cost)
    (hdebit : lastDebit account.entries charge.feature charge.referenceId =
      some (debitEntry cost balance charge.feature charge.referenceId))
    (hnone : lastRefund account.entries charge.referenceId = none) :
    ∃ later balance paid,
      (refundInTransaction charge closeCall).finish 0 account account = (later, some (.ok paid)) ∧
      later.entries = account.entries ++
        [refundEntry cost balance charge.feature charge.referenceId] ∧
      paid.feature = charge.feature ∧ paid.referenceId = charge.referenceId ∧
      paid.charged = cost := by
  have hopen : ¬ charge.charged ≤ 0 := by omega
  have hamount (feature reference : String) :
      ⌊|(debitEntry cost balance feature reference).amount|⌋ = cost := by
    show ⌊|(-cost : Amount)|⌋ = cost
    rw [abs_neg, abs_of_pos (Int.cast_pos.2 hcost), Int.floor_intCast]
  unfold refundInTransaction
  rw [if_neg hopen]
  unfold Script.finish
  unfold Script.finish
  dsimp only
  rw [hdebit]
  dsimp only
  rw [hamount]
  unfold Script.finish
  dsimp only
  rw [hnone]
  refine ⟨_, account.row.credits + cost, _, rfl, ?_, ?_, ?_, ?_⟩
  · rfl
  · rfl
  · rfl
  · exact hcharged

theorem withAccount_log {later : Database UserRow CreditEntry String} {entry : CreditEntry}
    (hentries : later.entries = account.entries ++ [entry]) :
    (store.withAccount userId account later).log = store.log ++ [(userId, entry)] := by
  unfold JobStore.withAccount
  dsimp only
  rw [hentries, List.drop_left]
  rfl

theorem bill_consume (henabled : config.enabled = true) (hcost : 0 < config.cost)
    (hnone : entriesOf store jobId = []) {charge : Charge}
    (h : store.bill userId
      (consumeInTransaction config "backtest" (billingReference jobId) closeCall) =
        .ok (charge, after)) :
    after.jobs = store.jobs ∧ ChargeOf config.cost jobId charge ∧ ∃ balance, after.log =
      store.log ++
        [(userId, debitEntry config.cost balance "backtest" (billingReference jobId))] := by
  unfold JobStore.bill at h
  cases haccount : store.account userId with
  | none =>
    rw [haccount] at h
    cases h
  | some account =>
    rw [haccount] at h
    dsimp only at h
    rcases consume_finish henabled hcost (billingReference_ne jobId)
        (lastDebit_none haccount hnone) with
      ⟨later, balance, found, hfinish, hentries, hfeature, hreference, hcharged⟩ |
      ⟨later, e, hfinish⟩
    · rw [hfinish] at h
      cases h
      exact ⟨rfl, ⟨hfeature, hreference, hcharged⟩, balance, withAccount_log hentries⟩
    · rw [hfinish] at h
      cases h

theorem bill_refund (hcost : 0 < cost) {charge paid : Charge} (hcharge : ChargeOf cost jobId charge)
    {balance : Amount} (hentries : entriesOf store jobId =
      [(userId, debitEntry cost balance "backtest" (billingReference jobId))])
    (h : store.bill userId (refundInTransaction charge closeCall) = .ok (paid, after)) :
    after.jobs = store.jobs ∧ ChargeOf cost jobId paid ∧ ∃ balance, after.log = store.log ++
      [(userId, refundEntry cost balance "backtest" (billingReference jobId))] := by
  obtain ⟨hfeature, hreference, hcharged⟩ := hcharge
  unfold JobStore.bill at h
  cases haccount : store.account userId with
  | none =>
    rw [haccount] at h
    cases h
  | some account =>
    rw [haccount] at h
    dsimp only at h
    have hdebit := lastDebit_some haccount hentries
    have hnone := lastRefund_none haccount hentries
    rw [← hfeature, ← hreference] at hdebit
    rw [← hreference] at hnone
    obtain ⟨later, balance, found, hfinish, hlater, hf, hr, hc⟩ :=
      refund_finish hcost hcharged hdebit hnone
    rw [hfinish] at h
    cases h
    rw [hfeature, hreference] at hlater
    exact ⟨rfl, ⟨hf.trans hfeature, hr.trans hreference, hc⟩, balance, withAccount_log hlater⟩

/-! ## Submitting -/

/-- The row is one that the call may have made. -/
def Answers (call : SubmitCall π) (job : AgentJob π) : Prop :=
  job.userId = call.userId ∧ job.agentTokenId = call.agentTokenId ∧ job.kind = call.kind ∧
    job.idempotencyKey = call.idempotencyKey ∧ job.request = call.payload

theorem keyed_eq {call : SubmitCall π} {token : ℕ} {key : String}
    (h : call.keyed = some (token, key)) :
    call.agentTokenId = some token ∧ call.idempotencyKey = some key := by
  unfold SubmitCall.keyed at h
  cases htoken : call.agentTokenId with
  | none => simp [htoken] at h
  | some found =>
    cases hkey : call.idempotencyKey with
    | none => simp [htoken, hkey] at h
    | some text =>
      simp only [htoken, hkey, Option.ite_none_right_eq_some, Option.some.injEq,
        Prod.mk.injEq] at h
      obtain ⟨-, rfl, rfl⟩ := h
      exact ⟨rfl, rfl⟩

theorem existing_names {call : SubmitCall π} (h : call.existing store = some job) :
    job ∈ store.jobs ∧ job.userId = call.userId ∧ job.agentTokenId = call.agentTokenId ∧
      job.kind = call.kind ∧ job.idempotencyKey = call.idempotencyKey := by
  unfold SubmitCall.existing at h
  cases hkeyed : call.keyed with
  | none =>
    rw [hkeyed] at h
    cases h
  | some named =>
    obtain ⟨token, key⟩ := named
    rw [hkeyed] at h
    dsimp only at h
    obtain ⟨htoken, hkey⟩ := keyed_eq hkeyed
    have hnames := List.find?_some h
    obtain ⟨huser, hsame, hkind, hsameKey⟩ := of_decide_eq_true hnames
    refine ⟨List.mem_reverse.1 (List.mem_of_find?_eq_some h), huser, ?_, hkind, ?_⟩
    · rw [hsame, htoken]
    · rw [hsameKey, hkey]

theorem chargeJob_opened {call : SubmitCall π} (hbooks : JobBooks config.cost store)
    (henabled : config.enabled = true) (hcost : 0 < config.cost)
    (hnew : ∀ other ∈ store.jobs, other.jobId ≠ jobId) {billing : Option Charge}
    (h : chargeJob config call jobId store = .ok (billing, after)) :
    after.jobs = store.jobs ∧
      ∀ jobs, Opened config.cost store { after with jobs := jobs } (call.row jobId billing) := by
  unfold chargeJob at h
  by_cases hkind : call.kind = "backtest"
  · rw [if_pos hkind] at h
    cases hbill : store.bill call.userId
        (consumeInTransaction config "backtest" (billingReference jobId) closeCall) with
    | error e =>
      rw [hbill] at h
      cases h
    | ok result =>
      rw [hbill] at h
      cases h
      obtain ⟨hjobs, hcharge, balance, hlog⟩ :=
        bill_consume henabled hcost (hbooks.unknown jobId hnew) hbill
      refine ⟨hjobs, fun jobs => ?_⟩
      exact Opened.charged hkind rfl hcharge hlog
  · rw [if_neg hkind] at h
    cases h
    exact ⟨rfl, fun jobs => Opened.free hkind rfl rfl⟩

theorem submit_change [DecidableEq π] {call : SubmitCall π} (hbooks : JobBooks config.cost store)
    (henabled : config.enabled = true) (hcost : 0 < config.cost) {reply : SubmitReply π}
    (h : submitTransaction config call jobId store = .ok (reply, after)) :
    JobChange config.cost store after ∧
      ((∃ job ∈ after.jobs, reply = .duplicate job ∧ Answers call job) ∨
        reply = .created ∧ ∃ job ∈ after.jobs, job.jobId = jobId ∧ Answers call job) := by
  unfold submitTransaction at h
  cases hexisting : call.existing store with
  | some job =>
    rw [hexisting] at h
    dsimp only at h
    obtain ⟨hmem, huser, htoken, hkind, hkey⟩ := existing_names hexisting
    by_cases hsame : job.request = call.payload
    · rw [if_pos hsame] at h
      cases h
      exact ⟨JobChange.kept, Or.inl ⟨job, hmem, rfl, huser, htoken, hkind, hkey, hsame⟩⟩
    · rw [if_neg hsame] at h
      cases h
  | none =>
    rw [hexisting] at h
    dsimp only at h
    cases hcharge : chargeJob config call jobId store with
    | error e =>
      rw [hcharge] at h
      cases h
    | ok result =>
      obtain ⟨billing, charged⟩ := result
      rw [hcharge] at h
      dsimp only at h
      split_ifs at h with hforeign hcollide
      cases h
      have hnew : ∀ other ∈ store.jobs, ¬ Collide (call.row jobId billing) other :=
        fun other hother hyes => hcollide ⟨other, hother, hyes⟩
      obtain ⟨hjobs, hopened⟩ := chargeJob_opened hbooks henabled hcost
        (fun other hother hid => hnew other hother (Or.inl hid.symm)) hcharge
      refine ⟨JobChange.added hnew rfl ?_ (hopened _), Or.inr ⟨rfl, ?_⟩⟩
      · rw [hjobs]
      · exact ⟨call.row jobId billing, List.mem_append_right _ (List.mem_singleton_self _), rfl,
          rfl, rfl, rfl, rfl, rfl⟩

/-! ## Starting and ending -/

theorem updateJob_jobs (hbooks : JobBooks cost store) (hmem : job ∈ store.jobs)
    (hjobs : after.jobs = store.jobs) {f : AgentJob π → AgentJob π}
    (hf : (f job).jobId = job.jobId) :
    (after.updateJob job.jobId f).jobs = replaceJob store.jobs (f job) := by
  unfold JobStore.updateJob replaceJob
  dsimp only
  rw [hjobs, hf]
  refine List.map_congr_left ?_
  intro row hrow
  by_cases hsame : row.jobId = job.jobId
  · rw [if_pos hsame, if_pos hsame, hbooks.eq_of_jobId hrow hmem hsame]
  · rw [if_neg hsame, if_neg hsame]

def Begun (store : JobStore π) (jobId : String) : Prop :=
  ∃ job ∈ store.jobs, job.jobId = jobId ∧ job.status ≠ .queued

theorem setRunning_change (hbooks : JobBooks cost store) {changed : Bool}
    (h : setRunning jobId store = .ok (changed, after)) :
    JobChange cost store after ∧
      (changed = true → ¬ Begun store jobId ∧ Begun after jobId) := by
  unfold setRunning at h
  split_ifs at h with hfound
  · cases h
    obtain ⟨job, hmem, rfl, hqueued⟩ := hfound
    have hjobs := updateJob_jobs hbooks hmem rfl (f := fun job =>
      if job.status = .queued then { job with status := .running } else job)
      (by rw [if_pos hqueued])
    rw [if_pos hqueued] at hjobs
    have hrunning : JobStatus.running ≠ .queued := by decide
    refine ⟨JobChange.moved hmem ?_ ?_ ?_ hjobs ?_, fun _ => ⟨?_, ?_⟩⟩
    · rw [hqueued]
      rfl
    · rfl
    · exact hrunning
    · exact MoveLogged.kept (fun _ => not_released_of_live rfl) rfl rfl
    · rintro ⟨other, hother, hid, hbegun⟩
      rw [hbooks.eq_of_jobId hother hmem hid] at hbegun
      exact hbegun hqueued
    · refine ⟨{ job with status := .running }, ?_, rfl, hrunning⟩
      rw [hjobs]
      exact List.mem_map.2 ⟨job, hmem, if_pos rfl⟩
  · cases h
    exact ⟨JobChange.kept, fun hchanged => by cases hchanged⟩

theorem ne_queued_of_ended {status : JobStatus} (h : status.live = false) : status ≠ .queued := by
  rintro rfl
  cases h

theorem ended_change (hbooks : JobBooks cost store) (hmem : job ∈ store.jobs)
    (hlive : job.status.live = true) {status : JobStatus} (hended : status.live = false)
    {charged : JobStore π} (hjobs : charged.jobs = store.jobs) (billing : Option Charge)
    {f : AgentJob π → AgentJob π} (hf : f job = { job with status := status, billing := billing })
    (hlogged :
      MoveLogged cost store charged job { job with status := status, billing := billing }) :
    JobChange cost store (charged.updateJob job.jobId f) := by
  have hreplaced := updateJob_jobs hbooks hmem hjobs (f := f) (by rw [hf])
  rw [hf] at hreplaced
  refine JobChange.moved hmem hlive ?_ (ne_queued_of_ended hended) hreplaced ?_
  · rfl
  cases hlogged with
  | kept hkind hbilling hlog => exact MoveLogged.kept hkind hbilling hlog
  | refunded hkind hreleased hbilling hcharge hlog =>
    exact MoveLogged.refunded hkind hreleased hbilling hcharge hlog

theorem finish_change (hbooks : JobBooks cost store) (hcost : 0 < cost) {status : JobStatus}
    (hended : status.live = false) {user : Option ℕ} {changed : Bool}
    (h : finishJob jobId status user store = .ok (changed, after)) :
    JobChange cost store after := by
  unfold finishJob at h
  cases hfind : store.find jobId with
  | none =>
    rw [hfind] at h
    cases h
    exact JobChange.kept
  | some row =>
    rw [hfind] at h
    dsimp only at h
    obtain ⟨hmem, rfl⟩ := find_mem hfind
    by_cases hrefused : (user ≠ none ∧ user ≠ some row.userId) ∨ row.status.live = false
    · rw [if_pos hrefused] at h
      cases h
      exact JobChange.kept
    · rw [if_neg hrefused] at h
      have hlive : row.status.live = true := by
        simpa using (not_or.1 hrefused).2
      have hbilled := hbooks.billed row hmem
      unfold Billed at hbilled
      cases hbilling : row.billing with
      | none =>
        rw [hbilling] at h
        cases h
        have hkind : row.kind ≠ "backtest" := by
          intro hbacktest
          rw [if_pos hbacktest, hbilling] at hbilled
          obtain ⟨⟨charge, hno, -⟩, -⟩ := hbilled
          cases hno
        refine ended_change hbooks hmem hlive hended rfl row.billing rfl ?_
        exact MoveLogged.kept (fun hbacktest => absurd hbacktest hkind) rfl rfl
      | some charge =>
        rw [hbilling] at h hbilled
        dsimp only at h
        have hkind : row.kind = "backtest" := by
          by_contra hother
          rw [if_neg hother] at hbilled
          cases hbilled.1
        rw [if_pos hkind] at hbilled
        obtain ⟨⟨_, hsame, hcharge⟩, balance, refunds, hentries, hrefunds⟩ := hbilled
        cases hsame
        by_cases hsucceeded : status ≠ .succeeded
        · rw [if_pos hsucceeded] at h
          rw [if_neg (not_released_of_live hlive)] at hrefunds
          rw [hrefunds] at hentries
          cases hbill : store.bill row.userId (refundInTransaction charge closeCall) with
          | error e =>
            rw [hbill] at h
            cases h
          | ok result =>
            rw [hbill] at h
            cases h
            obtain ⟨hjobs, hpaid, paid, hlog⟩ := bill_refund hcost hcharge hentries hbill
            have hreleased : Released status := by
              cases status with
              | queued => cases hended
              | running => cases hended
              | succeeded => exact absurd rfl hsucceeded
              | failed => exact Or.inl rfl
              | cancelled => exact Or.inr rfl
            refine ended_change hbooks hmem hlive hended hjobs (some result.1) rfl ?_
            exact MoveLogged.refunded hkind hreleased rfl hpaid hlog
        · rw [if_neg hsucceeded] at h
          cases h
          have hstatus : status = .succeeded := not_not.1 hsucceeded
          refine ended_change hbooks hmem hlive hended rfl (some charge) rfl ?_
          refine MoveLogged.kept (fun _ => ?_) hbilling.symm rfl
          show ¬ Released status
          rw [hstatus]
          decide

end QuantDinger.Analysis
