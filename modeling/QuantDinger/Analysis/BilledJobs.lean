import QuantDinger.Analysis.JobTransactions
import QuantDinger.Library.Processes

/-!
# Billed jobs

Every program of the gateway keeps to a protocol: it starts a runner for a job whose row it has just
moved to running, it ends a job with an ended status, and the receipt of a submit is for the row
that its transaction found or made. Programs that keep to it keep the books together, however their
calls interleave.
-/

namespace QuantDinger.Analysis

open QuantDinger.Library QuantDinger.Model QuantDinger.Model.Billing QuantDinger.Model.AgentJobs

variable {π : Type} {config : ChargeConfig} {gateway : Gateway π} {jobId : String}

/-! ## The protocol -/

/-- What a program knows: the job whose runner it may start, and the call it made with the job of
the answer. -/
structure JobTicket (π : Type) where
  token : Option String := none
  answered : Option (SubmitCall π × String) := none

def JobTicket.Allows (ticket : JobTicket π) : GatewayCall π → Prop
  | .startRunner jobId _ => ticket.token = some jobId
  | .finish _ status _ => status.live = false
  | _ => True

def JobTicket.next (ticket : JobTicket π) : (c : GatewayCall π) → GatewayResponse c → JobTicket π
  | .submit call jobId, .ok .created => { ticket with answered := some (call, jobId) }
  | .submit call _, .ok (.duplicate job) => { ticket with answered := some (call, job.jobId) }
  | .setRunning jobId, .ok true => { ticket with token := some jobId }
  | .startRunner _ _, _ => { ticket with token := none }
  | _, _ => ticket

/-- The receipt of a submit is for the job of the answer. -/
def JobTicket.Ends (ticket : JobTicket π) : GatewayTask π → GatewayResult → Prop
  | .submit _ call, .receipt jobId _ _ => ticket.answered = some (call, jobId)
  | _, _ => True

def jobProtocol : Protocol (GatewayCall π) GatewayResponse GatewayResult (GatewayTask π)
    (JobTicket π) where
  start := {}
  allows := fun _ ticket c => ticket.Allows c
  next := JobTicket.next
  ends := fun origin ticket result => ticket.Ends origin result

section Programs

variable {origin : GatewayTask π} {ticket : JobTicket π}

theorem finished_kept : jobProtocol.Kept origin (.done .finished : GatewayProgram π) ticket := by
  cases origin <;> exact trivial

theorem publish_kept {next : Except String Unit → GatewayProgram π}
    (hnext : ∀ published, jobProtocol.Kept origin (next published) ticket) :
    jobProtocol.Kept origin (publishTerminalState jobId next) ticket := by
  refine ⟨trivial, fun row => ?_⟩
  cases row with
  | error e => exact hnext _
  | ok job => exact hnext _

theorem reportFailure_kept (reraise : Bool) (error : String) :
    jobProtocol.Kept origin (reportFailure jobId reraise error) ticket := by
  have hending : jobProtocol.Kept origin
      (if reraise then .fail error else .done .finished : GatewayProgram π) ticket := by
    cases reraise with
    | true => exact trivial
    | false => exact finished_kept
  refine ⟨rfl, fun failed => ?_⟩
  cases failed with
  | error e => exact trivial
  | ok changed =>
    cases changed with
    | true => exact hending
    | false =>
      refine publish_kept fun published => ?_
      cases published with
      | error e => exact trivial
      | ok done => exact hending

theorem runAndReport_kept (payload : π) (reraise : Bool) (htoken : ticket.token = some jobId) :
    jobProtocol.Kept origin (runAndReport jobId payload reraise) ticket := by
  refine ⟨htoken, fun _ => ⟨trivial, fun outcome => ?_⟩⟩
  cases outcome with
  | returned =>
    refine ⟨rfl, fun succeeded => ?_⟩
    cases succeeded with
    | error e => exact reportFailure_kept reraise e
    | ok changed =>
      cases changed with
      | true => exact finished_kept
      | false =>
        refine publish_kept fun published => ?_
        cases published with
        | error e => exact reportFailure_kept reraise e
        | ok done => exact finished_kept
  | cancelled =>
    refine publish_kept fun published => ?_
    cases published with
    | error e => exact trivial
    | ok done => exact finished_kept
  | raised e => exact reportFailure_kept reraise e

theorem localRun_kept (payload : π) :
    jobProtocol.Kept origin (localRun jobId payload) ticket := by
  refine ⟨trivial, fun changed => ?_⟩
  cases changed with
  | error e => exact trivial
  | ok changed =>
    cases changed with
    | false => exact finished_kept
    | true =>
      refine ⟨trivial, fun row => ?_⟩
      cases row with
      | error e => exact trivial
      | ok row =>
        cases row with
        | none => exact runAndReport_kept payload false rfl
        | some job =>
          dsimp only
          split_ifs
          · exact finished_kept
          · exact runAndReport_kept payload false rfl

theorem executeAgentJob_kept :
    jobProtocol.Kept origin (executeAgentJob jobId : GatewayProgram π) ticket := by
  refine ⟨trivial, fun row => ?_⟩
  cases row with
  | error e => exact trivial
  | ok row =>
    cases row with
    | none => exact trivial
    | some job =>
      dsimp only
      split_ifs
      · exact finished_kept
      · refine ⟨trivial, fun changed => ?_⟩
        cases changed with
        | error e => exact trivial
        | ok changed =>
          cases changed with
          | false => exact finished_kept
          | true => exact runAndReport_kept job.request true rfl
      · exact trivial

theorem cancelJob_kept (userId : ℕ) :
    jobProtocol.Kept origin (cancelJob jobId userId : GatewayProgram π) ticket := by
  refine ⟨rfl, fun changed => ?_⟩
  cases changed with
  | error e => exact trivial
  | ok changed =>
    refine ⟨trivial, fun row => ?_⟩
    cases row with
    | error e => exact trivial
    | ok row => exact finished_kept

theorem expireEach_kept (jobIds : List String) :
    jobProtocol.Kept origin (expireEach jobIds : GatewayProgram π) ticket := by
  induction jobIds with
  | nil => exact finished_kept
  | cons jobId rest ih =>
    refine ⟨rfl, fun failed => ?_⟩
    cases failed with
    | error e => exact trivial
    | ok changed => exact ih

theorem expireBilledJobs_kept :
    jobProtocol.Kept origin (expireBilledJobs : GatewayProgram π) ticket := by
  refine ⟨trivial, fun rows => ?_⟩
  cases rows with
  | error e => exact trivial
  | ok jobIds => exact expireEach_kept jobIds

theorem submitJob_kept (celeryEnabled : Bool) (call : SubmitCall π) :
    jobProtocol.Kept (.submit celeryEnabled call) (submitJob celeryEnabled call) ticket := by
  refine ⟨trivial, fun jobId => ⟨trivial, fun reply => ?_⟩⟩
  cases reply with
  | error e => exact trivial
  | ok reply =>
    cases reply with
    | duplicate job => exact rfl
    | created =>
      refine ⟨trivial, fun sent => ?_⟩
      cases sent with
      | ok done => exact rfl
      | error e =>
        refine ⟨rfl, fun failed => ?_⟩
        cases failed with
        | error e => exact trivial
        | ok changed =>
          refine ⟨trivial, fun row => ?_⟩
          cases row with
          | error e => exact trivial
          | ok row =>
            cases row with
            | none => exact trivial
            | some job => exact rfl

theorem program_kept (origin : GatewayTask π) :
    jobProtocol.Kept origin origin.program jobProtocol.start := by
  cases origin with
  | submit celeryEnabled call => exact submitJob_kept celeryEnabled call
  | deliverLocal jobId payload => exact localRun_kept payload
  | deliverCelery jobId => exact executeAgentJob_kept
  | cancel jobId userId => exact cancelJob_kept userId
  | expire => exact expireBilledJobs_kept

end Programs

/-! ## The invariant -/

variable {cost : ℤ} {tickets : ℕ → JobTicket π}

/-- The books are kept, runners are started once and only for jobs that have begun, and what the
programs know is so. -/
structure GatewayInv (cost : ℤ) (gateway : Gateway π) (tickets : ℕ → JobTicket π) : Prop where
  books : JobBooks cost gateway.store
  starts : gateway.starts.Nodup
  begun : ∀ jobId ∈ gateway.starts, Begun gateway.store jobId
  waiting : ∀ i jobId, (tickets i).token = some jobId →
    Begun gateway.store jobId ∧ jobId ∉ gateway.starts
  tokens : ∀ i j jobId, (tickets i).token = some jobId → (tickets j).token = some jobId → i = j
  answered : ∀ i call jobId, (tickets i).answered = some (call, jobId) →
    ∃ job ∈ gateway.store.jobs, job.jobId = jobId ∧ Answers call job

theorem Later.begun {store after : JobStore π} (h : Later store after)
    (hbegun : Begun store jobId) : Begun after jobId := by
  obtain ⟨job, hjob, hid, hstatus⟩ := hbegun
  obtain ⟨later, hlater, hfollows⟩ := h job hjob
  exact ⟨later, hlater, hfollows.sameId.trans hid, hfollows.begun hstatus⟩

theorem Follows.answers {call : SubmitCall π} {job later : AgentJob π} (h : Follows job later)
    (hanswers : Answers call job) : Answers call later := by
  unfold Answers
  rw [h.row]
  exact hanswers

theorem Later.answered {store after : JobStore π} (h : Later store after) {call : SubmitCall π}
    (hanswered : ∃ job ∈ store.jobs, job.jobId = jobId ∧ Answers call job) :
    ∃ job ∈ after.jobs, job.jobId = jobId ∧ Answers call job := by
  obtain ⟨job, hjob, hid, hanswers⟩ := hanswered
  obtain ⟨later, hlater, hfollows⟩ := h job hjob
  exact ⟨later, hlater, hfollows.sameId.trans hid, hfollows.answers hanswers⟩

theorem GatewayInv.change (h : GatewayInv cost gateway tickets) {after : JobStore π}
    (hchange : JobChange cost gateway.store after) :
    GatewayInv cost { gateway with store := after } tickets := by
  have hlater := hchange.keepsRows h.books
  refine ⟨hchange.books h.books, h.starts, ?_, ?_, h.tokens, ?_⟩
  · exact fun jobId hstart => hlater.begun (h.begun jobId hstart)
  · intro i jobId htoken
    obtain ⟨hbegun, hstart⟩ := h.waiting i jobId htoken
    exact ⟨hlater.begun hbegun, hstart⟩
  · exact fun i call jobId hanswered => hlater.answered (h.answered i call jobId hanswered)

theorem GatewayInv.ticket (h : GatewayInv cost gateway tickets) (i : ℕ) {ticket : JobTicket π}
    (htoken : ∀ jobId, ticket.token = some jobId → (tickets i).token = some jobId ∨
      Begun gateway.store jobId ∧ jobId ∉ gateway.starts ∧ ∀ j, (tickets j).token ≠ some jobId)
    (hanswered : ∀ call jobId, ticket.answered = some (call, jobId) →
      ∃ job ∈ gateway.store.jobs, job.jobId = jobId ∧ Answers call job) :
    GatewayInv cost gateway (Function.update tickets i ticket) := by
  refine ⟨h.books, h.starts, h.begun, ?_, ?_, ?_⟩
  · intro j jobId hj
    by_cases hsame : j = i
    · subst hsame
      rw [Function.update_self] at hj
      rcases htoken jobId hj with hold | ⟨hbegun, hstart, -⟩
      · exact h.waiting j jobId hold
      · exact ⟨hbegun, hstart⟩
    · rw [Function.update_of_ne hsame] at hj
      exact h.waiting j jobId hj
  · -- a token that was there is the only one, and a new one is nobody's
    have hother : ∀ j jobId, j ≠ i → ticket.token = some jobId →
        (tickets j).token ≠ some jobId := by
      intro j jobId hne hticket hj
      rcases htoken jobId hticket with hold | ⟨-, -, hnobody⟩
      · exact hne (h.tokens j i jobId hj hold)
      · exact hnobody j hj
    intro j k jobId hj hk
    by_cases hji : j = i
    · by_cases hki : k = i
      · rw [hji, hki]
      · subst hji
        rw [Function.update_self] at hj
        rw [Function.update_of_ne hki] at hk
        exact absurd hk (hother k jobId hki hj)
    · rw [Function.update_of_ne hji] at hj
      by_cases hki : k = i
      · subst hki
        rw [Function.update_self] at hk
        exact absurd hj (hother j jobId hji hk)
      · rw [Function.update_of_ne hki] at hk
        exact h.tokens j k jobId hj hk
  · intro j call jobId hj
    by_cases hsame : j = i
    · subst hsame
      rw [Function.update_self] at hj
      exact hanswered call jobId hj
    · rw [Function.update_of_ne hsame] at hj
      exact h.answered j call jobId hj

theorem GatewayInv.start (h : GatewayInv cost gateway tickets) (i : ℕ) :
    GatewayInv cost gateway (Function.update tickets i {}) := by
  refine h.ticket i ?_ ?_
  · intro jobId htoken
    cases htoken
  · intro call jobId hanswered
    cases hanswered

theorem GatewayInv.same (h : GatewayInv cost gateway tickets) (i : ℕ) :
    GatewayInv cost gateway (Function.update tickets i (tickets i)) := by
  rw [Function.update_eq_self]
  exact h

theorem GatewayInv.startRunner (h : GatewayInv cost gateway tickets) {i : ℕ}
    (htoken : (tickets i).token = some jobId) :
    GatewayInv cost { gateway with starts := gateway.starts ++ [jobId] }
      (Function.update tickets i { tickets i with token := none }) := by
  obtain ⟨hbegun, hstart⟩ := h.waiting i jobId htoken
  have hforgotten : GatewayInv cost gateway
      (Function.update tickets i { tickets i with token := none }) := by
    refine h.ticket i ?_ ?_
    · intro other hother
      cases hother
    · exact fun call other hanswered => h.answered i call other hanswered
  refine ⟨h.books, ?_, ?_, ?_, hforgotten.tokens, hforgotten.answered⟩
  · exact List.Nodup.append h.starts (List.nodup_singleton _) (by simpa using hstart)
  · intro other hother
    rcases List.mem_append.1 hother with hold | hlast
    · exact h.begun other hold
    · rw [List.mem_singleton.1 hlast]
      exact hbegun
  · intro j other hj
    obtain ⟨hbegunOther, hother⟩ := hforgotten.waiting j other hj
    refine ⟨hbegunOther, ?_⟩
    intro hmem
    rcases List.mem_append.1 hmem with hold | hlast
    · exact hother hold
    · rw [List.mem_singleton.1 hlast] at hj
      by_cases hsame : j = i
      · rw [hsame, Function.update_self] at hj
        cases hj
      · rw [Function.update_of_ne hsame] at hj
        exact hsame (h.tokens j i jobId hj htoken)

variable {system : GatewaySystem π} {store : JobStore π}

/-- The invariant of the system, whose rows follow those of an earlier store. -/
def SystemInv (cost : ℤ) (store : JobStore π) (system : GatewaySystem π) : Prop :=
  ∃ tickets, (GatewayInv cost system.host tickets ∧ Later store system.host.store) ∧
    jobProtocol.Together system tickets

/-- Nothing has happened yet: there is no job, nothing in the log is under the reference of one, and
no runner was started. -/
structure Unused (gateway : Gateway π) : Prop where
  jobs : gateway.store.jobs = []
  log : ∀ entry ∈ gateway.store.log, ∀ jobId, entry.2.referenceId ≠ billingReference jobId
  starts : gateway.starts = []

theorem Unused.inv (h : Unused gateway) :
    SystemInv cost gateway.store ({ host := gateway } : GatewaySystem π) := by
  refine ⟨fun _ => {}, ⟨⟨⟨?_, ?_, ?_⟩, ?_, ?_, ?_, ?_, ?_⟩, Later.refl _⟩, ?_⟩
  · rw [h.jobs]
    exact List.Pairwise.nil
  · rw [h.jobs]
    intro job hjob
    cases hjob
  · intro jobId _
    refine List.filter_eq_nil_iff.2 ?_
    intro entry hentry
    simpa using h.log entry hentry jobId
  · rw [h.starts]
    exact List.nodup_nil
  · rw [h.starts]
    intro jobId hjobId
    cases hjobId
  · intro i jobId htoken
    cases htoken
  · intro i j jobId htoken
    cases htoken
  · intro i call jobId hanswered
    cases hanswered
  · intro i process hprocess
    cases hprocess

theorem JobBooks.named (h : JobBooks cost store) {call : SubmitCall π} {token : ℕ} {key : String} :
    (store.jobs.filter fun job => call.Names token key job).length ≤ 1 := by
  have hdistinct := h.distinct.filter fun job => decide (call.Names token key job)
  cases hfound : store.jobs.filter fun job => decide (call.Names token key job) with
  | nil => exact Nat.zero_le 1
  | cons first rest =>
    cases rest with
    | nil => exact le_rfl
    | cons second rest =>
      rw [hfound] at hdistinct
      have hnot := (List.pairwise_cons.1 hdistinct).1 second List.mem_cons_self
      have hfirst : first ∈ store.jobs.filter fun job => decide (call.Names token key job) := by
        rw [hfound]
        exact List.mem_cons_self
      have hsecond :
          second ∈ store.jobs.filter fun job => decide (call.Names token key job) := by
        rw [hfound]
        exact List.mem_cons_of_mem _ List.mem_cons_self
      obtain ⟨-, htoken, hkind, hkey⟩ := of_decide_eq_true (List.mem_filter.1 hfirst).2
      obtain ⟨-, htoken', hkind', hkey'⟩ := of_decide_eq_true (List.mem_filter.1 hsecond).2
      refine absurd (Or.inr ⟨?_, ?_, ?_, ?_, ?_⟩) hnot
      · rw [htoken]
        exact Option.some_ne_none token
      · rw [hkey]
        exact Option.some_ne_none key
      · rw [htoken, htoken']
      · rw [hkind, hkind']
      · rw [hkey, hkey']

theorem SystemInv.receipt (h : SystemInv cost store system) {call : SubmitCall π} {token : ℕ}
    {key : String} (hkeyed : call.keyed = some (token, key))
    {process : Process (GatewayCall π) GatewayResponse String GatewayResult (GatewayTask π)}
    (hprocess : process ∈ system.processes) {celeryEnabled : Bool}
    (horigin : process.origin = .submit celeryEnabled call) {jobId : String} {status : JobStatus}
    {duplicate : Bool} (hdone : process.program = .done (.receipt jobId status duplicate)) :
    ∃ job, (system.host.store.jobs.filter fun job => call.Names token key job) = [job] ∧
      job.jobId = jobId ∧ job.request = call.payload ∧
      (call.kind = "backtest" → debitsOf system.host.store jobId = 1) := by
  obtain ⟨tickets, ⟨hinv, -⟩, hkept⟩ := h
  obtain ⟨i, hi⟩ := List.mem_iff_getElem?.1 hprocess
  have hends := hkept i process hi
  rw [horigin, hdone] at hends
  obtain ⟨job, hjob, rfl, huser, htoken, hkind, hkey, hrequest⟩ :=
    hinv.answered i call jobId hends
  obtain ⟨htoken', hkey'⟩ := keyed_eq hkeyed
  have hnamed : job ∈ system.host.store.jobs.filter fun job => decide (call.Names token key job) :=
    List.mem_filter.2 ⟨hjob, decide_eq_true
      ⟨huser, htoken.trans htoken', hkind, hkey.trans hkey'⟩⟩
  have hone : (system.host.store.jobs.filter fun job =>
      decide (call.Names token key job)).length ≤ 1 := hinv.books.named
  refine ⟨job, ?_, rfl, hrequest, fun hbacktest => ?_⟩
  · obtain ⟨only, honly⟩ := List.length_eq_one_iff.1
      (le_antisymm hone (List.length_pos_of_mem hnamed))
    rw [honly] at hnamed ⊢
    rw [List.mem_singleton.1 hnamed]
  · exact hinv.books.debits hjob (hkind.trans hbacktest)

/-! ## The calls -/

theorem attempt_cases {β : Type} {transaction : Transaction π β} {fault : Fault}
    {store after : JobStore π} {reply : Except String β}
    (h : transaction.attempt fault store = (after, reply)) :
    (after = store ∧ ∃ e, reply = .error e) ∨ ∃ result, transaction store = .ok (result, after) ∧
      (reply = .ok result ∨ ∃ e, reply = .error e) := by
  unfold Transaction.attempt Transaction.effect at h
  cases htransaction : transaction store with
  | error e =>
    rw [htransaction] at h
    cases fault <;> cases h <;> exact Or.inl ⟨rfl, _, rfl⟩
  | ok outcome =>
    obtain ⟨result, last⟩ := outcome
    rw [htransaction] at h
    cases fault with
    | fine =>
      cases h
      exact Or.inr ⟨result, rfl, Or.inl rfl⟩
    | lost e =>
      cases h
      exact Or.inl ⟨rfl, _, rfl⟩
    | uncertain e =>
      cases h
      exact Or.inr ⟨result, rfl, Or.inr ⟨_, rfl⟩⟩

variable [DecidableEq π]

/-- INTERNAL: a call keeps the invariant, and changes the rows as a transaction does. -/
def CallKeeps (config : ChargeConfig) (gateway : Gateway π) (tickets : ℕ → JobTicket π) (i : ℕ)
    (input : GatewayInput) (c : GatewayCall π) : Prop :=
  GatewayInv config.cost (Gateway.answer config input c gateway).2
      (Function.update tickets i
        ((tickets i).next c (Gateway.answer config input c gateway).1)) ∧
    JobChange config.cost gateway.store (Gateway.answer config input c gateway).2.store

theorem submit_keeps (h : GatewayInv config.cost gateway tickets)
    (henabled : config.enabled = true) (hcost : 0 < config.cost) (i : ℕ) (input : GatewayInput)
    (call : SubmitCall π) (jobId : String) :
    CallKeeps config gateway tickets i input (.submit call jobId) := by
  unfold CallKeeps Gateway.answer
  dsimp only
  generalize hattempt : (submitTransaction config call jobId).attempt input.fault gateway.store =
    attempted
  obtain ⟨after, reply⟩ := attempted
  dsimp only
  rcases attempt_cases hattempt with ⟨rfl, e, rfl⟩ | ⟨result, hresult, hreply⟩
  · exact ⟨h.same i, JobChange.kept⟩
  · obtain ⟨hchange, hanswer⟩ := submit_change h.books henabled hcost hresult
    have hafter := h.change hchange
    refine ⟨?_, hchange⟩
    rcases hreply with rfl | ⟨e, rfl⟩
    · rcases hanswer with ⟨job, hjob, rfl, hanswers⟩ | ⟨rfl, job, hjob, hid, hanswers⟩
      · refine hafter.ticket i (fun other hother => Or.inl hother) ?_
        intro other otherId hother
        cases hother
        exact ⟨job, hjob, rfl, hanswers⟩
      · refine hafter.ticket i (fun other hother => Or.inl hother) ?_
        intro other otherId hother
        cases hother
        exact ⟨job, hjob, hid, hanswers⟩
    · exact hafter.same i

theorem setRunning_keeps (h : GatewayInv config.cost gateway tickets) (i : ℕ)
    (input : GatewayInput) (jobId : String) :
    CallKeeps config gateway tickets i input (.setRunning jobId) := by
  unfold CallKeeps Gateway.answer
  dsimp only
  generalize hattempt : (setRunning jobId).attempt input.fault gateway.store = attempted
  obtain ⟨after, reply⟩ := attempted
  dsimp only
  rcases attempt_cases hattempt with ⟨rfl, e, rfl⟩ | ⟨changed, hchanged, hreply⟩
  · exact ⟨h.same i, JobChange.kept⟩
  · obtain ⟨hchange, hstarted⟩ := setRunning_change h.books hchanged
    have hafter := h.change hchange
    refine ⟨?_, hchange⟩
    rcases hreply with rfl | ⟨e, rfl⟩
    · cases changed with
      | false => exact hafter.same i
      | true =>
        obtain ⟨hnot, hbegun⟩ := hstarted rfl
        refine hafter.ticket i ?_ (hafter.answered i)
        intro other hother
        cases hother
        -- nobody could have started or claimed a job that was still queued
        refine Or.inr ⟨hbegun, fun hstart => hnot (h.begun jobId hstart), fun j hj => ?_⟩
        exact hnot (h.waiting j jobId hj).1
    · exact hafter.same i

theorem finish_keeps (h : GatewayInv config.cost gateway tickets) (hcost : 0 < config.cost) (i : ℕ)
    (input : GatewayInput) (jobId : String) {status : JobStatus} (hended : status.live = false)
    (user : Option ℕ) : CallKeeps config gateway tickets i input (.finish jobId status user) := by
  unfold CallKeeps Gateway.answer
  dsimp only
  generalize hattempt : (finishJob jobId status user).attempt input.fault gateway.store = attempted
  obtain ⟨after, reply⟩ := attempted
  dsimp only
  rcases attempt_cases hattempt with ⟨rfl, e, rfl⟩ | ⟨changed, hchanged, -⟩
  · exact ⟨h.same i, JobChange.kept⟩
  · have hchange := finish_change h.books hcost hended hchanged
    exact ⟨(h.change hchange).same i, hchange⟩

theorem call_keeps (h : GatewayInv config.cost gateway tickets) (henabled : config.enabled = true)
    (hcost : 0 < config.cost) {i : ℕ} {input : GatewayInput} {c : GatewayCall π}
    (hallows : (tickets i).Allows c) : CallKeeps config gateway tickets i input c := by
  cases c with
  | newJobId => exact ⟨h.same i, JobChange.kept⟩
  | submit call jobId => exact submit_keeps h henabled hcost i input call jobId
  | dispatch jobId celery => exact ⟨h.same i, JobChange.kept⟩
  | setRunning jobId => exact setRunning_keeps h i input jobId
  | getJob jobId => exact ⟨h.same i, JobChange.kept⟩
  | startRunner jobId payload => exact ⟨h.startRunner hallows, JobChange.kept⟩
  | awaitRunner jobId => exact ⟨h.same i, JobChange.kept⟩
  | finish jobId status user => exact finish_keeps h hcost i input jobId hallows user
  | expired => exact ⟨h.same i, JobChange.kept⟩

/-! ## The runs -/

def gatewayRun (config : ChargeConfig) (system : GatewaySystem π)
    (events : List (ProcessEvent (GatewayTask π) GatewayInput)) : GatewaySystem π :=
  runActions (gatewayStep config) system events

theorem SystemInv.run (h : SystemInv config.cost store system) (henabled : config.enabled = true)
    (hcost : 0 < config.cost) (events : List (ProcessEvent (GatewayTask π) GatewayInput)) :
    SystemInv config.cost store (gatewayRun config system events) := by
  obtain ⟨tickets, hinv, hkept⟩ := h
  refine Protocol.together_run (I := fun gateway tickets =>
    GatewayInv config.cost gateway tickets ∧ Later store gateway.store) program_kept ?_ ?_ hinv
    hkept events
  · rintro gateway tickets i ⟨hinv, hlater⟩
    exact ⟨hinv.start i, hlater⟩
  · rintro gateway tickets i origin input c ⟨hinv, hlater⟩ hallows
    obtain ⟨hnext, hchange⟩ := call_keeps hinv henabled hcost hallows
    exact ⟨hnext, hlater.trans (hchange.keepsRows hinv.books)⟩

/-- What holds of the gateway in every state: an ended job keeps its status, a runner is started
once, the log has the cost of a backtest unless it failed or was cancelled and has nothing else
under these references, and the calls with one key make one job with one debit, which all their
receipts are for. -/
structure BilledOnSuccess (config : ChargeConfig) (system : GatewaySystem π) : Prop where
  absorbing : ∀ jobId job, system.host.store.find jobId = some job → job.status.live = false →
    ∀ more, ∃ later, (gatewayRun config system more).host.store.find jobId = some later ∧
      later.status = job.status
  started : system.host.starts.Nodup
  net : ∀ job ∈ system.host.store.jobs, job.kind = "backtest" →
    netLogged system.host.store job.jobId =
      if job.status = .failed ∨ job.status = .cancelled then 0 else -(config.cost : Amount)
  others : ∀ jobId, (∀ job ∈ system.host.store.jobs, job.jobId ≠ jobId) →
    debitsOf system.host.store jobId = 0
  once : ∀ call token key, SubmitCall.keyed call = some (token, key) →
    (system.host.store.jobs.filter fun job => call.Names token key job).length ≤ 1
  receipts : ∀ call token key, SubmitCall.keyed call = some (token, key) →
    ∀ process ∈ system.processes, ∀ celeryEnabled, process.origin = .submit celeryEnabled call →
      ∀ jobId status duplicate, process.program = .done (.receipt jobId status duplicate) →
        ∃ job, (system.host.store.jobs.filter fun job => call.Names token key job) = [job] ∧
          job.jobId = jobId ∧ job.request = call.payload ∧
          (call.kind = "backtest" → debitsOf system.host.store jobId = 1)

/-- A billed job is charged exactly when it succeeds: in every state that the gateway reaches,
however the calls of its programs interleave, fail and get lost. -/
theorem billed_on_success (config : ChargeConfig) (henabled : config.enabled = true)
    (hcost : 0 < config.cost) (gateway : Gateway π) (hunused : Unused gateway)
    (events : List (ProcessEvent (GatewayTask π) GatewayInput)) :
    BilledOnSuccess config (gatewayRun config { host := gateway } events) := by
  have hstart : SystemInv config.cost gateway.store { host := gateway } := hunused.inv
  have hsystem := hstart.run henabled hcost events
  generalize gatewayRun config { host := gateway } events = system at hsystem ⊢
  obtain ⟨tickets, ⟨hinv, hfirst⟩, hkept⟩ := hsystem
  refine ⟨?_, hinv.starts, ?_, ?_, ?_, ?_⟩
  · intro jobId job hfind hended more
    have hmore : SystemInv config.cost system.host.store (gatewayRun config system more) :=
      SystemInv.run ⟨tickets, ⟨hinv, Later.refl _⟩, hkept⟩ henabled hcost more
    obtain ⟨_, ⟨hlast, hlater⟩, _⟩ := hmore
    obtain ⟨hjob, rfl⟩ := find_mem hfind
    obtain ⟨later, hmem, hfollows⟩ := hlater job hjob
    refine ⟨later, ?_, hfollows.ended hended⟩
    rw [← hfollows.sameId]
    exact hlast.books.find_eq hmem
  · exact fun job hjob hkind => hinv.books.net hjob hkind
  · intro jobId hjobId
    unfold debitsOf
    rw [hinv.books.unknown jobId hjobId]
    rfl
  · exact fun call token key _ => hinv.books.named
  · intro call token key hkeyed process hprocess celeryEnabled horigin jobId status duplicate hdone
    exact SystemInv.receipt ⟨tickets, ⟨hinv, hfirst⟩, hkept⟩ hkeyed hprocess horigin hdone

def newGateway : Gateway Unit where
  store := { users := fun _ => some { credits := 10 }, log := [], jobs := [] }

def submittedAndRun : List (ProcessEvent (GatewayTask Unit) GatewayInput) :=
  [.start (.submit false ⟨1, some 7, "backtest", (), some "k"⟩), .run 0 { jobId := "a" }, .run 0 {},
    .run 0 {}, .start (.deliverLocal "a" ()), .run 1 {}, .run 1 {}, .run 1 {}, .run 1 {}, .run 1 {}]

theorem one_job_billed :
    BilledOnSuccess { cost := 4 }
        (gatewayRun { cost := 4 } { host := newGateway } submittedAndRun) ∧
      (gatewayRun { cost := 4 } { host := newGateway } submittedAndRun).host.starts = ["a"] := by
  have hunused : Unused newGateway :=
    ⟨rfl, fun entry hentry => absurd hentry List.not_mem_nil, rfl⟩
  exact ⟨billed_on_success { cost := 4 } rfl (by decide) newGateway hunused submittedAndRun,
    by decide +kernel⟩

end QuantDinger.Analysis
