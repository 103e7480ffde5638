import QuantDinger.Library.Settlement
import QuantDinger.Model.Billing

/-!
# The balance of a user and the credits log

Every transaction of the billing service logs what it adds to the balance, as long as the row that
it writes is the row that it read. It is for all of them but one, which take the lock of the row or
of the table before they read, or write with a condition. Setting the balance reads it in a
transaction of its own: what is written in between is overwritten, and the log does not know it.
-/

namespace QuantDinger.Analysis

open QuantDinger.Library QuantDinger.Model QuantDinger.Model.Billing

def Solvent (row : UserRow) : Prop := 0 ≤ row.credits

abbrev LogsCredits {β : Type} (script : BillingScript β) (held : Option UserRow) (owed : Amount) :
    Prop :=
  Settles UserRow.credits CreditEntry.amount Solvent script held owed

/-! ## Charges -/

section Charging

variable {β : Type} {next : Except BillingError Charge → BillingScript β} {owed : Amount}

theorem chargeNow_logs (charge : Charge) (enabled : Bool) (cost : ℤ) (balance : Amount)
    (hnext : ∀ result held, LogsCredits (next result) held owed)
    (held : Option UserRow) : LogsCredits (chargeNow charge enabled cost balance next) held owed := by
  unfold chargeNow
  split_ifs
  · exact hnext _ _
  · refine settles_writeIf (hnext _ _) ?_
    intro row hsees hcovered
    refine ⟨sub_nonneg.2 hcovered, ?_⟩
    show LogsCredits (next _) _ (owed + (row.credits - cost) - row.credits - -(cost : Amount))
    have howed : owed + (row.credits - cost) - row.credits - -(cost : Amount) = owed := by ring
    rw [howed]
    exact hnext _ _

theorem consume_logs (config : ChargeConfig) (feature referenceId : String)
    (hnext : ∀ result held, LogsCredits (next result) held owed) (held : Option UserRow) :
    LogsCredits (consumeInTransaction config feature referenceId next) held owed := by
  intro account _
  dsimp only
  split_ifs
  · exact chargeNow_logs _ _ _ _ hnext _
  · intro log
    dsimp only
    cases lastDebit log feature referenceId with
    | none => exact chargeNow_logs _ _ _ _ hnext _
    | some existing => exact hnext _ _

theorem refund_logs (charge : Charge) (hnext : ∀ result held, LogsCredits (next result) held owed)
    (held : Option UserRow) : LogsCredits (refundInTransaction charge next) held owed := by
  unfold refundInTransaction
  split_ifs
  · exact hnext _ _
  · intro account _ log
    dsimp only
    cases lastDebit log charge.feature charge.referenceId with
    | none => exact hnext _ _
    | some debit =>
      intro log
      dsimp only
      cases lastRefund log charge.referenceId with
      | some refund => exact hnext _ _
      | none =>
        refine settles_write ?_
        intro row hsees _
        have hback : 0 ≤ ⌊|debit.amount|⌋ := Int.floor_nonneg.2 (abs_nonneg _)
        refine ⟨add_nonneg hsees.1 (Int.cast_nonneg hback), ?_⟩
        show LogsCredits (next _) _ (owed + (row.credits + (⌊|debit.amount|⌋ : ℤ)) -
          row.credits - (⌊|debit.amount|⌋ : ℤ))
        have howed : owed + (row.credits + (⌊|debit.amount|⌋ : ℤ)) - row.credits -
            (⌊|debit.amount|⌋ : ℤ) = owed := by ring
        rw [howed]
        exact hnext _ _

end Charging

theorem job_logs (calls : List JobCall) (held : Option UserRow) :
    LogsCredits (jobTransaction calls) held 0 := by
  induction calls generalizing held with
  | nil => exact ⟨rfl, trivial⟩
  | cons call calls ih =>
    cases call with
    | consume config feature referenceId =>
      refine consume_logs config feature referenceId ?_ held
      intro result held
      cases result with
      | error _ => exact trivial
      | ok _ => exact ih held
    | refund charge =>
      refine refund_logs charge ?_ held
      intro result held
      cases result with
      | error _ => exact trivial
      | ok _ => exact ih held

theorem checkAndConsume_logs (config : ChargeConfig) (feature referenceId : String) :
    LogsCredits (checkAndConsume config feature referenceId) none 0 := by
  unfold checkAndConsume
  split_ifs with hdisabled hfree
  · exact trivial
  · exact trivial
  · refine settles_writeIf (fun _ _ => trivial) ?_
    intro row hsees hcovered
    refine ⟨sub_nonneg.2 hcovered, ?_, trivial⟩
    show 0 + (row.credits - config.cost) - row.credits - -(config.cost : Amount) = 0
    ring

/-! ## Adding and setting -/

theorem addCredits_logs (amount : ℤ) (action referenceId : String) :
    LogsCredits (addCredits amount action referenceId) none 0 := by
  have credit : ∀ row, Solvent row → 0 < amount → LogsCredits
      (.update (fun _ => true) (fun _ => some { row with credits := row.credits + amount }) fun _ =>
        .insert
          { action := action
            amount := amount
            balanceAfter := row.credits + amount
            referenceId := referenceId }
          (.commit (.done (BillingReply.balance (row.credits + amount))))) (some row) 0 := by
    intro row hrow hamount
    refine settles_write ?_
    intro found hsees _
    rw [hsees.2 row rfl]
    refine ⟨add_nonneg hrow (Int.cast_nonneg hamount.le), ?_, trivial⟩
    show 0 + (row.credits + (amount : Amount)) - row.credits - amount = 0
    ring
  unfold addCredits
  dsimp only
  split_ifs with hamount hreference
  · exact trivial
  · intro row hsees
    exact credit row hsees.1 (not_le.1 hamount)
  · intro row hsees log
    dsimp only
    cases lastEntry log fun entry => entry.action = action ∧ entry.referenceId = referenceId with
    | none => exact credit row hsees.1 (not_le.1 hamount)
    | some existing => exact trivial

theorem setCredits_logs (amount : ℤ) : LogsCredits (setCredits amount) none 0 := by
  unfold setCredits
  split_ifs with hamount
  · exact trivial
  · intro read _
    unfold Settles
    refine settles_write ?_
    intro row _ hread
    refine ⟨Int.cast_nonneg (not_lt.1 hamount), ?_, trivial⟩
    have hsame : row.credits = read.credits := of_decide_eq_true hread
    show 0 + (amount : Amount) - row.credits - (amount - read.credits) = 0
    rw [hsame]
    ring

/-! ## Memberships -/

theorem addCreditsInTx_logs {β : Type} {amount : ℤ} (hamount : 0 < amount)
    (action referenceId : String) {next : BillingScript β}
    (hnext : ∀ row, LogsCredits next (some row) 0) (row : UserRow) :
    LogsCredits (addCreditsInTx amount action referenceId next) (some row) 0 := by
  intro read hread
  refine settles_write ?_
  intro latest hlatest _
  have hsolvent := hread.1
  rw [hread.2 row rfl] at hsolvent ⊢
  rw [hlatest.2 row rfl]
  refine ⟨add_nonneg hsolvent (Int.cast_nonneg hamount.le), ?_⟩
  show LogsCredits next _ (0 + (row.credits + (amount : Amount)) - row.credits - amount)
  have howed : 0 + (row.credits + (amount : Amount)) - row.credits - amount = 0 := by ring
  rw [howed]
  exact hnext _

theorem otherColumns_logs {β : Type} {f : UserRow → UserRow} {next : Option UserRow → BillingScript β}
    (hf : ∀ row, (f row).credits = row.credits)
    (hnext : ∀ row, LogsCredits (next (some row)) (some row) 0) (row : UserRow) :
    LogsCredits (.update (fun _ => true) (fun latest => some (f latest)) next) (some row) 0 := by
  refine settles_write ?_
  intro latest hlatest _
  have hsolvent : 0 ≤ latest.credits := hlatest.1
  refine ⟨?_, ?_⟩
  · show 0 ≤ (f latest).credits
    rw [hf]
    exact hsolvent
  · rw [hf]
    have howed : 0 + latest.credits - latest.credits = 0 := by ring
    rw [howed]
    exact hnext _

theorem grantCredits_logs (plan : MembershipPlan) (now : Time) (orderRef : String)
    {next : BillingScript BillingReply} (hnext : ∀ row, LogsCredits next (some row) 0)
    (row : UserRow) : LogsCredits (grantCredits plan now orderRef next) (some row) 0 := by
  have hgranted : ∀ row, LogsCredits (.update (fun _ => true)
      (fun row => some { row with vipMonthlyCreditsLastGrant := some now }) fun _ => next)
      (some row) 0 := otherColumns_logs (fun _ => rfl) hnext
  unfold grantCredits
  dsimp only
  split_ifs with hlifetime honce hmonthly
  · exact addCreditsInTx_logs honce _ _ hnext row
  · exact hnext row
  · exact addCreditsInTx_logs hmonthly _ _ hgranted row
  · exact hgranted row

theorem activatedRow_credits (plan : MembershipPlan) (now : Time) (read latest : UserRow) :
    (activatedRow plan now read latest).credits = latest.credits := by
  unfold activatedRow
  by_cases hkept : read.vipIsLifetime = true ∧ plan.isLifetime = false
  · rw [if_pos hkept]
  · rw [if_neg hkept]

theorem activate_logs (plan : MembershipPlan) (orderRef : Time → String) (row : UserRow) :
    LogsCredits (activate plan orderRef) (some row) 0 := by
  intro now read _
  have hdone : ∀ row : UserRow, LogsCredits
      (.commit (.done (BillingReply.activated (reportedExpiry plan now read)))) (some row) 0 :=
    fun _ => ⟨rfl, trivial⟩
  have hcredit := grantCredits_logs plan now (orderRef now) hdone
  dsimp only
  split_ifs
  · exact hcredit row
  · exact otherColumns_logs (activatedRow_credits plan now read) hcredit row

theorem purchaseMembership_logs (plan : Option MembershipPlan) (orderRef : Time → String)
    (fulfillmentRef : String) :
    LogsCredits (purchaseMembership plan orderRef fulfillmentRef) none 0 := by
  cases plan with
  | none => exact trivial
  | some plan =>
    intro row _
    generalize strip fulfillmentRef = reference
    split_ifs
    · exact activate_logs plan orderRef row
    · intro inserted
      cases inserted with
      | true => exact activate_logs plan orderRef row
      | false => exact trivial

theorem grantLifetimeMonthlyCredits_logs (monthlyCredits : ℤ) :
    LogsCredits (grantLifetimeMonthlyCredits monthlyCredits) none 0 := by
  have finish : ∀ row : UserRow, LogsCredits
      (.commit (.done BillingReply.vipChecked)) (some row) 0 := fun _ => ⟨rfl, trivial⟩
  have mark : ∀ (now : Time) (row : UserRow), LogsCredits
      (.update (fun _ => true)
        (fun row => some { row with vipMonthlyCreditsLastGrant := some now })
        fun _ => .commit (.done BillingReply.vipChecked)) (some row) 0 :=
    fun _ => otherColumns_logs (fun _ => rfl) finish
  intro held _ row hrow
  rw [hrow.2 held rfl]
  dsimp only
  by_cases hlifetime : held.vipIsLifetime = false ∨ monthlyCredits ≤ 0
  · rw [if_pos hlifetime]
    exact finish held
  · rw [if_neg hlifetime]
    intro now
    dsimp only
    split_ifs with hexpired
    · exact finish held
    · cases held.vipMonthlyCreditsLastGrant with
      | none => exact mark now held
      | some last =>
        dsimp only
        split_ifs with hperiods
        · exact finish held
        · refine addCreditsInTx_logs ?_ _ _ (mark now) held
          exact mul_pos (not_le.1 fun h => hlifetime (Or.inr h)) (not_le.1 hperiods)

/-! ## Runs -/

theorem request_logs (request : BillingRequest) : LogsCredits request.script none 0 := by
  cases request with
  | job calls => exact job_logs calls none
  | consume config feature referenceId => exact checkAndConsume_logs config feature referenceId
  | add amount action referenceId => exact addCredits_logs amount action referenceId
  | set amount => exact setCredits_logs amount
  | purchase plan orderRef fulfillmentRef =>
    exact purchaseMembership_logs plan orderRef fulfillmentRef
  | checkVip monthlyCredits => exact grantLifetimeMonthlyCredits_logs monthlyCredits

section Runs

variable {ι : Type} {account : UserRow} {log : List CreditEntry} {fulfilled : List String}
  {requests : ι → BillingRequest}

theorem billingServer_conserves (hcredits : 0 ≤ account.credits) :
    Conserves UserRow.credits CreditEntry.amount Solvent
      (account.credits - (log.map CreditEntry.amount).sum)
      (billingServer account log fulfilled requests) := by
  refine ⟨⟨?_, ?_, ?_, ?_, ?_⟩, ?_, hcredits, fun _ => hcredits, ?_⟩
  · intro i j h
    exact nomatch h
  · intro i j h
    exact nomatch h
  · intro i h
    exact nomatch h
  · intro i h
    exact nomatch h
  · intro i row h
    exact nomatch h
  · exact (sub_add_cancel _ _).symm
  · intro i
    have howed : owedBy UserRow.credits CreditEntry.amount
        ((billingServer account log fulfilled requests).sessions i)
        (billingServer account log fulfilled requests).db = 0 := by
      show account.credits - account.credits - 0 = 0
      ring
    rw [howed]
    exact request_logs (requests i)

/-- In a run where no request sets the balance to a value that it computed from an older one, the
balance is at every moment what it was, plus what has been logged, and not negative. -/
theorem credits_conserved [Fintype ι] [DecidableEq ι] {events : List (SessionEvent ι Time)}
    (hcredits : 0 ≤ account.credits)
    (hrun : Along Server.step Expected (billingServer account log fulfilled requests) events) :
    let db := (runActions Server.step (billingServer account log fulfilled requests) events).db
    0 ≤ db.row.credits ∧ ∃ logged, db.entries = log ++ logged ∧
      db.row.credits = account.credits + (logged.map CreditEntry.amount).sum := by
  have hkept := conserves_run (billingServer_conserves hcredits) hrun
  obtain ⟨logged, hlogged⟩ := entries_run (billingServer account log fulfilled requests) events
  refine ⟨hkept.valid, logged, hlogged.symm, ?_⟩
  have hbalance := hkept.balance
  have hentries : log ++ logged = _ := hlogged
  rw [← hentries, List.map_append, List.sum_append] at hbalance
  rw [hbalance]
  ring

end Runs

/-! ## A balance that is set -/

def overwrittenCharge : Server Bool UserRow CreditEntry String Time BillingReply :=
  billingServer { credits := 100 } [] [] fun setting =>
    if setting then .set 150 else .consume { cost := 10 } "analysis" "a1"

/-- The old balance is read, the charge commits, and then the new balance is written and logged. -/
def overwritingEvents : List (SessionEvent Bool Time) :=
  [.run true 0, .run true 0, .run false 0, .run false 0, .run false 0, .run true 0, .run true 0,
    .run true 0]

/-- Both requests have committed, and the balance is ten credits more than the log accounts for. -/
theorem set_balance_loses_charge :
    let db := (runActions Server.step overwrittenCharge overwritingEvents).db
    (∀ i, ∃ reply, ((runActions Server.step overwrittenCharge overwritingEvents).sessions i).script =
      .done reply) ∧
    db.row.credits = 150 ∧ db.entries.map CreditEntry.amount = [-10, 50] ∧
    ¬ db.row.credits = 100 + (db.entries.map CreditEntry.amount).sum := by
  refine ⟨?_, by decide +kernel, by decide +kernel, by decide +kernel⟩
  intro i
  cases i with
  | true => exact ⟨.balance 150, rfl⟩
  | false => exact ⟨.consumed, rfl⟩

/-- Where the charge waits until the new balance is set, the log accounts for it. -/
theorem set_balance_then_charge :
    let events := overwritingEvents.take 2 ++ overwritingEvents.drop 5 ++
      [.run false 0, .run false 0, .run false 0]
    Along Server.step Expected overwrittenCharge events ∧
    (runActions Server.step overwrittenCharge events).db.row.credits = 140 ∧
    0 ≤ (runActions Server.step overwrittenCharge events).db.row.credits := by
  have hrun : Along Server.step Expected overwrittenCharge (overwritingEvents.take 2 ++
      overwritingEvents.drop 5 ++ [.run false 0, .run false 0, .run false 0]) := by decide +kernel
  exact ⟨hrun, by decide +kernel, (credits_conserved (by decide) hrun).1⟩

end QuantDinger.Analysis
