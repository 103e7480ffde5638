import QuantDinger.Library.ReadCommitted
import QuantDinger.Model.RuntimeLease

/-!
# Credits and memberships

The transactions of the billing service on one user: charging and refunding inside a caller's
transaction, charging at once, adding and setting credits, buying a membership, and the monthly
credits of lifetime members. Each is the script of its SQL statements. `ALTER TABLE qd_users`, with
which the membership transactions begin, holds the exclusive lock of the table to their end. Display
texts and ids of log rows are left out, and so are the order row of a membership and the referral
rewards.
-/

namespace QuantDinger.Model.Billing

open QuantDinger.Library

/-- The columns of a row of `qd_users`. -/
structure UserRow where
  credits : Amount
  vipExpiresAt : Option Time := none
  vipPlan : String := ""
  vipIsLifetime : Bool := false
  vipMonthlyCreditsLastGrant : Option Time := none
  deriving DecidableEq

/-- A row of `qd_credits_log`. -/
structure CreditEntry where
  action : String
  amount : Amount
  balanceAfter : Amount
  feature : String := ""
  referenceId : String := ""
  deriving DecidableEq

/-- The statements of a transaction on a user, the log and the fulfilments. -/
abbrev BillingScript (β : Type) := Script UserRow CreditEntry String Time β

/-- `ORDER BY id DESC LIMIT 1`. -/
def lastEntry (log : List CreditEntry) (p : CreditEntry → Bool) : Option CreditEntry :=
  log.reverse.find? p

/-- The last debit of a feature for a reference.
SOURCE: billing_service.py:675-677, 712-714 -/
def lastDebit (log : List CreditEntry) (feature referenceId : String) : Option CreditEntry :=
  lastEntry log fun entry =>
    entry.action = "consume" ∧ entry.feature = feature ∧ entry.referenceId = referenceId

/-- The last refund for a reference.
SOURCE: billing_service.py:719-720 -/
def lastRefund (log : List CreditEntry) (referenceId : String) : Option CreditEntry :=
  lastEntry log fun entry => entry.action = "refund" ∧ entry.referenceId = referenceId

/-! ## Charges -/

/-- The switch and the cost of a feature, as configured when it is used. -/
structure ChargeConfig where
  enabled : Bool := true
  cost : ℤ
  deriving DecidableEq

/-- What a charge reports. -/
structure Charge where
  enabled : Bool
  feature : String
  cost : ℤ
  charged : ℤ := 0
  refunded : ℤ := 0
  remaining : Amount
  referenceId : String
  status : String := "free"
  deriving DecidableEq

/-- `BillingError`. -/
inductive BillingError
  | insufficientCredits (feature : String) (current : Amount) (required : ℤ) (shortage : Amount)
  | debitNotFound
  deriving DecidableEq

section Charging

variable {β : Type}

/-- The charge that is reported for a debit found in the log.
SOURCE: billing_service.py:680-682 -/
def Charge.found (charge : Charge) (existing : CreditEntry) : Charge :=
  { charge with
    enabled := true
    cost := ⌊|existing.amount|⌋
    charged := ⌊|existing.amount|⌋
    status := "charged" }

/-- A debit where there is none yet.
SOURCE: billing_service.py:683-701 -/
def chargeNow (charge : Charge) (enabled : Bool) (cost : ℤ) (balance : Amount)
    (next : Except BillingError Charge → BillingScript β) : BillingScript β :=
  if enabled = false ∨ cost = 0 then next (.ok charge)
  else .update (fun _ => true)
    (fun row => if (cost : Amount) ≤ row.credits then some { row with credits := row.credits - cost }
      else none)
    fun updated => match updated with
      | none => next (.error
          (.insufficientCredits charge.feature balance cost (max 0 ((cost : Amount) - balance))))
      | some row => .insert
          { action := "consume"
            amount := -cost
            balanceAfter := row.credits
            feature := charge.feature
            referenceId := charge.referenceId }
          (next (.ok { charge with
            charged := cost, remaining := row.credits, status := "charged" }))

/-- `consume_in_transaction`.
SOURCE: billing_service.py:662-701 -/
def consumeInTransaction (config : ChargeConfig) (feature referenceId : String)
    (next : Except BillingError Charge → BillingScript β) : BillingScript β :=
  let cost := max 0 config.cost
  .selectForUpdate fun account =>
    let charge : Charge :=
      { enabled := config.enabled
        feature := feature
        cost := cost
        remaining := account.credits
        referenceId := referenceId }
    if referenceId = "" then chargeNow charge config.enabled cost account.credits next
    else .search fun log => match lastDebit log feature referenceId with
      | some existing => next (.ok (charge.found existing))
      | none => chargeNow charge config.enabled cost account.credits next

/-- `refund_in_transaction`.
SOURCE: billing_service.py:703-732 -/
def refundInTransaction (charge : Charge) (next : Except BillingError Charge → BillingScript β) :
    BillingScript β :=
  if charge.charged ≤ 0 then next (.ok charge)
  else .selectForUpdate fun _ => .search fun log =>
    match lastDebit log charge.feature charge.referenceId with
    | none => next (.error .debitNotFound)
    | some debit =>
      let amount := ⌊|debit.amount|⌋
      .search fun log => match lastRefund log charge.referenceId with
        | some refund => next (.ok { charge with
            refunded := amount, remaining := refund.balanceAfter, status := "refunded" })
        | none => .update (fun _ => true)
            (fun row => some { row with credits := row.credits + amount })
            fun updated => match updated with
              | none => .stop
              | some row => .insert
                  { action := "refund"
                    amount := amount
                    balanceAfter := row.credits
                    feature := charge.feature
                    referenceId := charge.referenceId }
                  (next (.ok { charge with
                    refunded := amount, remaining := row.credits, status := "refunded" }))

end Charging

/-! ## Requests -/

/-- What a request answers. -/
inductive BillingReply
  | billingDisabled
  | freeFeature
  | consumed
  | insufficientCredits (credits : Amount) (cost : ℤ)
  | amountMustBePositive
  | amountCannotBeNegative
  | balance (credits : Amount)
  | invalidPlan
  | alreadyFulfilled
  | activated (vipExpiresAt : Option Time)
  | vipChecked
  | jobCommitted
  | jobRolledBack
  deriving DecidableEq

/-- `check_and_consume`.
SOURCE: billing_service.py:734-799 -/
def checkAndConsume (config : ChargeConfig) (feature referenceId : String) :
    BillingScript BillingReply :=
  if config.enabled = false then .done .billingDisabled
  else if config.cost ≤ 0 then .done .freeFeature
  else .update (fun _ => true)
    (fun row => if (config.cost : Amount) ≤ row.credits
      then some { row with credits := row.credits - config.cost } else none)
    fun updated => match updated with
      | none => .select fun row =>
        .rollback (.done (.insufficientCredits row.credits config.cost))
      | some row => .insert
          { action := "consume"
            amount := -config.cost
            balanceAfter := row.credits
            feature := feature
            referenceId := referenceId }
          (.commit (.done .consumed))

/-- `add_credits`.
SOURCE: billing_service.py:801-865 -/
def addCredits (amount : ℤ) (action referenceId : String) : BillingScript BillingReply :=
  let credit (row : UserRow) : BillingScript BillingReply :=
    .update (fun _ => true) (fun _ => some { row with credits := row.credits + amount }) fun _ =>
      .insert
        { action := action
          amount := amount
          balanceAfter := row.credits + amount
          referenceId := referenceId }
        (.commit (.done (.balance (row.credits + amount))))
  if amount ≤ 0 then .done .amountMustBePositive
  else .selectForUpdate fun row =>
    if referenceId = "" then credit row
    else .search fun log =>
      match lastEntry log fun entry =>
          entry.action = action ∧ entry.referenceId = referenceId with
      | some existing => .rollback (.done (.balance existing.balanceAfter))
      | none => credit row

/-- `set_credits`. The balance is read in a transaction of its own.
SOURCE: billing_service.py:867-911, 67-84 -/
def setCredits (amount : ℤ) : BillingScript BillingReply :=
  if amount < 0 then .done .amountCannotBeNegative
  else .select fun read => .rollback
    (.update (fun row => row.credits = read.credits)
      (fun row => some { row with credits := amount }) fun _ =>
        .insert
          { action := "admin_adjust", amount := amount - read.credits, balanceAfter := amount }
          (.commit (.done (.balance amount))))

/-! ## Memberships -/

/-- A plan of the catalogue. -/
structure MembershipPlan where
  code : String
  isLifetime : Bool := false
  durationDays : ℤ := 0
  creditsOnce : ℤ := 0
  creditsMonthly : ℤ := 0
  deriving DecidableEq

/-- `_add_credits_in_tx`.
SOURCE: billing_service.py:571-589 -/
def addCreditsInTx {β : Type} (amount : ℤ) (action referenceId : String)
    (next : BillingScript β) : BillingScript β :=
  .select fun row =>
    .update (fun _ => true) (fun latest => some { latest with credits := row.credits + amount })
      fun _ => .insert
        { action := action
          amount := amount
          balanceAfter := row.credits + amount
          referenceId := referenceId }
        next

/-- The expiry that a purchase stacks on.
SOURCE: billing_service.py:379 -/
def baseTime (current : Option Time) (now : Time) : Time :=
  match current with
  | some expires => if now < expires then expires else now
  | none => now

/-- The membership after a purchase.
SOURCE: billing_service.py:386-412, 450-461 -/
def activatedRow (plan : MembershipPlan) (now : Time) (read latest : UserRow) : UserRow :=
  if read.vipIsLifetime = true ∧ plan.isLifetime = false then latest
  else
    { latest with
      vipExpiresAt := some (if plan.isLifetime then now + 365 * 100 * Live.oneDay
        else baseTime read.vipExpiresAt now + plan.durationDays * Live.oneDay)
      vipPlan := plan.code
      vipIsLifetime := plan.isLifetime }

/-- The expiry that is reported.
SOURCE: billing_service.py:398-412, 519 -/
def reportedExpiry (plan : MembershipPlan) (now : Time) (read : UserRow) : Option Time :=
  if read.vipIsLifetime = true ∧ plan.isLifetime = false then read.vipExpiresAt
  else (activatedRow plan now read read).vipExpiresAt

/-- The credits of a purchase.
SOURCE: billing_service.py:463-491 -/
def grantCredits (plan : MembershipPlan) (now : Time) (orderRef : String)
    (next : BillingScript BillingReply) : BillingScript BillingReply :=
  if plan.isLifetime = false then
    if 0 < plan.creditsOnce then addCreditsInTx plan.creditsOnce "membership_bonus" orderRef next
    else next
  else
    let granted : BillingScript BillingReply :=
      .update (fun _ => true)
        (fun row => some { row with vipMonthlyCreditsLastGrant := some now }) fun _ => next
    if 0 < plan.creditsMonthly then
      addCreditsInTx plan.creditsMonthly "membership_monthly" orderRef granted
    else granted

/-- The activation inside the transaction of a purchase.
SOURCE: billing_service.py:364-521 -/
def activate (plan : MembershipPlan) (orderRef : Time → String) : BillingScript BillingReply :=
  .clock fun now => .select fun read =>
    let credit := grantCredits plan now (orderRef now)
      (.commit (.done (.activated (reportedExpiry plan now read))))
    if read.vipIsLifetime = true ∧ plan.isLifetime = false then credit
    else .update (fun _ => true) (fun latest => some (activatedRow plan now read latest))
      fun _ => credit

/-- `purchase_membership`, with the plan that was found and the reference its credits are logged
under.
SOURCE: billing_service.py:323-526, 528-540 -/
def purchaseMembership (plan : Option MembershipPlan) (orderRef : Time → String)
    (fulfillmentRef : String) : BillingScript BillingReply :=
  match plan with
  | none => .done .invalidPlan
  | some plan => .exclusive
      (if strip fulfillmentRef = "" then activate plan orderRef
      else .insertKey (strip fulfillmentRef) fun inserted =>
        if inserted then activate plan orderRef else .rollback (.done .alreadyFulfilled))

/-- The 30-day periods that are granted at once.
SOURCE: billing_service.py:637-642 -/
def grantPeriods (now last : Time) : ℤ := min 6 ((now - last) / Live.oneDay / 30)

/-- `_grant_lifetime_monthly_credits_best_effort` in the transaction of `get_user_vip_status`, with
the monthly credits of the plan.
SOURCE: billing_service.py:86-96, 591-660 -/
def grantLifetimeMonthlyCredits (monthlyCredits : ℤ) : BillingScript BillingReply :=
  let finish : BillingScript BillingReply := .commit (.done .vipChecked)
  let mark (now : Time) : BillingScript BillingReply :=
    .update (fun _ => true) (fun row => some { row with vipMonthlyCreditsLastGrant := some now })
      fun _ => finish
  .exclusive (.select fun row =>
    if row.vipIsLifetime = false ∨ monthlyCredits ≤ 0 then finish
    else .clock fun now =>
      if ∃ expires ∈ row.vipExpiresAt, expires ≤ now then finish
      else match row.vipMonthlyCreditsLastGrant with
        | none => mark now
        | some last =>
          if grantPeriods now last ≤ 0 then finish
          else addCreditsInTx (monthlyCredits * grantPeriods now last) "membership_monthly" ""
            (mark now))

/-! ## Jobs -/

/-- A call that a job makes inside its own transaction. -/
inductive JobCall
  | consume (config : ChargeConfig) (feature referenceId : String)
  | refund (charge : Charge)
  deriving DecidableEq

/-- The transaction of a job: its calls in order, then the commit; an error rolls it back.
SOURCE: agent_jobs.py:103-138, 438-464 -/
def jobTransaction : List JobCall → BillingScript BillingReply
  | [] => .commit (.done .jobCommitted)
  | .consume config feature referenceId :: calls =>
    consumeInTransaction config feature referenceId fun result => match result with
      | .error _ => .rollback (.done .jobRolledBack)
      | .ok _ => jobTransaction calls
  | .refund charge :: calls =>
    refundInTransaction charge fun result => match result with
      | .error _ => .rollback (.done .jobRolledBack)
      | .ok _ => jobTransaction calls

/-- A request on the credits of the user. -/
inductive BillingRequest
  | job (calls : List JobCall)
  | consume (config : ChargeConfig) (feature referenceId : String)
  | add (amount : ℤ) (action referenceId : String)
  | set (amount : ℤ)
  | purchase (plan : Option MembershipPlan) (orderRef : Time → String) (fulfillmentRef : String)
  | checkVip (monthlyCredits : ℤ)

/-- The statements of a request. -/
def BillingRequest.script : BillingRequest → BillingScript BillingReply
  | .job calls => jobTransaction calls
  | .consume config feature referenceId => checkAndConsume config feature referenceId
  | .add amount action referenceId => addCredits amount action referenceId
  | .set amount => setCredits amount
  | .purchase plan orderRef fulfillmentRef => purchaseMembership plan orderRef fulfillmentRef
  | .checkVip monthlyCredits => grantLifetimeMonthlyCredits monthlyCredits

/-! ## Single calls -/

/-- A charge or a refund in a transaction of its own. -/
inductive ChargeCall
  | consume (enabled : Bool) (feature referenceId : String)
  | refund (charge : Charge)
  deriving DecidableEq

/-- The transaction is committed, or rolled back on an error. -/
def closeCall (result : Except BillingError Charge) : BillingScript (Except BillingError Charge) :=
  match result with
  | .error e => .rollback (.done (.error e))
  | .ok charge => .commit (.done (.ok charge))

/-- The statements of a call, with the cost of every feature. -/
def ChargeCall.script (cost : String → ℤ) : ChargeCall → BillingScript (Except BillingError Charge)
  | .consume enabled feature referenceId =>
    consumeInTransaction { enabled := enabled, cost := cost feature } feature referenceId closeCall
  | .refund charge => refundInTransaction charge closeCall

/-- The requests on one user, each in its own session. -/
def billingServer {ι : Type} (account : UserRow) (log : List CreditEntry) (fulfilled : List String)
    (requests : ι → BillingRequest) : Server ι UserRow CreditEntry String Time BillingReply :=
  { db := { row := account, entries := log, keys := fulfilled }
    sessions := fun i => { script := (requests i).script } }

end QuantDinger.Model.Billing
