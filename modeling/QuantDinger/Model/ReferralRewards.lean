import QuantDinger.Model.RuntimeLease

/-!
# Referral rewards

The reward accounts, their ledger and the withdrawals, and the operations on them, each of which is
one transaction that locks what it changes: the rewards of a membership order, the release of
rewards whose hold is over, the request of a withdrawal and its review. Who has referred whom is
fixed when a user registers. Remarks, notes and operators are left out.
-/

namespace QuantDinger.Model.Referral

/-- `_money`: cents, rounded towards zero.
SOURCE: referral_reward_service.py:31-32 -/
def money (value : Amount) : Amount :=
  (if 0 ≤ value then ⌊value * 100⌋ else ⌈value * 100⌉) / 100

/-! ## Rows -/

/-- A row of `qd_referral_reward_accounts`. -/
structure RewardAccount where
  availableBalance : Amount := 0
  pendingRewardBalance : Amount := 0
  pendingWithdrawalBalance : Amount := 0
  lifetimeEarned : Amount := 0
  lifetimePaid : Amount := 0
  deriving DecidableEq

/-- The actions of the ledger. -/
inductive RewardAction
  | membershipReward
  | rewardRelease
  | withdrawalRequested
  | withdrawalPaid
  | withdrawalRejected
  deriving DecidableEq

/-- The statuses of a ledger row. -/
inductive RewardStatus
  | posted
  | pending
  | released
  deriving DecidableEq

/-- A row of `qd_referral_reward_ledger`. -/
structure RewardEntry where
  userId : ℕ
  action : RewardAction
  amount : Amount
  availableDelta : Amount := 0
  pendingRewardDelta : Amount := 0
  pendingWithdrawalDelta : Amount := 0
  availableBalanceAfter : Amount := 0
  pendingRewardBalanceAfter : Amount := 0
  pendingWithdrawalBalanceAfter : Amount := 0
  sourceKey : Option String := none
  sourceUserId : Option ℕ := none
  sourceOrderRef : String := ""
  planCode : String := ""
  rewardLevel : Option ℕ := none
  rewardRate : Option Amount := none
  status : RewardStatus := .posted
  availableAt : Option Time := none
  withdrawalId : Option ℕ := none
  deriving DecidableEq

/-- `_finish_ledger`.
SOURCE: referral_reward_service.py:152-161 -/
def RewardEntry.finish (entry : RewardEntry) (account : RewardAccount) : RewardEntry :=
  { entry with
    availableBalanceAfter := account.availableBalance
    pendingRewardBalanceAfter := account.pendingRewardBalance
    pendingWithdrawalBalanceAfter := account.pendingWithdrawalBalance }

/-- The statuses of a withdrawal. -/
inductive WithdrawalStatus
  | pending
  | processing
  | paid
  | rejected
  deriving DecidableEq

/-- A row of `qd_referral_withdrawals`; its id is its place in the table. -/
structure Withdrawal where
  userId : ℕ
  currency : String
  chain : String
  address : String
  amount : Amount
  status : WithdrawalStatus := .pending
  txHash : String := ""
  deriving DecidableEq

/-- The tables. -/
structure RewardTables where
  accounts : ℕ → RewardAccount := fun _ => {}
  ledger : List RewardEntry := []
  withdrawals : List Withdrawal := []

/-! ## Settings -/

/-- The settings of the programme, read from the environment. A rate that is not a number is
`none`. -/
structure ReferralConfig where
  enabled : Bool := true
  rewardRates : List (Option Amount) := [some 10, some 5, some 3]
  rewardHoldDays : ℤ := 7
  minWithdrawalUsd : Amount := 10
  publicChains : List (String × String)

/-- `rates`.
SOURCE: referral_reward_service.py:39-56 -/
def ReferralConfig.rates (config : ReferralConfig) : List Amount :=
  let rates := config.rewardRates.filterMap id
  if config.rewardRates.length ≤ 3 ∧ (∀ rate ∈ config.rewardRates, rate.isSome = true) ∧
      (∀ rate ∈ rates, 0 ≤ rate ∧ rate ≤ 100) ∧ rates.sum ≤ 100 then rates
  else []

/-- `_hold_days`.
SOURCE: referral_reward_service.py:58-63 -/
def ReferralConfig.holdDays (config : ReferralConfig) : ℤ := max 0 (min 365 config.rewardHoldDays)

/-- `_minimum_withdrawal`.
SOURCE: referral_reward_service.py:65-67 -/
def ReferralConfig.minimumWithdrawal (config : ReferralConfig) : Amount :=
  max (1 / 100) (money config.minWithdrawalUsd)

/-- A membership order that has been paid. -/
structure MembershipSale where
  buyerId : ℕ
  planCode : String
  priceUsd : Amount
  referralEligible : Bool
  deriving DecidableEq

section Operations

variable (config : ReferralConfig) (referredBy : ℕ → Option ℕ)

namespace RewardTables

variable (tables : RewardTables)

/-- `_update_account`.
SOURCE: referral_reward_service.py:133-145 -/
def updateAccount (userId : ℕ) (available pending withdrawal earned paid : Amount) :
    RewardTables :=
  let account := tables.accounts userId
  let updated : RewardAccount :=
    { availableBalance := account.availableBalance + available
      pendingRewardBalance := account.pendingRewardBalance + pending
      pendingWithdrawalBalance := account.pendingWithdrawalBalance + withdrawal
      lifetimeEarned := account.lifetimeEarned + earned
      lifetimePaid := account.lifetimePaid + paid }
  { tables with accounts := Function.update tables.accounts userId updated }

/-- A ledger row is inserted and finished with the balances of its account after the operation.
SOURCE: referral_reward_service.py:147-161 -/
def insertEntry (entry : RewardEntry) : RewardTables :=
  { tables with ledger := tables.ledger ++ [entry.finish (tables.accounts entry.userId)] }

end RewardTables

/-! ## Rewards -/

/-- The key of a reward.
SOURCE: referral_reward_service.py:185 -/
def rewardKey (sourceRef : String) (recipientId level : ℕ) : String :=
  "membership:" ++ sourceRef ++ ":" ++ toString recipientId ++ ":" ++ toString level

/-- The reward of one level.
SOURCE: referral_reward_service.py:181-210 -/
def rewardLevel (sale : MembershipSale) (sourceRef : String) (now : Time)
    (level recipientId : ℕ) (rate : Amount) (tables : RewardTables) : RewardTables :=
  let amount := money (money sale.priceUsd * rate / 100)
  let key := rewardKey sourceRef recipientId level
  if amount ≤ 0 ∨ ∃ entry ∈ tables.ledger, entry.sourceKey = some key then tables
  else
    let held := config.holdDays ≠ 0
    (tables.updateAccount recipientId (if held then 0 else amount) (if held then amount else 0) 0
      amount 0).insertEntry
        { userId := recipientId
          action := .membershipReward
          amount := amount
          availableDelta := if held then 0 else amount
          pendingRewardDelta := if held then amount else 0
          sourceKey := some key
          sourceUserId := some sale.buyerId
          sourceOrderRef := sourceRef
          planCode := sale.planCode
          rewardLevel := some level
          rewardRate := some rate
          status := if held then .pending else .posted
          availableAt := if held then some (now + config.holdDays * Live.oneDay) else none }

/-- The loop over the levels.
SOURCE: referral_reward_service.py:178-212 -/
def awardLevels (sale : MembershipSale) (sourceRef : String) (now : Time) :
    List Amount → ℕ → Option ℕ → List ℕ → RewardTables → RewardTables
  | [], _, _, _, tables => tables
  | rate :: rates, level, nextUser, seen, tables =>
    match nextUser with
    | none => tables
    | some recipientId =>
      if recipientId = 0 ∨ recipientId ∈ seen then tables
      else awardLevels sale sourceRef now rates (level + 1) (referredBy recipientId)
        (recipientId :: seen) (rewardLevel config sale sourceRef now level recipientId rate tables)

/-- `award_membership_rewards`.
SOURCE: referral_reward_service.py:163-212 -/
def awardMembershipRewards (sale : MembershipSale) (sourceRef : String) (now : Time)
    (tables : RewardTables) : RewardTables :=
  if config.enabled = false ∨ sale.referralEligible = false then tables
  else if config.rates = [] ∨ money sale.priceUsd ≤ 0 ∨ strip sourceRef = "" then tables
  else awardLevels config referredBy sale (strip sourceRef) now config.rates 1
    (referredBy sale.buyerId) [sale.buyerId] tables

/-- A reward whose hold is over.
SOURCE: referral_reward_service.py:217-219 -/
def RewardEntry.Matured (entry : RewardEntry) (userId : ℕ) (now : Time) : Prop :=
  entry.userId = userId ∧ entry.action = .membershipReward ∧ entry.status = .pending ∧
    ∃ availableAt ∈ entry.availableAt, availableAt ≤ now

instance (entry : RewardEntry) (userId : ℕ) (now : Time) : Decidable (entry.Matured userId now) :=
  instDecidableAnd

/-- `_release_matured`.
SOURCE: referral_reward_service.py:214-240 -/
def releaseMatured (userId : ℕ) (now : Time) (tables : RewardTables) : RewardTables :=
  let total := ((tables.ledger.filter fun entry => entry.Matured userId now).map
    fun entry => money entry.amount).sum
  if total ≤ 0 then tables
  else
    let released := tables.ledger.map fun entry =>
      if entry.Matured userId now then { entry with status := .released } else entry
    ({ tables with ledger := released }.updateAccount userId total (-total) 0 0 0).insertEntry
      { userId := userId
        action := .rewardRelease
        amount := total
        availableDelta := total
        pendingRewardDelta := -total }

/-! ## Withdrawals -/

/-- `[0-9a-fA-F]`. -/
def isHexDigit (c : Char) : Bool :=
  c.isDigit || ('a' ≤ c && c ≤ 'f') || ('A' ≤ c && c ≤ 'F')

/-- `[1-9A-HJ-NP-Za-km-z]`. -/
def isBase58 (c : Char) : Bool :=
  (c.isDigit && c ≠ '0') || (('A' ≤ c && c ≤ 'Z') && c ≠ 'I' && c ≠ 'O') ||
    (('a' ≤ c && c ≤ 'z') && c ≠ 'l')

/-- `_valid_address`.
SOURCE: referral_reward_service.py:265-273 -/
def validAddress (chain address : String) : Bool :=
  match address.toList with
  | '0' :: 'x' :: digits =>
    if chain = "BEP20" ∨ chain = "ERC20" then digits.length = 40 && digits.all isHexDigit
    else false
  | chars =>
    if chain = "TRC20" then
      match chars with
      | 'T' :: rest => rest.length = 33 && rest.all isBase58
      | _ => false
    else if chain = "SOL" then 32 ≤ chars.length && chars.length ≤ 44 && chars.all isBase58
    else false

/-- What a user asks for. -/
structure WithdrawalRequest where
  currency : String
  chain : String
  address : String
  amount : Amount
  deriving DecidableEq

/-- `create_withdrawal`.
SOURCE: referral_reward_service.py:275-314 -/
def createWithdrawal (userId : ℕ) (request : WithdrawalRequest) (now : Time)
    (tables : RewardTables) : RewardTables :=
  let currency := upper (strip request.currency)
  let chain := upper (strip request.chain)
  let address := strip request.address
  let amount := money request.amount
  if config.enabled = false ∨ (currency, chain) ∉ config.publicChains ∨
      validAddress chain address = false ∨ amount < config.minimumWithdrawal then tables
  else
    let released := releaseMatured userId now tables
    if money (released.accounts userId).availableBalance < amount then tables
    else
      let withdrawalId := released.withdrawals.length
      let withdrawal : Withdrawal :=
        { userId := userId
          currency := currency
          chain := chain
          address := address
          amount := amount }
      ({ released with withdrawals := released.withdrawals ++ [withdrawal] }.updateAccount userId
        (-amount) 0 amount 0 0).insertEntry
          { userId := userId
            action := .withdrawalRequested
            amount := amount
            availableDelta := -amount
            pendingWithdrawalDelta := amount
            withdrawalId := some withdrawalId }

/-- The target of a review.
SOURCE: referral_reward_service.py:351-354 -/
def reviewTarget (action : String) : Option WithdrawalStatus :=
  let action := lower (strip action)
  if action = "processing" then some .processing
  else if action = "paid" then some .paid
  else if action = "reject" ∨ action = "rejected" then some .rejected
  else none

/-- The transitions that a review may make.
SOURCE: referral_reward_service.py:367 -/
def WithdrawalStatus.Allows (current target : WithdrawalStatus) : Prop :=
  current = .pending ∨ (current = .processing ∧ (target = .paid ∨ target = .rejected))

instance (current target : WithdrawalStatus) : Decidable (current.Allows target) := instDecidableOr

/-- `review_withdrawal`.
SOURCE: referral_reward_service.py:350-394 -/
def reviewWithdrawal (withdrawalId : ℕ) (action txHash : String) (tables : RewardTables) :
    RewardTables :=
  match reviewTarget action with
  | none => tables
  | some target =>
    let txHash := String.ofList ((strip txHash).toList.take 160)
    if target = .paid ∧ txHash = "" then tables
    else match tables.withdrawals[withdrawalId]? with
      | none => tables
      | some row =>
        if ¬ row.status.Allows target then tables
        else
          let amount := money row.amount
          let updated : Withdrawal := { row with status := target, txHash := txHash }
          let reviewed : RewardTables :=
            { tables with withdrawals := tables.withdrawals.set withdrawalId updated }
          match target with
          | .paid => (reviewed.updateAccount row.userId 0 0 (-amount) 0 amount).insertEntry
              { userId := row.userId
                action := .withdrawalPaid
                amount := amount
                pendingWithdrawalDelta := -amount
                withdrawalId := some withdrawalId }
          | .rejected => (reviewed.updateAccount row.userId amount 0 (-amount) 0 0).insertEntry
              { userId := row.userId
                action := .withdrawalRejected
                amount := amount
                availableDelta := amount
                pendingWithdrawalDelta := -amount
                withdrawalId := some withdrawalId }
          | _ => reviewed

/-! ## Operations -/

/-- An operation. An order is known by its reference. -/
inductive ReferralOperation
  | award (sourceRef : String) (now : Time)
  | release (userId : ℕ) (now : Time)
  | withdraw (userId : ℕ) (request : WithdrawalRequest) (now : Time)
  | review (withdrawalId : ℕ) (action txHash : String)
  deriving DecidableEq

/-- The tables after an operation. -/
def referralStep (sales : String → MembershipSale) (tables : RewardTables) :
    ReferralOperation → RewardTables
  | .award sourceRef now =>
    awardMembershipRewards config referredBy (sales (strip sourceRef)) sourceRef now tables
  | .release userId now => releaseMatured userId now tables
  | .withdraw userId request now => createWithdrawal config userId request now tables
  | .review withdrawalId action txHash => reviewWithdrawal withdrawalId action txHash tables

end Operations

end QuantDinger.Model.Referral
