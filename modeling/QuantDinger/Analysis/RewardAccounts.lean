import QuantDinger.Library.Runs
import QuantDinger.Model.ReferralRewards

/-!
# The accounts of the referral programme

Every operation writes an account and one ledger row with the same deltas, so balances and ledger
agree. What an account holds back is what its pending reward rows and its open withdrawals add up
to; neither can become negative, and the available balance is checked before it is frozen. The key
of a reward is made of its order, its level and the recipient, and whom an order reaches at a level
does not change, so an order rewards a level once. A withdrawal has one ledger row for its decision
exactly when it is decided.
-/

namespace QuantDinger.Analysis

open QuantDinger.Library QuantDinger.Model QuantDinger.Model.Referral

/-! ## Cents -/

theorem money_of_nonneg {x : Amount} (h : 0 ≤ x) : money x = (⌊x * 100⌋ : ℤ) / 100 := by
  unfold money
  rw [if_pos h]

theorem money_nonneg {x : Amount} (h : 0 ≤ x) : 0 ≤ money x := by
  rw [money_of_nonneg h]
  exact div_nonneg (Int.cast_nonneg (Int.floor_nonneg.2 (by positivity))) (by norm_num)

theorem money_le {x : Amount} (h : 0 ≤ x) : money x ≤ x := by
  rw [money_of_nonneg h, div_le_iff₀ (by norm_num)]
  exact Int.floor_le _

theorem money_money {x : Amount} (h : 0 ≤ x) : money (money x) = money x := by
  rw [money_of_nonneg (money_nonneg h), money_of_nonneg h]
  have hcents : ((⌊x * 100⌋ : ℤ) : Amount) / 100 * 100 = (⌊x * 100⌋ : ℤ) := by ring
  rw [hcents, Int.floor_intCast]

theorem money_nonpos {x : Amount} (h : x ≤ 0) : money x ≤ 0 := by
  unfold money
  split_ifs with hzero
  · rw [le_antisymm h hzero]
    simp
  · refine div_nonpos_of_nonpos_of_nonneg ?_ (by norm_num)
    have hceil : ⌈x * 100⌉ ≤ 0 := Int.ceil_le.2 (by push_cast; linarith)
    exact_mod_cast hceil

/-! ## Sums -/

/-- The sum of a column over the ledger rows of a user. -/
def ledgerSum (column : RewardEntry → Amount) (ledger : List RewardEntry) (userId : ℕ) : Amount :=
  (ledger.map fun entry => if entry.userId = userId then column entry else 0).sum

def heldAmount (userId : ℕ) (entry : RewardEntry) : Amount :=
  if entry.userId = userId ∧ entry.action = .membershipReward ∧ entry.status = .pending
  then entry.amount else 0

def frozenAmount (userId : ℕ) (withdrawal : Withdrawal) : Amount :=
  if withdrawal.userId = userId ∧
      (withdrawal.status = .pending ∨ withdrawal.status = .processing)
  then withdrawal.amount else 0

def rewardCount (ledger : List RewardEntry) (sourceRef : String) (level : ℕ) : ℕ :=
  ledger.countP fun entry => entry.action = .membershipReward ∧
    entry.sourceOrderRef = sourceRef ∧ entry.rewardLevel = some level

def rewardTotal (ledger : List RewardEntry) (sourceRef : String) : Amount :=
  ((ledger.filter fun entry => entry.action = .membershipReward ∧
    entry.sourceOrderRef = sourceRef).map RewardEntry.amount).sum

/-- The rows that record the decision on a withdrawal. -/
def decisions (ledger : List RewardEntry) (withdrawalId : ℕ) : ℕ :=
  ledger.countP fun entry =>
    (entry.action = .withdrawalPaid ∨ entry.action = .withdrawalRejected) ∧
      entry.withdrawalId = some withdrawalId

def WithdrawalDecided (status : WithdrawalStatus) : Prop := status = .paid ∨ status = .rejected

instance (status : WithdrawalStatus) : Decidable (WithdrawalDecided status) := instDecidableOr

theorem sum_map_set {α : Type} (f : α → Amount) {rows : List α} {i : ℕ} {old : α}
    (h : rows[i]? = some old) (row : α) :
    ((rows.set i row).map f).sum = (rows.map f).sum - f old + f row := by
  induction rows generalizing i with
  | nil => exact nomatch h
  | cons first rows ih =>
    cases i with
    | zero =>
      cases h
      simp only [List.set_cons_zero, List.map_cons, List.sum_cons]
      ring
    | succ i =>
      have hrest := ih (i := i) (by simpa using h)
      simp only [List.set_cons_succ, List.map_cons, List.sum_cons, hrest]
      ring

/-! ## Accounts and ledger -/

/-- Balances are the sums of their deltas, and what has been earned is somewhere. -/
structure Ledgered (tables : RewardTables) (userId : ℕ) : Prop where
  available : (tables.accounts userId).availableBalance =
    ledgerSum RewardEntry.availableDelta tables.ledger userId
  pendingReward : (tables.accounts userId).pendingRewardBalance =
    ledgerSum RewardEntry.pendingRewardDelta tables.ledger userId
  pendingWithdrawal : (tables.accounts userId).pendingWithdrawalBalance =
    ledgerSum RewardEntry.pendingWithdrawalDelta tables.ledger userId
  earned : (tables.accounts userId).lifetimeEarned =
    (tables.accounts userId).availableBalance + (tables.accounts userId).pendingRewardBalance +
      (tables.accounts userId).pendingWithdrawalBalance + (tables.accounts userId).lifetimePaid

section Posting

variable {tables : RewardTables} {userId : ℕ} {available pending withdrawal earned paid : Amount}
  {entry : RewardEntry}

/-- An account is updated and a ledger row written. -/
def post (tables : RewardTables) (userId : ℕ) (available pending withdrawal earned paid : Amount)
    (entry : RewardEntry) : RewardTables :=
  (tables.updateAccount userId available pending withdrawal earned paid).insertEntry entry

theorem ledgerSum_post (column : RewardEntry → Amount)
    (hcolumn : ∀ account, column (entry.finish account) = column entry) (other : ℕ) :
    ledgerSum column (post tables userId available pending withdrawal earned paid entry).ledger
      other = ledgerSum column tables.ledger other +
        if entry.userId = other then column entry else 0 := by
  unfold ledgerSum post RewardTables.insertEntry
  rw [List.map_append, List.sum_append]
  simp only [List.map_cons, List.map_nil, List.sum_cons, List.sum_nil, add_zero, hcolumn]
  rfl

theorem accounts_post_self :
    (post tables userId available pending withdrawal earned paid entry).accounts userId =
      { availableBalance := (tables.accounts userId).availableBalance + available
        pendingRewardBalance := (tables.accounts userId).pendingRewardBalance + pending
        pendingWithdrawalBalance := (tables.accounts userId).pendingWithdrawalBalance + withdrawal
        lifetimeEarned := (tables.accounts userId).lifetimeEarned + earned
        lifetimePaid := (tables.accounts userId).lifetimePaid + paid } :=
  Function.update_self _ _ _

theorem accounts_post_other {other : ℕ} (h : other ≠ userId) :
    (post tables userId available pending withdrawal earned paid entry).accounts other =
      tables.accounts other :=
  Function.update_of_ne h _ _

theorem available_post (other : ℕ) :
    ((post tables userId available pending withdrawal earned paid entry).accounts
      other).availableBalance =
      (tables.accounts other).availableBalance + if other = userId then available else 0 := by
  by_cases hsame : other = userId
  · rw [hsame, accounts_post_self, if_pos rfl]
  · rw [accounts_post_other hsame, if_neg hsame, add_zero]

theorem pendingReward_post (other : ℕ) :
    ((post tables userId available pending withdrawal earned paid entry).accounts
      other).pendingRewardBalance =
      (tables.accounts other).pendingRewardBalance + if other = userId then pending else 0 := by
  by_cases hsame : other = userId
  · rw [hsame, accounts_post_self, if_pos rfl]
  · rw [accounts_post_other hsame, if_neg hsame, add_zero]

theorem pendingWithdrawal_post (other : ℕ) :
    ((post tables userId available pending withdrawal earned paid entry).accounts
      other).pendingWithdrawalBalance =
      (tables.accounts other).pendingWithdrawalBalance +
        if other = userId then withdrawal else 0 := by
  by_cases hsame : other = userId
  · rw [hsame, accounts_post_self, if_pos rfl]
  · rw [accounts_post_other hsame, if_neg hsame, add_zero]

theorem held_post (other : ℕ) :
    ((post tables userId available pending withdrawal earned paid entry).ledger.map
      (heldAmount other)).sum = (tables.ledger.map (heldAmount other)).sum +
        heldAmount other entry := by
  unfold post RewardTables.insertEntry
  rw [List.map_append, List.sum_append]
  simp only [List.map_cons, List.map_nil, List.sum_cons, List.sum_nil, add_zero]
  rfl

theorem decisions_post (id : ℕ) :
    decisions (post tables userId available pending withdrawal earned paid entry).ledger id =
      decisions tables.ledger id +
        if (entry.action = .withdrawalPaid ∨ entry.action = .withdrawalRejected) ∧
          entry.withdrawalId = some id then 1 else 0 := by
  unfold decisions post RewardTables.insertEntry
  rw [List.countP_append, List.countP_singleton]
  refine congrArg₂ (· + ·) rfl ?_
  by_cases hlast : (entry.action = .withdrawalPaid ∨ entry.action = .withdrawalRejected) ∧
      entry.withdrawalId = some id
  · exact (if_pos (decide_eq_true hlast)).trans (if_pos hlast).symm
  · exact (if_neg fun h => hlast (of_decide_eq_true h)).trans (if_neg hlast).symm

theorem keys_post_none (hkey : entry.sourceKey = none) :
    (post tables userId available pending withdrawal earned paid entry).ledger.filterMap
      RewardEntry.sourceKey = tables.ledger.filterMap RewardEntry.sourceKey := by
  unfold post RewardTables.insertEntry
  rw [List.filterMap_append]
  simp only [List.filterMap_cons, List.filterMap_nil, RewardEntry.finish, hkey, List.append_nil]
  rfl

theorem Ledgered.post (huser : entry.userId = userId) (havailable : entry.availableDelta = available)
    (hpending : entry.pendingRewardDelta = pending)
    (hwithdrawal : entry.pendingWithdrawalDelta = withdrawal)
    (hearned : earned = available + pending + withdrawal + paid) {other : ℕ}
    (h : Ledgered tables other) :
    Ledgered (post tables userId available pending withdrawal earned paid entry) other := by
  subst huser havailable hpending hwithdrawal
  by_cases hsame : other = entry.userId
  · subst hsame
    refine ⟨?_, ?_, ?_, ?_⟩
    · rw [ledgerSum_post _ (fun _ => rfl), accounts_post_self, if_pos rfl, ← h.available]
    · rw [ledgerSum_post _ (fun _ => rfl), accounts_post_self, if_pos rfl, ← h.pendingReward]
    · rw [ledgerSum_post _ (fun _ => rfl), accounts_post_self, if_pos rfl, ← h.pendingWithdrawal]
    · rw [accounts_post_self]
      dsimp only
      rw [h.earned, hearned]
      ring
  · have hother : ¬ entry.userId = other := fun heq => hsame heq.symm
    refine ⟨?_, ?_, ?_, ?_⟩
    · rw [ledgerSum_post _ (fun _ => rfl), accounts_post_other hsame, if_neg hother, add_zero]
      exact h.available
    · rw [ledgerSum_post _ (fun _ => rfl), accounts_post_other hsame, if_neg hother, add_zero]
      exact h.pendingReward
    · rw [ledgerSum_post _ (fun _ => rfl), accounts_post_other hsame, if_neg hother, add_zero]
      exact h.pendingWithdrawal
    · rw [accounts_post_other hsame]
      exact h.earned

end Posting

/-! ## Levels -/

/-- Whom the loop over the levels reaches: the level, the recipient and the rate. -/
def levelsFrom (referredBy : ℕ → Option ℕ) :
    List Amount → ℕ → Option ℕ → List ℕ → List (ℕ × ℕ × Amount)
  | [], _, _, _ => []
  | rate :: rates, level, nextUser, seen =>
    match nextUser with
    | none => []
    | some recipientId =>
      if recipientId = 0 ∨ recipientId ∈ seen then []
      else (level, recipientId, rate) ::
        levelsFrom referredBy rates (level + 1) (referredBy recipientId) (recipientId :: seen)

def levelsOf (config : ReferralConfig) (referredBy : ℕ → Option ℕ) (sale : MembershipSale) :
    List (ℕ × ℕ × Amount) :=
  levelsFrom referredBy config.rates 1 (referredBy sale.buyerId) [sale.buyerId]

theorem levelsFrom_ge (referredBy : ℕ → Option ℕ) (rates : List Amount) (level : ℕ)
    (nextUser : Option ℕ) (seen : List ℕ) :
    ∀ reached ∈ levelsFrom referredBy rates level nextUser seen, level ≤ reached.1 := by
  induction rates generalizing level nextUser seen with
  | nil =>
    intro reached hreached
    exact nomatch hreached
  | cons rate rates ih =>
    intro reached hreached
    unfold levelsFrom at hreached
    cases nextUser with
    | none => exact nomatch hreached
    | some recipientId =>
      dsimp only at hreached
      split_ifs at hreached
      · exact nomatch hreached
      · rcases List.mem_cons.1 hreached with rfl | hrest
        · exact le_rfl
        · exact Nat.le_of_succ_le (ih _ _ _ reached hrest)

theorem levelsFrom_levels (referredBy : ℕ → Option ℕ) (rates : List Amount) (level : ℕ)
    (nextUser : Option ℕ) (seen : List ℕ) :
    ((levelsFrom referredBy rates level nextUser seen).map Prod.fst).Nodup := by
  induction rates generalizing level nextUser seen with
  | nil => exact List.nodup_nil
  | cons rate rates ih =>
    unfold levelsFrom
    cases nextUser with
    | none => exact List.nodup_nil
    | some recipientId =>
      dsimp only
      split_ifs
      · exact List.nodup_nil
      · rw [List.map_cons, List.nodup_cons]
        refine ⟨?_, ih _ _ _⟩
        intro hmem
        obtain ⟨reached, hreached, hsame⟩ := List.mem_map.1 hmem
        have hge := levelsFrom_ge referredBy rates (level + 1) _ _ reached hreached
        dsimp only at hsame
        omega

theorem levelsFrom_rates (referredBy : ℕ → Option ℕ) (rates : List Amount) (level : ℕ)
    (nextUser : Option ℕ) (seen : List ℕ) :
    (levelsFrom referredBy rates level nextUser seen).map (fun reached => reached.2.2) <+:
      rates := by
  induction rates generalizing level nextUser seen with
  | nil => exact List.prefix_rfl
  | cons rate rates ih =>
    unfold levelsFrom
    cases nextUser with
    | none => exact List.nil_prefix
    | some recipientId =>
      dsimp only
      split_ifs
      · exact List.nil_prefix
      · rw [List.map_cons]
        exact List.cons_prefix_cons.2 ⟨rfl, ih _ _ _⟩

theorem rates_valid (config : ReferralConfig) :
    (∀ rate ∈ config.rates, 0 ≤ rate) ∧ config.rates.sum ≤ 100 := by
  unfold ReferralConfig.rates
  dsimp only
  split_ifs with hvalid
  · exact ⟨fun rate hrate => (hvalid.2.2.1 rate hrate).1, hvalid.2.2.2⟩
  · refine ⟨?_, ?_⟩
    · intro rate hrate
      exact nomatch hrate
    · norm_num

/-! ## Rewards in the ledger -/

section Sound

variable {config : ReferralConfig} {referredBy : ℕ → Option ℕ} {sales : String → MembershipSale}

/-- The row is the reward of a level that its order reaches. -/
structure IsReward (config : ReferralConfig) (referredBy : ℕ → Option ℕ)
    (sales : String → MembershipSale) (entry : RewardEntry) (reached : ℕ × ℕ × Amount) : Prop where
  level : reached ∈ levelsOf config referredBy (sales entry.sourceOrderRef)
  rewardLevel : entry.rewardLevel = some reached.1
  rewardRate : entry.rewardRate = some reached.2.2
  userId : entry.userId = reached.2.1
  key : entry.sourceKey = some (rewardKey entry.sourceOrderRef reached.2.1 reached.1)
  amount : entry.amount = money (money (sales entry.sourceOrderRef).priceUsd * reached.2.2 / 100)
  positive : 0 < entry.amount

/-- What holds after any operations. -/
structure RewardsSound (config : ReferralConfig) (referredBy : ℕ → Option ℕ)
    (sales : String → MembershipSale) (tables : RewardTables) : Prop where
  ledgered : ∀ userId, Ledgered tables userId
  available : ∀ userId, 0 ≤ (tables.accounts userId).availableBalance
  held : ∀ userId, (tables.accounts userId).pendingRewardBalance =
    (tables.ledger.map (heldAmount userId)).sum
  frozen : ∀ userId, (tables.accounts userId).pendingWithdrawalBalance =
    (tables.withdrawals.map (frozenAmount userId)).sum
  rewards : ∀ entry ∈ tables.ledger, entry.action = .membershipReward →
    ∃ reached, IsReward config referredBy sales entry reached
  keys : (tables.ledger.filterMap RewardEntry.sourceKey).Nodup
  withdrawals : ∀ withdrawal ∈ tables.withdrawals,
    0 < withdrawal.amount ∧ money withdrawal.amount = withdrawal.amount
  decided : ∀ id, decisions tables.ledger id = match tables.withdrawals[id]? with
    | some withdrawal => if WithdrawalDecided withdrawal.status then 1 else 0
    | none => 0

variable {tables : RewardTables}

theorem rewards_post {userId : ℕ} {available pending withdrawal earned paid : Amount}
    {entry : RewardEntry}
    (h : ∀ entry ∈ tables.ledger, entry.action = .membershipReward →
      ∃ reached, IsReward config referredBy sales entry reached)
    (hentry : entry.action = .membershipReward →
      ∃ reached, IsReward config referredBy sales entry reached) :
    ∀ row ∈ (post tables userId available pending withdrawal earned paid entry).ledger,
      row.action = .membershipReward → ∃ reached, IsReward config referredBy sales row reached := by
  intro row hrow haction
  rcases List.mem_append.1 hrow with hold | hnew
  · exact h row hold haction
  · rw [List.mem_singleton.1 hnew] at haction ⊢
    obtain ⟨reached, hreached⟩ := hentry haction
    exact ⟨reached, hreached.level, hreached.rewardLevel, hreached.rewardRate, hreached.userId,
      hreached.key, hreached.amount, hreached.positive⟩

theorem reward_sound (h : RewardsSound config referredBy sales tables) {entry : RewardEntry}
    {userId : ℕ} {available pending earned : Amount} {key : String}
    (huser : entry.userId = userId) (hamount : entry.amount = earned) (haction : entry.action = .membershipReward)
    (hpositive : 0 < entry.amount) (havailable : entry.availableDelta = available)
    (hpending : entry.pendingRewardDelta = pending) (hwithdrawal : entry.pendingWithdrawalDelta = 0)
    (hsplit : (available = 0 ∧ pending = entry.amount ∧ entry.status = .pending) ∨
      (available = entry.amount ∧ pending = 0 ∧ entry.status = .posted))
    (hkey : entry.sourceKey = some key) (hnew : ¬ ∃ row ∈ tables.ledger, row.sourceKey = some key)
    (hreward : ∃ reached, IsReward config referredBy sales entry reached) :
    RewardsSound config referredBy sales
      (post tables userId available pending 0 earned 0 entry) := by
  subst huser hamount
  have hsum : entry.amount = available + pending + 0 + 0 := by
    rcases hsplit with ⟨rfl, rfl, -⟩ | ⟨rfl, rfl, -⟩
    · ring
    · ring
  refine ⟨fun other => (h.ledgered other).post rfl havailable hpending hwithdrawal hsum,
    ?_, ?_, ?_, rewards_post h.rewards fun _ => hreward, ?_, h.withdrawals, ?_⟩
  · intro other
    rw [available_post]
    split_ifs
    · refine add_nonneg (h.available other) ?_
      rcases hsplit with ⟨rfl, -, -⟩ | ⟨rfl, -, -⟩
      · exact le_rfl
      · exact hpositive.le
    · rw [add_zero]
      exact h.available other
  · intro other
    rw [pendingReward_post, held_post, h.held]
    congr 1
    unfold heldAmount
    by_cases hsame : other = entry.userId
    · rw [if_pos hsame]
      rcases hsplit with ⟨-, hall, hstatus⟩ | ⟨-, hnone, hstatus⟩
      · rw [if_pos ⟨hsame.symm, haction, hstatus⟩]
        exact hall
      · rw [if_neg (by rw [hstatus]; simp)]
        exact hnone
    · rw [if_neg hsame, if_neg (fun hrow => hsame hrow.1.symm)]
  · intro other
    rw [pendingWithdrawal_post, ite_self, add_zero]
    exact h.frozen other
  · unfold post RewardTables.insertEntry
    rw [List.filterMap_append]
    refine List.Nodup.append h.keys ?_ ?_
    · simp [RewardEntry.finish, hkey]
    · intro found hold hlast
      have hfound : found = key := by simpa [RewardEntry.finish, hkey] using hlast
      obtain ⟨row, hrow, hsource⟩ := List.mem_filterMap.1 hold
      rw [hfound] at hsource
      exact hnew ⟨row, hrow, hsource⟩
  · intro id
    rw [decisions_post, if_neg (by rw [haction]; simp), add_zero]
    exact h.decided id

theorem rewardLevel_sound (h : RewardsSound config referredBy sales tables) {sourceRef : String}
    (now : Time) {level recipientId : ℕ} {rate : Amount}
    (hreached : (level, recipientId, rate) ∈ levelsOf config referredBy (sales sourceRef)) :
    RewardsSound config referredBy sales
      (rewardLevel config (sales sourceRef) sourceRef now level recipientId rate tables) := by
  unfold rewardLevel
  dsimp only
  by_cases hskip : money (money (sales sourceRef).priceUsd * rate / 100) ≤ 0 ∨
      ∃ entry ∈ tables.ledger,
        entry.sourceKey = some (rewardKey sourceRef recipientId level)
  · rw [if_pos hskip]
    exact h
  · rw [if_neg hskip]
    obtain ⟨hpositive, hnew⟩ := not_or.1 hskip
    by_cases hheld : config.holdDays ≠ 0
    · simp only [if_pos hheld]
      show RewardsSound _ _ _ (post tables recipientId _ _ 0 _ 0 _)
      refine reward_sound h rfl rfl rfl ?_ rfl rfl rfl (Or.inl ⟨rfl, rfl, rfl⟩) rfl hnew ?_
      · exact not_le.1 hpositive
      · exact ⟨(level, recipientId, rate), hreached, rfl, rfl, rfl, rfl, rfl, not_le.1 hpositive⟩
    · simp only [if_neg hheld]
      show RewardsSound _ _ _ (post tables recipientId _ _ 0 _ 0 _)
      refine reward_sound h rfl rfl rfl ?_ rfl rfl rfl (Or.inr ⟨rfl, rfl, rfl⟩) rfl hnew ?_
      · exact not_le.1 hpositive
      · exact ⟨(level, recipientId, rate), hreached, rfl, rfl, rfl, rfl, rfl, not_le.1 hpositive⟩

theorem awardLevels_sound {sourceRef : String} (now : Time) (rates : List Amount) (level : ℕ)
    (nextUser : Option ℕ) (seen : List ℕ) (h : RewardsSound config referredBy sales tables)
    (hreached : ∀ reached ∈ levelsFrom referredBy rates level nextUser seen,
      reached ∈ levelsOf config referredBy (sales sourceRef)) :
    RewardsSound config referredBy sales
      (awardLevels config referredBy (sales sourceRef) sourceRef now rates level nextUser seen
        tables) := by
  induction rates generalizing level nextUser seen tables with
  | nil => exact h
  | cons rate rates ih =>
    unfold awardLevels
    unfold levelsFrom at hreached
    cases nextUser with
    | none => exact h
    | some recipientId =>
      dsimp only at hreached ⊢
      split_ifs at hreached ⊢
      · exact h
      · refine ih _ _ _ (rewardLevel_sound h now (hreached _ List.mem_cons_self)) ?_
        intro reached hrest
        exact hreached reached (List.mem_cons_of_mem _ hrest)

theorem award_sound (h : RewardsSound config referredBy sales tables) (sourceRef : String)
    (now : Time) :
    RewardsSound config referredBy sales
      (awardMembershipRewards config referredBy (sales (strip sourceRef)) sourceRef now tables) := by
  unfold awardMembershipRewards
  split_ifs
  · exact h
  · exact h
  · exact awardLevels_sound now config.rates 1 _ _ h fun _ hreached => hreached

/-! ## Releases -/

def releaseRow (userId : ℕ) (now : Time) (entry : RewardEntry) : RewardEntry :=
  if entry.Matured userId now then { entry with status := .released } else entry

theorem releaseRow_keeps {α : Type} (column : RewardEntry → α)
    (hcolumn : ∀ entry : RewardEntry, column { entry with status := .released } = column entry)
    (userId : ℕ) (now : Time) (entry : RewardEntry) :
    column (releaseRow userId now entry) = column entry := by
  unfold releaseRow
  split_ifs
  · exact hcolumn entry
  · rfl

theorem ledgerSum_release (column : RewardEntry → Amount)
    (hcolumn : ∀ entry : RewardEntry, column { entry with status := .released } = column entry)
    (ledger : List RewardEntry) (userId : ℕ) (now : Time) (other : ℕ) :
    ledgerSum column (ledger.map (releaseRow userId now)) other =
      ledgerSum column ledger other := by
  unfold ledgerSum
  rw [List.map_map]
  congr 1
  refine List.map_congr_left ?_
  intro entry _
  show (if (releaseRow userId now entry).userId = other then column (releaseRow userId now entry)
    else 0) = _
  rw [releaseRow_keeps column hcolumn, releaseRow_keeps RewardEntry.userId fun _ => rfl]

theorem IsReward.cents {entry : RewardEntry} {reached : ℕ × ℕ × Amount}
    (h : IsReward config referredBy sales entry reached) : money entry.amount = entry.amount := by
  have hpositive : 0 < money (sales entry.sourceOrderRef).priceUsd * reached.2.2 / 100 := by
    by_contra hnot
    have hnone := money_nonpos (not_lt.1 hnot)
    rw [← h.amount] at hnone
    exact absurd h.positive (not_lt.2 hnone)
  rw [h.amount, money_money hpositive.le]

theorem held_release {ledger : List RewardEntry} (userId : ℕ) (now : Time)
    (hcents : ∀ entry ∈ ledger, entry.action = .membershipReward →
      money entry.amount = entry.amount) (other : ℕ) :
    ((ledger.map (releaseRow userId now)).map (heldAmount other)).sum =
      (ledger.map (heldAmount other)).sum - if other = userId then
        ((ledger.filter fun entry => entry.Matured userId now).map
          fun entry => money entry.amount).sum else 0 := by
  induction ledger with
  | nil => simp
  | cons entry ledger ih =>
    have hrest := ih fun row hrow => hcents row (List.mem_cons_of_mem _ hrow)
    rw [List.map_cons, List.map_cons, List.sum_cons, List.map_cons, List.sum_cons, hrest]
    by_cases hmatured : entry.Matured userId now
    · have hrow : releaseRow userId now entry = { entry with status := .released } :=
        if_pos hmatured
      have hnone : heldAmount other (releaseRow userId now entry) = 0 := by
        rw [hrow]
        exact if_neg fun h => nomatch h.2.2
      have hfilter : ((entry :: ledger).filter fun entry => entry.Matured userId now) =
          entry :: ledger.filter fun entry => entry.Matured userId now := by
        simp [hmatured]
      rw [hnone, hfilter, List.map_cons, List.sum_cons,
        hcents entry List.mem_cons_self hmatured.2.1]
      unfold heldAmount
      by_cases hsame : other = userId
      · rw [if_pos hsame, if_pos hsame,
          if_pos ⟨hmatured.1.trans hsame.symm, hmatured.2.1, hmatured.2.2.1⟩]
        ring
      · rw [if_neg hsame, if_neg hsame,
          if_neg (fun h => hsame (h.1.symm.trans hmatured.1))]
        ring
    · have hrow : releaseRow userId now entry = entry := if_neg hmatured
      have hfilter : ((entry :: ledger).filter fun entry => entry.Matured userId now) =
          ledger.filter fun entry => entry.Matured userId now := by
        simp [hmatured]
      rw [hrow, hfilter]
      ring

theorem release_sound (h : RewardsSound config referredBy sales tables) (userId : ℕ) (now : Time) :
    RewardsSound config referredBy sales (releaseMatured userId now tables) := by
  have hcents : ∀ entry ∈ tables.ledger, entry.action = .membershipReward →
      money entry.amount = entry.amount := by
    intro entry hentry haction
    obtain ⟨reached, hreached⟩ := h.rewards entry hentry haction
    exact hreached.cents
  have hheld := held_release userId now hcents
  unfold releaseMatured
  dsimp only
  generalize ((tables.ledger.filter fun entry => entry.Matured userId now).map
    fun entry => money entry.amount).sum = total at hheld ⊢
  by_cases htotal : total ≤ 0
  · rw [if_pos htotal]
    exact h
  · rw [if_neg htotal]
    show RewardsSound _ _ _ (post { tables with ledger := tables.ledger.map (releaseRow userId now) }
      userId total (-total) 0 0 0 _)
    have hledgered : ∀ other, Ledgered
        { tables with ledger := tables.ledger.map (releaseRow userId now) } other := by
      intro other
      refine ⟨?_, ?_, ?_, (h.ledgered other).earned⟩
      · rw [ledgerSum_release _ fun _ => rfl]
        exact (h.ledgered other).available
      · rw [ledgerSum_release _ fun _ => rfl]
        exact (h.ledgered other).pendingReward
      · rw [ledgerSum_release _ fun _ => rfl]
        exact (h.ledgered other).pendingWithdrawal
    refine ⟨?_, ?_, ?_, ?_, ?_, ?_, h.withdrawals, ?_⟩
    · intro other
      refine Ledgered.post ?_ ?_ ?_ ?_ ?_ (hledgered other)
      · rfl
      · rfl
      · rfl
      · rfl
      · ring
    · intro other
      rw [available_post]
      split_ifs
      · exact add_nonneg (h.available other) (not_le.1 htotal).le
      · rw [add_zero]
        exact h.available other
    · intro other
      rw [pendingReward_post, held_post]
      show (tables.accounts other).pendingRewardBalance + _ =
        ((tables.ledger.map (releaseRow userId now)).map (heldAmount other)).sum + _
      rw [hheld, h.held]
      have hnone : heldAmount other
          { userId := userId
            action := .rewardRelease
            amount := total
            availableDelta := total
            pendingRewardDelta := -total } = 0 := if_neg fun hrow => nomatch hrow.2.1
      rw [hnone]
      split_ifs
      · ring
      · ring
    · intro other
      rw [pendingWithdrawal_post, ite_self, add_zero]
      exact h.frozen other
    · refine rewards_post ?_ (fun haction => nomatch haction)
      intro row hrow haction
      obtain ⟨entry, hentry, rfl⟩ := List.mem_map.1 hrow
      rw [releaseRow_keeps RewardEntry.action fun _ => rfl] at haction
      obtain ⟨reached, hreached⟩ := h.rewards entry hentry haction
      refine ⟨reached, ?_⟩
      unfold releaseRow
      split_ifs
      · exact ⟨hreached.level, hreached.rewardLevel, hreached.rewardRate, hreached.userId,
          hreached.key, hreached.amount, hreached.positive⟩
      · exact hreached
    · rw [keys_post_none rfl]
      show ((tables.ledger.map (releaseRow userId now)).filterMap RewardEntry.sourceKey).Nodup
      rw [List.filterMap_map]
      have hsame : RewardEntry.sourceKey ∘ releaseRow userId now = RewardEntry.sourceKey :=
        funext (releaseRow_keeps RewardEntry.sourceKey (fun _ => rfl) userId now)
      rw [hsame]
      exact h.keys
    · intro id
      rw [decisions_post, if_neg (by simp), add_zero]
      refine Eq.trans ?_ (h.decided id)
      unfold decisions
      show (tables.ledger.map (releaseRow userId now)).countP _ = _
      rw [List.countP_map]
      congr 1
      funext entry
      show decide (((releaseRow userId now entry).action = _ ∨ _) ∧
        (releaseRow userId now entry).withdrawalId = _) = _
      rw [releaseRow_keeps RewardEntry.action fun _ => rfl,
        releaseRow_keeps RewardEntry.withdrawalId fun _ => rfl]

/-! ## Withdrawals -/

theorem withdraw_sound (h : RewardsSound config referredBy sales tables) (userId : ℕ)
    (request : WithdrawalRequest) (now : Time) :
    RewardsSound config referredBy sales (createWithdrawal config userId request now tables) := by
  unfold createWithdrawal
  dsimp only
  split_ifs with hrefused hshort
  · exact h
  · exact h
  · have hmid := release_sound h userId now
    have hminimum : ¬ money request.amount < config.minimumWithdrawal :=
      fun hless => hrefused (Or.inr (Or.inr (Or.inr hless)))
    have hpositive : 0 < money request.amount := by
      have hcent : (0 : Amount) < 1 / 100 := by norm_num
      have hleast : (1 / 100 : Amount) ≤ config.minimumWithdrawal := le_max_left _ _
      linarith
    have hrequest : 0 ≤ request.amount := by
      by_contra hnegative
      exact absurd hpositive (not_lt.2 (money_nonpos (not_le.1 hnegative).le))
    have hcents : money (money request.amount) = money request.amount := money_money hrequest
    generalize releaseMatured userId now tables = mid at hmid hshort ⊢
    generalize money request.amount = amount at hpositive hcents hshort ⊢
    have hcovered : amount ≤ (mid.accounts userId).availableBalance :=
      (not_lt.1 hshort).trans (money_le (hmid.available userId))
    generalize hwithdrawal : ({
      userId := userId
      currency := upper (strip request.currency)
      chain := upper (strip request.chain)
      address := strip request.address
      amount := amount } : Withdrawal) = withdrawal
    show RewardsSound _ _ _ (post { mid with withdrawals := mid.withdrawals ++ [withdrawal] }
      userId (-amount) 0 amount 0 0 _)
    have hledgered : ∀ other, Ledgered
        { mid with withdrawals := mid.withdrawals ++ [withdrawal] } other := fun other =>
      ⟨(hmid.ledgered other).available, (hmid.ledgered other).pendingReward,
        (hmid.ledgered other).pendingWithdrawal, (hmid.ledgered other).earned⟩
    refine ⟨?_, ?_, ?_, ?_, ?_, ?_, ?_, ?_⟩
    · intro other
      refine Ledgered.post ?_ ?_ ?_ ?_ ?_ (hledgered other)
      · rfl
      · rfl
      · rfl
      · rfl
      · ring
    · intro other
      rw [available_post]
      split_ifs with hsame
      · rw [hsame]
        show 0 ≤ (mid.accounts userId).availableBalance + -amount
        linarith
      · rw [add_zero]
        exact hmid.available other
    · intro other
      rw [pendingReward_post, held_post, ite_self, add_zero]
      refine (hmid.held other).trans ?_
      have hnone : heldAmount other
          { userId := userId
            action := .withdrawalRequested
            amount := amount
            availableDelta := -amount
            pendingWithdrawalDelta := amount
            withdrawalId := some mid.withdrawals.length } = 0 := if_neg fun hrow => nomatch hrow.2.1
      rw [hnone, add_zero]
    · intro other
      rw [pendingWithdrawal_post]
      show (mid.accounts other).pendingWithdrawalBalance + _ =
        ((mid.withdrawals ++ [withdrawal]).map (frozenAmount other)).sum
      rw [List.map_append, List.sum_append, hmid.frozen, List.map_singleton, List.sum_singleton]
      congr 1
      rw [← hwithdrawal]
      unfold frozenAmount
      by_cases hsame : other = userId
      · rw [if_pos hsame, if_pos ⟨hsame.symm, Or.inl rfl⟩]
      · rw [if_neg hsame, if_neg fun hrow => hsame hrow.1.symm]
    · refine rewards_post hmid.rewards ?_
      intro haction
      exact nomatch haction
    · rw [keys_post_none rfl]
      exact hmid.keys
    · intro row hrow
      rcases List.mem_append.1 hrow with hrow | hrow
      · exact hmid.withdrawals row hrow
      · rw [List.mem_singleton.1 hrow, ← hwithdrawal]
        exact ⟨hpositive, hcents⟩
    · intro id
      rw [decisions_post, if_neg (by simp), add_zero]
      show decisions mid.ledger id = match (mid.withdrawals ++ [withdrawal])[id]? with
        | some withdrawal => if WithdrawalDecided withdrawal.status then 1 else 0
        | none => 0
      rw [hmid.decided id]
      rcases lt_trichotomy id mid.withdrawals.length with hless | hlast | hmore
      · rw [List.getElem?_append_left hless]
      · rw [hlast, List.getElem?_concat_length, List.getElem?_eq_none le_rfl, ← hwithdrawal]
        rfl
      · rw [List.getElem?_eq_none hmore.le, List.getElem?_eq_none (by simpa using hmore)]

theorem allows_open {current target : WithdrawalStatus} (h : current.Allows target) :
    current = .pending ∨ current = .processing := h.imp id And.left

theorem frozen_set {withdrawals : List Withdrawal} {withdrawalId : ℕ} {row updated : Withdrawal}
    (hrow : withdrawals[withdrawalId]? = some row)
    (hopen : row.status = .pending ∨ row.status = .processing) (huser : updated.userId = row.userId)
    (hamount : updated.amount = row.amount) (other : ℕ) :
    ((withdrawals.set withdrawalId updated).map (frozenAmount other)).sum =
      (withdrawals.map (frozenAmount other)).sum +
        if other = row.userId ∧ ¬ (updated.status = .pending ∨ updated.status = .processing)
        then -row.amount else 0 := by
  rw [sum_map_set (frozenAmount other) hrow updated]
  unfold frozenAmount
  rw [huser, hamount]
  by_cases hsame : row.userId = other
  · by_cases hstill : updated.status = .pending ∨ updated.status = .processing
    · rw [if_pos ⟨hsame, hopen⟩, if_pos ⟨hsame, hstill⟩, if_neg (fun h => h.2 hstill)]
      ring
    · rw [if_pos ⟨hsame, hopen⟩, if_neg (fun h => hstill h.2), if_pos ⟨hsame.symm, hstill⟩]
      ring
  · rw [if_neg (fun h => hsame h.1), if_neg (fun h => hsame h.1),
      if_neg (fun h => hsame h.1.symm)]
    ring

theorem decided_set {withdrawals : List Withdrawal} {withdrawalId : ℕ} {row updated : Withdrawal}
    (hrow : withdrawals[withdrawalId]? = some row)
    (hopen : row.status = .pending ∨ row.status = .processing) (id : ℕ) :
    (match (withdrawals.set withdrawalId updated)[id]? with
      | some withdrawal => if WithdrawalDecided withdrawal.status then 1 else 0
      | none => 0) =
    (match withdrawals[id]? with
      | some withdrawal => if WithdrawalDecided withdrawal.status then 1 else 0
      | none => 0) + if withdrawalId = id ∧ WithdrawalDecided updated.status then 1 else 0 := by
  by_cases hsame : withdrawalId = id
  · subst hsame
    have hbound : withdrawalId < withdrawals.length := (List.getElem?_eq_some_iff.1 hrow).1
    have hundecided : ¬ WithdrawalDecided row.status := by
      rcases hopen with hopen | hopen
      · rw [hopen]
        decide
      · rw [hopen]
        decide
    rw [List.getElem?_set_self hbound, hrow]
    dsimp only
    rw [if_neg hundecided, zero_add]
    by_cases hdecided : WithdrawalDecided updated.status
    · rw [if_pos hdecided, if_pos ⟨rfl, hdecided⟩]
    · rw [if_neg hdecided, if_neg (fun h => hdecided h.2)]
  · rw [List.getElem?_set_ne hsame, if_neg (fun h => hsame h.1), add_zero]

theorem withdrawals_set {withdrawals : List Withdrawal} {withdrawalId : ℕ} {row updated : Withdrawal}
    (hrow : withdrawals[withdrawalId]? = some row) (hamount : updated.amount = row.amount)
    (h : ∀ withdrawal ∈ withdrawals,
      0 < withdrawal.amount ∧ money withdrawal.amount = withdrawal.amount) :
    ∀ withdrawal ∈ withdrawals.set withdrawalId updated,
      0 < withdrawal.amount ∧ money withdrawal.amount = withdrawal.amount := by
  intro withdrawal hwithdrawal
  rcases List.mem_or_eq_of_mem_set hwithdrawal with hold | hnew
  · exact h withdrawal hold
  · rw [hnew, hamount]
    exact h row (List.mem_of_getElem? hrow)

theorem decision_sound (h : RewardsSound config referredBy sales tables) {withdrawalId : ℕ}
    {row updated : Withdrawal} {entry : RewardEntry} {userId : ℕ} {available amount paid : Amount}
    (hrow : tables.withdrawals[withdrawalId]? = some row)
    (hopen : row.status = .pending ∨ row.status = .processing)
    (huser : updated.userId = row.userId) (hamount : updated.amount = row.amount)
    (hdecided : WithdrawalDecided updated.status) (hsame : userId = row.userId)
    (hall : amount = row.amount) (hsplit : available + paid = row.amount) (hback : 0 ≤ available)
    (hentry : entry.userId = userId) (havailable : entry.availableDelta = available)
    (hpending : entry.pendingRewardDelta = 0) (hwithdrawal : entry.pendingWithdrawalDelta = -amount)
    (haction : entry.action = .withdrawalPaid ∨ entry.action = .withdrawalRejected)
    (hid : entry.withdrawalId = some withdrawalId) (hkey : entry.sourceKey = none) :
    RewardsSound config referredBy sales (post
      { tables with withdrawals := tables.withdrawals.set withdrawalId updated }
      userId available 0 (-amount) 0 paid entry) := by
  have hreward : entry.action ≠ .membershipReward := by
    rcases haction with haction | haction
    · rw [haction]
      exact fun h => nomatch h
    · rw [haction]
      exact fun h => nomatch h
  have hledgered : ∀ other, Ledgered
      { tables with withdrawals := tables.withdrawals.set withdrawalId updated } other :=
    fun other => ⟨(h.ledgered other).available, (h.ledgered other).pendingReward,
      (h.ledgered other).pendingWithdrawal, (h.ledgered other).earned⟩
  refine ⟨?_, ?_, ?_, ?_, ?_, ?_, ?_, ?_⟩
  · intro other
    refine Ledgered.post hentry havailable hpending hwithdrawal ?_ (hledgered other)
    rw [hall]
    linarith
  · intro other
    rw [available_post]
    split_ifs
    · exact add_nonneg (h.available other) hback
    · rw [add_zero]
      exact h.available other
  · intro other
    rw [pendingReward_post, held_post, ite_self, add_zero]
    refine (h.held other).trans ?_
    have hnone : heldAmount other entry = 0 := if_neg fun hrow => hreward hrow.2.1
    rw [hnone, add_zero]
  · intro other
    rw [pendingWithdrawal_post]
    show (tables.accounts other).pendingWithdrawalBalance + _ =
      ((tables.withdrawals.set withdrawalId updated).map (frozenAmount other)).sum
    rw [frozen_set hrow hopen huser hamount, h.frozen, hsame, hall]
    congr 1
    have hclosed : ¬ (updated.status = .pending ∨ updated.status = .processing) := by
      rcases hdecided with hdecided | hdecided
      · rw [hdecided]
        decide
      · rw [hdecided]
        decide
    by_cases hother : other = row.userId
    · rw [if_pos hother, if_pos ⟨hother, hclosed⟩]
    · rw [if_neg hother, if_neg (fun h => hother h.1)]
  · exact rewards_post h.rewards fun hcontra => absurd hcontra hreward
  · rw [keys_post_none hkey]
    exact h.keys
  · exact withdrawals_set hrow hamount h.withdrawals
  · intro id
    rw [decisions_post]
    show decisions tables.ledger id + _ = match
      (tables.withdrawals.set withdrawalId updated)[id]? with
      | some withdrawal => if WithdrawalDecided withdrawal.status then 1 else 0
      | none => 0
    rw [decided_set hrow hopen, h.decided id, hid]
    congr 1
    by_cases hthis : withdrawalId = id
    · rw [if_pos ⟨haction, by rw [hthis]⟩, if_pos ⟨hthis, hdecided⟩]
    · rw [if_neg (fun h => hthis (Option.some.inj h.2)), if_neg (fun h => hthis h.1)]

theorem processing_sound (h : RewardsSound config referredBy sales tables) {withdrawalId : ℕ}
    {row updated : Withdrawal} (hrow : tables.withdrawals[withdrawalId]? = some row)
    (hopen : row.status = .pending ∨ row.status = .processing)
    (huser : updated.userId = row.userId) (hamount : updated.amount = row.amount)
    (hstill : updated.status = .pending ∨ updated.status = .processing) :
    RewardsSound config referredBy sales
      { tables with withdrawals := tables.withdrawals.set withdrawalId updated } := by
  have hundecided : ¬ WithdrawalDecided updated.status := by
    rcases hstill with hstill | hstill
    · rw [hstill]
      decide
    · rw [hstill]
      decide
  refine ⟨?_, h.available, h.held, ?_, h.rewards, h.keys, ?_, ?_⟩
  · intro other
    exact ⟨(h.ledgered other).available, (h.ledgered other).pendingReward,
      (h.ledgered other).pendingWithdrawal, (h.ledgered other).earned⟩
  · intro other
    refine (h.frozen other).trans ?_
    show _ = ((tables.withdrawals.set withdrawalId updated).map (frozenAmount other)).sum
    rw [frozen_set hrow hopen huser hamount, if_neg (fun h => h.2 hstill), add_zero]
  · exact withdrawals_set hrow hamount h.withdrawals
  · intro id
    refine (h.decided id).trans ?_
    show _ = match (tables.withdrawals.set withdrawalId updated)[id]? with
      | some withdrawal => if WithdrawalDecided withdrawal.status then 1 else 0
      | none => 0
    rw [decided_set hrow hopen, if_neg (fun h => hundecided h.2), add_zero]

theorem review_sound (h : RewardsSound config referredBy sales tables) (withdrawalId : ℕ)
    (action txHash : String) :
    RewardsSound config referredBy sales (reviewWithdrawal withdrawalId action txHash tables) := by
  unfold reviewWithdrawal
  cases reviewTarget action with
  | none => exact h
  | some target =>
    dsimp only
    generalize String.ofList ((strip txHash).toList.take 160) = hash
    by_cases hnohash : target = .paid ∧ hash = ""
    · rw [if_pos hnohash]
      exact h
    · rw [if_neg hnohash]
      cases hrow : tables.withdrawals[withdrawalId]? with
      | none => exact h
      | some row =>
        dsimp only
        by_cases hallowed : row.status.Allows target
        · rw [if_neg (not_not.2 hallowed)]
          have hopen := allows_open hallowed
          obtain ⟨hpositive, hcents⟩ := h.withdrawals row (List.mem_of_getElem? hrow)
          rw [hcents]
          cases target with
          | pending => exact processing_sound h hrow hopen rfl rfl (Or.inl rfl)
          | processing => exact processing_sound h hrow hopen rfl rfl (Or.inr rfl)
          | paid =>
            exact decision_sound h hrow hopen rfl rfl (Or.inl rfl) rfl rfl (zero_add _) le_rfl
              rfl rfl rfl rfl (Or.inl rfl) rfl rfl
          | rejected =>
            exact decision_sound h hrow hopen rfl rfl (Or.inr rfl) rfl rfl (add_zero _)
              hpositive.le rfl rfl rfl rfl (Or.inr rfl) rfl rfl
        · rw [if_pos hallowed]
          exact h

theorem referral_sound_step (h : RewardsSound config referredBy sales tables)
    (operation : ReferralOperation) :
    RewardsSound config referredBy sales (referralStep config referredBy sales tables operation) := by
  cases operation with
  | award sourceRef now => exact award_sound h sourceRef now
  | release userId now => exact release_sound h userId now
  | withdraw userId request now => exact withdraw_sound h userId request now
  | review withdrawalId action txHash => exact review_sound h withdrawalId action txHash

variable (config referredBy sales) in
theorem referral_start : RewardsSound config referredBy sales {} := by
  refine ⟨fun _ => ⟨rfl, rfl, rfl, ?_⟩, fun _ => le_rfl, fun _ => rfl, fun _ => rfl, ?_,
    List.nodup_nil, ?_, fun _ => rfl⟩
  · show (0 : Amount) = 0 + 0 + 0 + 0
    ring
  · intro entry hentry
    exact nomatch hentry
  · intro withdrawal hwithdrawal
    exact nomatch hwithdrawal

/-! ## The rewards of an order -/

/-- The level, the recipient and the rate that a reward names. -/
def reachedOf (entry : RewardEntry) : ℕ × ℕ × Amount :=
  (entry.rewardLevel.getD 0, entry.userId, entry.rewardRate.getD 0)

theorem IsReward.reachedOf {entry : RewardEntry} {reached : ℕ × ℕ × Amount}
    (h : IsReward config referredBy sales entry reached) : reachedOf entry = reached := by
  unfold Analysis.reachedOf
  rw [h.rewardLevel, h.rewardRate, h.userId]
  rfl

def orderRows (ledger : List RewardEntry) (sourceRef : String) : List RewardEntry :=
  ledger.filter fun entry => entry.action = .membershipReward ∧ entry.sourceOrderRef = sourceRef

theorem orderRows_reward (h : RewardsSound config referredBy sales tables) (sourceRef : String) :
    ∀ entry ∈ orderRows tables.ledger sourceRef, entry.sourceOrderRef = sourceRef ∧
      IsReward config referredBy sales entry (reachedOf entry) := by
  intro entry hentry
  obtain ⟨hmem, hrow⟩ := List.mem_filter.1 hentry
  obtain ⟨haction, href⟩ := of_decide_eq_true hrow
  obtain ⟨reached, hreached⟩ := h.rewards entry hmem haction
  refine ⟨href, ?_⟩
  rw [hreached.reachedOf]
  exact hreached

theorem orderRows_levels (h : RewardsSound config referredBy sales tables) (sourceRef : String) :
    ∃ reached, ((orderRows tables.ledger sourceRef).map reachedOf).Perm reached ∧
      reached.Sublist (levelsOf config referredBy (sales sourceRef)) := by
  have hrows := orderRows_reward h sourceRef
  have hkeys : (orderRows tables.ledger sourceRef).filterMap RewardEntry.sourceKey =
      ((orderRows tables.ledger sourceRef).map reachedOf).map fun reached =>
        rewardKey sourceRef reached.2.1 reached.1 := by
    rw [List.map_map, ← List.filterMap_eq_map]
    refine List.filterMap_congr ?_
    intro entry hentry
    obtain ⟨href, hreward⟩ := hrows entry hentry
    rw [hreward.key, href]
    rfl
  have hnodup : ((orderRows tables.ledger sourceRef).map reachedOf).Nodup := by
    refine List.Nodup.of_map (fun reached => rewardKey sourceRef reached.2.1 reached.1) ?_
    rw [← hkeys]
    exact h.keys.sublist (List.filter_sublist.filterMap _)
  have hsubset : (orderRows tables.ledger sourceRef).map reachedOf ⊆
      levelsOf config referredBy (sales sourceRef) := by
    intro reached hreached
    obtain ⟨entry, hentry, rfl⟩ := List.mem_map.1 hreached
    obtain ⟨href, hreward⟩ := hrows entry hentry
    have hlevel := hreward.level
    rw [href] at hlevel
    exact hlevel
  obtain ⟨reached, hperm, hsub⟩ := List.subperm_of_subset hnodup hsubset
  exact ⟨reached, hperm.symm, hsub⟩

theorem reward_once (h : RewardsSound config referredBy sales tables) (sourceRef : String)
    (level : ℕ) : rewardCount tables.ledger sourceRef level ≤ 1 := by
  obtain ⟨reached, hperm, hsub⟩ := orderRows_levels h sourceRef
  have hlevels : (((orderRows tables.ledger sourceRef).map reachedOf).map Prod.fst).Nodup :=
    (hperm.map Prod.fst).nodup_iff.2
      ((levelsFrom_levels referredBy config.rates 1 _ _).sublist (hsub.map Prod.fst))
  have hcount : rewardCount tables.ledger sourceRef level =
      (orderRows tables.ledger sourceRef).countP fun entry => entry.rewardLevel = some level := by
    unfold rewardCount orderRows
    rw [List.countP_filter]
    congr 1
    funext entry
    simp only [Bool.decide_and]
    cases decide (entry.action = .membershipReward) with
    | false => simp
    | true => simp [Bool.and_comm]
  have hle : ((orderRows tables.ledger sourceRef).countP fun entry =>
      entry.rewardLevel = some level) ≤
      (((orderRows tables.ledger sourceRef).map reachedOf).map Prod.fst).count level := by
    rw [List.map_map]
    unfold List.count
    rw [List.countP_map]
    refine List.countP_mono_left ?_
    intro entry _ hlevel
    have hsome : entry.rewardLevel = some level := of_decide_eq_true hlevel
    simp [reachedOf, hsome]
  rw [hcount]
  exact hle.trans (List.nodup_iff_count_le_one.1 hlevels level)

theorem reward_total (h : RewardsSound config referredBy sales tables) {sourceRef : String}
    (hprice : 0 ≤ (sales sourceRef).priceUsd) :
    rewardTotal tables.ledger sourceRef ≤ (sales sourceRef).priceUsd := by
  obtain ⟨reached, hperm, hsub⟩ := orderRows_levels h sourceRef
  obtain ⟨hrates, hhundred⟩ := rates_valid config
  have hcents := money_nonneg hprice
  generalize hshare : (fun reached : ℕ × ℕ × Amount =>
    money (money (sales sourceRef).priceUsd * reached.2.2 / 100)) = share
  have hinitial := levelsFrom_rates referredBy config.rates 1
    (referredBy (sales sourceRef).buyerId) [(sales sourceRef).buyerId]
  have hnonneg : ∀ reached ∈ levelsOf config referredBy (sales sourceRef), 0 ≤ reached.2.2 := by
    intro reached hreached
    exact hrates _ (hinitial.subset (List.mem_map_of_mem hreached))
  calc rewardTotal tables.ledger sourceRef
      = (((orderRows tables.ledger sourceRef).map reachedOf).map share).sum := by
        rw [List.map_map]
        unfold rewardTotal
        refine congrArg List.sum (List.map_congr_left ?_)
        intro entry hentry
        obtain ⟨href, hreward⟩ := orderRows_reward h sourceRef entry hentry
        rw [hreward.amount, href, ← hshare]
        rfl
    _ = (reached.map share).sum := (hperm.map share).sum_eq
    _ ≤ ((levelsOf config referredBy (sales sourceRef)).map share).sum := by
        refine (hsub.map share).sum_le_sum ?_
        intro amount hamount
        obtain ⟨reached, hreached, rfl⟩ := List.mem_map.1 hamount
        rw [← hshare]
        exact money_nonneg (div_nonneg (mul_nonneg hcents (hnonneg reached hreached)) (by norm_num))
    _ ≤ ((levelsOf config referredBy (sales sourceRef)).map fun reached =>
          money (sales sourceRef).priceUsd / 100 * reached.2.2).sum := by
        refine List.sum_le_sum ?_
        intro reached hreached
        rw [← hshare]
        refine (money_le (div_nonneg (mul_nonneg hcents (hnonneg reached hreached))
          (by norm_num))).trans (le_of_eq ?_)
        ring
    _ = money (sales sourceRef).priceUsd / 100 *
          ((levelsOf config referredBy (sales sourceRef)).map fun reached => reached.2.2).sum :=
        List.sum_map_mul_left _ _ _
    _ ≤ money (sales sourceRef).priceUsd / 100 * 100 := by
        refine mul_le_mul_of_nonneg_left ?_ (div_nonneg hcents (by norm_num))
        exact (hinitial.sublist.sum_le_sum hrates).trans hhundred
    _ ≤ (sales sourceRef).priceUsd := by
        rw [div_mul_cancel₀ _ (by norm_num)]
        exact money_le hprice

end Sound

/-! ## Any sequence of operations -/

/-- What the account of a user says. -/
structure AccountBalanced (tables : RewardTables) (userId : ℕ) : Prop where
  ledgered : Ledgered tables userId
  available : 0 ≤ (tables.accounts userId).availableBalance
  pendingReward : 0 ≤ (tables.accounts userId).pendingRewardBalance
  pendingWithdrawal : 0 ≤ (tables.accounts userId).pendingWithdrawalBalance

theorem accountBalanced {config : ReferralConfig} {referredBy : ℕ → Option ℕ}
    {sales : String → MembershipSale} {tables : RewardTables}
    (h : RewardsSound config referredBy sales tables) (userId : ℕ) :
    AccountBalanced tables userId := by
  refine ⟨h.ledgered userId, h.available userId, ?_, ?_⟩
  · rw [h.held]
    refine List.sum_nonneg ?_
    intro amount hamount
    obtain ⟨entry, hentry, rfl⟩ := List.mem_map.1 hamount
    unfold heldAmount
    split_ifs with hrow
    · obtain ⟨reached, hreached⟩ := h.rewards entry hentry hrow.2.1
      exact hreached.positive.le
    · exact le_rfl
  · rw [h.frozen]
    refine List.sum_nonneg ?_
    intro amount hamount
    obtain ⟨withdrawal, hwithdrawal, rfl⟩ := List.mem_map.1 hamount
    unfold frozenAmount
    split_ifs
    · exact (h.withdrawals withdrawal hwithdrawal).1.le
    · exact le_rfl

/-- After any operations every account is balanced, an order has rewarded each level at most once
and no more than its price in all, and a withdrawal has been paid or rejected once if it is decided
and never if it is not. -/
theorem referral_accounts_balance (config : ReferralConfig) (referredBy : ℕ → Option ℕ)
    (sales : String → MembershipSale) (operations : List ReferralOperation) :
    let tables := runActions (referralStep config referredBy sales) {} operations
    (∀ userId, AccountBalanced tables userId) ∧
    (∀ sourceRef level, rewardCount tables.ledger sourceRef level ≤ 1) ∧
    (∀ sourceRef, 0 ≤ (sales sourceRef).priceUsd →
      rewardTotal tables.ledger sourceRef ≤ (sales sourceRef).priceUsd) ∧
    ∀ (id : ℕ) withdrawal, tables.withdrawals[id]? = some withdrawal →
      decisions tables.ledger id = if WithdrawalDecided withdrawal.status then 1 else 0 := by
  have hsound : RewardsSound config referredBy sales
      (runActions (referralStep config referredBy sales) {} operations) := by
    have hany : Along (referralStep config referredBy sales) (fun _ _ => True) {} operations :=
      along_of_forall (fun _ _ => trivial) _ operations
    exact hany.invariant (I := RewardsSound config referredBy sales)
      (fun _ operation hkept _ => referral_sound_step hkept operation)
      (referral_start config referredBy sales)
  refine ⟨accountBalanced hsound, reward_once hsound, fun _ hprice => reward_total hsound hprice, ?_⟩
  intro id withdrawal hwithdrawal
  rw [hsound.decided id, hwithdrawal]

end QuantDinger.Analysis
