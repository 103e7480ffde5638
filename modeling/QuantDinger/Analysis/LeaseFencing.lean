import QuantDinger.Library.Runs
import QuantDinger.Model.RuntimeLease

/-!
# Fencing by the runtime lease

The token of the lease row grows whenever the lease changes hands, so the grants of a strategy are
ordered by their tokens. What the row forgets when the clean-up deletes it is the token: the next
acquisition starts at 1 again. A history is fenced in every state it reaches exactly when no
acquisition finds the row missing after the lease had been granted to another owner or with
another token.
-/

namespace QuantDinger.Analysis

open QuantDinger.Library
open QuantDinger.Model
open QuantDinger.Model.Live

/-! ## Fencing -/

/-- A grant comes after an earlier one: its token is not smaller, and larger for another owner. -/
def Supersedes (later earlier : Grant) : Prop :=
  earlier.token ≤ later.token ∧ (earlier.owner ≠ later.owner → earlier.token < later.token)

/-- The lease of a strategy is safe. -/
structure Fenced (store : LeaseStore) : Prop where
  single : ∀ now owner other seconds seconds',
    (store.renewStrategyLease now owner seconds).2 = true →
    (store.renewStrategyLease now other seconds').2 = true → owner = other
  tokens : store.grants.Pairwise Supersedes
  claims : ∀ now orderId order row, ∀ grant ∈ store.grants, ∀ owner : WorkerId,
    store.orders orderId = some order → order.runtimeFencingToken = grant.token →
    store.lease = some row → row.ownerId = owner.text →
    (store.claimPendingOrder now orderId).2 = true → grant.owner = owner
  checkpoints : ∀ now strategyRunId stateJson status lastExecutionEventId,
    (store.checkpointLease now).isSome →
    (store.checkpoint now strategyRunId stateJson status lastExecutionEventId).2 = true

/-- An acquisition that finds no row comes after grants of the token 1 to the same owner only. -/
def KeepsToken (store : LeaseStore) (event : LeaseEvent) : Prop :=
  match event.action with
  | .acquire owner _ => store.lease = none → ∀ grant ∈ store.grants, grant = ⟨owner, 1⟩
  | _ => True

instance (store : LeaseStore) (event : LeaseEvent) : Decidable (KeepsToken store event) := by
  unfold KeepsToken
  cases event.action <;> infer_instance

/-! ## The invariant -/

theorem workerId_ext {owner other : WorkerId} (h : owner.text = other.text) : owner = other := by
  cases owner
  cases other
  cases h
  rfl

/-- INTERNAL: the row, the grants and the checkpoint fit together. -/
structure LeaseSound (store : LeaseStore) : Prop where
  positive : ∀ grant ∈ store.grants, 1 ≤ grant.token
  tokens : store.grants.Pairwise Supersedes
  below : ∀ row, store.lease = some row → ∀ grant ∈ store.grants,
    grant.token ≤ row.fencingToken ∧
      (grant.token = row.fencingToken → row.ownerId = "" ∨ row.ownerId = grant.owner.text)
  rowPositive : ∀ row, store.lease = some row → 1 ≤ row.fencingToken
  held : ∀ row, store.lease = some row → row.ownerId ≠ "" →
    ∃ grant ∈ store.grants, grant.token = row.fencingToken
  saved : ∀ saved, store.checkpointRow = some saved →
    ∃ grant ∈ store.grants, grant.token = saved.fencingToken

theorem LeaseSound.write {store : LeaseStore} (h : LeaseSound store) {row next : LeaseRow}
    (hrow : store.lease = some row)
    (hnext : (next.fencingToken = row.fencingToken ∧
        (next.ownerId = row.ownerId ∨ next.ownerId = "")) ∨
      (next.fencingToken = row.fencingToken + 1 ∧ next.ownerId = "")) :
    LeaseSound { store with lease := some next } := by
  refine ⟨h.positive, h.tokens, ?_, ?_, ?_, h.saved⟩
  · intro row' hrow' grant hgrant
    cases hrow'
    obtain ⟨hle, howner⟩ := h.below row hrow grant hgrant
    rcases hnext with ⟨htoken, hsame | hnobody⟩ | ⟨htoken, hnobody⟩
    · rw [htoken, hsame]
      exact ⟨hle, howner⟩
    · rw [htoken]
      exact ⟨hle, fun _ => Or.inl hnobody⟩
    · rw [htoken]
      exact ⟨by omega, fun _ => Or.inl hnobody⟩
  · intro row' hrow'
    cases hrow'
    have hpositive := h.rowPositive row hrow
    rcases hnext with ⟨htoken, -⟩ | ⟨htoken, -⟩
    · omega
    · omega
  · intro row' hrow' howned
    cases hrow'
    rcases hnext with ⟨htoken, hsame | hnobody⟩ | ⟨-, hnobody⟩
    · rw [htoken]
      exact h.held row hrow (hsame ▸ howned)
    · exact absurd hnobody howned
    · exact absurd hnobody howned

theorem LeaseSound.grant {store : LeaseStore} (h : LeaseSound store) (owner : WorkerId)
    (token : ℕ) (expires : Time) (hpositive : 1 ≤ token)
    (hnew : ∀ grant ∈ store.grants, Supersedes ⟨owner, token⟩ grant) :
    LeaseSound { store with
      lease := some ⟨owner.text, token, expires⟩
      grants := ⟨owner, token⟩ :: store.grants } := by
  refine ⟨?_, ?_, ?_, ?_, ?_, ?_⟩
  · intro grant hgrant
    rcases List.mem_cons.mp hgrant with rfl | hbefore
    · exact hpositive
    · exact h.positive grant hbefore
  · exact List.pairwise_cons.mpr ⟨hnew, h.tokens⟩
  · intro row hrow grant hgrant
    cases hrow
    rcases List.mem_cons.mp hgrant with rfl | hbefore
    · exact ⟨le_rfl, fun _ => Or.inr rfl⟩
    · obtain ⟨hle, hlt⟩ := hnew grant hbefore
      refine ⟨hle, fun hsame => Or.inr ?_⟩
      by_contra hother
      have hsmaller : grant.token < token := hlt fun howner => hother (howner ▸ rfl)
      exact hsmaller.ne hsame
  · intro row hrow
    cases hrow
    exact hpositive
  · intro row hrow _
    cases hrow
    exact ⟨_, List.mem_cons_self, rfl⟩
  · intro saved hsaved
    obtain ⟨grant, hgrant, htoken⟩ := h.saved saved hsaved
    exact ⟨grant, List.mem_cons_of_mem _ hgrant, htoken⟩

/-! ## Statements -/

theorem sound_acquire {store : LeaseStore} (h : LeaseSound store) (now : Time) (owner : WorkerId)
    (leaseSeconds : ℤ)
    (hkeeps : store.lease = none → ∀ grant ∈ store.grants, grant = ⟨owner, 1⟩) :
    LeaseSound (store.acquireStrategyLease now owner leaseSeconds).1 := by
  unfold LeaseStore.acquireStrategyLease
  cases hlease : store.lease with
  | none =>
    apply h.grant owner 1 _ le_rfl
    intro grant hgrant
    rw [hkeeps hlease grant hgrant]
    exact ⟨le_rfl, fun hother => absurd rfl hother⟩
  | some row =>
    dsimp only
    by_cases hsame : row.ownerId = owner.text
    · rw [if_pos hsame]
      apply h.grant owner _ _ (h.rowPositive row hlease)
      intro grant hgrant
      obtain ⟨hle, howner⟩ := h.below row hlease grant hgrant
      refine ⟨hle, fun hother => lt_of_le_of_ne hle fun htoken => ?_⟩
      rcases howner htoken with hnobody | hgranted
      · exact owner.nonempty (hsame.symm.trans hnobody)
      · exact hother (workerId_ext (hgranted.symm.trans hsame))
    · rw [if_neg hsame]
      by_cases hexpired : row.leaseExpiresAt < now
      · rw [if_pos hexpired]
        apply h.grant owner _ _ (by omega)
        intro grant hgrant
        have hle := (h.below row hlease grant hgrant).1
        exact ⟨Nat.le_succ_of_le hle, fun _ => Nat.lt_succ_of_le hle⟩
      · rw [if_neg hexpired]
        exact h

theorem sound_renew {store : LeaseStore} (h : LeaseSound store) (now : Time) (owner : WorkerId)
    (leaseSeconds : ℤ) : LeaseSound (store.renewStrategyLease now owner leaseSeconds).1 := by
  unfold LeaseStore.renewStrategyLease
  cases hlease : store.lease with
  | none => exact h
  | some row =>
    dsimp only
    split_ifs
    · exact h.write hlease (Or.inl ⟨rfl, Or.inl rfl⟩)
    · exact h

theorem sound_release {store : LeaseStore} (h : LeaseSound store) (now : Time) (owner : WorkerId) :
    LeaseSound (store.releaseStrategyLease now owner) := by
  unfold LeaseStore.releaseStrategyLease
  cases hlease : store.lease with
  | none => exact h
  | some row =>
    dsimp only
    split_ifs
    · exact h.write hlease (Or.inl ⟨rfl, Or.inr rfl⟩)
    · exact h

theorem sound_revoke {store : LeaseStore} (h : LeaseSound store) (now : Time) :
    LeaseSound (store.revokeStrategyLease now).1 := by
  unfold LeaseStore.revokeStrategyLease
  cases hlease : store.lease with
  | none => exact h
  | some row => exact h.write hlease (Or.inr ⟨rfl, rfl⟩)

theorem sound_cleanup {store : LeaseStore} (h : LeaseSound store) (now : Time) :
    LeaseSound (store.cleanupRuntimeMetadata now) := by
  unfold LeaseStore.cleanupRuntimeMetadata
  cases hlease : store.lease with
  | none => exact h
  | some row =>
    dsimp only
    split_ifs
    · refine ⟨h.positive, h.tokens, ?_, ?_, ?_, h.saved⟩
      · intro gone hgone
        exact nomatch hgone
      · intro gone hgone
        exact nomatch hgone
      · intro gone hgone
        exact nomatch hgone
    · exact h

theorem LeaseSound.orders {store : LeaseStore} (h : LeaseSound store)
    (orders : ℕ → Option FencedOrder) : LeaseSound { store with orders := orders } :=
  ⟨h.positive, h.tokens, h.below, h.rowPositive, h.held, h.saved⟩

theorem sound_claim {store : LeaseStore} (h : LeaseSound store) (now : Time) (orderId : ℕ) :
    LeaseSound (store.claimPendingOrder now orderId).1 := by
  unfold LeaseStore.claimPendingOrder
  cases store.orders orderId with
  | none => exact h
  | some order =>
    dsimp only
    split_ifs
    · exact h
    · exact h.orders _
    · exact h.orders _

theorem checkpointLease_some {store : LeaseStore} {now : Time} {lease : LeaseRow}
    (h : store.checkpointLease now = some lease) : store.lease = some lease ∧ lease.ownerId ≠ "" := by
  unfold LeaseStore.checkpointLease at h
  obtain ⟨hlease, hheld⟩ := Option.filter_eq_some_iff.mp h
  simp only [decide_eq_true_eq] at hheld
  exact ⟨hlease, hheld.1⟩

theorem sound_checkpoint {store : LeaseStore} (h : LeaseSound store) (now : Time)
    (strategyRunId : ℕ) (stateJson status : String) (lastExecutionEventId : ℕ) :
    LeaseSound (store.checkpoint now strategyRunId stateJson status lastExecutionEventId).1 := by
  unfold LeaseStore.checkpoint
  cases hlease : store.checkpointLease now with
  | none => exact h
  | some lease =>
    obtain ⟨hrow, howned⟩ := checkpointLease_some hlease
    have hgranted := h.held lease hrow howned
    dsimp only
    cases hsaved : store.checkpointRow with
    | none =>
      refine ⟨h.positive, h.tokens, h.below, h.rowPositive, h.held, ?_⟩
      intro saved hwritten
      cases hwritten
      exact hgranted
    | some before =>
      dsimp only
      by_cases hle : before.fencingToken ≤ lease.fencingToken
      · rw [if_pos hle]
        refine ⟨h.positive, h.tokens, h.below, h.rowPositive, h.held, ?_⟩
        intro saved hwritten
        cases hwritten
        exact hgranted
      · rw [if_neg hle]
        exact h

theorem sound_step {store : LeaseStore} (event : LeaseEvent) (h : LeaseSound store)
    (hkeeps : KeepsToken store event) : LeaseSound (store.step event) := by
  obtain ⟨now, action⟩ := event
  cases action with
  | acquire owner leaseSeconds => exact sound_acquire h now owner leaseSeconds hkeeps
  | renew owner leaseSeconds => exact sound_renew h now owner leaseSeconds
  | release owner => exact sound_release h now owner
  | revoke => exact sound_revoke h now
  | cleanup => exact sound_cleanup h now
  | place orderId order => exact h.orders _
  | claim orderId => exact sound_claim h now orderId
  | save strategyRunId stateJson status lastExecutionEventId =>
    exact sound_checkpoint h now strategyRunId stateJson status lastExecutionEventId

/-! ## Safety -/

theorem renew_owner {store : LeaseStore} {now : Time} {owner : WorkerId} {leaseSeconds : ℤ}
    (h : (store.renewStrategyLease now owner leaseSeconds).2 = true) :
    ∃ row, store.lease = some row ∧ row.ownerId = owner.text := by
  unfold LeaseStore.renewStrategyLease at h
  cases hlease : store.lease with
  | none =>
    rw [hlease] at h
    exact nomatch h
  | some row =>
    rw [hlease] at h
    dsimp only at h
    by_cases howner : row.ownerId = owner.text ∧ now ≤ row.leaseExpiresAt
    · exact ⟨row, rfl, howner.1⟩
    · rw [if_neg howner] at h
      exact nomatch h

theorem claim_token {store : LeaseStore} {now : Time} {orderId : ℕ} {order : FencedOrder}
    {row : LeaseRow} (horder : store.orders orderId = some order)
    (hfenced : 1 ≤ order.runtimeFencingToken) (hlease : store.lease = some row)
    (h : (store.claimPendingOrder now orderId).2 = true) :
    row.fencingToken = order.runtimeFencingToken := by
  unfold LeaseStore.claimPendingOrder at h
  rw [horder] at h
  dsimp only at h
  by_cases hstatus : order.status ≠ .pending
  · rw [if_pos hstatus] at h
    exact nomatch h
  rw [if_neg hstatus] at h
  by_cases hcurrent : store.FenceCurrent now order
  · rcases hcurrent with hnone | ⟨current, hcurrent, htoken, -⟩
    · omega
    · rw [hlease] at hcurrent
      cases hcurrent
      exact htoken
  · rw [if_neg hcurrent] at h
    exact nomatch h

theorem fenced_of_sound {store : LeaseStore} (h : LeaseSound store) : Fenced store := by
  refine ⟨?_, h.tokens, ?_, ?_⟩
  · intro now owner other seconds seconds' howner hother
    obtain ⟨row, hrow, hname⟩ := renew_owner howner
    obtain ⟨row', hrow', hname'⟩ := renew_owner hother
    rw [hrow] at hrow'
    cases hrow'
    exact workerId_ext (hname.symm.trans hname')
  · intro now orderId order row grant hgrant owner horder hstamp hlease howned hclaim
    have htoken := claim_token horder (hstamp ▸ h.positive grant hgrant) hlease hclaim
    obtain ⟨-, howner⟩ := h.below row hlease grant hgrant
    rcases howner (hstamp.symm.trans htoken.symm) with hnobody | hgranted
    · exact absurd (howned.symm.trans hnobody) owner.nonempty
    · exact workerId_ext (hgranted.symm.trans howned)
  · intro now strategyRunId stateJson status lastExecutionEventId hheld
    obtain ⟨lease, hlease⟩ := Option.isSome_iff_exists.mp hheld
    obtain ⟨hrow, -⟩ := checkpointLease_some hlease
    unfold LeaseStore.checkpoint
    rw [hlease]
    dsimp only
    cases hsaved : store.checkpointRow with
    | none => rfl
    | some saved =>
      obtain ⟨grant, hgrant, htoken⟩ := h.saved saved hsaved
      have hle : saved.fencingToken ≤ lease.fencingToken :=
        htoken ▸ (h.below lease hrow grant hgrant).1
      dsimp only
      rw [if_pos hle]

theorem keepsToken_of_fenced {store : LeaseStore} {event : LeaseEvent} (h : LeaseSound store)
    (hfenced : Fenced (store.step event)) : KeepsToken store event := by
  obtain ⟨now, action⟩ := event
  cases action with
  | acquire owner leaseSeconds =>
    intro hnone grant hgrant
    have htokens := hfenced.tokens
    unfold LeaseStore.step LeaseStore.acquireStrategyLease at htokens
    simp only [hnone] at htokens
    obtain ⟨hle, hlt⟩ := (List.pairwise_cons.mp htokens).1 grant hgrant
    have hpositive := h.positive grant hgrant
    have htoken : grant.token = 1 := le_antisymm hle hpositive
    have howner : grant.owner = owner := by
      by_contra hother
      exact absurd (hlt hother) (by simp only; omega)
    cases grant
    cases htoken
    cases howner
    rfl
  | renew owner leaseSeconds => trivial
  | release owner => trivial
  | revoke => trivial
  | cleanup => trivial
  | place orderId order => trivial
  | claim orderId => trivial
  | save strategyRunId stateJson status lastExecutionEventId => trivial

/-! ## Main theorem -/

/-- A strategy whose lease was never granted, with any pending orders. -/
def unleased (orders : ℕ → Option FencedOrder) : LeaseStore := { orders := orders }

theorem sound_unleased (orders : ℕ → Option FencedOrder) : LeaseSound (unleased orders) := by
  refine ⟨?_, List.Pairwise.nil, ?_, ?_, ?_, ?_⟩
  · intro grant hgrant
    exact absurd hgrant List.not_mem_nil
  · intro row hrow
    exact nomatch hrow
  · intro row hrow
    exact nomatch hrow
  · intro row hrow
    exact nomatch hrow
  · intro saved hsaved
    exact nomatch hsaved

theorem fenced_run {store : LeaseStore} (h : LeaseSound store) (events : List LeaseEvent) :
    (∀ before after, events = before ++ after →
      Fenced (runActions LeaseStore.step store before)) ↔
    Along LeaseStore.step KeepsToken store events := by
  induction events generalizing store with
  | nil =>
    refine ⟨fun _ => trivial, ?_⟩
    intro _ before after hsplit
    obtain ⟨rfl, -⟩ := List.append_eq_nil_iff.mp hsplit.symm
    exact fenced_of_sound h
  | cons event events ih =>
    constructor
    · intro hfenced
      have hkeeps : KeepsToken store event :=
        keepsToken_of_fenced h (hfenced [event] events rfl)
      refine ⟨hkeeps, (ih (sound_step event h hkeeps)).mp ?_⟩
      intro before after hsplit
      exact hfenced (event :: before) after (by rw [hsplit]; rfl)
    · rintro ⟨hkeeps, hrest⟩ before after hsplit
      cases before with
      | nil => exact fenced_of_sound h
      | cons first before =>
        obtain ⟨rfl, hrest'⟩ := List.cons.inj hsplit
        exact (ih (sound_step event h hkeeps)).mpr hrest before after hrest'

/-- A history is fenced in every state it reaches exactly when no acquisition finds the token of an
earlier grant forgotten. -/
theorem lease_fenced_iff (orders : ℕ → Option FencedOrder) (events : List LeaseEvent) :
    (∀ before after, events = before ++ after →
      Fenced (runActions LeaseStore.step (unleased orders) before)) ↔
    Along LeaseStore.step KeepsToken (unleased orders) events :=
  fenced_run (sound_unleased orders) events

def workerA : WorkerId := ⟨"worker-a", by decide⟩

def workerB : WorkerId := ⟨"worker-b", by decide⟩

/-- The first worker's lease expires, its row is cleaned up a day later, the second one acquires
it. -/
def cleanedUp : List LeaseEvent :=
  [⟨0, .acquire workerA 60⟩, ⟨0, .place 1 { status := .pending, runtimeFencingToken := 1 }⟩,
    ⟨61 * oneSecond + oneDay, .cleanup⟩, ⟨61 * oneSecond + oneDay, .acquire workerB 60⟩]

/-- The second worker claims the order of the first one: both hold the token 1. -/
theorem cleaned_up_token_is_reused :
    ¬ ∀ before after, cleanedUp = before ++ after →
      Fenced (runActions LeaseStore.step (unleased fun _ => none) before) := by
  intro h
  have hfenced := h cleanedUp [] (List.append_nil _).symm
  have hclaim := hfenced.claims (61 * oneSecond + oneDay) 1
    { status := .pending, runtimeFencingToken := 1 }
    ⟨"worker-b", 1, 121 * oneSecond + oneDay⟩ ⟨workerA, 1⟩ (by decide) workerB rfl rfl
    (by decide) rfl (by decide)
  exact absurd hclaim (by decide)

end QuantDinger.Analysis
