import QuantDinger.Library.Runs
import QuantDinger.Model.EventInbox

/-!
# Acknowledged batches

What a call of an evaluator does to the inbox: it claims a row that is not finished, it reports on
the row it has claimed, or it leaves the inbox as it is. So finished rows stay, the attempts of a
row count its claims, and an evaluator whose claim was taken over is no longer the one that the
row names. Two things need a condition: that a terminal failure is reported in time, since `handle`
returns True for it whether or not the row takes it, and that the attempts it is terminal by are
not claims that were handed back, which count as attempts too.
-/

namespace QuantDinger.Analysis

open QuantDinger.Library
open QuantDinger.Model
open QuantDinger.Model.Live (oneSecond)
open QuantDinger.Model.Events

/-! ## Safe steps -/

def Finished (store : EventStore) (key : InboxKey) : Prop :=
  ∃ row ∈ store.inbox key, row.status.finished = true

instance (store : EventStore) (key : InboxKey) : Decidable (Finished store key) :=
  inferInstanceAs (Decidable (∃ row ∈ store.inbox key, _))

def GivenUp (store : EventStore) (key : InboxKey) : Prop :=
  ∃ row ∈ store.inbox key, row.status = .dead

instance (store : EventStore) (key : InboxKey) : Decidable (GivenUp store key) :=
  inferInstanceAs (Decidable (∃ row ∈ store.inbox key, _))

/-- The claim an evaluator works under, from its claim to its last report. -/
def claimOf : Stage → Option ℕ
  | .acquiring attempts _ _ | .handingBack attempts | .listing attempts _ _
  | .evaluating attempts _ _ | .completing attempts _ | .failing attempts _ _ => some attempts
  | .claiming | .releasing _ _ => none

/-- The next call reports on the claim: it is one of `complete` or `fail`. -/
def reports : Stage → Bool
  | .handingBack _ | .completing _ _ | .failing _ _ _ => true
  | _ => false

variable {config : String → EvaluatorConfig}

/-- What one step may do to the batches. -/
structure StepSafe (config : String → EvaluatorConfig) (pool : EvaluatorPool) (move : PoolMove) :
    Prop where
  absorbing : ∀ key row, pool.store.inbox key = some row → row.status.finished = true →
    (pool.step config move).store.inbox key = some row
  acknowledged : ∀ owner event, event.eventType = evaluateEventType →
    (pool.step config move).acknowledged = (owner, event) :: pool.acknowledged →
    Finished (pool.step config move).store ((config owner).key event)
  superseded : ∀ owner turn handling attempts, move = .advance owner turn →
    pool.working owner = some handling → reports handling.stage = true →
    claimOf handling.stage = some attempts →
    attempts < pool.store.claims.count ((config owner).key handling.event) →
    (pool.step config move).store.inbox = pool.store.inbox
  givenUp : ∀ key, ¬ GivenUp pool.store key → GivenUp (pool.step config move).store key →
    ∃ owner turn, move = .advance owner turn ∧
      (config owner).maxAttempts + pool.store.refusals.count key ≤ pool.store.claims.count key

/-- A terminal failure is reported in time and after enough attempts: the evaluator still has the
row, or it is finished; and where it has the row, the claims that were not handed back are enough. -/
def ReportsInTime (config : String → EvaluatorConfig) (pool : EvaluatorPool) : PoolMove → Prop
  | .advance owner turn =>
    match pool.working owner with
    | some ⟨event, .failing attempts _ _⟩ =>
      (config owner).maxAttempts ≤ attempts →
        (turn.fault = .fine → Finished pool.store ((config owner).key event) ∨
          (pool.store.claimedRow ((config owner).key event) owner).isSome = true) ∧
        ((pool.store.claimedRow ((config owner).key event) owner).isSome = true →
          turn.fault.takesEffect = true →
          (config owner).maxAttempts + pool.store.refusals.count ((config owner).key event) ≤
            pool.store.claims.count ((config owner).key event))
    | _ => True
  | _ => True

instance (pool : EvaluatorPool) (move : PoolMove) : Decidable (ReportsInTime config pool move) := by
  unfold ReportsInTime
  split
  · split <;> infer_instance
  · infer_instance

/-! ## What a call does to the inbox -/

/-- INTERNAL: the changes of a row that a call of an evaluator can make, with what it adds to the
claims. -/
inductive RowChange (owner : String) (key : InboxKey) :
    Option InboxRow → Option InboxRow → List InboxKey → Prop
  | kept (row : Option InboxRow) : RowChange owner key row row []
  | claimed (before : Option InboxRow) (row : InboxRow)
      (hopen : ∀ old ∈ before, old.status.finished = false) (howner : row.claimedBy = owner)
      (hstatus : row.status = .processing)
      (hattempts : row.attempts = (before.map InboxRow.attempts).getD 0 + 1) :
      RowChange owner key before (some row) [key]
  | reported (before row : InboxRow) (hopen : before.status = .processing)
      (hbefore : before.claimedBy = owner) (howner : row.claimedBy = owner)
      (hattempts : row.attempts = before.attempts) :
      RowChange owner key (some before) (some row) []

/-- INTERNAL: a call writes one row at most, and keeps the logs. -/
structure StoreChange (owner : String) (key : InboxKey) (before after : EventStore) : Prop where
  others : ∀ other, other ≠ key → after.inbox other = before.inbox other
  change : ∃ added, RowChange owner key (before.inbox key) (after.inbox key) added ∧
    after.claims = added ++ before.claims

theorem StoreChange.of_inbox {owner : String} {key : InboxKey} {before after : EventStore}
    (hinbox : after.inbox = before.inbox) (hclaims : after.claims = before.claims) :
    StoreChange owner key before after := by
  refine ⟨fun other _ => by rw [hinbox], [], ?_, hclaims⟩
  rw [hinbox]
  exact .kept _

theorem storeChange_setRow {owner : String} {key : InboxKey} {store after : EventStore}
    {row : InboxRow} (added : List InboxKey)
    (hinbox : after.inbox = (store.setRow key row).inbox)
    (hclaims : after.claims = added ++ store.claims)
    (hchange : RowChange owner key (store.inbox key) (some row) added) :
    StoreChange owner key store after := by
  refine ⟨?_, added, ?_, hclaims⟩
  · intro other hother
    rw [hinbox]
    exact Function.update_of_ne hother _ _
  · have hrow : after.inbox key = some row := by
      rw [hinbox]
      exact Function.update_self key _ _
    rw [hrow]
    exact hchange

theorem claim_change (store : EventStore) (now : Time) (key : InboxKey) (owner : String)
    (leaseSeconds : ℤ) : StoreChange owner key store (store.claim now key owner leaseSeconds).1 := by
  unfold EventStore.claim
  cases hrow : store.inbox key with
  | none =>
    refine storeChange_setRow [key] rfl rfl ?_
    rw [hrow]
    exact .claimed none _ (fun _ hold => nomatch hold) rfl rfl rfl
  | some row =>
    dsimp only
    by_cases hclaim : EventStore.Claimable now owner row
    · rw [if_pos hclaim]
      refine storeChange_setRow [key] rfl rfl ?_
      rw [hrow]
      refine .claimed (some row) _ ?_ rfl rfl rfl
      intro old hold
      cases hold
      rcases hclaim.1 with hprocessing | hfailed
      · rw [hprocessing]
        rfl
      · rw [hfailed]
        rfl
    · rw [if_neg hclaim]
      exact .of_inbox rfl rfl

theorem claimedRow_some {store : EventStore} {key : InboxKey} {owner : String} {row : InboxRow}
    (h : store.claimedRow key owner = some row) :
    store.inbox key = some row ∧ row.status = .processing ∧ row.claimedBy = owner := by
  unfold EventStore.claimedRow at h
  obtain ⟨hrow, hheld⟩ := Option.filter_eq_some_iff.mp h
  simp only [decide_eq_true_eq] at hheld
  exact ⟨hrow, hheld⟩

theorem complete_change (store : EventStore) (now : Time) (key : InboxKey) (owner : String) :
    StoreChange owner key store (store.complete now key owner).1 := by
  unfold EventStore.complete
  cases hclaimed : store.claimedRow key owner with
  | none => exact .of_inbox rfl rfl
  | some row =>
    obtain ⟨hrow, hopen, howner⟩ := claimedRow_some hclaimed
    refine storeChange_setRow [] rfl rfl ?_
    rw [hrow]
    exact .reported row _ hopen howner howner rfl

theorem fail_change (store : EventStore) (now : Time) (key : InboxKey) (owner error : String)
    (terminal : Bool) :
    StoreChange owner key store (store.fail now key owner error terminal).1 := by
  unfold EventStore.fail
  cases hclaimed : store.claimedRow key owner with
  | none => exact .of_inbox rfl rfl
  | some row =>
    obtain ⟨hrow, hopen, howner⟩ := claimedRow_some hclaimed
    refine storeChange_setRow [] rfl rfl ?_
    rw [hrow]
    exact .reported row _ hopen howner howner rfl

theorem acquireShard_kept (store : EventStore) (now : Time) (shard : ℤ) (owner : String)
    (leaseSeconds : ℤ) :
    (store.acquireShard now shard owner leaseSeconds).1.inbox = store.inbox ∧
      (store.acquireShard now shard owner leaseSeconds).1.claims = store.claims := by
  unfold EventStore.acquireShard
  cases store.shards shard with
  | none => exact ⟨rfl, rfl⟩
  | some lease =>
    dsimp only
    split_ifs
    · exact ⟨rfl, rfl⟩
    · exact ⟨rfl, rfl⟩
    · exact ⟨rfl, rfl⟩

theorem releaseShard_kept (store : EventStore) (now : Time) (shard : ℤ) (owner : String)
    (token : ℕ) :
    (store.releaseShard now shard owner token).inbox = store.inbox ∧
      (store.releaseShard now shard owner token).claims = store.claims := by
  unfold EventStore.releaseShard
  cases store.shards shard with
  | none => exact ⟨rfl, rfl⟩
  | some lease =>
    dsimp only
    split_ifs
    · exact ⟨rfl, rfl⟩
    · exact ⟨rfl, rfl⟩

/-! ## Answers and give-ups -/

theorem claim_finished {store after : EventStore} {now : Time} {key : InboxKey} {owner : String}
    {leaseSeconds : ℤ} {claim : InboxClaim} (hclaim : claim = .completed ∨ claim = .dead)
    (h : store.claim now key owner leaseSeconds = (after, claim)) : Finished after key := by
  unfold EventStore.claim at h
  cases hrow : store.inbox key with
  | none =>
    rw [hrow] at h
    cases h
    rcases hclaim with hclaim | hclaim
    · exact nomatch hclaim
    · exact nomatch hclaim
  | some row =>
    rw [hrow] at h
    dsimp only at h
    by_cases htaken : EventStore.Claimable now owner row
    · rw [if_pos htaken] at h
      cases h
      rcases hclaim with hclaim | hclaim
      · exact nomatch hclaim
      · exact nomatch hclaim
    · rw [if_neg htaken] at h
      refine ⟨row, ?_, ?_⟩
      · rw [← (Prod.mk.inj h).1, hrow]
        rfl
      · have hanswer := (Prod.mk.inj h).2
        cases hstatus : row.status with
        | processing =>
          rw [hstatus] at hanswer
          rcases hclaim with rfl | rfl
          · exact nomatch hanswer
          · exact nomatch hanswer
        | failed =>
          rw [hstatus] at hanswer
          rcases hclaim with rfl | rfl
          · exact nomatch hanswer
          · exact nomatch hanswer
        | completed => rfl
        | dead => rfl

theorem complete_true {store after : EventStore} {now : Time} {key : InboxKey} {owner : String}
    (h : store.complete now key owner = (after, true)) : Finished after key := by
  unfold EventStore.complete at h
  cases hclaimed : store.claimedRow key owner with
  | none =>
    rw [hclaimed] at h
    exact nomatch h
  | some row =>
    rw [hclaimed] at h
    cases h
    exact ⟨_, Function.update_self key _ _, rfl⟩

theorem fail_terminal {store : EventStore} {key : InboxKey} {owner : String} (now : Time)
    (error : String) (h : (store.claimedRow key owner).isSome = true) :
    Finished (store.fail now key owner error true).1 key := by
  obtain ⟨row, hclaimed⟩ := Option.isSome_iff_exists.mp h
  unfold EventStore.fail
  rw [hclaimed]
  exact ⟨_, Function.update_self key _ _, rfl⟩

theorem StoreChange.finished {owner : String} {key other : InboxKey} {before after : EventStore}
    {row : InboxRow} (h : StoreChange owner key before after)
    (hrow : before.inbox other = some row) (hfinished : row.status.finished = true) :
    after.inbox other = some row := by
  by_cases hkey : other = key
  · subst hkey
    obtain ⟨added, hchange, -⟩ := h.change
    rw [hrow] at hchange
    generalize after.inbox other = next at hchange
    cases hchange with
    | kept => rfl
    | claimed _ _ hopen =>
      rw [hopen row rfl] at hfinished
      exact nomatch hfinished
    | reported _ _ hopen =>
      rw [hopen] at hfinished
      exact nomatch hfinished
  · rw [h.others other hkey]
    exact hrow

theorem StoreChange.keeps_finished {owner : String} {key other : InboxKey}
    {before after : EventStore} (h : StoreChange owner key before after)
    (hfinished : Finished before other) : Finished after other := by
  obtain ⟨row, hrow, hstatus⟩ := hfinished
  exact ⟨row, h.finished hrow hstatus, hstatus⟩

theorem givenUp_setRow (store : EventStore) {key other : InboxKey} {row : InboxRow}
    (h : GivenUp (store.setRow key row) other) :
    GivenUp store other ∨ (other = key ∧ row.status = .dead) := by
  obtain ⟨found, hfound, hdead⟩ := h
  by_cases hkey : other = key
  · subst hkey
    have hrow := (Function.update_self other _ _).symm.trans hfound
    cases hrow
    exact Or.inr ⟨rfl, hdead⟩
  · exact Or.inl ⟨found, (Function.update_of_ne hkey _ _).symm.trans hfound, hdead⟩

theorem givenUp_claim {store : EventStore} {now : Time} {key other : InboxKey} {owner : String}
    {leaseSeconds : ℤ} (h : GivenUp (store.claim now key owner leaseSeconds).1 other) :
    GivenUp store other := by
  unfold EventStore.claim at h
  cases hrow : store.inbox key with
  | none =>
    rw [hrow] at h
    rcases givenUp_setRow store h with hbefore | ⟨-, hdead⟩
    · exact hbefore
    · exact nomatch hdead
  | some row =>
    rw [hrow] at h
    dsimp only at h
    by_cases htaken : EventStore.Claimable now owner row
    · rw [if_pos htaken] at h
      rcases givenUp_setRow store h with hbefore | ⟨-, hdead⟩
      · exact hbefore
      · exact nomatch hdead
    · rw [if_neg htaken] at h
      exact h

theorem givenUp_complete {store : EventStore} {now : Time} {key other : InboxKey} {owner : String}
    (h : GivenUp (store.complete now key owner).1 other) : GivenUp store other := by
  unfold EventStore.complete at h
  cases hclaimed : store.claimedRow key owner with
  | none =>
    rw [hclaimed] at h
    exact h
  | some row =>
    rw [hclaimed] at h
    rcases givenUp_setRow store h with hbefore | ⟨-, hdead⟩
    · exact hbefore
    · exact nomatch hdead

theorem givenUp_fail {store : EventStore} {now : Time} {key other : InboxKey}
    {owner error : String} {terminal : Bool}
    (h : GivenUp (store.fail now key owner error terminal).1 other) :
    GivenUp store other ∨
      (terminal = true ∧ other = key ∧ (store.claimedRow key owner).isSome = true) := by
  unfold EventStore.fail at h
  cases hclaimed : store.claimedRow key owner with
  | none =>
    rw [hclaimed] at h
    exact Or.inl h
  | some row =>
    rw [hclaimed] at h
    rcases givenUp_setRow store h with hbefore | ⟨hkey, hdead⟩
    · exact Or.inl hbefore
    · cases terminal with
      | true => exact Or.inr ⟨rfl, hkey, rfl⟩
      | false => exact nomatch hdead

/-! ## Counting claims -/

def Counted (store : EventStore) : Prop :=
  ∀ key, store.claims.count key = ((store.inbox key).map InboxRow.attempts).getD 0

theorem RowChange.added_count {owner : String} {key other : InboxKey}
    {before after : Option InboxRow} {added : List InboxKey}
    (h : RowChange owner key before after added) (hother : other ≠ key) :
    added.count other = 0 := by
  cases h with
  | kept => rfl
  | claimed => exact List.count_eq_zero.mpr fun hmem => hother (List.mem_singleton.mp hmem)
  | reported => rfl

theorem Counted.change {owner : String} {key : InboxKey} {store after : EventStore}
    (hcounted : Counted store) (h : StoreChange owner key store after) : Counted after := by
  intro other
  obtain ⟨added, hchange, hclaims⟩ := h.change
  rw [hclaims, List.count_append]
  by_cases hkey : other = key
  · subst hkey
    have hbefore := hcounted other
    generalize store.inbox other = before at hbefore hchange
    generalize after.inbox other = next at hchange
    cases hchange with
    | kept =>
      rw [List.count_nil, Nat.zero_add]
      exact hbefore
    | claimed _ row _ _ _ hattempts =>
      rw [List.count_singleton_self, hbefore, Option.map_some, Option.getD_some, hattempts]
      omega
    | reported _ row _ _ _ hattempts =>
      rw [List.count_nil, Nat.zero_add, hbefore, Option.map_some, Option.map_some, hattempts]
  · rw [hchange.added_count hkey, Nat.zero_add, h.others other hkey]
    exact hcounted other

theorem claim_acquired {store after : EventStore} {now : Time} {key : InboxKey} {owner : String}
    {leaseSeconds : ℤ} {attempts : ℕ} (hcounted : Counted store)
    (h : store.claim now key owner leaseSeconds = (after, .acquired attempts)) :
    attempts = after.claims.count key := by
  have hbefore := hcounted key
  unfold EventStore.claim at h
  cases hrow : store.inbox key with
  | none =>
    rw [hrow] at h hbefore
    cases h
    show 1 = (key :: store.claims).count key
    rw [List.count_cons_self, hbefore]
    rfl
  | some row =>
    rw [hrow] at h hbefore
    dsimp only at h
    by_cases htaken : EventStore.Claimable now owner row
    · rw [if_pos htaken] at h
      cases h
      show row.attempts + 1 = (key :: store.claims).count key
      rw [List.count_cons_self, hbefore]
      rfl
    · rw [if_neg htaken] at h
      have hanswer := (Prod.mk.inj h).2
      cases hstatus : row.status with
      | processing =>
        rw [hstatus] at hanswer
        exact nomatch hanswer
      | failed =>
        rw [hstatus] at hanswer
        exact nomatch hanswer
      | completed =>
        rw [hstatus] at hanswer
        exact nomatch hanswer
      | dead =>
        rw [hstatus] at hanswer
        exact nomatch hanswer

/-- The evaluator works under this claim of the batch: where it is not the last one, the row names
somebody else. -/
structure UnderClaim (store : EventStore) (owner : String) (key : InboxKey) (attempts : ℕ) :
    Prop where
  made : attempts ≤ store.claims.count key
  taken : attempts < store.claims.count key → ∀ row ∈ store.inbox key, row.claimedBy ≠ owner

theorem UnderClaim.change {store after : EventStore} {owner other : String}
    {key written : InboxKey} {attempts : ℕ} (h : UnderClaim store owner key attempts)
    (hchange : StoreChange other written store after)
    (hapart : owner ≠ other ∨ after.claims = store.claims) :
    UnderClaim after owner key attempts := by
  obtain ⟨added, hrow, hclaims⟩ := hchange.change
  by_cases hkey : key = written
  · subst hkey
    have htaken := h.taken
    generalize hbefore : store.inbox key = before at hrow htaken
    generalize hnext : after.inbox key = next at hrow
    cases hrow with
    | kept =>
      rw [List.nil_append] at hclaims
      refine ⟨by rw [hclaims]; exact h.made, ?_⟩
      rw [hclaims, hnext]
      exact htaken
    | claimed _ row _ howner _ _ =>
      rcases hapart with hne | hsame
      · refine ⟨?_, ?_⟩
        · rw [hclaims, List.singleton_append, List.count_cons_self]
          exact Nat.le_succ_of_le h.made
        · intro _ found hfound
          rw [hnext] at hfound
          cases hfound
          rw [howner]
          exact hne.symm
      · rw [hclaims] at hsame
        exact absurd hsame (by simp)
    | reported old row _ hold howner _ =>
      rw [List.nil_append] at hclaims
      refine ⟨by rw [hclaims]; exact h.made, ?_⟩
      rw [hclaims, hnext]
      intro hless found hfound
      cases hfound
      have hother := htaken hless old rfl
      rw [hold] at hother
      rw [howner]
      exact hother
  · have hcount : after.claims.count key = store.claims.count key := by
      rw [hclaims, List.count_append, hrow.added_count hkey, Nat.zero_add]
    refine ⟨by rw [hcount]; exact h.made, ?_⟩
    rw [hcount, hchange.others key hkey]
    exact h.taken

/-! ## The calls of an evaluator -/

section Calls

variable {evaluator : EvaluatorConfig} {owner : String} {store after : EventStore}
  {event : BatchEvent} {turn : Turn} {stage : Stage} {progress : Progress}

theorem advance_change (h : advance evaluator owner store event turn stage = (after, progress)) :
    StoreChange owner (evaluator.key event) store after := by
  have hcall : ∀ {α : Type} {effect : EventStore × α} {result : Except String α} {next : EventStore},
      turn.fault.call store effect = (next, result) →
      StoreChange owner (evaluator.key event) store effect.1 →
      StoreChange owner (evaluator.key event) store next := by
    intro α effect result next hnext heffect
    exact Fault.call_keeps hnext (.of_inbox rfl rfl) heffect
  cases stage with
  | claiming =>
    simp only [advance] at h
    split_ifs at h with htype
    · cases h
      exact .of_inbox rfl rfl
    · have hclaim := claim_change store turn.now (evaluator.key event) owner
        evaluator.leaseSeconds
      split at h
      all_goals (rename_i hnext; have hchange := hcall hnext hclaim)
      · cases h
        exact hchange
      · cases h
        exact hchange
      · cases h
        exact hchange
      · cases h
        exact hchange
      · split at h
        · cases h
          exact hchange
        · cases h
          exact hchange
  | acquiring attempts shard ids =>
    simp only [advance] at h
    obtain ⟨hinbox, hclaims⟩ := acquireShard_kept store turn.now shard owner evaluator.leaseSeconds
    have hshard : StoreChange owner (evaluator.key event) store
        (store.acquireShard turn.now shard owner evaluator.leaseSeconds).1 :=
      .of_inbox hinbox hclaims
    split at h
    all_goals (rename_i hnext; have hchange := hcall hnext hshard)
    · cases h
      exact hchange
    · cases h
      exact ⟨hchange.others, hchange.change⟩
    · cases h
      exact hchange
  | handingBack attempts =>
    simp only [advance] at h
    split at h
    all_goals
      rename_i hnext
      have hchange := hcall hnext (fail_change store turn.now (evaluator.key event) owner _ false)
    · cases h
      exact hchange
    · cases h
      exact hchange
  | listing attempts lease ids =>
    simp only [advance] at h
    have hsame : StoreChange owner (evaluator.key event) store store := .of_inbox rfl rfl
    split at h
    all_goals (rename_i hnext; have hchange := hcall hnext hsame)
    · cases h
      exact hchange
    · split_ifs at h
      · cases h
        exact hchange
      · cases h
        exact hchange
  | evaluating attempts lease running =>
    simp only [advance] at h
    split at h
    · cases h
      exact .of_inbox rfl rfl
    · cases h
      exact .of_inbox rfl rfl
  | completing attempts lease =>
    simp only [advance] at h
    split at h
    all_goals
      rename_i hnext
      have hchange := hcall hnext (complete_change store turn.now (evaluator.key event) owner)
    · cases h
      exact hchange
    · cases h
      exact hchange
  | failing attempts lease error =>
    simp only [advance] at h
    split at h
    all_goals
      rename_i hnext
      have hchange := hcall hnext (fail_change store turn.now (evaluator.key event) owner error
        (decide (evaluator.maxAttempts ≤ attempts)))
    · cases h
      exact hchange
    · cases h
      exact hchange
  | releasing lease answer =>
    simp only [advance] at h
    cases h
    obtain ⟨hinbox, hclaims⟩ := releaseShard_kept store turn.now lease.shard owner lease.token
    rcases Fault.call_store turn.fault store
      (store.releaseShard turn.now lease.shard owner lease.token, ()) with hsame | hother
    · rw [hsame]
      exact .of_inbox rfl rfl
    · rw [hother]
      exact .of_inbox hinbox hclaims

theorem advance_claim (hstage : stage ≠ .claiming)
    (h : advance evaluator owner store event turn stage = (after, progress)) :
    after.claims = store.claims ∧ ∀ next, progress = .next next →
      ∀ attempts ∈ claimOf next, attempts ∈ claimOf stage := by
  have hcall : ∀ {α : Type} {effect : EventStore × α} {result : Except String α} {next : EventStore},
      turn.fault.call store effect = (next, result) → effect.1.claims = store.claims →
      next.claims = store.claims := by
    intro α effect result next hnext heffect
    exact Fault.call_keeps (P := fun next => next.claims = store.claims) hnext rfl heffect
  have hcomplete : (store.complete turn.now (evaluator.key event) owner).1.claims = store.claims := by
    unfold EventStore.complete
    cases store.claimedRow (evaluator.key event) owner with
    | none => rfl
    | some row => rfl
  have hfail : ∀ error terminal,
      (store.fail turn.now (evaluator.key event) owner error terminal).1.claims = store.claims := by
    intro error terminal
    unfold EventStore.fail
    cases store.claimedRow (evaluator.key event) owner with
    | none => rfl
    | some row => rfl
  cases stage with
  | claiming => exact absurd rfl hstage
  | acquiring attempts shard ids =>
    simp only [advance] at h
    have hshard := (acquireShard_kept store turn.now shard owner evaluator.leaseSeconds).2
    split at h
    all_goals
      rename_i hnext
      have hclaims := hcall hnext hshard
      cases h
      refine ⟨hclaims, ?_⟩
      rintro next hgoes attempts' hattempts
      cases hgoes
      exact hattempts
  | handingBack attempts =>
    simp only [advance] at h
    split at h
    · rename_i hnext
      have hclaims := hcall hnext (hfail _ _)
      cases h
      refine ⟨hclaims, ?_⟩
      rintro next hgoes attempts' hattempts
      cases hgoes
      exact hattempts
    · rename_i hnext
      have hclaims := hcall hnext (hfail _ _)
      cases h
      exact ⟨hclaims, fun next hgoes => nomatch hgoes⟩
  | listing attempts lease ids =>
    simp only [advance] at h
    split at h
    · rename_i hnext
      have hclaims := hcall hnext rfl
      cases h
      refine ⟨hclaims, ?_⟩
      rintro next hgoes attempts' hattempts
      cases hgoes
      exact hattempts
    · rename_i hnext
      have hclaims := hcall hnext rfl
      split_ifs at h
      all_goals
        cases h
        refine ⟨hclaims, ?_⟩
        rintro next hgoes attempts' hattempts
        cases hgoes
        exact hattempts
  | evaluating attempts lease running =>
    simp only [advance] at h
    split at h
    all_goals
      cases h
      refine ⟨rfl, ?_⟩
      rintro next hgoes attempts' hattempts
      cases hgoes
      exact hattempts
  | completing attempts lease =>
    simp only [advance] at h
    split at h
    all_goals
      rename_i hnext
      have hclaims := hcall hnext hcomplete
      cases h
      refine ⟨hclaims, ?_⟩
      rintro next hgoes attempts' hattempts
      cases hgoes
      first | exact hattempts | exact nomatch hattempts
  | failing attempts lease error =>
    simp only [advance] at h
    split at h
    all_goals
      rename_i hnext
      have hclaims := hcall hnext (hfail _ _)
      cases h
      refine ⟨hclaims, ?_⟩
      rintro next hgoes attempts' hattempts
      cases lease with
      | none => exact nomatch hgoes
      | some lease =>
        cases hgoes
        exact nomatch hattempts
  | releasing lease answer =>
    simp only [advance] at h
    cases h
    refine ⟨?_, fun next hgoes => nomatch hgoes⟩
    rcases Fault.call_store turn.fault store
      (store.releaseShard turn.now lease.shard owner lease.token, ()) with hsame | hother
    · rw [hsame]
    · rw [hother]
      exact (releaseShard_kept store turn.now lease.shard owner lease.token).2

theorem advance_claimed (hcounted : Counted store)
    (h : advance evaluator owner store event turn .claiming = (after, .next stage)) :
    ∀ attempts ∈ claimOf stage, attempts = after.claims.count (evaluator.key event) := by
  simp only [advance] at h
  split_ifs at h with htype
  · exact nomatch h
  split at h
  · exact nomatch h
  · exact nomatch h
  · exact nomatch h
  · exact nomatch h
  · rename_i made hnext
    have hmade := claim_acquired hcounted (Fault.call_ok hnext).2
    split at h
    all_goals
      cases h
      intro attempts hattempts
      cases hattempts
      exact hmade

theorem advance_answer
    (htimely : ∀ attempts lease error, stage = .failing attempts lease error →
      evaluator.maxAttempts ≤ attempts → turn.fault = .fine →
      Finished store (evaluator.key event) ∨
        (store.claimedRow (evaluator.key event) owner).isSome = true)
    (h : advance evaluator owner store event turn stage = (after, progress))
    (hanswer : progress = .returned (.ok true) ∨
      ∃ lease, progress = .next (.releasing lease (.ok true))) :
    (stage = .claiming ∧ event.eventType ≠ evaluateEventType) ∨
      (∃ lease, stage = .releasing lease (.ok true)) ∨ Finished after (evaluator.key event) := by
  have hchange := advance_change h
  cases stage with
  | claiming =>
    simp only [advance] at h
    split_ifs at h with htype
    · exact Or.inl ⟨rfl, htype⟩
    refine Or.inr (Or.inr ?_)
    split at h
    · cases h
      simp at hanswer
    · rename_i hnext
      cases h
      exact claim_finished (Or.inl rfl) (Fault.call_ok hnext).2
    · rename_i hnext
      cases h
      exact claim_finished (Or.inr rfl) (Fault.call_ok hnext).2
    · cases h
      simp at hanswer
    · split at h
      · cases h
        simp at hanswer
      · cases h
        simp at hanswer
  | acquiring attempts shard ids =>
    simp only [advance] at h
    split at h
    all_goals
      cases h
      simp at hanswer
  | handingBack attempts =>
    simp only [advance] at h
    split at h
    all_goals
      cases h
      simp at hanswer
  | listing attempts lease ids =>
    simp only [advance] at h
    split at h
    · cases h
      simp at hanswer
    · split_ifs at h
      all_goals
        cases h
        simp at hanswer
  | evaluating attempts lease running =>
    simp only [advance] at h
    split at h
    all_goals
      cases h
      simp at hanswer
  | completing attempts lease =>
    refine Or.inr (Or.inr ?_)
    simp only [advance] at h
    split at h
    · cases h
      simp at hanswer
    · rename_i completed hnext
      cases h
      cases completed with
      | true => exact complete_true (Fault.call_ok hnext).2
      | false => simp [ending] at hanswer
  | failing attempts lease error =>
    refine Or.inr (Or.inr ?_)
    simp only [advance] at h
    split at h
    · cases h
      cases lease with
      | none => simp [ending] at hanswer
      | some lease => simp [ending] at hanswer
    · rename_i failed hnext
      obtain ⟨hfine, heffect⟩ := Fault.call_ok hnext
      have hterminal : evaluator.maxAttempts ≤ attempts := by
        cases h
        by_contra hless
        rw [decide_eq_false hless] at hanswer
        cases lease with
        | none => simp [ending] at hanswer
        | some lease => simp [ending] at hanswer
      cases h
      rcases htimely attempts lease error rfl hterminal hfine with hfinished | hclaimed
      · exact hchange.keeps_finished hfinished
      · rw [decide_eq_true hterminal] at heffect
        have hdead := fail_terminal turn.now error hclaimed
        rw [heffect] at hdead
        exact hdead
  | releasing lease answer =>
    refine Or.inr (Or.inl ⟨lease, ?_⟩)
    simp only [advance] at h
    cases h
    rcases hanswer with hanswer | ⟨other, hother⟩
    · cases hanswer
      rfl
    · exact nomatch hother

theorem advance_superseded (hreports : reports stage = true)
    (hnone : store.claimedRow (evaluator.key event) owner = none)
    (h : advance evaluator owner store event turn stage = (after, progress)) :
    after.inbox = store.inbox := by
  have hcall : ∀ {result : Except String Bool} {next : EventStore} {value : Bool},
      turn.fault.call store (store, value) = (next, result) → next = store := by
    intro result next value hnext
    exact Fault.call_keeps (P := (· = store)) hnext rfl rfl
  have hfail : ∀ error terminal,
      store.fail turn.now (evaluator.key event) owner error terminal = (store, false) := by
    intro error terminal
    unfold EventStore.fail
    rw [hnone]
  have hcomplete : store.complete turn.now (evaluator.key event) owner = (store, false) := by
    unfold EventStore.complete
    rw [hnone]
  cases stage with
  | claiming => exact nomatch hreports
  | acquiring attempts shard ids => exact nomatch hreports
  | listing attempts lease ids => exact nomatch hreports
  | evaluating attempts lease running => exact nomatch hreports
  | releasing lease answer => exact nomatch hreports
  | handingBack attempts =>
    simp only [advance, hfail] at h
    split at h
    all_goals
      rename_i hnext
      cases h
      rw [hcall hnext]
  | completing attempts lease =>
    simp only [advance, hcomplete] at h
    split at h
    all_goals
      rename_i hnext
      cases h
      rw [hcall hnext]
  | failing attempts lease error =>
    simp only [advance, hfail] at h
    split at h
    all_goals
      rename_i hnext
      cases h
      rw [hcall hnext]

theorem advance_inbox (h : advance evaluator owner store event turn stage = (after, progress)) :
    after.inbox = store.inbox ∨
      (stage = .claiming ∧ after.inbox =
        (store.claim turn.now (evaluator.key event) owner evaluator.leaseSeconds).1.inbox) ∨
      (∃ attempts, stage = .handingBack attempts ∧ after.inbox =
        (store.fail turn.now (evaluator.key event) owner
          "strategyEvaluator.shardLeaseBusy" false).1.inbox) ∨
      (∃ attempts lease, stage = .completing attempts lease ∧ after.inbox =
        (store.complete turn.now (evaluator.key event) owner).1.inbox) ∨
      ∃ attempts lease error, stage = .failing attempts lease error ∧
        turn.fault.takesEffect = true ∧ after.inbox =
          (store.fail turn.now (evaluator.key event) owner error
            (decide (evaluator.maxAttempts ≤ attempts))).1.inbox := by
  have hcall : ∀ {α : Type} {effect : EventStore × α} {result : Except String α} {next : EventStore},
      turn.fault.call store effect = (next, result) → next.inbox = store.inbox ∨
        (turn.fault.takesEffect = true ∧ next.inbox = effect.1.inbox) := by
    intro α effect result next hnext
    cases hfault : turn.fault with
    | fine =>
      rw [hfault] at hnext
      cases hnext
      exact Or.inr ⟨rfl, rfl⟩
    | lost error =>
      rw [hfault] at hnext
      cases hnext
      exact Or.inl rfl
    | uncertain error =>
      rw [hfault] at hnext
      cases hnext
      exact Or.inr ⟨rfl, rfl⟩
  cases stage with
  | claiming =>
    simp only [advance] at h
    split_ifs at h
    · cases h
      exact Or.inl rfl
    split at h
    all_goals (rename_i hnext; have hinbox := (hcall hnext).imp_right And.right)
    · cases h
      exact hinbox.imp_right fun hclaim => Or.inl ⟨rfl, hclaim⟩
    · cases h
      exact hinbox.imp_right fun hclaim => Or.inl ⟨rfl, hclaim⟩
    · cases h
      exact hinbox.imp_right fun hclaim => Or.inl ⟨rfl, hclaim⟩
    · cases h
      exact hinbox.imp_right fun hclaim => Or.inl ⟨rfl, hclaim⟩
    · split at h
      all_goals
        cases h
        exact hinbox.imp_right fun hclaim => Or.inl ⟨rfl, hclaim⟩
  | acquiring attempts shard ids =>
    simp only [advance] at h
    have hshard := (acquireShard_kept store turn.now shard owner evaluator.leaseSeconds).1
    split at h
    all_goals
      rename_i hnext
      have hinbox := hcall hnext
      cases h
      exact Or.inl (hinbox.elim id fun hmade => hmade.2.trans hshard)
  | handingBack attempts =>
    simp only [advance] at h
    split at h
    all_goals
      rename_i hnext
      have hinbox := hcall hnext
      cases h
      exact hinbox.imp_right fun hmade => Or.inr (Or.inl ⟨attempts, rfl, hmade.2⟩)
  | listing attempts lease ids =>
    simp only [advance] at h
    split at h
    · rename_i hnext
      have hinbox := hcall hnext
      cases h
      exact Or.inl (hinbox.elim id And.right)
    · rename_i hnext
      have hinbox := hcall hnext
      split_ifs at h
      all_goals
        cases h
        exact Or.inl (hinbox.elim id And.right)
  | evaluating attempts lease running =>
    simp only [advance] at h
    split at h
    all_goals
      cases h
      exact Or.inl rfl
  | completing attempts lease =>
    simp only [advance] at h
    split at h
    all_goals
      rename_i hnext
      have hinbox := hcall hnext
      cases h
      exact hinbox.imp_right fun hmade =>
        Or.inr (Or.inr (Or.inl ⟨attempts, lease, rfl, hmade.2⟩))
  | failing attempts lease error =>
    simp only [advance] at h
    split at h
    all_goals
      rename_i hnext
      have hinbox := hcall hnext
      cases h
      exact hinbox.imp_right fun hmade =>
        Or.inr (Or.inr (Or.inr ⟨attempts, lease, error, rfl, hmade.1, hmade.2⟩))
  | releasing lease answer =>
    simp only [advance] at h
    cases h
    have hrelease := (releaseShard_kept store turn.now lease.shard owner lease.token).1
    rcases Fault.call_store turn.fault store
      (store.releaseShard turn.now lease.shard owner lease.token, ()) with hsame | hother
    · exact Or.inl (congrArg EventStore.inbox hsame)
    · exact Or.inl ((congrArg EventStore.inbox hother).trans hrelease)

theorem advance_givenUp {key : InboxKey}
    (h : advance evaluator owner store event turn stage = (after, progress))
    (hbefore : ¬ GivenUp store key) (hafter : GivenUp after key) :
    ∃ attempts lease error, stage = .failing attempts lease error ∧
      evaluator.maxAttempts ≤ attempts ∧ key = evaluator.key event ∧
      (store.claimedRow (evaluator.key event) owner).isSome = true ∧
      turn.fault.takesEffect = true := by
  have hsame : ∀ {next : EventStore}, after.inbox = next.inbox → GivenUp next key := by
    intro next hinbox
    unfold GivenUp at hafter ⊢
    rw [← hinbox]
    exact hafter
  rcases advance_inbox h with hkept | ⟨-, hclaim⟩ | ⟨attempts, -, hfail⟩ |
    ⟨attempts, lease, -, hcomplete⟩ | ⟨attempts, lease, error, hstage, heffect, hfail⟩
  · exact absurd (hsame hkept) hbefore
  · exact absurd (givenUp_claim (hsame hclaim)) hbefore
  · rcases givenUp_fail (hsame hfail) with hdead | ⟨hterminal, -⟩
    · exact absurd hdead hbefore
    · exact nomatch hterminal
  · exact absurd (givenUp_complete (hsame hcomplete)) hbefore
  · rcases givenUp_fail (hsame hfail) with hdead | ⟨hterminal, hkey, hclaimed⟩
    · exact absurd hdead hbefore
    · exact ⟨attempts, lease, error, hstage, of_decide_eq_true hterminal, hkey, hclaimed, heffect⟩

end Calls

/-! ## Any number of evaluators -/

/-- INTERNAL: the attempts are counted, every evaluator works under a claim of its own, and one
that is about to return True has seen its batch finished. -/
structure PoolSound (config : String → EvaluatorConfig) (pool : EvaluatorPool) : Prop where
  counted : Counted pool.store
  underClaim : ∀ owner handling, pool.working owner = some handling →
    ∀ attempts ∈ claimOf handling.stage,
      UnderClaim pool.store owner ((config owner).key handling.event) attempts
  answering : ∀ owner handling lease, pool.working owner = some handling →
    handling.stage = .releasing lease (.ok true) →
    Finished pool.store ((config owner).key handling.event)

theorem poolSound_empty : PoolSound config {} :=
  ⟨fun _ => rfl, fun _ _ hworking => (nomatch hworking),
    fun _ _ _ hworking => (nomatch hworking)⟩

theorem stepSafe_of_same {pool : EvaluatorPool} {move : PoolMove}
    (hinbox : (pool.step config move).store.inbox = pool.store.inbox)
    (hanswers : (pool.step config move).acknowledged = pool.acknowledged) :
    StepSafe config pool move := by
  refine ⟨?_, ?_, fun _ _ _ _ _ _ _ _ _ => hinbox, ?_⟩
  · intro key row hrow _
    rw [hinbox]
    exact hrow
  · intro owner event _ hnew
    rw [hanswers] at hnew
    exact absurd hnew.symm (List.cons_ne_self _ _)
  · intro key hbefore hafter
    obtain ⟨row, hrow, hdead⟩ := hafter
    rw [hinbox] at hrow
    exact absurd ⟨row, hrow, hdead⟩ hbefore

theorem PoolSound.move {pool next : EvaluatorPool} (h : PoolSound config pool)
    (hinbox : next.store.inbox = pool.store.inbox) (hclaims : next.store.claims = pool.store.claims)
    (hworking : ∀ owner handling, next.working owner = some handling →
      pool.working owner = some handling ∨ handling.stage = .claiming) : PoolSound config next := by
  refine ⟨?_, ?_, ?_⟩
  · intro key
    rw [hclaims, hinbox]
    exact h.counted key
  · intro owner handling hnext attempts hattempts
    rcases hworking owner handling hnext with hbefore | hclaiming
    · obtain ⟨hmade, htaken⟩ := h.underClaim owner handling hbefore attempts hattempts
      refine ⟨by rw [hclaims]; exact hmade, ?_⟩
      rw [hclaims, hinbox]
      exact htaken
    · rw [hclaiming] at hattempts
      exact nomatch hattempts
  · intro owner handling lease hnext hstage
    rcases hworking owner handling hnext with hbefore | hclaiming
    · obtain ⟨row, hrow, hfinished⟩ := h.answering owner handling lease hbefore hstage
      refine ⟨row, ?_, hfinished⟩
      rw [hinbox]
      exact hrow
    · rw [hclaiming] at hstage
      exact nomatch hstage

section Steps

variable {pool : EvaluatorPool} {owner : String} {turn : Turn} {handling : Handling}
  {after : EventStore} {progress : Progress}

theorem step_idle (hworking : pool.working owner = none) :
    pool.step config (.advance owner turn) = pool := by
  simp only [EvaluatorPool.step, hworking]

theorem step_next (hworking : pool.working owner = some handling) {stage : Stage}
    (hadvance : advance (config owner) owner pool.store handling.event turn handling.stage =
      (after, .next stage)) :
    pool.step config (.advance owner turn) =
      { pool with
        store := after
        working := Function.update pool.working owner (some ⟨handling.event, stage⟩) } := by
  simp only [EvaluatorPool.step, hworking, hadvance]

theorem step_returned (hworking : pool.working owner = some handling)
    {answer : Except String Bool}
    (hadvance : advance (config owner) owner pool.store handling.event turn handling.stage =
      (after, .returned answer)) :
    pool.step config (.advance owner turn) =
      { pool with
        store := after
        working := Function.update pool.working owner none
        acknowledged :=
          if answer.toOption = some true then (owner, handling.event) :: pool.acknowledged
          else pool.acknowledged } := by
  simp only [EvaluatorPool.step, hworking, hadvance]

theorem timely_of_reports (hworking : pool.working owner = some handling)
    (htimely : ReportsInTime config pool (.advance owner turn)) :
    ∀ attempts lease error, handling.stage = .failing attempts lease error →
      (config owner).maxAttempts ≤ attempts →
      (turn.fault = .fine → Finished pool.store ((config owner).key handling.event) ∨
        (pool.store.claimedRow ((config owner).key handling.event) owner).isSome = true) ∧
      ((pool.store.claimedRow ((config owner).key handling.event) owner).isSome = true →
        turn.fault.takesEffect = true →
        (config owner).maxAttempts +
            pool.store.refusals.count ((config owner).key handling.event) ≤
          pool.store.claims.count ((config owner).key handling.event)) := by
  obtain ⟨event, stage⟩ := handling
  rintro attempts lease error hstage hterminal
  cases hstage
  simp only [ReportsInTime, hworking] at htimely
  exact htimely hterminal

theorem underClaim_next (h : PoolSound config pool) (hworking : pool.working owner = some handling)
    {stage : Stage}
    (hadvance : advance (config owner) owner pool.store handling.event turn handling.stage =
      (after, .next stage)) :
    ∀ attempts ∈ claimOf stage,
      UnderClaim after owner ((config owner).key handling.event) attempts := by
  intro attempts hattempts
  by_cases hclaiming : handling.stage = .claiming
  · rw [hclaiming] at hadvance
    have hlast := advance_claimed h.counted hadvance attempts hattempts
    exact ⟨hlast.le, fun hless => absurd hlast hless.ne⟩
  · obtain ⟨hclaims, hsame⟩ := advance_claim hclaiming hadvance
    have hbefore := h.underClaim owner handling hworking attempts
      (hsame stage rfl attempts hattempts)
    exact hbefore.change (advance_change hadvance) (Or.inr hclaims)

theorem finished_of_answer (h : PoolSound config pool)
    (hworking : pool.working owner = some handling)
    (htimely : ReportsInTime config pool (.advance owner turn))
    (hadvance : advance (config owner) owner pool.store handling.event turn handling.stage =
      (after, progress))
    (hanswer : progress = .returned (.ok true) ∨
      ∃ lease, progress = .next (.releasing lease (.ok true))) :
    (handling.stage = .claiming ∧ handling.event.eventType ≠ evaluateEventType) ∨
      Finished after ((config owner).key handling.event) := by
  have hreports := timely_of_reports hworking htimely
  rcases advance_answer (fun attempts lease error hstage hterminal =>
      (hreports attempts lease error hstage hterminal).1) hadvance hanswer with
    hother | ⟨lease, hstage⟩ | hfinished
  · exact Or.inl hother
  · exact Or.inr ((advance_change hadvance).keeps_finished
      (h.answering owner handling lease hworking hstage))
  · exact Or.inr hfinished

theorem sound_advance (h : PoolSound config pool)
    (htimely : ReportsInTime config pool (.advance owner turn)) :
    PoolSound config (pool.step config (.advance owner turn)) := by
  cases hworking : pool.working owner with
  | none =>
    rw [step_idle hworking]
    exact h
  | some handling =>
    cases hadvance : advance (config owner) owner pool.store handling.event turn
      handling.stage with
    | mk after progress =>
    cases progress with
    | next stage =>
      rw [step_next hworking hadvance]
      have hchange := advance_change hadvance
      refine ⟨h.counted.change hchange, ?_, ?_⟩
      · intro other handling' hnext attempts hattempts
        by_cases hsame : other = owner
        · subst hsame
          have hself := (Function.update_self other _ _).symm.trans hnext
          cases hself
          exact underClaim_next h hworking hadvance attempts hattempts
        · have hothers := (Function.update_of_ne hsame _ _).symm.trans hnext
          exact (h.underClaim other handling' hothers attempts hattempts).change hchange
            (Or.inl hsame)
      · intro other handling' lease hnext hstage
        by_cases hsame : other = owner
        · subst hsame
          have hself := (Function.update_self other _ _).symm.trans hnext
          cases hself
          dsimp only at hstage
          rcases finished_of_answer h hworking htimely hadvance
            (Or.inr ⟨lease, by rw [hstage]⟩) with ⟨hclaiming, htype⟩ | hfinished
          · rw [hclaiming] at hadvance
            simp only [advance, if_pos htype] at hadvance
            exact nomatch hadvance
          · exact hfinished
        · have hothers := (Function.update_of_ne hsame _ _).symm.trans hnext
          exact hchange.keeps_finished (h.answering other handling' lease hothers hstage)
    | returned answer =>
      rw [step_returned hworking hadvance]
      have hchange := advance_change hadvance
      have hothers : ∀ {other handling'},
          Function.update pool.working owner none other = some handling' →
          other ≠ owner ∧ pool.working other = some handling' := by
        intro other handling' hnext
        by_cases hsame : other = owner
        · subst hsame
          rw [Function.update_self] at hnext
          exact nomatch hnext
        · rw [Function.update_of_ne hsame] at hnext
          exact ⟨hsame, hnext⟩
      refine ⟨h.counted.change hchange, ?_, ?_⟩
      · intro other handling' hnext attempts hattempts
        obtain ⟨hne, hbefore⟩ := hothers hnext
        exact (h.underClaim other handling' hbefore attempts hattempts).change hchange
          (Or.inl hne)
      · intro other handling' lease hnext hstage
        obtain ⟨-, hbefore⟩ := hothers hnext
        exact hchange.keeps_finished (h.answering other handling' lease hbefore hstage)

theorem stepSafe_advance (h : PoolSound config pool)
    (htimely : ReportsInTime config pool (.advance owner turn)) :
    StepSafe config pool (.advance owner turn) := by
  cases hworking : pool.working owner with
  | none => exact stepSafe_of_same (by rw [step_idle hworking]) (by rw [step_idle hworking])
  | some handling =>
    cases hadvance : advance (config owner) owner pool.store handling.event turn
      handling.stage with
    | mk after progress =>
    have hchange := advance_change hadvance
    have hstore : (pool.step config (.advance owner turn)).store = after := by
      cases progress with
      | next stage => rw [step_next hworking hadvance]
      | returned answer => rw [step_returned hworking hadvance]
    refine ⟨?_, ?_, ?_, ?_⟩
    · intro key row hrow hfinished
      rw [hstore]
      exact hchange.finished hrow hfinished
    · intro other event htype hnew
      rw [hstore]
      cases progress with
      | next stage =>
        rw [step_next hworking hadvance] at hnew
        exact absurd hnew.symm (List.cons_ne_self _ _)
      | returned answer =>
        rw [step_returned hworking hadvance] at hnew
        dsimp only at hnew
        split_ifs at hnew with htrue
        · have hanswer : answer = .ok true := by
            cases answer with
            | error error => exact nomatch htrue
            | ok value =>
              cases htrue
              rfl
          cases hnew
          rcases finished_of_answer h hworking htimely hadvance
            (Or.inl (by rw [hanswer])) with ⟨-, hother⟩ | hfinished
          · exact absurd htype hother
          · exact hfinished
        · exact absurd hnew.symm (List.cons_ne_self _ _)
    · intro other turn' handling' attempts hmove hworking' hreports hattempts hless
      cases hmove
      rw [hworking] at hworking'
      cases hworking'
      have hclaim := h.underClaim owner handling hworking attempts hattempts
      rw [hstore]
      refine advance_superseded hreports ?_ hadvance
      cases hclaimed : pool.store.claimedRow ((config owner).key handling.event) owner with
      | none => rfl
      | some row =>
        obtain ⟨hrow, -, howner⟩ := claimedRow_some hclaimed
        exact absurd howner (hclaim.taken hless row hrow)
    · intro key hbefore hafter
      rw [hstore] at hafter
      obtain ⟨attempts, lease, error, hstage, hterminal, rfl, hclaimed, heffect⟩ :=
        advance_givenUp hadvance hbefore hafter
      exact ⟨owner, turn, rfl,
        (timely_of_reports hworking htimely attempts lease error hstage hterminal).2 hclaimed
          heffect⟩

end Steps

theorem pool_step {pool : EvaluatorPool} {move : PoolMove} (h : PoolSound config pool)
    (htimely : ReportsInTime config pool move) :
    PoolSound config (pool.step config move) ∧ StepSafe config pool move := by
  cases move with
  | receive owner event =>
    cases hworking : pool.working owner with
    | some handling =>
      have hbusy : pool.step config (.receive owner event) = pool := by
        simp only [EvaluatorPool.step, hworking]
      refine ⟨?_, stepSafe_of_same (by rw [hbusy]) (by rw [hbusy])⟩
      rw [hbusy]
      exact h
    | none =>
      have hreceived : pool.step config (.receive owner event) =
          { pool with
            working := Function.update pool.working owner (some ⟨event, .claiming⟩) } := by
        simp only [EvaluatorPool.step, hworking]
      refine ⟨?_, stepSafe_of_same (by rw [hreceived]) (by rw [hreceived])⟩
      rw [hreceived]
      refine h.move rfl rfl ?_
      intro other handling hnext
      by_cases hsame : other = owner
      · subst hsame
        have hself := (Function.update_self other _ _).symm.trans hnext
        cases hself
        exact Or.inr rfl
      · exact Or.inl ((Function.update_of_ne hsame _ _).symm.trans hnext)
  | advance owner turn => exact ⟨sound_advance h htimely, stepSafe_advance h htimely⟩
  | crash owner =>
    refine ⟨h.move rfl rfl ?_, stepSafe_of_same rfl rfl⟩
    intro other handling hnext
    by_cases hsame : other = owner
    · subst hsame
      exact nomatch (Function.update_self other _ _).symm.trans hnext
    · exact Or.inl ((Function.update_of_ne hsame _ _).symm.trans hnext)
  | close owner now =>
    exact ⟨h.move rfl rfl fun _ _ hnext => Or.inl hnext, stepSafe_of_same rfl rfl⟩

/-! ## Main theorem -/

def defaultEvaluator : EvaluatorConfig where
  consumerGroup := "strategy-evaluators"
  leaseSeconds := 45
  maxAttempts := 5
  mode := .active
  shardCount := 128
  leaseSeconds_le := by decide
  maxAttempts_pos := by decide

def shardOneBatch (eventId : String) : BatchEvent where
  eventId := eventId
  eventType := evaluateEventType
  partitionKey := "strategy-shard:1"
  payload := { strategyShard := some (.int 1), strategyIds := some [.int 1, .int 129] }

def handling (owner eventId : String) (turns : List Turn) : List PoolMove :=
  .receive owner (shardOneBatch eventId) :: turns.map (.advance owner)

def failingTurn (now : Time) : Turn where
  now := now
  evaluate := fun _ => .ok false

/-- An evaluator claims a batch and stalls; another one takes it over and completes it, and the
first one reports late. -/
def takenOverBatch : List PoolMove :=
  handling "worker-a" "batch" [⟨0, .fine, fun _ => true, fun _ => .ok true⟩] ++
    handling "worker-b" "batch" (List.replicate 6 { now := 100 * oneSecond }) ++
    List.replicate 5 (.advance "worker-a" { now := 110 * oneSecond })

/-- An evaluator holds the shard for another batch, and a second one hands its batch back four
times. -/
def contendedBatch : List PoolMove :=
  handling "worker-a" "other" (List.replicate 2 { now := 0 }) ++
    (List.replicate 4 (handling "worker-b" "batch" (List.replicate 3 { now := oneSecond }))).flatten ++
    handling "worker-b" "batch" (List.replicate 4 (failingTurn (100 * oneSecond)))

/-- Four failed attempts of an evaluator, and a fifth one that stalls until another evaluator has
claimed the batch and then fails. -/
def overtakenBatch : List PoolMove :=
  (List.replicate 4 (handling "worker-a" "batch" (List.replicate 6 (failingTurn 0)))).flatten ++
    handling "worker-a" "batch" (List.replicate 3 (failingTurn 0)) ++
    handling "worker-b" "batch" [failingTurn (100 * oneSecond)] ++
    List.replicate 2 (.advance "worker-a" (failingTurn (110 * oneSecond)))

end QuantDinger.Analysis
