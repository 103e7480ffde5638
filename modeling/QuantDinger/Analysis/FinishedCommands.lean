import QuantDinger.Library.Runs
import QuantDinger.Model.StrategyCommands

/-!
# Finished commands

Claiming and sweeping leave finished commands alone; the reports of completion and failure do not
look at the row at all. In a history whose reports come in time, for a claim that nobody else has
taken over and on a command that is not finished (or with the outcome that it already has),
finished commands keep their outcome and are not claimed again.
-/

namespace QuantDinger.Analysis

open QuantDinger.Library
open QuantDinger.Model
open QuantDinger.Model.Live

/-! ## Reports -/

/-- Another worker has claimed the command after the claim. -/
def TakenOver (store : CommandStore) (claim : ℕ) : Prop :=
  match store.claims[claim]? with
  | none => False
  | some made => ∃ later ∈ store.claims.drop (claim + 1),
      later.commandId = made.commandId ∧ later.owner ≠ made.owner

instance (store : CommandStore) (claim : ℕ) : Decidable (TakenOver store claim) := by
  unfold TakenOver
  split <;> infer_instance

def Repeats (report : CommandReport) (row : CommandRow) : Prop :=
  match report with
  | .complete result => row.status = .succeeded ∧ row.result = result
  | .fail _ none => row.status = .failed ∧ row.result = "{}"
  | .fail _ (some _) => False

instance (report : CommandReport) (row : CommandRow) : Decidable (Repeats report row) := by
  unfold Repeats
  split <;> infer_instance

/-- The command that a claim is of is unfinished, or the report repeats its outcome. -/
def ReportsOpen (store : CommandStore) (claim : ℕ) (report : CommandReport) : Prop :=
  match store.claims[claim]? with
  | none => True
  | some made => ∀ row ∈ store.row made.commandId, row.status.terminal = true → Repeats report row

instance (store : CommandStore) (claim : ℕ) (report : CommandReport) :
    Decidable (ReportsOpen store claim report) := by
  unfold ReportsOpen
  split <;> infer_instance

def Timely (store : CommandStore) (event : CommandEvent) : Prop :=
  match event.action with
  | .report claim report => ¬ TakenOver store claim ∧ ReportsOpen store claim report
  | _ => True

instance (store : CommandStore) (event : CommandEvent) : Decidable (Timely store event) := by
  unfold Timely
  split <;> infer_instance

def claimsOf (store : CommandStore) (id : ℕ) : List CommandClaim :=
  store.claims.filter fun claim => claim.commandId = id

/-- Commands that are finished keep their status and result and are not claimed again, and a
report for a claim that was taken over leaves its command as it is. -/
def StayFinished (store : CommandStore) (events : List CommandEvent) : Prop :=
  (∀ before after, events = before ++ after → ∀ id row,
    (runActions CommandStore.step store before).row id = some row → row.status.terminal = true →
    ∃ later, (runActions CommandStore.step store events).row id = some later ∧
      later.status = row.status ∧ later.result = row.result ∧
      claimsOf (runActions CommandStore.step store events) id =
        claimsOf (runActions CommandStore.step store before) id) ∧
  (∀ before event after claim report made, events = before ++ event :: after →
    event.action = .report claim report →
    (runActions CommandStore.step store before).claims[claim]? = some made →
    TakenOver (runActions CommandStore.step store before) claim →
    ((runActions CommandStore.step store before).step event).row made.commandId =
      (runActions CommandStore.step store before).row made.commandId)

/-! ## Rows -/

/-- INTERNAL: the ids of the rows are the row numbers. -/
structure CommandsSound (store : CommandStore) : Prop where
  unique : (store.rows.map CommandRow.id).Nodup
  bounded : ∀ row ∈ store.rows, row.id ≤ store.rows.length

theorem row_map (store : CommandStore) {g : CommandRow → CommandRow}
    (hg : ∀ row, (g row).id = row.id) (claims : List CommandClaim) (id : ℕ) :
    (CommandStore.mk (store.rows.map g) claims).row id = (store.row id).map g := by
  unfold CommandStore.row
  rw [List.find?_map]
  congr 2
  funext row
  simp only [Function.comp_apply, hg]

theorem sound_map {store : CommandStore} (h : CommandsSound store) {g : CommandRow → CommandRow}
    (hg : ∀ row, (g row).id = row.id) (claims : List CommandClaim) :
    CommandsSound (CommandStore.mk (store.rows.map g) claims) := by
  refine ⟨?_, ?_⟩
  · show ((store.rows.map g).map CommandRow.id).Nodup
    rw [List.map_map]
    convert h.unique using 2
    funext row
    exact hg row
  · intro row hrow
    obtain ⟨before, hbefore, rfl⟩ := List.mem_map.mp hrow
    rw [hg]
    show before.id ≤ (store.rows.map g).length
    rw [List.length_map]
    exact h.bounded before hbefore

theorem row_of_mem {store : CommandStore} (h : CommandsSound store) {row : CommandRow}
    (hrow : row ∈ store.rows) : store.row row.id = some row := by
  unfold CommandStore.row
  cases hfind : store.rows.find? fun other => other.id = row.id with
  | none =>
    have hnone := List.find?_eq_none.mp hfind row hrow
    simp at hnone
  | some other =>
    have hid : other.id = row.id := by simpa using List.find?_some hfind
    have hmem := List.mem_of_find?_eq_some hfind
    rw [List.inj_on_of_nodup_map h.unique hmem hrow hid]

/-! ## Steps -/

/-- INTERNAL: what a transaction leaves of the finished commands. -/
structure KeepsFinished (store next : CommandStore) : Prop where
  sound : CommandsSound next
  kept : ∀ id row, store.row id = some row → row.status.terminal = true →
    ∃ later, next.row id = some later ∧ later.status = row.status ∧ later.result = row.result ∧
      claimsOf next id = claimsOf store id

theorem KeepsFinished.refl {store : CommandStore} (h : CommandsSound store) :
    KeepsFinished store store :=
  ⟨h, fun _ row hrow _ => ⟨row, hrow, rfl, rfl, rfl⟩⟩

theorem keepsFinished_map {store : CommandStore} (h : CommandsSound store)
    {g : CommandRow → CommandRow} (hg : ∀ row, (g row).id = row.id)
    (hkept : ∀ id row, store.row id = some row → row.status.terminal = true →
      (g row).status = row.status ∧ (g row).result = row.result) :
    KeepsFinished store (CommandStore.mk (store.rows.map g) store.claims) := by
  refine ⟨sound_map h hg _, ?_⟩
  intro id row hrow hterminal
  refine ⟨g row, ?_, (hkept id row hrow hterminal).1, (hkept id row hrow hterminal).2, rfl⟩
  rw [row_map store hg, hrow]
  rfl

theorem keepsFinished_update {store : CommandStore} (h : CommandsSound store) (id : ℕ)
    {f : CommandRow → CommandRow} (hf : ∀ row, (f row).id = row.id)
    (hkept : ∀ row, store.row id = some row → row.status.terminal = true →
      (f row).status = row.status ∧ (f row).result = row.result) :
    KeepsFinished store (store.updateRow id f) := by
  apply keepsFinished_map h
  · intro row
    split_ifs
    · exact hf row
    · rfl
  · intro other row hrow hterminal
    by_cases hid : row.id = id
    · rw [if_pos hid]
      apply hkept row ?_ hterminal
      have hother : row.id = other := by simpa using List.find?_some hrow
      rw [← hid, hother]
      exact hrow
    · rw [if_neg hid]
      exact ⟨rfl, rfl⟩

theorem keepsFinished_enqueue {store : CommandStore} (h : CommandsSound store) (now : Time)
    (request : CommandRequest) : KeepsFinished store (store.enqueue now request) := by
  unfold CommandStore.enqueue
  split
  · split_ifs
    · exact keepsFinished_update h _ (fun _ => rfl) (fun _ _ _ => ⟨rfl, rfl⟩)
    · exact KeepsFinished.refl h
  · split_ifs
    · exact KeepsFinished.refl h
    · refine ⟨⟨?_, ?_⟩, ?_⟩
      · rw [List.map_append, List.nodup_append]
        refine ⟨h.unique, List.nodup_singleton _, ?_⟩
        intro id hid other hother hsame
        obtain ⟨row, hrow, rfl⟩ := List.mem_map.mp hid
        rw [List.map_singleton, List.mem_singleton] at hother
        have hbound := h.bounded row hrow
        rw [hsame, hother] at hbound
        exact absurd hbound (Nat.not_succ_le_self _)
      · intro row hrow
        rw [List.length_append, List.length_singleton]
        rcases List.mem_append.mp hrow with hbefore | hnew
        · exact Nat.le_succ_of_le (h.bounded row hbefore)
        · rw [List.mem_singleton.mp hnew]
      · intro id row hrow _
        refine ⟨row, ?_, rfl, rfl, rfl⟩
        unfold CommandStore.row at hrow ⊢
        rw [List.find?_append, hrow]
        rfl

theorem claimable_open {now : Time} {owner : String} {maxAttempts : ℕ}
    {leases : ℕ → Option LeaseRow} {row : CommandRow}
    (h : CommandStore.Claimable now owner maxAttempts leases row) :
    row.status.terminal = false := by
  obtain ⟨-, ⟨hpending, -⟩ | ⟨hprocessing, -⟩, -⟩ := h
  · rw [hpending]
    rfl
  · rw [hprocessing]
    rfl

theorem keepsFinished_claimNext {store : CommandStore} (h : CommandsSound store) (now : Time)
    (owner : String) (leaseSeconds : ℤ) (maxAttempts : ℕ) (leases : ℕ → Option LeaseRow)
    (locked : ℕ → Bool) :
    KeepsFinished store (store.claimNext now owner leaseSeconds maxAttempts leases locked) := by
  unfold CommandStore.claimNext
  split
  · exact KeepsFinished.refl h
  · rename_i candidate hfind
    have hmem := List.mem_of_find?_eq_some hfind
    have hclaim := List.find?_some hfind
    simp only [decide_eq_true_eq] at hclaim
    have hopen := claimable_open hclaim.2
    have hupdate := keepsFinished_update h candidate.id
      (f := fun row : CommandRow =>
        { row with
          status := .processing
          claimedBy := owner
          claimedAt := some (row.claimedAt.getD now)
          leaseExpiresAt := some (now + leaseSeconds * oneSecond)
          attempts := row.attempts + 1 })
      (fun _ => rfl)
      (by
        intro row hrow hterminal
        rw [row_of_mem h hmem] at hrow
        cases hrow
        rw [hopen] at hterminal
        exact nomatch hterminal)
    refine ⟨⟨hupdate.sound.unique, hupdate.sound.bounded⟩, ?_⟩
    intro id row hrow hterminal
    obtain ⟨later, hlater, hstatus, hresult, -⟩ := hupdate.kept id row hrow hterminal
    refine ⟨later, hlater, hstatus, hresult, ?_⟩
    have hother : candidate.id ≠ id := by
      rintro rfl
      rw [row_of_mem h hmem] at hrow
      cases hrow
      rw [hopen] at hterminal
      exact nomatch hterminal
    unfold claimsOf
    rw [List.filter_append, List.filter_cons_of_neg, List.filter_nil, List.append_nil]
    simpa using hother

theorem keepsFinished_failExhausted {store : CommandStore} (h : CommandsSound store) (now : Time)
    (maxAttempts : ℕ) : KeepsFinished store (store.failExhaustedCommands now maxAttempts) := by
  unfold CommandStore.failExhaustedCommands
  apply keepsFinished_map h
  · intro row
    by_cases hswept : row.status = .processing ∧
        (∃ expires ∈ row.leaseExpiresAt, expires < now) ∧ maxAttempts ≤ row.attempts
    · rw [if_pos hswept]
    · rw [if_neg hswept]
  · intro id row hrow hterminal
    by_cases hswept : row.status = .processing ∧
        (∃ expires ∈ row.leaseExpiresAt, expires < now) ∧ maxAttempts ≤ row.attempts
    · rw [hswept.1] at hterminal
      exact nomatch hterminal
    · rw [if_neg hswept]
      exact ⟨rfl, rfl⟩

theorem keepsFinished_report {store : CommandStore} (h : CommandsSound store) (now : Time)
    (claim : ℕ) (report : CommandReport) (hopen : ReportsOpen store claim report) :
    KeepsFinished store (store.step ⟨now, .report claim report⟩) := by
  simp only [CommandStore.step]
  unfold ReportsOpen at hopen
  cases hclaim : store.claims[claim]? with
  | none => exact KeepsFinished.refl h
  | some made =>
    rw [hclaim] at hopen
    dsimp only at hopen ⊢
    cases report with
    | complete result =>
      show KeepsFinished store (store.complete now made.commandId result)
      unfold CommandStore.complete CommandStore.finish
      refine keepsFinished_update h made.commandId (fun _ => rfl) ?_
      intro row hrow hterminal
      obtain ⟨hstatus, hresult⟩ := hopen row hrow hterminal
      exact ⟨hstatus.symm, hresult.symm⟩
    | fail error retryDelaySeconds =>
      cases retryDelaySeconds with
      | none =>
        show KeepsFinished store (store.fail now made.commandId error none)
        unfold CommandStore.fail CommandStore.finish
        refine keepsFinished_update h made.commandId (fun _ => rfl) ?_
        intro row hrow hterminal
        obtain ⟨hstatus, hresult⟩ := hopen row hrow hterminal
        exact ⟨hstatus.symm, hresult.symm⟩
      | some delay =>
        show KeepsFinished store (store.fail now made.commandId error (some delay))
        unfold CommandStore.fail
        refine keepsFinished_update h made.commandId (fun _ => rfl) ?_
        intro row hrow hterminal
        exact absurd (hopen row hrow hterminal) id

theorem keepsFinished_step {store : CommandStore} (h : CommandsSound store) (event : CommandEvent)
    (htimely : Timely store event) : KeepsFinished store (store.step event) := by
  obtain ⟨now, action⟩ := event
  cases action with
  | enqueue request => exact keepsFinished_enqueue h now request
  | claimNext owner leaseSeconds maxAttempts leases locked =>
    exact keepsFinished_claimNext h now owner leaseSeconds maxAttempts leases locked
  | report claim report => exact keepsFinished_report h now claim report htimely.2
  | failExhausted maxAttempts => exact keepsFinished_failExhausted h now maxAttempts

/-! ## Main theorem -/

theorem keepsFinished_run {store : CommandStore} (h : CommandsSound store)
    {events : List CommandEvent} (htimely : Along CommandStore.step Timely store events) :
    KeepsFinished store (runActions CommandStore.step store events) := by
  induction events generalizing store with
  | nil => exact KeepsFinished.refl h
  | cons event events ih =>
    have hstep := keepsFinished_step h event htimely.1
    have hrest := ih hstep.sound htimely.2
    refine ⟨hrest.sound, ?_⟩
    intro id row hrow hterminal
    obtain ⟨next, hnext, hstatus, hresult, hclaims⟩ := hstep.kept id row hrow hterminal
    obtain ⟨later, hlater, hstatus', hresult', hclaims'⟩ :=
      hrest.kept id next hnext (hstatus ▸ hterminal)
    exact ⟨later, hlater, hstatus'.trans hstatus, hresult'.trans hresult,
      hclaims'.trans hclaims⟩

theorem sound_emptyQueue : CommandsSound {} :=
  ⟨List.nodup_nil, fun _ hrow => absurd hrow List.not_mem_nil⟩

/-- Where every report comes in time, finished commands stay finished. -/
theorem finished_commands_stay (events : List CommandEvent)
    (htimely : Along CommandStore.step Timely {} events) : StayFinished {} events := by
  constructor
  · rintro before after rfl id row hrow hterminal
    obtain ⟨hbefore, hafter⟩ := along_append.mp htimely
    have hsound := (keepsFinished_run sound_emptyQueue hbefore).sound
    obtain ⟨later, hlater, hkept⟩ := (keepsFinished_run hsound hafter).kept id row hrow hterminal
    refine ⟨later, ?_, ?_⟩
    · rw [runActions, List.foldl_append]
      exact hlater
    · rw [runActions, List.foldl_append]
      exact hkept
  · rintro before event after claim report made rfl haction hmade htaken
    obtain ⟨-, htimely', -⟩ := along_append.mp htimely
    unfold Timely at htimely'
    rw [haction] at htimely'
    exact absurd htaken htimely'.1

/-- A worker claims a stop and stalls, another one takes it over and completes it. -/
def takenOverStop : List CommandEvent :=
  [⟨0, .enqueue { strategyId := 1, commandType := .stop, idempotencyKey := "k" }⟩,
    ⟨0, .claimNext "worker-a" 60 3 (fun _ => none) fun _ => false⟩,
    ⟨100 * oneSecond, .claimNext "worker-b" 60 3 (fun _ => none) fun _ => false⟩,
    ⟨110 * oneSecond, .report 1 (.complete "stopped")⟩]

/-- Without a late report the command stays completed. -/
theorem taken_over_stop_stays : StayFinished {} takenOverStop :=
  finished_commands_stay takenOverStop (by decide +kernel)

/-- The first worker reports its failure late: the command is pending again. -/
theorem late_failure_reopens :
    ¬ StayFinished {} (takenOverStop ++ [⟨120 * oneSecond, .report 0 (.fail "timeout" (some 5))⟩]) := by
  intro h
  have hdone : ∃ row, (runActions CommandStore.step {} takenOverStop).row 1 = some row ∧
      row.status = .succeeded := ⟨_, rfl, rfl⟩
  obtain ⟨row, hrow, hstatus⟩ := hdone
  obtain ⟨later, hlater, hkept, -⟩ := h.1 takenOverStop _ rfl 1 row hrow (by rw [hstatus]; rfl)
  rw [hstatus] at hkept
  have hreopened : ((runActions CommandStore.step {} (takenOverStop ++
      [⟨120 * oneSecond, .report 0 (.fail "timeout" (some 5))⟩])).row 1).map CommandRow.status =
      some .pending := by decide +kernel
  rw [hlater, Option.map_some, hkept] at hreopened
  exact nomatch hreopened

end QuantDinger.Analysis
