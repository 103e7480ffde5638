import Mathlib.Algebra.Order.Ring.Rat
import Mathlib.Data.List.Induction
import Mathlib.Tactic.Linarith
import QuantDinger.Model.AgentGateway

/-!
# Requests at the agent gateway

Two reservations of one slot have one fingerprint and are more than the time to staleness apart,
and none follows a stored response. A handler runs under its reservation, and what is replayed was
stored for the same fingerprint. None of this asks that clocks agree: a reservation is only taken
over against the instant that its row holds.

The rate limit is exact over a sliding minute, and the audit log shows no secret.
-/

namespace QuantDinger.Analysis

open QuantDinger.Library QuantDinger.Model.Agent

/-! ## Reservations -/

/-- What an earlier entry of a slot asks of a later one: a reservation has the same fingerprint and
comes after the earlier one is stale, and none comes after a stored response. -/
def Respects (ttl : Option ℤ) : SlotEvent → SlotEvent → Prop
  | .reserved _ requestHash since, .reserved _ otherHash later =>
    requestHash = otherHash ∧ since + staleAfter ttl < later
  | .stored _ _, .reserved _ _ _ => False
  | _, .stored _ _ => True

def StageKept (slot : SlotState) (i : ℕ) (requestHash : String) : RequestStage → Prop
  | .renewing _ => ∃ row, slot.row = some row ∧ row.requestHash = requestHash
  | .executing | .completing _ | .answered (.executed _) =>
    ∃ since, .reserved i requestHash since ∈ slot.log
  | .answered (.replayed response) =>
    ∃ stored, .stored requestHash stored ∈ slot.log ∧ response.payload = stored.payload ∧
      (stored.status ≠ 0 → response.status = stored.status)
  | _ => True

/-- Requests run under reservations that respect one another, and replay what was stored. -/
structure Idempotent (ttl : Option ℤ) (requests : ℕ → AgentRequest) (g : Gateway) : Prop where
  apart : ∀ slot, (g.slots slot).log.Pairwise (Respects ttl)
  stages : ∀ i, StageKept (g.slots (requests i).slot) i (requests i).requestHash (g.stage i)

/-- The row of a slot agrees with its history. -/
structure RowKept (slot : SlotState) : Prop where
  reserved : ∀ i requestHash since, .reserved i requestHash since ∈ slot.log →
    ∃ row, slot.row = some row ∧ row.requestHash = requestHash ∧
      (row.completed = false → since ≤ row.updatedAt)
  stored : ∀ requestHash response, .stored requestHash response ∈ slot.log →
    ∃ row, slot.row = some row ∧ row.completed = true
  completed : ∀ row, slot.row = some row → row.completed = true →
    ∃ response, row.response = some response ∧ .stored row.requestHash response ∈ slot.log

/-- Rows are not dropped and keep their request, and the history grows. -/
structure SlotGrows (slot later : SlotState) : Prop where
  row : ∀ row, slot.row = some row → ∃ next, later.row = some next ∧
    next.requestHash = row.requestHash
  log : ∀ event ∈ slot.log, event ∈ later.log

theorem SlotGrows.refl (slot : SlotState) : SlotGrows slot slot :=
  ⟨fun row hrow => ⟨row, hrow, rfl⟩, fun _ hmem => hmem⟩

theorem StageKept.mono {slot later : SlotState} {i : ℕ} {requestHash : String}
    {stage : RequestStage} (hgrows : SlotGrows slot later)
    (h : StageKept slot i requestHash stage) :
    StageKept later i requestHash stage := by
  unfold StageKept at h ⊢
  split at h
  · obtain ⟨row, hrow, hhash⟩ := h
    obtain ⟨next, hnext, hsame⟩ := hgrows.row _ hrow
    exact ⟨next, hnext, hsame.trans hhash⟩
  · exact h.imp fun since hmem => hgrows.log _ hmem
  · exact h.imp fun since hmem => hgrows.log _ hmem
  · exact h.imp fun since hmem => hgrows.log _ hmem
  · exact h.imp fun stored hstored => ⟨hgrows.log _ hstored.1, hstored.2⟩
  · trivial

section

variable {ttl : Option ℤ} {slot : SlotState}

theorem staleAfter_nonneg (ttl : Option ℤ) : 0 ≤ staleAfter ttl := by
  cases ttl with
  | none => decide
  | some seconds => exact le_trans (by decide) (le_max_left 60 seconds)

/-- INTERNAL: the slot is free, or its row is a stale reservation of the same request. -/
theorem reserve_kept {i : ℕ} {row : IdempotencyRow} (happart : slot.log.Pairwise (Respects ttl))
    (hkept : RowKept slot) (hopen : row.completed = false)
    (hfree : ∀ old, slot.row = some old → old.completed = false ∧
      old.requestHash = row.requestHash ∧ old.updatedAt + staleAfter ttl < row.updatedAt) :
    (slot.log ++ [SlotEvent.reserved i row.requestHash row.updatedAt]).Pairwise (Respects ttl) ∧
      RowKept { row := some row
                log := slot.log ++ [.reserved i row.requestHash row.updatedAt] } := by
  have hnone : ∀ requestHash response, .stored requestHash response ∉ slot.log := by
    intro requestHash response hmem
    obtain ⟨old, hold, hdone⟩ := hkept.stored _ _ hmem
    rw [(hfree old hold).1] at hdone
    exact Bool.noConfusion hdone
  have hearlier : ∀ j requestHash since, .reserved j requestHash since ∈ slot.log →
      row.requestHash = requestHash ∧ since + staleAfter ttl < row.updatedAt := by
    intro j requestHash since hmem
    obtain ⟨old, hold, hhash, hsince⟩ := hkept.reserved _ _ _ hmem
    obtain ⟨hstarted, hsame, hless⟩ := hfree old hold
    have := hsince hstarted
    exact ⟨hsame.symm.trans hhash, by linarith⟩
  refine ⟨?_, ?_, ?_, ?_⟩
  · refine List.pairwise_append.mpr ⟨happart, List.pairwise_singleton _ _, ?_⟩
    intro event hevent later hlater
    obtain rfl := List.mem_singleton.mp hlater
    cases event with
    | reserved j requestHash since =>
      obtain ⟨hhash, hless⟩ := hearlier _ _ _ hevent
      exact ⟨hhash.symm, hless⟩
    | stored requestHash response => exact hnone _ _ hevent
  · intro j requestHash since hmem
    refine ⟨row, rfl, ?_⟩
    rcases List.mem_append.mp hmem with hmem | hmem
    · obtain ⟨hhash, hless⟩ := hearlier _ _ _ hmem
      have := staleAfter_nonneg ttl
      exact ⟨hhash, fun _ => by linarith⟩
    · cases List.mem_singleton.mp hmem
      exact ⟨rfl, fun _ => le_rfl⟩
  · intro requestHash response hmem
    rcases List.mem_append.mp hmem with hmem | hmem
    · exact absurd hmem (hnone _ _)
    · exact nomatch List.mem_singleton.mp hmem
  · rintro other hother hdone
    cases hother
    rw [hopen] at hdone
    exact Bool.noConfusion hdone

/-- INTERNAL: the response of a request with a row is stored. -/
theorem store_kept {row : IdempotencyRow} {response : AgentResponse} {now : ℤ}
    (happart : slot.log.Pairwise (Respects ttl)) (hkept : RowKept slot)
    (hrow : slot.row = some row) :
    (slot.log ++ [SlotEvent.stored row.requestHash response]).Pairwise (Respects ttl) ∧
      RowKept
        { row := some { row with completed := true, response := some response, updatedAt := now }
          log := slot.log ++ [.stored row.requestHash response] } := by
  refine ⟨?_, ?_, ?_, ?_⟩
  · refine List.pairwise_append.mpr ⟨happart, List.pairwise_singleton _ _, ?_⟩
    intro event _ later hlater
    obtain rfl := List.mem_singleton.mp hlater
    cases event with
    | reserved _ _ _ => exact trivial
    | stored _ _ => exact trivial
  · intro j requestHash since hmem
    rcases List.mem_append.mp hmem with hmem | hmem
    · obtain ⟨old, hold, hhash, -⟩ := hkept.reserved _ _ _ hmem
      rw [hrow] at hold
      cases hold
      exact ⟨_, rfl, hhash, fun hopen => Bool.noConfusion hopen⟩
    · exact nomatch List.mem_singleton.mp hmem
  · exact fun _ _ _ => ⟨_, rfl, rfl⟩
  · rintro other hother -
    cases hother
    exact ⟨response, rfl, List.mem_append_right _ (List.mem_singleton_self _)⟩

end

section

variable {ttl : Option ℤ} {requests : ℕ → AgentRequest} {g : Gateway}

def GatewayKept (ttl : Option ℤ) (requests : ℕ → AgentRequest) (g : Gateway) : Prop :=
  Idempotent ttl requests g ∧ ∀ slot, RowKept (g.slots slot)

theorem write_kept {i : ℕ} {state : SlotState} {stage : RequestStage}
    (h : GatewayKept ttl requests g)
    (hstate : state.log.Pairwise (Respects ttl) ∧ RowKept state)
    (hgrows : SlotGrows (g.slots (requests i).slot) state)
    (hstage : StageKept state i (requests i).requestHash stage) :
    GatewayKept ttl requests (g.write i (requests i).slot state stage) := by
  have hall : ∀ slot,
      SlotGrows (g.slots slot) ((g.write i (requests i).slot state stage).slots slot) ∧
      ((g.write i (requests i).slot state stage).slots slot).log.Pairwise (Respects ttl) ∧
      RowKept ((g.write i (requests i).slot state stage).slots slot) := by
    intro slot
    unfold Gateway.write
    dsimp only
    by_cases hslot : slot = (requests i).slot
    · subst hslot
      rw [Function.update_self]
      exact ⟨hgrows, hstate⟩
    · rw [Function.update_of_ne hslot]
      exact ⟨SlotGrows.refl _, h.1.apart slot, h.2 slot⟩
  refine ⟨⟨fun slot => (hall slot).2.1, fun j => ?_⟩, fun slot => (hall slot).2.2⟩
  by_cases hji : j = i
  · subst hji
    unfold Gateway.write
    dsimp only
    rw [Function.update_self, Function.update_self]
    exact hstage
  · have hsame : (g.write i (requests i).slot state stage).stage j = g.stage j :=
      Function.update_of_ne hji _ _
    rw [hsame]
    exact (h.1.stages j).mono (hall _).1

theorem pass_kept {i : ℕ} {stage : RequestStage} (h : GatewayKept ttl requests g)
    (hstage : StageKept (g.slots (requests i).slot) i (requests i).requestHash stage) :
    GatewayKept ttl requests (g.pass i stage) := by
  have hpass : g.pass i stage =
      g.write i (requests i).slot (g.slots (requests i).slot) stage := by
    unfold Gateway.pass Gateway.write
    rw [Function.update_eq_self]
  rw [hpass]
  exact write_kept h ⟨h.1.apart _, h.2 _⟩ (SlotGrows.refl _) hstage

theorem start_kept {i : ℕ} {row : IdempotencyRow} (h : GatewayKept ttl requests g)
    (hhash : row.requestHash = (requests i).requestHash) (hopen : row.completed = false)
    (hfree : ∀ old, (g.slots (requests i).slot).row = some old → old.completed = false ∧
      old.requestHash = row.requestHash ∧ old.updatedAt + staleAfter ttl < row.updatedAt) :
    GatewayKept ttl requests (g.start i (requests i) row) := by
  unfold Gateway.start
  rw [← hhash]
  refine write_kept h (reserve_kept (h.1.apart _) (h.2 _) hopen hfree) ⟨?_, ?_⟩ ?_
  · exact fun old hold => ⟨row, rfl, (hfree old hold).2.1.symm⟩
  · exact fun event hmem => List.mem_append_left _ hmem
  · rw [← hhash]
    exact ⟨row.updatedAt, List.mem_append_right _ (List.mem_singleton_self _)⟩

theorem complete_kept {i : ℕ} {response : AgentResponse} {now : ℤ} {persisted : Bool}
    (h : GatewayKept ttl requests g) (hreserved : ∃ since,
      .reserved i (requests i).requestHash since ∈ (g.slots (requests i).slot).log) :
    GatewayKept ttl requests (g.complete i (requests i) response now persisted) := by
  obtain ⟨since, hsince⟩ := hreserved
  obtain ⟨row, hrow, hhash, -⟩ := (h.2 _).reserved _ _ _ hsince
  unfold Gateway.complete
  rw [hrow]
  cases persisted with
  | false => exact pass_kept h ⟨since, hsince⟩
  | true =>
    dsimp only
    rw [← hhash] at hsince ⊢
    refine write_kept h (store_kept (h.1.apart _) (h.2 _) hrow) ⟨?_, ?_⟩ ?_
    · intro old hold
      rw [hrow] at hold
      cases hold
      exact ⟨_, rfl, rfl⟩
    · exact fun event hmem => List.mem_append_left _ hmem
    · rw [← hhash]
      exact ⟨since, List.mem_append_left _ hsince⟩

/-- Every step keeps the gateway idempotent. -/
theorem act_kept (move : GatewayMove) (h : GatewayKept ttl requests g) :
    GatewayKept ttl requests (g.act ttl requests move) := by
  cases move with
  | die i => exact pass_kept h trivial
  | insert i now =>
    rw [Gateway.act]
    split
    · unfold Gateway.insert
      split
      · rename_i hrow
        refine start_kept h rfl rfl fun old hold => ?_
        rw [hrow] at hold
        exact nomatch hold
      · exact pass_kept h trivial
    · exact h
  | select i =>
    rw [Gateway.act]
    split
    · unfold Gateway.select
      split
      · exact pass_kept h trivial
      · rename_i row hrow
        split_ifs with hother hdone
        · exact pass_kept h trivial
        · obtain ⟨stored, hstored, hmem⟩ := (h.2 _).completed row hrow hdone
          rw [not_ne_iff.mp hother] at hmem
          refine pass_kept h ⟨stored, hmem, ?_⟩
          unfold IdempotencyRow.replay
          rw [hstored]
          exact ⟨rfl, fun hstatus => if_neg hstatus⟩
        · exact pass_kept h ⟨row, hrow, not_ne_iff.mp hother⟩
    · exact h
  | renew i =>
    rw [Gateway.act]
    split
    · rename_i now hstage
      have hrenewing := h.1.stages i
      rw [hstage] at hrenewing
      obtain ⟨row, hrow, hhash⟩ := hrenewing
      unfold Gateway.renew
      rw [hrow]
      dsimp only
      split_ifs with hold
      · refine start_kept h hhash hold.1 fun old hsame => ?_
        rw [hrow] at hsame
        cases hsame
        exact ⟨hold.1, rfl, by linarith [hold.2]⟩
      · exact pass_kept h trivial
    · exact h
  | handle i response =>
    rw [Gateway.act]
    split
    · rename_i hstage
      have hexecuting := h.1.stages i
      rw [hstage] at hexecuting
      exact pass_kept h hexecuting
    · exact h
  | complete i now persisted =>
    rw [Gateway.act]
    split
    · rename_i response hstage
      have hcompleting := h.1.stages i
      rw [hstage] at hcompleting
      exact complete_kept h hcompleting
    · exact h

end

/-- **Idempotent requests.** However the statements of any number of requests interleave, and
whichever requests die: two reservations of a slot have one fingerprint and are more than the time
to staleness apart, none follows a stored response, handlers run under a reservation of their own,
and what is replayed was stored for the same fingerprint. -/
theorem gateway_idempotent (ttl : Option ℤ) (requests : ℕ → AgentRequest)
    (moves : List GatewayMove) :
    Idempotent ttl requests (runActions (Gateway.act ttl requests) {} moves) := by
  refine (runActions_invariant (I := GatewayKept ttl requests)
    (fun g move h => act_kept move h) ?_ moves).1
  refine ⟨⟨fun _ => List.Pairwise.nil, fun _ => trivial⟩, fun _ => ⟨?_, ?_, ?_⟩⟩
  · exact fun _ _ _ hmem => absurd hmem List.not_mem_nil
  · exact fun _ _ hmem => absurd hmem List.not_mem_nil
  · exact fun _ hrow => nomatch hrow

/-! ## The sliding minute -/

/-- The window after calls at instants with limits. -/
def windowAfter (calls : List (ℚ × ℤ)) : RateWindow :=
  runActions (fun window call => window.call call.1 call.2) {} calls

/-- The calls that were allowed in the minute up to `t`. -/
def allowedUpTo (window : RateWindow) (t : ℚ) : List ℚ :=
  window.accepted.filter fun s => decide (t - 60 ≤ s ∧ s ≤ t)

/-- INTERNAL: the bucket holds what was allowed in the last minute, and each minute is bounded. -/
structure WindowKept (limit : ℤ) (calls : List (ℚ × ℤ)) (window : RateWindow) : Prop where
  past : ∀ s ∈ window.accepted, ∃ call ∈ calls, call.1 = s
  bucket : ∀ t, (∀ call ∈ calls, call.1 ≤ t) →
    (window.bucket.filter fun s => t - 60 ≤ s) = window.accepted.filter fun s => t - 60 ≤ s
  bounded : ∀ t, ((allowedUpTo window t).length : ℤ) ≤ max 1 limit

theorem filter_recent (bucket : List ℚ) {now t : ℚ} (h : now ≤ t) :
    ((bucket.filter fun s => now - 60 ≤ s).filter fun s => t - 60 ≤ s) =
      bucket.filter fun s => t - 60 ≤ s := by
  rw [List.filter_filter]
  refine List.filter_congr fun s _ => ?_
  rw [Bool.and_eq_left_iff_imp, decide_eq_true_iff, decide_eq_true_iff]
  intro hs
  linarith

/-- What a call does, by the number of calls allowed in the minute before it. -/
theorem call_cases (window : RateWindow) (now : ℚ) (limitPerMin : ℤ) :
    window.call now limitPerMin =
        { window with bucket := window.bucket.filter fun s => now - 60 ≤ s } ∨
      (((window.bucket.filter fun s => now - 60 ≤ s).length : ℤ) < max 1 limitPerMin ∧
        window.call now limitPerMin =
          { bucket := (window.bucket.filter fun s => now - 60 ≤ s) ++ [now]
            accepted := window.accepted ++ [now] }) := by
  unfold RateWindow.call memoryRateLimit
  by_cases hfull : max 1 limitPerMin ≤ ((window.bucket.filter fun s => now - 60 ≤ s).length : ℤ)
  · left
    dsimp only
    rw [if_pos hfull]
    rfl
  · right
    refine ⟨not_le.mp hfull, ?_⟩
    dsimp only
    rw [if_neg hfull]
    rfl

theorem windowKept_call {limit : ℤ} {calls : List (ℚ × ℤ)} {window : RateWindow} {now : ℚ}
    {callLimit : ℤ} (h : WindowKept limit calls window) (hnow : ∀ call ∈ calls, call.1 ≤ now)
    (hlimit : callLimit ≤ limit) :
    WindowKept limit (calls ++ [(now, callLimit)]) (window.call now callLimit) := by
  have hrecent := h.bucket now hnow
  have hself : (now, callLimit) ∈ calls ++ [(now, callLimit)] :=
    List.mem_append_right _ (List.mem_singleton_self _)
  have hpast : ∀ s ∈ window.accepted, ∃ call ∈ calls ++ [(now, callLimit)], call.1 = s :=
    fun s hs => (h.past s hs).imp fun call hcall => ⟨List.mem_append_left _ hcall.1, hcall.2⟩
  have hbucket : ∀ t, (∀ call ∈ calls ++ [(now, callLimit)], call.1 ≤ t) →
      ((window.bucket.filter fun s => now - 60 ≤ s).filter fun s => t - 60 ≤ s) =
        window.accepted.filter fun s => t - 60 ≤ s := fun t ht =>
    (filter_recent _ (ht _ hself)).trans
      (h.bucket t fun call hmem => ht call (List.mem_append_left _ hmem))
  obtain heq | ⟨hroom, heq⟩ := call_cases window now callLimit
  · rw [heq]
    exact ⟨hpast, hbucket, h.bounded⟩
  rw [heq]
  refine ⟨fun s hs => ?_, fun t ht => ?_, fun t => ?_⟩
  · rcases List.mem_append.mp hs with hs | hs
    · exact hpast s hs
    · exact ⟨_, hself, (List.mem_singleton.mp hs).symm⟩
  · rw [List.filter_append, List.filter_append, hbucket t ht]
  · unfold allowedUpTo
    rw [List.filter_append, List.length_append]
    by_cases ht : now ≤ t
    · -- the minute up to `t` began after the one of the call
      have hsub : (window.accepted.filter fun s => decide (t - 60 ≤ s ∧ s ≤ t)).length ≤
          (window.bucket.filter fun s => now - 60 ≤ s).length := by
        rw [hrecent]
        refine List.Sublist.length_le (List.monotone_filter_right _ fun s hs => ?_)
        rw [decide_eq_true_iff] at hs ⊢
        linarith [hs.1]
      have hone := List.length_filter_le (fun s => decide (t - 60 ≤ s ∧ s ≤ t)) [now]
      have hmax : max 1 callLimit ≤ max 1 limit := max_le_max le_rfl hlimit
      rw [List.length_singleton] at hone
      omega
    · have hnil : ([now].filter fun s => decide (t - 60 ≤ s ∧ s ≤ t)) = [] :=
        List.filter_eq_nil_iff.mpr fun s hs => by
          rw [List.mem_singleton.mp hs, decide_eq_true_iff]
          exact fun hin => ht hin.2
      rw [hnil]
      exact h.bounded t

theorem windowKept_after {limit : ℤ} {calls : List (ℚ × ℤ)}
    (hclock : calls.Pairwise fun call later => call.1 ≤ later.1)
    (hlimit : ∀ call ∈ calls, call.2 ≤ limit) : WindowKept limit calls (windowAfter calls) := by
  induction calls using List.reverseRecOn with
  | nil =>
    refine ⟨fun _ hs => absurd hs List.not_mem_nil, fun _ _ => rfl, fun _ => ?_⟩
    exact le_trans zero_le_one (le_max_left 1 limit)
  | append_singleton calls call ih =>
    obtain ⟨hearlier, -, hnow⟩ := List.pairwise_append.mp hclock
    have hrun : windowAfter (calls ++ [call]) = (windowAfter calls).call call.1 call.2 := by
      unfold windowAfter runActions
      rw [List.foldl_append]
      rfl
    rw [hrun]
    exact windowKept_call
      (ih hearlier fun other hmem => hlimit other (List.mem_append_left _ hmem))
      (fun other hmem => hnow other hmem call (List.mem_singleton_self _))
      (hlimit call (List.mem_append_right _ (List.mem_singleton_self _)))

/-- **The rate limit.** While the clock does not run backwards, a call is allowed exactly when the
minute up to it holds fewer allowed calls than its limit, and so no minute at all holds more than
the largest of the limits. -/
theorem rate_limit_exact (calls : List (ℚ × ℤ)) (limit : ℤ)
    (hclock : calls.Pairwise fun call later => call.1 ≤ later.1)
    (hlimit : ∀ call ∈ calls, call.2 ≤ limit) :
    (∀ t, ((allowedUpTo (windowAfter calls) t).length : ℤ) ≤ max 1 limit) ∧
      ∀ now callLimit, (∀ call ∈ calls, call.1 ≤ now) →
        ((memoryRateLimit (windowAfter calls).bucket now callLimit).1.allowed = true ↔
          ((allowedUpTo (windowAfter calls) now).length : ℤ) < max 1 callLimit) := by
  have hkept := windowKept_after hclock hlimit
  refine ⟨hkept.bounded, fun now callLimit hnow => ?_⟩
  have hrecent : allowedUpTo (windowAfter calls) now =
      (windowAfter calls).bucket.filter fun s => now - 60 ≤ s := by
    rw [hkept.bucket now hnow]
    refine List.filter_congr fun s hs => ?_
    obtain ⟨call, hmem, rfl⟩ := hkept.past s hs
    rw [decide_eq_decide]
    exact and_iff_left (hnow call hmem)
  rw [hrecent]
  unfold memoryRateLimit
  dsimp only
  split_ifs with hfull
  · exact iff_of_false id (not_lt.mpr hfull)
  · exact iff_of_true rfl (not_le.mp hfull)

/-- Two calls a minute: the third call is refused, and a minute after the first one it is not. -/
theorem third_call_refused :
    (memoryRateLimit (windowAfter [(0, 2), (10, 2)]).bucket 20 2).1.allowed = false ∧
      (memoryRateLimit (windowAfter [(0, 2), (10, 2), (20, 2)]).bucket 61 2).1.allowed = true :=
  ⟨Bool.eq_false_iff.mpr fun hallowed => absurd
      (((rate_limit_exact [(0, 2), (10, 2)] 2 (by decide) (by decide)).2 20 2 (by decide)).mp
        hallowed) (by decide +kernel),
    ((rate_limit_exact [(0, 2), (10, 2), (20, 2)] 2 (by decide) (by decide)).2 61 2
      (by decide)).mpr (by decide +kernel)⟩

/-! ## The audit log -/

mutual

/-- The value with something else in the place of every secret. -/
def replaceSecrets (other : String → Json → Json) : Json → Json
  | .array items => .array (replaceItems other items)
  | .object fields => .object (replaceFields other fields)
  | value => value

def replaceItems (other : String → Json → Json) : List Json → List Json
  | [] => []
  | item :: items => replaceSecrets other item :: replaceItems other items

def replaceFields (other : String → Json → Json) : List (String × Json) → List (String × Json)
  | [] => []
  | (key, value) :: fields =>
    (key, if isSecret key then other key value else replaceSecrets other value) ::
      replaceFields other fields

end

/-- **The audit log shows no secret.** What is logged of a request or a response does not depend on
the values of its secrets, however deep they are. -/
theorem redact_replaceSecrets (other : String → Json → Json) (levels : ℕ) (value : Json) :
    redact levels (replaceSecrets other value) = redact levels value := by
  induction levels generalizing value with
  | zero => rfl
  | succ levels ih =>
    cases value with
    | array items =>
      have hitems : replaceItems other items = items.map (replaceSecrets other) := by
        induction items with
        | nil => rw [replaceItems, List.map_nil]
        | cons item items ihitems => rw [replaceItems, ihitems, List.map_cons]
      rw [replaceSecrets, hitems, redact, redact, ← List.map_take, List.map_map]
      exact congrArg Json.array (List.map_congr_left fun item _ => ih item)
    | object fields =>
      rw [replaceSecrets, redact, redact]
      refine congrArg Json.object ?_
      induction fields with
      | nil => rw [replaceFields]
      | cons field fields ihfields =>
        obtain ⟨key, value⟩ := field
        rw [replaceFields, List.map_cons, List.map_cons, ihfields]
        refine congrArg (· :: _) (Prod.ext rfl ?_)
        dsimp only
        by_cases hsecret : isSecret key = true
        · rw [if_pos hsecret, if_pos hsecret]
        · rw [if_neg hsecret, if_neg hsecret, if_neg hsecret]
          exact ih value
    | _ => rw [replaceSecrets] <;> rintro _ ⟨⟩

end QuantDinger.Analysis
