import QuantDinger.Analysis.BrokerSteps
import QuantDinger.Analysis.FreshProtection

/-!
# Protection across a restart

A session is restarted through `protection_snapshot` and `restore_protection_snapshot`,
which drop what is not enabled, move the extremes to their sides of the entry and release
latches without a state. On a session whose protections are in order (`InOrder`) nothing of
this happens. Every operation keeps that order, except a scale-in of a position that already
trails, without rebase, to an average beyond the extremes of the prices seen.
-/

namespace QuantDinger.Analysis

open QuantDinger.Library QuantDinger.Model QuantDinger.Model.LiveSession

/-! ## Round trips -/

theorem ratio_of_bounds {value maximum : Amount} (h : 0 ≤ value ∧ value ≤ maximum) :
    ratio value maximum = value := by
  unfold ratio
  rw [max_eq_right h.1, min_eq_right h.2]

theorem fromValue_metadata {spec : ProtectionSpec} (h : spec.enabled = true) :
    ProtectionSpec.fromValue spec.metadata {} = some spec := by
  have hcreate : ProtectionSpec.create spec.stopLossPct spec.takeProfitPct spec.trailingStopPct
      spec.trailingActivationPct spec.timeLimitSeconds spec.trailingRebaseOnScaleIn = spec := by
    unfold ProtectionSpec.create
    simp only [ratio_of_bounds spec.stopLoss_bounds, ratio_of_bounds spec.takeProfit_bounds,
      ratio_of_bounds spec.trailingStop_bounds, ratio_of_bounds spec.trailingActivation_bounds,
      Int.floor_intCast, Int.ceil_intCast, ite_self, max_eq_right spec.timeLimit_nonneg]
  unfold ProtectionSpec.fromValue
  show (if (ProtectionSpec.create spec.stopLossPct spec.takeProfitPct spec.trailingStopPct
      spec.trailingActivationPct spec.timeLimitSeconds spec.trailingRebaseOnScaleIn).enabled = true
    then some (ProtectionSpec.create spec.stopLossPct spec.takeProfitPct spec.trailingStopPct
      spec.trailingActivationPct spec.timeLimitSeconds spec.trailingRebaseOnScaleIn)
    else none) = some spec
  rw [hcreate, if_pos h]

/-- The entry is positive and lies between the extremes, and something is enabled. -/
structure Centered (state : ProtectionState) : Prop where
  enabled : state.spec.enabled = true
  entry_pos : 0 < state.entryPrice
  lowest_pos : 0 < state.lowestPrice
  lowest_le : state.lowestPrice ≤ state.entryPrice
  le_highest : state.entryPrice ≤ state.highestPrice

theorem fromMetadata_metadata {state : ProtectionState} (h : Centered state) (now : Time) :
    ProtectionState.fromMetadata now state.metadata = some state := by
  unfold ProtectionState.fromMetadata
  have hspec := fromValue_metadata h.enabled
  dsimp only [ProtectionState.metadata, Option.getD_some]
  rw [hspec]
  show (if state.entryPrice ≤ 0 then none else some (ProtectionState.mk state.symbol state.side
    state.entryPrice state.spec state.openedAt (max state.entryPrice state.highestPrice)
    (min state.entryPrice
      (if 0 < state.lowestPrice then state.lowestPrice else state.entryPrice))
    state.trailingActive)) = some state
  rw [if_neg (not_le.mpr h.entry_pos), if_pos h.lowest_pos, max_eq_right h.le_highest,
    min_eq_right h.lowest_le]

/-- The protections of the session are in order: the specifications are enabled, the states
are centered and have a specification, and a latch has a state. -/
structure InOrder (session : LiveSession) : Prop where
  specs : ∀ key spec, session.protectionSpecs.get? key = some spec → spec.enabled = true
  states : ∀ key state, session.protectionStates.get? key = some state →
    Centered state ∧ (session.protectionSpecs.get? key).isSome
  latches : ∀ key ∈ session.exitPending, (session.protectionStates.get? key).isSome

theorem restore_snapshot {session : LiveSession} (h : InOrder session) (other : LiveSession)
    (now : Time) :
    (other.restoreProtectionSnapshot session.protectionSnapshot now).protectionSpecs =
        session.protectionSpecs ∧
      (other.restoreProtectionSnapshot session.protectionSnapshot now).protectionStates =
        session.protectionStates ∧
      (other.restoreProtectionSnapshot session.protectionSnapshot now).exitPending =
        session.exitPending := by
  have hspecs : (other.restoreProtectionSnapshot session.protectionSnapshot now).protectionSpecs =
      session.protectionSpecs := by
    show (session.protectionSpecs.mapValues fun _ spec => spec.metadata).filterMapValues
      (fun _ value => ProtectionSpec.fromValue value {}) = session.protectionSpecs
    exact Dict.filterMapValues_mapValues fun e he =>
      fromValue_metadata (h.specs e.1 e.2 (Dict.get?_eq_some_iff.mpr he))
  have hstates :
      (other.restoreProtectionSnapshot session.protectionSnapshot now).protectionStates =
        session.protectionStates := by
    show (session.protectionStates.mapValues fun _ state => state.metadata).filterMapValues
      (fun _ value => ProtectionState.fromMetadata now value) = session.protectionStates
    exact Dict.filterMapValues_mapValues fun e he =>
      fromMetadata_metadata (h.states e.1 e.2 (Dict.get?_eq_some_iff.mpr he)).1 now
  refine ⟨hspecs, hstates, ?_⟩
  have hpending :
      (other.restoreProtectionSnapshot session.protectionSnapshot now).exitPending =
        session.exitPending.filter fun key =>
          (other.restoreProtectionSnapshot session.protectionSnapshot now).protectionSpecs.contains
              key ∧
            (other.restoreProtectionSnapshot
              session.protectionSnapshot now).protectionStates.contains key := rfl
  rw [hpending, hspecs, hstates]
  refine Finset.filter_true_of_mem fun key hkey => ?_
  have hstate := h.latches key hkey
  obtain ⟨state, hsome⟩ := Option.isSome_iff_exists.mp hstate
  exact ⟨(h.states key state hsome).2, hstate⟩

/-! ## What keeps the order -/

/-- The scale-ins that a report causes on trailing positions without rebase bring an
average between the extremes of the prices seen. -/
def Gentle (session : LiveSession) : Operation → Prop
  | .synchronize raw _ _ _ => ∀ key position state spec,
      (reported session raw).get? key = some position →
      session.protectionStates.get? key = some state →
      session.protectionSpecs.get? key = some spec →
      state.side = sideOf position → state.trailingActive = true →
      spec.trailingRebaseOnScaleIn = false → 0 < position.avgCost →
      AverageMoved state position →
      state.lowestPrice ≤ position.avgCost ∧ position.avgCost ≤ state.highestPrice
  | _ => True

def Operation.continues : Operation → Bool
  | .restore .. => false
  | _ => true

theorem Centered.observe {state : ProtectionState} (h : Centered state) {price : Amount}
    (hprice : 0 < price) :
    Centered { state with
      highestPrice := max state.highestPrice price
      lowestPrice := min state.lowestPrice price } where
  enabled := h.enabled
  entry_pos := h.entry_pos
  lowest_pos := lt_min h.lowest_pos hprice
  lowest_le := le_trans (min_le_left _ _) h.lowest_le
  le_highest := le_trans h.le_highest (le_max_left _ _)

theorem centered_trailingTrigger {state : ProtectionState} (h : Centered state) :
    Centered (ProtectionEngine.trailingTrigger state).2 := by
  have hcases : (ProtectionEngine.trailingTrigger state).2 = state ∨
      (ProtectionEngine.trailingTrigger state).2 = { state with trailingActive := true } := by
    unfold ProtectionEngine.trailingTrigger
    cases state.side <;> dsimp only <;> split_ifs <;> simp
  rcases hcases with heq | heq
  · rw [heq]
    exact h
  · rw [heq]
    exact ⟨h.enabled, h.entry_pos, h.lowest_pos, h.lowest_le, h.le_highest⟩

theorem centered_evaluatePrice {state : ProtectionState} (h : Centered state)
    (mode : IntrabarMode) (ts : Time) (price : Amount) :
    Centered (ProtectionEngine.evaluatePrice mode state ts price).2 := by
  unfold ProtectionEngine.evaluatePrice
  by_cases hprice : price ≤ 0
  · rw [if_pos hprice]
    exact h
  · rw [if_neg hprice]
    exact centered_trailingTrigger (h.observe (not_le.mp hprice))

theorem centered_opened {text : String} {side : Side} {entry : Amount} {spec : ProtectionSpec}
    {openedAt : Time} (hentry : 0 < entry) (hspec : spec.enabled = true) :
    Centered (.opened text side entry spec openedAt) :=
  ⟨hspec, hentry, hentry, le_rfl, le_rfl⟩

theorem centered_applyScaleIn {state : ProtectionState} (h : Centered state) {entry fill : Amount}
    {spec : ProtectionSpec} {scaledAt : Time} (hentry : 0 < entry) (hspec : spec.enabled = true)
    (hgentle : state.trailingActive = true → spec.trailingRebaseOnScaleIn = false →
      state.lowestPrice ≤ entry ∧ entry ≤ state.highestPrice) :
    Centered (state.applyScaleIn entry fill spec scaledAt) := by
  have hor : orElse entry state.entryPrice = entry := if_pos hentry.ne'
  have hreference : 0 < if orElse fill entry ≤ 0 then entry else orElse fill entry := by
    split_ifs with hneg
    · exact hentry
    · exact not_le.mp hneg
  unfold ProtectionState.applyScaleIn
  simp only [hor]
  by_cases hrebase : spec.trailingRebaseOnScaleIn = true
  · rw [if_pos hrebase]
    exact ⟨hspec, hentry, lt_min hentry hreference, min_le_left _ _, le_max_left _ _⟩
  · rw [if_neg hrebase]
    by_cases htrailing : state.trailingActive = true
    · rw [if_pos htrailing]
      obtain ⟨hlow, hhigh⟩ := hgentle htrailing (Bool.not_eq_true _ ▸ hrebase)
      exact ⟨hspec, hentry, h.lowest_pos, hlow, hhigh⟩
    · rw [if_neg htrailing]
      exact ⟨hspec, hentry, lt_min hentry hreference, min_le_left _ _, le_max_left _ _⟩

theorem centered_protectPosition {session : LiveSession} (h : InOrder session)
    {key : PositionKey} {position : Position} {now : Time} {state : ProtectionState}
    (hgentle : ∀ old spec, session.protectionStates.get? key = some old →
      session.protectionSpecs.get? key = some spec → old.side = sideOf position →
      old.trailingActive = true → spec.trailingRebaseOnScaleIn = false → 0 < position.avgCost →
      AverageMoved old position →
      old.lowestPrice ≤ position.avgCost ∧ position.avgCost ≤ old.highestPrice)
    (hstate : protectPosition session.protectionSpecs session.currentDt now key position
      (session.protectionStates.get? key) = some state) :
    Centered state ∧ (session.protectionSpecs.get? key).isSome := by
  unfold protectPosition at hstate
  cases hspec : session.protectionSpecs.get? key with
  | none =>
    rw [hspec] at hstate
    cases hstate
  | some spec =>
    refine ⟨?_, rfl⟩
    have henabled := h.specs key spec hspec
    rw [hspec] at hstate
    dsimp only at hstate
    split at hstate
    · cases hstate
    · rename_i hskip
      have hcost : 0 < position.avgCost := not_le.mp fun hc => hskip (Or.inr hc)
      cases hold : session.protectionStates.get? key with
      | none =>
        rw [hold] at hstate
        cases hstate
        exact centered_opened hcost henabled
      | some old =>
        rw [hold] at hstate
        dsimp only at hstate
        split at hstate
        · cases hstate
          exact centered_opened hcost henabled
        · rename_i hside
          split at hstate
          · rename_i hmoved
            cases hstate
            refine centered_applyScaleIn (h.states key old hold).1 hcost henabled ?_
            intro htrailing hrebase
            exact hgentle old spec hold hspec (not_not.mp hside) htrailing hrebase hcost hmoved
          · cases hstate

theorem inOrder_synchronize {session : LiveSession} (h : InOrder session)
    {raw : List (String × RawPosition)} {cash value : Option Amount} {now : Time}
    (hgentle : Gentle session (.synchronize raw cash value now)) :
    InOrder (session.synchronizePositions raw cash value now) where
  specs := by
    intro key spec hspec
    rw [synchronize_specs] at hspec
    split at hspec
    · cases hspec
    · exact h.specs key spec hspec
  states := by
    intro key state hstate
    rw [synchronize_states] at hstate
    rw [synchronize_specs]
    split at hstate
    · cases hstate
    · rename_i hdone
      rw [if_neg hdone]
      cases hwritten : ((reported session raw).get? key).bind fun position =>
          protectPosition session.protectionSpecs session.currentDt now key position
            (session.protectionStates.get? key) with
      | none =>
        rw [hwritten, Option.none_or] at hstate
        exact h.states key state hstate
      | some written =>
        rw [hwritten, Option.some_or] at hstate
        cases hstate
        obtain ⟨position, hposition, hprotect⟩ := Option.bind_eq_some_iff.mp hwritten
        exact centered_protectPosition h
          (fun old spec hold hspec => hgentle key position old spec hposition hold hspec)
          hprotect
  latches := by
    intro key hkey
    rw [synchronize_exitPending] at hkey
    rw [synchronize_states, if_neg hkey.2]
    have hstate := h.latches key hkey.1
    obtain ⟨state, hsome⟩ := Option.isSome_iff_exists.mp hstate
    rw [hsome]
    cases ((reported session raw).get? key).bind fun position =>
        protectPosition session.protectionSpecs session.currentDt now key position
          (some state) <;> rfl

theorem inOrder_process {session : LiveSession} (h : InOrder session) (handled : Handled) :
    InOrder (session.process handled) := by
  have hcapture : ∀ (orders : List OrderIntent) (specs : Dict PositionKey ProtectionSpec),
      (∀ order ∈ orders, ∀ spec, order.protection = some spec → spec.enabled = true) →
      (∀ key spec, specs.get? key = some spec → spec.enabled = true) →
      (∀ key spec, (captureProtectionIntents specs orders).get? key = some spec →
        spec.enabled = true) ∧
      ∀ key, (specs.get? key).isSome → ((captureProtectionIntents specs orders).get? key).isSome := by
    intro orders
    induction orders with
    | nil => exact fun specs _ hspecs => ⟨hspecs, fun _ hkey => hkey⟩
    | cons order orders ih =>
      intro specs henabled hspecs
      have hrest := fun order ho => henabled order (List.mem_cons_of_mem _ ho)
      unfold captureProtectionIntents
      rw [List.foldl_cons]
      cases hprotection : order.protection with
      | none => exact ih specs hrest hspecs
      | some spec =>
        have hspec := henabled order List.mem_cons_self spec hprotection
        obtain ⟨hnew, hkept⟩ := ih (specs.set order.key spec) hrest (by
          intro key spec' hget
          rw [Dict.get?_set] at hget
          split at hget
          · cases hget
            exact hspec
          · exact hspecs key spec' hget)
        refine ⟨hnew, fun key hkey => hkept key ?_⟩
        rw [Dict.get?_set]
        split
        · rfl
        · exact hkey
  obtain ⟨henabled, hkept⟩ := hcapture handled.orders session.protectionSpecs handled.enabled
    h.specs
  refine ⟨henabled, fun key state hstate => ?_, h.latches⟩
  obtain ⟨hcentered, hspec⟩ := h.states key state hstate
  exact ⟨hcentered, hkept key hspec⟩

theorem inOrder_evaluate {session : LiveSession} (h : InOrder session)
    (prices : Dict String Amount) (ts : Time) :
    InOrder (session.evaluateProtections prices ts).2 where
  specs := h.specs
  states := by
    intro key state hstate
    rw [evaluate_states] at hstate
    obtain ⟨old, hold, rfl⟩ := Option.map_eq_some_iff.mp hstate
    obtain ⟨hcentered, hspec⟩ := h.states key old hold
    refine ⟨?_, hspec⟩
    unfold evaluateOne
    cases session.priceFor prices key with
    | none => exact hcentered
    | some asked => exact centered_evaluatePrice hcentered .conservative ts asked.2
  latches := by
    intro key hkey
    rw [evaluate_states, Option.isSome_map]
    rcases Finset.mem_union.mp hkey with hold | hnew
    · exact h.latches key hold
    · rw [List.mem_toFinset] at hnew
      obtain ⟨exit, hexit, rfl⟩ := List.mem_map.mp hnew
      obtain ⟨entry, hentry, hmap⟩ := List.mem_filterMap.mp hexit
      obtain ⟨close, -, rfl⟩ := Option.map_eq_some_iff.mp hmap
      exact Option.isSome_iff_exists.mpr ⟨entry.2, Dict.get?_eq_some_iff.mpr hentry⟩

theorem inOrder_step {session : LiveSession} (h : InOrder session) {operation : Operation}
    (hkind : Operation.continues operation = true) (hgentle : Gentle session operation) :
    InOrder (session.step operation).2 := by
  cases operation with
  | process handled => exact inOrder_process h handled
  | synchronize raw cash value now => exact inOrder_synchronize h hgentle
  | evaluate prices ts => exact inOrder_evaluate h prices ts
  | release symbol side =>
    exact ⟨h.specs, h.states, fun key hkey => h.latches key (Finset.mem_of_mem_erase hkey)⟩
  | restore snapshot now => cases hkind

/-! ## Runs -/

/-- Every operation of the sequence meets the condition in the state it is applied to. -/
def GentleRun : LiveSession → List Operation → Prop
  | _, [] => True
  | session, operation :: operations =>
    (Operation.continues operation = true ∧ Gentle session operation) ∧
      GentleRun (session.step operation).2 operations

theorem inOrder_create (data : MarketData) (capital : Amount) :
    InOrder (LiveSession.create data capital) where
  specs := fun key spec hspec => nomatch (hspec : none = some spec)
  states := fun key state hstate => nomatch (hstate : none = some state)
  latches := by simp [LiveSession.create]

theorem inOrder_after {session : LiveSession} (h : InOrder session) {operations : List Operation}
    (hrun : GentleRun session operations) : InOrder (session.after operations) := by
  induction operations generalizing session with
  | nil => exact h
  | cons operation operations ih =>
    obtain ⟨⟨hkind, hgentle⟩, hrest⟩ := hrun
    exact ih (inOrder_step h hkind hgentle) hrest

/-- The exits that a sequence of price ticks asks for, tick by tick. -/
def exitsOf : LiveSession → List (Dict String Amount × Time) → List (List OrderIntent)
  | _, [] => []
  | session, tick :: ticks =>
    let result := session.evaluateProtections tick.1 tick.2
    result.1 :: exitsOf result.2 ticks

theorem exitsOf_congr {session other : LiveSession} (ticks : List (Dict String Amount × Time))
    (hpositions : other.positions = session.positions)
    (hstates : other.protectionStates = session.protectionStates)
    (hpending : other.exitPending = session.exitPending) :
    exitsOf other ticks = exitsOf session ticks := by
  induction ticks generalizing session other with
  | nil => rfl
  | cons tick ticks ih =>
    have hone : ∀ key state, other.evaluateOne tick.1 tick.2 key state =
        session.evaluateOne tick.1 tick.2 key state := by
      intro key state
      unfold evaluateOne priceFor
      rw [hpositions, hpending]
    unfold exitsOf
    have hexits : (other.evaluateProtections tick.1 tick.2).1 =
        (session.evaluateProtections tick.1 tick.2).1 := by
      unfold evaluateProtections
      simp only [hone, hstates]
    refine congrArg₂ List.cons hexits (ih hpositions ?_ ?_)
    · unfold evaluateProtections
      simp only [hone, hstates]
    · unfold evaluateProtections
      simp only [hone, hstates, hpending]

/-- **A restart does not change protection.** After every sequence of operations whose
scale-ins are gentle, a session that restores the snapshot has the same specifications,
states and latches, and with the same positions it asks for the same exits on every later
sequence of price ticks. -/
theorem restart_keeps_protection (data : MarketData) (capital : Amount)
    (operations : List Operation)
    (hrun : GentleRun (LiveSession.create data capital) operations)
    (other : LiveSession) (now : Time) :
    let session := (LiveSession.create data capital).after operations
    let restarted := other.restoreProtectionSnapshot session.protectionSnapshot now
    restarted.protectionSpecs = session.protectionSpecs ∧
      restarted.protectionStates = session.protectionStates ∧
      restarted.exitPending = session.exitPending ∧
      (other.positions = session.positions →
        ∀ ticks, exitsOf restarted ticks = exitsOf session ticks) := by
  obtain ⟨hspecs, hstates, hpending⟩ :=
    restore_snapshot (inOrder_after (inOrder_create data capital) hrun) other now
  exact ⟨hspecs, hstates, hpending, fun hpositions ticks =>
    exitsOf_congr ticks hpositions hstates hpending⟩

/-! ## Two restarts -/

def trailTenthOn : ProtectionSpec := .create 0 0 (1 / 10) 0 0 false

def scaledIn : LiveSession := shareSession.after
  [orderProtected trailTenthOn (by decide +kernel), .synchronize (shareAt 1 100) none none 0,
    .evaluate (Dict.ofPairs [("USStock:X", 110)]) 1, .synchronize (shareAt 2 120) none none 2]

/-- The session of the scaled-in share after a restart, told the same positions. -/
def scaledInRestarted : LiveSession :=
  { shareSession with positions := scaledIn.positions }.restoreProtectionSnapshot
    scaledIn.protectionSnapshot 3

/-- The restart moves the peak from 110 to 120, and only the restarted session closes the
position at 105. -/
theorem restart_moves_peak :
    (scaledIn.protectionStates.get? ⟨"USStock:X", none⟩).map ProtectionState.highestPrice =
        some 110 ∧
      (scaledInRestarted.protectionStates.get? ⟨"USStock:X", none⟩).map
        ProtectionState.highestPrice = some 120 ∧
      exitsOf scaledIn [(Dict.ofPairs [("USStock:X", 105)], 4)] = [[]] ∧
      (exitsOf scaledInRestarted [(Dict.ofPairs [("USStock:X", 105)], 4)]).map List.length =
        [1] := by
  refine ⟨?_, ?_, ?_, ?_⟩ <;> decide +kernel

def risenOperations : List Operation :=
  [orderProtected trailTenthOn (by decide +kernel), .synchronize (shareAt 1 100) none none 0,
    .evaluate (Dict.ofPairs [("USStock:X", 110)]) 1]

/-- The restart of the risen share keeps its trailing stop. -/
theorem restart_of_risen_share :
    ((shareSession.restoreProtectionSnapshot
        (shareSession.after risenOperations).protectionSnapshot 3).protectionStates.get?
          ⟨"USStock:X", none⟩).map ProtectionState.highestPrice = some 110 := by
  have hgentle : GentleRun shareSession risenOperations := by
    refine ⟨⟨rfl, trivial⟩, ⟨rfl, ?_⟩, ⟨rfl, trivial⟩, trivial⟩
    intro key position state spec _ hstate
    cases hstate
  have hstates : (shareSession.restoreProtectionSnapshot
      (shareSession.after risenOperations).protectionSnapshot 3).protectionStates =
        (shareSession.after risenOperations).protectionStates :=
    (restart_keeps_protection _ _ risenOperations hgentle shareSession 3).2.1
  rw [hstates]
  decide +kernel

end QuantDinger.Analysis
