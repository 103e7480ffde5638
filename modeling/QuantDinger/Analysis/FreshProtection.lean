import QuantDinger.Analysis.RunRule
import QuantDinger.Model.LiveSession

/-!
# Protection of a new position

`synchronize_positions` opens a protection for a position that has none on its side, and
forgets one only when an exit of its own was under way and the position is gone. A position
closed by a strategy order leaves its state behind, and the next position of the instrument
finds it. This file determines when a position that follows a flat one starts afresh.
-/

namespace QuantDinger.Analysis

open QuantDinger.Library QuantDinger.Model QuantDinger.Model.LiveSession

/-! ## What each operation does to one key -/

section OneKey

variable (session : LiveSession) (key : PositionKey)

/-- The positions that a call of `synchronize_positions` reports. -/
def reported (raw : List (String × RawPosition)) : Dict PositionKey Position :=
  Dict.ofPairs (raw.map session.readPosition)

/-- The key is absent, or its amount is zero up to the tolerance of the source. -/
def Flat (positions : Dict PositionKey Position) (key : PositionKey) : Prop :=
  ∀ position, positions.get? key = some position → |position.amount| ≤ 1 / 10 ^ 12

/-- An exit of the key was under way and its position is gone. -/
def ExitDone (raw : List (String × RawPosition)) : Prop :=
  key ∈ session.exitPending ∧ (reported session raw).get? key = none

instance (raw : List (String × RawPosition)) : Decidable (ExitDone session key raw) :=
  inferInstanceAs (Decidable (_ ∧ _))

/-- The latches that `synchronize_positions` releases. -/
def released (raw : List (String × RawPosition)) : Finset PositionKey :=
  session.exitPending.filter fun key => ((reported session raw).get? key).isNone

theorem mem_released (raw : List (String × RawPosition)) :
    key ∈ released session raw ↔ ExitDone session key raw := by
  unfold released ExitDone
  rw [Finset.mem_filter, Option.isNone_iff_eq_none]

theorem synchronize_exitPending (raw : List (String × RawPosition)) (cash value : Option Amount)
    (now : Time) :
    key ∈ (session.synchronizePositions raw cash value now).exitPending ↔
      key ∈ session.exitPending ∧ ¬ ExitDone session key raw := by
  show key ∈ session.exitPending \ released session raw ↔ _
  rw [Finset.mem_sdiff, mem_released]

theorem synchronize_specs (raw : List (String × RawPosition)) (cash value : Option Amount)
    (now : Time) :
    (session.synchronizePositions raw cash value now).protectionSpecs.get? key =
      if ExitDone session key raw then none else session.protectionSpecs.get? key := by
  show (session.protectionSpecs.filterMapValues fun key spec =>
    if key ∈ released session raw then none else some spec).get? key = _
  rw [Dict.get?_filterMapValues]
  have hreleased := mem_released session key raw
  by_cases hdone : ExitDone session key raw
  · simp only [if_pos hdone, if_pos (hreleased.mpr hdone), Option.bind_fun_none]
  · simp only [if_neg hdone, if_neg (hreleased.not.mpr hdone), Option.bind_fun_some]

theorem synchronize_states (raw : List (String × RawPosition)) (cash value : Option Amount)
    (now : Time) :
    (session.synchronizePositions raw cash value now).protectionStates.get? key =
      if ExitDone session key raw then none
      else (((reported session raw).get? key).bind fun position =>
        protectPosition session.protectionSpecs session.currentDt now key position
          (session.protectionStates.get? key)).or (session.protectionStates.get? key) := by
  have hpass := Dict.get?_foldl_updateWith (reported session raw)
    (protectPosition session.protectionSpecs session.currentDt now)
    session.protectionStates key
  rw [← hpass]
  show (Dict.filterMapValues _ fun key state =>
    if key ∈ released session raw then none else some state).get? key = _
  rw [Dict.get?_filterMapValues]
  have hreleased := mem_released session key raw
  by_cases hdone : ExitDone session key raw
  · simp only [if_pos hdone, if_pos (hreleased.mpr hdone), Option.bind_fun_none]
  · simp only [if_neg hdone, if_neg (hreleased.not.mpr hdone), Option.bind_fun_some]
    rfl

theorem evaluate_states (prices : Dict String Amount) (ts : Time) :
    (session.evaluateProtections prices ts).2.protectionStates.get? key =
      (session.protectionStates.get? key).map fun state =>
        (session.evaluateOne prices ts key state).2 := by
  show (Dict.mapValues _ _).get? key = _
  rw [Dict.get?_mapValues]

end OneKey

/-! ## Flat keys -/

theorem synchronize_states_of_flat {session : LiveSession} {key : PositionKey}
    {raw : List (String × RawPosition)} (h : Flat (reported session raw) key)
    (cash value : Option Amount) (now : Time) :
    (session.synchronizePositions raw cash value now).protectionStates.get? key =
      if ExitDone session key raw then none else session.protectionStates.get? key := by
  rw [synchronize_states]
  refine if_congr Iff.rfl rfl ?_
  cases hposition : (reported session raw).get? key with
  | none => rfl
  | some position =>
    have hflat := h position hposition
    have hnone : protectPosition session.protectionSpecs session.currentDt now key position
        (session.protectionStates.get? key) = none := by
      unfold protectPosition
      cases session.protectionSpecs.get? key with
      | none => rfl
      | some spec => exact if_pos (Or.inl hflat)
    rw [Option.bind_some, hnone, Option.none_or]

theorem evaluate_states_of_flat {session : LiveSession} {key : PositionKey}
    (h : Flat session.positions key) (prices : Dict String Amount) (ts : Time) :
    (session.evaluateProtections prices ts).2.protectionStates.get? key =
      session.protectionStates.get? key := by
  have hprice : session.priceFor prices key = none := by
    unfold priceFor
    split
    · rfl
    · cases hposition : session.positions.get? key with
      | none => rfl
      | some position => exact if_pos (h position hposition)
  rw [evaluate_states]
  unfold evaluateOne
  rw [hprice]
  exact Option.map_id'

def restoredState (snapshot : ProtectionSnapshot) (now : Time) (key : PositionKey) :
    Option ProtectionState :=
  (snapshot.states.get? key).bind (ProtectionState.fromMetadata now)

/-- What is left of a key's state by operations that report no positions. -/
def leftover (key : PositionKey) (state : Option ProtectionState) (operations : List Operation) :
    Option ProtectionState :=
  operations.foldl (fun state operation => match operation with
    | .restore snapshot now => restoredState snapshot now key
    | _ => state) state

def Operation.synchronizes : Operation → Bool
  | .synchronize .. => true
  | _ => false

theorem after_states_of_flat {key : PositionKey} (operations : List Operation)
    (hoperations : ∀ operation ∈ operations, Operation.synchronizes operation = false)
    {session : LiveSession} (h : Flat session.positions key) :
    (session.after operations).protectionStates.get? key =
      leftover key (session.protectionStates.get? key) operations := by
  induction operations generalizing session with
  | nil => rfl
  | cons operation operations ih =>
    have hrest : ∀ operation ∈ operations, Operation.synchronizes operation = false :=
      fun operation ho => hoperations operation (List.mem_cons_of_mem _ ho)
    have hkind := hoperations operation List.mem_cons_self
    show ((session.step operation).2.after operations).protectionStates.get? key = _
    unfold leftover
    rw [List.foldl_cons]
    cases operation with
    | synchronize raw cash value now => cases hkind
    | process handled => exact ih hrest h
    | release symbol side => exact ih hrest h
    | evaluate prices ts =>
      rw [← evaluate_states_of_flat h prices ts]
      exact ih hrest h
    | restore snapshot now =>
      have hrestored : restoredState snapshot now key =
          (session.restoreProtectionSnapshot snapshot now).protectionStates.get? key := by
        show _ = (Dict.filterMapValues _ _).get? key
        rw [Dict.get?_filterMapValues]
        rfl
      dsimp only
      rw [hrestored]
      exact ih hrest h

/-! ## New positions -/

/-- The protection of a position that starts afresh, if it is protected at all. -/
def freshState (session : LiveSession) (key : PositionKey) (position : Position) (now : Time) :
    Option ProtectionState :=
  (session.protectionSpecs.get? key).bind fun spec =>
    if position.avgCost ≤ 0 then none
    else some (.opened key.text (sideOf position) position.avgCost spec
      (session.currentDt.getD now))

/-- The average has moved by more than the tolerance of the source. -/
def AverageMoved (state : ProtectionState) (position : Position) : Prop :=
  max (1 / 10 ^ 12) (|state.entryPrice| * (1 / 10 ^ 10)) < |position.avgCost - state.entryPrice|

instance (state : ProtectionState) (position : Position) :
    Decidable (AverageMoved state position) := inferInstanceAs (Decidable (_ < _))

/-- The scale-in of a leftover state makes a fresh one: the price that came with the
position is its average or unknown, trailing is off or rebased, and the opening time is the
current one. -/
def ScalesAfresh (state : ProtectionState) (key : PositionKey) (position : Position)
    (spec : ProtectionSpec) (currentDt : Option Time) (now : Time) : Prop :=
  state.symbol = key.text ∧ (position.lastPrice ≤ 0 ∨ position.lastPrice = position.avgCost) ∧
    if spec.trailingRebaseOnScaleIn then currentDt.getD state.openedAt = currentDt.getD now
    else state.trailingActive = false ∧ state.openedAt = currentDt.getD now

/-- Nothing of a leftover state shows in the protection of the new position: there is none,
or it belongs to the other side, or the scale-in of the leftover makes a fresh state, or
the leftover is a fresh state. -/
def Untainted (session : LiveSession) (key : PositionKey) (position : Position) (now : Time) :
    Option ProtectionState → Prop
  | none => True
  | some state => ∃ spec, session.protectionSpecs.get? key = some spec ∧ 0 < position.avgCost ∧
      (state.side ≠ sideOf position ∨
        if AverageMoved state position then
          ScalesAfresh state key position spec session.currentDt now
        else some state = freshState session key position now)

theorem extremes_eq_iff {average reference : Amount} :
    max average reference = average ∧ min average reference = average ↔ reference = average := by
  constructor
  · rintro ⟨hmax, hmin⟩
    exact le_antisymm (max_eq_left_iff.mp hmax) (min_eq_left_iff.mp hmin)
  · rintro rfl
    exact ⟨max_self _, min_self _⟩

theorem applyScaleIn_eq_opened_iff {state : ProtectionState} {key : PositionKey}
    {position : Position} {spec : ProtectionSpec} {currentDt : Option Time} {now : Time}
    (hside : state.side = sideOf position) (hcost : 0 < position.avgCost) :
    state.applyScaleIn position.avgCost (orElse position.lastPrice position.avgCost) spec
        (currentDt.getD state.openedAt) =
      .opened key.text (sideOf position) position.avgCost spec (currentDt.getD now) ↔
    ScalesAfresh state key position spec currentDt now := by
  have hentry : orElse position.avgCost state.entryPrice = position.avgCost :=
    if_pos hcost.ne'
  have hfill : orElse (orElse position.lastPrice position.avgCost) position.avgCost =
      orElse position.lastPrice position.avgCost := by
    unfold orElse
    split_ifs <;> simp_all
  have hreference : (if orElse position.lastPrice position.avgCost ≤ 0 then position.avgCost
      else orElse position.lastPrice position.avgCost) = position.avgCost ↔
      (position.lastPrice ≤ 0 ∨ position.lastPrice = position.avgCost) := by
    unfold orElse
    by_cases hzero : position.lastPrice = 0
    · simp [hzero]
    · by_cases hneg : position.lastPrice ≤ 0
      · simp [hzero, hneg]
      · simp [hzero, hneg]
  unfold ProtectionState.applyScaleIn ScalesAfresh
  simp only [hentry, hfill]
  rcases state with ⟨symbol, side, entry, spec', openedAt, highest, lowest, active⟩
  dsimp only at hside ⊢
  rw [← hreference, ← extremes_eq_iff, ← hside]
  by_cases hrebase : spec.trailingRebaseOnScaleIn = true
  · simp only [hrebase, if_true, ProtectionState.opened, ProtectionState.mk.injEq, true_and,
      and_true]
    tauto
  · cases active with
    | true => simp [hrebase, ProtectionState.opened]
    | false =>
      simp only [hrebase, if_false, ProtectionState.opened, ProtectionState.mk.injEq, true_and,
        and_true, Bool.false_eq_true]
      tauto

theorem synchronize_fresh_iff {session : LiveSession} {key : PositionKey}
    {raw : List (String × RawPosition)} {position : Position}
    (hposition : (reported session raw).get? key = some position)
    (hopen : 1 / 10 ^ 12 < |position.amount|) (cash value : Option Amount) (now : Time) :
    (session.synchronizePositions raw cash value now).protectionStates.get? key =
        freshState session key position now ↔
      Untainted session key position now (session.protectionStates.get? key) := by
  have hnotDone : ¬ ExitDone session key raw := by
    rintro ⟨-, hnone⟩
    rw [hposition] at hnone
    cases hnone
  rw [synchronize_states, if_neg hnotDone, hposition, Option.bind_some]
  unfold protectPosition freshState
  cases hspec : session.protectionSpecs.get? key with
  | none =>
    cases session.protectionStates.get? key with
    | none => simp [Untainted]
    | some state => simp [Untainted, hspec]
  | some spec =>
    by_cases hcost : position.avgCost ≤ 0
    · cases session.protectionStates.get? key with
      | none => simp [Untainted, hcost]
      | some state => simp [Untainted, hcost]
    · have hskip : ¬ (|position.amount| ≤ 1 / 10 ^ 12 ∨ position.avgCost ≤ 0) := by
        rintro (hsmall | hsmall)
        · exact absurd hopen (not_lt.mpr hsmall)
        · exact hcost hsmall
      simp only [if_neg hskip, Option.bind_some, if_neg hcost]
      cases hstate : session.protectionStates.get? key with
      | none => simp [Untainted]
      | some state =>
        have huntainted : Untainted session key position now (some state) ↔
            (state.side ≠ sideOf position ∨
              if AverageMoved state position then
                ScalesAfresh state key position spec session.currentDt now
              else some state = freshState session key position now) := by
          constructor
          · rintro ⟨spec', hspec', -, hstate'⟩
            rw [hspec] at hspec'
            cases hspec'
            exact hstate'
          · intro hstate'
            exact ⟨spec, hspec, not_le.mp hcost, hstate'⟩
        rw [huntainted]
        by_cases hside : state.side = sideOf position
        · by_cases hmoved : AverageMoved state position
          · have hscale := @applyScaleIn_eq_opened_iff state key position spec
              session.currentDt now hside (not_le.mp hcost)
            simp only [hside, ne_eq, not_true_eq_false, if_false, if_pos hmoved, false_or]
            unfold AverageMoved at hmoved
            rw [if_pos hmoved, Option.some_or, Option.some.injEq]
            exact hscale
          · simp only [hside, ne_eq, not_true_eq_false, if_false, if_neg hmoved, false_or]
            unfold AverageMoved at hmoved
            rw [if_neg hmoved, Option.none_or]
            unfold freshState
            rw [hspec, Option.bind_some, if_neg hcost]
        · simp [hside]

/-- **A new position and the protection before it.** A key is found flat, then come
operations that report no positions, then the key is found open. Its protection is a fresh
one exactly when nothing shows of what was left under the key: the state it had when it was
flat, unless an exit of its own was done then, or what a snapshot put there since. -/
theorem new_position_fresh_iff {session later : LiveSession} {key : PositionKey}
    {raw raw' : List (String × RawPosition)} {cash cash' value value' : Option Amount}
    {now now' : Time} {operations : List Operation} {position : Position}
    (hflat : Flat (reported session raw) key)
    (hoperations : ∀ operation ∈ operations, Operation.synchronizes operation = false)
    (hlater : later = (session.synchronizePositions raw cash value now).after operations)
    (hposition : (reported later raw').get? key = some position)
    (hopen : 1 / 10 ^ 12 < |position.amount|) :
    (later.synchronizePositions raw' cash' value' now').protectionStates.get? key =
        freshState later key position now' ↔
      Untainted later key position now' (leftover key
        (if ExitDone session key raw then none else session.protectionStates.get? key)
        operations) := by
  have hkept := after_states_of_flat operations hoperations
    (show Flat (session.synchronizePositions raw cash value now).positions key from hflat)
  rw [synchronize_states_of_flat hflat, ← hlater] at hkept
  rw [← hkept]
  exact synchronize_fresh_iff hposition hopen cash' value' now'

/-! ## Two sessions -/

def shareSession : LiveSession :=
  LiveSession.create (singleMarket "USStock:X" (flatFrame [(100, 0)])) 1000

def orderProtected (spec : ProtectionSpec) (h : spec.enabled = true) : Operation :=
  .process
    { data := singleMarket "USStock:X" (flatFrame [(100, 0)])
      currentDt := some 0
      orders := [{ symbol := "USStock:X", kind := .quantity, value := 1, protection := some spec }]
      enabled := by
        intro order horder spec' hspec
        rw [List.mem_singleton] at horder
        subst horder
        cases hspec
        exact h }

def shareAt (amount average : Amount) : List (String × RawPosition) :=
  [("USStock:X",
    { amount := some amount, avgCost := some average, lastPrice := some average })]

def trailTenth : ProtectionSpec := .create 0 0 (1 / 10) 0 0 true

def soldByStrategy : LiveSession := shareSession.after
  [orderProtected trailTenth (by decide +kernel), .synchronize (shareAt 1 100) none none 0,
    .evaluate (Dict.ofPairs [("USStock:X", 120)]) 1]

/-- The share bought again at 100 inherits the peak and the trailing of the sold one. -/
theorem rebought_share_inherits_peak :
    Flat (reported soldByStrategy []) ⟨"USStock:X", none⟩ ∧
    ((soldByStrategy.synchronizePositions [] none none 2).synchronizePositions
        (shareAt 1 100) none none 3).protectionStates.get? ⟨"USStock:X", none⟩ =
      some { ProtectionState.opened "USStock:X" .long 100 trailTenth 0 with
        highestPrice := 120, trailingActive := true } ∧
    freshState (soldByStrategy.synchronizePositions [] none none 2) ⟨"USStock:X", none⟩
        { symbol := "USStock:X", amount := 1, avgCost := 100, lastPrice := 100 } 3 =
      some (.opened "USStock:X" .long 100 trailTenth 0) := by
  refine ⟨fun position hposition => ?_, by decide +kernel, by decide +kernel⟩
  simp [reported, Dict.ofPairs] at hposition

def closedByProtection : LiveSession := shareSession.after
  [orderProtected trailTenth (by decide +kernel), .synchronize (shareAt 1 100) none none 0,
    .evaluate (Dict.ofPairs [("USStock:X", 80)]) 1]

/-- The share bought again after the exit of its protection starts afresh. -/
theorem rebought_share_fresh :
    (((closedByProtection.synchronizePositions [] none none 2).after
        [orderProtected trailTenth (by decide +kernel)]).synchronizePositions
        (shareAt 1 90) none none 3).protectionStates.get? ⟨"USStock:X", none⟩ =
      freshState ((closedByProtection.synchronizePositions [] none none 2).after
        [orderProtected trailTenth (by decide +kernel)]) ⟨"USStock:X", none⟩
        { symbol := "USStock:X", amount := 1, avgCost := 90, lastPrice := 90 } 3 := by
  have hflat : Flat (reported closedByProtection []) ⟨"USStock:X", none⟩ := by
    intro position hposition
    simp [reported, Dict.ofPairs] at hposition
  refine (new_position_fresh_iff hflat (by simp [Operation.synchronizes, orderProtected]) rfl
    (by decide +kernel) (by decide +kernel)).mpr ?_
  have hnone : leftover ⟨"USStock:X", none⟩
      (if ExitDone closedByProtection ⟨"USStock:X", none⟩ [] then none
        else closedByProtection.protectionStates.get? ⟨"USStock:X", none⟩)
      [orderProtected trailTenth (by decide +kernel)] = none := by decide +kernel
  rw [hnone]
  exact trivial

end QuantDinger.Analysis
