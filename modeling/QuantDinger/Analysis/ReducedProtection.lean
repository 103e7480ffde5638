import QuantDinger.Analysis.BatchDecisions

/-!
# Protection of a reduced position

The upkeep of protections in `execute` does not ask whether a fill enlarges or reduces its
position: an order that carries a protection, be it the default one, goes through
`apply_scale_in` either way. A reduction without a protection leaves the state alone; one with a
protection keeps it only in the cases of `ScaleInKeeps`.
-/

namespace QuantDinger.Analysis

open QuantDinger.Library QuantDinger.Model

/-! ## What is kept -/

/-- The trailing trigger of a state is not looser after a change than before. -/
def TriggerKept (before after : ProtectionState) : Prop :=
  ∀ trigger ∈ (ProtectionEngine.trailingTrigger before).1,
    ∃ new ∈ (ProtectionEngine.trailingTrigger after).1,
      match before.side with
      | .long => trigger ≤ new
      | .short => new ≤ trigger

/-- The trailing flag, the extremes and the opening time are kept, and the trailing trigger is not
loosened. -/
structure ProtectionKept (before after : ProtectionState) : Prop where
  trailingActive : after.trailingActive = before.trailingActive
  highestPrice : after.highestPrice = before.highestPrice
  lowestPrice : after.lowestPrice = before.lowestPrice
  openedAt : after.openedAt = before.openedAt
  trigger : TriggerKept before after

/-- `apply_scale_in` keeps a state: with the rebase flag only a state that is as fresh as the one
it would set up, without it a state that is trailing or has fresh extremes; and the trigger is not
looser under the new specification.
SOURCE: protection.py:107-136 -/
def ScaleInKeeps (state : ProtectionState) (entryPrice fillPrice : Amount) (spec : ProtectionSpec)
    (scaledAt : Time) : Prop :=
  let entry := orElse entryPrice state.entryPrice
  let fill := orElse fillPrice entry
  let reference := if fill ≤ 0 then entry else fill
  (spec.trailingRebaseOnScaleIn = true →
      state.trailingActive = false ∧ state.openedAt = scaledAt) ∧
    (spec.trailingRebaseOnScaleIn = true ∨ state.trailingActive = false →
      state.highestPrice = max entry reference ∧ state.lowestPrice = min entry reference) ∧
    TriggerKept state { state with entryPrice := entry, spec := spec }

/-- A protection is on the side of its position. -/
def Sided (broker : Broker) : Prop :=
  ∀ key state position, broker.protections.get? key = some state →
    broker.positions.get? key = some position → state.side = sideOf position.amount

/-! ## One reduction -/

section Reduction

variable {state : ProtectionState} {entryPrice fillPrice : Amount} {spec : ProtectionSpec}
  {scaledAt : Time}

theorem triggerKept_refl (state : ProtectionState) : TriggerKept state state := by
  intro trigger htrigger
  refine ⟨trigger, htrigger, ?_⟩
  cases state.side with
  | long => exact le_rfl
  | short => exact le_rfl

theorem protectionKept_refl (state : ProtectionState) : ProtectionKept state state :=
  ⟨rfl, rfl, rfl, rfl, triggerKept_refl state⟩

@[simp] theorem applyScaleIn_side :
    (state.applyScaleIn entryPrice fillPrice spec scaledAt).side = state.side := by
  unfold ProtectionState.applyScaleIn
  dsimp only
  split_ifs <;> rfl

theorem scaleIn_kept_iff :
    ProtectionKept state (state.applyScaleIn entryPrice fillPrice spec scaledAt) ↔
      ScaleInKeeps state entryPrice fillPrice spec scaledAt := by
  unfold ProtectionState.applyScaleIn ScaleInKeeps
  dsimp only
  generalize horEntry : orElse entryPrice state.entryPrice = entry
  generalize hreference : (if orElse fillPrice entry ≤ 0 then entry else orElse fillPrice entry) =
    reference
  by_cases hrebase : spec.trailingRebaseOnScaleIn = true
  · rw [if_pos hrebase]
    constructor
    · rintro ⟨hactive, hhigh, hlow, hopened, htrigger⟩
      dsimp only at hactive hhigh hlow hopened
      refine ⟨fun _ => ⟨hactive.symm, hopened.symm⟩, fun _ => ⟨hhigh.symm, hlow.symm⟩, ?_⟩
      rw [hhigh, hlow, hactive, hopened] at htrigger
      exact htrigger
    · rintro ⟨hfresh, hextremes, htrigger⟩
      obtain ⟨hactive, hopened⟩ := hfresh hrebase
      obtain ⟨hhigh, hlow⟩ := hextremes (Or.inl hrebase)
      refine ⟨hactive.symm, hhigh.symm, hlow.symm, hopened.symm, ?_⟩
      rw [← hhigh, ← hlow, ← hopened, ← hactive]
      exact htrigger
  rw [if_neg hrebase]
  by_cases hactive : state.trailingActive = true
  · rw [if_pos hactive]
    constructor
    · intro hkept
      refine ⟨fun h => absurd h hrebase, ?_, hkept.trigger⟩
      rintro (h | h)
      · exact absurd h hrebase
      · rw [hactive] at h
        exact Bool.noConfusion h
    · rintro ⟨-, -, htrigger⟩
      exact ⟨rfl, rfl, rfl, rfl, htrigger⟩
  · rw [if_neg hactive]
    rw [Bool.not_eq_true] at hactive
    constructor
    · rintro ⟨-, hhigh, hlow, -, htrigger⟩
      dsimp only at hhigh hlow
      refine ⟨fun h => absurd h hrebase, fun _ => ⟨hhigh.symm, hlow.symm⟩, ?_⟩
      rw [hhigh, hlow] at htrigger
      exact htrigger
    · rintro ⟨-, hextremes, htrigger⟩
      obtain ⟨hhigh, hlow⟩ := hextremes (Or.inr hactive)
      refine ⟨rfl, hhigh.symm, hlow.symm, rfl, ?_⟩
      rw [← hhigh, ← hlow]
      exact htrigger

end Reduction

section Fill

variable {config : BrokerConfig} {ts : Time} {order : OrderIntent} {plan : FillPlan}

theorem sideOf_of_mul_pos {x y : Amount} (h : 0 < x * y) : sideOf y = sideOf x := by
  unfold sideOf
  rcases pos_and_pos_or_neg_and_neg_of_mul_pos h with ⟨hx, hy⟩ | ⟨hx, hy⟩
  · rw [if_pos hx, if_pos hy]
  · rw [if_neg hx.not_gt, if_neg hy.not_gt]

theorem protectionAfterFill_side {existing : Option ProtectionState} {state : ProtectionState}
    (h : protectionAfterFill order plan ts existing = some state) :
    state.side = sideOf plan.targetAmount := by
  unfold protectionAfterFill at h
  dsimp only at h
  cases existing with
  | none =>
    cases hspec : order.protection with
    | none =>
      rw [hspec] at h
      exact absurd h (by simp)
    | some spec =>
      rw [hspec] at h
      cases h
      rfl
  | some old =>
    by_cases hside : old.side = sideOf plan.targetAmount
    · have hchanged : (some old).any (fun s => decide (s.side ≠ sideOf plan.targetAmount)) =
          false := by
        simp [hside]
      rw [hchanged] at h
      cases hspec : order.protection with
      | none =>
        rw [hspec] at h
        cases h
        exact hside
      | some spec =>
        rw [hspec] at h
        cases h
        rw [applyScaleIn_side, hside]
    · have hchanged : (some old).any (fun s => decide (s.side ≠ sideOf plan.targetAmount)) =
          true := by
        simp [hside]
      rw [hchanged] at h
      cases hspec : order.protection with
      | none =>
        rw [hspec] at h
        cases h
        rfl
      | some spec =>
        rw [hspec] at h
        cases h
        rfl

theorem protectionAfterFill_same {state : ProtectionState}
    (hside : state.side = sideOf plan.targetAmount) :
    protectionAfterFill order plan ts (some state) =
      some (match order.protection with
        | none => state
        | some spec => state.applyScaleIn plan.position.avgCost plan.fillPrice spec ts) := by
  have hchanged : (some state).any (fun s => decide (s.side ≠ sideOf plan.targetAmount)) =
      false := by
    simp [hside]
  unfold protectionAfterFill
  dsimp only
  rw [hchanged]
  cases order.protection with
  | none => rfl
  | some spec => rfl

theorem protectionAfterFill_isSome (old : ProtectionState) :
    protectionAfterFill order plan ts (some old) ≠ none := by
  unfold protectionAfterFill
  dsimp only
  by_cases hcond : order.protection.isSome = true ∨
      (some old).any (fun s => decide (s.side ≠ sideOf plan.targetAmount)) = true
  · rw [if_pos hcond]
    cases order.protection with
    | none =>
      dsimp only [Option.map, HOrElse.hOrElse, OrElse.orElse, Option.orElse]
      split_ifs <;> exact Option.some_ne_none _
    | some spec =>
      dsimp only [HOrElse.hOrElse, OrElse.orElse, Option.orElse]
      split_ifs <;> exact Option.some_ne_none _
  · rw [if_neg hcond]
    exact Option.some_ne_none _

theorem work_protection {broker : Broker} {equity : Amount} {bar : Option Bar}
    {openPrice : Option Amount} (hopen : plan.closes = false) :
    (broker.work config ts equity order bar openPrice (.fill plan)).1.protections.get? order.key =
      (protectionAfterFill order plan ts (broker.protections.get? order.key)) := by
  show (protectionsAfterFill broker.protections order plan ts).get? order.key = _
  unfold protectionsAfterFill
  rw [hopen, if_neg Bool.false_ne_true]
  cases hafter : protectionAfterFill order plan ts (broker.protections.get? order.key) with
  | some state => exact Dict.get?_set_self _ _ _
  | none =>
    cases hbefore : broker.protections.get? order.key with
    | none => rfl
    | some old =>
      rw [hbefore] at hafter
      exact absurd hafter (protectionAfterFill_isSome old)

theorem averageCost_of_reduction {before cost after price : Amount} (hopen : 1 / 10 ^ 12 < |after|)
    (hsame : 0 < before * after) (hless : |after| < |before|) :
    nextAverageCost before cost (after - before) price = cost := by
  unfold nextAverageCost
  dsimp only
  have hsum : before + (after - before) = after := by ring
  rw [hsum, if_neg (not_le.mpr hopen), if_neg, if_neg (not_lt.mpr hsame.le)]
  rintro (hzero | hadds)
  · rw [hzero, zero_mul] at hsame
    exact lt_irrefl _ hsame
  · have hsquare : before * after < before * before := by
      rcases pos_and_pos_or_neg_and_neg_of_mul_pos hsame with ⟨hb, ha⟩ | ⟨hb, ha⟩
      · rw [abs_of_pos ha, abs_of_pos hb] at hless
        exact mul_lt_mul_of_pos_left hless hb
      · rw [abs_of_neg ha, abs_of_neg hb] at hless
        exact mul_lt_mul_of_neg_left (by linarith) hb
    rw [mul_sub] at hadds
    linarith

end Fill

/-! ## Protections on the side of their positions -/

theorem trailingTrigger_side (state : ProtectionState) :
    (ProtectionEngine.trailingTrigger state).2.side = state.side := by
  obtain ⟨symbol, side, entryPrice, spec, openedAt, highestPrice, lowestPrice, active⟩ := state
  unfold ProtectionEngine.trailingTrigger
  dsimp only
  by_cases hoff : spec.trailingStopPct ≤ 0
  · rw [if_pos hoff]
  rw [if_neg hoff]
  cases side with
  | long =>
    dsimp only
    split_ifs <;> rfl
  | short =>
    dsimp only
    split_ifs <;> rfl

theorem evaluateBar_side (mode : IntrabarMode) (state : ProtectionState) (ts : Time)
    (openPrice high low : Amount) :
    (ProtectionEngine.evaluateBar mode state ts openPrice high low).2.side = state.side := by
  unfold ProtectionEngine.evaluateBar ProtectionEngine.barCandidates
  dsimp only
  split
  · exact trailingTrigger_side state
  · exact trailingTrigger_side state

section Sides

variable {config : BrokerConfig} {ts : Time} {broker : Broker}

theorem sided_create (initialCapital : Amount) : Sided (Broker.create initialCapital) := by
  intro key state position hstate
  exact absurd hstate (by simp [Broker.create])

theorem Sided.remark (h : Sided broker) {positions : Dict PositionKey Position}
    (hmarked : List.Forall₂ (fun e e' => e'.1 = e.1 ∧ e'.2.amount = e.2.amount)
      broker.positions.entries positions.entries) :
    Sided (broker.withAccount (broker.toAccount.remark positions)) := by
  intro key state position hstate hposition
  obtain ⟨old, hold, hsame⟩ := Dict.exists_get?_of_forall₂
    (R := fun old new : Position => new.amount = old.amount) hmarked hposition
  rw [hsame]
  exact h key state old hstate hold

theorem Sided.work (h : Sided broker) (equity : Amount) (order : OrderIntent) (bar : Option Bar)
    (openPrice : Option Amount) (outcome : Outcome) :
    Sided (broker.work config ts equity order bar openPrice outcome).1 := by
  cases outcome with
  | blocked reason =>
    unfold Broker.work Broker.settle
    exact h
  | rejected reason requested =>
    unfold Broker.work Broker.settle
    exact h
  | resting requested =>
    unfold Broker.work Broker.settle
    exact h
  | fill plan =>
    intro key state position hstate hposition
    have hpositions : (broker.work config ts equity order bar openPrice
        (.fill plan)).1.positions = if plan.closes then broker.positions.erase order.key
          else broker.positions.set order.key plan.position :=
      fill_positions config broker.toAccount (ts, broker.orderSequence + 1) ts order plan
    rw [hpositions] at hposition
    by_cases hkey : key = order.key
    · subst hkey
      cases hcloses : plan.closes with
      | true =>
        rw [hcloses, if_pos rfl, Dict.get?_erase, if_pos rfl] at hposition
        cases hposition
      | false =>
        rw [hcloses, if_neg Bool.false_ne_true, Dict.get?_set_self] at hposition
        cases hposition
        rw [work_protection hcloses] at hstate
        exact protectionAfterFill_side hstate
    · have hold : broker.positions.get? key = some position := by
        cases hcloses : plan.closes with
        | true =>
          rw [hcloses, if_pos rfl, Dict.get?_erase, if_neg hkey] at hposition
          exact hposition
        | false =>
          rw [hcloses, if_neg Bool.false_ne_true, Dict.get?_set, if_neg hkey] at hposition
          exact hposition
      refine h key state position ?_ hold
      rw [← hstate]
      show _ = (protectionsAfterFill broker.protections order plan ts).get? key
      unfold protectionsAfterFill
      split
      · rw [Dict.get?_erase, if_neg hkey]
      · split
        · rw [Dict.get?_set, if_neg hkey]
        · rfl

theorem execute_sided {data : MarketData} {overrides : Dict PositionKey Amount}
    {orders : List OrderIntent} (h : Sided broker) :
    Post (Serves data) (broker.execute config ts overrides orders) (fun r => Sided r.2) := by
  have hmark : ∀ (b : Broker) (marks : Dict PositionKey Amount), Sided b →
      Post (Serves data) (b.markToMarketBeforeFill ts marks) Sided := by
    intro b marks hb
    refine (markWith_post (Q := fun _ _ _ => True) fun e _ => fillQuote_post marks e.1 e.2).mono ?_
    rintro marked ⟨positions, hpositions, rfl⟩
    refine hb.remark (hpositions.imp ?_)
    rintro e e' ⟨hkey, price, -, hsame⟩
    refine ⟨hkey, ?_⟩
    rw [hsame]
  refine execute_rule (P := fun _ _ batch => Sided batch.broker) ?_ ?_ ?_ fun _ => h
  · exact hmark broker overrides h
  · intro equity order rest batch key outcome hbatch _
    exact hbatch.work equity order _ _ outcome
  · intro equity batch hbatch
    exact hmark batch.broker batch.marks hbatch

theorem Sided.congr {broker' : Broker} (h : Sided broker)
    (hpositions : broker'.positions = broker.positions)
    (hprotections : ∀ key state, broker'.protections.get? key = some state →
      broker.protections.get? key = some state) : Sided broker' := by
  intro key state position hstate hposition
  rw [hpositions] at hposition
  exact h key state position (hprotections key state hstate) hposition

theorem checkProtection_sided {data : MarketData} {pass : Broker × List Broker.Exit}
    {entry : PositionKey × ProtectionState} {positions : Dict PositionKey Position}
    (h : Sided pass.1 ∧ pass.1.positions = positions)
    (hentry : ∀ position, positions.get? entry.1 = some position →
      entry.2.side = sideOf position.amount) :
    Post (Serves data) (Broker.checkProtection ts pass entry)
      (fun next => Sided next.1 ∧ next.1.positions = positions) := by
  obtain ⟨hsided, hpositions⟩ := h
  refine Post.bind (barAt_post _ ts) fun bar _ => ?_
  dsimp only
  split
  · refine Post.pure ⟨hsided.congr rfl ?_, hpositions⟩
    intro key state hstate
    dsimp only at hstate
    rw [Dict.get?_erase] at hstate
    split_ifs at hstate
    exact hstate
  · exact Post.pure ⟨hsided, hpositions⟩
  · refine Post.pure ⟨?_, hpositions⟩
    intro key state other hstate hother
    dsimp only at hstate
    rw [Dict.get?_set] at hstate
    by_cases hkey : key = entry.1
    · rw [if_pos hkey] at hstate
      cases hstate
      rw [evaluateBar_side]
      refine hentry other ?_
      rw [← hkey, ← hpositions]
      exact hother
    · rw [if_neg hkey] at hstate
      exact hsided key state other hstate hother

theorem foldl_erase_get? {exits : List Broker.Exit} {p : Broker.Exit → Prop} [DecidablePred p]
    (protections : Dict PositionKey ProtectionState) {key : PositionKey} {state : ProtectionState}
    (h : (exits.foldl (fun (protections : Dict PositionKey ProtectionState) exit =>
      if p exit then protections.erase exit.key else protections) protections).get? key =
        some state) : protections.get? key = some state := by
  induction exits generalizing protections with
  | nil => exact h
  | cons exit exits ih =>
    rw [List.foldl_cons] at h
    have hrest := ih _ h
    by_cases hp : p exit
    · rw [if_pos hp, Dict.get?_erase] at hrest
      split_ifs at hrest
      exact hrest
    · rw [if_neg hp] at hrest
      exact hrest

theorem processProtections_sided {data : MarketData} (h : Sided broker) :
    Post (Serves data) (broker.processProtections config ts) (fun r => Sided r.2) := by
  refine Post.bind (Q := fun pass => Sided pass.1 ∧ pass.1.positions = broker.positions) ?_
    fun pass hpass => ?_
  · refine Post.foldlM (fun pass entry hentry hpass => checkProtection_sided hpass ?_) ⟨h, rfl⟩
    intro position hposition
    exact h entry.1 entry.2 position (Dict.get?_eq_some_iff.mpr hentry) hposition
  refine Post.ite (fun _ => Post.pure hpass.1) fun _ => ?_
  refine Post.bind (execute_sided hpass.1) fun result hresult => Post.pure ?_
  exact hresult.congr rfl fun key state hstate => foldl_erase_get? _ hstate

theorem markToMarket_sided {data : MarketData} (h : Sided broker) :
    Post (Serves data) (broker.markToMarket ts) Sided := by
  refine (markWith_post (Q := fun _ _ _ => True) fun e _ => closeQuote_post e.2).mono ?_
  rintro marked ⟨positions, hpositions, rfl⟩
  refine h.remark (hpositions.imp ?_)
  rintro e e' ⟨hkey, price, -, hsame⟩
  refine ⟨hkey, ?_⟩
  rw [hsame]

theorem liquidateIfInsolvent_sided {data : MarketData} (h : Sided broker) :
    Post (Serves data) (broker.liquidateIfInsolvent config ts) (fun r => Sided r.2) := by
  refine Post.ite (fun _ => Post.pure h) fun _ => ?_
  refine Post.bind (markToMarket_sided h) fun marked hmarked => ?_
  refine Post.ite (fun _ => Post.pure hmarked) fun _ => ?_
  refine Post.bind (Q := fun _ => True) ?_ fun forced _ => ?_
  · refine Post.foldlM (J := fun _ => True) (fun batch entry _ _ => ?_) trivial
    refine Post.bind (post_of_reads (Portal.closeAt_reads _ ts)) fun close _ => ?_
    exact Post.ite (fun _ => Post.pure trivial) fun _ => Post.pure trivial
  refine Post.bind (execute_sided hmarked) fun result hresult => ?_
  refine Post.bind (Q := fun closed => Sided closed) ?_ fun closed hclosed => Post.pure hclosed
  refine Post.bind (markToMarket_sided (hresult.congr rfl fun _ _ hstate => hstate))
    fun closed hclosed => Post.pure (hclosed.congr rfl fun _ _ hstate => hstate)

theorem sided_rule (config : BrokerConfig) (data : MarketData) :
    RunRule config data (fun _ run => Sided run.broker) (fun _ run => Sided run.broker) where
  enter _ h _ := h
  handler h := h
  queue h _ := h
  cancel {t run} h reference := by
    obtain ⟨trace, hrun⟩ := cancelOrder_frame run reference
    rw [hrun]
    exact h
  desk h _ _ := h
  collect {t run} h := by
    show Sided run.removeCancelledOrders.broker
    unfold Run.removeCancelledOrders
    dsimp only
    split
    · exact h
    · exact h
  flush {t run} h _ := by
    show Sided run.removeCancelledOrders.broker
    unfold Run.removeCancelledOrders
    dsimp only
    split
    · exact h
    · exact h
  pending h _ := Post.ite (fun _ => Post.pure h) fun _ =>
    Post.bind (execute_sided h) fun _ hr => Post.pure hr
  opening h _ := Post.ite (fun _ => Post.pure h) fun _ =>
    Post.bind (execute_sided h) fun _ hr => Post.pure hr
  protect {t run} h _ := by
    refine Post.bind (processProtections_sided h) fun r hr => ?_
    obtain ⟨reasons, hreasons⟩ := foldl_setLastExitReason r.1
      (run.traded r.2).syncOrderStatuses.context
    refine Post.pure ?_
    rw [hreasons]
    exact hr
  liquidate h _ := liquidateIfInsolvent_sided h
  stop h _ := h
  record h _ := Post.bind (Post.bind (markToMarket_sided h) fun _ hmarked =>
    Post.pure (hmarked.congr rfl fun _ _ hstate => hstate)) fun _ hb => Post.pure hb

/-- In every state of a backtest the protections are on the sides of their positions. -/
theorem sided_of_reaches {σ : Type} {test : Backtest σ} {t : Time} {run : Run}
    (h : test.Reaches t run) : Sided run.broker := by
  obtain ⟨⟨c, -, hp⟩, -⟩ := (sided_rule test.config test.data).of_reaches
    (fun _ => sided_create test.initialCapital) h
  exact hp

end Sides

def turnedProtection : Backtest ℕ :=
  shareTest (BrokerConfig.create 2 0 0 fun _ => none) 1000 [(100, 0), (100, 0), (100, 0)] false
    fun name n => if name = "handle_data" then
      [.order "USStock:X" .targetQuantity (.number (if n = 0 then 5 else -5))
        { protection := { stopLossPct := some (1 / 10) } }]
    else []

def turnedProtectionRun : Run := (runAfter turnedProtection (day 2)).get (by decide +kernel)

/-- A protected position turns from long to short, and its protection with it. -/
theorem turned_protection_sided :
    turnedProtectionRun.broker.protections.entries.map (fun entry => entry.2.side) = [.short] ∧
      Sided turnedProtectionRun.broker := by
  have hreaches : turnedProtection.Reaches (day 2) turnedProtectionRun :=
    reaches_of_runAfter (by simp [turnedProtectionRun])
  exact ⟨by decide +kernel, sided_of_reaches hreaches⟩

/-! ## Every reduction -/

section Reductions

variable {config : BrokerConfig} {ts : Time} {order : OrderIntent} {plan : FillPlan}
  {broker : Broker} {equity : Amount} {bar : Option Bar} {openPrice : Option Amount}

/-- **Protection of a reduced position.** A fill that shrinks a protected position without closing
or turning it keeps its protection if and only if its order carries none, or one under which
scaling in keeps the state. -/
theorem reduction_keeps_iff (hsided : Sided broker) {position : Position} {state : ProtectionState}
    (hposition : broker.positions.get? order.key = some position)
    (hstate : broker.protections.get? order.key = some state)
    (hplan : planOrder config broker.toAccount order bar openPrice equity = .ok (.fill plan))
    (hopen : plan.closes = false) (hsame : 0 < position.amount * plan.targetAmount)
    (hless : |plan.targetAmount| < |position.amount|) :
    (∃ after, (broker.work config ts equity order bar openPrice (.fill plan)).1.protections.get?
        order.key = some after ∧ ProtectionKept state after) ↔
      ∀ spec ∈ order.protection, ScaleInKeeps state position.avgCost plan.fillPrice spec ts := by
  obtain ⟨price, -, -, -, hfilled⟩ := planOrder_fill hplan
  have hcurrent : plan.sizing.current = position := by
    rw [hfilled.sizing]
    show broker.toAccount.currentPosition order = position
    unfold Account.currentPosition
    rw [hposition]
    rfl
  have hside : state.side = sideOf plan.targetAmount := by
    rw [hsided order.key state position hstate hposition, sideOf_of_mul_pos hsame]
  have hcost : plan.position.avgCost = position.avgCost := by
    have hdelta : plan.delta = plan.targetAmount - position.amount := by
      unfold FillPlan.targetAmount
      rw [hcurrent]
      ring
    show nextAverageCost plan.sizing.current.amount plan.sizing.current.avgCost plan.delta
      plan.fillPrice = _
    rw [hcurrent, hdelta]
    refine averageCost_of_reduction ?_ hsame hless
    unfold FillPlan.closes at hopen
    exact not_le.mp (of_decide_eq_false hopen)
  rw [work_protection hopen, hstate, protectionAfterFill_same hside, hcost]
  cases order.protection with
  | none => exact iff_of_true ⟨state, rfl, protectionKept_refl state⟩ fun _ hspec => nomatch hspec
  | some spec =>
    constructor
    · rintro ⟨after, hafter, hkept⟩ other hother
      cases hother
      cases hafter
      exact scaleIn_kept_iff.mp hkept
    · intro hkeeps
      exact ⟨_, rfl, scaleIn_kept_iff.mpr (hkeeps spec rfl)⟩

end Reductions

/-! ## A trailing position that is halved -/

/-- A trailing stop of 10% that is active at once, and starts anew when it is scaled in. -/
def rebasedTenth : ProtectionSpec := ProtectionSpec.create 0 0 (1 / 10) 0 0 true

def tenShares : Position :=
  { symbol := "USStock:X", amount := 10, avgCost := 100, lastPrice := 110 }

def risenState : ProtectionState :=
  { symbol := "USStock:X", side := .long, entryPrice := 100, spec := rebasedTenth, openedAt := 0
    highestPrice := 120, lowestPrice := 100, trailingActive := true }

def risenTen : Broker :=
  { Broker.create 1000 with
    availableCash := 0
    positions := Dict.ofPairs [(⟨"USStock:X", none⟩, tenShares)]
    totalValue := 1100
    protections := Dict.ofPairs [(⟨"USStock:X", none⟩, risenState)] }

def sellFive (protection : Option ProtectionSpec) : OrderIntent where
  symbol := "USStock:X"
  kind := .quantity
  value := -5
  protection := protection

def protectionAfter (order : OrderIntent) : Option ProtectionState :=
  match planOrder plainConfig risenTen.toAccount order (some (flatBar 0 110 0)) (some 110) 1100 with
  | .ok outcome => (risenTen.work plainConfig (day 1) 1100 order (some (flatBar 0 110 0)) (some 110)
      outcome).1.protections.get? order.key
  | .error _ => none

/-- Selling five of the ten shares under the default protection forgets the peak of 120, turns the
trailing stop off and restarts the clock. -/
theorem halved_position_loses_peak :
    (protectionAfter (sellFive (some rebasedTenth))).map (fun state =>
        (state.highestPrice, state.trailingActive, state.openedAt)) = some (110, false, day 1) ∧
      (protectionAfter (sellFive none)).map (fun state =>
        (state.highestPrice, state.trailingActive, state.openedAt)) = some (120, true, 0) := by
  decide +kernel

theorem risenTen_sided : Sided risenTen := by
  intro key state position hstate hposition
  have hprotection := Dict.get?_eq_some_iff.mp hstate
  have hheld := Dict.get?_eq_some_iff.mp hposition
  have hprotections : risenTen.protections.entries = [(⟨"USStock:X", none⟩, risenState)] := by
    decide +kernel
  have hpositions : risenTen.positions.entries = [(⟨"USStock:X", none⟩, tenShares)] := by
    decide +kernel
  rw [hprotections, List.mem_singleton, Prod.mk.injEq] at hprotection
  rw [hpositions, List.mem_singleton, Prod.mk.injEq] at hheld
  rw [hprotection.2, hheld.2]
  decide +kernel

def halvedPlan? : Option FillPlan :=
  match planOrder plainConfig risenTen.toAccount (sellFive none) (some (flatBar 0 110 0)) (some 110)
      1100 with
  | .ok (.fill plan) => some plan
  | _ => none

theorem halvedPlan_isSome : halvedPlan?.isSome = true := by
  decide +kernel

def halvedFill : FillPlan := halvedPlan?.get halvedPlan_isSome

theorem risenTen_position : risenTen.positions.get? (sellFive none).key = some tenShares := by
  decide +kernel

theorem risenTen_protection :
    risenTen.protections.get? (sellFive none).key = some risenState := by
  decide +kernel

theorem halvedFill_planned :
    planOrder plainConfig risenTen.toAccount (sellFive none) (some (flatBar 0 110 0)) (some 110)
      1100 = .ok (.fill halvedFill) := by
  decide +kernel

/-- Selling five of the ten shares without a protection keeps the peak. -/
theorem halved_position_keeps_peak :
    (∃ after, (risenTen.work plainConfig (day 1) 1100 (sellFive none) (some (flatBar 0 110 0))
        (some 110) (.fill halvedFill)).1.protections.get? (sellFive none).key = some after ∧
      ProtectionKept risenState after) ↔
      ∀ spec ∈ (sellFive none).protection,
        ScaleInKeeps risenState tenShares.avgCost halvedFill.fillPrice spec (day 1) :=
  reduction_keeps_iff risenTen_sided risenTen_position risenTen_protection halvedFill_planned
    (by decide +kernel) (by decide +kernel) (by decide +kernel)

end QuantDinger.Analysis
