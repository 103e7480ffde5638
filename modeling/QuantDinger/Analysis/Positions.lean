import QuantDinger.Analysis.BrokerSteps

/-!
# Positions stay on the grid

Every traded quantity is a whole number of lots, or closes a position exactly, so the
stored amounts are whole numbers of lots too. They are never within `10⁻¹²` of zero, and
their prices and costs are positive. `SoundPositions` says this of an account; it is an
invariant of the steps of the broker, and with a lot of at least `10⁻⁸` it is what makes
the snap to zero of the source exact.
-/

namespace QuantDinger.Analysis

open QuantDinger.Library QuantDinger.Model

/-! ## The traded quantity -/

theorem isMultiple_roundToLot {value lot : Amount} (hlot : 0 < lot) :
    IsMultiple lot (roundToLot value lot) := by
  unfold roundToLot
  rw [if_neg (not_le.mpr hlot)]
  exact isMultiple_roundToGrid

theorem isMultiple_liquidityCap {bar : Option Bar} {lot limit : Amount}
    (h : liquidityCap bar lot = some limit) : IsMultiple lot limit := by
  unfold liquidityCap at h
  dsimp only at h
  split at h
  · cases h
  · cases h
    exact ⟨_, rfl⟩

theorem roundRequest_cases (s : Sizing) (price lot : Amount) :
    (s.reconcilesRemainder = true ∧ s.roundRequest price lot = ⟨-s.current.amount, true⟩) ∨
      s.roundRequest price lot = ⟨roundToLot s.requestedDelta lot, false⟩ := by
  unfold Sizing.roundRequest
  dsimp only
  split
  · rename_i h
    exact Or.inl ⟨h.1, rfl⟩
  · exact Or.inr rfl

theorem capLiquidity_cases (s : Sizing) (trade : Trade) (cap : Option Amount)
    (price lot : Amount) :
    (s.reconcilesRemainder = true ∧
        s.capLiquidity trade cap price lot = ⟨-s.current.amount, true⟩) ∨
      s.capLiquidity trade cap price lot = trade ∨
      ∃ limit ∈ cap, limit < |trade.delta| ∧
        s.capLiquidity trade cap price lot = ⟨copysign limit trade.delta, false⟩ := by
  unfold Sizing.capLiquidity
  dsimp only
  split
  · rename_i h
    exact Or.inl ⟨h.1, rfl⟩
  · right
    unfold Trade.capTo
    cases cap with
    | none => exact Or.inl rfl
    | some limit =>
      dsimp only
      split
      · rename_i h
        exact Or.inr ⟨limit, rfl, h, rfl⟩
      · exact Or.inl rfl

section Filled

variable {config : BrokerConfig} {account : Account} {order : OrderIntent} {bar : Option Bar}
  {equity : Amount} {s : Sizing} {plan : FillPlan}

theorem Filled.lot_pos (h : Filled config account order bar equity s plan) : 0 < plan.lot := by
  rw [h.lot]
  exact config.lot_pos order.symbol

theorem Filled.isMultiple_cap (h : Filled config account order bar equity s plan) {limit : Amount}
    (hl : limit ∈ plan.liquidityCap) : IsMultiple plan.lot limit := by
  rw [h.cap] at hl
  unfold orderCap at hl
  split at hl
  · cases hl
  · exact isMultiple_liquidityCap hl

theorem Filled.isMultiple_capped (h : Filled config account order bar equity s plan)
    (ha : IsMultiple plan.lot s.current.amount) :
    IsMultiple plan.lot (s.capLiquidity (s.roundRequest plan.fillPrice plan.lot)
      plan.liquidityCap plan.fillPrice plan.lot).delta := by
  have hround : IsMultiple plan.lot (s.roundRequest plan.fillPrice plan.lot).delta := by
    rcases roundRequest_cases s plan.fillPrice plan.lot with ⟨-, hr⟩ | hr
    · rw [hr]; exact ha.neg
    · rw [hr]; exact isMultiple_roundToLot h.lot_pos
  rcases capLiquidity_cases s (s.roundRequest plan.fillPrice plan.lot) plan.liquidityCap
    plan.fillPrice plan.lot with ⟨-, hc⟩ | hc | ⟨limit, hl, -, hc⟩
  · rw [hc]; exact ha.neg
  · rw [hc]; exact hround
  · rw [hc]; exact (h.isMultiple_cap hl).copysign

theorem Filled.isMultiple_delta (h : Filled config account order bar equity s plan)
    (ha : IsMultiple plan.lot s.current.amount) : IsMultiple plan.lot plan.delta := by
  have hd := congrArg Prod.fst h.feasible
  dsimp only at hd
  rw [hd]
  unfold feasibleTrade
  split
  · exact h.isMultiple_capped ha
  · unfold feasibleDelta
    dsimp only
    split
    · exact IsMultiple.zero _
    · exact isMultiple_roundToLot h.lot_pos

theorem Filled.delta_of_exactClose (h : Filled config account order bar equity s plan)
    (hx : plan.exactClose = true) :
    plan.delta = -s.current.amount ∧ s.reconcilesRemainder = true := by
  have hexact := h.exact
  rw [hx] at hexact
  have hd := congrArg Prod.fst h.feasible
  dsimp only at hd
  unfold feasibleTrade at hd
  rw [if_pos (Or.inr hexact.symm)] at hd
  rcases capLiquidity_cases s (s.roundRequest plan.fillPrice plan.lot) plan.liquidityCap
    plan.fillPrice plan.lot with ⟨hr, hc⟩ | hc | ⟨limit, -, -, hc⟩
  · rw [hc] at hd
    exact ⟨hd, hr⟩
  · rcases roundRequest_cases s plan.fillPrice plan.lot with ⟨hr, hround⟩ | hround
    · rw [hc, hround] at hd
      exact ⟨hd, hr⟩
    · rw [hc, hround] at hexact
      cases hexact
  · rw [hc] at hexact
    cases hexact

theorem sizeOrder_reconciles {price : Amount}
    (h : (sizeOrder config account order price equity).reconcilesRemainder = true) :
    1 / 10 ^ 12 < |(sizeOrder config account order price equity).current.amount| := by
  unfold sizeOrder at h ⊢
  simp only [Bool.and_eq_true, decide_eq_true_eq] at h
  exact h.1.2

end Filled

/-! ## What a fill writes -/

theorem recordClosedTrade_frame (account : Account) (execution : Execution)
    (oldAmount oldCost targetAmount : Amount) :
    ∃ trades grid entries,
      account.recordClosedTrade execution oldAmount oldCost targetAmount =
        { account with closedTrades := trades, gridEntries := grid, entries := entries } := by
  have hclosing : ∃ trades grid entries,
      account.bookClosing execution oldAmount oldCost targetAmount =
        { account with closedTrades := trades, gridEntries := grid, entries := entries } := by
    unfold Account.bookClosing
    dsimp only
    split
    · exact ⟨_, _, _, rfl⟩
    · exact ⟨_, _, _, rfl⟩
  obtain ⟨trades, grid, entries, h⟩ := hclosing
  unfold Account.recordClosedTrade
  dsimp only
  rw [h]
  split
  · exact ⟨_, _, _, rfl⟩
  · exact ⟨_, _, _, rfl⟩

section Fill

variable (config : BrokerConfig) (account : Account) (orderId : Time × ℕ) (ts : Time)
  (order : OrderIntent) (plan : FillPlan)

def executionOf : Execution :=
  plan.execution config orderId ts order (account.book config order.key plan).totalValue

theorem fill_frame :
    ∃ trades grid entries,
      account.fill config orderId ts order plan =
        { account.book config order.key plan with
          executions := account.executions ++ [executionOf config account orderId ts order plan]
          closedTrades := trades
          gridEntries := grid
          entries := entries } := by
  obtain ⟨trades, grid, entries, h⟩ := recordClosedTrade_frame
    { account.book config order.key plan with
      executions := account.executions ++ [executionOf config account orderId ts order plan] }
    (executionOf config account orderId ts order plan) plan.sizing.current.amount
    plan.sizing.current.avgCost plan.targetAmount
  exact ⟨trades, grid, entries, h⟩

theorem fill_positions :
    (account.fill config orderId ts order plan).positions =
      if plan.closes then account.positions.erase order.key
      else account.positions.set order.key plan.position := by
  obtain ⟨trades, grid, entries, h⟩ := fill_frame config account orderId ts order plan
  rw [h]
  rfl

theorem fill_availableCash :
    (account.fill config orderId ts order plan).availableCash =
      account.availableCash - plan.delta * plan.fillPrice - plan.fee config := by
  obtain ⟨trades, grid, entries, h⟩ := fill_frame config account orderId ts order plan
  rw [h]
  rfl

theorem fill_executions :
    (account.fill config orderId ts order plan).executions =
      account.executions ++ [executionOf config account orderId ts order plan] := by
  obtain ⟨trades, grid, entries, h⟩ := fill_frame config account orderId ts order plan
  rw [h]

theorem fill_startingCash :
    (account.fill config orderId ts order plan).startingCash = account.startingCash := by
  obtain ⟨trades, grid, entries, h⟩ := fill_frame config account orderId ts order plan
  rw [h]
  rfl

theorem fill_liquidationAdjustment :
    (account.fill config orderId ts order plan).liquidationAdjustment =
      account.liquidationAdjustment := by
  obtain ⟨trades, grid, entries, h⟩ := fill_frame config account orderId ts order plan
  rw [h]
  rfl

theorem fill_totalValue :
    (account.fill config orderId ts order plan).totalValue =
      (account.fill config orderId ts order plan).markedValue := by
  obtain ⟨trades, grid, entries, h⟩ := fill_frame config account orderId ts order plan
  rw [h]
  rfl

end Fill

/-! ## The invariant -/

/-- What holds of a stored position. -/
structure PositionOk (config : BrokerConfig) (key : PositionKey) (position : Position) : Prop where
  symbol : key.symbol = position.symbol
  side : key.side = position.positionSide
  multiple : IsMultiple (config.lot position.symbol) position.amount
  opened : 1 / 10 ^ 12 < |position.amount|
  lastPrice : 0 < position.lastPrice
  avgCost : 0 < position.avgCost

def SoundPositions (config : BrokerConfig) (account : Account) : Prop :=
  ∀ key position, account.positions.get? key = some position → PositionOk config key position

theorem currentPosition_cases (account : Account) (order : OrderIntent) :
    account.positions.get? order.key = some (account.currentPosition order) ∨
      (account.positions.get? order.key = none ∧ account.currentPosition order =
        { symbol := order.symbol, positionSide := order.positionSide }) := by
  unfold Account.currentPosition
  cases h : account.positions.get? order.key with
  | none => exact Or.inr ⟨rfl, rfl⟩
  | some position => exact Or.inl rfl

theorem nextAverageCost_pos {a c d p : Amount} (hc : a ≠ 0 → 0 < c) (hp : 0 < p)
    (h : 1 / 10 ^ 12 < |a + d|) : 0 < nextAverageCost a c d p := by
  unfold nextAverageCost
  dsimp only
  rw [if_neg (not_le.mpr h)]
  have hs : a + d ≠ 0 := by
    intro hs
    rw [hs, abs_zero] at h
    norm_num at h
  split
  · rename_i hcond
    rcases hcond with ha | had
    · subst ha
      rw [zero_mul, zero_add, zero_add] at *
      rw [mul_div_assoc, mul_div_cancel₀ _ hs]
      exact hp
    · have ha : a ≠ 0 := left_ne_zero_of_mul had.ne'
      rcases pos_and_pos_or_neg_and_neg_of_mul_pos had with ⟨ha', hd'⟩ | ⟨ha', hd'⟩
      · exact div_pos (add_pos (mul_pos ha' (hc ha)) (mul_pos hd' hp)) (add_pos ha' hd')
      · exact div_pos_of_neg_of_neg (add_neg (mul_neg_of_neg_of_pos ha' (hc ha))
          (mul_neg_of_neg_of_pos hd' hp)) (add_neg ha' hd')
  · rename_i hcond
    rw [not_or] at hcond
    split
    · exact hp
    · exact hc hcond.1

section Step

variable {config : BrokerConfig} {account : Account} {order : OrderIntent}

theorem SoundPositions.isMultiple_current (h : SoundPositions config account) :
    IsMultiple (config.lot order.symbol) (account.currentPosition order).amount := by
  rcases currentPosition_cases account order with hp | ⟨-, hp⟩
  · have hok := h _ _ hp
    rw [show order.symbol = (account.currentPosition order).symbol from hok.symbol]
    exact hok.multiple
  · rw [hp]
    exact IsMultiple.zero _

theorem SoundPositions.cost_pos (h : SoundPositions config account)
    (ha : (account.currentPosition order).amount ≠ 0) :
    0 < (account.currentPosition order).avgCost := by
  rcases currentPosition_cases account order with hp | ⟨-, hp⟩
  · exact (h _ _ hp).avgCost
  · rw [hp] at ha
    exact absurd rfl ha

theorem currentPosition_symbol (h : SoundPositions config account) :
    (account.currentPosition order).symbol = order.symbol ∧
      (account.currentPosition order).positionSide = order.positionSide := by
  rcases currentPosition_cases account order with hp | ⟨-, hp⟩
  · exact ⟨(h _ _ hp).symbol.symm, (h _ _ hp).side.symm⟩
  · rw [hp]
    exact ⟨rfl, rfl⟩

theorem soundPositions_fill (hslip : config.slippage < 1) {bar : Option Bar}
    {openPrice : Option Amount} {equity : Amount} {plan : FillPlan}
    (hplan : planOrder config account order bar openPrice equity = .ok (.fill plan))
    (hopen : ∀ price ∈ openPrice, 0 < price) (orderId : Time × ℕ) (ts : Time)
    (h : SoundPositions config account) :
    SoundPositions config (account.fill config orderId ts order plan) := by
  intro key position hkey
  rw [fill_positions] at hkey
  split at hkey
  · rw [Dict.get?_erase] at hkey
    split at hkey
    · cases hkey
    · exact h key position hkey
  · rename_i hcloses
    rw [Dict.get?_set] at hkey
    split at hkey
    · rename_i hk
      cases hkey
      have hprice := planOrder_fillPrice_pos hslip hopen hplan
      obtain ⟨price, -, -, -, hfilled⟩ := planOrder_fill hplan
      have hcurrent : plan.sizing.current = account.currentPosition order := by
        rw [hfilled.sizing]; rfl
      have hsymbol := @currentPosition_symbol config account order h
      have hmultiple : IsMultiple (config.lot order.symbol)
          (account.currentPosition order).amount := h.isMultiple_current
      have hdelta : IsMultiple (config.lot order.symbol) plan.delta :=
        hfilled.lot ▸ hfilled.isMultiple_delta (hfilled.lot ▸ hmultiple)
      have hopened : 1 / 10 ^ 12 < |plan.targetAmount| := by
        simpa [FillPlan.closes] using hcloses
      subst hk
      refine ⟨?_, ?_, ?_, hopened, hprice, ?_⟩
      · rw [FillPlan.position, hcurrent]; exact hsymbol.1.symm
      · rw [FillPlan.position, hcurrent]; exact hsymbol.2.symm
      · rw [FillPlan.position, FillPlan.targetAmount, hcurrent]
        dsimp only
        rw [hsymbol.1]
        exact hmultiple.add hdelta
      · refine nextAverageCost_pos (fun ha => ?_) hprice hopened
        rw [hcurrent] at ha ⊢
        exact h.cost_pos ha
    · exact h key position hkey

theorem soundPositions_step (hslip : config.slippage < 1) {broker broker' : Broker}
    (hstep : Step config broker broker') (h : SoundPositions config broker.toAccount) :
    SoundPositions config broker'.toAccount := by
  cases hstep with
  | mark hmarked =>
    intro key position hkey
    obtain ⟨old, hold, price, hprice, rfl⟩ := Dict.exists_get?_of_forall₂ hmarked hkey
    have hok := h key old hold
    exact ⟨hok.symbol, hok.side, hok.multiple, hok.opened, hprice hok.lastPrice, hok.avgCost⟩
  | @work ts _ order bar openPrice outcome hplan hopen _ =>
    rw [work_account]
    cases outcome with
    | fill plan => exact soundPositions_fill hslip hplan hopen _ ts h
    | blocked reason => exact h
    | rejected reason requested => exact h
    | resting requested => exact h
  | absorb => exact h
  | other hbooks =>
    rw [hbooks.account]
    exact h

theorem soundPositions_steps (hslip : config.slippage < 1) {broker broker' : Broker}
    (hsteps : Steps config broker broker') (h : SoundPositions config broker.toAccount) :
    SoundPositions config broker'.toAccount := by
  induction hsteps with
  | refl => exact h
  | tail _ hstep ih => exact soundPositions_step hslip hstep ih

end Step

theorem soundPositions_create (config : BrokerConfig) (capital : Amount) :
    SoundPositions config (Broker.create capital).toAccount := by
  intro key position hkey
  simp [Broker.create] at hkey

end QuantDinger.Analysis
