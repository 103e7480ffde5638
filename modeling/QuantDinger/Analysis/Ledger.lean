import QuantDinger.Analysis.RequestBound
import QuantDinger.Model.Audit

/-!
# The double-entry ledger of a backtest

Cash and positions are what the execution log says: `Balanced` is an invariant of the
steps of the broker, for lots of at least `10⁻⁸`. Every execution comes from a recorded
decision (`RecordedIn`), so its fee, its time and its price are what the audit expects;
for the price this needs that the fill went in the direction of its order.
-/

namespace QuantDinger.Analysis

open QuantDinger.Library QuantDinger.Model

/-! ## Cash and positions -/

/-- The account agrees with its execution log. -/
structure Balanced (account : Account) : Prop where
  cash : account.availableCash =
    account.startingCash - journalCost account.executions + account.liquidationAdjustment
  amount : ∀ key, account.amountAt key = journalAmount account.executions key

theorem journalCost_append (executions : List Execution) (execution : Execution) :
    journalCost (executions ++ [execution]) = journalCost executions +
      (execution.signedQuantity * execution.price + execution.commission) := by
  simp [journalCost]

theorem journalAmount_append (executions : List Execution) (execution : Execution)
    (key : PositionKey) :
    journalAmount (executions ++ [execution]) key = journalAmount executions key +
      (if execution.positionKey = key then execution.signedQuantity else 0) := by
  unfold journalAmount
  by_cases h : execution.positionKey = key
  · simp [List.filter_append, h]
  · simp [List.filter_append, h]

theorem amountAt_remark {account : Account} {positions : Dict PositionKey Position}
    (h : Remarked account.positions positions) (key : PositionKey) :
    (account.remark positions).amountAt key = account.amountAt key := by
  unfold Account.amountAt
  show ((positions.get? key).map Position.amount).getD 0 = _
  cases hk : positions.get? key with
  | none =>
    cases hold : account.positions.get? key with
    | none => rfl
    | some old =>
      exfalso
      obtain ⟨new, hnew, -⟩ := Dict.exists_get?_of_forall₂ (R := fun new old => MarkedAs old new)
        (List.Forall₂.flip (h.imp fun _ _ he => ⟨he.1.symm, he.2⟩)) hold
      rw [hk] at hnew
      cases hnew
  | some new =>
    obtain ⟨old, hold, price, -, rfl⟩ := Dict.exists_get?_of_forall₂ h hk
    rw [hold]
    rfl

section Lots

variable {config : BrokerConfig} (hlots : ∀ symbol, 1 / 10 ^ 8 ≤ config.lot symbol)

include hlots

theorem eq_zero_of_isMultiple (symbol : Symbol) {x : Amount}
    (h : IsMultiple (config.lot symbol) x) (hx : |x| ≤ 1 / 10 ^ 12) : x = 0 := by
  refine h.eq_zero_of_abs_lt (config.lot_pos symbol) (lt_of_le_of_lt hx ?_)
  exact lt_of_lt_of_le (by norm_num) (hlots symbol)

variable {account : Account} {order : OrderIntent} {bar : Option Bar}
  {openPrice : Option Amount} {equity : Amount} {plan : FillPlan}

omit hlots in
theorem fill_isMultiple (hsound : SoundPositions config account)
    (hplan : planOrder config account order bar openPrice equity = .ok (.fill plan)) :
    plan.sizing.current = account.currentPosition order ∧
      IsMultiple (config.lot order.symbol) (account.currentPosition order).amount ∧
      IsMultiple (config.lot order.symbol) plan.delta := by
  obtain ⟨price, -, -, -, hfilled⟩ := planOrder_fill hplan
  have hcurrent : plan.sizing.current = account.currentPosition order := by
    rw [hfilled.sizing]; rfl
  have hmultiple : IsMultiple (config.lot order.symbol) (account.currentPosition order).amount :=
    hsound.isMultiple_current
  exact ⟨hcurrent, hmultiple,
    hfilled.lot ▸ hfilled.isMultiple_delta (hfilled.lot ▸ hmultiple)⟩

theorem amountAt_fill (hsound : SoundPositions config account)
    (hplan : planOrder config account order bar openPrice equity = .ok (.fill plan))
    (orderId : Time × ℕ) (ts : Time) (key : PositionKey) :
    (account.fill config orderId ts order plan).amountAt key =
      account.amountAt key + (if order.key = key then plan.delta else 0) := by
  obtain ⟨hcurrent, ha, hd⟩ := fill_isMultiple hsound hplan
  have hamount : account.amountAt order.key = (account.currentPosition order).amount := by
    unfold Account.amountAt
    rcases currentPosition_cases account order with hp | ⟨hn, hp⟩
    · rw [hp]; rfl
    · rw [hn, hp]; rfl
  unfold Account.amountAt
  rw [fill_positions]
  by_cases hkey : order.key = key
  · subst hkey
    rw [if_pos rfl]
    change _ = account.amountAt order.key + plan.delta
    rw [hamount]
    by_cases hcloses : plan.closes = true
    · have hzero : plan.targetAmount = 0 := by
        refine eq_zero_of_isMultiple hlots order.symbol ?_ (by
          simpa [FillPlan.closes] using hcloses)
        rw [FillPlan.targetAmount, hcurrent]
        exact ha.add hd
      rw [FillPlan.targetAmount, hcurrent] at hzero
      rw [if_pos hcloses, Dict.get?_erase, if_pos rfl]
      exact hzero.symm
    · rw [if_neg hcloses, Dict.get?_set, if_pos rfl]
      show plan.targetAmount = _
      rw [FillPlan.targetAmount, hcurrent]
  · rw [if_neg hkey, add_zero]
    split
    · rw [Dict.get?_erase, if_neg (Ne.symm hkey)]
    · rw [Dict.get?_set, if_neg (Ne.symm hkey)]

theorem balanced_fill (hsound : SoundPositions config account)
    (hplan : planOrder config account order bar openPrice equity = .ok (.fill plan))
    (orderId : Time × ℕ) (ts : Time) (h : Balanced account) :
    Balanced (account.fill config orderId ts order plan) where
  cash := by
    rw [fill_availableCash, fill_startingCash, fill_executions, fill_liquidationAdjustment,
      journalCost_append, h.cash, executionOf, execution_signedQuantity]
    show _ = account.startingCash - (journalCost account.executions +
      (plan.delta * plan.fillPrice + plan.fee config)) + account.liquidationAdjustment
    ring
  amount := by
    intro key
    rw [amountAt_fill hlots hsound hplan, fill_executions, journalAmount_append, h.amount,
      executionOf, execution_signedQuantity]
    rfl

theorem balanced_step {broker broker' : Broker}
    (hstep : Step config broker broker') (hsound : SoundPositions config broker.toAccount)
    (h : Balanced broker.toAccount) : Balanced broker'.toAccount := by
  cases hstep with
  | mark hmarked =>
    exact ⟨h.cash, fun key => (amountAt_remark hmarked key).trans (h.amount key)⟩
  | @work ts _ order bar openPrice outcome hplan hopen _ =>
    rw [work_account]
    cases outcome with
    | fill plan => exact balanced_fill hlots hsound hplan _ ts h
    | blocked reason => exact h
    | rejected reason requested => exact h
    | resting requested => exact h
  | absorb =>
    refine ⟨?_, h.amount⟩
    show broker.availableCash + max 0 (-broker.availableCash) =
      broker.startingCash - journalCost broker.executions +
        (broker.liquidationAdjustment + max 0 (-broker.availableCash))
    rw [h.cash]
    ring
  | other hbooks =>
    rw [hbooks.account]
    exact ⟨h.cash, h.amount⟩

theorem balanced_steps (hslip : config.slippage < 1) {broker broker' : Broker}
    (hsteps : Steps config broker broker') (hsound : SoundPositions config broker.toAccount)
    (h : Balanced broker.toAccount) : Balanced broker'.toAccount := by
  induction hsteps with
  | refl => exact h
  | tail hsteps hstep ih =>
    exact balanced_step hlots hstep (soundPositions_steps hslip hsteps hsound) ih

end Lots

theorem balanced_create (capital : Amount) : Balanced (Broker.create capital).toAccount where
  cash := by simp [Broker.create, journalCost]
  amount key := by simp [Broker.create, journalAmount, Account.amountAt]

/-! ## Every execution has its decision -/

/-- The execution comes from a decision of the history: the plan of an order with a
positive price, for a signal that is not later than the fill. -/
def RecordedIn (config : BrokerConfig) (history : List Decision) (execution : Execution) : Prop :=
  ∃ d ∈ history, ∃ plan orderId ts, d.outcome = .fill plan ∧
    planOrder config d.before d.order d.bar d.openPrice d.equity = .ok (.fill plan) ∧
    SoundPositions config d.before ∧ (∀ price ∈ d.openPrice, 0 < price) ∧
    (∀ s ∈ d.order.signalTime, s ≤ ts) ∧
    execution = executionOf config d.before orderId ts d.order plan

theorem RecordedIn.mono {config : BrokerConfig} {history : List Decision} {execution : Execution}
    (h : RecordedIn config history execution) (d : Decision) :
    RecordedIn config (history ++ [d]) execution := by
  obtain ⟨d', hd', hrest⟩ := h
  exact ⟨d', List.mem_append_left _ hd', hrest⟩

theorem recorded_step {config : BrokerConfig} {broker broker' : Broker}
    (hstep : Step config broker broker') (hsound : SoundPositions config broker.toAccount)
    (h : ∀ e ∈ broker.executions, RecordedIn config broker.history e) :
    ∀ e ∈ broker'.executions, RecordedIn config broker'.history e := by
  cases hstep with
  | mark _ => exact h
  | @work ts _ order bar openPrice outcome hplan hopen hsignal =>
    have hold : ∀ e ∈ broker.executions, ∀ d, RecordedIn config (broker.history ++ [d]) e :=
      fun e he d => (h e he).mono d
    rw [work_history, work_account]
    cases outcome with
    | fill plan =>
      intro e he
      rw [accountAfter, fill_executions] at he
      rcases List.mem_append.mp he with he | he
      · exact hold e he _
      · rw [List.mem_singleton] at he
        exact ⟨_, List.mem_append_right _ (List.mem_singleton_self _), plan, _, ts, rfl, hplan,
          hsound, hopen, hsignal, he⟩
    | blocked reason => exact fun e he => hold e he _
    | rejected reason requested => exact fun e he => hold e he _
    | resting requested => exact fun e he => hold e he _
  | absorb => exact h
  | other hbooks =>
    rw [hbooks.history, hbooks.account]
    exact h

theorem recorded_steps {config : BrokerConfig} (hslip : config.slippage < 1)
    {broker broker' : Broker} (hsteps : Steps config broker broker')
    (hsound : SoundPositions config broker.toAccount)
    (h : ∀ e ∈ broker.executions, RecordedIn config broker.history e) :
    ∀ e ∈ broker'.executions, RecordedIn config broker'.history e := by
  induction hsteps with
  | refl => exact h
  | tail hsteps hstep ih =>
    exact recorded_step hstep (soundPositions_steps hslip hsteps hsound) ih

/-! ## The checks of the audit -/

/-- The order of the decision is filled the wrong way round: a market order that would
enlarge a position over the gross limit, in a bar whose liquidity cap is zero. What is
traded is the excess over the limit, a lot at least, and it is priced on the wrong side of
the slippage, by more than the audit tolerates. -/
def FillsBackwards (config : BrokerConfig) (d : Decision) : Prop :=
  d.order.isLimit = false ∧ d.order.forced = false ∧
    orderCap d.order d.bar (config.lot d.order.symbol) = some 0 ∧
    ∃ openPrice ∈ d.openPrice,
      let s := sizeOrder config d.before d.order openPrice d.equity
      let price := openPrice *
        (if 0 < s.requestedDelta then 1 + config.slippage else 1 - config.slippage)
      let limit := d.before.maxTargetAbs config d.order.key price d.equity
      0 < s.current.amount * s.requestedDelta ∧ limit + 1 / 10 ^ 12 < |s.current.amount| ∧
        config.lot d.order.symbol - 1 / 10 ^ 12 ≤
          |roundToLot (copysign limit s.current.amount - s.current.amount)
            (config.lot d.order.symbol)| ∧
        differs price (openPrice *
          (if 0 < s.requestedDelta then 1 - config.slippage else 1 + config.slippage)) = true

theorem fillPrice_reference {config : BrokerConfig} {order : OrderIntent} {bar : Option Bar}
    {openPrice delta price : Amount} {reference : FillReference}
    (h : fillPrice config order bar openPrice delta = .fill price reference) :
    (reference = .limit → order.isLimit = true ∧ price = order.limitPrice) ∧
      (reference = .gapOpen → price = openPrice) ∧
      (reference = .barOpen → order.isLimit = false ∧
        price = openPrice *
          (if 0 < delta then 1 + config.slippage else 1 - config.slippage)) := by
  unfold fillPrice at h
  split at h
  · rename_i hlimit
    split at h
    · cases h
    · split at h
      · cases h; simp
      · split at h
        · cases h; simp [hlimit]
        · split at h
          · cases h; simp
          · split at h
            · cases h; simp [hlimit]
            · cases h
  · rename_i hlimit
    cases h
    simp [hlimit]

theorem differs_self (x : Amount) : differs x x = false := by
  unfold differs
  rw [sub_self, abs_zero, decide_eq_false_iff_not, not_lt]
  exact le_max_of_le_left (by norm_num)

theorem backtestTimeIso_mono {s t : Time} (h : s ≤ t) : backtestTimeIso s ≤ backtestTimeIso t := by
  unfold backtestTimeIso seconds
  exact Int.mul_le_mul_of_nonneg_right (Int.ediv_le_ediv (by norm_num) h) (by norm_num)

section Audit

variable {config : BrokerConfig} {d : Decision} {plan : FillPlan} {orderId : Time × ℕ} {ts : Time}

theorem feeMismatch_executionOf :
    (executionOf config d.before orderId ts d.order plan).feeMismatch config = false :=
  differs_self _

theorem timingMismatch_executionOf (hsignal : ∀ s ∈ d.order.signalTime, s ≤ ts) :
    (executionOf config d.before orderId ts d.order plan).timingMismatch = false := by
  unfold Execution.timingMismatch
  rw [decide_eq_false_iff_not, not_lt]
  refine backtestTimeIso_mono ?_
  cases hs : d.order.signalTime with
  | none => exact le_rfl
  | some s => exact hsignal s hs

omit d in
theorem Filled.delta_ne_zero (hlots : ∀ symbol, 1 / 10 ^ 8 ≤ config.lot symbol)
    {account : Account} {order : OrderIntent} {bar : Option Bar} {price equity : Amount}
    (h : Filled config account order bar equity (sizeOrder config account order price equity)
      plan) : plan.delta ≠ 0 ∧ (plan.exactClose = false → plan.lot - 1 / 10 ^ 12 ≤ |plan.delta|) := by
  have htraded := h.traded
  cases hx : plan.exactClose with
  | false =>
    rw [hx] at htraded
    simp only [Trade.belowLot, Bool.not_false, Bool.and_true, decide_eq_false_iff_not,
      not_lt] at htraded
    refine ⟨fun hzero => ?_, fun _ => htraded⟩
    have hlot := hlots order.symbol
    rw [← h.lot] at hlot
    rw [hzero, abs_zero, sub_nonpos] at htraded
    have := hlot.trans htraded
    norm_num at this
  | true =>
    refine ⟨fun hzero => ?_, fun hf => by cases hf⟩
    obtain ⟨hd, hrec⟩ := h.delta_of_exactClose hx
    have hopened := sizeOrder_reconciles hrec
    rw [hzero, eq_comm, neg_eq_zero] at hd
    rw [hd, abs_zero] at hopened
    norm_num at hopened

theorem differs_slipped (hlots : ∀ symbol, 1 / 10 ^ 8 ≤ config.lot symbol) {openPrice : Amount}
    (hplan : planOrder config d.before d.order d.bar d.openPrice d.equity = .ok (.fill plan))
    (hprice : d.openPrice = some openPrice)
    (hreference : d.order.isLimit = false ∧ plan.fillPrice = openPrice *
      (if 0 < (sizeOrder config d.before d.order openPrice d.equity).requestedDelta
        then 1 + config.slippage else 1 - config.slippage))
    (hforward : ¬ FillsBackwards config d) :
    differs plan.fillPrice (openPrice *
      (if 0 < plan.delta then 1 + config.slippage else 1 - config.slippage)) = false := by
  rw [hprice] at hplan
  obtain ⟨price', hprice', hmet, -, hfilled⟩ := planOrder_fill hplan
  cases hprice'
  have hne := hfilled.delta_ne_zero hlots
  rcases plan_direction hplan hne.1 with
    hsame | ⟨hagainst, hx, hforced, hcap, ha, hover, hexcess⟩
  · -- The slippage is taken on the side the order asked for.
    have hiff : 0 < plan.delta ↔
        0 < (sizeOrder config d.before d.order openPrice d.equity).requestedDelta :=
      pos_iff_pos_of_mul_pos hsame
    rw [hreference.2]
    simp only [hiff]
    exact differs_self _
  · by_contra hdiffers
    rw [Bool.not_eq_false] at hdiffers
    have hiff : 0 < plan.delta ↔
        ¬ 0 < (sizeOrder config d.before d.order openPrice d.equity).requestedDelta := by
      rcases mul_neg_iff.mp hagainst with ⟨h1, h2⟩ | ⟨h1, h2⟩
      · exact iff_of_true h1 (not_lt.mpr h2.le)
      · exact iff_of_false (not_lt.mpr h1.le) (not_not.mpr h2)
    refine hforward ⟨hreference.1, hforced, hfilled.lot ▸ hcap, openPrice, hprice, ha, ?_⟩
    rw [← hreference.2, ← hfilled.lot, ← hexcess]
    refine ⟨hover, hne.2 hx, ?_⟩
    simpa only [hiff, ite_not] using hdiffers

theorem fillMismatch_executionOf (hlots : ∀ symbol, 1 / 10 ^ 8 ≤ config.lot symbol)
    (hplan : planOrder config d.before d.order d.bar d.openPrice d.equity = .ok (.fill plan))
    (hopen : ∀ price ∈ d.openPrice, 0 < price) (hforward : ¬ FillsBackwards config d) :
    (executionOf config d.before orderId ts d.order plan).fillMismatch config = false := by
  obtain ⟨openPrice, hprice, hmet, hfill, hfilled⟩ := planOrder_fill hplan
  have hpos := hopen openPrice hprice
  have hreference : plan.sizing.openPrice = openPrice := by rw [hfilled.sizing]; rfl
  have hexpected : differs plan.fillPrice
      ((executionOf config d.before orderId ts d.order plan).expectedPrice config) = false := by
    obtain ⟨hlimit, hgap, hmarket⟩ := fillPrice_reference hfill
    unfold Execution.expectedPrice executionOf FillPlan.execution
    dsimp only
    cases hr : plan.fillReference with
    | limit =>
      dsimp only
      rw [if_pos (hlimit hr).1, (hlimit hr).2]
      exact differs_self _
    | gapOpen =>
      dsimp only
      rw [hreference, hgap hr]
      exact differs_self _
    | barOpen =>
      dsimp only
      rw [hreference]
      simpa using differs_slipped hlots hplan hprice (hmarket hr) hforward
  unfold Execution.fillMismatch
  have hnot : ¬ (executionOf config d.before orderId ts d.order plan).referencePrice ≤ 0 := by
    show ¬ plan.sizing.openPrice ≤ 0
    rw [hreference]
    exact not_le.mpr hpos
  rw [decide_eq_false hnot, Bool.false_or]
  exact hexpected

end Audit

/-! ## The audit of a run -/

/-- The reported equity is what the positions are marked at. -/
def Marked (account : Account) : Prop := account.totalValue = account.markedValue

theorem recordBar_marked (t : Time) (run : Run) :
    Post (fun _ => True) (run.recordBar t) (fun r => Marked r.broker.toAccount) := by
  have hmark : Post (fun _ => True) (run.broker.markToMarket t)
      (fun broker => Marked broker.toAccount) :=
    Post.bind (Post.trivial _) fun _ _ => Post.pure rfl
  have hrecord : Post (fun _ => True) (run.broker.recordEquity t)
      (fun broker => Marked broker.toAccount) :=
    Post.bind hmark fun _ hb => Post.pure hb
  exact Post.bind hrecord fun _ hb => Post.pure hb

theorem marked_of_reaches {σ : Type} {test : Backtest σ} {t : Time} {run : Run}
    (h : test.Reaches t run) : Marked run.broker.toAccount :=
  records_of_reaches (Q := fun run => Marked run.broker.toAccount)
    (by simp [Marked, Account.markedValue, Run.create, Broker.create, Dict.sumBy, Dict.empty])
    recordBar_marked h

theorem indexesOf_eq_nil {α : Type} {p : α → Bool} {l : List α} (h : ∀ a ∈ l, p a = false) :
    indexesOf p l = [] := by
  unfold indexesOf
  rw [List.map_eq_nil_iff, List.filter_eq_nil_iff]
  rintro ⟨a, n⟩ ha
  rw [h a (List.fst_mem_of_mem_zipIdx ha)]
  simp

/-- What the audit of a broker finds when nothing is wrong. -/
structure Passes (r : Reconciliation) : Prop where
  passed : r.passed = true
  fees : r.feeMismatchIndexes = []
  fills : r.fillMismatchIndexes = []
  timings : r.timingMismatchIndexes = []
  positions : r.positionMismatchSymbols = []
  equity : r.equityDifference = 0

theorem reconcile_passes {config : BrokerConfig} {broker : Broker}
    (hlots : ∀ symbol, 1 / 10 ^ 8 ≤ config.lot symbol) (hbalanced : Balanced broker.toAccount)
    (hmarked : Marked broker.toAccount)
    (hrecorded : ∀ e ∈ broker.executions, RecordedIn config broker.history e)
    (hforward : ∀ d ∈ broker.history, ¬ FillsBackwards config d) :
    Passes (broker.reconcile config) := by
  have hfees : indexesOf (Execution.feeMismatch config) broker.executions = [] := by
    refine indexesOf_eq_nil fun e he => ?_
    obtain ⟨d, -, plan, orderId, ts, -, -, -, -, -, rfl⟩ := hrecorded e he
    exact feeMismatch_executionOf
  have hfills : indexesOf (Execution.fillMismatch config) broker.executions = [] := by
    refine indexesOf_eq_nil fun e he => ?_
    obtain ⟨d, hd, plan, orderId, ts, -, hplan, -, hopen, -, rfl⟩ := hrecorded e he
    exact fillMismatch_executionOf hlots hplan hopen (hforward d hd)
  have htimings : indexesOf Execution.timingMismatch broker.executions = [] := by
    refine indexesOf_eq_nil fun e he => ?_
    obtain ⟨d, -, plan, orderId, ts, -, -, -, -, hsignal, rfl⟩ := hrecorded e he
    exact timingMismatch_executionOf hsignal
  have hpositions : (broker.reconcile config).positionMismatchSymbols = [] := by
    unfold Broker.reconcile
    dsimp only
    rw [List.filter_eq_nil_iff]
    intro key _
    rw [hbalanced.amount key, sub_self, abs_zero]
    norm_num
  have hequity : (broker.reconcile config).equityDifference = 0 := by
    have hcash := hbalanced.cash
    unfold Marked Account.markedValue at hmarked
    unfold Broker.reconcile
    dsimp only
    rw [hmarked, hcash]
    ring
  refine ⟨?_, hfees, hfills, htimings, hpositions, hequity⟩
  have hpassed : (broker.reconcile config).passed =
      ((indexesOf (Execution.feeMismatch config) broker.executions).isEmpty &&
        (indexesOf (Execution.fillMismatch config) broker.executions).isEmpty &&
        (indexesOf Execution.timingMismatch broker.executions).isEmpty &&
        (broker.reconcile config).positionMismatchSymbols.isEmpty &&
        (|(broker.reconcile config).equityDifference| ≤ 1 / 10 ^ 6 : Bool)) := rfl
  rw [hpassed, hfees, hfills, htimings, hpositions, hequity]
  simp

/-- **The double-entry ledger.** After every bar of every backtest, cash and positions are
what the execution log says; and when no order of the run was filled the wrong way round,
the audit passes. -/
theorem ledger_of_reaches {σ : Type} {test : Backtest σ} (hdata : test.data.Positive)
    (hslip : test.config.slippage < 1)
    (hlots : ∀ symbol, 1 / 10 ^ 8 ≤ test.config.lot symbol) {t : Time} {run : Run}
    (h : test.Reaches t run) :
    run.broker.availableCash = run.broker.startingCash - journalCost run.broker.executions +
        run.broker.liquidationAdjustment ∧
      (∀ key, run.broker.amountAt key = journalAmount run.broker.executions key) ∧
      ((∀ d ∈ run.broker.history, ¬ FillsBackwards test.config d) →
        Passes (run.broker.reconcile test.config)) := by
  have hsteps := steps_of_reaches hdata h
  have hsound := soundPositions_create test.config test.initialCapital
  have hbalanced := balanced_steps hlots hslip hsteps hsound (balanced_create _)
  have hrecorded := recorded_steps hslip hsteps hsound (fun e he => by simp [Broker.create] at he)
  exact ⟨hbalanced.cash, hbalanced.amount, fun hforward =>
    reconcile_passes hlots hbalanced (marked_of_reaches h) hrecorded hforward⟩

/-! ## Two runs -/

/-- Ten shares are sold short at 50. At 100 the position is over its limit, the bar trades
one share, and an order to sell one more is worked. -/
def oversoldShare : Backtest ℕ :=
  shareTest (BrokerConfig.create 1 0 (1 / 10) fun _ => none) 1000 [(100, 0), (50, 0), (100, 1)] false fun name n =>
    if name = "handle_data" then
      if n = 0 then [orderShares (-10) "first"]
      else if n = 1 then [orderShares (-1) "second"] else []
    else []

/-- The order to sell buys shares back, below the open, and the audit fails. -/
theorem oversold_share_fails_audit :
    oversoldShare.data.Positive ∧ oversoldShare.config.slippage < 1 ∧
      ∃ run, oversoldShare.Reaches (day 2) run ∧
        (run.broker.executions.map fun e => (e.clientOrderId, e.signedQuantity, e.price)) =
          [("first", -10, 45), ("second", 5, 90)] ∧
        (run.broker.reconcile oversoldShare.config).passed = false ∧
        (run.broker.reconcile oversoldShare.config).fillMismatchIndexes = [1] := by
  refine ⟨flatFrame_positive (by decide +kernel), by decide +kernel,
    (runAfter oversoldShare (day 2)).get (by decide +kernel), reaches_of_runAfter (by simp), ?_⟩
  decide +kernel

def heldShare : Backtest ℕ :=
  shareTest (BrokerConfig.create 1 0 (1 / 10) fun _ => none) 1000 [(100, 0), (50, 0), (100, 0)] false fun name n =>
    if name = "handle_data" ∧ n = 0 then [orderShares 1 "first"] else []

def heldRun : Run := (runAfter heldShare (day 2)).get (by decide +kernel)

/-- The ledger of the kept share. -/
theorem held_share_ledger :
    heldRun.broker.availableCash = heldRun.broker.startingCash -
        journalCost heldRun.broker.executions + heldRun.broker.liquidationAdjustment ∧
      (∀ key, heldRun.broker.amountAt key = journalAmount heldRun.broker.executions key) ∧
      Passes (heldRun.broker.reconcile heldShare.config) := by
  have hforward : ∀ d ∈ heldRun.broker.history, ¬ FillsBackwards heldShare.config d := by
    have hcap : ∀ d ∈ heldRun.broker.history,
        orderCap d.order d.bar (heldShare.config.lot d.order.symbol) ≠ some 0 := by
      decide +kernel
    exact fun d hd h => hcap d hd h.2.2.1
  have hdata : heldShare.data.Positive := flatFrame_positive (by decide +kernel)
  have hreaches : heldShare.Reaches (day 2) heldRun := reaches_of_runAfter (by simp [heldRun])
  obtain ⟨hcash, hamount, haudit⟩ := ledger_of_reaches hdata (by decide +kernel)
    (lot_of_default 1 0 (1 / 10)) hreaches
  exact ⟨hcash, hamount, haudit hforward⟩

end QuantDinger.Analysis
