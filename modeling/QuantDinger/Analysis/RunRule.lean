import QuantDinger.Interface.PointInTime
import QuantDinger.Model.Runner

/-!
# The invariant rule of the runner

What holds of a run between two steps is proved by giving two predicates, indexed by
the current bar: `J` between two steps of the runner, and `K` while a handler runs.
`RunRule` lists what each step has to keep. From it follows what holds after every bar
of every backtest (`RunRule.of_reaches`), and, for statements about the inside of a bar,
what holds once the opening handlers have run and when the solvency is checked.

Two facts that every user of the rule needs are proved along the way: outside the
opening phase the list of opening orders is empty, and outside a handler so is the queue
of the context.
-/

namespace QuantDinger.Analysis

open QuantDinger.Library QuantDinger.Model

def Serves (data : MarketData) (portal : Portal) : Prop := portal.view.data = data

/-- No order waits in the opening list or in the queue of the context. -/
def Idle (run : Run) : Prop := run.opening = [] ∧ run.context.orders = []

/-- What the steps of the runner keep. -/
structure RunRule (config : BrokerConfig) (data : MarketData) (J K : Time → Run → Prop) :
    Prop where
  enter : ∀ {b t run}, b ≤ t → J b run → Idle run → J t (run.enterBar t)
  handler : ∀ {t run}, J t run → K t run
  queue : ∀ {t run key kind value options order}, K t run →
    run.context.orderOf key kind value options = .ok order → K t (run.queueOrder order)
  cancel : ∀ {t run}, K t run → ∀ reference, K t (run.cancelOrder reference).2
  desk : ∀ {t run}, K t run → ∀ protection reasons,
    K t { run with context := { run.context with
      defaultProtection := protection
      lastExitReasons := reasons } }
  collect : ∀ {t run}, K t run → J t run.removeCancelledOrders.collectOpening
  flush : ∀ {t run}, K t run → run.opening = [] → J t run.removeCancelledOrders.mergeQueue
  pending : ∀ {t run}, J t run → Idle run →
    Post (Serves data) (run.executePending config t) (J t)
  opening : ∀ {t run}, J t run → run.context.orders = [] →
    Post (Serves data) (run.executeOpening config t) (J t)
  protect : ∀ {t run}, J t run → Idle run → Post (Serves data) (run.protect config t) (J t)
  liquidate : ∀ {t run}, J t run → Idle run →
    Post (Serves data) (run.broker.liquidateIfInsolvent config t)
      (fun r => J t (run.traded r.2))
  stop : ∀ {t run}, J t run → run.broker.bankrupt = true →
    J t { run with pending := [], context := run.context.flushOrders }
  record : ∀ {t run}, J t run → Idle run → Post (Serves data) (run.recordBar t) (J t)

/-! ## Queries keep the data -/

theorem serves_setClock {data : MarketData} {portal : Portal} (h : Serves data portal)
    (t : Time) (includeCurrent : Bool) : Serves data (portal.setClock t includeCurrent) := by
  unfold Serves at *
  rw [Portal.setClock_view]
  exact h

section Queries

variable {data : MarketData} {α : Type}

theorem post_of_reads {m : PortalM α} {f : Interface.View → Except StrategyError α}
    (h : Reads Portal.view m f) : Post (Serves data) m (fun _ => True) :=
  h.post (I := fun v => v.data = data) fun _ _ _ _ => trivial

theorem barAt_post (symbol : String) (ts : Time) :
    Post (Serves data) (Portal.barAt symbol ts)
      (fun bar => ∃ key, bar = data.rowAt key ts) := by
  refine (Portal.barAt_reads symbol ts).post (I := fun v => v.data = data) ?_
  intro v bar hv hbar
  unfold Interface.View.barAt at hbar
  cases hk : v.resolve symbol none with
  | error e => rw [hk] at hbar; cases hbar
  | ok key =>
    rw [hk] at hbar
    cases hbar
    exact ⟨key, by rw [hv]⟩

theorem positionOf_post (account : Account) (key : Symbol) (side : Option Side) :
    Post (Serves data) (Context.positionOf account key side) (fun _ => True) := by
  unfold Context.positionOf
  split
  · exact Post.pure trivial
  · dsimp only
    split
    · exact Post.pure trivial
    · exact Post.throw
    · exact Post.pure trivial
    · exact Post.bind (Post.attempt (post_of_reads (Portal.current_reads _ _ _ _)))
        fun price _ => Post.pure trivial

theorem getPosition_post (account : Account) (symbol side : String) :
    Post (Serves data) (Context.getPosition account symbol side) (fun _ => True) :=
  Post.bind (Post.attempt (post_of_reads (Portal.resolveKey_reads symbol none))) fun _ _ =>
    positionOf_post account _ _

theorem getPositions_post (account : Account) (symbols : Option (List String)) (side : String) :
    Post (Serves data) (Context.getPositions account symbols side) (fun _ => True) := by
  cases symbols with
  | none => exact Post.pure trivial
  | some symbols =>
    exact Post.bind
      (post_of_reads (Reads.mapM fun symbol _ => Portal.resolveKey_reads symbol none))
      fun keys _ => Post.pure trivial

theorem getHistory_post (count : ℤ) (frequency : Option String)
    (fields securities : List String) :
    Post (Serves data) (Context.getHistory count frequency fields securities) (fun _ => True) :=
  Post.bind (post_of_reads (Portal.frameKeys_reads frequency)) fun _ _ =>
    post_of_reads (Portal.history_reads _ _ _ _)

theorem reading_post {run : Run} {m : PortalM α} (hm : Post (Serves data) m (fun _ => True)) :
    Post (Serves data) (run.reading m) (fun r => r.2 = run) :=
  Post.bind (Post.attempt hm) fun _ _ => Post.pure rfl

theorem placeOrder_post {run : Run} (symbol : String) (kind : OrderKind) (value : Argument)
    (options : OrderOptions) :
    Post (Serves data) (run.placeOrder symbol kind value options) (fun r => r.2 = run ∨
      ∃ key order, run.context.orderOf key kind value options = .ok order ∧
        r.2 = run.queueOrder order) := by
  have hread : Post (Serves data) (run.context.readOrder symbol kind value options)
      (fun order => ∃ key, run.context.orderOf key kind value options = .ok order) := by
    unfold Context.readOrder
    split
    · exact Post.throw
    · refine Post.bind (post_of_reads (Portal.resolveKey_reads symbol none)) fun key _ => ?_
      intro portal hportal
      cases ho : run.context.orderOf key kind value options with
      | error e => exact hportal
      | ok order => exact ⟨hportal, key, ho⟩
  refine Post.bind (Post.attempt hread) fun response hresponse => ?_
  cases response with
  | error e => exact Post.pure (Or.inl rfl)
  | ok order =>
    obtain ⟨key, ho⟩ := hresponse order rfl
    exact Post.pure (Or.inr ⟨key, order, ho, rfl⟩)

end Queries

/-! ## Handlers -/

section Handlers

variable {data : MarketData} {K : Run → Prop}

theorem fromValue_enabled {value overrides : ProtectionValues} {spec : ProtectionSpec}
    (h : ProtectionSpec.fromValue value overrides = some spec) : spec.enabled = true := by
  unfold ProtectionSpec.fromValue at h
  dsimp only at h
  split at h
  · rename_i henabled
    cases h
    exact henabled
  · cases h

theorem answer_post
    (queue : ∀ {run key kind value options order}, K run →
      run.context.orderOf key kind value options = .ok order → K (run.queueOrder order))
    (cancel : ∀ {run}, K run → ∀ reference, K (run.cancelOrder reference).2)
    (desk : ∀ {run}, K run → ∀ protection reasons,
      (∀ spec, protection = some spec → spec.enabled = true ∨
        run.context.defaultProtection = some spec) →
      K { run with context := { run.context with
        defaultProtection := protection
        lastExitReasons := reasons } })
    (call : ApiCall) (run : Run) (h : K run) :
    Post (Serves data) (Run.answer call run) (fun r => K r.2) := by
  have reads {α : Type} {m : PortalM α} (hm : Post (Serves data) m (fun _ => True)) :
      Post (Serves data) (run.reading m) (fun r => K r.2) :=
    (reading_post hm).mono fun r hr => hr ▸ h
  cases call with
  | current symbol field frequency => exact reads (post_of_reads (Portal.current_reads _ _ _ _))
  | history symbols count fields frequency =>
    exact reads (post_of_reads (Portal.history_reads _ _ _ _))
  | getHistory count frequency fields securities => exact reads (getHistory_post _ _ _ _)
  | panel symbols count frequency => exact reads (post_of_reads (Portal.panel_reads _ _ _))
  | visibleFrame symbol count frequency =>
    exact reads (post_of_reads (Portal.visibleFrame_reads _ _ _))
  | getPosition symbol side => exact reads (getPosition_post _ _ _)
  | getPositions symbols side => exact reads (getPositions_post _ _ _)
  | portfolio => exact Post.pure h
  | getOrderStatus reference => exact Post.pure h
  | cancelOrder reference => exact Post.pure (cancel h reference)
  | order symbol kind value options =>
    refine (placeOrder_post symbol kind value options).mono fun r hr => ?_
    rcases hr with hr | ⟨key, order, ho, hr⟩
    · exact hr ▸ h
    · exact hr ▸ queue h ho
  | setDefaultProtection values =>
    exact Post.pure (desk h (ProtectionSpec.fromValue values {}) run.context.lastExitReasons
      fun spec hspec => Or.inl (fromValue_enabled hspec))
  | consumeLastExitReason symbol =>
    exact Post.pure (desk h run.context.defaultProtection
      (run.context.lastExitReasons.erase symbol) fun spec hspec => Or.inr hspec)
  | clock => exact Post.pure h

variable {σ : Type} (strategy : Strategy σ)

theorem invoke_post
    (hanswer : ∀ call run, K run → Post (Serves data) (Run.answer call run) (fun r => K r.2))
    (name : String) (argument : HandlerArgument) {state : σ × Run} (h : K state.2) :
    Post (Serves data) (strategy.invoke name argument state) (fun s => K s.2) := by
  unfold Strategy.invoke
  split
  · exact Post.pure h
  · exact Post.mapError (Post.run (J := K) hanswer _ h)

end Handlers

/-! ## The opening list and the queue -/

section Frame

@[simp] theorem removeCancelledOrders_opening (run : Run) :
    run.removeCancelledOrders.opening = run.opening := by
  unfold Run.removeCancelledOrders
  simp only
  split <;> rfl

@[simp] theorem mergeQueue_opening (run : Run) : run.mergeQueue.opening = run.opening := rfl

@[simp] theorem mergeQueue_orders (run : Run) : run.mergeQueue.context.orders = [] := rfl

@[simp] theorem collectOpening_orders (run : Run) : run.collectOpening.context.orders = [] := rfl

variable (config : BrokerConfig) (ts : Time) (run : Run)

theorem executePending_frame :
    Post (fun _ => True) (run.executePending config ts)
      (fun r => r.opening = run.opening ∧ r.context.orders = run.context.orders) := by
  unfold Run.executePending
  refine Post.ite (fun _ => Post.pure ⟨rfl, rfl⟩) fun _ => ?_
  exact Post.bind (Post.trivial _) fun _ _ => Post.pure ⟨rfl, rfl⟩

theorem executeOpening_frame :
    Post (fun _ => True) (run.executeOpening config ts)
      (fun r => r.opening = [] ∧ r.context.orders = run.context.orders) := by
  unfold Run.executeOpening
  refine Post.ite (fun h => Post.pure ⟨h, rfl⟩) fun _ => ?_
  exact Post.bind (Post.trivial _) fun _ _ => Post.pure ⟨rfl, rfl⟩

theorem foldl_setLastExitReason (decisions : List ProtectionDecision) (context : Context) :
    ∃ reasons, decisions.foldl (fun context decision =>
      context.setLastExitReason decision.symbol decision.reason.text) context =
        { context with lastExitReasons := reasons } := by
  induction decisions generalizing context with
  | nil => exact ⟨context.lastExitReasons, rfl⟩
  | cons decision decisions ih =>
    obtain ⟨reasons, h⟩ := ih (context.setLastExitReason decision.symbol decision.reason.text)
    exact ⟨reasons, by rw [List.foldl_cons, h]; rfl⟩

theorem protect_frame :
    Post (fun _ => True) (run.protect config ts)
      (fun r => r.opening = run.opening ∧ r.context.orders = run.context.orders) := by
  refine Post.bind (Post.trivial _) fun result _ => Post.pure ⟨rfl, ?_⟩
  obtain ⟨reasons, h⟩ := foldl_setLastExitReason result.1
    (run.traded result.2).syncOrderStatuses.context
  dsimp only
  rw [h]
  rfl

theorem recordBar_frame :
    Post (fun _ => True) (run.recordBar ts)
      (fun r => r.opening = run.opening ∧ r.context.orders = run.context.orders) :=
  Post.bind (Post.trivial _) fun _ _ => Post.pure ⟨rfl, rfl⟩

theorem liquidateIfInsolvent_bankrupt (broker : Broker) :
    Post (fun _ => True) (broker.liquidateIfInsolvent config ts)
      (fun r => r.1 = true → r.2.bankrupt = true) := by
  unfold Broker.liquidateIfInsolvent
  refine Post.ite (fun h => Post.pure fun _ => h) fun _ => ?_
  refine Post.bind (Post.trivial _) fun marked _ => ?_
  refine Post.ite (fun _ => Post.pure fun h => nomatch h) fun _ => ?_
  refine Post.bind (Post.trivial _) fun forced _ => ?_
  refine Post.bind (Post.trivial _) fun result _ => ?_
  have hclosed : Post (fun _ => True) (result.2.closeOut ts marked.totalValue forced.1.length)
      (fun broker => broker.bankrupt = true) :=
    Post.bind (Post.trivial _) fun _ _ => Post.pure rfl
  exact Post.bind hclosed fun closed hc => Post.pure fun _ => hc

end Frame

/-! ## Bars and runs -/

namespace RunRule

variable {config : BrokerConfig} {data : MarketData} {J K : Time → Run → Prop}
  (rule : RunRule config data J K) {σ : Type} (strategy : Strategy σ) {t : Time}

include rule

theorem invoke (name : String) (argument : HandlerArgument) {state : σ × Run}
    (h : J t state.2) :
    Post (Serves data) (strategy.invoke name argument state)
      (fun s => K t s.2 ∧ s.2.opening = state.2.opening) :=
  invoke_post strategy
    (answer_post (K := fun run => K t run ∧ run.opening = state.2.opening)
      (fun hk ho => ⟨rule.queue hk.1 ho, hk.2⟩) (fun hk reference => ⟨rule.cancel hk.1 reference, hk.2⟩)
      (fun hk protection reasons _ => ⟨rule.desk hk.1 protection reasons, hk.2⟩))
    name argument ⟨rule.handler h, rfl⟩

theorem openingHandler (name : String) (argument : HandlerArgument) {state : σ × Run}
    (h : J t state.2) :
    Post (Serves data) (strategy.openingHandler name argument state)
      (fun s => J t s.2 ∧ s.2.context.orders = []) :=
  Post.bind (rule.invoke strategy name argument h) fun _ hs =>
    Post.pure ⟨rule.collect hs.1, rfl⟩

theorem closingHandler (name : String) {state : σ × Run} (h : J t state.2)
    (ho : state.2.opening = []) :
    Post (Serves data) (strategy.closingHandler name state) (fun s => J t s.2 ∧ Idle s.2) := by
  refine Post.bind (rule.invoke strategy name .data h) fun s hs => ?_
  have hopening : s.2.opening = [] := hs.2.trans ho
  exact Post.pure ⟨rule.flush hs.1 hopening, by simpa using hopening, rfl⟩

theorem openBar {state : σ × Run} (h : J t state.2) (hi : Idle state.2) :
    Post (Serves data) (strategy.openBar config t state)
      (fun s => J t s.2 ∧ s.2.context.orders = []) := by
  refine Post.bind (Q := fun _ => True) (fun _ hp => ⟨serves_setClock hp t false, trivial⟩)
    fun _ _ => ?_
  refine Post.bind ((rule.pending h hi).frame (executePending_frame config t state.2))
    fun run hrun => ?_
  have hopening : run.opening = [] := hrun.2.1.trans hi.1
  have hreset : ({ run with opening := [] } : Run) = run := by rw [← hopening]
  unfold Strategy.openingHandlers
  refine Post.bind (Q := fun s => J t s.2 ∧ s.2.context.orders = [])
    (rule.openingHandler strategy _ _ (by rw [hreset]; exact hrun.1)) fun s hs => ?_
  refine Post.bind (Q := fun s => J t s.2 ∧ s.2.context.orders = []) ?_ fun s hs => ?_
  · refine Post.foldlM (fun s schedule _ hs => ?_) hs
    refine Post.bind (Q := fun _ => True) (fun _ hp => ⟨hp, trivial⟩) fun frequency _ => ?_
    exact Post.ite (fun _ => rule.openingHandler strategy _ _ hs.1) fun _ => Post.pure hs
  · refine Post.ite (fun _ => ?_) fun _ => Post.pure hs
    exact Post.bind (post_of_reads (Portal.panel_reads _ _ _)) fun panel _ =>
      rule.openingHandler strategy _ _ hs.1

omit strategy in
theorem tradeBar {state : σ × Run} (h : J t state.2) (ho : state.2.context.orders = []) :
    Post (Serves data) (Strategy.tradeBar config t state) (fun s => J t s.2 ∧ Idle s.2) := by
  refine Post.bind ((rule.opening h ho).frame (executeOpening_frame config t state.2))
    fun run hrun => ?_
  have hi : Idle run := ⟨hrun.2.1, hrun.2.2.trans ho⟩
  refine Post.bind ((rule.protect hrun.1 hi).frame (protect_frame config t run))
    fun run' hrun' => ?_
  refine Post.bind (Q := fun _ => True) (fun _ hp => ⟨serves_setClock hp t true, trivial⟩)
    fun _ _ => ?_
  exact Post.pure ⟨hrun'.1, hrun'.2.1.trans hi.1, hrun'.2.2.trans hi.2⟩

theorem recordBar {run : Run} (h : J t run) (hi : Idle run) :
    Post (Serves data) (run.recordBar t) (fun r => J t r ∧ Idle r) :=
  ((rule.record h hi).frame (recordBar_frame t run)).mono fun _ hr =>
    ⟨hr.1, hr.2.1.trans hi.1, hr.2.2.trans hi.2⟩

theorem finishBar {state : σ × Run} (h : J t state.2) (hi : Idle state.2) :
    Post (Serves data) (strategy.finishBar config t state) (fun s => J t s.2 ∧ Idle s.2) := by
  refine Post.bind ((rule.liquidate h hi).frame
    (liquidateIfInsolvent_bankrupt config t state.2.broker)) fun result hresult => ?_
  have hidle : Idle (state.2.traded result.2) := hi
  unfold Strategy.closeBar
  refine Post.ite (fun hb => ?_) fun _ => ?_
  · exact Post.bind (rule.recordBar (rule.stop hresult.1 (hresult.2 hb)) ⟨hidle.1, rfl⟩)
      fun run hrun => Post.pure hrun
  · refine Post.bind (rule.closingHandler strategy _ hresult.1 hidle.1) fun s hs => ?_
    refine Post.bind (rule.closingHandler strategy _ hs.1 hs.2.1) fun s hs => ?_
    exact Post.bind (rule.recordBar hs.1 hs.2) fun run hrun => Post.pure hrun

theorem runBar {b : Time} (hbt : b ≤ t) {state : σ × Run} (h : J b state.2)
    (hi : Idle state.2) :
    Post (Serves data) (strategy.runBar config state t) (fun s => J t s.2 ∧ Idle s.2) := by
  have henter : J t (state.2.enterBar t) := rule.enter hbt h hi
  have hidle : Idle (state.2.enterBar t) := hi
  refine Post.ite (fun _ => ?_) fun _ => ?_
  · refine Post.bind (Q := fun _ => True) (fun _ hp => ⟨serves_setClock hp t true, trivial⟩)
      fun _ _ => ?_
    exact Post.bind (rule.recordBar henter hidle) fun run hrun => Post.pure hrun
  · refine Post.bind (rule.openBar strategy henter hidle) fun s hs => ?_
    refine Post.bind (rule.tradeBar hs.1 hs.2) fun s hs => ?_
    exact rule.finishBar strategy hs.1 hs.2

theorem runBars {b : Time} {timestamps : List Time} (hsorted : timestamps.Pairwise (· ≤ ·))
    (hb : ∀ s ∈ timestamps, b ≤ s) {state : σ × Run} (h : J b state.2) (hi : Idle state.2) :
    Post (Serves data) (strategy.runBars config state timestamps)
      (fun s => ∃ c, J c s.2 ∧ Idle s.2 ∧ (c = b ∨ c ∈ timestamps)) := by
  refine (Post.foldlM_rest (J := fun rest s => ∃ c, J c s.2 ∧ Idle s.2 ∧
      (c = b ∨ c ∈ timestamps) ∧ rest.Pairwise (· ≤ ·) ∧ (∀ s ∈ rest, s ∈ timestamps) ∧
      ∀ s ∈ rest, c ≤ s) ?_ ⟨b, h, hi, Or.inl rfl, hsorted, fun _ hs => hs, hb⟩).mono
    fun s ⟨c, hJ, hs, hc, _⟩ => ⟨c, hJ, hs, hc⟩
  rintro s a rest ⟨c, hJ, hs, hc, hp, hmem, hle⟩
  rw [List.pairwise_cons] at hp
  refine (rule.runBar strategy (hle a (by simp)) hJ hs).mono fun s' hs' => ?_
  exact ⟨a, hs'.1, hs'.2, Or.inr (hmem a (by simp)), hp.2,
    fun x hx => hmem x (List.mem_cons_of_mem _ hx), hp.1⟩

end RunRule

theorem timestamps_sorted {σ : Type} (test : Backtest σ) :
    test.timestamps.Pairwise (· ≤ ·) :=
  (List.pairwise_insertionSort (· ≤ ·) _).filter _

namespace RunRule

variable {σ : Type} {test : Backtest σ} {J K : Time → Run → Prop}
  (rule : RunRule test.config test.data J K)
  (start : ∀ t, J t (Run.create test.initialCapital))

include rule start

theorem of_runOver {p : Time → Bool} {t : Time} (hp : ∀ s, p s = true → s ≤ t)
    {state : σ × Run} {portal : Portal} (h : test.runOver p = .ok state portal) :
    (∃ c ≤ t, J c state.2) ∧ Idle state.2 ∧ Serves test.data portal := by
  unfold Backtest.runOver at h
  split at h
  · cases h
  · have hle : ∀ s ∈ test.timestamps.filter p, s ≤ t := fun s hs => hp s (List.of_mem_filter hs)
    have hsorted := (timestamps_sorted test).filter p
    obtain ⟨b, hbt, hb⟩ : ∃ b ≤ t, ∀ s ∈ test.timestamps.filter p, b ≤ s := by
      cases hl : test.timestamps.filter p with
      | nil => exact ⟨t, le_rfl, by simp⟩
      | cons a l =>
        rw [hl] at hsorted hle
        refine ⟨a, hle a (by simp), fun s hs => ?_⟩
        rcases List.mem_cons.mp hs with rfl | hs
        · exact le_rfl
        · exact (List.pairwise_cons.mp hsorted).1 s hs
    have hstart : J b (test.initial, Run.create test.initialCapital).2 := start b
    have hloop := rule.runBars test.strategy hsorted hb hstart ⟨rfl, rfl⟩
    obtain ⟨hserves, c, hJ, hidle, hc⟩ := hloop.of_ok (s := Portal.create test.data) rfl h
    refine ⟨⟨c, ?_, hJ⟩, hidle, hserves⟩
    rcases hc with rfl | hc
    · exact hbt
    · exact hle c hc

theorem of_reaches {t : Time} {run : Run} (h : test.Reaches t run) :
    (∃ c ≤ t, J c run) ∧ Idle run := by
  obtain ⟨state, portal, h⟩ := h
  obtain ⟨hJ, hidle, -⟩ := rule.of_runOver start (fun s hs => by simpa using hs) h
  exact ⟨hJ, hidle⟩

end RunRule

/-! ## The last step of a bar -/

section LastStep

variable {σ : Type} {Q : Run → Prop}

theorem runBar_records (strategy : Strategy σ) (config : BrokerConfig) (t : Time)
    (h : ∀ run : Run, Post (fun _ => True) (run.recordBar t) Q) (state : σ × Run) :
    Post (fun _ => True) (strategy.runBar config state t) (fun s => Q s.2) := by
  refine Post.ite (fun _ => ?_) fun _ => ?_
  · refine Post.bind (Post.trivial _) fun _ _ => ?_
    exact Post.bind (h _) fun run hrun => Post.pure hrun
  · refine Post.bind (Post.trivial _) fun s _ => ?_
    refine Post.bind (Post.trivial _) fun s _ => ?_
    refine Post.bind (Post.trivial _) fun result _ => ?_
    unfold Strategy.closeBar
    refine Post.ite (fun _ => ?_) fun _ => ?_
    · exact Post.bind (h _) fun run hrun => Post.pure hrun
    · refine Post.bind (Post.trivial _) fun s _ => ?_
      refine Post.bind (Post.trivial _) fun s _ => ?_
      exact Post.bind (h _) fun run hrun => Post.pure hrun

theorem records_of_reaches {test : Backtest σ} (start : Q (Run.create test.initialCapital))
    (h : ∀ (t : Time) (run : Run), Post (fun _ => True) (run.recordBar t) Q) {t : Time} {run : Run}
    (hrun : test.Reaches t run) : Q run := by
  obtain ⟨state, portal, hrun⟩ := hrun
  unfold Backtest.after Backtest.runOver at hrun
  split at hrun
  · cases hrun
  · have hloop : Post (fun _ => True) (test.strategy.runBars test.config
        (test.initial, Run.create test.initialCapital) (test.timestamps.filter (· ≤ t)))
        (fun s => Q s.2) :=
      Post.foldlM (fun s t _ _ => runBar_records test.strategy test.config t (h t) s) start
    exact (hloop.of_ok trivial hrun).2

end LastStep

/-! ## Concrete runs -/

def day (n : ℤ) : Time := n * dayLength

def singleMarket (symbol : Symbol) (frame : Frame) : MarketData where
  drivingFrequency := "1d"
  framesByFrequency := ⟨[("1d", ⟨[(symbol, frame)], by simp⟩)], by simp⟩
  aliases := Dict.empty
  parseInstrument := fun raw => .error (.parse raw)
  driving_available := rfl

theorem singleMarket_rows {symbol key : Symbol} {frame : Frame} {frequency : String} {row : Bar}
    (h : row ∈ (singleMarket symbol frame).rows key frequency) : row ∈ frame.rows := by
  unfold MarketData.rows MarketData.frame? at h
  cases hf : (singleMarket symbol frame).framesByFrequency.get? frequency with
  | none => rw [hf] at h; simp at h
  | some frames =>
    have hframes := Dict.get?_eq_some_iff.mp hf
    simp only [singleMarket, List.mem_singleton, Prod.mk.injEq] at hframes
    obtain ⟨-, rfl⟩ := hframes
    rw [hf, Option.bind_some] at h
    cases hk : Dict.get? ⟨[(symbol, frame)], by simp⟩ key with
    | none => rw [hk] at h; simp at h
    | some frame' =>
      have hframe := Dict.get?_eq_some_iff.mp hk
      simp only [List.mem_singleton, Prod.mk.injEq] at hframe
      rw [hk, hframe.2] at h
      simpa using h

/-- A strategy that makes the listed calls: `calls name n` in the handler `name` of the
bar `n`. -/
def scripted (isPortfolio : Bool) (calls : String → ℕ → List ApiCall) : Strategy ℕ where
  isPortfolio := isPortfolio
  schedules := []
  handler name := some fun _ n =>
    (calls name n).foldr (fun call rest => .call call fun _ => rest)
      (.done (if name = "after_trading_end" then n + 1 else n))

def flatBar (t : Time) (price volume : Amount) : Bar where
  time := t
  openPrice := price
  high := price
  low := price
  closePrice := price
  volume := volume

def flatFrame (bars : List (Amount × Amount)) : Frame where
  rows := bars.zipIdx.map fun e => flatBar (day e.2) e.1.1 e.1.2
  increasing := by
    rw [List.pairwise_map]
    have hindex : (bars.zipIdx.map Prod.snd).Pairwise (· < ·) := by
      rw [List.zipIdx_map_snd]
      exact List.pairwise_lt_range'
    refine (List.pairwise_map.mp hindex).imp fun h => ?_
    exact mul_lt_mul_of_pos_right (by exact_mod_cast h) (by decide)

theorem flatFrame_positive {symbol : Symbol} {bars : List (Amount × Amount)}
    (h : ∀ e ∈ bars, 0 < e.1) : (singleMarket symbol (flatFrame bars)).Positive := by
  intro frequency key row hrow
  obtain ⟨e, he, rfl⟩ := List.mem_map.mp (singleMarket_rows hrow)
  have hprice := h e.1 (List.fst_mem_of_mem_zipIdx he)
  exact ⟨hprice, hprice, hprice, hprice⟩

def orderShares (quantity : Amount) (reference : String) : ApiCall :=
  .order "USStock:X" .quantity (.number quantity) { clientOrderId := some reference }

def shareTest (config : BrokerConfig) (capital : Amount) (bars : List (Amount × Amount))
    (isPortfolio : Bool) (calls : String → ℕ → List ApiCall) : Backtest ℕ where
  strategy := scripted isPortfolio calls
  initial := 0
  config := config
  initialCapital := capital
  data := singleMarket "USStock:X" (flatFrame bars)

theorem lot_of_default (leverage commission slippage : Amount) (symbol : Symbol) :
    1 / 10 ^ 8 ≤ (BrokerConfig.create leverage commission slippage fun _ => none).lot symbol := by
  show 1 / 10 ^ 8 ≤ lotSize symbol (defaultRulesForSymbol symbol)
  unfold lotSize defaultRulesForSymbol
  split
  · dsimp only
    split <;> norm_num
  · split <;> norm_num

def runAfter {σ : Type} (test : Backtest σ) (t : Time) : Option Run :=
  match test.after t with
  | .ok state _ => some state.2
  | .error _ _ => none

theorem reaches_of_runAfter {σ : Type} {test : Backtest σ} {t : Time} {run : Run}
    (h : runAfter test t = some run) : test.Reaches t run := by
  unfold runAfter at h
  split at h
  · rename_i state portal hafter
    cases h
    exact ⟨state.1, portal, hafter⟩
  · cases h

end QuantDinger.Analysis
