import QuantDinger.Analysis.RunRule

/-!
# No look-ahead

A bar of a backtest works with what has closed by its end. Two data sets have the same past at a bar
if they have the same subscriptions and agree on the rows closed by then; at a clock reading up to
the bar, the portals over them answer every query alike. So no computation of the runner tells the
two data sets apart, no strategy does, and the runs over them are equal up to the bar.
-/

namespace QuantDinger.Analysis

open QuantDinger.Library QuantDinger.Model QuantDinger.Interface

/-! ## The same past -/

/-- The rows of a frame that have closed when the bar `t` of the driving frequency closes. -/
def closedRows (data : MarketData) (t : Time) (key : Symbol) (frequency : String) : List Bar :=
  (data.rows key frequency).filter fun row =>
    row.time + seconds (frequencySeconds frequency) ≤
      t + seconds (frequencySeconds data.drivingFrequency)

/-- Two data sets with the same subscriptions and the same rows closed by the end of the bar `t`. -/
structure SamePast (t : Time) (data other : MarketData) : Prop where
  driving : other.drivingFrequency = data.drivingFrequency
  aliases : other.aliases = data.aliases
  parser : other.parseInstrument = data.parseInstrument
  keys : ∀ frequency, (other.framesByFrequency.get? frequency).map Dict.keys =
    (data.framesByFrequency.get? frequency).map Dict.keys
  rows : ∀ key frequency, closedRows other t key frequency = closedRows data t key frequency

/-- One clock reading, not after the bar `t`, over the same past. -/
structure SameView (t : Time) (v w : View) : Prop where
  past : SamePast t v.data w.data
  clock : w.currentDt = v.currentDt
  included : w.includeCurrent = v.includeCurrent
  reached : ∀ now ∈ v.currentDt, now ≤ t

section Past

variable {t : Time} {data other : MarketData}

theorem SamePast.framesForFrequency (h : SamePast t data other) (frequency : Option String) :
    (other.framesForFrequency frequency).map Dict.keys =
      (data.framesForFrequency frequency).map Dict.keys := by
  have hkeys := h.keys (normalizeFrequency frequency data.drivingFrequency)
  unfold MarketData.framesForFrequency
  rw [h.driving]
  dsimp only
  generalize data.framesByFrequency.get? _ = frames at hkeys ⊢
  generalize other.framesByFrequency.get? _ = others at hkeys ⊢
  cases frames with
  | none =>
    rw [Option.map_none, Option.map_eq_none_iff] at hkeys
    rw [hkeys]
  | some frames =>
    obtain ⟨others, rfl, hsame⟩ := Option.map_eq_some_iff.mp hkeys
    exact congrArg Except.ok hsame

theorem SamePast.resolveKey (h : SamePast t data other) (symbol : String)
    (frequency : Option String) :
    other.resolveKey symbol frequency = data.resolveKey symbol frequency := by
  have hframes := h.framesForFrequency frequency
  unfold MarketData.resolveKey
  cases hd : data.framesForFrequency frequency with
  | error e =>
    cases ho : other.framesForFrequency frequency with
    | error e' =>
      rw [hd, ho] at hframes
      exact congrArg Except.error (Except.error.inj hframes)
    | ok frames =>
      rw [hd, ho] at hframes
      exact nomatch hframes
  | ok frames =>
    cases ho : other.framesForFrequency frequency with
    | error e =>
      rw [hd, ho] at hframes
      exact nomatch hframes
    | ok others =>
      rw [hd, ho] at hframes
      have hkeys : others.keys = frames.keys := Except.ok.inj hframes
      dsimp only
      unfold MarketData.resolveIn
      rw [h.aliases, h.parser, hkeys]

theorem rows_driving (data : MarketData) (key : Symbol) :
    data.rows key data.drivingFrequency = ((data.frames.get? key).map Frame.rows).getD [] := by
  unfold MarketData.rows MarketData.frame? MarketData.frames
  cases data.framesByFrequency.get? data.drivingFrequency with
  | none => simp
  | some frames => rfl

theorem rowAt_eq_find (data : MarketData) (key : Symbol) (ts : Time) :
    data.rowAt key ts =
      (data.rows key data.drivingFrequency).find? fun row => row.time = ts := by
  rw [rows_driving]
  unfold MarketData.rowAt
  cases data.frames.get? key with
  | none => rfl
  | some frame => rfl

theorem closedRows_driving (data : MarketData) (t : Time) (key : Symbol) :
    closedRows data t key data.drivingFrequency =
      (data.rows key data.drivingFrequency).filter fun row => row.time ≤ t := by
  unfold closedRows
  refine List.filter_congr fun row _ => ?_
  rw [decide_eq_decide]
  exact add_le_add_iff_right _

theorem SamePast.driving_rows (h : SamePast t data other) (key : Symbol) :
    ((other.rows key other.drivingFrequency).filter fun row => row.time ≤ t) =
      (data.rows key data.drivingFrequency).filter fun row => row.time ≤ t := by
  rw [← closedRows_driving, ← closedRows_driving, h.rows, h.driving]

theorem SamePast.rowAt (h : SamePast t data other) (key : Symbol) {ts : Time} (hts : ts ≤ t) :
    other.rowAt key ts = data.rowAt key ts := by
  have hfind : ∀ rows : List Bar, (rows.find? fun row => row.time = ts) =
      (rows.filter fun row => row.time ≤ t).find? fun row => row.time = ts := by
    intro rows
    rw [List.find?_filter]
    congr 1
    funext row
    by_cases hrow : row.time = ts
    · simp [hrow, hts]
    · simp [hrow]
  rw [rowAt_eq_find, rowAt_eq_find, hfind, h.driving_rows, ← hfind]

end Past

section Views

variable {t : Time} {v w : View}

theorem SameView.normalize (h : SameView t v w) : w.normalize = v.normalize := by
  funext frequency
  unfold View.normalize
  rw [h.past.driving]

theorem SameView.resolve (h : SameView t v w) : w.resolve = v.resolve := by
  funext symbol frequency
  exact h.past.resolveKey symbol frequency

theorem SameView.frameKeys (h : SameView t v w) : w.frameKeys = v.frameKeys := by
  funext frequency
  exact h.past.framesForFrequency frequency

theorem SameView.visibleRows (h : SameView t v w) : w.visibleRows = v.visibleRows := by
  funext key frequency
  unfold View.visibleRows View.eventTime
  rw [h.clock, h.included, h.past.driving]
  cases hnow : v.currentDt with
  | none => rfl
  | some now =>
    have hreached := h.reached now hnow
    dsimp only [Option.map_some]
    -- what is visible has closed by the end of the bar
    have hclosed : (if v.includeCurrent = true then
        now + seconds (frequencySeconds v.data.drivingFrequency) else now) ≤
          t + seconds (frequencySeconds v.data.drivingFrequency) := by
      have hperiod : 0 ≤ seconds (frequencySeconds v.data.drivingFrequency) :=
        mul_nonneg (frequencySeconds_pos _).le (by decide)
      split
      · exact add_le_add_left hreached _
      · linarith
    generalize (if v.includeCurrent = true then
      now + seconds (frequencySeconds v.data.drivingFrequency) else now) = event at hclosed ⊢
    have hnarrow : ∀ data : MarketData, data.drivingFrequency = v.data.drivingFrequency →
        ((data.rows key frequency).filter fun row =>
          row.time + seconds (frequencySeconds frequency) ≤ event) =
        (closedRows data t key frequency).filter fun row =>
          row.time + seconds (frequencySeconds frequency) ≤ event := by
      intro data hdriving
      unfold closedRows
      rw [List.filter_filter, hdriving]
      refine List.filter_congr fun row _ => ?_
      by_cases hrow : row.time + seconds (frequencySeconds frequency) ≤ event
      · simp [hrow, hrow.trans hclosed]
      · simp [hrow]
    rw [hnarrow _ h.past.driving, hnarrow _ rfl, h.past.rows]

theorem SameView.barAt (h : SameView t v w) (symbol : String) {ts : Time} (hts : ts ≤ t) :
    w.barAt symbol ts = v.barAt symbol ts := by
  unfold View.barAt
  rw [h.resolve]
  congr 1
  funext key
  rw [h.past.rowAt key hts]

theorem SameView.current (h : SameView t v w) : w.current = v.current := by
  funext symbol field fallback frequency
  unfold View.current
  rw [h.resolve, h.normalize, h.visibleRows]

theorem SameView.visibleFrame (h : SameView t v w) : w.visibleFrame = v.visibleFrame := by
  funext symbol count frequency
  unfold View.visibleFrame
  rw [h.resolve, h.normalize, h.visibleRows]

theorem SameView.history (h : SameView t v w) : w.history = v.history := by
  have hone : w.historyOf = v.historyOf := by
    funext count fields frequency symbol
    unfold View.historyOf
    rw [h.resolve, h.visibleFrame, h.visibleRows]
  funext symbols count fields frequency
  unfold View.history
  rw [hone, h.normalize]

theorem SameView.panel (h : SameView t v w) : w.panel = v.panel := by
  have hone : w.panelOf = v.panelOf := by
    funext count frequency symbol
    unfold View.panelOf
    rw [h.resolve, h.visibleFrame]
  funext symbols count frequency
  unfold View.panel
  rw [hone, h.normalize, h.frameKeys]

end Views

/-! ## What cannot tell the future -/

/-- No computation of this kind tells two portals with the same past apart. -/
def Blind (t : Time) {α : Type} (m : PortalM α) : Prop :=
  Relates (fun p q : Portal => SameView t p.view q.view) Eq m m

namespace Blind

variable {t : Time} {α β κ : Type}

theorem pure (a : α) : Blind t (Pure.pure a) := Relates.pure rfl

theorem throw (e : StrategyError) : Blind t (MonadExcept.throw e : PortalM α) := Relates.throw

theorem bind {m : PortalM α} {f : α → PortalM β} (hm : Blind t m) (hf : ∀ a, Blind t (f a)) :
    Blind t (m >>= f) :=
  Relates.bind hm fun a b hab => by
    subst hab
    exact hf a

theorem foldlM {f : β → α → PortalM β} {l : List α} (h : ∀ b, ∀ a ∈ l, Blind t (f b a)) (b : β) :
    Blind t (l.foldlM f b) := by
  refine Relates.foldlM (fun b c a ha hbc => ?_) rfl
  subst hbc
  exact h b a ha

theorem mapM {f : α → PortalM β} {l : List α} (h : ∀ a, Blind t (f a)) : Blind t (l.mapM f) := by
  induction l with
  | nil => exact pure []
  | cons a l ih =>
    rw [List.mapM_cons]
    exact bind (h a) fun b => bind ih fun bs => pure (b :: bs)

theorem attempt {m : PortalM α} (hm : Blind t m) : Blind t (Library.attempt m) :=
  Relates.attempt hm

theorem ite {p : Prop} [Decidable p] {m m' : PortalM α} (hm : Blind t m) (hm' : Blind t m') :
    Blind t (if p then m else m') := by
  split
  · exact hm
  · exact hm'

theorem ofExcept (r : Except StrategyError α) : Blind t (Library.ofExcept r : PortalM α) := by
  cases r with
  | ok a => exact pure a
  | error e => exact throw e

theorem of_reads {m : PortalM α} {f : View → Except StrategyError α}
    (hm : Reads Portal.view m f) (h : ∀ v w, SameView t v w → f w = f v) : Blind t m :=
  hm.relates hm fun v w hvw => (h v w hvw).symm

theorem setClock {now : Time} (hnow : now ≤ t) (includeCurrent : Bool) :
    Blind t (modify fun portal => portal.setClock now includeCurrent) := by
  intro p q hpq
  refine ⟨?_, rfl⟩
  show SameView t (p.setClock now includeCurrent).view (q.setClock now includeCurrent).view
  rw [Portal.setClock_view, Portal.setClock_view]
  refine ⟨hpq.past, rfl, rfl, ?_⟩
  rintro _ ⟨⟩
  exact hnow

end Blind

/-! ## The queries -/

section Queries

variable {t ts : Time}

theorem blind_resolveKey (symbol : String) (frequency : Option String) :
    Blind t (Portal.resolveKey symbol frequency) :=
  .of_reads (Portal.resolveKey_reads symbol frequency) fun _ _ h => by rw [h.resolve]

theorem blind_barAt (symbol : String) (hts : ts ≤ t) : Blind t (Portal.barAt symbol ts) :=
  .of_reads (Portal.barAt_reads symbol ts) fun _ _ h => h.barAt symbol hts

theorem blind_openAt (symbol : String) (hts : ts ≤ t) : Blind t (Portal.openAt symbol ts) :=
  .bind (blind_barAt symbol hts) fun _ => .pure _

theorem blind_closeAt (symbol : String) (hts : ts ≤ t) : Blind t (Portal.closeAt symbol ts) :=
  .bind (blind_barAt symbol hts) fun _ => .pure _

theorem blind_current (symbol field : String) (fallback : Amount) (frequency : Option String) :
    Blind t (Portal.current symbol field fallback frequency) :=
  .of_reads (Portal.current_reads symbol field fallback frequency) fun _ _ h => by rw [h.current]

theorem blind_visibleFrame (symbol : String) (count : Option ℤ) (frequency : Option String) :
    Blind t (Portal.visibleFrame symbol count frequency) :=
  .of_reads (Portal.visibleFrame_reads symbol count frequency) fun _ _ h => by rw [h.visibleFrame]

theorem blind_history (symbols : List String) (count : ℤ) (fields : List String)
    (frequency : Option String) : Blind t (Portal.history symbols count fields frequency) :=
  .of_reads (Portal.history_reads symbols count fields frequency) fun _ _ h => by rw [h.history]

theorem blind_panel (symbols : List String) (count : Option ℤ) (frequency : Option String) :
    Blind t (Portal.panel symbols count frequency) :=
  .of_reads (Portal.panel_reads symbols count frequency) fun _ _ h => by rw [h.panel]

theorem blind_frameKeys (frequency : Option String) : Blind t (Portal.frameKeys frequency) :=
  .of_reads (Portal.frameKeys_reads frequency) fun _ _ h => by rw [h.frameKeys]

end Queries

/-! ## The broker -/

section Broker

variable {t ts : Time} {config : BrokerConfig}

theorem blind_markWith {quote : PositionKey → Position → PortalM Amount}
    (hquote : ∀ key position, Blind t (quote key position)) (broker : Broker) :
    Blind t (broker.markWith quote) := by
  refine .bind (Relates.mapValuesM fun e _ => ?_) fun _ => .pure _
  exact Blind.bind (hquote e.1 e.2) fun _ => .pure _

theorem blind_markToMarket (hts : ts ≤ t) (broker : Broker) :
    Blind t (broker.markToMarket ts) := by
  refine blind_markWith (fun _ position => ?_) broker
  refine .bind (blind_closeAt position.symbol hts) fun price => ?_
  cases price with
  | some price => exact .pure price
  | none => exact blind_current _ _ _ _

theorem blind_markToMarketBeforeFill (hts : ts ≤ t) (overrides : Dict PositionKey Amount)
    (broker : Broker) : Blind t (broker.markToMarketBeforeFill ts overrides) := by
  refine blind_markWith (fun key position => ?_) broker
  unfold Broker.fillQuote
  dsimp only
  split
  · exact .pure _
  · refine .bind (blind_openAt position.symbol hts) fun price => ?_
    cases price with
    | some price => exact .pure price
    | none => exact blind_current _ _ _ _

theorem blind_execute (hts : ts ≤ t) (overrides : Dict PositionKey Amount)
    (orders : List OrderIntent) (broker : Broker) :
    Blind t (broker.execute config ts overrides orders) := by
  refine .ite (.pure _) (.bind (blind_markToMarketBeforeFill hts _ _) fun marked => ?_)
  refine .bind (.foldlM (fun batch order _ => ?_) _) fun batch => ?_
  · exact .bind (blind_barAt order.symbol hts) fun _ => .bind (.ofExcept _) fun _ => .pure _
  · exact .bind (blind_markToMarketBeforeFill hts _ _) fun _ => .pure _

theorem blind_recordEquity (hts : ts ≤ t) (broker : Broker) :
    Blind t (broker.recordEquity ts) :=
  .bind (blind_markToMarket hts broker) fun _ => .pure _

theorem blind_processProtections (hts : ts ≤ t) (broker : Broker) :
    Blind t (broker.processProtections config ts) := by
  refine .bind (.foldlM (fun pass entry _ => ?_) _) fun pass => ?_
  · refine .bind (blind_barAt _ hts) fun bar => ?_
    dsimp only
    split
    · exact .pure _
    · exact .pure _
    · exact .pure _
  · exact .ite (.pure _) (.bind (blind_execute hts _ _ _) fun _ => .pure _)

theorem blind_liquidateIfInsolvent (hts : ts ≤ t) (broker : Broker) :
    Blind t (broker.liquidateIfInsolvent config ts) := by
  refine .ite (.pure _) (.bind (blind_markToMarket hts broker) fun marked => ?_)
  refine .ite (.pure _) (.bind (.foldlM (fun batch entry _ => ?_) _) fun forced => ?_)
  · exact .bind (blind_closeAt _ hts) fun _ => .ite (.pure _) (.pure _)
  · refine .bind (blind_execute hts _ _ _) fun result => .bind ?_ fun _ => .pure _
    exact .bind (blind_markToMarket hts _) fun _ => .pure _

end Broker

/-! ## The runner -/

section Runner

variable {t ts : Time} {config : BrokerConfig}

theorem blind_reading {α : Type} (run : Run) {m : PortalM α} (hm : Blind t m) :
    Blind t (run.reading m) :=
  .bind hm.attempt fun _ => .pure _

theorem blind_positionOf (account : Account) (key : Symbol) (side : Option Side) :
    Blind t (Context.positionOf account key side) := by
  unfold Context.positionOf
  split
  · exact .pure _
  · dsimp only
    split
    · exact .pure _
    · exact .throw _
    · exact .pure _
    · exact .bind (blind_current _ _ _ _).attempt fun _ => .pure _

theorem blind_answer (call : ApiCall) (run : Run) : Blind t (Run.answer call run) := by
  cases call with
  | current symbol field frequency => exact blind_reading run (blind_current _ _ _ _)
  | history symbols count fields frequency => exact blind_reading run (blind_history _ _ _ _)
  | getHistory count frequency fields securities =>
    exact blind_reading run (.bind (blind_frameKeys _) fun _ => blind_history _ _ _ _)
  | panel symbols count frequency => exact blind_reading run (blind_panel _ _ _)
  | visibleFrame symbol count frequency => exact blind_reading run (blind_visibleFrame _ _ _)
  | getPosition symbol side =>
    refine blind_reading run (.bind (blind_resolveKey symbol none).attempt fun resolved => ?_)
    exact blind_positionOf _ _ _
  | getPositions symbols side =>
    refine blind_reading run ?_
    cases symbols with
    | none => exact .pure _
    | some symbols => exact .bind (.mapM fun symbol => blind_resolveKey symbol none) fun _ => .pure _
  | portfolio => exact .pure _
  | getOrderStatus reference => exact .pure _
  | cancelOrder reference => exact .pure _
  | order symbol kind value options =>
    refine .bind (Blind.attempt ?_) fun order => ?_
    · unfold Context.readOrder
      cases firstName options.unsupported with
      | some name => exact .throw _
      | none => exact .bind (blind_resolveKey symbol none) fun _ => .ofExcept _
    · cases order with
      | error e => exact .pure _
      | ok order => exact .pure _
  | setDefaultProtection values => exact .pure _
  | consumeLastExitReason symbol => exact .pure _
  | clock => exact .pure _

variable {σ : Type} (strategy : Strategy σ)

theorem blind_invoke (name : String) (argument : HandlerArgument) (state : σ × Run) :
    Blind t (strategy.invoke name argument state) := by
  unfold Strategy.invoke
  cases strategy.handler name with
  | none => exact .pure _
  | some handler =>
    exact Relates.mapError (Relates.run (fun call run => blind_answer call run) _ state.2)

theorem blind_openingHandlers (ts : Time) (state : σ × Run) :
    Blind t (strategy.openingHandlers ts state) := by
  have hopening : ∀ name argument (state : σ × Run),
      Blind t (strategy.openingHandler name argument state) :=
    fun name argument state => .bind (blind_invoke strategy name argument state) fun _ => .pure _
  refine .bind (hopening _ _ _) fun state => .bind (.foldlM (fun state schedule _ => ?_) _)
    fun state => .ite (.bind (blind_panel _ _ _) fun panel => hopening _ _ _) (.pure _)
  refine .bind ?_ fun frequency => .ite (hopening _ _ _) (.pure _)
  intro p q hpq
  exact ⟨hpq, hpq.past.driving.symm⟩

theorem blind_recordBar (hts : ts ≤ t) (run : Run) : Blind t (run.recordBar ts) :=
  .bind (blind_recordEquity hts _) fun _ => .pure _

theorem blind_finishBar (hts : ts ≤ t) (state : σ × Run) :
    Blind t (strategy.finishBar config ts state) := by
  have hclosing : ∀ name (state : σ × Run), Blind t (strategy.closingHandler name state) :=
    fun name state => .bind (blind_invoke strategy name _ state) fun _ => .pure _
  refine .bind (blind_liquidateIfInsolvent hts _) fun result => ?_
  refine .ite (.bind (blind_recordBar hts _) fun _ => .pure _) ?_
  exact .bind (hclosing _ _) fun _ => .bind (hclosing _ _) fun _ =>
    .bind (blind_recordBar hts _) fun _ => .pure _

theorem blind_runBar (hts : ts ≤ t) (state : σ × Run) :
    Blind t (strategy.runBar config state ts) := by
  refine .ite (.bind (.setClock hts true) fun _ => .bind (blind_recordBar hts _) fun _ => .pure _) ?_
  refine .bind ?_ fun opened => .bind ?_ fun traded => blind_finishBar strategy hts traded
  · refine .bind (.setClock hts false) fun _ => .bind ?_ fun run =>
      blind_openingHandlers strategy ts _
    exact .ite (.pure _) (.bind (blind_execute hts _ _ _) fun _ => .pure _)
  · refine .bind (.ite (.pure _) (.bind (blind_execute hts _ _ _) fun _ => .pure _)) fun run => ?_
    refine .bind (.bind (blind_processProtections hts _) fun _ => .pure _) fun run => ?_
    exact .bind (.setClock hts true) fun _ => .pure _

end Runner

/-! ## The bars of the two runs -/

section Runs

variable {t : Time} {data other : MarketData}

theorem mem_timestamps {x : Time} :
    x ∈ data.timestamps ↔ ∃ key, ∃ row ∈ data.rows key data.drivingFrequency, row.time = x := by
  unfold MarketData.timestamps
  rw [List.mem_insertionSort, List.mem_dedup, List.mem_flatMap]
  constructor
  · rintro ⟨frame, hframe, hx⟩
    obtain ⟨⟨key, _⟩, hentry, rfl⟩ := List.mem_map.mp hframe
    obtain ⟨row, hrow, rfl⟩ := List.mem_map.mp hx
    refine ⟨key, row, ?_, rfl⟩
    rw [rows_driving, Dict.get?_eq_some_iff.mpr hentry]
    exact hrow
  · rintro ⟨key, row, hrow, rfl⟩
    rw [rows_driving] at hrow
    cases hframe : data.frames.get? key with
    | none =>
      rw [hframe] at hrow
      exact absurd hrow List.not_mem_nil
    | some frame =>
      rw [hframe] at hrow
      exact ⟨frame, List.mem_map.mpr ⟨(key, frame), Dict.get?_eq_some_iff.mp hframe, rfl⟩,
        List.mem_map.mpr ⟨row, hrow, rfl⟩⟩

theorem SamePast.mem_timestamps (h : SamePast t data other) {x : Time} (hx : x ≤ t) :
    x ∈ other.timestamps ↔ x ∈ data.timestamps := by
  have hfiltered : ∀ rows : List Bar, (∃ row ∈ rows, row.time = x) ↔
      ∃ row ∈ rows.filter fun row => row.time ≤ t, row.time = x := by
    intro rows
    constructor
    · rintro ⟨row, hrow, rfl⟩
      exact ⟨row, List.mem_filter.mpr ⟨hrow, decide_eq_true hx⟩, rfl⟩
    · rintro ⟨row, hrow, rfl⟩
      exact ⟨row, List.mem_of_mem_filter hrow, rfl⟩
  rw [Analysis.mem_timestamps, Analysis.mem_timestamps]
  refine exists_congr fun key => ?_
  rw [hfiltered, h.driving_rows, ← hfiltered]

theorem runTimestamps_strict (data : MarketData) (startDate endDate : Option Time) :
    (runTimestamps data startDate endDate).Pairwise (· ≤ ·) ∧
      (runTimestamps data startDate endDate).Nodup := by
  refine ⟨(List.pairwise_insertionSort (· ≤ ·) _).filter _, List.Nodup.filter _ ?_⟩
  exact (List.perm_insertionSort _ _).nodup_iff.mpr (List.nodup_dedup _)

theorem SamePast.runTimestamps (h : SamePast t data other) (startDate endDate : Option Time) :
    ((runTimestamps other startDate endDate).filter fun x => x ≤ t) =
      (runTimestamps data startDate endDate).filter fun x => x ≤ t := by
  obtain ⟨hsorted, hnodup⟩ := runTimestamps_strict data startDate endDate
  obtain ⟨hsorted', hnodup'⟩ := runTimestamps_strict other startDate endDate
  refine List.Perm.eq_of_pairwise (fun _ _ _ _ => le_antisymm) (hsorted'.filter _)
    (hsorted.filter _) ?_
  refine (List.perm_ext_iff_of_nodup (hnodup'.filter _) (hnodup.filter _)).mpr fun x => ?_
  unfold Model.runTimestamps
  rw [List.mem_filter, List.mem_filter, List.mem_filter, List.mem_filter, decide_eq_true_eq]
  refine and_congr_left fun hx => and_congr_left fun _ => ?_
  exact h.mem_timestamps hx

/-- What a computation returns or raises, without the portal it leaves. -/
def outcome {α : Type} : EStateM.Result StrategyError Portal α → Except StrategyError α
  | .ok a _ => .ok a
  | .error e _ => .error e

theorem Blind.outcome_eq {α : Type} {m : PortalM α} (hm : Blind t m) {p q : Portal}
    (h : SameView t p.view q.view) : outcome (m q) = outcome (m p) := by
  have hmatch := hm p q h
  cases hp : m p with
  | ok a p' =>
    cases hq : m q with
    | ok b q' =>
      rw [hp, hq] at hmatch
      exact congrArg Except.ok hmatch.2.symm
    | error e q' =>
      rw [hp, hq] at hmatch
      exact hmatch.elim
  | error e p' =>
    cases hq : m q with
    | ok b q' =>
      rw [hp, hq] at hmatch
      exact hmatch.elim
    | error e' q' =>
      rw [hp, hq] at hmatch
      exact congrArg Except.error hmatch.2.symm

/-- **No look-ahead.** From the first bar on, a run over data with the same past is the same run:
the same account, orders, executions and state of the strategy, or the same exception. -/
theorem after_eq_of_same_past {σ : Type} (test : Backtest σ) {other : MarketData} {t : Time}
    (hstarted : ∃ s ∈ test.timestamps, s ≤ t) (h : SamePast t test.data other) :
    outcome ({ test with data := other }.after t) = outcome (test.after t) := by
  obtain ⟨s, hs, hle⟩ := hstarted
  have hstamps := h.runTimestamps test.startDate test.endDate
  have hs' : s ∈ ({ test with data := other } : Backtest σ).timestamps := by
    refine List.mem_of_mem_filter (p := fun x => x ≤ t) ?_
    show s ∈ (Model.runTimestamps other test.startDate test.endDate).filter fun x => x ≤ t
    rw [hstamps]
    exact List.mem_filter.mpr ⟨hs, decide_eq_true hle⟩
  unfold Backtest.after Backtest.runOver
  rw [if_neg (List.ne_nil_of_mem hs), if_neg (List.ne_nil_of_mem hs')]
  show outcome (test.strategy.runBars test.config _
    ((Model.runTimestamps other test.startDate test.endDate).filter fun x => x ≤ t) _) = _
  rw [hstamps]
  refine Blind.outcome_eq (t := t) (.foldlM (fun state ts hts => ?_) _) ⟨h, rfl, rfl, ?_⟩
  · have hbar : ts ≤ t := by simpa using List.of_mem_filter hts
    exact blind_runBar test.strategy hbar state
  · exact fun _ hnone => nomatch hnone

end Runs

/-! ## Two futures of one share -/

theorem singleMarket_rows_eq (symbol : Symbol) (frame : Frame) (key : Symbol) (frequency : String) :
    (singleMarket symbol frame).rows key frequency =
      if "1d" = frequency ∧ symbol = key then frame.rows else [] := by
  unfold MarketData.rows MarketData.frame? singleMarket Dict.get?
  by_cases hfrequency : "1d" = frequency
  · by_cases hkey : symbol = key
    · simp [hfrequency, hkey]
    · simp [hfrequency, hkey]
  · simp [hfrequency]

theorem samePast_singleMarket (symbol : Symbol) {frame other : Frame} {t : Time}
    (h : (other.rows.filter fun row => row.time ≤ t) = frame.rows.filter fun row => row.time ≤ t) :
    SamePast t (singleMarket symbol frame) (singleMarket symbol other) where
  driving := rfl
  aliases := rfl
  parser := rfl
  keys frequency := by
    unfold singleMarket Dict.get?
    by_cases hfrequency : "1d" = frequency
    · simp [hfrequency, Dict.keys]
    · simp [hfrequency]
  rows key frequency := by
    by_cases hframe : "1d" = frequency ∧ symbol = key
    · obtain ⟨rfl, rfl⟩ := hframe
      have hdriving : ∀ frame : Frame, (singleMarket symbol frame).drivingFrequency = "1d" :=
        fun _ => rfl
      have hclosed : ∀ frame : Frame, closedRows (singleMarket symbol frame) t symbol "1d" =
          frame.rows.filter fun row => row.time ≤ t := by
        intro frame
        rw [← hdriving frame, closedRows_driving, hdriving, singleMarket_rows_eq,
          if_pos ⟨rfl, rfl⟩]
      rw [hclosed, hclosed, h]
    · unfold closedRows
      rw [singleMarket_rows_eq, singleMarket_rows_eq, if_neg hframe, if_neg hframe]
      rfl

/-- Five shares are bought at the open of the second day; the third day ends at a given price. -/
def boughtFive (last : Amount) : Backtest ℕ :=
  shareTest (BrokerConfig.create 1 0 0 fun _ => none) 1000 [(100, 0), (100, 0), (last, 0)] false
    fun name n => if n = 0 ∧ name = "handle_data" then [orderShares 5 "a"] else []

theorem third_day_unseen :
    outcome ((boughtFive 10).after (day 1)) = outcome ((boughtFive 200).after (day 1)) ∧
      (runAfter (boughtFive 200) (day 1)).map (fun run => run.broker.executions.length) =
        some 1 := by
  have hpast : SamePast (day 1) (boughtFive 200).data (boughtFive 10).data :=
    samePast_singleMarket "USStock:X" (by decide +kernel)
  exact ⟨after_eq_of_same_past (boughtFive 200) ⟨day 1, by decide +kernel, le_rfl⟩ hpast,
    by decide +kernel⟩

end QuantDinger.Analysis
