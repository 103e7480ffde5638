import QuantDinger.Model.Portal

/-!
# What the portal is for: data as of an instant

A `View` is the market data with a clock and no caches. At a clock reading the event
time is the stamp of the current bar, or its close once the bar is included, and a row
is visible when it has closed by the event time: this is the whole visibility rule,
and the queries below are stated from it.

`Portal.view` forgets the caches. Every query of the portal reads the view: it returns
what the query below says of it and leaves it alone (`current_reads`, `history_reads`
and so on), whatever the caches held before.
-/

namespace QuantDinger.Interface

open QuantDinger.Library QuantDinger.Model

/-- The market data at a clock reading. -/
structure View where
  data : MarketData
  currentDt : Option Time
  includeCurrent : Bool

namespace View

variable (v : View)

/-- The instant up to which things have happened. -/
def eventTime : Option Time :=
  v.currentDt.map fun t =>
    if v.includeCurrent then t + seconds (frequencySeconds v.data.drivingFrequency) else t

/-- The rows of one frame that have closed by the event time. -/
def visibleRows (key : Symbol) (frequency : String) : List Bar :=
  match v.eventTime with
  | none => []
  | some t => (v.data.rows key frequency).filter fun row =>
    row.time + seconds (frequencySeconds frequency) ≤ t

/-- The last `n` rows when `n` is a positive count, else all of them. -/
def lastRows (rows : List Bar) : Option ℤ → List Bar
  | some n => if 0 < n then rows.drop (rows.length - n.toNat) else rows
  | none => rows

/-- The key a symbol stands for in the frames of a frequency. -/
def resolve (symbol : String) (frequency : Option String) : Except StrategyError Symbol :=
  v.data.resolveKey symbol frequency

/-- A frequency as the portal spells it. -/
def normalize (frequency : Option String) : String :=
  normalizeFrequency frequency v.data.drivingFrequency

/-- The row stamped `ts`. -/
def barAt (symbol : String) (ts : Time) : Except StrategyError (Option Bar) := do
  let key ← v.resolve symbol none
  pure (v.data.rowAt key ts)

/-- The latest visible value of a column. -/
def current (symbol field : String) (fallback : Amount) (frequency : Option String) :
    Except StrategyError Amount := do
  let key ← v.resolve symbol (some (v.normalize frequency))
  pure ((((v.visibleRows key (v.normalize frequency)).getLast?.bind (Bar.field? · field)).bind
    Cell.toFloat?).getD fallback)

/-- The latest visible rows of one symbol. -/
def visibleFrame (symbol : String) (count : Option ℤ) (frequency : Option String) :
    Except StrategyError (List Bar) := do
  let key ← v.resolve symbol (some (v.normalize frequency))
  pure (lastRows (v.visibleRows key (v.normalize frequency)) count)

/-- One symbol of `history`. -/
def historyOf (count : ℤ) (fields : List String) (frequency symbol : String) :
    Except StrategyError (Symbol × List Portal.HistoryRow) := do
  let key ← v.resolve symbol (some frequency)
  if fields.isEmpty then
    let rows ← v.visibleFrame key (some count) (some frequency)
    pure (key, rows.map (Portal.selectFields []))
  else
    pure (key, (lastRows (v.visibleRows key frequency) (some count)).map
      (Portal.selectFields fields))

/-- The latest visible rows of the requested symbols. -/
def history (symbols : List String) (count : ℤ) (fields : List String)
    (frequency : Option String) :
    Except StrategyError (Dict Symbol (List Portal.HistoryRow)) := do
  let output ← symbols.mapM (v.historyOf count (fields.map fun name => lower (strip name))
    (v.normalize frequency))
  pure (Dict.ofPairs output)

/-- One symbol of `panel`. -/
def panelOf (count : Option ℤ) (frequency symbol : String) :
    Except StrategyError (Symbol × List Portal.HistoryRow) := do
  let key ← v.resolve symbol (some frequency)
  let rows ← v.visibleFrame symbol count (some frequency)
  pure (key, rows.map (Portal.selectFields []))

/-- The keys of the frames of a frequency. -/
def frameKeys (frequency : Option String) : Except StrategyError (List Symbol) :=
  (v.data.framesForFrequency frequency).map Dict.keys

/-- The latest visible rows of every instrument, or of the requested ones. -/
def panel (symbols : List String) (count : Option ℤ) (frequency : Option String) :
    Except StrategyError (Dict Symbol (List Portal.HistoryRow)) := do
  let keys ← v.frameKeys (some (v.normalize frequency))
  let output ← (if symbols.isEmpty then keys else symbols).mapM
    (v.panelOf count (v.normalize frequency))
  pure (Dict.ofPairs output)

end View

end QuantDinger.Interface

namespace QuantDinger.Model.Portal

open QuantDinger.Library QuantDinger.Interface

/-- The portal without its caches. -/
def view (portal : Portal) : View := ⟨portal.data, portal.currentDt, portal.includeCurrent⟩

/-! ## The visible rows -/

theorem take_endAt (frame : Frame) (cutoff : Time) :
    frame.rows.take (frame.endAt cutoff) = frame.rows.filter fun row => row.time ≤ cutoff := by
  obtain ⟨rows, h⟩ := frame
  unfold Frame.endAt
  induction rows with
  | nil => rfl
  | cons a l ih =>
    rw [List.pairwise_cons] at h
    by_cases ha : a.time ≤ cutoff
    · simpa [ha] using ih h.2
    · have hnone : (l.filter fun row => decide (row.time ≤ cutoff)) = [] := by
        rw [List.filter_eq_nil_iff]
        intro b hb
        simp only [decide_eq_true_eq, not_le]
        exact lt_trans (not_le.mp ha) (h.1 b hb)
      simp [ha, hnone]

theorem take_visibleEndOf (v : View) (key : Symbol) (frequency : String) :
    (v.data.rows key frequency).take
        (visibleEndOf v.data v.currentDt v.includeCurrent key frequency) =
      v.visibleRows key frequency := by
  unfold visibleEndOf visibleCutoff View.visibleRows View.eventTime
  cases v.currentDt with
  | none => simp
  | some t =>
    simp only [Option.map_some]
    unfold MarketData.rows
    cases hf : v.data.frame? key frequency with
    | none => simp
    | some frame =>
      simp only [Option.map_some, Option.getD_some]
      rw [take_endAt]
      refine List.filter_congr fun row _ => ?_
      rw [decide_eq_decide]
      exact le_sub_iff_add_le

theorem visibleEndOf_eq_length (v : View) (key : Symbol) (frequency : String) :
    visibleEndOf v.data v.currentDt v.includeCurrent key frequency =
      (v.visibleRows key frequency).length := by
  rw [← take_visibleEndOf, List.length_take]
  refine (min_eq_left ?_).symm
  unfold visibleEndOf MarketData.rows
  cases visibleCutoff v.data v.currentDt v.includeCurrent frequency with
  | none => simp
  | some cutoff =>
    cases v.data.frame? key frequency with
    | none => simp
    | some frame => exact (List.takeWhile_sublist _).length_le

theorem window_eq_lastRows (v : View) (key : Symbol) (frequency : String) (count : Option ℤ) :
    window (v.data.rows key frequency)
        (visibleEndOf v.data v.currentDt v.includeCurrent key frequency) count =
      View.lastRows (v.visibleRows key frequency) count := by
  unfold window
  rw [take_visibleEndOf, visibleEndOf_eq_length]
  unfold View.lastRows
  cases count with
  | none => rfl
  | some n =>
    by_cases hn : 0 < n
    · simp [hn]
    · simp [hn]

/-! ## Every query reads the view -/

theorem resolveKey_reads (symbol : String) (frequency : Option String) :
    Reads view (resolveKey symbol frequency) (fun v => v.resolve symbol frequency) :=
  fun portal => ⟨portal, rfl, rfl⟩

theorem frameKeys_reads (frequency : Option String) :
    Reads view (frameKeys frequency) (fun v => v.frameKeys frequency) :=
  fun portal => ⟨portal, rfl, rfl⟩

theorem frameRows_reads (key : Symbol) (frequency : String) :
    Reads view (frameRows key frequency) (fun v => .ok (v.data.rows key frequency)) :=
  fun portal => ⟨portal, rfl, rfl⟩

theorem normalized_reads (frequency : Option String) :
    Reads view (normalized frequency) (fun v => .ok (v.normalize frequency)) :=
  fun portal => ⟨portal, rfl, rfl⟩

theorem visibleEnd_reads (key : Symbol) (frequency : String) :
    Reads view (visibleEnd key frequency)
      (fun v => .ok (visibleEndOf v.data v.currentDt v.includeCurrent key frequency)) := by
  intro portal
  unfold visibleEnd
  cases h : portal.visibleEnds.get? (key, frequency) with
  | none => exact ⟨portal.storeVisibleEnd key frequency, rfl, rfl⟩
  | some n =>
    refine ⟨portal, rfl, ?_⟩
    rw [portal.end_coherent _ _ h]
    rfl

theorem columnArrays_reads (key : Symbol) (frequency : String) :
    Reads view (columnArrays key frequency) (fun v => .ok (v.data.rows key frequency)) := by
  intro portal
  unfold columnArrays
  cases h : portal.columns.get? (key, frequency) with
  | none => exact ⟨portal.storeColumns key frequency, rfl, rfl⟩
  | some rows =>
    refine ⟨portal, rfl, ?_⟩
    rw [portal.column_coherent _ _ h]
    rfl

@[simp] theorem focusBarCache_view (portal : Portal) (ts : Time) :
    (portal.focusBarCache ts).view = portal.view := by
  unfold focusBarCache
  split <;> rfl

theorem focusBarCache_data (portal : Portal) (ts : Time) :
    (portal.focusBarCache ts).data = portal.data :=
  congrArg View.data (portal.focusBarCache_view ts)

theorem cachedBar_reads (key : Symbol) (ts : Time) :
    Reads view (cachedBar key ts) (fun v => .ok (v.data.rowAt key ts)) := by
  intro portal
  unfold cachedBar
  cases h : (portal.focusBarCache ts).barCache.get? key with
  | none =>
    exact ⟨(portal.focusBarCache ts).storeBar key ts (portal.focusBarCache_timestamp ts),
      portal.focusBarCache_view ts, rfl⟩
  | some bar =>
    -- The cached row is the row a fresh lookup finds.
    refine ⟨portal.focusBarCache ts, portal.focusBarCache_view ts, ?_⟩
    have hbar := (portal.focusBarCache ts).bar_coherent ts key bar
      (portal.focusBarCache_timestamp ts) h
    rw [focusBarCache_data] at hbar
    rw [hbar]
    rfl

theorem barAt_reads (symbol : String) (ts : Time) :
    Reads view (barAt symbol ts) (fun v => v.barAt symbol ts) :=
  Reads.bind (resolveKey_reads symbol none) fun key => cachedBar_reads key ts

theorem openAt_reads (symbol : String) (ts : Time) :
    Reads view (openAt symbol ts) (fun v => do
      let bar ← v.barAt symbol ts
      pure ((bar.map Bar.openPrice).filter (0 < ·))) :=
  Reads.bind (barAt_reads symbol ts) fun _ => Reads.pure _

theorem closeAt_reads (symbol : String) (ts : Time) :
    Reads view (closeAt symbol ts) (fun v => do
      let bar ← v.barAt symbol ts
      pure ((bar.map Bar.closePrice).filter (0 < ·))) :=
  Reads.bind (barAt_reads symbol ts) fun _ => Reads.pure _

theorem current_reads (symbol field : String) (fallback : Amount) (frequency : Option String) :
    Reads view (current symbol field fallback frequency)
      (fun v => v.current symbol field fallback frequency) := by
  refine (Reads.bind (normalized_reads frequency) fun frequency =>
    Reads.bind (resolveKey_reads symbol (some frequency)) fun key =>
      Reads.bind (visibleEnd_reads key frequency) fun endIndex =>
        Reads.bind (columnArrays_reads key frequency) fun columns =>
          Reads.pure (latest columns endIndex field fallback)).congr fun v => ?_
  simp only [View.current, latest, bind, Except.bind, take_visibleEndOf]

theorem visibleFrame_reads (symbol : String) (count : Option ℤ) (frequency : Option String) :
    Reads view (visibleFrame symbol count frequency)
      (fun v => v.visibleFrame symbol count frequency) := by
  refine (Reads.bind (normalized_reads frequency) fun frequency =>
    Reads.bind (resolveKey_reads symbol (some frequency)) fun key =>
      Reads.bind (visibleEnd_reads key frequency) fun endIndex =>
        Reads.bind (frameRows_reads key frequency) fun rows =>
          Reads.pure (window rows endIndex count)).congr fun v => ?_
  simp only [View.visibleFrame, bind, Except.bind, window_eq_lastRows]

theorem historyOf_reads (count : ℤ) (fields : List String) (frequency symbol : String) :
    Reads view (historyOf count fields frequency symbol)
      (fun v => v.historyOf count fields frequency symbol) := by
  unfold historyOf View.historyOf
  by_cases hf : fields.isEmpty = true
  · simp only [hf, if_true]
    exact Reads.bind (resolveKey_reads symbol (some frequency)) fun key =>
      Reads.bind (visibleFrame_reads key (some count) (some frequency)) fun rows => Reads.pure _
  · simp only [hf]
    refine (Reads.bind (resolveKey_reads symbol (some frequency)) fun key =>
      Reads.bind (visibleEnd_reads key frequency) fun endIndex =>
        Reads.bind (columnArrays_reads key frequency) fun columns =>
          Reads.pure (key, (window columns endIndex (some count)).map
            (selectFields fields))).congr fun v => ?_
    simp only [bind, Except.bind, window_eq_lastRows]
    rfl

theorem history_reads (symbols : List String) (count : ℤ) (fields : List String)
    (frequency : Option String) :
    Reads view (history symbols count fields frequency)
      (fun v => v.history symbols count fields frequency) :=
  Reads.bind (normalized_reads frequency) fun frequency =>
    Reads.bind (Reads.mapM fun symbol _ => historyOf_reads count _ frequency symbol) fun output =>
      Reads.pure (Dict.ofPairs output)

theorem panelOf_reads (count : Option ℤ) (frequency symbol : String) :
    Reads view (panelOf count frequency symbol)
      (fun v => v.panelOf count frequency symbol) :=
  Reads.bind (resolveKey_reads symbol (some frequency)) fun _ =>
    Reads.bind (visibleFrame_reads symbol count (some frequency)) fun _ => Reads.pure _

theorem panel_reads (symbols : List String) (count : Option ℤ) (frequency : Option String) :
    Reads view (panel symbols count frequency) (fun v => v.panel symbols count frequency) :=
  Reads.bind (normalized_reads frequency) fun frequency =>
    Reads.bind (frameKeys_reads (some frequency)) fun _ =>
      Reads.bind (Reads.mapM fun symbol _ => panelOf_reads count frequency symbol) fun output =>
        Reads.pure (Dict.ofPairs output)

@[simp] theorem setClock_view (portal : Portal) (currentDt : Time) (includeCurrent : Bool) :
    (portal.setClock currentDt includeCurrent).view =
      ⟨portal.data, some currentDt, includeCurrent⟩ := by
  unfold setClock
  split <;> rfl

end QuantDinger.Model.Portal
