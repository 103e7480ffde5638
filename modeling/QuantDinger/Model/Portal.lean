import QuantDinger.Library.Effect
import QuantDinger.Model.Market

/-!
# The data portal

`MultiAssetDataPortal` with its clock and its three caches: the rows of the current
instant (`_bar_cache`), the column arrays (`_columns`) and the visible ends
(`_visible_ends`). The caches survive clock moves except where the source clears them,
so a portal carries the proofs that what they hold is what a fresh lookup would give;
a portal with a stale entry cannot be built.

Queries are `PortalM` computations: they may raise, and they fill the caches as they go.
-/

namespace QuantDinger.Model

open QuantDinger.Library

/-- `_visible_cutoff(frequency)` at a clock reading.
SOURCE: data.py:274-280 -/
def visibleCutoff (data : MarketData) (currentDt : Option Time) (includeCurrent : Bool)
    (frequency : String) : Option Time :=
  currentDt.map fun eventTime =>
    (if includeCurrent then eventTime + seconds (frequencySeconds data.drivingFrequency)
      else eventTime) - seconds (frequencySeconds frequency)

/-- The visible end of one frame at a clock reading.
SOURCE: data.py:84-92 -/
def visibleEndOf (data : MarketData) (currentDt : Option Time) (includeCurrent : Bool)
    (key : Symbol) (frequency : String) : ℕ :=
  match visibleCutoff data currentDt includeCurrent frequency with
  | none => 0
  | some cutoff => ((data.frame? key frequency).map fun frame => frame.endAt cutoff).getD 0

/-- `MultiAssetDataPortal`.
SOURCE: data.py:18-71 -/
structure Portal where
  data : MarketData
  currentDt : Option Time
  includeCurrent : Bool
  barCacheTimestamp : Option Time
  barCache : Dict Symbol (Option Bar)
  columns : Dict (Symbol × String) (List Bar)
  visibleEnds : Dict (Symbol × String) ℕ
  bar_coherent : ∀ ts key bar, barCacheTimestamp = some ts → barCache.get? key = some bar →
    bar = data.rowAt key ts
  column_coherent : ∀ key rows, columns.get? key = some rows → rows = data.rows key.1 key.2
  end_coherent : ∀ key n, visibleEnds.get? key = some n →
    n = visibleEndOf data currentDt includeCurrent key.1 key.2

/-- Computations over the portal. -/
abbrev PortalM := EStateM StrategyError Portal

namespace Portal

/-- A portal fresh from the constructor. -/
def create (data : MarketData) : Portal where
  data := data
  currentDt := none
  includeCurrent := false
  barCacheTimestamp := none
  barCache := Dict.empty
  columns := Dict.empty
  visibleEnds := Dict.empty
  bar_coherent := by simp
  column_coherent := by simp
  end_coherent := by simp

/-- `set_clock`: the visible ends are dropped when the clock really moves.
SOURCE: data.py:77-82 -/
def setClock (portal : Portal) (currentDt : Time) (includeCurrent : Bool) : Portal :=
  if h : some currentDt ≠ portal.currentDt ∨ includeCurrent ≠ portal.includeCurrent then
    { portal with
      currentDt := some currentDt
      includeCurrent := includeCurrent
      visibleEnds := Dict.empty
      end_coherent := by simp }
  else
    { portal with
      currentDt := some currentDt
      includeCurrent := includeCurrent
      end_coherent := by
        rw [not_or, not_ne_iff, not_ne_iff] at h
        rw [h.1, h.2]
        exact portal.end_coherent }

/-- Move the bar cache to `ts`, emptying it when it holds another instant.
SOURCE: data.py:221-223 -/
def focusBarCache (portal : Portal) (ts : Time) : Portal :=
  if portal.barCacheTimestamp ≠ some ts then
    { portal with
      barCacheTimestamp := some ts
      barCache := Dict.empty
      bar_coherent := by simp }
  else portal

/-- Store the row of `key` at the instant the bar cache holds.
SOURCE: data.py:227-255 -/
def storeBar (portal : Portal) (key : Symbol) (ts : Time)
    (h : portal.barCacheTimestamp = some ts) : Portal :=
  { portal with
    barCache := portal.barCache.set key (portal.data.rowAt key ts)
    bar_coherent := by
      intro ts' key' bar hts hbar
      rw [h, Option.some.injEq] at hts
      subst hts
      rw [Dict.get?_set] at hbar
      split at hbar
      · rename_i hk
        subst hk
        exact (Option.some.inj hbar).symm
      · exact portal.bar_coherent _ _ _ h hbar }

theorem focusBarCache_timestamp (portal : Portal) (ts : Time) :
    (portal.focusBarCache ts).barCacheTimestamp = some ts := by
  unfold focusBarCache
  split
  · rfl
  · rename_i h
    exact not_ne_iff.mp h

/-- Store the visible end of `key` at the current clock.
SOURCE: data.py:86-91 -/
def storeVisibleEnd (portal : Portal) (key : Symbol) (frequency : String) : Portal :=
  { portal with
    visibleEnds := portal.visibleEnds.set (key, frequency)
      (visibleEndOf portal.data portal.currentDt portal.includeCurrent key frequency)
    end_coherent := by
      intro key' n hn
      rw [Dict.get?_set] at hn
      split at hn
      · rename_i hk
        subst hk
        exact (Option.some.inj hn).symm
      · exact portal.end_coherent _ _ hn }

/-- Store the columns of `key`.
SOURCE: data.py:96-99 -/
def storeColumns (portal : Portal) (key : Symbol) (frequency : String) : Portal :=
  { portal with
    columns := portal.columns.set (key, frequency) (portal.data.rows key frequency)
    column_coherent := by
      intro key' rows hrows
      rw [Dict.get?_set] at hrows
      split at hrows
      · rename_i hk
        subst hk
        exact (Option.some.inj hrows).symm
      · exact portal.column_coherent _ _ hrows }

/-! ## Queries -/

/-- `resolve_key` as a query. -/
def resolveKey (symbol : String) (frequency : Option String) : PortalM Symbol := fun portal =>
  ofExcept (portal.data.resolveKey symbol frequency) portal

/-- `frames_for_frequency` as a query, for the keys of the frames. -/
def frameKeys (frequency : Option String) : PortalM (List Symbol) := fun portal =>
  ofExcept ((portal.data.framesForFrequency frequency).map Dict.keys) portal

/-- `normalize_frequency(frequency, self.driving_frequency)`. -/
def normalized (frequency : Option String) : PortalM String := fun portal =>
  .ok (normalizeFrequency frequency portal.data.drivingFrequency) portal

/-- `self.frames_by_frequency[frequency][key]` as a query, for the rows. -/
def frameRows (key : Symbol) (frequency : String) : PortalM (List Bar) := fun portal =>
  .ok (portal.data.rows key frequency) portal

/-- `_visible_end(key, frequency)`.
SOURCE: data.py:84-92 -/
def visibleEnd (key : Symbol) (frequency : String) : PortalM ℕ := fun portal =>
  match portal.visibleEnds.get? (key, frequency) with
  | some n => .ok n portal
  | none =>
    .ok (visibleEndOf portal.data portal.currentDt portal.includeCurrent key frequency)
      (portal.storeVisibleEnd key frequency)

/-- `_column_arrays(key, frequency)`, as the rows of the arrays.
SOURCE: data.py:94-100 -/
def columnArrays (key : Symbol) (frequency : String) : PortalM (List Bar) := fun portal =>
  match portal.columns.get? (key, frequency) with
  | some rows => .ok rows portal
  | none => .ok (portal.data.rows key frequency) (portal.storeColumns key frequency)

/-- `bar_at` once the key is known.
SOURCE: data.py:220-258 -/
def cachedBar (key : Symbol) (ts : Time) : PortalM (Option Bar) := fun portal =>
  match (portal.focusBarCache ts).barCache.get? key with
  | some bar => .ok bar (portal.focusBarCache ts)
  | none => .ok (portal.data.rowAt key ts)
      ((portal.focusBarCache ts).storeBar key ts (portal.focusBarCache_timestamp ts))

/-- `bar_at(symbol, timestamp)`.
SOURCE: data.py:218-258 -/
def barAt (symbol : String) (ts : Time) : PortalM (Option Bar) := do
  let key ← resolveKey symbol none
  cachedBar key ts

/-- `open_at(symbol, timestamp)`.
SOURCE: data.py:208-211 -/
def openAt (symbol : String) (ts : Time) : PortalM (Option Amount) := do
  let bar ← barAt symbol ts
  pure ((bar.map Bar.openPrice).filter (0 < ·))

/-- `close_at(symbol, timestamp)`.
SOURCE: data.py:213-216 -/
def closeAt (symbol : String) (ts : Time) : PortalM (Option Amount) := do
  let bar ← barAt symbol ts
  pure ((bar.map Bar.closePrice).filter (0 < ·))

/-- The last of the first `endIndex` rows under a column, when it holds a number.
SOURCE: data.py:200-206 -/
def latest (columns : List Bar) (endIndex : ℕ) (field : String) (fallback : Amount) : Amount :=
  (((columns.take endIndex).getLast?.bind (Bar.field? · field)).bind Cell.toFloat?).getD fallback

/-- `current(symbol, field, default, frequency)`.
SOURCE: data.py:188-206 -/
def current (symbol field : String) (fallback : Amount) (frequency : Option String) :
    PortalM Amount := do
  let frequency ← normalized frequency
  let key ← resolveKey symbol (some frequency)
  let endIndex ← visibleEnd key frequency
  let columns ← columnArrays key frequency
  pure (latest columns endIndex field fallback)

/-- The rows of `iloc[start:end]` for a requested count. -/
def window (rows : List Bar) (endIndex : ℕ) (count : Option ℤ) : List Bar :=
  let start : ℕ := match count with
    | some n => if 0 < n then endIndex - n.toNat else 0
    | none => 0
  (rows.take endIndex).drop start

/-- `visible_frame(symbol, count, frequency)`.
SOURCE: data.py:124-137 -/
def visibleFrame (symbol : String) (count : Option ℤ) (frequency : Option String) :
    PortalM (List Bar) := do
  let frequency ← normalized frequency
  let key ← resolveKey symbol (some frequency)
  let endIndex ← visibleEnd key frequency
  let rows ← frameRows key frequency
  pure (window rows endIndex count)

/-- A row as the data API hands it out: the stamp and the selected columns. -/
abbrev HistoryRow := Time × List (String × Cell)

/-- The selected columns of a row, every column when none is named. -/
def selectFields (fields : List String) (row : Bar) : HistoryRow :=
  (row.time, if fields.isEmpty then row.cells
    else fields.filterMap fun name => (row.field? name).map fun cell => (name, cell))

/-- One symbol of `history`.
SOURCE: data.py:151-183 -/
def historyOf (count : ℤ) (fields : List String) (frequency : String) (symbol : String) :
    PortalM (Symbol × List HistoryRow) := do
  let key ← resolveKey symbol (some frequency)
  if fields.isEmpty then
    let rows ← visibleFrame key (some count) (some frequency)
    pure (key, rows.map (selectFields []))
  else
    let endIndex ← visibleEnd key frequency
    let columns ← columnArrays key frequency
    pure (key, (window columns endIndex (some count)).map (selectFields fields))

/-- `history(symbols, count, fields, frequency)`: one entry for each requested key.
SOURCE: data.py:139-186 -/
def history (symbols : List String) (count : ℤ) (fields : List String)
    (frequency : Option String) : PortalM (Dict Symbol (List HistoryRow)) := do
  let frequency ← normalized frequency
  let output ← symbols.mapM
    (historyOf count (fields.map fun name => lower (strip name)) frequency)
  pure (Dict.ofPairs output)

/-- One symbol of `panel`. -/
def panelOf (count : Option ℤ) (frequency : String) (symbol : String) :
    PortalM (Symbol × List HistoryRow) := do
  let key ← resolveKey symbol (some frequency)
  let rows ← visibleFrame symbol count (some frequency)
  pure (key, rows.map (selectFields []))

/-- `panel(symbols, count, frequency)`, for every key when no symbol is named.
SOURCE: data.py:260-276 -/
def panel (symbols : List String) (count : Option ℤ) (frequency : Option String) :
    PortalM (Dict Symbol (List HistoryRow)) := do
  let frequency ← normalized frequency
  let keys ← frameKeys (some frequency)
  let output ← (if symbols.isEmpty then keys else symbols).mapM (panelOf count frequency)
  pure (Dict.ofPairs output)

end Portal

end QuantDinger.Model
