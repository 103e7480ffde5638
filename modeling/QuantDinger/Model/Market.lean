import QuantDinger.Library.Dict
import QuantDinger.Model.Text

/-!
# Frames and the market data set

The immutable part of `MultiAssetDataPortal`: the normalised frames of every
subscribed frequency, the alias table, and the lookups that depend on nothing else
(`resolve_key`, `frames_for_frequency`, the row at an instant, the number of rows up
to a cut-off).

Numbers are exact and finite. A cell that holds no number reads as missing; a string
cell carries the number `float` would read from it.
-/

namespace QuantDinger.Model

open QuantDinger.Library

/-- One cell of a frame outside the OHLCV columns. -/
inductive Cell
  | number (value : Amount)
  | text (value : String) (parsed : Option Amount)
  | missing
  deriving DecidableEq

/-- `float(cell)`, with nothing for a cell that is not a number. -/
def Cell.toFloat? : Cell → Option Amount
  | .number value => some value
  | .text _ parsed => parsed
  | .missing => none

/-- `_truthy(value)`.
SOURCE: runtime.py:2910-2913 -/
def truthy : Option Cell → Bool
  | some (.number value) => value ≠ 0
  | some (.text value _) => ["1", "true", "yes", "y"].contains (lower (strip value))
  | some .missing => false
  | none => false

/-- One row of a frame: its stamp, the OHLCV columns and every other column. -/
structure Bar where
  time : Time
  openPrice : Amount
  high : Amount
  low : Amount
  closePrice : Amount
  volume : Amount
  extra : List (String × Cell) := []
  deriving DecidableEq

namespace Bar

/-- The columns of the row by name. -/
def cells (bar : Bar) : List (String × Cell) :=
  [("open", .number bar.openPrice), ("high", .number bar.high), ("low", .number bar.low),
    ("close", .number bar.closePrice), ("volume", .number bar.volume)] ++ bar.extra

/-- The cell of the row under a column name. -/
def field? (bar : Bar) (name : String) : Option Cell := bar.cells.lookup name

/-- `_truthy(bar.get(name)) or _truthy(bar.get("is_" + name))`, for the flag columns
`bar_at` copies. -/
def flag (bar : Bar) (name : String) : Bool :=
  truthy (bar.extra.lookup name) || truthy (bar.extra.lookup ("is_" ++ name))

end Bar

/-- A normalised frame: rows with strictly increasing stamps.
SOURCE: data.py:282-310 -/
structure Frame where
  rows : List Bar
  increasing : rows.Pairwise fun a b => a.time < b.time

namespace Frame

/-- The row stamped `ts` (`index.get_loc`). -/
def rowAt (frame : Frame) (ts : Time) : Option Bar := frame.rows.find? fun row => row.time = ts

/-- `index.searchsorted(cutoff, side="right")`. -/
def endAt (frame : Frame) (cutoff : Time) : ℕ :=
  (frame.rows.takeWhile fun row => row.time ≤ cutoff).length

end Frame

/-- `InstrumentSpec`.
SOURCE: models.py:11-29 -/
structure InstrumentSpec where
  market : String
  symbol : String
  exchangeId : String := ""
  marketType : String := ""

/-- `InstrumentSpec.key`.
SOURCE: models.py:19-29 -/
def InstrumentSpec.key (spec : InstrumentSpec) : String :=
  if lower (strip spec.market) ≠ "crypto" then spec.market ++ ":" ++ spec.symbol
  else
    let suffix :=
      if spec.exchangeId ≠ "" then
        "@" ++ spec.exchangeId ++ (if spec.marketType ≠ "" then ":" ++ spec.marketType else "")
      else if spec.marketType ≠ "" then "@" ++ spec.marketType
      else ""
    spec.market ++ ":" ++ spec.symbol ++ suffix

/-- What `MultiAssetDataPortal.__init__` fixes: the frames by frequency, the aliases
and the instrument parser. The driving frequency has frames, or the constructor raises.
SOURCE: data.py:21-71 -/
structure MarketData where
  drivingFrequency : String
  framesByFrequency : Dict String (Dict Symbol Frame)
  aliases : Dict String Symbol
  parseInstrument : String → Except StrategyError InstrumentSpec
  driving_available : framesByFrequency.contains drivingFrequency = true

namespace MarketData

variable (data : MarketData)

/-- `frames_for_frequency(frequency)`.
SOURCE: data.py:117-122 -/
def framesForFrequency (frequency : Option String) : Except StrategyError (Dict Symbol Frame) :=
  let normalized := normalizeFrequency frequency data.drivingFrequency
  match data.framesByFrequency.get? normalized with
  | some frames => .ok frames
  | none => .error (.data ("strategyV2.frequencyNotSubscribed:" ++ normalized))

/-- `self.frames`: the frames of the driving frequency. -/
def frames : Dict Symbol Frame :=
  (data.framesByFrequency.get? data.drivingFrequency).getD Dict.empty

/-- `resolve_key` once the frames are known: a key, an alias of a key, the key of the
parsed instrument, or the only key with the parsed symbol. Only the keys of the frames
are consulted.
SOURCE: data.py:104-115 -/
def resolveIn (keys : List Symbol) (raw : String) : Except StrategyError Symbol :=
  if raw ∈ keys then .ok raw
  else match (data.aliases.get? raw).filter (· ∈ keys) with
    | some key => .ok key
    | none => match data.parseInstrument raw with
      | .error e => .error e
      | .ok parsed =>
        if parsed.key ∈ keys then .ok parsed.key
        else match keys.filter fun key => beforeFirst '@' (afterFirst ':' key) = parsed.symbol with
          | [key] => .ok key
          | _ => .error (.data ("strategyV2.dataUnavailable:" ++ raw))

/-- `resolve_key(symbol, frequency)`.
SOURCE: data.py:102-115 -/
def resolveKey (symbol : String) (frequency : Option String) : Except StrategyError Symbol :=
  match data.framesForFrequency frequency with
  | .error e => .error e
  | .ok frames => data.resolveIn frames.keys (strip symbol)

/-- `self.frames_by_frequency[frequency][key]`. -/
def frame? (key : Symbol) (frequency : String) : Option Frame :=
  (data.framesByFrequency.get? frequency).bind fun frames => frames.get? key

/-- The rows of one frame, nothing for a key without a frame. -/
def rows (key : Symbol) (frequency : String) : List Bar :=
  ((data.frame? key frequency).map Frame.rows).getD []

/-- The row of the driving frequency stamped `ts`. -/
def rowAt (key : Symbol) (ts : Time) : Option Bar :=
  (data.frames.get? key).bind fun frame => frame.rowAt ts

/-- `self._timestamps`: the stamps of the driving frames, sorted, without repetition.
SOURCE: data.py:68-71 -/
def timestamps : List Time :=
  ((data.frames.values.flatMap fun frame => frame.rows.map Bar.time).dedup).insertionSort (· ≤ ·)

/-- Every price of every row is positive. -/
def Positive : Prop :=
  ∀ frequency key row, row ∈ data.rows key frequency →
    0 < row.openPrice ∧ 0 < row.high ∧ 0 < row.low ∧ 0 < row.closePrice

end MarketData

end QuantDinger.Model
