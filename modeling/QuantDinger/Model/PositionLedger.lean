import QuantDinger.Model.OrderExecution

/-!
# The position ledger and the size of a close

The rows of `qd_strategy_positions`, the lookups the live layer makes in them (by symbol
alias for one strategy, and by account leg over all strategies) and
`resolve_reduce_only_quantity`, which sizes a close from them and from the exchange
position. What the exchange answers is an argument.
-/

namespace QuantDinger.Model.Live

/-! ## Symbols -/

/-- `str.replace(c, "")`. -/
def removeChar (c : Char) (s : String) : String := String.ofList (s.toList.filter (· ≠ c))

/-- The symbol without a settlement suffix: what follows the first `/` is cut at a `:` that
no `@` precedes.
SOURCE: records.py:39-45 -/
def withoutSettlement (s : String) : String :=
  let base := s.toList.takeWhile (· ≠ '/')
  let rest := (s.toList.dropWhile (· ≠ '/')).drop 1
  let quote := rest.takeWhile fun c => c ≠ ':' ∧ c ≠ '@'
  match rest.drop quote.length with
  | ':' :: _ => String.ofList (base ++ '/' :: quote)
  | _ => s

/-- The quote currencies a compact symbol may end in, in the order they are tried. -/
def quoteSuffixes : List String := ["USDT", "USDC", "USD", "BUSD", "EUR"]

/-- `normalize_strategy_symbol`.
SOURCE: records.py:29-49 -/
def normalizeStrategySymbol (symbol : String) : String :=
  let s := removeChar '-' (upper (strip symbol))
  if s = "" then ""
  else if '/' ∈ s.toList then withoutSettlement s
  else match quoteSuffixes.find? fun quote => endsWith s quote ∧ quote.length < s.length with
    | some quote => truncate (s.length - quote.length) s ++ "/" ++ quote
    | none => s

/-- `_position_symbol_candidates`.
SOURCE: records.py:52-64 -/
def positionSymbolCandidates (symbol : String) : List String :=
  let raw := strip symbol
  if raw = "" then []
  else
    let norm := normalizeStrategySymbol raw
    ([raw, upper raw, norm, removeChar '/' norm,
      removeChar '-' (removeChar '/' (upper raw))].filter (· ≠ "")).dedup

/-! ## The ledger -/

/-- `side` of a position row. -/
inductive PositionSide
  | long
  | short
  deriving DecidableEq

/-- A row of `qd_strategy_positions`. -/
structure PositionRow where
  strategyId : ℕ
  symbol : String
  symbolCanonical : String := ""
  side : PositionSide
  size : Amount
  marketType : String := "swap"
  credentialId : ℕ := 0
  deriving DecidableEq

/-- The symbol a row is filed under. -/
def PositionRow.canonical (row : PositionRow) : String :=
  normalizeStrategySymbol (textOrElse row.symbolCanonical row.symbol)

/-- What the joined row of `qd_strategies_trading` says about a strategy: its mode is live,
and the credential its exchange configuration names (as text, empty when it names none). -/
structure StrategyRow where
  live : Bool
  credential : String := ""
  deriving DecidableEq

/-- The ledger: the position rows, and the strategies they are joined with. -/
structure PositionLedger where
  positions : List PositionRow
  strategies : ℕ → Option StrategyRow

/-- `mt` of a market type: the futures aliases are swaps.
SOURCE: records.py:87-89 -/
def normalizeMarketType (marketType : String) : String :=
  let mt := lower (strip (textOrElse marketType "swap"))
  if mt ∈ ["futures", "future", "perp", "perpetual"] then "swap" else mt

namespace PositionLedger

variable (ledger : PositionLedger)

/-- `_fetch_position`. `(strategy_id, symbol, side)` is unique in the table.
SOURCE: records.py:618-627 -/
def fetchPosition (strategyId : ℕ) (symbol : String) (side : PositionSide) : Option PositionRow :=
  ledger.positions.find? fun row =>
    row.strategyId = strategyId ∧ row.symbol = symbol ∧ row.side = side

/-- `_fetch_position_fuzzy`: the row of the first alias that holds something.
SOURCE: records.py:171-183 -/
def fetchPositionFuzzy (strategyId : ℕ) (symbol : String) (side : PositionSide) :
    Option PositionRow :=
  (positionSymbolCandidates symbol).findSome? fun candidate =>
    (ledger.fetchPosition strategyId candidate side).filter fun row => 0 < row.size

/-- `fetch_position_size_for_side`.
SOURCE: records.py:67-75 -/
def fetchPositionSizeForSide (strategyId : ℕ) (symbol : String) (side : PositionSide) : Amount :=
  match ledger.fetchPositionFuzzy strategyId symbol side with
  | none => 0
  | some row => max 0 row.size

/-- The credential a row is counted under: its own, or that of its strategy's configuration
where it has none. -/
def rowCredential (row : PositionRow) (credentialId : ℕ) : Prop :=
  row.credentialId = credentialId ∨
    (row.credentialId = 0 ∧
      (ledger.strategies row.strategyId).map StrategyRow.credential = some (toString credentialId))

instance (row : PositionRow) (credentialId : ℕ) : Decidable (ledger.rowCredential row credentialId) :=
  inferInstanceAs (Decidable (_ ∨ _))

/-- The `clauses` on strategy and credential.
SOURCE: records.py:95-117 -/
def allocationClause (strategyId credentialId : ℕ) (row : PositionRow) : Prop :=
  if 0 < credentialId ∧ 0 < strategyId then
    row.strategyId = strategyId ∨ ledger.rowCredential row credentialId
  else if 0 < credentialId then ledger.rowCredential row credentialId
  else 0 < strategyId ∧ row.strategyId = strategyId

instance (strategyId credentialId : ℕ) (row : PositionRow) :
    Decidable (ledger.allocationClause strategyId credentialId row) := by
  unfold allocationClause
  infer_instance

/-- The rows `fetch_allocated_position_size` adds up.
SOURCE: records.py:94-140 -/
def Allocated (strategyId credentialId : ℕ) (marketType symbol : String) (side : PositionSide)
    (row : PositionRow) : Prop :=
  row.side = side ∧ row.marketType = normalizeMarketType marketType ∧ 0 < row.size ∧
    ledger.allocationClause strategyId credentialId row ∧
    (ledger.strategies row.strategyId).map StrategyRow.live = some true ∧
    row.canonical = normalizeStrategySymbol symbol

instance (strategyId credentialId : ℕ) (marketType symbol : String) (side : PositionSide)
    (row : PositionRow) :
    Decidable (ledger.Allocated strategyId credentialId marketType symbol side row) :=
  inferInstanceAs (Decidable (_ ∧ _))

/-- `fetch_allocated_position_size`.
SOURCE: records.py:78-144 -/
def fetchAllocatedPositionSize (strategyId credentialId : ℕ) (marketType symbol : String)
    (side : PositionSide) : Amount :=
  ((ledger.positions.filter fun row =>
    ledger.Allocated strategyId credentialId marketType symbol side row).map
      fun row => max 0 row.size).sum

end PositionLedger

/-! ## Sizing a close -/

/-- The cap that set the amount last. -/
inductive CloseCap
  | db
  | exchange
  | accountAllocation
  deriving DecidableEq

/-- Where an amount that was not requested came from. -/
inductive AmountSource
  | db
  | exchange
  | none
  deriving DecidableEq

/-- `meta` of `resolve_reduce_only_quantity`. -/
structure ReduceOnlyMeta where
  requested : Amount
  dbSize : Amount
  dbMissing : Bool := false
  blocked : Bool := false
  filledFrom : Option AmountSource := none
  cappedBy : Option CloseCap := none
  exchangeSize : Amount := 0
  accountAllocatedSize : Amount := 0
  otherStrategyAllocatedSize : Amount := 0
  exchangeStrategyAvailable : Amount := 0
  resolved : Amount := 0
  deriving DecidableEq

/-- The amount against the strategy's own ledger row.
SOURCE: position_query.py:271-285 -/
def sizeByLedger (requested dbSize : Amount) (allowExchangeFallback : Bool) :
    Amount × ReduceOnlyMeta :=
  let amount := max 0 requested
  let details : ReduceOnlyMeta := { requested := amount, dbSize := dbSize }
  if 0 < dbSize then
    if amount ≤ 0 then (dbSize, { details with filledFrom := some .db })
    else if dbSize < amount then (dbSize, { details with cappedBy := some .db })
    else (amount, details)
  else if allowExchangeFallback then (amount, { details with dbMissing := true })
  else (0, { details with dbMissing := true, blocked := true })

/-- The amount against the whole exchange position.
SOURCE: position_query.py:287-320 -/
def sizeByExchange (amount exchangeSize : Amount) (details : ReduceOnlyMeta)
    (allowExchangeFallback : Bool) : Amount × ReduceOnlyMeta :=
  let details := { details with exchangeSize := exchangeSize }
  if 0 < exchangeSize then
    if amount ≤ 0 ∧ allowExchangeFallback = true then
      (exchangeSize, { details with filledFrom := some .exchange })
    else if exchangeSize < amount then (exchangeSize, { details with cappedBy := some .exchange })
    else (amount, details)
  else if amount ≤ 0 then (amount, { details with filledFrom := some .none })
  else (amount, details)

/-- The amount against what the other strategies of the account leg leave.
SOURCE: position_query.py:325-341 -/
def sizeByAllocation (amount allocated : Amount) (details : ReduceOnlyMeta) :
    Amount × ReduceOnlyMeta :=
  let other := max 0 (allocated - details.dbSize)
  let available := max 0 (details.exchangeSize - other)
  let details := { details with
    accountAllocatedSize := allocated
    otherStrategyAllocatedSize := other
    exchangeStrategyAvailable := available }
  if available < amount then
    (available, { details with cappedBy := some .accountAllocation, resolved := available })
  else (amount, { details with resolved := amount })

/-- What a caller asks to close. -/
structure ReduceOnlyRequest where
  strategyId : ℕ
  symbol : String
  side : PositionSide
  requestedAmount : Amount
  marketType : String
  credentialId : ℕ
  deriving DecidableEq

/-- `resolve_reduce_only_quantity`; `exchangeSize` is the answer of
`query_exchange_position_size`.
SOURCE: position_query.py:240-342 -/
def PositionLedger.resolveReduceOnlyQuantity (ledger : PositionLedger) (exchangeSize : Amount)
    (request : ReduceOnlyRequest) (allowExchangeFallback : Bool) : Amount × ReduceOnlyMeta :=
  let dbSize := ledger.fetchPositionSizeForSide request.strategyId request.symbol request.side
  let byLedger := sizeByLedger request.requestedAmount dbSize allowExchangeFallback
  let byExchange := sizeByExchange byLedger.1 exchangeSize byLedger.2 allowExchangeFallback
  let allocated := if 0 < request.credentialId then
      ledger.fetchAllocatedPositionSize request.strategyId request.credentialId
        request.marketType request.symbol request.side
    else dbSize
  sizeByAllocation byExchange.1 allocated byExchange.2

end QuantDinger.Model.Live
