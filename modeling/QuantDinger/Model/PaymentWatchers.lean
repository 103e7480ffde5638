import QuantDinger.Library.FirstFound
import QuantDinger.Model.UsdtPayment

/-!
# The watchers of the payment service

What the watchers take of the answers they get: the explorer and the log scan of the EVM chains,
the pages of Tron and the signatures of Solana. Each looks at the entries of the answers in order
and takes the first one that fits. A number that the source parses is `none` where it does not
parse. Notes, counters, endpoints and keys are left out.
-/

namespace QuantDinger.Model.UsdtPayment

open QuantDinger.Library

/-- What a watcher is given of an order. -/
structure WatchedOrder where
  address : String
  amount : Amount
  createdAt : Time

/-- `target`.
SOURCE: usdt_payment/watchers/evm.py:240, tron.py:62, solana.py:179 -/
def targetUnits (amount : Amount) (decimals : ℕ) : ℤ := roundHalfEven (amount * 10 ^ decimals)

/-- A value that counts as the target. -/
def CountsAs (target value : ℤ) : Prop := target - 1 ≤ value ∧ value ≤ target + 1

instance (target value : ℤ) : Decidable (CountsAs target value) :=
  inferInstanceAs (Decidable (_ ∧ _))

/-- `min_ts` in seconds.
SOURCE: usdt_payment/watchers/evm.py:242, solana.py:181 -/
def minSeconds (createdAt : Time) : ℤ := Int.tdiv createdAt Live.oneSecond - 60

/-- `min_ts` in milliseconds.
SOURCE: usdt_payment/watchers/tron.py:65 -/
def minMilliseconds (createdAt : Time) : ℤ := Int.tdiv createdAt 1000 - 60000

/-! ## The explorer -/

/-- A row of `tokentx`. -/
structure ExplorerItem where
  toAddr : String
  timeStamp : Option ℤ
  value : Option ℤ
  txHash : String
  deriving DecidableEq

/-- One row.
SOURCE: usdt_payment/watchers/evm.py:277-301 -/
def lookAtItem (order : WatchedOrder) (decimals : ℕ) (item : ExplorerItem) : Look ExplorerItem :=
  if lower item.toAddr ≠ lower order.address then .skip
  else match item.timeStamp with
    | none => .skip
    | some ts =>
      if ts < minSeconds order.createdAt then .skip
      else match item.value with
        | none => .skip
        | some value =>
          if CountsAs (targetUnits order.amount decimals) value then .found item else .skip

/-- `_scan_explorer`, on the rows of the answer; there are none where the call fails.
SOURCE: usdt_payment/watchers/evm.py:215-310 -/
def scanExplorer (order : WatchedOrder) (decimals : ℕ) (items : List ExplorerItem) :
    Option ExplorerItem :=
  firstFound (lookAtItem order decimals) items

/-! ## The log scan -/

/-- The EVM chains. -/
inductive EvmNet
  | bep20
  | erc20
  deriving DecidableEq

/-- `_AVG_BLOCK_TIME_SEC` and `_MAX_BLOCK_LOOKBACK`.
SOURCE: usdt_payment/watchers/evm.py:99-104 -/
def EvmNet.chain (net : EvmNet) (decimals : ℕ) : EvmChain :=
  match net with
  | .bep20 => { avgBlockTime := 3 / 4, maxBlockLookback := 4800, decimals := decimals }
  | .erc20 => { avgBlockTime := 12, maxBlockLookback := 600, decimals := decimals }

/-- A token transfer on a chain. -/
structure TokenTransfer where
  block : ℤ
  toAddr : String
  value : ℤ
  txHash : String
  deriving DecidableEq

/-- The log of a transfer. -/
def TokenTransfer.log (transfer : TokenTransfer) : TransferLog where
  block := transfer.block
  value := transfer.value
  txHash := transfer.txHash

/-- The transfers of the token, as the chain orders them, and the times of its blocks. -/
structure TokenLedger where
  transfers : List TokenTransfer
  blockTime : ℤ → Time

/-- What nodes answer: the logs of the transfers to the address in the range, unless all calls for
the range fail or the answer is no list. -/
def TokenLedger.view (ledger : TokenLedger) (address : String) (blockNumber : Option ℤ)
    (fails : ℤ → ℤ → Bool) : RpcView where
  blockNumber := blockNumber
  getLogs := fun first last =>
    if fails first last then none
    else some ((ledger.transfers.filter fun transfer =>
      first ≤ transfer.block ∧ transfer.block ≤ last ∧ lower transfer.toAddr = lower address).map
        TokenTransfer.log)

/-- `total_lookback` in blocks.
SOURCE: usdt_payment/watchers/evm.py:409-420 -/
def totalLookback (chain : EvmChain) (createdAt now : Time) : ℤ :=
  let secs : ℚ := max 0 (((now - createdAt : ℤ) : ℚ) / Live.oneSecond + 60)
  max chain.maxBlockLookback
    (min (⌊secs / chain.avgBlockTime⌋ + 20) (chain.maxBlockLookback * 4))

/-- `floor_block`.
SOURCE: usdt_payment/watchers/evm.py:421 -/
def floorBlock (chain : EvmChain) (createdAt now : Time) (latest : ℤ) : ℤ :=
  max 0 (latest - totalLookback chain createdAt now)

/-- The windows that are asked for, the last one being that of the match.
SOURCE: usdt_payment/watchers/evm.py:434-492 -/
def requestedWindows (view : RpcView) (target floor chunkSize : ℤ) : ℕ → ℤ → List (ℤ × ℤ)
  | 0, _ => []
  | chunks + 1, last =>
    if last < floor then []
    else
      let start := max floor (last - (chunkSize - 1))
      (start, last) :: match (view.getLogs start last).bind (matchLog target) with
        | some _ => []
        | none => requestedWindows view target floor chunkSize chunks (start - 1)

/-- The logs of the windows, in the order in which they are looked at where nothing matches.
SOURCE: usdt_payment/watchers/evm.py:434-492 -/
def scannedLogs (view : RpcView) (floor chunkSize : ℤ) : ℕ → ℤ → List TransferLog
  | 0, _ => []
  | chunks + 1, last =>
    if last < floor then []
    else
      let start := max floor (last - (chunkSize - 1))
      (view.getLogs start last).getD [] ++ scannedLogs view floor chunkSize chunks (start - 1)

/-- One log.
SOURCE: usdt_payment/watchers/evm.py:461-490 -/
def lookAtLog (target : ℤ) (log : TransferLog) : Look TransferLog :=
  if CountsAs target log.value then .found log else .skip

/-- The log that the scan takes.
SOURCE: usdt_payment/watchers/evm.py:366-502 -/
def rpcMatch (chain : EvmChain) (view : RpcView) (amount : Amount) (createdAt now : Time) :
    Option TransferLog :=
  match view.blockNumber with
  | none => none
  | some latest => firstFound (lookAtLog (targetUnits amount chain.decimals))
      (scannedLogs view (floorBlock chain createdAt now latest) chain.maxBlockLookback 5 latest)

/-! ## Tron -/

/-- A transfer of a page. -/
structure TronItem where
  toAddr : String
  blockTimestamp : Option ℤ
  value : Option ℤ
  transactionId : String
  deriving DecidableEq

/-- A page, with the fingerprint that continues it. -/
structure TronPage where
  items : List TronItem
  fingerprint : Option String

/-- The items of the pages that are asked for, in order, and `none` where a request fails. The
answers are those to successive requests.
SOURCE: usdt_payment/watchers/tron.py:78-130 -/
def tronItems (pageLimit : ℕ) : ℕ → List (Option TronPage) → List (Option TronItem)
  | 0, _ => []
  | _, [] => []
  | _ + 1, none :: _ => [none]
  | pages + 1, some page :: rest =>
    page.items.map some ++
      if page.fingerprint = none ∨ page.items.length < pageLimit then []
      else tronItems pageLimit pages rest

/-- One item.
SOURCE: usdt_payment/watchers/tron.py:99-125 -/
def lookAtTron (order : WatchedOrder) (decimals : ℕ) : Option TronItem → Look TronItem
  | none => .stop
  | some item =>
    if strip item.toAddr ≠ strip order.address then .skip
    else match item.blockTimestamp with
      | none => .skip
      | some bts =>
        if minMilliseconds order.createdAt ≠ 0 ∧ bts < minMilliseconds order.createdAt then .skip
        else match item.value with
          | none => .skip
          | some value =>
            if CountsAs (targetUnits order.amount decimals) value then .found item else .skip

/-- `find_incoming` of the Tron watcher.
SOURCE: usdt_payment/watchers/tron.py:44-138 -/
def findTron (order : WatchedOrder) (decimals pageLimit maxPages : ℕ)
    (answers : List (Option TronPage)) : Option TronItem :=
  if strip order.address = "" ∨ order.amount ≤ 0 then none
  else firstFound (lookAtTron order decimals) (tronItems pageLimit maxPages answers)

/-! ## Solana -/

/-- A token balance of a transaction. -/
structure TokenBalance where
  accountIndex : Option ℤ
  mint : String
  amount : Option ℤ
  deriving DecidableEq

/-- A transaction, with its keys in the order of `_extract_account_keys`. -/
structure SolanaTransaction where
  failed : Bool := false
  accountKeys : List String
  preTokenBalances : List TokenBalance
  postTokenBalances : List TokenBalance
  deriving DecidableEq

/-- What `getTransaction` comes to. -/
inductive TransactionAnswer
  | requestError
  | malformed
  | answered (transaction : SolanaTransaction)
  deriving DecidableEq

/-- A signature of the watched account, with the block time the node reports and the one the block
has, in seconds. -/
structure SignatureEntry where
  signature : String
  blockTime : Option ℤ
  minedAt : ℤ
  transaction : TransactionAnswer
  reported : ∀ t ∈ blockTime, t = minedAt

/-- `amount_at`.
SOURCE: usdt_payment/watchers/solana.py:155-165 -/
def amountAt (balances : List TokenBalance) (mint : String) (index : ℕ) : ℤ :=
  ((balances.filter fun entry =>
    entry.accountIndex = some (index : ℤ) ∧ strip entry.mint = mint).findSome?
      TokenBalance.amount).getD 0

/-- `_delta_for_watched_account`.
SOURCE: usdt_payment/watchers/solana.py:143-168 -/
def deltaForWatchedAccount (transaction : SolanaTransaction) (mint : String) (index : ℕ) : ℤ :=
  amountAt transaction.postTokenBalances mint index -
    amountAt transaction.preTokenBalances mint index

/-- The transfer that the Solana watcher takes. -/
structure SolanaMatch where
  entry : SignatureEntry
  account : String
  delta : ℤ

/-- One signature.
SOURCE: usdt_payment/watchers/solana.py:223-273 -/
def lookAtSignature (order : WatchedOrder) (decimals : ℕ) (mint watchAddr : String)
    (entry : SignatureEntry) : Look SolanaMatch :=
  let blockTime := entry.blockTime.getD 0
  if entry.signature = "" then .skip
  else if blockTime ≠ 0 ∧ blockTime < minSeconds order.createdAt then .skip
  else match entry.transaction with
    | .requestError => .stop
    | .malformed => .skip
    | .answered transaction =>
      if transaction.failed then .skip
      else match transaction.accountKeys.findIdx? (· = watchAddr) with
        | none => .skip
        | some index =>
          let delta := deltaForWatchedAccount transaction mint index
          if CountsAs (targetUnits order.amount decimals) delta then
            .found { entry := entry, account := watchAddr, delta := delta }
          else .skip

/-- `find_incoming` of the Solana watcher, with the token account of the wallet where there is one.
SOURCE: usdt_payment/watchers/solana.py:171-283 -/
def findSolana (order : WatchedOrder) (decimals : ℕ) (mint : String) (ata : Option String)
    (signatures : List SignatureEntry) : Option SolanaMatch :=
  if strip order.address = "" ∨ order.amount ≤ 0 then none
  else firstFound (lookAtSignature order decimals mint (ata.getD (strip order.address))) signatures

end QuantDinger.Model.UsdtPayment
