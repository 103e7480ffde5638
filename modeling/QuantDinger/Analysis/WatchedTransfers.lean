import QuantDinger.Model.PaymentWatchers

/-!
# What the watchers take for a payment

All watchers take transfers to the order's address only. The explorer and the Tron watcher compare
the block time with the order, up to the part of a second or millisecond that the truncation of its
creation drops. The log scan has no block time to compare, and the Solana watcher lets a transfer
pass whose block time is not known, so each takes an old transfer that comes first. The windows of
the log scan are disjoint, bounded, and cover the blocks from the floor to the latest one.
-/

namespace QuantDinger.Analysis

open QuantDinger.Library QuantDinger.Model QuantDinger.Model.UsdtPayment

/-! ## Transfers made for an order -/

/-- The transfer is within one smallest unit of the amount, and not older than the order less a
minute. -/
structure MadeFor (order : WatchedOrder) (decimals : ℕ) (value : ℤ) (minedAt : Time) : Prop where
  amount : |(value : Amount) - order.amount * 10 ^ decimals| ≤ 1
  recent : order.createdAt - 60 * Live.oneSecond ≤ minedAt

/-- A row of the explorer that is made for the order. -/
def ItemMadeFor (order : WatchedOrder) (decimals : ℕ) (item : ExplorerItem) : Prop :=
  ∃ ts ∈ item.timeStamp, ∃ value ∈ item.value, MadeFor order decimals value (ts * Live.oneSecond)

def LogMadeFor (ledger : TokenLedger) (order : WatchedOrder) (decimals : ℕ) (log : TransferLog) :
    Prop :=
  MadeFor order decimals log.value (ledger.blockTime log.block)

/-- A transfer on Tron that is made for the order. -/
def TronMadeFor (order : WatchedOrder) (decimals : ℕ) (item : TronItem) : Prop :=
  ∃ bts ∈ item.blockTimestamp, ∃ value ∈ item.value, MadeFor order decimals value (bts * 1000)

/-- A change of a token account that is made for the order. -/
def SolanaMadeFor (order : WatchedOrder) (decimals : ℕ) (m : SolanaMatch) : Prop :=
  MadeFor order decimals m.delta (m.entry.minedAt * Live.oneSecond)

/-- What the explorer scan takes goes to the address of the order and is made for it. -/
def ExplorerSound (order : WatchedOrder) (decimals : ℕ) (items : List ExplorerItem) : Prop :=
  ∀ item ∈ scanExplorer order decimals items,
    lower item.toAddr = lower order.address ∧ ItemMadeFor order decimals item

/-- What the log scan takes is the log of a transfer to the address of the order, and is made for
it. -/
def RpcSound (chain : EvmChain) (ledger : TokenLedger) (blockNumber : Option ℤ)
    (fails : ℤ → ℤ → Bool) (order : WatchedOrder) (now : Time) : Prop :=
  ∀ log ∈ rpcMatch chain (ledger.view order.address blockNumber fails) order.amount
      order.createdAt now,
    (∃ transfer ∈ ledger.transfers, transfer.log = log ∧
      lower transfer.toAddr = lower order.address) ∧
    LogMadeFor ledger order chain.decimals log

/-- What the Tron watcher takes goes to the address of the order and is made for it. -/
def TronSound (order : WatchedOrder) (decimals pageLimit maxPages : ℕ)
    (answers : List (Option TronPage)) : Prop :=
  ∀ item ∈ findTron order decimals pageLimit maxPages answers,
    strip item.toAddr = strip order.address ∧ TronMadeFor order decimals item

/-- What the Solana watcher takes is what a transaction changes on the token account of the order,
and is made for it. -/
def SolanaSound (order : WatchedOrder) (decimals : ℕ) (mint : String) (ata : Option String)
    (signatures : List SignatureEntry) : Prop :=
  ∀ m ∈ findSolana order decimals mint ata signatures,
    (∃ transaction index, m.entry.transaction = .answered transaction ∧
      transaction.accountKeys[index]? = some (ata.getD (strip order.address)) ∧
      m.delta = deltaForWatchedAccount transaction mint index) ∧
    SolanaMadeFor order decimals m

/-- The requested windows, newest first: disjoint, bounded and inside the range; all of the range
where nothing matches; and no more of them however long the loop may run. -/
structure WindowsExact (chain : EvmChain) (view : RpcView) (amount : Amount) (createdAt now : Time)
    (latest : ℤ) : Prop where
  disjoint : (requestedWindows view (targetUnits amount chain.decimals)
    (floorBlock chain createdAt now latest) chain.maxBlockLookback 5 latest).Pairwise
      fun newer older => older.2 < newer.1
  bounded : ∀ window ∈ requestedWindows view (targetUnits amount chain.decimals)
    (floorBlock chain createdAt now latest) chain.maxBlockLookback 5 latest,
      window.1 ≤ window.2 ∧ window.2 - window.1 + 1 ≤ chain.maxBlockLookback ∧
        floorBlock chain createdAt now latest ≤ window.1 ∧ window.2 ≤ latest
  covered : scanRpc chain view amount createdAt now = none →
    ∀ block, floorBlock chain createdAt now latest ≤ block → block ≤ latest →
      ∃ window ∈ requestedWindows view (targetUnits amount chain.decimals)
        (floorBlock chain createdAt now latest) chain.maxBlockLookback 5 latest,
          window.1 ≤ block ∧ block ≤ window.2
  ends : ∀ chunks, requestedWindows view (targetUnits amount chain.decimals)
      (floorBlock chain createdAt now latest) chain.maxBlockLookback (5 + chunks) latest =
    requestedWindows view (targetUnits amount chain.decimals)
      (floorBlock chain createdAt now latest) chain.maxBlockLookback 5 latest

/-! ## The windows of the log scan -/

section Windows

variable (view : RpcView) (target floor : ℤ) {chunkSize : ℤ}

theorem window_start {last : ℤ} (hchunk : 0 < chunkSize) (hlast : floor ≤ last) :
    floor ≤ max floor (last - (chunkSize - 1)) ∧ max floor (last - (chunkSize - 1)) ≤ last ∧
      last - max floor (last - (chunkSize - 1)) + 1 ≤ chunkSize := by
  omega

theorem requestedWindows_bounded (hchunk : 0 < chunkSize) (chunks : ℕ) (last : ℤ) :
    ∀ window ∈ requestedWindows view target floor chunkSize chunks last,
      window.1 ≤ window.2 ∧ window.2 - window.1 + 1 ≤ chunkSize ∧ floor ≤ window.1 ∧
        window.2 ≤ last := by
  induction chunks generalizing last with
  | zero => exact fun _ h => absurd h List.not_mem_nil
  | succ chunks ih =>
    intro window hm
    unfold requestedWindows at hm
    split at hm
    · exact absurd hm List.not_mem_nil
    · rename_i hlast
      obtain ⟨hfloor, hle, hlen⟩ := window_start floor hchunk (not_lt.mp hlast)
      rcases List.mem_cons.mp hm with rfl | hm
      · exact ⟨hle, hlen, hfloor, le_refl last⟩
      · split at hm
        · exact absurd hm List.not_mem_nil
        · obtain ⟨h₁, h₂, h₃, h₄⟩ := ih _ window hm
          exact ⟨h₁, h₂, h₃, h₄.trans (by omega)⟩

theorem requestedWindows_disjoint (hchunk : 0 < chunkSize) (chunks : ℕ) (last : ℤ) :
    (requestedWindows view target floor chunkSize chunks last).Pairwise
      fun newer older => older.2 < newer.1 := by
  induction chunks generalizing last with
  | zero => exact List.Pairwise.nil
  | succ chunks ih =>
    unfold requestedWindows
    split
    · exact List.Pairwise.nil
    · refine List.pairwise_cons.mpr ⟨?_, ?_⟩
      · intro window hm
        split at hm
        · exact absurd hm List.not_mem_nil
        · have hbelow := (requestedWindows_bounded view target floor hchunk _ _ window hm).2.2.2
          exact Int.lt_of_le_sub_one hbelow
      · split
        · exact List.Pairwise.nil
        · exact ih _

theorem chunks_below {chunks : ℕ} {last : ℤ} (hchunk : 0 < chunkSize)
    (henough : last + 1 - floor ≤ (chunks + 1 : ℕ) * chunkSize) :
    max floor (last - (chunkSize - 1)) - 1 + 1 - floor ≤ chunks * chunkSize := by
  have hnonneg : 0 ≤ (chunks : ℤ) * chunkSize := by positivity
  have hsucc : ((chunks + 1 : ℕ) : ℤ) * chunkSize = chunks * chunkSize + chunkSize := by
    push_cast
    ring
  omega

theorem requestedWindows_covered (hchunk : 0 < chunkSize) (chunks : ℕ) (last : ℤ)
    (henough : last + 1 - floor ≤ chunks * chunkSize)
    (hnone : scanChunks view target floor chunkSize chunks last = none) (block : ℤ)
    (hfloor : floor ≤ block) (hblock : block ≤ last) :
    ∃ window ∈ requestedWindows view target floor chunkSize chunks last,
      window.1 ≤ block ∧ block ≤ window.2 := by
  induction chunks generalizing last with
  | zero =>
    rw [Nat.cast_zero, zero_mul] at henough
    omega
  | succ chunks ih =>
    have hlast : ¬ last < floor := by omega
    unfold scanChunks at hnone
    unfold requestedWindows
    rw [if_neg hlast] at hnone ⊢
    dsimp only at hnone ⊢
    by_cases hnew : max floor (last - (chunkSize - 1)) ≤ block
    · exact ⟨_, List.mem_cons_self, hnew, hblock⟩
    · have hmore := ih _ (chunks_below floor hchunk henough)
      cases hlogs : view.getLogs (max floor (last - (chunkSize - 1))) last with
      | none =>
        rw [hlogs] at hnone
        obtain ⟨window, hm, hin⟩ := hmore hnone (by omega)
        exact ⟨window, List.mem_cons_of_mem _ hm, hin⟩
      | some logs =>
        rw [hlogs] at hnone
        dsimp only at hnone
        cases hmatch : matchLog target logs with
        | none =>
          rw [hmatch] at hnone
          obtain ⟨window, hm, hin⟩ := hmore hnone (by omega)
          refine ⟨window, List.mem_cons_of_mem _ ?_, hin⟩
          rw [Option.bind_some, hmatch]
          exact hm
        | some transfer =>
          rw [hmatch] at hnone
          exact nomatch hnone

theorem requestedWindows_ends (hchunk : 0 < chunkSize) (chunks more : ℕ) (last : ℤ)
    (henough : last + 1 - floor ≤ chunks * chunkSize) :
    requestedWindows view target floor chunkSize (chunks + more) last =
      requestedWindows view target floor chunkSize chunks last := by
  induction chunks generalizing last with
  | zero =>
    rw [Nat.cast_zero, zero_mul] at henough
    have hlast : last < floor := by omega
    cases more with
    | zero => rfl
    | succ more =>
      rw [Nat.zero_add]
      unfold requestedWindows
      rw [if_pos hlast]
  | succ chunks ih =>
    rw [Nat.succ_add]
    unfold requestedWindows
    by_cases hlast : last < floor
    · rw [if_pos hlast, if_pos hlast]
    · rw [if_neg hlast, if_neg hlast]
      dsimp only
      rw [ih _ (chunks_below floor hchunk henough)]

end Windows

theorem five_chunks (chain : EvmChain) (hchunk : 0 < chain.maxBlockLookback)
    (createdAt now : Time) (latest : ℤ) :
    latest + 1 - floorBlock chain createdAt now latest ≤ (5 : ℕ) * chain.maxBlockLookback := by
  have hmax : totalLookback chain createdAt now ≤ chain.maxBlockLookback * 4 := by
    unfold totalLookback
    exact max_le (by linarith) (min_le_right _ _)
  unfold floorBlock
  push_cast
  omega

theorem windows_exact (chain : EvmChain) (hchunk : 0 < chain.maxBlockLookback) (view : RpcView)
    (amount : Amount) (createdAt now : Time) {latest : ℤ}
    (hlatest : view.blockNumber = some latest) :
    WindowsExact chain view amount createdAt now latest := by
  have henough := five_chunks chain hchunk createdAt now latest
  refine ⟨requestedWindows_disjoint _ _ _ hchunk _ _, requestedWindows_bounded _ _ _ hchunk _ _, ?_,
    fun more => requestedWindows_ends _ _ _ hchunk 5 more latest henough⟩
  intro hnone
  unfold scanRpc at hnone
  rw [hlatest] at hnone
  exact requestedWindows_covered _ _ _ hchunk 5 latest henough hnone

/-! ## The log that the scan takes -/

theorem firstFound_logs (target : ℤ) (logs : List TransferLog) :
    matchLog target logs = (firstFound (lookAtLog target) logs).map fun log =>
      { txHash := log.txHash, value := log.value } := by
  unfold matchLog
  congr 1
  induction logs with
  | nil => rfl
  | cons log rest ih =>
    unfold firstFound
    by_cases hcounts : CountsAs target log.value
    · have hlook : lookAtLog target log = .found log := if_pos hcounts
      rw [hlook]
      exact List.find?_cons_of_pos (decide_eq_true hcounts)
    · have hlook : lookAtLog target log = .skip := if_neg hcounts
      rw [hlook]
      refine (List.find?_cons_of_neg ?_).trans ih
      simpa [CountsAs] using hcounts

theorem lookAtLog_ne_stop (target : ℤ) (log : TransferLog) : lookAtLog target log ≠ .stop := by
  unfold lookAtLog
  split
  · exact fun h => nomatch h
  · exact fun h => nomatch h

theorem scanChunks_eq (view : RpcView) (target floor chunkSize : ℤ) (chunks : ℕ) (last : ℤ) :
    scanChunks view target floor chunkSize chunks last =
      (firstFound (lookAtLog target) (scannedLogs view floor chunkSize chunks last)).map fun log =>
        { txHash := log.txHash, value := log.value } := by
  induction chunks generalizing last with
  | zero => rfl
  | succ chunks ih =>
    unfold scanChunks scannedLogs
    by_cases hlast : last < floor
    · rw [if_pos hlast, if_pos hlast]
      rfl
    · rw [if_neg hlast, if_neg hlast]
      dsimp only
      cases view.getLogs (max floor (last - (chunkSize - 1))) last with
      | none => exact ih _
      | some logs =>
        rw [Option.getD_some, firstFound_append _ fun log _ => lookAtLog_ne_stop target log]
        dsimp only
        rw [firstFound_logs, ih]
        cases firstFound (lookAtLog target) logs <;> rfl

theorem scanRpc_eq (chain : EvmChain) (view : RpcView) (amount : Amount) (createdAt now : Time) :
    scanRpc chain view amount createdAt now =
      (rpcMatch chain view amount createdAt now).map fun log =>
        { txHash := log.txHash, value := log.value } := by
  unfold scanRpc rpcMatch
  cases view.blockNumber with
  | none => rfl
  | some latest => exact scanChunks_eq _ _ _ _ _ _

/-! ## Strays -/

section Strays

variable {order : WatchedOrder} {decimals : ℕ}

theorem lookAtItem_address {item result : ExplorerItem}
    (h : lookAtItem order decimals item = .found result) :
    lower result.toAddr = lower order.address := by
  unfold lookAtItem at h
  split at h
  · exact nomatch h
  · rename_i haddress
    split at h
    · exact nomatch h
    · split at h
      · exact nomatch h
      · split at h
        · exact nomatch h
        · split at h
          · cases h
            exact not_not.mp haddress
          · exact nomatch h

theorem explorerSound_iff (items : List ExplorerItem) : ExplorerSound order decimals items ↔
    StraysBehind (lookAtItem order decimals) (ItemMadeFor order decimals) items := by
  rw [← firstFound_good_iff]
  constructor
  · exact fun h item hm => (h item hm).2
  · intro h item hm
    obtain ⟨entry, -, hfound⟩ := exists_of_firstFound hm
    exact ⟨lookAtItem_address hfound, h item hm⟩

theorem mem_scannedLogs {view : RpcView} {floor chunkSize last : ℤ} {chunks : ℕ}
    {log : TransferLog} (h : log ∈ scannedLogs view floor chunkSize chunks last) :
    ∃ first last logs, view.getLogs first last = some logs ∧ log ∈ logs := by
  induction chunks generalizing last with
  | zero => exact absurd h List.not_mem_nil
  | succ chunks ih =>
    unfold scannedLogs at h
    split at h
    · exact absurd h List.not_mem_nil
    · rcases List.mem_append.mp h with h | h
      · cases hlogs : view.getLogs (max floor (last - (chunkSize - 1))) last with
        | none =>
          rw [hlogs] at h
          exact absurd h List.not_mem_nil
        | some logs =>
          rw [hlogs] at h
          exact ⟨_, _, logs, hlogs, h⟩
      · exact ih h

theorem exists_transfer_of_logs {ledger : TokenLedger} {address : String}
    {blockNumber : Option ℤ} {fails : ℤ → ℤ → Bool} {first last : ℤ} {logs : List TransferLog}
    {log : TransferLog}
    (hlogs : (ledger.view address blockNumber fails).getLogs first last = some logs)
    (hm : log ∈ logs) :
    ∃ transfer ∈ ledger.transfers, transfer.log = log ∧ lower transfer.toAddr = lower address := by
  unfold TokenLedger.view at hlogs
  dsimp only at hlogs
  split at hlogs
  · exact nomatch hlogs
  · cases hlogs
    obtain ⟨transfer, htransfer, rfl⟩ := List.mem_map.mp hm
    obtain ⟨hmem, hkept⟩ := List.mem_filter.mp htransfer
    exact ⟨transfer, hmem, rfl, (of_decide_eq_true hkept).2.2⟩

theorem rpcSound_iff (order : WatchedOrder) (chain : EvmChain) (ledger : TokenLedger)
    (blockNumber : Option ℤ) (fails : ℤ → ℤ → Bool) (now : Time) :
    RpcSound chain ledger blockNumber fails order now ↔ ∀ latest ∈ blockNumber,
      StraysBehind (lookAtLog (targetUnits order.amount chain.decimals))
        (LogMadeFor ledger order chain.decimals)
        (scannedLogs (ledger.view order.address blockNumber fails)
          (floorBlock chain order.createdAt now latest) chain.maxBlockLookback 5 latest) := by
  unfold RpcSound rpcMatch
  cases blockNumber with
  | none => exact iff_of_true (fun _ h => nomatch h) (fun _ h => nomatch h)
  | some latest =>
    simp only [Option.mem_some_iff, forall_eq']
    rw [← firstFound_good_iff]
    constructor
    · exact fun h log hm => (h log hm).2
    · intro h log hm
      refine ⟨?_, h log hm⟩
      obtain ⟨entry, hentry, hfound⟩ := exists_of_firstFound hm
      have hsame : entry = log := by
        unfold lookAtLog at hfound
        split at hfound
        · cases hfound
          rfl
        · exact nomatch hfound
      subst hsame
      obtain ⟨_, _, logs, hlogs, hmem⟩ := mem_scannedLogs hentry
      exact exists_transfer_of_logs hlogs hmem

theorem lookAtTron_address {entry : Option TronItem} {result : TronItem}
    (h : lookAtTron order decimals entry = .found result) :
    strip result.toAddr = strip order.address := by
  unfold lookAtTron at h
  split at h
  · exact nomatch h
  · split at h
    · exact nomatch h
    · rename_i haddress
      split at h
      · exact nomatch h
      · split at h
        · exact nomatch h
        · split at h
          · exact nomatch h
          · split at h
            · cases h
              exact not_not.mp haddress
            · exact nomatch h

theorem tronSound_iff (pageLimit maxPages : ℕ) (answers : List (Option TronPage)) :
    TronSound order decimals pageLimit maxPages answers ↔
      (strip order.address = "" ∨ order.amount ≤ 0) ∨
        StraysBehind (lookAtTron order decimals) (TronMadeFor order decimals)
          (tronItems pageLimit maxPages answers) := by
  unfold TronSound findTron
  by_cases hargs : strip order.address = "" ∨ order.amount ≤ 0
  · rw [if_pos hargs]
    exact iff_of_true (fun _ h => nomatch h) (Or.inl hargs)
  · rw [if_neg hargs, or_iff_right hargs, ← firstFound_good_iff]
    constructor
    · exact fun h item hm => (h item hm).2
    · intro h item hm
      obtain ⟨entry, -, hfound⟩ := exists_of_firstFound hm
      exact ⟨lookAtTron_address hfound, h item hm⟩

theorem lookAtSignature_account {mint watchAddr : String} {entry : SignatureEntry}
    {m : SolanaMatch} (h : lookAtSignature order decimals mint watchAddr entry = .found m) :
    ∃ transaction index, m.entry.transaction = .answered transaction ∧
      transaction.accountKeys[index]? = some watchAddr ∧
      m.delta = deltaForWatchedAccount transaction mint index := by
  unfold lookAtSignature at h
  dsimp only at h
  split at h
  · exact nomatch h
  · split at h
    · exact nomatch h
    · split at h
      · exact nomatch h
      · exact nomatch h
      · rename_i transaction htransaction
        split at h
        · exact nomatch h
        · split at h
          · exact nomatch h
          · rename_i index hindex
            split at h
            · cases h
              refine ⟨transaction, index, htransaction, ?_, rfl⟩
              obtain ⟨hlt, hkey, -⟩ := List.findIdx?_eq_some_iff_getElem.mp hindex
              rw [List.getElem?_eq_getElem hlt]
              exact congrArg some (of_decide_eq_true hkey)
            · exact nomatch h

theorem solanaSound_iff (mint : String) (ata : Option String) (signatures : List SignatureEntry) :
    SolanaSound order decimals mint ata signatures ↔
      (strip order.address = "" ∨ order.amount ≤ 0) ∨
        StraysBehind (lookAtSignature order decimals mint (ata.getD (strip order.address)))
          (SolanaMadeFor order decimals) signatures := by
  unfold SolanaSound findSolana
  by_cases hargs : strip order.address = "" ∨ order.amount ≤ 0
  · rw [if_pos hargs]
    exact iff_of_true (fun _ h => nomatch h) (Or.inl hargs)
  · rw [if_neg hargs, or_iff_right hargs, ← firstFound_good_iff]
    constructor
    · exact fun h m hm => (h m hm).2
    · intro h m hm
      obtain ⟨entry, -, hfound⟩ := exists_of_firstFound hm
      exact ⟨lookAtSignature_account hfound, h m hm⟩

end Strays

/-! ## All watchers -/

/-- The answers that the watchers get while they look for the payment of an order. -/
structure WatcherAnswers where
  items : List ExplorerItem
  blockNumber : Option ℤ
  fails : ℤ → ℤ → Bool
  pageLimit : ℕ
  maxPages : ℕ
  pages : List (Option TronPage)
  mint : String
  ata : Option String
  signatures : List SignatureEntry

/-- What the watchers take is made for the order, and the windows of the log scan are exact. -/
structure WatchersSound (net : EvmNet) (ledger : TokenLedger) (decimals : ℕ) (order : WatchedOrder)
    (now : Time) (answers : WatcherAnswers) : Prop where
  explorer : ExplorerSound order decimals answers.items
  rpc : RpcSound (net.chain decimals) ledger answers.blockNumber answers.fails order now
  tron : TronSound order decimals answers.pageLimit answers.maxPages answers.pages
  solana : SolanaSound order decimals answers.mint answers.ata answers.signatures
  windows : ∀ latest ∈ answers.blockNumber, WindowsExact (net.chain decimals)
    (ledger.view order.address answers.blockNumber answers.fails) order.amount order.createdAt now
    latest

/-- In the order in which each watcher looks, every transfer that it lets through although it is
older than the order less a minute, or off its amount, stands behind one that is made for the
order. -/
structure NoStrayFirst (net : EvmNet) (ledger : TokenLedger) (decimals : ℕ) (order : WatchedOrder)
    (now : Time) (answers : WatcherAnswers) : Prop where
  explorer : StraysBehind (lookAtItem order decimals) (ItemMadeFor order decimals) answers.items
  rpc : ∀ latest ∈ answers.blockNumber,
    StraysBehind (lookAtLog (targetUnits order.amount decimals)) (LogMadeFor ledger order decimals)
      (scannedLogs (ledger.view order.address answers.blockNumber answers.fails)
        (floorBlock (net.chain decimals) order.createdAt now latest)
        (net.chain decimals).maxBlockLookback 5 latest)
  tron : (strip order.address = "" ∨ order.amount ≤ 0) ∨
    StraysBehind (lookAtTron order decimals) (TronMadeFor order decimals)
      (tronItems answers.pageLimit answers.maxPages answers.pages)
  solana : (strip order.address = "" ∨ order.amount ≤ 0) ∨
    StraysBehind (lookAtSignature order decimals answers.mint
      (answers.ata.getD (strip order.address))) (SolanaMadeFor order decimals) answers.signatures

theorem evmNet_chunk_pos (net : EvmNet) (decimals : ℕ) :
    0 < (net.chain decimals).maxBlockLookback := by
  cases net with
  | bep20 => exact (by decide : (0 : ℤ) < 4800)
  | erc20 => exact (by decide : (0 : ℤ) < 600)

theorem evmNet_decimals (net : EvmNet) (decimals : ℕ) :
    (net.chain decimals).decimals = decimals := by
  cases net <;> rfl

def lateOrder : WatchedOrder where
  address := "0xab"
  amount := 50
  createdAt := 1000000 * Live.oneSecond

/-- A transfer of 50 tokens in block 6000 of 10000, which is 3000 seconds older than the order. -/
def olderTransfer : TokenLedger where
  transfers := [{ block := 6000, toAddr := "0xAB", value := 50 * 10 ^ 18, txHash := "old" }]
  blockTime := fun block => 1000000 * Live.oneSecond + (block - 10000) * 750000

def rpcOnly : WatcherAnswers where
  items := []
  blockNumber := some 10000
  fails := fun _ _ => false
  pageLimit := 100
  maxPages := 5
  pages := []
  mint := ""
  ata := none
  signatures := []

end QuantDinger.Analysis
