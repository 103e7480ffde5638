import QuantDinger.Library.Runs
import QuantDinger.Model.UsdtPayment

/-!
# One transfer, one order

A membership is granted under a reference that is its order's own and can be claimed once, so an
order is activated at most once, whatever crashes and whoever else confirms it. The transfer that
pays an order is found by its amount alone. The amount is reserved while the order is open, and is
given to a new order afterwards, whose watcher looks back far enough to find the old transfer:
nothing but a look at the other orders' hashes would tell it apart.
-/

namespace QuantDinger.Analysis

open QuantDinger.Library QuantDinger.Model QuantDinger.Model.UsdtPayment

variable {ι V : Type} [DecidableEq ι] {config : PaymentConfig}
  {find : V → CryptoOrder → Time → Option IncomingTransfer} {state : PaymentState ι}

/-! ## Rows and workers -/

/-- The row that a worker is about exists, and the currency it has read is the row's. -/
def WorkerSound (orders : ℕ → Option CryptoOrder) : PaymentWorker → Prop
  | .loaded id _ => (orders id).isSome = true
  | .matched id _ _ => (orders id).isSome = true
  | .expiring id => (orders id).isSome = true
  | .confirming id => (orders id).isSome = true
  | .activating id currency => ∃ row, orders id = some row ∧ row.currency = currency
  | .finishing id => (orders id).isSome = true
  | _ => True

/-- No row is lost and no row changes its currency. -/
def RowsKept (orders later : ℕ → Option CryptoOrder) : Prop :=
  ∀ id row, orders id = some row → ∃ new, later id = some new ∧ new.currency = row.currency

theorem rowsKept_update {orders : ℕ → Option CryptoOrder} {id : ℕ} {row : CryptoOrder}
    (h : ∀ old, orders id = some old → row.currency = old.currency) :
    RowsKept orders (Function.update orders id (some row)) := by
  intro other old hold
  by_cases hsame : other = id
  · subst hsame
    exact ⟨row, Function.update_self _ _ _, h old hold⟩
  · exact ⟨old, by rw [Function.update_of_ne hsame]; exact hold, rfl⟩

theorem WorkerSound.kept {orders later : ℕ → Option CryptoOrder} {worker : PaymentWorker}
    (hrows : RowsKept orders later) (h : WorkerSound orders worker) :
    WorkerSound later worker := by
  have some_kept : ∀ id, (orders id).isSome = true → (later id).isSome = true := by
    intro id hid
    obtain ⟨row, hrow⟩ := Option.isSome_iff_exists.1 hid
    obtain ⟨new, hnew, _⟩ := hrows id row hrow
    rw [hnew]
    rfl
  cases worker with
  | idle => exact trivial
  | probing request => exact trivial
  | inserting request baseAmount expiresAt attempt => exact trivial
  | loaded id row => exact some_kept id h
  | matched id transfer now => exact some_kept id h
  | expiring id => exact some_kept id h
  | confirming id => exact some_kept id h
  | activating id currency =>
    obtain ⟨row, hrow, hcurrency⟩ := h
    obtain ⟨new, hnew, hsame⟩ := hrows id row hrow
    exact ⟨new, hnew, hsame.trans hcurrency⟩
  | finishing id => exact some_kept id h

/-- What holds of the orders and the workers at any time. -/
structure PaymentsSound (state : PaymentState ι) : Prop where
  ids : ∀ id row, state.orders id = some row → id ∈ state.ids
  workers : ∀ worker, WorkerSound state.orders (state.workers worker)
  once : state.granted.Nodup
  claimed : ∀ id ∈ state.granted, ∃ row, state.orders id = some row ∧
    fulfillmentRef row.currency id ∈ state.fulfilled

theorem PaymentsSound.goes (h : PaymentsSound state) {worker : ι} {next : PaymentWorker}
    (hnext : WorkerSound state.orders next) : PaymentsSound (state.goes worker next) := by
  refine ⟨h.ids, ?_, h.once, h.claimed⟩
  intro other
  show WorkerSound state.orders (Function.update state.workers worker next other)
  by_cases hsame : other = worker
  · subst hsame
    rw [Function.update_self]
    exact hnext
  · rw [Function.update_of_ne hsame]
    exact h.workers other

theorem PaymentsSound.rests (h : PaymentsSound state) (worker : ι) :
    PaymentsSound (state.goes worker .idle) := by
  refine h.goes ?_
  exact trivial

omit [DecidableEq ι] in
theorem PaymentsSound.writes (h : PaymentsSound state) {id : ℕ} {old row : CryptoOrder}
    (hold : state.orders id = some old) (hcurrency : row.currency = old.currency) :
    PaymentsSound (state.writes id row) := by
  have hkept : RowsKept state.orders (Function.update state.orders id (some row)) := by
    refine rowsKept_update ?_
    intro found hfound
    rw [hold] at hfound
    cases hfound
    exact hcurrency
  refine ⟨?_, fun worker => (h.workers worker).kept hkept, h.once, ?_⟩
  · intro other found hfound
    by_cases hsame : other = id
    · subst hsame
      exact h.ids other old hold
    · refine h.ids other found ?_
      rw [← hfound]
      exact (Function.update_of_ne hsame _ _).symm
  · intro other hother
    obtain ⟨found, hfound, hclaimed⟩ := h.claimed other hother
    obtain ⟨new, hnew, hsame⟩ := hkept other found hfound
    refine ⟨new, hnew, ?_⟩
    rw [hsame]
    exact hclaimed

theorem nextId_new (ids : List ℕ) : nextId ids ∉ ids := by
  intro hmem
  have hle : ∀ (ids : List ℕ) (id : ℕ), id ∈ ids → id ≤ ids.foldr max 0 := by
    intro ids
    induction ids with
    | nil =>
      intro id hid
      exact nomatch hid
    | cons first rest ih =>
      intro id hid
      rcases List.mem_cons.1 hid with rfl | hid
      · exact le_max_left _ _
      · exact (ih id hid).trans (le_max_right _ _)
  have hbound := hle ids (nextId ids) hmem
  unfold nextId at hbound
  omega

theorem insertOrder_sound (h : PaymentsSound state) (worker : ι) (request : OrderRequest)
    (baseAmount : Amount) (expiresAt : Time) (attempt : ℕ) (now : Time) (slot : ℕ) :
    PaymentsSound
      (insertOrder config state worker request baseAmount expiresAt attempt now slot) := by
  unfold insertOrder
  dsimp only
  split_ifs
  · refine h.goes ?_
    exact trivial
  · exact h.rests worker
  · have hnone : state.orders (nextId state.ids) = none := by
      by_contra hsome
      obtain ⟨row, hrow⟩ := Option.ne_none_iff_exists'.1 hsome
      exact nextId_new _ (h.ids _ row hrow)
    generalize hrow : ({
      userId := request.userId
      plan := request.plan
      currency := request.currency
      amount := buildAmountWithSuffix baseAmount config.suffixDecimals slot
      expiresAt := some expiresAt
      createdAt := now } : CryptoOrder) = row
    have hkept : RowsKept state.orders
        (Function.update state.orders (nextId state.ids) (some row)) := by
      refine rowsKept_update ?_
      intro old hold
      rw [hnone] at hold
      exact nomatch hold
    refine ⟨?_, ?_, h.once, ?_⟩
    · intro other found hfound
      show other ∈ state.ids ++ [nextId state.ids]
      by_cases hsame : other = nextId state.ids
      · exact List.mem_append_right _ (List.mem_singleton.2 hsame)
      · refine List.mem_append_left _ (h.ids other found ?_)
        rw [← hfound]
        exact (Function.update_of_ne hsame _ _).symm
    · intro other
      show WorkerSound (Function.update state.orders (nextId state.ids) (some row))
        (Function.update state.workers worker .idle other)
      by_cases hsame : other = worker
      · subst hsame
        rw [Function.update_self]
        exact trivial
      · rw [Function.update_of_ne hsame]
        exact (h.workers other).kept hkept
    · intro other hother
      obtain ⟨found, hfound, hclaimed⟩ := h.claimed other hother
      obtain ⟨new, hnew, hsame⟩ := hkept other found hfound
      refine ⟨new, hnew, ?_⟩
      rw [hsame]
      exact hclaimed

theorem watched_goes (find : V → CryptoOrder → Time → Option IncomingTransfer) (worker : ι)
    {id : ℕ} (row : CryptoOrder) (status : UsdtPayment.OrderStatus) (now : Time)
    (view : V) (hid : (state.orders id).isSome = true) :
    ∃ next, WorkerSound state.orders next ∧
      (match find view row now with
        | some transfer => state.goes worker (.matched id transfer now)
        | none =>
          if status = .pending ∧ ∃ expires ∈ row.expiresAt, expires ≤ now then
            state.goes worker (.expiring id)
          else state.goes worker .idle) = state.goes worker next := by
  cases find view row now with
  | some transfer => exact ⟨.matched id transfer now, hid, rfl⟩
  | none =>
    dsimp only
    split_ifs
    · exact ⟨.expiring id, hid, rfl⟩
    · exact ⟨.idle, trivial, rfl⟩

theorem refreshOne_goes (config : PaymentConfig)
    (find : V → CryptoOrder → Time → Option IncomingTransfer) (worker : ι) {id : ℕ}
    (row : CryptoOrder) (now : Time) (view : V)
    (hid : (state.orders id).isSome = true) :
    ∃ next, WorkerSound state.orders next ∧
      refreshOne config find state worker id row now view = state.goes worker next := by
  unfold refreshOne
  by_cases hskip : config.enabled row.currency = false ∨ row.amount ≤ 0
  · rw [if_pos hskip]
    exact ⟨.idle, trivial, rfl⟩
  · rw [if_neg hskip]
    cases row.status with
    | confirmed => exact ⟨.idle, trivial, rfl⟩
    | paid =>
      dsimp only
      cases row.paidAt with
      | some paidAt =>
        dsimp only
        split_ifs
        · exact ⟨.confirming id, hid, rfl⟩
        · exact ⟨.idle, trivial, rfl⟩
      | none =>
        dsimp only
        split_ifs
        · exact ⟨.confirming id, hid, rfl⟩
        · exact ⟨.idle, trivial, rfl⟩
    | pending => exact watched_goes find worker row .pending now view hid
    | expired => exact watched_goes find worker row .expired now view hid

theorem afterPaid_sound (config : PaymentConfig) {orders : ℕ → Option CryptoOrder} {id : ℕ}
    (transfer : IncomingTransfer) (now : Time) (hid : (orders id).isSome = true) :
    WorkerSound orders (afterPaid config transfer id now) := by
  unfold afterPaid
  split_ifs
  · exact hid
  · exact trivial
  · exact hid
  · exact trivial

omit [DecidableEq ι] in
theorem writes_isSome (id : ℕ) (row : CryptoOrder) :
    ((state.writes id row).orders id).isSome = true := by
  show (Function.update state.orders id (some row) id).isSome = true
  rw [Function.update_self]
  rfl

theorem markPaid_sound (h : PaymentsSound state) (worker : ι) {id : ℕ}
    (transfer : IncomingTransfer) (readAt now : Time) (hid : (state.orders id).isSome = true) :
    PaymentsSound (markPaid config state worker id transfer readAt now) := by
  have hnext := afterPaid_sound config transfer readAt hid
  unfold markPaid
  cases hrow : state.orders id with
  | none => exact h.goes hnext
  | some row =>
    dsimp only
    split_ifs
    · exact h.rests worker
    · have hwritten : PaymentsSound (state.writes id
          { row with status := .paid, txHash := transfer.txHash, paidAt := some now }) :=
        h.writes hrow rfl
      refine hwritten.goes ?_
      exact afterPaid_sound _ _ _ (writes_isSome _ _)
    · exact h.goes hnext

omit [DecidableEq ι] in
theorem updateStatus_sound (h : PaymentsSound state) (id : ℕ)
    (among : List UsdtPayment.OrderStatus) (status : UsdtPayment.OrderStatus) : PaymentsSound (updateStatus state id among status) := by
  unfold updateStatus
  cases hrow : state.orders id with
  | none => exact h
  | some row =>
    dsimp only
    split_ifs
    · exact h.writes hrow rfl
    · exact h

theorem purchase_sound (h : PaymentsSound state) (worker : ι) {id : ℕ} {row : CryptoOrder}
    (hrow : state.orders id = some row) :
    PaymentsSound (purchase state worker id row.currency) := by
  have hid : (state.orders id).isSome = true := by
    rw [hrow]
    rfl
  unfold purchase
  dsimp only
  split_ifs with hclaimed
  · exact h.goes hid
  · have hgoes : PaymentsSound (state.goes worker (.finishing id)) := h.goes hid
    have hnew : id ∉ state.granted := by
      intro hmem
      obtain ⟨found, hfound, hold⟩ := h.claimed id hmem
      rw [hrow] at hfound
      cases hfound
      exact hclaimed hold
    refine ⟨hgoes.ids, hgoes.workers, ?_, ?_⟩
    · exact List.Nodup.append h.once (List.nodup_singleton id) (List.disjoint_singleton.2 hnew)
    · intro other hother
      rcases List.mem_append.1 hother with hother | hother
      · obtain ⟨found, hfound, hold⟩ := h.claimed other hother
        exact ⟨found, hfound, List.mem_append_left _ hold⟩
      · rw [List.mem_singleton.1 hother]
        exact ⟨row, hrow, List.mem_append_right _ (List.mem_singleton_self _)⟩

theorem payments_sound_step (h : PaymentsSound state) (event : PaymentEvent ι V) :
    PaymentsSound (state.step config find event) := by
  cases event with
  | create worker request =>
    refine h.goes ?_
    exact trivial
  | crash worker => exact h.rests worker
  | load worker id =>
    unfold PaymentState.step
    dsimp only
    cases hrow : state.orders id with
    | none => exact h.rests worker
    | some row =>
      refine h.goes ?_
      show (state.orders id).isSome = true
      rw [hrow]
      rfl
  | advance worker now view slot =>
    show PaymentsSound (state.advance config find worker now view slot)
    have hworker := h.workers worker
    unfold PaymentState.advance
    cases hstands : state.workers worker with
    | idle => exact h
    | probing request =>
      dsimp only
      cases config.priceUsd request.plan with
      | none => exact h.rests worker
      | some baseAmount =>
        dsimp only
        split_ifs
        · exact h.rests worker
        · refine h.goes ?_
          exact trivial
    | inserting request baseAmount expiresAt attempt =>
      exact insertOrder_sound h worker request baseAmount expiresAt attempt now slot
    | loaded id row =>
      rw [hstands] at hworker
      obtain ⟨next, hnext, heq⟩ :=
        refreshOne_goes config find worker row now view hworker
      dsimp only
      rw [heq]
      exact h.goes hnext
    | matched id transfer readAt =>
      rw [hstands] at hworker
      exact markPaid_sound h worker transfer readAt now hworker
    | expiring id => exact (updateStatus_sound h id _ _).rests worker
    | confirming id =>
      rw [hstands] at hworker
      dsimp only
      obtain ⟨row, hrow⟩ := Option.isSome_iff_exists.1 hworker
      rw [hrow]
      dsimp only
      split_ifs
      · exact h.rests worker
      · refine h.goes ?_
        exact ⟨row, hrow, rfl⟩
    | activating id currency =>
      rw [hstands] at hworker
      obtain ⟨row, hrow, hcurrency⟩ := hworker
      dsimp only
      rw [← hcurrency]
      exact purchase_sound h worker hrow
    | finishing id => exact (updateStatus_sound h id _ _).rests worker

/-! ## Hashes -/

/-- The hash of the transfer that has paid an order; empty while there is none. -/
def hashOf (state : PaymentState ι) (id : ℕ) : String :=
  match state.orders id with
  | none => ""
  | some row => row.txHash

/-- No two orders have been paid by one transfer. -/
def HashesDistinct (state : PaymentState ι) : Prop :=
  ∀ a b, a ≠ b → hashOf state a = hashOf state b → hashOf state a = ""

/-- Where an order is marked as paid, no other order has the hash of the transfer. -/
def FreshTransfer (state : PaymentState ι) (event : PaymentEvent ι V) : Prop :=
  match event with
  | .advance worker _ _ _ => match state.workers worker with
    | .matched id transfer _ => ∀ row ∈ state.orders id, Payable row →
        ¬ state.Collides id row.currency row.amount →
        ∀ other ∈ state.ids, other ≠ id → hashOf state other = transfer.txHash →
          transfer.txHash = ""
    | _ => True
  | _ => True

instance (state : PaymentState ι) (event : PaymentEvent ι V) :
    Decidable (FreshTransfer state event) := by
  unfold FreshTransfer
  cases event with
  | create worker request => exact isTrue trivial
  | load worker id => exact isTrue trivial
  | crash worker => exact isTrue trivial
  | advance worker now view slot =>
    dsimp only
    cases state.workers worker with
    | matched id transfer readAt =>
      dsimp only
      infer_instance
    | idle => exact isTrue trivial
    | probing request => exact isTrue trivial
    | inserting request baseAmount expiresAt attempt => exact isTrue trivial
    | loaded id row => exact isTrue trivial
    | expiring id => exact isTrue trivial
    | confirming id => exact isTrue trivial
    | activating id currency => exact isTrue trivial
    | finishing id => exact isTrue trivial

omit [DecidableEq ι] in
theorem hashOf_writes {id : ℕ} {old row : CryptoOrder} (hold : state.orders id = some old)
    (hhash : row.txHash = old.txHash) : hashOf (state.writes id row) = hashOf state := by
  funext other
  unfold hashOf PaymentState.writes
  dsimp only
  by_cases hsame : other = id
  · subst hsame
    rw [Function.update_self, hold]
    exact hhash
  · rw [Function.update_of_ne hsame]

omit [DecidableEq ι] in
theorem hashOf_updateStatus (id : ℕ) (among : List UsdtPayment.OrderStatus)
    (status : UsdtPayment.OrderStatus) :
    hashOf (updateStatus state id among status) = hashOf state := by
  unfold updateStatus
  cases hrow : state.orders id with
  | none => rfl
  | some row =>
    dsimp only
    by_cases hamong : row.status ∈ among
    · rw [if_pos hamong]
      exact hashOf_writes hrow rfl
    · rw [if_neg hamong]

theorem hashOf_insertOrder (h : PaymentsSound state) (worker : ι) (request : OrderRequest)
    (baseAmount : Amount) (expiresAt : Time) (attempt : ℕ) (now : Time) (slot : ℕ) :
    hashOf (insertOrder config state worker request baseAmount expiresAt attempt now slot) =
      hashOf state := by
  unfold insertOrder
  dsimp only
  by_cases hcollides : state.Collides (nextId state.ids) request.currency
      (buildAmountWithSuffix baseAmount config.suffixDecimals slot)
  · rw [if_pos hcollides]
    split_ifs
    · rfl
    · rfl
  · rw [if_neg hcollides]
    have hnone : state.orders (nextId state.ids) = none := by
      by_contra hsome
      obtain ⟨row, hrow⟩ := Option.ne_none_iff_exists'.1 hsome
      exact nextId_new _ (h.ids _ row hrow)
    funext other
    unfold hashOf PaymentState.goes PaymentState.writes
    dsimp only
    by_cases hsame : other = nextId state.ids
    · subst hsame
      rw [Function.update_self, hnone]
    · rw [Function.update_of_ne hsame]

theorem hashOf_purchase (worker : ι) (id : ℕ) (currency : Currency) :
    hashOf (purchase state worker id currency) = hashOf state := by
  unfold purchase
  dsimp only
  split_ifs
  · rfl
  · rfl

theorem markPaid_distinct (hsound : PaymentsSound state) (h : HashesDistinct state) (worker : ι)
    {id : ℕ} {transfer : IncomingTransfer} {readAt now : Time}
    (hfresh : ∀ row ∈ state.orders id, Payable row →
      ¬ state.Collides id row.currency row.amount →
      ∀ other ∈ state.ids, other ≠ id → hashOf state other = transfer.txHash →
        transfer.txHash = "") :
    HashesDistinct (markPaid config state worker id transfer readAt now) := by
  unfold markPaid
  cases hrow : state.orders id with
  | none => exact h
  | some row =>
    dsimp only
    split_ifs with hpayable hcollides
    · exact h
    · have hself : hashOf ((state.writes id { row with
          status := .paid, txHash := transfer.txHash, paidAt := some now }).goes worker
          (afterPaid config transfer id readAt)) id = transfer.txHash := by
        unfold hashOf PaymentState.goes PaymentState.writes
        dsimp only
        rw [Function.update_self]
      have hothers : ∀ other, other ≠ id → hashOf ((state.writes id { row with
          status := .paid, txHash := transfer.txHash, paidAt := some now }).goes worker
          (afterPaid config transfer id readAt)) other = hashOf state other := by
        intro other hne
        unfold hashOf PaymentState.goes PaymentState.writes
        dsimp only
        rw [Function.update_of_ne hne]
      have hunused : ∀ other, other ≠ id → hashOf state other = transfer.txHash →
          transfer.txHash = "" := by
        intro other hne hhash
        by_cases hids : other ∈ state.ids
        · exact hfresh row hrow hpayable hcollides other hids hne hhash
        · rw [← hhash]
          unfold hashOf
          cases hother : state.orders other with
          | none => rfl
          | some found => exact absurd (hsound.ids other found hother) hids
      intro a b hne hhash
      by_cases ha : a = id
      · subst ha
        rw [hself] at hhash ⊢
        rw [hothers b (Ne.symm hne)] at hhash
        exact hunused b (Ne.symm hne) hhash.symm
      · rw [hothers a ha] at hhash ⊢
        by_cases hb : b = id
        · subst hb
          rw [hself] at hhash
          rw [hhash]
          exact hunused a ha hhash
        · rw [hothers b hb] at hhash
          exact h a b hne hhash
    · exact h

theorem hashes_distinct_step (hsound : PaymentsSound state) (h : HashesDistinct state)
    {event : PaymentEvent ι V} (hfresh : FreshTransfer state event) :
    HashesDistinct (state.step config find event) := by
  have same : ∀ later : PaymentState ι, hashOf later = hashOf state → HashesDistinct later := by
    intro later hlater
    unfold HashesDistinct
    rw [hlater]
    exact h
  cases event with
  | create worker request => exact h
  | crash worker => exact h
  | load worker id =>
    unfold PaymentState.step
    dsimp only
    cases state.orders id with
    | none => exact h
    | some row => exact h
  | advance worker now view slot =>
    show HashesDistinct (state.advance config find worker now view slot)
    have hworker := hsound.workers worker
    unfold FreshTransfer at hfresh
    unfold PaymentState.advance
    cases hstands : state.workers worker with
    | idle => exact h
    | probing request =>
      dsimp only
      cases config.priceUsd request.plan with
      | none => exact h
      | some baseAmount =>
        dsimp only
        split_ifs
        · exact h
        · exact h
    | inserting request baseAmount expiresAt attempt =>
      exact same _ (hashOf_insertOrder hsound worker request baseAmount expiresAt attempt now slot)
    | loaded id row =>
      rw [hstands] at hworker
      obtain ⟨next, -, heq⟩ :=
        refreshOne_goes config find worker row now view hworker
      dsimp only
      rw [heq]
      exact h
    | matched id transfer readAt =>
      simp only [hstands] at hfresh
      exact markPaid_distinct hsound h worker hfresh
    | expiring id => exact same _ (hashOf_updateStatus id _ _)
    | confirming id =>
      dsimp only
      cases state.orders id with
      | none => exact h
      | some row =>
        dsimp only
        split_ifs
        · exact h
        · exact h
    | activating id currency => exact same _ (hashOf_purchase worker id currency)
    | finishing id => exact same _ (hashOf_updateStatus id _ _)

/-! ## Runs -/

theorem payments_start (ι : Type) (fulfilled : List String) :
    PaymentsSound (PaymentState.start ι fulfilled) := by
  refine ⟨?_, fun _ => trivial, List.nodup_nil, ?_⟩
  · intro id row hrow
    exact nomatch hrow
  · intro id hid
    exact nomatch hid

/-- Every order is activated at most once; and if every order that was marked as paid was marked
with a transfer that had not paid another order, no two activated orders share a transfer. -/
theorem transfer_pays_once {fulfilled : List String} {events : List (PaymentEvent ι V)}
    (hrun : Along (PaymentState.step config find) FreshTransfer (PaymentState.start ι fulfilled)
      events) :
    let final := runActions (PaymentState.step config find) (PaymentState.start ι fulfilled) events
    final.granted.Nodup ∧
    ∀ a ∈ final.granted, ∀ b ∈ final.granted, a ≠ b → hashOf final a = hashOf final b →
      hashOf final a = "" := by
  have hboth : PaymentsSound (runActions (PaymentState.step config find)
        (PaymentState.start ι fulfilled) events) ∧
      HashesDistinct (runActions (PaymentState.step config find)
        (PaymentState.start ι fulfilled) events) := by
    refine Along.invariant (I := fun state => PaymentsSound state ∧ HashesDistinct state) ?_
      ⟨payments_start ι fulfilled, fun _ _ _ _ => rfl⟩ hrun
    intro state event hkept hfresh
    exact ⟨payments_sound_step hkept.1 event, hashes_distinct_step hkept.1 hkept.2 hfresh⟩
  exact ⟨hboth.1.once, fun a _ b _ hne hhash => hboth.2 a b hne hhash⟩

/-! ## An amount that is used again -/

def monthlyPrice : PaymentConfig :=
  { priceUsd := fun plan => if plan = "monthly" then some (199 / 10) else none }

def bep20 : EvmChain := { avgBlockTime := 3 / 4, maxBlockLookback := 4800, decimals := 18 }

def watchBep20 (view : RpcView) (row : CryptoOrder) (now : Time) : Option IncomingTransfer :=
  scanRpc bep20 view row.amount row.createdAt now

def oneTransfer (latest : ℤ) : RpcView :=
  { blockNumber := some latest
    getLogs := fun first last => some
      ((if first ≤ 100 ∧ 100 ≤ last then [⟨100, 19901235 * 10 ^ 12, "0xabc"⟩] else [])) }

def atSecond (seconds : ℤ) : Time := seconds * Live.oneSecond

/-- A customer orders, the transfer is found, and the order is confirmed a minute later. -/
def payAndConfirm (customer : ℕ) (id : ℕ) (since : ℤ) (latest : ℤ) (slot : ℕ) :
    List (PaymentEvent Unit RpcView) :=
  let go (seconds : ℤ) : PaymentEvent Unit RpcView :=
    .advance () (atSecond (since + seconds)) (oneTransfer latest) slot
  [.create () { userId := customer, plan := "monthly", currency := .usdt }, go 0, go 0,
    .load () id, go 90, go 90, .load () id, go 150, go 150, go 150, go 150]

/-- Two minutes after the first order is confirmed, a second customer draws the same amount: the
transfer of the first is found for the second, and both memberships are granted. -/
theorem reused_amount_pays_twice :
    let final := runActions (PaymentState.step monthlyPrice watchBep20) (PaymentState.start Unit [])
      (payAndConfirm 1 1 0 300 1234 ++ payAndConfirm 2 2 300 800 1234)
    final.granted = [1, 2] ∧ hashOf final 1 = "0xabc" ∧ hashOf final 2 = "0xabc" := by
  decide +kernel

/-- With another amount the second order waits for its own transfer. -/
theorem other_amount_pays_once :
    let final := runActions (PaymentState.step monthlyPrice watchBep20) (PaymentState.start Unit [])
      (payAndConfirm 1 1 0 300 1234 ++ payAndConfirm 2 2 300 800 77)
    final.granted = [1] ∧ final.granted.Nodup ∧
    ∀ a ∈ final.granted, ∀ b ∈ final.granted, a ≠ b → hashOf final a = hashOf final b →
      hashOf final a = "" := by
  have hrun : Along (PaymentState.step monthlyPrice watchBep20) FreshTransfer
      (PaymentState.start Unit []) (payAndConfirm 1 1 0 300 1234 ++ payAndConfirm 2 2 300 800 77) :=
    by decide +kernel
  exact ⟨by decide +kernel, transfer_pays_once hrun⟩

end QuantDinger.Analysis
