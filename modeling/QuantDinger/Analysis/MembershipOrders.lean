import QuantDinger.Library.SerialOrder
import QuantDinger.Model.Billing

/-!
# Paid membership orders

The transaction of a purchase begins by altering the table of the users, so no other transaction
that touches the table comes between its statements: the purchases of a user run one after another,
in the order of their commits. Each order stacks its days on the expiry that it finds and claims its
fulfilment reference, so it counts once however often it is delivered. A member for life keeps the
expiry and gets the credits only.
-/

namespace QuantDinger.Analysis

open QuantDinger.Library QuantDinger.Model QuantDinger.Model.Billing

/-- A paid order. -/
structure MembershipOrder where
  plan : MembershipPlan
  orderRef : Time → String
  fulfillmentRef : String

def MembershipOrder.key (order : MembershipOrder) : String := strip order.fulfillmentRef

def MembershipOrder.request (order : MembershipOrder) : BillingRequest :=
  .purchase (some order.plan) order.orderRef order.fulfillmentRef

def MembershipOrder.duration (order : MembershipOrder) : Time :=
  order.plan.durationDays * Live.oneDay

def MembershipOrder.bonus (order : MembershipOrder) : ℤ := max 0 order.plan.creditsOnce

abbrev UserDatabase := Database UserRow CreditEntry String

def Alive (db : UserDatabase) (now : Time) : Prop := ∃ expires ∈ db.row.vipExpiresAt, now ≤ expires

instance (db : UserDatabase) (now : Time) : Decidable (Alive db now) := by
  unfold Alive
  infer_instance

/-! ## One purchase -/

section Purchase

variable {P : UserDatabase → Time → Prop}

/-- What a delivery does to the state of the user. -/
structure Delivered (P : UserDatabase → Time → Prop) (order : MembershipOrder)
    (db later : UserDatabase) : Prop where
  keys : later.keys = db.keys ++ [order.key]
  credits : later.row.credits = db.row.credits + order.bonus
  lifetime : later.row.vipIsLifetime = db.row.vipIsLifetime
  expires : ∃ now, P db now ∧ later.row.vipExpiresAt =
    if db.row.vipIsLifetime then db.row.vipExpiresAt
    else some (baseTime db.row.vipExpiresAt now + order.duration)

theorem grantCredits_ensures {plan : MembershipPlan} (hterm : plan.isLifetime = false) (now : Time)
    (orderRef : String) {next : BillingScript BillingReply}
    {Q : UserDatabase → BillingReply → Prop} {db view : UserDatabase}
    (h : ∀ later : UserDatabase, later.keys = view.keys →
      later.row = { view.row with credits := view.row.credits + (max 0 plan.creditsOnce : ℤ) } →
      next.Ensures P Q db later) :
    (grantCredits plan now orderRef next).Ensures P Q db view := by
  unfold grantCredits
  rw [if_pos hterm]
  by_cases honce : 0 < plan.creditsOnce
  · rw [if_pos honce]
    refine h _ rfl ?_
    rw [max_eq_right honce.le]
    rfl
  · rw [if_neg honce]
    refine h _ rfl ?_
    rw [max_eq_left (not_lt.1 honce), Int.cast_zero, add_zero]

theorem purchase_ensures {order : MembershipOrder} (hterm : order.plan.isLifetime = false)
    (hkey : order.key ≠ "") (db : UserDatabase) :
    order.request.script.Ensures P
      (fun later _ => (order.key ∈ db.keys ∧ later = db) ∨
        (order.key ∉ db.keys ∧ Delivered P order db later)) db db := by
  show Script.Ensures P _ (purchaseMembership (some order.plan) order.orderRef
    order.fulfillmentRef) db db
  unfold purchaseMembership
  dsimp only
  rw [if_neg (show ¬ strip order.fulfillmentRef = "" from hkey)]
  show if order.key ∈ db.keys then _ else _
  by_cases hold : order.key ∈ db.keys
  · rw [if_pos hold]
    exact Or.inl ⟨hold, rfl⟩
  · rw [if_neg hold]
    intro now hnow
    dsimp only
    show Script.Ensures P _ (if db.row.vipIsLifetime = true ∧ order.plan.isLifetime = false then _
      else _) db { db with keys := db.keys ++ [order.key] }
    by_cases hlifetime : db.row.vipIsLifetime = true
    · rw [if_pos ⟨hlifetime, hterm⟩]
      refine grantCredits_ensures hterm _ _ ?_
      intro later hkeys hrow
      refine Or.inr ⟨hold, hkeys, ?_, ?_, now, hnow, ?_⟩
      · rw [hrow]
        rfl
      · rw [hrow]
      · rw [hrow, if_pos hlifetime]
    · rw [if_neg (fun h => hlifetime h.1)]
      refine grantCredits_ensures hterm _ _ ?_
      intro later hkeys hrow
      have hactivated : activatedRow order.plan now db.row db.row = { db.row with
          vipExpiresAt := some (baseTime db.row.vipExpiresAt now + order.duration)
          vipPlan := order.plan.code
          vipIsLifetime := false } := by
        unfold activatedRow
        rw [if_neg (fun h => hlifetime h.1), hterm]
        rfl
      have hview : later.row = { activatedRow order.plan now db.row db.row with
          credits := (activatedRow order.plan now db.row db.row).credits + (order.bonus : ℤ) } :=
        hrow
      rw [hactivated] at hview
      refine Or.inr ⟨hold, hkeys, ?_, ?_, now, hnow, ?_⟩
      · rw [hview]
      · rw [hview]
        simpa using hlifetime
      · rw [hview, if_neg hlifetime]

theorem grantCredits_ends (plan : MembershipPlan) (now : Time) (orderRef : String)
    {next : BillingScript BillingReply} (h : next.Ends) :
    (grantCredits plan now orderRef next).Ends := by
  unfold grantCredits
  dsimp only
  split_ifs
  · exact fun _ _ => h
  · exact h
  · exact fun _ _ _ => h
  · exact fun _ => h

theorem activate_ends (plan : MembershipPlan) (orderRef : Time → String) :
    (activate plan orderRef).Ends := by
  intro now read
  have hdone : Script.Ends (.commit (.done (BillingReply.activated (reportedExpiry plan now read))) :
      BillingScript BillingReply) := ⟨_, rfl⟩
  have hcredit := grantCredits_ends plan now (orderRef now) hdone
  dsimp only
  split_ifs
  · exact hcredit
  · exact fun _ => hcredit

theorem purchase_ends (order : MembershipOrder) :
    ∃ body, order.request.script = .exclusive body ∧ body.Ends := by
  refine ⟨_, rfl, ?_⟩
  generalize strip order.fulfillmentRef = reference
  split_ifs
  · exact activate_ends _ _
  · intro inserted
    cases inserted with
    | true => exact activate_ends _ _
    | false => exact ⟨_, rfl⟩

end Purchase

/-! ## All of them -/

section Orders

variable {ι κ : Type} [DecidableEq κ] {orders : κ → MembershipOrder} {calls : ι → κ}
  {P : UserDatabase → Time → Prop}

/-- The orders of some calls that have not been fulfilled before. -/
def newOrders (orders : κ → MembershipOrder) (calls : ι → κ) (fulfilled : List String)
    (order : List ι) : Finset κ :=
  (order.map calls).toFinset.filter fun o => (orders o).key ∉ fulfilled

/-- What the deliveries of some orders have done to the state of the user. -/
structure AllDelivered (orders : κ → MembershipOrder) (delivered : Finset κ)
    (db later : UserDatabase) : Prop where
  keys : ∀ key, key ∈ later.keys ↔ key ∈ db.keys ∨ ∃ o ∈ delivered, (orders o).key = key
  credits : later.row.credits = db.row.credits + (∑ o ∈ delivered, (orders o).bonus : ℤ)
  lifetime : later.row.vipIsLifetime = db.row.vipIsLifetime
  kept : db.row.vipIsLifetime = true → later.row.vipExpiresAt = db.row.vipExpiresAt

theorem AllDelivered.insert {delivered : Finset κ} {db mid later : UserDatabase} {o : κ}
    (h : AllDelivered orders delivered db mid) (hnew : o ∉ delivered)
    (hdelivered : Delivered P (orders o) mid later) :
    AllDelivered orders (insert o delivered) db later := by
  refine ⟨?_, ?_, ?_, ?_⟩
  · intro key
    rw [hdelivered.keys, List.mem_append, h.keys, List.mem_singleton, or_assoc]
    constructor
    · rintro (hold | ⟨o', ho', rfl⟩ | rfl)
      · exact Or.inl hold
      · exact Or.inr ⟨o', Finset.mem_insert_of_mem ho', rfl⟩
      · exact Or.inr ⟨o, Finset.mem_insert_self o delivered, rfl⟩
    · rintro (hold | ⟨o', ho', rfl⟩)
      · exact Or.inl hold
      · rcases Finset.mem_insert.1 ho' with rfl | ho'
        · exact Or.inr (Or.inr rfl)
        · exact Or.inr (Or.inl ⟨o', ho', rfl⟩)
  · rw [hdelivered.credits, h.credits, Finset.sum_insert hnew]
    push_cast
    ring
  · exact hdelivered.lifetime.trans h.lifetime
  · intro hlifetime
    obtain ⟨now, _, hexpires⟩ := hdelivered.expires
    rw [hexpires, h.lifetime, if_pos hlifetime]
    exact h.kept hlifetime

/-- The expiry after some deliveries, while the membership does not lapse. -/
def Stacked (orders : κ → MembershipOrder) (delivered : Finset κ) (db later : UserDatabase) :
    Prop :=
  db.row.vipIsLifetime = false → ∀ expires ∈ db.row.vipExpiresAt,
    later.row.vipExpiresAt = some (expires + ∑ o ∈ delivered, (orders o).duration)

theorem Stacked.insert {delivered : Finset κ} {db mid later : UserDatabase} {o : κ}
    (h : Stacked orders delivered db mid) (hlifetime : mid.row.vipIsLifetime = db.row.vipIsLifetime)
    (hnew : o ∉ delivered) (hdelivered : Delivered Alive (orders o) mid later) :
    Stacked orders (insert o delivered) db later := by
  intro hterm expires hexpires
  obtain ⟨now, ⟨current, hcurrent, halive⟩, hlater⟩ := hdelivered.expires
  rw [hlifetime, hterm] at hlater
  rw [hlater, h hterm expires hexpires, Finset.sum_insert hnew]
  rw [h hterm expires hexpires] at hcurrent
  have hbase : baseTime (some (expires + ∑ o ∈ delivered, (orders o).duration)) now =
      expires + ∑ o ∈ delivered, (orders o).duration := by
    cases hcurrent
    unfold baseTime
    dsimp only
    split_ifs with hlapsed
    · rfl
    · exact le_antisymm halive (not_lt.1 hlapsed)
  rw [if_neg Bool.false_ne_true, hbase]
  congr 1
  ring

theorem newOrders_old {fulfilled : List String} {order : List ι} {i : ι}
    (hkeys : Function.Injective fun o => (orders o).key)
    (hold : (orders (calls i)).key ∈ fulfilled ∨
      ∃ o ∈ newOrders orders calls fulfilled order, (orders o).key = (orders (calls i)).key) :
    newOrders orders calls fulfilled (order ++ [i]) = newOrders orders calls fulfilled order := by
  ext o
  unfold newOrders at hold ⊢
  simp only [List.map_append, List.map_cons, List.map_nil, Finset.mem_filter, List.mem_toFinset,
    List.mem_append, List.mem_singleton] at hold ⊢
  constructor
  · rintro ⟨hmem | rfl, hnew⟩
    · exact ⟨hmem, hnew⟩
    · rcases hold with hold | ⟨o, ho, hsame⟩
      · exact absurd hold hnew
      · rw [hkeys hsame] at ho
        exact ho
  · rintro ⟨hmem, hnew⟩
    exact ⟨Or.inl hmem, hnew⟩

theorem newOrders_new {fulfilled : List String} {order : List ι} {i : ι}
    (hnew : (orders (calls i)).key ∉ fulfilled) :
    newOrders orders calls fulfilled (order ++ [i]) =
      insert (calls i) (newOrders orders calls fulfilled order) := by
  ext o
  unfold newOrders
  simp only [List.map_append, List.map_cons, List.map_nil, Finset.mem_filter, List.mem_toFinset,
    List.mem_append, List.mem_singleton, Finset.mem_insert]
  constructor
  · rintro ⟨hmem | rfl, hfresh⟩
    · exact Or.inr ⟨hmem, hfresh⟩
    · exact Or.inl rfl
  · rintro (rfl | ⟨hmem, hfresh⟩)
    · exact ⟨Or.inr rfl, hnew⟩
    · exact ⟨Or.inl hmem, hfresh⟩

theorem serial_delivers (hterm : ∀ o, (orders o).plan.isLifetime = false)
    (hpaid : ∀ o, (orders o).key ≠ "") (hkeys : Function.Injective fun o => (orders o).key)
    {db later : UserDatabase} {order : List ι}
    (h : Serial P (fun i => (orders (calls i)).request.script) db order later) :
    AllDelivered orders (newOrders orders calls db.keys order) db later ∧
    ((∀ db now, P db now → Alive db now) →
      Stacked orders (newOrders orders calls db.keys order) db later) := by
  induction h with
  | nil =>
    refine ⟨⟨?_, ?_, rfl, fun _ => rfl⟩, ?_⟩
    · intro key
      simp [newOrders]
    · simp [newOrders]
    · intro _ _ expires hexpires
      simpa [newOrders] using hexpires
  | snoc before last ih =>
    rename_i mid later order i result
    obtain ⟨hdelivered, hstacked⟩ := ih
    rcases last.ensures (purchase_ensures (hterm (calls i)) (hpaid (calls i)) mid) with
      ⟨hold, rfl⟩ | ⟨hfresh, hnext⟩
    · rw [newOrders_old hkeys ((hdelivered.keys _).1 hold)]
      exact ⟨hdelivered, hstacked⟩
    · rw [hdelivered.keys, not_or] at hfresh
      have hnew : calls i ∉ newOrders orders calls db.keys order :=
        fun hmem => hfresh.2 ⟨calls i, hmem, rfl⟩
      rw [newOrders_new hfresh.1]
      refine ⟨hdelivered.insert hnew hnext, ?_⟩
      intro halive
      refine (hstacked halive).insert hdelivered.lifetime hnew ?_
      obtain ⟨now, hnow, hexpires⟩ := hnext.expires
      exact ⟨hnext.keys, hnext.credits, hnext.lifetime, now, halive _ _ hnow, hexpires⟩

theorem newOrders_all [Fintype ι] {fulfilled : List String} {order : List ι}
    (hall : ∀ i, i ∈ order) : newOrders orders calls fulfilled order =
      (Finset.univ.image calls).filter fun o => (orders o).key ∉ fulfilled := by
  unfold newOrders
  congr 1
  ext o
  simp [hall]

/-- Once the deliveries of some paid orders have all committed, however their statements
interleave, they have run one after another in some order; every order that was not fulfilled
before has brought its credits once, and once its days to a member whose membership does not lapse
in between and is not for life; the expiry of a member for life is as it was. -/
theorem paid_orders_count [Fintype ι] [DecidableEq ι]
    (hterm : ∀ o, (orders o).plan.isLifetime = false) (hpaid : ∀ o, (orders o).key ≠ "")
    (hkeys : Function.Injective fun o => (orders o).key) {account : UserRow}
    {log : List CreditEntry} {fulfilled : List String} {events : List (SessionEvent ι Time)}
    (hcommitted : ∀ i, ∃ reply, ((runActions Server.step (billingServer account log fulfilled
      fun i => (orders (calls i)).request) events).sessions i).script = .done reply) :
    let start := billingServer account log fulfilled fun i => (orders (calls i)).request
    let final := (runActions Server.step start events).db
    let delivered := (Finset.univ.image calls).filter fun o => (orders o).key ∉ fulfilled
    (∃ order : List ι, order.Nodup ∧ (∀ i, i ∈ order) ∧ Serial (fun _ _ => True)
      (fun i => (orders (calls i)).request.script) start.db order final) ∧
    final.row.credits = account.credits + (∑ o ∈ delivered, (orders o).bonus : ℤ) ∧
    (account.vipIsLifetime = true → final.row.vipExpiresAt = account.vipExpiresAt) ∧
    (account.vipIsLifetime = false → Along Server.step (ReadsInTime Alive) start events →
      ∀ expires ∈ account.vipExpiresAt,
        final.row.vipExpiresAt = some (expires + ∑ o ∈ delivered, (orders o).duration)) := by
  have hscripts := fun i => purchase_ends (orders (calls i))
  have hany : Along Server.step (ReadsInTime fun _ _ => True)
      (billingServer account log fulfilled fun i => (orders (calls i)).request) events :=
    by
    refine along_of_forall ?_ _ _
    intro server event
    cases event with
    | run i now => exact fun _ => trivial
    | abort i => exact trivial
  obtain ⟨order, hnodup, hdone, hserial⟩ := run_serial hscripts hany
  have hall : ∀ i, i ∈ order := fun i => (hcommitted i).elim fun reply h => hdone i reply h
  have hdelivered := (serial_delivers hterm hpaid hkeys hserial).1
  rw [newOrders_all hall] at hdelivered
  refine ⟨⟨order, hnodup, hall, hserial⟩, hdelivered.credits, hdelivered.kept, ?_⟩
  intro hmember halive expires hexpires
  obtain ⟨order, _, hdone, hserial⟩ := run_serial hscripts halive
  have hall : ∀ i, i ∈ order := fun i => (hcommitted i).elim fun reply h => hdone i reply h
  have hstacked := (serial_delivers hterm hpaid hkeys hserial).2 fun _ _ h => h
  rw [newOrders_all hall] at hstacked
  exact hstacked hmember expires hexpires

end Orders

/-! ## Two deliveries of one order -/

def monthOrder : MembershipOrder :=
  { plan := { code := "monthly", durationDays := 30, creditsOnce := 500 }
    orderRef := fun _ => "usdt_order:7"
    fulfillmentRef := "usdt_order:7" }

/-- The worker and the page deliver the order at once: the page waits for the worker. -/
def deliveredTwice : List (SessionEvent Bool Time) :=
  [.run true 0, .run true 0, .run false 0, .run true 0, .run true 0, .run false 0, .run true 0,
    .run true 0, .run true 0, .run true 0, .run true 0, .run false 0, .run false 0, .run false 0]

/-- The month counts once. -/
theorem delivered_twice_counts_once :
    let account : UserRow := { credits := 20, vipExpiresAt := some (10 * Live.oneDay) }
    let start := billingServer account [] [] fun _ : Bool => monthOrder.request
    let final := (runActions Server.step start deliveredTwice).db
    final.row.credits = 520 ∧ final.row.vipExpiresAt = some (40 * Live.oneDay) := by
  have halive : Along Server.step (ReadsInTime Alive) (billingServer
      { credits := 20, vipExpiresAt := some (10 * Live.oneDay) } [] []
      fun _ : Bool => monthOrder.request) deliveredTwice := by decide +kernel
  have hall := @paid_orders_count Bool Unit _ (fun _ => monthOrder) (fun _ => ()) _ _ (fun _ => rfl)
    (fun _ => by decide) (fun _ _ _ => rfl)
    { credits := 20, vipExpiresAt := some (10 * Live.oneDay) } [] [] deliveredTwice (by
      intro i
      cases i with
      | true => exact ⟨_, rfl⟩
      | false => exact ⟨_, rfl⟩)
  refine ⟨hall.2.1.trans (by decide +kernel), ?_⟩
  exact (hall.2.2.2 rfl halive _ rfl).trans (by decide +kernel)

/-- A member for life buys the month and keeps the expiry. -/
theorem lifetime_expiry_stays :
    let account : UserRow :=
      { credits := 20, vipExpiresAt := some (10 * Live.oneDay), vipIsLifetime := true }
    let start := billingServer account [] [] fun _ : Unit => monthOrder.request
    let events : List (SessionEvent Unit Time) := List.replicate 8 (.run () 0)
    let final := runActions Server.step start events
    (∀ i, (final.sessions i).script = .done (.activated (some (10 * Live.oneDay)))) ∧
    Along Server.step (ReadsInTime Alive) start events ∧
    final.db.row.credits = 520 ∧
    final.db.row.vipExpiresAt ≠ some (10 * Live.oneDay + monthOrder.duration) := by
  refine ⟨fun _ => rfl, by decide +kernel, by decide +kernel, by decide +kernel⟩

end QuantDinger.Analysis
