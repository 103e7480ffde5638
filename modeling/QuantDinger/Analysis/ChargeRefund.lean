import QuantDinger.Library.SerialOrder
import QuantDinger.Model.Billing

/-!
# Charges and refunds

Each call decides what to do by searching the log. With a reference there is at most one debit of a
feature, and at most one refund of it, so the net debit is the cost or zero. What goes wrong is what
the calls report: a charge finds the debit that has been refunded since, and a refund finds the
refund of another feature with the same reference.
-/

namespace QuantDinger.Analysis

open QuantDinger.Library QuantDinger.Model QuantDinger.Model.Billing

variable {cost : String → ℤ}

def chargeStep (cost : String → ℤ) (db : Database UserRow CreditEntry String) (call : ChargeCall) :
    Database UserRow CreditEntry String :=
  ((call.script cost).finish 0 db db).1

def chargeAnswer (cost : String → ℤ) (db : Database UserRow CreditEntry String)
    (call : ChargeCall) : Option (Except BillingError Charge) :=
  ((call.script cost).finish 0 db db).2

/-! ## The log -/

def debits (log : List CreditEntry) (feature referenceId : String) : ℕ :=
  log.countP fun entry =>
    entry.action = "consume" ∧ entry.feature = feature ∧ entry.referenceId = referenceId

def refunds (log : List CreditEntry) (feature referenceId : String) : ℕ :=
  log.countP fun entry =>
    entry.action = "refund" ∧ entry.feature = feature ∧ entry.referenceId = referenceId

/-- The net debit of a feature for a reference. -/
def netDebit (log : List CreditEntry) (feature referenceId : String) : Amount :=
  -((log.filter fun entry => (entry.action = "consume" ∨ entry.action = "refund") ∧
    entry.feature = feature ∧ entry.referenceId = referenceId).map CreditEntry.amount).sum

/-- The refunds of all features for a reference. -/
def refundsOf (log : List CreditEntry) (referenceId : String) : ℕ :=
  log.countP fun entry => entry.action = "refund" ∧ entry.referenceId = referenceId

def debitEntry (amount : ℤ) (balanceAfter : Amount) (feature referenceId : String) : CreditEntry :=
  { action := "consume"
    amount := -amount
    balanceAfter := balanceAfter
    feature := feature
    referenceId := referenceId }

def refundEntry (amount : ℤ) (balanceAfter : Amount) (feature referenceId : String) :
    CreditEntry :=
  { action := "refund"
    amount := amount
    balanceAfter := balanceAfter
    feature := feature
    referenceId := referenceId }

section Entries

variable (log : List CreditEntry) (amount : ℤ) (balance : Amount) (feature reference f r : String)

theorem debits_debit : debits (log ++ [debitEntry amount balance feature reference]) f r =
    debits log f r + if feature = f ∧ reference = r then 1 else 0 := by
  simp [debits, debitEntry]

theorem refunds_debit : refunds (log ++ [debitEntry amount balance feature reference]) f r =
    refunds log f r := by
  simp [refunds, debitEntry]

theorem debits_refund : debits (log ++ [refundEntry amount balance feature reference]) f r =
    debits log f r := by
  simp [debits, refundEntry]

theorem refunds_refund : refunds (log ++ [refundEntry amount balance feature reference]) f r =
    refunds log f r + if feature = f ∧ reference = r then 1 else 0 := by
  simp [refunds, refundEntry]

theorem netDebit_debit : netDebit (log ++ [debitEntry amount balance feature reference]) f r =
    netDebit log f r + if feature = f ∧ reference = r then (amount : Amount) else 0 := by
  unfold netDebit debitEntry
  by_cases hsame : feature = f ∧ reference = r
  · simp [List.filter_append, hsame]
    ring
  · simp [List.filter_append, hsame]

theorem netDebit_refund : netDebit (log ++ [refundEntry amount balance feature reference]) f r =
    netDebit log f r - if feature = f ∧ reference = r then (amount : Amount) else 0 := by
  unfold netDebit refundEntry
  by_cases hsame : feature = f ∧ reference = r
  · simp [List.filter_append, hsame]
    ring
  · simp [List.filter_append, hsame]

end Entries

theorem refunds_le_refundsOf (log : List CreditEntry) (feature reference : String) :
    refunds log feature reference ≤ refundsOf log reference := by
  refine List.countP_mono_left ?_
  intro entry _ h
  simp only [decide_eq_true_eq] at h ⊢
  exact ⟨h.1, h.2.2⟩

/-- What the log looks like after any calls. -/
structure Booked (cost : String → ℤ) (log : List CreditEntry) : Prop where
  debit : ∀ entry ∈ log, entry.action = "consume" → entry.amount = -cost entry.feature
  net : ∀ f r, netDebit log f r = ((debits log f r : Amount) - refunds log f r) * cost f
  covered : ∀ f r, refunds log f r ≤ debits log f r
  once : ∀ f r, r ≠ "" → debits log f r ≤ 1

theorem Booked.charged {log : List CreditEntry} (h : Booked cost log) {feature reference : String}
    (hnew : reference = "" ∨ debits log feature reference = 0) (balance : Amount) :
    Booked cost (log ++ [debitEntry (cost feature) balance feature reference]) := by
  refine ⟨?_, ?_, ?_, ?_⟩
  · intro entry hentry hconsume
    rcases List.mem_append.1 hentry with hentry | hentry
    · exact h.debit entry hentry hconsume
    · rw [List.mem_singleton.1 hentry]
      rfl
  · intro f r
    rw [netDebit_debit, debits_debit, refunds_debit, h.net]
    split_ifs with hsame
    · rw [hsame.1]
      push_cast
      ring
    · simp
  · intro f r
    rw [debits_debit, refunds_debit]
    exact (h.covered f r).trans (Nat.le_add_right _ _)
  · intro f r hr
    rw [debits_debit]
    split_ifs with hsame
    · obtain ⟨rfl, rfl⟩ := hsame
      rw [hnew.resolve_left hr]
    · exact h.once f r hr

theorem Booked.refunded {log : List CreditEntry} (h : Booked cost log) {feature reference : String}
    (hdebit : 0 < debits log feature reference) (hnone : refunds log feature reference = 0)
    (balance : Amount) :
    Booked cost (log ++ [refundEntry (cost feature) balance feature reference]) := by
  refine ⟨?_, ?_, ?_, ?_⟩
  · intro entry hentry hconsume
    rcases List.mem_append.1 hentry with hentry | hentry
    · exact h.debit entry hentry hconsume
    · rw [List.mem_singleton.1 hentry] at hconsume
      simp [refundEntry] at hconsume
  · intro f r
    rw [netDebit_refund, debits_refund, refunds_refund, h.net]
    split_ifs with hsame
    · rw [hsame.1]
      push_cast
      ring
    · simp
  · intro f r
    rw [debits_refund, refunds_refund]
    split_ifs with hsame
    · obtain ⟨rfl, rfl⟩ := hsame
      rw [hnone]
      exact hdebit
    · exact h.covered f r
  · intro f r hr
    rw [debits_refund]
    exact h.once f r hr

/-! ## What a call does -/

theorem lastEntry_none {log : List CreditEntry} {p : CreditEntry → Bool} :
    lastEntry log p = none ↔ log.countP p = 0 := by
  unfold lastEntry
  rw [List.find?_eq_none, List.countP_eq_zero]
  constructor
  · intro h entry hentry
    exact h entry (List.mem_reverse.2 hentry)
  · intro h entry hentry
    exact h entry (List.mem_reverse.1 hentry)

theorem lastEntry_some {log : List CreditEntry} {p : CreditEntry → Bool} {entry : CreditEntry}
    (h : lastEntry log p = some entry) : entry ∈ log ∧ p entry = true ∧ 0 < log.countP p := by
  have hmem : entry ∈ log := List.mem_reverse.1 (List.mem_of_find?_eq_some h)
  have hp : p entry = true := List.find?_some h
  exact ⟨hmem, hp, List.countP_pos_iff.2 ⟨entry, hmem, hp⟩⟩

/-- The outcomes of a charge. -/
inductive ConsumeOutcome (cost : String → ℤ) (db : Database UserRow CreditEntry String)
    (enabled : Bool) (feature referenceId : String) :
    Database UserRow CreditEntry String → Option (Except BillingError Charge) → Prop
  | found {charge : Charge} (hreference : referenceId ≠ "")
      (hdebit : 0 < debits db.entries feature referenceId) (hstatus : charge.status = "charged") :
      ConsumeOutcome cost db enabled feature referenceId db (some (.ok charge))
  | free {charge : Charge} (hnew : referenceId = "" ∨ debits db.entries feature referenceId = 0)
      (hfree : enabled = false) (hstatus : charge.status = "free") :
      ConsumeOutcome cost db enabled feature referenceId db (some (.ok charge))
  | short {e : BillingError} (hnew : referenceId = "" ∨ debits db.entries feature referenceId = 0)
      (hshort : db.row.credits < cost feature) :
      ConsumeOutcome cost db enabled feature referenceId db (some (.error e))
  | charged {later : Database UserRow CreditEntry String} {charge : Charge} {balance : Amount}
      (hnew : referenceId = "" ∨ debits db.entries feature referenceId = 0)
      (henabled : enabled = true) (hcovered : (cost feature : Amount) ≤ db.row.credits)
      (hentries : later.entries =
        db.entries ++ [debitEntry (cost feature) balance feature referenceId])
      (hstatus : charge.status = "charged") :
      ConsumeOutcome cost db enabled feature referenceId later (some (.ok charge))

theorem chargeNow_outcome {feature : String} (hcost : 0 < cost feature)
    {db : Database UserRow CreditEntry String} {charge : Charge} {enabled : Bool}
    {referenceId : String}
    (hfeature : charge.feature = feature) (hreference : charge.referenceId = referenceId)
    (hstatus : charge.status = "free")
    (hnew : referenceId = "" ∨ debits db.entries feature referenceId = 0) (balance : Amount) :
    ConsumeOutcome cost db enabled feature referenceId
      ((chargeNow charge enabled (cost feature) balance closeCall).finish 0 db db).1
      ((chargeNow charge enabled (cost feature) balance closeCall).finish 0 db db).2 := by
  subst hfeature hreference
  unfold chargeNow
  by_cases hfree : enabled = false ∨ cost charge.feature = 0
  · rw [if_pos hfree]
    exact .free hnew (hfree.resolve_right hcost.ne') hstatus
  · rw [if_neg hfree]
    obtain ⟨henabled, _⟩ := not_or.1 hfree
    unfold Script.finish
    dsimp only
    by_cases hcovered : (cost charge.feature : Amount) ≤ db.row.credits
    · rw [if_pos hcovered]
      exact .charged hnew (by simpa using henabled) hcovered rfl rfl
    · rw [if_neg hcovered]
      exact .short hnew (not_le.1 hcovered)

theorem consume_outcome {feature : String} (hcost : 0 < cost feature)
    (db : Database UserRow CreditEntry String) (enabled : Bool) (referenceId : String) :
    ConsumeOutcome cost db enabled feature referenceId
      (chargeStep cost db (.consume enabled feature referenceId))
      (chargeAnswer cost db (.consume enabled feature referenceId)) := by
  have hmax : max 0 (cost feature) = cost feature := max_eq_right hcost.le
  unfold chargeStep chargeAnswer ChargeCall.script consumeInTransaction Script.finish
  dsimp only
  rw [hmax]
  by_cases hreference : referenceId = ""
  · rw [if_pos hreference]
    refine chargeNow_outcome hcost ?_ ?_ ?_ (Or.inl hreference) _
    · rfl
    · rfl
    · rfl
  · rw [if_neg hreference]
    unfold Script.finish
    dsimp only
    cases hdebit : lastDebit db.entries feature referenceId with
    | some existing =>
      refine .found hreference (lastEntry_some hdebit).2.2 ?_
      rfl
    | none =>
      refine chargeNow_outcome hcost ?_ ?_ ?_ (Or.inr (lastEntry_none.1 hdebit)) _
      · rfl
      · rfl
      · rfl

theorem closeCall_ends (result : Except BillingError Charge) : (closeCall result).Ends := by
  cases result with
  | error e => exact ⟨_, rfl⟩
  | ok charge => exact ⟨_, rfl⟩

theorem chargeNow_ends (charge : Charge) (enabled : Bool) (amount : ℤ) (balance : Amount) :
    (chargeNow charge enabled amount balance closeCall).Ends := by
  unfold chargeNow
  split_ifs
  · exact closeCall_ends _
  · intro updated
    cases updated with
    | none => exact closeCall_ends _
    | some row => exact closeCall_ends _

theorem call_ends (call : ChargeCall) : (call.script cost).Ends := by
  cases call with
  | consume enabled feature referenceId =>
    intro account
    dsimp only
    split_ifs
    · exact chargeNow_ends _ _ _ _
    · intro log
      dsimp only
      cases lastDebit log feature referenceId with
      | some existing => exact closeCall_ends _
      | none => exact chargeNow_ends _ _ _ _
  | refund charge =>
    unfold ChargeCall.script refundInTransaction
    dsimp only
    split_ifs
    · exact closeCall_ends _
    · intro account log
      dsimp only
      cases lastDebit log charge.feature charge.referenceId with
      | none => exact closeCall_ends _
      | some debit =>
        intro log
        dsimp only
        cases lastRefund log charge.referenceId with
        | some refund => exact closeCall_ends _
        | none =>
          intro updated
          cases updated with
          | none => exact trivial
          | some row => exact closeCall_ends _

/-- The outcomes of a refund. -/
inductive RefundOutcome (cost : String → ℤ) (db : Database UserRow CreditEntry String)
    (charge : Charge) : Database UserRow CreditEntry String → Prop
  | unchanged (h : charge.charged ≤ 0 ∨ debits db.entries charge.feature charge.referenceId = 0 ∨
      0 < refundsOf db.entries charge.referenceId) : RefundOutcome cost db charge db
  | refunded {later : Database UserRow CreditEntry String} {balance : Amount}
      (hdebit : 0 < debits db.entries charge.feature charge.referenceId)
      (hnone : refundsOf db.entries charge.referenceId = 0)
      (hentries : later.entries = db.entries ++
        [refundEntry (cost charge.feature) balance charge.feature charge.referenceId]) :
      RefundOutcome cost db charge later

theorem refund_outcome {db : Database UserRow CreditEntry String} (hbooked : Booked cost db.entries)
    {charge : Charge} (hcost : 0 < cost charge.feature) :
    RefundOutcome cost db charge (chargeStep cost db (.refund charge)) ∧
      (chargeAnswer cost db (.refund charge)).isSome = true := by
  unfold chargeStep chargeAnswer ChargeCall.script refundInTransaction
  dsimp only
  by_cases hcharged : charge.charged ≤ 0
  · rw [if_pos hcharged]
    exact ⟨.unchanged (Or.inl hcharged), rfl⟩
  · rw [if_neg hcharged]
    unfold Script.finish
    unfold Script.finish
    dsimp only
    cases hdebit : lastDebit db.entries charge.feature charge.referenceId with
    | none => exact ⟨.unchanged (Or.inr (Or.inl (lastEntry_none.1 hdebit))), rfl⟩
    | some debit =>
      obtain ⟨hmem, hp, hpos⟩ := lastEntry_some hdebit
      obtain ⟨hconsume, hfeature, -⟩ := of_decide_eq_true hp
      have hamount : ⌊|debit.amount|⌋ = cost charge.feature := by
        rw [hbooked.debit debit hmem hconsume, hfeature, abs_neg,
          abs_of_pos (Int.cast_pos.2 hcost), Int.floor_intCast]
      dsimp only
      rw [hamount]
      unfold Script.finish
      dsimp only
      cases hrefund : lastRefund db.entries charge.referenceId with
      | some refund =>
        exact ⟨.unchanged (Or.inr (Or.inr (lastEntry_some hrefund).2.2)), rfl⟩
      | none => exact ⟨.refunded hpos (lastEntry_none.1 hrefund) rfl, rfl⟩

/-! ## Fair calls -/

def Paired (cost : String → ℤ) (log : List CreditEntry) : Prop :=
  ∀ f r, netDebit log f r = 0 ∨ netDebit log f r = cost f

/-- What a call may do: net debits are of the cost or nothing; no charge is refunded twice; what is
reported as charged is debited; a refund pays back a debit of its own feature that has not been
refunded, and touches no other. -/
structure FairOutcome (cost : String → ℤ) (db later : Database UserRow CreditEntry String)
    (call : ChargeCall) (answer : Option (Except BillingError Charge)) : Prop where
  paired : Paired cost later.entries
  covered : ∀ f r, refunds later.entries f r ≤ debits later.entries f r
  reported : ∀ enabled f r charge, call = .consume enabled f r → answer = some (.ok charge) →
    charge.status = "charged" → netDebit later.entries f r = cost f
  paysBack : ∀ charge, call = .refund charge → 0 < charge.charged →
    0 < debits db.entries charge.feature charge.referenceId →
    refunds db.entries charge.feature charge.referenceId = 0 →
    netDebit later.entries charge.feature charge.referenceId = 0
  apart : ∀ charge f r, call = .refund charge →
    ¬ (charge.feature = f ∧ charge.referenceId = r) →
    netDebit later.entries f r = netDebit db.entries f r

def Fair (cost : String → ℤ) (db : Database UserRow CreditEntry String) (call : ChargeCall) :
    Prop :=
  FairOutcome cost db (chargeStep cost db call) call (chargeAnswer cost db call)

/-- A call finds what it expects: a charge with a reference is not for work that has been refunded,
one without a reference is for a feature without an open charge of that kind, and a refund finds no
refund of another feature for its reference. -/
def Proper (cost : String → ℤ) (db : Database UserRow CreditEntry String) : ChargeCall → Prop
  | .consume enabled feature referenceId =>
    if referenceId = "" then
      enabled = false ∨ db.row.credits < cost feature ∨ netDebit db.entries feature "" = 0
    else debits db.entries feature referenceId = 0 ∨ refunds db.entries feature referenceId = 0
  | .refund charge =>
    charge.charged ≤ 0 ∨ debits db.entries charge.feature charge.referenceId = 0 ∨
      0 < refunds db.entries charge.feature charge.referenceId ∨
      refundsOf db.entries charge.referenceId = 0

theorem netDebit_open {log : List CreditEntry} (hbooked : Booked cost log) {f r : String}
    (hr : r ≠ "") (hdebit : 0 < debits log f r) (hrefund : refunds log f r = 0) :
    netDebit log f r = cost f := by
  have hone : debits log f r = 1 := le_antisymm (hbooked.once f r hr) hdebit
  rw [hbooked.net, hone, hrefund]
  simp

theorem netDebit_refunded {log : List CreditEntry} (hbooked : Booked cost log) {f r : String}
    (hr : r ≠ "") (hrefund : 0 < refunds log f r) : netDebit log f r = 0 := by
  have hcovered := hbooked.covered f r
  have honce := hbooked.once f r hr
  have hsame : debits log f r = refunds log f r := by omega
  rw [hbooked.net, hsame, sub_self, zero_mul]

section Consume

variable {db later : Database UserRow CreditEntry String} {enabled : Bool} {f r : String}
  {answer : Option (Except BillingError Charge)}

theorem fair_kept (hbooked : Booked cost db.entries) (hpaired : Paired cost db.entries)
    (hreported : ∀ charge, answer = some (.ok charge) → charge.status = "charged" →
      netDebit db.entries f r = cost f) :
    FairOutcome cost db db (.consume enabled f r) answer := by
  refine ⟨hpaired, hbooked.covered, ?_, ?_, ?_⟩
  · intro enabled' f' r' charge hcall hanswer hstatus
    cases hcall
    exact hreported charge hanswer hstatus
  · intro charge hcall
    exact nomatch hcall
  · intro charge f' r' hcall
    exact nomatch hcall

theorem fair_charged (hbooked : Booked cost db.entries) (hpaired : Paired cost db.entries)
    {balance : Amount} (hnew : r = "" ∨ debits db.entries f r = 0)
    (hentries : later.entries = db.entries ++ [debitEntry (cost f) balance f r])
    (hnone : netDebit db.entries f r = 0) :
    FairOutcome cost db later (.consume enabled f r) answer := by
  have hnet : netDebit later.entries f r = cost f := by
    rw [hentries, netDebit_debit, hnone, if_pos ⟨rfl, rfl⟩, zero_add]
  refine ⟨?_, ?_, ?_, ?_, ?_⟩
  · intro f' r'
    by_cases hsame : f = f' ∧ r = r'
    · obtain ⟨rfl, rfl⟩ := hsame
      exact Or.inr hnet
    · rw [hentries, netDebit_debit, if_neg hsame, add_zero]
      exact hpaired f' r'
  · rw [hentries]
    exact (hbooked.charged hnew balance).covered
  · intro enabled' f' r' charge hcall _ _
    cases hcall
    exact hnet
  · intro charge hcall
    exact nomatch hcall
  · intro charge f' r' hcall
    exact nomatch hcall

theorem consume_fair_iff (hcost : 0 < cost f) (hbooked : Booked cost db.entries)
    (hpaired : Paired cost db.entries) :
    Fair cost db (.consume enabled f r) ↔ Proper cost db (.consume enabled f r) := by
  have houtcome := consume_outcome hcost db enabled r
  have hcash : (0 : Amount) < cost f := Int.cast_pos.2 hcost
  unfold Fair Proper
  dsimp only
  generalize chargeStep cost db (.consume enabled f r) = later at houtcome ⊢
  generalize chargeAnswer cost db (.consume enabled f r) = answer at houtcome ⊢
  cases houtcome with
  | found hreference hdebit hstatus =>
    rw [if_neg hreference]
    constructor
    · intro h
      have hnet := h.reported enabled f r _ rfl rfl hstatus
      refine Or.inr (Nat.eq_zero_of_not_pos ?_)
      intro hrefund
      rw [netDebit_refunded hbooked hreference hrefund] at hnet
      exact hcash.ne hnet
    · intro h
      refine fair_kept hbooked hpaired fun _ _ _ => ?_
      exact netDebit_open hbooked hreference hdebit (h.resolve_left hdebit.ne')
  | free hnew hfree hstatus =>
    have hproper : if r = "" then enabled = false ∨ db.row.credits < cost f ∨
          netDebit db.entries f "" = 0
        else debits db.entries f r = 0 ∨ refunds db.entries f r = 0 := by
      split_ifs with hreference
      · exact Or.inl hfree
      · exact Or.inl (hnew.resolve_left hreference)
    refine ⟨fun _ => hproper, fun _ => fair_kept hbooked hpaired ?_⟩
    intro charge hanswer hcharged
    cases hanswer
    rw [hstatus] at hcharged
    exact absurd hcharged (by decide)
  | short hnew hshort =>
    have hproper : if r = "" then enabled = false ∨ db.row.credits < cost f ∨
          netDebit db.entries f "" = 0
        else debits db.entries f r = 0 ∨ refunds db.entries f r = 0 := by
      split_ifs with hreference
      · exact Or.inr (Or.inl hshort)
      · exact Or.inl (hnew.resolve_left hreference)
    refine ⟨fun _ => hproper, fun _ => fair_kept hbooked hpaired ?_⟩
    intro charge hanswer
    exact nomatch hanswer
  | charged hnew henabled hcovered hentries hstatus =>
    by_cases hreference : r = ""
    · rw [if_pos hreference]
      constructor
      · intro h
        have hnet := h.reported enabled f r _ rfl rfl hstatus
        rw [hentries, netDebit_debit, if_pos ⟨rfl, rfl⟩] at hnet
        refine Or.inr (Or.inr ?_)
        rw [← hreference]
        linarith
      · rintro (hfree | hshort | hnone)
        · rw [henabled] at hfree
          exact nomatch hfree
        · exact absurd hcovered (not_le.2 hshort)
        · rw [← hreference] at hnone
          exact fair_charged hbooked hpaired hnew hentries hnone
    · rw [if_neg hreference]
      have hzero := hnew.resolve_left hreference
      have hnone : netDebit db.entries f r = 0 := by
        have hrefunds : refunds db.entries f r = 0 :=
          Nat.le_zero.1 (hzero ▸ hbooked.covered f r)
        rw [hbooked.net, hzero, hrefunds]
        simp
      exact ⟨fun _ => Or.inl hzero, fun _ => fair_charged hbooked hpaired hnew hentries hnone⟩

end Consume

theorem refund_fair_iff {db : Database UserRow CreditEntry String} {charge : Charge}
    (hcost : 0 < cost charge.feature) (hbooked : Booked cost db.entries)
    (hpaired : Paired cost db.entries) :
    Fair cost db (.refund charge) ↔ Proper cost db (.refund charge) := by
  have houtcome := (refund_outcome hbooked hcost).1
  have hcash : (0 : Amount) < cost charge.feature := Int.cast_pos.2 hcost
  unfold Fair Proper
  dsimp only
  generalize chargeStep cost db (.refund charge) = later at houtcome ⊢
  generalize chargeAnswer cost db (.refund charge) = answer
  cases houtcome with
  | unchanged hkept =>
    constructor
    · intro h
      by_contra hnot
      obtain ⟨hcharged, hdebit, hrefund, -⟩ := by simpa only [not_or] using hnot
      have hopen := h.paysBack charge rfl (not_le.1 hcharged) (Nat.pos_of_ne_zero hdebit)
        (Nat.eq_zero_of_not_pos hrefund)
      rw [hbooked.net, Nat.eq_zero_of_not_pos hrefund, Nat.cast_zero, sub_zero] at hopen
      rcases mul_eq_zero.1 hopen with hzero | hzero
      · exact hdebit (Nat.cast_eq_zero.1 hzero)
      · exact hcash.ne' hzero
    · intro h
      refine ⟨hpaired, hbooked.covered, ?_, ?_, fun _ _ _ _ _ => rfl⟩
      · intro enabled f r charge' hcall
        exact nomatch hcall
      · intro charge' hcall hcharged hdebit hrefund
        cases hcall
        rcases hkept with hfree | hzero | hany
        · exact absurd hcharged (not_lt.2 hfree)
        · exact absurd hzero hdebit.ne'
        · rcases h with hfree | hzero | hown | hnone
          · exact absurd hcharged (not_lt.2 hfree)
          · exact absurd hzero hdebit.ne'
          · exact absurd hrefund hown.ne'
          · exact absurd hnone hany.ne'
  | refunded hdebit hnone hentries =>
    have hrefunds : refunds db.entries charge.feature charge.referenceId = 0 :=
      Nat.le_zero.1 (hnone ▸ refunds_le_refundsOf _ _ _)
    have hopen : netDebit db.entries charge.feature charge.referenceId = cost charge.feature := by
      refine (hpaired _ _).resolve_left ?_
      rw [hbooked.net, hrefunds, Nat.cast_zero, sub_zero]
      exact mul_ne_zero (Nat.cast_ne_zero.2 hdebit.ne') hcash.ne'
    have hnet : netDebit later.entries charge.feature charge.referenceId = 0 := by
      rw [hentries, netDebit_refund, hopen, if_pos ⟨rfl, rfl⟩, sub_self]
    have hapart : ∀ f r, ¬ (charge.feature = f ∧ charge.referenceId = r) →
        netDebit later.entries f r = netDebit db.entries f r := by
      intro f r hother
      rw [hentries, netDebit_refund, if_neg hother, sub_zero]
    refine ⟨fun _ => Or.inr (Or.inr (Or.inr hnone)), fun _ => ⟨?_, ?_, ?_, ?_, ?_⟩⟩
    · intro f r
      by_cases hsame : charge.feature = f ∧ charge.referenceId = r
      · obtain ⟨rfl, rfl⟩ := hsame
        exact Or.inl hnet
      · rw [hapart f r hsame]
        exact hpaired f r
    · rw [hentries]
      exact (hbooked.refunded hdebit hrefunds _).covered
    · intro enabled f r charge' hcall
      exact nomatch hcall
    · intro charge' hcall _ _ _
      cases hcall
      exact hnet
    · intro charge' f r hcall hother
      cases hcall
      exact hapart f r hother

/-! ## Runs -/

theorem booked_step (hcost : ∀ feature, 0 < cost feature)
    {db : Database UserRow CreditEntry String} (h : Booked cost db.entries) (call : ChargeCall) :
    Booked cost (chargeStep cost db call).entries := by
  cases call with
  | consume enabled f r =>
    have houtcome := consume_outcome (hcost f) db enabled r
    generalize chargeStep cost db (.consume enabled f r) = later at houtcome ⊢
    generalize chargeAnswer cost db (.consume enabled f r) = answer at houtcome
    cases houtcome with
    | found _ _ _ => exact h
    | free _ _ _ => exact h
    | short _ _ => exact h
    | charged hnew _ _ hentries _ =>
      rw [hentries]
      exact h.charged hnew _
  | refund charge =>
    have houtcome := (refund_outcome h (hcost charge.feature)).1
    generalize chargeStep cost db (.refund charge) = later at houtcome ⊢
    cases houtcome with
    | unchanged _ => exact h
    | refunded hdebit hnone hentries =>
      rw [hentries]
      exact h.refunded hdebit (Nat.le_zero.1 (hnone ▸ refunds_le_refundsOf _ _ _)) _

instance (db : Database UserRow CreditEntry String) (call : ChargeCall) :
    Decidable (Proper cost db call) := by
  unfold Proper
  cases call with
  | consume enabled f r =>
    dsimp only
    infer_instance
  | refund charge =>
    dsimp only
    infer_instance

theorem booked_start {log : List CreditEntry}
    (h : ∀ entry ∈ log, entry.action ≠ "consume" ∧ entry.action ≠ "refund") :
    Booked cost log ∧ Paired cost log := by
  have hdebits : ∀ f r, debits log f r = 0 := by
    intro f r
    refine List.countP_eq_zero.2 ?_
    intro entry hentry
    simp [(h entry hentry).1]
  have hrefunds : ∀ f r, refunds log f r = 0 := by
    intro f r
    refine List.countP_eq_zero.2 ?_
    intro entry hentry
    simp [(h entry hentry).2]
  have hnet : ∀ f r, netDebit log f r = 0 := by
    intro f r
    have hnone : (log.filter fun entry => (entry.action = "consume" ∨ entry.action = "refund") ∧
        entry.feature = f ∧ entry.referenceId = r) = [] := by
      refine List.filter_eq_nil_iff.2 ?_
      intro entry hentry
      simp [(h entry hentry).1, (h entry hentry).2]
    unfold netDebit
    rw [hnone]
    rfl
  refine ⟨⟨?_, ?_, ?_, ?_⟩, fun f r => Or.inl (hnet f r)⟩
  · intro entry hentry hconsume
    exact absurd hconsume (h entry hentry).1
  · intro f r
    rw [hnet, hdebits, hrefunds]
    simp
  · intro f r
    rw [hrefunds]
    exact Nat.zero_le _
  · intro f r _
    rw [hdebits]
    exact Nat.zero_le _

theorem fair_run_iff (hcost : ∀ feature, 0 < cost feature)
    {db : Database UserRow CreditEntry String} (hbooked : Booked cost db.entries)
    (hpaired : Paired cost db.entries) (calls : List ChargeCall) :
    Along (chargeStep cost) (Fair cost) db calls ↔
      Along (chargeStep cost) (Proper cost) db calls := by
  induction calls generalizing db with
  | nil => exact Iff.rfl
  | cons call calls ih =>
    have hcall : Fair cost db call ↔ Proper cost db call := by
      cases call with
      | consume enabled f r => exact consume_fair_iff (hcost f) hbooked hpaired
      | refund charge => exact refund_fair_iff (hcost charge.feature) hbooked hpaired
    constructor
    · rintro ⟨hfair, hrest⟩
      exact ⟨hcall.1 hfair, (ih (booked_step hcost hbooked call) hfair.paired).1 hrest⟩
    · rintro ⟨hproper, hrest⟩
      have hfair := hcall.2 hproper
      exact ⟨hfair, (ih (booked_step hcost hbooked call) hfair.paired).2 hrest⟩

/-- In a sequence of charges and refunds, every call does what it may do exactly if every call finds
what it expects. -/
theorem charges_pair_up_iff (hcost : ∀ feature, 0 < cost feature)
    {db : Database UserRow CreditEntry String}
    (hlog : ∀ entry ∈ db.entries, entry.action ≠ "consume" ∧ entry.action ≠ "refund")
    (calls : List ChargeCall) :
    Along (chargeStep cost) (Fair cost) db calls ↔
      Along (chargeStep cost) (Proper cost) db calls :=
  fair_run_iff hcost (booked_start hlog).1 (booked_start hlog).2 calls

/-- The calls are transactions that run one after another. -/
theorem charges_serial (hcost : ∀ feature, 0 < cost feature)
    {db : Database UserRow CreditEntry String} (hbooked : Booked cost db.entries)
    (calls : List ChargeCall) :
    Serial (fun _ _ => True) (ChargeCall.script cost) db calls
      (runActions (chargeStep cost) db calls) ∧
    Booked cost (runActions (chargeStep cost) db calls).entries := by
  induction calls using List.reverseRecOn with
  | nil => exact ⟨.nil db, hbooked⟩
  | append_singleton calls call ih =>
    obtain ⟨hserial, hkept⟩ := ih
    have hlast : runActions (chargeStep cost) db (calls ++ [call]) =
        chargeStep cost (runActions (chargeStep cost) db calls) call := by
      unfold runActions
      rw [List.foldl_append]
      rfl
    rw [hlast]
    generalize runActions (chargeStep cost) db calls = mid at hserial hkept ⊢
    refine ⟨?_, booked_step hcost hkept call⟩
    have hanswer : ∃ answer, chargeAnswer cost mid call = some answer := by
      cases call with
      | consume enabled f r =>
        have houtcome := consume_outcome (hcost f) mid enabled r
        generalize chargeStep cost mid (.consume enabled f r) = later at houtcome
        generalize chargeAnswer cost mid (.consume enabled f r) = answer at houtcome ⊢
        cases houtcome with
        | found _ _ _ => exact ⟨_, rfl⟩
        | free _ _ _ => exact ⟨_, rfl⟩
        | short _ _ => exact ⟨_, rfl⟩
        | charged _ _ _ _ _ => exact ⟨_, rfl⟩
      | refund charge =>
        exact Option.isSome_iff_exists.1 (refund_outcome hkept (hcost charge.feature)).2
    obtain ⟨answer, hanswer⟩ := hanswer
    exact .snoc hserial
      (alone_finish (fun _ => trivial) (call_ends call) (Prod.ext rfl hanswer))

/-! ## Two features of one job -/

def hundredCredits : Database UserRow CreditEntry String := { row := { credits := 100 } }

def fiveCharged (feature : String) : Charge :=
  { enabled := true
    feature := feature
    cost := 5
    charged := 5
    remaining := 95
    referenceId := "job-1"
    status := "charged" }

def twoRefunds : List ChargeCall :=
  [.consume true "analysis" "job-1", .consume true "export" "job-1",
    .refund (fiveCharged "analysis"), .refund (fiveCharged "export")]

/-- The charges and the refunds of the two features are transactions. -/
theorem two_refunds_serial :
    Booked (fun _ => 5) (runActions (chargeStep fun _ => 5) hundredCredits twoRefunds).entries :=
  (charges_serial (fun _ => by decide)
    (booked_start fun _ hmem => absurd hmem List.not_mem_nil).1 twoRefunds).2

/-- The refund of the first blocks the refund of the second, and a new charge of the first is
reported where nothing is debited. -/
theorem other_refund_blocks :
    let db := runActions (chargeStep fun _ => 5) hundredCredits twoRefunds
    netDebit db.entries "export" "job-1" = 5 ∧
    ¬ Along (chargeStep fun _ => 5) (Fair fun _ => 5) hundredCredits twoRefunds ∧
    ((chargeAnswer (fun _ => 5) db (.consume true "analysis" "job-1")).map
      fun answer => answer.toOption.map Charge.status) = some (some "charged") ∧
    netDebit (chargeStep (fun _ => 5) db (.consume true "analysis" "job-1")).entries
      "analysis" "job-1" = 0 := by
  have hcharge : ((chargeAnswer (fun _ => 5)
      (runActions (chargeStep fun _ => 5) hundredCredits twoRefunds)
      (.consume true "analysis" "job-1")).map fun answer => answer.toOption.map Charge.status) =
      some (some "charged") := by decide +kernel
  refine ⟨by decide +kernel, ?_, hcharge, by decide +kernel⟩
  rintro ⟨-, -, -, hrefund, -⟩
  have hpaid := hrefund.paysBack (fiveCharged "export") rfl (by decide) (by decide +kernel)
    (by decide +kernel)
  exact absurd hpaid (by decide +kernel)

/-- A charge of one feature that is refunded once, and a charge of another job. -/
theorem one_refund_fair :
    Along (chargeStep fun _ => 5) (Fair fun _ => 5) hundredCredits
      [.consume true "analysis" "job-1", .refund (fiveCharged "analysis"),
        .consume true "analysis" "job-2"] :=
  (charges_pair_up_iff (fun _ => by decide) (fun _ h => absurd h List.not_mem_nil) _).2 (by decide +kernel)

end QuantDinger.Analysis
