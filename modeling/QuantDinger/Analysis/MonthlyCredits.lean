import QuantDinger.Library.TimedOrder
import QuantDinger.Model.Billing

/-!
# The monthly credits of members for life

The transaction of a balance poll begins by altering the table of the users, so the polls of a
user run one after another. Each grants the whole periods since the last grant and then counts
from its own time, not from the end of the last period it granted: what is left over is lost. A
schedule of polls is credited in full exactly when the times lost add up to less than a period.
-/

namespace QuantDinger.Analysis

open QuantDinger.Library QuantDinger.Model QuantDinger.Model.Billing

/-! ## Schedules of polls -/

/-- A period of 30 days, in the unit of the clock. -/
def grantPeriod : Time := 30 * Live.oneDay

/-- The periods that polls grant, counted from an anchor. -/
def periodsGranted : Time → List Time → ℤ
  | _, [] => 0
  | anchor, t :: rest =>
    if grantPeriod ≤ t - anchor then (t - anchor) / grantPeriod + periodsGranted t rest
    else periodsGranted anchor rest

/-- The time that no grant covers: what the granting polls leave over whole periods, and what has
passed between the last of them and the end. -/
def timeLeftOver (last : Time) : Time → List Time → Time
  | anchor, [] => last - anchor
  | anchor, t :: rest =>
    if grantPeriod ≤ t - anchor then (t - anchor) % grantPeriod + timeLeftOver last t rest
    else timeLeftOver last anchor rest

/-- The polls are in order, and no gap is longer than six periods. -/
def GapsWithinSix : Time → List Time → Prop
  | _, [] => True
  | prev, t :: rest => prev ≤ t ∧ t - prev ≤ 6 * grantPeriod ∧ GapsWithinSix t rest

instance decidableGapsWithinSix : (prev : Time) → (times : List Time) →
    Decidable (GapsWithinSix prev times)
  | _, [] => isTrue trivial
  | prev, t :: rest =>
    @instDecidableAnd (prev ≤ t) _ _
      (@instDecidableAnd (t - prev ≤ 6 * grantPeriod) _ _ (decidableGapsWithinSix t rest))

theorem grantPeriod_pos : 0 < grantPeriod := by
  unfold grantPeriod
  decide

theorem period_mul_granted (last : Time) (times : List Time) (anchor : Time) :
    grantPeriod * periodsGranted anchor times + timeLeftOver last anchor times =
      last - anchor := by
  induction times generalizing anchor with
  | nil => simp [periodsGranted, timeLeftOver]
  | cons t rest ih =>
    unfold periodsGranted timeLeftOver
    split
    · have hwhole := Int.mul_ediv_add_emod (t - anchor) grantPeriod
      have hrest := ih t
      rw [mul_add]
      linarith
    · exact ih anchor

theorem timeLeftOver_nonneg {last : Time} (times : List Time) {prev : Time}
    (hgaps : GapsWithinSix prev times) (hlast : last = times.getLastD prev) {anchor : Time}
    (ha : anchor ≤ prev) : 0 ≤ timeLeftOver last anchor times := by
  induction times generalizing prev anchor with
  | nil =>
    rw [hlast]
    exact sub_nonneg.mpr ha
  | cons t rest ih =>
    obtain ⟨hle, -, hrest⟩ := hgaps
    rw [List.getLastD_cons] at hlast
    unfold timeLeftOver
    split
    · exact add_nonneg (Int.emod_nonneg _ grantPeriod_pos.ne') (ih hrest hlast le_rfl)
    · exact ih hrest hlast (ha.trans hle)

theorem periodsGranted_eq_iff {start : Time} {times : List Time}
    (hgaps : GapsWithinSix start times) :
    periodsGranted start times = (times.getLastD start - start) / grantPeriod ↔
      timeLeftOver (times.getLastD start) start times < grantPeriod := by
  have hsplit := period_mul_granted (times.getLastD start) times start
  have hnonneg := timeLeftOver_nonneg times hgaps rfl (le_refl start)
  rw [← hsplit, Int.add_comm, Int.add_mul_ediv_left _ _ grantPeriod_pos.ne', eq_comm,
    add_eq_right]
  constructor
  · intro hzero
    have hrest :=
      Int.mul_ediv_add_emod (timeLeftOver (times.getLastD start) start times) grantPeriod
    rw [hzero, mul_zero, zero_add] at hrest
    rw [← hrest]
    exact Int.emod_lt_of_pos _ grantPeriod_pos
  · exact Int.ediv_eq_zero_of_lt hnonneg

/-! ## Runs of polls -/

/-- A member for life whose membership has been granted and does not expire before the polls. -/
structure PolledMember {ι : Type} (time : ι → Time) (row : UserRow) : Prop where
  lifetime : row.vipIsLifetime = true
  granted : row.vipMonthlyCreditsLastGrant ≠ none
  current : ∀ expires ∈ row.vipExpiresAt, ∀ i, time i < expires

section Run

variable {ι : Type} [Fintype ι] [DecidableEq ι]

/-- The balance polls of a user, each in its own session. -/
def pollServer (ι : Type) (account : UserRow) (log : List CreditEntry) (fulfilled : List String)
    (monthlyCredits : ℕ) : Server ι UserRow CreditEntry String Time BillingReply :=
  billingServer account log fulfilled fun _ : ι => .checkVip monthlyCredits

def polledDatabase (account : UserRow) (log : List CreditEntry) (fulfilled : List String)
    (monthlyCredits : ℕ) (events : List (SessionEvent ι Time)) :
    Server ι UserRow CreditEntry String Time BillingReply :=
  runActions Server.step (pollServer ι account log fulfilled monthlyCredits) events

/-- Polls of a member in any interleaving, each at its time, and those that have finished in the
order of their times, with gaps of at most six periods. -/
structure PollSchedule (account : UserRow) (log : List CreditEntry) (fulfilled : List String)
    (monthlyCredits : ℕ) (start : Time) (time : ι → Time) (events : List (SessionEvent ι Time))
    (order : List ι) : Prop where
  member : PolledMember time account
  anchored : account.vipMonthlyCreditsLastGrant = some start
  reads : Along Server.step (ReadsOnTime time) (pollServer ι account log fulfilled monthlyCredits)
    events
  nodup : order.Nodup
  listed : ∀ i, i ∈ order ↔ ((polledDatabase account log fulfilled monthlyCredits
    events).sessions i).script.Finished
  sorted : (order.map time).Pairwise (· ≤ ·)
  gaps : GapsWithinSix start (order.map time)

/-- The member has the monthly credits of every whole period up to the last poll. -/
def CreditedInFull (account : UserRow) (log : List CreditEntry) (fulfilled : List String)
    (monthlyCredits : ℕ) (start : Time) (time : ι → Time) (events : List (SessionEvent ι Time))
    (order : List ι) : Prop :=
  (polledDatabase account log fulfilled monthlyCredits events).db.row.credits = account.credits +
    ((monthlyCredits * (((order.map time).getLastD start - start) / grantPeriod) : ℤ) : Amount)

end Run

/-! ## Polls of a member -/

/-- The row of a member after a poll at the time. -/
def pollRow (monthlyCredits : ℕ) (t : Time) (row : UserRow) : UserRow :=
  match row.vipMonthlyCreditsLastGrant with
  | none => row
  | some last =>
    if grantPeriods t last ≤ 0 then row
    else { row with
      credits := row.credits + ((monthlyCredits * grantPeriods t last : ℤ) : Amount)
      vipMonthlyCreditsLastGrant := some t }

section Polls

variable {ι : Type} {time : ι → Time} {monthlyCredits : ℕ}

theorem pollRow_member {row : UserRow} (h : PolledMember time row) (t : Time) :
    PolledMember time (pollRow monthlyCredits t row) := by
  unfold pollRow
  split
  · exact h
  · split
    · exact h
    · exact ⟨h.lifetime, Option.some_ne_none _, h.current⟩

theorem poll_ends : ∃ body, grantLifetimeMonthlyCredits monthlyCredits = .exclusive body ∧
    body.Ends := by
  refine ⟨_, rfl, ?_⟩
  intro row
  dsimp only
  split
  · exact ⟨_, rfl⟩
  · intro now
    dsimp only
    split
    · exact ⟨_, rfl⟩
    · split
      · exact fun _ => ⟨_, rfl⟩
      · split
        · exact ⟨_, rfl⟩
        · exact fun _ _ _ => ⟨_, rfl⟩

theorem poll_transacts (hmonthly : 0 < monthlyCredits) (i : ι) :
    (grantLifetimeMonthlyCredits monthlyCredits).Transacts (fun db => PolledMember time db.row)
      (fun db later => later.row = pollRow monthlyCredits (time i) db.row) (time i) := by
  intro A db h
  have hpays : ¬ (db.row.vipIsLifetime = false ∨ (monthlyCredits : ℤ) ≤ 0) := by
    rw [h.lifetime]
    push Not
    exact ⟨nofun, by exact_mod_cast hmonthly⟩
  unfold grantLifetimeMonthlyCredits
  dsimp only
  show Script.Ensures _ _ (if db.row.vipIsLifetime = false ∨ (monthlyCredits : ℤ) ≤ 0 then _
    else _) db db
  rw [if_neg hpays]
  rintro now ⟨rfl, hA⟩
  have hcurrent : ¬ ∃ expires ∈ db.row.vipExpiresAt, expires ≤ time i := by
    rintro ⟨expires, hm, hle⟩
    exact absurd (h.current expires hm i) (not_lt.mpr hle)
  dsimp only
  rw [if_neg hcurrent]
  unfold pollRow
  cases hlast : db.row.vipMonthlyCreditsLastGrant with
  | none => exact absurd hlast h.granted
  | some last =>
    dsimp only
    by_cases hdue : grantPeriods (time i) last ≤ 0
    · rw [if_pos hdue, if_pos hdue]
      exact ⟨rfl, hA⟩
    · rw [if_neg hdue, if_neg hdue]
      exact ⟨rfl, hA⟩

theorem pollRow_eq {row : UserRow} {last t : Time}
    (hlast : row.vipMonthlyCreditsLastGrant = some last)
    (hcap : t - last < 7 * grantPeriod) :
    pollRow monthlyCredits t row =
      if grantPeriod ≤ t - last then { row with
        credits := row.credits + ((monthlyCredits * ((t - last) / grantPeriod) : ℤ) : Amount)
        vipMonthlyCreditsLastGrant := some t }
      else row := by
  have hperiods : grantPeriods t last = (t - last) / grantPeriod := by
    have hdiv : (t - last) / Live.oneDay / 30 = (t - last) / grantPeriod := by
      rw [Int.ediv_ediv_of_nonneg (by decide), mul_comm]
      rfl
    unfold grantPeriods
    rw [hdiv]
    exact min_eq_right (Int.lt_add_one_iff.mp (Int.ediv_lt_of_lt_mul grantPeriod_pos hcap))
  have hdue : grantPeriods t last ≤ 0 ↔ ¬ grantPeriod ≤ t - last := by
    rw [hperiods, ← not_lt, not_iff_not, Int.lt_iff_add_one_le, zero_add,
      Int.le_ediv_iff_mul_le grantPeriod_pos, one_mul]
  unfold pollRow
  rw [hlast]
  dsimp only
  by_cases hgrant : grantPeriod ≤ t - last
  · rw [if_neg (by rw [hdue]; exact not_not.mpr hgrant), if_pos hgrant, hperiods]
  · rw [if_pos (hdue.mpr hgrant), if_neg hgrant]

theorem foldl_pollRow (times : List Time) {row : UserRow} {anchor prev : Time}
    (hanchor : row.vipMonthlyCreditsLastGrant = some anchor) (hprev : anchor ≤ prev)
    (hrecent : prev - anchor < grantPeriod) (hgaps : GapsWithinSix prev times) :
    (times.foldl (fun row t => pollRow monthlyCredits t row) row).credits =
      row.credits + ((monthlyCredits * periodsGranted anchor times : ℤ) : Amount) := by
  induction times generalizing row anchor prev with
  | nil => simp [periodsGranted]
  | cons t rest ih =>
    obtain ⟨hle, hgap, hrest⟩ := hgaps
    rw [List.foldl_cons, pollRow_eq hanchor (by linarith)]
    unfold periodsGranted
    by_cases hgrant : grantPeriod ≤ t - anchor
    · rw [if_pos hgrant, if_pos hgrant, ih rfl (le_refl t) (by simpa using grantPeriod_pos) hrest,
        mul_add]
      push_cast
      ring
    · rw [if_neg hgrant, if_neg hgrant]
      exact ih hanchor (hprev.trans hle) (not_le.mp hgrant) hrest

theorem chained_row {start later : Database UserRow CreditEntry String} {order : List ι}
    (h : Chained (fun i db later => later.row = pollRow monthlyCredits (time i) db.row) start order
      later) :
    later.row = (order.map time).foldl (fun row t => pollRow monthlyCredits t row) start.row := by
  induction h with
  | nil => rfl
  | snoc before last ih =>
    rw [last, ih, List.map_append, List.foldl_append]
    rfl

theorem free_poll_ensures (db : Database UserRow CreditEntry String) :
    (grantLifetimeMonthlyCredits 0).Ensures (fun _ _ => True)
      (fun later _ => later.row = db.row) db db := by
  unfold grantLifetimeMonthlyCredits
  dsimp only
  show Script.Ensures _ _ (if db.row.vipIsLifetime = false ∨ (0 : ℤ) ≤ 0 then _ else _) db db
  rw [if_pos (Or.inr le_rfl)]
  exact rfl

theorem serial_row {scripts : ι → BillingScript BillingReply}
    (hscripts : ∀ i, scripts i = grantLifetimeMonthlyCredits 0)
    {start later : Database UserRow CreditEntry String}
    {order : List ι} (h : Serial (fun _ _ => True) scripts start order later) :
    later.row = start.row := by
  induction h with
  | nil => rfl
  | snoc before last ih =>
    rw [hscripts] at last
    rw [last.ensures (free_poll_ensures _), ih]

end Polls

section Main

variable {ι : Type} [Fintype ι] [DecidableEq ι] {account : UserRow} {log : List CreditEntry}
  {fulfilled : List String} {monthlyCredits : ℕ} {start : Time} {time : ι → Time}
  {events : List (SessionEvent ι Time)} {order : List ι}

theorem credits_of_free (events : List (SessionEvent ι Time)) :
    (polledDatabase account log fulfilled 0 events).db.row = account := by
  have hreads : Along Server.step (ReadsInTime fun _ _ => True)
      (pollServer ι account log fulfilled 0) events := by
    refine along_of_forall (fun server event => ?_) _ events
    cases event with
    | run i now => exact fun _ => trivial
    | abort i => trivial
  obtain ⟨_, -, -, hserial⟩ := run_serial (fun _ => poll_ends) hreads
  exact serial_row (fun _ => rfl) hserial

theorem credits_of_schedule (hmonthly : 0 < monthlyCredits)
    (h : PollSchedule account log fulfilled monthlyCredits start time events order) :
    (polledDatabase account log fulfilled monthlyCredits events).db.row.credits = account.credits +
      ((monthlyCredits * periodsGranted start (order.map time) : ℤ) : Amount) := by
  obtain ⟨found, hnodup, hsorted, hlisted, hchained⟩ := run_timed (fun _ => poll_ends)
    (poll_transacts hmonthly)
    (fun i db later (hdb : PolledMember time db.row)
      (hlater : later.row = pollRow monthlyCredits (time i) db.row) => by
        show PolledMember time later.row
        rw [hlater]
        exact pollRow_member hdb (time i))
    h.member h.reads
  have hperm : (found.map time).Perm (order.map time) := by
    refine List.Perm.map time ((List.perm_ext_iff_of_nodup hnodup h.nodup).mpr fun i => ?_)
    rw [hlisted, h.listed]
    rfl
  have hfound : found.map time = order.map time :=
    hperm.eq_of_pairwise (fun _ _ _ _ hle hge => le_antisymm hle hge) hsorted h.sorted
  have hrow := chained_row hchained
  rw [hfound] at hrow
  unfold polledDatabase
  refine (congrArg UserRow.credits hrow).trans ?_
  exact foldl_pollRow _ h.anchored (le_refl start) (by simpa using grantPeriod_pos) h.gaps

/-- A schedule of polls is credited in full exactly when the plan has no monthly credits or less
than a period is left over. -/
theorem monthly_credits_iff
    (h : PollSchedule account log fulfilled monthlyCredits start time events order) :
    CreditedInFull account log fulfilled monthlyCredits start time events order ↔
      monthlyCredits = 0 ∨
        timeLeftOver ((order.map time).getLastD start) start (order.map time) < grantPeriod := by
  unfold CreditedInFull
  rcases Nat.eq_zero_or_pos monthlyCredits with rfl | hmonthly
  · rw [credits_of_free]
    simp
  · rw [credits_of_schedule hmonthly h, ← periodsGranted_eq_iff h.gaps, add_right_inj,
      Int.cast_inj, mul_right_inj' (by exact_mod_cast hmonthly.ne'), or_iff_right hmonthly.ne']

end Main

def newMember : UserRow where
  credits := 0
  vipExpiresAt := some (365 * 100 * Live.oneDay)
  vipPlan := "lifetime"
  vipIsLifetime := true
  vipMonthlyCreditsLastGrant := some 0

def pollDays (first second : ℤ) (i : Fin 2) : Time :=
  (if i = 0 then first else second) * Live.oneDay

def waitingPolls (first second : ℤ) : List (SessionEvent (Fin 2) Time) :=
  [.run 0 0, .run 1 0] ++ List.replicate 7 (.run 0 (first * Live.oneDay)) ++
    List.replicate 8 (.run 1 (second * Live.oneDay))

theorem pollSchedule_of_days (first second : ℤ)
    (hreads : Along Server.step (ReadsOnTime (pollDays first second))
      (pollServer (Fin 2) newMember [] [] 100) (waitingPolls first second))
    (hlisted : ∀ i : Fin 2, i ∈ [0, 1] ↔ ((polledDatabase newMember [] [] 100
      (waitingPolls first second)).sessions i).script.Finished)
    (hcurrent : ∀ i, pollDays first second i < 365 * 100 * Live.oneDay)
    (hsorted : pollDays first second 0 ≤ pollDays first second 1)
    (hgaps : GapsWithinSix 0 [pollDays first second 0, pollDays first second 1]) :
    PollSchedule newMember [] [] 100 0 (pollDays first second) (waitingPolls first second)
      [0, 1] := by
  refine ⟨⟨rfl, Option.some_ne_none _, ?_⟩, rfl, hreads, by decide, hlisted, ?_, hgaps⟩
  · intro expires hm i
    rw [← Option.mem_some_iff.mp hm]
    exact hcurrent i
  · simpa using hsorted

theorem monthly_credits_on_time :
    CreditedInFull newMember [] [] 100 0 (pollDays 30 60) (waitingPolls 30 60) [0, 1] :=
  (monthly_credits_iff (pollSchedule_of_days 30 60 (by decide +kernel) (by decide +kernel)
    (by decide +kernel) (by decide +kernel) (by decide +kernel))).mpr (Or.inr (by decide +kernel))

/-- Polls on the days 45 and 60 grant one period of the two. -/
theorem monthly_credits_lost : ¬ ∀ (account : UserRow) (log : List CreditEntry)
    (fulfilled : List String) (monthlyCredits : ℕ) (start : Time) (time : Fin 2 → Time)
    (events : List (SessionEvent (Fin 2) Time)) (order : List (Fin 2)),
      PollSchedule account log fulfilled monthlyCredits start time events order →
        CreditedInFull account log fulfilled monthlyCredits start time events order := by
  intro h
  have hfull := h newMember [] [] 100 0 (pollDays 45 60) (waitingPolls 45 60) [0, 1]
    (pollSchedule_of_days 45 60 (by decide +kernel) (by decide +kernel) (by decide +kernel)
      (by decide +kernel) (by decide +kernel))
  have hshort : ¬ (polledDatabase newMember [] [] 100 (waitingPolls 45 60)).db.row.credits =
      0 + ((100 * ((60 * Live.oneDay - 0) / grantPeriod) : ℤ) : Amount) := by
    decide +kernel
  exact hshort hfull

end QuantDinger.Analysis
