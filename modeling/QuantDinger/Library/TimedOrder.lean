import QuantDinger.Library.SerialOrder

/-!
# Transactions that run at their times

Each session has a time, which is what it reads from the clock, and the clock does not run
backwards. Scripts that begin with the exclusive lock, end with their transaction and read the
clock run one after another, in the order of their times, and each takes the database to a state
that its relation allows.
-/

namespace QuantDinger.Library

variable {ι Row Entry Key Clock β : Type}

/-- The script has finished. -/
def Script.Finished : Script Row Entry Key Clock β → Prop
  | .done _ => True
  | _ => False

instance (script : Script Row Entry Key Clock β) : Decidable script.Finished := by
  unfold Script.Finished
  split <;> infer_instance

variable [DecidableEq Key] [Preorder Clock]

/-- A session reads its time from the clock, which no finished session has passed, and has no
connection to lose once it has finished. -/
def ReadsOnTime (time : ι → Clock) (server : Server ι Row Entry Key Clock β) :
    SessionEvent ι Clock → Prop
  | .run i now => (server.sessions i).script.ReadsClock →
      now = time i ∧ ∀ j, (server.sessions j).script.Finished → time j ≤ now
  | .abort i => ¬ (server.sessions i).script.Finished

instance [Fintype ι] [DecidableEq Clock] [DecidableLE Clock] (time : ι → Clock)
    (server : Server ι Row Entry Key Clock β) : DecidablePred (ReadsOnTime time server)
  | .run i now => inferInstanceAs (Decidable ((server.sessions i).script.ReadsClock →
      now = time i ∧ ∀ j, (server.sessions j).script.Finished → time j ≤ now))
  | .abort i => inferInstanceAs (Decidable (¬ (server.sessions i).script.Finished))

/-- Transactions one after another, each to a state that its relation allows. -/
inductive Chained (T : ι → Database Row Entry Key → Database Row Entry Key → Prop) :
    Database Row Entry Key → List ι → Database Row Entry Key → Prop
  | nil (db : Database Row Entry Key) : Chained T db [] db
  | snoc {db mid later : Database Row Entry Key} {order : List ι} {i : ι}
      (before : Chained T db order mid) (last : T i mid later) : Chained T db (order ++ [i]) later

/-- Run alone on a database that meets the invariant, the script takes it to a state that the
relation allows, and reads the clock: what holds of what it reads holds of the time. -/
def Script.Transacts (I : Database Row Entry Key → Prop)
    (T : Database Row Entry Key → Database Row Entry Key → Prop) (t : Clock)
    (script : Script Row Entry Key Clock β) : Prop :=
  ∀ (A : Clock → Prop) (db : Database Row Entry Key), I db →
    script.Ensures (fun _ now => now = t ∧ A now) (fun later _ => T db later ∧ A t) db db

section Timed

variable (time : ι → Clock) (T : ι → Database Row Entry Key → Database Row Entry Key → Prop)
  (scripts : ι → Script Row Entry Key Clock β)

/-- Where a session stands: it has not begun, it holds the exclusive lock and goes on to make its
transaction, it has finished, or it is lost. -/
inductive TimedStanding (order : List ι) (db : Database Row Entry Key) (i : ι) :
    Session Row Entry Key Clock β → Prop
  | fresh (h : i ∉ order) : TimedStanding order db i { script := scripts i }
  | running {session : Session Row Entry Key Clock β} (h : i ∉ order)
      (hlock : session.exclusiveLock = true) (hends : session.script.Ends)
      (hensures : session.script.Ensures
        (fun _ now => now = time i ∧ ∀ j ∈ order, time j ≤ now)
        (fun later _ => T i db later ∧ ∀ j ∈ order, time j ≤ time i) db (session.view db)) :
      TimedStanding order db i session
  | finished (h : i ∈ order) (result : β) : TimedStanding order db i { script := .done result }
  | lost (h : i ∉ order) : TimedStanding order db i { script := .stop }

/-- The finished sessions have made their transactions in the order of their times. -/
structure TimedRun (I : Database Row Entry Key → Prop) (start : Database Row Entry Key)
    (server : Server ι Row Entry Key Clock β) (order : List ι) : Prop where
  locks : LocksSound server.sessions
  nodup : order.Nodup
  sorted : (order.map time).Pairwise (· ≤ ·)
  invariant : I server.db
  chained : Chained T start order server.db
  standing : ∀ i, TimedStanding time T scripts order server.db i (server.sessions i)

variable {time T scripts} {I : Database Row Entry Key → Prop} {start : Database Row Entry Key}
  {server : Server ι Row Entry Key Clock β} {order : List ι}

theorem TimedStanding.mem_iff {db : Database Row Entry Key} {i : ι}
    {session : Session Row Entry Key Clock β} (hscript : ¬ (scripts i).Finished)
    (h : TimedStanding time T scripts order db i session) :
    i ∈ order ↔ session.script.Finished := by
  cases h with
  | fresh hnew => exact iff_of_false hnew hscript
  | running hnew _ hends _ =>
    refine iff_of_false hnew fun hfinished => ?_
    cases hscript' : session.script with
    | done result =>
      rw [hscript'] at hends
      exact hends
    | _ =>
      rw [hscript'] at hfinished
      exact hfinished
  | finished hold result => exact iff_of_true hold trivial
  | lost hnew => exact iff_of_false hnew id

theorem TimedStanding.after {db later : Database Row Entry Key} {i j : ι}
    {session : Session Row Entry Key Clock β} (hne : j ≠ i) (hfree : session.exclusiveLock = false)
    (h : TimedStanding time T scripts order db j session) :
    TimedStanding time T scripts (order ++ [i]) later j session := by
  have hnew : j ∉ order → j ∉ order ++ [i] := by
    intro hj hmem
    rcases List.mem_append.1 hmem with hmem | hmem
    · exact hj hmem
    · exact hne (List.mem_singleton.1 hmem)
  cases h with
  | fresh h => exact .fresh (hnew h)
  | running h hlock _ _ =>
    rw [hlock] at hfree
    exact nomatch hfree
  | finished h result => exact .finished (List.mem_append_left _ h) result
  | lost h => exact .lost (hnew h)

variable [DecidableEq ι]

theorem TimedRun.moves (h : TimedRun time T scripts I start server order) {i : ι}
    {next : Session Row Entry Key Clock β}
    (hstanding : TimedStanding time T scripts order server.db i next)
    (hlocks : LocksSound (Function.update server.sessions i next)) :
    TimedRun time T scripts I start ⟨server.db, Function.update server.sessions i next⟩ order := by
  refine ⟨hlocks, h.nodup, h.sorted, h.invariant, h.chained, ?_⟩
  intro j
  show TimedStanding time T scripts order server.db j (Function.update server.sessions i next j)
  by_cases hji : j = i
  · subst hji
    rw [Function.update_self]
    exact hstanding
  · rw [Function.update_of_ne hji]
    exact h.standing j

theorem TimedRun.finishes (h : TimedRun time T scripts I start server order)
    (hI : ∀ i db later, I db → T i db later → I later) {i : ι} {later : Database Row Entry Key}
    {result : β} (hnew : i ∉ order) (hlock : (server.sessions i).exclusiveLock = true)
    (hdone : T i server.db later ∧ ∀ j ∈ order, time j ≤ time i)
    (hlocks : LocksSound (Function.update server.sessions i { script := .done result })) :
    TimedRun time T scripts I start
      ⟨later, Function.update server.sessions i { script := .done result }⟩ (order ++ [i]) := by
  refine ⟨hlocks, ?_, ?_, hI i _ _ h.invariant hdone.1, .snoc h.chained hdone.1, ?_⟩
  · exact List.Nodup.append h.nodup (List.nodup_singleton i)
      (List.disjoint_singleton.2 hnew)
  · rw [List.map_append, List.pairwise_append]
    refine ⟨h.sorted, List.pairwise_singleton _ _, ?_⟩
    intro t ht s hs
    obtain ⟨j, hj, rfl⟩ := List.mem_map.1 ht
    rw [List.mem_singleton.1 hs]
    exact hdone.2 j hj
  · intro j
    show TimedStanding time T scripts (order ++ [i]) later j
      (Function.update server.sessions i { script := .done result } j)
    by_cases hji : j = i
    · subst hji
      rw [Function.update_self]
      exact .finished (List.mem_append_right _ (List.mem_singleton_self j)) result
    · rw [Function.update_of_ne hji]
      refine (h.standing j).after hji ?_
      by_contra hj
      have hheld : (server.sessions j).exclusiveLock = true := by simpa using hj
      exact hji (h.locks.exclusive j i hheld (h.locks.alters i hlock))

theorem TimedRun.advances (h : TimedRun time T scripts I start server order)
    (hI : ∀ i db later, I db → T i db later → I later) {i : ι} {now : Clock}
    (hnew : i ∉ order) (hlock : (server.sessions i).exclusiveLock = true)
    (hends : (server.sessions i).script.Ends)
    (hensures : (server.sessions i).script.Ensures
      (fun _ now => now = time i ∧ ∀ j ∈ order, time j ≤ now)
      (fun later _ => T i server.db later ∧ ∀ j ∈ order, time j ≤ time i) server.db
      ((server.sessions i).view server.db))
    (htimely : (server.sessions i).script.ReadsClock → now = time i ∧ ∀ j ∈ order, time j ≤ now)
    (hlocks : LocksSound (Function.update server.sessions i
      ((server.sessions i).advance server.db now).1)) :
    ∃ order, TimedRun time T scripts I start
      ⟨((server.sessions i).advance server.db now).2, Function.update server.sessions i
        ((server.sessions i).advance server.db now).1⟩ order := by
  have hnext := ensures_advance (server.sessions i) server.db now htimely hensures
  rcases advance_ends now hlock hends with ⟨hdb, hkeeps, hgoes⟩ | ⟨result, hdone⟩
  · rw [hdb] at hnext ⊢
    exact ⟨order, h.moves (.running hnew hkeeps hgoes hnext) hlocks⟩
  · rw [hdone] at hlocks hnext ⊢
    exact ⟨order ++ [i], h.finishes hI hnew hlock hnext hlocks⟩

/-- What one event does to the order. -/
theorem TimedRun.step [Fintype ι]
    (hscripts : ∀ i, ∃ body, scripts i = .exclusive body ∧ body.Ends)
    (htransacts : ∀ i, (scripts i).Transacts I (T i) (time i))
    (hI : ∀ i db later, I db → T i db later → I later) {event : SessionEvent ι Clock}
    (h : TimedRun time T scripts I start server order) (htimely : ReadsOnTime time server event) :
    ∃ order, TimedRun time T scripts I start (server.step event) order := by
  have hfresh : ∀ i, ¬ (scripts i).Finished := by
    intro i hfinished
    obtain ⟨body, hbody, -⟩ := hscripts i
    rw [hbody] at hfinished
    exact hfinished
  have hlocks := h.locks.step event
  cases event with
  | abort i =>
    have hnew := fun hmem => htimely (((h.standing i).mem_iff (hfresh i)).1 hmem)
    exact ⟨order, h.moves (.lost hnew) hlocks⟩
  | run i now =>
    by_cases hwaits : server.Waits i
    · rw [Server.step_waits hwaits]
      exact ⟨order, h⟩
    · rw [Server.step_runs hwaits] at hlocks ⊢
      have hreads : (server.sessions i).script.ReadsClock →
          now = time i ∧ ∀ j ∈ order, time j ≤ now := by
        intro hclock
        obtain ⟨hnow, hpassed⟩ := htimely hclock
        exact ⟨hnow, fun j hj => hpassed j (((h.standing j).mem_iff (hfresh j)).1 hj)⟩
      have hstanding := h.standing i
      generalize hsession : server.sessions i = session at hstanding
      cases hstanding with
      | fresh hnew =>
        obtain ⟨body, hbody, hends⟩ := hscripts i
        have hnext : ({ script := scripts i } : Session Row Entry Key Clock β).advance
            server.db now =
            ({ script := body, touched := true, exclusiveLock := true }, server.db) := by
          unfold Session.advance
          rw [hbody]
        have hensures := htransacts i (fun now => ∀ j ∈ order, time j ≤ now) server.db
          h.invariant
        rw [hbody] at hensures
        have hview : ({ script := body, touched := true, exclusiveLock := true } :
            Session Row Entry Key Clock β).view server.db = server.db := by
          simp [Session.view, Session.visible]
        rw [hsession, hnext] at hlocks
        rw [hnext]
        refine ⟨order, h.moves (.running hnew rfl hends ?_) hlocks⟩
        rw [hview]
        exact hensures
      | running hnew hlock hends hensures =>
        subst hsession
        exact h.advances hI hnew hlock hends hensures hreads hlocks
      | finished hold result =>
        rw [hsession] at hlocks
        exact ⟨order, h.moves (.finished hold result) hlocks⟩
      | lost hnew =>
        rw [hsession] at hlocks
        exact ⟨order, h.moves (.lost hnew) hlocks⟩

omit [DecidableEq ι] in
theorem timedRun_start {db : Database Row Entry Key} (h : I db) :
    TimedRun time T scripts I db ⟨db, fun i => { script := scripts i }⟩ [] := by
  refine ⟨⟨?_, ?_, ?_, ?_, ?_⟩, List.nodup_nil, List.Pairwise.nil, h, .nil db,
    fun i => .fresh (List.not_mem_nil)⟩
  · intro i j h
    exact nomatch h
  · intro i j h
    exact nomatch h
  · intro i h
    exact nomatch h
  · intro i h
    exact nomatch h
  · intro i row h
    exact nomatch h

/-- Whatever the interleaving, the finished scripts have made their transactions in the order of
their times. -/
theorem run_timed [Fintype ι] (hscripts : ∀ i, ∃ body, scripts i = .exclusive body ∧ body.Ends)
    (htransacts : ∀ i, (scripts i).Transacts I (T i) (time i))
    (hI : ∀ i db later, I db → T i db later → I later) {db : Database Row Entry Key} (h : I db)
    {events : List (SessionEvent ι Clock)}
    (hrun : Along Server.step (ReadsOnTime time) ⟨db, fun i => { script := scripts i }⟩ events) :
    ∃ order : List ι, order.Nodup ∧ (order.map time).Pairwise (· ≤ ·) ∧
      (∀ i, i ∈ order ↔ ((runActions Server.step ⟨db, fun i => { script := scripts i }⟩
        events).sessions i).script.Finished) ∧
      Chained T db order
        (runActions Server.step ⟨db, fun i => { script := scripts i }⟩ events).db := by
  have hkept : ∃ order, TimedRun time T scripts I db
      (runActions Server.step ⟨db, fun i => { script := scripts i }⟩ events) order := by
    refine Along.invariant (I := fun server => ∃ order, TimedRun time T scripts I db server order)
      ?_ ⟨[], timedRun_start h⟩ hrun
    intro server event hbefore hmet
    obtain ⟨order, horder⟩ := hbefore
    exact horder.step hscripts htransacts hI hmet
  obtain ⟨order, horder⟩ := hkept
  refine ⟨order, horder.nodup, horder.sorted, fun i => ?_, horder.chained⟩
  refine (horder.standing i).mem_iff fun hfinished => ?_
  obtain ⟨body, hbody, -⟩ := hscripts i
  rw [hbody] at hfinished
  exact hfinished

end Timed

end QuantDinger.Library
