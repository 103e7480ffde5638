import Mathlib.Algebra.BigOperators.Group.List.Basic
import Mathlib.Algebra.Group.Basic
import Mathlib.Data.Fintype.Basic
import Mathlib.Data.List.Nodup
import Mathlib.Logic.Function.Basic
import Mathlib.Tactic
import QuantDinger.Library.Runs

/-!
# Transactions under READ COMMITTED

Sessions run scripts of SQL statements against a table with one row, a log that is only appended
to, and a table of unique keys. A plain read sees what is committed when it runs; writing the row,
or reading it for update, takes its lock until the end of the transaction; a statement that changes
the table's definition takes the exclusive lock of the whole table, which waits for everybody that
has touched it. A statement that has to wait leaves everything as it is and is tried again.

A script settles when, in every transaction of it, what the row gains is what the log records. Such
scripts conserve the balance between the row and the log, however they interleave. Scripts that
begin with the exclusive lock run as if they ran one after another.
-/

namespace QuantDinger.Library

/-- A script of statements, each continuing with what it returns. An update may leave the row alone
(its WHERE does not match); `expects` is what its writer believes of the row, and is not read. -/
inductive Script (Row Entry Key Clock β : Type) : Type
  | done (result : β)
  | stop
  | clock (next : Clock → Script Row Entry Key Clock β)
  | exclusive (next : Script Row Entry Key Clock β)
  | select (next : Row → Script Row Entry Key Clock β)
  | selectForUpdate (next : Row → Script Row Entry Key Clock β)
  | update (expects : Row → Bool) (f : Row → Option Row)
      (next : Option Row → Script Row Entry Key Clock β)
  | insertKey (key : Key) (next : Bool → Script Row Entry Key Clock β)
  | search (next : List Entry → Script Row Entry Key Clock β)
  | insert (entry : Entry) (next : Script Row Entry Key Clock β)
  | commit (next : Script Row Entry Key Clock β)
  | rollback (next : Script Row Entry Key Clock β)

/-- What is committed. -/
structure Database (Row Entry Key : Type) where
  row : Row
  entries : List Entry := []
  keys : List Key := []

/-- A session: what is left of its script, what its transaction has written and the locks it
holds. -/
structure Session (Row Entry Key Clock β : Type) where
  script : Script Row Entry Key Clock β
  row : Option Row := none
  entries : List Entry := []
  keys : List Key := []
  touched : Bool := false
  rowLock : Bool := false
  exclusiveLock : Bool := false

/-- The database and its sessions. -/
structure Server (ι Row Entry Key Clock β : Type) where
  db : Database Row Entry Key
  sessions : ι → Session Row Entry Key Clock β

/-- A session tries its next statement, or its connection is lost. -/
inductive SessionEvent (ι Clock : Type)
  | run (session : ι) (now : Clock)
  | abort (session : ι)

variable {ι Row Entry Key Clock β : Type}

/-- The row as a session sees it. -/
def Session.visible (session : Session Row Entry Key Clock β) (db : Database Row Entry Key) : Row :=
  session.row.getD db.row

/-- The next statement of a session, where it does not have to wait. -/
def Session.advance [DecidableEq Key] (session : Session Row Entry Key Clock β)
    (db : Database Row Entry Key) (now : Clock) :
    Session Row Entry Key Clock β × Database Row Entry Key :=
  match session.script with
  | .done _ => (session, db)
  | .stop => (session, db)
  | .clock next => ({ session with script := next now }, db)
  | .exclusive next =>
    ({ session with script := next, touched := true, exclusiveLock := true }, db)
  | .select next => ({ session with script := next (session.visible db), touched := true }, db)
  | .selectForUpdate next =>
    ({ session with script := next (session.visible db), touched := true, rowLock := true }, db)
  | .update _ f next =>
    match f (session.visible db) with
    | none => ({ session with script := next none, touched := true }, db)
    | some row =>
      ({ session with
          script := next (some row), row := some row, touched := true, rowLock := true }, db)
  | .insertKey key next =>
    if key ∈ db.keys ∨ key ∈ session.keys then ({ session with script := next false }, db)
    else ({ session with script := next true, keys := session.keys ++ [key] }, db)
  | .search next => ({ session with script := next (db.entries ++ session.entries) }, db)
  | .insert entry next =>
    ({ session with script := next, entries := session.entries ++ [entry] }, db)
  | .commit next =>
    ({ script := next },
      { row := session.visible db
        entries := db.entries ++ session.entries
        keys := db.keys ++ session.keys })
  | .rollback next => ({ script := next }, db)

namespace Server

variable [Fintype ι] [DecidableEq ι] [DecidableEq Key] (server : Server ι Row Entry Key Clock β)

/-- The next statement of a session has to wait for another one. -/
def Waits (i : ι) : Prop :=
  match (server.sessions i).script with
  | .exclusive _ => ∃ j, j ≠ i ∧ (server.sessions j).touched = true
  | .select _ => ∃ j, j ≠ i ∧ (server.sessions j).exclusiveLock = true
  | .selectForUpdate _ => ∃ j, j ≠ i ∧
      ((server.sessions j).exclusiveLock = true ∨ (server.sessions j).rowLock = true)
  | .update _ f _ => ∃ j, j ≠ i ∧
      ((server.sessions j).exclusiveLock = true ∨
        ((server.sessions j).rowLock = true ∧
          (f ((server.sessions i).visible server.db)).isSome = true))
  | .insertKey key _ => ∃ j, j ≠ i ∧ key ∈ (server.sessions j).keys
  | _ => False

instance (i : ι) : Decidable (server.Waits i) := by
  unfold Waits
  split <;> infer_instance

/-- One event. -/
def step (event : SessionEvent ι Clock) :
    Server ι Row Entry Key Clock β :=
  match event with
  | .run i now =>
    if server.Waits i then server
    else
      let next := (server.sessions i).advance server.db now
      ⟨next.2, Function.update server.sessions i next.1⟩
  | .abort i => ⟨server.db, Function.update server.sessions i { script := .stop }⟩

variable {server}

theorem step_waits {i : ι} (h : server.Waits i) (now : Clock) :
    server.step (.run i now) = server := if_pos h

theorem step_runs {i : ι} (h : ¬ server.Waits i) (now : Clock) :
    server.step (.run i now) = ⟨((server.sessions i).advance server.db now).2,
      Function.update server.sessions i ((server.sessions i).advance server.db now).1⟩ :=
  if_neg h

end Server

/-! ## The log -/

/-- No statement takes anything out of the log. -/
theorem entries_kept [DecidableEq Key] (session : Session Row Entry Key Clock β)
    (db : Database Row Entry Key) (now : Clock) :
    db.entries <+: (session.advance db now).2.entries := by
  unfold Session.advance
  cases session.script with
  | update expects f next =>
    dsimp only
    cases f (session.visible db) with
    | none => exact List.prefix_rfl
    | some row => exact List.prefix_rfl
  | insertKey key next =>
    dsimp only
    split_ifs
    · exact List.prefix_rfl
    · exact List.prefix_rfl
  | commit next => exact List.prefix_append _ _
  | _ => exact List.prefix_rfl

theorem entries_step [Fintype ι] [DecidableEq ι] [DecidableEq Key]
    (server : Server ι Row Entry Key Clock β) (event : SessionEvent ι Clock) :
    server.db.entries <+: (server.step event).db.entries := by
  cases event with
  | run i now =>
    by_cases hwaits : server.Waits i
    · rw [Server.step_waits hwaits]
    · rw [Server.step_runs hwaits]
      exact entries_kept _ _ _
  | abort i => exact List.prefix_rfl

/-- The log of a run begins with the log it started from. -/
theorem entries_run [Fintype ι] [DecidableEq ι] [DecidableEq Key]
    (server : Server ι Row Entry Key Clock β) (events : List (SessionEvent ι Clock)) :
    server.db.entries <+: (runActions Server.step server events).db.entries := by
  induction events generalizing server with
  | nil => exact List.prefix_rfl
  | cons event events ih => exact (entries_step server event).trans (ih _)

/-! ## Locks -/

/-- The locks are exclusive, and who has written the row holds its lock. -/
structure LocksSound (sessions : ι → Session Row Entry Key Clock β) : Prop where
  exclusive : ∀ i j, (sessions i).exclusiveLock = true → (sessions j).touched = true → i = j
  row : ∀ i j, (sessions i).rowLock = true → (sessions j).rowLock = true → i = j
  touches : ∀ i, (sessions i).rowLock = true → (sessions i).touched = true
  alters : ∀ i, (sessions i).exclusiveLock = true → (sessions i).touched = true
  writes : ∀ i row, (sessions i).row = some row → (sessions i).rowLock = true

/-- INTERNAL: what a new state of one session needs of the others. -/
structure LocksFit (sessions : ι → Session Row Entry Key Clock β) (i : ι)
    (next : Session Row Entry Key Clock β) : Prop where
  exclusive : next.exclusiveLock = true → ∀ j, j ≠ i → (sessions j).touched = false
  touched : next.touched = true → ∀ j, j ≠ i → (sessions j).exclusiveLock = false
  row : next.rowLock = true → ∀ j, j ≠ i → (sessions j).rowLock = false
  touches : next.rowLock = true → next.touched = true
  alters : next.exclusiveLock = true → next.touched = true
  writes : ∀ row, next.row = some row → next.rowLock = true

theorem LocksSound.update [DecidableEq ι] {sessions : ι → Session Row Entry Key Clock β}
    (h : LocksSound sessions) {i : ι} {next : Session Row Entry Key Clock β}
    (hfit : LocksFit sessions i next) : LocksSound (Function.update sessions i next) := by
  refine ⟨?_, ?_, ?_, ?_, ?_⟩
  · intro j k hj hk
    by_contra hne
    by_cases hji : j = i
    · subst hji
      rw [Function.update_self] at hj
      rw [Function.update_of_ne (Ne.symm hne)] at hk
      rw [hfit.exclusive hj k (Ne.symm hne)] at hk
      exact nomatch hk
    · rw [Function.update_of_ne hji] at hj
      by_cases hki : k = i
      · subst hki
        rw [Function.update_self] at hk
        rw [hfit.touched hk j hji] at hj
        exact nomatch hj
      · rw [Function.update_of_ne hki] at hk
        exact hne (h.exclusive j k hj hk)
  · intro j k hj hk
    by_contra hne
    by_cases hji : j = i
    · subst hji
      rw [Function.update_self] at hj
      rw [Function.update_of_ne (Ne.symm hne)] at hk
      rw [hfit.row hj k (Ne.symm hne)] at hk
      exact nomatch hk
    · rw [Function.update_of_ne hji] at hj
      by_cases hki : k = i
      · subst hki
        rw [Function.update_self] at hk
        rw [hfit.row hk j hji] at hj
        exact nomatch hj
      · rw [Function.update_of_ne hki] at hk
        exact hne (h.row j k hj hk)
  · intro j
    by_cases hji : j = i
    · subst hji
      rw [Function.update_self]
      exact hfit.touches
    · rw [Function.update_of_ne hji]
      exact h.touches j
  · intro j
    by_cases hji : j = i
    · subst hji
      rw [Function.update_self]
      exact hfit.alters
    · rw [Function.update_of_ne hji]
      exact h.alters j
  · intro j
    by_cases hji : j = i
    · subst hji
      rw [Function.update_self]
      exact hfit.writes
    · rw [Function.update_of_ne hji]
      exact h.writes j

theorem LocksSound.fit {sessions : ι → Session Row Entry Key Clock β} (h : LocksSound sessions)
    (i : ι) : LocksFit sessions i (sessions i) := by
  refine ⟨?_, ?_, ?_, h.touches i, h.alters i, h.writes i⟩
  · intro hi j hne
    by_contra hj
    exact hne (h.exclusive i j hi (by simpa using hj)).symm
  · intro hi j hne
    by_contra hj
    exact hne (h.exclusive j i (by simpa using hj) hi)
  · intro hi j hne
    by_contra hj
    exact hne (h.row i j hi (by simpa using hj)).symm

theorem locksFit_released (sessions : ι → Session Row Entry Key Clock β) (i : ι)
    (script : Script Row Entry Key Clock β) : LocksFit sessions i { script := script } := by
  refine ⟨?_, ?_, ?_, ?_, ?_, ?_⟩
  · intro h
    exact nomatch h
  · intro h
    exact nomatch h
  · intro h
    exact nomatch h
  · intro h
    exact nomatch h
  · intro h
    exact nomatch h
  · intro _ h
    exact nomatch h

theorem LocksSound.advance [DecidableEq Key] {server : Server ι Row Entry Key Clock β}
    (h : LocksSound server.sessions) {i : ι} (hruns : ¬ server.Waits i) (now : Clock) :
    LocksFit server.sessions i ((server.sessions i).advance server.db now).1 := by
  have hfit := h.fit i
  have keep : ∀ (script : Script Row Entry Key Clock β) (entries : List Entry) (keys : List Key),
      LocksFit server.sessions i { server.sessions i with
        script := script, entries := entries, keys := keys } :=
    fun _ _ _ => ⟨hfit.exclusive, hfit.touched, hfit.row, hfit.touches, hfit.alters, hfit.writes⟩
  unfold Server.Waits at hruns
  unfold Session.advance
  cases hscript : (server.sessions i).script with
  | done result => exact hfit
  | stop => exact hfit
  | clock next => exact keep _ _ _
  | exclusive next =>
    simp only [hscript] at hruns
    have halone : ∀ j, j ≠ i → (server.sessions j).touched = false := by
      intro j hne
      by_contra hj
      exact hruns ⟨j, hne, by simpa using hj⟩
    refine ⟨fun _ => halone, fun _ j hne => ?_, hfit.row, fun _ => rfl, fun _ => rfl, hfit.writes⟩
    by_contra hj
    have htouched := h.alters j (by simpa using hj)
    rw [halone j hne] at htouched
    exact nomatch htouched
  | select next =>
    simp only [hscript] at hruns
    refine ⟨hfit.exclusive, fun _ j hne => ?_, hfit.row, fun _ => rfl, fun _ => rfl, hfit.writes⟩
    by_contra hj
    exact hruns ⟨j, hne, by simpa using hj⟩
  | selectForUpdate next =>
    simp only [hscript] at hruns
    refine ⟨hfit.exclusive, fun _ j hne => ?_, fun _ j hne => ?_, fun _ => rfl, fun _ => rfl,
      fun _ _ => rfl⟩
    · by_contra hj
      exact hruns ⟨j, hne, Or.inl (by simpa using hj)⟩
    · by_contra hj
      exact hruns ⟨j, hne, Or.inr (by simpa using hj)⟩
  | update expects f next =>
    simp only [hscript] at hruns
    have hshared : ∀ j, j ≠ i → (server.sessions j).exclusiveLock = false := by
      intro j hne
      by_contra hj
      exact hruns ⟨j, hne, Or.inl (by simpa using hj)⟩
    dsimp only
    cases hf : f ((server.sessions i).visible server.db) with
    | none =>
      exact ⟨hfit.exclusive, fun _ => hshared, hfit.row, fun _ => rfl, fun _ => rfl,
        hfit.writes⟩
    | some row =>
      refine ⟨hfit.exclusive, fun _ => hshared, fun _ j hne => ?_, fun _ => rfl, fun _ => rfl,
        fun _ _ => rfl⟩
      by_contra hj
      exact hruns ⟨j, hne, Or.inr ⟨by simpa using hj, by rw [hf]; rfl⟩⟩
  | insertKey key next =>
    dsimp only
    split_ifs
    · exact keep _ _ _
    · exact keep _ _ _
  | search next => exact keep _ _ _
  | insert entry next => exact keep _ _ _
  | commit next => exact locksFit_released _ _ _
  | rollback next => exact locksFit_released _ _ _

theorem LocksSound.step [Fintype ι] [DecidableEq ι] [DecidableEq Key]
    {server : Server ι Row Entry Key Clock β} (h : LocksSound server.sessions)
    (event : SessionEvent ι Clock) : LocksSound (server.step event).sessions := by
  cases event with
  | run i now =>
    by_cases hwaits : server.Waits i
    · rw [Server.step_waits hwaits]
      exact h
    · rw [Server.step_runs hwaits]
      exact h.update (h.advance hwaits now)
  | abort i => exact h.update (locksFit_released _ _ _)

end QuantDinger.Library
