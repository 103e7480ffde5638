import Mathlib.Logic.Relation
import QuantDinger.Library.ReadCommitted

/-!
# Transactions that run one after another

A script that begins with the exclusive lock of the table and ends with its transaction finds the
database as it was when it began, until it commits. Whatever the interleaving, the scripts that
have finished have run one after another in some order. What a script ensures when it runs alone,
statement by statement, holds of every such run.
-/

namespace QuantDinger.Library

variable {ι Row Entry Key Clock β : Type} [DecidableEq Key]

/-- The next statement reads the clock. -/
def Script.ReadsClock : Script Row Entry Key Clock β → Prop
  | .clock _ => True
  | _ => False

/-- The script ends with its transaction. -/
def Script.Ends : Script Row Entry Key Clock β → Prop
  | .done _ => False
  | .stop => True
  | .clock next => ∀ now, Ends (next now)
  | .exclusive next => Ends next
  | .select next => ∀ row, Ends (next row)
  | .selectForUpdate next => ∀ row, Ends (next row)
  | .update _ _ next => ∀ row, Ends (next row)
  | .insertKey _ next => ∀ inserted, Ends (next inserted)
  | .search next => ∀ log, Ends (next log)
  | .insert _ next => Ends next
  | .commit next => ∃ result, next = .done result
  | .rollback next => ∃ result, next = .done result

section Alone

variable (P : Database Row Entry Key → Clock → Prop)

/-- One statement of a session that nobody interferes with. Where it reads the clock, the time is
one that may be read on what is committed. -/
inductive AloneStep : Session Row Entry Key Clock β × Database Row Entry Key →
    Session Row Entry Key Clock β × Database Row Entry Key → Prop
  | statement (session : Session Row Entry Key Clock β) (db : Database Row Entry Key) (now : Clock)
      (h : session.script.ReadsClock → P db now) :
      AloneStep (session, db) (session.advance db now)

/-- A session runs alone. -/
abbrev Alone := Relation.ReflTransGen (AloneStep (β := β) P)

/-- Scripts run one after another, each to its end. -/
inductive Serial (scripts : ι → Script Row Entry Key Clock β) :
    Database Row Entry Key → List ι → Database Row Entry Key → Prop
  | nil (db : Database Row Entry Key) : Serial scripts db [] db
  | snoc {db mid later : Database Row Entry Key} {order : List ι} {i : ι} {result : β}
      (before : Serial scripts db order mid)
      (last : Alone P ({ script := scripts i }, mid) ({ script := .done result }, later)) :
      Serial scripts db (order ++ [i]) later

/-- An event of the server reads the clock at a time that may be read. -/
def ReadsInTime (server : Server ι Row Entry Key Clock β) (event : SessionEvent ι Clock) : Prop :=
  match event with
  | .run i now => (server.sessions i).script.ReadsClock → P server.db now
  | .abort _ => True

instance (script : Script Row Entry Key Clock β) : Decidable script.ReadsClock :=
  match script with
  | .clock _ => isTrue trivial
  | .done _ => isFalse id
  | .stop => isFalse id
  | .exclusive _ => isFalse id
  | .select _ => isFalse id
  | .selectForUpdate _ => isFalse id
  | .update _ _ _ => isFalse id
  | .insertKey _ _ => isFalse id
  | .search _ => isFalse id
  | .insert _ _ => isFalse id
  | .commit _ => isFalse id
  | .rollback _ => isFalse id

instance [∀ db now, Decidable (P db now)] (server : Server ι Row Entry Key Clock β)
    (event : SessionEvent ι Clock) : Decidable (ReadsInTime P server event) :=
  match event with
  | .run i now =>
    inferInstanceAs (Decidable ((server.sessions i).script.ReadsClock → P server.db now))
  | .abort _ => isTrue trivial

end Alone

/-! ## What a script ensures alone -/

/-- What a session sees. -/
def Session.view (session : Session Row Entry Key Clock β) (db : Database Row Entry Key) :
    Database Row Entry Key :=
  { row := session.visible db
    entries := db.entries ++ session.entries
    keys := db.keys ++ session.keys }

/-- The weakest condition on the committed database and the view of the session under which the
script, run alone, ends with `Q`. -/
def Script.Ensures (P : Database Row Entry Key → Clock → Prop)
    (Q : Database Row Entry Key → β → Prop) :
    Script Row Entry Key Clock β → Database Row Entry Key → Database Row Entry Key → Prop
  | .done result, db, _ => Q db result
  | .stop, _, _ => True
  | .clock next, db, view => ∀ now, P db now → Ensures P Q (next now) db view
  | .exclusive next, db, view => Ensures P Q next db view
  | .select next, db, view => Ensures P Q (next view.row) db view
  | .selectForUpdate next, db, view => Ensures P Q (next view.row) db view
  | .update _ f next, db, view =>
    Ensures P Q (next (f view.row)) db { view with row := (f view.row).getD view.row }
  | .insertKey key next, db, view =>
    if key ∈ view.keys then Ensures P Q (next false) db view
    else Ensures P Q (next true) db { view with keys := view.keys ++ [key] }
  | .search next, db, view => Ensures P Q (next view.entries) db view
  | .insert entry next, db, view =>
    Ensures P Q next db { view with entries := view.entries ++ [entry] }
  | .commit next, _, view => Ensures P Q next view view
  | .rollback next, db, _ => Ensures P Q next db db

section Ensures

variable {P : Database Row Entry Key → Clock → Prop} {Q : Database Row Entry Key → β → Prop}

omit [DecidableEq Key] in
theorem view_fresh (script : Script Row Entry Key Clock β) (db : Database Row Entry Key) :
    ({ script := script } : Session Row Entry Key Clock β).view db = db := by
  simp [Session.view, Session.visible]

theorem ensures_advance (session : Session Row Entry Key Clock β) (db : Database Row Entry Key)
    (now : Clock) (htimely : session.script.ReadsClock → P db now)
    (h : session.script.Ensures P Q db (session.view db)) :
    (session.advance db now).1.script.Ensures P Q (session.advance db now).2
      ((session.advance db now).1.view (session.advance db now).2) := by
  unfold Session.advance
  cases hscript : session.script with
  | done result =>
    dsimp only
    exact h
  | stop =>
    dsimp only
    exact h
  | clock next =>
    rw [hscript] at h htimely
    exact h now (htimely trivial)
  | exclusive next =>
    rw [hscript] at h
    exact h
  | select next =>
    rw [hscript] at h
    exact h
  | selectForUpdate next =>
    rw [hscript] at h
    exact h
  | update expects f next =>
    rw [hscript] at h
    have hnext : Script.Ensures P Q (next (f (session.visible db))) db
        { session.view db with row := (f (session.visible db)).getD (session.visible db) } := h
    dsimp only
    cases hf : f (session.visible db) with
    | none =>
      rw [hf] at hnext
      exact hnext
    | some row =>
      rw [hf] at hnext
      exact hnext
  | insertKey key next =>
    rw [hscript] at h
    have hnext : if key ∈ db.keys ++ session.keys then Script.Ensures P Q (next false) db
        (session.view db)
      else Script.Ensures P Q (next true) db
        { session.view db with keys := db.keys ++ session.keys ++ [key] } := h
    dsimp only
    by_cases hkey : key ∈ db.keys ∨ key ∈ session.keys
    · rw [if_pos (List.mem_append.2 hkey)] at hnext
      rw [if_pos hkey]
      exact hnext
    · rw [if_neg (fun hmem => hkey (List.mem_append.1 hmem)), List.append_assoc] at hnext
      rw [if_neg hkey]
      exact hnext
  | search next =>
    rw [hscript] at h
    exact h
  | insert entry next =>
    rw [hscript] at h
    have hnext : Script.Ensures P Q next db
        { session.view db with entries := db.entries ++ session.entries ++ [entry] } := h
    rw [List.append_assoc] at hnext
    exact hnext
  | commit next =>
    rw [hscript] at h
    dsimp only
    rw [view_fresh]
    exact h
  | rollback next =>
    rw [hscript] at h
    dsimp only
    rw [view_fresh]
    exact h

/-- What a script ensures holds when it has run alone. -/
theorem Alone.ensures {script : Script Row Entry Key Clock β} {db later : Database Row Entry Key}
    {result : β}
    (hrun : Alone P ({ script := script }, db) ({ script := .done result }, later))
    (h : script.Ensures P Q db db) : Q later result := by
  have hkept : ∀ q : Session Row Entry Key Clock β × Database Row Entry Key,
      Alone P ({ script := script }, db) q → q.1.script.Ensures P Q q.2 (q.1.view q.2) := by
    intro q hq
    induction hq with
    | refl =>
      rw [view_fresh]
      exact h
    | tail _ hstep ih =>
      cases hstep with
      | statement session db now htimely => exact ensures_advance session db now htimely ih
  exact hkept _ hrun

end Ensures

/-! ## Running a script -/

/-- The script run alone, with a clock that stands still. -/
def Script.finish (now : Clock) : Script Row Entry Key Clock β → Database Row Entry Key →
    Database Row Entry Key → Database Row Entry Key × Option β
  | .done result, db, _ => (db, some result)
  | .stop, db, _ => (db, none)
  | .clock next, db, view => finish now (next now) db view
  | .exclusive next, db, view => finish now next db view
  | .select next, db, view => finish now (next view.row) db view
  | .selectForUpdate next, db, view => finish now (next view.row) db view
  | .update _ f next, db, view =>
    finish now (next (f view.row)) db { view with row := (f view.row).getD view.row }
  | .insertKey key next, db, view =>
    if key ∈ view.keys then finish now (next false) db view
    else finish now (next true) db { view with keys := view.keys ++ [key] }
  | .search next, db, view => finish now (next view.entries) db view
  | .insert entry next, db, view =>
    finish now next db { view with entries := view.entries ++ [entry] }
  | .commit next, _, view => finish now next view view
  | .rollback next, db, _ => finish now next db db

theorem finish_advance (session : Session Row Entry Key Clock β) (db : Database Row Entry Key)
    (now : Clock) :
    (session.advance db now).1.script.finish now (session.advance db now).2
      ((session.advance db now).1.view (session.advance db now).2) =
    session.script.finish now db (session.view db) := by
  unfold Session.advance
  cases hscript : session.script with
  | done result =>
    dsimp only
    rw [hscript]
  | stop =>
    dsimp only
    rw [hscript]
  | clock next => rfl
  | exclusive next => rfl
  | select next => rfl
  | selectForUpdate next => rfl
  | update expects f next =>
    have hnext : Script.finish now (.update expects f next) db (session.view db) =
        Script.finish now (next (f (session.visible db))) db
          { session.view db with row := (f (session.visible db)).getD (session.visible db) } := rfl
    rw [hnext]
    dsimp only
    cases f (session.visible db) with
    | none => rfl
    | some row => rfl
  | insertKey key next =>
    have hnext : Script.finish now (.insertKey key next) db (session.view db) =
        if key ∈ db.keys ++ session.keys then Script.finish now (next false) db (session.view db)
        else Script.finish now (next true) db
          { session.view db with keys := db.keys ++ session.keys ++ [key] } := rfl
    rw [hnext]
    dsimp only
    by_cases hkey : key ∈ db.keys ∨ key ∈ session.keys
    · rw [if_pos (List.mem_append.2 hkey), if_pos hkey]
      rfl
    · rw [if_neg (fun hmem => hkey (List.mem_append.1 hmem)), if_neg hkey, List.append_assoc]
      rfl
  | search next => rfl
  | insert entry next =>
    have hnext : Script.finish now (.insert entry next) db (session.view db) =
        Script.finish now next db
          { session.view db with entries := db.entries ++ session.entries ++ [entry] } := rfl
    rw [hnext, List.append_assoc]
    rfl
  | commit next =>
    dsimp only
    rw [view_fresh]
    rfl
  | rollback next =>
    dsimp only
    rw [view_fresh]
    rfl

theorem session_finish {P : Database Row Entry Key → Clock → Prop} {now : Clock}
    (hnow : ∀ db, P db now) {db later : Database Row Entry Key} {result : β}
    (script : Script Row Entry Key Clock β) (session : Session Row Entry Key Clock β)
    (hscript : session.script = script) (hends : script.Ends)
    (h : session.script.finish now db (session.view db) = (later, some result)) :
    Alone P (session, db) ({ script := .done result }, later) := by
  rw [← finish_advance] at h
  induction script generalizing session with
  | done _ => exact hends.elim
  | stop =>
    unfold Session.advance at h
    rw [hscript] at h
    dsimp only at h
    rw [hscript] at h
    exact nomatch h
  | clock next ih =>
    refine .head (.statement session db now fun _ => hnow db) ?_
    unfold Session.advance at h ⊢
    rw [hscript] at h ⊢
    exact ih now _ rfl (hends now) ((finish_advance _ _ _).trans h)
  | exclusive next ih =>
    refine .head (.statement session db now fun _ => hnow db) ?_
    unfold Session.advance at h ⊢
    rw [hscript] at h ⊢
    exact ih _ rfl hends ((finish_advance _ _ _).trans h)
  | select next ih =>
    refine .head (.statement session db now fun _ => hnow db) ?_
    unfold Session.advance at h ⊢
    rw [hscript] at h ⊢
    exact ih _ _ rfl (hends _) ((finish_advance _ _ _).trans h)
  | selectForUpdate next ih =>
    refine .head (.statement session db now fun _ => hnow db) ?_
    unfold Session.advance at h ⊢
    rw [hscript] at h ⊢
    exact ih _ _ rfl (hends _) ((finish_advance _ _ _).trans h)
  | update expects f next ih =>
    refine .head (.statement session db now fun _ => hnow db) ?_
    unfold Session.advance at h ⊢
    rw [hscript] at h ⊢
    dsimp only at h ⊢
    cases hf : f (session.visible db) with
    | none =>
      rw [hf] at h
      exact ih _ _ rfl (hends _) ((finish_advance _ _ _).trans h)
    | some row =>
      rw [hf] at h
      exact ih _ _ rfl (hends _) ((finish_advance _ _ _).trans h)
  | insertKey key next ih =>
    refine .head (.statement session db now fun _ => hnow db) ?_
    unfold Session.advance at h ⊢
    rw [hscript] at h ⊢
    dsimp only at h ⊢
    by_cases hkey : key ∈ db.keys ∨ key ∈ session.keys
    · rw [if_pos hkey] at h ⊢
      exact ih _ _ rfl (hends _) ((finish_advance _ _ _).trans h)
    · rw [if_neg hkey] at h ⊢
      exact ih _ _ rfl (hends _) ((finish_advance _ _ _).trans h)
  | search next ih =>
    refine .head (.statement session db now fun _ => hnow db) ?_
    unfold Session.advance at h ⊢
    rw [hscript] at h ⊢
    exact ih _ _ rfl (hends _) ((finish_advance _ _ _).trans h)
  | insert entry next ih =>
    refine .head (.statement session db now fun _ => hnow db) ?_
    unfold Session.advance at h ⊢
    rw [hscript] at h ⊢
    exact ih _ rfl hends ((finish_advance _ _ _).trans h)
  | commit next _ =>
    obtain ⟨_, rfl⟩ := hends
    refine .head (.statement session db now fun _ => hnow db) ?_
    unfold Session.advance at h ⊢
    rw [hscript] at h ⊢
    cases h
    exact .refl
  | rollback next _ =>
    obtain ⟨_, rfl⟩ := hends
    refine .head (.statement session db now fun _ => hnow db) ?_
    unfold Session.advance at h ⊢
    rw [hscript] at h ⊢
    cases h
    exact .refl

/-- A script that ends with its transaction and runs alone gets to where it is run to. -/
theorem alone_finish {P : Database Row Entry Key → Clock → Prop} {now : Clock}
    (hnow : ∀ db, P db now) {script : Script Row Entry Key Clock β}
    {db later : Database Row Entry Key} {result : β} (hends : script.Ends)
    (h : script.finish now db db = (later, some result)) :
    Alone P ({ script := script }, db) ({ script := .done result }, later) := by
  refine session_finish hnow script _ rfl hends ?_
  rw [view_fresh]
  exact h

/-! ## The order of the commits -/

section Order

variable (P : Database Row Entry Key → Clock → Prop) (scripts : ι → Script Row Entry Key Clock β)

/-- Where a session stands: it has not begun, it holds the exclusive lock and has run alone since
it began, it has finished, or it is lost. -/
inductive Standing (order : List ι) (db : Database Row Entry Key) (i : ι) :
    Session Row Entry Key Clock β → Prop
  | fresh (h : i ∉ order) : Standing order db i { script := scripts i }
  | running {session : Session Row Entry Key Clock β} (h : i ∉ order)
      (hlock : session.exclusiveLock = true) (hends : session.script.Ends)
      (halone : Alone P ({ script := scripts i }, db) (session, db)) : Standing order db i session
  | finished (h : i ∈ order) (result : β) : Standing order db i { script := .done result }
  | lost : Standing order db i { script := .stop }

/-- The finished sessions have run in this order. -/
structure RunInOrder (start : Database Row Entry Key) (server : Server ι Row Entry Key Clock β)
    (order : List ι) : Prop where
  locks : LocksSound server.sessions
  nodup : order.Nodup
  serial : Serial P scripts start order server.db
  standing : ∀ i, Standing P scripts order server.db i (server.sessions i)

variable {P scripts}

theorem advance_ends {session : Session Row Entry Key Clock β} {db : Database Row Entry Key}
    (now : Clock) (hlock : session.exclusiveLock = true) (hends : session.script.Ends) :
    ((session.advance db now).2 = db ∧ (session.advance db now).1.exclusiveLock = true ∧
      (session.advance db now).1.script.Ends) ∨
    ∃ result, (session.advance db now).1 = { script := .done result } := by
  unfold Session.advance
  cases hscript : session.script with
  | done result =>
    rw [hscript] at hends
    exact hends.elim
  | stop =>
    exact Or.inl ⟨rfl, hlock, hends⟩
  | clock next =>
    rw [hscript] at hends
    exact Or.inl ⟨rfl, hlock, hends now⟩
  | exclusive next =>
    rw [hscript] at hends
    exact Or.inl ⟨rfl, rfl, hends⟩
  | select next =>
    rw [hscript] at hends
    exact Or.inl ⟨rfl, hlock, hends _⟩
  | selectForUpdate next =>
    rw [hscript] at hends
    exact Or.inl ⟨rfl, hlock, hends _⟩
  | update expects f next =>
    rw [hscript] at hends
    dsimp only
    cases f (session.visible db) with
    | none => exact Or.inl ⟨rfl, hlock, hends _⟩
    | some row => exact Or.inl ⟨rfl, hlock, hends _⟩
  | insertKey key next =>
    rw [hscript] at hends
    dsimp only
    split_ifs
    · exact Or.inl ⟨rfl, hlock, hends _⟩
    · exact Or.inl ⟨rfl, hlock, hends _⟩
  | search next =>
    rw [hscript] at hends
    exact Or.inl ⟨rfl, hlock, hends _⟩
  | insert entry next =>
    rw [hscript] at hends
    exact Or.inl ⟨rfl, hlock, hends⟩
  | commit next =>
    rw [hscript] at hends
    obtain ⟨result, rfl⟩ := hends
    exact Or.inr ⟨result, rfl⟩
  | rollback next =>
    rw [hscript] at hends
    obtain ⟨result, rfl⟩ := hends
    exact Or.inr ⟨result, rfl⟩

theorem Standing.after {order : List ι} {db later : Database Row Entry Key} {i j : ι}
    {session : Session Row Entry Key Clock β} (hne : j ≠ i) (hfree : session.exclusiveLock = false)
    (h : Standing P scripts order db j session) :
    Standing P scripts (order ++ [i]) later j session := by
  cases h with
  | fresh h =>
    refine .fresh ?_
    intro hmem
    rcases List.mem_append.1 hmem with hmem | hmem
    · exact h hmem
    · exact hne (List.mem_singleton.1 hmem)
  | running h hlock _ _ =>
    rw [hlock] at hfree
    exact nomatch hfree
  | finished h result => exact .finished (List.mem_append_left _ h) result
  | lost => exact .lost

variable [DecidableEq ι] {start : Database Row Entry Key} {server : Server ι Row Entry Key Clock β}
  {order : List ι}

theorem RunInOrder.moves (h : RunInOrder P scripts start server order) {i : ι}
    {next : Session Row Entry Key Clock β}
    (hstanding : Standing P scripts order server.db i next)
    (hlocks : LocksSound (Function.update server.sessions i next)) :
    RunInOrder P scripts start ⟨server.db, Function.update server.sessions i next⟩ order := by
  refine ⟨hlocks, h.nodup, h.serial, ?_⟩
  intro j
  show Standing P scripts order server.db j (Function.update server.sessions i next j)
  by_cases hji : j = i
  · subst hji
    rw [Function.update_self]
    exact hstanding
  · rw [Function.update_of_ne hji]
    exact h.standing j

theorem RunInOrder.finishes (h : RunInOrder P scripts start server order) {i : ι}
    {later : Database Row Entry Key} {result : β} (hnew : i ∉ order)
    (hlock : (server.sessions i).exclusiveLock = true)
    (halone : Alone P ({ script := scripts i }, server.db) ({ script := .done result }, later))
    (hlocks : LocksSound (Function.update server.sessions i { script := .done result })) :
    RunInOrder P scripts start
      ⟨later, Function.update server.sessions i { script := .done result }⟩ (order ++ [i]) := by
  refine ⟨hlocks, ?_, .snoc h.serial halone, ?_⟩
  · exact List.Nodup.append h.nodup (List.nodup_singleton i)
      (List.disjoint_singleton.2 hnew)
  · intro j
    show Standing P scripts (order ++ [i]) later j
      (Function.update server.sessions i { script := .done result } j)
    by_cases hji : j = i
    · subst hji
      rw [Function.update_self]
      exact .finished (List.mem_append_right _ (List.mem_singleton_self j)) result
    · rw [Function.update_of_ne hji]
      refine (h.standing j).after hji ?_
      by_contra hj
      have hheld : (server.sessions j).exclusiveLock = true := by simpa using hj
      exact hji (h.locks.exclusive j i hheld (h.locks.alters i hlock))

/-- What one event does to the order. -/
theorem RunInOrder.step [Fintype ι]
    (hscripts : ∀ i, ∃ body, scripts i = .exclusive body ∧ body.Ends)
    {event : SessionEvent ι Clock} (h : RunInOrder P scripts start server order)
    (htimely : ReadsInTime P server event) :
    ∃ order, RunInOrder P scripts start (server.step event) order := by
  have hlocks := h.locks.step event
  cases event with
  | abort i => exact ⟨order, h.moves .lost hlocks⟩
  | run i now =>
    by_cases hwaits : server.Waits i
    · rw [Server.step_waits hwaits]
      exact ⟨order, h⟩
    · rw [Server.step_runs hwaits] at hlocks ⊢
      have hstep : AloneStep P (server.sessions i, server.db)
          ((server.sessions i).advance server.db now) :=
        .statement _ _ now htimely
      have hstanding := h.standing i
      generalize hsession : server.sessions i = session at hlocks hstep hstanding ⊢
      cases hstanding with
      | fresh hnew =>
        obtain ⟨body, hbody, hends⟩ := hscripts i
        have hnext : ({ script := scripts i } : Session Row Entry Key Clock β).advance
            server.db now =
            ({ script := body, touched := true, exclusiveLock := true }, server.db) := by
          unfold Session.advance
          rw [hbody]
        rw [hnext] at hlocks hstep ⊢
        exact ⟨order, h.moves (.running hnew rfl hends (.single hstep)) hlocks⟩
      | running hnew hlock hends halone =>
        rcases advance_ends now hlock hends with ⟨hdb, hkeeps, hgoes⟩ | ⟨result, hdone⟩
        · generalize session.advance server.db now = next at hlocks hstep hdb hkeeps hgoes ⊢
          obtain ⟨next, later⟩ := next
          cases hdb
          exact ⟨order, h.moves (.running hnew hkeeps hgoes (halone.tail hstep)) hlocks⟩
        · generalize session.advance server.db now = next at hlocks hstep hdone ⊢
          obtain ⟨next, later⟩ := next
          cases hdone
          exact ⟨order ++ [i], h.finishes hnew (by rw [hsession]; exact hlock)
            (halone.tail hstep) hlocks⟩
      | finished hold result => exact ⟨order, h.moves (.finished hold result) hlocks⟩
      | lost => exact ⟨order, h.moves .lost hlocks⟩

omit [DecidableEq ι] in
theorem runInOrder_start (db : Database Row Entry Key) :
    RunInOrder P scripts db ⟨db, fun i => { script := scripts i }⟩ [] := by
  refine ⟨⟨?_, ?_, ?_, ?_, ?_⟩, List.nodup_nil, .nil db, fun i => .fresh (List.not_mem_nil)⟩
  · intro i j h
    exact nomatch h
  · intro i j h
    exact nomatch h
  · intro i h
    exact nomatch h
  · intro i h
    exact nomatch h
  · intro i row h
    exact nomatch h

/-- Whatever the interleaving, the database is reached by running the finished scripts one after
another. -/
theorem run_serial [Fintype ι] (hscripts : ∀ i, ∃ body, scripts i = .exclusive body ∧ body.Ends)
    {db : Database Row Entry Key} {events : List (SessionEvent ι Clock)}
    (hrun : Along Server.step (ReadsInTime P) ⟨db, fun i => { script := scripts i }⟩ events) :
    ∃ order : List ι, order.Nodup ∧
      (∀ i result, ((runActions Server.step ⟨db, fun i => { script := scripts i }⟩
        events).sessions i).script = .done result → i ∈ order) ∧
      Serial P scripts db order
        (runActions Server.step ⟨db, fun i => { script := scripts i }⟩ events).db := by
  have hkept : ∃ order, RunInOrder P scripts db
      (runActions Server.step ⟨db, fun i => { script := scripts i }⟩ events) order := by
    refine Along.invariant (I := fun server => ∃ order, RunInOrder P scripts db server order)
      ?_ ⟨[], runInOrder_start db⟩ hrun
    intro server event hbefore hmet
    obtain ⟨order, horder⟩ := hbefore
    exact horder.step hscripts hmet
  obtain ⟨order, horder⟩ := hkept
  refine ⟨order, horder.nodup, ?_, horder.serial⟩
  intro i result hdone
  have hstanding := horder.standing i
  generalize (runActions Server.step ⟨db, fun i => { script := scripts i }⟩
    events).sessions i = session at hdone hstanding
  cases hstanding with
  | fresh _ =>
    obtain ⟨body, hbody, _⟩ := hscripts i
    rw [hbody] at hdone
    exact nomatch hdone
  | running _ _ hends _ =>
    rw [hdone] at hends
    exact hends.elim
  | finished h _ => exact h
  | lost => exact nomatch hdone

end Order

end QuantDinger.Library
