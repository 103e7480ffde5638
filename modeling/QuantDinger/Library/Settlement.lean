import QuantDinger.Library.ReadCommitted

/-!
# Scripts that settle

A script settles when every transaction of it records in the log what it adds to the row. While a
session holds a lock it knows the row, which is then what it saw last; while it holds none, the row
can be any valid one when it looks again. What is still owed to the log is carried along and is
zero at every commit. Sessions that settle conserve the balance of row and log, whatever the others
do, as long as no update finds a row that its writer did not expect.
-/

namespace QuantDinger.Library

variable {ι Row Entry Key Clock β M : Type} [AddCommGroup M]

section Settles

variable (weight : Row → M) (amount : Entry → M) (Valid : Row → Prop)

/-- A row that a session may see: a valid one, and the one it holds. -/
def Sees (held : Option Row) (row : Row) : Prop := Valid row ∧ ∀ known ∈ held, row = known

/-- The script settles, from a row that is held or not and an amount that is owed to the log. -/
def Settles : Script Row Entry Key Clock β → Option Row → M → Prop
  | .done _, _, _ => True
  | .stop, _, _ => True
  | .clock next, held, owed => ∀ now, Settles (next now) held owed
  | .exclusive next, held, owed => ∀ row, Sees Valid held row → Settles next (some row) owed
  | .select next, held, owed => ∀ row, Sees Valid held row → Settles (next row) held owed
  | .selectForUpdate next, held, owed =>
    ∀ row, Sees Valid held row → Settles (next row) (some row) owed
  | .update expects f next, held, owed => ∀ row, Sees Valid held row → expects row = true →
    (f row = none → Settles (next none) held owed) ∧
    ∀ later, f row = some later →
      Valid later ∧ Settles (next (some later)) (some later) (owed + weight later - weight row)
  | .insertKey _ next, held, owed => ∀ inserted, Settles (next inserted) held owed
  | .search next, held, owed => ∀ log, Settles (next log) held owed
  | .insert entry next, held, owed => Settles next held (owed - amount entry)
  | .commit next, _, owed => owed = 0 ∧ Settles next none 0
  | .rollback next, _, _ => Settles next none 0

/-- The row a session holds. -/
def heldBy (session : Session Row Entry Key Clock β) (db : Database Row Entry Key) : Option Row :=
  if session.exclusiveLock = true ∨ session.rowLock = true then some (session.visible db) else none

/-- What a session still owes to the log. -/
def owedBy (session : Session Row Entry Key Clock β) (db : Database Row Entry Key) : M :=
  weight (session.visible db) - weight db.row - (session.entries.map amount).sum

/-- The row and the log are balanced, and so is every session. -/
structure Conserves (base : M) (server : Server ι Row Entry Key Clock β) : Prop where
  locks : LocksSound server.sessions
  balance : weight server.db.row = base + (server.db.entries.map amount).sum
  valid : Valid server.db.row
  visible : ∀ i, Valid ((server.sessions i).visible server.db)
  settles : ∀ i, Settles weight amount Valid (server.sessions i).script
    (heldBy (server.sessions i) server.db) (owedBy weight amount (server.sessions i) server.db)

end Settles

/-- An update finds a row that its writer expects. -/
def Expected (server : Server ι Row Entry Key Clock β) (event : SessionEvent ι Clock) : Prop :=
  match event with
  | .abort _ => True
  | .run i _ => server.Waits i ∨
    match (server.sessions i).script with
    | .update expects _ _ => expects ((server.sessions i).visible server.db) = true
    | _ => True

/-- INTERNAL: whether the next statement finds what it expects. -/
def decideExpects (script : Script Row Entry Key Clock β) (row : Row) :
    Decidable (match script with
      | .update expects _ _ => expects row = true
      | _ => True) :=
  match script with
  | .update expects _ _ => inferInstanceAs (Decidable (expects row = true))
  | .done _ | .stop | .clock _ | .exclusive _ | .select _ | .selectForUpdate _ | .insertKey _ _
  | .search _ | .insert _ _ | .commit _ | .rollback _ => isTrue trivial

instance [Fintype ι] [DecidableEq ι] [DecidableEq Key] (server : Server ι Row Entry Key Clock β)
    (event : SessionEvent ι Clock) : Decidable (Expected server event) :=
  match event with
  | .abort _ => isTrue trivial
  | .run i _ => @instDecidableOr _ _ inferInstance
    (decideExpects (server.sessions i).script ((server.sessions i).visible server.db))

variable {weight : Row → M} {amount : Entry → M} {Valid : Row → Prop}

/-- An update that always writes. -/
theorem settles_write {expects : Row → Bool} {f : Row → Row}
    {next : Option Row → Script Row Entry Key Clock β} {held : Option Row} {owed : M}
    (h : ∀ row, Sees Valid held row → expects row = true → Valid (f row) ∧
      Settles weight amount Valid (next (some (f row))) (some (f row))
        (owed + weight (f row) - weight row)) :
    Settles weight amount Valid (.update expects (fun row => some (f row)) next) held owed := by
  intro row hsees hexpected
  refine ⟨?_, ?_⟩
  · intro hmissed
    exact nomatch hmissed
  · intro later hlater
    cases hlater
    exact h row hsees hexpected

/-- An update that writes under a condition. -/
theorem settles_writeIf {c : Row → Prop} [DecidablePred c] {expects : Row → Bool} {f : Row → Row}
    {next : Option Row → Script Row Entry Key Clock β} {held : Option Row} {owed : M}
    (hmissed : Settles weight amount Valid (next none) held owed)
    (h : ∀ row, Sees Valid held row → c row → Valid (f row) ∧
      Settles weight amount Valid (next (some (f row))) (some (f row))
        (owed + weight (f row) - weight row)) :
    Settles weight amount Valid
      (.update expects (fun row => if c row then some (f row) else none) next) held owed := by
  intro row hsees _
  refine ⟨fun _ => hmissed, ?_⟩
  intro later hlater
  dsimp only at hlater
  by_cases hc : c row
  · rw [if_pos hc] at hlater
    cases hlater
    exact h row hsees hc
  · rw [if_neg hc] at hlater
    exact nomatch hlater

theorem sees_visible {session : Session Row Entry Key Clock β} {db : Database Row Entry Key}
    (h : Valid (session.visible db)) : Sees Valid (heldBy session db) (session.visible db) := by
  refine ⟨h, ?_⟩
  intro known hknown
  unfold heldBy at hknown
  split_ifs at hknown
  · exact Option.some.inj hknown
  · exact nomatch hknown

theorem unaffected {session : Session Row Entry Key Clock β} {db later : Database Row Entry Key}
    (hheld : later.row = db.row ∨
      (session.row = none ∧ session.exclusiveLock = false ∧ session.rowLock = false))
    (h : Settles weight amount Valid session.script (heldBy session db)
      (owedBy weight amount session db)) :
    Settles weight amount Valid session.script (heldBy session later)
      (owedBy weight amount session later) := by
  rcases hheld with hsame | ⟨hrow, hexclusive, hlock⟩
  · unfold heldBy owedBy Session.visible at h ⊢
    rw [hsame]
    exact h
  · have hbefore : heldBy session db = none := by
      unfold heldBy
      rw [hexclusive, hlock]
      rfl
    have hafter : heldBy session later = none := by
      unfold heldBy
      rw [hexclusive, hlock]
      rfl
    rw [hbefore] at h
    rw [hafter]
    unfold owedBy Session.visible at h ⊢
    rw [hrow] at h ⊢
    simpa using h

variable (weight amount Valid) in
/-- INTERNAL: what one statement keeps of its own session; the database changes at a commit only. -/
structure SettledStep (base : M) (session : Session Row Entry Key Clock β)
    (db : Database Row Entry Key)
    (next : Session Row Entry Key Clock β × Database Row Entry Key) : Prop where
  settles : Settles weight amount Valid next.1.script (heldBy next.1 next.2)
    (owedBy weight amount next.1 next.2)
  visible : Valid (next.1.visible next.2)
  valid : Valid next.2.row
  balance : weight next.2.row = base + (next.2.entries.map amount).sum
  row : next.2.row = db.row ∨ ∃ row, session.row = some row

theorem settled_stay {base : M} {session next : Session Row Entry Key Clock β}
    {db : Database Row Entry Key} (hrow : next.row = session.row)
    (hbalance : weight db.row = base + (db.entries.map amount).sum) (hvalid : Valid db.row)
    (hvisible : Valid (session.visible db))
    (h : Settles weight amount Valid next.script (heldBy next db) (owedBy weight amount next db)) :
    SettledStep weight amount Valid base session db (next, db) := by
  refine ⟨h, ?_, hvalid, hbalance, Or.inl rfl⟩
  unfold Session.visible at hvisible ⊢
  rw [hrow]
  exact hvisible

theorem settled_advance [DecidableEq Key] {base : M} {session : Session Row Entry Key Clock β}
    {db : Database Row Entry Key} (now : Clock)
    (hbalance : weight db.row = base + (db.entries.map amount).sum) (hvalid : Valid db.row)
    (hvisible : Valid (session.visible db))
    (h : Settles weight amount Valid session.script (heldBy session db)
      (owedBy weight amount session db))
    (hexpected : ∀ expects f next, session.script = .update expects f next →
      expects (session.visible db) = true) :
    SettledStep weight amount Valid base session db
      (session.advance db now) := by
  have hsees := sees_visible hvisible
  unfold Session.advance
  cases hscript : session.script with
  | done result => exact settled_stay rfl hbalance hvalid hvisible h
  | stop => exact settled_stay rfl hbalance hvalid hvisible h
  | clock next =>
    rw [hscript] at h
    exact settled_stay rfl hbalance hvalid hvisible (h now)
  | exclusive next =>
    rw [hscript] at h
    refine settled_stay rfl hbalance hvalid hvisible ?_
    have hheld : heldBy { session with
        script := next, touched := true, exclusiveLock := true } db =
        some (session.visible db) := if_pos (Or.inl rfl)
    rw [hheld]
    exact h _ hsees
  | select next =>
    rw [hscript] at h
    exact settled_stay rfl hbalance hvalid hvisible (h _ hsees)
  | selectForUpdate next =>
    rw [hscript] at h
    refine settled_stay rfl hbalance hvalid hvisible ?_
    have hheld : heldBy { session with
        script := next (session.visible db), touched := true, rowLock := true } db =
        some (session.visible db) := if_pos (Or.inr rfl)
    rw [hheld]
    exact h _ hsees
  | update expects f next =>
    rw [hscript] at h
    obtain ⟨hmissed, hwritten⟩ := h _ hsees (hexpected expects f next hscript)
    dsimp only
    cases hf : f (session.visible db) with
    | none => exact settled_stay rfl hbalance hvalid hvisible (hmissed hf)
    | some row =>
      obtain ⟨hrow, hnext⟩ := hwritten row hf
      refine ⟨?_, hrow, hvalid, hbalance, Or.inl rfl⟩
      have hheld : heldBy { session with
          script := next (some row), row := some row, touched := true, rowLock := true } db =
          some row := if_pos (Or.inr rfl)
      have howed : owedBy weight amount { session with
          script := next (some row), row := some row, touched := true, rowLock := true } db =
          owedBy weight amount session db + weight row - weight (session.visible db) := by
        unfold owedBy
        show weight row - weight db.row - (session.entries.map amount).sum = _
        abel
      rw [hheld, howed]
      exact hnext
  | insertKey key next =>
    rw [hscript] at h
    dsimp only
    split_ifs
    · exact settled_stay rfl hbalance hvalid hvisible (h false)
    · exact settled_stay rfl hbalance hvalid hvisible (h true)
  | search next =>
    rw [hscript] at h
    exact settled_stay rfl hbalance hvalid hvisible (h _)
  | insert entry next =>
    rw [hscript] at h
    refine settled_stay rfl hbalance hvalid hvisible ?_
    have howed : owedBy weight amount { session with
        script := next, entries := session.entries ++ [entry] } db =
        owedBy weight amount session db - amount entry := by
      unfold owedBy
      show weight (session.visible db) - weight db.row -
        ((session.entries ++ [entry]).map amount).sum = _
      rw [List.map_append, List.sum_append, List.map_singleton, List.sum_singleton]
      abel
    rw [howed]
    exact h
  | commit next =>
    rw [hscript] at h
    obtain ⟨howed, hnext⟩ := h
    have hcredit : weight (session.visible db) =
        weight db.row + (session.entries.map amount).sum := by
      unfold owedBy at howed
      rw [sub_sub] at howed
      exact sub_eq_zero.1 howed
    refine ⟨?_, hvisible, hvisible, ?_, ?_⟩
    · have hnone : owedBy weight amount
          ({ script := next } : Session Row Entry Key Clock β)
          { row := session.visible db
            entries := db.entries ++ session.entries
            keys := db.keys ++ session.keys } = 0 := by
        unfold owedBy Session.visible
        simp
      rw [hnone]
      exact hnext
    · show weight (session.visible db) = base + ((db.entries ++ session.entries).map amount).sum
      rw [hcredit, hbalance, List.map_append, List.sum_append, add_assoc]
    · cases hrow : session.row with
      | none =>
        refine Or.inl ?_
        show session.visible db = db.row
        unfold Session.visible
        rw [hrow]
        rfl
      | some row => exact Or.inr ⟨row, rfl⟩
  | rollback next =>
    rw [hscript] at h
    refine ⟨?_, hvalid, hvalid, hbalance, Or.inl rfl⟩
    have hnone : owedBy weight amount
        ({ script := next } : Session Row Entry Key Clock β) db = 0 := by
      unfold owedBy Session.visible
      simp
    rw [hnone]
    exact h

theorem conserves_advance [DecidableEq ι] {base : M} {server : Server ι Row Entry Key Clock β}
    (h : Conserves weight amount Valid base server) {i : ι}
    {next : Session Row Entry Key Clock β × Database Row Entry Key}
    (hsettled : SettledStep weight amount Valid base (server.sessions i) server.db next)
    (hlocks : LocksSound (Function.update server.sessions i next.1)) :
    Conserves weight amount Valid base ⟨next.2, Function.update server.sessions i next.1⟩ := by
  refine ⟨hlocks, hsettled.balance, hsettled.valid, ?_, ?_⟩
  · intro j
    show Valid ((Function.update server.sessions i next.1 j).visible next.2)
    by_cases hji : j = i
    · subst hji
      rw [Function.update_self]
      exact hsettled.visible
    · rw [Function.update_of_ne hji]
      have hvisible := h.visible j
      unfold Session.visible at hvisible ⊢
      cases hrow : (server.sessions j).row with
      | none => exact hsettled.valid
      | some row =>
        rw [hrow] at hvisible
        exact hvisible
  · intro j
    show Settles weight amount Valid (Function.update server.sessions i next.1 j).script
      (heldBy (Function.update server.sessions i next.1 j) next.2)
      (owedBy weight amount (Function.update server.sessions i next.1 j) next.2)
    by_cases hji : j = i
    · subst hji
      rw [Function.update_self]
      exact hsettled.settles
    · rw [Function.update_of_ne hji]
      refine unaffected ?_ (h.settles j)
      rcases hsettled.row with hsame | ⟨row, hrow⟩
      · exact Or.inl hsame
      · have hlock := h.locks.writes i row hrow
        have hfree : (server.sessions j).rowLock = false := by
          by_contra hj
          exact hji (h.locks.row j i (by simpa using hj) hlock)
        refine Or.inr ⟨?_, ?_, hfree⟩
        · by_contra hj
          obtain ⟨other, hother⟩ := Option.ne_none_iff_exists'.1 hj
          rw [h.locks.writes j other hother] at hfree
          exact nomatch hfree
        · by_contra hj
          exact hji (h.locks.exclusive j i (by simpa using hj) (h.locks.touches i hlock))

/-- Whatever a session does next, where it finds the row it expects, the balance is kept. -/
theorem conserves_step [Fintype ι] [DecidableEq ι] [DecidableEq Key] {base : M}
    {server : Server ι Row Entry Key Clock β} {event : SessionEvent ι Clock}
    (h : Conserves weight amount Valid base server) (hexpected : Expected server event) :
    Conserves weight amount Valid base (server.step event) := by
  have hlocks := h.locks.step event
  cases event with
  | run i now =>
    by_cases hwaits : server.Waits i
    · rw [Server.step_waits hwaits]
      exact h
    · rw [Server.step_runs hwaits] at hlocks ⊢
      refine conserves_advance h
        (settled_advance now h.balance h.valid (h.visible i) (h.settles i) ?_) hlocks
      intro expects f next hscript
      have hfound := hexpected.resolve_left hwaits
      rw [hscript] at hfound
      exact hfound
  | abort i =>
    let next : Session Row Entry Key Clock β := { script := .stop }
    have hsettled : SettledStep weight amount Valid base (server.sessions i) server.db
        (next, server.db) := ⟨trivial, h.valid, h.valid, h.balance, Or.inl rfl⟩
    exact conserves_advance h hsettled hlocks

/-- Sessions that settle conserve the balance of the row and the log in every run. -/
theorem conserves_run [Fintype ι] [DecidableEq ι] [DecidableEq Key] {base : M}
    {server : Server ι Row Entry Key Clock β} {events : List (SessionEvent ι Clock)}
    (h : Conserves weight amount Valid base server)
    (hrun : Along Server.step Expected server events) :
    Conserves weight amount Valid base (runActions Server.step server events) :=
  hrun.invariant (fun _ _ hkept hmet => conserves_step hkept hmet) h

end QuantDinger.Library
