import QuantDinger.Analysis.RouteKeys
import QuantDinger.Library.Runs

/-!
# Gaps in a bar stream

The publisher keeps one token for each stream and publishes what is due after it. What lies between
the first token it knew and the last one is seen, or not actionable, or was jumped over by an
observation of a later bar. So the stream has no gap after `publish_due` exactly if the bars that
were jumped over have been seen by then.
-/

namespace QuantDinger.Analysis

open QuantDinger.Library
open QuantDinger.Model
open QuantDinger.Model.Events
open QuantDinger.Model.Live (oneSecond)

variable {config : RecoveryConfig} {route : BarRecoveryRoute} {key : String}

/-- `is_equity_bar_close` is true for the bar. -/
def Actionable (config : RecoveryConfig) (route : BarRecoveryRoute) (token : ℤ) : Prop :=
  ∃ event, route.event config.uuid5 token = .ok event ∧
    config.isEquityBarClose route.market event.payload.closedAt = .ok true

/-- The token that is due at an instant minus the grace. -/
def Due (config : RecoveryConfig) (route : BarRecoveryRoute) (now : Time) (token : ℤ) : Prop :=
  completedBarToken route.timeframe (now - config.grace) route.venue route.marketType = .ok token

/-- An observation of a later bar has jumped over the bar. -/
def JumpedOver (publisher : RecoveryPublisher) (key : String) (token : ℤ) : Prop :=
  ∃ jump ∈ publisher.jumps, jump.partitionKey = key ∧ jump.before < token ∧ token < jump.after

/-- Every actionable bar after the first one that was known, up to the one that is due, has been
observed or published once `publish_due` has delivered its batch or has nothing to send. -/
def GapFree (config : RecoveryConfig) (key : String) (route : BarRecoveryRoute)
    (publisher : RecoveryPublisher) : RecoveryMove → Prop
  | .observe _ => True
  | .publishDue now rows answer =>
    let after := publisher.publishDue config now rows answer
    after.2 = .nothing ∨ after.2 = .delivered →
      ∀ first ∈ after.1.known key, ∀ due, Due config route now due →
        ∀ token, first < token → token ≤ due → Actionable config route token →
          (key, token) ∈ after.1.seen

/-- Of these bars, those that were jumped over have been observed or published before. -/
def JumpsFilled (config : RecoveryConfig) (key : String) (route : BarRecoveryRoute)
    (publisher : RecoveryPublisher) : RecoveryMove → Prop
  | .observe _ => True
  | .publishDue now rows answer =>
    let after := publisher.publishDue config now rows answer
    after.2 = .nothing ∨ after.2 = .delivered →
      ∀ first ∈ publisher.known key, ∀ due, Due config route now due →
        ∀ token, first < token → token ≤ due → Actionable config route token →
          JumpedOver publisher key token → (key, token) ∈ publisher.seen

/-! ## The due tokens of a route -/

theorem mem_dueTokens {previous token t : ℤ} :
    t ∈ dueTokens previous token ↔ previous < t ∧ t ≤ token := by
  unfold dueTokens
  rw [List.mem_map]
  constructor
  · rintro ⟨i, hi, rfl⟩
    have hlt := List.mem_range.mp hi
    omega
  · rintro ⟨hlt, hle⟩
    refine ⟨(t - previous - 1).toNat, List.mem_range.mpr ?_, ?_⟩
    · omega
    · omega

theorem collectDue_events {found : BarRecoveryRoute} {rowKey : String} {tokens : List ℤ}
    {events events' : List BarEvent} {has has' : Bool}
    (h : collectDue config found rowKey tokens events has = .ok (events', has')) :
    ∃ added, events' = events ++ added ∧ ∀ event ∈ added, event.partitionKey = rowKey := by
  induction tokens generalizing events has with
  | nil =>
    cases h
    exact ⟨[], (List.append_nil _).symm, fun _ hmem => nomatch hmem⟩
  | cons token tokens ih =>
    obtain ⟨event, hevent, h⟩ := bind_ok_iff.mp h
    by_cases hkey : event.partitionKey = rowKey
    · rw [if_neg (not_not.mpr hkey)] at h
      obtain ⟨actionable, -, h⟩ := bind_ok_iff.mp h
      cases actionable with
      | false => exact ih h
      | true =>
        obtain ⟨added, hadded, hkeys⟩ := ih h
        refine ⟨event :: added, by rw [hadded, List.append_assoc]; rfl, ?_⟩
        intro other hother
        rcases List.mem_cons.mp hother with rfl | hother
        · exact hkey
        · exact hkeys other hother
    · rw [if_pos hkey] at h
      cases h
      exact ⟨[], (List.append_nil _).symm, fun _ hmem => nomatch hmem⟩

theorem collectDue_route (hroute : Rebuilds key route) {tokens : List ℤ}
    {events events' : List BarEvent} {has has' : Bool}
    (h : collectDue config route key tokens events has = .ok (events', has')) :
    ∃ added, events' = events ++ added ∧
      (∀ event ∈ added, event.payload.closedBarToken ∈ tokens) ∧
      (∀ token ∈ tokens, Actionable config route token → (key, token) ∈ added.map barOf) ∧
      (has' = true ↔ has = true ∨ added ≠ []) := by
  induction tokens generalizing events has with
  | nil =>
    cases h
    refine ⟨[], (List.append_nil _).symm, fun _ hmem => (nomatch hmem), fun _ hmem => (nomatch hmem),
      ?_⟩
    rw [ne_self_iff_false, or_false]
  | cons token tokens ih =>
    obtain ⟨event, hevent, h⟩ := bind_ok_iff.mp h
    obtain ⟨rebuilt, hrebuilt, hkey, -, htoken⟩ := hroute.event config.uuid5 token
    rw [hevent] at hrebuilt
    cases hrebuilt
    rw [if_neg (not_not.mpr hkey)] at h
    obtain ⟨actionable, hactionable, h⟩ := bind_ok_iff.mp h
    cases actionable with
    | false =>
      obtain ⟨added, hadded, htokens, hall, hflag⟩ := ih h
      refine ⟨added, hadded, fun e he => List.mem_cons_of_mem token (htokens e he), ?_, hflag⟩
      rintro t ht ⟨other, hother, hclose⟩
      rcases List.mem_cons.mp ht with rfl | ht
      · rw [hevent] at hother
        cases hother
        rw [hactionable] at hclose
        exact nomatch hclose
      · exact hall t ht ⟨other, hother, hclose⟩
    | true =>
      obtain ⟨added, hadded, htokens, hall, hflag⟩ := ih h
      refine ⟨event :: added, by rw [hadded, List.append_assoc]; rfl, ?_, ?_, ?_⟩
      · intro e he
        rcases List.mem_cons.mp he with rfl | he
        · rw [htoken]
          exact List.mem_cons_self
        · exact List.mem_cons_of_mem token (htokens e he)
      · intro t ht hact
        rcases List.mem_cons.mp ht with rfl | ht
        · refine List.mem_map.mpr ⟨event, List.mem_cons_self, ?_⟩
          rw [barOf, hkey, htoken]
        · exact List.mem_cons_of_mem _ (hall t ht hact)
      · exact iff_of_true (hflag.mpr (Or.inl rfl)) (Or.inr (List.cons_ne_nil _ _))

/-! ## The plan for the stream -/

/-- INTERNAL: what the plan holds for the stream while the rows are gone through. -/
structure PlanFor (config : RecoveryConfig) (key : String) (route : BarRecoveryRoute)
    (mark due : ℤ) (plan : RecoveryPlan) : Prop where
  events : ∀ event ∈ plan.events, event.partitionKey = key → mark < event.payload.closedBarToken
  eventTokens : ∀ token, (key, token) ∈ plan.eventTokens → token = due ∧ mark < due ∧
    plan.events ≠ [] ∧
    ∀ t, mark < t → t ≤ due → Actionable config route t → (key, t) ∈ plan.events.map barOf
  sessionTokens : ∀ token, (key, token) ∈ plan.sessionTokens → token = due ∧ mark < due ∧
    ∀ t, mark < t → t ≤ due → ¬ Actionable config route t

/-- INTERNAL: the row of the stream has been gone through. -/
structure Planned (key : String) (mark due : ℤ) (lastTokens : String → Option ℤ)
    (plan : RecoveryPlan) : Prop where
  active : key ∈ plan.activeKeys
  last : lastTokens key = some mark
  reached : due ≤ mark ∨ (key, due) ∈ plan.eventTokens ∨ (key, due) ∈ plan.sessionTokens

variable {mark due : ℤ} {plan : RecoveryPlan} {lastTokens : String → Option ℤ}

theorem PlanFor.extend {next : RecoveryPlan} (h : PlanFor config key route mark due plan)
    {added : List BarEvent} (hevents : next.events = plan.events ++ added)
    (hadded : ∀ event ∈ added, event.partitionKey ≠ key)
    (heventTokens : ∀ token, (key, token) ∈ next.eventTokens → (key, token) ∈ plan.eventTokens)
    (hsessionTokens : ∀ token, (key, token) ∈ next.sessionTokens →
      (key, token) ∈ plan.sessionTokens) :
    PlanFor config key route mark due next := by
  refine ⟨?_, ?_, ?_⟩
  · intro event hmem hkey
    rw [hevents] at hmem
    rcases List.mem_append.mp hmem with hmem | hmem
    · exact h.events event hmem hkey
    · exact absurd hkey (hadded event hmem)
  · intro token hmem
    obtain ⟨htoken, hlate, hsome, hall⟩ := h.eventTokens token (heventTokens token hmem)
    rw [hevents, List.map_append]
    refine ⟨htoken, hlate, List.append_ne_nil_of_left_ne_nil hsome added, ?_⟩
    intro t hlt hle hact
    exact List.mem_append_left _ (hall t hlt hle hact)
  · intro token hmem
    exact h.sessionTokens token (hsessionTokens token hmem)

theorem Planned.extend {next : RecoveryPlan} {later : String → Option ℤ}
    (h : Planned key mark due lastTokens plan) (hactive : plan.activeKeys ⊆ next.activeKeys)
    (hmark : later key = lastTokens key) (heventTokens : plan.eventTokens ⊆ next.eventTokens)
    (hsessionTokens : plan.sessionTokens ⊆ next.sessionTokens) :
    Planned key mark due later next :=
  ⟨hactive h.active, hmark.trans h.last,
    h.reached.imp_right (Or.imp (fun hmem => heventTokens hmem) fun hmem => hsessionTokens hmem)⟩

theorem routeDue_ok {rowKey timeframe : String} {eligibleAt : Time} {found : BarRecoveryRoute}
    {token : ℤ} : routeDue rowKey timeframe eligibleAt = .ok (found, token) ↔
      BarRecoveryRoute.parse rowKey timeframe = .ok found ∧
        completedBarToken found.timeframe eligibleAt found.venue found.marketType = .ok token := by
  unfold routeDue
  rw [bind_ok_iff]
  constructor
  · rintro ⟨route, hparse, h⟩
    obtain ⟨due, htoken, h⟩ := bind_ok_iff.mp h
    cases h
    exact ⟨hparse, htoken⟩
  · rintro ⟨hparse, htoken⟩
    exact ⟨found, hparse, bind_ok_iff.mpr ⟨token, htoken, rfl⟩⟩

theorem planRows_sound (hroute : Rebuilds key route) {now : Time} (hdue : Due config route now due)
    {rows : List (String × String)} {later : String → Option ℤ}
    {result : Except String RecoveryPlan}
    (h : planRows config (now - config.grace) rows lastTokens plan = (later, result))
    (hmark : (lastTokens key).getD (due - 1) = mark)
    (hplan : PlanFor config key route mark due plan) :
    (later key = lastTokens key ∨ later key = some mark) ∧
      ∀ final, result = .ok final → PlanFor config key route mark due final ∧
        (Planned key mark due lastTokens plan ∨ (key, route.timeframe) ∈ rows →
          Planned key mark due later final) := by
  induction rows generalizing lastTokens plan with
  | nil =>
    cases h
    refine ⟨Or.inl rfl, ?_⟩
    rintro final hfinal
    cases hfinal
    exact ⟨hplan, fun hpast => hpast.elim id fun hmem => nomatch hmem⟩
  | cons row rows ih =>
    obtain ⟨rowKey, timeframe⟩ := row
    -- the rest of the rows, after this one
    have hrest : ∀ {tokens : String → Option ℤ} {next : RecoveryPlan},
        planRows config (now - config.grace) rows tokens next = (later, result) →
        (tokens key = lastTokens key ∨ tokens key = some mark) →
        PlanFor config key route mark due next →
        (Planned key mark due lastTokens plan ∨ (key, route.timeframe) = (rowKey, timeframe) →
          Planned key mark due tokens next) →
        (later key = lastTokens key ∨ later key = some mark) ∧
          ∀ final, result = .ok final → PlanFor config key route mark due final ∧
            (Planned key mark due lastTokens plan ∨
                (key, route.timeframe) ∈ (rowKey, timeframe) :: rows →
              Planned key mark due later final) := by
      intro tokens next hnext htokens hplan' hpast
      have hmark' : (tokens key).getD (due - 1) = mark := by
        rcases htokens with hsame | hset
        · rw [hsame]
          exact hmark
        · rw [hset]
          rfl
      obtain ⟨hlater, hfinal⟩ := ih hnext hmark' hplan'
      refine ⟨?_, ?_⟩
      · rcases hlater with hsame | hset
        · rw [hsame]
          exact htokens
        · exact Or.inr hset
      · intro final hok
        refine ⟨(hfinal final hok).1, fun hbefore => (hfinal final hok).2 ?_⟩
        rcases hbefore with hplanned | hmem
        · exact Or.inl (hpast (Or.inl hplanned))
        · rcases List.mem_cons.mp hmem with hhead | hmem
          · exact Or.inl (hpast (Or.inr hhead))
          · exact Or.inr hmem
    have hkept : ∀ {tokens : String → Option ℤ} {next : RecoveryPlan}
        (_ : plan.activeKeys ⊆ next.activeKeys) (_ : tokens key = lastTokens key)
        (_ : plan.eventTokens ⊆ next.eventTokens) (_ : plan.sessionTokens ⊆ next.sessionTokens),
        strip rowKey ≠ key →
        (Planned key mark due lastTokens plan ∨ (key, route.timeframe) = (rowKey, timeframe) →
          Planned key mark due tokens next) := by
      rintro tokens next hactive hsame hevents hsessions hother (hplanned | hhead)
      · exact hplanned.extend hactive hsame hevents hsessions
      · cases hhead
        exact absurd hroute.stripped hother
    rw [planRows] at h
    dsimp only at h
    -- from here on only the stripped key of the row is used
    generalize strip rowKey = stripped at h hkept
    by_cases hblank : stripped = ""
    · rw [if_pos hblank] at h
      have hother : stripped ≠ key := by
        rw [hblank]
        exact hroute.some.symm
      exact hrest h (Or.inl rfl) hplan (hkept (fun _ => id) rfl (fun _ => id) (fun _ => id) hother)
    rw [if_neg hblank] at h
    have hactive : plan.activeKeys ⊆ stripped :: plan.activeKeys := List.subset_cons_self _ _
    by_cases hkey : stripped = key
    · rw [hkey] at h hactive
      cases hfound : routeDue key timeframe (now - config.grace) with
      | error error =>
        rw [hfound] at h
        refine hrest h (Or.inl rfl) ⟨hplan.events, hplan.eventTokens, hplan.sessionTokens⟩ ?_
        rintro (hplanned | hhead)
        · exact hplanned.extend hactive rfl (fun _ => id) (fun _ => id)
        · cases hhead
          rw [routeDue_ok.mpr ⟨hroute.own, hdue⟩] at hfound
          exact nomatch hfound
      | ok answer =>
        obtain ⟨found, token⟩ := answer
        obtain ⟨hparse, htoken⟩ := routeDue_ok.mp hfound
        cases hroute.parsed hparse
        cases Except.ok.inj (htoken.symm.trans hdue)
        rw [hfound] at h
        dsimp only at h
        rw [hmark] at h
        by_cases hle : due ≤ mark
        · rw [if_pos hle] at h
          refine hrest h (Or.inr (Function.update_self _ _ _))
            ⟨hplan.events, hplan.eventTokens, hplan.sessionTokens⟩ fun _ => ?_
          exact ⟨List.mem_cons_self, Function.update_self _ _ _, Or.inl hle⟩
        rw [if_neg hle] at h
        cases hcollect : collectDue config route key (dueTokens mark due) plan.events false with
        | error error =>
          rw [hcollect] at h
          cases h
          exact ⟨Or.inr (Function.update_self _ _ _), fun _ hok => nomatch hok⟩
        | ok collected =>
          obtain ⟨events, has⟩ := collected
          obtain ⟨added, rfl, htokens, hall, hflag⟩ := collectDue_route hroute hcollect
          have hlater : ∀ event ∈ plan.events ++ added, event.partitionKey = key →
              mark < event.payload.closedBarToken := by
            intro event hmem heventKey
            rcases List.mem_append.mp hmem with hmem | hmem
            · exact hplan.events event hmem heventKey
            · exact (mem_dueTokens.mp (htokens event hmem)).1
          have hcovered : ∀ t, mark < t → t ≤ due → Actionable config route t →
              (key, t) ∈ added.map barOf := fun t hlt hle' hact =>
            hall t (mem_dueTokens.mpr ⟨hlt, hle'⟩) hact
          have hearlier : ∀ t, (key, t) ∈ plan.eventTokens → t = due ∧ mark < due ∧
              plan.events ++ added ≠ [] ∧ ∀ t', mark < t' → t' ≤ due →
                Actionable config route t' → (key, t') ∈ (plan.events ++ added).map barOf := by
            intro t hmem
            obtain ⟨htoken', hlate, hsome, hold⟩ := hplan.eventTokens t hmem
            refine ⟨htoken', hlate, List.append_ne_nil_of_left_ne_nil hsome added, ?_⟩
            intro t' hlt hle' hact
            rw [List.map_append]
            exact List.mem_append_left _ (hold t' hlt hle' hact)
          rw [hcollect] at h
          cases has with
          | true =>
            refine hrest h (Or.inr (Function.update_self _ _ _))
              ⟨hlater, ?_, hplan.sessionTokens⟩ fun _ => ?_
            · intro t hmem
              rcases List.mem_cons.mp hmem with hhead | hmem
              · cases hhead
                have hsome : added ≠ [] := (hflag.mp rfl).resolve_left Bool.false_ne_true
                refine ⟨rfl, not_le.mp hle, List.append_ne_nil_of_right_ne_nil _ hsome, ?_⟩
                intro t' hlt hle' hact
                rw [List.map_append]
                exact List.mem_append_right _ (hcovered t' hlt hle' hact)
              · exact hearlier t hmem
            · exact ⟨List.mem_cons_self, Function.update_self _ _ _,
                Or.inr (Or.inl List.mem_cons_self)⟩
          | false =>
            refine hrest h (Or.inr (Function.update_self _ _ _))
              ⟨hlater, hearlier, ?_⟩ fun _ => ?_
            · intro t hmem
              rcases List.mem_cons.mp hmem with hhead | hmem
              · cases hhead
                have hnone : added = [] := by
                  by_contra hsome
                  exact nomatch hflag.mpr (Or.inr hsome)
                refine ⟨rfl, not_le.mp hle, ?_⟩
                intro t' hlt hle' hact
                have hmem' := hcovered t' hlt hle' hact
                rw [hnone] at hmem'
                exact nomatch hmem'
              · exact hplan.sessionTokens t hmem
            · exact ⟨List.mem_cons_self, Function.update_self _ _ _,
                Or.inr (Or.inr List.mem_cons_self)⟩
    · -- a row of another stream
      have hentry : ∀ {entries : List (String × ℤ)} {token t : ℤ},
          (key, t) ∈ (stripped, token) :: entries → (key, t) ∈ entries := by
        intro entries token t hmem
        rcases List.mem_cons.mp hmem with hhead | hmem
        · cases hhead
          exact absurd rfl hkey
        · exact hmem
      have hupdate : ∀ value : Option ℤ,
          Function.update lastTokens (stripped) value key = lastTokens key :=
        fun value => Function.update_of_ne (Ne.symm hkey) value lastTokens
      cases hfound : routeDue (stripped) timeframe (now - config.grace) with
      | error error =>
        rw [hfound] at h
        exact hrest h (Or.inl rfl) ⟨hplan.events, hplan.eventTokens, hplan.sessionTokens⟩
          (hkept hactive rfl (fun _ => id) (fun _ => id) hkey)
      | ok answer =>
        obtain ⟨found, token⟩ := answer
        rw [hfound] at h
        dsimp only at h
        generalize ((lastTokens (stripped)).getD (token - 1)) = previous at h
        by_cases hle : token ≤ previous
        · rw [if_pos hle] at h
          exact hrest h (Or.inl (hupdate _))
            ⟨hplan.events, hplan.eventTokens, hplan.sessionTokens⟩
            (hkept hactive (hupdate _) (fun _ => id) (fun _ => id) hkey)
        rw [if_neg hle] at h
        cases hcollect : collectDue config found (stripped) (dueTokens previous token)
          plan.events false with
        | error error =>
          rw [hcollect] at h
          cases h
          exact ⟨Or.inl (hupdate _), fun _ hok => nomatch hok⟩
        | ok collected =>
          obtain ⟨events, has⟩ := collected
          obtain ⟨added, rfl, hkeys⟩ := collectDue_events hcollect
          have hadded : ∀ event ∈ added, event.partitionKey ≠ key := by
            intro event hmem
            rw [hkeys event hmem]
            exact hkey
          rw [hcollect] at h
          cases has with
          | true =>
            exact hrest h (Or.inl (hupdate _))
              (hplan.extend rfl hadded (fun _ => hentry) (fun _ => id))
              (hkept hactive (hupdate _) (List.subset_cons_self _ _) (fun _ => id) hkey)
          | false =>
            exact hrest h (Or.inl (hupdate _))
              (hplan.extend rfl hadded (fun _ => id) (fun _ => hentry))
              (hkept hactive (hupdate _) (fun _ => id) (List.subset_cons_self _ _) hkey)

/-! ## One call of the publisher -/

/-- INTERNAL: what `publish_due` does to the stream. -/
structure DueStep (config : RecoveryConfig) (key : String) (route : BarRecoveryRoute)
    (mark due : ℤ) (publisher after : RecoveryPublisher) : Prop where
  seen : publisher.seen ⊆ after.seen
  fresh : ∀ token, (key, token) ∈ after.seen → (key, token) ∈ publisher.seen ∨ mark < token
  jumps : after.jumps = publisher.jumps
  tokens : (after.lastTokens key = publisher.lastTokens key ∧
      after.known key = publisher.known key) ∨
    after.known key = some ((publisher.known key).getD mark) ∧
      ∃ last, after.lastTokens key = some last ∧ mark ≤ last ∧
        ∀ token, mark < token → token ≤ last → Actionable config route token →
          (key, token) ∈ after.seen

theorem updateTokens_get (tokens : String → Option ℤ) (due : ℤ) {entries : List (String × ℤ)}
    {last : ℤ} (hlast : tokens key = some last) (hentries : ∀ token, (key, token) ∈ entries → token = due) :
    updateTokens tokens entries key = some last ∨
      ((key, due) ∈ entries ∧ updateTokens tokens entries key = some due) := by
  unfold updateTokens
  cases hlookup : entries.lookup key with
  | none => exact Or.inl hlast
  | some token =>
    obtain ⟨before, later, hsplit, -⟩ := List.lookup_eq_some_iff.mp hlookup
    have hmem : (key, token) ∈ entries := by
      rw [hsplit]
      exact List.mem_append_right _ List.mem_cons_self
    cases hentries token hmem
    exact Or.inr ⟨hmem, rfl⟩

theorem publishDue_step (hroute : Rebuilds key route) {publisher : RecoveryPublisher} {now : Time}
    (hdue : Due config route now due) {rows : List (String × String)}
    (hrow : (key, route.timeframe) ∈ rows) (answer : BatchAnswer)
    (hboth : publisher.known key = none ↔ publisher.lastTokens key = none)
    (hmark : (publisher.lastTokens key).getD (due - 1) = mark) :
    DueStep config key route mark due publisher (publisher.publishDue config now rows answer).1 ∧
      ((publisher.publishDue config now rows answer).2 = .nothing ∨
          (publisher.publishDue config now rows answer).2 = .delivered →
        (publisher.publishDue config now rows answer).1.known key =
            some ((publisher.known key).getD mark) ∧
          ∀ token, mark < token → token ≤ due → Actionable config route token →
            (key, token) ∈ (publisher.publishDue config now rows answer).1.seen) := by
  unfold RecoveryPublisher.publishDue
  cases hplanned : planRows config (now - config.grace) rows publisher.lastTokens {} with
  | mk later result =>
  have hempty : PlanFor config key route mark due {} :=
    ⟨fun _ hmem => (nomatch hmem), fun _ hmem => (nomatch hmem), fun _ hmem => (nomatch hmem)⟩
  obtain ⟨hlater, hfinal⟩ := planRows_sound hroute hdue hplanned hmark hempty
  have hknown : later key = some mark →
      (publisher.known key).or (later key) = some ((publisher.known key).getD mark) := by
    intro hset
    rw [hset]
    cases publisher.known key with
    | none => rfl
    | some first => rfl
  cases result with
  | error error =>
    refine ⟨⟨fun _ => id, fun _ => Or.inl, rfl, ?_⟩, ?_⟩
    · rcases hlater with hsame | hset
      · refine Or.inl ⟨hsame, ?_⟩
        dsimp only
        cases hfirst : publisher.known key with
        | none => rw [hsame, hboth.mp hfirst, Option.or_none]
        | some first => rfl
      · exact Or.inr ⟨hknown hset, mark, hset, le_rfl,
          fun token hlt hle => absurd hlt (not_lt.mpr hle)⟩
    · rintro (hraised | hraised)
      · exact nomatch hraised
      · exact nomatch hraised
  | ok plan =>
    obtain ⟨hplan, hpast⟩ := hfinal plan rfl
    obtain ⟨hactive, hlast, hreached⟩ := hpast (Or.inr hrow)
    have hsession := updateTokens_get later due hlast fun token hmem => (hplan.sessionTokens token hmem).1
    have hkept : (if key ∈ plan.activeKeys then updateTokens later plan.sessionTokens key
        else none) = updateTokens later plan.sessionTokens key := if_pos hactive
    -- after the session-only advances
    have hbase : ∃ last, (if key ∈ plan.activeKeys then updateTokens later plan.sessionTokens key
        else none) = some last ∧ mark ≤ last ∧ ∀ token, mark < token → token ≤ last →
          ¬ Actionable config route token := by
      rcases hsession with hsame | ⟨hmem, hset⟩
      · exact ⟨mark, hkept.trans hsame, le_rfl, fun token hlt hle => absurd hlt (not_lt.mpr hle)⟩
      · obtain ⟨-, hlate, hnone⟩ := hplan.sessionTokens due hmem
        exact ⟨due, hkept.trans hset, hlate.le, hnone⟩
    -- the events of the stream are behind its last token
    have hbehind : ∀ {token : ℤ}, ∀ event ∈ plan.events, barOf event = (key, token) →
        mark < token := by
      rintro token event hmem hbar
      obtain ⟨hkey, htoken⟩ := Prod.mk.inj hbar
      rw [← htoken]
      exact hplan.events event hmem hkey
    obtain ⟨last, hbaseLast, hle, hquiet⟩ := hbase
    dsimp only
    by_cases hnone : plan.events = []
    · rw [if_pos hnone]
      refine ⟨⟨fun _ => id, fun _ => Or.inl, rfl, Or.inr ⟨hknown hlast, last, hbaseLast, hle, ?_⟩⟩,
        fun _ => ⟨hknown hlast, ?_⟩⟩
      · intro token hlt hle' hact
        exact absurd hact (hquiet token hlt hle')
      · intro token hlt hle' hact
        rcases hreached with hpassed | hmem | hmem
        · exact absurd (hlt.trans_le hle') (not_lt.mpr hpassed)
        · exact absurd hnone (hplan.eventTokens due hmem).2.2.1
        · exact absurd hact ((hplan.sessionTokens due hmem).2.2 token hlt hle')
    · rw [if_neg hnone]
      cases answer with
      | failed published =>
        refine ⟨⟨?_, ?_, rfl, Or.inr ⟨hknown hlast, last, hbaseLast, hle, ?_⟩⟩, ?_⟩
        · exact fun bar hmem => List.mem_append_right _ hmem
        · intro token hmem
          rcases List.mem_append.mp hmem with hmem | hmem
          · obtain ⟨i, -, hi⟩ := List.mem_filterMap.mp hmem
            obtain ⟨event, hevent, hbar⟩ := Option.map_eq_some_iff.mp hi
            exact Or.inr (hbehind event (List.mem_of_getElem? hevent) hbar)
          · exact Or.inl hmem
        · intro token hlt hle' hact
          exact absurd hact (hquiet token hlt hle')
        · rintro (hfailed | hfailed)
          · exact nomatch hfailed
          · exact nomatch hfailed
      | delivered =>
        have hcovered : (key, due) ∈ plan.eventTokens → ∀ token, mark < token → token ≤ due →
            Actionable config route token →
            (key, token) ∈ plan.events.map barOf ++ publisher.seen := by
          intro hmem token hlt hle' hact
          exact List.mem_append_left _ ((hplan.eventTokens due hmem).2.2.2 token hlt hle' hact)
        refine ⟨⟨?_, ?_, rfl, Or.inr ⟨hknown hlast, ?_⟩⟩, fun _ => ⟨hknown hlast, ?_⟩⟩
        · exact fun bar hmem => List.mem_append_right _ hmem
        · intro token hmem
          rcases List.mem_append.mp hmem with hmem | hmem
          · obtain ⟨event, hevent, hbar⟩ := List.mem_map.mp hmem
            exact Or.inr (hbehind event hevent hbar)
          · exact Or.inl hmem
        · rcases updateTokens_get (fun key => if key ∈ plan.activeKeys then
              updateTokens later plan.sessionTokens key else none) due hbaseLast
            fun token hmem => (hplan.eventTokens token hmem).1 with hsame | ⟨hmem, hset⟩
          · refine ⟨last, hsame, hle, ?_⟩
            intro token hlt hle' hact
            exact absurd hact (hquiet token hlt hle')
          · exact ⟨due, hset, (hplan.eventTokens due hmem).2.1.le, hcovered hmem⟩
        · intro token hlt hle' hact
          rcases hreached with hpassed | hmem | hmem
          · exact absurd (hlt.trans_le hle') (not_lt.mpr hpassed)
          · exact hcovered hmem token hlt hle' hact
          · exact absurd hact ((hplan.sessionTokens due hmem).2.2 token hlt hle')

/-! ## The invariant -/

/-- What lies between the first token that was known and the last one is seen or was jumped over. -/
structure Tracked (config : RecoveryConfig) (key : String) (route : BarRecoveryRoute)
    (publisher : RecoveryPublisher) : Prop where
  both : publisher.known key = none ↔ publisher.lastTokens key = none
  covered : ∀ first ∈ publisher.known key, ∀ last ∈ publisher.lastTokens key,
    ∀ token, first < token → token ≤ last → Actionable config route token →
      (key, token) ∈ publisher.seen ∨ JumpedOver publisher key token
  jumps : ∀ jump ∈ publisher.jumps, jump.partitionKey = key →
    ∃ last ∈ publisher.lastTokens key, jump.after ≤ last

theorem tracked_observe {publisher : RecoveryPublisher} (h : Tracked config key route publisher)
    (event : BarEvent) : Tracked config key route (publisher.observe event) := by
  unfold RecoveryPublisher.observe
  by_cases htype : event.eventType = barClosedEventType
  swap
  · rw [if_pos htype]
    exact h
  rw [if_neg (not_not.mpr htype)]
  generalize hkey : event.partitionKey = observed
  generalize event.payload.closedBarToken = token
  dsimp only
  generalize hprevious : (publisher.lastTokens observed).getD token = previous
  -- the jumps of before are still there
  have hjumps : publisher.jumps ⊆ if previous < token then
      ⟨observed, previous, token⟩ :: publisher.jumps else publisher.jumps := by
    split_ifs
    · exact List.subset_cons_self _ _
    · exact fun _ => id
  by_cases hsame : key = observed
  · subst hsame
    refine ⟨?_, ?_, ?_⟩
    · dsimp only
      rw [Function.update_self, Function.update_self]
      exact iff_of_false (Option.some_ne_none _) (Option.some_ne_none _)
    · intro first hfirst last hlast t hlt hle hact
      dsimp only at hfirst hlast ⊢
      rw [Function.update_self] at hfirst hlast
      cases hfirst
      cases hlast
      cases hbefore : publisher.lastTokens key with
      | none =>
        rw [hbefore] at hprevious
        rw [h.both.mpr hbefore] at hlt
        rw [← hprevious] at hle
        exact absurd (hlt.trans_le hle) (by simp)
      | some last =>
        rw [hbefore, Option.getD_some] at hprevious
        subst hprevious
        obtain ⟨first, hfirst⟩ := Option.ne_none_iff_exists'.mp fun hnone =>
          Option.some_ne_none last (hbefore.symm.trans (h.both.mp hnone))
        rw [hfirst] at hlt
        rcases le_or_gt t last with hpast | hpast
        · rcases h.covered first hfirst last hbefore t hlt hpast hact with hseen |
            ⟨jump, hjump, hover⟩
          · exact Or.inl (List.mem_cons_of_mem _ hseen)
          · exact Or.inr ⟨jump, hjumps hjump, hover⟩
        · have hnew : t ≤ token := (le_max_iff.mp hle).resolve_right (not_le.mpr hpast)
          rcases hnew.lt_or_eq with hless | rfl
          · refine Or.inr ⟨⟨key, last, token⟩, ?_, rfl, hpast, hless⟩
            dsimp only
            rw [if_pos (hpast.trans hless)]
            exact List.mem_cons_self
          · exact Or.inl List.mem_cons_self
    · intro jump hjump hjumpKey
      dsimp only at hjump ⊢
      rw [Function.update_self]
      have hold : jump ∈ publisher.jumps → jump.after ≤ max token previous := by
        intro hmem
        obtain ⟨last, hlast, hafter⟩ := h.jumps jump hmem hjumpKey
        rw [hlast] at hprevious
        cases hprevious
        exact hafter.trans (le_max_right _ _)
      refine ⟨_, rfl, ?_⟩
      split_ifs at hjump
      · rcases List.mem_cons.mp hjump with rfl | hmem
        · exact le_max_left _ _
        · exact hold hmem
      · exact hold hjump
  · refine ⟨?_, ?_, ?_⟩
    · dsimp only
      rw [Function.update_of_ne hsame, Function.update_of_ne hsame]
      exact h.both
    · intro first hfirst last hlast t hlt hle hact
      dsimp only at hfirst hlast ⊢
      rw [Function.update_of_ne hsame] at hfirst hlast
      rcases h.covered first hfirst last hlast t hlt hle hact with hseen | ⟨jump, hjump, hover⟩
      · exact Or.inl (List.mem_cons_of_mem _ hseen)
      · exact Or.inr ⟨jump, hjumps hjump, hover⟩
    · intro jump hjump hjumpKey
      dsimp only at hjump ⊢
      rw [Function.update_of_ne hsame]
      split_ifs at hjump
      · rcases List.mem_cons.mp hjump with rfl | hmem
        · exact absurd hjumpKey.symm hsame
        · exact h.jumps jump hmem hjumpKey
      · exact h.jumps jump hjump hjumpKey

theorem DueStep.tracked {publisher after : RecoveryPublisher}
    (h : Tracked config key route publisher) (hstep : DueStep config key route mark due publisher after)
    (hmark : (publisher.lastTokens key).getD (due - 1) = mark) :
    Tracked config key route after := by
  have hover : ∀ {token}, JumpedOver publisher key token → JumpedOver after key token := by
    rintro token ⟨jump, hjump, hrest⟩
    refine ⟨jump, ?_, hrest⟩
    rw [hstep.jumps]
    exact hjump
  rcases hstep.tokens with ⟨hlast, hknown⟩ | ⟨hknown, last, hlast, hle, hseen⟩
  · refine ⟨?_, ?_, ?_⟩
    · rw [hlast, hknown]
      exact h.both
    · intro first hfirst last' hlast' token hlt hle hact
      rw [hknown] at hfirst
      rw [hlast] at hlast'
      exact (h.covered first hfirst last' hlast' token hlt hle hact).imp (fun hmem => hstep.seen hmem)
        hover
    · intro jump hjump hkey
      rw [hstep.jumps] at hjump
      rw [hlast]
      exact h.jumps jump hjump hkey
  · refine ⟨?_, ?_, ?_⟩
    · rw [hlast, hknown]
      exact iff_of_false (Option.some_ne_none _) (Option.some_ne_none _)
    · intro first hfirst last' hlast' token hlt hle' hact
      rw [hknown] at hfirst
      rw [hlast] at hlast'
      cases hfirst
      cases hlast'
      rcases le_or_gt token mark with hpast | hpast
      · cases hbefore : publisher.lastTokens key with
        | none =>
          rw [h.both.mpr hbefore] at hlt
          exact absurd hpast (not_le.mpr hlt)
        | some before =>
          rw [hbefore, Option.getD_some] at hmark
          subst hmark
          obtain ⟨first, hfirst⟩ := Option.ne_none_iff_exists'.mp fun hnone =>
            Option.some_ne_none before (hbefore.symm.trans (h.both.mp hnone))
          rw [hfirst] at hlt
          exact (h.covered first hfirst before hbefore token hlt hpast hact).imp
            (fun hmem => hstep.seen hmem) hover
      · exact Or.inl (hseen token hpast hle' hact)
    · intro jump hjump hkey
      rw [hstep.jumps] at hjump
      obtain ⟨before, hbefore, hafter⟩ := h.jumps jump hjump hkey
      rw [hbefore] at hmark
      cases hmark
      exact ⟨last, hlast, hafter.trans hle⟩

/-! ## Main theorem -/

/-- The row of the stream is among the active routes. -/
def StaysActive (key timeframe : String) : RecoveryMove → Prop
  | .observe _ => True
  | .publishDue _ rows _ => (key, timeframe) ∈ rows

theorem exists_due (hsupported : route.timeframe ∈ supportedFrequencies) (now : Time) :
    ∃ due, Due config route now due := by
  obtain ⟨origin, horigin⟩ := exists_candleOrigin hsupported route.venue route.marketType
  exact ⟨_, bind_ok_iff.mpr ⟨origin, horigin, rfl⟩⟩

theorem tracked_step (hroute : Rebuilds key route)
    (hsupported : route.timeframe ∈ supportedFrequencies) {publisher : RecoveryPublisher}
    {move : RecoveryMove} (hactive : StaysActive key route.timeframe move)
    (h : Tracked config key route publisher) :
    Tracked config key route (publisher.step config move) := by
  cases move with
  | observe event => exact tracked_observe h event
  | publishDue now rows answer =>
    obtain ⟨due, hdue⟩ := exists_due hsupported now
    exact (publishDue_step hroute hdue hactive answer h.both rfl).1.tracked h rfl

theorem gapFree_iff (hroute : Rebuilds key route) {publisher : RecoveryPublisher}
    {move : RecoveryMove} (hactive : StaysActive key route.timeframe move)
    (h : Tracked config key route publisher) :
    GapFree config key route publisher move ↔ JumpsFilled config key route publisher move := by
  cases move with
  | observe event => exact Iff.rfl
  | publishDue now rows answer =>
    refine forall_congr' fun hdone => ?_
    constructor
    · rintro hfree first hfirst due hdue token hlt hle hact ⟨jump, hjump, hkey, hbefore, hafter⟩
      obtain ⟨hstep, hsuccess⟩ := publishDue_step hroute hdue hactive answer h.both rfl
      have hknown := (hsuccess hdone).1
      rw [hfirst] at hknown
      obtain ⟨last, hlast, hover⟩ := h.jumps jump hjump hkey
      rcases hstep.fresh token (hfree first hknown due hdue token hlt hle hact) with hseen | hfresh
      · exact hseen
      · rw [hlast] at hfresh
        exact absurd (hafter.trans_le hover) (not_lt.mpr hfresh.le)
    · intro hfilled first hfirst due hdue token hlt hle hact
      obtain ⟨hstep, hsuccess⟩ := publishDue_step hroute hdue hactive answer h.both rfl
      obtain ⟨hknown, hcovered⟩ := hsuccess hdone
      cases hbefore : publisher.lastTokens key with
      | none =>
        rw [hbefore] at hcovered hknown
        rw [h.both.mpr hbefore] at hknown
        rw [hknown] at hfirst
        cases hfirst
        exact hcovered token hlt hle hact
      | some last =>
        rw [hbefore] at hcovered hknown
        obtain ⟨known, hold⟩ := Option.ne_none_iff_exists'.mp fun hnone =>
          Option.some_ne_none last (hbefore.symm.trans (h.both.mp hnone))
        rw [hold] at hknown
        rw [hknown] at hfirst
        cases hfirst
        rcases le_or_gt token last with hpast | hpast
        · rcases h.covered known hold last hbefore token hlt hpast hact with hseen | hjumped
          · exact hstep.seen hseen
          · exact hstep.seen (hfilled known hold due hdue token hlt hle hact hjumped)
        · exact hcovered token hpast hle hact

theorem tracked_empty : Tracked config key route {} where
  both := Iff.rfl
  covered := fun _ hfirst => nomatch hfirst
  jumps := fun _ hjump => nomatch hjump

theorem event_agrees {stream : BarStreamKey} (hkey : stream.partitionKey = .ok key)
    (hroute : Rebuilds key route) (uuid5 : String → String) (token : ℤ) :
    ∃ event, route.event uuid5 token = .ok event ∧ event.partitionKey = key ∧
      ∀ clockEvent, stream.event uuid5 token = .ok clockEvent →
        clockEvent.partitionKey = event.partitionKey ∧ clockEvent.eventId = event.eventId := by
  obtain ⟨event, hevent, heventKey, hid, -⟩ := hroute.event uuid5 token
  refine ⟨event, hevent, heventKey, ?_⟩
  intro clockEvent hclock
  obtain ⟨closedAt, -, hclosed⟩ := bind_ok_iff.mp hclock
  obtain ⟨hclockKey, hclockId, -⟩ := barClosed_ok hclosed
  have hsame : key = clockEvent.partitionKey := Except.ok.inj (hkey.symm.trans hclockKey)
  rw [heventKey, hid, hclockId, ← hsame]
  exact ⟨rfl, rfl⟩

/-- **Gaps of a bar stream.** The key of a stream is read as a route whose events have the partition
key and the event ids of the stream's own; and in every run in which the route stays active, the
stream has no gap after any `publish_due` that delivers its batch or has nothing to send exactly if
the bars that observations jumped over are seen by then. -/
theorem gapFree_iff_jumpsFilled (config : RecoveryConfig) {stream : BarStreamKey}
    (hreadable : Readable stream) {key : String} (hkey : stream.partitionKey = .ok key) :
    ∃ route, BarRecoveryRoute.parse key "" = .ok route ∧
      BarRecoveryRoute.parse key stream.timeframe = .ok route ∧
      (∀ token, ∃ event, route.event config.uuid5 token = .ok event ∧ event.partitionKey = key ∧
        ∀ clockEvent, stream.event config.uuid5 token = .ok clockEvent →
          clockEvent.partitionKey = event.partitionKey ∧ clockEvent.eventId = event.eventId) ∧
      ∀ moves : List RecoveryMove, (∀ move ∈ moves, StaysActive key stream.timeframe move) →
        (Along (RecoveryPublisher.step config) (GapFree config key route) {} moves ↔
          Along (RecoveryPublisher.step config) (JumpsFilled config key route) {} moves) := by
  obtain ⟨route, hroute, htimeframe, hparse⟩ := rebuilds_of_readable hreadable hkey
  have hown := hroute.own
  rw [htimeframe] at hown
  refine ⟨route, hparse, hown, event_agrees hkey hroute config.uuid5, ?_⟩
  intro moves hstays
  rw [← htimeframe] at hstays
  have hsupported : route.timeframe ∈ supportedFrequencies := htimeframe ▸ hreadable.timeframe
  refine along_iff_of_invariant_of_mem (I := Tracked config key route) ?_ ?_ tracked_empty
  · intro publisher move hmove htracked
    exact tracked_step hroute hsupported (hstays move hmove) htracked
  · intro publisher move hmove htracked
    exact gapFree_iff hroute (hstays move hmove) htracked

/-! ## A bar that is jumped over -/

def plainRecovery : RecoveryConfig where
  uuid5 := id
  isEquityBarClose := fun _ _ => .ok true
  grace := 5 * oneSecond
  grace_nonneg := by decide

def minuteStream : BarStreamKey where
  venue := "binance"
  market := "Crypto"
  marketType := "spot"
  instrumentId := "BTC/USDT"
  symbol := "BTC/USDT"
  timeframe := "1m"

/-- The result for this stream. -/
theorem minute_stream_gaps :
    ∃ route, BarRecoveryRoute.parse "bar:binance:crypto:spot:btc/usdt:1m" "" = .ok route ∧
      BarRecoveryRoute.parse "bar:binance:crypto:spot:btc/usdt:1m" "1m" = .ok route ∧
      (∀ token, ∃ event, route.event id token = .ok event ∧
        event.partitionKey = "bar:binance:crypto:spot:btc/usdt:1m" ∧
        ∀ clockEvent, minuteStream.event id token = .ok clockEvent →
          clockEvent.partitionKey = event.partitionKey ∧ clockEvent.eventId = event.eventId) ∧
      ∀ moves : List RecoveryMove,
        (∀ move ∈ moves, StaysActive "bar:binance:crypto:spot:btc/usdt:1m" "1m" move) →
        (Along (RecoveryPublisher.step plainRecovery)
            (GapFree plainRecovery "bar:binance:crypto:spot:btc/usdt:1m" route) {} moves ↔
          Along (RecoveryPublisher.step plainRecovery)
            (JumpsFilled plainRecovery "bar:binance:crypto:spot:btc/usdt:1m" route) {} moves) :=
  @gapFree_iff_jumpsFilled plainRecovery minuteStream (by decide +kernel) _ (by decide +kernel)

def minuteEvent (symbol : String) (token : ℤ) : BarEvent where
  eventId := "bar:binance:crypto:spot:btc/usdt:1m:" ++ toString token
  eventType := barClosedEventType
  partitionKey := "bar:binance:crypto:spot:btc/usdt:1m"
  payload := ⟨"binance", "Crypto", "spot", symbol, symbol, "1m", token,
    (token + 1) * 60 * oneSecond⟩

def missedMinute : List RecoveryMove :=
  [.publishDue (605 * oneSecond) [("bar:binance:crypto:spot:btc/usdt:1m", "1m")] .delivered,
    .observe (minuteEvent "BTC/USDT" 11),
    .publishDue (725 * oneSecond) [("bar:binance:crypto:spot:btc/usdt:1m", "1m")] .delivered]

/-- The bar 10 is not published when it is due: bar 11 has been observed by then. -/
theorem missed_minute_not_recovered :
    minuteStream.event id 11 = .ok (minuteEvent "BTC/USDT" 11) ∧
      ∃ route, BarRecoveryRoute.parse "bar:binance:crypto:spot:btc/usdt:1m" "1m" = .ok route ∧
        (∀ move ∈ missedMinute, StaysActive "bar:binance:crypto:spot:btc/usdt:1m" "1m" move) ∧
        ¬ Along (RecoveryPublisher.step plainRecovery)
          (GapFree plainRecovery "bar:binance:crypto:spot:btc/usdt:1m" route) {} missedMinute := by
  refine ⟨by decide +kernel, ⟨"bar:binance:crypto:spot:btc/usdt:1m", "binance", "Crypto", "spot",
    "btc/usdt", "1m"⟩, by decide +kernel, ?_, ?_⟩
  · intro move hmove
    simp only [missedMinute, List.mem_cons, List.not_mem_nil, or_false] at hmove
    rcases hmove with rfl | rfl | rfl
    · exact List.mem_cons_self
    · trivial
    · exact List.mem_cons_self
  · rintro ⟨-, -, hfree, -⟩
    have hseen := hfree (Or.inl (by decide +kernel)) 8 (by decide +kernel) 11
      (by unfold Due; decide +kernel) 10 (by decide) (by decide)
      ⟨minuteEvent "btc/usdt" 10, by decide +kernel, rfl⟩
    revert hseen
    decide +kernel

end QuantDinger.Analysis
