import QuantDinger.Analysis.DeclaredConstraints
import QuantDinger.Analysis.GuardTests
import QuantDinger.Model.ParameterGuards

/-!
# Early returns

A constraint read off an early-return guard discards only candidates the function returns for at
the guard, on every path on which each name of the test was last bound by a read of its parameter
that keeps the parameter's value (`guard_returns`). The aliases are collected without regard to what
else is bound, where and in which order; `guard_passes` is a path a name is rebound on.
-/

namespace QuantDinger.Analysis.EarlyReturns

open Library Model.Python Model.Constraints Model.Constraints.Machine ConstraintTrees GuardTests
  DeclaredConstraints

variable {Object : Type} {machine : Machine Object}

/-! ## What names are bound to along a path -/

/-- Every name is bound to a value its right side may have. -/
def WellBound (machine : Machine Object) (names : Names Object) : Prop :=
  ∀ id binding, names id = some binding →
    ∃ names', machine.Yields names' binding.source binding.value

/-- INTERNAL: what holds of the names of a point and of all its calls. -/
structure ConfigBound (machine : Machine Object) (config : Config Object) : Prop where
  names : WellBound machine config.names
  saved : ∀ frame ∈ config.frames, WellBound machine frame.saved

theorem wellBound_of_other {names : Names Object}
    (h : ∀ id binding, names id = some binding → binding.source = .other) :
    WellBound machine names := by
  intro id binding hbinding
  rw [h id binding hbinding]
  exact ⟨names, .other _⟩

theorem WellBound.rebinds {names names' : Names Object} {rebound : List String}
    (hbound : WellBound machine names) (h : Rebinds rebound names names') :
    WellBound machine names' := by
  intro id binding hbinding
  by_cases hid : id ∈ rebound
  · rw [(h id).2 hid binding hbinding]
    exact ⟨names, .other _⟩
  · exact hbound id binding ((h id).1 hid ▸ hbinding)

theorem WellBound.assign {names : Names Object} {target : String} {value : RightSide Object}
    {v : Value Object} (hbound : WellBound machine names) (h : machine.Yields names value v) :
    WellBound machine fun id => if id = target then some ⟨v, value⟩ else names id := by
  intro id binding hbinding
  dsimp only at hbinding
  split at hbinding
  · obtain rfl := Option.some.inj hbinding
    exact ⟨names, h⟩
  · exact hbound id binding hbinding

theorem WellBound.enter {names : Names Object} (hbound : WellBound machine names)
    (scope : List String) : WellBound machine (enter names scope) := by
  intro id binding hbinding
  unfold Machine.enter at hbinding
  split at hbinding
  · exact nomatch hbinding
  · exact hbound id binding hbinding

theorem WellBound.leave {names : Names Object} {frame : Frame Object}
    (hbound : WellBound machine names) (hsaved : WellBound machine frame.saved) :
    WellBound machine (leave names frame) := by
  intro id binding hbinding
  unfold Machine.leave at hbinding
  split at hbinding
  · exact hsaved id binding hbinding
  · exact hbound id binding hbinding

theorem step_bound {nested : List (List String × List (Stmt Object))}
    {config config' : Config Object}
    (hbound : ConfigBound machine config) (h : machine.Step nested config config') :
    ConfigBound machine config' := by
  obtain ⟨hnames, hsaved⟩ := hbound
  cases h with
  | assign h => exact ⟨hnames.assign h, hsaved⟩
  | rebind h => exact ⟨hnames.rebinds h, hsaved⟩
  | branch truth h => exact ⟨hnames, hsaved⟩
  | again h hmem => exact ⟨hnames.rebinds h, hsaved⟩
  | define h => exact ⟨hnames.rebinds h, hsaved⟩
  | jump h => exact ⟨hnames, hsaved⟩
  | call h => exact ⟨hnames.enter _, List.forall_mem_cons.2 ⟨hnames, hsaved⟩⟩
  | back =>
    rw [List.forall_mem_cons] at hsaved
    exact ⟨hnames.leave hsaved.1, hsaved.2⟩

theorem path_bound {body : List (Stmt Object)} {config : Config Object}
    (h : Path machine body config) : ConfigBound machine config := by
  induction h with
  | start h => exact ⟨wellBound_of_other h, fun _ hmem => nomatch hmem⟩
  | next hpath h ih => exact step_bound ih h

/-! ## Reads that keep the value -/

/-- A right side reads a parameter and keeps its value: it is the plain read, or a cast of it that
does not change the value. -/
def KeepsValue (machine : Machine Object) (parameter : String) (source : RightSide Object) : Prop :=
  source = .paramsGet true parameter ∨
    ∃ function, source = .cast function (.paramsGet true parameter) ∧
      ∀ v, machine.params.get? parameter = some v → machine.cast function v = .ok v

theorem KeepsValue.value_eq {parameter : String} {source : RightSide Object} {v u : Value Object}
    {names : Names Object} (h : KeepsValue machine parameter source)
    (hyields : machine.Yields names source v) (hparam : machine.params.get? parameter = some u) :
    v = u := by
  have hread {w : Value Object} (hw : machine.Yields names (.paramsGet true parameter) w) :
      w = u := by
    cases hw with
    | param h => exact Option.some.inj (h.symm.trans hparam)
    | fallback v h => exact nomatch h.symm.trans hparam
  rcases h with rfl | ⟨function, rfl, hcast⟩
  · exact hread hyields
  · cases hyields with
    | cast harg h =>
      rw [hread harg, hcast u hparam] at h
      exact (Except.ok.inj h).symm

/-- Each name the test mentions was last bound by a read of its parameter that keeps the value. -/
def ReadsHold (machine : Machine Object) (aliases : Dict String String) (test : Expr Object)
    (names : Names Object) : Prop :=
  ∀ id ∈ mentions test, ∀ parameter, aliases.get? id = some parameter →
    ∃ binding, names id = some binding ∧ KeepsValue machine parameter binding.source

theorem ReadsHold.lookup_eq {aliases : Dict String String} {test : Expr Object}
    {names : Names Object} (h : ReadsHold machine aliases test names)
    (hbound : WellBound machine names) {id : String} (hid : id ∈ mentions test)
    {parameter : String} (halias : aliases.get? id = some parameter) {v : Value Object}
    (hparam : machine.params.get? parameter = some v) : names.lookup id = some v := by
  obtain ⟨binding, hbinding, hkeeps⟩ := h id hid parameter halias
  obtain ⟨names', hyields⟩ := hbound id binding hbinding
  rw [Names.lookup, hbinding, Option.map_some, hkeeps.value_eq hyields hparam]

/-! ## Guards -/

theorem guardConstraint_spec {text : Expr Object → Dict String String → String}
    {aliases : Dict String String} {test : Expr Object} {body orelse : List (Stmt Object)}
    {constraint : ParameterConstraint Object}
    (h : guardConstraint text aliases (.branch test body orelse) = some constraint) :
    constraint.rejectsWhenTrue = true ∧ body = [.ret none] ∧
      compileExpression aliases test = some constraint.tree := by
  rw [guardConstraint] at h
  split at h
  · rename_i hbare
    obtain ⟨tree, htree, rfl⟩ := Option.map_eq_some_iff.1 h
    refine ⟨rfl, ?_, htree⟩
    unfold isBareReturn at hbare
    split at hbare
    · rfl
    · exact nomatch hbare
  · exact nomatch h

theorem exists_branch {text : Expr Object → Dict String String → String}
    {aliases : Dict String String} {guard : Stmt Object} {constraint : ParameterConstraint Object}
    (h : guardConstraint text aliases guard = some constraint) :
    ∃ test body orelse, guard = .branch test body orelse := by
  cases guard with
  | branch test body orelse => exact ⟨test, body, orelse, rfl⟩
  | _ => exact nomatch h

theorem mem_foldl_add {same : ParameterConstraint Object → ParameterConstraint Object → Bool}
    {found constraints : List (ParameterConstraint Object)}
    {constraint : ParameterConstraint Object}
    (h : constraint ∈ found.foldl (fun constraints constraint =>
      if constraints.any (same constraint) then constraints else constraints ++ [constraint])
        constraints) : constraint ∈ constraints ∨ constraint ∈ found := by
  induction found generalizing constraints with
  | nil => exact .inl h
  | cons first found ih =>
    rw [List.foldl_cons] at h
    rcases ih h with h | h
    · split at h
      · exact .inl h
      · rcases List.mem_append.1 h with h | h
        · exact .inl h
        · exact .inr (List.mem_cons.2 (.inl (List.mem_singleton.1 h)))
    · exact .inr (List.mem_cons_of_mem _ h)

variable {parse : String → Option (Expr Object)}
  {text : Expr Object → Dict String String → String}
  {same : ParameterConstraint Object → ParameterConstraint Object → Bool} {lines : List String}
  {functions : List (List (Stmt Object))} {parameterNames : List String}
  {constraint : ParameterConstraint Object}

theorem exists_guard
    (hmem : constraint ∈ discoverParameterConstraints parse text same lines functions
      parameterNames) (hsource : constraint.source = "guard") :
    ∃ body ∈ functions, ∃ test inner orelse, Stmt.branch test inner orelse ∈ walk body ∧
      guardConstraint text (functionAliases parameterNames body) (.branch test inner orelse) =
        some constraint := by
  rcases mem_foldl_add hmem with hdeclared | hfound
  · obtain ⟨line, -, hline⟩ := List.mem_filterMap.1 hdeclared
    simp only [Option.bind_eq_bind, Option.bind_eq_some_iff, Option.pure_def,
      Option.some.injEq] at hline
    obtain ⟨expression, -, e, -, tree, -, rfl⟩ := hline
    have hne : ("declaration" : String) ≠ "guard" := by decide
    exact absurd hsource hne
  · obtain ⟨body, hbody, hfound⟩ := List.mem_flatMap.1 hfound
    obtain ⟨guard, hguard, hconstraint⟩ := List.mem_filterMap.1 hfound
    obtain ⟨test, inner, orelse, rfl⟩ := exists_branch hconstraint
    exact ⟨body, hbody, test, inner, orelse, hguard, hconstraint⟩

theorem test_true {aliases : Dict String String} {test : Expr Object}
    (htree : compileExpression aliases test = some constraint.tree)
    (hwhen : constraint.rejectsWhenTrue = true)
    (hrejects : constraint.accepts machine.host machine.params = .ok false)
    (hfits : fits .truth test = true) (hfree : setFree test = true)
    {lookup : String → Option (Value Object)}
    (hlookup : ∀ id ∈ mentions test, ∀ parameter v, aliases.get? id = some parameter →
      machine.params.get? parameter = some v → lookup id = some v) :
    ∃ v, test.evaluate machine.host lookup = .ok v ∧ machine.host.truth v = true := by
  obtain ⟨w, hw, htruth⟩ : ∃ w, constraint.tree.evaluate machine.host machine.params = .ok w ∧
      machine.host.truth w = true := by
    rw [ParameterConstraint.accepts, hwhen] at hrejects
    split at hrejects
    · rename_i w hw
      refine ⟨w, hw, ?_⟩
      simpa using Except.ok.inj hrejects
    · split at hrejects
      · exact absurd (Except.ok.inj hrejects) (by decide)
      · cases hrejects
  -- the test is evaluated on the parameters first, then with all the names of the function
  have hnames (id target : String) (halias : aliases.get? id = some target) :
      ((aliases.get? id).bind machine.params.get?) = machine.params.get? target := by
    rw [halias]
    rfl
  obtain ⟨v, hv, htells⟩ := tree_reflects hnames test hfree .truth hfits constraint.tree w htree hw
  refine ⟨v, ?_, htells.trans htruth⟩
  refine evaluate_extends test (fun id hid value hvalue => ?_) v hv
  obtain ⟨parameter, halias, hparam⟩ := Option.bind_eq_some_iff.1 hvalue
  exact hlookup id hid parameter value halias hparam

/-- A constraint read off a guard, whenever it rejects an assignment of the parameters: on every
path to a guard it was read off, if there each name of the test was last bound by a read of its
parameter that keeps the value, the names stand for those values and the function returns. -/
theorem guards_return
    (hmem : constraint ∈ discoverParameterConstraints parse text same lines functions
      parameterNames) (hsource : constraint.source = "guard")
    (hrejects : constraint.accepts machine.host machine.params = .ok false) :
    (∃ body ∈ functions, ∃ test inner orelse, Stmt.branch test inner orelse ∈ walk body ∧
      guardConstraint text (functionAliases parameterNames body) (.branch test inner orelse) =
        some constraint) ∧
    ∀ body ∈ functions, ∀ test inner orelse,
      guardConstraint text (functionAliases parameterNames body) (.branch test inner orelse) =
        some constraint →
      fits .truth test = true → setFree test = true →
      ∀ names todo frames, Path machine body ⟨names, .branch test inner orelse :: todo, frames⟩ →
      ReadsHold machine (functionAliases parameterNames body) test names →
        (∀ id ∈ mentions test, ∀ parameter v,
          (functionAliases parameterNames body).get? id = some parameter →
          machine.params.get? parameter = some v → names.lookup id = some v) ∧
        (∃ v, test.evaluate machine.host names.lookup = .ok v ∧ machine.host.truth v = true) ∧
        inner = [.ret none] := by
  refine ⟨exists_guard hmem hsource, ?_⟩
  intro body _ test inner orelse hguard hfits hfree names todo frames hpath hreads
  obtain ⟨hwhen, hinner, htree⟩ := guardConstraint_spec hguard
  have hlookup (id : String) (hid : id ∈ mentions test) (parameter : String) (v : Value Object)
      (halias : (functionAliases parameterNames body).get? id = some parameter)
      (hparam : machine.params.get? parameter = some v) : names.lookup id = some v :=
    hreads.lookup_eq (path_bound hpath).names hid halias hparam
  exact ⟨hlookup, test_true htree hwhen hrejects hfits hfree hlookup, hinner⟩

/-! ## Two functions -/

def plainMachine (params : Dict String (Value Empty)) : Machine Empty where
  host := plainHost
  cast function value :=
    match function, whole value, value with
    | .int, some n, _ => .ok (.int n)
    | .bool, _, value => .ok (.bool (plainHost.truth value))
    | .str, _, .str s => .ok (.str s)
    | _, _, _ => .error .type
  params := params

theorem starts_unbound (machine : Machine Object) (body : List (Stmt Object)) :
    Path machine body ⟨fun _ => none, body, []⟩ :=
  .start fun _ _ h => nomatch h

def crossed : Expr Empty := .compare (.name "fast") [.gtE] [.name "slow"]

/-- `fast = context.params.get("fast"); slow = int(context.params.get("slow"))`, and
`if fast >= slow: return` -/
def crossing : List (Stmt Empty) :=
  [.assign "fast" (.paramsGet true "fast"), .assign "slow" (.cast .int (.paramsGet true "slow")),
    .branch crossed [.ret none] []]

def constraintsOf (body : List (Stmt Empty)) (parameterNames : List String) :
    List (ParameterConstraint Empty) :=
  discoverParameterConstraints (fun _ => none) (fun _ _ => "") (fun _ _ => false) [] [body]
    parameterNames

def crossingConstraint : ParameterConstraint Empty :=
  ⟨"", .compare [.gtE] [.param "fast", .param "slow"], "guard", true⟩

def slowFirst : Dict String (Value Empty) := .ofPairs [("fast", .int 83), ("slow", .int 62)]

def crossingNames : Names Empty := fun id =>
  if id = "slow" then some ⟨.int 62, .cast .int (.paramsGet true "slow")⟩
  else if id = "fast" then some ⟨.int 83, .paramsGet true "fast"⟩ else none

theorem crossing_returns :
    ∃ v, crossed.evaluate plainHost crossingNames.lookup = .ok v ∧ plainHost.truth v = true := by
  have hmem : crossingConstraint ∈ constraintsOf crossing ["fast", "slow"] :=
    List.mem_singleton.2 rfl
  have hpath : Path (plainMachine slowFirst) crossing
      ⟨crossingNames, [.branch crossed [.ret none] []], []⟩ :=
    .next (.next (starts_unbound _ _) (.assign (.param rfl))) (.assign (.cast (.param rfl) rfl))
  have hrejects : crossingConstraint.accepts (plainMachine slowFirst).host
      (plainMachine slowFirst).params = .ok false := rfl
  refine ((guards_return hmem rfl hrejects).2 crossing
    (List.mem_singleton.2 rfl) crossed [.ret none] [] rfl rfl rfl _ _ _ hpath ?_).2.1
  intro id hid parameter halias
  rcases List.mem_cons.1 hid with rfl | hid
  · obtain rfl : "fast" = parameter := Option.some.inj halias
    exact ⟨_, rfl, .inl rfl⟩
  · obtain rfl := List.mem_singleton.1 hid
    obtain rfl : "slow" = parameter := Option.some.inj halias
    refine ⟨_, rfl, .inr ⟨.int, rfl, fun v hv => ?_⟩⟩
    obtain rfl : Value.int 62 = v := Option.some.inj hv
    rfl

def aboveThree : Expr Empty := .compare (.name "x") [.gt] [.constant (.int 3)]

def rebound : List (Stmt Empty) :=
  [.assign "x" (.paramsGet true "x"), .assign "x" (.expr (.constant (.int 1))),
    .branch aboveThree [.ret none] []]

def reboundConstraint : ParameterConstraint Empty :=
  ⟨"", .compare [.gt] [.param "x", .literal (.int 3)], "guard", true⟩

def reboundNames : Names Empty := fun id =>
  if id = "x" then some ⟨.int 1, .expr (.constant (.int 1))⟩
  else if id = "x" then some ⟨.int 5, .paramsGet true "x"⟩ else none

/-- The constraint read off the guard of `rebound` rejects 5, but the function passes the guard. -/
theorem guard_passes :
    reboundConstraint ∈ constraintsOf rebound ["x"] ∧
    reboundConstraint.accepts plainHost (.ofPairs [("x", .int 5)]) = .ok false ∧
    Path (plainMachine (.ofPairs [("x", .int 5)])) rebound
      ⟨reboundNames, [.branch aboveThree [.ret none] []], []⟩ ∧
    aboveThree.evaluate plainHost reboundNames.lookup = .ok (.bool false) := by
  refine ⟨List.mem_singleton.2 rfl, rfl, ?_, rfl⟩
  exact .next (.next (starts_unbound _ _) (.assign (.param rfl))) (.assign (.expr rfl))

end QuantDinger.Analysis.EarlyReturns
