import QuantDinger.Model.Constraints

/-!
# Parameter guards

The second half of `constraints.py`: constraints read off the early-return guards of a strategy's
functions. Beside it stands what the functions do as they run: the paths control may take through
their statements, and what their names are bound to on the way.
-/

namespace QuantDinger.Model.Constraints

open Library Python

/-! ## Statements -/

/-- The functions `_parameter_get_name` looks through. -/
inductive Cast
  | int | float | bool | str
  deriving DecidableEq, Repr

/-- The right side of an assignment. `paramsGet` is `….params.get(key, …)`; it is `own` if the owner
is the strategy's context and the key is that text itself (not another constant of that text). -/
inductive RightSide (Object : Type)
  | paramsGet (own : Bool) (key : String)
  | cast (function : Cast) (argument : RightSide Object)
  | expr (e : Expr Object)
  | other

/-- The statements of a function. `rebind` is any simple statement but those before it, with the
names it binds or deletes; `compound` is a loop, a `try`, a handler, a `with` or a `match`, with the
names it binds itself; `scope` is a nested function with its name and its local names. -/
inductive Stmt (Object : Type)
  | assign (target : String) (value : RightSide Object)
  | ret (value : Option (Expr Object))
  | rebind (names : List String)
  | branch (test : Expr Object) (body orelse : List (Stmt Object))
  | compound (names : List String) (body : List (Stmt Object))
  | scope (name : String) (names : List String) (body : List (Stmt Object))

variable {Object : Type}

namespace Stmt

/-- The statements right below a statement. -/
def children : Stmt Object → List (Stmt Object)
  | .branch _ body orelse => body ++ orelse
  | .compound _ body => body
  | .scope _ _ body => body
  | _ => []

mutual

/-- The levels of statements in and below a statement. -/
def height : Stmt Object → ℕ
  | .branch _ body orelse => max (heights body) (heights orelse) + 1
  | .compound _ body => heights body + 1
  | .scope _ _ body => heights body + 1
  | _ => 1

def heights : List (Stmt Object) → ℕ
  | [] => 0
  | stmt :: stmts => max stmt.height (heights stmts)

end

end Stmt

/-- The statements `n` levels below those of a body. -/
def level (body : List (Stmt Object)) : ℕ → List (Stmt Object)
  | 0 => body
  | n + 1 => (level body n).flatMap Stmt.children

/-- The statements of `ast.walk`, level by level. -/
def walk (body : List (Stmt Object)) : List (Stmt Object) :=
  (List.range (Stmt.heights body)).flatMap (level body)

/-! ## Guards -/

/-- `_parameter_get_name`.
SOURCE: constraints.py:182-198 -/
def parameterGetName : RightSide Object → String
  | .paramsGet _ key => key
  | .cast _ (.paramsGet _ key) => key
  | _ => ""

/-- The alias an assignment adds. SOURCE: constraints.py:43-50 -/
def addAlias (parameterNames : List String) (aliases : Dict String String) :
    Stmt Object → Dict String String
  | .assign target value =>
    if parameterGetName value ∈ parameterNames then aliases.set target (parameterGetName value)
    else aliases
  | _ => aliases

/-- The aliases of a function. SOURCE: constraints.py:42-50 -/
def functionAliases (parameterNames : List String) (body : List (Stmt Object)) :
    Dict String String :=
  (walk body).foldl (addAlias parameterNames) (ownAliases parameterNames)

/-- `_is_bare_return`. SOURCE: constraints.py:201-202 -/
def isBareReturn : List (Stmt Object) → Bool
  | [.ret none] => true
  | _ => false

/-- The constraint of one guard; `text` is `_expression_text`.
SOURCE: constraints.py:52-60 -/
def guardConstraint (text : Expr Object → Dict String String → String)
    (aliases : Dict String String) : Stmt Object → Option (ParameterConstraint Object)
  | .branch test body _ =>
    if isBareReturn body then
      (compileExpression aliases test).map fun tree =>
        { expression := text test aliases, tree, source := "guard", rejectsWhenTrue := true }
    else none
  | _ => none

/-- `discover_parameter_constraints` of a source with these lines and functions, nested ones
included; `same` is `==` of constraints.
SOURCE: constraints.py:31-62 -/
def discoverParameterConstraints (parse : String → Option (Expr Object))
    (text : Expr Object → Dict String String → String)
    (same : ParameterConstraint Object → ParameterConstraint Object → Bool)
    (lines : List String) (functions : List (List (Stmt Object)))
    (parameterNames : List String) : List (ParameterConstraint Object) :=
  (functions.flatMap fun body =>
    (walk body).filterMap (guardConstraint text (functionAliases parameterNames body))).foldl
      (fun constraints constraint =>
        if constraints.any (same constraint) then constraints else constraints ++ [constraint])
      (declaredConstraints parse lines parameterNames)

/-! ## Runs of a function -/

/-- What a name is bound to, and by which right side it was. -/
structure Binding (Object : Type) where
  value : Value Object
  source : RightSide Object

/-- What the names of a function stand for, those of enclosing scopes included. -/
abbrev Names (Object : Type) := String → Option (Binding Object)

/-- What a name denotes as an expression is evaluated. -/
def Names.lookup (names : Names Object) (id : String) : Option (Value Object) :=
  (names id).map Binding.value

/-- What a function does under an assignment of the parameters. -/
structure Machine (Object : Type) where
  host : Host Object
  cast : Cast → Value Object → Except Exception (Value Object)
  params : Dict String (Value Object)

namespace Machine

variable (machine : Machine Object)

/-- The values a right side may have. A parameter that is missing, and what another object holds,
may be anything. -/
inductive Yields (names : Names Object) : RightSide Object → Value Object → Prop
  | param {key : String} {v : Value Object} (h : machine.params.get? key = some v) :
      Yields names (.paramsGet true key) v
  | fallback {key : String} (v : Value Object) (h : machine.params.get? key = none) :
      Yields names (.paramsGet true key) v
  | foreign (key : String) (v : Value Object) : Yields names (.paramsGet false key) v
  | cast {function : Cast} {argument : RightSide Object} {u v : Value Object}
      (harg : Yields names argument u) (h : machine.cast function u = .ok v) :
      Yields names (.cast function argument) v
  | expr {e : Expr Object} {v : Value Object}
      (h : e.evaluate machine.host names.lookup = .ok v) : Yields names (.expr e) v
  | other (v : Value Object) : Yields names .other v

/-- A call that is to be returned from: the local names of the function called, what they stood for
where it was called, and what is to be done there. -/
structure Frame (Object : Type) where
  scope : List String
  saved : Names Object
  todo : List (Stmt Object)

/-- A point of a path: what the names stand for, what is to be done next, and the calls. -/
structure Config (Object : Type) where
  names : Names Object
  todo : List (Stmt Object)
  frames : List (Frame Object)

/-- Some names bound to whatever they may be, or unbound; the others are untouched. -/
def Rebinds (rebound : List String) (names names' : Names Object) : Prop :=
  ∀ id, (id ∉ rebound → names' id = names id) ∧
    (id ∈ rebound → ∀ binding, names' id = some binding → binding.source = .other)

/-- Whether a test may turn out this way; of what is not modelled it may turn out either way. -/
def TestMay (test : Expr Object) (names : Names Object) (truth : Bool) : Prop :=
  match test.evaluate machine.host names.lookup with
  | .ok v => machine.host.truth v = truth
  | .error exception => exception = .other

/-- A function's names as it is called: its local names are unbound. -/
def enter (names : Names Object) (scope : List String) : Names Object :=
  fun id => if id ∈ scope then none else names id

/-- The names as a call returns. -/
def leave (names : Names Object) (frame : Frame Object) : Names Object :=
  fun id => if id ∈ frame.scope then frame.saved id else names id

/-- The steps of a path through a function with these nested functions. Loops, handlers and jumps
take control anywhere they may: a compound statement executes its statements in any order and
any number of times, and what is left of a block may be given up at any point. -/
inductive Step (nested : List (List String × List (Stmt Object))) :
    Config Object → Config Object → Prop
  | assign {names : Names Object} {target : String} {value : RightSide Object}
      {todo : List (Stmt Object)} {frames : List (Frame Object)} {v : Value Object}
      (h : machine.Yields names value v) :
      Step nested ⟨names, .assign target value :: todo, frames⟩
        ⟨fun id => if id = target then some ⟨v, value⟩ else names id, todo, frames⟩
  | rebind {names names' : Names Object} {rebound : List String} {todo : List (Stmt Object)}
      {frames : List (Frame Object)} (h : Rebinds rebound names names') :
      Step nested ⟨names, .rebind rebound :: todo, frames⟩ ⟨names', todo, frames⟩
  | branch {names : Names Object} {test : Expr Object} {body orelse todo : List (Stmt Object)}
      {frames : List (Frame Object)} (truth : Bool) (h : machine.TestMay test names truth) :
      Step nested ⟨names, .branch test body orelse :: todo, frames⟩
        ⟨names, (if truth then body else orelse) ++ todo, frames⟩
  | again {names names' : Names Object} {rebound : List String} {body : List (Stmt Object)}
      {stmt : Stmt Object} {todo : List (Stmt Object)} {frames : List (Frame Object)}
      (h : Rebinds rebound names names') (hmem : stmt ∈ body) :
      Step nested ⟨names, .compound rebound body :: todo, frames⟩
        ⟨names', stmt :: .compound rebound body :: todo, frames⟩
  | define {names names' : Names Object} {name : String} {scope : List String}
      {body todo : List (Stmt Object)} {frames : List (Frame Object)}
      (h : Rebinds [name] names names') :
      Step nested ⟨names, .scope name scope body :: todo, frames⟩ ⟨names', todo, frames⟩
  | jump {names : Names Object} {todo left : List (Stmt Object)} {frames : List (Frame Object)}
      (h : left <:+ todo) : Step nested ⟨names, todo, frames⟩ ⟨names, left, frames⟩
  | call {names : Names Object} {scope : List String} {body todo : List (Stmt Object)}
      {frames : List (Frame Object)} (h : (scope, body) ∈ nested) :
      Step nested ⟨names, todo, frames⟩
        ⟨enter names scope, body, ⟨scope, names, todo⟩ :: frames⟩
  | back {names : Names Object} {todo : List (Stmt Object)} {frame : Frame Object}
      {frames : List (Frame Object)} :
      Step nested ⟨names, todo, frame :: frames⟩ ⟨leave names frame, frame.todo, frames⟩

end Machine

/-- The nested functions of a body, at every depth. -/
def nestedFunctions (body : List (Stmt Object)) : List (List String × List (Stmt Object)) :=
  (walk body).filterMap fun
    | .scope _ scope inner => some (scope, inner)
    | _ => none

/-- The paths of a function: it starts with its body, and nothing its names stand for was read by
it. -/
inductive Path (machine : Machine Object) (body : List (Stmt Object)) :
    Machine.Config Object → Prop
  | start {names : Names Object}
      (h : ∀ id binding, names id = some binding → binding.source = .other) :
      Path machine body ⟨names, body, []⟩
  | next {config config' : Machine.Config Object} (hpath : Path machine body config)
      (h : machine.Step (nestedFunctions body) config config') : Path machine body config'

end QuantDinger.Model.Constraints
