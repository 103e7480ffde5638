import QuantDinger.Model.PythonExpressions
import QuantDinger.Model.Text

/-!
# Parameter constraints

`constraints.py` of the strategy evolution: expressions over the parameters of a strategy are
compiled to trees, and the trees decide which candidates the search tries.
-/

namespace QuantDinger.Model.Constraints

open Library Python

/-- `ExpressionTree`. SOURCE: constraints.py:10 -/
inductive ExpressionTree (Object : Type)
  | param (name : String)
  | literal (value : Value Object)
  | sequence (items : List (ExpressionTree Object))
  | junction (op : BoolOp) (items : List (ExpressionTree Object))
  | not (operand : ExpressionTree Object)
  | unary (op : UnaryOp) (operand : ExpressionTree Object)
  | binary (op : Operator) (left right : ExpressionTree Object)
  | compare (ops : List CmpOp) (operands : List (ExpressionTree Object))

variable {Object : Type}

/-! ## Compiling -/

/-- The operators of `_compile_expression`. SOURCE: constraints.py:113-121 -/
def compilesOperator : Operator → Bool
  | .add | .sub | .mult | .div | .floorDiv | .mod | .pow => true
  | _ => false

/-- `_comparison_operator`. SOURCE: constraints.py:205-215 -/
def compilesComparison : CmpOp → Bool
  | .is | .isNot => false
  | _ => true

mutual

/-- `_compile_expression`.
SOURCE: constraints.py:93-130 -/
def compileExpression (aliases : Dict String String) : Expr Object → Option (ExpressionTree Object)
  | .name id => (aliases.get? id).map .param
  | .constant value => some (.literal value)
  | .display _ items => (compileAll aliases items).map .sequence
  | .boolOp op values => (compileAll aliases values).map (.junction op)
  | .unaryOp .not operand => (compileExpression aliases operand).map .not
  | .unaryOp .invert _ => none
  | .unaryOp op operand => (compileExpression aliases operand).map (.unary op)
  | .binOp op left right =>
    match compileExpression aliases left, compileExpression aliases right with
    | some left, some right => if compilesOperator op then some (.binary op left right) else none
    | _, _ => none
  | .compare left ops comparators =>
    match compileExpression aliases left, compileAll aliases comparators with
    | some left, some comparators =>
      if ops.all compilesComparison then some (.compare ops (left :: comparators)) else none
    | _, _ => none
  | .other => none

def compileAll (aliases : Dict String String) :
    List (Expr Object) → Option (List (ExpressionTree Object))
  | [] => some []
  | item :: items =>
    match compileExpression aliases item, compileAll aliases items with
    | some item, some items => some (item :: items)
    | _, _ => none

end

/-! ## Evaluating -/

section

variable (host : Host Object)

/-- The comparisons of a chain on values at hand, up to the first that does not hold. -/
def compareAll : List CmpOp → List (Value Object) → Except Exception Bool
  | op :: ops, left :: right :: rest => do
    if ← host.compare op left right then compareAll ops (right :: rest) else return false
  | _, _ => .ok true

variable (params : Dict String (Value Object))

mutual

/-- `_evaluate`.
SOURCE: constraints.py:133-166 -/
def ExpressionTree.evaluate : ExpressionTree Object → Except Exception (Value Object)
  | .param name => (params.get? name).elim (.error .key) .ok
  | .literal value => .ok value
  | .sequence items => do return .tuple (← evaluateTrees items)
  | .junction op items => do return .bool (← evaluateTreeJunction op items)
  | .not operand => do return .bool (!host.truth (← operand.evaluate))
  | .unary op operand => do host.unary op (← operand.evaluate)
  | .binary op left right => do
    let left ← left.evaluate
    let right ← right.evaluate
    host.binary op left right
  | .compare ops operands => do return .bool (← compareAll host ops (← evaluateTrees operands))

def evaluateTrees : List (ExpressionTree Object) → Except Exception (List (Value Object))
  | [] => .ok []
  | item :: items => do
    let value ← item.evaluate
    return value :: (← evaluateTrees items)

/-- `all(bool(…))` and `any(bool(…))`. -/
def evaluateTreeJunction (op : BoolOp) : List (ExpressionTree Object) → Except Exception Bool
  | [] => .ok (op.goesOn true)
  | item :: items => do
    let value ← item.evaluate
    if op.goesOn (host.truth value) then evaluateTreeJunction op items
    else return !op.goesOn true

end

end

/-! ## Constraints -/

/-- `ParameterConstraint`. SOURCE: constraints.py:13-18 -/
structure ParameterConstraint (Object : Type) where
  expression : String
  tree : ExpressionTree Object
  source : String
  rejectsWhenTrue : Bool

/-- The exceptions `accepts` catches. -/
def caught : Exception → Bool
  | .other => false
  | _ => true

/-- `ParameterConstraint.accepts`.
SOURCE: constraints.py:20-25 -/
def ParameterConstraint.accepts (host : Host Object) (constraint : ParameterConstraint Object)
    (params : Dict String (Value Object)) : Except Exception Bool :=
  match constraint.tree.evaluate host params with
  | .ok value =>
    .ok (if constraint.rejectsWhenTrue then !host.truth value else host.truth value)
  | .error exception => if caught exception then .ok true else .error exception

/-- `{name: name for name in parameter_names}` -/
def ownAliases (parameterNames : List String) : Dict String String :=
  .ofPairs (parameterNames.map fun name => (name, name))

/-- What follows the first occurrence of a marker, if there is one. -/
def afterMarker (marker : List Char) : List Char → Option (List Char)
  | [] => if marker.isEmpty then some [] else none
  | c :: rest =>
    if marker.isPrefixOf (c :: rest) then some ((c :: rest).drop marker.length)
    else afterMarker marker rest

/-- The expression a line declares, if any.
SOURCE: constraints.py:75-82 -/
def declaredExpression (line : String) : Option String :=
  let stripped := strip line
  if !startsWith stripped "#" then none
  else
    match afterMarker "@constraint".toList stripped.toList with
    | none => none
    | some rest =>
      let expression := strip (String.ofList rest)
      if expression = "" then none else some expression

/-- `_declared_constraints`; `parse` is `ast.parse` of one expression.
SOURCE: constraints.py:72-90 -/
def declaredConstraints (parse : String → Option (Expr Object)) (lines : List String)
    (parameterNames : List String) : List (ParameterConstraint Object) :=
  lines.filterMap fun line => do
    let expression ← declaredExpression line
    let tree ← compileExpression (ownAliases parameterNames) (← parse expression)
    return { expression, tree, source := "declaration", rejectsWhenTrue := false }

end QuantDinger.Model.Constraints
