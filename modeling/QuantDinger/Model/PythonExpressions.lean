import Mathlib.Data.List.Basic
import QuantDinger.Library.Dict

/-!
# Python expressions

The part of Python a parameter constraint is written in: its values, its expressions as the `ast`
module has them, and how the language evaluates them. What the built-in operators make of numbers
and texts is the host's.
-/

namespace QuantDinger.Model.Python

open Library

/-! ## Values -/

/-- The values of constraints; floats and whatever else a parameter holds are objects. A set is
listed by the values it was made of. -/
inductive Value (Object : Type)
  | none
  | bool (b : Bool)
  | int (n : ℤ)
  | str (s : String)
  | object (o : Object)
  | tuple (items : List (Value Object))
  | list (items : List (Value Object))
  | set (items : List (Value Object))

/-- The exceptions an evaluation raises, as `ParameterConstraint.accepts` tells them apart. -/
inductive Exception
  | arithmetic | key | type | value | other
  deriving DecidableEq, Repr

/-! ## Operators -/

/-- `ast.boolop` -/
inductive BoolOp
  | and | or
  deriving DecidableEq, Repr

/-- `ast.unaryop` -/
inductive UnaryOp
  | invert | not | uAdd | uSub
  deriving DecidableEq, Repr

/-- `ast.operator` -/
inductive Operator
  | add | sub | mult | matMult | div | mod | pow | lShift | rShift | bitOr | bitXor | bitAnd
  | floorDiv
  deriving DecidableEq, Repr

/-- `ast.cmpop` -/
inductive CmpOp
  | eq | notEq | lt | ltE | gt | gtE | is | isNot | in | notIn
  deriving DecidableEq, Repr

/-- What the built-in types do: the truth and the hashes of objects, the operators, whether two
values are the same or equal, and membership in what is no tuple, list or set. -/
structure Host (Object : Type) where
  truthOf : Object → Bool
  hashableObject : Object → Bool
  unary : UnaryOp → Value Object → Except Exception (Value Object)
  binary : Operator → Value Object → Value Object → Except Exception (Value Object)
  ordered : CmpOp → Value Object → Value Object → Except Exception Bool
  matching : Value Object → Value Object → Bool
  within : Value Object → Value Object → Except Exception Bool

section

variable {Object : Type} (host : Host Object)

namespace Host

/-- `bool(value)` -/
def truth : Value Object → Bool
  | .none => false
  | .bool b => b
  | .int n => n ≠ 0
  | .str s => s ≠ ""
  | .object o => host.truthOf o
  | .tuple items | .list items | .set items => !items.isEmpty

mutual

/-- Whether `hash(value)` raises nothing. -/
def hashable : Value Object → Bool
  | .object o => host.hashableObject o
  | .tuple items => hashableItems items
  | .list _ | .set _ => false
  | _ => true

def hashableItems : List (Value Object) → Bool
  | [] => true
  | item :: items => hashable item && hashableItems items

end

/-- `item in container` -/
def contains (item : Value Object) : Value Object → Except Exception Bool
  | .tuple items | .list items => .ok (items.any (host.matching item))
  | .set items =>
    if host.hashable item then .ok (items.any (host.matching item)) else .error .type
  | container => host.within item container

/-- A comparison of two values. -/
def compare : CmpOp → Value Object → Value Object → Except Exception Bool
  | .in, left, right => host.contains left right
  | .notIn, left, right => (host.contains left right).map not
  | op, left, right => host.ordered op left right

end Host

end

/-! ## Expressions -/

/-- The displays: `(…)`, `[…]` and `{…}`. -/
inductive Display
  | tuple | list | set
  deriving DecidableEq, Repr

/-- `ast.expr`; a constant is a text, a number, a boolean or `None`, everything not listed here is
`other`. -/
inductive Expr (Object : Type)
  | name (id : String)
  | constant (value : Value Object)
  | display (kind : Display) (items : List (Expr Object))
  | boolOp (op : BoolOp) (values : List (Expr Object))
  | unaryOp (op : UnaryOp) (operand : Expr Object)
  | binOp (op : Operator) (left right : Expr Object)
  | compare (left : Expr Object) (ops : List CmpOp) (comparators : List (Expr Object))
  | other

/-- Induction over an expression, with a hypothesis for each of its operands. -/
@[elab_as_elim]
theorem Expr.induction {Object : Type} {motive : Expr Object → Prop}
    (name : ∀ id, motive (.name id)) (constant : ∀ value, motive (.constant value))
    (display : ∀ kind items, (∀ item ∈ items, motive item) → motive (.display kind items))
    (boolOp : ∀ op values, (∀ value ∈ values, motive value) → motive (.boolOp op values))
    (unaryOp : ∀ op operand, motive operand → motive (.unaryOp op operand))
    (binOp : ∀ op left right, motive left → motive right → motive (.binOp op left right))
    (compare : ∀ left ops comparators, motive left →
      (∀ comparator ∈ comparators, motive comparator) → motive (.compare left ops comparators))
    (other : motive .other) (expr : Expr Object) : motive expr :=
  @Expr.rec Object motive (fun items => ∀ item ∈ items, motive item) name constant display boolOp
    unaryOp binOp compare other (fun _ hmem => nomatch hmem)
    (fun _ _ hfirst hrest => List.forall_mem_cons.2 ⟨hfirst, hrest⟩) expr

section

variable {Object : Type} (host : Host Object)

/-- The value of a display; the members of a set are hashed. -/
def Display.make : Display → List (Value Object) → Except Exception (Value Object)
  | .tuple, items => .ok (.tuple items)
  | .list, items => .ok (.list items)
  | .set, items => if host.hashableItems items then .ok (.set items) else .error .type

/-- Whether a junction goes on after an operand. -/
def BoolOp.goesOn (op : BoolOp) (truth : Bool) : Bool :=
  match op with
  | .and => truth
  | .or => !truth

variable (names : String → Option (Value Object))

mutual

/-- Python's evaluation of an expression, its names looked up in `names`. -/
def Expr.evaluate : Expr Object → Except Exception (Value Object)
  | .name id => (names id).elim (.error .other) .ok
  | .constant value => .ok value
  | .display kind items => do kind.make host (← evaluateItems items)
  | .boolOp op values => evaluateJunction op values
  | .unaryOp .not operand => do return .bool (!host.truth (← operand.evaluate))
  | .unaryOp op operand => do host.unary op (← operand.evaluate)
  | .binOp op left right => do
    let left ← left.evaluate
    let right ← right.evaluate
    host.binary op left right
  | .compare left ops comparators => do
    let left ← left.evaluate
    return .bool (← evaluateChain left ops comparators)
  | .other => .error .other

def evaluateItems : List (Expr Object) → Except Exception (List (Value Object))
  | [] => .ok []
  | item :: items => do
    let value ← item.evaluate
    return value :: (← evaluateItems items)

/-- `and` and `or` return the operand they stop at. -/
def evaluateJunction (op : BoolOp) : List (Expr Object) → Except Exception (Value Object)
  | [] => .ok (.bool (op.goesOn true))
  | value :: values => do
    let result ← value.evaluate
    if values.isEmpty || !op.goesOn (host.truth result) then return result
    else evaluateJunction op values

/-- A chain of comparisons stops at the first that does not hold; what comes after it is not
evaluated. -/
def evaluateChain (left : Value Object) :
    List CmpOp → List (Expr Object) → Except Exception Bool
  | op :: ops, comparator :: comparators => do
    let right ← comparator.evaluate
    if ← host.compare op left right then evaluateChain right ops comparators else return false
  | _, _ => .ok true

end

end

end QuantDinger.Model.Python
