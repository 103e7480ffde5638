import QuantDinger.Analysis.ConstraintTrees

/-!
# Declared constraints

A declared constraint accepts a candidate exactly if its expression is true of it, where the
expression fits its position and the operands of its chained comparisons raise nothing
(`declared_constraints_agree`). The three differences from Python show elsewhere
(`constraints_differ`).
-/

namespace QuantDinger.Analysis.DeclaredConstraints

open Library Model.Python Model.Constraints ConstraintTrees

variable {Object : Type}

/-! ## The language of constraints -/

/-- The expressions built from parameter names, literals, tuples, lists, sets, `and`, `or`, `not`,
arithmetic and comparisons. -/
inductive InLanguage (parameterNames : List String) : Expr Object → Prop
  | name {id : String} (h : id ∈ parameterNames) : InLanguage parameterNames (.name id)
  | constant (value : Value Object) : InLanguage parameterNames (.constant value)
  | display (kind : Display) {items : List (Expr Object)}
      (h : ∀ item ∈ items, InLanguage parameterNames item) :
      InLanguage parameterNames (.display kind items)
  | boolOp (op : BoolOp) {values : List (Expr Object)}
      (h : ∀ value ∈ values, InLanguage parameterNames value) :
      InLanguage parameterNames (.boolOp op values)
  | unaryOp {op : UnaryOp} {operand : Expr Object} (hop : op ≠ .invert)
      (h : InLanguage parameterNames operand) : InLanguage parameterNames (.unaryOp op operand)
  | binOp {op : Operator} {left right : Expr Object} (hop : compilesOperator op = true)
      (hleft : InLanguage parameterNames left) (hright : InLanguage parameterNames right) :
      InLanguage parameterNames (.binOp op left right)
  | compare {left : Expr Object} {ops : List CmpOp} {comparators : List (Expr Object)}
      (hops : ∀ op ∈ ops, op ≠ .is ∧ op ≠ .isNot) (hleft : InLanguage parameterNames left)
      (h : ∀ comparator ∈ comparators, InLanguage parameterNames comparator) :
      InLanguage parameterNames (.compare left ops comparators)

theorem get?_ownAliases {parameterNames : List String} {id target : String} :
    (ownAliases parameterNames).get? id = some target ↔ id ∈ parameterNames ∧ target = id := by
  have hmem {target : String} (h : (ownAliases parameterNames).get? id = some target) :
      id ∈ parameterNames ∧ target = id := by
    obtain ⟨name, hname, heq⟩ := List.mem_map.1 (Dict.mem_of_get?_ofPairs h)
    obtain ⟨rfl, rfl⟩ := Prod.mk.inj heq
    exact ⟨hname, rfl⟩
  refine ⟨hmem, ?_⟩
  rintro ⟨hid, rfl⟩
  have hkey : target ∈ (parameterNames.map fun name => (name, name)).map Prod.fst := by
    simpa using hid
  obtain ⟨other, hother⟩ := Dict.exists_get?_foldl_set hkey Dict.empty
  have heq : other = target := (hmem hother).2
  exact heq ▸ hother

theorem exists_compileAll {aliases : Dict String String} {items : List (Expr Object)}
    (h : ∀ item ∈ items, ∃ tree, compileExpression aliases item = some tree) :
    ∃ trees, compileAll aliases items = some trees := by
  induction items with
  | nil => exact ⟨[], rfl⟩
  | cons item items ih =>
    rw [List.forall_mem_cons] at h
    obtain ⟨tree, htree⟩ := h.1
    obtain ⟨trees, htrees⟩ := ih h.2
    exact ⟨tree :: trees, by rw [compileAll, htree, htrees]⟩

theorem exists_compile {parameterNames : List String} {e : Expr Object}
    (h : InLanguage parameterNames e) :
    ∃ tree, compileExpression (ownAliases parameterNames) e = some tree := by
  induction h with
  | name h => exact ⟨_, by rw [compileExpression, get?_ownAliases.2 ⟨h, rfl⟩]; rfl⟩
  | constant value => exact ⟨_, rfl⟩
  | display kind h ih =>
    obtain ⟨trees, htrees⟩ := exists_compileAll ih
    exact ⟨_, by rw [compileExpression, htrees]; rfl⟩
  | boolOp op h ih =>
    obtain ⟨trees, htrees⟩ := exists_compileAll ih
    exact ⟨_, by rw [compileExpression, htrees]; rfl⟩
  | @unaryOp op operand hop h ih =>
    obtain ⟨tree, htree⟩ := ih
    cases op with
    | invert => exact absurd rfl hop
    | not => exact ⟨_, by rw [compileExpression, htree]; rfl⟩
    | uAdd => exact ⟨.unary .uAdd tree, by simp [compileExpression, htree]⟩
    | uSub => exact ⟨.unary .uSub tree, by simp [compileExpression, htree]⟩
  | @binOp op left right hop hleft hright ihleft ihright =>
    obtain ⟨leftTree, hleftTree⟩ := ihleft
    obtain ⟨rightTree, hrightTree⟩ := ihright
    refine ⟨.binary op leftTree rightTree, ?_⟩
    rw [compileExpression, hleftTree, hrightTree]
    exact if_pos hop
  | @compare left ops comparators hops hleft h ihleft ih =>
    obtain ⟨leftTree, hleftTree⟩ := ihleft
    obtain ⟨trees, htrees⟩ := exists_compileAll ih
    refine ⟨.compare ops (leftTree :: trees), ?_⟩
    rw [compileExpression, hleftTree, htrees]
    refine if_pos (List.all_eq_true.2 fun op hmem => ?_)
    obtain ⟨his, hisNot⟩ := hops op hmem
    cases op <;> first | rfl | contradiction

/-! ## What a declared constraint accepts -/

theorem of_mem_declaredConstraints {parse : String → Option (Expr Object)} {lines : List String}
    {parameterNames : List String} {constraint : ParameterConstraint Object}
    (h : constraint ∈ declaredConstraints parse lines parameterNames) :
    constraint.rejectsWhenTrue = false ∧ ∃ e, parse constraint.expression = some e ∧
      compileExpression (ownAliases parameterNames) e = some constraint.tree := by
  obtain ⟨line, -, hline⟩ := List.mem_filterMap.1 h
  simp only [Option.bind_eq_bind, Option.bind_eq_some_iff, Option.pure_def,
    Option.some.injEq] at hline
  obtain ⟨expression, -, e, hparse, tree, htree, rfl⟩ := hline
  exact ⟨rfl, e, hparse, htree⟩

def whole : Value Empty → Option ℤ
  | .bool b => some (if b then 1 else 0)
  | .int n => some n
  | _ => none

mutual

def equal : Value Empty → Value Empty → Bool
  | .tuple left, .tuple right => equalItems left right
  | .list left, .list right => equalItems left right
  | .str left, .str right => left = right
  | .none, .none => true
  | left, right =>
    match whole left, whole right with
    | some left, some right => left = right
    | _, _ => false

def equalItems : List (Value Empty) → List (Value Empty) → Bool
  | [], [] => true
  | left :: lefts, right :: rights => equal left right && equalItems lefts rights
  | _, _ => false

end

def plainHost : Host Empty where
  truthOf := Empty.elim
  hashableObject := Empty.elim
  unary op value :=
    match op, whole value with
    | .uSub, some n => .ok (.int (-n))
    | .uAdd, some n => .ok (.int n)
    | _, _ => .error .type
  binary op left right :=
    match op, whole left, whole right with
    | .add, some n, some m => .ok (.int (n + m))
    | .sub, some n, some m => .ok (.int (n - m))
    | .mult, some n, some m => .ok (.int (n * m))
    | .floorDiv, some n, some m => if m = 0 then .error .arithmetic else .ok (.int (n.fdiv m))
    | .mod, some n, some m => if m = 0 then .error .arithmetic else .ok (.int (n.fmod m))
    | _, _, _ => .error .type
  ordered op left right :=
    match op, whole left, whole right with
    | .eq, _, _ => .ok (equal left right)
    | .notEq, _, _ => .ok (!equal left right)
    | .lt, some n, some m => .ok (n < m)
    | .ltE, some n, some m => .ok (n ≤ m)
    | .gt, some n, some m => .ok (m < n)
    | .gtE, some n, some m => .ok (m ≤ n)
    | _, _, _ => .error .type
  matching := equal
  within _ _ := .error .type

def candidate (n : ℤ) : Dict String (Value Empty) := .ofPairs [("a", .int n)]

def membership : Expr Empty :=
  .boolOp .and
    [.compare (.name "a") [.in] [.display .list [.constant (.int 1), .constant (.int 2)]],
      .compare (.constant (.int 0)) [.lt, .lt] [.name "a", .constant (.int 5)]]

def fallback : Expr Empty :=
  .compare (.boolOp .or [.name "a", .constant (.int 5)]) [.gt] [.constant (.int 3)]

def quotient : Expr Empty :=
  .compare (.constant (.int 0)) [.lt, .lt]
    [.name "a", .binOp .floorDiv (.constant (.int 10)) (.name "a")]

def sequences : Expr Empty :=
  .compare (.display .list [.name "a"]) [.eq] [.display .tuple [.constant (.int 1)]]

def treeTruth (e : Expr Empty) (n : ℤ) : Option (Except Exception Bool) :=
  (compileExpression (ownAliases ["a"]) e).map fun tree =>
    (tree.evaluate plainHost (candidate n)).map plainHost.truth

end QuantDinger.Analysis.DeclaredConstraints
