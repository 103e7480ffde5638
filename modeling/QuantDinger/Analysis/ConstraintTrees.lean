import QuantDinger.Library.Outcomes
import QuantDinger.Model.Constraints

/-!
# Constraint trees

A compiled constraint makes a boolean of every `and` and `or`, a tuple of every list and set, and
evaluates all operands of a chain of comparisons. Where none of this is seen, that is where an
expression fits the position it stands in (`fits`) and the operands a chain skips raise nothing
(`OperandsEvaluate`), the tree evaluates to what the expression evaluates to (`tree_agrees`).
-/

namespace QuantDinger.Analysis.ConstraintTrees

open Library Model.Python Model.Constraints

variable {Object : Type}

/-! ## Positions -/

/-- What is asked of a value: its truth, the value itself, or its members. -/
inductive Position
  | truth | value | container
  deriving DecidableEq, Repr

/-- The position of a comparator that `rest` comes after. -/
def comparatorPosition (op : CmpOp) (rest : List (Expr Object)) : Position :=
  if rest.isEmpty && (op = .in || op = .notIn) then .container else .value

mutual

def isBoolean : Expr Object → Bool
  | .constant (.bool _) => true
  | .unaryOp .not _ => true
  | .compare _ _ _ => true
  | .boolOp _ values => areBoolean values
  | _ => false

def areBoolean : List (Expr Object) → Bool
  | [] => true
  | value :: values => isBoolean value && areBoolean values

end

mutual

/-- An `and` or `or` stands where only its truth is asked for or between booleans, a list or a set
where only its truth or its members are. -/
def fits : Position → Expr Object → Bool
  | _, .name _ => true
  | _, .constant _ => true
  | _, .display .tuple items => fitAll .value items
  | position, .display _ items => decide (position ≠ .value) && fitAll .value items
  | .truth, .boolOp _ values => fitAll .truth values
  | _, .boolOp _ values => areBoolean values && fitAll .value values
  | _, .unaryOp .not operand => fits .truth operand
  | _, .unaryOp _ operand => fits .value operand
  | _, .binOp _ left right => fits .value left && fits .value right
  | _, .compare left ops comparators => fits .value left && fitComparators ops comparators
  | _, .other => true

def fitAll (position : Position) : List (Expr Object) → Bool
  | [] => true
  | item :: items => fits position item && fitAll position items

def fitComparators : List CmpOp → List (Expr Object) → Bool
  | op :: ops, comparator :: comparators =>
    fits (comparatorPosition op comparators) comparator && fitComparators ops comparators
  | [], comparator :: comparators => fits .value comparator && fitComparators [] comparators
  | _, [] => true

end

theorem fitAll_iff {position : Position} {items : List (Expr Object)} :
    fitAll position items = true ↔ ∀ item ∈ items, fits position item = true := by
  induction items with
  | nil => simp [fitAll]
  | cons item items ih => simp [fitAll, ih]

theorem areBoolean_iff {values : List (Expr Object)} :
    areBoolean values = true ↔ ∀ value ∈ values, isBoolean value = true := by
  induction values with
  | nil => simp [areBoolean]
  | cons value values ih => simp [areBoolean, ih]

section

variable (host : Host Object) (names : String → Option (Value Object))

/-- What the tree's value has to tell about the expression's in a position. -/
def Agrees : Position → Value Object → Value Object → Prop
  | .truth, v, w => host.truth w = host.truth v
  | .value, v, w => w = v
  | .container, v, w =>
    ∀ item held, host.contains item v = .ok held → host.contains item w = .ok held

mutual

/-- The operands of chained comparisons raise nothing, wherever the evaluation gets to a chain. -/
def OperandsEvaluate : Expr Object → Prop
  | .name _ => True
  | .constant _ => True
  | .display _ items => OperandsEvaluateAll items
  | .boolOp op values => OperandsEvaluateUntil op values
  | .unaryOp _ operand => OperandsEvaluate operand
  | .binOp _ left right => OperandsEvaluate left ∧ OperandsEvaluate right
  | .compare left _ comparators => OperandsEvaluate left ∧ ComparatorsEvaluate comparators
  | .other => True

def OperandsEvaluateAll : List (Expr Object) → Prop
  | [] => True
  | item :: items => OperandsEvaluate item ∧ OperandsEvaluateAll items

def OperandsEvaluateUntil (op : BoolOp) : List (Expr Object) → Prop
  | [] => True
  | value :: values => OperandsEvaluate value ∧ ∀ result,
      value.evaluate host names = .ok result → op.goesOn (host.truth result) = true →
        OperandsEvaluateUntil op values

def ComparatorsEvaluate : List (Expr Object) → Prop
  | [] => True
  | comparator :: comparators => (OperandsEvaluate comparator ∧
      ∃ result, comparator.evaluate host names = .ok result) ∧ ComparatorsEvaluate comparators

end

end

section

variable {host : Host Object} {names : String → Option (Value Object)}

theorem Agrees.refl (position : Position) (v : Value Object) : Agrees host position v v := by
  cases position with
  | truth => rfl
  | value => rfl
  | container => exact fun _ _ h => h

/-! ## Booleans -/

theorem junction_boolean {op : BoolOp} {values : List (Expr Object)}
    (h : ∀ value ∈ values, ∀ v, value.evaluate host names = .ok v → ∃ b, v = .bool b)
    {v : Value Object} (hv : evaluateJunction host names op values = .ok v) : ∃ b, v = .bool b := by
  induction values with
  | nil =>
    rw [evaluateJunction] at hv
    exact ⟨_, (Except.ok.inj hv).symm⟩
  | cons value values ih =>
    rw [List.forall_mem_cons] at h
    rw [evaluateJunction, bind_ok_iff] at hv
    obtain ⟨result, hresult, hv⟩ := hv
    split at hv
    · exact h.1 v (hresult.trans (congrArg _ (Except.ok.inj hv)))
    · exact ih h.2 hv

theorem evaluate_boolean (e : Expr Object) : isBoolean e = true →
    ∀ v, e.evaluate host names = .ok v → ∃ b, v = .bool b := by
  induction e using Expr.induction with
  | boolOp op values ih =>
    intro hboolean v hv
    rw [isBoolean, areBoolean_iff] at hboolean
    rw [Expr.evaluate] at hv
    exact junction_boolean (fun value hmem => ih value hmem (hboolean value hmem)) hv
  | constant value =>
    intro hboolean v hv
    rw [Expr.evaluate] at hv
    obtain rfl := Except.ok.inj hv
    cases value with
    | bool b => exact ⟨b, rfl⟩
    | _ => simp [isBoolean] at hboolean
  | unaryOp op operand ih =>
    intro hboolean v hv
    cases op with
    | not =>
      rw [Expr.evaluate, bind_ok_iff] at hv
      obtain ⟨_, _, hv⟩ := hv
      exact ⟨_, (Except.ok.inj hv).symm⟩
    | _ => simp [isBoolean] at hboolean
  | compare left ops comparators ihleft ih =>
    intro _ v hv
    simp only [Expr.evaluate, bind_ok_iff] at hv
    obtain ⟨_, _, _, _, hv⟩ := hv
    exact ⟨_, (Except.ok.inj hv).symm⟩
  | name id => exact fun hboolean => nomatch hboolean
  | display kind items ih => exact fun hboolean => nomatch hboolean
  | binOp op left right ihleft ihright => exact fun hboolean => nomatch hboolean
  | other => exact fun hboolean => nomatch hboolean

end

/-! ## Compiled trees -/

section

variable (host : Host Object) (names : String → Option (Value Object))
  (params : Dict String (Value Object)) (aliases : Dict String String)

/-- The tree of an expression evaluates wherever the expression does, to what agrees with it. -/
def Simulates (position : Position) (e : Expr Object) : Prop :=
  ∀ tree v, compileExpression aliases e = some tree → OperandsEvaluate host names e →
    e.evaluate host names = .ok v →
      ∃ w, tree.evaluate host params = .ok w ∧ Agrees host position v w

end

section

variable {host : Host Object} {names : String → Option (Value Object)}
  {params : Dict String (Value Object)} {aliases : Dict String String}

theorem compileAll_cons {item : Expr Object} {items : List (Expr Object)}
    {trees : List (ExpressionTree Object)} (h : compileAll aliases (item :: items) = some trees) :
    ∃ tree rest, compileExpression aliases item = some tree ∧
      compileAll aliases items = some rest ∧ trees = tree :: rest := by
  rw [compileAll] at h
  split at h
  · rename_i tree rest hitem hitems
    exact ⟨tree, rest, hitem, hitems, (Option.some.inj h).symm⟩
  · exact nomatch h

theorem items_agree {items : List (Expr Object)}
    (h : ∀ item ∈ items, Simulates host names params aliases .value item)
    {trees : List (ExpressionTree Object)} {vs : List (Value Object)}
    (htrees : compileAll aliases items = some trees)
    (hoperands : OperandsEvaluateAll host names items)
    (hvs : evaluateItems host names items = .ok vs) : evaluateTrees host params trees = .ok vs := by
  induction items generalizing trees vs with
  | nil =>
    rw [compileAll] at htrees
    rw [evaluateItems] at hvs
    obtain rfl := Option.some.inj htrees
    obtain rfl := Except.ok.inj hvs
    rfl
  | cons item items ih =>
    rw [List.forall_mem_cons] at h
    obtain ⟨tree, rest, htree, hrest, rfl⟩ := compileAll_cons htrees
    simp only [evaluateItems, bind_ok_iff] at hvs
    obtain ⟨v, hv, vs', hvs', hresult⟩ := hvs
    obtain rfl := Except.ok.inj hresult
    rw [OperandsEvaluateAll] at hoperands
    obtain ⟨w, hw, rfl⟩ := h.1 tree v htree hoperands.1 hv
    simp only [evaluateTrees, bind_ok_iff]
    exact ⟨w, hw, vs', ih h.2 hrest hoperands.2 hvs', rfl⟩

theorem junction_agrees {op : BoolOp} {values : List (Expr Object)}
    (h : ∀ value ∈ values, Simulates host names params aliases .truth value)
    {trees : List (ExpressionTree Object)} {v : Value Object}
    (htrees : compileAll aliases values = some trees)
    (hoperands : OperandsEvaluateUntil host names op values)
    (hv : evaluateJunction host names op values = .ok v) :
    evaluateTreeJunction host params op trees = .ok (host.truth v) := by
  induction values generalizing trees with
  | nil =>
    rw [compileAll] at htrees
    rw [evaluateJunction] at hv
    obtain rfl := Option.some.inj htrees
    obtain rfl := Except.ok.inj hv
    rfl
  | cons value values ih =>
    rw [List.forall_mem_cons] at h
    obtain ⟨tree, rest, htree, hrest, rfl⟩ := compileAll_cons htrees
    rw [evaluateJunction, bind_ok_iff] at hv
    obtain ⟨result, hresult, hv⟩ := hv
    rw [OperandsEvaluateUntil] at hoperands
    obtain ⟨w, hw, htruth⟩ := h.1 tree result htree hoperands.1 hresult
    rw [evaluateTreeJunction, bind_ok_iff]
    refine ⟨w, hw, ?_⟩
    change host.truth w = host.truth result at htruth
    rw [htruth]
    rcases hgo : op.goesOn (host.truth result) with _ | _
    · -- Python returns the operand it stops at
      rw [hgo, Bool.not_false, Bool.or_true, if_pos rfl] at hv
      obtain rfl := Except.ok.inj hv
      have hstop : (!op.goesOn true) = host.truth result := by
        cases op <;> simpa [BoolOp.goesOn] using hgo.symm
      rw [if_neg Bool.false_ne_true, hstop]
      rfl
    · rw [if_pos rfl]
      rcases values with _ | ⟨next, values⟩
      · obtain rfl := Except.ok.inj hv
        rw [compileAll] at hrest
        obtain rfl := Option.some.inj hrest
        rw [evaluateTreeJunction]
        cases op <;> simpa [BoolOp.goesOn] using hgo
      · rw [hgo] at hv
        exact ih h.2 hrest (hoperands.2 result hresult hgo) hv

theorem compareAll_single (ops : List CmpOp) (v : Value Object) :
    compareAll host ops [v] = .ok true := by
  cases ops <;> rfl

theorem chain_values {comparators : List (Expr Object)}
    (h : ComparatorsEvaluate host names comparators) :
    ∃ rs, evaluateItems host names comparators = .ok rs ∧ ∀ left ops,
      evaluateChain host names left ops comparators = compareAll host ops (left :: rs) := by
  induction comparators with
  | nil =>
    refine ⟨[], rfl, fun left ops => ?_⟩
    rw [compareAll_single]
    cases ops <;> rfl
  | cons comparator comparators ih =>
    rw [ComparatorsEvaluate] at h
    obtain ⟨⟨-, r, hr⟩, hrest⟩ := h
    obtain ⟨rs, hrs, hchain⟩ := ih hrest
    refine ⟨r :: rs, ?_, fun left ops => ?_⟩
    · simp only [evaluateItems, bind_ok_iff]
      exact ⟨r, hr, rs, hrs, rfl⟩
    · cases ops with
      | nil => rfl
      | cons op ops =>
        rw [evaluateChain, hr, compareAll]
        change (host.compare op left r >>= fun held =>
          if held = true then evaluateChain host names r ops comparators else pure false) = _
        rw [hchain]

theorem compare_agrees {op : CmpOp} {rest : List (Expr Object)} {left r w : Value Object}
    {held : Bool} (hagrees : Agrees host (comparatorPosition op rest) r w)
    (h : host.compare op left r = .ok held) : host.compare op left w = .ok held := by
  unfold comparatorPosition at hagrees
  split at hagrees
  · rename_i hmember
    simp only [Bool.and_eq_true, Bool.or_eq_true, decide_eq_true_eq] at hmember
    rcases hmember.2 with rfl | rfl
    · exact hagrees left held h
    · change (host.contains left r).map not = .ok held at h
      change (host.contains left w).map not = .ok held
      rcases hcontains : host.contains left r with exception | within
      · rw [hcontains] at h
        exact nomatch h
      · rw [hagrees left within hcontains, ← hcontains]
        exact h
  · obtain rfl : w = r := hagrees
    exact h

theorem comparators_agree {comparators : List (Expr Object)}
    (h : ∀ e ∈ comparators, ∀ position, fits position e = true →
      Simulates host names params aliases position e)
    {ops : List CmpOp} (hfits : fitComparators ops comparators = true)
    {trees : List (ExpressionTree Object)} (htrees : compileAll aliases comparators = some trees)
    (hoperands : ComparatorsEvaluate host names comparators) {rs : List (Value Object)}
    (hrs : evaluateItems host names comparators = .ok rs) :
    ∃ ws, evaluateTrees host params trees = .ok ws ∧ ∀ left held,
      compareAll host ops (left :: rs) = .ok held →
        compareAll host ops (left :: ws) = .ok held := by
  induction comparators generalizing ops trees rs with
  | nil =>
    rw [compileAll] at htrees
    rw [evaluateItems] at hrs
    obtain rfl := Option.some.inj htrees
    obtain rfl := Except.ok.inj hrs
    exact ⟨[], rfl, fun _ _ hheld => hheld⟩
  | cons comparator comparators ih =>
    rw [List.forall_mem_cons] at h
    obtain ⟨tree, rest, htree, hrest, rfl⟩ := compileAll_cons htrees
    simp only [evaluateItems, bind_ok_iff] at hrs
    obtain ⟨r, hr, rs', hrs', hresult⟩ := hrs
    obtain rfl := Except.ok.inj hresult
    rw [ComparatorsEvaluate] at hoperands
    simp only [evaluateTrees, bind_ok_iff]
    cases ops with
    | nil =>
      rw [fitComparators, Bool.and_eq_true] at hfits
      obtain ⟨w, hw, -⟩ := h.1 .value hfits.1 tree r htree hoperands.1.1 hr
      obtain ⟨ws, hws, -⟩ := ih h.2 hfits.2 hrest hoperands.2 hrs'
      exact ⟨w :: ws, ⟨w, hw, ws, hws, rfl⟩, fun _ _ hheld => hheld⟩
    | cons op ops =>
      rw [fitComparators, Bool.and_eq_true] at hfits
      obtain ⟨w, hw, hagrees⟩ := h.1 _ hfits.1 tree r htree hoperands.1.1 hr
      obtain ⟨ws, hws, hcompare⟩ := ih h.2 hfits.2 hrest hoperands.2 hrs'
      refine ⟨w :: ws, ⟨w, hw, ws, hws, rfl⟩, fun left held hheld => ?_⟩
      rw [compareAll, bind_ok_iff] at hheld ⊢
      obtain ⟨first, hfirst, hheld⟩ := hheld
      refine ⟨first, compare_agrees hagrees hfirst, ?_⟩
      cases first with
      | false => exact hheld
      | true =>
        rcases comparators with _ | ⟨next, comparators⟩
        · -- nothing is compared with the last comparator
          rw [evaluateItems] at hrs'
          rw [compileAll] at hrest
          obtain rfl := Except.ok.inj hrs'
          obtain rfl := Option.some.inj hrest
          obtain rfl := Except.ok.inj hws
          rw [if_pos rfl, compareAll_single] at hheld ⊢
          exact hheld
        · obtain rfl : w = r := hagrees
          rw [if_pos rfl] at hheld ⊢
          exact hcompare w held hheld

theorem Simulates.of_value {e : Expr Object} (position : Position)
    (h : Simulates host names params aliases .value e) :
    Simulates host names params aliases position e := by
  intro tree v htree hoperands hv
  obtain ⟨w, hw, rfl⟩ := h tree v htree hoperands hv
  exact ⟨w, hw, .refl position w⟩

theorem display_agrees {kind : Display} {items : List (Value Object)} {v : Value Object}
    {position : Position} (hposition : kind = .tuple ∨ position ≠ .value)
    (hv : kind.make host items = .ok v) : Agrees host position v (.tuple items) := by
  cases kind with
  | tuple =>
    obtain rfl := Except.ok.inj hv
    exact .refl position _
  | list =>
    obtain rfl := Except.ok.inj hv
    rcases hposition with hkind | hposition
    · exact nomatch hkind
    · cases position with
      | truth => rfl
      | value => exact absurd rfl hposition
      | container => exact fun _ _ h => h
  | set =>
    rw [Display.make] at hv
    split at hv
    · obtain rfl := Except.ok.inj hv
      rcases hposition with hkind | hposition
      · exact nomatch hkind
      · cases position with
        | truth => rfl
        | value => exact absurd rfl hposition
        | container =>
          intro item held h
          rw [Host.contains] at h
          split at h
          · exact h
          · exact nomatch h
    · exact nomatch hv

theorem tree_agrees (hnames : ∀ id target v, aliases.get? id = some target →
    names id = some v → params.get? target = some v) (e : Expr Object) :
    ∀ position, fits position e = true → Simulates host names params aliases position e := by
  induction e using Expr.induction with
  | name id =>
    rintro position - tree v htree - hv
    rw [compileExpression, Option.map_eq_some_iff] at htree
    obtain ⟨target, htarget, rfl⟩ := htree
    rw [Expr.evaluate] at hv
    rcases hname : names id with _ | value
    · rw [hname] at hv
      exact nomatch hv
    · rw [hname] at hv
      obtain rfl := Except.ok.inj hv
      refine ⟨value, ?_, .refl position value⟩
      rw [ExpressionTree.evaluate, hnames id target value htarget hname]
      rfl
  | constant value =>
    rintro position - tree v htree - hv
    rw [compileExpression] at htree
    rw [Expr.evaluate] at hv
    obtain rfl := Option.some.inj htree
    obtain rfl := Except.ok.inj hv
    exact ⟨value, rfl, .refl position value⟩
  | display kind items ih =>
    rintro position hfits tree v htree hoperands hv
    rw [compileExpression, Option.map_eq_some_iff] at htree
    obtain ⟨trees, htrees, rfl⟩ := htree
    rw [OperandsEvaluate] at hoperands
    rw [Expr.evaluate, bind_ok_iff] at hv
    obtain ⟨vs, hvs, hv⟩ := hv
    have hposition : (kind = .tuple ∨ position ≠ .value) ∧ fitAll .value items = true := by
      cases kind with
      | tuple =>
        rw [fits] at hfits
        exact ⟨.inl rfl, hfits⟩
      | list =>
        simp only [fits, Bool.and_eq_true, decide_eq_true_eq] at hfits
        exact ⟨.inr hfits.1, hfits.2⟩
      | set =>
        simp only [fits, Bool.and_eq_true, decide_eq_true_eq] at hfits
        exact ⟨.inr hfits.1, hfits.2⟩
    have hws := items_agree (fun item hmem => ih item hmem .value
      (fitAll_iff.1 hposition.2 item hmem)) htrees hoperands hvs
    refine ⟨.tuple vs, ?_, display_agrees hposition.1 hv⟩
    rw [ExpressionTree.evaluate, hws]
    rfl
  | boolOp op values ih =>
    rintro position hfits tree v htree hoperands hv
    rw [compileExpression, Option.map_eq_some_iff] at htree
    obtain ⟨trees, htrees, rfl⟩ := htree
    rw [OperandsEvaluate] at hoperands
    rw [Expr.evaluate] at hv
    by_cases hposition : position = .truth
    · subst hposition
      rw [fits] at hfits
      have hw := junction_agrees (fun value hmem => ih value hmem .truth
        (fitAll_iff.1 hfits value hmem)) htrees hoperands hv
      refine ⟨.bool (host.truth v), ?_, rfl⟩
      rw [ExpressionTree.evaluate, hw]
      rfl
    · have hfits' : areBoolean values = true ∧ fitAll .value values = true := by
        cases position with
        | truth => exact absurd rfl hposition
        | value => simpa only [fits, Bool.and_eq_true] using hfits
        | container => simpa only [fits, Bool.and_eq_true] using hfits
      have hw := junction_agrees (fun value hmem => (ih value hmem .value
        (fitAll_iff.1 hfits'.2 value hmem)).of_value .truth) htrees hoperands hv
      obtain ⟨b, rfl⟩ := junction_boolean (fun value hmem v hv => evaluate_boolean value
        (areBoolean_iff.1 hfits'.1 value hmem) v hv) hv
      refine ⟨.bool b, ?_, .refl position _⟩
      rw [ExpressionTree.evaluate, hw]
      rfl
  | unaryOp op operand ih =>
    rintro position hfits tree v htree hoperands hv
    rw [OperandsEvaluate] at hoperands
    cases op with
    | not =>
      rw [compileExpression, Option.map_eq_some_iff] at htree
      obtain ⟨tree, htree, rfl⟩ := htree
      rw [fits] at hfits
      rw [Expr.evaluate, bind_ok_iff] at hv
      obtain ⟨u, hu, hv⟩ := hv
      obtain rfl := Except.ok.inj hv
      obtain ⟨w, hw, htruth⟩ := ih .truth hfits tree u htree hoperands hu
      refine ⟨_, ?_, .refl position _⟩
      rw [ExpressionTree.evaluate, hw]
      change Except.ok (Value.bool (!host.truth w)) = _
      rw [htruth]
    | invert => exact nomatch htree
    | uAdd | uSub =>
      rw [compileExpression, Option.map_eq_some_iff] at htree
      · obtain ⟨tree, htree, rfl⟩ := htree
        rw [fits] at hfits
        · rw [Expr.evaluate, bind_ok_iff] at hv
          · obtain ⟨u, hu, hv⟩ := hv
            obtain ⟨w, hw, rfl⟩ := ih .value hfits tree u htree hoperands hu
            refine ⟨v, ?_, .refl position v⟩
            rw [ExpressionTree.evaluate, hw]
            exact hv
          · exact fun h => nomatch h
        · exact fun h => nomatch h
      · exact fun h => nomatch h
      · exact fun h => nomatch h
  | binOp op left right ihleft ihright =>
    rintro position hfits tree v htree hoperands hv
    rw [OperandsEvaluate] at hoperands
    rw [fits, Bool.and_eq_true] at hfits
    rw [compileExpression] at htree
    split at htree
    · rename_i leftTree rightTree hleft hright
      split at htree
      · obtain rfl := Option.some.inj htree
        simp only [Expr.evaluate, bind_ok_iff] at hv
        obtain ⟨l, hl, r, hr, hv⟩ := hv
        obtain ⟨_, hl', rfl⟩ := ihleft .value hfits.1 leftTree l hleft hoperands.1 hl
        obtain ⟨_, hr', rfl⟩ := ihright .value hfits.2 rightTree r hright hoperands.2 hr
        refine ⟨v, ?_, .refl position v⟩
        simp only [ExpressionTree.evaluate, bind_ok_iff]
        exact ⟨_, hl', _, hr', hv⟩
      · exact nomatch htree
    · exact nomatch htree
  | compare left ops comparators ihleft ih =>
    rintro position hfits tree v htree hoperands hv
    rw [OperandsEvaluate] at hoperands
    rw [fits, Bool.and_eq_true] at hfits
    rw [compileExpression] at htree
    split at htree
    · rename_i leftTree trees hleft htrees
      split at htree
      · obtain rfl := Option.some.inj htree
        simp only [Expr.evaluate, bind_ok_iff] at hv
        obtain ⟨l, hl, held, hheld, hv⟩ := hv
        obtain rfl := Except.ok.inj hv
        obtain ⟨_, hl', rfl⟩ := ihleft .value hfits.1 leftTree l hleft hoperands.1 hl
        obtain ⟨rs, hrs, hchain⟩ := chain_values hoperands.2
        obtain ⟨ws, hws, hcompare⟩ := comparators_agree ih hfits.2 htrees hoperands.2 hrs
        refine ⟨.bool held, ?_, .refl position _⟩
        simp only [ExpressionTree.evaluate, evaluateTrees, bind_ok_iff]
        exact ⟨_, ⟨_, hl', ws, hws, rfl⟩, held, hcompare _ held (hchain _ ops ▸ hheld), rfl⟩
      · exact nomatch htree
    · exact nomatch htree
  | other => exact fun _ _ _ _ htree => nomatch htree

end

end QuantDinger.Analysis.ConstraintTrees
