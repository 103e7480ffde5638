import QuantDinger.Analysis.ConstraintTrees

/-!
# The tests of guards

Read the other way round: where a tree without sets evaluates, so does the expression it was
compiled from, to what the tree tells in the position of the expression (`tree_reflects`).
-/

namespace QuantDinger.Analysis.GuardTests

open Library Model.Python Model.Constraints ConstraintTrees

variable {Object : Type}

/-! ## Expressions without sets -/

mutual

def setFree : Expr Object → Bool
  | .display kind items => decide (kind ≠ .set) && allSetFree items
  | .boolOp _ values => allSetFree values
  | .unaryOp _ operand => setFree operand
  | .binOp _ left right => setFree left && setFree right
  | .compare left _ comparators => setFree left && allSetFree comparators
  | _ => true

def allSetFree : List (Expr Object) → Bool
  | [] => true
  | item :: items => setFree item && allSetFree items

end

mutual

def mentions : Expr Object → List String
  | .name id => [id]
  | .display _ items => mentionsAll items
  | .boolOp _ values => mentionsAll values
  | .unaryOp _ operand => mentions operand
  | .binOp _ left right => mentions left ++ mentions right
  | .compare left _ comparators => mentions left ++ mentionsAll comparators
  | _ => []

def mentionsAll : List (Expr Object) → List String
  | [] => []
  | item :: items => mentions item ++ mentionsAll items

end

theorem allSetFree_iff {items : List (Expr Object)} :
    allSetFree items = true ↔ ∀ item ∈ items, setFree item = true := by
  induction items with
  | nil => simp [allSetFree]
  | cons item items ih => simp [allSetFree, ih]

/-! ## More names -/

section

variable {host : Host Object} {names names' : String → Option (Value Object)}

/-- INTERNAL: what holds of every item's evaluation under more names. -/
def Extends (host : Host Object) (names names' : String → Option (Value Object))
    (e : Expr Object) : Prop :=
  (∀ id ∈ mentions e, ∀ v, names id = some v → names' id = some v) →
    ∀ v, e.evaluate host names = .ok v → e.evaluate host names' = .ok v

theorem extends_all {items : List (Expr Object)}
    (h : ∀ item ∈ items, Extends host names names' item)
    (hnames : ∀ id ∈ mentionsAll items, ∀ v, names id = some v → names' id = some v) :
    ∀ item ∈ items, ∀ v, item.evaluate host names = .ok v → item.evaluate host names' = .ok v := by
  induction items with
  | nil => exact fun _ hmem => nomatch hmem
  | cons item items ih =>
    rw [List.forall_mem_cons] at h ⊢
    rw [mentionsAll, List.forall_mem_append] at hnames
    exact ⟨h.1 hnames.1, ih h.2 hnames.2⟩

theorem items_extend {items : List (Expr Object)}
    (h : ∀ item ∈ items, ∀ v, item.evaluate host names = .ok v → item.evaluate host names' = .ok v)
    {vs : List (Value Object)} (hvs : evaluateItems host names items = .ok vs) :
    evaluateItems host names' items = .ok vs := by
  induction items generalizing vs with
  | nil => exact hvs
  | cons item items ih =>
    rw [List.forall_mem_cons] at h
    simp only [evaluateItems, bind_ok_iff] at hvs ⊢
    obtain ⟨v, hv, vs', hvs', hresult⟩ := hvs
    exact ⟨v, h.1 v hv, vs', ih h.2 hvs', hresult⟩

theorem junction_extends {op : BoolOp} {values : List (Expr Object)}
    (h : ∀ value ∈ values, ∀ v, value.evaluate host names = .ok v →
      value.evaluate host names' = .ok v)
    {v : Value Object} (hv : evaluateJunction host names op values = .ok v) :
    evaluateJunction host names' op values = .ok v := by
  induction values with
  | nil => exact hv
  | cons value values ih =>
    rw [List.forall_mem_cons] at h
    rw [evaluateJunction, bind_ok_iff] at hv ⊢
    obtain ⟨result, hresult, hv⟩ := hv
    refine ⟨result, h.1 result hresult, ?_⟩
    split at hv
    · exact (if_pos ‹_›).trans hv
    · exact (if_neg ‹_›).trans (ih h.2 hv)

theorem chain_extends {comparators : List (Expr Object)}
    (h : ∀ comparator ∈ comparators, ∀ v, comparator.evaluate host names = .ok v →
      comparator.evaluate host names' = .ok v)
    {left : Value Object} {ops : List CmpOp} {held : Bool}
    (hheld : evaluateChain host names left ops comparators = .ok held) :
    evaluateChain host names' left ops comparators = .ok held := by
  induction comparators generalizing left ops with
  | nil =>
    cases ops <;> exact hheld
  | cons comparator comparators ih =>
    rw [List.forall_mem_cons] at h
    cases ops with
    | nil => exact hheld
    | cons op ops =>
      simp only [evaluateChain, bind_ok_iff] at hheld ⊢
      obtain ⟨right, hright, first, hfirst, hheld⟩ := hheld
      refine ⟨right, h.1 right hright, first, hfirst, ?_⟩
      cases first with
      | false => exact hheld
      | true => exact ih h.2 hheld

theorem evaluate_extends (e : Expr Object) : Extends host names names' e := by
  induction e using Expr.induction with
  | name id =>
    intro hnames v hv
    rw [Expr.evaluate] at hv ⊢
    rcases hname : names id with _ | value
    · rw [hname] at hv
      cases hv
    · rw [hname] at hv
      rw [hnames id (by simp [mentions]) value hname]
      exact hv
  | constant value => exact fun _ _ hv => hv
  | display kind items ih =>
    intro hnames v hv
    rw [mentions] at hnames
    rw [Expr.evaluate, bind_ok_iff] at hv ⊢
    obtain ⟨vs, hvs, hv⟩ := hv
    exact ⟨vs, items_extend (extends_all ih hnames) hvs, hv⟩
  | boolOp op values ih =>
    intro hnames v hv
    rw [mentions] at hnames
    rw [Expr.evaluate] at hv ⊢
    exact junction_extends (extends_all ih hnames) hv
  | unaryOp op operand ih =>
    intro hnames v hv
    rw [mentions] at hnames
    cases op <;>
    · simp only [Expr.evaluate, bind_ok_iff] at hv ⊢
      obtain ⟨u, hu, hv⟩ := hv
      exact ⟨u, ih hnames u hu, hv⟩
  | binOp op left right ihleft ihright =>
    intro hnames v hv
    rw [mentions, List.forall_mem_append] at hnames
    simp only [Expr.evaluate, bind_ok_iff] at hv ⊢
    obtain ⟨l, hl, r, hr, hv⟩ := hv
    exact ⟨l, ihleft hnames.1 l hl, r, ihright hnames.2 r hr, hv⟩
  | compare left ops comparators ihleft ih =>
    intro hnames v hv
    rw [mentions, List.forall_mem_append] at hnames
    simp only [Expr.evaluate, bind_ok_iff] at hv ⊢
    obtain ⟨l, hl, held, hheld, hv⟩ := hv
    exact ⟨l, ihleft hnames.1 l hl, held, chain_extends (extends_all ih hnames.2) hheld, hv⟩
  | other => exact fun _ _ hv => hv

end

/-! ## From the tree to the expression -/

section

variable (host : Host Object) (names : String → Option (Value Object))
  (params : Dict String (Value Object)) (aliases : Dict String String)

/-- What a tree's value tells of the expression's in a position. -/
def Tells : Position → Value Object → Value Object → Prop
  | .truth, w, v => host.truth v = host.truth w
  | .value, w, v => v = w
  | .container, w, v => ∀ item, host.contains item v = host.contains item w

/-- An expression evaluates wherever its tree does, to what the tree tells. -/
def Reflects (position : Position) (e : Expr Object) : Prop :=
  ∀ tree w, compileExpression aliases e = some tree → tree.evaluate host params = .ok w →
    ∃ v, e.evaluate host names = .ok v ∧ Tells host position w v

end

section

variable {host : Host Object} {names : String → Option (Value Object)}
  {params : Dict String (Value Object)} {aliases : Dict String String}

theorem Tells.refl (position : Position) (v : Value Object) : Tells host position v v := by
  cases position with
  | truth => rfl
  | value => rfl
  | container => exact fun _ => rfl

theorem Reflects.of_value {e : Expr Object} (position : Position)
    (h : Reflects host names params aliases .value e) :
    Reflects host names params aliases position e := by
  intro tree w htree hw
  obtain ⟨v, hv, rfl⟩ := h tree w htree hw
  exact ⟨v, hv, .refl position v⟩

theorem items_reflect {items : List (Expr Object)}
    (h : ∀ item ∈ items, Reflects host names params aliases .value item)
    {trees : List (ExpressionTree Object)} {ws : List (Value Object)}
    (htrees : compileAll aliases items = some trees)
    (hws : evaluateTrees host params trees = .ok ws) : evaluateItems host names items = .ok ws := by
  induction items generalizing trees ws with
  | nil =>
    rw [compileAll] at htrees
    obtain rfl := Option.some.inj htrees
    exact hws
  | cons item items ih =>
    rw [List.forall_mem_cons] at h
    obtain ⟨tree, rest, htree, hrest, rfl⟩ := compileAll_cons htrees
    simp only [evaluateTrees, bind_ok_iff] at hws
    obtain ⟨w, hw, ws', hws', hresult⟩ := hws
    obtain ⟨v, hv, rfl⟩ := h.1 tree w htree hw
    simp only [evaluateItems, bind_ok_iff]
    exact ⟨v, hv, ws', ih h.2 hrest hws', hresult⟩

theorem junction_reflects {op : BoolOp} {values : List (Expr Object)}
    (h : ∀ value ∈ values, Reflects host names params aliases .truth value)
    {trees : List (ExpressionTree Object)} {held : Bool}
    (htrees : compileAll aliases values = some trees)
    (hheld : evaluateTreeJunction host params op trees = .ok held) :
    ∃ v, evaluateJunction host names op values = .ok v ∧ host.truth v = held := by
  induction values generalizing trees with
  | nil =>
    rw [compileAll] at htrees
    obtain rfl := Option.some.inj htrees
    rw [evaluateTreeJunction] at hheld
    exact ⟨_, rfl, Except.ok.inj hheld⟩
  | cons value values ih =>
    rw [List.forall_mem_cons] at h
    obtain ⟨tree, rest, htree, hrest, rfl⟩ := compileAll_cons htrees
    rw [evaluateTreeJunction, bind_ok_iff] at hheld
    obtain ⟨w, hw, hheld⟩ := hheld
    obtain ⟨u, hu, htruth⟩ := h.1 tree w htree hw
    change host.truth u = host.truth w at htruth
    simp only [evaluateJunction, bind_ok_iff]
    rcases hgo : op.goesOn (host.truth w) with _ | _
    · rw [hgo, if_neg Bool.false_ne_true] at hheld
      refine ⟨u, ⟨u, hu, ?_⟩, ?_⟩
      · rw [htruth, hgo, Bool.not_false, Bool.or_true, if_pos rfl]
        rfl
      · rw [htruth, ← Except.ok.inj hheld]
        cases op <;> simpa [BoolOp.goesOn] using hgo
    · rw [hgo, if_pos rfl] at hheld
      rcases values with _ | ⟨next, values⟩
      · -- the last operand is returned, and its truth is what a junction of none has
        refine ⟨u, ⟨u, hu, rfl⟩, ?_⟩
        rw [compileAll] at hrest
        obtain rfl := Option.some.inj hrest
        rw [evaluateTreeJunction] at hheld
        rw [htruth, ← Except.ok.inj hheld]
        cases op <;> simpa [BoolOp.goesOn] using hgo
      · obtain ⟨v, hv, hvTruth⟩ := ih h.2 hrest hheld
        refine ⟨v, ⟨u, hu, ?_⟩, hvTruth⟩
        rw [htruth, hgo]
        exact hv

theorem compare_tells {op : CmpOp} {rest : List (Expr Object)} {left v w : Value Object}
    (htells : Tells host (comparatorPosition op rest) w v) :
    host.compare op left v = host.compare op left w := by
  unfold comparatorPosition at htells
  split at htells
  · rename_i hmember
    simp only [Bool.and_eq_true, Bool.or_eq_true, decide_eq_true_eq] at hmember
    rcases hmember.2 with rfl | rfl
    · exact htells left
    · change (host.contains left v).map not = (host.contains left w).map not
      rw [htells left]
  · obtain rfl : v = w := htells
    rfl

theorem chain_reflects {comparators : List (Expr Object)}
    (h : ∀ e ∈ comparators, ∀ position, fits position e = true →
      Reflects host names params aliases position e)
    {ops : List CmpOp} (hfits : fitComparators ops comparators = true)
    {trees : List (ExpressionTree Object)} (htrees : compileAll aliases comparators = some trees)
    {ws : List (Value Object)} (hws : evaluateTrees host params trees = .ok ws)
    {left : Value Object} {held : Bool} (hheld : compareAll host ops (left :: ws) = .ok held) :
    evaluateChain host names left ops comparators = .ok held := by
  induction comparators generalizing ops trees ws left with
  | nil =>
    rw [compileAll] at htrees
    obtain rfl := Option.some.inj htrees
    obtain rfl := Except.ok.inj hws
    rw [compareAll_single] at hheld
    cases ops <;> exact hheld
  | cons comparator comparators ih =>
    rw [List.forall_mem_cons] at h
    obtain ⟨tree, rest, htree, hrest, rfl⟩ := compileAll_cons htrees
    simp only [evaluateTrees, bind_ok_iff] at hws
    obtain ⟨w, hw, ws', hws', hresult⟩ := hws
    obtain rfl := Except.ok.inj hresult
    cases ops with
    | nil => exact hheld
    | cons op ops =>
      rw [fitComparators, Bool.and_eq_true] at hfits
      obtain ⟨v, hv, htells⟩ := h.1 _ hfits.1 tree w htree hw
      simp only [compareAll, bind_ok_iff] at hheld
      obtain ⟨first, hfirst, hheld⟩ := hheld
      simp only [evaluateChain, bind_ok_iff]
      refine ⟨v, hv, first, (compare_tells htells).trans hfirst, ?_⟩
      cases first with
      | false => exact hheld
      | true =>
        rw [if_pos rfl] at hheld ⊢
        rcases comparators with _ | ⟨next, comparators⟩
        · rw [compileAll] at hrest
          obtain rfl := Option.some.inj hrest
          obtain rfl := Except.ok.inj hws'
          rw [compareAll_single] at hheld
          cases ops <;> exact hheld
        · obtain rfl : v = w := htells
          exact ih h.2 hfits.2 hrest hws' hheld

theorem display_reflects {kind : Display} {items : List (Value Object)} {position : Position}
    (hkind : kind ≠ .set) (hposition : kind = .tuple ∨ position ≠ .value) :
    ∃ v, kind.make host items = .ok v ∧ Tells host position (.tuple items) v := by
  cases kind with
  | tuple => exact ⟨_, rfl, .refl position _⟩
  | list =>
    refine ⟨_, rfl, ?_⟩
    cases position with
    | truth => rfl
    | value => exact absurd rfl (hposition.resolve_left fun heq => nomatch heq)
    | container => exact fun _ => rfl
  | set => exact absurd rfl hkind

theorem tree_reflects (hnames : ∀ id target, aliases.get? id = some target →
    names id = params.get? target) (e : Expr Object) (hfree : setFree e = true) :
    ∀ position, fits position e = true → Reflects host names params aliases position e := by
  induction e using Expr.induction with
  | name id =>
    rintro position - tree w htree hw
    rw [compileExpression, Option.map_eq_some_iff] at htree
    obtain ⟨target, htarget, rfl⟩ := htree
    rw [ExpressionTree.evaluate] at hw
    rcases hparam : params.get? target with _ | value
    · rw [hparam] at hw
      cases hw
    · rw [hparam] at hw
      obtain rfl := Except.ok.inj hw
      refine ⟨value, ?_, .refl position value⟩
      rw [Expr.evaluate, hnames id target htarget, hparam]
      rfl
  | constant value =>
    rintro position - tree w htree hw
    rw [compileExpression] at htree
    obtain rfl := Option.some.inj htree
    rw [ExpressionTree.evaluate] at hw
    obtain rfl := Except.ok.inj hw
    exact ⟨value, rfl, .refl position value⟩
  | display kind items ih =>
    rintro position hfits tree w htree hw
    rw [setFree, Bool.and_eq_true, decide_eq_true_eq] at hfree
    rw [compileExpression, Option.map_eq_some_iff] at htree
    obtain ⟨trees, htrees, rfl⟩ := htree
    rw [ExpressionTree.evaluate, bind_ok_iff] at hw
    obtain ⟨ws, hws, hw⟩ := hw
    obtain rfl := Except.ok.inj hw
    have hposition : (kind = .tuple ∨ position ≠ .value) ∧ fitAll .value items = true := by
      cases kind with
      | tuple =>
        rw [fits] at hfits
        exact ⟨.inl rfl, hfits⟩
      | list =>
        simp only [fits, Bool.and_eq_true, decide_eq_true_eq] at hfits
        exact ⟨.inr hfits.1, hfits.2⟩
      | set => exact absurd rfl hfree.1
    have hvs := items_reflect (fun item hmem => ih item hmem
      (allSetFree_iff.1 hfree.2 item hmem) .value (fitAll_iff.1 hposition.2 item hmem)) htrees hws
    obtain ⟨v, hv, htells⟩ := @display_reflects _ host kind ws position hfree.1 hposition.1
    refine ⟨v, ?_, htells⟩
    rw [Expr.evaluate, hvs]
    exact hv
  | boolOp op values ih =>
    rintro position hfits tree w htree hw
    rw [setFree, allSetFree_iff] at hfree
    rw [compileExpression, Option.map_eq_some_iff] at htree
    obtain ⟨trees, htrees, rfl⟩ := htree
    rw [ExpressionTree.evaluate, bind_ok_iff] at hw
    obtain ⟨held, hheld, hw⟩ := hw
    obtain rfl := Except.ok.inj hw
    by_cases hposition : position = .truth
    · subst hposition
      rw [fits] at hfits
      obtain ⟨v, hv, htruth⟩ := junction_reflects (fun value hmem => ih value hmem
        (hfree value hmem) .truth (fitAll_iff.1 hfits value hmem)) htrees hheld
      exact ⟨v, by rw [Expr.evaluate]; exact hv, htruth⟩
    · have hfits' : areBoolean values = true ∧ fitAll .value values = true := by
        cases position with
        | truth => exact absurd rfl hposition
        | value => simpa only [fits, Bool.and_eq_true] using hfits
        | container => simpa only [fits, Bool.and_eq_true] using hfits
      obtain ⟨v, hv, htruth⟩ := junction_reflects (fun value hmem => (ih value hmem
        (hfree value hmem) .value (fitAll_iff.1 hfits'.2 value hmem)).of_value .truth) htrees hheld
      obtain ⟨b, rfl⟩ := junction_boolean (fun value hmem v hv => evaluate_boolean value
        (areBoolean_iff.1 hfits'.1 value hmem) v hv) hv
      obtain rfl : b = held := htruth
      exact ⟨.bool b, by rw [Expr.evaluate]; exact hv, .refl position _⟩
  | unaryOp op operand ih =>
    rintro position hfits tree w htree hw
    rw [setFree] at hfree
    cases op with
    | not =>
      rw [compileExpression, Option.map_eq_some_iff] at htree
      obtain ⟨tree, htree, rfl⟩ := htree
      rw [fits] at hfits
      rw [ExpressionTree.evaluate, bind_ok_iff] at hw
      obtain ⟨u, hu, hw⟩ := hw
      obtain rfl := Except.ok.inj hw
      obtain ⟨v, hv, htruth⟩ := ih hfree .truth hfits tree u htree hu
      refine ⟨_, ?_, .refl position _⟩
      rw [Expr.evaluate, hv]
      change Except.ok (Value.bool (!host.truth v)) = _
      rw [htruth]
    | invert => cases htree
    | uAdd | uSub =>
      rw [compileExpression, Option.map_eq_some_iff] at htree
      · obtain ⟨tree, htree, rfl⟩ := htree
        rw [fits] at hfits
        · rw [ExpressionTree.evaluate, bind_ok_iff] at hw
          obtain ⟨u, hu, hw⟩ := hw
          obtain ⟨v, hv, rfl⟩ := ih hfree .value hfits tree u htree hu
          refine ⟨w, ?_, .refl position w⟩
          rw [Expr.evaluate, hv]
          · exact hw
          · intro h
            cases h
        · intro h
          cases h
      · intro h
        cases h
      · intro h
        cases h
  | binOp op left right ihleft ihright =>
    rintro position hfits tree w htree hw
    rw [setFree, Bool.and_eq_true] at hfree
    rw [fits, Bool.and_eq_true] at hfits
    rw [compileExpression] at htree
    split at htree
    · rename_i leftTree rightTree hleft hright
      split at htree
      · obtain rfl := Option.some.inj htree
        simp only [ExpressionTree.evaluate, bind_ok_iff] at hw
        obtain ⟨l, hl, r, hr, hw⟩ := hw
        obtain ⟨_, hl', rfl⟩ := ihleft hfree.1 .value hfits.1 leftTree l hleft hl
        obtain ⟨_, hr', rfl⟩ := ihright hfree.2 .value hfits.2 rightTree r hright hr
        refine ⟨w, ?_, .refl position w⟩
        simp only [Expr.evaluate, bind_ok_iff]
        exact ⟨_, hl', _, hr', hw⟩
      · cases htree
    · cases htree
  | compare left ops comparators ihleft ih =>
    rintro position hfits tree w htree hw
    rw [setFree, Bool.and_eq_true] at hfree
    rw [fits, Bool.and_eq_true] at hfits
    rw [compileExpression] at htree
    split at htree
    · rename_i leftTree trees hleft htrees
      split at htree
      · obtain rfl := Option.some.inj htree
        simp only [ExpressionTree.evaluate, evaluateTrees, bind_ok_iff] at hw
        obtain ⟨vs, ⟨l, hl, ws, hws, hvs⟩, held, hheld, hw⟩ := hw
        obtain rfl := Except.ok.inj hvs
        obtain rfl := Except.ok.inj hw
        obtain ⟨_, hl', rfl⟩ := ihleft hfree.1 .value hfits.1 leftTree l hleft hl
        have hchain := chain_reflects (fun e hmem => ih e hmem
          (allSetFree_iff.1 hfree.2 e hmem)) hfits.2 htrees hws hheld
        refine ⟨.bool held, ?_, .refl position _⟩
        simp only [Expr.evaluate, bind_ok_iff]
        exact ⟨_, hl', held, hchain, rfl⟩
      · cases htree
    · cases htree
  | other =>
    intro _ _ _ _ htree
    cases htree

end

end QuantDinger.Analysis.GuardTests
