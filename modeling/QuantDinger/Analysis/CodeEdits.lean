import Mathlib.Data.List.Perm.Basic
import Mathlib.Data.Set.List
import QuantDinger.Model.CodeEdits

/-!
# The proposed edits are made at once and exactly

`resolveOperations_eq_ok_iff` says which operations resolve and to what. From it
`applyModelCodeEdits_eq_ok_iff` describes every successful call by the edits in the order of the
source, in a form in which the order of the operations does not occur; the pieces between the edits
(`exists_pieces`) then say what the candidate is.
-/

namespace QuantDinger.Analysis

open QuantDinger.Library QuantDinger.Model

/-! ## What the operations ask -/

/-- An operation with both of its texts. -/
structure CodeOperation where
  oldText : List Char
  newText : List Char
  deriving DecidableEq

def CodeOperation.raw (operation : CodeOperation) : RawOperation :=
  .mapping (some operation.oldText) (some operation.newText)

/-- No occurrence of one anchor shares a character with one of the other. -/
def Apart (source : List Char) (operation other : CodeOperation) : Prop :=
  ∀ position position', OccursAt source operation.oldText position →
    OccursAt source other.oldText position' →
      position + operation.oldText.length ≤ position' ∨
        position' + other.oldText.length ≤ position

/-- What the operations must satisfy to be applied. -/
structure Applicable (source : List Char) (operations : List CodeOperation) : Prop where
  count : 1 ≤ operations.length ∧ operations.length ≤ 64
  anchors : ∀ operation ∈ operations, operation.oldText ≠ [] ∧
    operation.oldText ≠ operation.newText ∧ ∃! position, OccursAt source operation.oldText position
  apart : operations.Pairwise (Apart source)

def operationOf (edit : Edit Char) : CodeOperation := ⟨edit.old, edit.new⟩

/-- An edit of a part that occurs where it starts and nowhere else. -/
structure Anchored (source : List Char) (edit : Edit Char) : Prop where
  nonempty : edit.old ≠ []
  differs : edit.old ≠ edit.new
  once : ∀ position, OccursAt source edit.old position ↔ position = edit.start

theorem Anchored.occursAt {source : List Char} {edit : Edit Char} (h : Anchored source edit) :
    OccursAt source edit.old edit.start :=
  (h.once _).2 rfl

theorem Anchored.start_lt {source : List Char} {edit : Edit Char} (h : Anchored source edit) :
    edit.start < edit.stop :=
  Nat.lt_add_of_pos_right (List.length_pos_of_ne_nil h.nonempty)

/-! ## Resolving -/

theorem resolveOperation_eq_ok_iff {source : List Char} {item : RawOperation} {index : ℕ}
    {edit : Edit Char} : resolveOperation source item index = .ok edit ↔
      item = (operationOf edit).raw ∧ Anchored source edit := by
  obtain ⟨start, old, new⟩ := edit
  constructor
  · intro h
    unfold resolveOperation at h
    rcases item with - | ⟨_ | (_ | ⟨head, tail⟩), _ | newText⟩
    -- only a mapping with a string that is not empty and a second string is left
    iterate 6 cases h
    dsimp only at h
    split_ifs at h with hnoop
    rcases hfirst : findFrom source (head :: tail) 0 with _ | first
    · rw [hfirst] at h
      exact nomatch h
    rcases hagain : findFrom source (head :: tail) (first + 1) with _ | again
    · simp only [hfirst, hagain, Option.isSome_none, Bool.false_eq_true, if_false, Except.ok.injEq,
        Edit.mk.injEq] at h
      obtain ⟨rfl, rfl, rfl⟩ := h
      exact ⟨rfl, List.cons_ne_nil _ _, hnoop, occursAt_iff_of_find hfirst hagain⟩
    · simp only [hfirst, hagain, Option.isSome_some, if_true] at h
      exact nomatch h
  · rintro ⟨rfl, hnonempty, hdiffers, honce⟩
    obtain ⟨hfirst, hagain⟩ := find_of_occursAt_iff honce
    cases old with
    | nil => exact absurd rfl hnonempty
    | cons head tail =>
      dsimp only [operationOf] at hdiffers hfirst hagain
      unfold resolveOperation CodeOperation.raw operationOf
      dsimp only
      rw [if_neg hdiffers, hfirst]
      dsimp only
      rw [hagain]
      rfl

theorem resolveOperations_eq_ok_iff {source : List Char} {operations : List RawOperation}
    {index : ℕ} {edits : List (Edit Char)} :
    resolveOperations source index operations = .ok edits ↔
      operations = edits.map (fun edit => (operationOf edit).raw) ∧
        ∀ edit ∈ edits, Anchored source edit := by
  induction operations generalizing index edits with
  | nil =>
    rw [resolveOperations, Except.ok.injEq]
    constructor
    · rintro rfl
      exact ⟨rfl, fun _ h => (nomatch h)⟩
    · rintro ⟨h, -⟩
      exact (List.map_eq_nil_iff.1 h.symm).symm
  | cons item operations ih =>
    rw [resolveOperations]
    constructor
    · intro h
      rcases hitem : resolveOperation source item index with _ | edit
      · rw [hitem] at h
        exact nomatch h
      rcases hrest : resolveOperations source (index + 1) operations with _ | rest
      · rw [hitem] at h
        dsimp only [bind, Except.bind] at h
        rw [hrest] at h
        exact nomatch h
      rw [hitem] at h
      dsimp only [bind, Except.bind] at h
      rw [hrest] at h
      obtain rfl := Except.ok.inj h
      obtain ⟨rfl, hanchored⟩ := resolveOperation_eq_ok_iff.1 hitem
      obtain ⟨rfl, hall⟩ := ih.1 hrest
      exact ⟨rfl, List.forall_mem_cons.2 ⟨hanchored, hall⟩⟩
    · rintro ⟨h, hall⟩
      cases edits with
      | nil => exact nomatch h
      | cons edit edits =>
        obtain ⟨rfl, hrest⟩ := List.cons.inj h
        rw [List.forall_mem_cons] at hall
        have hhead := (@resolveOperation_eq_ok_iff source _ index edit).2 ⟨rfl, hall.1⟩
        have htail := (@ih (index + 1) edits).2 ⟨hrest, hall.2⟩
        rw [hhead, htail]
        rfl

/-! ## Edits in the order of the source -/

theorem editsOverlap_eq_false_iff {edits : List (Edit Char)} :
    editsOverlap edits = false ↔ EditsInOrder edits := by
  unfold editsOverlap EditsInOrder
  induction edits with
  | nil => exact ⟨fun _ => List.isChain_nil, fun _ => rfl⟩
  | cons edit edits ih =>
    cases edits with
    | nil => exact ⟨fun _ => List.isChain_singleton _, fun _ => rfl⟩
    | cons next edits =>
      rw [List.isChain_cons_cons, ← ih, List.tail_cons, List.zip_cons_cons, List.any_cons,
        Bool.or_eq_false_iff, decide_eq_false_iff_not, not_lt]
      rfl

theorem pairwise_of_editsInOrder {source : List Char} {edits : List (Edit Char)}
    (horder : EditsInOrder edits)
    (hanchored : ∀ edit ∈ edits, Anchored source edit) :
    edits.Pairwise fun edit later => edit.stop ≤ later.start := by
  induction edits with
  | nil => exact List.Pairwise.nil
  | cons edit edits ih =>
    rw [List.forall_mem_cons] at hanchored
    have hrest := ih (List.IsChain.tail horder) hanchored.2
    refine List.Pairwise.cons (fun later hlater => ?_) hrest
    cases edits with
    | nil => exact nomatch hlater
    | cons next edits =>
      have hnext : edit.stop ≤ next.start := (List.isChain_cons_cons.1 horder).1
      rcases List.mem_cons.1 hlater with rfl | hlater
      · exact hnext
      · have hlater := (List.pairwise_cons.1 hrest).1 later hlater
        have hlt := (hanchored.2 next List.mem_cons_self).start_lt
        omega

theorem orderedEdits_eq {source : List Char} {edits resolved : List (Edit Char)}
    (horder : EditsInOrder edits) (hanchored : ∀ edit ∈ edits, Anchored source edit)
    (hperm : resolved.Perm edits) : orderedEdits resolved = edits := by
  have hpairwise := pairwise_of_editsInOrder horder hanchored
  have hsorted : edits.Pairwise fun edit later => edit.start < later.start :=
    hpairwise.imp_of_mem fun hedit _ hstop => ((hanchored _ hedit).start_lt).trans_le hstop
  have hnodup : (edits.map Edit.start).Nodup :=
    List.pairwise_map.2 (hsorted.imp fun hlt => ne_of_lt hlt)
  have hordered : (orderedEdits resolved).Pairwise fun edit other => edit.start ≤ other.start :=
    List.pairwise_insertionSort _ _
  have hsame : (orderedEdits resolved).Perm edits := (List.perm_insertionSort _ _).trans hperm
  refine List.Perm.eq_of_pairwise ?_ hordered (hsorted.imp le_of_lt) hsame
  intro edit other hedit hother hle hge
  exact List.inj_on_of_nodup_map hnodup (hsame.mem_iff.1 hedit) hother (le_antisymm hle hge)

theorem editsInOrder_orderedEdits {source : List Char} {resolved : List (Edit Char)}
    (hanchored : ∀ edit ∈ resolved, Anchored source edit)
    (hapart : resolved.Pairwise fun edit other =>
      edit.stop ≤ other.start ∨ other.stop ≤ edit.start) :
    EditsInOrder (orderedEdits resolved) := by
  have hsorted := List.pairwise_insertionSort
    (fun edit other : Edit Char => edit.start ≤ other.start) resolved
  have hperm := List.perm_insertionSort
    (fun edit other : Edit Char => edit.start ≤ other.start) resolved
  have hapart := (hperm.pairwise_iff fun {_ _} h => h.symm).2 hapart
  have hstop := (hsorted.and hapart).imp_of_mem fun {edit other} _ hother hboth => by
    -- the other edit ends after it starts, so it does not end before this one
    have hlt := (hanchored other (hperm.mem_iff.1 hother)).start_lt
    rcases hboth.2 with hstop | hstop
    · exact hstop
    · exact absurd (hstop.trans hboth.1) (not_le.2 hlt)
  exact hstop.isChain

theorem applyModelCodeEdits_eq_ok_iff {source : List Char} {raw : List RawOperation}
    {result : List Char × EditReport} :
    applyModelCodeEdits source (some raw) = .ok result ↔
      (1 ≤ raw.length ∧ raw.length ≤ 64) ∧
        ∃ edits, raw.Perm (edits.map fun edit => (operationOf edit).raw) ∧
          (∀ edit ∈ edits, Anchored source edit) ∧ EditsInOrder edits ∧
            result = (applyAll source edits, editReport source edits) := by
  have hcount : ¬ (raw = [] ∨ 64 < raw.length) ↔ 1 ≤ raw.length ∧ raw.length ≤ 64 := by
    rw [not_or, not_lt, Nat.succ_le_iff, List.length_pos_iff]
  unfold applyModelCodeEdits
  dsimp only
  constructor
  · intro h
    by_cases hbad : raw = [] ∨ 64 < raw.length
    · rw [if_pos hbad] at h
      cases h
    rw [if_neg hbad] at h
    rcases hresolved : resolveOperations source 0 raw with _ | resolved
    · rw [hresolved] at h
      cases h
    rw [hresolved] at h
    dsimp only [bind, Except.bind] at h
    rcases hoverlap : editsOverlap (orderedEdits resolved) with _ | _
    · rw [hoverlap, if_neg Bool.false_ne_true] at h
      obtain ⟨hraw, hanchored⟩ := resolveOperations_eq_ok_iff.1 hresolved
      have hperm : (orderedEdits resolved).Perm resolved := List.perm_insertionSort _ _
      refine ⟨hcount.1 hbad, orderedEdits resolved, ?_, ?_, editsOverlap_eq_false_iff.1 hoverlap,
        (Except.ok.inj h).symm⟩
      · rw [hraw]
        exact hperm.symm.map _
      · exact fun edit hedit => hanchored edit (hperm.mem_iff.1 hedit)
    · rw [hoverlap, if_pos rfl] at h
      cases h
  · rintro ⟨hlength, edits, hraw, hanchored, horder, rfl⟩
    obtain ⟨resolved, rfl, hperm⟩ : ∃ resolved : List (Edit Char),
        raw = resolved.map (fun edit => (operationOf edit).raw) ∧ resolved.Perm edits := by
      have hcomp := congrFun (congrFun
        (List.eq_map_comp_perm fun edit : Edit Char => (operationOf edit).raw) raw) edits
      obtain ⟨resolved, hresolved⟩ := hcomp.mpr hraw
      exact ⟨resolved, hresolved⟩
    have hall : ∀ edit ∈ resolved, Anchored source edit := fun edit hedit =>
      hanchored edit (hperm.mem_iff.1 hedit)
    have hresolved := (@resolveOperations_eq_ok_iff source _ 0 resolved).2 ⟨rfl, hall⟩
    rw [if_neg (hcount.2 hlength), hresolved]
    dsimp only [bind, Except.bind]
    rw [orderedEdits_eq horder hanchored hperm, editsOverlap_eq_false_iff.2 horder,
      if_neg Bool.false_ne_true]

/-! ## Lines -/

/-- A position is on a line: before it there are the lines above, each with its line break, and a
part of the line. -/
def OnLine (text : List Char) (position line : ℕ) : Prop :=
  ∃ (above : List (List Char)) (here : List Char), (∀ row ∈ above, '\n' ∉ row) ∧ '\n' ∉ here ∧
    text.take position = above.flatMap (· ++ ['\n']) ++ here ∧ line = above.length + 1

theorem count_above {above : List (List Char)} (h : ∀ row ∈ above, '\n' ∉ row) :
    (above.flatMap (· ++ ['\n'])).count '\n' = above.length := by
  induction above with
  | nil => rfl
  | cons row above ih =>
    rw [List.forall_mem_cons] at h
    rw [List.flatMap_cons, List.count_append, List.count_append, ih h.2,
      List.count_eq_zero_of_not_mem h.1, List.count_singleton_self, List.length_cons]
    omega

theorem exists_above (text : List Char) : ∃ (above : List (List Char)) (here : List Char),
    (∀ row ∈ above, '\n' ∉ row) ∧ '\n' ∉ here ∧ text = above.flatMap (· ++ ['\n']) ++ here := by
  induction text with
  | nil => exact ⟨[], [], fun _ h => (nomatch h), List.not_mem_nil, rfl⟩
  | cons head text ih =>
    obtain ⟨above, here, habove, hhere, rfl⟩ := ih
    by_cases hbreak : head = '\n'
    · subst hbreak
      exact ⟨[] :: above, here, List.forall_mem_cons.2 ⟨List.not_mem_nil, habove⟩, hhere, rfl⟩
    cases above with
    | nil =>
      refine ⟨[], head :: here, habove, ?_, rfl⟩
      exact List.not_mem_cons_of_ne_of_not_mem (fun h => hbreak h.symm) hhere
    | cons row above =>
      rw [List.forall_mem_cons] at habove
      refine ⟨(head :: row) :: above, here, List.forall_mem_cons.2 ⟨?_, habove.2⟩, hhere, rfl⟩
      exact List.not_mem_cons_of_ne_of_not_mem (fun h => hbreak h.symm) habove.1

theorem onLine_iff {text : List Char} {position line : ℕ} :
    OnLine text position line ↔ line = lineAt text position := by
  have hcount : ∀ {above : List (List Char)} {here}, (∀ row ∈ above, '\n' ∉ row) →
      '\n' ∉ here → text.take position = above.flatMap (· ++ ['\n']) ++ here →
        lineAt text position = above.length + 1 := by
    intro above here habove hhere htext
    rw [lineAt, htext, List.count_append, count_above habove,
      List.count_eq_zero_of_not_mem hhere, Nat.add_zero]
  constructor
  · rintro ⟨above, here, habove, hhere, htext, rfl⟩
    exact (hcount habove hhere htext).symm
  · rintro rfl
    obtain ⟨above, here, habove, hhere, htext⟩ := exists_above (text.take position)
    exact ⟨above, here, habove, hhere, htext, hcount habove hhere htext⟩

/-! ## The edits -/

theorem exists_anchored {source : List Char} {operations : List CodeOperation}
    (h : ∀ operation ∈ operations, operation.oldText ≠ [] ∧
      operation.oldText ≠ operation.newText ∧
        ∃! position, OccursAt source operation.oldText position) :
    ∃ resolved : List (Edit Char), resolved.map operationOf = operations ∧
      ∀ edit ∈ resolved, Anchored source edit := by
  induction operations with
  | nil => exact ⟨[], rfl, fun _ h => (nomatch h)⟩
  | cons operation operations ih =>
    rw [List.forall_mem_cons] at h
    obtain ⟨hnonempty, hdiffers, position, hoccurs, honly⟩ := h.1
    obtain ⟨resolved, hmap, hanchored⟩ := ih h.2
    refine ⟨⟨position, operation.oldText, operation.newText⟩ :: resolved, ?_, ?_⟩
    · rw [List.map_cons, hmap]
      rfl
    · refine List.forall_mem_cons.2 ⟨⟨hnonempty, hdiffers, fun other => ?_⟩, hanchored⟩
      exact ⟨honly other, fun h => h ▸ hoccurs⟩

theorem applicable_iff {source : List Char} {raw : List RawOperation} :
    (∃ operations, raw = operations.map CodeOperation.raw ∧ Applicable source operations) ↔
      (1 ≤ raw.length ∧ raw.length ≤ 64) ∧
        ∃ edits, raw.Perm (edits.map fun edit => (operationOf edit).raw) ∧
          (∀ edit ∈ edits, Anchored source edit) ∧ EditsInOrder edits := by
  constructor
  · rintro ⟨operations, rfl, hcount, hanchors, hapart⟩
    obtain ⟨resolved, hmap, hanchored⟩ := exists_anchored hanchors
    subst hmap
    have hkept : resolved.Pairwise fun edit other =>
        edit.stop ≤ other.start ∨ other.stop ≤ edit.start :=
      (List.pairwise_map.1 hapart).imp_of_mem fun {edit other} hedit hother h =>
        h _ _ (hanchored edit hedit).occursAt (hanchored other hother).occursAt
    have hperm : (orderedEdits resolved).Perm resolved := List.perm_insertionSort _ _
    rw [List.length_map]
    refine ⟨hcount, orderedEdits resolved, ?_, ?_, editsInOrder_orderedEdits hanchored hkept⟩
    · rw [List.map_map]
      exact hperm.symm.map _
    · exact fun edit hedit => hanchored edit (hperm.mem_iff.1 hedit)
  · rintro ⟨hlength, edits, hraw, hanchored, horder⟩
    obtain ⟨operations, rfl, hperm⟩ : ∃ operations : List CodeOperation,
        raw = operations.map CodeOperation.raw ∧ operations.Perm (edits.map operationOf) := by
      have hcomp := congrFun (congrFun (List.eq_map_comp_perm CodeOperation.raw) raw)
        (edits.map operationOf)
      rw [List.map_map] at hcomp
      obtain ⟨operations, hoperations⟩ := hcomp.mpr hraw
      exact ⟨operations, hoperations⟩
    rw [List.length_map] at hlength
    refine ⟨operations, rfl, hlength, fun operation hmem => ?_, ?_⟩
    · obtain ⟨edit, hedit, rfl⟩ := List.mem_map.1 (hperm.mem_iff.1 hmem)
      have h := hanchored edit hedit
      exact ⟨h.nonempty, h.differs, edit.start, h.occursAt, fun other => (h.once other).1⟩
    · have hsymm : ∀ {operation other}, Apart source operation other →
          Apart source other operation :=
        fun h position position' hposition hposition' =>
          (h position' position hposition' hposition).symm
      refine (hperm.pairwise_iff hsymm).2 (List.pairwise_map.2 ?_)
      refine (pairwise_of_editsInOrder horder hanchored).imp_of_mem ?_
      intro edit later hedit hlater hstop position position' hposition hposition'
      obtain rfl := ((hanchored edit hedit).once position).1 hposition
      obtain rfl := ((hanchored later hlater).once position').1 hposition'
      exact Or.inl hstop

/-- The edits succeed exactly when the operations can all be applied. The candidate is then the
source with the new text of each operation at the one place of its old text, between the same
gaps; the order of the operations does not matter; the new texts stand at the shifted positions and
putting the old ones back gives the source; and every edit is reported with the lines of its first
character and of the position behind it. -/
theorem edits_exact (source : List Char) (raw : List RawOperation) :
    ((∃ result, applyModelCodeEdits source (some raw) = .ok result) ↔
        ∃ operations, raw = operations.map CodeOperation.raw ∧ Applicable source operations) ∧
      ∀ candidate report, applyModelCodeEdits source (some raw) = .ok (candidate, report) →
        (∀ other : List RawOperation, other.Perm raw →
          applyModelCodeEdits source (some other) = .ok (candidate, report)) ∧
        ∃ first pieces edits, edits = pieceEdits first.length pieces ∧
          raw.Perm (edits.map fun edit => (operationOf edit).raw) ∧
          (∀ edit ∈ edits, ∀ position,
            OccursAt source edit.old position ↔ position = edit.start) ∧
          source = assemble Piece.old first pieces ∧
          candidate = assemble Piece.new first pieces ∧
          (∀ back ∈ backEdits 0 edits, OccursAt candidate back.old back.start) ∧
          applyAll candidate (backEdits 0 edits) = source ∧
          report.operationCount = raw.length ∧
          List.Forall₂ (fun edit shown => shown.oldText = edit.old ∧ shown.newText = edit.new ∧
            OnLine source edit.start shown.startLine ∧ OnLine source edit.stop shown.endLine)
              edits report.operations := by
  constructor
  · rw [applicable_iff]
    constructor
    · rintro ⟨result, hresult⟩
      obtain ⟨hlength, edits, hraw, hanchored, horder, -⟩ :=
        applyModelCodeEdits_eq_ok_iff.1 hresult
      exact ⟨hlength, edits, hraw, hanchored, horder⟩
    · rintro ⟨hlength, edits, hraw, hanchored, horder⟩
      exact ⟨_, applyModelCodeEdits_eq_ok_iff.2 ⟨hlength, edits, hraw, hanchored, horder, rfl⟩⟩
  intro candidate report hresult
  obtain ⟨hlength, edits, hraw, hanchored, horder, hpair⟩ := applyModelCodeEdits_eq_ok_iff.1 hresult
  obtain ⟨rfl, rfl⟩ := Prod.mk.inj hpair
  constructor
  · intro other hother
    rw [applyModelCodeEdits_eq_ok_iff, hother.length_eq]
    exact ⟨hlength, edits, hother.trans hraw, hanchored, horder, rfl⟩
  obtain ⟨first, pieces, hsource, hedits⟩ :=
    exists_pieces (fun edit hedit => (hanchored edit hedit).occursAt) horder
  have hcandidate : applyAll source edits = assemble Piece.new first pieces := by
    rw [← hsource, ← hedits, applyAll_pieces]
  obtain ⟨hstand, hrestore⟩ := applyAll_back first pieces
  rw [hedits, ← hcandidate] at hstand hrestore
  refine ⟨first, pieces, edits, hedits.symm, hraw, fun edit hedit => (hanchored edit hedit).once,
    hsource.symm, hcandidate, hstand, hrestore.trans hsource, ?_, ?_⟩
  · have hcount := hraw.length_eq
    rw [List.length_map] at hcount
    rw [hcount]
    exact List.length_map _
  · refine List.forall₂_map_right_iff.2 (List.forall₂_same.2 fun edit _ => ?_)
    exact ⟨rfl, rfl, onLine_iff.2 rfl, onLine_iff.2 rfl⟩

/-- Adjacent edits given out of order: each new text stands where its old one stood. -/
example : applyModelCodeEdits ['a', 'b', '\n', 'c'] (some
    [.mapping (some ['b', '\n']) (some ['x', 'y', 'z']), .mapping (some ['a']) (some [])]) =
      .ok (['x', 'y', 'z', 'c'], {
        executor := "model_patch"
        operation := "exact_replacements"
        operationCount := 2
        operations := [⟨['a'], [], 1, 1⟩, ⟨['b', '\n'], ['x', 'y', 'z'], 1, 2⟩] }) := by
  decide +kernel

end QuantDinger.Analysis
