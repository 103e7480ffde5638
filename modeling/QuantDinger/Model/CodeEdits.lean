import Mathlib.Data.List.Sort
import QuantDinger.Library.Edits

/-!
# Structured source edits

`ai_code_edits.py`: the exact replacements a model proposes for a source text. A text is the list
of its characters. An operation that is not a mapping is `notMapping`; a field that is missing or
not a string is `none`.
-/

namespace QuantDinger.Model

open QuantDinger.Library

/-- An item of the `operations` list. -/
inductive RawOperation
  | notMapping
  | mapping (oldText newText : Option (List Char))
  deriving DecidableEq

/-- `CodeEditError` by its text. -/
inductive CodeEditError
  | invalidEditOperations
  | invalidEditOperation (index : ℕ)
  | emptyEditAnchor (index : ℕ)
  | invalidEditReplacement (index : ℕ)
  | noOpEdit (index : ℕ)
  | editAnchorNotFound (index : ℕ)
  | editAnchorAmbiguous (index : ℕ)
  | overlappingEditOperations
  deriving DecidableEq

def CodeEditError.text : CodeEditError → String
  | .invalidEditOperations => "invalid_edit_operations"
  | .invalidEditOperation index => "invalid_edit_operation:" ++ toString index
  | .emptyEditAnchor index => "empty_edit_anchor:" ++ toString index
  | .invalidEditReplacement index => "invalid_edit_replacement:" ++ toString index
  | .noOpEdit index => "no_op_edit:" ++ toString index
  | .editAnchorNotFound index => "edit_anchor_not_found:" ++ toString index
  | .editAnchorAmbiguous index => "edit_anchor_ambiguous:" ++ toString index
  | .overlappingEditOperations => "overlapping_edit_operations"

/-- An item of the public `operations`. -/
structure PublicOperation where
  oldText : List Char
  newText : List Char
  startLine : ℕ
  endLine : ℕ
  deriving DecidableEq

/-- The report beside the candidate. -/
structure EditReport where
  executor : String
  operation : String
  operationCount : ℕ
  operations : List PublicOperation
  deriving DecidableEq

/-- The body of the loop over the operations: where an operation's anchor stands.
SOURCE: ai_code_edits.py:65-87 -/
def resolveOperation (base : List Char) (item : RawOperation) (index : ℕ) :
    Except CodeEditError (Edit Char) :=
  match item with
  | .notMapping => .error (.invalidEditOperation index)
  | .mapping oldText newText =>
    match oldText with
    | none | some [] => .error (.emptyEditAnchor index)
    | some (head :: tail) =>
      match newText with
      | none => .error (.invalidEditReplacement index)
      | some newText =>
        if head :: tail = newText then .error (.noOpEdit index)
        else
          match findFrom base (head :: tail) 0 with
          | none => .error (.editAnchorNotFound index)
          | some first =>
            if (findFrom base (head :: tail) (first + 1)).isSome then
              .error (.editAnchorAmbiguous index)
            else .ok ⟨first, head :: tail, newText⟩

/-- The loop over the operations.
SOURCE: ai_code_edits.py:64-87 -/
def resolveOperations (base : List Char) :
    ℕ → List RawOperation → Except CodeEditError (List (Edit Char))
  | _, [] => .ok []
  | index, item :: operations => do
    let edit ← resolveOperation base item index
    let edits ← resolveOperations base (index + 1) operations
    return edit :: edits

/-- The edits by the start of their anchors.
SOURCE: ai_code_edits.py:89 -/
def orderedEdits (resolved : List (Edit Char)) : List (Edit Char) :=
  resolved.insertionSort fun edit other => edit.start ≤ other.start

/-- Whether an edit starts before the one before it ends.
SOURCE: ai_code_edits.py:90-92 -/
def editsOverlap (ordered : List (Edit Char)) : Bool :=
  (ordered.zip ordered.tail).any fun pair => pair.2.start < pair.1.stop

/-- `base.count("\n", 0, position) + 1`. -/
def lineAt (base : List Char) (position : ℕ) : ℕ := (base.take position).count '\n' + 1

/-- An edit as it is reported.
SOURCE: ai_code_edits.py:100-106 -/
def publicOperation (base : List Char) (edit : Edit Char) : PublicOperation where
  oldText := edit.old
  newText := edit.new
  startLine := lineAt base edit.start
  endLine := lineAt base edit.stop

/-- The report of the edits.
SOURCE: ai_code_edits.py:100-113 -/
def editReport (base : List Char) (ordered : List (Edit Char)) : EditReport :=
  let publicOperations := ordered.map (publicOperation base)
  { executor := "model_patch"
    operation := "exact_replacements"
    operationCount := publicOperations.length
    operations := publicOperations }

/-- `apply_model_code_edits` on a parsed payload, `operations` `none` where it is not a list: the
candidate and the report.
SOURCE: ai_code_edits.py:56-113 -/
def applyModelCodeEdits (source : List Char) (operations : Option (List RawOperation)) :
    Except CodeEditError (List Char × EditReport) :=
  match operations with
  | none => .error .invalidEditOperations
  | some operations =>
    if operations = [] ∨ 64 < operations.length then .error .invalidEditOperations
    else do
      let resolved ← resolveOperations source 0 operations
      let ordered := orderedEdits resolved
      if editsOverlap ordered then .error .overlappingEditOperations
      else .ok (applyAll source ordered, editReport source ordered)

end QuantDinger.Model
