import Mathlib.Data.List.Basic
import Mathlib.Data.List.Chain
import Mathlib.Algebra.Order.Ring.Int
import Mathlib.Tactic.Linarith

/-!
# Edits of a text

An edit puts a new part in the place of an old one at a position of a text. Edits in order that do
not overlap cut the text into the old parts and the gaps between them (`exists_pieces`); made from
the right, each at its position in the text as it was, they put the new parts between the same
gaps (`applyAll_pieces`), and so do the edits back at the shifted positions (`applyAll_back`).
-/

namespace QuantDinger.Library

variable {α : Type}

/-! ## Occurrences -/

/-- A part occurs in a text at a position. -/
def OccursAt (text part : List α) (position : ℕ) : Prop :=
  position ≤ text.length ∧ part <+: text.drop position

theorem OccursAt.drop_eq {text part : List α} {position : ℕ} (h : OccursAt text part position) :
    text.drop position = part ++ text.drop (position + part.length) := by
  obtain ⟨rest, hrest⟩ := h.2
  rw [← List.drop_drop, ← hrest, List.drop_left]

theorem OccursAt.add_length_le {text part : List α} {position : ℕ}
    (h : OccursAt text part position) : position + part.length ≤ text.length := by
  have hlength := h.2.length_le
  rw [List.length_drop] at hlength
  have hle := h.1
  omega

section

variable [DecidableEq α]

/-- The first position from `start` on at which a part occurs. -/
def findFrom (text part : List α) (start : ℕ) : Option ℕ :=
  (List.range (text.length + 1)).find? fun position =>
    decide (start ≤ position ∧ part <+: text.drop position)

theorem findFrom_eq_none_iff {text part : List α} {start : ℕ} :
    findFrom text part start = none ↔
      ∀ position, OccursAt text part position → position < start := by
  unfold findFrom
  rw [List.find?_eq_none]
  constructor
  · intro h position hoccurs
    by_contra hge
    refine h position (List.mem_range.2 (Nat.lt_succ_of_le hoccurs.1)) ?_
    exact decide_eq_true ⟨not_lt.1 hge, hoccurs.2⟩
  · intro h position hmem hfound
    obtain ⟨hge, hprefix⟩ := of_decide_eq_true hfound
    have hlt := h position ⟨Nat.le_of_lt_succ (List.mem_range.1 hmem), hprefix⟩
    omega

theorem findFrom_eq_some {text part : List α} {start position : ℕ}
    (h : findFrom text part start = some position) :
    start ≤ position ∧ OccursAt text part position ∧
      ∀ earlier, start ≤ earlier → earlier < position → ¬ OccursAt text part earlier := by
  unfold findFrom at h
  rw [List.find?_range_eq_some] at h
  obtain ⟨hfound, hmem, hearlier⟩ := h
  obtain ⟨hge, hprefix⟩ := of_decide_eq_true hfound
  have hle := Nat.le_of_lt_succ (List.mem_range.1 hmem)
  refine ⟨hge, ⟨hle, hprefix⟩, fun earlier hstart hlt hoccurs => ?_⟩
  have hnot := hearlier earlier hlt
  rw [Bool.not_eq_true', decide_eq_false_iff_not] at hnot
  exact hnot ⟨hstart, hoccurs.2⟩

/-- A part found once and not found again after that occurs at one position only. -/
theorem occursAt_iff_of_find {text part : List α} {position : ℕ}
    (hfirst : findFrom text part 0 = some position)
    (hagain : findFrom text part (position + 1) = none) (other : ℕ) :
    OccursAt text part other ↔ other = position := by
  obtain ⟨-, hoccurs, hearlier⟩ := findFrom_eq_some hfirst
  constructor
  · intro hother
    have hle := findFrom_eq_none_iff.1 hagain other hother
    by_contra hne
    exact hearlier other (Nat.zero_le _) (by omega) hother
  · rintro rfl
    exact hoccurs

/-- A part that occurs at one position only is found there and not again. -/
theorem find_of_occursAt_iff {text part : List α} {position : ℕ}
    (h : ∀ other, OccursAt text part other ↔ other = position) :
    findFrom text part 0 = some position ∧ findFrom text part (position + 1) = none := by
  constructor
  · rcases hfound : findFrom text part 0 with _ | found
    · have hlt := findFrom_eq_none_iff.1 hfound position ((h position).2 rfl)
      exact absurd hlt (Nat.not_lt_zero _)
    · rw [(h found).1 (findFrom_eq_some hfound).2.1]
  · rw [findFrom_eq_none_iff]
    intro other hother
    rw [(h other).1 hother]
    exact Nat.lt_succ_self _

end

/-! ## Edits -/

/-- A new part in the place of an old one. -/
structure Edit (α : Type) where
  start : ℕ
  old : List α
  new : List α
  deriving DecidableEq

/-- Where the old part ends. -/
def Edit.stop (edit : Edit α) : ℕ := edit.start + edit.old.length

/-- The text with an edit made. -/
def Edit.apply (text : List α) (edit : Edit α) : List α :=
  text.take edit.start ++ edit.new ++ text.drop edit.stop

/-- The text with the edits made, from the last to the first. -/
def applyAll (text : List α) (edits : List (Edit α)) : List α :=
  edits.reverse.foldl Edit.apply text

/-- The edits that put the old parts back: in the place of the new ones, at positions shifted by
what the edits before them have added. -/
def backEdits : ℤ → List (Edit α) → List (Edit α)
  | _, [] => []
  | shift, edit :: edits =>
    ⟨(edit.start + shift).toNat, edit.new, edit.old⟩ ::
      backEdits (shift + edit.new.length - edit.old.length) edits

theorem applyAll_cons (text : List α) (edit : Edit α) (edits : List (Edit α)) :
    applyAll text (edit :: edits) = Edit.apply (applyAll text edits) edit := by
  unfold applyAll
  rw [List.reverse_cons, List.foldl_append, List.foldl_cons, List.foldl_nil]

/-! ## Pieces -/

/-- An old part, the new one for it, and the text up to the next old part. -/
structure Piece (α : Type) where
  old : List α
  new : List α
  gap : List α

/-- The new part for the old one. -/
def Piece.swap (piece : Piece α) : Piece α := ⟨piece.new, piece.old, piece.gap⟩

/-- A text put together from its beginning, a part of each piece and the gaps. -/
def assemble (part : Piece α → List α) (first : List α) (pieces : List (Piece α)) : List α :=
  first ++ pieces.flatMap fun piece => part piece ++ piece.gap

/-- The edits of pieces, the first old part at `offset`. -/
def pieceEdits : ℕ → List (Piece α) → List (Edit α)
  | _, [] => []
  | offset, piece :: pieces =>
    ⟨offset, piece.old, piece.new⟩ ::
      pieceEdits (offset + piece.old.length + piece.gap.length) pieces

theorem assemble_cons (part : Piece α → List α) (first : List α) (piece : Piece α)
    (pieces : List (Piece α)) :
    assemble part first (piece :: pieces) =
      assemble part (first ++ part piece ++ piece.gap) pieces := by
  unfold assemble
  rw [List.flatMap_cons, List.append_assoc, List.append_assoc, List.append_assoc]

/-- Edits made from the right put every new part in the place of its old one and leave the gaps as
they are. -/
theorem applyAll_pieces (first : List α) (pieces : List (Piece α)) :
    applyAll (assemble Piece.old first pieces) (pieceEdits first.length pieces) =
      assemble Piece.new first pieces := by
  induction pieces generalizing first with
  | nil => rfl
  | cons piece pieces ih =>
    have hlength : first.length + piece.old.length + piece.gap.length =
        (first ++ piece.old ++ piece.gap).length := by
      rw [List.length_append, List.length_append]
    rw [pieceEdits, applyAll_cons, hlength, assemble_cons, ih]
    -- the parts to the right are in place, and this one is still at its position
    have hleft : assemble Piece.new (first ++ piece.old ++ piece.gap) pieces =
        first ++ (piece.old ++ assemble Piece.new piece.gap pieces) := by
      unfold assemble
      simp only [List.append_assoc]
    have hdrop : (first ++ (piece.old ++ assemble Piece.new piece.gap pieces)).drop
        (first.length + piece.old.length) = assemble Piece.new piece.gap pieces := by
      rw [← List.drop_drop, List.drop_left, List.drop_left]
    rw [hleft, Edit.apply, Edit.stop]
    dsimp only
    rw [List.take_left, hdrop]
    unfold assemble
    rw [List.flatMap_cons, List.append_assoc, List.append_assoc]

theorem occursAt_pieces (first : List α) (pieces : List (Piece α)) :
    ∀ edit ∈ pieceEdits first.length pieces,
      OccursAt (assemble Piece.old first pieces) edit.old edit.start := by
  induction pieces generalizing first with
  | nil => exact fun _ h => (nomatch h)
  | cons piece pieces ih =>
    have hlength : first.length + piece.old.length + piece.gap.length =
        (first ++ piece.old ++ piece.gap).length := by
      rw [List.length_append, List.length_append]
    intro edit hedit
    rw [pieceEdits, hlength] at hedit
    rcases List.mem_cons.1 hedit with rfl | hedit
    · unfold assemble
      refine ⟨by rw [List.length_append]; exact Nat.le_add_right _ _, ?_⟩
      rw [List.drop_left, List.flatMap_cons, List.append_assoc]
      exact List.prefix_append _ _
    · rw [assemble_cons]
      exact ih _ edit hedit

theorem backEdits_pieces {offset offset' : ℕ} {shift : ℤ} (h : (offset : ℤ) + shift = offset')
    (pieces : List (Piece α)) :
    backEdits shift (pieceEdits offset pieces) = pieceEdits offset' (pieces.map Piece.swap) := by
  induction pieces generalizing offset offset' shift with
  | nil => rfl
  | cons piece pieces ih =>
    have hshift : ((offset + piece.old.length + piece.gap.length : ℕ) : ℤ) +
        (shift + piece.new.length - piece.old.length) =
          ((offset' + piece.new.length + piece.gap.length : ℕ) : ℤ) := by
      push_cast
      linarith
    rw [pieceEdits, backEdits, List.map_cons, pieceEdits, ih hshift]
    dsimp only
    rw [h, Int.toNat_natCast]
    rfl

theorem assemble_swap (first : List α) (pieces : List (Piece α)) :
    assemble Piece.old first (pieces.map Piece.swap) = assemble Piece.new first pieces ∧
      assemble Piece.new first (pieces.map Piece.swap) = assemble Piece.old first pieces := by
  unfold assemble
  rw [List.flatMap_map, List.flatMap_map]
  exact ⟨rfl, rfl⟩

/-- The new parts stand at the shifted positions, and the edits back restore the text. -/
theorem applyAll_back (first : List α) (pieces : List (Piece α)) :
    (∀ edit ∈ backEdits 0 (pieceEdits first.length pieces),
        OccursAt (assemble Piece.new first pieces) edit.old edit.start) ∧
      applyAll (assemble Piece.new first pieces) (backEdits 0 (pieceEdits first.length pieces)) =
        assemble Piece.old first pieces := by
  obtain ⟨hold, hnew⟩ := assemble_swap first pieces
  rw [backEdits_pieces (add_zero _), ← hold]
  exact ⟨occursAt_pieces first _, by rw [applyAll_pieces, hnew]⟩

/-! ## Cutting a text -/

/-- Edits in order, none starting before the last one ends. -/
def EditsInOrder (edits : List (Edit α)) : Prop := edits.IsChain fun earlier later =>
  earlier.stop ≤ later.start

theorem exists_pieces_from {text : List α} {edits : List (Edit α)}
    (hoccur : ∀ edit ∈ edits, OccursAt text edit.old edit.start) (horder : EditsInOrder edits)
    {offset : ℕ} (hoffset : offset ≤ text.length)
    (hhead : ∀ edit ∈ edits.head?, offset ≤ edit.start) :
    ∃ gap pieces, assemble Piece.old gap pieces = text.drop offset ∧
      pieceEdits (offset + gap.length) pieces = edits := by
  induction edits generalizing offset with
  | nil => exact ⟨text.drop offset, [], by simp [assemble], rfl⟩
  | cons edit edits ih =>
    rw [List.forall_mem_cons] at hoccur
    have hstart : offset ≤ edit.start := hhead edit rfl
    have hrest : EditsInOrder edits := List.IsChain.tail horder
    have hnext : ∀ later ∈ edits.head?, edit.stop ≤ later.start := by
      intro later hlater
      cases edits with
      | nil => exact nomatch hlater
      | cons next edits =>
        obtain rfl := Option.some.inj hlater
        exact (List.isChain_cons_cons.1 horder).1
    obtain ⟨gap, pieces, hpieces, hedits⟩ := ih hoccur.2 hrest hoccur.1.add_length_le hnext
    have hgap : ((text.drop offset).take (edit.start - offset)).length = edit.start - offset := by
      have hle := hoccur.1.1
      rw [List.length_take, List.length_drop]
      omega
    refine ⟨(text.drop offset).take (edit.start - offset), ⟨edit.old, edit.new, gap⟩ :: pieces,
      ?_, ?_⟩
    · have hsplit := List.take_append_drop (edit.start - offset) (text.drop offset)
      rw [List.drop_drop, Nat.add_sub_cancel' hstart, hoccur.1.drop_eq] at hsplit
      change _ = text.drop (edit.start + edit.old.length) at hpieces
      have hjoin : assemble Piece.old ((text.drop offset).take (edit.start - offset))
          (⟨edit.old, edit.new, gap⟩ :: pieces) =
            (text.drop offset).take (edit.start - offset) ++
              (edit.old ++ assemble Piece.old gap pieces) := by
        unfold assemble
        rw [List.flatMap_cons, List.append_assoc]
      rw [hjoin, hpieces]
      exact hsplit
    · have hposition : offset + (edit.start - offset) = edit.start := by omega
      rw [pieceEdits, hgap, hposition]
      exact congrArg (edit :: ·) hedits

/-- A text is cut into pieces at edits in order whose old parts occur in it. -/
theorem exists_pieces {text : List α} {edits : List (Edit α)}
    (hoccur : ∀ edit ∈ edits, OccursAt text edit.old edit.start) (horder : EditsInOrder edits) :
    ∃ first pieces, assemble Piece.old first pieces = text ∧
      pieceEdits first.length pieces = edits := by
  obtain ⟨first, pieces, hpieces, hedits⟩ := exists_pieces_from hoccur horder
    (Nat.zero_le text.length) fun _ _ => Nat.zero_le _
  rw [List.drop_zero] at hpieces
  rw [Nat.zero_add] at hedits
  exact ⟨first, pieces, hpieces, hedits⟩

end QuantDinger.Library
