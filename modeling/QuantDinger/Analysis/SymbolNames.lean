import Mathlib
import QuantDinger.Model.PositionLedger

/-!
# Canonical symbol names

`normalize_strategy_symbol` leaves its own results alone: what it returns for a symbol without blanks
has no `-`, is in upper case, and its separator is where it looks for it.
-/

namespace QuantDinger.Analysis

open QuantDinger.Model QuantDinger.Model.Live

/-! ## Characters -/

theorem isSpace_of_isAlpha {c : Char} (h : c.isAlpha = true) : isSpace c = false := by
  have hrange : (65 ≤ c.toNat ∧ c.toNat ≤ 90) ∨ (97 ≤ c.toNat ∧ c.toNat ≤ 122) := by
    simp only [Char.isAlpha, Char.isUpper, Char.isLower, Bool.or_eq_true, Bool.and_eq_true,
      decide_eq_true_eq, UInt32.le_iff_toNat_le] at h
    exact h
  unfold isSpace
  simp only [Bool.or_eq_false_iff, Bool.and_eq_false_iff, decide_eq_false_iff_not,
    beq_eq_false_iff_ne]
  omega

theorem isSpace_toUpper (c : Char) (h : isSpace c = false) : isSpace c.toUpper = false := by
  by_cases hlower : c.isLower = true
  · refine isSpace_of_isAlpha ?_
    rw [Char.isAlpha_toUpper_eq_isAlpha]
    unfold Char.isAlpha
    rw [hlower, Bool.or_true]
  · rw [Char.toUpper_eq_of_not_isLower hlower]
    exact h

/-! ## Strings in canonical letters -/

def Plain (s : String) : Prop := ∀ c ∈ s.toList, c ≠ '-' ∧ isSpace c = false ∧ c.toUpper = c

theorem strip_of_no_space {s : String} (h : ∀ c ∈ s.toList, isSpace c = false) : strip s = s := by
  have hdrop : ∀ l : List Char, (∀ c ∈ l, isSpace c = false) → l.dropWhile isSpace = l := by
    intro l hl
    cases l with
    | nil => rfl
    | cons c l =>
      rw [List.dropWhile_cons_of_neg]
      rw [hl c List.mem_cons_self]
      exact Bool.false_ne_true
  unfold strip
  rw [hdrop _ h, hdrop _ fun c hc => h c (List.mem_reverse.1 hc), List.reverse_reverse,
    String.ofList_toList]

theorem Plain.compact {s : String} (h : Plain s) : removeChar '-' (upper (strip s)) = s := by
  have hupper : upper s = s := by
    unfold upper
    rw [List.map_congr_left (g := id) fun c hc => (h c hc).2.2, List.map_id, String.ofList_toList]
  rw [strip_of_no_space fun c hc => (h c hc).2.1, hupper]
  unfold removeChar
  rw [List.filter_eq_self.2 fun c hc => decide_eq_true (h c hc).1, String.ofList_toList]

theorem plain_compact {s : String} (h : ∀ c ∈ s.toList, isSpace c = false) :
    Plain (removeChar '-' (upper (strip s))) := by
  rw [strip_of_no_space h]
  intro c hc
  unfold removeChar upper at hc
  rw [String.toList_ofList, String.toList_ofList] at hc
  have hne := List.of_mem_filter hc
  obtain ⟨d, hd, rfl⟩ := List.mem_map.1 (List.mem_of_mem_filter hc)
  exact ⟨of_decide_eq_true hne, isSpace_toUpper d (h d hd), Char.toUpper_toUpper_eq_toUpper d⟩

/-! ## The settlement suffix -/

theorem withoutSettlement_of_split {base quote : List Char} (hbase : ∀ c ∈ base, c ≠ '/')
    (hquote : ∀ c ∈ quote, c ≠ ':' ∧ c ≠ '@') :
    withoutSettlement (String.ofList (base ++ '/' :: quote)) =
      String.ofList (base ++ '/' :: quote) := by
  have htake : (base ++ '/' :: quote).takeWhile (fun c => decide (c ≠ '/')) = base := by
    rw [List.takeWhile_append_of_pos fun c hc => decide_eq_true (hbase c hc)]
    simp
  have hdrop : (base ++ '/' :: quote).dropWhile (fun c => decide (c ≠ '/')) = '/' :: quote := by
    rw [List.dropWhile_append_of_pos fun c hc => decide_eq_true (hbase c hc)]
    simp
  have hself : quote.takeWhile (fun c => decide (c ≠ ':' ∧ c ≠ '@')) = quote :=
    List.takeWhile_eq_self_iff.2 fun c hc => decide_eq_true (hquote c hc)
  unfold withoutSettlement
  dsimp only
  rw [String.toList_ofList, htake, hdrop, List.drop_one, List.tail_cons, hself, List.drop_length]

theorem withoutSettlement_cases (s : String) :
    withoutSettlement s = s ∨ ∃ base quote : List Char, (∀ c ∈ base, c ≠ '/') ∧
      (∀ c ∈ quote, c ≠ ':' ∧ c ≠ '@') ∧ (∀ c ∈ base ++ quote, c ∈ s.toList) ∧
      withoutSettlement s = String.ofList (base ++ '/' :: quote) := by
  unfold withoutSettlement
  dsimp only
  split
  · refine Or.inr ⟨_, _, ?_, ?_, ?_, rfl⟩
    · intro c hc
      have hkept := List.mem_takeWhile_imp hc
      exact of_decide_eq_true hkept
    · intro c hc
      have hkept := List.mem_takeWhile_imp hc
      exact of_decide_eq_true hkept
    · intro c hc
      rcases List.mem_append.1 hc with hbase | hquote
      · exact (List.takeWhile_sublist _).subset hbase
      · have hrest := (List.takeWhile_sublist _).subset hquote
        exact (List.dropWhile_sublist _).subset (List.mem_of_mem_drop hrest)
  · exact Or.inl rfl

/-! ## Canonical names -/

theorem normalizeStrategySymbol_plain {s : String} (h : Plain s) (hne : s ≠ "") :
    normalizeStrategySymbol s =
      if '/' ∈ s.toList then withoutSettlement s
      else match quoteSuffixes.find? fun quote => endsWith s quote ∧ quote.length < s.length with
        | some quote => truncate (s.length - quote.length) s ++ "/" ++ quote
        | none => s := by
  unfold normalizeStrategySymbol
  dsimp only
  rw [h.compact]
  exact if_neg hne

theorem normalize_of_split {base quote : List Char} (hbase : ∀ c ∈ base, c ≠ '/')
    (hquote : ∀ c ∈ quote, c ≠ ':' ∧ c ≠ '@')
    (hplain : Plain (String.ofList (base ++ '/' :: quote))) :
    normalizeStrategySymbol (String.ofList (base ++ '/' :: quote)) =
      String.ofList (base ++ '/' :: quote) := by
  have hslash : '/' ∈ (String.ofList (base ++ '/' :: quote)).toList := by
    rw [String.toList_ofList]
    exact List.mem_append_right base List.mem_cons_self
  have hne : String.ofList (base ++ '/' :: quote) ≠ "" := by
    intro hempty
    rw [hempty] at hslash
    exact nomatch hslash
  rw [normalizeStrategySymbol_plain hplain hne, if_pos hslash,
    withoutSettlement_of_split hbase hquote]

theorem plain_of_split {s : String} {base quote : List Char} (h : Plain s)
    (hsub : ∀ c ∈ base ++ quote, c ∈ s.toList) :
    Plain (String.ofList (base ++ '/' :: quote)) := by
  intro c hc
  rw [String.toList_ofList] at hc
  rcases List.mem_append.1 hc with hbase | hrest
  · exact h c (hsub c (List.mem_append_left _ hbase))
  · rcases List.mem_cons.1 hrest with rfl | hquote
    · decide
    · exact h c (hsub c (List.mem_append_right _ hquote))

theorem quoteSuffixes_letters {quote : String} (h : quote ∈ quoteSuffixes) :
    ∀ c ∈ quote.toList, (c ≠ ':' ∧ c ≠ '@') ∧ c ≠ '-' ∧ isSpace c = false ∧ c.toUpper = c := by
  have hletter : ∀ quote ∈ quoteSuffixes, ∀ c ∈ quote.toList,
      c ∈ ['B', 'C', 'D', 'E', 'R', 'S', 'T', 'U'] := by
    unfold quoteSuffixes
    simp
  have hletters : ∀ c ∈ ['B', 'C', 'D', 'E', 'R', 'S', 'T', 'U'],
      (c ≠ ':' ∧ c ≠ '@') ∧ c ≠ '-' ∧ isSpace c = false ∧ c.toUpper = c := by
    intro c hc
    fin_cases hc <;> exact ⟨by decide, by decide, rfl, rfl⟩
  intro c hc
  exact hletters c (hletter quote h c hc)

theorem canonical_of_no_space {symbol : String} (h : ∀ c ∈ symbol.toList, isSpace c = false) :
    Plain (normalizeStrategySymbol symbol) ∧
      normalizeStrategySymbol (normalizeStrategySymbol symbol) = normalizeStrategySymbol symbol := by
  have hplain := plain_compact h
  have hname : normalizeStrategySymbol symbol =
      normalizeStrategySymbol (removeChar '-' (upper (strip symbol))) := by
    unfold normalizeStrategySymbol
    rw [hplain.compact]
  rw [hname]
  generalize removeChar '-' (upper (strip symbol)) = s at hplain
  by_cases hempty : s = ""
  · subst hempty
    refine ⟨?_, by decide⟩
    intro c hc
    exact nomatch hc
  have hself := normalizeStrategySymbol_plain hplain hempty
  by_cases hslash : '/' ∈ s.toList
  · rw [if_pos hslash] at hself
    rcases withoutSettlement_cases s with hwhole | ⟨base, quote, hbase, hquote, hsub, hcut⟩
    · rw [hself, hwhole, hself, hwhole]
      exact ⟨hplain, rfl⟩
    · rw [hself, hcut]
      have hcanonical := plain_of_split hplain hsub
      exact ⟨hcanonical, normalize_of_split hbase hquote hcanonical⟩
  · rw [if_neg hslash] at hself
    cases hquote : quoteSuffixes.find? fun quote =>
        endsWith s quote ∧ quote.length < s.length with
    | none =>
      rw [hquote] at hself
      dsimp only at hself
      rw [hself, hself]
      exact ⟨hplain, rfl⟩
    | some quote =>
      rw [hquote] at hself
      dsimp only at hself
      have hletters := quoteSuffixes_letters (List.mem_of_find?_eq_some hquote)
      have hsplit : truncate (s.length - quote.length) s ++ "/" ++ quote =
          String.ofList (s.toList.take (s.length - quote.length) ++ '/' :: quote.toList) := by
        unfold truncate
        apply String.toList_inj.1
        simp
      have hcanonical : Plain
          (String.ofList (s.toList.take (s.length - quote.length) ++ '/' :: quote.toList)) := by
        intro c hc
        rw [String.toList_ofList] at hc
        rcases List.mem_append.1 hc with hbase | hrest
        · exact hplain c (List.mem_of_mem_take hbase)
        · rcases List.mem_cons.1 hrest with rfl | hmem
          · decide
          · exact (hletters c hmem).2
      rw [hself, hsplit]
      refine ⟨hcanonical, normalize_of_split ?_ (fun c hc => (hletters c hc).1) hcanonical⟩
      rintro c hc rfl
      exact hslash (List.mem_of_mem_take hc)

theorem normalize_normalize {symbol : String} (h : ∀ c ∈ symbol.toList, isSpace c = false) :
    normalizeStrategySymbol (normalizeStrategySymbol symbol) = normalizeStrategySymbol symbol :=
  (canonical_of_no_space h).2

theorem normalize_no_space {symbol : String} (h : ∀ c ∈ symbol.toList, isSpace c = false) :
    ∀ c ∈ (normalizeStrategySymbol symbol).toList, isSpace c = false :=
  fun c hc => ((canonical_of_no_space h).1 c hc).2.1

theorem normalize_mem_candidates {symbol : String} (h : ∀ c ∈ symbol.toList, isSpace c = false)
    (hne : normalizeStrategySymbol symbol ≠ "") :
    normalizeStrategySymbol symbol ∈ positionSymbolCandidates symbol := by
  have hsymbol : symbol ≠ "" := by
    rintro rfl
    exact hne (by decide)
  unfold positionSymbolCandidates
  dsimp only
  rw [strip_of_no_space h, if_neg hsymbol, List.mem_dedup]
  refine List.mem_filter.2 ⟨?_, decide_eq_true hne⟩
  simp

end QuantDinger.Analysis
