import QuantDinger.Analysis.SymbolNames

/-!
# Spellings of one instrument

The canonical symbol of a base and a quote in the spellings `BTCUSDT`, `BTC/USDT`, `BTC-USDT` and
`BTC/USDT:USDT`. The spellings without a slash are split at the first quote of the list that fits,
and `USD` stands before `BUSD`.
-/

namespace QuantDinger.Analysis

open QuantDinger.Model QuantDinger.Model.Live

/-! ## Spellings -/

/-- `trade_execution_key`.
SOURCE: execution_lock.py:93-107 -/
def tradeExecutionKey (userId credentialId : ℤ) (marketType symbol : String) : String :=
  let market := lower (strip (textOrElse marketType "swap"))
  let market := if market ∈ ["future", "futures", "perp", "perpetual"] then "swap" else market
  let normalized := textOrElse (normalizeStrategySymbol symbol) (upper (strip symbol))
  "trade-execution:" ++ toString userId ++ ":" ++ toString credentialId ++ ":" ++ market ++ ":" ++
    upper normalized

/-- How a base and a quote are put together. -/
inductive PairSpelling
  | compact
  | hyphen
  | slash
  | settled (settle : String)
  deriving DecidableEq

namespace PairSpelling

def text (base quote : String) : PairSpelling → String
  | compact => base ++ quote
  | hyphen => base ++ "-" ++ quote
  | slash => base ++ "/" ++ quote
  | settled settle => base ++ "/" ++ quote ++ ":" ++ settle

def slashed : PairSpelling → Bool
  | compact | hyphen => false
  | slash | settled _ => true

def settle : PairSpelling → String
  | settled settle => settle
  | _ => ""

end PairSpelling

def Alphanumeric (s : String) : Prop := ∀ c ∈ s.toList, c.isAlphanum = true

instance (s : String) : Decidable (Alphanumeric s) :=
  inferInstanceAs (Decidable (∀ c ∈ s.toList, _))

/-- The symbol is `base`/`quote`, spelled in some letter case. -/
structure Spells (base quote : String) (spelling : PairSpelling) (s : String) : Prop where
  alphanumeric : Alphanumeric base
  settlement : Alphanumeric spelling.settle
  supported : quote ∈ quoteSuffixes
  spelled : upper s = upper (spelling.text base quote)

def pairSymbol (base quote : String) : String := upper base ++ "/" ++ quote

/-- A symbol is known as its base and quote: its canonical symbol is that of both, it is its own
canonical symbol, and the locks are the same. -/
structure OneInstrument (base quote s : String) : Prop where
  canonical : normalizeStrategySymbol s = pairSymbol base quote
  idempotent :
    normalizeStrategySymbol (normalizeStrategySymbol s) = normalizeStrategySymbol s
  locked : ∀ userId credentialId marketType,
    tradeExecutionKey userId credentialId marketType s =
      tradeExecutionKey userId credentialId marketType (pairSymbol base quote)

/-! ## Letters -/

theorem isSpace_of_toUpper {c : Char} (h : isSpace c.toUpper = false) : isSpace c = false := by
  by_cases hlower : c.isLower = true
  · apply isSpace_of_isAlpha
    unfold Char.isAlpha
    rw [hlower, Bool.or_true]
  · rw [Char.toUpper_eq_of_not_isLower hlower] at h
    exact h

theorem isAlphanum_toUpper {c : Char} (h : c.isAlphanum = true) : c.toUpper.isAlphanum = true := by
  unfold Char.isAlphanum at h ⊢
  rw [Bool.or_eq_true] at h ⊢
  rcases h with halpha | hdigit
  · left
    rw [Char.isAlpha_toUpper_eq_isAlpha]
    exact halpha
  · right
    rw [Char.toUpper_eq_of_not_isLower]
    · exact hdigit
    · simp only [Char.isDigit, Char.isLower, Bool.and_eq_true, decide_eq_true_eq,
        UInt32.le_iff_toNat_le, ge_iff_le] at hdigit ⊢
      have hnine : '9'.val.toNat = 57 := rfl
      have ha : 'a'.val.toNat = 97 := rfl
      omega

theorem not_isSpace_of_isAlphanum {c : Char} (h : c.isAlphanum = true) : isSpace c = false := by
  unfold Char.isAlphanum at h
  rw [Bool.or_eq_true] at h
  rcases h with halpha | hdigit
  · exact isSpace_of_isAlpha halpha
  · have hrange : 48 ≤ c.toNat ∧ c.toNat ≤ 57 := by
      simp only [Char.isDigit, Bool.and_eq_true, decide_eq_true_eq, UInt32.le_iff_toNat_le]
        at hdigit
      exact hdigit
    unfold isSpace
    simp only [Bool.or_eq_false_iff, Bool.and_eq_false_iff, decide_eq_false_iff_not,
      beq_eq_false_iff_ne]
    omega

theorem ne_of_isAlphanum {c d : Char} (hc : c.isAlphanum = true) (hd : d.isAlphanum = false) :
    c ≠ d := by
  rintro rfl
  rw [hc] at hd
  exact Bool.noConfusion hd

theorem alphanumeric_upper {s : String} (h : Alphanumeric s) : Alphanumeric (upper s) := by
  intro c hc
  unfold upper at hc
  rw [String.toList_ofList] at hc
  obtain ⟨d, hd, rfl⟩ := List.mem_map.1 hc
  exact isAlphanum_toUpper (h d hd)

theorem alphanumeric_quote {quote : String} (h : quote ∈ quoteSuffixes) : Alphanumeric quote := by
  have hletter : ∀ quote ∈ quoteSuffixes, ∀ c ∈ quote.toList,
      c ∈ ['B', 'C', 'D', 'E', 'R', 'S', 'T', 'U'] := by
    unfold quoteSuffixes
    simp
  have hletters : ∀ c ∈ ['B', 'C', 'D', 'E', 'R', 'S', 'T', 'U'], c.isAlphanum = true := by
    intro c hc
    fin_cases hc <;> rfl
  intro c hc
  exact hletters c (hletter quote h c hc)

theorem upper_append (s t : String) : upper (s ++ t) = upper s ++ upper t := by
  unfold upper
  apply String.toList_inj.1
  simp

theorem upper_quote {quote : String} (h : quote ∈ quoteSuffixes) : upper quote = quote := by
  unfold upper
  rw [List.map_congr_left fun c hc => (quoteSuffixes_letters h c hc).2.2.2, List.map_id',
    String.ofList_toList]

theorem removeChar_append (c : Char) (s t : String) :
    removeChar c (s ++ t) = removeChar c s ++ removeChar c t := by
  unfold removeChar
  apply String.toList_inj.1
  simp

theorem removeChar_alphanumeric {s : String} (h : Alphanumeric s) : removeChar '-' s = s := by
  unfold removeChar
  rw [List.filter_eq_self.2, String.ofList_toList]
  exact fun c hc => decide_eq_true (ne_of_isAlphanum (h c hc) rfl)

/-! ## What the canonical symbol is read from -/

section

variable {base quote s : String} {spelling : PairSpelling}

/-- The symbol in capitals and without hyphens. -/
def PairSpelling.compactText (base quote : String) : PairSpelling → String
  | .compact | .hyphen => upper base ++ quote
  | .slash => pairSymbol base quote
  | .settled settle => pairSymbol base quote ++ ":" ++ upper settle

theorem Spells.compactText (h : Spells base quote spelling s) :
    removeChar '-' (upper s) = spelling.compactText base quote := by
  have hbase := removeChar_alphanumeric (alphanumeric_upper h.alphanumeric)
  have hquote := removeChar_alphanumeric (alphanumeric_quote h.supported)
  have hupper := upper_quote h.supported
  have hsettle := h.settlement
  rw [h.spelled]
  cases spelling with
  | compact =>
    unfold PairSpelling.text PairSpelling.compactText
    simp only [upper_append, removeChar_append, hbase, hquote, hupper]
  | hyphen =>
    unfold PairSpelling.text PairSpelling.compactText
    simp only [upper_append, removeChar_append, hbase, hquote, hupper]
    rw [show removeChar '-' (upper "-") = "" by decide, String.append_empty]
  | slash =>
    unfold PairSpelling.text PairSpelling.compactText pairSymbol
    simp only [upper_append, removeChar_append, hbase, hquote, hupper]
    rw [show removeChar '-' (upper "/") = "/" by decide]
  | settled settle =>
    have hupperSettle : removeChar '-' (upper settle) = upper settle :=
      removeChar_alphanumeric (alphanumeric_upper hsettle)
    unfold PairSpelling.text PairSpelling.compactText pairSymbol
    simp only [upper_append, removeChar_append, hbase, hquote, hupper, hupperSettle]
    rw [show removeChar '-' (upper "/") = "/" by decide,
      show removeChar '-' (upper ":") = ":" by decide]

theorem Spells.no_space (h : Spells base quote spelling s) : ∀ c ∈ s.toList, isSpace c = false := by
  intro c hc
  apply isSpace_of_toUpper
  have hmem : c.toUpper ∈ (upper s).toList := by
    unfold upper
    rw [String.toList_ofList]
    exact List.mem_map_of_mem hc
  have hbase := fun c hc => not_isSpace_of_isAlphanum (alphanumeric_upper h.alphanumeric c hc)
  have hquote := fun c hc => not_isSpace_of_isAlphanum (alphanumeric_quote h.supported c hc)
  have hupper := upper_quote h.supported
  have hsettle := h.settlement
  rw [h.spelled] at hmem
  cases spelling with
  | compact =>
    simp only [PairSpelling.text, upper_append, hupper, String.toList_append,
      List.mem_append] at hmem
    exact hmem.elim (hbase _) (hquote _)
  | hyphen =>
    simp only [PairSpelling.text, upper_append, hupper, String.toList_append,
      List.mem_append] at hmem
    rcases hmem with (hmem | hmem) | hmem
    · exact hbase _ hmem
    · rw [List.mem_singleton.1 hmem]
      rfl
    · exact hquote _ hmem
  | slash =>
    simp only [PairSpelling.text, upper_append, hupper, String.toList_append,
      List.mem_append] at hmem
    rcases hmem with (hmem | hmem) | hmem
    · exact hbase _ hmem
    · rw [List.mem_singleton.1 hmem]
      rfl
    · exact hquote _ hmem
  | settled settle =>
    simp only [PairSpelling.text, upper_append, hupper, String.toList_append,
      List.mem_append] at hmem
    rcases hmem with (((hmem | hmem) | hmem) | hmem) | hmem
    · exact hbase _ hmem
    · rw [List.mem_singleton.1 hmem]
      rfl
    · exact hquote _ hmem
    · rw [List.mem_singleton.1 hmem]
      rfl
    · exact not_isSpace_of_isAlphanum (alphanumeric_upper hsettle _ hmem)

theorem Spells.normalize (h : Spells base quote spelling s) :
    Plain (spelling.compactText base quote) ∧
      normalizeStrategySymbol s = normalizeStrategySymbol (spelling.compactText base quote) := by
  have hplain := plain_compact h.no_space
  rw [strip_of_no_space h.no_space, h.compactText] at hplain
  refine ⟨hplain, ?_⟩
  unfold normalizeStrategySymbol
  rw [hplain.compact, strip_of_no_space h.no_space, h.compactText]

/-! ## With a slash -/

theorem pairSymbol_eq (base quote : String) :
    pairSymbol base quote = String.ofList ((upper base).toList ++ '/' :: quote.toList) := by
  unfold pairSymbol
  apply String.toList_inj.1
  simp

theorem withoutSettlement_of_settled {base quote settle : List Char} (hbase : ∀ c ∈ base, c ≠ '/')
    (hquote : ∀ c ∈ quote, c ≠ ':' ∧ c ≠ '@') :
    withoutSettlement (String.ofList (base ++ '/' :: (quote ++ ':' :: settle))) =
      String.ofList (base ++ '/' :: quote) := by
  have htake : (base ++ '/' :: (quote ++ ':' :: settle)).takeWhile
      (fun c => decide (c ≠ '/')) = base := by
    rw [List.takeWhile_append_of_pos fun c hc => decide_eq_true (hbase c hc)]
    simp
  have hdrop : (base ++ '/' :: (quote ++ ':' :: settle)).dropWhile (fun c => decide (c ≠ '/')) =
      '/' :: (quote ++ ':' :: settle) := by
    rw [List.dropWhile_append_of_pos fun c hc => decide_eq_true (hbase c hc)]
    simp
  have hself : (quote ++ ':' :: settle).takeWhile (fun c => decide (c ≠ ':' ∧ c ≠ '@')) =
      quote := by
    rw [List.takeWhile_append_of_pos fun c hc => decide_eq_true (hquote c hc)]
    simp
  unfold withoutSettlement
  dsimp only
  rw [String.toList_ofList, htake, hdrop, List.drop_one, List.tail_cons, hself,
    List.drop_left]
  rfl

theorem Spells.canonical_of_slash (h : Spells base quote spelling s)
    (hslash : spelling.slashed = true) :
    normalizeStrategySymbol s = pairSymbol base quote := by
  have hbase : ∀ c ∈ (upper base).toList, c ≠ '/' := fun c hc =>
    ne_of_isAlphanum (alphanumeric_upper h.alphanumeric c hc) rfl
  have hquote : ∀ c ∈ quote.toList, c ≠ ':' ∧ c ≠ '@' := fun c hc =>
    (quoteSuffixes_letters h.supported c hc).1
  obtain ⟨hplain, hname⟩ := h.normalize
  rw [hname]
  cases spelling with
  | compact | hyphen => exact Bool.noConfusion hslash
  | slash =>
    change normalizeStrategySymbol (pairSymbol base quote) = _
    change Plain (pairSymbol base quote) at hplain
    rw [pairSymbol_eq] at hplain ⊢
    exact normalize_of_split hbase hquote hplain
  | settled settle =>
    have htext : PairSpelling.compactText base quote (.settled settle) =
        String.ofList ((upper base).toList ++ '/' ::
          (quote.toList ++ ':' :: (upper settle).toList)) := by
      unfold PairSpelling.compactText pairSymbol
      apply String.toList_inj.1
      simp
    rw [htext] at hplain ⊢
    have hmem : '/' ∈ (String.ofList ((upper base).toList ++ '/' ::
        (quote.toList ++ ':' :: (upper settle).toList))).toList := by
      rw [String.toList_ofList]
      exact List.mem_append_right _ List.mem_cons_self
    rw [normalizeStrategySymbol_plain hplain, if_pos hmem,
      withoutSettlement_of_settled hbase hquote, pairSymbol_eq]
    intro hempty
    rw [hempty] at hmem
    exact nomatch hmem

/-! ## Without a slash -/

theorem endsWith_append (u : List Char) (quote tail : String) :
    endsWith (String.ofList (u ++ quote.toList)) tail =
      tail.toList.reverse.isPrefixOf (quote.toList.reverse ++ u.reverse) := by
  unfold endsWith
  rw [String.toList_ofList, List.isSuffixOf, List.reverse_append]

theorem find_quote (u : List Char) {quote : String} (h : quote ∈ quoteSuffixes) :
    (quoteSuffixes.find? fun tail => endsWith (String.ofList (u ++ quote.toList)) tail ∧
      tail.length < (String.ofList (u ++ quote.toList)).length) =
      if quote = "BUSD" then some "USD" else if u = [] then none else some quote := by
  have hlength : (String.ofList (u ++ quote.toList)).length = u.length + quote.length := by
    simp
  simp only [endsWith_append, hlength]
  unfold quoteSuffixes at h ⊢
  simp only [List.mem_cons, List.not_mem_nil, or_false] at h
  rcases h with rfl | rfl | rfl | rfl | rfl
  · cases u <;> simp [List.find?, List.isPrefixOf]
  · cases u <;> simp [List.find?, List.isPrefixOf]
  · cases u <;> simp [List.find?, List.isPrefixOf]
  · -- `USD` is tried before `BUSD`, and a symbol that ends in `BUSD` ends in `USD`
    have husd : "USD".length = 3 := rfl
    have hbusd : "BUSD".length = 4 := rfl
    have hlonger : 3 < u.length + 4 := by omega
    simp [List.find?, List.isPrefixOf, husd, hbusd, hlonger]
  · cases u <;> simp [List.find?, List.isPrefixOf]

theorem normalize_of_compact {u : List Char} {quote : String} (h : quote ∈ quoteSuffixes)
    (hplain : Plain (String.ofList (u ++ quote.toList))) (hslash : '/' ∉ u) :
    normalizeStrategySymbol (String.ofList (u ++ quote.toList)) =
      if quote = "BUSD" then String.ofList (u ++ "B/USD".toList)
      else if u = [] then quote
      else String.ofList (u ++ '/' :: quote.toList) := by
  have hquote : '/' ∉ quote.toList := fun hmem =>
    absurd (alphanumeric_quote h '/' hmem) (by decide)
  have hne : String.ofList (u ++ quote.toList) ≠ "" := by
    intro hempty
    have hnil := String.toList_inj.2 hempty
    rw [String.toList_ofList] at hnil
    have hquoteNil : quote.toList = [] := (List.append_eq_nil_iff.1 hnil).2
    unfold quoteSuffixes at h
    simp only [List.mem_cons, List.not_mem_nil, or_false] at h
    rcases h with rfl | rfl | rfl | rfl | rfl <;> exact absurd hquoteNil (by decide)
  rw [normalizeStrategySymbol_plain hplain hne, if_neg, find_quote u h]
  · split_ifs with hbusd hnil
    · subst hbusd
      have hcut : (u ++ ['B', 'U', 'S', 'D']).take (u.length + 1) = u ++ ['B'] := by
        rw [show u.length + 1 = (u ++ ['B']).length by simp,
          show u ++ ['B', 'U', 'S', 'D'] = (u ++ ['B']) ++ ['U', 'S', 'D'] by simp,
          List.take_left]
      have husd : "USD".length = 3 := rfl
      have hbusd : "BUSD".length = 4 := rfl
      dsimp only
      unfold truncate
      apply String.toList_inj.1
      simp [husd, hbusd, hcut]
    · subst hnil
      simp
    · dsimp only
      unfold truncate
      apply String.toList_inj.1
      simp
  · rw [String.toList_ofList, List.mem_append]
    exact fun hmem => hmem.elim hslash hquote

theorem Spells.canonical_of_compact (h : Spells base quote spelling s)
    (hslash : spelling.slashed = false) :
    normalizeStrategySymbol s = pairSymbol base quote ↔ base ≠ "" ∧ quote ≠ "BUSD" := by
  have hbase : '/' ∉ (upper base).toList := fun hmem =>
    absurd (alphanumeric_upper h.alphanumeric '/' hmem) (by decide)
  have hempty : (upper base).toList = [] ↔ base = "" := by
    unfold upper
    rw [String.toList_ofList, List.map_eq_nil_iff, ← String.toList_inj]
    exact Iff.rfl
  have htext : spelling.compactText base quote =
      String.ofList ((upper base).toList ++ quote.toList) := by
    cases spelling with
    | compact | hyphen =>
      unfold PairSpelling.compactText
      apply String.toList_inj.1
      simp
    | slash | settled _ => exact Bool.noConfusion hslash
  obtain ⟨hplain, hname⟩ := h.normalize
  rw [htext] at hplain hname
  rw [hname, normalize_of_compact h.supported hplain hbase, pairSymbol_eq]
  split_ifs with hbusd hnil
  · subst hbusd
    refine iff_of_false ?_ fun hboth => hboth.2 rfl
    intro heq
    have hlists := String.toList_inj.2 heq
    rw [String.toList_ofList, String.toList_ofList] at hlists
    simp at hlists
  · refine iff_of_false ?_ fun hboth => hboth.1 (hempty.1 hnil)
    intro heq
    have hlists := String.toList_inj.2 heq
    rw [String.toList_ofList, hnil] at hlists
    exact absurd (congrArg List.length hlists) (by simp)
  · exact iff_of_true rfl ⟨fun hbase => hnil (hempty.2 hbase), hbusd⟩

/-! ## One instrument -/

theorem Spells.slash (h : Spells base quote spelling s) :
    Spells base quote .slash (pairSymbol base quote) := by
  have hupper : upper (upper base) = upper base := by
    unfold upper
    rw [String.toList_ofList, List.map_map, List.map_congr_left]
    exact fun c _ => Char.toUpper_toUpper_eq_toUpper c
  constructor
  · exact h.alphanumeric
  · exact fun c hc => nomatch hc
  · exact h.supported
  · unfold pairSymbol PairSpelling.text
    simp only [upper_append, hupper]

theorem tradeExecutionKey_of_canonical (h : Spells base quote spelling s)
    (hname : normalizeStrategySymbol s = pairSymbol base quote)
    (userId credentialId : ℤ) (marketType : String) :
    tradeExecutionKey userId credentialId marketType s =
      tradeExecutionKey userId credentialId marketType (pairSymbol base quote) := by
  have hself : normalizeStrategySymbol (pairSymbol base quote) =
      pairSymbol base quote := h.slash.canonical_of_slash rfl
  have hne : pairSymbol base quote ≠ "" := by
    rw [pairSymbol_eq]
    intro hempty
    have hnil := String.toList_inj.2 hempty
    rw [String.toList_ofList] at hnil
    exact absurd hnil (by simp)
  unfold tradeExecutionKey
  simp only [hname, hself, textOrElse, if_neg hne]

/-- A symbol is known as its base and quote exactly when it is spelled with a slash, or its base is
not empty and its quote is not `BUSD`. -/
theorem spelling_kept_iff {base quote s : String} {spelling : PairSpelling}
    (h : Spells base quote spelling s) :
    OneInstrument base quote s ↔
      spelling.slashed = true ∨ (base ≠ "" ∧ quote ≠ "BUSD") := by
  have hname : normalizeStrategySymbol s = pairSymbol base quote ↔
      spelling.slashed = true ∨ (base ≠ "" ∧ quote ≠ "BUSD") := by
    cases hslash : spelling.slashed with
    | true => exact iff_of_true (h.canonical_of_slash hslash) (Or.inl rfl)
    | false =>
      rw [h.canonical_of_compact hslash]
      exact ⟨Or.inr, fun hor => hor.resolve_left Bool.false_ne_true⟩
  rw [← hname]
  constructor
  · exact OneInstrument.canonical
  · intro hcanonical
    exact ⟨hcanonical, normalize_normalize h.no_space, tradeExecutionKey_of_canonical h hcanonical⟩

theorem hyphenated_kept : OneInstrument "btc" "USDT" "Btc-usdt" := by
  have hspells : Spells "btc" "USDT" .hyphen "Btc-usdt" := by
    constructor
    · unfold Alphanumeric
      simp
    · exact fun c hc => nomatch hc
    · decide
    · decide
  exact (spelling_kept_iff hspells).2 (Or.inr ⟨by decide, by decide⟩)

/-- `BTCBUSD` becomes `BTCB/USD`. -/
theorem compact_busd_split :
    ¬ ∀ (base quote s : String) (spelling : PairSpelling), base ≠ "" →
      (∀ tail ∈ quoteSuffixes, endsWith (upper base) tail = false) →
      Spells base quote spelling s → OneInstrument base quote s := by
  intro hall
  have hspells : Spells "BTC" "BUSD" .compact "BTCBUSD" := by
    constructor
    · unfold Alphanumeric
      simp
    · exact fun c hc => nomatch hc
    · decide
    · decide
  have hone := hall "BTC" "BUSD" "BTCBUSD" .compact (by decide) (by decide) hspells
  exact absurd hone.canonical (by decide)

end

end QuantDinger.Analysis
