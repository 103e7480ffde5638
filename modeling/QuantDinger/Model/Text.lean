import Mathlib.Data.Rat.Floor
import Mathlib.Tactic

/-!
# Text and frequencies

The string operations the runtime applies to client order ids, symbols, option
names and frequencies (`str.strip`, `str.lower`, `startswith`, `endswith`, `split`),
on code points, and the frequency table of `frequencies.py`.
-/

namespace QuantDinger.Model

/-- An instant: nanoseconds since the epoch, as `pd.Timestamp` counts them. -/
abbrev Time := ℤ

/-- An exact quantity, price or amount of money. -/
abbrev Amount := ℚ

/-- A resolved instrument key, e.g. `Crypto:BTC/USDT@swap`. -/
abbrev Symbol := String

/-- An exception raised by the runtime, by class, with its text. -/
inductive StrategyError
  | data (message : String)
  | contract (message : String)
  | parse (message : String)
  | type (message : String)
  deriving DecidableEq, Repr

/-! ## Strings -/

/-- The code points `str.strip` removes. -/
def isSpace (c : Char) : Bool :=
  let n := c.toNat
  (9 ≤ n && n ≤ 13) || (28 ≤ n && n ≤ 32) || n == 133 || n == 160 || n == 5760 ||
    (8192 ≤ n && n ≤ 8202) || n == 8232 || n == 8233 || n == 8239 || n == 8287 || n == 12288

/-- `str.strip`. -/
def strip (s : String) : String :=
  String.ofList ((s.toList.dropWhile isSpace).reverse.dropWhile isSpace).reverse

/-- `str.lower` on one code point. The Kelvin sign is the only code point outside
`A`-`Z` whose lower case is an ASCII letter. -/
def lowerChar (c : Char) : Char := if c.toNat = 0x212A then 'k' else c.toLower

/-- `str.lower`. -/
def lower (s : String) : String := String.ofList (s.toList.map lowerChar)

/-- `str.upper`. -/
def upper (s : String) : String := String.ofList (s.toList.map Char.toUpper)

/-- `str.startswith`. -/
def startsWith (s head : String) : Bool := head.toList.isPrefixOf s.toList

/-- `str.endswith`. -/
def endsWith (s tail : String) : Bool := tail.toList.isSuffixOf s.toList

/-- `s.split(c, 1)[0]`. -/
def beforeFirst (c : Char) (s : String) : String := String.ofList (s.toList.takeWhile (· ≠ c))

/-- `s.split(c, 1)[-1]`. -/
def afterFirst (c : Char) (s : String) : String :=
  if c ∈ s.toList then String.ofList ((s.toList.dropWhile (· ≠ c)).drop 1) else s

/-- `s.rsplit(c, 1)[-1]`. -/
def afterLast (c : Char) (s : String) : String :=
  String.ofList (s.toList.reverse.takeWhile (· ≠ c)).reverse

/-- `s[:n]`. -/
def truncate (n : ℕ) (s : String) : String := String.ofList (s.toList.take n)

/-- `s.split(c)`. -/
def splitOn (c : Char) (s : String) : List String :=
  (s.toList.splitOn c).map String.ofList

/-- `str.replace` of the two code points `a b` by `r`. -/
def replacePair (a b : Char) (r : List Char) : List Char → List Char
  | x :: y :: l => if x = a ∧ y = b then r ++ replacePair a b r l else x :: replacePair a b r (y :: l)
  | l => l

/-- `int(s)`: an optional sign and decimal digits, blanks around them. Digit groups
with underscores are accepted by Python too; the runtime never writes them. -/
def parseInt (s : String) : Option ℤ :=
  let digits (l : List Char) : Option ℤ :=
    if l ≠ [] ∧ l.all Char.isDigit then
      some (l.foldl (fun n c => 10 * n + (c.toNat - '0'.toNat : ℕ)) (0 : ℤ))
    else none
  match (strip s).toList with
  | '-' :: l => (digits l).map (- ·)
  | '+' :: l => digits l
  | l => digits l

/-! ## Frequencies -/

/-- `FREQUENCY_SECONDS`.
SOURCE: frequencies.py:8-19 -/
def frequencyTable : List (String × ℤ) :=
  [("1m", 60), ("3m", 180), ("5m", 300), ("15m", 900), ("30m", 1800), ("1h", 3600),
    ("4h", 14400), ("1d", 86400), ("1w", 604800), ("1mo", 2592000)]

/-- `_ALIASES`.
SOURCE: frequencies.py:33-51 -/
def frequencyAliases : List (String × String) :=
  [("daily", "1d"), ("day", "1d"), ("d", "1d"), ("1day", "1d"), ("weekly", "1w"), ("week", "1w"),
    ("w", "1w"), ("1week", "1w"), ("1wk", "1w"), ("monthly", "1mo"), ("month", "1mo"),
    ("1month", "1mo"), ("m1", "1m"), ("h1", "1h"), ("d1", "1d"), ("w1", "1w")]

/-- `normalize_frequency(value, default)`.
SOURCE: frequencies.py:54-56 -/
def normalizeFrequency (value : Option String) (fallback : String) : String :=
  let given := match value with
    | some v => if v = "" then fallback else v
    | none => fallback
  let raw := String.ofList
    (replacePair '小' '时' ['h'] (replacePair '分' '钟' ['m'] (lower (strip given)).toList))
  match frequencyAliases.lookup raw with
  | some canonical => canonical
  | none => if raw = "" then fallback else raw

/-- `frequency_seconds(value)`.
SOURCE: frequencies.py:59-60 -/
def frequencySeconds (value : String) : ℤ :=
  (frequencyTable.lookup (normalizeFrequency (some value) "1d")).getD 86400

/-- `pd.Timedelta(seconds=n)`. -/
def seconds (n : ℤ) : Time := n * 1000000000

theorem frequencySeconds_pos (value : String) : 0 < frequencySeconds value := by
  unfold frequencySeconds
  generalize normalizeFrequency (some value) "1d" = name
  cases h : frequencyTable.lookup name with
  | none => simp
  | some n =>
    have hmem : ∀ l : List (String × ℤ), (∀ e ∈ l, 0 < e.2) → ∀ n, l.lookup name = some n → 0 < n := by
      intro l hl n hn
      induction l with
      | nil => simp at hn
      | cons e l ih =>
        rw [List.lookup_cons] at hn
        split at hn
        · cases hn
          exact hl e (by simp)
        · exact ih (fun x hx => hl x (List.mem_cons_of_mem _ hx)) hn
    exact hmem frequencyTable (by decide) n h

end QuantDinger.Model
