import QuantDinger.Analysis.SymbolNames
import QuantDinger.Library.Outcomes
import QuantDinger.Library.Trimming
import QuantDinger.Model.BarRecovery

/-!
# Routes read off partition keys

The parts of a partition key are trimmed and in lower case, so that making a part of them again
changes nothing, and of them only the instrument can contain a colon. So the route that is parsed
off the key of a stream has the venue, the market and the instrument of the key, in lower case, and
its events carry the partition key and the event id of the stream's own.
-/

namespace QuantDinger.Analysis

open QuantDinger.Library
open QuantDinger.Model
open QuantDinger.Model.Events

/-! ## Parts -/

theorem lowerChar_cases (c : Char) :
    (c.isAlpha = true ∧ lowerChar c = c.toLower) ∨ (c.toNat = 0x212A ∧ lowerChar c = 'k') ∨
      (c.isAlpha = false ∧ c.toNat ≠ 0x212A ∧ lowerChar c = c) := by
  by_cases hkelvin : c.toNat = 0x212A
  · exact Or.inr (Or.inl ⟨hkelvin, if_pos hkelvin⟩)
  · cases halpha : c.isAlpha with
    | true => exact Or.inl ⟨rfl, if_neg hkelvin⟩
    | false =>
      refine Or.inr (Or.inr ⟨rfl, hkelvin, (if_neg hkelvin).trans ?_⟩)
      refine Char.toLower_eq_of_not_isUpper ?_
      intro hupper
      unfold Char.isAlpha at halpha
      rw [hupper, Bool.true_or] at halpha
      exact nomatch halpha

theorem isAlpha_toLower {c : Char} (h : c.isAlpha = true) : c.toLower.isAlpha = true := by
  rw [Char.isAlpha_toLower_eq_isAlpha, h]

theorem isSpace_lowerChar (c : Char) : isSpace (lowerChar c) = isSpace c := by
  rcases lowerChar_cases c with ⟨halpha, hlower⟩ | ⟨hkelvin, hlower⟩ | ⟨-, -, hlower⟩
  · rw [hlower, isSpace_of_isAlpha halpha, isSpace_of_isAlpha (isAlpha_toLower halpha)]
  · rw [hlower]
    unfold isSpace
    rw [hkelvin]
    decide
  · rw [hlower]

theorem lowerChar_lowerChar (c : Char) : lowerChar (lowerChar c) = lowerChar c := by
  rcases lowerChar_cases c with ⟨halpha, hlower⟩ | ⟨-, hlower⟩ | ⟨-, -, hlower⟩
  · rw [hlower]
    rcases lowerChar_cases c.toLower with ⟨-, hagain⟩ | ⟨hkelvin, -⟩ | ⟨hnot, -⟩
    · rw [hagain, Char.toLower_toLower_eq_toLower]
    · have hletter := isAlpha_toLower halpha
      simp only [Char.isAlpha, Char.isUpper, Char.isLower, Bool.or_eq_true, Bool.and_eq_true,
        decide_eq_true_eq, UInt32.le_iff_toNat_le] at hletter
      have hcode : c.toLower.val.toNat = 0x212A := hkelvin
      rw [hcode] at hletter
      exact absurd hletter (by decide)
    · rw [isAlpha_toLower halpha] at hnot
      exact nomatch hnot
  · rw [hlower]
    decide
  · rw [hlower, hlower]

theorem lowerChar_eq_colon {c : Char} (h : lowerChar c = ':') : c = ':' := by
  rcases lowerChar_cases c with ⟨halpha, hlower⟩ | ⟨-, hlower⟩ | ⟨-, -, hlower⟩
  · have hletter := isAlpha_toLower halpha
    rw [← hlower, h] at hletter
    exact nomatch hletter
  · rw [hlower] at h
    exact absurd h (by decide)
  · rw [← hlower, h]

theorem strip_eq_trim (s : String) : strip s = String.ofList (trim isSpace s.toList) := rfl

theorem trimmed_of_strip {s : String} (h : strip s = s) : Trimmed isSpace s.toList := by
  rw [← h, strip_eq_trim, String.toList_ofList]
  exact trimmed_trim _ _

/-- A part of a partition key: trimmed, in lower case and not empty. -/
structure KeyPart (s : String) : Prop where
  trimmed : Trimmed isSpace s.toList
  lowered : lower s = s
  some : s ≠ ""

theorem KeyPart.strip {s : String} (h : KeyPart s) : strip s = s := by
  rw [strip_eq_trim, h.trimmed.trim_eq, String.ofList_toList]

theorem KeyPart.part {s : String} (h : KeyPart s) : part s = .ok s := by
  unfold Events.part required
  rw [h.strip]
  dsimp only
  rw [if_neg h.some]
  show Except.ok (lower (Model.strip s)) = _
  rw [h.strip, h.lowered]

theorem keyPart_of_part {value s : String} (h : part value = .ok s) :
    KeyPart s ∧ (':' ∉ value.toList → ':' ∉ s.toList) := by
  unfold Events.part at h
  obtain ⟨normalized, hrequired, hlower⟩ := bind_ok_iff.mp h
  rw [← Except.ok.inj hlower]
  clear h hlower
  unfold required at hrequired
  dsimp only at hrequired
  split_ifs at hrequired with hempty
  cases hrequired
  have htrimmed : Trimmed isSpace (Model.strip value).toList := by
    rw [strip_eq_trim, String.toList_ofList]
    exact trimmed_trim _ _
  have hagain : Model.strip (Model.strip value) = Model.strip value := by
    rw [strip_eq_trim (Model.strip value), htrimmed.trim_eq, String.ofList_toList]
  rw [hagain]
  refine ⟨⟨?_, ?_, ?_⟩, ?_⟩
  · unfold lower
    rw [String.toList_ofList]
    exact htrimmed.map isSpace_lowerChar
  · unfold lower
    rw [String.toList_ofList, List.map_map]
    exact congrArg String.ofList (List.map_congr_left fun c _ => lowerChar_lowerChar c)
  · intro hnone
    refine hempty ?_
    unfold lower at hnone
    rw [← String.ofList_toList (s := Model.strip value)]
    rw [← String.ofList_nil, String.ofList_inj, List.map_eq_nil_iff] at hnone
    rw [hnone]
  · intro hcolon hmem
    unfold lower at hmem
    rw [String.toList_ofList] at hmem
    obtain ⟨c, hc, hcolon'⟩ := List.mem_map.mp hmem
    rw [lowerChar_eq_colon hcolon', strip_eq_trim, String.toList_ofList] at hc
    exact hcolon (mem_of_mem_trim hc)

/-! ## Keys -/

/-- `SUPPORTED_SUBSCRIPTION_FREQUENCIES`.
SOURCE: frequencies.py:21-31 -/
def supportedFrequencies : List String :=
  ["1m", "3m", "5m", "15m", "30m", "1h", "4h", "1d", "1w"]

theorem supported_frequency {timeframe : String} (h : timeframe ∈ supportedFrequencies) :
    strip timeframe = timeframe ∧ lower timeframe = timeframe ∧ timeframe ≠ "" ∧
      ':' ∉ timeframe.toList ∧ normalizeFrequency (some timeframe) "1d" = timeframe := by
  revert timeframe
  decide +kernel

theorem timeframeSeconds_supported {timeframe : String} (h : timeframe ∈ supportedFrequencies) :
    timeframeSeconds timeframe = .ok (frequencySeconds timeframe) := by
  revert timeframe
  decide +kernel

theorem exists_candleOrigin {timeframe : String} (h : timeframe ∈ supportedFrequencies)
    (venue marketType : String) : ∃ origin, candleOrigin timeframe venue marketType = .ok origin := by
  unfold candleOrigin
  rw [timeframeSeconds_supported h]
  generalize frequencySeconds timeframe = seconds
  dsimp only [bind, Except.bind]
  split_ifs
  all_goals exact ⟨_, rfl⟩

theorem joinColon_splitOn (s : String) : joinColon (splitOn ':' s) = s := by
  unfold splitOn joinColon
  rw [List.map_map]
  have hid : (String.toList ∘ String.ofList) = id := funext fun _ => String.toList_ofList
  rw [hid, List.map_id, List.intercalate_splitOn, String.ofList_toList]

theorem toList_key (venue market marketType instrumentId timeframe : String) :
    (joinColon ["bar", venue, market, marketType, instrumentId, timeframe]).toList =
      "bar".toList ++ ':' :: (venue.toList ++ ':' :: (market.toList ++ ':' ::
        (marketType.toList ++ ':' :: (instrumentId.toList ++ ':' :: timeframe.toList)))) := by
  simp only [joinColon, String.toList_ofList, List.map_cons, List.map_nil,
    List.intercalate_cons_cons, List.intercalate_singleton, List.append_assoc,
    List.singleton_append]

theorem splitOn_key {venue market marketType instrumentId timeframe : String}
    (hvenue : ':' ∉ venue.toList) (hmarket : ':' ∉ market.toList)
    (htype : ':' ∉ marketType.toList) (htimeframe : ':' ∉ timeframe.toList) :
    splitOn ':' (joinColon ["bar", venue, market, marketType, instrumentId, timeframe]) =
      ["bar", venue, market, marketType] ++ splitOn ':' instrumentId ++ [timeframe] := by
  have hsingle : ∀ {s : String}, ':' ∉ s.toList → (s.toList.splitOn ':').map String.ofList = [s] := by
    intro s hs
    rw [List.splitOn_eq_singleton hs, List.map_singleton, String.ofList_toList]
  unfold splitOn
  rw [toList_key]
  simp only [List.splitOn_append_cons_self, List.map_append]
  rw [hsingle hvenue, hsingle hmarket, hsingle htype, hsingle htimeframe]
  have hbar : ("bar".toList.splitOn ':').map String.ofList = ["bar"] := hsingle (by decide)
  rw [hbar]
  simp only [List.cons_append, List.nil_append]

/-! ## The route of a stream -/

theorem part_canonicalMarket {market : String} (h : KeyPart market) :
    part ((canonicalMarkets.lookup market).getD market) = .ok market := by
  cases hlookup : canonicalMarkets.lookup market with
  | none => exact h.part
  | some name =>
    obtain ⟨before, after, hsplit, -⟩ := List.lookup_eq_some_iff.mp hlookup
    have hnames : ∀ entry ∈ canonicalMarkets, part entry.2 = .ok entry.1 := by decide +kernel
    refine hnames (market, name) ?_
    rw [hsplit]
    exact List.mem_append_right _ List.mem_cons_self

def routeOf (key venue market marketType instrumentId timeframe : String) : BarRecoveryRoute where
  partitionKey := key
  venue := venue
  market := (canonicalMarkets.lookup market).getD market
  marketType := marketType
  instrumentId := instrumentId
  timeframe := timeframe

theorem parse_key {venue market marketType instrumentId timeframe : String} (given : String)
    (hvenue : KeyPart venue ∧ ':' ∉ venue.toList) (hmarket : KeyPart market ∧ ':' ∉ market.toList)
    (htype : KeyPart marketType ∧ ':' ∉ marketType.toList) (hinstrument : KeyPart instrumentId)
    (htimeframe : timeframe ∈ supportedFrequencies) :
    let key := joinColon ["bar", venue, market, marketType, instrumentId, timeframe]
    strip key = key ∧ key ≠ "" ∧
      BarRecoveryRoute.parse key given =
        if normalizeFrequency (some (strip (if given = "" then timeframe else given))) "1d" =
            timeframe then
          .ok (routeOf key venue market marketType instrumentId timeframe)
        else .error "strategyBarRecovery.timeframeMismatch" := by
  obtain ⟨hstrip, hlower, hsome, hcolon, hnormal⟩ := supported_frequency htimeframe
  intro key
  have htrim : Trimmed isSpace key.toList := by
    have hends : key.toList = "bar".toList ++ ((':' :: (venue.toList ++ ':' :: (market.toList ++
        ':' :: (marketType.toList ++ ':' :: (instrumentId.toList ++ [':']))))) ++
          timeframe.toList) := by
      rw [toList_key]
      simp only [List.append_assoc, List.cons_append, List.nil_append]
    have hbar : strip "bar" = "bar" := by decide +kernel
    rw [hends]
    refine Trimmed.enclose (trimmed_of_strip hbar) (trimmed_of_strip hstrip) (by decide) ?_ _
    intro hnil
    exact hsome (String.toList_eq_nil_iff.mp hnil)
  have hkey : strip key = key := by
    rw [strip_eq_trim, htrim.trim_eq, String.ofList_toList]
  have hsplit : splitOn ':' key =
      ["bar", venue, market, marketType] ++ splitOn ':' instrumentId ++ [timeframe] :=
    splitOn_key hvenue.2 hmarket.2 htype.2 hcolon
  refine ⟨hkey, ?_, ?_⟩
  · intro hnone
    have hlist := congrArg String.toList hnone
    rw [toList_key] at hlist
    exact nomatch hlist
  · have hparts : splitOn ':' instrumentId ≠ [] := by
      unfold splitOn
      rw [Ne, List.map_eq_nil_iff]
      exact List.splitOn_ne_nil ':' _
    have hlength : ¬((splitOn ':' key).length < 6 ∨ lower ((splitOn ':' key).getD 0 "") ≠ "bar") := by
      have hcount := List.length_pos_iff.mpr hparts
      have hbar : lower ((splitOn ':' key).getD 0 "") = "bar" := by
        rw [hsplit]
        exact (by decide +kernel : lower "bar" = "bar")
      rw [not_or, not_not, hsplit, List.length_append, List.length_append, ← hsplit]
      refine ⟨?_, hbar⟩
      simp only [List.length_cons, List.length_nil]
      omega
    have hlast : (splitOn ':' key).getLastD "" = timeframe := by
      rw [hsplit]
      exact List.getLastD_concat
    have hinstrumentParts : ((splitOn ':' key).drop 4).dropLast = splitOn ':' instrumentId := by
      rw [hsplit, List.append_assoc]
      exact List.dropLast_concat
    have hfields : (splitOn ':' key).getD 1 "" = venue ∧ (splitOn ':' key).getD 2 "" = market ∧
        (splitOn ':' key).getD 3 "" = marketType := by
      rw [hsplit]
      exact ⟨rfl, rfl, rfl⟩
    unfold BarRecoveryRoute.parse
    rw [hkey]
    dsimp only
    rw [if_neg hlength, hlast, hnormal, hinstrumentParts, joinColon_splitOn, hinstrument.strip,
      if_neg hinstrument.some, hfields.1, hfields.2.1, hfields.2.2, hvenue.1.strip,
      hvenue.1.lowered, hmarket.1.strip, hmarket.1.lowered, htype.1.strip, htype.1.lowered]
    by_cases hsame : normalizeFrequency (some (strip (if given = "" then timeframe else given)))
        "1d" = timeframe
    · rw [if_neg (not_not.mpr hsame.symm), if_pos hsame, hsame]
      rfl
    · rw [if_pos (Ne.symm hsame), if_neg hsame]

/-! ## Events of a stream and of its route -/

theorem barPartitionKey_ok {venue market marketType instrumentId timeframe key : String} :
    barPartitionKey venue market marketType instrumentId timeframe = .ok key ↔
      ∃ v, part venue = .ok v ∧ ∃ m, part market = .ok m ∧ ∃ t, part marketType = .ok t ∧
        ∃ i, part instrumentId = .ok i ∧ ∃ f, part timeframe = .ok f ∧
          joinColon ["bar", v, m, t, i, f] = key := by
  unfold barPartitionKey
  simp only [bind_ok_iff, pure, Except.pure, Except.ok.injEq]

theorem barClosed_ok {uuid5 : String → String}
    {venue market marketType instrumentId symbol timeframe : String} {token : ℤ} {closedAt : Time}
    {event : BarEvent}
    (h : barClosed uuid5 venue market marketType instrumentId symbol timeframe token closedAt =
      .ok event) :
    barPartitionKey venue market marketType instrumentId timeframe = .ok event.partitionKey ∧
      event.eventId = uuid5 (event.partitionKey ++ ":" ++ toString token) ∧
      event.payload.closedBarToken = token := by
  unfold barClosed at h
  obtain ⟨key, hkey, h⟩ := bind_ok_iff.mp h
  obtain ⟨_, -, h⟩ := bind_ok_iff.mp h
  obtain ⟨_, -, h⟩ := bind_ok_iff.mp h
  obtain ⟨_, -, h⟩ := bind_ok_iff.mp h
  obtain ⟨_, -, h⟩ := bind_ok_iff.mp h
  obtain ⟨_, -, h⟩ := bind_ok_iff.mp h
  obtain ⟨_, -, h⟩ := bind_ok_iff.mp h
  cases h
  exact ⟨hkey, rfl, rfl⟩

theorem required_of_part {value s : String} (h : part value = .ok s) (field : String) :
    required value field = .ok (strip value) := by
  unfold Events.part at h
  obtain ⟨normalized, hrequired, -⟩ := bind_ok_iff.mp h
  unfold required at hrequired ⊢
  dsimp only at hrequired ⊢
  split_ifs at hrequired with hempty
  rw [if_neg hempty]

theorem exists_barClosed (uuid5 : String → String)
    {venue market marketType instrumentId symbol timeframe v m t i s f : String} (token : ℤ)
    (closedAt : Time) (hvenue : part venue = .ok v) (hmarket : part market = .ok m)
    (htype : part marketType = .ok t) (hinstrument : part instrumentId = .ok i)
    (hsymbol : part symbol = .ok s) (htimeframe : part timeframe = .ok f) :
    ∃ event, barClosed uuid5 venue market marketType instrumentId symbol timeframe token closedAt =
      .ok event := by
  have hkey : barPartitionKey venue market marketType instrumentId timeframe =
      .ok (joinColon ["bar", v, m, t, i, f]) :=
    barPartitionKey_ok.mpr ⟨v, hvenue, m, hmarket, t, htype, i, hinstrument, f, htimeframe, rfl⟩
  refine ⟨_, bind_ok_iff.mpr ⟨_, hkey, bind_ok_iff.mpr ⟨v, hvenue, bind_ok_iff.mpr
    ⟨_, required_of_part hmarket _, bind_ok_iff.mpr ⟨t, htype, bind_ok_iff.mpr
    ⟨_, required_of_part hinstrument _, bind_ok_iff.mpr ⟨_, required_of_part hsymbol _,
      bind_ok_iff.mpr ⟨_, required_of_part htimeframe _, rfl⟩⟩⟩⟩⟩⟩⟩⟩

/-- A stream whose key is read unambiguously: only its instrument may contain a colon, and its
timeframe is one that strategies subscribe to. -/
structure Readable (stream : BarStreamKey) : Prop where
  venue : ':' ∉ stream.venue.toList
  market : ':' ∉ stream.market.toList
  marketType : ':' ∉ stream.marketType.toList
  timeframe : stream.timeframe ∈ supportedFrequencies

instance (stream : BarStreamKey) : Decidable (Readable stream) :=
  decidable_of_iff ((':' ∉ stream.venue.toList ∧ ':' ∉ stream.market.toList) ∧
      ':' ∉ stream.marketType.toList ∧ stream.timeframe ∈ supportedFrequencies)
    ⟨fun h => ⟨h.1.1, h.1.2, h.2.1, h.2.2⟩, fun h => ⟨⟨h.venue, h.market⟩, h.marketType, h.timeframe⟩⟩

/-- The route rebuilds the events under the key. -/
structure Rebuilds (key : String) (route : BarRecoveryRoute) : Prop where
  stripped : strip key = key
  some : key ≠ ""
  parsed : ∀ {timeframe found}, BarRecoveryRoute.parse key timeframe = .ok found → found = route
  own : BarRecoveryRoute.parse key route.timeframe = .ok route
  event : ∀ (uuid5 : String → String) (token : ℤ), ∃ event, route.event uuid5 token = .ok event ∧
    event.partitionKey = key ∧ event.eventId = uuid5 (key ++ ":" ++ toString token) ∧
    event.payload.closedBarToken = token

theorem rebuilds_of_readable {stream : BarStreamKey} (hreadable : Readable stream) {key : String}
    (hkey : stream.partitionKey = .ok key) :
    ∃ route, Rebuilds key route ∧ route.timeframe = stream.timeframe ∧
      BarRecoveryRoute.parse key "" = .ok route := by
  obtain ⟨hstrip, hlower, hsome, hcolon, hnormal⟩ := supported_frequency hreadable.timeframe
  obtain ⟨v, hv, m, hm, t, ht, i, hi, f, hf, rfl⟩ := barPartitionKey_ok.mp hkey
  have hframe : KeyPart stream.timeframe := ⟨trimmed_of_strip hstrip, hlower, hsome⟩
  rw [hframe.part] at hf
  cases hf
  obtain ⟨hvenue, hvenueFree⟩ := keyPart_of_part hv
  obtain ⟨hmarket, hmarketFree⟩ := keyPart_of_part hm
  obtain ⟨htype, htypeFree⟩ := keyPart_of_part ht
  obtain ⟨hinstrument, -⟩ := keyPart_of_part hi
  have hparse := fun given : String => parse_key given ⟨hvenue, hvenueFree hreadable.venue⟩
    ⟨hmarket, hmarketFree hreadable.market⟩ ⟨htype, htypeFree hreadable.marketType⟩ hinstrument
    hreadable.timeframe
  have hown : ∀ given, given = "" ∨ given = stream.timeframe →
      normalizeFrequency (some (strip (if given = "" then stream.timeframe else given))) "1d" =
        stream.timeframe := by
    rintro given (rfl | rfl)
    · rw [if_pos rfl, hstrip, hnormal]
    · rw [if_neg hsome, hstrip, hnormal]
  refine ⟨routeOf (joinColon ["bar", v, m, t, i, stream.timeframe]) v m t i stream.timeframe,
    ⟨(hparse "").1, (hparse "").2.1, ?_, ?_, ?_⟩, rfl, ?_⟩
  · intro timeframe found hfound
    rw [(hparse timeframe).2.2] at hfound
    by_cases hsame : normalizeFrequency
        (some (strip (if timeframe = "" then stream.timeframe else timeframe))) "1d" =
          stream.timeframe
    · rw [if_pos hsame] at hfound
      exact (Except.ok.inj hfound).symm
    · rw [if_neg hsame] at hfound
      exact nomatch hfound
  · rw [(hparse _).2.2]
    exact if_pos (hown _ (Or.inr rfl))
  · intro uuid5 token
    obtain ⟨origin, horigin⟩ := exists_candleOrigin hreadable.timeframe v t
    have hclose : completedBarClose stream.timeframe token v t =
        .ok (((token + 1) * frequencySeconds stream.timeframe + origin) * Live.oneSecond) :=
      bind_ok_iff.mpr ⟨origin, horigin, rfl⟩
    have hcanonical := part_canonicalMarket hmarket
    obtain ⟨event, hevent⟩ := exists_barClosed uuid5 token _ hvenue.part hcanonical htype.part
      hinstrument.part hinstrument.part hframe.part
    refine ⟨event, bind_ok_iff.mpr ⟨_, hclose, hevent⟩, ?_⟩
    obtain ⟨hrebuilt, hid, htoken⟩ := barClosed_ok hevent
    obtain ⟨_, hv', _, hm', _, ht', _, hi', _, hf', hjoin⟩ := barPartitionKey_ok.mp hrebuilt
    rw [hvenue.part] at hv'
    rw [hcanonical] at hm'
    rw [htype.part] at ht'
    rw [hinstrument.part] at hi'
    rw [hframe.part] at hf'
    cases hv'
    cases hm'
    cases ht'
    cases hi'
    cases hf'
    rw [hjoin]
    exact ⟨rfl, hid, htoken⟩
  · rw [(hparse _).2.2]
    exact if_pos (hown _ (Or.inl rfl))

end QuantDinger.Analysis
