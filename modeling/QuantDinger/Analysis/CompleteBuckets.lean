import QuantDinger.Analysis.Resampling
import QuantDinger.Library.Outcomes

/-!
# Complete buckets of any rows

A row is admitted where it overlaps a trading segment, but goes to the bar its stamp lies in. A row
off the grid that starts in the break and reaches past it may lie in a bar that overlaps no
segment: nothing is expected there, and the empty chunk has no first row. Without such rows
resampling returns exactly the complete bars (`resample_complete_iff`).
-/

namespace QuantDinger.Analysis

open QuantDinger.Library QuantDinger.Model QuantDinger.Model.Equity

/-! ## Complete bars -/

/-- A source bar of a bucket: an interval of the source length on the bucket's grid that overlaps a
trading segment. -/
def SourceBar (session : Session) (source target key stamp : ℤ) : Prop :=
  key ≤ stamp ∧ stamp < key + target ∧ source ∣ stamp - key ∧
    ∃ segment ∈ session.segments, stamp < segment.2 ∧ segment.1 < stamp + source

/-- The bar of a bucket that overlaps a trading segment, all of whose source bars are present: the
summary of exactly their rows, in the order of their stamps. -/
def IsCompleteBar (roundVolume : ℚ → ℚ) (calendar : ExchangeCalendar) (source target : ℤ)
    (rows : List Kline) (bar : Kline) : Prop :=
  ∃ session ∈ calendar.sessions, OnGrid session target bar.time ∧
    (∃ segment ∈ session.segments, bar.time < segment.2 ∧ segment.1 < bar.time + target) ∧
    ∃ chunk : List Kline, (chunk.map Kline.time).Pairwise (· < ·) ∧
      (∀ stamp, stamp ∈ chunk.map Kline.time ↔ SourceBar session source target bar.time stamp) ∧
      (∀ row ∈ chunk, latest rows row.time = some row) ∧
      mergeChunk roundVolume bar.time chunk = .ok bar

/-- Resampling returns the complete bars, in the order of time, and no other bar. -/
def ResamplesExactly (roundVolume : ℚ → ℚ) (calendars : String → ExchangeCalendar)
    (calendar : ExchangeCalendar) (market : String) (source target : ℤ) (rows : List Kline) :
    Prop :=
  ∃ out, resampleEquityKlines roundVolume calendars rows market source target = .ok out ∧
    (out.Pairwise fun earlier later => earlier.time < later.time) ∧
    ∀ bar, bar ∈ out ↔ IsCompleteBar roundVolume calendar source target rows bar

/-! ## Rounded volumes -/

def Kline.rounded (roundVolume : ℚ → ℚ) (row : Kline) : Kline :=
  { row with volume := row.volume.map roundVolume }

section

variable {roundVolume : ℚ → ℚ} {key : ℤ} {chunk : List Kline}

theorem mergeChunk_rounded (roundVolume : ℚ → ℚ) (key : ℤ) (chunk : List Kline) :
    mergeChunk roundVolume key chunk =
      (mergeChunk id key chunk).map (Kline.rounded roundVolume) := by
  unfold mergeChunk
  split <;> rfl

theorem foldlM_rounded {keys : List ℤ} {step rounded : List Kline → ℤ →
      Except ScheduleError (List Kline)}
    (h : ∀ acc key, rounded (acc.map (Kline.rounded roundVolume)) key =
      (step acc key).map (List.map (Kline.rounded roundVolume))) (acc : List Kline) :
    keys.foldlM rounded (acc.map (Kline.rounded roundVolume)) =
      (keys.foldlM step acc).map (List.map (Kline.rounded roundVolume)) := by
  induction keys generalizing acc with
  | nil => rfl
  | cons key keys ih =>
    rw [List.foldlM_cons, List.foldlM_cons, h]
    cases step acc key with
    | error exception => rfl
    | ok next => exact ih next

theorem merged_rounded (state : Buckets) :
    state.merged roundVolume =
      (state.merged id).map (List.map (Kline.rounded roundVolume)) := by
  unfold Buckets.merged
  refine foldlM_rounded (fun acc key => ?_) []
  dsimp only
  split_ifs with hsubset
  · rw [mergeChunk_rounded]
    cases mergeChunk id key _ with
    | error exception => rfl
    | ok row =>
      change Except.ok _ = Except.ok _
      rw [List.map_append]
      rfl
  · rfl

end

/-! ## Candles -/

section

variable {session : Session} {source target key stamp : ℤ} {rows : List Kline}

theorem mem_expectedAt_iff_sourceBar (hsource : 0 < source) :
    stamp ∈ expectedAt session source target key ↔ SourceBar session source target key stamp := by
  rw [mem_expectedAt_iff hsource]
  constructor
  · rintro ⟨hle, hlt, -, hdvd, hoverlap⟩
    exact ⟨hle, hlt, hdvd, hoverlap⟩
  · rintro ⟨hle, hlt, hdvd, segment, hsegment, hend, hstart⟩
    exact ⟨hle, hlt, hend.trans_le (segments_within hsegment).2.2, hdvd, segment, hsegment, hend,
      hstart⟩

theorem filterMap_latest {chunk : List Kline} (h : ∀ row ∈ chunk, latest rows row.time = some row) :
    (chunk.map Kline.time).filterMap (latest rows) = chunk := by
  induction chunk with
  | nil => rfl
  | cons row chunk ih =>
    rw [List.forall_mem_cons] at h
    rw [List.map_cons, List.filterMap_cons_some h.1, ih h.2]

theorem map_time_latest {stamps : List ℤ} (h : ∀ stamp ∈ stamps, (latest rows stamp).isSome) :
    (stamps.filterMap (latest rows)).map Kline.time = stamps := by
  induction stamps with
  | nil => rfl
  | cons stamp stamps ih =>
    rw [List.forall_mem_cons] at h
    obtain ⟨row, hrow⟩ := Option.isSome_iff_exists.mp h.1
    rw [List.filterMap_cons_some hrow, List.map_cons, latest_time hrow, ih h.2]

theorem stamps_eq {stamps stamps' : List ℤ} (h : stamps.Pairwise (· < ·))
    (h' : stamps'.Pairwise (· < ·)) (hmem : ∀ stamp, stamp ∈ stamps ↔ stamp ∈ stamps') :
    stamps = stamps' :=
  List.Pairwise.eq_of_mem_iff h h' hmem

theorem isCompleteBar_iff {roundVolume : ℚ → ℚ} {calendar : ExchangeCalendar}
    (hsource : 0 < source) (htarget : 0 < target) (hdvd : source ∣ target) {bar : Kline} :
    IsCompleteBar roundVolume calendar source target rows bar ↔
      ∃ candle, IsCandle calendar source target rows candle ∧
        Kline.rounded roundVolume candle = bar := by
  constructor
  · rintro ⟨session, hsession, hgrid, htrades, chunk, hsorted, hstamps, hlatest, hmerge⟩
    rw [mergeChunk_rounded] at hmerge
    rcases hcandle : mergeChunk id bar.time chunk with exception | candle
    · rw [hcandle] at hmerge
      exact nomatch hmerge
    · rw [hcandle] at hmerge
      have hbar : Kline.rounded roundVolume candle = bar := Except.ok.inj hmerge
      have htime := mergeChunk_time hcandle
      have hexpected : chunk.map Kline.time =
          (expectedAt session source target bar.time).sort (· ≤ ·) := by
        refine stamps_eq hsorted (Finset.sortedLT_sort _).pairwise fun stamp => ?_
        rw [hstamps, Finset.mem_sort, mem_expectedAt_iff_sourceBar hsource]
      have hchunk := filterMap_latest hlatest
      rw [hexpected] at hchunk
      refine ⟨candle, ⟨session, hsession, ?_, ?_, ?_, ?_⟩, hbar⟩
      · rw [htime]
        exact hgrid
      · rw [htime, expectedAt_nonempty_iff hsource htarget hdvd]
        exact htrades
      · intro stamp hstamp
        rw [htime, ← Finset.mem_sort (· ≤ ·), ← hexpected, List.mem_map] at hstamp
        obtain ⟨row, hrow, rfl⟩ := hstamp
        rw [hlatest row hrow]
        rfl
      · rw [htime, hchunk]
        exact hcandle
  · rintro ⟨candle, ⟨session, hsession, hgrid, hne, hall, hmerge⟩, rfl⟩
    rw [expectedAt_nonempty_iff hsource htarget hdvd] at hne
    have hall' : ∀ stamp ∈ (expectedAt session source target candle.time).sort (· ≤ ·),
        (latest rows stamp).isSome := fun stamp hstamp => hall stamp ((Finset.mem_sort _).mp hstamp)
    refine ⟨session, hsession, hgrid, hne,
      ((expectedAt session source target candle.time).sort (· ≤ ·)).filterMap (latest rows),
      ?_, ?_, ?_, ?_⟩
    · rw [map_time_latest hall']
      exact (Finset.sortedLT_sort _).pairwise
    · intro stamp
      rw [map_time_latest hall', Finset.mem_sort, mem_expectedAt_iff_sourceBar hsource]
      rfl
    · intro row hrow
      obtain ⟨stamp, -, hlatest⟩ := List.mem_filterMap.mp hrow
      rw [latest_time hlatest]
      exact hlatest
    · change mergeChunk roundVolume candle.time _ = _
      rw [mergeChunk_rounded, hmerge]
      rfl

end

/-! ## Rows in bars that do not trade -/

section

variable {calendar : ExchangeCalendar} {market : String} {source target : ℤ}

theorem foldlM_fails {ε κ ρ : Type} {step : ρ → κ → Except ε ρ} {keys : List κ} {key : κ}
    (hkey : key ∈ keys) (h : ∀ acc out, step acc key ≠ .ok out) (acc out : ρ) :
    keys.foldlM step acc ≠ .ok out := by
  induction keys generalizing acc with
  | nil => exact nomatch hkey
  | cons first keys ih =>
    intro hout
    rw [List.foldlM_cons, bind_ok_iff] at hout
    obtain ⟨next, hnext, hout⟩ := hout
    rcases List.mem_cons.mp hkey with rfl | hkey
    · exact h acc next hnext
    · exact ih hkey next hout

theorem expectedAt_eq_empty (hsource : 0 < source) (htarget : 0 < target) (hdvd : source ∣ target)
    {session : Session} {key : ℤ}
    (h : ¬∃ segment ∈ session.segments, key < segment.2 ∧ segment.1 < key + target) :
    expectedAt session source target key = ∅ := by
  rw [← Finset.not_nonempty_iff_eq_empty, expectedAt_nonempty_iff hsource htarget hdvd]
  exact h

theorem merged_fails (hk : EndsOnDate market calendar) (hsource : 0 < source)
    (htarget : 0 < target) (hdvd : source ∣ target) (htarget' : target < 86400)
    {rows : List Kline} {state : Buckets}
    (hfilled : BucketsHold calendar market source target rows state) {row : Kline}
    (hrow : row ∈ rows) {session : Session} (hsession : session ∈ calendar.sessions)
    (hopens : session.opens ≤ row.time)
    (hoverlap : ∃ segment ∈ session.segments,
      row.time < segment.2 ∧ segment.1 < row.time + source)
    (hstray : ¬∃ segment ∈ session.segments, gridBar session target row.time < segment.2 ∧
      segment.1 < gridBar session target row.time + target)
    (roundVolume : ℚ → ℚ) (out : List Kline) : state.merged roundVolume ≠ .ok out := by
  have hplace : bucketOf calendar market source target row = some (gridBar session target row.time,
      expectedAt session source target (gridBar session target row.time), row.time) :=
    (bucketOf_eq_some_iff hk htarget').mpr ⟨session, hsession, hopens, hoverlap, rfl, rfl, rfl⟩
  have hkey : gridBar session target row.time ∈ state.buckets.keys :=
    (hfilled.key _).mpr ⟨row, hrow, _, _, hplace⟩
  -- whichever row expected something there, it belongs to the same session
  obtain ⟨other, -, expected, stamp, hother, hget⟩ := hfilled.expected _ hkey
  obtain ⟨session', hsession', hgrid', hle', -, hcloses', -, -, hexpected, -⟩ :=
    bar_of_bucketOf hk htarget htarget' hother
  obtain ⟨segment, hsegment, hend, -⟩ := hoverlap
  have hle : gridBar session target row.time ≤ row.time := gridBar_le htarget
  have hsame : session = session' := by
    refine session_eq_of_instant hsession hsession' (t := gridBar session target row.time) ⟨?_, ?_⟩
      ⟨hgrid'.1, by linarith⟩
    · exact (onGrid_gridBar htarget hopens).1
    · linarith [(segments_within hsegment).2.2]
  subst hsame
  rw [hexpected, expectedAt_eq_empty hsource htarget hdvd hstray] at hget
  unfold Buckets.merged
  refine foldlM_fails ((Finset.mem_sort _).mpr (List.mem_toFinset.mpr hkey)) ?_ _ _
  intro acc next hnext
  dsimp only at hnext
  rw [hget, Option.getD_some, if_neg (not_not.mpr (Finset.empty_subset _)), Finset.sort_empty,
    List.filterMap_nil] at hnext
  exact nomatch hnext

end

/-- Resampling returns exactly the complete bars if and only if every row that overlaps a segment
of a session starts in a bar that does. -/
theorem resample_complete_iff {calendars : String → ExchangeCalendar} {calendar : ExchangeCalendar}
    {market : String} {source target : ℤ} (roundVolume : ℚ → ℚ) (rows : List Kline)
    (hmarket : marketCalendar calendars market = .ok calendar) (hk : EndsOnDate market calendar)
    (hsource : 0 < source) (htarget : 0 < target) (hdvd : source ∣ target)
    (htarget' : target < 86400) :
    ResamplesExactly roundVolume calendars calendar market source target rows ↔
      BarsTrade calendar source target rows := by
  constructor
  · rintro ⟨out, hout, -⟩ row hrow session hsession hopens hoverlap
    by_contra hstray
    rw [resample_eq hmarket] at hout
    exact merged_fails hk hsource htarget hdvd htarget' (filled_rows hk htarget' rows) hrow hsession
      hopens hoverlap hstray roundVolume out hout
  · intro hrows
    obtain ⟨out, hout, hsorted, hmem⟩ :=
      resample_spec hmarket hk hsource htarget hdvd htarget' hrows
    rw [resample_eq hmarket] at hout
    refine ⟨out.map (Kline.rounded roundVolume), ?_, ?_, fun bar => ?_⟩
    · rw [resample_eq hmarket, merged_rounded, hout]
      rfl
    · exact List.pairwise_map.mpr hsorted
    · rw [isCompleteBar_iff hsource htarget hdvd, List.mem_map]
      simp only [hmem]

def quarters (stamps : List ℤ) : List Kline :=
  stamps.map fun offset =>
    { time := 20000 * 86400 + 5400 + offset, openPrice := 100, high := 103, low := 99,
      closePrice := 101, volume := some 10 }

theorem resample_complete_quarters :
    ResamplesExactly id (fun _ => hongKongDays) hongKongDays "HKStock" 900 1800
      (quarters [0, 900, 2000]) :=
  (resample_complete_iff id _ (marketCalendar_hongKong _) hongKongDays_ends (by decide) (by decide)
    (by decide) (by decide)).mpr (by unfold BarsTrade; decide +kernel)

/-- A row that starts at 12:50 reaches into the afternoon, but the half hour it starts in does
not: resampling raises. -/
theorem resample_stray_quarter :
    ¬ ResamplesExactly id (fun _ => hongKongDays) hongKongDays "HKStock" 900 1800
      (quarters [0, 900, 12000]) := by
  rintro ⟨out, hout, -⟩
  rw [resample_eq (marketCalendar_hongKong _)] at hout
  have hsession : hongKongDay 20000 ∈ hongKongDays.sessions := by decide +kernel
  have hrow : (⟨20000 * 86400 + 5400 + 12000, 100, 103, 99, 101, some 10⟩ : Kline) ∈
      quarters [0, 900, 12000] := by decide +kernel
  exact merged_fails hongKongDays_ends (by decide) (by decide) (by decide) (by decide)
    (filled_rows hongKongDays_ends (by decide) _) hrow hsession (by decide +kernel)
    (by decide +kernel) (by decide +kernel) id out hout

end QuantDinger.Analysis
