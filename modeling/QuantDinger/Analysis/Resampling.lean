import QuantDinger.Analysis.SessionGrid
import QuantDinger.Library.Regroup

/-!
# Resampling in steps

Resampling keeps a bucket where every interval of the source length that overlaps a segment has its
row. The intervals of a long bar are those of the middle bars in it that overlap a segment
themselves, so a long bar is complete exactly where all of its middle bars are, and its prices and
volume are theirs.
-/

namespace QuantDinger.Analysis

open QuantDinger.Library QuantDinger.Model QuantDinger.Model.Equity

/-! ## Expected intervals -/

/-- The intervals of the source length expected in a bar of a session. -/
def expectedAt (session : Session) (source target key : ℤ) : Finset ℤ :=
  (rangeSet key (min (key + target) session.closes) source).filter fun value =>
    session.segments.any (overlaps value (value + source))

theorem mem_rangeSet_iff {start stop step value : ℤ} (hstep : 0 < step) :
    value ∈ rangeSet start stop step ↔ start ≤ value ∧ value < stop ∧ step ∣ value - start := by
  unfold rangeSet
  rw [List.mem_toFinset, List.mem_map]
  constructor
  · rintro ⟨index, hindex, rfl⟩
    have hlt := List.mem_range.mp hindex
    have hprod : 0 ≤ (index : ℤ) * step := mul_nonneg (Int.natCast_nonneg _) hstep.le
    refine ⟨by linarith, ?_, ⟨index, by ring⟩⟩
    have hcount : (index : ℤ) + 1 ≤ (stop - start + step - 1) / step := by omega
    have hmul := (Int.le_ediv_iff_mul_le hstep).mp hcount
    linarith [add_mul (index : ℤ) 1 step]
  · rintro ⟨hle, hlt, quotient, hq⟩
    have hnonneg : 0 ≤ quotient := by
      by_contra hneg
      have := mul_neg_of_pos_of_neg hstep (not_le.mp hneg)
      linarith
    refine ⟨quotient.toNat, List.mem_range.mpr ?_, ?_⟩
    · have hcount : quotient + 1 ≤ (stop - start + step - 1) / step := by
        rw [Int.le_ediv_iff_mul_le hstep]
        linarith [add_mul quotient 1 step, mul_comm step quotient]
      omega
    · rw [Int.toNat_of_nonneg hnonneg]
      linarith [mul_comm step quotient]

theorem add_le_of_dvd {length x y : ℤ} (hx : length ∣ x) (hy : length ∣ y)
    (h : x < y) : x + length ≤ y := by
  have hsub : length ≤ y - x := Int.le_of_dvd (by linarith) (dvd_sub hy hx)
  linarith

section

variable {session : Session} {source middle target key value : ℤ}

theorem mem_expectedAt_iff (hsource : 0 < source) :
    value ∈ expectedAt session source target key ↔
      key ≤ value ∧ value < key + target ∧ value < session.closes ∧ source ∣ value - key ∧
        ∃ segment ∈ session.segments, value < segment.2 ∧ segment.1 < value + source := by
  unfold expectedAt
  rw [Finset.mem_filter, mem_rangeSet_iff hsource, any_overlaps_iff, lt_min_iff]
  tauto

theorem expectedAt_nonempty_iff (hsource : 0 < source) (htarget : 0 < target)
    (hdvd : source ∣ target) :
    (expectedAt session source target key).Nonempty ↔
      ∃ segment ∈ session.segments, key < segment.2 ∧ segment.1 < key + target := by
  constructor
  · rintro ⟨value, hvalue⟩
    obtain ⟨hle, hlt, -, hmultiple, segment, hsegment, hend, hstart⟩ :=
      (mem_expectedAt_iff hsource).mp hvalue
    have hfit : value - key + source ≤ target :=
      add_le_of_dvd hmultiple hdvd (by linarith)
    exact ⟨segment, hsegment, by linarith, by linarith⟩
  · rintro ⟨segment, hsegment, hend, hstart⟩
    obtain ⟨-, hne, hcloses⟩ := segments_within hsegment
    by_cases hkey : segment.1 ≤ key
    · exact ⟨key, (mem_expectedAt_iff hsource).mpr ⟨le_rfl, by linarith, by linarith,
        by simp, segment, hsegment, hend, by linarith⟩⟩
    · -- the interval in which the segment begins
      have hdiv := Int.emod_add_mul_ediv (segment.1 - key) source
      have hmod := Int.emod_nonneg (segment.1 - key) hsource.ne'
      have hmod' := Int.emod_lt_of_pos (segment.1 - key) hsource
      have hquot : 0 ≤ (segment.1 - key) / source := Int.ediv_nonneg (by linarith) hsource.le
      have hprod : 0 ≤ source * ((segment.1 - key) / source) := mul_nonneg hsource.le hquot
      refine ⟨key + source * ((segment.1 - key) / source), (mem_expectedAt_iff hsource).mpr
        ⟨by linarith, by linarith, by linarith, ?_, segment, hsegment, by linarith,
          by linarith⟩⟩
      rw [add_sub_cancel_left]
      exact dvd_mul_right _ _

theorem mem_expectedAt_iff_exists (hsource : 0 < source) (hmiddle : 0 < middle)
    (hdvd : source ∣ middle) (hdvd' : middle ∣ target) :
    value ∈ expectedAt session source target key ↔
      ∃ bar ∈ expectedAt session middle target key,
        value ∈ expectedAt session source middle bar := by
  constructor
  · intro h
    obtain ⟨hle, hlt, hcloses, hmultiple, segment, hsegment, hend, hstart⟩ :=
      (mem_expectedAt_iff hsource).mp h
    have hdiv := Int.emod_add_mul_ediv (value - key) middle
    have hmod := Int.emod_nonneg (value - key) hmiddle.ne'
    have hmod' := Int.emod_lt_of_pos (value - key) hmiddle
    have hquot : 0 ≤ (value - key) / middle := Int.ediv_nonneg (by linarith) hmiddle.le
    have hprod : 0 ≤ middle * ((value - key) / middle) := mul_nonneg hmiddle.le hquot
    have hrest : source ∣ (value - key) % middle := by
      have hsub : (value - key) % middle = value - key - middle * ((value - key) / middle) := by
        linarith
      rw [hsub]
      exact dvd_sub hmultiple (hdvd.mul_right _)
    have hfit : (value - key) % middle + source ≤ middle :=
      add_le_of_dvd hrest hdvd hmod'
    refine ⟨key + middle * ((value - key) / middle), (mem_expectedAt_iff hmiddle).mpr
      ⟨by linarith, by linarith, by linarith, ?_, segment, hsegment, by linarith, by linarith⟩,
      (mem_expectedAt_iff hsource).mpr ⟨by linarith, by linarith, hcloses, ?_, segment, hsegment,
        hend, hstart⟩⟩
    · rw [add_sub_cancel_left]
      exact dvd_mul_right _ _
    · have hsub : value - (key + middle * ((value - key) / middle)) = (value - key) % middle := by
        linarith
      rw [hsub]
      exact hrest
  · rintro ⟨bar, hbar, hvalue⟩
    obtain ⟨hbarle, hbarlt, -, hbarmultiple, -⟩ := (mem_expectedAt_iff hmiddle).mp hbar
    obtain ⟨hle, hlt, hcloses, hmultiple, hsegment⟩ := (mem_expectedAt_iff hsource).mp hvalue
    have hfit : bar - key + middle ≤ target :=
      add_le_of_dvd hbarmultiple hdvd' (by linarith)
    refine (mem_expectedAt_iff hsource).mpr ⟨by linarith, by linarith, hcloses, ?_, hsegment⟩
    have hsum : value - key = (value - bar) + (bar - key) := by ring
    rw [hsum]
    exact dvd_add hmultiple (hdvd.trans hbarmultiple)

theorem sort_expectedAt (hsource : 0 < source) (hmiddle : 0 < middle) (hdvd : source ∣ middle)
    (hdvd' : middle ∣ target) :
    (expectedAt session source target key).sort (· ≤ ·) =
      ((expectedAt session middle target key).sort (· ≤ ·)).flatMap fun bar =>
        (expectedAt session source middle bar).sort (· ≤ ·) := by
  refine sort_eq_flatMap ?_ ?_
  · intro value
    rw [mem_expectedAt_iff_exists hsource hmiddle hdvd hdvd']
    simp only [Finset.mem_sort]
  · have hsorted := (Finset.sortedLT_sort (expectedAt session middle target key)).pairwise
    refine List.Pairwise.imp_of_mem ?_ hsorted
    intro bar bar' hbar hbar' hlt value hvalue value' hvalue'
    obtain ⟨-, -, -, hm, -⟩ := (mem_expectedAt_iff hmiddle).mp ((Finset.mem_sort _).mp hbar)
    obtain ⟨-, -, -, hm', -⟩ := (mem_expectedAt_iff hmiddle).mp ((Finset.mem_sort _).mp hbar')
    have hfit : bar - key + middle ≤ bar' - key := add_le_of_dvd hm hm' (by linarith)
    have hvaluelt := ((mem_expectedAt_iff hsource).mp hvalue).2.1
    have hvaluele := ((mem_expectedAt_iff hsource).mp hvalue').1
    linarith

end

/-! ## Buckets -/

/-- The row that stands for a stamp: the last one with it. -/
def latest (rows : List Kline) (stamp : ℤ) : Option Kline :=
  rows.reverse.find? fun row => decide (row.time = stamp)

theorem latest_append (rows : List Kline) (row : Kline) (stamp : ℤ) :
    latest (rows ++ [row]) stamp = if row.time = stamp then some row else latest rows stamp := by
  unfold latest
  rw [List.reverse_append, List.reverse_singleton, List.singleton_append, List.find?_cons]
  by_cases h : row.time = stamp
  · rw [decide_eq_true h, if_pos h]
  · rw [decide_eq_false h, if_neg h]

theorem latest_time {rows : List Kline} {stamp : ℤ} {row : Kline}
    (h : latest rows stamp = some row) : row.time = stamp := by
  have htime := List.find?_some h
  rwa [decide_eq_true_iff] at htime

theorem latest_mem {rows : List Kline} {stamp : ℤ} {row : Kline}
    (h : latest rows stamp = some row) : row ∈ rows :=
  List.mem_reverse.mp (List.mem_of_find?_eq_some h)

theorem latest_eq_some_iff {rows : List Kline}
    (h : rows.Pairwise fun earlier later => earlier.time < later.time) {stamp : ℤ} {row : Kline} :
    latest rows stamp = some row ↔ row ∈ rows ∧ row.time = stamp := by
  constructor
  · intro hlatest
    exact ⟨latest_mem hlatest, latest_time hlatest⟩
  · rintro ⟨hmem, rfl⟩
    induction rows using List.reverseRecOn with
    | nil => exact nomatch hmem
    | append_singleton rows last ih =>
      rw [latest_append]
      rcases List.mem_append.mp hmem with hmem | hlast
      · have hlt := (List.pairwise_append.mp h).2.2 row hmem last List.mem_cons_self
        rw [if_neg hlt.ne', ih (List.pairwise_append.mp h).1 hmem]
      · rw [List.mem_singleton.mp hlast, if_pos rfl]

section

variable {calendar : ExchangeCalendar} {market : String} {source target : ℤ}

theorem bucketOf_congr {row row' : Kline} (h : row.time = row'.time) :
    bucketOf calendar market source target row = bucketOf calendar market source target row' := by
  unfold bucketOf
  rw [h]

theorem bucketOf_eq_some_iff (hk : EndsOnDate market calendar) (htarget : target < 86400)
    {row : Kline} {key stamp : ℤ} {expected : Finset ℤ} :
    bucketOf calendar market source target row = some (key, expected, stamp) ↔
      ∃ session ∈ calendar.sessions, session.opens ≤ row.time ∧
        (∃ segment ∈ session.segments, row.time < segment.2 ∧ segment.1 < row.time + source) ∧
        key = session.opens + (row.time - session.opens) / target * target ∧
        expected = expectedAt session source target key ∧ stamp = row.time := by
  have hweekly : ¬ (target = 604800 ∧ source = 86400) := by omega
  unfold bucketOf
  dsimp only
  constructor
  · intro h
    split at h
    · exact nomatch h
    · rename_i session hsession
      rw [if_neg hweekly] at h
      split_ifs at h with hskip
      rw [not_or, not_lt, not_not, any_overlaps_iff] at hskip
      simp only [Option.some.injEq, Prod.mk.injEq] at h
      obtain ⟨rfl, rfl, rfl⟩ := h
      exact ⟨session, (session?_eq_some_iff.mp hsession).1, hskip.1, hskip.2, rfl, rfl, rfl⟩
  · rintro ⟨session, hsession, hopens, hoverlap, rfl, rfl, rfl⟩
    have hcloses : row.time ≤ session.closes := by
      obtain ⟨segment, hsegment, hend, -⟩ := hoverlap
      exact hend.le.trans (segments_within hsegment).2.2
    have hdate : equityBarSessionDate (seconds row.time) market = session.day := by
      apply sessionDate_eq hk hsession
      · rw [seconds_le_iff, wholeSeconds_seconds]
        exact hopens
      · exact mul_le_mul_of_nonneg_right hcloses (by norm_num)
    have hfound : calendar.session? session.day = some session :=
      session?_eq_some_iff.mpr ⟨hsession, rfl⟩
    have hkept : ¬ (row.time < session.opens ∨
        ¬ session.segments.any (overlaps row.time (row.time + source))) := by
      rw [not_or, not_lt, not_not, any_overlaps_iff]
      exact ⟨hopens, hoverlap⟩
    rw [hdate, hfound]
    dsimp only
    rw [if_neg hweekly, if_neg hkept]
    rfl

/-- What the buckets hold once some rows are in them. -/
structure BucketsHold (calendar : ExchangeCalendar) (market : String) (source target : ℤ)
    (rows : List Kline) (state : Buckets) : Prop where
  bucket : ∀ key stamp row,
    ((state.buckets.get? key).getD Dict.empty).get? stamp = some row ↔
      latest rows stamp = some row ∧
        ∃ expected, bucketOf calendar market source target row = some (key, expected, stamp)
  key : ∀ key, key ∈ state.buckets.keys ↔ ∃ row ∈ rows, ∃ expected stamp,
    bucketOf calendar market source target row = some (key, expected, stamp)
  expected : ∀ key, key ∈ state.buckets.keys → ∃ row ∈ rows, ∃ expected stamp,
    bucketOf calendar market source target row = some (key, expected, stamp) ∧
      state.expected.get? key = some expected

theorem filled_empty :
    BucketsHold calendar market source target [] ⟨Dict.empty, Dict.empty⟩ where
  bucket key stamp row := by
    constructor
    · exact fun h => nomatch h
    · exact fun h => nomatch h.1
  key key := by
    constructor
    · exact fun h => nomatch h
    · exact fun ⟨_, h, _⟩ => nomatch h
  expected key h := nomatch h

theorem filled_put (hk : EndsOnDate market calendar) (htarget : target < 86400)
    {rows : List Kline} {state : Buckets} (h : BucketsHold calendar market source target rows state)
    (row : Kline) :
    BucketsHold calendar market source target (rows ++ [row])
      (state.put calendar market source target row) := by
  unfold Buckets.put
  cases hplace : bucketOf calendar market source target row with
  | none =>
    refine ⟨?_, ?_, ?_⟩
    · intro key stamp placed
      rw [h.bucket, latest_append]
      constructor
      · rintro ⟨hlatest, expected, hplaced⟩
        rw [if_neg ?_]
        · exact ⟨hlatest, expected, hplaced⟩
        · intro htime
          rw [bucketOf_congr ((latest_time hlatest).trans htime.symm), hplace] at hplaced
          exact nomatch hplaced
      · rintro ⟨hlatest, expected, hplaced⟩
        split_ifs at hlatest with htime
        · rw [← Option.some.inj hlatest, hplace] at hplaced
          exact nomatch hplaced
        · exact ⟨hlatest, expected, hplaced⟩
    · intro key
      rw [h.key]
      constructor
      · rintro ⟨placed, hmem, hplaced⟩
        exact ⟨placed, List.mem_append_left _ hmem, hplaced⟩
      · rintro ⟨placed, hmem, expected, stamp, hplaced⟩
        rcases List.mem_append.mp hmem with hmem | hlast
        · exact ⟨placed, hmem, expected, stamp, hplaced⟩
        · rw [List.mem_singleton.mp hlast, hplace] at hplaced
          exact nomatch hplaced
    · intro key hkey
      obtain ⟨placed, hmem, hplaced⟩ := h.expected key hkey
      exact ⟨placed, List.mem_append_left _ hmem, hplaced⟩
  | some place =>
    obtain ⟨home, homeExpected, homeStamp⟩ := place
    have hstamp : homeStamp = row.time := by
      obtain ⟨-, -, -, -, -, -, h⟩ := (bucketOf_eq_some_iff hk htarget).mp hplace
      exact h
    subst hstamp
    refine ⟨?_, ?_, ?_⟩
    · intro key stamp placed
      rw [Dict.get?_set, latest_append]
      by_cases hkey : key = home
      · subst hkey
        rw [if_pos rfl, Option.getD_some, Dict.get?_set]
        by_cases htime : stamp = row.time
        · subst htime
          rw [if_pos rfl, if_pos rfl]
          constructor
          · intro heq
            exact ⟨heq, homeExpected, Option.some.inj heq ▸ hplace⟩
          · exact fun hboth => hboth.1
        · rw [if_neg htime, if_neg (Ne.symm htime), h.bucket]
      · rw [if_neg hkey, h.bucket]
        by_cases htime : row.time = stamp
        · rw [if_pos htime]
          constructor
          · rintro ⟨hlatest, expected, hplaced⟩
            rw [bucketOf_congr ((latest_time hlatest).trans htime.symm), hplace] at hplaced
            exact absurd (Prod.mk.inj (Option.some.inj hplaced)).1.symm hkey
          · rintro ⟨hlatest, expected, hplaced⟩
            rw [← Option.some.inj hlatest, hplace] at hplaced
            exact absurd (Prod.mk.inj (Option.some.inj hplaced)).1.symm hkey
        · rw [if_neg htime]
    · intro key
      rw [Dict.mem_keys_set, h.key]
      constructor
      · rintro (rfl | ⟨placed, hmem, hplaced⟩)
        · exact ⟨row, List.mem_append_right _ List.mem_cons_self, _, _, hplace⟩
        · exact ⟨placed, List.mem_append_left _ hmem, hplaced⟩
      · rintro ⟨placed, hmem, expected, stamp, hplaced⟩
        rcases List.mem_append.mp hmem with hmem | hlast
        · exact Or.inr ⟨placed, hmem, expected, stamp, hplaced⟩
        · rw [List.mem_singleton.mp hlast, hplace] at hplaced
          exact Or.inl (Prod.mk.inj (Option.some.inj hplaced)).1.symm
    · intro key hkey
      rw [Dict.get?_set]
      by_cases hhome : key = home
      · subst hhome
        exact ⟨row, List.mem_append_right _ List.mem_cons_self, _, _, hplace, if_pos rfl⟩
      · obtain hold := (Dict.mem_keys_set.mp hkey).resolve_left hhome
        obtain ⟨placed, hmem, expected, stamp, hplaced, hget⟩ := h.expected key hold
        exact ⟨placed, List.mem_append_left _ hmem, expected, stamp, hplaced,
          (if_neg hhome).trans hget⟩

theorem filled_rows (hk : EndsOnDate market calendar) (htarget : target < 86400)
    (rows : List Kline) :
    BucketsHold calendar market source target rows
      (rows.foldl (Buckets.put calendar market source target) ⟨Dict.empty, Dict.empty⟩) := by
  induction rows using List.reverseRecOn with
  | nil => exact filled_empty
  | append_singleton rows row ih =>
    rw [List.foldl_append]
    exact filled_put hk htarget ih row

end

/-! ## Merging -/

theorem mergeChunk_eq (roundVolume : ℚ → ℚ) (key : ℤ) (chunk : List Kline) :
    mergeChunk roundVolume key chunk =
      match (chunk.map Kline.openPrice).head?, (chunk.map Kline.closePrice).getLast?,
        (chunk.map Kline.high).max?, (chunk.map Kline.low).min? with
      | some openPrice, some closePrice, some high, some low => .ok {
          time := key
          openPrice
          high
          low
          closePrice
          volume := some (roundVolume (chunk.map fun row => row.volume.getD 0).sum) }
      | _, _, _, _ => .error .indexError := by
  unfold mergeChunk
  rw [List.head?_map, List.getLast?_map]
  cases chunk.head? <;> cases chunk.getLast? <;> cases (chunk.map Kline.high).max? <;>
    cases (chunk.map Kline.low).min? <;> rfl

theorem mergeChunk_time {roundVolume : ℚ → ℚ} {key : ℤ} {chunk : List Kline} {row : Kline}
    (h : mergeChunk roundVolume key chunk = .ok row) : row.time = key := by
  unfold mergeChunk at h
  split at h
  · rw [← Except.ok.inj h]
  · exact nomatch h

theorem mergeChunk_ok (roundVolume : ℚ → ℚ) (key : ℤ) {chunk : List Kline} (h : chunk ≠ []) :
    ∃ row, mergeChunk roundVolume key chunk = .ok row := by
  have hmax : ∃ high, (chunk.map Kline.high).max? = some high :=
    Option.isSome_iff_exists.mp (List.isSome_max?_of_ne_nil (by simpa using h))
  have hmin : ∃ low, (chunk.map Kline.low).min? = some low :=
    Option.isSome_iff_exists.mp (List.isSome_min?_of_ne_nil (by simpa using h))
  obtain ⟨high, hhigh⟩ := hmax
  obtain ⟨low, hlow⟩ := hmin
  unfold mergeChunk
  rw [hhigh, hlow, List.head?_eq_some_head h, List.getLast?_eq_some_getLast h]
  exact ⟨_, rfl⟩

theorem mergeChunk_columns {key : ℤ} {chunk : List Kline} {row : Kline}
    (h : mergeChunk id key chunk = .ok row) :
    (chunk.map Kline.openPrice).head? = some row.openPrice ∧
    (chunk.map Kline.closePrice).getLast? = some row.closePrice ∧
    (chunk.map Kline.high).max? = some row.high ∧ (chunk.map Kline.low).min? = some row.low ∧
    (chunk.map fun row => row.volume.getD 0).sum = row.volume.getD 0 := by
  rw [mergeChunk_eq] at h
  split at h
  · rename_i hopen hclose hhigh hlow
    rw [← Except.ok.inj h]
    exact ⟨hopen, hclose, hhigh, hlow, rfl⟩
  · exact nomatch h

theorem mergeChunk_flatMap {α : Type} {l : List α} {parts : α → List Kline} {start : α → ℤ}
    {summary : α → Kline} (h : ∀ a ∈ l, mergeChunk id (start a) (parts a) = .ok (summary a))
    (key : ℤ) : mergeChunk id key (l.flatMap parts) = mergeChunk id key (l.map summary) := by
  have hcolumns := fun a ha => mergeChunk_columns (h a ha)
  rw [mergeChunk_eq, mergeChunk_eq,
    head?_regroup fun a ha => (hcolumns a ha).1,
    getLast?_regroup fun a ha => (hcolumns a ha).2.1,
    max?_regroup fun a ha => (hcolumns a ha).2.2.1,
    min?_regroup fun a ha => (hcolumns a ha).2.2.2.1,
    sum_regroup fun a ha => (hcolumns a ha).2.2.2.2]
  simp only [List.map_map, Function.comp_def]

theorem foldlM_append {ε κ ρ : Type} {step : List ρ → κ → Except ε (List ρ)} {out : κ → Option ρ}
    {keys : List κ} (h : ∀ key ∈ keys, ∀ acc, step acc key = .ok (acc ++ (out key).toList))
    (acc : List ρ) : keys.foldlM step acc = .ok (acc ++ keys.filterMap out) := by
  induction keys generalizing acc with
  | nil =>
    rw [List.filterMap_nil, List.append_nil]
    rfl
  | cons key keys ih =>
    rw [List.foldlM_cons, h key List.mem_cons_self]
    refine (ih (fun k hk => h k (List.mem_cons_of_mem key hk)) _).trans ?_
    cases hout : out key with
    | none => rw [List.filterMap_cons_none hout, Option.toList_none, List.append_nil]
    | some row =>
      rw [List.filterMap_cons_some hout, Option.toList_some, List.append_assoc,
        List.singleton_append]

local instance transStamps : IsTrans ℤ (· ≤ ·) := inferInstance

local instance antisymmStamps : @Std.Antisymm ℤ (· ≤ ·) := inferInstance

/-- A row of the result: the summary of a bar all of whose expected intervals have a row. -/
def IsCandle (calendar : ExchangeCalendar) (source target : ℤ) (rows : List Kline) (row : Kline) :
    Prop :=
  ∃ session ∈ calendar.sessions, OnGrid session target row.time ∧
    (expectedAt session source target row.time).Nonempty ∧
    (∀ stamp ∈ expectedAt session source target row.time, (latest rows stamp).isSome) ∧
    mergeChunk id row.time
      (((expectedAt session source target row.time).sort (· ≤ ·)).filterMap (latest rows)) =
        .ok row

def StampedOnGrid (calendar : ExchangeCalendar) (source : ℤ) (rows : List Kline) : Prop :=
  ∀ row ∈ rows, ∀ session ∈ calendar.sessions,
    session.opens ≤ row.time → row.time < session.closes → source ∣ row.time - session.opens

/-- Rows that overlap a segment of a session start in bars that do. -/
def BarsTrade (calendar : ExchangeCalendar) (source target : ℤ) (rows : List Kline) : Prop :=
  ∀ row ∈ rows, ∀ session ∈ calendar.sessions, session.opens ≤ row.time →
    (∃ segment ∈ session.segments, row.time < segment.2 ∧ segment.1 < row.time + source) →
      ∃ segment ∈ session.segments, gridBar session target row.time < segment.2 ∧
        segment.1 < gridBar session target row.time + target

section

variable {calendar : ExchangeCalendar} {market : String} {source target : ℤ} {session : Session}

theorem bucketOf_of_mem (hk : EndsOnDate market calendar) (hsource : 0 < source)
    (htarget : 0 < target) (htarget' : target < 86400) (h : session ∈ calendar.sessions) {key : ℤ}
    (hgrid : OnGrid session target key) {row : Kline}
    (hrow : row.time ∈ expectedAt session source target key) :
    bucketOf calendar market source target row =
      some (key, expectedAt session source target key, row.time) := by
  obtain ⟨hle, hlt, -, -, hoverlap⟩ := (mem_expectedAt_iff hsource).mp hrow
  obtain ⟨hopens, index, hindex⟩ := hgrid
  have hfloor : (row.time - session.opens) / target = index := by
    rw [Int.ediv_eq_iff_of_pos htarget]
    have hcomm := mul_comm index target
    exact ⟨by linarith, by linarith⟩
  refine (bucketOf_eq_some_iff hk htarget').mpr ⟨session, h, hopens.trans hle, hoverlap, ?_, rfl,
    rfl⟩
  rw [hfloor]
  linarith [mul_comm index target]

theorem bar_of_bucketOf (hk : EndsOnDate market calendar) (htarget : 0 < target)
    (htarget' : target < 86400) {row : Kline} {key stamp : ℤ} {expected : Finset ℤ}
    (h : bucketOf calendar market source target row = some (key, expected, stamp)) :
    ∃ session ∈ calendar.sessions, OnGrid session target key ∧ key ≤ row.time ∧
      row.time < key + target ∧ row.time < session.closes ∧
      (∃ segment ∈ session.segments, row.time < segment.2 ∧ segment.1 < row.time + source) ∧
      key = gridBar session target row.time ∧ expected = expectedAt session source target key ∧
      stamp = row.time := by
  obtain ⟨session, hsession, hopens, hoverlap, hkey, hexpected, hstamp⟩ :=
    (bucketOf_eq_some_iff hk htarget').mp h
  have hcloses : row.time < session.closes := by
    obtain ⟨segment, hsegment, hend, -⟩ := hoverlap
    exact hend.trans_le (segments_within hsegment).2.2
  have hgrid : key = gridBar session target row.time := hkey
  refine ⟨session, hsession, ?_, ?_, ?_, hcloses, hoverlap, hgrid, hexpected, hstamp⟩
  · rw [hgrid]
    exact onGrid_gridBar htarget hopens
  · rw [hgrid]
    exact gridBar_le htarget
  · rw [hgrid]
    exact lt_gridBar_add htarget

theorem barsTrade_of_stamped (hsource : 0 < source) (htarget : 0 < target) (hdvd : source ∣ target)
    {rows : List Kline} (hrows : StampedOnGrid calendar source rows) :
    BarsTrade calendar source target rows := by
  intro row hrow session hsession hopens hoverlap
  have hcloses : row.time < session.closes := by
    obtain ⟨segment, hsegment, hend, -⟩ := hoverlap
    exact hend.trans_le (segments_within hsegment).2.2
  have hmultiple := hrows row hrow session hsession hopens hcloses
  rw [← expectedAt_nonempty_iff hsource htarget hdvd]
  refine ⟨row.time, (mem_expectedAt_iff hsource).mpr
    ⟨gridBar_le htarget, lt_gridBar_add htarget, hcloses, ?_, hoverlap⟩⟩
  have hgrid := onGrid_gridBar htarget hopens
  have hsub : row.time - gridBar session target row.time =
      (row.time - session.opens) - (gridBar session target row.time - session.opens) := by ring
  rw [hsub]
  exact dvd_sub hmultiple (hdvd.trans hgrid.2)

/-- What a full bucket yields: the summary of its bar, or nothing where an interval is missing. -/
def bucketRow (state : Buckets) (key : ℤ) : Option Kline :=
  let bucket := (state.buckets.get? key).getD Dict.empty
  let expected := (state.expected.get? key).getD ∅
  if expected ⊆ bucket.keys.toFinset then
    (mergeChunk id key ((expected.sort (· ≤ ·)).filterMap bucket.get?)).toOption
  else none

theorem bucketRow_time {state : Buckets} {key : ℤ} {row : Kline}
    (h : bucketRow state key = some row) : row.time = key := by
  unfold bucketRow at h
  dsimp only at h
  split_ifs at h
  revert h
  cases hmerge : mergeChunk id key _ with
  | error => exact fun h => nomatch h
  | ok merged =>
    intro h
    rw [← Option.some.inj h]
    exact mergeChunk_time hmerge

theorem bucketRow_eq (hk : EndsOnDate market calendar) (hsource : 0 < source)
    (htarget : 0 < target) (hdvd : source ∣ target) (htarget' : target < 86400)
    {rows : List Kline} (hrows : BarsTrade calendar source target rows) {state : Buckets}
    (hfilled : BucketsHold calendar market source target rows state) {key : ℤ}
    (hkey : key ∈ state.buckets.keys) :
    ∃ session ∈ calendar.sessions, OnGrid session target key ∧
      (expectedAt session source target key).Nonempty ∧
      state.expected.get? key = some (expectedAt session source target key) ∧
      ∀ stamp ∈ expectedAt session source target key,
        ((state.buckets.get? key).getD Dict.empty).get? stamp = latest rows stamp := by
  obtain ⟨row, hrow, expected, stamp, hplace, hget⟩ := hfilled.expected key hkey
  obtain ⟨session, hsession, hgrid, -, -, -, hoverlap, hbar, rfl, -⟩ :=
    bar_of_bucketOf hk htarget htarget' hplace
  have htrades := hrows row hrow session hsession (hgrid.1.trans (hbar ▸ gridBar_le htarget))
    hoverlap
  rw [← hbar, ← expectedAt_nonempty_iff hsource htarget hdvd] at htrades
  refine ⟨session, hsession, hgrid, htrades, hget, ?_⟩
  intro value hvalue
  ext placed
  rw [hfilled.bucket]
  constructor
  · exact fun h => h.1
  · intro hlatest
    have htime := latest_time hlatest
    rw [← htime] at hvalue ⊢
    refine ⟨?_, _, bucketOf_of_mem hk hsource htarget htarget' hsession hgrid hvalue⟩
    rw [htime]
    exact hlatest

theorem merged_eq (hk : EndsOnDate market calendar) (hsource : 0 < source)
    (htarget : 0 < target) (hdvd : source ∣ target) (htarget' : target < 86400)
    {rows : List Kline} (hrows : BarsTrade calendar source target rows) {state : Buckets}
    (hfilled : BucketsHold calendar market source target rows state) :
    state.merged id =
      .ok ((state.buckets.keys.toFinset.sort (· ≤ ·)).filterMap (bucketRow state)) := by
  unfold Buckets.merged
  refine foldlM_append ?_ []
  intro key hkey acc
  rw [Finset.mem_sort, List.mem_toFinset] at hkey
  obtain ⟨session, -, -, ⟨stamp, hstamp⟩, hget, hbucket⟩ :=
    bucketRow_eq hk hsource htarget hdvd htarget' hrows hfilled hkey
  unfold bucketRow
  dsimp only
  rw [hget, Option.getD_some]
  generalize (state.buckets.get? key).getD Dict.empty = bucket at hbucket ⊢
  by_cases hsubset : expectedAt session source target key ⊆ bucket.keys.toFinset
  · rw [if_neg (not_not.mpr hsubset), if_pos hsubset]
    have hne :
        ((expectedAt session source target key).sort (· ≤ ·)).filterMap bucket.get? ≠ [] := by
      have hmem := hsubset hstamp
      rw [List.mem_toFinset, Dict.mem_keys_iff] at hmem
      obtain ⟨row, hrow⟩ := hmem
      exact List.ne_nil_of_mem
        (List.mem_filterMap.mpr ⟨stamp, (Finset.mem_sort _).mpr hstamp, hrow⟩)
    obtain ⟨row, hrow⟩ := mergeChunk_ok id key hne
    rw [hrow]
    rfl
  · rw [if_pos hsubset, if_neg hsubset]
    exact congrArg Except.ok (List.append_nil acc).symm

theorem mem_merged_iff (hk : EndsOnDate market calendar) (hsource : 0 < source)
    (htarget : 0 < target) (hdvd : source ∣ target) (htarget' : target < 86400)
    {rows : List Kline} (hrows : BarsTrade calendar source target rows) {state : Buckets}
    (hfilled : BucketsHold calendar market source target rows state) (row : Kline) :
    (∃ key ∈ state.buckets.keys, bucketRow state key = some row) ↔
      IsCandle calendar source target rows row := by
  constructor
  · rintro ⟨key, hkey, hrow⟩
    obtain ⟨session, hsession, hgrid, hne, hget, hbucket⟩ :=
      bucketRow_eq hk hsource htarget hdvd htarget' hrows hfilled hkey
    unfold bucketRow at hrow
    dsimp only at hrow
    rw [hget, Option.getD_some, List.filterMap_congr fun stamp hstamp =>
      hbucket stamp ((Finset.mem_sort _).mp hstamp)] at hrow
    split_ifs at hrow with hsubset
    have hmerge : mergeChunk id key
        (((expectedAt session source target key).sort (· ≤ ·)).filterMap (latest rows)) =
          .ok row := by
      revert hrow
      cases mergeChunk id key
        (((expectedAt session source target key).sort (· ≤ ·)).filterMap (latest rows)) with
      | error => exact fun h => nomatch h
      | ok merged => exact fun h => congrArg Except.ok (Option.some.inj h)
    have htime := mergeChunk_time hmerge
    subst htime
    refine ⟨session, hsession, hgrid, hne, ?_, hmerge⟩
    intro stamp hstamp
    have hmem := hsubset hstamp
    rw [List.mem_toFinset, Dict.mem_keys_iff] at hmem
    obtain ⟨placed, hplaced⟩ := hmem
    rw [← hbucket stamp hstamp, hplaced]
    rfl
  · rintro ⟨session, hsession, hgrid, ⟨stamp, hstamp⟩, hall, hmerge⟩
    obtain ⟨placed, hplaced⟩ := Option.isSome_iff_exists.mp (hall stamp hstamp)
    have htime := latest_time hplaced
    rw [← htime] at hstamp
    have hplace := bucketOf_of_mem hk hsource htarget htarget' hsession hgrid hstamp
    have hkey : row.time ∈ state.buckets.keys :=
      (hfilled.key _).mpr ⟨placed, latest_mem hplaced, _, _, hplace⟩
    obtain ⟨other, hother, hgrid', ⟨stamp', hstamp'⟩, hget, hbucket⟩ :=
      bucketRow_eq hk hsource htarget hdvd htarget' hrows hfilled hkey
    have hsame : session = other := by
      have hin := (mem_expectedAt_iff hsource).mp hstamp
      have hin' := (mem_expectedAt_iff hsource).mp hstamp'
      refine session_eq_of_instant hsession hother (t := row.time) ⟨hgrid.1, ?_⟩ ⟨hgrid'.1, ?_⟩
      · linarith [hin.1, hin.2.2.1]
      · linarith [hin'.1, hin'.2.2.1]
    subst hsame
    refine ⟨row.time, hkey, ?_⟩
    unfold bucketRow
    dsimp only
    rw [hget, Option.getD_some, List.filterMap_congr fun stamp hstamp =>
      hbucket stamp ((Finset.mem_sort _).mp hstamp), hmerge, if_pos]
    · rfl
    · intro value hvalue
      obtain ⟨found, hfound⟩ := Option.isSome_iff_exists.mp (hall value hvalue)
      rw [List.mem_toFinset, Dict.mem_keys_iff]
      exact ⟨found, (hbucket value hvalue).trans hfound⟩

theorem resample_eq {calendars : String → ExchangeCalendar}
    (hmarket : marketCalendar calendars market = .ok calendar) (roundVolume : ℚ → ℚ)
    (rows : List Kline) :
    resampleEquityKlines roundVolume calendars rows market source target =
      (rows.foldl (Buckets.put calendar market source target)
        ⟨Dict.empty, Dict.empty⟩).merged roundVolume := by
  unfold resampleEquityKlines
  rw [hmarket]
  rfl

theorem resample_spec {calendars : String → ExchangeCalendar}
    (hmarket : marketCalendar calendars market = .ok calendar) (hk : EndsOnDate market calendar)
    (hsource : 0 < source) (htarget : 0 < target) (hdvd : source ∣ target)
    (htarget' : target < 86400) {rows : List Kline}
    (hrows : BarsTrade calendar source target rows) :
    ∃ out, resampleEquityKlines id calendars rows market source target = .ok out ∧
      (out.Pairwise fun earlier later => earlier.time < later.time) ∧
      ∀ row, row ∈ out ↔ IsCandle calendar source target rows row := by
  have hfilled := @filled_rows _ _ source _ hk htarget' rows
  have hmerged := merged_eq hk hsource htarget hdvd htarget' hrows hfilled
  refine ⟨_, (resample_eq hmarket id rows).trans hmerged, ?_, ?_⟩
  · rw [List.pairwise_filterMap]
    refine (Finset.sortedLT_sort _).pairwise.imp ?_
    intro key key' hlt row hrow row' hrow'
    rw [bucketRow_time hrow, bucketRow_time hrow']
    exact hlt
  · intro row
    rw [← mem_merged_iff hk hsource htarget hdvd htarget' hrows hfilled, List.mem_filterMap]
    simp only [Finset.mem_sort, List.mem_toFinset]

end

/-! ## Composition -/

section

variable {calendar : ExchangeCalendar} {source middle target : ℤ} {session : Session}
  {rows middleRows : List Kline}

theorem onGrid_of_mem (hmiddle : 0 < middle) (hdvd' : middle ∣ target) {key bar : ℤ}
    (hgrid : OnGrid session target key) (h : bar ∈ expectedAt session middle target key) :
    OnGrid session middle bar := by
  obtain ⟨hle, -, -, hmultiple, -⟩ := (mem_expectedAt_iff hmiddle).mp h
  refine ⟨hgrid.1.trans hle, ?_⟩
  have hsum : bar - session.opens = (bar - key) + (key - session.opens) := by ring
  rw [hsum]
  exact dvd_add hmultiple (hdvd'.trans hgrid.2)

theorem stampedOnGrid_candles (hsource : 0 < source)
    (hmem : ∀ row, row ∈ middleRows ↔ IsCandle calendar source middle rows row) :
    StampedOnGrid calendar middle middleRows := by
  intro row hrow session hsession hopens hcloses
  obtain ⟨other, hother, hgrid, ⟨stamp, hstamp⟩, -⟩ := (hmem row).mp hrow
  obtain ⟨hle, -, hlt, -⟩ := (mem_expectedAt_iff hsource).mp hstamp
  have hsame : session = other :=
    session_eq_of_instant hsession hother ⟨hopens, hcloses.le⟩ ⟨hgrid.1, by linarith⟩
  rw [hsame]
  exact hgrid.2

theorem latest_candle_iff (hsource : 0 < source)
    (hsorted : middleRows.Pairwise fun earlier later => earlier.time < later.time)
    (hmem : ∀ row, row ∈ middleRows ↔ IsCandle calendar source middle rows row)
    (hsession : session ∈ calendar.sessions) {bar : ℤ} (hgrid : OnGrid session middle bar)
    (hne : (expectedAt session source middle bar).Nonempty) (row : Kline) :
    latest middleRows bar = some row ↔
      (∀ stamp ∈ expectedAt session source middle bar, (latest rows stamp).isSome) ∧
        mergeChunk id bar
          (((expectedAt session source middle bar).sort (· ≤ ·)).filterMap (latest rows)) =
            .ok row := by
  rw [latest_eq_some_iff hsorted, hmem]
  constructor
  · rintro ⟨⟨other, hother, hgrid', ⟨stamp', hstamp'⟩, hall, hmerge⟩, rfl⟩
    obtain ⟨stamp, hstamp⟩ := hne
    obtain ⟨hle, -, hlt, -⟩ := (mem_expectedAt_iff hsource).mp hstamp
    obtain ⟨hle', -, hlt', -⟩ := (mem_expectedAt_iff hsource).mp hstamp'
    have hsame : session = other :=
      session_eq_of_instant hsession hother (t := row.time) ⟨hgrid.1, by linarith⟩
        ⟨hgrid'.1, by linarith⟩
    subst hsame
    exact ⟨hall, hmerge⟩
  · rintro ⟨hall, hmerge⟩
    have htime := mergeChunk_time hmerge
    subst htime
    exact ⟨⟨session, hsession, hgrid, hne, hall, hmerge⟩, rfl⟩

theorem isCandle_compose (hsource : 0 < source) (hmiddle : 0 < middle) (htarget : 0 < target)
    (hdvd : source ∣ middle) (hdvd' : middle ∣ target)
    (hsorted : middleRows.Pairwise fun earlier later => earlier.time < later.time)
    (hmem : ∀ row, row ∈ middleRows ↔ IsCandle calendar source middle rows row) (row : Kline) :
    IsCandle calendar middle target middleRows row ↔ IsCandle calendar source target rows row := by
  unfold IsCandle
  refine exists_congr fun session => and_congr_right fun hsession => and_congr_right fun hgrid => ?_
  have hbar : ∀ bar ∈ expectedAt session middle target row.time, ∀ merged,
      latest middleRows bar = some merged ↔
        (∀ stamp ∈ expectedAt session source middle bar, (latest rows stamp).isSome) ∧
          mergeChunk id bar
            (((expectedAt session source middle bar).sort (· ≤ ·)).filterMap (latest rows)) =
              .ok merged := by
    intro bar hbar
    refine latest_candle_iff hsource hsorted hmem hsession (onGrid_of_mem hmiddle hdvd' hgrid hbar)
      ?_
    rw [expectedAt_nonempty_iff hsource hmiddle hdvd]
    exact ((mem_expectedAt_iff hmiddle).mp hbar).2.2.2.2
  rw [expectedAt_nonempty_iff hmiddle htarget hdvd',
    ← expectedAt_nonempty_iff hsource htarget (hdvd.trans hdvd')]
  refine and_congr_right fun _ => ?_
  have hcomplete : (∀ bar ∈ expectedAt session middle target row.time,
        (latest middleRows bar).isSome) ↔
      ∀ stamp ∈ expectedAt session source target row.time, (latest rows stamp).isSome := by
    constructor
    · intro hall stamp hstamp
      obtain ⟨bar, hbarMem, hstampBar⟩ :=
        (mem_expectedAt_iff_exists hsource hmiddle hdvd hdvd').mp hstamp
      obtain ⟨merged, hmerged⟩ := Option.isSome_iff_exists.mp (hall bar hbarMem)
      exact ((hbar bar hbarMem merged).mp hmerged).1 stamp hstampBar
    · intro hall bar hbarMem
      have hbarAll : ∀ stamp ∈ expectedAt session source middle bar,
          (latest rows stamp).isSome := fun stamp hstamp => hall stamp
        ((mem_expectedAt_iff_exists hsource hmiddle hdvd hdvd').mpr ⟨bar, hbarMem, hstamp⟩)
      have hne : ((expectedAt session source middle bar).sort (· ≤ ·)).filterMap
          (latest rows) ≠ [] := by
        obtain ⟨stamp, hstamp⟩ := (expectedAt_nonempty_iff hsource hmiddle hdvd).mpr
          ((mem_expectedAt_iff hmiddle).mp hbarMem).2.2.2.2
        obtain ⟨found, hfound⟩ := Option.isSome_iff_exists.mp (hbarAll stamp hstamp)
        exact List.ne_nil_of_mem
          (List.mem_filterMap.mpr ⟨stamp, (Finset.mem_sort _).mpr hstamp, hfound⟩)
      obtain ⟨merged, hmerged⟩ := mergeChunk_ok id bar hne
      rw [(hbar bar hbarMem merged).mpr ⟨hbarAll, hmerged⟩]
      rfl
  rw [hcomplete]
  refine and_congr_right fun hall => ?_
  have hmiddleAll := hcomplete.mpr hall
  -- every middle bar has its row, and the rows of the middle bars are all rows of the long bar
  have hsummary : ∀ bar ∈ (expectedAt session middle target row.time).sort (· ≤ ·),
      latest middleRows bar = some ((latest middleRows bar).getD row) := by
    intro bar hbarMem
    obtain ⟨merged, hmerged⟩ :=
      Option.isSome_iff_exists.mp (hmiddleAll bar ((Finset.mem_sort _).mp hbarMem))
    rw [hmerged, Option.getD_some]
  have hparts : ∀ bar ∈ (expectedAt session middle target row.time).sort (· ≤ ·),
      mergeChunk id bar
        (((expectedAt session source middle bar).sort (· ≤ ·)).filterMap (latest rows)) =
          .ok ((latest middleRows bar).getD row) := fun bar hbarMem =>
    ((hbar bar ((Finset.mem_sort _).mp hbarMem) _).mp (hsummary bar hbarMem)).2
  have hmiddleRows : ((expectedAt session middle target row.time).sort (· ≤ ·)).filterMap
        (latest middleRows) =
      ((expectedAt session middle target row.time).sort (· ≤ ·)).map fun bar =>
        (latest middleRows bar).getD row := by
    rw [← List.filterMap_eq_map]
    exact List.filterMap_congr hsummary
  rw [hmiddleRows, ← mergeChunk_flatMap hparts, sort_expectedAt hsource hmiddle hdvd hdvd',
    List.filterMap_flatMap]

end

/-- Resampling to a middle length and from there to the target is resampling to the target. -/
theorem resample_compose {calendars : String → ExchangeCalendar} {calendar : ExchangeCalendar}
    {market : String} {rows : List Kline} {source middle target : ℤ}
    (hmarket : marketCalendar calendars market = .ok calendar) (hk : EndsOnDate market calendar)
    (hrows : StampedOnGrid calendar source rows) (hsource : 0 < source) (hmiddle : 0 < middle)
    (htarget : 0 < target) (hdvd : source ∣ middle) (hdvd' : middle ∣ target)
    (htarget' : target < 86400) :
    (do
      let middleRows ← resampleEquityKlines id calendars rows market source middle
      resampleEquityKlines id calendars middleRows market middle target) =
    resampleEquityKlines id calendars rows market source target := by
  have hle : middle ≤ target := Int.le_of_dvd htarget hdvd'
  obtain ⟨middleRows, hmiddleRows, hsorted, hmem⟩ :=
    resample_spec hmarket hk hsource hmiddle hdvd (by linarith)
      (barsTrade_of_stamped hsource hmiddle hdvd hrows)
  obtain ⟨out, hout, houtSorted, houtMem⟩ := resample_spec hmarket hk hmiddle htarget hdvd'
    htarget' (barsTrade_of_stamped hmiddle htarget hdvd' (stampedOnGrid_candles hsource hmem))
  obtain ⟨direct, hdirect, hdirectSorted, hdirectMem⟩ := resample_spec hmarket hk hsource htarget
    (hdvd.trans hdvd') htarget' (barsTrade_of_stamped hsource htarget (hdvd.trans hdvd') hrows)
  have hsame : out = direct := by
    have hirrefl : Std.Irrefl fun earlier later : Kline => earlier.time < later.time :=
      ⟨fun row => lt_irrefl row.time⟩
    have hantisymm : Std.Antisymm fun earlier later : Kline => earlier.time < later.time :=
      ⟨fun _ _ h h' => absurd h (lt_asymm h')⟩
    refine List.Pairwise.eq_of_mem_iff houtSorted hdirectSorted ?_
    intro row
    rw [houtMem, hdirectMem]
    exact isCandle_compose hsource hmiddle htarget hdvd hdvd' hsorted hmem row
  rw [hmiddleRows, hdirect, ← hsame]
  exact hout

/-- The half hours of a morning and of the first one of the afternoon, but for one. -/
def halfHours : List Kline :=
  [0, 1, 3, 4, 7, 8].map fun index : ℤ =>
    { time := 20000 * 86400 + 5400 + index * 1800, openPrice := 100 + index, high := 103 + index,
      low := 99 - index, closePrice := 101 + index, volume := some 10 }

theorem resample_compose_halfHours :
    (do
      let middleRows ← resampleEquityKlines id (fun _ => hongKongDays) halfHours "HKStock" 1800 3600
      resampleEquityKlines id (fun _ => hongKongDays) middleRows "HKStock" 3600 7200) =
    resampleEquityKlines id (fun _ => hongKongDays) halfHours "HKStock" 1800 7200 :=
  resample_compose (marketCalendar_hongKong _) hongKongDays_ends
    (by unfold StampedOnGrid; decide +kernel) (by decide) (by decide) (by decide) (by decide)
    (by decide) (by decide)

end QuantDinger.Analysis
