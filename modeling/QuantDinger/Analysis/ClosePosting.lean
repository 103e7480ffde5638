import QuantDinger.Analysis.CloseLegs

/-!
# Posting the fills of a close with retries

Before the worker reports a close, every event posts one leg at most; after it, the row stays
ahead of the tracked leg by the others. Each move keeps this, unless it raises the row by the
quantity of one leg. From it follows that the trades stay within what the exchange executed.
-/

namespace QuantDinger.Analysis

open QuantDinger.Library QuantDinger.Model QuantDinger.Model.Live

/-! ## The close before and after the report -/

section Close

variable (legs : CloseLegs)

/-- Before the worker reports, only events have been posted, each of one leg. -/
structure Preparing (state : CloseDesk) : Prop where
  reported : state.reported = none
  recorded : state.recorded = false
  response : state.desk.store.row.response = {}
  claimed : state.desk.claimed = []
  posted : state.desk.posted = []
  executed_nonneg : ∀ leg, 0 ≤ state.executed leg
  quantity_nonneg : 0 ≤ state.desk.store.postedQuantity
  quantity_le : state.desk.store.postedQuantity ≤ allExecuted legs state.executed
  filled_nonneg : 0 ≤ state.desk.store.row.filled
  filled_le : state.desk.store.row.filled ≤ state.desk.store.postedQuantity

/-- A row that was claimed: the progress that it shows has been executed, and the row of the
store is not behind it. -/
def ClaimedAt (rest last bound filled : Amount) (row : PendingOrder) : Prop :=
  ∃ progress, RowAt legs rest last progress row ∧ progress ≤ bound ∧ row.filled ≤ filled

/-- A synchronisation that has been posted: the answer fits its row, and what it has beyond
the row is among the trades. -/
def JobAt (rest last bound filled quantity : Amount) (job : PendingOrder × RestAnswer) : Prop :=
  ∃ progress, RowAt legs rest last progress job.1 ∧ job.1.filled ≤ filled ∧
    AnswerFits legs job.1 job.2 ∧ 0 ≤ job.2.cumulativeFilled ∧ job.2.cumulativeFilled ≤ bound ∧
    (0 < job.2.cumulativeFilled → 0 < job.2.cumulativeAvg) ∧
    (progress < job.2.cumulativeFilled → rest + job.2.cumulativeFilled ≤ quantity)

/-- After the report, the other legs are at their end and have executed `rest`, and the tracked
leg was reported with `last`. -/
structure Following (rest last : Amount) (state : CloseDesk) : Prop where
  reported : state.reported = some (rest + last)
  others_executed : restExecuted legs state.executed = rest
  executed_nonneg : ∀ leg, 0 ≤ state.executed leg
  row : ClaimedAt legs rest last (state.executed legs.tracked) state.desk.store.row.filled
    state.desk.store.row
  claimed : ∀ row ∈ state.desk.claimed,
    ClaimedAt legs rest last (state.executed legs.tracked) state.desk.store.row.filled row
  jobs : ∀ job ∈ state.desk.posted,
    JobAt legs rest last (state.executed legs.tracked) state.desk.store.row.filled
      state.desk.store.postedQuantity job
  quantity_nonneg : 0 ≤ state.desk.store.postedQuantity
  quantity_le : state.desk.store.postedQuantity ≤ rest + state.executed legs.tracked
  filled_le : state.desk.store.row.filled ≤ max state.desk.store.postedQuantity (rest + last)
  recorded : state.recorded = true → rest + last ≤ state.desk.store.postedQuantity

end Close

section Steps

variable {legs : CloseLegs} {rest last : Amount} {state : CloseDesk}

theorem tracked_notMem_others (legs : CloseLegs) : legs.tracked ∉ legs.others := by
  intro hmem
  have hdisjoint := (List.nodup_append.mp legs.distinct).2.2
  exact hdisjoint _ hmem _ (List.mem_singleton_self _) rfl

theorem executed_le_all {executed : String → Amount} (hnonneg : ∀ leg, 0 ≤ executed leg)
    {leg : String} (hleg : leg ∈ legs.others ++ [legs.tracked]) :
    executed leg ≤ allExecuted legs executed := by
  have hall : allExecuted legs executed =
      ((legs.others ++ [legs.tracked]).map executed).sum := by
    unfold allExecuted restExecuted
    rw [List.map_append, List.sum_append, List.map_singleton, List.sum_singleton]
  rw [hall]
  refine List.single_le_sum ?_ _ (List.mem_map_of_mem hleg)
  intro quantity hquantity
  obtain ⟨other, -, rfl⟩ := List.mem_map.mp hquantity
  exact hnonneg other

theorem restExecuted_update (executed : String → Amount) (quantity : Amount) :
    restExecuted legs (Function.update executed legs.tracked quantity) =
      restExecuted legs executed := by
  unfold restExecuted
  congr 1
  refine List.map_congr_left fun leg hleg => ?_
  refine Function.update_of_ne ?_ _ _
  rintro rfl
  exact tracked_notMem_others legs hleg

theorem restExecuted_mono {executed executed' : String → Amount}
    (h : ∀ leg, executed leg ≤ executed' leg) :
    restExecuted legs executed ≤ restExecuted legs executed' := by
  unfold restExecuted
  exact List.sum_le_sum fun leg _ => h leg

theorem restExecuted_nonneg {executed : String → Amount} (h : ∀ leg, 0 ≤ executed leg) :
    0 ≤ restExecuted legs executed := by
  unfold restExecuted
  refine List.sum_nonneg fun quantity hquantity => ?_
  obtain ⟨leg, -, rfl⟩ := List.mem_map.mp hquantity
  exact h leg

theorem update_mono {executed : String → Amount} {leg : String} {quantity : Amount}
    (h : executed leg ≤ quantity) (other : String) :
    executed other ≤ Function.update executed leg quantity other := by
  by_cases hsame : other = leg
  · subst hsame
    rw [Function.update_self]
    exact h
  · rw [Function.update_of_ne hsame]

/-! ### Before the report -/

theorem Preparing.execute (h : Preparing legs state) {leg : String} {quantity : Amount}
    (hgrown : state.executed leg ≤ quantity) :
    Preparing legs (state.act (.execute leg quantity)) := by
  have hmono : ∀ other, state.executed other ≤ Function.update state.executed leg quantity other :=
    update_mono hgrown
  refine ⟨h.reported, h.recorded, h.response, h.claimed, h.posted,
    fun other => (h.executed_nonneg other).trans (hmono other), h.quantity_nonneg, ?_,
    h.filled_nonneg, h.filled_le⟩
  exact h.quantity_le.trans (add_le_add (restExecuted_mono hmono) (hmono _))

theorem Preparing.project (h : Preparing legs state) {event : ExecutionEvent}
    (hallowed : Plausible legs state (.transact (.project event)))
    (hclear : ¬ Swallowed state.desk.store event.cumulativeQuantity) :
    Preparing legs (state.act (.transact (.project event))) := by
  obtain ⟨hleg, hpos, hexecuted, hpriced⟩ := hallowed
  have hmarket : (state.desk.store.row.response.phases.getD {}).marketSummary = none := by
    rw [h.response]
    rfl
  have hrecorded : (state.act (.transact (.project event))).recorded = false := by
    show (state.recorded || false) = false
    rw [h.recorded]
    rfl
  have hwithin : event.cumulativeQuantity ≤ allExecuted legs state.executed :=
    hexecuted.trans (executed_le_all h.executed_nonneg hleg)
  rcases project_quantity hmarket hpos hpriced with hsame |
    ⟨hfilled, hresponse, -, hquantity, hgrown, -⟩
  · have hstore : (state.act (.transact (.project event))).desk.store = state.desk.store := hsame
    refine ⟨h.reported, hrecorded, ?_, h.claimed, h.posted, h.executed_nonneg, ?_, ?_, ?_, ?_⟩
    · rw [hstore]
      exact h.response
    · rw [hstore]
      exact h.quantity_nonneg
    · rw [hstore]
      exact h.quantity_le
    · rw [hstore]
      exact h.filled_nonneg
    · rw [hstore]
      exact h.filled_le
  · have hquantity := hquantity.resolve_left hclear
    refine ⟨h.reported, hrecorded, hresponse.trans h.response, h.claimed, h.posted,
      h.executed_nonneg, h.quantity_nonneg.trans hgrown, ?_, ?_, ?_⟩
    · exact hquantity.le.trans (max_le h.quantity_le hwithin)
    · exact (h.filled_nonneg.trans (le_max_left _ _)).trans hfilled.ge
    · refine hfilled.le.trans (le_trans (max_le ?_ (le_refl _)) hquantity.ge)
      exact h.filled_le.trans (le_max_left _ _)

theorem CloseReport.tracked {executed : String → Amount} {report : SentReport}
    (h : CloseReport legs executed report last) :
    ((retryOrdersOf report.response).find? fun retry =>
        retry.exchangeOrderId = legs.tracked).map RetryOrder.filledQuantity =
      if legs.others = [] then none else some last := by
  have hretries := h.retries
  by_cases hothers : legs.others = []
  · rw [if_pos hothers] at hretries ⊢
    rw [hretries]
    rfl
  · rw [if_neg hothers] at hretries ⊢
    obtain ⟨front, retry, hlist, hfront, -, hid, hlast⟩ := hretries
    have hnone : front.find? (fun entry => entry.exchangeOrderId = legs.tracked) = none := by
      refine List.find?_eq_none.mpr fun entry hentry => ?_
      have hmem : entry.exchangeOrderId ∈ legs.others.tail := by
        rw [← hfront]
        exact List.mem_map_of_mem hentry
      intro hsame
      rw [decide_eq_true_iff] at hsame
      rw [hsame] at hmem
      exact tracked_notMem_others legs (List.mem_of_mem_tail hmem)
    rw [hlist, List.find?_append, hnone, Option.none_or, List.find?_cons_of_pos]
    · rw [← hlast]
      rfl
    · exact decide_eq_true hid

theorem Preparing.markSent (h : Preparing legs state) {report : SentReport}
    (hreport : CloseReport legs state.executed report last)
    (hbehind : legs.others = [] ∨ state.desk.store.row.filled ≤ report.filled) :
    Following legs (restExecuted legs state.executed) last
      (state.act (.transact (.markSent report))) := by
  have hrest := @restExecuted_nonneg legs _ h.executed_nonneg
  have hrow : ClaimedAt legs (restExecuted legs state.executed) last
      (state.executed legs.tracked) (state.desk.store.markSent report).row.filled
      (state.desk.store.markSent report).row := by
    have hmarker : ∀ marker, (state.desk.store.markSent report).row.response.liveFillSync =
        some marker → False := by
      intro marker hsome
      rw [show (state.desk.store.markSent report).row.response = report.response from rfl,
        hreport.marker] at hsome
      cases hsome
    rcases Decidable.em (legs.others = []) with hothers | hothers
    · have hzero : restExecuted legs state.executed = 0 := by
        unfold restExecuted
        rw [hothers]
        rfl
      refine ⟨max state.desk.store.row.filled last, ⟨hreport.orderId, hreport.market,
        hreport.tracked, ?_, hrest, fun _ => hzero, hreport.nonneg, le_max_right _ _,
        fun marker hsome => (hmarker marker hsome).elim, Or.inl hothers⟩, ?_, le_refl _⟩
      · show max state.desk.store.row.filled report.filled = _
        rw [hreport.filled, hzero, zero_add, zero_add]
      · refine max_le ?_ hreport.executed_le
        have hall := h.filled_le.trans h.quantity_le
        unfold allExecuted at hall
        rwa [hzero, zero_add] at hall
    · refine ⟨last, ⟨hreport.orderId, hreport.market, hreport.tracked, ?_, hrest,
        fun hnone => absurd hnone hothers, hreport.nonneg, le_refl _,
        fun marker hsome => (hmarker marker hsome).elim, Or.inr (Or.inl rfl)⟩,
        hreport.executed_le, le_refl _⟩
      show max state.desk.store.row.filled report.filled = _
      rw [max_eq_right (hbehind.resolve_left hothers), hreport.filled]
  refine ⟨?_, rfl, h.executed_nonneg, hrow, ?_, ?_, h.quantity_nonneg, h.quantity_le, ?_, ?_⟩
  · exact congrArg some hreport.filled
  · intro row hmem
    have hnil : (state.act (.transact (.markSent report))).desk.claimed = [] := h.claimed
    rw [hnil] at hmem
    exact absurd hmem List.not_mem_nil
  · intro job hmem
    have hnil : (state.act (.transact (.markSent report))).desk.posted = [] := h.posted
    rw [hnil] at hmem
    exact absurd hmem List.not_mem_nil
  · show max state.desk.store.row.filled report.filled ≤ _
    rw [hreport.filled]
    exact max_le_max_right _ h.filled_le
  · intro hrecorded
    have hfalse : (state.recorded || false) = true := hrecorded
    rw [h.recorded] at hfalse
    cases hfalse

/-! ### After the report -/

theorem ClaimedAt.mono {bound bound' filled filled' : Amount} {row : PendingOrder}
    (h : ClaimedAt legs rest last bound filled row) (hbound : bound ≤ bound')
    (hfilled : filled ≤ filled') : ClaimedAt legs rest last bound' filled' row := by
  obtain ⟨progress, hrow, hexecuted, hbehind⟩ := h
  exact ⟨progress, hrow, hexecuted.trans hbound, hbehind.trans hfilled⟩

theorem JobAt.mono {bound bound' filled filled' quantity quantity' : Amount}
    {job : PendingOrder × RestAnswer} (h : JobAt legs rest last bound filled quantity job)
    (hbound : bound ≤ bound') (hfilled : filled ≤ filled') (hquantity : quantity ≤ quantity') :
    JobAt legs rest last bound' filled' quantity' job := by
  obtain ⟨progress, hrow, hbehind, hfits, hnonneg, hexecuted, hpriced, hposted⟩ := h
  exact ⟨progress, hrow, hbehind.trans hfilled, hfits, hnonneg, hexecuted.trans hbound, hpriced,
    fun hnew => (hposted hnew).trans hquantity⟩

theorem Following.replace (h : Following legs rest last state) {desk : Desk} {recorded : Bool}
    (hrow : ClaimedAt legs rest last (state.executed legs.tracked) desk.store.row.filled
      desk.store.row)
    (hfilled : state.desk.store.row.filled ≤ desk.store.row.filled)
    (hgrown : state.desk.store.postedQuantity ≤ desk.store.postedQuantity)
    (hclaimed : ∀ row ∈ desk.claimed, row ∈ state.desk.claimed ∨
      ClaimedAt legs rest last (state.executed legs.tracked) desk.store.row.filled row)
    (hjobs : ∀ job ∈ desk.posted, job ∈ state.desk.posted ∨
      JobAt legs rest last (state.executed legs.tracked) desk.store.row.filled
        desk.store.postedQuantity job)
    (hquantity : desk.store.postedQuantity ≤ rest + state.executed legs.tracked)
    (hposted : desk.store.row.filled ≤ max desk.store.postedQuantity (rest + last))
    (hrecorded : recorded = true → state.recorded = true ∨
      rest + last ≤ desk.store.postedQuantity) :
    Following legs rest last
      { state with desk := desk, reported := state.reported, recorded := recorded } := by
  refine ⟨h.reported, h.others_executed, h.executed_nonneg, hrow, fun row hmem => ?_,
    fun job hmem => ?_, h.quantity_nonneg.trans hgrown, hquantity, hposted, fun htrue => ?_⟩
  · rcases hclaimed row hmem with hold | hnew
    · exact (h.claimed row hold).mono (le_refl _) hfilled
    · exact hnew
  · rcases hjobs job hmem with hold | hnew
    · exact (h.jobs job hold).mono (le_refl _) hfilled hgrown
    · exact hnew
  · rcases hrecorded htrue with hold | hnew
    · exact (h.recorded hold).trans hgrown
    · exact hnew

theorem Following.execute (h : Following legs rest last state) {quantity : Amount}
    (hgrown : state.executed legs.tracked ≤ quantity) :
    Following legs rest last (state.act (.execute legs.tracked quantity)) := by
  have hmono : ∀ other, state.executed other ≤
      Function.update state.executed legs.tracked quantity other := update_mono hgrown
  have htracked := hmono legs.tracked
  refine ⟨h.reported, (restExecuted_update _ _).trans h.others_executed,
    fun other => (h.executed_nonneg other).trans (hmono other), h.row.mono htracked (le_refl _),
    fun row hmem => (h.claimed row hmem).mono htracked (le_refl _),
    fun job hmem => (h.jobs job hmem).mono htracked (le_refl _) (le_refl _), h.quantity_nonneg,
    ?_, h.filled_le, h.recorded⟩
  exact h.quantity_le.trans (add_le_add (le_refl rest) htracked)

theorem Following.reported_le (h : Following legs rest last state) :
    0 ≤ rest + last ∧ rest + last ≤ rest + state.executed legs.tracked := by
  obtain ⟨progress, hrow, hexecuted, -⟩ := h.row
  have hlast := hrow.last_le.trans hexecuted
  exact ⟨add_nonneg hrow.rest_nonneg hrow.last_nonneg, by linarith⟩

theorem Following.persist (h : Following legs rest last state) {average : Amount}
    (hclear : ¬ Swallowed state.desk.store (rest + last)) :
    Following legs rest last (state.act (.transact (.persist (rest + last) average))) := by
  obtain ⟨hnonneg, hwithin⟩ := h.reported_le
  cases hpersist : state.desk.store.persistCumulative (rest + last) average with
  | error e =>
    have hact : state.act (.transact (.persist (rest + last) average)) =
        { state with recorded := state.recorded || false } := by
      unfold CloseDesk.act Desk.act reportedAfter recordsReport OrderStore.commit
      dsimp only
      rw [hpersist]
    rw [hact]
    exact h.replace h.row (le_refl _) (le_refl _) (fun _ => Or.inl) (fun _ => Or.inl)
      h.quantity_le h.filled_le fun htrue => Or.inl (by simpa using htrue)
  | ok after =>
    have hact : state.act (.transact (.persist (rest + last) average)) =
        { state with
          desk := { state.desk with store := after }
          recorded := state.recorded || true } := by
      unfold CloseDesk.act Desk.act reportedAfter recordsReport OrderStore.commit
      dsimp only
      rw [hpersist]
    obtain ⟨hrow, hquantity, hgrown, -⟩ := persist_quantity hnonneg hpersist
    have hquantity := hquantity.resolve_left hclear
    rw [hact]
    refine h.replace ?_ ?_ hgrown (fun _ => Or.inl) (fun _ => Or.inl) ?_ ?_ fun _ => Or.inr ?_
    · dsimp only
      rw [hrow]
      exact h.row
    · exact hrow.symm ▸ le_refl _
    · exact hquantity.le.trans (max_le h.quantity_le hwithin)
    · dsimp only
      rw [hrow]
      exact h.filled_le.trans (max_le_max_right _ hgrown)
    · exact (le_max_right _ _).trans hquantity.ge

theorem Following.project (h : Following legs rest last state) {event : ExecutionEvent}
    (hallowed : Plausible legs state (.transact (.project event)))
    (hseparate : Separate legs state (.transact (.project event))) :
    Following legs rest last (state.act (.transact (.project event))) := by
  obtain ⟨hleg, hpos, hexecuted, hpriced⟩ := hallowed
  obtain ⟨hclear, hraises⟩ := hseparate
  obtain ⟨progress, hrow, hprogress, -⟩ := h.row
  have hwithin : event.cumulativeQuantity ≤ rest + state.executed legs.tracked := by
    have hall := hexecuted.trans (executed_le_all h.executed_nonneg hleg)
    unfold allExecuted at hall
    rwa [h.others_executed] at hall
  have hrecorded : ∀ {recorded : Bool}, (recorded || false) = true → recorded = true := by simp
  rcases project_quantity hrow.market hpos hpriced with hsame |
    ⟨hfilled, hresponse, hid, hquantity, hgrown, -⟩
  · have hact : state.act (.transact (.project event)) =
        { state with recorded := state.recorded || false } := by
      unfold CloseDesk.act Desk.act reportedAfter recordsReport
      dsimp only
      rw [hsame]
    rw [hact]
    exact h.replace h.row (le_refl _) (le_refl _) (fun _ => Or.inl) (fun _ => Or.inl)
      h.quantity_le h.filled_le fun htrue => Or.inl (hrecorded htrue)
  · have hquantity := hquantity.resolve_left hclear
    refine h.replace ?_ ((le_max_left _ _).trans hfilled.ge) hgrown (fun _ => Or.inl)
      (fun _ => Or.inl) ?_ ?_ fun htrue => Or.inl (hrecorded htrue)
    · have hraises : legs.others = [] ∨ max state.desk.store.postedQuantity
          event.cumulativeQuantity ≤ state.desk.store.row.filled := by
        rcases hraises with hothers | hnone | hle
        · exact Or.inl hothers
        · rw [h.reported] at hnone
          cases hnone
        · exact Or.inr hle
      rcases hraises with hothers | hle
      · have hzero := hrow.rest_zero hothers
        refine ⟨max progress (max state.desk.store.postedQuantity event.cumulativeQuantity),
          hrow.raise hid hresponse ?_ (le_max_left _ _) (Or.inl hothers), ?_, le_refl _⟩
        · refine hfilled.trans ?_
          rw [hrow.filled, hzero, zero_add, zero_add]
        · have hposted := h.quantity_le
          rw [hzero, zero_add] at hposted hwithin
          exact max_le hprogress (max_le hposted hwithin)
      · refine ⟨progress, hrow.raise hid hresponse ?_ (le_refl _) (Or.inr rfl), hprogress,
          le_refl _⟩
        exact (hfilled.trans (max_eq_left hle)).trans hrow.filled
    · exact hquantity.le.trans (max_le h.quantity_le hwithin)
    · refine hfilled.le.trans (max_le ?_ (hquantity.ge.trans (le_max_left _ _)))
      exact h.filled_le.trans (max_le_max_right _ hgrown)

theorem Following.transact (h : Following legs rest last state) {transaction : Transaction}
    (hreported : reportedAfter state.reported transaction = state.reported)
    (hrecords : recordsReport state.desk.store transaction = false)
    (hrow : ClaimedAt legs rest last (state.executed legs.tracked)
      (state.desk.act transaction).store.row.filled (state.desk.act transaction).store.row)
    (hfilled : state.desk.store.row.filled ≤ (state.desk.act transaction).store.row.filled)
    (hgrown : state.desk.store.postedQuantity ≤
      (state.desk.act transaction).store.postedQuantity)
    (hclaimed : ∀ row ∈ (state.desk.act transaction).claimed, row ∈ state.desk.claimed ∨
      ClaimedAt legs rest last (state.executed legs.tracked)
        (state.desk.act transaction).store.row.filled row)
    (hjobs : ∀ job ∈ (state.desk.act transaction).posted, job ∈ state.desk.posted ∨
      JobAt legs rest last (state.executed legs.tracked)
        (state.desk.act transaction).store.row.filled
        (state.desk.act transaction).store.postedQuantity job)
    (hquantity : (state.desk.act transaction).store.postedQuantity ≤
      rest + state.executed legs.tracked)
    (hposted : (state.desk.act transaction).store.row.filled ≤
      max (state.desk.act transaction).store.postedQuantity (rest + last)) :
    Following legs rest last (state.act (.transact transaction)) := by
  have hact : state.act (.transact transaction) =
      { state with
        desk := state.desk.act transaction
        recorded := state.recorded || false } := by
    simp only [CloseDesk.act, hreported, hrecords]
  rw [hact]
  refine h.replace hrow hfilled hgrown hclaimed hjobs hquantity hposted fun htrue => Or.inl ?_
  rwa [Bool.or_false] at htrue

theorem Following.idle (h : Following legs rest last state) {transaction : Transaction}
    (hreported : reportedAfter state.reported transaction = state.reported)
    (hrecords : recordsReport state.desk.store transaction = false)
    (hid : (state.desk.act transaction).store.row.exchangeOrderId =
      state.desk.store.row.exchangeOrderId)
    (hresponse : (state.desk.act transaction).store.row.response =
      state.desk.store.row.response)
    (hfilled : (state.desk.act transaction).store.row.filled = state.desk.store.row.filled)
    (htrades : (state.desk.act transaction).store.trades = state.desk.store.trades)
    (hclaimed : ∀ row ∈ (state.desk.act transaction).claimed, row ∈ state.desk.claimed ∨
      row = (state.desk.act transaction).store.row)
    (hjobs : (state.desk.act transaction).posted = state.desk.posted) :
    Following legs rest last (state.act (.transact transaction)) := by
  have hquantity : (state.desk.act transaction).store.postedQuantity =
      state.desk.store.postedQuantity := by
    unfold OrderStore.postedQuantity
    rw [htrades]
  obtain ⟨progress, hrow, hprogress, -⟩ := h.row
  have hrow' : ClaimedAt legs rest last (state.executed legs.tracked)
      (state.desk.act transaction).store.row.filled (state.desk.act transaction).store.row :=
    ⟨progress, hrow.raise hid hresponse (hfilled.trans hrow.filled) (le_refl _) (Or.inr rfl),
      hprogress, le_refl _⟩
  refine h.transact hreported hrecords hrow' hfilled.ge hquantity.ge ?_ ?_ ?_ ?_
  · intro row hmem
    rcases hclaimed row hmem with hold | rfl
    · exact Or.inl hold
    · exact Or.inr hrow'
  · intro job hmem
    rw [hjobs] at hmem
    exact Or.inl hmem
  · rw [hquantity]
    exact h.quantity_le
  · rw [hfilled, hquantity]
    exact h.filled_le

theorem Following.claim (h : Following legs rest last state) (clock : ClaimClock) :
    Following legs rest last (state.act (.transact (.claim clock))) := by
  by_cases hclaimable : state.desk.store.Claimable clock
  · have hact : state.desk.act (.claim clock) =
        { state.desk with
          store := { state.desk.store with row := state.desk.store.row.claimed }
          claimed := state.desk.claimed ++ [state.desk.store.row.claimed] } := by
      simp only [Desk.act, if_pos hclaimable]
    refine h.idle rfl rfl ?_ ?_ ?_ ?_ ?_ ?_
    · rw [hact]
      rfl
    · rw [hact]
      rfl
    · rw [hact]
      rfl
    · rw [hact]
    · rw [hact]
      intro row hmem
      rcases List.mem_append.mp hmem with hold | hnew
      · exact Or.inl hold
      · exact Or.inr (List.mem_singleton.mp hnew)
    · rw [hact]
  · have hact : state.desk.act (.claim clock) = state.desk := by
      simp only [Desk.act, if_neg hclaimable]
    refine h.idle rfl rfl ?_ ?_ ?_ ?_ ?_ ?_
    all_goals rw [hact]
    exact fun _ => Or.inl

theorem Following.cancel (h : Following legs rest last state) :
    Following legs rest last (state.act (.transact .cancel)) := by
  have hcancel : state.desk.store.persistCancellation.row.exchangeOrderId =
        state.desk.store.row.exchangeOrderId ∧
      state.desk.store.persistCancellation.row.response = state.desk.store.row.response ∧
      state.desk.store.persistCancellation.row.filled = state.desk.store.row.filled ∧
      state.desk.store.persistCancellation.trades = state.desk.store.trades := by
    unfold OrderStore.persistCancellation
    split
    · exact ⟨rfl, rfl, rfl, rfl⟩
    · exact ⟨rfl, rfl, rfl, rfl⟩
  obtain ⟨hid, hresponse, hfilled, htrades⟩ := hcancel
  exact h.idle rfl rfl hid hresponse hfilled htrades (fun _ => Or.inl) rfl

theorem failedSnapshot_row {store : OrderStore} {row : PendingOrder}
    (hbehind : row.filled ≤ store.row.filled) :
    (store.updateLiveSentOrderSnapshot (failedSnapshot row)).row.exchangeOrderId =
        store.row.exchangeOrderId ∧
      (store.updateLiveSentOrderSnapshot (failedSnapshot row)).row.response =
        store.row.response ∧
      (store.updateLiveSentOrderSnapshot (failedSnapshot row)).row.filled = store.row.filled := by
  unfold OrderStore.updateLiveSentOrderSnapshot failedSnapshot
  dsimp only
  split_ifs with hguard
  · exact ⟨rfl, rfl, le_antisymm hbehind hguard⟩
  · exact ⟨rfl, rfl, rfl⟩

theorem Following.syncFailed (h : Following legs rest last state) (index : ℕ) :
    Following legs rest last (state.act (.transact (.syncFailed index))) := by
  cases hrow : state.desk.claimed[index]? with
  | none =>
    have hact := act_syncFailed_none hrow
    refine h.idle rfl rfl ?_ ?_ ?_ ?_ ?_ ?_
    all_goals rw [hact]
    exact fun _ => Or.inl
  | some row =>
    obtain ⟨-, -, -, hbehind⟩ := h.claimed row (List.mem_of_getElem? hrow)
    obtain ⟨hid, hresponse, hfilled⟩ := failedSnapshot_row hbehind
    have hact : state.desk.act (.syncFailed index) =
        { state.desk with
          store := state.desk.store.updateLiveSentOrderSnapshot (failedSnapshot row)
          claimed := state.desk.claimed.eraseIdx index } := by
      simp only [Desk.act, hrow]
    refine h.idle rfl rfl ?_ ?_ ?_ ?_ ?_ ?_
    all_goals rw [hact]
    · exact hid
    · exact hresponse
    · exact hfilled
    · rfl
    · exact fun other hmem => Or.inl (List.mem_of_mem_eraseIdx hmem)

theorem RowAt.persist {progress : Amount} {row : PendingOrder} {answer : RestAnswer}
    {store after : OrderStore} (h : RowAt legs rest last progress row)
    (hnonneg : 0 ≤ answer.cumulativeFilled)
    (hpriced : 0 < answer.cumulativeFilled → 0 < answer.cumulativeAvg)
    (hfits : AnswerFits legs row answer) (hclear : ¬ Swallowed store (syncTotal legs row answer))
    (hpersist : store.syncPersist row answer = .ok after) :
    after.row = store.row ∧ store.postedQuantity ≤ after.postedQuantity ∧
      after.postedQuantity ≤
        max store.postedQuantity (rest + max progress answer.cumulativeFilled) ∧
      (progress < answer.cumulativeFilled ∨ fillDeltaEpsilon < answer.cumulativeFilled →
        rest + max progress answer.cumulativeFilled ≤ after.postedQuantity) := by
  obtain ⟨plan, hplan, htotal, hsilent⟩ := h.plan hnonneg hpriced hfits
  have htotal' := htotal.trans h.total
  have hpositive : 0 ≤ plan.aggregateFilled := by
    rw [htotal']
    exact add_nonneg h.rest_nonneg (h.progress_nonneg.trans (le_max_left _ _))
  unfold OrderStore.syncPersist at hpersist
  rw [hplan] at hpersist
  dsimp only at hpersist
  by_cases hposts : plan.posts = true
  · rw [if_pos hposts] at hpersist
    obtain ⟨hrow, hquantity, hgrown, hle⟩ := persist_quantity hpositive hpersist
    rw [← htotal] at hclear
    have hquantity := hquantity.resolve_left hclear
    rw [htotal'] at hquantity hle
    exact ⟨hrow, hgrown, hle, fun _ => (le_max_right _ _).trans hquantity.ge⟩
  · rw [if_neg hposts] at hpersist
    cases hpersist
    refine ⟨rfl, le_refl _, le_max_left _ _, fun hnew => ?_⟩
    have hfalse : plan.posts = false := Bool.eq_false_iff.mpr hposts
    obtain ⟨hstale, hsmall⟩ := hsilent hfalse
    rcases hnew with hnew | hlarge
    · exact absurd hstale (not_le.mpr hnew)
    · exact absurd hsmall (not_le.mpr hlarge)

theorem Following.syncPersist (h : Following legs rest last state) {index : ℕ}
    {answer : RestAnswer}
    (hallowed : Plausible legs state (.transact (.syncPersist index answer)))
    (hseparate : Separate legs state (.transact (.syncPersist index answer))) :
    Following legs rest last (state.act (.transact (.syncPersist index answer))) := by
  obtain ⟨hnonneg, hexecuted, hpriced⟩ := hallowed
  cases hrow : state.desk.claimed[index]? with
  | none =>
    have hact := act_syncPersist_none hrow answer
    refine h.idle rfl rfl ?_ ?_ ?_ ?_ ?_ ?_
    all_goals rw [hact]
    exact fun _ => Or.inl
  | some row =>
    cases hpersist : state.desk.store.syncPersist row answer with
    | error e =>
      have hact : state.desk.act (.syncPersist index answer) =
          { state.desk with claimed := state.desk.claimed.eraseIdx index } := by
        simp only [Desk.act, hrow, hpersist]
      refine h.idle rfl rfl ?_ ?_ ?_ ?_ ?_ ?_
      all_goals rw [hact]
      exact fun other hmem => Or.inl (List.mem_of_mem_eraseIdx hmem)
    | ok after =>
      have hact : state.desk.act (.syncPersist index answer) =
          { store := after
            claimed := state.desk.claimed.eraseIdx index
            posted := state.desk.posted ++ [(row, answer)] } := by
        simp only [Desk.act, hrow, hpersist]
      obtain ⟨progress, hat, hprogress, hbehind⟩ := h.claimed row (List.mem_of_getElem? hrow)
      obtain ⟨hfits, hclear⟩ := hseparate row hrow
      obtain ⟨hsame, hgrown, hle, hposted⟩ := hat.persist hnonneg hpriced hfits hclear hpersist
      have htotal : rest + max progress answer.cumulativeFilled ≤
          rest + state.executed legs.tracked :=
        add_le_add (le_refl rest) (max_le hprogress hexecuted)
      refine h.transact rfl rfl ?_ ?_ ?_ ?_ ?_ ?_ ?_
      all_goals rw [hact]
      · dsimp only
        rw [hsame]
        exact h.row
      · dsimp only
        rw [hsame]
      · exact hgrown
      · exact fun other hmem => Or.inl (List.mem_of_mem_eraseIdx hmem)
      · intro job hmem
        rcases List.mem_append.mp hmem with hold | hnew
        · exact Or.inl hold
        · rw [List.mem_singleton.mp hnew]
          refine Or.inr ⟨progress, hat, ?_, hfits, hnonneg, hexecuted, hpriced, fun hbeyond => ?_⟩
          · dsimp only
            rw [hsame]
            exact hbehind
          · have hreached := hposted (Or.inl hbeyond)
            rwa [max_eq_right hbeyond.le] at hreached
      · exact hle.trans (max_le h.quantity_le htotal)
      · dsimp only
        rw [hsame]
        exact h.filled_le.trans (max_le_max_right _ hgrown)

theorem Following.syncUpdate (h : Following legs rest last state) (index : ℕ) :
    Following legs rest last (state.act (.transact (.syncUpdate index))) := by
  cases hjob : state.desk.posted[index]? with
  | none =>
    have hact := act_syncUpdate_none hjob
    refine h.idle rfl rfl ?_ ?_ ?_ ?_ ?_ ?_
    all_goals rw [hact]
    exact fun _ => Or.inl
  | some job =>
    obtain ⟨row, answer⟩ := job
    obtain ⟨progress, hat, hbehind, hfits, hnonneg, hexecuted, hpriced, hposted⟩ :=
      h.jobs _ (List.mem_of_getElem? hjob)
    obtain ⟨current, hrow, hcurrent, -⟩ := h.row
    obtain ⟨plan, hplan, htotal, -⟩ := hat.plan hnonneg hpriced hfits
    obtain ⟨update, hupdate, hfilled, -, hresponse⟩ := syncSnapshot_ok hplan
    have hact : state.desk.act (.syncUpdate index) =
        { state.desk with
          store := state.desk.store.updateLiveSentOrderSnapshot update
          posted := state.desk.posted.eraseIdx index } := by
      simp only [Desk.act, hjob, hupdate]
    have hquantity :
        (state.desk.store.updateLiveSentOrderSnapshot update).postedQuantity =
          state.desk.store.postedQuantity := rfl
    obtain ⟨reached, hupdated, hreached, hmoved⟩ :=
      hrow.update hat hbehind hnonneg hfits (hfilled.trans htotal) hresponse
    have hgrown : state.desk.store.row.filled ≤
        (state.desk.store.updateLiveSentOrderSnapshot update).row.filled := by
      rcases hmoved with hsame | ⟨-, hnew, hle⟩
      · exact hsame.ge
      · exact hle.trans hnew.ge
    refine h.transact rfl rfl ?_ ?_ ?_ ?_ ?_ ?_ ?_
    all_goals rw [hact]
    · exact ⟨reached, hupdated, hreached.trans (max_le hcurrent hexecuted), le_refl _⟩
    · exact hgrown
    · exact hquantity.ge
    · exact fun _ => Or.inl
    · exact fun other hmem => Or.inl (List.mem_of_mem_eraseIdx hmem)
    · exact h.quantity_le
    · dsimp only
      rw [hquantity]
      rcases hmoved with hsame | ⟨hbeyond, hnew, -⟩
      · exact hsame.le.trans h.filled_le
      · exact hnew.le.trans ((hposted hbeyond).trans (le_max_left _ _))

/-! ### Every move -/

/-- The invariant: the worker has not reported, or the row is ahead of the tracked leg by the
others. -/
def WithinExecuted (legs : CloseLegs) (state : CloseDesk) : Prop :=
  Preparing legs state ∨ ∃ rest last, Following legs rest last state

theorem WithinExecuted.quantity_le (h : WithinExecuted legs state) :
    state.desk.store.postedQuantity ≤ allExecuted legs state.executed := by
  rcases h with hpreparing | ⟨rest, last, hfollowing⟩
  · exact hpreparing.quantity_le
  · unfold allExecuted
    rw [hfollowing.others_executed]
    exact hfollowing.quantity_le

theorem Preparing.idle (h : Preparing legs state) {transaction : Transaction}
    (hreported : reportedAfter state.reported transaction = state.reported)
    (hrecords : recordsReport state.desk.store transaction = false)
    (hresponse : (state.desk.act transaction).store.row.response =
      state.desk.store.row.response)
    (hfilled : (state.desk.act transaction).store.row.filled = state.desk.store.row.filled)
    (htrades : (state.desk.act transaction).store.trades = state.desk.store.trades)
    (hclaimed : (state.desk.act transaction).claimed = state.desk.claimed)
    (hjobs : (state.desk.act transaction).posted = state.desk.posted) :
    Preparing legs (state.act (.transact transaction)) := by
  have hquantity : (state.desk.act transaction).store.postedQuantity =
      state.desk.store.postedQuantity := by
    unfold OrderStore.postedQuantity
    rw [htrades]
  refine ⟨hreported.trans h.reported, ?_, hresponse.trans h.response, hclaimed.trans h.claimed,
    hjobs.trans h.posted, h.executed_nonneg, ?_, ?_, ?_, ?_⟩
  · show (state.recorded || recordsReport state.desk.store transaction) = false
    rw [h.recorded, hrecords]
    rfl
  · exact h.quantity_nonneg.trans hquantity.ge
  · exact hquantity.le.trans h.quantity_le
  · exact h.filled_nonneg.trans hfilled.ge
  · exact (hfilled.le.trans h.filled_le).trans hquantity.ge

theorem Preparing.act (h : Preparing legs state) {move : CloseMove}
    (hallowed : Plausible legs state move) (hseparate : Separate legs state move) :
    WithinExecuted legs (state.act move) := by
  have hunclaimed : ∀ index : ℕ, state.desk.claimed[index]? = none := by
    intro index
    rw [h.claimed]
    rfl
  have hunposted : ∀ index : ℕ, state.desk.posted[index]? = none := by
    intro index
    rw [h.posted]
    rfl
  cases move with
  | execute leg quantity => exact Or.inl (h.execute hallowed.2.1)
  | transact transaction =>
    cases transaction with
    | markSent report =>
      obtain ⟨-, last, hreport⟩ := hallowed
      exact Or.inr ⟨_, last, h.markSent hreport hseparate⟩
    | persist cumulative average =>
      have hnone := hallowed.1
      rw [h.reported] at hnone
      cases hnone
    | project event => exact Or.inl (h.project hallowed hseparate.1)
    | claim clock => exact absurd h.reported hallowed
    | syncPersist index answer =>
      have hact := act_syncPersist_none (hunclaimed index) answer
      refine Or.inl (h.idle rfl rfl ?_ ?_ ?_ ?_ ?_)
      all_goals rw [hact]
    | syncUpdate index =>
      have hact := act_syncUpdate_none (hunposted index)
      refine Or.inl (h.idle rfl rfl ?_ ?_ ?_ ?_ ?_)
      all_goals rw [hact]
    | syncFailed index =>
      have hact := act_syncFailed_none (hunclaimed index)
      refine Or.inl (h.idle rfl rfl ?_ ?_ ?_ ?_ ?_)
      all_goals rw [hact]
    | bind orderId => exact hallowed.elim
    | cancel =>
      have hcancel : state.desk.store.persistCancellation.row.response =
            state.desk.store.row.response ∧
          state.desk.store.persistCancellation.row.filled = state.desk.store.row.filled ∧
          state.desk.store.persistCancellation.trades = state.desk.store.trades := by
        unfold OrderStore.persistCancellation
        split
        · exact ⟨rfl, rfl, rfl⟩
        · exact ⟨rfl, rfl, rfl⟩
      exact Or.inl (h.idle rfl rfl hcancel.1 hcancel.2.1 hcancel.2.2 rfl rfl)

theorem Following.act (h : Following legs rest last state) {move : CloseMove}
    (hallowed : Plausible legs state move) (hseparate : Separate legs state move) :
    Following legs rest last (state.act move) := by
  cases move with
  | execute leg quantity =>
    obtain ⟨-, hgrown, hnone | rfl⟩ := hallowed
    · rw [h.reported] at hnone
      cases hnone
    · exact h.execute hgrown
  | transact transaction =>
    cases transaction with
    | markSent report =>
      have hnone := hallowed.1
      rw [h.reported] at hnone
      cases hnone
    | persist cumulative average =>
      have hsome := hallowed.1
      rw [h.reported] at hsome
      cases hsome
      exact h.persist hseparate
    | project event => exact h.project hallowed hseparate
    | claim clock => exact h.claim clock
    | syncPersist index answer => exact h.syncPersist hallowed hseparate
    | syncUpdate index => exact h.syncUpdate index
    | syncFailed index => exact h.syncFailed index
    | bind orderId => exact hallowed.elim
    | cancel => exact h.cancel

theorem WithinExecuted.act (h : WithinExecuted legs state) {move : CloseMove}
    (hallowed : Plausible legs state move) (hseparate : Separate legs state move) :
    WithinExecuted legs (state.act move) := by
  rcases h with hpreparing | ⟨rest, last, hfollowing⟩
  · exact hpreparing.act hallowed hseparate
  · exact Or.inr ⟨rest, last, hfollowing.act hallowed hseparate⟩

end Steps

/-! ## Runs -/

section Runs

theorem commit_persist_grows (store : OrderStore) (cumulative average : Amount) :
    store.postedQuantity ≤
        (store.commit (store.persistCumulative cumulative average)).postedQuantity ∧
      (store.commit (store.persistCumulative cumulative average)).row = store.row := by
  rcases persistCumulative_cases store cumulative average with
    ⟨quantity, price, -, hpos, hresult⟩ | ⟨-, hresult | ⟨e, hresult⟩⟩
  · have htotal := (@posted_append store ⟨quantity, price, 0⟩ .partiallyFilled store.row).1
    rw [hresult]
    refine ⟨?_, rfl⟩
    refine le_trans ?_ htotal.ge
    exact le_add_of_nonneg_right hpos.le
  · rw [hresult]
    exact ⟨le_refl _, rfl⟩
  · rw [hresult]
    exact ⟨le_refl _, rfl⟩

theorem act_grows (desk : Desk) (transaction : Transaction) :
    desk.store.postedQuantity ≤ (desk.act transaction).store.postedQuantity ∧
      desk.store.row.filled ≤ (desk.act transaction).store.row.filled := by
  have hupdate : ∀ update : SnapshotUpdate, desk.store.row.filled ≤
      (desk.store.updateLiveSentOrderSnapshot update).row.filled := by
    intro update
    unfold OrderStore.updateLiveSentOrderSnapshot
    dsimp only
    split_ifs with hguard
    · exact hguard
    · exact le_refl _
  cases transaction with
  | markSent report => exact ⟨le_refl _, le_max_left _ _⟩
  | persist cumulative average =>
    obtain ⟨hgrown, hrow⟩ := commit_persist_grows desk.store cumulative average
    exact ⟨hgrown, (congrArg PendingOrder.filled hrow).ge⟩
  | project event =>
    show desk.store.postedQuantity ≤
        (desk.store.commit (desk.store.projectPendingOrder event)).postedQuantity ∧
      desk.store.row.filled ≤ (desk.store.commit (desk.store.projectPendingOrder event)).row.filled
    rcases projectPendingOrder_cases desk.store event with ⟨-, hresult⟩ |
      ⟨combined, response, delta, price, -, -, ⟨-, -, hresult⟩ | ⟨-, hlarge, -, hresult⟩⟩
    · rw [hresult]
      exact ⟨le_refl _, le_refl _⟩
    · rw [hresult]
      exact ⟨le_refl _, le_max_left _ _⟩
    · have htotal := (@posted_append desk.store ⟨delta, price, combined.id⟩ .partiallyFilled
        (projectedStore desk.store combined response delta price).row).1
      have hpos : 0 ≤ delta := le_trans (by norm_num) hlarge.le
      rw [hresult]
      exact ⟨(le_add_of_nonneg_right hpos).trans htotal.ge, le_max_left _ _⟩
  | claim clock =>
    unfold Desk.act
    dsimp only
    split
    · exact ⟨le_refl _, le_refl _⟩
    · exact ⟨le_refl _, le_refl _⟩
  | syncPersist index answer =>
    cases hrow : desk.claimed[index]? with
    | none =>
      rw [act_syncPersist_none hrow]
      exact ⟨le_refl _, le_refl _⟩
    | some row =>
      rw [act_syncPersist_store hrow]
      rcases commit_syncPersist desk.store row answer with
        ⟨plan, -, -, hresult⟩ | ⟨-, hresult⟩
      · obtain ⟨hgrown, hsame⟩ :=
          commit_persist_grows desk.store plan.aggregateFilled plan.aggregateAvg
        rw [hresult]
        exact ⟨hgrown, (congrArg PendingOrder.filled hsame).ge⟩
      · rw [hresult]
        exact ⟨le_refl _, le_refl _⟩
  | syncUpdate index =>
    cases hjob : desk.posted[index]? with
    | none =>
      rw [act_syncUpdate_none hjob]
      exact ⟨le_refl _, le_refl _⟩
    | some job =>
      rcases act_syncUpdate_store hjob with ⟨update, -, hstore⟩ | ⟨-, hstore⟩
      · rw [hstore]
        exact ⟨le_refl _, hupdate update⟩
      · rw [hstore]
        exact ⟨le_refl _, le_refl _⟩
  | syncFailed index =>
    cases hrow : desk.claimed[index]? with
    | none =>
      rw [act_syncFailed_none hrow]
      exact ⟨le_refl _, le_refl _⟩
    | some row =>
      rw [act_syncFailed_store hrow]
      exact ⟨le_refl _, hupdate _⟩
  | bind orderId => exact ⟨le_refl _, le_refl _⟩
  | cancel =>
    show desk.store.postedQuantity ≤ desk.store.persistCancellation.postedQuantity ∧
      desk.store.row.filled ≤ desk.store.persistCancellation.row.filled
    unfold OrderStore.persistCancellation
    split
    · exact ⟨le_refl _, le_refl _⟩
    · exact ⟨le_refl _, le_refl _⟩

theorem run_grows (state : CloseDesk) (moves : List CloseMove) :
    state.desk.store.postedQuantity ≤
        (runActions CloseDesk.act state moves).desk.store.postedQuantity ∧
      state.desk.store.row.filled ≤
        (runActions CloseDesk.act state moves).desk.store.row.filled := by
  induction moves generalizing state with
  | nil => exact ⟨le_refl _, le_refl _⟩
  | cons move moves ih =>
    obtain ⟨hquantity, hfilled⟩ := ih (state.act move)
    have hstep : state.desk.store.postedQuantity ≤
          (state.act move).desk.store.postedQuantity ∧
        state.desk.store.row.filled ≤ (state.act move).desk.store.row.filled := by
      cases move with
      | execute leg quantity => exact ⟨le_refl _, le_refl _⟩
      | transact transaction => exact act_grows state.desk transaction
    exact ⟨hstep.1.trans hquantity, hstep.2.trans hfilled⟩

variable (legs : CloseLegs)

/-- A run of the close whose moves all keep the legs apart. -/
def SeparateRun (state : CloseDesk) (moves : List CloseMove) : Prop :=
  Along CloseDesk.act (fun state move => Plausible legs state move ∧ Separate legs state move)
    state moves

def unexecutedClose (row : PendingOrder) : CloseDesk where
  desk := { store := { row := { row with filled := 0, avgPrice := 0, response := {} } } }
  executed := fun _ => 0

/-- The posting of the synchronisation commits. -/
def Completes (state : CloseDesk) (index : ℕ) (answer : RestAnswer) : Prop :=
  ∃ row after, state.desk.claimed[index]? = some row ∧
    state.desk.store.syncPersist row answer = .ok after

variable {legs}

theorem preparing_unexecuted (row : PendingOrder) : Preparing legs (unexecutedClose row) where
  reported := rfl
  recorded := rfl
  response := rfl
  claimed := rfl
  posted := rfl
  executed_nonneg := fun _ => le_refl _
  quantity_nonneg := le_refl _
  quantity_le := add_nonneg (@restExecuted_nonneg legs _ fun _ => le_refl _) (le_refl _)
  filled_nonneg := le_refl _
  filled_le := le_refl _

theorem WithinExecuted.run {state : CloseDesk} (h : WithinExecuted legs state)
    {moves : List CloseMove} (hrun : SeparateRun legs state moves) :
    WithinExecuted legs (runActions CloseDesk.act state moves) :=
  Along.invariant (fun _ _ hstate hmove => hstate.act hmove.1 hmove.2) h hrun

theorem Following.run {rest last : Amount} {state : CloseDesk}
    (h : Following legs rest last state) {moves : List CloseMove}
    (hrun : SeparateRun legs state moves) :
    Following legs rest last (runActions CloseDesk.act state moves) :=
  Along.invariant (fun _ _ hstate hmove => hstate.act hmove.1 hmove.2) h hrun

theorem Following.settled {rest last : Amount} {state : CloseDesk}
    (h : Following legs rest last state) {index : ℕ} {answer : RestAnswer}
    (hallowed : Plausible legs state (.transact (.syncPersist index answer)))
    (hseparate : Separate legs state (.transact (.syncPersist index answer)))
    (hcompletes : Completes state index answer)
    (hall : answer.cumulativeFilled = state.executed legs.tracked) :
    (fillDeltaEpsilon < answer.cumulativeFilled → rest + answer.cumulativeFilled ≤
        (state.act (.transact (.syncPersist index answer))).desk.store.postedQuantity) ∧
      (rest + answer.cumulativeFilled ≤
          (state.act (.transact (.syncPersist index answer))).desk.store.postedQuantity ∨
        rest + answer.cumulativeFilled ≤
          (state.act (.transact (.syncPersist index answer))).desk.store.row.filled) := by
  obtain ⟨hnonneg, -, hpriced⟩ := hallowed
  obtain ⟨row, after, hrow, hpersist⟩ := hcompletes
  obtain ⟨progress, hat, hprogress, hbehind⟩ := h.claimed row (List.mem_of_getElem? hrow)
  obtain ⟨hfits, hclear⟩ := hseparate row hrow
  obtain ⟨hsame, -, -, hposted⟩ := hat.persist hnonneg hpriced hfits hclear hpersist
  have hstore : (state.act (.transact (.syncPersist index answer))).desk.store = after := by
    show (state.desk.act (.syncPersist index answer)).store = after
    rw [act_syncPersist_store hrow, hpersist]
    rfl
  rw [hstore]
  rw [← hall] at hprogress
  rw [max_eq_right hprogress] at hposted
  refine ⟨fun hlarge => hposted (Or.inr hlarge), ?_⟩
  rcases hprogress.eq_or_lt with hreached | hbeyond
  · refine Or.inr ?_
    rw [hsame, ← hreached, ← hat.filled]
    exact hbehind
  · exact Or.inl (hposted (Or.inl hbeyond))

/-- **The fills of a close with retries are posted within what was executed.** In every run
that keeps the legs apart, the trades never exceed what the exchange executed on all legs; they
reach it once a synchronisation has seen the end of the last leg. -/
theorem close_posted_within_executed (legs : CloseLegs) (row : PendingOrder)
    (moves : List CloseMove) (hrun : SeparateRun legs (unexecutedClose row) moves) :
    let final := runActions CloseDesk.act (unexecutedClose row) moves
    final.desk.store.postedQuantity ≤ allExecuted legs final.executed ∧
      ∀ before index answer after,
        moves = before ++ .transact (.syncPersist index answer) :: after →
        Completes (runActions CloseDesk.act (unexecutedClose row) before) index answer →
        (runActions CloseDesk.act (unexecutedClose row) before).executed = final.executed →
        answer.cumulativeFilled = final.executed legs.tracked →
        (final.recorded = true ∨ fillDeltaEpsilon < answer.cumulativeFilled) →
        final.desk.store.postedQuantity = allExecuted legs final.executed := by
  intro final
  have hstart : WithinExecuted legs (unexecutedClose row) := Or.inl (preparing_unexecuted row)
  have hbound := (hstart.run hrun).quantity_le
  refine ⟨hbound, ?_⟩
  rintro before index answer after rfl hcompletes hfinal hanswer hposts
  refine le_antisymm hbound ?_
  obtain ⟨hbefore, hsync, hafter⟩ := along_append.mp hrun
  have hclaimed : (runActions CloseDesk.act (unexecutedClose row) before).desk.claimed ≠ [] := by
    obtain ⟨claimed, -, hsome, -⟩ := hcompletes
    intro hnil
    rw [hnil] at hsome
    cases hsome
  obtain ⟨rest, last, hfollowing⟩ := (hstart.run hbefore).resolve_left
    fun hpreparing => hclaimed hpreparing.claimed
  have hsplit : final = runActions CloseDesk.act
      ((runActions CloseDesk.act (unexecutedClose row) before).act
        (.transact (.syncPersist index answer))) after := by
    show List.foldl _ _ _ = _
    rw [List.foldl_append]
    rfl
  have hend : Following legs rest last final := by
    rw [hsplit]
    exact (hfollowing.act hsync.1 hsync.2).run hafter
  obtain ⟨hlarge, hsettled⟩ := hfollowing.settled hsync.1 hsync.2 hcompletes
    (hanswer.trans (congrFun hfinal.symm _))
  obtain ⟨hquantity, hfilled⟩ := run_grows ((runActions CloseDesk.act (unexecutedClose row)
    before).act (.transact (.syncPersist index answer))) after
  rw [← hsplit] at hquantity hfilled
  have hall : allExecuted legs final.executed = rest + answer.cumulativeFilled := by
    unfold allExecuted
    rw [hend.others_executed, hanswer]
  rw [hall]
  rcases hposts with hrecorded | hepsilon
  · rcases hsettled with hposted | hrow
    · exact hposted.trans hquantity
    · refine (hrow.trans hfilled).trans (hend.filled_le.trans ?_)
      exact max_le (le_refl _) (hend.recorded hrecorded)
  · exact (hlarge hepsilon).trans hquantity

def twoLegs : CloseLegs where
  others := ["a"]
  tracked := "b"
  distinct := by decide
  named := by decide

/-- The worker's report of the close: 2 on the first order, 1 so far on the retry. -/
def twoLegsReport : SentReport where
  exchangeOrderId := "b"
  filled := 3
  avgPrice := 100
  response := {
    phases := some { closeReconciliation := some ⟨.awaitingExchange, 12, 9, [⟨"b", 1, 100⟩]⟩ } }

/-- The legs execute 2 and 1, the worker reports and posts them, and the retry goes on to 10. -/
def twoLegsMoves : List CloseMove :=
  [.execute "a" 2, .execute "b" 1, .transact (.markSent twoLegsReport),
    .transact (.persist 3 100), .execute "b" 10]

def retryAnswer : RestAnswer where
  cumulativeFilled := 10
  cumulativeAvg := 100
  exchangeStatus := "filled"
  executable := 12

def retryEvent : ExecutionEvent where
  id := 1
  exchangeOrderId := "b"
  cumulativeQuantity := 10
  cumulativeAveragePrice := 100

theorem twoLegs_report : CloseReport twoLegs
    (runActions CloseDesk.act (unexecutedClose {})
      [.execute "a" 2, .execute "b" 1]).executed twoLegsReport 1 where
  orderId := rfl
  marker := rfl
  market := rfl
  nonneg := by decide +kernel
  executed_le := by decide +kernel
  filled := by decide +kernel
  retries := ⟨[], ⟨"b", 1, 100⟩, rfl, rfl, fun _ hmem => absurd hmem List.not_mem_nil, rfl, rfl⟩

theorem twoLegsMoves_separate : SeparateRun twoLegs (unexecutedClose {}) twoLegsMoves := by
  refine ⟨⟨⟨by decide, by decide +kernel, Or.inl rfl⟩, trivial⟩,
    ⟨⟨by decide, by decide +kernel, Or.inl rfl⟩, trivial⟩,
    ⟨⟨rfl, 1, twoLegs_report⟩, Or.inr ?_⟩, ⟨⟨?_, by decide +kernel⟩, ?_⟩,
    ⟨⟨by decide, by decide +kernel, Or.inr rfl⟩, trivial⟩, trivial⟩
  · decide +kernel
  · decide +kernel
  · unfold Separate Swallowed
    decide +kernel

/-- A synchronisation finds 9 more on the retry, and 12 are posted. -/
theorem retry_posted_in_full :
    let final := runActions CloseDesk.act (unexecutedClose {})
      (twoLegsMoves ++ [.transact (.claim {}), .transact (.syncPersist 0 retryAnswer)])
    final.desk.store.postedQuantity = allExecuted twoLegs final.executed := by
  have hclaimed : (runActions CloseDesk.act (unexecutedClose {})
      (twoLegsMoves ++ [.transact (.claim {})])).desk.claimed[0]? =
      some (runActions CloseDesk.act (unexecutedClose {})
        twoLegsMoves).desk.store.row.claimed := by
    decide +kernel
  have hsync : SeparateRun twoLegs (runActions CloseDesk.act (unexecutedClose {}) twoLegsMoves)
      [.transact (.claim {}), .transact (.syncPersist 0 retryAnswer)] := by
    refine ⟨⟨?_, trivial⟩, ⟨⟨by decide +kernel, by decide +kernel, fun _ => by decide +kernel⟩,
      fun row hrow => ?_⟩, trivial⟩
    · show (runActions CloseDesk.act (unexecutedClose {}) twoLegsMoves).reported ≠ none
      decide +kernel
    · cases hclaimed.symm.trans hrow
      unfold AnswerFits Swallowed
      decide +kernel
  have hrun := along_append.mpr ⟨twoLegsMoves_separate, hsync⟩
  refine (close_posted_within_executed twoLegs {} _ hrun).2
    (twoLegsMoves ++ [.transact (.claim {})]) 0 retryAnswer [] rfl
    ⟨_, (runActions CloseDesk.act (unexecutedClose {}) (twoLegsMoves ++
      [.transact (.claim {}), .transact (.syncPersist 0 retryAnswer)])).desk.store, hclaimed, ?_⟩
    rfl ?_ (Or.inr ?_)
  · decide +kernel
  · decide +kernel
  · decide +kernel

/-- The event of the retry takes the row to the 10 of one leg, past the 3 that the worker
reported for both. The synchronisation adds the 9 that the retry list does not have to these
10: of 12 executed 19 are posted. -/
theorem retry_event_posted_twice :
    let moves : List CloseMove := twoLegsMoves ++
      [.transact (.project retryEvent), .transact (.claim {}),
        .transact (.syncPersist 0 retryAnswer)]
    let final := runActions CloseDesk.act (unexecutedClose {}) moves
    Along CloseDesk.act (Plausible twoLegs) (unexecutedClose {}) moves ∧
      allExecuted twoLegs final.executed = 12 ∧ final.desk.store.postedQuantity = 19 := by
  intro moves final
  refine ⟨?_, by decide +kernel, by decide +kernel⟩
  refine ⟨⟨by decide, by decide +kernel, Or.inl rfl⟩, ⟨by decide, by decide +kernel, Or.inl rfl⟩,
    ⟨rfl, 1, twoLegs_report⟩, ⟨?_, by decide +kernel⟩, ⟨by decide, by decide +kernel, Or.inr rfl⟩,
    ⟨by decide, by decide +kernel, by decide +kernel, by decide +kernel⟩, ?_,
    ⟨by decide +kernel, by decide +kernel, fun _ => by decide +kernel⟩, trivial⟩
  · decide +kernel
  · show (runActions CloseDesk.act (unexecutedClose {}) twoLegsMoves).reported ≠ none
    decide +kernel

end Runs

end QuantDinger.Analysis
