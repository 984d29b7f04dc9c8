import Supervisor.EvidenceInvariant

namespace Supervisor

section Processes

variable {s t : ProcessTables} {instance_ : ProcessInstance}

open ProcessTables

theorem toI64_ok {n : U64} {z : ℤ} (h : n.toI64 = .ok z) : z = n.val := by
  unfold U64.toI64 at h
  split at h
  · exact (Except.ok.inj h).symm
  · cases h

theorem row_updateCurrent {r : ProcessInstanceRow} {generation : ℤ}
    {f : ProcessInstanceRow → ProcessInstanceRow} (hf : ∀ r, (f r).instanceId = r.instanceId)
    (hr : s.row instance_.id = some r) (hcurrent : isCurrent instance_ generation r = true) :
    (s.updateInstances (isCurrent instance_ generation) f hf).2.row instance_.id = some (f r) := by
  rw [row_updateInstances, hr, Option.map_some, if_pos hcurrent]

theorem current_of_affected {generation : ℤ} {f : ProcessInstanceRow → ProcessInstanceRow}
    {hf : ∀ r, (f r).instanceId = r.instanceId}
    (h : (s.updateInstances (isCurrent instance_ generation) f hf).1 = 1) :
    ∃ r, s.row instance_.id = some r ∧ isCurrent instance_ generation r = true :=
  (updateInstances_affected instance_.id fun _ => isCurrent_id).mp h

theorem advance_ok {next : ProcessInstance}
    (h : s.advanceProcessInstanceGeneration instance_ = (.ok (some next), t)) :
    ∃ r, s.row instance_.id = some r ∧
      isCurrent instance_ instance_.generation.val r = true ∧
      t = (s.updateInstances (isCurrent instance_ instance_.generation.val) fun row =>
        { row with generation := instance_.generation.val + 1, runtime := {}, restartCount := 0 }).2 := by
  unfold advanceProcessInstanceGeneration at h
  split at h
  · dsimp only at h
    split at h
    · rename_i nextGeneration generation hnext hgeneration
      obtain rfl := toI64_ok hnext
      obtain rfl := toI64_ok hgeneration
      split at h
      · cases (Prod.mk.inj h).1
      · rename_i hone
        rw [not_not, Transaction.execute_fst] at hone
        obtain ⟨r, hr, hcurrent⟩ := current_of_affected hone
        exact ⟨r, hr, hcurrent, (Prod.mk.inj h).2.symm⟩
    · cases (Prod.mk.inj h).1
    · cases (Prod.mk.inj h).1
  · cases (Prod.mk.inj h).1

theorem setRestartCount_ok {count : U32}
    (h : s.setProcessInstanceRestartCount instance_ count = (.ok true, t)) :
    ∃ r, s.row instance_.id = some r ∧
      isCurrent instance_ instance_.generation.val r = true ∧
      t = (s.updateInstances (isCurrent instance_ instance_.generation.val) fun row =>
        { row with restartCount := count.val }).2 := by
  unfold setProcessInstanceRestartCount at h
  dsimp only at h
  split at h
  · cases (Prod.mk.inj h).1
  · rename_i generation hgeneration
    obtain rfl := toI64_ok hgeneration
    split at h
    · cases (Prod.mk.inj h).1
    · rename_i hone
      rw [not_not, Transaction.execute_fst] at hone
      obtain ⟨r, hr, hcurrent⟩ := current_of_affected hone
      exact ⟨r, hr, hcurrent, (Prod.mk.inj h).2.symm⟩

end Processes

namespace EvidenceState

variable {s : EvidenceState} {t : EvidenceTables} {now : Instant} {eventId : Uuid}

section Steps

/-- Tables that stay as they are tell of no transition. -/
theorem notices_self {e : EvidenceTables}
    (hkeys : KeyedRows.Unique DurableScheduleOccurrence.key e.jobs.occurrences) (op : EvidenceOp) :
    op.notices e e = [] := by
  cases op with
  | claim job occurrence _ _ =>
    unfold EvidenceOp.notices
    dsimp only
    cases e.jobs.findOccurrence (occurrence.key job.id) with
    | none => rfl
    | some d => rfl
  | admitOccurrence job occurrence _ _ _ =>
    unfold EvidenceOp.notices
    dsimp only
    cases e.jobs.findOccurrence (occurrence.key job.id) with
    | none => rfl
    | some d => exact if_pos rfl
  | finalize job run _ _ =>
    unfold EvidenceOp.notices
    dsimp only
    cases run.occurrence with
    | none => rfl
    | some occurrence =>
      dsimp only
      cases e.jobs.findOccurrence (occurrence.key job.id) with
      | none => rfl
      | some d => exact if_pos rfl
  | recover now _ =>
    unfold EvidenceOp.notices
    rw [List.map_eq_nil_iff, List.filter_eq_nil_iff]
    intro d hd
    obtain ⟨hmem, hrunning⟩ := List.mem_filter.mp hd
    have hfound : e.jobs.findOccurrence d.key = some d := hkeys.find_of_mem hmem
    rw [decide_eq_true_eq] at hrunning
    simp [hfound, hrunning]
  | advance _ _ _ => exact if_pos rfl
  | restartCount _ _ _ _ => exact if_pos (.inr rfl)

theorem Sound.after_self (hs : s.Sound) (op : EvidenceOp) : (s.after s.tables op).Sound := by
  unfold after
  rw [notices_self hs.keys, List.append_nil]
  exact hs

variable {job : Job} {occurrence : ScheduleOccurrence} {runId : JobRunId}

/-- What a claim writes besides the rows of the job tables -/
theorem claim_ok {e : EvidenceTables} {durable : DurableScheduleOccurrence}
    (h : e.claimScheduleOccurrence job occurrence now eventId = .ok (durable, t)) :
    ∃ jobs events, e.jobs.claimScheduleOccurrence job occurrence now = .ok (durable, jobs) ∧
      t = { e with jobs, events } ∧
      if (e.jobs.findOccurrence (occurrence.key job.id)).isNone then
        insertOperatorEvent e.events eventId ⟨now, .claimed job occurrence⟩ = .ok events
      else events = e.events := by
  obtain ⟨⟨durable', jobs⟩, hclaim, h⟩ := Except.bind_ok h
  dsimp only at h
  split at h
  · rename_i hwrites
    obtain ⟨events, hevents, h⟩ := Except.bind_ok h
    cases h
    refine ⟨jobs, events, hclaim, rfl, ?_⟩
    rwa [if_pos hwrites]
  · rename_i hskips
    cases h
    refine ⟨jobs, e.events, hclaim, rfl, ?_⟩
    rw [if_neg hskips]

/-- The row that a claim adds -/
def claimedRow (job : Job) (occurrence : ScheduleOccurrence) (now : Instant) :
    DurableScheduleOccurrence :=
  { jobId := job.id, jobName := job.name, occurrence, state := .claimed, nextAttemptAt := now }

theorem Sound.writes_claim (hs : s.Sound)
    (habsent : s.tables.jobs.findOccurrence (occurrence.key job.id) = none)
    (hrows : t.jobs.occurrences = s.tables.jobs.occurrences ++ [claimedRow job occurrence now])
    (hruns : t.jobs.runs = s.tables.jobs.runs) (hprocesses : t.processes = s.tables.processes)
    (hevents : t.events.map EventRow.fields =
      (s.committed ++ [(⟨now, .claimed job occurrence⟩ : Notice)]).map Notice.fields) :
    s.Writes t ⟨now, .claimed job occurrence⟩ (claimedRow job occurrence now) := by
  have hother := KeyedRows.find_eq_none.mp habsent
  have hmem : claimedRow job occurrence now ∈ t.jobs.occurrences := by
    rw [hrows]
    exact List.mem_append_right _ List.mem_cons_self
  constructor
  · exact hevents
  · rw [hrows]
    exact hs.keys.append hother
  · exact hmem
  · intro d hd
    rw [hrows, List.mem_append, List.mem_singleton] at hd
    rcases hd with hd | hd
    · exact .inr ⟨hd, hother d hd⟩
    · exact .inl hd
  · intro d hd
    rw [hrows]
    exact ⟨d, List.mem_append_left _ hd, rfl⟩
  · intro r hr
    unfold Store.HasRun
    rw [hruns]
    exact hr
  · exact hprocesses
  · exact .of_waiting rfl rfl fun hqueued => by cases hqueued
  · intro r hr
    cases hr
  · intro r hr
    cases hr
  · intro key hkey
    cases hkey
    exact ⟨_, hmem, rfl⟩
  · intro id g hkey
    cases hkey

theorem Sound.claim (hs : s.Sound) {durable : DurableScheduleOccurrence}
    (h : s.tables.claimScheduleOccurrence job occurrence now eventId = .ok (durable, t)) :
    (s.after t (.claim job occurrence now eventId)).Sound := by
  obtain ⟨jobs, events, hclaim, rfl, hevents⟩ := claim_ok h
  unfold Store.claimScheduleOccurrence at hclaim
  unfold after EvidenceOp.notices
  dsimp only
  cases hfind : s.tables.jobs.findOccurrence (occurrence.key job.id) with
  | some d =>
    rw [hfind] at hclaim hevents
    cases hclaim
    cases hevents
    obtain ⟨-, hruns, hoccurrences⟩ :=
      Store.advanceCursor_rows (s := s.tables.jobs) job.id occurrence
    simp only [Option.isNone_some, Bool.false_and, Bool.false_eq_true, if_false, List.append_nil]
    refine hs.congr ?_ (fun d' => ?_) hruns rfl rfl
    · rw [hoccurrences]
      exact hs.keys
    · rw [hoccurrences]
  | none =>
    rw [hfind] at hclaim hevents
    dsimp only at hclaim
    split at hclaim
    · obtain ⟨-, hjobs⟩ := Prod.mk.inj (Except.ok.inj hclaim)
      obtain ⟨-, hruns, hrows⟩ := Store.advanceCursor_rows (s := { s.tables.jobs with
        occurrences := s.tables.jobs.occurrences ++ [claimedRow job occurrence now] })
        job.id occurrence
      have hnew : ¬Noted s.committed (.claim (occurrence.key job.id)) := by
        intro hnoted
        obtain ⟨d, hd, hkey⟩ := hs.claimed _ hnoted
        exact KeyedRows.find_eq_none.mp hfind d hd hkey
      rcases insertOperatorEvent_ok hs.evidenced hevents with ⟨hnoted, -⟩ | ⟨-, hevents⟩
      · exact absurd hnoted hnew
      · have hwrites := hs.writes_claim (t := ⟨jobs, s.tables.processes, events⟩) hfind
          (hjobs ▸ hrows) (hjobs ▸ hruns) rfl hevents
        have hfound : jobs.findOccurrence (occurrence.key job.id) = _ := hwrites.find
        rw [hfound]
        exact hs.writes hwrites
    · cases hclaim

theorem admit_ok {e : EvidenceTables} {admission : ScheduleAdmission}
    (h : e.admitScheduleOccurrence job occurrence now runId eventId = .ok (admission, t)) :
    ∃ jobs events,
      e.jobs.admitScheduleOccurrence job occurrence now runId = .ok (admission, jobs) ∧
      t = { e with jobs, events } ∧
      if (e.jobs.findOccurrence (occurrence.key job.id)).any (·.state.isWaiting) then
        insertOperatorEvent e.events eventId
          (EvidenceTables.admissionNotice job occurrence now runId admission) = .ok events
      else events = e.events := by
  obtain ⟨⟨admission', jobs⟩, hadmit, h⟩ := Except.bind_ok h
  dsimp only at h
  split at h
  · rename_i hwrites
    obtain ⟨events, hevents, h⟩ := Except.bind_ok h
    cases h
    refine ⟨jobs, events, hadmit, rfl, ?_⟩
    rwa [if_pos hwrites]
  · rename_i hskips
    cases h
    refine ⟨jobs, e.events, hadmit, rfl, ?_⟩
    rw [if_neg hskips]

/-- A row that gets a run which was drawn for it -/
theorem Sound.writes_opened (hs : s.Sound) {n : Notice} {key : OccurrenceKey}
    {d : DurableScheduleOccurrence} {f : DurableScheduleOccurrence → DurableScheduleOccurrence}
    {row : JobRun} {jobs : Store} {events : List EventRow}
    (found : s.tables.jobs.findOccurrence key = some d) (hkey : ∀ d, (f d).key = d.key)
    (hstate : (f d).state = .running ∨ (f d).state = .finalized)
    (hrun : (f d).runId = some row.runId)
    (hinsert : (s.tables.jobs.setOccurrence key f).insertRun row = .ok jobs)
    (hopens : n.transition.key = .start row.runId ∨ n.transition.key = .overflow row.runId)
    (hevents : insertOperatorEvent s.tables.events eventId n = .ok events) :
    s.Writes ⟨jobs, s.tables.processes, events⟩ n (f d) := by
  obtain ⟨hnone, -, -, rfl⟩ := Store.insertRun_ok hinsert
  have hfresh : ¬s.tables.jobs.HasRun row.runId := by
    rintro ⟨run, hmem, hid⟩
    exact KeyedRows.find_eq_none.mp hnone run hmem hid
  have hunnamed : ∀ n' ∈ s.committed, n'.transition.key.run ≠ some row.runId :=
    fun n' hn' hnamed => hfresh (hs.runs n' hn' _ hnamed)
  have hnamed : n.transition.key.run = some row.runId := by
    rcases hopens with h | h
    all_goals rw [h]; rfl
  have hevents : events.map EventRow.fields = (s.committed ++ [n]).map Notice.fields := by
    rcases insertOperatorEvent_ok hs.evidenced hevents with ⟨⟨n', hn', hsame⟩, -⟩ | ⟨-, hevents⟩
    · exact absurd (hsame ▸ hnamed) (hunnamed n' hn')
    · exact hevents
  have hrow : Store.HasRun { s.tables.jobs.setOccurrence key f with
      runs := (s.tables.jobs.setOccurrence key f).runs ++ [row] } row.runId :=
    ⟨row, List.mem_append_right _ List.mem_cons_self, rfl⟩
  refine hs.writes_row found hkey rfl ?_ rfl hevents (.of_opened hstate hrun hrow hunnamed hopens)
    ?_ ?_ ?_ ?_
  · rintro r ⟨run, hmem, hid⟩
    exact ⟨run, List.mem_append_left _ hmem, hid⟩
  · intro r hr
    rw [hnamed, Option.some.injEq] at hr
    exact hr ▸ ⟨hrow, .inr hfresh⟩
  · intro r hr
    rw [hrun, Option.some.injEq] at hr
    exact .inr (hr ▸ hfresh)
  · intro key hclaim
    rw [hclaim] at hnamed
    cases hnamed
  · intro id g hgeneration
    rw [hgeneration] at hnamed
    cases hnamed

/-- A row that goes to the queue for the first time -/
theorem Sound.writes_queued (hs : s.Sound) {d : DurableScheduleOccurrence}
    {events : List EventRow}
    (found : s.tables.jobs.findOccurrence (occurrence.key job.id) = some d)
    (hwaits : d.state.isWaiting = true)
    (hevents : events.map EventRow.fields =
      (s.committed ++ [(⟨now, .queued job occurrence⟩ : Notice)]).map Notice.fields) :
    s.Writes ⟨s.tables.jobs.setOccurrence (occurrence.key job.id) fun d => { d with
      state := .queued }, s.tables.processes, events⟩ ⟨now, .queued job occurrence⟩
      { d with state := .queued } := by
  obtain ⟨hmem, hdkey⟩ := Store.findOccurrence_mem found
  have hrun := (hs.rows d hmem).waits.mp hwaits
  refine hs.writes_row (f := fun d => { d with state := .queued })
    (t := ⟨_, s.tables.processes, events⟩) found (fun _ => rfl) rfl (fun _ hr => hr) rfl hevents
    (.of_waiting rfl hrun fun _ => noted_append.mpr (.inr (noted_singleton.mpr ?_))) ?_ ?_ ?_ ?_
  · exact congrArg EventKey.queued hdkey.symm
  · intro r hr
    cases hr
  · exact fun r hr => .inl hr
  · intro key hclaim
    cases hclaim
  · intro id g hgeneration
    cases hgeneration

theorem after_admit {d d' : DurableScheduleOccurrence}
    (found : s.tables.jobs.findOccurrence (occurrence.key job.id) = some d)
    (found' : t.jobs.findOccurrence (occurrence.key job.id) = some d') :
    s.after t (.admitOccurrence job occurrence now runId eventId) =
      ⟨t, s.committed ++ EvidenceOp.admitted job occurrence now d d'⟩ := by
  unfold after EvidenceOp.notices
  dsimp only
  rw [found, found']

theorem Sound.after_admit (hs : s.Sound) {n : Notice} {d d₁ : DurableScheduleOccurrence}
    (found : s.tables.jobs.findOccurrence (occurrence.key job.id) = some d)
    (h : s.Writes t n d₁) (hkey : d₁.key = d.key)
    (hn : EvidenceOp.admitted job occurrence now d d₁ = [n]) :
    (s.after t (.admitOccurrence job occurrence now runId eventId)).Sound := by
  have found' := h.find
  rw [hkey, (Store.findOccurrence_mem found).2] at found'
  rw [EvidenceState.after_admit found found', hn]
  exact hs.writes h

theorem Sound.admitted (hs : s.Sound) (hkeyed : s.QueuesOnce job occurrence)
    {admission : ScheduleAdmission}
    (h : s.tables.admitScheduleOccurrence job occurrence now runId eventId = .ok (admission, t)) :
    (s.after t (.admitOccurrence job occurrence now runId eventId)).Sound := by
  obtain ⟨jobs, events, hadmit, rfl, hevents⟩ := admit_ok h
  cases Store.admitScheduleOccurrence_ok hadmit with
  | settled found hstate =>
    simp only [found, Option.any_some, hstate, ScheduleOccurrenceState.isWaiting,
      Bool.false_eq_true, if_false] at hevents
    rw [hevents]
    exact hs.after_self _
  | already found hstate =>
    simp only [found, Option.any_some, hstate, ScheduleOccurrenceState.isWaiting,
      Bool.false_eq_true, if_false] at hevents
    rw [hevents]
    exact hs.after_self _
  | @queued d found hwaits hfull hroom =>
    rw [found, Option.any_some, if_pos hwaits] at hevents
    by_cases hqueued : d.state = .queued
    · -- the row is in the queue already, and so is its event in the log
      obtain ⟨hmem, hdkey⟩ := Store.findOccurrence_mem found
      have hnoted : Noted s.committed (.queued (occurrence.key job.id)) :=
        hdkey ▸ (hs.rows d hmem).queued hqueued
      have hsame : { d with state := .queued } = d := by rw [← hqueued]
      obtain ⟨hsound, found'⟩ := hs.setOccurrence_same (f := fun d => { d with
        state := .queued }) found (fun _ => rfl) hsame
      rcases insertOperatorEvent_ok hs.evidenced hevents with ⟨-, rfl⟩ | ⟨hnew, -⟩
      · rw [EvidenceState.after_admit found found', EvidenceOp.admitted, if_pos rfl,
          List.append_nil]
        exact hsound
      · exact absurd hnoted hnew
    · have hnew := hkeyed d found (by simp [queues, hwaits, hfull, hroom]) hqueued
      rcases insertOperatorEvent_ok hs.evidenced hevents with ⟨hnoted, -⟩ | ⟨-, hevents⟩
      · exact absurd hnoted hnew
      · refine hs.after_admit found (hs.writes_queued found hwaits hevents) rfl ?_
        unfold EvidenceOp.admitted
        rw [if_neg (Ne.symm hqueued)]
  | @skipped d _ found hwaits hfull hover hinsert =>
    rw [found, Option.any_some, if_pos hwaits] at hevents
    refine hs.after_admit found (hs.writes_opened (f := fun d => { d with
      state := .finalized, runId := some runId, finalState := some .skipped }) found
      (fun _ => rfl) (.inr rfl) rfl hinsert (.inr rfl) hevents) rfl ?_
    unfold EvidenceOp.admitted
    rw [if_neg fun hstate => by rw [← hstate] at hwaits; cases hwaits]
    rfl
  | @started d _ found hwaits hfree hinsert =>
    rw [found, Option.any_some, if_pos hwaits] at hevents
    refine hs.after_admit found (hs.writes_opened (f := fun d => { d with
      state := .running, runId := some runId }) found (fun _ => rfl) (.inl rfl) rfl hinsert
      (.inl rfl) hevents) rfl ?_
    unfold EvidenceOp.admitted
    rw [if_neg fun hstate => by rw [← hstate] at hwaits; cases hwaits]
    rfl

theorem finalize_ok {e : EvidenceTables} {run : JobRun} {finalization : ScheduleFinalization}
    (h : e.finalizeScheduleAttempt job run now eventId = .ok (finalization, t)) :
    ∃ jobs events, e.jobs.finalizeScheduleAttempt job run now = .ok (finalization, jobs) ∧
      t = { e with jobs, events } ∧
      insertOperatorEvent e.events eventId
        (EvidenceTables.finalizationNotice job run now finalization) = .ok events := by
  obtain ⟨⟨finalization', jobs⟩, hfinalize, h⟩ := Except.bind_ok h
  obtain ⟨events, hevents, h⟩ := Except.bind_ok h
  cases h
  exact ⟨jobs, events, hfinalize, rfl, hevents⟩

variable {run : JobRun}

theorem after_finalize {d d' : DurableScheduleOccurrence} (hocc : run.occurrence = some occurrence)
    (found : s.tables.jobs.findOccurrence (occurrence.key job.id) = some d)
    (found' : t.jobs.findOccurrence (occurrence.key job.id) = some d') :
    s.after t (.finalize job run now eventId) =
      ⟨t, s.committed ++ EvidenceOp.settled job run now d d'⟩ := by
  unfold after EvidenceOp.notices
  dsimp only
  rw [hocc]
  dsimp only
  rw [found, found']

theorem Sound.after_finalize (hs : s.Sound) {n : Notice} {d d₁ : DurableScheduleOccurrence}
    (hocc : run.occurrence = some occurrence)
    (found : s.tables.jobs.findOccurrence (occurrence.key job.id) = some d)
    (h : s.Writes t n d₁) (hkey : d₁.key = d.key)
    (hn : EvidenceOp.settled job run now d d₁ = [n]) :
    (s.after t (.finalize job run now eventId)).Sound := by
  have found' := h.find
  rw [hkey, (Store.findOccurrence_mem found).2] at found'
  rw [EvidenceState.after_finalize hocc found found', hn]
  exact hs.writes h

/-- A row that leaves its run to wait for the next attempt -/
theorem Sound.writes_retry (hs : s.Sound) {d : DurableScheduleOccurrence}
    {f : DurableScheduleOccurrence → DurableScheduleOccurrence} {events : List EventRow}
    (found : s.tables.jobs.findOccurrence (occurrence.key job.id) = some d)
    (howner : d.runId = some run.runId) (hkey : ∀ d, (f d).key = d.key)
    (hstate : (f d).state = .retryPending) (hrun : (f d).runId = none)
    (hevents : events.map EventRow.fields =
      (s.committed ++ [(⟨now, .retryPending job run⟩ : Notice)]).map Notice.fields) :
    s.Writes ⟨s.tables.jobs.setOccurrence (occurrence.key job.id) f, s.tables.processes, events⟩
      ⟨now, .retryPending job run⟩ (f d) := by
  have hrow := hs.rows d (Store.findOccurrence_mem found).1
  refine hs.writes_row found hkey rfl (fun _ hr => hr) rfl hevents
    (.of_waiting (by rw [hstate]; rfl) hrun fun hqueued => ?_) ?_ ?_ ?_ ?_
  · rw [hstate] at hqueued
    cases hqueued
  · intro r hr
    cases hr
    exact ⟨hrow.hasRun _ howner, .inl howner⟩
  · intro r hr
    rw [hrun] at hr
    cases hr
  · intro key hclaim
    cases hclaim
  · intro id g hgeneration
    cases hgeneration

/-- A row that keeps its run and is final -/
theorem Sound.writes_final (hs : s.Sound) {d : DurableScheduleOccurrence}
    {events : List EventRow}
    (found : s.tables.jobs.findOccurrence (occurrence.key job.id) = some d)
    (howner : d.runId = some run.runId)
    (hevents : events.map EventRow.fields =
      (s.committed ++ [(⟨now, .finalized job run⟩ : Notice)]).map Notice.fields) :
    s.Writes ⟨s.tables.jobs.setOccurrence (occurrence.key job.id) fun d => { d with
      state := .finalized, finalState := some run.state }, s.tables.processes, events⟩
      ⟨now, .finalized job run⟩ { d with state := .finalized, finalState := some run.state } := by
  have hrow := hs.rows d (Store.findOccurrence_mem found).1
  -- the new key is of another kind than those the row must not have
  have hbefore {key : EventKey} (hkey : key.kind ≠ .finalized)
      (hnoted : Noted (s.committed ++ [⟨now, .finalized job run⟩]) key) :
      Noted s.committed key := by
    rcases noted_append.mp hnoted with hnoted | hnoted
    · exact hnoted
    · rw [← noted_singleton.mp hnoted] at hkey
      exact absurd rfl hkey
  refine hs.writes_row (f := fun d => { d with state := .finalized, finalState := some run.state })
    (t := ⟨_, s.tables.processes, events⟩) found (fun _ => rfl) rfl (fun _ hr => hr) rfl hevents
    ?_ ?_ ?_ ?_ ?_
  · constructor
    · simp [ScheduleOccurrenceState.isWaiting, howner]
    · intro hqueued
      cases hqueued
    · exact hrow.hasRun
    · exact fun r hr hnoted =>
        hrow.notRetried r hr (hbefore (fun hkind => by cases hkind) hnoted)
    · exact fun r hr jobId triggerId revision scheduledAt hnoted =>
        hrow.notRecovered r hr jobId triggerId revision scheduledAt
          (hbefore (fun hkind => by cases hkind) hnoted)
    · intro r hr hrunning
      cases hrunning
  · intro r hr
    cases hr
    exact ⟨hrow.hasRun _ howner, .inl howner⟩
  · exact fun r hr => .inl hr
  · intro key hclaim
    cases hclaim
  · intro id g hgeneration
    cases hgeneration

theorem Sound.finalize (hs : s.Sound)
    (hkeyed : ∀ occurrence ∈ run.occurrence, s.SettlesOnce job run occurrence)
    {finalization : ScheduleFinalization}
    (h : s.tables.finalizeScheduleAttempt job run now eventId = .ok (finalization, t)) :
    (s.after t (.finalize job run now eventId)).Sound := by
  obtain ⟨jobs, events, hfinalize, rfl, hevents⟩ := finalize_ok h
  cases Store.finalizeScheduleAttempt_ok hfinalize with
  | @retry o d retryAt _ hocc found howner _ _ =>
    have hrow := hs.rows d (Store.findOccurrence_mem found).1
    rcases insertOperatorEvent_ok hs.evidenced hevents with ⟨hnoted, -⟩ | ⟨-, hevents⟩
    · exact absurd hnoted (hrow.notRetried _ howner)
    · refine hs.after_finalize hocc found (hs.writes_retry found howner (fun _ => rfl) rfl rfl
        hevents) rfl ?_
      unfold EvidenceOp.settled
      rw [if_neg fun hsame => by
        rw [← hsame] at howner
        cases howner]
  | @final o d hocc found howner hlast =>
    have hrow := hs.rows d (Store.findOccurrence_mem found).1
    have hfinal (hchanged : { d with state := .finalized, finalState := some run.state } ≠ d)
        (hnew : ¬Noted s.committed (.finalized run.runId)) :
        (s.after ⟨s.tables.jobs.setOccurrence (o.key job.id) fun d => { d with
          state := .finalized, finalState := some run.state }, s.tables.processes, events⟩
          (.finalize job run now eventId)).Sound := by
      rcases insertOperatorEvent_ok hs.evidenced hevents with ⟨hnoted, -⟩ | ⟨-, hevents⟩
      · exact absurd hnoted hnew
      · refine hs.after_finalize hocc found (hs.writes_final found howner hevents) rfl ?_
        unfold EvidenceOp.settled
        rw [if_neg hchanged]
    by_cases hrunning : d.state = .running
    · refine hfinal (fun hsame => ?_) (hrow.notFinalized _ howner hrunning)
      rw [← hsame] at hrunning
      cases hrunning
    · have hkept := hkeyed o hocc d found howner hlast hrunning
      by_cases hstate : d.finalState = some run.state
      · -- settled again as before
        have hfinalized : d.state = .finalized := by
          have hwaits := hrow.waits
          rw [howner] at hwaits
          cases hd : d.state with
          | finalized => rfl
          | running => exact absurd hd hrunning
          | claimed | queued | retryPending =>
            rw [hd] at hwaits
            cases hwaits.mp rfl
        have hsame : { d with state := .finalized, finalState := some run.state } = d := by
          rw [← hfinalized, ← hstate]
        obtain ⟨hsound, found'⟩ := hs.setOccurrence_same (f := fun d => { d with
          state := .finalized, finalState := some run.state }) found (fun _ => rfl) hsame
        rcases insertOperatorEvent_ok hs.evidenced hevents with ⟨-, rfl⟩ | ⟨hnew, -⟩
        · rw [EvidenceState.after_finalize hocc found found', EvidenceOp.settled, if_pos rfl,
            List.append_nil]
          exact hsound
        · exact absurd (hkept.mp hstate) hnew
      · refine hfinal (fun hsame => ?_) fun hnoted => hstate (hkept.mpr hnoted)
        rw [← hsame] at hstate
        exact hstate rfl

section Recovery

variable {d : DurableScheduleOccurrence} {newId : DurableScheduleOccurrence → Uuid}

theorem mem_runningRows :
    d ∈ s.tables.runningRows ↔ d ∈ s.tables.jobs.occurrences ∧ d.state = .running := by
  simp [EvidenceTables.runningRows]

theorem Sound.running_run (hs : s.Sound) (hd : d ∈ s.tables.runningRows) :
    ∃ r, d.runId = some r := by
  obtain ⟨hmem, hstate⟩ := mem_runningRows.mp hd
  have hwaits := (hs.rows d hmem).waits
  rw [hstate] at hwaits
  apply Option.ne_none_iff_exists'.mp
  intro hnone
  cases hwaits.mpr hnone

theorem Sound.recovered_notices (hs : s.Sound) (events : List EventRow) :
    (EvidenceOp.recover now newId).notices s.tables
      { s.tables with jobs := s.tables.jobs.recoverScheduleOccurrences now, events } =
        s.tables.runningRows.map fun d => ⟨now, .recovered d⟩ := by
  unfold EvidenceOp.notices
  dsimp only
  congr 1
  rw [List.filter_eq_self]
  intro d hd
  obtain ⟨hmem, hstate⟩ := mem_runningRows.mp hd
  have hafter : { d with state := .retryPending, nextAttemptAt := now, runId := none } ∈
      (s.tables.jobs.recoverScheduleOccurrences now).occurrences :=
    Store.mem_recover.mpr ⟨d, hmem, .inl ⟨hstate, rfl⟩⟩
  have hfound : (s.tables.jobs.recoverScheduleOccurrences now).findOccurrence d.key =
      some { d with state := .retryPending, nextAttemptAt := now, runId := none } :=
    (Store.recover_keys now hs.keys).find_of_mem hafter
  rw [hfound]
  rfl

theorem Sound.recovered_events (hs : s.Sound) {events : List EventRow}
    (h : EvidenceTables.insertRecovered now newId s.tables.runningRows s.tables.events =
      .ok events) :
    events.map EventRow.fields = (s.committed ++
      s.tables.runningRows.map fun d => (⟨now, .recovered d⟩ : Notice)).map Notice.fields := by
  refine insertRecovered_ok hs.evidenced (fun d hd hnoted => ?_) ?_ h
  · obtain ⟨r, hr⟩ := hs.running_run hd
    change Noted s.committed (.recovery _ _ _ _ d.runId) at hnoted
    rw [hr] at hnoted
    exact (hs.rows d (mem_runningRows.mp hd).1).notRecovered r hr _ _ _ _ hnoted
  · have hnodup : s.tables.runningRows.Nodup := (List.Nodup.of_map _ hs.keys).filter _
    apply hnodup.map_on
    intro d hd d' hd' hsame
    obtain ⟨r, hr⟩ := hs.running_run hd
    have hruns : d.runId = d'.runId := (EventKey.recovery.inj hsame).2.2.2.2
    exact hs.keys.eq_of_key (mem_runningRows.mp hd).1 (mem_runningRows.mp hd').1
      (hs.owner d (mem_runningRows.mp hd).1 d' (mem_runningRows.mp hd').1 r hr (hruns ▸ hr))

theorem Sound.recover (hs : s.Sound)
    (h : s.tables.recoverScheduleOccurrences now newId = .ok t) :
    (s.after t (.recover now newId)).Sound := by
  obtain ⟨events, hinsert, h⟩ := Except.bind_ok h
  cases h
  have hnamed (n : Notice)
      (hn : n ∈ s.tables.runningRows.map fun d => (⟨now, .recovered d⟩ : Notice)) :
      ∃ d ∈ s.tables.runningRows, n.transition.key.kind = .recovered ∧
        n.transition.key.run = d.runId := by
    obtain ⟨d, hd, rfl⟩ := List.mem_map.mp hn
    exact ⟨d, hd, rfl, rfl⟩
  have hold {key : EventKey} (hkind : key.kind ≠ .recovered)
      (hnoted : Noted (s.committed ++ s.tables.runningRows.map
        fun d => (⟨now, .recovered d⟩ : Notice)) key) : Noted s.committed key := by
    rcases noted_append.mp hnoted with hnoted | ⟨n, hn, hkey⟩
    · exact hnoted
    · obtain ⟨-, -, hn, -⟩ := hnamed n hn
      exact absurd (hkey ▸ hn) hkind
  unfold after
  rw [hs.recovered_notices events]
  constructor
  · exact hs.recovered_events hinsert
  · exact Store.recover_keys now hs.keys
  · intro d' hd'
    obtain ⟨d, hd, ⟨-, rfl⟩ | ⟨hstate, rfl⟩⟩ := Store.mem_recover.mp hd'
    · exact .of_waiting rfl rfl fun hqueued => by cases hqueued
    · refine (hs.rows d' hd).append (fun _ hr => hr) fun n hn r hr hrun => ?_
      obtain ⟨d, hrow, -, hsame⟩ := hnamed n hn
      obtain ⟨hmem, hrunning⟩ := mem_runningRows.mp hrow
      have hkeys := hs.owner d' hd d hmem r hrun (hsame ▸ hr)
      exact hstate (hs.keys.eq_of_key hd hmem hkeys ▸ hrunning)
  · intro d hd d' hd' r hr hr'
    obtain ⟨c, hc, ⟨-, rfl⟩ | ⟨-, rfl⟩⟩ := Store.mem_recover.mp hd
    · cases hr
    · obtain ⟨c', hc', ⟨-, rfl⟩ | ⟨-, rfl⟩⟩ := Store.mem_recover.mp hd'
      · cases hr'
      · exact hs.owner d hc d' hc' r hr hr'
  · intro key hnoted
    obtain ⟨d, hd, rfl⟩ := hs.claimed key (hold (fun hkind => by cases hkind) hnoted)
    by_cases hstate : d.state = .running
    · exact ⟨_, Store.mem_recover.mpr ⟨d, hd, .inl ⟨hstate, rfl⟩⟩, rfl⟩
    · exact ⟨d, Store.mem_recover.mpr ⟨d, hd, .inr ⟨hstate, rfl⟩⟩, rfl⟩
  · intro n hn r hr
    rcases List.mem_append.mp hn with hn | hn
    · exact hs.runs n hn r hr
    · obtain ⟨d, hrow, -, hsame⟩ := hnamed n hn
      exact (hs.rows d (mem_runningRows.mp hrow).1).hasRun r (hsame ▸ hr)
  · intro id g hnoted
    exact hs.generations id g (hold (fun hkind => by cases hkind) hnoted)

end Recovery

section Processes

variable {instance_ : ProcessInstance} {processes : ProcessTables} {events : List EventRow}
  {notices : List Notice}

/-- Transitions that concern the process rows alone -/
theorem Sound.writes_processes (hs : s.Sound)
    (hevents : events.map EventRow.fields = (s.committed ++ notices).map Notice.fields)
    (hkinds : ∀ n ∈ notices, n.transition.key.run = none ∧ ∀ key, n.transition.key ≠ .claim key)
    (hgenerations : ∀ id g, Noted (s.committed ++ notices) (.generation id g) →
      ∃ row ∈ processes.instances, row.instanceId = id ∧ (g : ℤ) ≤ row.generation) :
    Sound ⟨{ s.tables with processes, events }, s.committed ++ notices⟩ := by
  constructor
  · exact hevents
  · exact hs.keys
  · intro d hd
    refine (hs.rows d hd).append (fun _ hr => hr) fun n hn r hr => ?_
    rw [(hkinds n hn).1] at hr
    cases hr
  · exact hs.owner
  · intro key hnoted
    rcases noted_append.mp hnoted with hnoted | ⟨n, hn, hkey⟩
    · exact hs.claimed key hnoted
    · exact absurd hkey ((hkinds n hn).2 key)
  · intro n hn r hr
    rcases List.mem_append.mp hn with hn | hn
    · exact hs.runs n hn r hr
    · rw [(hkinds n hn).1] at hr
      cases hr
  · exact hgenerations

theorem Sound.generations_update (hs : s.Sound) {p : ProcessInstanceRow → Bool}
    {f : ProcessInstanceRow → ProcessInstanceRow} (hf : ∀ r, (f r).instanceId = r.instanceId)
    (hgrows : ∀ r, p r = true → r.generation ≤ (f r).generation) {id : ProcessInstanceId} {g : ℕ}
    (hnoted : Noted s.committed (.generation id g)) :
    ∃ row ∈ (s.tables.processes.updateInstances p f hf).2.instances,
      row.instanceId = id ∧ (g : ℤ) ≤ row.generation := by
  obtain ⟨row, hrow, hid, hle⟩ := hs.generations id g hnoted
  refine ⟨_, List.mem_map.mpr ⟨row, hrow, rfl⟩, ?_⟩
  split
  · rename_i hp
    exact ⟨(hf row).trans hid, hle.trans (hgrows row hp)⟩
  · exact ⟨hid, hle⟩

theorem Sound.advance (hs : s.Sound) {next : Option ProcessInstance}
    (h : s.tables.advanceProcessInstanceGeneration instance_ now eventId = .ok (next, t)) :
    (s.after t (.advance instance_ now eventId)).Sound := by
  unfold EvidenceTables.advanceProcessInstanceGeneration at h
  split at h
  · cases h
  · cases h
    exact hs.after_self _
  · rename_i next' processes hadvance
    obtain ⟨r, hr, hcurrent, rfl⟩ := advance_ok hadvance
    cases hinsert : insertOperatorEvent s.tables.events eventId
        ⟨now, .generationAdvanced instance_⟩ with
    | error e =>
      rw [hinsert] at h
      cases h
    | ok events =>
      rw [hinsert] at h
      cases h
      have hgeneration : r.generation = instance_.generation.val := by
        simp only [ProcessTables.isCurrent, Bool.and_eq_true, decide_eq_true_eq] at hcurrent
        exact hcurrent.1.2
      have hmem : r ∈ s.tables.processes.instances := KeyedRows.find_mem hr
      have hid : r.instanceId = instance_.id := KeyedRows.find_key hr
      have hnew : ¬Noted s.committed
          (.generation instance_.id (instance_.generation.val + 1)) := by
        intro hnoted
        obtain ⟨row, hrow, hrowId, hle⟩ := hs.generations _ _ hnoted
        rw [s.tables.processes.unique.eq_of_key hrow hmem (hrowId.trans hid.symm), hgeneration]
          at hle
        omega
      rcases insertOperatorEvent_ok hs.evidenced hinsert with ⟨hnoted, -⟩ | ⟨-, hevents⟩
      · exact absurd hnoted hnew
      · have hrow := row_updateCurrent (f := fun row => { row with
          generation := instance_.generation.val + 1, runtime := {}, restartCount := 0 })
          (fun _ => rfl) hr hcurrent
        unfold after EvidenceOp.notices
        dsimp only
        rw [hrow, hr, Option.map_some, Option.map_some, if_neg (by simp [hgeneration])]
        refine hs.writes_processes hevents (fun n hn => ?_) fun id g hnoted => ?_
        · rw [List.mem_singleton.mp hn]
          exact ⟨rfl, fun key hkey => by cases hkey⟩
        · rcases noted_append.mp hnoted with hnoted | hnoted
          · apply hs.generations_update _ _ hnoted
            intro row hp
            simp only [ProcessTables.isCurrent, Bool.and_eq_true, decide_eq_true_eq] at hp
            change row.generation ≤ (instance_.generation.val : ℤ) + 1
            omega
          · cases noted_singleton.mp hnoted
            exact ⟨_, KeyedRows.find_mem hrow, hid, le_rfl⟩

theorem Sound.restartCount (hs : s.Sound) {count : U32} (hkeyed : s.CountsOnce instance_ count)
    {changed : Bool}
    (h : s.tables.setProcessInstanceRestartCount instance_ count now eventId =
      .ok (changed, t)) :
    (s.after t (.restartCount instance_ count now eventId)).Sound := by
  unfold EvidenceTables.setProcessInstanceRestartCount at h
  split at h
  · cases h
  · cases h
    exact hs.after_self _
  · rename_i processes hset
    obtain ⟨r, hr, hcurrent, rfl⟩ := setRestartCount_ok hset
    obtain ⟨hcount, hsame⟩ := hkeyed r hr hcurrent
    cases hinsert : insertOperatorEvent s.tables.events eventId
        ⟨now, .restartScheduled instance_ count⟩ with
    | error e =>
      rw [hinsert] at h
      cases h
    | ok events =>
      rw [hinsert] at h
      cases h
      have hrow := row_updateCurrent (f := fun row => { row with restartCount := count.val })
        (fun _ => rfl) hr hcurrent
      have hkept {id : ProcessInstanceId} {g : ℕ}
          (hnoted : Noted s.committed (.generation id g)) :=
        hs.generations_update (p := ProcessTables.isCurrent instance_ instance_.generation.val)
          (f := fun row => { row with restartCount := count.val }) (fun _ => rfl)
          (fun _ _ => le_rfl) hnoted
      unfold after EvidenceOp.notices
      dsimp only
      rw [hrow, hr, Option.map_some, Option.map_some]
      rcases insertOperatorEvent_ok hs.evidenced hinsert with ⟨hnoted, rfl⟩ | ⟨hnew, hevents⟩
      · have hunchanged : count.val = r.restartCount := (hsame.mpr hnoted).symm
        rw [if_pos (.inr (congrArg some hunchanged))]
        refine hs.writes_processes ?_ (fun n hn => absurd hn List.not_mem_nil) fun id g hnoted => ?_
        · rw [List.append_nil]
          exact hs.evidenced
        · rw [List.append_nil] at hnoted
          exact hkept hnoted
      · have hchanged : ¬(count = 0 ∨ some (count.val : ℤ) = some r.restartCount) := by
          rintro (hzero | heq)
          · exact hcount hzero
          · exact hnew (hsame.mp (Option.some.inj heq).symm)
        rw [if_neg hchanged]
        refine hs.writes_processes hevents (fun n hn => ?_) fun id g hnoted => ?_
        · rw [List.mem_singleton.mp hn]
          exact ⟨rfl, fun key hkey => by cases hkey⟩
        · rcases noted_append.mp hnoted with hnoted | hnoted
          · exact hkept hnoted
          · cases noted_singleton.mp hnoted

end Processes

theorem Sound.submit (hs : s.Sound) (r : EvidenceRequest) (hkeyed : KeepsEvidence s r) :
    (s.after (s.tables.submit r) r.op).Sound := by
  unfold EvidenceTables.submit
  cases hfault : r.fault with
  | some error => exact hs.after_self _
  | none =>
    have hkeyed := hkeyed hfault
    cases hperform : s.tables.perform r.op with
    | error error => exact hs.after_self _
    | ok t =>
      change (s.after t r.op).Sound
      have hanswer {α : Type} {x : Except RepoError (α × EvidenceTables)}
          (h : x.map Prod.snd = .ok t) : ∃ a, x = .ok (a, t) := by
        cases x with
        | error e => cases h
        | ok answer =>
          cases h
          exact ⟨answer.1, rfl⟩
      cases hop : r.op with
      | claim job occurrence now eventId =>
        rw [hop] at hperform
        exact hs.claim (hanswer hperform).choose_spec
      | admitOccurrence job occurrence now runId eventId =>
        rw [hop] at hperform hkeyed
        exact hs.admitted hkeyed (hanswer hperform).choose_spec
      | finalize job run now eventId =>
        rw [hop] at hperform hkeyed
        exact hs.finalize hkeyed (hanswer hperform).choose_spec
      | recover now eventId =>
        rw [hop] at hperform
        exact hs.recover hperform
      | advance instance_ now eventId =>
        rw [hop] at hperform
        exact hs.advance (hanswer hperform).choose_spec
      | restartCount instance_ count now eventId =>
        rw [hop] at hperform hkeyed
        exact hs.restartCount hkeyed (hanswer hperform).choose_spec

end Steps

/-- In every state of a run whose operations change the rows if and only if their keys are new,
the stored events are those of the committed transitions. -/
theorem events_of_transitions (jobs : List Job) (runs : List JobRun) (processes : ProcessTables)
    (h : evidenceSystem.Run KeepsEvidence (start jobs runs processes) s) : s.Evidenced := by
  have hsound : s.Sound := by
    refine h.invariant (fun s r u hs hkeyed hstep => ?_) (start_sound jobs runs processes)
    cases hstep
    exact hs.submit r hkeyed
  exact hsound.evidenced

section Runs

def nightly : Job := { id := ⟨1⟩, name := "nightly", trigger := .cron "0 2 * * *" }

def firstNight : ScheduleOccurrence := ⟨0, 0, 1784944800000000000, 1⟩

def slot : ProcessInstance := ⟨⟨5⟩, ⟨6⟩, 0, 1⟩

def slotTables : ProcessTables where
  instances := [{ instanceId := ⟨5⟩, definitionId := ⟨6⟩, ordinal := 0 }]
  unique := List.nodup_singleton _

/-- An occurrence that is claimed twice, run and settled, while an instance is restarted; the
first try to settle it is rolled back. -/
def settledNight : List EvidenceRequest :=
  let run : JobRun :=
    { runId := ⟨7⟩, jobName := "nightly", jobId := ⟨1⟩, triggeredBy := .scheduled firstNight
      scheduledAt := firstNight.scheduledAt, state := .succeeded, occurrence := some firstNight }
  [{ op := .claim nightly firstNight 10 100 },
   { op := .claim nightly firstNight 11 101 },
   { op := .admitOccurrence nightly firstNight 12 ⟨7⟩ 102 },
   { op := .restartCount slot (nextRestartCount 0) 13 103 },
   { op := .finalize nightly run 14 104, fault := some Store.uniqueFailed },
   { op := .finalize nightly run 15 105 },
   { op := .advance slot 16 106 }]

theorem events_of_transitions_night :
    ∃ s, evidenceSystem.Run KeepsEvidence (start [nightly] [] slotTables) s ∧
      s.committed.length = 5 ∧ s.Evidenced := by
  obtain ⟨s, hrun, hlength⟩ := Machine.exists_run_of_execUnder (M := evidenceSystem)
    (C := KeepsEvidence) (s := start [nightly] [] slotTables) (fun s => s.committed.length = 5)
    settledNight (by decide +kernel)
  exact ⟨s, hrun, of_decide_eq_true hlength, events_of_transitions [nightly] [] slotTables hrun⟩

/-- Two restarts of an instance are scheduled, and between them a stable period takes the count
back: the second restart has no event, and the count that was taken back has one. -/
theorem restart_without_event :
    ∃ s, evidenceSystem.Reaches (start [] [] slotTables) s ∧ ¬s.Evidenced := by
  obtain ⟨s, hrun, hlost⟩ := Machine.exists_reaches_of_exec (M := evidenceSystem)
    (s := start [] [] slotTables) (fun s => ¬s.Evidenced)
    [{ op := .restartCount slot (nextRestartCount 0) 10 100 },
     { op := .restartCount slot 0 11 101 },
     { op := .restartCount slot (nextRestartCount 0) 12 102 }] (by decide +kernel)
  exact ⟨s, hrun, of_decide_eq_true hlost⟩

end Runs

end EvidenceState

end Supervisor
