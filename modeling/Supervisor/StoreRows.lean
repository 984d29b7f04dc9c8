import Supervisor.JobStore

namespace Supervisor

namespace Store

theorem hasJob_iff {s : Store} {name : String} {id : JobId} :
    s.hasJob name id = true ↔ ∃ job ∈ s.jobs, job.name = name ∧ job.id = id := by
  simp [hasJob]

theorem hasJob_congr {s t : Store} (h : t.jobs = s.jobs) : t.hasJob = s.hasJob := by
  funext name id
  rw [hasJob, hasJob, h]

theorem saveJob_rows (s : Store) (job : Job) :
    (s.saveJob job).runs = s.runs ∧ (s.saveJob job).occurrences = s.occurrences := by
  unfold saveJob
  split
  · exact ⟨rfl, rfl⟩
  · exact ⟨rfl, rfl⟩

section Runs

variable {s t : Store} {run : JobRun} {runId : JobRunId}

theorem insertRun_ok (h : s.insertRun run = .ok t) :
    s.findRun run.runId = none ∧ s.hasJob run.jobName run.jobId = true ∧
      (∀ row ∈ s.runs, clashesOnOccurrence run row = false) ∧
      t = { s with runs := s.runs ++ [run] } := by
  unfold insertRun at h
  split at h
  · cases h
  · rename_i hfresh
    split at h
    · cases h
    · rename_i hclash
      split at h
      · rename_i hjob
        cases h
        refine ⟨Option.not_isSome_iff_eq_none.mp hfresh, hjob, fun row hrow => ?_, rfl⟩
        by_contra hne
        exact hclash (List.any_eq_true.mpr ⟨row, hrow, by simpa using hne⟩)
      · cases h

/-- What `saveRun` writes: it updates the run's own row, or adds one. -/
theorem saveRun_ok (h : s.saveRun run = .ok t) :
    t.jobs = s.jobs ∧ t.occurrences = s.occurrences ∧ s.hasJob run.jobName run.jobId = true ∧
      ((∃ old, s.findRun run.runId = some old ∧ old.jobName = run.jobName ∧
          old.jobId = run.jobId ∧
          t.runs = KeyedRows.update JobRun.runId run.runId (fun row => { row with
            startedAt := run.startedAt, endedAt := run.endedAt, exitCode := run.exitCode
            state := run.state, occurrence := run.occurrence
            originalScheduledAt := run.originalScheduledAt }) s.runs) ∨
        s.findRun run.runId = none ∧ t.runs = s.runs ++ [run]) := by
  unfold saveRun at h
  split at h
  · cases h
  · rename_i hjob
    have hjob' : s.hasJob run.jobName run.jobId = true := by simpa using hjob
    split at h
    · rename_i hnone
      obtain ⟨-, -, -, rfl⟩ := insertRun_ok h
      exact ⟨rfl, rfl, hjob', .inr ⟨hnone, rfl⟩⟩
    · rename_i old hold
      split at h
      · cases h
      · rename_i hsame
        split at h
        · cases h
        · cases h
          simp only [ne_eq, decide_not, Bool.or_eq_true, Bool.not_eq_eq_eq_not, Bool.not_true,
            decide_eq_false_iff_not, not_or, not_not] at hsame
          exact ⟨rfl, rfl, hjob', .inl ⟨old, hold, hsame.1, hsame.2, rfl⟩⟩

theorem updateTerminalRun_ok (h : s.updateTerminalRun run = .ok t) :
    ∃ old, s.findRun run.runId = some old ∧ old.jobName = run.jobName ∧ old.jobId = run.jobId ∧
      t = s.setRun run.runId fun row => { row with
        startedAt := run.startedAt, endedAt := run.endedAt, exitCode := run.exitCode
        state := run.state } := by
  unfold updateTerminalRun at h
  split at h
  · cases h
  · rename_i old hold
    cases h
    obtain ⟨hfind, hsame⟩ := Option.filter_eq_some_iff.mp hold
    simp only [Bool.and_eq_true, decide_eq_true_eq] at hsame
    exact ⟨old, hfind, hsame.1, hsame.2, rfl⟩

theorem insertOutbox_ok {event : TransientTerminalEvent} (h : s.insertOutbox event = .ok t) :
    t.jobs = s.jobs ∧ t.runs = s.runs ∧ t.occurrences = s.occurrences ∧
      t.cleanups = s.cleanups := by
  unfold insertOutbox at h
  split at h
  · cases h; exact ⟨rfl, rfl, rfl, rfl⟩
  · split at h
    · cases h
    · cases h; exact ⟨rfl, rfl, rfl, rfl⟩

/-- What a terminal commit writes besides its event. -/
structure CommitsTerminal (s t : Store) (run old : JobRun) : Prop where
  found : s.findRun run.runId = some old
  jobName : old.jobName = run.jobName
  jobId : old.jobId = run.jobId
  jobs : t.jobs = s.jobs
  occurrences : t.occurrences = s.occurrences
  runs : t.runs = KeyedRows.update JobRun.runId run.runId (fun row => { row with
    startedAt := run.startedAt, endedAt := run.endedAt, exitCode := run.exitCode
    state := run.state }) s.runs

theorem updateTerminalRun_insertOutbox_ok {event : TransientTerminalEvent}
    (h : (s.updateTerminalRun run).bind (·.insertOutbox event) = .ok t) :
    ∃ old, CommitsTerminal s t run old := by
  cases hu : s.updateTerminalRun run with
  | error e => rw [hu] at h; cases h
  | ok u =>
    rw [hu] at h
    obtain ⟨hjobs, hruns, hoccs, -⟩ := insertOutbox_ok h
    obtain ⟨old, hold, hname, hid, rfl⟩ := updateTerminalRun_ok hu
    exact ⟨old, hold, hname, hid, hjobs, hoccs, hruns⟩

theorem commitTerminalRunWithEvent_ok {event : TransientTerminalEvent}
    (h : s.commitTerminalRunWithEvent run event = .ok t) : ∃ old, CommitsTerminal s t run old :=
  updateTerminalRun_insertOutbox_ok h

theorem commitTransientCleanupTerminal_ok {ticket : CleanupTicket} {eventId : Uuid}
    (h : s.commitTransientCleanupTerminal ticket run eventId = .ok t) :
    ∃ old, CommitsTerminal s t run old :=
  updateTerminalRun_insertOutbox_ok h

/-- Pruning removes terminal rows and nothing else. -/
theorem pruneRuns_spec (jobName : String) (maxRuns : Option ℕ) (olderThan : Option Instant) :
    (s.pruneRuns jobName maxRuns olderThan).2.jobs = s.jobs ∧
      (s.pruneRuns jobName maxRuns olderThan).2.occurrences = s.occurrences ∧
      ∃ keep : JobRun → Bool,
        (s.pruneRuns jobName maxRuns olderThan).2.runs = s.runs.filter keep ∧
          (KeyedRows.Unique JobRun.runId s.runs →
            ∀ row ∈ s.runs, keep row = false → row.state.isTerminal = true) := by
  unfold pruneRuns
  split
  · exact ⟨rfl, rfl, fun _ => true, by simp, fun _ row _ h => by cases h⟩
  · refine ⟨rfl, rfl, _, rfl, fun hu row hrow hremoved => ?_⟩
    simp only [decide_eq_false_iff_not, not_not, List.mem_map, List.mem_filter] at hremoved
    obtain ⟨⟨row', position⟩, ⟨hmem, -⟩, hid⟩ := hremoved
    have hsorted := List.fst_mem_of_mem_zipIdx hmem
    rw [List.mem_insertionSort, List.mem_filter] at hsorted
    rw [hu.eq_of_key hrow hsorted.1 hid.symm]
    simp only [Bool.and_eq_true] at hsorted
    exact hsorted.2.2

end Runs

section Occurrences

variable {s t : Store} {job : Job} {occurrence : ScheduleOccurrence} {now : Instant}
  {runId : JobRunId}

theorem advanceCursor_rows (jobId : JobId) (occurrence : ScheduleOccurrence) :
    (s.advanceCursor jobId occurrence).jobs = s.jobs ∧
      (s.advanceCursor jobId occurrence).runs = s.runs ∧
      (s.advanceCursor jobId occurrence).occurrences = s.occurrences := by
  simp only [advanceCursor]
  split <;> exact ⟨rfl, rfl, rfl⟩

/-- A claim adds the occurrence unless its row is there. -/
theorem claimScheduleOccurrence_ok {durable : DurableScheduleOccurrence}
    (h : s.claimScheduleOccurrence job occurrence now = .ok (durable, t)) :
    t.jobs = s.jobs ∧ t.runs = s.runs ∧
      (t.occurrences = s.occurrences ∨
        s.findOccurrence (occurrence.key job.id) = none ∧ s.hasJob job.name job.id = true ∧
          t.occurrences = s.occurrences ++
            [{ jobId := job.id, jobName := job.name, occurrence, state := .claimed,
               nextAttemptAt := now }]) := by
  unfold claimScheduleOccurrence at h
  split at h
  · cases h
    obtain ⟨hjobs, hruns, hoccs⟩ := advanceCursor_rows (s := s) job.id occurrence
    exact ⟨hjobs, hruns, .inl hoccs⟩
  · rename_i hnone
    split at h
    · cases h
      obtain ⟨hjobs, hruns, hoccs⟩ := advanceCursor_rows job.id occurrence
      exact ⟨hjobs, hruns, .inr ⟨hnone, ‹_›, hoccs⟩⟩
    · cases h

/-- What an answered admission found and wrote. -/
inductive AdmissionStep (s : Store) (job : Job) (occurrence : ScheduleOccurrence) (now : Instant)
    (runId : JobRunId) : ScheduleAdmission → Store → Prop
  | settled {d} (found : s.findOccurrence (occurrence.key job.id) = some d)
    (hstate : d.state = .finalized) :
    AdmissionStep s job occurrence now runId (.finalized d) s
  | already {d} (found : s.findOccurrence (occurrence.key job.id) = some d)
    (hstate : d.state = .running) :
    AdmissionStep s job occurrence now runId (.queued d) s
  | queued {d} (found : s.findOccurrence (occurrence.key job.id) = some d)
    (hwaits : d.state.isWaiting = true)
    (hfull : job.admission.maxConcurrency.val ≤ s.runningOccurrences job.id)
    (hroom : s.waitingOccurrences job.id ≤ job.admission.maxQueue.val) :
    AdmissionStep s job occurrence now runId (.queued { d with state := .queued })
      (s.setOccurrence (occurrence.key job.id) fun d => { d with state := .queued })
  | skipped {d u} (found : s.findOccurrence (occurrence.key job.id) = some d)
    (hwaits : d.state.isWaiting = true)
    (hfull : job.admission.maxConcurrency.val ≤ s.runningOccurrences job.id)
    (hover : job.admission.maxQueue.val < s.waitingOccurrences job.id)
    (hinsert : (s.setOccurrence (occurrence.key job.id) fun d => { d with
      state := .finalized, runId := some runId, finalState := some .skipped }).insertRun
        (occurrenceRun job occurrence runId .skipped (some now)) = .ok u) :
    AdmissionStep s job occurrence now runId
      (.finalized { d with
        state := .finalized, runId := some runId, finalState := some .skipped }) u
  | started {d u} (found : s.findOccurrence (occurrence.key job.id) = some d)
    (hwaits : d.state.isWaiting = true)
    (hfree : s.runningOccurrences job.id < job.admission.maxConcurrency.val)
    (hinsert : (s.setOccurrence (occurrence.key job.id) fun d => { d with
      state := .running, runId := some runId }).insertRun
        (occurrenceRun job occurrence runId .pending none) = .ok u) :
    AdmissionStep s job occurrence now runId
      (.start { d with state := .running, runId := some runId }) u

theorem admitScheduleOccurrence_ok {answer : ScheduleAdmission}
    (h : s.admitScheduleOccurrence job occurrence now runId = .ok (answer, t)) :
    AdmissionStep s job occurrence now runId answer t := by
  have hinserted {u : Store} {run : JobRun} {a : ScheduleAdmission}
      (h : (u.insertRun run).map (a, ·) = .ok (answer, t)) :
      a = answer ∧ u.insertRun run = .ok t := by
    cases hu : u.insertRun run with
    | error e => rw [hu] at h; cases h
    | ok v => rw [hu] at h; cases h; exact ⟨rfl, rfl⟩
  simp only [admitScheduleOccurrence] at h
  split at h
  · cases h
  · rename_i d found
    split at h
    · cases h; exact .settled found ‹_›
    · rename_i hfinal
      split at h
      · cases h; exact .already found ‹_›
      · rename_i hrunning
        have hwaits : d.state.isWaiting = true := by
          cases hd : d.state with
          | finalized => exact absurd hd hfinal
          | running => exact absurd hd hrunning
          | claimed | queued | retryPending => rfl
        split at h
        · split at h
          · obtain ⟨rfl, hinsert⟩ := hinserted h
            exact .skipped found hwaits ‹_› ‹_› hinsert
          · cases h
            exact .queued found hwaits ‹_› (Nat.le_of_not_lt ‹_›)
        · obtain ⟨rfl, hinsert⟩ := hinserted h
          exact .started found hwaits (Nat.lt_of_not_le ‹_›) hinsert

/-- What a finalisation found and wrote. -/
inductive FinalizationStep (s : Store) (job : Job) (run : JobRun) (now : Instant) :
    ScheduleFinalization → Store → Prop
  | retry {o d} (retryAt : Instant)
    (hretryAt : retryAt =
      now + retryDelay job.retryPolicy d.occurrence.attempt run.runId * nanosPerSec) (hocc : run.occurrence = some o)
    (found : s.findOccurrence (o.key job.id) = some d) (howner : d.runId = some run.runId)
    (hfailed : run.state = .failed) (hmore : d.occurrence.attempt < job.retryPolicy.maxAttempts) :
    FinalizationStep s job run now
      (.retry { d with
        occurrence := { d.occurrence with attempt := d.occurrence.attempt.saturatingAdd 1 }
        state := .retryPending, nextAttemptAt := retryAt, runId := none, finalState := none })
      (s.setOccurrence (o.key job.id) fun d => { d with
        occurrence := { d.occurrence with attempt := d.occurrence.attempt.saturatingAdd 1 }
        state := .retryPending, nextAttemptAt := retryAt, runId := none, finalState := none })
  | final {o d} (hocc : run.occurrence = some o)
    (found : s.findOccurrence (o.key job.id) = some d) (howner : d.runId = some run.runId)
    (hlast : ¬(run.state = .failed ∧ d.occurrence.attempt < job.retryPolicy.maxAttempts)) :
    FinalizationStep s job run now
      (.finalized { d with state := .finalized, finalState := some run.state })
      (s.setOccurrence (o.key job.id) fun d => { d with
        state := .finalized, finalState := some run.state })

theorem finalizeScheduleAttempt_ok {run : JobRun} {answer : ScheduleFinalization}
    (h : s.finalizeScheduleAttempt job run now = .ok (answer, t)) :
    FinalizationStep s job run now answer t := by
  simp only [finalizeScheduleAttempt] at h
  split at h
  · cases h
  · rename_i o hocc
    split at h
    · cases h
    · rename_i d hd
      obtain ⟨found, howner⟩ := Option.filter_eq_some_iff.mp hd
      simp only [decide_eq_true_eq] at howner
      split at h
      · rename_i hretry
        cases h
        exact .retry _ rfl hocc found howner hretry.1 hretry.2
      · cases h
        exact .final hocc found howner ‹_›

theorem finalizeScheduleAttempt_isOk {run : JobRun} {o : ScheduleOccurrence}
    {d : DurableScheduleOccurrence} (hocc : run.occurrence = some o)
    (found : s.findOccurrence (o.key job.id) = some d) (howner : d.runId = some run.runId) :
    ∃ answer t, s.finalizeScheduleAttempt job run now = .ok (answer, t) := by
  have hfilter : (s.findOccurrence (o.key job.id)).filter
      (fun d => d.runId = some run.runId) = some d :=
    Option.filter_eq_some_iff.mpr ⟨found, by simpa using howner⟩
  simp only [finalizeScheduleAttempt, hocc, hfilter]
  split
  · exact ⟨_, _, rfl⟩
  · exact ⟨_, _, rfl⟩

theorem map_recover_keys (s : Store) (now : Instant) :
    (s.recoverScheduleOccurrences now).occurrences.map DurableScheduleOccurrence.key =
      s.occurrences.map DurableScheduleOccurrence.key := by
  rw [recoverScheduleOccurrences, List.map_map]
  apply List.map_congr_left
  intro d _
  by_cases hd : d.state = .running
  · simp [hd, DurableScheduleOccurrence.key]
  · simp [hd]

/-- The recovery after a restart keeps the keys. -/
theorem recover_keys (now : Instant)
    (hkeys : KeyedRows.Unique DurableScheduleOccurrence.key s.occurrences) :
    KeyedRows.Unique DurableScheduleOccurrence.key (s.recoverScheduleOccurrences now).occurrences := by
  rw [KeyedRows.Unique, map_recover_keys]
  exact hkeys

end Occurrences

end Store

end Supervisor
