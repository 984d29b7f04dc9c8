import Supervisor.RowMap
import Supervisor.StoreRows

namespace Supervisor

namespace Store

variable {s t u : Store} {job : Job} {now : Instant}

/-- No schedule cursor is lost or moved back. -/
def CursorsGrow (s t : Store) : Prop :=
  ∀ job at_, s.scheduleCursor job = some at_ → ∃ at', t.scheduleCursor job = some at' ∧ at_ ≤ at'

theorem CursorsGrow.of_eq (h : t.cursors = s.cursors) : s.CursorsGrow t := by
  intro job at_ hat
  refine ⟨at_, ?_, le_rfl⟩
  unfold scheduleCursor
  rw [h]
  exact hat

theorem CursorsGrow.trans (h : s.CursorsGrow t) (h' : t.CursorsGrow u) : s.CursorsGrow u := by
  intro job at_ hat
  obtain ⟨at', hat', hle⟩ := h job at_ hat
  obtain ⟨at'', hat'', hle'⟩ := h' job at' hat'
  exact ⟨at'', hat'', hle.trans hle'⟩

theorem scheduleCursor_advanceCursor (jobId : JobId) (occurrence : ScheduleOccurrence) (job : Job) :
    (s.advanceCursor jobId occurrence).scheduleCursor job =
      if (job.id, job.triggerId, job.scheduleRevision) =
          (jobId, occurrence.triggerId, occurrence.scheduleRevision) then
        some (max occurrence.scheduledAt ((s.scheduleCursor job).getD occurrence.scheduledAt))
      else s.scheduleCursor job := by
  simp only [advanceCursor, ScheduleCursor.key]
  split
  · rename_i hnone
    unfold scheduleCursor
    rw [KeyedRows.find_append, KeyedRows.find_singleton]
    by_cases hkey : (job.id, job.triggerId, job.scheduleRevision) =
        (jobId, occurrence.triggerId, occurrence.scheduleRevision)
    · rw [if_pos hkey, hkey, hnone]
      simp [ScheduleCursor.key]
    · have hother : ¬(jobId, occurrence.triggerId, occurrence.scheduleRevision) =
          (job.id, job.triggerId, job.scheduleRevision) := fun h => hkey h.symm
      rw [if_neg hkey]
      simp [ScheduleCursor.key, hother]
  · rename_i old hold
    unfold scheduleCursor
    rw [KeyedRows.find_update]
    · by_cases hkey : (job.id, job.triggerId, job.scheduleRevision) =
          (jobId, occurrence.triggerId, occurrence.scheduleRevision)
      · rw [if_pos hkey, if_pos hkey, hkey, hold]
        rfl
      · rw [if_neg hkey, if_neg hkey]
    · intro row hrow
      exact hrow

theorem cursorsGrow_advanceCursor (jobId : JobId) (occurrence : ScheduleOccurrence) :
    s.CursorsGrow (s.advanceCursor jobId occurrence) := by
  intro job at_ hat
  rw [scheduleCursor_advanceCursor, hat]
  split
  · exact ⟨_, rfl, le_max_right _ _⟩
  · exact ⟨at_, rfl, le_rfl⟩

/-- A claim writes the cursor of its occurrence and no other. -/
theorem claim_cursors {occurrence : ScheduleOccurrence} {d : DurableScheduleOccurrence}
    (h : s.claimScheduleOccurrence job occurrence now = .ok (d, t)) :
    t.cursors = (s.advanceCursor job.id occurrence).cursors := by
  have hsame (rows : List DurableScheduleOccurrence) :
      ({ s with occurrences := rows }.advanceCursor job.id occurrence).cursors =
        (s.advanceCursor job.id occurrence).cursors := by
    simp only [advanceCursor]
    split <;> rfl
  unfold claimScheduleOccurrence at h
  split at h
  · cases h
    rfl
  · split at h
    · cases h
      exact hsame _
    · cases h

theorem claim_scheduleCursor {occurrence : ScheduleOccurrence} {d : DurableScheduleOccurrence}
    (h : s.claimScheduleOccurrence job occurrence now = .ok (d, t)) (job' : Job) :
    t.scheduleCursor job' = (s.advanceCursor job.id occurrence).scheduleCursor job' := by
  unfold scheduleCursor
  rw [claim_cursors h]

theorem claim_cursorsGrow {occurrence : ScheduleOccurrence} {d : DurableScheduleOccurrence}
    (h : s.claimScheduleOccurrence job occurrence now = .ok (d, t)) : s.CursorsGrow t := by
  have hsame : t.cursors = (s.advanceCursor job.id occurrence).cursors := claim_cursors h
  exact (cursorsGrow_advanceCursor job.id occurrence).trans (.of_eq hsame)

section Unchanged

variable {run : JobRun}

theorem insertRun_cursors (h : s.insertRun run = .ok t) : t.cursors = s.cursors := by
  obtain ⟨-, -, -, rfl⟩ := insertRun_ok h
  rfl

theorem saveJob_cursors (job : Job) : (s.saveJob job).cursors = s.cursors := by
  unfold saveJob
  split <;> rfl

theorem saveRun_cursors (h : s.saveRun run = .ok t) : t.cursors = s.cursors := by
  unfold saveRun at h
  split at h
  · cases h
  split at h
  · exact insertRun_cursors h
  split at h
  · cases h
  split at h
  · cases h
  · cases h
    rfl

theorem updateTerminalRun_cursors (h : s.updateTerminalRun run = .ok t) :
    t.cursors = s.cursors := by
  unfold updateTerminalRun at h
  split at h
  · cases h
  · cases h
    rfl

theorem insertOutbox_cursors {event : TransientTerminalEvent} (h : s.insertOutbox event = .ok t) :
    t.cursors = s.cursors := by
  unfold insertOutbox at h
  split at h
  · cases h
    rfl
  split at h
  · cases h
  · cases h
    rfl

theorem terminalCommit_cursors {event : TransientTerminalEvent}
    (h : (s.updateTerminalRun run).bind (·.insertOutbox event) = .ok t) :
    t.cursors = s.cursors := by
  cases hupdate : s.updateTerminalRun run with
  | error e =>
    rw [hupdate] at h
    cases h
  | ok u =>
    rw [hupdate] at h
    exact (insertOutbox_cursors h).trans (updateTerminalRun_cursors hupdate)

theorem finalizeAttempt_cursors {answer : ScheduleFinalization}
    (h : s.finalizeScheduleAttempt job run now = .ok (answer, t)) : t.cursors = s.cursors := by
  unfold finalizeScheduleAttempt at h
  split at h
  · cases h
  dsimp only at h
  split at h
  · cases h
  split at h
  · cases h
    rfl
  · cases h
    rfl

theorem pruneRuns_cursors (jobName : String) (maxRuns : Option ℕ) (olderThan : Option Instant) :
    (s.pruneRuns jobName maxRuns olderThan).2.cursors = s.cursors := by
  unfold pruneRuns
  split <;> rfl

theorem claimDependencyRun_cursors {jobName : String} {signature : List JobRunId} {claimed : Bool}
    (h : s.claimDependencyRun jobName signature run = .ok (claimed, t)) :
    t.cursors = s.cursors := by
  unfold claimDependencyRun at h
  split at h
  · cases h
    rfl
  · cases hinsert : ({ s with dependencySignatures :=
        (s.dependencySignatures.filter fun row => row.1 ≠ jobName) ++
          [(jobName, signature)] } : Store).insertRun run with
    | error e =>
      simp only [hinsert] at h
      cases h
    | ok u =>
      simp only [hinsert] at h
      cases h
      have hsame := insertRun_cursors hinsert
      exact hsame

theorem admit_cursors {occurrence : ScheduleOccurrence} {runId : JobRunId}
    {answer : ScheduleAdmission}
    (h : s.admitScheduleOccurrence job occurrence now runId = .ok (answer, t)) :
    t.cursors = s.cursors := by
  cases admitScheduleOccurrence_ok h with
  | settled | already => rfl
  | queued => rfl
  | skipped _ _ _ _ hinsert =>
    have hsame := insertRun_cursors hinsert
    exact hsame
  | started _ _ _ hinsert =>
    have hsame := insertRun_cursors hinsert
    exact hsame

end Unchanged

theorem CursorsGrow.of_ok {answer : Except RepoError Store}
    (h : ∀ t, answer = .ok t → s.CursorsGrow t) : s.CursorsGrow (answer.toOption.getD s) := by
  cases answer with
  | error e => exact .of_eq rfl
  | ok t => exact h t rfl

theorem ok_of_map_snd {α : Type} {answer : Except RepoError (α × Store)}
    (h : answer.map Prod.snd = .ok t) : ∃ a, answer = .ok (a, t) := by
  cases answer with
  | error e => cases h
  | ok p =>
    cases h
    exact ⟨p.1, rfl⟩

/-- No transaction loses a cursor or moves it back. -/
theorem cursorsGrow_apply (op : StoreOp) : s.CursorsGrow (s.apply op) := by
  cases op with
  | saveJob job => exact .of_eq (saveJob_cursors job)
  | deleteJob name => exact .of_eq rfl
  | saveRun run => exact .of_ok fun t h => .of_eq (saveRun_cursors h)
  | claimOccurrence job occurrence now =>
    apply CursorsGrow.of_ok
    intro t h
    obtain ⟨d, hclaim⟩ := ok_of_map_snd h
    exact claim_cursorsGrow hclaim
  | finalizeAttempt job run now =>
    apply CursorsGrow.of_ok
    intro t h
    obtain ⟨answer, hfinal⟩ := ok_of_map_snd h
    exact .of_eq (finalizeAttempt_cursors hfinal)
  | commitTerminal run event => exact .of_ok fun t h => .of_eq (terminalCommit_cursors h)
  | commitCleanup ticket run eventId => exact .of_ok fun t h => .of_eq (terminalCommit_cursors h)
  | pruneRuns jobName maxRuns olderThan => exact .of_eq (pruneRuns_cursors jobName maxRuns olderThan)
  | claimDependency jobName signature run =>
    apply CursorsGrow.of_ok
    intro t h
    obtain ⟨claimed, hclaim⟩ := ok_of_map_snd h
    exact .of_eq (claimDependencyRun_cursors hclaim)

end Store

end Supervisor
