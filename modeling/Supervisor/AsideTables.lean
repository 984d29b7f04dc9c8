import Supervisor.ScheduleInvariant

namespace Supervisor

/-- The tables beside the jobs, their runs and the ledger stay as they are. -/
structure Store.AsideKept (s t : Store) : Prop where
  dependencySignatures : t.dependencySignatures = s.dependencySignatures
  cleanups : t.cleanups = s.cleanups
  outbox : t.outbox = s.outbox

namespace Store

variable {s t : Store}

theorem AsideKept.events (h : s.AsideKept t) : t.cleanups = s.cleanups ∧ t.outbox = s.outbox :=
  ⟨h.cleanups, h.outbox⟩

theorem saveJob_aside (s : Store) (job : Job) : s.AsideKept (s.saveJob job) := by
  unfold saveJob
  split
  · exact ⟨rfl, rfl, rfl⟩
  · exact ⟨rfl, rfl, rfl⟩

theorem insertRun_aside {run : JobRun} (h : s.insertRun run = .ok t) : s.AsideKept t := by
  obtain ⟨-, -, -, rfl⟩ := insertRun_ok h
  exact ⟨rfl, rfl, rfl⟩

theorem saveRun_aside {run : JobRun} (h : s.saveRun run = .ok t) : s.AsideKept t := by
  unfold saveRun at h
  split at h
  · cases h
  · split at h
    · exact insertRun_aside h
    · split at h
      · cases h
      · split at h
        · cases h
        · cases h
          exact ⟨rfl, rfl, rfl⟩

theorem advanceCursor_aside (s : Store) (jobId : JobId) (occurrence : ScheduleOccurrence) :
    s.AsideKept (s.advanceCursor jobId occurrence) := by
  simp only [advanceCursor]
  split
  · exact ⟨rfl, rfl, rfl⟩
  · exact ⟨rfl, rfl, rfl⟩

theorem claimScheduleOccurrence_aside {job : Job} {occurrence : ScheduleOccurrence} {now : Instant}
    {durable : DurableScheduleOccurrence}
    (h : s.claimScheduleOccurrence job occurrence now = .ok (durable, t)) : s.AsideKept t := by
  unfold claimScheduleOccurrence at h
  split at h
  · cases h
    exact advanceCursor_aside s job.id occurrence
  · split at h
    · cases h
      obtain ⟨hsignatures, hcleanups, houtbox⟩ := advanceCursor_aside
        { s with occurrences := s.occurrences ++ [_] } job.id occurrence
      exact ⟨hsignatures, hcleanups, houtbox⟩
    · cases h

theorem AdmissionStep.aside {job : Job} {occurrence : ScheduleOccurrence} {now : Instant}
    {runId : JobRunId} {answer : ScheduleAdmission}
    (h : AdmissionStep s job occurrence now runId answer t) : s.AsideKept t := by
  cases h with
  | settled | already | queued => exact ⟨rfl, rfl, rfl⟩
  | skipped _ _ _ _ hinsert | started _ _ _ hinsert =>
    obtain ⟨hsignatures, hcleanups, houtbox⟩ := insertRun_aside hinsert
    exact ⟨hsignatures, hcleanups, houtbox⟩

theorem FinalizationStep.aside {job : Job} {run : JobRun} {now : Instant}
    {answer : ScheduleFinalization} (h : FinalizationStep s job run now answer t) :
    s.AsideKept t := by
  cases h with
  | retry | final => exact ⟨rfl, rfl, rfl⟩

theorem pruneRuns_aside (s : Store) (jobName : String) (maxRuns : Option ℕ)
    (olderThan : Option Instant) : s.AsideKept (s.pruneRuns jobName maxRuns olderThan).2 := by
  unfold pruneRuns
  split
  · exact ⟨rfl, rfl, rfl⟩
  · exact ⟨rfl, rfl, rfl⟩

/-- An event is inserted once for its cleanup id, under an event id of its own. -/
theorem insertOutbox_spec {event : TransientTerminalEvent} (h : s.insertOutbox event = .ok t) :
    t = s ∧ (∃ row ∈ s.outbox, row.cleanupId = event.cleanupId) ∨
      t = { s with outbox := s.outbox ++ [event] } ∧
        (∀ row ∈ s.outbox, row.cleanupId ≠ event.cleanupId) ∧
          ∀ row ∈ s.outbox, row.eventId ≠ event.eventId := by
  unfold insertOutbox at h
  split at h
  · rename_i hpresent
    cases h
    obtain ⟨row, hrow, hid⟩ := List.any_eq_true.mp hpresent
    exact .inl ⟨rfl, row, hrow, of_decide_eq_true hid⟩
  · rename_i habsent
    split at h
    · cases h
    · rename_i hfresh
      cases h
      rw [Bool.not_eq_true, List.any_eq_false] at habsent hfresh
      exact .inr ⟨rfl, fun row hrow => by simpa using habsent row hrow,
        fun row hrow => by simpa using hfresh row hrow⟩

theorem terminalCommit_spec {run : JobRun} {event : TransientTerminalEvent}
    (h : (s.updateTerminalRun run).bind (·.insertOutbox event) = .ok t) :
    ∃ u, s.updateTerminalRun run = .ok u ∧ s.AsideKept u ∧ u.insertOutbox event = .ok t := by
  cases hu : s.updateTerminalRun run with
  | error e =>
    rw [hu] at h
    cases h
  | ok u =>
    rw [hu] at h
    obtain ⟨old, -, -, -, rfl⟩ := updateTerminalRun_ok hu
    exact ⟨_, rfl, ⟨rfl, rfl, rfl⟩, h⟩

theorem enqueueTransientCleanup_signatures {ticket : CleanupTicket}
    (h : s.enqueueTransientCleanup ticket = .ok t) :
    t.dependencySignatures = s.dependencySignatures ∧ t.outbox = s.outbox := by
  unfold enqueueTransientCleanup at h
  split at h
  · cases h
    exact ⟨rfl, rfl⟩
  · split at h
    · cases h
    · cases h
      exact ⟨rfl, rfl⟩

end Store

namespace ScheduleState

variable {s t : ScheduleState}

end ScheduleState

end Supervisor
