import Supervisor.StoreRows
import Supervisor.TerminalSystem

namespace Supervisor

/-- The columns of a run row that no later write changes. -/
def JobRun.identity (run : JobRun) : JobRunId × String × JobId :=
  (run.runId, run.jobName, run.jobId)

/-- Whether the transaction leaves the definitions alone. -/
def StoreOp.keepsJobs : StoreOp → Bool
  | .saveJob _ | .deleteJob _ => false
  | .saveRun _ | .claimOccurrence .. | .finalizeAttempt .. | .commitTerminal .. | .commitCleanup ..
  | .pruneRuns .. | .claimDependency .. => true

namespace Store

/-- The same definitions, and the same run rows but for their state and outcome. -/
structure SameIdentities (s t : Store) : Prop where
  jobs : t.jobs = s.jobs
  runs : t.runs.map JobRun.identity = s.runs.map JobRun.identity

theorem SameIdentities.refl (s : Store) : s.SameIdentities s := ⟨rfl, rfl⟩

/-- A step of the run table: each row belongs to a job or was there before, and a
row that goes is handed to the log cleanup. -/
structure KeepsRows (s t : Store) : Prop where
  jobs : t.jobs = s.jobs
  parents : ∀ run ∈ t.runs, s.hasJob run.jobName run.jobId = true ∨
    ∃ old ∈ s.runs, old.identity = run.identity
  kept : ∀ old ∈ s.runs, (∃ run ∈ t.runs, run.identity = old.identity) ∨
    old.runId ∈ t.runLogCleanup

section KeepsRows

variable {s t u : Store} {run : JobRun}

theorem SameIdentities.keepsRows (h : s.SameIdentities t) : s.KeepsRows t where
  jobs := h.jobs
  parents run hrun := by
    have hmem : run.identity ∈ s.runs.map JobRun.identity := h.runs ▸ List.mem_map_of_mem hrun
    exact .inr (List.mem_map.mp hmem)
  kept old hold := by
    have hmem : old.identity ∈ t.runs.map JobRun.identity := h.runs ▸ List.mem_map_of_mem hold
    exact .inl (List.mem_map.mp hmem)

theorem KeepsRows.of_runs (hjobs : t.jobs = s.jobs) (hruns : t.runs = s.runs) : s.KeepsRows t :=
  SameIdentities.keepsRows ⟨hjobs, by rw [hruns]⟩

theorem KeepsRows.refl (s : Store) : s.KeepsRows s := .of_runs rfl rfl

theorem identities_update {runId : JobRunId} {f : JobRun → JobRun}
    (hf : ∀ row, (f row).identity = row.identity) :
    (KeyedRows.update JobRun.runId runId f s.runs).map JobRun.identity =
      s.runs.map JobRun.identity := by
  rw [KeyedRows.update, List.map_map]
  apply List.map_congr_left
  intro row _
  by_cases hid : row.runId = runId
  · simp [hid, hf]
  · simp [hid]

theorem KeepsRows.of_append (hjobs : t.jobs = s.jobs) (hruns : t.runs = s.runs ++ [run])
    (hparent : s.hasJob run.jobName run.jobId = true) : s.KeepsRows t where
  jobs := hjobs
  parents row hrow := by
    rw [hruns] at hrow
    rcases List.mem_append.mp hrow with hrow | hrow
    · exact .inr ⟨row, hrow, rfl⟩
    · rw [List.mem_singleton.mp hrow]
      exact .inl hparent
  kept old hold := by
    rw [hruns]
    exact .inl ⟨old, List.mem_append_left _ hold, rfl⟩

theorem saveRun_keepsRows (h : s.saveRun run = .ok t) : s.KeepsRows t := by
  obtain ⟨hjobs, -, hparent, ⟨old, -, -, -, hruns⟩ | ⟨-, hruns⟩⟩ := saveRun_ok h
  · refine SameIdentities.keepsRows ⟨hjobs, ?_⟩
    rw [hruns]
    exact identities_update fun _ => rfl
  · exact .of_append hjobs hruns hparent

theorem CommitsTerminal.keepsRows {old : JobRun} (h : CommitsTerminal s t run old) :
    s.KeepsRows t := by
  refine SameIdentities.keepsRows ⟨h.jobs, ?_⟩
  rw [h.runs]
  exact identities_update fun _ => rfl

/-- A row that pruning removes is handed to the log cleanup. -/
theorem pruneRuns_keepsRows (s : Store) (jobName : String) (maxRuns : Option ℕ)
    (olderThan : Option Instant) : s.KeepsRows (s.pruneRuns jobName maxRuns olderThan).2 := by
  unfold pruneRuns
  split
  · exact .refl s
  · constructor
    case jobs => rfl
    case parents => exact fun row hrow => .inr ⟨row, List.mem_of_mem_filter hrow, rfl⟩
    case kept =>
      intro old hold
      dsimp only
      generalize hremoved : List.map _ _ = removed
      by_cases hgone : old.runId ∈ removed
      · right
        by_cases hlisted : old.runId ∈ s.runLogCleanup
        · exact List.mem_append_left _ hlisted
        · exact List.mem_append_right _ (List.mem_filter.mpr ⟨hgone, by simpa using hlisted⟩)
      · exact .inl ⟨old, List.mem_filter.mpr ⟨hold, by simpa using hgone⟩, rfl⟩

theorem insertRun_keepsRows {signed : Store} (h : signed.insertRun run = .ok t)
    (hjobs : signed.jobs = s.jobs) (hruns : signed.runs = s.runs) : s.KeepsRows t := by
  obtain ⟨-, hparent, -, rfl⟩ := insertRun_ok h
  rw [hasJob_congr hjobs] at hparent
  exact .of_append hjobs (by rw [hruns]) hparent

theorem claimDependencyRun_keepsRows {jobName : String} {signature : List JobRunId}
    {claimed : Bool} (h : s.claimDependencyRun jobName signature run = .ok (claimed, t)) :
    s.KeepsRows t := by
  unfold claimDependencyRun at h
  split at h
  · cases h
    exact .refl s
  · dsimp only at h
    cases hinsert : Store.insertRun { s with
      dependencySignatures := (s.dependencySignatures.filter fun row => row.1 ≠ jobName) ++
        [(jobName, signature)] } run with
    | error e =>
      rw [hinsert] at h
      cases h
    | ok u =>
      rw [hinsert] at h
      cases h
      exact insertRun_keepsRows hinsert rfl rfl

theorem finalizeScheduleAttempt_keepsRows {job : Job} {now : Instant}
    {answer : ScheduleFinalization} (h : s.finalizeScheduleAttempt job run now = .ok (answer, t)) :
    s.KeepsRows t := by
  cases finalizeScheduleAttempt_ok h with
  | retry | final => exact .of_runs rfl rfl

theorem admitScheduleOccurrence_keepsRows {job : Job} {occurrence : ScheduleOccurrence}
    {now : Instant} {runId : JobRunId} {answer : ScheduleAdmission}
    (h : s.admitScheduleOccurrence job occurrence now runId = .ok (answer, t)) :
    s.KeepsRows t := by
  cases admitScheduleOccurrence_ok h with
  | settled | already | queued => exact .of_runs rfl rfl
  | skipped _ _ _ _ hinsert | started _ _ _ hinsert => exact insertRun_keepsRows hinsert rfl rfl

theorem KeepsRows.of_toOption {result : Except RepoError Store}
    (h : ∀ t, result = .ok t → s.KeepsRows t) : s.KeepsRows (result.toOption.getD s) := by
  cases result with
  | error e => exact .refl s
  | ok t => exact h t rfl

theorem KeepsRows.of_snd {α : Type} {result : Except RepoError (α × Store)}
    (h : ∀ a t, result = .ok (a, t) → s.KeepsRows t) :
    s.KeepsRows ((result.map Prod.snd).toOption.getD s) := by
  cases result with
  | error e => exact .refl s
  | ok r => exact h r.1 r.2 rfl

theorem apply_keepsRows {op : StoreOp} (h : op.keepsJobs = true) : s.KeepsRows (s.apply op) := by
  cases op with
  | saveJob | deleteJob => cases h
  | saveRun run => exact .of_toOption fun t ht => saveRun_keepsRows ht
  | claimOccurrence job occurrence now =>
    apply KeepsRows.of_snd
    intro durable t ht
    obtain ⟨hjobs, hruns, -⟩ := claimScheduleOccurrence_ok ht
    exact .of_runs hjobs hruns
  | finalizeAttempt job run now =>
    exact .of_snd fun answer t ht => finalizeScheduleAttempt_keepsRows ht
  | commitTerminal run event =>
    apply KeepsRows.of_toOption
    intro t ht
    obtain ⟨old, hcommit⟩ := commitTerminalRunWithEvent_ok ht
    exact hcommit.keepsRows
  | commitCleanup ticket run eventId =>
    apply KeepsRows.of_toOption
    intro t ht
    obtain ⟨old, hcommit⟩ := commitTransientCleanupTerminal_ok ht
    exact hcommit.keepsRows
  | pruneRuns jobName maxRuns olderThan => exact pruneRuns_keepsRows s jobName maxRuns olderThan
  | claimDependency jobName signature run =>
    exact .of_snd fun claimed t ht => claimDependencyRun_keepsRows ht

theorem cancelPendingRun_identities {jobName : String} {event : TransientTerminalEvent}
    (h : s.cancelPendingRun jobName event = .ok t) : s.SameIdentities t := by
  unfold cancelPendingRun at h
  split at h
  · cases h
  · split at h
    · cases h
    · obtain ⟨hjobs, hruns, -⟩ := insertOutbox_ok h
      refine ⟨hjobs, ?_⟩
      rw [hruns]
      exact identities_update fun _ => rfl

theorem cancelPendingRuns_identities {jobName : String} {events : List TransientTerminalEvent}
    (h : s.cancelPendingRuns jobName events = .ok t) : s.SameIdentities t := by
  induction events generalizing s with
  | nil =>
    cases h
    exact .refl _
  | cons event events ih =>
    rw [cancelPendingRuns, List.foldlM_cons] at h
    cases hfirst : s.cancelPendingRun jobName event with
    | error e =>
      rw [hfirst] at h
      cases h
    | ok u =>
      rw [hfirst] at h
      obtain ⟨hjobs, hids⟩ := cancelPendingRun_identities hfirst
      obtain ⟨hjobs', hids'⟩ := ih h
      exact ⟨hjobs'.trans hjobs, hids'.trans hids⟩

end KeepsRows

end Store

end Supervisor
