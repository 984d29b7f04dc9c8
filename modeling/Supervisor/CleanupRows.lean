import Supervisor.PrefixRuns
import Supervisor.RunReconciliation
import Supervisor.RunRows

namespace Supervisor

open KeyedRows (Unique)

namespace Store

/-- What one transaction does to the run rows and to the log cleanup queue. -/
inductive RunStep (s t : Store) : Prop
  | kept (jobs : ∀ name ∈ s.jobs.map Job.name, name ∈ t.jobs.map Job.name)
    (runs : t.runs.map JobRun.identity = s.runs.map JobRun.identity)
    (queue : t.runLogCleanup = s.runLogCleanup)
  | added (run : JobRun) (jobs : t.jobs = s.jobs) (new : s.findRun run.runId = none)
    (parent : s.hasJob run.jobName run.jobId = true) (runs : t.runs = s.runs ++ [run])
    (queue : t.runLogCleanup = s.runLogCleanup)
  | removed (keep : JobRun → Bool)
    (jobs : ∀ run ∈ s.runs, keep run = true → run.jobName ∈ s.jobs.map Job.name →
      run.jobName ∈ t.jobs.map Job.name)
    (runs : t.runs = s.runs.filter keep)
    (queue : ∀ runId ∈ t.runLogCleanup, runId ∈ s.runLogCleanup ∨
      ∃ run ∈ s.runs, run.runId = runId ∧ keep run = false)

/-- The run table under its primary key and its reference to the jobs. -/
structure RunsSound (s : Store) : Prop where
  runIds : Unique JobRun.runId s.runs
  parents : ∀ run ∈ s.runs, run.jobName ∈ s.jobs.map Job.name

section Effects

variable {s t : Store} {run : JobRun} {job : Job} {occurrence : ScheduleOccurrence} {now : Instant}

theorem RunStep.of_rows (hjobs : t.jobs = s.jobs) (hruns : t.runs = s.runs)
    (hqueue : t.runLogCleanup = s.runLogCleanup) : s.RunStep t :=
  .kept (fun name hname => hjobs ▸ hname) (by rw [hruns]) hqueue

theorem RunStep.refl (s : Store) : s.RunStep s := .of_rows rfl rfl rfl

theorem saveRun_queue (h : s.saveRun run = .ok t) : t.runLogCleanup = s.runLogCleanup := by
  unfold saveRun at h
  split at h
  · cases h
  · split at h
    · obtain ⟨-, -, -, rfl⟩ := insertRun_ok h
      rfl
    · split at h
      · cases h
      · split at h
        · cases h
        · cases h
          rfl

theorem saveRun_runStep (h : s.saveRun run = .ok t) : s.RunStep t := by
  have hqueue := saveRun_queue h
  obtain ⟨hjobs, -, hparent, ⟨old, -, -, -, hruns⟩ | ⟨hnew, hruns⟩⟩ := saveRun_ok h
  · refine .kept (fun name hname => hjobs ▸ hname) ?_ hqueue
    rw [hruns]
    exact identities_update fun _ => rfl
  · exact .added run hjobs hnew hparent hruns hqueue

theorem insertOutbox_queue {event : TransientTerminalEvent} (h : s.insertOutbox event = .ok t) :
    t.runLogCleanup = s.runLogCleanup := by
  unfold insertOutbox at h
  split at h
  · cases h
    rfl
  · split at h
    · cases h
    · cases h
      rfl

/-- A terminal commit rewrites the row of its run. -/
theorem updateTerminalRun_insertOutbox_runStep {event : TransientTerminalEvent}
    (h : (s.updateTerminalRun run).bind (·.insertOutbox event) = .ok t) : s.RunStep t := by
  cases hu : s.updateTerminalRun run with
  | error e =>
    rw [hu] at h
    cases h
  | ok u =>
    rw [hu] at h
    have hqueue := insertOutbox_queue h
    obtain ⟨hjobs, hruns, -, -⟩ := insertOutbox_ok h
    obtain ⟨old, -, -, -, rfl⟩ := updateTerminalRun_ok hu
    refine .kept (fun name hname => hjobs ▸ hname) ?_ hqueue
    rw [hruns]
    exact identities_update fun _ => rfl

theorem claimScheduleOccurrence_runStep {durable : DurableScheduleOccurrence}
    (h : s.claimScheduleOccurrence job occurrence now = .ok (durable, t)) : s.RunStep t := by
  have hcursor (u : Store) : (u.advanceCursor job.id occurrence).runLogCleanup =
      u.runLogCleanup := by
    simp only [advanceCursor]
    split
    · rfl
    · rfl
  obtain ⟨hjobs, hruns, -⟩ := claimScheduleOccurrence_ok h
  refine .of_rows hjobs hruns ?_
  unfold claimScheduleOccurrence at h
  split at h
  · cases h
    exact hcursor _
  · split at h
    · cases h
      exact hcursor _
    · cases h

theorem insertRun_runStep {u : Store} (h : u.insertRun run = .ok t) (hjobs : u.jobs = s.jobs)
    (hruns : u.runs = s.runs) (hqueue : u.runLogCleanup = s.runLogCleanup) : s.RunStep t := by
  obtain ⟨hnew, hparent, -, rfl⟩ := insertRun_ok h
  rw [hasJob_congr hjobs] at hparent
  rw [findRun, hruns] at hnew
  exact .added run hjobs hnew hparent (by rw [hruns]) hqueue

theorem admitScheduleOccurrence_runStep {runId : JobRunId} {answer : ScheduleAdmission}
    (h : s.admitScheduleOccurrence job occurrence now runId = .ok (answer, t)) :
    s.RunStep t := by
  cases admitScheduleOccurrence_ok h with
  | settled | already | queued => exact .of_rows rfl rfl rfl
  | skipped _ _ _ _ hinsert | started _ _ _ hinsert => exact insertRun_runStep hinsert rfl rfl rfl

theorem finalizeScheduleAttempt_runStep {answer : ScheduleFinalization}
    (h : s.finalizeScheduleAttempt job run now = .ok (answer, t)) : s.RunStep t := by
  cases finalizeScheduleAttempt_ok h with
  | retry | final => exact .of_rows rfl rfl rfl

theorem claimDependencyRun_runStep {jobName : String} {signature : List JobRunId} {claimed : Bool}
    (h : s.claimDependencyRun jobName signature run = .ok (claimed, t)) : s.RunStep t := by
  unfold claimDependencyRun at h
  split at h
  · cases h
    exact .refl s
  · dsimp only at h
    cases hinsert : Store.insertRun { s with
      dependencySignatures := (s.dependencySignatures.filter fun row => row.1 ≠ jobName) ++
        [(jobName, signature)] } run with
    | error e =>
      rw [hinsert] at h
      cases h
    | ok u =>
      rw [hinsert] at h
      cases h
      exact insertRun_runStep hinsert rfl rfl rfl

theorem saveJob_runStep (s : Store) (job : Job) : s.RunStep (s.saveJob job) := by
  unfold saveJob
  split
  · refine .kept (fun name hname => ?_) rfl rfl
    rw [List.map_append]
    exact List.mem_append_left _ hname
  · rename_i old hold
    have hnames : (KeyedRows.update Job.name job.name (fun _ => { job with id := old.id })
        s.jobs).map Job.name = s.jobs.map Job.name :=
      KeyedRows.map_key_update fun r hr => rfl
    exact .kept (fun name hname => hnames ▸ hname) rfl rfl

theorem deleteJob_runStep (s : Store) (name : String) : s.RunStep (s.deleteJob name) := by
  refine .removed (fun run => run.jobName ≠ name) (fun run _ hkeep hjob => ?_) rfl
    (fun runId hqueue => ?_)
  · obtain ⟨a, ha, hname⟩ := List.mem_map.mp hjob
    have hother : a.name ≠ name := by
      rw [hname]
      simpa using hkeep
    exact List.mem_map.mpr ⟨a, List.mem_filter.mpr ⟨ha, by simpa using hother⟩, hname⟩
  · rcases List.mem_append.mp hqueue with hold | hnew
    · exact .inl hold
    · obtain ⟨row, hrow, rfl⟩ := List.mem_map.mp (List.mem_of_mem_filter hnew)
      obtain ⟨hrow, hname⟩ := List.mem_filter.mp hrow
      have hname : row.jobName = name := by simpa using hname
      exact .inr ⟨row, hrow, rfl, by simp [hname]⟩

/-- Pruning answers with ids of rows, and removes the rows of these ids. -/
theorem pruneRuns_rows (s : Store) (jobName : String) (maxRuns : Option ℕ)
    (olderThan : Option Instant) :
    (s.pruneRuns jobName maxRuns olderThan).2.jobs = s.jobs ∧
      (s.pruneRuns jobName maxRuns olderThan).2.runs =
        s.runs.filter (fun run => run.runId ∉ (s.pruneRuns jobName maxRuns olderThan).1) ∧
      (∀ runId ∈ (s.pruneRuns jobName maxRuns olderThan).1, ∃ run ∈ s.runs, run.runId = runId) ∧
      ∀ runId ∈ (s.pruneRuns jobName maxRuns olderThan).2.runLogCleanup,
        runId ∈ s.runLogCleanup ∨ runId ∈ (s.pruneRuns jobName maxRuns olderThan).1 := by
  unfold pruneRuns
  split
  · refine ⟨rfl, ?_, fun runId hid => absurd hid List.not_mem_nil, fun runId hid => .inl hid⟩
    exact (List.filter_eq_self.mpr fun run _ => by simp).symm
  · refine ⟨rfl, rfl, fun runId hid => ?_, fun runId hid => ?_⟩
    · obtain ⟨⟨row, position⟩, hmem, rfl⟩ := List.mem_map.mp hid
      have hsorted := List.fst_mem_of_mem_zipIdx (List.mem_of_mem_filter hmem)
      rw [List.mem_insertionSort] at hsorted
      exact ⟨row, List.mem_of_mem_filter hsorted, rfl⟩
    · rcases List.mem_append.mp hid with hold | hnew
      · exact .inl hold
      · exact .inr (List.mem_of_mem_filter hnew)

theorem pruneRuns_runStep (s : Store) (jobName : String) (maxRuns : Option ℕ)
    (olderThan : Option Instant) : s.RunStep (s.pruneRuns jobName maxRuns olderThan).2 := by
  obtain ⟨hjobs, hruns, hids, hqueue⟩ := pruneRuns_rows s jobName maxRuns olderThan
  refine .removed _ (fun run _ _ hjob => hjobs ▸ hjob) hruns (fun runId hid => ?_)
  rcases hqueue runId hid with hold | hremoved
  · exact .inl hold
  · obtain ⟨run, hrun, rfl⟩ := hids runId hremoved
    exact .inr ⟨run, hrun, rfl, by simpa using hremoved⟩

theorem RunStep.of_toOption {result : Except RepoError Store}
    (h : ∀ t, result = .ok t → s.RunStep t) : s.RunStep (result.toOption.getD s) := by
  cases result with
  | error e => exact .refl s
  | ok t => exact h t rfl

theorem RunStep.of_snd {α : Type} {result : Except RepoError (α × Store)}
    (h : ∀ a t, result = .ok (a, t) → s.RunStep t) :
    s.RunStep ((result.map Prod.snd).toOption.getD s) := by
  cases result with
  | error e => exact .refl s
  | ok r => exact h r.1 r.2 rfl

theorem apply_runStep (s : Store) (op : StoreOp) : s.RunStep (s.apply op) := by
  cases op with
  | saveJob job => exact saveJob_runStep s job
  | deleteJob name => exact deleteJob_runStep s name
  | saveRun run => exact .of_toOption fun t ht => saveRun_runStep ht
  | claimOccurrence job occurrence now =>
    exact .of_snd fun durable t ht => claimScheduleOccurrence_runStep ht
  | finalizeAttempt job run now =>
    exact .of_snd fun answer t ht => finalizeScheduleAttempt_runStep ht
  | commitTerminal run event =>
    exact .of_toOption fun t ht => updateTerminalRun_insertOutbox_runStep ht
  | commitCleanup ticket run eventId =>
    exact .of_toOption fun t ht => updateTerminalRun_insertOutbox_runStep ht
  | pruneRuns jobName maxRuns olderThan => exact pruneRuns_runStep s jobName maxRuns olderThan
  | claimDependency jobName signature run =>
    exact .of_snd fun claimed t ht => claimDependencyRun_runStep ht

end Effects

section Consequences

variable {s t : Store} {run old : JobRun} {runId : JobRunId}

theorem findRun_eq_none : s.findRun runId = none ↔ ∀ run ∈ s.runs, run.runId ≠ runId :=
  KeyedRows.find_eq_none

theorem mem_of_identities (h : t.runs.map JobRun.identity = s.runs.map JobRun.identity)
    (hrun : run ∈ t.runs) : ∃ old ∈ s.runs, old.identity = run.identity := by
  have hmem : run.identity ∈ s.runs.map JobRun.identity := h ▸ List.mem_map_of_mem hrun
  exact List.mem_map.mp hmem

theorem RunStep.runIds (h : s.RunStep t) (hs : s.RunsSound) : Unique JobRun.runId t.runs := by
  cases h with
  | kept _ hruns _ =>
    have hfst : ∀ rows : List JobRun, rows.map JobRun.runId =
        (rows.map JobRun.identity).map Prod.fst := by
      intro rows
      rw [List.map_map]
      rfl
    show (t.runs.map JobRun.runId).Nodup
    rw [hfst, hruns, ← hfst]
    exact hs.runIds
  | added run _ hnew _ hruns _ =>
    rw [hruns]
    exact hs.runIds.append (findRun_eq_none.mp hnew)
  | removed keep _ hruns _ =>
    rw [hruns]
    exact hs.runIds.filter keep

theorem RunStep.sound (h : s.RunStep t) (hs : s.RunsSound) : t.RunsSound where
  runIds := h.runIds hs
  parents run hrun := by
    cases h with
    | kept hjobs hruns _ =>
      obtain ⟨old, hold, hid⟩ := mem_of_identities hruns hrun
      have hname : old.jobName = run.jobName := congrArg (fun p => p.2.1) hid
      rw [← hname]
      exact hjobs _ (hs.parents old hold)
    | added new hjobs _ hparent hruns _ =>
      rw [hjobs]
      rw [hruns] at hrun
      rcases List.mem_append.mp hrun with hold | hnew
      · exact hs.parents run hold
      · obtain ⟨a, ha, hname, -⟩ := hasJob_iff.mp hparent
        rw [List.mem_singleton.mp hnew]
        exact List.mem_map.mpr ⟨a, ha, hname⟩
    | removed keep hjobs hruns _ =>
      rw [hruns] at hrun
      obtain ⟨hrun, hkeep⟩ := List.mem_filter.mp hrun
      exact hjobs run hrun hkeep (hs.parents run hrun)

/-- A run keeps its job. -/
theorem RunStep.jobName (h : s.RunStep t) (hs : s.RunsSound) (hrun : run ∈ t.runs)
    (hold : old ∈ s.runs) (hid : old.runId = run.runId) : old.jobName = run.jobName := by
  cases h with
  | kept _ hruns _ =>
    obtain ⟨row, hrow, hidentity⟩ := mem_of_identities hruns hrun
    have hrowId : row.runId = run.runId := congrArg Prod.fst hidentity
    rw [hs.runIds.eq_of_key hold hrow (hid.trans hrowId.symm)]
    exact congrArg (fun p => p.2.1) hidentity
  | added new _ hnew _ hruns _ =>
    rw [hruns] at hrun
    rcases List.mem_append.mp hrun with hrow | hrow
    · rw [hs.runIds.eq_of_key hold hrow hid]
    · rw [List.mem_singleton.mp hrow] at hid
      exact absurd hid (findRun_eq_none.mp hnew old hold)
  | removed keep _ hruns _ =>
    rw [hruns] at hrun
    rw [hs.runIds.eq_of_key hold (List.mem_of_mem_filter hrun) hid]

theorem RunStep.queue (h : s.RunStep t) (hs : s.RunsSound) (hqueue : runId ∈ t.runLogCleanup) :
    runId ∈ s.runLogCleanup ∨ (∃ run ∈ s.runs, run.runId = runId) ∧ t.findRun runId = none := by
  cases h with
  | kept _ _ hsame | added _ _ _ _ _ hsame => exact .inl (hsame ▸ hqueue)
  | removed keep _ hruns hnew =>
    rcases hnew runId hqueue with hold | ⟨run, hrun, rfl, hgone⟩
    · exact .inl hold
    · refine .inr ⟨⟨run, hrun, rfl⟩, findRun_eq_none.mpr fun row hrow hid => ?_⟩
      rw [hruns] at hrow
      obtain ⟨hrow, hkeep⟩ := List.mem_filter.mp hrow
      rw [hs.runIds.eq_of_key hrow hrun hid, hgone] at hkeep
      cases hkeep

end Consequences

end Store

end Supervisor
