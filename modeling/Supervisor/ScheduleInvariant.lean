import Supervisor.LedgerTables

namespace Supervisor

namespace ScheduleState

/-- The state after an answered admission. -/
def admitted (s : ScheduleState) (job : Job) (runId : JobRunId) (store : Store) :
    ScheduleAdmission → ScheduleState
  | .start durable =>
    { s with store, drawn := insert runId s.drawn }.setRunner runId
      (some ⟨job, runnerRun job durable.occurrence runId, .starting⟩)
  | _ => { s with store, drawn := insert runId s.drawn }

theorem admitDurable_cases (s : ScheduleState) (durable : DurableScheduleOccurrence)
    (now : Instant) (runId : JobRunId) :
    (∃ job answer store, s.store.getJob durable.jobName = some job ∧ job.id = durable.jobId ∧
        s.store.admitScheduleOccurrence job durable.occurrence now runId = .ok (answer, store) ∧
        s.admitDurable durable now runId = s.admitted job runId store answer) ∨
      (∀ job, s.store.getJob durable.jobName = some job → job.id = durable.jobId →
        ∃ e, s.store.admitScheduleOccurrence job durable.occurrence now runId = .error e) ∧
        s.admitDurable durable now runId = { s with drawn := insert runId s.drawn } := by
  unfold admitDurable
  split
  · rename_i hnone
    refine .inr ⟨fun job hjob => ?_, rfl⟩
    rw [hnone] at hjob
    cases hjob
  · rename_i job hjob
    split
    · rename_i hid
      refine .inr ⟨fun job' hjob' hid' => ?_, rfl⟩
      rw [hjob, Option.some.injEq] at hjob'
      exact absurd (hjob' ▸ hid') hid
    · rename_i hid
      split
      · rename_i e herror
        refine .inr ⟨fun job' hjob' _ => ?_, rfl⟩
        rw [hjob, Option.some.injEq] at hjob'
        exact ⟨e, hjob' ▸ herror⟩
      · rename_i answer store hok
        exact .inl ⟨job, .start answer, store, hjob, not_not.mp hid, hok, rfl⟩
      · rename_i answer store hstart hok
        refine .inl ⟨job, answer, store, hjob, not_not.mp hid, hok, ?_⟩
        cases answer with
        | start durable => exact absurd rfl (hstart durable)
        | queued durable => rfl
        | finalized durable => rfl

end ScheduleState

open ScheduleState in
/-- What an event does, one constructor for each outcome it can have. -/
inductive ScheduleState.Stepped (s : ScheduleState) : ScheduleEvent → ScheduleState → Prop
  | jobReplaced {job old} (hold : s.store.getJob job.name = some old) :
    Stepped s (.saveJob job) { s with store := s.store.saveJob job }
  | jobAdded {job} (hnone : s.store.getJob job.name = none) (hfresh : job.id ∉ s.jobIds) :
    Stepped s (.saveJob job)
      { s with store := s.store.saveJob job, jobIds := insert job.id s.jobIds }
  | jobDeleted {name} : Stepped s (.deleteJob name) { s with store := s.store.deleteJob name }
  | claimed {job occurrence now durable store} (hfirst : occurrence.attempt = 1)
    (h : s.store.claimScheduleOccurrence job occurrence now = .ok (durable, store)) :
    Stepped s (.claim job occurrence now) { s with store }
  | passStarted {now} (hbooted : s.booting = false) :
    Stepped s (.startPass now)
      { s with passes := s.passes ++ [⟨now, s.store.listDueScheduleOccurrences now 128⟩] }
  | admitted {pass now item rest runId job answer store}
    (hpass : s.passes[pass]? = some ⟨now, item :: rest⟩) (hfresh : runId ∉ s.drawn)
    (hjob : s.store.getJob item.jobName = some job) (hid : job.id = item.jobId)
    (h : Store.AdmissionStep s.store job item.occurrence now runId answer store) :
    Stepped s (.admitNext pass runId)
      ((s.admitted job runId store answer).setPass pass ⟨now, rest⟩)
  | unanswered {pass now item rest runId} (hpass : s.passes[pass]? = some ⟨now, item :: rest⟩)
    (hfresh : runId ∉ s.drawn) (hfail : ∀ job, s.store.getJob item.jobName = some job → job.id = item.jobId →
      ∃ e, s.store.admitScheduleOccurrence job item.occurrence now runId = .error e) :
    Stepped s (.admitNext pass runId)
      ({ s with drawn := insert runId s.drawn }.setPass pass ⟨now, rest⟩)
  | passedOver {pass now item rest} (hpass : s.passes[pass]? = some ⟨now, item :: rest⟩) :
    Stepped s (.passOver pass) (s.setPass pass ⟨now, rest⟩)
  | runnerRunning {runId job run store} (htask : s.runners runId = some ⟨job, run, .starting⟩)
    (h : s.store.saveRun run = .ok store ∨ store = s.store) :
    Stepped s (.saveRunning runId)
      { s.setRunner runId (some ⟨job, run, .running⟩) with store }
  | runnerEnded {runId state outcome job run run'}
    (htask : s.runners runId = some ⟨job, run, .running⟩) (hterminal : state.isTerminal = true)
    (hrun : run' = { run with
      state
      startedAt := some outcome.startedAt
      endedAt := some outcome.endedAt
      exitCode := outcome.exitCode }) :
    Stepped s (.endRun runId state outcome) (s.setRunner runId (some ⟨job, run', .ended⟩))
  | runnerCommitted {runId event job run old store}
    (htask : s.runners runId = some ⟨job, run, .ended⟩)
    (h : Store.CommitsTerminal s.store store run old) :
    Stepped s (.commitTerminal runId event)
      ({ s with store }.setRunner runId (some ⟨job, run, .committed⟩))
  | attemptFinalized {runId now job run answer store}
    (htask : s.runners runId = some ⟨job, run, .committed⟩)
    (h : Store.FinalizationStep s.store job run now answer store) :
    Stepped s (.finalizeAttempt runId now) ({ s with store }.setRunner runId none)
  | attemptUnsettled {runId now job run e}
    (htask : s.runners runId = some ⟨job, run, .committed⟩)
    (h : s.store.finalizeScheduleAttempt job run now = .error e) :
    Stepped s (.finalizeAttempt runId now) (s.setRunner runId none)
  | finalizeFailed {runId job run} (htask : s.runners runId = some ⟨job, run, .committed⟩) :
    Stepped s (.finalizeFailed runId) (s.setRunner runId none)
  | runnerGone {e runId store} (htask : ∀ task, s.runners runId = some task → task.point ≠ .committed)
    (hjobs : store.jobs = s.store.jobs) (hruns : store.runs = s.store.runs)
    (hoccs : store.occurrences = s.store.occurrences) :
    Stepped s e ({ s with store }.setRunner runId none)
  | cleanupFinished {cleanupId eventId ticket row}
    (hticket : KeyedRows.find CleanupTicket.cleanupId cleanupId s.store.cleanups = some ticket)
    (hid : row.runId = ticket.runId)
    (h : Store.CommitsTerminal s.store (s.store.finishTransientCleanup ticket eventId)
      (ticket.terminalRun row) row) :
    Stepped s (.finishCleanup cleanupId eventId)
      { s with store := s.store.finishTransientCleanup ticket eventId }
  | runsPruned {jobName maxRuns olderThan} :
    Stepped s (.pruneRuns jobName maxRuns olderThan)
      { s with store := (s.store.pruneRuns jobName maxRuns olderThan).2 }
  | otherSaved {run store} (hplain : run.occurrence = none)
    (hrow : ∀ row, s.store.findRun run.runId = some row → row.occurrence = none)
    (hrunner : s.runners run.runId = none)
    (hledger : ∀ d ∈ s.store.occurrences, d.runId ≠ some run.runId)
    (h : s.store.saveRun run = .ok store) :
    Stepped s (.saveOther run) { s with store, drawn := insert run.runId s.drawn }
  | otherCommitted {run event old store} (hplain : run.occurrence = none)
    (hrow : old.occurrence = none) (hrunner : s.runners run.runId = none)
    (hledger : ∀ d ∈ s.store.occurrences, d.runId ≠ some run.runId)
    (h : Store.CommitsTerminal s.store store run old) :
    Stepped s (.commitOther run event) { s with store }
  | crashed : Stepped s .crash
      { s with passes := [], runners := fun _ => none, booting := true }
  | recovered {now} (hbooting : s.booting = true) : Stepped s (.recover now)
      { s with store := s.store.recoverScheduleOccurrences now, booting := false }
  /-- The tables the ledger rests on stay as they are. -/
  | aside {e store} (hjobs : store.jobs = s.store.jobs) (hruns : store.runs = s.store.runs)
    (hoccs : store.occurrences = s.store.occurrences) : Stepped s e { s with store }

namespace ScheduleState

variable {s t : ScheduleState}

theorem stepped_unchanged (e : ScheduleEvent) : s.Stepped e s := .aside rfl rfl rfl

theorem stepped_gone (e : ScheduleEvent) {runId : JobRunId} {task : RunnerTask}
    (htask : s.runners runId = some task) (hpoint : task.point ≠ .committed) :
    s.Stepped e (s.setRunner runId none) := by
  have hnone (task' : RunnerTask) (htask' : s.runners runId = some task') :
      task'.point ≠ .committed := by
    rw [htask, Option.some.injEq] at htask'
    exact htask' ▸ hpoint
  have hgone : s.Stepped e ({ s with store := s.store }.setRunner runId none) :=
    .runnerGone hnone rfl rfl rfl
  exact hgone

theorem enqueueTransientCleanup_ok {s t : Store} {ticket : CleanupTicket}
    (h : s.enqueueTransientCleanup ticket = .ok t) :
    t.jobs = s.jobs ∧ t.runs = s.runs ∧ t.occurrences = s.occurrences := by
  unfold Store.enqueueTransientCleanup at h
  split at h
  · cases h
    exact ⟨rfl, rfl, rfl⟩
  · split at h
    · cases h
    · cases h
      exact ⟨rfl, rfl, rfl⟩

theorem acknowledgeTransientTerminalEvent_rows (s : Store) (eventId cleanupId : Uuid) :
    (s.acknowledgeTransientTerminalEvent eventId cleanupId).jobs = s.jobs ∧
      (s.acknowledgeTransientTerminalEvent eventId cleanupId).runs = s.runs ∧
      (s.acknowledgeTransientTerminalEvent eventId cleanupId).occurrences = s.occurrences := by
  unfold Store.acknowledgeTransientTerminalEvent
  split <;> exact ⟨rfl, rfl, rfl⟩

theorem isScheduled_eq_false {run : JobRun} (h : ¬s.isScheduled run = true) :
    run.occurrence = none ∧ (∀ row, s.store.findRun run.runId = some row → row.occurrence = none) ∧
      s.runners run.runId = none ∧ ∀ d ∈ s.store.occurrences, d.runId ≠ some run.runId := by
  simp only [isScheduled, Bool.or_eq_true, not_or, Bool.not_eq_true, Option.isSome_eq_false_iff,
    Option.isNone_iff_eq_none] at h
  obtain ⟨⟨⟨hocc, hrow⟩, hrunner⟩, hledger⟩ := h
  refine ⟨hocc, fun row hfound => ?_, hrunner, fun d hd => ?_⟩
  · rw [hfound] at hrow
    simpa using hrow
  · simpa using List.any_eq_false.mp hledger d hd

theorem stepped {e : ScheduleEvent} (h : scheduleSystem.step s e = some t) : s.Stepped e t := by
  simp only [scheduleSystem, step] at h
  split at h
  · -- saveJob
    unfold ScheduleState.saveJob at h
    split at h
    · cases h
      exact .jobReplaced ‹_›
    · split at h
      · cases h
      · cases h
        exact .jobAdded ‹_› ‹_›
  · cases h
    exact .jobDeleted
  · -- claim
    split at h
    · cases h
    · rename_i hfirst
      split at h
      · cases h
        exact stepped_unchanged _
      · cases h
        exact .claimed (not_not.mp hfirst) ‹_›
  · -- startPass
    split at h
    · cases h
    · rename_i hready
      cases h
      exact .passStarted (by simpa using hready)
  · -- admitNext
    split at h
    · rename_i runId _ now item rest hpass
      split at h
      · cases h
      · rename_i hfresh
        cases h
        rcases admitDurable_cases s item now runId with
          ⟨job, answer, store, hjob, hid, hok, heq⟩ | ⟨hfail, heq⟩
        · rw [heq]
          exact .admitted hpass hfresh hjob hid (Store.admitScheduleOccurrence_ok hok)
        · rw [heq]
          exact .unanswered hpass hfresh hfail
    · cases h
  · -- passOver
    split at h
    · cases h
      exact .passedOver ‹_›
    · cases h
  · -- saveRunning
    split at h
    · split at h
      · cases h
        exact .runnerRunning ‹_› (.inr rfl)
      · cases h
        exact .runnerRunning ‹_› (.inl ‹_›)
    · cases h
  · -- endRun
    split at h
    · split at h
      · rename_i hterminal
        cases h
        exact .runnerEnded ‹_› (by simp_all) rfl
      · cases h
    · cases h
  · -- commitTerminal
    split at h
    · split at h
      · cases h
        exact stepped_gone _ ‹_› (by simp)
      · cases h
      · rename_i hcommit
        cases h
        obtain ⟨old, hold⟩ := Store.commitTerminalRunWithEvent_ok hcommit
        exact .runnerCommitted ‹_› hold
    · cases h
  · -- finalizeAttempt
    split at h
    · split at h
      · cases h
        exact .attemptUnsettled ‹_› ‹_›
      · cases h
        exact .attemptFinalized ‹_› (Store.finalizeScheduleAttempt_ok ‹_›)
    · cases h
  · -- finalizeFailed
    split at h
    · cases h
      exact .finalizeFailed ‹_›
    · cases h
  · -- enqueueCleanup
    split at h
    · rename_i task htask
      split at h
      · rename_i henqueues
        split at h
        · cases h
        · rename_i hok
          cases h
          obtain ⟨hjobs, hruns, hoccs⟩ := enqueueTransientCleanup_ok hok
          refine .runnerGone (fun task' htask' hpoint => ?_) hjobs hruns hoccs
          rw [htask, Option.some.injEq] at htask'
          subst htask'
          simp [RunnerTask.enqueues, hpoint] at henqueues
      · cases h
    · split at h
      · split at h
        · cases h
        · rename_i hok
          cases h
          obtain ⟨hjobs, hruns, hoccs⟩ := enqueueTransientCleanup_ok hok
          exact .aside hjobs hruns hoccs
      · cases h
  · -- abandonRun
    split at h
    · cases h
      exact stepped_gone _ ‹_› (by simp)
    · cases h
      exact stepped_gone _ ‹_› (by simp)
    · cases h
      exact stepped_gone _ ‹_› (by simp)
    · cases h
  · -- finishCleanup
    split at h
    · rename_i ticket hticket
      cases h
      obtain ⟨hjobs, hoccs, hruns | ⟨row, hid, hcommit⟩⟩ :=
        Store.finishTransientCleanup_spec (s := s.store) ticket ‹_›
      · exact .aside hjobs hruns hoccs
      · exact .cleanupFinished hticket hid hcommit
    · cases h
  · rename_i eventId cleanupId
    cases h
    obtain ⟨hjobs, hruns, hoccs⟩ :=
      acknowledgeTransientTerminalEvent_rows s.store eventId cleanupId
    exact .aside hjobs hruns hoccs
  · cases h
    exact .runsPruned
  · -- saveOther
    split at h
    · cases h
    · rename_i hplain
      obtain ⟨hocc, hrow, hrunner, hledger⟩ := isScheduled_eq_false hplain
      split at h
      · cases h
        exact stepped_unchanged _
      · cases h
        exact .otherSaved hocc hrow hrunner hledger ‹_›
  · -- commitOther
    split at h
    · cases h
    · rename_i hplain
      obtain ⟨hocc, hrow, hrunner, hledger⟩ := isScheduled_eq_false hplain
      split at h
      · cases h
        exact stepped_unchanged _
      · rename_i hcommit
        cases h
        obtain ⟨old, hold⟩ := Store.commitTerminalRunWithEvent_ok hcommit
        exact .otherCommitted hocc (hrow old hold.found) hrunner hledger hold
  · cases h
    exact .crashed
  · split at h
    · cases h
      exact .recovered ‹_›
    · cases h

/-- A runner holds the occurrence it was admitted for, as long as the job is stored. -/
structure RunnerSound (s : ScheduleState) (r : JobRunId) (task : RunnerTask) : Prop where
  drawn : r ∈ s.drawn
  runId : task.run.runId = r
  jobName : task.run.jobName = task.job.name
  jobId : task.run.jobId = task.job.id
  jobDrawn : task.job.id ∈ s.jobIds
  ended : task.point = .ended ∨ task.point = .committed → task.run.state.isTerminal = true
  saved : task.point = .starting ∨ task.point = .running → task.run.state = .running
  occurrence : ∃ o, task.run.occurrence = some o ∧
    (∀ row ∈ s.store.runs, row.runId = r →
      row.jobId = task.job.id ∧ (∃ o', row.occurrence = some o' ∧
        o'.key task.job.id = o.key task.job.id) ∧
      (task.point = .committed → row.state = task.run.state)) ∧
    ∀ name, s.store.hasJob name task.job.id = true → name = task.job.name ∧
      ∃ d ∈ s.store.occurrences, d.key = o.key task.job.id ∧
        o.attempt ≤ d.occurrence.attempt ∧ d.state = .running ∧ d.runId = some r

/-- What a pass has listed is still in the ledger, as long as the job is stored. -/
def PassSound (s : ScheduleState) (pass : AdmissionPass) : Prop :=
  ∀ item ∈ pass.remaining, item.jobId ∈ s.jobIds ∧
    ∀ name, s.store.hasJob name item.jobId = true → name = item.jobName ∧
      ∃ d ∈ s.store.occurrences, d.key = item.key ∧
        item.occurrence.attempt ≤ d.occurrence.attempt

structure Sound (s : ScheduleState) : Prop where
  store : s.store.Sound s.drawn s.jobIds
  runners : ∀ runId task, s.runners runId = some task → s.RunnerSound runId task
  passes : ∀ pass ∈ s.passes, s.PassSound pass
  owners : ∀ d ∈ s.store.occurrences, ∀ d' ∈ s.store.occurrences, ∀ r,
    d.runId = some r → d'.runId = some r → d = d'
  idle : s.booting = true → s.passes = [] ∧ ∀ r, s.runners r = none

/-- The occurrence a runner holds while its job is stored. -/
theorem RunnerSound.owned (hs : s.Sound) {r : JobRunId} {task : RunnerTask}
    (h : s.RunnerSound r task) {name : String} (hjob : s.store.hasJob name task.job.id = true) :
    ∃ o d, task.run.occurrence = some o ∧
      s.store.findOccurrence (o.key task.job.id) = some d ∧ d.state = .running ∧
        d.runId = some r ∧ ∀ row ∈ s.store.runs, row.runId = r →
          row.jobId = task.job.id ∧
            ∃ o', row.occurrence = some o' ∧ o'.key task.job.id = d.key := by
  obtain ⟨o, ho, hrow, hocc⟩ := h.occurrence
  obtain ⟨-, d, hd, hkey, -, hrunning, hrunId⟩ := hocc name hjob
  refine ⟨o, d, ho, ?_, hrunning, hrunId, fun row hmem hid => ?_⟩
  · rw [← hkey]
    exact hs.store.occurrenceKeys.find_of_mem hd
  · obtain ⟨hrowJob, ⟨o', ho', hokey⟩, -⟩ := hrow row hmem hid
    exact ⟨hrowJob, o', ho', hokey.trans hkey.symm⟩

/-- From `s` to `t` no id is forgotten, and the occurrences of the jobs that
stay neither disappear nor fall back to an earlier attempt. -/
structure Follows (s t : ScheduleState) : Prop where
  drawn : s.drawn ⊆ t.drawn
  jobIds : s.jobIds ⊆ t.jobIds
  hasJob : ∀ name id, id ∈ s.jobIds → t.store.hasJob name id = true → s.store.hasJob name id = true
  occurrences : ∀ d ∈ s.store.occurrences, t.store.hasJob d.jobName d.jobId = true →
    ∃ d' ∈ t.store.occurrences, d'.key = d.key ∧ d.occurrence.attempt ≤ d'.occurrence.attempt

theorem Follows.of_eq (hdrawn : s.drawn ⊆ t.drawn) (hjobIds : t.jobIds = s.jobIds)
    (hjobs : t.store.jobs = s.store.jobs) (hoccs : t.store.occurrences = s.store.occurrences) :
    s.Follows t where
  drawn := hdrawn
  jobIds := hjobIds.symm.subset
  hasJob name id _ h := by rwa [Store.hasJob_congr hjobs] at h
  occurrences d hd _ := ⟨d, hoccs ▸ hd, rfl, le_rfl⟩

theorem PassSound.follows (hs : s.Sound) {pass pass' : AdmissionPass} (h : s.PassSound pass)
    (hsub : pass'.remaining ⊆ pass.remaining) (hfollows : s.Follows t) : t.PassSound pass' := by
  intro item hitem
  obtain ⟨hjob, hrow⟩ := h item (hsub hitem)
  refine ⟨hfollows.jobIds hjob, fun name hname => ?_⟩
  obtain ⟨rfl, d, hd, hkey, hle⟩ := hrow name (hfollows.hasJob name _ hjob hname)
  have hid : d.jobId = item.jobId := congrArg OccurrenceKey.jobId hkey
  have hdjob := hs.store.occurrenceJob d hd
  rw [hid] at hdjob
  have hdname := hs.store.hasJob_jobName hdjob (hfollows.hasJob _ _ hjob hname)
  obtain ⟨d', hd', hkey', hle'⟩ :=
    hfollows.occurrences d hd (by rw [hid, hdname]; exact hname)
  exact ⟨rfl, d', hd', hkey'.trans hkey, hle.trans hle'⟩

/-- The row of a run, if it is still there, keeps its identity and a terminal state. -/
def RowKept (s t : ScheduleState) (r : JobRunId) : Prop :=
  ∀ row ∈ t.store.runs, row.runId = r → ∃ old ∈ s.store.runs, old.runId = r ∧
    row.jobId = old.jobId ∧ row.occurrence = old.occurrence ∧
      (old.state.isTerminal = true → row.state = old.state)

theorem RowKept.of_subset {r : JobRunId}
    (h : ∀ row ∈ t.store.runs, row.runId = r → row ∈ s.store.runs) : s.RowKept t r :=
  fun row hrow hid => ⟨row, h row hrow hid, hid, rfl, rfl, fun _ => rfl⟩

/-- The occurrence that runs under an id stays as it is while its job is stored. -/
def OwnedKept (s t : ScheduleState) (r : JobRunId) : Prop :=
  ∀ d ∈ s.store.occurrences, d.state = .running → d.runId = some r →
    t.store.hasJob d.jobName d.jobId = true → d ∈ t.store.occurrences

/-- A runner that the step leaves alone stays sound. -/
theorem RunnerSound.follows (hs : s.Sound) {r : JobRunId} {task : RunnerTask}
    (h : s.RunnerSound r task) (hfollows : s.Follows t) (hrows : s.RowKept t r)
    (hkept : s.OwnedKept t r) : t.RunnerSound r task := by
  obtain ⟨o, ho, hrow, hocc⟩ := h.occurrence
  refine ⟨hfollows.drawn h.drawn, h.runId, h.jobName, h.jobId, hfollows.jobIds h.jobDrawn,
    h.ended, h.saved, o, ho, fun row hmem hid => ?_, fun name hname => ?_⟩
  · obtain ⟨old, hold, holdId, hjob, hoccurrence, hstate⟩ := hrows row hmem hid
    obtain ⟨holdJob, ⟨o', ho', hkey⟩, hterminal⟩ := hrow old hold holdId
    refine ⟨hjob.trans holdJob, ⟨o', hoccurrence.trans ho', hkey⟩, fun hpoint => ?_⟩
    have hsame := hterminal hpoint
    have hended := h.ended (.inr hpoint)
    rw [← hsame] at hended
    exact (hstate hended).trans hsame
  · obtain ⟨rfl, d, hd, hkey, hle, hrunning, hrunId⟩ :=
      hocc name (hfollows.hasJob name _ h.jobDrawn hname)
    have hid : d.jobId = task.job.id := congrArg OccurrenceKey.jobId hkey
    have hdjob := hs.store.occurrenceJob d hd
    rw [hid] at hdjob
    have hdname := hs.store.hasJob_jobName hdjob (hfollows.hasJob _ _ h.jobDrawn hname)
    have hd' := hkept d hd hrunning hrunId (by rw [hid, hdname]; exact hname)
    exact ⟨rfl, d, hd', hkey, hle, hrunning, hrunId⟩

/-- The runner's step from one point to the next. -/
theorem RunnerSound.moves {r : JobRunId} {task task' : RunnerTask} (h : s.RunnerSound r task)
    (hjob : task'.job = task.job) (hrunId : task'.run.runId = task.run.runId)
    (hname : task'.run.jobName = task.run.jobName) (hjobId : task'.run.jobId = task.run.jobId)
    (hocc : task'.run.occurrence = task.run.occurrence)
    (hended : task'.point = .ended ∨ task'.point = .committed → task'.run.state.isTerminal = true)
    (hsaved : task'.point = .starting ∨ task'.point = .running → task'.run.state = .running)
    (hrows : ∀ row ∈ s.store.runs, row.runId = r → task'.point = .committed →
      row.state = task'.run.state) : s.RunnerSound r task' := by
  obtain ⟨o, ho, hrow, hrest⟩ := h.occurrence
  refine ⟨h.drawn, hrunId.trans h.runId, ?_, ?_, hjob ▸ h.jobDrawn, hended, hsaved, o,
    hocc.trans ho, fun row hmem hid => ?_, ?_⟩
  · rw [hname, hjob]
    exact h.jobName
  · rw [hjobId, hjob]
    exact h.jobId
  · obtain ⟨hrowJob, hrowOcc, -⟩ := hrow row hmem hid
    rw [hjob]
    exact ⟨hrowJob, hrowOcc, hrows row hmem hid⟩
  · rw [hjob]
    exact hrest

/-- Events that start no runner and no pass. -/
theorem Sound.of_follows (hs : s.Sound) (hfollows : s.Follows t)
    (hstore : t.store.Sound t.drawn t.jobIds)
    (hrunners : ∀ r task, t.runners r = some task →
      s.runners r = some task ∧ s.RowKept t r ∧ s.OwnedKept t r)
    (hpasses : ∀ pass' ∈ t.passes, ∃ pass ∈ s.passes, pass'.remaining ⊆ pass.remaining)
    (howners : ∀ d ∈ t.store.occurrences, ∀ d' ∈ t.store.occurrences, ∀ r,
      d.runId = some r → d'.runId = some r → d = d')
    (hboot : t.booting = true → s.booting = true) : t.Sound where
  store := hstore
  runners r task htask := by
    obtain ⟨hold, hrows, hkept⟩ := hrunners r task htask
    exact (hs.runners r task hold).follows hs hfollows hrows hkept
  passes pass' hpass := by
    obtain ⟨pass, hold, hsub⟩ := hpasses pass' hpass
    exact (hs.passes pass hold).follows hs hsub hfollows
  owners := howners
  idle hbooting := by
    obtain ⟨hnone, hidle⟩ := hs.idle (hboot hbooting)
    constructor
    · rw [List.eq_nil_iff_forall_not_mem]
      intro pass' hpass'
      obtain ⟨pass, hold, -⟩ := hpasses pass' hpass'
      rw [hnone] at hold
      cases hold
    · intro r
      by_contra htask
      obtain ⟨task, htask'⟩ := Option.ne_none_iff_exists'.mp htask
      obtain ⟨hold, -⟩ := hrunners r task htask'
      rw [hidle r] at hold
      cases hold

theorem passes_self (pass : AdmissionPass) (h : pass ∈ s.passes) :
    ∃ old ∈ s.passes, pass.remaining ⊆ old.remaining :=
  ⟨pass, h, List.Subset.refl _⟩

/-- Only the jobs change, and the rows of the jobs that go. -/
theorem Sound.jobDeleted (hs : s.Sound) (name : String) :
    ScheduleState.Sound { s with store := s.store.deleteJob name } := by
  have hfollows : s.Follows { s with store := s.store.deleteJob name } := by
    refine ⟨Finset.Subset.refl _, Finset.Subset.refl _, fun n id _ h => ?_, fun d hd h => ?_⟩
    · exact (Store.hasJob_deleteJob.mp h).1
    · have hkept := (Store.hasJob_deleteJob.mp h).2
      exact ⟨d, List.mem_filter.mpr ⟨hd, by simpa using hkept⟩, rfl, le_rfl⟩
  refine hs.of_follows hfollows (hs.store.deleteJob name) (fun r task htask => ?_) passes_self
    (fun d hd d' hd' => ?_) id
  · refine ⟨htask, .of_subset fun row hrow _ => List.mem_of_mem_filter hrow,
      fun d hd _ _ h => List.mem_filter.mpr ⟨hd, ?_⟩⟩
    simpa using (Store.hasJob_deleteJob.mp h).2
  · exact hs.owners d (List.mem_of_mem_filter hd) d' (List.mem_of_mem_filter hd')

theorem Sound.jobReplaced (hs : s.Sound) {job old : Job}
    (hold : s.store.getJob job.name = some old) :
    ScheduleState.Sound { s with store := s.store.saveJob job } := by
  have hruns : (s.store.saveJob job).runs = s.store.runs := by rw [Store.saveJob, hold]
  have hoccs : (s.store.saveJob job).occurrences = s.store.occurrences := by
    rw [Store.saveJob, hold]
  have hjob := Store.hasJob_saveJob_of_some hs.store hold
  have hfollows : s.Follows { s with store := s.store.saveJob job } := by
    refine ⟨Finset.Subset.refl _, Finset.Subset.refl _, fun n id _ h => ?_, fun d hd _ => ?_⟩
    · rwa [hjob] at h
    · exact ⟨d, hoccs.symm ▸ hd, rfl, le_rfl⟩
  refine hs.of_follows hfollows (hs.store.saveJob_of_some hold) (fun r task htask => ?_)
    passes_self ?_ id
  · exact ⟨htask, .of_subset fun row hrow _ => hruns ▸ hrow, fun d hd _ _ _ => hoccs.symm ▸ hd⟩
  · rw [hoccs]
    exact hs.owners

theorem Sound.jobAdded (hs : s.Sound) {job : Job} (hnone : s.store.getJob job.name = none)
    (hfresh : job.id ∉ s.jobIds) :
    ScheduleState.Sound
      { s with store := s.store.saveJob job, jobIds := insert job.id s.jobIds } := by
  have hruns : (s.store.saveJob job).runs = s.store.runs := by rw [Store.saveJob, hnone]
  have hoccs : (s.store.saveJob job).occurrences = s.store.occurrences := by
    rw [Store.saveJob, hnone]
  have hfollows : s.Follows
      { s with store := s.store.saveJob job, jobIds := insert job.id s.jobIds } := by
    refine ⟨Finset.Subset.refl _, Finset.subset_insert _ _, fun n id hid h => ?_, fun d hd _ => ?_⟩
    · rcases (Store.hasJob_saveJob_of_none hnone n id).mp h with h | ⟨-, rfl⟩
      · exact h
      · exact absurd hid hfresh
    · exact ⟨d, hoccs.symm ▸ hd, rfl, le_rfl⟩
  refine hs.of_follows hfollows (hs.store.saveJob_of_none hnone hfresh) (fun r task htask => ?_)
    passes_self ?_ id
  · exact ⟨htask, .of_subset fun row hrow _ => hruns ▸ hrow, fun d hd _ _ _ => hoccs.symm ▸ hd⟩
  · rw [hoccs]
    exact hs.owners

theorem Sound.claimed (hs : s.Sound) {job : Job} {occurrence : ScheduleOccurrence} {now : Instant}
    {durable : DurableScheduleOccurrence} {store : Store}
    (h : s.store.claimScheduleOccurrence job occurrence now = .ok (durable, store)) :
    ScheduleState.Sound { s with store } := by
  obtain ⟨hjobs, hruns, hoccs⟩ := Store.claimScheduleOccurrence_ok h
  have hkept (d : DurableScheduleOccurrence) (hd : d ∈ s.store.occurrences) :
      d ∈ store.occurrences := by
    rcases hoccs with hoccs | ⟨-, -, hoccs⟩
    · exact hoccs.symm ▸ hd
    · exact hoccs.symm ▸ List.mem_append_left _ hd
  have hfollows : s.Follows { s with store } := by
    refine ⟨Finset.Subset.refl _, Finset.Subset.refl _, fun n id _ h => ?_, fun d hd _ => ?_⟩
    · rwa [Store.hasJob_congr hjobs] at h
    · exact ⟨d, hkept d hd, rfl, le_rfl⟩
  refine hs.of_follows hfollows (hs.store.claim h) (fun r task htask => ?_) passes_self ?_ id
  · exact ⟨htask, .of_subset fun row hrow _ => hruns ▸ hrow, fun d hd _ _ _ => hkept d hd⟩
  · rcases hoccs with hoccs | ⟨-, -, hoccs⟩
    · rw [hoccs]
      exact hs.owners
    · -- the new row names no run
      intro d hd d' hd' r hr hr'
      rw [hoccs, List.mem_append, List.mem_singleton] at hd hd'
      rcases hd with hd | rfl
      · rcases hd' with hd' | rfl
        · exact hs.owners d hd d' hd' r hr hr'
        · cases hr'
      · cases hr

theorem Sound.of_ledger_eq (hs : s.Sound) (hjobs : t.store.jobs = s.store.jobs)
    (hoccs : t.store.occurrences = s.store.occurrences) (hdrawn : s.drawn ⊆ t.drawn)
    (hjobIds : t.jobIds = s.jobIds) (hstore : t.store.Sound t.drawn t.jobIds)
    (hrunners : ∀ r task, t.runners r = some task → s.runners r = some task ∧ s.RowKept t r)
    (hpasses : ∀ pass' ∈ t.passes, ∃ pass ∈ s.passes, pass'.remaining ⊆ pass.remaining)
    (hboot : t.booting = true → s.booting = true) : t.Sound := by
  refine hs.of_follows (.of_eq hdrawn hjobIds hjobs hoccs) hstore (fun r task htask => ?_) hpasses
    (hoccs ▸ hs.owners) hboot
  obtain ⟨hold, hrows⟩ := hrunners r task htask
  exact ⟨hold, hrows, fun d hd _ _ _ => hoccs.symm ▸ hd⟩

/-- Events that only move passes and end runners. -/
theorem Sound.of_tables_eq (hs : s.Sound) (hjobs : t.store.jobs = s.store.jobs)
    (hruns : t.store.runs = s.store.runs) (hoccs : t.store.occurrences = s.store.occurrences)
    (hdrawn : s.drawn ⊆ t.drawn) (hjobIds : t.jobIds = s.jobIds)
    (hrunners : ∀ r task, t.runners r = some task → s.runners r = some task)
    (hpasses : ∀ pass' ∈ t.passes, ∃ pass ∈ s.passes, pass'.remaining ⊆ pass.remaining)
    (hboot : t.booting = true → s.booting = true) : t.Sound := by
  have hstore : t.store.Sound t.drawn t.jobIds := by
    refine Store.Sound.withRuns (hs.store.mono hdrawn hjobIds.symm.subset) hjobs hoccs
      (hruns ▸ hs.store.runIds) fun run hrun => ?_
    rw [hruns] at hrun
    exact ⟨hs.store.runJob run hrun, hdrawn (hs.store.runDrawn run hrun),
      hs.store.runOccurrence run hrun⟩
  refine hs.of_ledger_eq hjobs hoccs hdrawn hjobIds hstore (fun r task htask => ?_) hpasses hboot
  exact ⟨hrunners r task htask, .of_subset fun row hrow _ => hruns ▸ hrow⟩

theorem runners_setRunner_none {runId r : JobRunId} {task : RunnerTask}
    (h : (s.setRunner runId none).runners r = some task) : s.runners r = some task := by
  by_cases hr : r = runId
  · subst hr
    rw [setRunner_runners, Function.update_self] at h
    cases h
  · rwa [setRunner_runners, Function.update_of_ne hr] at h

theorem passes_setPass {p : ℕ} {now : Instant} {item : DurableScheduleOccurrence}
    {rest : List DurableScheduleOccurrence} (hpass : s.passes[p]? = some ⟨now, item :: rest⟩)
    (pass' : AdmissionPass) (h : pass' ∈ s.passes.set p ⟨now, rest⟩) :
    ∃ old ∈ s.passes, pass'.remaining ⊆ old.remaining := by
  rcases List.mem_or_eq_of_mem_set h with h | rfl
  · exact ⟨pass', h, List.Subset.refl _⟩
  · exact ⟨_, List.mem_of_getElem? hpass, List.subset_cons_self item rest⟩

theorem Sound.passAdvanced (hs : s.Sound) {p : ℕ} {now : Instant} {item : DurableScheduleOccurrence}
    {rest : List DurableScheduleOccurrence} (hpass : s.passes[p]? = some ⟨now, item :: rest⟩)
    (drawn : Finset JobRunId) (hdrawn : s.drawn ⊆ drawn) :
    ScheduleState.Sound ({ s with drawn }.setPass p ⟨now, rest⟩) :=
  hs.of_tables_eq rfl rfl rfl hdrawn rfl (fun _ _ htask => htask) (passes_setPass hpass) id

theorem Sound.runnerGone (hs : s.Sound) (runId : JobRunId) {store : Store}
    (hjobs : store.jobs = s.store.jobs) (hruns : store.runs = s.store.runs)
    (hoccs : store.occurrences = s.store.occurrences) :
    ScheduleState.Sound ({ s with store }.setRunner runId none) :=
  hs.of_tables_eq hjobs hruns hoccs (Finset.Subset.refl _) rfl
    (fun _ _ htask => runners_setRunner_none (s := { s with store }) htask) passes_self id

theorem Sound.crashed (hs : s.Sound) : ScheduleState.Sound
    { s with passes := [], runners := fun _ => none, booting := true } where
  store := hs.store
  runners r task htask := by cases htask
  passes pass hpass := by cases hpass
  owners := hs.owners
  idle _ := ⟨rfl, fun _ => rfl⟩

theorem RowKept.of_commitsTerminal {store : Store} {run old : JobRun} {r : JobRunId}
    (hstore : t.store = store) (hs : s.Sound) (h : Store.CommitsTerminal s.store store run old)
    (hstate : run.runId = r → old.state.isTerminal = true → run.state = old.state) :
    s.RowKept t r := by
  intro row hrow hid
  rw [hstore, h.runs] at hrow
  rcases (hs.store.mem_updateRun h.found _).mp hrow with rfl | ⟨hrow, -⟩
  · obtain ⟨hmem, holdId⟩ := Store.findRun_mem h.found
    exact ⟨old, hmem, hid, rfl, rfl, hstate (holdId.symm.trans hid)⟩
  · exact ⟨row, hrow, hid, rfl, rfl, fun _ => rfl⟩

theorem Sound.cleanupFinished (hs : s.Sound) {store : Store} {ticket : CleanupTicket} {row : JobRun}
    (h : Store.CommitsTerminal s.store store (ticket.terminalRun row) row) :
    ScheduleState.Sound { s with store } := by
  refine hs.of_ledger_eq h.jobs h.occurrences (Finset.Subset.refl _) rfl
    (hs.store.commitsTerminal h) (fun r task htask => ⟨htask, ?_⟩) passes_self id
  refine .of_commitsTerminal rfl hs h fun _ hterminal => ?_
  rw [(Store.terminalRun_spec ticket row).2, if_pos hterminal]

theorem Sound.otherCommitted (hs : s.Sound) {run old : JobRun} {store : Store}
    (hrunner : s.runners run.runId = none) (h : Store.CommitsTerminal s.store store run old) :
    ScheduleState.Sound { s with store } := by
  refine hs.of_ledger_eq h.jobs h.occurrences (Finset.Subset.refl _) rfl
    (hs.store.commitsTerminal h) (fun r task htask => ⟨htask, ?_⟩) passes_self id
  refine .of_commitsTerminal rfl hs h fun hr _ => ?_
  rw [hr] at hrunner
  rw [hrunner] at htask
  cases htask

theorem Sound.runsPruned (hs : s.Sound) (jobName : String) (maxRuns : Option ℕ)
    (olderThan : Option Instant) :
    ScheduleState.Sound { s with store := (s.store.pruneRuns jobName maxRuns olderThan).2 } := by
  obtain ⟨hjobs, hoccs, keep, hruns, -⟩ := s.store.pruneRuns_spec jobName maxRuns olderThan
  refine hs.of_ledger_eq hjobs hoccs (Finset.Subset.refl _) rfl
    (hs.store.filterRuns hjobs hoccs hruns) (fun r task htask => ⟨htask, ?_⟩) passes_self id
  refine .of_subset fun row hrow _ => ?_
  rw [hruns] at hrow
  exact List.mem_of_mem_filter hrow

/-- A run that is not scheduled is no run of a runner. -/
theorem Sound.otherSaved (hs : s.Sound) {run : JobRun} {store : Store}
    (hplain : run.occurrence = none) (hrunner : s.runners run.runId = none)
    (h : s.store.saveRun run = .ok store) :
    ScheduleState.Sound { s with store, drawn := insert run.runId s.drawn } := by
  obtain ⟨hjobs, hoccs, -, hruns⟩ := Store.saveRun_ok h
  have hstore : store.Sound (insert run.runId s.drawn) s.jobIds := by
    refine Store.Sound.saveRun (hs.store.mono (Finset.subset_insert _ _) (Finset.Subset.refl _))
      (Finset.mem_insert_self _ _) (fun _ o ho => ?_) h
    rw [hplain] at ho
    cases ho
  refine hs.of_ledger_eq hjobs hoccs (Finset.subset_insert _ _) rfl hstore
    (fun r task htask => ⟨htask, ?_⟩) passes_self id
  have hne : r ≠ run.runId := by
    rintro rfl
    rw [hrunner] at htask
    cases htask
  refine .of_subset fun row hrow hid => ?_
  rcases hruns with ⟨old, hold, -, -, hruns⟩ | ⟨-, hruns⟩
  · rw [hruns] at hrow
    rcases (hs.store.mem_updateRun hold _).mp hrow with rfl | ⟨hrow, -⟩
    · exact absurd (hid.symm.trans (Store.findRun_mem hold).2) hne
    · exact hrow
  · rw [hruns, List.mem_append, List.mem_singleton] at hrow
    rcases hrow with hrow | rfl
    · exact hrow
    · exact absurd hid.symm hne

theorem mem_listDueScheduleOccurrences {s : Store} {now : Instant} {limit : ℕ}
    {d : DurableScheduleOccurrence} (h : d ∈ s.listDueScheduleOccurrences now limit) :
    d ∈ s.occurrences ∧ d.state.isWaiting = true ∧ d.nextAttemptAt ≤ now := by
  have h := List.mem_of_mem_take h
  rw [List.mem_insertionSort, List.mem_filter] at h
  simpa using h

theorem Sound.passStarted (hs : s.Sound) (hbooted : s.booting = false) (now : Instant) :
    ScheduleState.Sound
      { s with passes := s.passes ++ [⟨now, s.store.listDueScheduleOccurrences now 128⟩] } where
  store := hs.store
  runners r task htask :=
    (hs.runners r task htask).follows hs (.of_eq (Finset.Subset.refl _) rfl rfl rfl)
      (.of_subset fun _ hrow _ => hrow) fun _ hd _ _ _ => hd
  passes pass hpass := by
    rcases List.mem_append.mp hpass with hpass | hpass
    · exact hs.passes pass hpass
    · rw [List.mem_singleton.mp hpass]
      intro item hitem
      obtain ⟨hmem, -⟩ := mem_listDueScheduleOccurrences hitem
      have hjob := hs.store.occurrenceJob item hmem
      obtain ⟨job, hjobMem, -, hid⟩ := Store.hasJob_iff.mp hjob
      refine ⟨hid ▸ hs.store.jobDrawn job hjobMem, fun name hname => ?_⟩
      exact ⟨hs.store.hasJob_jobName hname hjob, item, hmem, rfl, le_rfl⟩
  owners := hs.owners
  idle hbooting := by
    have hbooting : s.booting = true := hbooting
    rw [hbooted] at hbooting
    cases hbooting

/-- A runner goes from one point to the next and may rewrite its own row. -/
theorem Sound.runnerMoved (hs : s.Sound) {r : JobRunId} {task task' : RunnerTask} {store : Store}
    (htask : s.runners r = some task) (hjobs : store.jobs = s.store.jobs)
    (hoccs : store.occurrences = s.store.occurrences) (hstore : store.Sound s.drawn s.jobIds)
    (hrows : ∀ row ∈ store.runs, row.runId ≠ r → row ∈ s.store.runs)
    (hnew : ScheduleState.RunnerSound { s with store } r task') :
    ScheduleState.Sound ({ s with store }.setRunner r (some task')) := by
  have hfollows : s.Follows ({ s with store }.setRunner r (some task')) :=
    .of_eq (Finset.Subset.refl _) rfl hjobs hoccs
  refine ⟨hstore, fun r' task'' h => ?_, fun pass hpass => ?_, hoccs ▸ hs.owners,
    fun hbooting => ?_⟩
  · by_cases hr : r' = r
    · subst hr
      rw [setRunner_runners, Function.update_self, Option.some.injEq] at h
      subst h
      exact ⟨hnew.drawn, hnew.runId, hnew.jobName, hnew.jobId, hnew.jobDrawn, hnew.ended,
        hnew.saved, hnew.occurrence⟩
    · rw [setRunner_runners, Function.update_of_ne hr] at h
      refine (hs.runners r' task'' h).follows hs hfollows ?_ fun d hd _ _ _ => hoccs.symm ▸ hd
      exact .of_subset fun row hrow hid => hrows row hrow fun h => hr (hid.symm.trans h)
  · exact (hs.passes pass hpass).follows hs (List.Subset.refl _) hfollows
  · have hnone := (hs.idle hbooting).2 r
    rw [htask] at hnone
    cases hnone

theorem Sound.runnerRunning (hs : s.Sound) {r : JobRunId} {job : Job} {run : JobRun} {store : Store}
    (htask : s.runners r = some ⟨job, run, .starting⟩)
    (h : s.store.saveRun run = .ok store ∨ store = s.store) :
    ScheduleState.Sound { s.setRunner r (some ⟨job, run, .running⟩) with store } := by
  have hrunner := hs.runners r _ htask
  have hsaved : run.state = .running := hrunner.saved (.inl rfl)
  have hrunId : run.runId = r := hrunner.runId
  have hname : run.jobName = job.name := hrunner.jobName
  have hid : run.jobId = job.id := hrunner.jobId
  have hmoved : s.RunnerSound r ⟨job, run, .running⟩ :=
    hrunner.moves rfl rfl rfl rfl rfl (by simp) (fun _ => hsaved) (by simp)
  rcases h with h | rfl
  · obtain ⟨hjobs, hoccs, hjob, hruns⟩ := Store.saveRun_ok h
    obtain ⟨o, ho, hrow, hocc⟩ := hmoved.occurrence
    have hstore : store.Sound s.drawn s.jobIds := by
      refine hs.store.saveRun (hrunId ▸ hrunner.drawn) (fun hjob o' ho' => ?_) h
      obtain ⟨-, d, hd, hkey, hle, -⟩ := hocc job.name (by rwa [hname, hid] at hjob)
      rw [ho', Option.some.injEq] at ho
      subst ho
      rw [hid]
      exact ⟨d, hd, hkey, hle⟩
    -- the rewritten or added row is the runner's own
    have hown : ∀ row ∈ store.runs, row.runId = r →
        row.jobId = job.id ∧ row.occurrence = some o := by
      intro row hmem hrowId
      rcases hruns with ⟨old, hold, -, holdId, hruns⟩ | ⟨hnone, hruns⟩
      · rw [hruns] at hmem
        rcases (hs.store.mem_updateRun hold _).mp hmem with rfl | ⟨-, hne⟩
        · exact ⟨holdId.trans hid, ho⟩
        · exact absurd (hrowId.trans hrunId.symm) hne
      · rw [hruns, List.mem_append, List.mem_singleton] at hmem
        rcases hmem with hmem | rfl
        · exact absurd (hrowId.trans hrunId.symm) (KeyedRows.find_eq_none.mp hnone row hmem)
        · exact ⟨hid, ho⟩
    refine hs.runnerMoved htask hjobs hoccs hstore (fun row hmem hne => ?_) ?_
    · rcases hruns with ⟨old, hold, -, -, hruns⟩ | ⟨-, hruns⟩
      · rw [hruns] at hmem
        rcases (hs.store.mem_updateRun hold _).mp hmem with rfl | ⟨hmem, -⟩
        · exact absurd ((Store.findRun_mem hold).2.trans hrunId) hne
        · exact hmem
      · rw [hruns, List.mem_append, List.mem_singleton] at hmem
        rcases hmem with hmem | rfl
        · exact hmem
        · exact absurd hrunId hne
    · refine ⟨hmoved.drawn, hrunId, hname, hid, hmoved.jobDrawn, hmoved.ended, hmoved.saved, o, ho,
        fun row hmem hrowId => ?_, ?_⟩
      · obtain ⟨hrowJob, hrowOcc⟩ := hown row hmem hrowId
        exact ⟨hrowJob, ⟨o, hrowOcc, rfl⟩, by simp⟩
      · intro n hn
        rw [Store.hasJob_congr hjobs] at hn
        rw [hoccs]
        exact hocc n hn
  · exact hs.runnerMoved htask rfl rfl hs.store (fun _ hrow _ => hrow) hmoved

theorem Sound.runnerEnded (hs : s.Sound) {r : JobRunId} {job : Job} {run run' : JobRun}
    {state : JobRunState} {outcome : TransientOutcome}
    (htask : s.runners r = some ⟨job, run, .running⟩) (hterminal : state.isTerminal = true)
    (hrun : run' = { run with
      state
      startedAt := some outcome.startedAt
      endedAt := some outcome.endedAt
      exitCode := outcome.exitCode }) :
    (s.setRunner r (some ⟨job, run', .ended⟩)).Sound := by
  have hmoved : s.RunnerSound r ⟨job, run', .ended⟩ := by
    subst hrun
    exact (hs.runners r _ htask).moves rfl rfl rfl rfl rfl (fun _ => hterminal) (by simp) (by simp)
  exact hs.runnerMoved htask rfl rfl hs.store (fun _ hrow _ => hrow) hmoved

theorem Sound.runnerCommitted (hs : s.Sound) {r : JobRunId} {job : Job} {run old : JobRun}
    {store : Store} (htask : s.runners r = some ⟨job, run, .ended⟩)
    (h : Store.CommitsTerminal s.store store run old) :
    ScheduleState.Sound ({ s with store }.setRunner r (some ⟨job, run, .committed⟩)) := by
  have hrunner := hs.runners r _ htask
  have hrunId : run.runId = r := hrunner.runId
  have hterminal : run.state.isTerminal = true := hrunner.ended (.inl rfl)
  obtain ⟨hmem, holdId⟩ := Store.findRun_mem h.found
  obtain ⟨o, ho, hrow, hocc⟩ := hrunner.occurrence
  refine hs.runnerMoved htask h.jobs h.occurrences (hs.store.commitsTerminal h)
    (fun row hrowMem hne => ?_) ?_
  · rw [h.runs] at hrowMem
    rcases (hs.store.mem_updateRun h.found _).mp hrowMem with rfl | ⟨hrowMem, -⟩
    · exact absurd (holdId.trans hrunId) hne
    · exact hrowMem
  · refine ⟨hrunner.drawn, hrunId, hrunner.jobName, hrunner.jobId, hrunner.jobDrawn,
      fun _ => hterminal, by simp, o, ho, fun row hrowMem hrowId => ?_, fun n hn => ?_⟩
    · rw [h.runs] at hrowMem
      rcases (hs.store.mem_updateRun h.found _).mp hrowMem with rfl | ⟨-, hne⟩
      · obtain ⟨hjob, hrowOcc, -⟩ := hrow old hmem (holdId.trans hrunId)
        exact ⟨hjob, hrowOcc, fun _ => rfl⟩
      · exact absurd (hrowId.trans hrunId.symm) hne
    · rw [Store.hasJob_congr h.jobs] at hn
      rw [h.occurrences]
      exact hocc n hn

/-- One occurrence is rewritten under its key; no other occurrence has the run
id it gets. -/
theorem Sound.owners_setOccurrence (hs : s.Sound) {key : OccurrenceKey}
    {d : DurableScheduleOccurrence} (found : s.store.findOccurrence key = some d)
    {f : DurableScheduleOccurrence → DurableScheduleOccurrence}
    (howner : ∀ r, (f d).runId = some r → d.runId = some r ∨ r ∉ s.drawn) :
    ∀ a ∈ (s.store.setOccurrence key f).occurrences,
      ∀ b ∈ (s.store.setOccurrence key f).occurrences, ∀ r,
        a.runId = some r → b.runId = some r → a = b := by
  obtain ⟨hmem, hdkey⟩ := Store.findOccurrence_mem found
  have hother (b : DurableScheduleOccurrence) (hb : b ∈ s.store.occurrences) (hne : b.key ≠ key)
      (r : JobRunId) (hr : (f d).runId = some r) (hbr : b.runId = some r) : False := by
    rcases howner r hr with hdr | hfresh
    · exact hne (hs.owners b hb d hmem r hbr hdr ▸ hdkey)
    · exact hfresh (hs.store.occurrenceDrawn b hb r hbr)
  intro a ha b hb r har hbr
  rcases (hs.store.mem_setOccurrence found f).mp ha with rfl | ⟨ha, hane⟩
  · rcases (hs.store.mem_setOccurrence found f).mp hb with rfl | ⟨hb, hbne⟩
    · rfl
    · exact absurd hbr fun hbr => hother b hb hbne r har hbr
  · rcases (hs.store.mem_setOccurrence found f).mp hb with rfl | ⟨hb, -⟩
    · exact absurd har fun har => hother a ha hane r hbr har
    · exact hs.owners a ha b hb r har hbr

theorem OwnedKept.of_setOccurrence (hs : s.Sound) {key : OccurrenceKey}
    {d : DurableScheduleOccurrence} (found : s.store.findOccurrence key = some d)
    {f : DurableScheduleOccurrence → DurableScheduleOccurrence} {r : JobRunId}
    (hoccs : t.store.occurrences = (s.store.setOccurrence key f).occurrences)
    (hother : ¬(d.state = .running ∧ d.runId = some r)) : s.OwnedKept t r := by
  obtain ⟨hmem, hdkey⟩ := Store.findOccurrence_mem found
  intro d' hd' hrunning hrunId _
  rw [hoccs]
  refine (hs.store.mem_setOccurrence found f).mpr (.inr ⟨hd', fun hkey => hother ?_⟩)
  have heq := hs.store.occurrenceKeys.eq_of_key hd' hmem (hkey.trans hdkey.symm)
  exact heq ▸ ⟨hrunning, hrunId⟩

theorem Follows.of_setOccurrence (hs : s.Sound) {key : OccurrenceKey}
    {d : DurableScheduleOccurrence} (found : s.store.findOccurrence key = some d)
    {f : DurableScheduleOccurrence → DurableScheduleOccurrence}
    (hdrawn : s.drawn ⊆ t.drawn) (hjobIds : t.jobIds = s.jobIds)
    (hjobs : t.store.jobs = s.store.jobs)
    (hoccs : t.store.occurrences = (s.store.setOccurrence key f).occurrences)
    (hkey : (f d).key = d.key) (hattempt : d.occurrence.attempt ≤ (f d).occurrence.attempt) :
    s.Follows t where
  drawn := hdrawn
  jobIds := hjobIds.symm.subset
  hasJob name id _ h := by rwa [Store.hasJob_congr hjobs] at h
  occurrences d' hd' _ := by
    rw [hoccs]
    exact hs.store.kept_setOccurrence found hkey hattempt hd'

theorem runner_ne {runId r : JobRunId} {task : RunnerTask}
    (h : (s.setRunner runId none).runners r = some task) : r ≠ runId := by
  rintro rfl
  rw [setRunner_runners, Function.update_self] at h
  cases h

theorem Sound.attemptFinalized (hs : s.Sound) {r : JobRunId} {job : Job} {run : JobRun}
    {now : Instant} {answer : ScheduleFinalization} {store : Store}
    (htask : s.runners r = some ⟨job, run, .committed⟩)
    (h : Store.FinalizationStep s.store job run now answer store) :
    ScheduleState.Sound ({ s with store }.setRunner r none) := by
  have hrunId : run.runId = r := (hs.runners r _ htask).runId
  have hstore := hs.store.finalization h
  have hgone {d : DurableScheduleOccurrence} {key : OccurrenceKey}
      {f : DurableScheduleOccurrence → DurableScheduleOccurrence}
      (found : s.store.findOccurrence key = some d) (howner : d.runId = some run.runId)
      (hsound : (s.store.setOccurrence key f).Sound s.drawn s.jobIds)
      (hkey : (f d).key = d.key) (hattempt : d.occurrence.attempt ≤ (f d).occurrence.attempt)
      (hf : ∀ r, (f d).runId = some r → d.runId = some r) :
      ScheduleState.Sound ({ s with store := s.store.setOccurrence key f }.setRunner r none) := by
    refine hs.of_follows (.of_setOccurrence hs found (Finset.Subset.refl _) rfl rfl rfl hkey hattempt)
      hsound (fun r' task' h' => ?_) passes_self
      (hs.owners_setOccurrence found fun r hr => .inl (hf r hr)) id
    -- every other runner owns another occurrence
    refine ⟨runners_setRunner_none (s := { s with store := s.store.setOccurrence key f }) h',
      .of_subset fun _ hrow _ => hrow, .of_setOccurrence hs found rfl fun ⟨_, hd⟩ => ?_⟩
    rw [howner, Option.some.injEq, hrunId] at hd
    exact runner_ne h' hd.symm
  cases h with
  | @retry o d retryAt hretryAt hocc found howner hfailed hmore =>
    refine hgone found howner hstore rfl ?_ (fun r hr => by cases hr)
    have hnext := U16.saturatingAdd_one hmore
    rw [Fin.le_def]
    exact Nat.le_of_lt (hnext ▸ Nat.lt_succ_self _)
  | final hocc found howner hlast =>
    exact hgone found howner hstore rfl le_rfl fun _ hr => hr

theorem Sound.recovered (hs : s.Sound) (hbooting : s.booting = true) (now : Instant) :
    ScheduleState.Sound
      { s with store := s.store.recoverScheduleOccurrences now, booting := false } := by
  obtain ⟨hpasses, hrunners⟩ := hs.idle hbooting
  refine ⟨hs.store.recover now, fun r task htask => ?_, fun pass hpass => ?_,
    fun a ha b hb r har hbr => ?_, fun h => by cases h⟩
  · change s.runners r = some task at htask
    rw [hrunners] at htask
    cases htask
  · change pass ∈ s.passes at hpass
    rw [hpasses] at hpass
    cases hpass
  · obtain ⟨a', ha', ⟨-, rfl⟩ | ⟨-, rfl⟩⟩ := Store.mem_recover.mp ha
    · cases har
    · obtain ⟨b', hb', ⟨-, rfl⟩ | ⟨-, rfl⟩⟩ := Store.mem_recover.mp hb
      · cases hbr
      · exact hs.owners a ha' b hb' r har hbr

theorem Sound.runnerAdded (hs : s.Sound) {r : JobRunId} {task : RunnerTask}
    (hbooted : s.booting = false) (hnew : s.RunnerSound r task) :
    (s.setRunner r (some task)).Sound := by
  have hfollows : s.Follows (s.setRunner r (some task)) :=
    .of_eq (Finset.Subset.refl _) rfl rfl rfl
  have hsame {r' : JobRunId} {task' : RunnerTask} (h : s.RunnerSound r' task') :
      (s.setRunner r (some task)).RunnerSound r' task' :=
    h.follows hs hfollows (.of_subset fun _ hrow _ => hrow) fun _ hd _ _ _ => hd
  refine ⟨hs.store, fun r' task' h => ?_,
    fun pass hpass => (hs.passes pass hpass).follows hs (List.Subset.refl _) hfollows,
    hs.owners, fun hbooting => ?_⟩
  · by_cases hr : r' = r
    · subst hr
      rw [setRunner_runners, Function.update_self, Option.some.injEq] at h
      exact hsame (h ▸ hnew)
    · rw [setRunner_runners, Function.update_of_ne hr] at h
      exact hsame (hs.runners r' task' h)
  · rw [setRunner_booting, hbooted] at hbooting
    cases hbooting

/-- A waiting occurrence is rewritten, and at most the run drawn for it is added. -/
theorem Sound.occurrenceDecided (hs : s.Sound) {p : ℕ} {now : Instant}
    {item : DurableScheduleOccurrence} {rest : List DurableScheduleOccurrence} {runId : JobRunId}
    (hpass : s.passes[p]? = some ⟨now, item :: rest⟩) {key : OccurrenceKey}
    {d : DurableScheduleOccurrence} (found : s.store.findOccurrence key = some d)
    (hwaits : d.state.isWaiting = true)
    {f : DurableScheduleOccurrence → DurableScheduleOccurrence} {store : Store}
    (hjobs : store.jobs = s.store.jobs)
    (hoccs : store.occurrences = (s.store.setOccurrence key f).occurrences)
    (hstore : store.Sound (insert runId s.drawn) s.jobIds)
    (hrows : ∀ row ∈ store.runs, row.runId ≠ runId → row ∈ s.store.runs)
    (hfresh : runId ∉ s.drawn) (hkey : (f d).key = d.key)
    (hattempt : (f d).occurrence = d.occurrence)
    (howner : ∀ r, (f d).runId = some r → d.runId = some r ∨ r = runId) :
    ScheduleState.Sound
      ({ s with store, drawn := insert runId s.drawn }.setPass p ⟨now, rest⟩) := by
  refine hs.of_follows (.of_setOccurrence hs found (Finset.subset_insert _ _) rfl hjobs hoccs hkey
    (by rw [hattempt])) hstore (fun r task htask => ?_) (passes_setPass hpass) ?_ id
  · refine ⟨htask, .of_subset fun row hrow hid => hrows row hrow ?_,
      .of_setOccurrence hs found hoccs fun ⟨hrunning, _⟩ => ?_⟩
    · rintro rfl
      exact hfresh (hid ▸ (hs.runners r task htask).drawn)
    · rw [hrunning] at hwaits
      cases hwaits
  · change ∀ a ∈ store.occurrences, ∀ b ∈ store.occurrences, _
    rw [hoccs]
    refine hs.owners_setOccurrence found fun r hr => ?_
    rcases howner r hr with h | rfl
    · exact .inl h
    · exact .inr hfresh

/-- What a pass lists is not ahead of the ledger. -/
theorem Sound.attempt_le (hs : s.Sound) {p : ℕ} {now : Instant} {item d : DurableScheduleOccurrence}
    {rest : List DurableScheduleOccurrence} {job : Job}
    (hpass : s.passes[p]? = some ⟨now, item :: rest⟩)
    (hjob : s.store.getJob item.jobName = some job) (hid : job.id = item.jobId)
    (found : s.store.findOccurrence (item.occurrence.key job.id) = some d) :
    item.occurrence.attempt ≤ d.occurrence.attempt := by
  obtain ⟨hmem, hkey⟩ := Store.findOccurrence_mem found
  obtain ⟨hjobMem, hname⟩ := Store.getJob_mem hjob
  obtain ⟨-, hrow⟩ := hs.passes _ (List.mem_of_getElem? hpass) item List.mem_cons_self
  obtain ⟨-, d', hd', hkey', hle⟩ :=
    hrow job.name (Store.hasJob_iff.mpr ⟨job, hjobMem, rfl, hid⟩)
  rw [hid] at hkey
  rwa [hs.store.occurrenceKeys.eq_of_key hmem hd' (hkey.trans hkey'.symm)]

theorem rows_insertRun {u store : Store} {run : JobRun} (h : u.insertRun run = .ok store) :
    ∀ row ∈ store.runs, row.runId ≠ run.runId → row ∈ u.runs := by
  obtain ⟨-, -, -, rfl⟩ := Store.insertRun_ok h
  intro row hrow hne
  rw [List.mem_append, List.mem_singleton] at hrow
  rcases hrow with hrow | rfl
  · exact hrow
  · exact absurd rfl hne

theorem Sound.admitted (hs : s.Sound) {p : ℕ} {now : Instant} {item : DurableScheduleOccurrence}
    {rest : List DurableScheduleOccurrence} {runId : JobRunId} {job : Job}
    {answer : ScheduleAdmission} {store : Store}
    (hpass : s.passes[p]? = some ⟨now, item :: rest⟩) (hfresh : runId ∉ s.drawn)
    (hjob : s.store.getJob item.jobName = some job) (hid : job.id = item.jobId)
    (h : Store.AdmissionStep s.store job item.occurrence now runId answer store) :
    ((s.admitted job runId store answer).setPass p ⟨now, rest⟩).Sound := by
  have hattempt (d : DurableScheduleOccurrence)
      (found : s.store.findOccurrence (item.occurrence.key job.id) = some d) :
      item.occurrence.attempt ≤ d.occurrence.attempt := hs.attempt_le hpass hjob hid found
  have hstore := hs.store.admission hattempt h
  obtain ⟨hjobMem, -⟩ := Store.getJob_mem hjob
  cases h with
  | settled found hstate => exact hs.passAdvanced hpass _ (Finset.subset_insert _ _)
  | already found hstate => exact hs.passAdvanced hpass _ (Finset.subset_insert _ _)
  | queued found hwaits hfull hroom =>
    exact hs.occurrenceDecided hpass found hwaits rfl rfl hstore (fun _ hrow _ => hrow) hfresh
      rfl rfl fun _ hr => .inl hr
  | skipped found hwaits hfull hover hinsert =>
    obtain ⟨-, -, -, rfl⟩ := Store.insertRun_ok hinsert
    exact hs.occurrenceDecided hpass found hwaits rfl rfl hstore (rows_insertRun hinsert) hfresh
      rfl rfl fun _ hr => .inr (Option.some.inj hr).symm
  | @started d _ found hwaits hfree hinsert =>
    have hrows := rows_insertRun hinsert
    obtain ⟨-, -, -, heq⟩ := Store.insertRun_ok hinsert
    have hoccs : store.occurrences = (s.store.setOccurrence (item.occurrence.key job.id) fun d =>
        { d with state := .running, runId := some runId }).occurrences := by rw [heq]
    have hjobs : store.jobs = s.store.jobs := by
      rw [heq]
      rfl
    have hdecided := hs.occurrenceDecided hpass found hwaits hjobs hoccs hstore hrows hfresh rfl rfl
      fun _ hr => .inr (Option.some.inj hr).symm
    subst heq
    have hbooted : s.booting = false := by
      by_contra hbooting
      have hnone := (hs.idle (by simpa using hbooting)).1
      rw [hnone] at hpass
      cases hpass
    obtain ⟨hmem, hdkey⟩ := Store.findOccurrence_mem found
    refine hdecided.runnerAdded (r := runId) hbooted ⟨Finset.mem_insert_self _ _, rfl, rfl, rfl,
      hs.store.jobDrawn job hjobMem, by simp, fun _ => rfl, d.occurrence, rfl,
      fun row hrow hrowId => ?_, fun name hname => ?_⟩
    · -- the run id is fresh, so its row is the one just added
      rcases List.mem_append.mp hrow with hrow | hrow
      · exact absurd (hrowId ▸ hs.store.runDrawn row hrow) hfresh
      · rw [List.mem_singleton.mp hrow]
        refine ⟨rfl, ⟨item.occurrence, rfl, ?_⟩, by simp⟩
        have hjobId : d.jobId = job.id := congrArg OccurrenceKey.jobId hdkey
        rw [← hdkey, DurableScheduleOccurrence.key, hjobId]
    · have hjobId : d.jobId = job.id := congrArg OccurrenceKey.jobId hdkey
      refine ⟨hs.store.hasJob_jobName hname (Store.hasJob_iff.mpr ⟨job, hjobMem, rfl, rfl⟩), _,
        (hs.store.mem_setOccurrence found _).mpr (.inl rfl), ?_, le_rfl, rfl, rfl⟩
      rw [← hjobId]
      rfl

theorem Sound.stepped (hs : s.Sound) {e : ScheduleEvent} (h : s.Stepped e t) : t.Sound := by
  cases h with
  | jobReplaced hold => exact hs.jobReplaced hold
  | jobAdded hnone hfresh => exact hs.jobAdded hnone hfresh
  | jobDeleted => exact hs.jobDeleted _
  | claimed _ h => exact hs.claimed h
  | passStarted hbooted => exact hs.passStarted hbooted _
  | admitted hpass hfresh hjob hid h => exact hs.admitted hpass hfresh hjob hid h
  | unanswered hpass _ _ => exact hs.passAdvanced hpass _ (Finset.subset_insert _ _)
  | passedOver hpass => exact hs.passAdvanced hpass _ (Finset.Subset.refl _)
  | runnerRunning htask h => exact hs.runnerRunning htask h
  | runnerEnded htask hterminal hrun => exact hs.runnerEnded htask hterminal hrun
  | runnerCommitted htask h => exact hs.runnerCommitted htask h
  | attemptFinalized htask h => exact hs.attemptFinalized htask h
  | attemptUnsettled => exact hs.runnerGone _ rfl rfl rfl
  | finalizeFailed => exact hs.runnerGone _ rfl rfl rfl
  | runnerGone _ hjobs hruns hoccs => exact hs.runnerGone _ hjobs hruns hoccs
  | cleanupFinished _ _ h => exact hs.cleanupFinished h
  | runsPruned => exact hs.runsPruned _ _ _
  | otherSaved hplain _ hrunner _ h => exact hs.otherSaved hplain hrunner h
  | otherCommitted _ _ hrunner _ h => exact hs.otherCommitted hrunner h
  | crashed => exact hs.crashed
  | recovered hbooting => exact hs.recovered hbooting _
  | aside hjobs hruns hoccs =>
    exact hs.of_tables_eq hjobs hruns hoccs (Finset.Subset.refl _) rfl (fun _ _ h => h)
      passes_self id

theorem Sound.step (hs : s.Sound) {e : ScheduleEvent} (h : scheduleSystem.step s e = some t) :
    t.Sound := hs.stepped (ScheduleState.stepped h)

theorem sound_init : ScheduleState.Sound {} := by
  refine ⟨?_, ?_, ?_, ?_, fun _ => ⟨rfl, fun _ => rfl⟩⟩
  · constructor <;> simp [KeyedRows.Unique]
  · intro r task h
    cases h
  · intro pass h
    cases h
  · intro d hd
    cases hd

end ScheduleState

end Supervisor
