import Supervisor.JobStore
import Supervisor.Machine

namespace Supervisor

/-- The text of a repository error once the application layer wraps it. -/
def RepoError.appMessage : RepoError → String
  | .notFound what => "internal error: repository: " ++ what
  | .conflict why => "invalid request: " ++ why
  | .backend why => "internal error: repository: " ++ why

/-- The terminal row a cleanup ticket commits for its run; a row that is
terminal already stays as it is. -/
def CleanupTicket.terminalRun (ticket : CleanupTicket) (run : JobRun) : JobRun :=
  if run.state.isTerminal then run else
    { run with
      state := ticket.intendedTerminalState
      startedAt := some ticket.outcome.startedAt
      endedAt := some ticket.outcome.endedAt
      exitCode := ticket.outcome.exitCode }

/-- Finish an unreaped run: seal the log, then commit the terminal row together
with its outbox event. The occurrence behind the run is not looked at. -/
def Store.finishTransientCleanup (s : Store) (ticket : CleanupTicket) (eventId : Uuid) : Store :=
  let s' := (s.updateTransientCleanup ticket.cleanupId .sealLog none).updateTransientCleanup
    ticket.cleanupId .persistTerminal none
  match s'.getRun ticket.jobName ticket.runId with
  | none => s'.completeTransientCleanup ticket.cleanupId
  | some run =>
    match s'.commitTransientCleanupTerminal ticket (ticket.terminalRun run) eventId with
    | .ok t => t
    | .error e => s'.updateTransientCleanup ticket.cleanupId .persistTerminal (some e.appMessage)

/-- Where the runner of a scheduled run stands between its transactions. -/
inductive RunnerPoint where
  | starting | running | ended | committed
deriving DecidableEq

structure RunnerTask where
  job : Job
  run : JobRun
  point : RunnerPoint
deriving DecidableEq

/-- One pass of `reconcile_durable_schedule_dispatch`: the time it read and the
occurrences it listed and has not reached yet. -/
structure AdmissionPass where
  now : Instant
  remaining : List DurableScheduleOccurrence
deriving DecidableEq

structure ScheduleState where
  store : Store := {}
  /-- The passes started so far; one that has reached all it listed stays, empty. -/
  passes : List AdmissionPass := []
  runners : JobRunId → Option RunnerTask := fun _ => none
  /-- The run ids and job ids drawn so far. -/
  drawn : Finset JobRunId := ∅
  jobIds : Finset JobId := ∅
  /-- The daemon has not recovered the ledger since it started. -/
  booting : Bool := true

inductive ScheduleEvent where
  | saveJob (job : Job)
  | deleteJob (name : String)
  | claim (job : Job) (occurrence : ScheduleOccurrence) (now : Instant)
  | startPass (now : Instant)
  /-- The pass tries to admit the next occurrence it listed. -/
  | admitNext (pass : ℕ) (runId : JobRunId)
  /-- The pass leaves the next occurrence alone: its job is frozen, or the
  repository did not answer. -/
  | passOver (pass : ℕ)
  | saveRunning (runId : JobRunId)
  | endRun (runId : JobRunId) (state : JobRunState) (outcome : TransientOutcome)
  | commitTerminal (runId : JobRunId) (event : TransientTerminalEvent)
  | finalizeAttempt (runId : JobRunId) (now : Instant)
  /-- The repository fails between the terminal commit and the finalisation. -/
  | finalizeFailed (runId : JobRunId)
  | enqueueCleanup (ticket : CleanupTicket)
  /-- The runner ends without a terminal commit. -/
  | abandonRun (runId : JobRunId)
  | finishCleanup (cleanupId eventId : Uuid)
  | acknowledge (eventId cleanupId : Uuid)
  | pruneRuns (jobName : String) (maxRuns : Option ℕ) (olderThan : Option Instant)
  /-- A run that is not scheduled is stored or updated. -/
  | saveOther (run : JobRun)
  /-- The end of a run that is not scheduled is committed. -/
  | commitOther (run : JobRun) (event : TransientTerminalEvent)
  | crash
  | recover (now : Instant)

namespace ScheduleState

def setPass (s : ScheduleState) (pass : ℕ) (p : AdmissionPass) : ScheduleState :=
  { s with passes := s.passes.set pass p }

def setRunner (s : ScheduleState) (runId : JobRunId) (task : Option RunnerTask) : ScheduleState :=
  { s with runners := Function.update s.runners runId task }

section Frame

variable (s : ScheduleState) (pass : ℕ) (p : AdmissionPass) (runId : JobRunId)
  (task : Option RunnerTask)

@[simp] theorem setPass_store : (s.setPass pass p).store = s.store := rfl
@[simp] theorem setPass_passes : (s.setPass pass p).passes = s.passes.set pass p := rfl
@[simp] theorem setPass_runners : (s.setPass pass p).runners = s.runners := rfl

@[simp] theorem setRunner_runners : (s.setRunner runId task).runners = Function.update s.runners runId task := rfl
@[simp] theorem setRunner_booting : (s.setRunner runId task).booting = s.booting := rfl

end Frame

/-- The run value a runner carries for an admitted occurrence. -/
def runnerRun (job : Job) (occurrence : ScheduleOccurrence) (runId : JobRunId) : JobRun :=
  { runId
    jobName := job.name
    jobId := job.id
    triggeredBy := .scheduled occurrence
    scheduledAt := occurrence.scheduledAt
    startedAt := some occurrence.scheduledAt
    state := .running
    occurrence := some occurrence
    originalScheduledAt := some occurrence.scheduledAt }

def saveJob (s : ScheduleState) (job : Job) : Option ScheduleState :=
  match s.store.getJob job.name with
  | some _ => some { s with store := s.store.saveJob job }
  | none =>
    if job.id ∈ s.jobIds then none
    else some { s with store := s.store.saveJob job, jobIds := insert job.id s.jobIds }

def admitDurable (s : ScheduleState) (durable : DurableScheduleOccurrence) (now : Instant)
    (runId : JobRunId) : ScheduleState :=
  let s' := { s with drawn := insert runId s.drawn }
  match s.store.getJob durable.jobName with
  | none => s'
  | some job =>
    if job.id ≠ durable.jobId then s'
    else
      match s.store.admitScheduleOccurrence job durable.occurrence now runId with
      | .error _ => s'
      | .ok (.start admitted, store) =>
        { s' with store }.setRunner runId
          (some ⟨job, runnerRun job admitted.occurrence runId, .starting⟩)
      | .ok (_, store) => { s' with store }

/-- Whether an event's ticket is one the runner of its run can enqueue. -/
def RunnerTask.enqueues (task : RunnerTask) (ticket : CleanupTicket) : Bool :=
  ticket.jobId = task.job.id && ticket.jobName = task.job.name &&
    (task.point = .running || task.point = .ended && ticket.intendedTerminalState = task.run.state)

/-- Whether a run, or the row of its id, belongs to a scheduled occurrence. -/
def isScheduled (s : ScheduleState) (run : JobRun) : Bool :=
  run.occurrence.isSome || (s.store.findRun run.runId).any (·.occurrence.isSome) ||
    (s.runners run.runId).isSome || s.store.occurrences.any (·.runId = some run.runId)

def step (s : ScheduleState) : ScheduleEvent → Option ScheduleState
  | .saveJob job => s.saveJob job
  | .deleteJob name => some { s with store := s.store.deleteJob name }
  | .claim job occurrence now =>
    if occurrence.attempt ≠ 1 then none
    else
      match s.store.claimScheduleOccurrence job occurrence now with
      | .error _ => some s
      | .ok (_, store) => some { s with store }
  | .startPass now =>
    if s.booting then none
    else some { s with
      passes := s.passes ++ [⟨now, s.store.listDueScheduleOccurrences now 128⟩] }
  | .admitNext pass runId =>
    match s.passes[pass]? with
    | some ⟨now, durable :: remaining⟩ =>
      if runId ∈ s.drawn then none
      else some ((s.admitDurable durable now runId).setPass pass ⟨now, remaining⟩)
    | _ => none
  | .passOver pass =>
    match s.passes[pass]? with
    | some ⟨now, _ :: remaining⟩ => some (s.setPass pass ⟨now, remaining⟩)
    | _ => none
  | .saveRunning runId =>
    match s.runners runId with
    | some ⟨job, run, .starting⟩ =>
      let s' := s.setRunner runId (some ⟨job, run, .running⟩)
      match s.store.saveRun run with
      | .error _ => some s'
      | .ok store => some { s' with store }
    | _ => none
  | .endRun runId state outcome =>
    match s.runners runId with
    | some ⟨job, run, .running⟩ =>
      if state.isTerminal && state ≠ .skipped then
        some (s.setRunner runId (some ⟨job, { run with
          state
          startedAt := some outcome.startedAt
          endedAt := some outcome.endedAt
          exitCode := outcome.exitCode }, .ended⟩))
      else none
    | _ => none
  | .commitTerminal runId event =>
    match s.runners runId with
    | some ⟨job, run, .ended⟩ =>
      match s.store.commitTerminalRunWithEvent run event with
      | .error (.conflict _) => some (s.setRunner runId none)
      | .error _ => none
      | .ok store => some ({ s with store }.setRunner runId (some ⟨job, run, .committed⟩))
    | _ => none
  | .finalizeAttempt runId now =>
    match s.runners runId with
    | some ⟨job, run, .committed⟩ =>
      match s.store.finalizeScheduleAttempt job run now with
      | .error _ => some (s.setRunner runId none)
      | .ok (_, store) => some ({ s with store }.setRunner runId none)
    | _ => none
  | .finalizeFailed runId =>
    match s.runners runId with
    | some ⟨_, _, .committed⟩ => some (s.setRunner runId none)
    | _ => none
  | .enqueueCleanup ticket =>
    match s.runners ticket.runId with
    | some task =>
      if RunnerTask.enqueues task ticket then
        match s.store.enqueueTransientCleanup ticket with
        | .error _ => none
        | .ok store => some ({ s with store }.setRunner ticket.runId none)
      else none
    | none =>
      -- the runner of a run that is not scheduled
      if (s.store.findRun ticket.runId).any fun row => row.occurrence = none &&
          row.jobName = ticket.jobName && row.jobId = ticket.jobId && !row.state.isTerminal then
        match s.store.enqueueTransientCleanup ticket with
        | .error _ => none
        | .ok store => some { s with store }
      else none
  | .abandonRun runId =>
    match s.runners runId with
    | some ⟨_, _, .starting⟩ | some ⟨_, _, .running⟩ | some ⟨_, _, .ended⟩ =>
      some (s.setRunner runId none)
    | _ => none
  | .finishCleanup cleanupId eventId =>
    match KeyedRows.find CleanupTicket.cleanupId cleanupId s.store.cleanups with
    | some ticket => some { s with store := s.store.finishTransientCleanup ticket eventId }
    | none => none
  | .acknowledge eventId cleanupId =>
    some { s with store := s.store.acknowledgeTransientTerminalEvent eventId cleanupId }
  | .pruneRuns jobName maxRuns olderThan =>
    some { s with store := (s.store.pruneRuns jobName maxRuns olderThan).2 }
  | .saveOther run =>
    if s.isScheduled run then none
    else
      match s.store.saveRun run with
      | .error _ => some s
      | .ok store => some { s with store, drawn := insert run.runId s.drawn }
  | .commitOther run event =>
    if s.isScheduled run then none
    else
      match s.store.commitTerminalRunWithEvent run event with
      | .error _ => some s
      | .ok store => some { s with store }
  | .crash =>
    some { s with passes := [], runners := fun _ => none, booting := true }
  | .recover now =>
    if s.booting then
      some { s with store := s.store.recoverScheduleOccurrences now, booting := false }
    else none

end ScheduleState

/-- The durable schedule of one daemon over restarts: claims, admission passes,
runners and cleanup workers on one database. -/
def scheduleSystem : Machine ScheduleState ScheduleEvent := ⟨ScheduleState.step⟩

/-- A job with one slot, no queue and no retries. -/
def hourly : Job := { id := ⟨1⟩, name := "hourly", trigger := .interval (3600 * nanosPerSec) }

def hourlyAt (scheduledAt : Instant) : ScheduleOccurrence :=
  { triggerId := 0, scheduleRevision := 0, scheduledAt, attempt := 1 }

end Supervisor
