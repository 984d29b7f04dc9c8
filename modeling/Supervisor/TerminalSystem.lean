import Supervisor.RunDispatch
import Supervisor.ScheduleSystem

namespace Supervisor

namespace Store

/-- One queued run of `cancel_queued_runs_for_job_deletion`. -/
def cancelPendingRun (s : Store) (jobName : String) (event : TransientTerminalEvent) :
    Except RepoError Store :=
  if event.jobName ≠ jobName || event.state ≠ .cancelled then
    .error (.conflict "invalid queued deletion terminal event")
  else
    match (s.findRun event.runId).filter fun row =>
        row.jobName = jobName && row.state = .pending with
    | none => .error (.conflict "queued run changed before deletion cancellation")
    | some _ =>
      (s.setRun event.runId fun row => { row with
        state := .cancelled
        endedAt := some event.occurredAt
        exitCode := event.exitCode }).insertOutbox event

/-- The rows of `cancel_queued_runs_for_job_deletion`: all of them or none. -/
def cancelPendingRuns (s : Store) (jobName : String) (events : List TransientTerminalEvent) :
    Except RepoError Store :=
  events.foldlM (fun s event => s.cancelPendingRun jobName event) s

/-- The events waiting for delivery, oldest first. -/
def pendingTransientTerminalEvents (s : Store) (limit : ℕ) : List TransientTerminalEvent :=
  (s.outbox.insertionSort fun a b =>
    a.occurredAt < b.occurredAt ∨ a.occurredAt = b.occurredAt ∧ a.eventId ≤ b.eventId).take limit

/-- `is_durable_schedule_run` -/
def isDurableScheduleRun (s : Store) (runId : JobRunId) : Bool :=
  s.occurrences.any (·.runId = some runId) ||
    (s.findRun runId).any (·.occurrence.isSome)

end Store

/-- The event a runner commits with its terminal row. -/
def terminalEvent (run : JobRun) (now : Instant) (cleanupId eventId : Uuid) :
    TransientTerminalEvent :=
  { cleanupId, eventId
    occurredAt := run.endedAt.getD now
    jobName := run.jobName
    runId := run.runId
    state := run.state
    exitCode := run.exitCode }

def cancelledTerminalEvent (jobName : String) (runId : JobRunId) (occurredAt : Instant)
    (cleanupId eventId : Uuid) : TransientTerminalEvent :=
  { cleanupId, eventId, occurredAt, jobName, runId, state := .cancelled, exitCode := none }

/-- The row `record_skipped_run` stores. -/
def skippedRun (store : Store) (jobName : String) (triggeredBy : TriggeredBy) (runId : JobRunId)
    (now : Instant) : JobRun :=
  let occurrence := match triggeredBy with
    | .scheduled occurrence => some occurrence
    | _ => none
  { runId
    jobName
    jobId := ((store.getJob jobName).map (·.id)).getD ⟨0⟩
    triggeredBy
    scheduledAt := now
    endedAt := some now
    state := .skipped
    occurrence
    originalScheduledAt := occurrence.map (·.scheduledAt) }

/-- The value a runner carries, and writes when it starts. -/
def runningRun (job : Job) (triggeredBy : TriggeredBy) (runId : JobRunId) (now : Instant) :
    JobRun :=
  let pending := pendingRun job triggeredBy runId now
  { pending with
    startedAt := some pending.scheduledAt
    state := .running }

/-- What one task of the daemon holds for a run. Which queued run is started
next, and which one a drain takes, is the registry's choice. -/
inductive RunOwner where
  /-- A caller of `dispatch_run`; `saved` once the pending row is stored. -/
  | dispatching (job : Job) (triggeredBy : TriggeredBy) (saved : Bool)
  /-- Registered in phase `Queued`. -/
  | queued (job : Job) (triggeredBy : TriggeredBy)
  /-- `cancel_run` or a drain took the run off the queue, or bootstrap listed its
  row: the row that was read is to be committed as `Cancelled`. -/
  | cancelling (jobName : String) (read : Option JobRun)
  /-- The overlap slot is taken and the runner has not written to the row yet. -/
  | starting (job : Job) (triggeredBy : TriggeredBy)
  | runner (task : RunnerTask)
deriving DecidableEq

/-- Whether the run still waits on the queue. -/
def RunOwner.isQueued : RunOwner → Bool
  | .queued .. => true
  | .dispatching .. | .cancelling .. | .starting .. | .runner .. => false

/-- A ticket that a cleanup pass listed, and the row it read for it. -/
structure CleanupWork where
  ticket : CleanupTicket
  read : Option JobRun
deriving DecidableEq

structure TerminalState where
  store : Store := {}
  owners : JobRunId → Option RunOwner := fun _ => none
  /-- The queues that deletions have read, each with the name of its job. -/
  snapshots : List (String × List JobRunId) := []
  works : List CleanupWork := []
  booting : Bool := true
  /-- The run ids, the cleanup and event ids, and the job ids drawn so far. -/
  drawn : Finset JobRunId := ∅
  uuids : Finset Uuid := ∅
  jobIds : Finset JobId := ∅
  /-- History: every event the outbox was given. -/
  written : List (JobRunId × Uuid) := []

inductive TerminalAction where
  | saveJob (job : Job)
  /-- The rows of a deletion are committed. -/
  | deleteJob (name : String)
  | pruneRuns (jobName : String) (maxRuns : Option ℕ) (olderThan : Option Instant)
  | claimOccurrence (job : Job) (occurrence : ScheduleOccurrence) (now : Instant)
  | finalizeAttempt (job : Job) (run : JobRun) (now : Instant)
  | recoverOccurrences (now : Instant)
  /-- A manual trigger calls `dispatch_run`. -/
  | callDispatch (job : Job) (runId : JobRunId)
  | claimDependency (job : Job) (signature : List JobRunId) (upstream runId : JobRunId)
    (now : Instant)
  | savePending (runId : JobRunId) (now : Instant)
  | saveSkipped (runId : JobRunId) (now : Instant)
  | register (runId : JobRunId) (queue : Bool)
  | admitOccurrence (job : Job) (occurrence : ScheduleOccurrence) (now : Instant)
    (runId : JobRunId)
  | promote (runId : JobRunId)
  /-- `cancel_run`, or the drain of a shutdown or of a config apply. -/
  | dequeue (runId : JobRunId)
  /-- The drain of a deletion, which leaves the rows alone. -/
  | dropQueued (runId : JobRunId)
  | saveRunning (runId : JobRunId) (now : Instant)
  | endRun (runId : JobRunId) (state : JobRunState) (outcome : TransientOutcome)
  | commitTerminal (runId : JobRunId) (now : Instant) (cleanupId eventId : Uuid)
  | enqueueCleanup (ticket : CleanupTicket)
  /-- A task gives up the run it holds, after an error or because its job is
  tombstoned. -/
  | abandon (runId : JobRunId)
  | readCancelled (runId : JobRunId)
  | commitCancelled (runId : JobRunId) (now : Instant) (cleanupId eventId : Uuid)
  /-- A deletion reads the queue of its job. -/
  | snapshotQueue (job : Job) (runIds : List JobRunId)
  /-- A deletion commits the cancellation of the runs it read. -/
  | cancelQueued (snapshot : ℕ) (now : Instant) (ids : List (Uuid × Uuid))
  /-- Bootstrap lists a row that no daemon runs any more. -/
  | bootTake (runId : JobRunId)
  | finishBoot
  /-- A cleanup pass lists a ticket. -/
  | takeTicket (cleanupId : Uuid)
  | updateTicket (cleanupId : Uuid) (stage : TransientCleanupStage) (error : Option String)
  | readWork (work : ℕ)
  | commitWork (work : ℕ) (eventId : Uuid)
  | dropWork (work : ℕ)
  | acknowledge (eventId cleanupId : Uuid)
  | crash

namespace TerminalState

def setOwner (s : TerminalState) (runId : JobRunId) (owner : Option RunOwner) : TerminalState :=
  { s with owners := Function.update s.owners runId owner }

section Frame

variable (s : TerminalState) (runId : JobRunId) (owner : Option RunOwner)

@[simp] theorem setOwner_store : (s.setOwner runId owner).store = s.store := rfl
@[simp] theorem setOwner_owners :
    (s.setOwner runId owner).owners = Function.update s.owners runId owner := rfl
@[simp] theorem setOwner_works : (s.setOwner runId owner).works = s.works := rfl

end Frame

def saveJob (s : TerminalState) (job : Job) : Option TerminalState :=
  match s.store.getJob job.name with
  | some _ => some { s with store := s.store.saveJob job }
  | none =>
    if job.id ∈ s.jobIds then none
    else some { s with store := s.store.saveJob job, jobIds := insert job.id s.jobIds }

/-- A transaction of a task: one that fails leaves the store as it is. -/
def attempt (s : TerminalState) (result : Except RepoError Store) : TerminalState :=
  { s with store := result.toOption.getD s.store }

/-- The commit of a terminal row by the task that holds the run. A conflict ends
the task; after any other error it still holds the run. -/
def commit (s : TerminalState) (runId : JobRunId) (run : JobRun)
    (event : TransientTerminalEvent) : TerminalState :=
  let s' := { s with uuids := insert event.cleanupId (insert event.eventId s.uuids) }
  match s.store.commitTerminalRunWithEvent run event with
  | .ok store => { s' with store }.setOwner runId none
  | .error (.conflict _) => s'.setOwner runId none
  | .error _ => s'

/-- The events of a cancellation, for the runs that were read and the ids drawn. -/
def cancelledEvents (jobName : String) (runIds : List JobRunId) (now : Instant)
    (ids : List (Uuid × Uuid)) : List TransientTerminalEvent :=
  (runIds.zip ids).map fun (runId, cleanupId, eventId) =>
    cancelledTerminalEvent jobName runId now cleanupId eventId

/-- Two new ids, for a cleanup and for an event. -/
def drawsTwo (s : TerminalState) (cleanupId eventId : Uuid) : Bool :=
  cleanupId ∉ s.uuids && eventId ∉ s.uuids

def act (s : TerminalState) : TerminalAction → Option TerminalState
  | .saveJob job => s.saveJob job
  | .deleteJob name => some { s with store := s.store.deleteJob name }
  | .pruneRuns jobName maxRuns olderThan =>
    some { s with store := (s.store.pruneRuns jobName maxRuns olderThan).2 }
  | .claimOccurrence job occurrence now =>
    some (s.attempt ((s.store.claimScheduleOccurrence job occurrence now).map Prod.snd))
  | .finalizeAttempt job run now =>
    some (s.attempt ((s.store.finalizeScheduleAttempt job run now).map Prod.snd))
  | .recoverOccurrences now =>
    some { s with store := s.store.recoverScheduleOccurrences now }
  | .callDispatch job runId =>
    if s.booting || runId ∈ s.drawn then none
    else some ({ s with drawn := insert runId s.drawn }.setOwner runId
      (some (.dispatching job .manual false)))
  | .claimDependency job signature upstream runId now =>
    if s.booting || runId ∈ s.drawn then none
    else
      let s' := { s with drawn := insert runId s.drawn }
      match s.store.claimDependencyRun job.name signature
          (pendingRun job (.dependency upstream) runId now) with
      | .ok (true, store) => some ({ s' with store }.setOwner runId
          (some (.dispatching job (.dependency upstream) false)))
      | .ok (false, _) | .error _ => some s'
  | .savePending runId now =>
    match s.owners runId with
    | some (.dispatching job triggeredBy _) =>
      match s.store.saveRun (pendingRun job triggeredBy runId now) with
      | .ok store => some ({ s with store }.setOwner runId
          (some (.dispatching job triggeredBy true)))
      | .error _ => some (s.setOwner runId none)
    | _ => none
  | .saveSkipped runId now =>
    match s.owners runId with
    | some (.dispatching job triggeredBy _) =>
      some ((s.attempt (s.store.saveRun (skippedRun s.store job.name triggeredBy runId
        now))).setOwner runId none)
    | _ => none
  | .register runId queue =>
    match s.owners runId with
    | some (.dispatching job triggeredBy true) =>
      if queue then some (s.setOwner runId (some (.queued job triggeredBy)))
      else some (s.setOwner runId (some (.starting job triggeredBy)))
    | _ => none
  | .admitOccurrence job occurrence now runId =>
    if s.booting || runId ∈ s.drawn then none
    else
      let s' := { s with drawn := insert runId s.drawn }
      match s.store.admitScheduleOccurrence job occurrence now runId with
      | .ok (.start admitted, store) => some ({ s' with store }.setOwner runId
          (some (.starting job (.scheduled admitted.occurrence))))
      | .ok (_, store) => some { s' with store }
      | .error _ => some s'
  | .promote runId =>
    match s.owners runId with
    | some (.queued job triggeredBy) =>
      some (s.setOwner runId (some (.starting job triggeredBy)))
    | _ => none
  | .dequeue runId =>
    match s.owners runId with
    | some (.queued job _) => some (s.setOwner runId (some (.cancelling job.name none)))
    | _ => none
  | .dropQueued runId =>
    match s.owners runId with
    | some (.queued _ _) => some (s.setOwner runId none)
    | _ => none
  | .saveRunning runId now =>
    match s.owners runId with
    | some (.starting job triggeredBy) =>
      let run := runningRun job triggeredBy runId now
      some ((s.attempt (s.store.saveRun run)).setOwner runId (some (.runner ⟨job, run, .running⟩)))
    | _ => none
  | .endRun runId state outcome =>
    match s.owners runId with
    | some (.runner ⟨job, run, .running⟩) =>
      if state.isTerminal && state ≠ .skipped then
        some (s.setOwner runId (some (.runner ⟨job, { run with
          state
          startedAt := some outcome.startedAt
          endedAt := some outcome.endedAt
          exitCode := outcome.exitCode }, .ended⟩)))
      else none
    | _ => none
  | .commitTerminal runId now cleanupId eventId =>
    match s.owners runId with
    | some (.runner ⟨_, run, .ended⟩) =>
      if s.drawsTwo cleanupId eventId then
        some (s.commit runId run (terminalEvent run now cleanupId eventId))
      else none
    | _ => none
  | .enqueueCleanup ticket =>
    match s.owners ticket.runId with
    | some (.runner task) =>
      if ScheduleState.RunnerTask.enqueues task ticket && ticket.intendedTerminalState.isTerminal &&
          ticket.cleanupId ∉ s.uuids then
        match s.store.enqueueTransientCleanup ticket with
        | .ok store => some ({ s with
            store
            uuids := insert ticket.cleanupId s.uuids }.setOwner ticket.runId none)
        | .error _ => none
      else none
    | _ => none
  | .abandon runId =>
    match s.owners runId with
    | some (.dispatching ..) | some (.cancelling ..) | some (.starting ..) | some (.runner _) =>
      some (s.setOwner runId none)
    | _ => none
  | .readCancelled runId =>
    match s.owners runId with
    | some (.cancelling jobName none) =>
      match s.store.getRun jobName runId with
      | some run => some (s.setOwner runId (some (.cancelling jobName (some run))))
      | none => some (s.setOwner runId none)
    | _ => none
  | .commitCancelled runId now cleanupId eventId =>
    match s.owners runId with
    | some (.cancelling jobName (some run)) =>
      if s.drawsTwo cleanupId eventId then
        some (s.commit runId
          { run with
            state := .cancelled
            endedAt := some now }
          (cancelledTerminalEvent jobName runId now cleanupId eventId))
      else none
    | _ => none
  | .snapshotQueue job runIds =>
    if runIds.Nodup ∧ runIds.all fun runId =>
        (s.owners runId).any fun
          | .queued owner _ => owner.id = job.id
          | _ => false then
      some { s with snapshots := s.snapshots ++ [(job.name, runIds)] }
    else none
  | .cancelQueued snapshot now ids =>
    match s.snapshots[snapshot]? with
    | some (jobName, runIds) =>
      if ids.length = runIds.length ∧ (ids.flatMap fun id => [id.1, id.2]).Nodup ∧
          ids.all fun id => s.drawsTwo id.1 id.2 then
        -- the journal goes to `CancellationStarted` in the same transaction
        some { s.attempt (s.store.cancelPendingRuns jobName
            (cancelledEvents jobName runIds now ids)) with
          snapshots := s.snapshots.eraseIdx snapshot
          uuids := s.uuids ∪ (ids.flatMap fun id => [id.1, id.2]).toFinset }
      else none
    | none => none
  | .bootTake runId =>
    match s.store.findRun runId with
    | some run =>
      if s.booting && !run.state.isTerminal && !s.store.isDurableScheduleRun runId &&
          (s.owners runId).isNone then
        some (s.setOwner runId (some (.cancelling run.jobName (some run))))
      else none
    | none => none
  | .finishBoot => some { s with booting := false }
  | .takeTicket cleanupId =>
    match KeyedRows.find CleanupTicket.cleanupId cleanupId s.store.cleanups with
    | some ticket => some { s with works := s.works ++ [⟨ticket, none⟩] }
    | none => none
  | .updateTicket cleanupId stage error =>
    some { s with store := s.store.updateTransientCleanup cleanupId stage error }
  | .readWork work =>
    match s.works[work]? with
    | some ⟨ticket, none⟩ =>
      match s.store.getRun ticket.jobName ticket.runId with
      | some run => some { s with works := s.works.set work ⟨ticket, some run⟩ }
      | none => some { s with
          store := s.store.completeTransientCleanup ticket.cleanupId
          works := s.works.eraseIdx work }
    | _ => none
  | .commitWork work eventId =>
    match s.works[work]? with
    | some ⟨ticket, some run⟩ =>
      if eventId ∉ s.uuids then
        some { s.attempt (s.store.commitTransientCleanupTerminal ticket (ticket.terminalRun run)
            eventId) with
          works := s.works.eraseIdx work
          uuids := insert eventId s.uuids }
      else none
    | _ => none
  | .dropWork work => some { s with works := s.works.eraseIdx work }
  | .acknowledge eventId cleanupId =>
    some { s with store := s.store.acknowledgeTransientTerminalEvent eventId cleanupId }
  | .crash =>
    some { s with owners := fun _ => none, snapshots := [], works := [], booting := true }

theorem act_recoverOccurrences (s : TerminalState) (now : Instant) :
    s.act (.recoverOccurrences now) =
      some { s with store := s.store.recoverScheduleOccurrences now } := by
  simp only [act]

/-- Record the events that a step added to the outbox. -/
def observe (s t : TerminalState) : TerminalState :=
  { t with
    written := s.written ++
      (t.store.outbox.filter (· ∉ s.store.outbox)).map fun event => (event.runId, event.eventId) }

end TerminalState

/-- Everything that writes the run rows, the cleanup tickets or the outbox of one
daemon over restarts. -/
def terminalSystem : Machine TerminalState TerminalAction :=
  ⟨fun s action => (s.act action).map s.observe⟩

end Supervisor
