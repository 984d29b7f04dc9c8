import Supervisor.AppError
import Supervisor.TerminalSystem

namespace Supervisor

/-- How far a deletion has been persisted. -/
inductive JobDeletionStage where
  | prepared | dispatchFrozen | schedulerUnregistered
  /-- A failure before the cancellation; recovery only restores the dispatch. -/
  | rollbackRequired
  | cancellationStarted | runsDraining | rowsDeleted | logsCleaning | completed
deriving DecidableEq, Repr

/-- `is_pre_cancellation_deletion_stage` -/
def JobDeletionStage.isPreCancellation : JobDeletionStage → Bool
  | .prepared | .dispatchFrozen | .schedulerUnregistered | .rollbackRequired => true
  | .cancellationStarted | .runsDraining | .rowsDeleted | .logsCleaning | .completed => false

structure JobDeletionJournal where
  deletionId : Uuid
  job : Job
  stage : JobDeletionStage
  runIds : List JobRunId := []
  lastError : Option String := none
deriving DecidableEq

/-- The primary key of the journal table. -/
def JobDeletionJournal.jobName (j : JobDeletionJournal) : String := j.job.name

/-- What the operations on jobs share: the job repository, and in memory the
scheduler's registrations and the jobs whose dispatch is frozen. -/
structure JobPlane where
  store : Store := {}
  deletions : List JobDeletionJournal := []
  armed : String → Option Job := fun _ => none
  frozen : Finset JobId := ∅

namespace JobPlane

def registerJob (p : JobPlane) (job : Job) : JobPlane :=
  { p with armed := Function.update p.armed job.name (some job) }

def unregister (p : JobPlane) (name : String) : JobPlane :=
  { p with armed := Function.update p.armed name none }

def freezeDispatch (p : JobPlane) (jobId : JobId) : JobPlane :=
  { p with frozen := insert jobId p.frozen }

def thawDispatch (p : JobPlane) (jobId : JobId) : JobPlane :=
  { p with frozen := p.frozen.erase jobId }

/-- A journal that is stored under the name stays. -/
def createJobDeletionJournal (p : JobPlane) (journal : JobDeletionJournal) :
    Except RepoError JobPlane :=
  if p.deletions.any fun j => j.jobName = journal.jobName then .ok p
  else if p.deletions.any fun j => j.deletionId = journal.deletionId then .error Store.uniqueFailed
  else .ok { p with deletions := p.deletions ++ [journal] }

def getJobDeletionJournal (p : JobPlane) (name : String) : Option JobDeletionJournal :=
  KeyedRows.find JobDeletionJournal.jobName name p.deletions

def listIncompleteJobDeletions (p : JobPlane) : List JobDeletionJournal :=
  p.deletions.insertionSort fun a b => a.jobName ≤ b.jobName

/-- Whatever the stage was. -/
def updateJobDeletionJournal (p : JobPlane) (deletionId : Uuid) (stage : JobDeletionStage)
    (error : Option String) : Except RepoError JobPlane :=
  if p.deletions.any fun j => j.deletionId = deletionId then
    .ok { p with
      deletions := KeyedRows.update JobDeletionJournal.deletionId deletionId
        (fun j => { j with stage, lastError := error }) p.deletions }
  else .error (.conflict "job deletion journal is missing")

/-- One transaction: the queued runs end `Cancelled`, each with its event, and
the journal passes the cancellation boundary. -/
def cancelQueuedRunsForJobDeletion (p : JobPlane) (deletionId : Uuid) (jobName : String)
    (events : List TransientTerminalEvent) : Except RepoError JobPlane :=
  (p.store.cancelPendingRuns jobName events).bind fun store =>
    if p.deletions.any fun j => j.deletionId = deletionId && j.jobName = jobName
        && j.stage = .schedulerUnregistered then
      .ok { p with
        store
        deletions := KeyedRows.update JobDeletionJournal.deletionId deletionId
          (fun j => { j with stage := .cancellationStarted, lastError := none }) p.deletions }
    else .error (.conflict "job deletion journal is not ready for cancellation")

/-- One transaction: the rows of the name go, their runs are handed to the log
cleanup, and the journal keeps the run ids. -/
def commitJobDeletionRows (p : JobPlane) (deletionId : Uuid) (jobName : String) :
    Except RepoError (List JobRunId × JobPlane) :=
  match p.deletions.find? fun j => j.deletionId = deletionId && j.jobName = jobName with
  | none => .error (.conflict "job deletion journal is missing")
  | some journal =>
    if journal.stage ≠ .runsDraining then
      .error (.conflict "job deletion journal is not ready for row deletion")
    else
      let runIds := ((p.store.runs.filter fun run => run.jobName = jobName).map
        (·.runId)).insertionSort fun a b => a.val ≤ b.val
      .ok (runIds, { p with
        store := p.store.deleteJob jobName
        deletions := KeyedRows.update JobDeletionJournal.deletionId deletionId
          (fun j => { j with stage := .rowsDeleted, runIds, lastError := none }) p.deletions })

def clearJobDeletionJournal (p : JobPlane) (deletionId : Uuid) : JobPlane :=
  { p with deletions := p.deletions.filter fun j => j.deletionId ≠ deletionId }

def completeRunLogCleanup (p : JobPlane) (runId : JobRunId) : JobPlane :=
  { p with
    store := { p.store with runLogCleanup := p.store.runLogCleanup.filter (· ≠ runId) } }

end JobPlane

/-- How an awaited call ends. One that fails changes nothing. -/
inductive CallResult where
  | done
  | failed (error : String)
deriving DecidableEq, Repr

/-- A repository call. -/
def CallResult.run {α : Type} (r : CallResult) (call : Except RepoError α) : Except RepoError α :=
  match r with
  | .done => call
  | .failed error => .error (.backend error)

inductive JobDeletionResumeIntent where
  | foreground | recovery
deriving DecidableEq, Repr

/-- The call that `resume_job_deletion` waits for. -/
inductive DeletionPoint where
  /-- Recording `DispatchFrozen`. -/
  | freezing
  | unregistering
  /-- Recording `SchedulerUnregistered`. -/
  | unregistered
  | cancelling
  /-- Recording `RunsDraining`. -/
  | startingDrain
  | draining
  | deletingRows
  /-- Recording `LogsCleaning`. -/
  | startingCleaning
  /-- Removing the log of `runId`; the others are to come. -/
  | removing (runId : JobRunId) (rest : List JobRunId)
  | removed (runId : JobRunId) (rest : List JobRunId)
  | removalFailed (error : String)
  /-- Recording an error before the deletion gives up. -/
  | failing (error : String)
  /-- Recording `Completed`. -/
  | completing
  | clearing
  /-- Recording `RollbackRequired` for an error, which is then returned. -/
  | directing (message : String) (error : AppError)
  /-- Registering the job again; `result` is what a rollback that succeeds returns. -/
  | reregistering (result : Except AppError Unit)
  | clearingRollback (result : Except AppError Unit)

/-- One run of `resume_job_deletion`, with its copy of the journal. -/
structure DeletionSaga where
  journal : JobDeletionJournal
  point : DeletionPoint

/-- What a saga is given: the answer of a call, with what the run registry and
the clock say at that moment. -/
inductive DeletionInput where
  | call (r : CallResult)
  | cancel (r : CallResult) (now : Instant) (queued : List JobRunId) (ids : List (Uuid × Uuid))
  /-- The runners have been joined; `idle` when the registry holds no run of the job. -/
  | drain (joined : CallResult) (idle : Bool)

inductive DeletionOutcome where
  | running (saga : DeletionSaga)
  | finished (result : Except AppError Unit)

namespace DeletionSaga

/-- Where `resume_job_deletion` goes for a journal. -/
def enter (p : JobPlane) (journal : JobDeletionJournal) (intent : JobDeletionResumeIntent) :
    JobPlane × DeletionSaga :=
  if journal.stage = .rollbackRequired ||
      (intent = .recovery && journal.stage.isPreCancellation) then
    (p, ⟨journal, .reregistering (.ok ())⟩)
  else
    (p.freezeDispatch journal.job.id, ⟨journal, match journal.stage with
      | .prepared => .freezing
      | .dispatchFrozen => .unregistering
      | .schedulerUnregistered => .cancelling
      | .cancellationStarted | .runsDraining => .startingDrain
      | .rowsDeleted | .logsCleaning => .startingCleaning
      | .completed => .clearing
      | .rollbackRequired => .reregistering (.ok ())⟩)

/-- On to the next call, with the journal at a new stage. -/
def advance (g : DeletionSaga) (stage : JobDeletionStage) (point : DeletionPoint) :
    DeletionOutcome :=
  .running ⟨{ g.journal with stage }, point⟩

def goTo (g : DeletionSaga) (point : DeletionPoint) : DeletionOutcome := .running ⟨g.journal, point⟩

/-- The loop over the logs. -/
def cleanNext : List JobRunId → DeletionPoint
  | [] => .completing
  | runId :: rest => .removing runId rest

def recoveryRequired (g : DeletionSaga) : AppError :=
  .jobDeletionRecoveryRequired
    (g.journal.job.name ++ " (" ++ toString g.journal.deletionId ++ ")")

/-- Record a stage, and go on when that succeeds. -/
def record (p : JobPlane) (g : DeletionSaga) (r : CallResult) (stage : JobDeletionStage)
    (point : DeletionPoint) : JobPlane × DeletionOutcome :=
  match r.run (p.updateJobDeletionJournal g.journal.deletionId stage none) with
  | .ok p' => (p', g.advance stage point)
  | .error e => (p, .finished (.error e.toAppError))

/-- The code from one awaited call to the next. -/
def step (p : JobPlane) (g : DeletionSaga) (input : DeletionInput) :
    Option (JobPlane × DeletionOutcome) :=
  let deletionId := g.journal.deletionId
  let job := g.journal.job
  match g.point, input with
  | .freezing, .call r =>
    match r.run (p.updateJobDeletionJournal deletionId .dispatchFrozen none) with
    | .ok p' => some (p', g.advance .dispatchFrozen .unregistering)
    | .error e => some (p.thawDispatch job.id, .finished (.error e.toAppError))
  | .unregistering, .call r =>
    match r with
    | .done => some (p.unregister job.name, g.goTo .unregistered)
    | .failed e =>
      some (p, g.goTo (.directing ("scheduler error: " ++ e) (.internal ("scheduler: " ++ e))))
  | .unregistered, .call r => some (record p g r .schedulerUnregistered .cancelling)
  | .cancelling, .cancel r now queued ids =>
    let events := TerminalState.cancelledEvents job.name queued now ids
    match r.run (p.cancelQueuedRunsForJobDeletion deletionId job.name events) with
    | .ok p' => some (p', g.advance .cancellationStarted .startingDrain)
    | .error e => some (p, g.goTo (.directing e.message e.toAppError))
  | .startingDrain, .call r => some (record p g r .runsDraining .draining)
  | .draining, .drain joined idle =>
    match joined with
    | .failed e => some (p, g.goTo (.failing ("job drain join failed: " ++ e)))
    | .done =>
      if idle then some (p, g.goTo .deletingRows)
      else some (p, g.goTo (.failing "job drain did not release every active run"))
  | .deletingRows, .call r =>
    match r.run (p.commitJobDeletionRows deletionId job.name) with
    | .ok (runIds, p') =>
      some (p', .running ⟨{ g.journal with stage := .rowsDeleted, runIds }, .startingCleaning⟩)
    | .error e => some (p, g.goTo (.failing e.message))
  | .startingCleaning, .call r =>
    some (record p g r .logsCleaning (cleanNext g.journal.runIds))
  | .removing runId rest, .call r =>
    match r with
    | .done => some (p, g.goTo (.removed runId rest))
    | .failed e => some (p, g.goTo (.removalFailed e))
  | .removed runId rest, .call r =>
    match r with
    | .done => some (p.completeRunLogCleanup runId, g.goTo (cleanNext rest))
    | .failed e => some (p, .finished (.error (RepoError.backend e).toAppError))
  | .removalFailed e, .call _ => some (p, g.goTo (.failing e))
  | .failing error, .call r =>
    -- whether the error was recorded is not looked at
    match r.run (p.updateJobDeletionJournal deletionId g.journal.stage (some error)) with
    | .ok p' => some (p', .finished (.error g.recoveryRequired))
    | .error _ => some (p, .finished (.error g.recoveryRequired))
  | .completing, .call r =>
    match r.run (p.updateJobDeletionJournal deletionId .completed none) with
    | .ok p' => some (p', g.goTo .clearing)
    | .error e => some (p, .finished (.error e.toAppError))
  | .clearing, .call r =>
    match r with
    | .done =>
      some ((p.thawDispatch job.id).clearJobDeletionJournal deletionId, .finished (.ok ()))
    | .failed e =>
      some (p.thawDispatch job.id, .finished (.error (RepoError.backend e).toAppError))
  | .directing message error, .call r =>
    -- a direction that is not persisted is only logged
    match r.run (p.updateJobDeletionJournal deletionId .rollbackRequired (some message)) with
    | .ok p' => some (p', g.goTo (.reregistering (.error error)))
    | .error _ => some (p, g.goTo (.reregistering (.error error)))
  | .reregistering result, .call r =>
    match r with
    | .done =>
      some ((p.registerJob job).thawDispatch job.id, g.goTo (.clearingRollback result))
    | .failed e =>
      some (p.thawDispatch job.id, .finished (.error (.internal ("scheduler: " ++ e))))
  | .clearingRollback result, .call r =>
    match r with
    | .done => some (p.clearJobDeletionJournal deletionId, .finished result)
    | .failed e => some (p, .finished (.error (RepoError.backend e).toAppError))
  | _, _ => none

end DeletionSaga

end Supervisor
