import Supervisor.JobDomain
import Supervisor.KeyedRows

namespace Supervisor

/-- Primary key of the occurrence ledger. -/
structure OccurrenceKey where
  jobId : JobId
  triggerId : Uuid
  scheduleRevision : ℕ
  scheduledAt : Instant
deriving DecidableEq, Repr

def ScheduleOccurrence.key (occurrence : ScheduleOccurrence) (jobId : JobId) : OccurrenceKey :=
  ⟨jobId, occurrence.triggerId, occurrence.scheduleRevision, occurrence.scheduledAt⟩

def DurableScheduleOccurrence.key (d : DurableScheduleOccurrence) : OccurrenceKey :=
  d.occurrence.key d.jobId

structure ScheduleCursor where
  jobId : JobId
  triggerId : Uuid
  scheduleRevision : ℕ
  cursorAt : Instant
deriving DecidableEq, Repr

def ScheduleCursor.key (c : ScheduleCursor) : JobId × Uuid × ℕ :=
  (c.jobId, c.triggerId, c.scheduleRevision)

/-- The tables of the job repository, each in insertion order. -/
structure Store where
  jobs : List Job := []
  runs : List JobRun := []
  occurrences : List DurableScheduleOccurrence := []
  cursors : List ScheduleCursor := []
  dependencySignatures : List (String × List JobRunId) := []
  cleanups : List CleanupTicket := []
  outbox : List TransientTerminalEvent := []
  runLogCleanup : List JobRunId := []
deriving DecidableEq

namespace Store

def getJob (s : Store) (name : String) : Option Job := KeyedRows.find Job.name name s.jobs

def findRun (s : Store) (runId : JobRunId) : Option JobRun :=
  KeyedRows.find JobRun.runId runId s.runs

def getRun (s : Store) (jobName : String) (runId : JobRunId) : Option JobRun :=
  (s.findRun runId).filter fun run => run.jobName = jobName

def findOccurrence (s : Store) (key : OccurrenceKey) : Option DurableScheduleOccurrence :=
  KeyedRows.find DurableScheduleOccurrence.key key s.occurrences

/-- The foreign key of runs and occurrences into `jobs(name, id)`. -/
def hasJob (s : Store) (name : String) (id : JobId) : Bool :=
  s.jobs.any fun job => job.name = name && job.id = id

def setRun (s : Store) (runId : JobRunId) (f : JobRun → JobRun) : Store :=
  { s with runs := KeyedRows.update JobRun.runId runId f s.runs }

def setOccurrence (s : Store) (key : OccurrenceKey)
    (f : DurableScheduleOccurrence → DurableScheduleOccurrence) : Store :=
  { s with occurrences := KeyedRows.update DurableScheduleOccurrence.key key f s.occurrences }

/-- Whether a row equals `run` on the columns of the index `idx_job_runs_occurrence`,
which leaves out the rows whose occurrence is null. -/
def clashesOnOccurrence (run row : JobRun) : Bool :=
  run.occurrence.isSome && row.jobId = run.jobId && row.occurrence = run.occurrence
    && run.originalScheduledAt.isSome && row.originalScheduledAt = run.originalScheduledAt

def foreignKeyFailed : RepoError := .backend "FOREIGN KEY constraint failed"
def uniqueFailed : RepoError := .backend "UNIQUE constraint failed"

/-- `INSERT INTO job_runs` under the constraints of the table. -/
def insertRun (s : Store) (run : JobRun) : Except RepoError Store :=
  if (s.findRun run.runId).isSome then .error uniqueFailed
  else if s.runs.any (clashesOnOccurrence run) then .error uniqueFailed
  else if s.hasJob run.jobName run.jobId then .ok { s with runs := s.runs ++ [run] }
  else .error foreignKeyFailed

/-- Insert a definition, or replace the one of that name under its old id. -/
def saveJob (s : Store) (job : Job) : Store :=
  match s.getJob job.name with
  | none => { s with jobs := s.jobs ++ [job] }
  | some old =>
    { s with jobs := KeyedRows.update Job.name job.name (fun _ => { job with id := old.id }) s.jobs }

/-- Delete a definition; its runs go by name, its occurrences by the foreign key. -/
def deleteJob (s : Store) (name : String) : Store :=
  let removed := (s.runs.filter fun run => run.jobName = name).map (·.runId)
  { s with
    jobs := s.jobs.filter fun job => job.name ≠ name
    runs := s.runs.filter fun run => run.jobName ≠ name
    occurrences := s.occurrences.filter fun d => d.jobName ≠ name
    dependencySignatures := s.dependencySignatures.filter fun row => row.1 ≠ name
    runLogCleanup := s.runLogCleanup ++ removed.filter (· ∉ s.runLogCleanup) }

/-- Upsert a run. On a conflict the identity columns keep their old values, so
the new row must name the same job. -/
def saveRun (s : Store) (run : JobRun) : Except RepoError Store :=
  if !s.hasJob run.jobName run.jobId then
    .error (.conflict "run parent job identity is missing or stale")
  else
    match s.findRun run.runId with
    | none => s.insertRun run
    | some old =>
      if old.jobName ≠ run.jobName || old.jobId ≠ run.jobId then
        .error (.conflict "run identity is stale")
      else if s.runs.any fun row => row.runId ≠ run.runId && clashesOnOccurrence run row then
        .error uniqueFailed
      else
        .ok (s.setRun run.runId fun old => { old with
          startedAt := run.startedAt
          endedAt := run.endedAt
          exitCode := run.exitCode
          state := run.state
          occurrence := run.occurrence
          originalScheduledAt := run.originalScheduledAt })

def advanceCursor (s : Store) (jobId : JobId) (occurrence : ScheduleOccurrence) : Store :=
  let cursor : ScheduleCursor :=
    ⟨jobId, occurrence.triggerId, occurrence.scheduleRevision, occurrence.scheduledAt⟩
  match KeyedRows.find ScheduleCursor.key cursor.key s.cursors with
  | none => { s with cursors := s.cursors ++ [cursor] }
  | some _ =>
    { s with
      cursors := KeyedRows.update ScheduleCursor.key cursor.key
        (fun old => { old with cursorAt := max cursor.cursorAt old.cursorAt }) s.cursors }

def scheduleCursor (s : Store) (job : Job) : Option Instant :=
  (KeyedRows.find ScheduleCursor.key (job.id, job.triggerId, job.scheduleRevision) s.cursors).map
    (·.cursorAt)

/-- Record a due occurrence once; a second claim finds the row of the first. -/
def claimScheduleOccurrence (s : Store) (job : Job) (occurrence : ScheduleOccurrence)
    (now : Instant) : Except RepoError (DurableScheduleOccurrence × Store) :=
  match s.findOccurrence (occurrence.key job.id) with
  | some durable => .ok (durable, s.advanceCursor job.id occurrence)
  | none =>
    let durable : DurableScheduleOccurrence :=
      { jobId := job.id, jobName := job.name, occurrence, state := .claimed, nextAttemptAt := now }
    if s.hasJob job.name job.id then
      .ok (durable,
        { s with occurrences := s.occurrences ++ [durable] }.advanceCursor job.id occurrence)
    else .error foreignKeyFailed

/-- The waiting occurrences whose time has come, oldest scheduled time first. -/
def listDueScheduleOccurrences (s : Store) (now : Instant) (limit : ℕ) :
    List DurableScheduleOccurrence :=
  ((s.occurrences.filter fun d => d.state.isWaiting && d.nextAttemptAt ≤ now).insertionSort
    fun a b => a.occurrence.scheduledAt ≤ b.occurrence.scheduledAt).take limit

/-- The occurrences of a job that hold a concurrency slot. -/
def runningOccurrences (s : Store) (jobId : JobId) : ℕ :=
  s.occurrences.countP fun d => d.jobId = jobId && d.state = .running

def waitingOccurrences (s : Store) (jobId : JobId) : ℕ :=
  s.occurrences.countP fun d => d.jobId = jobId && d.state.isWaiting

/-- The row an admission writes to `job_runs`. -/
def occurrenceRun (job : Job) (occurrence : ScheduleOccurrence) (runId : JobRunId)
    (state : JobRunState) (endedAt : Option Instant) : JobRun :=
  { runId
    jobName := job.name
    jobId := job.id
    triggeredBy := .scheduled occurrence
    scheduledAt := occurrence.scheduledAt
    endedAt
    state
    occurrence := some occurrence
    originalScheduledAt := some occurrence.scheduledAt }

/-- Decide one waiting occurrence: start it, keep it queued, or skip it when
the queue is over-full. `runId` is the id drawn for the run row. -/
def admitScheduleOccurrence (s : Store) (job : Job) (occurrence : ScheduleOccurrence)
    (now : Instant) (runId : JobRunId) : Except RepoError (ScheduleAdmission × Store) :=
  let key := occurrence.key job.id
  match s.findOccurrence key with
  | none => .error (.notFound "schedule occurrence")
  | some durable =>
    if durable.state = .finalized then .ok (.finalized durable, s)
    else if durable.state = .running then .ok (.queued durable, s)
    else if job.admission.maxConcurrency.val ≤ s.runningOccurrences job.id then
      if job.admission.maxQueue.val < s.waitingOccurrences job.id then
        let skip (d : DurableScheduleOccurrence) : DurableScheduleOccurrence :=
          { d with state := .finalized, runId := some runId, finalState := some .skipped }
        ((s.setOccurrence key skip).insertRun
          (occurrenceRun job occurrence runId .skipped (some now))).map (.finalized (skip durable), ·)
      else
        let queue (d : DurableScheduleOccurrence) : DurableScheduleOccurrence :=
          { d with state := .queued }
        .ok (.queued (queue durable), s.setOccurrence key queue)
    else
      let start (d : DurableScheduleOccurrence) : DurableScheduleOccurrence :=
        { d with state := .running, runId := some runId }
      ((s.setOccurrence key start).insertRun
        (occurrenceRun job occurrence runId .pending none)).map (.start (start durable), ·)

/-- `u64` arithmetic that stops at the largest value. -/
def satMul (a b : ℕ) : ℕ := min (a * b) (2^64 - 1)
def satAdd (a b : ℕ) : ℕ := min (a + b) (2^64 - 1)
def satPow (a n : ℕ) : ℕ := min (a ^ n) (2^64 - 1)

/-- Seconds until the next attempt after a failed one. The run id spreads the
retries over the jitter interval. -/
def retryDelay (policy : RetryPolicy) (attempt : U16) (runId : JobRunId) : ℕ :=
  let exponent := attempt.val - 1
  let multiplier := satPow (max policy.multiplier.val 1) exponent
  let delay := min (satMul (Duration.asSecs policy.initialBackoff) multiplier)
    (Duration.asSecs policy.maxBackoff)
  let jitter := satMul delay (min policy.jitterPercent.val 100) / 100
  let width := satAdd (satMul jitter 2) 1
  let offset := if width = 0 then 0 else runId.val % 2^64 % width
  satAdd (delay - jitter) offset

/-- Settle the occurrence behind a terminal run: back to the waiting set while
a failed attempt may be retried, and final otherwise. -/
def finalizeScheduleAttempt (s : Store) (job : Job) (run : JobRun) (now : Instant) :
    Except RepoError (ScheduleFinalization × Store) :=
  match run.occurrence with
  | none => .error (.notFound "scheduled occurrence")
  | some occurrence =>
    let key := occurrence.key job.id
    match (s.findOccurrence key).filter fun d => d.runId = some run.runId with
    | none => .error (.backend "no rows returned by a query that expected to return at least one row")
    | some durable =>
      if run.state = .failed ∧ durable.occurrence.attempt < job.retryPolicy.maxAttempts then
        let retryAt : Instant :=
          now + retryDelay job.retryPolicy durable.occurrence.attempt run.runId * nanosPerSec
        let retry (d : DurableScheduleOccurrence) : DurableScheduleOccurrence :=
          { d with
            occurrence := { d.occurrence with attempt := d.occurrence.attempt.saturatingAdd 1 }
            state := .retryPending
            nextAttemptAt := retryAt
            runId := none
            finalState := none }
        .ok (.retry (retry durable), s.setOccurrence key retry)
      else
        let final (d : DurableScheduleOccurrence) : DurableScheduleOccurrence :=
          { d with state := .finalized, finalState := some run.state }
        .ok (.finalized (final durable), s.setOccurrence key final)

/-- After a restart: every occurrence that was running waits again. -/
def recoverScheduleOccurrences (s : Store) (now : Instant) : Store :=
  { s with
    occurrences := s.occurrences.map fun d =>
      if d.state = .running then
        { d with state := .retryPending, nextAttemptAt := now, runId := none }
      else d }

/-- The update both terminal commits begin with. -/
def updateTerminalRun (s : Store) (run : JobRun) : Except RepoError Store :=
  match (s.findRun run.runId).filter fun row => row.jobName = run.jobName && row.jobId = run.jobId with
  | none => .error (.conflict "run parent job identity is missing or stale")
  | some _ =>
    .ok (s.setRun run.runId fun row => { row with
      startedAt := run.startedAt, endedAt := run.endedAt, exitCode := run.exitCode
      state := run.state })

/-- `INSERT INTO transient_terminal_outbox … ON CONFLICT(cleanup_id) DO NOTHING`. -/
def insertOutbox (s : Store) (event : TransientTerminalEvent) : Except RepoError Store :=
  if s.outbox.any fun row => row.cleanupId = event.cleanupId then .ok s
  else if s.outbox.any fun row => row.eventId = event.eventId then .error uniqueFailed
  else .ok { s with outbox := s.outbox ++ [event] }

/-- Commit a terminal run together with the event that announces it. -/
def commitTerminalRunWithEvent (s : Store) (run : JobRun) (event : TransientTerminalEvent) :
    Except RepoError Store :=
  (s.updateTerminalRun run).bind (·.insertOutbox event)

/-- Hand an unreaped run over to the cleanup worker; one ticket per run. -/
def enqueueTransientCleanup (s : Store) (ticket : CleanupTicket) : Except RepoError Store :=
  match s.cleanups.find? fun t => t.runId = ticket.runId with
  | some _ =>
    .ok { s with
      cleanups := KeyedRows.update CleanupTicket.runId ticket.runId
        (fun t => { t with
          stage := ticket.stage
          attempts := t.attempts + 1
          lastError := ticket.lastError
          outcome := ticket.outcome }) s.cleanups }
  | none =>
    if s.cleanups.any fun t => t.cleanupId = ticket.cleanupId then .error uniqueFailed
    else .ok { s with cleanups := s.cleanups ++ [ticket] }

def updateTransientCleanup (s : Store) (cleanupId : Uuid) (stage : TransientCleanupStage)
    (error : Option String) : Store :=
  { s with
    cleanups := KeyedRows.update CleanupTicket.cleanupId cleanupId
      (fun t => { t with stage, attempts := t.attempts + 1, lastError := error }) s.cleanups }

def completeTransientCleanup (s : Store) (cleanupId : Uuid) : Store :=
  { s with cleanups := s.cleanups.filter fun t => t.cleanupId ≠ cleanupId }

/-- Commit the terminal run of a cleanup ticket; the ticket itself stays until
its event is acknowledged. -/
def commitTransientCleanupTerminal (s : Store) (ticket : CleanupTicket) (run : JobRun)
    (eventId : Uuid) : Except RepoError Store :=
  (s.updateTerminalRun run).bind (·.insertOutbox
    { cleanupId := ticket.cleanupId
      eventId
      occurredAt := ticket.outcome.endedAt
      jobName := ticket.jobName
      runId := ticket.runId
      state := run.state
      exitCode := run.exitCode })

def acknowledgeTransientTerminalEvent (s : Store) (eventId cleanupId : Uuid) : Store :=
  if s.outbox.any fun row => row.cleanupId = cleanupId && row.eventId = eventId then
    { s with
      outbox := s.outbox.filter fun row => ¬(row.cleanupId = cleanupId ∧ row.eventId = eventId)
      cleanups := s.cleanups.filter fun t => t.cleanupId ≠ cleanupId }
  else s

/-- The newest runs of a job by scheduled time; the index returns equal times
in insertion order. -/
def listRuns (s : Store) (jobName : String) (limit : ℕ) : List JobRun :=
  ((s.runs.filter fun run => run.jobName = jobName).insertionSort
    fun a b => b.scheduledAt ≤ a.scheduledAt).take limit

/-- Delete terminal runs beyond the retention limits. -/
def pruneRuns (s : Store) (jobName : String) (maxRuns : Option ℕ) (olderThan : Option Instant) :
    List JobRunId × Store :=
  if maxRuns.isNone && olderThan.isNone then ([], s)
  else
    let rows := (s.runs.filter fun run => run.jobName = jobName && run.state.isTerminal).insertionSort
      fun a b => b.scheduledAt ≤ a.scheduledAt
    let removed := (rows.zipIdx.filter fun (run, position) =>
      maxRuns.any (· ≤ position) ||
        olderThan.any (run.endedAt.getD run.scheduledAt < ·)).map (·.1.runId)
    (removed, { s with
      runs := s.runs.filter fun run => run.runId ∉ removed
      runLogCleanup := s.runLogCleanup ++ removed.filter (· ∉ s.runLogCleanup) })

/-- Store the dependency run of a signature unless the job's last claim was for
the same signature. -/
def claimDependencyRun (s : Store) (jobName : String) (signature : List JobRunId) (run : JobRun) :
    Except RepoError (Bool × Store) :=
  if s.dependencySignatures.any fun row => row.1 = jobName && row.2 = signature then .ok (false, s)
  else
    let rows := s.dependencySignatures.filter fun row => row.1 ≠ jobName
    ({ s with dependencySignatures := rows ++ [(jobName, signature)] }.insertRun run).map (true, ·)

end Store

/-- The transactions other components run against the job repository. -/
inductive StoreOp where
  | saveJob (job : Job)
  | deleteJob (name : String)
  | saveRun (run : JobRun)
  | claimOccurrence (job : Job) (occurrence : ScheduleOccurrence) (now : Instant)
  | finalizeAttempt (job : Job) (run : JobRun) (now : Instant)
  | commitTerminal (run : JobRun) (event : TransientTerminalEvent)
  | commitCleanup (ticket : CleanupTicket) (run : JobRun) (eventId : Uuid)
  | pruneRuns (jobName : String) (maxRuns : Option ℕ) (olderThan : Option Instant)
  | claimDependency (jobName : String) (signature : List JobRunId) (run : JobRun)

/-- A transaction that fails is rolled back. -/
def Store.apply (s : Store) : StoreOp → Store
  | .saveJob job => s.saveJob job
  | .deleteJob name => s.deleteJob name
  | .saveRun run => (s.saveRun run).toOption.getD s
  | .claimOccurrence job occurrence now =>
    ((s.claimScheduleOccurrence job occurrence now).map Prod.snd).toOption.getD s
  | .finalizeAttempt job run now =>
    ((s.finalizeScheduleAttempt job run now).map Prod.snd).toOption.getD s
  | .commitTerminal run event => (s.commitTerminalRunWithEvent run event).toOption.getD s
  | .commitCleanup ticket run eventId =>
    (s.commitTransientCleanupTerminal ticket run eventId).toOption.getD s
  | .pruneRuns jobName maxRuns olderThan => (s.pruneRuns jobName maxRuns olderThan).2
  | .claimDependency jobName signature run =>
    ((s.claimDependencyRun jobName signature run).map Prod.snd).toOption.getD s

end Supervisor
