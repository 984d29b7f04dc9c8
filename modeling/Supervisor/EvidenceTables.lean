import Supervisor.Machine
import Supervisor.OperatorEvents

namespace Supervisor

/-- A change of the tables that leaves an operator event. -/
inductive Transition where
  | claimed (job : Job) (occurrence : ScheduleOccurrence)
  | queued (job : Job) (occurrence : ScheduleOccurrence)
  | overflowed (job : Job) (occurrence : ScheduleOccurrence) (runId : JobRunId)
  | started (job : Job) (occurrence : ScheduleOccurrence) (runId : JobRunId)
  | retryPending (job : Job) (run : JobRun)
  | finalized (job : Job) (run : JobRun)
  | recovered (row : DurableScheduleOccurrence)
  | generationAdvanced (instance_ : ProcessInstance)
  | restartScheduled (instance_ : ProcessInstance) (count : U32)
deriving DecidableEq

def runStateToStr : JobRunState → List Char
  | .pending => "pending".toList
  | .running => "running".toList
  | .succeeded => "succeeded".toList
  | .failed => "failed".toList
  | .timedOut => "timed_out".toList
  | .cancelled => "cancelled".toList
  | .skipped => "skipped".toList

namespace Transition

def key : Transition → EventKey
  | claimed job occurrence => .claim (occurrence.key job.id)
  | queued job occurrence => .queued (occurrence.key job.id)
  | overflowed _ _ runId => .overflow runId
  | started _ _ runId => .start runId
  | retryPending _ run => .retry run.runId
  | finalized _ run => .finalized run.runId
  | recovered row =>
    .recovery row.jobId row.occurrence.triggerId (asI64 row.occurrence.scheduleRevision)
      row.occurrence.scheduledAt row.runId
  | generationAdvanced instance_ => .generation instance_.id (instance_.generation.val + 1)
  | restartScheduled instance_ count => .restart instance_.id instance_.generation.val count.val

def jobSource (name : String) : List Char := "job:".toList ++ name.toList

def instanceSource (id : ProcessInstanceId) : List Char :=
  "process-instance:".toList ++ uuidText id.val

def source : Transition → List Char
  | claimed job _ | queued job _ | overflowed job _ _ | started job _ _ | retryPending job _
  | finalized job _ => jobSource job.name
  | recovered row => jobSource row.jobName
  | generationAdvanced instance_ | restartScheduled instance_ _ => instanceSource instance_.id

def severity : Transition → AlertSeverity
  | claimed _ _ | queued _ _ | started _ _ _ | generationAdvanced _ => .info
  | overflowed _ _ _ | retryPending _ _ | recovered _ | restartScheduled _ _ => .warning
  | finalized _ run => if run.state = .succeeded then .info else .warning

def occurrenceMessage (occurrence : ScheduleOccurrence) (what : String) : List Char :=
  "scheduled occurrence ".toList ++ Rfc3339.toDisplay occurrence.scheduledAt ++ what.toList

def message : Transition → List Char
  | claimed _ occurrence => occurrenceMessage occurrence " was claimed"
  | queued _ occurrence => occurrenceMessage occurrence " was queued"
  | overflowed _ occurrence _ => occurrenceMessage occurrence " was skipped by admission overflow"
  | started _ occurrence _ => occurrenceMessage occurrence " was admitted"
  | retryPending _ run => "scheduled run ".toList ++ uuidText run.runId.val ++ " will retry".toList
  | finalized _ run =>
    "scheduled run ".toList ++ uuidText run.runId.val ++ " finalized as ".toList ++
      runStateToStr run.state
  | recovered row =>
    "running scheduled occurrence ".toList ++ Rfc3339.toRfc3339 row.occurrence.scheduledAt ++
      " recovered for retry".toList
  | generationAdvanced instance_ =>
    "process instance generation advanced from ".toList ++ natText instance_.generation.val ++
      " to ".toList ++ natText (instance_.generation.val + 1)
  | restartScheduled _ count =>
    "process instance restart attempt ".toList ++ natText count.val ++ " was scheduled".toList

end Transition

/-- A transition, with the time that its event is given. -/
structure Notice where
  occurredAt : Instant
  transition : Transition
deriving DecidableEq

/-- The arguments of `insert_operator_event` -/
structure EventFields where
  occurredAt : Instant
  source : List Char
  kind : List Char
  severity : AlertSeverity
  message : List Char
  transitionKey : List Char
deriving DecidableEq

def Notice.fields (n : Notice) : EventFields where
  occurredAt := n.occurredAt
  source := n.transition.source
  kind := n.transition.key.kind.text
  severity := n.transition.severity
  message := n.transition.message
  transitionKey := n.transition.key.text

/-- The payload is the text of the event; it stands for the event. -/
structure EventRow where
  id : Uuid
  fields : EventFields
deriving DecidableEq

/-- A key that is taken drops the event; an id that is taken fails the insertion. -/
def insertOperatorEvent (events : List EventRow) (id : Uuid) (n : Notice) :
    Except RepoError (List EventRow) :=
  if events.any fun row => row.fields.transitionKey = n.fields.transitionKey then .ok events
  else if events.any fun row => row.id = id then .error Store.uniqueFailed
  else .ok (events ++ [⟨id, n.fields⟩])

/-- The tables that the operations read and write. The ids of new events are drawn at random. -/
structure EvidenceTables where
  jobs : Store
  processes : ProcessTables
  events : List EventRow

namespace EvidenceTables

def claimScheduleOccurrence (s : EvidenceTables) (job : Job) (occurrence : ScheduleOccurrence)
    (now : Instant) (eventId : Uuid) :
    Except RepoError (DurableScheduleOccurrence × EvidenceTables) := do
  let inserted := (s.jobs.findOccurrence (occurrence.key job.id)).isNone
  let (durable, jobs) ← s.jobs.claimScheduleOccurrence job occurrence now
  let events ←
    if inserted then insertOperatorEvent s.events eventId ⟨now, .claimed job occurrence⟩
    else pure s.events
  return (durable, { s with jobs, events })

/-- The event of an answered admission of a waiting row -/
def admissionNotice (job : Job) (occurrence : ScheduleOccurrence) (now : Instant)
    (runId : JobRunId) : ScheduleAdmission → Notice
  | .start _ => ⟨now, .started job occurrence runId⟩
  | .queued _ => ⟨now, .queued job occurrence⟩
  | .finalized _ => ⟨now, .overflowed job occurrence runId⟩

def admitScheduleOccurrence (s : EvidenceTables) (job : Job) (occurrence : ScheduleOccurrence)
    (now : Instant) (runId : JobRunId) (eventId : Uuid) :
    Except RepoError (ScheduleAdmission × EvidenceTables) := do
  let (admission, jobs) ← s.jobs.admitScheduleOccurrence job occurrence now runId
  -- a row that is finalized or running is answered before the first write
  let waits := (s.jobs.findOccurrence (occurrence.key job.id)).any (·.state.isWaiting)
  let events ←
    if waits then
      insertOperatorEvent s.events eventId (admissionNotice job occurrence now runId admission)
    else pure s.events
  return (admission, { s with jobs, events })

def finalizationNotice (job : Job) (run : JobRun) (now : Instant) : ScheduleFinalization → Notice
  | .retry _ => ⟨now, .retryPending job run⟩
  | .finalized _ => ⟨now, .finalized job run⟩

def finalizeScheduleAttempt (s : EvidenceTables) (job : Job) (run : JobRun) (now : Instant)
    (eventId : Uuid) : Except RepoError (ScheduleFinalization × EvidenceTables) := do
  let (finalization, jobs) ← s.jobs.finalizeScheduleAttempt job run now
  let events ← insertOperatorEvent s.events eventId (finalizationNotice job run now finalization)
  return (finalization, { s with jobs, events })

/-- The loop over the rows that were read as running -/
def insertRecovered (now : Instant) (eventId : DurableScheduleOccurrence → Uuid) :
    List DurableScheduleOccurrence → List EventRow → Except RepoError (List EventRow)
  | [], events => .ok events
  | row :: rows, events =>
    (insertOperatorEvent events (eventId row) ⟨now, .recovered row⟩).bind
      (insertRecovered now eventId rows)

def runningRows (s : EvidenceTables) : List DurableScheduleOccurrence :=
  s.jobs.occurrences.filter fun row => row.state = .running

def recoverScheduleOccurrences (s : EvidenceTables) (now : Instant)
    (eventId : DurableScheduleOccurrence → Uuid) : Except RepoError EvidenceTables := do
  let events ← insertRecovered now eventId s.runningRows s.events
  return { s with jobs := s.jobs.recoverScheduleOccurrences now, events }

def advanceProcessInstanceGeneration (s : EvidenceTables) (instance_ : ProcessInstance)
    (now : Instant) (eventId : Uuid) :
    Except RepoError (Option ProcessInstance × EvidenceTables) :=
  match s.processes.advanceProcessInstanceGeneration instance_ with
  | (.error error, _) => .error error
  | (.ok none, _) => .ok (none, s)
  | (.ok (some next), processes) =>
    (insertOperatorEvent s.events eventId ⟨now, .generationAdvanced instance_⟩).map fun events =>
      (some next, { s with processes, events })

def setProcessInstanceRestartCount (s : EvidenceTables) (instance_ : ProcessInstance)
    (count : U32) (now : Instant) (eventId : Uuid) : Except RepoError (Bool × EvidenceTables) :=
  match s.processes.setProcessInstanceRestartCount instance_ count with
  | (.error error, _) => .error error
  | (.ok false, _) => .ok (false, s)
  | (.ok true, processes) =>
    (insertOperatorEvent s.events eventId ⟨now, .restartScheduled instance_ count⟩).map
      fun events => (true, { s with processes, events })

end EvidenceTables

/-- The count that `schedule_automatic_restart` sets. The other caller, at the end of the stable
period of a child, sets zero. -/
def nextRestartCount (count : U32) : U32 := ⟨min (count.val + 1) (2^32 - 1), by omega⟩

/-- The operations that leave operator events -/
inductive EvidenceOp where
  | claim (job : Job) (occurrence : ScheduleOccurrence) (now : Instant) (eventId : Uuid)
  | admitOccurrence (job : Job) (occurrence : ScheduleOccurrence) (now : Instant) (runId : JobRunId)
    (eventId : Uuid)
  | finalize (job : Job) (run : JobRun) (now : Instant) (eventId : Uuid)
  | recover (now : Instant) (eventId : DurableScheduleOccurrence → Uuid)
  | advance (instance_ : ProcessInstance) (now : Instant) (eventId : Uuid)
  | restartCount (instance_ : ProcessInstance) (count : U32) (now : Instant) (eventId : Uuid)

namespace EvidenceTables

def perform (s : EvidenceTables) : EvidenceOp → Except RepoError EvidenceTables
  | .claim job occurrence now eventId =>
    (s.claimScheduleOccurrence job occurrence now eventId).map Prod.snd
  | .admitOccurrence job occurrence now runId eventId =>
    (s.admitScheduleOccurrence job occurrence now runId eventId).map Prod.snd
  | .finalize job run now eventId => (s.finalizeScheduleAttempt job run now eventId).map Prod.snd
  | .recover now eventId => s.recoverScheduleOccurrences now eventId
  | .advance instance_ now eventId =>
    (s.advanceProcessInstanceGeneration instance_ now eventId).map Prod.snd
  | .restartCount instance_ count now eventId =>
    (s.setProcessInstanceRestartCount instance_ count now eventId).map Prod.snd

end EvidenceTables

end Supervisor
