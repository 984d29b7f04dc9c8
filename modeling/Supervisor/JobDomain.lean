import Mathlib.Algebra.Group.Int.Defs
import Mathlib.Algebra.GroupWithZero.Nat
import Mathlib.Data.Finset.Basic
import Mathlib.Data.List.Sort
namespace Supervisor

/-- A 128-bit identifier. New ones are drawn at random, so a model event that
creates one carries it. -/
abbrev Uuid := ℕ

/-- An instant, in nanoseconds since the epoch. -/
abbrev Instant := ℤ

/-- A length of time, in nanoseconds. -/
abbrev Duration := ℕ

abbrev nanosPerSec : ℕ := 1000000000

def Duration.asSecs (d : Duration) : ℕ := d / nanosPerSec

abbrev U16 := Fin (2^16)
abbrev U32 := Fin (2^32)

instance neZeroU8 : NeZero (2^8) := ⟨by decide⟩
instance neZeroU16 : NeZero (2^16) := ⟨by decide⟩
instance neZeroU32 : NeZero (2^32) := ⟨by decide⟩

/-- `u16::saturating_add`. -/
def U16.saturatingAdd (a : U16) (n : ℕ) : U16 := ⟨min (a.val + n) (2^16 - 1), by omega⟩

theorem U16.saturatingAdd_one {a b : U16} (h : a < b) : (a.saturatingAdd 1).val = a.val + 1 := by
  have hb := b.isLt
  have ha : a.val < b.val := h
  simp only [U16.saturatingAdd]
  omega

structure JobId where
  val : Uuid
deriving DecidableEq, Repr

structure JobRunId where
  val : Uuid
deriving DecidableEq, Repr

/-- One-of trigger that decides when a job runs. -/
inductive JobTrigger where
  | cron (expr : String)
  | interval (every : Duration)
  | oneShot (at_ : Instant)
  | dependsOn (upstream : List String)
deriving DecidableEq, Repr

inductive OverlapPolicy where
  | skip | queue | parallel
deriving DecidableEq, Repr

inductive DependencyFailurePolicy where
  | skip | runAnyway
deriving DecidableEq, Repr

inductive QueueOverflowPolicy where
  | rejectNew | skip
deriving DecidableEq, Repr

/-- `max_attempts` includes the initial attempt; `1` disables retry. -/
structure RetryPolicy where
  maxAttempts : U16 := 1
  initialBackoff : Duration := nanosPerSec
  maxBackoff : Duration := 300 * nanosPerSec
  multiplier : Fin (2^8) := 2
  jitterPercent : Fin (2^8) := 20
deriving DecidableEq, Repr

structure AdmissionPolicy where
  maxConcurrency : U16
  maxQueue : U16
  overflow : QueueOverflowPolicy
deriving DecidableEq, Repr

def AdmissionPolicy.legacy : OverlapPolicy → AdmissionPolicy
  | .skip => { maxConcurrency := 1, maxQueue := 0, overflow := .skip }
  | .queue => { maxConcurrency := 1, maxQueue := 1024, overflow := .rejectNew }
  | .parallel => { maxConcurrency := 32, maxQueue := 1024, overflow := .rejectNew }

structure LogRetention where
  maxRuns : Option U32 := none
  maxAgeDays : Option U32 := none
deriving DecidableEq, Repr

/-- Missed timer behavior. -/
inductive MisfirePolicy where
  | skip
  | runOnce
  | catchUp (maxOccurrences : U16) (maxAge : Duration)
deriving DecidableEq, Repr

/-- A registered batch-job definition. -/
structure Job where
  id : JobId
  name : String
  command : String := ""
  args : List String := []
  cwd : Option String := none
  /-- In the order of the keys. -/
  env : List (String × String) := []
  trigger : JobTrigger
  onOverlap : OverlapPolicy := .skip
  onDependencyFailure : DependencyFailurePolicy := .skip
  timeout : Option Duration := none
  logRetention : LogRetention := {}
  timezone : String := "UTC"
  scheduleRevision : ℕ := 0
  triggerId : Uuid := 0
  misfirePolicy : MisfirePolicy := .skip
  retryPolicy : RetryPolicy := {}
  admission : AdmissionPolicy := .legacy .skip
deriving DecidableEq, Repr

/-- Stable identity of one logical timer occurrence, with its current attempt. -/
structure ScheduleOccurrence where
  triggerId : Uuid
  scheduleRevision : ℕ
  scheduledAt : Instant
  attempt : U16
deriving DecidableEq, Repr

inductive ScheduleOccurrenceState where
  | claimed | queued | running | retryPending | finalized
deriving DecidableEq, Repr

/-- The states the admission pass still has to bring to a run. -/
def ScheduleOccurrenceState.isWaiting : ScheduleOccurrenceState → Bool
  | .claimed | .queued | .retryPending => true
  | .running | .finalized => false

/-- State machine for a single run. -/
inductive JobRunState where
  | pending | running | succeeded | failed | timedOut | cancelled | skipped
deriving DecidableEq, Repr

def JobRunState.isTerminal : JobRunState → Bool
  | .succeeded | .failed | .timedOut | .cancelled | .skipped => true
  | .pending | .running => false

inductive TriggeredBy where
  | schedule
  | scheduled (occurrence : ScheduleOccurrence)
  | manual
  | dependency (upstreamRunId : JobRunId)
deriving DecidableEq, Repr

/-- A single execution instance of a job. -/
structure JobRun where
  runId : JobRunId
  jobName : String
  jobId : JobId
  triggeredBy : TriggeredBy
  scheduledAt : Instant
  startedAt : Option Instant := none
  endedAt : Option Instant := none
  exitCode : Option ℤ := none
  state : JobRunState
  occurrence : Option ScheduleOccurrence := none
  originalScheduledAt : Option Instant := none
deriving DecidableEq, Repr

/-- One row of the durable ledger of scheduled occurrences. -/
structure DurableScheduleOccurrence where
  jobId : JobId
  jobName : String
  occurrence : ScheduleOccurrence
  state : ScheduleOccurrenceState
  nextAttemptAt : Instant
  runId : Option JobRunId := none
  finalState : Option JobRunState := none
deriving DecidableEq, Repr

inductive ScheduleAdmission where
  | start (durable : DurableScheduleOccurrence)
  | queued (durable : DurableScheduleOccurrence)
  | finalized (durable : DurableScheduleOccurrence)
deriving DecidableEq, Repr

inductive ScheduleFinalization where
  | retry (durable : DurableScheduleOccurrence)
  | finalized (durable : DurableScheduleOccurrence)
deriving DecidableEq, Repr

/-- Native identity of a spawned child. -/
structure ChildHandle where
  processId : Uuid
  pid : U32
  pgid : Option U32
  generation : Option String
  startedAt : Instant
deriving DecidableEq, Repr

structure TransientOutcome where
  startedAt : Instant
  endedAt : Instant
  exitCode : Option ℤ
deriving DecidableEq, Repr

inductive TransientCleanupStage where
  | terminateGroup | waitLeader | joinPumps | sealLog | persistTerminal
deriving DecidableEq, Repr

/-- Durable cleanup work for a run whose child could not be reaped. -/
structure CleanupTicket where
  cleanupId : Uuid
  jobId : JobId
  jobName : String
  runId : JobRunId
  child : ChildHandle
  stage : TransientCleanupStage
  attempts : ℕ
  lastError : Option String
  intendedTerminalState : JobRunState
  outcome : TransientOutcome
deriving DecidableEq, Repr

/-- A terminal event that stays in the outbox until it is delivered. -/
structure TransientTerminalEvent where
  cleanupId : Uuid
  eventId : Uuid
  occurredAt : Instant
  jobName : String
  runId : JobRunId
  state : JobRunState
  exitCode : Option ℤ
deriving DecidableEq, Repr

inductive RepoError where
  | notFound (what : String)
  | conflict (why : String)
  | backend (why : String)
deriving DecidableEq, Repr

end Supervisor
