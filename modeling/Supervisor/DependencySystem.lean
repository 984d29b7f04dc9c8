import Supervisor.RunDispatch
import Supervisor.UpstreamOutcome

namespace Supervisor

/-- `EVENT_CHANNEL_CAPACITY`. -/
def eventChannelCapacity : ℕ := 256

/-- The end of a run, as the internal event channel carries it. -/
structure Completion where
  jobName : String
  runId : JobRunId
deriving DecidableEq

/-- Where `on_dependency_completion` stands with the job it has taken. -/
inductive EvaluationPoint where
  | nextJob
  /-- The upstream names it has not read yet and the runs it has read. -/
  | reading (job : Job) (names : List String) (latest : List JobRun)
  | claimed (job : Job) (latest : List JobRun) (runId : JobRunId)
  /-- `dispatch_run` answered `Skipped`. -/
  | skipping (job : Job) (runId : JobRunId)
deriving DecidableEq

/-- One call of `on_dependency_completion`, with the jobs it has not reached yet. -/
structure Evaluation where
  completion : Completion
  jobs : List Job
  point : EvaluationPoint
deriving DecidableEq

/-- What a call of `dispatch_run` comes to. -/
inductive DispatchAnswer where
  /-- Skipped before anything is stored: shutting down, or dispatch is frozen. -/
  | refused
  | skipped
  | queued
  | started
deriving DecidableEq

/-- A reading of an upstream job, with the store it was read from. -/
structure Reading where
  store : Store
  name : String
  row : JobRun

structure DependencyClaim where
  job : Job
  latest : List JobRun
  runId : JobRunId
deriving DecidableEq

def allSucceeded (latest : List JobRun) : Bool := latest.all fun run => run.state = .succeeded

/-- Whether a claimed combination is dispatched rather than recorded as skipped. -/
def dispatchesOn (job : Job) (latest : List JobRun) : Bool :=
  allSucceeded latest || job.onDependencyFailure = .runAnyway

/-- The newest run of a job, with its state once it has ended. -/
structure NewestRun where
  runId : JobRunId
  outcome : Option JobRunState
deriving DecidableEq

/-- What can happen to the newest run of a job. -/
inductive NewestChange where
  | defined (name : String)
  | started (name : String) (runId : JobRunId)
  | ended (name : String) (runId : JobRunId) (state : JobRunState)
  | gone (name : String)
deriving DecidableEq

namespace Store

/-- `list_jobs`. -/
def listJobs (s : Store) : List Job := s.jobs.insertionSort fun a b => a.name ≤ b.name

/-- The jobs some definition depends on. -/
def upstreamNames (s : Store) : List String :=
  (s.jobs.flatMap fun job => match job.trigger with
    | .dependsOn names => names
    | _ => []).dedup

def newest (s : Store) (name : String) : Option NewestRun :=
  (s.latestRun name).map fun row =>
    ⟨row.runId, if row.state.isTerminal then some row.state else none⟩

/-- What changes for the newest run of one job from `s` to `t`. -/
def newestChanges (s t : Store) (name : String) : List NewestChange :=
  if s.newest name = t.newest name then []
  else
    match t.newest name with
    | none => [.gone name]
    | some ⟨runId, none⟩ => [.started name runId]
    | some ⟨runId, some state⟩ =>
      if s.newest name = some ⟨runId, none⟩ then [.ended name runId state]
      else [.started name runId, .ended name runId state]

def changes (s t : Store) : List NewestChange :=
  (t.jobs.filter fun job => s.getJob job.name = none).map (.defined ·.name) ++
    ((s.jobs ++ t.jobs).map (·.name)).dedup.flatMap (s.newestChanges t)

end Store

structure DependencyState where
  schedule : ScheduleState := {}
  /-- Ends that are committed and not sent yet. -/
  unsent : List Completion := []
  channel : List Completion := []
  lagged : Bool := false
  /-- The scheduler loop listens to the internal channel. -/
  subscribed : Bool := false
  evaluation : Option Evaluation := none
  /-- The upstream names `reconcile_dependency_completions` has left. -/
  reconciling : List String := []
  /-- Dispatched runs that wait in the queue of the registry. -/
  queued : List JobRunId := []
  /-- History: the runs that were started, and those recorded as not to be run. -/
  started : List JobRunId := []
  recorded : List JobRunId := []
  readings : List Reading := []
  claims : List DependencyClaim := []
  /-- History: the claims `dispatch_run` was called for. -/
  dispatches : List DependencyClaim := []
  newestHistory : List NewestChange := []

inductive DependencyEvent where
  | schedule (e : ScheduleEvent)
  | send (c : Completion)
  | subscribe
  | receive
  /-- The loop has lagged and learns the upstream names, in any order. -/
  | lag (names : List String)
  | reconcileNext
  | nextJob
  | read
  | claim (runId : JobRunId) (now : Instant)
  | dispatch (now : Instant) (answer : DispatchAnswer)
  | recordSkipped (now : Instant)
  /-- The repository does not answer the query the loop is about to make. -/
  | unanswered
  | startQueued (runId : JobRunId)
  | dropQueued (runId : JobRunId)
  | crash

/-- The ends an event announces on the internal channel once it is committed. -/
def ScheduleState.completions (s : ScheduleState) : ScheduleEvent → List Completion
  | .commitOther run event =>
    if (s.store.commitTerminalRunWithEvent run event).toOption.isSome then
      [⟨run.jobName, run.runId⟩]
    else []
  | .finalizeAttempt runId now =>
    match s.runners runId with
    | some ⟨job, run, .committed⟩ =>
      match s.store.finalizeScheduleAttempt job run now with
      | .ok (.finalized _, _) => [⟨job.name, runId⟩]
      | _ => []
    | _ => []
  | _ => []

namespace DependencyState

/-- A run outside the schedule is stored while it is open, recorded as skipped,
and ended once. -/
def permits (s : DependencyState) : ScheduleEvent → Bool
  | .crash => false
  | .saveOther run => (!run.state.isTerminal || run.state = .skipped) &&
      (s.schedule.store.findRun run.runId).all fun row => !row.state.isTerminal
  | .commitOther run _ => run.state.isTerminal && run.state ≠ .skipped &&
      (s.schedule.store.findRun run.runId).all fun row => !row.state.isTerminal
  | _ => true

/-- Broadcast an end: without a subscriber it is lost, and a full channel drops
its oldest message. -/
def publish (s : DependencyState) (c : Completion) : DependencyState :=
  if !s.subscribed then s
  else if s.channel.length < eventChannelCapacity then { s with channel := s.channel ++ [c] }
  else { s with channel := s.channel.tail ++ [c], lagged := true }

def evaluate (s : DependencyState) (c : Completion) : DependencyState :=
  { s with evaluation := some ⟨c, s.schedule.store.listJobs, .nextJob⟩ }

def setPoint (s : DependencyState) (evaluation : Evaluation) (point : EvaluationPoint) :
    DependencyState :=
  { s with evaluation := some { evaluation with point } }

def addReading (s : DependencyState) (reading : Reading) : DependencyState :=
  { s with readings := s.readings ++ [reading] }

def addClaim (s : DependencyState) (store : Store) (claim : DependencyClaim) : DependencyState :=
  { s with
    schedule := { s.schedule with store, drawn := insert claim.runId s.schedule.drawn }
    claims := s.claims ++ [claim] }

def addDispatch (s : DependencyState) (claim : DependencyClaim) : DependencyState :=
  { s with dispatches := s.dispatches ++ [claim] }

/-- The loop waits for its next message. -/
def listens (s : DependencyState) : Bool :=
  s.subscribed && s.evaluation.isNone && s.reconciling.isEmpty

/-- The row `record_skipped_run` stores. -/
def skippedRun (s : DependencyState) (job : Job) (triggeredBy : TriggeredBy) (runId : JobRunId)
    (now : Instant) : JobRun :=
  { runId
    jobName := job.name
    jobId := ((s.schedule.store.getJob job.name).map (·.id)).getD ⟨0⟩
    triggeredBy
    scheduledAt := now
    endedAt := some now
    state := .skipped }

def recordSkipped (s : DependencyState) (evaluation : Evaluation) (job : Job) (runId : JobRunId)
    (now : Instant) : Option DependencyState :=
  (s.schedule.step (.saveOther (s.skippedRun job (.dependency evaluation.completion.runId) runId
    now))).map fun schedule =>
      { s with schedule, recorded := s.recorded ++ [runId] }.setPoint evaluation .nextJob

/-- `dispatch_run` for a claimed combination. -/
def dispatch (s : DependencyState) (evaluation : Evaluation) (claim : DependencyClaim)
    (now : Instant) (answer : DispatchAnswer) : Option DependencyState :=
  let s' := s.addDispatch claim
  match answer with
  | .refused => some (s'.setPoint evaluation (.skipping claim.job claim.runId))
  | answer =>
    let run := pendingRun claim.job (.dependency evaluation.completion.runId) claim.runId now
    (s.schedule.step (.saveOther run)).map fun schedule =>
      if (s.schedule.store.saveRun run).toOption.isNone then s'.setPoint evaluation .nextJob
      else
        match answer with
        | .queued => { s' with schedule, queued := s.queued ++ [claim.runId] }.setPoint evaluation
            .nextJob
        | .started => { s' with schedule, started := s.started ++ [claim.runId] }.setPoint evaluation
            .nextJob
        | _ => { s' with schedule }.setPoint evaluation (.skipping claim.job claim.runId)

/-- A query of the loop fails, and the loop goes on as the source does. -/
def unanswered (s : DependencyState) : Option DependencyState :=
  match s.evaluation with
  | some evaluation =>
    match evaluation.point with
    | .reading _ _ _ => some (s.setPoint evaluation .nextJob)
    | .claimed job latest runId =>
      if dispatchesOn job latest then
        some ((s.addDispatch ⟨job, latest, runId⟩).setPoint evaluation .nextJob)
      else none
    | _ => none
  | none =>
    match s.reconciling with
    | _ :: rest => some { s with reconciling := rest }
    | [] =>
      if !s.subscribed then none
      else if s.lagged then some { s with lagged := false }
      else if s.channel.isEmpty then none
      else some { s with channel := s.channel.tail }

def act (s : DependencyState) : DependencyEvent → Option DependencyState
  | .schedule e =>
    if s.permits e then
      (s.schedule.step e).map fun schedule =>
        { s with schedule, unsent := s.unsent ++ s.schedule.completions e }
    else none
  | .send c =>
    if c ∈ s.unsent then some ({ s with unsent := s.unsent.erase c }.publish c) else none
  | .subscribe =>
    if s.schedule.booting || s.subscribed then none else some { s with subscribed := true }
  | .receive =>
    if !s.listens || s.lagged then none
    else
      match s.channel with
      | [] => none
      | c :: rest => some ({ s with channel := rest }.evaluate c)
  | .lag names =>
    if s.listens && s.lagged && names.isPerm s.schedule.store.upstreamNames then
      some { s with lagged := false, reconciling := names }
    else none
  | .reconcileNext =>
    if s.evaluation.isSome then none
    else
      match s.reconciling with
      | [] => none
      | name :: rest =>
        let s' := { s with reconciling := rest }
        match s.schedule.store.latestRun name with
        | none => some s'
        | some run => if run.state.isTerminal then some (s'.evaluate ⟨name, run.runId⟩) else some s'
  | .nextJob =>
    match s.evaluation with
    | some ⟨_, [], .nextJob⟩ => some { s with evaluation := none }
    | some ⟨c, job :: jobs, .nextJob⟩ =>
      match job.trigger with
      | .dependsOn names =>
        if c.jobName ∈ names then some (s.setPoint ⟨c, jobs, .nextJob⟩ (.reading job names []))
        else some (s.setPoint ⟨c, jobs, .nextJob⟩ .nextJob)
      | _ => some (s.setPoint ⟨c, jobs, .nextJob⟩ .nextJob)
    | _ => none
  | .read =>
    match s.evaluation with
    | some ⟨c, jobs, .reading job (name :: names) latest⟩ =>
      match s.schedule.store.latestRun name with
      | none => some (s.setPoint ⟨c, jobs, .nextJob⟩ .nextJob)
      | some row =>
        some ((s.addReading ⟨s.schedule.store, name, row⟩).setPoint ⟨c, jobs, .nextJob⟩
          (.reading job names (latest ++ [row])))
    | _ => none
  | .claim runId now =>
    match s.evaluation with
    | some ⟨c, jobs, .reading job [] latest⟩ =>
      if runId ∈ s.schedule.drawn then none
      else
        match s.schedule.store.claimDependencyRun job.name (latest.map (·.runId))
          (pendingRun job (.dependency c.runId) runId now) with
        | .error _ | .ok (false, _) => some (s.setPoint ⟨c, jobs, .nextJob⟩ .nextJob)
        | .ok (true, store) =>
          some ((s.addClaim store ⟨job, latest, runId⟩).setPoint ⟨c, jobs, .nextJob⟩
            (.claimed job latest runId))
    | _ => none
  | .dispatch now answer =>
    match s.evaluation with
    | some ⟨c, jobs, .claimed job latest runId⟩ =>
      if dispatchesOn job latest then
        s.dispatch ⟨c, jobs, .nextJob⟩ ⟨job, latest, runId⟩ now answer
      else none
    | _ => none
  | .recordSkipped now =>
    match s.evaluation with
    | some ⟨c, jobs, .claimed job latest runId⟩ =>
      if dispatchesOn job latest then none else s.recordSkipped ⟨c, jobs, .nextJob⟩ job runId now
    | some ⟨c, jobs, .skipping job runId⟩ => s.recordSkipped ⟨c, jobs, .nextJob⟩ job runId now
    | _ => none
  | .unanswered => s.unanswered
  | .startQueued runId =>
    if runId ∈ s.queued then
      some { s with queued := s.queued.erase runId, started := s.started ++ [runId] }
    else none
  | .dropQueued runId =>
    if runId ∈ s.queued then
      some { s with queued := s.queued.erase runId, recorded := s.recorded ++ [runId] }
    else none
  | .crash =>
    (s.schedule.step .crash).map fun schedule =>
      { s with
        schedule
        unsent := []
        channel := []
        lagged := false
        subscribed := false
        evaluation := none
        reconciling := []
        queued := [] }

/-- Add what happened to the newest runs to the history. -/
def observe (s t : DependencyState) : DependencyState :=
  { t with newestHistory := t.newestHistory ++ s.schedule.store.changes t.schedule.store }

end DependencyState

/-- The dependency evaluation of one daemon over restarts: the schedule with its
runs, the internal channel, and the loop that reads it. -/
def dependencySystem : Machine DependencyState DependencyEvent :=
  ⟨fun s e => (s.act e).map s.observe⟩

end Supervisor
