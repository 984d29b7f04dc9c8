import Supervisor.ActiveRuns
import Supervisor.RollingRestart

namespace Supervisor

/-- An operation that is going to spawn a tied child. -/
inductive SpawningOperation where
  /-- A start, restart, scale or rolling restart, or the application of a configuration. None of
  them looks at `is_shutting_down`. -/
  | request
  /-- The task of a delayed automatic restart, after its last look at `is_shutting_down`. -/
  | automaticRestart
deriving DecidableEq

/-- What is left of an entry of `runtime`. -/
structure TiedEntry where
  handle : ChildHandle
  tied : Bool
deriving DecidableEq

/-- What `shutdown_all` was cleaning up when a call failed. -/
inductive ShutdownItem where
  | guard (id : ProcessInstanceId)
  | job (id : JobId)
  | child (handle : ChildHandle)
deriving DecidableEq

inductive ShutdownResult where
  | ok
  /-- `list_jobs` fails. -/
  | unlisted
  /-- With the other tied children and runs that have not been asked to terminate. -/
  | failed (item : ShutdownItem) (children : List ChildHandle) (runs : List JobRunId)
deriving DecidableEq

/-- The next call of `shutdown_all`. -/
inductive ShutdownPoint where
  | idle
  | guards (rest : List ProcessInstanceId)
  /-- A job is unregistered and its drain begins; after the last job the handles are taken. -/
  | jobs (rest : List JobId)
  /-- The runs that the drain took off the queue are committed. -/
  | queued (job : JobId) (queued runners : Finset JobRunId) (rest : List JobId)
  | runners (job : JobId) (runners : Finset JobRunId) (rest : List JobId)
  | reaping (rest : List ChildHandle)
  | returned (result : ShutdownResult)
deriving DecidableEq

structure ShutdownState where
  isShuttingDown : Bool := false
  guards : List ProcessInstanceId := []
  entries : List TiedEntry := []
  /-- The tied children that are alive. -/
  children : List ChildHandle := []
  operations : List SpawningOperation := []
  /-- The jobs of the repository. -/
  jobs : List JobId := []
  registry : ActiveRunState := {}
  /-- The runs whose child is alive. -/
  runChildren : List JobRunId := []
  /-- Dispatches that have found the daemon serving. -/
  dispatches : List (Job × TriggeredBy × JobRunId) := []
  point : ShutdownPoint := .idle
  /-- The children that `reap_on_shutdown` has signalled. -/
  asked : List ChildHandle := []
  /-- Every run that was ever registered, with its job. -/
  registered : List (JobId × JobRunId) := []

/-- How a runner leaves the child of its run. -/
inductive RunEnd where
  | reaped
  /-- A cleanup ticket takes the child over. -/
  | unreaped
  /-- The runner fails, and nothing knows the child any more. -/
  | lost
deriving DecidableEq

inductive ShutdownEvent where
  | guardStarts (id : ProcessInstanceId)
  | guardEnds (id : ProcessInstanceId)
  | begin (operation : SpawningOperation)
  | spawn (operation : SpawningOperation) (handle : ChildHandle)
  | enter (handle : ChildHandle) (tied : Bool)
  | removeEntry (handle : ChildHandle)
  /-- A child exits, or an operation stops it. -/
  | exit (handle : ChildHandle)
  | saveJob (id : JobId)
  | deleteJob (id : JobId)
  /-- A manual trigger, a dependency or the schedule, after the look at `is_shutting_down` -/
  | dispatch (job : Job) (triggeredBy : TriggeredBy) (runId : JobRunId)
  | register (job : Job) (triggeredBy : TriggeredBy) (runId : JobRunId) (phase : ActiveRunPhase)
  | enqueue (jobId : JobId) (runId : JobRunId)
  | setRunner (runId : JobRunId)
  | startChild (runId : JobRunId) (child : ChildHandle)
  | endRun (runId : JobRunId) (end_ : RunEnd)
  | cleanUp (jobId : JobId) (runId : JobRunId)
  | cancelRun (jobId : JobId) (runId : JobRunId)
  | shutdown
  | cancelGuard (fails : Bool)
  | listJobs (fails : Bool)
  | unregister (fails : Bool)
  | cancelQueued (runId : JobRunId) (fails : Bool)
  | awaitRunners
  | joinRunner (runId : JobRunId) (fails : Bool)
  | checkRuns
  | takeHandles
  | reap (fails : Bool)
  | release

namespace ShutdownState

/-- Whether the run has a runner. -/
def isStarted (s : ShutdownState) (runId : JobRunId) : Bool :=
  (s.registry.slot runId).any fun entry => entry.2 ≠ .queued

def isDrawn (s : ShutdownState) (runId : JobRunId) : Bool :=
  s.registered.any fun entry => entry.2 = runId

/-- The tied children, but for the one that fails, that have not been signalled. -/
def unaskedChildren (s : ShutdownState) (item : ShutdownItem) : List ChildHandle :=
  s.children.filter fun handle => handle ∉ s.asked && item ≠ .child handle

/-- The runs, but for those of the job that fails, that have not been cancelled. -/
def unaskedRuns (s : ShutdownState) (item : ShutdownItem) : List JobRunId :=
  (s.registered.map Prod.snd).filter fun runId => (s.registry.runs runId).any fun record =>
    !record.run.cancellation && item ≠ .job record.run.job.id

def fail (s : ShutdownState) (item : ShutdownItem) : ShutdownState :=
  { s with point := .returned (.failed item (s.unaskedChildren item) (s.unaskedRuns item)) }

def finishRun (s : ShutdownState) (runId : JobRunId) : RunEnd → ShutdownState
  | .reaped => { s with
      registry := (s.registry.finish runId).2
      runChildren := s.runChildren.filter (· ≠ runId) }
  | .unreaped => { s with registry := (s.registry.finishUnreaped runId).2 }
  | .lost => { s with registry := (s.registry.finish runId).2 }

/-- `begin_drain`, after the job is unregistered from the scheduler -/
def beginDrain (s : ShutdownState) (job : JobId) (rest : List JobId) : ShutdownState :=
  let drained := s.registry.beginDrain job false
  { s with
    registry := drained.2
    point := .queued job drained.1.queued drained.1.runners rest }

/-- The handles of the tied entries -/
def takeHandles (s : ShutdownState) : ShutdownState :=
  let handles := (s.entries.filter (·.tied)).map (·.handle)
  { s with point := if handles.isEmpty then .returned .ok else .reaping handles }

/-- The steps of everything but `shutdown_all`. -/
def surround (s : ShutdownState) : ShutdownEvent → Option ShutdownState
  | .guardStarts id => some { s with guards := s.guards ++ [id] }
  | .guardEnds id => some { s with guards := s.guards.filter (· ≠ id) }
  | .begin operation =>
    if operation = .automaticRestart && s.isShuttingDown then none
    else some { s with operations := s.operations ++ [operation] }
  | .spawn operation handle =>
    if operation ∈ s.operations then
      some { s with
        operations := s.operations.erase operation
        children := s.children ++ [handle] }
    else none
  | .enter handle tied => some { s with entries := s.entries ++ [⟨handle, tied⟩] }
  | .removeEntry handle =>
    some { s with entries := s.entries.filter fun entry => entry.handle ≠ handle }
  | .exit handle => some { s with children := s.children.filter (· ≠ handle) }
  | .saveJob id => some { s with jobs := s.jobs ++ [id] }
  | .deleteJob id => some { s with jobs := s.jobs.filter (· ≠ id) }
  | .dispatch job triggeredBy runId =>
    if s.isShuttingDown || s.isDrawn runId then none
    else some { s with dispatches := s.dispatches ++ [(job, triggeredBy, runId)] }
  | .register job triggeredBy runId phase =>
    if (job, triggeredBy, runId) ∈ s.dispatches && !s.isDrawn runId then
      some { s with
        dispatches := s.dispatches.erase (job, triggeredBy, runId)
        registry := s.registry.register job triggeredBy runId phase
        registered := s.registered ++ [(job.id, runId)] }
    else none
  | .enqueue jobId runId => some { s with registry := s.registry.enqueue jobId runId }
  | .setRunner runId => some { s with registry := s.registry.setRunner runId }
  | .startChild runId child =>
    if s.isStarted runId then
      some { s with
        registry := s.registry.publishChild runId child
        runChildren := s.runChildren ++ [runId] }
    else none
  | .endRun runId end_ => if s.isStarted runId then some (s.finishRun runId end_) else none
  | .cleanUp jobId runId =>
    if runId ∈ (s.registry.cleanupByJob jobId).getD ∅ then
      some { s with
        registry := s.registry.finishCleanup jobId runId
        runChildren := s.runChildren.filter (· ≠ runId) }
    else none
  | .cancelRun jobId runId => some { s with registry := (s.registry.cancelOwned jobId runId).2 }
  | _ => none

def step (s : ShutdownState) : ShutdownEvent → Option ShutdownState
  | .shutdown => match s.point with
    | .idle => some { s with isShuttingDown := true, point := .guards s.guards }
    | _ => none
  | .cancelGuard fails => match s.point with
    | .guards (id :: rest) =>
      let s := { s with guards := s.guards.filter (· ≠ id), point := .guards rest }
      some (if fails then s.fail (.guard id) else s)
    | _ => none
  | .listJobs fails => match s.point with
    | .guards [] =>
      some { s with point := if fails then .returned .unlisted else .jobs s.jobs }
    | _ => none
  | .unregister fails => match s.point with
    | .jobs (job :: rest) =>
      some (if fails then s.fail (.job job) else s.beginDrain job rest)
    | _ => none
  | .cancelQueued runId fails => match s.point with
    | .queued job queued runners rest =>
      if runId ∈ queued then
        some (if fails then s.fail (.job job)
          else { s with point := .queued job (queued.erase runId) runners rest })
      else none
    | _ => none
  | .awaitRunners => match s.point with
    | .queued job queued runners rest =>
      if queued = ∅ then some { s with point := .runners job runners rest } else none
    | _ => none
  | .joinRunner runId fails => match s.point with
    | .runners job runners rest =>
      if runId ∈ runners && (fails || !s.isStarted runId) then
        some (if fails then s.fail (.job job)
          else { s with point := .runners job (runners.erase runId) rest })
      else none
    | _ => none
  | .checkRuns => match s.point with
    | .runners job runners rest =>
      if runners = ∅ then
        some (if s.registry.hasRuns job then s.fail (.job job)
          else { s with point := .jobs rest })
      else none
    | _ => none
  | .takeHandles => match s.point with
    | .jobs [] => some s.takeHandles
    | _ => none
  | .reap fails => match s.point with
    | .reaping (handle :: rest) =>
      let s := { s with asked := s.asked ++ [handle] }
      some (if fails then s.fail (.child handle)
        else { s with
          children := s.children.filter (· ≠ handle)
          point := .reaping rest })
    | _ => none
  | .release => match s.point with
    | .reaping [] => some { s with
        entries := s.entries.filter fun entry => !entry.tied
        point := .returned .ok }
    | _ => none
  | e => s.surround e

end ShutdownState

def shutdownMachine : Machine ShutdownState ShutdownEvent where
  step := ShutdownState.step

end Supervisor
