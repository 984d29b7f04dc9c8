import Supervisor.JobDeletion
import Supervisor.RunRows

namespace Supervisor

/-- Names of jobs that directly depend on `name`. -/
def downstreamOf (name : String) (jobs : List Job) : List String :=
  (jobs.filter fun job => match job.trigger with
    | .dependsOn names => names.any (· = name)
    | _ => false).map (·.name)

/-- A call of `delete_job`. -/
structure DeleteCall where
  name : String
  force : Bool
  /-- History: the id of the job that was stored under the name when the call began. -/
  began : Option JobId
deriving DecidableEq

/-- What a call of `delete_job` that holds the job's lock waits for. -/
inductive DeleteStage where
  | looking
  | listing
  | creating (job : Job)
  | rereading
  | resuming (saga : DeletionSaga)

/-- Who holds the lock of a job name. -/
inductive JobLockHolder where
  | deleting (call : DeleteCall) (stage : DeleteStage)
  | recovering (saga : DeletionSaga)

def JobLockHolder.saga : JobLockHolder → Option DeletionSaga
  | .deleting _ (.resuming g) | .recovering g => some g
  | .deleting .. => none

/-- What a call of `add_job` waits for. -/
inductive AddStage where
  | listing
  | saving
  | registering
  /-- The scheduler refused the job, the row is to be removed again. -/
  | removing (error : AppError)

/-- A call of `add_job`, for a job that passes the checks of its fields. -/
structure AddCall where
  job : Job
  stage : AddStage

/-- A deletion that was reported complete. -/
structure DeleteReport where
  deletionId : Uuid
  job : Job
  began : Option JobId
deriving DecidableEq

structure JobDeletionState where
  plane : JobPlane := {}
  /-- The holders of `job_lock`. -/
  holders : String → Option JobLockHolder := fun _ => none
  /-- The calls of `delete_job` that wait for the lock. -/
  waiting : List DeleteCall := []
  adds : ℕ → Option AddCall := fun _ => none
  /-- The journals that a recovery pass listed and has still to come to. -/
  pass : List JobDeletionJournal := []
  /-- The name whose deletion the pass is resuming. -/
  current : Option String := none
  /-- The job ids drawn so far, each with the name of its job, and the deletion ids. -/
  names : JobId → Option String := fun _ => none
  deletionIds : Finset Uuid := ∅
  /-- History: the ids that a definition was saved with. -/
  saved : Finset JobId := ∅
  /-- History: the run rows that were stored, and the runs handed to the log cleanup. -/
  ran : Finset (JobId × JobRunId) := ∅
  handed : Finset JobRunId := ∅
  reports : List DeleteReport := []

inductive JobDeletionAction where
  | callDelete (name : String) (force : Bool)
  | lock (call : ℕ)
  | lookUp (name : String) (r : CallResult)
  | list (name : String) (r : CallResult) (hasRuns : Bool)
  | create (name : String) (r : CallResult) (deletionId : Uuid)
  | reread (name : String) (r : CallResult)
  /-- A call that the deletion of this name waits for is answered. -/
  | proceed (name : String) (input : DeletionInput)
  /-- The caller of `delete_job` goes away. -/
  | dropDelete (name : String)
  | callAdd (add : ℕ) (job : Job)
  | listForAdd (add : ℕ) (r : CallResult)
  | saveAdded (add : ℕ) (r : CallResult)
  | registerAdded (add : ℕ) (r : CallResult)
  | removeAdded (add : ℕ) (r : CallResult)
  | dropAdd (add : ℕ)
  /-- `reconcile_job_deletions`, at start-up or in the scheduler loop. -/
  | listJournals (r : CallResult)
  | resume
  /-- Bootstrap registers a stored job. -/
  | registerStored (job : Job)
  /-- The other components write to the repository. -/
  | transact (op : StoreOp)
  | admitOccurrence (job : Job) (occurrence : ScheduleOccurrence) (now : Instant)
    (runId : JobRunId)
  | recoverOccurrences (now : Instant)
  | cleanLog (runId : JobRunId)
  | crash

namespace JobDeletionState

def saga (s : JobDeletionState) (name : String) : Option DeletionSaga :=
  (s.holders name).bind JobLockHolder.saga

def setHolder (s : JobDeletionState) (name : String) (holder : Option JobLockHolder) :
    JobDeletionState :=
  { s with holders := Function.update s.holders name holder }

def setAdd (s : JobDeletionState) (add : ℕ) (call : Option AddCall) : JobDeletionState :=
  { s with adds := Function.update s.adds add call }

def withStore (s : JobDeletionState) (store : Store) : JobDeletionState :=
  { s with plane := { s.plane with store } }

/-- `delete_job` begins to resume a journal. -/
def resumeForeground (s : JobDeletionState) (name : String) (call : DeleteCall)
    (journal : JobDeletionJournal) : JobDeletionState :=
  let entered := DeletionSaga.enter s.plane journal .foreground
  { s with
    plane := entered.1 }.setHolder name (some (.deleting call (.resuming entered.2)))

def report (s : JobDeletionState) (g : DeletionSaga) (began : Option JobId) : JobDeletionState :=
  { s with reports := s.reports ++ [⟨g.journal.deletionId, g.journal.job, began⟩] }

/-- The histories of the run rows follow the store. -/
def observe (s : JobDeletionState) : JobDeletionState :=
  { s with
    ran := s.ran ∪ (s.plane.store.runs.map fun run => (run.jobId, run.runId)).toFinset
    handed := s.handed ∪ s.plane.store.runLogCleanup.toFinset }

def proceed (s : JobDeletionState) (name : String) (input : DeletionInput) :
    Option JobDeletionState :=
  match s.holders name with
  | some (.deleting call (.resuming g)) =>
    match g.step s.plane input with
    | some (plane, .running g') =>
      some ({ s with plane }.setHolder name (some (.deleting call (.resuming g'))))
    | some (plane, .finished (.ok ())) =>
      some (({ s with plane }.setHolder name none).report g call.began)
    | some (plane, .finished (.error _)) => some ({ s with plane }.setHolder name none)
    | none => none
  | some (.recovering g) =>
    match g.step s.plane input with
    | some (plane, .running g') =>
      some ({ s with plane }.setHolder name (some (.recovering g')))
    | some (plane, .finished (.ok ())) =>
      let ended := { s with plane, current := none }.setHolder name none
      -- a rollback ends a recovery too, and reports no deletion
      match g.point with
      | .clearing => some (ended.report g none)
      | _ => some ended
    | some (plane, .finished (.error _)) =>
      some ({ s with plane, current := none }.setHolder name none)
    | none => none
  | _ => none

def act (s : JobDeletionState) : JobDeletionAction → Option JobDeletionState
  | .callDelete name force =>
    some { s with
      waiting := s.waiting ++ [⟨name, force, (s.plane.store.getJob name).map (·.id)⟩] }
  | .lock call =>
    match s.waiting[call]? with
    | none => none
    | some c =>
      match s.holders c.name with
      | some _ => none
      | none =>
        some ({ s with
          waiting := s.waiting.eraseIdx call }.setHolder c.name (some (.deleting c .looking)))
  | .lookUp name r =>
    match s.holders name, r with
    | some (.deleting _ .looking), .failed _ => some (s.setHolder name none)
    | some (.deleting call .looking), .done =>
      match s.plane.getJobDeletionJournal name with
      | some journal => some (s.resumeForeground name call journal)
      | none => some (s.setHolder name (some (.deleting call .listing)))
    | _, _ => none
  | .list name r hasRuns =>
    match s.holders name, r with
    | some (.deleting _ .listing), .failed _ => some (s.setHolder name none)
    | some (.deleting call .listing), .done =>
      match s.plane.store.getJob name with
      | none => some (s.setHolder name none)
      | some job =>
        if downstreamOf name s.plane.store.jobs ≠ [] || (!call.force && hasRuns) then
          some (s.setHolder name none)
        else some (s.setHolder name (some (.deleting call (.creating job))))
    | _, _ => none
  | .create name r deletionId =>
    match s.holders name with
    | some (.deleting call (.creating job)) =>
      if deletionId ∈ s.deletionIds then none
      else
        let s' := { s with deletionIds := insert deletionId s.deletionIds }
        match r.run (s.plane.createJobDeletionJournal { deletionId, job, stage := .prepared }) with
        | .ok plane => some ({ s' with plane }.setHolder name (some (.deleting call .rereading)))
        | .error _ => some (s'.setHolder name none)
    | _ => none
  | .reread name r =>
    match s.holders name, r with
    | some (.deleting _ .rereading), .failed _ => some (s.setHolder name none)
    | some (.deleting call .rereading), .done =>
      match s.plane.getJobDeletionJournal name with
      | some journal => some (s.resumeForeground name call journal)
      | none => some (s.setHolder name none)
    | _, _ => none
  | .proceed name input => s.proceed name input
  | .dropDelete name =>
    match s.holders name with
    | some (.deleting ..) => some (s.setHolder name none)
    | _ => none
  | .callAdd add job =>
    match s.adds add, s.names job.id with
    | none, none => some ({ s with
        names := Function.update s.names job.id (some job.name) }.setAdd add
          (some ⟨job, .listing⟩))
    | _, _ => none
  | .listForAdd add r =>
    match s.adds add, r with
    | some ⟨_, .listing⟩, .failed _ => some (s.setAdd add none)
    | some ⟨job, .listing⟩, .done =>
      if (s.plane.store.getJob job.name).isSome then some (s.setAdd add none)
      else some (s.setAdd add (some ⟨job, .saving⟩))
    | _, _ => none
  | .saveAdded add r =>
    match s.adds add, r with
    | some ⟨_, .saving⟩, .failed _ => some (s.setAdd add none)
    | some ⟨job, .saving⟩, .done =>
      some ({ s.withStore (s.plane.store.saveJob job) with
        saved := insert job.id s.saved }.setAdd add (some ⟨job, .registering⟩))
    | _, _ => none
  | .registerAdded add r =>
    match s.adds add, r with
    | some ⟨job, .registering⟩, .failed e =>
      some (s.setAdd add (some ⟨job, .removing (.internal ("scheduler: " ++ e))⟩))
    | some ⟨job, .registering⟩, .done =>
      some ({ s with plane := s.plane.registerJob job }.setAdd add none)
    | _, _ => none
  | .removeAdded add r =>
    match s.adds add, r with
    | some ⟨_, .removing _⟩, .failed _ => some (s.setAdd add none)
    | some ⟨job, .removing _⟩, .done =>
      some ((s.withStore (s.plane.store.deleteJob job.name)).setAdd add none)
    | _, _ => none
  | .dropAdd add => some (s.setAdd add none)
  | .listJournals r =>
    match s.pass, s.current, r with
    | [], none, .done => some { s with pass := s.plane.listIncompleteJobDeletions }
    | [], none, .failed _ => some s
    | _, _, _ => none
  | .resume =>
    match s.pass, s.current with
    | journal :: rest, none =>
      match s.holders journal.jobName with
      | some _ => some { s with pass := rest }
      | none =>
        let entered := DeletionSaga.enter s.plane journal .recovery
        some ({ s with
          plane := entered.1
          pass := rest
          current := some journal.jobName }.setHolder journal.jobName
            (some (.recovering entered.2)))
    | _, _ => none
  | .registerStored job =>
    if job ∈ s.plane.store.jobs then some { s with plane := s.plane.registerJob job } else none
  | .transact op => if op.keepsJobs then some (s.withStore (s.plane.store.apply op)) else none
  | .admitOccurrence job occurrence now runId =>
    some (s.withStore (((s.plane.store.admitScheduleOccurrence job occurrence now runId).map
      Prod.snd).toOption.getD s.plane.store))
  | .recoverOccurrences now =>
    some (s.withStore (s.plane.store.recoverScheduleOccurrences now))
  | .cleanLog runId => some { s with plane := s.plane.completeRunLogCleanup runId }
  | .crash =>
    some { s with
      plane := { store := s.plane.store, deletions := s.plane.deletions }
      holders := fun _ => none
      waiting := []
      adds := fun _ => none
      pass := []
      current := none }

end JobDeletionState

/-- `add_job`, `delete_job`, the recovery of deletions and restarts in any order. -/
def jobDeletionSystem : Machine JobDeletionState JobDeletionAction :=
  ⟨fun s action => (s.act action).map JobDeletionState.observe⟩

end Supervisor
