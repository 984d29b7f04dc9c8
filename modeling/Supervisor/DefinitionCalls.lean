import Supervisor.DependencyGraph

namespace Supervisor

def SchedulerError.message : SchedulerError → String
  | .invalidCron expr => "invalid cron expression: " ++ expr
  | .invalidTimezone timezone => "invalid or unavailable timezone: " ++ timezone
  | .previewBounded why => "schedule preview is bounded or unsatisfiable: " ++ why

/-- The part of a job view that comes from the definitions. -/
structure JobView where
  job : Job
  upstream : List String
  downstream : List String
deriving DecidableEq

def buildJobView (job : Job) (all : List Job) : JobView :=
  { job, upstream := job.upstreamNames, downstream := downstreamOf job.name all }

/-- A call that changes definitions, with what its surroundings answer to it: the clock, the
drawn identifiers, the registrar of the system and the start of the process. -/
inductive DefinitionCall where
  | addJob (job : Job) (now : Instant)
  | updateJob (name : String) (body : Job) (newTriggerId : Uuid) (now : Instant)
  | addProcess (spec : ProcessSpec) (registered started : Except AppError Unit)
  | deleteJob (name : String)
  | applyConfig (running : List String) (loaded : LoadedConfig) (mode : ApplyMode)
      (newTriggerIds : String → Uuid) (now : Instant)

inductive CallAnswer where
  | job (view : JobView)
  | process (spec : ProcessSpec)
  | deleted
deriving DecidableEq

abbrev CallResponse := Except AppError CallAnswer

/-- How far a call has come: what it does next, with what it holds. -/
inductive CallPoint where
  | called
  | savingJob (before : Option Job) (others : List Job) (job : Job)
  | armingJob (before : Option Job) (others : List Job) (job : Job)
  | undoingJob (before : Option Job) (job : Job) (error : SchedulerError)
  | savingProcess
  | startingProcess
  | undoingProcess (error : AppError)
  | deleting (name : String)
  | applying (previous target : ConfigSnapshot) (forward : Bool)
deriving DecidableEq

structure CallInFlight where
  call : DefinitionCall
  point : CallPoint

structure AnsweredCall where
  call : DefinitionCall
  response : CallResponse

def DefinitionTables.listJobs (t : DefinitionTables) : List Job := sortByName Job.name t.store.jobs

def DefinitionTables.listSpecs (t : DefinitionTables) : List ProcessSpec :=
  sortByName ProcessSpec.name t.specs

section Calls

variable (calendar : Calendar)

/-- What `update_job` answers when the scheduler has rejected the new definition. -/
def undoneUpdate (existing : Job) (error : SchedulerError) : AppError :=
  match calendar.registerJob existing with
  | .ok () => error.toAppError
  | .error restoreError => .internal ("scheduler update failed: " ++ error.message ++
      "; restoring previous schedule failed: " ++ restoreError.message)

/-- What `add_process` does before it saves. -/
def planProcess (specs : List ProcessSpec) (spec : ProcessSpec)
    (registered : Except AppError Unit) : Except AppError Unit :=
  match spec.validate with
  | .error e => .error e
  | .ok () =>
    if (KeyedRows.find ProcessSpec.name spec.name specs).isSome then
      .error (.conflict .nameConflict)
    else match spec.managementMode with
      | .systemRegistered _ => registered
      | .direct => .ok ()

/-- What a call makes of the definitions it has read: an error, or the point of its first
write. -/
def DefinitionCall.plan (call : DefinitionCall) (jobs : List Job) (specs : List ProcessSpec) :
    Except AppError CallPoint :=
  match call with
  | .addJob job now => (planAdd jobs job now).map fun () => .savingJob none jobs job
  | .updateJob name body newTriggerId now =>
    (planUpdate jobs name body newTriggerId now).map fun (existing, job) =>
      .savingJob (some existing) (othersThan name jobs) job
  | .addProcess spec registered _ => (planProcess specs spec registered).map fun () => .savingProcess
  | .deleteJob name =>
    match KeyedRows.find Job.name name jobs with
    | none => .error (.notFound "job" name)
    | some _ =>
      if downstreamOf name jobs ≠ [] then .error (.conflict .hasDependents)
      else .ok (.deleting name)
  | .applyConfig running loaded mode newTriggerIds now =>
    let previous : ConfigSnapshot := { processes := specs, jobs, runningDirectProcesses := running }
    let target := targetSnapshot previous loaded mode newTriggerIds
    (validateConfigSnapshot previous target now).map fun () => .applying previous target false

theorem map_eq_ok_iff {ε α β : Type} {f : α → β} {answer : Except ε α} {b : β} :
    answer.map f = .ok b ↔ ∃ a, answer = .ok a ∧ f a = b := by
  cases answer with
  | error e =>
    constructor
    · intro h
      cases h
    · rintro ⟨a, h, -⟩
      cases h
  | ok a =>
    constructor
    · intro h
      exact ⟨a, rfl, Except.ok.inj h⟩
    · rintro ⟨a, h, rfl⟩
      rw [h]
      rfl

/-- Up to its next `await`, a call reads or writes the tables once, and then waits at another
point or answers. -/
def DefinitionTables.advance (t : DefinitionTables) (call : DefinitionCall) (point : CallPoint) :
    DefinitionTables × (CallPoint ⊕ CallResponse) :=
  match point, call with
  | .called, _ =>
    match call.plan t.listJobs t.listSpecs with
    | .error e => (t, .inr (.error e))
    | .ok next => (t, .inl next)
  | .savingJob before others job, _ =>
    ({ t with store := t.store.saveJob job.stored }, .inl (.armingJob before others job))
  | .armingJob before others job, _ =>
    match calendar.registerJob job with
    | .ok () => (t, .inr (.ok (.job (buildJobView job (others ++ [job])))))
    | .error e => (t, .inl (.undoingJob before job e))
  | .undoingJob none job e, _ =>
    ({ t with store := t.store.deleteJob job.name }, .inr (.error e.toAppError))
  | .undoingJob (some existing) _ e, _ =>
    ({ t with store := t.store.saveJob existing.stored },
      .inr (.error (undoneUpdate calendar existing e)))
  | .savingProcess, .addProcess spec _ _ =>
    match saveSpecRow t.specs spec with
    | .error e => (t, .inr (.error e.toAppError))
    | .ok specs => ({ t with specs }, .inl .startingProcess)
  | .startingProcess, .addProcess spec _ started =>
    match (if spec.autostart then started else .ok ()) with
    | .ok () => (t, .inr (.ok (.process spec)))
    | .error e => (t, .inl (.undoingProcess e))
  | .undoingProcess e, .addProcess spec _ _ =>
    ({ t with specs := t.specs.filter fun row => row.name ≠ spec.name }, .inr (.error e))
  | .deleting name, _ => ({ t with store := t.store.deleteJob name }, .inr (.ok .deleted))
  | .applying previous target false, _ => (t, .inl (.applying previous target true))
  | .applying previous target true, _ =>
    ((t.applyConfigSnapshot target).toOption.getD t, .inl (.applying previous target true))
  | .savingProcess, _ | .startingProcess, _ | .undoingProcess _, _ => (t, .inl point)

end Calls

/-- Whether a call goes on after a restart: a journal has its point. -/
def CallPoint.journaled : CallPoint → Bool
  | .deleting _ | .applying _ _ _ => true
  | _ => false

/-- The definitions and the calls that are changing them. -/
structure DefinitionState where
  tables : DefinitionTables
  calls : List CallInFlight := []
  answered : List AnsweredCall := []

inductive DefinitionEvent where
  | begin (call : DefinitionCall)
  | proceed (i : ℕ)
  /-- A repository call fails, or the call ends without a further write. -/
  | drop (i : ℕ)
  | restorePrevious (i : ℕ)
  | crash

namespace DefinitionState

variable (calendar : Calendar)

/-- A call in flight takes its next step. -/
def proceed (s : DefinitionState) (i : ℕ) (c : CallInFlight) : DefinitionState :=
  match s.tables.advance calendar c.call c.point with
  | (tables, .inl point) => { s with tables, calls := s.calls.set i { c with point } }
  | (tables, .inr response) =>
    { tables, calls := s.calls.eraseIdx i, answered := ⟨c.call, response⟩ :: s.answered }

/-- The compensation of an apply that has not gone forward. -/
def restorePrevious (s : DefinitionState) (c : CallInFlight) : Option DefinitionState :=
  match c.point with
  | .applying previous _ false =>
    some { s with tables := (s.tables.applyConfigSnapshot previous).toOption.getD s.tables }
  | _ => none

def step (s : DefinitionState) : DefinitionEvent → Option DefinitionState
  | .begin call => some { s with calls := s.calls ++ [⟨call, .called⟩] }
  | .proceed i => s.calls[i]?.map (s.proceed calendar i)
  | .drop i => s.calls[i]?.map fun _ => { s with calls := s.calls.eraseIdx i }
  | .restorePrevious i => s.calls[i]?.bind s.restorePrevious
  | .crash => some { s with calls := s.calls.filter (·.point.journaled) }

def machine : Machine DefinitionState DefinitionEvent where
  step := step calendar

end DefinitionState

end Supervisor
