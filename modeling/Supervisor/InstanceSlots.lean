import Supervisor.RollingRestart

namespace Supervisor

namespace ProcessTables

/-- `sync_process_instances_transaction`: every ordinal below the count has an active row. -/
def syncProcessInstances (definitionId : ProcessDefinitionId) (newId : ℕ → ProcessInstanceId) :
    ℕ → ProcessTables → Except RepoError ProcessTables
  | 0, s => .ok s
  | ordinal + 1, s => (syncProcessInstances definitionId newId ordinal s).bind fun s =>
    if (s.activeRows definitionId).any fun row => row.ordinal = ordinal then .ok s
    else if h : s.instances.any (·.instanceId = newId ordinal) then
      .error (.backend "UNIQUE constraint failed: process_instances.instance_id")
    else .ok { s with
      instances := s.instances ++ [{ instanceId := newId ordinal, definitionId, ordinal }]
      unique := by
        apply s.unique.append
        intro row hrow heq
        rw [List.any_eq_true] at h
        exact h ⟨row, hrow, decide_eq_true heq⟩ }

end ProcessTables

/-- A child that is alive, with the instance that it was spawned for. -/
structure Child where
  instanceId : ProcessInstanceId
  handle : ChildHandle
deriving DecidableEq

/-- What `spawn_process_instance` does. -/
inductive SpawnOutcome where
  | spawned (handle : ChildHandle)
  /-- Without an entry, and with the child that is left running, if any: one whose handle cannot be
  recorded, or one that is not killed. -/
  | notSpawned (error : String) (left : Option ChildHandle)
  /-- Its guards do not start, and the entry is removed again. -/
  | notGuarded (error : String) (left : Option ChildHandle)

namespace SpawnOutcome

def error : SpawnOutcome → Option String
  | .spawned _ => none
  | .notSpawned error _ | .notGuarded error _ => some error

/-- The child that is left running without an entry. -/
def left : SpawnOutcome → Option ChildHandle
  | .spawned _ => none
  | .notSpawned _ left | .notGuarded _ left => left

end SpawnOutcome

namespace StopOutcome

def error : StopOutcome → Option String
  | .notCancelled error | .notSignalled error | .notCleaned error => some error
  | .stopped => none

def isKilled : StopOutcome → Bool
  | .notCancelled _ | .notSignalled _ => false
  | .notCleaned _ | .stopped => true

/-- The children that are left. -/
def remaining (outcome : StopOutcome) (handle : ChildHandle) (children : List Child) : List Child :=
  if outcome.isKilled then children.filter fun child => child.handle ≠ handle else children

end StopOutcome

/-- The point at which no operation holds the lock of the process. -/
def RollingPoint.isUnlocked : RollingPoint → Bool
  | .start | .returned _ => true
  | _ => false

/-- One process, with the rolling restart that may be under way, and its children. -/
structure SlotState extends RollingState where
  children : List Child := []

/-- What the calls of `start_process_inner` answer, by instance. -/
structure StartReplies where
  list : Option RepoError := none
  stop : ProcessInstanceId → StopOutcome := fun _ => .stopped
  handle : ProcessInstanceId → Option RepoError := fun _ => none
  probe : ProcessInstanceId → Option String := fun _ => none
  clear : ProcessInstanceId → Option RepoError := fun _ => none
  retire : ProcessInstanceId → Option RepoError := fun _ => none
  spawn : ProcessInstanceId → SpawnOutcome
  probeRunning : Option String := none

/-- What the calls of `scale_process` answer. -/
structure ScaleReplies where
  claim : Option RepoError := none
  list : Option RepoError := none
  save : Option RepoError := none
  listSaved : Option RepoError := none
  record : Option RepoError := none
  /-- The ids that are drawn for new slots. -/
  newId : ℕ → ProcessInstanceId
  stop : ProcessInstanceId → StopOutcome := fun _ => .stopped
  retire : ProcessInstanceId → Option RepoError := fun _ => none
  spawn : ProcessInstanceId → SpawnOutcome

/-- A call of the repository that may fail. -/
def RepoError.orElse {α : Type} : Option RepoError → Except RepoError α → Except RepoError α
  | some error, _ => .error error
  | none, result => result

namespace SlotState

def spawnProcessInstance (s : SlotState) (instance_ : ProcessInstance) :
    SpawnOutcome → SlotState
  | .spawned handle => { s with
      runtime := s.runtime.insertRuntimeEntry ⟨instance_, handle, .running⟩
      children := s.children ++ [⟨instance_.id, handle⟩] }
  | .notSpawned _ left => { s with
      children := s.children ++ left.toList.map (Child.mk instance_.id) }
  | .notGuarded _ left => { s with
      runtime := s.runtime.filter fun entry => entry.id ≠ instance_.id
      children := s.children ++ left.toList.map (Child.mk instance_.id) }

def stopProcessInstance (s : SlotState) (entry : RuntimeEntry) (outcome : StopOutcome) :
    SlotState :=
  { s with
    runtime := RollingState.stopInstance s.runtime entry outcome
    children := outcome.remaining entry.handle s.children }

def retireProcessInstance (s : SlotState) (id : ProcessInstanceId) : SlotState :=
  { s with tables := s.tables.retireProcessInstance id }

def isAlive (s : SlotState) (handle : ChildHandle) : Bool :=
  s.children.any fun child => child.handle = handle

/-- `start_process_inner`, for a slot beyond the count. -/
def retireSurplus (r : StartReplies) (s : SlotState) (instance_ : ProcessInstance) :
    Except String Unit × SlotState :=
  let retire (s : SlotState) : Except String Unit × SlotState :=
    match r.retire instance_.id with
    | some error => (.error error.message, s)
    | none => (.ok (), s.retireProcessInstance instance_.id)
  match s.runtime.runtimeEntry instance_.id with
  | some entry =>
    let stopped := s.stopProcessInstance entry (r.stop instance_.id)
    match (r.stop instance_.id).error with
    | some error => (.error error, stopped)
    | none => retire stopped
  | none =>
    match RepoError.orElse (r.handle instance_.id)
        (s.tables.getProcessInstanceRuntimeHandle instance_) with
    | .error error => (.error error.message, s)
    | .ok none => retire s
    | .ok (some handle) =>
      match r.probe instance_.id with
      | some error => (.error ("cannot verify process instance " ++ toString instance_.id.val ++
          " before scale-down: " ++ error), s)
      | none =>
        if s.isAlive handle then
          (.error ("cannot retire unowned live process instance " ++ toString instance_.id.val), s)
        else match r.clear instance_.id with
          | some error => (.error error.message, s)
          | none => match s.tables.clearProcessInstanceRuntimeHandleIfMatches instance_ handle with
            | (.error error, _) => (.error error.message, s)
            | (.ok _, tables) => retire { s with tables }

/-- `start_process_inner`, for a slot below the count; the answer is whether it is started. -/
def startSlot (r : StartReplies) (s : SlotState) (instance_ : ProcessInstance) :
    Except String Bool × SlotState :=
  if (s.runtime.runtimeEntry instance_.id).isSome then (.ok false, s)
  else match (r.spawn instance_.id).error with
    | some error => (.error error, s.spawnProcessInstance instance_ (r.spawn instance_.id))
    | none => (.ok true, s.spawnProcessInstance instance_ (r.spawn instance_.id))

/-- The loop of `start_process_inner`, up to the first error -/
def startSlots (r : StartReplies) :
    List ProcessInstance → Bool → SlotState → Except String Bool × SlotState
  | [], isStarted, s => (.ok isStarted, s)
  | instance_ :: rest, isStarted, s =>
    if s.spec.instances ≤ instance_.ordinal then
      match s.retireSurplus r instance_ with
      | (.error error, t) => (.error error, t)
      | (.ok (), t) => startSlots r rest isStarted t
    else match s.startSlot r instance_ with
      | (.error error, t) => (.error error, t)
      | (.ok spawned, t) => startSlots r rest (isStarted || spawned) t

/-- `start_process_inner` of a Direct process -/
def startProcess (s : SlotState) (r : StartReplies) : Except String Unit × SlotState :=
  match RepoError.orElse r.list (s.tables.listProcessInstances s.spec.definitionId) with
  | .error error => (.error error.message, s)
  | .ok instances => match startSlots r instances false s with
    | (.error error, t) => (.error error, t)
    | (.ok true, t) => (.ok (), t)
    | (.ok false, t) => match r.probeRunning with
      | some error => (.error ("process_state_unverified: " ++ error), t)
      | none =>
        if t.runtime.any fun entry => t.isAlive entry.handle then
          (.error "process is already running", t)
        else (.ok (), t)

/-- The loop of `stop_process_inner` -/
def stopEntries (stop : ProcessInstanceId → StopOutcome) :
    List RuntimeEntry → SlotState → Except String Unit × SlotState
  | [], s => (.ok (), s)
  | entry :: rest, s =>
    let t := s.stopProcessInstance entry (stop entry.id)
    match (stop entry.id).error with
    | some error => (.error error, t)
    | none => stopEntries stop rest t

/-- `stop_process_inner` of a Direct process -/
def stopProcess (s : SlotState) (stop : ProcessInstanceId → StopOutcome) :
    Except String Unit × SlotState :=
  if s.runtime.isEmpty then (.error "process is not running", s)
  else stopEntries stop
    (s.runtime.insertionSort fun a b => a.instance_.ordinal ≤ b.instance_.ordinal) s

end SlotState

namespace ProcessOperation

/-- The outcome of a slot that is left. -/
def leave (operation : ProcessOperation) (slot : ProcessInstance)
    (state : ProcessOperationInstanceState) (failedStage : Option String) (retryable : Bool) :
    ProcessOperation :=
  { operation with
    oldInstanceIds := operation.oldInstanceIds ++ [slot.id]
    outcomes := operation.outcomes ++ [⟨slot.id, slot.ordinal, state, failedStage, retryable⟩] }

/-- The outcome of a slot that is added. -/
def enter (operation : ProcessOperation) (slot : ProcessInstance)
    (state : ProcessOperationInstanceState) (failedStage : Option String) (retryable : Bool) :
    ProcessOperation :=
  { operation with
    newInstanceIds := operation.newInstanceIds ++ [slot.id]
    outcomes := operation.outcomes ++ [⟨slot.id, slot.ordinal, state, failedStage, retryable⟩] }

end ProcessOperation

/-- The slots that are left by `scale_process`, the last one first -/
def scaleDown (r : ScaleReplies) :
    List ProcessInstance → ProcessOperation → SlotState → ProcessOperation × SlotState
  | [], operation, s => (operation, s)
  | slot :: rest, operation, s => match s.runtime.runtimeEntry slot.id with
    | none => scaleDown r rest
        (operation.leave slot .notAttempted (some "instance_not_running") true) s
    | some entry =>
      let stopped := s.stopProcessInstance entry (r.stop slot.id)
      match (r.stop slot.id).error with
      | some error => (operation.leave slot .failed (some ("drain: " ++ error)) true, stopped)
      | none => match r.retire slot.id with
        | some error =>
          (operation.leave slot .failed (some ("retire: " ++ error.message)) true, stopped)
        | none => scaleDown r rest (operation.leave slot .completed none false)
            (stopped.retireProcessInstance slot.id)

/-- The slots that are added by `scale_process` -/
def scaleUp (r : ScaleReplies) (wasRunning : Bool) :
    List ProcessInstance → ProcessOperation → SlotState → ProcessOperation × SlotState
  | [], operation, s => (operation, s)
  | slot :: rest, operation, s =>
    if wasRunning then
      let spawned := s.spawnProcessInstance slot (r.spawn slot.id)
      match (r.spawn slot.id).error with
      | some error => scaleUp r wasRunning rest
          (operation.enter slot .failed (some ("spawn: " ++ error)) true) spawned
      | none => scaleUp r wasRunning rest (operation.enter slot .completed none false) spawned
    else scaleUp r wasRunning rest
      (operation.enter slot .notAttempted (some "group_stopped") false) s

namespace SlotState

/-- `save_spec`, with another number of instances -/
def saveInstances (s : SlotState) (r : ScaleReplies) (instances : U16) : Except RepoError SlotState :=
  (RepoError.orElse r.save (s.tables.syncProcessInstances s.spec.definitionId r.newId
    instances.val)).map fun tables => { s with tables, spec := { s.spec with instances } }

/-- `save_process_operation` of an operation that is there. -/
def recordOperation (s : SlotState) (operation : ProcessOperation) : SlotState :=
  { s with operations := s.operations.map fun row =>
      if row.operationId = operation.operationId then operation else row }

/-- The phase that `scale_process` reports -/
def finishScale (r : ScaleReplies) (operation : ProcessOperation) (s : SlotState) :
    Except AppError ProcessOperation × SlotState :=
  let operation := { operation with
    phase := if operation.outcomes.any fun outcome => outcome.state = .failed then "partial"
      else "completed"
    completed := true }
  match r.record with
  | some error => (.error error.toAppError, s)
  | none => (.ok operation, s.recordOperation operation)

/-- `scale_process`, from the claimed operation on -/
def performScale (s : SlotState) (target : U16) (r : ScaleReplies) (operation : ProcessOperation) :
    Except AppError ProcessOperation × SlotState :=
  match RepoError.orElse r.list (s.tables.listProcessInstances s.spec.definitionId) with
  | .error error => (.error error.toAppError, s)
  | .ok slots =>
    if target < s.spec.instances then
      let (operation, t) :=
        scaleDown r (slots.filter fun slot => target ≤ slot.ordinal).reverse operation s
      if operation.outcomes.all fun outcome => outcome.state = .completed then
        match t.saveInstances r target with
        | .error error => (.error error.toAppError, t)
        | .ok t => finishScale r operation t
      else finishScale r operation t
    else if s.spec.instances < target then
      match s.saveInstances r target with
      | .error error => (.error error.toAppError, s)
      | .ok saved =>
        match RepoError.orElse r.listSaved
            (saved.tables.listProcessInstances saved.spec.definitionId) with
        | .error error => (.error error.toAppError, saved)
        | .ok slots =>
          let (operation, t) := scaleUp r (!s.runtime.isEmpty)
            (slots.filter fun slot => s.spec.instances ≤ slot.ordinal) operation saved
          finishScale r operation t
    else finishScale r operation s

def scaleProcess (s : SlotState) (target : U16) (operationId : Uuid) (r : ScaleReplies) :
    Except AppError ProcessOperation × SlotState :=
  if ¬(1 ≤ target ∧ target ≤ 128) then
    (.error (.invalidRequest "instances must be between 1 and 128"), s)
  else if !s.point.isUnlocked then (.error (.conflict .operationBusy), s)
  else if s.spec.isSystemRegistered then
    (.error (.invalidRequest "SystemRegistered processes cannot be scaled"), s)
  else match s.operations.find? fun operation => operation.operationId = operationId with
    | some replay =>
      if replay.name ≠ s.spec.name ∨ replay.kind ≠ .scale ∨ replay.targetInstances ≠ some target then
        (.error (.invalidRequest "operation_id was already used for a different mutation"), s)
      else (.ok replay, s)
    | none =>
      let operation : ProcessOperation :=
        { operationId, name := s.spec.name, kind := .scale, targetInstances := some target
          phase := "reconciling", deadline := none }
      match r.claim with
      | some error => (.error error.toAppError, s)
      | none =>
        { s with operations := s.operations ++ [operation] }.performScale target r operation

end SlotState

end Supervisor
