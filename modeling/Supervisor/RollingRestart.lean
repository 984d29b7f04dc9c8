import Supervisor.AppError
import Supervisor.Machine
import Supervisor.ProcessTables
import Supervisor.RowMap

namespace Supervisor

theorem toNat_lt_u16 {n : ℤ} (h : 0 ≤ n ∧ n < 2^16) : n.toNat < 2^16 := by omega

def U16.ofI64 (n : ℤ) : Except RepoError U16 :=
  if h : 0 ≤ n ∧ n < 2^16 then .ok ⟨n.toNat, toNat_lt_u16 h⟩
  else .error (.backend "out of range integral type conversion attempted")

def U64.ofI64 (n : ℤ) : Except RepoError U64 :=
  if h : 0 ≤ n ∧ n < 2^64 then .ok ⟨n.toNat, by omega⟩
  else .error (.backend "out of range integral type conversion attempted")

namespace ProcessTables

/-- The active rows of a definition. -/
def activeRows (s : ProcessTables) (definitionId : ProcessDefinitionId) :
    List ProcessInstanceRow :=
  s.instances.filter fun row => row.definitionId = definitionId && row.active

def instanceOf (row : ProcessInstanceRow) : Except RepoError ProcessInstance := do
  let ordinal ← U16.ofI64 row.ordinal
  let generation ← U64.ofI64 row.generation
  return { id := row.instanceId, definitionId := row.definitionId, ordinal, generation }

def listProcessInstances (s : ProcessTables) (definitionId : ProcessDefinitionId) :
    Except RepoError (List ProcessInstance) :=
  ((s.activeRows definitionId).insertionSort fun a b => a.ordinal ≤ b.ordinal).mapM instanceOf

/-- The id is drawn at random; one that is taken fails the insertion. -/
def allocateProcessInstance (s : ProcessTables) (definitionId : ProcessDefinitionId)
    (ordinal : U16) (newId : ProcessInstanceId) : Except RepoError ProcessInstance × ProcessTables :=
  if (s.findSpec definitionId).isNone then
    (.error (.notFound ("process definition " ++ toString definitionId.val)), s)
  else if (s.activeRows definitionId).any fun row => row.ordinal = ordinal.val then
    (.error (.conflict ("active process ordinal " ++ toString ordinal.val)), s)
  else if h : s.instances.any (·.instanceId = newId) then
    (.error (.backend "UNIQUE constraint failed: process_instances.instance_id"), s)
  else
    (.ok { id := newId, definitionId, ordinal, generation := 1 },
      { s with
        instances := s.instances ++
          [{ instanceId := newId, definitionId, ordinal := ordinal.val }]
        unique := by
          apply s.unique.append
          intro row hrow heq
          rw [List.any_eq_true] at h
          exact h ⟨row, hrow, decide_eq_true heq⟩ })

def retireProcessInstance (s : ProcessTables) (instanceId : ProcessInstanceId) : ProcessTables :=
  (s.updateInstances (fun row => row.instanceId = instanceId && row.active)
    fun row => { row with active := false }).2

/-- The active row of an instance, at its ordinal and generation. -/
def isSlot (instance_ : ProcessInstance) (generation : ℤ) (row : ProcessInstanceRow) : Bool :=
  row.instanceId = instance_.id && row.definitionId = instance_.definitionId &&
    row.ordinal = instance_.ordinal.val && row.generation = generation && row.active

def promoteProcessInstance (s : ProcessTables) (retired replacement : ProcessInstance) :
    Except RepoError (Option ProcessInstance) × ProcessTables :=
  let tx := Transaction.start s
  match retired.generation.toI64, replacement.generation.toI64 with
  | .ok retiredGeneration, .ok generation =>
    let (affected, tx) := tx.execute fun s =>
      s.updateInstances (isSlot retired retiredGeneration) fun row => { row with active := false }
    if affected ≠ 1 then (.ok none, tx.rollback)
    else
      let (affected, tx) := tx.execute fun s =>
        s.updateInstances (isSlot replacement generation)
          fun row => { row with ordinal := retired.ordinal.val }
      if affected ≠ 1 then (.ok none, tx.rollback)
      else (.ok (some { replacement with ordinal := retired.ordinal }), tx.commit)
  | .error error, _ | _, .error error => (.error error, tx.rollback)

end ProcessTables

inductive ProcessState where
  | starting | running | stopping | crashed | stopped
deriving DecidableEq, Repr

inductive GuardState where
  | unknown | healthy | unhealthy | unsupported
deriving DecidableEq, Repr

/-- A child that the daemon runs. -/
structure RuntimeEntry where
  instance_ : ProcessInstance
  handle : ChildHandle
  state : ProcessState
deriving DecidableEq

def RuntimeEntry.id (entry : RuntimeEntry) : ProcessInstanceId := entry.instance_.id

inductive ProcessOperationKind where
  | scale | rollingRestart
deriving DecidableEq, Repr

inductive ProcessOperationInstanceState where
  | completed | failed | notAttempted | superseded
deriving DecidableEq, Repr

structure ProcessOperationInstanceOutcome where
  instanceId : ProcessInstanceId
  ordinal : U16
  state : ProcessOperationInstanceState
  failedStage : Option String
  retryable : Bool
deriving DecidableEq

structure ProcessOperation where
  operationId : Uuid
  name : String
  kind : ProcessOperationKind
  targetInstances : Option U16
  phase : String
  batch : U32 := 0
  deadline : Option Instant
  oldInstanceIds : List ProcessInstanceId := []
  newInstanceIds : List ProcessInstanceId := []
  compensation : Option String := none
  outcomes : List ProcessOperationInstanceOutcome := []
  completed : Bool := false
deriving DecidableEq

section Runtime

/-- The entries of one process name, by instance. -/
abbrev Runtime := List RuntimeEntry

namespace Runtime

def runtimeEntry (runtime : Runtime) (id : ProcessInstanceId) : Option RuntimeEntry :=
  KeyedRows.find RuntimeEntry.id id runtime

def insertRuntimeEntry (runtime : Runtime) (entry : RuntimeEntry) : Runtime :=
  KeyedRows.insert RuntimeEntry.id runtime entry

def setRuntimeState (runtime : Runtime) (id : ProcessInstanceId) (state : ProcessState) : Runtime :=
  KeyedRows.update RuntimeEntry.id id (fun entry => { entry with state }) runtime

def promoteRuntimeInstance (runtime : Runtime) (id : ProcessInstanceId)
    (promoted : ProcessInstance) : Runtime :=
  KeyedRows.update RuntimeEntry.id id (fun entry => { entry with instance_ := promoted }) runtime

/-- Whether an entry is that of a child. -/
def matchesChild (instance_ : ProcessInstance) (handle : ChildHandle) (entry : RuntimeEntry) :
    Bool :=
  entry.id = instance_.id && entry.instance_.generation = instance_.generation &&
    entry.handle.processId = handle.processId && entry.handle.generation = handle.generation

def removeRuntimeEntryIfMatches (runtime : Runtime) (instance_ : ProcessInstance)
    (handle : ChildHandle) : Runtime :=
  runtime.filter fun entry => !matchesChild instance_ handle entry

end Runtime

end Runtime

/-- A slot while it is replaced. -/
structure ReplacedSlot where
  old : ProcessInstance
  oldEntry : RuntimeEntry
  replacement : ProcessInstance
  /-- The slots that come after it. -/
  rest : List ProcessInstance

/-- Where `rolling_restart_process` stands; it holds the lock of the process all the time. -/
inductive RollingPoint where
  | start
  | next (rest : List ProcessInstance)
  | spawning (slot : ReplacedSlot)
  /-- The entry is inserted, and the owner of its guards starts. -/
  | guarding (slot : ReplacedSlot) (handle : ChildHandle)
  | waiting (slot : ReplacedSlot)
  | draining (slot : ReplacedSlot)
  | promoting (slot : ReplacedSlot)
  | finishing
  /-- The operation was there already. -/
  | replayed
  | returned (result : Except AppError Unit)

structure RollingState where
  spec : ProcessSpec
  tables : ProcessTables
  runtime : Runtime := []
  operations : List ProcessOperation := []
  point : RollingPoint := .start
  operation : Option ProcessOperation := none
  /-- Whether something has failed, or an instance has exited by itself. -/
  hasFailed : Bool := false
  /-- Each replacement with the instance it was allocated for. -/
  allocated : List (ProcessInstanceId × ProcessInstance) := []
  /-- What has been reported healthy, by instance and generation. -/
  reportedHealthy : List (ProcessInstanceId × U64) := []
  /-- The instances that were drained, with their replacements. -/
  drained : List (ProcessInstanceId × ProcessInstance) := []

/-- A stop, by what it does to the entry and whether it succeeds. -/
inductive StopOutcome where
  /-- The guard owner cannot be cancelled, and the entry stays as stopping. -/
  | notCancelled (error : String)
  /-- The signal fails, and the entry is running again. -/
  | notSignalled (error : String)
  /-- The entry is removed, but not the handle. -/
  | notCleaned (error : String)
  | stopped

inductive RollingEvent where
  | start (operationId : Uuid) (now : Instant)
  /-- The next slot; the id is new. -/
  | next (newId : ProcessInstanceId)
  | spawned (handle : ChildHandle)
  | notSpawned (error : String)
  | guarded
  | notGuarded (error : String)
  /-- A guard snapshot that `wait_for_instance_readiness` reads. -/
  | snapshot (instanceId : Option ProcessInstanceId) (logicalGeneration : Option U64)
      (readiness : GuardState)
  /-- The wait ends: by timeout, shutdown, an error, or without the entry. The outcome is that of
  stopping the replacement. -/
  | unready (outcome : StopOutcome)
  | drain (outcome : StopOutcome)
  | promote
  | finish
  /-- A call of the repository fails. -/
  | repoFails (error : RepoError)
  /-- An instance exits by itself. -/
  | exited (id : ProcessInstanceId)

namespace RollingState

def updateOperation (s : RollingState) (f : ProcessOperation → ProcessOperation) : RollingState :=
  { s with operation := s.operation.map f }

/-- An outcome that ends the loop. -/
def breakWith (s : RollingState) (outcome : ProcessOperationInstanceOutcome)
    (compensation : String) : RollingState :=
  { s.updateOperation (fun operation => { operation with
      outcomes := operation.outcomes ++ [outcome], compensation := some compensation }) with
    point := .finishing, hasFailed := true }

/-- `stop_process_instance` -/
def stopInstance (runtime : Runtime) (entry : RuntimeEntry) : StopOutcome → Runtime
  | .notCancelled _ => runtime.setRuntimeState entry.id .stopping
  | .notSignalled _ => runtime.setRuntimeState entry.id .running
  | .notCleaned _ | .stopped =>
    (runtime.setRuntimeState entry.id .stopping).removeRuntimeEntryIfMatches entry.instance_
      entry.handle

/-- The start of `rolling_restart_process`, with the checks of the definition. -/
def startOperation (s : RollingState) (operationId : Uuid) (now : Instant) : RollingState :=
  let refuse (message : String) : RollingState :=
    { s with point := .returned (.error (.invalidRequest message)), hasFailed := true }
  if s.spec.isSystemRegistered then
    refuse "SystemRegistered processes cannot be rolling-restarted"
  else match s.spec.rolling with
    | none => refuse "rolling restart requires a rolling policy and readiness check"
    | some policy =>
      if s.spec.readiness.isNone || !policy.routability then
        refuse
          "rolling restart requires explicit shared_or_external routability and readiness"
      else match s.operations.find? fun operation => operation.operationId = operationId with
        | some replay =>
          if replay.name ≠ s.spec.name ∨ replay.kind ≠ .rollingRestart then
            refuse "operation_id was already used for a different mutation"
          else { s with point := .replayed, operation := some replay }
        | none => match s.tables.listProcessInstances s.spec.definitionId with
          | .error error => { s with point := .returned (.error error.toAppError), hasFailed := true }
          | .ok slots =>
            let operation : ProcessOperation :=
              { operationId, name := s.spec.name, kind := .rollingRestart
                targetInstances := some s.spec.instances
                phase := "spawning_replacement"
                deadline := some (now + (policy.readinessTimeout : ℤ)) }
            { s with
              operations := s.operations ++ [operation]
              operation := some operation
              point := .next slots }

/-- `spec.instances.saturating_add(operation.batch as u16)` -/
def surgeOrdinal (instances : U16) (batch : U32) : U16 :=
  ⟨min (instances.val + batch.val % 2^16) (2^16 - 1), by omega⟩

/-- The loop, for the next slot. -/
def nextSlot (s : RollingState) (newId : ProcessInstanceId) :
    List ProcessInstance → RollingState
  | [] => { s with point := .finishing }
  | old :: rest => match s.runtime.runtimeEntry old.id with
    | none => s.breakWith ⟨old.id, old.ordinal, .notAttempted, some "instance_not_running", true⟩
        "last known healthy capacity retained; missing old instance was not drained"
    | some oldEntry =>
      let batch := (s.operation.map ProcessOperation.batch).getD 0
      match s.tables.allocateProcessInstance s.spec.definitionId
          (surgeOrdinal s.spec.instances batch) newId with
      | (.error error, _) =>
        { s with point := .returned (.error error.toAppError), hasFailed := true }
      | (.ok replacement, tables) =>
        { s.updateOperation (fun operation => { operation with
            oldInstanceIds := operation.oldInstanceIds ++ [old.id]
            newInstanceIds := operation.newInstanceIds ++ [replacement.id]
            batch := ⟨min (operation.batch.val + 1) (2^32 - 1), by omega⟩ }) with
          tables
          allocated := s.allocated ++ [(old.id, replacement)]
          point := .spawning { old, oldEntry, replacement, rest } }

/-- The replacement is given up before the old instance is touched. -/
def abandon (s : RollingState) (slot : ReplacedSlot) (stage compensation : String) :
    RollingState :=
  { s with tables := s.tables.retireProcessInstance slot.replacement.id }.breakWith
    ⟨slot.replacement.id, slot.replacement.ordinal, .failed, some stage, true⟩ compensation

def drainFailed (s : RollingState) (slot : ReplacedSlot) (error : String) : RollingState :=
  s.breakWith ⟨slot.old.id, slot.old.ordinal, .failed, some ("drain: " ++ error), true⟩
    "ready replacement retained; old drain requires operator recovery"

/-- The old instance is stopped. -/
def drain (s : RollingState) (slot : ReplacedSlot) (outcome : StopOutcome) : RollingState :=
  let s := { s with
    runtime := stopInstance s.runtime slot.oldEntry outcome
    drained := s.drained ++ [(slot.old.id, slot.replacement)] }
  match outcome with
  | .notCancelled error | .notSignalled error | .notCleaned error => s.drainFailed slot error
  | .stopped => { s with point := .promoting slot }

def promote (s : RollingState) (slot : ReplacedSlot) : RollingState :=
  match s.tables.promoteProcessInstance slot.old slot.replacement with
  | (.error error, tables) =>
    { s with tables, point := .returned (.error error.toAppError), hasFailed := true }
  | (.ok none, tables) => { s with tables }.breakWith
      ⟨slot.replacement.id, slot.replacement.ordinal, .failed, some "promote", true⟩
      "old slot was drained but replacement promotion needs recovery"
  | (.ok (some promoted), tables) =>
    { s.updateOperation (fun operation => { operation with
        outcomes := operation.outcomes ++ [⟨promoted.id, promoted.ordinal, .completed, none, false⟩] })
      with
      tables
      runtime := s.runtime.promoteRuntimeInstance slot.replacement.id promoted
      point := .next slot.rest }

def finish (operation : ProcessOperation) : ProcessOperation :=
  { operation with
    phase := if operation.outcomes.all fun outcome => outcome.state = .completed then "completed"
      else "failed_closed"
    completed := true }

/-- The point after a failed call of the repository. -/
def isRepositoryCall : RollingPoint → Bool
  | .start | .next _ | .promoting _ | .finishing => true
  | _ => false

def step (s : RollingState) : RollingEvent → Option RollingState
  | .start operationId now => match s.point with
    | .start => some (s.startOperation operationId now)
    | _ => none
  | .next newId => match s.point with
    | .next rest =>
      if (s.runtime.runtimeEntry newId).isSome then none else some (s.nextSlot newId rest)
    | _ => none
  | .spawned handle => match s.point with
    | .spawning slot => some { s with
        runtime := s.runtime.insertRuntimeEntry ⟨slot.replacement, handle, .running⟩
        point := .guarding slot handle }
    | _ => none
  | .notSpawned error => match s.point with
    | .spawning slot => some (s.abandon slot ("spawn: " ++ error)
        "old healthy instance retained after replacement spawn failure")
    | _ => none
  | .guarded => match s.point with
    | .guarding slot _ => some { s with point := .waiting slot }
    | _ => none
  | .notGuarded error => match s.point with
    | .guarding slot handle =>
      some ({ s with runtime := s.runtime.removeRuntimeEntryIfMatches slot.replacement handle }.abandon
        slot ("spawn: " ++ error) "old healthy instance retained after replacement spawn failure")
    | _ => none
  | .snapshot instanceId logicalGeneration readiness => match s.point with
    | .waiting slot =>
      if (s.runtime.runtimeEntry slot.replacement.id).isNone then none
      else if readiness = .healthy then
        let s := match instanceId, logicalGeneration with
          | some id, some generation =>
            { s with reportedHealthy := s.reportedHealthy ++ [(id, generation)] }
          | _, _ => s
        if instanceId = some slot.replacement.id ∧
            logicalGeneration = some slot.replacement.generation then
          some { s with point := .draining slot }
        else some s
      else some s
    | _ => none
  | .unready outcome => match s.point with
    | .waiting slot =>
      let runtime := match s.runtime.runtimeEntry slot.replacement.id with
        | some entry => stopInstance s.runtime entry outcome
        | none => s.runtime
      some ({ s with runtime }.abandon slot "readiness_timeout"
        "old healthy instance retained after readiness failure")
    | _ => none
  | .drain outcome => match s.point with
    | .draining slot => some (s.drain slot outcome)
    | _ => none
  | .promote => match s.point with
    | .promoting slot => some (s.promote slot)
    | _ => none
  | .finish => match s.point with
    | .finishing =>
      let s := s.updateOperation finish
      some { s with
        operations := s.operations.map fun operation =>
          if some operation.operationId = s.operation.map ProcessOperation.operationId then
            s.operation.getD operation
          else operation
        point := .returned (.ok ()) }
    | _ => none
  | .repoFails error =>
    if isRepositoryCall s.point then
      some { s with point := .returned (.error error.toAppError), hasFailed := true }
    else none
  | .exited id => some { s with
      runtime := s.runtime.filter fun entry => entry.id ≠ id, hasFailed := true }

def machine : Machine RollingState RollingEvent where
  step := step

end RollingState

end Supervisor
