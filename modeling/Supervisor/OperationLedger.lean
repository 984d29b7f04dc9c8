import Supervisor.InstanceSlots
import Supervisor.TimerScheduler

namespace Supervisor

/-- What a request of `scale_process` or `rolling_restart_process` asks for. -/
inductive ProcessMutation where
  | scale (target : U16)
  | rollingRestart
deriving DecidableEq

def ProcessMutation.kind : ProcessMutation → ProcessOperationKind
  | .scale _ => .scale
  | .rollingRestart => .rollingRestart

structure OperationRequest where
  name : String
  mutation : ProcessMutation
  operationId : Uuid
deriving DecidableEq

namespace OperationRequest

/-- A count that no process can have. -/
def isOutOfRange (request : OperationRequest) : Bool :=
  match request.mutation with
  | .scale target => !(1 ≤ target && target ≤ 128)
  | .rollingRestart => false

/-- Why a definition does not take the request. -/
def refusal (request : OperationRequest) (spec : ProcessSpec) : Option String :=
  match request.mutation with
  | .scale _ =>
    if spec.isSystemRegistered then some "SystemRegistered processes cannot be scaled" else none
  | .rollingRestart =>
    if spec.isSystemRegistered then some "SystemRegistered processes cannot be rolling-restarted"
    else match spec.rolling with
      | none => some "rolling restart requires a rolling policy and readiness check"
      | some policy =>
        if spec.readiness.isNone || !policy.routability then
          some "rolling restart requires explicit shared_or_external routability and readiness"
        else none

/-- Whether the request is the one that the operation was recorded for. -/
def isReplayOf (request : OperationRequest) (row : ProcessOperation) : Bool :=
  row.name = request.name && row.kind = request.mutation.kind && match request.mutation with
    | .scale target => row.targetInstances = some target
    | .rollingRestart => true

/-- The operation that the request claims. -/
def operation (request : OperationRequest) (spec : ProcessSpec) (now : Instant) : ProcessOperation :=
  match request.mutation with
  | .scale target =>
    { operationId := request.operationId, name := request.name, kind := .scale
      targetInstances := some target, phase := "reconciling", deadline := none }
  | .rollingRestart =>
    { operationId := request.operationId, name := request.name, kind := .rollingRestart
      targetInstances := some spec.instances, phase := "spawning_replacement"
      deadline := some
        (now + ((spec.rolling.bind fun policy => Calendar.chronoDuration policy.readinessTimeout).getD 0 :
          Duration)) }

end OperationRequest

/-- One thing that an operation does to the process. -/
inductive ProcessEffect where
  | specSaved (instances : U16)
  | slotAllocated (id : ProcessInstanceId)
  | spawned (id : ProcessInstanceId)
  | stopped (id : ProcessInstanceId)
  | retired (id : ProcessInstanceId)
  | promoted (id : ProcessInstanceId)
deriving DecidableEq

/-- What an operation has come to when it records itself for the last time. -/
structure OperationProgress where
  batch : U32 := 0
  oldInstanceIds : List ProcessInstanceId := []
  newInstanceIds : List ProcessInstanceId := []
  compensation : Option String := none
  outcomes : List ProcessOperationInstanceOutcome := []

/-- The phase that is reported at the end. -/
def ProcessOperationKind.finalPhase (kind : ProcessOperationKind)
    (outcomes : List ProcessOperationInstanceOutcome) : String :=
  match kind with
  | .scale =>
    if outcomes.any fun outcome => outcome.state = .failed then "partial" else "completed"
  | .rollingRestart =>
    if outcomes.all fun outcome => outcome.state = .completed then "completed"
    else "failed_closed"

namespace ProcessOperation

def finished (operation : ProcessOperation) (progress : OperationProgress) : ProcessOperation :=
  { operation with
    phase := operation.kind.finalPhase progress.outcomes
    batch := progress.batch
    oldInstanceIds := progress.oldInstanceIds
    newInstanceIds := progress.newInstanceIds
    compensation := progress.compensation
    outcomes := progress.outcomes
    completed := true }

/-- What `bootstrap` makes of an operation that a restart interrupted. -/
def failedClosed (operation : ProcessOperation) : ProcessOperation :=
  { operation with
    phase := "failed_closed"
    compensation := some
      (operation.compensation.getD "daemon restarted during operation; manual retry required")
    completed := true }

end ProcessOperation

inductive OperationPoint where
  /-- No operation was recorded under the id, and the claim is to come. -/
  | claiming
  /-- The operation is claimed and has its effects. -/
  | executing
deriving DecidableEq

/-- A request under way, which holds the lock of its process. -/
structure OperationCall where
  call : ℕ
  request : OperationRequest
  operation : ProcessOperation
  point : OperationPoint

structure OperationAnswer where
  call : ℕ
  request : OperationRequest
  answer : Except AppError ProcessOperation

structure LoggedEffect where
  call : ℕ
  operationId : Uuid
  effect : ProcessEffect
deriving DecidableEq

/-- The tables of processes and operations, and the requests. -/
structure LedgerState where
  specs : List ProcessSpec := []
  operations : List ProcessOperation := []
  calls : List OperationCall := []
  isServing : Bool := false
  /-- How many requests have come in. -/
  begun : ℕ := 0
  effects : List LoggedEffect := []
  answers : List OperationAnswer := []
  /-- The claimed operations that a crash has ended. -/
  interrupted : List Uuid := []

/-- What the calls before the claim answer. -/
structure LookupReplies where
  now : Instant := 0
  /-- Another operation on the process holds its lock. -/
  isLocked : Bool := false
  spec : Option RepoError := none
  lookup : Option RepoError := none

/-- What the calls for the incomplete operations answer in `bootstrap`. -/
structure SweepReplies where
  isListed : Bool := true
  isSaved : Uuid → Bool := fun _ => true

inductive LedgerEvent where
  | request (request : OperationRequest) (replies : LookupReplies)
  | claim (call : ℕ) (failure : Option RepoError)
  | perform (call : ℕ) (effect : ProcessEffect)
  /-- The operation returns early with an error, or its caller has gone. -/
  | abandon (call : ℕ) (error : Option AppError)
  | finish (call : ℕ) (progress : OperationProgress) (failure : Option RepoError)
  | crash
  /-- `bootstrap`, with the processes of the configuration when it could be applied -/
  | bootstrap (replies : SweepReplies) (config : Option (List ProcessSpec))

namespace LedgerState

def getSpec (s : LedgerState) (name : String) : Option ProcessSpec :=
  KeyedRows.find ProcessSpec.name name s.specs

def getProcessOperation (s : LedgerState) (operationId : Uuid) : Option ProcessOperation :=
  KeyedRows.find ProcessOperation.operationId operationId s.operations

def saveProcessOperation (s : LedgerState) (operation : ProcessOperation) :
    Except RepoError LedgerState :=
  match s.getProcessOperation operation.operationId with
  | some row =>
    if row.name = operation.name ∧ row.kind = operation.kind then
      .ok { s with
        operations := KeyedRows.update ProcessOperation.operationId operation.operationId
          (fun _ => operation) s.operations }
    else .error (.conflict "operation ID belongs to a different process operation")
  | none =>
    if (s.getSpec operation.name).isSome then
      .ok { s with operations := s.operations ++ [operation] }
    else .error (.backend "FOREIGN KEY constraint failed")

def findCall (s : LedgerState) (call : ℕ) : Option OperationCall :=
  KeyedRows.find OperationCall.call call s.calls

def answer (s : LedgerState) (call : ℕ) (request : OperationRequest)
    (answer : Except AppError ProcessOperation) : LedgerState :=
  { s with answers := s.answers ++ [⟨call, request, answer⟩] }

/-- The request gives its lock back. -/
def endCall (s : LedgerState) (call : ℕ) : LedgerState :=
  { s with calls := s.calls.filter fun c => c.call ≠ call }

/-- `process_lock(name).try_lock()` -/
def isBusy (s : LedgerState) (name : String) : Bool :=
  s.calls.any fun c => c.request.name = name

/-- The definition that the request is about, when it takes the request. -/
def accepted (s : LedgerState) (request : OperationRequest) (r : LookupReplies) :
    Except AppError ProcessSpec :=
  if request.isOutOfRange then .error (.invalidRequest "instances must be between 1 and 128")
  else if r.isLocked || s.isBusy request.name then .error (.conflict .operationBusy)
  else match r.spec with
    | some error => .error error.toAppError
    | none => match s.getSpec request.name with
      | none => .error (.notFound "process" request.name)
      | some spec => match request.refusal spec with
        | some message => .error (.invalidRequest message)
        | none => match r.lookup with
          | some error => .error error.toAppError
          | none => .ok spec

/-- `scale_process` and `rolling_restart_process` up to the lookup of the id -/
def beginRequest (s : LedgerState) (request : OperationRequest) (r : LookupReplies) : LedgerState :=
  let t := { s with begun := s.begun + 1 }
  match s.accepted request r with
  | .error error => t.answer s.begun request (.error error)
  | .ok spec => match s.getProcessOperation request.operationId with
    | some replay => t.answer s.begun request
        (if request.isReplayOf replay then .ok replay
         else .error (.invalidRequest "operation_id was already used for a different mutation"))
    | none => { t with
        calls := s.calls ++ [⟨s.begun, request, request.operation spec r.now, .claiming⟩] }

/-- The first record of the operation -/
def claim (s : LedgerState) (c : OperationCall) (failure : Option RepoError) : LedgerState :=
  match RepoError.orElse failure (s.saveProcessOperation c.operation) with
  | .error error => (s.endCall c.call).answer c.call c.request (.error error.toAppError)
  | .ok t => { t with
      calls := KeyedRows.update OperationCall.call c.call (fun c => { c with point := .executing })
        t.calls }

/-- The last record of the operation -/
def finish (s : LedgerState) (c : OperationCall) (progress : OperationProgress)
    (failure : Option RepoError) : LedgerState :=
  let operation := c.operation.finished progress
  match RepoError.orElse failure (s.saveProcessOperation operation) with
  | .error error => (s.endCall c.call).answer c.call c.request (.error error.toAppError)
  | .ok t => (t.endCall c.call).answer c.call c.request (.ok operation)

/-- An incomplete operation in `bootstrap`; one that is not saved stays as it is. -/
def sweepOne (r : SweepReplies) (s : LedgerState) (operation : ProcessOperation) : LedgerState :=
  if r.isSaved operation.operationId then
    match s.saveProcessOperation operation.failedClosed with
    | .ok t => t
    | .error _ => s
  else s

/-- The sweep of `bootstrap` over the operations that a restart interrupted -/
def sweep (r : SweepReplies) (s : LedgerState) : LedgerState :=
  if r.isListed then
    (s.operations.filter fun operation => !operation.completed).foldl (sweepOne r) s
  else s

/-- `apply_config_snapshot`; the operations of a process go with it. -/
def applyConfig (s : LedgerState) (specs : List ProcessSpec) : LedgerState :=
  { s with
    specs
    operations := s.operations.filter fun operation =>
      specs.any fun spec => spec.name = operation.name }

/-- The rows that an effect changes -/
def applyEffect (s : LedgerState) (name : String) : ProcessEffect → LedgerState
  | .specSaved instances => { s with
      specs := KeyedRows.update ProcessSpec.name name (fun spec => { spec with instances }) s.specs }
  | _ => s

def perform (s : LedgerState) (c : OperationCall) (effect : ProcessEffect) : LedgerState :=
  { s.applyEffect c.request.name effect with
    effects := s.effects ++ [⟨c.call, c.request.operationId, effect⟩] }

def crash (s : LedgerState) : LedgerState :=
  { s with
    isServing := false
    calls := []
    interrupted := s.interrupted ++ (s.calls.filter fun c => c.point = .executing).map fun c =>
      c.request.operationId }

def step (s : LedgerState) : LedgerEvent → Option LedgerState
  | .request request r => if s.isServing then some (s.beginRequest request r) else none
  | .claim call failure => match s.findCall call with
    | some c => if c.point = .claiming then some (s.claim c failure) else none
    | none => none
  | .perform call effect => match s.findCall call with
    | some c => if c.point = .executing then some (s.perform c effect) else none
    | none => none
  | .abandon call error => match s.findCall call with
    | some c => match error with
      | some error => some ((s.endCall call).answer call c.request (.error error))
      | none => some (s.endCall call)
    | none => none
  | .finish call progress failure => match s.findCall call with
    | some c => if c.point = .executing then some (s.finish c progress failure) else none
    | none => none
  | .crash => some s.crash
  | .bootstrap r config =>
    if s.isServing then none
    else
      let swept := s.sweep r
      some { (config.map swept.applyConfig).getD swept with isServing := true }

end LedgerState

def ledgerMachine : Machine LedgerState LedgerEvent where
  step := LedgerState.step

end Supervisor
