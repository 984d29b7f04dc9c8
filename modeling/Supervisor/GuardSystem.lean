import Supervisor.RollingRestart

namespace Supervisor

/-- A native child generation of a process. It is the only valid owner key for guard workers. -/
structure GuardGenerationKey where
  instance_ : ProcessInstance
  processId : Uuid
  nativeGeneration : Option String
deriving DecidableEq

namespace GuardGenerationKey

def id (key : GuardGenerationKey) : ProcessInstanceId := key.instance_.id

def fromHandle (instance_ : ProcessInstance) (handle : ChildHandle) : GuardGenerationKey :=
  { instance_, processId := handle.processId, nativeGeneration := handle.generation }

def matchesHandle (key : GuardGenerationKey) (handle : ChildHandle) : Bool :=
  key.processId = handle.processId && key.nativeGeneration = handle.generation

end GuardGenerationKey

inductive GuardRestartCause where
  | watchChanged | memoryCeiling | livenessFailure
deriving DecidableEq

/-- `guard_restart_priority` -/
def GuardRestartCause.priority : GuardRestartCause → ℕ
  | .memoryCeiling => 3
  | .livenessFailure => 2
  | .watchChanged => 1

structure GuardRestartAction where
  key : GuardGenerationKey
  cause : GuardRestartCause
deriving DecidableEq

def GuardRestartAction.id (action : GuardRestartAction) : ProcessInstanceId := action.key.id

/-- Who has the lock of the process. -/
inductive LockHolder where
  | guardPass
  /-- A start, stop, restart, scale or rolling restart. -/
  | operation
  | restart (i : ℕ)
deriving DecidableEq

/-- Where the supervisor loop stands in `reconcile_guard_actions` or `reconcile_direct_processes`. -/
inductive GuardPassPoint where
  | idle
  | actions (rest : List GuardRestartAction)
  /-- An action waits for the lock. -/
  | waiting (action : GuardRestartAction) (rest : List GuardRestartAction)
  /-- The action is current, and the definition is read. -/
  | current (action : GuardRestartAction) (rest : List GuardRestartAction)
  /-- The guard owner is cancelled and its workers are joined. -/
  | cancelling (action : GuardRestartAction) (rest : List GuardRestartAction)
  | stopping (action : GuardRestartAction) (entry : RuntimeEntry) (rest : List GuardRestartAction)
  | arming (action : GuardRestartAction) (rest : List GuardRestartAction)
  /-- The entry of a child that has exited is removed. -/
  | crashed (entry : RuntimeEntry)
  | rearming (instance_ : ProcessInstance)

/-- Where the task of an automatic restart stands. -/
inductive DelayedPoint where
  | sleeping
  | waiting
  | locked
  | advanced (next : ProcessInstance)
  | spawned (next : ProcessInstance)
  /-- The token has changed, and the child is stopped again. -/
  | stopping (entry : RuntimeEntry)
  | finished

structure DelayedRestart where
  instance_ : ProcessInstance
  token : UInt64
  /-- The guard action that has armed it; none after a crash. -/
  source : Option GuardGenerationKey
  point : DelayedPoint := .sleeping

def DelayedRestart.id (restart : DelayedRestart) : ProcessInstanceId := restart.instance_.id

/-- What the daemon has of one process name. -/
structure GuardedState where
  runtime : Runtime := []
  guardOwners : List GuardGenerationKey := []
  pendingGuardActions : List GuardRestartAction := []
  /-- The stored generation of every active instance, be it allocated now or later. -/
  generations : ProcessInstanceId → Option U64
  restartTokens : ProcessInstanceId → UInt64 := fun _ => 0
  pendingRestartNames : List ProcessInstanceId := []
  holder : Option LockHolder := none
  isShuttingDown : Bool := false
  isApplyingConfig : Bool := false
  /-- The workers that have found their key current. -/
  deciding : List GuardGenerationKey := []
  point : GuardPassPoint := .idle
  restarts : List DelayedRestart := []
  /-- The child whose guard owner is started. -/
  starting : Option GuardGenerationKey := none
  processIds : List Uuid := []
  /-- The last child of each instance. -/
  latest : ProcessInstanceId → Option RuntimeEntry := fun _ => none
  /-- Each guard action that has stopped a child, with the child. -/
  stopped : List (GuardGenerationKey × RuntimeEntry) := []
  /-- Each guard action that has spawned a child, with the last child before it. -/
  restarted : List (GuardGenerationKey × Option RuntimeEntry) := []

inductive GuardEvent where
  | setShuttingDown
  | setApplyingConfig (value : Bool)
  | decide (key : GuardGenerationKey)
  | enqueue (key : GuardGenerationKey) (cause : GuardRestartCause)
  | takeActions
  /-- The flags are read before the lock of the next action. -/
  | nextAction (action : GuardRestartAction)
  | endActions
  | lockAction
  | readSpec (direct : Bool)
  | ownerCancelled (fails : Bool)
  | childStopped (outcome : StopOutcome)
  /-- `schedule_automatic_restart`: the retries, the count or the delay may rule it out. -/
  | schedule (arms : Bool)
  | removeDead (entry : RuntimeEntry)
  | crashCancelled (fails : Bool)
  | cancelPendingRestart
  /-- `cancel_guard_owner_instance` of an operation or of the shutdown -/
  | cancelGuardOwner (id : ProcessInstanceId)
  | acquire
  | release
  | spawn (instance_ : ProcessInstance) (handle : ChildHandle) (guarded : Bool)
  | startGuardOwner (fails : Bool)
  | beginStop (entry : RuntimeEntry)
  | endStop (entry : RuntimeEntry) (outcome : StopOutcome)
  | advance (instance_ : ProcessInstance)
  | retire (id : ProcessInstanceId)
  | promote (id : ProcessInstanceId) (ordinal : U16)
  | wake (i : ℕ)
  | lockRestart (i : ℕ)
  | advanceRestart (i : ℕ) (fails : Bool)
  | spawnRestart (i : ℕ) (handle : ChildHandle) (guarded : Bool)
  /-- The definition is gone, or the child cannot be spawned. -/
  | abandonRestart (i : ℕ)
  | forceStop (i : ℕ)
  | finishRestart (i : ℕ) (outcome : StopOutcome)

namespace GuardedState

def guardOwnerIsCurrent (s : GuardedState) (key : GuardGenerationKey) : Bool :=
  (s.runtime.runtimeEntry key.id).any (fun entry =>
    entry.instance_.generation = key.instance_.generation && key.matchesHandle entry.handle) &&
    KeyedRows.find GuardGenerationKey.id key.id s.guardOwners = some key

def cancelGuardOwnerInstance (s : GuardedState) (id : ProcessInstanceId) : GuardedState :=
  { s with
    pendingGuardActions := s.pendingGuardActions.filter fun action => action.id ≠ id
    guardOwners := s.guardOwners.filter fun key => key.id ≠ id }

/-- `enqueue_guard_restart`, after its checks -/
def enqueueGuardRestart (s : GuardedState) (key : GuardGenerationKey)
    (cause : GuardRestartCause) : GuardedState :=
  match KeyedRows.find GuardRestartAction.id key.id s.pendingGuardActions with
  | none => { s with pendingGuardActions := s.pendingGuardActions ++ [⟨key, cause⟩] }
  | some action =>
    if action.key ≠ key then s
    else if action.cause.priority < cause.priority then
      { s with pendingGuardActions :=
          KeyedRows.insert GuardRestartAction.id s.pendingGuardActions ⟨key, cause⟩ }
    else s

def cancelPendingRestart (s : GuardedState) : GuardedState :=
  let ids := s.pendingRestartNames ++ s.runtime.map RuntimeEntry.id
  { s with
    restartTokens := fun id =>
      if id ∈ ids then s.restartTokens id + 1 else s.restartTokens id
    pendingRestartNames := [] }

def scheduleAutomaticRestart (s : GuardedState) (instance_ : ProcessInstance)
    (source : Option GuardGenerationKey) : GuardedState :=
  { s with
    restarts := s.restarts ++ [{ instance_, token := s.restartTokens instance_.id, source }]
    pendingRestartNames := s.pendingRestartNames.insert instance_.id }

/-- What a delayed restart tests before and after it waits for the lock. -/
def isDue (s : GuardedState) (restart : DelayedRestart) : Bool :=
  !s.isShuttingDown && (s.runtime.runtimeEntry restart.id).isNone &&
    s.restartTokens restart.id = restart.token

def setRestart (s : GuardedState) (i : ℕ) (restart : DelayedRestart) (point : DelayedPoint) :
    GuardedState :=
  { s with restarts := s.restarts.set i { restart with point } }

/-- The stored generation is advanced, but for an instance that has changed. -/
def advanceGeneration (s : GuardedState) (instance_ : ProcessInstance) :
    Option (ProcessInstance × GuardedState) :=
  if h : instance_.generation.val + 1 < 2^64 then
    if s.generations instance_.id = some instance_.generation then
      let next : U64 := ⟨instance_.generation.val + 1, h⟩
      some ({ instance_ with generation := next },
        { s with generations := Function.update s.generations instance_.id (some next) })
    else none
  else none

/-- `spawn_process_instance`, up to the start of the guard owner. The id of a child is new. -/
def spawnProcessInstance (s : GuardedState) (instance_ : ProcessInstance) (handle : ChildHandle)
    (guarded : Bool) : Option GuardedState :=
  if s.generations instance_.id = some instance_.generation ∧
      (s.runtime.runtimeEntry instance_.id).isNone ∧ handle.processId ∉ s.processIds then
    let entry : RuntimeEntry := ⟨instance_, handle, .running⟩
    some { s with
      runtime := s.runtime.insertRuntimeEntry entry
      starting := if guarded then some (.fromHandle instance_ handle) else none
      processIds := s.processIds ++ [handle.processId]
      latest := Function.update s.latest instance_.id (some entry) }
  else none

/-- The start of `stop_process_instance` -/
def beginStop (s : GuardedState) (entry : RuntimeEntry) : GuardedState :=
  { s with runtime := s.runtime.setRuntimeState entry.id .stopping }.cancelGuardOwnerInstance entry.id

/-- The rest of `stop_process_instance` -/
def endStop (s : GuardedState) (entry : RuntimeEntry) (outcome : StopOutcome) : GuardedState :=
  { s with runtime := RollingState.stopInstance s.runtime entry outcome }

/-- The lock is released; whatever was spawned under it has its guard owner. -/
def unlock (s : GuardedState) : GuardedState :=
  { s with
    holder := none
    starting := none }

/-- The lock is released, and the next action comes. -/
def continueActions (s : GuardedState) (rest : List GuardRestartAction) : GuardedState :=
  { s.unlock with point := .actions rest }

/-- The steps of `reconcile_guard_actions` and `reconcile_direct_processes`. -/
def passStep (s : GuardedState) : GuardEvent → Option GuardedState
  | .takeActions => match s.point with
    | .idle => some { s with
        point := .actions s.pendingGuardActions
        pendingGuardActions := [] }
    | _ => none
  | .nextAction action => match s.point with
    | .actions rest =>
      if action ∈ rest then
        let rest := rest.erase action
        some { s with point :=
          if s.isShuttingDown || s.isApplyingConfig then .actions rest else .waiting action rest }
      else none
    | _ => none
  | .endActions => match s.point with
    | .actions [] => some { s with point := .idle }
    | _ => none
  | .lockAction => match s.point, s.holder with
    | .waiting action rest, none => some <|
      if s.guardOwnerIsCurrent action.key then
        { s with holder := some .guardPass, point := .current action rest }
      else { s with point := .actions rest }
    | _, _ => none
  | .readSpec direct => match s.point with
    | .current action rest => some <|
      if direct then { s.cancelGuardOwnerInstance action.id with point := .cancelling action rest }
      else s.continueActions rest
    | _ => none
  | .ownerCancelled fails => match s.point with
    | .cancelling action rest => some <|
      if fails then s.continueActions rest
      else match s.runtime.runtimeEntry action.id with
        | none => s.continueActions rest
        | some entry =>
          if entry.instance_.generation ≠ action.key.instance_.generation ∨
              action.key.matchesHandle entry.handle = false then s.continueActions rest
          else { s.beginStop entry with
            point := .stopping action entry rest
            stopped := s.stopped ++ [(action.key, entry)] }
    | _ => none
  | .childStopped outcome => match s.point with
    | .stopping action entry rest =>
      let s := s.endStop entry outcome
      match outcome with
      | .stopped => some { s with point := .arming action rest }
      | _ => some (s.continueActions rest)
    | _ => none
  | .schedule arms => match s.point with
    | .arming action rest =>
      let scheduled := if arms then
          s.scheduleAutomaticRestart action.key.instance_ (some action.key)
        else s
      some (scheduled.continueActions rest)
    | .rearming instance_ =>
      let scheduled := if arms then s.scheduleAutomaticRestart instance_ none else s
      some { scheduled with point := .idle }
    | _ => none
  | .removeDead entry => match s.point with
    | .idle =>
      if s.runtime.any (Runtime.matchesChild entry.instance_ entry.handle) then
        some { s with
          runtime := s.runtime.removeRuntimeEntryIfMatches entry.instance_ entry.handle
          point := .crashed entry }
      else none
    | _ => none
  | .crashCancelled fails => match s.point with
    | .crashed entry => some { s.cancelGuardOwnerInstance entry.id with
        point := if fails then .idle else .rearming entry.instance_ }
    | _ => none
  | _ => none

/-- The steps of the operations on the process. -/
def operationStep (s : GuardedState) : GuardEvent → Option GuardedState
  | .acquire => if s.holder = none then some { s with holder := some .operation } else none
  | .release =>
    if s.holder = some .operation ∧ s.starting = none then some s.unlock else none
  | .spawn instance_ handle guarded =>
    if s.holder = some .operation ∧ s.starting = none then
      s.spawnProcessInstance instance_ handle guarded
    else none
  | .beginStop entry => if s.holder = some .operation then some (s.beginStop entry) else none
  | .endStop entry outcome =>
    if s.holder = some .operation then some (s.endStop entry outcome) else none
  | .advance instance_ =>
    if s.holder = some .operation then (s.advanceGeneration instance_).map Prod.snd else none
  | .retire id =>
    if s.holder = some .operation then
      some { s with generations := Function.update s.generations id none }
    else none
  | .promote id ordinal =>
    if s.holder = some .operation then
      let promote (entry : RuntimeEntry) : RuntimeEntry :=
        { entry with instance_ := { entry.instance_ with ordinal } }
      some { s with runtime := KeyedRows.update RuntimeEntry.id id promote s.runtime }
    else none
  | _ => none

/-- The steps of the task of a delayed restart. -/
def restartStep (s : GuardedState) (i : ℕ) (restart : DelayedRestart) :
    GuardEvent → Option GuardedState
  | .wake _ => match restart.point with
    | .sleeping =>
      let names := if s.restartTokens restart.id = restart.token then
        s.pendingRestartNames.filter (· ≠ restart.id) else s.pendingRestartNames
      some ({ s with pendingRestartNames := names }.setRestart i restart
        (if s.isDue restart then .waiting else .finished))
    | _ => none
  | .lockRestart _ => match restart.point, s.holder with
    | .waiting, none => some <|
      if s.isDue restart then
        { s with holder := some (.restart i) }.setRestart i restart .locked
      else s.setRestart i restart .finished
    | _, _ => none
  | .advanceRestart _ fails => match restart.point with
    | .locked => match fails, s.advanceGeneration restart.instance_ with
      | false, some (next, t) => some (t.setRestart i restart (.advanced next))
      | _, _ => some (s.unlock.setRestart i restart .finished)
    | _ => none
  | .spawnRestart _ handle guarded => match restart.point with
    | .advanced next =>
      let replaced := restart.source.toList.map fun key => (key, s.latest restart.id)
      ({ s with restarted := s.restarted ++ replaced }.setRestart i restart
        (.spawned next)).spawnProcessInstance next handle guarded
    | _ => none
  | .abandonRestart _ => match restart.point with
    | .advanced _ => some (s.unlock.setRestart i restart .finished)
    | _ => none
  | .forceStop _ => match restart.point with
    | .spawned next =>
      if s.starting = none ∧ s.restartTokens next.id ≠ restart.token then
        (s.runtime.runtimeEntry next.id).map fun entry =>
          (s.beginStop entry).setRestart i restart (.stopping entry)
      else none
    | _ => none
  | .finishRestart _ outcome => match restart.point with
    | .spawned _ =>
      if s.starting = none then some (s.unlock.setRestart i restart .finished)
      else none
    | .stopping entry =>
      some ((s.endStop entry outcome).unlock.setRestart i restart .finished)
    | _ => none
  | _ => none

def step (s : GuardedState) : GuardEvent → Option GuardedState
  | .setShuttingDown => some { s with isShuttingDown := true }
  | .setApplyingConfig value => some { s with isApplyingConfig := value }
  | .decide key =>
    if s.guardOwnerIsCurrent key && !s.isShuttingDown && !s.isApplyingConfig then
      some { s with deciding := s.deciding ++ [key] }
    else none
  | .enqueue key cause =>
    if key ∈ s.deciding then
      some ({ s with deciding := s.deciding.erase key }.enqueueGuardRestart key cause)
    else none
  | .cancelPendingRestart => some s.cancelPendingRestart
  | .cancelGuardOwner id => some (s.cancelGuardOwnerInstance id)
  | .startGuardOwner fails => match s.starting with
    | none => none
    | some key => some <|
      if fails then
        { s with
          starting := none
          runtime := s.runtime.filter fun entry =>
            !decide (entry.id = key.id ∧ entry.instance_.generation = key.instance_.generation ∧
              key.matchesHandle entry.handle = true) }
      else
        let cancelled := s.cancelGuardOwnerInstance key.id
        { cancelled with
          starting := none
          guardOwners := cancelled.guardOwners ++ [key] }
  | e@(.wake i) | e@(.lockRestart i) | e@(.advanceRestart i _) | e@(.spawnRestart i _ _)
  | e@(.abandonRestart i) | e@(.forceStop i) | e@(.finishRestart i _) =>
    s.restarts[i]?.bind fun restart => s.restartStep i restart e
  | e => (s.passStep e).or (s.operationStep e)

def machine : Machine GuardedState GuardEvent where
  step := step

end GuardedState

end Supervisor
