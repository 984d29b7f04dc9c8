import Supervisor.DefinitionTables
import Supervisor.InstanceControl

namespace Supervisor

inductive RegistrarError where
  | notSupported
  | unitNameConflict (unitName : String)
  | registrationFailed (message : String)
  | notFound (unitName : String)
deriving DecidableEq, Repr

/-- The units that the service manager of the system knows. -/
structure ServiceUnits where
  registered : List String := []
  running : List String := []
deriving DecidableEq

namespace ServiceUnits

/-- Registering prepares a file, and starts nothing. -/
def register (units : ServiceUnits) (unitName : String) : Option RegistrarError → ServiceUnits
  | none => { units with registered := units.registered.insert unitName }
  | some _ => units

/-- Unregistering also boots the unit out. -/
def unregister (units : ServiceUnits) (unitName : String) : Option RegistrarError → ServiceUnits
  | none => { registered := units.registered.filter (· ≠ unitName)
              running := units.running.filter (· ≠ unitName) }
  | some _ => units

/-- A unit that runs is booted out before it is started again. -/
def start (units : ServiceUnits) (unitName : String) : Option RegistrarError → ServiceUnits
  | none => { units with running := units.running.insert unitName }
  | some _ => { units with running := units.running.filter (· ≠ unitName) }

def stop (units : ServiceUnits) (unitName : String) : Option RegistrarError → ServiceUnits
  | none => { units with running := units.running.filter (· ≠ unitName) }
  | some _ => units

end ServiceUnits

/-- What a call that manages a process answers when it fails. -/
inductive ProcessCallError where
  | app (error : AppError)
  | registrar (error : RegistrarError)
  /-- Of an instance that is started or stopped -/
  | instances (message : String)
deriving DecidableEq

section Storage

/-- `save_spec` of a definition, and of its slots -/
def saveSpec (specs : List ProcessSpec) (tables : ProcessTables) (spec : ProcessSpec)
    (newId : ℕ → ProcessInstanceId) : Except RepoError (List ProcessSpec × ProcessTables) :=
  (saveSpecRow specs spec).bind fun specs =>
    match KeyedRows.find ProcessSpec.name spec.name specs with
    | none => .error (.backend "no rows returned by a query that expected to return at least one row")
    | some row =>
      let tables := if (tables.findSpec row.definitionId).isSome then tables
        else { tables with specs := tables.specs ++ [{ definitionId := row.definitionId }] }
      (tables.syncProcessInstances row.definitionId newId spec.instances.val).map (specs, ·)

/-- `delete_spec`; the slots of the definition go with it. -/
def deleteSpec (specs : List ProcessSpec) (tables : ProcessTables) (name : String) :
    List ProcessSpec × ProcessTables :=
  match KeyedRows.find ProcessSpec.name name specs with
  | none => (specs, tables)
  | some row =>
    (specs.filter fun spec => spec.name ≠ name,
      { specs := tables.specs.filter fun legacy => legacy.definitionId ≠ row.definitionId
        instances := tables.instances.filter fun slot => slot.definitionId ≠ row.definitionId
        unique := tables.unique.filter _ })

end Storage

/-- What the calls of `start_process_inner` answer, by instance. -/
structure ControlReplies where
  list : Option RepoError := none
  /-- The children that were spawned tied -/
  isTied : ProcessInstanceId → Bool := fun _ => false
  stop : ProcessInstanceId → StopReplies := fun _ => {}
  handle : ProcessInstanceId → Option RepoError := fun _ => none
  probe : ProcessInstanceId → Option String := fun _ => none
  clear : ProcessInstanceId → Option RepoError := fun _ => none
  retire : ProcessInstanceId → Option RepoError := fun _ => none
  spawn : ProcessInstanceId → SpawnReplies
  probeRunning : Option String := none

namespace ControlState

def retireInstance (s : ControlState) (id : ProcessInstanceId) (error : Option RepoError) :
    Except String Unit × ControlState :=
  match error with
  | some error => (.error error.message, s)
  | none => (.ok (), { s with tables := s.tables.retireProcessInstance id })

/-- `start_process_inner`, for a slot beyond the count -/
def retireSurplus (r : ControlReplies) (s : ControlState) (instance_ : ProcessInstance) :
    Except String Unit × ControlState :=
  match s.runtime.runtimeEntry instance_.id with
  | some entry =>
    match s.stopInstance entry (r.isTied instance_.id) (r.stop instance_.id) with
    | (.error error, t) => (.error error, t)
    | (.ok (), t) => t.retireInstance instance_.id (r.retire instance_.id)
  | none =>
    match RepoError.orElse (r.handle instance_.id)
        (s.tables.getProcessInstanceRuntimeHandle instance_) with
    | .error error => (.error error.message, s)
    | .ok none => s.retireInstance instance_.id (r.retire instance_.id)
    | .ok (some handle) =>
      match r.probe instance_.id with
      | some error => (.error ("cannot verify process instance " ++ toString instance_.id.val ++
          " before scale-down: " ++ error), s)
      | none =>
        if s.isAlive handle then
          (.error ("cannot retire unowned live process instance " ++ toString instance_.id.val), s)
        else match s.clearHandle instance_ handle (r.clear instance_.id) with
          | (.error error, t) => (.error error.message, t)
          | (.ok _, t) => t.retireInstance instance_.id (r.retire instance_.id)

/-- `start_process_inner`, for a slot below the count; the answer is whether it is started. -/
def startSlot (r : ControlReplies) (s : ControlState) (instance_ : ProcessInstance) :
    Except String Bool × ControlState :=
  if (s.runtime.runtimeEntry instance_.id).isSome then (.ok false, s)
  else match s.spawnInstance instance_ (r.spawn instance_.id) with
    | (.error error, t) => (.error error, t)
    | (.ok (), t) => (.ok true, t)

/-- The loop of `start_process_inner`, up to the first error -/
def startSlots (r : ControlReplies) :
    List ProcessInstance → Bool → ControlState → Except String Bool × ControlState
  | [], isStarted, s => (.ok isStarted, s)
  | instance_ :: rest, isStarted, s =>
    if s.spec.instances ≤ instance_.ordinal then
      match s.retireSurplus r instance_ with
      | (.error error, t) => (.error error, t)
      | (.ok (), t) => startSlots r rest isStarted t
    else match s.startSlot r instance_ with
      | (.error error, t) => (.error error, t)
      | (.ok spawned, t) => startSlots r rest (isStarted || spawned) t

/-- `start_process_inner` of a Direct process -/
def startProcess (s : ControlState) (r : ControlReplies) : Except String Unit × ControlState :=
  match RepoError.orElse r.list (s.tables.listProcessInstances s.spec.definitionId) with
  | .error error => (.error error.message, s)
  | .ok instances => match startSlots r instances false s with
    | (.error error, t) => (.error error, t)
    | (.ok true, t) => (.ok (), t)
    | (.ok false, t) => match r.probeRunning with
      | some error => (.error ("process_state_unverified: " ++ error), t)
      | none =>
        if t.runtime.any fun entry => t.isAlive entry.handle then
          (.error "process is already running", t)
        else (.ok (), t)

end ControlState

/-- The children of a name, with the definitions, and the units of the system. -/
structure HostState extends ControlState where
  specs : List ProcessSpec := []
  units : ServiceUnits := {}

/-- What the calls of `add_process` answer. -/
structure AddReplies extends ControlReplies where
  get : Option RepoError := none
  register : Option RegistrarError := none
  save : Option RepoError := none
  /-- The ids that are drawn for the slots -/
  newId : ℕ → ProcessInstanceId
  require : Option RepoError := none
  startUnit : Option RegistrarError := none
  delete : Option RepoError := none
  unregister : Option RegistrarError := none
  /-- Of the reads of `build_status` -/
  status : Option RepoError := none

namespace HostState

def registerUnit (s : HostState) (spec : ProcessSpec) (reply : Option RegistrarError) :
    Except ProcessCallError Unit × HostState :=
  match spec.managementMode with
  | .direct => (.ok (), s)
  | .systemRegistered unitName => match reply with
    | some error => (.error (.registrar error), s)
    | none => (.ok (), { s with units := s.units.register unitName none })

/-- The answer is not looked at. -/
def unregisterUnit (s : HostState) (spec : ProcessSpec) (reply : Option RegistrarError) :
    HostState :=
  match spec.managementMode with
  | .direct => s
  | .systemRegistered unitName => { s with units := s.units.unregister unitName reply }

/-- `save_spec`; the process is the one of the definition from then on. -/
def saveProcess (s : HostState) (spec : ProcessSpec) (newId : ℕ → ProcessInstanceId) :
    Option RepoError → Except RepoError HostState
  | some error => .error error
  | none => (saveSpec s.specs s.tables spec newId).map fun (specs, tables) =>
    { s with
      specs, tables
      spec := (KeyedRows.find ProcessSpec.name spec.name specs).getD spec }

def deleteProcess (s : HostState) (name : String) : Option RepoError → HostState
  | some _ => s
  | none =>
    let (specs, tables) := deleteSpec s.specs s.tables name
    { s with specs, tables }

/-- `start_process` -/
def startNamed (s : HostState) (r : AddReplies) : Except ProcessCallError Unit × HostState :=
  match r.require with
  | some error => (.error (.app error.toAppError), s)
  | none => match s.spec.managementMode with
    | .direct =>
      let (result, t) := s.startProcess r.toControlReplies
      (result.mapError .instances, { s with toControlState := t })
    | .systemRegistered unitName =>
      (match r.startUnit with
        | some error => .error (.registrar error)
        | none => .ok (), { s with units := s.units.start unitName r.startUnit })

/-- `build_status` only reads. -/
def statusOf (status : Option RepoError) : Except ProcessCallError Unit :=
  match status with
  | some error => .error (.app error.toAppError)
  | none => .ok ()

def addProcess (s : HostState) (spec : ProcessSpec) (r : AddReplies) :
    Except ProcessCallError Unit × HostState :=
  match spec.validate, r.get with
  | .error error, _ => (.error (.app error), s)
  | .ok (), some error => (.error (.app error.toAppError), s)
  | .ok (), none =>
    if (KeyedRows.find ProcessSpec.name spec.name s.specs).isSome then
      (.error (.app (.conflict .nameConflict)), s)
    else match s.registerUnit spec r.register with
      | (.error error, t) => (.error error, t)
      | (.ok (), t) => match t.saveProcess spec r.newId r.save with
        | .error error => (.error (.app error.toAppError), t.unregisterUnit spec r.unregister)
        | .ok t =>
          if spec.autostart then match t.startNamed r with
            | (.error error, t) =>
              (.error error, (t.deleteProcess spec.name r.delete).unregisterUnit spec r.unregister)
            | (.ok (), t) => (statusOf r.status, t)
          else (statusOf r.status, t)

end HostState

end Supervisor
