import Supervisor.KeyedRows
import Supervisor.ProcessDomain
import Supervisor.Transaction

namespace Supervisor

/-- `i64::try_from`, with the error text of a failed conversion. -/
def U64.toI64 (n : U64) : Except RepoError ℤ :=
  if n.val < 2^63 then .ok n.val
  else .error (.backend "out of range integral type conversion attempted")

/-- `u32::try_from` of an integer column. -/
def U32.ofI64 (n : ℤ) : Except RepoError U32 :=
  if h : 0 ≤ n ∧ n < 2^32 then .ok ⟨n.toNat, by omega⟩
  else .error (.backend "out of range integral type conversion attempted")

/-- One durable slot of a process definition, at one generation of its child. -/
structure ProcessInstance where
  id : ProcessInstanceId
  definitionId : ProcessDefinitionId
  ordinal : U16
  generation : U64
deriving DecidableEq, Repr

/-- The `runtime_*` columns of a row; all null when no child is recorded. -/
structure RuntimeColumns where
  processId : Option Uuid := none
  pid : Option ℤ := none
  pgid : Option ℤ := none
  generation : Option String := none
  startedAt : Option Instant := none
deriving DecidableEq, Repr

def ChildHandle.columns (handle : ChildHandle) : RuntimeColumns :=
  { processId := some handle.processId
    pid := some handle.pid.val
    pgid := handle.pgid.map fun pgid => (pgid.val : ℤ)
    generation := handle.generation
    startedAt := some handle.startedAt }

/-- The child a row records. -/
def RuntimeColumns.handle (columns : RuntimeColumns) : Except RepoError (Option ChildHandle) :=
  match columns.processId, columns.pid, columns.startedAt with
  | some processId, some pid, some startedAt => do
    let pid ← U32.ofI64 pid
    let pgid ← columns.pgid.mapM U32.ofI64
    return some { processId, pid, pgid, generation := columns.generation, startedAt }
  | _, _, _ => .ok none

structure ProcessInstanceRow where
  instanceId : ProcessInstanceId
  definitionId : ProcessDefinitionId
  ordinal : ℤ
  generation : ℤ := 1
  active : Bool := true
  runtime : RuntimeColumns := {}
  restartCount : ℤ := 0
deriving DecidableEq, Repr

/-- The columns of `process_specs` that the instance table falls back on: the
handle and the count of the time when a process had one child. -/
structure ProcessSpecRow where
  definitionId : ProcessDefinitionId
  runtime : RuntimeColumns := {}
  restartCount : ℤ := 0
deriving DecidableEq, Repr

/-- The process tables; the instance id is a primary key. -/
structure ProcessTables where
  specs : List ProcessSpecRow := []
  instances : List ProcessInstanceRow := []
  unique : KeyedRows.Unique ProcessInstanceRow.instanceId instances := by decide
deriving DecidableEq

namespace ProcessTables

/-- `UPDATE process_instances SET … WHERE …`, with the number of rows changed. -/
def updateInstances (s : ProcessTables) (p : ProcessInstanceRow → Bool)
    (f : ProcessInstanceRow → ProcessInstanceRow)
    (hf : ∀ row, (f row).instanceId = row.instanceId := by intro row; rfl) : ℕ × ProcessTables :=
  (s.instances.countP p,
    { s with
      instances := s.instances.map fun row => if p row then f row else row
      unique := by
        have hkeys : ∀ row ∈ s.instances,
            (ProcessInstanceRow.instanceId ∘ fun row => if p row then f row else row) row =
              row.instanceId := by
          intro row _
          by_cases hp : p row = true
          · simp [hp, hf]
          · simp [hp]
        rw [KeyedRows.Unique, List.map_map, List.map_congr_left hkeys]
        exact s.unique })

/-- The row of an instance while it is active and at the instance's generation. -/
def isCurrent (instance_ : ProcessInstance) (generation : ℤ) (row : ProcessInstanceRow) : Bool :=
  row.instanceId = instance_.id && row.generation = generation && row.active

def findSpec (s : ProcessTables) (definitionId : ProcessDefinitionId) : Option ProcessSpecRow :=
  KeyedRows.find ProcessSpecRow.definitionId definitionId s.specs

/-- The columns a reader of an instance goes by. -/
def runtimeColumns (s : ProcessTables) (instance_ : ProcessInstance) (row : ProcessInstanceRow) :
    RuntimeColumns :=
  if row.runtime.processId.isNone && instance_.ordinal = 0 then
    match s.findSpec instance_.definitionId with
    | some legacy => legacy.runtime
    | none => row.runtime
  else row.runtime

def getProcessInstanceRuntimeHandle (s : ProcessTables) (instance_ : ProcessInstance) :
    Except RepoError (Option ChildHandle) := do
  let generation ← instance_.generation.toI64
  match s.instances.find? (isCurrent instance_ generation) with
  | none => return none
  | some row => (s.runtimeColumns instance_ row).handle

/-- The update is made in a transaction that is never committed. -/
def setProcessInstanceRuntimeHandle (s : ProcessTables) (instance_ : ProcessInstance)
    (handle : Option ChildHandle) : Except RepoError Bool × ProcessTables :=
  let runtime := (handle.map ChildHandle.columns).getD {}
  let tx := Transaction.start s
  match instance_.generation.toI64 with
  | .error error => (.error error, tx.rollback)
  | .ok generation =>
    let (affected, tx) := tx.execute fun s =>
      s.updateInstances (isCurrent instance_ generation) fun row => { row with runtime }
    (.ok (affected = 1), tx.rollback)

def clearProcessInstanceRuntimeHandleIfMatches (s : ProcessTables) (instance_ : ProcessInstance)
    (handle : ChildHandle) : Except RepoError Bool × ProcessTables :=
  match instance_.generation.toI64 with
  | .error error => (.error error, s)
  | .ok generation =>
    let (affected, s) := s.updateInstances
      (fun row => isCurrent instance_ generation row &&
        row.runtime.processId = some handle.processId && row.runtime.generation = handle.generation)
      fun row => { row with runtime := {} }
    (.ok (affected = 1), s)

def advanceProcessInstanceGeneration (s : ProcessTables) (instance_ : ProcessInstance) :
    Except RepoError (Option ProcessInstance) × ProcessTables :=
  if h : instance_.generation.val + 1 < 2^64 then
    let next : U64 := ⟨instance_.generation.val + 1, h⟩
    let tx := Transaction.start s
    match next.toI64, instance_.generation.toI64 with
    | .ok nextGeneration, .ok generation =>
      let (affected, tx) := tx.execute fun s =>
        s.updateInstances (isCurrent instance_ generation) fun row =>
          { row with generation := nextGeneration, runtime := {}, restartCount := 0 }
      if affected ≠ 1 then (.ok none, tx.rollback)
      else (.ok (some { instance_ with generation := next }), tx.commit)
    | .error error, _ | _, .error error => (.error error, tx.rollback)
  else (.error (.backend "process instance generation overflow"), s)

/-- Give every definition that never had a slot its ordinal-zero slot. The new
ids are drawn at random; one that is taken fails the insertion. -/
def backfillLegacyProcessInstances (newId : ProcessDefinitionId → ProcessInstanceId) :
    List ProcessSpecRow → ProcessTables → Except RepoError ProcessTables
  | [], s => .ok s
  | spec :: specs, s =>
    if s.instances.any (·.definitionId = spec.definitionId) then
      backfillLegacyProcessInstances newId specs s
    else if h : s.instances.any (·.instanceId = newId spec.definitionId) then
      .error (.backend "UNIQUE constraint failed: process_instances.instance_id")
    else
      backfillLegacyProcessInstances newId specs
        { s with
          instances := s.instances ++
            [{ instanceId := newId spec.definitionId, definitionId := spec.definitionId,
               ordinal := 0 }]
          unique := by
            apply s.unique.append
            intro row hrow heq
            rw [List.any_eq_true] at h
            exact h ⟨row, hrow, decide_eq_true heq⟩ }

/-- Copy a definition's own handle and count to its ordinal-zero slot, unless
that slot records a child. -/
def copyLegacyHandles (s : ProcessTables) : ProcessTables :=
  let legacy (row : ProcessInstanceRow) : Option ProcessSpecRow :=
    (s.findSpec row.definitionId).filter fun spec => spec.runtime.processId.isSome
  (s.updateInstances
    (fun row => row.ordinal = 0 && row.active && row.runtime.processId.isNone &&
      (legacy row).isSome)
    (fun row => { row with
      runtime := ((legacy row).map (·.runtime)).getD {}
      restartCount := ((legacy row).map (·.restartCount)).getD 0 })).2

/-- `connect`: the migrations that touch the instance rows, in one transaction. -/
def connect (s : ProcessTables) (newId : ProcessDefinitionId → ProcessInstanceId) :
    Except RepoError ProcessTables :=
  (backfillLegacyProcessInstances newId s.specs s).map copyLegacyHandles

def getProcessInstanceRestartCount (s : ProcessTables) (instance_ : ProcessInstance) :
    Except RepoError ℕ := do
  let generation ← instance_.generation.toI64
  match s.instances.find? (isCurrent instance_ generation) with
  | none => return 0
  | some row => return (max row.restartCount 0).toNat % 2^32

def setProcessInstanceRestartCount (s : ProcessTables) (instance_ : ProcessInstance)
    (count : U32) : Except RepoError Bool × ProcessTables :=
  let tx := Transaction.start s
  match instance_.generation.toI64 with
  | .error error => (.error error, tx.rollback)
  | .ok generation =>
    let (affected, tx) := tx.execute fun s =>
      s.updateInstances (isCurrent instance_ generation) fun row =>
        { row with restartCount := count.val }
    if affected ≠ 1 then (.ok false, tx.rollback) else (.ok true, tx.commit)

end ProcessTables

end Supervisor
