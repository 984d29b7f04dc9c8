import Supervisor.ConfigConvert
import Supervisor.RowMap

namespace Supervisor

/-- The durable definitions that a configuration can restore. -/
structure ConfigSnapshot where
  processes : List ProcessSpec := []
  jobs : List Job := []
  runningDirectProcesses : List String := []
deriving DecidableEq, Repr

inductive ApplyMode where
  | merge | replace
deriving DecidableEq, Repr

structure ConfigDiff where
  addedProcesses : List String := []
  updatedProcesses : List String := []
  removedProcesses : List String := []
  addedJobs : List String := []
  updatedJobs : List String := []
  removedJobs : List String := []
deriving DecidableEq, Repr

def ConfigDiff.isEmpty (diff : ConfigDiff) : Bool :=
  diff.addedProcesses.isEmpty && diff.updatedProcesses.isEmpty && diff.removedProcesses.isEmpty
    && diff.addedJobs.isEmpty && diff.updatedJobs.isEmpty && diff.removedJobs.isEmpty

section TargetSnapshot

/-- A loaded job takes over the identity of the stored one. -/
def adoptIdentity (current : List Job) (newTriggerId : Uuid) (job : Job) : Job :=
  match KeyedRows.find Job.name job.name current with
  | some existing =>
    { job with
      id := existing.id
      triggerId := if job.triggerId = 0 then existing.triggerId else job.triggerId }
  | none => if job.triggerId = 0 then { job with triggerId := newTriggerId } else job

/-- The values of a map, ordered by name. -/
def sortByName {α : Type} (name : α → String) (rows : List α) : List α :=
  rows.insertionSort fun a b => name a ≤ name b

/-- `newTriggerIds` are drawn at random, for the jobs without a trigger id. -/
def targetSnapshot (current : ConfigSnapshot) (loaded : LoadedConfig) (mode : ApplyMode)
    (newTriggerIds : String → Uuid) : ConfigSnapshot :=
  let processes := match mode with
    | .merge => current.processes.foldl (KeyedRows.insert ProcessSpec.name) []
    | .replace => []
  let jobs := match mode with
    | .merge => current.jobs.foldl (KeyedRows.insert Job.name) []
    | .replace => []
  let adopted := loaded.jobs.map fun job => adoptIdentity current.jobs (newTriggerIds job.name) job
  { processes := sortByName ProcessSpec.name
      (loaded.processes.foldl (KeyedRows.insert ProcessSpec.name) processes)
    jobs := sortByName Job.name (adopted.foldl (KeyedRows.insert Job.name) jobs)
    runningDirectProcesses := current.runningDirectProcesses }

end TargetSnapshot

section Diff

variable {α : Type} (name : α → String)

/-- The keys of `left` that `right` lacks, in order. -/
def namesOnly (left right : List α) : List String :=
  ((left.map name).filter fun n => (KeyedRows.find name n right).isNone).dedup.insertionSort
    (· ≤ ·)

/-- The keys with different values on the two sides, in order. -/
def changedNames [DecidableEq α] (left right : List α) : List String :=
  ((left.filter fun value =>
    (KeyedRows.find name (name value) right).any (· ≠ value)).map name).dedup.insertionSort (· ≤ ·)

/-- The plan of a dry run and of an apply. -/
def configDiff (current target : ConfigSnapshot) : ConfigDiff :=
  let currentProcesses := current.processes.foldl (KeyedRows.insert ProcessSpec.name) []
  let targetProcesses := target.processes.foldl (KeyedRows.insert ProcessSpec.name) []
  let currentJobs := current.jobs.foldl (KeyedRows.insert Job.name) []
  let targetJobs := target.jobs.foldl (KeyedRows.insert Job.name) []
  { addedProcesses := namesOnly ProcessSpec.name targetProcesses currentProcesses
    updatedProcesses := changedNames ProcessSpec.name targetProcesses currentProcesses
    removedProcesses := namesOnly ProcessSpec.name currentProcesses targetProcesses
    addedJobs := namesOnly Job.name targetJobs currentJobs
    updatedJobs := changedNames Job.name targetJobs currentJobs
    removedJobs := namesOnly Job.name currentJobs targetJobs }

end Diff

/-- The Direct processes that run once an apply is done. -/
def desiredRunningTarget (previous target : ConfigSnapshot) : List String :=
  (target.processes.filter fun spec => spec.managementMode = .direct &&
    (spec.autostart || spec.name ∈ previous.runningDirectProcesses)).map (·.name)

end Supervisor
