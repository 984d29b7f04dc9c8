import Supervisor.ActiveRuns
import Supervisor.JobStore
import Supervisor.Machine

namespace Supervisor

/-- Where a call that brings a run onto the registry stands between its
critical sections. -/
inductive DispatchPoint where
  /-- The pending row is stored. -/
  | saved
  /-- The job's running count was read. -/
  | counted (running : ℕ)
  /-- The run is registered as `Queued` and not on the queue yet. -/
  | registered
  /-- The durable admission of a scheduled occurrence answered `Start`. -/
  | admitted
deriving DecidableEq

structure DispatchCall where
  job : Job
  triggeredBy : TriggeredBy
  point : DispatchPoint
deriving DecidableEq

/-- Whether the call's next registration takes the overlap slot at once. -/
def DispatchCall.startsNow (call : DispatchCall) : Bool :=
  match call.point with
  | .counted running => running = 0 || call.job.onOverlap = .parallel
  | .admitted => true
  | .saved | .registered => false

/-- Whether the call's next registration puts the run into phase `Queued`. -/
def DispatchCall.queuesNow (call : DispatchCall) : Bool :=
  match call.point with
  | .counted running => running ≠ 0 && call.job.onOverlap = .queue
  | .saved | .registered | .admitted => false

/-- A run that holds the slot has a task: first the caller about to spawn the
runner, then the runner itself. -/
inductive RunTask where
  | toSpawn | runner
deriving DecidableEq

structure DispatchState where
  store : Store := {}
  registry : ActiveRunState := {}
  calls : JobRunId → Option DispatchCall := fun _ => none
  tasks : JobRunId → Option RunTask := fun _ => none
  /-- The run ids drawn so far. -/
  drawn : Finset JobRunId := ∅
  /-- History: the ids of each job in the order they were queued. -/
  queuedIds : JobId → List JobRunId := fun _ => []
  /-- History: the ids of each job started off its queue, in order. -/
  promotedIds : JobId → List JobRunId := fun _ => []
  /-- History: the queued ids a cancellation or a drain removed. -/
  droppedIds : Finset JobRunId := ∅

inductive DispatchEvent where
  /-- A manual trigger or a dependency completion calls `dispatch_run`. -/
  | dispatch (job : Job) (triggeredBy : TriggeredBy) (runId : JobRunId) (now : Instant)
  | count (runId : JobRunId)
  | register (runId : JobRunId)
  | enqueue (runId : JobRunId)
  /-- The schedule pass reaches an occurrence it listed as due. -/
  | admitOccurrence (durable : DurableScheduleOccurrence) (now : Instant) (runId : JobRunId)
  | spawnActiveRun (runId : JobRunId)
  | publishChild (runId : JobRunId) (child : ChildHandle)
  | finish (runId : JobRunId)
  | finishUnreaped (runId : JobRunId)
  | cancel (jobId : JobId) (runId : JobRunId)
  | drain (jobId : JobId) (tombstone : Bool)
  | freeze (jobId : JobId)
  | thaw (jobId : JobId)
  | finishCleanup (jobId : JobId) (runId : JobRunId)
  | store (op : StoreOp)

/-- The row `dispatch_run` stores before it looks at the registry. -/
def pendingRun (job : Job) (triggeredBy : TriggeredBy) (runId : JobRunId) (now : Instant) :
    JobRun :=
  let occurrence := match triggeredBy with
    | .scheduled occurrence => some occurrence
    | _ => none
  { runId
    jobName := job.name
    jobId := job.id
    triggeredBy
    scheduledAt := (occurrence.map (·.scheduledAt)).getD now
    state := .pending
    occurrence
    originalScheduledAt := occurrence.map (·.scheduledAt) }

namespace DispatchState

/-- `spawn_active_run` is due for the run the registry hands out, if any. -/
def startNext (s : DispatchState) (jobId : JobId) (next : Option ActiveRun) : DispatchState :=
  match next with
  | none => s
  | some run =>
    { s with
      tasks := Function.update s.tasks run.runId (some .toSpawn)
      promotedIds := Function.update s.promotedIds jobId (s.promotedIds jobId ++ [run.runId]) }

def setCall (s : DispatchState) (runId : JobRunId) (call : Option DispatchCall) : DispatchState :=
  { s with calls := Function.update s.calls runId call }

def setTask (s : DispatchState) (runId : JobRunId) (task : Option RunTask) : DispatchState :=
  { s with tasks := Function.update s.tasks runId task }

def dispatch (s : DispatchState) (job : Job) (triggeredBy : TriggeredBy) (runId : JobRunId)
    (now : Instant) : DispatchState :=
  let s' := { s with drawn := insert runId s.drawn }
  if s.registry.isDispatchFrozen job.id then s'
  else
    match s.store.saveRun (pendingRun job triggeredBy runId now) with
    | .error _ => s'
    | .ok store => { s' with store }.setCall runId (some ⟨job, triggeredBy, .saved⟩)

/-- The registration that follows the count, or the durable admission. -/
def register (s : DispatchState) (runId : JobRunId) (call : DispatchCall) : DispatchState :=
  if call.startsNow then
    ({ s with registry := s.registry.register call.job call.triggeredBy runId .starting }.setCall
      runId none).setTask runId (some .toSpawn)
  else if call.queuesNow then
    { s with registry := s.registry.register call.job call.triggeredBy runId .queued }.setCall
      runId (some { call with point := .registered })
  else s.setCall runId none

def enqueue (s : DispatchState) (runId : JobRunId) (call : DispatchCall) : DispatchState :=
  { s with
    registry := s.registry.enqueue call.job.id runId
    queuedIds := Function.update s.queuedIds call.job.id
      (s.queuedIds call.job.id ++ [runId]) }.setCall runId none

/-- One occurrence of the schedule pass: what the durable admission answers
decides whether a run has to be registered. -/
def admitOccurrence (s : DispatchState) (durable : DurableScheduleOccurrence) (now : Instant)
    (runId : JobRunId) : DispatchState :=
  let s' := { s with drawn := insert runId s.drawn }
  match s.store.getJob durable.jobName with
  | none => s'
  | some job =>
    if job.id ≠ durable.jobId || s.registry.isDispatchFrozen job.id then s'
    else
      match s.store.admitScheduleOccurrence job durable.occurrence now runId with
      | .error _ => s'
      | .ok (.start admitted, store) =>
        { s' with store }.setCall runId (some ⟨job, .scheduled admitted.occurrence, .admitted⟩)
      | .ok (_, store) => { s' with store }

/-- The runner task of `runId` ends: `outcome` is what the registry makes of it. -/
def finishTask (s : DispatchState) (runId : JobRunId)
    (outcome : Option ActiveRun × ActiveRunState) : DispatchState :=
  match s.registry.slot runId with
  | none => s.setTask runId none
  | some (jobId, _) => ({ s with registry := outcome.2 }.setTask runId none).startNext jobId
      outcome.1

def cancel (s : DispatchState) (jobId : JobId) (runId : JobRunId) : DispatchState :=
  { s with
    registry := (s.registry.cancelOwned jobId runId).2
    droppedIds := match (s.registry.cancelOwned jobId runId).1 with
      | .queued run => insert run.runId s.droppedIds
      | .active | .missing => s.droppedIds }

def drain (s : DispatchState) (jobId : JobId) (tombstone : Bool) : DispatchState :=
  { s with
    registry := (s.registry.beginDrain jobId tombstone).2
    droppedIds := s.droppedIds ∪ (s.registry.beginDrain jobId tombstone).1.queued }

def step (s : DispatchState) : DispatchEvent → Option DispatchState
  | .dispatch job triggeredBy runId now =>
    if runId ∈ s.drawn then none else some (s.dispatch job triggeredBy runId now)
  | .count runId =>
    match s.calls runId with
    | some ⟨job, triggeredBy, .saved⟩ =>
      some (s.setCall runId
        (some ⟨job, triggeredBy, .counted (s.registry.runningCount job.id)⟩))
    | _ => none
  | .register runId =>
    match s.calls runId with
    | some ⟨job, triggeredBy, .counted running⟩ =>
      some (s.register runId ⟨job, triggeredBy, .counted running⟩)
    | some ⟨job, triggeredBy, .admitted⟩ => some (s.register runId ⟨job, triggeredBy, .admitted⟩)
    | _ => none
  | .enqueue runId =>
    match s.calls runId with
    | some ⟨job, triggeredBy, .registered⟩ =>
      some (s.enqueue runId ⟨job, triggeredBy, .registered⟩)
    | _ => none
  | .admitOccurrence durable now runId => if runId ∈ s.drawn then none else some (s.admitOccurrence durable now runId)
  | .spawnActiveRun runId =>
    if s.tasks runId = some .toSpawn then
      some ({ s with registry := s.registry.setRunner runId }.setTask runId (some .runner))
    else none
  | .publishChild runId child =>
    if s.tasks runId = some .runner then
      some { s with registry := s.registry.publishChild runId child }
    else none
  | .finish runId =>
    if s.tasks runId = some .runner then some (s.finishTask runId (s.registry.finish runId))
    else none
  | .finishUnreaped runId =>
    if s.tasks runId = some .runner then some (s.finishTask runId (s.registry.finishUnreaped runId))
    else none
  | .cancel jobId runId => some (s.cancel jobId runId)
  | .drain jobId tombstone => some (s.drain jobId tombstone)
  | .freeze jobId => some { s with registry := s.registry.freezeDispatch jobId }
  | .thaw jobId => some { s with registry := s.registry.thawDispatch jobId }
  | .finishCleanup jobId runId =>
    some { s with registry := s.registry.finishCleanup jobId runId }
  | .store op => some { s with store := s.store.apply op }

end DispatchState

/-- Every way runs are dispatched, queued, started and ended on one registry. -/
def runDispatch : Machine DispatchState DispatchEvent := ⟨DispatchState.step⟩

/-- A daemon that has just started on the given database. -/
def DispatchState.boot (store : Store) : DispatchState := { store }

open ActiveRunState

/-- What ties the registry, the calls in flight and the runner tasks together. -/
structure DispatchState.Coherent (s : DispatchState) : Prop where
  registry : s.registry.WellFormed
  drawn_of_slot : ∀ r, s.registry.slot r ≠ none → r ∈ s.drawn
  drawn_of_call : ∀ r, s.calls r ≠ none → r ∈ s.drawn
  drawn_of_queue : ∀ j r, r ∈ s.registry.queue j → r ∈ s.drawn
  /-- A call has not registered its run, or has put it into phase `Queued`. -/
  call_slot : ∀ r call, s.calls r = some call → s.registry.slot r = none ∨
    call.point = .registered ∧ s.registry.slot r = some (call.job.id, .queued)
  call_not_queued : ∀ r, s.calls r ≠ none → ∀ j, r ∉ s.registry.queue j
  /-- An id on a queue is still queued, or a stale one. -/
  queue_slot : ∀ j r, r ∈ s.registry.queue j →
    s.registry.slot r = none ∨ s.registry.slot r = some (j, .queued)
  queue_nodup : ∀ j, (s.registry.queue j).Nodup
  task_slot : ∀ r, s.tasks r ≠ none →
    s.registry.slot r ≠ none ∧ ∀ j, s.registry.slot r ≠ some (j, .queued)

namespace DispatchState

variable {s : DispatchState}

theorem coherent_boot (store : Store) : (boot store).Coherent where
  registry := wellFormed_empty
  drawn_of_slot r h := absurd rfl h
  drawn_of_call r h := absurd rfl h
  drawn_of_queue j r h := absurd h (by simp [boot, queue])
  call_slot r call h := absurd h (by simp [boot])
  call_not_queued r h := absurd rfl h
  queue_slot j r h := absurd h (by simp [boot, queue])
  queue_nodup j := by simp [boot, queue]
  task_slot r h := absurd rfl h

theorem Coherent.draw (hc : s.Coherent) (store : Store) {runId : JobRunId} (hfresh : runId ∉ s.drawn)
    (call : DispatchCall) :
    ({ s with store, drawn := insert runId s.drawn }.setCall runId (some call)).Coherent := by
  have hslot : s.registry.slot runId = none := by
    by_contra h
    exact hfresh (hc.drawn_of_slot _ h)
  have hqueue (j : JobId) : runId ∉ s.registry.queue j := fun h => hfresh (hc.drawn_of_queue _ _ h)
  obtain ⟨h1, h2, h3, h4, h5, h6, h7, h8, h9⟩ := hc
  constructor <;> simp only [setCall] <;> grind [Function.update_apply]

theorem Coherent.dropCall (hc : s.Coherent) (runId : JobRunId) : (s.setCall runId none).Coherent := by
  obtain ⟨h1, h2, h3, h4, h5, h6, h7, h8, h9⟩ := hc
  constructor <;> simp only [setCall] <;> grind [Function.update_apply]

theorem Coherent.drawOnly (hc : s.Coherent) (store : Store) (runId : JobRunId) :
    { s with store, drawn := insert runId s.drawn }.Coherent := by
  obtain ⟨h1, h2, h3, h4, h5, h6, h7, h8, h9⟩ := hc
  constructor <;> grind

theorem Coherent.slot_of_call (hc : s.Coherent) {runId : JobRunId} {call : DispatchCall}
    (hcall : s.calls runId = some call) (hpoint : call.point ≠ .registered) :
    s.registry.slot runId = none := by
  obtain h | ⟨h, -⟩ := hc.call_slot runId call hcall
  · exact h
  · exact absurd h hpoint

theorem Coherent.register (hc : s.Coherent) {runId : JobRunId} {call : DispatchCall}
    (hcall : s.calls runId = some call) (hpoint : call.point ≠ .registered) :
    (s.register runId call).Coherent := by
  have hslot := hc.slot_of_call hcall hpoint
  have hqueue := hc.call_not_queued runId (by simp [hcall])
  have hdrawn := hc.drawn_of_call runId (by simp [hcall])
  unfold DispatchState.register
  split
  · have hw := hc.registry.register call.job call.triggeredBy .starting hslot
    obtain ⟨h1, h2, h3, h4, h5, h6, h7, h8, h9⟩ := hc
    constructor <;> simp only [setCall, setTask, slot_register, queue_register] <;>
      grind [Function.update_apply]
  · split
    · have hw := hc.registry.register call.job call.triggeredBy .queued hslot
      obtain ⟨h1, h2, h3, h4, h5, h6, h7, h8, h9⟩ := hc
      constructor <;> simp only [setCall, slot_register, queue_register] <;>
        grind [Function.update_apply]
    · exact hc.dropCall runId

theorem Coherent.enqueue (hc : s.Coherent) {runId : JobRunId} {call : DispatchCall}
    (hcall : s.calls runId = some call) : (s.enqueue runId call).Coherent := by
  have hslot := hc.call_slot runId call hcall
  have hqueue := hc.call_not_queued runId (by simp [hcall])
  have hdrawn := hc.drawn_of_call runId (by simp [hcall])
  have hw : (s.registry.enqueue call.job.id runId).WellFormed := hc.registry.setQueue _
  obtain ⟨h1, h2, h3, h4, h5, h6, h7, h8, h9⟩ := hc
  constructor <;> simp only [DispatchState.enqueue, setCall, slot_enqueue, queue_enqueue]
  · exact hw
  all_goals grind [Function.update_apply, List.nodup_append]

theorem Coherent.sameViews (hc : s.Coherent) {registry : ActiveRunState}
    (hw : registry.WellFormed) (hslot : registry.slot = s.registry.slot)
    (hqueue : registry.queue = s.registry.queue) : { s with registry }.Coherent := by
  obtain ⟨h1, h2, h3, h4, h5, h6, h7, h8, h9⟩ := hc
  constructor <;> simp only [hslot, hqueue] <;> assumption

theorem slot_publishChild_of_task (hc : s.Coherent) {runId : JobRunId} (child : ChildHandle)
    (htask : s.tasks runId ≠ none) : ∃ owner phase phase',
      s.registry.slot runId = some (owner, phase) ∧ phase' ≠ .queued ∧
      phase'.isActive = phase.isActive ∧ (s.registry.publishChild runId child).slot =
        Function.update s.registry.slot runId (some (owner, phase')) := by
  obtain ⟨hslot, hphase⟩ := hc.task_slot runId htask
  obtain ⟨⟨owner, phase⟩, hentry⟩ := Option.ne_none_iff_exists'.mp hslot
  have hne : phase ≠ .queued := fun h => hphase owner (by rw [hentry, h])
  refine ⟨owner, phase, if phase = .tombstoned then .tombstoned else .running, hentry, ?_, ?_, ?_⟩
  · split <;> simp
  · cases phase <;> first | rfl | exact absurd rfl hne
  · rw [slot_publishChild, hentry, Option.map_some]

theorem Coherent.publishChild (hc : s.Coherent) {runId : JobRunId} (child : ChildHandle)
    (htask : s.tasks runId ≠ none) :
    { s with registry := s.registry.publishChild runId child }.Coherent := by
  have hw := @WellFormed.publishChild _ runId hc.registry child
  obtain ⟨owner, phase, phase', hentry, hne, -, hslot⟩ := slot_publishChild_of_task hc child htask
  obtain ⟨h1, h2, h3, h4, h5, h6, h7, h8, h9⟩ := hc
  constructor <;> simp only [hslot, queue_publishChild]
  · exact hw
  all_goals grind [Function.update_apply]

/-- The state once the run of a finished task has left the registry. -/
def withoutRun (s : DispatchState) (registry : ActiveRunState) (runId : JobRunId) :
    DispatchState :=
  { s with registry }.setTask runId none

theorem Coherent.remove (hc : s.Coherent) {registry : ActiveRunState} {runId : JobRunId}
    (hw : registry.WellFormed) (hslot : registry.slot = Function.update s.registry.slot runId none)
    (hqueue : registry.queue = s.registry.queue) :
    (s.withoutRun registry runId).Coherent := by
  obtain ⟨h1, h2, h3, h4, h5, h6, h7, h8, h9⟩ := hc
  constructor <;> simp only [withoutRun, setTask, hslot, hqueue]
  · exact hw
  all_goals grind [Function.update_apply]

/-- The id a promotion hands out, and what it leaves in the registry. -/
theorem promote_cases (hc : s.Coherent) (jobId : JobId) :
    (s.registry.queue jobId = [] ∧ s.registry.promote jobId = (none, s.registry)) ∨
    (∃ next rest, s.registry.queue jobId = next :: rest ∧ s.registry.slot next = none ∧
      s.registry.promote jobId = (none, s.registry.setQueue jobId rest)) ∨
    (∃ next rest record, s.registry.queue jobId = next :: rest ∧
      s.registry.slot next = some (jobId, .queued) ∧
      record.runId = next ∧ (s.registry.promote jobId).1 = some record ∧
      (s.registry.promote jobId).2.slot =
        Function.update s.registry.slot next (some (jobId, .starting)) ∧
      (s.registry.promote jobId).2.queue = Function.update s.registry.queue jobId rest) := by
  cases hq : s.registry.queue jobId with
  | nil => exact .inl ⟨rfl, promote_of_queue_nil hq⟩
  | cons next rest =>
    have hhead : next ∈ s.registry.queue jobId := by rw [hq]; exact List.mem_cons_self
    obtain hslot | hslot := hc.queue_slot jobId next hhead
    · exact .inr (.inl ⟨next, rest, rfl, hslot, promote_of_stale hq hslot⟩)
    · obtain ⟨-, record, hrecord, hrun⟩ := promote_of_queue_cons hq hslot
      exact .inr (.inr ⟨next, rest, record.run, rfl, hslot, hc.registry.named next record hrecord,
        hrun, slot_promote hq hslot, queue_promote hq hslot⟩)

/-- The slot passes on to the head of the queue. -/
def promoteNext (s : DispatchState) (jobId : JobId) : DispatchState :=
  { s with registry := (s.registry.promote jobId).2 }.startNext jobId (s.registry.promote jobId).1

theorem Coherent.promoteNext (hc : s.Coherent) (jobId : JobId) :
    (s.promoteNext jobId).Coherent := by
  have hw := @WellFormed.promote _ jobId hc.registry
  obtain ⟨-, h⟩ | ⟨next, rest, hq, hslot, h⟩ | ⟨next, rest, record, hq, hslot, hid, hrun, hs, hqs⟩ :=
    promote_cases hc jobId
  · rw [DispatchState.promoteNext, h]
    exact hc
  · rw [DispatchState.promoteNext, h]
    rw [h] at hw
    obtain ⟨h1, h2, h3, h4, h5, h6, h7, h8, h9⟩ := hc
    constructor <;> simp only [startNext, slot_setQueue, queue_setQueue]
    · exact hw
    all_goals grind [Function.update_apply]
  · have hnodup := hc.queue_nodup jobId
    have hnocall := hc.call_not_queued next
    obtain ⟨h1, h2, h3, h4, h5, h6, h7, h8, h9⟩ := hc
    constructor <;> simp only [DispatchState.promoteNext, hrun, startNext, hid, hs, hqs]
    · exact hw
    all_goals grind [Function.update_apply]

theorem finishTask_finish {runId : JobRunId} {jobId : JobId} {phase : ActiveRunPhase}
    (hslot : s.registry.slot runId = some (jobId, phase)) :
    s.finishTask runId (s.registry.finish runId) =
      if ((s.registry.removeRun jobId runId).activeRuns jobId).Nonempty then
        s.withoutRun (s.registry.removeRun jobId runId) runId
      else (s.withoutRun (s.registry.removeRun jobId runId) runId).promoteNext jobId := by
  by_cases hother : ((s.registry.removeRun jobId runId).activeRuns jobId).Nonempty
  · rw [if_pos hother, finishTask, hslot, finish_eq hslot, if_pos hother]
    rfl
  · rw [if_neg hother, finishTask, hslot, finish_eq hslot, if_neg hother]
    rfl

theorem finishTask_finishUnreaped {runId : JobRunId} {jobId : JobId} {phase : ActiveRunPhase}
    (hslot : s.registry.slot runId = some (jobId, phase)) :
    s.finishTask runId (s.registry.finishUnreaped runId) =
      (s.withoutRun (s.registry.handOver jobId runId) runId).promoteNext jobId := by
  rw [finishTask, hslot, finishUnreaped_eq hslot]
  rfl

theorem Coherent.cancel (hc : s.Coherent) (jobId : JobId) (runId : JobRunId) :
    (s.cancel jobId runId).Coherent := by
  have hw := @WellFormed.cancelOwned _ jobId runId hc.registry
  by_cases hslot : s.registry.slot runId = some (jobId, .queued)
  · have heq := cancelOwned_of_queued hslot
    rw [heq] at hw
    obtain ⟨h1, h2, h3, h4, h5, h6, h7, h8, h9⟩ := hc
    constructor <;> simp only [DispatchState.cancel, heq, slot_removeRun, queue_removeRun,
      slot_setQueue, queue_setQueue, slot_signal, queue_signal]
    · exact hw
    all_goals grind [Function.update_apply]
  · have hsame : (s.registry.cancelOwned jobId runId).2.slot = s.registry.slot ∧
        (s.registry.cancelOwned jobId runId).2.queue = s.registry.queue := by
      obtain h | h := cancelOwned_of_not_queued hslot
      · rw [h]; exact ⟨rfl, rfl⟩
      · rw [h]; exact ⟨slot_signal, queue_signal⟩
    obtain ⟨h1, h2, h3, h4, h5, h6, h7, h8, h9⟩ := hc.sameViews hw hsame.1 hsame.2
    exact ⟨h1, h2, h3, h4, h5, h6, h7, h8, h9⟩

theorem Coherent.drain (hc : s.Coherent) (jobId : JobId) (tombstone : Bool) :
    (s.drain jobId tombstone).Coherent := by
  have hw : (s.registry.beginDrain jobId tombstone).2.WellFormed := hc.registry.beginDrain tombstone
  have hslot := slot_beginDrain jobId hc.registry tombstone
  obtain ⟨h1, h2, h3, h4, h5, h6, h7, h8, h9⟩ := hc
  constructor <;> simp only [DispatchState.drain, queue_beginDrain]
  · exact hw
  all_goals grind [Function.update_apply]

theorem Coherent.finish (hc : s.Coherent) {runId : JobRunId} {jobId : JobId}
    {phase : ActiveRunPhase} (hslot : s.registry.slot runId = some (jobId, phase)) :
    (s.finishTask runId (s.registry.finish runId)).Coherent := by
  have hremoved : (s.withoutRun (s.registry.removeRun jobId runId) runId).Coherent :=
    hc.remove (hc.registry.removeRun hslot) (slot_removeRun ..) rfl
  rw [finishTask_finish hslot]
  split
  · exact hremoved
  · exact hremoved.promoteNext jobId

theorem Coherent.finishUnreaped (hc : s.Coherent) {runId : JobRunId} {jobId : JobId}
    {phase : ActiveRunPhase} (hslot : s.registry.slot runId = some (jobId, phase)) :
    (s.finishTask runId (s.registry.finishUnreaped runId)).Coherent := by
  have hremoved : (s.withoutRun (s.registry.handOver jobId runId) runId).Coherent :=
    hc.remove (hc.registry.handOver hslot) slot_handOver rfl
  rw [finishTask_finishUnreaped hslot]
  exact hremoved.promoteNext jobId

theorem Coherent.dispatch (hc : s.Coherent) {runId : JobRunId} (hfresh : runId ∉ s.drawn)
    (job : Job) (triggeredBy : TriggeredBy) (now : Instant) :
    (s.dispatch job triggeredBy runId now).Coherent := by
  unfold DispatchState.dispatch
  split
  · exact hc.drawOnly s.store runId
  · split
    · exact hc.drawOnly s.store runId
    · exact hc.draw _ hfresh _

theorem Coherent.admitOccurrence (hc : s.Coherent) {runId : JobRunId} (hfresh : runId ∉ s.drawn)
    (durable : DurableScheduleOccurrence) (now : Instant) :
    (s.admitOccurrence durable now runId).Coherent := by
  unfold DispatchState.admitOccurrence
  split
  · exact hc.drawOnly s.store runId
  · split
    · exact hc.drawOnly s.store runId
    · split
      · exact hc.drawOnly s.store runId
      · exact hc.draw _ hfresh _
      · exact hc.drawOnly _ runId

theorem Coherent.count (hc : s.Coherent) {runId : JobRunId} {job : Job} {triggeredBy : TriggeredBy}
    (hcall : s.calls runId = some ⟨job, triggeredBy, .saved⟩) (running : ℕ) :
    (s.setCall runId (some ⟨job, triggeredBy, .counted running⟩)).Coherent := by
  have hslot := hc.slot_of_call hcall (by simp)
  obtain ⟨h1, h2, h3, h4, h5, h6, h7, h8, h9⟩ := hc
  constructor <;> simp only [setCall] <;> grind [Function.update_apply]

theorem Coherent.spawnActiveRun (hc : s.Coherent) {runId : JobRunId}
    (htask : s.tasks runId = some .toSpawn) :
    ({ s with registry := s.registry.setRunner runId }.setTask runId (some .runner)).Coherent := by
  have hw := @WellFormed.setRunner _ runId hc.registry
  have hslot := hc.task_slot runId (by simp [htask])
  obtain ⟨h1, h2, h3, h4, h5, h6, h7, h8, h9⟩ := hc
  constructor <;> simp only [setTask, slot_setRunner, queue_setRunner]
  · exact hw
  all_goals grind [Function.update_apply]

theorem Coherent.aside (hc : s.Coherent) {registry : ActiveRunState}
    (hruns : registry.runs = s.registry.runs)
    (hindex : registry.runsByJob = s.registry.runsByJob)
    (hqueue : registry.queuedByJob = s.registry.queuedByJob) (store : Store) :
    { s with store, registry }.Coherent := by
  have hslot : registry.slot = s.registry.slot := by funext r; rw [slot, slot, hruns]
  have hqueues : registry.queue = s.registry.queue := by funext j; rw [queue, queue, hqueue]
  have hw : registry.WellFormed :=
    ⟨by rw [hindex, hslot]; exact hc.registry.index, by rw [hruns]; exact hc.registry.named⟩
  obtain ⟨h1, h2, h3, h4, h5, h6, h7, h8, h9⟩ := hc.sameViews hw hslot hqueues
  exact ⟨h1, h2, h3, h4, h5, h6, h7, h8, h9⟩

theorem registry_dispatch (job : Job) (triggeredBy : TriggeredBy) (runId : JobRunId) (now : Instant) :
    (s.dispatch job triggeredBy runId now).registry = s.registry := by
  unfold DispatchState.dispatch
  split
  · rfl
  · split <;> rfl

theorem registry_admitOccurrence (durable : DurableScheduleOccurrence) (now : Instant)
    (runId : JobRunId) : (s.admitOccurrence durable now runId).registry = s.registry := by
  unfold DispatchState.admitOccurrence
  split
  · rfl
  · split
    · rfl
    · split <;> rfl

/-- What one event can do, with the facts its guard leaves behind. -/
inductive Stepped (s : DispatchState) : DispatchEvent → DispatchState → Prop
  | dispatch {job triggeredBy runId now} (hfresh : runId ∉ s.drawn) :
    Stepped s (.dispatch job triggeredBy runId now) (s.dispatch job triggeredBy runId now)
  | count {job triggeredBy runId} (hcall : s.calls runId = some ⟨job, triggeredBy, .saved⟩) :
    Stepped s (.count runId)
      (s.setCall runId (some ⟨job, triggeredBy, .counted (s.registry.runningCount job.id)⟩))
  | register {runId call} (hcall : s.calls runId = some call) (hpoint : call.point ≠ .registered) :
    Stepped s (.register runId) (s.register runId call)
  | enqueue {runId call} (hcall : s.calls runId = some call) (hpoint : call.point = .registered) :
    Stepped s (.enqueue runId) (s.enqueue runId call)
  | admitOccurrence {durable now runId} (hfresh : runId ∉ s.drawn) :
    Stepped s (.admitOccurrence durable now runId) (s.admitOccurrence durable now runId)
  | spawnActiveRun {runId} (htask : s.tasks runId = some .toSpawn) :
    Stepped s (.spawnActiveRun runId)
      ({ s with registry := s.registry.setRunner runId }.setTask runId (some .runner))
  | publishChild {runId child} (htask : s.tasks runId = some .runner) :
    Stepped s (.publishChild runId child)
      { s with registry := s.registry.publishChild runId child }
  | finish {runId jobId phase} (hslot : s.registry.slot runId = some (jobId, phase))
    (hphase : phase ≠ .queued) :
    Stepped s (.finish runId) (s.finishTask runId (s.registry.finish runId))
  | finishUnreaped {runId jobId phase} (hslot : s.registry.slot runId = some (jobId, phase))
    (hphase : phase ≠ .queued) :
    Stepped s (.finishUnreaped runId) (s.finishTask runId (s.registry.finishUnreaped runId))
  | cancel {jobId runId} : Stepped s (.cancel jobId runId) (s.cancel jobId runId)
  | drain {jobId tombstone} : Stepped s (.drain jobId tombstone) (s.drain jobId tombstone)
  /-- Freezing, thawing, a finished cleanup, and the transactions of others. -/
  | aside {e registry store} (hruns : registry.runs = s.registry.runs)
    (hindex : registry.runsByJob = s.registry.runsByJob)
    (hqueue : registry.queuedByJob = s.registry.queuedByJob) :
    Stepped s e { s with store, registry }

theorem Coherent.stepped (hc : s.Coherent) {e : DispatchEvent} {t : DispatchState}
    (h : runDispatch.step s e = some t) : Stepped s e t := by
  have hslot {runId : JobRunId} (htask : s.tasks runId = some .runner) :
      ∃ jobId phase, s.registry.slot runId = some (jobId, phase) ∧ phase ≠ .queued := by
    obtain ⟨hsome, hphase⟩ := hc.task_slot runId (by simp [htask])
    obtain ⟨⟨jobId, phase⟩, hentry⟩ := Option.ne_none_iff_exists'.mp hsome
    exact ⟨jobId, phase, hentry, fun h => hphase jobId (by rw [hentry, h])⟩
  cases e with
  | dispatch job triggeredBy runId now =>
    obtain ⟨hfresh, ⟨⟩⟩ := Option.ite_none_left_eq_some.mp h
    exact .dispatch hfresh
  | count runId =>
    change (match s.calls runId with | some ⟨job, triggeredBy, .saved⟩ => _ | _ => none) = _ at h
    split at h
    · rename_i hcall
      exact Option.some.inj h ▸ .count hcall
    · cases h
  | register runId =>
    simp only [runDispatch, DispatchState.step] at h
    split at h
    · rename_i hcall
      exact Option.some.inj h ▸ .register hcall (by simp)
    · rename_i hcall
      exact Option.some.inj h ▸ .register hcall (by simp)
    · cases h
  | enqueue runId =>
    simp only [runDispatch, DispatchState.step] at h
    split at h
    · rename_i hcall
      exact Option.some.inj h ▸ .enqueue hcall rfl
    · cases h
  | admitOccurrence durable now runId =>
    obtain ⟨hfresh, ⟨⟩⟩ := Option.ite_none_left_eq_some.mp h
    exact .admitOccurrence hfresh
  | spawnActiveRun runId =>
    obtain ⟨htask, ⟨⟩⟩ := Option.ite_none_right_eq_some.mp h
    exact .spawnActiveRun htask
  | publishChild runId child =>
    obtain ⟨htask, ⟨⟩⟩ := Option.ite_none_right_eq_some.mp h
    exact .publishChild htask
  | finish runId =>
    obtain ⟨htask, ⟨⟩⟩ := Option.ite_none_right_eq_some.mp h
    obtain ⟨jobId, phase, hentry, hphase⟩ := hslot htask
    exact .finish hentry hphase
  | finishUnreaped runId =>
    obtain ⟨htask, ⟨⟩⟩ := Option.ite_none_right_eq_some.mp h
    obtain ⟨jobId, phase, hentry, hphase⟩ := hslot htask
    exact .finishUnreaped hentry hphase
  | cancel jobId runId => exact Option.some.inj h ▸ .cancel
  | drain jobId tombstone => exact Option.some.inj h ▸ .drain
  | freeze jobId => exact Option.some.inj h ▸ .aside rfl rfl rfl
  | thaw jobId => exact Option.some.inj h ▸ .aside rfl rfl rfl
  | finishCleanup jobId runId => exact Option.some.inj h ▸ .aside rfl rfl rfl
  | store op => exact Option.some.inj h ▸ .aside rfl rfl rfl

/-- Every event keeps the state coherent. -/
theorem Coherent.step (hc : s.Coherent) {e : DispatchEvent} {t : DispatchState}
    (h : runDispatch.step s e = some t) : t.Coherent := by
  cases hc.stepped h with
  | dispatch hfresh => exact hc.dispatch hfresh _ _ _
  | count hcall => exact hc.count hcall _
  | register hcall hpoint => exact hc.register hcall hpoint
  | enqueue hcall _ => exact hc.enqueue hcall
  | admitOccurrence hfresh => exact hc.admitOccurrence hfresh _ _
  | spawnActiveRun htask => exact hc.spawnActiveRun htask
  | publishChild htask => exact hc.publishChild _ (by simp [htask])
  | finish hslot _ => exact hc.finish hslot
  | finishUnreaped hslot _ => exact hc.finishUnreaped hslot
  | cancel => exact hc.cancel _ _
  | drain => exact hc.drain _ _
  | aside hruns hindex hqueue => exact hc.aside hruns hindex hqueue _

end DispatchState

end Supervisor
