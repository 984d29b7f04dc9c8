import Mathlib.Data.Finset.Card
import Supervisor.JobDomain

namespace Supervisor

inductive ActiveRunPhase where
  | queued | starting | running | tombstoned
deriving DecidableEq, Repr

/-- The phases that occupy the job's overlap slot. -/
def ActiveRunPhase.isActive : ActiveRunPhase → Bool
  | .starting | .running => true
  | .queued | .tombstoned => false

structure ActiveRun where
  job : Job
  triggeredBy : TriggeredBy
  runId : JobRunId
  /-- The value last sent on the cancellation channel. -/
  cancellation : Bool := false
  child : Option ChildHandle := none
  /-- Whether the join handle of the runner task is stored here. -/
  runner : Bool := false
deriving DecidableEq

structure ActiveRunRecord where
  run : ActiveRun
  phase : ActiveRunPhase
deriving DecidableEq

/-- The maps behind the registry's one mutex. A missing key is `none`. -/
structure ActiveRunState where
  runs : JobRunId → Option ActiveRunRecord := fun _ => none
  runsByJob : JobId → Option (Finset JobRunId) := fun _ => none
  queuedByJob : JobId → Option (List JobRunId) := fun _ => none
  cleanupByJob : JobId → Option (Finset JobRunId) := fun _ => none
  tombstonedJobs : Finset JobId := ∅
  frozenJobs : Finset JobId := ∅

inductive CancelledRun where
  | queued (run : ActiveRun)
  | active
  | missing

/-- What a drain hands back: the queued runs it removed, and the runs whose
join handle it took. -/
structure DrainedRuns where
  queued : Finset JobRunId
  runners : Finset JobRunId

/-- Remove an id from one job's set, and the set itself once it is empty. -/
def eraseFromJob (m : JobId → Option (Finset JobRunId)) (jobId : JobId) (runId : JobRunId) :
    JobId → Option (Finset JobRunId) :=
  match m jobId with
  | none => m
  | some runIds =>
    Function.update m jobId (if runIds.erase runId = ∅ then none else some (runIds.erase runId))

namespace ActiveRunState

def register (s : ActiveRunState) (job : Job) (triggeredBy : TriggeredBy) (runId : JobRunId)
    (phase : ActiveRunPhase) : ActiveRunState :=
  { s with
    runsByJob := Function.update s.runsByJob job.id
      (some (insert runId ((s.runsByJob job.id).getD ∅)))
    runs := Function.update s.runs runId (some ⟨{ job, triggeredBy, runId }, phase⟩) }

/-- The job's runs that hold its overlap slot. -/
def activeRuns (s : ActiveRunState) (jobId : JobId) : Finset JobRunId :=
  ((s.runsByJob jobId).getD ∅).filter fun runId =>
    (s.runs runId).any fun record => record.phase.isActive

def runningCount (s : ActiveRunState) (jobId : JobId) : ℕ := (s.activeRuns jobId).card

def hasRuns (s : ActiveRunState) (jobId : JobId) : Bool :=
  (s.runsByJob jobId).any (· ≠ ∅) || (s.cleanupByJob jobId).any (· ≠ ∅)

def freezeDispatch (s : ActiveRunState) (jobId : JobId) : ActiveRunState :=
  { s with frozenJobs := insert jobId s.frozenJobs }

def thawDispatch (s : ActiveRunState) (jobId : JobId) : ActiveRunState :=
  { s with frozenJobs := s.frozenJobs.erase jobId }

def isDispatchFrozen (s : ActiveRunState) (jobId : JobId) : Bool := jobId ∈ s.frozenJobs

def queuedRuns (s : ActiveRunState) (jobId : JobId) : List ActiveRun :=
  ((s.queuedByJob jobId).getD []).filterMap fun runId => (s.runs runId).map (·.run)

/-- Store one job's queue. -/
def setQueue (s : ActiveRunState) (jobId : JobId) (runIds : List JobRunId) : ActiveRunState :=
  { s with queuedByJob := Function.update s.queuedByJob jobId (some runIds) }

def enqueue (s : ActiveRunState) (jobId : JobId) (runId : JobRunId) : ActiveRunState :=
  s.setQueue jobId ((s.queuedByJob jobId).getD [] ++ [runId])

/-- Change one registered record in place. -/
def modify (s : ActiveRunState) (runId : JobRunId) (f : ActiveRunRecord → ActiveRunRecord) :
    ActiveRunState :=
  { s with runs := Function.update s.runs runId ((s.runs runId).map f) }

def setRunner (s : ActiveRunState) (runId : JobRunId) : ActiveRunState :=
  s.modify runId fun record => { record with run := { record.run with runner := true } }

def publishChild (s : ActiveRunState) (runId : JobRunId) (child : ChildHandle) : ActiveRunState :=
  s.modify runId fun record =>
    { run := { record.run with child := some child }
      phase := if record.phase = .tombstoned then .tombstoned else .running }

def shouldPersistTerminal (s : ActiveRunState) (runId : JobRunId) : Bool :=
  (s.runs runId).any fun record =>
    record.phase ≠ .tombstoned && record.run.job.id ∉ s.tombstonedJobs

/-- Take a run off the registry and off the index of its job. -/
def removeRun (s : ActiveRunState) (jobId : JobId) (runId : JobRunId) : ActiveRunState :=
  { s with
    runs := Function.update s.runs runId none
    runsByJob := eraseFromJob s.runsByJob jobId runId }

/-- Cancel a run only when the named job still owns it. -/
def cancelOwned (s : ActiveRunState) (jobId : JobId) (runId : JobRunId) :
    CancelledRun × ActiveRunState :=
  match s.runs runId with
  | none => (.missing, s)
  | some record =>
    if record.run.job.id ≠ jobId then (.missing, s)
    else
      let s' := s.modify runId fun record =>
        { record with run := { record.run with cancellation := true } }
      if record.phase ≠ .queued then (.active, s')
      else
        let runIds := ((s.queuedByJob jobId).getD []).filter (· ≠ runId)
        (.queued { record.run with cancellation := true },
          (s'.setQueue jobId runIds).removeRun jobId runId)

/-- The ids of a job that are registered in phase `Queued`. -/
def queuedIds (s : ActiveRunState) (jobId : JobId) : Finset JobRunId :=
  ((s.runsByJob jobId).getD ∅).filter fun runId =>
    (s.runs runId).any fun record => record.phase = .queued

/-- Stop accepting work for one job and take over its runner tasks. -/
def beginDrain (s : ActiveRunState) (jobId : JobId) (tombstone : Bool) :
    DrainedRuns × ActiveRunState :=
  let runIds := (s.runsByJob jobId).getD ∅
  let queued := s.queuedIds jobId
  let rest := runIds \ queued
  ({ queued, runners := rest.filter fun runId => (s.runs runId).any (·.run.runner) },
    { s with
      tombstonedJobs := if tombstone then insert jobId s.tombstonedJobs else s.tombstonedJobs
      runs := fun runId =>
        if runId ∈ queued then none
        else if runId ∈ rest then
          (s.runs runId).map fun record =>
            { run := { record.run with cancellation := true, runner := false }
              phase := if tombstone then .tombstoned else record.phase }
        else s.runs runId
      queuedByJob := Function.update s.queuedByJob jobId none
      runsByJob := Function.update s.runsByJob jobId (if rest = ∅ then none else some rest) })

/-- Hand the overlap slot to the id at the head of the job's queue. An id that
is no longer registered is taken off the queue and nothing is started. -/
def promote (s : ActiveRunState) (jobId : JobId) : Option ActiveRun × ActiveRunState :=
  match s.queuedByJob jobId with
  | none | some [] => (none, s)
  | some (nextRunId :: rest) =>
    let s' := s.setQueue jobId rest
    match s.runs nextRunId with
    | none => (none, s')
    | some next =>
      (some next.run, s'.modify nextRunId fun record => { record with phase := .starting })

/-- A run is over: the next queued run of its job starts unless another run
still holds the slot. -/
def finish (s : ActiveRunState) (runId : JobRunId) : Option ActiveRun × ActiveRunState :=
  match s.runs runId with
  | none => (none, s)
  | some record =>
    let s' := s.removeRun record.run.job.id runId
    if (s'.activeRuns record.run.job.id).Nonempty then (none, s')
    else s'.promote record.run.job.id

/-- As `finish`, for a run whose cleanup is handed to the durable ticket; here
the slot passes on without a look at the job's other runs. -/
def finishUnreaped (s : ActiveRunState) (runId : JobRunId) : Option ActiveRun × ActiveRunState :=
  match s.runs runId with
  | none => (none, s)
  | some record =>
    let jobId := record.run.job.id
    let s' := { s with
      cleanupByJob := Function.update s.cleanupByJob jobId
        (some (insert runId ((s.cleanupByJob jobId).getD ∅))) }
    (s'.removeRun jobId runId).promote jobId

def finishCleanup (s : ActiveRunState) (jobId : JobId) (runId : JobRunId) : ActiveRunState :=
  { s with cleanupByJob := eraseFromJob s.cleanupByJob jobId runId }

/-- The job and phase a run is registered with. -/
def slot (s : ActiveRunState) (runId : JobRunId) : Option (JobId × ActiveRunPhase) :=
  (s.runs runId).map fun record => (record.run.job.id, record.phase)

/-- The job's queue; a missing entry is an empty one. -/
def queue (s : ActiveRunState) (jobId : JobId) : List JobRunId := (s.queuedByJob jobId).getD []

/-- The per-job index names exactly the registered runs of that job, and a run
is registered under its own id. -/
structure WellFormed (s : ActiveRunState) : Prop where
  index : ∀ jobId runId,
    runId ∈ (s.runsByJob jobId).getD ∅ ↔ ∃ phase, s.slot runId = some (jobId, phase)
  named : ∀ runId record, s.runs runId = some record → record.run.runId = runId

section Views

variable (s : ActiveRunState) (job : Job) (triggeredBy : TriggeredBy) (jobId : JobId)
  (runId : JobRunId) (phase : ActiveRunPhase) (child : ChildHandle)

theorem wellFormed_empty : WellFormed {} where
  index jobId runId := by simp [slot]
  named runId record h := by simp at h

variable {s} in
theorem WellFormed.mem_activeRuns (hw : s.WellFormed) :
    runId ∈ s.activeRuns jobId ↔ ∃ phase, s.slot runId = some (jobId, phase) ∧ phase.isActive := by
  rw [activeRuns, Finset.mem_filter, hw.index jobId runId]
  constructor
  · rintro ⟨⟨phase, hslot⟩, hactive⟩
    obtain ⟨record, hrecord, hphase⟩ := (Option.any_eq_true _ _).mp hactive
    refine ⟨phase, hslot, ?_⟩
    rw [slot, hrecord, Option.map_some, Option.some.injEq, Prod.mk.injEq] at hslot
    rwa [← hslot.2]
  · rintro ⟨phase, hslot, hactive⟩
    refine ⟨⟨phase, hslot⟩, ?_⟩
    obtain ⟨record, hrecord, heq⟩ := Option.map_eq_some_iff.mp hslot
    rw [Prod.mk.injEq] at heq
    rw [hrecord, Option.any_some, heq.2, hactive]

variable {s} in
theorem WellFormed.mem_queuedIds (hw : s.WellFormed) :
    runId ∈ s.queuedIds jobId ↔ s.slot runId = some (jobId, .queued) := by
  rw [queuedIds, Finset.mem_filter, hw.index jobId runId, slot]
  cases s.runs runId with
  | none => simp
  | some record => simp

@[simp] theorem slot_register : (s.register job triggeredBy runId phase).slot =
    Function.update s.slot runId (some (job.id, phase)) := by
  funext r
  by_cases hr : r = runId
  · subst hr; simp [register, slot]
  · simp [register, slot, hr]

@[simp] theorem queue_register : (s.register job triggeredBy runId phase).queue = s.queue := rfl

@[simp] theorem slot_setQueue (runIds : List JobRunId) :
    (s.setQueue jobId runIds).slot = s.slot := rfl

@[simp] theorem queue_setQueue (runIds : List JobRunId) :
    (s.setQueue jobId runIds).queue = Function.update s.queue jobId runIds := by
  funext j
  by_cases hj : j = jobId
  · subst hj; simp [setQueue, queue]
  · simp [setQueue, queue, hj]

@[simp] theorem slot_enqueue : (s.enqueue jobId runId).slot = s.slot := rfl

@[simp] theorem queue_enqueue : (s.enqueue jobId runId).queue =
    Function.update s.queue jobId (s.queue jobId ++ [runId]) := queue_setQueue ..

theorem slot_modify (f : ActiveRunRecord → ActiveRunRecord) : (s.modify runId f).slot =
    Function.update s.slot runId
      ((s.runs runId).map fun record => ((f record).run.job.id, (f record).phase)) := by
  funext r
  by_cases hr : r = runId
  · subst hr; simp [modify, slot, Function.comp_def]
  · simp [modify, slot, hr]

@[simp] theorem queue_modify (f : ActiveRunRecord → ActiveRunRecord) :
    (s.modify runId f).queue = s.queue := rfl

@[simp] theorem slot_setRunner : (s.setRunner runId).slot = s.slot := by
  rw [setRunner, slot_modify]
  exact Function.update_eq_self runId s.slot

@[simp] theorem queue_setRunner : (s.setRunner runId).queue = s.queue := rfl

@[simp] theorem slot_publishChild : (s.publishChild runId child).slot =
    Function.update s.slot runId ((s.slot runId).map fun entry =>
      (entry.1, if entry.2 = .tombstoned then .tombstoned else .running)) := by
  rw [publishChild, slot_modify, slot, Option.map_map]
  rfl

@[simp] theorem queue_publishChild : (s.publishChild runId child).queue = s.queue := rfl

@[simp] theorem slot_removeRun : (s.removeRun jobId runId).slot =
    Function.update s.slot runId none := by
  funext r
  by_cases hr : r = runId
  · subst hr; simp [removeRun, slot]
  · simp [removeRun, slot, hr]

@[simp] theorem queue_removeRun : (s.removeRun jobId runId).queue = s.queue := rfl

end Views

section Promote

variable {s : ActiveRunState} {jobId : JobId} {runId : JobRunId}

theorem promote_of_queue_nil (h : s.queue jobId = []) : s.promote jobId = (none, s) := by
  rw [queue] at h
  unfold promote
  cases hq : s.queuedByJob jobId with
  | none => rfl
  | some ids =>
    rw [hq, Option.getD_some] at h
    subst h
    rfl

theorem queuedByJob_of_queue_cons {rest : List JobRunId} (h : s.queue jobId = runId :: rest) :
    s.queuedByJob jobId = some (runId :: rest) := by
  rw [queue] at h
  cases hq : s.queuedByJob jobId with
  | none => rw [hq] at h; cases h
  | some ids => rw [hq, Option.getD_some] at h; rw [h]

theorem promote_of_queue_cons {rest : List JobRunId} {owner : JobId} {phase : ActiveRunPhase}
    (h : s.queue jobId = runId :: rest) (hslot : s.slot runId = some (owner, phase)) :
    (s.promote jobId).2 = (s.setQueue jobId rest).modify runId
        (fun record => { record with phase := .starting }) ∧
      ∃ record, s.runs runId = some record ∧ (s.promote jobId).1 = some record.run := by
  obtain ⟨next, hnext, -⟩ := Option.map_eq_some_iff.mp hslot
  simp only [promote, queuedByJob_of_queue_cons h, hnext]
  exact ⟨trivial, next, rfl, rfl⟩

theorem slot_promote {rest : List JobRunId} {owner : JobId} {phase : ActiveRunPhase}
    (h : s.queue jobId = runId :: rest) (hslot : s.slot runId = some (owner, phase)) :
    (s.promote jobId).2.slot = Function.update s.slot runId (some (owner, .starting)) := by
  obtain ⟨next, hnext, heq⟩ := Option.map_eq_some_iff.mp hslot
  rw [Prod.mk.injEq] at heq
  rw [(promote_of_queue_cons h hslot).1, slot_modify, slot_setQueue]
  change Function.update s.slot runId ((s.runs runId).map _) = _
  rw [hnext, Option.map_some, heq.1]

theorem queue_promote {rest : List JobRunId} {owner : JobId} {phase : ActiveRunPhase}
    (h : s.queue jobId = runId :: rest) (hslot : s.slot runId = some (owner, phase)) :
    (s.promote jobId).2.queue = Function.update s.queue jobId rest := by
  rw [(promote_of_queue_cons h hslot).1, queue_modify, queue_setQueue]

theorem promote_of_stale {rest : List JobRunId} (h : s.queue jobId = runId :: rest)
    (hslot : s.slot runId = none) : s.promote jobId = (none, s.setQueue jobId rest) := by
  have hrun : s.runs runId = none := Option.map_eq_none_iff.mp hslot
  simp only [promote, queuedByJob_of_queue_cons h, hrun]

end Promote

section Operations

variable {s : ActiveRunState} {jobId : JobId} {runId : JobRunId}

theorem mem_eraseFromJob (m : JobId → Option (Finset JobRunId)) (j : JobId) (r : JobRunId) :
    r ∈ (eraseFromJob m jobId runId j).getD ∅ ↔
      r ∈ (m j).getD ∅ ∧ ¬(j = jobId ∧ r = runId) := by
  cases hm : m jobId with
  | none =>
    rw [eraseFromJob, hm]
    refine ⟨fun hr => ⟨hr, ?_⟩, And.left⟩
    rintro ⟨rfl, -⟩
    simp [hm] at hr
  | some runIds =>
    rw [eraseFromJob, hm]
    by_cases hj : j = jobId
    · subst hj
      by_cases hempty : runIds.erase runId = ∅
      · have hmem : r ∉ runIds.erase runId := by simp [hempty]
        rw [Finset.mem_erase] at hmem
        simp [hm, hempty]
        tauto
      · simp [hm, hempty, and_comm]
    · simp [hj]

/-- A change in place that keeps a run's job and id keeps well-formedness. -/
theorem WellFormed.modify (hw : s.WellFormed) (f : ActiveRunRecord → ActiveRunRecord)
    (hjob : ∀ record, (f record).run.job.id = record.run.job.id)
    (hid : ∀ record, (f record).run.runId = record.run.runId) : (s.modify runId f).WellFormed where
  index j r := by
    change r ∈ (s.runsByJob j).getD ∅ ↔ _
    rw [hw.index j r, slot_modify]
    by_cases hr : r = runId
    · subst hr
      cases hrun : s.runs r <;> simp [slot, hrun, hjob]
    · simp [hr]
  named r record h := by
    by_cases hr : r = runId
    · subst hr
      simp only [ActiveRunState.modify, Function.update_self] at h
      obtain ⟨old, hold, rfl⟩ := Option.map_eq_some_iff.mp h
      rw [hid, hw.named r old hold]
    · simp only [ActiveRunState.modify, Function.update_of_ne hr] at h
      exact hw.named r record h

theorem WellFormed.setQueue (hw : s.WellFormed) (runIds : List JobRunId) :
    (s.setQueue jobId runIds).WellFormed :=
  ⟨hw.index, hw.named⟩

/-- A fresh id goes onto the registry and onto the index of its job. -/
theorem WellFormed.register (hw : s.WellFormed) (job : Job) (triggeredBy : TriggeredBy)
    (phase : ActiveRunPhase) (hfresh : s.slot runId = none) :
    (s.register job triggeredBy runId phase).WellFormed where
  index j r := by
    have hindex : r ∈ ((s.register job triggeredBy runId phase).runsByJob j).getD ∅ ↔
        (j = job.id ∧ r = runId) ∨ r ∈ (s.runsByJob j).getD ∅ := by
      by_cases hj : j = job.id
      · subst hj; simp [ActiveRunState.register]
      · simp [ActiveRunState.register, hj]
    rw [hindex, hw.index j r, slot_register]
    by_cases hr : r = runId
    · subst hr; simp [hfresh, eq_comm]
    · simp [hr]
  named r record h := by
    by_cases hr : r = runId
    · subst hr
      simp only [ActiveRunState.register, Function.update_self, Option.some.injEq] at h
      rw [← h]
    · simp only [ActiveRunState.register, Function.update_of_ne hr] at h
      exact hw.named r record h

theorem WellFormed.removeRun (hw : s.WellFormed) {phase : ActiveRunPhase}
    (hslot : s.slot runId = some (jobId, phase)) : (s.removeRun jobId runId).WellFormed where
  index j r := by
    have hindex : r ∈ ((s.removeRun jobId runId).runsByJob j).getD ∅ ↔
        r ∈ (s.runsByJob j).getD ∅ ∧ ¬(j = jobId ∧ r = runId) := mem_eraseFromJob _ _ _
    rw [hindex, hw.index j r, slot_removeRun]
    by_cases hr : r = runId
    · subst hr; simp [hslot, eq_comm]
    · simp [hr]
  named r record h := by
    by_cases hr : r = runId
    · subst hr
      simp [ActiveRunState.removeRun] at h
    · simp only [ActiveRunState.removeRun, Function.update_of_ne hr] at h
      exact hw.named r record h

theorem WellFormed.publishChild (hw : s.WellFormed) (child : ChildHandle) :
    (s.publishChild runId child).WellFormed :=
  hw.modify _ (fun _ => rfl) (fun _ => rfl)

theorem WellFormed.setRunner (hw : s.WellFormed) : (s.setRunner runId).WellFormed :=
  hw.modify _ (fun _ => rfl) (fun _ => rfl)

theorem WellFormed.promote (hw : s.WellFormed) : (s.promote jobId).2.WellFormed := by
  cases hq : s.queue jobId with
  | nil => rwa [promote_of_queue_nil hq]
  | cons head rest =>
    cases hslot : s.slot head with
    | none =>
      rw [promote_of_stale hq hslot]
      exact hw.setQueue rest
    | some entry =>
      rw [(promote_of_queue_cons hq hslot).1]
      exact (hw.setQueue rest).modify _ (fun _ => rfl) (fun _ => rfl)

theorem finish_eq {phase : ActiveRunPhase} (hslot : s.slot runId = some (jobId, phase)) :
    s.finish runId =
      if ((s.removeRun jobId runId).activeRuns jobId).Nonempty then (none, s.removeRun jobId runId)
      else (s.removeRun jobId runId).promote jobId := by
  obtain ⟨record, hrecord, heq⟩ := Option.map_eq_some_iff.mp hslot
  rw [Prod.mk.injEq] at heq
  simp only [finish, hrecord, heq.1]

/-- The registry without a run whose cleanup moves to a ticket. -/
def handOver (s : ActiveRunState) (jobId : JobId) (runId : JobRunId) : ActiveRunState :=
  { s with
    cleanupByJob := Function.update s.cleanupByJob jobId
      (some (insert runId ((s.cleanupByJob jobId).getD ∅))) }.removeRun jobId runId

theorem finishUnreaped_eq {phase : ActiveRunPhase} (hslot : s.slot runId = some (jobId, phase)) :
    s.finishUnreaped runId = (s.handOver jobId runId).promote jobId := by
  obtain ⟨record, hrecord, heq⟩ := Option.map_eq_some_iff.mp hslot
  rw [Prod.mk.injEq] at heq
  simp only [finishUnreaped, hrecord, heq.1, handOver]

theorem slot_handOver : (s.handOver jobId runId).slot = Function.update s.slot runId none :=
  slot_removeRun ..

theorem WellFormed.handOver (hw : s.WellFormed) {phase : ActiveRunPhase}
    (hslot : s.slot runId = some (jobId, phase)) : (s.handOver jobId runId).WellFormed :=
  WellFormed.removeRun ⟨hw.index, hw.named⟩ hslot

theorem WellFormed.finish (hw : s.WellFormed) : (s.finish runId).2.WellFormed := by
  cases hslot : s.slot runId with
  | none =>
    have hrun : s.runs runId = none := Option.map_eq_none_iff.mp hslot
    simpa only [ActiveRunState.finish, hrun] using hw
  | some entry =>
    have hw' := hw.removeRun hslot
    rw [finish_eq hslot]
    split
    · exact hw'
    · exact hw'.promote

theorem WellFormed.finishUnreaped (hw : s.WellFormed) :
    (s.finishUnreaped runId).2.WellFormed := by
  cases hslot : s.slot runId with
  | none =>
    have hrun : s.runs runId = none := Option.map_eq_none_iff.mp hslot
    simpa only [ActiveRunState.finishUnreaped, hrun] using hw
  | some entry =>
    rw [finishUnreaped_eq hslot]
    exact (hw.handOver hslot).promote

/-- The registry after the cancellation signal of one run. -/
def signal (s : ActiveRunState) (runId : JobRunId) : ActiveRunState :=
  s.modify runId fun record => { record with run := { record.run with cancellation := true } }

@[simp] theorem slot_signal : (s.signal runId).slot = s.slot := by
  rw [signal, slot_modify]
  exact Function.update_eq_self runId s.slot

@[simp] theorem queue_signal : (s.signal runId).queue = s.queue := rfl

theorem cancelOwned_of_queued (hslot : s.slot runId = some (jobId, .queued)) :
    (s.cancelOwned jobId runId).2 =
      ((s.signal runId).setQueue jobId ((s.queue jobId).filter (· ≠ runId))).removeRun
        jobId runId := by
  obtain ⟨record, hrecord, heq⟩ := Option.map_eq_some_iff.mp hslot
  rw [Prod.mk.injEq] at heq
  simp only [cancelOwned, hrecord, heq.1, heq.2, ne_eq, not_true_eq_false, if_false]
  rfl

/-- Any other cancellation at most signals the run. -/
theorem cancelOwned_of_not_queued (hslot : s.slot runId ≠ some (jobId, .queued)) :
    (s.cancelOwned jobId runId).2 = s ∨ (s.cancelOwned jobId runId).2 = s.signal runId := by
  unfold cancelOwned
  cases hrecord : s.runs runId with
  | none => exact .inl rfl
  | some record =>
    by_cases hj : record.run.job.id = jobId
    · have hphase : record.phase ≠ .queued := by
        intro hphase
        exact hslot (by rw [slot, hrecord, Option.map_some, hj, hphase])
      simp only [hj, ne_eq, not_true_eq_false, if_false, hphase, not_false_eq_true, if_true]
      exact .inr rfl
    · simp [hj]

theorem WellFormed.signal (hw : s.WellFormed) : (s.signal runId).WellFormed :=
  hw.modify _ (fun _ => rfl) (fun _ => rfl)

theorem WellFormed.cancelOwned (hw : s.WellFormed) : (s.cancelOwned jobId runId).2.WellFormed := by
  by_cases hslot : s.slot runId = some (jobId, .queued)
  · rw [cancelOwned_of_queued hslot]
    have hslot' : ((s.signal runId).setQueue jobId ((s.queue jobId).filter (· ≠ runId))).slot runId
        = some (jobId, .queued) := by rw [slot_setQueue, slot_signal, hslot]
    exact (hw.signal.setQueue _).removeRun hslot'
  · obtain h | h := cancelOwned_of_not_queued hslot
    · rwa [h]
    · rw [h]
      exact hw.signal

/-- A drain takes the queued runs of its job off the registry and lets the
others run out. -/
theorem slot_beginDrain (jobId : JobId) (hw : s.WellFormed) (tombstone : Bool) (r : JobRunId) :
    (s.beginDrain jobId tombstone).2.slot r =
      match s.slot r with
      | none => none
      | some (owner, phase) =>
        if owner ≠ jobId then some (owner, phase)
        else if phase = .queued then none
        else some (owner, if tombstone then .tombstoned else phase) := by
  have hqueued := hw.mem_queuedIds jobId r
  have hindex := hw.index jobId r
  simp only [beginDrain, slot] at hqueued hindex ⊢
  cases hr : s.runs r with
  | none => simp_all
  | some record =>
    by_cases hj : record.run.job.id = jobId
    · by_cases hphase : record.phase = .queued <;> simp_all
    · simp_all

theorem queue_beginDrain (tombstone : Bool) :
    (s.beginDrain jobId tombstone).2.queue = Function.update s.queue jobId [] := by
  funext j
  by_cases hj : j = jobId
  · subst hj; simp [beginDrain, queue]
  · simp [beginDrain, queue, hj]

theorem mem_runsByJob_beginDrain (tombstone : Bool) (r : JobRunId) :
    r ∈ ((s.beginDrain jobId tombstone).2.runsByJob jobId).getD ∅ ↔
      r ∈ (s.runsByJob jobId).getD ∅ ∧ r ∉ s.queuedIds jobId := by
  simp only [beginDrain, Function.update_self, ← Finset.mem_sdiff]
  by_cases hrest : (s.runsByJob jobId).getD ∅ \ s.queuedIds jobId = ∅
  · rw [if_pos hrest, hrest, Option.getD_none]
  · rw [if_neg hrest, Option.getD_some]

theorem WellFormed.beginDrain (hw : s.WellFormed) (tombstone : Bool) :
    (s.beginDrain jobId tombstone).2.WellFormed where
  index j r := by
    have hqueued := hw.mem_queuedIds jobId r
    have hindex := hw.index j r
    rw [slot_beginDrain jobId hw]
    by_cases hj : j = jobId
    · subst hj
      rw [mem_runsByJob_beginDrain, hqueued, hindex]
      cases hs : s.slot r with
      | none => simp
      | some entry =>
        obtain ⟨owner, phase⟩ := entry
        by_cases howner : owner = j
        · by_cases hphase : phase = .queued <;> simp [howner, hphase]
        · simp [howner]
    · have hmem : ((s.beginDrain jobId tombstone).2.runsByJob j) = s.runsByJob j := by
        simp [ActiveRunState.beginDrain, hj]
      rw [hmem, hindex]
      cases hs : s.slot r with
      | none => simp
      | some entry =>
        obtain ⟨owner, phase⟩ := entry
        by_cases howner : owner = jobId
        · subst howner
          by_cases hphase : phase = .queued <;> simp [hphase, Ne.symm hj]
        · simp [howner]
  named r record h := by
    simp only [ActiveRunState.beginDrain] at h
    split at h
    · exact absurd h (by simp)
    · split at h
      · obtain ⟨old, hold, rfl⟩ := Option.map_eq_some_iff.mp h
        exact hw.named r old hold
      · exact hw.named r record h

end Operations

end ActiveRunState

end Supervisor
