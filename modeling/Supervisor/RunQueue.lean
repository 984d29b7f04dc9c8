import Supervisor.OverlapPolicy

namespace Supervisor

open ActiveRunState

/-- A run is queued behind a run that holds the slot, an id goes onto the queue
only while its run is registered, and the last run in the slot does not end
between the registration and the enqueueing of a queued run. -/
def queueGuard (jobId : JobId) (s : DispatchState) : DispatchEvent → Bool
  | .register runId => decide (∀ call ∈ s.calls runId, call.queuesNow → call.job.id = jobId →
      (s.registry.activeRuns jobId).Nonempty)
  | .enqueue runId => decide (∀ call ∈ s.calls runId, call.job.id = jobId →
      s.registry.slot runId ≠ none)
  | .finish runId | .finishUnreaped runId =>
    decide (∀ entry ∈ s.registry.slot runId, entry.1 = jobId → s.registry.queue jobId = [] →
      (s.registry.activeRuns jobId).erase runId = ∅ → s.registry.queuedIds jobId = ∅)
  | _ => true

namespace DispatchState

/-- The ids of a job in the order they were queued, less the dropped ones. -/
def liveIds (s : DispatchState) (jobId : JobId) : List JobRunId :=
  (s.queuedIds jobId).filter (· ∉ s.droppedIds)

/-- What the queue of a job promises. -/
structure QueueServed (s : DispatchState) (jobId : JobId) : Prop where
  /-- A queued run waits for a run that holds the slot. -/
  held : ∀ r, s.registry.slot r = some (jobId, .queued) → (s.registry.activeRuns jobId).Nonempty
  /-- The end of the last run in the slot starts the head of the queue. -/
  promotes : ∀ r, s.registry.activeRuns jobId = {r} →
    (s.registry.finish r).1.map (·.runId) = (s.registry.queue jobId).head? ∧
      (s.registry.finishUnreaped r).1.map (·.runId) = (s.registry.queue jobId).head?
  /-- Runs start in the order they were queued; only dropped ones are passed over. -/
  order : s.liveIds jobId = s.promotedIds jobId ++ s.registry.queue jobId
  once : (s.promotedIds jobId).Nodup
  /-- When the slot is free, every queued run that was not dropped has been started. -/
  served : s.registry.activeRuns jobId = ∅ → s.promotedIds jobId = s.liveIds jobId

/-- The ids a job has queued, promoted and dropped fit together. -/
structure QueueOrder (s : DispatchState) (jobId : JobId) : Prop where
  registered : ∀ r ∈ s.registry.queue jobId, s.registry.slot r = some (jobId, .queued)
  order : s.liveIds jobId = s.promotedIds jobId ++ s.registry.queue jobId
  once : (s.queuedIds jobId).Nodup
  enqueued : ∀ r ∈ s.queuedIds jobId, r ∈ s.drawn ∧ s.calls r = none
  promoted : ∀ r ∈ s.promotedIds jobId, ∀ j, s.registry.slot r ≠ some (j, .queued)
  dropped : ∀ r ∈ s.droppedIds, r ∈ s.drawn ∧ s.registry.slot r = none ∧
    ∀ call, s.calls r = some call → call.point = .registered

/-- The invariant behind `QueueServed`. -/
structure QueueInvariant (s : DispatchState) (jobId : JobId) : Prop extends
    QueueOrder s jobId where
  held : ∀ r, s.registry.slot r = some (jobId, .queued) → (s.registry.activeRuns jobId).Nonempty

variable {s t : DispatchState} {jobId : JobId}

theorem queueInvariant_boot (store : Store) : (boot store).QueueInvariant jobId where
  registered r h := absurd h (by simp [boot, queue])
  order := rfl
  once := List.nodup_nil
  enqueued r h := absurd h (by simp [boot])
  promoted r h := absurd h (by simp [boot])
  dropped r h := absurd h (by simp [boot])
  held r h := absurd h (by simp [boot, slot])

theorem QueueInvariant.mem_queuedIds (hq : s.QueueInvariant jobId) {r : JobRunId}
    (hr : r ∈ s.promotedIds jobId) : r ∈ s.queuedIds jobId := by
  have hlive : r ∈ s.liveIds jobId := by
    rw [hq.order]
    exact List.mem_append_left _ hr
  exact List.mem_of_mem_filter hlive

theorem QueueInvariant.register (hs : s.Coherent) (hq : s.QueueInvariant jobId)
    {runId : JobRunId} {call : DispatchCall} (hcall : s.calls runId = some call)
    (hpoint : call.point ≠ .registered)
    (hguard : queueGuard jobId s (.register runId) = true) :
    (s.register runId call).QueueInvariant jobId := by
  have ht := hs.register hcall hpoint
  have hfree := hs.slot_of_call hcall hpoint
  have hqueue := hs.call_not_queued runId (by simp [hcall])
  have hbehind := of_decide_eq_true hguard call hcall
  have hpromoted : runId ∉ s.promotedIds jobId := fun hr => by
    have hnone := (hq.enqueued runId (hq.mem_queuedIds hr)).2
    rw [hcall] at hnone
    cases hnone
  have hkeep (hslot : ∀ r ≠ runId, (s.register runId call).registry.slot r = s.registry.slot r) :
      s.registry.activeRuns jobId ⊆ (s.register runId call).registry.activeRuns jobId := by
    intro r hr
    obtain ⟨phase, hentry, hactive⟩ := (hs.registry.mem_activeRuns jobId r).mp hr
    have hne : r ≠ runId := by rintro rfl; rw [hfree] at hentry; cases hentry
    exact (ht.registry.mem_activeRuns jobId r).mpr ⟨phase, by rw [hslot r hne, hentry], hactive⟩
  obtain ⟨⟨h2, h3, h4, h5, h6, h7⟩, h1⟩ := hq
  unfold DispatchState.register at hkeep ⊢
  split at hkeep
  · rw [if_pos ‹_›]
    simp only [setCall, setTask, slot_register] at hkeep
    have hmore := hkeep fun r hr => Function.update_of_ne hr _ _
    refine ⟨⟨?_, ?order, ?_, ?_, ?_, ?_⟩, ?held⟩ <;> simp only [setCall, setTask, slot_register, queue_register]
    case order => exact h3
    case held => grind [Function.update_apply, Finset.Nonempty.mono]
    all_goals grind [Function.update_apply]
  · rw [if_neg ‹_›]
    split at hkeep
    · rw [if_pos ‹_›]
      simp only [setCall, slot_register] at hkeep
      have hmore := hkeep fun r hr => Function.update_of_ne hr _ _
      refine ⟨⟨?_, ?order, ?_, ?_, ?_, ?_⟩, ?held⟩ <;> simp only [setCall, slot_register, queue_register]
      case order => exact h3
      case held => grind [Function.update_apply, Finset.Nonempty.mono]
      all_goals grind [Function.update_apply]
    · rw [if_neg ‹_›]
      refine ⟨⟨?_, ?order, ?_, ?_, ?_, ?_⟩, ?held⟩ <;> simp only [setCall]
      case order => exact h3
      all_goals grind [Function.update_apply]

/-- An id that is still registered goes to the end of both orders. -/
theorem QueueInvariant.enqueue (hs : s.Coherent) (hq : s.QueueInvariant jobId)
    {runId : JobRunId} {call : DispatchCall} (hcall : s.calls runId = some call)
    (hguard : queueGuard jobId s (.enqueue runId) = true) :
    (s.enqueue runId call).QueueInvariant jobId := by
  have hslot := hs.call_slot runId call hcall
  have hdrawn := hs.drawn_of_call runId (by simp [hcall])
  have hregistered := of_decide_eq_true hguard call hcall
  obtain ⟨⟨h2, h3, h4, h5, h6, h7⟩, h1⟩ := hq
  refine ⟨⟨?_, ?order, ?_, ?_, ?_, ?_⟩, ?held⟩ <;> simp only [DispatchState.enqueue, setCall, slot_enqueue, queue_enqueue]
  case held => exact h1
  case order =>
    change (Function.update s.queuedIds call.job.id _ jobId).filter (· ∉ s.droppedIds) = _
    by_cases hjob : jobId = call.job.id
    · subst hjob
      have hlive : runId ∉ s.droppedIds := fun hd => hregistered rfl (h7 runId hd).2.1
      rw [Function.update_self, Function.update_self, List.filter_append, ← List.append_assoc,
        ← h3]
      simp [liveIds, hlive]
    · rw [Function.update_of_ne hjob, Function.update_of_ne hjob]
      exact h3
  all_goals grind [Function.update_apply, List.nodup_append]

theorem QueueInvariant.draw (hq : s.QueueInvariant jobId) (store : Store) {runId : JobRunId}
    (hfresh : runId ∉ s.drawn) (call : DispatchCall) :
    ({ s with store, drawn := insert runId s.drawn }.setCall runId (some call)).QueueInvariant
      jobId := by
  obtain ⟨⟨h2, h3, h4, h5, h6, h7⟩, h1⟩ := hq
  refine ⟨⟨?_, ?order, ?_, ?_, ?_, ?_⟩, ?held⟩ <;> simp only [setCall]
  case order => exact h3
  all_goals grind [Function.update_apply]

theorem QueueInvariant.drawOnly (hq : s.QueueInvariant jobId) (store : Store) (runId : JobRunId) :
    { s with store, drawn := insert runId s.drawn }.QueueInvariant jobId := by
  obtain ⟨⟨h2, h3, h4, h5, h6, h7⟩, h1⟩ := hq
  exact ⟨⟨h2, h3, h4, by grind, h6, by grind⟩, h1⟩

theorem QueueInvariant.dispatch (hq : s.QueueInvariant jobId) {runId : JobRunId}
    (hfresh : runId ∉ s.drawn) (job : Job) (triggeredBy : TriggeredBy) (now : Instant) :
    (s.dispatch job triggeredBy runId now).QueueInvariant jobId := by
  unfold DispatchState.dispatch
  split
  · exact hq.drawOnly s.store runId
  · split
    · exact hq.drawOnly s.store runId
    · exact hq.draw _ hfresh _

theorem QueueInvariant.admitOccurrence (hq : s.QueueInvariant jobId) {runId : JobRunId}
    (hfresh : runId ∉ s.drawn) (durable : DurableScheduleOccurrence) (now : Instant) :
    (s.admitOccurrence durable now runId).QueueInvariant jobId := by
  unfold DispatchState.admitOccurrence
  split
  · exact hq.drawOnly s.store runId
  · split
    · exact hq.drawOnly s.store runId
    · split
      · exact hq.drawOnly s.store runId
      · exact hq.draw _ hfresh _
      · exact hq.drawOnly _ runId

theorem QueueInvariant.count (hq : s.QueueInvariant jobId) {runId : JobRunId} {job : Job}
    {triggeredBy : TriggeredBy} (hcall : s.calls runId = some ⟨job, triggeredBy, .saved⟩)
    (running : ℕ) :
    (s.setCall runId (some ⟨job, triggeredBy, .counted running⟩)).QueueInvariant jobId := by
  obtain ⟨⟨h2, h3, h4, h5, h6, h7⟩, h1⟩ := hq
  refine ⟨⟨?_, ?order, ?_, ?_, ?_, ?_⟩, ?held⟩ <;> simp only [setCall]
  case order => exact h3
  all_goals grind [Function.update_apply]

theorem QueueInvariant.publishChild (hs : s.Coherent) (hq : s.QueueInvariant jobId)
    {runId : JobRunId} (child : ChildHandle) (htask : s.tasks runId ≠ none) :
    { s with registry := s.registry.publishChild runId child }.QueueInvariant jobId := by
  have hactive := activeRuns_publishChild jobId hs child htask
  obtain ⟨owner, phase, phase', hentry, hne, -, hslot⟩ := slot_publishChild_of_task hs child htask
  have hnot := (hs.task_slot runId htask).2
  obtain ⟨⟨h2, h3, h4, h5, h6, h7⟩, h1⟩ := hq
  refine ⟨⟨?_, ?order, ?_, ?_, ?_, ?_⟩, ?held⟩ <;> simp only [hactive, hslot, queue_publishChild]
  case order => exact h3
  all_goals grind [Function.update_apply]

theorem QueueInvariant.spawnActiveRun (hs : s.Coherent) (hq : s.QueueInvariant jobId)
    (runId : JobRunId) (task : Option RunTask) :
    ({ s with registry := s.registry.setRunner runId }.setTask runId task).QueueInvariant
      jobId := by
  have hactive : (s.registry.setRunner runId).activeRuns jobId = s.registry.activeRuns jobId := by
    ext r
    rw [hs.registry.setRunner.mem_activeRuns, hs.registry.mem_activeRuns, slot_setRunner]
  obtain ⟨⟨h2, h3, h4, h5, h6, h7⟩, h1⟩ := hq
  refine ⟨⟨?_, ?order, ?_, ?_, ?_, ?_⟩, ?held⟩ <;> simp only [setTask, hactive, slot_setRunner, queue_setRunner] <;> assumption

/-- Dropping ids that are queued takes them out of the order and out of the queue. -/
theorem liveIds_drop (hq : s.QueueInvariant jobId) (ids : Finset JobRunId)
    (hids : ∀ r ∈ ids, ∃ j, s.registry.slot r = some (j, .queued)) :
    (s.queuedIds jobId).filter (· ∉ s.droppedIds ∪ ids) =
      s.promotedIds jobId ++ (s.registry.queue jobId).filter (· ∉ ids) := by
  have hsplit : (s.queuedIds jobId).filter (· ∉ s.droppedIds ∪ ids) =
      (s.liveIds jobId).filter (· ∉ ids) := by
    rw [liveIds, List.filter_filter]
    refine List.filter_congr fun r _ => ?_
    simp [and_comm]
  rw [hsplit, hq.order, List.filter_append]
  congr 1
  refine List.filter_eq_self.mpr fun r hr => ?_
  rw [decide_eq_true_eq]
  intro hmem
  obtain ⟨j, hslot⟩ := hids r hmem
  exact hq.promoted r hr j hslot

theorem cancel_of_queued (hs : s.Coherent) {owner : JobId} {runId : JobRunId}
    (hslot : s.registry.slot runId = some (owner, .queued)) :
    s.cancel owner runId = { s with
      registry := ((s.registry.signal runId).setQueue owner
        ((s.registry.queue owner).filter (· ≠ runId))).removeRun owner runId
      droppedIds := insert runId s.droppedIds } := by
  obtain ⟨record, hrecord, heq⟩ := Option.map_eq_some_iff.mp hslot
  rw [Prod.mk.injEq] at heq
  have hanswer : (s.registry.cancelOwned owner runId).1 =
      .queued { record.run with cancellation := true } := by
    simp [cancelOwned, hrecord, heq.1, heq.2]
  simp only [DispatchState.cancel, cancelOwned_of_queued hslot, hanswer,
    hs.registry.named runId record hrecord]

theorem cancel_of_not_queued {owner : JobId} {runId : JobRunId}
    (hslot : s.registry.slot runId ≠ some (owner, .queued)) :
    s.cancel owner runId = s ∨
      s.cancel owner runId = { s with registry := s.registry.signal runId } := by
  unfold DispatchState.cancel cancelOwned
  cases hrecord : s.registry.runs runId with
  | none => exact .inl rfl
  | some record =>
    by_cases hj : record.run.job.id = owner
    · have hphase : record.phase ≠ .queued := by
        intro hphase
        exact hslot (by rw [slot, hrecord, Option.map_some, hj, hphase])
      simp only [hj, ne_eq, not_true_eq_false, if_false, hphase, not_false_eq_true, if_true]
      exact .inr rfl
    · simp [hj]

/-- A cancelled id leaves the queue wherever it stands in it. -/
theorem QueueInvariant.cancel (hs : s.Coherent) (hq : s.QueueInvariant jobId) (owner : JobId)
    (runId : JobRunId) : (s.cancel owner runId).QueueInvariant jobId := by
  have hactive := activeRuns_cancel jobId hs owner runId
  by_cases hslot : s.registry.slot runId = some (owner, .queued)
  · have hdrawn := hs.drawn_of_slot runId (by simp [hslot])
    have hcall := hs.call_slot runId
    have hlive := liveIds_drop hq {runId} (by simpa using ⟨owner, hslot⟩)
    have hqueue (h : jobId ≠ owner) : runId ∉ s.registry.queue jobId := fun hr => by
      have hcontra := hq.registered runId hr
      rw [hslot, Option.some.injEq, Prod.mk.injEq] at hcontra
      exact h hcontra.1.symm
    rw [cancel_of_queued hs hslot] at hactive ⊢
    obtain ⟨⟨h2, h3, h4, h5, h6, h7⟩, h1⟩ := hq
    refine ⟨⟨?_, ?order, ?_, ?_, ?_, ?_⟩, ?held⟩ <;> simp only [hactive, slot_removeRun, queue_removeRun, slot_setQueue,
      queue_setQueue, slot_signal, queue_signal]
    case order =>
      change (s.queuedIds jobId).filter (· ∉ insert runId s.droppedIds) = _
      rw [Finset.union_comm, Finset.singleton_union] at hlive
      rw [hlive]
      congr 1
      by_cases h : jobId = owner
      · subst h; simp
      · rw [Function.update_of_ne h, List.filter_eq_self]
        intro r hr
        simp only [Finset.mem_singleton, decide_eq_true_eq]
        rintro rfl
        exact hqueue h hr
    all_goals grind [Function.update_apply]
  · obtain h | h := cancel_of_not_queued hslot
    · rwa [h]
    · rw [h] at hactive ⊢
      obtain ⟨⟨h2, h3, h4, h5, h6, h7⟩, h1⟩ := hq
      refine ⟨⟨?_, ?_, ?_, ?_, ?_, ?_⟩, ?_⟩ <;> simp only [hactive, slot_signal, queue_signal] <;>
        assumption

/-- A drain drops everything its job has queued. -/
theorem QueueInvariant.drain (hs : s.Coherent) (hq : s.QueueInvariant jobId) (owner : JobId)
    (tombstone : Bool) : (s.drain owner tombstone).QueueInvariant jobId := by
  have ht := hs.drain owner tombstone
  have hslot := slot_beginDrain owner hs.registry tombstone
  have hids (r : JobRunId) : r ∈ (s.registry.beginDrain owner tombstone).1.queued ↔
      s.registry.slot r = some (owner, .queued) := hs.registry.mem_queuedIds owner r
  have hlive := liveIds_drop hq (s.registry.beginDrain owner tombstone).1.queued
    fun r hr => ⟨owner, (hids r).mp hr⟩
  have hother (h : jobId ≠ owner) : (s.drain owner tombstone).registry.activeRuns jobId =
      s.registry.activeRuns jobId := by
    ext r
    rw [ht.registry.mem_activeRuns, hs.registry.mem_activeRuns]
    change (∃ phase, (s.registry.beginDrain owner tombstone).2.slot r = _ ∧ _) ↔ _
    rw [hslot]
    grind
  have hdrawn := hs.drawn_of_slot
  have hcall := hs.call_slot
  obtain ⟨⟨h2, h3, h4, h5, h6, h7⟩, h1⟩ := hq
  refine ⟨⟨?_, ?order, ?_, ?_, ?_, ?_⟩, ?held⟩ <;> simp only [DispatchState.drain, queue_beginDrain]
  case order =>
    change (s.queuedIds jobId).filter
      (· ∉ s.droppedIds ∪ (s.registry.beginDrain owner tombstone).1.queued) = _
    rw [hlive]
    congr 1
    by_cases h : jobId = owner
    · subst h
      rw [Function.update_self, List.filter_eq_nil_iff]
      intro r hr
      simpa [hids] using h2 r hr
    · rw [Function.update_of_ne h, List.filter_eq_self]
      intro r hr
      simp only [hids, h2 r hr]
      simp [h]
  case held =>
    intro r hr
    rw [hslot] at hr
    have h : jobId ≠ owner := by grind
    rw [DispatchState.drain] at hother
    rw [hother h]
    exact h1 r (by grind)
  all_goals grind [Function.update_apply]

theorem QueueOrder.withoutRun (hq : s.QueueOrder jobId) {registry : ActiveRunState}
    {runId : JobRunId} {owner : JobId} {phase : ActiveRunPhase} (hphase : phase ≠ .queued)
    (hentry : s.registry.slot runId = some (owner, phase))
    (hslot : registry.slot = Function.update s.registry.slot runId none)
    (hqueue : registry.queue = s.registry.queue) :
    (s.withoutRun registry runId).QueueOrder jobId := by
  obtain ⟨h2, h3, h4, h5, h6, h7⟩ := hq
  refine ⟨?_, ?order, ?_, ?_, ?_, ?_⟩ <;> simp only [DispatchState.withoutRun, setTask, hslot, hqueue]
  case order => exact h3
  all_goals grind [Function.update_apply]

/-- A promotion moves the head of the queue to the end of the started ids. -/
theorem QueueOrder.promoteNext (hs : s.Coherent) (hq : s.QueueOrder jobId) (owner : JobId) :
    (s.promoteNext owner).QueueOrder jobId := by
  obtain ⟨-, h⟩ | ⟨next, rest, hcons, hstale, h⟩ | ⟨next, rest, record, hcons, hslot, hid, hrun, hs', hqs⟩ :=
    promote_cases hs owner
  · rw [DispatchState.promoteNext, h]
    exact hq
  · obtain ⟨h2, h3, h4, h5, h6, h7⟩ := hq
    -- the ids on the queue of this job are registered, so the stale one is another's
    have hother : jobId ≠ owner := by
      rintro rfl
      have hreg := h2 next (by rw [hcons]; exact List.mem_cons_self)
      rw [hstale] at hreg
      cases hreg
    rw [DispatchState.promoteNext, h]
    refine ⟨?_, ?_, ?_, ?_, ?_, ?_⟩ <;> simp only [startNext, slot_setQueue, queue_setQueue,
      Function.update_of_ne hother] <;> assumption
  · have hcall := hs.call_slot next
    have hnodup := hs.queue_nodup owner
    obtain ⟨h2, h3, h4, h5, h6, h7⟩ := hq
    refine ⟨?_, ?order, ?_, ?_, ?_, ?_⟩ <;>
      simp only [DispatchState.promoteNext, hrun, startNext, hid, hs', hqs]
    case order =>
      change s.liveIds jobId = _
      by_cases h : jobId = owner
      · subst h
        rw [Function.update_self, Function.update_self, List.append_assoc, List.singleton_append,
          ← hcons, h3]
      · rw [Function.update_of_ne h, Function.update_of_ne h, h3]
    all_goals grind [Function.update_apply]

/-- A promotion keeps the slot held; for its own job it is enough that the slot
was held in case nothing was queued. -/
theorem QueueOrder.held_promoteNext (hs : s.Coherent) (hq : s.QueueOrder jobId) (owner : JobId)
    (hheld : owner ≠ jobId ∨ s.registry.queue jobId = [] →
      ∀ r, s.registry.slot r = some (jobId, .queued) → (s.registry.activeRuns jobId).Nonempty) :
    ∀ r, (s.promoteNext owner).registry.slot r = some (jobId, .queued) →
      ((s.promoteNext owner).registry.activeRuns jobId).Nonempty := by
  have ht := hs.promoteNext owner
  obtain ⟨hnil, h⟩ | ⟨next, rest, hcons, hstale, h⟩ | ⟨next, rest, record, hcons, hslot, -, hrun, hs', -⟩ :=
    promote_cases hs owner
  · rw [DispatchState.promoteNext, h]
    refine hheld ?_
    by_cases howner : owner = jobId
    · exact .inr (howner ▸ hnil)
    · exact .inl howner
  · have howner : owner ≠ jobId := by
      rintro rfl
      have hreg := hq.registered next (by rw [hcons]; exact List.mem_cons_self)
      rw [hstale] at hreg
      cases hreg
    rw [DispatchState.promoteNext, h]
    exact hheld (.inl howner)
  · have hafter : (s.promoteNext owner).registry.slot =
        Function.update s.registry.slot next (some (owner, .starting)) := by
      rw [DispatchState.promoteNext, hrun]
      exact hs'
    intro r hr
    by_cases howner : owner = jobId
    · exact ⟨next, (ht.registry.mem_activeRuns jobId next).mpr
        ⟨.starting, by rw [hafter, Function.update_self, howner], rfl⟩⟩
    · have hqueued : s.registry.slot r = some (jobId, .queued) := by
        rw [hafter] at hr
        grind [Function.update_apply]
      obtain ⟨r', hr'⟩ := hheld (.inl howner) r hqueued
      obtain ⟨phase, hphase, hactive⟩ := (hs.registry.mem_activeRuns jobId r').mp hr'
      refine ⟨r', (ht.registry.mem_activeRuns jobId r').mpr ⟨phase, ?_, hactive⟩⟩
      have hne : r' ≠ next := by
        rintro rfl
        rw [hslot, Option.some.injEq, Prod.mk.injEq] at hphase
        exact howner hphase.1
      rw [hafter, Function.update_of_ne hne, hphase]

/-- Once the run is off the registry, its job is held by another of its runs, and
any other job is held as before. -/
theorem QueueInvariant.held_withoutRun (hs : s.Coherent) (hq : s.QueueInvariant jobId)
    {registry : ActiveRunState} {runId : JobRunId} {owner : JobId} {phase : ActiveRunPhase}
    (hw : registry.WellFormed) (hentry : s.registry.slot runId = some (owner, phase))
    (hslot : registry.slot = Function.update s.registry.slot runId none)
    (hother : owner = jobId → (∀ r, s.registry.slot r ≠ some (jobId, .queued)) ∨
      (registry.activeRuns jobId).Nonempty) :
    ∀ r, registry.slot r = some (jobId, .queued) → (registry.activeRuns jobId).Nonempty := by
  intro r hr
  have hqueued : s.registry.slot r = some (jobId, .queued) := by
    rw [hslot] at hr
    grind [Function.update_apply]
  by_cases howner : owner = jobId
  · obtain hnone | hactive := hother howner
    · exact absurd hqueued (hnone r)
    · exact hactive
  · obtain ⟨r', hr'⟩ := hq.held r hqueued
    have hne : r' ≠ runId := by
      rintro rfl
      obtain ⟨phase', hphase', -⟩ := (hs.registry.mem_activeRuns jobId r').mp hr'
      rw [hentry, Option.some.injEq, Prod.mk.injEq] at hphase'
      exact howner hphase'.1
    rw [activeRuns_withoutRun hs hw hslot]
    exact ⟨r', Finset.mem_erase.mpr ⟨hne, hr'⟩⟩

/-- What the guard of a finishing run says about the job's queued runs. -/
theorem unqueued_of_guard (hs : s.Coherent) {runId : JobRunId} {owner : JobId}
    {phase : ActiveRunPhase} (hslot : s.registry.slot runId = some (owner, phase))
    (hguard : queueGuard jobId s (.finish runId) = true) (howner : owner = jobId)
    (hnil : s.registry.queue jobId = []) :
    (∀ r, s.registry.slot r ≠ some (jobId, .queued)) ∨
      ((s.registry.activeRuns jobId).erase runId).Nonempty := by
  by_cases hother : (s.registry.activeRuns jobId).erase runId = ∅
  · have hnone := of_decide_eq_true hguard (owner, phase) hslot howner hnil hother
    refine .inl fun r hr => ?_
    have hmem := (hs.registry.mem_queuedIds jobId r).mpr hr
    rw [hnone] at hmem
    exact absurd hmem (Finset.notMem_empty r)
  · exact .inr (Finset.nonempty_iff_ne_empty.mpr hother)

theorem QueueInvariant.finish (hs : s.Coherent) (hq : s.QueueInvariant jobId) {runId : JobRunId}
    {owner : JobId} {phase : ActiveRunPhase} (hslot : s.registry.slot runId = some (owner, phase))
    (hphase : phase ≠ .queued) (hguard : queueGuard jobId s (.finish runId) = true) :
    (s.finishTask runId (s.registry.finish runId)).QueueInvariant jobId := by
  have hw := hs.registry.removeRun hslot
  have hremoved : (s.withoutRun (s.registry.removeRun owner runId) runId).Coherent :=
    hs.remove hw (slot_removeRun ..) rfl
  have horder : (s.withoutRun (s.registry.removeRun owner runId) runId).QueueOrder jobId :=
    hq.toQueueOrder.withoutRun hphase hslot (slot_removeRun ..) rfl
  rw [finishTask_finish hslot]
  split
  · rename_i hother
    exact ⟨horder, hq.held_withoutRun hs hw hslot (slot_removeRun ..)
      fun howner => .inr (howner ▸ hother)⟩
  · refine ⟨horder.promoteNext hremoved owner, horder.held_promoteNext hremoved owner
      fun hnil => hq.held_withoutRun hs hw hslot (slot_removeRun ..) fun howner => ?_⟩
    change _ ∨ ((s.registry.removeRun owner runId).activeRuns jobId).Nonempty
    rw [activeRuns_withoutRun hs hw (slot_removeRun ..)]
    exact unqueued_of_guard hs hslot hguard howner (hnil.resolve_left fun hne => hne howner)

theorem QueueInvariant.finishUnreaped (hs : s.Coherent) (hq : s.QueueInvariant jobId)
    {runId : JobRunId} {owner : JobId} {phase : ActiveRunPhase}
    (hslot : s.registry.slot runId = some (owner, phase)) (hphase : phase ≠ .queued)
    (hguard : queueGuard jobId s (.finishUnreaped runId) = true) :
    (s.finishTask runId (s.registry.finishUnreaped runId)).QueueInvariant jobId := by
  have hw := hs.registry.handOver hslot
  have hremoved : (s.withoutRun (s.registry.handOver owner runId) runId).Coherent :=
    hs.remove hw slot_handOver rfl
  have horder : (s.withoutRun (s.registry.handOver owner runId) runId).QueueOrder jobId :=
    hq.toQueueOrder.withoutRun hphase hslot slot_handOver rfl
  rw [finishTask_finishUnreaped hslot]
  refine ⟨horder.promoteNext hremoved owner, horder.held_promoteNext hremoved owner
    fun hnil => hq.held_withoutRun hs hw hslot slot_handOver fun howner => ?_⟩
  change _ ∨ ((s.registry.handOver owner runId).activeRuns jobId).Nonempty
  rw [activeRuns_withoutRun hs hw slot_handOver]
  exact unqueued_of_guard hs hslot hguard howner (hnil.resolve_left fun hne => hne howner)

theorem QueueInvariant.aside (hq : s.QueueInvariant jobId) {registry : ActiveRunState}
    (hruns : registry.runs = s.registry.runs)
    (hindex : registry.runsByJob = s.registry.runsByJob)
    (hqueue : registry.queuedByJob = s.registry.queuedByJob) (store : Store) :
    { s with store, registry }.QueueInvariant jobId := by
  have hslot : registry.slot = s.registry.slot := by funext r; rw [slot, slot, hruns]
  have hqueues : registry.queue = s.registry.queue := by funext j; rw [queue, queue, hqueue]
  have hactive : registry.activeRuns = s.registry.activeRuns := by
    funext j; rw [activeRuns, activeRuns, hruns, hindex]
  obtain ⟨⟨h2, h3, h4, h5, h6, h7⟩, h1⟩ := hq
  refine ⟨⟨?_, ?_, ?_, ?_, ?_, ?_⟩, ?_⟩ <;> simp only [hactive, hslot, hqueues] <;> assumption

theorem QueueInvariant.step (hs : s.Coherent) (hq : s.QueueInvariant jobId) {e : DispatchEvent}
    (hguard : queueGuard jobId s e = true) (h : runDispatch.step s e = some t) :
    t.QueueInvariant jobId := by
  cases hs.stepped h with
  | dispatch hfresh => exact hq.dispatch hfresh _ _ _
  | count hcall => exact hq.count hcall _
  | register hcall hpoint => exact hq.register hs hcall hpoint hguard
  | enqueue hcall _ => exact hq.enqueue hs hcall hguard
  | admitOccurrence hfresh => exact hq.admitOccurrence hfresh _ _
  | spawnActiveRun htask => exact hq.spawnActiveRun hs _ _
  | publishChild htask => exact hq.publishChild hs _ (by rw [htask]; simp)
  | finish hslot hphase => exact hq.finish hs hslot hphase hguard
  | finishUnreaped hslot hphase => exact hq.finishUnreaped hs hslot hphase hguard
  | cancel => exact hq.cancel hs _ _
  | drain => exact hq.drain hs _ _
  | aside hruns hindex hqueue => exact hq.aside hruns hindex hqueue _

/-- Once the last run in the slot is off the registry, the promotion hands out
the head of the queue. -/
theorem QueueInvariant.promote_head (hs : s.Coherent) (hq : s.QueueInvariant jobId)
    {registry : ActiveRunState} {runId : JobRunId} {phase : ActiveRunPhase}
    (hw : registry.WellFormed) (hphase : phase ≠ .queued)
    (hentry : s.registry.slot runId = some (jobId, phase))
    (hslot : registry.slot = Function.update s.registry.slot runId none)
    (hqueue : registry.queue = s.registry.queue) :
    (registry.promote jobId).1.map (·.runId) = (s.registry.queue jobId).head? := by
  have hremoved : (s.withoutRun registry runId).Coherent := hs.remove hw hslot hqueue
  have horder : (s.withoutRun registry runId).QueueOrder jobId :=
    hq.toQueueOrder.withoutRun hphase hentry hslot hqueue
  rw [← hqueue]
  obtain ⟨hnil, h⟩ | ⟨next, rest, hcons, hstale, -⟩ | ⟨next, rest, record, hcons, -, hid, hrun, -, -⟩ :=
    promote_cases hremoved jobId
  · change registry.queue jobId = [] at hnil
    change registry.promote jobId = _ at h
    rw [h, hnil]
    rfl
  · have hreg := horder.registered next (by rw [hcons]; exact List.mem_cons_self)
    rw [hstale] at hreg
    cases hreg
  · change registry.queue jobId = _ at hcons
    change (registry.promote jobId).1 = _ at hrun
    rw [hrun, hcons, Option.map_some, hid]
    rfl

theorem QueueInvariant.served (hs : s.Coherent) (hq : s.QueueInvariant jobId) :
    s.QueueServed jobId where
  held := hq.held
  order := hq.order
  once := by
    have hlive : (s.liveIds jobId).Nodup := hq.once.filter _
    rw [hq.order] at hlive
    exact (List.nodup_append.mp hlive).1
  served hfree := by
    have hnil : s.registry.queue jobId = [] := by
      rw [List.eq_nil_iff_forall_not_mem]
      intro r hr
      have hheld := hq.held r (hq.registered r hr)
      rw [hfree] at hheld
      exact Finset.not_nonempty_empty hheld
    rw [hq.order, hnil, List.append_nil]
  promotes r hlast := by
    obtain ⟨phase, hslot, hactive⟩ :=
      (hs.registry.mem_activeRuns jobId r).mp (by rw [hlast]; exact Finset.mem_singleton_self r)
    have hphase : phase ≠ .queued := by rintro rfl; cases hactive
    have hw := hs.registry.removeRun hslot
    have hempty : ¬((s.registry.removeRun jobId r).activeRuns jobId).Nonempty := by
      rw [activeRuns_withoutRun hs hw (slot_removeRun ..), hlast, Finset.erase_singleton]
      exact Finset.not_nonempty_empty
    refine ⟨?_, ?_⟩
    · rw [finish_eq hslot, if_neg hempty]
      exact hq.promote_head hs hw hphase hslot (slot_removeRun ..) rfl
    · rw [finishUnreaped_eq hslot]
      exact hq.promote_head hs (hs.registry.handOver hslot) hphase hslot slot_handOver rfl

/-- In every run that meets the guard of a job, its queue is served. -/
theorem queueServed (jobId : JobId) (store : Store) {t : DispatchState}
    (h : runDispatch.Run (fun s e => queueGuard jobId s e = true) (boot store) t) :
    t.QueueServed jobId := by
  have hinit : (boot store).Coherent ∧ (boot store).QueueInvariant jobId :=
    ⟨coherent_boot store, queueInvariant_boot store⟩
  have hinv := h.invariant (I := fun s => s.Coherent ∧ s.QueueInvariant jobId)
    (fun s e u hi hguard hstep => ⟨hi.1.step hstep, hi.2.step hi.1 hguard hstep⟩) hinit
  exact hinv.2.served hinv.1

/-- A job whose overlapping runs are queued. -/
def backup : Job :=
  { id := ⟨1⟩, name := "backup", trigger := .interval nanosPerSec, onOverlap := .queue }

/-- Two runs queue behind a third; the first of them is cancelled. -/
def queueTwo : List DispatchEvent :=
  [.dispatch backup .manual ⟨10⟩ 0, .count ⟨10⟩, .register ⟨10⟩, .spawnActiveRun ⟨10⟩,
    .dispatch backup .manual ⟨11⟩ 0, .count ⟨11⟩, .register ⟨11⟩, .enqueue ⟨11⟩,
    .dispatch backup .manual ⟨12⟩ 0, .count ⟨12⟩, .register ⟨12⟩, .enqueue ⟨12⟩,
    .cancel ⟨1⟩ ⟨11⟩, .finish ⟨10⟩]

theorem queueTwo_served : ∃ t,
    runDispatch.Run (fun s e => queueGuard ⟨1⟩ s e = true) (boot { jobs := [backup] }) t ∧
      t.promotedIds ⟨1⟩ = [⟨12⟩] ∧ t.QueueServed ⟨1⟩ := by
  have hexec : (runDispatch.execUnder (fun s e => queueGuard ⟨1⟩ s e = true)
      (boot { jobs := [backup] }) queueTwo).any
        (fun t => t.promotedIds ⟨1⟩ = [⟨12⟩]) = true := by decide
  obtain ⟨t, hrun, hstarted⟩ := Machine.exists_run_of_execUnder _ queueTwo hexec
  exact ⟨t, hrun, of_decide_eq_true hstarted, queueServed ⟨1⟩ _ hrun⟩

/-- The indexes agree; a queue names a run once, and nothing works on that run. -/
def QueuesIdle (s : DispatchState) : Prop :=
  s.registry.WellFormed ∧ ∀ jobId, (s.registry.queue jobId).Nodup ∧
    ∀ r ∈ s.registry.queue jobId, s.tasks r = none ∧ s.calls r = none

theorem queues_idle (store : Store) (h : runDispatch.Reaches (boot store) t) : t.QueuesIdle := by
  have hs : t.Coherent := h.invariant (fun _ _ _ hs _ hstep => hs.step hstep) (coherent_boot store)
  refine ⟨hs.registry, fun jobId => ⟨hs.queue_nodup jobId, fun r hr => ⟨?_, ?_⟩⟩⟩
  · by_contra htask
    obtain ⟨hslot, hne⟩ := hs.task_slot r htask
    rcases hs.queue_slot jobId r hr with hnone | hqueued
    · exact hslot hnone
    · exact hne jobId hqueued
  · by_contra hcall
    exact hs.call_not_queued r hcall jobId hr

theorem queueTwo_idle : ∃ t, runDispatch.Reaches (boot { jobs := [backup] }) t ∧
    t.registry.queue ⟨1⟩ = [⟨11⟩, ⟨12⟩] ∧ t.QueuesIdle := by
  obtain ⟨t, hrun, hqueue⟩ :=
    Machine.exists_reaches_of_exec (M := runDispatch) (s := boot { jobs := [backup] })
      (fun t => t.registry.queue ⟨1⟩ = [⟨11⟩, ⟨12⟩]) (queueTwo.take 12) (by decide)
  exact ⟨t, hrun, of_decide_eq_true hqueue, queues_idle _ hrun⟩

/-- The run in the slot ends after the second run was registered as `Queued`
and before it is on the queue, so nothing is promoted. -/
def strand : List DispatchEvent :=
  [.dispatch backup .manual ⟨10⟩ 0, .count ⟨10⟩, .register ⟨10⟩, .spawnActiveRun ⟨10⟩,
    .dispatch backup .manual ⟨11⟩ 0, .count ⟨11⟩, .register ⟨11⟩, .finish ⟨10⟩, .enqueue ⟨11⟩]

theorem queued_run_stranded : ¬∀ (job : Job) (t : DispatchState),
    runDispatch.Run (fun _ e => concerns job e = true) (boot { jobs := [job] }) t →
      t.QueueServed job.id := by
  intro h
  have hexec : (runDispatch.execUnder (fun _ e => concerns backup e = true)
      (boot { jobs := [backup] }) strand).any
        (fun t => t.registry.slot ⟨11⟩ = some (⟨1⟩, .queued) &&
          t.registry.activeRuns ⟨1⟩ = ∅) = true := by decide
  obtain ⟨t, hrun, hstranded⟩ := Machine.exists_run_of_execUnder _ strand hexec
  rw [Bool.and_eq_true, decide_eq_true_eq, decide_eq_true_eq] at hstranded
  have hheld := (h backup t hrun).held ⟨11⟩ hstranded.1
  rw [show backup.id = ⟨1⟩ from rfl, hstranded.2] at hheld
  exact Finset.not_nonempty_empty hheld

end DispatchState

end Supervisor
