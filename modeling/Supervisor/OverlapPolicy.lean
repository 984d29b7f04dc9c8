import Supervisor.RunDispatch

namespace Supervisor

open ActiveRunState

/-- The overlap slot is free whenever a run takes it: at a registration in
phase `Starting`, and at the promotion that follows an unreaped run. -/
def overlapGuard (jobId : JobId) (s : DispatchState) : DispatchEvent → Bool
  | .register runId => decide (∀ call ∈ s.calls runId, call.startsNow → call.job.id = jobId →
      s.registry.activeRuns jobId = ∅)
  | .finishUnreaped runId => decide (∀ entry ∈ s.registry.slot runId, entry.1 = jobId →
      (s.registry.activeRuns jobId).erase runId ≠ ∅ →
        ∀ next ∈ (s.registry.queue jobId).head?, s.registry.slot next = none)
  | _ => true

namespace DispatchState

variable {s t : DispatchState} {jobId : JobId}

theorem activeRuns_subset_insert (hs : s.Coherent) (ht : t.Coherent) (new : JobRunId)
    (h : ∀ r phase, r ≠ new → t.registry.slot r = some (jobId, phase) → phase.isActive →
      ∃ phase', s.registry.slot r = some (jobId, phase') ∧ phase'.isActive) :
    t.registry.activeRuns jobId ⊆ insert new (s.registry.activeRuns jobId) := by
  intro r hr
  rw [Finset.mem_insert]
  by_cases hnew : r = new
  · exact .inl hnew
  · obtain ⟨phase, hslot, hactive⟩ := (ht.registry.mem_activeRuns jobId r).mp hr
    exact .inr ((hs.registry.mem_activeRuns jobId r).mpr (h r phase hnew hslot hactive))

theorem activeRuns_subset (hs : s.Coherent) (ht : t.Coherent)
    (h : ∀ r phase, t.registry.slot r = some (jobId, phase) → phase.isActive →
      ∃ phase', s.registry.slot r = some (jobId, phase') ∧ phase'.isActive) :
    t.registry.activeRuns jobId ⊆ s.registry.activeRuns jobId := by
  intro r hr
  obtain ⟨phase, hslot, hactive⟩ := (ht.registry.mem_activeRuns jobId r).mp hr
  exact (hs.registry.mem_activeRuns jobId r).mpr (h r phase hslot hactive)

theorem activeRuns_withoutRun (hs : s.Coherent) {registry : ActiveRunState} {runId : JobRunId}
    (hw : registry.WellFormed)
    (hslot : registry.slot = Function.update s.registry.slot runId none) :
    registry.activeRuns jobId = (s.registry.activeRuns jobId).erase runId := by
  ext r
  rw [hw.mem_activeRuns, Finset.mem_erase, hs.registry.mem_activeRuns, hslot]
  by_cases hr : r = runId
  · subst hr; simp
  · simp [hr]

/-- A promotion puts at most the head of the queue into the slot, and only if
the head is still registered. -/
theorem activeRuns_promoteNext (hs : s.Coherent) (jobId owner : JobId) :
    (s.promoteNext owner).registry.activeRuns jobId ⊆ s.registry.activeRuns jobId ∨
      owner = jobId ∧ ∃ next ∈ (s.registry.queue jobId).head?, s.registry.slot next ≠ none ∧
        (s.promoteNext owner).registry.activeRuns jobId ⊆
          insert next (s.registry.activeRuns jobId) := by
  have ht := hs.promoteNext owner
  obtain ⟨-, h⟩ | ⟨next, rest, -, -, h⟩ | ⟨next, rest, record, hq, hslot, -, hrun, hs', -⟩ :=
    promote_cases hs owner
  · refine .inl (activeRuns_subset hs ht fun r phase hr hactive => ⟨phase, ?_, hactive⟩)
    rwa [promoteNext, h] at hr
  · refine .inl (activeRuns_subset hs ht fun r phase hr hactive => ⟨phase, ?_, hactive⟩)
    rwa [promoteNext, h] at hr
  · have hafter : (s.promoteNext owner).registry.slot =
        Function.update s.registry.slot next (some (owner, .starting)) := by
      rw [promoteNext, hrun]
      exact hs'
    by_cases howner : owner = jobId
    · subst howner
      refine .inr ⟨rfl, next, by rw [hq]; rfl, by rw [hslot]; simp,
        activeRuns_subset_insert hs ht next fun r phase hne hr hactive => ⟨phase, ?_, hactive⟩⟩
      rwa [hafter, Function.update_of_ne hne] at hr
    · refine .inl (activeRuns_subset hs ht fun r phase hr hactive => ⟨phase, ?_, hactive⟩)
      rw [hafter] at hr
      by_cases hne : r = next
      · rw [hne, Function.update_self, Option.some.injEq, Prod.mk.injEq] at hr
        exact absurd hr.1 howner
      · rwa [Function.update_of_ne hne] at hr

theorem activeRuns_register (hs : s.Coherent) {runId : JobRunId} {call : DispatchCall}
    (hcall : s.calls runId = some call) (hpoint : call.point ≠ .registered) :
    (s.register runId call).registry.activeRuns jobId ⊆ s.registry.activeRuns jobId ∨
      call.startsNow ∧ call.job.id = jobId ∧
        (s.register runId call).registry.activeRuns jobId ⊆
          insert runId (s.registry.activeRuns jobId) := by
  have ht := hs.register hcall hpoint
  have hcases : (s.register runId call).registry.slot = s.registry.slot ∨
      ∃ phase, (phase.isActive → call.startsNow) ∧ (s.register runId call).registry.slot =
        Function.update s.registry.slot runId (some (call.job.id, phase)) := by
    unfold DispatchState.register
    split
    · exact .inr ⟨.starting, fun _ => ‹_›, slot_register ..⟩
    · split
      · exact .inr ⟨.queued, fun h => absurd h (by decide), slot_register ..⟩
      · exact .inl rfl
  obtain hsame | ⟨phase, hstart, hslot⟩ := hcases
  · exact .inl (activeRuns_subset hs ht fun r phase hr hactive => ⟨phase, by rwa [hsame] at hr,
      hactive⟩)
  · by_cases hnew : phase.isActive ∧ call.job.id = jobId
    · refine .inr ⟨hstart hnew.1, hnew.2, activeRuns_subset_insert hs ht runId
        fun r phase hne hr hactive => ⟨phase, ?_, hactive⟩⟩
      rwa [hslot, Function.update_of_ne hne] at hr
    · refine .inl (activeRuns_subset hs ht fun r phase' hr hactive => ⟨phase', ?_, hactive⟩)
      rw [hslot] at hr
      by_cases hne : r = runId
      · rw [hne, Function.update_self, Option.some.injEq, Prod.mk.injEq] at hr
        exact absurd ⟨hr.2 ▸ hactive, hr.1⟩ hnew
      · rwa [Function.update_of_ne hne] at hr

theorem activeRuns_publishChild (jobId : JobId) (hs : s.Coherent) {runId : JobRunId} (child : ChildHandle)
    (htask : s.tasks runId ≠ none) :
    (s.registry.publishChild runId child).activeRuns jobId = s.registry.activeRuns jobId := by
  have ht := hs.publishChild child htask
  obtain ⟨owner, phase, phase', hentry, -, hactive, hslot⟩ :=
    slot_publishChild_of_task hs child htask
  ext r
  rw [ht.registry.mem_activeRuns, hs.registry.mem_activeRuns, hslot]
  by_cases hr : r = runId
  · subst hr; simp [hentry, hactive]
  · simp [hr]

/-- A cancelled run was queued, or keeps its phase until its runner ends. -/
theorem activeRuns_cancel (jobId : JobId) (hs : s.Coherent) (owner : JobId) (runId : JobRunId) :
    (s.cancel owner runId).registry.activeRuns jobId = s.registry.activeRuns jobId := by
  have ht := hs.cancel owner runId
  ext r
  rw [ht.registry.mem_activeRuns, hs.registry.mem_activeRuns]
  by_cases hslot : s.registry.slot runId = some (owner, .queued)
  · have hafter : (s.cancel owner runId).registry.slot =
        Function.update s.registry.slot runId none := by
      rw [DispatchState.cancel, cancelOwned_of_queued hslot, slot_removeRun, slot_setQueue,
        slot_signal]
    rw [hafter]
    by_cases hr : r = runId
    · subst hr
      simp only [Function.update_self, hslot]
      constructor
      · rintro ⟨phase, h, -⟩
        cases h
      · rintro ⟨phase, h, hactive⟩
        cases h
        cases hactive
    · rw [Function.update_of_ne hr]
  · have hafter : (s.cancel owner runId).registry.slot = s.registry.slot := by
      obtain h | h := cancelOwned_of_not_queued hslot
      · rw [DispatchState.cancel, h]
      · rw [DispatchState.cancel, h, slot_signal]
    rw [hafter]

/-- A drain may tombstone the runs of its job; it starts none. -/
theorem activeRuns_drain (hs : s.Coherent) (owner : JobId) (tombstone : Bool) :
    (s.drain owner tombstone).registry.activeRuns jobId ⊆ s.registry.activeRuns jobId := by
  refine activeRuns_subset hs (hs.drain owner tombstone) fun r phase hr hactive => ?_
  change (s.registry.beginDrain owner tombstone).2.slot r = _ at hr
  rw [slot_beginDrain _ hs.registry] at hr
  split at hr
  · cases hr
  · rename_i phase' hslot
    split at hr
    · exact ⟨phase, hslot.trans hr, hactive⟩
    · split at hr
      · cases hr
      · simp only [Option.some.injEq, Prod.mk.injEq] at hr
        obtain ⟨rfl, hphase⟩ := hr
        cases tombstone with
        | true => rw [← hphase] at hactive; cases hactive
        | false => exact ⟨phase, by rw [hslot, ← hphase]; rfl, hactive⟩

/-- `finish` passes the slot on only when it is free. -/
theorem card_activeRuns_finish (hs : s.Coherent) {runId : JobRunId} {owner : JobId}
    {phase : ActiveRunPhase} (hslot : s.registry.slot runId = some (owner, phase))
    (hcard : (s.registry.activeRuns jobId).card ≤ 1) :
    ((s.finishTask runId (s.registry.finish runId)).registry.activeRuns jobId).card ≤ 1 := by
  have hw := hs.registry.removeRun hslot
  have hremoved : (s.withoutRun (s.registry.removeRun owner runId) runId).Coherent :=
    hs.remove hw (slot_removeRun ..) rfl
  have hleft : (s.registry.removeRun owner runId).activeRuns jobId =
      (s.registry.activeRuns jobId).erase runId := activeRuns_withoutRun hs hw (slot_removeRun ..)
  have hcard' : ((s.registry.removeRun owner runId).activeRuns jobId).card ≤ 1 := by
    rw [hleft]
    exact Finset.card_erase_le.trans hcard
  rw [finishTask_finish hslot]
  split
  · exact hcard'
  · rename_i hfree
    obtain hsub | ⟨rfl, next, -, -, hsub⟩ :=
      activeRuns_promoteNext hremoved jobId owner
    · exact (Finset.card_le_card hsub).trans hcard'
    · have hempty := Finset.not_nonempty_iff_eq_empty.mp hfree
      change _ ⊆ insert next ((s.registry.removeRun owner runId).activeRuns owner) at hsub
      rw [hempty, insert_empty_eq] at hsub
      exact (Finset.card_le_card hsub).trans (Finset.card_singleton _).le

/-- `finish_unreaped` passes the slot on without a look at it, so its guard does. -/
theorem card_activeRuns_finishUnreaped (hs : s.Coherent) {runId : JobRunId} {owner : JobId}
    {phase : ActiveRunPhase} (hslot : s.registry.slot runId = some (owner, phase))
    (hguard : overlapGuard jobId s (.finishUnreaped runId) = true)
    (hcard : (s.registry.activeRuns jobId).card ≤ 1) :
    ((s.finishTask runId (s.registry.finishUnreaped runId)).registry.activeRuns jobId).card ≤ 1 := by
  have hw := hs.registry.handOver hslot
  have hremoved : (s.withoutRun (s.registry.handOver owner runId) runId).Coherent :=
    hs.remove hw slot_handOver rfl
  have hleft : (s.registry.handOver owner runId).activeRuns jobId =
      (s.registry.activeRuns jobId).erase runId := activeRuns_withoutRun hs hw slot_handOver
  rw [finishTask_finishUnreaped hslot]
  obtain hsub | ⟨rfl, next, hnext, hregistered, hsub⟩ :=
    activeRuns_promoteNext hremoved jobId owner
  · change _ ⊆ (s.registry.handOver owner runId).activeRuns jobId at hsub
    rw [hleft] at hsub
    exact (Finset.card_le_card hsub).trans (Finset.card_erase_le.trans hcard)
  · have hfree : (s.registry.activeRuns owner).erase runId = ∅ := by
      by_contra hother
      have hstale := of_decide_eq_true hguard (owner, phase) hslot rfl hother next hnext
      refine hregistered ?_
      change (s.registry.handOver owner runId).slot next = none
      rw [slot_handOver]
      by_cases hne : next = runId
      · rw [hne, Function.update_self]
      · rw [Function.update_of_ne hne, hstale]
    change _ ⊆ insert next ((s.registry.handOver owner runId).activeRuns owner) at hsub
    rw [hleft, hfree, insert_empty_eq] at hsub
    exact (Finset.card_le_card hsub).trans (Finset.card_singleton _).le

/-- A permitted event leaves the job's slot with at most one run. -/
theorem card_activeRuns_step (hs : s.Coherent) {e : DispatchEvent}
    (hguard : overlapGuard jobId s e = true) (h : runDispatch.step s e = some t)
    (hcard : (s.registry.activeRuns jobId).card ≤ 1) :
    (t.registry.activeRuns jobId).card ≤ 1 := by
  have ht := hs.step h
  have hshrink (hsub : t.registry.activeRuns jobId ⊆ s.registry.activeRuns jobId) :
      (t.registry.activeRuns jobId).card ≤ 1 := (Finset.card_le_card hsub).trans hcard
  have hsame (hslot : t.registry.slot = s.registry.slot) :
      (t.registry.activeRuns jobId).card ≤ 1 :=
    hshrink (activeRuns_subset hs ht fun r phase hr hactive => ⟨phase, hslot ▸ hr, hactive⟩)
  cases hs.stepped h with
  | dispatch hfresh => exact hsame (by rw [registry_dispatch])
  | count hcall => exact hsame rfl
  | register hcall hpoint =>
    obtain hsub | ⟨hstart, hjob, hsub⟩ := activeRuns_register hs hcall hpoint
    · exact hshrink hsub
    · have hfree : s.registry.activeRuns jobId = ∅ :=
        of_decide_eq_true hguard _ hcall hstart hjob
      rw [hfree, insert_empty_eq] at hsub
      exact (Finset.card_le_card hsub).trans (Finset.card_singleton _).le
  | enqueue hcall _ => exact hsame rfl
  | admitOccurrence hfresh => exact hsame (by rw [registry_admitOccurrence])
  | spawnActiveRun htask => exact hsame (slot_setRunner ..)
  | publishChild htask => exact hshrink (activeRuns_publishChild _ hs _ (by rw [htask]; simp)).subset
  | finish hslot _ => exact card_activeRuns_finish hs hslot hcard
  | finishUnreaped hslot _ => exact card_activeRuns_finishUnreaped hs hslot hguard hcard
  | cancel => exact hshrink (activeRuns_cancel _ hs _ _).subset
  | drain => exact hshrink (activeRuns_drain hs _ _)
  | aside hruns _ _ =>
    refine hsame ?_
    funext r
    rw [slot, slot, hruns]

/-- In every run whose registrations and unreaped promotions find the slot of a
job free, at most one run of the job is in phase `Starting` or `Running`. -/
theorem card_activeRuns_le_one (jobId : JobId) (store : Store) {t : DispatchState}
    (h : runDispatch.Run (fun s e => overlapGuard jobId s e = true) (boot store) t) :
    (t.registry.activeRuns jobId).card ≤ 1 := by
  have hinit : (boot store).Coherent ∧ ((boot store).registry.activeRuns jobId).card ≤ 1 :=
    ⟨coherent_boot store, Nat.zero_le 1⟩
  refine (h.invariant (I := fun s => s.Coherent ∧ (s.registry.activeRuns jobId).card ≤ 1)
    ?_ hinit).2
  rintro s e u ⟨hs, hcard⟩ hguard hstep
  exact ⟨hs.step hstep, card_activeRuns_step hs hguard hstep hcard⟩

/-- The events of a daemon with one job whose definition does not change. -/
def concerns (job : Job) : DispatchEvent → Bool
  | .dispatch other _ _ _ => other = job
  | .store (.claimOccurrence other _ _) => other = job
  | .store _ => false
  | _ => true

/-- A job with the default overlap policy `Skip` and one slot for scheduled runs. -/
def nightly : Job := { id := ⟨1⟩, name := "nightly", trigger := .interval nanosPerSec }

def nightlyOccurrence : ScheduleOccurrence :=
  { triggerId := 0, scheduleRevision := 0, scheduledAt := 0, attempt := 1 }

/-- A manual run takes the slot; a second trigger is skipped and, once the run
is over, a third one starts. -/
def takeTurns : List DispatchEvent :=
  [.dispatch nightly .manual ⟨10⟩ 0, .count ⟨10⟩, .register ⟨10⟩, .spawnActiveRun ⟨10⟩,
    .dispatch nightly .manual ⟨11⟩ 0, .count ⟨11⟩, .register ⟨11⟩, .finish ⟨10⟩,
    .dispatch nightly .manual ⟨12⟩ 0, .count ⟨12⟩, .register ⟨12⟩]

theorem takeTurns_card_le_one : ∃ t,
    runDispatch.Run (fun s e => overlapGuard ⟨1⟩ s e = true) (boot { jobs := [nightly] }) t ∧
      t.registry.activeRuns ⟨1⟩ = {⟨12⟩} ∧ (t.registry.activeRuns ⟨1⟩).card ≤ 1 := by
  have hexec : (runDispatch.execUnder (fun s e => overlapGuard ⟨1⟩ s e = true)
      (boot { jobs := [nightly] }) takeTurns).any
        (fun t => t.registry.activeRuns ⟨1⟩ = {⟨12⟩}) = true := by decide
  obtain ⟨t, hrun, hactive⟩ := Machine.exists_run_of_execUnder _ takeTurns hexec
  exact ⟨t, hrun, of_decide_eq_true hactive, card_activeRuns_le_one ⟨1⟩ _ hrun⟩

/-- A manual run is in phase `Starting` when the schedule pass admits an
occurrence of its job: the ledger counts no running occurrence. -/
def admitBeside : List DispatchEvent :=
  [.dispatch nightly .manual ⟨10⟩ 0, .count ⟨10⟩, .register ⟨10⟩,
    .store (.claimOccurrence nightly nightlyOccurrence 0),
    .admitOccurrence
      { jobId := ⟨1⟩, jobName := "nightly", occurrence := nightlyOccurrence, state := .claimed,
        nextAttemptAt := 0 } 0 ⟨11⟩,
    .register ⟨11⟩]

theorem scheduled_admission_overlaps : ¬∀ (job : Job) (t : DispatchState),
    job.onOverlap ≠ .parallel →
    runDispatch.Run (fun _ e => concerns job e = true) (boot { jobs := [job] }) t →
      (t.registry.activeRuns job.id).card ≤ 1 := by
  intro h
  have hexec : (runDispatch.execUnder (fun _ e => concerns nightly e = true)
      (boot { jobs := [nightly] }) admitBeside).any
        (fun t => (t.registry.activeRuns ⟨1⟩).card = 2) = true := by decide
  obtain ⟨t, hrun, hactive⟩ := Machine.exists_run_of_execUnder _ admitBeside hexec
  have hcard := h nightly t (by decide) hrun
  rw [show nightly.id = ⟨1⟩ from rfl, of_decide_eq_true hactive] at hcard
  exact absurd hcard (by decide)

end DispatchState

end Supervisor
