import Supervisor.ShutdownSystem

namespace Supervisor

namespace ActiveRunState

variable {s : ActiveRunState} {jobId : JobId} {runId : JobRunId}

/-- The job that a run is registered for. -/
def owner (s : ActiveRunState) (runId : JobRunId) : Option JobId := (s.slot runId).map Prod.fst

/-- The runs of a job that wait for their cleanup. -/
def cleanups (s : ActiveRunState) (jobId : JobId) : Finset JobRunId := (s.cleanupByJob jobId).getD ∅

theorem owner_of_slot {phase : ActiveRunPhase} (h : s.slot runId = some (jobId, phase)) :
    s.owner runId = some jobId := by
  rw [owner, h, Option.map_some]

/-- A change in place keeps the jobs of the runs. -/
theorem owner_modify {f : ActiveRunRecord → ActiveRunRecord}
    (hjob : ∀ record, (f record).run.job.id = record.run.job.id) :
    (s.modify runId f).owner = s.owner := by
  funext r
  rw [owner, owner, slot_modify]
  by_cases hr : r = runId
  · subst hr
    rw [Function.update_self, slot]
    cases hrun : s.runs r with
    | none => rfl
    | some record =>
      rw [Option.map_some, Option.map_some, Option.map_some, Option.map_some, hjob]
  · rw [Function.update_of_ne hr]

theorem owner_promote : (s.promote jobId).2.owner = s.owner := by
  cases hq : s.queue jobId with
  | nil => rw [promote_of_queue_nil hq]
  | cons head rest =>
    cases hslot : s.slot head with
    | none =>
      rw [promote_of_stale hq hslot]
      rfl
    | some entry =>
      rw [(promote_of_queue_cons hq hslot).1]
      exact owner_modify fun _ => rfl

theorem cleanups_promote : (s.promote jobId).2.cleanups = s.cleanups := by
  cases hq : s.queue jobId with
  | nil => rw [promote_of_queue_nil hq]
  | cons head rest =>
    cases hslot : s.slot head with
    | none =>
      rw [promote_of_stale hq hslot]
      rfl
    | some entry =>
      rw [(promote_of_queue_cons hq hslot).1]
      rfl

theorem owner_removeRun (r : JobRunId) :
    (s.removeRun jobId runId).owner r = if r = runId then none else s.owner r := by
  rw [owner, slot_removeRun]
  by_cases hr : r = runId
  · rw [if_pos hr, hr, Function.update_self, Option.map_none]
  · rw [if_neg hr, Function.update_of_ne hr]
    rfl

theorem owner_finish (h : s.owner runId = some jobId) (r : JobRunId) :
    (s.finish runId).2.owner r = if r = runId then none else s.owner r := by
  obtain ⟨⟨owner, phase⟩, hslot, rfl⟩ := Option.map_eq_some_iff.mp h
  rw [finish_eq hslot]
  split
  · exact owner_removeRun r
  · rw [owner_promote]
    exact owner_removeRun r

theorem cleanups_finish : (s.finish runId).2.cleanups = s.cleanups := by
  cases hslot : s.slot runId with
  | none =>
    have hrun : s.runs runId = none := Option.map_eq_none_iff.mp hslot
    simp only [finish, hrun]
  | some entry =>
    rw [finish_eq hslot]
    split
    · rfl
    · rw [cleanups_promote]
      rfl

theorem owner_finishUnreaped (h : s.owner runId = some jobId) (r : JobRunId) :
    (s.finishUnreaped runId).2.owner r = if r = runId then none else s.owner r := by
  obtain ⟨⟨owner, phase⟩, hslot, rfl⟩ := Option.map_eq_some_iff.mp h
  rw [finishUnreaped_eq hslot, owner_promote]
  exact owner_removeRun r

/-- The cleanup of a run that is not reaped is its job's. -/
theorem mem_cleanups_finishUnreaped (h : s.owner runId = some jobId) (j : JobId) (r : JobRunId) :
    r ∈ (s.finishUnreaped runId).2.cleanups j ↔
      r ∈ s.cleanups j ∨ j = jobId ∧ r = runId := by
  obtain ⟨⟨owner, phase⟩, hslot, rfl⟩ := Option.map_eq_some_iff.mp h
  rw [finishUnreaped_eq hslot, cleanups_promote]
  change r ∈ (Function.update s.cleanupByJob owner
    (some (insert runId ((s.cleanupByJob owner).getD ∅))) j).getD ∅ ↔ _
  by_cases hj : j = owner
  · subst hj
    rw [Function.update_self, Option.getD_some, Finset.mem_insert, or_comm]
    simp [cleanups]
  · rw [Function.update_of_ne hj]
    simp [cleanups, hj]

theorem owner_publishChild (child : ChildHandle) :
    (s.publishChild runId child).owner = s.owner := owner_modify fun _ => rfl

theorem owner_setRunner : (s.setRunner runId).owner = s.owner := owner_modify fun _ => rfl

theorem owner_cancelOwned (r : JobRunId) :
    (s.cancelOwned jobId runId).2.owner r = none ∨
      (s.cancelOwned jobId runId).2.owner r = s.owner r := by
  have hsignal : (s.signal runId).owner = s.owner := owner_modify fun _ => rfl
  by_cases hslot : s.slot runId = some (jobId, .queued)
  · rw [cancelOwned_of_queued hslot, owner_removeRun]
    split
    · exact .inl rfl
    · right
      change (s.signal runId).owner r = s.owner r
      rw [hsignal]
  · right
    rcases cancelOwned_of_not_queued hslot with h | h
    · rw [h]
    · rw [h, hsignal]

theorem cleanups_cancelOwned : (s.cancelOwned jobId runId).2.cleanups = s.cleanups := by
  by_cases hslot : s.slot runId = some (jobId, .queued)
  · rw [cancelOwned_of_queued hslot]
    rfl
  · rcases cancelOwned_of_not_queued hslot with h | h
    · rw [h]
    · rw [h]
      rfl

theorem owner_beginDrain (hw : s.WellFormed) (tombstone : Bool) (r : JobRunId) :
    (s.beginDrain jobId tombstone).2.owner r = none ∨
      (s.beginDrain jobId tombstone).2.owner r = s.owner r := by
  rw [owner, owner, slot_beginDrain jobId hw]
  cases s.slot r with
  | none => exact .inl rfl
  | some entry =>
    obtain ⟨owner, phase⟩ := entry
    dsimp only
    split
    · exact .inr rfl
    · split
      · exact .inl rfl
      · exact .inr rfl

theorem owner_register (job : Job) (triggeredBy : TriggeredBy) (phase : ActiveRunPhase)
    (r : JobRunId) :
    (s.register job triggeredBy runId phase).owner r =
      if r = runId then some job.id else s.owner r := by
  rw [owner, slot_register]
  by_cases hr : r = runId
  · rw [if_pos hr, hr, Function.update_self, Option.map_some]
  · rw [if_neg hr, Function.update_of_ne hr]
    rfl

theorem WellFormed.hasRuns_eq_false (hw : s.WellFormed) (h : s.hasRuns jobId = false) :
    (∀ r, s.owner r ≠ some jobId) ∧ s.cleanups jobId = ∅ := by
  simp only [hasRuns, Bool.or_eq_false_iff] at h
  have hempty {m : Option (Finset JobRunId)} (hm : m.any (· ≠ ∅) = false) : m.getD ∅ = ∅ := by
    cases m with
    | none => rfl
    | some runs => simpa using hm
  refine ⟨fun r howner => ?_, hempty h.2⟩
  obtain ⟨⟨owner, phase⟩, hslot, rfl⟩ := Option.map_eq_some_iff.mp howner
  have hmem := (hw.index owner r).mpr ⟨phase, hslot⟩
  rw [hempty h.1] at hmem
  exact absurd hmem (Finset.notMem_empty r)

/-- The run has a runner. -/
def IsHeld (s : ActiveRunState) (runId : JobRunId) : Prop :=
  ∃ job phase, s.slot runId = some (job, phase) ∧ phase ≠ .queued

theorem isHeld_promote {r : JobRunId} (h : s.IsHeld r) : (s.promote jobId).2.IsHeld r := by
  cases hq : s.queue jobId with
  | nil => rwa [promote_of_queue_nil hq]
  | cons head rest =>
    cases hslot : s.slot head with
    | none =>
      rw [promote_of_stale hq hslot]
      exact h
    | some entry =>
      unfold IsHeld
      rw [slot_promote hq hslot]
      by_cases hr : r = head
      · rw [hr, Function.update_self]
        exact ⟨_, _, rfl, ActiveRunPhase.noConfusion⟩
      · rw [Function.update_of_ne hr]
        exact h

theorem isHeld_register {r : JobRunId} (h : s.IsHeld r) (hfresh : s.slot runId = none) (job : Job)
    (triggeredBy : TriggeredBy) (phase : ActiveRunPhase) :
    (s.register job triggeredBy runId phase).IsHeld r := by
  obtain ⟨owner, heldPhase, hslot, hphase⟩ := h
  have hr : r ≠ runId := by
    rintro rfl
    rw [hfresh] at hslot
    cases hslot
  refine ⟨owner, heldPhase, ?_, hphase⟩
  rw [slot_register, Function.update_of_ne hr]
  exact hslot

theorem isHeld_removeRun {r : JobRunId} (h : s.IsHeld r) (hr : r ≠ runId) :
    (s.removeRun jobId runId).IsHeld r := by
  unfold IsHeld
  rw [slot_removeRun, Function.update_of_ne hr]
  exact h

theorem isHeld_finish {r : JobRunId} (h : s.IsHeld r) (hr : r ≠ runId) :
    (s.finish runId).2.IsHeld r := by
  cases hslot : s.slot runId with
  | none =>
    have hrun : s.runs runId = none := Option.map_eq_none_iff.mp hslot
    simpa only [finish, hrun] using h
  | some entry =>
    rw [finish_eq hslot]
    split
    · exact isHeld_removeRun h hr
    · exact isHeld_promote (isHeld_removeRun h hr)

theorem isHeld_finishUnreaped {r : JobRunId} (h : s.IsHeld r) (hr : r ≠ runId) :
    (s.finishUnreaped runId).2.IsHeld r := by
  cases hslot : s.slot runId with
  | none =>
    have hrun : s.runs runId = none := Option.map_eq_none_iff.mp hslot
    simpa only [finishUnreaped, hrun] using h
  | some entry =>
    rw [finishUnreaped_eq hslot]
    apply isHeld_promote
    unfold IsHeld
    rw [slot_handOver, Function.update_of_ne hr]
    exact h

theorem isHeld_publishChild {r : JobRunId} (h : s.IsHeld r) (child : ChildHandle) :
    (s.publishChild runId child).IsHeld r := by
  obtain ⟨job, phase, hslot, hphase⟩ := h
  unfold IsHeld
  rw [slot_publishChild]
  by_cases hr : r = runId
  · subst hr
    rw [Function.update_self, hslot]
    refine ⟨_, _, rfl, ?_⟩
    split
    · exact ActiveRunPhase.noConfusion
    · exact ActiveRunPhase.noConfusion
  · rw [Function.update_of_ne hr]
    exact ⟨job, phase, hslot, hphase⟩

theorem isHeld_beginDrain (hw : s.WellFormed) {r : JobRunId} (h : s.IsHeld r) :
    (s.beginDrain jobId false).2.IsHeld r := by
  obtain ⟨job, phase, hslot, hphase⟩ := h
  unfold IsHeld
  rw [slot_beginDrain jobId hw, hslot]
  by_cases howner : job = jobId
  · refine ⟨job, phase, ?_, hphase⟩
    simp [howner, hphase]
  · refine ⟨job, phase, ?_, hphase⟩
    simp [howner]

theorem isHeld_cancelOwned {r : JobRunId} (h : s.IsHeld r) :
    (s.cancelOwned jobId runId).2.IsHeld r := by
  by_cases hslot : s.slot runId = some (jobId, .queued)
  · rw [cancelOwned_of_queued hslot]
    have hr : r ≠ runId := by
      rintro rfl
      obtain ⟨job, phase, hslot', hphase⟩ := h
      rw [hslot, Option.some.injEq, Prod.mk.injEq] at hslot'
      exact hphase hslot'.2.symm
    apply isHeld_removeRun _ hr
    unfold IsHeld
    rw [slot_setQueue, slot_signal]
    exact h
  · rcases cancelOwned_of_not_queued hslot with heq | heq
    · rwa [heq]
    · rw [heq]
      unfold IsHeld
      rw [slot_signal]
      exact h

end ActiveRunState

namespace ShutdownPoint

/-- The jobs whose drain `shutdown_all` has not finished, once it has their list. -/
def undrained : ShutdownPoint → Option (List JobId)
  | .jobs rest => some rest
  | .queued job _ _ rest | .runners job _ rest => some (job :: rest)
  | .reaping _ | .returned .ok => some []
  | .idle | .guards _ | .returned _ => none

/-- The jobs whose drain has not begun. -/
def unbegun : ShutdownPoint → Option (List JobId)
  | .jobs rest | .queued _ _ _ rest | .runners _ _ rest => some rest
  | .reaping _ | .returned .ok => some []
  | .idle | .guards _ | .returned _ => none

/-- The jobs after the one that is being drained. -/
def later : ShutdownPoint → List JobId
  | .jobs (_ :: rest) | .queued _ _ _ rest | .runners _ _ rest => rest
  | _ => []

/-- The job whose runs are checked. -/
def checked : ShutdownPoint → Option JobId
  | .runners job _ _ => some job
  | _ => none

/-- The handles that `shutdown_all` has not reaped, once it has taken them. -/
def unreaped : ShutdownPoint → Option (List ChildHandle)
  | .reaping rest => some rest
  | .returned .ok => some []
  | _ => none

theorem unbegun_subset {p : ShutdownPoint} {jobs : List JobId} (h : jobs ∈ p.undrained) :
    ∃ rest ∈ p.unbegun, rest ⊆ jobs := by
  cases p with
  | jobs rest =>
    obtain rfl := Option.mem_some_iff.mp h
    exact ⟨rest, rfl, List.Subset.refl rest⟩
  | queued job _ _ rest =>
    obtain rfl := Option.mem_some_iff.mp h
    exact ⟨rest, rfl, List.subset_cons_self job rest⟩
  | runners job _ rest =>
    obtain rfl := Option.mem_some_iff.mp h
    exact ⟨rest, rfl, List.subset_cons_self job rest⟩
  | reaping rest => exact ⟨[], rfl, List.nil_subset jobs⟩
  | returned result =>
    cases result with
    | ok => exact ⟨[], rfl, List.nil_subset jobs⟩
    | unlisted => cases h
    | failed item children runs => cases h
  | idle => cases h
  | guards rest => cases h

end ShutdownPoint

namespace ShutdownState

/-- The run is registered for the job, or its child waits for the cleanup. -/
def IsOpen (s : ShutdownState) (job : JobId) (runId : JobRunId) : Prop :=
  s.registry.owner runId = some job ∨ runId ∈ s.registry.cleanups job

instance (s : ShutdownState) (job : JobId) (runId : JobRunId) : Decidable (s.IsOpen job runId) :=
  inferInstanceAs (Decidable (_ ∨ _))

/-- Shutdown leaves nothing tied behind. -/
structure LeavesNothing (s : ShutdownState) : Prop where
  /-- Once `shutdown_all` has returned, no child is alive, hence none is spawned. -/
  quiet : s.point = .returned .ok → s.children = [] ∧ s.runChildren = []
  /-- When something fails, every other child and run has been asked to terminate. -/
  asked : ∀ item children runs, s.point = .returned (.failed item children runs) →
    children = [] ∧ runs = []

/-- No tied child is alive, and no job after the current one has runs. -/
def IsLast (s : ShutdownState) : Prop :=
  s.children = [] ∧ ∀ job ∈ s.point.later, s.registry.hasRuns job = false

instance (s : ShutdownState) : Decidable s.IsLast := inferInstanceAs (Decidable (_ ∧ _))

/-- What is spawned is spawned before `shutdown_all` looks for it, and what fails is the last that
there is to clean up. -/
def SpawnsInTime (s : ShutdownState) : ShutdownEvent → Prop
  | .spawn _ _ => s.point.unreaped = none
  | .register job _ _ _ => ∀ jobs ∈ s.point.unbegun, job.id ∈ jobs
  | .endRun runId .lost => runId ∉ s.runChildren
  | .listJobs false => ∀ entry ∈ s.registered, s.IsOpen entry.1 entry.2 → entry.1 ∈ s.jobs
  | .takeHandles => ∀ handle ∈ s.children, ∃ entry ∈ s.entries,
      entry.handle = handle ∧ entry.tied = true
  | .cancelGuard true => s.children = [] ∧
      ∀ entry ∈ s.registered, s.registry.owner entry.2 = none
  | .unregister true | .cancelQueued _ true | .joinRunner _ true => s.IsLast
  | .checkRuns => (∃ job ∈ s.point.checked, s.registry.hasRuns job = true) → s.IsLast
  | .reap true => ∀ handles ∈ s.point.unreaped, handles.length ≤ 1
  | _ => True

instance (s : ShutdownState) (e : ShutdownEvent) : Decidable (s.SpawnsInTime e) := by
  unfold SpawnsInTime
  split <;> exact inferInstance

/-- Every child of a run is the one of a run with a runner, or waits for its cleanup. -/
def IsOwned (s : ShutdownState) (runId : JobRunId) : Prop :=
  s.registry.IsHeld runId ∨ ∃ job, runId ∈ s.registry.cleanups job

structure Sound (s : ShutdownState) : Prop where
  wellFormed : s.registry.WellFormed
  registered : ∀ job runId, s.IsOpen job runId → (job, runId) ∈ s.registered
  owned : ∀ runId ∈ s.runChildren, s.IsOwned runId
  drained : ∀ jobs ∈ s.point.undrained, ∀ job runId, s.IsOpen job runId → job ∈ jobs
  reaped : ∀ handles ∈ s.point.unreaped, ∀ handle ∈ s.children, handle ∈ handles
  asked : ∀ item children runs, s.point = .returned (.failed item children runs) →
    children = [] ∧ runs = []

section Steps

variable {s t : ShutdownState}

theorem Sound.withRegistry (hs : s.Sound) {registry : ActiveRunState}
    {runChildren : List JobRunId} (hw : registry.WellFormed)
    (hopen : ∀ job runId, { s with registry }.IsOpen job runId → s.IsOpen job runId)
    (howned : ∀ runId ∈ runChildren, { s with registry }.IsOwned runId) :
    { s with registry, runChildren }.Sound where
  wellFormed := hw
  registered job runId h := hs.registered job runId (hopen job runId h)
  owned := howned
  drained jobs hjobs job runId h := hs.drained jobs hjobs job runId (hopen job runId h)
  reaped := hs.reaped
  asked := hs.asked

theorem isStarted_iff {runId : JobRunId} : s.isStarted runId = true ↔ s.registry.IsHeld runId := by
  unfold isStarted ActiveRunState.IsHeld
  rw [Option.any_eq_true]
  constructor
  · rintro ⟨⟨job, phase⟩, hslot, hphase⟩
    exact ⟨job, phase, hslot, of_decide_eq_true hphase⟩
  · rintro ⟨job, phase, hslot, hphase⟩
    exact ⟨(job, phase), hslot, decide_eq_true hphase⟩

/-- The end of a runner takes its run off the registry. -/
theorem Sound.finishRun (hs : s.Sound) {runId : JobRunId} {end_ : RunEnd}
    (hheld : s.registry.IsHeld runId) (hlost : end_ = .lost → runId ∉ s.runChildren) :
    (s.finishRun runId end_).Sound := by
  obtain ⟨job, phase, hslot, -⟩ := hheld
  have howner := ActiveRunState.owner_of_slot hslot
  have hfinish (j : JobId) (r : JobRunId)
      (h : { s with registry := (s.registry.finish runId).2 }.IsOpen j r) : s.IsOpen j r := by
    rcases h with h | h
    · change (s.registry.finish runId).2.owner r = some j at h
      rw [ActiveRunState.owner_finish howner] at h
      split at h
      · cases h
      · exact .inl h
    · change r ∈ (s.registry.finish runId).2.cleanups j at h
      rw [ActiveRunState.cleanups_finish] at h
      exact .inr h
  have howned {r : JobRunId} (hr : r ∈ s.runChildren) (hne : r ≠ runId) :
      { s with registry := (s.registry.finish runId).2 }.IsOwned r := by
    rcases hs.owned r hr with h | ⟨j, h⟩
    · exact .inl (ActiveRunState.isHeld_finish h hne)
    · refine .inr ⟨j, ?_⟩
      change r ∈ (s.registry.finish runId).2.cleanups j
      rwa [ActiveRunState.cleanups_finish]
  cases end_ with
  | reaped =>
    apply hs.withRegistry hs.wellFormed.finish hfinish
    intro r hr
    obtain ⟨hr, hne⟩ := List.mem_filter.mp hr
    exact howned hr (of_decide_eq_true hne)
  | lost =>
    apply hs.withRegistry hs.wellFormed.finish hfinish
    intro r hr
    exact howned hr fun heq => hlost rfl (heq ▸ hr)
  | unreaped =>
    apply hs.withRegistry hs.wellFormed.finishUnreaped
    · intro j r h
      rcases h with h | h
      · change (s.registry.finishUnreaped runId).2.owner r = some j at h
        rw [ActiveRunState.owner_finishUnreaped howner] at h
        split at h
        · cases h
        · exact .inl h
      · rcases (ActiveRunState.mem_cleanups_finishUnreaped howner j r).mp h with h | ⟨rfl, rfl⟩
        · exact .inr h
        · exact .inl howner
    · intro r hr
      by_cases hne : r = runId
      · exact .inr ⟨job, (ActiveRunState.mem_cleanups_finishUnreaped howner job r).mpr
          (.inr ⟨rfl, hne⟩)⟩
      · rcases hs.owned r hr with h | ⟨j, h⟩
        · exact .inl (ActiveRunState.isHeld_finishUnreaped h hne)
        · exact .inr ⟨j, (ActiveRunState.mem_cleanups_finishUnreaped howner j r).mpr (.inl h)⟩

theorem Sound.slot_eq_none (hs : s.Sound) {runId : JobRunId} (h : s.isDrawn runId = false) :
    s.registry.slot runId = none := by
  cases hslot : s.registry.slot runId with
  | none => rfl
  | some entry =>
    have hmem := hs.registered entry.1 runId (.inl (ActiveRunState.owner_of_slot hslot))
    have hdrawn : s.isDrawn runId = true :=
      List.any_eq_true.mpr ⟨(entry.1, runId), hmem, decide_eq_true rfl⟩
    rw [h] at hdrawn
    cases hdrawn

theorem Sound.register (hs : s.Sound) {job : Job} {triggeredBy : TriggeredBy} {runId : JobRunId}
    {phase : ActiveRunPhase} (hdrawn : s.isDrawn runId = false)
    (htime : ∀ jobs ∈ s.point.unbegun, job.id ∈ jobs)
    (dispatches : List (Job × TriggeredBy × JobRunId)) :
    { s with
      dispatches
      registry := s.registry.register job triggeredBy runId phase
      registered := s.registered ++ [(job.id, runId)] }.Sound := by
  have hfresh := hs.slot_eq_none hdrawn
  have hopen (j : JobId) (r : JobRunId)
      (h : (s.registry.register job triggeredBy runId phase).owner r = some j ∨
        r ∈ s.registry.cleanups j) : j = job.id ∧ r = runId ∨ s.IsOpen j r := by
    rcases h with h | h
    · rw [ActiveRunState.owner_register] at h
      split at h
      · exact .inl ⟨(Option.some.inj h).symm, ‹_›⟩
      · exact .inr (.inl h)
    · exact .inr (.inr h)
  refine ⟨hs.wellFormed.register job triggeredBy phase hfresh, fun j r h => ?_,
    fun r hr => ?_, fun jobs hjobs j r h => ?_, hs.reaped, hs.asked⟩
  · rcases hopen j r h with ⟨rfl, rfl⟩ | h
    · exact List.mem_append_right _ (List.mem_singleton_self _)
    · exact List.mem_append_left _ (hs.registered j r h)
  · rcases hs.owned r hr with h | h
    · exact .inl (ActiveRunState.isHeld_register h hfresh job triggeredBy phase)
    · exact .inr h
  · rcases hopen j r h with ⟨rfl, rfl⟩ | h
    · obtain ⟨rest, hrest, hsubset⟩ := ShutdownPoint.unbegun_subset hjobs
      exact hsubset (htime rest hrest)
    · exact hs.drained jobs hjobs j r h

/-- A registry with the same owners, cleanups and runners opens nothing. -/
theorem Sound.sameOwners (hs : s.Sound) {registry : ActiveRunState} {runChildren : List JobRunId}
    (hw : registry.WellFormed) (howner : registry.owner = s.registry.owner)
    (hcleanups : registry.cleanups = s.registry.cleanups)
    (hheld : ∀ r, s.registry.IsHeld r → registry.IsHeld r)
    (hchildren : ∀ r ∈ runChildren, r ∈ s.runChildren ∨ s.registry.IsHeld r) :
    { s with registry, runChildren }.Sound := by
  apply hs.withRegistry hw
  · intro j r h
    simp only [IsOpen, howner, hcleanups] at h
    exact h
  · intro r hr
    rcases hchildren r hr with hr | hr
    · rcases hs.owned r hr with h | ⟨j, h⟩
      · exact .inl (hheld r h)
      · refine .inr ⟨j, ?_⟩
        change r ∈ registry.cleanups j
        rwa [hcleanups]
    · exact .inl (hheld r hr)

theorem Sound.cleanUp (hs : s.Sound) (jobId : JobId) (runId : JobRunId) :
    { s with
      registry := s.registry.finishCleanup jobId runId
      runChildren := s.runChildren.filter (· ≠ runId) }.Sound := by
  have hmem (j : JobId) (r : JobRunId) :
      r ∈ (s.registry.finishCleanup jobId runId).cleanups j ↔
        r ∈ s.registry.cleanups j ∧ ¬(j = jobId ∧ r = runId) :=
    ActiveRunState.mem_eraseFromJob s.registry.cleanupByJob j r
  apply @ShutdownState.Sound.withRegistry _ hs (s.registry.finishCleanup jobId runId) _
  · exact ⟨hs.wellFormed.index, hs.wellFormed.named⟩
  · rintro j r (h | h)
    · exact .inl h
    · exact .inr ((hmem j r).mp h).1
  · intro r hr
    obtain ⟨hr, hne⟩ := List.mem_filter.mp hr
    rcases hs.owned r hr with h | ⟨j, h⟩
    · exact .inl h
    · exact .inr ⟨j, (hmem j r).mpr ⟨h, fun heq => of_decide_eq_true hne heq.2⟩⟩

theorem Sound.cancelRun (hs : s.Sound) (jobId : JobId) (runId : JobRunId) :
    { s with registry := (s.registry.cancelOwned jobId runId).2 }.Sound := by
  apply hs.withRegistry hs.wellFormed.cancelOwned
  · rintro j r (h | h)
    · change (s.registry.cancelOwned jobId runId).2.owner r = some j at h
      rcases ActiveRunState.owner_cancelOwned (s := s.registry) r with hnone | hsame
      · rw [hnone] at h
        cases h
      · rw [hsame] at h
        exact .inl h
    · change r ∈ (s.registry.cancelOwned jobId runId).2.cleanups j at h
      rw [ActiveRunState.cleanups_cancelOwned] at h
      exact .inr h
  · intro r hr
    rcases hs.owned r hr with h | ⟨j, h⟩
    · exact .inl (ActiveRunState.isHeld_cancelOwned h)
    · refine .inr ⟨j, ?_⟩
      change r ∈ (s.registry.cancelOwned jobId runId).2.cleanups j
      rwa [ActiveRunState.cleanups_cancelOwned]

theorem Sound.moveTo (hs : s.Sound) {point : ShutdownPoint}
    (hdrained : ∀ jobs ∈ point.undrained, ∀ job runId, s.IsOpen job runId → job ∈ jobs)
    (hreaped : ∀ handles ∈ point.unreaped, ∀ handle ∈ s.children, handle ∈ handles)
    (hasked : ∀ item children runs, point = .returned (.failed item children runs) →
      children = [] ∧ runs = []) : { s with point }.Sound :=
  ⟨hs.wellFormed, hs.registered, hs.owned, hdrained, hreaped, hasked⟩

theorem Sound.fail (hs : s.Sound) {item : ShutdownItem} (hchildren : s.unaskedChildren item = [])
    (hruns : s.unaskedRuns item = []) : (s.fail item).Sound := by
  apply hs.moveTo
  · intro jobs hjobs
    cases hjobs
  · intro handles hhandles
    cases hhandles
  · intro item' children runs heq
    obtain ⟨-, rfl, rfl⟩ := ShutdownResult.failed.inj (ShutdownPoint.returned.inj heq)
    exact ⟨hchildren, hruns⟩

theorem unaskedChildren_eq_nil (h : s.children = []) (item : ShutdownItem) :
    s.unaskedChildren item = [] := by
  rw [unaskedChildren, h, List.filter_nil]

theorem unaskedRuns_eq_nil {item : ShutdownItem}
    (h : ∀ runId job, s.registry.owner runId = some job → item = .job job) :
    s.unaskedRuns item = [] := by
  apply List.filter_eq_nil_iff.mpr
  rintro runId - hunasked
  obtain ⟨record, hrecord, hasked⟩ := (Option.any_eq_true _ _).mp hunasked
  have howner : s.registry.owner runId = some record.run.job.id := by
    simp only [ActiveRunState.owner, ActiveRunState.slot, hrecord, Option.map_some]
  rw [Bool.and_eq_true] at hasked
  exact of_decide_eq_true hasked.2 (h runId _ howner)

theorem Sound.failJob (hs : s.Sound) {job : JobId} {rest : List JobId}
    (hundrained : s.point.undrained = some (job :: rest)) (hlater : s.point.later = rest)
    (hlast : s.IsLast) : (s.fail (.job job)).Sound := by
  apply hs.fail (unaskedChildren_eq_nil hlast.1 _)
  apply unaskedRuns_eq_nil
  intro runId owner howner
  rcases List.mem_cons.mp (hs.drained _ hundrained owner runId (.inl howner)) with rfl | hmem
  · rfl
  · have hidle := hlast.2 owner (hlater ▸ hmem)
    exact absurd howner ((hs.wellFormed.hasRuns_eq_false hidle).1 runId)

theorem Sound.beginDrain (hs : s.Sound) {job : JobId} {rest : List JobId}
    (hpoint : s.point = .jobs (job :: rest)) : (s.beginDrain job rest).Sound := by
  have hdrained := hs.drained (job :: rest) (by rw [hpoint]; rfl)
  have hopen (j : JobId) (r : JobRunId)
      (h : { s with registry := (s.registry.beginDrain job false).2 }.IsOpen j r) :
      s.IsOpen j r := by
    rcases h with h | h
    · change (s.registry.beginDrain job false).2.owner r = some j at h
      rcases @ActiveRunState.owner_beginDrain _ job hs.wellFormed false r with
        hnone | hsame
      · rw [hnone] at h
        cases h
      · rw [hsame] at h
        exact .inl h
    · exact .inr h
  have hregistry : { s with registry := (s.registry.beginDrain job false).2 }.Sound := by
    apply hs.withRegistry (hs.wellFormed.beginDrain false) hopen
    intro r hr
    rcases hs.owned r hr with h | h
    · exact .inl (ActiveRunState.isHeld_beginDrain hs.wellFormed h)
    · exact .inr h
  apply hregistry.moveTo
  · intro jobs hjobs j r h
    obtain rfl := Option.mem_some_iff.mp hjobs
    exact hdrained j r (hopen j r h)
  · intro handles hhandles
    cases hhandles
  · intro item children runs heq
    cases heq

theorem Sound.takeHandles (hs : s.Sound) (hpoint : s.point = .jobs [])
    (htime : ∀ handle ∈ s.children, ∃ entry ∈ s.entries,
      entry.handle = handle ∧ entry.tied = true) : s.takeHandles.Sound := by
  have hdrained := hs.drained [] (by rw [hpoint]; rfl)
  have hmem (handle : ChildHandle) (h : handle ∈ s.children) :
      handle ∈ (s.entries.filter (·.tied)).map (·.handle) := by
    obtain ⟨entry, hentry, rfl, htied⟩ := htime handle h
    exact List.mem_map_of_mem (List.mem_filter.mpr ⟨hentry, htied⟩)
  unfold ShutdownState.takeHandles
  dsimp only
  generalize (s.entries.filter (·.tied)).map (·.handle) = handles at hmem
  cases handles with
  | nil =>
    apply hs.moveTo
    · intro jobs hjobs
      obtain rfl := Option.mem_some_iff.mp hjobs
      exact hdrained
    · intro handles hhandles
      obtain rfl := Option.mem_some_iff.mp hhandles
      exact hmem
    · intro item children runs heq
      cases heq
  | cons head tail =>
    apply hs.moveTo
    · intro jobs hjobs
      obtain rfl := Option.mem_some_iff.mp hjobs
      exact hdrained
    · intro handles hhandles
      obtain rfl := Option.mem_some_iff.mp hhandles
      exact hmem
    · intro item children runs heq
      cases heq

theorem Sound.surround (hs : s.Sound) {e : ShutdownEvent} (htime : s.SpawnsInTime e)
    (h : s.surround e = some t) : t.Sound := by
  cases e with
  | guardStarts id =>
    obtain rfl := Option.some.inj h
    exact ⟨hs.wellFormed, hs.registered, hs.owned, hs.drained, hs.reaped, hs.asked⟩
  | guardEnds id =>
    obtain rfl := Option.some.inj h
    exact ⟨hs.wellFormed, hs.registered, hs.owned, hs.drained, hs.reaped, hs.asked⟩
  | begin operation =>
    obtain ⟨-, heq⟩ := Option.ite_none_left_eq_some.mp h
    obtain rfl := Option.some.inj heq
    exact ⟨hs.wellFormed, hs.registered, hs.owned, hs.drained, hs.reaped, hs.asked⟩
  | spawn operation handle =>
    obtain ⟨-, heq⟩ := Option.ite_none_right_eq_some.mp h
    obtain rfl := Option.some.inj heq
    refine ⟨hs.wellFormed, hs.registered, hs.owned, hs.drained, ?_, hs.asked⟩
    intro handles hhandles
    rw [Option.mem_def, (show s.point.unreaped = none from htime)] at hhandles
    cases hhandles
  | enter handle tied =>
    obtain rfl := Option.some.inj h
    exact ⟨hs.wellFormed, hs.registered, hs.owned, hs.drained, hs.reaped, hs.asked⟩
  | removeEntry handle =>
    obtain rfl := Option.some.inj h
    exact ⟨hs.wellFormed, hs.registered, hs.owned, hs.drained, hs.reaped, hs.asked⟩
  | exit handle =>
    obtain rfl := Option.some.inj h
    refine ⟨hs.wellFormed, hs.registered, hs.owned, hs.drained, ?_, hs.asked⟩
    intro handles hhandles child hchild
    exact hs.reaped handles hhandles child (List.mem_filter.mp hchild).1
  | saveJob id =>
    obtain rfl := Option.some.inj h
    exact ⟨hs.wellFormed, hs.registered, hs.owned, hs.drained, hs.reaped, hs.asked⟩
  | deleteJob id =>
    obtain rfl := Option.some.inj h
    exact ⟨hs.wellFormed, hs.registered, hs.owned, hs.drained, hs.reaped, hs.asked⟩
  | dispatch job triggeredBy runId =>
    obtain ⟨-, heq⟩ := Option.ite_none_left_eq_some.mp h
    obtain rfl := Option.some.inj heq
    exact ⟨hs.wellFormed, hs.registered, hs.owned, hs.drained, hs.reaped, hs.asked⟩
  | register job triggeredBy runId phase =>
    obtain ⟨hcond, heq⟩ := Option.ite_none_right_eq_some.mp h
    obtain rfl := Option.some.inj heq
    rw [Bool.and_eq_true, Bool.not_eq_true'] at hcond
    exact hs.register hcond.2 htime _
  | enqueue jobId runId =>
    obtain rfl := Option.some.inj h
    exact hs.sameOwners (hs.wellFormed.setQueue _) rfl rfl (fun _ hr => hr) fun _ => .inl
  | setRunner runId =>
    obtain rfl := Option.some.inj h
    refine hs.sameOwners hs.wellFormed.setRunner ActiveRunState.owner_setRunner rfl ?_ fun _ => .inl
    intro r hr
    unfold ActiveRunState.IsHeld
    rwa [ActiveRunState.slot_setRunner]
  | startChild runId child =>
    obtain ⟨hstarted, heq⟩ := Option.ite_none_right_eq_some.mp h
    obtain rfl := Option.some.inj heq
    refine hs.sameOwners (hs.wellFormed.publishChild child)
      (ActiveRunState.owner_publishChild child) rfl
      (fun r hr => ActiveRunState.isHeld_publishChild hr child) ?_
    intro r hr
    rcases List.mem_append.mp hr with hr | hr
    · exact .inl hr
    · rw [List.mem_singleton.mp hr]
      exact .inr (isStarted_iff.mp hstarted)
  | endRun runId end_ =>
    obtain ⟨hstarted, heq⟩ := Option.ite_none_right_eq_some.mp h
    obtain rfl := Option.some.inj heq
    apply hs.finishRun (isStarted_iff.mp hstarted)
    rintro rfl
    exact htime
  | cleanUp jobId runId =>
    obtain ⟨-, heq⟩ := Option.ite_none_right_eq_some.mp h
    obtain rfl := Option.some.inj heq
    exact hs.cleanUp jobId runId
  | cancelRun jobId runId =>
    obtain rfl := Option.some.inj h
    exact hs.cancelRun jobId runId
  | shutdown => cases h
  | cancelGuard fails => cases h
  | listJobs fails => cases h
  | unregister fails => cases h
  | cancelQueued runId fails => cases h
  | awaitRunners => cases h
  | joinRunner runId fails => cases h
  | checkRuns => cases h
  | takeHandles => cases h
  | reap fails => cases h
  | release => cases h

/-- The guards come before the jobs and the children. -/
theorem Sound.cancelGuard (hs : s.Sound) {id : ProcessInstanceId} {rest : List ProcessInstanceId}
    {fails : Bool} (htime : s.SpawnsInTime (.cancelGuard fails)) :
    (let t := { s with guards := s.guards.filter (· ≠ id), point := .guards rest }
      if fails then t.fail (.guard id) else t).Sound := by
  have hmoved : { s with guards := s.guards.filter (· ≠ id), point := .guards rest }.Sound := by
    refine ⟨hs.wellFormed, hs.registered, hs.owned, ?_, ?_, ?_⟩
    · intro jobs hjobs
      cases hjobs
    · intro handles hhandles
      cases hhandles
    · intro item children runs heq
      cases heq
  cases fails with
  | false => exact hmoved
  | true =>
    apply hmoved.fail (unaskedChildren_eq_nil htime.1 _)
    apply unaskedRuns_eq_nil
    intro runId job howner
    have hnone := htime.2 _ (hs.registered job runId (.inl howner))
    change s.registry.owner runId = none at hnone
    change s.registry.owner runId = some job at howner
    rw [hnone] at howner
    cases howner

theorem Sound.listJobs (hs : s.Sound) {fails : Bool} (htime : s.SpawnsInTime (.listJobs fails)) :
    { s with point := if fails then .returned .unlisted else .jobs s.jobs }.Sound := by
  cases fails with
  | true =>
    apply hs.moveTo
    · intro jobs hjobs
      cases hjobs
    · intro handles hhandles
      cases hhandles
    · intro item children runs heq
      cases heq
  | false =>
    apply hs.moveTo
    · intro jobs hjobs job runId hopen
      obtain rfl := Option.mem_some_iff.mp hjobs
      exact htime (job, runId) (hs.registered job runId hopen) hopen
    · intro handles hhandles
      cases hhandles
    · intro item children runs heq
      cases heq

theorem Sound.keepDraining (hs : s.Sound) {point : ShutdownPoint}
    (hundrained : point.undrained = s.point.undrained) (hunreaped : point.unreaped = none)
    (hasked : ∀ result, point ≠ .returned result) : { s with point }.Sound := by
  apply hs.moveTo
  · rw [hundrained]
    exact hs.drained
  · intro handles hhandles
    rw [hunreaped] at hhandles
    cases hhandles
  · intro item children runs heq
    exact absurd heq (hasked _)

/-- The job that passes the check has no runs, so it needs no more draining. -/
theorem Sound.checkRuns (hs : s.Sound) {job : JobId} {rest : List JobId}
    (hpoint : s.point = .runners job ∅ rest) (htime : s.SpawnsInTime .checkRuns) :
    (if s.registry.hasRuns job then s.fail (.job job)
      else { s with point := .jobs rest }).Sound := by
  have hundrained : s.point.undrained = some (job :: rest) := by rw [hpoint]; rfl
  split
  · rename_i hruns
    have hchecked : ∃ job ∈ s.point.checked, s.registry.hasRuns job = true :=
      ⟨job, by rw [hpoint]; rfl, hruns⟩
    exact hs.failJob hundrained (by rw [hpoint]; rfl) (htime hchecked)
  · rename_i hruns
    have hidle := hs.wellFormed.hasRuns_eq_false (Bool.not_eq_true _ ▸ hruns)
    apply hs.moveTo
    · intro jobs hjobs j r hopen
      obtain rfl := Option.mem_some_iff.mp hjobs
      rcases List.mem_cons.mp (hs.drained _ hundrained j r hopen) with rfl | hmem
      · rcases hopen with h | h
        · exact absurd h (hidle.1 r)
        · rw [hidle.2] at h
          exact absurd h (Finset.notMem_empty r)
      · exact hmem
    · intro handles hhandles
      cases hhandles
    · intro item children runs heq
      cases heq

theorem Sound.reap (hs : s.Sound) {handle : ChildHandle} {rest : List ChildHandle} {fails : Bool}
    (hpoint : s.point = .reaping (handle :: rest)) (htime : s.SpawnsInTime (.reap fails)) :
    (let t := { s with asked := s.asked ++ [handle] }
      if fails then t.fail (.child handle)
      else { t with
        children := t.children.filter (· ≠ handle)
        point := .reaping rest }).Sound := by
  have hdrained := hs.drained [] (by rw [hpoint]; rfl)
  have hreaped := hs.reaped (handle :: rest) (by rw [hpoint]; rfl)
  have hmoved : { s with asked := s.asked ++ [handle] }.Sound :=
    ⟨hs.wellFormed, hs.registered, hs.owned, hs.drained, hs.reaped, hs.asked⟩
  cases fails with
  | false =>
    refine ⟨hs.wellFormed, hs.registered, hs.owned, ?_, ?_, ?_⟩
    · intro jobs hjobs
      obtain rfl := Option.mem_some_iff.mp hjobs
      exact hdrained
    · intro handles hhandles child hchild
      obtain rfl := Option.mem_some_iff.mp hhandles
      obtain ⟨hchild, hne⟩ := List.mem_filter.mp hchild
      exact (List.mem_cons.mp (hreaped child hchild)).resolve_left (of_decide_eq_true hne)
    · intro item children runs heq
      cases heq
  | true =>
    have hlast : rest = [] := by
      have hlength := htime (handle :: rest) (by rw [hpoint]; rfl)
      rw [List.length_cons] at hlength
      exact List.eq_nil_of_length_eq_zero (by omega)
    apply hmoved.fail
    · apply List.filter_eq_nil_iff.mpr
      intro child hchild
      have hhandle := hreaped child hchild
      rw [hlast, List.mem_singleton] at hhandle
      simp [hhandle]
    · apply unaskedRuns_eq_nil
      intro runId job howner
      exact absurd (hdrained job runId (.inl howner)) List.not_mem_nil

theorem Sound.step (hs : s.Sound) {e : ShutdownEvent} (htime : s.SpawnsInTime e)
    (h : s.step e = some t) : t.Sound := by
  unfold ShutdownState.step at h
  split at h
  · split at h
    · obtain rfl := Option.some.inj h
      refine ⟨hs.wellFormed, hs.registered, hs.owned, ?_, ?_, ?_⟩
      · intro jobs hjobs
        cases hjobs
      · intro handles hhandles
        cases hhandles
      · intro item children runs heq
        cases heq
    · cases h
  · split at h
    · obtain rfl := Option.some.inj h
      exact hs.cancelGuard htime
    · cases h
  · split at h
    · obtain rfl := Option.some.inj h
      exact hs.listJobs htime
    · cases h
  · rename_i fails
    split at h
    · rename_i job rest hpoint
      obtain rfl := Option.some.inj h
      cases fails with
      | false => exact hs.beginDrain hpoint
      | true => exact hs.failJob (by rw [hpoint]; rfl) (by rw [hpoint]; rfl) htime
    · cases h
  · rename_i fails
    split at h
    · rename_i job queued runners rest hpoint
      obtain ⟨-, heq⟩ := Option.ite_none_right_eq_some.mp h
      obtain rfl := Option.some.inj heq
      cases fails with
      | false =>
        exact hs.keepDraining (by rw [hpoint]; rfl) rfl fun _ => ShutdownPoint.noConfusion
      | true => exact hs.failJob (by rw [hpoint]; rfl) (by rw [hpoint]; rfl) htime
    · cases h
  · split at h
    · rename_i job queued runners rest hpoint
      obtain ⟨-, heq⟩ := Option.ite_none_right_eq_some.mp h
      obtain rfl := Option.some.inj heq
      exact hs.keepDraining (by rw [hpoint]; rfl) rfl fun _ => ShutdownPoint.noConfusion
    · cases h
  · rename_i fails
    split at h
    · rename_i job runners rest hpoint
      obtain ⟨-, heq⟩ := Option.ite_none_right_eq_some.mp h
      obtain rfl := Option.some.inj heq
      cases fails with
      | false =>
        exact hs.keepDraining (by rw [hpoint]; rfl) rfl fun _ => ShutdownPoint.noConfusion
      | true => exact hs.failJob (by rw [hpoint]; rfl) (by rw [hpoint]; rfl) htime
    · cases h
  · split at h
    · rename_i job runners rest hpoint
      obtain ⟨rfl, heq⟩ := Option.ite_none_right_eq_some.mp h
      obtain rfl := Option.some.inj heq
      exact hs.checkRuns hpoint htime
    · cases h
  · split at h
    · rename_i hpoint
      obtain rfl := Option.some.inj h
      exact hs.takeHandles hpoint htime
    · cases h
  · split at h
    · rename_i handle rest hpoint
      obtain rfl := Option.some.inj h
      exact hs.reap hpoint htime
    · cases h
  · split at h
    · rename_i hpoint
      obtain rfl := Option.some.inj h
      have hdrained := hs.drained [] (by rw [hpoint]; rfl)
      have hreaped := hs.reaped [] (by rw [hpoint]; rfl)
      refine ⟨hs.wellFormed, hs.registered, hs.owned, ?_, ?_, ?_⟩
      · intro jobs hjobs
        obtain rfl := Option.mem_some_iff.mp hjobs
        exact hdrained
      · intro handles hhandles
        obtain rfl := Option.mem_some_iff.mp hhandles
        exact hreaped
      · intro item children runs heq
        cases heq
    · cases h
  · exact hs.surround htime h

theorem sound_empty : Sound {} where
  wellFormed := ActiveRunState.wellFormed_empty
  registered := by
    rintro job runId (h | h)
    · cases h
    · exact absurd h (Finset.notMem_empty runId)
  owned runId h := absurd h List.not_mem_nil
  drained jobs h := by cases h
  reaped handles h := by cases h
  asked item children runs h := by cases h

theorem Sound.leavesNothing (hs : s.Sound) : s.LeavesNothing := by
  refine ⟨fun hok => ⟨?_, ?_⟩, hs.asked⟩
  · apply List.eq_nil_iff_forall_not_mem.mpr
    intro handle hchild
    exact absurd (hs.reaped [] (by rw [hok]; rfl) handle hchild) List.not_mem_nil
  · apply List.eq_nil_iff_forall_not_mem.mpr
    intro runId hchild
    have hdrained := hs.drained [] (by rw [hok]; rfl)
    rcases hs.owned runId hchild with ⟨job, phase, hslot, -⟩ | ⟨job, hcleanup⟩
    · have hopen : s.IsOpen job runId := .inl (ActiveRunState.owner_of_slot hslot)
      exact absurd (hdrained job runId hopen) List.not_mem_nil
    · exact absurd (hdrained job runId (.inr hcleanup)) List.not_mem_nil

end Steps

/-- However the operations, the dispatches and the shutdown interleave, nothing is left when all
of them spawn in time and only what comes last fails. -/
theorem run_leavesNothing {s : ShutdownState} (h : shutdownMachine.Run SpawnsInTime {} s) :
    s.LeavesNothing := by
  have hsound : s.Sound :=
    h.invariant (fun _ _ _ hs htime hstep => hs.step htime hstep) sound_empty
  exact hsound.leavesNothing

def tiedChild (n : ℕ) : ChildHandle := ⟨n, 100, some 100, some "100:1", 0⟩

def backup : Job :=
  { id := ⟨1⟩
    name := "backup"
    command := "/bin/true"
    trigger := .cron "0 0 * * *" }

/-- A process and a run that both end with the daemon. -/
theorem backup_leavesNothing : ∃ s : ShutdownState, s.LeavesNothing ∧ s.point = .returned .ok ∧
    s.asked = [tiedChild 1] ∧ s.registered = [(⟨1⟩, ⟨10⟩)] := by
  obtain ⟨s, hrun, hp⟩ := Machine.exists_run_of_execUnder (M := shutdownMachine)
    (C := SpawnsInTime) (s := {})
    (fun s => s.point = .returned .ok ∧ s.asked = [tiedChild 1] ∧ s.registered = [(⟨1⟩, ⟨10⟩)])
    [.begin .request, .spawn .request (tiedChild 1), .enter (tiedChild 1) true, .guardStarts ⟨1⟩,
      .saveJob ⟨1⟩, .dispatch backup .manual ⟨10⟩, .register backup .manual ⟨10⟩ .starting,
      .setRunner ⟨10⟩, .startChild ⟨10⟩ (tiedChild 2), .shutdown, .cancelGuard false,
      .listJobs false, .unregister false, .awaitRunners, .endRun ⟨10⟩ .reaped,
      .joinRunner ⟨10⟩ false, .checkRuns, .takeHandles, .reap false, .release]
    (by decide +kernel)
  exact ⟨s, run_leavesNothing hrun, of_decide_eq_true hp⟩

/-- A delayed restart that has looked at the flag spawns after `shutdown_all` has returned; and the
child that follows one that is not reaped is not asked to terminate. -/
theorem tiedChild_left :
    (∃ s : ShutdownState, shutdownMachine.Reaches {} s ∧ s.point = .returned .ok ∧
      s.children = [tiedChild 1] ∧ ¬s.LeavesNothing) ∧
    ∃ s : ShutdownState, shutdownMachine.Reaches {} s ∧
      s.point = .returned (.failed (.child (tiedChild 1)) [tiedChild 2] []) ∧
      ¬s.LeavesNothing := by
  constructor
  · obtain ⟨s, hrun, hp⟩ := Machine.exists_reaches_of_exec (M := shutdownMachine) (s := {})
      (fun s => s.point = .returned .ok ∧ s.children = [tiedChild 1])
      [.begin .automaticRestart, .shutdown, .listJobs false, .takeHandles,
        .spawn .automaticRestart (tiedChild 1)]
      (by decide +kernel)
    obtain ⟨hok, hchildren⟩ := of_decide_eq_true hp
    refine ⟨s, hrun, hok, hchildren, fun h => ?_⟩
    have hnone := (h.quiet hok).1
    rw [hchildren] at hnone
    cases hnone
  · obtain ⟨s, hrun, hp⟩ := Machine.exists_reaches_of_exec (M := shutdownMachine) (s := {})
      (fun s => s.point = .returned (.failed (.child (tiedChild 1)) [tiedChild 2] []))
      [.begin .request, .spawn .request (tiedChild 1), .enter (tiedChild 1) true,
        .begin .request, .spawn .request (tiedChild 2), .enter (tiedChild 2) true,
        .shutdown, .listJobs false, .takeHandles, .reap true]
      (by decide +kernel)
    have hfailed := of_decide_eq_true hp
    refine ⟨s, hrun, hfailed, fun h => ?_⟩
    have hnone := (h.asked _ _ _ hfailed).1
    cases hnone

end ShutdownState

end Supervisor
