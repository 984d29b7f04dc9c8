import Supervisor.InstanceControl
import Supervisor.ScaleConvergence

namespace Supervisor

namespace ControlState

section Stopping

variable {s t : ControlState} {entry : RuntimeEntry} {id : ProcessInstanceId}

/-- Every call succeeds up to the end of the child. -/
def ConfirmsGone (s : ControlState) (id : ProcessInstanceId) (r : StopReplies) : Prop :=
  s.Cancels id r.cancel ∧ r.signal = none

/-- `reconcile_direct_processes` leaves an entry alone that is stopping. -/
def isReconciled (s : ControlState) (id : ProcessInstanceId) : Bool :=
  (s.runtime.runtimeEntry id).any fun entry => entry.state ≠ .stopping

/-- An instance whose stop has failed is as it was before. -/
structure Restored (s t : ControlState) (entry : RuntimeEntry) : Prop where
  sameEntry : t.runtime.runtimeEntry entry.id = some entry
  sameGuard : t.guardOwner entry.id = s.guardOwner entry.id
  /-- The supervisor loop comes to it when it did before. -/
  reconciled : t.isReconciled entry.id = s.isReconciled entry.id

theorem runtimeEntry_setRuntimeState (state : ProcessState)
    (h : s.runtime.runtimeEntry id = some entry) :
    (s.setRuntimeState id state).runtime.runtimeEntry id = some { entry with state } := by
  have hfind : (s.setRuntimeState id state).runtime.runtimeEntry id =
      if id = id then (s.runtime.runtimeEntry id).map fun entry => { entry with state }
      else s.runtime.runtimeEntry id := KeyedRows.find_update fun _ hid => hid
  rw [hfind, if_pos rfl, h, Option.map_some]

/-- A stop that fails before the end of the child restores the instance exactly when it has no
guard, and was running. -/
theorem stop_restores_iff (isTied : Bool) (r : StopReplies)
    (hentry : s.runtime.runtimeEntry entry.id = some entry)
    (hgone : ¬ s.ConfirmsGone entry.id r) :
    (∃ error, (s.stopInstance entry isTied r).1 = .error error) ∧
      (Restored s (s.stopInstance entry isTied r).2 entry ↔
        s.guardOwner entry.id = none ∧ entry.state = .running) := by
  obtain ⟨hruntime, -, hguard, hok⟩ := @cancelGuardOwnerInstance_spec
    (s.setRuntimeState entry.id .stopping) entry.id r.cancel
  have hstopping := runtimeEntry_setRuntimeState .stopping hentry
  rw [← hruntime] at hstopping
  unfold stopInstance
  split
  · rename_i error t ht
    rw [ht] at hguard hok hstopping
    refine ⟨⟨error, rfl⟩, ?_⟩
    -- the owner that could not be cancelled is gone
    have howned : s.guardOwner entry.id ≠ none := by
      intro hnone
      have hcancels : s.Cancels entry.id r.cancel := by
        unfold Cancels
        simp [hnone]
      exact absurd (hok.mpr hcancels) (by simp)
    constructor
    · intro h
      exact absurd (h.sameGuard.symm.trans hguard) howned
    · rintro ⟨hnone, -⟩
      exact absurd hnone howned
  · rename_i t ht
    rw [ht] at hguard hok hstopping
    have hcancels : s.Cancels entry.id r.cancel := hok.mp rfl
    cases hsignal : r.signal with
    | none => exact absurd ⟨hcancels, hsignal⟩ hgone
    | some error =>
      refine ⟨⟨error, rfl⟩, ?_⟩
      have hrunning := @runtimeEntry_setRuntimeState _ ({ entry with state := .stopping }) _
        .running hstopping
      constructor
      · intro h
        have hstate := h.sameEntry.symm.trans hrunning
        refine ⟨h.sameGuard.symm.trans hguard, ?_⟩
        exact congrArg RuntimeEntry.state (Option.some.inj hstate)
      · rintro ⟨hnone, hstate⟩
        have hsame : (t.setRuntimeState entry.id .running).runtime.runtimeEntry entry.id =
            some entry := by
          rw [hrunning, ← hstate]
        refine ⟨hsame, hguard.trans hnone.symm, ?_⟩
        unfold isReconciled
        rw [hsame, hentry]

section Runs

/-- A process of two instances without guards -/
def unguardedSlots : ControlState :=
  let two := SlotState.twoSlots 2
  { two with spec := { two.spec with readiness := none, rolling := none } }

/-- The first instance of the two -/
def firstEntry : RuntimeEntry where
  instance_ := { id := ⟨10⟩, definitionId := ⟨1⟩, ordinal := 0, generation := 3 }
  handle := { processId := 0, pid := 100, pgid := some 100, generation := some "a", startedAt := 0 }
  state := .running

/-- The instance keeps running when its group cannot be signalled. -/
theorem unguardedSlots_restored :
    Restored unguardedSlots
      (unguardedSlots.stopInstance firstEntry false { signal := some "EPERM" }).2 firstEntry := by
  have hgone : ¬ unguardedSlots.ConfirmsGone firstEntry.id { signal := some "EPERM" } :=
    fun h => absurd h.2 (by decide)
  obtain ⟨-, hiff⟩ := stop_restores_iff (s := unguardedSlots) false { signal := some "EPERM" }
    (by decide +kernel : unguardedSlots.runtime.runtimeEntry firstEntry.id = some firstEntry) hgone
  exact hiff.mpr ⟨rfl, rfl⟩

/-- The two instances, of which the first one has a guard -/
def guardedSlots : ControlState where
  toSlotState := SlotState.twoSlots 2
  guardOwners := [⟨⟨firstEntry.instance_, 0, some "a"⟩, false⟩]

/-- A worker of the guard that panicked leaves the instance stopping and without its guard, and the
loop never comes to it. A signal that fails leaves it running, and without its guard too. -/
theorem guardedSlots_not_restored :
    (let (result, t) := guardedSlots.stopInstance firstEntry false
      { cancel := { join := some "panicked" } }
     result = .error "joining guard worker for web failed: panicked" ∧
      t.isReconciled firstEntry.id = false ∧ guardedSlots.isReconciled firstEntry.id = true ∧
        t.children = guardedSlots.children ∧ ¬ Restored guardedSlots t firstEntry) ∧
    (let (result, t) := guardedSlots.stopInstance firstEntry false { signal := some "EPERM" }
     result = .error "EPERM" ∧ t.guardOwner firstEntry.id = none ∧
      t.children = guardedSlots.children ∧ ¬ Restored guardedSlots t firstEntry) := by
  refine ⟨⟨by decide +kernel, by decide +kernel, by decide +kernel, by decide +kernel, ?_⟩,
    by decide +kernel, by decide +kernel, by decide +kernel, ?_⟩
  · intro h
    have hguard := h.sameGuard
    revert hguard
    decide +kernel
  · intro h
    have hguard := h.sameGuard
    revert hguard
    decide +kernel

end Runs

end Stopping

end ControlState

end Supervisor
