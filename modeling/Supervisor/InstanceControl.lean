import Supervisor.GuardSystem
import Supervisor.InstanceSlots

namespace Supervisor

/-- The owner of the guards of a child. The one whose file watch is registered has to end it. -/
structure GuardOwner where
  key : GuardGenerationKey
  isWatching : Bool
deriving DecidableEq

/-- The slots and children of a process, and their guards. -/
structure ControlState extends SlotState where
  guardOwners : List GuardOwner := []
  pendingGuardActions : List GuardRestartAction := []

/-- What the calls of `cancel_guard_owner_instance` answer. -/
structure CancelReplies where
  stopWatch : Option String := none
  join : Option String := none

/-- What the calls of `start_guard_owner` answer. -/
structure GuardReplies where
  cancel : CancelReplies := {}
  registerWatch : Option String := none
  isRetained : Bool := true
  snapshot : Option RepoError := none
  /-- Of the owner whose snapshot cannot be written. -/
  cancelAgain : CancelReplies := {}
  /-- The owner is still there when its workers have been spawned. -/
  isAttached : Bool := true

/-- What the calls of `spawn_process_instance` answer. -/
structure SpawnReplies where
  spawn : Except String ChildHandle
  persist : Option RepoError := none
  kill : Option String := none
  guards : GuardReplies := {}
  clear : Option RepoError := none

/-- What the calls of `stop_process_instance` answer. The signal is the one of `force_kill` or of
`request_graceful`, which wait for the end of the child. -/
structure StopReplies where
  cancel : CancelReplies := {}
  signal : Option String := none
  clear : Option RepoError := none

/-- The calls of `start_guard_owner` succeed, apart from those of the owner before it. -/
def GuardReplies.Attaches (r : GuardReplies) (spec : ProcessSpec) : Prop :=
  (spec.watch.isSome = true → r.registerWatch = none) ∧ r.isRetained = true ∧ r.snapshot = none ∧
    r.isAttached = true

namespace ControlState

def guardOwner (s : ControlState) (id : ProcessInstanceId) : Option GuardOwner :=
  s.guardOwners.find? fun owner => owner.key.id = id

def setRuntimeState (s : ControlState) (id : ProcessInstanceId) (state : ProcessState) :
    ControlState :=
  { s with runtime := s.runtime.setRuntimeState id state }

def removeChild (s : ControlState) (handle : ChildHandle) : ControlState :=
  { s with children := s.children.filter fun child => child.handle ≠ handle }

/-- `force_kill` -/
def forceKill (s : ControlState) (handle : ChildHandle) : Option String → ControlState
  | none => s.removeChild handle
  | some _ => s

def removeRuntimeEntryIfMatches (s : ControlState) (instance_ : ProcessInstance)
    (handle : ChildHandle) : ControlState :=
  { s with runtime := s.runtime.removeRuntimeEntryIfMatches instance_ handle }

section Guards

def cancelGuardOwnerInstance (s : ControlState) (id : ProcessInstanceId) (r : CancelReplies) :
    Except String Unit × ControlState :=
  let t := { s with
    pendingGuardActions := s.pendingGuardActions.filter fun action => action.id ≠ id }
  match s.guardOwner id with
  | none => (.ok (), t)
  | some owner =>
    let t := { t with guardOwners := s.guardOwners.filter fun owner => owner.key.id ≠ id }
    match if owner.isWatching then r.stopWatch else none with
    | some error =>
      (.error ("stopping guard watch for " ++ s.spec.name ++ " failed: " ++ error), t)
    | none => match r.join with
      | some error =>
        (.error ("joining guard worker for " ++ s.spec.name ++ " failed: " ++ error), t)
      | none => (.ok (), t)

/-- A process with none of the policies has no guards. -/
def hasGuards (spec : ProcessSpec) : Bool :=
  spec.watch.isSome || spec.memory.isSome || spec.liveness.isSome || spec.readiness.isSome

def insertGuardOwner (s : ControlState) (owner : GuardOwner) : ControlState :=
  { s with guardOwners := s.guardOwners.filter (fun other => other.key.id ≠ owner.key.id) ++ [owner] }

def startGuardOwner (s : ControlState) (instance_ : ProcessInstance) (handle : ChildHandle)
    (r : GuardReplies) : Except String Unit × ControlState :=
  if !hasGuards s.spec then (.ok (), s)
  else match s.cancelGuardOwnerInstance instance_.id r.cancel with
    | (.error error, t) => (.error error, t)
    | (.ok (), t) => match if s.spec.watch.isSome then r.registerWatch else none with
      | some error => (.error error, t)
      | none =>
        if !r.isRetained then (.error "guard owner cannot retain facade identity", t)
        else
          let t := t.insertGuardOwner
            ⟨.fromHandle instance_ handle, s.spec.watch.isSome⟩
          match r.snapshot with
          | some error => (.error error.message,
              (t.cancelGuardOwnerInstance instance_.id r.cancelAgain).2)
          | none =>
            if r.isAttached then (.ok (), t)
            else
              (.error ("guard generation for " ++ s.spec.name ++
                  " was cancelled before worker ownership completed"),
                { t with guardOwners := t.guardOwners.filter fun owner =>
                    owner.key.id ≠ instance_.id })

end Guards

/-- `set_process_instance_runtime_handle` of a child that is spawned; that of a tied one is null. -/
def persistHandle (s : ControlState) (instance_ : ProcessInstance) (handle : ChildHandle)
    (error : Option RepoError) : Except RepoError Bool × ControlState :=
  match error with
  | some error => (.error error, s)
  | none =>
    let handle := if s.spec.lifecycle = .detached then some handle else none
    let (result, tables) := s.tables.setProcessInstanceRuntimeHandle instance_ handle
    (result, { s with tables })

/-- `clear_process_instance_runtime_handle_if_matches` -/
def clearHandle (s : ControlState) (instance_ : ProcessInstance) (handle : ChildHandle)
    (error : Option RepoError) : Except RepoError Bool × ControlState :=
  match error with
  | some error => (.error error, s)
  | none =>
    let (result, tables) := s.tables.clearProcessInstanceRuntimeHandleIfMatches instance_ handle
    (result, { s with tables })

def spawnInstance (s : ControlState) (instance_ : ProcessInstance) (r : SpawnReplies) :
    Except String Unit × ControlState :=
  match r.spawn with
  | .error error => (.error error, s)
  | .ok handle =>
    let t : ControlState := { s with children := s.children ++ [⟨instance_.id, handle⟩] }
    match t.persistHandle instance_ handle r.persist with
    | (.error error, t) => (.error error.message, t)
    | (.ok false, t) =>
      (.error ("process instance " ++ toString instance_.id.val ++
        " generation changed before spawn persistence"), t.forceKill handle r.kill)
    | (.ok true, t) =>
      let t : ControlState :=
        { t with runtime := t.runtime.insertRuntimeEntry ⟨instance_, handle, .running⟩ }
      match t.startGuardOwner instance_ handle r.guards with
      | (.ok (), t) => (.ok (), t)
      | (.error error, t) =>
        let t := (t.removeRuntimeEntryIfMatches instance_ handle).forceKill handle r.kill
        (.error error, (t.clearHandle instance_ handle r.clear).2)

def stopInstance (s : ControlState) (entry : RuntimeEntry) (isTied : Bool) (r : StopReplies) :
    Except String Unit × ControlState :=
  match (s.setRuntimeState entry.id .stopping).cancelGuardOwnerInstance entry.id r.cancel with
  | (.error error, t) => (.error error, t)
  | (.ok (), t) => match r.signal with
    | some error => (.error error, t.setRuntimeState entry.id .running)
    | none =>
      let t := (t.removeChild entry.handle).removeRuntimeEntryIfMatches entry.instance_ entry.handle
      if isTied then (.ok (), t)
      else match t.clearHandle entry.instance_ entry.handle r.clear with
        | (.error error, t) => (.error error.message, t)
        | (.ok false, t) => (.error ("process instance " ++ toString entry.id.val ++
            " changed before durable stop cleanup"), t)
        | (.ok true, t) => (.ok (), t)

section Outcomes

variable {s t : ControlState} {entry : RuntimeEntry} {instance_ : ProcessInstance}
  {id : ProcessInstanceId} {handle : ChildHandle}

/-- The calls of `cancel_guard_owner_instance` succeed; an instance without an owner has none. -/
def Cancels (s : ControlState) (id : ProcessInstanceId) (r : CancelReplies) : Prop :=
  ∀ owner ∈ s.guardOwner id, (owner.isWatching = true → r.stopWatch = none) ∧ r.join = none

def GuardsStart (s : ControlState) (id : ProcessInstanceId) (r : GuardReplies) : Prop :=
  hasGuards s.spec = true → s.Cancels id r.cancel ∧ r.Attaches s.spec

/-- The guard of an instance is gone once it has been cancelled, whatever the calls answer. -/
theorem cancelGuardOwnerInstance_spec (r : CancelReplies) :
    (s.cancelGuardOwnerInstance id r).2.runtime = s.runtime ∧
      (s.cancelGuardOwnerInstance id r).2.children = s.children ∧
        (s.cancelGuardOwnerInstance id r).2.guardOwner id = none ∧
          ((s.cancelGuardOwnerInstance id r).1 = .ok () ↔ s.Cancels id r) := by
  have hgone : (s.guardOwners.filter fun owner => owner.key.id ≠ id).find?
      (fun owner => owner.key.id = id) = none := by
    rw [List.find?_eq_none]
    intro owner howner
    simpa using (List.mem_filter.mp howner).2
  unfold cancelGuardOwnerInstance Cancels
  cases howner : s.guardOwner id with
  | none => exact ⟨rfl, rfl, howner, by simp⟩
  | some owner =>
    dsimp only
    cases hwatch : if owner.isWatching = true then r.stopWatch else none with
    | some error =>
      refine ⟨rfl, rfl, hgone, ?_⟩
      simp only [reduceCtorEq, Option.mem_some_iff, forall_eq', false_iff, not_and]
      intro hstop
      split at hwatch
      · rename_i hwatching
        rw [hstop hwatching] at hwatch
        exact absurd hwatch.symm (Option.some_ne_none error)
      · exact absurd hwatch.symm (Option.some_ne_none error)
    | none =>
      have hstop : owner.isWatching = true → r.stopWatch = none := fun hwatching => by
        rwa [if_pos hwatching] at hwatch
      cases hjoin : r.join with
      | some error => exact ⟨rfl, rfl, hgone, by simp⟩
      | none => exact ⟨rfl, rfl, hgone, by simpa using hstop⟩

theorem cancelGuardOwnerInstance_frame (id : ProcessInstanceId) (r : CancelReplies) :
    (s.cancelGuardOwnerInstance id r).2.toSlotState = s.toSlotState := by
  unfold cancelGuardOwnerInstance
  split
  · rfl
  · dsimp only
    split
    · rfl
    · split
      · rfl
      · rfl

theorem startGuardOwner_frame (handle : ChildHandle) (r : GuardReplies) :
    (s.startGuardOwner instance_ handle r).2.toSlotState = s.toSlotState := by
  unfold startGuardOwner
  split
  · rfl
  · have hcancel := cancelGuardOwnerInstance_frame (s := s) instance_.id r.cancel
    split
    · rename_i hc
      rw [hc] at hcancel
      exact hcancel
    · rename_i t hc
      rw [hc] at hcancel
      split
      · exact hcancel
      · split
        · exact hcancel
        · dsimp only
          split
          · exact (cancelGuardOwnerInstance_frame _ _).trans hcancel
          · split
            · exact hcancel
            · exact hcancel

/-- The guards of a child start when every call of them succeeds. -/
theorem startGuardOwner_ok_iff (r : GuardReplies) :
    (s.startGuardOwner instance_ handle r).1 = .ok () ↔ s.GuardsStart instance_.id r := by
  obtain ⟨-, -, -, hcancel⟩ := @cancelGuardOwnerInstance_spec s instance_.id r.cancel
  unfold startGuardOwner GuardsStart GuardReplies.Attaches
  by_cases hguards : hasGuards s.spec = true
  · rw [if_neg (by simp [hguards])]
    split
    · rename_i error t hc
      rw [hc] at hcancel
      have hnot : ¬ s.Cancels instance_.id r.cancel := fun h => absurd (hcancel.mpr h) (by simp)
      simp [hguards, hnot]
    · rename_i t hc
      rw [hc] at hcancel
      have hyes : s.Cancels instance_.id r.cancel := hcancel.mp rfl
      cases hwatch : if s.spec.watch.isSome = true then r.registerWatch else none with
      | some error =>
        have hfails : ¬ (s.spec.watch.isSome = true → r.registerWatch = none) := by
          intro hnone
          split at hwatch
          · rename_i hsome
            exact absurd (hwatch.symm.trans (hnone hsome)) (Option.some_ne_none error)
          · exact absurd hwatch.symm (Option.some_ne_none error)
        simp [hguards, hfails]
      | none =>
        have hregisters : s.spec.watch.isSome = true → r.registerWatch = none := fun hsome => by
          rwa [if_pos hsome] at hwatch
        cases hretained : r.isRetained with
        | false => simp [hguards]
        | true =>
          dsimp only
          cases hsnapshot : r.snapshot with
          | some error => simp [hguards]
          | none =>
            cases hattached : r.isAttached with
            | false => simp [hguards]
            | true => simpa [hguards, hyes] using hregisters
  · rw [if_pos (by simp [hguards])]
    simp [hguards]

theorem clearHandle_frame (handle : ChildHandle) (error : Option RepoError) :
    (s.clearHandle instance_ handle error).2.runtime = s.runtime ∧
      (s.clearHandle instance_ handle error).2.children = s.children := by
  unfold clearHandle
  cases error with
  | none => exact ⟨rfl, rfl⟩
  | some error => exact ⟨rfl, rfl⟩

theorem persistHandle_frame (handle : ChildHandle) (error : Option RepoError) :
    (s.persistHandle instance_ handle error).2.runtime = s.runtime ∧
      (s.persistHandle instance_ handle error).2.children = s.children := by
  unfold persistHandle
  cases error with
  | none => exact ⟨rfl, rfl⟩
  | some error => exact ⟨rfl, rfl⟩

/-- The error of a call -/
def errorOf (result : Except String Unit) : Option String :=
  match result with
  | .ok () => none
  | .error error => some error

/-- The child that a failed spawn has started and does not end -/
def leftOver (handle : ChildHandle) (kill : Option String) : Option ChildHandle :=
  if kill.isSome then some handle else none

/-- What a spawn comes to, by the answers of its calls. -/
def spawnOutcome (s : ControlState) (instance_ : ProcessInstance) (r : SpawnReplies) :
    SpawnOutcome :=
  match r.spawn with
  | .error error => .notSpawned error none
  | .ok handle => match (s.persistHandle instance_ handle r.persist).1 with
    | .error error => .notSpawned error.message (some handle)
    | .ok false => .notSpawned ("process instance " ++ toString instance_.id.val ++
        " generation changed before spawn persistence") (leftOver handle r.kill)
    | .ok true => match (s.startGuardOwner instance_ handle r.guards).1 with
      | .error error => .notGuarded error (leftOver handle r.kill)
      | .ok () => .spawned handle

/-- The owner of the guards goes by the owners there are, and by the policies. -/
theorem startGuardOwner_congr (howners : t.guardOwners = s.guardOwners) (hspec : t.spec = s.spec)
    (r : GuardReplies) :
    (t.startGuardOwner instance_ handle r).1 = (s.startGuardOwner instance_ handle r).1 := by
  have hcancel : (t.cancelGuardOwnerInstance instance_.id r.cancel).1 =
      (s.cancelGuardOwnerInstance instance_.id r.cancel).1 := by
    unfold cancelGuardOwnerInstance guardOwner
    rw [howners, hspec]
    split
    · rfl
    · dsimp only
      split
      · rfl
      · split
        · rfl
        · rfl
  unfold startGuardOwner
  rw [hspec]
  split
  · rfl
  · revert hcancel
    rcases t.cancelGuardOwnerInstance instance_.id r.cancel with ⟨result, t'⟩
    rcases s.cancelGuardOwnerInstance instance_.id r.cancel with ⟨result', s'⟩
    intro hcancel
    obtain rfl : result = result' := hcancel
    cases result with
    | error error => rfl
    | ok =>
      dsimp only
      split
      · rfl
      · split
        · rfl
        · split
          · rfl
          · split
            · rfl
            · rfl

theorem children_kill (hfresh : ∀ child ∈ s.children, child.handle ≠ handle)
    (hchildren : t.children = s.children ++ [⟨id, handle⟩]) (kill : Option String) :
    (t.forceKill handle kill).children =
      s.children ++ (leftOver handle kill).toList.map (Child.mk id) := by
  cases kill with
  | some error => exact hchildren
  | none =>
    show t.children.filter _ = _
    rw [hchildren, List.filter_append, List.filter_eq_self.mpr]
    · simp [leftOver]
    · intro child hchild
      simpa using hfresh child hchild

theorem runtime_kill (kill : Option String) : (t.forceKill handle kill).runtime = t.runtime := by
  cases kill with
  | none => rfl
  | some error => rfl

/-- The entry of a child whose guards do not start is gone again. -/
theorem removeRuntimeEntry_insert {runtime : Runtime} :
    (runtime.insertRuntimeEntry ⟨instance_, handle, .running⟩).removeRuntimeEntryIfMatches
        instance_ handle = runtime.filter fun entry => entry.id ≠ instance_.id := by
  have hself : Runtime.matchesChild instance_ handle ⟨instance_, handle, .running⟩ = true := by
    simp [Runtime.matchesChild, RuntimeEntry.id]
  have hother : ∀ entry ∈ runtime.filter (fun entry => entry.id ≠ instance_.id),
      Runtime.matchesChild instance_ handle entry = false := by
    intro entry hentry
    have hne : entry.id ≠ instance_.id := of_decide_eq_true (List.mem_filter.mp hentry).2
    simp [Runtime.matchesChild, hne]
  unfold Runtime.removeRuntimeEntryIfMatches Runtime.insertRuntimeEntry KeyedRows.insert
  rw [List.filter_append, List.filter_eq_self.mpr]
  · simp [hself]
    rfl
  · intro entry hentry
    rw [hother entry hentry]
    rfl

/-- A spawn is one of the outcomes that the operations on the slots know. -/
theorem spawnInstance_outcome (r : SpawnReplies)
    (hfresh : ∀ handle, r.spawn = .ok handle → ∀ child ∈ s.children, child.handle ≠ handle) :
    errorOf (s.spawnInstance instance_ r).1 = (s.spawnOutcome instance_ r).error ∧
      (s.spawnInstance instance_ r).2.runtime =
        (s.toSlotState.spawnProcessInstance instance_ (s.spawnOutcome instance_ r)).runtime ∧
      (s.spawnInstance instance_ r).2.children =
        (s.toSlotState.spawnProcessInstance instance_ (s.spawnOutcome instance_ r)).children := by
  unfold spawnInstance spawnOutcome
  cases hspawn : r.spawn with
  | error error => exact ⟨rfl, rfl, (List.append_nil _).symm⟩
  | ok handle =>
    have hfresh := hfresh handle hspawn
    dsimp only
    let u : ControlState := { s with children := s.children ++ [⟨instance_.id, handle⟩] }
    obtain ⟨hruntime, hchildren⟩ := @persistHandle_frame u instance_ handle r.persist
    have hpersist : (u.persistHandle instance_ handle r.persist).1 =
        (s.persistHandle instance_ handle r.persist).1 := by
      unfold persistHandle
      cases r.persist with
      | none => rfl
      | some error => rfl
    have howners : (u.persistHandle instance_ handle r.persist).2.guardOwners = s.guardOwners ∧
        (u.persistHandle instance_ handle r.persist).2.spec = s.spec := by
      unfold persistHandle
      cases r.persist with
      | none => exact ⟨rfl, rfl⟩
      | some error => exact ⟨rfl, rfl⟩
    rw [← hpersist]
    split
    · rename_i error v hv
      change u.persistHandle instance_ handle r.persist = _ at hv
      rw [hv] at hruntime hchildren ⊢
      exact ⟨rfl, hruntime, hchildren⟩
    · rename_i v hv
      change u.persistHandle instance_ handle r.persist = _ at hv
      rw [hv] at hruntime hchildren ⊢
      exact ⟨rfl, (runtime_kill _).trans hruntime, children_kill hfresh hchildren _⟩
    · rename_i v hv
      change u.persistHandle instance_ handle r.persist = _ at hv
      rw [hv] at hruntime hchildren howners ⊢
      let w : ControlState :=
        { v with runtime := v.runtime.insertRuntimeEntry ⟨instance_, handle, .running⟩ }
      have hguards : (w.startGuardOwner instance_ handle r.guards).1 =
          (s.startGuardOwner instance_ handle r.guards).1 :=
        startGuardOwner_congr (t := w) howners.1 howners.2 _
      have hframe := @startGuardOwner_frame w instance_ handle r.guards
      have hinserted : w.runtime = s.runtime.insertRuntimeEntry ⟨instance_, handle, .running⟩ :=
        congrArg (fun runtime : Runtime => runtime.insertRuntimeEntry _) hruntime
      rw [← hguards]
      dsimp only
      split
      · rename_i x hx
        change w.startGuardOwner instance_ handle r.guards = _ at hx
        rw [hx] at hframe ⊢
        exact ⟨rfl, (congrArg (fun s : SlotState => s.runtime) hframe).trans hinserted,
          (congrArg (fun s : SlotState => s.children) hframe).trans hchildren⟩
      · rename_i error x hx
        change w.startGuardOwner instance_ handle r.guards = _ at hx
        rw [hx] at hframe ⊢
        have hentries : x.runtime = w.runtime := congrArg (fun s : SlotState => s.runtime) hframe
        have hkept : x.children = s.children ++ [⟨instance_.id, handle⟩] :=
          (congrArg (fun s : SlotState => s.children) hframe).trans hchildren
        obtain ⟨hruntime', hchildren'⟩ := @clearHandle_frame
          ((x.removeRuntimeEntryIfMatches instance_ handle).forceKill handle r.kill) instance_
          handle r.clear
        refine ⟨rfl, ?_, ?_⟩
        · calc ((((x.removeRuntimeEntryIfMatches instance_ handle).forceKill handle
                r.kill).clearHandle instance_ handle r.clear).2).runtime
              = ((x.removeRuntimeEntryIfMatches instance_ handle).forceKill handle
                  r.kill).runtime := hruntime'
            _ = x.runtime.removeRuntimeEntryIfMatches instance_ handle := runtime_kill _
            _ = s.runtime.filter fun entry => entry.id ≠ instance_.id := by
              rw [hentries, hinserted, removeRuntimeEntry_insert]
        · exact hchildren'.trans
            (children_kill (t := x.removeRuntimeEntryIfMatches instance_ handle) hfresh hkept _)

/-- Every call of a spawn succeeds up to the guards of the child. -/
def Spawns (s : ControlState) (instance_ : ProcessInstance) (r : SpawnReplies) : Prop :=
  ∃ handle, r.spawn = .ok handle ∧ (s.persistHandle instance_ handle r.persist).1 = .ok true ∧
    s.GuardsStart instance_.id r.guards

/-- The child has been recorded, or at least looked up, and it is killed if it is not kept. -/
def LeavesNothing (s : ControlState) (instance_ : ProcessInstance) (r : SpawnReplies) : Prop :=
  ∀ handle, r.spawn = .ok handle →
    ∃ isCurrent, (s.persistHandle instance_ handle r.persist).1 = .ok isCurrent ∧
      (r.kill = none ∨ isCurrent = true ∧ s.GuardsStart instance_.id r.guards)

theorem leftOver_eq_none {kill : Option String} : leftOver handle kill = none ↔ kill = none := by
  cases kill <;> simp [leftOver]

theorem spawnOutcome_error_iff {r : SpawnReplies} :
    (s.spawnOutcome instance_ r).error = none ↔ s.Spawns instance_ r := by
  unfold spawnOutcome Spawns
  cases r.spawn with
  | error error => simp [SpawnOutcome.error]
  | ok handle =>
    simp only [Except.ok.injEq, exists_eq_left', ← @startGuardOwner_ok_iff _ _ handle]
    split
    · rename_i hp
      simp [SpawnOutcome.error, hp]
    · rename_i hp
      simp [SpawnOutcome.error, hp]
    · rename_i hp
      split
      · rename_i hg
        simp [SpawnOutcome.error, hg]
      · rename_i hg
        simp [SpawnOutcome.error, hp, hg]

theorem spawnOutcome_left_iff {r : SpawnReplies} :
    (s.spawnOutcome instance_ r).left = none ↔ s.LeavesNothing instance_ r := by
  unfold spawnOutcome LeavesNothing
  cases r.spawn with
  | error error => simp [SpawnOutcome.left]
  | ok handle =>
    simp only [Except.ok.injEq, forall_eq', ← @startGuardOwner_ok_iff _ _ handle]
    split
    · rename_i hp
      simp [SpawnOutcome.left, hp]
    · rename_i hp
      simp [SpawnOutcome.left, hp, leftOver_eq_none]
    · rename_i hp
      split
      · rename_i hg
        simp [SpawnOutcome.left, hp, hg, leftOver_eq_none]
      · rename_i hg
        simp [SpawnOutcome.left, hp, hg]

/-- The child that a spawn leaves is the one that it has started. -/
theorem spawn_of_left {r : SpawnReplies} (h : (s.spawnOutcome instance_ r).left = some handle) :
    r.spawn = .ok handle := by
  have hleft {handle' : ChildHandle} {kill : Option String}
      (h : leftOver handle' kill = some handle) : handle' = handle := by
    unfold leftOver at h
    split at h
    · exact Option.some.inj h
    · exact absurd h.symm (Option.some_ne_none handle)
  unfold spawnOutcome at h
  cases hspawn : r.spawn with
  | error error =>
    rw [hspawn] at h
    exact absurd h.symm (Option.some_ne_none handle)
  | ok handle' =>
    rw [hspawn] at h
    dsimp only at h
    congr 1
    split at h
    · exact Option.some.inj h
    · exact hleft h
    · split at h
      · exact hleft h
      · exact absurd h.symm (Option.some_ne_none handle)

theorem spawn_of_spawned {r : SpawnReplies} (h : (s.spawnOutcome instance_ r).error = none) :
    ∃ handle, r.spawn = .ok handle ∧ s.spawnOutcome instance_ r = .spawned handle := by
  obtain ⟨handle, hspawn, hpersist, hguards⟩ := spawnOutcome_error_iff.mp h
  refine ⟨handle, hspawn, ?_⟩
  rw [← @startGuardOwner_ok_iff _ _ handle] at hguards
  unfold spawnOutcome
  rw [hspawn]
  simp only [hpersist, hguards]

theorem errorOf_eq_none {result : Except String Unit} : errorOf result = none ↔ result = .ok () := by
  cases result with
  | ok => simp [errorOf]
  | error error => simp [errorOf]

end Outcomes

end ControlState

end Supervisor
