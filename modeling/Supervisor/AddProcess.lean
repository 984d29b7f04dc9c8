import Supervisor.ProcessHost
import Supervisor.ScaleConvergence

namespace Supervisor

namespace ProcessTables

variable {s t : ProcessTables} {definitionId : ProcessDefinitionId}
  {newId : ℕ → ProcessInstanceId} {n : ℕ}

/-- The row of a slot that is new -/
def newRow (definitionId : ProcessDefinitionId) (newId : ℕ → ProcessInstanceId) (ordinal : ℕ) :
    ProcessInstanceRow :=
  { instanceId := newId ordinal, definitionId, ordinal }

/-- A definition without slots gets a new one for every ordinal. -/
theorem syncProcessInstances_new (hnone : s.activeRows definitionId = [])
    (h : syncProcessInstances definitionId newId n s = .ok t) :
    t.specs = s.specs ∧
      t.instances = s.instances ++ (List.range n).map (newRow definitionId newId) ∧
      t.activeRows definitionId = (List.range n).map (newRow definitionId newId) := by
  induction n generalizing t with
  | zero =>
    obtain rfl := Except.ok.inj h
    exact ⟨rfl, (List.append_nil _).symm, hnone⟩
  | succ n ih =>
    unfold syncProcessInstances at h
    cases hu : syncProcessInstances definitionId newId n s with
    | error error =>
      rw [hu] at h
      cases h
    | ok u =>
      obtain ⟨hspecs, hrows, hactive⟩ := ih hu
      rw [hu] at h
      change (if _ then _ else _ : Except RepoError ProcessTables) = .ok t at h
      have hfree : (u.activeRows definitionId).any (fun row => row.ordinal = n) = false := by
        rw [hactive, List.any_eq_false]
        intro row hrow
        obtain ⟨k, hk, rfl⟩ := List.mem_map.mp hrow
        have hlt : k < n := List.mem_range.mp hk
        have hne : (k : ℤ) ≠ n := by omega
        exact Bool.eq_false_iff.mp (decide_eq_false hne)
      rw [hfree, if_neg Bool.false_ne_true] at h
      split at h
      · cases h
      · obtain rfl := Except.ok.inj h
        refine ⟨hspecs, ?_, ?_⟩
        · show u.instances ++ [newRow definitionId newId n] = _
          rw [hrows, List.range_succ, List.map_append, List.append_assoc]
          rfl
        · show (u.instances ++ [newRow definitionId newId n]).filter _ = _
          have hnew : [newRow definitionId newId n].filter (fun row =>
              row.definitionId = definitionId && row.active) = [newRow definitionId newId n] := by
            simp [newRow]
          rw [List.filter_append, hnew, List.range_succ, List.map_append, ← hactive]
          rfl

theorem exists_mapM_ok {α β ε : Type} {f : α → Except ε β} {xs : List α}
    (h : ∀ x ∈ xs, ∃ y, f x = .ok y) : ∃ ys, xs.mapM f = .ok ys := by
  induction xs with
  | nil => exact ⟨[], List.mapM_nil⟩
  | cons x xs ih =>
    obtain ⟨y, hy⟩ := h x List.mem_cons_self
    obtain ⟨ys, hys⟩ := ih fun x hx => h x (List.mem_cons_of_mem _ hx)
    refine ⟨y :: ys, ?_⟩
    rw [List.mapM_cons, hy, hys]
    rfl

/-- The slots of a new definition, by their ordinals -/
theorem listProcessInstances_new (hn : n ≤ 2^16)
    (hactive : t.activeRows definitionId = (List.range n).map (newRow definitionId newId)) :
    ∃ slots, t.listProcessInstances definitionId = .ok slots ∧
      slots.map ProcessInstance.id = (List.range n).map newId ∧
      ∀ slot ∈ slots, slot.ordinal.val < n ∧ slot.generation.val = 1 := by
  have hsorted : (t.activeRows definitionId).insertionSort (fun a b => a.ordinal ≤ b.ordinal) =
      t.activeRows definitionId := by
    apply List.Pairwise.insertionSort_eq
    rw [hactive, List.pairwise_map]
    exact List.pairwise_lt_range.imp fun hlt => Int.ofNat_le.mpr hlt.le
  have hok : ∀ row ∈ t.activeRows definitionId, ∃ slot, instanceOf row = .ok slot := by
    intro row hrow
    rw [hactive] at hrow
    obtain ⟨k, hk, rfl⟩ := List.mem_map.mp hrow
    have hlt : k < 2^16 := Nat.lt_of_lt_of_le (List.mem_range.mp hk) hn
    have hordinal : U16.ofI64 (k : ℤ) = .ok ⟨k, hlt⟩ := by
      unfold U16.ofI64
      rw [dif_pos (by omega)]
      rfl
    refine ⟨⟨newId k, definitionId, ⟨k, hlt⟩, 1⟩, ?_⟩
    unfold instanceOf newRow
    dsimp only
    rw [hordinal]
    rfl
  obtain ⟨slots, hslots⟩ := exists_mapM_ok hok
  have hall := mapM_ok hslots
  refine ⟨slots, ?_, ?_, ?_⟩
  · unfold listProcessInstances
    rw [hsorted]
    exact hslots
  · have hids : slots.map ProcessInstance.id =
        (t.activeRows definitionId).map ProcessInstanceRow.instanceId := by
      symm
      rw [← List.forall₂_eq_eq_eq, List.forall₂_map_left_iff, List.forall₂_map_right_iff]
      exact hall.imp fun _ _ h => (instanceOf_ok h).1
    rw [hids, hactive, List.map_map]
    rfl
  · intro slot hslot
    obtain ⟨row, hrow, hrowOk⟩ := exists_mem_of_forall₂ hall hslot
    rw [hactive] at hrow
    obtain ⟨k, hk, rfl⟩ := List.mem_map.mp hrow
    obtain ⟨-, -, hordinal, hgeneration⟩ := instanceOf_ok hrowOk
    have hlt : k < n := List.mem_range.mp hk
    have hordinal' : (k : ℤ) = slot.ordinal.val := hordinal
    have hgeneration' : (1 : ℤ) = slot.generation.val := hgeneration
    constructor
    · omega
    · omega

/-- The child of a slot at its first generation can be recorded. -/
theorem setProcessInstanceRuntimeHandle_new {row : ProcessInstanceRow} {slot : ProcessInstance}
    (hrow : row ∈ t.instances) (hid : row.instanceId = slot.id) (hgeneration : row.generation = 1)
    (hactive : row.active = true) (hfirst : slot.generation.val = 1) (handle : Option ChildHandle) :
    (t.setProcessInstanceRuntimeHandle slot handle).1 = .ok true := by
  have hok : slot.generation.toI64 = .ok 1 := by
    unfold U64.toI64
    rw [hfirst, if_pos (by decide)]
    rfl
  have hone : t.instances.countP (isCurrent slot 1) = 1 := by
    refine (t.unique.countP_eq_one_iff (k := slot.id) ?_).mpr ⟨row, ?_, ?_⟩
    · intro row hcurrent
      unfold isCurrent at hcurrent
      simp only [Bool.and_eq_true, decide_eq_true_eq] at hcurrent
      exact hcurrent.1.1
    · rw [← hid]
      exact t.unique.find_of_mem hrow
    · simp [isCurrent, hid, hgeneration, hactive]
  unfold setProcessInstanceRuntimeHandle
  rw [hok]
  have haffected : (t.updateInstances (isCurrent slot 1) fun row =>
      { row with runtime := (handle.map ChildHandle.columns).getD {} }).1 = 1 := hone
  exact congrArg Except.ok (decide_eq_true haffected)

end ProcessTables

/-- The calls of a spawn succeed, for a slot that is new. -/
def SpawnReplies.Starts (spec : ProcessSpec) (r : SpawnReplies) : Prop :=
  (∃ handle, r.spawn = .ok handle) ∧ r.persist = none ∧
    (ControlState.hasGuards spec = true → r.guards.Attaches spec)

/-- A child that is started is recorded, and it is kept or killed. -/
def SpawnReplies.IsClean (spec : ProcessSpec) (r : SpawnReplies) : Prop :=
  ∀ handle, r.spawn = .ok handle → r.persist = none ∧
    (r.kill = none ∨ (ControlState.hasGuards spec = true → r.guards.Attaches spec))

namespace ControlState

variable {s t : ControlState} {slot : ProcessInstance} {slots : List ProcessInstance}
  {r : ControlReplies} {handle : ChildHandle}

/-- Slots of which nothing is there yet -/
structure Unstarted (r : ControlReplies) (slots : List ProcessInstance) (s : ControlState) :
    Prop where
  below : ∀ slot ∈ slots, slot.ordinal < s.spec.instances
  distinct : (slots.map ProcessInstance.id).Nodup
  noEntry : ∀ slot ∈ slots, s.runtime.runtimeEntry slot.id = none
  noGuard : ∀ slot ∈ slots, s.guardOwner slot.id = none
  current : ∀ slot ∈ slots, ∀ handle,
    (s.tables.setProcessInstanceRuntimeHandle slot handle).1 = .ok true
  unrecorded : ∀ slot ∈ slots, ∀ row ∈ s.tables.instances, row.instanceId = slot.id →
    row.runtime = {}
  newHandle : ∀ slot ∈ slots, ∀ handle, (r.spawn slot.id).spawn = .ok handle →
    ∀ child ∈ s.children, child.handle ≠ handle

theorem persistHandle_new (hcurrent : ∀ handle,
    (s.tables.setProcessInstanceRuntimeHandle slot handle).1 = .ok true)
    (error : Option RepoError) :
    (s.persistHandle slot handle error).1 =
      match error with
      | some error => .error error
      | none => .ok true := by
  unfold persistHandle
  cases error with
  | some error => rfl
  | none => exact hcurrent _

theorem guardsStart_new (hguard : s.guardOwner slot.id = none) (r : GuardReplies) :
    s.GuardsStart slot.id r ↔ (hasGuards s.spec = true → r.Attaches s.spec) := by
  unfold GuardsStart Cancels
  simp [hguard]

theorem spawns_new (h : s.Unstarted r slots) (hslot : slot ∈ slots) (replies : SpawnReplies) :
    s.Spawns slot replies ↔ replies.Starts s.spec := by
  unfold Spawns SpawnReplies.Starts
  simp only [persistHandle_new (h.current slot hslot), guardsStart_new (h.noGuard slot hslot)]
  cases replies.persist with
  | some error => simp
  | none => simp

theorem leavesNothing_new (h : s.Unstarted r slots) (hslot : slot ∈ slots)
    (replies : SpawnReplies) :
    s.LeavesNothing slot replies ↔ replies.IsClean s.spec := by
  unfold LeavesNothing SpawnReplies.IsClean
  simp only [persistHandle_new (h.current slot hslot), guardsStart_new (h.noGuard slot hslot)]
  cases replies.persist with
  | some error => simp
  | none => simp

section Frames

variable {id : ProcessInstanceId}

theorem find_filter_ne {owners : List GuardOwner} (hne : id ≠ slot.id) :
    (owners.filter fun owner => owner.key.id ≠ slot.id).find? (fun owner => owner.key.id = id) =
      owners.find? fun owner => owner.key.id = id := by
  rw [List.find?_filter]
  congr 1
  funext owner
  by_cases hid : owner.key.id = id
  · have hother : owner.key.id ≠ slot.id := fun h => hne (hid.symm.trans h)
    simp [hid, hne]
  · simp [hid]

theorem cancelGuardOwnerInstance_others (hne : id ≠ slot.id) (replies : CancelReplies) :
    (s.cancelGuardOwnerInstance slot.id replies).2.guardOwner id = s.guardOwner id := by
  unfold cancelGuardOwnerInstance
  split
  · rfl
  · dsimp only
    split
    · exact find_filter_ne hne
    · split
      · exact find_filter_ne hne
      · exact find_filter_ne hne

theorem startGuardOwner_others (hne : id ≠ slot.id) (replies : GuardReplies) :
    (s.startGuardOwner slot handle replies).2.guardOwner id = s.guardOwner id := by
  unfold startGuardOwner
  split
  · rfl
  · have hcancel := cancelGuardOwnerInstance_others (s := s) hne replies.cancel
    split
    · rename_i hc
      rw [hc] at hcancel
      exact hcancel
    · rename_i t hc
      rw [hc] at hcancel
      split
      · exact hcancel
      · split
        · exact hcancel
        · have hinsert : ∀ owner : GuardOwner, owner.key.id = slot.id →
              (t.insertGuardOwner owner).guardOwner id = t.guardOwner id := by
            intro owner howner
            unfold insertGuardOwner guardOwner
            have hlast : [owner].find? (fun owner => owner.key.id = id) = none := by
              have hother : owner.key.id ≠ id := fun h => hne (h.symm.trans howner)
              simp [hother]
            rw [List.find?_append, hlast, Option.or_none, howner, find_filter_ne hne]
          dsimp only
          split
          · rw [cancelGuardOwnerInstance_others hne, hinsert]
            · exact hcancel
            · rfl
          · split
            · rw [hinsert]
              · exact hcancel
              · rfl
            · exact (find_filter_ne hne).trans ((hinsert _ rfl).trans hcancel)

theorem persistHandle_state (error : Option RepoError) : (s.persistHandle slot handle error).2 = s := by
  have hrolled (handle : Option ChildHandle) :
      (s.tables.setProcessInstanceRuntimeHandle slot handle).2 = s.tables := by
    unfold ProcessTables.setProcessInstanceRuntimeHandle
    cases slot.generation.toI64 with
    | error error => rfl
    | ok generation => rfl
  unfold persistHandle
  cases error with
  | some error => rfl
  | none =>
    dsimp only
    rw [hrolled]

/-- A handle is not cleared where none is recorded. -/
theorem clearHandle_tables (hrows : ∀ row ∈ s.tables.instances, row.instanceId = slot.id →
    row.runtime = {}) (error : Option RepoError) :
    (s.clearHandle slot handle error).2.tables = s.tables := by
  unfold clearHandle
  cases error with
  | some error => rfl
  | none =>
    show (s.tables.clearProcessInstanceRuntimeHandleIfMatches slot handle).2 = s.tables
    unfold ProcessTables.clearProcessInstanceRuntimeHandleIfMatches
    cases slot.generation.toI64 with
    | error error => rfl
    | ok generation =>
      have hsame : s.tables.instances.map (fun row =>
          if (ProcessTables.isCurrent slot generation row &&
              decide (row.runtime.processId = some handle.processId) &&
              decide (row.runtime.generation = handle.generation)) = true
            then { row with runtime := {} } else row) = s.tables.instances := by
        conv_rhs => rw [← List.map_id s.tables.instances]
        apply List.map_congr_left
        intro row hrow
        split
        · rename_i hmatches
          have hid : row.instanceId = slot.id := by
            simp only [ProcessTables.isCurrent, Bool.and_eq_true, decide_eq_true_eq] at hmatches
            exact hmatches.1.1.1.1
          rw [← hrows row hrow hid]
          rfl
        · rfl
      unfold ProcessTables.updateInstances
      simp only [hsame]

/-- What a spawn leaves as it is. -/
structure SameOthers (slot : ProcessInstance) (s t : ControlState) : Prop where
  spec : t.spec = s.spec
  tables : t.tables = s.tables
  guard : ∀ id, id ≠ slot.id → t.guardOwner id = s.guardOwner id

theorem forceKill_same (handle : ChildHandle) (kill : Option String) :
    SameOthers slot s (s.forceKill handle kill) := by
  cases kill with
  | none => exact ⟨rfl, rfl, fun _ _ => rfl⟩
  | some error => exact ⟨rfl, rfl, fun _ _ => rfl⟩

theorem spawnInstance_same (hrows : ∀ row ∈ s.tables.instances, row.instanceId = slot.id →
    row.runtime = {}) (replies : SpawnReplies) :
    SameOthers slot s (s.spawnInstance slot replies).2 := by
  unfold spawnInstance
  cases replies.spawn with
  | error error => exact ⟨rfl, rfl, fun _ _ => rfl⟩
  | ok handle =>
    dsimp only
    have hpersist := @persistHandle_state ({ s with children := s.children ++ [⟨slot.id, handle⟩]
      }) slot handle replies.persist
    split
    · rename_i t ht
      rw [ht] at hpersist
      obtain rfl : t = _ := hpersist
      exact ⟨rfl, rfl, fun _ _ => rfl⟩
    · rename_i t ht
      rw [ht] at hpersist
      obtain rfl : t = _ := hpersist
      have hkill := @forceKill_same ({ s with children := s.children ++ [⟨slot.id, handle⟩] })
        slot handle replies.kill
      exact ⟨hkill.spec, hkill.tables, hkill.guard⟩
    · rename_i t ht
      rw [ht] at hpersist
      obtain rfl : t = _ := hpersist
      let u : ControlState :=
        { s with
          children := s.children ++ [⟨slot.id, handle⟩]
          runtime := s.runtime.insertRuntimeEntry ⟨slot, handle, .running⟩ }
      have hframe := @startGuardOwner_frame u slot handle replies.guards
      have hspec := congrArg (fun s : SlotState => s.spec) hframe
      have htables := congrArg (fun s : SlotState => s.tables) hframe
      have hothers (id : ProcessInstanceId) (hne : id ≠ slot.id) :=
        @startGuardOwner_others u slot handle _ hne replies.guards
      dsimp only
      split
      · rename_i v hv
        change u.startGuardOwner slot handle replies.guards = _ at hv
        rw [hv] at hspec htables hothers
        exact ⟨hspec, htables, hothers⟩
      · rename_i error v hv
        change u.startGuardOwner slot handle replies.guards = _ at hv
        rw [hv] at hspec htables hothers
        change v.spec = s.spec at hspec
        change v.tables = s.tables at htables
        let w := (v.removeRuntimeEntryIfMatches slot handle).forceKill handle replies.kill
        have hkill : SameOthers slot (v.removeRuntimeEntryIfMatches slot handle) w :=
          forceKill_same handle replies.kill
        have hkept : w.tables = s.tables := hkill.tables.trans htables
        have hclear : (w.clearHandle slot handle replies.clear).2.tables = w.tables := by
          apply clearHandle_tables
          rwa [hkept]
        have hclearSpec : (w.clearHandle slot handle replies.clear).2.spec = w.spec ∧
            (w.clearHandle slot handle replies.clear).2.guardOwners = w.guardOwners := by
          unfold clearHandle
          cases replies.clear with
          | none => exact ⟨rfl, rfl⟩
          | some error => exact ⟨rfl, rfl⟩
        refine ⟨hclearSpec.1.trans (hkill.spec.trans hspec), hclear.trans hkept, fun id hne => ?_⟩
        calc (w.clearHandle slot handle replies.clear).2.guardOwner id
            = w.guardOwner id := by rw [guardOwner, guardOwner, hclearSpec.2]
          _ = v.guardOwner id := hkill.guard id hne
          _ = s.guardOwner id := hothers id hne

end Frames

section Slots

/-- No two children that are spawned have one handle. -/
def DrawnHandles (r : ControlReplies) : Prop :=
  ∀ id id' handle, (r.spawn id).spawn = .ok handle → (r.spawn id').spawn = .ok handle → id = id'

/-- A new slot whose spawn succeeds has its child, and the others are still new. -/
theorem Unstarted.spawned {rest : List ProcessInstance} (h : s.Unstarted r (slot :: rest))
    (hdrawn : DrawnHandles r) (hstarts : (r.spawn slot.id).Starts s.spec) :
    ∃ handle t, (r.spawn slot.id).spawn = .ok handle ∧
      s.spawnInstance slot (r.spawn slot.id) = (.ok (), t) ∧
        t.children = s.children ++ [⟨slot.id, handle⟩] ∧ SameOthers slot s t ∧
          t.Unstarted r rest := by
  have hslot : slot ∈ slot :: rest := List.mem_cons_self
  have hsame := spawnInstance_same (h.unrecorded slot hslot) (r.spawn slot.id)
  obtain ⟨herror, hruntime, hchildren⟩ :=
    @spawnInstance_outcome _ slot (r.spawn slot.id) (h.newHandle slot hslot)
  have hnone : (s.spawnOutcome slot (r.spawn slot.id)).error = none :=
    spawnOutcome_error_iff.mpr ((spawns_new h hslot _).mpr hstarts)
  obtain ⟨handle, hspawn, houtcome⟩ := spawn_of_spawned hnone
  rw [hnone] at herror
  rw [houtcome] at hruntime hchildren
  have hok := errorOf_eq_none.mp herror
  obtain ⟨-, hdistinct⟩ := List.nodup_cons.mp h.distinct
  have hhead : ∀ other ∈ rest, other.id ≠ slot.id := fun other hother heq =>
    (List.nodup_cons.mp h.distinct).1 (List.mem_map.mpr ⟨other, hother, heq⟩)
  have hrest {other : ProcessInstance} (hother : other ∈ rest) : other ∈ slot :: rest :=
    List.mem_cons_of_mem _ hother
  refine ⟨handle, _, hspawn, Prod.ext hok rfl, hchildren, hsame, ?_⟩
  constructor
  · intro other hother
    rw [hsame.spec]
    exact h.below other (hrest hother)
  · exact hdistinct
  · intro other hother
    rw [hruntime]
    show (s.runtime.insertRuntimeEntry ⟨slot, handle, .running⟩).runtimeEntry other.id = none
    unfold Runtime.insertRuntimeEntry Runtime.runtimeEntry
    have hne : (⟨slot, handle, .running⟩ : RuntimeEntry).id ≠ other.id := (hhead other hother).symm
    rw [KeyedRows.find_insert, if_neg hne]
    exact h.noEntry other (hrest hother)
  · intro other hother
    rw [hsame.guard other.id (hhead other hother)]
    exact h.noGuard other (hrest hother)
  · intro other hother
    rw [hsame.tables]
    exact h.current other (hrest hother)
  · intro other hother
    rw [hsame.tables]
    exact h.unrecorded other (hrest hother)
  · intro other hother handle' hspawn' child hchild heq
    rw [hchildren] at hchild
    change child ∈ s.children ++ [⟨slot.id, handle⟩] at hchild
    rcases List.mem_append.mp hchild with hold | hnew
    · exact h.newHandle other (hrest hother) handle' hspawn' child hold heq
    · -- the child of the slot has the handle that was drawn for it
      rw [List.mem_singleton.mp hnew] at heq
      change handle = handle' at heq
      rw [← heq] at hspawn'
      exact hhead other hother (hdrawn other.id slot.id handle hspawn' hspawn)

/-- A new slot whose spawn fails adds the child that it leaves. -/
theorem Unstarted.failed (h : s.Unstarted r slots) (hslot : slot ∈ slots)
    (hfails : ¬(r.spawn slot.id).Starts s.spec) :
    ∃ error t, s.spawnInstance slot (r.spawn slot.id) = (.error error, t) ∧
      SameOthers slot s t ∧ (∃ added, t.children = s.children ++ added) ∧
        ((∀ child ∈ t.children, child ∈ s.children) ↔ (r.spawn slot.id).IsClean s.spec) := by
  have hsame := spawnInstance_same (h.unrecorded slot hslot) (r.spawn slot.id)
  obtain ⟨herror, -, hchildren⟩ :=
    @spawnInstance_outcome _ slot (r.spawn slot.id) (h.newHandle slot hslot)
  have hsome : (s.spawnOutcome slot (r.spawn slot.id)).error ≠ none := fun hnone =>
    hfails ((spawns_new h hslot _).mp (spawnOutcome_error_iff.mp hnone))
  have hkept : (s.spawnInstance slot (r.spawn slot.id)).2.children = s.children ++
      (s.spawnOutcome slot (r.spawn slot.id)).left.toList.map (Child.mk slot.id) := by
    rw [hchildren]
    cases houtcome : s.spawnOutcome slot (r.spawn slot.id) with
    | spawned handle => exact absurd (congrArg SpawnOutcome.error houtcome) hsome
    | notSpawned error left => rfl
    | notGuarded error left => rfl
  cases hresult : (s.spawnInstance slot (r.spawn slot.id)).1 with
  | ok =>
    rw [hresult] at herror
    exact absurd herror.symm hsome
  | error error =>
    refine ⟨error, _, Prod.ext hresult rfl, hsame, ⟨_, hkept⟩, ?_⟩
    rw [← leavesNothing_new h hslot, ← spawnOutcome_left_iff, hkept]
    cases hleft : (s.spawnOutcome slot (r.spawn slot.id)).left with
    | none => simp
    | some handle =>
      have hnew := h.newHandle slot hslot handle (spawn_of_left hleft)
      constructor
      · intro hall
        have hmem := hall ⟨slot.id, handle⟩ (by simp)
        exact absurd rfl (hnew _ hmem)
      · intro hnone
        exact absurd hnone (Option.some_ne_none handle)

theorem startSlot_new {rest : List ProcessInstance} (h : s.Unstarted r (slot :: rest)) :
    s.startSlot r slot = match s.spawnInstance slot (r.spawn slot.id) with
      | (.error error, t) => (.error error, t)
      | (.ok (), t) => (.ok true, t) := by
  unfold startSlot
  rw [h.noEntry slot List.mem_cons_self]
  exact if_neg (by simp)

/-- New slots are started up to the first one that cannot be. -/
theorem startSlots_new (hdrawn : DrawnHandles r) (h : s.Unstarted r slots) (isStarted : Bool) :
    (((∀ slot ∈ slots, (r.spawn slot.id).Starts s.spec) ∧
        (startSlots r slots isStarted s).1 = .ok (isStarted || !slots.isEmpty)) ∨
      ((¬∀ slot ∈ slots, (r.spawn slot.id).Starts s.spec) ∧
        ∃ error, (startSlots r slots isStarted s).1 = .error error)) ∧
    (startSlots r slots isStarted s).2.spec = s.spec ∧
    (startSlots r slots isStarted s).2.tables = s.tables ∧
    ∃ added, (startSlots r slots isStarted s).2.children = s.children ++ added := by
  induction slots generalizing s isStarted with
  | nil =>
    refine ⟨.inl ⟨fun slot hslot => absurd hslot List.not_mem_nil, ?_⟩, rfl, rfl, [],
      (List.append_nil _).symm⟩
    simp [startSlots]
  | cons slot rest ih =>
    have hbelow : ¬ s.spec.instances ≤ slot.ordinal := not_le.mpr (h.below slot List.mem_cons_self)
    rw [startSlots, if_neg hbelow, startSlot_new h]
    by_cases hstarts : (r.spawn slot.id).Starts s.spec
    · obtain ⟨handle, t, -, hspawn, hchildren, hsame, hrest⟩ := h.spawned hdrawn hstarts
      rw [hspawn]
      dsimp only
      obtain ⟨hresult, hspec, htables, added, hadded⟩ := ih hrest (isStarted || true)
      refine ⟨?_, hspec.trans hsame.spec, htables.trans hsame.tables,
        ⟨slot.id, handle⟩ :: added, ?_⟩
      · rw [hsame.spec] at hresult
        rcases hresult with ⟨hall, hok⟩ | ⟨hnot, herror⟩
        · refine .inl ⟨?_, ?_⟩
          · intro other hother
            rcases List.mem_cons.mp hother with rfl | hother
            · exact hstarts
            · exact hall other hother
          · rw [hok]
            simp
        · exact .inr ⟨fun hall => hnot fun other hother =>
            hall other (List.mem_cons_of_mem _ hother), herror⟩
      · rw [hadded, hchildren, List.append_assoc]
        rfl
    · obtain ⟨error, t, hspawn, hsame, ⟨added, hadded⟩, -⟩ :=
        h.failed List.mem_cons_self hstarts
      rw [hspawn]
      exact ⟨.inr ⟨fun hall => hstarts (hall slot List.mem_cons_self), error, rfl⟩, hsame.spec,
        hsame.tables, added, hadded⟩

/-- A start that fails leaves no child exactly when the first slot fails, and leaves none. -/
theorem startSlots_children {rest : List ProcessInstance} (hdrawn : DrawnHandles r)
    (h : s.Unstarted r (slot :: rest)) :
    (∀ child ∈ (startSlots r (slot :: rest) false s).2.children, child ∈ s.children) ↔
      ¬(r.spawn slot.id).Starts s.spec ∧ (r.spawn slot.id).IsClean s.spec := by
  have hbelow : ¬ s.spec.instances ≤ slot.ordinal := not_le.mpr (h.below slot List.mem_cons_self)
  rw [startSlots, if_neg hbelow, startSlot_new h]
  by_cases hstarts : (r.spawn slot.id).Starts s.spec
  · obtain ⟨handle, t, hhandle, hspawn, hchildren, hsame, hrest⟩ := h.spawned hdrawn hstarts
    rw [hspawn]
    dsimp only
    obtain ⟨-, -, -, added, hadded⟩ := startSlots_new hdrawn hrest (false || true)
    constructor
    · intro hall
      have hmem := hall ⟨slot.id, handle⟩ (by rw [hadded, hchildren]; simp)
      exact absurd rfl (h.newHandle slot List.mem_cons_self handle hhandle _ hmem)
    · rintro ⟨hnot, -⟩
      exact absurd hstarts hnot
  · obtain ⟨error, t, hspawn, -, -, hclean⟩ := h.failed List.mem_cons_self hstarts
    rw [hspawn]
    dsimp only
    rw [hclean]
    exact (and_iff_right hstarts).symm

end Slots

end ControlState

section Storage

variable {specs specs' : List ProcessSpec} {tables tables' : ProcessTables} {spec : ProcessSpec}
  {newId : ℕ → ProcessInstanceId}

/-- The slots, and the columns of the definitions, belong to definitions. -/
structure ForeignKeys (specs : List ProcessSpec) (tables : ProcessTables) : Prop where
  legacy : ∀ row ∈ tables.specs, ∃ spec ∈ specs, spec.definitionId = row.definitionId
  slots : ∀ row ∈ tables.instances, ∃ spec ∈ specs, spec.definitionId = row.definitionId

/-- What a definition adds whose name is new. -/
structure Adds (specs : List ProcessSpec) (tables : ProcessTables) (spec : ProcessSpec)
    (newId : ℕ → ProcessInstanceId) (specs' : List ProcessSpec) (tables' : ProcessTables) :
    Prop where
  definitions : specs' = specs ++ [spec.stored]
  found : KeyedRows.find ProcessSpec.name spec.name specs' = some spec.stored
  distinct : ∀ row ∈ specs, row.definitionId ≠ spec.definitionId
  legacy : tables'.specs = tables.specs ++ [{ definitionId := spec.definitionId }]
  slots : tables'.instances = tables.instances ++
    (List.range spec.instances.val).map (ProcessTables.newRow spec.definitionId newId)
  active : tables'.activeRows spec.definitionId =
    (List.range spec.instances.val).map (ProcessTables.newRow spec.definitionId newId)

theorem saveSpec_new (hnew : KeyedRows.find ProcessSpec.name spec.name specs = none)
    (hkeys : ForeignKeys specs tables)
    (h : saveSpec specs tables spec newId = .ok (specs', tables')) :
    Adds specs tables spec newId specs' tables' := by
  unfold saveSpec at h
  cases hrow : saveSpecRow specs spec with
  | error error =>
    rw [hrow] at h
    cases h
  | ok saved =>
    have hfound := saveSpecRow_find hrow spec.name
    rw [if_pos rfl, hnew] at hfound
    rw [hrow] at h
    simp only [Except.bind, hfound] at h
    change (ProcessTables.syncProcessInstances spec.definitionId newId spec.instances.val
      (if (tables.findSpec spec.definitionId).isSome then tables
        else { tables with specs := tables.specs ++ [{ definitionId := spec.definitionId }] })).map
      (saved, ·) = .ok (specs', tables') at h
    unfold saveSpecRow at hrow
    rw [hnew] at hrow
    dsimp only at hrow
    split at hrow
    · cases hrow
    · rename_i hany
      have hdistinct : ∀ row ∈ specs, row.definitionId ≠ spec.definitionId := by
        intro row hrow heq
        exact hany (List.any_eq_true.mpr ⟨row, hrow, decide_eq_true heq⟩)
      have hlegacy : tables.findSpec spec.definitionId = none := by
        apply KeyedRows.find_eq_none.mpr
        intro row hrow heq
        obtain ⟨owner, howner, hid⟩ := hkeys.legacy row hrow
        exact hdistinct owner howner (hid.trans heq)
      rw [hlegacy, if_neg (by simp)] at h
      have hnone : ProcessTables.activeRows { tables with
          specs := tables.specs ++ [{ definitionId := spec.definitionId }] } spec.definitionId =
            [] := by
        apply List.filter_eq_nil_iff.mpr
        intro row hrow
        obtain ⟨owner, howner, hid⟩ := hkeys.slots row hrow
        have hne : row.definitionId ≠ spec.definitionId := fun heq =>
          hdistinct owner howner (hid.trans heq)
        simp [hne]
      cases hsync : ProcessTables.syncProcessInstances spec.definitionId newId spec.instances.val
          { tables with specs := tables.specs ++ [{ definitionId := spec.definitionId }] } with
      | error error =>
        rw [hsync] at h
        cases h
      | ok synced =>
        rw [hsync] at h
        obtain ⟨rfl, rfl⟩ := Prod.mk.inj (Except.ok.inj h)
        obtain ⟨hspecs, hslots, hactive⟩ := ProcessTables.syncProcessInstances_new hnone hsync
        exact ⟨(Except.ok.inj hrow).symm, hfound, hdistinct, hspecs, hslots, hactive⟩

/-- Deleting a definition that has just been added leaves the tables as they were. -/
theorem deleteSpec_new (hnew : KeyedRows.find ProcessSpec.name spec.name specs = none)
    (hkeys : ForeignKeys specs tables) (h : Adds specs tables spec newId specs' tables') :
    deleteSpec specs' tables' spec.name = (specs, tables) := by
  unfold deleteSpec
  rw [h.found]
  have hdefinitions : specs'.filter (fun row => row.name ≠ spec.name) = specs := by
    rw [h.definitions, List.filter_append, List.filter_eq_self.mpr]
    · have hname : spec.stored.name = spec.name := rfl
      simp [hname]
    · intro row hrow
      simpa using KeyedRows.find_eq_none.mp hnew row hrow
  have hlegacy : tables'.specs.filter
      (fun row => row.definitionId ≠ spec.stored.definitionId) = tables.specs := by
    have hid : spec.stored.definitionId = spec.definitionId := rfl
    rw [h.legacy, hid, List.filter_append, List.filter_eq_self.mpr]
    · simp
    · intro row hrow
      obtain ⟨owner, howner, heq⟩ := hkeys.legacy row hrow
      rw [← heq]
      simpa using h.distinct owner howner
  have hslots : tables'.instances.filter
      (fun row => row.definitionId ≠ spec.stored.definitionId) = tables.instances := by
    have hid : spec.stored.definitionId = spec.definitionId := rfl
    rw [h.slots, hid, List.filter_append, List.filter_eq_self.mpr]
    · rw [List.filter_eq_nil_iff.mpr]
      · exact List.append_nil _
      · intro row hrow
        obtain ⟨k, -, rfl⟩ := List.mem_map.mp hrow
        simp [ProcessTables.newRow]
    · intro row hrow
      obtain ⟨owner, howner, heq⟩ := hkeys.slots row hrow
      rw [← heq]
      simpa using h.distinct owner howner
  simp only [hdefinitions, hlegacy, hslots]

end Storage

namespace ControlState

variable {s : ControlState} {r : ControlReplies} {newId : ℕ → ProcessInstanceId}

/-- The calls of a start of new slots do not all succeed. -/
def StartFails (r : ControlReplies) (newId : ℕ → ProcessInstanceId) (spec : ProcessSpec) : Prop :=
  r.list ≠ none ∨ ∃ k < spec.instances.val, ¬(r.spawn (newId k)).Starts spec

/-- The start fails before there is a child, or the first child is gone again. -/
def StartsNothing (r : ControlReplies) (newId : ℕ → ProcessInstanceId) (spec : ProcessSpec) :
    Prop :=
  r.list ≠ none ∨ ¬(r.spawn (newId 0)).Starts spec ∧ (r.spawn (newId 0)).IsClean spec

/-- A process whose slots have just been saved -/
structure Saved (r : ControlReplies) (newId : ℕ → ProcessInstanceId) (s : ControlState) :
    Prop where
  positive : 0 < s.spec.instances.val
  active : s.tables.activeRows s.spec.definitionId =
    (List.range s.spec.instances.val).map (ProcessTables.newRow s.spec.definitionId newId)
  noEntry : ∀ n, s.runtime.runtimeEntry (newId n) = none
  noGuard : ∀ n, s.guardOwner (newId n) = none
  drawn : DrawnHandles r
  newHandle : ∀ id handle, (r.spawn id).spawn = .ok handle → ∀ child ∈ s.children,
    child.handle ≠ handle

theorem Saved.unstarted (h : s.Saved r newId) :
    ∃ slots, s.tables.listProcessInstances s.spec.definitionId = .ok slots ∧
      slots.map ProcessInstance.id = (List.range s.spec.instances.val).map newId ∧
        s.Unstarted r slots := by
  obtain ⟨slots, hlist, hids, hslots⟩ :=
    ProcessTables.listProcessInstances_new s.spec.instances.isLt.le h.active
  have hnew {slot : ProcessInstance} (hslot : slot ∈ slots) :
      ∃ k < s.spec.instances.val, newId k = slot.id := by
    have hmem : slot.id ∈ slots.map ProcessInstance.id := List.mem_map_of_mem hslot
    rw [hids] at hmem
    obtain ⟨k, hk, hid⟩ := List.mem_map.mp hmem
    exact ⟨k, List.mem_range.mp hk, hid⟩
  have hrow {k : ℕ} (hk : k < s.spec.instances.val) :
      ProcessTables.newRow s.spec.definitionId newId k ∈ s.tables.instances := by
    have hactive : ProcessTables.newRow s.spec.definitionId newId k ∈
        s.tables.activeRows s.spec.definitionId := by
      rw [h.active]
      exact List.mem_map_of_mem (List.mem_range.mpr hk)
    exact (List.mem_filter.mp hactive).1
  refine ⟨slots, hlist, hids, ?_⟩
  constructor
  · intro slot hslot
    exact Fin.lt_def.mpr (hslots slot hslot).1
  · exact (ProcessTables.listProcessInstances_ok hlist).1
  · intro slot hslot
    obtain ⟨k, -, hid⟩ := hnew hslot
    rw [← hid]
    exact h.noEntry k
  · intro slot hslot
    obtain ⟨k, -, hid⟩ := hnew hslot
    rw [← hid]
    exact h.noGuard k
  · intro slot hslot handle
    obtain ⟨k, hk, hid⟩ := hnew hslot
    exact ProcessTables.setProcessInstanceRuntimeHandle_new (hrow hk) hid rfl rfl
      (hslots slot hslot).2 handle
  · intro slot hslot row hmem hslotId
    obtain ⟨k, hk, hid⟩ := hnew hslot
    -- the id belongs to the row that has just been added
    have heq := s.tables.unique.eq_of_key hmem (hrow hk) (hslotId.trans hid.symm)
    rw [heq]
    rfl
  · intro slot _
    exact h.newHandle slot.id

/-- The start of a process that has just been saved -/
theorem Saved.start (h : s.Saved r newId) :
    ((s.startProcess r).1 = .ok () ∧ ¬StartFails r newId s.spec ∨
      (∃ error, (s.startProcess r).1 = .error error) ∧ StartFails r newId s.spec ∧
        ((∀ child ∈ (s.startProcess r).2.children, child ∈ s.children) ↔
          StartsNothing r newId s.spec)) ∧
    (s.startProcess r).2.spec = s.spec ∧ (s.startProcess r).2.tables = s.tables := by
  obtain ⟨slots, hlist, hids, hunstarted⟩ := h.unstarted
  unfold startProcess StartFails StartsNothing
  cases hfails : r.list with
  | some error => simp [RepoError.orElse]
  | none =>
    have hall : (∀ slot ∈ slots, (r.spawn slot.id).Starts s.spec) ↔
        ∀ k < s.spec.instances.val, (r.spawn (newId k)).Starts s.spec := by
      calc (∀ slot ∈ slots, (r.spawn slot.id).Starts s.spec)
          ↔ ∀ id ∈ slots.map ProcessInstance.id, (r.spawn id).Starts s.spec := by
            rw [List.forall_mem_map]
        _ ↔ ∀ k < s.spec.instances.val, (r.spawn (newId k)).Starts s.spec := by
            rw [hids, List.forall_mem_map]
            simp only [List.mem_range]
    cases slots with
    | nil =>
      have hlength := congrArg List.length hids
      rw [List.length_map, List.length_map, List.length_range] at hlength
      exact absurd h.positive (by rw [← hlength]; exact Nat.lt_irrefl 0)
    | cons slot rest =>
      have hfirst : slot.id = newId 0 := by
        obtain ⟨n, hn⟩ := Nat.exists_eq_succ_of_ne_zero h.positive.ne'
        rw [hn, List.range_succ_eq_map, List.map_cons, List.map_cons] at hids
        exact (List.cons.inj hids).1
      obtain ⟨hresult, hspec, htables, -⟩ := startSlots_new h.drawn hunstarted false
      have hchildren := startSlots_children h.drawn hunstarted
      rw [hall] at hresult
      rw [hfirst] at hchildren
      simp only [RepoError.orElse, hlist, ne_eq, not_true_eq_false, false_or, not_exists, not_and,
        not_not]
      rcases hresult with ⟨hstarts, hok⟩ | ⟨hnot, error, herror⟩
      · cases hrun : startSlots r (slot :: rest) false s with
        | mk result t =>
          rw [hrun] at hok hspec htables
          obtain rfl : result = .ok true := hok
          exact ⟨.inl ⟨rfl, hstarts⟩, hspec, htables⟩
      · cases hrun : startSlots r (slot :: rest) false s with
        | mk result t =>
          rw [hrun] at herror hspec htables hchildren
          obtain rfl : result = .error error := herror
          push Not at hnot
          exact ⟨.inr ⟨⟨error, rfl⟩, hnot, hchildren⟩, hspec, htables⟩

end ControlState

namespace HostState

variable {s t : HostState} {spec : ProcessSpec} {r : AddReplies}

/-- Everything there is was there before: the definitions, the slots with their handles, and the
children. -/
structure NothingLeft (s t : HostState) : Prop where
  definitions : ∀ spec ∈ t.specs, spec ∈ s.specs
  legacy : ∀ row ∈ t.tables.specs, row ∈ s.tables.specs
  slots : ∀ row ∈ t.tables.instances, row ∈ s.tables.instances
  children : ∀ child ∈ t.children, child ∈ s.children

/-- The ids of the slots, and the process ids of the children, are drawn. -/
structure Drawn (s : HostState) (r : AddReplies) : Prop where
  noEntry : ∀ n, s.runtime.runtimeEntry (r.newId n) = none
  noGuard : ∀ n, s.guardOwner (r.newId n) = none
  handles : ControlState.DrawnHandles r.toControlReplies
  newHandle : ∀ id handle, (r.spawn id).spawn = .ok handle → ∀ child ∈ s.children,
    child.handle ≠ handle

/-- The definition of the call is saved. -/
def Admitted (s : HostState) (spec : ProcessSpec) (r : AddReplies) : Prop :=
  spec.validate = .ok () ∧ r.get = none ∧
    KeyedRows.find ProcessSpec.name spec.name s.specs = none ∧
    (spec.isSystemRegistered = true → r.register = none) ∧ r.save = none ∧
    ∃ saved, saveSpec s.specs s.tables spec r.newId = .ok saved

def StartFails (spec : ProcessSpec) (r : AddReplies) : Prop :=
  r.require ≠ none ∨ match spec.managementMode with
    | .direct => ControlState.StartFails r.toControlReplies r.newId spec
    | .systemRegistered _ => r.startUnit ≠ none

def StartsNothing (spec : ProcessSpec) (r : AddReplies) : Prop :=
  r.require ≠ none ∨ match spec.managementMode with
    | .direct => ControlState.StartsNothing r.toControlReplies r.newId spec
    | .systemRegistered _ => True

/-- A call that has saved its definition does not fail, or the start that `autostart` asks for fails
without a child, and the definition is deleted. -/
def AddsCleanly (s : HostState) (spec : ProcessSpec) (r : AddReplies) : Prop :=
  s.Admitted spec r →
    (spec.autostart = true ∧ StartFails spec r → StartsNothing spec r ∧ r.delete = none) ∧
      (¬(spec.autostart = true ∧ StartFails spec r) → r.status = none)

theorem NothingLeft.refl (units : ServiceUnits) : NothingLeft s { s with units } :=
  ⟨fun _ h => h, fun _ h => h, fun _ h => h, fun _ h => h⟩

theorem saveProcess_none {saved : List ProcessSpec × ProcessTables}
    (h : saveSpec s.specs s.tables spec r.newId = .ok saved)
    (hadds : Adds s.specs s.tables spec r.newId saved.1 saved.2) (units : ServiceUnits) :
    ({ s with units } : HostState).saveProcess spec r.newId none =
      .ok { s with specs := saved.1, tables := saved.2, spec := spec.stored, units } := by
  unfold saveProcess
  dsimp only
  rw [h]
  dsimp only [Except.map]
  rw [hadds.found]
  rfl

theorem registerUnit_cases (spec : ProcessSpec) (reply : Option RegistrarError) :
    (∃ units, s.registerUnit spec reply = (.ok (), { s with units }) ∧
      (spec.isSystemRegistered = true → reply = none)) ∨
    (∃ error, s.registerUnit spec reply = (.error error, s) ∧
      ¬(spec.isSystemRegistered = true → reply = none)) := by
  unfold registerUnit ProcessSpec.isSystemRegistered
  cases spec.managementMode with
  | direct => exact .inl ⟨s.units, rfl, by simp⟩
  | systemRegistered unitName =>
    cases reply with
    | none => exact .inl ⟨_, rfl, by simp⟩
    | some error => exact .inr ⟨_, rfl, by simp⟩

theorem unregisterUnit_state (spec : ProcessSpec) (reply : Option RegistrarError) :
    ∃ units, s.unregisterUnit spec reply = { s with units } := by
  unfold unregisterUnit
  cases spec.managementMode with
  | direct => exact ⟨s.units, rfl⟩
  | systemRegistered unitName => exact ⟨_, rfl⟩

/-- A call that does not save its definition leaves nothing. -/
theorem addProcess_refused (h : ¬s.Admitted spec r) : NothingLeft s (s.addProcess spec r).2 := by
  unfold Admitted at h
  unfold addProcess
  split
  · exact .refl s.units
  · exact .refl s.units
  · rename_i hvalid hget
    split
    · exact .refl s.units
    · rename_i hfind
      rw [Option.not_isSome_iff_eq_none] at hfind
      rcases registerUnit_cases (s := s) spec r.register with
        ⟨units, hregister, hreply⟩ | ⟨error, hregister, -⟩
      · rw [hregister]
        dsimp only
        cases hsave : r.save with
        | some error =>
          dsimp only [saveProcess]
          obtain ⟨units', hunits⟩ :=
            unregisterUnit_state (s := { s with units }) spec r.unregister
          rw [hunits]
          exact .refl units'
        | none =>
          cases hsaved : saveSpec s.specs s.tables spec r.newId with
          | ok saved => exact absurd ⟨hvalid, hget, hfind, hreply, hsave, saved, hsaved⟩ h
          | error error =>
            have hfails : ({ s with units } : HostState).saveProcess spec r.newId none =
                .error error := by
              unfold saveProcess
              dsimp only
              rw [hsaved]
              rfl
            rw [hfails]
            dsimp only
            obtain ⟨units', hunits⟩ :=
              unregisterUnit_state (s := { s with units }) spec r.unregister
            rw [hunits]
            exact .refl units'
      · rw [hregister]
        exact .refl s.units

/-- The state of a call that has saved its definition -/
def afterSave (s : HostState) (spec : ProcessSpec) (saved : List ProcessSpec × ProcessTables)
    (units : ServiceUnits) : HostState :=
  { s with specs := saved.1, tables := saved.2, spec := spec.stored, units }

theorem addProcess_admitted (hkeys : ForeignKeys s.specs s.tables) (h : s.Admitted spec r) :
    ∃ saved units, Adds s.specs s.tables spec r.newId saved.1 saved.2 ∧
      s.addProcess spec r =
        if spec.autostart then match (s.afterSave spec saved units).startNamed r with
          | (.error error, t) =>
            (.error error, (t.deleteProcess spec.name r.delete).unregisterUnit spec r.unregister)
          | (.ok (), t) => (statusOf r.status, t)
        else (statusOf r.status, s.afterSave spec saved units) := by
  obtain ⟨hvalid, hget, hfind, hreply, hsave, saved, hsaved⟩ := h
  have hadds := saveSpec_new hfind hkeys hsaved
  rcases registerUnit_cases (s := s) spec r.register with
    ⟨units, hregister, -⟩ | ⟨error, -, hfails⟩
  · refine ⟨saved, units, hadds, ?_⟩
    unfold addProcess
    rw [hvalid, hget]
    dsimp only
    rw [hfind, if_neg (by simp), hregister]
    dsimp only
    rw [hsave, saveProcess_none hsaved hadds units]
    rfl
  · exact absurd hreply hfails

theorem instances_positive (hvalid : spec.validate = .ok ()) : 0 < spec.instances.val := by
  by_contra hzero
  have hrefused : (!(decide (1 ≤ spec.instances) && decide (spec.instances ≤ 128))) = true := by
    have hlt : ¬ 1 ≤ spec.instances := fun hle => hzero (Nat.lt_of_lt_of_le Nat.one_pos hle)
    simp [hlt]
  have hpolicy : spec.validateProductionPolicy = .error "instances must be between 1 and 128" := by
    unfold ProcessSpec.validateProductionPolicy
    exact if_pos hrefused
  unfold ProcessSpec.validate at hvalid
  rw [hpolicy] at hvalid
  split at hvalid
  · cases hvalid
  · split at hvalid
    · cases hvalid
    · split at hvalid
      · cases hvalid
      · split at hvalid
        · cases hvalid
        · cases hvalid

/-- The start of the definition that has just been saved -/
theorem startNamed_saved {saved : List ProcessSpec × ProcessTables} {units : ServiceUnits}
    (hvalid : spec.validate = .ok ()) (hdrawn : s.Drawn r)
    (hadds : Adds s.specs s.tables spec r.newId saved.1 saved.2) :
    (((s.afterSave spec saved units).startNamed r).1 = .ok () ∧ ¬StartFails spec r ∨
      (∃ error, ((s.afterSave spec saved units).startNamed r).1 = .error error) ∧
        StartFails spec r ∧
          ((∀ child ∈ ((s.afterSave spec saved units).startNamed r).2.children,
            child ∈ s.children) ↔ StartsNothing spec r)) ∧
    ((s.afterSave spec saved units).startNamed r).2.specs = saved.1 ∧
    ((s.afterSave spec saved units).startNamed r).2.tables = saved.2 := by
  have hmode : (s.afterSave spec saved units).spec.managementMode = spec.managementMode :=
    ManagementMode.ofColumns_columns _
  have hinstances : spec.stored.instances = spec.instances := by
    have hcolumn : (SpecRow.ofSpec spec).instances = spec.instances.val := rfl
    unfold ProcessSpec.stored SpecRow.toSpec
    dsimp only
    rw [hcolumn, instancesFromI64_val]
  unfold startNamed StartFails StartsNothing
  cases hrequire : r.require with
  | some error => simp [afterSave]
  | none =>
    rw [hmode]
    cases spec.managementMode with
    | systemRegistered unitName =>
      cases hunit : r.startUnit with
      | some error => simp [afterSave]
      | none => simp [afterSave]
    | direct =>
      have hsaved : (s.afterSave spec saved units).toControlState.Saved r.toControlReplies
          r.newId := by
        constructor
        · show 0 < spec.stored.instances.val
          rw [hinstances]
          exact instances_positive hvalid
        · show saved.2.activeRows spec.definitionId =
            (List.range spec.stored.instances.val).map (ProcessTables.newRow spec.definitionId _)
          rw [hinstances]
          exact hadds.active
        · exact hdrawn.noEntry
        · exact hdrawn.noGuard
        · exact hdrawn.handles
        · exact hdrawn.newHandle
      have hfails : ControlState.StartFails r.toControlReplies r.newId spec.stored ↔
          ControlState.StartFails r.toControlReplies r.newId spec := by
        unfold ControlState.StartFails
        rw [hinstances]
        exact Iff.rfl
      obtain ⟨hresult, -, htables⟩ := hsaved.start
      simp only [ne_eq, not_true_eq_false, false_or]
      refine ⟨?_, rfl, htables⟩
      rcases hresult with ⟨hok, hnot⟩ | ⟨⟨error, herror⟩, hfail, hchildren⟩
      · refine .inl ⟨?_, fun h => hnot (hfails.mpr h)⟩
        rw [hok]
        rfl
      · refine .inr ⟨⟨.instances error, ?_⟩, hfails.mp hfail, hchildren⟩
        rw [herror]
        rfl

theorem not_nothingLeft {saved : List ProcessSpec × ProcessTables}
    (hadds : Adds s.specs s.tables spec r.newId saved.1 saved.2) (hspecs : t.specs = saved.1) :
    ¬NothingLeft s t := by
  intro h
  have hmem : spec.stored ∈ t.specs := by
    rw [hspecs, hadds.definitions]
    exact List.mem_append_right _ List.mem_cons_self
  exact hadds.distinct spec.stored (h.definitions _ hmem) rfl

/-- The compensation of a start that has failed. -/
theorem deleteProcess_nothingLeft {saved : List ProcessSpec × ProcessTables}
    (hkeys : ForeignKeys s.specs s.tables)
    (hnew : KeyedRows.find ProcessSpec.name spec.name s.specs = none)
    (hadds : Adds s.specs s.tables spec r.newId saved.1 saved.2) (hspecs : t.specs = saved.1)
    (htables : t.tables = saved.2) :
    NothingLeft s ((t.deleteProcess spec.name r.delete).unregisterUnit spec r.unregister) ↔
      (∀ child ∈ t.children, child ∈ s.children) ∧ r.delete = none := by
  obtain ⟨units, hunits⟩ :=
    unregisterUnit_state (s := t.deleteProcess spec.name r.delete) spec r.unregister
  rw [hunits]
  cases r.delete with
  | some error =>
    have hdirty : ¬NothingLeft s { t.deleteProcess spec.name (some error) with units } :=
      not_nothingLeft hadds hspecs
    simp [hdirty]
  | none =>
    have hdeleted : deleteSpec t.specs t.tables spec.name = (s.specs, s.tables) := by
      rw [hspecs, htables]
      exact deleteSpec_new hnew hkeys hadds
    have hstate : t.deleteProcess spec.name none = { t with specs := s.specs, tables := s.tables } := by
      unfold deleteProcess
      dsimp only
      rw [hdeleted]
    rw [hstate]
    constructor
    · intro h
      exact ⟨h.children, rfl⟩
    · rintro ⟨hchildren, -⟩
      exact ⟨fun _ h => h, fun _ h => h, fun _ h => h, hchildren⟩

theorem statusOf_error {status : Option RepoError} :
    (∃ error, statusOf status = .error error) ↔ status ≠ none := by
  cases status with
  | none => simp [statusOf]
  | some error => simp [statusOf]

/-- An `add_process` that fails leaves nothing exactly under the condition. -/
theorem addProcess_nothingLeft_iff (hkeys : ForeignKeys s.specs s.tables) (hdrawn : s.Drawn r) :
    ((∃ error, (s.addProcess spec r).1 = .error error) → NothingLeft s (s.addProcess spec r).2) ↔
      s.AddsCleanly spec r := by
  unfold AddsCleanly
  by_cases hadmitted : s.Admitted spec r
  · obtain ⟨saved, units, hadds, hcall⟩ := addProcess_admitted hkeys hadmitted
    have hvalid : spec.validate = .ok () := hadmitted.1
    have hnew : KeyedRows.find ProcessSpec.name spec.name s.specs = none := hadmitted.2.2.1
    have hkept (t : HostState) (hspecs : t.specs = saved.1) :
        ((∃ error, statusOf r.status = .error error) → NothingLeft s t) ↔ r.status = none := by
      rw [statusOf_error]
      constructor
      · intro h
        by_contra hstatus
        exact not_nothingLeft hadds hspecs (h hstatus)
      · intro hstatus hne
        exact absurd hstatus hne
    rw [hcall]
    simp only [hadmitted, true_implies]
    by_cases hauto : spec.autostart = true
    · rw [if_pos hauto]
      obtain ⟨hresult, hspecs, htables⟩ := @startNamed_saved _ _ _ _ units hvalid hdrawn hadds
      rcases hresult with ⟨hok, hnot⟩ | ⟨⟨error, herror⟩, hfails, hchildren⟩
      · cases hstart : (s.afterSave spec saved units).startNamed r with
        | mk result t =>
          rw [hstart] at hok hspecs
          obtain rfl : result = .ok () := hok
          have hsucceeds : ¬(spec.autostart = true ∧ StartFails spec r) := fun h => hnot h.2
          rw [and_iff_right fun h => absurd h hsucceeds, forall_prop_of_true hsucceeds]
          exact hkept t hspecs
      · cases hstart : (s.afterSave spec saved units).startNamed r with
        | mk result t =>
          rw [hstart] at herror hspecs htables hchildren
          obtain rfl : result = .error error := herror
          have hstart : spec.autostart = true ∧ StartFails spec r := ⟨hauto, hfails⟩
          rw [← hchildren, and_iff_left fun h => absurd hstart h, forall_prop_of_true hstart]
          have hleft := deleteProcess_nothingLeft hkeys hnew hadds hspecs htables
          constructor
          · intro h
            exact hleft.mp (h ⟨error, rfl⟩)
          · intro h _
            exact hleft.mpr h
    · have hnot : ¬(spec.autostart = true ∧ StartFails spec r) := fun h => hauto h.1
      rw [if_neg hauto, and_iff_right fun h => absurd h hnot, forall_prop_of_true hnot]
      exact hkept _ rfl
  · constructor
    · intro _ h
      exact absurd h hadmitted
    · intro _ _
      exact addProcess_refused hadmitted

end HostState

namespace ControlState

variable {s : ControlState} {slot : ProcessInstance} {replies : SpawnReplies}

/-- A live child that no entry has -/
def Unowned (s : ControlState) (child : Child) : Prop :=
  child ∈ s.children ∧ ∀ entry ∈ s.runtime, entry.id = child.instanceId →
    entry.handle ≠ child.handle

/-- A spawn that fails leaves no child without an entry exactly when its child is recorded or
killed. -/
theorem spawn_unowned_iff (hnone : s.runtime.runtimeEntry slot.id = none)
    (hfresh : ∀ handle, replies.spawn = .ok handle → ∀ child ∈ s.children, child.handle ≠ handle) :
    ((∃ error, (s.spawnInstance slot replies).1 = .error error) →
        ∀ child, (s.spawnInstance slot replies).2.Unowned child → s.Unowned child) ↔
      s.LeavesNothing slot replies := by
  obtain ⟨herror, hruntime, hchildren⟩ :=
    @spawnInstance_outcome _ slot replies hfresh
  rw [← spawnOutcome_left_iff]
  have hother : ∀ entry ∈ s.runtime, entry.id ≠ slot.id := KeyedRows.find_eq_none.mp hnone
  have hfilter : s.runtime.filter (fun entry => entry.id ≠ slot.id) = s.runtime := by
    apply List.filter_eq_self.mpr
    intro entry hentry
    simpa using hother entry hentry
  cases hsome : (s.spawnOutcome slot replies).error with
  | none =>
    obtain ⟨handle, -, houtcome⟩ := spawn_of_spawned hsome
    rw [hsome] at herror
    rw [houtcome, errorOf_eq_none.mp herror]
    simp [SpawnOutcome.left]
  | some error =>
    have hentries : (s.spawnInstance slot replies).2.runtime = s.runtime := by
      rw [hruntime]
      cases houtcome : s.spawnOutcome slot replies with
      | spawned handle =>
        rw [houtcome] at hsome
        exact absurd hsome.symm (Option.some_ne_none error)
      | notSpawned error left => rfl
      | notGuarded error left => exact hfilter
    have hkept : (s.spawnInstance slot replies).2.children = s.children ++
        (s.spawnOutcome slot replies).left.toList.map (Child.mk slot.id) := by
      rw [hchildren]
      cases houtcome : s.spawnOutcome slot replies with
      | spawned handle =>
        rw [houtcome] at hsome
        exact absurd hsome.symm (Option.some_ne_none error)
      | notSpawned error left => rfl
      | notGuarded error left => rfl
    have hfails : ∃ error, (s.spawnInstance slot replies).1 = .error error := by
      cases hresult : (s.spawnInstance slot replies).1 with
      | ok =>
        rw [hresult, hsome] at herror
        exact absurd herror.symm (Option.some_ne_none error)
      | error error => exact ⟨error, rfl⟩
    unfold Unowned
    rw [forall_prop_of_true hfails, hentries, hkept]
    cases hleft : (s.spawnOutcome slot replies).left with
    | none => simp
    | some handle =>
      constructor
      · intro hall
        -- no entry has the id of the slot
        have hunowned := hall ⟨slot.id, handle⟩
          ⟨by simp, fun entry hentry hid => absurd hid (hother entry hentry)⟩
        exact absurd rfl (hfresh handle (spawn_of_left hleft) _ hunowned.1)
      · intro h
        exact absurd h (Option.some_ne_none handle)

end ControlState

/-- When a failed spawn, or a failed `add_process`, leaves nothing behind. -/
theorem nothing_left_behind (s : ControlState) (slot : ProcessInstance) (replies : SpawnReplies)
    (hnone : s.runtime.runtimeEntry slot.id = none)
    (hfresh : ∀ handle, replies.spawn = .ok handle → ∀ child ∈ s.children, child.handle ≠ handle)
    (host : HostState) (spec : ProcessSpec) (r : AddReplies)
    (hkeys : ForeignKeys host.specs host.tables) (hdrawn : host.Drawn r) :
    (((∃ error, (s.spawnInstance slot replies).1 = .error error) →
        ∀ child, (s.spawnInstance slot replies).2.Unowned child → s.Unowned child) ↔
      s.LeavesNothing slot replies) ∧
    (((∃ error, (host.addProcess spec r).1 = .error error) →
        HostState.NothingLeft host (host.addProcess spec r).2) ↔ host.AddsCleanly spec r) :=
  ⟨ControlState.spawn_unowned_iff hnone hfresh, HostState.addProcess_nothingLeft_iff hkeys hdrawn⟩

section Runs

/-- A host without processes -/
def emptyHost : HostState where
  spec := { definitionId := ⟨0⟩, name := "", command := "" }
  tables := { instances := [], unique := List.nodup_nil }

/-- Two instances that are started when they are added. -/
def webSpec : ProcessSpec where
  definitionId := ⟨1⟩
  name := "web"
  command := "web"
  autostart := true
  instances := 2

/-- Each slot draws the id and the handle of its number, and the spawn of one number fails. -/
def oneFails (number : ℕ) : AddReplies where
  newId n := ⟨n⟩
  spawn id :=
    { spawn := if id.val = number then .error "spawn failed"
        else .ok { processId := id.val, pid := 100, pgid := some 100, generation := some "a"
                   startedAt := 0 } }

theorem emptyHost_keys : ForeignKeys emptyHost.specs emptyHost.tables :=
  ⟨fun row (h : row ∈ []) => absurd h List.not_mem_nil,
    fun row (h : row ∈ []) => absurd h List.not_mem_nil⟩

theorem oneFails_drawn (number : ℕ) : emptyHost.Drawn (oneFails number) where
  noEntry _ := rfl
  noGuard _ := rfl
  handles id id' handle h h' := by
    unfold oneFails at h h'
    dsimp only at h h'
    split at h
    · cases h
    · split at h'
      · cases h'
      · have hsame := (Except.ok.inj h).trans (Except.ok.inj h').symm
        have hval : id.val = id'.val := congrArg ChildHandle.processId hsame
        cases id
        cases id'
        exact congrArg ProcessInstanceId.mk hval
  newHandle _ _ _ child (h : child ∈ []) := absurd h List.not_mem_nil

/-- The slot of a process without entries -/
def webSlot : ProcessInstance where
  id := ⟨0⟩
  definitionId := ⟨1⟩
  ordinal := 0
  generation := 1

/-- The first spawn fails: there is no child, and the definition is deleted. -/
theorem emptyHost_nothing_left :
    (∀ child, (emptyHost.spawnInstance webSlot ((oneFails 0).spawn ⟨0⟩)).2.Unowned child →
      emptyHost.Unowned child) ∧
    HostState.NothingLeft emptyHost (emptyHost.addProcess webSpec (oneFails 0)).2 := by
  have hfails : ((oneFails 0).spawn ⟨0⟩).spawn = .error "spawn failed" := rfl
  have hclean : ((oneFails 0).spawn ⟨0⟩).IsClean webSpec := fun handle h =>
    absurd (hfails.symm.trans h) (by simp)
  have hnot : ¬((oneFails 0).spawn ⟨0⟩).Starts webSpec := by
    rintro ⟨⟨handle, h⟩, -⟩
    exact absurd (hfails.symm.trans h) (by simp)
  have hfresh : ∀ handle, ((oneFails 0).spawn ⟨0⟩).spawn = .ok handle →
      ∀ child ∈ emptyHost.children, child.handle ≠ handle :=
    fun handle h => absurd (hfails.symm.trans h) (by simp)
  have hleft := nothing_left_behind emptyHost.toControlState webSlot ((oneFails 0).spawn ⟨0⟩) rfl
    hfresh emptyHost webSpec (oneFails 0) emptyHost_keys (oneFails_drawn 0)
  constructor
  · apply hleft.1.mpr
    · intro handle h
      exact absurd (hfails.symm.trans h) (by simp)
    · exact ⟨"spawn failed", rfl⟩
  · apply hleft.2.mpr
    · intro _
      exact ⟨fun _ => ⟨.inr (.inr ⟨hnot, hclean⟩), rfl⟩, fun _ => rfl⟩
    · exact ⟨.instances "spawn failed", by decide +kernel⟩

/-- A child whose handle cannot be recorded runs on without an entry. Of two instances the first one
runs on when the second one cannot be started, and its definition is deleted. -/
theorem emptyHost_left_behind :
    (let (result, t) := emptyHost.spawnInstance webSlot
      { (oneFails 1).spawn ⟨0⟩ with persist := some (.backend "disk I/O error") }
     result = .error "backend error: disk I/O error" ∧ ∃ child, t.Unowned child) ∧
    (let (result, t) := emptyHost.addProcess webSpec (oneFails 1)
     result = .error (.instances "spawn failed") ∧ t.specs = [] ∧
      ¬ HostState.NothingLeft emptyHost t) := by
  refine ⟨⟨rfl, ⟨⟨0⟩, _⟩, List.mem_singleton.mpr rfl, ?_⟩, by decide +kernel, by decide +kernel, ?_⟩
  · intro entry (hentry : entry ∈ [])
    exact absurd hentry List.not_mem_nil
  · intro h
    have hone : (emptyHost.addProcess webSpec (oneFails 1)).2.children.length = 1 := by
      decide +kernel
    obtain ⟨child, hchild⟩ := List.length_eq_one_iff.mp hone
    have hmem : child ∈ emptyHost.children := h.children child (by
      change child ∈ (emptyHost.addProcess webSpec (oneFails 1)).2.children
      rw [hchild]
      exact List.mem_singleton_self child)
    exact absurd hmem List.not_mem_nil

end Runs

end Supervisor
