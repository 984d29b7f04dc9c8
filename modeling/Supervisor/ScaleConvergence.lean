import Supervisor.InstanceSlots
import Supervisor.RollingCapacity

namespace Supervisor

open KeyedRows (Unique)

namespace ProcessTables

variable {s t : ProcessTables} {definitionId : ProcessDefinitionId} {slots : List ProcessInstance}
  {row : ProcessInstanceRow}

/-- The slots are the active rows. -/
theorem listProcessInstances_ok (h : s.listProcessInstances definitionId = .ok slots) :
    (slots.map ProcessInstance.id).Nodup ∧
    (∀ slot ∈ slots, ∃ row ∈ s.activeRows definitionId, instanceOf row = .ok slot) ∧
    ∀ row ∈ s.activeRows definitionId, ∃ slot ∈ slots, instanceOf row = .ok slot := by
  have hperm := List.perm_insertionSort (fun a b : ProcessInstanceRow => a.ordinal ≤ b.ordinal)
    (s.activeRows definitionId)
  have hall := mapM_ok h
  have hids : slots.map ProcessInstance.id =
      ((s.activeRows definitionId).insertionSort fun a b => a.ordinal ≤ b.ordinal).map
        ProcessInstanceRow.instanceId := by
    symm
    rw [← List.forall₂_eq_eq_eq, List.forall₂_map_left_iff, List.forall₂_map_right_iff]
    exact hall.imp fun _ _ h => (instanceOf_ok h).1
  refine ⟨?_, fun slot hslot => ?_, fun row hrow => ?_⟩
  · rw [hids, (hperm.map ProcessInstanceRow.instanceId).nodup_iff]
    exact activeRows_unique
  · obtain ⟨row, hrow, hok⟩ := exists_mem_of_forall₂ hall hslot
    exact ⟨row, hperm.mem_iff.mp hrow, hok⟩
  · obtain ⟨slot, hslot, hok⟩ := exists_mem_of_forall₂ hall.flip (hperm.mem_iff.mpr hrow)
    exact ⟨slot, hslot, hok⟩

/-- What `sync_process_instances_transaction` adds: the ordinals that have no active row. -/
theorem syncProcessInstances_ok {newId : ℕ → ProcessInstanceId} {n : ℕ}
    (h : syncProcessInstances definitionId newId n s = .ok t) :
    row ∈ t.activeRows definitionId ↔ row ∈ s.activeRows definitionId ∨
      ∃ k < n, (∀ row ∈ s.activeRows definitionId, row.ordinal ≠ k) ∧
        row = { instanceId := newId k, definitionId, ordinal := k } := by
  induction n generalizing t row with
  | zero =>
    obtain rfl := Except.ok.inj h
    constructor
    · exact .inl
    · rintro (hrow | ⟨k, hk, -⟩)
      · exact hrow
      · exact absurd hk (Nat.not_lt_zero k)
  | succ n ih =>
    unfold syncProcessInstances at h
    cases hu : syncProcessInstances definitionId newId n s with
    | error error =>
      rw [hu] at h
      cases h
    | ok u =>
      rw [hu] at h
      change (if _ then _ else _ : Except RepoError ProcessTables) = .ok t at h
      have hthere : (u.activeRows definitionId).any (fun row => row.ordinal = n) = true ↔
          ∃ row ∈ s.activeRows definitionId, row.ordinal = n := by
        rw [List.any_eq_true]
        constructor
        · rintro ⟨row, hrow, hordinal⟩
          rcases (ih hu).mp hrow with hold | ⟨k, hk, -, rfl⟩
          · exact ⟨row, hold, of_decide_eq_true hordinal⟩
          · have heq : (k : ℤ) = n := of_decide_eq_true hordinal
            omega
        · rintro ⟨row, hrow, hordinal⟩
          exact ⟨row, (ih hu).mpr (.inl hrow), decide_eq_true hordinal⟩
      split at h
      · rename_i hany
        obtain rfl := Except.ok.inj h
        rw [ih hu]
        refine or_congr_right ⟨?_, ?_⟩
        · rintro ⟨k, hk, hnone, hrow⟩
          exact ⟨k, Nat.lt_succ_of_lt hk, hnone, hrow⟩
        · rintro ⟨k, hk, hnone, hrow⟩
          obtain ⟨row', hrow', hordinal⟩ := hthere.mp hany
          have hne : k ≠ n := fun heq => hnone row' hrow' (heq ▸ hordinal)
          exact ⟨k, by omega, hnone, hrow⟩
      · rename_i hany
        split at h
        · cases h
        · have hactive : t.activeRows definitionId = u.activeRows definitionId ++
              [{ instanceId := newId n, definitionId, ordinal := n }] := by
            rw [← Except.ok.inj h]
            unfold ProcessTables.activeRows
            rw [List.filter_append]
            simp
          rw [hactive, List.mem_append, List.mem_singleton, ih hu, or_assoc]
          refine or_congr_right ⟨?_, ?_⟩
          · rintro (⟨k, hk, hnone, hrow⟩ | rfl)
            · exact ⟨k, Nat.lt_succ_of_lt hk, hnone, hrow⟩
            · exact ⟨n, Nat.lt_succ_self n, fun row hrow hordinal =>
                hany (hthere.mpr ⟨row, hrow, hordinal⟩), rfl⟩
          · rintro ⟨k, hk, hnone, hrow⟩
            rcases Nat.lt_succ_iff_lt_or_eq.mp hk with hlt | rfl
            · exact .inl ⟨k, hlt, hnone, hrow⟩
            · exact .inr hrow

/-- The active rows after a retirement. -/
theorem activeRows_retired {id : ProcessInstanceId} :
    (s.retireProcessInstance id).activeRows definitionId =
      (s.activeRows definitionId).filter fun row => row.instanceId ≠ id := by
  unfold ProcessTables.activeRows retireProcessInstance updateInstances
  rw [List.filter_map, List.filter_filter]
  have hkept : s.instances.filter ((fun row => decide (row.definitionId = definitionId) && row.active) ∘
      fun row => if (decide (row.instanceId = id) && row.active) = true then
        { row with active := false } else row) =
      s.instances.filter fun row => decide (row.instanceId ≠ id) &&
        (decide (row.definitionId = definitionId) && row.active) := by
    apply List.filter_congr
    intro row _
    rw [Function.comp_apply]
    by_cases hid : row.instanceId = id
    · cases hactive : row.active <;> simp [hid, hactive]
    · simp [hid]
  rw [hkept]
  conv_rhs => rw [← List.map_id (s.instances.filter _)]
  apply List.map_congr_left
  intro row hrow
  have hne : row.instanceId ≠ id :=
    of_decide_eq_true (Bool.and_eq_true_iff.mp (List.mem_filter.mp hrow).2).1
  simp [hne]

end ProcessTables

section Entries

variable {runtime : Runtime} {entry : RuntimeEntry} {outcome : StopOutcome}
  {id : ProcessInstanceId}

/-- Stopping one instance leaves the entries of the others. -/
theorem runtimeEntry_stopInstance (hne : id ≠ entry.id) :
    (RollingState.stopInstance runtime entry outcome).runtimeEntry id = runtime.runtimeEntry id := by
  have hset (state : ProcessState) :
      (runtime.setRuntimeState entry.id state).runtimeEntry id = runtime.runtimeEntry id := by
    unfold Runtime.runtimeEntry Runtime.setRuntimeState
    rw [KeyedRows.find_update]
    · exact if_neg hne
    · exact fun _ h => h
  have hremove (rows : Runtime) :
      (rows.removeRuntimeEntryIfMatches entry.instance_ entry.handle).runtimeEntry id =
        rows.runtimeEntry id := by
    unfold Runtime.removeRuntimeEntryIfMatches Runtime.runtimeEntry KeyedRows.find
    rw [List.find?_filter]
    congr 1
    funext row
    by_cases hid : row.id = id
    · have hother : Runtime.matchesChild entry.instance_ entry.handle row = false := by
        have hrow : row.id ≠ entry.instance_.id := fun h => hne (hid.symm.trans h)
        simp [Runtime.matchesChild, hrow]
      simp [hid, hother]
    · simp [hid]
  cases outcome with
  | notCancelled error => exact hset .stopping
  | notSignalled error => exact hset .running
  | notCleaned error => exact (hremove _).trans (hset .stopping)
  | stopped => exact (hremove _).trans (hset .stopping)

end Entries

namespace SlotState

/-- A child of the instance is alive. -/
def IsLive (s : SlotState) (id : ProcessInstanceId) : Prop :=
  ∃ child ∈ s.children, child.instanceId = id

/-- What a completed operation promises. -/
structure Converged (s : SlotState) (operation : ProcessOperation) (target : U16) : Prop where
  instances : s.spec.instances = target
  ordinals : ∀ n : ℤ, (∃ row ∈ s.activeRows, row.ordinal = n) ↔ 0 ≤ n ∧ n < target.val
  /-- When slots have been added. -/
  live : operation.newInstanceIds ≠ [] → ∀ row ∈ s.activeRows, s.IsLive row.instanceId

/-- A slot is not stopped, or not retired. -/
def DrainFails (r : ScaleReplies) (id : ProcessInstanceId) : Prop :=
  (r.stop id).error.isSome = true ∨ (r.retire id).isSome = true

/-- A slot that is added is not spawned. -/
def SpawnFails (s : SlotState) (target : U16) (r : ScaleReplies) : Prop :=
  (∃ row ∈ s.activeRows, (s.spec.instances.val : ℤ) ≤ row.ordinal ∧
    (r.spawn row.instanceId).error.isSome = true) ∨
  ∃ n, s.spec.instances.val ≤ n ∧ n < target.val ∧ (∀ row ∈ s.activeRows, row.ordinal ≠ n) ∧
    (r.spawn (r.newId n)).error.isSome = true

/-- When an operation that is claimed converges, or is reported as partial. -/
def PerformConverges (s : SlotState) (target : U16) (r : ScaleReplies) : Prop :=
  if target < s.spec.instances then
    -- the slots that are left have children
    (∃ row ∈ s.activeRows, (target.val : ℤ) ≤ row.ordinal ∧
      (s.runtime.runtimeEntry row.instanceId).isSome = true ∧ DrainFails r row.instanceId) ∨
    ∀ row ∈ s.activeRows, (target.val : ℤ) ≤ row.ordinal →
      (s.runtime.runtimeEntry row.instanceId).isSome = true
  else if s.spec.instances < target then
    -- the process runs with all its slots, and has no slot beyond the target
    (s.runtime ≠ [] ∧ s.SpawnFails target r) ∨
    (∀ row ∈ s.activeRows, row.ordinal < target.val ∧
      (s.IsLive row.instanceId ∨ s.runtime ≠ [] ∧ (s.spec.instances.val : ℤ) ≤ row.ordinal)) ∧
    ∀ n < target.val, (∃ row ∈ s.activeRows, row.ordinal = n) ∨
      s.runtime ≠ [] ∧ s.spec.instances.val ≤ n
  else ∀ n : ℤ, (∃ row ∈ s.activeRows, row.ordinal = n) ↔ 0 ≤ n ∧ n < target.val

/-- When `scale_process` converges, or does not report that it has. -/
def ScaleConverges (s : SlotState) (target : U16) (operationId : Uuid) (r : ScaleReplies) : Prop :=
  match s.operations.find? fun operation => operation.operationId = operationId with
  | some replay => replay.phase = "completed" → s.Converged replay target
  | none => s.PerformConverges target r

variable {s t : SlotState} {r : ScaleReplies} {operation result : ProcessOperation}
  {slots : List ProcessInstance} {target : U16}

/-- What the loop of a scale-down leaves as it is. -/
theorem scaleDown_frame :
    (scaleDown r slots operation s).2.spec = s.spec ∧
    (scaleDown r slots operation s).1.newInstanceIds = operation.newInstanceIds ∧
    operation.outcomes <+: (scaleDown r slots operation s).1.outcomes := by
  induction slots generalizing operation s with
  | nil => exact ⟨rfl, rfl, List.prefix_refl _⟩
  | cons slot slots ih =>
    unfold scaleDown
    split
    · obtain ⟨hspec, hnew, houtcomes⟩ := ih
      exact ⟨hspec, hnew, (List.prefix_append ..).trans houtcomes⟩
    · rename_i entry _
      cases (r.stop slot.id).error with
      | some error => exact ⟨rfl, rfl, List.prefix_append ..⟩
      | none =>
        cases r.retire slot.id with
        | some error => exact ⟨rfl, rfl, List.prefix_append ..⟩
        | none =>
          obtain ⟨hspec, hnew, houtcomes⟩ := ih
          exact ⟨hspec, hnew, (List.prefix_append ..).trans houtcomes⟩

/-- The loop of a scale-down reports a failure if and only if a slot with a child is not stopped or
not retired. -/
theorem scaleDown_failed (hids : (slots.map ProcessInstance.id).Nodup)
    (hold : ∀ outcome ∈ operation.outcomes, outcome.state ≠ .failed) :
    (∃ outcome ∈ (scaleDown r slots operation s).1.outcomes, outcome.state = .failed) ↔
      ∃ slot ∈ slots, (s.runtime.runtimeEntry slot.id).isSome = true ∧ DrainFails r slot.id := by
  induction slots generalizing operation s with
  | nil =>
    constructor
    · rintro ⟨outcome, houtcome, hfailed⟩
      exact absurd hfailed (hold outcome houtcome)
    · rintro ⟨slot, hslot, -⟩
      exact absurd hslot List.not_mem_nil
  | cons slot slots ih =>
    obtain ⟨hfirst, hrest⟩ := List.nodup_cons.mp hids
    have hold' {outcome : ProcessOperationInstanceOutcome} (hstate : outcome.state ≠ .failed) :
        ∀ outcome' ∈ operation.outcomes ++ [outcome], outcome'.state ≠ .failed := by
      intro outcome' houtcome'
      rcases List.mem_append.mp houtcome' with h | h
      · exact hold outcome' h
      · rw [List.mem_singleton.mp h]
        exact hstate
    have hlast {outcome : ProcessOperationInstanceOutcome} (hstate : outcome.state = .failed) :
        ∃ outcome' ∈ operation.outcomes ++ [outcome], outcome'.state = .failed :=
      ⟨outcome, List.mem_append_right _ List.mem_cons_self, hstate⟩
    unfold scaleDown
    split
    · rename_i hnone
      refine (ih hrest (hold' ProcessOperationInstanceState.noConfusion)).trans ⟨?_, ?_⟩
      · rintro ⟨slot', hslot', hfails⟩
        exact ⟨slot', List.mem_cons_of_mem _ hslot', hfails⟩
      · rintro ⟨slot', hslot', hsome, hfails⟩
        rcases List.mem_cons.mp hslot' with rfl | hslot'
        · rw [hnone] at hsome
          cases hsome
        · exact ⟨slot', hslot', hsome, hfails⟩
    · rename_i entry hentry
      have hsome : (s.runtime.runtimeEntry slot.id).isSome = true := by
        rw [hentry]
        rfl
      cases hstop : (r.stop slot.id).error with
      | some error =>
        refine iff_of_true (hlast rfl) ⟨slot, List.mem_cons_self, hsome, .inl ?_⟩
        rw [hstop]
        rfl
      | none =>
        cases hretire : r.retire slot.id with
        | some error =>
          refine iff_of_true (hlast rfl) ⟨slot, List.mem_cons_self, hsome, .inr ?_⟩
          rw [hretire]
          rfl
        | none =>
          have hok : ¬DrainFails r slot.id := by
            unfold DrainFails
            rw [hstop, hretire]
            exact fun h => h.elim nofun nofun
          have hid : entry.id = slot.id := KeyedRows.find_key hentry
          have hentries {slot' : ProcessInstance} (hslot' : slot' ∈ slots) :
              ((s.stopProcessInstance entry (r.stop slot.id)).runtime.runtimeEntry slot'.id) =
                s.runtime.runtimeEntry slot'.id := by
            refine runtimeEntry_stopInstance fun heq => hfirst ?_
            rw [← hid, ← heq]
            exact List.mem_map_of_mem hslot'
          refine (ih hrest (hold' ProcessOperationInstanceState.noConfusion)).trans ⟨?_, ?_⟩
          · rintro ⟨slot', hslot', hsome', hfails⟩
            exact ⟨slot', List.mem_cons_of_mem _ hslot', (hentries hslot') ▸ hsome', hfails⟩
          · rintro ⟨slot', hslot', hsome', hfails⟩
            rcases List.mem_cons.mp hslot' with rfl | hslot'
            · exact absurd hfails hok
            · exact ⟨slot', hslot', (hentries hslot').symm ▸ hsome', hfails⟩

/-- Every slot is completed if and only if all have a child, and are stopped and retired. -/
theorem scaleDown_completed (hids : (slots.map ProcessInstance.id).Nodup)
    (hold : ∀ outcome ∈ operation.outcomes, outcome.state = .completed) :
    (∀ outcome ∈ (scaleDown r slots operation s).1.outcomes, outcome.state = .completed) ↔
      ∀ slot ∈ slots, (s.runtime.runtimeEntry slot.id).isSome = true ∧ ¬DrainFails r slot.id := by
  induction slots generalizing operation s with
  | nil => exact iff_of_true hold fun slot hslot => absurd hslot List.not_mem_nil
  | cons slot slots ih =>
    obtain ⟨hfirst, hrest⟩ := List.nodup_cons.mp hids
    have hnot {outcome : ProcessOperationInstanceOutcome}
        {outcomes : List ProcessOperationInstanceOutcome}
        (hbegins : operation.outcomes ++ [outcome] <+: outcomes)
        (hstate : outcome.state ≠ .completed) :
        ¬∀ outcome ∈ outcomes, outcome.state = .completed := fun hall =>
      hstate (hall outcome (hbegins.subset (List.mem_append_right _ List.mem_cons_self)))
    unfold scaleDown
    split
    · rename_i hnone
      have hkept : (operation.leave slot .notAttempted (some "instance_not_running") true).outcomes
          <+: (scaleDown r slots _ s).1.outcomes := scaleDown_frame.2.2
      refine iff_of_false (hnot hkept ProcessOperationInstanceState.noConfusion) ?_
      intro hall
      have hsome := (hall slot List.mem_cons_self).1
      rw [hnone] at hsome
      cases hsome
    · rename_i entry hentry
      cases hstop : (r.stop slot.id).error with
      | some error =>
        refine iff_of_false (hnot (List.prefix_refl _) ProcessOperationInstanceState.noConfusion) ?_
        intro hall
        refine (hall slot List.mem_cons_self).2 (.inl ?_)
        rw [hstop]
        rfl
      | none =>
        cases hretire : r.retire slot.id with
        | some error =>
          refine iff_of_false
            (hnot (List.prefix_refl _) ProcessOperationInstanceState.noConfusion) ?_
          intro hall
          refine (hall slot List.mem_cons_self).2 (.inr ?_)
          rw [hretire]
          rfl
        | none =>
          have hok : ¬DrainFails r slot.id := by
            unfold DrainFails
            rw [hstop, hretire]
            exact fun h => h.elim nofun nofun
          have hid : entry.id = slot.id := KeyedRows.find_key hentry
          have hentries {slot' : ProcessInstance} (hslot' : slot' ∈ slots) :
              ((s.stopProcessInstance entry (r.stop slot.id)).runtime.runtimeEntry slot'.id) =
                s.runtime.runtimeEntry slot'.id := by
            refine runtimeEntry_stopInstance fun heq => hfirst ?_
            rw [← hid, ← heq]
            exact List.mem_map_of_mem hslot'
          have hold' : ∀ outcome ∈ operation.outcomes ++
              [⟨slot.id, slot.ordinal, .completed, none, false⟩],
              outcome.state = ProcessOperationInstanceState.completed := by
            intro outcome houtcome
            rcases List.mem_append.mp houtcome with h | h
            · exact hold outcome h
            · rw [List.mem_singleton.mp h]
          refine (ih hrest hold').trans ⟨?_, ?_⟩
          · intro hall slot' hslot'
            rcases List.mem_cons.mp hslot' with rfl | hslot'
            · rw [hentry]
              exact ⟨rfl, hok⟩
            · have hslot := hall slot' hslot'
              exact ⟨(hentries hslot') ▸ hslot.1, hslot.2⟩
          · intro hall slot' hslot'
            have hslot := hall slot' (List.mem_cons_of_mem _ hslot')
            exact ⟨(hentries hslot').symm ▸ hslot.1, hslot.2⟩

/-- A scale-down that completes retires its slots. -/
theorem scaleDown_rows (hids : (slots.map ProcessInstance.id).Nodup)
    (hall : ∀ slot ∈ slots, (s.runtime.runtimeEntry slot.id).isSome = true ∧ ¬DrainFails r slot.id) :
    (scaleDown r slots operation s).2.activeRows =
      s.activeRows.filter fun row => row.instanceId ∉ slots.map ProcessInstance.id := by
  induction slots generalizing operation s with
  | nil => exact (List.filter_eq_self.mpr fun row _ => decide_eq_true List.not_mem_nil).symm
  | cons slot slots ih =>
    obtain ⟨hfirst, hrest⟩ := List.nodup_cons.mp hids
    obtain ⟨hsome, hok⟩ := hall slot List.mem_cons_self
    obtain ⟨entry, hentry⟩ := Option.isSome_iff_exists.mp hsome
    have hid : entry.id = slot.id := KeyedRows.find_key hentry
    unfold DrainFails at hok
    rw [not_or, Bool.not_eq_true, Bool.not_eq_true, Option.isSome_eq_false_iff,
      Option.isNone_iff_eq_none, Option.isSome_eq_false_iff, Option.isNone_iff_eq_none] at hok
    have hrows : ((s.stopProcessInstance entry (r.stop slot.id)).retireProcessInstance
        slot.id).activeRows = s.activeRows.filter fun row => row.instanceId ≠ slot.id :=
      ProcessTables.activeRows_retired
    unfold scaleDown
    simp only [hentry, hok.1, hok.2]
    rw [ih hrest, hrows, List.filter_filter]
    · apply List.filter_congr
      intro row _
      simp only [List.map_cons, List.mem_cons, not_or, decide_not, Bool.decide_and]
      exact Bool.and_comm ..
    · intro slot' hslot'
      have hslot := hall slot' (List.mem_cons_of_mem _ hslot')
      refine ⟨?_, hslot.2⟩
      have hne : slot'.id ≠ entry.id := by
        intro heq
        refine hfirst ?_
        rw [← hid, ← heq]
        exact List.mem_map_of_mem hslot'
      change ((RollingState.stopInstance s.runtime entry _).runtimeEntry slot'.id).isSome = true
      rw [runtimeEntry_stopInstance hne]
      exact hslot.1

variable {wasRunning : Bool}

theorem scaleUp_frame :
    (scaleUp r wasRunning slots operation s).2.spec = s.spec ∧
    (scaleUp r wasRunning slots operation s).2.activeRows = s.activeRows ∧
    (scaleUp r wasRunning slots operation s).1.newInstanceIds =
      operation.newInstanceIds ++ slots.map ProcessInstance.id := by
  induction slots generalizing operation s with
  | nil => exact ⟨rfl, rfl, (List.append_nil _).symm⟩
  | cons slot slots ih =>
    have hspawn (outcome : SpawnOutcome) :
        (s.spawnProcessInstance slot outcome).spec = s.spec ∧
        (s.spawnProcessInstance slot outcome).activeRows = s.activeRows := by
      cases outcome <;> exact ⟨rfl, rfl⟩
    have hnew (state : ProcessOperationInstanceState) (failedStage : Option String)
        (retryable : Bool) :
        (operation.enter slot state failedStage retryable).newInstanceIds ++
          slots.map ProcessInstance.id =
        operation.newInstanceIds ++ (slot :: slots).map ProcessInstance.id := by
      rw [List.map_cons]
      exact List.append_assoc ..
    unfold scaleUp
    split
    · obtain ⟨hspec, hrows⟩ := hspawn (r.spawn slot.id)
      cases (r.spawn slot.id).error with
      | some error =>
        refine ⟨ih.1.trans hspec, ih.2.1.trans hrows, ih.2.2.trans (hnew ..)⟩
      | none =>
        refine ⟨ih.1.trans hspec, ih.2.1.trans hrows, ih.2.2.trans (hnew ..)⟩
    · exact ⟨ih.1, ih.2.1, ih.2.2.trans (hnew ..)⟩

/-- The loop of a scale-up reports a failure if and only if a slot is not spawned. -/
theorem scaleUp_failed (hold : ∀ outcome ∈ operation.outcomes, outcome.state ≠ .failed) :
    (∃ outcome ∈ (scaleUp r true slots operation s).1.outcomes, outcome.state = .failed) ↔
      ∃ slot ∈ slots, (r.spawn slot.id).error.isSome = true := by
  have hmore {operation' : ProcessOperation} {t : SlotState} {slots' : List ProcessInstance} :
      operation'.outcomes <+: (scaleUp r true slots' operation' t).1.outcomes := by
    induction slots' generalizing operation' t with
    | nil => exact List.prefix_refl _
    | cons slot slots' ih =>
      unfold scaleUp
      simp only [if_true]
      cases (r.spawn slot.id).error with
      | some error =>
        refine List.IsPrefix.trans ?_ ih
        exact List.prefix_append ..
      | none =>
        refine List.IsPrefix.trans ?_ ih
        exact List.prefix_append ..
  induction slots generalizing operation s with
  | nil =>
    constructor
    · rintro ⟨outcome, houtcome, hfailed⟩
      exact absurd hfailed (hold outcome houtcome)
    · rintro ⟨slot, hslot, -⟩
      exact absurd hslot List.not_mem_nil
  | cons slot slots ih =>
    unfold scaleUp
    simp only [if_true]
    cases hspawn : (r.spawn slot.id).error with
    | some error =>
      have hkept : (operation.enter slot .failed (some ("spawn: " ++ error)) true).outcomes <+:
          (scaleUp r true slots _ (s.spawnProcessInstance slot (r.spawn slot.id))).1.outcomes :=
        hmore
      refine iff_of_true ⟨_, hkept.subset (List.mem_append_right _ List.mem_cons_self), rfl⟩
        ⟨slot, List.mem_cons_self, ?_⟩
      rw [hspawn]
      rfl
    | none =>
      have hold' : ∀ outcome ∈ (operation.enter slot .completed none false).outcomes,
          outcome.state ≠ .failed := by
        intro outcome houtcome
        rcases List.mem_append.mp houtcome with h | h
        · exact hold outcome h
        · rw [List.mem_singleton.mp h]
          exact ProcessOperationInstanceState.noConfusion
      refine (ih hold').trans ⟨?_, ?_⟩
      · rintro ⟨slot', hslot', hfails⟩
        exact ⟨slot', List.mem_cons_of_mem _ hslot', hfails⟩
      · rintro ⟨slot', hslot', hfails⟩
        rcases List.mem_cons.mp hslot' with rfl | hslot'
        · rw [hspawn] at hfails
          cases hfails
        · exact ⟨slot', hslot', hfails⟩

/-- All slots are spawned. -/
theorem scaleUp_live (hall : ∀ slot ∈ slots, (r.spawn slot.id).error = none)
    {id : ProcessInstanceId} :
    (scaleUp r true slots operation s).2.IsLive id ↔
      s.IsLive id ∨ id ∈ slots.map ProcessInstance.id := by
  induction slots generalizing operation s with
  | nil => exact ⟨.inl, fun h => h.resolve_right List.not_mem_nil⟩
  | cons slot slots ih =>
    have hspawned : (s.spawnProcessInstance slot (r.spawn slot.id)).IsLive id ↔
        s.IsLive id ∨ id = slot.id := by
      have hnone := hall slot List.mem_cons_self
      cases houtcome : r.spawn slot.id with
      | spawned handle =>
        change (∃ child ∈ s.children ++ [⟨slot.id, handle⟩], child.instanceId = id) ↔ _
        constructor
        · rintro ⟨child, hchild, hid⟩
          rcases List.mem_append.mp hchild with h | h
          · exact .inl ⟨child, h, hid⟩
          · rw [List.mem_singleton.mp h] at hid
            exact .inr hid.symm
        · rintro (⟨child, hchild, hid⟩ | hid)
          · exact ⟨child, List.mem_append_left _ hchild, hid⟩
          · exact ⟨_, List.mem_append_right _ List.mem_cons_self, hid.symm⟩
      | notSpawned error left =>
        rw [houtcome] at hnone
        cases hnone
      | notGuarded error left =>
        rw [houtcome] at hnone
        cases hnone
    unfold scaleUp
    simp only [if_true, hall slot List.mem_cons_self]
    rw [ih fun slot' hslot' => hall slot' (List.mem_cons_of_mem _ hslot'), hspawned, List.map_cons,
      List.mem_cons, or_assoc]

/-- Nothing is done while the process is stopped. -/
theorem scaleUp_stopped (hold : ∀ outcome ∈ operation.outcomes, outcome.state ≠ .failed) :
    (scaleUp r false slots operation s).2 = s ∧
    ∀ outcome ∈ (scaleUp r false slots operation s).1.outcomes, outcome.state ≠ .failed := by
  induction slots generalizing operation s with
  | nil => exact ⟨rfl, hold⟩
  | cons slot slots ih =>
    unfold scaleUp
    simp only [Bool.false_eq_true, if_false]
    refine ih fun outcome houtcome => ?_
    rcases List.mem_append.mp houtcome with h | h
    · exact hold outcome h
    · rw [List.mem_singleton.mp h]
      exact ProcessOperationInstanceState.noConfusion

theorem finishScale_ok (h : finishScale r operation s = (.ok result, t)) :
    (result.phase = "completed" ↔ ∀ outcome ∈ operation.outcomes, outcome.state ≠ .failed) ∧
    result.newInstanceIds = operation.newInstanceIds ∧
    t.spec = s.spec ∧ t.activeRows = s.activeRows ∧ t.children = s.children := by
  unfold finishScale at h
  cases hrecord : r.record with
  | some error =>
    rw [hrecord] at h
    cases (Prod.mk.inj h).1
  | none =>
    rw [hrecord] at h
    obtain ⟨hresult, rfl⟩ := Prod.mk.inj h
    obtain rfl := Except.ok.inj hresult
    refine ⟨?_, rfl, rfl, rfl, rfl⟩
    change (if _ then "partial" else "completed") = "completed" ↔ _
    split
    · rename_i hany
      obtain ⟨outcome, houtcome, hstate⟩ := List.any_eq_true.mp hany
      exact iff_of_false (by decide) fun hall => hall outcome houtcome (of_decide_eq_true hstate)
    · rename_i hany
      refine iff_of_true rfl fun outcome houtcome hstate => hany ?_
      exact List.any_eq_true.mpr ⟨outcome, houtcome, decide_eq_true hstate⟩

/-- The slots from an ordinal on. -/
theorem exists_slot_iff (hlist : s.tables.listProcessInstances s.spec.definitionId = .ok slots)
    (m : U16) (p : ProcessInstanceId → Prop) :
    (∃ slot ∈ slots.filter fun slot => m ≤ slot.ordinal, p slot.id) ↔
      ∃ row ∈ s.activeRows, (m.val : ℤ) ≤ row.ordinal ∧ p row.instanceId := by
  obtain ⟨-, hslots, hrows⟩ := ProcessTables.listProcessInstances_ok hlist
  constructor
  · rintro ⟨slot, hslot, hp⟩
    obtain ⟨hslot, hm⟩ := List.mem_filter.mp hslot
    obtain ⟨row, hrow, hok⟩ := hslots slot hslot
    obtain ⟨hid, -, hordinal, -⟩ := ProcessTables.instanceOf_ok hok
    have hle : m.val ≤ slot.ordinal.val := of_decide_eq_true hm
    exact ⟨row, hrow, by omega, hid ▸ hp⟩
  · rintro ⟨row, hrow, hm, hp⟩
    obtain ⟨slot, hslot, hok⟩ := hrows row hrow
    obtain ⟨hid, -, hordinal, -⟩ := ProcessTables.instanceOf_ok hok
    have hle : m.val ≤ slot.ordinal.val := by omega
    exact ⟨slot, List.mem_filter.mpr ⟨hslot, decide_eq_true hle⟩, hid ▸ hp⟩

theorem ordinal_nonneg (hlist : s.tables.listProcessInstances s.spec.definitionId = .ok slots)
    {row : ProcessInstanceRow} (hrow : row ∈ s.activeRows) : 0 ≤ row.ordinal := by
  obtain ⟨-, -, hrows⟩ := ProcessTables.listProcessInstances_ok hlist
  obtain ⟨slot, -, hok⟩ := hrows row hrow
  obtain ⟨-, -, hordinal, -⟩ := ProcessTables.instanceOf_ok hok
  omega

/-- The rows after `save_spec`. -/
theorem saveInstances_ok {saved : SlotState} (h : s.saveInstances r target = .ok saved) :
    saved.spec.instances = target ∧ saved.spec.definitionId = s.spec.definitionId ∧
    saved.children = s.children ∧
    ∀ row, row ∈ saved.activeRows ↔ row ∈ s.activeRows ∨
      ∃ k < target.val, (∀ row ∈ s.activeRows, row.ordinal ≠ k) ∧ row =
        { instanceId := r.newId k, definitionId := s.spec.definitionId, ordinal := k } := by
  unfold saveInstances RepoError.orElse at h
  cases hsave : r.save with
  | some error =>
    rw [hsave] at h
    cases h
  | none =>
    rw [hsave] at h
    change Except.map _ (s.tables.syncProcessInstances s.spec.definitionId r.newId target.val) =
      .ok saved at h
    cases hsync : s.tables.syncProcessInstances s.spec.definitionId r.newId target.val with
    | error error =>
      rw [hsync] at h
      cases h
    | ok tables =>
      rw [hsync] at h
      obtain rfl := Except.ok.inj h
      exact ⟨rfl, rfl, rfl, fun row => ProcessTables.syncProcessInstances_ok hsync⟩

/-- A scale-down that is not partial has retired its slots, or has left the definition alone. -/
theorem scaleDown_converges_iff
    (hlist : s.tables.listProcessInstances s.spec.definitionId = .ok slots)
    (hlt : target < s.spec.instances) (hnone : operation.outcomes = [])
    (hids : operation.newInstanceIds = []) {u : SlotState} {scaled : ProcessOperation}
    (hscaled : scaleDown r (slots.filter fun slot => target ≤ slot.ordinal).reverse operation s =
      (scaled, u))
    (hresult : if scaled.outcomes.all (fun outcome => outcome.state = .completed) then
        ∃ saved, u.saveInstances r target = .ok saved ∧
          finishScale r scaled saved = (.ok result, t)
      else finishScale r scaled u = (.ok result, t)) :
    (result.phase = "completed" → t.Converged result target) ↔
      (∃ row ∈ s.activeRows, (target.val : ℤ) ≤ row.ordinal ∧
        (s.runtime.runtimeEntry row.instanceId).isSome = true ∧ DrainFails r row.instanceId) ∨
      ∀ row ∈ s.activeRows, (target.val : ℤ) ≤ row.ordinal →
        (s.runtime.runtimeEntry row.instanceId).isSome = true := by
  let surplus := (slots.filter fun slot => target ≤ slot.ordinal).reverse
  have hunique : (surplus.map ProcessInstance.id).Nodup := by
    have hslots := (ProcessTables.listProcessInstances_ok hlist).1
    rw [List.map_reverse, List.nodup_reverse]
    exact hslots.sublist (List.filter_sublist.map _)
  have hscaled1 : (scaleDown r surplus operation s).1 = scaled := congrArg Prod.fst hscaled
  have hscaled2 : (scaleDown r surplus operation s).2 = u := congrArg Prod.snd hscaled
  have hexists (p : ProcessInstanceId → Prop) : (∃ slot ∈ surplus, p slot.id) ↔
      ∃ row ∈ s.activeRows, (target.val : ℤ) ≤ row.ordinal ∧ p row.instanceId := by
    rw [← exists_slot_iff hlist]
    simp only [surplus, List.mem_reverse]
  have hfailed : (∃ outcome ∈ scaled.outcomes, outcome.state = .failed) ↔
      ∃ slot ∈ surplus, (s.runtime.runtimeEntry slot.id).isSome = true ∧ DrainFails r slot.id := by
    rw [← hscaled1]
    refine scaleDown_failed hunique ?_
    rw [hnone]
    exact fun _ h => absurd h List.not_mem_nil
  have hcompleted : (∀ outcome ∈ scaled.outcomes, outcome.state = .completed) ↔
      ∀ slot ∈ surplus, (s.runtime.runtimeEntry slot.id).isSome = true ∧
        ¬DrainFails r slot.id := by
    rw [← hscaled1]
    refine scaleDown_completed hunique ?_
    rw [hnone]
    exact fun _ h => absurd h List.not_mem_nil
  have hframe : u.spec = s.spec ∧ scaled.newInstanceIds = operation.newInstanceIds := by
    rw [← hscaled1, ← hscaled2]
    exact ⟨scaleDown_frame.1, scaleDown_frame.2.1⟩
  have hdrains : (∃ slot ∈ surplus, (s.runtime.runtimeEntry slot.id).isSome = true ∧
      DrainFails r slot.id) ↔ ∃ row ∈ s.activeRows, (target.val : ℤ) ≤ row.ordinal ∧
        (s.runtime.runtimeEntry row.instanceId).isSome = true ∧ DrainFails r row.instanceId :=
    hexists fun id => (s.runtime.runtimeEntry id).isSome = true ∧ DrainFails r id
  rw [← hdrains, ← hfailed]
  by_cases hall : ∀ outcome ∈ scaled.outcomes, outcome.state = .completed
  · have hentries := hcompleted.mp hall
    rw [if_pos (List.all_eq_true.mpr fun outcome h => decide_eq_true (hall outcome h))] at hresult
    obtain ⟨saved, hsaved, hfinish⟩ := hresult
    obtain ⟨-, hnew, hspec, hrows, -⟩ := finishScale_ok hfinish
    obtain ⟨hinstances, -, -, hsavedRows⟩ := saveInstances_ok hsaved
    have hkept : u.activeRows =
        s.activeRows.filter fun row => row.instanceId ∉ surplus.map ProcessInstance.id := by
      rw [← hscaled2]
      exact scaleDown_rows hunique hentries
    refine iff_of_true (fun _ => ⟨?_, ?_, ?_⟩) (.inr ?_)
    · rw [hspec, hinstances]
    · intro n
      rw [hrows]
      constructor
      · rintro ⟨row, hrow, rfl⟩
        rcases (hsavedRows row).mp hrow with hold | ⟨k, hk, -, rfl⟩
        · rw [hkept] at hold
          obtain ⟨hold, hnot⟩ := List.mem_filter.mp hold
          refine ⟨ordinal_nonneg hlist hold, ?_⟩
          by_contra hge
          -- a row beyond the target is a slot that is left
          obtain ⟨slot, hslot, hid⟩ := (hexists fun id => id = row.instanceId).mpr
            ⟨row, hold, Int.not_lt.mp hge, rfl⟩
          exact of_decide_eq_true hnot (List.mem_map.mpr ⟨slot, hslot, hid⟩)
        · change 0 ≤ (k : ℤ) ∧ (k : ℤ) < target.val
          omega
      · rintro ⟨hzero, hbelow⟩
        by_cases hthere : ∃ row ∈ u.activeRows, row.ordinal = n
        · obtain ⟨row, hrow, hordinal⟩ := hthere
          exact ⟨row, (hsavedRows row).mpr (.inl hrow), hordinal⟩
        · obtain ⟨k, rfl⟩ := Int.eq_ofNat_of_zero_le hzero
          refine ⟨_, (hsavedRows _).mpr (.inr ⟨k, by omega, ?_, rfl⟩), rfl⟩
          exact fun row hrow hordinal => hthere ⟨row, hrow, hordinal⟩
    · intro hne
      rw [hnew, hframe.2, hids] at hne
      exact absurd rfl hne
    · intro row hrow hle
      obtain ⟨slot, hslot, hid⟩ := (hexists fun id => id = row.instanceId).mpr
        ⟨row, hrow, hle, rfl⟩
      exact hid ▸ (hentries slot hslot).1
  · rw [if_neg fun h => hall fun outcome houtcome =>
      of_decide_eq_true (List.all_eq_true.mp h outcome houtcome)] at hresult
    obtain ⟨hphase, -, hspec, -, -⟩ := finishScale_ok hresult
    by_cases hfail : ∃ outcome ∈ scaled.outcomes, outcome.state = .failed
    · refine iff_of_true (fun hdone => ?_) (.inl hfail)
      obtain ⟨outcome, houtcome, hstate⟩ := hfail
      exact absurd hstate (hphase.mp hdone outcome houtcome)
    · -- a slot that is left has no child: the definition keeps its number
      have hdone : result.phase = "completed" :=
        hphase.mpr fun outcome houtcome hstate => hfail ⟨outcome, houtcome, hstate⟩
      refine iff_of_false (fun hconverged => ?_) ?_
      · have hinstances := (hconverged hdone).instances
        rw [hspec, hframe.1] at hinstances
        exact absurd hinstances (ne_of_gt hlt)
      · rintro (h | hentries)
        · exact hfail h
        · refine hall (hcompleted.mpr fun slot hslot => ⟨?_, fun hdrain => ?_⟩)
          · obtain ⟨row, hrow, hle, hid⟩ := (hexists fun id => id = slot.id).mp ⟨slot, hslot, rfl⟩
            exact hid ▸ hentries row hrow hle
          · obtain ⟨row, hrow, hle, hid⟩ := (hexists fun id => id = slot.id).mp ⟨slot, hslot, rfl⟩
            exact hfail (hfailed.mpr ⟨slot, hslot, hid ▸ hentries row hrow hle, hdrain⟩)

/-- A scale-up that is not partial has live slots if and only if it has spawned those that were not
live before. -/
theorem scaleUp_converges_iff {saved u : SlotState} {scaled : ProcessOperation}
    (hlt : s.spec.instances < target) (hnone : operation.outcomes = [])
    (hids : operation.newInstanceIds = []) (hsaved : s.saveInstances r target = .ok saved)
    {savedSlots : List ProcessInstance}
    (hlistSaved : saved.tables.listProcessInstances saved.spec.definitionId = .ok savedSlots)
    (hscaled : scaleUp r (!s.runtime.isEmpty)
      (savedSlots.filter fun slot => s.spec.instances ≤ slot.ordinal) operation saved = (scaled, u))
    (hfinish : finishScale r scaled u = (.ok result, t)) (hnew : ∀ n, ¬s.IsLive (r.newId n)) :
    (result.phase = "completed" → t.Converged result target) ↔
      (s.runtime ≠ [] ∧ s.SpawnFails target r) ∨
      (∀ row ∈ s.activeRows, row.ordinal < target.val ∧
        (s.IsLive row.instanceId ∨ s.runtime ≠ [] ∧ (s.spec.instances.val : ℤ) ≤ row.ordinal)) ∧
      ∀ n < target.val, (∃ row ∈ s.activeRows, row.ordinal = n) ∨
        s.runtime ≠ [] ∧ s.spec.instances.val ≤ n := by
  let added := savedSlots.filter fun slot => s.spec.instances ≤ slot.ordinal
  have hscaled1 : (scaleUp r (!s.runtime.isEmpty) added operation saved).1 = scaled :=
    congrArg Prod.fst hscaled
  have hscaled2 : (scaleUp r (!s.runtime.isEmpty) added operation saved).2 = u :=
    congrArg Prod.snd hscaled
  obtain ⟨hinstances, hdefinition, hchildren, hsavedRows⟩ := saveInstances_ok hsaved
  obtain ⟨hphase, hnewIds, hspec, hrows, hlive⟩ := finishScale_ok hfinish
  have hframe : u.spec = saved.spec ∧ u.activeRows = saved.activeRows ∧
      scaled.newInstanceIds = added.map ProcessInstance.id := by
    rw [← hscaled1, ← hscaled2]
    refine ⟨scaleUp_frame.1, scaleUp_frame.2.1, ?_⟩
    rw [scaleUp_frame.2.2, hids, List.nil_append]
  have hexists (p : ProcessInstanceId → Prop) : (∃ slot ∈ added, p slot.id) ↔
      ∃ row ∈ saved.activeRows, (s.spec.instances.val : ℤ) ≤ row.ordinal ∧ p row.instanceId :=
    exists_slot_iff hlistSaved _ p
  -- there are slots that are added
  have hadded : result.newInstanceIds ≠ [] := by
    obtain ⟨row, hrow, hordinal⟩ : ∃ row ∈ saved.activeRows,
        row.ordinal = s.spec.instances.val := by
      by_cases hthere : ∃ row ∈ s.activeRows, row.ordinal = s.spec.instances.val
      · obtain ⟨row, hrow, hordinal⟩ := hthere
        exact ⟨row, (hsavedRows row).mpr (.inl hrow), hordinal⟩
      · exact ⟨_, (hsavedRows _).mpr (.inr ⟨s.spec.instances.val, hlt,
          fun row hrow hordinal => hthere ⟨row, hrow, hordinal⟩, rfl⟩), rfl⟩
    obtain ⟨slot, hslot, -⟩ := (hexists fun _ => True).mpr ⟨row, hrow, hordinal.ge, trivial⟩
    rw [hnewIds, hframe.2.2]
    exact List.ne_nil_of_mem (List.mem_map_of_mem hslot)
  have hordinals : (∀ n : ℤ, (∃ row ∈ t.activeRows, row.ordinal = n) ↔
      0 ≤ n ∧ n < target.val) ↔ ∀ row ∈ s.activeRows, row.ordinal < target.val := by
    rw [hrows, hframe.2.1]
    constructor
    · intro hall row hrow
      exact ((hall row.ordinal).mp ⟨row, (hsavedRows row).mpr (.inl hrow), rfl⟩).2
    · intro hbelow n
      constructor
      · rintro ⟨row, hrow, rfl⟩
        refine ⟨ordinal_nonneg hlistSaved hrow, ?_⟩
        rcases (hsavedRows row).mp hrow with hold | ⟨k, hk, -, rfl⟩
        · exact hbelow row hold
        · exact Int.ofNat_lt.mpr hk
      · rintro ⟨hzero, hn⟩
        obtain ⟨k, rfl⟩ := Int.eq_ofNat_of_zero_le hzero
        by_cases hthere : ∃ row ∈ s.activeRows, row.ordinal = k
        · obtain ⟨row, hrow, hordinal⟩ := hthere
          exact ⟨row, (hsavedRows row).mpr (.inl hrow), hordinal⟩
        · exact ⟨_, (hsavedRows _).mpr (.inr ⟨k, Int.ofNat_lt.mp hn,
            fun row hrow hordinal => hthere ⟨row, hrow, hordinal⟩, rfl⟩), rfl⟩
  have hconverged : t.Converged result target ↔
      (∀ row ∈ s.activeRows, row.ordinal < target.val) ∧
      ∀ row ∈ saved.activeRows, u.IsLive row.instanceId := by
    have hliveRows : (∀ row ∈ t.activeRows, t.IsLive row.instanceId) ↔
        ∀ row ∈ saved.activeRows, u.IsLive row.instanceId := by
      unfold IsLive
      rw [hrows, hframe.2.1, hlive]
    rw [← hordinals, ← hliveRows]
    constructor
    · intro h
      exact ⟨h.ordinals, h.live hadded⟩
    · rintro ⟨hall, hliveAll⟩
      exact ⟨by rw [hspec, hframe.1, hinstances], hall, fun _ => hliveAll⟩
  have hspawns : (∃ slot ∈ added, (r.spawn slot.id).error.isSome = true) ↔ s.SpawnFails target r := by
    rw [hexists fun id => (r.spawn id).error.isSome = true]
    constructor
    · rintro ⟨row, hrow, hle, hfails⟩
      rcases (hsavedRows row).mp hrow with hold | ⟨k, hk, hnot, rfl⟩
      · exact .inl ⟨row, hold, hle, hfails⟩
      · exact .inr ⟨k, Int.ofNat_le.mp hle, hk, hnot, hfails⟩
    · rintro (⟨row, hrow, hle, hfails⟩ | ⟨k, hle, hk, hnot, hfails⟩)
      · exact ⟨row, (hsavedRows row).mpr (.inl hrow), hle, hfails⟩
      · exact ⟨_, (hsavedRows _).mpr (.inr ⟨k, hk, hnot, rfl⟩), Int.ofNat_le.mpr hle, hfails⟩
  have hsame (id : ProcessInstanceId) : saved.IsLive id ↔ s.IsLive id := by
    unfold IsLive
    rw [hchildren]
  have hempty : ∀ outcome ∈ operation.outcomes, outcome.state ≠ .failed := by
    rw [hnone]
    exact fun _ h => absurd h List.not_mem_nil
  by_cases hfails : s.runtime ≠ [] ∧ s.SpawnFails target r
  · refine iff_of_true (fun hdone => ?_) (.inl hfails)
    have hrunning : (!s.runtime.isEmpty) = true := by
      rw [Bool.not_eq_true', List.isEmpty_eq_false_iff]
      exact hfails.1
    obtain ⟨outcome, houtcome, hstate⟩ : ∃ outcome ∈ scaled.outcomes, outcome.state = .failed := by
      rw [← hscaled1, hrunning]
      exact (scaleUp_failed hempty).mpr (hspawns.mpr hfails.2)
    exact absurd hstate (hphase.mp hdone outcome houtcome)
  · have hlives : result.phase = "completed" ∧ ∀ row ∈ saved.activeRows,
        (u.IsLive row.instanceId ↔ s.IsLive row.instanceId ∨
          s.runtime ≠ [] ∧ (s.spec.instances.val : ℤ) ≤ row.ordinal) := by
      by_cases hrun : s.runtime = []
      · have hstopped : (!s.runtime.isEmpty) = false := by
          rw [hrun]
          rfl
        rw [hstopped] at hscaled1 hscaled2
        refine ⟨hphase.mpr ?_, fun row _ => ?_⟩
        · rw [← hscaled1]
          exact (scaleUp_stopped hempty).2
        rw [← hscaled2, (scaleUp_stopped hempty).1, hsame]
        exact ⟨.inl, fun h => h.resolve_right fun h' => h'.1 hrun⟩
      · have hrunning : (!s.runtime.isEmpty) = true := by
          rw [Bool.not_eq_true', List.isEmpty_eq_false_iff]
          exact hrun
        rw [hrunning] at hscaled1 hscaled2
        have hnot : ¬∃ slot ∈ added, (r.spawn slot.id).error.isSome = true := fun h =>
          hfails ⟨hrun, hspawns.mp h⟩
        have hoks : ∀ slot ∈ added, (r.spawn slot.id).error = none := by
          intro slot hslot
          have hslot' : ¬(r.spawn slot.id).error.isSome = true := fun h => hnot ⟨slot, hslot, h⟩
          rwa [Bool.not_eq_true, Option.isSome_eq_false_iff, Option.isNone_iff_eq_none] at hslot'
        constructor
        · refine hphase.mpr fun outcome houtcome hstate => hnot ?_
          rw [← hscaled1] at houtcome
          exact (scaleUp_failed hempty).mp ⟨outcome, houtcome, hstate⟩
        · intro row hrow
          rw [← hscaled2, scaleUp_live hoks, hsame]
          refine or_congr_right ⟨fun hin => ⟨hrun, ?_⟩, fun hle => ?_⟩
          · obtain ⟨slot, hslot, hid⟩ := List.mem_map.mp hin
            obtain ⟨row', hrow', hle, hid'⟩ := (hexists fun id => id = row.instanceId).mp
              ⟨slot, hslot, hid⟩
            rw [← ProcessTables.activeRows_unique.eq_of_key hrow' hrow hid']
            exact hle
          · obtain ⟨slot, hslot, hid⟩ := (hexists fun id => id = row.instanceId).mpr
              ⟨row, hrow, hle.2, rfl⟩
            exact List.mem_map.mpr ⟨slot, hslot, hid⟩
    obtain ⟨hdone, hlives⟩ := hlives
    have himp : (result.phase = "completed" → t.Converged result target) ↔
        t.Converged result target := ⟨fun h => h hdone, fun h _ => h⟩
    rw [himp, hconverged]
    constructor
    · rintro ⟨hbelow, hall⟩
      refine .inr ⟨fun row hrow => ?_, fun n hn => ?_⟩
      · have hsavedRow := (hsavedRows row).mpr (.inl hrow)
        exact ⟨hbelow row hrow, (hlives row hsavedRow).mp (hall row hsavedRow)⟩
      · by_cases hthere : ∃ row ∈ s.activeRows, row.ordinal = n
        · exact .inl hthere
        · -- a new row has no child of its own
          have hrow := (hsavedRows _).mpr (.inr ⟨n, hn,
            fun row hrow hordinal => hthere ⟨row, hrow, hordinal⟩, rfl⟩)
          have hspawned := ((hlives _ hrow).mp (hall _ hrow)).resolve_left (hnew n)
          exact .inr ⟨hspawned.1, Int.ofNat_le.mp hspawned.2⟩
    · rintro (h | ⟨hrowsOk, hslotsOk⟩)
      · exact absurd h hfails
      · refine ⟨fun row hrow => (hrowsOk row hrow).1, fun row hrow => (hlives row hrow).mpr ?_⟩
        rcases (hsavedRows row).mp hrow with hold | ⟨k, hk, hnot, rfl⟩
        · exact (hrowsOk row hold).2
        · rcases hslotsOk k hk with ⟨row, hrow', hordinal⟩ | ⟨hrun, hle⟩
          · exact absurd hordinal (hnot row hrow')
          · exact .inr ⟨hrun, Int.ofNat_le.mpr hle⟩

/-- A claimed operation that is completed has converged exactly under the condition. -/
theorem performScale_converges_iff
    (h : s.performScale target r operation = (.ok result, t)) (hnone : operation.outcomes = [])
    (hids : operation.newInstanceIds = []) (hnew : ∀ n, ¬s.IsLive (r.newId n)) :
    (result.phase = "completed" → t.Converged result target) ↔ s.PerformConverges target r := by
  unfold performScale at h
  split at h
  · cases (Prod.mk.inj h).1
  · rename_i slots hlisted
    have hlist : s.tables.listProcessInstances s.spec.definitionId = .ok slots := by
      cases hfails : r.list with
      | some error =>
        rw [hfails] at hlisted
        cases hlisted
      | none =>
        rw [hfails] at hlisted
        exact hlisted
    unfold PerformConverges
    split at h
    · rename_i hlt
      rw [if_pos hlt]
      split at h
      rename_i scaled u hscaled
      refine scaleDown_converges_iff hlist hlt hnone hids hscaled ?_
      split at h
      · rename_i hall
        rw [if_pos hall]
        cases hsaved : u.saveInstances r target with
        | error error =>
          rw [hsaved] at h
          cases (Prod.mk.inj h).1
        | ok saved =>
          rw [hsaved] at h
          exact ⟨saved, rfl, h⟩
      · rename_i hall
        rw [if_neg hall]
        exact h
    · rename_i hnotDown
      rw [if_neg hnotDown]
      split at h
      · rename_i hlt
        rw [if_pos hlt]
        cases hsaved : s.saveInstances r target with
        | error error =>
          rw [hsaved] at h
          cases (Prod.mk.inj h).1
        | ok saved =>
          rw [hsaved] at h
          cases hfails : r.listSaved with
          | some error =>
            rw [hfails] at h
            cases (Prod.mk.inj h).1
          | none =>
            rw [hfails] at h
            cases hlistSaved : saved.tables.listProcessInstances saved.spec.definitionId with
            | error error =>
              simp only [RepoError.orElse, hlistSaved] at h
              cases (Prod.mk.inj h).1
            | ok savedSlots =>
              simp only [RepoError.orElse, hlistSaved] at h
              exact scaleUp_converges_iff hlt hnone hids hsaved hlistSaved rfl h hnew
      · rename_i hnotUp
        rw [if_neg hnotUp]
        obtain ⟨hphase, hnewIds, hspec, hrows, -⟩ := finishScale_ok h
        have hdone : result.phase = "completed" := by
          rw [hphase, hnone]
          exact fun _ h => absurd h List.not_mem_nil
        constructor
        · intro hconverged
          rw [← hrows]
          exact (hconverged hdone).ordinals
        · intro hordinals _
          refine ⟨?_, hrows ▸ hordinals, fun hne => absurd (hnewIds.trans hids) hne⟩
          rw [hspec]
          exact le_antisymm (not_lt.mp hnotUp) (not_lt.mp hnotDown) |>.symm

/-- A scale that is reported as completed has converged exactly when every slot that it leaves has a
child, or every slot that it keeps is live, and there is no slot beyond the target. -/
theorem scaleProcess_converges_iff {operationId : Uuid}
    (h : s.scaleProcess target operationId r = (.ok result, t))
    (hnew : ∀ n, ¬s.IsLive (r.newId n)) :
    (result.phase = "completed" → t.Converged result target) ↔
      s.ScaleConverges target operationId r := by
  unfold scaleProcess at h
  split at h
  · cases (Prod.mk.inj h).1
  split at h
  · cases (Prod.mk.inj h).1
  split at h
  · cases (Prod.mk.inj h).1
  unfold ScaleConverges
  cases hfind : s.operations.find? fun operation => operation.operationId = operationId with
  | some replay =>
    simp only [hfind] at h
    split at h
    · cases (Prod.mk.inj h).1
    · obtain ⟨hresult, rfl⟩ := Prod.mk.inj h
      obtain rfl := Except.ok.inj hresult
      exact Iff.rfl
  | none =>
    simp only [hfind] at h
    cases hclaim : r.claim with
    | some error =>
      rw [hclaim] at h
      cases (Prod.mk.inj h).1
    | none =>
      rw [hclaim] at h
      have hiff := performScale_converges_iff h rfl rfl hnew
      exact hiff

/-- A process of two instances, of which the first `running` have a child. -/
def twoSlots (running : ℕ) : SlotState :=
  let two := RollingState.twoInstances
  { two with
    runtime := two.runtime.take running
    children := (two.runtime.take running).map fun entry => ⟨entry.id, entry.handle⟩ }

def spawnReplies : ScaleReplies where
  newId n := ⟨100 + n⟩
  spawn id := .spawned ⟨id.val, 200, some 200, some "b", 0⟩

/-- Both slots run, and two are added. -/
theorem twoSlots_converged : ∃ result t,
    (twoSlots 2).scaleProcess 4 7 spawnReplies = (.ok result, t) ∧ t.Converged result 4 := by
  have hnew (n : ℕ) : ¬(twoSlots 2).IsLive (spawnReplies.newId n) := by
    rintro ⟨child, hchild, hid⟩
    have hval : child.instanceId.val = 100 + n := congrArg ProcessInstanceId.val hid
    have hsmall : ∀ child ∈ (twoSlots 2).children, child.instanceId.val < 100 := by decide
    exact absurd hval (Nat.ne_of_lt (Nat.lt_add_right n (hsmall child hchild)))
  have hok : ((twoSlots 2).scaleProcess 4 7 spawnReplies).1.toOption.any
      (fun result => result.phase = "completed") = true := by decide +kernel
  cases h : (twoSlots 2).scaleProcess 4 7 spawnReplies with
  | mk scaled t =>
    rw [h] at hok
    cases scaled with
    | error error => cases hok
    | ok result =>
      refine ⟨result, t, rfl, (scaleProcess_converges_iff h hnew).mpr ?_ (of_decide_eq_true hok)⟩
      have hrows : ∀ row ∈ (twoSlots 2).activeRows, row.ordinal < 4 ∧
          ∃ child ∈ (twoSlots 2).children, child.instanceId = row.instanceId := by decide +kernel
      have hordinals : ∀ n : ℕ, n < 4 →
          (∃ row ∈ (twoSlots 2).activeRows, row.ordinal = (n : ℤ)) ∨ 2 ≤ n := by decide +kernel
      have hrunning : (twoSlots 2).runtime ≠ [] := by decide +kernel
      refine .inr ⟨fun row hrow => ⟨(hrows row hrow).1, .inl (hrows row hrow).2⟩, fun n hn => ?_⟩
      exact (hordinals n hn).imp_right fun hle => ⟨hrunning, hle⟩

/-- The second slot has no child: it is not retired, and the operation is completed. -/
theorem twoSlots_notConverged : ∃ result t,
    (twoSlots 1).scaleProcess 1 7 spawnReplies = (.ok result, t) ∧ result.phase = "completed" ∧
    ¬t.Converged result 1 := by
  have hok : ((twoSlots 1).scaleProcess 1 7 spawnReplies).1.toOption.any
      (fun result => result.phase = "completed") = true := by decide +kernel
  have hinstances : ((twoSlots 1).scaleProcess 1 7 spawnReplies).2.spec.instances = 2 := by
    decide +kernel
  cases h : (twoSlots 1).scaleProcess 1 7 spawnReplies with
  | mk scaled t =>
    rw [h] at hok hinstances
    cases scaled with
    | error error => cases hok
    | ok result =>
      refine ⟨result, t, rfl, of_decide_eq_true hok, fun hconverged => ?_⟩
      exact absurd (hinstances.symm.trans hconverged.instances) (by decide)

end SlotState

end Supervisor
