import Supervisor.Machine
import Supervisor.ProcessTables

namespace Supervisor

/-- The calls that write the runtime handle of an instance, and the opening of
a connection, which runs the migrations. -/
inductive HandleCall where
  | set (instance_ : ProcessInstance) (handle : Option ChildHandle)
  | clearIfMatches (instance_ : ProcessInstance) (handle : ChildHandle)
  | advanceGeneration (instance_ : ProcessInstance)
  | connect (newId : ProcessDefinitionId → ProcessInstanceId)

/-- Whether a call is about another instance, or about none. -/
def HandleCall.Elsewhere (id : ProcessInstanceId) : HandleCall → Prop
  | .set instance_ _ | .clearIfMatches instance_ _ | .advanceGeneration instance_ =>
    instance_.id ≠ id
  | .connect _ => True

def HandleCall.opens : HandleCall → Bool
  | .connect _ => true
  | .set .. | .clearIfMatches .. | .advanceGeneration .. => false

namespace ProcessTables

def call (s : ProcessTables) : HandleCall → ProcessTables
  | .set instance_ handle => (s.setProcessInstanceRuntimeHandle instance_ handle).2
  | .clearIfMatches instance_ handle =>
    (s.clearProcessInstanceRuntimeHandleIfMatches instance_ handle).2
  | .advanceGeneration instance_ => (s.advanceProcessInstanceGeneration instance_).2
  | .connect newId => (s.connect newId).toOption.getD s

end ProcessTables

/-- The process tables under any interleaving of these calls. -/
def runtimeHandles : Machine ProcessTables HandleCall := ⟨fun s call => some (s.call call)⟩

namespace ProcessTables

variable {s t : ProcessTables} {id : ProcessInstanceId} {r : ProcessInstanceRow}
  {instance_ : ProcessInstance} {handle : ChildHandle}

def row (s : ProcessTables) (id : ProcessInstanceId) : Option ProcessInstanceRow :=
  KeyedRows.find ProcessInstanceRow.instanceId id s.instances

/-- The row records exactly this child. -/
def Records (s : ProcessTables) (instance_ : ProcessInstance) (handle : ChildHandle) : Prop :=
  ∃ row, s.row instance_.id = some row ∧ row.runtime = handle.columns

/-- The instance is the ordinal-zero slot of a definition that still keeps a
handle of its own with the child's identity. -/
def LegacyRecords (s : ProcessTables) (instance_ : ProcessInstance) (handle : ChildHandle) : Prop :=
  ∃ row spec, s.row instance_.id = some row ∧ row.ordinal = 0 ∧
    s.findSpec row.definitionId = some spec ∧ spec.runtime.processId = some handle.processId ∧
      spec.runtime.generation = handle.generation

/-- What callers rely on once `set_process_instance_runtime_handle` has left
the tables `s`: the handle is read back however the calls for other instances
and new connections interleave, it is cleared by its own identity exactly once,
and calls for other instances leave it as it is. -/
structure HandleDurable (s : ProcessTables) (instance_ : ProcessInstance) (handle : ChildHandle) :
    Prop where
  read : ∀ t, runtimeHandles.Run (fun _ => HandleCall.Elsewhere instance_.id) s t →
    t.getProcessInstanceRuntimeHandle instance_ = .ok (some handle)
  cleared : ∀ t, runtimeHandles.Run (fun _ => HandleCall.Elsewhere instance_.id) s t →
    (t.clearProcessInstanceRuntimeHandleIfMatches instance_ handle).1 = .ok true
  once : ∀ t, runtimeHandles.Run (fun _ => HandleCall.Elsewhere instance_.id) s t →
    ∀ u, runtimeHandles.Run (fun _ => HandleCall.Elsewhere instance_.id)
        (t.clearProcessInstanceRuntimeHandleIfMatches instance_ handle).2 u →
      (u.clearProcessInstanceRuntimeHandleIfMatches instance_ handle).1 = .ok false
  kept : ∀ t,
    runtimeHandles.Run (fun _ call => call.Elsewhere instance_.id ∧ call.opens = false) s t →
    t.getProcessInstanceRuntimeHandle instance_ = s.getProcessInstanceRuntimeHandle instance_

section Columns

theorem ofI64_eq_ok {n : ℤ} {m : U32} : U32.ofI64 n = .ok m ↔ n = m.val := by
  have hm := m.isLt
  unfold U32.ofI64
  split
  · rename_i hn
    rw [Except.ok.injEq, Fin.ext_iff]
    constructor
    · intro h
      have hval : n.toNat = m.val := h
      omega
    · intro h
      show n.toNat = m.val
      omega
  · rename_i hn
    constructor
    · intro h
      cases h
    · intro h
      exact absurd ⟨by omega, by omega⟩ hn

theorem mapM_ofI64_eq_ok {n : Option ℤ} {m : Option U32} :
    n.mapM U32.ofI64 = .ok m ↔ n = m.map fun m => (m.val : ℤ) := by
  cases n with
  | none =>
    cases m with
    | none => exact ⟨fun _ => rfl, fun _ => rfl⟩
    | some m => constructor <;> intro h <;> cases h
  | some n =>
    have hmapM : (some n).mapM U32.ofI64 = (U32.ofI64 n).map some := by
      cases h : U32.ofI64 n with
      | error e =>
        show Except.map some (U32.ofI64 n) = _
        rw [h]
      | ok m =>
        show Except.map some (U32.ofI64 n) = _
        rw [h]
    rw [hmapM]
    cases h : U32.ofI64 n with
    | error e =>
      constructor
      · intro hok
        cases hok
      · intro heq
        cases m with
        | none => cases heq
        | some m =>
          rw [Option.map_some, Option.some.injEq] at heq
          rw [ofI64_eq_ok.mpr heq] at h
          cases h
    | ok k =>
      rw [ofI64_eq_ok] at h
      cases m with
      | none => constructor <;> intro hok <;> cases hok
      | some m =>
        show Except.ok (some k) = Except.ok (some m) ↔ some n = some (m.val : ℤ)
        rw [Except.ok.injEq, Option.some.injEq, Option.some.injEq, h, Fin.ext_iff]
        exact Int.natCast_inj.symm

/-- A row is read as a child exactly when it holds that child's columns. -/
theorem handle_eq_some {columns : RuntimeColumns} :
    columns.handle = .ok (some handle) ↔ columns = handle.columns := by
  obtain ⟨processId, pid, pgid, generation, startedAt⟩ := columns
  cases processId with
  | none =>
    constructor
    · intro h
      cases h
    · intro h
      cases congrArg RuntimeColumns.processId h
  | some processId =>
    cases pid with
    | none =>
      constructor
      · intro h
        cases h
      · intro h
        cases congrArg RuntimeColumns.pid h
    | some pid =>
      cases startedAt with
      | none =>
        constructor
        · intro h
          cases h
        · intro h
          cases congrArg RuntimeColumns.startedAt h
      | some startedAt =>
        constructor
        · intro h
          show _ = RuntimeColumns.mk _ _ _ _ _
          cases hpid : U32.ofI64 pid with
          | error e =>
            simp only [RuntimeColumns.handle, hpid] at h
            cases h
          | ok m =>
            cases hpgid : pgid.mapM U32.ofI64 with
            | error e =>
              simp only [RuntimeColumns.handle, hpid, hpgid] at h
              cases h
            | ok k =>
              simp only [RuntimeColumns.handle, hpid, hpgid] at h
              cases h
              rw [ofI64_eq_ok.mp hpid, mapM_ofI64_eq_ok.mp hpgid]
        · intro h
          cases h
          have hpid : U32.ofI64 handle.pid.val = .ok handle.pid := ofI64_eq_ok.mpr rfl
          have hpgid : (handle.pgid.map fun pgid => (pgid.val : ℤ)).mapM U32.ofI64 =
              .ok handle.pgid := mapM_ofI64_eq_ok.mpr rfl
          simp only [RuntimeColumns.handle, hpid, hpgid]
          rfl

end Columns

section Rows

theorem row_updateInstances {p : ProcessInstanceRow → Bool}
    {f : ProcessInstanceRow → ProcessInstanceRow} (hf : ∀ r, (f r).instanceId = r.instanceId) :
    (s.updateInstances p f hf).2.row id = (s.row id).map fun r => if p r then f r else r := by
  show KeyedRows.find _ _ (s.instances.map _) = _
  have hkey : ∀ r : ProcessInstanceRow, (if p r then f r else r).instanceId = r.instanceId := by
    intro r
    split
    · exact hf r
    · rfl
  rw [KeyedRows.find, List.find?_map]
  congr 1
  apply congrArg (List.find? · s.instances)
  funext r
  simp only [Function.comp_apply, hkey]

theorem isCurrent_id {generation : ℤ} (h : isCurrent instance_ generation r = true) :
    r.instanceId = instance_.id := by
  simp only [isCurrent, Bool.and_eq_true, decide_eq_true_eq] at h
  exact h.1.1

theorem updateInstances_affected (id : ProcessInstanceId) {p : ProcessInstanceRow → Bool}
    {f : ProcessInstanceRow → ProcessInstanceRow} {hf : ∀ r, (f r).instanceId = r.instanceId}
    (hp : ∀ r, p r = true → r.instanceId = id) :
    (s.updateInstances p f hf).1 = 1 ↔ ∃ r, s.row id = some r ∧ p r = true :=
  s.unique.countP_eq_one_iff hp

/-- The set reports success exactly for an instance that is current. -/
theorem set_eq_ok_true {handle : Option ChildHandle} :
    (s.setProcessInstanceRuntimeHandle instance_ handle).1 = .ok true ↔
      ∃ generation r, instance_.generation.toI64 = .ok generation ∧
        s.row instance_.id = some r ∧ isCurrent instance_ generation r = true := by
  unfold setProcessInstanceRuntimeHandle
  cases h : instance_.generation.toI64 with
  | error e =>
    constructor
    · intro hok
      cases hok
    · rintro ⟨generation, r, hgeneration, -⟩
      cases hgeneration
  | ok generation =>
    dsimp only [Transaction.execute, Transaction.start]
    rw [Except.ok.injEq, decide_eq_true_iff, updateInstances_affected _ fun r => isCurrent_id]
    constructor
    · rintro ⟨r, hr, hcurrent⟩
      exact ⟨generation, r, rfl, hr, hcurrent⟩
    · rintro ⟨generation', r, hgeneration, hr, hcurrent⟩
      cases hgeneration
      exact ⟨r, hr, hcurrent⟩

theorem set_tables {handle : Option ChildHandle} :
    (s.setProcessInstanceRuntimeHandle instance_ handle).2 = s := by
  unfold setProcessInstanceRuntimeHandle
  split
  · rfl
  · rfl

/-- What the row of an instance becomes when a connection is opened. -/
def withLegacy (s : ProcessTables) (r : ProcessInstanceRow) : ProcessInstanceRow :=
  match (s.findSpec r.definitionId).filter fun spec => spec.runtime.processId.isSome with
  | none => r
  | some spec =>
    if r.ordinal = 0 && r.active && r.runtime.processId.isNone then
      { r with runtime := spec.runtime, restartCount := spec.restartCount }
    else r

theorem row_copyLegacyHandles : s.copyLegacyHandles.row id = (s.row id).map s.withLegacy := by
  unfold copyLegacyHandles
  dsimp only
  rw [row_updateInstances]
  congr 1
  funext r
  unfold withLegacy
  cases h : (s.findSpec r.definitionId).filter fun spec => spec.runtime.processId.isSome with
  | none => simp
  | some spec => simp

/-- The backfill adds slots under ids of their own. -/
theorem backfill_row {newId : ProcessDefinitionId → ProcessInstanceId} {specs : List ProcessSpecRow}
    (h : backfillLegacyProcessInstances newId specs s = .ok t) :
    t.specs = s.specs ∧ ∀ id r, s.row id = some r → t.row id = some r := by
  induction specs generalizing s with
  | nil =>
    cases h
    exact ⟨rfl, fun _ _ hr => hr⟩
  | cons spec specs ih =>
    unfold backfillLegacyProcessInstances at h
    split at h
    · exact ih h
    · split at h
      · cases h
      · obtain ⟨hspecs, hrow⟩ := ih h
        refine ⟨hspecs, fun id r hr => hrow id r ?_⟩
        show KeyedRows.find _ _ (s.instances ++ _) = _
        rw [KeyedRows.find, List.find?_append]
        rw [row, KeyedRows.find] at hr
        rw [hr, Option.some_or]

/-- A call elsewhere keeps the row of an instance, unless it opens a connection. -/
theorem call_row {call : HandleCall} (hcall : call.Elsewhere id) (hr : s.row id = some r) :
    (s.call call).specs = s.specs ∧
      ((s.call call).row id = some r ∨
        call.opens = true ∧ (s.call call).row id = some (s.withLegacy r)) := by
  have hid : r.instanceId = id := KeyedRows.find_key hr
  cases call with
  | set instance_ handle =>
    show (setProcessInstanceRuntimeHandle _ _ _).2.specs = _ ∧ _
    refine ⟨by rw [set_tables], .inl ?_⟩
    show (setProcessInstanceRuntimeHandle _ _ _).2.row id = _
    rw [set_tables, hr]
  | clearIfMatches instance_ handle =>
    dsimp only [ProcessTables.call]
    unfold clearProcessInstanceRuntimeHandleIfMatches
    split
    · exact ⟨rfl, .inl hr⟩
    · refine ⟨rfl, .inl ?_⟩
      dsimp only
      rw [row_updateInstances, hr, Option.map_some, if_neg]
      -- the row carries another id than the instance the call is about
      intro hp
      rw [Bool.and_eq_true, Bool.and_eq_true] at hp
      exact hcall ((isCurrent_id hp.1.1).symm.trans hid)
  | advanceGeneration instance_ =>
    dsimp only [ProcessTables.call]
    unfold advanceProcessInstanceGeneration
    split
    · dsimp only [Transaction.execute, Transaction.start, Transaction.commit,
        Transaction.rollback]
      split
      · split
        · exact ⟨rfl, .inl hr⟩
        · refine ⟨rfl, .inl ?_⟩
          dsimp only
          rw [row_updateInstances, hr, Option.map_some, if_neg]
          intro hp
          exact hcall ((isCurrent_id hp).symm.trans hid)
      · exact ⟨rfl, .inl hr⟩
      · exact ⟨rfl, .inl hr⟩
    · exact ⟨rfl, .inl hr⟩
  | connect newId =>
    dsimp only [ProcessTables.call, connect]
    cases h : backfillLegacyProcessInstances newId s.specs s with
    | error e => exact ⟨rfl, .inl hr⟩
    | ok u =>
      obtain ⟨hspecs, hrow⟩ := backfill_row h
      refine ⟨hspecs, .inr ⟨rfl, ?_⟩⟩
      show u.copyLegacyHandles.row id = _
      rw [row_copyLegacyHandles, hrow id r hr, Option.map_some]
      simp only [withLegacy, findSpec, hspecs]

theorem withLegacy_of_specs (h : t.specs = s.specs) : t.withLegacy = s.withLegacy := by
  funext r
  simp only [withLegacy, findSpec, h]

theorem withLegacy_of_isSome (h : r.runtime.processId.isSome) : s.withLegacy r = r := by
  unfold withLegacy
  split
  · rfl
  · rw [if_neg]
    cases hp : r.runtime.processId with
    | none => simp [hp] at h
    | some p => simp

theorem withLegacy_withLegacy : s.withLegacy (s.withLegacy r) = s.withLegacy r := by
  by_cases hr : s.withLegacy r = r
  · rw [hr, hr]
  · -- the row was fed from its definition, whose handle is not null
    apply withLegacy_of_isSome
    unfold withLegacy at hr ⊢
    split at hr
    · exact absurd rfl hr
    · rename_i spec hspec
      split at hr
      · rename_i hfed
        simp only [hfed, if_true]
        obtain ⟨-, hsome⟩ := Option.filter_eq_some_iff.mp hspec
        exact hsome
      · exact absurd rfl hr

/-- Over a run of calls elsewhere the row stays, or is fed once from the
definition by the opening of a connection. -/
theorem run_row (h : runtimeHandles.Run (fun _ => HandleCall.Elsewhere id) s t)
    (hr : s.row id = some r) :
    t.specs = s.specs ∧ (t.row id = some r ∨ t.row id = some (s.withLegacy r)) := by
  induction h with
  | refl => exact ⟨rfl, .inl hr⟩
  | tail call _ hcall hstep ih =>
    obtain ⟨hspecs, hrow⟩ := ih
    cases hstep
    rcases hrow with hrow | hrow
    · obtain ⟨hspecs', hkept | ⟨-, hfed⟩⟩ := call_row hcall hrow
      · exact ⟨hspecs'.trans hspecs, .inl hkept⟩
      · exact ⟨hspecs'.trans hspecs, .inr (by rw [hfed, withLegacy_of_specs hspecs])⟩
    · obtain ⟨hspecs', hkept | ⟨-, hfed⟩⟩ := call_row hcall hrow
      · exact ⟨hspecs'.trans hspecs, .inr hkept⟩
      · refine ⟨hspecs'.trans hspecs, .inr ?_⟩
        rw [hfed, withLegacy_of_specs hspecs, withLegacy_withLegacy]

theorem run_row_open
    (h : runtimeHandles.Run (fun _ call => call.Elsewhere id ∧ call.opens = false) s t)
    (hr : s.row id = some r) : t.specs = s.specs ∧ t.row id = some r := by
  induction h with
  | refl => exact ⟨rfl, hr⟩
  | tail call _ hcall hstep ih =>
    obtain ⟨hspecs, hrow⟩ := ih
    cases hstep
    obtain ⟨hspecs', hkept | ⟨hopens, -⟩⟩ := call_row hcall.1 hrow
    · exact ⟨hspecs'.trans hspecs, hkept⟩
    · rw [hcall.2] at hopens
      cases hopens

end Rows

section Durability

/-- A drawn id is new, so opening a connection succeeds for some draw. -/
theorem exists_connect (s : ProcessTables) : ∃ newId t, s.connect newId = .ok t := by
  obtain ⟨bound, hbound⟩ : ∃ bound, ∀ r ∈ s.instances, r.instanceId.val < bound := by
    let ids := (s.instances.map fun r => r.instanceId.val).toFinset
    obtain ⟨bound, hsubset⟩ := ids.exists_nat_subset_range
    refine ⟨bound, fun r hr => ?_⟩
    have hmem : r.instanceId.val ∈ ids := List.mem_toFinset.mpr (List.mem_map.mpr ⟨r, hr, rfl⟩)
    exact Finset.mem_range.mp (hsubset hmem)
  let newId (definitionId : ProcessDefinitionId) : ProcessInstanceId := ⟨bound + definitionId.val⟩
  have hfill (specs : List ProcessSpecRow) (s : ProcessTables)
      (hids : ∀ r ∈ s.instances, r.instanceId.val < bound ∨ r.instanceId = newId r.definitionId) :
      ∃ t, backfillLegacyProcessInstances newId specs s = .ok t := by
    induction specs generalizing s with
    | nil => exact ⟨s, rfl⟩
    | cons spec specs ih =>
      unfold backfillLegacyProcessInstances
      split
      · exact ih s hids
      · rename_i hnone
        -- the id drawn for a definition without slots belongs to no row
        have hfresh : ¬s.instances.any (·.instanceId = newId spec.definitionId) = true := by
          rw [List.any_eq_true]
          rintro ⟨r, hr, hid⟩
          have hid : r.instanceId = newId spec.definitionId := of_decide_eq_true hid
          rcases hids r hr with hlt | heq
          · have hval : r.instanceId.val = bound + spec.definitionId.val :=
              congrArg ProcessInstanceId.val hid
            rw [hval] at hlt
            exact absurd hlt (Nat.not_lt.mpr (Nat.le_add_right _ _))
          · have hval : bound + r.definitionId.val = bound + spec.definitionId.val :=
              congrArg ProcessInstanceId.val (heq.symm.trans hid)
            have hsame : r.definitionId = spec.definitionId := by
              have hdefinition := Nat.add_left_cancel hval
              generalize r.definitionId = d at hdefinition ⊢
              cases d
              exact congrArg ProcessDefinitionId.mk hdefinition
            exact hnone (List.any_eq_true.mpr ⟨r, hr, decide_eq_true hsame⟩)
        rw [dif_neg hfresh]
        apply ih
        intro r hr
        rcases List.mem_append.mp hr with hr | hr
        · exact hids r hr
        · rw [List.mem_singleton.mp hr]
          exact .inr rfl
  obtain ⟨t, ht⟩ := hfill s.specs s fun r hr => .inl (hbound r hr)
  exact ⟨newId, t.copyLegacyHandles, by rw [connect, ht]; rfl⟩

variable {generation : ℤ}

theorem withLegacy_current : isCurrent instance_ generation (s.withLegacy r) =
    isCurrent instance_ generation r := by
  unfold withLegacy
  split
  · rfl
  · split
    · rfl
    · rfl

theorem get_of_row (hgeneration : instance_.generation.toI64 = .ok generation)
    (hr : s.row instance_.id = some r) (hcurrent : isCurrent instance_ generation r = true) :
    s.getProcessInstanceRuntimeHandle instance_ = (s.runtimeColumns instance_ r).handle := by
  have hfind : s.instances.find? (isCurrent instance_ generation) = some r := by
    rw [s.unique.find?_eq_filter fun r => isCurrent_id, ← row, hr, Option.filter_some_pos hcurrent]
  unfold getProcessInstanceRuntimeHandle
  rw [hgeneration]
  simp only [bind, Except.bind]
  rw [hfind]

/-- A clear reports whether the row carries the identity of the handle. -/
theorem clear_of_row (hgeneration : instance_.generation.toI64 = .ok generation)
    (hr : s.row instance_.id = some r) (hcurrent : isCurrent instance_ generation r = true) :
    (s.clearProcessInstanceRuntimeHandleIfMatches instance_ handle).1 =
      .ok (r.runtime.processId = some handle.processId ∧
        r.runtime.generation = handle.generation : Bool) := by
  unfold clearProcessInstanceRuntimeHandleIfMatches
  rw [hgeneration]
  dsimp only
  rw [Except.ok.injEq, decide_eq_decide, updateInstances_affected instance_.id]
  · constructor
    · rintro ⟨r', hr', hp⟩
      rw [hr] at hr'
      cases hr'
      simpa [hcurrent] using hp
    · rintro ⟨hprocess, hhandle⟩
      exact ⟨r, hr, by simp [hcurrent, hprocess, hhandle]⟩
  · intro r' hp
    rw [Bool.and_eq_true, Bool.and_eq_true] at hp
    exact isCurrent_id hp.1.1

/-- After a clear that found the identity the row records nothing. -/
theorem clear_row (hgeneration : instance_.generation.toI64 = .ok generation)
    (hr : s.row instance_.id = some r) (hcurrent : isCurrent instance_ generation r = true)
    (hprocess : r.runtime.processId = some handle.processId)
    (hhandle : r.runtime.generation = handle.generation) :
    (s.clearProcessInstanceRuntimeHandleIfMatches instance_ handle).2.specs = s.specs ∧
      (s.clearProcessInstanceRuntimeHandleIfMatches instance_ handle).2.row instance_.id =
        some { r with runtime := {} } := by
  unfold clearProcessInstanceRuntimeHandleIfMatches
  rw [hgeneration]
  refine ⟨rfl, ?_⟩
  dsimp only
  rw [row_updateInstances, hr, Option.map_some, if_pos]
  simp [hcurrent, hprocess, hhandle]

/-- A successful set makes the handle durable exactly when the row held it
already, and the definition keeps no old handle that the next connection would
copy back over a cleared row. -/
theorem set_handle_durable_iff
    (hok : (s.setProcessInstanceRuntimeHandle instance_ (some handle)).1 = .ok true) :
    HandleDurable (s.setProcessInstanceRuntimeHandle instance_ (some handle)).2 instance_ handle ↔
      s.Records instance_ handle ∧ ¬s.LegacyRecords instance_ handle := by
  obtain ⟨generation, r, hgeneration, hr, hcurrent⟩ := set_eq_ok_true.mp hok
  rw [set_tables]
  constructor
  · intro hd
    -- the clear that follows at once finds the identity in the row itself
    have hclear := hd.cleared s .refl
    rw [clear_of_row hgeneration hr hcurrent, Except.ok.injEq, decide_eq_true_iff] at hclear
    obtain ⟨hprocess, hhandle⟩ := hclear
    have hread := hd.read s .refl
    rw [get_of_row hgeneration hr hcurrent, runtimeColumns, if_neg (by simp [hprocess]),
      handle_eq_some] at hread
    refine ⟨⟨r, hr, hread⟩, ?_⟩
    rintro ⟨r', spec, hr', hordinal, hspec, hlegacy, hlegacyHandle⟩
    rw [hr] at hr'
    cases hr'
    -- a connection opened after the clear copies the definition's handle back
    obtain ⟨newId, u, hu⟩ := exists_connect
      (s.clearProcessInstanceRuntimeHandleIfMatches instance_ handle).2
    have hstep : runtimeHandles.step
        (s.clearProcessInstanceRuntimeHandleIfMatches instance_ handle).2 (.connect newId) =
        some u := by
      show some (ProcessTables.call _ _) = _
      dsimp only [ProcessTables.call]
      rw [hu]
      rfl
    have hrun : runtimeHandles.Run (fun _ => HandleCall.Elsewhere instance_.id)
        (s.clearProcessInstanceRuntimeHandleIfMatches instance_ handle).2 u :=
      .tail (.connect newId) .refl trivial hstep
    have hagain := hd.once s .refl u hrun
    obtain ⟨hspecs, hcleared⟩ := clear_row hgeneration hr hcurrent hprocess hhandle
    have hactive : r.active = true := by
      simp only [isCurrent, Bool.and_eq_true] at hcurrent
      exact hcurrent.2
    have hfed : u.row instance_.id =
        some { r with runtime := spec.runtime, restartCount := spec.restartCount } := by
      rw [connect] at hu
      cases hfill : backfillLegacyProcessInstances newId _
          (s.clearProcessInstanceRuntimeHandleIfMatches instance_ handle).2 with
      | error e =>
        rw [hfill] at hu
        cases hu
      | ok v =>
        rw [hfill] at hu
        cases hu
        obtain ⟨hvspecs, hvrow⟩ := backfill_row hfill
        rw [row_copyLegacyHandles, hvrow _ _ hcleared, Option.map_some, withLegacy, findSpec,
          hvspecs, hspecs, ← findSpec, hspec, Option.filter_some_pos (by simp [hlegacy])]
        simp [hordinal, hactive]
    rw [clear_of_row hgeneration hfed hcurrent, Except.ok.injEq, decide_eq_false_iff_not] at hagain
    exact hagain ⟨hlegacy, hlegacyHandle⟩
  · rintro ⟨⟨r', hr', hcolumns⟩, hlegacy⟩
    rw [hr] at hr'
    cases hr'
    have hprocess : r.runtime.processId = some handle.processId := by rw [hcolumns]; rfl
    have hhandle : r.runtime.generation = handle.generation := by rw [hcolumns]; rfl
    have hsome : r.runtime.processId.isSome := by rw [hprocess]; rfl
    -- the row records a child, so no connection feeds it
    have hrow (t : ProcessTables)
        (h : runtimeHandles.Run (fun _ => HandleCall.Elsewhere instance_.id) s t) :
        t.specs = s.specs ∧ t.row instance_.id = some r := by
      obtain ⟨hspecs, hkept | hfed⟩ := run_row h hr
      · exact ⟨hspecs, hkept⟩
      · exact ⟨hspecs, by rw [hfed, withLegacy_of_isSome hsome]⟩
    have hget (t : ProcessTables) (ht : t.row instance_.id = some r) :
        t.getProcessInstanceRuntimeHandle instance_ = .ok (some handle) := by
      rw [get_of_row hgeneration ht hcurrent, runtimeColumns, if_neg (by simp [hprocess]),
        handle_eq_some, hcolumns]
    constructor
    · exact fun t h => hget t (hrow t h).2
    · intro t h
      rw [clear_of_row hgeneration (hrow t h).2 hcurrent]
      simp [hprocess, hhandle]
    · intro t h u hu
      obtain ⟨hspecs, ht⟩ := hrow t h
      obtain ⟨hclearSpecs, hcleared⟩ := clear_row hgeneration ht hcurrent hprocess hhandle
      have hempty : isCurrent instance_ generation { r with runtime := {} } = true := hcurrent
      obtain ⟨-, hu | hu⟩ := run_row hu hcleared
      · rw [clear_of_row hgeneration hu hempty]
        simp
      · rw [clear_of_row hgeneration hu (withLegacy_current.trans hempty),
          withLegacy_of_specs (hclearSpecs.trans hspecs), Except.ok.injEq,
          decide_eq_false_iff_not]
        rintro ⟨hp, hg⟩
        unfold withLegacy at hp hg
        split at hp
        · cases hp
        · rename_i spec hspec
          obtain ⟨hfind, -⟩ := Option.filter_eq_some_iff.mp hspec
          simp only [hspec] at hg
          split at hp
          · rename_i hfed
            rw [if_pos hfed] at hg
            simp only [Bool.and_eq_true, decide_eq_true_eq] at hfed
            exact hlegacy ⟨r, spec, hr, hfed.1.1, hfind, hp, hg⟩
          · cases hp
    · intro t h
      rw [hget t (run_row_open h hr).2, hget s hr]

end Durability

/-- A process with one slot, whose child is about to be recorded. -/
def oneSlot (runtime : RuntimeColumns) : ProcessTables :=
  { specs := [{ definitionId := ⟨1⟩ }]
    instances := [{ instanceId := ⟨10⟩, definitionId := ⟨1⟩, ordinal := 0, runtime }]
    unique := List.nodup_singleton _ }

def slotZero : ProcessInstance := ⟨⟨10⟩, ⟨1⟩, 0, 1⟩

def spawnedChild : ChildHandle :=
  { processId := 70, pid := 71, pgid := some 71, generation := some "boot-1", startedAt := 5 }

theorem recorded_handle_durable :
    HandleDurable (((oneSlot spawnedChild.columns).setProcessInstanceRuntimeHandle slotZero
      (some spawnedChild)).2) slotZero spawnedChild := by
  apply (set_handle_durable_iff (by decide)).mpr
  refine ⟨⟨_, rfl, rfl⟩, ?_⟩
  rintro ⟨r, spec, hr, -, hspec, hlegacy, -⟩
  cases hr
  cases hspec
  cases hlegacy

/-- The handle of a fresh child is gone as soon as its set has succeeded. -/
theorem spawned_handle_lost :
    ((oneSlot {}).setProcessInstanceRuntimeHandle slotZero (some spawnedChild)).1 = .ok true ∧
      ¬HandleDurable (((oneSlot {}).setProcessInstanceRuntimeHandle slotZero
        (some spawnedChild)).2) slotZero spawnedChild := by
  refine ⟨by decide, fun hd => ?_⟩
  have hread := hd.read _ .refl
  have hlost : (((oneSlot {}).setProcessInstanceRuntimeHandle slotZero
      (some spawnedChild)).2).getProcessInstanceRuntimeHandle slotZero = .ok none := by decide
  rw [hlost] at hread
  cases hread

end ProcessTables

end Supervisor
