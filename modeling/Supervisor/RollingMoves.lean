import Supervisor.RollingRestart

namespace Supervisor

open KeyedRows (Unique)

namespace ProcessTables

variable {s t : ProcessTables} {definitionId : ProcessDefinitionId} {ordinal : U16}
  {newId : ProcessInstanceId}

/-- An allocation that succeeds adds one row. -/
structure Allocates (s t : ProcessTables) (replacement : ProcessInstance) : Prop where
  generation : replacement.generation.val = 1
  instances : t.instances = s.instances ++
    [{ instanceId := replacement.id, definitionId := replacement.definitionId
       ordinal := replacement.ordinal.val }]
  isNew : ∀ row ∈ s.instances, row.instanceId ≠ replacement.id

theorem allocateProcessInstance_ok {replacement : ProcessInstance}
    (h : s.allocateProcessInstance definitionId ordinal newId = (.ok replacement, t)) :
    replacement.id = newId ∧ replacement.definitionId = definitionId ∧
      s.Allocates t replacement := by
  unfold allocateProcessInstance at h
  split at h
  · exact absurd (congrArg Prod.fst h) (by simp)
  · split at h
    · exact absurd (congrArg Prod.fst h) (by simp)
    · split at h
      · exact absurd (congrArg Prod.fst h) (by simp)
      · rename_i hnew
        obtain ⟨hok, rfl⟩ := Prod.mk.inj h
        have hreplacement := Except.ok.inj hok
        subst hreplacement
        refine ⟨rfl, rfl, rfl, rfl, ?_⟩
        intro row hrow heq
        exact hnew (List.any_eq_true.mpr ⟨row, hrow, decide_eq_true heq⟩)

theorem updateInstances_ids {p : ProcessInstanceRow → Bool}
    {f : ProcessInstanceRow → ProcessInstanceRow}
    (hf : ∀ row, (f row).instanceId = row.instanceId) :
    (s.updateInstances p f hf).2.instances.map ProcessInstanceRow.instanceId =
      s.instances.map ProcessInstanceRow.instanceId := by
  unfold updateInstances
  rw [List.map_map]
  apply List.map_congr_left
  intro row _
  by_cases hp : p row = true
  · simp [hp, hf]
  · simp [hp]

theorem retireProcessInstance_ids {instanceId : ProcessInstanceId} :
    (s.retireProcessInstance instanceId).instances.map ProcessInstanceRow.instanceId =
      s.instances.map ProcessInstanceRow.instanceId :=
  updateInstances_ids _

/-- A promotion that succeeds retires the one row and moves the other to its ordinal. -/
def promotedRows (retired replacement : ProcessInstance) (rows : List ProcessInstanceRow) :
    List ProcessInstanceRow :=
  (rows.map fun row =>
    if isSlot retired retired.generation.val row then { row with active := false } else row).map
  fun row =>
    if isSlot replacement replacement.generation.val row then
      { row with ordinal := retired.ordinal.val }
    else row

theorem U64.toI64_ok {n : U64} {m : ℤ} (h : n.toI64 = .ok m) : m = n.val := by
  unfold U64.toI64 at h
  split at h
  · exact (Except.ok.inj h).symm
  · cases h

theorem promoteProcessInstance_cases (retired replacement : ProcessInstance) :
    (∃ error, s.promoteProcessInstance retired replacement = (.error error, s)) ∨
    s.promoteProcessInstance retired replacement = (.ok none, s) ∨
    ∃ t, s.promoteProcessInstance retired replacement =
        (.ok (some { replacement with ordinal := retired.ordinal }), t) ∧
      t.instances = promotedRows retired replacement s.instances := by
  unfold promoteProcessInstance
  split
  · rename_i retiredGeneration generation hretired hreplacement
    rw [U64.toI64_ok hretired, U64.toI64_ok hreplacement]
    let first := s.updateInstances (isSlot retired retired.generation.val)
      fun row => { row with active := false }
    let second := first.2.updateInstances (isSlot replacement replacement.generation.val)
      fun row => { row with ordinal := retired.ordinal.val }
    by_cases hone : first.1 ≠ 1
    · exact .inr (.inl (if_pos hone))
    · by_cases htwo : second.1 ≠ 1
      · exact .inr (.inl ((if_neg hone).trans (if_pos htwo)))
      · exact .inr (.inr ⟨second.2, (if_neg hone).trans (if_neg htwo), rfl⟩)
  · exact .inl ⟨_, rfl⟩
  · exact .inl ⟨_, rfl⟩

theorem promoteProcessInstance_some {retired replacement promoted : ProcessInstance}
    (h : s.promoteProcessInstance retired replacement = (.ok (some promoted), t)) :
    promoted.id = replacement.id ∧ t.instances = promotedRows retired replacement s.instances := by
  rcases promoteProcessInstance_cases (s := s) retired replacement with
    ⟨error, h'⟩ | h' | ⟨t', h', hrows⟩
  · cases (Prod.mk.inj (h.symm.trans h')).1
  · cases (Prod.mk.inj (h.symm.trans h')).1
  · obtain ⟨hpromoted, rfl⟩ := Prod.mk.inj (h.symm.trans h')
    have heq := Option.some.inj (Except.ok.inj hpromoted)
    exact ⟨heq ▸ rfl, hrows⟩

theorem promotedRows_ids {retired replacement : ProcessInstance} {rows : List ProcessInstanceRow} :
    (promotedRows retired replacement rows).map ProcessInstanceRow.instanceId =
      rows.map ProcessInstanceRow.instanceId := by
  unfold promotedRows
  rw [List.map_map, List.map_map]
  apply List.map_congr_left
  intro row _
  simp only [Function.comp_apply]
  split <;> split <;> rfl

theorem promoteProcessInstance_ids (retired replacement : ProcessInstance) :
    (s.promoteProcessInstance retired replacement).2.instances.map ProcessInstanceRow.instanceId =
      s.instances.map ProcessInstanceRow.instanceId := by
  rcases promoteProcessInstance_cases (s := s) retired replacement with
    ⟨error, h⟩ | h | ⟨t, h, hrows⟩
  · rw [h]
  · rw [h]
  · rw [h, hrows, promotedRows_ids]

end ProcessTables

namespace RollingState

/-- Something fails, and the loop ends. -/
structure Fails (s t : RollingState) : Prop where
  hasFailed : t.hasFailed = true
  length : t.runtime.length ≤ s.runtime.length
  unique : Unique RuntimeEntry.id s.runtime → Unique RuntimeEntry.id t.runtime
  ids : t.tables.instances.map ProcessInstanceRow.instanceId =
    s.tables.instances.map ProcessInstanceRow.instanceId
  point : (t.point = .finishing ∧ ∀ operation, t.operation = some operation →
      (operation.outcomes.all fun outcome => outcome.state = .completed) = false) ∨
    ∃ error, t.point = .returned (.error error)
  allocated : t.allocated = s.allocated
  reportedHealthy : t.reportedHealthy = s.reportedHealthy
  drained : t.drained = s.drained

def markDrained (s : RollingState) (slot : ReplacedSlot) : RollingState :=
  { s with drained := s.drained ++ [(slot.old.id, slot.replacement)] }

/-- What a step can do. -/
inductive Move (s : RollingState) : RollingState → Prop
  | failed {t : RollingState} (h : s.Fails t) : Move s t
  | drainFailed {t : RollingState} {slot : ReplacedSlot} (hpoint : s.point = .draining slot)
      (h : (s.markDrained slot).Fails t) : Move s t
  | started {operations : List ProcessOperation} {operation : Option ProcessOperation}
      {slots : List ProcessInstance} (hpoint : s.point = .start)
      (hslots : s.tables.listProcessInstances s.spec.definitionId = .ok slots) :
      Move s { s with operations, operation, point := .next slots }
  | replayed {operation : Option ProcessOperation} (hpoint : s.point = .start) :
      Move s { s with operation, point := .replayed }
  | ended (hpoint : s.point = .next []) : Move s { s with point := .finishing }
  | allocated {operation : Option ProcessOperation} {tables : ProcessTables}
      {old replacement : ProcessInstance} {oldEntry : RuntimeEntry} {rest : List ProcessInstance}
      (hpoint : s.point = .next (old :: rest))
      (hold : s.runtime.runtimeEntry old.id = some oldEntry)
      (hnew : s.runtime.runtimeEntry replacement.id = none)
      (hdefinition : replacement.definitionId = s.spec.definitionId)
      (halloc : s.tables.Allocates tables replacement) :
      Move s { s with
        operation, tables
        allocated := s.allocated ++ [(old.id, replacement)]
        point := .spawning { old, oldEntry, replacement, rest } }
  | spawned {slot : ReplacedSlot} {handle : ChildHandle} (hpoint : s.point = .spawning slot) :
      Move s { s with
        runtime := s.runtime.insertRuntimeEntry ⟨slot.replacement, handle, .running⟩
        point := .guarding slot handle }
  | guarded {slot : ReplacedSlot} {handle : ChildHandle} (hpoint : s.point = .guarding slot handle) :
      Move s { s with point := .waiting slot }
  | reported {slot : ReplacedSlot} {reportedHealthy : List (ProcessInstanceId × U64)}
      (hpoint : s.point = .waiting slot) (hkept : s.reportedHealthy ⊆ reportedHealthy) :
      Move s { s with reportedHealthy }
  | ready {slot : ReplacedSlot} {reportedHealthy : List (ProcessInstanceId × U64)}
      (hpoint : s.point = .waiting slot) (hkept : s.reportedHealthy ⊆ reportedHealthy)
      (hready : (slot.replacement.id, slot.replacement.generation) ∈ reportedHealthy) :
      Move s { s with reportedHealthy, point := .draining slot }
  | drained {slot : ReplacedSlot} (hpoint : s.point = .draining slot) :
      Move s { s with
        runtime := stopInstance s.runtime slot.oldEntry .stopped
        drained := s.drained ++ [(slot.old.id, slot.replacement)]
        point := .promoting slot }
  | promoted {operation : Option ProcessOperation} {tables : ProcessTables} {slot : ReplacedSlot}
      {promoted : ProcessInstance} (hpoint : s.point = .promoting slot)
      (hpromoted : s.tables.promoteProcessInstance slot.old slot.replacement =
        (.ok (some promoted), tables)) :
      Move s { s with
        operation, tables
        runtime := s.runtime.promoteRuntimeInstance slot.replacement.id promoted
        point := .next slot.rest }
  | finished {operations : List ProcessOperation} (hpoint : s.point = .finishing) :
      Move s { s with
        operations, operation := s.operation.map finish, point := .returned (.ok ()) }
  | exited (id : ProcessInstanceId) :
      Move s { s with runtime := s.runtime.filter fun entry => entry.id ≠ id, hasFailed := true }

section Moves

variable {s t : RollingState}

theorem breakWith_fails {runtime : Runtime} {tables : ProcessTables}
    {outcome : ProcessOperationInstanceOutcome} {compensation : String}
    (houtcome : outcome.state ≠ .completed) (hlength : runtime.length ≤ s.runtime.length)
    (hunique : Unique RuntimeEntry.id s.runtime → Unique RuntimeEntry.id runtime)
    (hids : tables.instances.map ProcessInstanceRow.instanceId =
      s.tables.instances.map ProcessInstanceRow.instanceId) :
    s.Fails ({ s with runtime, tables }.breakWith outcome compensation) where
  hasFailed := rfl
  length := hlength
  unique := hunique
  ids := hids
  point := by
    apply Or.inl
    refine ⟨rfl, fun operation hoperation => ?_⟩
    obtain ⟨before, -, rfl⟩ := Option.map_eq_some_iff.mp hoperation
    rw [List.all_append]
    simp [houtcome]
  allocated := rfl
  reportedHealthy := rfl
  drained := rfl

theorem returned_fails {tables : ProcessTables} {error : AppError}
    (hids : tables.instances.map ProcessInstanceRow.instanceId =
      s.tables.instances.map ProcessInstanceRow.instanceId) :
    s.Fails { s with tables, point := .returned (.error error), hasFailed := true } where
  hasFailed := rfl
  length := Nat.le_refl _
  unique := id
  ids := hids
  point := .inr ⟨error, rfl⟩
  allocated := rfl
  reportedHealthy := rfl
  drained := rfl

theorem abandon_fails {runtime : Runtime} {slot : ReplacedSlot} {stage compensation : String}
    (hlength : runtime.length ≤ s.runtime.length)
    (hunique : Unique RuntimeEntry.id s.runtime → Unique RuntimeEntry.id runtime) :
    s.Fails ({ s with runtime }.abandon slot stage compensation) :=
  breakWith_fails (fun h => by cases h) hlength hunique ProcessTables.retireProcessInstance_ids

theorem stopInstance_length {runtime : Runtime} {entry : RuntimeEntry} {outcome : StopOutcome} :
    (stopInstance runtime entry outcome).length ≤ runtime.length := by
  have hset (state : ProcessState) :
      (runtime.setRuntimeState entry.id state).length = runtime.length := List.length_map _
  cases outcome with
  | notCancelled | notSignalled => exact (hset _).le
  | notCleaned | stopped => exact (List.length_filter_le _ _).trans (hset _).le

theorem stopInstance_unique {runtime : Runtime} {entry : RuntimeEntry} {outcome : StopOutcome}
    (hu : Unique RuntimeEntry.id runtime) :
    Unique RuntimeEntry.id (stopInstance runtime entry outcome) := by
  have hset (state : ProcessState) :
      Unique RuntimeEntry.id (runtime.setRuntimeState entry.id state) := hu.update fun _ h => h
  cases outcome with
  | notCancelled | notSignalled => exact hset _
  | notCleaned | stopped => exact (hset _).filter _

theorem startOperation_move {operationId : Uuid} {now : Instant} (hpoint : s.point = .start) :
    s.Move (s.startOperation operationId now) := by
  have hrefuse (error : AppError) :
      s.Move { s with point := .returned (.error error), hasFailed := true } :=
    .failed (@returned_fails s s.tables _ rfl)
  unfold startOperation
  split
  · exact hrefuse _
  · split
    · exact hrefuse _
    · split
      · exact hrefuse _
      · split
        · split
          · exact hrefuse _
          · exact .replayed hpoint
        · split
          · exact hrefuse _
          · exact .started hpoint ‹_›

theorem nextSlot_move {newId : ProcessInstanceId} {rest : List ProcessInstance}
    (hpoint : s.point = .next rest) (hnew : s.runtime.runtimeEntry newId = none) :
    s.Move (s.nextSlot newId rest) := by
  cases rest with
  | nil => exact .ended hpoint
  | cons old rest =>
    cases hold : s.runtime.runtimeEntry old.id with
    | none =>
      simp only [nextSlot, hold]
      apply Move.failed
      exact @breakWith_fails s _ s.tables _ _ (fun h => by cases h) (Nat.le_refl _) id rfl
    | some oldEntry =>
      simp only [nextSlot, hold]
      split
      · exact .failed (@returned_fails s s.tables _ rfl)
      · obtain ⟨rfl, hdefinition, halloc⟩ := ProcessTables.allocateProcessInstance_ok ‹_›
        exact .allocated hpoint hold hnew hdefinition halloc

theorem drain_move {slot : ReplacedSlot} {outcome : StopOutcome}
    (hpoint : s.point = .draining slot) : s.Move (s.drain slot outcome) := by
  have hfails (outcome : StopOutcome) (error : String) : (s.markDrained slot).Fails
      (drainFailed { s.markDrained slot with
        runtime := stopInstance s.runtime slot.oldEntry outcome } slot error) :=
    breakWith_fails (fun h => by cases h) stopInstance_length stopInstance_unique rfl
  cases outcome with
  | notCancelled error | notSignalled error | notCleaned error =>
    exact .drainFailed hpoint (hfails _ error)
  | stopped => exact .drained hpoint

theorem promote_move {slot : ReplacedSlot} (hpoint : s.point = .promoting slot) :
    s.Move (s.promote slot) := by
  have hids := ProcessTables.promoteProcessInstance_ids (s := s.tables) slot.old slot.replacement
  unfold promote
  split
  · rename_i heq
    rw [heq] at hids
    exact .failed (returned_fails hids)
  · rename_i heq
    rw [heq] at hids
    exact .failed (breakWith_fails (s := s) (fun h => by cases h) (Nat.le_refl _) id hids)
  · exact .promoted hpoint ‹_›

theorem step_move {e : RollingEvent} (h : machine.step s e = some t) : s.Move t := by
  change s.step e = some t at h
  cases e with
  | start operationId now =>
    simp only [step] at h
    split at h
    · exact Option.some.inj h ▸ startOperation_move ‹_›
    · cases h
  | next newId =>
    simp only [step] at h
    split at h
    · split at h
      · cases h
      · exact Option.some.inj h ▸ nextSlot_move ‹_› (Option.not_isSome_iff_eq_none.mp ‹_›)
    · cases h
  | spawned handle =>
    simp only [step] at h
    split at h
    · exact Option.some.inj h ▸ .spawned ‹_›
    · cases h
  | notSpawned error =>
    simp only [step] at h
    split at h
    · exact Option.some.inj h ▸ .failed (abandon_fails (Nat.le_refl _) id)
    · cases h
  | guarded =>
    simp only [step] at h
    split at h
    · exact Option.some.inj h ▸ .guarded ‹_›
    · cases h
  | notGuarded error =>
    simp only [step] at h
    split at h
    · exact Option.some.inj h ▸
        .failed (abandon_fails (List.length_filter_le _ _) fun hu => hu.filter _)
    · cases h
  | snapshot instanceId logicalGeneration readiness =>
    simp only [step] at h
    split at h
    · rename_i slot hpoint
      split at h
      · cases h
      · split at h
        · rcases instanceId with _ | id
          · exact Option.some.inj h ▸ .reported hpoint (List.Subset.refl _)
          · rcases logicalGeneration with _ | generation
            · simp only [reduceCtorEq, and_false, if_false] at h
              exact Option.some.inj h ▸ .reported hpoint (List.Subset.refl _)
            · have hkept : s.reportedHealthy ⊆ s.reportedHealthy ++ [(id, generation)] :=
                List.subset_append_left _ _
              simp only [Option.some.injEq] at h
              split at h
              · rename_i hready
                obtain ⟨rfl, rfl⟩ := hready
                exact Option.some.inj h ▸
                  .ready hpoint hkept (List.mem_append_right _ List.mem_cons_self)
              · exact Option.some.inj h ▸ .reported hpoint hkept
        · exact Option.some.inj h ▸ .reported hpoint (List.Subset.refl _)
    · cases h
  | unready outcome =>
    simp only [step] at h
    split at h
    · rename_i slot hpoint
      rw [← Option.some.inj h]
      apply Move.failed
      split
      · exact abandon_fails stopInstance_length stopInstance_unique
      · exact abandon_fails (Nat.le_refl _) id
    · cases h
  | drain outcome =>
    simp only [step] at h
    split at h
    · exact Option.some.inj h ▸ drain_move ‹_›
    · cases h
  | promote =>
    simp only [step] at h
    split at h
    · exact Option.some.inj h ▸ promote_move ‹_›
    · cases h
  | finish =>
    simp only [step] at h
    split at h
    · exact Option.some.inj h ▸ .finished ‹_›
    · cases h
  | repoFails error =>
    simp only [step] at h
    split at h
    · exact Option.some.inj h ▸ .failed (returned_fails rfl)
    · cases h
  | exited id =>
    simp only [step] at h
    exact Option.some.inj h ▸ .exited id

end Moves

end RollingState

end Supervisor
