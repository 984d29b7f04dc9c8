import Supervisor.RollingEntries

namespace Supervisor

open KeyedRows (Unique)

namespace ProcessTables

variable {s t : ProcessTables} {definitionId : ProcessDefinitionId}

theorem instanceOf_ok {row : ProcessInstanceRow} {instance_ : ProcessInstance}
    (h : instanceOf row = .ok instance_) :
    row.instanceId = instance_.id ∧ row.definitionId = instance_.definitionId ∧
      row.ordinal = instance_.ordinal.val ∧ row.generation = instance_.generation.val := by
  have h16 {n : ℤ} {m : U16} (h : U16.ofI64 n = .ok m) : n = m.val := by
    unfold U16.ofI64 at h
    split at h
    · rw [← Except.ok.inj h]
      exact (Int.toNat_of_nonneg (by omega)).symm
    · cases h
  have h64 {n : ℤ} {m : U64} (h : U64.ofI64 n = .ok m) : n = m.val := by
    unfold U64.ofI64 at h
    split at h
    · rw [← Except.ok.inj h]
      exact (Int.toNat_of_nonneg (by omega)).symm
    · cases h
  unfold instanceOf at h
  cases hordinal : U16.ofI64 row.ordinal with
  | error error =>
    rw [hordinal] at h
    cases h
  | ok ordinal =>
    cases hgeneration : U64.ofI64 row.generation with
    | error error =>
      rw [hordinal, hgeneration] at h
      cases h
    | ok generation =>
      rw [hordinal, hgeneration] at h
      have heq := Except.ok.inj h
      subst heq
      exact ⟨rfl, rfl, h16 hordinal, h64 hgeneration⟩

theorem mapM_ok {α β ε : Type} {f : α → Except ε β} {xs : List α} {ys : List β}
    (h : xs.mapM f = .ok ys) : List.Forall₂ (fun x y => f x = .ok y) xs ys := by
  induction xs generalizing ys with
  | nil =>
    rw [List.mapM_nil] at h
    exact Except.ok.inj h ▸ .nil
  | cons x xs ih =>
    rw [List.mapM_cons] at h
    cases hx : f x with
    | error error =>
      rw [hx] at h
      cases h
    | ok y =>
      cases hxs : xs.mapM f with
      | error error =>
        rw [hx, hxs] at h
        cases h
      | ok ys' =>
        rw [hx, hxs] at h
        exact Except.ok.inj h ▸ .cons hx (ih hxs)

theorem exists_mem_of_forall₂ {α β : Type} {R : α → β → Prop} {xs : List α} {ys : List β}
    (h : List.Forall₂ R xs ys) {y : β} (hy : y ∈ ys) : ∃ x ∈ xs, R x y := by
  induction h with
  | nil => exact absurd hy List.not_mem_nil
  | @cons x _ xs _ hx _ ih =>
    rcases List.mem_cons.mp hy with rfl | hy
    · exact ⟨x, List.mem_cons_self, hx⟩
    · obtain ⟨x', hx', hR⟩ := ih hy
      exact ⟨x', List.mem_cons_of_mem x hx', hR⟩

theorem activeRows_unique : Unique ProcessInstanceRow.instanceId (s.activeRows definitionId) :=
  s.unique.filter _

theorem Allocates.activeRows {replacement : ProcessInstance} (h : s.Allocates t replacement)
    (hdefinition : replacement.definitionId = definitionId) :
    t.activeRows definitionId = s.activeRows definitionId ++
      [{ instanceId := replacement.id, definitionId := replacement.definitionId
         ordinal := replacement.ordinal.val }] := by
  unfold ProcessTables.activeRows
  rw [h.instances, List.filter_append]
  simp [hdefinition]

theorem activeRows_active {row : ProcessInstanceRow} (hrow : row ∈ s.activeRows definitionId) :
    row.active = true :=
  (Bool.and_eq_true_iff.mp (List.mem_filter.mp hrow).2).2

theorem isSlot_eq {row row' : ProcessInstanceRow} {instance_ : ProcessInstance}
    (hrow : row ∈ s.activeRows definitionId) (hrow' : row' ∈ s.activeRows definitionId)
    (hok : instanceOf row = .ok instance_) :
    isSlot instance_ instance_.generation.val row' = decide (row'.instanceId = instance_.id) := by
  obtain ⟨hid, hdefinition, hordinal, hgeneration⟩ := instanceOf_ok hok
  by_cases hsame : row'.instanceId = instance_.id
  · have heq := activeRows_unique.eq_of_key hrow' hrow (hsame.trans hid.symm)
    subst heq
    simp [isSlot, hid, hdefinition, hordinal, hgeneration, activeRows_active hrow]
  · simp [isSlot, hsame]

/-- The active rows after a promotion. -/
theorem activeRows_promoted {retired replacement : ProcessInstance}
    (h : t.instances = promotedRows retired replacement s.instances) :
    t.activeRows definitionId =
      ((s.activeRows definitionId).filter
        fun row => !isSlot retired retired.generation.val row).map fun row =>
          if isSlot replacement replacement.generation.val row then
            { row with ordinal := retired.ordinal.val }
          else row := by
  let retire (row : ProcessInstanceRow) : ProcessInstanceRow :=
    if isSlot retired retired.generation.val row then { row with active := false } else row
  let move (row : ProcessInstanceRow) : ProcessInstanceRow :=
    if isSlot replacement replacement.generation.val row then
      { row with ordinal := retired.ordinal.val }
    else row
  let isActive (row : ProcessInstanceRow) : Bool := row.definitionId = definitionId && row.active
  have hmove (row : ProcessInstanceRow) : isActive (move row) = isActive row := by
    simp only [isActive, move]
    split <;> rfl
  have hretire (row : ProcessInstanceRow) : isActive (retire row) =
      (!isSlot retired retired.generation.val row && isActive row) := by
    simp only [isActive, retire]
    by_cases hslot : isSlot retired retired.generation.val row = true <;> simp [hslot]
  change t.instances.filter isActive =
    ((s.instances.filter isActive).filter
      fun row => !isSlot retired retired.generation.val row).map move
  rw [h]
  change ((s.instances.map retire).map move).filter isActive = _
  rw [List.filter_map, List.filter_map, List.filter_filter]
  congr 1
  calc (s.instances.filter ((isActive ∘ move) ∘ retire)).map retire
      = (s.instances.filter fun row =>
          !isSlot retired retired.generation.val row && isActive row).map retire := by
        congr 1
        apply List.filter_congr
        intro row _
        rw [Function.comp_apply, Function.comp_apply, hmove, hretire]
    _ = _ := by
        conv_rhs => rw [← List.map_id (s.instances.filter _)]
        apply List.map_congr_left
        intro row hrow
        have hslot := (Bool.and_eq_true_iff.mp (List.mem_filter.mp hrow).2).1
        simp only [Bool.not_eq_true'] at hslot
        simp [retire, hslot]

end ProcessTables

open ProcessTables (instanceOf isSlot)

namespace RollingState

/-- A row that belongs to an allocated replacement, at its generation. -/
def IsReplacement (allocated : List (ProcessInstanceId × ProcessInstance))
    (row : ProcessInstanceRow) : Prop :=
  ∃ d ∈ allocated, row.instanceId = d.2.id ∧ row.generation = d.2.generation.val

/-- The active rows of `n` slots, of which those of `rest` are still to be replaced. -/
structure SlotRows (n : ℕ) (rows : List ProcessInstanceRow)
    (allocated : List (ProcessInstanceId × ProcessInstance)) (rest : List ProcessInstance) :
    Prop where
  ordinals : (rows.map ProcessInstanceRow.ordinal).Perm ((List.range n).map Nat.cast)
  distinct : (rest.map ProcessInstance.id).Nodup
  toReplace : ∀ instance_ ∈ rest, ∃ row ∈ rows, instanceOf row = .ok instance_
  replaced : ∀ row ∈ rows, row.instanceId ∈ rest.map ProcessInstance.id ∨
    IsReplacement allocated row

/-- The active rows while a slot has two. -/
def SurgeRows (n : ℕ) (rows : List ProcessInstanceRow)
    (allocated : List (ProcessInstanceId × ProcessInstance)) (slot : ReplacedSlot) : Prop :=
  ∃ surge others, rows.Perm (surge :: others) ∧ instanceOf surge = .ok slot.replacement ∧
    SlotRows n others allocated (slot.old :: slot.rest) ∧
    (slot.old.id, slot.replacement) ∈ allocated

/-- The active rows at each point. Once an outcome is not completed they do not count. -/
def RowsAt (n : ℕ) (rows : List ProcessInstanceRow)
    (allocated : List (ProcessInstanceId × ProcessInstance)) (operation : Option ProcessOperation) :
    RollingPoint → Prop
  | .start => (rows.map ProcessInstanceRow.ordinal).Perm ((List.range n).map Nat.cast)
  | .next rest => SlotRows n rows allocated rest
  | .spawning slot | .guarding slot _ | .waiting slot | .draining slot | .promoting slot =>
    SurgeRows n rows allocated slot
  | .finishing => ∀ result, operation = some result →
      (result.outcomes.all fun outcome => outcome.state = .completed) = true →
      SlotRows n rows allocated []
  | .returned (.ok _) => ∀ result, operation = some result → result.phase = "completed" →
      SlotRows n rows allocated []
  | .replayed | .returned (.error _) => True

section Rows

variable {n : ℕ} {rows : List ProcessInstanceRow}
  {allocated : List (ProcessInstanceId × ProcessInstance)} {rest : List ProcessInstance}

theorem SlotRows.start {definitionId : ProcessDefinitionId} {tables : ProcessTables}
    (hordinals : ((tables.activeRows definitionId).map ProcessInstanceRow.ordinal).Perm
      ((List.range n).map Nat.cast))
    (hslots : tables.listProcessInstances definitionId = .ok rest) :
    SlotRows n (tables.activeRows definitionId) allocated rest := by
  have hperm := List.perm_insertionSort (fun a b : ProcessInstanceRow => a.ordinal ≤ b.ordinal)
    (tables.activeRows definitionId)
  have hall := ProcessTables.mapM_ok hslots
  have hids : rest.map ProcessInstance.id =
      ((tables.activeRows definitionId).insertionSort fun a b => a.ordinal ≤ b.ordinal).map
        ProcessInstanceRow.instanceId := by
    symm
    rw [← List.forall₂_eq_eq_eq, List.forall₂_map_left_iff, List.forall₂_map_right_iff]
    exact hall.imp fun _ _ h => (ProcessTables.instanceOf_ok h).1
  refine ⟨hordinals, ?_, fun instance_ hinstance => ?_, fun row hrow => .inl ?_⟩
  · rw [hids, (hperm.map ProcessInstanceRow.instanceId).nodup_iff]
    exact ProcessTables.activeRows_unique
  · obtain ⟨row, hrow, hok⟩ := ProcessTables.exists_mem_of_forall₂ hall hinstance
    exact ⟨row, hperm.mem_iff.mp hrow, hok⟩
  · rw [hids, List.mem_map]
    exact ⟨row, hperm.mem_iff.mpr hrow, rfl⟩

theorem SlotRows.mono {allocated' : List (ProcessInstanceId × ProcessInstance)}
    (h : SlotRows n rows allocated rest) (hsub : allocated ⊆ allocated') :
    SlotRows n rows allocated' rest := by
  refine ⟨h.ordinals, h.distinct, h.toReplace, fun row hrow => (h.replaced row hrow).imp_right ?_⟩
  rintro ⟨d, hd, hrow⟩
  exact ⟨d, hsub hd, hrow⟩

/-- The rows when the replacement of the next slot is allocated. -/
theorem SlotRows.surge {old replacement : ProcessInstance} {oldEntry : RuntimeEntry}
    {s t : ProcessTables} {definitionId : ProcessDefinitionId}
    (h : SlotRows n (s.activeRows definitionId) allocated (old :: rest))
    (hdefinition : replacement.definitionId = definitionId) (halloc : s.Allocates t replacement) :
    SurgeRows n (t.activeRows definitionId) (allocated ++ [(old.id, replacement)])
      { old, oldEntry, replacement, rest } := by
  let surge : ProcessInstanceRow :=
    { instanceId := replacement.id, definitionId := replacement.definitionId
      ordinal := replacement.ordinal.val }
  refine ⟨surge, s.activeRows definitionId, ?_, ?_, h.mono (List.subset_append_left _ _),
    List.mem_append_right _ List.mem_cons_self⟩
  · rw [halloc.activeRows hdefinition]
    exact List.perm_append_comm
  · have hordinal : U16.ofI64 surge.ordinal = .ok replacement.ordinal := by
      unfold U16.ofI64
      have hlt := replacement.ordinal.isLt
      rw [dif_pos ⟨Int.natCast_nonneg _, by simp only [surge]; omega⟩]
      rfl
    have hgeneration : U64.ofI64 surge.generation = .ok replacement.generation := by
      have hone : replacement.generation = 1 := Fin.ext halloc.generation
      rw [hone]
      rfl
    unfold instanceOf
    rw [hordinal, hgeneration]
    rfl

theorem SurgeRows.slotRows {slot : ReplacedSlot} {s t : ProcessTables}
    {definitionId : ProcessDefinitionId}
    (h : SurgeRows n (s.activeRows definitionId) allocated slot)
    (hrows : t.instances =
      ProcessTables.promotedRows slot.old slot.replacement s.instances) :
    SlotRows n (t.activeRows definitionId) allocated slot.rest := by
  obtain ⟨surge, others, hperm, hsurge, hslot, hallocated⟩ := h
  obtain ⟨oldRow, holdRow, hold⟩ := hslot.toReplace slot.old List.mem_cons_self
  have hunique : Unique ProcessInstanceRow.instanceId (surge :: others) :=
    ProcessTables.activeRows_unique.perm hperm.symm
  have hin {row : ProcessInstanceRow} (hrow : row ∈ surge :: others) :
      row ∈ s.activeRows definitionId := hperm.mem_iff.mpr hrow
  obtain ⟨hsurgeId, -, -, hsurgeGeneration⟩ := ProcessTables.instanceOf_ok hsurge
  obtain ⟨holdId, -, holdOrdinal, -⟩ := ProcessTables.instanceOf_ok hold
  obtain ⟨hsurgeNew, hothers⟩ := List.nodup_cons.mp hunique
  have hnotSurge {row : ProcessInstanceRow} (hrow : row ∈ others) :
      row.instanceId ≠ slot.replacement.id := by
    intro h
    exact hsurgeNew (List.mem_map.mpr ⟨row, hrow, h.trans hsurgeId.symm⟩)
  let moved : ProcessInstanceRow := { surge with ordinal := slot.old.ordinal.val }
  let kept := others.filter fun row => row.instanceId ≠ oldRow.instanceId
  have hactive : (t.activeRows definitionId).Perm (moved :: kept) := by
    let move (row : ProcessInstanceRow) : ProcessInstanceRow :=
      if row.instanceId = slot.replacement.id then { row with ordinal := slot.old.ordinal.val }
      else row
    have hrest : kept.map move = kept := by
      conv_rhs => rw [← List.map_id kept]
      apply List.map_congr_left
      intro row hrow
      exact if_neg (hnotSurge (List.mem_filter.mp hrow).1)
    have hfirst : move surge = moved := if_pos hsurgeId
    have hstays : decide (surge.instanceId ≠ oldRow.instanceId) = true :=
      decide_eq_true fun h => hnotSurge holdRow (h.symm.trans hsurgeId)
    rw [ProcessTables.activeRows_promoted hrows]
    calc List.Perm _ (((s.activeRows definitionId).filter
          fun row => row.instanceId ≠ oldRow.instanceId).map move) := by
          rw [List.filter_congr fun row hrow => by
            rw [ProcessTables.isSlot_eq (hin (List.mem_cons_of_mem _ holdRow)) hrow hold, ← holdId,
              ← decide_not]]
          apply List.Perm.of_eq
          apply List.map_congr_left
          intro row hrow
          rw [ProcessTables.isSlot_eq (hin List.mem_cons_self) (List.mem_filter.mp hrow).1 hsurge]
          simp only [decide_eq_true_eq, move]
      List.Perm _ (((surge :: others).filter
          fun row => row.instanceId ≠ oldRow.instanceId).map move) := (hperm.filter _).map _
      _ = moved :: kept := by
          rw [List.filter_cons, if_pos hstays, List.map_cons, hfirst, hrest]
  have hsplit : others.Perm (oldRow :: kept) := KeyedRows.Unique.perm_filter_ne hothers holdRow
  refine ⟨?_, hslot.distinct.of_cons, fun instance_ hinstance => ?_, fun row hrow => ?_⟩
  · calc ((t.activeRows definitionId).map ProcessInstanceRow.ordinal).Perm
          ((moved :: kept).map ProcessInstanceRow.ordinal) := hactive.map _
      _ = (oldRow :: kept).map ProcessInstanceRow.ordinal := by
          rw [List.map_cons, List.map_cons, holdOrdinal]
      List.Perm _ (others.map ProcessInstanceRow.ordinal) := (hsplit.map _).symm
      List.Perm _ ((List.range n).map Nat.cast) := hslot.ordinals
  · obtain ⟨row, hrow, hok⟩ := hslot.toReplace instance_ (List.mem_cons_of_mem _ hinstance)
    have hne : row.instanceId ≠ oldRow.instanceId := by
      rw [(ProcessTables.instanceOf_ok hok).1, holdId]
      intro h
      exact (List.nodup_cons.mp hslot.distinct).1 (List.mem_map.mpr ⟨instance_, hinstance, h⟩)
    have hkept : row ∈ kept := List.mem_filter.mpr ⟨hrow, decide_eq_true hne⟩
    exact ⟨row, hactive.mem_iff.mpr (List.mem_cons_of_mem _ hkept), hok⟩
  · rcases List.mem_cons.mp (hactive.mem_iff.mp hrow) with rfl | hkept
    · exact .inr ⟨_, hallocated, hsurgeId, hsurgeGeneration⟩
    · obtain ⟨hother, hne⟩ := List.mem_filter.mp hkept
      refine (hslot.replaced row hother).imp_left fun hid => ?_
      rcases List.mem_cons.mp hid with h | h
      · exact absurd (h.trans holdId.symm) (of_decide_eq_true hne)
      · exact h

end Rows

/-- The active rows of the process. -/
def activeRows (s : RollingState) : List ProcessInstanceRow :=
  s.tables.activeRows s.spec.definitionId

def Rows (n : ℕ) (s : RollingState) : Prop :=
  RowsAt n s.activeRows s.allocated s.operation s.point

/-- What one step keeps of the rows. -/
theorem Rows.move {n : ℕ} {s t : RollingState} (h : s.Rows n) (hmove : s.Move t) : t.Rows n := by
  have hat {point : RollingPoint} (hpoint : s.point = point) :
      RowsAt n s.activeRows s.allocated s.operation point := hpoint ▸ h
  have hfails {s' t : RollingState} (hf : s'.Fails t) : t.Rows n := by
    unfold Rows
    rcases hf.point with ⟨hpoint, hoperation⟩ | ⟨error, hpoint⟩
    · rw [hpoint]
      intro result hresult hall
      exact absurd (hoperation result hresult) (by simp [hall])
    · rw [hpoint]
      trivial
  cases hmove with
  | failed hf => exact hfails hf
  | drainFailed hpoint hf => exact hfails hf
  | started hpoint hslots => exact SlotRows.start (hat hpoint) hslots
  | replayed hpoint => trivial
  | ended hpoint =>
    intro result _ _
    exact hat hpoint
  | allocated hpoint hold hnew hdefinition halloc => exact (hat hpoint).surge hdefinition halloc
  | spawned hpoint | guarded hpoint | ready hpoint | drained hpoint =>
    have here := hat hpoint
    exact here
  | reported hpoint hkept => exact h
  | promoted hpoint hpromoted =>
    exact (hat hpoint).slotRows (ProcessTables.promoteProcessInstance_some hpromoted).2
  | finished hpoint =>
    intro result hresult hphase
    obtain ⟨operation, hoperation, rfl⟩ := Option.map_eq_some_iff.mp hresult
    refine hat hpoint operation hoperation ?_
    by_contra hnot
    have hfailed : (finish operation).phase = "failed_closed" := if_neg hnot
    rw [hfailed] at hphase
    exact absurd hphase (by decide)
  | exited id => exact h

/-- What is allocated is new, and what is drained had a replacement that was healthy. -/
structure Replacements (s t : RollingState) : Prop where
  kept : s.tables.instances.map ProcessInstanceRow.instanceId ⊆
    t.tables.instances.map ProcessInstanceRow.instanceId
  isNew : ∀ d ∈ t.allocated, d.2.id ∉ s.tables.instances.map ProcessInstanceRow.instanceId
  drained : ∀ d ∈ t.drained, d ∈ t.allocated ∧ (d.2.id, d.2.generation) ∈ t.reportedHealthy
  ready : ∀ slot, t.point = .draining slot →
    (slot.replacement.id, slot.replacement.generation) ∈ t.reportedHealthy

theorem Replacements.move {n : ℕ} {s t u : RollingState} (h : Replacements s t)
    (hrows : t.Rows n) (hmove : t.Move u) : Replacements s u := by
  have hfails {t' u : RollingState} (h : Replacements s t') (hf : t'.Fails u) :
      Replacements s u := by
    refine ⟨hf.ids ▸ h.kept, hf.allocated ▸ h.isNew, ?_, fun slot hpoint => ?_⟩
    · rw [hf.drained, hf.allocated, hf.reportedHealthy]
      exact h.drained
    · rcases hf.point with ⟨hp, -⟩ | ⟨error, hp⟩ <;> exact nomatch hp.symm.trans hpoint
  have hmarked {slot : ReplacedSlot} (hpoint : t.point = .draining slot) :
      Replacements s (t.markDrained slot) := by
    have hat : RowsAt n t.activeRows t.allocated t.operation (.draining slot) := hpoint ▸ hrows
    obtain ⟨_, _, _, _, _, hallocated⟩ := hat
    refine ⟨h.kept, h.isNew, fun d hd => ?_, h.ready⟩
    rcases List.mem_append.mp hd with hd | hd
    · exact h.drained d hd
    · rw [List.mem_singleton.mp hd]
      exact ⟨hallocated, h.ready slot hpoint⟩
  cases hmove with
  | failed hf => exact hfails h hf
  | drainFailed hpoint hf => exact hfails (hmarked hpoint) hf
  | started hpoint hslots => exact ⟨h.kept, h.isNew, h.drained, fun slot h => by cases h⟩
  | replayed hpoint => exact ⟨h.kept, h.isNew, h.drained, fun slot h => by cases h⟩
  | ended hpoint => exact ⟨h.kept, h.isNew, h.drained, fun slot h => by cases h⟩
  | allocated hpoint hold hnew hdefinition halloc =>
    refine ⟨fun id hid => ?_, fun d hd => ?_, fun d hd => ?_, fun slot h => by cases h⟩
    · rw [halloc.instances, List.map_append]
      exact List.mem_append_left _ (h.kept hid)
    · rcases List.mem_append.mp hd with hd | hd
      · exact h.isNew d hd
      · rw [List.mem_singleton.mp hd]
        intro hin
        obtain ⟨row, hrow, hid⟩ := List.mem_map.mp (h.kept hin)
        exact halloc.isNew row hrow hid
    · exact (h.drained d hd).imp_left (List.mem_append_left _)
  | spawned hpoint => exact ⟨h.kept, h.isNew, h.drained, fun slot h => by cases h⟩
  | guarded hpoint => exact ⟨h.kept, h.isNew, h.drained, fun slot h => by cases h⟩
  | reported hpoint hkept =>
    exact ⟨h.kept, h.isNew, fun d hd => (h.drained d hd).imp_right (hkept ·),
      fun slot hdraining => hkept (h.ready slot hdraining)⟩
  | ready hpoint hkept hready =>
    refine ⟨h.kept, h.isNew, fun d hd => (h.drained d hd).imp_right (hkept ·), ?_⟩
    rintro _ ⟨⟩
    exact hready
  | drained hpoint =>
    have hdrained := (hmarked hpoint).drained
    exact ⟨h.kept, h.isNew, hdrained, fun slot h => by cases h⟩
  | @promoted _ _ slot _ hpoint hpromoted =>
    have hids := ProcessTables.promoteProcessInstance_ids (s := t.tables) slot.old slot.replacement
    rw [hpromoted] at hids
    exact ⟨hids ▸ h.kept, h.isNew, h.drained, fun slot h => by cases h⟩
  | finished hpoint => exact ⟨h.kept, h.isNew, h.drained, fun slot h => by cases h⟩
  | exited id => exact ⟨h.kept, h.isNew, h.drained, h.ready⟩

/-- A process with `n` instances, before its restart. -/
structure HasInstances (s : RollingState) (n : ℕ) : Prop where
  point : s.point = .start
  hasFailed : s.hasFailed = false
  allocated : s.allocated = []
  drained : s.drained = []
  unique : Unique RuntimeEntry.id s.runtime
  entries : s.runtime.length = n
  ordinals : (s.activeRows.map ProcessInstanceRow.ordinal).Perm ((List.range n).map Nat.cast)

/-- The restart has completed, with an outcome for every slot. -/
def IsCompleted (s : RollingState) : Prop :=
  s.point = .returned (.ok ()) ∧
    ∃ operation, s.operation = some operation ∧ operation.phase = "completed"

/-- What the restart of a process with `n` instances guarantees. -/
structure KeepsCapacity (s t : RollingState) (n : ℕ) : Prop where
  atLeast : t.hasFailed = false → n ≤ t.runtime.length
  atMost : t.runtime.length ≤ n + 1
  drained : ∀ d ∈ t.drained, d ∈ t.allocated ∧ (d.2.id, d.2.generation) ∈ t.reportedHealthy
  ordinals : t.IsCompleted →
    (t.activeRows.map ProcessInstanceRow.ordinal).Perm ((List.range n).map Nat.cast)
  replaced : t.IsCompleted → ∀ row ∈ t.activeRows, IsReplacement t.allocated row ∧
    row.instanceId ∉ s.tables.instances.map ProcessInstanceRow.instanceId

theorem run_keepsCapacity {s t : RollingState} {n : ℕ} (hs : s.HasInstances n)
    (h : machine.Reaches s t) : KeepsCapacity s t n := by
  have hinvariant : t.Entries n ∧ t.Rows n ∧ Replacements s t := by
    apply h.invariant (I := fun t => t.Entries n ∧ t.Rows n ∧ Replacements s t)
    · intro t e u ht _ hstep
      have hmove := step_move hstep
      exact ⟨ht.1.move hmove, ht.2.1.move hmove, ht.2.2.move ht.2.1 hmove⟩
    · refine ⟨⟨hs.unique, ?_⟩, ?_, List.Subset.refl _, ?_, ?_, ?_⟩
      · rw [hs.point]
        exact ⟨hs.entries.le, fun _ => hs.entries.ge⟩
      · unfold Rows
        rw [hs.point]
        exact hs.ordinals
      · rw [hs.allocated]
        exact fun d hd => absurd hd List.not_mem_nil
      · rw [hs.drained]
        exact fun d hd => absurd hd List.not_mem_nil
      · rw [hs.point]
        exact fun slot h => by cases h
  obtain ⟨hentries, hrows, hreplacements⟩ := hinvariant
  have hbounds := hentries.here.bounds hentries.unique
  have hdone (hcompleted : t.IsCompleted) : SlotRows n t.activeRows t.allocated [] := by
    obtain ⟨hpoint, operation, hoperation, hphase⟩ := hcompleted
    unfold Rows at hrows
    rw [hpoint] at hrows
    exact hrows operation hoperation hphase
  refine ⟨hbounds.2, hbounds.1, hreplacements.drained, fun hc => (hdone hc).ordinals, ?_⟩
  intro hcompleted row hrow
  have hreplacement := ((hdone hcompleted).replaced row hrow).resolve_left List.not_mem_nil
  obtain ⟨d, hd, hid, -⟩ := id hreplacement
  exact ⟨hreplacement, hid ▸ hreplacements.isNew d hd⟩

/-- Two instances of a process that has a readiness check. -/
def twoInstances : RollingState :=
  let definitionId : ProcessDefinitionId := ⟨1⟩
  let instance_ (ordinal : U16) : ProcessInstance :=
    { id := ⟨10 + ordinal.val⟩, definitionId, ordinal, generation := 3 }
  let entry (ordinal : U16) : RuntimeEntry :=
    { instance_ := instance_ ordinal
      handle := { processId := ordinal.val, pid := 100, pgid := some 100, generation := some "a"
                  startedAt := 0 }
      state := .running }
  { spec := { definitionId, name := "web", command := "web", instances := 2
              readiness := some ⟨.tcp "localhost" 80, 1, 1, 1, 1⟩
              rolling := some ⟨1, 0, 1, true⟩ }
    tables := { specs := [{ definitionId }]
                instances := [⟨⟨10⟩, definitionId, 0, 3, true, {}, 0⟩,
                  ⟨⟨11⟩, definitionId, 1, 3, true, {}, 0⟩]
                unique := by unfold KeyedRows.Unique; decide }
    runtime := [entry 0, entry 1] }

def isCompleted (s : RollingState) : Bool :=
  match s.point with
  | .returned (.ok _) => s.operation.any fun operation => operation.phase = "completed"
  | _ => false

theorem isCompleted_iff {s : RollingState} : s.isCompleted = true ↔ s.IsCompleted := by
  unfold isCompleted IsCompleted
  cases s.point with
  | returned result =>
    cases result with
    | ok _ => simp [Option.any_eq_true]
    | error error => simp
  | _ => simp

/-- Both are replaced. -/
theorem twoInstances_keepsCapacity :
    ∃ t, t.IsCompleted ∧ KeepsCapacity twoInstances t 2 := by
  have hunique : KeyedRows.Unique RuntimeEntry.id twoInstances.runtime := by
    unfold KeyedRows.Unique
    decide
  let replace (newId : ℕ) : List RollingEvent :=
    [.next ⟨newId⟩, .spawned ⟨newId, 200, some 200, some "b", 0⟩, .guarded,
      .snapshot none none .unknown, .snapshot (some ⟨newId⟩) (some 1) .healthy, .drain .stopped,
      .promote]
  obtain ⟨t, hreaches, hcompleted⟩ := Machine.exists_reaches_of_exec (M := machine)
    (s := twoInstances) isCompleted
    ([.start 7 0] ++ replace 20 ++ replace 21 ++ [.next ⟨22⟩, .finish]) (by decide +kernel)
  exact ⟨t, isCompleted_iff.mp hcompleted, run_keepsCapacity
    ⟨rfl, rfl, rfl, rfl, hunique, rfl, by decide⟩ hreaches⟩

end RollingState

end Supervisor
