import Supervisor.RuntimeHandles
import Supervisor.SlotOwnership

namespace Supervisor

open KeyedRows (Unique)

/-- What the calls answer while `bootstrap` comes to one process. -/
structure RestoreReplies where
  list : Option RepoError := none
  handle : ProcessInstanceId → Option RepoError := fun _ => none
  probe : ProcessInstanceId → Option String := fun _ => none
  clear : ProcessInstanceId → Option RepoError := fun _ => none
  /-- Of `build_status`. -/
  status : Option RepoError := none
  probeStatus : ProcessInstanceId → Option String := fun _ => none
  start : StartReplies

namespace SlotState

/-- `restore_detached_process`, for one slot; a failure of its guards is only logged. -/
def restoreInstance (r : RestoreReplies) (s : SlotState) (instance_ : ProcessInstance) :
    SlotState :=
  match RepoError.orElse (r.handle instance_.id)
      (s.tables.getProcessInstanceRuntimeHandle instance_) with
  | .error _ | .ok none => s
  | .ok (some handle) =>
    -- a child that cannot be probed is kept, too
    if (r.probe instance_.id).isSome || s.isAlive handle then
      { s with runtime := s.runtime.insertRuntimeEntry ⟨instance_, handle, .running⟩ }
    else match r.clear instance_.id with
      | some _ => s
      | none => { s with
          tables := (s.tables.clearProcessInstanceRuntimeHandleIfMatches instance_ handle).2 }

def restoreDetachedProcess (r : RestoreReplies) (s : SlotState) : SlotState :=
  match RepoError.orElse r.list (s.tables.listProcessInstances s.spec.definitionId) with
  | .error _ => s
  | .ok instances => instances.foldl (restoreInstance r) s

/-- Whether `build_status` finds the process running: any of its instances is enough. -/
def isRunning (r : RestoreReplies) (s : SlotState) : Bool :=
  match RepoError.orElse r.status (s.tables.listProcessInstances s.spec.definitionId) with
  | .error _ => false
  | .ok instances => instances.any fun instance_ =>
    match s.runtime.runtimeEntry instance_.id with
    | some entry => (r.probeStatus instance_.id).isNone && s.isAlive entry.handle &&
        entry.state = .running
    | none => false

/-- The turn of one process in `bootstrap` -/
def bootstrapProcess (r : RestoreReplies) (s : SlotState) : SlotState :=
  if s.spec.isSystemRegistered then s
  else
    let s := if s.spec.lifecycle = .detached then s.restoreDetachedProcess r else s
    if s.spec.autostart && !s.isRunning r then (s.startProcess r.start).2 else s

end SlotState

/-- All processes, with the entries by name. -/
structure DaemonState where
  tables : ProcessTables
  runtime : String → Runtime
  children : List Child

namespace DaemonState

def process (s : DaemonState) (spec : ProcessSpec) : SlotState where
  spec
  tables := s.tables
  runtime := s.runtime spec.name
  children := s.children

def put (s : DaemonState) (t : SlotState) : DaemonState where
  tables := t.tables
  runtime := Function.update s.runtime t.spec.name t.runtime
  children := t.children

/-- The loop over the stored definitions in `bootstrap` -/
def bootstrap (r : ProcessSpec → RestoreReplies) (specs : List ProcessSpec) (s : DaemonState) :
    DaemonState :=
  specs.foldl (fun s spec => s.put ((s.process spec).bootstrapProcess (r spec))) s

end DaemonState

namespace SlotState

def slots (s : SlotState) : List ProcessInstance :=
  (s.tables.listProcessInstances s.spec.definitionId).toOption.getD []

def recordedHandle (s : SlotState) (slot : ProcessInstance) : Option ChildHandle :=
  (s.tables.getProcessInstanceRuntimeHandle slot).toOption.join

/-- The child that is adopted for a slot: one that it records, and that is alive. -/
def adopted (s : SlotState) (slot : ProcessInstance) : Option ChildHandle :=
  if s.spec.lifecycle = .detached then (s.recordedHandle slot).filter s.isAlive else none

/-- A child has its entry. -/
def HasEntry (s : SlotState) (child : Child) : Prop :=
  ∃ entry ∈ s.runtime, entry.id = child.instanceId ∧ entry.handle = child.handle

/-- The full set of instances, after a restart that found the children of `s`. -/
structure Restored (s t : SlotState) : Prop where
  /-- One live child with an entry for each ordinal, and none beyond. -/
  live : ∀ k : ℕ, (t.runtime.filter fun entry =>
    t.isAlive entry.handle && entry.instance_.ordinal.val = k).length =
      if k < s.spec.instances.val then 1 else 0
  /-- A survivor is adopted, and no other child is spawned for its slot. -/
  adopted : ∀ slot ∈ s.slots, slot.ordinal < s.spec.instances → ∀ child ∈ s.children,
    child.instanceId = slot.id → t.HasEntry child ∧
      (t.children.filter fun child => child.instanceId = slot.id) =
        s.children.filter fun child => child.instanceId = slot.id
  /-- No child of a slot beyond is left without an entry. -/
  surplus : ∀ slot ∈ s.slots, s.spec.instances ≤ slot.ordinal → ∀ child ∈ t.children,
    child.instanceId = slot.id → t.HasEntry child

/-- When a slot has a child to be adopted, each ordinal has one, there is none beyond, and there is
no other child; otherwise each ordinal has a slot, and there is no child at all. -/
def Restorable (s : SlotState) : Prop :=
  if s.slots.any fun slot => (s.adopted slot).isSome then
    (∀ k : ℕ, (s.slots.filter fun slot => (s.adopted slot).isSome && slot.ordinal.val = k).length =
      if k < s.spec.instances.val then 1 else 0) ∧
    ∀ slot ∈ s.slots, ∀ child ∈ s.children, child.instanceId = slot.id →
      s.adopted slot = some child.handle
  else
    (∀ k < s.spec.instances.val,
      (s.slots.filter fun slot => slot.ordinal.val = k).length = 1) ∧
    ∀ slot ∈ s.slots, ∀ child ∈ s.children, child.instanceId ≠ slot.id

/-- The tables can be read. -/
structure Readable (s : SlotState) : Prop where
  list : s.tables.listProcessInstances s.spec.definitionId = .ok s.slots
  handle : ∀ slot ∈ s.slots,
    s.tables.getProcessInstanceRuntimeHandle slot = .ok (s.recordedHandle slot)

end SlotState

namespace RestoreReplies

/-- No call fails. -/
structure Succeeds (r : RestoreReplies) : Prop where
  list : r.list = none
  handle : ∀ id, r.handle id = none
  probe : ∀ id, r.probe id = none
  clear : ∀ id, r.clear id = none
  status : r.status = none
  probeStatus : ∀ id, r.probeStatus id = none
  startList : r.start.list = none
  startHandle : ∀ id, r.start.handle id = none
  startProbe : ∀ id, r.start.probe id = none
  startClear : ∀ id, r.start.clear id = none
  startRetire : ∀ id, r.start.retire id = none
  spawn : ∀ id, ∃ handle, r.start.spawn id = .spawned handle

end RestoreReplies

namespace ProcessTables

variable {s t u : ProcessTables} {ids ids' : List ProcessInstanceId}
  {definitionId : ProcessDefinitionId} {instance_ : ProcessInstance} {handle : ChildHandle}
  {slots : List ProcessInstance}

/-- Rows are rewritten, those of some instances only. -/
def RewritesOnly (ids : List ProcessInstanceId) (s t : ProcessTables) : Prop :=
  t.specs = s.specs ∧ ∃ g : ProcessInstanceRow → ProcessInstanceRow,
    t.instances = s.instances.map g ∧ ∀ row, (g row).instanceId = row.instanceId ∧
      (g row).definitionId = row.definitionId ∧ (row.instanceId ∉ ids → g row = row)

theorem RewritesOnly.refl : RewritesOnly ids s s :=
  ⟨rfl, id, (List.map_id _).symm, fun _ => ⟨rfl, rfl, fun _ => rfl⟩⟩

theorem RewritesOnly.trans (h : RewritesOnly ids s t) (h' : RewritesOnly ids t u) :
    RewritesOnly ids s u := by
  obtain ⟨hspecs, g, hrows, hg⟩ := h
  obtain ⟨hspecs', g', hrows', hg'⟩ := h'
  refine ⟨hspecs'.trans hspecs, g' ∘ g, ?_, fun row => ⟨?_, ?_, fun hrow => ?_⟩⟩
  · rw [hrows', hrows, List.map_map]
  · exact (hg' (g row)).1.trans (hg row).1
  · exact (hg' (g row)).2.1.trans (hg row).2.1
  · have hsame := (hg row).2.2 hrow
    rw [Function.comp_apply, hsame]
    exact (hg' row).2.2 hrow

theorem RewritesOnly.mono (h : RewritesOnly ids s t) (hsub : ids ⊆ ids') :
    RewritesOnly ids' s t := by
  obtain ⟨hspecs, g, hrows, hg⟩ := h
  exact ⟨hspecs, g, hrows, fun row =>
    ⟨(hg row).1, (hg row).2.1, fun hrow => (hg row).2.2 fun hid => hrow (hsub hid)⟩⟩

theorem rewritesOnly_retire {id : ProcessInstanceId} :
    RewritesOnly [id] s (s.retireProcessInstance id) := by
  refine ⟨rfl, _, rfl, fun row => ⟨?_, ?_, fun hrow => ?_⟩⟩
  · split <;> rfl
  · split <;> rfl
  · have hne : row.instanceId ≠ id := fun heq => hrow (List.mem_singleton.mpr heq)
    simp [hne]

theorem rewritesOnly_clear : RewritesOnly [instance_.id] s
    (s.clearProcessInstanceRuntimeHandleIfMatches instance_ handle).2 := by
  unfold clearProcessInstanceRuntimeHandleIfMatches
  split
  · exact .refl
  · refine ⟨rfl, _, rfl, fun row => ⟨?_, ?_, fun hrow => ?_⟩⟩
    · split <;> rfl
    · split <;> rfl
    · refine if_neg fun hcurrent => ?_
      rw [Bool.and_eq_true, Bool.and_eq_true] at hcurrent
      exact hrow (List.mem_singleton.mpr (isCurrent_id hcurrent.1.1))

/-- The slots of another definition are listed as before. -/
theorem RewritesOnly.list (h : RewritesOnly ids s t)
    (hother : ∀ row ∈ s.instances, row.definitionId = definitionId → row.instanceId ∉ ids) :
    t.listProcessInstances definitionId = s.listProcessInstances definitionId := by
  obtain ⟨-, g, hrows, hg⟩ := h
  have hactive : t.activeRows definitionId = s.activeRows definitionId := by
    unfold activeRows
    rw [hrows, List.filter_map]
    have hkept : s.instances.filter ((fun row => decide (row.definitionId = definitionId) &&
        row.active) ∘ g) =
        s.instances.filter fun row => decide (row.definitionId = definitionId) && row.active := by
      apply List.filter_congr
      intro row hrow
      rw [Function.comp_apply, (hg row).2.1]
      by_cases hdefinition : row.definitionId = definitionId
      · rw [(hg row).2.2 (hother row hrow hdefinition)]
      · simp [hdefinition]
    rw [hkept]
    conv_rhs => rw [← List.map_id (s.instances.filter _)]
    apply List.map_congr_left
    intro row hrow
    obtain ⟨hrow, hactive⟩ := List.mem_filter.mp hrow
    exact (hg row).2.2 (hother row hrow (of_decide_eq_true (Bool.and_eq_true_iff.mp hactive).1))
  unfold listProcessInstances
  rw [hactive]

/-- The handle of another instance is read as before. -/
theorem RewritesOnly.readHandle (h : RewritesOnly ids s t) (hid : instance_.id ∉ ids) :
    t.getProcessInstanceRuntimeHandle instance_ = s.getProcessInstanceRuntimeHandle instance_ := by
  obtain ⟨hspecs, g, hrows, hg⟩ := h
  have hsame (row : ProcessInstanceRow) (hrow : row.instanceId = instance_.id) : g row = row :=
    (hg row).2.2 (hrow ▸ hid)
  have hfind (generation : ℤ) : t.instances.find? (isCurrent instance_ generation) =
      s.instances.find? (isCurrent instance_ generation) := by
    rw [hrows, List.find?_map]
    have hcurrent : isCurrent instance_ generation ∘ g = isCurrent instance_ generation := by
      funext row
      rw [Function.comp_apply]
      by_cases hrow : row.instanceId = instance_.id
      · rw [hsame row hrow]
      · have hrow' : (g row).instanceId ≠ instance_.id := (hg row).1 ▸ hrow
        simp [isCurrent, hrow, hrow']
    rw [hcurrent]
    cases hrow : s.instances.find? (isCurrent instance_ generation) with
    | none => rfl
    | some row => exact congrArg some (hsame row (isCurrent_id (List.find?_some hrow)))
  have hcolumns (row : ProcessInstanceRow) :
      t.runtimeColumns instance_ row = s.runtimeColumns instance_ row := by
    unfold runtimeColumns findSpec
    rw [hspecs]
  unfold getProcessInstanceRuntimeHandle
  simp only [hfind, hcolumns]

/-- A handle that is cleared is no part of the slots that are listed. -/
theorem listProcessInstances_clear :
    (s.clearProcessInstanceRuntimeHandleIfMatches instance_ handle).2.listProcessInstances
      definitionId = s.listProcessInstances definitionId := by
  unfold clearProcessInstanceRuntimeHandleIfMatches
  split
  · rfl
  · rename_i generation _
    let g (row : ProcessInstanceRow) : ProcessInstanceRow :=
      if (isCurrent instance_ generation row && row.runtime.processId = some handle.processId &&
        row.runtime.generation = handle.generation) = true then { row with runtime := {} } else row
    have hordinal (row : ProcessInstanceRow) : (g row).ordinal = row.ordinal := by
      simp only [g]
      split <;> rfl
    have hinstance (row : ProcessInstanceRow) : instanceOf (g row) = instanceOf row := by
      simp only [g]
      split <;> rfl
    have hactive (row : ProcessInstanceRow) :
        (decide ((g row).definitionId = definitionId) && (g row).active) =
          (decide (row.definitionId = definitionId) && row.active) := by
      simp only [g]
      split <;> rfl
    have hrows : ProcessTables.activeRows (s.updateInstances (fun row =>
        isCurrent instance_ generation row && row.runtime.processId = some handle.processId &&
          row.runtime.generation = handle.generation) fun row => { row with runtime := {} }).2
        definitionId = (s.activeRows definitionId).map g := by
      change (s.instances.map g).filter _ = _
      rw [List.filter_map]
      congr 1
      exact List.filter_congr fun row _ => hactive row
    unfold listProcessInstances
    dsimp only
    have hsorted : ((s.activeRows definitionId).map g).insertionSort
          (fun a b => a.ordinal ≤ b.ordinal) =
        ((s.activeRows definitionId).insertionSort fun a b => a.ordinal ≤ b.ordinal).map g := by
      symm
      apply List.map_insertionSort
      intro a _ b _
      rw [hordinal, hordinal]
    rw [hrows, hsorted, List.mapM_map]
    congr 1
    funext row
    exact hinstance row

/-- The slots are listed by their ordinals. -/
theorem listProcessInstances_sorted (h : s.listProcessInstances definitionId = .ok slots) :
    slots.Pairwise fun a b => a.ordinal ≤ b.ordinal := by
  have hall := mapM_ok h
  have hordinals : slots.map (fun slot => (slot.ordinal.val : ℤ)) =
      ((s.activeRows definitionId).insertionSort fun a b => a.ordinal ≤ b.ordinal).map
        ProcessInstanceRow.ordinal := by
    symm
    rw [← List.forall₂_eq_eq_eq, List.forall₂_map_left_iff, List.forall₂_map_right_iff]
    exact hall.imp fun _ _ hok => (instanceOf_ok hok).2.2.1
  have hsorted := List.pairwise_insertionSort
    (fun a b : ProcessInstanceRow => a.ordinal ≤ b.ordinal) (s.activeRows definitionId)
  have hpairs : (((s.activeRows definitionId).insertionSort fun a b => a.ordinal ≤ b.ordinal).map
      ProcessInstanceRow.ordinal).Pairwise fun a b => a ≤ b := List.pairwise_map.mpr hsorted
  rw [← hordinals, List.pairwise_map] at hpairs
  exact hpairs.imp fun hle => Int.ofNat_le.mp hle

end ProcessTables

section Entries

variable {h h' : ProcessInstance → Option ChildHandle} {slots : List ProcessInstance}
  {slot : ProcessInstance} {handle : ChildHandle}

/-- The entries of the slots that have a child. -/
def entriesOf (h : ProcessInstance → Option ChildHandle) (slots : List ProcessInstance) : Runtime :=
  slots.filterMap fun slot => (h slot).map fun handle => ⟨slot, handle, .running⟩

def childrenOf (h : ProcessInstance → Option ChildHandle) (slots : List ProcessInstance) :
    List Child :=
  slots.filterMap fun slot => (h slot).map fun handle => ⟨slot.id, handle⟩

theorem mem_entriesOf {entry : RuntimeEntry} : entry ∈ entriesOf h slots ↔
    ∃ slot ∈ slots, ∃ handle, h slot = some handle ∧ entry = ⟨slot, handle, .running⟩ := by
  unfold entriesOf
  rw [List.mem_filterMap]
  refine exists_congr fun slot => and_congr_right fun _ => ?_
  rw [Option.map_eq_some_iff]
  exact exists_congr fun handle => and_congr_right fun _ => eq_comm

theorem mem_childrenOf {child : Child} : child ∈ childrenOf h slots ↔
    ∃ slot ∈ slots, ∃ handle, h slot = some handle ∧ child = ⟨slot.id, handle⟩ := by
  unfold childrenOf
  rw [List.mem_filterMap]
  refine exists_congr fun slot => and_congr_right fun _ => ?_
  rw [Option.map_eq_some_iff]
  exact exists_congr fun handle => and_congr_right fun _ => eq_comm

theorem entriesOf_congr (hsame : ∀ slot ∈ slots, h slot = h' slot) :
    entriesOf h slots = entriesOf h' slots := by
  unfold entriesOf
  apply List.filterMap_congr
  intro slot hslot
  rw [hsame slot hslot]

theorem entriesOf_nil (hnone : ∀ slot ∈ slots, h slot = none) : entriesOf h slots = [] := by
  refine List.eq_nil_iff_forall_not_mem.mpr fun entry hentry => ?_
  obtain ⟨slot, hslot, handle, hhandle, -⟩ := mem_entriesOf.mp hentry
  cases (hnone slot hslot).symm.trans hhandle

theorem childrenOf_nil (hnone : ∀ slot ∈ slots, h slot = none) : childrenOf h slots = [] := by
  refine List.eq_nil_iff_forall_not_mem.mpr fun child hchild => ?_
  obtain ⟨slot, hslot, handle, hhandle, -⟩ := mem_childrenOf.mp hchild
  cases (hnone slot hslot).symm.trans hhandle

theorem mem_entriesOf_iff (hids : (slots.map ProcessInstance.id).Nodup) (hslot : slot ∈ slots) :
    (∃ entry ∈ entriesOf h slots, entry.id = slot.id ∧ entry.handle = handle) ↔
      h slot = some handle := by
  constructor
  · rintro ⟨entry, hentry, hid, rfl⟩
    obtain ⟨slot', hslot', handle, hhandle, rfl⟩ := mem_entriesOf.mp hentry
    have heq : slot' = slot := List.inj_on_of_nodup_map hids hslot' hslot hid
    exact heq ▸ hhandle
  · intro hhandle
    exact ⟨_, mem_entriesOf.mpr ⟨slot, hslot, handle, hhandle, rfl⟩, rfl, rfl⟩

theorem runtimeEntry_entriesOf (hids : (slots.map ProcessInstance.id).Nodup) (hslot : slot ∈ slots) :
    (entriesOf h slots).runtimeEntry slot.id =
      (h slot).map fun handle => ⟨slot, handle, .running⟩ := by
  cases hfind : (entriesOf h slots).runtimeEntry slot.id with
  | none =>
    cases hhandle : h slot with
    | none => rfl
    | some handle =>
      obtain ⟨entry, hentry, hid, -⟩ := (mem_entriesOf_iff hids hslot).mpr hhandle
      exact absurd hid (KeyedRows.find_eq_none.mp hfind entry hentry)
  | some entry =>
    have hid : entry.id = slot.id := KeyedRows.find_key hfind
    obtain ⟨slot', hslot', handle, hhandle, rfl⟩ := mem_entriesOf.mp (KeyedRows.find_mem hfind)
    obtain rfl : slot' = slot := List.inj_on_of_nodup_map hids hslot' hslot hid
    rw [hhandle]
    rfl

/-- The entries at an ordinal are counted by the slots. -/
theorem length_entriesOf (k : ℕ) :
    ((entriesOf h slots).filter fun entry => entry.instance_.ordinal.val = k).length =
      (slots.filter fun slot => (h slot).isSome && slot.ordinal.val = k).length := by
  induction slots with
  | nil => rfl
  | cons slot slots ih =>
    unfold entriesOf at ih ⊢
    rw [List.filterMap_cons, List.filter_cons]
    cases hhandle : h slot with
    | none => simpa using ih
    | some handle =>
      by_cases hordinal : slot.ordinal.val = k
      · simpa [hordinal] using ih
      · simpa [hordinal] using ih

end Entries

def SpawnOutcome.handle : SpawnOutcome → Option ChildHandle
  | .spawned handle => some handle
  | .notSpawned _ _ | .notGuarded _ _ => none

namespace SlotState

variable {s t u : SlotState} {r : RestoreReplies} {slot : ProcessInstance}
  {slots : List ProcessInstance}

/-- What a part of the turn does to the rows and to the children. -/
structure Turns (s t : SlotState) (slots : List ProcessInstance)
    (h : ProcessInstance → Option ChildHandle) : Prop where
  spec : t.spec = s.spec
  tables : s.tables.RewritesOnly (slots.map ProcessInstance.id) t.tables
  runtime : t.runtime = s.runtime ++ entriesOf h slots

theorem insertRuntimeEntry_new {runtime : Runtime} {entry : RuntimeEntry}
    (hnone : runtime.runtimeEntry entry.id = none) :
    runtime.insertRuntimeEntry entry = runtime ++ [entry] := by
  have hall : ∀ entry' ∈ runtime, entry'.id ≠ entry.id := KeyedRows.find_eq_none.mp hnone
  unfold Runtime.insertRuntimeEntry KeyedRows.insert
  rw [List.filter_eq_self.mpr fun entry' hentry' => decide_eq_true (hall entry' hentry')]

/-- A slot's own part of the restoration. -/
theorem restoreInstance_turns (hr : r.Succeeds)
    (hhandle : s.tables.getProcessInstanceRuntimeHandle slot = .ok (s.recordedHandle slot))
    (hnone : s.runtime.runtimeEntry slot.id = none) (hdetached : s.spec.lifecycle = .detached) :
    Turns s (s.restoreInstance r slot) [slot] s.adopted ∧
    (s.restoreInstance r slot).children = s.children ∧
    (s.restoreInstance r slot).tables.listProcessInstances s.spec.definitionId =
      s.tables.listProcessInstances s.spec.definitionId := by
  have hadopted : s.adopted slot = (s.recordedHandle slot).filter s.isAlive := if_pos hdetached
  unfold restoreInstance RepoError.orElse
  rw [hr.handle]
  dsimp only
  rw [hhandle]
  cases hrecorded : s.recordedHandle slot with
  | none =>
    rw [hrecorded] at hadopted
    have hentries : entriesOf s.adopted [slot] = [] :=
      entriesOf_nil fun slot' hslot' => List.mem_singleton.mp hslot' ▸ hadopted
    exact ⟨⟨rfl, .refl, by rw [hentries, List.append_nil]⟩, rfl, rfl⟩
  | some handle =>
    rw [hrecorded] at hadopted
    dsimp only
    rw [hr.probe, hr.clear, Option.isSome_none, Bool.false_or]
    by_cases halive : s.isAlive handle = true
    · rw [if_pos halive]
      have hentries : entriesOf s.adopted [slot] = [⟨slot, handle, .running⟩] := by
        simp [entriesOf, hadopted, Option.filter, halive]
      refine ⟨⟨rfl, .refl, ?_⟩, rfl, rfl⟩
      rw [hentries]
      exact insertRuntimeEntry_new hnone
    · rw [if_neg halive]
      have hentries : entriesOf s.adopted [slot] = [] := by
        simp [entriesOf, hadopted, Option.filter, halive]
      refine ⟨⟨rfl, ProcessTables.rewritesOnly_clear, ?_⟩, rfl,
        ProcessTables.listProcessInstances_clear⟩
      rw [hentries, List.append_nil]

/-- The restoration adopts what is recorded and alive. -/
theorem restore_turns (hr : r.Succeeds) (hids : (slots.map ProcessInstance.id).Nodup)
    (hhandle : ∀ slot ∈ slots,
      s.tables.getProcessInstanceRuntimeHandle slot = .ok (s.recordedHandle slot))
    (hnone : ∀ slot ∈ slots, s.runtime.runtimeEntry slot.id = none)
    (hdetached : s.spec.lifecycle = .detached) :
    Turns s (slots.foldl (restoreInstance r) s) slots s.adopted ∧
    (slots.foldl (restoreInstance r) s).children = s.children ∧
    (slots.foldl (restoreInstance r) s).tables.listProcessInstances s.spec.definitionId =
      s.tables.listProcessInstances s.spec.definitionId := by
  induction slots generalizing s with
  | nil => exact ⟨⟨rfl, .refl, (List.append_nil _).symm⟩, rfl, rfl⟩
  | cons slot slots ih =>
    obtain ⟨hfirst, hrest⟩ := List.nodup_cons.mp hids
    obtain ⟨hone, hchildren, hlist⟩ := restoreInstance_turns hr (hhandle slot List.mem_cons_self)
      (hnone slot List.mem_cons_self) hdetached
    rw [List.foldl_cons]
    have hother {slot' : ProcessInstance} (hslot' : slot' ∈ slots) : slot'.id ≠ slot.id := by
      intro heq
      rw [← heq] at hfirst
      exact hfirst (List.mem_map_of_mem hslot')
    have hread {slot' : ProcessInstance} (hslot' : slot' ∈ slots) :
        (s.restoreInstance r slot).tables.getProcessInstanceRuntimeHandle slot' =
          s.tables.getProcessInstanceRuntimeHandle slot' :=
      hone.tables.readHandle fun hmem => hother hslot' (List.mem_singleton.mp hmem)
    have hrecorded {slot' : ProcessInstance} (hslot' : slot' ∈ slots) :
        (s.restoreInstance r slot).recordedHandle slot' = s.recordedHandle slot' := by
      unfold recordedHandle
      rw [hread hslot']
    have hadopted : ∀ slot' ∈ slots,
        (s.restoreInstance r slot).adopted slot' = s.adopted slot' := by
      intro slot' hslot'
      unfold adopted isAlive
      rw [hone.spec, hrecorded hslot', hchildren]
    have hhandle' : ∀ slot' ∈ slots,
        (s.restoreInstance r slot).tables.getProcessInstanceRuntimeHandle slot' =
          .ok ((s.restoreInstance r slot).recordedHandle slot') := by
      intro slot' hslot'
      rw [hread hslot', hrecorded hslot']
      exact hhandle slot' (List.mem_cons_of_mem _ hslot')
    have hnone' : ∀ slot' ∈ slots,
        (s.restoreInstance r slot).runtime.runtimeEntry slot'.id = none := by
      intro slot' hslot'
      refine KeyedRows.find_eq_none.mpr fun entry hentry hid => ?_
      rw [hone.runtime] at hentry
      rcases List.mem_append.mp hentry with hold | hnew
      · exact KeyedRows.find_eq_none.mp (hnone slot' (List.mem_cons_of_mem _ hslot')) entry hold hid
      · obtain ⟨slot'', hslot'', handle, -, rfl⟩ := mem_entriesOf.mp hnew
        rw [List.mem_singleton.mp hslot''] at hid
        exact hother hslot' hid.symm
    have hdetached' : (s.restoreInstance r slot).spec.lifecycle = .detached := by
      rw [hone.spec]
      exact hdetached
    obtain ⟨hturns, hchildren', hlist'⟩ := ih hrest hhandle' hnone' hdetached'
    rw [hone.spec] at hlist'
    refine ⟨⟨hturns.spec.trans hone.spec, ?_, ?_⟩, hchildren'.trans hchildren, hlist'.trans hlist⟩
    · refine (hone.tables.mono ?_).trans (hturns.tables.mono ?_)
      · exact List.cons_subset.mpr ⟨List.mem_cons_self, List.nil_subset _⟩
      · exact List.subset_cons_self _ _
    · rw [hturns.runtime, hone.runtime, List.append_assoc, entriesOf_congr hadopted]
      congr 1
      exact (List.filterMap_append (l := [slot])).symm

/-- A surplus slot that has no entry is retired, or left as it is. -/
theorem retireSurplus_unowned {rs : StartReplies} (hnone : s.runtime.runtimeEntry slot.id = none) :
    ∃ tables, (s.retireSurplus rs slot).2 = { s with tables } ∧
      s.tables.RewritesOnly [slot.id] tables := by
  have hretired {u : SlotState} (hu : s.tables.RewritesOnly [slot.id] u.tables) :
      s.tables.RewritesOnly [slot.id] (u.tables.retireProcessInstance slot.id) :=
    hu.trans ProcessTables.rewritesOnly_retire
  unfold retireSurplus
  rw [hnone]
  dsimp only
  split
  · exact ⟨s.tables, rfl, .refl⟩
  · cases rs.retire slot.id with
    | some error => exact ⟨s.tables, rfl, .refl⟩
    | none => exact ⟨_, rfl, hretired .refl⟩
  · rename_i handle _
    cases rs.probe slot.id with
    | some error => exact ⟨s.tables, rfl, .refl⟩
    | none =>
      dsimp only
      split
      · exact ⟨s.tables, rfl, .refl⟩
      · cases rs.clear slot.id with
        | some error => exact ⟨s.tables, rfl, .refl⟩
        | none =>
          dsimp only
          have hcleared := @ProcessTables.rewritesOnly_clear s.tables slot handle
          cases hclear : s.tables.clearProcessInstanceRuntimeHandleIfMatches slot handle with
          | mk cleared tables =>
            rw [hclear] at hcleared
            cases cleared with
            | error error => exact ⟨s.tables, rfl, .refl⟩
            | ok affected =>
              dsimp only
              cases rs.retire slot.id with
              | some error => exact ⟨tables, rfl, hcleared⟩
              | none => exact ⟨_, rfl, hcleared.trans ProcessTables.rewritesOnly_retire⟩

/-- What is spawned for the slots below the count. -/
def spawnedFor (r : RestoreReplies) (s : SlotState) (slot : ProcessInstance) : Option ChildHandle :=
  if slot.ordinal < s.spec.instances then (r.start.spawn slot.id).handle else none

/-- The slots below the count are spawned, and those beyond it have no part in it. -/
theorem startSlots_turns {isStarted : Bool} (hr : r.Succeeds)
    (hids : (slots.map ProcessInstance.id).Nodup)
    (hsorted : slots.Pairwise fun a b => a.ordinal ≤ b.ordinal)
    (hnone : ∀ slot ∈ slots, s.runtime.runtimeEntry slot.id = none) :
    Turns s (startSlots r.start slots isStarted s).2 slots (s.spawnedFor r) ∧
    (startSlots r.start slots isStarted s).2.children =
      s.children ++ childrenOf (s.spawnedFor r) slots := by
  induction slots generalizing s isStarted with
  | nil => exact ⟨⟨rfl, .refl, (List.append_nil _).symm⟩, (List.append_nil _).symm⟩
  | cons slot slots ih =>
    obtain ⟨hfirst, hrest⟩ := List.nodup_cons.mp hids
    obtain ⟨hle, hsorted'⟩ := List.pairwise_cons.mp hsorted
    have hother {slot' : ProcessInstance} (hslot' : slot' ∈ slots) : slot'.id ≠ slot.id := by
      intro heq
      rw [← heq] at hfirst
      exact hfirst (List.mem_map_of_mem hslot')
    have hsub : [slot.id] ⊆ (slot :: slots).map ProcessInstance.id :=
      List.cons_subset.mpr ⟨List.mem_cons_self, List.nil_subset _⟩
    have hsub' : slots.map ProcessInstance.id ⊆ (slot :: slots).map ProcessInstance.id :=
      List.subset_cons_self _ _
    unfold startSlots
    split
    · rename_i hbeyond
      -- the slots are sorted: none of them is below the count
      have hspawned : ∀ slot' ∈ slot :: slots, s.spawnedFor r slot' = none := by
        intro slot' hslot'
        have hle' : slot.ordinal ≤ slot'.ordinal := by
          rcases List.mem_cons.mp hslot' with rfl | hslot'
          · exact le_refl _
          · exact hle slot' hslot'
        exact if_neg (not_lt.mpr (hbeyond.trans hle'))
      obtain ⟨tables, hretired, hrewrites⟩ :=
        @retireSurplus_unowned _ _ r.start (hnone slot List.mem_cons_self)
      have hruntime : s.runtime ++ entriesOf (s.spawnedFor r) (slot :: slots) = s.runtime := by
        rw [entriesOf_nil hspawned, List.append_nil]
      have hchildren : s.children ++ childrenOf (s.spawnedFor r) (slot :: slots) = s.children := by
        rw [childrenOf_nil hspawned, List.append_nil]
      split
      · rename_i error v hv
        rw [hv] at hretired
        obtain rfl : v = { s with tables } := hretired
        exact ⟨⟨rfl, hrewrites.mono hsub, hruntime.symm⟩, hchildren.symm⟩
      · rename_i v hv
        rw [hv] at hretired
        obtain rfl : v = { s with tables } := hretired
        obtain ⟨hturns, hadded⟩ := @ih { s with tables } isStarted hrest hsorted'
          fun slot' hslot' => hnone slot' (List.mem_cons_of_mem _ hslot')
        have hspawned' : ∀ slot' ∈ slots, spawnedFor r { s with tables } slot' = none :=
          fun slot' hslot' => hspawned slot' (List.mem_cons_of_mem _ hslot')
        refine ⟨⟨hturns.spec, ?_, ?_⟩, ?_⟩
        · exact (hrewrites.mono hsub).trans (hturns.tables.mono hsub')
        · rw [hturns.runtime, entriesOf_nil hspawned', List.append_nil, hruntime]
        · rw [hadded, childrenOf_nil hspawned', List.append_nil, hchildren]
    · rename_i hbelow
      obtain ⟨handle, hhandle⟩ := hr.spawn slot.id
      have hspawned : s.spawnedFor r slot = some handle := by
        unfold spawnedFor
        rw [if_pos (not_le.mp hbelow), hhandle]
        rfl
      let v : SlotState := s.spawnProcessInstance slot (.spawned handle)
      have hstart : s.startSlot r.start slot = (.ok true, v) := by
        unfold startSlot
        rw [hnone slot List.mem_cons_self, hhandle]
        rfl
      rw [hstart]
      dsimp only
      have hruntime : v.runtime = s.runtime ++ [⟨slot, handle, .running⟩] :=
        insertRuntimeEntry_new (hnone slot List.mem_cons_self)
      have hnone' : ∀ slot' ∈ slots, v.runtime.runtimeEntry slot'.id = none := by
        intro slot' hslot'
        have hframe := (@spawn_frame s _ _ (.spawned handle) (hother hslot')).2.2
        exact hframe.trans (hnone slot' (List.mem_cons_of_mem _ hslot'))
      obtain ⟨hturns, hchildren⟩ := @ih v (isStarted || true) hrest hsorted' hnone'
      have hsame : v.spawnedFor r = s.spawnedFor r := rfl
      rw [hsame] at hturns hchildren
      refine ⟨⟨hturns.spec, hturns.tables.mono hsub', ?_⟩, ?_⟩
      · rw [hturns.runtime, hruntime, List.append_assoc]
        unfold entriesOf
        rw [List.filterMap_cons, hspawned]
        rfl
      · have hchildren' : v.children = s.children ++ [⟨slot.id, handle⟩] := rfl
        rw [hchildren, hchildren', List.append_assoc]
        unfold childrenOf
        rw [List.filterMap_cons, hspawned]
        rfl

theorem adopted_alive {handle : ChildHandle} (h : s.adopted slot = some handle) :
    s.isAlive handle = true := by
  unfold adopted at h
  split at h
  · exact (Option.filter_eq_some_iff.mp h).2
  · cases h

theorem Readable.ids (h : s.Readable) : (s.slots.map ProcessInstance.id).Nodup :=
  (ProcessTables.listProcessInstances_ok h.list).1

/-- What there is before the process is started. -/
theorem restored_turns (hr : r.Succeeds) (hread : s.Readable) (hruntime : s.runtime = [])
    (ht : (if s.spec.lifecycle = .detached then s.restoreDetachedProcess r else s) = t) :
    Turns s t s.slots s.adopted ∧ t.children = s.children ∧
    t.tables.listProcessInstances s.spec.definitionId = .ok s.slots := by
  subst ht
  by_cases hdetached : s.spec.lifecycle = .detached
  · rw [if_pos hdetached]
    have hrestore : s.restoreDetachedProcess r = s.slots.foldl (restoreInstance r) s := by
      unfold restoreDetachedProcess RepoError.orElse
      rw [hr.list]
      dsimp only
      rw [hread.list]
    have hnone : ∀ slot ∈ s.slots, s.runtime.runtimeEntry slot.id = none := by
      intro slot _
      rw [hruntime]
      rfl
    obtain ⟨hturns, hchildren, hlist⟩ := restore_turns hr hread.ids hread.handle hnone hdetached
    rw [hrestore]
    exact ⟨hturns, hchildren, hlist.trans hread.list⟩
  · rw [if_neg hdetached]
    have hadopted : ∀ slot ∈ s.slots, s.adopted slot = none := fun _ _ => if_neg hdetached
    refine ⟨⟨rfl, .refl, ?_⟩, rfl, hread.list⟩
    rw [entriesOf_nil hadopted, List.append_nil]

/-- The process is found running as soon as one slot has adopted its child. -/
theorem isRunning_restored (hr : r.Succeeds) (hread : s.Readable) (hruntime : s.runtime = [])
    (hturns : Turns s t s.slots s.adopted) (hchildren : t.children = s.children)
    (hlist : t.tables.listProcessInstances s.spec.definitionId = .ok s.slots) :
    t.isRunning r = s.slots.any fun slot => (s.adopted slot).isSome := by
  have hentries : t.runtime = entriesOf s.adopted s.slots := by
    rw [hturns.runtime, hruntime, List.nil_append]
  unfold isRunning RepoError.orElse
  rw [hr.status, hturns.spec]
  dsimp only
  rw [hlist]
  dsimp only
  rw [Bool.eq_iff_iff, List.any_eq_true, List.any_eq_true]
  refine exists_congr fun slot => and_congr_right fun hslot => ?_
  rw [hentries, runtimeEntry_entriesOf hread.ids hslot, hr.probeStatus]
  cases hadopted : s.adopted slot with
  | none => exact Iff.rfl
  | some handle =>
    have halive : t.isAlive handle = true := by
      unfold isAlive
      rw [hchildren]
      exact adopted_alive hadopted
    simp [halive]

/-- The child that a slot has after the turn of an autostarted process. -/
def taken (r : RestoreReplies) (s : SlotState) (slot : ProcessInstance) : Option ChildHandle :=
  if s.slots.any fun slot => (s.adopted slot).isSome then s.adopted slot else s.spawnedFor r slot

/-- The children that are spawned in the turn of an autostarted process. -/
def spawnedChildren (r : RestoreReplies) (s : SlotState) : List Child :=
  if s.slots.any fun slot => (s.adopted slot).isSome then [] else
    childrenOf (s.spawnedFor r) s.slots

/-- A child of one of the slots, with a handle that a spawn has answered. -/
def Spawns (r : RestoreReplies) (slots : List ProcessInstance) (child : Child) : Prop :=
  ∃ slot ∈ slots, child.instanceId = slot.id ∧ r.start.spawn slot.id = .spawned child.handle

theorem childrenOf_spawns {child : Child} (h : child ∈ childrenOf (s.spawnedFor r) slots) :
    Spawns r slots child := by
  obtain ⟨slot, hslot, handle, hhandle, rfl⟩ := mem_childrenOf.mp h
  refine ⟨slot, hslot, rfl, ?_⟩
  unfold spawnedFor at hhandle
  split at hhandle
  · cases houtcome : r.start.spawn slot.id with
    | spawned handle' =>
      rw [houtcome] at hhandle
      exact congrArg SpawnOutcome.spawned (Option.some.inj hhandle)
    | notSpawned error left =>
      rw [houtcome] at hhandle
      cases hhandle
    | notGuarded error left =>
      rw [houtcome] at hhandle
      cases hhandle
  · cases hhandle

/-- The turn of a process. -/
theorem bootstrapProcess_turns (hr : r.Succeeds) (hread : s.Readable) (hruntime : s.runtime = []) :
    ∃ h added, Turns s (s.bootstrapProcess r) s.slots h ∧
      (s.bootstrapProcess r).children = s.children ++ added ∧
      (∀ child ∈ added, Spawns r s.slots child) ∧
      (s.spec.autostart = true → s.spec.isSystemRegistered = false →
        h = s.taken r ∧ added = s.spawnedChildren r) := by
  unfold bootstrapProcess
  by_cases hsystem : s.spec.isSystemRegistered = true
  · rw [if_pos hsystem]
    refine ⟨fun _ => none, [], ⟨rfl, .refl, ?_⟩, (List.append_nil _).symm, nofun, fun _ hdirect => ?_⟩
    · rw [entriesOf_nil fun _ _ => rfl, List.append_nil]
    · cases hsystem.symm.trans hdirect
  · rw [if_neg hsystem]
    dsimp only
    -- the state after the restoration
    generalize hv : (if s.spec.lifecycle = .detached then s.restoreDetachedProcess r else s) = v
    obtain ⟨hturns, hchildren, hlist⟩ := restored_turns hr hread hruntime hv
    have hrunning := isRunning_restored hr hread hruntime hturns hchildren hlist
    rw [hturns.spec]
    by_cases hstart : (s.spec.autostart && !v.isRunning r) = true
    · rw [if_pos hstart]
      obtain ⟨-, hnot⟩ := Bool.and_eq_true_iff.mp hstart
      rw [hrunning, Bool.not_eq_true'] at hnot
      have hadopted : ∀ slot ∈ s.slots, s.adopted slot = none := by
        intro slot hslot
        have hnone := List.any_eq_false.mp hnot slot hslot
        rwa [Option.not_isSome_iff_eq_none] at hnone
      have hempty : v.runtime = [] := by
        rw [hturns.runtime, hruntime, entriesOf_nil hadopted, List.append_nil]
      have hprocess : (v.startProcess r.start).2 = (startSlots r.start s.slots false v).2 := by
        unfold startProcess RepoError.orElse
        rw [hr.startList, hturns.spec]
        dsimp only
        rw [hlist]
        dsimp only
        split
        · rename_i hslots
          rw [hslots]
        · rename_i hslots
          rw [hslots]
        · rename_i hslots
          rw [hslots]
          cases r.start.probeRunning with
          | some error => rfl
          | none =>
            dsimp only
            split
            · rfl
            · rfl
      have hnone : ∀ slot ∈ s.slots, v.runtime.runtimeEntry slot.id = none := by
        intro slot _
        rw [hempty]
        rfl
      obtain ⟨hstarted, hadded⟩ := @startSlots_turns v r s.slots false hr hread.ids
        (ProcessTables.listProcessInstances_sorted hread.list) hnone
      have hspawned : v.spawnedFor r = s.spawnedFor r := by
        unfold spawnedFor
        rw [hturns.spec]
      rw [hspawned] at hstarted hadded
      rw [hprocess]
      refine ⟨s.spawnedFor r, childrenOf (s.spawnedFor r) s.slots, ⟨?_, ?_, ?_⟩, ?_,
        fun child hchild => childrenOf_spawns hchild, fun _ _ => ⟨?_, ?_⟩⟩
      · exact hstarted.spec.trans hturns.spec
      · exact hturns.tables.trans hstarted.tables
      · rw [hstarted.runtime, hempty, hruntime]
      · rw [hadded, hchildren]
      · funext slot
        unfold taken
        rw [hnot, if_neg (by simp)]
      · unfold spawnedChildren
        rw [hnot, if_neg (by simp)]
    · rw [if_neg hstart]
      refine ⟨s.adopted, [], hturns, by rw [hchildren, List.append_nil], nofun, fun hauto _ => ?_⟩
      have hany : (s.slots.any fun slot => (s.adopted slot).isSome) = true := by
        rw [← hrunning]
        rw [hauto, Bool.true_and, Bool.not_eq_true', Bool.not_eq_false] at hstart
        exact hstart
      refine ⟨?_, ?_⟩
      · funext slot
        unfold taken
        rw [if_pos hany]
      · unfold spawnedChildren
        rw [if_pos hany]

theorem spawnedFor_isSome (hr : r.Succeeds) :
    (s.spawnedFor r slot).isSome = decide (slot.ordinal < s.spec.instances) := by
  obtain ⟨handle, hhandle⟩ := hr.spawn slot.id
  unfold spawnedFor
  rw [hhandle]
  by_cases hlt : slot.ordinal < s.spec.instances
  · simp [hlt, SpawnOutcome.handle]
  · simp [hlt]

/-- What a turn leaves is the full set exactly when the state before it could be restored. -/
theorem restored_iff (hr : r.Succeeds) (hids : (s.slots.map ProcessInstance.id).Nodup)
    (hentries : t.runtime = entriesOf (s.taken r) s.slots)
    (halive : ∀ entry ∈ t.runtime, t.isAlive entry.handle = true)
    (hchildren : ∀ slot ∈ s.slots, (t.children.filter fun child => child.instanceId = slot.id) =
      (s.children ++ s.spawnedChildren r).filter fun child => child.instanceId = slot.id) :
    Restored s t ↔ s.Restorable := by
  have hcount (k : ℕ) : (t.runtime.filter fun entry =>
      t.isAlive entry.handle && entry.instance_.ordinal.val = k).length =
        (s.slots.filter fun slot => (s.taken r slot).isSome && slot.ordinal.val = k).length := by
    rw [← length_entriesOf k, ← hentries]
    congr 1
    apply List.filter_congr
    intro entry hentry
    rw [halive entry hentry, Bool.true_and]
  have hentry {slot : ProcessInstance} {child : Child} (hslot : slot ∈ s.slots)
      (hid : child.instanceId = slot.id) :
      t.HasEntry child ↔ s.taken r slot = some child.handle := by
    unfold HasEntry
    rw [hentries, hid]
    exact mem_entriesOf_iff hids hslot
  have hmem {slot : ProcessInstance} {child : Child} (hslot : slot ∈ s.slots)
      (hid : child.instanceId = slot.id) :
      child ∈ t.children ↔ child ∈ s.children ∨ child ∈ s.spawnedChildren r := by
    have hfilter := congrArg (child ∈ ·) (hchildren slot hslot)
    simpa [hid] using hfilter
  unfold Restorable
  by_cases hany : (s.slots.any fun slot => (s.adopted slot).isSome) = true
  · have htaken : s.taken r = s.adopted := by
      funext slot
      exact if_pos hany
    have hspawned : s.spawnedChildren r = [] := if_pos hany
    rw [if_pos hany]
    rw [htaken] at hcount hentry
    rw [hspawned] at hchildren hmem
    constructor
    · intro h
      refine ⟨fun k => (hcount k).symm.trans (h.live k), fun slot hslot child hchild hid => ?_⟩
      rcases lt_or_ge slot.ordinal s.spec.instances with hlt | hge
      · exact (hentry hslot hid).mp (h.adopted slot hslot hlt child hchild hid).1
      · exact (hentry hslot hid).mp
          (h.surplus slot hslot hge child ((hmem hslot hid).mpr (.inl hchild)) hid)
    · rintro ⟨hcounts, hrecorded⟩
      refine ⟨fun k => (hcount k).trans (hcounts k), fun slot hslot _ child hchild hid => ⟨?_, ?_⟩,
        fun slot hslot _ child hchild hid => ?_⟩
      · exact (hentry hslot hid).mpr (hrecorded slot hslot child hchild hid)
      · rw [hchildren slot hslot, List.append_nil]
      · rcases (hmem hslot hid).mp hchild with hold | hnew
        · exact (hentry hslot hid).mpr (hrecorded slot hslot child hold hid)
        · cases hnew
  · have htaken : s.taken r = s.spawnedFor r := by
      funext slot
      exact if_neg hany
    have hspawned : s.spawnedChildren r = childrenOf (s.spawnedFor r) s.slots := if_neg hany
    rw [if_neg hany]
    rw [htaken] at hcount hentry
    rw [hspawned] at hchildren hmem
    have hbelow {k : ℕ} (hk : k < s.spec.instances.val) :
        (s.slots.filter fun slot => (s.spawnedFor r slot).isSome && slot.ordinal.val = k).length =
          (s.slots.filter fun slot => slot.ordinal.val = k).length := by
      congr 1
      apply List.filter_congr
      intro slot _
      rw [spawnedFor_isSome hr]
      by_cases hordinal : slot.ordinal.val = k
      · have hlt : slot.ordinal < s.spec.instances := by
          rw [← hordinal] at hk
          exact hk
        simp [hlt]
      · simp [hordinal]
    have hbeyond {slot : ProcessInstance} (hge : s.spec.instances ≤ slot.ordinal) :
        s.spawnedFor r slot = none := if_neg (not_lt.mpr hge)
    constructor
    · intro h
      refine ⟨fun k hk => ?_, fun slot hslot child hchild hid => ?_⟩
      · have hlive := h.live k
        rw [if_pos hk, hcount, hbelow hk] at hlive
        exact hlive
      · rcases lt_or_ge slot.ordinal s.spec.instances with hlt | hge
        · -- another child is spawned for the slot
          have hsame := (h.adopted slot hslot hlt child hchild hid).2
          rw [hchildren slot hslot, List.filter_append, List.append_right_eq_self] at hsame
          obtain ⟨handle, hhandle⟩ := Option.isSome_iff_exists.mp
            ((spawnedFor_isSome hr).trans (decide_eq_true hlt) :
              (s.spawnedFor r slot).isSome = true)
          have hnew : (⟨slot.id, handle⟩ : Child) ∈ childrenOf (s.spawnedFor r) s.slots :=
            mem_childrenOf.mpr ⟨slot, hslot, handle, hhandle, rfl⟩
          exact List.filter_eq_nil_iff.mp hsame _ hnew (decide_eq_true rfl)
        · have hhas := h.surplus slot hslot hge child ((hmem hslot hid).mpr (.inl hchild)) hid
          cases (hbeyond hge).symm.trans ((hentry hslot hid).mp hhas)
    · rintro ⟨hcounts, hnone⟩
      refine ⟨fun k => ?_, fun slot hslot _ child hchild hid => ?_,
        fun slot hslot hge child hchild hid => ?_⟩
      · rw [hcount]
        by_cases hk : k < s.spec.instances.val
        · rw [if_pos hk, hbelow hk]
          exact hcounts k hk
        · rw [if_neg hk, List.length_eq_zero_iff, List.filter_eq_nil_iff]
          intro slot _ hslot
          rw [spawnedFor_isSome hr, Bool.and_eq_true, decide_eq_true_iff,
            decide_eq_true_iff] at hslot
          exact hk (hslot.2 ▸ hslot.1)
      · exact absurd hid (hnone slot hslot child hchild)
      · rcases (hmem hslot hid).mp hchild with hold | hnew
        · exact absurd hid (hnone slot hslot child hold)
        · obtain ⟨slot', hslot', handle, hhandle, rfl⟩ := mem_childrenOf.mp hnew
          have heq : slot' = slot := List.inj_on_of_nodup_map hids hslot' hslot hid
          rw [heq, hbeyond hge] at hhandle
          cases hhandle

end SlotState

/-- The instance has a row of the definition. -/
def ProcessTables.IsOwn (s : ProcessTables) (definitionId : ProcessDefinitionId)
    (id : ProcessInstanceId) : Prop :=
  ∃ row ∈ s.instances, row.instanceId = id ∧ row.definitionId = definitionId

theorem ProcessTables.RewritesOnly.isOwn {s t : ProcessTables} {ids : List ProcessInstanceId}
    {definitionId : ProcessDefinitionId} {id : ProcessInstanceId} (h : RewritesOnly ids s t) :
    t.IsOwn definitionId id ↔ s.IsOwn definitionId id := by
  obtain ⟨-, g, hrows, hg⟩ := h
  unfold IsOwn
  rw [hrows]
  constructor
  · rintro ⟨row', hrow', hid, hdefinition⟩
    obtain ⟨row, hrow, rfl⟩ := List.mem_map.mp hrow'
    exact ⟨row, hrow, (hg row).1.symm.trans hid, (hg row).2.1.symm.trans hdefinition⟩
  · rintro ⟨row, hrow, hid, hdefinition⟩
    exact ⟨g row, List.mem_map_of_mem hrow, (hg row).1.trans hid, (hg row).2.1.trans hdefinition⟩

namespace DaemonState

variable {s t u : DaemonState} {r : ProcessSpec → RestoreReplies} {specs : List ProcessSpec}
  {spec other : ProcessSpec} {slot : ProcessInstance}

theorem slot_isOwn (hslot : slot ∈ (s.process spec).slots) :
    s.tables.IsOwn spec.definitionId slot.id := by
  unfold SlotState.slots at hslot
  cases hlist : (s.process spec).tables.listProcessInstances
      (s.process spec).spec.definitionId with
  | error error =>
    rw [hlist] at hslot
    cases hslot
  | ok slots =>
    rw [hlist] at hslot
    obtain ⟨row, hrow, hok⟩ := (ProcessTables.listProcessInstances_ok hlist).2.1 slot hslot
    obtain ⟨hrow, hactive⟩ := List.mem_filter.mp hrow
    exact ⟨row, hrow, (ProcessTables.instanceOf_ok hok).1,
      of_decide_eq_true (Bool.and_eq_true_iff.mp hactive).1⟩

theorem not_slot_of_isOwn {id : ProcessInstanceId} (hown : s.tables.IsOwn spec.definitionId id)
    (hne : spec.definitionId ≠ other.definitionId) :
    id ∉ (s.process other).slots.map ProcessInstance.id := by
  intro hmem
  obtain ⟨slot, hslot, rfl⟩ := List.mem_map.mp hmem
  obtain ⟨row, hrow, hid, hdefinition⟩ := hown
  obtain ⟨row', hrow', hid', hdefinition'⟩ := slot_isOwn hslot
  have heq : row' = row := s.tables.unique.eq_of_key hrow' hrow (hid'.trans hid.symm)
  rw [heq, hdefinition] at hdefinition'
  exact hne hdefinition'

/-- What the turns of other processes leave of a process. -/
structure Untouched (r : ProcessSpec → RestoreReplies) (spec : ProcessSpec) (s u : DaemonState) :
    Prop where
  runtime : u.runtime spec.name = s.runtime spec.name
  own : ∀ id, u.tables.IsOwn spec.definitionId id ↔ s.tables.IsOwn spec.definitionId id
  list : u.tables.listProcessInstances spec.definitionId =
    s.tables.listProcessInstances spec.definitionId
  handle : ∀ slot : ProcessInstance, s.tables.IsOwn spec.definitionId slot.id →
    u.tables.getProcessInstanceRuntimeHandle slot = s.tables.getProcessInstanceRuntimeHandle slot
  /-- Children are added, none of them for its instances. -/
  children : ∃ added, u.children = s.children ++ added ∧ ∀ child ∈ added,
    ¬s.tables.IsOwn spec.definitionId child.instanceId ∧
      ∃ other id, (r other).start.spawn id = .spawned child.handle

theorem Untouched.refl : Untouched r spec s s where
  runtime := rfl
  own _ := Iff.rfl
  list := rfl
  handle _ _ := rfl
  children := ⟨[], (List.append_nil _).symm, nofun⟩

theorem Untouched.trans (h : Untouched r spec s t) (h' : Untouched r spec t u) :
    Untouched r spec s u := by
  obtain ⟨added, hadded, hall⟩ := h.children
  obtain ⟨added', hadded', hall'⟩ := h'.children
  refine ⟨h'.runtime.trans h.runtime, fun id => (h'.own id).trans (h.own id),
    h'.list.trans h.list, fun slot hown => ?_, added ++ added', ?_, fun child hchild => ?_⟩
  · exact (h'.handle slot ((h.own slot.id).mpr hown)).trans (h.handle slot hown)
  · rw [hadded', hadded, List.append_assoc]
  · rcases List.mem_append.mp hchild with hold | hnew
    · exact hall child hold
    · obtain ⟨hown, hspawned⟩ := hall' child hnew
      exact ⟨fun hmem => hown ((h.own child.instanceId).mpr hmem), hspawned⟩

theorem Untouched.slots (h : Untouched r spec s u) :
    (u.process spec).slots = (s.process spec).slots := by
  unfold SlotState.slots
  exact congrArg (fun listed => (Except.toOption listed).getD []) h.list

theorem Untouched.recordedHandle (h : Untouched r spec s u)
    (hslot : slot ∈ (s.process spec).slots) :
    (u.process spec).recordedHandle slot = (s.process spec).recordedHandle slot := by
  unfold SlotState.recordedHandle
  exact congrArg (fun handle => (Except.toOption handle).join) (h.handle slot (slot_isOwn hslot))

theorem Untouched.readable (h : Untouched r spec s u) (hread : (s.process spec).Readable) :
    (u.process spec).Readable := by
  refine ⟨?_, fun slot hslot => ?_⟩
  · rw [h.slots]
    exact h.list.trans hread.list
  · rw [h.slots] at hslot
    rw [h.recordedHandle hslot]
    exact (h.handle slot (slot_isOwn hslot)).trans (hread.handle slot hslot)

/-- The turn of another process. -/
theorem turn_untouched (hr : (r other).Succeeds) (hread : (s.process other).Readable)
    (hstopped : s.runtime other.name = []) (hname : spec.name ≠ other.name)
    (hdefinition : spec.definitionId ≠ other.definitionId) :
    Untouched r spec s (s.put ((s.process other).bootstrapProcess (r other))) := by
  obtain ⟨h, added, hturns, hchildren, hspawned, -⟩ :=
    SlotState.bootstrapProcess_turns hr hread hstopped
  have hspecName : ((s.process other).bootstrapProcess (r other)).spec.name = other.name :=
    congrArg ProcessSpec.name hturns.spec
  refine ⟨?_, fun id => hturns.tables.isOwn, ?_, fun slot hown =>
    hturns.tables.readHandle (not_slot_of_isOwn hown hdefinition), added, hchildren,
    fun child hchild => ?_⟩
  · unfold put
    rw [hspecName]
    exact Function.update_of_ne hname _ _
  · exact hturns.tables.list fun row hrow hrowDefinition =>
      not_slot_of_isOwn ⟨row, hrow, rfl, hrowDefinition⟩ hdefinition
  · obtain ⟨slot, hslot, hid, hhandle⟩ := hspawned child hchild
    refine ⟨fun hown => not_slot_of_isOwn hown hdefinition ?_, other, slot.id, hhandle⟩
    rw [hid]
    exact List.mem_map_of_mem hslot

/-- A daemon that has just started, and can read what is stored. -/
structure Ready (r : ProcessSpec → RestoreReplies) (specs : List ProcessSpec) (s : DaemonState) :
    Prop where
  succeeds : ∀ spec ∈ specs, (r spec).Succeeds
  readable : ∀ spec ∈ specs, (s.process spec).Readable
  stopped : ∀ spec ∈ specs, s.runtime spec.name = []

theorem Ready.turn (h : Ready r (other :: specs) s)
    (hname : other.name ∉ specs.map ProcessSpec.name)
    (hdefinition : other.definitionId ∉ specs.map ProcessSpec.definitionId) :
    Ready r specs (s.put ((s.process other).bootstrapProcess (r other))) := by
  have hmem (spec : ProcessSpec) (hspec : spec ∈ specs) : spec ∈ other :: specs :=
    List.mem_cons_of_mem _ hspec
  have hrest (spec : ProcessSpec) (hspec : spec ∈ specs) :
      Untouched r spec s (s.put ((s.process other).bootstrapProcess (r other))) := by
    refine turn_untouched (h.succeeds other List.mem_cons_self)
      (h.readable other List.mem_cons_self) (h.stopped other List.mem_cons_self)
      (fun heq => hname ?_) fun heq => hdefinition ?_
    · exact heq ▸ List.mem_map_of_mem hspec
    · exact heq ▸ List.mem_map_of_mem hspec
  exact ⟨fun spec hspec => h.succeeds spec (hmem spec hspec),
    fun spec hspec => (hrest spec hspec).readable (h.readable spec (hmem spec hspec)),
    fun spec hspec => (hrest spec hspec).runtime.trans (h.stopped spec (hmem spec hspec))⟩

/-- The turns of a list of other processes, with what is then ready. -/
theorem bootstrap_untouched {rest : List ProcessSpec} (hready : Ready r (specs ++ rest) s)
    (hnames : ((specs ++ rest).map ProcessSpec.name).Nodup)
    (hdefinitions : ((specs ++ rest).map ProcessSpec.definitionId).Nodup)
    (hname : spec.name ∉ specs.map ProcessSpec.name)
    (hdefinition : spec.definitionId ∉ specs.map ProcessSpec.definitionId) :
    Untouched r spec s (bootstrap r specs s) ∧ Ready r rest (bootstrap r specs s) := by
  induction specs generalizing s with
  | nil => exact ⟨.refl, hready⟩
  | cons other specs ih =>
    obtain ⟨hfirstName, hrestNames⟩ := List.nodup_cons.mp hnames
    obtain ⟨hfirstDefinition, hrestDefinitions⟩ := List.nodup_cons.mp hdefinitions
    rw [List.map_cons, List.mem_cons, not_or] at hname hdefinition
    have hhere := turn_untouched (hready.succeeds other List.mem_cons_self)
      (hready.readable other List.mem_cons_self) (hready.stopped other List.mem_cons_self)
      hname.1 hdefinition.1
    obtain ⟨hrest, hready'⟩ := ih (hready.turn hfirstName hfirstDefinition) hrestNames
      hrestDefinitions hname.2 hdefinition.2
    exact ⟨hhere.trans hrest, hready'⟩

/-- Spawned children have handles that no slot records. -/
def Fresh (r : ProcessSpec → RestoreReplies) (s : DaemonState) (spec : ProcessSpec) : Prop :=
  ∀ other id handle, (r other).start.spawn id = .spawned handle →
    ∀ slot ∈ (s.process spec).slots, (s.process spec).recordedHandle slot ≠ some handle

/-- What is found for a slot does not depend on the turns of other processes. -/
theorem Untouched.adopted (h : Untouched r spec s u) (hfresh : Fresh r s spec)
    (hslot : slot ∈ (s.process spec).slots) :
    (u.process spec).adopted slot = (s.process spec).adopted slot := by
  obtain ⟨added, hadded, hall⟩ := h.children
  have halive (handle : ChildHandle)
      (hrecorded : (s.process spec).recordedHandle slot = some handle) :
      (u.process spec).isAlive handle = (s.process spec).isAlive handle := by
    have hnone : (added.any fun child => child.handle = handle) = false := by
      refine List.any_eq_false.mpr fun child hchild heq => ?_
      obtain ⟨-, other, id, hspawned⟩ := hall child hchild
      rw [of_decide_eq_true heq] at hspawned
      exact hfresh other id handle hspawned slot hslot hrecorded
    change (u.children.any fun child => child.handle = handle) = _
    rw [hadded, List.any_append, hnone, Bool.or_false]
    rfl
  have hfilter : ((s.process spec).recordedHandle slot).filter (u.process spec).isAlive =
      ((s.process spec).recordedHandle slot).filter (s.process spec).isAlive := by
    cases hrecorded : (s.process spec).recordedHandle slot with
    | none => rfl
    | some handle =>
      unfold Option.filter
      dsimp only
      rw [halive handle hrecorded]
  unfold SlotState.adopted
  rw [h.recordedHandle hslot, hfilter]
  rfl

theorem Untouched.filter_children (h : Untouched r spec s u) {id : ProcessInstanceId}
    (hown : s.tables.IsOwn spec.definitionId id) :
    (u.children.filter fun child => child.instanceId = id) =
      s.children.filter fun child => child.instanceId = id := by
  obtain ⟨added, hadded, hall⟩ := h.children
  rw [hadded, List.filter_append]
  have hnone : (added.filter fun child => child.instanceId = id) = [] := by
    refine List.filter_eq_nil_iff.mpr fun child hchild heq => (hall child hchild).1 ?_
    rw [of_decide_eq_true heq]
    exact hown
  rw [hnone, List.append_nil]

theorem Untouched.mem_children (h : Untouched r spec s u) {child : Child}
    (hown : s.tables.IsOwn spec.definitionId child.instanceId) :
    child ∈ u.children ↔ child ∈ s.children := by
  have hfilter := congrArg (child ∈ ·) (h.filter_children hown)
  simpa using hfilter

/-- Whether a process can be restored is the same after the turns of others. -/
theorem Untouched.restorable_iff (h : Untouched r spec s u) (hfresh : Fresh r s spec) :
    (u.process spec).Restorable ↔ (s.process spec).Restorable := by
  have hadopted {slot : ProcessInstance} (hslot : slot ∈ (s.process spec).slots) :=
    h.adopted hfresh hslot
  have hany : ((s.process spec).slots.any fun slot => ((u.process spec).adopted slot).isSome) =
      (s.process spec).slots.any fun slot => ((s.process spec).adopted slot).isSome := by
    rw [Bool.eq_iff_iff, List.any_eq_true, List.any_eq_true]
    exact exists_congr fun slot => and_congr_right fun hslot => by rw [hadopted hslot]
  have hcount (k : ℕ) : ((s.process spec).slots.filter fun slot =>
      ((u.process spec).adopted slot).isSome && slot.ordinal.val = k) =
        (s.process spec).slots.filter fun slot =>
          ((s.process spec).adopted slot).isSome && slot.ordinal.val = k :=
    List.filter_congr fun slot hslot => by rw [hadopted hslot]
  have hchild {slot : ProcessInstance} {child : Child} (hslot : slot ∈ (s.process spec).slots)
      (hid : child.instanceId = slot.id) :
      child ∈ (u.process spec).children ↔ child ∈ (s.process spec).children := by
    exact h.mem_children (hid ▸ slot_isOwn hslot)
  unfold SlotState.Restorable
  rw [h.slots, hany]
  split
  · refine and_congr (forall_congr' fun k => ?_) (forall_congr' fun slot =>
      forall_congr' fun hslot => forall_congr' fun child => ?_)
    · rw [hcount]
      exact Iff.rfl
    · rw [hadopted hslot]
      constructor
      · intro hall hmem hid
        exact hall ((hchild hslot hid).mpr hmem) hid
      · intro hall hmem hid
        exact hall ((hchild hslot hid).mp hmem) hid
  · refine and_congr Iff.rfl (forall_congr' fun slot =>
      forall_congr' fun hslot => forall_congr' fun child => ?_)
    constructor
    · intro hall hmem hid
      exact hall ((hchild hslot hid).mpr hmem) hid
    · intro hall hmem hid
      exact hall ((hchild hslot hid).mp hmem) hid

theorem Untouched.restored_iff {after : SlotState} (h : Untouched r spec s u) :
    SlotState.Restored (u.process spec) after ↔ SlotState.Restored (s.process spec) after := by
  have hchild {slot : ProcessInstance} {child : Child} (hslot : slot ∈ (s.process spec).slots)
      (hid : child.instanceId = slot.id) : child ∈ u.children ↔ child ∈ s.children :=
    h.mem_children (hid ▸ slot_isOwn hslot)
  constructor
  · rintro ⟨hlive, hadopted, hsurplus⟩
    rw [h.slots] at hadopted hsurplus
    refine ⟨hlive, fun slot hslot hlt child hmem hid => ?_, hsurplus⟩
    obtain ⟨hentry, hfilter⟩ := hadopted slot hslot hlt child ((hchild hslot hid).mpr hmem) hid
    exact ⟨hentry, hfilter.trans (h.filter_children (slot_isOwn hslot))⟩
  · rintro ⟨hlive, hadopted, hsurplus⟩
    rw [← h.slots] at hadopted hsurplus
    refine ⟨hlive, fun slot hslot hlt child hmem hid => ?_, hsurplus⟩
    have hslot' : slot ∈ (s.process spec).slots := h.slots ▸ hslot
    obtain ⟨hentry, hfilter⟩ := hadopted slot hslot hlt child ((hchild hslot' hid).mp hmem) hid
    exact ⟨hentry, hfilter.trans (h.filter_children (slot_isOwn hslot')).symm⟩

/-- After a restart in which no call fails, a process that is started automatically has its full
set of instances exactly when the slots and children that were there could be restored. -/
theorem bootstrap_restored_iff (hready : Ready r specs s)
    (hnames : (specs.map ProcessSpec.name).Nodup)
    (hdefinitions : (specs.map ProcessSpec.definitionId).Nodup) (hspec : spec ∈ specs)
    (hfresh : Fresh r s spec) (hauto : spec.autostart = true)
    (hdirect : spec.isSystemRegistered = false) :
    SlotState.Restored (s.process spec) ((bootstrap r specs s).process spec) ↔
      (s.process spec).Restorable := by
  obtain ⟨before, after, rfl⟩ := List.append_of_mem hspec
  have hnotMem {β : Type} {f : ProcessSpec → β} (hf : ((before ++ spec :: after).map f).Nodup) :
      f spec ∉ before.map f ∧ f spec ∉ after.map f := by
    rw [List.map_append, List.map_cons, List.nodup_append] at hf
    refine ⟨fun hmem => hf.2.2 _ hmem _ List.mem_cons_self rfl, (List.nodup_cons.mp hf.2.1).1⟩
  have hrest {β : Type} {f : ProcessSpec → β} (hf : ((before ++ spec :: after).map f).Nodup) :
      (after.map f).Nodup := by
    rw [List.map_append, List.map_cons, List.nodup_append] at hf
    exact (List.nodup_cons.mp hf.2.1).2
  -- the state in which the turn of the process comes, and the one that it leaves
  let u : DaemonState := bootstrap r before s
  let t : DaemonState := u.put ((u.process spec).bootstrapProcess (r spec))
  have hall : bootstrap r (before ++ spec :: after) s = bootstrap r after t := List.foldl_append
  obtain ⟨hbefore, hready'⟩ := bootstrap_untouched hready hnames hdefinitions
    (hnotMem hnames).1 (hnotMem hdefinitions).1
  have hready'' : Ready r after t := hready'.turn (hnotMem hnames).2 (hnotMem hdefinitions).2
  obtain ⟨hafter, -⟩ := @bootstrap_untouched t _ _ spec [] (by rwa [List.append_nil])
    (by rw [List.append_nil]; exact hrest hnames)
    (by rw [List.append_nil]; exact hrest hdefinitions) (hnotMem hnames).2 (hnotMem hdefinitions).2
  have hr := hready'.succeeds spec List.mem_cons_self
  have hread := hready'.readable spec List.mem_cons_self
  obtain ⟨h, added, hturns, hchildren, hspawned, htaken⟩ :=
    SlotState.bootstrapProcess_turns hr hread (hready'.stopped spec List.mem_cons_self)
  obtain ⟨rfl, rfl⟩ := htaken hauto hdirect
  have hruntime : ((bootstrap r after t).process spec).runtime =
      entriesOf ((u.process spec).taken (r spec)) (u.process spec).slots := by
    have hname : ((u.process spec).bootstrapProcess (r spec)).spec.name = spec.name :=
      congrArg ProcessSpec.name hturns.spec
    have hput : t.runtime spec.name = ((u.process spec).bootstrapProcess (r spec)).runtime := by
      change Function.update u.runtime _ _ spec.name = _
      rw [hname, Function.update_self]
    have hempty : (u.process spec).runtime = [] := hready'.stopped spec List.mem_cons_self
    calc (bootstrap r after t).runtime spec.name
        = t.runtime spec.name := hafter.runtime
      _ = (u.process spec).runtime ++
          entriesOf ((u.process spec).taken (r spec)) (u.process spec).slots :=
        hput.trans hturns.runtime
      _ = _ := by rw [hempty, List.nil_append]
  obtain ⟨added, hadded, -⟩ := hafter.children
  have hkept (handle : ChildHandle) (halive : ∃ child ∈ t.children, child.handle = handle) :
      ((bootstrap r after t).process spec).isAlive handle = true := by
    obtain ⟨child, hchild, hhandle⟩ := halive
    refine List.any_eq_true.mpr ⟨child, ?_, decide_eq_true hhandle⟩
    change child ∈ (bootstrap r after t).children
    rw [hadded]
    exact List.mem_append_left _ hchild
  have halive : ∀ entry ∈ ((bootstrap r after t).process spec).runtime,
      ((bootstrap r after t).process spec).isAlive entry.handle = true := by
    intro entry hentry
    rw [hruntime] at hentry
    obtain ⟨slot, hslot, handle, hhandle, rfl⟩ := mem_entriesOf.mp hentry
    refine hkept handle ?_
    change ∃ child ∈ ((u.process spec).bootstrapProcess (r spec)).children, _
    rw [hchildren]
    unfold SlotState.taken at hhandle
    split at hhandle
    · obtain ⟨child, hchild, heq⟩ := List.any_eq_true.mp (SlotState.adopted_alive hhandle)
      exact ⟨child, List.mem_append_left _ hchild, of_decide_eq_true heq⟩
    · rename_i hany
      refine ⟨⟨slot.id, handle⟩, List.mem_append_right _ ?_, rfl⟩
      unfold SlotState.spawnedChildren
      rw [if_neg hany]
      exact mem_childrenOf.mpr ⟨slot, hslot, handle, hhandle, rfl⟩
  have hown : ∀ slot ∈ (u.process spec).slots,
      (((bootstrap r after t).process spec).children.filter fun child =>
        child.instanceId = slot.id) =
      ((u.process spec).children ++ (u.process spec).spawnedChildren (r spec)).filter fun child =>
        child.instanceId = slot.id := by
    intro slot hslot
    rw [← hchildren]
    exact hafter.filter_children (hturns.tables.isOwn.mpr (slot_isOwn hslot))
  rw [hall, ← hbefore.restored_iff, ← hbefore.restorable_iff hfresh]
  exact SlotState.restored_iff hr hread.ids hruntime halive hown

/-- Two detached instances whose handles are recorded, and the children that survived. -/
def survivors (alive : List ℕ) : DaemonState :=
  let handle (n : ℕ) : ChildHandle := ⟨n, 100, some 100, some "a", 0⟩
  { tables :=
      { specs := [{ definitionId := ⟨1⟩ }]
        instances := [⟨⟨10⟩, ⟨1⟩, 0, 3, true, (handle 0).columns, 0⟩,
          ⟨⟨11⟩, ⟨1⟩, 1, 3, true, (handle 1).columns, 0⟩]
        unique := by unfold KeyedRows.Unique; decide }
    runtime := fun _ => []
    children := alive.map fun n => ⟨⟨10 + n⟩, handle n⟩ }

def detachedSpec : ProcessSpec :=
  { RollingState.twoInstances.spec with lifecycle := .detached, autostart := true }

def restoreReplies : RestoreReplies where
  start := { spawn := fun id => .spawned ⟨100 + id.val, 200, some 200, some "b", 0⟩ }

/-- Both survived: both are adopted. -/
theorem survivors_restored : SlotState.Restored ((survivors [0, 1]).process detachedSpec)
    ((bootstrap (fun _ => restoreReplies) [detachedSpec] (survivors [0, 1])).process
      detachedSpec) := by
  have hslots : ∀ slot ∈ ((survivors [0, 1]).process detachedSpec).slots,
      ((survivors [0, 1]).process detachedSpec).recordedHandle slot =
          some ⟨slot.ordinal.val, 100, some 100, some "a", 0⟩ ∧
        slot.id = ⟨10 + slot.ordinal.val⟩ := by decide +kernel
  have hread : ((survivors [0, 1]).process detachedSpec).Readable := by
    refine ⟨by decide +kernel, ?_⟩
    decide +kernel
  have hfresh : Fresh (fun _ => restoreReplies) (survivors [0, 1]) detachedSpec := by
    intro other id handle hspawned slot hslot hrecorded
    have hhandle := SpawnOutcome.spawned.inj hspawned
    rw [(hslots slot hslot).1, ← hhandle, Option.some.injEq] at hrecorded
    have hpid : (100 : U32) = 200 := congrArg ChildHandle.pid hrecorded
    exact absurd hpid (by decide)
  have hready : Ready (fun _ => restoreReplies) [detachedSpec] (survivors [0, 1]) := by
    refine ⟨fun _ _ => ?_, fun spec hspec => ?_, fun _ _ => rfl⟩
    · exact ⟨rfl, fun _ => rfl, fun _ => rfl, fun _ => rfl, rfl, fun _ => rfl, rfl, fun _ => rfl,
        fun _ => rfl, fun _ => rfl, fun _ => rfl, fun _ => ⟨_, rfl⟩⟩
    · rw [List.mem_singleton.mp hspec]
      exact hread
  refine (bootstrap_restored_iff hready (by decide) (by decide) List.mem_cons_self hfresh rfl
    rfl).mpr ?_
  have hany : (((survivors [0, 1]).process detachedSpec).slots.any fun slot =>
      (((survivors [0, 1]).process detachedSpec).adopted slot).isSome) = true := by decide +kernel
  have hchildren : ∀ slot ∈ ((survivors [0, 1]).process detachedSpec).slots,
      ∀ child ∈ ((survivors [0, 1]).process detachedSpec).children, child.instanceId = slot.id →
        ((survivors [0, 1]).process detachedSpec).adopted slot = some child.handle := by
    decide +kernel
  have hbelow : ∀ k < 2, (((survivors [0, 1]).process detachedSpec).slots.filter fun slot =>
      (((survivors [0, 1]).process detachedSpec).adopted slot).isSome &&
        slot.ordinal.val = k).length = 1 := by decide +kernel
  have hordinals : ∀ slot ∈ ((survivors [0, 1]).process detachedSpec).slots,
      slot.ordinal.val < 2 := by decide +kernel
  unfold SlotState.Restorable
  rw [if_pos hany]
  refine ⟨fun k => ?_, hchildren⟩
  change _ = if k < 2 then 1 else 0
  by_cases hk : k < 2
  · rw [if_pos hk]
    exact hbelow k hk
  · rw [if_neg hk, List.length_eq_zero_iff, List.filter_eq_nil_iff]
    intro slot hslot hboth
    have hordinal : slot.ordinal.val = k :=
      of_decide_eq_true (Bool.and_eq_true_iff.mp hboth).2
    exact hk (hordinal ▸ hordinals slot hslot)

/-- One survived: the process counts as running, and the other one is not started. -/
theorem survivors_notRestored : ¬SlotState.Restored ((survivors [0]).process detachedSpec)
    ((bootstrap (fun _ => restoreReplies) [detachedSpec] (survivors [0])).process
      detachedSpec) := by
  intro h
  have hlive := h.live 1
  exact absurd hlive (by decide +kernel)

end DaemonState

end Supervisor
