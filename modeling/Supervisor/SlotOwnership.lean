import Supervisor.ScaleConvergence

namespace Supervisor

open KeyedRows (Unique)

inductive SlotEvent where
  | start (r : StartReplies)
  | stop (stop : ProcessInstanceId → StopOutcome)
  | scale (target : U16) (operationId : Uuid) (r : ScaleReplies)
  /-- Another number of instances is saved, by a configuration. -/
  | configure (instances : U16) (r : ScaleReplies)
  | beginRolling
  /-- With the child that a failed spawn leaves running. -/
  | rolling (e : RollingEvent) (left : Option ChildHandle)
  | automaticRestart (instance_ : ProcessInstance) (outcome : SpawnOutcome)
  /-- A child ends by itself. -/
  | exited (handle : ChildHandle)
  /-- The supervisor loop removes the entry of a child that it does not find alive. -/
  | reconciled (id : ProcessInstanceId) (isUnverified : Bool)

namespace SlotState

/-- What an event of a rolling restart makes of the children. -/
def rollingChildren (s : SlotState) (e : RollingEvent) (left : Option ChildHandle) : List Child :=
  match e, s.point with
  | .spawned handle, .spawning slot => s.children ++ [⟨slot.replacement.id, handle⟩]
  | .notSpawned _, .spawning slot =>
    s.children ++ left.toList.map (Child.mk slot.replacement.id)
  | .notGuarded _, .guarding _ handle =>
    if left.isSome then s.children else s.children.filter fun child => child.handle ≠ handle
  | .unready outcome, .waiting slot =>
    match s.runtime.runtimeEntry slot.replacement.id with
    | some entry => outcome.remaining entry.handle s.children
    | none => s.children
  | .drain outcome, .draining slot => outcome.remaining slot.oldEntry.handle s.children
  | _, _ => s.children

def step (s : SlotState) : SlotEvent → Option SlotState
  | .start r => if s.point.isUnlocked then some (s.startProcess r).2 else none
  | .stop stop => if s.point.isUnlocked then some (s.stopProcess stop).2 else none
  | .scale target operationId r => some (s.scaleProcess target operationId r).2
  | .configure instances r =>
    if s.point.isUnlocked then some (((s.saveInstances r instances).toOption).getD s) else none
  | .beginRolling =>
    if s.point.isUnlocked then some { s with
      point := .start, operation := none, hasFailed := false
      allocated := [], reportedHealthy := [], drained := [] }
    else none
  | .rolling (.exited _) _ => none
  | .rolling e left => (s.toRollingState.step e).map fun t =>
      { toRollingState := t, children := s.rollingChildren e left }
  | .automaticRestart instance_ outcome =>
    if s.point.isUnlocked && (s.runtime.runtimeEntry instance_.id).isNone then
      match s.tables.advanceProcessInstanceGeneration instance_ with
      | (.ok (some next), tables) => some ({ s with tables }.spawnProcessInstance next outcome)
      | (_, tables) => some { s with tables }
    else none
  | .exited handle =>
    some { s with children := s.children.filter fun child => child.handle ≠ handle }
  | .reconciled id isUnverified => match s.runtime.runtimeEntry id with
    | some entry =>
      if entry.state ≠ .stopping ∧ (isUnverified ∨ ¬s.isAlive entry.handle) then
        some { s with runtime := s.runtime.filter fun entry => entry.id ≠ id, hasFailed := true }
      else none
    | none => none

def machine : Machine SlotState SlotEvent where
  step := step

/-- Of a slot that is not active neither a child nor an entry is left. -/
def RetiredGone (s : SlotState) : Prop :=
  ∀ id, (∀ row ∈ s.tables.instances, row.instanceId = id → row.active = false) →
    ¬s.IsLive id ∧ s.runtime.runtimeEntry id = none

/-- A step leaves no child without its entry: a spawn that fails and a stop whose failure is ignored
leave no child, a slot that is added has none, and no entry is removed on a failed probe. -/
def Fits (s : SlotState) : SlotEvent → Prop
  | .start r => ∀ row ∈ s.tables.instances, (r.spawn row.instanceId).left = none
  | .scale target _ r => s.spec.instances < target →
      (∀ row ∈ s.activeRows, (s.spec.instances.val : ℤ) ≤ row.ordinal →
        s.runtime.runtimeEntry row.instanceId = none ∧ (r.spawn row.instanceId).left = none) ∧
      ∀ n < target.val, (r.spawn (r.newId n)).left = none
  | .rolling (.notSpawned _) left | .rolling (.notGuarded _) left => left = none
  | .rolling (.unready outcome) _ => outcome.isKilled = true ∨
      match s.point with
      | .waiting slot => s.runtime.runtimeEntry slot.replacement.id = none
      | _ => True
  | .automaticRestart _ outcome => outcome.left = none
  | .reconciled _ isUnverified => isUnverified = false
  | _ => True

instance (s : SlotState) (e : SlotEvent) : Decidable (s.Fits e) := by
  unfold Fits
  split
  · exact inferInstance
  · exact inferInstance
  · exact inferInstance
  · exact inferInstance
  · split
    · exact inferInstance
    · exact inferInstance
  · exact inferInstance
  · exact inferInstance
  · exact inferInstance

/-- A daemon that has just started, with no children. -/
structure Started (s : SlotState) : Prop where
  runtime : s.runtime = []
  children : s.children = []
  unlocked : s.point.isUnlocked = true

end SlotState

namespace ProcessTables

variable {s t : ProcessTables} {id k : ProcessInstanceId}

/-- The instance has an active row. -/
def IsActive (s : ProcessTables) (id : ProcessInstanceId) : Prop :=
  ∃ row ∈ s.instances, row.instanceId = id ∧ row.active = true

theorem IsActive.map {g : ProcessInstanceRow → ProcessInstanceRow}
    (hrows : t.instances = s.instances.map g) (h : s.IsActive k)
    (hg : ∀ row ∈ s.instances, row.instanceId = k → row.active = true →
      (g row).instanceId = row.instanceId ∧ (g row).active = true) : t.IsActive k := by
  obtain ⟨row, hrow, hid, hactive⟩ := h
  obtain ⟨hid', hactive'⟩ := hg row hrow hid hactive
  refine ⟨g row, ?_, hid'.trans hid, hactive'⟩
  rw [hrows]
  exact List.mem_map_of_mem hrow

theorem IsActive.retire (h : s.IsActive k) (hne : k ≠ id) :
    (s.retireProcessInstance id).IsActive k := by
  refine h.map rfl fun row _ hid hactive => ?_
  have hrow : row.instanceId ≠ id := fun heq => hne (hid.symm.trans heq)
  simp [hrow, hactive]

theorem IsActive.clear {instance_ : ProcessInstance} {handle : ChildHandle} (h : s.IsActive k) :
    (s.clearProcessInstanceRuntimeHandleIfMatches instance_ handle).2.IsActive k := by
  unfold clearProcessInstanceRuntimeHandleIfMatches
  cases instance_.generation.toI64 with
  | error error => exact h
  | ok generation =>
    refine h.map rfl fun row _ _ hactive => ?_
    split
    · exact ⟨rfl, hactive⟩
    · exact ⟨rfl, hactive⟩

theorem IsActive.allocate {replacement : ProcessInstance} (halloc : s.Allocates t replacement)
    (h : s.IsActive k) : t.IsActive k := by
  obtain ⟨row, hrow, hid⟩ := h
  refine ⟨row, ?_, hid⟩
  rw [halloc.instances]
  exact List.mem_append_left _ hrow

theorem Allocates.isActive {replacement : ProcessInstance} (h : s.Allocates t replacement) :
    t.IsActive replacement.id := by
  refine ⟨⟨replacement.id, replacement.definitionId, replacement.ordinal.val, 1, true, {}, 0⟩, ?_,
    rfl, rfl⟩
  rw [h.instances]
  exact List.mem_append_right _ List.mem_cons_self

theorem IsActive.advance {instance_ : ProcessInstance} (h : s.IsActive k) :
    (s.advanceProcessInstanceGeneration instance_).2.IsActive k := by
  unfold advanceProcessInstanceGeneration
  split
  · dsimp only
    split
    · split
      · exact h
      · refine h.map rfl fun row _ _ hactive => ?_
        split
        · exact ⟨rfl, hactive⟩
        · exact ⟨rfl, hactive⟩
    · exact h
    · exact h
  · exact h

/-- The instance whose generation is advanced is active. -/
theorem advance_isActive {instance_ next : ProcessInstance}
    (h : s.advanceProcessInstanceGeneration instance_ = (.ok (some next), t)) :
    next.id = instance_.id ∧ s.IsActive instance_.id := by
  unfold advanceProcessInstanceGeneration at h
  split at h
  · dsimp only at h
    split at h
    · rename_i nextGeneration generation hnext hgeneration
      split at h
      · cases (Prod.mk.inj h).1
      · rename_i hone
        have hnextEq := Option.some.inj (Except.ok.inj (Prod.mk.inj h).1)
        refine ⟨by rw [← hnextEq], ?_⟩
        have hcount : s.instances.countP (isCurrent instance_ generation) ≠ 0 := by
          intro hzero
          refine hone ?_
          change s.instances.countP (isCurrent instance_ generation) ≠ 1
          omega
        obtain ⟨row, hrow, hcurrent⟩ := List.countP_pos_iff.mp (Nat.pos_of_ne_zero hcount)
        obtain ⟨hleft, hactive⟩ := Bool.and_eq_true_iff.mp hcurrent
        exact ⟨row, hrow, of_decide_eq_true (Bool.and_eq_true_iff.mp hleft).1, hactive⟩
    · cases (Prod.mk.inj h).1
    · cases (Prod.mk.inj h).1
  · cases (Prod.mk.inj h).1

/-- The rows that are there stay when others are added. -/
theorem syncProcessInstances_mem {definitionId : ProcessDefinitionId}
    {newId : ℕ → ProcessInstanceId} {n : ℕ} {row : ProcessInstanceRow}
    (h : syncProcessInstances definitionId newId n s = .ok t) (hrow : row ∈ s.instances) :
    row ∈ t.instances := by
  induction n generalizing t with
  | zero => exact Except.ok.inj h ▸ hrow
  | succ n ih =>
    unfold syncProcessInstances at h
    cases hu : syncProcessInstances definitionId newId n s with
    | error error =>
      rw [hu] at h
      cases h
    | ok u =>
      rw [hu] at h
      change (if _ then _ else _ : Except RepoError ProcessTables) = .ok t at h
      split at h
      · exact Except.ok.inj h ▸ ih hu
      · split at h
        · cases h
        · rw [← Except.ok.inj h]
          exact List.mem_append_left _ (ih hu)

/-- A promotion leaves every active instance but the one that it retires. -/
theorem IsActive.promote {retired replacement : ProcessInstance}
    (hrows : t.instances = promotedRows retired replacement s.instances) (h : s.IsActive k)
    (hne : k ≠ retired.id) : t.IsActive k := by
  obtain ⟨row, hrow, hid, hactive⟩ := h
  have hnot : isSlot retired retired.generation.val row = false := by
    have hother : row.instanceId ≠ retired.id := fun heq => hne (hid.symm.trans heq)
    simp [isSlot, hother]
  let moved : ProcessInstanceRow :=
    if isSlot replacement replacement.generation.val row then
      { row with ordinal := retired.ordinal.val } else row
  refine ⟨moved, ?_, ?_, ?_⟩
  · rw [hrows]
    unfold promotedRows
    rw [List.map_map]
    refine List.mem_map.mpr ⟨row, hrow, ?_⟩
    simp only [Function.comp_apply, hnot, Bool.false_eq_true, if_false, moved]
  · change (if _ then _ else _ : ProcessInstanceRow).instanceId = k
    split
    · exact hid
    · exact hid
  · change (if _ then _ else _ : ProcessInstanceRow).active = true
    split
    · exact hactive
    · exact hactive

end ProcessTables

section Owns

variable {tables : ProcessTables} {runtime : Runtime} {children : List Child}
  {entry : RuntimeEntry} {outcome : StopOutcome} {id : ProcessInstanceId}

/-- Every child has its entry, and every entry an active row. -/
structure Owns (tables : ProcessTables) (runtime : Runtime) (children : List Child) : Prop where
  unique : Unique RuntimeEntry.id runtime
  children : ∀ child ∈ children,
    ∃ entry ∈ runtime, entry.id = child.instanceId ∧ entry.handle = child.handle
  entries : ∀ entry ∈ runtime, tables.IsActive entry.id

theorem Owns.activeIn {tables' : ProcessTables} (h : Owns tables runtime children)
    (hactive : ∀ entry ∈ runtime, tables.IsActive entry.id → tables'.IsActive entry.id) :
    Owns tables' runtime children :=
  ⟨h.unique, h.children, fun entry hentry => hactive entry hentry (h.entries entry hentry)⟩

theorem Owns.fewer {children' : List Child} (h : Owns tables runtime children)
    (hsub : children' ⊆ children) : Owns tables runtime children' :=
  ⟨h.unique, fun child hchild => h.children child (hsub hchild), h.entries⟩

theorem Owns.remove (h : Owns tables runtime children)
    (hnone : ∀ child ∈ children, child.instanceId ≠ id) :
    Owns tables (runtime.filter fun entry => entry.id ≠ id) children := by
  refine ⟨h.unique.filter _, fun child hchild => ?_, fun entry hentry => ?_⟩
  · obtain ⟨entry, hentry, hid, hhandle⟩ := h.children child hchild
    refine ⟨entry, List.mem_filter.mpr ⟨hentry, decide_eq_true ?_⟩, hid, hhandle⟩
    exact fun heq => hnone child hchild (hid.symm.trans heq)
  · exact h.entries entry (List.mem_filter.mp hentry).1

theorem Owns.noChild (h : Owns tables runtime children)
    (hnone : runtime.runtimeEntry id = none) (child : Child) (hchild : child ∈ children) :
    child.instanceId ≠ id := by
  obtain ⟨entry, hentry, hid, -⟩ := h.children child hchild
  exact fun heq => KeyedRows.find_eq_none.mp hnone entry hentry (hid.trans heq)

theorem Owns.retire (h : Owns tables runtime children)
    (hnone : runtime.runtimeEntry id = none) :
    Owns (tables.retireProcessInstance id) runtime children :=
  h.activeIn fun entry hentry hactive =>
    hactive.retire (KeyedRows.find_eq_none.mp hnone entry hentry)

theorem Owns.insert {instance_ : ProcessInstance} {handle : ChildHandle}
    (h : Owns tables runtime children) (hactive : tables.IsActive instance_.id)
    (hnone : runtime.runtimeEntry instance_.id = none) :
    Owns tables (runtime.insertRuntimeEntry ⟨instance_, handle, .running⟩)
      (children ++ [⟨instance_.id, handle⟩]) := by
  have hmem (entry : RuntimeEntry) :
      entry ∈ runtime.insertRuntimeEntry ⟨instance_, handle, .running⟩ ↔
        entry ∈ runtime ∧ entry.id ≠ instance_.id ∨ entry = ⟨instance_, handle, .running⟩ :=
    KeyedRows.mem_insert
  refine ⟨h.unique.insert, fun child hchild => ?_, fun entry hentry => ?_⟩
  · rcases List.mem_append.mp hchild with hold | hnew
    · obtain ⟨entry, hentry, hid, hhandle⟩ := h.children child hold
      exact ⟨entry, (hmem entry).mpr
        (.inl ⟨hentry, KeyedRows.find_eq_none.mp hnone entry hentry⟩), hid, hhandle⟩
    · rw [List.mem_singleton.mp hnew]
      exact ⟨_, (hmem _).mpr (.inr rfl), rfl, rfl⟩
  · rcases (hmem entry).mp hentry with ⟨hold, -⟩ | rfl
    · exact h.entries entry hold
    · exact hactive

theorem Owns.setState (h : Owns tables runtime children) (state : ProcessState) :
    Owns tables (runtime.setRuntimeState id state) children := by
  refine ⟨h.unique.update fun _ hid => hid, fun child hchild => ?_, fun entry hentry => ?_⟩
  · obtain ⟨entry, hentry, hid, hhandle⟩ := h.children child hchild
    by_cases hsame : entry.id = id
    · exact ⟨{ entry with state }, KeyedRows.mem_update_iff.mpr (.inl ⟨entry, hentry, hsame, rfl⟩),
        hid, hhandle⟩
    · exact ⟨entry, KeyedRows.mem_update_iff.mpr (.inr ⟨hentry, hsame⟩), hid, hhandle⟩
  · rcases KeyedRows.mem_update_iff.mp hentry with ⟨entry', hentry', -, rfl⟩ | ⟨hentry', -⟩
    · exact h.entries entry' hentry'
    · exact h.entries entry hentry'

/-- Another ordinal of an entry's instance. -/
theorem Owns.promote {promoted : ProcessInstance} (h : Owns tables runtime children)
    (hid : promoted.id = id) : Owns tables (runtime.promoteRuntimeInstance id promoted) children := by
  refine ⟨h.unique.update fun _ _ => hid, fun child hchild => ?_, fun entry hentry => ?_⟩
  · obtain ⟨entry, hentry, hentryId, hhandle⟩ := h.children child hchild
    by_cases hsame : entry.id = id
    · exact ⟨{ entry with instance_ := promoted },
        KeyedRows.mem_update_iff.mpr (.inl ⟨entry, hentry, hsame, rfl⟩),
        (hid.trans hsame.symm).trans hentryId, hhandle⟩
    · exact ⟨entry, KeyedRows.mem_update_iff.mpr (.inr ⟨hentry, hsame⟩), hentryId, hhandle⟩
  · rcases KeyedRows.mem_update_iff.mp hentry with ⟨entry', hentry', hsame, rfl⟩ | ⟨hentry', -⟩
    · have hactive := h.entries entry' hentry'
      rw [hsame, ← hid] at hactive
      exact hactive
    · exact h.entries entry hentry'

theorem stopInstance_killed (hu : Unique RuntimeEntry.id runtime)
    (hcurrent : ∀ entry', runtime.runtimeEntry entry.id = some entry' → entry' = entry)
    (hkilled : outcome.isKilled = true) : RollingState.stopInstance runtime entry outcome =
      runtime.filter fun entry' => entry'.id ≠ entry.id := by
  let slot : ReplacedSlot := ⟨entry.instance_, entry, entry.instance_, []⟩
  have hold : RollingState.OldEntry runtime true slot := ⟨rfl, hcurrent, nofun⟩
  have hstopped := RollingState.stopInstance_stopped hu hold
  cases outcome with
  | notCancelled error => cases hkilled
  | notSignalled error => cases hkilled
  | notCleaned error => exact hstopped
  | stopped => exact hstopped

/-- A stop of the entry as it is. -/
theorem Owns.stop (h : Owns tables runtime children)
    (hcurrent : ∀ entry', runtime.runtimeEntry entry.id = some entry' → entry' = entry) :
    Owns tables (RollingState.stopInstance runtime entry outcome)
      (outcome.remaining entry.handle children) := by
  unfold StopOutcome.remaining
  by_cases hkilled : outcome.isKilled = true
  · rw [if_pos hkilled, stopInstance_killed h.unique hcurrent hkilled]
    refine (h.fewer List.filter_sublist.subset).remove fun child hchild hid => ?_
    obtain ⟨hchild, hother⟩ := List.mem_filter.mp hchild
    obtain ⟨entry', hentry', hid', hhandle⟩ := h.children child hchild
    -- the entry of the child is the one that is stopped
    have hfind := h.unique.find_of_mem hentry'
    rw [hid'.trans hid] at hfind
    have heq := hcurrent entry' hfind
    rw [← hhandle, heq] at hother
    exact of_decide_eq_true hother rfl
  · rw [if_neg hkilled]
    cases outcome with
    | notCancelled error => exact h.setState .stopping
    | notSignalled error => exact h.setState .running
    | notCleaned error => exact absurd rfl hkilled
    | stopped => exact absurd rfl hkilled

theorem runtimeEntry_killed (hu : Unique RuntimeEntry.id runtime)
    (hcurrent : ∀ entry', runtime.runtimeEntry entry.id = some entry' → entry' = entry)
    (hkilled : outcome.isKilled = true) :
    (RollingState.stopInstance runtime entry outcome).runtimeEntry entry.id = none := by
  rw [stopInstance_killed hu hcurrent hkilled]
  refine KeyedRows.find_eq_none.mpr fun entry' hentry' => ?_
  exact of_decide_eq_true (List.mem_filter.mp hentry').2

end Owns

namespace SlotState

variable {s t : SlotState} {instance_ : ProcessInstance} {slots : List ProcessInstance}
  {k : ProcessInstanceId}

def OwnsAll (s : SlotState) : Prop := Owns s.tables s.runtime s.children

theorem spawn_owns {outcome : SpawnOutcome} (h : s.OwnsAll)
    (hactive : s.tables.IsActive instance_.id) (hnone : s.runtime.runtimeEntry instance_.id = none)
    (hleft : outcome.left = none) : (s.spawnProcessInstance instance_ outcome).OwnsAll := by
  cases outcome with
  | spawned handle => exact Owns.insert h hactive hnone
  | notSpawned error left =>
    obtain rfl : left = none := hleft
    change Owns s.tables s.runtime (s.children ++ [])
    rw [List.append_nil]
    exact h
  | notGuarded error left =>
    obtain rfl : left = none := hleft
    change Owns s.tables (s.runtime.filter _) (s.children ++ [])
    rw [List.append_nil]
    exact Owns.remove h (Owns.noChild h hnone)

/-- A spawn does not touch the other instances. -/
theorem spawn_frame {outcome : SpawnOutcome} (hne : k ≠ instance_.id) :
    (s.spawnProcessInstance instance_ outcome).tables = s.tables ∧
    (s.spawnProcessInstance instance_ outcome).point = s.point ∧
    (s.spawnProcessInstance instance_ outcome).runtime.runtimeEntry k =
      s.runtime.runtimeEntry k := by
  cases outcome with
  | spawned handle =>
    refine ⟨rfl, rfl, ?_⟩
    have hfind : (s.runtime.insertRuntimeEntry ⟨instance_, handle, .running⟩).runtimeEntry k =
        if instance_.id = k then some ⟨instance_, handle, .running⟩
        else s.runtime.runtimeEntry k := KeyedRows.find_insert
    exact hfind.trans (if_neg hne.symm)
  | notSpawned error left => exact ⟨rfl, rfl, rfl⟩
  | notGuarded error left =>
    refine ⟨rfl, rfl, ?_⟩
    exact (RollingState.runtimeEntry_filter instance_.id k).trans (if_pos hne)

theorem current_of_runtimeEntry {entry : RuntimeEntry} {id : ProcessInstanceId}
    (hentry : s.runtime.runtimeEntry id = some entry) :
    ∀ entry', s.runtime.runtimeEntry entry.id = some entry' → entry' = entry := by
  intro entry' hentry'
  have hid : entry.id = id := KeyedRows.find_key hentry
  rw [hid] at hentry'
  exact Option.some.inj (hentry'.symm.trans hentry)

theorem stop_isKilled {outcome : StopOutcome} (h : outcome.error = none) :
    outcome.isKilled = true := by
  cases outcome with
  | stopped => rfl
  | notCancelled error => cases h
  | notSignalled error => cases h
  | notCleaned error => cases h

/-- What the loops leave of the instances that they have not come to. -/
structure Spares (s t : SlotState) (id : ProcessInstanceId) : Prop where
  point : t.point = s.point
  active : ∀ k, k ≠ id → s.tables.IsActive k → t.tables.IsActive k
  entry : ∀ k, k ≠ id → t.runtime.runtimeEntry k = s.runtime.runtimeEntry k

theorem Spares.retire (h : Spares s t k) : Spares s (t.retireProcessInstance k) k where
  point := h.point
  active k' hne hactive := (h.active k' hne hactive).retire hne
  entry k' hne := h.entry k' hne

theorem stop_spares {entry : RuntimeEntry} {outcome : StopOutcome} :
    Spares s (s.stopProcessInstance entry outcome) entry.id where
  point := rfl
  active _ _ hactive := hactive
  entry _ hne := runtimeEntry_stopInstance hne

theorem retireSurplus_owns {r : StartReplies} (h : s.OwnsAll) :
    (s.retireSurplus r instance_).2.OwnsAll ∧
    Spares s (s.retireSurplus r instance_).2 instance_.id := by
  have hself : Spares s s instance_.id := ⟨rfl, fun _ _ hactive => hactive, fun _ _ => rfl⟩
  unfold retireSurplus
  dsimp only
  split
  · rename_i entry hentry
    have hid : entry.id = instance_.id := KeyedRows.find_key hentry
    have hcurrent := current_of_runtimeEntry hentry
    have hstopped : (s.stopProcessInstance entry (r.stop instance_.id)).OwnsAll :=
      Owns.stop h hcurrent
    have hspares : Spares s (s.stopProcessInstance entry (r.stop instance_.id)) instance_.id :=
      hid ▸ stop_spares
    cases hstop : (r.stop instance_.id).error with
    | some error => exact ⟨hstopped, hspares⟩
    | none =>
      cases r.retire instance_.id with
      | some error => exact ⟨hstopped, hspares⟩
      | none =>
        refine ⟨Owns.retire hstopped ?_, hspares.retire⟩
        have hnone := runtimeEntry_killed h.unique hcurrent (stop_isKilled hstop)
        rwa [hid] at hnone
  · rename_i hnone
    split
    · exact ⟨h, hself⟩
    · cases r.retire instance_.id with
      | some error => exact ⟨h, hself⟩
      | none => exact ⟨Owns.retire h hnone, hself.retire⟩
    · rename_i handle _
      cases r.probe instance_.id with
      | some error => exact ⟨h, hself⟩
      | none =>
        dsimp only
        split
        · exact ⟨h, hself⟩
        · cases r.clear instance_.id with
          | some error => exact ⟨h, hself⟩
          | none =>
            dsimp only
            split
            · exact ⟨h, hself⟩
            · rename_i affected tables hclear
              have htables : tables =
                  (s.tables.clearProcessInstanceRuntimeHandleIfMatches instance_ handle).2 := by
                rw [hclear]
              have hactive (k : ProcessInstanceId) (hk : s.tables.IsActive k) :
                  tables.IsActive k := htables ▸ hk.clear
              have hcleared : Owns tables s.runtime s.children :=
                Owns.activeIn h fun entry _ hk => hactive entry.id hk
              have hspares : Spares s { s with tables } instance_.id :=
                ⟨rfl, fun k _ hk => hactive k hk, fun _ _ => rfl⟩
              cases r.retire instance_.id with
              | some error => exact ⟨hcleared, hspares⟩
              | none => exact ⟨Owns.retire hcleared hnone, hspares.retire⟩

/-- Starting keeps every child owned. -/
theorem startSlots_owns {r : StartReplies} {isStarted : Bool} (h : s.OwnsAll)
    (hids : (slots.map ProcessInstance.id).Nodup)
    (hactive : ∀ slot ∈ slots, s.tables.IsActive slot.id)
    (hleft : ∀ slot ∈ slots, (r.spawn slot.id).left = none) :
    (startSlots r slots isStarted s).2.OwnsAll ∧
    (startSlots r slots isStarted s).2.point = s.point := by
  induction slots generalizing s isStarted with
  | nil => exact ⟨h, rfl⟩
  | cons slot slots ih =>
    obtain ⟨hfirst, hrest⟩ := List.nodup_cons.mp hids
    have hnext {u : SlotState} (hspares : Spares s u slot.id) :
        ∀ slot' ∈ slots, u.tables.IsActive slot'.id := by
      intro slot' hslot'
      refine hspares.active slot'.id (fun heq => hfirst ?_)
        (hactive slot' (List.mem_cons_of_mem _ hslot'))
      exact List.mem_map.mpr ⟨slot', hslot', heq⟩
    have hleft' : ∀ slot' ∈ slots, (r.spawn slot'.id).left = none := fun slot' hslot' =>
      hleft slot' (List.mem_cons_of_mem _ hslot')
    unfold startSlots
    split
    · have hone : (s.retireSurplus r slot).2.OwnsAll ∧ Spares s (s.retireSurplus r slot).2 slot.id :=
        retireSurplus_owns h
      obtain ⟨howns, hspares⟩ := hone
      split
      · rename_i error u hu
        rw [hu] at howns hspares
        exact ⟨howns, hspares.point⟩
      · rename_i u hu
        rw [hu] at howns hspares
        have hdone := @ih u isStarted howns hrest (hnext hspares) hleft'
        exact ⟨hdone.1, hdone.2.trans hspares.point⟩
    · have hone : (s.startSlot r slot).2.OwnsAll ∧ Spares s (s.startSlot r slot).2 slot.id := by
        unfold startSlot
        split
        · exact ⟨h, rfl, fun _ _ hactive => hactive, fun _ _ => rfl⟩
        · rename_i hnone
          rw [Option.not_isSome_iff_eq_none] at hnone
          have hspawned := spawn_owns h (hactive slot List.mem_cons_self) hnone
            (hleft slot List.mem_cons_self)
          have hspares : Spares s (s.spawnProcessInstance slot (r.spawn slot.id)) slot.id := by
            refine ⟨?_, fun k hne hk => ?_, fun k hne => (spawn_frame hne).2.2⟩
            · cases r.spawn slot.id <;> rfl
            · rw [(spawn_frame hne).1]
              exact hk
          cases (r.spawn slot.id).error with
          | some error => exact ⟨hspawned, hspares⟩
          | none => exact ⟨hspawned, hspares⟩
      obtain ⟨howns, hspares⟩ := hone
      split
      · rename_i error u hu
        rw [hu] at howns hspares
        exact ⟨howns, hspares.point⟩
      · rename_i spawned u hu
        rw [hu] at howns hspares
        have hdone := @ih u (isStarted || spawned) howns hrest (hnext hspares) hleft'
        exact ⟨hdone.1, hdone.2.trans hspares.point⟩

theorem listed_active {definitionId : ProcessDefinitionId} {tables : ProcessTables}
    (hlist : tables.listProcessInstances definitionId = .ok slots) :
    ∀ slot ∈ slots, ∃ row ∈ tables.activeRows definitionId,
      ProcessTables.instanceOf row = .ok slot ∧ tables.IsActive slot.id := by
  intro slot hslot
  obtain ⟨row, hrow, hok⟩ := (ProcessTables.listProcessInstances_ok hlist).2.1 slot hslot
  exact ⟨row, hrow, hok, row, (List.mem_filter.mp hrow).1, (ProcessTables.instanceOf_ok hok).1,
    ProcessTables.activeRows_active hrow⟩

theorem start_owns {r : StartReplies} (h : s.OwnsAll)
    (hfits : ∀ row ∈ s.tables.instances, (r.spawn row.instanceId).left = none) :
    (s.startProcess r).2.OwnsAll ∧ (s.startProcess r).2.point = s.point := by
  unfold startProcess
  split
  · exact ⟨h, rfl⟩
  · rename_i slots hlisted
    have hlist : s.tables.listProcessInstances s.spec.definitionId = .ok slots := by
      cases hfails : r.list with
      | some error =>
        rw [hfails] at hlisted
        cases hlisted
      | none =>
        rw [hfails] at hlisted
        exact hlisted
    have hall : (startSlots r slots false s).2.OwnsAll ∧
        (startSlots r slots false s).2.point = s.point := by
      refine startSlots_owns h (ProcessTables.listProcessInstances_ok hlist).1 ?_ ?_
      · intro slot hslot
        obtain ⟨-, -, -, hactive⟩ := listed_active hlist slot hslot
        exact hactive
      · intro slot hslot
        obtain ⟨row, hrow, hok, -⟩ := listed_active hlist slot hslot
        have hleft := hfits row (List.mem_filter.mp hrow).1
        rwa [(ProcessTables.instanceOf_ok hok).1] at hleft
    split
    · rename_i hu
      rw [hu] at hall
      exact hall
    · rename_i hu
      rw [hu] at hall
      exact hall
    · rename_i hu
      rw [hu] at hall
      cases r.probeRunning with
      | some error => exact hall
      | none =>
        dsimp only
        split
        · exact hall
        · exact hall

theorem stopEntries_owns {stop : ProcessInstanceId → StopOutcome} {entries : List RuntimeEntry}
    (h : s.OwnsAll) (hids : (entries.map RuntimeEntry.id).Nodup)
    (hcurrent : ∀ entry ∈ entries, ∀ entry',
      s.runtime.runtimeEntry entry.id = some entry' → entry' = entry) :
    (stopEntries stop entries s).2.OwnsAll ∧ (stopEntries stop entries s).2.point = s.point := by
  induction entries generalizing s with
  | nil => exact ⟨h, rfl⟩
  | cons entry entries ih =>
    obtain ⟨hfirst, hrest⟩ := List.nodup_cons.mp hids
    have hstopped : (s.stopProcessInstance entry (stop entry.id)).OwnsAll :=
      Owns.stop h (hcurrent entry List.mem_cons_self)
    unfold stopEntries
    cases (stop entry.id).error with
    | some error => exact ⟨hstopped, rfl⟩
    | none =>
      refine ih hstopped hrest fun entry' hentry' other hother => ?_
      have hne : entry'.id ≠ entry.id := by
        intro heq
        rw [← heq] at hfirst
        exact hfirst (List.mem_map_of_mem hentry')
      have hsame := (@stop_spares s _ (stop entry.id)).entry entry'.id hne
      exact hcurrent entry' (List.mem_cons_of_mem _ hentry') other (hsame.symm.trans hother)

theorem stop_owns {stop : ProcessInstanceId → StopOutcome} (h : s.OwnsAll) :
    (s.stopProcess stop).2.OwnsAll ∧ (s.stopProcess stop).2.point = s.point := by
  unfold stopProcess
  split
  · exact ⟨h, rfl⟩
  · have hperm := List.perm_insertionSort
      (fun a b : RuntimeEntry => a.instance_.ordinal ≤ b.instance_.ordinal) s.runtime
    refine stopEntries_owns h (h.unique.perm hperm) fun entry hentry entry' hentry' => ?_
    have hfind := h.unique.find_of_mem (hperm.mem_iff.mp hentry)
    exact Option.some.inj (hentry'.symm.trans hfind)

/-- A scale-down retires what it has stopped. -/
theorem scaleDown_owns {r : ScaleReplies} {operation : ProcessOperation} (h : s.OwnsAll) :
    (scaleDown r slots operation s).2.OwnsAll ∧
    (scaleDown r slots operation s).2.point = s.point := by
  induction slots generalizing s operation with
  | nil => exact ⟨h, rfl⟩
  | cons slot slots ih =>
    unfold scaleDown
    split
    · exact ih h
    · rename_i entry hentry
      have hid : entry.id = slot.id := KeyedRows.find_key hentry
      have hcurrent := current_of_runtimeEntry hentry
      have hstopped : (s.stopProcessInstance entry (r.stop slot.id)).OwnsAll :=
        Owns.stop h hcurrent
      cases hstop : (r.stop slot.id).error with
      | some error => exact ⟨hstopped, rfl⟩
      | none =>
        cases r.retire slot.id with
        | some error => exact ⟨hstopped, rfl⟩
        | none =>
          have hnone := runtimeEntry_killed h.unique hcurrent (stop_isKilled hstop)
          rw [hid] at hnone
          have hretired : ((s.stopProcessInstance entry (r.stop slot.id)).retireProcessInstance
              slot.id).OwnsAll := Owns.retire hstopped hnone
          exact ih hretired

/-- A scale-up spawns slots that have no entry. -/
theorem scaleUp_owns {r : ScaleReplies} {wasRunning : Bool} {operation : ProcessOperation}
    (h : s.OwnsAll) (hids : (slots.map ProcessInstance.id).Nodup)
    (hactive : ∀ slot ∈ slots, s.tables.IsActive slot.id)
    (hnone : ∀ slot ∈ slots, s.runtime.runtimeEntry slot.id = none)
    (hleft : ∀ slot ∈ slots, (r.spawn slot.id).left = none) :
    (scaleUp r wasRunning slots operation s).2.OwnsAll ∧
    (scaleUp r wasRunning slots operation s).2.point = s.point := by
  induction slots generalizing s operation with
  | nil => exact ⟨h, rfl⟩
  | cons slot slots ih =>
    obtain ⟨hfirst, hrest⟩ := List.nodup_cons.mp hids
    have hother {slot' : ProcessInstance} (hslot' : slot' ∈ slots) : slot'.id ≠ slot.id := by
      intro heq
      rw [← heq] at hfirst
      exact hfirst (List.mem_map_of_mem hslot')
    have htail {p : ProcessInstance → Prop} (hp : ∀ slot' ∈ slot :: slots, p slot') :
        ∀ slot' ∈ slots, p slot' := fun slot' hslot' => hp slot' (List.mem_cons_of_mem _ hslot')
    have hspawned := spawn_owns h (hactive slot List.mem_cons_self)
      (hnone slot List.mem_cons_self) (hleft slot List.mem_cons_self)
    have hpoint : (s.spawnProcessInstance slot (r.spawn slot.id)).point = s.point := by
      cases r.spawn slot.id <;> rfl
    have hnext (operation' : ProcessOperation) :
        (scaleUp r wasRunning slots operation'
          (s.spawnProcessInstance slot (r.spawn slot.id))).2.OwnsAll ∧
        (scaleUp r wasRunning slots operation'
          (s.spawnProcessInstance slot (r.spawn slot.id))).2.point = s.point := by
      have hactive' : ∀ slot' ∈ slots,
          (s.spawnProcessInstance slot (r.spawn slot.id)).tables.IsActive slot'.id := by
        intro slot' hslot'
        rw [(spawn_frame (hother hslot')).1]
        exact htail hactive slot' hslot'
      have hnone' : ∀ slot' ∈ slots, (s.spawnProcessInstance slot
          (r.spawn slot.id)).runtime.runtimeEntry slot'.id = none := by
        intro slot' hslot'
        rw [(spawn_frame (hother hslot')).2.2]
        exact htail hnone slot' hslot'
      have hdone := @ih _ operation' hspawned hrest hactive' hnone' (htail hleft)
      exact ⟨hdone.1, hdone.2.trans hpoint⟩
    unfold scaleUp
    split
    · cases (r.spawn slot.id).error with
      | some error => exact hnext _
      | none => exact hnext _
    · exact ih h hrest (htail hactive) (htail hnone) (htail hleft)

/-- Another number of instances only adds rows. -/
theorem save_owns {r : ScaleReplies} {instances : U16} (h : s.OwnsAll)
    (hsaved : s.saveInstances r instances = .ok t) :
    t.OwnsAll ∧ t.point = s.point ∧ t.runtime = s.runtime ∧
      ∀ row ∈ s.tables.instances, row ∈ t.tables.instances := by
  unfold saveInstances RepoError.orElse at hsaved
  cases hsave : r.save with
  | some error =>
    rw [hsave] at hsaved
    cases hsaved
  | none =>
    rw [hsave] at hsaved
    change Except.map _ (s.tables.syncProcessInstances s.spec.definitionId r.newId instances.val) =
      .ok t at hsaved
    cases hsync : s.tables.syncProcessInstances s.spec.definitionId r.newId instances.val with
    | error error =>
      rw [hsync] at hsaved
      cases hsaved
    | ok tables =>
      rw [hsync] at hsaved
      obtain rfl := Except.ok.inj hsaved
      have hrows : ∀ row ∈ s.tables.instances, row ∈ tables.instances := fun row hrow =>
        ProcessTables.syncProcessInstances_mem hsync hrow
      refine ⟨Owns.activeIn h fun entry _ hactive => ?_, rfl, rfl, hrows⟩
      obtain ⟨row, hrow, hid⟩ := hactive
      exact ⟨row, hrows row hrow, hid⟩

theorem finishScale_owns {r : ScaleReplies} {operation : ProcessOperation} (h : s.OwnsAll) :
    (finishScale r operation s).2.OwnsAll ∧ (finishScale r operation s).2.point = s.point := by
  unfold finishScale
  cases r.record with
  | some error => exact ⟨h, rfl⟩
  | none => exact ⟨h, rfl⟩

theorem performScale_owns {r : ScaleReplies} {target : U16} {operation : ProcessOperation}
    (h : s.OwnsAll) (hfits : s.Fits (.scale target operation.operationId r)) :
    (s.performScale target r operation).2.OwnsAll ∧
    (s.performScale target r operation).2.point = s.point := by
  unfold performScale
  split
  · exact ⟨h, rfl⟩
  · rename_i slots _
    split
    · have hdown {operation' : ProcessOperation} {u : SlotState}
          (hu : scaleDown r (slots.filter fun slot => target ≤ slot.ordinal).reverse operation s =
            (operation', u)) : u.OwnsAll ∧ u.point = s.point := by
        have hall := @scaleDown_owns _ ((slots.filter fun slot => target ≤ slot.ordinal).reverse)
          r operation h
        rw [hu] at hall
        exact hall
      split
      rename_i operation' u hu
      obtain ⟨howns, hpoint⟩ := hdown hu
      split
      · cases hsaved : u.saveInstances r target with
        | error error => exact ⟨howns, hpoint⟩
        | ok saved =>
          obtain ⟨hsavedOwns, hsavedPoint, -⟩ := save_owns howns hsaved
          have hdone := @finishScale_owns _ r operation' hsavedOwns
          exact ⟨hdone.1, hdone.2.trans (hsavedPoint.trans hpoint)⟩
      · have hdone := @finishScale_owns _ r operation' howns
        exact ⟨hdone.1, hdone.2.trans hpoint⟩
    · split
      · rename_i hlt
        cases hsaved : s.saveInstances r target with
        | error error => exact ⟨h, rfl⟩
        | ok saved =>
          obtain ⟨howns, hpoint, hruntime, hkept⟩ := save_owns h hsaved
          obtain ⟨-, -, -, hsavedRows⟩ := saveInstances_ok hsaved
          obtain ⟨hrows, hnewIds⟩ := hfits hlt
          dsimp only
          split
          · exact ⟨howns, hpoint⟩
          · rename_i savedSlots hlisted
            have hlist : saved.tables.listProcessInstances saved.spec.definitionId =
                .ok savedSlots := by
              cases hfails : r.listSaved with
              | some error =>
                rw [hfails] at hlisted
                cases hlisted
              | none =>
                rw [hfails] at hlisted
                exact hlisted
            let added := savedSlots.filter fun slot => s.spec.instances ≤ slot.ordinal
            -- a slot that is added was not there, or has no entry
            have hadded : ∀ slot ∈ added, saved.tables.IsActive slot.id ∧
                saved.runtime.runtimeEntry slot.id = none ∧ (r.spawn slot.id).left = none := by
              intro slot hslot
              obtain ⟨hslot, hle⟩ := List.mem_filter.mp hslot
              obtain ⟨row, hrow, hok, hactive⟩ := listed_active hlist slot hslot
              obtain ⟨hid, -, hordinal, -⟩ := ProcessTables.instanceOf_ok hok
              have hle' : s.spec.instances.val ≤ slot.ordinal.val := of_decide_eq_true hle
              rw [hruntime, ← hid]
              refine ⟨hid ▸ hactive, ?_⟩
              rcases (hsavedRows row).mp hrow with hold | ⟨n, hn, hnot, heq⟩
              · exact hrows row hold (by omega)
              · rw [heq]
                refine ⟨KeyedRows.find_eq_none.mpr fun entry hentry hsame => ?_, hnewIds n hn⟩
                obtain ⟨row', hrow', hid', hactive'⟩ := h.entries entry hentry
                have hunique := saved.tables.unique.eq_of_key (hkept row' hrow')
                  (List.mem_filter.mp hrow).1 (by rw [hid', hsame, heq])
                refine hnot row' (List.mem_filter.mpr ⟨hrow', ?_⟩) ?_
                · rw [hunique, heq]
                  exact Bool.and_eq_true_iff.mpr ⟨decide_eq_true rfl, rfl⟩
                · rw [hunique, heq]
            have hup : (scaleUp r (!s.runtime.isEmpty) added operation saved).2.OwnsAll ∧
                (scaleUp r (!s.runtime.isEmpty) added operation saved).2.point = saved.point := by
              refine scaleUp_owns howns ?_ (fun slot hslot => (hadded slot hslot).1)
                (fun slot hslot => (hadded slot hslot).2.1)
                (fun slot hslot => (hadded slot hslot).2.2)
              exact (ProcessTables.listProcessInstances_ok hlist).1.sublist
                (List.filter_sublist.map _)
            have hdone := @finishScale_owns (scaleUp r (!s.runtime.isEmpty) added operation saved).2 r
              (scaleUp r (!s.runtime.isEmpty) added operation saved).1 hup.1
            exact ⟨hdone.1, hdone.2.trans (hup.2.trans hpoint)⟩
      · exact finishScale_owns h

theorem scale_owns {r : ScaleReplies} {target : U16} {operationId : Uuid} (h : s.OwnsAll)
    (hfits : s.Fits (.scale target operationId r)) :
    (s.scaleProcess target operationId r).2.OwnsAll ∧
    (s.scaleProcess target operationId r).2.point = s.point := by
  unfold scaleProcess
  split
  · exact ⟨h, rfl⟩
  split
  · exact ⟨h, rfl⟩
  split
  · exact ⟨h, rfl⟩
  split
  · split
    · exact ⟨h, rfl⟩
    · exact ⟨h, rfl⟩
  · cases r.claim with
    | some error => exact ⟨h, rfl⟩
    | none =>
      let claimed : ProcessOperation :=
        { operationId, name := s.spec.name, kind := .scale, targetInstances := some target
          phase := "reconciling", deadline := none }
      let s' : SlotState := { s with operations := s.operations ++ [claimed] }
      have howns : s'.OwnsAll := h
      have hfits' : s'.Fits (.scale target claimed.operationId r) := hfits
      exact performScale_owns howns hfits'

/-- What is owned while a slot is replaced. -/
def PointOwned (tables : ProcessTables) (runtime : Runtime) : RollingPoint → Prop
  | .spawning slot => tables.IsActive slot.replacement.id ∧
      runtime.runtimeEntry slot.replacement.id = none ∧ slot.old.id ≠ slot.replacement.id ∧
      RollingState.OldEntry runtime true slot
  | .guarding slot handle => (∀ entry, runtime.runtimeEntry slot.replacement.id = some entry →
        entry.instance_ = slot.replacement ∧ entry.handle = handle) ∧
      RollingState.OldEntry runtime true slot
  | .waiting slot | .draining slot => RollingState.OldEntry runtime true slot
  | .promoting slot => runtime.runtimeEntry slot.old.id = none
  | .start | .next _ | .finishing | .replayed | .returned _ => True

structure Owned (s : SlotState) : Prop where
  all : s.OwnsAll
  point : PointOwned s.tables s.runtime s.point

theorem PointOwned.unlocked {tables : ProcessTables} {runtime : Runtime} {point : RollingPoint}
    (h : point.isUnlocked = true) : PointOwned tables runtime point := by
  cases point with
  | start => trivial
  | returned result => trivial
  | next rest => cases h
  | spawning slot => cases h
  | guarding slot handle => cases h
  | waiting slot => cases h
  | draining slot => cases h
  | promoting slot => cases h
  | finishing => cases h
  | replayed => cases h

/-- An entry that is removed is never missed. -/
theorem PointOwned.remove {tables : ProcessTables} {runtime : Runtime} {point : RollingPoint}
    (h : PointOwned tables runtime point) (id : ProcessInstanceId) :
    PointOwned tables (runtime.filter fun entry => entry.id ≠ id) point := by
  have hold {k : ProcessInstanceId} {entry : RuntimeEntry}
      (hentry : Runtime.runtimeEntry (runtime.filter fun entry => entry.id ≠ id) k = some entry) :
      runtime.runtimeEntry k = some entry := by
    rw [RollingState.runtimeEntry_filter] at hentry
    split at hentry
    · exact hentry
    · cases hentry
  have hnone {k : ProcessInstanceId} (hk : runtime.runtimeEntry k = none) :
      Runtime.runtimeEntry (runtime.filter fun entry => entry.id ≠ id) k = none := by
    rw [RollingState.runtimeEntry_filter, hk, ite_self]
  have hslot {slot : ReplacedSlot} (hentry : RollingState.OldEntry runtime true slot) :
      RollingState.OldEntry (runtime.filter fun entry => entry.id ≠ id) true slot :=
    ⟨hentry.id, fun entry hfind => hentry.unchanged entry (hold hfind), nofun⟩
  cases point with
  | start => trivial
  | next rest => trivial
  | finishing => trivial
  | replayed => trivial
  | returned result => trivial
  | spawning slot => exact ⟨h.1, hnone h.2.1, h.2.2.1, hslot h.2.2.2⟩
  | guarding slot handle => exact ⟨fun entry hfind => h.1 entry (hold hfind), hslot h.2⟩
  | waiting slot => exact hslot h
  | draining slot => exact hslot h
  | promoting slot => exact hnone h

theorem abandon_owned {u : RollingState} {slot : ReplacedSlot} {stage compensation : String}
    {children : List Child} (h : Owns u.tables u.runtime children)
    (hnone : u.runtime.runtimeEntry slot.replacement.id = none) :
    Owned { toRollingState := u.abandon slot stage compensation, children } :=
  ⟨Owns.retire h hnone, trivial⟩

theorem startOperation_owned {operationId : Uuid} {now : Instant} (h : s.OwnsAll) :
    Owned { toRollingState := s.toRollingState.startOperation operationId now
            children := s.children } := by
  unfold RollingState.startOperation
  split
  · exact ⟨h, trivial⟩
  split
  · exact ⟨h, trivial⟩
  split
  · exact ⟨h, trivial⟩
  split
  · split
    · exact ⟨h, trivial⟩
    · exact ⟨h, trivial⟩
  · split
    · exact ⟨h, trivial⟩
    · exact ⟨h, trivial⟩

/-- The slot that is allocated is active, and has no entry. -/
theorem nextSlot_owned {newId : ProcessInstanceId} {rest : List ProcessInstance} (h : s.OwnsAll)
    (hnew : s.runtime.runtimeEntry newId = none) :
    Owned { toRollingState := s.toRollingState.nextSlot newId rest, children := s.children } := by
  cases rest with
  | nil => exact ⟨h, trivial⟩
  | cons old rest =>
    cases hold : s.runtime.runtimeEntry old.id with
    | none =>
      simp only [RollingState.nextSlot, hold]
      exact ⟨h, trivial⟩
    | some oldEntry =>
      simp only [RollingState.nextSlot, hold]
      split
      · exact ⟨h, trivial⟩
      · rename_i replacement tables hallocated
        obtain ⟨hid, -, halloc⟩ := ProcessTables.allocateProcessInstance_ok hallocated
        have howns : Owns tables s.runtime s.children :=
          Owns.activeIn h fun _ _ hactive => hactive.allocate halloc
        rw [← hid] at hnew
        have hne : old.id ≠ replacement.id := by
          intro heq
          rw [heq, hnew] at hold
          cases hold
        have hentry : oldEntry.id = old.id := KeyedRows.find_key hold
        refine ⟨howns, halloc.isActive, hnew, hne, hentry, fun entry hfind => ?_, fun h => by cases h⟩
        exact Option.some.inj (hfind.symm.trans hold)

theorem spawned_owned {slot : ReplacedSlot} {handle : ChildHandle} (h : s.Owned)
    (hpoint : s.point = .spawning slot) :
    Owned { s with
      runtime := s.runtime.insertRuntimeEntry ⟨slot.replacement, handle, .running⟩
      point := .guarding slot handle
      children := s.children ++ [⟨slot.replacement.id, handle⟩] } := by
  have hslot : PointOwned s.tables s.runtime (.spawning slot) := hpoint ▸ h.point
  obtain ⟨hactive, hnone, hne, hold⟩ := hslot
  have hfind (k : ProcessInstanceId) :
      (s.runtime.insertRuntimeEntry ⟨slot.replacement, handle, .running⟩).runtimeEntry k =
        if slot.replacement.id = k then some ⟨slot.replacement, handle, .running⟩
        else s.runtime.runtimeEntry k := KeyedRows.find_insert
  refine ⟨Owns.insert h.all hactive hnone, fun entry hentry => ?_, hold.id, fun entry hentry => ?_,
    nofun⟩
  · rw [hfind, if_pos rfl] at hentry
    rw [← Option.some.inj hentry]
    exact ⟨rfl, rfl⟩
  · rw [hfind, if_neg hne.symm] at hentry
    exact hold.unchanged entry hentry

/-- A replacement whose guards do not start is killed, and its entry removed. -/
theorem notGuarded_owned {slot : ReplacedSlot} {handle : ChildHandle}
    {stage compensation : String} (h : s.Owned) (hpoint : s.point = .guarding slot handle) :
    Owned {
      toRollingState := RollingState.abandon { s.toRollingState with
        runtime := s.runtime.removeRuntimeEntryIfMatches slot.replacement handle } slot stage
          compensation
      children := s.children.filter fun child => child.handle ≠ handle } := by
  have hslot : PointOwned s.tables s.runtime (.guarding slot handle) := hpoint ▸ h.point
  have hremoved : s.runtime.removeRuntimeEntryIfMatches slot.replacement handle =
      s.runtime.filter fun entry => entry.id ≠ slot.replacement.id := by
    unfold Runtime.removeRuntimeEntryIfMatches
    apply List.filter_congr
    intro entry hentry
    by_cases hid : entry.id = slot.replacement.id
    · have hfind := h.all.unique.find_of_mem hentry
      rw [hid] at hfind
      obtain ⟨hinstance, hhandle⟩ := hslot.1 entry hfind
      simp [Runtime.matchesChild, hid, hinstance, hhandle]
    · simp [Runtime.matchesChild, hid]
  have hnone : Runtime.runtimeEntry (s.runtime.filter fun entry => entry.id ≠ slot.replacement.id)
      slot.replacement.id = none := by
    rw [RollingState.runtimeEntry_filter, if_neg fun hne => hne rfl]
  rw [hremoved]
  refine abandon_owned (Owns.remove (h.all.fewer List.filter_sublist.subset) ?_) hnone
  intro child hchild hid
  obtain ⟨hchild, hother⟩ := List.mem_filter.mp hchild
  obtain ⟨entry, hentry, hentryId, hhandle⟩ := h.all.children child hchild
  -- the entry of the child is the one of the replacement
  have hfind := h.all.unique.find_of_mem hentry
  rw [hentryId.trans hid] at hfind
  exact of_decide_eq_true hother (hhandle.symm.trans (hslot.1 entry hfind).2)

theorem unready_owned {slot : ReplacedSlot} {outcome : StopOutcome} {stage compensation : String}
    (h : s.Owned) (hfits : outcome.isKilled = true ∨
      s.runtime.runtimeEntry slot.replacement.id = none) :
    Owned {
      toRollingState := RollingState.abandon { s.toRollingState with
        runtime := match s.runtime.runtimeEntry slot.replacement.id with
          | some entry => RollingState.stopInstance s.runtime entry outcome
          | none => s.runtime } slot stage compensation
      children := match s.runtime.runtimeEntry slot.replacement.id with
        | some entry => outcome.remaining entry.handle s.children
        | none => s.children } := by
  cases hfind : s.runtime.runtimeEntry slot.replacement.id with
  | none => exact abandon_owned h.all hfind
  | some entry =>
    have hcurrent := current_of_runtimeEntry hfind
    have hid : entry.id = slot.replacement.id := KeyedRows.find_key hfind
    have hkilled : outcome.isKilled = true := by
      rcases hfits with hkilled | hnone
      · exact hkilled
      · cases hfind.symm.trans hnone
    have hnone := runtimeEntry_killed h.all.unique hcurrent hkilled
    rw [hid] at hnone
    exact abandon_owned (Owns.stop h.all hcurrent) hnone

theorem drain_owned {slot : ReplacedSlot} {outcome : StopOutcome} (h : s.Owned)
    (hpoint : s.point = .draining slot) :
    Owned {
      toRollingState := s.toRollingState.drain slot outcome
      children := outcome.remaining slot.oldEntry.handle s.children } := by
  have hold : RollingState.OldEntry s.runtime true slot := by
    have hslot := h.point
    rw [hpoint] at hslot
    exact hslot
  have hcurrent : ∀ entry, s.runtime.runtimeEntry slot.oldEntry.id = some entry →
      entry = slot.oldEntry := by
    rw [hold.id]
    exact hold.unchanged
  have hstopped := @Owns.stop _ _ _ _ outcome h.all hcurrent
  cases outcome with
  | notCancelled error => exact ⟨hstopped, trivial⟩
  | notSignalled error => exact ⟨hstopped, trivial⟩
  | notCleaned error => exact ⟨hstopped, trivial⟩
  | stopped =>
    have hnone := @runtimeEntry_killed _ _ .stopped h.all.unique hcurrent rfl
    rw [hold.id] at hnone
    exact ⟨hstopped, hnone⟩

theorem promote_owned {slot : ReplacedSlot} (h : s.Owned) (hpoint : s.point = .promoting slot) :
    Owned { toRollingState := s.toRollingState.promote slot, children := s.children } := by
  have hnone : s.runtime.runtimeEntry slot.old.id = none := by
    have hslot := h.point
    rw [hpoint] at hslot
    exact hslot
  unfold RollingState.promote
  rcases ProcessTables.promoteProcessInstance_cases (s := s.tables) slot.old slot.replacement with
    ⟨error, hpromote⟩ | hpromote | ⟨tables, hpromote, hrows⟩
  · rw [hpromote]
    exact ⟨h.all, trivial⟩
  · rw [hpromote]
    exact ⟨h.all, trivial⟩
  · rw [hpromote]
    refine ⟨?_, trivial⟩
    have howns : Owns tables s.runtime s.children := Owns.activeIn h.all fun entry hentry hactive =>
      hactive.promote hrows (KeyedRows.find_eq_none.mp hnone entry hentry)
    exact howns.promote rfl

/-- What no step of the rolling restart does to a child leaves everything owned. -/
theorem rolling_owned {e : RollingEvent} {left : Option ChildHandle} {u : RollingState}
    (h : s.Owned) (hfits : s.Fits (.rolling e left)) (hexited : ∀ id, e ≠ .exited id)
    (hstep : s.toRollingState.step e = some u) :
    Owned { toRollingState := u, children := s.rollingChildren e left } := by
  cases e with
  | start operationId now =>
    simp only [RollingState.step] at hstep
    split at hstep
    · exact Option.some.inj hstep ▸ startOperation_owned h.all
    · cases hstep
  | next newId =>
    simp only [RollingState.step] at hstep
    split at hstep
    · split at hstep
      · cases hstep
      · exact Option.some.inj hstep ▸
          nextSlot_owned h.all (Option.not_isSome_iff_eq_none.mp ‹_›)
    · cases hstep
  | spawned handle =>
    simp only [RollingState.step] at hstep
    split at hstep
    · rename_i slot hpoint
      have hspawned := @spawned_owned s slot handle h hpoint
      rw [← Option.some.inj hstep]
      simpa only [rollingChildren, hpoint] using hspawned
    · cases hstep
  | notSpawned error =>
    simp only [RollingState.step] at hstep
    split at hstep
    · rename_i slot hpoint
      obtain rfl : left = none := hfits
      have hslot : PointOwned s.tables s.runtime (.spawning slot) := hpoint ▸ h.point
      rw [← Option.some.inj hstep]
      simp only [rollingChildren, hpoint, Option.toList_none, List.map_nil, List.append_nil]
      exact abandon_owned h.all hslot.2.1
    · cases hstep
  | guarded =>
    simp only [RollingState.step] at hstep
    split at hstep
    · rename_i slot handle hpoint
      have hslot : PointOwned s.tables s.runtime (.guarding slot handle) := hpoint ▸ h.point
      exact Option.some.inj hstep ▸ ⟨h.all, hslot.2⟩
    · cases hstep
  | notGuarded error =>
    simp only [RollingState.step] at hstep
    split at hstep
    · rename_i slot handle hpoint
      obtain rfl : left = none := hfits
      rw [← Option.some.inj hstep]
      simp only [rollingChildren, hpoint, Option.isSome_none, Bool.false_eq_true, if_false]
      exact notGuarded_owned h hpoint
    · cases hstep
  | snapshot instanceId logicalGeneration readiness =>
    have hkept := h.point
    simp only [RollingState.step] at hstep
    split at hstep
    · rename_i slot hpoint
      rw [hpoint] at hkept
      split at hstep
      · cases hstep
      · split at hstep
        · split at hstep
          · split at hstep
            · exact Option.some.inj hstep ▸ ⟨h.all, hkept⟩
            · exact Option.some.inj hstep ▸ ⟨h.all, hkept⟩
          · split at hstep
            · exact Option.some.inj hstep ▸ ⟨h.all, h.point⟩
            · exact Option.some.inj hstep ▸ ⟨h.all, h.point⟩
        · exact Option.some.inj hstep ▸ ⟨h.all, h.point⟩
    · cases hstep
  | unready outcome =>
    simp only [RollingState.step] at hstep
    split at hstep
    · rename_i slot hpoint
      simp only [Fits, hpoint] at hfits
      rw [← Option.some.inj hstep]
      simp only [rollingChildren, hpoint]
      exact unready_owned h hfits
    · cases hstep
  | drain outcome =>
    simp only [RollingState.step] at hstep
    split at hstep
    · rename_i slot hpoint
      rw [← Option.some.inj hstep]
      simp only [rollingChildren, hpoint]
      exact drain_owned h hpoint
    · cases hstep
  | promote =>
    simp only [RollingState.step] at hstep
    split at hstep
    · exact Option.some.inj hstep ▸ promote_owned h ‹_›
    · cases hstep
  | finish =>
    simp only [RollingState.step] at hstep
    split at hstep
    · exact Option.some.inj hstep ▸ ⟨h.all, trivial⟩
    · cases hstep
  | repoFails error =>
    simp only [RollingState.step] at hstep
    split at hstep
    · exact Option.some.inj hstep ▸ ⟨h.all, trivial⟩
    · cases hstep
  | exited id => exact absurd rfl (hexited id)

theorem scale_locked {r : ScaleReplies} {target : U16} {operationId : Uuid}
    (h : s.point.isUnlocked = false) : (s.scaleProcess target operationId r).2 = s := by
  unfold scaleProcess
  rw [h]
  split
  · rfl
  · rfl

theorem start_step_owned {r : StartReplies} (h : s.Owned) (hunlocked : s.point.isUnlocked = true)
    (hfits : s.Fits (.start r)) : (s.startProcess r).2.Owned := by
  obtain ⟨howns, hpoint⟩ := start_owns h.all hfits
  exact ⟨howns, .unlocked (by rw [hpoint]; exact hunlocked)⟩

/-- The restart of a child that has ended, by a new generation. -/
theorem automaticRestart_owned {outcome : SpawnOutcome} (h : s.Owned)
    (hunlocked : s.point.isUnlocked = true) (hnone : s.runtime.runtimeEntry instance_.id = none)
    (hleft : outcome.left = none)
    (hstep : (match s.tables.advanceProcessInstanceGeneration instance_ with
      | (.ok (some next), tables) => some ({ s with tables }.spawnProcessInstance next outcome)
      | (_, tables) => some { s with tables }) = some t) : t.Owned := by
  have hadvanced : Owns (s.tables.advanceProcessInstanceGeneration instance_).2 s.runtime
      s.children := Owns.activeIn h.all fun _ _ hactive => hactive.advance
  split at hstep
  · rename_i next tables hnext
    rw [hnext] at hadvanced
    obtain ⟨hid, hactive⟩ := ProcessTables.advance_isActive hnext
    have hactive' : tables.IsActive next.id := by
      have hkept := @ProcessTables.IsActive.advance _ _ instance_ hactive
      rw [hnext] at hkept
      exact hid ▸ hkept
    have howns : SlotState.OwnsAll { s with tables } := hadvanced
    rw [← Option.some.inj hstep]
    refine ⟨spawn_owns howns hactive' (hid ▸ hnone) hleft, .unlocked ?_⟩
    cases outcome with
    | spawned handle => exact hunlocked
    | notSpawned error left => exact hunlocked
    | notGuarded error left => exact hunlocked
  · rename_i tables _ hnext
    rw [hnext] at hadvanced
    exact Option.some.inj hstep ▸ ⟨hadvanced, .unlocked hunlocked⟩

theorem step_owned {e : SlotEvent} (h : s.Owned) (hfits : s.Fits e) (hstep : s.step e = some t) :
    t.Owned := by
  cases e with
  | start r =>
    simp only [step] at hstep
    split at hstep
    · exact Option.some.inj hstep ▸ start_step_owned h ‹_› hfits
    · cases hstep
  | stop stop =>
    simp only [step] at hstep
    split at hstep
    · obtain ⟨howns, hpoint⟩ := @stop_owns s stop h.all
      exact Option.some.inj hstep ▸ ⟨howns, .unlocked (by rw [hpoint]; assumption)⟩
    · cases hstep
  | scale target operationId r =>
    rw [← Option.some.inj hstep]
    cases hunlocked : s.point.isUnlocked with
    | false => exact (scale_locked hunlocked).symm ▸ h
    | true =>
      obtain ⟨howns, hpoint⟩ := scale_owns h.all hfits
      exact ⟨howns, .unlocked (by rw [hpoint]; exact hunlocked)⟩
  | configure instances r =>
    simp only [step] at hstep
    split at hstep
    · rename_i hunlocked
      rw [← Option.some.inj hstep]
      cases hsaved : s.saveInstances r instances with
      | error error => exact h
      | ok saved =>
        obtain ⟨howns, hpoint, -⟩ := save_owns h.all hsaved
        refine ⟨howns, .unlocked ?_⟩
        change saved.point.isUnlocked = true
        rw [hpoint]
        exact hunlocked
    · cases hstep
  | beginRolling =>
    simp only [step] at hstep
    split at hstep
    · exact Option.some.inj hstep ▸ ⟨h.all, trivial⟩
    · cases hstep
  | rolling e left =>
    by_cases hexited : ∃ id, e = .exited id
    · obtain ⟨id, rfl⟩ := hexited
      cases hstep
    · have hmap : (s.toRollingState.step e).map (fun u =>
          ({ toRollingState := u, children := s.rollingChildren e left } : SlotState)) = some t := by
        cases e with
        | exited id => exact absurd ⟨id, rfl⟩ hexited
        | _ => exact hstep
      obtain ⟨u, hu, rfl⟩ := Option.map_eq_some_iff.mp hmap
      exact rolling_owned h hfits (fun id heq => hexited ⟨id, heq⟩) hu
  | automaticRestart instance_ outcome =>
    simp only [step] at hstep
    split at hstep
    · rename_i hguard
      obtain ⟨hunlocked, hnone⟩ := Bool.and_eq_true_iff.mp hguard
      exact automaticRestart_owned h hunlocked (Option.isNone_iff_eq_none.mp hnone) hfits hstep
    · cases hstep
  | exited handle =>
    rw [← Option.some.inj hstep]
    exact ⟨h.all.fewer List.filter_sublist.subset, h.point⟩
  | reconciled id isUnverified =>
    simp only [step] at hstep
    split at hstep
    · rename_i entry hentry
      split at hstep
      · rename_i hdead
        obtain rfl : isUnverified = false := hfits
        obtain ⟨-, hdead⟩ := hdead
        rcases hdead with hfalse | hdead
        · cases hfalse
        · rw [← Option.some.inj hstep]
          refine ⟨Owns.remove h.all fun child hchild hid => ?_, h.point.remove id⟩
          obtain ⟨entry', hentry', hid', hhandle⟩ := h.all.children child hchild
          -- the child that is not alive is the one of the entry
          have hfind := h.all.unique.find_of_mem hentry'
          rw [hid'.trans hid] at hfind
          have heq : entry' = entry := Option.some.inj (hfind.symm.trans hentry)
          refine hdead (List.any_eq_true.mpr ⟨child, hchild, decide_eq_true ?_⟩)
          rw [← hhandle, heq]
      · cases hstep
    · cases hstep

theorem Started.owned (h : s.Started) : s.Owned := by
  refine ⟨⟨?_, ?_, ?_⟩, .unlocked h.unlocked⟩
  · rw [h.runtime]
    exact List.nodup_nil
  · intro child hchild
    rw [h.children] at hchild
    cases hchild
  · intro entry hentry
    rw [h.runtime] at hentry
    cases hentry

theorem Owned.retiredGone (h : s.Owned) : s.RetiredGone := by
  intro id hretired
  have hnone : s.runtime.runtimeEntry id = none := by
    refine KeyedRows.find_eq_none.mpr fun entry hentry hid => ?_
    obtain ⟨row, hrow, hrowId, hactive⟩ := h.all.entries entry hentry
    cases hactive.symm.trans (hretired row hrow (hrowId.trans hid))
  refine ⟨fun hlive => ?_, hnone⟩
  obtain ⟨child, hchild, hid⟩ := hlive
  exact h.all.noChild hnone child hchild hid

/-- As long as no step leaves a child without its entry, a retired slot has neither. -/
theorem run_retiredGone {start : SlotState} (hstart : start.Started)
    (h : machine.Run Fits start s) : s.RetiredGone := by
  have howned : s.Owned := h.invariant (fun _ _ _ hu hfits hstep => step_owned hu hfits hstep)
    hstart.owned
  exact howned.retiredGone

/-- A process of two instances, of which none runs. -/
def stoppedSlots : SlotState := twoSlots 0

def startReplies : StartReplies where
  spawn id := .spawned ⟨id.val, 200, some 200, some "b", 0⟩

/-- A slot is replaced, a replacement is not spawned and another slot is left. -/
theorem stoppedSlots_retiredGone : ∃ s : SlotState,
    (s.tables.instances.countP fun row => !row.active) = 3 ∧ s.RetiredGone := by
  obtain ⟨s, hrun, hretired⟩ := Machine.exists_run_of_execUnder (M := machine) (C := Fits)
    (s := stoppedSlots) (fun s => (s.tables.instances.countP fun row => !row.active) = 3)
    [.start startReplies, .beginRolling, .rolling (.start 7 0) none, .rolling (.next ⟨20⟩) none,
      .rolling (.spawned ⟨20, 200, some 200, some "b", 0⟩) none, .rolling .guarded none,
      .rolling (.snapshot (some ⟨20⟩) (some 1) .healthy) none, .rolling (.drain .stopped) none,
      .rolling .promote none, .rolling (.next ⟨21⟩) none,
      .rolling (.notSpawned "no such file") none, .rolling .finish none,
      .scale 1 8 spawnReplies] (by decide +kernel)
  exact ⟨s, of_decide_eq_true hretired, run_retiredGone ⟨rfl, rfl, rfl⟩ hrun⟩

/-- The replacement is not ready and cannot be stopped: it is retired all the same. -/
theorem stoppedSlots_notRetiredGone : stoppedSlots.Started ∧
    ∃ s, machine.Reaches stoppedSlots s ∧ ¬s.RetiredGone := by
  let isLeft (s : SlotState) : Bool :=
    (s.tables.instances.all fun row => decide (row.instanceId = ⟨20⟩ → row.active = false)) &&
      (s.runtime.runtimeEntry ⟨20⟩).isSome
  obtain ⟨s, hrun, hleft⟩ := Machine.exists_reaches_of_exec (M := machine)
    (s := stoppedSlots) isLeft
    [.start startReplies, .beginRolling, .rolling (.start 7 0) none, .rolling (.next ⟨20⟩) none,
      .rolling (.spawned ⟨20, 200, some 200, some "b", 0⟩) none, .rolling .guarded none,
      .rolling (.unready (.notSignalled "no such process group")) none] (by decide +kernel)
  obtain ⟨hrows, hentry⟩ := Bool.and_eq_true_iff.mp hleft
  refine ⟨⟨rfl, rfl, rfl⟩, s, hrun, fun hgone => ?_⟩
  have hretired : ∀ row ∈ s.tables.instances, row.instanceId = ⟨20⟩ → row.active = false :=
    fun row hrow => of_decide_eq_true (List.all_eq_true.mp hrows row hrow)
  rw [(hgone ⟨20⟩ hretired).2] at hentry
  cases hentry

end SlotState

end Supervisor
