import Supervisor.SlotOwnership

namespace Supervisor

namespace ProcessTables

variable {s t : ProcessTables} {definitionId : ProcessDefinitionId} {id : ProcessInstanceId}
  {g : ProcessInstanceRow → ProcessInstanceRow} {n : ℕ}

/-- The row of an active slot whose ordinal is below a count -/
def isBelow (definitionId : ProcessDefinitionId) (n : ℕ) (row : ProcessInstanceRow) : Bool :=
  row.definitionId = definitionId && row.active && row.ordinal < n

def rowsBelow (s : ProcessTables) (definitionId : ProcessDefinitionId) (n : ℕ) :
    List ProcessInstanceRow :=
  s.instances.filter (isBelow definitionId n)

theorem mem_rowsBelow {row : ProcessInstanceRow} : row ∈ s.rowsBelow definitionId n ↔
    row ∈ s.activeRows definitionId ∧ row.ordinal < n := by
  rw [rowsBelow, activeRows, List.mem_filter, List.mem_filter, isBelow, Bool.and_eq_true,
    decide_eq_true_eq (p := row.ordinal < n), and_assoc]

/-- An update of an instance whose ordinal is not below the count -/
theorem rowsBelow_map (hrows : t.instances = s.instances.map g)
    (hother : ∀ row, row.instanceId ≠ id → g row = row)
    (hbelow : ∀ row, isBelow definitionId n (g row) = true → isBelow definitionId n row = true)
    (hid : ∀ row ∈ s.rowsBelow definitionId n, row.instanceId ≠ id) :
    t.rowsBelow definitionId n = s.rowsBelow definitionId n := by
  have hfilter : s.instances.filter (isBelow definitionId n ∘ g) =
      s.instances.filter (isBelow definitionId n) := by
    apply List.filter_congr
    intro row hrow
    rw [Function.comp_apply, Bool.eq_iff_iff]
    refine ⟨hbelow row, fun hlow => ?_⟩
    rw [hother row (hid row (List.mem_filter.mpr ⟨hrow, hlow⟩))]
    exact hlow
  rw [rowsBelow, rowsBelow, hrows, List.filter_map, hfilter]
  conv_rhs => rw [← List.map_id (s.instances.filter _)]
  apply List.map_congr_left
  intro row hrow
  exact hother row (hid row hrow)

theorem rowsBelow_retire (hid : ∀ row ∈ s.rowsBelow definitionId n, row.instanceId ≠ id) :
    (s.retireProcessInstance id).rowsBelow definitionId n = s.rowsBelow definitionId n := by
  apply @rowsBelow_map _ _ _ id _ _ rfl
  · intro row hne
    simp [hne]
  · intro row hlow
    split at hlow
    · exact absurd hlow (by simp [isBelow])
    · exact hlow
  · exact hid

theorem rowsBelow_clear {instance_ : ProcessInstance} {handle : ChildHandle}
    (hid : ∀ row ∈ s.rowsBelow definitionId n, row.instanceId ≠ instance_.id) :
    (s.clearProcessInstanceRuntimeHandleIfMatches instance_ handle).2.rowsBelow definitionId n =
      s.rowsBelow definitionId n := by
  unfold clearProcessInstanceRuntimeHandleIfMatches
  cases instance_.generation.toI64 with
  | error error => rfl
  | ok generation =>
    apply @rowsBelow_map _ _ _ instance_.id _ _ rfl
    · intro row hne
      simp [isCurrent, hne]
    · intro row hlow
      split at hlow
      · exact hlow
      · exact hlow
    · exact hid

end ProcessTables

namespace SlotState

/-- The slots of the ordinals below the count -/
def slotRows (s : SlotState) : List ProcessInstanceRow :=
  s.tables.rowsBelow s.spec.definitionId s.spec.instances.val

/-- Every ordinal below the count has a live child, with its entry. -/
def AllStarted (s : SlotState) : Prop :=
  ∀ n < s.spec.instances.val, ∃ row ∈ s.slotRows, row.ordinal = n ∧
    ∃ entry, s.runtime.runtimeEntry row.instanceId = some entry ∧ s.isAlive entry.handle = true

/-- Every ordinal below the count has a slot, and no slot has an entry whose child is dead. -/
def Startable (s : SlotState) : Prop :=
  ∀ n < s.spec.instances.val, ∃ row ∈ s.slotRows, row.ordinal = n ∧
    ∀ entry, s.runtime.runtimeEntry row.instanceId = some entry → s.isAlive entry.handle = true

/-- The process ids of the children are drawn: no two entries have one handle, and a child that is
spawned has a new one. -/
structure DrawnHandles (s : SlotState) (r : StartReplies) : Prop where
  entries : ∀ entry ∈ s.runtime, ∀ entry' ∈ s.runtime, entry.handle = entry'.handle →
    entry.id = entry'.id
  spawned : ∀ id handle, r.spawn id = .spawned handle →
    ∀ entry ∈ s.runtime, entry.handle ≠ handle

variable {s t u : SlotState} {r : StartReplies} {slot : ProcessInstance}
  {slots : List ProcessInstance}

/-- A slot that is started: it has an entry, or a child is spawned for it. -/
theorem startSlot_ok {spawned : Bool} (h : s.startSlot r slot = (.ok spawned, t)) :
    ((s.runtime.runtimeEntry slot.id).isSome = true ∧ t = s) ∨
      s.runtime.runtimeEntry slot.id = none ∧ ∃ handle, r.spawn slot.id = .spawned handle ∧
        t = s.spawnProcessInstance slot (.spawned handle) := by
  unfold startSlot at h
  split at h
  · rename_i hsome
    exact .inl ⟨hsome, (Prod.mk.inj h).2.symm⟩
  · rename_i hnone
    rw [Option.not_isSome_iff_eq_none] at hnone
    cases hspawn : r.spawn slot.id with
    | spawned handle =>
      rw [hspawn] at h
      exact .inr ⟨hnone, handle, rfl, (Prod.mk.inj h).2.symm⟩
    | notSpawned error left =>
      rw [hspawn] at h
      exact absurd (Prod.mk.inj h).1 (by simp)
    | notGuarded error left =>
      rw [hspawn] at h
      exact absurd (Prod.mk.inj h).1 (by simp)

theorem isAlive_iff {handle : ChildHandle} :
    s.isAlive handle = true ↔ ∃ child ∈ s.children, child.handle = handle := by
  simp [isAlive]

/-- What starting the slots makes of a state. -/
structure Starts (r : StartReplies) (slots : List ProcessInstance) (s t : SlotState) : Prop where
  spec : t.spec = s.spec
  rows : t.slotRows = s.slotRows
  other : ∀ k, (∀ slot ∈ slots, slot.id ≠ k) → t.runtime.runtimeEntry k = s.runtime.runtimeEntry k
  /-- An entry stays as it is; a slot without one gets the entry of the child that is spawned. -/
  entry : ∀ slot ∈ slots, slot.ordinal < s.spec.instances →
    (∃ entry, s.runtime.runtimeEntry slot.id = some entry ∧
      t.runtime.runtimeEntry slot.id = some entry) ∨
    s.runtime.runtimeEntry slot.id = none ∧ ∃ handle, r.spawn slot.id = .spawned handle ∧
      t.runtime.runtimeEntry slot.id = some ⟨slot, handle, .running⟩
  /-- Apart from the children of the slots beyond the count -/
  alive : ∀ handle, (∀ slot ∈ slots, s.spec.instances ≤ slot.ordinal →
      ∀ entry, s.runtime.runtimeEntry slot.id = some entry → entry.handle ≠ handle) →
    (t.isAlive handle = true ↔ s.isAlive handle = true ∨
      ∃ slot ∈ slots, slot.ordinal < s.spec.instances ∧
        s.runtime.runtimeEntry slot.id = none ∧ r.spawn slot.id = .spawned handle)

theorem stop_isAlive {entry : RuntimeEntry} {outcome : StopOutcome} {handle : ChildHandle}
    (hne : entry.handle ≠ handle) :
    (s.stopProcessInstance entry outcome).isAlive handle = true ↔ s.isAlive handle = true := by
  rw [isAlive_iff, isAlive_iff]
  unfold stopProcessInstance StopOutcome.remaining
  dsimp only
  split
  · simp only [List.mem_filter, decide_eq_true_eq, and_assoc]
    constructor
    · rintro ⟨child, hchild, -, hhandle⟩
      exact ⟨child, hchild, hhandle⟩
    · rintro ⟨child, hchild, hhandle⟩
      exact ⟨child, hchild, fun heq => hne (heq.symm.trans hhandle), hhandle⟩
  · exact .rfl

/-- A slot beyond the count is retired. -/
theorem retireSurplus_ok (h : s.retireSurplus r slot = (.ok (), t))
    (hbeyond : s.spec.instances ≤ slot.ordinal)
    (hid : ∀ row ∈ s.slotRows, row.instanceId ≠ slot.id) : Starts r [slot] s t := by
  have hstarts {u : SlotState} (hspec : u.spec = s.spec) (hrows : u.slotRows = s.slotRows)
      (hother : ∀ k, k ≠ slot.id → u.runtime.runtimeEntry k = s.runtime.runtimeEntry k)
      (halive : ∀ handle, (∀ entry, s.runtime.runtimeEntry slot.id = some entry →
        entry.handle ≠ handle) → (u.isAlive handle = true ↔ s.isAlive handle = true)) :
      Starts r [slot] s u := by
    refine ⟨hspec, hrows, fun k hk => hother k (Ne.symm (hk slot List.mem_cons_self)), ?_, ?_⟩
    · intro slot' hslot' hlow
      rw [List.mem_singleton.mp hslot'] at hlow
      exact absurd hlow (not_lt.mpr hbeyond)
    · intro handle hhandle
      rw [halive handle (hhandle slot List.mem_cons_self hbeyond), iff_self_or]
      rintro ⟨slot', hslot', hlow, -⟩
      rw [List.mem_singleton.mp hslot'] at hlow
      exact absurd hlow (not_lt.mpr hbeyond)
  unfold retireSurplus at h
  dsimp only at h
  split at h
  · rename_i entry hentry
    have hentryId : entry.id = slot.id := KeyedRows.find_key hentry
    split at h
    · exact absurd (Prod.mk.inj h).1 (by simp)
    · split at h
      · exact absurd (Prod.mk.inj h).1 (by simp)
      · rw [← (Prod.mk.inj h).2]
        apply hstarts
        · rfl
        · exact ProcessTables.rowsBelow_retire hid
        · intro k hk
          exact runtimeEntry_stopInstance (hentryId ▸ hk)
        · exact fun handle hhandle => stop_isAlive (hhandle entry hentry)
  · split at h
    · exact absurd (Prod.mk.inj h).1 (by simp)
    · split at h
      · exact absurd (Prod.mk.inj h).1 (by simp)
      · rw [← (Prod.mk.inj h).2]
        exact hstarts rfl (ProcessTables.rowsBelow_retire hid) (fun _ _ => rfl) fun _ _ => .rfl
    · rename_i handle _
      split at h
      · exact absurd (Prod.mk.inj h).1 (by simp)
      · split at h
        · exact absurd (Prod.mk.inj h).1 (by simp)
        · split at h
          · exact absurd (Prod.mk.inj h).1 (by simp)
          · split at h
            · exact absurd (Prod.mk.inj h).1 (by simp)
            · rename_i cleared tables hclear
              have htables : tables =
                  (s.tables.clearProcessInstanceRuntimeHandleIfMatches slot handle).2 := by
                rw [hclear]
              have hrows : tables.rowsBelow s.spec.definitionId s.spec.instances.val =
                  s.slotRows := by
                rw [htables]
                exact ProcessTables.rowsBelow_clear hid
              split at h
              · exact absurd (Prod.mk.inj h).1 (by simp)
              · rw [← (Prod.mk.inj h).2]
                refine hstarts rfl ?_ (fun _ _ => rfl) fun _ _ => .rfl
                have hretired := @ProcessTables.rowsBelow_retire tables s.spec.definitionId
                  slot.id s.spec.instances.val (hrows ▸ hid)
                exact hretired.trans hrows

theorem Starts.refl : Starts r [] s s where
  spec := rfl
  rows := rfl
  other := fun _ _ => rfl
  entry := fun _ hslot => absurd hslot List.not_mem_nil
  alive := by simp

theorem startSlot_starts {spawned : Bool} (h : s.startSlot r slot = (.ok spawned, t))
    (hlow : slot.ordinal < s.spec.instances) : Starts r [slot] s t := by
  rcases startSlot_ok h with ⟨hsome, rfl⟩ | ⟨hnone, handle, hspawn, rfl⟩
  · obtain ⟨entry, hentry⟩ := Option.isSome_iff_exists.mp hsome
    refine ⟨rfl, rfl, fun _ _ => rfl, ?_, ?_⟩
    · intro slot' hslot' _
      rw [List.mem_singleton.mp hslot']
      exact .inl ⟨entry, hentry, hentry⟩
    · intro handle _
      rw [iff_self_or]
      rintro ⟨slot', hslot', -, hnone, -⟩
      rw [List.mem_singleton.mp hslot', hentry] at hnone
      exact absurd hnone (Option.some_ne_none entry)
  · have hfind (k : ProcessInstanceId) :
        (s.spawnProcessInstance slot (.spawned handle)).runtime.runtimeEntry k =
          if slot.id = k then some ⟨slot, handle, .running⟩ else s.runtime.runtimeEntry k :=
      KeyedRows.find_insert
    refine ⟨rfl, rfl, ?_, ?_, ?_⟩
    · intro k hk
      rw [hfind, if_neg (hk slot List.mem_cons_self)]
    · intro slot' hslot' _
      rw [List.mem_singleton.mp hslot', hfind, if_pos rfl]
      exact .inr ⟨hnone, handle, hspawn, rfl⟩
    · intro handle' _
      have hchildren : (s.spawnProcessInstance slot (.spawned handle)).children =
          s.children ++ [⟨slot.id, handle⟩] := rfl
      rw [isAlive_iff, isAlive_iff, hchildren]
      simp only [List.mem_append, List.mem_singleton, or_and_right, exists_or, exists_eq_left,
        hlow, hnone, hspawn, true_and, SpawnOutcome.spawned.injEq]

/-- One slot after another -/
theorem Starts.cons (hfirst : ∀ slot' ∈ slots, slot'.id ≠ slot.id) (h : Starts r [slot] s t)
    (hrest : Starts r slots t u) : Starts r (slot :: slots) s u := by
  have hkept {slot' : ProcessInstance} (hslot' : slot' ∈ slots) :
      t.runtime.runtimeEntry slot'.id = s.runtime.runtimeEntry slot'.id :=
    h.other slot'.id fun slot'' hslot'' => by
      rw [List.mem_singleton.mp hslot'']
      exact Ne.symm (hfirst slot' hslot')
  refine ⟨hrest.spec.trans h.spec, hrest.rows.trans h.rows, ?_, ?_, ?_⟩
  · intro k hk
    rw [hrest.other k fun slot' hslot' => hk slot' (List.mem_cons_of_mem slot hslot'),
      h.other k fun slot' hslot' => hk slot' (List.mem_singleton.mp hslot' ▸ List.mem_cons_self)]
  · intro slot' hslot' hlow
    rcases List.mem_cons.mp hslot' with rfl | hmem
    · have hsame := hrest.other slot'.id hfirst
      rw [hsame]
      exact h.entry slot' List.mem_cons_self hlow
    · rw [← hkept hmem]
      exact hrest.entry slot' hmem (h.spec ▸ hlow)
  · intro handle hhandle
    have hhead := h.alive handle fun slot' hslot' =>
      hhandle slot' (List.mem_singleton.mp hslot' ▸ List.mem_cons_self)
    have htail := hrest.alive handle fun slot' hslot' hbeyond entry hentry =>
      hhandle slot' (List.mem_cons_of_mem slot hslot') (h.spec ▸ hbeyond) entry
        ((hkept hslot').symm.trans hentry)
    rw [htail, hhead, or_assoc]
    apply or_congr_right
    simp only [List.mem_cons, List.not_mem_nil, or_and_right, exists_or, exists_eq_left,
      or_false]
    apply or_congr_right
    apply exists_congr
    intro slot'
    apply and_congr_right
    intro hslot'
    rw [hkept hslot', h.spec]

theorem startSlots_ok {isStarted started : Bool} (hids : (slots.map ProcessInstance.id).Nodup)
    (hbeyond : ∀ slot ∈ slots, s.spec.instances ≤ slot.ordinal →
      ∀ row ∈ s.slotRows, row.instanceId ≠ slot.id)
    (h : startSlots r slots isStarted s = (.ok started, t)) : Starts r slots s t := by
  induction slots generalizing s isStarted with
  | nil =>
    rw [← (Prod.mk.inj h).2]
    exact .refl
  | cons slot slots ih =>
    obtain ⟨hfirst, hrest⟩ := List.nodup_cons.mp hids
    have hne : ∀ slot' ∈ slots, slot'.id ≠ slot.id := fun slot' hslot' heq =>
      hfirst (List.mem_map.mpr ⟨slot', hslot', heq⟩)
    have hnext {u : SlotState} (hone : Starts r [slot] s u) : ∀ slot' ∈ slots,
        u.spec.instances ≤ slot'.ordinal → ∀ row ∈ u.slotRows, row.instanceId ≠ slot'.id := by
      intro slot' hslot' hordinal row hrow
      rw [hone.spec] at hordinal
      rw [hone.rows] at hrow
      exact hbeyond slot' (List.mem_cons_of_mem slot hslot') hordinal row hrow
    unfold startSlots at h
    split at h
    · rename_i hordinal
      split at h
      · exact absurd (Prod.mk.inj h).1 (by simp)
      · rename_i u hu
        have hone : Starts r [slot] s u :=
          retireSurplus_ok hu hordinal (hbeyond slot List.mem_cons_self hordinal)
        exact hone.cons hne (ih hrest (hnext hone) h)
    · rename_i hordinal
      split at h
      · exact absurd (Prod.mk.inj h).1 (by simp)
      · rename_i spawned u hu
        have hone : Starts r [slot] s u := startSlot_starts hu (not_le.mp hordinal)
        exact hone.cons hne (ih hrest (hnext hone) h)

theorem startProcess_ok (h : s.startProcess r = (.ok (), t)) :
    ∃ slots, s.tables.listProcessInstances s.spec.definitionId = .ok slots ∧
      ∃ started, startSlots r slots false s = (.ok started, t) := by
  unfold startProcess at h
  split at h
  · exact absurd (Prod.mk.inj h).1 (by simp)
  · rename_i slots hlisted
    have hlist : s.tables.listProcessInstances s.spec.definitionId = .ok slots := by
      cases hfails : r.list with
      | some error =>
        rw [hfails] at hlisted
        cases hlisted
      | none =>
        rw [hfails] at hlisted
        exact hlisted
    refine ⟨slots, hlist, ?_⟩
    split at h
    · exact absurd (Prod.mk.inj h).1 (by simp)
    · rename_i u hu
      exact ⟨true, hu.trans (by rw [(Prod.mk.inj h).2])⟩
    · rename_i u hu
      refine ⟨false, hu.trans ?_⟩
      split at h
      · exact absurd (Prod.mk.inj h).1 (by simp)
      · split at h
        · exact absurd (Prod.mk.inj h).1 (by simp)
        · rw [(Prod.mk.inj h).2]

theorem listed_beyond (hlist : s.tables.listProcessInstances s.spec.definitionId = .ok slots)
    (hslot : slot ∈ slots) (hle : s.spec.instances ≤ slot.ordinal) :
    ∀ row ∈ s.slotRows, row.instanceId ≠ slot.id := by
  intro row hrow heq
  obtain ⟨hactive, hlow⟩ := ProcessTables.mem_rowsBelow.mp hrow
  obtain ⟨row', hrow', hok⟩ := (ProcessTables.listProcessInstances_ok hlist).2.1 slot hslot
  obtain ⟨hid, -, hordinal, -⟩ := ProcessTables.instanceOf_ok hok
  have hsame : row = row' := ProcessTables.activeRows_unique.eq_of_key hactive hrow'
    (heq.trans hid.symm)
  rw [hsame, hordinal] at hlow
  exact absurd (Int.ofNat_lt.mp hlow) (not_lt.mpr (Fin.le_def.mp hle))

theorem startProcess_starts (h : s.startProcess r = (.ok (), t)) :
    ∃ slots, s.tables.listProcessInstances s.spec.definitionId = .ok slots ∧
      Starts r slots s t := by
  obtain ⟨slots, hlist, started, hslots⟩ := startProcess_ok h
  have hids := (ProcessTables.listProcessInstances_ok hlist).1
  exact ⟨slots, hlist, startSlots_ok hids (fun slot hslot => listed_beyond hlist hslot) hslots⟩

/-- What a start that succeeds makes of a slot below the count -/
theorem startProcess_entry (hd : s.DrawnHandles r) (h : s.startProcess r = (.ok (), t))
    {row : ProcessInstanceRow} (hrow : row ∈ s.slotRows) :
    (∃ entry, s.runtime.runtimeEntry row.instanceId = some entry ∧
      t.runtime.runtimeEntry row.instanceId = some entry ∧
        (t.isAlive entry.handle = true ↔ s.isAlive entry.handle = true)) ∨
    s.runtime.runtimeEntry row.instanceId = none ∧
      ∃ entry, t.runtime.runtimeEntry row.instanceId = some entry ∧
        t.isAlive entry.handle = true := by
  obtain ⟨slots, hlist, hstarts⟩ := startProcess_starts h
  obtain ⟨hactive, hlow⟩ := ProcessTables.mem_rowsBelow.mp hrow
  obtain ⟨slot, hslot, hok⟩ := (ProcessTables.listProcessInstances_ok hlist).2.2 row hactive
  obtain ⟨hrowId, -, hrowOrdinal, -⟩ := ProcessTables.instanceOf_ok hok
  have hordinal : slot.ordinal < s.spec.instances := by
    rw [hrowOrdinal] at hlow
    exact Fin.lt_def.mpr (Int.ofNat_lt.mp hlow)
  have hmem {id : ProcessInstanceId} {entry : RuntimeEntry}
      (hentry : s.runtime.runtimeEntry id = some entry) : entry ∈ s.runtime ∧ entry.id = id :=
    ⟨KeyedRows.find_mem hentry, KeyedRows.find_key hentry⟩
  rw [hrowId]
  rcases hstarts.entry slot hslot hordinal with ⟨entry, hentry, hentry'⟩ |
    ⟨hnone, handle, hspawn, hentry'⟩
  · refine .inl ⟨entry, hentry, hentry', ?_⟩
    rw [hstarts.alive entry.handle]
    · -- no child is spawned with the handle
      rw [or_iff_left_iff_imp]
      rintro ⟨slot', -, -, -, hspawn⟩
      exact absurd rfl (hd.spawned slot'.id entry.handle hspawn entry (hmem hentry).1)
    · -- no slot beyond the count has the handle
      intro slot' hslot' hle entry' hentry'' heq
      have hid := hd.entries entry' (hmem hentry'').1 entry (hmem hentry).1 heq
      rw [(hmem hentry'').2, (hmem hentry).2] at hid
      exact listed_beyond hlist hslot' hle row hrow (hrowId.trans hid.symm)
  · refine .inr ⟨hnone, ⟨slot, handle, .running⟩, hentry', ?_⟩
    apply (hstarts.alive handle ?_).mpr
    · exact .inr ⟨slot, hslot, hordinal, hnone, hspawn⟩
    · intro slot' _ _ entry hentry
      exact hd.spawned slot.id handle hspawn entry (hmem hentry).1

/-- A start that succeeds has started every ordinal exactly when no entry is stale. -/
theorem allStarted_iff (hd : s.DrawnHandles r) (h : s.startProcess r = (.ok (), t)) :
    t.AllStarted ↔ s.Startable := by
  obtain ⟨slots, -, hstarts⟩ := startProcess_starts h
  unfold AllStarted Startable
  rw [hstarts.spec, hstarts.rows]
  apply forall₂_congr
  intro n _
  apply exists_congr
  intro row
  apply and_congr_right
  intro hrow
  apply and_congr_right
  intro _
  rcases startProcess_entry hd h hrow with ⟨entry, hold, hnew, halive⟩ | ⟨hnone, entry, hnew, halive⟩
  · rw [hold, hnew]
    simp [halive]
  · rw [hnone, hnew]
    simp [halive]

section Runs

/-- The first slot runs, and the child of the second one is started. -/
theorem oneSlot_allStarted : ∃ t, (twoSlots 1).startProcess startReplies = (.ok (), t) ∧
    (t.AllStarted ↔ (twoSlots 1).Startable) ∧ t.children.length = 2 := by
  have hd : (twoSlots 1).DrawnHandles startReplies := by
    refine ⟨by decide +kernel, ?_⟩
    intro id handle hspawn entry hentry heq
    have hgeneration : ∀ entry ∈ (twoSlots 1).runtime, entry.handle.generation ≠ some "b" := by
      decide +kernel
    apply hgeneration entry hentry
    rw [heq, ← SpawnOutcome.spawned.inj hspawn]
  exact ⟨_, rfl, allStarted_iff hd rfl, by decide +kernel⟩

/-- The child of the first slot has died, and its entry is still there: the start of the second one
is reported as the start of the process. -/
def staleSlot : SlotState := { twoSlots 1 with children := [] }

theorem staleSlot_notAllStarted : ∃ t, staleSlot.startProcess startReplies = (.ok (), t) ∧
    ¬ t.AllStarted := by
  refine ⟨(staleSlot.startProcess startReplies).2, rfl, fun hall => ?_⟩
  obtain ⟨row, hrow, hordinal, entry, hentry, halive⟩ := hall 0 (by decide +kernel)
  have hdead : ∀ row ∈ (staleSlot.startProcess startReplies).2.slotRows, row.ordinal = 0 →
      ((staleSlot.startProcess startReplies).2.runtime.runtimeEntry row.instanceId).all
        (fun entry => !(staleSlot.startProcess startReplies).2.isAlive entry.handle) = true := by
    decide +kernel
  have hfalse := hdead row hrow hordinal
  rw [hentry, Option.all_some, halive] at hfalse
  exact Bool.noConfusion hfalse

end Runs

end SlotState

end Supervisor
