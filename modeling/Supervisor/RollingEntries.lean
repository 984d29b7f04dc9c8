import Supervisor.RollingMoves

namespace Supervisor

open KeyedRows (Unique)

namespace RollingState

/-- The entries of neither instance of a slot. -/
def others (runtime : Runtime) (slot : ReplacedSlot) : Runtime :=
  (runtime.filter fun entry => entry.id ≠ slot.old.id).filter fun entry =>
    entry.id ≠ slot.replacement.id

/-- The entries besides those of a slot, for a process of `n` instances. -/
structure SlotEntries (n : ℕ) (runtime : Runtime) (hasFailed : Bool) (slot : ReplacedSlot) :
    Prop where
  distinct : slot.old.id ≠ slot.replacement.id
  atMost : (others runtime slot).length + 1 ≤ n
  atLeast : hasFailed = false → n ≤ (others runtime slot).length + 1

/-- The old entry is the one that the loop has read. -/
structure OldEntry (runtime : Runtime) (hasFailed : Bool) (slot : ReplacedSlot) : Prop where
  id : slot.oldEntry.id = slot.old.id
  unchanged : ∀ entry, runtime.runtimeEntry slot.old.id = some entry → entry = slot.oldEntry
  present : hasFailed = false → (runtime.runtimeEntry slot.old.id).isSome

/-- What there is to the entries at each point. After a failure entries may be missing. -/
def EntriesAt (n : ℕ) (runtime : Runtime) (hasFailed : Bool) : RollingPoint → Prop
  | .start | .next _ => runtime.length ≤ n ∧ (hasFailed = false → n ≤ runtime.length)
  | .spawning slot => SlotEntries n runtime hasFailed slot ∧ OldEntry runtime hasFailed slot ∧
      runtime.runtimeEntry slot.replacement.id = none
  | .guarding slot _ | .waiting slot | .draining slot =>
      SlotEntries n runtime hasFailed slot ∧ OldEntry runtime hasFailed slot ∧
      (hasFailed = false → (runtime.runtimeEntry slot.replacement.id).isSome)
  | .promoting slot => SlotEntries n runtime hasFailed slot ∧
      runtime.runtimeEntry slot.old.id = none ∧
      (hasFailed = false → (runtime.runtimeEntry slot.replacement.id).isSome)
  | .finishing | .replayed | .returned _ =>
      runtime.length ≤ n + 1 ∧ (hasFailed = false → n ≤ runtime.length)

structure Entries (n : ℕ) (s : RollingState) : Prop where
  unique : Unique RuntimeEntry.id s.runtime
  here : EntriesAt n s.runtime s.hasFailed s.point

section Lengths

variable {n : ℕ} {runtime : Runtime} {hasFailed : Bool} {slot : ReplacedSlot}

/-- The entries are those of the slot and the others. -/
theorem length_others (hu : Unique RuntimeEntry.id runtime)
    (hd : slot.old.id ≠ slot.replacement.id) :
    (others runtime slot).length + (if (runtime.runtimeEntry slot.replacement.id).isSome then 1 else 0) +
      (if (runtime.runtimeEntry slot.old.id).isSome then 1 else 0) = runtime.length := by
  have hold := hu.length_filter_ne slot.old.id
  have hnew := (hu.filter fun entry => entry.id ≠ slot.old.id).length_filter_ne slot.replacement.id
  have hfind : KeyedRows.find RuntimeEntry.id slot.replacement.id
      (runtime.filter fun entry => entry.id ≠ slot.old.id) =
      KeyedRows.find RuntimeEntry.id slot.replacement.id runtime := by
    rw [KeyedRows.find_filter_key fun id => id ≠ slot.old.id]
    simp [hd.symm]
  rw [hfind] at hnew
  change _ = _ at hold
  unfold others Runtime.runtimeEntry
  omega

theorem EntriesAt.bounds (hu : Unique RuntimeEntry.id runtime) {point : RollingPoint}
    (h : EntriesAt n runtime hasFailed point) :
    runtime.length ≤ n + 1 ∧ (hasFailed = false → n ≤ runtime.length) := by
  cases point with
  | start | next rest => exact ⟨h.1.trans (Nat.le_succ n), h.2⟩
  | finishing | replayed | returned result => exact h
  | spawning slot =>
    obtain ⟨hslot, hold, hnew⟩ := h
    have hlength := length_others hu hslot.distinct
    have hmost := hslot.atMost
    rw [hnew, Option.isSome_none, if_neg Bool.false_ne_true] at hlength
    constructor
    · split at hlength <;> omega
    · intro hf
      have hleast := hslot.atLeast hf
      rw [if_pos (hold.present hf)] at hlength
      omega
  | guarding slot handle | waiting slot | draining slot =>
    obtain ⟨hslot, hold, hnew⟩ := h
    have hlength := length_others hu hslot.distinct
    have hmost := hslot.atMost
    constructor
    · split at hlength <;> split at hlength <;> omega
    · intro hf
      have hleast := hslot.atLeast hf
      rw [if_pos (hold.present hf), if_pos (hnew hf)] at hlength
      omega
  | promoting slot =>
    obtain ⟨hslot, hold, hnew⟩ := h
    have hlength := length_others hu hslot.distinct
    have hmost := hslot.atMost
    rw [hold, Option.isSome_none, if_neg Bool.false_ne_true] at hlength
    constructor
    · split at hlength <;> omega
    · intro hf
      have hleast := hslot.atLeast hf
      rw [if_pos (hnew hf)] at hlength
      omega

theorem runtimeEntry_filter (id k : ProcessInstanceId) :
    Runtime.runtimeEntry (runtime.filter fun entry => entry.id ≠ id) k =
      if k ≠ id then runtime.runtimeEntry k else none := by
  unfold Runtime.runtimeEntry
  rw [KeyedRows.find_filter_key fun k => decide (k ≠ id)]
  simp only [decide_eq_true_eq]

/-- An instance that exits takes its entry along. -/
theorem EntriesAt.exit {point : RollingPoint} (id : ProcessInstanceId)
    (h : EntriesAt n runtime hasFailed point) :
    EntriesAt n (runtime.filter fun entry => entry.id ≠ id) true point := by
  have hlength := List.length_filter_le (fun entry : RuntimeEntry => decide (entry.id ≠ id)) runtime
  have hslot {slot : ReplacedSlot} (h : SlotEntries n runtime hasFailed slot) :
      SlotEntries n (runtime.filter fun entry => entry.id ≠ id) true slot := by
    refine ⟨h.distinct, ?_, fun hf => by cases hf⟩
    have hle : (others (runtime.filter fun entry => entry.id ≠ id) slot).length ≤
        (others runtime slot).length :=
      ((List.filter_sublist.filter _).filter _).length_le
    exact (Nat.succ_le_succ hle).trans h.atMost
  have hold {slot : ReplacedSlot} (h : OldEntry runtime hasFailed slot) :
      OldEntry (runtime.filter fun entry => entry.id ≠ id) true slot := by
    refine ⟨h.id, fun entry hentry => ?_, fun hf => by cases hf⟩
    rw [runtimeEntry_filter] at hentry
    split at hentry
    · exact h.unchanged entry hentry
    · cases hentry
  have hnone {k : ProcessInstanceId} (h : runtime.runtimeEntry k = none) : Runtime.runtimeEntry
      (runtime.filter fun entry => entry.id ≠ id) k = none := by
    rw [runtimeEntry_filter, h, ite_self]
  cases point with
  | start | next rest => exact ⟨hlength.trans h.1, fun hf => by cases hf⟩
  | spawning slot => exact ⟨hslot h.1, hold h.2.1, hnone h.2.2⟩
  | guarding slot handle | waiting slot | draining slot =>
    exact ⟨hslot h.1, hold h.2.1, fun hf => by cases hf⟩
  | promoting slot => exact ⟨hslot h.1, hnone h.2.1, fun hf => by cases hf⟩
  | finishing | replayed | returned result => exact ⟨hlength.trans h.1, fun hf => by cases hf⟩

/-- The entries of a slot when its replacement is allocated. -/
theorem SlotEntries.allocated {old replacement : ProcessInstance} {oldEntry : RuntimeEntry}
    {rest : List ProcessInstance} (hu : Unique RuntimeEntry.id runtime)
    (hold : runtime.runtimeEntry old.id = some oldEntry)
    (hnew : runtime.runtimeEntry replacement.id = none)
    (h : runtime.length ≤ n ∧ (hasFailed = false → n ≤ runtime.length)) :
    EntriesAt n runtime hasFailed (.spawning { old, oldEntry, replacement, rest }) := by
  have hdistinct : old.id ≠ replacement.id := by
    intro heq
    rw [heq, hnew] at hold
    cases hold
  have hlength := @length_others _ ({ old, oldEntry, replacement, rest }) hu hdistinct
  simp only [hnew, hold, Option.isSome_none, Option.isSome_some, Bool.false_eq_true, if_false,
    if_true] at hlength
  refine ⟨⟨hdistinct, by omega, fun hf => ?_⟩, ⟨KeyedRows.find_key hold, ?_, fun _ => ?_⟩, hnew⟩
  · have hleast := h.2 hf
    omega
  · intro entry hentry
    exact Option.some.inj (hentry.symm.trans hold)
  · rw [hold, Option.isSome_some]

theorem SlotEntries.spawned {handle : ChildHandle}
    (h : EntriesAt n runtime hasFailed (.spawning slot)) :
    EntriesAt n (runtime.insertRuntimeEntry ⟨slot.replacement, handle, .running⟩) hasFailed
      (.guarding slot handle) := by
  obtain ⟨hslot, hold, hnew⟩ := h
  let entry : RuntimeEntry := ⟨slot.replacement, handle, .running⟩
  have hinsert : runtime.insertRuntimeEntry entry = runtime ++ [entry] := by
    have hall : runtime.filter (fun r => r.id ≠ entry.id) = runtime := by
      rw [List.filter_eq_self]
      intro r hr
      exact decide_eq_true (KeyedRows.find_eq_none.mp hnew r hr)
    change runtime.filter _ ++ [entry] = _
    rw [hall]
  have hothers : others (runtime.insertRuntimeEntry entry) slot = others runtime slot := by
    rw [hinsert]
    unfold others
    rw [List.filter_append, List.filter_append]
    simp [entry, RuntimeEntry.id, hslot.distinct.symm]
  have hfind (k : ProcessInstanceId) : (runtime.insertRuntimeEntry entry).runtimeEntry k =
      if slot.replacement.id = k then some entry else runtime.runtimeEntry k :=
    KeyedRows.find_insert
  refine ⟨⟨hslot.distinct, ?_, ?_⟩, ⟨hold.id, ?_, ?_⟩, ?_⟩
  · rw [hothers]
    exact hslot.atMost
  · rw [hothers]
    exact hslot.atLeast
  · intro e he
    rw [hfind, if_neg hslot.distinct.symm] at he
    exact hold.unchanged e he
  · intro hf
    rw [hfind, if_neg hslot.distinct.symm]
    exact hold.present hf
  · intro _
    rw [hfind, if_pos rfl, Option.isSome_some]

/-- Stopping the old instance leaves the other entries. -/
theorem stopInstance_stopped (hu : Unique RuntimeEntry.id runtime)
    (hold : OldEntry runtime hasFailed slot) :
    stopInstance runtime slot.oldEntry .stopped =
      runtime.filter fun entry => entry.id ≠ slot.old.id := by
  unfold stopInstance Runtime.setRuntimeState Runtime.removeRuntimeEntryIfMatches KeyedRows.update
  rw [List.filter_map, hold.id]
  have hsame : runtime.filter ((fun entry => !Runtime.matchesChild slot.oldEntry.instance_
      slot.oldEntry.handle entry) ∘ fun entry =>
        if entry.id = slot.old.id then { entry with state := .stopping } else entry) =
      runtime.filter fun entry => entry.id ≠ slot.old.id := by
    apply List.filter_congr
    intro entry hentry
    rw [Function.comp_apply]
    by_cases hk : entry.id = slot.old.id
    · have heq := hold.unchanged entry (hk ▸ hu.find_of_mem hentry)
      have hid : slot.oldEntry.instance_.id = slot.old.id := hold.id
      rw [if_pos hk]
      simp [heq, hid, Runtime.matchesChild, RuntimeEntry.id]
    · have hother : Runtime.matchesChild slot.oldEntry.instance_ slot.oldEntry.handle entry =
          false := by
        have hne : entry.id ≠ slot.oldEntry.instance_.id := fun h => hk (h.trans hold.id)
        simp [Runtime.matchesChild, hne]
      simp [hk, hother]
  rw [hsame]
  conv_rhs => rw [← List.map_id (runtime.filter fun entry => entry.id ≠ slot.old.id)]
  apply List.map_congr_left
  intro entry hentry
  have hne : entry.id ≠ slot.old.id := of_decide_eq_true (List.mem_filter.mp hentry).2
  rw [if_neg hne, id]

theorem SlotEntries.drained (hu : Unique RuntimeEntry.id runtime)
    (h : EntriesAt n runtime hasFailed (.draining slot)) :
    EntriesAt n (stopInstance runtime slot.oldEntry .stopped) hasFailed (.promoting slot) := by
  obtain ⟨hslot, hold, hnew⟩ := h
  have hothers : others (runtime.filter fun entry => entry.id ≠ slot.old.id) slot =
      others runtime slot := by
    unfold others
    rw [List.filter_filter (l := runtime)]
    simp only [Bool.and_self]
  rw [stopInstance_stopped hu hold]
  refine ⟨⟨hslot.distinct, ?_, ?_⟩, ?_, ?_⟩
  · rw [hothers]
    exact hslot.atMost
  · rw [hothers]
    exact hslot.atLeast
  · rw [runtimeEntry_filter, if_neg (not_not_intro rfl)]
  · intro hf
    rw [runtimeEntry_filter, if_pos hslot.distinct.symm]
    exact hnew hf

theorem promoteRuntimeInstance_ids {promoted : ProcessInstance}
    (hid : promoted.id = slot.replacement.id) :
    (runtime.promoteRuntimeInstance slot.replacement.id promoted).map RuntimeEntry.id =
      runtime.map RuntimeEntry.id :=
  KeyedRows.map_key_update fun _ _ => hid

theorem SlotEntries.promoted {rest : List ProcessInstance} {promoted : ProcessInstance}
    (hu : Unique RuntimeEntry.id runtime) (hid : promoted.id = slot.replacement.id)
    (h : EntriesAt n runtime hasFailed (.promoting slot)) :
    EntriesAt n (runtime.promoteRuntimeInstance slot.replacement.id promoted) hasFailed
      (.next rest) := by
  have hlength : (runtime.promoteRuntimeInstance slot.replacement.id promoted).length =
      runtime.length := by
    rw [← @List.length_map _ _ runtime RuntimeEntry.id, ← promoteRuntimeInstance_ids hid,
      List.length_map]
  have hbounds := h.bounds hu
  obtain ⟨hslot, hold, hnew⟩ := h
  have hcount := length_others hu hslot.distinct
  have hmost := hslot.atMost
  rw [hold, Option.isSome_none, if_neg Bool.false_ne_true] at hcount
  unfold EntriesAt
  rw [hlength]
  refine ⟨?_, hbounds.2⟩
  split at hcount <;> omega

end Lengths

/-- What one step keeps of the entries. -/
theorem Entries.move {n : ℕ} {s t : RollingState} (h : s.Entries n) (hmove : s.Move t) :
    t.Entries n := by
  have hu := h.unique
  have hhere := h.here
  have hat {point : RollingPoint} (h : s.point = point) :
      EntriesAt n s.runtime s.hasFailed point := h ▸ hhere
  have hfails {s' t : RollingState} (hs : s'.runtime = s.runtime) (hf : s'.Fails t) :
      t.Entries n := by
    have hlength : t.runtime.length ≤ n + 1 := (hs ▸ hf.length).trans (hhere.bounds hu).1
    have hfailed : t.hasFailed = false → n ≤ t.runtime.length := by
      rw [hf.hasFailed]
      exact fun h => by cases h
    refine ⟨hf.unique (hs ▸ hu), ?_⟩
    rcases hf.point with ⟨hpoint, -⟩ | ⟨error, hpoint⟩
    · rw [hpoint]
      exact ⟨hlength, hfailed⟩
    · rw [hpoint]
      exact ⟨hlength, hfailed⟩
  cases hmove with
  | failed hf => exact hfails rfl hf
  | drainFailed hpoint hf => exact @hfails (s.markDrained _) _ rfl hf
  | started hpoint hslots =>
    have here := hat hpoint
    exact ⟨hu, here⟩
  | replayed hpoint | ended hpoint =>
    have here := (hat hpoint).bounds hu
    exact ⟨hu, here⟩
  | guarded hpoint | ready hpoint | finished hpoint =>
    have here := hat hpoint
    exact ⟨hu, here⟩
  | reported hpoint hkept => exact ⟨hu, hhere⟩
  | allocated hpoint hold hnew => exact ⟨hu, SlotEntries.allocated hu hold hnew (hat hpoint)⟩
  | spawned hpoint => exact ⟨hu.insert, SlotEntries.spawned (hat hpoint)⟩
  | @drained slot hpoint =>
    have hstopped := @stopInstance_unique _ slot.oldEntry .stopped hu
    exact ⟨hstopped, SlotEntries.drained hu (hat hpoint)⟩
  | promoted hpoint hpromoted =>
    have hid := (ProcessTables.promoteProcessInstance_some hpromoted).1
    have hids := @promoteRuntimeInstance_ids s.runtime _ _ hid
    refine ⟨?_, SlotEntries.promoted hu hid (hat hpoint)⟩
    rw [KeyedRows.Unique, hids]
    exact hu
  | exited id => exact ⟨hu.filter _, hhere.exit id⟩

end RollingState

end Supervisor
