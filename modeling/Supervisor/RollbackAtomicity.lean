import Supervisor.UpgradeRollback

namespace Supervisor

namespace Rollback

open Function (update)

namespace RollbackState

variable {s t : RollbackState} {name : LiveDirectory} {rest : List LiveDirectory}
  {live : LiveDirectory → Option Tree}

/-- All directories are as before the call, or all are the backed-up ones. -/
def Whole (s : RollbackState) (live : LiveDirectory → Option Tree) : Prop :=
  live = s.before ∨ live = s.target

/-- The trees of a call: what is there before it, and a backup that has been verified. -/
structure Trees (s : RollbackState) : Prop where
  before : ∀ name, (s.before name).isSome = true
  target : ∀ name, (s.target name).isSome = true

/-- Every tree that is copied has an entry for itself at least. -/
def Verified (s : RollbackState) : Prop := ∀ name, (s.target name).any isDir = true

/-- What holds at each point of a call. -/
def PointOk (s : RollbackState) : RollbackPoint → Prop
  | .idle | .down | .commit => s.Whole s.live
  | .called => s.live = s.before
  | .clearStaged _ _ | .removePrevious _ _ => s.Whole s.live ∧ s.Verified
  | .copying name _ copied todo => s.Whole s.live ∧ s.Verified ∧
      s.target name = some (copied ++ todo) ∧ (todo = [] → s.staged name = some copied)
  | .clearPrevious name _ | .renameAway name _ => s.Whole s.live ∧ s.Verified ∧
      s.staged name = s.target name
  | .replace name _ => s.Whole (update s.live name (s.previous name)) ∧ s.Verified ∧
      s.staged name = s.target name
  | .restore name => s.Whole (update s.live name (s.previous name))

structure Sound (s : RollbackState) : Prop where
  trees : s.Trees
  point : s.PointOk s.point
  kept : s.lost = false

theorem mem_liveDirectories (name : LiveDirectory) : name ∈ liveDirectories := by
  cases name <;> decide

theorem Trees.isSome_of_whole (h : s.Trees) (hwhole : s.Whole live) (name : LiveDirectory) :
    (live name).isSome = true := by
  rcases hwhole with hbefore | htarget
  · rw [hbefore]
    exact h.before name
  · rw [htarget]
    exact h.target name

theorem Sound.whole_of_idle (h : s.Sound) (hpoint : s.point = .idle) : s.Whole s.live := by
  have hok := h.point
  rwa [hpoint] at hok

theorem Sound.whole_of_down (h : s.Sound) (hpoint : s.point = .down) : s.Whole s.live := by
  have hok := h.point
  rwa [hpoint] at hok

theorem Sound.allOrNothing (h : s.Sound) : s.AllOrNothing where
  settled := h.whole_of_idle
  present hidle := h.trees.isSome_of_whole (h.whole_of_idle hidle)
  kept := h.kept

theorem snapshot_verified {journal : UpgradeJournal} {backup : Backup}
    (h : s.snapshot = some (journal, backup)) : ∀ name, (backup.trees name).any isDir = true := by
  obtain ⟨found, -, hfound⟩ := Option.bind_eq_some_iff.mp h
  obtain ⟨path, -, hpath⟩ := Option.bind_eq_some_iff.mp hfound
  obtain ⟨entry, hentry, heq⟩ := Option.map_eq_some_iff.mp hpath
  obtain ⟨-, rfl⟩ := Prod.mk.inj heq
  have hverified := List.find?_some hentry
  rw [decide_eq_true_eq] at hverified
  have hall : liveDirectories.all (fun name => (entry.2.trees name).any isDir) = true :=
    (Bool.and_eq_true_iff.mp hverified.2).2
  exact fun name => List.all_eq_true.mp hall name (mem_liveDirectories name)

theorem isSome_of_any {tree : Option Tree} (h : tree.any isDir = true) : tree.isSome = true := by
  obtain ⟨found, rfl, -⟩ := (Option.any_eq_true _ _).mp h
  rfl

/-- While the directories are whole nothing that is deleted is still needed. -/
theorem removeFromPrevious_lost (h : s.Sound) (hwhole : s.Whole s.live) (index : ℕ) :
    (s.removeFromPrevious name index).lost = false := by
  have hneeded : (s.previous name = s.before name && s.live name ≠ s.before name &&
      !s.isPlaced) = false := by
    rcases hwhole with hbefore | htarget
    · simp [hbefore]
    · have hplaced : s.isPlaced = true := by
        unfold isPlaced
        rw [htarget]
        simp
      simp [hplaced]
  change (s.lost || _) = false
  rw [h.kept, hneeded]
  rfl

theorem Sound.remove (h : s.Sound) (hwhole : s.Whole s.live) (index : ℕ)
    (hpoint : (s.removeFromPrevious name index).PointOk s.point) :
    (s.removeFromPrevious name index).Sound :=
  ⟨⟨h.trees.before, h.trees.target⟩, hpoint, removeFromPrevious_lost h hwhole index⟩

theorem Whole.replace (h : s.Whole (update s.live name (s.previous name)))
    (hmay : s.previous name = s.target name ∨ ∀ other, other ≠ name → s.live other = s.target other) :
    s.Whole (update s.live name (s.target name)) := by
  rcases hmay with hsame | hothers
  · rwa [hsame] at h
  · right
    funext other
    by_cases hother : other = name
    · rw [hother, Function.update_self]
    · rw [Function.update_of_ne hother, hothers other hother]

/-- The next operation of a call. -/
theorem Sound.next (h : s.Sound) (hmay : s.mayReplace = true) (hstep : s.next = some t) :
    t.Sound := by
  obtain ⟨htrees, hok, hkept⟩ := h
  -- the trees stay the same until the next call
  have hsame (t : RollbackState) (hbefore : t.before = s.before) (htarget : t.target = s.target) :
      t.Trees := by
    refine ⟨?_, ?_⟩
    · rw [hbefore]
      exact htrees.before
    · rw [htarget]
      exact htrees.target
  cases hpoint : s.point with
  | idle | down =>
    simp only [RollbackState.next, hpoint] at hstep
    cases hstep
  | called =>
    simp only [RollbackState.next, hpoint] at hstep
    rw [hpoint] at hok
    cases hsnapshot : s.snapshot with
    | none =>
      rw [hsnapshot] at hstep
      cases hstep
      exact ⟨hsame _ rfl rfl, .inl hok, hkept⟩
    | some found =>
      obtain ⟨journal, backup⟩ := found
      have hverified := snapshot_verified hsnapshot
      rw [hsnapshot] at hstep
      cases hstep
      exact ⟨⟨htrees.before, fun name => isSome_of_any (hverified name)⟩, ⟨.inl hok, hverified⟩,
        hkept⟩
  | clearStaged name rest =>
    simp only [RollbackState.next, hpoint] at hstep
    rw [hpoint] at hok
    obtain ⟨hwhole, hverified⟩ := hok
    split at hstep
    · cases hstep
      obtain ⟨tree, htree, hdir⟩ := (Option.any_eq_true _ _).mp (hverified name)
      refine ⟨hsame _ rfl rfl, ⟨hwhole, hverified, ?_, fun hnil => ?_⟩, hkept⟩
      · change s.target name = some ([] ++ (s.target name).getD [])
        rw [htree]
        rfl
      · rw [htree] at hnil
        change tree = [] at hnil
        rw [hnil] at hdir
        cases hdir
    · cases hstep
  | copying name rest copied todo =>
    rw [hpoint] at hok
    obtain ⟨hwhole, hverified, htree, hstaged⟩ := hok
    cases todo with
    | nil =>
      simp only [RollbackState.next, hpoint] at hstep
      cases hstep
      refine ⟨hsame _ rfl rfl, ⟨hwhole, hverified, ?_⟩, hkept⟩
      rw [List.append_nil] at htree
      exact (hstaged rfl).trans htree.symm
    | cons entry todo =>
      obtain ⟨path, entry⟩ := entry
      simp only [RollbackState.next, hpoint] at hstep
      split at hstep
      · cases hstep
        refine ⟨hsame _ rfl rfl, ⟨hwhole, hverified, ?_, fun _ => ?_⟩, hkept⟩
        · change s.target name = some ((copied ++ [(path, entry)]) ++ todo)
          rw [htree, List.append_assoc]
          rfl
        · exact Function.update_self ..
      · cases hstep
        exact ⟨hsame _ rfl rfl, hwhole, hkept⟩
  | clearPrevious name rest =>
    simp only [RollbackState.next, hpoint] at hstep
    rw [hpoint] at hok
    split at hstep
    · cases hstep
      exact ⟨hsame _ rfl rfl, hok, hkept⟩
    · cases hstep
  | renameAway name rest =>
    simp only [RollbackState.next, hpoint] at hstep
    rw [hpoint] at hok
    obtain ⟨hwhole, hverified, hstaged⟩ := hok
    split at hstep
    · rename_i tree htree
      cases hstep
      refine ⟨hsame _ rfl rfl, ⟨?_, hverified, hstaged⟩, hkept⟩
      have hback : update (update s.live name none) name
          (update s.previous name (some tree) name) = s.live := by
        rw [Function.update_idem, Function.update_self, ← htree, Function.update_eq_self]
      exact hback.symm ▸ hwhole
    · cases hstep
      exact ⟨hsame _ rfl rfl, hwhole, hkept⟩
  | replace name rest =>
    simp only [RollbackState.next, hpoint] at hstep
    rw [hpoint] at hok
    obtain ⟨hwhole, hverified, hstaged⟩ := hok
    have hmay' : s.previous name = s.target name ∨
        ∀ other, other ≠ name → s.live other = s.target other := by
      simp only [mayReplace, hpoint, Bool.or_eq_true, decide_eq_true_eq, List.all_eq_true] at hmay
      exact hmay.imp id fun hall other hother =>
        (hall other (mem_liveDirectories other)).resolve_left hother
    split at hstep
    · rename_i tree htree
      cases hstep
      have htarget : some tree = s.target name := htree.symm.trans hstaged
      refine ⟨hsame _ rfl rfl, ⟨?_, hverified⟩, hkept⟩
      change s.Whole (update s.live name (some tree))
      rw [htarget]
      exact hwhole.replace hmay'
    · cases hstep
      exact ⟨hsame _ rfl rfl, hwhole, hkept⟩
  | restore name =>
    simp only [RollbackState.next, hpoint] at hstep
    rw [hpoint] at hok
    cases hstep
    exact ⟨hsame _ rfl rfl, hok, hkept⟩
  | removePrevious name rest =>
    simp only [RollbackState.next, hpoint] at hstep
    rw [hpoint] at hok
    split at hstep
    · split at hstep
      · cases hstep
        exact ⟨hsame _ rfl rfl, hok.1, hkept⟩
      · cases hstep
        exact ⟨hsame _ rfl rfl, hok, hkept⟩
    · cases hstep
  | commit =>
    simp only [RollbackState.next, hpoint] at hstep
    rw [hpoint] at hok
    cases hstep
    exact ⟨hsame _ rfl rfl, hok, hkept⟩

theorem Trees.of_live (hbefore : s.before = s.live) (htarget : s.target = s.live)
    (hpresent : ∀ name, (s.live name).isSome = true) : s.Trees := by
  refine ⟨?_, ?_⟩
  · rwa [hbefore]
  · rwa [htarget]

/-- Wherever a call may fail or the daemon may die, the directories are whole. -/
theorem Sound.whole (h : s.Sound) (hmay : s.mayCrash = true) : s.Whole s.live := by
  have hok := h.point
  unfold mayCrash at hmay
  cases hpoint : s.point with
  | idle | down | commit =>
    rw [hpoint] at hok
    exact hok
  | called =>
    rw [hpoint] at hok
    exact .inl hok
  | clearStaged name rest | removePrevious name rest | copying name rest copied todo
  | clearPrevious name rest | renameAway name rest =>
    rw [hpoint] at hok
    exact hok.1
  | replace name rest | restore name =>
    rw [hpoint] at hmay
    cases hmay

/-- A failure leaves the directories whole, or leaves the way back. -/
theorem Sound.fail (h : s.Sound) (hmay : s.mayFail = true) (hstep : s.step .fail = some t) :
    t.Sound := by
  cases hpoint : s.point with
  | idle | down =>
    simp only [step, hpoint] at hstep
    cases hstep
  | replace name rest =>
    have hok := h.point
    simp only [step, hpoint] at hstep
    rw [hpoint] at hok
    cases hstep
    exact ⟨⟨h.trees.before, h.trees.target⟩, hok.1, h.kept⟩
  | restore name =>
    simp only [mayFail, hpoint] at hmay
    cases hmay
  | called | commit | clearStaged name rest | removePrevious name rest
  | copying name rest copied todo | clearPrevious name rest | renameAway name rest =>
    have hwhole : s.Whole s.live := by
      apply h.whole
      unfold mayCrash
      rw [hpoint]
    simp only [step, hpoint] at hstep
    cases hstep
    exact ⟨⟨h.trees.before, h.trees.target⟩, hwhole, h.kept⟩

/-- `remove_dir_all` deletes staged content, or content that is not needed any more. -/
theorem Sound.removeDirAll (h : s.Sound) {index : ℕ} (hstep : s.step (.remove index) = some t) :
    t.Sound := by
  have hok := h.point
  cases hpoint : s.point with
  | clearStaged name rest =>
    simp only [step, hpoint] at hstep
    rw [hpoint] at hok
    cases hstep
    exact ⟨⟨h.trees.before, h.trees.target⟩, hok, h.kept⟩
  | clearPrevious name rest | removePrevious name rest =>
    simp only [step, hpoint] at hstep
    rw [hpoint] at hok
    cases hstep
    refine h.remove hok.1 index ?_
    rw [hpoint]
    exact hok
  | idle | down | called | commit | replace name rest | restore name
  | copying name rest copied todo | renameAway name rest =>
    simp only [step, hpoint] at hstep
    cases hstep

/-- A part of a file has been copied: the file is copied again from the backup as a whole. -/
theorem Sound.copyPart (h : s.Sound) {bytes : List UInt8}
    (hstep : s.step (.copyPart bytes) = some t) : t.Sound := by
  have hok := h.point
  cases hpoint : s.point with
  | copying name rest copied todo =>
    rw [hpoint] at hok
    obtain ⟨hwhole, hverified, htree, hstaged⟩ := hok
    match todo with
    | (path, .file content) :: todo =>
      simp only [step, hpoint] at hstep
      cases hstep
      exact ⟨⟨h.trees.before, h.trees.target⟩,
        ⟨hwhole, hverified, htree, fun hnil => by cases hnil⟩, h.kept⟩
    | [] | (_, .directory) :: _ | (_, .symlink _) :: _ | (_, .special) :: _ =>
      simp only [step, hpoint] at hstep
      cases hstep
  | idle | down | called | commit | replace name rest | restore name | clearStaged name rest
  | clearPrevious name rest | removePrevious name rest | renameAway name rest =>
    simp only [step, hpoint] at hstep
    cases hstep

theorem Sound.step (h : s.Sound) {e : RollbackEvent} (hfits : s.Fits e)
    (hstep : s.step e = some t) : t.Sound := by
  cases e with
  | edit name tree =>
    simp only [RollbackState.step] at hstep
    split at hstep
    · rename_i hpoint
      cases hstep
      have hpresent (other : LiveDirectory) :
          (update s.live name (some tree) other).isSome = true := by
        by_cases hother : other = name
        · rw [hother, Function.update_self]
          rfl
        · rw [Function.update_of_ne hother]
          exact h.allOrNothing.present hpoint other
      refine ⟨.of_live rfl rfl hpresent, ?_, h.kept⟩
      change PointOk _ s.point
      rw [hpoint]
      exact .inl rfl
    · cases hstep
  | call =>
    simp only [RollbackState.step] at hstep
    split at hstep
    · rename_i hpoint
      cases hstep
      exact ⟨.of_live rfl rfl (h.allOrNothing.present hpoint), rfl, h.kept⟩
    · cases hstep
  | next => exact h.next hfits hstep
  | copyPart bytes => exact h.copyPart hstep
  | remove index => exact h.removeDirAll hstep
  | fail => exact h.fail hfits hstep
  | crash =>
    simp only [RollbackState.step] at hstep
    split at hstep
    · cases hstep
    · cases hstep
      exact ⟨⟨h.trees.before, h.trees.target⟩, h.whole hfits, h.kept⟩
  | ensureDirectory name =>
    simp only [RollbackState.step] at hstep
    split at hstep
    · rename_i hpoint
      cases hstep
      -- the directory is there already
      have hsame : update s.live name (some ((s.live name).getD emptyTree)) = s.live := by
        obtain ⟨tree, htree⟩ := Option.isSome_iff_exists.mp
          (h.trees.isSome_of_whole (h.whole_of_down hpoint) name)
        rw [htree]
        change update s.live name (some tree) = s.live
        rw [← htree, Function.update_eq_self]
      rw [hsame]
      exact h
    · cases hstep
  | claim =>
    simp only [RollbackState.step] at hstep
    split at hstep
    · rename_i hpoint
      cases hstep
      exact ⟨⟨h.trees.before, h.trees.target⟩, h.whole_of_down hpoint.1, h.kept⟩
    · cases hstep

theorem sound_start (live : LiveDirectory → Tree) (staged previous : LiveDirectory → Option Tree)
    (backups : List (String × Backup)) (journal : Option UpgradeJournal) :
    (start live staged previous backups journal).Sound :=
  ⟨.of_live rfl rfl fun _ => rfl, .inl rfl, rfl⟩

/-- A rollback is all or nothing as long as each directory that is replaced before the last
different one has the content of its backup already. -/
theorem run_allOrNothing {live : LiveDirectory → Tree} {staged previous : LiveDirectory → Option Tree}
    {backups : List (String × Backup)} {journal : Option UpgradeJournal}
    (h : machine.Run Fits (start live staged previous backups journal) t) : t.AllOrNothing := by
  have hsound : t.Sound :=
    h.invariant (fun _ _ _ hs hfits hstep => hs.step hfits hstep) (sound_start ..)
  exact hsound.allOrNothing

def treeOf (bytes : List UInt8) : Tree := [([], .directory), (["state"], .file bytes)]

/-- A backup of three directories with the same content. -/
def sampleBackup : Backup where
  entries := some [some 1, some 1, some 1]
  trees _ := some (treeOf [0])

def sampleJournal : UpgradeJournal := ⟨.committed, some "backups/upgrade-1/manifest.json"⟩

/-- A root whose data has changed since the backup, and whose configuration may have. -/
def sampleStart (config : List UInt8) : RollbackState :=
  start (fun | .data => treeOf [1] | .config => treeOf config | .logs => treeOf [0])
    (fun _ => none) (fun _ => none) [("backups/upgrade-1/manifest.json", sampleBackup)]
    (some sampleJournal)

/-- One directory is copied, renamed and its previous content deleted. -/
def replaceOne : List RollbackEvent := List.replicate 7 .next ++ [.remove 1, .remove 0, .next]

theorem oneChange_allOrNothing : ∃ t, machine.Run Fits (sampleStart [0]) t ∧
    (t.point = .idle ∧ t.live .data = some (treeOf [0])) ∧ t.AllOrNothing := by
  obtain ⟨t, hrun, hp⟩ := Machine.exists_run_of_execUnder (M := machine) (C := Fits)
    (s := sampleStart [0])
    (fun t => t.point = .idle ∧ t.live .data = some (treeOf [0]))
    ([.call, .next] ++ replaceOne ++ replaceOne ++ replaceOne ++ [.next]) (by decide +kernel)
  exact ⟨t, hrun, of_decide_eq_true hp, run_allOrNothing hrun⟩

/-- The data is replaced and its previous content deleted, then the configuration cannot be
copied. -/
theorem copyFails_mixed : ∃ t, machine.Reaches (sampleStart [1]) t ∧ ¬t.AllOrNothing := by
  obtain ⟨t, hrun, hp⟩ := Machine.exists_reaches_of_exec (M := machine) (s := sampleStart [1])
    (fun t => t.point = .idle ∧ t.live .data ≠ t.before .data ∧ t.live .config ≠ t.target .config)
    ([.call, .next] ++ replaceOne ++ [.next, .fail]) (by decide +kernel)
  refine ⟨t, hrun, fun hall => ?_⟩
  obtain ⟨hidle, hdata, hconfig⟩ := of_decide_eq_true hp
  rcases hall.settled hidle with hbefore | htarget
  · exact hdata (congrFun hbefore .data)
  · exact hconfig (congrFun htarget .config)

end RollbackState

end Rollback

end Supervisor
