import Supervisor.DeletionEffect
import Supervisor.LedgerTables

namespace Supervisor

/-- The row of the new job has not been written. -/
def AddStage.isUnsaved : AddStage → Bool
  | .listing | .saving => true
  | .registering | .removing _ => false

namespace Store

variable {s : Store} {job a : Job}

/-- Saving a definition adds no id to the table but its own, under a new name. -/
theorem mem_saveJob (h : a ∈ (s.saveJob job).jobs) :
    (∃ old ∈ s.jobs, old.name = a.name ∧ old.id = a.id) ∨ a = job ∧ s.getJob job.name = none := by
  unfold saveJob at h
  split at h
  · rename_i hnone
    rcases List.mem_append.mp h with hold | hnew
    · exact .inl ⟨a, hold, rfl, rfl⟩
    · exact .inr ⟨List.mem_singleton.mp hnew, hnone⟩
  · rename_i old hold
    obtain ⟨hmem, hname⟩ := getJob_mem hold
    rcases KeyedRows.mem_update_iff.mp h with ⟨row, hrow, hkey, rfl⟩ | ⟨hrow, -⟩
    · exact .inl ⟨old, hmem, hname, rfl⟩
    · exact .inl ⟨a, hrow, rfl, rfl⟩

theorem saveJob_unique (hu : KeyedRows.Unique Job.name s.jobs) :
    KeyedRows.Unique Job.name (s.saveJob job).jobs := by
  unfold saveJob
  split
  · rename_i hnone
    exact hu.append (KeyedRows.find_eq_none.mp hnone)
  · exact hu.update fun _ _ => rfl

/-- A definition that is stored stays stored under its id. -/
theorem hasJob_saveJob {name : String} {id : JobId} (hu : KeyedRows.Unique Job.name s.jobs)
    (h : s.hasJob name id = true) : (s.saveJob job).hasJob name id = true := by
  obtain ⟨old, hold, rfl, rfl⟩ := hasJob_iff.mp h
  apply hasJob_iff.mpr
  unfold saveJob
  split
  · exact ⟨old, List.mem_append_left _ hold, rfl, rfl⟩
  · rename_i found hfound
    by_cases hname : old.name = job.name
    · have hsame : found = old := by
        have hfind := hu.find_of_mem hold
        rw [hname] at hfind
        exact Option.some.inj (hfound.symm.trans hfind)
      subst hsame
      exact ⟨_, KeyedRows.mem_update_iff.mpr (.inl ⟨found, hold, hname, rfl⟩), hname.symm, rfl⟩
    · exact ⟨old, KeyedRows.mem_update_iff.mpr (.inr ⟨hold, hname⟩), rfl, rfl⟩

theorem mem_deleteJob {name : String} :
    a ∈ (s.deleteJob name).jobs ↔ a ∈ s.jobs ∧ a.name ≠ name := by
  simp [deleteJob]

theorem deleteJob_handed {name : String} {run : JobRun} (hrun : run ∈ s.runs) :
    run ∈ (s.deleteJob name).runs ∨ run.runId ∈ (s.deleteJob name).runLogCleanup := by
  by_cases hname : run.jobName = name
  · right
    have hremoved : run.runId ∈ (s.runs.filter fun run => run.jobName = name).map (·.runId) :=
      List.mem_map_of_mem (List.mem_filter.mpr ⟨hrun, by simpa using hname⟩)
    by_cases hlisted : run.runId ∈ s.runLogCleanup
    · exact List.mem_append_left _ hlisted
    · exact List.mem_append_right _ (List.mem_filter.mpr ⟨hremoved, by simpa using hlisted⟩)
  · exact .inl (List.mem_filter.mpr ⟨hrun, by simpa using hname⟩)

end Store

namespace JobDeletionState

/-- The tables of jobs and runs fit together, and an id stands for one job. -/
structure Stored (s : JobDeletionState) : Prop where
  jobNames : KeyedRows.Unique Job.name s.plane.store.jobs
  runJob : ∀ run ∈ s.plane.store.runs, s.plane.store.hasJob run.jobName run.jobId = true
  jobDrawn : ∀ job ∈ s.plane.store.jobs, s.names job.id = some job.name ∧ job.id ∈ s.saved
  savedDrawn : ∀ id ∈ s.saved, ∃ name, s.names id = some name
  addDrawn : ∀ n c, s.adds n = some c → s.names c.job.id = some c.job.name
  unsaved : ∀ n c, s.adds n = some c → c.stage.isUnsaved = true → c.job.id ∉ s.saved
  addIds : ∀ n m c d, s.adds n = some c → s.adds m = some d → c.job.id = d.job.id → n = m
  ran : ∀ p ∈ s.ran, p.2 ∈ s.handed ∨ p.2 ∈ s.plane.store.runLogCleanup ∨
    ∃ run ∈ s.plane.store.runs, run.jobId = p.1 ∧ run.runId = p.2

/-- The history has seen the log cleanup. -/
def Observed (s : JobDeletionState) : Prop := ∀ r ∈ s.plane.store.runLogCleanup, r ∈ s.handed

variable {s t : JobDeletionState}

section Stored

/-- What the tables of jobs and runs do not depend on. -/
theorem Stored.congr (hs : s.Stored) (hstore : t.plane.store = s.plane.store)
    (hnames : t.names = s.names) (hsaved : t.saved = s.saved) (hran : t.ran = s.ran)
    (hhanded : t.handed = s.handed)
    (hadds : ∀ n c, t.adds n = some c → ∃ c', s.adds n = some c' ∧ c'.job = c.job ∧
      (c.stage.isUnsaved = true → c'.stage.isUnsaved = true)) : t.Stored where
  jobNames := hstore ▸ hs.jobNames
  runJob := hstore ▸ hs.runJob
  jobDrawn := by rw [hstore, hnames, hsaved]; exact hs.jobDrawn
  savedDrawn := by rw [hnames, hsaved]; exact hs.savedDrawn
  addDrawn n c hc := by
    obtain ⟨c', hc', hjob, -⟩ := hadds n c hc
    rw [hnames, ← hjob]
    exact hs.addDrawn n c' hc'
  unsaved n c hc hstage := by
    obtain ⟨c', hc', hjob, hunsaved⟩ := hadds n c hc
    rw [hsaved, ← hjob]
    exact hs.unsaved n c' hc' (hunsaved hstage)
  addIds n m c d hc hd hid := by
    obtain ⟨c', hc', hjob, -⟩ := hadds n c hc
    obtain ⟨d', hd', hjob', -⟩ := hadds m d hd
    exact hs.addIds n m c' d' hc' hd' (by rw [hjob, hjob', hid])
  ran := by rw [hstore, hran, hhanded]; exact hs.ran

/-- The run table changes; each row that was there stays or is handed over. -/
theorem Stored.keepsRows (hs : s.Stored) (hseen : s.Observed) {store : Store}
    (h : s.plane.store.KeepsRows store) : (s.withStore store).Stored where
  jobNames := by
    show KeyedRows.Unique Job.name store.jobs
    rw [h.jobs]
    exact hs.jobNames
  runJob run hrun := by
    show store.hasJob run.jobName run.jobId = true
    rw [Store.hasJob_congr h.jobs]
    rcases h.parents run hrun with hparent | ⟨old, hold, hidentity⟩
    · exact hparent
    · simp only [JobRun.identity, Prod.mk.injEq] at hidentity
      rw [← hidentity.2.1, ← hidentity.2.2]
      exact hs.runJob old hold
  jobDrawn job hjob := hs.jobDrawn job (h.jobs ▸ hjob)
  savedDrawn := hs.savedDrawn
  addDrawn := hs.addDrawn
  unsaved := hs.unsaved
  addIds := hs.addIds
  ran p hp := by
    rcases hs.ran p hp with hhanded | hlisted | ⟨old, hold, hjob, hrun⟩
    · exact .inl hhanded
    · exact .inl (hseen _ hlisted)
    · rcases h.kept old hold with ⟨run, hmem, hidentity⟩ | hgone
      · simp only [JobRun.identity, Prod.mk.injEq] at hidentity
        exact .inr (.inr ⟨run, hmem, hidentity.2.2.trans hjob, hidentity.1.trans hrun⟩)
      · exact .inr (.inl (hrun ▸ hgone))

theorem Stored.deleteJob (hs : s.Stored) (hseen : s.Observed) (name : String) :
    (s.withStore (s.plane.store.deleteJob name)).Stored where
  jobNames := hs.jobNames.filter _
  runJob run hrun := by
    obtain ⟨hmem, hname⟩ := List.mem_filter.mp hrun
    exact Store.hasJob_deleteJob.mpr ⟨hs.runJob run hmem, by simpa using hname⟩
  jobDrawn job hjob := hs.jobDrawn job (Store.mem_deleteJob.mp hjob).1
  savedDrawn := hs.savedDrawn
  addDrawn := hs.addDrawn
  unsaved := hs.unsaved
  addIds := hs.addIds
  ran p hp := by
    rcases hs.ran p hp with hhanded | hlisted | ⟨old, hold, hjob, hrun⟩
    · exact .inl hhanded
    · exact .inl (hseen _ hlisted)
    · rcases Store.deleteJob_handed hold with hkept | hgone
      · exact .inr (.inr ⟨old, hkept, hjob, hrun⟩)
      · exact .inr (.inl (hrun ▸ hgone))

/-- A call of `add_job` writes its row. -/
theorem Stored.saveJob (hs : s.Stored) {add : ℕ} {job : Job}
    (hadd : s.adds add = some ⟨job, .saving⟩) :
    ({ s.withStore (s.plane.store.saveJob job) with
      saved := insert job.id s.saved }.setAdd add (some ⟨job, .registering⟩)).Stored := by
  have hdrawn := hs.addDrawn add _ hadd
  have hcases {n : ℕ} {c : AddCall}
      (h : Function.update s.adds add (some ⟨job, .registering⟩) n = some c) :
      n = add ∧ c = ⟨job, .registering⟩ ∨ n ≠ add ∧ s.adds n = some c := by
    by_cases hn : n = add
    · subst hn
      rw [Function.update_self, Option.some.injEq] at h
      exact .inl ⟨rfl, h.symm⟩
    · rw [Function.update_of_ne hn] at h
      exact .inr ⟨hn, h⟩
  have hrows := Store.saveJob_rows s.plane.store job
  constructor
  case jobNames => exact Store.saveJob_unique hs.jobNames
  case runJob =>
    intro run hrun
    have hmem : run ∈ s.plane.store.runs := hrows.1 ▸ hrun
    exact Store.hasJob_saveJob hs.jobNames (hs.runJob run hmem)
  case jobDrawn =>
    intro a ha
    rcases Store.mem_saveJob ha with ⟨old, hold, hname, hid⟩ | ⟨rfl, -⟩
    · obtain ⟨holdName, holdSaved⟩ := hs.jobDrawn old hold
      rw [← hid, ← hname]
      exact ⟨holdName, Finset.mem_insert_of_mem holdSaved⟩
    · exact ⟨hdrawn, Finset.mem_insert_self _ _⟩
  case savedDrawn =>
    intro id hid
    rcases Finset.mem_insert.mp hid with rfl | hid
    · exact ⟨_, hdrawn⟩
    · exact hs.savedDrawn id hid
  case addDrawn =>
    intro n c hc
    rcases hcases hc with ⟨-, rfl⟩ | ⟨-, hold⟩
    · exact hdrawn
    · exact hs.addDrawn n c hold
  case unsaved =>
    intro n c hc hstage
    rcases hcases hc with ⟨-, rfl⟩ | ⟨hother, hold⟩
    · cases hstage
    · intro hsaved
      rcases Finset.mem_insert.mp hsaved with hid | hsaved
      · exact hother (hs.addIds n add c _ hold hadd hid)
      · exact hs.unsaved n c hold hstage hsaved
  case addIds =>
    intro n m c d hc hd hid
    rcases hcases hc with ⟨rfl, rfl⟩ | ⟨-, hold⟩
    · rcases hcases hd with ⟨rfl, -⟩ | ⟨-, hold'⟩
      · rfl
      · exact hs.addIds n m _ d hadd hold' hid
    · rcases hcases hd with ⟨rfl, rfl⟩ | ⟨-, hold'⟩
      · exact hs.addIds n m c _ hold hadd hid
      · exact hs.addIds n m c d hold hold' hid
  case ran =>
    intro p hp
    have hstore : (s.plane.store.saveJob job).runLogCleanup = s.plane.store.runLogCleanup := by
      unfold Store.saveJob
      split <;> rfl
    show _ ∨ p.2 ∈ (s.plane.store.saveJob job).runLogCleanup ∨
      ∃ run ∈ (s.plane.store.saveJob job).runs, run.jobId = p.1 ∧ run.runId = p.2
    rw [hstore, hrows.1]
    exact hs.ran p hp

/-- A call of `add_job` begins. -/
theorem Stored.callAdd (hs : s.Stored) {add : ℕ} {job : Job} (hadd : s.adds add = none)
    (hfresh : s.names job.id = none) :
    ({ s with
      names := Function.update s.names job.id (some job.name) }.setAdd add
        (some ⟨job, .listing⟩)).Stored := by
  have hunsaved : job.id ∉ s.saved := by
    intro hsaved
    obtain ⟨name, hname⟩ := hs.savedDrawn _ hsaved
    rw [hfresh] at hname
    cases hname
  have hnames {id : JobId} {name : String} (h : s.names id = some name) :
      Function.update s.names job.id (some job.name) id = some name := by
    rw [Function.update_of_ne, h]
    rintro rfl
    rw [hfresh] at h
    cases h
  have hcases {n : ℕ} {c : AddCall}
      (h : Function.update s.adds add (some ⟨job, .listing⟩) n = some c) :
      n = add ∧ c = ⟨job, .listing⟩ ∨ n ≠ add ∧ s.adds n = some c := by
    by_cases hn : n = add
    · subst hn
      rw [Function.update_self, Option.some.injEq] at h
      exact .inl ⟨rfl, h.symm⟩
    · rw [Function.update_of_ne hn] at h
      exact .inr ⟨hn, h⟩
  have hother {n : ℕ} {c : AddCall} (h : s.adds n = some c) : c.job.id ≠ job.id := by
    intro hid
    have hdrawn := hs.addDrawn n c h
    rw [hid, hfresh] at hdrawn
    cases hdrawn
  constructor
  case jobNames => exact hs.jobNames
  case runJob => exact hs.runJob
  case jobDrawn =>
    intro a ha
    obtain ⟨hname, hsaved⟩ := hs.jobDrawn a ha
    exact ⟨hnames hname, hsaved⟩
  case savedDrawn =>
    intro id hid
    obtain ⟨name, hname⟩ := hs.savedDrawn id hid
    exact ⟨name, hnames hname⟩
  case addDrawn =>
    intro n c hc
    rcases hcases hc with ⟨-, rfl⟩ | ⟨-, hold⟩
    · exact Function.update_self _ _ _
    · exact hnames (hs.addDrawn n c hold)
  case unsaved =>
    intro n c hc hstage
    rcases hcases hc with ⟨-, rfl⟩ | ⟨-, hold⟩
    · exact hunsaved
    · exact hs.unsaved n c hold hstage
  case addIds =>
    intro n m c d hc hd hid
    rcases hcases hc with ⟨rfl, rfl⟩ | ⟨-, hold⟩
    · rcases hcases hd with ⟨rfl, -⟩ | ⟨-, hold'⟩
      · rfl
      · exact absurd hid.symm (hother hold')
    · rcases hcases hd with ⟨rfl, rfl⟩ | ⟨-, hold'⟩
      · exact absurd hid (hother hold)
      · exact hs.addIds n m c d hold hold' hid
  case ran => exact hs.ran

theorem Stored.observe (hs : s.Stored) : s.observe.Stored where
  jobNames := hs.jobNames
  runJob := hs.runJob
  jobDrawn := hs.jobDrawn
  savedDrawn := hs.savedDrawn
  addDrawn := hs.addDrawn
  unsaved := hs.unsaved
  addIds := hs.addIds
  ran p hp := by
    rcases Finset.mem_union.mp hp with hold | hnew
    · rcases hs.ran p hold with hhanded | hrest
      · exact .inl (Finset.mem_union_left _ hhanded)
      · exact .inr hrest
    · obtain ⟨run, hrun, rfl⟩ := List.mem_map.mp (List.mem_toFinset.mp hnew)
      exact .inr (.inr ⟨run, hrun, rfl, rfl⟩)

theorem observed_observe (s : JobDeletionState) : s.observe.Observed :=
  fun _ hr => Finset.mem_union_right _ (List.mem_toFinset.mpr hr)

end Stored

/-- What the holder of a lock relies on. -/
def HolderSound (s : JobDeletionState) (name : String) : JobLockHolder → Prop
  | .deleting _ .looking => True
  | .deleting _ .listing => ∀ j ∈ s.plane.deletions, j.jobName ≠ name
  | .deleting _ (.creating job) => (∀ j ∈ s.plane.deletions, j.jobName ≠ name) ∧
    job.name = name ∧ s.names job.id = some name ∧ job.id ∈ s.saved
  | .deleting _ .rereading => ∀ j ∈ s.plane.deletions, j.jobName = name → j.stage = .prepared
  | .deleting _ (.resuming g) => g.answersRollback = false ∧
    ∃ row ∈ s.plane.deletions, row.jobName = name ∧ g.InStep row
  | .recovering g => ∃ row ∈ s.plane.deletions, row.jobName = name ∧ g.InStep row

/-- The journals fit the jobs and the deletions that work on them. -/
structure Journaled (s : JobDeletionState) : Prop where
  jobNames : KeyedRows.Unique JobDeletionJournal.jobName s.plane.deletions
  ids : KeyedRows.Unique JobDeletionJournal.deletionId s.plane.deletions
  drawn : ∀ j ∈ s.plane.deletions, s.names j.job.id = some j.jobName ∧ j.job.id ∈ s.saved ∧
    j.deletionId ∈ s.deletionIds
  gone : ∀ j ∈ s.plane.deletions, j.stage.rowsGone = true →
    ∀ job ∈ s.plane.store.jobs, job.id ≠ j.job.id
  holder : ∀ name holder, s.holders name = some holder → s.HolderSound name holder
  reportIds : ∀ report ∈ s.reports, report.deletionId ∈ s.deletionIds ∧ report.job.id ∈ s.saved
  cleared : ∀ report ∈ s.reports, ∀ j ∈ s.plane.deletions, j.deletionId ≠ report.deletionId
  reported : ∀ report ∈ s.reports, ∀ job ∈ s.plane.store.jobs, job.id ≠ report.job.id

/-- The condition on a step: a recovery resumes a journal that is stored as it was
listed, and `delete_job` finds no journal that is to be rolled back. -/
def DeletionPermitted (s : JobDeletionState) : JobDeletionAction → Prop
  | .resume => ∀ journal ∈ s.pass.head?, s.holders journal.jobName = none →
      journal ∈ s.plane.deletions
  | .lookUp name _ => ∀ journal ∈ s.plane.getJobDeletionJournal name,
      journal.stage ≠ .rollbackRequired
  | _ => True

section Journaled

/-- Only the journals of the name matter to its holder. -/
theorem HolderSound.mono {name : String} {holder : JobLockHolder}
    (h : s.HolderSound name holder)
    (hjournals : ∀ j, j.jobName = name → (j ∈ t.plane.deletions ↔ j ∈ s.plane.deletions))
    (hnames : ∀ id name, s.names id = some name → t.names id = some name)
    (hsaved : s.saved ⊆ t.saved) : t.HolderSound name holder := by
  have hnone (hold : ∀ j ∈ s.plane.deletions, j.jobName ≠ name) :
      ∀ j ∈ t.plane.deletions, j.jobName ≠ name :=
    fun j hj hname => hold j ((hjournals j hname).mp hj) hname
  have hstep {g : DeletionSaga}
      (hold : ∃ row ∈ s.plane.deletions, row.jobName = name ∧ g.InStep row) :
      ∃ row ∈ t.plane.deletions, row.jobName = name ∧ g.InStep row := by
    obtain ⟨row, hrow, hname, hin⟩ := hold
    exact ⟨row, (hjournals row hname).mpr hrow, hname, hin⟩
  cases holder with
  | deleting call stage =>
    cases stage with
    | looking => exact h
    | listing => exact hnone h
    | creating job =>
      obtain ⟨hold, hname, hdrawn, hmem⟩ := h
      exact ⟨hnone hold, hname, hnames _ _ hdrawn, hsaved hmem⟩
    | rereading => exact fun j hj hname => h j ((hjournals j hname).mp hj) hname
    | resuming g => exact ⟨h.1, hstep h.2⟩
  | recovering g => exact hstep h

/-- A step that leaves the journals alone, and brings back no id that was saved. -/
theorem Journaled.frame (hs : s.Journaled) (hdeletions : t.plane.deletions = s.plane.deletions)
    (hreports : t.reports = s.reports) (hids : s.deletionIds ⊆ t.deletionIds)
    (hsaved : s.saved ⊆ t.saved)
    (hnames : ∀ id name, s.names id = some name → t.names id = some name)
    (hjobs : ∀ job ∈ t.plane.store.jobs, job.id ∈ s.saved →
      ∃ old ∈ s.plane.store.jobs, old.id = job.id)
    (hholders : ∀ name holder, t.holders name = some holder →
      s.holders name = some holder ∨ s.HolderSound name holder) : t.Journaled where
  jobNames := hdeletions ▸ hs.jobNames
  ids := hdeletions ▸ hs.ids
  drawn j hj := by
    obtain ⟨hname, hmem, hid⟩ := hs.drawn j (hdeletions ▸ hj)
    exact ⟨hnames _ _ hname, hsaved hmem, hids hid⟩
  gone j hj hgone job hjob hid := by
    have hold := hdeletions ▸ hj
    obtain ⟨old, hmem, hsame⟩ := hjobs job hjob (hid ▸ (hs.drawn j hold).2.1)
    exact hs.gone j hold hgone old hmem (hsame.trans hid)
  holder name holder hholder := by
    have hsound : s.HolderSound name holder := by
      rcases hholders name holder hholder with hold | hnew
      · exact hs.holder name holder hold
      · exact hnew
    exact hsound.mono (fun j _ => by rw [hdeletions]) hnames hsaved
  reportIds report hreport := by
    obtain ⟨hid, hmem⟩ := hs.reportIds report (hreports ▸ hreport)
    exact ⟨hids hid, hsaved hmem⟩
  cleared report hreport j hj := hs.cleared report (hreports ▸ hreport) j (hdeletions ▸ hj)
  reported report hreport job hjob hid := by
    have hold := hreports ▸ hreport
    obtain ⟨old, hmem, hsame⟩ := hjobs job hjob (hid ▸ (hs.reportIds report hold).2)
    exact hs.reported report hold old hmem (hsame.trans hid)

theorem holders_setHolder {name m : String} {new : Option JobLockHolder} {holder : JobLockHolder}
    (h : (s.setHolder name new).holders m = some holder) :
    m = name ∧ new = some holder ∨ m ≠ name ∧ s.holders m = some holder := by
  have h : Function.update s.holders name new m = some holder := h
  by_cases hm : m = name
  · subst hm
    rw [Function.update_self] at h
    exact .inl ⟨rfl, h⟩
  · rw [Function.update_of_ne hm] at h
    exact .inr ⟨hm, h⟩

/-- The holder of one lock goes on or lets it go. -/
theorem Journaled.setHolder (hs : s.Journaled) {name : String} {new : Option JobLockHolder}
    (hnew : ∀ holder, new = some holder → s.HolderSound name holder) :
    (s.setHolder name new).Journaled := by
  apply hs.frame
  · rfl
  · rfl
  · exact Finset.Subset.refl _
  · exact Finset.Subset.refl _
  · exact fun _ _ h => h
  · exact fun job hjob _ => ⟨job, hjob, rfl⟩
  · intro m holder h
    rcases holders_setHolder h with ⟨rfl, hholder⟩ | ⟨-, hold⟩
    · exact .inr (hnew holder hholder)
    · exact .inl hold

/-- Memory that no journal is about. -/
theorem Journaled.congr (hs : s.Journaled) (hdeletions : t.plane.deletions = s.plane.deletions)
    (hjobs : t.plane.store.jobs = s.plane.store.jobs) (hreports : t.reports = s.reports)
    (hids : t.deletionIds = s.deletionIds) (hsaved : t.saved = s.saved) (hnames : t.names = s.names)
    (hholders : t.holders = s.holders) : t.Journaled := by
  apply hs.frame hdeletions hreports
  · rw [hids]
  · rw [hsaved]
  · rw [hnames]
    exact fun _ _ h => h
  · rw [hjobs]
    exact fun job hjob _ => ⟨job, hjob, rfl⟩
  · rw [hholders]
    exact fun _ _ h => .inl h

/-- A stored journal is resumed. -/
theorem Journaled.resumed (hs : s.Journaled) (journal : JobDeletionJournal)
    (intent : JobDeletionResumeIntent) (holder : JobLockHolder)
    (hsound : (DeletionSaga.enter s.plane journal intent).2.InStep journal →
      s.HolderSound journal.jobName holder) :
    ({ s with
      plane := (DeletionSaga.enter s.plane journal intent).1 }.setHolder journal.jobName
        (some holder)).Journaled := by
  obtain ⟨hin, -, hstore, hdeletions, -⟩ := DeletionSaga.enter_spec s.plane journal intent
  have hentered : Journaled { s with plane := (DeletionSaga.enter s.plane journal intent).1 } :=
    hs.congr hdeletions (congrArg Store.jobs hstore) rfl rfl rfl rfl rfl
  apply hentered.setHolder
  intro h hholder
  cases hholder
  refine (hsound hin).mono (fun j _ => ?_) (fun _ _ h => h) (Finset.Subset.refl _)
  show j ∈ (DeletionSaga.enter s.plane journal intent).1.deletions ↔ j ∈ s.plane.deletions
  rw [hdeletions]

theorem getJobDeletionJournal_mem {p : JobPlane} {name : String} {journal : JobDeletionJournal}
    (h : p.getJobDeletionJournal name = some journal) :
    journal ∈ p.deletions ∧ journal.jobName = name :=
  ⟨KeyedRows.find_mem h, KeyedRows.find_key h⟩

/-- The journal of a new deletion is stored. -/
theorem Journaled.create (hs : s.Journaled) {name : String}
    {call : DeleteCall} {job : Job} {deletionId : Uuid} {plane : JobPlane}
    (hholder : s.holders name = some (.deleting call (.creating job)))
    (hfresh : deletionId ∉ s.deletionIds)
    (h : s.plane.createJobDeletionJournal { deletionId, job, stage := .prepared } = .ok plane) :
    plane.store = s.plane.store ∧ plane.deletions = s.plane.deletions ++
      [{ deletionId, job, stage := .prepared }] ∧
    ({ s with
      plane
      deletionIds := insert deletionId s.deletionIds }.setHolder name
        (some (.deleting call .rereading))).Journaled := by
  obtain ⟨hnone, hname, hdrawn, hsaved⟩ := hs.holder name _ hholder
  have hnew (j : JobDeletionJournal) (hj : j ∈ s.plane.deletions) : j.deletionId ≠ deletionId := by
    rintro rfl
    exact hfresh (hs.drawn j hj).2.2
  have hplane : plane = { s.plane with
      deletions := s.plane.deletions ++ [{ deletionId, job, stage := .prepared }] } := by
    unfold JobPlane.createJobDeletionJournal at h
    split at h
    · rename_i hfound
      obtain ⟨j, hj, hsame⟩ := List.any_eq_true.mp hfound
      have hsame : j.jobName = job.name := of_decide_eq_true hsame
      exact absurd (hsame.trans hname) (hnone j hj)
    · split at h
      · cases h
      · cases h
        rfl
  subst hplane
  refine ⟨rfl, rfl, ?_⟩
  have hcases {j : JobDeletionJournal}
      (hj : j ∈ s.plane.deletions ++ [{ deletionId, job, stage := .prepared }]) :
      j ∈ s.plane.deletions ∨ j = { deletionId, job, stage := .prepared } := by
    rcases List.mem_append.mp hj with hold | hnew
    · exact .inl hold
    · exact .inr (List.mem_singleton.mp hnew)
  constructor
  case jobNames =>
    apply hs.jobNames.append
    intro j hj
    show j.jobName ≠ job.name
    rw [hname]
    exact hnone j hj
  case ids => exact hs.ids.append hnew
  case drawn =>
    intro j hj
    rcases hcases hj with hold | rfl
    · obtain ⟨hjname, hmem, hid⟩ := hs.drawn j hold
      exact ⟨hjname, hmem, Finset.mem_insert_of_mem hid⟩
    · exact ⟨hdrawn.trans (congrArg some hname.symm), hsaved, Finset.mem_insert_self _ _⟩
  case gone =>
    intro j hj hgone
    rcases hcases hj with hold | rfl
    · exact hs.gone j hold hgone
    · cases hgone
  case holder =>
    intro m holder hm
    rcases holders_setHolder hm with ⟨rfl, hholder'⟩ | ⟨hother, hold⟩
    · cases hholder'
      intro j hj hjname
      rcases hcases hj with hold | rfl
      · exact absurd hjname (hnone j hold)
      · rfl
    · apply (hs.holder m holder hold).mono
      · intro j hjname
        refine ⟨fun hj => ?_, fun hj => List.mem_append_left _ hj⟩
        rcases hcases hj with hmem | rfl
        · exact hmem
        · exact absurd (hjname.symm.trans hname) hother
      · exact fun _ _ h => h
      · exact Finset.Subset.refl _
  case reportIds =>
    intro report hreport
    obtain ⟨hid, hmem⟩ := hs.reportIds report hreport
    exact ⟨Finset.mem_insert_of_mem hid, hmem⟩
  case cleared =>
    intro report hreport j hj
    rcases hcases hj with hold | rfl
    · exact hs.cleared report hreport j hold
    · rintro rfl
      exact hfresh (hs.reportIds report hreport).1
  case reported => exact hs.reported

theorem effect_jobs {p p' : JobPlane} {g : DeletionSaga} {row : JobDeletionJournal}
    {outcome : DeletionOutcome} (h : g.Effect p row p' outcome) {job : Job}
    (hjob : job ∈ p'.store.jobs) : job ∈ p.store.jobs := by
  cases h with
  | moved f same order deletions store =>
    rcases store with ⟨hids, -⟩ | ⟨-, -, hstore⟩
    · exact hids.jobs ▸ hjob
    · rw [hstore] at hjob
      exact (Store.mem_deleteJob.mp hjob).1
  | cleared deletions store => exact store ▸ hjob

/-- One step of a deletion, whose lock is then let go. -/
theorem Journaled.effect (hs : s.Journaled) (hstored : s.Stored) {plane : JobPlane}
    {g : DeletionSaga} {row : JobDeletionJournal} {outcome : DeletionOutcome}
    (hrow : row ∈ s.plane.deletions) (hin : g.InStep row)
    (h : g.Effect s.plane row plane outcome) :
    ({ s with plane }.setHolder row.jobName none).Journaled := by
  have hjobs {job : Job} (hjob : job ∈ plane.store.jobs) : job ∈ s.plane.store.jobs :=
    effect_jobs h hjob
  have hkey : row.deletionId = g.journal.deletionId := hin.deletionId
  cases h with
  | moved f same order deletions store armed rollback running failed =>
    have hcases {j : JobDeletionJournal} (hj : j ∈ plane.deletions) :
        j = f row ∨ j ∈ s.plane.deletions ∧ j.deletionId ≠ row.deletionId := by
      rw [deletions, KeyedRows.mem_update_iff] at hj
      rcases hj with ⟨old, hold, hid, rfl⟩ | ⟨hold, hid⟩
      · left
        rw [hs.ids.eq_of_key hold hrow (hid.trans hkey.symm)]
      · exact .inr ⟨hold, hkey ▸ hid⟩
    have hsameName (j : JobDeletionJournal) : (f j).jobName = j.jobName :=
      congrArg Job.name (same j).2
    constructor
    case jobNames =>
      show KeyedRows.Unique JobDeletionJournal.jobName plane.deletions
      rw [deletions, KeyedRows.Unique, KeyedRows.update, List.map_map]
      have hmap : s.plane.deletions.map (JobDeletionJournal.jobName ∘ fun r =>
          if r.deletionId = g.journal.deletionId then f r else r) =
            s.plane.deletions.map JobDeletionJournal.jobName := by
        apply List.map_congr_left
        intro j _
        by_cases hid : j.deletionId = g.journal.deletionId
        · simp [hid, hsameName]
        · simp [hid]
      rw [hmap]
      exact hs.jobNames
    case ids =>
      show KeyedRows.Unique JobDeletionJournal.deletionId plane.deletions
      rw [deletions]
      exact hs.ids.update fun j hj => (same j).1.trans hj
    case drawn =>
      intro j hj
      rcases hcases hj with rfl | ⟨hold, -⟩
      · rw [(same row).1, (same row).2, hsameName]
        exact hs.drawn row hrow
      · exact hs.drawn j hold
    case gone =>
      intro j hj hgone job hjob hid
      rcases hcases hj with rfl | ⟨hold, -⟩
      · rw [(same row).2] at hid
        rcases store with ⟨-, hrows⟩ | ⟨-, -, hstore⟩
        · exact hs.gone row hrow (hrows ▸ hgone) job (hjobs hjob) hid
        · -- a job of this id would bear the name, and the rows of the name are gone
          have hjob : job ∈ plane.store.jobs := hjob
          rw [hstore] at hjob
          obtain ⟨hmem, hother⟩ := Store.mem_deleteJob.mp hjob
          obtain ⟨hjobName, -⟩ := hstored.jobDrawn job hmem
          rw [hid, (hs.drawn row hrow).1, Option.some.injEq] at hjobName
          apply hother
          rw [← hjobName, ← hin.job]
          rfl
      · exact hs.gone j hold hgone job (hjobs hjob) hid
    case holder =>
      intro m holder hm
      rcases holders_setHolder hm with ⟨-, hnone⟩ | ⟨hother, hold⟩
      · cases hnone
      · apply (hs.holder m holder hold).mono
        · intro j hjname
          constructor
          · intro hj
            rcases hcases hj with rfl | ⟨hmem, -⟩
            · exact absurd (hjname.symm.trans (hsameName row)) hother
            · exact hmem
          · intro hj
            show j ∈ plane.deletions
            rw [deletions]
            apply KeyedRows.mem_update_iff.mpr (.inr ⟨hj, ?_⟩)
            intro hid
            have hsame := hs.ids.eq_of_key hj hrow (hid.trans hkey.symm)
            exact hother (hjname.symm.trans (by rw [hsame]))
        · exact fun _ _ h => h
        · exact Finset.Subset.refl _
    case reportIds => exact hs.reportIds
    case cleared =>
      intro report hreport j hj
      rcases hcases hj with rfl | ⟨hold, -⟩
      · rw [(same row).1]
        exact hs.cleared report hreport row hrow
      · exact hs.cleared report hreport j hold
    case reported => exact fun report hreport job hjob => hs.reported report hreport job (hjobs hjob)
  | cleared deletions store armed ended =>
    have hmem {j : JobDeletionJournal} :
        j ∈ plane.deletions ↔ j ∈ s.plane.deletions ∧ j.deletionId ≠ row.deletionId := by
      rw [deletions, hkey, List.mem_filter, decide_eq_true_eq]
    constructor
    case jobNames =>
      show KeyedRows.Unique JobDeletionJournal.jobName plane.deletions
      rw [deletions]
      exact hs.jobNames.filter _
    case ids =>
      show KeyedRows.Unique JobDeletionJournal.deletionId plane.deletions
      rw [deletions]
      exact hs.ids.filter _
    case drawn => exact fun j hj => hs.drawn j (hmem.mp hj).1
    case gone => exact fun j hj hgone job hjob => hs.gone j (hmem.mp hj).1 hgone job (hjobs hjob)
    case holder =>
      intro m holder hm
      rcases holders_setHolder hm with ⟨-, hnone⟩ | ⟨hother, hold⟩
      · cases hnone
      · apply (hs.holder m holder hold).mono
        · intro j hjname
          refine ⟨fun hj => (hmem.mp hj).1, fun hj => hmem.mpr ⟨hj, ?_⟩⟩
          intro hid
          have hsame := hs.ids.eq_of_key hj hrow hid
          exact hother (hjname.symm.trans (by rw [hsame]))
        · exact fun _ _ h => h
        · exact Finset.Subset.refl _
    case reportIds => exact hs.reportIds
    case cleared => exact fun report hreport j hj => hs.cleared report hreport j (hmem.mp hj).1
    case reported => exact fun report hreport job hjob => hs.reported report hreport job (hjobs hjob)

/-- What the answer to a deletion's call leads to. -/
inductive Proceeds (s : JobDeletionState) (name : String) (g : DeletionSaga) (plane : JobPlane) :
    DeletionOutcome → JobDeletionState → Prop
  | foreground {call : DeleteCall} {g' : DeletionSaga}
    (holder : s.holders name = some (.deleting call (.resuming g))) :
    Proceeds s name g plane (.running g')
      ({ s with plane }.setHolder name (some (.deleting call (.resuming g'))))
  | recovery {g' : DeletionSaga} (holder : s.holders name = some (.recovering g)) :
    Proceeds s name g plane (.running g')
      ({ s with plane }.setHolder name (some (.recovering g')))
  | answered {call : DeleteCall} (holder : s.holders name = some (.deleting call (.resuming g))) :
    Proceeds s name g plane (.finished (.ok ()))
      (({ s with plane }.setHolder name none).report g call.began)
  | refused {call : DeleteCall} {e : AppError}
    (holder : s.holders name = some (.deleting call (.resuming g))) :
    Proceeds s name g plane (.finished (.error e)) ({ s with plane }.setHolder name none)
  | recovered (holder : s.holders name = some (.recovering g)) (point : g.point = .clearing) :
    Proceeds s name g plane (.finished (.ok ()))
      (({ s with plane, current := none }.setHolder name none).report g none)
  | ended {result : Except AppError Unit} (holder : s.holders name = some (.recovering g)) :
    Proceeds s name g plane (.finished result)
      ({ s with plane, current := none }.setHolder name none)

theorem proceed_inv {name : String} {input : DeletionInput} (h : s.proceed name input = some t) :
    ∃ g plane outcome, s.saga name = some g ∧ g.step s.plane input = some (plane, outcome) ∧
      Proceeds s name g plane outcome t := by
  unfold proceed at h
  split at h
  · rename_i call g hholder
    have hsaga : s.saga name = some g := by
      rw [saga, hholder]
      rfl
    split at h
    · rename_i plane g' hstep
      cases h
      exact ⟨g, plane, _, hsaga, hstep, .foreground hholder⟩
    · rename_i plane hstep
      cases h
      exact ⟨g, plane, _, hsaga, hstep, .answered hholder⟩
    · rename_i plane e hstep
      cases h
      exact ⟨g, plane, _, hsaga, hstep, .refused hholder⟩
    · cases h
  · rename_i g hholder
    have hsaga : s.saga name = some g := by
      rw [saga, hholder]
      rfl
    split at h
    · rename_i plane g' hstep
      cases h
      exact ⟨g, plane, _, hsaga, hstep, .recovery hholder⟩
    · rename_i plane hstep
      dsimp only at h
      split at h
      · rename_i hpoint
        cases h
        exact ⟨g, plane, _, hsaga, hstep, .recovered hholder hpoint⟩
      · cases h
        exact ⟨g, plane, _, hsaga, hstep, .ended hholder⟩
    · rename_i plane e hstep
      cases h
      exact ⟨g, plane, _, hsaga, hstep, .ended hholder⟩
    · cases h
  · cases h

/-- The journal that a deletion at work has stored. -/
theorem Journaled.row_of_saga (hs : s.Journaled) {name : String} {g : DeletionSaga}
    (hsaga : s.saga name = some g) :
    ∃ row ∈ s.plane.deletions, row.jobName = name ∧ g.InStep row := by
  obtain ⟨holder, hholder, hg⟩ := Option.bind_eq_some_iff.mp hsaga
  have hsound := hs.holder name holder hholder
  cases holder with
  | recovering g' =>
    cases hg
    exact hsound
  | deleting call stage =>
    cases stage with
    | resuming g' =>
      cases hg
      exact hsound.2
    | looking | listing | creating | rereading => cases hg

/-- A deletion that ended well has its rows gone and its journal cleared. -/
theorem Journaled.report (hs : s.Journaled) (hstored : s.Stored) {plane : JobPlane}
    {g : DeletionSaga} {row : JobDeletionJournal} (hrow : row ∈ s.plane.deletions)
    (hin : g.InStep row) (h : g.Effect s.plane row plane (.finished (.ok ())))
    (hforward : g.answersRollback = false) (began : Option JobId) :
    (({ s with plane }.setHolder row.jobName none).report g began).Journaled := by
  have hnext := hs.effect hstored hrow hin h
  obtain ⟨-, hsaved, hid⟩ := hs.drawn row hrow
  obtain ⟨hgone, hdeletions⟩ : row.stage.rowsGone = true ∧
      plane.deletions = s.plane.deletions.filter fun j => j.deletionId ≠ g.journal.deletionId := by
    cases h with
    | moved f same order deletions store armed rollback running failed => exact absurd rfl failed
    | cleared deletions store armed ended =>
      refine ⟨?_, deletions⟩
      rcases ended with ⟨hstage, -⟩ | ⟨-, hpoint⟩
      · rw [hstage]
        rfl
      · rw [DeletionSaga.answersRollback, hpoint] at hforward
        cases hforward
  have hcases {report : DeleteReport}
      (hreport : report ∈ s.reports ++ [⟨g.journal.deletionId, g.journal.job, began⟩]) :
      report ∈ s.reports ∨ report = ⟨g.journal.deletionId, g.journal.job, began⟩ := by
    rcases List.mem_append.mp hreport with hold | hnew
    · exact .inl hold
    · exact .inr (List.mem_singleton.mp hnew)
  constructor
  case jobNames => exact hnext.jobNames
  case ids => exact hnext.ids
  case drawn => exact hnext.drawn
  case gone => exact hnext.gone
  case holder =>
    intro m holder hm
    exact (hnext.holder m holder hm).mono (fun _ _ => Iff.rfl) (fun _ _ h => h)
      (Finset.Subset.refl _)
  case reportIds =>
    intro report hreport
    rcases hcases hreport with hold | rfl
    · exact hs.reportIds report hold
    · exact ⟨hin.deletionId ▸ hid, hin.job ▸ hsaved⟩
  case cleared =>
    intro report hreport j hj
    rcases hcases hreport with hold | rfl
    · exact hnext.cleared report hold j hj
    · have hj : j ∈ plane.deletions := hj
      rw [hdeletions, List.mem_filter, decide_eq_true_eq] at hj
      exact hj.2
  case reported =>
    intro report hreport job hjob
    rcases hcases hreport with hold | rfl
    · exact hnext.reported report hold job hjob
    · rw [← hin.job]
      exact hs.gone row hrow hgone job (effect_jobs h hjob)

theorem setHolder_setHolder (name : String) (old new : Option JobLockHolder) :
    (s.setHolder name old).setHolder name new = s.setHolder name new := by
  simp [setHolder]

theorem Journaled.proceed (hs : s.Journaled) (hstored : s.Stored) {name : String}
    {input : DeletionInput} (h : s.proceed name input = some t) : t.Journaled := by
  obtain ⟨g, plane, outcome, hsaga, hstep, hproceeds⟩ := proceed_inv h
  obtain ⟨row, hrow, rfl, hin⟩ := hs.row_of_saga hsaga
  have heffect := DeletionSaga.Effect.of_step hin hstep
  have hnext := hs.effect hstored hrow hin heffect
  have hrunning (g' : DeletionSaga) (hout : outcome = .running g') :
      (∃ row' ∈ plane.deletions, row'.jobName = row.jobName ∧ g'.InStep row') ∧
        (g'.answersRollback = true → g.answersRollback = true) := by
    cases heffect with
    | moved f same order deletions store armed rollback running failed =>
      obtain ⟨hin', hanswers⟩ := running g' hout
      refine ⟨⟨f row, ?_, congrArg Job.name (same row).2, hin'⟩, hanswers⟩
      rw [deletions]
      exact KeyedRows.mem_update_iff.mpr (.inl ⟨row, hrow, hin.deletionId, rfl⟩)
    | cleared => cases hout
  cases hproceeds with
  | @foreground call g' holder =>
    obtain ⟨hrow', hanswers⟩ := hrunning g' rfl
    have hforward := (hs.holder _ _ holder).1
    rw [← setHolder_setHolder row.jobName none]
    apply hnext.setHolder
    intro new hnew
    cases hnew
    refine ⟨Bool.eq_false_iff.mpr fun hback => ?_, hrow'⟩
    rw [hanswers hback] at hforward
    cases hforward
  | @recovery g' holder =>
    rw [← setHolder_setHolder row.jobName none]
    apply hnext.setHolder
    intro new hnew
    cases hnew
    exact (hrunning g' rfl).1
  | answered holder =>
    exact hs.report hstored hrow hin heffect (hs.holder _ _ holder).1 _
  | refused holder => exact hnext
  | recovered holder point =>
    have hforward : g.answersRollback = false := by rw [DeletionSaga.answersRollback, point]
    exact (hs.report hstored hrow hin heffect hforward none).congr rfl rfl rfl rfl rfl rfl rfl
  | ended holder => exact hnext.congr rfl rfl rfl rfl rfl rfl rfl

end Journaled

/-- The tables, the journals and the histories agree. -/
structure Filed (s : JobDeletionState) : Prop where
  stored : s.Stored
  journaled : s.Journaled
  observed : s.Observed

section Step

theorem setAdd_adds {add n : ℕ} {new : Option AddCall} {c : AddCall}
    (h : (s.setAdd add new).adds n = some c) :
    n = add ∧ new = some c ∨ n ≠ add ∧ s.adds n = some c := by
  have h : Function.update s.adds add new n = some c := h
  by_cases hn : n = add
  · subst hn
    rw [Function.update_self] at h
    exact .inl ⟨rfl, h⟩
  · rw [Function.update_of_ne hn] at h
    exact .inr ⟨hn, h⟩

/-- A call of `add_job` goes on to a stage that is not before its last one, or ends. -/
theorem Stored.setAdd (hs : s.Stored) {add : ℕ} {new : Option AddCall}
    (hnew : ∀ c, new = some c → ∃ c', s.adds add = some c' ∧ c'.job = c.job ∧
      (c.stage.isUnsaved = true → c'.stage.isUnsaved = true)) : (s.setAdd add new).Stored := by
  apply hs.congr
  · rfl
  · rfl
  · rfl
  · rfl
  · rfl
  · intro n c hc
    rcases setAdd_adds hc with ⟨rfl, hsome⟩ | ⟨-, hold⟩
    · exact hnew c hsome
    · exact ⟨c, hold, rfl, id⟩

theorem Stored.dropAdd (hs : s.Stored) (add : ℕ) : (s.setAdd add none).Stored :=
  hs.setAdd fun c hc => by cases hc

theorem Stored.same (hs : s.Stored) (hstore : t.plane.store = s.plane.store)
    (hnames : t.names = s.names) (hsaved : t.saved = s.saved) (hran : t.ran = s.ran)
    (hhanded : t.handed = s.handed) (hadds : t.adds = s.adds) : t.Stored :=
  hs.congr hstore hnames hsaved hran hhanded fun _ c hc => ⟨c, hadds ▸ hc, rfl, id⟩

theorem Filed.keepsRows (hs : s.Filed) {store : Store} (h : s.plane.store.KeepsRows store) :
    (s.withStore store).Stored ∧ (s.withStore store).Journaled :=
  ⟨hs.stored.keepsRows hs.observed h,
    hs.journaled.congr rfl h.jobs rfl rfl rfl rfl rfl⟩

theorem Filed.resumeForeground (hs : s.Filed) {name : String} (call : DeleteCall)
    {journal : JobDeletionJournal} (hfound : s.plane.getJobDeletionJournal name = some journal)
    (hstage : journal.stage ≠ .rollbackRequired) :
    (s.resumeForeground name call journal).Stored ∧
      (s.resumeForeground name call journal).Journaled := by
  obtain ⟨hmem, rfl⟩ := getJobDeletionJournal_mem hfound
  obtain ⟨-, -, hstore, -⟩ := DeletionSaga.enter_spec s.plane journal .foreground
  constructor
  · exact hs.stored.same hstore rfl rfl rfl rfl rfl
  · apply hs.journaled.resumed
    intro hin
    exact ⟨DeletionSaga.enter_answersRollback hstage, journal, hmem, rfl, hin⟩

theorem Filed.proceed (hs : s.Filed) {name : String} {input : DeletionInput}
    (h : s.proceed name input = some t) : t.Stored ∧ t.Journaled := by
  refine ⟨?_, hs.journaled.proceed hs.stored h⟩
  obtain ⟨g, plane, outcome, hsaga, hstep, hproceeds⟩ := proceed_inv h
  obtain ⟨row, hrow, -, hin⟩ := hs.journaled.row_of_saga hsaga
  have hnext : (s.withStore plane.store).Stored := by
    cases DeletionSaga.Effect.of_step hin hstep with
    | moved f same order deletions store =>
      rcases store with ⟨hids, -⟩ | ⟨-, -, hstore⟩
      · exact hs.stored.keepsRows hs.observed hids.keepsRows
      · rw [hstore]
        exact hs.stored.deleteJob hs.observed _
    | cleared deletions store =>
      rw [store]
      exact hs.stored.same rfl rfl rfl rfl rfl rfl
  cases hproceeds with
  | foreground | recovery | answered | refused | recovered | ended =>
    exact hnext.same rfl rfl rfl rfl rfl rfl

/-- A call of `add_job` goes on. -/
theorem Filed.add_step (hs : s.Filed) {add : ℕ} {r : CallResult} {action : JobDeletionAction}
    (haction : action = .listForAdd add r ∨ action = .saveAdded add r ∨
      action = .registerAdded add r ∨ action = .removeAdded add r)
    (h : s.act action = some t) : t.Stored ∧ t.Journaled := by
  have hdropped : (s.setAdd add none).Stored ∧ (s.setAdd add none).Journaled :=
    ⟨hs.stored.dropAdd add, hs.journaled.congr rfl rfl rfl rfl rfl rfl rfl⟩
  rcases haction with rfl | rfl | rfl | rfl
  · simp only [act] at h
    split at h
    · cases h
      exact hdropped
    · rename_i job hadd
      split at h
      · cases h
        exact hdropped
      · cases h
        refine ⟨hs.stored.setAdd ?_, hs.journaled.congr rfl rfl rfl rfl rfl rfl rfl⟩
        intro c hc
        cases hc
        exact ⟨_, hadd, rfl, fun _ => rfl⟩
    · cases h
  · simp only [act] at h
    split at h
    · cases h
      exact hdropped
    · rename_i job hadd
      cases h
      refine ⟨hs.stored.saveJob hadd, ?_⟩
      apply hs.journaled.frame
      · rfl
      · rfl
      · exact Finset.Subset.refl _
      · exact Finset.subset_insert _ _
      · exact fun _ _ h => h
      · intro a ha hsaved
        rcases Store.mem_saveJob ha with ⟨old, hold, -, hid⟩ | ⟨rfl, -⟩
        · exact ⟨old, hold, hid⟩
        · exact absurd hsaved (hs.stored.unsaved add _ hadd rfl)
      · exact fun _ _ h => .inl h
    · cases h
  · simp only [act] at h
    split at h
    · rename_i job hadd
      cases h
      refine ⟨hs.stored.setAdd ?_, hs.journaled.congr rfl rfl rfl rfl rfl rfl rfl⟩
      intro c hc
      cases hc
      exact ⟨_, hadd, rfl, fun hunsaved => by cases hunsaved⟩
    · cases h
      have hplane (plane : JobPlane) (hstore : plane.store = s.plane.store) :
          ({ s with plane }.setAdd add none).Stored :=
        (hs.stored.dropAdd add).same hstore rfl rfl rfl rfl rfl
      exact ⟨hplane _ rfl, hs.journaled.congr rfl rfl rfl rfl rfl rfl rfl⟩
    · cases h
  · simp only [act] at h
    split at h
    · cases h
      exact hdropped
    · rename_i job error hadd
      cases h
      constructor
      · exact (hs.stored.deleteJob hs.observed job.name).dropAdd add
      · apply hs.journaled.frame
        · rfl
        · rfl
        · exact Finset.Subset.refl _
        · exact Finset.Subset.refl _
        · exact fun _ _ h => h
        · exact fun a ha _ => ⟨a, (Store.mem_deleteJob.mp ha).1, rfl⟩
        · exact fun _ _ h => .inl h
    · cases h

/-- A call of `delete_job` goes on, up to its deletion. -/
theorem Filed.delete_step (hs : s.Filed) {name : String} {r : CallResult}
    {action : JobDeletionAction} (hguard : s.DeletionPermitted action)
    (haction : action = .lookUp name r ∨ (∃ hasRuns, action = .list name r hasRuns) ∨
      (∃ deletionId, action = .create name r deletionId) ∨ action = .reread name r)
    (h : s.act action = some t) : t.Stored ∧ t.Journaled := by
  have hset (new : Option JobLockHolder)
      (hnew : ∀ holder, new = some holder → s.HolderSound name holder) :
      (s.setHolder name new).Stored ∧ (s.setHolder name new).Journaled :=
    ⟨hs.stored.same rfl rfl rfl rfl rfl rfl, hs.journaled.setHolder hnew⟩
  have hreleased := hset none fun holder hholder => by cases hholder
  rcases haction with rfl | ⟨hasRuns, rfl⟩ | ⟨deletionId, rfl⟩ | rfl
  · simp only [act] at h
    split at h
    · cases h
      exact hreleased
    · rename_i call hholder
      split at h
      · rename_i journal hfound
        cases h
        exact hs.resumeForeground call hfound (hguard journal hfound)
      · rename_i hnone
        cases h
        apply hset
        intro holder hholder
        cases hholder
        exact KeyedRows.find_eq_none.mp hnone
    · cases h
  · simp only [act] at h
    split at h
    · cases h
      exact hreleased
    · rename_i call hholder
      split at h
      · cases h
        exact hreleased
      · rename_i job hjob
        split at h
        · cases h
          exact hreleased
        · cases h
          apply hset
          intro holder hnew
          cases hnew
          obtain ⟨hmem, hname⟩ := Store.getJob_mem hjob
          obtain ⟨hdrawn, hsaved⟩ := hs.stored.jobDrawn job hmem
          exact ⟨hs.journaled.holder _ _ hholder, hname, hdrawn.trans (congrArg some hname), hsaved⟩
    · cases h
  · simp only [act] at h
    split at h
    · rename_i call job hholder
      split at h
      · cases h
      · rename_i hfresh
        split at h
        · rename_i plane hcreate
          cases h
          obtain ⟨hstore, -, hjournaled⟩ :=
            hs.journaled.create hholder hfresh (CallResult.run_ok hcreate)
          exact ⟨hs.stored.same hstore rfl rfl rfl rfl rfl, hjournaled⟩
        · cases h
          refine ⟨hs.stored.same rfl rfl rfl rfl rfl rfl, ?_⟩
          apply hs.journaled.frame
          · rfl
          · rfl
          · exact Finset.subset_insert _ _
          · exact Finset.Subset.refl _
          · exact fun _ _ h => h
          · exact fun a ha _ => ⟨a, ha, rfl⟩
          · intro m holder hm
            rcases holders_setHolder hm with ⟨-, hnone⟩ | ⟨-, hold⟩
            · cases hnone
            · exact .inl hold
    · cases h
  · simp only [act] at h
    split at h
    · cases h
      exact hreleased
    · rename_i call hholder
      split at h
      · rename_i journal hfound
        cases h
        obtain ⟨hmem, hname⟩ := getJobDeletionJournal_mem hfound
        have hprepared : journal.stage = .prepared :=
          hs.journaled.holder _ _ hholder journal hmem hname
        apply hs.resumeForeground call hfound
        rw [hprepared]
        exact fun hback => by cases hback
      · cases h
        exact hreleased
    · cases h

theorem Filed.act (hs : s.Filed) {action : JobDeletionAction}
    (hguard : s.DeletionPermitted action) (h : s.act action = some t) :
    t.Stored ∧ t.Journaled := by
  cases action with
  | callDelete name force =>
    cases h
    exact ⟨hs.stored.same rfl rfl rfl rfl rfl rfl, hs.journaled.congr rfl rfl rfl rfl rfl rfl rfl⟩
  | lock call =>
    simp only [JobDeletionState.act] at h
    split at h
    · cases h
    · split at h
      · cases h
      · cases h
        refine ⟨hs.stored.same rfl rfl rfl rfl rfl rfl, ?_⟩
        apply Journaled.setHolder
        · exact hs.journaled.congr rfl rfl rfl rfl rfl rfl rfl
        · intro holder hnew
          cases hnew
          exact trivial
  | lookUp name r => exact hs.delete_step hguard (.inl rfl) h
  | list name r hasRuns => exact hs.delete_step hguard (.inr (.inl ⟨hasRuns, rfl⟩)) h
  | create name r deletionId =>
    exact hs.delete_step hguard (.inr (.inr (.inl ⟨deletionId, rfl⟩))) h
  | reread name r => exact hs.delete_step hguard (.inr (.inr (.inr rfl))) h
  | proceed name input => exact hs.proceed h
  | dropDelete name =>
    simp only [JobDeletionState.act] at h
    split at h
    · cases h
      refine ⟨hs.stored.same rfl rfl rfl rfl rfl rfl, hs.journaled.setHolder ?_⟩
      exact fun holder hnew => by cases hnew
    · cases h
  | callAdd add job =>
    simp only [JobDeletionState.act] at h
    split at h
    · rename_i hadd hfresh
      cases h
      refine ⟨hs.stored.callAdd hadd hfresh, ?_⟩
      apply hs.journaled.frame
      · rfl
      · rfl
      · exact Finset.Subset.refl _
      · exact Finset.Subset.refl _
      · intro id name hname
        show Function.update s.names job.id (some job.name) id = some name
        rw [Function.update_of_ne, hname]
        rintro rfl
        rw [hfresh] at hname
        cases hname
      · exact fun a ha _ => ⟨a, ha, rfl⟩
      · exact fun _ _ h => .inl h
    · cases h
  | listForAdd add r => exact hs.add_step (.inl rfl) h
  | saveAdded add r => exact hs.add_step (.inr (.inl rfl)) h
  | registerAdded add r => exact hs.add_step (.inr (.inr (.inl rfl))) h
  | removeAdded add r => exact hs.add_step (.inr (.inr (.inr rfl))) h
  | dropAdd add =>
    cases h
    exact ⟨hs.stored.dropAdd add, hs.journaled.congr rfl rfl rfl rfl rfl rfl rfl⟩
  | listJournals r =>
    simp only [JobDeletionState.act] at h
    split at h
    · cases h
      exact ⟨hs.stored.same rfl rfl rfl rfl rfl rfl, hs.journaled.congr rfl rfl rfl rfl rfl rfl rfl⟩
    · cases h
      exact ⟨hs.stored, hs.journaled⟩
    · cases h
  | resume =>
    simp only [JobDeletionState.act] at h
    split at h
    · rename_i journal rest hpass hcurrent
      split at h
      · cases h
        exact ⟨hs.stored.same rfl rfl rfl rfl rfl rfl,
          hs.journaled.congr rfl rfl rfl rfl rfl rfl rfl⟩
      · rename_i hfree
        cases h
        have hmem : journal ∈ s.plane.deletions := by
          apply hguard journal _ hfree
          rw [hpass]
          rfl
        obtain ⟨-, -, hstore, -⟩ := DeletionSaga.enter_spec s.plane journal .recovery
        refine ⟨hs.stored.same hstore rfl rfl rfl rfl rfl, ?_⟩
        have hresumed := hs.journaled.resumed journal .recovery
          (.recovering (DeletionSaga.enter s.plane journal .recovery).2)
          fun hin => ⟨journal, hmem, rfl, hin⟩
        exact hresumed.congr rfl rfl rfl rfl rfl rfl rfl
    · cases h
  | registerStored job =>
    simp only [JobDeletionState.act] at h
    split at h
    · cases h
      exact ⟨hs.stored.same rfl rfl rfl rfl rfl rfl, hs.journaled.congr rfl rfl rfl rfl rfl rfl rfl⟩
    · cases h
  | transact op =>
    simp only [JobDeletionState.act] at h
    split at h
    · rename_i hop
      cases h
      exact hs.keepsRows (Store.apply_keepsRows hop)
    · cases h
  | admitOccurrence job occurrence now runId =>
    cases h
    apply hs.keepsRows
    exact .of_snd fun answer u hu => Store.admitScheduleOccurrence_keepsRows hu
  | recoverOccurrences now =>
    cases h
    exact hs.keepsRows (.of_runs rfl rfl)
  | cleanLog runId =>
    cases h
    exact hs.keepsRows (.of_runs rfl rfl)
  | crash =>
    cases h
    constructor
    · apply hs.stored.congr
      · rfl
      · rfl
      · rfl
      · rfl
      · rfl
      · exact fun n c hc => by cases hc
    · apply hs.journaled.frame
      · rfl
      · rfl
      · exact Finset.Subset.refl _
      · exact Finset.Subset.refl _
      · exact fun _ _ h => h
      · exact fun a ha _ => ⟨a, ha, rfl⟩
      · exact fun m holder hm => by cases hm

theorem Filed.step (hs : s.Filed) {action : JobDeletionAction}
    (hguard : s.DeletionPermitted action) (h : jobDeletionSystem.step s action = some t) :
    t.Filed := by
  obtain ⟨u, hact, rfl⟩ := Option.map_eq_some_iff.mp h
  obtain ⟨hstored, hjournaled⟩ := hs.act hguard hact
  exact ⟨hstored.observe, hjournaled.congr rfl rfl rfl rfl rfl rfl rfl, observed_observe u⟩

theorem filed_empty : Filed {} where
  stored :=
    { jobNames := List.nodup_nil
      runJob := fun run hrun => by cases hrun
      jobDrawn := fun job hjob => by cases hjob
      savedDrawn := fun id hid => absurd hid (Finset.notMem_empty id)
      addDrawn := fun n c hc => by cases hc
      unsaved := fun n c hc => by cases hc
      addIds := fun n m c d hc => by cases hc
      ran := fun p hp => absurd hp (Finset.notMem_empty p) }
  journaled :=
    { jobNames := List.nodup_nil
      ids := List.nodup_nil
      drawn := fun j hj => by cases hj
      gone := fun j hj => by cases hj
      holder := fun name holder h => by cases h
      reportIds := fun report hreport => by cases hreport
      cleared := fun report hreport => by cases hreport
      reported := fun report hreport => by cases hreport }
  observed := fun r hr => by cases hr

theorem filed_of_run {C : JobDeletionState → JobDeletionAction → Prop}
    (hC : ∀ s action, C s action → s.DeletionPermitted action)
    (h : jobDeletionSystem.Run C {} s) : s.Filed :=
  h.invariant (fun s action _ hs hc hstep => hs.step (hC s action hc) hstep) filed_empty

end Step

end JobDeletionState

end Supervisor
