import Supervisor.DeletionInvariant

namespace Supervisor

namespace JobDeletionState

variable {s t : JobDeletionState}

/-- What a deletion keeps to, whichever call fails and wherever it is resumed. -/
structure DeletionLawful (s : JobDeletionState) : Prop where
  /-- Past the cancellation a deletion registers nothing, does not turn back, and
  gives up its journal only when it is complete. -/
  forward : ∀ name g input t, s.saga name = some g →
    jobDeletionSystem.step s (.proceed name input) = some t →
    ∀ row ∈ s.plane.deletions, row.deletionId = g.journal.deletionId →
      row.stage.isPreCancellation = false →
      t.plane.armed = s.plane.armed ∧
        (∀ j ∈ t.plane.deletions, j.deletionId = row.deletionId →
          j.stage.isPreCancellation = false) ∧
        ((∀ j ∈ t.plane.deletions, j.deletionId ≠ row.deletionId) → row.stage = .completed)
  /-- A deletion that has to roll back cancels no run and deletes no row. -/
  rollback : ∀ name g input t, s.saga name = some g →
    jobDeletionSystem.step s (.proceed name input) = some t →
    ∀ row ∈ s.plane.deletions, row.deletionId = g.journal.deletionId →
      row.stage = .rollbackRequired → t.plane.store = s.plane.store
  /-- No step of any component takes a journal back. -/
  monotone : ∀ action t, jobDeletionSystem.step s action = some t →
    ∀ row ∈ s.plane.deletions, ∀ j ∈ t.plane.deletions, j.deletionId = row.deletionId →
      row.stage.Precedes j.stage
  /-- A deletion that was reported complete has left nothing but logs to clean up. -/
  completed : ∀ report ∈ s.reports,
    (∀ job ∈ s.plane.store.jobs, job.id ≠ report.job.id) ∧
      (∀ run ∈ s.plane.store.runs, run.jobId ≠ report.job.id) ∧
      (∀ runId, (report.job.id, runId) ∈ s.ran → runId ∈ s.handed) ∧
      ∀ j ∈ s.plane.deletions, j.deletionId ≠ report.deletionId

/-- A step of a deletion, seen from its stored journal. -/
theorem Filed.proceed_effect (hs : s.Filed) {name : String} {g : DeletionSaga}
    {input : DeletionInput} (hsaga : s.saga name = some g)
    (h : jobDeletionSystem.step s (.proceed name input) = some t) {row : JobDeletionJournal}
    (hrow : row ∈ s.plane.deletions) (hid : row.deletionId = g.journal.deletionId) :
    ∃ outcome, g.Effect s.plane row t.plane outcome := by
  obtain ⟨u, hact, rfl⟩ := Option.map_eq_some_iff.mp h
  obtain ⟨g', plane, outcome, hsaga', hstep, hproceeds⟩ := proceed_inv hact
  rw [hsaga, Option.some.injEq] at hsaga'
  subst hsaga'
  obtain ⟨row', hrow', -, hin⟩ := hs.journaled.row_of_saga hsaga
  have hsame := hs.journaled.ids.eq_of_key hrow hrow' (hid.trans hin.deletionId.symm)
  subst hsame
  have heffect := DeletionSaga.Effect.of_step hin hstep
  cases hproceeds with
  | foreground | recovery | answered | refused | recovered | ended => exact ⟨_, heffect⟩

/-- The journals after a step of a deletion. -/
theorem Filed.mem_deletions (hs : s.Filed) {p : JobPlane} {g : DeletionSaga}
    {row : JobDeletionJournal} {outcome : DeletionOutcome} (hrow : row ∈ s.plane.deletions)
    (hid : row.deletionId = g.journal.deletionId) (h : g.Effect s.plane row p outcome)
    {j : JobDeletionJournal} (hj : j ∈ p.deletions) :
    (j.deletionId = row.deletionId ∧ row.stage.Precedes j.stage) ∨
      j ∈ s.plane.deletions ∧ j.deletionId ≠ row.deletionId := by
  cases h with
  | moved f same order deletions store armed rollback running failed =>
    rw [deletions, KeyedRows.mem_update_iff] at hj
    rcases hj with ⟨old, hold, hkey, rfl⟩ | ⟨hold, hkey⟩
    · have hsame := hs.journaled.ids.eq_of_key hold hrow (hkey.trans hid.symm)
      subst hsame
      exact .inl ⟨(same old).1, order⟩
    · exact .inr ⟨hold, fun h => hkey (h.trans hid)⟩
  | cleared deletions =>
    rw [deletions, List.mem_filter, decide_eq_true_eq] at hj
    exact .inr ⟨hj.1, fun h => hj.2 (h.trans hid)⟩

theorem isPreCancellation_eq_false {a : JobDeletionStage} :
    a.isPreCancellation = false ↔ 4 ≤ a.rank := by
  cases a <;> decide

theorem precedes_isPreCancellation {a b : JobDeletionStage} (h : a.Precedes b)
    (ha : a.isPreCancellation = false) : b.isPreCancellation = false := by
  rw [isPreCancellation_eq_false] at ha ⊢
  exact ha.trans h.rank

theorem Filed.forward (hs : s.Filed) {name : String} {g : DeletionSaga} {input : DeletionInput}
    (hsaga : s.saga name = some g)
    (h : jobDeletionSystem.step s (.proceed name input) = some t) {row : JobDeletionJournal}
    (hrow : row ∈ s.plane.deletions) (hid : row.deletionId = g.journal.deletionId)
    (hpast : row.stage.isPreCancellation = false) :
    t.plane.armed = s.plane.armed ∧
      (∀ j ∈ t.plane.deletions, j.deletionId = row.deletionId →
        j.stage.isPreCancellation = false) ∧
      ((∀ j ∈ t.plane.deletions, j.deletionId ≠ row.deletionId) → row.stage = .completed) := by
  obtain ⟨outcome, heffect⟩ := hs.proceed_effect hsaga h hrow hid
  refine ⟨?_, ?_, ?_⟩
  · cases heffect with
    | moved f same order deletions store armed rollback running failed => exact armed hpast
    | cleared deletions store armed ended => exact armed
  · intro j hj hkey
    rcases hs.mem_deletions hrow hid heffect hj with ⟨-, horder⟩ | ⟨-, hother⟩
    · exact precedes_isPreCancellation horder hpast
    · exact absurd hkey hother
  · intro hnone
    cases heffect with
    | moved f same order deletions store armed rollback running failed =>
      have hmem : f row ∈ t.plane.deletions := by
        rw [deletions]
        exact KeyedRows.mem_update_iff.mpr (.inl ⟨row, hrow, hid, rfl⟩)
      exact absurd (same row).1 (hnone _ hmem)
    | cleared deletions store armed ended =>
      rcases ended with ⟨hstage, -⟩ | ⟨hpre, -⟩
      · exact hstage
      · rw [hpast] at hpre
        cases hpre

/-- Besides a deletion at work, only a new deletion touches the journals. -/
theorem Filed.deletions_step (hs : s.Filed) {action : JobDeletionAction}
    (h : jobDeletionSystem.step s action = some t) :
    (∃ name input, action = .proceed name input) ∨ t.plane.deletions = s.plane.deletions ∨
      ∃ j, t.plane.deletions = s.plane.deletions ++ [j] ∧ j.deletionId ∉ s.deletionIds := by
  obtain ⟨u, hact, rfl⟩ := Option.map_eq_some_iff.mp h
  have hresumed (journal : JobDeletionJournal) (intent : JobDeletionResumeIntent) :
      (DeletionSaga.enter s.plane journal intent).1.deletions = s.plane.deletions :=
    (DeletionSaga.enter_spec s.plane journal intent).2.2.2.1
  cases action with
  | proceed name input => exact .inl ⟨name, input, rfl⟩
  | create name r deletionId =>
    right
    simp only [JobDeletionState.act] at hact
    split at hact
    · rename_i call job hholder
      split at hact
      · cases hact
      · rename_i hfresh
        split at hact
        · rename_i plane hcreate
          cases hact
          obtain ⟨-, hdeletions, -⟩ :=
            hs.journaled.create hholder hfresh (CallResult.run_ok hcreate)
          exact .inr ⟨_, hdeletions, hfresh⟩
        · cases hact
          exact .inl rfl
    · cases hact
  | lookUp | reread | resume =>
    right
    left
    simp only [JobDeletionState.act] at hact
    repeat' split at hact
    all_goals cases hact
    all_goals first | rfl | exact hresumed _ _
  | _ =>
    right
    left
    simp only [JobDeletionState.act] at hact
    repeat' split at hact
    all_goals cases hact
    all_goals rfl

theorem Filed.monotone (hs : s.Filed) {action : JobDeletionAction}
    (h : jobDeletionSystem.step s action = some t) {row j : JobDeletionJournal}
    (hrow : row ∈ s.plane.deletions) (hj : j ∈ t.plane.deletions)
    (hkey : j.deletionId = row.deletionId) : row.stage.Precedes j.stage := by
  have hsame (hold : j ∈ s.plane.deletions) : row.stage.Precedes j.stage := by
    rw [hs.journaled.ids.eq_of_key hold hrow hkey]
    exact .refl _
  rcases hs.deletions_step h with ⟨name, input, rfl⟩ | hdeletions | ⟨new, hdeletions, hfresh⟩
  · obtain ⟨u, hact, rfl⟩ := Option.map_eq_some_iff.mp h
    obtain ⟨g, plane, outcome, hsaga, -, -⟩ := proceed_inv hact
    obtain ⟨own, hown, -, hin⟩ := hs.journaled.row_of_saga hsaga
    obtain ⟨outcome', heffect⟩ := hs.proceed_effect hsaga h hown hin.deletionId
    rcases hs.mem_deletions hown hin.deletionId heffect hj with ⟨hkey', horder⟩ | ⟨hold, -⟩
    · have hsameRow := hs.journaled.ids.eq_of_key hrow hown (hkey.symm.trans hkey')
      subst hsameRow
      exact horder
    · exact hsame hold
  · exact hsame (hdeletions ▸ hj)
  · rw [hdeletions] at hj
    rcases List.mem_append.mp hj with hold | hnew
    · exact hsame hold
    · rw [List.mem_singleton.mp hnew] at hkey
      rw [hkey] at hfresh
      exact absurd (hs.journaled.drawn row hrow).2.2 hfresh

theorem Filed.completed (hs : s.Filed) {report : DeleteReport} (hreport : report ∈ s.reports) :
    (∀ job ∈ s.plane.store.jobs, job.id ≠ report.job.id) ∧
      (∀ run ∈ s.plane.store.runs, run.jobId ≠ report.job.id) ∧
      (∀ runId, (report.job.id, runId) ∈ s.ran → runId ∈ s.handed) ∧
      ∀ j ∈ s.plane.deletions, j.deletionId ≠ report.deletionId := by
  have hjobs := hs.journaled.reported report hreport
  have hruns (run : JobRun) (hrun : run ∈ s.plane.store.runs) : run.jobId ≠ report.job.id := by
    obtain ⟨job, hjob, -, hid⟩ := Store.hasJob_iff.mp (hs.stored.runJob run hrun)
    exact fun hsame => hjobs job hjob (hid.trans hsame)
  refine ⟨hjobs, hruns, ?_, hs.journaled.cleared report hreport⟩
  intro runId hran
  rcases hs.stored.ran _ hran with hhanded | hlisted | ⟨run, hrun, hid, -⟩
  · exact hhanded
  · exact hs.observed _ hlisted
  · exact absurd hid (hruns run hrun)

theorem Filed.lawful (hs : s.Filed) : s.DeletionLawful where
  forward _ _ _ _ hsaga h _ hrow hid hpast := hs.forward hsaga h hrow hid hpast
  rollback _ _ _ _ hsaga h _ hrow hid hstage := by
    obtain ⟨outcome, heffect⟩ := hs.proceed_effect hsaga h hrow hid
    cases heffect with
    | moved f same order deletions store armed rollback running failed => exact rollback hstage
    | cleared deletions store armed ended => exact store
  monotone _ _ h _ hrow _ hj hkey := hs.monotone h hrow hj hkey
  completed _ hreport := hs.completed hreport

/-- The saga of a deletion, over every run whose recoveries resume what is stored. -/
theorem deletionLawful (h : jobDeletionSystem.Run DeletionPermitted {} s) : s.DeletionLawful :=
  (filed_of_run (fun _ _ hc => hc) h).lawful

instance (s : JobDeletionState) (action : JobDeletionAction) :
    Decidable (s.DeletionPermitted action) := by
  unfold DeletionPermitted
  cases action <;> infer_instance

/-- `add_job` for a job that the scheduler takes. -/
def addJob (add : ℕ) (job : Job) : List JobDeletionAction :=
  [.callAdd add job, .listForAdd add .done, .saveAdded add .done, .registerAdded add .done]

/-- `delete_job` up to the moment it has its journal. -/
def beginDelete (name : String) (deletionId : Uuid) : List JobDeletionAction :=
  [.callDelete name true, .lock 0, .lookUp name .done, .list name .done false,
    .create name .done deletionId, .reread name .done]

/-- The calls of a new deletion up to the cancellation boundary. -/
def cancelRuns (name : String) : List JobDeletionAction :=
  [.proceed name (.call .done), .proceed name (.call .done), .proceed name (.call .done),
    .proceed name (.cancel .done 5 [] [])]

/-- The log of a run cannot be removed, and a restart finishes the deletion. -/
def deleteAndRestart : List JobDeletionAction :=
  addJob 0 { id := ⟨1⟩, name := "nightly", trigger := .oneShot 7 } ++
  [.transact (.saveRun { runId := ⟨10⟩, jobName := "nightly", jobId := ⟨1⟩, triggeredBy := .manual
                         scheduledAt := 1, state := .succeeded })] ++
  beginDelete "nightly" 30 ++ cancelRuns "nightly" ++
  [.proceed "nightly" (.call .done), .proceed "nightly" (.drain .done true),
    .proceed "nightly" (.call .done), .proceed "nightly" (.call .done),
    .proceed "nightly" (.call (.failed "busy")), .proceed "nightly" (.call .done),
    .proceed "nightly" (.call .done), .crash, .listJournals .done, .resume,
    .proceed "nightly" (.call .done), .proceed "nightly" (.call .done),
    .proceed "nightly" (.call .done), .proceed "nightly" (.call .done),
    .proceed "nightly" (.call .done)]

theorem deleteAndRestart_lawful :
    ∃ s, (jobDeletionSystem.Run DeletionPermitted {} s ∧ s.reports.length = 1) ∧
      s.DeletionLawful := by
  have hexec : (jobDeletionSystem.execUnder DeletionPermitted {} deleteAndRestart).any (fun s =>
      s.reports.length = 1) = true := by
    decide
  obtain ⟨s, hrun, hreports⟩ := Machine.exists_run_of_execUnder _ deleteAndRestart hexec
  exact ⟨s, ⟨hrun, of_decide_eq_true hreports⟩, deletionLawful hrun⟩

/-- A pass lists two deletions; while it finishes the first, the second passes its
cancellation and fails, and is then resumed as it was listed. -/
def recoverStale : List JobDeletionAction :=
  addJob 0 { id := ⟨1⟩, name := "alpha", trigger := .oneShot 7 } ++
  addJob 1 { id := ⟨2⟩, name := "nightly", trigger := .oneShot 7 } ++
  beginDelete "alpha" 30 ++ cancelRuns "alpha" ++
  [.proceed "alpha" (.call (.failed "disk full"))] ++ beginDelete "nightly" 31 ++
  [.listJournals .done, .resume] ++ cancelRuns "nightly" ++
  [.proceed "nightly" (.call (.failed "disk full")),
    .proceed "alpha" (.call .done), .proceed "alpha" (.drain .done true),
    .proceed "alpha" (.call .done), .proceed "alpha" (.call .done),
    .proceed "alpha" (.call .done), .proceed "alpha" (.call .done), .resume]

/-- The next answer registers a job whose deletion has passed the cancellation. -/
def registersCancelled (s : JobDeletionState) (name : String) : Bool :=
  (s.saga name).any fun g =>
    (s.plane.deletions.any fun row =>
      row.deletionId = g.journal.deletionId && !row.stage.isPreCancellation) &&
    (s.plane.armed name).isNone &&
    (jobDeletionSystem.step s (.proceed name (.call .done))).any fun t =>
      (t.plane.armed name).isSome

theorem not_lawful_of_registersCancelled {name : String} (h : s.registersCancelled name = true) :
    ¬ s.DeletionLawful := by
  intro hlawful
  obtain ⟨g, hsaga, hg⟩ := (Option.any_eq_true _ _).mp h
  rw [Bool.and_eq_true, Bool.and_eq_true] at hg
  obtain ⟨⟨hrows, hnone⟩, hstep⟩ := hg
  obtain ⟨row, hrow, hpast⟩ := List.any_eq_true.mp hrows
  rw [Bool.and_eq_true, decide_eq_true_eq, Bool.not_eq_true'] at hpast
  obtain ⟨t, ht, hsome⟩ := (Option.any_eq_true _ _).mp hstep
  obtain ⟨harmed, -⟩ := hlawful.forward name g _ t hsaga ht row hrow hpast.1 hpast.2
  rw [harmed, Option.isNone_iff_eq_none.mp hnone] at hsome
  cases hsome

/-- A deletion that has cancelled its runs is rolled back. -/
theorem cancelled_deletion_rolled_back :
    ∃ s, jobDeletionSystem.Reaches {} s ∧ ¬ s.DeletionLawful := by
  have hexec : (jobDeletionSystem.exec {} recoverStale).any (fun s =>
      s.registersCancelled "nightly") = true := by
    decide
  obtain ⟨s, hreaches, hregisters⟩ := Machine.exists_reaches_of_exec _ recoverStale hexec
  exact ⟨s, hreaches, not_lawful_of_registersCancelled hregisters⟩

end JobDeletionState

end Supervisor
