import Supervisor.JobDeletionSystem

namespace Supervisor

namespace JobDeletionStage

/-- The order in which a journal may pass the stages. -/
def rank : JobDeletionStage → ℕ
  | .prepared => 0
  | .dispatchFrozen => 1
  | .schedulerUnregistered => 2
  | .rollbackRequired => 3
  | .cancellationStarted => 4
  | .runsDraining => 5
  | .rowsDeleted => 6
  | .logsCleaning => 7
  | .completed => 8

/-- No step back, and none on from a rollback. -/
structure Precedes (a b : JobDeletionStage) : Prop where
  rank : a.rank ≤ b.rank
  rollback : a = .rollbackRequired → b = .rollbackRequired

instance (a b : JobDeletionStage) : Decidable (a.Precedes b) :=
  decidable_of_iff (a.rank ≤ b.rank ∧ (a = .rollbackRequired → b = .rollbackRequired))
    ⟨fun h => ⟨h.1, h.2⟩, fun h => ⟨h.rank, h.rollback⟩⟩

theorem Precedes.refl (a : JobDeletionStage) : a.Precedes a := ⟨le_rfl, id⟩

/-- The job and its runs have been deleted. -/
def rowsGone : JobDeletionStage → Bool
  | .rowsDeleted | .logsCleaning | .completed => true
  | _ => false

end JobDeletionStage

theorem CallResult.run_ok {α : Type} {r : CallResult} {call : Except RepoError α} {a : α}
    (h : r.run call = .ok a) : call = .ok a := by
  cases r with
  | done => exact h
  | failed e => cases h

namespace JobPlane

variable {p p' : JobPlane}

theorem updateJobDeletionJournal_ok {deletionId : Uuid} {stage : JobDeletionStage}
    {error : Option String} (h : p.updateJobDeletionJournal deletionId stage error = .ok p') :
    p' = { p with
      deletions := KeyedRows.update JobDeletionJournal.deletionId deletionId
        (fun j => { j with stage, lastError := error }) p.deletions } := by
  unfold updateJobDeletionJournal at h
  split at h
  · cases h
    rfl
  · cases h

theorem cancelQueuedRuns_ok {deletionId : Uuid} {jobName : String}
    {events : List TransientTerminalEvent}
    (h : p.cancelQueuedRunsForJobDeletion deletionId jobName events = .ok p') :
    ∃ store, p.store.cancelPendingRuns jobName events = .ok store ∧ p' = { p with
      store
      deletions := KeyedRows.update JobDeletionJournal.deletionId deletionId
        (fun j => { j with stage := .cancellationStarted, lastError := none }) p.deletions } := by
  unfold cancelQueuedRunsForJobDeletion at h
  cases hstore : p.store.cancelPendingRuns jobName events with
  | error e =>
    rw [hstore] at h
    cases h
  | ok store =>
    rw [hstore] at h
    dsimp only [Except.bind] at h
    split at h
    · cases h
      exact ⟨store, rfl, rfl⟩
    · cases h

theorem commitJobDeletionRows_ok {deletionId : Uuid} {jobName : String} {runIds : List JobRunId}
    (h : p.commitJobDeletionRows deletionId jobName = .ok (runIds, p')) :
    p' = { p with
      store := p.store.deleteJob jobName
      deletions := KeyedRows.update JobDeletionJournal.deletionId deletionId
        (fun j => { j with stage := .rowsDeleted, runIds, lastError := none }) p.deletions } := by
  unfold commitJobDeletionRows at h
  split at h
  · cases h
  · split at h
    · cases h
    · cases h
      rfl

end JobPlane

namespace DeletionSaga

/-- The stored journal is at the stage that the next call expects. -/
structure InStep (g : DeletionSaga) (row : JobDeletionJournal) : Prop where
  deletionId : row.deletionId = g.journal.deletionId
  job : row.job = g.journal.job
  stage : match g.point with
    | .freezing => row.stage = .prepared
    | .unregistering | .unregistered => row.stage = .dispatchFrozen
    | .cancelling => row.stage = .schedulerUnregistered
    | .startingDrain => row.stage = .cancellationStarted ∨ row.stage = .runsDraining
    | .draining | .deletingRows =>
      row.stage = .runsDraining ∧ g.journal.stage = .runsDraining
    | .startingCleaning => row.stage = .rowsDeleted ∨ row.stage = .logsCleaning
    | .removing .. | .removed .. | .removalFailed _ | .completing =>
      row.stage = .logsCleaning ∧ g.journal.stage = .logsCleaning
    | .failing _ => row.stage = g.journal.stage ∧
      (row.stage = .runsDraining ∨ row.stage = .logsCleaning)
    | .clearing => row.stage = .completed
    | .directing .. => row.stage = .dispatchFrozen ∨ row.stage = .schedulerUnregistered
    | .reregistering _ | .clearingRollback _ => row.stage.isPreCancellation = true

/-- A rollback that answers `Ok`. -/
def answersRollback (g : DeletionSaga) : Bool :=
  match g.point with
  | .reregistering (.ok ()) | .clearingRollback (.ok ()) => true
  | _ => false

/-- What one step of a deletion changes, when its stored journal is `row`. -/
inductive Effect (p : JobPlane) (g : DeletionSaga) (row : JobDeletionJournal) :
    JobPlane → DeletionOutcome → Prop
  | moved {p' : JobPlane} {outcome : DeletionOutcome}
    (f : JobDeletionJournal → JobDeletionJournal)
    (same : ∀ j, (f j).deletionId = j.deletionId ∧ (f j).job = j.job)
    (order : row.stage.Precedes (f row).stage)
    (deletions : p'.deletions =
      KeyedRows.update JobDeletionJournal.deletionId g.journal.deletionId f p.deletions)
    (store : p.store.SameIdentities p'.store ∧ (f row).stage.rowsGone = row.stage.rowsGone ∨
      row.stage = .runsDraining ∧ (f row).stage = .rowsDeleted ∧
        p'.store = p.store.deleteJob g.journal.job.name)
    (armed : row.stage.isPreCancellation = false → p'.armed = p.armed)
    (rollback : row.stage = .rollbackRequired → p'.store = p.store)
    (running : ∀ g', outcome = .running g' →
      g'.InStep (f row) ∧ (g'.answersRollback = true → g.answersRollback = true))
    (failed : outcome ≠ .finished (.ok ())) : Effect p g row p' outcome
  | cleared {p' : JobPlane} {result : Except AppError Unit}
    (deletions : p'.deletions = p.deletions.filter fun j => j.deletionId ≠ g.journal.deletionId)
    (store : p'.store = p.store) (armed : p'.armed = p.armed)
    (ended : row.stage = .completed ∧ g.point = .clearing ∨
      row.stage.isPreCancellation = true ∧ g.point = .clearingRollback result) :
    Effect p g row p' (.finished result)

variable {p p' : JobPlane} {g : DeletionSaga} {row : JobDeletionJournal}
  {outcome : DeletionOutcome}

/-- The journal stays as it is. -/
theorem Effect.stayed (hdeletions : p'.deletions = p.deletions)
    (hstore : p'.store = p.store ∨ p.store.SameIdentities p'.store ∧ row.stage ≠ .rollbackRequired)
    (harmed : row.stage.isPreCancellation = false → p'.armed = p.armed)
    (hrunning : ∀ g', outcome = .running g' →
      g'.InStep row ∧ (g'.answersRollback = true → g.answersRollback = true))
    (hfailed : outcome ≠ .finished (.ok ())) : Effect p g row p' outcome := by
  apply Effect.moved id
  · exact fun _ => ⟨rfl, rfl⟩
  · exact .refl _
  · rw [KeyedRows.update_id, hdeletions]
  · left
    refine ⟨?_, rfl⟩
    rcases hstore with hsame | ⟨hids, -⟩
    · rw [hsame]
      exact .refl _
    · exact hids
  · exact harmed
  · intro hstage
    rcases hstore with hsame | ⟨-, hother⟩
    · exact hsame
    · exact absurd hstage hother
  · exact hrunning
  · exact hfailed

/-- The journal is recorded at a stage that it may go on to. -/
theorem Effect.recorded {stage : JobDeletionStage} {error : Option String}
    (hp : p' = { p with
      deletions := KeyedRows.update JobDeletionJournal.deletionId g.journal.deletionId
        (fun j => { j with stage, lastError := error }) p.deletions })
    (horder : row.stage.Precedes stage) (hrows : stage.rowsGone = row.stage.rowsGone)
    (hrunning : ∀ g', outcome = .running g' →
      g'.InStep { row with stage, lastError := error } ∧
        (g'.answersRollback = true → g.answersRollback = true))
    (hfailed : outcome ≠ .finished (.ok ())) : Effect p g row p' outcome := by
  subst hp
  apply Effect.moved (fun j => { j with stage, lastError := error })
  · exact fun _ => ⟨rfl, rfl⟩
  · exact horder
  · rfl
  · exact .inl ⟨.refl _, hrows⟩
  · exact fun _ => rfl
  · exact fun _ => rfl
  · exact hrunning
  · exact hfailed

theorem not_ok_of_error {e : AppError} : (DeletionOutcome.finished (.error e)) ≠ .finished (.ok ()) :=
  fun h => by cases h

/-- Recording a stage before the saga goes on. -/
theorem Effect.of_record {r : CallResult} {stage : JobDeletionStage} {point : DeletionPoint}
    (horder : row.stage.Precedes stage) (hrows : stage.rowsGone = row.stage.rowsGone)
    (hnext : InStep ⟨{ g.journal with stage }, point⟩ { row with stage, lastError := none })
    (hpoint : answersRollback ⟨{ g.journal with stage }, point⟩ = false)
    (h : record p g r stage point = (p', outcome)) : Effect p g row p' outcome := by
  unfold record at h
  cases hupdate : r.run (p.updateJobDeletionJournal g.journal.deletionId stage none) with
  | ok u =>
    rw [hupdate] at h
    cases h
    have hp := JobPlane.updateJobDeletionJournal_ok (CallResult.run_ok hupdate)
    apply Effect.recorded hp horder hrows
    · intro g' hg'
      cases hg'
      refine ⟨hnext, fun hanswers => ?_⟩
      rw [hpoint] at hanswers
      cases hanswers
    · exact fun hf => by cases hf
  | error e =>
    rw [hupdate] at h
    cases h
    exact .stayed rfl (.inl rfl) (fun _ => rfl) (fun _ hg' => by cases hg') not_ok_of_error

theorem Effect.of_goTo {point : DeletionPoint} (hdeletions : p'.deletions = p.deletions)
    (hstore : p'.store = p.store ∨ p.store.SameIdentities p'.store ∧ row.stage ≠ .rollbackRequired)
    (harmed : row.stage.isPreCancellation = false → p'.armed = p.armed)
    (hnext : InStep ⟨g.journal, point⟩ row)
    (hpoint : answersRollback ⟨g.journal, point⟩ = true → g.answersRollback = true) :
    Effect p g row p' (g.goTo point) := by
  apply Effect.stayed hdeletions hstore harmed
  · intro g' hg'
    cases hg'
    exact ⟨hnext, hpoint⟩
  · exact fun hf => by cases hf

theorem Effect.of_failed {e : AppError} (hdeletions : p'.deletions = p.deletions)
    (hstore : p'.store = p.store) (harmed : p'.armed = p.armed) :
    Effect p g row p' (.finished (.error e)) :=
  .stayed hdeletions (.inl hstore) (fun _ => harmed) (fun _ hg' => by cases hg') not_ok_of_error

theorem cleanNext_stage (row journal : JobDeletionJournal) (rest : List JobRunId)
    (hid : row.deletionId = journal.deletionId) (hjob : row.job = journal.job)
    (hrow : row.stage = .logsCleaning) (hstage : journal.stage = .logsCleaning) :
    InStep ⟨journal, cleanNext rest⟩ row ∧ answersRollback ⟨journal, cleanNext rest⟩ = false := by
  cases rest with
  | nil => exact ⟨⟨hid, hjob, hrow, hstage⟩, rfl⟩
  | cons runId rest => exact ⟨⟨hid, hjob, hrow, hstage⟩, rfl⟩

/-- A journal is entered at the point of its stage. -/
theorem enter_spec (p : JobPlane) (journal : JobDeletionJournal) (intent : JobDeletionResumeIntent) :
    (enter p journal intent).2.InStep journal ∧ (enter p journal intent).2.journal = journal ∧
      (enter p journal intent).1.store = p.store ∧
      (enter p journal intent).1.deletions = p.deletions ∧
      (enter p journal intent).1.armed = p.armed := by
  unfold enter
  split
  · rename_i hback
    refine ⟨⟨rfl, rfl, ?_⟩, rfl, rfl, rfl, rfl⟩
    show journal.stage.isPreCancellation = true
    rw [Bool.or_eq_true, decide_eq_true_eq, Bool.and_eq_true] at hback
    rcases hback with hstage | ⟨-, hpre⟩
    · rw [hstage]
      rfl
    · exact hpre
  · refine ⟨⟨rfl, rfl, ?_⟩, rfl, rfl, rfl, rfl⟩
    cases journal.stage <;> simp [JobDeletionStage.isPreCancellation]

theorem enter_answersRollback {journal : JobDeletionJournal}
    (hstage : journal.stage ≠ .rollbackRequired) :
    (enter p journal .foreground).2.answersRollback = false := by
  have hforward : (journal.stage = .rollbackRequired ||
      (JobDeletionResumeIntent.foreground = .recovery && journal.stage.isPreCancellation)) = false := by
    simp [hstage]
  unfold enter
  rw [if_neg (by rw [hforward]; exact Bool.false_ne_true)]
  cases h : journal.stage with
  | rollbackRequired => exact absurd h hstage
  | _ => rfl

/-- Every call of a deletion, with every answer. -/
theorem Effect.of_step (hrow : g.InStep row) {input : DeletionInput}
    (h : g.step p input = some (p', outcome)) : Effect p g row p' outcome := by
  obtain ⟨hid, hjob, hstage⟩ := hrow
  obtain ⟨journal, point⟩ := g
  dsimp only at hid hjob
  cases point with
  | freezing =>
    cases input with
    | call r =>
      simp only [step] at h
      cases hupdate : r.run (p.updateJobDeletionJournal journal.deletionId .dispatchFrozen none) with
      | ok u =>
        rw [hupdate] at h
        cases h
        have hstage : row.stage = .prepared := hstage
        have hp := JobPlane.updateJobDeletionJournal_ok (CallResult.run_ok hupdate)
        apply Effect.recorded hp
        · rw [hstage]
          decide
        · rw [hstage]
          rfl
        · intro g' hg'
          cases hg'
          exact ⟨⟨hid, hjob, rfl⟩, fun hanswers => by cases hanswers⟩
        · exact fun hf => by cases hf
      | error e =>
        rw [hupdate] at h
        cases h
        exact .of_failed rfl rfl rfl
    | cancel | drain => cases h
  | unregistering =>
    have hstage : row.stage = .dispatchFrozen := hstage
    cases input with
    | call r =>
      cases r with
      | done =>
        cases h
        apply Effect.of_goTo
        · rfl
        · exact .inl rfl
        · intro hpre
          rw [hstage] at hpre
          cases hpre
        · exact ⟨hid, hjob, hstage⟩
        · exact fun hanswers => by cases hanswers
      | failed e =>
        cases h
        exact .of_goTo rfl (.inl rfl) (fun _ => rfl) ⟨hid, hjob, .inl hstage⟩ fun ha => by cases ha
    | cancel | drain => cases h
  | unregistered =>
    have hstage : row.stage = .dispatchFrozen := hstage
    cases input with
    | call r =>
      simp only [step, Option.some.injEq] at h
      refine Effect.of_record ?_ ?_ ?_ ?_ h
      · rw [hstage]
        decide
      · rw [hstage]
        rfl
      · exact ⟨hid, hjob, rfl⟩
      · rfl
    | cancel | drain => cases h
  | cancelling =>
    have hstage : row.stage = .schedulerUnregistered := hstage
    cases input with
    | cancel r now queued ids =>
      simp only [step] at h
      cases hcancel : r.run (p.cancelQueuedRunsForJobDeletion journal.deletionId journal.job.name
          (TerminalState.cancelledEvents journal.job.name queued now ids)) with
      | ok u =>
        rw [hcancel] at h
        cases h
        obtain ⟨store, hstore, rfl⟩ := JobPlane.cancelQueuedRuns_ok (CallResult.run_ok hcancel)
        have hids := Store.cancelPendingRuns_identities hstore
        apply Effect.moved (fun j => { j with stage := .cancellationStarted, lastError := none })
        · exact fun _ => ⟨rfl, rfl⟩
        · rw [hstage]
          show JobDeletionStage.schedulerUnregistered.Precedes .cancellationStarted
          decide
        · rfl
        · refine .inl ⟨hids, ?_⟩
          rw [hstage]
          rfl
        · exact fun _ => rfl
        · intro hback
          rw [hstage] at hback
          cases hback
        · intro g' hg'
          cases hg'
          exact ⟨⟨hid, hjob, .inl rfl⟩, fun hanswers => by cases hanswers⟩
        · exact fun hf => by cases hf
      | error e =>
        rw [hcancel] at h
        cases h
        exact .of_goTo rfl (.inl rfl) (fun _ => rfl) ⟨hid, hjob, .inr hstage⟩ fun ha => by cases ha
    | call | drain => cases h
  | startingDrain =>
    have hstage : row.stage = .cancellationStarted ∨ row.stage = .runsDraining := hstage
    cases input with
    | call r =>
      simp only [step, Option.some.injEq] at h
      refine Effect.of_record ?_ ?_ ?_ ?_ h
      · rcases hstage with hstage | hstage <;> rw [hstage] <;> decide
      · rcases hstage with hstage | hstage <;> rw [hstage] <;> rfl
      · exact ⟨hid, hjob, rfl, rfl⟩
      · rfl
    | cancel | drain => cases h
  | draining =>
    obtain ⟨hstage, hcopy⟩ : row.stage = .runsDraining ∧ journal.stage = .runsDraining := hstage
    have hfailing (error : String) : Effect p ⟨journal, .draining⟩ row p
        (goTo ⟨journal, .draining⟩ (.failing error)) :=
      .of_goTo rfl (.inl rfl) (fun _ => rfl) ⟨hid, hjob, hstage.trans hcopy.symm, .inl hstage⟩
        fun ha => by cases ha
    cases input with
    | drain joined idle =>
      cases joined with
      | failed e =>
        cases h
        exact hfailing _
      | done =>
        cases idle with
        | true =>
          cases h
          exact .of_goTo rfl (.inl rfl) (fun _ => rfl) ⟨hid, hjob, hstage, hcopy⟩
            fun ha => by cases ha
        | false =>
          cases h
          exact hfailing _
    | call | cancel => cases h
  | deletingRows =>
    obtain ⟨hstage, hcopy⟩ : row.stage = .runsDraining ∧ journal.stage = .runsDraining := hstage
    cases input with
    | call r =>
      simp only [step] at h
      cases hcommit : r.run (p.commitJobDeletionRows journal.deletionId journal.job.name) with
      | ok u =>
        obtain ⟨runIds, u⟩ := u
        rw [hcommit] at h
        cases h
        have hp := JobPlane.commitJobDeletionRows_ok (CallResult.run_ok hcommit)
        subst hp
        apply Effect.moved (fun j => { j with stage := .rowsDeleted, runIds, lastError := none })
        · exact fun _ => ⟨rfl, rfl⟩
        · rw [hstage]
          show JobDeletionStage.runsDraining.Precedes .rowsDeleted
          decide
        · rfl
        · exact .inr ⟨hstage, rfl, rfl⟩
        · exact fun _ => rfl
        · intro hback
          rw [hstage] at hback
          cases hback
        · intro g' hg'
          cases hg'
          exact ⟨⟨hid, hjob, .inl rfl⟩, fun hanswers => by cases hanswers⟩
        · exact fun hf => by cases hf
      | error e =>
        rw [hcommit] at h
        cases h
        exact .of_goTo rfl (.inl rfl) (fun _ => rfl)
          ⟨hid, hjob, hstage.trans hcopy.symm, .inl hstage⟩ fun ha => by cases ha
    | cancel | drain => cases h
  | startingCleaning =>
    have hstage : row.stage = .rowsDeleted ∨ row.stage = .logsCleaning := hstage
    cases input with
    | call r =>
      simp only [step, Option.some.injEq] at h
      refine Effect.of_record ?_ ?_ ?_ ?_ h
      · rcases hstage with hstage | hstage <;> rw [hstage] <;> decide
      · rcases hstage with hstage | hstage <;> rw [hstage] <;> rfl
      · exact (cleanNext_stage { row with stage := .logsCleaning, lastError := none }
          { journal with stage := .logsCleaning } journal.runIds hid hjob rfl rfl).1
      · exact (cleanNext_stage { row with stage := .logsCleaning, lastError := none }
          { journal with stage := .logsCleaning } journal.runIds hid hjob rfl rfl).2
    | cancel | drain => cases h
  | removing runId rest =>
    obtain ⟨hstage, hcopy⟩ : row.stage = .logsCleaning ∧ journal.stage = .logsCleaning := hstage
    cases input with
    | call r =>
      cases r with
      | done =>
        cases h
        exact .of_goTo rfl (.inl rfl) (fun _ => rfl) ⟨hid, hjob, hstage, hcopy⟩ fun ha => by cases ha
      | failed e =>
        cases h
        exact .of_goTo rfl (.inl rfl) (fun _ => rfl) ⟨hid, hjob, hstage, hcopy⟩ fun ha => by cases ha
    | cancel | drain => cases h
  | removed runId rest =>
    obtain ⟨hstage, hcopy⟩ : row.stage = .logsCleaning ∧ journal.stage = .logsCleaning := hstage
    cases input with
    | call r =>
      cases r with
      | done =>
        cases h
        obtain ⟨hnext, hanswers⟩ := cleanNext_stage row journal rest hid hjob hstage hcopy
        apply Effect.of_goTo
        · rfl
        · right
          refine ⟨⟨rfl, rfl⟩, fun hback => ?_⟩
          rw [hstage] at hback
          cases hback
        · exact fun _ => rfl
        · exact hnext
        · intro ha
          rw [hanswers] at ha
          cases ha
      | failed e =>
        cases h
        exact .of_failed rfl rfl rfl
    | cancel | drain => cases h
  | removalFailed e =>
    obtain ⟨hstage, hcopy⟩ : row.stage = .logsCleaning ∧ journal.stage = .logsCleaning := hstage
    cases input with
    | call r =>
      cases h
      exact .of_goTo rfl (.inl rfl) (fun _ => rfl)
        ⟨hid, hjob, hstage.trans hcopy.symm, .inr hstage⟩ fun ha => by cases ha
    | cancel | drain => cases h
  | failing error =>
    obtain ⟨hcopy, -⟩ : row.stage = journal.stage ∧
      (row.stage = .runsDraining ∨ row.stage = .logsCleaning) := hstage
    cases input with
    | call r =>
      simp only [step] at h
      cases hupdate : r.run
          (p.updateJobDeletionJournal journal.deletionId journal.stage (some error)) with
      | ok u =>
        rw [hupdate] at h
        cases h
        have hp := JobPlane.updateJobDeletionJournal_ok (CallResult.run_ok hupdate)
        apply Effect.recorded hp
        · rw [hcopy]
          exact .refl _
        · rw [hcopy]
        · exact fun g' hg' => by cases hg'
        · exact not_ok_of_error
      | error e =>
        rw [hupdate] at h
        cases h
        exact .of_failed rfl rfl rfl
    | cancel | drain => cases h
  | completing =>
    obtain ⟨hstage, -⟩ : row.stage = .logsCleaning ∧ journal.stage = .logsCleaning := hstage
    cases input with
    | call r =>
      simp only [step] at h
      cases hupdate : r.run (p.updateJobDeletionJournal journal.deletionId .completed none) with
      | ok u =>
        rw [hupdate] at h
        cases h
        have hp := JobPlane.updateJobDeletionJournal_ok (CallResult.run_ok hupdate)
        apply Effect.recorded hp
        · rw [hstage]
          decide
        · rw [hstage]
          rfl
        · intro g' hg'
          cases hg'
          exact ⟨⟨hid, hjob, rfl⟩, fun hanswers => by cases hanswers⟩
        · exact fun hf => by cases hf
      | error e =>
        rw [hupdate] at h
        cases h
        exact .of_failed rfl rfl rfl
    | cancel | drain => cases h
  | clearing =>
    cases input with
    | call r =>
      cases r with
      | done =>
        cases h
        exact .cleared rfl rfl rfl (.inl ⟨hstage, rfl⟩)
      | failed e =>
        cases h
        exact .of_failed rfl rfl rfl
    | cancel | drain => cases h
  | directing message error =>
    have hstage : row.stage = .dispatchFrozen ∨ row.stage = .schedulerUnregistered := hstage
    cases input with
    | call r =>
      simp only [step] at h
      cases hupdate : r.run (p.updateJobDeletionJournal journal.deletionId .rollbackRequired
          (some message)) with
      | ok u =>
        rw [hupdate] at h
        cases h
        have hp := JobPlane.updateJobDeletionJournal_ok (CallResult.run_ok hupdate)
        apply Effect.recorded hp
        · rcases hstage with hstage | hstage <;> rw [hstage] <;> decide
        · rcases hstage with hstage | hstage <;> rw [hstage] <;> rfl
        · intro g' hg'
          cases hg'
          exact ⟨⟨hid, hjob, rfl⟩, fun hanswers => by cases hanswers⟩
        · exact fun hf => by cases hf
      | error e =>
        rw [hupdate] at h
        cases h
        have hpre : row.stage.isPreCancellation = true := by
          rcases hstage with hstage | hstage <;> rw [hstage] <;> rfl
        exact .of_goTo rfl (.inl rfl) (fun _ => rfl) ⟨hid, hjob, hpre⟩ fun ha => by cases ha
    | cancel | drain => cases h
  | reregistering result =>
    have hstage : row.stage.isPreCancellation = true := hstage
    cases input with
    | call r =>
      cases r with
      | done =>
        cases h
        apply Effect.of_goTo
        · rfl
        · exact .inl rfl
        · intro hpre
          rw [hstage] at hpre
          cases hpre
        · exact ⟨hid, hjob, hstage⟩
        · intro ha
          cases result with
          | ok => rfl
          | error => cases ha
      | failed e =>
        cases h
        exact .of_failed rfl rfl rfl
    | cancel | drain => cases h
  | clearingRollback result =>
    cases input with
    | call r =>
      cases r with
      | done =>
        cases h
        exact .cleared rfl rfl rfl (.inr ⟨hstage, rfl⟩)
      | failed e =>
        cases h
        exact .of_failed rfl rfl rfl
    | cancel | drain => cases h

end DeletionSaga

end Supervisor
