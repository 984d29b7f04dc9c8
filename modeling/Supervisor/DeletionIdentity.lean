import Supervisor.DeletionDirection

namespace Supervisor

namespace Store

variable {s t : Store}

theorem id_of_hasJob (hu : KeyedRows.Unique Job.name s.jobs) {job : Job} {id : JobId}
    (hjob : job ∈ s.jobs) (h : s.hasJob job.name id = true) : id = job.id := by
  obtain ⟨other, hother, hname, rfl⟩ := hasJob_iff.mp h
  rw [hu.eq_of_key hother hjob hname]

/-- The rows that go with a name belong to the id it is stored with. -/
theorem deleteJob_removes (hu : KeyedRows.Unique Job.name s.jobs)
    (hparents : ∀ run ∈ s.runs, s.hasJob run.jobName run.jobId = true) {name : String} {id : JobId}
    (hnamed : s.hasJob name id = true) :
    (∀ job ∈ s.jobs, job ∉ (s.deleteJob name).jobs → job.id = id) ∧
      ∀ run ∈ s.runs, run ∉ (s.deleteJob name).runs → run.jobId = id := by
  have hid {job : Job} (hjob : job ∈ s.jobs) (hname : job.name = name) : job.id = id := by
    rw [← hname] at hnamed
    exact (id_of_hasJob hu hjob hnamed).symm
  constructor
  · intro job hjob hgone
    apply hid hjob
    by_contra hname
    exact hgone (mem_deleteJob.mpr ⟨hjob, hname⟩)
  · intro run hrun hgone
    have hname : run.jobName = name := by
      by_contra hname
      exact hgone (List.mem_filter.mpr ⟨hrun, by simpa using hname⟩)
    obtain ⟨job, hjob, hjobName, hjobId⟩ := hasJob_iff.mp (hparents run hrun)
    rw [← hjobId]
    exact hid hjob (hjobName.trans hname)

end Store

namespace JobDeletionState

variable {s t : JobDeletionState}

/-- No job is stored under the id. -/
def Gone (s : JobDeletionState) (id : JobId) : Prop := ∀ job ∈ s.plane.store.jobs, job.id ≠ id

instance (s : JobDeletionState) (id : JobId) : Decidable (s.Gone id) := by
  unfold Gone
  infer_instance

/-- The call that is about to look for a journal of the name. -/
def lookingCall (s : JobDeletionState) (name : String) : Option DeleteCall :=
  match s.holders name with
  | some (.deleting call .looking) => some call
  | _ => none

/-- The job that is about to get a journal under the name. -/
def listedJob (s : JobDeletionState) (name : String) : Option Job :=
  match s.holders name with
  | some (.deleting _ (.creating job)) => some job
  | _ => none

/-- The job whose row `add_job` is about to remove again. -/
def refusedJob (s : JobDeletionState) (add : ℕ) : Option Job :=
  match s.adds add with
  | some ⟨job, .removing _⟩ => some job
  | _ => none

/-- The condition on a step: besides what the direction of a deletion asks for, a call finds
a journal of the job that was stored when it began, a journal is created for the job that is
stored, and `add_job` removes no row that a journal still has to delete. -/
def NamedPermitted (s : JobDeletionState) (action : JobDeletionAction) : Prop :=
  s.DeletionPermitted action ∧ match action with
    | .lookUp name _ => ∀ call ∈ s.lookingCall name,
      ∀ journal ∈ s.plane.getJobDeletionJournal name,
        ∀ id ∈ call.began, id = journal.job.id ∨ s.Gone id
    | .create name _ _ => ∀ job ∈ s.listedJob name, s.plane.store.hasJob name job.id = true
    | .removeAdded add _ => ∀ job ∈ s.refusedJob add,
      ∀ j ∈ s.plane.deletions, j.jobName = job.name → j.stage.rowsGone = true
    | _ => True

/-- A deletion acts on the job it names. -/
structure ActsOnNamed (s : JobDeletionState) : Prop where
  /-- The job that was stored when a call of `delete_job` began is not stored once the call has
  answered `Ok`. -/
  answered : ∀ report ∈ s.reports, ∀ id ∈ report.began, s.Gone id
  /-- A deletion removes no definition but that of its own job. -/
  jobs : ∀ name g input t, s.saga name = some g →
    jobDeletionSystem.step s (.proceed name input) = some t →
    ∀ job ∈ s.plane.store.jobs, job ∉ t.plane.store.jobs → job.id = g.journal.job.id
  /-- A deletion removes no run but those of its own job. -/
  runs : ∀ name g input t, s.saga name = some g →
    jobDeletionSystem.step s (.proceed name input) = some t →
    ∀ run ∈ s.plane.store.runs, (∀ row ∈ t.plane.store.runs, row.identity ≠ run.identity) →
      run.jobId = g.journal.job.id

/-- What the caller's job is to a call of `delete_job` at a stage. -/
def Answers (s : JobDeletionState) (name : String) (id : JobId) : DeleteStage → Prop
  | .looking | .listing => True
  | .creating job => id = job.id ∨ s.Gone id
  | .rereading => ∀ j ∈ s.plane.deletions, j.jobName = name → id = j.job.id ∨ s.Gone id
  | .resuming g => id = g.journal.job.id ∨ s.Gone id

/-- An id that was drawn for a job of the name, and stored. -/
def Knows (s : JobDeletionState) (name : String) (id : JobId) : Prop :=
  s.names id = some name ∧ id ∈ s.saved

/-- The journals and the calls keep to the ids that the names stand for. -/
structure Named (s : JobDeletionState) : Prop where
  /-- A journal that has rows to delete is about the job that is stored under its name. -/
  present : ∀ j ∈ s.plane.deletions, j.stage.rowsGone = false →
    s.plane.store.hasJob j.jobName j.job.id = true
  waiting : ∀ c ∈ s.waiting, ∀ id ∈ c.began, s.Knows c.name id
  began : ∀ name call stage, s.holders name = some (.deleting call stage) →
    ∀ id ∈ call.began, s.Knows name id ∧ s.Answers name id stage
  answered : ∀ report ∈ s.reports, ∀ id ∈ report.began, id ∈ s.saved ∧ s.Gone id

theorem Answers.mono {name : String} {id : JobId} {stage : DeleteStage}
    (h : s.Answers name id stage) (hgone : s.Gone id → t.Gone id)
    (hjournals : ∀ j ∈ t.plane.deletions, j.jobName = name →
      ∃ old ∈ s.plane.deletions, old.jobName = name ∧ old.job = j.job) :
    t.Answers name id stage := by
  cases stage with
  | looking | listing => trivial
  | creating job => exact h.imp_right hgone
  | rereading =>
    intro j hj hname
    obtain ⟨old, hold, holdName, hjob⟩ := hjournals j hj hname
    rw [← hjob]
    exact (h old hold holdName).imp_right hgone
  | resuming g => exact h.imp_right hgone

/-- A step that brings back no id that was saved, and whose journals are about the same jobs. -/
theorem Named.frame (hs : s.Named)
    (hsaved : s.saved ⊆ t.saved)
    (hnames : ∀ id name, s.names id = some name → t.names id = some name)
    (hjobs : ∀ job ∈ t.plane.store.jobs, job.id ∈ s.saved →
      ∃ old ∈ s.plane.store.jobs, old.id = job.id)
    (hpresent : ∀ j ∈ t.plane.deletions, j.stage.rowsGone = false →
      t.plane.store.hasJob j.jobName j.job.id = true)
    (hwaiting : ∀ c ∈ t.waiting, c ∈ s.waiting ∨ ∀ id ∈ c.began, s.Knows c.name id)
    (hholders : ∀ name call stage, t.holders name = some (.deleting call stage) →
      (s.holders name = some (.deleting call stage) ∧
        ∀ j ∈ t.plane.deletions, j.jobName = name →
          ∃ old ∈ s.plane.deletions, old.jobName = name ∧ old.job = j.job) ∨
      ∀ id ∈ call.began, s.Knows name id ∧ t.Answers name id stage)
    (hreports : ∀ report ∈ t.reports, report ∈ s.reports ∨
      ∀ id ∈ report.began, id ∈ s.saved ∧ s.Gone id) : t.Named := by
  have hgone {id : JobId} (hid : id ∈ s.saved) (h : s.Gone id) : t.Gone id := by
    intro job hjob hsame
    obtain ⟨old, hold, hsameOld⟩ := hjobs job hjob (hsame ▸ hid)
    exact h old hold (hsameOld.trans hsame)
  have hknows {name : String} {id : JobId} (h : s.Knows name id) : t.Knows name id :=
    ⟨hnames _ _ h.1, hsaved h.2⟩
  constructor
  case present => exact hpresent
  case waiting =>
    intro c hc id hid
    apply hknows
    rcases hwaiting c hc with hold | hnew
    · exact hs.waiting c hold id hid
    · exact hnew id hid
  case began =>
    intro name call stage hholder id hid
    rcases hholders name call stage hholder with ⟨hold, hjournals⟩ | hnew
    · obtain ⟨hk, hanswers⟩ := hs.began name call stage hold id hid
      exact ⟨hknows hk, hanswers.mono (hgone hk.2) hjournals⟩
    · obtain ⟨hk, hanswers⟩ := hnew id hid
      exact ⟨hknows hk, hanswers⟩
  case answered =>
    intro report hreport id hid
    have hold : id ∈ s.saved ∧ s.Gone id := by
      rcases hreports report hreport with hold | hnew
      · exact hs.answered report hold id hid
      · exact hnew id hid
    exact ⟨hsaved hold.1, hgone hold.1 hold.2⟩

/-- Memory that neither the journals nor the calls are about. -/
theorem Named.congr (hs : s.Named) (hdeletions : t.plane.deletions = s.plane.deletions)
    (hjobs : t.plane.store.jobs = s.plane.store.jobs) (hreports : t.reports = s.reports)
    (hsaved : t.saved = s.saved) (hnames : t.names = s.names) (hwaiting : t.waiting = s.waiting)
    (hholders : t.holders = s.holders) : t.Named := by
  apply hs.frame
  · rw [hsaved]
  · rw [hnames]
    exact fun _ _ h => h
  · rw [hjobs]
    exact fun job hjob _ => ⟨job, hjob, rfl⟩
  · rw [hdeletions, Store.hasJob_congr hjobs]
    exact hs.present
  · rw [hwaiting]
    exact fun _ hc => .inl hc
  · rw [hholders, hdeletions]
    exact fun _ _ _ h => .inl ⟨h, fun j hj hname => ⟨j, hj, hname, rfl⟩⟩
  · rw [hreports]
    exact fun _ hreport => .inl hreport

/-- The holder of one lock goes on or lets it go. -/
theorem Named.setHolder (hs : s.Named) {name : String} {new : Option JobLockHolder}
    (hnew : ∀ call stage, new = some (.deleting call stage) →
      ∀ id ∈ call.began, s.Knows name id ∧ s.Answers name id stage) :
    (s.setHolder name new).Named := by
  apply hs.frame
  · exact Finset.Subset.refl _
  · exact fun _ _ h => h
  · exact fun job hjob _ => ⟨job, hjob, rfl⟩
  · exact hs.present
  · exact fun _ hc => .inl hc
  · intro m call stage h
    rcases holders_setHolder h with ⟨rfl, hholder⟩ | ⟨-, hold⟩
    · exact .inr (hnew call stage hholder)
    · exact .inl ⟨hold, fun j hj hname => ⟨j, hj, hname, rfl⟩⟩
  · exact fun _ hreport => .inl hreport

theorem Named.release (hs : s.Named) (name : String) : (s.setHolder name none).Named :=
  hs.setHolder fun _ _ h => by cases h

/-- The job under the name, seen by a call that began with another one. -/
theorem Filed.began_listed (hs : s.Filed) {name : String} {job : Job} {id : JobId}
    (hjob : s.plane.store.getJob name = some job) (hknows : s.Knows name id) :
    id = job.id ∨ s.Gone id := by
  obtain ⟨hmem, rfl⟩ := Store.getJob_mem hjob
  by_cases hid : id = job.id
  · exact .inl hid
  · right
    intro other hother hsame
    -- a job of this id bears the name, which is taken by another id
    obtain ⟨hname, -⟩ := hs.stored.jobDrawn other hother
    rw [hsame, hknows.1, Option.some.injEq] at hname
    have heq := hs.stored.jobNames.eq_of_key hother hmem hname.symm
    exact hid (hsame.symm.trans (congrArg Job.id heq))

/-- A stored journal is resumed by a call. -/
theorem Named.resumeForeground (hs : s.Named) {name : String} {call : DeleteCall}
    {stage : DeleteStage} {journal : JobDeletionJournal}
    (hholder : s.holders name = some (.deleting call stage))
    (hbegan : ∀ id ∈ call.began, id = journal.job.id ∨ s.Gone id) :
    (s.resumeForeground name call journal).Named := by
  obtain ⟨-, hjournal, hstore, hdeletions, -⟩ :=
    DeletionSaga.enter_spec s.plane journal .foreground
  have hentered : Named { s with plane := (DeletionSaga.enter s.plane journal .foreground).1 } :=
    hs.congr hdeletions (congrArg Store.jobs hstore) rfl rfl rfl rfl rfl
  apply hentered.setHolder
  intro call' stage' hnew id hid
  cases hnew
  refine ⟨(hs.began name call stage hholder id hid).1, ?_⟩
  show id = (DeletionSaga.enter s.plane journal .foreground).2.journal.job.id ∨
    ∀ job ∈ (DeletionSaga.enter s.plane journal .foreground).1.store.jobs, job.id ≠ id
  rw [hjournal, hstore]
  exact hbegan id hid

/-- The journal of a new deletion is stored. -/
theorem Named.create (hs : s.Named) (hf : s.Filed) {name : String} {call : DeleteCall} {job : Job}
    {deletionId : Uuid} {plane : JobPlane}
    (hholder : s.holders name = some (.deleting call (.creating job)))
    (hfresh : deletionId ∉ s.deletionIds) (hstored : s.plane.store.hasJob name job.id = true)
    (h : s.plane.createJobDeletionJournal { deletionId, job, stage := .prepared } = .ok plane) :
    ({ s with
      plane
      deletionIds := insert deletionId s.deletionIds }.setHolder name
        (some (.deleting call .rereading))).Named := by
  obtain ⟨hstore, hdeletions, -⟩ := hf.journaled.create hholder hfresh h
  obtain ⟨hnone, hname, -, -⟩ := hf.journaled.holder name _ hholder
  have hcases {j : JobDeletionJournal} (hj : j ∈ plane.deletions) :
      j ∈ s.plane.deletions ∨ j = { deletionId, job, stage := .prepared } := by
    rw [hdeletions] at hj
    rcases List.mem_append.mp hj with hold | hnew
    · exact .inl hold
    · exact .inr (List.mem_singleton.mp hnew)
  have hjobs : plane.store.jobs = s.plane.store.jobs := congrArg Store.jobs hstore
  apply hs.frame
  · exact Finset.Subset.refl _
  · exact fun _ _ h => h
  · intro a ha _
    exact ⟨a, hjobs ▸ ha, rfl⟩
  · intro j hj hrows
    show plane.store.hasJob j.jobName j.job.id = true
    rw [hstore]
    rcases hcases hj with hold | rfl
    · exact hs.present j hold hrows
    · show s.plane.store.hasJob job.name job.id = true
      rw [hname]
      exact hstored
  · exact fun _ hc => .inl hc
  · intro m call' stage hm
    rcases holders_setHolder hm with ⟨rfl, hnew⟩ | ⟨hother, hold⟩
    · right
      cases hnew
      intro id hid
      obtain ⟨hknows, hanswers⟩ := hs.began _ _ _ hholder id hid
      refine ⟨hknows, fun j hj hjname => ?_⟩
      rcases hcases hj with hold | rfl
      · exact absurd hjname (hnone j hold)
      · rcases hanswers with hsame | hgone
        · exact .inl hsame
        · exact .inr fun a ha => hgone a (hjobs ▸ ha)
    · refine .inl ⟨hold, fun j hj hjname => ?_⟩
      rcases hcases hj with hmem | rfl
      · exact ⟨j, hmem, hjname, rfl⟩
      · exact absurd (hjname.symm.trans hname) hother
  · exact fun _ hreport => .inl hreport

/-- The job of a journal whose rows are gone, or are going, in a step of its deletion. -/
theorem Named.effect (hs : s.Named) (hf : s.Filed) {plane : JobPlane} {g : DeletionSaga}
    {row : JobDeletionJournal} {outcome : DeletionOutcome} (hrow : row ∈ s.plane.deletions)
    (hin : g.InStep row) (h : g.Effect s.plane row plane outcome) :
    ({ s with plane }.setHolder row.jobName none).Named := by
  have hkey : row.deletionId = g.journal.deletionId := hin.deletionId
  have hbefore {j : JobDeletionJournal} (hj : j ∈ plane.deletions) :
      ∃ old ∈ s.plane.deletions, old.job = j.job := by
    cases h with
    | moved f same order deletions store armed rollback running failed =>
      rw [deletions, KeyedRows.mem_update_iff] at hj
      rcases hj with ⟨old, hold, -, rfl⟩ | ⟨hold, -⟩
      · exact ⟨old, hold, (same old).2.symm⟩
      · exact ⟨j, hold, rfl⟩
    | cleared deletions store armed ended =>
      rw [deletions, List.mem_filter] at hj
      exact ⟨j, hj.1, rfl⟩
  apply hs.frame
  · exact Finset.Subset.refl _
  · exact fun _ _ h => h
  · exact fun a ha _ => ⟨a, effect_jobs h ha, rfl⟩
  · intro j hj hrows
    show plane.store.hasJob j.jobName j.job.id = true
    cases h with
    | moved f same order deletions store armed rollback running failed =>
      have hj : j ∈ plane.deletions := hj
      rw [deletions, KeyedRows.mem_update_iff] at hj
      rcases store with ⟨hids, hstage⟩ | ⟨-, hstage, hstore⟩
      · rw [Store.hasJob_congr hids.jobs]
        rcases hj with ⟨old, hold, hid, rfl⟩ | ⟨hold, -⟩
        · have hsame := hf.journaled.ids.eq_of_key hold hrow (hid.trans hkey.symm)
          subst hsame
          rw [JobDeletionJournal.jobName, (same old).2]
          exact hs.present old hold (hstage ▸ hrows)
        · exact hs.present j hold hrows
      · rcases hj with ⟨old, hold, hid, rfl⟩ | ⟨hold, hid⟩
        · have hsame := hf.journaled.ids.eq_of_key hold hrow (hid.trans hkey.symm)
          subst hsame
          rw [hstage] at hrows
          cases hrows
        · -- the other journals are about other names
          rw [hstore]
          apply Store.hasJob_deleteJob.mpr
          refine ⟨hs.present j hold hrows, ?_⟩
          rw [← hin.job]
          intro hname
          have hsame := hf.journaled.jobNames.eq_of_key hold hrow hname
          exact hid (hsame ▸ hkey)
    | cleared deletions store armed ended =>
      have hj : j ∈ plane.deletions := hj
      rw [deletions, List.mem_filter] at hj
      rw [store]
      exact hs.present j hj.1 hrows
  · exact fun _ hc => .inl hc
  · intro m call stage hm
    rcases holders_setHolder hm with ⟨-, hnone⟩ | ⟨-, hold⟩
    · cases hnone
    · refine .inl ⟨hold, fun j hj hjname => ?_⟩
      obtain ⟨old, hmem, hjob⟩ := hbefore hj
      exact ⟨old, hmem, (congrArg Job.name hjob).trans hjname, hjob⟩
  · exact fun _ hreport => .inl hreport

/-- A call that answers `Ok` has removed the job that it found when it began. -/
theorem Named.report (hs : s.Named) (hf : s.Filed) {plane : JobPlane} {g : DeletionSaga}
    {row : JobDeletionJournal} (hrow : row ∈ s.plane.deletions) (hin : g.InStep row)
    (h : g.Effect s.plane row plane (.finished (.ok ()))) (hforward : g.answersRollback = false)
    (began : Option JobId)
    (hbegan : ∀ id ∈ began, s.Knows row.jobName id ∧ (id = g.journal.job.id ∨ s.Gone id)) :
    (({ s with plane }.setHolder row.jobName none).report g began).Named := by
  have hnext := hs.effect hf hrow hin h
  have hclosed := hf.journaled.report hf.stored hrow hin h hforward began
  have hown : ∀ job ∈ plane.store.jobs, job.id ≠ g.journal.job.id :=
    hclosed.reported _ (List.mem_append_right _ (List.mem_singleton.mpr rfl))
  constructor
  case present => exact hnext.present
  case waiting => exact hnext.waiting
  case began => exact hnext.began
  case answered =>
    intro report hreport id hid
    rcases List.mem_append.mp hreport with hold | hnew
    · exact hnext.answered report hold id hid
    · rw [List.mem_singleton.mp hnew] at hid
      obtain ⟨hknows, hsame | hgone⟩ := hbegan id hid
      · subst hsame
        exact ⟨hknows.2, hown⟩
      · exact ⟨hknows.2, fun job hjob => hgone job (effect_jobs h hjob)⟩

theorem Named.proceed (hs : s.Named) (hf : s.Filed) {name : String} {input : DeletionInput}
    (h : s.proceed name input = some t) : t.Named := by
  obtain ⟨g, plane, outcome, hsaga, hstep, hproceeds⟩ := proceed_inv h
  obtain ⟨row, hrow, rfl, hin⟩ := hf.journaled.row_of_saga hsaga
  have heffect := DeletionSaga.Effect.of_step hin hstep
  have hnext := hs.effect hf hrow hin heffect
  cases hproceeds with
  | @foreground call g' holder =>
    have hjob : g'.journal.job = g.journal.job := by
      cases heffect with
      | moved f same order deletions store armed rollback running failed =>
        rw [← (running g' rfl).1.job, (same row).2, hin.job]
    rw [← setHolder_setHolder row.jobName none]
    apply hnext.setHolder
    intro call' stage hnew id hid
    cases hnew
    obtain ⟨hknows, hanswers⟩ := hs.began _ _ _ holder id hid
    refine ⟨hknows, ?_⟩
    show id = g'.journal.job.id ∨ ∀ job ∈ plane.store.jobs, job.id ≠ id
    rw [hjob]
    exact hanswers.imp_right fun hgone job hmem => hgone job (effect_jobs heffect hmem)
  | recovery holder =>
    rw [← setHolder_setHolder row.jobName none]
    apply hnext.setHolder
    exact fun _ _ hnew => by cases hnew
  | answered holder =>
    exact hs.report hf hrow hin heffect (hf.journaled.holder _ _ holder).1 _
      (hs.began _ _ _ holder)
  | refused holder => exact hnext
  | recovered holder point =>
    have hforward : g.answersRollback = false := by rw [DeletionSaga.answersRollback, point]
    have hreport := hs.report hf hrow hin heffect hforward none fun id hid => by cases hid
    exact hreport.congr rfl rfl rfl rfl rfl rfl rfl
  | ended holder => exact hnext.congr rfl rfl rfl rfl rfl rfl rfl

/-- A call of `delete_job` goes on, up to its deletion. -/
theorem Named.delete_step (hs : s.Named) (hf : s.Filed) {name : String} {r : CallResult}
    {action : JobDeletionAction} (hguard : s.NamedPermitted action)
    (haction : action = .lookUp name r ∨ (∃ hasRuns, action = .list name r hasRuns) ∨
      (∃ deletionId, action = .create name r deletionId) ∨ action = .reread name r)
    (h : s.act action = some t) : t.Named := by
  rcases haction with rfl | ⟨hasRuns, rfl⟩ | ⟨deletionId, rfl⟩ | rfl
  · simp only [act] at h
    split at h
    · cases h
      exact hs.release name
    · rename_i call hholder
      split at h
      · rename_i journal hfound
        cases h
        apply hs.resumeForeground hholder
        apply hguard.2 call _ journal hfound
        rw [lookingCall, hholder]
        rfl
      · cases h
        apply hs.setHolder
        intro call' stage hnew id hid
        cases hnew
        exact ⟨(hs.began _ _ _ hholder id hid).1, trivial⟩
    · cases h
  · simp only [act] at h
    split at h
    · cases h
      exact hs.release name
    · rename_i call hholder
      split at h
      · cases h
        exact hs.release name
      · rename_i job hjob
        split at h
        · cases h
          exact hs.release name
        · cases h
          apply hs.setHolder
          intro call' stage hnew id hid
          cases hnew
          obtain ⟨hknows, -⟩ := hs.began _ _ _ hholder id hid
          exact ⟨hknows, hf.began_listed hjob hknows⟩
    · cases h
  · simp only [act] at h
    split at h
    · rename_i call job hholder
      split at h
      · cases h
      · rename_i hfresh
        split at h
        · rename_i plane hcreate
          cases h
          apply hs.create hf hholder hfresh _ (CallResult.run_ok hcreate)
          apply hguard.2 job
          rw [listedJob, hholder]
          rfl
        · cases h
          have hdrawn : Named { s with deletionIds := insert deletionId s.deletionIds } :=
            hs.congr rfl rfl rfl rfl rfl rfl rfl
          exact hdrawn.release name
    · cases h
  · simp only [act] at h
    split at h
    · cases h
      exact hs.release name
    · rename_i call hholder
      split at h
      · rename_i journal hfound
        cases h
        obtain ⟨hmem, hname⟩ := getJobDeletionJournal_mem hfound
        apply hs.resumeForeground hholder
        exact fun id hid => (hs.began _ _ _ hholder id hid).2 journal hmem hname
      · cases h
        exact hs.release name
    · cases h

/-- A call of `add_job` writes its row, or removes it again. -/
theorem Named.add_step (hs : s.Named) (hf : s.Filed) {add : ℕ} {r : CallResult}
    {action : JobDeletionAction} (hguard : s.NamedPermitted action)
    (haction : action = .saveAdded add r ∨ action = .removeAdded add r)
    (h : s.act action = some t) : t.Named := by
  have hdropped : (s.setAdd add none).Named := hs.congr rfl rfl rfl rfl rfl rfl rfl
  rcases haction with rfl | rfl
  · simp only [act] at h
    split at h
    · cases h
      exact hdropped
    · rename_i job hadd
      cases h
      apply hs.frame
      · exact Finset.subset_insert _ _
      · exact fun _ _ h => h
      · intro a ha hsaved
        rcases Store.mem_saveJob ha with ⟨old, hold, -, hid⟩ | ⟨rfl, -⟩
        · exact ⟨old, hold, hid⟩
        · exact absurd hsaved (hf.stored.unsaved add _ hadd rfl)
      · exact fun j hj hrows => Store.hasJob_saveJob hf.stored.jobNames (hs.present j hj hrows)
      · exact fun _ hc => .inl hc
      · exact fun _ _ _ hm => .inl ⟨hm, fun j hj hname => ⟨j, hj, hname, rfl⟩⟩
      · exact fun _ hreport => .inl hreport
    · cases h
  · simp only [act] at h
    split at h
    · cases h
      exact hdropped
    · rename_i job error hadd
      cases h
      have hclear : ∀ j ∈ s.plane.deletions, j.jobName = job.name → j.stage.rowsGone = true := by
        apply hguard.2 job
        rw [refusedJob, hadd]
        rfl
      apply hs.frame
      · exact Finset.Subset.refl _
      · exact fun _ _ h => h
      · exact fun a ha _ => ⟨a, (Store.mem_deleteJob.mp ha).1, rfl⟩
      · intro j hj hrows
        apply Store.hasJob_deleteJob.mpr
        refine ⟨hs.present j hj hrows, fun hname => ?_⟩
        rw [hclear j hj hname] at hrows
        cases hrows
      · exact fun _ hc => .inl hc
      · exact fun _ _ _ hm => .inl ⟨hm, fun j hj hname => ⟨j, hj, hname, rfl⟩⟩
      · exact fun _ hreport => .inl hreport
    · cases h

theorem Named.act (hs : s.Named) (hf : s.Filed) {action : JobDeletionAction}
    (hguard : s.NamedPermitted action) (h : s.act action = some t) : t.Named := by
  cases action with
  | callDelete name force =>
    cases h
    apply hs.frame
    · exact Finset.Subset.refl _
    · exact fun _ _ h => h
    · exact fun job hjob _ => ⟨job, hjob, rfl⟩
    · exact hs.present
    · intro c hc
      rcases List.mem_append.mp hc with hold | hnew
      · exact .inl hold
      · right
        rw [List.mem_singleton.mp hnew]
        intro id hid
        obtain ⟨job, hjob, rfl⟩ := Option.map_eq_some_iff.mp hid
        obtain ⟨hmem, rfl⟩ := Store.getJob_mem hjob
        exact hf.stored.jobDrawn job hmem
    · exact fun _ _ _ hm => .inl ⟨hm, fun j hj hname => ⟨j, hj, hname, rfl⟩⟩
    · exact fun _ hreport => .inl hreport
  | lock call =>
    simp only [JobDeletionState.act] at h
    split at h
    · cases h
    · rename_i c hcall
      split at h
      · cases h
      · cases h
        have hmem : c ∈ s.waiting := List.mem_of_getElem? hcall
        have hfewer : Named { s with waiting := s.waiting.eraseIdx call } := by
          apply hs.frame
          · exact Finset.Subset.refl _
          · exact fun _ _ h => h
          · exact fun job hjob _ => ⟨job, hjob, rfl⟩
          · exact hs.present
          · exact fun _ hc => .inl (List.mem_of_mem_eraseIdx hc)
          · exact fun _ _ _ hm => .inl ⟨hm, fun j hj hname => ⟨j, hj, hname, rfl⟩⟩
          · exact fun _ hreport => .inl hreport
        apply hfewer.setHolder
        intro call' stage hnew id hid
        cases hnew
        exact ⟨hs.waiting c hmem id hid, trivial⟩
  | lookUp name r => exact hs.delete_step hf hguard (.inl rfl) h
  | list name r hasRuns => exact hs.delete_step hf hguard (.inr (.inl ⟨hasRuns, rfl⟩)) h
  | create name r deletionId =>
    exact hs.delete_step hf hguard (.inr (.inr (.inl ⟨deletionId, rfl⟩))) h
  | reread name r => exact hs.delete_step hf hguard (.inr (.inr (.inr rfl))) h
  | proceed name input => exact hs.proceed hf h
  | dropDelete name =>
    simp only [JobDeletionState.act] at h
    split at h
    · cases h
      exact hs.release name
    · cases h
  | callAdd add job =>
    simp only [JobDeletionState.act] at h
    split at h
    · rename_i hadd hfresh
      cases h
      apply hs.frame
      · exact Finset.Subset.refl _
      · intro id name hname
        show Function.update s.names job.id (some job.name) id = some name
        rw [Function.update_of_ne, hname]
        rintro rfl
        rw [hfresh] at hname
        cases hname
      · exact fun a ha _ => ⟨a, ha, rfl⟩
      · exact hs.present
      · exact fun _ hc => .inl hc
      · exact fun _ _ _ hm => .inl ⟨hm, fun j hj hname => ⟨j, hj, hname, rfl⟩⟩
      · exact fun _ hreport => .inl hreport
    · cases h
  | saveAdded add r => exact hs.add_step hf hguard (.inl rfl) h
  | removeAdded add r => exact hs.add_step hf hguard (.inr rfl) h
  | resume =>
    simp only [JobDeletionState.act] at h
    split at h
    · rename_i journal rest hpass hcurrent
      split at h
      · cases h
        exact hs.congr rfl rfl rfl rfl rfl rfl rfl
      · cases h
        obtain ⟨-, -, hstore, hdeletions, -⟩ := DeletionSaga.enter_spec s.plane journal .recovery
        have hentered : Named { s with
            plane := (DeletionSaga.enter s.plane journal .recovery).1
            pass := rest
            current := some journal.jobName } :=
          hs.congr hdeletions (congrArg Store.jobs hstore) rfl rfl rfl rfl rfl
        apply hentered.setHolder
        exact fun _ _ hnew => by cases hnew
    · cases h
  | transact op =>
    simp only [JobDeletionState.act] at h
    split at h
    · rename_i hop
      cases h
      exact hs.congr rfl (Store.apply_keepsRows hop).jobs rfl rfl rfl rfl rfl
    · cases h
  | admitOccurrence job occurrence now runId =>
    cases h
    have hkeeps : s.plane.store.KeepsRows (((s.plane.store.admitScheduleOccurrence job occurrence
        now runId).map Prod.snd).toOption.getD s.plane.store) :=
      .of_snd fun answer u hu => Store.admitScheduleOccurrence_keepsRows hu
    exact hs.congr rfl hkeeps.jobs rfl rfl rfl rfl rfl
  | crash =>
    cases h
    apply hs.frame
    · exact Finset.Subset.refl _
    · exact fun _ _ h => h
    · exact fun a ha _ => ⟨a, ha, rfl⟩
    · exact hs.present
    · exact fun c hc => by cases hc
    · exact fun _ _ _ hm => by cases hm
    · exact fun _ hreport => .inl hreport
  | listForAdd | registerAdded | dropAdd | listJournals | registerStored | recoverOccurrences
  | cleanLog =>
    simp only [JobDeletionState.act] at h
    repeat' split at h
    all_goals cases h
    all_goals exact hs.congr rfl rfl rfl rfl rfl rfl rfl

theorem Named.step (hs : s.Named) (hf : s.Filed) {action : JobDeletionAction}
    (hguard : s.NamedPermitted action) (h : jobDeletionSystem.step s action = some t) :
    t.Named := by
  obtain ⟨u, hact, rfl⟩ := Option.map_eq_some_iff.mp h
  exact (hs.act hf hguard hact).congr rfl rfl rfl rfl rfl rfl rfl

theorem named_empty : Named {} where
  present _ hj := by cases hj
  waiting _ hc := by cases hc
  began _ _ _ h := by cases h
  answered _ hreport := by cases hreport

theorem named_of_run (h : jobDeletionSystem.Run NamedPermitted {} s) : s.Filed ∧ s.Named := by
  apply h.invariant
  · intro s action t hs hguard hstep
    exact ⟨hs.1.step hguard.1 hstep, hs.2.step hs.1 hguard hstep⟩
  · exact ⟨filed_empty, named_empty⟩

/-- The rows that a step of a deletion removes. -/
theorem Named.removes (hs : s.Named) (hf : s.Filed) {name : String} {g : DeletionSaga}
    {input : DeletionInput} (hsaga : s.saga name = some g)
    (h : jobDeletionSystem.step s (.proceed name input) = some t) :
    (∀ job ∈ s.plane.store.jobs, job ∉ t.plane.store.jobs → job.id = g.journal.job.id) ∧
      ∀ run ∈ s.plane.store.runs, (∀ row ∈ t.plane.store.runs, row.identity ≠ run.identity) →
        run.jobId = g.journal.job.id := by
  obtain ⟨row, hrow, -, hin⟩ := hf.journaled.row_of_saga hsaga
  obtain ⟨outcome, heffect⟩ := hf.proceed_effect hsaga h hrow hin.deletionId
  have hkept (hids : s.plane.store.SameIdentities t.plane.store) :
      (∀ job ∈ s.plane.store.jobs, job ∉ t.plane.store.jobs → job.id = g.journal.job.id) ∧
        ∀ run ∈ s.plane.store.runs, (∀ row ∈ t.plane.store.runs, row.identity ≠ run.identity) →
          run.jobId = g.journal.job.id := by
    constructor
    · intro job hjob hgone
      rw [hids.jobs] at hgone
      exact absurd hjob hgone
    · intro run hrun hgone
      have hmem : run.identity ∈ t.plane.store.runs.map JobRun.identity := by
        rw [hids.runs]
        exact List.mem_map_of_mem hrun
      obtain ⟨other, hother, hsame⟩ := List.mem_map.mp hmem
      exact absurd hsame (hgone other hother)
  cases heffect with
  | moved f same order deletions store armed rollback running failed =>
    rcases store with ⟨hids, -⟩ | ⟨hstage, -, hstore⟩
    · exact hkept hids
    · have hnamed : s.plane.store.hasJob g.journal.job.name g.journal.job.id = true := by
        rw [← hin.job]
        apply hs.present row hrow
        rw [hstage]
        rfl
      rw [hstore]
      obtain ⟨hjobs, hruns⟩ := Store.deleteJob_removes hf.stored.jobNames hf.stored.runJob hnamed
      refine ⟨hjobs, fun run hrun hgone => hruns run hrun fun hmem => ?_⟩
      exact hgone run hmem rfl
  | cleared deletions store armed ended =>
    rw [store] at hkept ⊢
    exact hkept (.refl _)

/-- Deletions over every run in which no name is used again under a journal. -/
theorem actsOnNamed (h : jobDeletionSystem.Run NamedPermitted {} s) : s.ActsOnNamed := by
  obtain ⟨hf, hs⟩ := named_of_run h
  constructor
  case answered => exact fun report hreport id hid => (hs.answered report hreport id hid).2
  case jobs => exact fun name g input t hsaga hstep => (hs.removes hf hsaga hstep).1
  case runs => exact fun name g input t hsaga hstep => (hs.removes hf hsaga hstep).2

instance (s : JobDeletionState) (action : JobDeletionAction) :
    Decidable (s.NamedPermitted action) := by
  unfold NamedPermitted
  exact match action with
    | .lookUp .. | .create .. | .removeAdded .. | .callDelete .. | .lock .. | .list .. | .reread ..
    | .proceed .. | .dropDelete .. | .callAdd .. | .listForAdd .. | .saveAdded ..
    | .registerAdded .. | .dropAdd .. | .listJournals .. | .resume | .registerStored ..
    | .transact .. | .admitOccurrence .. | .recoverOccurrences .. | .cleanLog .. | .crash =>
      inferInstance

/-- A job is deleted without a failure, and one of its name is added again. -/
def deleteAndReuse : List JobDeletionAction :=
  addJob 0 { id := ⟨1⟩, name := "nightly", trigger := .oneShot 7 } ++
  beginDelete "nightly" 30 ++ cancelRuns "nightly" ++
  [.proceed "nightly" (.call .done), .proceed "nightly" (.drain .done true),
    .proceed "nightly" (.call .done), .proceed "nightly" (.call .done),
    .proceed "nightly" (.call .done), .proceed "nightly" (.call .done)] ++
  addJob 1 { id := ⟨2⟩, name := "nightly", trigger := .oneShot 9 }

theorem deleteAndReuse_actsOnNamed :
    ∃ s, (jobDeletionSystem.Run NamedPermitted {} s ∧
      s.reports = [⟨30, { id := ⟨1⟩, name := "nightly", trigger := .oneShot 7 }, some ⟨1⟩⟩]) ∧
      s.ActsOnNamed := by
  have hexec : (jobDeletionSystem.execUnder NamedPermitted {} deleteAndReuse).any (fun s =>
      s.reports = [⟨30, { id := ⟨1⟩, name := "nightly", trigger := .oneShot 7 }, some ⟨1⟩⟩]) =
        true := by
    decide
  obtain ⟨s, hrun, hreports⟩ := Machine.exists_run_of_execUnder _ deleteAndReuse hexec
  exact ⟨s, ⟨hrun, of_decide_eq_true hreports⟩, actsOnNamed hrun⟩

/-- A deletion stops before its journal is recorded complete, a job of the same name is added,
and a second call of `delete_job` finds the old journal. -/
def deleteReused : List JobDeletionAction :=
  addJob 0 { id := ⟨1⟩, name := "nightly", trigger := .oneShot 7 } ++
  beginDelete "nightly" 30 ++ cancelRuns "nightly" ++
  [.proceed "nightly" (.call .done), .proceed "nightly" (.drain .done true),
    .proceed "nightly" (.call .done), .proceed "nightly" (.call .done),
    .proceed "nightly" (.call (.failed "disk full"))] ++
  addJob 1 { id := ⟨2⟩, name := "nightly", trigger := .oneShot 9 } ++
  [.callDelete "nightly" true, .lock 0, .lookUp "nightly" .done,
    .proceed "nightly" (.call .done), .proceed "nightly" (.call .done),
    .proceed "nightly" (.call .done)]

/-- `delete_job` answers `Ok` and the job that it named is still stored. -/
theorem reused_name_reported_deleted :
    ∃ s, jobDeletionSystem.Reaches {} s ∧ ¬ s.ActsOnNamed := by
  have hexec : (jobDeletionSystem.exec {} deleteReused).any (fun s =>
      s.reports.any fun report => report.began.any fun id => !decide (s.Gone id)) = true := by
    decide
  obtain ⟨s, hreaches, hreports⟩ := Machine.exists_reaches_of_exec _ deleteReused hexec
  refine ⟨s, hreaches, fun hlawful => ?_⟩
  obtain ⟨report, hreport, hbegan⟩ := List.any_eq_true.mp hreports
  obtain ⟨id, hid, hstored⟩ := (Option.any_eq_true _ _).mp hbegan
  rw [Bool.not_eq_true', decide_eq_false_iff_not] at hstored
  exact hstored (hlawful.answered report hreport id hid)

end JobDeletionState

end Supervisor
