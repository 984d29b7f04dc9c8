import Supervisor.DefinitionCalls

namespace Supervisor

/-- Whether a call writes one definition: `add_job`, `update_job`, `add_process`. -/
def DefinitionCall.writesOne : DefinitionCall → Bool
  | .addJob _ _ | .updateJob _ _ _ _ | .addProcess _ _ _ => true
  | .deleteJob _ | .applyConfig _ _ _ _ _ => false

namespace DefinitionTables

variable (calendar : Calendar)

/-- A call that nothing interrupts, from a point of it to its answer. -/
inductive Completes (call : DefinitionCall) :
    DefinitionTables → CallPoint → DefinitionTables → CallResponse → Prop
  | answers {t t' : DefinitionTables} {point : CallPoint} {response : CallResponse} :
      t.advance calendar call point = (t', .inr response) → Completes call t point t' response
  | goes {t u t' : DefinitionTables} {point next : CallPoint} {response : CallResponse} :
      t.advance calendar call point = (u, .inl next) → Completes call u next t' response →
        Completes call t point t' response

/-- Calls executed one after another. -/
inductive Serially (t : DefinitionTables) : List AnsweredCall → DefinitionTables → Prop
  | start : Serially t [] t
  | call {order : List AnsweredCall} {u v : DefinitionTables} {call : DefinitionCall}
      {response : CallResponse} : Serially t order u →
        Completes calendar call u .called v response → Serially t (order ++ [⟨call, response⟩]) v

/-- The definition of a name becomes again what it was before. -/
def undoJob (t : DefinitionTables) (before : Option Job) (name : String) : DefinitionTables :=
  match before with
  | none => { t with store := t.store.deleteJob name }
  | some existing => { t with store := t.store.saveJob existing.stored }

/-- What a call answers whose definition the scheduler has rejected. -/
def undoneError (before : Option Job) (error : SchedulerError) : AppError :=
  match before with
  | none => error.toAppError
  | some existing => undoneUpdate calendar existing error

/-- The start of a new process, where it is asked for. -/
def autostarted (spec : ProcessSpec) (started : Except AppError Unit) : Except AppError Unit :=
  if spec.autostart then started else .ok ()

section Advance

variable {calendar} {t : DefinitionTables} {call : DefinitionCall}

theorem advance_called : t.advance calendar call .called =
    match call.plan t.listJobs t.listSpecs with
    | .error e => (t, .inr (.error e))
    | .ok next => (t, .inl next) := rfl

theorem advance_armingJob (before : Option Job) (others : List Job) (job : Job) :
    t.advance calendar call (.armingJob before others job) =
      match calendar.registerJob job with
      | .ok () => (t, .inr (.ok (.job (buildJobView job (others ++ [job])))))
      | .error e => (t, .inl (.undoingJob before job e)) := rfl

theorem advance_savingProcess (spec : ProcessSpec) (registered started : Except AppError Unit) :
    t.advance calendar (.addProcess spec registered started) .savingProcess =
      match saveSpecRow t.specs spec with
      | .error e => (t, .inr (.error e.toAppError))
      | .ok specs => ({ t with specs }, .inl .startingProcess) := rfl

theorem advance_startingProcess (spec : ProcessSpec) (registered started : Except AppError Unit) :
    t.advance calendar (.addProcess spec registered started) .startingProcess =
      match autostarted spec started with
      | .ok () => (t, .inr (.ok (.process spec)))
      | .error e => (t, .inl (.undoingProcess e)) := rfl

theorem advance_undoingJob (before : Option Job) (job : Job) (error : SchedulerError) :
    t.advance calendar call (.undoingJob before job error) =
      (t.undoJob before job.name, .inr (.error (undoneError calendar before error))) := by
  cases before <;> rfl

theorem Sound.saveJob (ht : t.Sound) (job : Job) :
    Sound { t with store := t.store.saveJob job.stored } :=
  .of ht.specs (ht.jobs.saveJob job)

theorem Sound.undoJob (ht : t.Sound) (before : Option Job) (name : String) :
    (t.undoJob before name).Sound := by
  cases before with
  | none =>
    refine .of ht.specs ⟨ht.jobNames.filter _, ?_⟩
    intro job hjob
    exact ht.jobsStorable job (List.mem_filter.mp hjob).1
  | some existing => exact ht.saveJob existing

theorem undoJob_specs (t : DefinitionTables) (before : Option Job) (name : String) :
    (t.undoJob before name).specs = t.specs := by
  cases before <;> rfl

theorem Sound.deleteSpec (ht : t.Sound) (name : String) :
    Sound { t with specs := t.specs.filter fun row => row.name ≠ name } := by
  refine .of ⟨ht.specNames.filter _, ht.definitionIds.filter _, ?_⟩ ht.jobs
  intro spec hspec
  exact ht.specsStorable spec (List.mem_filter.mp hspec).1

/-- The lookup of a job after its definition has been taken back. -/
theorem find_undoJob {before : Option Job} {name : String}
    (hbefore : ∀ existing ∈ before, existing.name = name ∧ existing.Storable ∧
      ∃ row, KeyedRows.find Job.name name t.store.jobs = some row ∧ row.id = existing.id)
    (n : String) : KeyedRows.find Job.name n (t.undoJob before name).store.jobs =
      if n = name then before else KeyedRows.find Job.name n t.store.jobs := by
  cases before with
  | none =>
    show KeyedRows.find Job.name n (t.store.jobs.filter fun job => decide (job.name ≠ name)) = _
    rw [KeyedRows.find_filter_key (fun m => decide (m ≠ name))]
    by_cases hn : n = name
    · simp [hn]
    · simp [hn]
  | some existing =>
    obtain ⟨rfl, hstorable, row, hrow, hid⟩ := hbefore existing rfl
    show KeyedRows.find Job.name n (t.store.saveJob existing.stored).jobs = _
    have hback : savedJob (some row) existing = existing := by
      unfold savedJob
      dsimp only
      rw [hid, hstorable.stored_eq]
    rw [find_saveJob, hrow, hback]

/-- Saving a definition and taking it back leaves what was there. -/
theorem find_undoJob_saveJob (ht : t.Sound) (job : Job) (n : String) :
    KeyedRows.find Job.name n (undoJob { t with store := t.store.saveJob job.stored }
      (KeyedRows.find Job.name job.name t.store.jobs) job.name).store.jobs =
        KeyedRows.find Job.name n t.store.jobs := by
  rw [find_undoJob]
  · by_cases hn : n = job.name
    · rw [if_pos hn, hn]
    · rw [if_neg hn, find_saveJob, if_neg hn]
  · intro existing hexisting
    have hfind : KeyedRows.find Job.name job.name t.store.jobs = some existing := hexisting
    refine ⟨KeyedRows.find_key hfind, ht.jobsStorable existing (KeyedRows.find_mem hfind),
      savedJob (some existing) job, ?_, rfl⟩
    rw [find_saveJob, if_pos rfl, hfind]

end Advance

section Plan

variable {t : DefinitionTables} {call : DefinitionCall} {jobs : List Job} {specs : List ProcessSpec}

theorem plan_addJob (job : Job) (now : Instant) :
    DefinitionCall.plan (.addJob job now) jobs specs =
      (planAdd jobs job now).map fun () => .savingJob none jobs job := rfl

theorem plan_updateJob (name : String) (body : Job) (newTriggerId : Uuid) (now : Instant) :
    DefinitionCall.plan (.updateJob name body newTriggerId now) jobs specs =
      (planUpdate jobs name body newTriggerId now).map fun (existing, job) =>
        .savingJob (some existing) (othersThan name jobs) job := rfl

theorem planAdd_ok {job : Job} {now : Instant} (h : planAdd jobs job now = .ok ()) :
    KeyedRows.find Job.name job.name jobs = none := by
  unfold planAdd at h
  split at h
  · cases h
  · split at h
    · cases h
    · rename_i hfree
      apply KeyedRows.find_eq_none.mpr
      intro other hother hname
      exact hfree (List.any_eq_true.mpr ⟨other, hother, decide_eq_true hname⟩)

/-- A job that a call is about to save, and the definition of its name. -/
theorem plan_savingJob {before : Option Job} {others : List Job} {job : Job}
    (h : call.plan jobs specs = .ok (.savingJob before others job)) :
    KeyedRows.find Job.name job.name jobs = before := by
  cases call with
  | addJob job now =>
    obtain ⟨_, hplan, heq⟩ := map_eq_ok_iff.mp h
    cases heq
    exact planAdd_ok hplan
  | updateJob name body newTriggerId now =>
    obtain ⟨⟨existing, updated⟩, hplan, heq⟩ := map_eq_ok_iff.mp h
    cases heq
    have hplanned := planUpdate_ok_iff.mp hplan
    rw [hplanned.job_name]
    exact hplanned.found
  | addProcess spec registered started =>
    obtain ⟨-, -, heq⟩ := map_eq_ok_iff.mp h
    cases heq
  | deleteJob name =>
    unfold DefinitionCall.plan at h
    dsimp only at h
    split at h
    · cases h
    · split at h <;> cases h
  | applyConfig running loaded mode newTriggerIds now =>
    obtain ⟨-, -, heq⟩ := map_eq_ok_iff.mp h
    cases heq

theorem planProcess_ok {spec : ProcessSpec} {registered : Except AppError Unit}
    (h : planProcess specs spec registered = .ok ()) :
    KeyedRows.find ProcessSpec.name spec.name specs = none := by
  unfold planProcess at h
  split at h
  · cases h
  · split at h
    · cases h
    · rename_i hfree
      simpa using hfree

end Plan

section Complete

variable {calendar : Calendar} {t t' : DefinitionTables} {call : DefinitionCall}
  {point : CallPoint} {response : CallResponse}

/-- A call has one outcome. -/
theorem Completes.unique {t'' : DefinitionTables} {response' : CallResponse}
    (h : Completes calendar call t point t' response)
    (h' : Completes calendar call t point t'' response') : t' = t'' ∧ response = response' := by
  induction h with
  | answers hadvance =>
    cases h' with
    | answers hadvance' =>
      obtain ⟨htables, hresponse⟩ := Prod.mk.inj (hadvance.symm.trans hadvance')
      exact ⟨htables, Sum.inr.inj hresponse⟩
    | goes hadvance' _ => cases hadvance.symm.trans hadvance'
  | goes hadvance _ ih =>
    cases h' with
    | answers hadvance' => cases hadvance.symm.trans hadvance'
    | goes hadvance' hrest =>
      cases hadvance.symm.trans hadvance'
      exact ih hrest

variable (calendar) in
/-- What saving a job comes to: the definition, or what was there before. -/
def completeJob (t : DefinitionTables) (before : Option Job) (others : List Job) (job : Job) :
    DefinitionTables × CallResponse :=
  let saved := { t with store := t.store.saveJob job.stored }
  match calendar.registerJob job with
  | .ok () => (saved, .ok (.job (buildJobView job (others ++ [job]))))
  | .error e => (saved.undoJob before job.name, .error (undoneError calendar before e))

def completeProcess (t : DefinitionTables) (spec : ProcessSpec) (started : Except AppError Unit) :
    DefinitionTables × CallResponse :=
  match saveSpecRow t.specs spec with
  | .error e => (t, .error e.toAppError)
  | .ok specs =>
    match autostarted spec started with
    | .ok () => ({ t with specs }, .ok (.process spec))
    | .error e => ({ t with specs := specs.filter fun row => row.name ≠ spec.name }, .error e)

theorem completes_savingJob (before : Option Job) (others : List Job) (job : Job) :
    Completes calendar call t (.savingJob before others job)
      (t.completeJob calendar before others job).1
      (t.completeJob calendar before others job).2 := by
  apply Completes.goes rfl
  unfold completeJob
  cases hregister : calendar.registerJob job with
  | ok _ =>
    apply Completes.answers
    rw [advance_armingJob, hregister]
  | error e =>
    apply @Completes.goes _ _ _ _ _ _ (.undoingJob before job e) _
    · rw [advance_armingJob, hregister]
    · exact .answers (advance_undoingJob before job e)

theorem completes_savingProcess (spec : ProcessSpec) (registered started : Except AppError Unit) :
    Completes calendar (.addProcess spec registered started) t .savingProcess
      (t.completeProcess spec started).1 (t.completeProcess spec started).2 := by
  unfold completeProcess
  cases hsave : saveSpecRow t.specs spec with
  | error e =>
    apply Completes.answers
    rw [advance_savingProcess, hsave]
  | ok specs =>
    apply @Completes.goes _ _ _ ({ t with specs }) _ _ .startingProcess _
    · rw [advance_savingProcess, hsave]
    · cases hstart : autostarted spec started with
      | ok _ =>
        apply Completes.answers
        rw [advance_startingProcess, hstart]
      | error e =>
        apply @Completes.goes _ _ _ ({ t with specs }) _ _ (.undoingProcess e) _
        · rw [advance_startingProcess, hstart]
        · exact .answers rfl

theorem Completes.of_plan {next : CallPoint} (hplan : call.plan t.listJobs t.listSpecs = .ok next)
    (h : Completes calendar call t next t' response) :
    Completes calendar call t .called t' response := by
  refine .goes ?_ h
  rw [advance_called, hplan]

theorem Completes.of_plan_error {e : AppError}
    (hplan : call.plan t.listJobs t.listSpecs = .error e) :
    Completes calendar call t .called t (.error e) := by
  apply Completes.answers
  rw [advance_called, hplan]

/-- The outcomes of a call that writes one definition. -/
inductive Outcome (calendar : Calendar) (t : DefinitionTables) (call : DefinitionCall)
    (t' : DefinitionTables) (response : CallResponse) : Prop
  | refused {e : AppError} : call.plan t.listJobs t.listSpecs = .error e → t' = t →
      response = .error e → Outcome calendar t call t' response
  | job {before : Option Job} {others : List Job} {job : Job} :
      call.plan t.listJobs t.listSpecs = .ok (.savingJob before others job) →
        t' = (t.completeJob calendar before others job).1 →
          response = (t.completeJob calendar before others job).2 →
            Outcome calendar t call t' response
  | process {spec : ProcessSpec} {registered started : Except AppError Unit} :
      call = .addProcess spec registered started →
        t' = (t.completeProcess spec started).1 →
          response = (t.completeProcess spec started).2 → Outcome calendar t call t' response

theorem Completes.outcome (hcall : call.writesOne = true)
    (h : Completes calendar call t .called t' response) :
    Outcome calendar t call t' response := by
  cases hplan : call.plan t.listJobs t.listSpecs with
  | error e =>
    obtain ⟨htables, hresponse⟩ := h.unique (.of_plan_error hplan)
    exact .refused hplan htables hresponse
  | ok next =>
    cases call with
    | addJob job now =>
      obtain ⟨_, -, rfl⟩ := map_eq_ok_iff.mp hplan
      obtain ⟨htables, hresponse⟩ := h.unique (.of_plan hplan (completes_savingJob ..))
      exact .job hplan htables hresponse
    | updateJob name body newTriggerId now =>
      obtain ⟨⟨existing, job⟩, -, rfl⟩ := map_eq_ok_iff.mp hplan
      obtain ⟨htables, hresponse⟩ := h.unique (.of_plan hplan (completes_savingJob ..))
      exact .job hplan htables hresponse
    | addProcess spec registered started =>
      obtain ⟨_, -, rfl⟩ := map_eq_ok_iff.mp hplan
      obtain ⟨htables, hresponse⟩ := h.unique (.of_plan hplan (completes_savingProcess ..))
      exact .process rfl htables hresponse
    | deleteJob name => cases hcall
    | applyConfig running loaded mode newTriggerIds now => cases hcall

end Complete

section Lookup

variable {calendar : Calendar} {t t' : DefinitionTables} {call : DefinitionCall}
  {response : CallResponse}

theorem Sound.find_listJobs (ht : t.Sound) (n : String) :
    KeyedRows.find Job.name n t.listJobs = KeyedRows.find Job.name n t.store.jobs :=
  find_sortByName ht.jobNames n

theorem Sound.find_listSpecs (ht : t.Sound) (n : String) :
    KeyedRows.find ProcessSpec.name n t.listSpecs = KeyedRows.find ProcessSpec.name n t.specs :=
  find_sortByName ht.specNames n

theorem Sound.uniqueJobs (ht : t.Sound) : KeyedRows.Unique Job.name t.listJobs :=
  ht.jobNames.perm (sortByName_perm _ _)

theorem Sound.uniqueSpecs (ht : t.Sound) : KeyedRows.Unique ProcessSpec.name t.listSpecs :=
  ht.specNames.perm (sortByName_perm _ _)

theorem Sound.completeJob (ht : t.Sound) (before : Option Job) (others : List Job) (job : Job) :
    (t.completeJob calendar before others job).1.Sound := by
  unfold DefinitionTables.completeJob
  dsimp only
  split
  · exact ht.saveJob job
  · exact (ht.saveJob job).undoJob before job.name

theorem completeJob_specs (t : DefinitionTables) (before : Option Job) (others : List Job)
    (job : Job) : (t.completeJob calendar before others job).1.specs = t.specs := by
  unfold completeJob
  dsimp only
  split
  · rfl
  · exact undoJob_specs ..

/-- The jobs after a call that has saved one. -/
theorem find_completeJob (ht : t.Sound) (others : List Job) (job : Job) (n : String) :
    KeyedRows.find Job.name n (t.completeJob calendar
      (KeyedRows.find Job.name job.name t.store.jobs) others job).1.store.jobs =
        match calendar.registerJob job with
        | .ok () =>
          if n = job.name then
            some (savedJob (KeyedRows.find Job.name job.name t.store.jobs) job)
          else KeyedRows.find Job.name n t.store.jobs
        | .error _ => KeyedRows.find Job.name n t.store.jobs := by
  unfold completeJob
  cases calendar.registerJob job with
  | ok _ => exact find_saveJob t.store job n
  | error e => exact find_undoJob_saveJob ht job n

theorem completeProcess_store (t : DefinitionTables) (spec : ProcessSpec)
    (started : Except AppError Unit) : (t.completeProcess spec started).1.store = t.store := by
  unfold completeProcess
  split
  · rfl
  · split <;> rfl

theorem Sound.completeProcess (ht : t.Sound) (spec : ProcessSpec)
    (started : Except AppError Unit) : (t.completeProcess spec started).1.Sound := by
  unfold DefinitionTables.completeProcess
  split
  · exact ht
  · rename_i specs hsave
    have hsaved : Sound { t with specs } := .of (ht.specs.saveSpecRow hsave) ht.jobs
    split
    · exact hsaved
    · exact hsaved.deleteSpec spec.name

/-- The processes after a call that has saved a new one. -/
theorem find_completeProcess {spec : ProcessSpec} {started : Except AppError Unit}
    {specs : List ProcessSpec} (hnew : KeyedRows.find ProcessSpec.name spec.name t.specs = none)
    (hsave : saveSpecRow t.specs spec = .ok specs) (n : String) :
    KeyedRows.find ProcessSpec.name n (t.completeProcess spec started).1.specs =
      match autostarted spec started with
      | .ok () => if n = spec.name then some spec.stored else
          KeyedRows.find ProcessSpec.name n t.specs
      | .error _ => KeyedRows.find ProcessSpec.name n t.specs := by
  have hfind := saveSpecRow_find hsave n
  rw [hnew] at hfind
  unfold completeProcess
  rw [hsave]
  cases autostarted spec started with
  | ok _ => exact hfind
  | error e =>
    show KeyedRows.find ProcessSpec.name n
      (specs.filter fun row => decide (row.name ≠ spec.name)) = KeyedRows.find _ n t.specs
    rw [KeyedRows.find_filter_key (fun m => decide (m ≠ spec.name)), hfind]
    by_cases hn : n = spec.name
    · rw [hn, hnew]
      simp
    · simp [hn]

end Lookup

section Serial

variable {calendar : Calendar} {t u v : DefinitionTables} {call : DefinitionCall}
  {response : CallResponse} {order : List AnsweredCall}

theorem Outcome.sound (h : Outcome calendar u call v response) (hu : u.Sound) : v.Sound := by
  cases h with
  | refused _ htables _ =>
    rw [htables]
    exact hu
  | job _ htables _ =>
    rw [htables]
    exact hu.completeJob ..
  | process _ htables _ =>
    rw [htables]
    exact hu.completeProcess ..

/-- No call takes away a definition that another one has made. -/
theorem Outcome.name_kept (h : Outcome calendar u call v response) (hu : u.Sound) {n : String}
    (hn : n ∈ u.store.jobs.map (·.name)) : n ∈ v.store.jobs.map (·.name) := by
  cases h with
  | refused _ htables _ =>
    rw [htables]
    exact hn
  | job hplan htables _ =>
    have hbefore := plan_savingJob hplan
    rw [hu.find_listJobs] at hbefore
    rw [htables, KeyedRows.mem_map_key, ← hbefore, find_completeJob hu]
    rw [KeyedRows.mem_map_key] at hn
    split
    · split
      · rfl
      · exact hn
    · exact hn
  | process _ htables _ =>
    rw [htables, completeProcess_store]
    exact hn

/-- An added job is stored. -/
theorem Outcome.name_added {job : Job} {now : Instant} {answer : CallAnswer}
    (h : Outcome calendar u (.addJob job now) v (.ok answer)) (hu : u.Sound) :
    job.name ∈ v.store.jobs.map (·.name) := by
  cases h with
  | refused _ _ hresponse => cases hresponse
  | job hplan htables hresponse =>
    have hbefore := plan_savingJob hplan
    rw [hu.find_listJobs] at hbefore
    obtain ⟨_, -, heq⟩ := map_eq_ok_iff.mp hplan
    obtain ⟨-, -, rfl⟩ := CallPoint.savingJob.inj heq
    rw [htables, KeyedRows.mem_map_key, ← hbefore, find_completeJob hu]
    unfold completeJob at hresponse
    cases hregister : calendar.registerJob job with
    | ok _ =>
      dsimp only
      rw [if_pos rfl]
      rfl
    | error e =>
      rw [hregister] at hresponse
      cases hresponse
  | process hcall _ _ => cases hcall

/-- An added job's name is taken. -/
def DuplicateRefused (a b : AnsweredCall) : Prop :=
  ∀ job now job' now' answer, a.call = .addJob job now → a.response = .ok answer →
    b.call = .addJob job' now' → job'.name = job.name →
      b.response = .error (.conflict .jobNameConflict) ∨
        ∃ jobs e, job'.validate jobs now' false = .error e ∧ b.response = .error e

/-- An update that names another revision than the stored one is refused. -/
def StaleRefused (u : DefinitionTables) (a : AnsweredCall) : Prop :=
  ∀ name body newTriggerId now existing, a.call = .updateJob name body newTriggerId now →
    KeyedRows.find Job.name name u.listJobs = some existing → body.scheduleRevision ≠ 0 →
      body.scheduleRevision ≠ existing.scheduleRevision →
        a.response = .error (.conflict .scheduleRevisionConflict)

theorem Completes.staleRefused (h : Completes calendar call u .called v response) :
    StaleRefused u ⟨call, response⟩ := by
  rintro name body newTriggerId now existing rfl hfind hzero hother
  have hplan : DefinitionCall.plan (.updateJob name body newTriggerId now) u.listJobs u.listSpecs =
      .error (.conflict .scheduleRevisionConflict) := by
    rw [plan_updateJob, planUpdate, hfind]
    dsimp only
    rw [if_pos ⟨hzero, hother⟩]
    rfl
  exact (h.unique (.of_plan_error hplan)).2

theorem planAdd_taken {jobs : List Job} {job : Job} {now : Instant}
    (htaken : job.name ∈ jobs.map (·.name)) :
    planAdd jobs job now = .error (.conflict .jobNameConflict) ∨
      ∃ e, job.validate jobs now false = .error e ∧ planAdd jobs job now = .error e := by
  unfold planAdd
  cases hvalid : job.validate jobs now false with
  | error e => exact .inr ⟨e, rfl, rfl⟩
  | ok _ =>
    left
    obtain ⟨other, hother, hname⟩ := List.mem_map.mp htaken
    have hany : (jobs.any fun other => other.name = job.name) = true :=
      List.any_eq_true.mpr ⟨other, hother, decide_eq_true hname⟩
    dsimp only
    rw [if_pos hany]

theorem Completes.response_of_taken {job : Job} {now : Instant}
    (h : Completes calendar (.addJob job now) u .called v response) (hu : u.Sound)
    (htaken : job.name ∈ u.store.jobs.map (·.name)) :
    response = .error (.conflict .jobNameConflict) ∨
      ∃ jobs e, job.validate jobs now false = .error e ∧ response = .error e := by
  have hlisted : job.name ∈ u.listJobs.map (·.name) := by
    rw [KeyedRows.mem_map_key] at htaken ⊢
    rwa [hu.find_listJobs]
  have hanswer {e : AppError} (hplan : planAdd u.listJobs job now = .error e) :
      response = .error e := by
    refine (h.unique (.of_plan_error ?_)).2
    rw [plan_addJob, hplan]
    rfl
  rcases @planAdd_taken _ _ now hlisted with hplan | ⟨e, hvalid, hplan⟩
  · exact .inl (hanswer hplan)
  · exact .inr ⟨_, e, hvalid, hanswer hplan⟩

theorem Serially.sound (h : Serially calendar t order u) (ht : t.Sound)
    (hcalls : ∀ a ∈ order, a.call.writesOne = true) : u.Sound := by
  induction h with
  | start => exact ht
  | call _ hcomplete ih =>
    have hlast := hcalls _ (List.mem_append_right _ (List.mem_singleton_self _))
    exact (hcomplete.outcome hlast).sound (ih fun a ha => hcalls a (List.mem_append_left _ ha))

/-- Of two added jobs of one name the later one is refused. -/
theorem Serially.duplicateRefused (h : Serially calendar t order u) (ht : t.Sound)
    (hcalls : ∀ a ∈ order, a.call.writesOne = true) :
    order.Pairwise DuplicateRefused ∧ ∀ a ∈ order, ∀ job now answer,
      a.call = .addJob job now → a.response = .ok answer →
        job.name ∈ u.store.jobs.map (·.name) := by
  induction h with
  | start => exact ⟨.nil, fun a ha => absurd ha List.not_mem_nil⟩
  | @call order u v call response hserial hcomplete ih =>
    have hbefore (a : AnsweredCall) (ha : a ∈ order) := hcalls a (List.mem_append_left _ ha)
    have hlast : call.writesOne = true :=
      hcalls _ (List.mem_append_right _ (List.mem_singleton_self _))
    have hsound := hserial.sound ht hbefore
    obtain ⟨hpairs, hstored⟩ := ih hbefore
    have houtcome := hcomplete.outcome hlast
    constructor
    · apply List.pairwise_append.mpr ⟨hpairs, List.pairwise_singleton _ _, ?_⟩
      intro a ha b hb job now job' now' answer hadd hok hadd' hname
      obtain rfl := List.mem_singleton.mp hb
      have htaken := hstored a ha job now answer hadd hok
      obtain rfl : call = .addJob job' now' := hadd'
      rw [← hname] at htaken
      exact hcomplete.response_of_taken hsound htaken
    · intro a ha job now answer hadd hok
      rcases List.mem_append.mp ha with hold | hnew
      · exact houtcome.name_kept hsound (hstored a hold job now answer hadd hok)
      · obtain rfl := List.mem_singleton.mp hnew
        obtain rfl : call = .addJob job now := hadd
        obtain rfl : response = .ok answer := hok
        exact houtcome.name_added hsound

/-- Each call of an order is executed on what the calls before it have left. -/
theorem Serially.split {later : List AnsweredCall} {a : AnsweredCall}
    (h : Serially calendar t (order ++ a :: later) u) :
    ∃ v w, Serially calendar t order v ∧ Completes calendar a.call v .called w a.response := by
  induction later using List.reverseRecOn generalizing u with
  | nil =>
    generalize hall : order ++ [a] = all at h
    cases h with
    | start => exact absurd hall (by simp)
    | call hserial hcomplete =>
      obtain ⟨rfl, hlast⟩ := List.append_inj' hall rfl
      cases hlast
      exact ⟨_, _, hserial, hcomplete⟩
  | append_singleton later b ih =>
    rw [← List.cons_append, ← List.append_assoc] at h
    generalize hall : (order ++ a :: later) ++ [b] = all at h
    cases h with
    | start => exact absurd hall (by simp)
    | call hserial hcomplete =>
      obtain ⟨rfl, -⟩ := List.append_inj' hall rfl
      exact ih hserial

end Serial

end DefinitionTables

end Supervisor
