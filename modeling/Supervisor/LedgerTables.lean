import Supervisor.ScheduleSystem
import Supervisor.StoreRows

namespace Supervisor

/-- The tables fit together: keys are unique, foreign keys hold, ids were drawn,
and no run row is ahead of its occurrence. -/
structure Store.Sound (s : Store) (drawn : Finset JobRunId) (jobIds : Finset JobId) : Prop where
  jobNames : KeyedRows.Unique Job.name s.jobs
  jobOfId : ∀ a ∈ s.jobs, ∀ b ∈ s.jobs, a.id = b.id → a.name = b.name
  jobDrawn : ∀ a ∈ s.jobs, a.id ∈ jobIds
  runIds : KeyedRows.Unique JobRun.runId s.runs
  occurrenceKeys : KeyedRows.Unique DurableScheduleOccurrence.key s.occurrences
  runJob : ∀ run ∈ s.runs, s.hasJob run.jobName run.jobId = true
  occurrenceJob : ∀ d ∈ s.occurrences, s.hasJob d.jobName d.jobId = true
  runDrawn : ∀ run ∈ s.runs, run.runId ∈ drawn
  occurrenceDrawn : ∀ d ∈ s.occurrences, ∀ r, d.runId = some r → r ∈ drawn
  runOccurrence : ∀ run ∈ s.runs, ∀ o, run.occurrence = some o →
    ∃ d ∈ s.occurrences, d.key = o.key run.jobId ∧ o.attempt ≤ d.occurrence.attempt

namespace Store

variable {s t : Store} {drawn : Finset JobRunId} {jobIds : Finset JobId}

theorem Sound.hasJob_jobName (hs : s.Sound drawn jobIds) {name name' : String} {id : JobId}
    (h : s.hasJob name id = true) (h' : s.hasJob name' id = true) : name = name' := by
  obtain ⟨a, ha, rfl, rfl⟩ := hasJob_iff.mp h
  obtain ⟨b, hb, rfl, hid⟩ := hasJob_iff.mp h'
  exact hs.jobOfId a ha b hb hid.symm

theorem Sound.mono (hs : s.Sound drawn jobIds) {drawn' : Finset JobRunId} {jobIds' : Finset JobId}
    (hd : drawn ⊆ drawn') (hj : jobIds ⊆ jobIds') : s.Sound drawn' jobIds' where
  __ := hs
  jobDrawn a ha := hj (hs.jobDrawn a ha)
  runDrawn run hrun := hd (hs.runDrawn run hrun)
  occurrenceDrawn d hmem r hr := hd (hs.occurrenceDrawn d hmem r hr)

/-- Changing the run table: each row afterwards belongs to a job and is not
ahead of its occurrence. -/
theorem Sound.withRuns (hs : s.Sound drawn jobIds) (hjobs : t.jobs = s.jobs)
    (hoccs : t.occurrences = s.occurrences) (hids : KeyedRows.Unique JobRun.runId t.runs)
    (hrows : ∀ run ∈ t.runs, s.hasJob run.jobName run.jobId = true ∧ run.runId ∈ drawn ∧
      ∀ o, run.occurrence = some o →
        ∃ d ∈ s.occurrences, d.key = o.key run.jobId ∧ o.attempt ≤ d.occurrence.attempt) :
    t.Sound drawn jobIds where
  jobNames := hjobs ▸ hs.jobNames
  jobOfId := hjobs ▸ hs.jobOfId
  jobDrawn := hjobs ▸ hs.jobDrawn
  runIds := hids
  occurrenceKeys := hoccs ▸ hs.occurrenceKeys
  runJob run hrun := by rw [hasJob_congr hjobs]; exact (hrows run hrun).1
  occurrenceJob := by rw [hasJob_congr hjobs, hoccs]; exact hs.occurrenceJob
  runDrawn run hrun := (hrows run hrun).2.1
  occurrenceDrawn := hoccs ▸ hs.occurrenceDrawn
  runOccurrence run hrun := by rw [hoccs]; exact (hrows run hrun).2.2

/-- Changing the ledger: no occurrence disappears or falls back to an earlier attempt. -/
theorem Sound.withOccurrences (hs : s.Sound drawn jobIds) (hjobs : t.jobs = s.jobs)
    (hruns : t.runs = s.runs) (hkeys : KeyedRows.Unique DurableScheduleOccurrence.key t.occurrences)
    (hrows : ∀ d ∈ t.occurrences, s.hasJob d.jobName d.jobId = true ∧
      ∀ r, d.runId = some r → r ∈ drawn)
    (hkept : ∀ d ∈ s.occurrences, ∃ d' ∈ t.occurrences, d'.key = d.key ∧
      d.occurrence.attempt ≤ d'.occurrence.attempt) :
    t.Sound drawn jobIds where
  jobNames := hjobs ▸ hs.jobNames
  jobOfId := hjobs ▸ hs.jobOfId
  jobDrawn := hjobs ▸ hs.jobDrawn
  runIds := hruns ▸ hs.runIds
  occurrenceKeys := hkeys
  runJob := by rw [hasJob_congr hjobs, hruns]; exact hs.runJob
  occurrenceJob d hd := by rw [hasJob_congr hjobs]; exact (hrows d hd).1
  runDrawn := hruns ▸ hs.runDrawn
  occurrenceDrawn d hd := (hrows d hd).2
  runOccurrence run hrun o ho := by
    obtain ⟨d, hd, hkey, hle⟩ := hs.runOccurrence run (hruns ▸ hrun) o ho
    obtain ⟨d', hd', hkey', hle'⟩ := hkept d hd
    exact ⟨d', hd', hkey'.trans hkey, hle.trans hle'⟩

/-- The attempt rows of an occurrence. -/
def attempts (s : Store) (d : DurableScheduleOccurrence) : List JobRun :=
  s.runs.filter fun row => row.occurrence.any fun o => o.key row.jobId = d.key

theorem mem_attempts {s : Store} {d : DurableScheduleOccurrence} {row : JobRun} :
    row ∈ s.attempts d ↔ row ∈ s.runs ∧ ∃ o, row.occurrence = some o ∧ o.key row.jobId = d.key := by
  simp [attempts, Option.any_eq_true]

theorem findOccurrence_mem {key : OccurrenceKey} {d : DurableScheduleOccurrence}
    (h : s.findOccurrence key = some d) : d ∈ s.occurrences ∧ d.key = key :=
  ⟨KeyedRows.find_mem h, KeyedRows.find_key h⟩

theorem Sound.mem_setOccurrence (hs : s.Sound drawn jobIds) {key : OccurrenceKey}
    {d : DurableScheduleOccurrence} (found : s.findOccurrence key = some d)
    (f : DurableScheduleOccurrence → DurableScheduleOccurrence) {d' : DurableScheduleOccurrence} :
    d' ∈ (s.setOccurrence key f).occurrences ↔ d' = f d ∨ d' ∈ s.occurrences ∧ d'.key ≠ key :=
  hs.occurrenceKeys.mem_update_iff found

/-- Rewriting one occurrence under its key keeps every occurrence of the ledger. -/
theorem Sound.kept_setOccurrence (hs : s.Sound drawn jobIds) {key : OccurrenceKey}
    {d : DurableScheduleOccurrence} (found : s.findOccurrence key = some d)
    {f : DurableScheduleOccurrence → DurableScheduleOccurrence}
    (hkey : (f d).key = d.key) (hattempt : d.occurrence.attempt ≤ (f d).occurrence.attempt)
    {d' : DurableScheduleOccurrence} (hd' : d' ∈ s.occurrences) :
    ∃ d'' ∈ (s.setOccurrence key f).occurrences, d''.key = d'.key ∧
      d'.occurrence.attempt ≤ d''.occurrence.attempt := by
  obtain ⟨hmem, hdkey⟩ := findOccurrence_mem found
  by_cases h : d'.key = key
  · have heq := hs.occurrenceKeys.eq_of_key hd' hmem (h.trans hdkey.symm)
    subst heq
    exact ⟨f d', (hs.mem_setOccurrence found f).mpr (.inl rfl), hkey, hattempt⟩
  · exact ⟨d', (hs.mem_setOccurrence found f).mpr (.inr ⟨hd', h⟩), rfl, le_rfl⟩

theorem Sound.setOccurrence (hs : s.Sound drawn jobIds) {key : OccurrenceKey}
    {d : DurableScheduleOccurrence} (found : s.findOccurrence key = some d)
    {f : DurableScheduleOccurrence → DurableScheduleOccurrence}
    (hkey : ∀ d, (f d).key = d.key) (hname : ∀ d, (f d).jobName = d.jobName)
    (hattempt : d.occurrence.attempt ≤ (f d).occurrence.attempt)
    (hrun : ∀ r, (f d).runId = some r → r ∈ drawn) :
    (s.setOccurrence key f).Sound drawn jobIds := by
  obtain ⟨hmem, -⟩ := findOccurrence_mem found
  have hid : (f d).jobId = d.jobId := congrArg OccurrenceKey.jobId (hkey d)
  refine hs.withOccurrences rfl rfl (hs.occurrenceKeys.update fun d h => (hkey d).trans h)
    (fun d' hd' => ?_) fun d' hd' => hs.kept_setOccurrence found (hkey d) hattempt hd'
  rcases (hs.mem_setOccurrence found f).mp hd' with rfl | ⟨hd', -⟩
  · rw [hname, hid]
    exact ⟨hs.occurrenceJob d hmem, hrun⟩
  · exact ⟨hs.occurrenceJob d' hd', hs.occurrenceDrawn d' hd'⟩

theorem Sound.claim (hs : s.Sound drawn jobIds) {job : Job} {occurrence : ScheduleOccurrence}
    {now : Instant} {durable : DurableScheduleOccurrence}
    (h : s.claimScheduleOccurrence job occurrence now = .ok (durable, t)) :
    t.Sound drawn jobIds := by
  obtain ⟨hjobs, hruns, hoccs | ⟨hnone, hjob, hoccs⟩⟩ := claimScheduleOccurrence_ok h
  · exact hs.withOccurrences hjobs hruns (hoccs ▸ hs.occurrenceKeys)
      (hoccs ▸ fun d hd => ⟨hs.occurrenceJob d hd, hs.occurrenceDrawn d hd⟩)
      (hoccs ▸ fun d hd => ⟨d, hd, rfl, le_rfl⟩)
  · refine hs.withOccurrences hjobs hruns ?_ ?_ ?_
    · rw [hoccs]
      exact hs.occurrenceKeys.append (KeyedRows.find_eq_none.mp hnone)
    · rw [hoccs]
      intro d hd
      obtain hd | hd := List.mem_append.mp hd
      · exact ⟨hs.occurrenceJob d hd, hs.occurrenceDrawn d hd⟩
      · rw [List.mem_singleton.mp hd]
        exact ⟨hjob, fun r hr => by cases hr⟩
    · rw [hoccs]
      exact fun d hd => ⟨d, List.mem_append_left _ hd, rfl, le_rfl⟩

theorem Sound.insertRun (hs : s.Sound drawn jobIds) {run : JobRun} (hdrawn : run.runId ∈ drawn)
    (hocc : ∀ o, run.occurrence = some o →
      ∃ d ∈ s.occurrences, d.key = o.key run.jobId ∧ o.attempt ≤ d.occurrence.attempt)
    (h : s.insertRun run = .ok t) : t.Sound drawn jobIds := by
  obtain ⟨hfresh, hjob, -, rfl⟩ := insertRun_ok h
  refine hs.withRuns rfl rfl (hs.runIds.append (KeyedRows.find_eq_none.mp hfresh)) ?_
  intro row hrow
  obtain hrow | hrow := List.mem_append.mp hrow
  · exact ⟨hs.runJob row hrow, hs.runDrawn row hrow, hs.runOccurrence row hrow⟩
  · rw [List.mem_singleton.mp hrow]
    exact ⟨hjob, hdrawn, hocc⟩

theorem findRun_mem {runId : JobRunId} {run : JobRun} (h : s.findRun runId = some run) :
    run ∈ s.runs ∧ run.runId = runId :=
  ⟨KeyedRows.find_mem h, KeyedRows.find_key h⟩

theorem Sound.mem_updateRun (hs : s.Sound drawn jobIds) {runId : JobRunId} {old : JobRun}
    (hold : s.findRun runId = some old) (f : JobRun → JobRun) {run : JobRun} :
    run ∈ KeyedRows.update JobRun.runId runId f s.runs ↔
      run = f old ∨ run ∈ s.runs ∧ run.runId ≠ runId :=
  hs.runIds.mem_update_iff hold

theorem Sound.saveRun (hs : s.Sound drawn jobIds) {run : JobRun} (hdrawn : run.runId ∈ drawn)
    (hocc : s.hasJob run.jobName run.jobId = true → ∀ o, run.occurrence = some o →
      ∃ d ∈ s.occurrences, d.key = o.key run.jobId ∧ o.attempt ≤ d.occurrence.attempt)
    (h : s.saveRun run = .ok t) : t.Sound drawn jobIds := by
  obtain ⟨hjobs, hoccs, hjob, ⟨old, hold, hname, hid, hruns⟩ | ⟨hnone, hruns⟩⟩ := saveRun_ok h
  · refine hs.withRuns hjobs hoccs (hruns ▸ hs.runIds.update fun _ h => h) ?_
    rw [hruns]
    intro row hrow
    obtain rfl | ⟨hrow, -⟩ := (hs.mem_updateRun hold _).mp hrow
    · obtain ⟨hmem, hrunId⟩ := findRun_mem hold
      refine ⟨hs.runJob old hmem, hs.runDrawn old hmem, fun o ho => ?_⟩
      simpa only [hid] using hocc hjob o ho
    · exact ⟨hs.runJob row hrow, hs.runDrawn row hrow, hs.runOccurrence row hrow⟩
  · refine hs.withRuns hjobs hoccs (hruns ▸ hs.runIds.append (KeyedRows.find_eq_none.mp hnone)) ?_
    rw [hruns]
    intro row hrow
    obtain hrow | hrow := List.mem_append.mp hrow
    · exact ⟨hs.runJob row hrow, hs.runDrawn row hrow, hs.runOccurrence row hrow⟩
    · rw [List.mem_singleton.mp hrow]
      exact ⟨hjob, hdrawn, hocc hjob⟩

theorem Sound.commitsTerminal (hs : s.Sound drawn jobIds) {run old : JobRun}
    (h : CommitsTerminal s t run old) : t.Sound drawn jobIds := by
  obtain ⟨hmem, -⟩ := findRun_mem h.found
  refine hs.withRuns h.jobs h.occurrences (h.runs ▸ hs.runIds.update fun _ h => h) ?_
  rw [h.runs]
  intro row hrow
  obtain rfl | ⟨hrow, -⟩ := (hs.mem_updateRun h.found _).mp hrow
  · exact ⟨hs.runJob old hmem, hs.runDrawn old hmem, hs.runOccurrence old hmem⟩
  · exact ⟨hs.runJob row hrow, hs.runDrawn row hrow, hs.runOccurrence row hrow⟩

theorem Sound.filterRuns (hs : s.Sound drawn jobIds) {keep : JobRun → Bool}
    (hjobs : t.jobs = s.jobs) (hoccs : t.occurrences = s.occurrences)
    (hruns : t.runs = s.runs.filter keep) : t.Sound drawn jobIds := by
  refine hs.withRuns hjobs hoccs (hruns ▸ hs.runIds.filter keep) ?_
  rw [hruns]
  intro row hrow
  have hrow := List.mem_of_mem_filter hrow
  exact ⟨hs.runJob row hrow, hs.runDrawn row hrow, hs.runOccurrence row hrow⟩

theorem Sound.admission (hs : s.Sound drawn jobIds) {job : Job} {occurrence : ScheduleOccurrence}
    {now : Instant} {runId : JobRunId} {answer : ScheduleAdmission}
    (hattempt : ∀ d, s.findOccurrence (occurrence.key job.id) = some d →
      occurrence.attempt ≤ d.occurrence.attempt)
    (h : AdmissionStep s job occurrence now runId answer t) :
    t.Sound (insert runId drawn) jobIds := by
  have hs' := hs.mono (Finset.subset_insert runId drawn) (Finset.Subset.refl jobIds)
  have hrun := Finset.mem_insert_self runId drawn
  have hinsert {d : DurableScheduleOccurrence} {u : Store}
      {f : DurableScheduleOccurrence → DurableScheduleOccurrence}
      {state : JobRunState} {endedAt : Option Instant}
      (found : s.findOccurrence (occurrence.key job.id) = some d)
      (h : (s.setOccurrence (occurrence.key job.id) f).insertRun
        (occurrenceRun job occurrence runId state endedAt) = .ok u)
      (hkey : ∀ d, (f d).key = d.key) (hname : ∀ d, (f d).jobName = d.jobName)
      (hsame : ∀ d, (f d).occurrence = d.occurrence) (hid : ∀ d, (f d).runId = some runId) :
      u.Sound (insert runId drawn) jobIds := by
    have hset := hs'.setOccurrence found hkey hname (by rw [hsame]) fun r hr => by
      rw [hid, Option.some.injEq] at hr
      exact hr ▸ hrun
    refine hset.insertRun hrun (fun o ho => ?_) h
    cases ho
    refine ⟨f d, (hs'.mem_setOccurrence found f).mpr (.inl rfl), ?_, ?_⟩
    · rw [hkey, (findOccurrence_mem found).2]
      rfl
    · rw [hsame]
      exact hattempt d found
  cases h with
  | settled _ _ => exact hs'
  | already _ _ => exact hs'
  | @queued d found _ _ _ =>
    exact hs'.setOccurrence found (fun _ => rfl) (fun _ => rfl) le_rfl
      (hs'.occurrenceDrawn d (findOccurrence_mem found).1)
  | skipped found _ _ _ h =>
    exact hinsert found h (fun _ => rfl) (fun _ => rfl) (fun _ => rfl) (fun _ => rfl)
  | started found _ _ h =>
    exact hinsert found h (fun _ => rfl) (fun _ => rfl) (fun _ => rfl) (fun _ => rfl)

theorem Sound.finalization (hs : s.Sound drawn jobIds) {job : Job} {run : JobRun}
    {now : Instant} {answer : ScheduleFinalization} (h : FinalizationStep s job run now answer t) :
    t.Sound drawn jobIds := by
  cases h with
  | retry retryAt hretryAt hocc found howner hfailed hmore =>
    refine hs.setOccurrence found (fun _ => rfl) (fun _ => rfl) ?_ (fun r hr => by cases hr)
    have hnext := U16.saturatingAdd_one hmore
    rw [Fin.le_def]
    exact Nat.le_of_lt (hnext ▸ Nat.lt_succ_self _)
  | @final _ d hocc found howner hlast =>
    exact hs.setOccurrence found (fun _ => rfl) (fun _ => rfl) le_rfl
      (hs.occurrenceDrawn d (findOccurrence_mem found).1)

theorem mem_recover {now : Instant} {d' : DurableScheduleOccurrence} :
    d' ∈ (s.recoverScheduleOccurrences now).occurrences ↔
      ∃ d ∈ s.occurrences, (d.state = .running ∧
          d' = { d with state := .retryPending, nextAttemptAt := now, runId := none }) ∨
        (d.state ≠ .running ∧ d' = d) := by
  simp only [recoverScheduleOccurrences, List.mem_map]
  refine exists_congr fun d => and_congr_right fun _ => ?_
  by_cases hd : d.state = .running
  · simp [hd, eq_comm]
  · simp [hd, eq_comm]

theorem Sound.recover (hs : s.Sound drawn jobIds) (now : Instant) :
    (s.recoverScheduleOccurrences now).Sound drawn jobIds := by
  refine hs.withOccurrences rfl rfl (recover_keys now hs.occurrenceKeys) (fun d' hd' => ?_)
    fun d hd => ?_
  · obtain ⟨d, hd, ⟨-, rfl⟩ | ⟨-, rfl⟩⟩ := mem_recover.mp hd'
    · exact ⟨hs.occurrenceJob d hd, fun r hr => by cases hr⟩
    · exact ⟨hs.occurrenceJob d' hd, hs.occurrenceDrawn d' hd⟩
  · by_cases hrun : d.state = .running
    · exact ⟨_, mem_recover.mpr ⟨d, hd, .inl ⟨hrun, rfl⟩⟩, rfl, le_rfl⟩
    · exact ⟨d, mem_recover.mpr ⟨d, hd, .inr ⟨hrun, rfl⟩⟩, rfl, le_rfl⟩

theorem hasJob_deleteJob {name n : String} {id : JobId} :
    (s.deleteJob name).hasJob n id = true ↔ s.hasJob n id = true ∧ n ≠ name := by
  rw [hasJob_iff, hasJob_iff]
  simp only [deleteJob, List.mem_filter, decide_eq_true_eq]
  constructor
  · rintro ⟨job, ⟨hmem, hne⟩, rfl, rfl⟩
    exact ⟨⟨job, hmem, rfl, rfl⟩, hne⟩
  · rintro ⟨⟨job, hmem, rfl, rfl⟩, hne⟩
    exact ⟨job, ⟨hmem, hne⟩, rfl, rfl⟩

theorem Sound.deleteJob (hs : s.Sound drawn jobIds) (name : String) :
    (s.deleteJob name).Sound drawn jobIds where
  jobNames := hs.jobNames.filter _
  jobOfId a ha b hb := hs.jobOfId a (List.mem_of_mem_filter ha) b (List.mem_of_mem_filter hb)
  jobDrawn a ha := hs.jobDrawn a (List.mem_of_mem_filter ha)
  runIds := hs.runIds.filter _
  occurrenceKeys := hs.occurrenceKeys.filter _
  runJob run hrun := by
    obtain ⟨hmem, hne⟩ := List.mem_filter.mp hrun
    exact hasJob_deleteJob.mpr ⟨hs.runJob run hmem, by simpa using hne⟩
  occurrenceJob d hd := by
    obtain ⟨hmem, hne⟩ := List.mem_filter.mp hd
    exact hasJob_deleteJob.mpr ⟨hs.occurrenceJob d hmem, by simpa using hne⟩
  runDrawn run hrun := hs.runDrawn run (List.mem_of_mem_filter hrun)
  occurrenceDrawn d hd := hs.occurrenceDrawn d (List.mem_of_mem_filter hd)
  runOccurrence run hrun o ho := by
    obtain ⟨hmem, hne⟩ := List.mem_filter.mp hrun
    obtain ⟨d, hd, hkey, hle⟩ := hs.runOccurrence run hmem o ho
    refine ⟨d, List.mem_filter.mpr ⟨hd, ?_⟩, hkey, hle⟩
    -- both rows name the job of one id
    have hid : d.jobId = run.jobId := congrArg OccurrenceKey.jobId hkey
    have hjob := hs.occurrenceJob d hd
    rw [hid] at hjob
    rw [hs.hasJob_jobName hjob (hs.runJob run hmem)]
    exact hne

theorem getJob_mem {name : String} {job : Job} (h : s.getJob name = some job) :
    job ∈ s.jobs ∧ job.name = name :=
  ⟨KeyedRows.find_mem h, KeyedRows.find_key h⟩

/-- Saving a definition under a stored name keeps that job's id. -/
theorem hasJob_saveJob_of_some (hs : s.Sound drawn jobIds) {job old : Job}
    (hold : s.getJob job.name = some old) (name : String) (id : JobId) :
    (s.saveJob job).hasJob name id = s.hasJob name id := by
  rw [Bool.eq_iff_iff, hasJob_iff, hasJob_iff]
  obtain ⟨hmem, hname⟩ := getJob_mem hold
  have hjobs : (s.saveJob job).jobs =
      KeyedRows.update Job.name job.name (fun _ => { job with id := old.id }) s.jobs := by
    rw [saveJob, hold]
  constructor
  · rintro ⟨a, ha, rfl, rfl⟩
    rw [hjobs, hs.jobNames.mem_update_iff hold] at ha
    obtain rfl | ⟨ha, -⟩ := ha
    · exact ⟨old, hmem, hname, rfl⟩
    · exact ⟨a, ha, rfl, rfl⟩
  · rintro ⟨a, ha, rfl, rfl⟩
    rw [hjobs]
    by_cases h : a.name = job.name
    · have heq := hs.jobNames.eq_of_key ha hmem (h.trans hname.symm)
      exact ⟨{ job with id := old.id }, (hs.jobNames.mem_update_iff hold).mpr (.inl rfl),
        h.symm, by rw [heq]⟩
    · exact ⟨a, (hs.jobNames.mem_update_iff hold).mpr (.inr ⟨ha, h⟩), rfl, rfl⟩

theorem hasJob_saveJob_of_none {job : Job} (hnone : s.getJob job.name = none) (name : String)
    (id : JobId) : (s.saveJob job).hasJob name id = true ↔
      s.hasJob name id = true ∨ job.name = name ∧ job.id = id := by
  have hjobs : (s.saveJob job).jobs = s.jobs ++ [job] := by rw [saveJob, hnone]
  rw [hasJob_iff, hasJob_iff, hjobs]
  simp [or_and_right, exists_or]

theorem Sound.saveJob_of_some (hs : s.Sound drawn jobIds) {job old : Job}
    (hold : s.getJob job.name = some old) : (s.saveJob job).Sound drawn jobIds := by
  obtain ⟨hmem, hname⟩ := getJob_mem hold
  have hjob := hasJob_saveJob_of_some hs hold
  have hmem_iff (a : Job) : a ∈ (s.saveJob job).jobs ↔
      a = { job with id := old.id } ∨ a ∈ s.jobs ∧ a.name ≠ job.name := by
    rw [saveJob, hold]
    exact hs.jobNames.mem_update_iff hold
  have hrest : (s.saveJob job).runs = s.runs ∧ (s.saveJob job).occurrences = s.occurrences := by
    rw [saveJob, hold]
    exact ⟨rfl, rfl⟩
  exact {
    jobNames := by
      rw [saveJob, hold]
      exact hs.jobNames.update fun _ _ => rfl
    jobOfId := by
      intro a ha b hb hid
      rw [hmem_iff] at ha hb
      obtain rfl | ⟨ha, hane⟩ := ha <;> obtain rfl | ⟨hb, hbne⟩ := hb
      · rfl
      · exact hname.symm.trans (hs.jobOfId old hmem b hb hid)
      · exact (hs.jobOfId a ha old hmem hid).trans hname
      · exact hs.jobOfId a ha b hb hid
    jobDrawn := by
      intro a ha
      rw [hmem_iff] at ha
      obtain rfl | ⟨ha, -⟩ := ha
      · exact hs.jobDrawn old hmem
      · exact hs.jobDrawn a ha
    runIds := hrest.1 ▸ hs.runIds
    occurrenceKeys := hrest.2 ▸ hs.occurrenceKeys
    runJob := by rw [hrest.1]; exact fun run hrun => (hjob _ _).trans (hs.runJob run hrun)
    occurrenceJob := by rw [hrest.2]; exact fun d hd => (hjob _ _).trans (hs.occurrenceJob d hd)
    runDrawn := hrest.1 ▸ hs.runDrawn
    occurrenceDrawn := hrest.2 ▸ hs.occurrenceDrawn
    runOccurrence := by rw [hrest.1, hrest.2]; exact hs.runOccurrence }

theorem Sound.saveJob_of_none (hs : s.Sound drawn jobIds) {job : Job}
    (hnone : s.getJob job.name = none) (hfresh : job.id ∉ jobIds) :
    (s.saveJob job).Sound drawn (insert job.id jobIds) := by
  have hjob := hasJob_saveJob_of_none hnone
  have hstore : s.saveJob job = { s with jobs := s.jobs ++ [job] } := by rw [saveJob, hnone]
  have hold (name : String) (id : JobId) (h : s.hasJob name id = true) :
      (s.saveJob job).hasJob name id = true := (hjob name id).mpr (.inl h)
  rw [hstore] at hold ⊢
  exact {
    jobNames := hs.jobNames.append (KeyedRows.find_eq_none.mp hnone)
    jobOfId := by
      intro a ha b hb hid
      obtain ha | ha := List.mem_append.mp ha <;> obtain hb | hb := List.mem_append.mp hb
      · exact hs.jobOfId a ha b hb hid
      · rw [List.mem_singleton.mp hb] at hid
        exact absurd (hid ▸ hs.jobDrawn a ha) hfresh
      · rw [List.mem_singleton.mp ha] at hid
        exact absurd (hid ▸ hs.jobDrawn b hb) hfresh
      · rw [List.mem_singleton.mp ha, List.mem_singleton.mp hb]
    jobDrawn := by
      intro a ha
      obtain ha | ha := List.mem_append.mp ha
      · exact Finset.mem_insert_of_mem (hs.jobDrawn a ha)
      · rw [List.mem_singleton.mp ha]
        exact Finset.mem_insert_self _ _
    runIds := hs.runIds
    occurrenceKeys := hs.occurrenceKeys
    runJob run hrun := hold _ _ (hs.runJob run hrun)
    occurrenceJob d hd := hold _ _ (hs.occurrenceJob d hd)
    runDrawn := hs.runDrawn
    occurrenceDrawn := hs.occurrenceDrawn
    runOccurrence := hs.runOccurrence }

theorem terminalRun_spec (ticket : CleanupTicket) (run : JobRun) :
    (ticket.terminalRun run).runId = run.runId ∧
      (ticket.terminalRun run).state =
        if run.state.isTerminal then run.state else ticket.intendedTerminalState := by
  unfold CleanupTicket.terminalRun
  split <;> exact ⟨rfl, rfl⟩

/-- What finishing a cleanup ticket does to the run it is about. -/
theorem finishTransientCleanup_spec (ticket : CleanupTicket) (eventId : Uuid) :
    (s.finishTransientCleanup ticket eventId).jobs = s.jobs ∧
      (s.finishTransientCleanup ticket eventId).occurrences = s.occurrences ∧
      ((s.finishTransientCleanup ticket eventId).runs = s.runs ∨
        ∃ row, row.runId = ticket.runId ∧
          CommitsTerminal s (s.finishTransientCleanup ticket eventId) (ticket.terminalRun row)
            row) := by
  simp only [finishTransientCleanup]
  split
  · exact ⟨rfl, rfl, .inl rfl⟩
  · rename_i row hrow
    obtain ⟨hfound, -⟩ := Option.filter_eq_some_iff.mp hrow
    have hid : row.runId = ticket.runId := (findRun_mem hfound).2
    split
    · rename_i u hcommit
      obtain ⟨old, hold⟩ := commitTransientCleanupTerminal_ok hcommit
      have hsame : old = row := by
        have hcommitted := hold.found
        rw [(terminalRun_spec ticket row).1, hid, hfound, Option.some.injEq] at hcommitted
        exact hcommitted.symm
      subst hsame
      exact ⟨hold.jobs, hold.occurrences, .inr ⟨old, hid,
        ⟨hold.found, hold.jobName, hold.jobId, hold.jobs, hold.occurrences, hold.runs⟩⟩⟩
    · exact ⟨rfl, rfl, .inl rfl⟩

end Store

end Supervisor
