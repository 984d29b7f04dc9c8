import Mathlib.Data.Finset.Card
import Supervisor.ScheduleInvariant

namespace Supervisor

/-- A scheduled run that has not ended. -/
def JobRun.isOpen (row : JobRun) : Bool := row.occurrence.isSome && !row.state.isTerminal

def Store.openRuns (s : Store) (jobId : JobId) : ℕ :=
  s.runs.countP fun row => row.jobId = jobId && row.isOpen

namespace ScheduleState

/-- The runner of the run has committed its end and finalises the attempt next. -/
def settles (s : ScheduleState) (jobId : JobId) (runId : JobRunId) : Bool :=
  (s.runners runId).any fun task => task.job.id = jobId && task.point = .committed

def settlingRuns (s : ScheduleState) (jobId : JobId) : ℕ :=
  (s.drawn.filter fun r => s.settles jobId r).card

/-- The run that an occurrence is running under is open, or just about to settle it. -/
def Held (s : ScheduleState) (d : DurableScheduleOccurrence) : Prop :=
  ∃ r, d.runId = some r ∧
    ((∃ row ∈ s.store.runs, row.runId = r ∧ row.jobId = d.jobId ∧ row.isOpen = true) ∨
      s.settles d.jobId r = true)

/-- No occurrence keeps its slot after its run has ended. -/
def SlotsBounded (s : ScheduleState) : Prop :=
  s.booting = false →
    (∀ d ∈ s.store.occurrences, d.state = .running → s.Held d) ∧
      ∀ jobId, s.store.runningOccurrences jobId ≤ s.store.openRuns jobId + s.settlingRuns jobId

end ScheduleState

/-- A cleanup ends no run that its occurrence is still running under, and no
finalisation of a stored job fails in the repository. -/
def slotGuard (s : ScheduleState) : ScheduleEvent → Bool
  | .finishCleanup cleanupId _ => s.booting || decide (
      ∀ ticket ∈ KeyedRows.find CleanupTicket.cleanupId cleanupId s.store.cleanups,
        ∀ d ∈ s.store.occurrences, d.state = .running → d.runId ≠ some ticket.runId)
  | .finalizeFailed runId => decide (
      ∀ task ∈ s.runners runId, ∀ job ∈ s.store.jobs, job.id ≠ task.job.id)
  | _ => true

namespace ScheduleState

variable {s t : ScheduleState}

structure SlotsHeld (s : ScheduleState) : Prop where
  held : s.booting = false → ∀ d ∈ s.store.occurrences, d.state = .running → s.Held d
  owner : ∀ r task, s.runners r = some task → ∀ d ∈ s.store.occurrences, d.runId = some r →
    d.jobId = task.job.id

theorem settles_iff {jobId : JobId} {r : JobRunId} : s.settles jobId r = true ↔
    ∃ task, s.runners r = some task ∧ task.job.id = jobId ∧ task.point = .committed := by
  simp [settles, Option.any_eq_true]

/-- The running occurrences of a job have different runs, each open or settling. -/
theorem running_le (hs : s.Sound) (jobId : JobId)
    (hheld : ∀ d ∈ s.store.occurrences, d.state = .running → s.Held d) :
    s.store.runningOccurrences jobId ≤ s.store.openRuns jobId + s.settlingRuns jobId := by
  let running := s.store.occurrences.filter fun d => d.jobId = jobId && d.state = .running
  let opens := s.store.runs.filter fun row => row.jobId = jobId && row.isOpen
  have hmem (d : DurableScheduleOccurrence) : d ∈ running ↔
      d ∈ s.store.occurrences ∧ d.jobId = jobId ∧ d.state = .running := by
    simp [running]
  have hnodup : (running.map DurableScheduleOccurrence.runId).Nodup := by
    have hrunning : running.Nodup := (List.Nodup.of_map _ hs.store.occurrenceKeys).filter _
    refine List.Nodup.map_on (fun d hd d' hd' heq => ?_) hrunning
    obtain ⟨hmem₁, -, hstate⟩ := (hmem d).mp hd
    obtain ⟨hmem₂, -, -⟩ := (hmem d').mp hd'
    obtain ⟨r, hr, -⟩ := hheld d hmem₁ hstate
    exact hs.owners d hmem₁ d' hmem₂ r hr (heq ▸ hr)
  have hsub : (running.map DurableScheduleOccurrence.runId).toFinset ⊆
      (opens.map fun row => some row.runId).toFinset ∪
        (s.drawn.filter fun r => s.settles jobId r).image some := by
    intro x hx
    rw [List.mem_toFinset, List.mem_map] at hx
    obtain ⟨d, hrunning, rfl⟩ := hx
    obtain ⟨hd, rfl, hstate⟩ := (hmem d).mp hrunning
    obtain ⟨r, hr, ⟨row, hrow, hid, hjob, hopen⟩ | hsettles⟩ := hheld d hd hstate
    · refine Finset.mem_union_left _ (List.mem_toFinset.mpr (List.mem_map.mpr ⟨row, ?_, ?_⟩))
      · simp [opens, hrow, hjob, hopen]
      · rw [hr, hid]
    · refine Finset.mem_union_right _ (Finset.mem_image.mpr ⟨r, ?_, hr.symm⟩)
      exact Finset.mem_filter.mpr ⟨hs.store.occurrenceDrawn d hd r hr, hsettles⟩
  calc s.store.runningOccurrences jobId
      = (running.map DurableScheduleOccurrence.runId).toFinset.card := by
        rw [List.toFinset_card_of_nodup hnodup, List.length_map, Store.runningOccurrences,
          List.countP_eq_length_filter]
    _ ≤ (opens.map fun row => some row.runId).toFinset.card +
          ((s.drawn.filter fun r => s.settles jobId r).image some).card :=
        (Finset.card_le_card hsub).trans (Finset.card_union_le _ _)
    _ ≤ opens.length + (s.drawn.filter fun r => s.settles jobId r).card := by
        refine Nat.add_le_add ?_ Finset.card_image_le
        exact (List.toFinset_card_le _).trans_eq (List.length_map _)
    _ = s.store.openRuns jobId + s.settlingRuns jobId := by
        rw [Store.openRuns, List.countP_eq_length_filter, settlingRuns]

theorem SlotsHeld.owner_of (h : s.SlotsHeld)
    (hoccs : ∀ d ∈ t.store.occurrences, ∀ r, d.runId = some r →
      ∃ d' ∈ s.store.occurrences, d'.runId = some r ∧ d'.jobId = d.jobId)
    (hrunners : ∀ r task, t.runners r = some task →
      ∃ task', s.runners r = some task' ∧ task'.job.id = task.job.id) :
    ∀ r task, t.runners r = some task → ∀ d ∈ t.store.occurrences, d.runId = some r →
      d.jobId = task.job.id := by
  intro r task htask d hd hr
  obtain ⟨task', htask', hjob⟩ := hrunners r task htask
  obtain ⟨d', hd', hr', hid⟩ := hoccs d hd r hr
  rw [← hid, ← hjob]
  exact h.owner r task' htask' d' hd' hr'

theorem Held.mono {d : DurableScheduleOccurrence} (h : s.Held d)
    (hrows : ∀ row ∈ s.store.runs, d.runId = some row.runId → row.jobId = d.jobId →
      row.isOpen = true → (∃ row' ∈ t.store.runs, row'.runId = row.runId ∧
        row'.jobId = d.jobId ∧ row'.isOpen = true) ∨ t.settles d.jobId row.runId = true)
    (hrunners : ∀ r, d.runId = some r → s.settles d.jobId r = true →
      t.settles d.jobId r = true) : t.Held d := by
  obtain ⟨r, hr, ⟨row, hrow, rfl, hjob, hopen⟩ | hsettles⟩ := h
  · exact ⟨row.runId, hr, hrows row hrow hr hjob hopen⟩
  · exact ⟨r, hr, .inr (hrunners r hr hsettles)⟩

/-- Events that leave ledger, rows and the settling runners alone. -/
theorem SlotsHeld.of_eq (h : s.SlotsHeld) (hboot : t.booting = false → s.booting = false)
    (hoccs : t.store.occurrences = s.store.occurrences) (hruns : t.store.runs = s.store.runs)
    (hrunners : ∀ r task, t.runners r = some task →
      ∃ task', s.runners r = some task' ∧ task'.job.id = task.job.id)
    (hsettles : ∀ d ∈ s.store.occurrences, ∀ r, d.runId = some r →
      s.settles d.jobId r = true → t.settles d.jobId r = true) :
    t.SlotsHeld := by
  constructor
  · intro hbooting d hd hrunning
    rw [hoccs] at hd
    refine (h.held (hboot hbooting) d hd hrunning).mono (fun row hrow _ hjob hopen => ?_)
      (hsettles d hd)
    exact .inl ⟨row, hruns.symm ▸ hrow, rfl, hjob, hopen⟩
  · exact h.owner_of (fun d hd r hr => ⟨d, hoccs ▸ hd, hr, rfl⟩) hrunners

theorem same_runners (r : JobRunId) (task : RunnerTask) (h : s.runners r = some task) :
    ∃ task', s.runners r = some task' ∧ task'.job.id = task.job.id := ⟨task, h, rfl⟩

theorem settles_setRunner_of_ne {jobId : JobId} {r runId : JobRunId} {task : Option RunnerTask}
    (hne : r ≠ runId) : (s.setRunner runId task).settles jobId r = s.settles jobId r := by
  rw [settles, settles, setRunner_runners, Function.update_of_ne hne]

theorem fewer_runners (runId r : JobRunId) (task : RunnerTask)
    (h : (s.setRunner runId none).runners r = some task) :
    ∃ task', s.runners r = some task' ∧ task'.job.id = task.job.id :=
  ⟨task, runners_setRunner_none h, rfl⟩

theorem SlotsHeld.runnerGone (h : s.SlotsHeld) {runId : JobRunId} {store : Store}
    (hpoint : ∀ d ∈ s.store.occurrences, d.runId = some runId →
      s.settles d.jobId runId = true → False)
    (hruns : store.runs = s.store.runs) (hoccs : store.occurrences = s.store.occurrences) :
    SlotsHeld ({ s with store }.setRunner runId none) := by
  refine h.of_eq id hoccs hruns (fewer_runners (s := { s with store }) runId)
    fun d hd r hr hsettles => ?_
  by_cases hne : r = runId
  · subst hne
    exact absurd hsettles fun hsettles => hpoint d hd hr hsettles
  · rw [settles_setRunner_of_ne hne]
    exact hsettles

/-- A runner moves to another point; a settling runner stays where it is. -/
theorem SlotsHeld.runnerMoved (h : s.SlotsHeld) {runId : JobRunId} {task task' : RunnerTask}
    {store : Store} (htask : s.runners runId = some task) (hjob : task'.job = task.job)
    (hpoint : task.point ≠ .committed) (hoccs : store.occurrences = s.store.occurrences)
    (hrows : ∀ d ∈ s.store.occurrences, ∀ row ∈ s.store.runs, d.runId = some row.runId →
      row.jobId = d.jobId → row.isOpen = true → (∃ row' ∈ store.runs,
        row'.runId = row.runId ∧ row'.jobId = d.jobId ∧ row'.isOpen = true) ∨
          row.runId = runId ∧ task'.point = .committed) :
    SlotsHeld ({ s with store }.setRunner runId (some task')) := by
  have hold (jobId : JobId) : s.settles jobId runId = false := by
    rw [settles, htask]
    simp [hpoint]
  constructor
  · intro hbooting d hd hrunning
    change d ∈ store.occurrences at hd
    rw [hoccs] at hd
    refine (h.held hbooting d hd hrunning).mono (fun row hrow hr hrowJob hopen => ?_)
      fun r hr hsettles => ?_
    · rcases hrows d hd row hrow hr hrowJob hopen with hkept | ⟨rfl, hcommitted⟩
      · exact .inl hkept
      · refine .inr (settles_iff.mpr ⟨task', ?_, ?_, hcommitted⟩)
        · rw [setRunner_runners, Function.update_self]
        · rw [hjob]
          exact (h.owner _ task htask d hd hr).symm
    · have hne : r ≠ runId := by
        rintro rfl
        rw [hold] at hsettles
        cases hsettles
      rw [settles_setRunner_of_ne hne]
      exact hsettles
  · refine h.owner_of (fun d hd r hr => ⟨d, hoccs ▸ hd, hr, rfl⟩) fun r task'' h' => ?_
    by_cases hne : r = runId
    · subst hne
      rw [setRunner_runners, Function.update_self, Option.some.injEq] at h'
      exact ⟨task, htask, by rw [← h', hjob]⟩
    · rw [setRunner_runners, Function.update_of_ne hne] at h'
      exact ⟨task'', h', rfl⟩

theorem SlotsHeld.jobDeleted (hs : s.Sound) (h : s.SlotsHeld) (name : String) :
    SlotsHeld { s with store := s.store.deleteJob name } := by
  constructor
  · intro hbooting d hd hrunning
    obtain ⟨hd, hname⟩ := List.mem_filter.mp hd
    refine (h.held hbooting d hd hrunning).mono (fun row hrow _ hjob hopen => .inl ?_) fun _ _ h => h
    refine ⟨row, List.mem_filter.mpr ⟨hrow, ?_⟩, rfl, hjob, hopen⟩
    -- the row and the occurrence name the same job
    have hrowJob := hs.store.runJob row hrow
    rw [hjob] at hrowJob
    rw [hs.store.hasJob_jobName hrowJob (hs.store.occurrenceJob d hd)]
    exact hname
  · refine h.owner_of (fun d hd r hr => ?_) same_runners
    exact ⟨d, List.mem_of_mem_filter hd, hr, rfl⟩

theorem SlotsHeld.claimed (h : s.SlotsHeld) {job : Job} {occurrence : ScheduleOccurrence}
    {now : Instant} {durable : DurableScheduleOccurrence} {store : Store}
    (hclaim : s.store.claimScheduleOccurrence job occurrence now = .ok (durable, store)) :
    SlotsHeld { s with store } := by
  obtain ⟨-, hruns, hoccs | ⟨-, -, hoccs⟩⟩ := Store.claimScheduleOccurrence_ok hclaim
  · exact h.of_eq id hoccs hruns same_runners fun _ _ _ _ h => h
  · constructor
    · intro hbooting d hd hrunning
      change d ∈ store.occurrences at hd
      rw [hoccs, List.mem_append, List.mem_singleton] at hd
      rcases hd with hd | rfl
      · refine (h.held hbooting d hd hrunning).mono (fun row hrow _ hjob hopen => .inl ?_)
          fun _ _ h => h
        exact ⟨row, hruns.symm ▸ hrow, rfl, hjob, hopen⟩
      · cases hrunning
    · refine h.owner_of (fun d hd r hr => ?_) same_runners
      change d ∈ store.occurrences at hd
      rw [hoccs, List.mem_append, List.mem_singleton] at hd
      rcases hd with hd | rfl
      · exact ⟨d, hd, hr, rfl⟩
      · cases hr

/-- One occurrence is rewritten under its key; the rows and the settling runners
of the others stay. -/
theorem SlotsHeld.of_setOccurrence (hs : s.Sound) (h : s.SlotsHeld) {key : OccurrenceKey}
    {d : DurableScheduleOccurrence} (found : s.store.findOccurrence key = some d)
    {f : DurableScheduleOccurrence → DurableScheduleOccurrence}
    (hboot : t.booting = false → s.booting = false)
    (hoccs : t.store.occurrences = (s.store.setOccurrence key f).occurrences)
    (hruns : ∀ row ∈ s.store.runs, row ∈ t.store.runs)
    (hheld : (f d).state = .running → t.Held (f d))
    (hsettles : ∀ d' ∈ s.store.occurrences, d'.key ≠ key → ∀ r, d'.runId = some r →
      s.settles d'.jobId r = true → t.settles d'.jobId r = true)
    (howner : ∀ r task, t.runners r = some task →
      (∀ d' ∈ s.store.occurrences, d'.key ≠ key → d'.runId = some r → d'.jobId = task.job.id) ∧
        ((f d).runId = some r → (f d).jobId = task.job.id)) :
    t.SlotsHeld := by
  constructor
  · intro hbooting d' hd' hrunning
    rw [hoccs] at hd'
    rcases (hs.store.mem_setOccurrence found f).mp hd' with rfl | ⟨hd', hne⟩
    · exact hheld hrunning
    · exact (h.held (hboot hbooting) d' hd' hrunning).mono
        (fun row hrow _ hjob hopen => .inl ⟨row, hruns row hrow, rfl, hjob, hopen⟩)
        (hsettles d' hd' hne)
  · intro r task htask d' hd' hr
    rw [hoccs] at hd'
    rcases (hs.store.mem_setOccurrence found f).mp hd' with rfl | ⟨hd', hne⟩
    · exact (howner r task htask).2 hr
    · exact (howner r task htask).1 d' hd' hne hr

theorem SlotsHeld.admitted (hs : s.Sound) (h : s.SlotsHeld) {p : ℕ} {now : Instant}
    {item : DurableScheduleOccurrence} {rest : List DurableScheduleOccurrence} {runId : JobRunId}
    {job : Job} {answer : ScheduleAdmission} {store : Store} (hfresh : runId ∉ s.drawn)
    (hstep : Store.AdmissionStep s.store job item.occurrence now runId answer store) :
    SlotsHeld ((s.admitted job runId store answer).setPass p ⟨now, rest⟩) := by
  have hnone : s.runners runId = none := by
    by_contra htask
    obtain ⟨task, htask⟩ := Option.ne_none_iff_exists'.mp htask
    exact hfresh (hs.runners runId task htask).drawn
  have hother (r : JobRunId) (task : RunnerTask) (htask : s.runners r = some task)
      (d : DurableScheduleOccurrence) (hd : d ∈ s.store.occurrences) (hr : d.runId = some r) :
      d.jobId = task.job.id := h.owner r task htask d hd hr
  cases hstep with
  | settled | already => exact h.of_eq id rfl rfl same_runners fun _ _ _ _ h => h
  | @queued d found hwaits hfull hroom =>
    obtain ⟨hmem, -⟩ := Store.findOccurrence_mem found
    refine h.of_setOccurrence hs found id rfl (fun _ hrow => hrow) (fun h => by cases h)
      (fun _ _ _ _ _ h => h) fun r task htask => ⟨fun d' hd' _ => hother r task htask d' hd',
        hother r task htask d hmem⟩
  | @skipped d _ found hwaits hfull hover hinsert =>
    obtain ⟨-, -, -, heq⟩ := Store.insertRun_ok hinsert
    subst heq
    refine h.of_setOccurrence hs found id rfl (fun _ hrow => List.mem_append_left _ hrow)
      (fun h => by cases h) (fun _ _ _ _ _ h => h) fun r task htask =>
        ⟨fun d' hd' _ => hother r task htask d' hd', fun hr => ?_⟩
    have hr : runId = r := Option.some.inj hr
    have htask : s.runners r = some task := htask
    rw [← hr, hnone] at htask
    cases htask
  | @started d _ found hwaits hfree hinsert =>
    obtain ⟨-, hdkey⟩ := Store.findOccurrence_mem found
    have hjobId : d.jobId = job.id := congrArg OccurrenceKey.jobId hdkey
    obtain ⟨-, -, -, heq⟩ := Store.insertRun_ok hinsert
    subst heq
    have hkept (r : JobRunId) (hne : r ≠ runId) (task : RunnerTask)
        (htask : (s.setRunner runId (some ⟨job, runnerRun job d.occurrence runId, .starting⟩)).runners
          r = some task) : s.runners r = some task := by
      rwa [setRunner_runners, Function.update_of_ne hne] at htask
    refine h.of_setOccurrence hs found id rfl (fun _ hrow => List.mem_append_left _ hrow)
      (fun _ => ?_) (fun d' hd' _ r hr hsettles => ?_) fun r task htask => ?_
    · refine ⟨runId, rfl, .inl ⟨_, List.mem_append_right _ (List.mem_singleton.mpr rfl), rfl, ?_,
        rfl⟩⟩
      exact hjobId.symm
    · have hne : r ≠ runId := by
        rintro rfl
        exact hfresh (hs.store.occurrenceDrawn d' hd' r hr)
      obtain ⟨task, htask, hpoint⟩ := settles_iff.mp hsettles
      refine settles_iff.mpr ⟨task, ?_, hpoint⟩
      exact (Function.update_of_ne hne _ _).trans htask
    · by_cases hne : r = runId
      · subst hne
        simp only [ScheduleState.admitted, setPass_runners, setRunner_runners,
          Function.update_self, Option.some.injEq] at htask
        subst htask
        refine ⟨fun d' hd' _ hr => ?_, fun _ => hjobId⟩
        exact absurd (hs.store.occurrenceDrawn d' hd' r hr) hfresh
      · refine ⟨fun d' hd' _ => hother r task (hkept r hne task htask) d' hd', fun hr => ?_⟩
        exact absurd (Option.some.inj hr).symm hne

theorem SlotsHeld.runnerRunning (hs : s.Sound) (h : s.SlotsHeld) {r : JobRunId} {job : Job}
    {run : JobRun} {store : Store} (htask : s.runners r = some ⟨job, run, .starting⟩)
    (hsave : s.store.saveRun run = .ok store ∨ store = s.store) :
    SlotsHeld { s.setRunner r (some ⟨job, run, .running⟩) with store } := by
  rcases hsave with hsave | rfl
  · obtain ⟨-, hoccs, -, hruns⟩ := Store.saveRun_ok hsave
    obtain ⟨o, ho, -⟩ := (hs.runners r _ htask).occurrence
    have hstate : run.state = .running := (hs.runners r _ htask).saved (.inl rfl)
    have ho : run.occurrence = some o := ho
    refine h.runnerMoved htask rfl (by simp) hoccs fun d hd row hrow _ hjob hopen => .inl ?_
    rcases hruns with ⟨old, hold, -, holdId, hruns⟩ | ⟨-, hruns⟩
    · by_cases hne : row.runId = run.runId
      · -- the run's own row becomes that of a running run
        have heq := hs.store.runIds.eq_of_key hrow (Store.findRun_mem hold).1
          (hne.trans (Store.findRun_mem hold).2.symm)
        subst heq
        rw [hruns]
        refine ⟨_, (hs.store.mem_updateRun hold _).mpr (.inl rfl), rfl, hjob, ?_⟩
        simp [JobRun.isOpen, hstate, ho, JobRunState.isTerminal]
      · exact ⟨row, hruns.symm ▸ (hs.store.mem_updateRun hold _).mpr (.inr ⟨hrow, hne⟩), rfl, hjob,
          hopen⟩
    · exact ⟨row, hruns.symm ▸ List.mem_append_left _ hrow, rfl, hjob, hopen⟩
  · exact h.runnerMoved htask rfl (by simp) rfl
      fun _ _ row hrow _ hjob hopen => .inl ⟨row, hrow, rfl, hjob, hopen⟩

theorem rows_committed (hs : s.Sound) {run old : JobRun} {store : Store}
    (hcommit : Store.CommitsTerminal s.store store run old) {row : JobRun}
    (hrow : row ∈ s.store.runs) (hne : row.runId ≠ run.runId) : row ∈ store.runs := by
  rw [hcommit.runs]
  exact (hs.store.mem_updateRun hcommit.found _).mpr (.inr ⟨hrow, hne⟩)

theorem SlotsHeld.runnerCommitted (hs : s.Sound) (h : s.SlotsHeld) {r : JobRunId} {job : Job}
    {run old : JobRun} {store : Store} (htask : s.runners r = some ⟨job, run, .ended⟩)
    (hcommit : Store.CommitsTerminal s.store store run old) :
    SlotsHeld ({ s with store }.setRunner r (some ⟨job, run, .committed⟩)) := by
  have hrunId : run.runId = r := (hs.runners r _ htask).runId
  refine h.runnerMoved htask rfl (by simp) hcommit.occurrences
    fun d hd row hrow _ hjob hopen => ?_
  by_cases hne : row.runId = r
  · exact .inr ⟨hne, rfl⟩
  · refine .inl ⟨row, rows_committed hs hcommit hrow ?_, rfl, hjob, hopen⟩
    rwa [hrunId]

theorem SlotsHeld.attemptFinalized (hs : s.Sound) (h : s.SlotsHeld) {r : JobRunId} {job : Job}
    {run : JobRun} {now : Instant} {answer : ScheduleFinalization} {store : Store}
    (htask : s.runners r = some ⟨job, run, .committed⟩)
    (hstep : Store.FinalizationStep s.store job run now answer store) :
    SlotsHeld ({ s with store }.setRunner r none) := by
  have hrunId : run.runId = r := (hs.runners r _ htask).runId
  have hgone {key : OccurrenceKey} {d : DurableScheduleOccurrence}
      {f : DurableScheduleOccurrence → DurableScheduleOccurrence}
      (found : s.store.findOccurrence key = some d) (howner : d.runId = some run.runId)
      (hstate : (f d).state ≠ .running) (hid : (f d).jobId = d.jobId)
      (hf : ∀ r, (f d).runId = some r → d.runId = some r) :
      SlotsHeld ({ s with store := s.store.setOccurrence key f }.setRunner r none) := by
    obtain ⟨hmem, hdkey⟩ := Store.findOccurrence_mem found
    rw [hrunId] at howner
    refine h.of_setOccurrence hs found id rfl (fun _ hrow => hrow) (fun h => absurd h hstate)
      (fun d' hd' hne r' hr' hsettles => ?_) fun r' task htask' => ?_
    · -- no other occurrence is held by the run that settles here
      have hrne : r' ≠ r := by
        rintro rfl
        exact hne (hs.owners d' hd' d hmem r' hr' howner ▸ hdkey)
      rw [settles_setRunner_of_ne hrne]
      exact hsettles
    · have hold := runners_setRunner_none (s := { s with store := s.store.setOccurrence key f })
        htask'
      refine ⟨fun d' hd' _ => h.owner r' task hold d' hd', fun hr' => ?_⟩
      rw [hid]
      exact h.owner r' task hold d hmem (hf r' hr')
  cases hstep with
  | retry retryAt hretryAt hocc found howner hfailed hmore =>
    exact hgone found howner (by simp) rfl fun _ hr => by cases hr
  | final hocc found howner hlast => exact hgone found howner (by simp) rfl fun _ hr => hr

theorem finalize_isOk (hs : s.Sound) (h : s.SlotsHeld) {r : JobRunId} {job : Job} {run : JobRun}
    {now : Instant} (htask : s.runners r = some ⟨job, run, .committed⟩)
    {d : DurableScheduleOccurrence} (hd : d ∈ s.store.occurrences) (hr : d.runId = some r) :
    ∃ answer store, s.store.finalizeScheduleAttempt job run now = .ok (answer, store) := by
  have hjobId := h.owner r _ htask d hd hr
  have hjob := hs.store.occurrenceJob d hd
  rw [hjobId] at hjob
  have hrunner := hs.runners r _ htask
  obtain ⟨o, d', ho, found, -, hr', -⟩ := hrunner.owned hs hjob
  refine Store.finalizeScheduleAttempt_isOk ho found ?_
  rw [hr', hrunner.runId]

/-- The run that ends is no run an occurrence is running under. -/
theorem SlotsHeld.endedElsewhere (hs : s.Sound) (h : s.SlotsHeld) {run old : JobRun} {store : Store}
    (hcommit : Store.CommitsTerminal s.store store run old)
    (hne : s.booting = false → ∀ d ∈ s.store.occurrences, d.state = .running →
      d.runId ≠ some run.runId) : SlotsHeld { s with store } := by
  constructor
  · intro hbooting d hd hrunning
    have hbooting : s.booting = false := hbooting
    change d ∈ store.occurrences at hd
    rw [hcommit.occurrences] at hd
    refine (h.held hbooting d hd hrunning).mono (fun row' hrow' hr hjob hopen => .inl ?_)
      fun _ _ h => h
    refine ⟨row', rows_committed hs hcommit hrow' fun heq => ?_, rfl, hjob, hopen⟩
    exact hne hbooting d hd hrunning (heq ▸ hr)
  · refine h.owner_of (fun d hd r hr => ⟨d, ?_, hr, rfl⟩) same_runners
    exact hcommit.occurrences ▸ hd

theorem SlotsHeld.cleanupFinished (hs : s.Sound) (h : s.SlotsHeld) {cleanupId eventId : Uuid}
    {ticket : CleanupTicket} {row : JobRun}
    (hticket : KeyedRows.find CleanupTicket.cleanupId cleanupId s.store.cleanups = some ticket)
    (hid : row.runId = ticket.runId) {store : Store}
    (hcommit : Store.CommitsTerminal s.store store (ticket.terminalRun row) row)
    (hguard : slotGuard s (.finishCleanup cleanupId eventId) = true) :
    SlotsHeld { s with store } := by
  refine h.endedElsewhere hs hcommit fun hbooting d hd hrunning => ?_
  rw [slotGuard, hbooting, Bool.false_or] at hguard
  rw [(Store.terminalRun_spec ticket row).1, hid]
  exact of_decide_eq_true hguard ticket hticket d hd hrunning

theorem SlotsHeld.runsPruned (hs : s.Sound) (h : s.SlotsHeld) (jobName : String)
    (maxRuns : Option ℕ) (olderThan : Option Instant) :
    SlotsHeld { s with store := (s.store.pruneRuns jobName maxRuns olderThan).2 } := by
  obtain ⟨-, hoccs, keep, hruns, hkeep⟩ := s.store.pruneRuns_spec jobName maxRuns olderThan
  constructor
  · intro hbooting d hd hrunning
    rw [hoccs] at hd
    refine (h.held hbooting d hd hrunning).mono (fun row hrow _ hjob hopen => .inl ?_)
      fun _ _ h => h
    refine ⟨row, hruns.symm ▸ List.mem_filter.mpr ⟨hrow, ?_⟩, rfl, hjob, hopen⟩
    by_contra hgone
    have hterminal := hkeep hs.store.runIds row hrow (by simpa using hgone)
    simp [JobRun.isOpen, hterminal] at hopen
  · exact h.owner_of (fun d hd r hr => ⟨d, hoccs ▸ hd, hr, rfl⟩) same_runners

theorem SlotsHeld.otherSaved (hs : s.Sound) (h : s.SlotsHeld) {run : JobRun} {store : Store}
    (hrow : ∀ row, s.store.findRun run.runId = some row → row.occurrence = none)
    (hsave : s.store.saveRun run = .ok store) :
    SlotsHeld { s with store, drawn := insert run.runId s.drawn } := by
  obtain ⟨-, hoccs, -, hruns⟩ := Store.saveRun_ok hsave
  constructor
  · intro hbooting d hd hrunning
    change d ∈ store.occurrences at hd
    rw [hoccs] at hd
    refine (h.held hbooting d hd hrunning).mono (fun row hmem _ hjob hopen => .inl ?_)
      fun _ _ h => h
    refine ⟨row, ?_, rfl, hjob, hopen⟩
    change row ∈ store.runs
    rcases hruns with ⟨old, hold, -, -, hruns⟩ | ⟨-, hruns⟩
    · rw [hruns]
      refine (hs.store.mem_updateRun hold _).mpr (.inr ⟨hmem, fun heq => ?_⟩)
      -- a scheduled row is not overwritten
      have hfound : s.store.findRun run.runId = some row := heq ▸ hs.store.runIds.find_of_mem hmem
      simp [JobRun.isOpen, hrow row hfound] at hopen
    · rw [hruns]
      exact List.mem_append_left _ hmem
  · exact h.owner_of (fun d hd r hr => ⟨d, hoccs ▸ hd, hr, rfl⟩) same_runners

theorem SlotsHeld.recovered (hs : s.Sound) (hbooting : s.booting = true) {now : Instant} :
    SlotsHeld { s with store := s.store.recoverScheduleOccurrences now, booting := false } := by
  constructor
  · intro _ d hd hrunning
    obtain ⟨d', -, ⟨-, rfl⟩ | ⟨hidle, rfl⟩⟩ := Store.mem_recover.mp hd
    · cases hrunning
    · exact absurd hrunning hidle
  · intro r task htask
    have htask : s.runners r = some task := htask
    rw [(hs.idle hbooting).2 r] at htask
    cases htask

theorem SlotsHeld.step (hs : s.Sound) (h : s.SlotsHeld) {e : ScheduleEvent}
    (hguard : slotGuard s e = true) (hstep : s.Stepped e t) : t.SlotsHeld := by
  cases hstep with
  | jobReplaced hold =>
    refine h.of_eq id ?_ ?_ same_runners fun _ _ _ _ h => h
    · simp only [Store.saveJob, hold]
    · simp only [Store.saveJob, hold]
  | jobAdded hnone _ =>
    refine h.of_eq id ?_ ?_ same_runners fun _ _ _ _ h => h
    · simp only [Store.saveJob, hnone]
    · simp only [Store.saveJob, hnone]
  | jobDeleted => exact h.jobDeleted hs _
  | claimed _ hclaim => exact h.claimed hclaim
  | admitted _ hfresh _ _ hstep => exact h.admitted hs hfresh hstep
  | runnerRunning htask hsave => exact h.runnerRunning hs htask hsave
  | runnerEnded htask _ hrun =>
    exact h.runnerMoved htask rfl (by simp) rfl
      fun _ _ row hrow _ hjob hopen => .inl ⟨row, hrow, rfl, hjob, hopen⟩
  | runnerCommitted htask hcommit => exact h.runnerCommitted hs htask hcommit
  | attemptFinalized htask hstep => exact h.attemptFinalized hs htask hstep
  | attemptUnsettled htask herror =>
    refine h.runnerGone (fun d hd hr _ => ?_) rfl rfl
    obtain ⟨answer, store, hok⟩ := finalize_isOk hs h htask hd hr
    rw [herror] at hok
    cases hok
  | finalizeFailed htask =>
    refine h.runnerGone (fun d hd hr _ => ?_) rfl rfl
    obtain ⟨job, hjob, -, hid⟩ := Store.hasJob_iff.mp (hs.store.occurrenceJob d hd)
    exact of_decide_eq_true hguard _ htask job hjob (hid.trans (h.owner _ _ htask d hd hr))
  | runnerGone hpoint _ hruns hoccs =>
    refine h.runnerGone (fun d _ _ hsettles => ?_) hruns hoccs
    obtain ⟨task, htask, -, hcommitted⟩ := settles_iff.mp hsettles
    exact hpoint task htask hcommitted
  | cleanupFinished hticket hid hcommit => exact h.cleanupFinished hs hticket hid hcommit hguard
  | runsPruned => exact h.runsPruned hs _ _ _
  | otherSaved _ hrow _ _ hsave => exact h.otherSaved hs hrow hsave
  | otherCommitted _ _ _ hledger hcommit =>
    exact h.endedElsewhere hs hcommit fun _ d hd _ => hledger d hd
  | crashed =>
    constructor
    · intro hbooting
      cases hbooting
    · intro r task htask
      cases htask
  | recovered hbooting => exact SlotsHeld.recovered hs hbooting
  | aside _ hruns hoccs => exact h.of_eq id hoccs hruns same_runners fun _ _ _ _ h => h
  | passStarted | unanswered | passedOver =>
    exact h.of_eq id rfl rfl same_runners fun _ _ _ _ h => h

/-- Two occurrences run one after the other; the first run is over. -/
def runTwice : List ScheduleEvent :=
  [.recover 0, .saveJob hourly, .claim hourly (hourlyAt 0) 0, .startPass 0, .admitNext 0 ⟨10⟩,
    .saveRunning ⟨10⟩, .endRun ⟨10⟩ .succeeded { startedAt := 0, endedAt := 1, exitCode := some 0 },
    .commitTerminal ⟨10⟩
      { cleanupId := 20, eventId := 21, occurredAt := 1, jobName := "hourly", runId := ⟨10⟩
        state := .succeeded, exitCode := some 0 },
    .finalizeAttempt ⟨10⟩ 1, .claim hourly (hourlyAt 2) 2, .startPass 2, .admitNext 1 ⟨11⟩]

/-- No occurrence of a stored job has two runners. -/
def RunnersApart (s : ScheduleState) : Prop :=
  ∀ name r r' task task' o o', s.runners r = some task → s.runners r' = some task' →
    task.run.occurrence = some o → task'.run.occurrence = some o' →
      o.key task.job.id = o'.key task'.job.id → s.store.hasJob name task.job.id = true → r = r'

theorem runners_apart (h : scheduleSystem.Reaches {} t) : t.RunnersApart := by
  intro name r r' task task' o o' htask htask' ho ho' hkey hjob
  have hs : t.Sound := h.invariant (fun _ _ _ hs _ hstep => hs.step hstep) sound_init
  have hid : task.job.id = task'.job.id := congrArg OccurrenceKey.jobId hkey
  -- the row of the occurrence names its run
  obtain ⟨p, d, hp, hd, -, hr, -⟩ := (hs.runners r task htask).owned hs hjob
  obtain ⟨p', d', hp', hd', -, hr', -⟩ := (hs.runners r' task' htask').owned hs (hid ▸ hjob)
  obtain rfl := Option.some.inj (hp.symm.trans ho)
  obtain rfl := Option.some.inj (hp'.symm.trans ho')
  rw [hkey, hd'] at hd
  rw [Option.some.inj hd] at hr'
  exact Option.some.inj (hr.symm.trans hr')

theorem runTwice_runners_apart : ∃ t, scheduleSystem.Reaches {} t ∧
    (t.runners ⟨11⟩).isSome = true ∧ t.RunnersApart := by
  obtain ⟨t, hrun, htask⟩ :=
    Machine.exists_reaches_of_exec (M := scheduleSystem) (s := {})
      (fun t => (t.runners ⟨11⟩).isSome) runTwice (by decide)
  exact ⟨t, hrun, htask, runners_apart hrun⟩

def unreapedTicket : CleanupTicket :=
  { cleanupId := 30, jobId := ⟨1⟩, jobName := "hourly", runId := ⟨10⟩
    child := { processId := 40, pid := 50, pgid := some 50, generation := none, startedAt := 0 }
    stage := .waitLeader, attempts := 0, lastError := none, intendedTerminalState := .failed
    outcome := { startedAt := 0, endedAt := 1, exitCode := none } }

/-- The runner cannot reap its child, and the cleanup worker ends the run. -/
def endByCleanup : List ScheduleEvent :=
  [.recover 0, .saveJob hourly, .claim hourly (hourlyAt 0) 0, .startPass 0, .admitNext 0 ⟨10⟩,
    .saveRunning ⟨10⟩, .enqueueCleanup unreapedTicket, .finishCleanup 30 31]

end ScheduleState

end Supervisor
