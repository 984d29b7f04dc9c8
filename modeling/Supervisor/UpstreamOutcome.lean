import Supervisor.FirstMaximum
import Supervisor.ScheduleInvariant

namespace Supervisor

/-- The run that `list_runs` with limit 1 answers. -/
def Store.latestRun (s : Store) (name : String) : Option JobRun := (s.listRuns name 1).head?

/-- Whether two rows belong to one logical run: they are attempts of the same
occurrence, or the same run outside the schedule. -/
def JobRun.sameLogical (a b : JobRun) : Bool :=
  match a.occurrence, b.occurrence with
  | some o, some o' => o.key a.jobId = o'.key b.jobId
  | none, none => a.runId = b.runId
  | _, _ => false

namespace Store

variable {s : Store} {name : String} {row : JobRun}

/-- The rows of a job that ran, of the latest scheduled time. -/
def lastRan (s : Store) (name : String) : List JobRun :=
  let ran := s.runs.filter fun row => row.jobName = name && row.state ≠ .skipped
  ran.filter fun row => ran.all fun other => other.scheduledAt ≤ row.scheduledAt

/-- How the logical run of a row has ended. A scheduled one ends with the
finalisation of its occurrence. -/
def outcome (s : Store) (row : JobRun) : Option JobRunState :=
  match row.occurrence with
  | some o =>
    (s.findOccurrence (o.key row.jobId)).bind fun d =>
      if d.state = .finalized then d.finalState else none
  | none => if row.state.isTerminal then some row.state else none

/-- A reading of an upstream job is right about its latest occurrence that ran,
and rests neither on a skipped row nor on a failed attempt that is not the last. -/
structure ReadLawful (s : Store) (name : String) (row : JobRun) : Prop where
  succeeded : ∀ last ∈ s.lastRan name, row.state = .succeeded ↔ s.outcome last = some .succeeded
  ran : row.state ≠ .skipped
  final : row.state = .failed → ∀ d ∈ s.occurrences, row ∈ s.attempts d →
    d.state = .finalized ∧ d.runId = some row.runId

/-- The newest row is not a skipped one, no other logical run has its scheduled
time, and its occurrence is in step with it: final under this run, or not final
while the row is neither succeeded nor failed. -/
def ReadSettled (s : Store) (name : String) (row : JobRun) : Prop :=
  row.state ≠ .skipped ∧ (∀ last ∈ s.lastRan name, last.sameLogical row = true) ∧
    ∀ d ∈ s.occurrences, row ∈ s.attempts d →
      (d.state = .finalized → d.runId = some row.runId) ∧
        (row.state = .succeeded ∨ row.state = .failed → d.state = .finalized)

instance : Decidable (s.ReadSettled name row) := by
  unfold ReadSettled
  infer_instance

theorem latestRun_eq_firstMaximum (s : Store) (name : String) :
    s.latestRun name =
      (s.runs.filter fun run => run.jobName = name).firstMaximum JobRun.scheduledAt := by
  rw [latestRun, listRuns, List.head?_take, if_neg Nat.one_ne_zero]
  exact List.head?_insertionSort_ge JobRun.scheduledAt _

theorem latestRun_mem (h : s.latestRun name = some row) : row ∈ s.runs ∧ row.jobName = name := by
  rw [latestRun_eq_firstMaximum] at h
  have hmem := List.argmax_mem h
  rw [List.mem_filter] at hmem
  exact ⟨hmem.1, of_decide_eq_true hmem.2⟩

theorem Sound.outcome_eq {drawn : Finset JobRunId} {jobIds : Finset JobId}
    (hs : s.Sound drawn jobIds) {a b : JobRun} (ha : a ∈ s.runs) (hb : b ∈ s.runs)
    (h : a.sameLogical b = true) : s.outcome a = s.outcome b := by
  unfold JobRun.sameLogical at h
  split at h
  · rename_i o o' ho ho'
    simp only [outcome, ho, ho', of_decide_eq_true h]
  · have heq := hs.runIds.eq_of_key ha hb (of_decide_eq_true h)
    rw [heq]
  · cases h

end Store

namespace ScheduleState

variable {s t : ScheduleState}

/-- The run an occurrence was finalised under is over, in the final state. -/
def FinalKept (s : ScheduleState) : Prop :=
  ∀ d ∈ s.store.occurrences, d.state = .finalized → ∀ row ∈ s.store.runs,
    d.runId = some row.runId → d.finalState = some row.state ∧ row.state.isTerminal = true

/-- Reading a settled upstream is lawful. -/
theorem FinalKept.readLawful (hs : s.Sound) (h : s.FinalKept) {name : String} {row : JobRun}
    (hread : s.store.latestRun name = some row) (hsettled : s.store.ReadSettled name row) :
    s.store.ReadLawful name row := by
  obtain ⟨hran, halone, hoccs⟩ := hsettled
  obtain ⟨hmem, hname⟩ := Store.latestRun_mem hread
  -- the outcome of the row itself
  have hown : row.state = .succeeded ↔ s.store.outcome row = some .succeeded := by
    unfold Store.outcome
    split
    · rename_i o ho
      obtain ⟨d, hd, hkey, -⟩ := hs.store.runOccurrence row hmem o ho
      have hattempt : row ∈ s.store.attempts d :=
        Store.mem_attempts.mpr ⟨hmem, o, ho, hkey.symm⟩
      have hfound : s.store.findOccurrence (o.key row.jobId) = some d :=
        hkey ▸ hs.store.occurrenceKeys.find_of_mem hd
      obtain ⟨hrun, hfinal⟩ := hoccs d hd hattempt
      rw [hfound, Option.bind_some]
      by_cases hstate : d.state = .finalized
      · rw [if_pos hstate, (h d hd hstate row hmem (hrun hstate)).1, Option.some.injEq]
      · rw [if_neg hstate]
        constructor
        · intro hsucceeded
          exact absurd (hfinal (.inl hsucceeded)) hstate
        · intro hnone
          cases hnone
    · split
      · rw [Option.some.injEq]
      · rename_i hopen
        constructor
        · intro hsucceeded
          rw [hsucceeded] at hopen
          exact absurd rfl hopen
        · intro hnone
          cases hnone
  constructor
  · intro last hlast
    -- every row that ran last is one of the same logical run
    have hlastMem : last ∈ s.store.runs :=
      List.mem_of_mem_filter (List.mem_of_mem_filter hlast)
    rw [hs.store.outcome_eq hlastMem hmem (halone last hlast)]
    exact hown
  · exact hran
  · intro hfailed d hd hattempt
    obtain ⟨hrun, hfinal⟩ := hoccs d hd hattempt
    have hstate := hfinal (.inr hfailed)
    exact ⟨hstate, hrun hstate⟩

theorem RunnerSound.owner_running (hs : s.Sound) {r : JobRunId} {task : RunnerTask}
    (h : s.RunnerSound r task) {name : String} (hjob : s.store.hasJob name task.job.id = true)
    {d : DurableScheduleOccurrence} (hd : d ∈ s.store.occurrences) (hr : d.runId = some r) :
    d.state = .running := by
  obtain ⟨o, d', -, found, hrunning, hr', -⟩ := h.owned hs hjob
  have hd' := (Store.findOccurrence_mem found).1
  rw [hs.owners d hd d' hd' r hr hr']
  exact hrunning

theorem FinalKept.of_rowKept (h : s.FinalKept)
    (hoccs : ∀ d ∈ t.store.occurrences, d.state = .finalized → d ∈ s.store.occurrences)
    (hrows : ∀ d ∈ s.store.occurrences, d.state = .finalized → ∀ r, d.runId = some r →
      s.RowKept t r) : t.FinalKept := by
  intro d hd hfinal row hrow hr
  have hold := hoccs d hd hfinal
  obtain ⟨row', hrow', hid, -, -, hkept⟩ := hrows d hold hfinal row.runId hr row hrow rfl
  obtain ⟨hstate, hterminal⟩ := h d hold hfinal row' hrow' (hid ▸ hr)
  rw [hkept hterminal]
  exact ⟨hstate, hterminal⟩

theorem FinalKept.of_subset (h : s.FinalKept)
    (hoccs : ∀ d ∈ t.store.occurrences, d.state = .finalized → d ∈ s.store.occurrences)
    (hrows : ∀ row ∈ t.store.runs, row ∈ s.store.runs) : t.FinalKept :=
  h.of_rowKept hoccs fun _ _ _ _ _ => .of_subset fun row hrow _ => hrows row hrow

theorem FinalKept.of_eq (h : s.FinalKept) (hoccs : t.store.occurrences = s.store.occurrences)
    (hruns : t.store.runs = s.store.runs) : t.FinalKept :=
  h.of_subset (fun _ hd _ => hoccs ▸ hd) fun _ hrow => hruns ▸ hrow

theorem FinalKept.of_write (h : s.FinalKept) {r : JobRunId}
    (hoccs : t.store.occurrences = s.store.occurrences)
    (hrows : ∀ row ∈ t.store.runs, row.runId ≠ r → row ∈ s.store.runs)
    (hne : ∀ d ∈ s.store.occurrences, d.state = .finalized → d.runId ≠ some r) : t.FinalKept := by
  refine h.of_rowKept (fun d hd _ => hoccs ▸ hd) fun d hd hfinal r' hr' => ?_
  apply RowKept.of_subset
  intro row hrow hid
  apply hrows row hrow
  rintro rfl
  exact hne d hd hfinal (hid ▸ hr')

theorem rows_saveRun (hs : s.Sound) {run : JobRun} {store : Store}
    (h : s.store.saveRun run = .ok store) :
    ∀ row ∈ store.runs, row.runId ≠ run.runId → row ∈ s.store.runs := by
  obtain ⟨-, -, -, hruns⟩ := Store.saveRun_ok h
  intro row hrow hne
  rcases hruns with ⟨old, hold, -, -, hruns⟩ | ⟨-, hruns⟩
  · rw [hruns] at hrow
    rcases (hs.store.mem_updateRun hold _).mp hrow with rfl | ⟨hrow, -⟩
    · exact absurd (Store.findRun_mem hold).2 hne
    · exact hrow
  · rw [hruns, List.mem_append, List.mem_singleton] at hrow
    rcases hrow with hrow | rfl
    · exact hrow
    · exact absurd rfl hne

theorem rows_commitsTerminal (hs : s.Sound) {run old : JobRun} {store : Store}
    (h : Store.CommitsTerminal s.store store run old) :
    ∀ row ∈ store.runs, row.runId ≠ run.runId → row ∈ s.store.runs := by
  intro row hrow hne
  rw [h.runs] at hrow
  rcases (hs.store.mem_updateRun h.found _).mp hrow with rfl | ⟨hrow, -⟩
  · exact absurd (Store.findRun_mem h.found).2 hne
  · exact hrow

theorem FinalKept.claimed (h : s.FinalKept) {job : Job} {occurrence : ScheduleOccurrence}
    {now : Instant} {durable : DurableScheduleOccurrence} {store : Store}
    (hclaim : s.store.claimScheduleOccurrence job occurrence now = .ok (durable, store)) :
    FinalKept { s with store } := by
  obtain ⟨-, hruns, hoccs⟩ := Store.claimScheduleOccurrence_ok hclaim
  refine h.of_subset (fun d hd hfinal => ?_) fun row hrow => hruns ▸ hrow
  change d ∈ store.occurrences at hd
  rcases hoccs with hoccs | ⟨-, -, hoccs⟩
  · exact hoccs ▸ hd
  · rw [hoccs, List.mem_append, List.mem_singleton] at hd
    rcases hd with hd | rfl
    · exact hd
    · cases hfinal

/-- An admission finalises an occurrence only as skipped, with a skipped row. -/
theorem FinalKept.admitted (hs : s.Sound) (h : s.FinalKept) {p : ℕ} {now : Instant}
    {item : DurableScheduleOccurrence} {rest : List DurableScheduleOccurrence} {runId : JobRunId}
    {job : Job} {answer : ScheduleAdmission} {store : Store} (hfresh : runId ∉ s.drawn)
    (hstep : Store.AdmissionStep s.store job item.occurrence now runId answer store) :
    FinalKept ((s.admitted job runId store answer).setPass p ⟨now, rest⟩) := by
  -- no row and no occurrence has the fresh id yet
  have hne (d : DurableScheduleOccurrence) (hd : d ∈ s.store.occurrences) :
      d.runId ≠ some runId := by
    intro hr
    exact hfresh (hs.store.occurrenceDrawn d hd runId hr)
  cases hstep with
  | settled | already => exact h.of_eq rfl rfl
  | @queued d found hwaits =>
    refine h.of_subset (fun d' hd' hfinal => ?_) fun _ hrow => hrow
    rcases (hs.store.mem_setOccurrence found _).mp hd' with rfl | ⟨hd', -⟩
    · cases hfinal
    · exact hd'
  | @skipped d _ found hwaits hfull hover hinsert =>
    have hrows := rows_insertRun hinsert
    obtain ⟨-, -, -, rfl⟩ := Store.insertRun_ok hinsert
    intro d' hd' hfinal row hrow hr
    rcases (hs.store.mem_setOccurrence found _).mp hd' with rfl | ⟨hd', -⟩
    · -- the skipped occurrence names the row just added
      have hid : runId = row.runId := Option.some.inj hr
      rcases List.mem_append.mp hrow with hold | hnew
      · exact absurd (hid ▸ hs.store.runDrawn row hold) hfresh
      · rw [List.mem_singleton.mp hnew]
        exact ⟨rfl, rfl⟩
    · apply h d' hd' hfinal row _ hr
      apply hrows row hrow
      intro hid
      exact hne d' hd' (hr.trans (congrArg some hid))
  | @started d _ found hwaits hfree hinsert =>
    have hrows := rows_insertRun hinsert
    obtain ⟨-, -, -, rfl⟩ := Store.insertRun_ok hinsert
    intro d' hd' hfinal row hrow hr
    rcases (hs.store.mem_setOccurrence found _).mp hd' with rfl | ⟨hd', -⟩
    · cases hfinal
    · apply h d' hd' hfinal row _ hr
      apply hrows row hrow
      intro hid
      exact hne d' hd' (hr.trans (congrArg some hid))

theorem FinalKept.attemptFinalized (hs : s.Sound) (h : s.FinalKept) {r : JobRunId} {job : Job}
    {run : JobRun} {now : Instant} {answer : ScheduleFinalization} {store : Store}
    (htask : s.runners r = some ⟨job, run, .committed⟩)
    (hstep : Store.FinalizationStep s.store job run now answer store) :
    FinalKept ({ s with store }.setRunner r none) := by
  have hrunner := hs.runners r _ htask
  cases hstep with
  | retry retryAt hretryAt hocc found =>
    refine h.of_subset (fun d' hd' hfinal => ?_) fun _ hrow => hrow
    rcases (hs.store.mem_setOccurrence found _).mp hd' with rfl | ⟨hd', -⟩
    · cases hfinal
    · exact hd'
  | final hocc found howner =>
    intro d' hd' hfinal row hrow hr
    rcases (hs.store.mem_setOccurrence found _).mp hd' with rfl | ⟨hd', -⟩
    · -- the row of the run is the one its runner has committed
      have hid : row.runId = r := by
        have hr := howner.symm.trans hr
        rw [Option.some.injEq] at hr
        exact hr.symm.trans hrunner.runId
      obtain ⟨o, -, hrows, -⟩ := hrunner.occurrence
      obtain ⟨-, -, hstate⟩ := hrows row hrow hid
      rw [hstate rfl]
      exact ⟨rfl, hrunner.ended (.inr rfl)⟩
    · exact h d' hd' hfinal row hrow hr

theorem FinalKept.cleanupFinished (hs : s.Sound) (h : s.FinalKept) {ticket : CleanupTicket}
    {row : JobRun} {store : Store}
    (hcommit : Store.CommitsTerminal s.store store (ticket.terminalRun row) row) :
    FinalKept { s with store } := by
  refine h.of_rowKept (fun d hd _ => hcommit.occurrences ▸ hd) fun d hd hfinal r hr => ?_
  apply RowKept.of_commitsTerminal rfl hs hcommit
  -- a terminal row keeps its state
  intro _ hterminal
  rw [(Store.terminalRun_spec ticket row).2, if_pos hterminal]

theorem FinalKept.runnerWrites (hs : s.Sound) (h : s.FinalKept) {r : JobRunId} {task : RunnerTask}
    (htask : s.runners r = some task) {name : String}
    (hjob : s.store.hasJob name task.job.id = true)
    (hoccs : t.store.occurrences = s.store.occurrences)
    (hrows : ∀ row ∈ t.store.runs, row.runId ≠ r → row ∈ s.store.runs) : t.FinalKept := by
  apply h.of_write hoccs hrows
  intro d hd hfinal hr
  have hrunning := (hs.runners r task htask).owner_running hs hjob hd hr
  rw [hfinal] at hrunning
  cases hrunning

theorem FinalKept.step (hs : s.Sound) (h : s.FinalKept) {e : ScheduleEvent}
    (hstep : s.Stepped e t) : t.FinalKept := by
  cases hstep with
  | jobReplaced hold =>
    apply h.of_eq
    · simp only [Store.saveJob, hold]
    · simp only [Store.saveJob, hold]
  | jobAdded hnone _ =>
    apply h.of_eq
    · simp only [Store.saveJob, hnone]
    · simp only [Store.saveJob, hnone]
  | jobDeleted =>
    exact h.of_subset (fun _ hd _ => List.mem_of_mem_filter hd)
      fun _ hrow => List.mem_of_mem_filter hrow
  | claimed _ hclaim => exact h.claimed hclaim
  | admitted _ hfresh _ _ hstep => exact h.admitted hs hfresh hstep
  | @runnerRunning r job run store htask hsave =>
    have hrunner := hs.runners r _ htask
    rcases hsave with hsave | rfl
    · obtain ⟨-, hoccs, hjob, -⟩ := Store.saveRun_ok hsave
      rw [hrunner.jobId] at hjob
      apply h.runnerWrites hs htask hjob hoccs
      have hrunId : run.runId = r := hrunner.runId
      exact hrunId ▸ rows_saveRun hs hsave
    · exact h.of_eq rfl rfl
  | @runnerCommitted r event job run old store htask hcommit =>
    have hrunner := hs.runners r _ htask
    have hjob := hs.store.runJob old (Store.findRun_mem hcommit.found).1
    rw [hcommit.jobId, hrunner.jobId] at hjob
    apply h.runnerWrites hs htask hjob hcommit.occurrences
    have hrunId : run.runId = r := hrunner.runId
    exact hrunId ▸ rows_commitsTerminal hs hcommit
  | attemptFinalized htask hstep => exact h.attemptFinalized hs htask hstep
  | cleanupFinished _ _ hcommit => exact h.cleanupFinished hs hcommit
  | runsPruned =>
    obtain ⟨-, hoccs, keep, hruns, -⟩ := s.store.pruneRuns_spec _ _ _
    refine h.of_subset (fun _ hd _ => hoccs ▸ hd) fun row hrow => ?_
    rw [hruns] at hrow
    exact List.mem_of_mem_filter hrow
  | otherSaved _ _ _ hledger hsave =>
    exact h.of_write (Store.saveRun_ok hsave).2.1 (rows_saveRun hs hsave) fun d hd _ => hledger d hd
  | otherCommitted _ _ _ hledger hcommit =>
    exact h.of_write hcommit.occurrences (rows_commitsTerminal hs hcommit) fun d hd _ => hledger d hd
  | recovered =>
    refine h.of_subset (fun d hd hfinal => ?_) fun _ hrow => hrow
    obtain ⟨d', hd', ⟨-, rfl⟩ | ⟨-, rfl⟩⟩ := Store.mem_recover.mp hd
    · cases hfinal
    · exact hd'
  | runnerGone _ _ hruns hoccs | aside _ hruns hoccs => exact h.of_eq hoccs hruns
  | passStarted | unanswered | passedOver | runnerEnded | attemptUnsettled | finalizeFailed
  | crashed => exact h.of_eq rfl rfl

theorem finalKept_init : FinalKept {} := by
  intro d hd
  cases hd

end ScheduleState

end Supervisor
