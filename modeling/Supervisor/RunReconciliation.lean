import Supervisor.DependencySystem
import Supervisor.JobDeletion
import Supervisor.MisfireRecovery
import Supervisor.OutboxCompleteness

namespace Supervisor

open KeyedRows (Unique)

/-- What the clock, the platform and the random numbers answer in `bootstrap`. -/
structure RunReplies where
  now : Instant
  calendar : Calendar
  /-- What `resume_transient_cleanup` leaves to be done for a ticket, if anything. -/
  resume : CleanupTicket → Option (TransientCleanupStage × String)
  ticketEvent : Uuid → Uuid
  /-- Whether an event finds a subscriber that takes it. -/
  isDelivered : TransientTerminalEvent → Bool
  /-- The ids of the event of a cancelled run. -/
  cancelled : JobRunId → Uuid × Uuid
  isFrozen : JobId → Bool
  /-- The id of the run that is admitted for an occurrence. -/
  admitted : OccurrenceKey → JobRunId

namespace Store

def pendingTransientCleanup (s : Store) (limit : ℕ) : List CleanupTicket :=
  (s.cleanups.insertionSort fun a b =>
    a.attempts < b.attempts ∨ a.attempts = b.attempts ∧ a.cleanupId ≤ b.cleanupId).take limit

def deliverTransientTerminalEvents (r : RunReplies) (s : Store) : Store :=
  (s.pendingTransientTerminalEvents 1000).foldl (fun s event =>
    if r.isDelivered event then s.acknowledgeTransientTerminalEvent event.eventId event.cleanupId
    else s) s

/-- One ticket of `reconcile_transient_cleanup` -/
def resumeTicket (r : RunReplies) (s : Store) (ticket : CleanupTicket) : Store :=
  match r.resume ticket with
  | none => (s.finishTransientCleanup ticket (r.ticketEvent ticket.cleanupId))
      |>.deliverTransientTerminalEvents r
  | some (stage, cause) => s.updateTransientCleanup ticket.cleanupId stage (some cause)

def reconcileTransientCleanup (r : RunReplies) (s : Store) : Store :=
  let s := s.deliverTransientTerminalEvents r
  ((s.pendingTransientCleanup 1000).foldl (resumeTicket r) s).deliverTransientTerminalEvents r

/-- One run of the loop in `bootstrap` -/
def reconcileRun (r : RunReplies) (rollbackRequired : List JobId) (job : Job) (s : Store)
    (run : JobRun) : Except RepoError Store :=
  if run.state = .pending ∧ job.id ∈ rollbackRequired then .ok s
  else if s.isDurableScheduleRun run.runId then .ok s
  else if run.state = .pending ∨ run.state = .running then
    s.commitTerminalRunWithEvent { run with state := .cancelled, endedAt := some r.now }
      (cancelledTerminalEvent run.jobName run.runId r.now (r.cancelled run.runId).1
        (r.cancelled run.runId).2)
  else .ok s

/-- The rows of `enforce_log_retention` -/
def enforceLogRetention (s : Store) (job : Job) (now : Instant) : Store :=
  (s.pruneRuns job.name (job.logRetention.maxRuns.map fun n => n.val)
    (job.logRetention.maxAgeDays.map fun days => now - days.val * 86400 * nanosPerSec)).2

/-- One job of the loop in `bootstrap` -/
def reconcileJob (r : RunReplies) (rollbackRequired : List JobId) (s : Store) (job : Job) :
    Except RepoError Store :=
  let s := (s.reconcileScheduleMisfires r.calendar job r.now).2
  ((s.listRuns job.name 500).foldlM (reconcileRun r rollbackRequired job) s).map fun s =>
    s.enforceLogRetention job r.now

/-- One occurrence of `reconcile_durable_schedule_dispatch` -/
def dispatchOccurrence (r : RunReplies) (s : Store) (durable : DurableScheduleOccurrence) : Store :=
  match s.getJob durable.jobName with
  | none => s
  | some job =>
    if job.id ≠ durable.jobId || r.isFrozen job.id then s
    else match s.admitScheduleOccurrence job durable.occurrence r.now (r.admitted durable.key) with
      | .ok (_, t) => t
      | .error _ => s

def reconcileDurableScheduleDispatch (r : RunReplies) (s : Store) : Store :=
  (s.listDueScheduleOccurrences r.now 128).foldl (dispatchOccurrence r) s

/-- The runs in `bootstrap`, after the cleanup tickets. `rollback_required` are the jobs whose
deletion had not reached the cancellation when `bootstrap` began. -/
def reconcileRuns (r : RunReplies) (rollbackRequired : List JobId) (s : Store) :
    Except RepoError Store :=
  let s := s.recoverScheduleOccurrences r.now
  ((listJobs s).foldlM (reconcileJob r rollbackRequired) s).map fun s =>
    s.reconcileDurableScheduleDispatch r

/-- The tickets and the runs in `bootstrap` -/
def bootstrapRuns (r : RunReplies) (rollbackRequired : List JobId) (s : Store) :
    Except RepoError Store :=
  (s.reconcileTransientCleanup r).reconcileRuns r rollbackRequired

/-- A ticket waits for the run. -/
def HasTicket (s : Store) (row : JobRun) : Prop :=
  ∃ ticket ∈ s.cleanups, ticket.runId = row.runId ∧ ticket.jobName = row.jobName

/-- Another part of the program brings the run to its end. -/
def IsAwaited (s : Store) (deletions : List JobDeletionJournal) (row : JobRun) : Prop :=
  (∃ journal ∈ deletions, journal.job.id = row.jobId ∧ journal.stage.isPreCancellation = true) ∨
    s.HasTicket row

/-- Every run that has not ended is the one of a running occurrence, or is awaited. -/
def NoOrphan (s : Store) (deletions : List JobDeletionJournal) : Prop :=
  ∀ row ∈ s.runs, row.state.isTerminal = false →
    (∃ d ∈ s.occurrences, d.state = .running ∧ d.runId = some row.runId) ∨
      s.IsAwaited deletions row

/-- The loop comes to the row: it is among the newest of its job, is not kept for a rollback and is
no scheduled run. -/
def IsReached (s : Store) (rollbackRequired : List JobId) (row : JobRun) : Prop :=
  (∃ job ∈ s.jobs, row ∈ s.listRuns job.name 500 ∧
    ¬(row.state = .pending ∧ job.id ∈ rollbackRequired)) ∧
  row.occurrence = none ∧ ∀ d ∈ s.occurrences, d.runId = some row.runId → d.state = .running

instance (s : Store) (row : JobRun) : Decidable (s.HasTicket row) :=
  inferInstanceAs (Decidable (∃ ticket ∈ s.cleanups, _))

instance (s : Store) (deletions : List JobDeletionJournal) (row : JobRun) :
    Decidable (s.IsAwaited deletions row) :=
  inferInstanceAs (Decidable (_ ∨ _))

instance (s : Store) (deletions : List JobDeletionJournal) : Decidable (s.NoOrphan deletions) :=
  inferInstanceAs (Decidable (∀ row ∈ s.runs, _ → _ ∨ _))

instance (s : Store) (rollbackRequired : List JobId) (row : JobRun) :
    Decidable (s.IsReached rollbackRequired row) :=
  inferInstanceAs (Decidable (_ ∧ _))

/-- The keys of the tables. -/
structure Keyed (s : Store) : Prop where
  jobs : Unique Job.name s.jobs
  runs : Unique JobRun.runId s.runs
  occurrences : Unique DurableScheduleOccurrence.key s.occurrences
  cleanups : Unique CleanupTicket.cleanupId s.cleanups

/-- The event of a ticket is stored together with the terminal row of its run. -/
structure Committed (s : Store) : Prop where
  intended : ∀ ticket ∈ s.cleanups, ticket.intendedTerminalState.isTerminal = true
  ended : ∀ ticket ∈ s.cleanups, ∀ event ∈ s.outbox, event.cleanupId = ticket.cleanupId →
    ∀ row ∈ s.runs, row.runId = ticket.runId → row.state.isTerminal = true

section Frame

variable {s t u : Store} {gone gone' : Set JobRunId}

/-- An occurrence names the run. -/
def Names (s : Store) (runId : JobRunId) : Prop := ∃ d ∈ s.occurrences, d.runId = some runId

/-- What a part of the recovery does: the open runs of `gone` end, and the others stay. -/
structure Recovers (s t : Store) (gone : Set JobRunId) : Prop where
  cleanups : t.cleanups = s.cleanups
  runs : ∀ row : JobRun, row.state.isTerminal = false →
    (row ∈ t.runs ↔ row ∈ s.runs ∧ row.runId ∉ gone)
  runIds : Unique JobRun.runId t.runs
  named : ∀ runId, t.Names runId ↔ s.Names runId
  idle : (∀ d ∈ s.occurrences, d.state ≠ .running) → ∀ d ∈ t.occurrences, d.state ≠ .running
  keys : Unique DurableScheduleOccurrence.key s.occurrences →
    Unique DurableScheduleOccurrence.key t.occurrences

theorem Recovers.refl (hu : Unique JobRun.runId s.runs) : s.Recovers s ∅ :=
  ⟨rfl, fun _ _ => by simp, hu, fun _ => Iff.rfl, fun h => h, fun h => h⟩

theorem Recovers.trans (h : s.Recovers t gone) (h' : t.Recovers u gone') :
    s.Recovers u (gone ∪ gone') := by
  refine ⟨h'.cleanups.trans h.cleanups, fun row hopen => ?_, h'.runIds,
    fun runId => (h'.named runId).trans (h.named runId), fun hidle => h'.idle (h.idle hidle),
    fun hkeys => h'.keys (h.keys hkeys)⟩
  rw [h'.runs row hopen, h.runs row hopen, Set.mem_union, not_or, and_assoc]

theorem Recovers.congr (h : s.Recovers t gone) (hgone : gone = gone') : s.Recovers t gone' :=
  hgone ▸ h

/-- The rows of the other jobs stay as they are, and in their order. -/
def Spares (s t : Store) (name : String) : Prop :=
  ∀ name' ≠ name, (t.runs.filter fun run => run.jobName = name') =
    s.runs.filter fun run => run.jobName = name'

theorem Spares.of_runs {name : String} (h : t.runs = s.runs) : s.Spares t name := by
  intro name' _
  rw [h]

theorem Spares.trans {name : String} (h : s.Spares t name) (h' : t.Spares u name) :
    s.Spares u name := fun name' hne => (h' name' hne).trans (h name' hne)

theorem Spares.listRuns {name name' : String} (h : s.Spares t name) (hne : name' ≠ name)
    (limit : ℕ) : t.listRuns name' limit = s.listRuns name' limit := by
  unfold Store.listRuns
  rw [h name' hne]

end Frame

section Scan

variable {s t : Store} {r : RunReplies} {rollbackRequired : List JobId} {job : Job} {run : JobRun}

/-- The loop ends this run when it comes to it. -/
def Closes (s : Store) (rollbackRequired : List JobId) (job : Job) (run : JobRun) : Prop :=
  run.state.isTerminal = false ∧ ¬(run.state = .pending ∧ job.id ∈ rollbackRequired) ∧
    run.occurrence = none ∧ ¬s.Names run.runId

theorem Closes.congr (h : ∀ runId, t.Names runId ↔ s.Names runId) :
    t.Closes rollbackRequired job run ↔ s.Closes rollbackRequired job run := by
  unfold Closes
  rw [h]

theorem isDurableScheduleRun_iff (hu : Unique JobRun.runId s.runs) (hrun : run ∈ s.runs) :
    s.isDurableScheduleRun run.runId = true ↔ s.Names run.runId ∨ run.occurrence ≠ none := by
  have hfind : s.findRun run.runId = some run := hu.find_of_mem hrun
  unfold isDurableScheduleRun Names
  rw [hfind, Bool.or_eq_true, List.any_eq_true, Option.any_some, ← Option.ne_none_iff_isSome]
  simp only [decide_eq_true_eq]

/-- A cancelled row is no open row any more, and no other row is touched. -/
theorem commitCancelled_recovers {event : TransientTerminalEvent} {now : Instant}
    (hu : Unique JobRun.runId s.runs)
    (h : s.commitTerminalRunWithEvent { run with state := .cancelled, endedAt := some now } event =
      .ok t) : s.Recovers t {run.runId} ∧ s.Spares t run.jobName := by
  obtain ⟨u, -, haside, hinsert⟩ := terminalCommit_spec h
  have hcleanups : t.cleanups = s.cleanups :=
    (insertOutbox_ok hinsert).2.2.2.trans haside.cleanups
  obtain ⟨old, hcommit⟩ := commitTerminalRunWithEvent_ok h
  have hfound : s.findRun run.runId = some old := hcommit.found
  have hrows := hcommit.runs
  refine ⟨⟨hcleanups, fun row hopen => ?_, ?_, fun runId => ?_, fun hidle => ?_, fun hkeys => ?_⟩,
    fun name' hne => ?_⟩
  · rw [hrows, hu.mem_update_iff hfound, Set.mem_singleton_iff]
    constructor
    · rintro (rfl | hother)
      · cases hopen
      · exact hother
    · exact .inr
  · rw [hrows]
    exact hu.update fun _ hid => hid
  · unfold Names
    rw [hcommit.occurrences]
  · rw [hcommit.occurrences]
    exact hidle
  · rw [hcommit.occurrences]
    exact hkeys
  · rw [hrows]
    apply KeyedRows.filter_update
    intro row hrow hid
    have hsame : row = old := hu.eq_of_key hrow (KeyedRows.find_mem hfound)
      (hid.trans (KeyedRows.find_key hfound).symm)
    have hname : row.jobName = run.jobName := hsame ▸ hcommit.jobName
    have hnot : row.jobName ≠ name' := fun heq => hne (heq.symm.trans hname)
    exact ⟨decide_eq_false hnot, decide_eq_false hnot⟩

/-- What one run of the loop does. -/
theorem reconcileRun_recovers (hu : Unique JobRun.runId s.runs)
    (hrun : run.state.isTerminal = false → run ∈ s.runs)
    (h : s.reconcileRun r rollbackRequired job run = .ok t) :
    s.Recovers t {id | id = run.runId ∧ s.Closes rollbackRequired job run} ∧
      s.Spares t run.jobName := by
  have hkeep (hnot : ¬s.Closes rollbackRequired job run) (hst : (.ok s : Except RepoError Store) = .ok t) :
      s.Recovers t {id | id = run.runId ∧ s.Closes rollbackRequired job run} ∧
        s.Spares t run.jobName := by
    cases hst
    refine ⟨(Recovers.refl hu).congr ?_, Spares.of_runs rfl⟩
    ext id
    simp [hnot]
  unfold reconcileRun at h
  split at h
  · rename_i hrollback
    exact hkeep (fun hcloses => hcloses.2.1 hrollback) h
  · rename_i hrollback
    split at h
    · rename_i hdurable
      refine hkeep (fun hcloses => ?_) h
      obtain ⟨hopen, -, hnone, hnamed⟩ := hcloses
      rcases (isDurableScheduleRun_iff hu (hrun hopen)).mp hdurable with hnames | hsome
      · exact hnamed hnames
      · exact hsome hnone
    · rename_i hdurable
      split at h
      · rename_i hstate
        have hopen : run.state.isTerminal = false := by
          rcases hstate with hstate | hstate
          · rw [hstate]; rfl
          · rw [hstate]; rfl
        rw [isDurableScheduleRun_iff hu (hrun hopen), not_or, not_not] at hdurable
        have hcloses : s.Closes rollbackRequired job run :=
          ⟨hopen, hrollback, hdurable.2, hdurable.1⟩
        obtain ⟨hrecovers, hspares⟩ := commitCancelled_recovers hu h
        refine ⟨hrecovers.congr ?_, hspares⟩
        ext id
        simp [hcloses]
      · rename_i hstate
        refine hkeep (fun hcloses => hstate ?_) h
        cases hs : run.state with
        | pending => exact .inl rfl
        | running => exact .inr rfl
        | succeeded | failed | timedOut | cancelled | skipped =>
          have hopen := hcloses.1
          rw [hs] at hopen
          cases hopen

theorem foldlM_cons_ok {α β ε : Type} {f : β → α → Except ε β} {x : α} {xs : List α} {b c : β}
    (h : (x :: xs).foldlM f b = .ok c) : ∃ d, f b x = .ok d ∧ xs.foldlM f d = .ok c := by
  rw [List.foldlM_cons] at h
  cases hd : f b x with
  | error e => rw [hd] at h; cases h
  | ok d => rw [hd] at h; exact ⟨d, rfl, h⟩

/-- The loop over the runs of one job ends those it comes to. -/
theorem foldlM_reconcileRun {rows : List JobRun} (hu : Unique JobRun.runId s.runs)
    (hrows : Unique JobRun.runId rows)
    (hmem : ∀ run ∈ rows, run.state.isTerminal = false → run ∈ s.runs)
    (hname : ∀ run ∈ rows, run.jobName = job.name)
    (h : rows.foldlM (reconcileRun r rollbackRequired job) s = .ok t) :
    s.Recovers t {id | ∃ run ∈ rows, id = run.runId ∧ s.Closes rollbackRequired job run} ∧
      s.Spares t job.name := by
  induction rows generalizing s with
  | nil =>
    cases h
    refine ⟨(Recovers.refl hu).congr ?_, Spares.of_runs rfl⟩
    ext id
    simp
  | cons run rows ih =>
    obtain ⟨u, hfirst, hrest⟩ := foldlM_cons_ok h
    obtain ⟨hfresh, hrows⟩ := List.nodup_cons.mp hrows
    obtain ⟨hstep, hspares⟩ := reconcileRun_recovers hu (hmem run List.mem_cons_self) hfirst
    rw [hname run List.mem_cons_self] at hspares
    obtain ⟨htail, hspares'⟩ := ih hstep.runIds hrows
      (fun run' hrun' hopen => by
        rw [hstep.runs run' hopen]
        refine ⟨hmem run' (List.mem_cons_of_mem _ hrun') hopen, fun hgone => hfresh ?_⟩
        rw [← hgone.1]
        exact List.mem_map_of_mem hrun')
      (fun run' hrun' => hname run' (List.mem_cons_of_mem _ hrun')) hrest
    refine ⟨(hstep.trans htail).congr ?_, hspares.trans hspares'⟩
    ext id
    simp only [Set.mem_union, Set.mem_ofPred_eq, List.mem_cons, exists_eq_or_imp,
      Closes.congr hstep.named]

/-- A claim adds an occurrence that names no run and does not run. -/
theorem claimMissed_recovers (hu : Unique JobRun.runId s.runs) (now : Instant)
    (times : List Instant) :
    s.Recovers (s.claimMissed job now times).2 ∅ ∧
      (s.claimMissed job now times).2.runs = s.runs := by
  induction times generalizing s with
  | nil => exact ⟨Recovers.refl hu, rfl⟩
  | cons scheduledAt rest ih =>
    rw [claimMissed]
    split
    · exact ⟨Recovers.refl hu, rfl⟩
    · rename_i durable u hclaim
      have haside := claimScheduleOccurrence_aside hclaim
      obtain ⟨-, hruns, hrows⟩ := claimScheduleOccurrence_ok hclaim
      have hledger : (∀ runId, u.Names runId ↔ s.Names runId) ∧
          ((∀ d ∈ s.occurrences, d.state ≠ .running) → ∀ d ∈ u.occurrences, d.state ≠ .running) ∧
          (Unique DurableScheduleOccurrence.key s.occurrences →
            Unique DurableScheduleOccurrence.key u.occurrences) := by
        unfold Names
        rcases hrows with hsame | ⟨hnone, -, happend⟩
        · rw [hsame]
          exact ⟨fun _ => Iff.rfl, fun hidle => hidle, fun hkeys => hkeys⟩
        · rw [happend]
          refine ⟨fun runId => ?_, fun hidle d hd => ?_, fun hkeys => ?_⟩
          · simp only [List.mem_append, List.mem_singleton, or_and_right, exists_or, exists_eq_left,
              reduceCtorEq, or_false]
          · rcases List.mem_append.mp hd with hd | hd
            · exact hidle d hd
            · rw [List.mem_singleton.mp hd]
              exact ScheduleOccurrenceState.noConfusion
          · exact hkeys.append (KeyedRows.find_eq_none.mp hnone)
      have hclaims : s.Recovers u ∅ :=
        ⟨haside.cleanups, fun row _ => by rw [hruns]; simp, hruns ▸ hu, hledger.1, hledger.2.1,
          hledger.2.2⟩
      obtain ⟨hrest, hruns'⟩ := ih (s := u) (hruns ▸ hu)
      exact ⟨(hclaims.trans hrest).congr (Set.union_empty ∅), hruns'.trans hruns⟩

theorem reconcileScheduleMisfires_recovers (hu : Unique JobRun.runId s.runs) (calendar : Calendar)
    (now : Instant) :
    s.Recovers (s.reconcileScheduleMisfires calendar job now).2 ∅ ∧
      (s.reconcileScheduleMisfires calendar job now).2.runs = s.runs := by
  unfold reconcileScheduleMisfires
  split
  · exact ⟨Recovers.refl hu, rfl⟩
  · exact claimMissed_recovers hu now _

theorem pruneRuns_spares (hu : Unique JobRun.runId s.runs) (jobName : String)
    (maxRuns : Option ℕ) (olderThan : Option Instant) :
    s.Spares (s.pruneRuns jobName maxRuns olderThan).2 jobName := by
  intro name' hne
  unfold pruneRuns
  split
  · rfl
  · change ((s.runs.filter _).filter _) = _
    rw [List.filter_filter]
    apply List.filter_congr
    intro row hrow
    by_cases hname : row.jobName = name'
    swap
    · simp [hname]
    rw [decide_eq_true hname, Bool.true_and, decide_eq_true_eq]
    intro hremoved
    -- a removed row of this id would be this row, and it is of the other job
    obtain ⟨⟨row', position⟩, hmem, hid⟩ := List.mem_map.mp hremoved
    have hsorted := List.fst_mem_of_mem_zipIdx (List.mem_filter.mp hmem).1
    rw [List.mem_insertionSort, List.mem_filter, Bool.and_eq_true, decide_eq_true_eq] at hsorted
    have hsame : row' = row := hu.eq_of_key hsorted.1 hrow hid
    exact hne (hname.symm.trans (hsame ▸ hsorted.2.1))

theorem enforceLogRetention_recovers (hu : Unique JobRun.runId s.runs) (now : Instant) :
    s.Recovers (s.enforceLogRetention job now) ∅ ∧
      s.Spares (s.enforceLogRetention job now) job.name := by
  refine ⟨?_, pruneRuns_spares hu _ _ _⟩
  unfold enforceLogRetention
  obtain ⟨-, hoccurrences, keep, hruns, hkeep⟩ := s.pruneRuns_spec job.name
    (job.logRetention.maxRuns.map fun n => n.val)
    (job.logRetention.maxAgeDays.map fun days => now - days.val * 86400 * nanosPerSec)
  refine ⟨(pruneRuns_aside s _ _ _).cleanups, fun row hopen => ?_, ?_, fun runId => ?_,
    fun hidle => ?_, fun hkeys => ?_⟩
  · rw [hruns, List.mem_filter]
    refine and_congr_right fun hrow => ?_
    have hkept : keep row = true := by
      by_contra hnot
      have hended := hkeep hu row hrow (Bool.not_eq_true _ ▸ hnot)
      rw [hopen] at hended
      cases hended
    simp [hkept]
  · rw [hruns]
    exact hu.filter keep
  · unfold Names
    rw [hoccurrences]
  · rw [hoccurrences]
    exact hidle
  · rw [hoccurrences]
    exact hkeys

theorem listRuns_unique (hu : Unique JobRun.runId s.runs) (name : String) (limit : ℕ) :
    Unique JobRun.runId (s.listRuns name limit) := by
  have hsorted : Unique JobRun.runId ((s.runs.filter fun run => run.jobName = name).insertionSort
      fun a b => b.scheduledAt ≤ a.scheduledAt) :=
    ((List.perm_insertionSort _ _).map JobRun.runId).nodup_iff.mpr (hu.filter _)
  exact hsorted.sublist ((List.take_sublist _ _).map JobRun.runId)

theorem mem_of_mem_listRuns {name : String} {limit : ℕ} (h : run ∈ s.listRuns name limit) :
    run ∈ s.runs ∧ run.jobName = name := by
  have hsorted := List.mem_of_mem_take h
  rw [List.mem_insertionSort, List.mem_filter, decide_eq_true_eq] at hsorted
  exact hsorted

/-- The runs that the loop ends for a job. -/
def closedBy (s : Store) (rollbackRequired : List JobId) (job : Job) : Set JobRunId :=
  {id | ∃ run ∈ s.listRuns job.name 500, id = run.runId ∧ s.Closes rollbackRequired job run}

theorem reconcileJob_recovers (hu : Unique JobRun.runId s.runs)
    (h : s.reconcileJob r rollbackRequired job = .ok t) :
    s.Recovers t (s.closedBy rollbackRequired job) ∧ s.Spares t job.name := by
  obtain ⟨hclaims, hruns⟩ := @reconcileScheduleMisfires_recovers _ job hu r.calendar r.now
  simp only [reconcileJob] at h
  have hlist : (s.reconcileScheduleMisfires r.calendar job r.now).2.listRuns job.name 500 =
      s.listRuns job.name 500 := by
    unfold listRuns
    rw [hruns]
  rw [hlist] at h
  cases hfold : (s.listRuns job.name 500).foldlM (reconcileRun r rollbackRequired job)
      (s.reconcileScheduleMisfires r.calendar job r.now).2 with
  | error e => rw [hfold] at h; cases h
  | ok u =>
    rw [hfold] at h
    cases h
    obtain ⟨hscan, hspares⟩ := foldlM_reconcileRun hclaims.runIds (listRuns_unique hu job.name 500)
      (fun run hrun _ => hruns ▸ (mem_of_mem_listRuns hrun).1)
      (fun run hrun => (mem_of_mem_listRuns hrun).2) hfold
    obtain ⟨hprune, hspares'⟩ := @enforceLogRetention_recovers _ job hscan.runIds r.now
    refine ⟨((hclaims.trans hscan).trans hprune).congr ?_,
      (Spares.of_runs hruns).trans (hspares.trans hspares')⟩
    ext id
    simp only [Set.empty_union, Set.union_empty, closedBy, Set.mem_ofPred_eq,
      Closes.congr hclaims.named]

/-- The loop over the jobs ends the runs it comes to. -/
theorem foldlM_reconcileJob {jobs : List Job} (hu : Unique JobRun.runId s.runs)
    (hjobs : Unique Job.name jobs)
    (h : jobs.foldlM (reconcileJob r rollbackRequired) s = .ok t) :
    s.Recovers t {id | ∃ job ∈ jobs, id ∈ s.closedBy rollbackRequired job} := by
  induction jobs generalizing s with
  | nil =>
    cases h
    refine (Recovers.refl hu).congr ?_
    ext id
    simp
  | cons job jobs ih =>
    obtain ⟨u, hfirst, hrest⟩ := foldlM_cons_ok h
    obtain ⟨hfresh, hjobs⟩ := List.nodup_cons.mp hjobs
    obtain ⟨hstep, hspares⟩ := reconcileJob_recovers hu hfirst
    -- the runs of the other jobs are listed as before
    have hclosed : ∀ job' ∈ jobs, u.closedBy rollbackRequired job' =
        s.closedBy rollbackRequired job' := by
      intro job' hjob'
      have hne : job'.name ≠ job.name := fun heq =>
        hfresh (heq ▸ List.mem_map_of_mem hjob')
      unfold closedBy
      rw [hspares.listRuns hne]
      simp only [Closes.congr hstep.named]
    refine (hstep.trans (ih hstep.runIds hjobs hrest)).congr ?_
    ext id
    simp only [Set.mem_union, Set.mem_ofPred_eq, List.mem_cons, exists_eq_or_imp]
    refine or_congr_right (exists_congr fun job' => and_congr_right fun hjob' => ?_)
    rw [hclosed job' hjob']

end Scan

section Dispatch

variable {b s t : Store} {job : Job} {run : JobRun}

/-- The store of the dispatch, which began at `b`. -/
structure Dispatched (b s : Store) : Prop where
  cleanups : s.cleanups = b.cleanups
  keys : Unique DurableScheduleOccurrence.key s.occurrences
  runs : ∀ row ∈ b.runs, row ∈ s.runs
  owned : ∀ row ∈ s.runs, row.state.isTerminal = false → row ∈ b.runs ∨
    ∃ d ∈ s.occurrences, d.state = .running ∧ d.runId = some row.runId
  fresh : ∀ d ∈ s.occurrences, d.state = .running → ∀ row ∈ b.runs, d.runId ≠ some row.runId

/-- An update of a waiting occurrence loses no running one. -/
theorem Dispatched.setOccurrence {key : OccurrenceKey} {d : DurableScheduleOccurrence}
    {f : DurableScheduleOccurrence → DurableScheduleOccurrence} (h : Dispatched b s)
    (found : s.findOccurrence key = some d) (hwaits : d.state.isWaiting = true)
    (hkey : ∀ d, (f d).key = d.key)
    (hfresh : (f d).state = .running → ∀ row ∈ b.runs, (f d).runId ≠ some row.runId) :
    Dispatched b (s.setOccurrence key f) := by
  have hmem (d' : DurableScheduleOccurrence) : d' ∈ (s.setOccurrence key f).occurrences ↔
      d' = f d ∨ d' ∈ s.occurrences ∧ d'.key ≠ key := h.keys.mem_update_iff found
  refine ⟨h.cleanups, ?_, h.runs, fun row hrow hopen => ?_, fun d' hd' hrunning => ?_⟩
  · exact h.keys.update fun d' hd' => (hkey d').trans hd'
  · rcases h.owned row hrow hopen with hold | ⟨d', hd', hrunning, hid⟩
    · exact .inl hold
    · refine .inr ⟨d', (hmem d').mpr (.inr ⟨hd', fun heq => ?_⟩), hrunning, hid⟩
      -- the occurrence of the key waits
      have hsame : d' = d := h.keys.eq_of_key hd' (KeyedRows.find_mem found)
        (heq.trans (KeyedRows.find_key found).symm)
      rw [← hsame, hrunning] at hwaits
      cases hwaits
  · rcases (hmem d').mp hd' with rfl | ⟨hold, -⟩
    · exact hfresh hrunning
    · exact h.fresh d' hold hrunning

theorem Dispatched.insertRun (h : Dispatched b s) (hinsert : s.insertRun run = .ok t)
    (hrun : run.state.isTerminal = false →
      ∃ d ∈ s.occurrences, d.state = .running ∧ d.runId = some run.runId) :
    Dispatched b t := by
  obtain ⟨-, -, -, rfl⟩ := insertRun_ok hinsert
  refine ⟨h.cleanups, h.keys, fun row hrow => List.mem_append_left _ (h.runs row hrow),
    fun row hrow hopen => ?_, h.fresh⟩
  rcases List.mem_append.mp hrow with hrow | hrow
  · exact h.owned row hrow hopen
  · rw [List.mem_singleton] at hrow
    subst hrow
    exact .inr (hrun hopen)

theorem Dispatched.admitted {occurrence : ScheduleOccurrence} {now : Instant} {runId : JobRunId}
    {answer : ScheduleAdmission} (h : Dispatched b s)
    (hstep : AdmissionStep s job occurrence now runId answer t) : Dispatched b t := by
  cases hstep with
  | settled _ _ => exact h
  | already _ _ => exact h
  | queued found hwaits _ _ =>
    exact h.setOccurrence found hwaits (fun _ => rfl) nofun
  | skipped found hwaits _ _ hinsert =>
    refine Dispatched.insertRun ?_ hinsert ?_
    · exact h.setOccurrence found hwaits (fun _ => rfl) nofun
    · intro hopen
      cases hopen
  | started found hwaits _ hinsert =>
    have hnew := (insertRun_ok hinsert).1
    refine Dispatched.insertRun ?_ hinsert ?_
    · refine h.setOccurrence found hwaits (fun _ => rfl) ?_
      intro _ row hrow heq
      exact KeyedRows.find_eq_none.mp hnew row (h.runs row hrow) (Option.some.inj heq).symm
    · intro _
      exact ⟨_, (h.keys.mem_update_iff found).mpr (.inl rfl), rfl, rfl⟩

theorem Dispatched.dispatchOccurrence (h : Dispatched b s) (r : RunReplies)
    (durable : DurableScheduleOccurrence) : Dispatched b (s.dispatchOccurrence r durable) := by
  unfold Store.dispatchOccurrence
  split
  · exact h
  · split
    · exact h
    · split
      · exact h.admitted (admitScheduleOccurrence_ok ‹_›)
      · exact h

theorem reconcileDurableScheduleDispatch_dispatched
    (hkeys : Unique DurableScheduleOccurrence.key s.occurrences)
    (hidle : ∀ d ∈ s.occurrences, d.state ≠ .running) (r : RunReplies) :
    Dispatched s (s.reconcileDurableScheduleDispatch r) := by
  have hstart : Dispatched s s := ⟨rfl, hkeys, fun _ hrow => hrow, fun _ hrow _ => .inl hrow,
    fun d hd hrunning => absurd hrunning (hidle d hd)⟩
  exact List.foldlRecOn (motive := Dispatched s) _ _ hstart
    fun _ hs durable _ => hs.dispatchOccurrence r durable

end Dispatch

section Reconciliation

variable {s t u : Store} {r : RunReplies} {rollbackRequired : List JobId}
  {deletions : List JobDeletionJournal}

theorem recover_names (now : Instant) (runId : JobRunId) :
    (s.recoverScheduleOccurrences now).Names runId ↔
      ∃ d ∈ s.occurrences, d.state ≠ .running ∧ d.runId = some runId := by
  unfold Names
  simp only [mem_recover]
  constructor
  · rintro ⟨d', ⟨d, hd, ⟨-, rfl⟩ | ⟨hstate, rfl⟩⟩, hid⟩
    · cases hid
    · exact ⟨d', hd, hstate, hid⟩
  · rintro ⟨d, hd, hstate, hid⟩
    exact ⟨d, ⟨d, hd, .inr ⟨hstate, rfl⟩⟩, hid⟩

theorem recover_idle (now : Instant) :
    ∀ d ∈ (s.recoverScheduleOccurrences now).occurrences, d.state ≠ .running := by
  intro d' hd'
  obtain ⟨d, -, ⟨-, rfl⟩ | ⟨hstate, rfl⟩⟩ := mem_recover.mp hd'
  · exact ScheduleOccurrenceState.noConfusion
  · exact hstate

/-- The runs that the loop ends are those it reaches. -/
theorem isReached_iff {row : JobRun} {now : Instant} (hu : Unique JobRun.runId s.runs)
    (hrow : row ∈ s.runs) (hopen : row.state.isTerminal = false) :
    (∃ job ∈ listJobs (s.recoverScheduleOccurrences now),
        row.runId ∈ (s.recoverScheduleOccurrences now).closedBy rollbackRequired job) ↔
      s.IsReached rollbackRequired row := by
  have hledger : ¬(s.recoverScheduleOccurrences now).Names row.runId ↔
      ∀ d ∈ s.occurrences, d.runId = some row.runId → d.state = .running := by
    rw [recover_names, not_exists]
    refine forall_congr' fun d => ?_
    rw [not_and, not_and]
    refine forall_congr' fun _ => ?_
    rw [ne_eq, not_imp_not]
  constructor
  · rintro ⟨job, hjob, run, hrun, hid, -, hrollback, hnone, hnames⟩
    have hsame : run = row := hu.eq_of_key (mem_of_mem_listRuns hrun).1 hrow hid.symm
    subst hsame
    exact ⟨⟨job, (List.mem_insertionSort _).mp hjob, hrun, hrollback⟩, hnone, hledger.mp hnames⟩
  · rintro ⟨⟨job, hjob, hrun, hrollback⟩, hnone, hoccurrences⟩
    exact ⟨job, (List.mem_insertionSort _).mpr hjob, row, hrun, rfl, hopen, hrollback, hnone,
      hledger.mpr hoccurrences⟩

/-- No run is left open that nobody awaits when and only when the loop reaches every one that is
not awaited. -/
theorem reconcileRuns_noOrphan_iff (hjobIds : Unique Job.name s.jobs)
    (hrunIds : Unique JobRun.runId s.runs)
    (hkeys : Unique DurableScheduleOccurrence.key s.occurrences)
    (h : s.reconcileRuns r rollbackRequired = .ok t) :
    t.NoOrphan deletions ↔ ∀ row ∈ s.runs, row.state.isTerminal = false →
      s.IsReached rollbackRequired row ∨ s.IsAwaited deletions row := by
  simp only [reconcileRuns] at h
  cases hloop : (listJobs (s.recoverScheduleOccurrences r.now)).foldlM
      (reconcileJob r rollbackRequired) (s.recoverScheduleOccurrences r.now) with
  | error e => rw [hloop] at h; cases h
  | ok b =>
    rw [hloop] at h
    cases h
    have hjobs : Unique Job.name (listJobs (s.recoverScheduleOccurrences r.now)) :=
      ((List.perm_insertionSort _ _).map Job.name).nodup_iff.mpr hjobIds
    have hb := foldlM_reconcileJob (s := s.recoverScheduleOccurrences r.now) hrunIds hjobs hloop
    have ht := reconcileDurableScheduleDispatch_dispatched
      (hb.keys (recover_keys r.now hkeys)) (hb.idle (recover_idle r.now)) r
    have hawaited (row : JobRun) :
        (b.reconcileDurableScheduleDispatch r).IsAwaited deletions row ↔
          s.IsAwaited deletions row := by
      unfold IsAwaited HasTicket
      rw [ht.cleanups, hb.cleanups]
      rfl
    constructor
    · intro hno row hrow hopen
      by_contra hnot
      rw [not_or] at hnot
      -- the loop leaves the row, and no occurrence is running for it
      have hkept : row ∈ b.runs := by
        rw [hb.runs row hopen]
        exact ⟨hrow, fun hgone => hnot.1 ((isReached_iff hrunIds hrow hopen).mp hgone)⟩
      rcases hno row (ht.runs row hkept) hopen with ⟨d, hd, hrunning, hid⟩ | hwaits
      · exact ht.fresh d hd hrunning row hkept hid
      · exact hnot.2 ((hawaited row).mp hwaits)
    · intro hall row hrow hopen
      rcases ht.owned row hrow hopen with hold | howned
      · rw [hb.runs row hopen] at hold
        rcases hall row hold.1 hopen with hreached | hwaits
        · exact absurd ((isReached_iff hrunIds hold.1 hopen).mpr hreached) hold.2
        · exact .inr ((hawaited row).mpr hwaits)
      · exact .inl howned

end Reconciliation

section Tickets

variable {b s t : Store} {r : RunReplies} {rollbackRequired : List JobId}
  {deletions : List JobDeletionJournal}

/-- The rows of `g` are those they were, or have ended. -/
structure Ends (g : JobRun → JobRun) : Prop where
  runId : ∀ row, (g row).runId = row.runId
  jobName : ∀ row, (g row).jobName = row.jobName
  scheduledAt : ∀ row, (g row).scheduledAt = row.scheduledAt
  same : ∀ row, g row = row ∨ (g row).state.isTerminal = true

theorem Ends.eq_of_open {g : JobRun → JobRun} (hg : Ends g) {row : JobRun}
    (hopen : (g row).state.isTerminal = false) : g row = row := by
  rcases hg.same row with hsame | hended
  · exact hsame
  · rw [hopen] at hended
    cases hended

theorem Ends.comp {g g' : JobRun → JobRun} (hg' : Ends g') (hg : Ends g) : Ends (g' ∘ g) where
  runId row := (hg'.runId (g row)).trans (hg.runId row)
  jobName row := (hg'.jobName (g row)).trans (hg.jobName row)
  scheduledAt row := (hg'.scheduledAt (g row)).trans (hg.scheduledAt row)
  same row := by
    rcases hg'.same (g row) with hsame | hended
    · rw [Function.comp_apply, hsame]
      exact hg.same row
    · exact .inr hended

/-- The newest rows are listed as before, as they are now. -/
theorem Ends.listRuns {g : JobRun → JobRun} (hg : Ends g) (h : t.runs = s.runs.map g)
    (name : String) (limit : ℕ) : t.listRuns name limit = (s.listRuns name limit).map g := by
  unfold Store.listRuns
  have hfilter : (s.runs.map g).filter (fun run => run.jobName = name) =
      (s.runs.filter fun run => run.jobName = name).map g := by
    rw [List.filter_map]
    congr 1
    apply List.filter_congr
    intro row _
    rw [Function.comp_apply, hg.jobName]
  rw [h, hfilter, List.map_take]
  congr 1
  refine (List.map_insertionSort _ _ g _ fun row _ row' _ => ?_).symm
  rw [hg.scheduledAt, hg.scheduledAt]

/-- The store of the tickets, which began at `b`. -/
structure Settled (b s : Store) : Prop where
  jobs : s.jobs = b.jobs
  occurrences : s.occurrences = b.occurrences
  runs : ∃ g, Ends g ∧ s.runs = b.runs.map g
  tickets : ∀ ticket ∈ s.cleanups, ∃ old ∈ b.cleanups, old.cleanupId = ticket.cleanupId ∧
    old.runId = ticket.runId ∧ old.jobName = ticket.jobName
  waits : ∀ row ∈ s.runs, row.state.isTerminal = false → b.HasTicket row → s.HasTicket row
  closed : ∀ row ∈ b.runs, row.state.isTerminal = false → row ∉ s.runs → b.HasTicket row
  ended : ∀ ticket ∈ s.cleanups, ∀ event ∈ s.outbox, event.cleanupId = ticket.cleanupId →
    ∀ row ∈ s.runs, row.runId = ticket.runId → row.state.isTerminal = true

theorem Settled.refl (hb : b.Committed) : Settled b b where
  jobs := rfl
  occurrences := rfl
  runs := ⟨id, ⟨fun _ => rfl, fun _ => rfl, fun _ => rfl, fun _ => .inl rfl⟩,
    (List.map_id _).symm⟩
  tickets ticket hticket := ⟨ticket, hticket, rfl, rfl, rfl⟩
  waits _ _ _ h := h
  closed _ hrow _ hgone := absurd hrow hgone
  ended := hb.ended

theorem Settled.sameRun (hs : Settled b s) (hb : b.Keyed) {ticket old : CleanupTicket}
    (hticket : ticket ∈ s.cleanups) (hold : old ∈ b.cleanups)
    (hid : ticket.cleanupId = old.cleanupId) :
    ticket.runId = old.runId ∧ ticket.jobName = old.jobName := by
  obtain ⟨old', hold', hid', hrun, hname⟩ := hs.tickets ticket hticket
  have hsame : old' = old := hb.cleanups.eq_of_key hold' hold (hid'.trans hid)
  rw [hsame] at hrun hname
  exact ⟨hrun.symm, hname.symm⟩

theorem Settled.runIds (hs : Settled b s) (hb : b.Keyed) : Unique JobRun.runId s.runs := by
  obtain ⟨g, hg, hruns⟩ := hs.runs
  rw [hruns, KeyedRows.Unique, List.map_map]
  have hcomp : JobRun.runId ∘ g = JobRun.runId := funext hg.runId
  rw [hcomp]
  exact hb.runs

/-- Tickets go whose run has ended or has no row. -/
theorem Settled.remove (hs : Settled b s) {cleanups : List CleanupTicket}
    {outbox : List TransientTerminalEvent} (hcleanups : ∀ ticket ∈ cleanups, ticket ∈ s.cleanups)
    (houtbox : ∀ event ∈ outbox, event ∈ s.outbox)
    (hgone : ∀ ticket ∈ s.cleanups, ticket ∉ cleanups → ∀ row ∈ s.runs,
      ticket.runId = row.runId → ticket.jobName = row.jobName → row.state.isTerminal = true) :
    Settled b { s with cleanups, outbox } where
  jobs := hs.jobs
  occurrences := hs.occurrences
  runs := hs.runs
  tickets ticket hticket := hs.tickets ticket (hcleanups ticket hticket)
  waits row hrow hopen hhas := by
    obtain ⟨ticket, hticket, hid, hname⟩ := hs.waits row hrow hopen hhas
    by_cases hkept : ticket ∈ cleanups
    · exact ⟨ticket, hkept, hid, hname⟩
    · have hended := hgone ticket hticket hkept row hrow hid hname
      rw [hopen] at hended
      cases hended
  closed := hs.closed
  ended ticket hticket event hevent :=
    hs.ended ticket (hcleanups ticket hticket) event (houtbox event hevent)

theorem Settled.acknowledge (hs : Settled b s) (eventId cleanupId : Uuid) :
    Settled b (s.acknowledgeTransientTerminalEvent eventId cleanupId) := by
  unfold acknowledgeTransientTerminalEvent
  split
  · rename_i hstored
    obtain ⟨event, hevent, hids⟩ := List.any_eq_true.mp hstored
    rw [Bool.and_eq_true, decide_eq_true_eq, decide_eq_true_eq] at hids
    apply hs.remove (fun ticket h => (List.mem_filter.mp h).1) fun e h => (List.mem_filter.mp h).1
    intro ticket hticket hremoved row hrow hrun _
    have hid : ticket.cleanupId = cleanupId := by
      by_contra hne
      exact hremoved (List.mem_filter.mpr ⟨hticket, decide_eq_true hne⟩)
    exact hs.ended ticket hticket event hevent (hids.1.trans hid.symm) row hrow hrun.symm
  · exact hs

theorem Settled.deliver (hs : Settled b s) (r : RunReplies) :
    Settled b (s.deliverTransientTerminalEvents r) := by
  refine List.foldlRecOn (motive := Settled b) _ _ hs fun u hu event _ => ?_
  by_cases hdelivered : r.isDelivered event = true
  · rw [if_pos hdelivered]
    exact hu.acknowledge event.eventId event.cleanupId
  · rw [if_neg hdelivered]
    exact hu

theorem Settled.update (hs : Settled b s) (cleanupId : Uuid) (stage : TransientCleanupStage)
    (error : Option String) : Settled b (s.updateTransientCleanup cleanupId stage error) := by
  have hmem (ticket : CleanupTicket)
      (h : ticket ∈ (s.updateTransientCleanup cleanupId stage error).cleanups) :
      ∃ old ∈ s.cleanups, old.cleanupId = ticket.cleanupId ∧ old.runId = ticket.runId ∧
        old.jobName = ticket.jobName := by
    rcases KeyedRows.mem_update_iff.mp h with ⟨old, hold, -, rfl⟩ | ⟨hold, -⟩
    · exact ⟨old, hold, rfl, rfl, rfl⟩
    · exact ⟨ticket, hold, rfl, rfl, rfl⟩
  refine ⟨hs.jobs, hs.occurrences, hs.runs, fun ticket hticket => ?_,
    fun row hrow hopen hhas => ?_, hs.closed, fun ticket hticket event hevent hid => ?_⟩
  · obtain ⟨old, hold, hid, hrun, hname⟩ := hmem ticket hticket
    obtain ⟨first, hfirst, hid', hrun', hname'⟩ := hs.tickets old hold
    exact ⟨first, hfirst, hid'.trans hid, hrun'.trans hrun, hname'.trans hname⟩
  · obtain ⟨ticket, hticket, hrun, hname⟩ := hs.waits row hrow hopen hhas
    by_cases hid : ticket.cleanupId = cleanupId
    · exact ⟨_, KeyedRows.mem_update_iff.mpr (.inl ⟨ticket, hticket, hid, rfl⟩), hrun, hname⟩
    · exact ⟨ticket, KeyedRows.mem_update_iff.mpr (.inr ⟨hticket, hid⟩), hrun, hname⟩
  · obtain ⟨old, hold, hid', hrun', -⟩ := hmem ticket hticket
    rw [← hrun']
    exact hs.ended old hold event hevent (hid.trans hid'.symm)

/-- The row of the ticket ends together with its event. -/
theorem Settled.commit (hs : Settled b s) (hb : b.Keyed) {ticket : CleanupTicket}
    (hticket : ticket ∈ b.cleanups) (hintended : ticket.intendedTerminalState.isTerminal = true)
    {run : JobRun} {eventId : Uuid}
    (hrun : s.getRun ticket.jobName ticket.runId = some run)
    (h : s.commitTransientCleanupTerminal ticket (ticket.terminalRun run) eventId = .ok t) :
    Settled b t := by
  obtain ⟨hfound, hname⟩ := Option.filter_eq_some_iff.mp hrun
  rw [decide_eq_true_eq] at hname
  have hid : (ticket.terminalRun run).runId = ticket.runId :=
    (terminalRun_spec ticket run).1.trans (KeyedRows.find_key hfound)
  have hended : (ticket.terminalRun run).state.isTerminal = true := by
    rw [(terminalRun_spec ticket run).2]
    split
    · assumption
    · exact hintended
  obtain ⟨u, hu, haside, hinsert⟩ := terminalCommit_spec h
  obtain ⟨old, hold⟩ := commitTransientCleanupTerminal_ok h
  have hcleanups : t.cleanups = s.cleanups :=
    (insertOutbox_ok hinsert).2.2.2.trans haside.cleanups
  -- the rows of the run end, and the others stay
  let ends (row : JobRun) : JobRun :=
    if row.runId = (ticket.terminalRun run).runId then
      { row with
        startedAt := (ticket.terminalRun run).startedAt
        endedAt := (ticket.terminalRun run).endedAt
        exitCode := (ticket.terminalRun run).exitCode
        state := (ticket.terminalRun run).state }
    else row
  have hends : Ends ends := by
    refine ⟨fun row => ?_, fun row => ?_, fun row => ?_, fun row => ?_⟩
    all_goals
      dsimp only [ends]
      split
    · rfl
    · rfl
    · rfl
    · rfl
    · rfl
    · rfl
    · exact .inr hended
    · exact .inl rfl
  have hrows : t.runs = s.runs.map ends := hold.runs
  have hmem {row : JobRun} (hrow : row ∈ t.runs) (hopen : row.state.isTerminal = false) :
      row ∈ s.runs := by
    rw [hrows] at hrow
    obtain ⟨before, hbefore, rfl⟩ := List.mem_map.mp hrow
    rw [hends.eq_of_open hopen]
    exact hbefore
  have hrunEnds {row : JobRun} (hrow : row ∈ t.runs) (hrowId : row.runId = ticket.runId) :
      row.state.isTerminal = true := by
    rw [hrows] at hrow
    obtain ⟨before, -, rfl⟩ := List.mem_map.mp hrow
    have hsame : before.runId = (ticket.terminalRun run).runId :=
      (hends.runId before).symm.trans (hrowId.trans hid.symm)
    dsimp only [ends]
    rw [if_pos hsame]
    exact hended
  refine ⟨hold.jobs.trans hs.jobs, hold.occurrences.trans hs.occurrences, ?_, ?_,
    fun row hrow hopen hhas => ?_, fun row hrow hopen hgone => ?_,
    fun other hother event hevent hids row hrow hrowId => ?_⟩
  · obtain ⟨g, hg, hruns⟩ := hs.runs
    refine ⟨ends ∘ g, hends.comp hg, ?_⟩
    rw [hrows, hruns, List.map_map]
  · rw [hcleanups]
    exact hs.tickets
  · obtain ⟨other, hother, hsame⟩ := hs.waits row (hmem hrow hopen) hopen hhas
    exact ⟨other, hcleanups ▸ hother, hsame⟩
  · by_cases hbefore : row ∈ s.runs
    · have hrowId : row.runId = (ticket.terminalRun run).runId := by
        by_contra hne
        refine hgone (hrows ▸ List.mem_map.mpr ⟨row, hbefore, ?_⟩)
        dsimp only [ends]
        rw [if_neg hne]
      have hsame : row = run :=
        (hs.runIds hb).eq_of_key hbefore (KeyedRows.find_mem hfound)
          (hrowId.trans (terminalRun_spec ticket run).1)
      rw [hsame]
      exact ⟨ticket, hticket, (KeyedRows.find_key hfound).symm, hname.symm⟩
    · exact hs.closed row hrow hopen hbefore
  · rw [hcleanups] at hother
    by_contra hstate
    rw [Bool.not_eq_true] at hstate
    rcases insertOutbox_spec hinsert with ⟨rfl, -⟩ | ⟨rfl, -⟩
    · have hends' := hs.ended other hother event (haside.outbox ▸ hevent) hids row
        (hmem hrow hstate) hrowId
      rw [hstate] at hends'
      cases hends'
    · rcases List.mem_append.mp hevent with hevent | hevent
      · have hends' := hs.ended other hother event (haside.outbox ▸ hevent) hids row
          (hmem hrow hstate) hrowId
        rw [hstate] at hends'
        cases hends'
      · rw [List.mem_singleton.mp hevent] at hids
        have hsame := (hs.sameRun hb hother hticket hids.symm).1
        rw [hrunEnds hrow (hrowId.trans hsame)] at hstate
        cases hstate

theorem Settled.complete (hs : Settled b s) (hb : b.Keyed) {ticket : CleanupTicket}
    (hticket : ticket ∈ b.cleanups)
    (hnone : s.getRun ticket.jobName ticket.runId = none) :
    Settled b (s.completeTransientCleanup ticket.cleanupId) := by
  apply hs.remove (fun other h => (List.mem_filter.mp h).1) fun _ h => h
  intro other hother hremoved row hrow hrun hname
  have hid : other.cleanupId = ticket.cleanupId := by
    by_contra hne
    exact hremoved (List.mem_filter.mpr ⟨hother, decide_eq_true hne⟩)
  obtain ⟨hrun', hname'⟩ := hs.sameRun hb hother hticket hid
  have hfound : s.findRun ticket.runId = some row := by
    rw [← hrun', hrun]
    exact (hs.runIds hb).find_of_mem hrow
  have hsome : s.getRun ticket.jobName ticket.runId = some row :=
    Option.filter_eq_some_iff.mpr ⟨hfound, decide_eq_true (hname.symm.trans hname')⟩
  rw [hnone] at hsome
  cases hsome

theorem Settled.finish (hs : Settled b s) (hb : b.Keyed) {ticket : CleanupTicket}
    (hticket : ticket ∈ b.cleanups) (hintended : ticket.intendedTerminalState.isTerminal = true)
    (eventId : Uuid) : Settled b (s.finishTransientCleanup ticket eventId) := by
  have hsealed := (hs.update ticket.cleanupId .sealLog none).update ticket.cleanupId
    .persistTerminal none
  simp only [finishTransientCleanup]
  split
  · exact hsealed.complete hb hticket ‹_›
  · split
    · exact hsealed.commit hb hticket hintended ‹_› ‹_›
    · exact hsealed.update ticket.cleanupId .persistTerminal _

theorem Settled.resumeTicket (hs : Settled b s) (hb : b.Keyed) {ticket : CleanupTicket}
    (hticket : ticket ∈ b.cleanups) (hintended : ticket.intendedTerminalState.isTerminal = true)
    (r : RunReplies) : Settled b (s.resumeTicket r ticket) := by
  unfold Store.resumeTicket
  split
  · exact (hs.finish hb hticket hintended _).deliver r
  · exact hs.update ticket.cleanupId _ _

theorem deliver_cleanups (s : Store) (r : RunReplies) :
    ∀ ticket ∈ (s.deliverTransientTerminalEvents r).cleanups, ticket ∈ s.cleanups := by
  refine List.foldlRecOn (motive := fun u : Store => ∀ ticket ∈ u.cleanups, ticket ∈ s.cleanups)
    _ _ (fun _ h => h) fun u hu event _ => ?_
  by_cases hdelivered : r.isDelivered event = true
  · rw [if_pos hdelivered]
    intro ticket hticket
    unfold acknowledgeTransientTerminalEvent at hticket
    split at hticket
    · exact hu ticket (List.mem_filter.mp hticket).1
    · exact hu ticket hticket
  · rw [if_neg hdelivered]
    exact hu

theorem reconcileTransientCleanup_settled (hs : s.Keyed) (hcommitted : s.Committed)
    (r : RunReplies) : Settled s (s.reconcileTransientCleanup r) := by
  unfold Store.reconcileTransientCleanup
  apply Settled.deliver
  refine List.foldlRecOn (motive := Settled s) _ _ ((Settled.refl hcommitted).deliver r)
    fun u hu ticket hticket => ?_
  have hlisted := List.mem_of_mem_take hticket
  rw [List.mem_insertionSort] at hlisted
  have hstored : ticket ∈ s.cleanups := deliver_cleanups s r ticket hlisted
  exact hu.resumeTicket hs hstored (hcommitted.intended ticket hstored) r

/-- A row that is open after the tickets is the row it was, and is reached when it was. -/
theorem Settled.isReached_iff (hs : Settled b s) (hb : b.Keyed) {row : JobRun}
    (hrow : row ∈ s.runs) (hopen : row.state.isTerminal = false) :
    s.IsReached rollbackRequired row ↔ b.IsReached rollbackRequired row := by
  obtain ⟨g, hg, hruns⟩ := hs.runs
  have hlisted (job : Job) : row ∈ s.listRuns job.name 500 ↔ row ∈ b.listRuns job.name 500 := by
    rw [hg.listRuns hruns, List.mem_map]
    constructor
    · rintro ⟨before, hbefore, rfl⟩
      rw [hg.eq_of_open hopen]
      exact hbefore
    · intro hbefore
      refine ⟨row, hbefore, ?_⟩
      -- the row that took its place has its id
      have hafter : g row ∈ s.runs :=
        hruns ▸ List.mem_map_of_mem (mem_of_mem_listRuns hbefore).1
      exact (hs.runIds hb).eq_of_key hafter hrow (hg.runId row)
  unfold IsReached
  rw [hs.jobs, hs.occurrences]
  simp only [hlisted]

end Tickets

section Bootstrap

variable {s t : Store} {r : RunReplies} {rollbackRequired : List JobId}
  {deletions : List JobDeletionJournal}

/-- After `bootstrap` no open run is left that nobody brings to its end, when and only when every
open run of the crash is awaited or is reached by the loop that cancels: it is one of the 500
newest of its job, is not kept for a rollback, and no occurrence claims it but one that was
running. -/
theorem bootstrapRuns_noOrphan_iff (hs : s.Keyed) (hcommitted : s.Committed)
    (h : s.bootstrapRuns r rollbackRequired = .ok t) :
    t.NoOrphan deletions ↔ ∀ row ∈ s.runs, row.state.isTerminal = false →
      s.IsReached rollbackRequired row ∨ s.IsAwaited deletions row := by
  have hsettled := reconcileTransientCleanup_settled hs hcommitted r
  rw [reconcileRuns_noOrphan_iff (hsettled.jobs ▸ hs.jobs) (hsettled.runIds hs)
    (hsettled.occurrences ▸ hs.occurrences) h]
  obtain ⟨g, hg, hruns⟩ := hsettled.runs
  have hstays {row : JobRun} (hrow : row ∈ (s.reconcileTransientCleanup r).runs)
      (hopen : row.state.isTerminal = false) : row ∈ s.runs := by
    rw [hruns] at hrow
    obtain ⟨before, hbefore, rfl⟩ := List.mem_map.mp hrow
    rw [hg.eq_of_open hopen]
    exact hbefore
  have hticket {row : JobRun} (hhas : (s.reconcileTransientCleanup r).HasTicket row) :
      s.HasTicket row := by
    obtain ⟨ticket, hticket, hid, hname⟩ := hhas
    obtain ⟨old, hold, -, hid', hname'⟩ := hsettled.tickets ticket hticket
    exact ⟨old, hold, hid'.trans hid, hname'.trans hname⟩
  constructor
  · intro hall row hrow hopen
    by_cases hafter : row ∈ (s.reconcileTransientCleanup r).runs
    · rcases hall row hafter hopen with hreached | hjournal | hhas
      · exact .inl ((hsettled.isReached_iff hs hafter hopen).mp hreached)
      · exact .inr (.inl hjournal)
      · exact .inr (.inr (hticket hhas))
    · exact .inr (.inr (hsettled.closed row hrow hopen hafter))
  · intro hall row hrow hopen
    rcases hall row (hstays hrow hopen) hopen with hreached | hjournal | hhas
    · exact .inl ((hsettled.isReached_iff hs hrow hopen).mpr hreached)
    · exact .inr (.inl hjournal)
    · exact .inr (.inr (hsettled.waits row hrow hopen hhas))

end Bootstrap

end Store

section Crash

def nightlyJob : Job :=
  { id := ⟨1⟩
    name := "nightly"
    command := "/bin/true"
    trigger := .cron "0 0 * * *"
    triggerId := 7 }

def nightlyOccurrence : ScheduleOccurrence :=
  { triggerId := 7
    scheduleRevision := 0
    scheduledAt := 0
    attempt := 1 }

/-- A run that was triggered by hand was running. -/
def manualCrash : Store :=
  { jobs := [nightlyJob]
    runs := [{ runId := ⟨1⟩, jobName := "nightly", jobId := ⟨1⟩, triggeredBy := .manual
               scheduledAt := 0, startedAt := some 0, state := .running }] }

/-- The run of an occurrence was running. -/
def scheduledCrash : Store :=
  { jobs := [nightlyJob]
    runs := [{ Store.occurrenceRun nightlyJob nightlyOccurrence ⟨1⟩ .running none with
               startedAt := some 0 }]
    occurrences := [{ jobId := ⟨1⟩, jobName := "nightly", occurrence := nightlyOccurrence
                      state := .running, nextAttemptAt := 0, runId := some ⟨1⟩ }] }

/-- The answers of a `bootstrap` at the time. -/
def quietReplies (now : Instant) : RunReplies :=
  { now
    calendar := .hourly
    resume := fun _ => none
    ticketEvent := id
    isDelivered := fun _ => true
    cancelled := fun runId => (runId.val, runId.val)
    isFrozen := fun _ => false
    admitted := fun _ => ⟨100⟩ }

/-- The run that was triggered by hand ends cancelled. -/
theorem manualCrash_noOrphan :
    ∃ t, manualCrash.bootstrapRuns (quietReplies 1) [] = .ok t ∧ t.NoOrphan [] := by
  have hkeyed : manualCrash.Keyed :=
    ⟨List.nodup_singleton _, List.nodup_singleton _, List.nodup_nil, List.nodup_nil⟩
  have hcommitted : manualCrash.Committed :=
    ⟨fun _ h => absurd h List.not_mem_nil, fun _ h => absurd h List.not_mem_nil⟩
  have hreached : ∀ row ∈ manualCrash.runs, row.state.isTerminal = false →
      manualCrash.IsReached [] row ∨ manualCrash.IsAwaited [] row := by
    decide +kernel
  exact ⟨_, rfl, (Store.bootstrapRuns_noOrphan_iff hkeyed hcommitted rfl).mpr hreached⟩

/-- The recovery takes the occurrence from the scheduled run, which then runs for nobody. -/
theorem scheduledCrash_orphan :
    ∃ t, scheduledCrash.Keyed ∧ scheduledCrash.Committed ∧
      scheduledCrash.bootstrapRuns (quietReplies 1) [] = .ok t ∧ ¬t.NoOrphan [] := by
  refine ⟨_, ?_, ?_, rfl, ?_⟩
  · exact ⟨List.nodup_singleton _, List.nodup_singleton _, List.nodup_singleton _, List.nodup_nil⟩
  · exact ⟨fun _ h => absurd h List.not_mem_nil, fun _ h => absurd h List.not_mem_nil⟩
  · decide +kernel

end Crash

end Supervisor
