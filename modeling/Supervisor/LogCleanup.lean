import Supervisor.CleanupRows

namespace Supervisor

/-- The loops that remove run logs. -/
inductive CleanupLoop where
  | pending
  | onDisk
  | retention
deriving DecidableEq

/-- Where `reconcile_run_log_cleanup` or `enforce_log_retention` stands: the call it waits for, and
the ids that its loop has still to take. -/
inductive CleanupPoint where
  /-- `pending_run_log_cleanup` -/
  | pending
  /-- `prune_runs` -/
  | pruning (job : Job) (now : Instant)
  /-- `remove_run` -/
  | removing (loop : CleanupLoop) (runId : JobRunId) (rest : List JobRunId)
  /-- `complete_run_log_cleanup`, or `fail_run_log_cleanup` -/
  | recording (loop : CleanupLoop) (runId : JobRunId) (isRemoved : Bool) (rest : List JobRunId)
  /-- `persisted_run_ids` -/
  | persisted
  /-- `list_jobs` -/
  | listing (runId : JobRunId) (rest : List JobRunId)
  /-- `get_run` on the first name -/
  | looking (runId : JobRunId) (name : String) (names : List String) (rest : List JobRunId)
  /-- `enqueue_run_log_cleanup` -/
  | enqueueing (runId : JobRunId) (rest : List JobRunId)
  | returned

/-- The next turn of a loop. After the last pending log come the logs on disk. -/
def CleanupLoop.next : CleanupLoop → List JobRunId → CleanupPoint
  | .pending, [] => .persisted
  | .onDisk, [] | .retention, [] => .returned
  | .onDisk, runId :: rest => .listing runId rest
  | .pending, runId :: rest => .removing .pending runId rest
  | .retention, runId :: rest => .removing .retention runId rest

/-- The jobs that `get_run` has still to be asked about; `exists` is false after the last one. -/
def lookUp (runId : JobRunId) (rest : List JobRunId) : List String → CleanupPoint
  | [] => .enqueueing runId rest
  | name :: names => .looking runId name names rest

namespace Store

/-- The runs that `enforce_log_retention` removes the logs of -/
def retentionRemoved (s : Store) (job : Job) (now : Instant) : List JobRunId :=
  (s.pruneRuns job.name (job.logRetention.maxRuns.map fun n => n.val)
    (job.logRetention.maxAgeDays.map fun days => now - days.val * 86400 * nanosPerSec)).1

def enqueueRunLogCleanup (s : Store) (runId : JobRunId) : Store :=
  { s with runLogCleanup :=
      if runId ∈ s.runLogCleanup then s.runLogCleanup else s.runLogCleanup ++ [runId] }

def completeRunLogCleanup (s : Store) (runId : JobRunId) : Store :=
  { s with runLogCleanup := s.runLogCleanup.filter (· ≠ runId) }

end Store

/-- The store, the run logs on disk and the passes under way. `drawn` are the run ids that were
ever used. -/
structure CleanupState where
  store : Store
  disk : List JobRunId
  drawn : List JobRunId
  passes : List CleanupPoint := []

inductive CleanupEvent where
  /-- a transaction of another component -/
  | store (op : StoreOp)
  | admitOccurrence (job : Job) (occurrence : ScheduleOccurrence) (now : Instant) (runId : JobRunId)
  /-- a run writes its log -/
  | write (runId : JobRunId)
  /-- a log is removed with its job -/
  | remove (runId : JobRunId)
  | complete (runId : JobRunId)
  | reconcile
  | retain (job : Job) (now : Instant)
  /-- the call of a pass succeeds; `listed` is the answer of a call that lists run ids -/
  | answer (pass : ℕ) (listed : List JobRunId)
  /-- the call of a pass fails -/
  | fail (pass : ℕ)

namespace CleanupState

/-- The store after a transaction, whose new rows use up their ids. -/
def withStore (s : CleanupState) (store : Store) : CleanupState :=
  { s with store, drawn := store.runs.map JobRun.runId ++ s.drawn }

def goto (s : CleanupState) (pass : ℕ) (point : CleanupPoint) : CleanupState :=
  { s with passes := s.passes.set pass point }

def admitted (s : CleanupState) (job : Job) (occurrence : ScheduleOccurrence) (now : Instant)
    (runId : JobRunId) : Store :=
  ((s.store.admitScheduleOccurrence job occurrence now runId).map Prod.snd).toOption.getD s.store

/-- What a pass does when its call succeeds. The queue orders its rows by their attempts, which are
left out, so any of them may be listed. -/
def answered (s : CleanupState) (pass : ℕ) (listed : List JobRunId) :
    CleanupPoint → Option CleanupState
  | .pending =>
    if listed ⊆ s.store.runLogCleanup ∧ listed.length ≤ 1000 then
      some (s.goto pass (CleanupLoop.pending.next listed))
    else none
  | .pruning job now =>
    some ((s.withStore (s.store.enforceLogRetention job now)).goto pass
      (CleanupLoop.retention.next (s.store.retentionRemoved job now)))
  | .removing loop runId rest =>
    some ({ s with disk := s.disk.filter (· ≠ runId) }.goto pass (.recording loop runId true rest))
  | .recording loop runId isRemoved rest =>
    let store := if isRemoved then s.store.completeRunLogCleanup runId else s.store
    some ((s.withStore store).goto pass (loop.next rest))
  | .persisted =>
    if listed ⊆ s.disk then some (s.goto pass (CleanupLoop.onDisk.next listed)) else none
  | .listing runId rest => some (s.goto pass (lookUp runId rest (s.store.jobs.map Job.name)))
  | .looking runId name names rest =>
    some (s.goto pass (match s.store.getRun name runId with
      | some _ => CleanupLoop.onDisk.next rest
      | none => lookUp runId rest names))
  | .enqueueing runId rest =>
    some ((s.withStore (s.store.enqueueRunLogCleanup runId)).goto pass
      (.removing .onDisk runId rest))
  | .returned => none

/-- What a pass does when its call fails: a lookup counts as one that finds nothing. -/
def failed (s : CleanupState) (pass : ℕ) : CleanupPoint → Option CleanupState
  | .pending | .pruning _ _ | .persisted => some (s.goto pass .returned)
  | .removing loop runId rest => some (s.goto pass (.recording loop runId false rest))
  | .recording loop _ _ rest => some (s.goto pass (loop.next rest))
  | .listing runId rest => some (s.goto pass (lookUp runId rest []))
  | .looking runId _ names rest => some (s.goto pass (lookUp runId rest names))
  | .enqueueing _ rest => some (s.goto pass (CleanupLoop.onDisk.next rest))
  | .returned => none

end CleanupState

/-- The cleanup passes beside the other writers of the tables and of the logs. -/
def cleanupSystem : Machine CleanupState CleanupEvent where
  step s
    | .store op => some (s.withStore (s.store.apply op))
    | .admitOccurrence job occurrence now runId => some (s.withStore (s.admitted job occurrence now runId))
    | .write runId => if runId ∈ s.drawn then some { s with disk := runId :: s.disk } else none
    | .remove runId => some { s with disk := s.disk.filter (· ≠ runId) }
    | .complete runId => some (s.withStore (s.store.completeRunLogCleanup runId))
    | .reconcile => some { s with passes := s.passes ++ [.pending] }
    | .retain job now => some { s with passes := s.passes ++ [.pruning job now] }
    | .answer pass listed => s.passes[pass]?.bind (s.answered pass listed)
    | .fail pass => s.passes[pass]?.bind (s.failed pass)

namespace CleanupState

/-- The tables and the logs at the start: ids of rows, of logs and of the queue are used, and the
queue has no id of a row. -/
structure Start (s : CleanupState) : Prop where
  rows : s.store.RunsSound
  queue : ∀ runId ∈ s.store.runLogCleanup, s.store.findRun runId = none
  drawnRows : ∀ run ∈ s.store.runs, run.runId ∈ s.drawn
  drawnQueue : s.store.runLogCleanup ⊆ s.drawn
  drawnDisk : s.disk ⊆ s.drawn
  idle : s.passes = []

/-- The run whose log a pass removes, whether the removal will succeed or not. -/
def removal (s : CleanupState) : CleanupEvent → Option JobRunId
  | .answer pass _ | .fail pass => s.passes[pass]?.bind fun
    | .removing _ runId _ => some runId
    | _ => none
  | _ => none

/-- No pass removes the log of a run that is stored. -/
def SparesStored (s : CleanupState) : Prop :=
  ∀ e runId, s.removal e = some runId → s.store.findRun runId = none

/-- Rows that a transaction adds have ids that were never used. -/
def AddsNew (s : CleanupState) (store : Store) : Prop :=
  ∀ run ∈ store.runs, s.store.findRun run.runId = none → run.runId ∉ s.drawn

instance (s : CleanupState) (store : Store) : Decidable (s.AddsNew store) :=
  inferInstanceAs (Decidable (∀ run ∈ store.runs, _ → _))

/-- A lookup may fail where it would not find the row of its run. -/
def mayFail (s : CleanupState) : CleanupPoint → Bool
  | .listing runId _ => (s.store.findRun runId).isNone
  | .looking runId name _ _ => (s.store.getRun name runId).isNone
  | _ => true

/-- A lookup does not fail where it would find the row of its run, and no used id is stored again. -/
def Fits (s : CleanupState) : CleanupEvent → Prop
  | .store op => s.AddsNew (s.store.apply op)
  | .admitOccurrence job occurrence now runId => s.AddsNew (s.admitted job occurrence now runId)
  | .fail pass => s.passes[pass]?.all s.mayFail = true
  | _ => True

instance (s : CleanupState) : (e : CleanupEvent) → Decidable (s.Fits e)
  | .store op => inferInstanceAs (Decidable (s.AddsNew (s.store.apply op)))
  | .admitOccurrence job occurrence now runId =>
    inferInstanceAs (Decidable (s.AddsNew (s.admitted job occurrence now runId)))
  | .fail pass => inferInstanceAs (Decidable (s.passes[pass]?.all s.mayFail = true))
  | .write _ | .remove _ | .complete _ | .reconcile | .retain _ _ | .answer _ _ =>
    inferInstanceAs (Decidable True)

/-- The id was used, and its row is gone. -/
def Gone (s : CleanupState) (runId : JobRunId) : Prop :=
  runId ∈ s.drawn ∧ s.store.findRun runId = none

/-- What holds of the ids that a loop has still to take: ids found on disk are only known to be
used. -/
def Due (s : CleanupState) : CleanupLoop → List JobRunId → Prop
  | .onDisk, rest => rest ⊆ s.drawn
  | .pending, rest | .retention, rest => ∀ runId ∈ rest, s.Gone runId

/-- What a pass has found out at a point. While it looks for a run, the job of a stored row is
among those it has not asked about. -/
def Safe (s : CleanupState) : CleanupPoint → Prop
  | .removing loop runId rest => s.Gone runId ∧ s.Due loop rest
  | .recording loop _ _ rest => s.Due loop rest
  | .listing runId rest => runId ∈ s.drawn ∧ rest ⊆ s.drawn
  | .looking runId name names rest => runId ∈ s.drawn ∧ rest ⊆ s.drawn ∧
    ∀ run ∈ s.store.runs, run.runId = runId → run.jobName ∈ name :: names
  | .enqueueing runId rest => s.Gone runId ∧ rest ⊆ s.drawn
  | .pending | .pruning _ _ | .persisted | .returned => True

/-- The invariant: an id in the queue has no row, and each pass is at a safe point. -/
structure Clean (s : CleanupState) : Prop where
  rows : s.store.RunsSound
  queue : ∀ runId ∈ s.store.runLogCleanup, s.Gone runId
  drawnRows : ∀ run ∈ s.store.runs, run.runId ∈ s.drawn
  drawnDisk : s.disk ⊆ s.drawn
  passes : ∀ point ∈ s.passes, s.Safe point

section Points

variable {s t : CleanupState} {store : Store} {runId : JobRunId} {rest : List JobRunId}
  {point : CleanupPoint} {loop : CleanupLoop}

theorem Start.clean (h : s.Start) : s.Clean where
  rows := h.rows
  queue runId hid := ⟨h.drawnQueue hid, h.queue runId hid⟩
  drawnRows := h.drawnRows
  drawnDisk := h.drawnDisk
  passes point hpoint := by
    rw [h.idle] at hpoint
    cases hpoint

theorem safe_next (h : s.Due loop rest) : s.Safe (loop.next rest) := by
  cases rest with
  | nil => cases loop <;> trivial
  | cons runId rest =>
    cases loop with
    | pending | retention =>
      exact ⟨h runId List.mem_cons_self, fun other hother => h other (List.mem_cons_of_mem _ hother)⟩
    | onDisk => exact ⟨h List.mem_cons_self, fun other hother => h (List.mem_cons_of_mem _ hother)⟩

theorem safe_lookUp {names : List String} (hid : runId ∈ s.drawn) (hrest : rest ⊆ s.drawn)
    (hnames : ∀ run ∈ s.store.runs, run.runId = runId → run.jobName ∈ names) :
    s.Safe (lookUp runId rest names) := by
  cases names with
  | nil =>
    refine ⟨⟨hid, Store.findRun_eq_none.mpr fun run hrun heq => ?_⟩, hrest⟩
    exact absurd (hnames run hrun heq) List.not_mem_nil
  | cons name names => exact ⟨hid, hrest, hnames⟩

/-- A lookup under one name leaves the other names. -/
theorem names_of_getRun (hs : s.Clean) {name : String} {names : List String}
    (hnone : s.store.getRun name runId = none)
    (hnames : ∀ run ∈ s.store.runs, run.runId = runId → run.jobName ∈ name :: names) :
    ∀ run ∈ s.store.runs, run.runId = runId → run.jobName ∈ names := by
  intro run hrun hid
  have hfind : s.store.findRun runId = some run := by
    rw [← hid]
    exact hs.rows.runIds.find_of_mem hrun
  rw [Store.getRun, hfind, Option.filter_some] at hnone
  rcases List.mem_cons.mp (hnames run hrun hid) with hname | hname
  · rw [if_pos (by simpa using hname)] at hnone
    cases hnone
  · exact hname

end Points

section Frames

variable {s : CleanupState} {t : Store} {runId : JobRunId} {rest : List JobRunId}
  {point : CleanupPoint} {loop : CleanupLoop} {pass : ℕ}

theorem gone_withStore (hnew : s.AddsNew t) (h : s.Gone runId) : (s.withStore t).Gone runId := by
  refine ⟨List.mem_append_right _ h.1, Store.findRun_eq_none.mpr fun run hrun hid => ?_⟩
  subst hid
  exact hnew run hrun h.2 h.1

theorem drawn_withStore (h : rest ⊆ s.drawn) : rest ⊆ (s.withStore t).drawn :=
  fun _ hid => List.mem_append_right _ (h hid)

theorem due_withStore (hnew : s.AddsNew t) (h : s.Due loop rest) :
    (s.withStore t).Due loop rest := by
  cases loop with
  | onDisk => exact drawn_withStore h
  | pending | retention => exact fun other hother => gone_withStore hnew (h other hother)

/-- What a pass has found out stays true when others write. -/
theorem safe_withStore (hs : s.Clean) (hstep : s.store.RunStep t) (hnew : s.AddsNew t)
    (h : s.Safe point) : (s.withStore t).Safe point := by
  cases point with
  | pending | pruning | persisted | returned => trivial
  | removing loop runId rest => exact ⟨gone_withStore hnew h.1, due_withStore hnew h.2⟩
  | recording loop runId isRemoved rest => exact due_withStore hnew h
  | listing runId rest => exact ⟨List.mem_append_right _ h.1, drawn_withStore h.2⟩
  | enqueueing runId rest => exact ⟨gone_withStore hnew h.1, drawn_withStore h.2⟩
  | looking runId name names rest =>
    obtain ⟨hid, hrest, hnames⟩ := h
    refine ⟨List.mem_append_right _ hid, drawn_withStore hrest, fun run hrun heq => ?_⟩
    -- the row was there before, as no used id is stored again, and it names the same job
    subst heq
    by_cases hfind : s.store.findRun run.runId = none
    · exact absurd hid (hnew run hrun hfind)
    · obtain ⟨old, hold⟩ := Option.ne_none_iff_exists'.mp hfind
      have hmem := KeyedRows.find_mem hold
      have holdId : old.runId = run.runId := KeyedRows.find_key hold
      rw [← hstep.jobName hs.rows hrun hmem holdId]
      exact hnames old hmem holdId

theorem Clean.withStore (hs : s.Clean) (hstep : s.store.RunStep t) (hnew : s.AddsNew t) :
    (s.withStore t).Clean where
  rows := hstep.sound hs.rows
  queue runId hid := by
    rcases hstep.queue hs.rows hid with hold | ⟨⟨run, hrun, rfl⟩, hgone⟩
    · exact gone_withStore hnew (hs.queue runId hold)
    · exact ⟨List.mem_append_right _ (hs.drawnRows run hrun), hgone⟩
  drawnRows run hrun := List.mem_append_left _ (List.mem_map_of_mem hrun)
  drawnDisk := drawn_withStore hs.drawnDisk
  passes point hpoint := safe_withStore hs hstep hnew (hs.passes point hpoint)

theorem Clean.goto (hs : s.Clean) (h : s.Safe point) : (s.goto pass point).Clean where
  rows := hs.rows
  queue := hs.queue
  drawnRows := hs.drawnRows
  drawnDisk := hs.drawnDisk
  passes other hother := by
    rcases List.mem_or_eq_of_mem_set hother with hold | rfl
    · exact hs.passes other hold
    · exact h

theorem Clean.start (hs : s.Clean) (h : s.Safe point) :
    CleanupState.Clean { s with passes := s.passes ++ [point] } where
  rows := hs.rows
  queue := hs.queue
  drawnRows := hs.drawnRows
  drawnDisk := hs.drawnDisk
  passes other hother := by
    rcases List.mem_append.mp hother with hold | hnew
    · exact hs.passes other hold
    · rw [List.mem_singleton.mp hnew]
      exact h

theorem Clean.withDisk (hs : s.Clean) {disk : List JobRunId} (h : disk ⊆ s.drawn) :
    CleanupState.Clean { s with disk } where
  rows := hs.rows
  queue := hs.queue
  drawnRows := hs.drawnRows
  drawnDisk := h
  passes := hs.passes

/-- A change of the queue leaves the rows, so it adds none. -/
theorem Clean.withQueue (hs : s.Clean) {queue : List JobRunId}
    (h : ∀ runId ∈ queue, s.Gone runId) :
    (s.withStore { s.store with runLogCleanup := queue }).Clean := by
  have hnew : s.AddsNew { s.store with runLogCleanup := queue } := fun run hrun hnone =>
    absurd rfl (Store.findRun_eq_none.mp hnone run hrun)
  have hsame := hs.withStore (.refl s.store) (t := s.store) fun run hrun hnone =>
    absurd rfl (Store.findRun_eq_none.mp hnone run hrun)
  exact {
    rows := ⟨hs.rows.runIds, hs.rows.parents⟩
    queue := fun runId hid => gone_withStore hnew (h runId hid)
    drawnRows := hsame.drawnRows
    drawnDisk := hsame.drawnDisk
    passes := hsame.passes }

theorem Clean.complete (hs : s.Clean) (runId : JobRunId) :
    (s.withStore (s.store.completeRunLogCleanup runId)).Clean :=
  hs.withQueue fun other hother => hs.queue other (List.mem_of_mem_filter hother)

end Frames

section Steps

variable {s t : CleanupState} {runId : JobRunId} {rest : List JobRunId} {point : CleanupPoint}
  {pass : ℕ}

/-- Pruning adds no row, and the rows of the ids it answers with are gone. -/
theorem retain_spec (hs : s.Clean) (job : Job) (now : Instant) :
    s.AddsNew (s.store.enforceLogRetention job now) ∧
      s.store.RunStep (s.store.enforceLogRetention job now) ∧
      ∀ runId ∈ s.store.retentionRemoved job now,
        (s.withStore (s.store.enforceLogRetention job now)).Gone runId := by
  obtain ⟨-, hruns, hids, -⟩ := Store.pruneRuns_rows s.store job.name
    (job.logRetention.maxRuns.map fun n => n.val)
    (job.logRetention.maxAgeDays.map fun days => now - days.val * 86400 * nanosPerSec)
  have hnew : s.AddsNew (s.store.enforceLogRetention job now) := by
    intro run hrun hnone
    have hold : run ∈ s.store.runs := by
      unfold Store.enforceLogRetention at hrun
      rw [hruns] at hrun
      exact List.mem_of_mem_filter hrun
    exact absurd rfl (Store.findRun_eq_none.mp hnone run hold)
  refine ⟨hnew, Store.pruneRuns_runStep .., fun runId hid => ?_⟩
  obtain ⟨old, hold, rfl⟩ := hids runId hid
  refine ⟨List.mem_append_right _ (hs.drawnRows old hold),
    Store.findRun_eq_none.mpr fun run hrun heq => ?_⟩
  have hkept : run ∈ s.store.runs.filter
      (fun run => run.runId ∉ s.store.retentionRemoved job now) := hruns ▸ hrun
  have hnot : run.runId ∉ s.store.retentionRemoved job now := by
    simpa using (List.mem_filter.mp hkept).2
  rw [heq] at hnot
  exact hnot hid

/-- A call that succeeds leads from a safe point to a safe one. -/
theorem answered_clean {listed : List JobRunId} (hs : s.Clean) (hpoint : s.Safe point)
    (h : s.answered pass listed point = some t) : t.Clean := by
  cases point with
  | returned => cases h
  | pending =>
    simp only [answered, Option.ite_none_right_eq_some, Option.some.injEq] at h
    obtain ⟨⟨hlisted, -⟩, rfl⟩ := h
    have hdue : s.Due .pending listed := fun runId hid => hs.queue runId (hlisted hid)
    exact hs.goto (safe_next hdue)
  | pruning job now =>
    cases h
    obtain ⟨hnew, hstep, hgone⟩ := retain_spec hs job now
    have hdue : (s.withStore (s.store.enforceLogRetention job now)).Due .retention
        (s.store.retentionRemoved job now) := hgone
    exact (hs.withStore hstep hnew).goto (safe_next hdue)
  | removing loop runId rest =>
    cases h
    have hdisk := @CleanupState.Clean.withDisk _ hs (s.disk.filter (· ≠ runId)) fun other hother =>
      hs.drawnDisk (List.mem_of_mem_filter hother)
    exact hdisk.goto hpoint.2
  | recording loop runId isRemoved rest =>
    cases h
    cases isRemoved with
    | true =>
      have hnew : s.AddsNew (s.store.completeRunLogCleanup runId) := fun run hrun hnone =>
        absurd rfl (Store.findRun_eq_none.mp hnone run hrun)
      exact (hs.complete runId).goto (safe_next (due_withStore hnew hpoint))
    | false =>
      have hnew : s.AddsNew s.store := fun run hrun hnone =>
        absurd rfl (Store.findRun_eq_none.mp hnone run hrun)
      exact (hs.withStore (.refl _) hnew).goto (safe_next (due_withStore hnew hpoint))
  | persisted =>
    simp only [answered, Option.ite_none_right_eq_some, Option.some.injEq] at h
    obtain ⟨hlisted, rfl⟩ := h
    have hdue : s.Due .onDisk listed := fun runId hid => hs.drawnDisk (hlisted hid)
    exact hs.goto (safe_next hdue)
  | listing runId rest =>
    cases h
    -- the row of the run names a job, and each of the jobs is listed
    exact hs.goto (safe_lookUp hpoint.1 hpoint.2 fun run hrun _ => hs.rows.parents run hrun)
  | looking runId name names rest =>
    cases h
    obtain ⟨hid, hrest, hnames⟩ := hpoint
    cases hget : s.store.getRun name runId with
    | some run =>
      have hdue : s.Due .onDisk rest := hrest
      exact hs.goto (safe_next hdue)
    | none => exact hs.goto (safe_lookUp hid hrest (names_of_getRun hs hget hnames))
  | enqueueing runId rest =>
    cases h
    obtain ⟨hgone, hrest⟩ := hpoint
    have hqueue : ∀ other ∈ (s.store.enqueueRunLogCleanup runId).runLogCleanup, s.Gone other := by
      intro other hother
      unfold Store.enqueueRunLogCleanup at hother
      dsimp only at hother
      split at hother
      · exact hs.queue other hother
      · rcases List.mem_append.mp hother with hold | hnew
        · exact hs.queue other hold
        · rw [List.mem_singleton.mp hnew]
          exact hgone
    have hnew : s.AddsNew (s.store.enqueueRunLogCleanup runId) := fun run hrun hnone =>
      absurd rfl (Store.findRun_eq_none.mp hnone run hrun)
    exact (hs.withQueue hqueue).goto ⟨gone_withStore hnew hgone, drawn_withStore hrest⟩

/-- So does a call that fails, but for a lookup that would have found the row. -/
theorem failed_clean (hs : s.Clean) (hpoint : s.Safe point) (hmay : s.mayFail point = true)
    (h : s.failed pass point = some t) : t.Clean := by
  cases point with
  | returned => cases h
  | pending | pruning | persisted =>
    cases h
    exact hs.goto trivial
  | removing loop runId rest =>
    cases h
    exact hs.goto hpoint.2
  | recording loop runId isRemoved rest =>
    cases h
    exact hs.goto (safe_next hpoint)
  | listing runId rest =>
    cases h
    have hnone : s.store.findRun runId = none := Option.isNone_iff_eq_none.mp hmay
    exact hs.goto (safe_lookUp hpoint.1 hpoint.2 fun run hrun hid =>
      absurd hid (Store.findRun_eq_none.mp hnone run hrun))
  | looking runId name names rest =>
    cases h
    obtain ⟨hid, hrest, hnames⟩ := hpoint
    have hnone : s.store.getRun name runId = none := Option.isNone_iff_eq_none.mp hmay
    exact hs.goto (safe_lookUp hid hrest (names_of_getRun hs hnone hnames))
  | enqueueing runId rest =>
    cases h
    have hdue : s.Due .onDisk rest := hpoint.2
    exact hs.goto (safe_next hdue)

theorem admitted_runStep (job : Job) (occurrence : ScheduleOccurrence) (now : Instant)
    (runId : JobRunId) : s.store.RunStep (s.admitted job occurrence now runId) :=
  .of_snd fun _ _ ht => Store.admitScheduleOccurrence_runStep ht

theorem clean_step {e : CleanupEvent} (hs : s.Clean) (hfits : s.Fits e)
    (h : cleanupSystem.step s e = some t) : t.Clean := by
  cases e with
  | store op =>
    cases h
    exact hs.withStore (Store.apply_runStep s.store op) hfits
  | admitOccurrence job occurrence now runId =>
    cases h
    exact hs.withStore (admitted_runStep job occurrence now runId) hfits
  | write runId =>
    simp only [cleanupSystem, Option.ite_none_right_eq_some, Option.some.injEq] at h
    obtain ⟨hdrawn, rfl⟩ := h
    exact hs.withDisk (List.cons_subset.mpr ⟨hdrawn, hs.drawnDisk⟩)
  | remove runId =>
    cases h
    exact hs.withDisk fun other hother => hs.drawnDisk (List.mem_of_mem_filter hother)
  | complete runId =>
    cases h
    exact hs.complete runId
  | reconcile =>
    cases h
    exact hs.start trivial
  | retain job now =>
    cases h
    exact hs.start trivial
  | answer pass listed =>
    obtain ⟨point, hpoint, ht⟩ := Option.bind_eq_some_iff.mp h
    exact answered_clean hs (hs.passes point (List.mem_of_getElem? hpoint)) ht
  | fail pass =>
    obtain ⟨point, hpoint, ht⟩ := Option.bind_eq_some_iff.mp h
    have hmay : s.passes[pass]?.all s.mayFail = true := hfits
    rw [hpoint] at hmay
    exact failed_clean hs (hs.passes point (List.mem_of_getElem? hpoint)) hmay ht

theorem Clean.sparesStored (hs : s.Clean) : s.SparesStored := by
  intro e runId h
  have hpass {pass : ℕ} (h : (s.passes[pass]?.bind fun
      | .removing _ runId _ => some runId
      | _ => none) = some runId) : s.store.findRun runId = none := by
    obtain ⟨point, hpoint, hid⟩ := Option.bind_eq_some_iff.mp h
    cases point with
    | removing loop id rest =>
      cases hid
      have hsafe := hs.passes _ (List.mem_of_getElem? hpoint)
      exact hsafe.1.2
    | _ => cases hid
  cases e with
  | answer pass listed => exact hpass h
  | fail pass => exact hpass h
  | _ => cases h

end Steps

/-- In a run where a lookup does not fail on a stored run and no used id is stored again, a log that
is removed has no row. -/
theorem cleanup_spares_stored {s t : CleanupState} (hstart : s.Start)
    (hrun : cleanupSystem.Run Fits s t) : t.SparesStored :=
  (hrun.invariant (fun _ _ _ hs hfits hstep => clean_step hs hfits hstep) hstart.clean).sparesStored

section Backup

def backupJob : Job := { id := ⟨1⟩, name := "backup", trigger := .interval 60 }

/-- A run writes its log, and the log of an earlier one was left behind. -/
def backupRunning : CleanupState where
  store :=
    { jobs := [backupJob]
      runs := [{ runId := ⟨2⟩, jobName := "backup", jobId := ⟨1⟩, triggeredBy := .manual
                 scheduledAt := 0, startedAt := some 0, state := .running }] }
  disk := [⟨1⟩, ⟨2⟩]
  drawn := [⟨1⟩, ⟨2⟩]

theorem backupRunning_start : backupRunning.Start where
  rows := ⟨List.nodup_singleton _, by decide⟩
  queue := by decide
  drawnRows := by decide
  drawnQueue := by decide
  drawnDisk := by decide
  idle := rfl

/-- The log that was left behind is about to be removed. -/
theorem backup_leftover : ∃ t, cleanupSystem.Run Fits backupRunning t ∧
    t.removal (.answer 0 []) = some ⟨1⟩ ∧ t.SparesStored := by
  obtain ⟨t, hrun, hremoval⟩ := Machine.exists_run_of_execUnder (M := cleanupSystem) (C := Fits)
    (s := backupRunning)
    (fun t => t.removal (.answer 0 []) = some ⟨1⟩)
    [.reconcile, .answer 0 [], .answer 0 [⟨1⟩, ⟨2⟩], .answer 0 [], .answer 0 [], .answer 0 []]
    (by decide +kernel)
  exact ⟨t, hrun, of_decide_eq_true hremoval, cleanup_spares_stored backupRunning_start hrun⟩

/-- `list_jobs` fails for the running one: its log is about to be removed, and it is stored. -/
theorem backup_removed : backupRunning.Start ∧
    ∃ t, cleanupSystem.Reaches backupRunning t ∧ ¬ t.SparesStored := by
  obtain ⟨t, hreach, hlive⟩ := Machine.exists_reaches_of_exec (M := cleanupSystem)
    (s := backupRunning)
    (fun t => t.removal (.answer 0 []) = some ⟨2⟩ ∧ (t.store.findRun ⟨2⟩).isSome)
    [.reconcile, .answer 0 [], .answer 0 [⟨2⟩], .fail 0, .answer 0 []] (by decide +kernel)
  refine ⟨backupRunning_start, t, hreach, fun hspares => ?_⟩
  obtain ⟨hremoval, hstored⟩ := of_decide_eq_true hlive
  rw [hspares _ _ hremoval] at hstored
  cases hstored

end Backup

end CleanupState

end Supervisor
