import Supervisor.AsideTables
import Supervisor.TerminalSystem

namespace Supervisor

/-- The states a terminal commit announces. -/
def JobRunState.isAnnounced : JobRunState → Bool
  | .succeeded | .failed | .timedOut | .cancelled => true
  | .pending | .running | .skipped => false

theorem JobRunState.isTerminal_of_isAnnounced {state : JobRunState} (h : state.isAnnounced = true) :
    state.isTerminal = true := by
  cases state <;> simp_all [isAnnounced, isTerminal]

/-- Two copies of a ticket: what enqueueing it again or a later stage changes is
left out. -/
structure CleanupTicket.SameWork (a b : CleanupTicket) : Prop where
  cleanupId : b.cleanupId = a.cleanupId
  runId : b.runId = a.runId
  intended : b.intendedTerminalState = a.intendedTerminalState

theorem CleanupTicket.SameWork.refl (a : CleanupTicket) : a.SameWork a := ⟨rfl, rfl, rfl⟩

namespace Store

/-- The states a step gives to rows: `written` names the runs whose rows it
writes, and every other row keeps its state or goes. -/
structure Writes (s t : Store) (written : JobRunId → Option JobRunState) : Prop where
  wrote : ∀ row ∈ t.runs, ∀ state, written row.runId = some state → row.state = state
  kept : ∀ row ∈ t.runs, written row.runId = none →
    ∃ old ∈ s.runs, old.runId = row.runId ∧ old.state = row.state
  unique : KeyedRows.Unique JobRun.runId s.runs → KeyedRows.Unique JobRun.runId t.runs

/-- One run is written. -/
def single (runId : JobRunId) (state : JobRunState) : JobRunId → Option JobRunState :=
  Function.update (fun _ => none) runId (some state)

@[simp] theorem single_self (runId : JobRunId) (state : JobRunState) :
    single runId state runId = some state := by simp [single]

theorem single_eq_some {runId runId' : JobRunId} {state state' : JobRunState} :
    single runId state runId' = some state' ↔ runId' = runId ∧ state' = state := by
  unfold single
  by_cases h : runId' = runId
  · subst h
    simp [eq_comm]
  · simp [h]

theorem single_eq_none {runId runId' : JobRunId} {state : JobRunState} :
    single runId state runId' = none ↔ runId' ≠ runId := by
  unfold single
  by_cases h : runId' = runId
  · subst h
    simp
  · simp [h]

section Writes

variable {s t u : Store} {run : JobRun}

theorem Writes.of_runs (h : t.runs = s.runs) : s.Writes t fun _ => none where
  wrote row _ state hstate := by cases hstate
  kept row hrow _ := ⟨row, h ▸ hrow, rfl, rfl⟩
  unique hu := h ▸ hu

theorem Writes.refl (s : Store) : s.Writes s fun _ => none := .of_runs rfl

theorem Writes.of_filter {p : JobRun → Bool} (h : t.runs = s.runs.filter p) :
    s.Writes t fun _ => none where
  wrote row _ state hstate := by cases hstate
  kept row hrow _ := by
    rw [h] at hrow
    exact ⟨row, (List.mem_filter.mp hrow).1, rfl, rfl⟩
  unique hu := h ▸ hu.filter p

theorem Writes.append (run : JobRun) (hnew : s.findRun run.runId = none) (h : t.runs = s.runs ++ [run]) :
    s.Writes t (single run.runId run.state) where
  wrote row hrow state hstate := by
    obtain ⟨hid, rfl⟩ := single_eq_some.mp hstate
    rw [h] at hrow
    rcases List.mem_append.mp hrow with hrow | hrow
    · exact absurd hid (KeyedRows.find_eq_none.mp hnew row hrow)
    · rw [List.mem_singleton.mp hrow]
  kept row hrow hnone := by
    rw [h] at hrow
    rcases List.mem_append.mp hrow with hrow | hrow
    · exact ⟨row, hrow, rfl, rfl⟩
    · rw [List.mem_singleton.mp hrow] at hnone
      exact absurd rfl (single_eq_none.mp hnone)
  unique hu := by
    rw [h]
    exact hu.append (KeyedRows.find_eq_none.mp hnew)

/-- Rewriting the row of a run. -/
theorem Writes.update {runId : JobRunId} {state : JobRunState} {f : JobRun → JobRun}
    (h : t.runs = KeyedRows.update JobRun.runId runId f s.runs)
    (hid : ∀ row, (f row).runId = row.runId) (hstate : ∀ row, (f row).state = state) :
    s.Writes t (single runId state) where
  wrote row hrow state' hwritten := by
    obtain ⟨hrun, rfl⟩ := single_eq_some.mp hwritten
    rw [h, KeyedRows.mem_update_iff] at hrow
    rcases hrow with ⟨old, -, -, rfl⟩ | ⟨-, hother⟩
    · exact hstate old
    · exact absurd hrun hother
  kept row hrow hnone := by
    rw [h, KeyedRows.mem_update_iff] at hrow
    rcases hrow with ⟨old, -, hold, rfl⟩ | ⟨hrow, -⟩
    · exact absurd ((hid old).trans hold) (single_eq_none.mp hnone)
    · exact ⟨row, hrow, rfl, rfl⟩
  unique hu := by
    rw [h]
    exact hu.update fun row hrow => (hid row).trans hrow

theorem saveRun_writes (h : s.saveRun run = .ok t) :
    s.Writes t (single run.runId run.state) := by
  obtain ⟨-, -, -, ⟨old, -, -, -, hruns⟩ | ⟨hnew, hruns⟩⟩ := saveRun_ok h
  · exact .update hruns (fun _ => rfl) fun _ => rfl
  · exact .append _ hnew hruns

theorem CommitsTerminal.writes {old : JobRun} (h : CommitsTerminal s t run old) :
    s.Writes t (single run.runId run.state) :=
  .update h.runs (fun _ => rfl) fun _ => rfl

theorem admission_writes {job : Job} {occurrence : ScheduleOccurrence} {now : Instant}
    {runId : JobRunId} {answer : ScheduleAdmission}
    (h : AdmissionStep s job occurrence now runId answer t) :
    (∃ durable, answer = .start durable ∧ s.Writes t (single runId .pending)) ∨
      (∀ durable, answer ≠ .start durable) ∧
        (s.Writes t (fun _ => none) ∨ s.Writes t (single runId .skipped)) := by
  cases h with
  | settled | already | queued =>
    exact .inr ⟨fun _ hanswer => (by cases hanswer), .inl (.of_runs rfl)⟩
  | skipped _ _ _ _ hinsert =>
    obtain ⟨hnew, -, -, rfl⟩ := insertRun_ok hinsert
    refine .inr ⟨fun _ hanswer => (by cases hanswer), .inr ?_⟩
    exact Writes.append (occurrenceRun job occurrence runId .skipped (some now)) hnew rfl
  | started _ _ _ hinsert =>
    obtain ⟨hnew, -, -, rfl⟩ := insertRun_ok hinsert
    refine .inl ⟨_, rfl, ?_⟩
    exact Writes.append (occurrenceRun job occurrence runId .pending none) hnew rfl

theorem claimDependencyRun_writes {jobName : String} {signature : List JobRunId}
    (h : s.claimDependencyRun jobName signature run = .ok (true, t)) :
    s.Writes t (single run.runId run.state) ∧ t.cleanups = s.cleanups ∧ t.outbox = s.outbox := by
  unfold claimDependencyRun at h
  split at h
  · cases h
  · dsimp only at h
    cases hinsert : Store.insertRun { s with
      dependencySignatures := s.dependencySignatures.filter (fun row => row.1 ≠ jobName) ++
        [(jobName, signature)] } run with
    | error e =>
      rw [hinsert] at h
      cases h
    | ok u =>
      rw [hinsert] at h
      cases h
      obtain ⟨hnew, -, -, rfl⟩ := insertRun_ok hinsert
      exact ⟨.append _ hnew rfl, rfl, rfl⟩

/-- A terminal commit writes its event unless one of that cleanup id waits already. -/
theorem terminalCommit_writes {event : TransientTerminalEvent}
    (h : (s.updateTerminalRun run).bind (·.insertOutbox event) = .ok t) :
    (∃ old ∈ s.runs, old.runId = run.runId) ∧ s.Writes t (single run.runId run.state) ∧
      t.cleanups = s.cleanups ∧ ((∃ row ∈ s.outbox, row.cleanupId = event.cleanupId) ∧ t.outbox = s.outbox ∨
        (∀ row ∈ s.outbox, row.cleanupId ≠ event.cleanupId) ∧ t.outbox = s.outbox ++ [event]) := by
  obtain ⟨old, hcommits⟩ := updateTerminalRun_insertOutbox_ok h
  obtain ⟨u, -, haside, hinsert⟩ := terminalCommit_spec h
  refine ⟨⟨old, KeyedRows.find_mem hcommits.found, KeyedRows.find_key hcommits.found⟩,
    hcommits.writes, ?_⟩
  rcases insertOutbox_spec hinsert with ⟨rfl, hpresent⟩ | ⟨rfl, hnew, -⟩
  · rw [haside.outbox] at hpresent
    exact ⟨haside.cleanups, .inl ⟨hpresent, haside.outbox⟩⟩
  · rw [haside.outbox] at hnew
    refine ⟨haside.cleanups, .inr ⟨hnew, ?_⟩⟩
    show u.outbox ++ [event] = _
    rw [haside.outbox]

/-- What the cancellation of one queued run writes. -/
theorem cancelPendingRun_ok {jobName : String} {event : TransientTerminalEvent}
    (h : s.cancelPendingRun jobName event = .ok t) :
    (∃ row, s.findRun event.runId = some row ∧ row.state = .pending) ∧
      event.state = .cancelled ∧ s.Writes t (single event.runId .cancelled) ∧
        t.cleanups = s.cleanups ∧
          ((∀ row ∈ s.outbox, row.cleanupId ≠ event.cleanupId) →
            t.outbox = s.outbox ++ [event]) := by
  unfold cancelPendingRun at h
  split at h
  · cases h
  · rename_i hvalid
    simp only [ne_eq, decide_not, Bool.or_eq_true, Bool.not_eq_eq_eq_not, Bool.not_true,
      decide_eq_false_iff_not, not_or, not_not] at hvalid
    split at h
    · cases h
    · rename_i row hrow
      obtain ⟨hfind, hpending⟩ := Option.filter_eq_some_iff.mp hrow
      simp only [Bool.and_eq_true, decide_eq_true_eq] at hpending
      have hwrites : s.Writes (s.setRun event.runId fun row => { row with
          state := .cancelled
          endedAt := some event.occurredAt
          exitCode := event.exitCode }) (single event.runId .cancelled) :=
        .update (t := s.setRun event.runId _) rfl (fun _ => rfl) fun _ => rfl
      refine ⟨⟨row, hfind, hpending.2⟩, hvalid.2, ?_⟩
      -- the inserted event leaves the rows as the update made them
      rcases insertOutbox_spec h with ⟨rfl, hpresent⟩ | ⟨rfl, -, -⟩
      · refine ⟨hwrites, rfl, fun hfresh => ?_⟩
        obtain ⟨present, hmem, hid⟩ := hpresent
        exact absurd hid (hfresh present hmem)
      · exact ⟨⟨hwrites.wrote, hwrites.kept, hwrites.unique⟩, rfl, fun _ => rfl⟩

theorem Writes.trans {v w : JobRunId → Option JobRunState} (hv : s.Writes t v)
    (hw : t.Writes u w) : s.Writes u fun runId => (w runId).or (v runId) where
  wrote row hrow state hstate := by
    cases hwr : w row.runId with
    | some state' =>
      rw [hwr, Option.some_or, Option.some.injEq] at hstate
      rw [← hstate]
      exact hw.wrote row hrow state' hwr
    | none =>
      rw [hwr, Option.none_or] at hstate
      obtain ⟨old, hold, hid, hkept⟩ := hw.kept row hrow hwr
      rw [← hkept]
      exact hv.wrote old hold state (hid ▸ hstate)
  kept row hrow hnone := by
    rw [Option.or_eq_none_iff] at hnone
    obtain ⟨mid, hmid, hid, hstate⟩ := hw.kept row hrow hnone.1
    obtain ⟨old, hold, hid', hstate'⟩ := hv.kept mid hmid (hid ▸ hnone.2)
    exact ⟨old, hold, hid'.trans hid, hstate'.trans hstate⟩
  unique hu := hw.unique (hv.unique hu)

/-- The rows that the cancellation of a deletion writes. -/
def cancelledRuns (events : List TransientTerminalEvent) : JobRunId → Option JobRunState :=
  fun runId => if runId ∈ events.map (·.runId) then some .cancelled else none

theorem cancelPendingRuns_ok {jobName : String} {events : List TransientTerminalEvent}
    (h : s.cancelPendingRuns jobName events = .ok t) (hruns : (events.map (·.runId)).Nodup)
    (hids : (events.map (·.cleanupId)).Nodup)
    (hfresh : ∀ event ∈ events, ∀ row ∈ s.outbox, row.cleanupId ≠ event.cleanupId) :
    (∀ event ∈ events, event.state = .cancelled ∧
        ∃ row ∈ s.runs, row.runId = event.runId ∧ row.state = .pending) ∧
      s.Writes t (cancelledRuns events) ∧ t.cleanups = s.cleanups ∧
        t.outbox = s.outbox ++ events := by
  induction events generalizing s with
  | nil =>
    cases h
    refine ⟨fun event hevent => (by cases hevent), ?_, rfl, (List.append_nil _).symm⟩
    exact .of_runs rfl
  | cons event events ih =>
    rw [cancelPendingRuns, List.foldlM_cons] at h
    cases hfirst : s.cancelPendingRun jobName event with
    | error e =>
      rw [hfirst] at h
      cases h
    | ok u =>
      rw [hfirst] at h
      obtain ⟨⟨row, hrow, hpending⟩, hstate, hwrites, hcleanups, houtbox⟩ :=
        cancelPendingRun_ok hfirst
      have hu : u.outbox = s.outbox ++ [event] := houtbox (hfresh event List.mem_cons_self)
      rw [List.map_cons, List.nodup_cons] at hruns hids
      have hfreshRest : ∀ e ∈ events, ∀ row ∈ u.outbox, row.cleanupId ≠ e.cleanupId := by
        intro e he row hrow
        rw [hu] at hrow
        rcases List.mem_append.mp hrow with hrow | hrow
        · exact hfresh e (List.mem_cons_of_mem _ he) row hrow
        · rw [List.mem_singleton.mp hrow]
          intro hsame
          exact hids.1 (hsame ▸ List.mem_map_of_mem he)
      obtain ⟨hpendings, hrest, hcleanupsRest, houtboxRest⟩ := ih h hruns.2 hids.2 hfreshRest
      refine ⟨?_, ?_, hcleanupsRest.trans hcleanups, by rw [houtboxRest, hu]; simp⟩
      · intro e he
        rcases List.mem_cons.mp he with rfl | he
        · exact ⟨hstate, row, KeyedRows.find_mem hrow, KeyedRows.find_key hrow, hpending⟩
        · obtain ⟨hcancelled, mid, hmid, hid, hmidState⟩ := hpendings e he
          -- the first cancellation wrote another run
          have hother : single event.runId .cancelled mid.runId = none := by
            rw [single_eq_none, hid]
            intro hsame
            exact hruns.1 (hsame ▸ List.mem_map_of_mem he)
          obtain ⟨old, hold, hidOld, hstateOld⟩ := hwrites.kept mid hmid hother
          exact ⟨hcancelled, old, hold, hidOld.trans hid, hstateOld.trans hmidState⟩
      · have hboth := hwrites.trans hrest
        have hsame : (fun runId => (cancelledRuns events runId).or
            (single event.runId .cancelled runId)) = cancelledRuns (event :: events) := by
          funext runId
          unfold cancelledRuns
          rw [List.map_cons]
          by_cases hmem : runId ∈ events.map (·.runId)
          · rw [if_pos hmem, if_pos (List.mem_cons_of_mem _ hmem), Option.some_or]
          · rw [if_neg hmem, Option.none_or]
            by_cases heq : runId = event.runId
            · rw [heq, single_self, if_pos List.mem_cons_self]
            · rw [single_eq_none.mpr heq, if_neg]
              rw [List.mem_cons, not_or]
              exact ⟨heq, hmem⟩
        rwa [hsame] at hboth

end Writes

end Store

end Supervisor
