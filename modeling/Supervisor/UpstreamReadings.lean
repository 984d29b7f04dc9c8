import Supervisor.DependencyStep

namespace Supervisor

/-- Whenever the loop reads an upstream job, the row it is about to read is settled. -/
def readingGuard (s : DependencyState) : DependencyEvent → Bool
  | .read =>
    match s.evaluation with
    | some ⟨_, _, .reading _ (name :: _) _⟩ => decide (
        ∀ row ∈ s.schedule.store.latestRun name, s.schedule.store.ReadSettled name row)
    | _ => true
  | _ => true

/-- The runs an evaluation has in hand. -/
def EvaluationPoint.latest : EvaluationPoint → List JobRun
  | .reading _ _ latest | .claimed _ latest _ => latest
  | .nextJob | .skipping _ _ => []

namespace DependencyState

variable {s t : DependencyState}

/-- Every upstream reading is lawful, and a claim rests on such readings only. -/
structure ReadingsLawful (s : DependencyState) : Prop where
  readings : ∀ reading ∈ s.readings, reading.store.ReadLawful reading.name reading.row
  claims : ∀ claim ∈ s.claims, ∀ row ∈ claim.latest, ∃ reading ∈ s.readings, reading.row = row

/-- The runs in hand were read. -/
structure ReadingsKept (s : DependencyState) : Prop extends ReadingsLawful s where
  inHand : ∀ evaluation ∈ s.evaluation, ∀ row ∈ evaluation.point.latest,
    ∃ reading ∈ s.readings, reading.row = row

theorem ReadingsKept.of_eq (h : s.ReadingsKept) (hreadings : t.readings = s.readings)
    (hclaims : t.claims = s.claims)
    (hpoint : ∀ evaluation ∈ t.evaluation, evaluation.point.latest = [] ∨
      ∃ old ∈ s.evaluation, old.point.latest = evaluation.point.latest) : t.ReadingsKept where
  readings := hreadings ▸ h.readings
  claims := hclaims ▸ hreadings ▸ h.claims
  inHand evaluation hevaluation row hrow := by
    rw [hreadings]
    rcases hpoint evaluation hevaluation with hnone | ⟨old, hold, heq⟩
    · rw [hnone] at hrow
      cases hrow
    · exact h.inHand old hold row (heq ▸ hrow)

theorem ReadingsKept.of_evaluation_eq (h : s.ReadingsKept) (hreadings : t.readings = s.readings)
    (hclaims : t.claims = s.claims) (hpoint : t.evaluation = s.evaluation) : t.ReadingsKept :=
  h.of_eq hreadings hclaims fun evaluation hevaluation => .inr ⟨evaluation, hpoint ▸ hevaluation, rfl⟩

theorem ReadingsKept.of_emptied (h : s.ReadingsKept) (hreadings : t.readings = s.readings)
    (hclaims : t.claims = s.claims)
    (hpoint : ∀ evaluation ∈ t.evaluation, evaluation.point.latest = []) : t.ReadingsKept :=
  h.of_eq hreadings hclaims fun evaluation hevaluation => .inl (hpoint evaluation hevaluation)

theorem ReadingsKept.upstreamRead (hs : s.schedule.Sound) (hf : s.schedule.FinalKept)
    (h : s.ReadingsKept) {c : Completion} {jobs : List Job} {job : Job} {name : String}
    {names : List String} {latest : List JobRun} {row : JobRun}
    (hpoint : s.evaluation = some ⟨c, jobs, .reading job (name :: names) latest⟩)
    (hrow : s.schedule.store.latestRun name = some row) (hguard : readingGuard s .read = true) :
    ReadingsKept ((s.addReading ⟨s.schedule.store, name, row⟩).setPoint ⟨c, jobs, .nextJob⟩
      (.reading job names (latest ++ [row]))) := by
  have hsettled : s.schedule.store.ReadSettled name row := by
    rw [readingGuard, hpoint] at hguard
    exact of_decide_eq_true hguard row hrow
  have hmono (row' : JobRun) (hread : ∃ reading ∈ s.readings, reading.row = row') :
      ∃ reading ∈ s.readings ++ [⟨s.schedule.store, name, row⟩], reading.row = row' := by
    obtain ⟨reading, hmem, heq⟩ := hread
    exact ⟨reading, List.mem_append_left _ hmem, heq⟩
  constructor
  · constructor
    · intro reading hreading
      rcases List.mem_append.mp hreading with hold | hnew
      · exact h.readings reading hold
      · rw [List.mem_singleton.mp hnew]
        exact hf.readLawful hs hrow hsettled
    · intro claim hclaim row' hrow'
      exact hmono row' (h.claims claim hclaim row' hrow')
  · intro evaluation hevaluation row' hrow'
    cases hevaluation
    rcases List.mem_append.mp hrow' with hold | hnew
    · exact hmono row' (h.inHand _ hpoint row' hold)
    · -- the run just read
      rw [List.mem_singleton.mp hnew]
      exact ⟨_, List.mem_append_right _ (List.mem_singleton_self _), rfl⟩

/-- A claim rests on the runs in hand. -/
theorem ReadingsKept.claimed (h : s.ReadingsKept) {c : Completion} {jobs : List Job} {job : Job}
    {latest : List JobRun} {runId : JobRunId} {store : Store}
    (hpoint : s.evaluation = some ⟨c, jobs, .reading job [] latest⟩) :
    ReadingsKept ((s.addClaim store ⟨job, latest, runId⟩).setPoint ⟨c, jobs, .nextJob⟩
      (.claimed job latest runId)) := by
  constructor
  · constructor
    · exact h.readings
    · intro claim hclaim
      rcases List.mem_append.mp hclaim with hold | hnew
      · exact h.claims claim hold
      · rw [List.mem_singleton.mp hnew]
        exact h.inHand _ hpoint
  · intro evaluation hevaluation row hrow
    cases hevaluation
    exact h.inHand _ hpoint row hrow

theorem ReadingsKept.moved (hs : s.schedule.Sound) (hf : s.schedule.FinalKept) (h : s.ReadingsKept)
    {e : DependencyEvent} (hguard : readingGuard s e = true) (hmoved : s.Moved e t) :
    t.ReadingsKept := by
  cases hmoved with
  | upstreamRead hpoint hrow => exact h.upstreamRead hs hf hpoint hrow hguard
  | claimed hpoint _ _ => exact h.claimed hpoint
  | scheduled | subscribed | lagging | reconcilePassed | reconcileUnanswered | lagUnanswered
  | messageUnanswered | queuedStarted | queuedDropped => exact h.of_evaluation_eq rfl rfl rfl
  | @sent c hc =>
    unfold publish
    split
    · exact h.of_evaluation_eq rfl rfl rfl
    · split
      · exact h.of_evaluation_eq rfl rfl rfl
      · exact h.of_evaluation_eq rfl rfl rfl
  | crashed | evaluated =>
    refine h.of_emptied rfl rfl fun evaluation hevaluation => ?_
    cases hevaluation
  | received | reconciled | jobTaken | jobPassed | upstreamMissing | notClaimed | dispatchRefused
  | dispatchFailed | dispatchQueued | dispatchStarted | dispatchSkipped | skipRecorded
  | readUnanswered | dispatchUnanswered =>
    refine h.of_emptied rfl rfl fun evaluation hevaluation => ?_
    cases hevaluation
    rfl

/-- In every run whose readings find settled rows, each evaluation sees the
final outcome of the latest occurrence that ran, and no other row. -/
theorem readingsLawful (h : dependencySystem.Run (fun s e => readingGuard s e = true) {} t) :
    t.ReadingsLawful := by
  have hinit : (ScheduleState.Sound {} ∧ ScheduleState.FinalKept {}) ∧ ReadingsKept {} := by
    refine ⟨⟨ScheduleState.sound_init, ScheduleState.finalKept_init⟩, ⟨?_, ?_⟩, ?_⟩
    · intro reading hreading
      cases hreading
    · intro claim hclaim
      cases hclaim
    · intro evaluation hevaluation
      cases hevaluation
  have hinv := h.invariant
    (I := fun s => (s.schedule.Sound ∧ s.schedule.FinalKept) ∧ s.ReadingsKept)
    (fun s e t hs hguard hstep => ?_) hinit
  · exact hinv.2.toReadingsLawful
  · obtain ⟨⟨hsound, hfinal⟩, hkept⟩ := hs
    obtain ⟨u, hmoved, rfl⟩ := moved hstep
    have hschedule := hmoved.schedule_kept (fun a e b ha hI hab => hI.step ha hab) hsound hfinal
    have hreadings := hkept.moved hsound hfinal hguard hmoved
    exact ⟨hschedule, hreadings.of_evaluation_eq rfl rfl rfl⟩

/-- A job that runs after `hourly`. -/
def report : Job := { id := ⟨2⟩, name := "report", trigger := .dependsOn ["hourly"] }

def hourlyEnd (state : JobRunState) (runId : JobRunId) : TransientTerminalEvent :=
  { cleanupId := runId.val + 100, eventId := runId.val + 200, occurredAt := 1, jobName := "hourly"
    runId, state, exitCode := none }

/-- One run of an admitted occurrence, from its start to its finalisation. -/
def hourlyRun (runId : JobRunId) (state : JobRunState) : List DependencyEvent :=
  [.schedule (.saveRunning runId),
    .schedule (.endRun runId state { startedAt := 0, endedAt := 1, exitCode := none }),
    .schedule (.commitTerminal runId (hourlyEnd state runId)), .schedule (.finalizeAttempt runId 1)]

/-- The loop takes up the end of a run and evaluates `report`. -/
def reportEvaluation (runId : JobRunId) : List DependencyEvent :=
  [.send ⟨"hourly", runId⟩, .receive, .nextJob, .nextJob, .read, .claim ⟨50⟩ 2]

def reportAfter (job : Job) : List DependencyEvent :=
  [.schedule (.recover 0), .subscribe, .schedule (.saveJob job), .schedule (.saveJob report),
    .schedule (.claim job (hourlyAt 0) 0), .schedule (.startPass 0),
    .schedule (.admitNext 0 ⟨10⟩)]

def reportAfterSuccess : List DependencyEvent :=
  reportAfter hourly ++ hourlyRun ⟨10⟩ .succeeded ++ reportEvaluation ⟨10⟩

theorem reportAfterSuccess_lawful : ∃ t,
    dependencySystem.Run (fun s e => readingGuard s e = true) {} t ∧
      t.claims.map (fun claim => allSucceeded claim.latest) = [true] ∧ t.ReadingsLawful := by
  have hexec : (dependencySystem.execUnder (fun s e => readingGuard s e = true) {}
      reportAfterSuccess).any (fun t =>
        t.claims.map (fun claim => allSucceeded claim.latest) = [true]) = true := by decide
  obtain ⟨t, hrun, hclaims⟩ := Machine.exists_run_of_execUnder _ reportAfterSuccess hexec
  exact ⟨t, hrun, of_decide_eq_true hclaims, readingsLawful hrun⟩

def hourlyRetried : Job := { hourly with retryPolicy := { maxAttempts := 2 } }

/-- The first attempt fails and the second succeeds. -/
def reportAfterRetry : List DependencyEvent :=
  reportAfter hourlyRetried ++ hourlyRun ⟨10⟩ .failed ++
    [.schedule (.startPass (2 * nanosPerSec)), .schedule (.admitNext 1 ⟨11⟩)] ++
      hourlyRun ⟨11⟩ .succeeded ++ reportEvaluation ⟨11⟩

theorem retried_success_unseen : ¬∀ t, dependencySystem.Reaches {} t → t.ReadingsLawful := by
  intro h
  have hexec : (dependencySystem.exec {} reportAfterRetry).any (fun t =>
      t.readings.any fun reading => reading.row.state = .failed &&
        (reading.store.lastRan reading.name).any fun last =>
          reading.store.outcome last = some .succeeded) = true := by decide
  obtain ⟨t, hrun, ht⟩ := Machine.exists_reaches_of_exec _ reportAfterRetry hexec
  obtain ⟨reading, hreading, hboth⟩ := List.any_eq_true.mp ht
  obtain ⟨hfailed, hlast⟩ := Bool.and_eq_true_iff.mp hboth
  obtain ⟨last, hmem, houtcome⟩ := List.any_eq_true.mp hlast
  -- the reading takes the first attempt's row for the newest run
  have hsucceeded := ((h t hrun).readings reading hreading).succeeded last hmem
  have hstate := hsucceeded.mpr (of_decide_eq_true houtcome)
  rw [of_decide_eq_true hfailed] at hstate
  cases hstate

end DependencyState

end Supervisor
