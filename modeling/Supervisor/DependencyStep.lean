import Supervisor.DependencySystem

namespace Supervisor

namespace Store

variable {s t : Store} {run : JobRun}

/-- A new claim replaces the signature of its job and stores its run. -/
theorem claimDependencyRun_ok {name : String} {signature : List JobRunId}
    (h : s.claimDependencyRun name signature run = .ok (true, t)) :
    (name, signature) ∉ s.dependencySignatures ∧ s.findRun run.runId = none ∧
      s.hasJob run.jobName run.jobId = true ∧ t = { s with
        dependencySignatures :=
          s.dependencySignatures.filter (fun row => row.1 ≠ name) ++ [(name, signature)]
        runs := s.runs ++ [run] } := by
  unfold claimDependencyRun at h
  split at h
  · cases h
  · rename_i hnew
    dsimp only at h
    cases hinsert : insertRun { s with
        dependencySignatures :=
          s.dependencySignatures.filter (fun row => row.1 ≠ name) ++ [(name, signature)] } run with
    | error e =>
      rw [hinsert] at h
      cases h
    | ok u =>
      rw [hinsert] at h
      cases h
      obtain ⟨hfresh, hjob, -, rfl⟩ := insertRun_ok hinsert
      refine ⟨fun hmem => hnew ?_, hfresh, hjob, rfl⟩
      exact List.any_eq_true.mpr ⟨(name, signature), hmem, by simp⟩

end Store

namespace DependencyState

/-- The row of a claimed dependency run. -/
def claimedRun (c : Completion) (job : Job) (runId : JobRunId) (now : Instant) : JobRun :=
  pendingRun job (.dependency c.runId) runId now

/-- What an event does, one constructor for each outcome it can have. -/
inductive Moved (s : DependencyState) : DependencyEvent → DependencyState → Prop
  | scheduled {e schedule} (hpermits : s.permits e = true)
    (h : s.schedule.step e = some schedule) : Moved s (.schedule e)
      { s with schedule, unsent := s.unsent ++ s.schedule.completions e }
  | sent {c} (hc : c ∈ s.unsent) : Moved s (.send c)
      ({ s with unsent := s.unsent.erase c }.publish c)
  | subscribed (hbooted : s.schedule.booting = false) (hnew : s.subscribed = false) :
    Moved s .subscribe { s with subscribed := true }
  | received {c rest} (hlistens : s.listens = true) (hchannel : s.channel = c :: rest) :
    Moved s .receive ({ s with channel := rest }.evaluate c)
  | lagging {names} (hlistens : s.listens = true)
    (hnames : ∀ name ∈ s.schedule.store.upstreamNames, name ∈ names) :
    Moved s (.lag names) { s with lagged := false, reconciling := names }
  | reconciled {name rest row} (hidle : s.evaluation = none) (hnames : s.reconciling = name :: rest)
    (hrow : s.schedule.store.latestRun name = some row) (hended : row.state.isTerminal = true) :
    Moved s .reconcileNext ({ s with reconciling := rest }.evaluate ⟨name, row.runId⟩)
  | reconcilePassed {name rest} (hidle : s.evaluation = none) (hnames : s.reconciling = name :: rest)
    (hopen : ∀ row, s.schedule.store.latestRun name = some row → row.state.isTerminal = false) :
    Moved s .reconcileNext { s with reconciling := rest }
  | evaluated {c} (h : s.evaluation = some ⟨c, [], .nextJob⟩) :
    Moved s .nextJob { s with evaluation := none }
  | jobTaken {c job jobs names} (h : s.evaluation = some ⟨c, job :: jobs, .nextJob⟩)
    (htrigger : job.trigger = .dependsOn names) (hc : c.jobName ∈ names) :
    Moved s .nextJob (s.setPoint ⟨c, jobs, .nextJob⟩ (.reading job names []))
  | jobPassed {c job jobs} (h : s.evaluation = some ⟨c, job :: jobs, .nextJob⟩)
    (hother : ∀ names, job.trigger = .dependsOn names → c.jobName ∉ names) :
    Moved s .nextJob (s.setPoint ⟨c, jobs, .nextJob⟩ .nextJob)
  | upstreamRead {c jobs job name names latest row}
    (h : s.evaluation = some ⟨c, jobs, .reading job (name :: names) latest⟩)
    (hrow : s.schedule.store.latestRun name = some row) :
    Moved s .read ((s.addReading ⟨s.schedule.store, name, row⟩).setPoint ⟨c, jobs, .nextJob⟩
      (.reading job names (latest ++ [row])))
  | upstreamMissing {c jobs job name names latest}
    (h : s.evaluation = some ⟨c, jobs, .reading job (name :: names) latest⟩)
    (hnone : s.schedule.store.latestRun name = none) :
    Moved s .read (s.setPoint ⟨c, jobs, .nextJob⟩ .nextJob)
  | notClaimed {c jobs job latest runId now}
    (h : s.evaluation = some ⟨c, jobs, .reading job [] latest⟩) (hfresh : runId ∉ s.schedule.drawn)
    (hanswer : ∀ store, s.schedule.store.claimDependencyRun job.name (latest.map (·.runId))
      (claimedRun c job runId now) ≠ .ok (true, store)) :
    Moved s (.claim runId now) (s.setPoint ⟨c, jobs, .nextJob⟩ .nextJob)
  | claimed {c jobs job latest runId now store}
    (h : s.evaluation = some ⟨c, jobs, .reading job [] latest⟩) (hfresh : runId ∉ s.schedule.drawn)
    (hok : s.schedule.store.claimDependencyRun job.name (latest.map (·.runId))
      (claimedRun c job runId now) = .ok (true, store)) :
    Moved s (.claim runId now) ((s.addClaim store ⟨job, latest, runId⟩).setPoint
      ⟨c, jobs, .nextJob⟩ (.claimed job latest runId))
  | dispatchRefused {c jobs job latest runId now answer}
    (h : s.evaluation = some ⟨c, jobs, .claimed job latest runId⟩)
    (hdispatch : dispatchesOn job latest = true) :
    Moved s (.dispatch now answer) ((s.addDispatch ⟨job, latest, runId⟩).setPoint
      ⟨c, jobs, .nextJob⟩ (.skipping job runId))
  | dispatchFailed {c jobs job latest runId now answer}
    (h : s.evaluation = some ⟨c, jobs, .claimed job latest runId⟩)
    (hdispatch : dispatchesOn job latest = true)
    (hsave : (s.schedule.store.saveRun (claimedRun c job runId now)).toOption = none) :
    Moved s (.dispatch now answer) ((s.addDispatch ⟨job, latest, runId⟩).setPoint
      ⟨c, jobs, .nextJob⟩ .nextJob)
  | dispatchQueued {c jobs job latest runId now answer schedule}
    (h : s.evaluation = some ⟨c, jobs, .claimed job latest runId⟩)
    (hdispatch : dispatchesOn job latest = true)
    (hsave : s.schedule.step (.saveOther (claimedRun c job runId now)) = some schedule) :
    Moved s (.dispatch now answer) ({ s.addDispatch ⟨job, latest, runId⟩ with
      schedule, queued := s.queued ++ [runId] }.setPoint ⟨c, jobs, .nextJob⟩ .nextJob)
  | dispatchStarted {c jobs job latest runId now answer schedule}
    (h : s.evaluation = some ⟨c, jobs, .claimed job latest runId⟩)
    (hdispatch : dispatchesOn job latest = true)
    (hsave : s.schedule.step (.saveOther (claimedRun c job runId now)) = some schedule) :
    Moved s (.dispatch now answer) ({ s.addDispatch ⟨job, latest, runId⟩ with
      schedule, started := s.started ++ [runId] }.setPoint ⟨c, jobs, .nextJob⟩ .nextJob)
  | dispatchSkipped {c jobs job latest runId now answer schedule}
    (h : s.evaluation = some ⟨c, jobs, .claimed job latest runId⟩)
    (hdispatch : dispatchesOn job latest = true)
    (hsave : s.schedule.step (.saveOther (claimedRun c job runId now)) = some schedule) :
    Moved s (.dispatch now answer) ({ s.addDispatch ⟨job, latest, runId⟩ with
      schedule }.setPoint ⟨c, jobs, .nextJob⟩ (.skipping job runId))
  | skipRecorded {c jobs job runId now schedule} {point : EvaluationPoint}
    (h : s.evaluation = some ⟨c, jobs, point⟩)
    (hpoint : point = .skipping job runId ∨
      ∃ latest, point = .claimed job latest runId ∧ dispatchesOn job latest = false)
    (hsave : s.schedule.step (.saveOther (s.skippedRun job (.dependency c.runId) runId now)) =
      some schedule) :
    Moved s (.recordSkipped now) ({ s with schedule, recorded := s.recorded ++ [runId] }.setPoint
      ⟨c, jobs, .nextJob⟩ .nextJob)
  | readUnanswered {c jobs job names latest}
    (h : s.evaluation = some ⟨c, jobs, .reading job names latest⟩) :
    Moved s .unanswered (s.setPoint ⟨c, jobs, .nextJob⟩ .nextJob)
  | dispatchUnanswered {c jobs job latest runId}
    (h : s.evaluation = some ⟨c, jobs, .claimed job latest runId⟩)
    (hdispatch : dispatchesOn job latest = true) :
    Moved s .unanswered ((s.addDispatch ⟨job, latest, runId⟩).setPoint ⟨c, jobs, .nextJob⟩ .nextJob)
  | reconcileUnanswered {name rest} (hidle : s.evaluation = none)
    (hnames : s.reconciling = name :: rest) : Moved s .unanswered { s with reconciling := rest }
  | lagUnanswered (hidle : s.evaluation = none) (hnames : s.reconciling = [])
    (hlag : s.lagged = true) : Moved s .unanswered { s with lagged := false }
  | messageUnanswered {c rest} (hidle : s.evaluation = none) (hnames : s.reconciling = [])
    (hchannel : s.channel = c :: rest) : Moved s .unanswered { s with channel := rest }
  | queuedStarted {runId} (hmem : runId ∈ s.queued) : Moved s (.startQueued runId)
      { s with queued := s.queued.erase runId, started := s.started ++ [runId] }
  | queuedDropped {runId} (hmem : runId ∈ s.queued) : Moved s (.dropQueued runId)
      { s with queued := s.queued.erase runId, recorded := s.recorded ++ [runId] }
  | crashed {schedule} (h : s.schedule.step .crash = some schedule) : Moved s .crash
      { s with
        schedule
        unsent := []
        channel := []
        lagged := false
        subscribed := false
        evaluation := none
        reconciling := []
        queued := [] }

variable {s t : DependencyState}

theorem recordSkipped_moved {c : Completion} {jobs : List Job} {job : Job} {runId : JobRunId}
    {now : Instant} {point : EvaluationPoint} (h : s.evaluation = some ⟨c, jobs, point⟩)
    (hpoint : point = .skipping job runId ∨
      ∃ latest, point = .claimed job latest runId ∧ dispatchesOn job latest = false)
    (hrecord : s.recordSkipped ⟨c, jobs, .nextJob⟩ job runId now = some t) :
    s.Moved (.recordSkipped now) t := by
  obtain ⟨schedule, hsave, rfl⟩ := Option.map_eq_some_iff.mp hrecord
  exact .skipRecorded h hpoint hsave

theorem dispatch_moved {c : Completion} {jobs : List Job} {job : Job} {latest : List JobRun}
    {runId : JobRunId} {now : Instant} {answer : DispatchAnswer}
    (h : s.evaluation = some ⟨c, jobs, .claimed job latest runId⟩)
    (hdispatch : dispatchesOn job latest = true)
    (ht : s.dispatch ⟨c, jobs, .nextJob⟩ ⟨job, latest, runId⟩ now answer = some t) :
    s.Moved (.dispatch now answer) t := by
  unfold dispatch at ht
  split at ht
  · cases ht
    exact .dispatchRefused h hdispatch
  · obtain ⟨schedule, hsave, rfl⟩ := Option.map_eq_some_iff.mp ht
    split
    · rename_i hfailed
      exact .dispatchFailed h hdispatch (Option.isNone_iff_eq_none.mp hfailed)
    · split
      · exact .dispatchQueued h hdispatch hsave
      · exact .dispatchStarted h hdispatch hsave
      · exact .dispatchSkipped h hdispatch hsave

theorem unanswered_moved (ht : s.unanswered = some t) : s.Moved .unanswered t := by
  unfold unanswered at ht
  split at ht
  · rename_i evaluation h
    obtain ⟨c, jobs, point⟩ := evaluation
    split at ht
    · rename_i hpoint
      cases hpoint
      cases ht
      exact .readUnanswered h
    · rename_i hpoint
      cases hpoint
      split at ht
      · cases ht
        exact .dispatchUnanswered h ‹_›
      · cases ht
    · cases ht
  · rename_i hidle
    split at ht
    · cases ht
      exact .reconcileUnanswered hidle ‹_›
    · rename_i hnames
      split at ht
      · cases ht
      · split at ht
        · cases ht
          exact .lagUnanswered hidle hnames ‹_›
        · split at ht
          · cases ht
          · rename_i hmessage
            cases ht
            cases hchannel : s.channel with
            | nil => simp [hchannel] at hmessage
            | cons c rest =>
              rw [List.tail_cons]
              exact .messageUnanswered hidle hnames hchannel

theorem act_moved {e : DependencyEvent} (h : s.act e = some t) : s.Moved e t := by
  unfold act at h
  split at h
  · split at h
    · obtain ⟨schedule, hstep, rfl⟩ := Option.map_eq_some_iff.mp h
      exact .scheduled ‹_› hstep
    · cases h
  · split at h
    · cases h
      exact .sent ‹_›
    · cases h
  · -- subscribe
    split at h
    · cases h
    · rename_i hready
      cases h
      simp only [Bool.or_eq_true, not_or, Bool.not_eq_true] at hready
      exact .subscribed hready.1 hready.2
  · -- receive
    split at h
    · cases h
    · rename_i hready
      split at h
      · cases h
      · cases h
        exact .received (by simp_all) ‹_›
  · -- lag
    split at h
    · rename_i hready
      cases h
      simp only [Bool.and_eq_true] at hready
      refine .lagging hready.1.1 fun name hname => ?_
      exact (List.isPerm_iff.mp hready.2).mem_iff.mpr hname
    · cases h
  · -- reconcileNext
    split at h
    · cases h
    · rename_i hbusy
      have hidle : s.evaluation = none := Option.not_isSome_iff_eq_none.mp hbusy
      split at h
      · cases h
      · rename_i name rest hnames
        split at h
        · rename_i hnone
          cases h
          refine .reconcilePassed hidle hnames fun row hrow => ?_
          rw [hnone] at hrow
          cases hrow
        · rename_i row hrow
          split at h
          · cases h
            exact .reconciled hidle hnames hrow ‹_›
          · rename_i hopen
            cases h
            refine .reconcilePassed hidle hnames fun row' hrow' => ?_
            rw [hrow, Option.some.injEq] at hrow'
            exact hrow' ▸ Bool.not_eq_true _ ▸ hopen
  · -- nextJob
    split at h
    · cases h
      exact .evaluated ‹_›
    · split at h
      · rename_i htrigger
        split at h
        · cases h
          exact .jobTaken ‹_› htrigger ‹_›
        · rename_i hother
          cases h
          refine .jobPassed ‹_› fun names hnames => ?_
          rw [htrigger, JobTrigger.dependsOn.injEq] at hnames
          exact hnames ▸ hother
      · rename_i hother
        cases h
        exact .jobPassed ‹_› fun names hnames => absurd hnames (hother names)
    · cases h
  · -- read
    split at h
    · split at h
      · cases h
        exact .upstreamMissing ‹_› ‹_›
      · cases h
        exact .upstreamRead ‹_› ‹_›
    · cases h
  · -- claim
    split at h
    · split at h
      · cases h
      · rename_i hfresh
        split at h
        · rename_i herror
          cases h
          refine .notClaimed ‹_› hfresh fun store hok => ?_
          rw [claimedRun, herror] at hok
          cases hok
        · rename_i hrefused
          cases h
          refine .notClaimed ‹_› hfresh fun store hok => ?_
          rw [claimedRun, hrefused] at hok
          cases hok
        · cases h
          exact .claimed ‹_› hfresh ‹_›
    · cases h
  · -- dispatch
    split at h
    · split at h
      · exact dispatch_moved ‹_› ‹_› h
      · cases h
    · cases h
  · -- recordSkipped
    split at h
    · split at h
      · cases h
      · rename_i hskip
        exact recordSkipped_moved ‹_› (.inr ⟨_, rfl, Bool.not_eq_true _ ▸ hskip⟩) h
    · exact recordSkipped_moved ‹_› (.inl rfl) h
    · cases h
  · exact unanswered_moved h
  · split at h
    · cases h
      exact .queuedStarted ‹_›
    · cases h
  · split at h
    · cases h
      exact .queuedDropped ‹_›
    · cases h
  · -- crash
    obtain ⟨schedule, hstep, rfl⟩ := Option.map_eq_some_iff.mp h
    exact .crashed hstep

theorem moved {e : DependencyEvent} (h : dependencySystem.step s e = some t) :
    ∃ u, s.Moved e u ∧ t = s.observe u := by
  obtain ⟨u, hact, rfl⟩ := Option.map_eq_some_iff.mp h
  exact ⟨u, act_moved hact, rfl⟩

/-- A new claim is stored by two steps of the schedule: the signature, then a
run outside the schedule. -/
theorem claimed_path (hs : s.schedule.Sound) {c : Completion} {job : Job} {runId : JobRunId}
    {now : Instant} {signature : List JobRunId} {store : Store} (hfresh : runId ∉ s.schedule.drawn)
    (hok : s.schedule.store.claimDependencyRun job.name signature (claimedRun c job runId now) =
      .ok (true, store)) :
    Relation.ReflTransGen (fun a b : ScheduleState => ∃ e, a.Stepped e b) s.schedule
      { s.schedule with store, drawn := insert runId s.schedule.drawn } := by
  obtain ⟨-, hnone, hjob, rfl⟩ := Store.claimDependencyRun_ok hok
  let signed : Store := { s.schedule.store with
    dependencySignatures := s.schedule.store.dependencySignatures.filter
      (fun row => row.1 ≠ job.name) ++ [(job.name, signature)] }
  have hsigned : s.schedule.Stepped (.crash) { s.schedule with store := signed } :=
    .aside rfl rfl rfl
  have hclash : signed.runs.any (Store.clashesOnOccurrence (claimedRun c job runId now)) = false := by
    rw [List.any_eq_false]
    intro row _
    simp [Store.clashesOnOccurrence, claimedRun, pendingRun]
  have hsave : signed.saveRun (claimedRun c job runId now) =
      .ok { signed with runs := s.schedule.store.runs ++ [claimedRun c job runId now] } := by
    have hjob' : signed.hasJob (claimedRun c job runId now).jobName
        (claimedRun c job runId now).jobId = true := hjob
    have hnone' : signed.findRun (claimedRun c job runId now).runId = none := hnone
    unfold Store.saveRun
    rw [hjob', hnone']
    simp only [Bool.not_true, Bool.false_eq_true, if_false]
    unfold Store.insertRun
    rw [hnone', hclash, hjob']
    rfl
  refine .tail (.single ⟨_, hsigned⟩) ⟨.saveOther (claimedRun c job runId now), ?_⟩
  refine .otherSaved rfl (fun row hrow => ?_) ?_ (fun d hd hr => ?_) hsave
  · have hrow : s.schedule.store.findRun (claimedRun c job runId now).runId = some row := hrow
    rw [hnone] at hrow
    cases hrow
  · -- no runner has the fresh id
    by_contra hrunner
    obtain ⟨task, htask⟩ := Option.ne_none_iff_exists'.mp hrunner
    exact hfresh (hs.runners runId task htask).drawn
  · exact hfresh (hs.store.occurrenceDrawn d hd runId hr)

/-- The schedule moves by its own steps only. -/
theorem Moved.schedule_path {e : DependencyEvent} (hs : s.schedule.Sound) (h : s.Moved e t) :
    Relation.ReflTransGen (fun a b : ScheduleState => ∃ e, a.Stepped e b) s.schedule t.schedule := by
  have hstep {e : ScheduleEvent} {schedule : ScheduleState}
      (hsave : s.schedule.step e = some schedule) :
      Relation.ReflTransGen (fun a b : ScheduleState => ∃ e, a.Stepped e b) s.schedule schedule :=
    .single ⟨e, ScheduleState.stepped hsave⟩
  cases h with
  | scheduled _ hsave => exact hstep hsave
  | claimed _ hfresh hok => exact claimed_path hs hfresh hok
  | dispatchQueued _ _ hsave => exact hstep hsave
  | dispatchStarted _ _ hsave => exact hstep hsave
  | dispatchSkipped _ _ hsave => exact hstep hsave
  | skipRecorded _ _ hsave => exact hstep hsave
  | crashed hsave => exact hstep hsave
  | @sent c hc =>
    have hschedule : (({ s with unsent := s.unsent.erase c } : DependencyState).publish c).schedule =
        s.schedule := by
      unfold publish
      split
      · rfl
      · split <;> rfl
    rw [hschedule]
  | _ => exact .refl

theorem Moved.schedule_kept {I : ScheduleState → Prop}
    (hkeep : ∀ a e b, a.Sound → I a → a.Stepped e b → I b) {e : DependencyEvent}
    (hs : s.schedule.Sound) (hI : I s.schedule) (h : s.Moved e t) :
    t.schedule.Sound ∧ I t.schedule := by
  have hpath := h.schedule_path hs
  generalize t.schedule = schedule at hpath ⊢
  induction hpath with
  | refl => exact ⟨hs, hI⟩
  | tail _ hstep ih =>
    obtain ⟨e, hstep⟩ := hstep
    exact ⟨ih.1.stepped hstep, hkeep _ e _ ih.1 ih.2 hstep⟩

end DependencyState

end Supervisor
