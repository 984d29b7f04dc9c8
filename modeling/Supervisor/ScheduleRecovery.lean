import Supervisor.ScheduleInvariant

namespace Supervisor

namespace Store

/-- The occurrence starts, as the same occurrence, at any admission that finds a
free slot of its job. -/
def Admissible (s : Store) (d : DurableScheduleOccurrence) : Prop :=
  ∀ job ∈ s.jobs, job.id = d.jobId → ∀ now runId, s.findRun runId = none →
    s.runningOccurrences job.id < job.admission.maxConcurrency.val →
      ∃ d' t, s.admitScheduleOccurrence job d.occurrence now runId = .ok (.start d', t) ∧
        d'.key = d.key ∧ d'.occurrence = d.occurrence

/-- Every waiting occurrence can be admitted, and none of its attempts has succeeded. -/
def WaitingSound (s : Store) : Prop :=
  ∀ d ∈ s.occurrences, d.state.isWaiting = true →
    s.Admissible d ∧ ∀ row ∈ s.attempts d, row.state ≠ .succeeded

end Store

/-- A recovery finds no running occurrence with a row for its current attempt or
with a succeeded one, and a cleanup that ends a run as succeeded finds the
occurrence of the run final, or still running under that run. -/
def recoveryGuard (s : ScheduleState) : ScheduleEvent → Bool
  | .recover _ => decide (∀ d ∈ s.store.occurrences, d.state = .running →
      ∀ row ∈ s.store.attempts d, ∀ o ∈ row.occurrence,
        o.attempt ≠ d.occurrence.attempt ∧ row.state ≠ .succeeded)
  | .finishCleanup cleanupId _ => decide (
      ∀ ticket ∈ KeyedRows.find CleanupTicket.cleanupId cleanupId s.store.cleanups,
        ticket.intendedTerminalState = .succeeded → ∀ d ∈ s.store.occurrences,
          ∀ row ∈ s.store.attempts d, row.runId = ticket.runId → row.state.isTerminal = false →
            d.state = .finalized ∨ d.state = .running ∧ d.runId = some row.runId)
  | _ => true

namespace ScheduleState

variable {s t : ScheduleState}

/-- A waiting occurrence is ahead of its rows, and a succeeded row belongs to an
occurrence that is final or still held by that run. -/
structure Recoverable (s : ScheduleState) : Prop where
  ahead : ∀ d ∈ s.store.occurrences, d.state.isWaiting = true → ∀ row ∈ s.store.attempts d,
    ∀ o, row.occurrence = some o → o.attempt < d.occurrence.attempt
  settled : ∀ d ∈ s.store.occurrences, ∀ row ∈ s.store.attempts d, row.state = .succeeded →
    d.state = .finalized ∨ d.state = .running ∧ d.runId = some row.runId

/-- With no row for its current attempt the unique index lets the occurrence in. -/
theorem Recoverable.admissible (hs : s.Sound) (h : s.Recoverable) {d : DurableScheduleOccurrence}
    (hd : d ∈ s.store.occurrences) (hwaits : d.state.isWaiting = true) :
    s.store.Admissible d := by
  intro job hjob hid now runId hfresh hfree
  have hkey : d.occurrence.key job.id = d.key := by rw [hid]; rfl
  have found : s.store.findOccurrence (d.occurrence.key job.id) = some d := by
    rw [hkey]
    exact hs.store.occurrenceKeys.find_of_mem hd
  have hstate : d.state ≠ .finalized ∧ d.state ≠ .running := by
    constructor <;> intro h <;> rw [h] at hwaits <;> cases hwaits
  have hclash : (s.store.runs.any
      (Store.clashesOnOccurrence (Store.occurrenceRun job d.occurrence runId .pending none))) =
        false := by
    rw [List.any_eq_false]
    intro row hrow hclash
    simp only [Store.clashesOnOccurrence, Store.occurrenceRun, Bool.and_eq_true] at hclash
    obtain ⟨⟨⟨⟨-, hrowJob⟩, hocc⟩, -⟩, -⟩ := hclash
    have hocc := of_decide_eq_true hocc
    have hrow' : row ∈ s.store.attempts d := by
      refine Store.mem_attempts.mpr ⟨hrow, d.occurrence, hocc, ?_⟩
      rw [of_decide_eq_true hrowJob, hkey]
    exact lt_irrefl _ (h.ahead d hd hwaits row hrow' _ hocc)
  have hinsert : ∃ t, (s.store.setOccurrence (d.occurrence.key job.id) fun d =>
      { d with state := .running, runId := some runId }).insertRun
        (Store.occurrenceRun job d.occurrence runId .pending none) = .ok t := by
    have hjob' : s.store.hasJob job.name job.id = true :=
      Store.hasJob_iff.mpr ⟨job, hjob, rfl, rfl⟩
    unfold Store.insertRun
    rw [if_neg, if_neg, if_pos]
    · exact ⟨_, rfl⟩
    · exact hjob'
    · rw [Bool.not_eq_true]
      exact hclash
    · rw [Bool.not_eq_true, Option.isSome_eq_false_iff, Option.isNone_iff_eq_none]
      exact hfresh
  obtain ⟨t, ht⟩ := hinsert
  refine ⟨{ d with state := .running, runId := some runId }, t, ?_, rfl, rfl⟩
  simp only [Store.admitScheduleOccurrence, found]
  rw [if_neg hstate.1, if_neg hstate.2, if_neg (Nat.not_le.mpr hfree), ht]
  rfl

theorem Recoverable.sound (hs : s.Sound) (h : s.Recoverable) : s.store.WaitingSound := by
  intro d hd hwaits
  refine ⟨h.admissible hs hd hwaits, fun row hrow hsucceeded => ?_⟩
  rcases h.settled d hd row hrow hsucceeded with hstate | ⟨hstate, -⟩
  · rw [hstate] at hwaits
    cases hwaits
  · rw [hstate] at hwaits
    cases hwaits

theorem attempts_subset {d : DurableScheduleOccurrence}
    (hruns : ∀ row ∈ t.store.runs, ∀ o, row.occurrence = some o → row ∈ s.store.runs) :
    ∀ row ∈ t.store.attempts d, row ∈ s.store.attempts d := by
  intro row hrow
  obtain ⟨hmem, o, ho, hkey⟩ := Store.mem_attempts.mp hrow
  exact Store.mem_attempts.mpr ⟨hruns row hmem o ho, o, ho, hkey⟩

theorem Recoverable.of_subset (h : s.Recoverable)
    (hoccs : ∀ d ∈ t.store.occurrences, d ∈ s.store.occurrences)
    (hruns : ∀ row ∈ t.store.runs, ∀ o, row.occurrence = some o → row ∈ s.store.runs) :
    t.Recoverable where
  ahead d hd hwaits row hrow := h.ahead d (hoccs d hd) hwaits row (attempts_subset hruns row hrow)
  settled d hd row hrow := h.settled d (hoccs d hd) row (attempts_subset hruns row hrow)

theorem Recoverable.of_eq (h : s.Recoverable)
    (hoccs : t.store.occurrences = s.store.occurrences) (hruns : t.store.runs = s.store.runs) :
    t.Recoverable :=
  h.of_subset (fun _ hd => hoccs ▸ hd) fun _ hrow _ _ => hruns ▸ hrow

/-- One occurrence is rewritten, and only rows of that occurrence are new. -/
theorem Recoverable.of_setOccurrence (hs : s.Sound) (h : s.Recoverable) {key : OccurrenceKey}
    {d : DurableScheduleOccurrence} (found : s.store.findOccurrence key = some d)
    {f : DurableScheduleOccurrence → DurableScheduleOccurrence} (hkey : (f d).key = d.key)
    (hoccs : t.store.occurrences = (s.store.setOccurrence key f).occurrences)
    (hruns : ∀ row ∈ t.store.runs, ∀ o, row.occurrence = some o → o.key row.jobId ≠ key →
      row ∈ s.store.runs)
    (hahead : (f d).state.isWaiting = true → ∀ row ∈ t.store.attempts d,
      ∀ o, row.occurrence = some o → o.attempt < (f d).occurrence.attempt)
    (hsettled : ∀ row ∈ t.store.attempts d, row.state = .succeeded →
      (f d).state = .finalized ∨ (f d).state = .running ∧ (f d).runId = some row.runId) :
    t.Recoverable := by
  obtain ⟨-, hdkey⟩ := Store.findOccurrence_mem found
  have hrewritten : t.store.attempts (f d) = t.store.attempts d := by
    rw [Store.attempts, Store.attempts, hkey]
  have hother (d' : DurableScheduleOccurrence) (hne : d'.key ≠ key) :
      ∀ row ∈ t.store.attempts d', row ∈ s.store.attempts d' := by
    intro row hrow
    obtain ⟨hmem, o, ho, hkey'⟩ := Store.mem_attempts.mp hrow
    exact Store.mem_attempts.mpr ⟨hruns row hmem o ho (by rwa [hkey']), o, ho, hkey'⟩
  constructor
  · intro d' hd' hwaits row hrow
    rw [hoccs] at hd'
    rcases (hs.store.mem_setOccurrence found f).mp hd' with rfl | ⟨hd', hne⟩
    · rw [hrewritten] at hrow
      exact hahead hwaits row hrow
    · exact h.ahead d' hd' hwaits row (hother d' hne row hrow)
  · intro d' hd' row hrow
    rw [hoccs] at hd'
    rcases (hs.store.mem_setOccurrence found f).mp hd' with rfl | ⟨hd', hne⟩
    · rw [hrewritten] at hrow
      exact hsettled row hrow
    · exact h.settled d' hd' row (hother d' hne row hrow)

/-- A claim adds an occurrence that has no row yet. -/
theorem Recoverable.claimed (hs : s.Sound) (h : s.Recoverable) {job : Job}
    {occurrence : ScheduleOccurrence} {now : Instant} {durable : DurableScheduleOccurrence}
    {store : Store}
    (hclaim : s.store.claimScheduleOccurrence job occurrence now = .ok (durable, store)) :
    Recoverable { s with store } := by
  obtain ⟨-, hruns, hoccs | ⟨hnone, -, hoccs⟩⟩ := Store.claimScheduleOccurrence_ok hclaim
  · exact h.of_eq hoccs hruns
  · have hempty (row : JobRun) (hrow : row ∈ s.store.runs) (o : ScheduleOccurrence)
        (ho : row.occurrence = some o) : o.key row.jobId ≠ occurrence.key job.id := by
      intro hkey
      obtain ⟨d, hd, hdkey, -⟩ := hs.store.runOccurrence row hrow o ho
      exact KeyedRows.find_eq_none.mp hnone d hd (hdkey.trans hkey)
    have hsubset {d : DurableScheduleOccurrence} :
        ∀ row ∈ store.attempts d, row ∈ s.store.attempts d := by
      intro row hrow
      rwa [Store.attempts, hruns] at hrow
    constructor
    · intro d hd hwaits row hrow o ho
      change d ∈ store.occurrences at hd
      rw [hoccs, List.mem_append, List.mem_singleton] at hd
      rcases hd with hd | rfl
      · exact h.ahead d hd hwaits row (hsubset row hrow) o ho
      · obtain ⟨hmem, o', ho', hkey⟩ := Store.mem_attempts.mp (hsubset row hrow)
        exact absurd hkey (hempty row hmem o' ho')
    · intro d hd row hrow hsucceeded
      change d ∈ store.occurrences at hd
      rw [hoccs, List.mem_append, List.mem_singleton] at hd
      rcases hd with hd | rfl
      · exact h.settled d hd row (hsubset row hrow) hsucceeded
      · obtain ⟨hmem, o', ho', hkey⟩ := Store.mem_attempts.mp (hsubset row hrow)
        exact absurd hkey (hempty row hmem o' ho')

theorem Recoverable.not_succeeded (h : s.Recoverable) {d : DurableScheduleOccurrence}
    (hd : d ∈ s.store.occurrences) (hwaits : d.state.isWaiting = true) {row : JobRun}
    (hrow : row ∈ s.store.attempts d) : row.state ≠ .succeeded := by
  intro hsucceeded
  rcases h.settled d hd row hrow hsucceeded with hstate | ⟨hstate, -⟩ <;>
    rw [hstate] at hwaits <;> cases hwaits

theorem rows_admission {u store : Store} {job : Job} {occurrence : ScheduleOccurrence}
    {runId : JobRunId} {state : JobRunState} {endedAt : Option Instant}
    (hinsert : u.insertRun (Store.occurrenceRun job occurrence runId state endedAt) = .ok store)
    {row : JobRun} (hrow : row ∈ store.runs) :
    row ∈ u.runs ∨ row.state = state ∧ row.jobId = job.id ∧ row.occurrence = some occurrence := by
  obtain ⟨-, -, -, rfl⟩ := Store.insertRun_ok hinsert
  rw [List.mem_append, List.mem_singleton] at hrow
  rcases hrow with hrow | rfl
  · exact .inl hrow
  · exact .inr ⟨rfl, rfl, rfl⟩

theorem Recoverable.decided (hs : s.Sound) (h : s.Recoverable) {job : Job}
    {occurrence : ScheduleOccurrence} {runId : JobRunId} {state : JobRunState}
    {endedAt : Option Instant} {d : DurableScheduleOccurrence} {store : Store}
    {f : DurableScheduleOccurrence → DurableScheduleOccurrence}
    (found : s.store.findOccurrence (occurrence.key job.id) = some d)
    (hwaits : d.state.isWaiting = true) (hkey : (f d).key = d.key)
    (hstate : state ≠ .succeeded) (hdone : (f d).state.isWaiting = false)
    (hinsert : (s.store.setOccurrence (occurrence.key job.id) f).insertRun
      (Store.occurrenceRun job occurrence runId state endedAt) = .ok store)
    (hstore : t.store = store) : t.Recoverable := by
  subst hstore
  obtain ⟨hmem, hdkey⟩ := Store.findOccurrence_mem found
  have hoccs : t.store.occurrences =
      (s.store.setOccurrence (occurrence.key job.id) f).occurrences := by
    obtain ⟨-, -, -, heq⟩ := Store.insertRun_ok hinsert
    rw [heq]
  refine h.of_setOccurrence hs found hkey hoccs (fun row hrow o ho hne => ?_)
    (fun hwaits' => ?_) fun row hrow hsucceeded => ?_
  · rcases rows_admission hinsert hrow with hold | ⟨-, hjob, hocc⟩
    · exact hold
    · rw [hocc, Option.some.injEq] at ho
      rw [← ho, hjob] at hne
      exact absurd rfl hne
  · rw [hdone] at hwaits'
    cases hwaits'
  · obtain ⟨hrow, o, ho, hokey⟩ := Store.mem_attempts.mp hrow
    rcases rows_admission hinsert hrow with hold | ⟨hnew, -, -⟩
    · have hold' : row ∈ s.store.attempts d := Store.mem_attempts.mpr ⟨hold, o, ho, hokey⟩
      exact absurd hsucceeded (h.not_succeeded hmem hwaits hold')
    · exact absurd (hnew.symm.trans hsucceeded) hstate

theorem Recoverable.admitted (hs : s.Sound) (h : s.Recoverable) {p : ℕ} {now : Instant}
    {item : DurableScheduleOccurrence} {rest : List DurableScheduleOccurrence} {runId : JobRunId}
    {job : Job} {answer : ScheduleAdmission} {store : Store}
    (hstep : Store.AdmissionStep s.store job item.occurrence now runId answer store) :
    Recoverable ((s.admitted job runId store answer).setPass p ⟨now, rest⟩) := by
  cases hstep with
  | settled | already => exact h.of_eq rfl rfl
  | @queued d found hwaits hfull hroom =>
    obtain ⟨hmem, -⟩ := Store.findOccurrence_mem found
    refine h.of_setOccurrence hs found rfl rfl (fun _ hrow _ _ _ => hrow) (fun _ row hrow o ho => ?_)
      fun row hrow hsucceeded => ?_
    · exact h.ahead d hmem hwaits row hrow o ho
    · exact absurd hsucceeded (h.not_succeeded hmem hwaits hrow)
  | skipped found hwaits hfull hover hinsert =>
    exact h.decided hs found hwaits rfl (by simp) rfl hinsert rfl
  | started found hwaits hfree hinsert =>
    exact h.decided hs found hwaits rfl (by simp) rfl hinsert rfl

theorem RunnerSound.attempts (hs : s.Sound) {r : JobRunId} {task : RunnerTask}
    (h : s.RunnerSound r task) {name : String} (hjob : s.store.hasJob name task.job.id = true) :
    ∃ o d, task.run.occurrence = some o ∧
      s.store.findOccurrence (o.key task.job.id) = some d ∧ d.state = .running ∧
        d.runId = some r ∧ ∀ row ∈ s.store.runs, row.runId = r → row ∈ s.store.attempts d := by
  obtain ⟨o, d, ho, found, hrunning, hrunId, hrows⟩ := h.owned hs hjob
  refine ⟨o, d, ho, found, hrunning, hrunId, fun row hmem hid => ?_⟩
  obtain ⟨hrowJob, o', ho', hkey⟩ := hrows row hmem hid
  exact Store.mem_attempts.mpr ⟨hmem, o', ho', by rw [hrowJob, hkey]⟩

/-- Storing the running run keeps its row within the running occurrence. -/
theorem Recoverable.runnerRunning (hs : s.Sound) (h : s.Recoverable) {r : JobRunId} {job : Job}
    {run : JobRun} {store : Store} (htask : s.runners r = some ⟨job, run, .starting⟩)
    (hsave : s.store.saveRun run = .ok store ∨ store = s.store) :
    Recoverable { s.setRunner r (some ⟨job, run, .running⟩) with store } := by
  rcases hsave with hsave | rfl
  · have hrunner := hs.runners r _ htask
    have hid : run.jobId = job.id := hrunner.jobId
    have hstate : run.state = .running := hrunner.saved (.inl rfl)
    obtain ⟨-, hoccs, hjob, hruns⟩ := Store.saveRun_ok hsave
    rw [hid] at hjob
    obtain ⟨o, d, ho, found, hrunning, -⟩ := hrunner.owned hs hjob
    have ho : run.occurrence = some o := ho
    obtain ⟨hmem, hdkey⟩ := Store.findOccurrence_mem found
    have hrows (row : JobRun) (hrow : row ∈ store.runs) :
        row ∈ s.store.runs ∨ row.state = .running ∧ row.jobId = job.id ∧
          row.occurrence = some o := by
      rcases hruns with ⟨old, hold, -, holdId, hruns⟩ | ⟨-, hruns⟩
      · rw [hruns] at hrow
        rcases (hs.store.mem_updateRun hold _).mp hrow with rfl | ⟨hrow, -⟩
        · exact .inr ⟨hstate, holdId.trans hid, ho⟩
        · exact .inl hrow
      · rw [hruns, List.mem_append, List.mem_singleton] at hrow
        rcases hrow with hrow | rfl
        · exact .inl hrow
        · exact .inr ⟨hstate, hid, ho⟩
    constructor
    · intro d' hd' hwaits row hrow o' ho'
      change d' ∈ store.occurrences at hd'
      rw [hoccs] at hd'
      obtain ⟨hrowMem, o'', ho'', hkey⟩ := Store.mem_attempts.mp hrow
      rcases hrows row hrowMem with hold | ⟨-, hrowJob, hrowOcc⟩
      · exact h.ahead d' hd' hwaits row (Store.mem_attempts.mpr ⟨hold, o'', ho'', hkey⟩) o' ho'
      · -- the occurrence of the run is running, so it does not wait
        rw [hrowOcc, Option.some.injEq] at ho''
        rw [← ho'', hrowJob] at hkey
        have heq := hs.store.occurrenceKeys.eq_of_key hd' hmem (hkey.symm.trans hdkey.symm)
        rw [heq, hrunning] at hwaits
        cases hwaits
    · intro d' hd' row hrow hsucceeded
      change d' ∈ store.occurrences at hd'
      rw [hoccs] at hd'
      obtain ⟨hrowMem, o'', ho'', hkey⟩ := Store.mem_attempts.mp hrow
      rcases hrows row hrowMem with hold | ⟨hnew, -, -⟩
      · exact h.settled d' hd' row (Store.mem_attempts.mpr ⟨hold, o'', ho'', hkey⟩) hsucceeded
      · rw [hsucceeded] at hnew
        cases hnew
  · exact h.of_eq rfl rfl

/-- A terminal commit rewrites one row in place. -/
theorem Recoverable.committed (hs : s.Sound) (h : s.Recoverable) {run old : JobRun} {store : Store}
    (hcommit : Store.CommitsTerminal s.store store run old) (hstore : t.store = store)
    (hsettled : run.state = .succeeded → ∀ d ∈ s.store.occurrences, old ∈ s.store.attempts d →
      d.state = .finalized ∨ d.state = .running ∧ d.runId = some old.runId) :
    t.Recoverable := by
  subst hstore
  obtain ⟨holdMem, -⟩ := Store.findRun_mem hcommit.found
  have hrows (d : DurableScheduleOccurrence) (row : JobRun) (hrow : row ∈ t.store.attempts d) :
      row ∈ s.store.attempts d ∨ old ∈ s.store.attempts d ∧ row.occurrence = old.occurrence ∧
        row.state = run.state ∧ row.runId = old.runId := by
    obtain ⟨hmem, o, ho, hkey⟩ := Store.mem_attempts.mp hrow
    rw [hcommit.runs] at hmem
    rcases (hs.store.mem_updateRun hcommit.found _).mp hmem with rfl | ⟨hmem, -⟩
    · exact .inr ⟨Store.mem_attempts.mpr ⟨holdMem, o, ho, hkey⟩, rfl, rfl, rfl⟩
    · exact .inl (Store.mem_attempts.mpr ⟨hmem, o, ho, hkey⟩)
  constructor
  · intro d hd hwaits row hrow o ho
    rw [hcommit.occurrences] at hd
    rcases hrows d row hrow with hold | ⟨hold, hocc, -, -⟩
    · exact h.ahead d hd hwaits row hold o ho
    · exact h.ahead d hd hwaits old hold o (hocc ▸ ho)
  · intro d hd row hrow hsucceeded
    rw [hcommit.occurrences] at hd
    rcases hrows d row hrow with hold | ⟨hold, -, hstate, hid⟩
    · exact h.settled d hd row hold hsucceeded
    · rw [hid]
      exact hsettled (hstate.symm.trans hsucceeded) d hd hold

theorem Recoverable.runnerCommitted (hs : s.Sound) (h : s.Recoverable) {r : JobRunId} {job : Job}
    {run old : JobRun} {store : Store} (htask : s.runners r = some ⟨job, run, .ended⟩)
    (hcommit : Store.CommitsTerminal s.store store run old) :
    Recoverable ({ s with store }.setRunner r (some ⟨job, run, .committed⟩)) := by
  refine h.committed hs hcommit rfl fun _ d hd hold => ?_
  have hrunner := hs.runners r _ htask
  obtain ⟨holdMem, holdId⟩ := Store.findRun_mem hcommit.found
  have hid : run.jobId = job.id := hrunner.jobId
  have hjob := hs.store.runJob old holdMem
  rw [hcommit.jobId, hid] at hjob
  obtain ⟨o, d', -, found, hrunning, hrunId, hrows⟩ := hrunner.attempts hs hjob
  obtain ⟨hd', -⟩ := Store.findOccurrence_mem found
  have hr : old.runId = r := holdId.trans hrunner.runId
  -- the row belongs to one occurrence only
  obtain ⟨-, o₁, ho₁, hkey₁⟩ := Store.mem_attempts.mp hold
  obtain ⟨-, o₂, ho₂, hkey₂⟩ := Store.mem_attempts.mp (hrows old holdMem hr)
  rw [ho₁, Option.some.injEq] at ho₂
  have hkey : d.key = d'.key := by rw [← hkey₁, ← hkey₂, ho₂]
  rw [hs.store.occurrenceKeys.eq_of_key hd hd' hkey, hr]
  exact .inr ⟨hrunning, hrunId⟩

theorem Recoverable.attemptFinalized (hs : s.Sound) (h : s.Recoverable) {r : JobRunId} {job : Job}
    {run : JobRun} {now : Instant} {answer : ScheduleFinalization} {store : Store}
    (htask : s.runners r = some ⟨job, run, .committed⟩)
    (hstep : Store.FinalizationStep s.store job run now answer store) :
    Recoverable ({ s with store }.setRunner r none) := by
  have hrunner := hs.runners r _ htask
  have hrunId : run.runId = r := hrunner.runId
  cases hstep with
  | @retry o d retryAt hretryAt hocc found howner hfailed hmore =>
    obtain ⟨hmem, hdkey⟩ := Store.findOccurrence_mem found
    have hnext := U16.saturatingAdd_one hmore
    refine h.of_setOccurrence hs found rfl rfl (fun _ hrow _ _ _ => hrow)
      (fun _ row hrow o' ho' => ?_) fun row hrow hsucceeded => ?_
    · -- the next attempt is ahead of every row
      obtain ⟨hrowMem, o'', ho'', hkey⟩ := Store.mem_attempts.mp hrow
      obtain ⟨d', hd', hkey', hle⟩ := hs.store.runOccurrence row hrowMem o'' ho''
      rw [hs.store.occurrenceKeys.eq_of_key hd' hmem (hkey'.trans hkey)] at hle
      rw [ho', Option.some.injEq] at ho''
      subst ho''
      rw [Fin.le_def] at hle
      change o'.attempt.val < (d.occurrence.attempt.saturatingAdd 1).val
      omega
    · -- the attempt that ends here has failed, and no other holds the occurrence
      exfalso
      have hjob := hs.store.occurrenceJob d hmem
      have hdid : d.jobId = job.id := congrArg OccurrenceKey.jobId hdkey
      rw [hdid] at hjob
      obtain ⟨o₂, d₂, ho₂, found₂, hrunning, -⟩ := hrunner.owned hs hjob
      have ho₂ : run.occurrence = some o₂ := ho₂
      rw [hocc, Option.some.injEq] at ho₂
      subst ho₂
      have heq : d₂ = d := Option.some.inj (found₂.symm.trans found)
      rcases h.settled d hmem row hrow hsucceeded with hstate | ⟨-, hrow'⟩
      · rw [← heq, hrunning] at hstate
        cases hstate
      · rw [howner, Option.some.injEq, hrunId] at hrow'
        obtain ⟨_, -, hrows, -⟩ := hrunner.occurrence
        have hstate := (hrows row (Store.mem_attempts.mp hrow).1 hrow'.symm).2.2 rfl
        have hstate : row.state = run.state := hstate
        rw [hsucceeded, hfailed] at hstate
        cases hstate
  | final hocc found howner hlast =>
    exact h.of_setOccurrence hs found rfl rfl (fun _ hrow _ _ _ => hrow) (fun h => by cases h)
      fun _ _ _ => .inl rfl

theorem Recoverable.cleanupFinished (hs : s.Sound) (h : s.Recoverable) {cleanupId eventId : Uuid}
    {ticket : CleanupTicket} {row : JobRun}
    (hticket : KeyedRows.find CleanupTicket.cleanupId cleanupId s.store.cleanups = some ticket)
    (hid : row.runId = ticket.runId) {store : Store}
    (hcommit : Store.CommitsTerminal s.store store (ticket.terminalRun row) row)
    (hguard : recoveryGuard s (.finishCleanup cleanupId eventId) = true) :
    Recoverable { s with store } := by
  refine h.committed hs hcommit rfl fun hsucceeded d hd hrow => ?_
  rw [(Store.terminalRun_spec ticket row).2] at hsucceeded
  split at hsucceeded
  · exact h.settled d hd row hrow hsucceeded
  · rename_i hopen
    exact of_decide_eq_true hguard ticket hticket hsucceeded d hd row hrow hid
      (Bool.not_eq_true _ ▸ hopen)

theorem Recoverable.recovered (hs : s.Sound) (h : s.Recoverable) {now : Instant}
    (hguard : recoveryGuard s (.recover now) = true) :
    Recoverable { s with store := s.store.recoverScheduleOccurrences now, booting := false } := by
  have hguard := of_decide_eq_true hguard
  constructor
  · intro d' hd' hwaits row hrow o ho
    obtain ⟨d, hd, ⟨hrunning, rfl⟩ | ⟨-, rfl⟩⟩ := Store.mem_recover.mp hd'
    · have hrow : row ∈ s.store.attempts d := hrow
      have hne := (hguard d hd hrunning row hrow o ho).1
      obtain ⟨hmem, o', ho', hkey⟩ := Store.mem_attempts.mp hrow
      obtain ⟨d₂, hd₂, hkey₂, hle⟩ := hs.store.runOccurrence row hmem o' ho'
      rw [hs.store.occurrenceKeys.eq_of_key hd₂ hd (hkey₂.trans hkey)] at hle
      rw [ho, Option.some.injEq] at ho'
      exact lt_of_le_of_ne (ho' ▸ hle) hne
    · exact h.ahead d' hd hwaits row hrow o ho
  · intro d' hd' row hrow hsucceeded
    obtain ⟨d, hd, ⟨hrunning, rfl⟩ | ⟨-, rfl⟩⟩ := Store.mem_recover.mp hd'
    · obtain ⟨-, o, ho, -⟩ := Store.mem_attempts.mp hrow
      exact absurd hsucceeded (hguard d hd hrunning row hrow o ho).2
    · exact h.settled d' hd row hrow hsucceeded

theorem Recoverable.otherSaved (hs : s.Sound) (h : s.Recoverable) {run : JobRun} {store : Store}
    (hplain : run.occurrence = none) (hsave : s.store.saveRun run = .ok store) :
    Recoverable { s with store, drawn := insert run.runId s.drawn } := by
  obtain ⟨-, hoccs, -, hruns⟩ := Store.saveRun_ok hsave
  refine h.of_subset (fun _ hd => hoccs ▸ hd) fun row hrow o ho => ?_
  rcases hruns with ⟨old, hold, -, -, hruns⟩ | ⟨-, hruns⟩
  · rw [hruns] at hrow
    rcases (hs.store.mem_updateRun hold _).mp hrow with rfl | ⟨hrow, -⟩
    · rw [hplain] at ho
      cases ho
    · exact hrow
  · rw [hruns, List.mem_append, List.mem_singleton] at hrow
    rcases hrow with hrow | rfl
    · exact hrow
    · rw [hplain] at ho
      cases ho

theorem Recoverable.otherCommitted (hs : s.Sound) (h : s.Recoverable) {run old : JobRun}
    {store : Store} (hrow : old.occurrence = none)
    (hcommit : Store.CommitsTerminal s.store store run old) : Recoverable { s with store } := by
  refine h.committed hs hcommit rfl fun _ d _ hold => ?_
  obtain ⟨-, o, ho, -⟩ := Store.mem_attempts.mp hold
  rw [hrow] at ho
  cases ho

theorem Recoverable.step (hs : s.Sound) (h : s.Recoverable) {e : ScheduleEvent}
    (hguard : recoveryGuard s e = true) (hstep : s.Stepped e t) : t.Recoverable := by
  cases hstep with
  | jobReplaced hold =>
    refine h.of_eq ?_ ?_
    · simp only [Store.saveJob, hold]
    · simp only [Store.saveJob, hold]
  | jobAdded hnone _ =>
    refine h.of_eq ?_ ?_
    · simp only [Store.saveJob, hnone]
    · simp only [Store.saveJob, hnone]
  | jobDeleted =>
    exact h.of_subset (fun _ hd => List.mem_of_mem_filter hd)
      fun _ hrow _ _ => List.mem_of_mem_filter hrow
  | claimed _ hclaim => exact h.claimed hs hclaim
  | admitted _ _ _ _ hstep => exact h.admitted hs hstep
  | runnerRunning htask hsave => exact h.runnerRunning hs htask hsave
  | runnerCommitted htask hcommit => exact h.runnerCommitted hs htask hcommit
  | attemptFinalized htask hstep => exact h.attemptFinalized hs htask hstep
  | cleanupFinished hticket hid hcommit => exact h.cleanupFinished hs hticket hid hcommit hguard
  | runsPruned =>
    obtain ⟨-, hoccs, keep, hruns, -⟩ := s.store.pruneRuns_spec _ _ _
    refine h.of_subset (fun _ hd => hoccs ▸ hd) fun row hrow _ _ => ?_
    rw [hruns] at hrow
    exact List.mem_of_mem_filter hrow
  | otherSaved hplain _ _ _ hsave => exact h.otherSaved hs hplain hsave
  | otherCommitted _ hrow _ _ hcommit => exact h.otherCommitted hs hrow hcommit
  | recovered _ => exact h.recovered hs hguard
  | runnerGone _ _ hruns hoccs | aside _ hruns hoccs => exact h.of_eq hoccs hruns
  | passStarted | unanswered | passedOver | runnerEnded | attemptUnsettled
  | finalizeFailed | crashed => exact h.of_eq rfl rfl

/-- In every run whose recoveries and cleanups meet the guard, each waiting
occurrence is admitted, as itself, as soon as its job has a free slot, and none
of its attempts has succeeded. -/
theorem waitingSound (h : scheduleSystem.Run (fun s e => recoveryGuard s e = true) {} t) :
    t.store.WaitingSound := by
  have hinit : ScheduleState.Sound {} ∧ Recoverable {} :=
    ⟨sound_init, by constructor <;> intro d hd <;> cases hd⟩
  have hinv := h.invariant (I := fun s => s.Sound ∧ s.Recoverable)
    (fun s e u hs hguard hstep => ⟨hs.1.step hstep, hs.2.step hs.1 hguard (stepped hstep)⟩) hinit
  exact hinv.2.sound hinv.1

def hourlyTwice : Job := { hourly with retryPolicy := { maxAttempts := 2 } }

def outcomeOf (exitCode : ℤ) : TransientOutcome :=
  { startedAt := 0, endedAt := 1, exitCode := some exitCode }

def terminalEvent (state : JobRunState) (exitCode : ℤ) : TransientTerminalEvent :=
  { cleanupId := 20, eventId := 21, occurredAt := 1, jobName := "hourly", runId := ⟨10⟩, state
    exitCode := some exitCode }

/-- The first attempt fails, its retry is due later, and the daemon restarts. -/
def failAndRestart : List ScheduleEvent :=
  [.recover 0, .saveJob hourlyTwice, .claim hourlyTwice (hourlyAt 0) 0, .startPass 0,
    .admitNext 0 ⟨10⟩, .saveRunning ⟨10⟩, .endRun ⟨10⟩ .failed (outcomeOf 1),
    .commitTerminal ⟨10⟩ (terminalEvent .failed 1), .finalizeAttempt ⟨10⟩ 1, .crash, .recover 2]

theorem failAndRestart_waitingSound : ∃ t,
    scheduleSystem.Run (fun s e => recoveryGuard s e = true) {} t ∧
      t.store.occurrences.map (fun d => (d.state, d.occurrence.attempt)) = [(.retryPending, 2)] ∧
        t.store.WaitingSound := by
  have hexec : (scheduleSystem.execUnder (fun s e => recoveryGuard s e = true) {}
      failAndRestart).any (fun t => t.store.occurrences.map
        (fun d => (d.state, d.occurrence.attempt)) = [(.retryPending, 2)]) = true := by decide
  obtain ⟨t, hrun, hwaiting⟩ := Machine.exists_run_of_execUnder _ failAndRestart hexec
  exact ⟨t, hrun, of_decide_eq_true hwaiting, waitingSound hrun⟩

/-- The daemon stops between the terminal commit of a run and its finalisation. -/
def stopBeforeFinalize : List ScheduleEvent :=
  [.recover 0, .saveJob hourly, .claim hourly (hourlyAt 0) 0, .startPass 0, .admitNext 0 ⟨10⟩,
    .saveRunning ⟨10⟩, .endRun ⟨10⟩ .succeeded (outcomeOf 0),
    .commitTerminal ⟨10⟩ (terminalEvent .succeeded 0), .crash, .recover 2]

theorem recovered_occurrence_blocked :
    ¬∀ t, scheduleSystem.Reaches {} t → t.store.WaitingSound := by
  intro h
  have hexec : (scheduleSystem.exec {} stopBeforeFinalize).any (fun t =>
      decide (hourly ∈ t.store.jobs ∧ t.store.findRun ⟨11⟩ = none ∧
        t.store.runningOccurrences hourly.id < hourly.admission.maxConcurrency.val ∧
        (∃ d ∈ t.store.occurrences, d.state = .retryPending ∧ d.jobId = hourly.id ∧
          d.occurrence = hourlyAt 0) ∧
        (t.store.admitScheduleOccurrence hourly (hourlyAt 0) 2 ⟨11⟩).toOption = none)) = true := by
    decide
  obtain ⟨t, hrun, ht⟩ := Machine.exists_reaches_of_exec _ stopBeforeFinalize hexec
  obtain ⟨hjob, hfresh, hfree, ⟨d, hd, hstate, hid, hocc⟩, hblocked⟩ := of_decide_eq_true ht
  obtain ⟨hadmissible, -⟩ := h t hrun d hd (by rw [hstate]; rfl)
  -- the row of the finished attempt occupies the unique index
  obtain ⟨d', t', hok, -⟩ := hadmissible hourly hjob hid.symm 2 ⟨11⟩ hfresh hfree
  rw [hocc] at hok
  rw [hok] at hblocked
  cases hblocked

end ScheduleState

end Supervisor
