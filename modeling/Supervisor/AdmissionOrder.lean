import Supervisor.ScheduleInvariant

namespace Supervisor

namespace AdmissionPass

/-- The pass still has to decide the occurrence. -/
def reaches (p : AdmissionPass) (d : DurableScheduleOccurrence) : Bool :=
  p.remaining.any fun item => item.key = d.key

/-- An occurrence of the job is due for the pass, and older than one of the job
that the pass still has to decide. -/
def overtakes (p : AdmissionPass) (jobId : JobId) (scheduledAt dueAt : Instant) : Bool :=
  dueAt ≤ p.now &&
    p.remaining.any fun item => item.jobId = jobId && scheduledAt < item.occurrence.scheduledAt

/-- A waiting occurrence of the job that the pass does not decide any more. -/
def leaves (p : AdmissionPass) (jobId : JobId) (d : DurableScheduleOccurrence) : Bool :=
  d.jobId = jobId && d.state.isWaiting && !p.reaches d

def leavesBehind (p : AdmissionPass) (jobId : JobId) (d : DurableScheduleOccurrence) : Bool :=
  p.leaves jobId d && p.overtakes jobId d.occurrence.scheduledAt d.nextAttemptAt

end AdmissionPass

namespace Store

def leftWaiting (s : Store) (p : AdmissionPass) (jobId : JobId) : ℕ :=
  s.occurrences.countP (p.leaves jobId)

def isFull (s : Store) (job : Job) : Bool :=
  job.admission.maxConcurrency.val ≤ s.runningOccurrences job.id

/-- The queue of the job has room for one more occurrence that the pass leaves waiting. -/
def hasRoom (s : Store) (p : AdmissionPass) (jobId : JobId) : Bool :=
  s.jobs.all fun job => job.id ≠ jobId || s.leftWaiting p jobId < job.admission.maxQueue.val

/-- The pass can leave one more occurrence waiting: there is room for it, and no
slot is free that an older one should have had. -/
def mayLeave (s : Store) (p : AdmissionPass) (jobId : JobId) (scheduledAt dueAt : Instant) : Bool :=
  s.hasRoom p jobId && (!p.overtakes jobId scheduledAt dueAt ||
    s.jobs.all fun job => job.id ≠ jobId || s.isFull job)

/-- The attempt row that an admission would add is there already. -/
def hasAttempt (s : Store) (job : Job) (occurrence : ScheduleOccurrence) : Bool :=
  s.runs.any (clashesOnOccurrence (occurrenceRun job occurrence ⟨0⟩ .pending none))

end Store

/-- A stored definition keeps its admission policy. -/
def keepsPolicies (s : ScheduleState) : ScheduleEvent → Bool
  | .saveJob job => decide (∀ old ∈ s.store.getJob job.name, job.admission = old.admission)
  | _ => true

/-- The steps that keep to the admission policy of every job:
* a definition keeps its policy;
* an occurrence that becomes waiting while a pass is under way (a claim or a
  retry), or that the pass leaves alone, is one the pass may leave, and a slot is
  not freed while the pass has left an older occurrence behind;
* a pass lists all but at most `maxQueue` of a job's waiting occurrences;
* an over-full queue drops an occurrence that was only just claimed. -/
def admissionGuard (s : ScheduleState) : ScheduleEvent → Bool
  | .saveJob job => keepsPolicies s (.saveJob job)
  | .claim job occurrence now =>
    (s.store.findOccurrence (occurrence.key job.id)).isSome || s.passes.all fun p =>
      p.remaining = [] || s.store.mayLeave p job.id occurrence.scheduledAt now
  | .startPass now => s.store.jobs.all fun job =>
    s.store.leftWaiting ⟨now, s.store.listDueScheduleOccurrences now 128⟩ job.id ≤
      job.admission.maxQueue.val
  | .admitNext pass _ => decide (∀ p ∈ s.passes[pass]?, ∀ item ∈ p.remaining.head?,
      ∀ d ∈ s.store.findOccurrence item.key, d.state.isWaiting = true →
        (s.store.jobs.all fun job => job.id ≠ d.jobId || !s.store.isFull job ||
          s.store.waitingOccurrences job.id ≤ job.admission.maxQueue.val || d.state = .claimed) ∧
        (s.store.jobs.all fun job => job.id ≠ d.jobId || !s.store.hasAttempt job item.occurrence ||
          s.store.mayLeave p d.jobId d.occurrence.scheduledAt d.nextAttemptAt))
  | .passOver pass => decide (∀ p ∈ s.passes[pass]?, ∀ item ∈ p.remaining.head?,
      ∀ d ∈ s.store.findOccurrence item.key, d.state.isWaiting = true →
        s.store.mayLeave p d.jobId d.occurrence.scheduledAt d.nextAttemptAt)
  | .finalizeAttempt runId now => decide (∀ task ∈ s.runners runId, ∀ o ∈ task.run.occurrence,
      ∀ d ∈ s.store.findOccurrence (o.key task.job.id), ∀ p ∈ s.passes,
        (s.store.occurrences.any (p.leavesBehind d.jobId)) = false ∧
        (task.run.state = .failed → d.occurrence.attempt < task.job.retryPolicy.maxAttempts →
          p.remaining = [] ∨ p.reaches d ∨ s.store.hasRoom p d.jobId ∧
            p.overtakes d.jobId d.occurrence.scheduledAt (now +
              Store.retryDelay task.job.retryPolicy d.occurrence.attempt runId * nanosPerSec) =
                false))
  | _ => true

/-- What the admission policy asks of an event. -/
structure AdmissionLawful (s : ScheduleState) (e : ScheduleEvent) (t : ScheduleState) : Prop where
  /-- No job runs more occurrences than its slots. -/
  slots : ∀ job ∈ t.store.jobs,
    t.store.runningOccurrences job.id ≤ job.admission.maxConcurrency.val
  /-- A pass that has just decided its last occurrence leaves no over-full queue. -/
  queue : ∀ (pass : ℕ) (p : AdmissionPass), t.passes[pass]? = some p → p.remaining = [] →
    s.passes[pass]? ≠ some p → ∀ job ∈ t.store.jobs, t.store.waitingOccurrences job.id ≤ job.admission.maxQueue.val
  /-- The occurrence that starts is the oldest of its job that is due. -/
  order : ∀ pass runId p, e = .admitNext pass runId → s.passes[pass]? = some p →
    ∀ d ∈ t.store.occurrences, d.runId = some runId → d.state = .running →
      ∀ d' ∈ t.store.occurrences, d'.jobId = d.jobId → d'.state.isWaiting = true →
        d'.nextAttemptAt ≤ p.now → d.occurrence.scheduledAt ≤ d'.occurrence.scheduledAt
  /-- Only an occurrence that was never queued and never run is dropped. -/
  drop : ∀ d ∈ s.store.occurrences, d.state.isWaiting = true →
    ∀ d' ∈ t.store.occurrences, d'.key = d.key → d'.state = .finalized → d.state = .claimed

namespace ScheduleState

variable {s t : ScheduleState}

/-- The policy holds now, and every pass under way can still end within it. -/
structure PolicyKept (s : ScheduleState) : Prop where
  slots : ∀ job ∈ s.store.jobs,
    s.store.runningOccurrences job.id ≤ job.admission.maxConcurrency.val
  left : ∀ p ∈ s.passes, p.remaining ≠ [] → ∀ job ∈ s.store.jobs,
    s.store.leftWaiting p job.id ≤ job.admission.maxQueue.val
  behind : ∀ p ∈ s.passes, ∀ job ∈ s.store.jobs, ∀ d ∈ s.store.occurrences,
    p.leavesBehind job.id d = true → s.store.isFull job = true
  sorted : ∀ p ∈ s.passes, p.remaining.Pairwise fun a b =>
    a.occurrence.scheduledAt ≤ b.occurrence.scheduledAt

end ScheduleState

section Counts

variable {s t : Store} {p q : AdmissionPass} {jobId : JobId} {d : DurableScheduleOccurrence}

theorem AdmissionPass.leaves_iff : p.leaves jobId d = true ↔
    d.jobId = jobId ∧ d.state.isWaiting = true ∧ p.reaches d = false := by
  simp [leaves, and_assoc]

theorem AdmissionPass.leavesBehind_iff : p.leavesBehind jobId d = true ↔
    p.leaves jobId d = true ∧
      p.overtakes jobId d.occurrence.scheduledAt d.nextAttemptAt = true := by
  simp [leavesBehind]

theorem AdmissionPass.overtakes_cons {now scheduledAt dueAt : Instant}
    (item : DurableScheduleOccurrence) {rest : List DurableScheduleOccurrence}
    (h : (⟨now, rest⟩ : AdmissionPass).overtakes jobId scheduledAt dueAt = true) :
    (⟨now, item :: rest⟩ : AdmissionPass).overtakes jobId scheduledAt dueAt = true := by
  simp only [overtakes, Bool.and_eq_true, List.any_cons] at h ⊢
  exact ⟨h.1, by rw [h.2, Bool.or_true]⟩

theorem AdmissionPass.leaves_of_rest {now : Instant} {item : DurableScheduleOccurrence}
    {rest : List DurableScheduleOccurrence}
    (h : (⟨now, rest⟩ : AdmissionPass).leaves jobId d = true) (hne : d.key ≠ item.key) :
    (⟨now, item :: rest⟩ : AdmissionPass).leaves jobId d = true := by
  rw [leaves_iff] at h ⊢
  refine ⟨h.1, h.2.1, ?_⟩
  simp only [reaches, List.any_cons, Bool.or_eq_false_iff, decide_eq_false_iff_not] at h ⊢
  exact ⟨hne.symm, h.2.2⟩

theorem leftWaiting_nil {now : Instant} :
    s.leftWaiting ⟨now, []⟩ jobId = s.waitingOccurrences jobId := by
  simp only [Store.leftWaiting, Store.waitingOccurrences]
  congr 1
  funext d
  simp [AdmissionPass.leaves, AdmissionPass.reaches]

theorem leftWaiting_setOccurrence_le {key : OccurrenceKey}
    {f : DurableScheduleOccurrence → DurableScheduleOccurrence}
    (hoccs : t.occurrences = (s.setOccurrence key f).occurrences)
    (hrow : ∀ d ∈ s.occurrences, d.key = key → p.leaves jobId (f d) = true →
      q.leaves jobId d = true)
    (hother : ∀ d ∈ s.occurrences, d.key ≠ key → p.leaves jobId d = true →
      q.leaves jobId d = true) :
    t.leftWaiting p jobId ≤ s.leftWaiting q jobId := by
  rw [Store.leftWaiting, hoccs]
  exact KeyedRows.countP_update_le hrow hother

variable {drawn : Finset JobRunId} {jobIds : Finset JobId}

theorem runningOccurrences_setOccurrence (jobId : JobId) (hs : s.Sound drawn jobIds) {key : OccurrenceKey}
    {f : DurableScheduleOccurrence → DurableScheduleOccurrence}
    (found : s.findOccurrence key = some d)
    (hoccs : t.occurrences = (s.setOccurrence key f).occurrences) (hid : (f d).jobId = d.jobId) :
    t.runningOccurrences jobId + (if d.jobId = jobId ∧ d.state = .running then 1 else 0) =
      s.runningOccurrences jobId +
        (if d.jobId = jobId ∧ (f d).state = .running then 1 else 0) := by
  have hcount := hs.occurrenceKeys.countP_update (f := f)
    (fun d => d.jobId = jobId && d.state = .running) found
  simp only [hid, Bool.and_eq_true, decide_eq_true_eq] at hcount
  rw [Store.runningOccurrences, hoccs]
  exact hcount

theorem job_eq_of_id (hs : s.Sound drawn jobIds) {a b : Job} (ha : a ∈ s.jobs) (hb : b ∈ s.jobs)
    (h : a.id = b.id) : a = b :=
  hs.jobNames.eq_of_key ha hb (hs.jobOfId a ha b hb h)

end Counts

namespace ScheduleState

variable {s t : ScheduleState}

/-- Events that leave the ledger, the policies and the passes alone, or end passes. -/
theorem PolicyKept.of_ledger_eq (h : s.PolicyKept)
    (hoccs : t.store.occurrences = s.store.occurrences)
    (hjobs : ∀ job ∈ t.store.jobs, ∃ old ∈ s.store.jobs, old.id = job.id ∧
      old.admission = job.admission)
    (hpasses : ∀ p ∈ t.passes, p ∈ s.passes) : t.PolicyKept := by
  have hrunning (jobId : JobId) :
      t.store.runningOccurrences jobId = s.store.runningOccurrences jobId := by
    rw [Store.runningOccurrences, hoccs]
    rfl
  have hleft (p : AdmissionPass) (jobId : JobId) :
      t.store.leftWaiting p jobId = s.store.leftWaiting p jobId := by
    rw [Store.leftWaiting, hoccs]
    rfl
  constructor
  · intro job hjob
    obtain ⟨old, hold, hid, hadmission⟩ := hjobs job hjob
    rw [hrunning, ← hid, ← hadmission]
    exact h.slots old hold
  · intro p hp hopen job hjob
    obtain ⟨old, hold, hid, hadmission⟩ := hjobs job hjob
    rw [hleft, ← hid, ← hadmission]
    exact h.left p (hpasses p hp) hopen old hold
  · intro p hp job hjob d hd hbehind
    obtain ⟨old, hold, hid, hadmission⟩ := hjobs job hjob
    rw [← hid] at hbehind
    have hfull := h.behind p (hpasses p hp) old hold d (hoccs ▸ hd) hbehind
    rw [Store.isFull, hadmission, hid] at hfull
    rwa [Store.isFull, hrunning]
  · intro p hp
    exact h.sorted p (hpasses p hp)

theorem PolicyKept.jobAdded (hs : s.Sound) (h : s.PolicyKept) {job : Job}
    (hnone : s.store.getJob job.name = none) (hfresh : job.id ∉ s.jobIds) :
    PolicyKept { s with store := s.store.saveJob job, jobIds := insert job.id s.jobIds } := by
  have hstore : s.store.saveJob job = { s.store with jobs := s.store.jobs ++ [job] } := by
    rw [Store.saveJob, hnone]
  -- the ledger holds nothing of the new job
  have hnew (d : DurableScheduleOccurrence) (hd : d ∈ s.store.occurrences) : d.jobId ≠ job.id := by
    intro hid
    obtain ⟨old, hold, -, holdId⟩ := Store.hasJob_iff.mp (hs.store.occurrenceJob d hd)
    apply hfresh
    rw [← hid, ← holdId]
    exact hs.store.jobDrawn old hold
  have hcount (P : DurableScheduleOccurrence → Bool) (hP : ∀ d, P d = true → d.jobId = job.id) :
      s.store.occurrences.countP P = 0 := by
    rw [List.countP_eq_zero]
    intro d hd hPd
    exact hnew d hd (hP d hPd)
  rw [hstore]
  constructor
  · intro job' hjob'
    rcases List.mem_append.mp hjob' with hjob' | hjob'
    · exact h.slots job' hjob'
    · rw [List.mem_singleton.mp hjob']
      have hzero := hcount (fun d => d.jobId = job.id && d.state = .running) fun d hd => by
        simp only [Bool.and_eq_true, decide_eq_true_eq] at hd
        exact hd.1
      exact hzero.le.trans (Nat.zero_le _)
  · intro p hp hopen job' hjob'
    rcases List.mem_append.mp hjob' with hjob' | hjob'
    · exact h.left p hp hopen job' hjob'
    · rw [List.mem_singleton.mp hjob']
      have hzero := hcount (p.leaves job.id) fun d hd => (AdmissionPass.leaves_iff.mp hd).1
      exact hzero.le.trans (Nat.zero_le _)
  · intro p hp job' hjob' d hd hbehind
    rcases List.mem_append.mp hjob' with hjob' | hjob'
    · exact h.behind p hp job' hjob' d hd hbehind
    · rw [List.mem_singleton.mp hjob'] at hbehind
      have hleaves := (AdmissionPass.leavesBehind_iff.mp hbehind).1
      exact absurd (AdmissionPass.leaves_iff.mp hleaves).1 (hnew d hd)
  · exact h.sorted

theorem PolicyKept.jobDeleted (hs : s.Sound) (h : s.PolicyKept) (name : String) :
    PolicyKept { s with store := s.store.deleteJob name } := by
  -- the jobs that stay keep all their occurrences
  have hkept (job : Job) (hjob : job ∈ (s.store.deleteJob name).jobs) :
      job ∈ s.store.jobs ∧ ∀ d ∈ s.store.occurrences, d.jobId = job.id → d.jobName ≠ name := by
    obtain ⟨hmem, hname⟩ := List.mem_filter.mp hjob
    refine ⟨hmem, fun d hd hid => ?_⟩
    have hdjob := hs.store.occurrenceJob d hd
    rw [hid] at hdjob
    rw [hs.store.hasJob_jobName hdjob (Store.hasJob_iff.mpr ⟨job, hmem, rfl, rfl⟩)]
    simpa using hname
  have hrunning (job : Job) (hjob : job ∈ (s.store.deleteJob name).jobs) :
      (s.store.deleteJob name).runningOccurrences job.id =
        s.store.runningOccurrences job.id := by
    rw [Store.runningOccurrences, Store.runningOccurrences, Store.deleteJob, List.countP_filter]
    apply List.countP_congr
    intro d hd
    simp only [Bool.and_eq_true, decide_eq_true_eq]
    exact ⟨fun h => h.1, fun h => ⟨h, (hkept job hjob).2 d hd h.1⟩⟩
  constructor
  · intro job hjob
    rw [hrunning job hjob]
    exact h.slots job (hkept job hjob).1
  · intro p hp hopen job hjob
    refine le_trans ?_ (h.left p hp hopen job (hkept job hjob).1)
    exact List.Sublist.countP_le List.filter_sublist
  · intro p hp job hjob d hd hbehind
    have hfull := h.behind p hp job (hkept job hjob).1 d (List.mem_of_mem_filter hd) hbehind
    rw [Store.isFull] at hfull ⊢
    rwa [hrunning job hjob]
  · exact h.sorted

theorem mayLeave_iff {store : Store} {p : AdmissionPass} {jobId : JobId}
    {scheduledAt dueAt : Instant} :
    store.mayLeave p jobId scheduledAt dueAt = true ↔
      (∀ job ∈ store.jobs, job.id = jobId →
        store.leftWaiting p jobId < job.admission.maxQueue.val) ∧
      (p.overtakes jobId scheduledAt dueAt = true → ∀ job ∈ store.jobs, job.id = jobId →
        store.isFull job = true) := by
  simp only [Store.mayLeave, Store.hasRoom, Bool.and_eq_true, Bool.or_eq_true, List.all_eq_true,
    decide_eq_true_eq, Bool.not_eq_true', ne_eq, decide_not, decide_eq_false_iff_not]
  constructor
  · rintro ⟨hroom, hfull⟩
    constructor
    · intro job hjob hid
      exact (hroom job hjob).resolve_left (not_not.mpr hid)
    · intro hovertakes job hjob hid
      rcases hfull with hnot | hfull
      · rw [hnot] at hovertakes
        cases hovertakes
      · exact (hfull job hjob).resolve_left (not_not.mpr hid)
  · rintro ⟨hroom, hfull⟩
    constructor
    · intro job hjob
      by_cases hid : job.id = jobId
      · exact .inr (hroom job hjob hid)
      · exact .inl hid
    · cases hovertakes : p.overtakes jobId scheduledAt dueAt with
      | false => exact .inl rfl
      | true =>
        refine .inr fun job hjob => ?_
        by_cases hid : job.id = jobId
        · exact .inr (hfull hovertakes job hjob hid)
        · exact .inl hid

/-- A claim comes while every pass under way may leave the new occurrence waiting. -/
theorem PolicyKept.claimed (h : s.PolicyKept) {job : Job} {occurrence : ScheduleOccurrence}
    {now : Instant} {durable : DurableScheduleOccurrence} {store : Store}
    (hclaim : s.store.claimScheduleOccurrence job occurrence now = .ok (durable, store))
    (hguard : admissionGuard s (.claim job occurrence now) = true) :
    PolicyKept { s with store } := by
  obtain ⟨hjobs, -, hoccs | ⟨hnone, -, hoccs⟩⟩ := Store.claimScheduleOccurrence_ok hclaim
  · exact h.of_ledger_eq hoccs (fun job' hjob' => ⟨job', hjobs ▸ hjob', rfl, rfl⟩) fun _ hp => hp
  · have hleave (p : AdmissionPass) (hp : p ∈ s.passes) (hopen : p.remaining ≠ []) :
        s.store.mayLeave p job.id occurrence.scheduledAt now = true := by
      simp only [admissionGuard, hnone, Option.isSome_none, Bool.false_or, List.all_eq_true,
        Bool.or_eq_true, decide_eq_true_eq] at hguard
      exact (hguard p hp).resolve_left hopen
    have hrunning (jobId : JobId) :
        store.runningOccurrences jobId = s.store.runningOccurrences jobId := by
      rw [Store.runningOccurrences, hoccs, List.countP_append]
      simp [Store.runningOccurrences]
    constructor
    · intro job' hjob'
      change store.runningOccurrences job'.id ≤ _
      rw [hrunning]
      exact h.slots job' (hjobs ▸ hjob')
    · intro p hp hopen job' hjob'
      have hold : job' ∈ s.store.jobs := hjobs ▸ hjob'
      have hleft := h.left p hp hopen job' hold
      change store.leftWaiting p job'.id ≤ _
      rw [Store.leftWaiting, hoccs, List.countP_append, List.countP_singleton]
      split
      · -- the new occurrence is of this job, whose queue has room
        rename_i hleaves
        obtain ⟨hid, -, -⟩ := AdmissionPass.leaves_iff.mp hleaves
        have hid : job.id = job'.id := hid
        have hroom := (mayLeave_iff.mp (hleave p hp hopen)).1 job' hold hid.symm
        rw [hid] at hroom
        exact hroom
      · exact hleft
    · intro p hp job' hjob' d hd hbehind
      have hold : job' ∈ s.store.jobs := hjobs ▸ hjob'
      change store.isFull job' = true
      rw [Store.isFull, hrunning]
      change d ∈ store.occurrences at hd
      rw [hoccs, List.mem_append, List.mem_singleton] at hd
      rcases hd with hd | rfl
      · exact h.behind p hp job' hold d hd hbehind
      · obtain ⟨hleaves, hovertakes⟩ := AdmissionPass.leavesBehind_iff.mp hbehind
        have hid : job.id = job'.id := (AdmissionPass.leaves_iff.mp hleaves).1
        have hopen : p.remaining ≠ [] := by
          intro hnil
          simp [AdmissionPass.overtakes, hnil] at hovertakes
        rw [← hid] at hovertakes
        exact (mayLeave_iff.mp (hleave p hp hopen)).2 hovertakes job' hold hid.symm
    · exact h.sorted

/-- The listing is in order of scheduled time, and what it leaves out is not due
or not older. -/
theorem listDue_spec (s : Store) (now : Instant) (limit : ℕ) :
    ((s.listDueScheduleOccurrences now limit).Pairwise fun a b =>
        a.occurrence.scheduledAt ≤ b.occurrence.scheduledAt) ∧
      ∀ d ∈ s.occurrences, d.state.isWaiting = true → d.nextAttemptAt ≤ now →
        d ∈ s.listDueScheduleOccurrences now limit ∨
          ∀ item ∈ s.listDueScheduleOccurrences now limit,
            item.occurrence.scheduledAt ≤ d.occurrence.scheduledAt := by
  let due := s.occurrences.filter fun d => d.state.isWaiting && d.nextAttemptAt ≤ now
  let older (a b : DurableScheduleOccurrence) : Prop :=
    a.occurrence.scheduledAt ≤ b.occurrence.scheduledAt
  have hsorted : (due.insertionSort older).Pairwise older := by
    have : Std.Total older := ⟨fun a b => le_total a.occurrence.scheduledAt b.occurrence.scheduledAt⟩
    have : IsTrans _ older := ⟨fun a b c => le_trans⟩
    exact List.pairwise_insertionSort older due
  constructor
  · exact hsorted.sublist (List.take_sublist _ _)
  · intro d hd hwaits hdue
    have hmem : d ∈ due.insertionSort older := by
      rw [List.mem_insertionSort, List.mem_filter]
      exact ⟨hd, by simp [hwaits, hdue]⟩
    rw [← List.take_append_drop limit (due.insertionSort older), List.mem_append] at hmem
    rcases hmem with hlisted | hdropped
    · exact .inl hlisted
    · refine .inr fun item hitem => ?_
      rw [← List.take_append_drop limit (due.insertionSort older), List.pairwise_append] at hsorted
      exact hsorted.2.2 item hitem d hdropped

theorem PolicyKept.passStarted (h : s.PolicyKept) {now : Instant}
    (hguard : admissionGuard s (.startPass now) = true) :
    PolicyKept { s with
      passes := s.passes ++ [⟨now, s.store.listDueScheduleOccurrences now 128⟩] } := by
  obtain ⟨hsorted, hlisted⟩ := listDue_spec s.store now 128
  constructor
  · exact h.slots
  · intro p hp hopen job hjob
    rcases List.mem_append.mp hp with hp | hp
    · exact h.left p hp hopen job hjob
    · rw [List.mem_singleton.mp hp]
      exact of_decide_eq_true (List.all_eq_true.mp hguard job hjob)
  · intro p hp job hjob d hd hbehind
    rcases List.mem_append.mp hp with hp | hp
    · exact h.behind p hp job hjob d hd hbehind
    · -- a fresh pass leaves nothing behind
      exfalso
      rw [List.mem_singleton.mp hp, AdmissionPass.leavesBehind_iff, AdmissionPass.leaves_iff] at hbehind
      obtain ⟨⟨-, hwaits, hreaches⟩, hovertakes⟩ := hbehind
      simp only [AdmissionPass.overtakes, Bool.and_eq_true, decide_eq_true_eq,
        List.any_eq_true] at hovertakes
      obtain ⟨hdue, item, hitem, -, holder⟩ := hovertakes
      rcases hlisted d hd hwaits hdue with hmem | hall
      · simp only [AdmissionPass.reaches, List.any_eq_false, decide_eq_true_eq] at hreaches
        exact hreaches d hmem rfl
      · exact absurd (hall item hitem) (not_le.mpr holder)
  · intro p hp
    rcases List.mem_append.mp hp with hp | hp
    · exact h.sorted p hp
    · rw [List.mem_singleton.mp hp]
      exact hsorted

/-- A pass has decided or left its first occurrence. -/
structure PassAdvanced (s t : ScheduleState) (i : ℕ) (now : Instant)
    (item : DurableScheduleOccurrence) (rest : List DurableScheduleOccurrence) : Prop where
  pass : s.passes[i]? = some ⟨now, item :: rest⟩
  passes : t.passes = s.passes.set i ⟨now, rest⟩
  jobs : t.store.jobs = s.store.jobs
  slots : ∀ job ∈ s.store.jobs,
    t.store.runningOccurrences job.id ≤ job.admission.maxConcurrency.val
  /-- No slot is freed. -/
  running : ∀ jobId, s.store.runningOccurrences jobId ≤ t.store.runningOccurrences jobId
  /-- The other passes leave no more than before. -/
  others : ∀ p jobId, t.store.leftWaiting p jobId ≤ s.store.leftWaiting p jobId ∧
    ∀ d ∈ t.store.occurrences, p.leavesBehind jobId d = true →
      ∃ d' ∈ s.store.occurrences, p.leavesBehind jobId d' = true
  /-- What this pass leaves keeps to the policy. -/
  left : ∀ job ∈ s.store.jobs,
    t.store.leftWaiting ⟨now, rest⟩ job.id ≤ job.admission.maxQueue.val
  behind : ∀ job ∈ s.store.jobs, ∀ d ∈ t.store.occurrences,
    (⟨now, rest⟩ : AdmissionPass).leavesBehind job.id d = true → t.store.isFull job = true

theorem PolicyKept.advanced (h : s.PolicyKept) {i : ℕ} {now : Instant}
    {item : DurableScheduleOccurrence} {rest : List DurableScheduleOccurrence}
    (ha : PassAdvanced s t i now item rest) : t.PolicyKept := by
  have hmem := List.mem_of_getElem? ha.pass
  have hfull (job : Job) (hfull : s.store.isFull job = true) : t.store.isFull job = true := by
    rw [Store.isFull, decide_eq_true_eq] at hfull ⊢
    exact hfull.trans (ha.running job.id)
  have hpasses (p : AdmissionPass) (hp : p ∈ t.passes) : p ∈ s.passes ∨ p = ⟨now, rest⟩ := by
    rw [ha.passes] at hp
    exact List.mem_or_eq_of_mem_set hp
  constructor
  · intro job hjob
    exact ha.slots job (ha.jobs ▸ hjob)
  · intro p hp hopen job hjob
    rcases hpasses p hp with hp | rfl
    · exact (ha.others p job.id).1.trans (h.left p hp hopen job (ha.jobs ▸ hjob))
    · exact ha.left job (ha.jobs ▸ hjob)
  · intro p hp job hjob d hd hbehind
    rcases hpasses p hp with hp | rfl
    · obtain ⟨d', hd', hbehind'⟩ := (ha.others p job.id).2 d hd hbehind
      exact hfull job (h.behind p hp job (ha.jobs ▸ hjob) d' hd' hbehind')
    · exact ha.behind job (ha.jobs ▸ hjob) d hd hbehind
  · intro p hp
    rcases hpasses p hp with hp | rfl
    · exact h.sorted p hp
    · exact (List.pairwise_cons.mp (h.sorted _ hmem)).2

/-- When the pass has just decided its last occurrence, no queue is over-full. -/
theorem PassAdvanced.queue {i : ℕ} {now : Instant} {item : DurableScheduleOccurrence}
    {rest : List DurableScheduleOccurrence} (ha : PassAdvanced s t i now item rest) (j : ℕ)
    (p : AdmissionPass) (hp : t.passes[j]? = some p) (hdone : p.remaining = [])
    (hnew : s.passes[j]? ≠ some p) (job : Job) (hjob : job ∈ t.store.jobs) :
    t.store.waitingOccurrences job.id ≤ job.admission.maxQueue.val := by
  rw [ha.passes] at hp
  by_cases hj : j = i
  · subst hj
    have hlt : j < s.passes.length := (List.getElem?_eq_some_iff.mp ha.pass).1
    rw [List.getElem?_set_self hlt, Option.some.injEq] at hp
    subst hp
    have hdone : rest = [] := hdone
    subst hdone
    have hleft := ha.left job (ha.jobs ▸ hjob)
    rwa [leftWaiting_nil] at hleft
  · rw [List.getElem?_set_ne (Ne.symm hj)] at hp
    exact absurd hp hnew

/-- The pass goes on, and the occurrence at its head does not wait any more. -/
theorem PolicyKept.passAdvanced_of_settled (hs : s.Sound) (h : s.PolicyKept) {i : ℕ}
    {now : Instant} {item d : DurableScheduleOccurrence} {rest : List DurableScheduleOccurrence}
    (hpass : s.passes[i]? = some ⟨now, item :: rest⟩)
    (hpasses : t.passes = s.passes.set i ⟨now, rest⟩) (hjobs : t.store.jobs = s.store.jobs)
    (found : s.store.findOccurrence item.key = some d)
    {f : DurableScheduleOccurrence → DurableScheduleOccurrence}
    (hoccs : t.store.occurrences = (s.store.setOccurrence item.key f).occurrences)
    (hsettled : (f d).state.isWaiting = false)
    (hslots : ∀ job ∈ s.store.jobs,
      t.store.runningOccurrences job.id ≤ job.admission.maxConcurrency.val)
    (hrunning : ∀ jobId, s.store.runningOccurrences jobId ≤ t.store.runningOccurrences jobId) :
    PassAdvanced s t i now item rest := by
  obtain ⟨hmem, hdkey⟩ := Store.findOccurrence_mem found
  have hnever (p : AdmissionPass) (jobId : JobId) : p.leaves jobId (f d) = false := by
    rw [Bool.eq_false_iff]
    intro hleaves
    rw [(AdmissionPass.leaves_iff.mp hleaves).2.1] at hsettled
    cases hsettled
  have hrow (d' : DurableScheduleOccurrence) (hd' : d' ∈ s.store.occurrences)
      (hkey : d'.key = item.key) : d' = d :=
    hs.store.occurrenceKeys.eq_of_key hd' hmem (hkey.trans hdkey.symm)
  -- whatever is left now was there before, under another key
  have hold (d' : DurableScheduleOccurrence) (hd' : d' ∈ t.store.occurrences)
      (p : AdmissionPass) (jobId : JobId) (hleaves : p.leaves jobId d' = true) :
      d' ∈ s.store.occurrences ∧ d'.key ≠ item.key := by
    rw [hoccs] at hd'
    rcases (hs.store.mem_setOccurrence found f).mp hd' with rfl | hd'
    · rw [hnever] at hleaves
      cases hleaves
    · exact hd'
  have hle (p q : AdmissionPass) (jobId : JobId)
      (hpq : ∀ d, d.key ≠ item.key → p.leaves jobId d = true → q.leaves jobId d = true) :
      t.store.leftWaiting p jobId ≤ s.store.leftWaiting q jobId := by
    refine leftWaiting_setOccurrence_le hoccs (fun d' hd' hkey hleaves => ?_)
      fun d' _ hne hleaves => hpq d' hne hleaves
    rw [hrow d' hd' hkey, hnever] at hleaves
    cases hleaves
  have hmem₀ := List.mem_of_getElem? hpass
  refine ⟨hpass, hpasses, hjobs, hslots, hrunning, fun p jobId => ⟨?_, ?_⟩, ?_, ?_⟩
  · exact hle p p jobId fun _ _ h => h
  · intro d' hd' hbehind
    have hleaves := (AdmissionPass.leavesBehind_iff.mp hbehind).1
    exact ⟨d', (hold d' hd' p jobId hleaves).1, hbehind⟩
  · intro job hjob
    refine (hle _ ⟨now, item :: rest⟩ job.id fun d' hne hleaves => ?_).trans
      (h.left _ hmem₀ (by simp) job hjob)
    exact AdmissionPass.leaves_of_rest hleaves hne
  · intro job hjob d' hd' hbehind
    obtain ⟨hleaves, hovertakes⟩ := AdmissionPass.leavesBehind_iff.mp hbehind
    obtain ⟨hd', hne⟩ := hold d' hd' _ _ hleaves
    have hfull := h.behind _ hmem₀ job hjob d' hd' (AdmissionPass.leavesBehind_iff.mpr
      ⟨AdmissionPass.leaves_of_rest hleaves hne, AdmissionPass.overtakes_cons _ hovertakes⟩)
    rw [Store.isFull, decide_eq_true_eq] at hfull ⊢
    exact hfull.trans (hrunning job.id)

/-- The pass goes on and leaves its first occurrence as it is. -/
theorem PolicyKept.passAdvanced_of_left (hs : s.Sound) (h : s.PolicyKept) {i : ℕ} {now : Instant}
    {item : DurableScheduleOccurrence} {rest : List DurableScheduleOccurrence}
    (hpass : s.passes[i]? = some ⟨now, item :: rest⟩)
    (hpasses : t.passes = s.passes.set i ⟨now, rest⟩) (hstore : t.store = s.store)
    (hleave : ∀ d, s.store.findOccurrence item.key = some d → d.state.isWaiting = true →
      s.store.mayLeave ⟨now, item :: rest⟩ d.jobId d.occurrence.scheduledAt d.nextAttemptAt =
        true) :
    PassAdvanced s t i now item rest := by
  have hmem₀ := List.mem_of_getElem? hpass
  have hfound (d : DurableScheduleOccurrence) (hd : d ∈ s.store.occurrences)
      (hkey : d.key = item.key) : s.store.findOccurrence item.key = some d := by
    rw [← hkey]
    exact hs.store.occurrenceKeys.find_of_mem hd
  refine ⟨hpass, hpasses, by rw [hstore], by rw [hstore]; exact h.slots, by simp [hstore],
    fun p jobId => ?_, fun job hjob => ?_, fun job hjob d hd hbehind => ?_⟩
  · rw [hstore]
    exact ⟨le_rfl, fun d hd hbehind => ⟨d, hd, hbehind⟩⟩
  · rw [hstore]
    have hleft := h.left _ hmem₀ (by simp) job hjob
    by_cases hrow : ∃ d, s.store.findOccurrence item.key = some d ∧ d.state.isWaiting = true ∧
        d.jobId = job.id
    · -- at most the occurrence at the head is left in addition
      obtain ⟨d, hfind, hwaits, hid⟩ := hrow
      have hroom := (mayLeave_iff.mp (hleave d hfind hwaits)).1 job hjob hid.symm
      rw [hid] at hroom
      have hsucc : s.store.leftWaiting ⟨now, rest⟩ job.id ≤
          s.store.leftWaiting ⟨now, item :: rest⟩ job.id + 1 := by
        apply hs.store.occurrenceKeys.countP_le_succ (k := item.key)
        intro d' _ hleaves
        by_cases hkey : d'.key = item.key
        · exact .inr hkey
        · exact .inl (AdmissionPass.leaves_of_rest hleaves hkey)
      omega
    · refine le_trans (List.countP_mono_left fun d hd hleaves => ?_) hleft
      apply AdmissionPass.leaves_of_rest hleaves
      intro hkey
      obtain ⟨hid, hwaits, -⟩ := AdmissionPass.leaves_iff.mp hleaves
      exact hrow ⟨d, hfound d hd hkey, hwaits, hid⟩
  · rw [hstore] at hd ⊢
    obtain ⟨hleaves, hovertakes⟩ := AdmissionPass.leavesBehind_iff.mp hbehind
    have hovertakes := AdmissionPass.overtakes_cons item hovertakes
    by_cases hkey : d.key = item.key
    · obtain ⟨hid, hwaits, -⟩ := AdmissionPass.leaves_iff.mp hleaves
      rw [← hid] at hovertakes
      exact (mayLeave_iff.mp (hleave d (hfound d hd hkey) hwaits)).2 hovertakes job hjob hid.symm
    · exact h.behind _ hmem₀ job hjob d hd (AdmissionPass.leavesBehind_iff.mpr
        ⟨AdmissionPass.leaves_of_rest hleaves hkey, hovertakes⟩)

/-- The pass goes on after it has queued its first occurrence: every slot is
taken, and the queue is within its bound. -/
theorem PolicyKept.passAdvanced_of_queued (hs : s.Sound) (h : s.PolicyKept) {i : ℕ}
    {now : Instant} {item d : DurableScheduleOccurrence} {rest : List DurableScheduleOccurrence}
    (hpass : s.passes[i]? = some ⟨now, item :: rest⟩)
    (hpasses : t.passes = s.passes.set i ⟨now, rest⟩)
    (found : s.store.findOccurrence item.key = some d) (hwaits : d.state.isWaiting = true)
    (hstore : t.store = s.store.setOccurrence item.key fun d => { d with state := .queued })
    {job : Job} (hjob : job ∈ s.store.jobs) (hid : job.id = d.jobId)
    (hfull : job.admission.maxConcurrency.val ≤ s.store.runningOccurrences job.id)
    (hroom : s.store.waitingOccurrences job.id ≤ job.admission.maxQueue.val) :
    PassAdvanced s t i now item rest := by
  obtain ⟨hmem, hdkey⟩ := Store.findOccurrence_mem found
  have hmem₀ := List.mem_of_getElem? hpass
  have hoccs : t.store.occurrences =
      (s.store.setOccurrence item.key fun d => { d with state := .queued }).occurrences := by
    rw [hstore]
  have hrow (d' : DurableScheduleOccurrence) (hd' : d' ∈ s.store.occurrences)
      (hkey : d'.key = item.key) : d' = d :=
    hs.store.occurrenceKeys.eq_of_key hd' hmem (hkey.trans hdkey.symm)
  have hsame (p : AdmissionPass) (jobId : JobId)
      (hleaves : p.leaves jobId { d with state := .queued } = true) : p.leaves jobId d = true := by
    rw [AdmissionPass.leaves_iff] at hleaves ⊢
    exact ⟨hleaves.1, hwaits, hleaves.2.2⟩
  have hrunning (jobId : JobId) :
      t.store.runningOccurrences jobId = s.store.runningOccurrences jobId := by
    have hcount := runningOccurrences_setOccurrence jobId hs.store found hoccs rfl
    have hidle : d.state ≠ .running := by
      intro hstate
      rw [hstate] at hwaits
      cases hwaits
    simpa [hidle] using hcount
  refine ⟨hpass, hpasses, by rw [hstore]; rfl, fun job' hjob' => ?_, fun jobId => (hrunning jobId).ge,
    fun p jobId => ⟨?_, fun d' hd' hbehind => ?_⟩, fun job' hjob' => ?_,
    fun job' hjob' d' hd' hbehind => ?_⟩
  · rw [hrunning]
    exact h.slots job' hjob'
  · refine leftWaiting_setOccurrence_le hoccs (fun d' hd' hkey hleaves => ?_) fun _ _ _ h => h
    rw [hrow d' hd' hkey] at hleaves ⊢
    exact hsame p jobId hleaves
  · rw [hoccs] at hd'
    rcases (hs.store.mem_setOccurrence found _).mp hd' with rfl | ⟨hd', -⟩
    · obtain ⟨hleaves, hovertakes⟩ := AdmissionPass.leavesBehind_iff.mp hbehind
      exact ⟨d, hmem, AdmissionPass.leavesBehind_iff.mpr ⟨hsame p jobId hleaves, hovertakes⟩⟩
    · exact ⟨d', hd', hbehind⟩
  · by_cases hjobs : job'.id = job.id
    · rw [job_eq_of_id hs.store hjob' hjob hjobs]
      refine le_trans ?_ hroom
      rw [Store.leftWaiting, hoccs]
      refine KeyedRows.countP_update_le (fun d' hd' hkey hleaves => ?_) fun d' _ _ hleaves => ?_
      · rw [hrow d' hd' hkey]
        simp [hid, hwaits]
      · obtain ⟨hid', hwaits', -⟩ := AdmissionPass.leaves_iff.mp hleaves
        simp [hid', hwaits']
    · -- the decided occurrence is of another job
      refine (leftWaiting_setOccurrence_le (q := ⟨now, item :: rest⟩) hoccs
        (fun d' hd' hkey hleaves => ?_) fun d' _ hne hleaves => ?_).trans
          (h.left _ hmem₀ (by simp) job' hjob')
      · rw [hrow d' hd' hkey] at hleaves
        have hid' : d.jobId = job'.id := (AdmissionPass.leaves_iff.mp hleaves).1
        exact absurd (hid'.symm.trans hid.symm) hjobs
      · exact AdmissionPass.leaves_of_rest hleaves hne
  · obtain ⟨hleaves, hovertakes⟩ := AdmissionPass.leavesBehind_iff.mp hbehind
    rw [Store.isFull, decide_eq_true_eq, hrunning]
    rw [hoccs] at hd'
    rcases (hs.store.mem_setOccurrence found _).mp hd' with rfl | ⟨hd', hne⟩
    · have hid' : d.jobId = job'.id := (AdmissionPass.leaves_iff.mp hleaves).1
      rw [job_eq_of_id hs.store hjob' hjob (hid'.symm.trans hid.symm)]
      exact hfull
    · have hbehind := h.behind _ hmem₀ job' hjob' d' hd' (AdmissionPass.leavesBehind_iff.mpr
        ⟨AdmissionPass.leaves_of_rest hleaves hne, AdmissionPass.overtakes_cons _ hovertakes⟩)
      rwa [Store.isFull, decide_eq_true_eq] at hbehind

theorem item_key {item : DurableScheduleOccurrence} {job : Job} (hid : job.id = item.jobId) :
    item.occurrence.key job.id = item.key := by
  rw [hid]
  rfl

theorem admitted_passes (job : Job) (runId : JobRunId) (store : Store)
    (answer : ScheduleAdmission) :
    (s.admitted job runId store answer).passes = s.passes ∧
      (s.admitted job runId store answer).store = store := by
  cases answer <;> exact ⟨rfl, rfl⟩

/-- An answered admission keeps to the policy: a run starts in a free slot, and
the queue takes an occurrence while it has room. -/
theorem PolicyKept.admitted (hs : s.Sound) (h : s.PolicyKept) {i : ℕ} {now : Instant}
    {item : DurableScheduleOccurrence} {rest : List DurableScheduleOccurrence} {runId : JobRunId}
    {job : Job} {answer : ScheduleAdmission} {store : Store}
    (hpass : s.passes[i]? = some ⟨now, item :: rest⟩)
    (hjob : s.store.getJob item.jobName = some job) (hid : job.id = item.jobId)
    (hstep : Store.AdmissionStep s.store job item.occurrence now runId answer store) :
    PassAdvanced s ((s.admitted job runId store answer).setPass i ⟨now, rest⟩) i now item rest := by
  obtain ⟨hjobMem, -⟩ := Store.getJob_mem hjob
  obtain ⟨hpasses, hstore⟩ := admitted_passes (s := s) job runId store answer
  have hpasses : ((s.admitted job runId store answer).setPass i ⟨now, rest⟩).passes =
      s.passes.set i ⟨now, rest⟩ := by
    rw [setPass_passes, hpasses]
  have hstore : ((s.admitted job runId store answer).setPass i ⟨now, rest⟩).store = store := hstore
  have hkey := item_key hid
  -- a settled occurrence is not counted by any pass
  have hdecided {d : DurableScheduleOccurrence}
      {f : DurableScheduleOccurrence → DurableScheduleOccurrence} {state : JobRunState}
      {endedAt : Option Instant} (found : s.store.findOccurrence item.key = some d)
      (hinsert : (s.store.setOccurrence item.key f).insertRun
        (Store.occurrenceRun job item.occurrence runId state endedAt) = .ok store)
      (hsettled : (f d).state.isWaiting = false) (hsame : (f d).jobId = d.jobId)
      (hwaits : d.state.isWaiting = true)
      (hfree : (f d).state = .running →
        s.store.runningOccurrences job.id < job.admission.maxConcurrency.val) :
      PassAdvanced s ((s.admitted job runId store answer).setPass i ⟨now, rest⟩) i now item
        rest := by
    obtain ⟨-, -, -, heq⟩ := Store.insertRun_ok hinsert
    have hoccs : store.occurrences = (s.store.setOccurrence item.key f).occurrences := by rw [heq]
    have hdid : d.jobId = job.id := by
      rw [hid]
      exact congrArg OccurrenceKey.jobId (Store.findOccurrence_mem found).2
    have hidle : d.state ≠ .running := by
      intro hstate
      rw [hstate] at hwaits
      cases hwaits
    have hrunning (jobId : JobId) : store.runningOccurrences jobId =
        s.store.runningOccurrences jobId +
          (if d.jobId = jobId ∧ (f d).state = .running then 1 else 0) := by
      have hcount := runningOccurrences_setOccurrence jobId hs.store found hoccs hsame
      simpa [hidle] using hcount
    refine h.passAdvanced_of_settled hs hpass hpasses ?_ found (by rw [hstore]; exact hoccs) hsettled
      (fun job' hjob' => ?_) fun jobId => ?_
    · rw [hstore, heq]
      rfl
    · rw [hstore, hrunning]
      split
      · rename_i hstart
        rw [job_eq_of_id hs.store hjob' hjobMem (hstart.1.symm.trans hdid)]
        exact hfree hstart.2
      · exact h.slots job' hjob'
    · rw [hstore, hrunning]
      exact Nat.le_add_right _ _
  have hleft {d : DurableScheduleOccurrence} (found : s.store.findOccurrence item.key = some d)
      (hstate : d.state.isWaiting = false) (heq : store = s.store) :
      PassAdvanced s ((s.admitted job runId store answer).setPass i ⟨now, rest⟩) i now item
        rest := by
    refine h.passAdvanced_of_left hs hpass hpasses (hstore.trans heq) fun d' found' hwaits => ?_
    rw [found, Option.some.injEq] at found'
    rw [← found', hstate] at hwaits
    cases hwaits
  cases hstep with
  | settled found hstate =>
    rw [hkey] at found
    exact hleft found (by rw [hstate]; rfl) rfl
  | already found hstate =>
    rw [hkey] at found
    exact hleft found (by rw [hstate]; rfl) rfl
  | @queued d found hwaits hfull hroom =>
    rw [hkey] at found
    have hdid : d.jobId = item.jobId := congrArg OccurrenceKey.jobId (Store.findOccurrence_mem found).2
    exact h.passAdvanced_of_queued hs hpass hpasses found hwaits (by rw [hstore, hkey]) hjobMem
      (hid.trans hdid.symm) hfull hroom
  | skipped found hwaits hfull hover hinsert =>
    rw [hkey] at found hinsert
    exact hdecided found hinsert rfl rfl hwaits fun h => by cases h
  | started found hwaits hfree hinsert =>
    rw [hkey] at found hinsert
    exact hdecided found hinsert rfl rfl hwaits fun _ => hfree

/-- A pass reads the stored job of a listed occurrence that is still there. -/
theorem Sound.getJob_item (hs : s.Sound) {i : ℕ} {now : Instant}
    {item d : DurableScheduleOccurrence} {rest : List DurableScheduleOccurrence}
    (hpass : s.passes[i]? = some ⟨now, item :: rest⟩)
    (found : s.store.findOccurrence item.key = some d) :
    ∃ job, s.store.getJob item.jobName = some job ∧ job.id = item.jobId := by
  obtain ⟨hd, hkey⟩ := Store.findOccurrence_mem found
  have hid : d.jobId = item.jobId := congrArg OccurrenceKey.jobId hkey
  have hdjob := hs.store.occurrenceJob d hd
  rw [hid] at hdjob
  obtain ⟨-, hrow⟩ := hs.passes _ (List.mem_of_getElem? hpass) item List.mem_cons_self
  obtain ⟨hname, -⟩ := hrow d.jobName hdjob
  obtain ⟨job, hjob, hjobName, hjobId⟩ := Store.hasJob_iff.mp hdjob
  refine ⟨job, ?_, hjobId⟩
  rw [← hname, ← hjobName]
  exact hs.store.jobNames.find_of_mem hjob

/-- An admission fails on a waiting occurrence only if its attempt row is there. -/
theorem admit_error {job : Job} {occurrence : ScheduleOccurrence} {now : Instant}
    {runId : JobRunId} {e : RepoError} {d : DurableScheduleOccurrence} (hjob : job ∈ s.store.jobs)
    (hfresh : s.store.findRun runId = none)
    (found : s.store.findOccurrence (occurrence.key job.id) = some d)
    (herror : s.store.admitScheduleOccurrence job occurrence now runId = .error e) :
    s.store.hasAttempt job occurrence = true := by
  by_contra hattempt
  have hattempt : s.store.hasAttempt job occurrence = false := by simpa using hattempt
  have hinsert (f : DurableScheduleOccurrence → DurableScheduleOccurrence) (state : JobRunState)
      (endedAt : Option Instant) :
      ∃ u, (s.store.setOccurrence (occurrence.key job.id) f).insertRun
        (Store.occurrenceRun job occurrence runId state endedAt) = .ok u := by
    have hjob' : s.store.hasJob job.name job.id = true :=
      Store.hasJob_iff.mpr ⟨job, hjob, rfl, rfl⟩
    unfold Store.insertRun
    rw [if_neg, if_neg, if_pos]
    · exact ⟨_, rfl⟩
    · exact hjob'
    · rw [Bool.not_eq_true]
      exact hattempt
    · rw [Bool.not_eq_true, Option.isSome_eq_false_iff, Option.isNone_iff_eq_none]
      exact hfresh
  simp only [Store.admitScheduleOccurrence, found] at herror
  split at herror
  · cases herror
  · split at herror
    · cases herror
    · split at herror
      · split at herror
        · obtain ⟨u, hu⟩ := hinsert (fun d => { d with
            state := .finalized, runId := some runId, finalState := some .skipped }) .skipped
              (some now)
          rw [hu] at herror
          cases herror
        · cases herror
      · obtain ⟨u, hu⟩ := hinsert (fun d => { d with state := .running, runId := some runId })
          .pending none
        rw [hu] at herror
        cases herror

theorem PolicyKept.unanswered (hs : s.Sound) (h : s.PolicyKept) {i : ℕ} {now : Instant}
    {item : DurableScheduleOccurrence} {rest : List DurableScheduleOccurrence} {runId : JobRunId}
    (hpass : s.passes[i]? = some ⟨now, item :: rest⟩) (hfresh : runId ∉ s.drawn)
    (hfail : ∀ job, s.store.getJob item.jobName = some job → job.id = item.jobId →
      ∃ e, s.store.admitScheduleOccurrence job item.occurrence now runId = .error e)
    (hguard : admissionGuard s (.admitNext i runId) = true) :
    PassAdvanced s ({ s with drawn := insert runId s.drawn }.setPass i ⟨now, rest⟩) i now item
      rest := by
  refine h.passAdvanced_of_left hs hpass rfl rfl fun d found hwaits => ?_
  obtain ⟨job, hjob, hid⟩ := hs.getJob_item hpass found
  obtain ⟨hjobMem, -⟩ := Store.getJob_mem hjob
  obtain ⟨e, herror⟩ := hfail job hjob hid
  have hrun : s.store.findRun runId = none := by
    rw [Store.findRun, KeyedRows.find_eq_none]
    intro row hrow hrowId
    exact hfresh (hrowId ▸ hs.store.runDrawn row hrow)
  have hattempt := admit_error hjobMem hrun (by rw [item_key hid]; exact found) herror
  have hdid : d.jobId = item.jobId := congrArg OccurrenceKey.jobId (Store.findOccurrence_mem found).2
  obtain ⟨-, hleave⟩ := of_decide_eq_true hguard _ hpass item rfl d found hwaits
  have hleave := List.all_eq_true.mp hleave job hjobMem
  rw [hattempt] at hleave
  simpa [hid, hdid] using hleave

theorem PolicyKept.passedOver (hs : s.Sound) (h : s.PolicyKept) {i : ℕ} {now : Instant}
    {item : DurableScheduleOccurrence} {rest : List DurableScheduleOccurrence}
    (hpass : s.passes[i]? = some ⟨now, item :: rest⟩)
    (hguard : admissionGuard s (.passOver i) = true) :
    PassAdvanced s (s.setPass i ⟨now, rest⟩) i now item rest :=
  h.passAdvanced_of_left hs hpass rfl rfl fun d found hwaits =>
    of_decide_eq_true hguard _ hpass item rfl d found hwaits

/-- The run of an occurrence ends while no pass has left an older one behind. -/
theorem PolicyKept.attemptFinalized (hs : s.Sound) (h : s.PolicyKept) {r : JobRunId} {job : Job}
    {run : JobRun} {now : Instant} {answer : ScheduleFinalization} {store : Store}
    (htask : s.runners r = some ⟨job, run, .committed⟩)
    (hstep : Store.FinalizationStep s.store job run now answer store)
    (hguard : admissionGuard s (.finalizeAttempt r now) = true) :
    PolicyKept ({ s with store }.setRunner r none) := by
  have hrunId : run.runId = r := (hs.runners r _ htask).runId
  have hgone {o : ScheduleOccurrence} {d : DurableScheduleOccurrence}
      {f : DurableScheduleOccurrence → DurableScheduleOccurrence} (hocc : run.occurrence = some o)
      (found : s.store.findOccurrence (o.key job.id) = some d) (hkey : (f d).key = d.key)
      (hidle : (f d).state ≠ .running)
      (hleft : ∀ p ∈ s.passes, p.remaining ≠ [] → p.leaves d.jobId (f d) = true →
        s.store.hasRoom p d.jobId = true ∧ p.leavesBehind d.jobId (f d) = false) :
      PolicyKept ({ s with store := s.store.setOccurrence (o.key job.id) f }.setRunner r none) := by
    obtain ⟨hmem, hdkey⟩ := Store.findOccurrence_mem found
    have hsame : (f d).jobId = d.jobId := congrArg OccurrenceKey.jobId hkey
    have hrow (d' : DurableScheduleOccurrence) (hd' : d' ∈ s.store.occurrences)
        (hkey' : d'.key = o.key job.id) : d' = d :=
      hs.store.occurrenceKeys.eq_of_key hd' hmem (hkey'.trans hdkey.symm)
    have hcount (jobId : JobId) := runningOccurrences_setOccurrence jobId hs.store found
      (t := s.store.setOccurrence (o.key job.id) f) rfl hsame
    have hquiet (p : AdmissionPass) (hp : p ∈ s.passes) (d' : DurableScheduleOccurrence)
        (hd' : d' ∈ s.store.occurrences) : ¬p.leavesBehind d.jobId d' = true :=
      List.any_eq_false.mp (of_decide_eq_true hguard _ htask o hocc d found p hp).1 d' hd'
    constructor
    · intro job' hjob'
      have hcount := hcount job'.id
      have hslots := h.slots job' hjob'
      simp only [hidle, and_false, if_false] at hcount
      change (s.store.setOccurrence (o.key job.id) f).runningOccurrences job'.id ≤ _
      omega
    · intro p hp hopen job' hjob'
      have hleft' := h.left p hp hopen job' hjob'
      by_cases hleaves : p.leaves job'.id (f d) = true
      · -- a retry that the pass does not reach takes room in the queue
        have hid : d.jobId = job'.id := hsame.symm.trans (AdmissionPass.leaves_iff.mp hleaves).1
        have hroom := (hleft p hp hopen (hid ▸ hleaves)).1
        rw [Store.hasRoom, List.all_eq_true] at hroom
        have hroom := hroom job' hjob'
        rw [hid] at hroom
        simp only [ne_eq, not_true_eq_false, decide_false, Bool.false_or,
          decide_eq_true_eq] at hroom
        have hcount := hs.store.occurrenceKeys.countP_update (f := f) (p.leaves job'.id) found
        rw [if_pos hleaves] at hcount
        change List.countP _ (KeyedRows.update _ _ f _) ≤ _
        change List.countP _ _ < _ at hroom
        omega
      · refine le_trans (leftWaiting_setOccurrence_le (q := p) rfl
          (fun d' hd' hkey' hleaves' => ?_) fun _ _ _ h => h) hleft'
        rw [hrow d' hd' hkey'] at hleaves'
        exact absurd hleaves' hleaves
    · intro p hp job' hjob' d' hd' hbehind
      have hd' : d' ∈ (s.store.setOccurrence (o.key job.id) f).occurrences := hd'
      by_cases hid : d.jobId = job'.id
      · exfalso
        rw [← hid] at hbehind
        rcases (hs.store.mem_setOccurrence found f).mp hd' with rfl | ⟨hd', -⟩
        · obtain ⟨hleaves, hovertakes⟩ := AdmissionPass.leavesBehind_iff.mp hbehind
          have hopen : p.remaining ≠ [] := by
            intro hnil
            simp [AdmissionPass.overtakes, hnil] at hovertakes
          rw [(hleft p hp hopen hleaves).2] at hbehind
          cases hbehind
        · exact hquiet p hp d' hd' hbehind
      · have hcount := hcount job'.id
        simp only [hid, false_and, if_false, Nat.add_zero] at hcount
        change (s.store.setOccurrence (o.key job.id) f).isFull job' = true
        rw [Store.isFull, hcount]
        rcases (hs.store.mem_setOccurrence found f).mp hd' with rfl | ⟨hd', -⟩
        · obtain ⟨hleaves, -⟩ := AdmissionPass.leavesBehind_iff.mp hbehind
          exact absurd (hsame.symm.trans (AdmissionPass.leaves_iff.mp hleaves).1) hid
        · exact h.behind p hp job' hjob' d' hd' hbehind
    · exact h.sorted
  cases hstep with
  | @retry o d retryAt hretryAt hocc found howner hfailed hmore =>
    refine hgone hocc found rfl (by simp) fun p hp hopen hleaves => ?_
    have hguard := (of_decide_eq_true hguard _ htask o hocc d found p hp).2 hfailed hmore
    obtain ⟨-, -, hreaches⟩ := AdmissionPass.leaves_iff.mp hleaves
    have hreaches : p.reaches d = false := hreaches
    rcases hguard with hnil | hreached | ⟨hroom, hovertakes⟩
    · exact absurd hnil hopen
    · rw [hreaches] at hreached
      cases hreached
    · refine ⟨hroom, ?_⟩
      rw [← hrunId, ← hretryAt] at hovertakes
      rw [AdmissionPass.leavesBehind, Bool.and_eq_false_iff]
      exact .inr hovertakes
  | final hocc found howner hlast =>
    refine hgone hocc found rfl (by simp) fun p hp hopen hleaves => ?_
    cases (AdmissionPass.leaves_iff.mp hleaves).2.1

theorem PolicyKept.recovered (hs : s.Sound) (hbooting : s.booting = true)
    (now : Instant) : PolicyKept
      { s with store := s.store.recoverScheduleOccurrences now, booting := false } := by
  have hnone : s.passes = [] := (hs.idle hbooting).1
  constructor
  · intro job hjob
    have hzero : (s.store.recoverScheduleOccurrences now).runningOccurrences job.id = 0 := by
      rw [Store.runningOccurrences, List.countP_eq_zero]
      intro d' hd'
      obtain ⟨d, -, ⟨-, rfl⟩ | ⟨hidle, rfl⟩⟩ := Store.mem_recover.mp hd'
      · simp
      · simp [hidle]
    exact hzero.le.trans (Nat.zero_le _)
  · intro p hp
    rw [show p ∈ s.passes ↔ False by simp [hnone]] at hp
    exact hp.elim
  · intro p hp
    rw [show p ∈ s.passes ↔ False by simp [hnone]] at hp
    exact hp.elim
  · intro p hp
    rw [show p ∈ s.passes ↔ False by simp [hnone]] at hp
    exact hp.elim

/-- What a permitted event does to the passes. -/
inductive PassesMove (s : ScheduleState) (e : ScheduleEvent) (t : ScheduleState) : Prop
  | same (hpasses : t.passes = s.passes)
  | advanced {i now item rest} (ha : PassAdvanced s t i now item rest)
  | started {now} (he : e = .startPass now) (hstore : t.store = s.store)
    (hpasses : t.passes =
      s.passes ++ [⟨now, s.store.listDueScheduleOccurrences now 128⟩])
  | ended (hpasses : t.passes = [])

theorem PolicyKept.step (hs : s.Sound) (h : s.PolicyKept) {e : ScheduleEvent}
    (hguard : admissionGuard s e = true) (hstep : s.Stepped e t) :
    t.PolicyKept ∧ PassesMove s e t := by
  have hsame (job : Job) (hjob : job ∈ s.store.jobs) :
      ∃ old ∈ s.store.jobs, old.id = job.id ∧ old.admission = job.admission :=
    ⟨job, hjob, rfl, rfl⟩
  cases hstep with
  | @jobReplaced job old hold =>
    refine ⟨h.of_ledger_eq ?_ (fun job' hjob' => ?_) fun _ hp => hp, .same rfl⟩
    · simp only [Store.saveJob, hold]
    · -- the new definition has the id and the policy of the old one
      have hadmission := of_decide_eq_true hguard old hold
      simp only [Store.saveJob, hold] at hjob'
      rcases (hs.store.jobNames.mem_update_iff hold).mp hjob' with rfl | ⟨hjob', -⟩
      · exact ⟨old, (Store.getJob_mem hold).1, rfl, hadmission.symm⟩
      · exact hsame job' hjob'
  | jobAdded hnone hfresh => exact ⟨h.jobAdded hs hnone hfresh, .same rfl⟩
  | jobDeleted => exact ⟨h.jobDeleted hs _, .same rfl⟩
  | claimed _ hclaim => exact ⟨h.claimed hclaim hguard, .same rfl⟩
  | passStarted _ => exact ⟨h.passStarted hguard, .started rfl rfl rfl⟩
  | admitted hpass _ hjob hid hstep =>
    have ha := h.admitted hs hpass hjob hid hstep
    exact ⟨h.advanced ha, .advanced ha⟩
  | unanswered hpass hfresh hfail =>
    have ha := h.unanswered hs hpass hfresh hfail hguard
    exact ⟨h.advanced ha, .advanced ha⟩
  | passedOver hpass =>
    have ha := h.passedOver hs hpass hguard
    exact ⟨h.advanced ha, .advanced ha⟩
  | runnerRunning _ hsave =>
    refine ⟨h.of_ledger_eq ?_ ?_ fun _ hp => hp, .same rfl⟩
    · rcases hsave with hsave | rfl
      · exact (Store.saveRun_ok hsave).2.1
      · rfl
    · rcases hsave with hsave | rfl
      · obtain ⟨hjobs, -⟩ := Store.saveRun_ok hsave
        exact fun job hjob => hsame job (hjobs ▸ hjob)
      · exact hsame
  | runnerEnded => exact ⟨h.of_ledger_eq rfl hsame fun _ hp => hp, .same rfl⟩
  | runnerCommitted _ hcommit =>
    exact ⟨h.of_ledger_eq hcommit.occurrences (fun job hjob => hsame job (hcommit.jobs ▸ hjob))
      fun _ hp => hp, .same rfl⟩
  | attemptFinalized htask hstep => exact ⟨h.attemptFinalized hs htask hstep hguard, .same rfl⟩
  | attemptUnsettled | finalizeFailed =>
    exact ⟨h.of_ledger_eq rfl hsame fun _ hp => hp, .same rfl⟩
  | runnerGone _ hjobs _ hoccs =>
    exact ⟨h.of_ledger_eq hoccs (fun job hjob => hsame job (hjobs ▸ hjob)) fun _ hp => hp, .same rfl⟩
  | cleanupFinished _ _ hcommit =>
    exact ⟨h.of_ledger_eq hcommit.occurrences (fun job hjob => hsame job (hcommit.jobs ▸ hjob))
      fun _ hp => hp, .same rfl⟩
  | runsPruned =>
    obtain ⟨hjobs, hoccs, -⟩ := s.store.pruneRuns_spec _ _ _
    exact ⟨h.of_ledger_eq hoccs (fun job hjob => hsame job (hjobs ▸ hjob)) fun _ hp => hp, .same rfl⟩
  | otherCommitted _ _ _ _ hcommit =>
    exact ⟨h.of_ledger_eq hcommit.occurrences (fun job hjob => hsame job (hcommit.jobs ▸ hjob))
      fun _ hp => hp, .same rfl⟩
  | otherSaved _ _ _ _ hsave =>
    obtain ⟨hjobs, hoccs, -⟩ := Store.saveRun_ok hsave
    exact ⟨h.of_ledger_eq hoccs (fun job hjob => hsame job (hjobs ▸ hjob)) fun _ hp => hp, .same rfl⟩
  | crashed =>
    exact ⟨h.of_ledger_eq rfl hsame fun _ hp => (by cases hp), .ended rfl⟩
  | recovered hbooting => exact ⟨PolicyKept.recovered hs hbooting _, .same rfl⟩
  | aside hjobs _ hoccs =>
    exact ⟨h.of_ledger_eq hoccs (fun job hjob => hsame job (hjobs ▸ hjob)) fun _ hp => hp, .same rfl⟩

theorem PassesMove.queue {e : ScheduleEvent} (hmove : PassesMove s e t)
    (hguard : admissionGuard s e = true) (i : ℕ) (p : AdmissionPass) (hp : t.passes[i]? = some p)
    (hdone : p.remaining = []) (hnew : s.passes[i]? ≠ some p) (job : Job)
    (hjob : job ∈ t.store.jobs) :
    t.store.waitingOccurrences job.id ≤ job.admission.maxQueue.val := by
  cases hmove with
  | same hpasses =>
    rw [hpasses] at hp
    exact absurd hp hnew
  | advanced ha => exact ha.queue i p hp hdone hnew job hjob
  | @started now he hstore hpasses =>
    subst he
    rw [hpasses, List.getElem?_append] at hp
    split at hp
    · exact absurd hp hnew
    · -- the new pass lists nothing, so every waiting occurrence is left out
      have hlisted := List.mem_of_getElem? hp
      rw [List.mem_singleton] at hlisted
      subst hlisted
      have hdone : s.store.listDueScheduleOccurrences now 128 = [] := hdone
      rw [hstore] at hjob ⊢
      have hleft := of_decide_eq_true (List.all_eq_true.mp hguard job hjob)
      rwa [hdone, leftWaiting_nil] at hleft
  | ended hpasses =>
    rw [hpasses] at hp
    cases hp

/-- The occurrence that starts is the oldest of its job that is due. -/
theorem PolicyKept.order (hs : s.Sound) (h : s.PolicyKept) {i : ℕ} {runId : JobRunId}
    (hstep : scheduleSystem.step s (.admitNext i runId) = some t) {p : AdmissionPass}
    (hp : s.passes[i]? = some p) {d : DurableScheduleOccurrence} (hd : d ∈ t.store.occurrences)
    (hrunId : d.runId = some runId) (hrunning : d.state = .running)
    {d' : DurableScheduleOccurrence} (hd' : d' ∈ t.store.occurrences) (hjob' : d'.jobId = d.jobId)
    (hwaits' : d'.state.isWaiting = true) (hdue : d'.nextAttemptAt ≤ p.now) :
    d.occurrence.scheduledAt ≤ d'.occurrence.scheduledAt := by
  simp only [scheduleSystem, ScheduleState.step] at hstep
  split at hstep
  · rename_i _ now item rest hpass
    rw [hp, Option.some.injEq] at hpass
    subst hpass
    split at hstep
    · cases hstep
    · rename_i hfresh
      cases hstep
      have hold (a : DurableScheduleOccurrence) (ha : a ∈ s.store.occurrences)
          (har : a.runId = some runId) : False := hfresh (hs.store.occurrenceDrawn a ha runId har)
      rcases admitDurable_cases s item now runId with
        ⟨job, answer, store, hjob, hid, hok, heq⟩ | ⟨-, heq⟩
      · rw [heq, setPass_store, (admitted_passes _ _ _ answer).2] at hd hd'
        obtain ⟨hjobMem, -⟩ := Store.getJob_mem hjob
        have hkey := item_key hid
        cases Store.admitScheduleOccurrence_ok hok with
        | settled | already => exact absurd hrunId fun h => hold d hd h
        | @queued a found =>
          rcases (hs.store.mem_setOccurrence found _).mp hd with rfl | ⟨hd, -⟩
          · cases hrunning
          · exact absurd hrunId fun h => hold d hd h
        | @skipped a _ found _ _ _ hinsert =>
          obtain ⟨-, -, -, rfl⟩ := Store.insertRun_ok hinsert
          rcases (hs.store.mem_setOccurrence found _).mp hd with rfl | ⟨hd, -⟩
          · cases hrunning
          · exact absurd hrunId fun h => hold d hd h
        | @started a _ found _ hfree hinsert =>
          obtain ⟨-, -, -, rfl⟩ := Store.insertRun_ok hinsert
          rcases (hs.store.mem_setOccurrence found _).mp hd with rfl | ⟨hd, -⟩
          · rcases (hs.store.mem_setOccurrence found _).mp hd' with rfl | ⟨hd', hne⟩
            · exact le_rfl
            · rw [hkey] at found hne
              have hakey := (Store.findOccurrence_mem found).2
              have hajob : a.jobId = job.id := by
                rw [hid]
                exact congrArg OccurrenceKey.jobId hakey
              have haold : a.occurrence.scheduledAt = item.occurrence.scheduledAt :=
                congrArg OccurrenceKey.scheduledAt hakey
              have hmem₀ := List.mem_of_getElem? hp
              by_contra hlt
              have hlt : d'.occurrence.scheduledAt < item.occurrence.scheduledAt := by
                rw [← haold]
                exact not_le.mp hlt
              have hjob' : d'.jobId = item.jobId := by
                rw [hjob', ← hid]
                exact hajob
              by_cases hreaches : (⟨now, item :: rest⟩ : AdmissionPass).reaches d' = true
              · -- the pass decides in order of scheduled time
                obtain ⟨item', hitem', hkey'⟩ := List.any_eq_true.mp hreaches
                have hkey' : item'.key = d'.key := of_decide_eq_true hkey'
                rcases List.mem_cons.mp hitem' with rfl | hitem'
                · exact hne hkey'.symm
                · have hle := (List.pairwise_cons.mp (h.sorted _ hmem₀)).1 item' hitem'
                  have hsame : item'.occurrence.scheduledAt = d'.occurrence.scheduledAt :=
                    congrArg OccurrenceKey.scheduledAt hkey'
                  rw [hsame] at hle
                  exact absurd hle (not_le.mpr hlt)
              · -- an older occurrence left behind means that no slot is free
                have hbehind : (⟨now, item :: rest⟩ : AdmissionPass).leavesBehind job.id d' =
                    true := by
                  rw [AdmissionPass.leavesBehind_iff, AdmissionPass.leaves_iff]
                  refine ⟨⟨hjob'.trans hid.symm, hwaits', by simpa using hreaches⟩, ?_⟩
                  simp only [AdmissionPass.overtakes, Bool.and_eq_true, decide_eq_true_eq,
                    List.any_cons, Bool.or_eq_true]
                  exact ⟨hdue, .inl ⟨hid.symm, hlt⟩⟩
                have hfull := h.behind _ hmem₀ job hjobMem d' hd' hbehind
                rw [Store.isFull, decide_eq_true_eq] at hfull
                omega
          · exact absurd hrunId fun h => hold d hd h
      · rw [heq] at hd
        exact absurd hrunId fun h => hold d hd h
  · cases hstep

/-- Only an occurrence that was never queued and never run is dropped. -/
theorem dropped_claimed (hs : s.Sound) {e : ScheduleEvent} (hguard : admissionGuard s e = true)
    (hstep : s.Stepped e t) {d d' : DurableScheduleOccurrence} (hd : d ∈ s.store.occurrences)
    (hwaits : d.state.isWaiting = true) (hd' : d' ∈ t.store.occurrences) (hkey : d'.key = d.key)
    (hfinal : d'.state = .finalized) : d.state = .claimed := by
  -- a row that the step does not write waits now as before
  have hold (h : d' ∈ s.store.occurrences) : d.state = .claimed := by
    rw [hs.store.occurrenceKeys.eq_of_key h hd hkey] at hfinal
    rw [hfinal] at hwaits
    cases hwaits
  have hsame (hoccs : t.store.occurrences = s.store.occurrences) : d.state = .claimed :=
    hold (hoccs ▸ hd')
  cases hstep with
  | jobReplaced h => exact hsame (by simp only [Store.saveJob, h])
  | jobAdded h _ => exact hsame (by simp only [Store.saveJob, h])
  | jobDeleted => exact hold (List.mem_of_mem_filter hd')
  | claimed _ hclaim =>
    obtain ⟨-, -, hoccs | ⟨-, -, hoccs⟩⟩ := Store.claimScheduleOccurrence_ok hclaim
    · exact hsame hoccs
    · rw [hoccs, List.mem_append, List.mem_singleton] at hd'
      rcases hd' with hd' | rfl
      · exact hold hd'
      · cases hfinal
  | @admitted i now item rest runId job answer store hpass _ hjob hid hstep =>
    rw [setPass_store, (admitted_passes _ _ _ answer).2] at hd'
    obtain ⟨hjobMem, -⟩ := Store.getJob_mem hjob
    have hitem := item_key hid
    cases hstep with
    | settled | already => exact hold hd'
    | queued found =>
      rcases (hs.store.mem_setOccurrence found _).mp hd' with rfl | ⟨hd', -⟩
      · cases hfinal
      · exact hold hd'
    | @skipped a _ found hwaits' hfull hover hinsert =>
      obtain ⟨-, -, -, rfl⟩ := Store.insertRun_ok hinsert
      rcases (hs.store.mem_setOccurrence found _).mp hd' with rfl | ⟨hd', -⟩
      · have ha := (Store.findOccurrence_mem found).1
        have hsameRow : a = d := hs.store.occurrenceKeys.eq_of_key ha hd hkey
        subst hsameRow
        rw [hitem] at found
        have hajob : a.jobId = job.id := by
          rw [hid]
          exact congrArg OccurrenceKey.jobId (Store.findOccurrence_mem found).2
        obtain ⟨hdrop, -⟩ := of_decide_eq_true hguard _ hpass item rfl a found hwaits'
        have hdrop := List.all_eq_true.mp hdrop job hjobMem
        simp only [hajob, ne_eq, not_true_eq_false, decide_false, Store.isFull, hfull,
          decide_true, Bool.not_true, Bool.or_false, Bool.or_eq_true,
          decide_eq_true_eq] at hdrop
        rcases hdrop with hroom | hclaimed
        · simp only [Bool.false_eq_true, false_or] at hroom
          omega
        · exact hclaimed
      · exact hold hd'
    | started found _ _ hinsert =>
      obtain ⟨-, -, -, rfl⟩ := Store.insertRun_ok hinsert
      rcases (hs.store.mem_setOccurrence found _).mp hd' with rfl | ⟨hd', -⟩
      · cases hfinal
      · exact hold hd'
  | @attemptFinalized r now job run answer store htask hstep =>
    -- the occurrence a runner finalises was running
    have hrunning {o : ScheduleOccurrence} {a : DurableScheduleOccurrence}
        (hocc : run.occurrence = some o)
        (found : s.store.findOccurrence (o.key job.id) = some a) : a.state = .running := by
      obtain ⟨ha, hakey⟩ := Store.findOccurrence_mem found
      have hajob := hs.store.occurrenceJob a ha
      have hid : a.jobId = job.id := congrArg OccurrenceKey.jobId hakey
      rw [hid] at hajob
      obtain ⟨o', a', ho', found', hstate, -⟩ := (hs.runners r _ htask).owned hs hajob
      have ho' : run.occurrence = some o' := ho'
      rw [hocc, Option.some.injEq] at ho'
      subst ho'
      rw [Option.some.inj (found.symm.trans found')]
      exact hstate
    cases hstep with
    | retry retryAt hretryAt hocc found =>
      rcases (hs.store.mem_setOccurrence found _).mp hd' with rfl | ⟨hd', -⟩
      · cases hfinal
      · exact hold hd'
    | @final o a hocc found =>
      rcases (hs.store.mem_setOccurrence found _).mp hd' with rfl | ⟨hd', -⟩
      · have ha := (Store.findOccurrence_mem found).1
        have hsameRow : a = d := hs.store.occurrenceKeys.eq_of_key ha hd hkey
        rw [← hsameRow, hrunning hocc found] at hwaits
        cases hwaits
      · exact hold hd'
  | runnerRunning _ hsave =>
    rcases hsave with hsave | rfl
    · exact hsame (Store.saveRun_ok hsave).2.1
    · exact hold hd'
  | runnerCommitted _ hcommit => exact hsame hcommit.occurrences
  | cleanupFinished _ _ hcommit => exact hsame hcommit.occurrences
  | runsPruned =>
    obtain ⟨-, hoccs, -⟩ := s.store.pruneRuns_spec _ _ _
    exact hsame hoccs
  | otherSaved _ _ _ _ hsave => exact hsame (Store.saveRun_ok hsave).2.1
  | otherCommitted _ _ _ _ hcommit => exact hsame hcommit.occurrences
  | recovered =>
    obtain ⟨a, ha, ⟨-, rfl⟩ | ⟨-, rfl⟩⟩ := Store.mem_recover.mp hd'
    · cases hfinal
    · exact hold ha
  | runnerGone _ _ _ hoccs | aside _ _ hoccs => exact hsame hoccs
  | passStarted | unanswered | passedOver | runnerEnded | attemptUnsettled | finalizeFailed
  | crashed => exact hold hd'

/-- One slot and room for one waiting occurrence. -/
def hourlyQueued : Job :=
  { hourly with admission := { maxConcurrency := 1, maxQueue := 1, overflow := .rejectNew } }

/-- Two occurrences come together while one runs; the pass drops the first of
them and is about to queue the second. -/
def overfullArrival : List ScheduleEvent :=
  [.recover 0, .saveJob hourlyQueued, .claim hourlyQueued (hourlyAt 0) 0, .startPass 0,
    .admitNext 0 ⟨10⟩, .claim hourlyQueued (hourlyAt 2) 2, .claim hourlyQueued (hourlyAt 3) 3,
    .startPass 3, .admitNext 1 ⟨11⟩]

/-- One occurrence runs and one is queued when a third arrives. -/
def laterArrival : List ScheduleEvent :=
  [.recover 0, .saveJob hourlyQueued, .claim hourlyQueued (hourlyAt 0) 0, .startPass 0,
    .admitNext 0 ⟨10⟩, .claim hourlyQueued (hourlyAt 2) 2, .startPass 2, .admitNext 1 ⟨11⟩,
    .claim hourlyQueued (hourlyAt 3) 3, .startPass 3]

end ScheduleState

end Supervisor
