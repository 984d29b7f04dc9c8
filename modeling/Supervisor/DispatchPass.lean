import Supervisor.AdmissionOrder
import Supervisor.RowMap
import Supervisor.RunReconciliation

namespace Supervisor

open KeyedRows (Unique)

/-- The flags that a pass reads first. -/
structure DispatchFlags where
  isApplyingConfig : Bool := false
  isShuttingDown : Bool := false

namespace Store

/-- What a pass lists. -/
def dispatchListing (flags : DispatchFlags) (r : RunReplies) (s : Store) :
    List DurableScheduleOccurrence :=
  if flags.isApplyingConfig || flags.isShuttingDown then []
  else s.listDueScheduleOccurrences r.now 128

/-- A pass of `reconcile_durable_schedule_dispatch`, with its flags. -/
def dispatchPass (flags : DispatchFlags) (r : RunReplies) (s : Store) : Store :=
  if flags.isApplyingConfig || flags.isShuttingDown then s
  else s.reconcileDurableScheduleDispatch r

/-- All waiting occurrences whose time has come, in the order of the listing. -/
def dueOccurrences (s : Store) (now : Instant) : List DurableScheduleOccurrence :=
  (s.occurrences.filter fun d => d.state.isWaiting && d.nextAttemptAt ≤ now).insertionSort
    fun a b => a.occurrence.scheduledAt ≤ b.occurrence.scheduledAt

/-- Random ids are new, and no two are the same. -/
structure FreshIds (r : RunReplies) (s : Store) : Prop where
  new : ∀ d ∈ s.occurrences, s.findRun (r.admitted d.key) = none
  distinct : ∀ d ∈ s.occurrences, ∀ d' ∈ s.occurrences, r.admitted d.key = r.admitted d'.key →
    d.key = d'.key

/-- An occurrence of the job has gone from waiting to running. -/
def Admits (s t : Store) (now : Instant) (job : Job) : Prop :=
  ∃ d ∈ s.dueOccurrences now, d.jobId = job.id ∧
    ∃ d' ∈ t.occurrences, d'.key = d.key ∧ d'.state = .running

/-- The pass considers the oldest due occurrence of the job, and admits one if it may. -/
structure Serves (flags : DispatchFlags) (r : RunReplies) (s : Store) (job : Job) : Prop where
  considers : ∃ d ∈ s.dispatchListing flags r, d.jobId = job.id ∧
    ∀ d' ∈ s.dueOccurrences r.now, d'.jobId = job.id →
      d.occurrence.scheduledAt ≤ d'.occurrence.scheduledAt
  admits : r.isFrozen job.id = false →
    s.runningOccurrences job.id < job.admission.maxConcurrency.val →
      s.Admits (s.dispatchPass flags r) r.now job

/-- The pass runs, fewer than 128 due occurrences come before the first one of the job, and one that
is listed can be admitted if the job may start any. -/
structure InReach (flags : DispatchFlags) (r : RunReplies) (s : Store) (job : Job) : Prop where
  runs : (flags.isApplyingConfig || flags.isShuttingDown) = false
  near : (s.dueOccurrences r.now).findIdx (fun d => d.jobId = job.id) < 128
  fits : r.isFrozen job.id = false →
    s.runningOccurrences job.id < job.admission.maxConcurrency.val →
      ∃ d ∈ s.listDueScheduleOccurrences r.now 128, d.jobId = job.id ∧
        s.hasAttempt job d.occurrence = false

section Listing

variable {s : Store} {r : RunReplies} {flags : DispatchFlags} {job : Job} {now : Instant}

theorem listDue_eq_take (limit : ℕ) :
    s.listDueScheduleOccurrences now limit = (s.dueOccurrences now).take limit := rfl

theorem mem_dueOccurrences {d : DurableScheduleOccurrence} : d ∈ s.dueOccurrences now ↔
    d ∈ s.occurrences ∧ d.state.isWaiting = true ∧ d.nextAttemptAt ≤ now := by
  unfold dueOccurrences
  rw [List.mem_insertionSort, List.mem_filter, Bool.and_eq_true, decide_eq_true_eq]

theorem listed_iff (hdue : ∃ d ∈ s.dueOccurrences now, d.jobId = job.id) (limit : ℕ) :
    (∃ d ∈ s.listDueScheduleOccurrences now limit, d.jobId = job.id) ↔
      (s.dueOccurrences now).findIdx (fun d => d.jobId = job.id) < limit := by
  have hex (rows : List DurableScheduleOccurrence) : (∃ d ∈ rows, d.jobId = job.id) ↔
      rows.findIdx (fun d => d.jobId = job.id) < rows.length := by
    rw [List.findIdx_lt_length]
    simp only [decide_eq_true_eq]
  rw [hex] at hdue ⊢
  rw [listDue_eq_take, List.findIdx_take, List.length_take]
  omega

/-- The first one that is listed is the oldest. -/
theorem considers_iff (hdue : ∃ d ∈ s.dueOccurrences r.now, d.jobId = job.id) :
    (∃ d ∈ s.dispatchListing flags r, d.jobId = job.id ∧
      ∀ d' ∈ s.dueOccurrences r.now, d'.jobId = job.id →
        d.occurrence.scheduledAt ≤ d'.occurrence.scheduledAt) ↔
      (flags.isApplyingConfig || flags.isShuttingDown) = false ∧
        (s.dueOccurrences r.now).findIdx (fun d => d.jobId = job.id) < 128 := by
  unfold dispatchListing
  cases hflags : flags.isApplyingConfig || flags.isShuttingDown with
  | true =>
    rw [if_pos rfl]
    refine iff_of_false ?_ fun h => Bool.noConfusion h.1
    rintro ⟨d, hd, -⟩
    exact List.not_mem_nil hd
  | false =>
    rw [if_neg Bool.false_ne_true, ← listed_iff hdue]
    constructor
    · rintro ⟨d, hd, hjob, -⟩
      exact ⟨rfl, d, hd, hjob⟩
    · rintro ⟨-, d, hd, hjob⟩
      obtain ⟨hsorted, hlisted⟩ := ScheduleState.listDue_spec s r.now 128
      obtain ⟨first, hfirst⟩ := Option.isSome_iff_exists.mp
        (List.find?_isSome.mpr ⟨d, hd, decide_eq_true hjob⟩ :
          ((s.listDueScheduleOccurrences r.now 128).find? fun d => d.jobId = job.id).isSome = true)
      have hfirstJob : first.jobId = job.id := by simpa using List.find?_some hfirst
      have hmem := List.mem_of_find?_eq_some hfirst
      refine ⟨first, hmem, hfirstJob, fun d' hd' hjob' => ?_⟩
      obtain ⟨hin, hwaits, hnow⟩ := mem_dueOccurrences.mp hd'
      rcases hlisted d' hin hwaits hnow with hd' | hother
      · obtain ⟨-, before, after, heq, hbefore⟩ := List.find?_eq_some_iff_append.mp hfirst
        rw [heq] at hd' hsorted
        rcases List.mem_append.mp hd' with hd' | hd'
        · have hnot := hbefore d' hd'
          rw [decide_eq_true hjob'] at hnot
          cases hnot
        · rcases List.mem_cons.mp hd' with rfl | hd'
          · exact le_refl _
          · exact (List.pairwise_cons.mp (List.pairwise_append.mp hsorted).2.1).1 d' hd'
      · exact hother first hmem

end Listing

section Frame

variable {s t : Store} {job : Job} {occurrence : ScheduleOccurrence} {now : Instant}
  {runId : JobRunId} {answer : ScheduleAdmission}

/-- An admission rewrites the row of its occurrence, under the same key, and adds a run at most. -/
theorem AdmissionStep.frame (h : AdmissionStep s job occurrence now runId answer t) :
    ∃ f : DurableScheduleOccurrence → DurableScheduleOccurrence, (∀ d, (f d).key = d.key) ∧
      t.jobs = s.jobs ∧
      t.occurrences = KeyedRows.update DurableScheduleOccurrence.key (occurrence.key job.id) f
        s.occurrences ∧
      (t.runs = s.runs ∨ ∃ row, row.runId = runId ∧ row.jobId = job.id ∧
        t.runs = s.runs ++ [row]) := by
  have hsame : KeyedRows.update DurableScheduleOccurrence.key (occurrence.key job.id) id
      s.occurrences = s.occurrences := by
    unfold KeyedRows.update
    simp only [id, ite_self, List.map_id']
  cases h with
  | settled _ _ => exact ⟨id, fun _ => rfl, rfl, hsame.symm, .inl rfl⟩
  | already _ _ => exact ⟨id, fun _ => rfl, rfl, hsame.symm, .inl rfl⟩
  | queued _ _ _ _ =>
    exact ⟨fun d => { d with state := .queued }, fun _ => rfl, rfl, rfl, .inl rfl⟩
  | skipped _ _ _ _ hinsert =>
    obtain ⟨-, -, -, rfl⟩ := insertRun_ok hinsert
    exact ⟨fun d => { d with
      state := .finalized, runId := some runId, finalState := some .skipped },
      fun _ => rfl, rfl, rfl, .inr ⟨_, rfl, rfl, rfl⟩⟩
  | started _ _ _ hinsert =>
    obtain ⟨-, -, -, rfl⟩ := insertRun_ok hinsert
    exact ⟨fun d => { d with state := .running, runId := some runId },
      fun _ => rfl, rfl, rfl, .inr ⟨_, rfl, rfl, rfl⟩⟩

/-- No admission touches a running occurrence. -/
theorem AdmissionStep.keepsRunning (h : AdmissionStep s job occurrence now runId answer t)
    (hkeys : Unique DurableScheduleOccurrence.key s.occurrences)
    {d : DurableScheduleOccurrence} (hd : d ∈ s.occurrences) (hrunning : d.state = .running) :
    d ∈ t.occurrences := by
  have hother {row : DurableScheduleOccurrence}
      (found : s.findOccurrence (occurrence.key job.id) = some row)
      (hwaits : row.state.isWaiting = true)
      (f : DurableScheduleOccurrence → DurableScheduleOccurrence) :
      d ∈ KeyedRows.update DurableScheduleOccurrence.key (occurrence.key job.id) f
        s.occurrences := by
    refine (hkeys.mem_update_iff found).mpr (.inr ⟨hd, fun hkey => ?_⟩)
    have hsame : d = row := hkeys.eq_of_key hd (KeyedRows.find_mem found)
      (hkey.trans (KeyedRows.find_key found).symm)
    rw [← hsame, hrunning] at hwaits
    cases hwaits
  cases h with
  | settled _ _ => exact hd
  | already _ _ => exact hd
  | queued found hwaits _ _ => exact hother found hwaits _
  | skipped found hwaits _ _ hinsert =>
    obtain ⟨-, -, -, rfl⟩ := insertRun_ok hinsert
    exact hother found hwaits _
  | started found hwaits _ hinsert =>
    obtain ⟨-, -, -, rfl⟩ := insertRun_ok hinsert
    exact hother found hwaits _

/-- A pass decides one occurrence, or leaves the tables alone. -/
theorem dispatchOccurrence_cases (r : RunReplies) (s : Store) (item : DurableScheduleOccurrence) :
    s.dispatchOccurrence r item = s ∨ ∃ job answer t, job.id = item.jobId ∧
      AdmissionStep s job item.occurrence r.now (r.admitted item.key) answer t ∧
        s.dispatchOccurrence r item = t := by
  unfold dispatchOccurrence
  split
  · exact .inl rfl
  · rename_i job hjob
    split
    · exact .inl rfl
    · rename_i hid
      split
      · rename_i answer t hok
        refine .inr ⟨job, answer, t, ?_, admitScheduleOccurrence_ok hok, rfl⟩
        rw [Bool.or_eq_true, not_or] at hid
        simpa using hid.1
      · exact .inl rfl

end Frame

section Pass

variable {b s t : Store} {r : RunReplies} {job : Job} {item : DurableScheduleOccurrence}
  {todo : List DurableScheduleOccurrence}

/-- Since the start of the pass nothing has been admitted for the job. -/
structure Waits (b s : Store) (r : RunReplies) (job : Job)
    (todo : List DurableScheduleOccurrence) : Prop where
  jobs : s.jobs = b.jobs
  keys : Unique DurableScheduleOccurrence.key s.occurrences
  rows : s.occurrences.filter (fun d => d.jobId = job.id) =
    b.occurrences.filter fun d => d.jobId = job.id
  old : ∀ row ∈ b.runs, row ∈ s.runs
  new : ∀ row ∈ s.runs, row ∈ b.runs ∨ row.jobId ≠ job.id
  fresh : ∀ d ∈ todo, s.findRun (r.admitted d.key) = none

theorem Waits.of_cons (h : Waits b s r job (item :: todo)) : Waits b s r job todo where
  __ := h
  fresh d hd := h.fresh d (List.mem_cons_of_mem _ hd)

theorem Waits.other (h : Waits b s r job (item :: todo))
    (hdistinct : ∀ d ∈ todo, r.admitted item.key = r.admitted d.key → item.key = d.key)
    (hu : Unique DurableScheduleOccurrence.key (item :: todo)) (hjob : item.jobId ≠ job.id) :
    Waits b (s.dispatchOccurrence r item) r job todo := by
  rcases dispatchOccurrence_cases r s item with heq | ⟨other, answer, t, hid, hstep, heq⟩
  · rw [heq]
    exact h.of_cons
  · rw [heq]
    obtain ⟨f, hkey, hjobs, hrows, hruns⟩ := hstep.frame
    have hother : other.id ≠ job.id := hid ▸ hjob
    have hforeign {d : DurableScheduleOccurrence} (hd : d.key = item.occurrence.key other.id) :
        decide (d.jobId = job.id) = false := by
      rw [decide_eq_false_iff_not]
      have hdid : d.jobId = other.id := congrArg OccurrenceKey.jobId hd
      exact hdid ▸ hother
    refine ⟨hjobs.trans h.jobs, ?_, ?_, ?_, ?_, ?_⟩
    · rw [hrows]
      exact h.keys.update fun d hd => (hkey d).trans hd
    · rw [hrows, ← h.rows]
      exact KeyedRows.filter_update fun d _ hd => ⟨hforeign hd, hforeign ((hkey d).trans hd)⟩
    · intro row hrow
      rcases hruns with hruns | ⟨added, -, -, hruns⟩
      · rw [hruns]
        exact h.old row hrow
      · rw [hruns]
        exact List.mem_append_left _ (h.old row hrow)
    · intro row hrow
      rcases hruns with hruns | ⟨added, -, hadded, hruns⟩
      · rw [hruns] at hrow
        exact h.new row hrow
      · rw [hruns] at hrow
        rcases List.mem_append.mp hrow with hrow | hrow
        · exact h.new row hrow
        · rw [List.mem_singleton.mp hrow, hadded]
          exact .inr hother
    · intro d hd
      have hold := KeyedRows.find_eq_none.mp (h.fresh d (List.mem_cons_of_mem _ hd))
      apply KeyedRows.find_eq_none.mpr
      intro row hrow
      rcases hruns with hruns | ⟨added, hadded, -, hruns⟩
      · rw [hruns] at hrow
        exact hold row hrow
      · rw [hruns] at hrow
        rcases List.mem_append.mp hrow with hrow | hrow
        · exact hold row hrow
        · rw [List.mem_singleton.mp hrow, hadded]
          intro hsame
          have hne : item.key ≠ d.key := fun hkeys =>
            (List.nodup_cons.mp hu).1 (List.mem_map.mpr ⟨d, hd, hkeys.symm⟩)
          exact hne (hdistinct d hd hsame)

theorem Waits.mem_iff (h : Waits b s r job todo) {d : DurableScheduleOccurrence}
    (hd : d.jobId = job.id) : d ∈ s.occurrences ↔ d ∈ b.occurrences := by
  have hfilter (rows : List DurableScheduleOccurrence) :
      d ∈ rows.filter (fun d => d.jobId = job.id) ↔ d ∈ rows := by
    rw [List.mem_filter, decide_eq_true_eq]
    exact and_iff_left hd
  rw [← hfilter s.occurrences, h.rows, hfilter]

theorem Waits.running_eq (h : Waits b s r job todo) :
    s.runningOccurrences job.id = b.runningOccurrences job.id := by
  have hcount (rows : List DurableScheduleOccurrence) :
      rows.countP (fun d => d.jobId = job.id && d.state = .running) =
        (rows.filter fun d => d.jobId = job.id).countP fun d => d.state = .running := by
    rw [List.countP_filter]
    apply List.countP_congr
    intro d _
    rw [Bool.and_comm]
  unfold runningOccurrences
  rw [hcount, h.rows, ← hcount]

theorem Waits.hasAttempt_eq (h : Waits b s r job todo) (occurrence : ScheduleOccurrence) :
    s.hasAttempt job occurrence = b.hasAttempt job occurrence := by
  unfold hasAttempt
  rw [Bool.eq_iff_iff, List.any_eq_true, List.any_eq_true]
  constructor
  · rintro ⟨row, hrow, hclash⟩
    rcases h.new row hrow with hold | hother
    · exact ⟨row, hold, hclash⟩
    · -- only rows of the job clash with its attempts
      unfold clashesOnOccurrence at hclash
      simp only [Bool.and_eq_true, decide_eq_true_eq] at hclash
      exact absurd hclash.1.1.1.2 hother
  · rintro ⟨row, hrow, hclash⟩
    exact ⟨row, h.old row hrow, hclash⟩

variable {drawn : Finset JobRunId} {jobIds : Finset JobId}

/-- An occurrence of the job starts unless its attempt row is there. -/
theorem Waits.own (hb : b.Sound drawn jobIds) (h : Waits b s r job (item :: todo))
    (hjob : job ∈ b.jobs) (hitem : item ∈ b.occurrences) (hid : item.jobId = job.id)
    (hwaits : item.state.isWaiting = true) (hfrozen : r.isFrozen job.id = false)
    (hfree : b.runningOccurrences job.id < job.admission.maxConcurrency.val) :
    b.hasAttempt job item.occurrence = true ∧ s.dispatchOccurrence r item = s ∨
      b.hasAttempt job item.occurrence = false ∧
        ∃ d ∈ (s.dispatchOccurrence r item).occurrences, d.key = item.key ∧ d.state = .running := by
  have hget : s.getJob item.jobName = some job := by
    obtain ⟨stored, hstored, hname, hstoredId⟩ := hasJob_iff.mp (hb.occurrenceJob item hitem)
    have hsame : stored = job := hb.jobNames.eq_of_key hstored hjob
      (hb.jobOfId stored hstored job hjob (hstoredId.trans hid))
    unfold getJob
    rw [h.jobs, ← hname, hsame]
    exact hb.jobNames.find_of_mem hjob
  have hkey : item.occurrence.key job.id = item.key := by
    rw [← hid]
    rfl
  have found : s.findOccurrence (item.occurrence.key job.id) = some item := by
    rw [hkey]
    exact h.keys.find_of_mem ((h.mem_iff hid).mpr hitem)
  have hfresh : s.findRun (r.admitted item.key) = none := h.fresh item List.mem_cons_self
  have hgate : ¬ (decide (job.id ≠ item.jobId) || r.isFrozen job.id) = true := by
    rw [hfrozen, Bool.or_false, decide_eq_true_eq, not_not]
    exact hid.symm
  cases hadmit : s.admitScheduleOccurrence job item.occurrence r.now (r.admitted item.key) with
  | error e =>
    have hdispatch : s.dispatchOccurrence r item = s := by
      unfold dispatchOccurrence
      rw [hget]
      dsimp only
      rw [if_neg hgate, hadmit]
    have hattempt := ScheduleState.admit_error (s := { store := s }) (h.jobs ▸ hjob) hfresh found
      hadmit
    exact .inl ⟨(h.hasAttempt_eq _).symm.trans hattempt, hdispatch⟩
  | ok result =>
    obtain ⟨answer, t⟩ := result
    have hdispatch : s.dispatchOccurrence r item = t := by
      unfold dispatchOccurrence
      rw [hget]
      dsimp only
      rw [if_neg hgate, hadmit]
    rw [hdispatch]
    right
    cases admitScheduleOccurrence_ok hadmit with
    | settled found' hstate =>
      rw [found] at found'
      cases found'
      rw [hstate] at hwaits
      cases hwaits
    | already found' hstate =>
      rw [found] at found'
      cases found'
      rw [hstate] at hwaits
      cases hwaits
    | queued _ _ hfull _ =>
      rw [h.running_eq] at hfull
      omega
    | skipped _ _ hfull _ _ =>
      rw [h.running_eq] at hfull
      omega
    | started found' _ _ hinsert =>
      obtain ⟨-, -, hclash, rfl⟩ := insertRun_ok hinsert
      constructor
      · rw [← h.hasAttempt_eq]
        unfold hasAttempt
        rw [List.any_eq_false]
        intro row hrow hsame
        exact Bool.false_ne_true ((hclash row hrow).symm.trans hsame)
      · refine ⟨_, (h.keys.mem_update_iff found).mpr (.inl rfl), rfl, rfl⟩

theorem dispatchOccurrence_keys (hkeys : Unique DurableScheduleOccurrence.key s.occurrences) :
    Unique DurableScheduleOccurrence.key (s.dispatchOccurrence r item).occurrences := by
  rcases dispatchOccurrence_cases r s item with heq | ⟨other, answer, t, -, hstep, heq⟩
  · rw [heq]
    exact hkeys
  · obtain ⟨f, hkey, -, hrows, -⟩ := hstep.frame
    rw [heq, hrows]
    exact hkeys.update fun d hd => (hkey d).trans hd

/-- What has started stays started to the end of the pass. -/
theorem foldl_dispatchOccurrence_running
    (hkeys : Unique DurableScheduleOccurrence.key s.occurrences) {d : DurableScheduleOccurrence}
    (hd : d ∈ s.occurrences) (hrunning : d.state = .running) :
    d ∈ (todo.foldl (dispatchOccurrence r) s).occurrences := by
  induction todo generalizing s with
  | nil => exact hd
  | cons item todo ih =>
    rw [List.foldl_cons]
    apply ih (dispatchOccurrence_keys hkeys)
    rcases dispatchOccurrence_cases r s item with heq | ⟨other, answer, t, -, hstep, heq⟩
    · rw [heq]
      exact hd
    · rw [heq]
      exact hstep.keepsRunning hkeys hd hrunning

/-- Of a job that may start an occurrence, either one starts, or every one that is listed has its
attempt row already. -/
theorem Waits.outcome (hb : b.Sound drawn jobIds) (hfresh : FreshIds r b)
    (hjob : job ∈ b.jobs) (hfrozen : r.isFrozen job.id = false)
    (hfree : b.runningOccurrences job.id < job.admission.maxConcurrency.val)
    (hlisted : ∀ d ∈ todo, d ∈ b.occurrences ∧ d.state.isWaiting = true)
    (hu : Unique DurableScheduleOccurrence.key todo) (h : Waits b s r job todo) :
    (∀ d ∈ todo, d.jobId = job.id → b.hasAttempt job d.occurrence = true) ∧
        Waits b (todo.foldl (dispatchOccurrence r) s) r job [] ∨
      (∃ d ∈ todo, d.jobId = job.id ∧ b.hasAttempt job d.occurrence = false) ∧
        ∃ d ∈ todo, d.jobId = job.id ∧
          ∃ d' ∈ (todo.foldl (dispatchOccurrence r) s).occurrences,
            d'.key = d.key ∧ d'.state = .running := by
  induction todo generalizing s with
  | nil => exact .inl ⟨fun d hd => absurd hd List.not_mem_nil, h⟩
  | cons item todo ih =>
    obtain ⟨hitem, hwaits⟩ := hlisted item List.mem_cons_self
    have hlisted' : ∀ d ∈ todo, d ∈ b.occurrences ∧ d.state.isWaiting = true :=
      fun d hd => hlisted d (List.mem_cons_of_mem _ hd)
    have hu' : Unique DurableScheduleOccurrence.key todo := (List.nodup_cons.mp hu).2
    rw [List.foldl_cons]
    by_cases hid : item.jobId = job.id
    · rcases h.own hb hjob hitem hid hwaits hfrozen hfree with
        ⟨hattempt, heq⟩ | ⟨hattempt, d', hd', hkey, hrunning⟩
      · rw [heq]
        rcases ih hlisted' hu' h.of_cons with ⟨hall, hwaiting⟩ | ⟨⟨d, hd, hfits⟩, d', hd', hstarts⟩
        · refine .inl ⟨fun d hd hjobId => ?_, hwaiting⟩
          rcases List.mem_cons.mp hd with rfl | hd
          · exact hattempt
          · exact hall d hd hjobId
        · exact .inr ⟨⟨d, List.mem_cons_of_mem _ hd, hfits⟩, d', List.mem_cons_of_mem _ hd', hstarts⟩
      · right
        refine ⟨⟨item, List.mem_cons_self, hid, hattempt⟩, item, List.mem_cons_self, hid, d', ?_,
          hkey, hrunning⟩
        exact foldl_dispatchOccurrence_running (dispatchOccurrence_keys h.keys) hd' hrunning
    · have hdistinct : ∀ d ∈ todo, r.admitted item.key = r.admitted d.key → item.key = d.key :=
        fun d hd => hfresh.distinct item hitem d (hlisted' d hd).1
      rcases ih hlisted' hu' (h.other hdistinct hu hid) with
        ⟨hall, hwaiting⟩ | ⟨⟨d, hd, hfits⟩, d', hd', hstarts⟩
      · refine .inl ⟨fun d hd hjobId => ?_, hwaiting⟩
        rcases List.mem_cons.mp hd with rfl | hd
        · exact absurd hjobId hid
        · exact hall d hd hjobId
      · exact .inr ⟨⟨d, List.mem_cons_of_mem _ hd, hfits⟩, d', List.mem_cons_of_mem _ hd', hstarts⟩

theorem unique_dueOccurrences (hb : b.Sound drawn jobIds) (now : Instant) :
    Unique DurableScheduleOccurrence.key (b.dueOccurrences now) := by
  have hsorted : (b.dueOccurrences now).Perm
      (b.occurrences.filter fun d => d.state.isWaiting && d.nextAttemptAt ≤ now) :=
    List.perm_insertionSort _ _
  exact KeyedRows.Unique.perm (hb.occurrenceKeys.filter _) hsorted

/-- Of a job that may start an occurrence one starts, if one that is listed has no attempt row. -/
theorem admits_iff (hb : b.Sound drawn jobIds) (hfresh : FreshIds r b) (hjob : job ∈ b.jobs)
    (hfrozen : r.isFrozen job.id = false)
    (hfree : b.runningOccurrences job.id < job.admission.maxConcurrency.val) :
    b.Admits (b.reconcileDurableScheduleDispatch r) r.now job ↔
      ∃ d ∈ b.listDueScheduleOccurrences r.now 128, d.jobId = job.id ∧
        b.hasAttempt job d.occurrence = false := by
  have hdue {d : DurableScheduleOccurrence} (hd : d ∈ b.listDueScheduleOccurrences r.now 128) :
      d ∈ b.dueOccurrences r.now := List.mem_of_mem_take hd
  have hlisted : ∀ d ∈ b.listDueScheduleOccurrences r.now 128,
      d ∈ b.occurrences ∧ d.state.isWaiting = true := by
    intro d hd
    obtain ⟨hin, hwaits, -⟩ := mem_dueOccurrences.mp (hdue hd)
    exact ⟨hin, hwaits⟩
  have hstart : Waits b b r job (b.listDueScheduleOccurrences r.now 128) :=
    ⟨rfl, hb.occurrenceKeys, rfl, fun _ h => h, fun _ h => .inl h,
      fun d hd => hfresh.new d (hlisted d hd).1⟩
  have hu : Unique DurableScheduleOccurrence.key (b.listDueScheduleOccurrences r.now 128) :=
    (unique_dueOccurrences hb r.now).sublist ((List.take_sublist _ _).map _)
  rcases Waits.outcome hb hfresh hjob hfrozen hfree hlisted hu hstart with
    ⟨hall, hwaiting⟩ | ⟨hfits, d, hd, hid, hstarts⟩
  · refine iff_of_false ?_ ?_
    · rintro ⟨d, hd, hid, d', hd', hkey, hrunning⟩
      -- the rows of the job are as before the pass, when this one waited
      obtain ⟨hin, hwaits, -⟩ := mem_dueOccurrences.mp hd
      have hid' : d'.jobId = job.id := (congrArg OccurrenceKey.jobId hkey).trans hid
      have hsame : d' = d := hb.occurrenceKeys.eq_of_key ((hwaiting.mem_iff hid').mp hd') hin hkey
      rw [← hsame, hrunning] at hwaits
      cases hwaits
    · rintro ⟨d, hd, hid, hnone⟩
      rw [hall d hd hid] at hnone
      cases hnone
  · exact iff_of_true ⟨d, hdue hd, hid, hstarts⟩ hfits

/-- A pass serves a job with a due occurrence exactly when that is in its reach. -/
theorem dispatchPass_serves_iff (hb : b.Sound drawn jobIds) (hfresh : FreshIds r b)
    (flags : DispatchFlags) {job : Job} (hjob : job ∈ b.jobs)
    (hdue : ∃ d ∈ b.dueOccurrences r.now, d.jobId = job.id) :
    Serves flags r b job ↔ InReach flags r b job := by
  have hpass (hruns : (flags.isApplyingConfig || flags.isShuttingDown) = false) :
      b.dispatchPass flags r = b.reconcileDurableScheduleDispatch r := by
    unfold dispatchPass
    rw [hruns]
    rfl
  constructor
  · rintro ⟨hconsiders, hadmits⟩
    obtain ⟨hruns, hnear⟩ := (considers_iff hdue).mp hconsiders
    rw [hpass hruns] at hadmits
    exact ⟨hruns, hnear, fun hfrozen hfree =>
      (admits_iff hb hfresh hjob hfrozen hfree).mp (hadmits hfrozen hfree)⟩
  · rintro ⟨hruns, hnear, hfits⟩
    refine ⟨(considers_iff hdue).mpr ⟨hruns, hnear⟩, fun hfrozen hfree => ?_⟩
    rw [hpass hruns]
    exact (admits_iff hb hfresh hjob hfrozen hfree).mpr (hfits hfrozen hfree)

section Crowded

/-- A job with a long queue and one slot. -/
def crowdedJob : Job :=
  { id := ⟨1⟩, name := "crowded", trigger := .interval 1, onOverlap := .queue
    admission := .legacy .queue }

def lateJob : Job := { id := ⟨2⟩, name := "late", trigger := .interval 1 }

/-- A waiting occurrence of the job. -/
def waitingAt (job : Job) (n : ℕ) : DurableScheduleOccurrence :=
  { jobId := job.id, jobName := job.name, occurrence := ⟨job.triggerId, 0, n, 1⟩, state := .queued
    nextAttemptAt := n }

/-- One occurrence of the first job runs and `n` wait, before that of the second job. -/
def crowdedStore (n : ℕ) : Store :=
  { jobs := [crowdedJob, lateJob]
    runs := [{ occurrenceRun crowdedJob (waitingAt crowdedJob 0).occurrence ⟨1⟩ .running none with
               startedAt := some 0 }]
    occurrences := { waitingAt crowdedJob 0 with state := .running, runId := some ⟨1⟩ }
      :: ((List.range n).map fun i => waitingAt crowdedJob (i + 1)) ++ [waitingAt lateJob (n + 1)] }

/-- Each run has the scheduled time of its occurrence as its id. -/
def timedReplies (now : Instant) : RunReplies :=
  { quietReplies now with admitted := fun key => ⟨key.scheduledAt.toNat + 100⟩ }

theorem crowdedStore_sound : (crowdedStore 2).Sound {⟨1⟩} {⟨1⟩, ⟨2⟩} where
  jobNames := show List.Nodup _ by decide
  jobOfId := by decide
  jobDrawn := by decide
  runIds := List.nodup_singleton _
  occurrenceKeys := show List.Nodup _ by decide
  runJob := by decide
  occurrenceJob := by decide
  runDrawn := by decide
  occurrenceDrawn := by decide
  runOccurrence := by decide

/-- Behind two waiting occurrences the job is served. -/
theorem lateJob_served : Serves {} (timedReplies 10) (crowdedStore 2) lateJob := by
  have hfresh : FreshIds (timedReplies 10) (crowdedStore 2) := ⟨by decide, by decide⟩
  refine (dispatchPass_serves_iff crowdedStore_sound hfresh {} (by decide) (by decide)).mpr ?_
  exact ⟨rfl, by decide, fun _ _ => by decide⟩

/-- Behind 128 it is not, though it may start one. -/
theorem lateJob_starved :
    (∃ d ∈ (crowdedStore 128).dueOccurrences 200, d.jobId = lateJob.id) ∧
      (timedReplies 200).isFrozen lateJob.id = false ∧
      (crowdedStore 128).runningOccurrences lateJob.id < lateJob.admission.maxConcurrency.val ∧
      ¬ Serves {} (timedReplies 200) (crowdedStore 128) lateJob := by
  have hdue : ∃ d ∈ (crowdedStore 128).dueOccurrences 200, d.jobId = lateJob.id := by
    decide +kernel
  refine ⟨hdue, rfl, by decide +kernel, fun hserves => ?_⟩
  obtain ⟨-, hnear⟩ := (considers_iff hdue).mp hserves.considers
  revert hnear
  decide +kernel

end Crowded

end Pass

end Store

end Supervisor
