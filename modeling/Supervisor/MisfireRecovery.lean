import Mathlib.Algebra.Order.Group.Int
import Mathlib.Algebra.Order.Group.Unbundled.Basic
import Supervisor.ProcessDomain
import Supervisor.StoreRows
import Supervisor.TimerScheduler

namespace Supervisor

/-- The occurrence that a recovery claims for a missed firing. -/
def Job.missedOccurrence (job : Job) (scheduledAt : Instant) : ScheduleOccurrence :=
  { triggerId := job.triggerId
    scheduleRevision := job.scheduleRevision
    scheduledAt
    attempt := 1 }

namespace Calendar

variable (calendar : Calendar)

/-- `chrono::Duration::from_std(max_age).unwrap_or_default()` -/
def effectiveAge (maxAge : Duration) : Duration := (chronoDuration maxAge).getD 0

/-- The firings that `reconcile_schedule_misfires` goes on to claim. -/
def misfireCandidates (job : Job) (cursor now : Instant) : List Instant :=
  let previewed (count : ℕ) : List Instant :=
    (((calendar.preview job cursor count).toOption).getD []).filter (· ≤ now)
  match job.misfirePolicy with
  | .skip => []
  | .runOnce => (previewed 100).reverse.take 1
  | .catchUp maxOccurrences maxAge =>
    (previewed (max maxOccurrences.val 1)).filter fun candidate =>
      now - candidate ≤ effectiveAge maxAge

end Calendar

/-- Claim one missed firing after the other; a claim that fails ends the loop. -/
def Store.claimMissed (s : Store) (job : Job) (now : Instant) : List Instant → List Instant × Store
  | [] => ([], s)
  | scheduledAt :: rest =>
    match s.claimScheduleOccurrence job (job.missedOccurrence scheduledAt) now with
    | .error _ => ([], s)
    | .ok (_, s') => ((s'.claimMissed job now rest).map (scheduledAt :: ·) id)

/-- The recovery of one job after a downtime, with the firings it claims. -/
def Store.reconcileScheduleMisfires (calendar : Calendar) (s : Store) (job : Job) (now : Instant) :
    List Instant × Store :=
  match s.scheduleCursor job with
  | none => ([], s)
  | some cursor => s.claimMissed job now (calendar.misfireCandidates job cursor now)

section Claims

variable {s s' : Store} {job : Job} {now : Instant} {occurrence : ScheduleOccurrence}

theorem Store.hasJob_of_mem (h : job ∈ s.jobs) : s.hasJob job.name job.id = true := by
  unfold Store.hasJob
  exact List.any_eq_true.mpr ⟨job, h, by simp⟩

/-- A claim for a stored job succeeds, and its occurrence is in the ledger afterwards. -/
theorem Store.claim_recorded (hjob : s.hasJob job.name job.id = true) :
    ∃ d s', s.claimScheduleOccurrence job occurrence now = .ok (d, s') ∧ d ∈ s'.occurrences ∧
      d.key = occurrence.key job.id := by
  unfold Store.claimScheduleOccurrence
  cases hfind : s.findOccurrence (occurrence.key job.id) with
  | some d =>
    have hrows := (Store.advanceCursor_rows (s := s) job.id occurrence).2.2
    refine ⟨d, _, rfl, ?_, KeyedRows.find_key hfind⟩
    rw [hrows]
    exact KeyedRows.find_mem hfind
  | none =>
    refine ⟨_, _, if_pos hjob, ?_, rfl⟩
    rw [(Store.advanceCursor_rows job.id occurrence).2.2]
    exact List.mem_append_right _ List.mem_cons_self

theorem Store.claim_keeps {d d' : DurableScheduleOccurrence}
    (h : s.claimScheduleOccurrence job occurrence now = .ok (d, s')) (hd : d' ∈ s.occurrences) :
    d' ∈ s'.occurrences := by
  obtain ⟨-, -, hsame | ⟨-, -, happend⟩⟩ := Store.claimScheduleOccurrence_ok h
  · rwa [hsame]
  · rw [happend]
    exact List.mem_append_left _ hd

theorem Store.claimMissed_keeps (times : List Instant) {d : DurableScheduleOccurrence}
    (hd : d ∈ s.occurrences) : d ∈ (s.claimMissed job now times).2.occurrences := by
  induction times generalizing s with
  | nil => exact hd
  | cons scheduledAt rest ih =>
    rw [Store.claimMissed]
    split
    · exact hd
    · rename_i d' s' hclaim
      exact ih (Store.claim_keeps hclaim hd)

/-- A stored job gets every time of the list claimed. -/
theorem Store.claimMissed_all (hjob : s.hasJob job.name job.id = true) (times : List Instant) :
    (s.claimMissed job now times).1 = times ∧
      ∀ f ∈ times, ∃ d ∈ (s.claimMissed job now times).2.occurrences,
        d.key = (job.missedOccurrence f).key job.id := by
  induction times generalizing s with
  | nil => exact ⟨rfl, fun f hf => absurd hf List.not_mem_nil⟩
  | cons scheduledAt rest ih =>
    obtain ⟨d, s', hclaim, hmem, hkey⟩ :=
      @Store.claim_recorded _ _ now (job.missedOccurrence scheduledAt) hjob
    have hjobs : s'.jobs = s.jobs := (Store.claimScheduleOccurrence_ok hclaim).1
    have hjob' : s'.hasJob job.name job.id = true := by
      unfold Store.hasJob
      rw [hjobs]
      exact hjob
    obtain ⟨hall, hrecorded⟩ := ih hjob'
    rw [Store.claimMissed, hclaim]
    constructor
    · exact congrArg (scheduledAt :: ·) hall
    · intro f hf
      rcases List.mem_cons.mp hf with rfl | hf
      · exact ⟨d, Store.claimMissed_keeps rest hmem, hkey⟩
      · exact hrecorded f hf

end Claims

namespace Calendar

variable {calendar : Calendar} {job : Job} {cursor now : Instant}

/-- The firings of a job after its cursor that a recovery at `now` finds missed. -/
def missed (calendar : Calendar) (job : Job) (cursor now : Instant) : List Instant :=
  FiringSequence.upTo (calendar.nextOf job) now cursor

theorem missed_sorted (hjob : Timed job) : (calendar.missed job cursor now).Pairwise (· < ·) :=
  FiringSequence.upTo_sorted (nextOf_ascends hjob) now cursor

theorem previewed_eq (hjob : Timed job) (count : ℕ) :
    (((calendar.preview job cursor count).toOption).getD []).filter (· ≤ now) =
      if Previewable calendar job cursor count then (calendar.missed job cursor now).take count
      else [] := by
  rw [preview_eq]
  split
  · rw [Option.getD_some, FiringSequence.visits_filter_le (nextOf_ascends hjob)]
    rfl
  · rfl

section CatchUp

/-- The missed firings that are not older than `maxAge`. -/
def eligible (calendar : Calendar) (job : Job) (maxAge : Duration) (cursor now : Instant) :
    List Instant :=
  (calendar.missed job cursor now).filter fun f => now - f ≤ maxAge

theorem eligible_eq (maxAge : Duration) :
    calendar.eligible job maxAge cursor now =
      (calendar.missed job cursor now).filter (now - maxAge ≤ ·) := by
  unfold eligible
  apply List.filter_congr
  intro f _
  exact decide_eq_decide.mpr sub_le_comm

theorem effectiveAge_le (maxAge : Duration) : effectiveAge maxAge ≤ maxAge := by
  unfold effectiveAge chronoDuration
  split
  · exact le_rfl
  · exact Nat.zero_le _

/-- Where the two bounds and the limit of the preview leave the oldest eligible firings. -/
def CatchUpFits (calendar : Calendar) (job : Job) (maxOccurrences : ℕ) (maxAge : Duration)
    (cursor now : Instant) : Prop :=
  calendar.eligible job maxAge cursor now = [] ∨
    (maxOccurrences = 0 ∧ (¬Previewable calendar job cursor 1 ∨
      ∀ f ∈ (calendar.missed job cursor now).take 1, effectiveAge maxAge < now - f)) ∨
    (maxOccurrences ≠ 0 ∧ Previewable calendar job cursor maxOccurrences ∧
      calendar.eligible job (effectiveAge maxAge) cursor now =
        calendar.eligible job maxAge cursor now ∧
      (calendar.eligible job maxAge cursor now = calendar.missed job cursor now ∨
        (calendar.missed job cursor now).length ≤ maxOccurrences))

theorem misfireCandidates_catchUp (hjob : Timed job) {maxOccurrences : U16} {maxAge : Duration}
    (hpolicy : job.misfirePolicy = .catchUp maxOccurrences maxAge) :
    calendar.misfireCandidates job cursor now =
      if Previewable calendar job cursor (max maxOccurrences.val 1) then
        ((calendar.missed job cursor now).take (max maxOccurrences.val 1)).filter
          (now - effectiveAge maxAge ≤ ·)
      else [] := by
  unfold misfireCandidates
  rw [hpolicy]
  dsimp only
  rw [previewed_eq hjob]
  split
  · apply List.filter_congr
    intro f _
    exact decide_eq_decide.mpr sub_le_comm
  · rfl

/-- When the recovery goes on to claim the oldest eligible firings. -/
theorem misfireCandidates_catchUp_iff (hjob : Timed job) {maxOccurrences : U16} {maxAge : Duration}
    (hpolicy : job.misfirePolicy = .catchUp maxOccurrences maxAge) :
    calendar.misfireCandidates job cursor now =
        (calendar.eligible job maxAge cursor now).take maxOccurrences.val ↔
      CatchUpFits calendar job maxOccurrences.val maxAge cursor now := by
  have hsorted := @missed_sorted calendar _ cursor now hjob
  have hage : now - maxAge ≤ now - (effectiveAge maxAge : ℤ) := by
    have hle : (effectiveAge maxAge : ℤ) ≤ maxAge := by exact_mod_cast effectiveAge_le maxAge
    exact sub_le_sub_left hle now
  rw [misfireCandidates_catchUp hjob hpolicy]
  unfold CatchUpFits
  by_cases hzero : maxOccurrences.val = 0
  · rw [hzero, Nat.zero_max, List.take_zero]
    -- the allowance of none is read as an allowance of one
    have hnone : ((calendar.missed job cursor now).take 1).filter
        (now - effectiveAge maxAge ≤ ·) = [] ↔
        ∀ f ∈ (calendar.missed job cursor now).take 1, effectiveAge maxAge < now - f := by
      rw [List.filter_eq_nil_iff]
      constructor
      · intro h f hf
        have hf' := h f hf
        simp only [decide_eq_true_eq, not_le] at hf'
        exact lt_sub_comm.mp hf'
      · intro h f hf
        simp only [decide_eq_true_eq, not_le]
        exact lt_sub_comm.mp (h f hf)
    constructor
    · intro h
      split at h
      · exact .inr (.inl ⟨rfl, .inr (hnone.mp h)⟩)
      · exact .inr (.inl ⟨rfl, .inl ‹_›⟩)
    · rintro (hnil | ⟨-, hskip⟩ | ⟨hne, -⟩)
      · split
        · rw [eligible_eq] at hnil
          apply List.filter_eq_nil_iff.mpr
          intro f hf
          have hf' := List.filter_eq_nil_iff.mp hnil f (List.mem_of_mem_take hf)
          simp only [decide_eq_true_eq] at hf' ⊢
          exact fun hup => hf' (hage.trans hup)
        · rfl
      · rcases hskip with hbad | hold
        · rw [if_neg hbad]
        · split
          · exact hnone.mpr hold
          · rfl
      · exact absurd rfl hne
  · have hone : max maxOccurrences.val 1 = maxOccurrences.val := by omega
    rw [hone, eligible_eq, eligible_eq]
    by_cases hpreview : Previewable calendar job cursor maxOccurrences.val
    · rw [if_pos hpreview, FiringSequence.filter_ge_take_eq_iff hsorted hage hzero]
      constructor
      · rintro (hnil | hfits)
        · exact .inl hnil
        · exact .inr (.inr ⟨hzero, hpreview, hfits⟩)
      · rintro (hnil | ⟨h, -⟩ | ⟨-, -, hfits⟩)
        · exact .inl hnil
        · exact absurd h hzero
        · exact .inr hfits
    · rw [if_neg hpreview]
      constructor
      · intro h
        left
        rcases List.take_eq_nil_iff.mp h.symm with h | h
        · exact absurd h hzero
        · exact h
      · rintro (hnil | ⟨h, -⟩ | ⟨-, h, -⟩)
        · rw [hnil, List.take_nil]
        · exact absurd h hzero
        · exact absurd h hpreview

end CatchUp

end Calendar

section CatchUpRecovery

variable {calendar : Calendar} {s : Store} {job : Job} {cursor now : Instant}

theorem Store.reconcile_claims (hjob : job ∈ s.jobs) (hcursor : s.scheduleCursor job = some cursor) :
    (s.reconcileScheduleMisfires calendar job now).1 = calendar.misfireCandidates job cursor now ∧
      ∀ f ∈ calendar.misfireCandidates job cursor now,
        ∃ d ∈ (s.reconcileScheduleMisfires calendar job now).2.occurrences,
          d.key = (job.missedOccurrence f).key job.id := by
  unfold Store.reconcileScheduleMisfires
  rw [hcursor]
  exact Store.claimMissed_all (Store.hasJob_of_mem hjob) _

/-- A recovery under `CatchUp` claims exactly the oldest eligible firings, as many as the
policy allows and in ascending order, when and only when its bounds leave them. -/
theorem Store.catchUp_recovers_iff (hjob : job ∈ s.jobs) (htimed : Calendar.Timed job)
    {maxOccurrences : U16} {maxAge : Duration}
    (hpolicy : job.misfirePolicy = .catchUp maxOccurrences maxAge)
    (hcursor : s.scheduleCursor job = some cursor) :
    (s.reconcileScheduleMisfires calendar job now).1 =
        (calendar.eligible job maxAge cursor now).take maxOccurrences.val ↔
      calendar.CatchUpFits job maxOccurrences.val maxAge cursor now := by
  rw [(Store.reconcile_claims hjob hcursor).1]
  exact Calendar.misfireCandidates_catchUp_iff htimed hpolicy

end CatchUpRecovery

section LongDowntime

open Calendar (hour)

def catchUpJob : Job :=
  { id := ⟨1⟩
    name := "hourly"
    command := "/bin/true"
    trigger := .cron "0 * * * *"
    triggerId := 7
    misfirePolicy := .catchUp 100 (.fromSecs 86400) }

/-- The firing at time zero has been claimed, and none since. -/
def claimedOnce : Store :=
  { jobs := [catchUpJob]
    cursors := [{ jobId := ⟨1⟩, triggerId := 7, scheduleRevision := 0, cursorAt := 0 }] }

theorem catchUpJob_timed : Calendar.Timed catchUpJob := by
  intro h
  exact JobTrigger.noConfusion h

theorem catchUpJob_missed {now : Instant} {k : ℕ}
    (hk : ((FiringSequence.visits (Calendar.hourly.nextOf catchUpJob) k 0).filter
      (· ≤ now)).length < k) :
    Calendar.hourly.missed catchUpJob 0 now =
      (FiringSequence.visits (Calendar.hourly.nextOf catchUpJob) k 0).filter (· ≤ now) :=
  FiringSequence.upTo_eq_filter (Calendar.nextOf_ascends catchUpJob_timed) hk

/-- After three hours without the daemon, the three missed firings are claimed. -/
theorem claimedOnce_short_downtime :
    (claimedOnce.reconcileScheduleMisfires .hourly catchUpJob (3 * hour)).1 =
      (Calendar.hourly.eligible catchUpJob (.fromSecs 86400) 0 (3 * hour)).take 100 := by
  have hmissed := @catchUpJob_missed (3 * hour) 4 (by decide +kernel)
  have hall : Calendar.hourly.eligible catchUpJob (.fromSecs 86400) 0 (3 * hour) =
      Calendar.hourly.missed catchUpJob 0 (3 * hour) := by
    unfold Calendar.eligible
    rw [hmissed]
    decide +kernel
  have hshort : Calendar.hourly.eligible catchUpJob
        (Calendar.effectiveAge (.fromSecs 86400)) 0 (3 * hour) =
      Calendar.hourly.eligible catchUpJob (.fromSecs 86400) 0 (3 * hour) := by
    have hage : Calendar.effectiveAge (.fromSecs 86400) = .fromSecs 86400 := by decide +kernel
    rw [hage]
  apply (@Store.catchUp_recovers_iff _ _ _ _ _ List.mem_cons_self catchUpJob_timed 100 _ rfl
    rfl).mpr
  exact .inr (.inr ⟨by decide, by decide +kernel, hshort, .inl hall⟩)

/-- After 130 hours the hundred firings that the preview answers are all older than a day. -/
theorem claimedOnce_long_downtime :
    (claimedOnce.reconcileScheduleMisfires .hourly catchUpJob (130 * hour)).1 = [] ∧
      (Calendar.hourly.eligible catchUpJob (.fromSecs 86400) 0 (130 * hour)).length = 25 ∧
      (claimedOnce.reconcileScheduleMisfires .hourly catchUpJob (130 * hour)).1 ≠
        (Calendar.hourly.eligible catchUpJob (.fromSecs 86400) 0 (130 * hour)).take 100 := by
  have hmissed := @catchUpJob_missed (130 * hour) 131 (by decide +kernel)
  unfold Calendar.eligible
  rw [hmissed]
  decide +kernel

end LongDowntime

end Supervisor
