import Mathlib.Data.ZMod.Defs
import Supervisor.ConfigValidation
import Supervisor.DefinitionRows
import Supervisor.RetryBackoff
import Supervisor.TimerScheduler

namespace Supervisor

/-! The date arithmetic of schedules, with the panics of the date library. -/

/-- Which operation of the date library panics. -/
inductive DatePanic where
  | dateTime
  | timeDelta
deriving DecidableEq, Repr

/-- `DateTime::<Utc>::MIN_UTC`, in nanoseconds since the epoch -/
def minUtc : ℤ := -8334601228800 * 1000000000

/-- `DateTime::<Utc>::MAX_UTC` -/
def maxUtc : ℤ := 8210266876799 * 1000000000 + 999999999

/-- The instants of `DateTime<Utc>` -/
def Representable (t : ℤ) : Prop := minUtc ≤ t ∧ t ≤ maxUtc

instance (t : ℤ) : Decidable (Representable t) :=
  inferInstanceAs (Decidable (minUtc ≤ t ∧ t ≤ maxUtc))

/-- `DateTime + TimeDelta` -/
def addDelta (t d : ℤ) : Except DatePanic ℤ :=
  if Representable (t + d) then .ok (t + d) else .error .dateTime

/-- `DateTime - TimeDelta` -/
def subDelta (t d : ℤ) : Except DatePanic ℤ :=
  if Representable (t - d) then .ok (t - d) else .error .dateTime

/-- `DateTime - DateTime`, at most `i64::MAX` milliseconds -/
def deltaBetween (t u : ℤ) : Except DatePanic ℤ :=
  if (t - u).natAbs ≤ (2^63 - 1) * 1000000 then .ok (t - u) else .error .timeDelta

/-- `TimeDelta::seconds` -/
def deltaSeconds (secs : ℤ) : Except DatePanic ℤ :=
  if secs.natAbs ≤ (2^63 - 1) / 1000 then .ok (secs * 1000000000) else .error .timeDelta

namespace CheckedDates

variable (calendar : Calendar)

def nextForInTimezone (trigger : JobTrigger) (after : Instant) (timezone : String) :
    Except DatePanic (Option Instant) :=
  match trigger with
  | .cron expr =>
    if calendar.isCron expr && calendar.isTimezone timezone then
      .ok (calendar.nextCron expr timezone after)
    else .ok none
  | .interval every =>
    match Calendar.chronoDuration every with
    | none => .ok none
    | some d => (addDelta after d).map some
  | .oneShot at_ => .ok (if after < at_ then some at_ else none)
  | .dependsOn _ => .ok none

def previewLoop (job : Job) (after : Instant) :
    ℕ → Instant → Except DatePanic (Except SchedulerError (List Instant))
  | 0, _ => .ok (.ok [])
  | count + 1, cursor =>
    match nextForInTimezone calendar job.trigger cursor job.timezone with
    | .error panic => .error panic
    | .ok none => .ok (.ok [])
    | .ok (some next) =>
      match deltaBetween next after with
      | .error panic => .error panic
      | .ok ahead =>
        if Calendar.previewHorizon < ahead then
          .ok (.error (.previewBounded "search horizon exceeds 5 years"))
        else (previewLoop job after count next).map fun rest => rest.map (next :: ·)

def preview (job : Job) (after : Instant) (count : ℕ) :
    Except DatePanic (Except SchedulerError (List Instant)) :=
  if 100 < count then .ok (.error (.previewBounded "count exceeds 100"))
  else if !calendar.isTimezone job.timezone then .ok (.error (.invalidTimezone job.timezone))
  else previewLoop calendar job after count after

/-- `retry_at` -/
def retryAt (policy : RetryPolicy) (attempt : U16) (runId : JobRunId) (now : Instant) :
    Except DatePanic Instant :=
  (deltaSeconds (asI64 (Store.retryDelay policy attempt runId))).bind (addDelta now)

/-- `older_than` -/
def olderThan (retention : LogRetention) (now : Instant) : Except DatePanic (Option Instant) :=
  match retention.maxAgeDays with
  | none => .ok none
  | some days => ((deltaSeconds (days.val * 86400)).bind (subDelta now)).map some

/-- Nothing panics or wraps, and each next run lies after its reference. -/
structure Safe (job : Job) (now : Instant) : Prop where
  nextRun : ∀ timezone, nextForInTimezone calendar job.trigger now timezone =
      .ok (calendar.nextForInTimezone job.trigger now timezone) ∧
    ∀ next, calendar.nextForInTimezone job.trigger now timezone = some next → now < next
  preview : ∀ count, CheckedDates.preview calendar job now count =
      .ok (calendar.preview job now count) ∧
    ∀ instants, calendar.preview job now count = .ok instants →
      (now :: instants).Pairwise (· < ·)
  retry : ∀ attempt : U16, ∀ runId : JobRunId, 1 ≤ attempt.val →
    attempt < job.retryPolicy.maxAttempts → runId.val < 2^128 →
      retryAt job.retryPolicy attempt runId now =
        .ok (now + Store.retryDelay job.retryPolicy attempt runId * nanosPerSec)
  cutoff : olderThan job.logRetention now =
    .ok (job.logRetention.maxAgeDays.map fun days => now - days.val * 86400 * nanosPerSec)

/-- What the user's numbers may be at an instant: the runs of an interval that a preview looks at,
the latest retry and the retention cutoff are dates. -/
structure Fits (job : Job) (now : Instant) : Prop where
  interval : ∀ every : Duration, job.trigger = .interval every → every ≤ (2^63 - 1) * 1000000 →
    ∀ k : ℕ, k < (if calendar.isTimezone job.timezone then 100 else 1) →
      (k * every : ℤ) ≤ Calendar.previewHorizon → now + (k + 1) * every ≤ maxUtc
  retry : ∀ last : U16, 1 ≤ last.val → last.val + 1 = job.retryPolicy.maxAttempts.val →
    now + job.retryPolicy.longestDelay last * nanosPerSec ≤ maxUtc
  retention : ∀ days : U32, job.logRetention.maxAgeDays = some days →
    minUtc ≤ now - days.val * 86400 * nanosPerSec

/-- The instants of a job and of the calendar are dates. -/
structure Dated (job : Job) : Prop where
  oneShot : ∀ at_, job.trigger = .oneShot at_ → Representable at_
  cron : ∀ expr timezone after next, calendar.nextCron expr timezone after = some next →
    Representable next

variable {calendar}

section Library

variable {t u d : ℤ}

theorem addDelta_eq_ok_iff (ht : Representable t) (hd : 0 ≤ d) :
    addDelta t d = .ok (t + d) ↔ t + d ≤ maxUtc := by
  unfold addDelta
  by_cases hfits : Representable (t + d)
  · rw [if_pos hfits]
    exact iff_of_true rfl hfits.2
  · rw [if_neg hfits]
    refine iff_of_false (by simp) fun hle => hfits ⟨?_, hle⟩
    have hlow := ht.1
    omega

theorem addDelta_ok (h : addDelta t d = .ok u) : u = t + d := by
  unfold addDelta at h
  split at h
  · exact (Except.ok.inj h).symm
  · cases h

theorem subDelta_eq_ok_iff (ht : Representable t) (hd : 0 ≤ d) :
    subDelta t d = .ok (t - d) ↔ minUtc ≤ t - d := by
  unfold subDelta
  by_cases hfits : Representable (t - d)
  · rw [if_pos hfits]
    exact iff_of_true rfl hfits.1
  · rw [if_neg hfits]
    refine iff_of_false (by simp) fun hle => hfits ⟨hle, ?_⟩
    have hhigh := ht.2
    omega

theorem deltaBetween_eq (ht : Representable t) (hu : Representable u) :
    deltaBetween t u = .ok (t - u) := by
  obtain ⟨hlow, hhigh⟩ := ht
  obtain ⟨hlow', hhigh'⟩ := hu
  unfold minUtc at hlow hlow'
  unfold maxUtc at hhigh hhigh'
  exact if_pos (by omega)

theorem asI64_of_lt {n : ℕ} (h : n < 2^63) : asI64 n = n := by
  have hmod : n % 2^64 = n := Nat.mod_eq_of_lt (lt_trans h (by decide))
  unfold asI64
  dsimp only
  rw [hmod, if_pos h]

/-- The cast and the seconds do no harm when the date after them is representable. -/
theorem seconds_add_eq_ok_iff {secs : ℕ} (ht : Representable t) (hsecs : secs < 2^64) :
    (deltaSeconds (asI64 secs)).bind (addDelta t) = .ok (t + secs * 1000000000) ↔
      t + secs * 1000000000 ≤ maxUtc := by
  constructor
  · intro h
    unfold deltaSeconds at h
    split at h
    · have hsum : t + secs * 1000000000 = t + asI64 secs * 1000000000 := addDelta_ok h
      -- a cast that wraps would give an earlier date
      have hcast : asI64 secs = secs := by omega
      rw [hcast] at h
      exact (addDelta_eq_ok_iff ht (by omega)).mp h
    · cases h
  · intro hle
    have hlow := ht.1
    unfold maxUtc at hle
    unfold minUtc at hlow
    have hcast : asI64 secs = secs := asI64_of_lt (by omega)
    have hdelta : deltaSeconds (asI64 secs) = .ok (secs * 1000000000) := by
      rw [hcast]
      exact if_pos (by omega)
    rw [hdelta]
    exact (addDelta_eq_ok_iff ht (by omega)).mpr hle

theorem add_secs_le {secs secs' : ℕ} (hle : secs ≤ secs') (h : t + secs' * 1000000000 ≤ u) :
    t + secs * 1000000000 ≤ u := by
  omega

theorem map_some_eq_ok_iff {x : Except DatePanic ℤ} : x.map some = .ok (some t) ↔ x = .ok t := by
  cases x with
  | error panic => exact iff_of_false (fun h => by cases h) fun h => by cases h
  | ok u =>
    constructor
    · intro h
      rw [Option.some.inj (Except.ok.inj h)]
    · rintro h
      rw [h]
      rfl

end Library

section Preview

variable {job : Job} {now after : Instant} {every : Duration}

theorem nextForInTimezone_interval (hsmall : every ≤ (2^63 - 1) * 1000000) (timezone : String) :
    nextForInTimezone calendar (.interval every) after timezone =
        (addDelta after every).map some ∧
      calendar.nextForInTimezone (.interval every) after timezone = some (after + every) := by
  have hchrono : Calendar.chronoDuration every = some every := if_pos hsmall
  constructor
  · simp only [nextForInTimezone, hchrono]
  · simp only [Calendar.nextForInTimezone, hchrono]
    rfl

/-- Only the addition of an interval may panic. -/
theorem nextForInTimezone_eq (trigger : JobTrigger) (timezone : String)
    (h : ∀ every, trigger = .interval every → every ≤ (2^63 - 1) * 1000000 →
      Representable (after + every)) :
    nextForInTimezone calendar trigger after timezone =
      .ok (calendar.nextForInTimezone trigger after timezone) := by
  cases trigger with
  | cron expr =>
    simp only [nextForInTimezone, Calendar.nextForInTimezone]
    split
    · rfl
    · rfl
  | oneShot at_ => rfl
  | dependsOn upstream => rfl
  | interval every =>
    by_cases hsmall : every ≤ (2^63 - 1) * 1000000
    · obtain ⟨hchecked, hnext⟩ := @nextForInTimezone_interval calendar _ _ hsmall timezone
      rw [hchecked, hnext, addDelta, if_pos (h every rfl hsmall)]
      rfl
    · have hchrono : Calendar.chronoDuration every = none := if_neg hsmall
      simp only [nextForInTimezone, Calendar.nextForInTimezone, hchrono]
      rfl

theorem nextForInTimezone_interval_iff (hafter : Representable after)
    (hsmall : every ≤ (2^63 - 1) * 1000000) (timezone : String) :
    nextForInTimezone calendar (.interval every) after timezone =
        .ok (calendar.nextForInTimezone (.interval every) after timezone) ↔
      after + every ≤ maxUtc := by
  obtain ⟨hchecked, hnext⟩ := @nextForInTimezone_interval calendar _ _ hsmall timezone
  rw [hchecked, hnext, ← addDelta_eq_ok_iff hafter (Int.natCast_nonneg every)]
  cases addDelta after every with
  | error panic => simp [Except.map]
  | ok next => simp [Except.map]

/-- A preview that does not add intervals does not panic. -/
theorem previewLoop_eq (hjob : Dated calendar job) (hafter : Representable after)
    (hnone : ∀ every, job.trigger = .interval every → ¬every ≤ (2^63 - 1) * 1000000)
    (count : ℕ) (cursor : Instant) :
    previewLoop calendar job after count cursor =
      .ok (calendar.previewLoop job after count cursor) := by
  induction count generalizing cursor with
  | zero => rfl
  | succ count ih =>
    have hnext := @nextForInTimezone_eq calendar cursor job.trigger job.timezone fun every
      htrigger hsmall => absurd hsmall (hnone every htrigger)
    unfold previewLoop Calendar.previewLoop Calendar.nextOf
    rw [hnext]
    cases hfound : calendar.nextForInTimezone job.trigger cursor job.timezone with
    | none => rfl
    | some next =>
      have hdate : Representable next := by
        unfold Calendar.nextForInTimezone at hfound
        cases htrigger : job.trigger with
        | cron expr =>
          rw [htrigger] at hfound
          dsimp only at hfound
          split at hfound
          · exact hjob.cron _ _ _ _ hfound
          · cases hfound
        | interval every =>
          have hchrono : Calendar.chronoDuration every = none := if_neg (hnone every htrigger)
          simp only [htrigger, hchrono] at hfound
          cases hfound
        | oneShot at_ =>
          rw [htrigger] at hfound
          dsimp only at hfound
          split at hfound
          · cases hfound
            exact hjob.oneShot _ htrigger
          · cases hfound
        | dependsOn upstream =>
          rw [htrigger] at hfound
          cases hfound
      dsimp only
      rw [deltaBetween_eq hdate hafter]
      dsimp only
      split
      · rfl
      · rw [ih next]
        rfl

theorem map_cons_eq_ok_iff {next : Instant}
    {x : Except DatePanic (Except SchedulerError (List Instant))}
    {y : Except SchedulerError (List Instant)} :
    (x.map fun rest => rest.map (next :: ·)) = .ok (y.map (next :: ·)) ↔ x = .ok y := by
  constructor
  · intro h
    cases x with
    | error panic => cases h
    | ok answer =>
      have hanswer : answer.map (next :: ·) = y.map (next :: ·) := Except.ok.inj h
      cases answer with
      | error e =>
        cases y with
        | error e' => rw [Except.error.inj hanswer]
        | ok rest => cases hanswer
      | ok rest =>
        cases y with
        | error e => cases hanswer
        | ok rest' => rw [(List.cons.inj (Except.ok.inj hanswer)).2]
  · rintro rfl
    rfl

/-- A loop that stands at the `i`-th run of an interval does not panic when the runs it looks at
are dates: those within the horizon, and the one after. -/
theorem previewLoop_interval_iff (htrigger : job.trigger = .interval every)
    (hsmall : every ≤ (2^63 - 1) * 1000000) (hafter : Representable after) (count i : ℕ)
    (hdate : Representable (after + i * every)) (hnear : (i * every : ℤ) ≤ Calendar.previewHorizon) :
    previewLoop calendar job after count (after + i * every) =
        .ok (calendar.previewLoop job after count (after + i * every)) ↔
      ∀ k : ℕ, k < count → ((i + k : ℕ) * every : ℤ) ≤ Calendar.previewHorizon →
        after + ((i + k : ℕ) + 1) * every ≤ maxUtc := by
  induction count generalizing i with
  | zero => exact iff_of_true rfl fun k hk => absurd hk (Nat.not_lt_zero k)
  | succ count ih =>
    have hstep : after + i * every + every = after + (i + 1 : ℕ) * every := by
      push_cast
      ring
    obtain ⟨hchecked, hnext⟩ := @nextForInTimezone_interval calendar (after + i * every) _ hsmall
      job.timezone
    unfold previewLoop Calendar.previewLoop Calendar.nextOf
    rw [htrigger, hchecked, hnext, hstep]
    by_cases hfits : after + (i + 1 : ℕ) * every ≤ maxUtc
    · have hadd : (addDelta (after + i * every) every).map some =
          .ok (some (after + (i + 1 : ℕ) * every)) := by
        rw [← hstep, (addDelta_eq_ok_iff hdate (Int.natCast_nonneg every)).mpr (hstep ▸ hfits)]
        rfl
      have hnextDate : Representable (after + (i + 1 : ℕ) * every) := by
        refine ⟨?_, hfits⟩
        have hpos : (0 : ℤ) ≤ (i + 1 : ℕ) * (every : ℤ) :=
          Int.mul_nonneg (Int.natCast_nonneg _) (Int.natCast_nonneg _)
        have hlow := hafter.1
        omega
      have hahead : after + (i + 1 : ℕ) * every - after = ((i + 1 : ℕ) * every : ℤ) := by ring
      rw [hadd]
      dsimp only
      rw [deltaBetween_eq hnextDate hafter, hahead]
      dsimp only
      by_cases hfar : Calendar.previewHorizon < ((i + 1 : ℕ) * every : ℤ)
      · rw [if_pos hfar, if_pos hfar]
        refine iff_of_true rfl fun k hk hwithin => ?_
        -- a later turn would be beyond the horizon
        rcases Nat.eq_zero_or_pos k with rfl | hk
        · simpa using hfits
        · have hle : ((i + 1 : ℕ) * every : ℤ) ≤ (i + k : ℕ) * every := by
            have hik : i + 1 ≤ i + k := by omega
            exact_mod_cast Nat.mul_le_mul_right every hik
          exact absurd (lt_of_lt_of_le hfar hle) (not_lt.mpr hwithin)
      · rw [if_neg hfar, if_neg hfar]
        have hrest := ih (i + 1) hnextDate (not_lt.mp hfar)
        rw [map_cons_eq_ok_iff, hrest]
        constructor
        · intro h k hk hwithin
          rcases k with _ | k
          · simpa using hfits
          · have hshift : i + (k + 1) = i + 1 + k := by omega
            rw [hshift] at hwithin ⊢
            exact h k (by omega) hwithin
        · intro h k hk hwithin
          have hshift : i + 1 + k = i + (k + 1) := by omega
          rw [hshift] at hwithin ⊢
          exact h (k + 1) (by omega) hwithin
    · have hadd : addDelta (after + i * every) every = .error .dateTime := by
        have hnot : ¬Representable (after + i * every + every) := fun h =>
          hfits (hstep ▸ h.2)
        exact if_neg hnot
      rw [hadd]
      refine iff_of_false (fun h => by cases h) fun h => hfits ?_
      simpa using h 0 (Nat.succ_pos count) (by simpa using hnear)

end Preview

section Job

variable {job : Job} {now : Instant} {existing : List Job} {isPast : Bool}

theorem timed_of_validate (h : job.validate existing now isPast = .ok ()) : Calendar.Timed job := by
  intro htrigger
  unfold Job.validate at h
  rw [htrigger] at h
  dsimp only at h
  rw [if_pos rfl] at h
  split_ifs at h

theorem retry_iff (hnow : Representable now) (policy : RetryPolicy) :
    (∀ attempt : U16, ∀ runId : JobRunId, 1 ≤ attempt.val → attempt < policy.maxAttempts →
      runId.val < 2^128 → retryAt policy attempt runId now =
        .ok (now + Store.retryDelay policy attempt runId * nanosPerSec)) ↔
      ∀ last : U16, 1 ≤ last.val → last.val + 1 = policy.maxAttempts.val →
        now + policy.longestDelay last * nanosPerSec ≤ maxUtc := by
  have hword (attempt : U16) (runId : JobRunId) : Store.retryDelay policy attempt runId < 2^64 := by
    rw [RetryPolicy.retryDelay_eq]
    exact lt_of_le_of_lt (min_le_right _ _) (by decide)
  constructor
  · intro h last hfirst hlast
    obtain ⟨runId, hid, hlongest⟩ := RetryPolicy.exists_retryDelay_eq_longest policy last
    have hlt : last < policy.maxAttempts := by
      show last.val < policy.maxAttempts.val
      omega
    rw [← hlongest]
    exact (seconds_add_eq_ok_iff hnow (hword last runId)).mp (h last runId hfirst hlt hid)
  · intro h attempt runId hfirst hlt _
    have hlt : attempt.val < policy.maxAttempts.val := hlt
    have hmax := policy.maxAttempts.isLt
    refine (seconds_add_eq_ok_iff hnow (hword attempt runId)).mpr ?_
    -- no attempt waits longer than the last one that is retried
    have hlast := h ⟨policy.maxAttempts.val - 1, by omega⟩ (by show 1 ≤ _ - 1; omega)
      (by show _ - 1 + 1 = _; omega)
    have hle : Store.retryDelay policy attempt runId ≤
        policy.longestDelay ⟨policy.maxAttempts.val - 1, by omega⟩ :=
      le_trans RetryPolicy.retryDelay_le (RetryPolicy.longestDelay_mono (by
        show attempt.val ≤ policy.maxAttempts.val - 1
        omega))
    exact add_secs_le hle hlast

theorem cutoff_iff (hnow : Representable now) (retention : LogRetention) :
    olderThan retention now =
        .ok (retention.maxAgeDays.map fun days => now - days.val * 86400 * nanosPerSec) ↔
      ∀ days : U32, retention.maxAgeDays = some days →
        minUtc ≤ now - days.val * 86400 * nanosPerSec := by
  unfold olderThan
  cases hage : retention.maxAgeDays with
  | none => exact iff_of_true rfl fun days h => by cases h
  | some days =>
    have hdays := days.isLt
    have hdelta : deltaSeconds (days.val * 86400) = .ok (days.val * 86400 * 1000000000) :=
      if_pos (by omega)
    have hiff := subDelta_eq_ok_iff (d := days.val * 86400 * 1000000000) hnow (by omega)
    dsimp only
    rw [hdelta]
    constructor
    · rintro h other hother
      cases hother
      exact hiff.mp (map_some_eq_ok_iff.mp h)
    · intro h
      exact map_some_eq_ok_iff.mpr (hiff.mpr (h days rfl))

theorem preview_interval_iff {every : Duration} (htrigger : job.trigger = .interval every)
    (hsmall : every ≤ (2^63 - 1) * 1000000) (hnow : Representable now) (count : ℕ) :
    previewLoop calendar job now count now = .ok (calendar.previewLoop job now count now) ↔
      ∀ k : ℕ, k < count → (k * every : ℤ) ≤ Calendar.previewHorizon →
        now + (k + 1) * every ≤ maxUtc := by
  have hstart : now + (0 : ℕ) * (every : ℤ) = now := by simp
  have hiff := @previewLoop_interval_iff calendar _ _ _ htrigger hsmall hnow count 0
    (hstart.symm ▸ hnow) (by simp [Calendar.previewHorizon])
  rw [hstart] at hiff
  simpa only [Nat.zero_add] using hiff

theorem preview_sorted (hjob : Calendar.Timed job) {count : ℕ} {instants : List Instant}
    (h : calendar.preview job now count = .ok instants) : (now :: instants).Pairwise (· < ·) := by
  have hoption := @Calendar.preview_eq calendar job now count
  rw [h] at hoption
  split at hoption
  · obtain rfl : instants = _ := Option.some.inj hoption
    exact FiringSequence.visits_sorted (Calendar.nextOf_ascends hjob) count now
  · cases hoption

theorem Safe.fits (h : Safe calendar job now) (hnow : Representable now) :
    Fits calendar job now where
  interval every htrigger hsmall k hk hnear := by
    by_cases hzone : calendar.isTimezone job.timezone = true
    · rw [if_pos hzone] at hk
      have hpreview := (h.preview 100).1
      unfold CheckedDates.preview Calendar.preview at hpreview
      rw [if_neg (Nat.lt_irrefl 100), if_neg (Nat.lt_irrefl 100), hzone] at hpreview
      exact (preview_interval_iff htrigger hsmall hnow 100).mp hpreview k hk hnear
    · rw [if_neg hzone] at hk
      obtain rfl : k = 0 := by omega
      have hnext := (h.nextRun "UTC").1
      rw [htrigger] at hnext
      simpa using (nextForInTimezone_interval_iff hnow hsmall "UTC").mp hnext
  retry := (retry_iff hnow job.retryPolicy).mp h.retry
  retention := (cutoff_iff hnow job.logRetention).mp h.cutoff

theorem Fits.safe (h : Fits calendar job now) (hjob : Dated calendar job) (hnow : Representable now)
    (htimed : Calendar.Timed job) : Safe calendar job now where
  nextRun timezone := by
    constructor
    · refine nextForInTimezone_eq job.trigger timezone fun every htrigger hsmall => ?_
      have hfirst := h.interval every htrigger hsmall 0 (by split <;> omega)
        (by simp [Calendar.previewHorizon])
      refine ⟨le_trans hnow.1 (Int.le_add_of_nonneg_right (Int.natCast_nonneg every)), ?_⟩
      simpa using hfirst
    · intro next hnext
      have hascends := @Calendar.nextOf_ascends calendar ({ job with timezone }) htimed
      exact hascends now next hnext
  preview count := by
    refine ⟨?_, fun instants hinstants => preview_sorted htimed hinstants⟩
    unfold preview Calendar.preview
    by_cases hcount : 100 < count
    · rw [if_pos hcount, if_pos hcount]
    · rw [if_neg hcount, if_neg hcount]
      by_cases hzone : calendar.isTimezone job.timezone = true
      · rw [if_neg (by simp [hzone]), if_neg (by simp [hzone])]
        by_cases hadds : ∃ every, job.trigger = .interval every ∧ every ≤ (2^63 - 1) * 1000000
        · obtain ⟨every, htrigger, hsmall⟩ := hadds
          refine (preview_interval_iff htrigger hsmall hnow count).mpr fun k hk hnear => ?_
          exact h.interval every htrigger hsmall k (by rw [if_pos hzone]; omega) hnear
        · exact previewLoop_eq hjob hnow (fun every htrigger hsmall =>
            hadds ⟨every, htrigger, hsmall⟩) count now
      · rw [if_pos (by simpa using hzone), if_pos (by simpa using hzone)]
  retry := (retry_iff hnow job.retryPolicy).mpr h.retry
  cutoff := (cutoff_iff hnow job.logRetention).mpr h.retention

/-- A definition that passed validation is safe at an instant when the dates that the user's
numbers lead to are representable. -/
theorem validated_safe_iff (hvalid : job.validate existing now isPast = .ok ())
    (hjob : Dated calendar job) (hnow : Representable now) :
    Safe calendar job now ↔ Fits calendar job now :=
  ⟨fun h => h.fits hnow, fun h => h.safe hjob hnow (timed_of_validate hvalid)⟩

end Job

section Aged

/-- A calendar that knows the time zone `UTC` and no cron expression. -/
def utcOnly : Calendar where
  isTimezone timezone := timezone = "UTC"
  isCron _ := false
  nextCron _ _ _ := none
  nextCron_gt _ _ _ _ h := by cases h
  nextCron_least _ _ _ _ _ h := by cases h

/-- An hourly job that keeps its logs for a number of days. -/
def agedJob (days : U32) : Job :=
  { id := ⟨1⟩, name := "aged", command := "/bin/true", trigger := .interval (3600 * nanosPerSec)
    logRetention := { maxAgeDays := some days }, retryPolicy := { maxAttempts := 5 } }

theorem agedJob_dated (days : U32) : Dated utcOnly (agedJob days) where
  oneShot _ h := by cases h
  cron _ _ _ _ h := by cases h

/-- Thirty days, in the year 2026. -/
theorem agedJob_safe : Safe utcOnly (agedJob 30) (1790000000 * nanosPerSec) := by
  have hfits : Fits utcOnly (agedJob 30) (1790000000 * nanosPerSec) := {
    interval := fun every htrigger _ k hk _ => by
      cases htrigger
      have hk : k < 100 := hk
      show (1790000000 * 1000000000 + (k + 1) * (3600 * 1000000000) : ℤ) ≤
        8210266876799 * 1000000000 + 999999999
      omega
    retry := fun last _ hlast => by
      have hfour : last = 4 := Fin.ext (by
        have hlast : last.val + 1 = 5 := hlast
        show last.val = 4
        omega)
      rw [hfour]
      decide
    retention := fun days hdays => by
      cases hdays
      decide }
  exact (@validated_safe_iff _ _ _ [] false rfl (agedJob_dated 30) (by decide)).mpr hfits

/-- The largest number of days passes validation, and its cutoff is no date. -/
theorem agedJob_panics :
    (agedJob (2^32 - 1)).validate [] (1790000000 * nanosPerSec) false = .ok () ∧
      olderThan (agedJob (2^32 - 1)).logRetention (1790000000 * nanosPerSec) = .error .dateTime ∧
      ¬Safe utcOnly (agedJob (2^32 - 1)) (1790000000 * nanosPerSec) := by
  have hpanic : olderThan (agedJob (2^32 - 1)).logRetention (1790000000 * nanosPerSec) =
      .error .dateTime := by
    decide
  refine ⟨rfl, hpanic, fun hsafe => ?_⟩
  have hcutoff := hsafe.cutoff
  rw [hpanic] at hcutoff
  cases hcutoff

end Aged

end CheckedDates

end Supervisor
