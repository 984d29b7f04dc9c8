import Supervisor.FiringSequence
import Supervisor.JobDomain
import Supervisor.KeyedRows

namespace Supervisor

inductive SchedulerError where
  | invalidCron (expr : String)
  | invalidTimezone (timezone : String)
  | previewBounded (why : String)
deriving DecidableEq, Repr

/-- The libraries that read cron expressions and time zones. -/
structure Calendar where
  isTimezone : String → Bool
  isCron : String → Bool
  /-- The first firing of a cron expression in a time zone, strictly after an instant. -/
  nextCron : String → String → Instant → Option Instant
  nextCron_gt : ∀ expr timezone after next, nextCron expr timezone after = some next → after < next
  nextCron_least : ∀ expr timezone after after' next,
    nextCron expr timezone after' = some next → after < next →
      ∃ first, nextCron expr timezone after = some first ∧ first ≤ next

namespace Calendar

variable (calendar : Calendar)

/-- `chrono::Duration::from_std`: at most `i64::MAX` milliseconds. -/
def chronoDuration (d : Duration) : Option Duration :=
  if d ≤ (2^63 - 1) * 1000000 then some d else none

def nextForInTimezone (trigger : JobTrigger) (after : Instant) (timezone : String) :
    Option Instant :=
  match trigger with
  | .cron expr =>
    if calendar.isCron expr && calendar.isTimezone timezone then
      calendar.nextCron expr timezone after
    else none
  | .interval every => (chronoDuration every).map fun d => after + d
  | .oneShot at_ => if after < at_ then some at_ else none
  | .dependsOn _ => none

/-- The next firing of a job, as `register_job` and `preview` compute it. -/
def nextOf (job : Job) (after : Instant) : Option Instant :=
  calendar.nextForInTimezone job.trigger after job.timezone

/-- `365 * 5` days -/
def previewHorizon : ℤ := 365 * 5 * 86400 * nanosPerSec

/-- The loop of `preview`, with `after` the start of the search. -/
def previewLoop (job : Job) (after : Instant) : ℕ → Instant → Except SchedulerError (List Instant)
  | 0, _ => .ok []
  | count + 1, cursor =>
    match calendar.nextOf job cursor with
    | none => .ok []
    | some next =>
      if previewHorizon < next - after then
        .error (.previewBounded "search horizon exceeds 5 years")
      else (previewLoop job after count next).map (next :: ·)

def preview (job : Job) (after : Instant) (count : ℕ) : Except SchedulerError (List Instant) :=
  if 100 < count then .error (.previewBounded "count exceeds 100")
  else if !calendar.isTimezone job.timezone then .error (.invalidTimezone job.timezone)
  else calendar.previewLoop job after count after

/-- Whether `register_job` accepts a definition. -/
def registerJob (job : Job) : Except SchedulerError Unit :=
  match job.trigger with
  | .cron expr =>
    if !calendar.isCron expr then .error (.invalidCron expr)
    else if !calendar.isTimezone job.timezone then .error (.invalidTimezone job.timezone)
    else .ok ()
  | _ => .ok ()

section Preview

variable {calendar}

/-- A job that passed validation has no empty interval. -/
def Timed (job : Job) : Prop := job.trigger ≠ .interval 0

instance (job : Job) : Decidable (Timed job) :=
  inferInstanceAs (Decidable (¬job.trigger = .interval 0))

theorem nextOf_ascends {job : Job} (hjob : Timed job) :
    FiringSequence.Ascends (calendar.nextOf job) := by
  intro after next hnext
  unfold nextOf nextForInTimezone at hnext
  cases htrigger : job.trigger with
  | cron expr =>
    rw [htrigger] at hnext
    dsimp only at hnext
    split at hnext
    · exact calendar.nextCron_gt _ _ _ _ hnext
    · exact absurd hnext (by simp)
  | interval every =>
    rw [htrigger] at hnext
    have hevery : every ≠ 0 := fun h => hjob (by rw [htrigger, h])
    obtain ⟨d, hd, rfl⟩ := Option.map_eq_some_iff.mp hnext
    have hsame : d = every := by
      unfold chronoDuration at hd
      split at hd
      · exact (Option.some.inj hd).symm
      · exact absurd hd (by simp)
    have hpos : 0 < every := Nat.pos_of_ne_zero hevery
    rw [hsame]
    have hpos' : (0 : ℤ) < (every : ℤ) := by exact_mod_cast hpos
    exact lt_add_of_pos_right after hpos'
  | oneShot at_ =>
    rw [htrigger] at hnext
    dsimp only at hnext
    split at hnext
    · rename_i hlt
      exact Option.some.inj hnext ▸ hlt
    · exact absurd hnext (by simp)
  | dependsOn upstream =>
    rw [htrigger] at hnext
    exact absurd hnext (by simp)

/-- A later start of the search finds no earlier firing. -/
theorem nextOf_mono {job : Job} (hjob : Timed job) {after after' next : Instant}
    (hle : after ≤ after') (hnext : calendar.nextOf job after' = some next) :
    ∃ first, calendar.nextOf job after = some first ∧ first ≤ next := by
  have hlt : after < next := lt_of_le_of_lt hle (nextOf_ascends hjob _ _ hnext)
  unfold nextOf nextForInTimezone at hnext ⊢
  cases htrigger : job.trigger with
  | cron expr =>
    rw [htrigger] at hnext
    dsimp only at hnext ⊢
    split at hnext
    · rename_i hvalid
      rw [if_pos hvalid]
      exact calendar.nextCron_least _ _ _ _ _ hnext hlt
    · exact absurd hnext (by simp)
  | interval every =>
    rw [htrigger] at hnext
    dsimp only at hnext ⊢
    obtain ⟨d, hd, rfl⟩ := Option.map_eq_some_iff.mp hnext
    refine ⟨after + d, by rw [hd]; rfl, ?_⟩
    exact Int.add_le_add_right hle d
  | oneShot at_ =>
    rw [htrigger] at hnext
    dsimp only at hnext ⊢
    split at hnext
    · obtain rfl := Option.some.inj hnext
      exact ⟨at_, if_pos hlt, le_rfl⟩
    · exact absurd hnext (by simp)
  | dependsOn upstream =>
    rw [htrigger] at hnext
    exact absurd hnext (by simp)

/-- The loop answers the next firings, unless one of them lies beyond the horizon. -/
theorem previewLoop_eq (job : Job) (after : Instant) (count : ℕ) (cursor : Instant) :
    (calendar.previewLoop job after count cursor).toOption =
      if ∀ f ∈ FiringSequence.visits (calendar.nextOf job) count cursor, f - after ≤ previewHorizon then
        some (FiringSequence.visits (calendar.nextOf job) count cursor)
      else none := by
  induction count generalizing cursor with
  | zero => simp [previewLoop, FiringSequence.visits, Except.toOption]
  | succ count ih =>
    rw [previewLoop, FiringSequence.visits]
    cases hnext : calendar.nextOf job cursor with
    | none => simp [Except.toOption]
    | some next =>
      dsimp only
      by_cases hfar : previewHorizon < next - after
      · have hnear : ¬next - after ≤ previewHorizon := not_le.mpr hfar
        rw [if_pos hfar, if_neg fun h => hnear (h next List.mem_cons_self)]
        rfl
      · have hnear : next - after ≤ previewHorizon := not_lt.mp hfar
        have hrest := ih next
        rw [if_neg hfar]
        cases hloop : calendar.previewLoop job after count next with
        | error e =>
          rw [hloop] at hrest
          split at hrest
          · exact absurd hrest (by simp [Except.toOption])
          · rename_i hbeyond
            rw [if_neg fun h => hbeyond fun f hf => h f (List.mem_cons_of_mem _ hf)]
            rfl
        | ok rest =>
          rw [hloop] at hrest
          split at hrest
          · rename_i hwithin
            have hall : ∀ f ∈ next :: FiringSequence.visits (calendar.nextOf job) count next,
                f - after ≤ previewHorizon := by
              intro f hf
              rcases List.mem_cons.mp hf with rfl | hf
              · exact hnear
              · exact hwithin f hf
            rw [if_pos hall]
            show some (next :: rest) = _
            rw [← Option.some.inj hrest]
          · exact absurd hrest (by simp [Except.toOption])

/-- When `preview` answers: the count is bounded, the time zone known, and no firing that it
looks at lies beyond the horizon. -/
def Previewable (calendar : Calendar) (job : Job) (after : Instant) (count : ℕ) : Prop :=
  count ≤ 100 ∧ calendar.isTimezone job.timezone = true ∧
    ∀ f ∈ FiringSequence.visits (calendar.nextOf job) count after, f - after ≤ previewHorizon

instance (calendar : Calendar) (job : Job) (after : Instant) (count : ℕ) :
    Decidable (Previewable calendar job after count) := by
  unfold Previewable
  exact inferInstance

theorem preview_eq (job : Job) (after : Instant) (count : ℕ) :
    (calendar.preview job after count).toOption =
      if Previewable calendar job after count then
        some (FiringSequence.visits (calendar.nextOf job) count after)
      else none := by
  unfold preview
  by_cases hcount : 100 < count
  · have hnot : ¬Previewable calendar job after count := fun h => absurd h.1 (not_le.mpr hcount)
    rw [if_pos hcount, if_neg hnot]
    rfl
  · rw [if_neg hcount]
    by_cases hzone : calendar.isTimezone job.timezone = true
    · have hiff : (∀ f ∈ FiringSequence.visits (calendar.nextOf job) count after,
          f - after ≤ previewHorizon) ↔ Previewable calendar job after count :=
        ⟨fun h => ⟨not_lt.mp hcount, hzone, h⟩, fun h => h.2.2⟩
      rw [if_neg (by simp [hzone]), previewLoop_eq]
      exact if_congr hiff rfl rfl
    · have hnot : ¬Previewable calendar job after count := fun h => hzone h.2.1
      rw [if_pos (by simpa using hzone), if_neg hnot]
      rfl

end Preview

section Hourly

def hour : ℤ := 3600 * nanosPerSec

/-- A calendar that knows the expression `0 * * * *` and the time zone `UTC`. -/
def hourly : Calendar where
  isTimezone timezone := timezone = "UTC"
  isCron expr := expr = "0 * * * *"
  nextCron _ _ after := some ((after / hour + 1) * hour)
  nextCron_gt _ _ after next h := by
    have hhour : (0 : ℤ) < hour := by decide
    have hrem := Int.emod_lt_of_pos after hhour
    have hdiv := Int.mul_ediv_add_emod after hour
    rw [← Option.some.inj h, Int.add_mul, Int.one_mul, Int.mul_comm]
    calc after = hour * (after / hour) + after % hour := hdiv.symm
      _ < hour * (after / hour) + hour := Int.add_lt_add_left hrem _
  nextCron_least _ _ after after' next h hlt := by
    have hhour : (0 : ℤ) < hour := by decide
    refine ⟨_, rfl, ?_⟩
    obtain rfl := Option.some.inj h
    -- `next` is a multiple of the hour above `after`
    have hdiv : after / hour < after' / hour + 1 := by
      apply Int.ediv_lt_of_lt_mul hhour
      exact hlt
    exact Int.mul_le_mul_of_nonneg_right hdiv (le_of_lt hhour)

end Hourly

end Calendar

end Supervisor
