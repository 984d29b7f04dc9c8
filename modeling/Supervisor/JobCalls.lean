import Supervisor.DefinitionTables
import Supervisor.TimerScheduler

namespace Supervisor

def SchedulerError.toAppError : SchedulerError → AppError
  | .invalidCron message => .invalidCron message
  | .invalidTimezone message => .invalidConfig ("invalid_timezone: " ++ message)
  | .previewBounded why => .invalidRequest ("schedule_preview_bounded: " ++ why)

/-- The jobs of other names. -/
def othersThan (name : String) (all : List Job) : List Job := all.filter fun job => job.name ≠ name

/-- What `add_job` checks on the jobs it has listed. -/
def planAdd (all : List Job) (job : Job) (now : Instant) : Except AppError Unit :=
  match job.validate all now false with
  | .error e => .error e
  | .ok () =>
    if all.any fun other => other.name = job.name then .error (.conflict .jobNameConflict)
    else if formsCycle job all then .error .cycleDetected
    else .ok ()

/-- The schedule identity that `update_job` gives to a definition. -/
def withScheduleIdentity (existing job : Job) (newTriggerId : Uuid) : Job :=
  if job.trigger ≠ existing.trigger ∨ job.timezone ≠ existing.timezone then
    { job with
      scheduleRevision := Store.satAdd existing.scheduleRevision 1
      triggerId := newTriggerId }
  else
    { job with
      scheduleRevision := existing.scheduleRevision
      triggerId := existing.triggerId }

/-- What `update_job` makes of a body and of the jobs it has listed: the definition that it
replaces, and the new one. -/
def planUpdate (all : List Job) (name : String) (body : Job) (newTriggerId : Uuid) (now : Instant) :
    Except AppError (Job × Job) :=
  match KeyedRows.find Job.name name all with
  | none => .error (.notFound "job" name)
  | some existing =>
    if body.scheduleRevision ≠ 0 ∧ body.scheduleRevision ≠ existing.scheduleRevision then
      .error (.conflict .scheduleRevisionConflict)
    else
      let job := withScheduleIdentity existing { body with name, id := existing.id } newTriggerId
      match job.validate (othersThan name all) now false with
      | .error e => .error e
      | .ok () =>
        if formsCycle job (othersThan name all) then .error .cycleDetected
        else .ok (existing, job)

section Update

variable {all : List Job} {name : String} {body existing job : Job} {newTriggerId : Uuid}
  {now : Instant}

theorem withScheduleIdentity_fields (existing job : Job) (newTriggerId : Uuid) :
    (withScheduleIdentity existing job newTriggerId).name = job.name ∧
      (withScheduleIdentity existing job newTriggerId).id = job.id ∧
      (withScheduleIdentity existing job newTriggerId).trigger = job.trigger ∧
      (withScheduleIdentity existing job newTriggerId).timezone = job.timezone := by
  unfold withScheduleIdentity
  split <;> exact ⟨rfl, rfl, rfl, rfl⟩

/-- What is known of an update that passed its checks. -/
structure PlannedUpdate (all : List Job) (name : String) (body : Job) (newTriggerId : Uuid)
    (now : Instant) (existing job : Job) : Prop where
  found : KeyedRows.find Job.name name all = some existing
  revision : body.scheduleRevision = 0 ∨ body.scheduleRevision = existing.scheduleRevision
  identity : job = withScheduleIdentity existing { body with name, id := existing.id } newTriggerId
  valid : job.validate (othersThan name all) now false = .ok ()
  acyclic : formsCycle job (othersThan name all) = false

theorem planUpdate_ok_iff : planUpdate all name body newTriggerId now = .ok (existing, job) ↔
    PlannedUpdate all name body newTriggerId now existing job := by
  unfold planUpdate
  constructor
  · intro h
    split at h
    · cases h
    · rename_i old hold
      split at h
      · cases h
      · rename_i hrevision
        dsimp only at h
        split at h
        · cases h
        · rename_i hvalid
          split at h
          · cases h
          · rename_i hcycle
            obtain ⟨rfl, rfl⟩ := Prod.mk.inj (Except.ok.inj h)
            have hrevision' : body.scheduleRevision = 0 ∨
                body.scheduleRevision = old.scheduleRevision := by
              by_contra hne
              exact hrevision (not_or.mp hne)
            exact ⟨hold, hrevision', rfl, hvalid, by simpa using hcycle⟩
  · rintro ⟨hfound, hrevision, rfl, hvalid, hcycle⟩
    have hagrees : ¬(body.scheduleRevision ≠ 0 ∧
        body.scheduleRevision ≠ existing.scheduleRevision) := by
      rintro ⟨hzero, hother⟩
      exact hrevision.elim hzero hother
    rw [hfound]
    dsimp only
    rw [if_neg hagrees, hvalid]
    dsimp only
    rw [hcycle]
    rfl

theorem PlannedUpdate.job_name (h : PlannedUpdate all name body newTriggerId now existing job) :
    job.name = name := by
  rw [h.identity]
  exact (withScheduleIdentity_fields _ _ _).1

theorem PlannedUpdate.existing_name
    (h : PlannedUpdate all name body newTriggerId now existing job) : existing.name = name :=
  KeyedRows.find_key h.found

end Update

end Supervisor
