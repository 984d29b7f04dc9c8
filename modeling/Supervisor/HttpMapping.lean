import Supervisor.ConfigConvert

namespace Supervisor

/-! The conversion of request bodies. It mirrors the one of the configuration file and is
written a second time. -/
namespace Mapping

def restartPolicy : Option RestartPolicyDto → RestartPolicy
  | none => {}
  | some dto =>
    let defaults : RestartPolicy := {}
    { enabled := dto.enabled.getD defaults.enabled
      maxRetries := dto.maxRetries
      backoffInitial := .fromMillis
        ((dto.backoffInitialMs.map (·.val)).getD defaults.backoffInitial.asMillis)
      backoffMax := .fromMillis ((dto.backoffMaxMs.map (·.val)).getD defaults.backoffMax.asMillis)
      backoffMultiplier := dto.backoffMultiplier.getD defaults.backoffMultiplier
      jitter := dto.jitter.getD defaults.jitter
      resetAfter := .fromMillis ((dto.resetAfterMs.map (·.val)).getD defaults.resetAfter.asMillis) }

def shutdownPolicy : Option ShutdownPolicyDto → ShutdownPolicy
  | none => {}
  | some dto =>
    let defaults : ShutdownPolicy := {}
    { signal := match dto.signal with
        | some .int => .int
        | some .kill => .kill
        | _ => .term
      gracePeriod := .fromMillis
        ((dto.gracePeriodMs.map (·.val)).getD defaults.gracePeriod.asMillis) }

def watchPolicy (dto : Option WatchPolicyDto) : Option WatchPolicy :=
  dto.map fun dto =>
    { roots := dto.roots
      recursive := dto.recursive.getD false
      exclusions := dto.exclusions
      followSymlinks := dto.followSymlinks.getD false
      debounce := .fromMillis dto.debounceMs.val }

def memoryPolicy (dto : Option MemoryPolicyDto) : Option MemoryPolicy :=
  dto.map fun dto =>
    { ceilingBytes := dto.ceilingBytes
      sampleInterval := .fromMillis dto.sampleIntervalMs.val
      consecutiveBreaches := dto.consecutiveBreaches }

def checkPolicy (dto : Option CheckPolicyDto) : Option CheckPolicy :=
  dto.map fun dto =>
    { kind := match dto.kind with
        | .exec command args => .exec command args
        | .tcp host port => .tcp host port
        | .http url expectedStatus => .http url expectedStatus
      interval := .fromMillis dto.intervalMs.val
      timeout := .fromMillis dto.timeoutMs.val
      consecutiveSuccesses := dto.consecutiveSuccesses
      consecutiveFailures := dto.consecutiveFailures }

def rollingPolicy (dto : Option RollingPolicyDto) : Option RollingPolicy :=
  dto.map fun dto =>
    { maxSurge := dto.maxSurge
      maxUnavailable := dto.maxUnavailable
      readinessTimeout := .fromMillis dto.readinessTimeoutMs.val
      routability := dto.routability.getD false }

def processConfigToSpec (dto : ProcessConfigDto) : ProcessSpec :=
  let definitionId : ProcessDefinitionId :=
    (dto.definitionId.map ProcessDefinitionId.mk).getD (.fromLegacyName dto.name)
  let managementMode : ManagementMode := match dto.managementMode with
    | some (.systemRegistered unitName) => .systemRegistered unitName
    | _ => .direct
  let lifecycle : LifecycleMode := match dto.lifecycle with
    | some .detached => .detached
    | _ => .tied
  { definitionId
    name := dto.name
    command := dto.command
    args := dto.args
    cwd := dto.cwd
    env := dto.env
    managementMode
    lifecycle
    autostart := dto.autostart.getD false
    restart := restartPolicy dto.restart
    shutdown := shutdownPolicy dto.shutdown
    instances := dto.instances.getD 1
    watch := watchPolicy dto.watch
    memory := memoryPolicy dto.memory
    liveness := checkPolicy dto.liveness
    readiness := checkPolicy dto.readiness
    rolling := rollingPolicy dto.rolling }

def jobTriggerToDomain : JobTriggerDto → JobTrigger
  | .cron expr => .cron expr
  | .interval everySec => .interval (.fromSecs everySec.val)
  | .oneShot at_ => .oneShot at_
  | .dependsOn jobs => .dependsOn jobs

def overlapPolicy : Option OnOverlapDto → OverlapPolicy
  | some .queue => .queue
  | some .parallel => .parallel
  | _ => .skip

def logRetention (dto : Option LogRetentionDto) : LogRetention :=
  (dto.map fun retention =>
    { maxRuns := retention.maxRuns, maxAgeDays := retention.maxAgeDays }).getD {}

def misfirePolicy : Option MisfirePolicyDto → MisfirePolicy
  | some .skip => .skip
  | some .catchUp => .catchUp 100 (.fromSecs 86400)
  | _ => .runOnce

def retryPolicy (dto : Option RetryPolicyDto) : RetryPolicy :=
  (dto.map fun policy =>
    { maxAttempts := max policy.maxAttempts 1
      initialBackoff := .fromSecs policy.initialBackoffSec.val
      maxBackoff := .fromSecs policy.maxBackoffSec.val
      multiplier := max policy.multiplier 1
      jitterPercent := min policy.jitterPercent 100 }).getD {}

def admissionPolicy (overlap : OverlapPolicy) (dto : Option AdmissionPolicyDto) :
    AdmissionPolicy :=
  (dto.map fun policy =>
    { maxConcurrency := max policy.maxConcurrency 1
      maxQueue := policy.maxQueue
      overflow := match policy.overflow with
        | .skip => .skip
        | .rejectNew => .rejectNew }).getD (.legacy overlap)

/-- The identifiers are those that are drawn when the request is converted. -/
def jobConfigToJob (host : ConfigHost) (dto : JobConfigDto) (id : JobId) (newTriggerId : Uuid) :
    Job :=
  let overlap := overlapPolicy dto.onOverlap
  { id
    name := dto.name
    command := dto.command
    args := dto.args
    cwd := dto.cwd
    env := dto.env
    trigger := jobTriggerToDomain dto.trigger
    onOverlap := overlap
    onDependencyFailure := match dto.onDependencyFailure with
      | some .runAnyway => .runAnyway
      | _ => .skip
    timeout := dto.timeoutSec.map fun secs => .fromSecs secs.val
    logRetention := logRetention dto.logRetention
    timezone := dto.timezone.getD (host.localTimezone.getD "__unresolved_local_timezone__")
    scheduleRevision := (dto.scheduleRevision.map (·.val)).getD 0
    triggerId := (dto.triggerId.bind host.parseUuid).getD newTriggerId
    misfirePolicy := misfirePolicy dto.misfirePolicy
    retryPolicy := retryPolicy dto.retryPolicy
    admission := admissionPolicy overlap dto.admission }

/-- The body of a request that applies a whole configuration. -/
def fileConfigToLoaded (host : ConfigHost) (draws : JobDraws) (config : FileConfig) :
    LoadedConfig :=
  { processes := config.processes.map processConfigToSpec
    jobs := config.jobs.zipIdx.map fun entry =>
      jobConfigToJob host entry.1 (draws entry.2).1 (draws entry.2).2 }

end Mapping

section Agreement

variable {host : ConfigHost}

theorem restartPolicy_eq (dto : Option RestartPolicyDto) :
    Mapping.restartPolicy dto = Convert.restartPolicy dto := by
  cases dto with
  | none => rfl
  | some dto => rfl

theorem shutdownPolicy_eq (dto : Option ShutdownPolicyDto) :
    Mapping.shutdownPolicy dto = Convert.shutdownPolicy dto := by
  cases dto with
  | none => rfl
  | some dto => rfl

theorem definitionId_eq (id : Option Uuid) (name : String) :
    (id.map ProcessDefinitionId.mk).getD (.fromLegacyName name) =
      match id with
      | some id => ⟨id⟩
      | none => .fromLegacyName name := by
  cases id with
  | none => rfl
  | some id => rfl

theorem processConfigToSpec_eq (dto : ProcessConfigDto) :
    Mapping.processConfigToSpec dto = Convert.processSpec dto := by
  unfold Mapping.processConfigToSpec Convert.processSpec
  rw [definitionId_eq, restartPolicy_eq, shutdownPolicy_eq]
  rfl

/-- `max(1)` in the two spellings. -/
theorem max_one_eq {n : ℕ} [NeZero n] (hn : 1 < n) (a : Fin n) :
    max a 1 = Convert.atLeastOne a := by
  have hone : ((1 : Fin n) : ℕ) = 1 := by
    rw [Fin.val_one', Nat.mod_eq_of_lt hn]
  have hzero : ((0 : Fin n) : ℕ) = 0 := Fin.val_zero n
  unfold Convert.atLeastOne
  by_cases ha : a = 0
  · subst ha
    rw [if_pos rfl]
    apply max_eq_right
    apply Fin.le_def.mpr
    omega
  · rw [if_neg ha]
    apply max_eq_left
    have hpos : a.val ≠ 0 := fun h => ha (Fin.ext (h.trans hzero.symm))
    apply Fin.le_def.mpr
    omega

theorem retryPolicy_eq (dto : Option RetryPolicyDto) :
    Mapping.retryPolicy dto = Convert.retryPolicy dto := by
  cases dto with
  | none => rfl
  | some dto =>
    have hjitter : min dto.jitterPercent 100 =
        if 100 < dto.jitterPercent then 100 else dto.jitterPercent := by
      by_cases hlt : 100 < dto.jitterPercent
      · rw [if_pos hlt, min_eq_right (le_of_lt hlt)]
      · rw [if_neg hlt, min_eq_left (not_lt.mp hlt)]
    unfold Mapping.retryPolicy
    rw [Option.map_some, Option.getD_some, max_one_eq (by decide), max_one_eq (by decide), hjitter]
    rfl

theorem admissionPolicy_eq (overlap : OverlapPolicy) (dto : Option AdmissionPolicyDto) :
    Mapping.admissionPolicy overlap dto = Convert.admissionPolicy overlap dto := by
  cases dto with
  | none => rfl
  | some dto =>
    unfold Mapping.admissionPolicy
    rw [Option.map_some, Option.getD_some, max_one_eq (by decide)]
    rfl

theorem logRetention_eq (dto : Option LogRetentionDto) :
    Mapping.logRetention dto = match dto with
      | some retention => { maxRuns := retention.maxRuns, maxAgeDays := retention.maxAgeDays }
      | none => {} := by
  cases dto with
  | none => rfl
  | some dto => rfl

theorem misfirePolicy_eq_iff (dto : Option MisfirePolicyDto) :
    Mapping.misfirePolicy dto = Convert.misfirePolicy dto ↔ dto ≠ some .skip := by
  cases dto with
  | none => simp [Mapping.misfirePolicy, Convert.misfirePolicy]
  | some dto => cases dto <;> simp [Mapping.misfirePolicy, Convert.misfirePolicy]

theorem jobConfigToJob_eq (dto : JobConfigDto) (id : JobId) (newTriggerId : Uuid) :
    Mapping.jobConfigToJob host dto id newTriggerId =
      { Convert.job host dto id newTriggerId with
        misfirePolicy := Mapping.misfirePolicy dto.misfirePolicy } := by
  have hoverlap : Mapping.overlapPolicy dto.onOverlap = Convert.overlapPolicy dto.onOverlap := rfl
  unfold Mapping.jobConfigToJob Convert.job
  rw [hoverlap, retryPolicy_eq, logRetention_eq]
  dsimp only
  rw [admissionPolicy_eq]
  rfl

theorem jobConfigToJob_eq_iff (dto : JobConfigDto) (id : JobId) (newTriggerId : Uuid) :
    Mapping.jobConfigToJob host dto id newTriggerId = Convert.job host dto id newTriggerId ↔
      dto.misfirePolicy ≠ some .skip := by
  rw [jobConfigToJob_eq, ← misfirePolicy_eq_iff]
  constructor
  · intro heq
    exact congrArg Job.misfirePolicy heq
  · intro heq
    rw [heq]
    rfl

end Agreement

/-- Process entries are converted to the same definition. Job entries are, for the same
drawn identifiers, exactly when they do not ask for the misfire policy `skip`. -/
theorem conversions_agree_iff (host : ConfigHost) :
    (∀ dto, Mapping.processConfigToSpec dto = Convert.processSpec dto) ∧
      ∀ dto id newTriggerId,
        Mapping.jobConfigToJob host dto id newTriggerId = Convert.job host dto id newTriggerId ↔
          dto.misfirePolicy ≠ some .skip := by
  constructor
  · exact processConfigToSpec_eq
  · exact jobConfigToJob_eq_iff

section SkipEntry

/-- A host that can read no file and no identifier. -/
def bareHost : ConfigHost :=
  { parseToml := fun _ => .error "empty"
    tomlIntegers := fun _ _ h => by cases h
    parseUuid := fun _ => none
    localTimezone := some "UTC" }

/-- `misfire_policy = "skip"` -/
def skipEntry : JobConfigDto :=
  { name := "nightly"
    command := "/bin/true"
    trigger := .cron "0 0 * * *"
    misfirePolicy := some .skip }

theorem skip_entry_converted_differently :
    (Mapping.jobConfigToJob bareHost skipEntry ⟨1⟩ 2).misfirePolicy = .skip ∧
      (Convert.job bareHost skipEntry ⟨1⟩ 2).misfirePolicy = .runOnce ∧
      Mapping.jobConfigToJob bareHost skipEntry ⟨1⟩ 2 ≠ Convert.job bareHost skipEntry ⟨1⟩ 2 := by
  decide

end SkipEntry

end Supervisor
