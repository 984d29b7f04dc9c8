import Supervisor.ProcessDomain

namespace Supervisor

inductive ManagementModeDto where
  | direct
  | systemRegistered (unitName : String)
deriving DecidableEq, Repr

inductive LifecycleModeDto where
  | tied | detached
deriving DecidableEq, Repr

structure RestartPolicyDto where
  enabled : Option Bool := none
  maxRetries : Option U32 := none
  backoffInitialMs : Option U64 := none
  backoffMaxMs : Option U64 := none
  backoffMultiplier : Option U32 := none
  jitter : Option Bool := none
  resetAfterMs : Option U64 := none
deriving DecidableEq, Repr

inductive ShutdownSignalDto where
  | term | int | kill
deriving DecidableEq, Repr

structure ShutdownPolicyDto where
  signal : Option ShutdownSignalDto := none
  gracePeriodMs : Option U64 := none
deriving DecidableEq, Repr

structure WatchPolicyDto where
  roots : List String
  recursive : Option Bool := none
  exclusions : List String := []
  followSymlinks : Option Bool := none
  debounceMs : U64
deriving DecidableEq, Repr

structure MemoryPolicyDto where
  ceilingBytes : U64
  sampleIntervalMs : U64
  consecutiveBreaches : U16
deriving DecidableEq, Repr

inductive CheckKindDto where
  | exec (command : String) (args : List String)
  | tcp (host : String) (port : U16)
  | http (url : String) (expectedStatus : U16)
deriving DecidableEq, Repr

structure CheckPolicyDto where
  kind : CheckKindDto
  intervalMs : U64
  timeoutMs : U64
  consecutiveSuccesses : U16
  consecutiveFailures : U16
deriving DecidableEq, Repr

structure RollingPolicyDto where
  maxSurge : U16
  maxUnavailable : U16
  readinessTimeoutMs : U64
  routability : Option Bool := none
deriving DecidableEq, Repr

/-- One `[[process]]` entry. -/
structure ProcessConfigDto where
  definitionId : Option Uuid := none
  name : String
  command : String
  args : List String := []
  cwd : Option String := none
  env : List (String × String) := []
  managementMode : Option ManagementModeDto := none
  lifecycle : Option LifecycleModeDto := none
  autostart : Option Bool := none
  restart : Option RestartPolicyDto := none
  shutdown : Option ShutdownPolicyDto := none
  instances : Option U16 := none
  watch : Option WatchPolicyDto := none
  memory : Option MemoryPolicyDto := none
  liveness : Option CheckPolicyDto := none
  readiness : Option CheckPolicyDto := none
  rolling : Option RollingPolicyDto := none
deriving DecidableEq, Repr

inductive JobTriggerDto where
  | cron (expr : String)
  | interval (everySec : U64)
  | oneShot (at_ : Instant)
  | dependsOn (jobs : List String)
deriving DecidableEq, Repr

inductive OnOverlapDto where
  | skip | queue | parallel
deriving DecidableEq, Repr

inductive OnDependencyFailureDto where
  | skip | runAnyway
deriving DecidableEq, Repr

inductive MisfirePolicyDto where
  | skip | runOnce | catchUp
deriving DecidableEq, Repr

inductive QueueOverflowDto where
  | rejectNew | skip
deriving DecidableEq, Repr

structure RetryPolicyDto where
  maxAttempts : U16 := 1
  initialBackoffSec : U64 := 1
  maxBackoffSec : U64 := 300
  multiplier : Fin (2^8) := 2
  jitterPercent : Fin (2^8) := 20
deriving DecidableEq, Repr

structure AdmissionPolicyDto where
  maxConcurrency : U16
  maxQueue : U16
  overflow : QueueOverflowDto
deriving DecidableEq, Repr

structure LogRetentionDto where
  maxRuns : Option U32 := none
  maxAgeDays : Option U32 := none
deriving DecidableEq, Repr

/-- One `[[job]]` entry. -/
structure JobConfigDto where
  name : String
  command : String
  args : List String := []
  cwd : Option String := none
  env : List (String × String) := []
  trigger : JobTriggerDto
  onOverlap : Option OnOverlapDto := none
  onDependencyFailure : Option OnDependencyFailureDto := none
  timeoutSec : Option U64 := none
  logRetention : Option LogRetentionDto := none
  timezone : Option String := none
  scheduleRevision : Option U64 := none
  triggerId : Option String := none
  misfirePolicy : Option MisfirePolicyDto := none
  retryPolicy : Option RetryPolicyDto := none
  admission : Option AdmissionPolicyDto := none
deriving DecidableEq, Repr

/-- Root of the configuration file. -/
structure FileConfig where
  processes : List ProcessConfigDto := []
  jobs : List JobConfigDto := []
deriving DecidableEq, Repr

/-- The configuration file in the terms of the domain. -/
structure LoadedConfig where
  processes : List ProcessSpec := []
  jobs : List Job := []
deriving DecidableEq, Repr

section Integers

/-- The 64-bit fields of an entry. -/
def CheckPolicyDto.integers (dto : CheckPolicyDto) : List U64 := [dto.intervalMs, dto.timeoutMs]

def RestartPolicyDto.integers (dto : RestartPolicyDto) : List U64 :=
  dto.backoffInitialMs.toList ++ dto.backoffMaxMs.toList ++ dto.resetAfterMs.toList

def ProcessConfigDto.integers (dto : ProcessConfigDto) : List U64 :=
  (dto.restart.map RestartPolicyDto.integers).getD []
    ++ (dto.shutdown.bind (·.gracePeriodMs)).toList
    ++ (dto.watch.map (·.debounceMs)).toList
    ++ (dto.memory.map fun memory => [memory.ceilingBytes, memory.sampleIntervalMs]).getD []
    ++ (dto.liveness.map CheckPolicyDto.integers).getD []
    ++ (dto.readiness.map CheckPolicyDto.integers).getD []
    ++ (dto.rolling.map (·.readinessTimeoutMs)).toList

def JobTriggerDto.integers : JobTriggerDto → List U64
  | .interval everySec => [everySec]
  | .cron _ | .oneShot _ | .dependsOn _ => []

def JobConfigDto.integers (dto : JobConfigDto) : List U64 :=
  dto.trigger.integers ++ dto.timeoutSec.toList ++ dto.scheduleRevision.toList
    ++ (dto.retryPolicy.map fun policy => [policy.initialBackoffSec, policy.maxBackoffSec]).getD []

def FileConfig.integers (file : FileConfig) : List U64 :=
  file.processes.flatMap ProcessConfigDto.integers ++ file.jobs.flatMap JobConfigDto.integers

end Integers

/-- What loading a file takes from outside: the parsers of TOML and of UUIDs, and the
time zone of the host. -/
structure ConfigHost where
  parseToml : String → Except String FileConfig
  /-- A TOML integer is a signed 64-bit one. -/
  tomlIntegers : ∀ contents file, parseToml contents = .ok file →
    ∀ n ∈ file.integers, n.val < 2^63
  parseUuid : String → Option Uuid
  localTimezone : Option String

namespace Convert

def managementMode : Option ManagementModeDto → ManagementMode
  | some (.systemRegistered unitName) => .systemRegistered unitName
  | _ => .direct

def lifecycleMode : Option LifecycleModeDto → LifecycleMode
  | some .detached => .detached
  | _ => .tied

/-- A duration in milliseconds, or the default. -/
def millisOr (ms : Option U64) (default : Duration) : Duration :=
  .fromMillis ((ms.map (·.val)).getD default.asMillis)

def restartPolicy : Option RestartPolicyDto → RestartPolicy
  | none => {}
  | some dto =>
    let defaults : RestartPolicy := {}
    { enabled := dto.enabled.getD defaults.enabled
      maxRetries := dto.maxRetries
      backoffInitial := millisOr dto.backoffInitialMs defaults.backoffInitial
      backoffMax := millisOr dto.backoffMaxMs defaults.backoffMax
      backoffMultiplier := dto.backoffMultiplier.getD defaults.backoffMultiplier
      jitter := dto.jitter.getD defaults.jitter
      resetAfter := millisOr dto.resetAfterMs defaults.resetAfter }

def shutdownPolicy : Option ShutdownPolicyDto → ShutdownPolicy
  | none => {}
  | some dto =>
    let defaults : ShutdownPolicy := {}
    { signal := match dto.signal with
        | some .int => .int
        | some .kill => .kill
        | _ => .term
      gracePeriod := millisOr dto.gracePeriodMs defaults.gracePeriod }

def watchPolicy (dto : WatchPolicyDto) : WatchPolicy :=
  { roots := dto.roots
    recursive := dto.recursive.getD false
    exclusions := dto.exclusions
    followSymlinks := dto.followSymlinks.getD false
    debounce := .fromMillis dto.debounceMs.val }

def memoryPolicy (dto : MemoryPolicyDto) : MemoryPolicy :=
  { ceilingBytes := dto.ceilingBytes
    sampleInterval := .fromMillis dto.sampleIntervalMs.val
    consecutiveBreaches := dto.consecutiveBreaches }

def checkPolicy (dto : CheckPolicyDto) : CheckPolicy :=
  { kind := match dto.kind with
      | .exec command args => .exec command args
      | .tcp host port => .tcp host port
      | .http url expectedStatus => .http url expectedStatus
    interval := .fromMillis dto.intervalMs.val
    timeout := .fromMillis dto.timeoutMs.val
    consecutiveSuccesses := dto.consecutiveSuccesses
    consecutiveFailures := dto.consecutiveFailures }

def rollingPolicy (dto : RollingPolicyDto) : RollingPolicy :=
  { maxSurge := dto.maxSurge
    maxUnavailable := dto.maxUnavailable
    readinessTimeout := .fromMillis dto.readinessTimeoutMs.val
    routability := dto.routability.getD false }

def processSpec (dto : ProcessConfigDto) : ProcessSpec :=
  { definitionId := match dto.definitionId with
      | some id => ⟨id⟩
      | none => .fromLegacyName dto.name
    name := dto.name
    command := dto.command
    args := dto.args
    cwd := dto.cwd
    env := dto.env
    managementMode := managementMode dto.managementMode
    lifecycle := lifecycleMode dto.lifecycle
    autostart := dto.autostart.getD false
    restart := restartPolicy dto.restart
    shutdown := shutdownPolicy dto.shutdown
    instances := dto.instances.getD 1
    watch := dto.watch.map watchPolicy
    memory := dto.memory.map memoryPolicy
    liveness := dto.liveness.map checkPolicy
    readiness := dto.readiness.map checkPolicy
    rolling := dto.rolling.map rollingPolicy }

def jobTrigger : JobTriggerDto → JobTrigger
  | .cron expr => .cron expr
  | .interval everySec => .interval (.fromSecs everySec.val)
  | .oneShot at_ => .oneShot at_
  | .dependsOn jobs => .dependsOn jobs

def overlapPolicy : Option OnOverlapDto → OverlapPolicy
  | some .queue => .queue
  | some .parallel => .parallel
  | _ => .skip

def misfirePolicy : Option MisfirePolicyDto → MisfirePolicy
  | some .runOnce => .runOnce
  | some .catchUp => .catchUp 100 (.fromSecs 86400)
  | _ => .runOnce

/-- `max(1)` of an unsigned integer. -/
def atLeastOne {n : ℕ} [NeZero n] (a : Fin n) : Fin n := if a = 0 then 1 else a

def retryPolicy : Option RetryPolicyDto → RetryPolicy
  | none => {}
  | some dto =>
    { maxAttempts := atLeastOne dto.maxAttempts
      initialBackoff := .fromSecs dto.initialBackoffSec.val
      maxBackoff := .fromSecs dto.maxBackoffSec.val
      multiplier := atLeastOne dto.multiplier
      jitterPercent := if 100 < dto.jitterPercent then 100 else dto.jitterPercent }

def admissionPolicy (overlap : OverlapPolicy) : Option AdmissionPolicyDto → AdmissionPolicy
  | none => .legacy overlap
  | some dto =>
    { maxConcurrency := atLeastOne dto.maxConcurrency
      maxQueue := dto.maxQueue
      overflow := match dto.overflow with
        | .skip => .skip
        | .rejectNew => .rejectNew }

/-- The two identifiers are drawn at random; the second one is for an entry without a trigger
id that can be read. -/
def job (host : ConfigHost) (dto : JobConfigDto) (id : JobId) (newTriggerId : Uuid) : Job :=
  let overlap := overlapPolicy dto.onOverlap
  { id
    name := dto.name
    command := dto.command
    args := dto.args
    cwd := dto.cwd
    env := dto.env
    trigger := jobTrigger dto.trigger
    onOverlap := overlap
    onDependencyFailure := match dto.onDependencyFailure with
      | some .runAnyway => .runAnyway
      | _ => .skip
    timeout := dto.timeoutSec.map fun secs => .fromSecs secs.val
    logRetention := match dto.logRetention with
      | some retention => { maxRuns := retention.maxRuns, maxAgeDays := retention.maxAgeDays }
      | none => {}
    timezone := dto.timezone.getD (host.localTimezone.getD "__unresolved_local_timezone__")
    scheduleRevision := (dto.scheduleRevision.map (·.val)).getD 0
    triggerId := (dto.triggerId.bind host.parseUuid).getD newTriggerId
    misfirePolicy := misfirePolicy dto.misfirePolicy
    retryPolicy := retryPolicy dto.retryPolicy
    admission := admissionPolicy overlap dto.admission }

end Convert

/-- The identifiers that a load draws for the job entry at each position. -/
abbrev JobDraws := ℕ → JobId × Uuid

/-- The entries of a file in the terms of the domain. -/
def ConfigHost.load (host : ConfigHost) (draws : JobDraws) (file : FileConfig) : LoadedConfig :=
  { processes := file.processes.map Convert.processSpec
    jobs := file.jobs.zipIdx.map fun entry =>
      Convert.job host entry.1 (draws entry.2).1 (draws entry.2).2 }

/-- `TomlConfigSource::parse` -/
def ConfigHost.parse (host : ConfigHost) (draws : JobDraws) (contents : String) :
    Except String LoadedConfig :=
  (host.parseToml contents).map (host.load draws)

end Supervisor
