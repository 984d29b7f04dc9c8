import Supervisor.ProcessDomain

namespace Supervisor

section Casts

/-- `as i64` of a `u64`. -/
def asI64 (n : ℕ) : ℤ :=
  let m : ℕ := n % 2^64
  if m < 2^63 then (m : ℤ) else (m : ℤ) - 2^64

/-- `as u64` of an `i64`. -/
def asU64 (z : ℤ) : ℕ := (z % 2^64).toNat

/-- `max(0) as u32` of an `i64`. -/
def asU32 (z : ℤ) : U32 := ⟨(max z 0).toNat % 2^32, Nat.mod_lt _ (by decide)⟩

/-- `min(i64::MAX) as i64` -/
def saturateI64 (n : ℕ) : ℤ := (min n (2^63 - 1) : ℕ)

theorem asU64_asI64 (n : ℕ) : asU64 (asI64 n) = n % 2^64 := by
  have hn : n % 2^64 < 2^64 := Nat.mod_lt _ (by decide)
  unfold asU64 asI64
  dsimp only
  split <;> omega

theorem max_asI64 (n : ℕ) : (max (asI64 n) 0).toNat = if n % 2^64 < 2^63 then n % 2^64 else 0 := by
  have hn : n % 2^64 < 2^64 := Nat.mod_lt _ (by decide)
  unfold asI64
  dsimp only
  split <;> omega

theorem max_saturateI64 (n : ℕ) : (max (saturateI64 n) 0).toNat = min n (2^63 - 1) := by
  unfold saturateI64
  omega

theorem asU32_val (n : U32) : asU32 n.val = n := by
  apply Fin.ext
  have hn := n.isLt
  unfold asU32
  dsimp only
  omega

end Casts

section Texts

def OverlapPolicy.column : OverlapPolicy → String
  | .skip => "skip"
  | .queue => "queue"
  | .parallel => "parallel"

def OverlapPolicy.ofColumn (text : String) : OverlapPolicy :=
  if text = "queue" then .queue else if text = "parallel" then .parallel else .skip

theorem OverlapPolicy.ofColumn_column (p : OverlapPolicy) : ofColumn p.column = p := by
  cases p <;> decide

def DependencyFailurePolicy.column : DependencyFailurePolicy → String
  | .skip => "skip"
  | .runAnyway => "run_anyway"

def DependencyFailurePolicy.ofColumn (text : String) : DependencyFailurePolicy :=
  if text = "run_anyway" then .runAnyway else .skip

theorem DependencyFailurePolicy.ofColumn_column (p : DependencyFailurePolicy) :
    ofColumn p.column = p := by
  cases p <;> decide

def LifecycleMode.column : LifecycleMode → String
  | .tied => "tied"
  | .detached => "detached"

def LifecycleMode.ofColumn (text : String) : LifecycleMode :=
  if text = "detached" then .detached else .tied

theorem LifecycleMode.ofColumn_column (m : LifecycleMode) : ofColumn m.column = m := by
  cases m <;> decide

def ShutdownSignal.column : ShutdownSignal → String
  | .term => "term"
  | .int => "int"
  | .kill => "kill"

def ShutdownSignal.ofColumn (text : String) : ShutdownSignal :=
  if text = "int" then .int else if text = "kill" then .kill else .term

theorem ShutdownSignal.ofColumn_column (s : ShutdownSignal) : ofColumn s.column = s := by
  cases s <;> decide

/-- The columns `mode` and `unit_name`. -/
def ManagementMode.columns : ManagementMode → String × Option String
  | .direct => ("direct", none)
  | .systemRegistered unitName => ("system_registered", some unitName)

def ManagementMode.ofColumns (mode : String) (unitName : Option String) : ManagementMode :=
  if mode = "system_registered" then .systemRegistered (unitName.getD "") else .direct

theorem ManagementMode.ofColumns_columns (m : ManagementMode) :
    ofColumns m.columns.1 m.columns.2 = m := by
  cases m with
  | direct => rfl
  | systemRegistered unitName => rfl

end Texts

/-- The JSON of the `trigger` column. -/
inductive TriggerRepr where
  | cron (expr : String)
  | interval (everySec : ℕ)
  | oneShot (at_ : Instant)
  | dependsOn (jobs : List String)
deriving DecidableEq

def TriggerRepr.ofTrigger : JobTrigger → TriggerRepr
  | .cron expr => .cron expr
  | .interval every => .interval every.asSecs
  | .oneShot at_ => .oneShot at_
  | .dependsOn upstream => .dependsOn upstream

def TriggerRepr.toTrigger : TriggerRepr → JobTrigger
  | .cron expr => .cron expr
  | .interval everySec => .interval (.fromSecs everySec)
  | .oneShot at_ => .oneShot at_
  | .dependsOn jobs => .dependsOn jobs

/-- A row of `jobs`. Identifiers and JSON columns stand for the values they encode. -/
structure JobRow where
  name : String
  id : JobId
  command : String
  args : List String
  cwd : Option String
  env : List (String × String)
  trigger : TriggerRepr
  onOverlap : String
  onDependencyFailure : String
  timeoutSec : Option ℤ
  logRetentionMaxRuns : Option ℤ
  logRetentionMaxAgeDays : Option ℤ
  timezone : String
  scheduleRevision : ℤ
  triggerId : Uuid
  misfirePolicy : MisfirePolicy
  retryPolicy : RetryPolicy
  admissionPolicy : AdmissionPolicy
deriving DecidableEq

/-- The values that `save_job_transaction` binds. -/
def JobRow.ofJob (job : Job) : JobRow :=
  { name := job.name
    id := job.id
    command := job.command
    args := job.args
    cwd := job.cwd
    env := job.env
    trigger := .ofTrigger job.trigger
    onOverlap := job.onOverlap.column
    onDependencyFailure := job.onDependencyFailure.column
    timeoutSec := job.timeout.map fun timeout => asI64 timeout.asSecs
    logRetentionMaxRuns := job.logRetention.maxRuns.map fun n => (n.val : ℤ)
    logRetentionMaxAgeDays := job.logRetention.maxAgeDays.map fun n => (n.val : ℤ)
    timezone := job.timezone
    scheduleRevision := asI64 job.scheduleRevision
    triggerId := job.triggerId
    misfirePolicy := job.misfirePolicy
    retryPolicy := job.retryPolicy
    admissionPolicy := job.admission }

/-- `job_from_row` -/
def JobRow.toJob (row : JobRow) : Job :=
  { id := row.id
    name := row.name
    command := row.command
    args := row.args
    cwd := row.cwd
    env := row.env
    trigger := row.trigger.toTrigger
    onOverlap := .ofColumn row.onOverlap
    onDependencyFailure := .ofColumn row.onDependencyFailure
    timeout := row.timeoutSec.map fun s => .fromSecs (asU64 s)
    logRetention :=
      { maxRuns := row.logRetentionMaxRuns.map asU32
        maxAgeDays := row.logRetentionMaxAgeDays.map asU32 }
    timezone := row.timezone
    scheduleRevision := (max row.scheduleRevision 0).toNat
    triggerId := row.triggerId
    misfirePolicy := row.misfirePolicy
    retryPolicy := row.retryPolicy
    admission := row.admissionPolicy }

/-- A row of `process_specs`, without the runtime columns. -/
structure SpecRow where
  definitionId : ProcessDefinitionId
  name : String
  command : String
  args : List String
  cwd : Option String
  env : List (String × String)
  mode : String
  unitName : Option String
  lifecycle : String
  autostart : ℤ
  restartEnabled : ℤ
  restartMaxRetries : Option ℤ
  restartBackoffInitialMs : ℤ
  restartBackoffMaxMs : ℤ
  restartBackoffMultiplier : ℤ
  restartJitter : ℤ
  restartResetAfterMs : ℤ
  shutdownSignal : String
  shutdownGracePeriodMs : ℤ
  instances : ℤ
  watchPolicy : Option WatchPolicy
  memoryPolicy : Option MemoryPolicy
  livenessPolicy : Option CheckPolicy
  readinessPolicy : Option CheckPolicy
  rollingPolicy : Option RollingPolicy
deriving DecidableEq

def boolAsI64 (b : Bool) : ℤ := if b then 1 else 0

/-- The values that `save_spec_transaction` binds. -/
def SpecRow.ofSpec (spec : ProcessSpec) : SpecRow :=
  { definitionId := spec.definitionId
    name := spec.name
    command := spec.command
    args := spec.args
    cwd := spec.cwd
    env := spec.env
    mode := spec.managementMode.columns.1
    unitName := spec.managementMode.columns.2
    lifecycle := spec.lifecycle.column
    autostart := boolAsI64 spec.autostart
    restartEnabled := boolAsI64 spec.restart.enabled
    restartMaxRetries := spec.restart.maxRetries.map fun n => (n.val : ℤ)
    restartBackoffInitialMs := saturateI64 spec.restart.backoffInitial.asMillis
    restartBackoffMaxMs := saturateI64 spec.restart.backoffMax.asMillis
    restartBackoffMultiplier := spec.restart.backoffMultiplier.val
    restartJitter := boolAsI64 spec.restart.jitter
    restartResetAfterMs := saturateI64 spec.restart.resetAfter.asMillis
    shutdownSignal := spec.shutdown.signal.column
    shutdownGracePeriodMs := saturateI64 spec.shutdown.gracePeriod.asMillis
    instances := spec.instances.val
    watchPolicy := spec.watch
    memoryPolicy := spec.memory
    livenessPolicy := spec.liveness
    readinessPolicy := spec.readiness
    rollingPolicy := spec.rolling }

/-- A duration column. -/
def millisFromI64 (ms : ℤ) : Duration := .fromMillis (max ms 0).toNat

/-- `u16::try_from(instances).unwrap_or(1)` -/
def instancesFromI64 (n : ℤ) : U16 := if h : 0 ≤ n ∧ n < 2^16 then ⟨n.toNat, by omega⟩ else 1

/-- `spec_from_row` -/
def SpecRow.toSpec (row : SpecRow) : ProcessSpec :=
  { definitionId := row.definitionId
    name := row.name
    command := row.command
    args := row.args
    cwd := row.cwd
    env := row.env
    managementMode := .ofColumns row.mode row.unitName
    lifecycle := .ofColumn row.lifecycle
    autostart := row.autostart ≠ 0
    restart :=
      { enabled := row.restartEnabled ≠ 0
        maxRetries := row.restartMaxRetries.map asU32
        backoffInitial := millisFromI64 row.restartBackoffInitialMs
        backoffMax := millisFromI64 row.restartBackoffMaxMs
        backoffMultiplier := asU32 (max row.restartBackoffMultiplier 1)
        jitter := row.restartJitter ≠ 0
        resetAfter := millisFromI64 row.restartResetAfterMs }
    shutdown :=
      { signal := .ofColumn row.shutdownSignal
        gracePeriod := millisFromI64 row.shutdownGracePeriodMs }
    instances := instancesFromI64 row.instances
    watch := row.watchPolicy
    memory := row.memoryPolicy
    liveness := row.livenessPolicy
    readiness := row.readinessPolicy
    rolling := row.rollingPolicy }

/-- A definition as it is read back once it has been saved. -/
def Job.stored (job : Job) : Job := (JobRow.ofJob job).toJob

def ProcessSpec.stored (spec : ProcessSpec) : ProcessSpec := (SpecRow.ofSpec spec).toSpec

/-- The values of a definition that its columns can hold. -/
structure Job.Storable (job : Job) : Prop where
  interval : ∀ every, job.trigger = .interval every → ∃ n, every = .fromSecs n
  timeout : ∀ timeout ∈ job.timeout, ∃ n < 2^64, timeout = .fromSecs n
  scheduleRevision : job.scheduleRevision < 2^63

/-- A duration that a column of milliseconds can hold. -/
def Duration.Storable (d : Duration) : Prop := ∃ n < 2^63, d = .fromMillis n

structure ProcessSpec.Storable (spec : ProcessSpec) : Prop where
  backoffInitial : spec.restart.backoffInitial.Storable
  backoffMax : spec.restart.backoffMax.Storable
  backoffMultiplier : spec.restart.backoffMultiplier ≠ 0
  resetAfter : spec.restart.resetAfter.Storable
  gracePeriod : spec.shutdown.gracePeriod.Storable

section Job

variable {job : Job}

theorem TriggerRepr.toTrigger_ofTrigger {trigger : JobTrigger}
    (h : ∀ every, trigger = .interval every → ∃ n, every = .fromSecs n) :
    (TriggerRepr.ofTrigger trigger).toTrigger = trigger := by
  cases trigger with
  | cron | oneShot | dependsOn => rfl
  | interval every =>
    obtain ⟨n, rfl⟩ := h every rfl
    rw [ofTrigger, toTrigger, Duration.asSecs_fromSecs]

theorem map_asU32_val (n : Option U32) : (n.map fun n => (n.val : ℤ)).map asU32 = n := by
  cases n with
  | none => rfl
  | some n => rw [Option.map_some, Option.map_some, asU32_val]

theorem Job.Storable.stored_eq (h : job.Storable) : job.stored = job := by
  have htimeout : (job.timeout.map fun timeout => asI64 timeout.asSecs).map
      (fun s => Duration.fromSecs (asU64 s)) = job.timeout := by
    cases htimeout : job.timeout with
    | none => rfl
    | some timeout =>
      obtain ⟨n, hn, rfl⟩ := h.timeout timeout htimeout
      rw [Option.map_some, Option.map_some, Duration.asSecs_fromSecs, asU64_asI64,
        Nat.mod_eq_of_lt hn]
  have hrevision : (max (asI64 job.scheduleRevision) 0).toNat = job.scheduleRevision := by
    have hlt := h.scheduleRevision
    rw [max_asI64]
    split <;> omega
  have htrigger := TriggerRepr.toTrigger_ofTrigger h.interval
  unfold Job.stored
  calc (JobRow.ofJob job).toJob
      = { job with
          trigger := (TriggerRepr.ofTrigger job.trigger).toTrigger
          onOverlap := .ofColumn job.onOverlap.column
          onDependencyFailure := .ofColumn job.onDependencyFailure.column
          timeout := (job.timeout.map fun timeout => asI64 timeout.asSecs).map
            fun s => Duration.fromSecs (asU64 s)
          logRetention :=
            { maxRuns := (job.logRetention.maxRuns.map fun n => (n.val : ℤ)).map asU32
              maxAgeDays := (job.logRetention.maxAgeDays.map fun n => (n.val : ℤ)).map asU32 }
          scheduleRevision := (max (asI64 job.scheduleRevision) 0).toNat } := rfl
    _ = job := by
      rw [htrigger, OverlapPolicy.ofColumn_column, DependencyFailurePolicy.ofColumn_column,
        htimeout, map_asU32_val, map_asU32_val, hrevision]

theorem Job.stored_storable (job : Job) : job.stored.Storable where
  interval every h := by
    have h : (TriggerRepr.ofTrigger job.trigger).toTrigger = .interval every := h
    cases htrigger : job.trigger with
    | interval d =>
      rw [htrigger] at h
      exact ⟨d.asSecs, (JobTrigger.interval.inj h).symm⟩
    | cron | oneShot | dependsOn =>
      rw [htrigger] at h
      cases h
  timeout timeout h := by
    have h : (job.timeout.map fun timeout => asI64 timeout.asSecs).map
        (fun s => Duration.fromSecs (asU64 s)) = some timeout := h
    obtain ⟨s, -, rfl⟩ := Option.map_eq_some_iff.mp h
    refine ⟨asU64 s, ?_, rfl⟩
    unfold asU64
    omega
  scheduleRevision := by
    show (max (asI64 job.scheduleRevision) 0).toNat < 2^63
    rw [max_asI64]
    split <;> omega

theorem Job.Storable.withId (h : job.Storable) (id : JobId) : Storable { job with id } :=
  ⟨h.interval, h.timeout, h.scheduleRevision⟩

end Job

section Spec

variable {spec : ProcessSpec}

theorem Duration.Storable.read_back {d : Duration} (h : d.Storable) :
    millisFromI64 (saturateI64 d.asMillis) = d := by
  obtain ⟨n, hn, rfl⟩ := h
  rw [Duration.asMillis_fromMillis, millisFromI64, max_saturateI64]
  congr 1
  omega

theorem millisFromI64_storable (n : ℕ) : (millisFromI64 (saturateI64 n)).Storable := by
  refine ⟨min n (2^63 - 1), by omega, ?_⟩
  rw [millisFromI64, max_saturateI64]

theorem instancesFromI64_val (n : U16) : instancesFromI64 n.val = n := by
  have hn := n.isLt
  unfold instancesFromI64
  rw [dif_pos (by omega)]
  exact Fin.ext (by simp)

theorem boolAsI64_ne_zero (b : Bool) : decide (boolAsI64 b ≠ 0) = b := by
  cases b <;> decide

theorem asU32_max_one {n : U32} (h : n ≠ 0) : asU32 (max n.val 1) = n := by
  have hpos : n.val ≠ 0 := fun hzero => h (Fin.ext hzero)
  have hmax : max (n.val : ℤ) 1 = n.val := by omega
  rw [hmax, asU32_val]

theorem ProcessSpec.Storable.stored_eq (h : spec.Storable) : spec.stored = spec := by
  unfold ProcessSpec.stored
  calc (SpecRow.ofSpec spec).toSpec
      = { spec with
          managementMode := .ofColumns spec.managementMode.columns.1 spec.managementMode.columns.2
          lifecycle := .ofColumn spec.lifecycle.column
          autostart := decide (boolAsI64 spec.autostart ≠ 0)
          restart :=
            { enabled := decide (boolAsI64 spec.restart.enabled ≠ 0)
              maxRetries := (spec.restart.maxRetries.map fun n => (n.val : ℤ)).map asU32
              backoffInitial := millisFromI64 (saturateI64 spec.restart.backoffInitial.asMillis)
              backoffMax := millisFromI64 (saturateI64 spec.restart.backoffMax.asMillis)
              backoffMultiplier := asU32 (max spec.restart.backoffMultiplier.val 1)
              jitter := decide (boolAsI64 spec.restart.jitter ≠ 0)
              resetAfter := millisFromI64 (saturateI64 spec.restart.resetAfter.asMillis) }
          shutdown :=
            { signal := .ofColumn spec.shutdown.signal.column
              gracePeriod := millisFromI64 (saturateI64 spec.shutdown.gracePeriod.asMillis) }
          instances := instancesFromI64 spec.instances.val } := rfl
    _ = spec := by
      rw [ManagementMode.ofColumns_columns, LifecycleMode.ofColumn_column, boolAsI64_ne_zero,
        boolAsI64_ne_zero, boolAsI64_ne_zero, map_asU32_val, h.backoffInitial.read_back,
        h.backoffMax.read_back, asU32_max_one h.backoffMultiplier, h.resetAfter.read_back,
        ShutdownSignal.ofColumn_column, h.gracePeriod.read_back, instancesFromI64_val]

theorem asU32_max_one_ne_zero {z : ℤ} (h : z < 2^32) : asU32 (max z 1) ≠ 0 := by
  intro hzero
  have hval : (max (max z 1) 0).toNat % 2^32 = 0 := congrArg Fin.val hzero
  omega

theorem ProcessSpec.stored_storable (spec : ProcessSpec) : spec.stored.Storable where
  backoffInitial := millisFromI64_storable _
  backoffMax := millisFromI64_storable _
  backoffMultiplier := by
    apply asU32_max_one_ne_zero
    have hlt := spec.restart.backoffMultiplier.isLt
    show (spec.restart.backoffMultiplier.val : ℤ) < 2^32
    omega
  resetAfter := millisFromI64_storable _
  gracePeriod := millisFromI64_storable _

theorem ProcessSpec.Storable.withId (h : spec.Storable) (definitionId : ProcessDefinitionId) :
    Storable { spec with definitionId } :=
  ⟨h.backoffInitial, h.backoffMax, h.backoffMultiplier, h.resetAfter, h.gracePeriod⟩

end Spec

end Supervisor
