import Supervisor.JobDomain

namespace Supervisor

abbrev U64 := Fin (2^64)

instance neZeroU64 : NeZero (2^64) := ⟨by decide⟩

def Duration.fromSecs (n : ℕ) : Duration := n * nanosPerSec

abbrev nanosPerMilli : ℕ := 1000000

def Duration.fromMillis (n : ℕ) : Duration := n * nanosPerMilli

def Duration.asMillis (d : Duration) : ℕ := d / nanosPerMilli

theorem Duration.asSecs_fromSecs (n : ℕ) : (Duration.fromSecs n).asSecs = n :=
  Nat.mul_div_cancel n (by decide)

theorem Duration.asMillis_fromMillis (n : ℕ) : (Duration.fromMillis n).asMillis = n :=
  Nat.mul_div_cancel n (by decide)

structure ProcessInstanceId where
  val : Uuid
deriving DecidableEq, Repr

/-- Identity of a persisted process definition, apart from its name. -/
structure ProcessDefinitionId where
  val : Uuid
deriving DecidableEq, Repr

/-- The identity of a definition that was only keyed by its name. -/
def ProcessDefinitionId.fromLegacyName (name : String) : ProcessDefinitionId :=
  let hash (offset prime : ℕ) : ℕ :=
    name.toUTF8.toList.foldl (fun h byte => (h ^^^ byte.toNat) * prime % 2^64) offset
  ⟨hash 0xcbf29ce484222325 0x00000100000001b3 * 2^64
    + hash 0x84222325cbf29ce4 0x00000100000001c3⟩

/-- `direct`: the daemon spawns the child; otherwise launchd owns it. -/
inductive ManagementMode where
  | direct
  | systemRegistered (unitName : String)
deriving DecidableEq, Repr

inductive LifecycleMode where
  | tied | detached
deriving DecidableEq, Repr

inductive ShutdownSignal where
  | term | int | kill
deriving DecidableEq, Repr

structure RestartPolicy where
  enabled : Bool := true
  maxRetries : Option U32 := none
  backoffInitial : Duration := .fromSecs 1
  backoffMax : Duration := .fromSecs 60
  backoffMultiplier : U32 := 2
  jitter : Bool := true
  resetAfter : Duration := .fromSecs 60
deriving DecidableEq, Repr

structure ShutdownPolicy where
  signal : ShutdownSignal := .term
  gracePeriod : Duration := .fromSecs 10
deriving DecidableEq, Repr

structure WatchPolicy where
  roots : List String
  recursive : Bool
  exclusions : List String
  followSymlinks : Bool
  debounce : Duration
deriving DecidableEq, Repr

structure MemoryPolicy where
  ceilingBytes : U64
  sampleInterval : Duration
  consecutiveBreaches : U16
deriving DecidableEq, Repr

inductive CheckKind where
  | exec (command : String) (args : List String)
  | tcp (host : String) (port : U16)
  | http (url : String) (expectedStatus : U16)
deriving DecidableEq, Repr

structure CheckPolicy where
  kind : CheckKind
  interval : Duration
  timeout : Duration
  consecutiveSuccesses : U16
  consecutiveFailures : U16
deriving DecidableEq, Repr

structure RollingPolicy where
  maxSurge : U16
  maxUnavailable : U16
  readinessTimeout : Duration
  routability : Bool
deriving DecidableEq, Repr

/-- A managed-process definition. -/
structure ProcessSpec where
  definitionId : ProcessDefinitionId
  name : String
  command : String
  args : List String := []
  cwd : Option String := none
  /-- In the order of the keys. -/
  env : List (String × String) := []
  managementMode : ManagementMode := .direct
  lifecycle : LifecycleMode := .tied
  autostart : Bool := false
  restart : RestartPolicy := {}
  shutdown : ShutdownPolicy := {}
  instances : U16 := 1
  watch : Option WatchPolicy := none
  memory : Option MemoryPolicy := none
  liveness : Option CheckPolicy := none
  readiness : Option CheckPolicy := none
  rolling : Option RollingPolicy := none
deriving DecidableEq, Repr

namespace ProcessSpec

def isSystemRegistered (spec : ProcessSpec) : Bool :=
  match spec.managementMode with
  | .direct => false
  | .systemRegistered _ => true

/-- `Path::is_absolute` on a Unix host. -/
def isAbsolute (path : String) : Bool := path.toList.head? = some '/'

/-- The settings that are checked before a definition is persisted. -/
def validateProductionPolicy (spec : ProcessSpec) : Except String Unit :=
  let directOnly := spec.instances ≠ 1 || spec.watch.isSome || spec.memory.isSome
    || spec.liveness.isSome || spec.readiness.isSome || spec.rolling.isSome
  if !(1 ≤ spec.instances && spec.instances ≤ 128) then
    .error "instances must be between 1 and 128"
  else if spec.isSystemRegistered && directOnly then
    .error "production supervision policies require Direct management mode"
  else if spec.watch.any fun watch => watch.roots.isEmpty || 256 < watch.roots.length
      || watch.debounce = 0 || watch.followSymlinks
      || watch.roots.any fun root => !isAbsolute root then
    .error "watch policy has invalid roots or debounce"
  else if spec.memory.any fun memory => memory.ceilingBytes = 0 || memory.sampleInterval = 0
      || memory.consecutiveBreaches = 0 then
    .error "memory policy values must be greater than zero"
  else if [spec.liveness, spec.readiness].any fun check => check.any fun check =>
      check.interval = 0 || check.timeout = 0 || check.interval ≤ check.timeout
        || check.consecutiveSuccesses = 0 || check.consecutiveFailures = 0 then
    .error "check policy interval, timeout, and thresholds must be valid"
  else if spec.rolling.any fun rolling => spec.readiness.isNone
      || spec.instances ≤ rolling.maxUnavailable || rolling.maxSurge = 0
      || rolling.readinessTimeout = 0 then
    .error "rolling policy requires readiness and valid capacity"
  else .ok ()

end ProcessSpec

end Supervisor
