import Supervisor.AppError
import Supervisor.ConfigPlan

namespace Supervisor

/-- `char::is_whitespace` -/
def isWhitespace (c : Char) : Bool :=
  let n := c.toNat
  (0x09 ≤ n && n ≤ 0x0d) || n = 0x20 || n = 0x85 || n = 0xa0 || n = 0x1680
    || (0x2000 ≤ n && n ≤ 0x200a) || n = 0x2028 || n = 0x2029 || n = 0x202f || n = 0x205f
    || n = 0x3000

/-- `text.trim().is_empty()` -/
def isBlank (text : String) : Bool := text.toList.all isWhitespace

def ProcessSpec.validate (spec : ProcessSpec) : Except AppError Unit :=
  if isBlank spec.name then .error (.invalidConfig "name must not be empty")
  else if isBlank spec.command then .error (.invalidConfig "command must not be empty")
  else if spec.restart.backoffMultiplier = 0 then
    .error (.invalidConfig "restart.backoff_multiplier must be at least 1")
  else if spec.restart.backoffMax < spec.restart.backoffInitial then
    .error (.invalidConfig
      "restart.backoff_initial_ms must not exceed restart.backoff_max_ms")
  else match spec.validateProductionPolicy with
    | .error message => .error (.invalidConfig message)
    | .ok () =>
      match spec.managementMode with
      | .systemRegistered unitName =>
        if isBlank unitName then .error (.invalidConfig "unit_name must not be empty") else .ok ()
      | .direct => .ok ()

section Jobs

/-- The loop over the names of `DependsOn`; `unique` are those already seen. -/
def validateUpstream (jobName : String) (existing : List Job) :
    List String → List String → Except AppError Unit
  | _, [] => .ok ()
  | unique, name :: names =>
    if name = jobName then .error .cycleDetected
    else if name ∈ unique then
      .error (.invalidRequest ("depends_on contains duplicate job '" ++ name ++ "'"))
    else if !existing.any fun candidate => candidate.name = name then
      .error (.invalidRequest ("dependency job '" ++ name ++ "' is not registered"))
    else validateUpstream jobName existing (name :: unique) names

def Job.validate (job : Job) (existing : List Job) (now : Instant) (allowPastOneShot : Bool) :
    Except AppError Unit :=
  if isBlank job.name then .error (.invalidRequest "name must not be empty")
  else if isBlank job.command then .error (.invalidRequest "command must not be empty")
  else if job.timeout = some 0 then
    .error (.invalidRequest "timeout_sec must be greater than zero")
  else if job.logRetention.maxRuns = some 0 then
    .error (.invalidRequest "log_retention.max_runs must be greater than zero")
  else if job.logRetention.maxAgeDays = some 0 then
    .error (.invalidRequest "log_retention.max_age_days must be greater than zero")
  else match job.trigger with
    | .interval every =>
      if every = 0 then .error (.invalidRequest "interval must be greater than zero") else .ok ()
    | .oneShot at_ =>
      if at_ ≤ now && !allowPastOneShot then
        .error (.invalidRequest "one-shot time must be in the future")
      else .ok ()
    | .dependsOn names =>
      if names.isEmpty then
        .error (.invalidRequest "depends_on must contain at least one job")
      else validateUpstream job.name existing [] names
    | .cron _ => .ok ()

def Job.upstreamNames (job : Job) : List String :=
  match job.trigger with
  | .dependsOn names => names
  | _ => []

/-- The dependencies of the job of a name. -/
def upstreamOf (existing : List Job) (name : String) : List String :=
  ((existing.find? fun job => job.name = name).map Job.upstreamNames).getD []

/-- The depth-first search; the last element of the source's stack comes first. -/
def reaches (existing : List Job) (jobName : String) : ℕ → List String → List String → Bool
  | 0, _, _ => false
  | _ + 1, _, [] => false
  | fuel + 1, seen, current :: stack =>
    if current = jobName then true
    else if current ∈ seen then reaches existing jobName fuel seen stack
    else reaches existing jobName fuel (current :: seen)
      ((upstreamOf existing current).reverse ++ stack)

/-- Whether adding `job` introduces a dependency cycle. A name is pushed for each
dependency of `job` and, once, for each dependency of a job that is reached. -/
def formsCycle (job : Job) (existing : List Job) : Bool :=
  match job.trigger with
  | .dependsOn direct =>
    let pushed := direct.length + (existing.map fun other => other.upstreamNames.length).sum
    reaches existing job.name (pushed + 1) [] direct.reverse
  | _ => false

end Jobs

section Snapshot

def validateProcesses (previous : List ProcessSpec) : List String → List ProcessSpec →
    Except AppError Unit
  | _, [] => .ok ()
  | names, spec :: specs =>
    match spec.validate with
    | .error e => .error e
    | .ok () =>
      if spec.name ∈ names then
        .error (.invalidConfig ("duplicate process '" ++ spec.name ++ "' in config"))
      else if (previous.find? fun existing => existing.name = spec.name).any fun existing =>
          existing.managementMode ≠ spec.managementMode then
        .error (.invalidConfig
          ("process '" ++ spec.name ++ "' changes management mode; use msv convert"))
      else validateProcesses previous (spec.name :: names) specs

/-- `jobs` are all jobs of the target. -/
def validateJobs (previous jobs : List Job) (now : Instant) : List String → List Job →
    Except AppError Unit
  | _, [] => .ok ()
  | names, job :: rest =>
    if job.name ∈ names then
      .error (.invalidConfig ("duplicate job '" ++ job.name ++ "' in config"))
    else
      let others := jobs.filter fun other => other.name ≠ job.name
      let isExisting := previous.any fun existing => existing.name = job.name
      match job.validate others now isExisting with
      | .error e => .error e
      | .ok () =>
        if formsCycle job others then .error .cycleDetected
        else validateJobs previous jobs now (job.name :: names) rest

def validateConfigSnapshot (previous target : ConfigSnapshot) (now : Instant) :
    Except AppError Unit :=
  match validateProcesses previous.processes [] target.processes with
  | .error e => .error e
  | .ok () => validateJobs previous.jobs target.jobs now [] target.jobs

end Snapshot

end Supervisor
