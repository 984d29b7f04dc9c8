import Mathlib.Algebra.GroupWithZero.Nat
import Supervisor.Machine
import Supervisor.ProcessTable

namespace Supervisor

namespace Platform

inductive SignalError where
  | alreadyExited
  | identityMismatch
  | permissionDenied
  | groupExitTimeout (pgid : ℕ)
  | ioFailure (message : String)
deriving DecidableEq

/-- The number of a child is a positive `i32` and not that of `init`, so that its negation names a
group. -/
structure ChildHandle where
  pid : ℕ
  pgid : Option ℕ
  generation : Option String
  pid_range : 1 < pid ∧ pid < 2 ^ 31

structure ProcessIdentity where
  pid : ℕ
  pgid : ℕ
  isZombie : Bool
  generation : String

inductive Signal where
  | term | int | kill
deriving DecidableEq

abbrev Kernel := ProcessTable String

/-- What `proc_pidinfo` may answer: the truth, or an error; it may not find a zombie. -/
def snapshot (kernel : Kernel) (pid : ℕ) :
    Option SignalError → Option (Except SignalError ProcessIdentity)
  | none =>
    match kernel.process? pid with
    | some p => some (.ok ⟨p.pid, p.group.number, p.isZombie, p.generation⟩)
    | none => some (.error .alreadyExited)
  | some .alreadyExited =>
    if (kernel.live? pid).isNone then some (.error .alreadyExited) else none
  | some .permissionDenied => some (.error .permissionDenied)
  | some (.ioFailure message) => some (.error (.ioFailure message))
  | some _ => none

/-- What `kill` may answer for a group: only a group that is not there is not found. -/
def killGroup (kernel : Kernel) (pgid : ℕ) : Option SignalError → Option (Except SignalError Unit)
  | none => some (if kernel.hasGroup pgid then .ok () else .error .alreadyExited)
  | some .permissionDenied =>
    if kernel.hasGroup pgid then some (.error .permissionDenied) else none
  | some (.ioFailure message) => some (.error (.ioFailure message))
  | some _ => none

namespace ChildHandle

variable (handle : ChildHandle)

def matchesIdentity (actual : ProcessIdentity) : Bool :=
  match handle.pgid, handle.generation with
  | some pgid, some expectedGeneration =>
    pgid ≠ 0 && pgid = handle.pid && actual.pid = handle.pid && actual.pgid = pgid &&
      actual.generation = expectedGeneration
  | _, _ => false

def ownedGroupId : Except SignalError ℕ :=
  match handle.pgid, handle.generation with
  | some pgid, some generation =>
    if pgid ≠ 0 ∧ pgid = handle.pid ∧ generation ≠ "" then .ok pgid else .error .identityMismatch
  | _, _ => .error .identityMismatch

def dedicatedGroupId : Except SignalError ℕ := handle.ownedGroupId

end ChildHandle

/-- Where `terminate_owned_process_group` stands; `killed` after the escalation. -/
inductive TerminatePhase where
  | idle
  | lookUp
  | signalChecked (pgid : ℕ)
  | lookAgain
  | probeFallback (pgid : ℕ)
  | signalFallback (pgid : ℕ)
  | probe (killed : Bool) (pgid : ℕ)
  | tryWait (killed : Bool) (pgid : ℕ)
  | polled (killed : Bool) (pgid : ℕ)
  | escalate (pgid : ℕ)
  | returned (result : Except SignalError Unit)

/-- After the look-up and until the call returns. -/
def TerminatePhase.isActive : TerminatePhase → Bool
  | .idle | .lookUp | .returned _ => false
  | _ => true

structure Termination where
  kernel : Kernel
  phase : TerminatePhase := .idle
  /-- The signals that have been delivered, and to which groups. -/
  sent : List (Signal × ProcessGroup String) := []
  /-- What the last probe of the group has answered. -/
  lastProbe : Option (Except SignalError Unit) := none

inductive TerminationEvent where
  | exit (pid : ℕ)
  | reap (pid : ℕ)
  | fork (parent pid : ℕ) (generation : String)
  | createGroup (pid : ℕ)
  | joinGroup (pid number : ℕ)
  | call
  /-- The next call of the system, with an error. -/
  | next (fault : Option SignalError)
  /-- The deadline has been reached, or the next poll is due. -/
  | poll (reached : Bool)

namespace Termination

variable (handle : ChildHandle) (initialSignal : Signal) (ownedLeader : Bool)

def fail (s : Termination) (error : SignalError) : Termination :=
  { s with phase := .returned (.error error) }

/-- Continue with the number of the group, which the handle must have. -/
def withGroup (s : Termination) (group : Except SignalError ℕ) (phase : ℕ → TerminatePhase) :
    Termination :=
  match group with
  | .ok pgid => { s with phase := phase pgid }
  | .error error => s.fail error

def deliver (s : Termination) (signal : Signal) (pgid : ℕ) : Termination :=
  match s.kernel.member? pgid with
  | some p => { s with sent := s.sent ++ [(signal, p.group)] }
  | none => s

def waitForGroupExit (s : Termination) (killed : Bool) : Termination :=
  s.withGroup handle.ownedGroupId (.probe killed)

/-- `signal_checked` up to the signal -/
def lookUp (s : Termination) : Except SignalError ProcessIdentity → Termination
  | .error .alreadyExited => s.withGroup handle.ownedGroupId .probeFallback
  | .error error => s.fail error
  | .ok before =>
    if before.isZombie then s.withGroup handle.ownedGroupId .probeFallback
    else if handle.matchesIdentity before then { s with phase := .signalChecked before.pgid }
    else s.fail .identityMismatch

def signalChecked (s : Termination) (pgid : ℕ) : Except SignalError Unit → Termination
  | .ok () => { s.deliver initialSignal pgid with phase := .lookAgain }
  | .error .alreadyExited => { s with phase := .lookAgain }
  | .error error => s.fail error

def lookAgain (s : Termination) : Except SignalError ProcessIdentity → Termination
  | .ok after =>
    if after.isZombie || handle.matchesIdentity after then s.waitForGroupExit handle false
    else s.fail .identityMismatch
  | .error .alreadyExited | .error .permissionDenied => s.waitForGroupExit handle false
  | .error error => s.fail error

/-- `process_group_exists` of the fallback -/
def probeFallback (s : Termination) (answer : Except SignalError Unit) : Termination :=
  let s := { s with lastProbe := some answer }
  match answer with
  | .ok () => s.withGroup handle.dedicatedGroupId .signalFallback
  | .error .alreadyExited => { s with phase := .returned (.ok ()) }
  | .error error => s.fail error

def signalFallback (s : Termination) (pgid : ℕ) : Except SignalError Unit → Termination
  | .ok () => (s.deliver initialSignal pgid).waitForGroupExit handle false
  | .error error => s.fail error

/-- One probe of `wait_for_group_exit` -/
def probe (s : Termination) (killed : Bool) (pgid : ℕ) (answer : Except SignalError Unit) :
    Termination :=
  let s := { s with lastProbe := some answer }
  match answer with
  | .ok () => { s with phase := .polled killed pgid }
  | .error .alreadyExited => { s with phase := .returned (.ok ()) }
  | .error .permissionDenied =>
    { s with phase := if ownedLeader then .tryWait killed pgid else .polled killed pgid }
  | .error error => s.fail error

def escalate (s : Termination) (pgid : ℕ) : Except SignalError Unit → Termination
  | .ok () => (s.deliver .kill pgid).waitForGroupExit handle true
  | .error .alreadyExited => s.waitForGroupExit handle true
  | .error error => s.fail error

/-- The owner of the leader reaps it if it is dead. -/
def reapLeader (s : Termination) : Termination :=
  { s with
    kernel := s.kernel.filter fun p =>
      !(p.pid = handle.pid && p.isZombie && some p.generation = handle.generation) }

def next (s : Termination) (fault : Option SignalError) : Option Termination :=
  match s.phase with
  | .lookUp => (snapshot s.kernel handle.pid fault).map (s.lookUp handle)
  | .signalChecked pgid => (killGroup s.kernel pgid fault).map (s.signalChecked initialSignal pgid)
  | .lookAgain => (snapshot s.kernel handle.pid fault).map (s.lookAgain handle)
  | .probeFallback pgid => (killGroup s.kernel pgid fault).map (s.probeFallback handle)
  | .signalFallback pgid =>
    (killGroup s.kernel pgid fault).map (s.signalFallback handle initialSignal pgid)
  | .probe killed pgid => (killGroup s.kernel pgid fault).map (s.probe ownedLeader killed pgid)
  | .tryWait killed pgid =>
    match fault with
    | none => some { s.reapLeader handle with phase := .polled killed pgid }
    | some (.ioFailure message) => some (s.fail (.ioFailure message))
    | some _ => none
  | .escalate pgid => (killGroup s.kernel pgid fault).map (s.escalate handle pgid)
  | .idle | .polled _ _ | .returned _ => none

def step (s : Termination) : TerminationEvent → Option Termination
  | .exit pid => some { s with kernel := s.kernel.exit pid }
  | .reap pid => some { s with kernel := s.kernel.reap pid }
  | .fork parent pid generation =>
    (s.kernel.fork parent pid generation).map fun kernel => { s with kernel }
  | .createGroup pid => (s.kernel.createGroup pid).map fun kernel => { s with kernel }
  | .joinGroup pid number => (s.kernel.joinGroup pid number).map fun kernel => { s with kernel }
  | .call =>
    match s.phase with
    | .idle | .returned _ => some { s with phase := .lookUp, lastProbe := none }
    | _ => none
  | .next fault => s.next handle initialSignal ownedLeader fault
  | .poll reached =>
    match s.phase with
    | .polled killed pgid =>
      some (if !reached then { s with phase := .probe killed pgid }
        else if killed then s.withGroup handle.ownedGroupId fun pgid =>
          .returned (.error (.groupExitTimeout pgid))
        else s.withGroup handle.dedicatedGroupId .escalate)
    | _ => none

def machine : Machine Termination TerminationEvent where
  step s := s.step handle initialSignal ownedLeader

/-- Signals reach only groups that the recorded generation has created, and the call returns
success only after a probe has found no group. -/
structure OnlyOwned (s : Termination) : Prop where
  owned : ∀ signal ∈ s.sent,
    signal.2.number = handle.pid ∧ handle.generation = some signal.2.creator
  confirmed : s.phase = .returned (.ok ()) → s.lastProbe = some (.error .alreadyExited)

/-- While a call is under way no other process creates a group with the number. -/
def mayCreate (s : Termination) (pid : ℕ) : Bool :=
  !s.phase.isActive || pid ≠ handle.pid ||
    (s.kernel.live? pid).all fun p => some p.generation = handle.generation

/-- When the look-up finds no live process with the number, no other process has left a group with
it. -/
def mayLookUp (s : Termination) : Bool :=
  match s.phase with
  | .lookUp => (s.kernel.live? handle.pid).isSome || s.kernel.processes.all fun p =>
      p.group.number ≠ handle.pid || some p.group.creator = handle.generation
  | _ => true

def Fits (s : Termination) : TerminationEvent → Prop
  | .createGroup pid => s.mayCreate handle pid = true
  | .next _ => s.mayLookUp handle = true
  | _ => True

instance (s : Termination) (e : TerminationEvent) : Decidable (s.Fits handle e) := by
  cases e with
  | createGroup pid => exact decEq (s.mayCreate handle pid) true
  | next fault => exact decEq (s.mayLookUp handle) true
  | _ => exact isTrue trivial

end Termination

end Platform

end Supervisor
