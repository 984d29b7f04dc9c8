import Supervisor.JournalRows
import Supervisor.OwnedSignals

namespace Supervisor

namespace Platform

def SignalError.message : SignalError → String
  | .alreadyExited => "process already exited"
  | .identityMismatch => "process identity no longer matches the recorded handle"
  | .permissionDenied => "permission denied while signalling process"
  | .groupExitTimeout pgid => s!"owned process group {pgid} remained after force kill"
  | .ioFailure message => s!"signal failed: {message}"

/-- `Some(true)` and `Some(false)` of `terminal_kind` -/
inductive TerminalKind where
  | timedOut | cancelled
deriving DecidableEq

inductive TransientCompletion where
  | exited (outcome : TransientOutcome)
  | timedOut (outcome : TransientOutcome)
  | cancelled (outcome : TransientOutcome)
  | cleanupPending (cause : String) (stage : TransientCleanupStage)
      (intendedTerminalState : JobRunState) (outcome : TransientOutcome)
deriving DecidableEq

/-- `SpawnError::Io` -/
structure SpawnError where
  name : String
  message : String
deriving DecidableEq

/-- How a pump ends. It also ends on a line that it cannot decode. -/
inductive PumpEnd where
  | endOfFile
  | undecodable
  | appendFailed (error : String)
  | joinFailed (error : String)

/-- Where `complete_transient` stands. -/
inductive TransientPhase where
  | waiting
  | terminating (kind : TerminalKind)
  | reaping (kind : TerminalKind)
  | draining (kind : Option TerminalKind) (outcome : TransientOutcome) (pumps : List LogStream)
  | returned (result : Except SpawnError TransientCompletion)

/-- A run of a transient child: the processes, who can write to its pipes, and the call. -/
structure Transient where
  termination : Termination
  stdout : List ℕ
  stderr : List ℕ
  cancelled : Bool
  elapsed : Bool := false
  phase : TransientPhase := .waiting

inductive TransientEvent where
  /-- A process or the termination of the group moves. -/
  | termination (event : TerminationEvent)
  | close (pid : ℕ) (stream : LogStream)
  | cancel
  | elapse
  | selectExited (status : Except String (Option ℤ)) (now : Instant)
  | selectCancelled
  | selectTimedOut
  /-- `terminate_owned_process_group` has returned. -/
  | terminated (now : Instant)
  | waited (status : Except String (Option ℤ)) (now : Instant)
  | drained (result : PumpEnd)

/-- `terminal_state` -/
def terminalState : Option TerminalKind → Option ℤ → JobRunState
  | some .timedOut, _ => .timedOut
  | some .cancelled, _ => .cancelled
  | none, exitCode => if exitCode = some 0 then .succeeded else .failed

def TransientCompletion.of : Option TerminalKind → TransientOutcome → TransientCompletion
  | some .timedOut, outcome => .timedOut outcome
  | some .cancelled, outcome => .cancelled outcome
  | none, outcome => .exited outcome

/-- Who can write to a pipe after a process has moved -/
def inherit : TerminationEvent → List ℕ → List ℕ
  | .exit pid, writers => writers.filter (· ≠ pid)
  | .fork parent pid _, writers => if parent ∈ writers then pid :: writers else writers
  | _, writers => writers

namespace Transient

variable (handle : ChildHandle) (startedAt : Instant) (hasTimeout : Bool)

def isTerminating (s : Transient) : Bool :=
  match s.phase with
  | .terminating _ => true
  | _ => false

/-- The termination moves in its phase only, and only its parent reaps the child. -/
def mayTake (s : Transient) : TerminationEvent → Bool
  | .call => false
  | .next _ | .poll _ => s.isTerminating
  | .reap pid => pid ≠ handle.pid
  | .exit _ | .fork _ _ _ | .createGroup _ | .joinGroup _ _ => true

/-- `child.wait()` is ready when the child is dead. -/
def hasExited (s : Transient) : Bool :=
  !s.termination.kernel.processes.any fun p =>
    p.pid = handle.pid && some p.generation = handle.generation && !p.isZombie

def writers (s : Transient) : LogStream → List ℕ
  | .stdout => s.stdout
  | .stderr => s.stderr
  | .system => []

def goto (s : Transient) (phase : TransientPhase) : Transient := { s with phase }

def cleanupPending (s : Transient) (cause : String) (stage : TransientCleanupStage)
    (state : JobRunState) (outcome : TransientOutcome) : Transient :=
  s.goto (.returned (.ok (.cleanupPending cause stage state outcome)))

/-- The call with a child that is owned, or with one that is not -/
def enter (kernel : Kernel) (stdout stderr : List ℕ) (cancelled isOwned : Bool) (now : Instant) :
    Transient :=
  let s : Transient := { termination := { kernel }, stdout, stderr, cancelled }
  if isOwned then s
  else s.cleanupPending "transient child ownership is unavailable" .terminateGroup .cancelled
    ⟨startedAt, now, none⟩

/-- A call of `terminate_transient` -/
def terminate (s : Transient) (kind : TerminalKind) : Option Transient :=
  (s.termination.step handle .term true .call).map fun termination =>
    { s with termination, phase := .terminating kind }

/-- Wait for the next pump, or return. -/
def drain (s : Transient) (kind : Option TerminalKind) (outcome : TransientOutcome)
    (pumps : List LogStream) : Transient :=
  s.goto (if pumps = [] then .returned (.ok (.of kind outcome)) else .draining kind outcome pumps)

/-- The child is reaped. -/
def reaped (s : Transient) : Transient := { s with termination := s.termination.reapLeader handle }

def step (s : Transient) : TransientEvent → Option Transient
  | .termination event =>
    if s.mayTake handle event then
      (s.termination.step handle .term true event).map fun termination =>
        { s with
          termination
          stdout := inherit event s.stdout
          stderr := inherit event s.stderr }
    else none
  | .close pid stream => some { s with
      stdout := if stream = .stdout then s.stdout.filter (· ≠ pid) else s.stdout
      stderr := if stream = .stderr then s.stderr.filter (· ≠ pid) else s.stderr }
  | .cancel => some { s with cancelled := true }
  | .elapse => if hasTimeout then some { s with elapsed := true } else none
  | .selectExited status now =>
    match s.phase with
    | .waiting =>
      if s.hasExited handle then
        match status with
        | .error message => some (s.goto (.returned (.error ⟨toString handle.pid, message⟩)))
        | .ok exitCode =>
          some ((s.reaped handle).drain none ⟨startedAt, now, exitCode⟩ [.stdout, .stderr])
      else none
    | _ => none
  | .selectCancelled =>
    match s.phase with
    | .waiting => if s.cancelled then s.terminate handle .cancelled else none
    | _ => none
  | .selectTimedOut =>
    match s.phase with
    | .waiting => if s.elapsed then s.terminate handle .timedOut else none
    | _ => none
  | .terminated now =>
    match s.phase, s.termination.phase with
    | .terminating kind, .returned (.ok ()) => some (s.goto (.reaping kind))
    | .terminating kind, .returned (.error error) =>
      some (s.cleanupPending error.message .terminateGroup (terminalState (some kind) none)
        ⟨startedAt, now, none⟩)
    | _, _ => none
  | .waited status now =>
    match s.phase with
    | .reaping kind =>
      if s.hasExited handle then
        match status with
        | .error message =>
          some (s.cleanupPending message .terminateGroup (terminalState (some kind) none)
            ⟨startedAt, now, none⟩)
        | .ok exitCode =>
          some ((s.reaped handle).drain (some kind) ⟨startedAt, now, exitCode⟩ [.stdout, .stderr])
      else none
    | _ => none
  | .drained result =>
    match s.phase with
    | .draining kind outcome (stream :: pumps) =>
      match result with
      | .endOfFile => if s.writers stream = [] then some (s.drain kind outcome pumps) else none
      | .undecodable => some (s.drain kind outcome pumps)
      | .appendFailed error =>
        some (s.cleanupPending error .sealLog (terminalState kind outcome.exitCode) outcome)
      | .joinFailed error =>
        some (s.cleanupPending s!"transient output pump did not finish: {error}" .sealLog
          (terminalState kind outcome.exitCode) outcome)
    | _ => none

def machine : Machine Transient TransientEvent where
  step s := s.step handle startedAt hasTimeout

/-- What the call itself does, in contrast to the processes, the clock and the one who cancels -/
def isOwn : TransientEvent → Bool
  | .termination (.next _) | .termination (.poll _) => true
  | .termination _ | .close _ _ | .cancel | .elapse => false
  | _ => true

/-- The run is to end: a cancellation is requested, or the timeout has elapsed. -/
def isRequested (s : Transient) : Bool := s.cancelled || s.elapsed

def HasReturned (s : Transient) : Prop := ∃ result, s.phase = .returned result

/-- The termination of the group has been initiated. -/
def IsInitiated (s : Transient) : Prop :=
  match s.phase with
  | .terminating _ | .reaping _ | .draining (some _) _ _ => True
  | .waiting | .draining none _ _ | .returned _ => False

/-- Until the call returns a request is effective: the termination has been initiated, or the next
step of the call initiates it. -/
def Effective (s : Transient) : Prop :=
  s.isRequested = true → s.HasReturned ∨ s.IsInitiated ∨
    (∃ e t, isOwn e = true ∧ s.step handle startedAt hasTimeout e = some t) ∧
    ∀ e t, isOwn e = true → s.step handle startedAt hasTimeout e = some t → t.IsInitiated

/-- The child has not exited by itself when a request comes, and does not while one is open. -/
def fits (s : Transient) : TransientEvent → Bool
  | .cancel | .elapse =>
    match s.phase with
    | .waiting => !s.hasExited handle
    | .draining none _ _ => false
    | _ => true
  | .termination (.exit pid) =>
    match s.phase with
    | .waiting => pid ≠ handle.pid || !s.isRequested
    | _ => true
  | _ => true

abbrev Fits (s : Transient) (e : TransientEvent) : Prop := s.fits handle e = true

variable {handle startedAt hasTimeout} {s t : Transient} {e : TransientEvent}
  {phase : TransientPhase}

/-- The child is alive, or it has exited. -/
theorem hasExited_eq_false : s.hasExited handle = false ↔
    ∃ generation, handle.generation = some generation ∧
      s.termination.kernel.IsAlive handle.pid generation := by
  unfold hasExited
  rw [Bool.not_eq_false', List.any_eq_true]
  constructor
  · rintro ⟨p, hp, halive⟩
    simp only [Bool.and_eq_true, decide_eq_true_eq, Bool.not_eq_true'] at halive
    obtain ⟨⟨hpid, hgeneration⟩, halive⟩ := halive
    exact ⟨p.generation, hgeneration.symm, p, hp, hpid, rfl, halive⟩
  · rintro ⟨generation, hgeneration, p, hp, hpid, rfl, halive⟩
    refine ⟨p, hp, ?_⟩
    simp only [Bool.and_eq_true, decide_eq_true_eq, Bool.not_eq_true']
    exact ⟨⟨hpid, hgeneration.symm⟩, halive⟩

/-- What holds at each point of a run whose steps fit. -/
structure Sound (handle : ChildHandle) (s : Transient) : Prop where
  idle : s.phase = .waiting → s.termination.phase = .idle
  alive : s.phase = .waiting → s.isRequested = true → s.hasExited handle = false
  quiet : ∀ outcome pumps, s.phase = .draining none outcome pumps → s.isRequested = false

theorem Sound.of_phase (hwaiting : s.phase ≠ .waiting)
    (hdraining : ∀ outcome pumps, s.phase = .draining none outcome pumps → s.isRequested = false) :
    Sound handle s :=
  ⟨fun h => absurd h hwaiting, fun h => absurd h hwaiting, hdraining⟩

theorem sound_terminate {kind : TerminalKind} (hterminate : s.terminate handle kind = some t) :
    Sound handle t ∧ t.IsInitiated := by
  obtain ⟨termination, _, rfl⟩ := Option.map_eq_some_iff.mp hterminate
  exact ⟨.of_phase TransientPhase.noConfusion fun _ _ => TransientPhase.noConfusion, trivial⟩

theorem sound_drain {kind : Option TerminalKind} {outcome : TransientOutcome}
    {pumps : List LogStream} (hquiet : kind = none → s.isRequested = false) :
    Sound handle (s.drain kind outcome pumps) := by
  unfold drain
  apply Sound.of_phase
  · unfold goto
    dsimp only
    split
    · exact TransientPhase.noConfusion
    · exact TransientPhase.noConfusion
  · intro outcome' pumps' hphase
    unfold goto at hphase
    dsimp only at hphase
    split at hphase
    · cases hphase
    · cases hphase
      exact hquiet rfl

theorem sound_returned {result : Except SpawnError TransientCompletion} :
    Sound handle (s.goto (.returned result)) :=
  .of_phase TransientPhase.noConfusion fun _ _ => TransientPhase.noConfusion

/-- The processes move while the call waits. -/
theorem move_termination {event : TerminationEvent} {termination : Termination}
    (hmove : s.mayTake handle event = true) (hwaiting : s.phase = .waiting)
    (hstep : s.termination.step handle .term true event = some termination) :
    termination.phase = s.termination.phase ∧
      (event ≠ .exit handle.pid → ∀ generation,
        s.termination.kernel.IsAlive handle.pid generation →
          termination.kernel.IsAlive handle.pid generation) := by
  cases event with
  | exit pid =>
    cases hstep
    refine ⟨rfl, fun hother generation halive => halive.exit ?_⟩
    rintro rfl
    exact hother rfl
  | reap pid =>
    cases hstep
    exact ⟨rfl, fun _ generation halive => halive.reap⟩
  | fork parent pid generation =>
    obtain ⟨kernel, hkernel, rfl⟩ := Option.map_eq_some_iff.mp hstep
    exact ⟨rfl, fun _ generation halive => halive.fork hkernel⟩
  | createGroup pid =>
    obtain ⟨kernel, hkernel, rfl⟩ := Option.map_eq_some_iff.mp hstep
    exact ⟨rfl, fun _ generation halive => halive.createGroup hkernel⟩
  | joinGroup pid number =>
    obtain ⟨kernel, hkernel, rfl⟩ := Option.map_eq_some_iff.mp hstep
    exact ⟨rfl, fun _ generation halive => halive.joinGroup hkernel⟩
  | call => cases hmove
  | next fault =>
    change s.isTerminating = true at hmove
    unfold isTerminating at hmove
    rw [hwaiting] at hmove
    cases hmove
  | poll reached =>
    change s.isTerminating = true at hmove
    unfold isTerminating at hmove
    rw [hwaiting] at hmove
    cases hmove

theorem Sound.termination (h : Sound handle s) {event : TerminationEvent}
    (hfits : Fits handle s (.termination event))
    (hstep : s.step handle startedAt hasTimeout (.termination event) = some t) : Sound handle t := by
  unfold step at hstep
  dsimp only at hstep
  split at hstep
  · rename_i hmove
    obtain ⟨termination, htermination, rfl⟩ := Option.map_eq_some_iff.mp hstep
    refine ⟨fun hwaiting => ?_, fun hwaiting hrequested => ?_, h.quiet⟩
    · rw [(move_termination hmove hwaiting htermination).1]
      exact h.idle hwaiting
    · obtain ⟨generation, hgeneration, halive⟩ := hasExited_eq_false.mp (h.alive hwaiting hrequested)
      have hother : event ≠ .exit handle.pid := by
        rintro rfl
        unfold Fits fits at hfits
        dsimp only at hfits hwaiting
        change s.isRequested = true at hrequested
        rw [hwaiting, hrequested] at hfits
        simp at hfits
      exact hasExited_eq_false.mpr ⟨generation, hgeneration,
        (move_termination hmove hwaiting htermination).2 hother generation halive⟩
  · cases hstep

theorem Sound.request (h : Sound handle s) {cancelled elapsed : Bool}
    (hfits : Fits handle s .cancel) : Sound handle { s with cancelled, elapsed } := by
  unfold Fits fits at hfits
  dsimp only at hfits
  refine ⟨h.idle, fun hwaiting _ => ?_, fun outcome pumps hdraining => ?_⟩
  · dsimp only at hwaiting
    rw [hwaiting, Bool.not_eq_true'] at hfits
    exact hfits
  · dsimp only at hdraining
    rw [hdraining] at hfits
    cases hfits

theorem Sound.step (h : Sound handle s) (hfits : Fits handle s e)
    (hstep : s.step handle startedAt hasTimeout e = some t) : Sound handle t := by
  cases e with
  | termination event => exact h.termination hfits hstep
  | close pid stream =>
    cases hstep
    exact ⟨h.idle, h.alive, h.quiet⟩
  | cancel =>
    cases hstep
    exact h.request hfits
  | elapse =>
    unfold Transient.step at hstep
    dsimp only at hstep
    split at hstep
    · cases hstep
      exact h.request hfits
    · cases hstep
  | selectExited status now =>
    unfold Transient.step at hstep
    dsimp only at hstep
    split at hstep
    · rename_i hwaiting
      split at hstep
      · rename_i hexited
        split at hstep
        · cases hstep
          exact sound_returned
        · cases hstep
          refine sound_drain fun _ => ?_
          change s.isRequested = false
          by_contra hrequested
          have halive := h.alive hwaiting (Bool.not_eq_false _ ▸ hrequested)
          rw [hexited] at halive
          cases halive
      · cases hstep
    · cases hstep
  | selectCancelled =>
    unfold Transient.step at hstep
    dsimp only at hstep
    split at hstep
    · split at hstep
      · exact (sound_terminate hstep).1
      · cases hstep
    · cases hstep
  | selectTimedOut =>
    unfold Transient.step at hstep
    dsimp only at hstep
    split at hstep
    · split at hstep
      · exact (sound_terminate hstep).1
      · cases hstep
    · cases hstep
  | terminated now =>
    unfold Transient.step at hstep
    dsimp only at hstep
    split at hstep
    · cases hstep
      exact .of_phase TransientPhase.noConfusion fun _ _ => TransientPhase.noConfusion
    · cases hstep
      exact sound_returned
    · cases hstep
  | waited status now =>
    unfold Transient.step at hstep
    dsimp only at hstep
    split at hstep
    · split at hstep
      · split at hstep
        · cases hstep
          exact sound_returned
        · cases hstep
          exact sound_drain fun hnone => by cases hnone
      · cases hstep
    · cases hstep
  | drained result =>
    unfold Transient.step at hstep
    dsimp only at hstep
    split at hstep
    · rename_i kind outcome stream pumps hdraining
      have hquiet : kind = none → s.isRequested = false := by
        rintro rfl
        exact h.quiet outcome (stream :: pumps) hdraining
      split at hstep
      · split at hstep
        · cases hstep
          exact sound_drain hquiet
        · cases hstep
      · cases hstep
        exact sound_drain hquiet
      · cases hstep
        exact sound_returned
      · cases hstep
        exact sound_returned
    · cases hstep

/-- What the call can do while it waits for a child that is alive: nothing but terminate. -/
theorem own_initiates (hwaiting : s.phase = .waiting) (halive : s.hasExited handle = false)
    (hown : isOwn e = true) (hstep : s.step handle startedAt hasTimeout e = some t) :
    t.IsInitiated := by
  cases e with
  | termination event =>
    unfold Transient.step at hstep
    dsimp only at hstep
    cases event with
    | next fault | poll reached =>
      unfold mayTake isTerminating at hstep
      dsimp only at hstep
      rw [hwaiting] at hstep
      cases hstep
    | exit pid | reap pid | fork parent pid generation | createGroup pid | joinGroup pid number
    | call => cases hown
  | close pid stream | cancel | elapse => cases hown
  | selectExited status now =>
    unfold Transient.step at hstep
    dsimp only at hstep
    rw [hwaiting, halive] at hstep
    cases hstep
  | selectCancelled =>
    unfold Transient.step at hstep
    dsimp only at hstep
    rw [hwaiting] at hstep
    dsimp only at hstep
    split at hstep
    · exact (sound_terminate hstep).2
    · cases hstep
  | selectTimedOut =>
    unfold Transient.step at hstep
    dsimp only at hstep
    rw [hwaiting] at hstep
    dsimp only at hstep
    split at hstep
    · exact (sound_terminate hstep).2
    · cases hstep
  | terminated now | waited status now | drained result =>
    unfold Transient.step at hstep
    dsimp only at hstep
    rw [hwaiting] at hstep
    cases hstep

theorem Sound.effective (h : Sound handle s) : s.Effective handle startedAt hasTimeout := by
  intro hrequested
  cases hphase : s.phase with
  | waiting =>
    right
    right
    refine ⟨?_, fun e t hown hstep => own_initiates hphase (h.alive hphase hrequested) hown hstep⟩
    have hcall (kind : TerminalKind) : ∃ t, s.terminate handle kind = some t := by
      unfold terminate Termination.step
      dsimp only
      rw [h.idle hphase]
      exact ⟨_, rfl⟩
    rcases (Bool.or_eq_true _ _).mp hrequested with hcancelled | helapsed
    · obtain ⟨t, ht⟩ := hcall .cancelled
      refine ⟨.selectCancelled, t, rfl, ?_⟩
      unfold Transient.step
      dsimp only
      rw [hphase, hcancelled]
      exact ht
    · obtain ⟨t, ht⟩ := hcall .timedOut
      refine ⟨.selectTimedOut, t, rfl, ?_⟩
      unfold Transient.step
      dsimp only
      rw [hphase, helapsed]
      exact ht
  | draining kind outcome pumps =>
    cases kind with
    | none =>
      rw [h.quiet outcome pumps hphase] at hrequested
      cases hrequested
    | some kind =>
      right
      left
      unfold IsInitiated
      rw [hphase]
      trivial
  | terminating kind | reaping kind =>
    right
    left
    unfold IsInitiated
    rw [hphase]
    trivial
  | returned result => exact Or.inl ⟨result, hphase⟩

/-- The termination has found the group gone, and what the call does after it. -/
def IsPast (s : Transient) : Prop :=
  match s.phase with
  | .terminating _ => s.termination.phase = .returned (.ok ())
  | .reaping _ | .draining (some _) _ _ => True
  | .returned (.ok (.timedOut _)) | .returned (.ok (.cancelled _)) => True
  | _ => False

/-- While the termination goes on, it is one that asks for the number of the handle. -/
def Asks (handle : ChildHandle) (s : Transient) : Prop :=
  s.isTerminating = true → ¬ s.IsPast →
    Termination.Confirmed handle s.termination.kernel s.termination.phase

/-- A step leaves the group gone, or it had been found gone before. -/
def Keeps (handle : ChildHandle) (s t : Transient) : Prop :=
  Asks handle t ∧ (t.IsPast → s.IsPast ∨ t.termination.kernel.hasGroup handle.pid = false)

theorem confirmed_of_ne {kernel other : Kernel} {phase : TerminatePhase}
    (hphase : phase ≠ .returned (.ok ())) (h : Termination.Confirmed handle kernel phase) :
    Termination.Confirmed handle other phase := by
  cases phase with
  | returned result =>
    cases result with
    | ok => exact absurd rfl hphase
    | error error => trivial
  | _ => exact h

theorem keeps_of_idle (hterminating : t.isTerminating = false) (hpast : t.IsPast → s.IsPast) :
    Keeps handle s t := by
  refine ⟨fun h => ?_, fun h => Or.inl (hpast h)⟩
  rw [hterminating] at h
  cases h

theorem keeps_terminate {kind : TerminalKind} (hterminate : s.terminate handle kind = some t) :
    Keeps handle s t := by
  obtain ⟨termination, hcall, rfl⟩ := Option.map_eq_some_iff.mp hterminate
  have hphase : termination.phase = .lookUp := by
    unfold Termination.step at hcall
    dsimp only at hcall
    split at hcall
    · cases hcall
      rfl
    · cases hcall
      rfl
    · cases hcall
  refine ⟨fun _ _ => ?_, fun hpast => ?_⟩
  · dsimp only
    rw [hphase]
    trivial
  · change termination.phase = .returned (.ok ()) at hpast
    rw [hphase] at hpast
    cases hpast

theorem keeps_drain {kind : Option TerminalKind} {outcome : TransientOutcome}
    {pumps : List LogStream} (hpast : kind.isSome = true → s.IsPast) :
    Keeps handle s (t.drain kind outcome pumps) := by
  have hphase : (t.drain kind outcome pumps).phase = .returned (.ok (.of kind outcome)) ∨
      (t.drain kind outcome pumps).phase = .draining kind outcome pumps := by
    unfold drain goto
    dsimp only
    split
    · exact Or.inl rfl
    · exact Or.inr rfl
  apply keeps_of_idle
  · unfold isTerminating
    rcases hphase with hphase | hphase
    · rw [hphase]
    · rw [hphase]
  · intro h
    unfold IsPast at h
    cases kind with
    | none =>
      rcases hphase with hphase | hphase
      · rw [hphase] at h
        exact h.elim
      · rw [hphase] at h
        exact h.elim
    | some kind => exact hpast rfl

theorem keeps_cleanupPending {cause : String} {stage : TransientCleanupStage} {state : JobRunState}
    {outcome : TransientOutcome} : Keeps handle s (t.cleanupPending cause stage state outcome) :=
  keeps_of_idle rfl False.elim

theorem isPast_of_phase (hphase : t.phase = s.phase) (hterminating : s.isTerminating = false)
    (h : t.IsPast) : s.IsPast := by
  unfold isTerminating at hterminating
  unfold IsPast at h ⊢
  rw [hphase] at h
  cases hs : s.phase with
  | terminating kind =>
    rw [hs] at hterminating
    cases hterminating
  | waiting =>
    rw [hs] at h
    exact h
  | reaping kind => trivial
  | draining kind outcome pumps =>
    rw [hs] at h
    cases kind with
    | none => exact h
    | some kind => trivial
  | returned result =>
    rw [hs] at h
    cases result with
    | error error => exact h
    | ok completion =>
      cases completion with
      | timedOut outcome | cancelled outcome => trivial
      | exited outcome | cleanupPending cause stage state outcome => exact h

/-- The processes and the termination move, but for a new call. -/
theorem confirmed_step {termination other : Termination} {event : TerminationEvent}
    (hcall : event ≠ .call) (hphase : termination.phase ≠ .returned (.ok ()))
    (h : Termination.Confirmed handle termination.kernel termination.phase)
    (hstep : termination.step handle .term true event = some other) :
    Termination.Confirmed handle other.kernel other.phase := by
  cases event with
  | exit pid =>
    cases hstep
    exact confirmed_of_ne hphase h
  | reap pid =>
    cases hstep
    exact confirmed_of_ne hphase h
  | fork parent pid generation =>
    obtain ⟨kernel, -, rfl⟩ := Option.map_eq_some_iff.mp hstep
    exact confirmed_of_ne hphase h
  | createGroup pid =>
    obtain ⟨kernel, -, rfl⟩ := Option.map_eq_some_iff.mp hstep
    exact confirmed_of_ne hphase h
  | joinGroup pid number =>
    obtain ⟨kernel, -, rfl⟩ := Option.map_eq_some_iff.mp hstep
    exact confirmed_of_ne hphase h
  | call => exact absurd rfl hcall
  | next fault => exact Termination.confirmed_next h hstep
  | poll reached => exact Termination.confirmed_poll h hstep

/-- Without a new call a result stays. -/
theorem returned_step {termination other : Termination} {event : TerminationEvent}
    {result : Except SignalError Unit} (hcall : event ≠ .call)
    (hphase : termination.phase = .returned result)
    (hstep : termination.step handle .term true event = some other) :
    other.phase = .returned result := by
  cases event with
  | exit pid =>
    cases hstep
    exact hphase
  | reap pid =>
    cases hstep
    exact hphase
  | fork parent pid generation =>
    obtain ⟨kernel, -, rfl⟩ := Option.map_eq_some_iff.mp hstep
    exact hphase
  | createGroup pid =>
    obtain ⟨kernel, -, rfl⟩ := Option.map_eq_some_iff.mp hstep
    exact hphase
  | joinGroup pid number =>
    obtain ⟨kernel, -, rfl⟩ := Option.map_eq_some_iff.mp hstep
    exact hphase
  | call => exact absurd rfl hcall
  | next fault =>
    change termination.next handle .term true fault = _ at hstep
    unfold Termination.next at hstep
    rw [hphase] at hstep
    cases hstep
  | poll reached =>
    unfold Termination.step at hstep
    dsimp only at hstep
    rw [hphase] at hstep
    cases hstep

theorem Asks.termination (h : Asks handle s) {event : TerminationEvent}
    (hstep : s.step handle startedAt hasTimeout (.termination event) = some t) :
    Keeps handle s t := by
  unfold step at hstep
  dsimp only at hstep
  split at hstep
  · rename_i hmove
    have hcall : event ≠ .call := by
      rintro rfl
      cases hmove
    obtain ⟨termination, htermination, rfl⟩ := Option.map_eq_some_iff.mp hstep
    cases hphase : s.phase with
    | terminating kind =>
      have hpast : s.IsPast ↔ s.termination.phase = .returned (.ok ()) := by
        unfold IsPast
        rw [hphase]
      by_cases hdone : s.termination.phase = .returned (.ok ())
      · have hdone' := returned_step hcall hdone htermination
        exact ⟨fun _ hnot => absurd hdone' hnot, fun _ => Or.inl (hpast.mpr hdone)⟩
      · have hterminating : s.isTerminating = true := by
          unfold isTerminating
          rw [hphase]
        have hconfirmed := confirmed_step hcall hdone
          (h hterminating fun hs => hdone (hpast.mp hs)) htermination
        refine ⟨fun _ _ => hconfirmed, fun hs => Or.inr ?_⟩
        change termination.phase = .returned (.ok ()) at hs
        rw [hs] at hconfirmed
        exact hconfirmed
    | waiting | reaping kind | draining kind outcome pumps | returned result =>
      have hterminating : s.isTerminating = false := by
        unfold isTerminating
        rw [hphase]
      exact keeps_of_idle rfl (isPast_of_phase hphase.symm hterminating)
  · cases hstep

theorem Asks.step (h : Asks handle s) (hstep : s.step handle startedAt hasTimeout e = some t) :
    Keeps handle s t := by
  cases e with
  | termination event => exact h.termination hstep
  | close pid stream =>
    cases hstep
    exact ⟨h, Or.inl⟩
  | cancel =>
    cases hstep
    exact ⟨h, Or.inl⟩
  | elapse =>
    unfold Transient.step at hstep
    dsimp only at hstep
    split at hstep
    · cases hstep
      exact ⟨h, Or.inl⟩
    · cases hstep
  | selectExited status now =>
    unfold Transient.step at hstep
    dsimp only at hstep
    split at hstep
    · split at hstep
      · split at hstep
        · cases hstep
          exact keeps_of_idle rfl False.elim
        · cases hstep
          exact keeps_drain fun hnone => by cases hnone
      · cases hstep
    · cases hstep
  | selectCancelled =>
    unfold Transient.step at hstep
    dsimp only at hstep
    split at hstep
    · split at hstep
      · exact keeps_terminate hstep
      · cases hstep
    · cases hstep
  | selectTimedOut =>
    unfold Transient.step at hstep
    dsimp only at hstep
    split at hstep
    · split at hstep
      · exact keeps_terminate hstep
      · cases hstep
    · cases hstep
  | terminated now =>
    unfold Transient.step at hstep
    dsimp only at hstep
    split at hstep
    · rename_i kind hterminating hdone
      cases hstep
      refine keeps_of_idle rfl fun _ => ?_
      unfold IsPast
      rw [hterminating]
      exact hdone
    · cases hstep
      exact keeps_cleanupPending
    · cases hstep
  | waited status now =>
    unfold Transient.step at hstep
    dsimp only at hstep
    split at hstep
    · rename_i kind hreaping
      split at hstep
      · split at hstep
        · cases hstep
          exact keeps_cleanupPending
        · cases hstep
          refine keeps_drain fun _ => ?_
          unfold IsPast
          rw [hreaping]
          trivial
      · cases hstep
    · cases hstep
  | drained result =>
    unfold Transient.step at hstep
    dsimp only at hstep
    split at hstep
    · rename_i kind outcome stream pumps hdraining
      have hpast : kind.isSome = true → s.IsPast := by
        intro hsome
        obtain ⟨kind, rfl⟩ := Option.isSome_iff_exists.mp hsome
        unfold IsPast
        rw [hdraining]
        trivial
      split at hstep
      · split at hstep
        · cases hstep
          exact keeps_drain hpast
        · cases hstep
      · cases hstep
        exact keeps_drain hpast
      · cases hstep
        exact keeps_cleanupPending
      · cases hstep
        exact keeps_cleanupPending
    · cases hstep

/-- When the call goes on after a termination, the group had been found gone in the run. -/
theorem run_gone {start : Transient} (hstart : start.phase = .waiting ∨
      ∃ cause stage state outcome, start.phase = .returned (.ok (.cleanupPending cause stage state outcome)))
    (hrun : (machine handle startedAt hasTimeout).Reaches start s) :
    Asks handle s ∧ (s.IsPast → ∃ u, (machine handle startedAt hasTimeout).Reaches start u ∧
      (machine handle startedAt hasTimeout).Reaches u s ∧
        u.termination.kernel.hasGroup handle.pid = false) := by
  induction hrun with
  | refl =>
    rcases hstart with hwaiting | ⟨cause, stage, state, outcome, hreturned⟩
    · refine ⟨fun hterminating => ?_, fun hpast => ?_⟩
      · unfold isTerminating at hterminating
        rw [hwaiting] at hterminating
        cases hterminating
      · unfold IsPast at hpast
        rw [hwaiting] at hpast
        exact hpast.elim
    · refine ⟨fun hterminating => ?_, fun hpast => ?_⟩
      · unfold isTerminating at hterminating
        rw [hreturned] at hterminating
        cases hterminating
      · unfold IsPast at hpast
        rw [hreturned] at hpast
        exact hpast.elim
  | tail e hbefore hc hstep ih =>
    rename_i t u
    obtain ⟨hasks, hpast⟩ := ih
    obtain ⟨hasks', hkeeps⟩ := hasks.step hstep
    have hlast : (machine handle startedAt hasTimeout).Reaches t u := .tail e .refl hc hstep
    refine ⟨hasks', fun hu => ?_⟩
    rcases hkeeps hu with ht | hgone
    · obtain ⟨v, hfirst, hrest, hgone⟩ := hpast ht
      exact ⟨v, hfirst, hrest.trans hlast, hgone⟩
    · exact ⟨u, hbefore.trans hlast, .refl, hgone⟩

/-- A pump that waits does not hear of a request. -/
theorem not_effective_of_draining {outcome : TransientOutcome} {stream : LogStream}
    {pumps : List LogStream} (hphase : s.phase = .draining none outcome (stream :: pumps))
    (hrequested : s.isRequested = true) : ¬ s.Effective handle startedAt hasTimeout := by
  intro heffective
  rcases heffective hrequested with ⟨result, hreturned⟩ | hinitiated | ⟨_, hnext⟩
  · rw [hphase] at hreturned
    cases hreturned
  · unfold IsInitiated at hinitiated
    rw [hphase] at hinitiated
    exact hinitiated
  · have hdrained : s.step handle startedAt hasTimeout (.drained .undecodable) =
        some (s.drain none outcome pumps) := by
      unfold step
      dsimp only
      rw [hphase]
    have hinitiated := hnext (.drained .undecodable) _ rfl hdrained
    unfold IsInitiated drain goto at hinitiated
    by_cases hlast : pumps = []
    · rw [if_pos hlast] at hinitiated
      exact hinitiated
    · rw [if_neg hlast] at hinitiated
      exact hinitiated

/-- Requests are effective in every run in which the child does not exit by itself while one is
open; and whether it does or not, the call reports a timeout or a cancellation only after the
group is gone. -/
theorem requests_effective {kernel : Kernel} {stdout stderr : List ℕ} {cancelled isOwned : Bool}
    {now : Instant} (hfresh : cancelled = true → ∃ generation,
      handle.generation = some generation ∧ kernel.IsAlive handle.pid generation) :
    (∀ t, (machine handle startedAt hasTimeout).Run (Fits handle)
        (enter startedAt kernel stdout stderr cancelled isOwned now) t →
      t.Effective handle startedAt hasTimeout) ∧
    ∀ t outcome, (machine handle startedAt hasTimeout).Reaches
        (enter startedAt kernel stdout stderr cancelled isOwned now) t →
      t.phase = .returned (.ok (.timedOut outcome)) ∨
        t.phase = .returned (.ok (.cancelled outcome)) →
      ∃ u, (machine handle startedAt hasTimeout).Reaches
          (enter startedAt kernel stdout stderr cancelled isOwned now) u ∧
        (machine handle startedAt hasTimeout).Reaches u t ∧
          u.termination.kernel.hasGroup handle.pid = false := by
  have hstart : (enter startedAt kernel stdout stderr cancelled isOwned now).phase = .waiting ∨
      ∃ cause stage state outcome, (enter startedAt kernel stdout stderr cancelled isOwned now).phase =
        .returned (.ok (.cleanupPending cause stage state outcome)) := by
    cases isOwned with
    | true => exact Or.inl rfl
    | false => exact Or.inr ⟨_, _, _, _, rfl⟩
  have hsound : Sound handle (enter startedAt kernel stdout stderr cancelled isOwned now) := by
    cases isOwned with
    | true =>
      refine ⟨fun _ => rfl, fun _ hrequested => ?_, fun _ _ => TransientPhase.noConfusion⟩
      change (cancelled || false) = true at hrequested
      rw [Bool.or_false] at hrequested
      exact hasExited_eq_false.mpr (hfresh hrequested)
    | false => exact sound_returned
  refine ⟨fun t hrun => ?_, fun t outcome hrun hphase => ?_⟩
  · exact (hrun.invariant (fun _ _ _ h hfits hstep => h.step hfits hstep) hsound).effective
  · apply (run_gone hstart hrun).2
    unfold IsPast
    rcases hphase with hphase | hphase
    · rw [hphase]
      trivial
    · rw [hphase]
      trivial

/-- A child that leads its group, and holds the pipes. -/
def sampleStart : Transient :=
  enter 0 Termination.sampleKernel [42] [42] false true 0

/-- The child has exited, and a pipe is read on without a deadline. -/
def isDrainingOpen (s : Transient) : Bool :=
  match s.phase with
  | .draining none _ (_ :: _) => true
  | _ => false

def isCancelled (s : Transient) : Bool :=
  match s.phase with
  | .returned (.ok (.cancelled _)) => true
  | _ => false

/-- The child exits before its own child, and nobody hears of the cancellation. -/
theorem cancellation_unheard : ∃ t,
    (machine Termination.sampleHandle 0 true).Reaches sampleStart t ∧ t.stdout = [43] ∧
      ¬ t.Effective Termination.sampleHandle 0 true := by
  obtain ⟨t, hrun, hp⟩ := Machine.exists_reaches_of_exec
    (M := machine Termination.sampleHandle 0 true) (s := sampleStart)
    (fun t => t.isRequested && t.stdout = [43] && t.isDrainingOpen)
    [.termination (.fork 42 43 "11:0"), .termination (.exit 42), .selectExited (.ok (some 0)) 1,
      .cancel] (by decide +kernel)
  rw [Bool.and_eq_true, Bool.and_eq_true, decide_eq_true_eq] at hp
  obtain ⟨⟨hrequested, hstdout⟩, hphase⟩ := hp
  refine ⟨t, hrun, hstdout, ?_⟩
  unfold isDrainingOpen at hphase
  split at hphase
  · rename_i hdraining
    exact not_effective_of_draining hdraining hrequested
  · cases hphase

/-- A cancellation of a child that runs -/
theorem requests_effective_cancelled : ∃ t outcome,
    (machine Termination.sampleHandle 0 true).Run (Fits Termination.sampleHandle) sampleStart t ∧
    t.phase = .returned (.ok (.cancelled outcome)) ∧
    t.Effective Termination.sampleHandle 0 true := by
  obtain ⟨t, hrun, hp⟩ := Machine.exists_run_of_execUnder
    (M := machine Termination.sampleHandle 0 true) (C := Fits Termination.sampleHandle)
    (s := sampleStart)
    isCancelled
    [.cancel, .selectCancelled, .termination (.next none), .termination (.next none),
      .termination (.exit 42), .termination (.next none),
      .termination (.next (some .permissionDenied)), .termination (.next none),
      .termination (.poll false), .termination (.next none), .terminated 1, .waited (.ok none) 2,
      .drained .endOfFile, .drained .endOfFile] (by decide +kernel)
  unfold isCancelled at hp
  split at hp
  · rename_i outcome hphase
    have heffective := (@requests_effective Termination.sampleHandle 0 true
      Termination.sampleKernel [42] [42] false true 0 (fun hcancelled => by cases hcancelled)).1
    exact ⟨t, outcome, hrun, hphase, heffective t hrun⟩
  · cases hp

end Transient

end Platform

end Supervisor
