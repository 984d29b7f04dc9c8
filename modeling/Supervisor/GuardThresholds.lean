import Supervisor.RollingRestart
import Supervisor.Streak

namespace Supervisor

open Streak (streak LastAll EachAfter)

/-- A one-shot external check -/
inductive CheckOutcome where
  | succeeded | failed | timedOut | cancelled
  | cleanupFailed (cause : String)
deriving DecidableEq

/-- What `run_check` answers; an error by its text -/
abbrev CheckReply := Except String CheckOutcome

/-- Whether a check has succeeded, with the error that is recorded. A cancelled one ends the loop. -/
def CheckReply.verdict : CheckReply → Option (Bool × Option String)
  | .ok .succeeded => some (true, none)
  | .ok .failed | .ok .timedOut => some (false, none)
  | .ok .cancelled => none
  | .ok (.cleanupFailed cause) => some (false, some cause)
  | .error error => some (false, some error)

/-- One turn of `run_check_guard` -/
structure CheckObservation where
  isSuccess : Bool
  error : Option String
  state : GuardState
  /-- `enqueue_guard_restart` has been called. -/
  isRequested : Bool
deriving DecidableEq

/-- The loop of `run_check_guard` -/
structure CheckGuard where
  successes : U16 := 0
  failures : U16 := 0
  observations : List CheckObservation := []
  isRunning : Bool := true
deriving DecidableEq

namespace CheckGuard

def observe (policy : CheckPolicy) (isLiveness : Bool) (g : CheckGuard) (isSuccess : Bool)
    (error : Option String) : CheckGuard :=
  let successes := if isSuccess then g.successes.saturatingAdd 1 else 0
  let failures := if isSuccess then 0 else g.failures.saturatingAdd 1
  let state : GuardState :=
    if policy.consecutiveSuccesses ≤ successes then .healthy
    else if policy.consecutiveFailures ≤ failures then .unhealthy
    else .unknown
  let isRequested := isLiveness && state = .unhealthy
  { g with
    successes
    failures := if isRequested then 0 else failures
    observations := g.observations ++ [{ isSuccess, error, state, isRequested }] }

def turn (policy : CheckPolicy) (isLiveness : Bool) (g : CheckGuard) (reply : CheckReply) :
    CheckGuard :=
  if g.isRunning then match reply.verdict with
    | none => { g with isRunning := false }
    | some (isSuccess, error) => g.observe policy isLiveness isSuccess error
  else g

/-- `run_check_guard`, by the replies while its owner is current -/
def run (policy : CheckPolicy) (isLiveness : Bool) (replies : List CheckReply) : CheckGuard :=
  replies.foldl (turn policy isLiveness) {}

end CheckGuard

inductive GuardError where
  | unsupported (what : String)
  | failed (reason : String)
deriving DecidableEq

def GuardError.message : GuardError → String
  | .unsupported what => "runtime guard capability is unsupported: " ++ what
  | .failed reason => "runtime guard failed: " ++ reason

inductive OwnedGroupResourceUsage where
  | sample (memoryBytes : U64)
  | unknown (reason : String)
deriving DecidableEq

abbrev MemoryReply := Except GuardError OwnedGroupResourceUsage

/-- One turn of `run_memory_guard` -/
structure MemoryObservation where
  reply : MemoryReply
  state : GuardState
  error : Option String
  isRequested : Bool

/-- The loop of `run_memory_guard` -/
structure MemoryGuard where
  breaches : U16 := 0
  observations : List MemoryObservation := []
  isRunning : Bool := true

namespace MemoryGuard

/-- The sample is above the ceiling. -/
def isBreach (policy : MemoryPolicy) : MemoryReply → Bool
  | .ok (.sample memoryBytes) => policy.ceilingBytes < memoryBytes
  | _ => false

def turn (policy : MemoryPolicy) (g : MemoryGuard) (reply : MemoryReply) : MemoryGuard :=
  if g.isRunning then
    let observe (breaches : U16) (state : GuardState) (error : Option String)
        (isRequested : Bool) : MemoryGuard :=
      { g with breaches, observations := g.observations ++ [⟨reply, state, error, isRequested⟩] }
    match reply with
    | .ok (.sample memoryBytes) =>
      if policy.ceilingBytes < memoryBytes then
        let breaches := g.breaches.saturatingAdd 1
        observe breaches (if policy.consecutiveBreaches ≤ breaches then .unhealthy else .healthy) none
          (policy.consecutiveBreaches ≤ breaches)
      else observe 0 .healthy none false
    | .ok (.unknown reason) | .error (.failed reason) => observe 0 .unknown (some reason) false
    | .error error =>
      { observe g.breaches .unsupported (some error.message) false with isRunning := false }
  else g

/-- `run_memory_guard`, by the replies while its owner is current -/
def run (policy : MemoryPolicy) (replies : List MemoryReply) : MemoryGuard :=
  replies.foldl (turn policy) {}

end MemoryGuard

section Counters

variable {counter bound : U16} {n : ℕ}

/-- A counter that has counted `n`, or is saturated. -/
def Counts (counter : U16) (n : ℕ) : Prop := counter.val = min n (2^16 - 1)

theorem Counts.zero : Counts 0 0 := rfl

theorem Counts.succ (h : Counts counter n) : Counts (counter.saturatingAdd 1) (n + 1) := by
  unfold Counts U16.saturatingAdd at *
  dsimp only
  omega

theorem Counts.reached_iff (h : Counts counter n) : bound ≤ counter ↔ bound.val ≤ n := by
  have hlt := bound.isLt
  unfold Counts at h
  rw [Fin.le_def, h]
  omega

end Counters

namespace CheckObservation

def isFailure (o : CheckObservation) : Bool := !o.isSuccess

/-- A failure that counts towards the next request. -/
def isPending (o : CheckObservation) : Bool := !o.isSuccess && !o.isRequested

end CheckObservation

namespace CheckGuard

variable {policy : CheckPolicy} {isLiveness : Bool} {g : CheckGuard} {replies : List CheckReply}

/-- What the readiness state after an outcome says, by the outcomes before it. -/
structure ReadinessCounted (policy : CheckPolicy) (before : List CheckObservation)
    (o : CheckObservation) : Prop where
  healthy : o.state = .healthy ↔
    LastAll policy.consecutiveSuccesses.val (·.isSuccess) (before ++ [o])
  unhealthy : o.state = .unhealthy ↔
    LastAll policy.consecutiveFailures.val (·.isFailure) (before ++ [o])
  noRequest : o.isRequested = false

/-- A failure requests a restart when it completes a block, counted since the last success or
request. -/
def LivenessCounted (policy : CheckPolicy) (before : List CheckObservation) (o : CheckObservation) :
    Prop :=
  o.isRequested = true ↔ o.isFailure = true ∧
    streak (·.isPending) before + 1 = policy.consecutiveFailures.val

/-- What a turn adds -/
def observed (policy : CheckPolicy) (isLiveness : Bool) (g : CheckGuard) (isSuccess : Bool)
    (error : Option String) : CheckObservation :=
  let successes := if isSuccess then g.successes.saturatingAdd 1 else 0
  let failures := if isSuccess then 0 else g.failures.saturatingAdd 1
  let state : GuardState :=
    if policy.consecutiveSuccesses ≤ successes then .healthy
    else if policy.consecutiveFailures ≤ failures then .unhealthy
    else .unknown
  { isSuccess, error, state, isRequested := isLiveness && state = .unhealthy }

section Readiness

theorem state_iff {P Q : Prop} [Decidable P] [Decidable Q] (h : Q → ¬P) :
    ((if P then GuardState.healthy else if Q then .unhealthy else .unknown) = .healthy ↔ P) ∧
    ((if P then GuardState.healthy else if Q then .unhealthy else .unknown) = .unhealthy ↔ Q) := by
  by_cases hP : P
  · have hQ : ¬Q := fun hQ => h hQ hP
    simp [hP, hQ]
  · by_cases hQ : Q
    · simp [hP, hQ]
    · simp [hP, hQ]

/-- The counters of readiness are the runs at the end. -/
structure ReadinessInvariant (policy : CheckPolicy) (g : CheckGuard) : Prop where
  successes : Counts g.successes (streak (·.isSuccess) g.observations)
  failures : Counts g.failures (streak (·.isFailure) g.observations)
  counted : EachAfter (ReadinessCounted policy) g.observations

theorem ReadinessInvariant.observe (h : ReadinessInvariant policy g)
    (hf : 0 < policy.consecutiveFailures.val) (hs : 0 < policy.consecutiveSuccesses.val)
    (isSuccess : Bool) (error : Option String) :
    ReadinessInvariant policy (g.observe policy false isSuccess error) := by
  let o := observed policy false g isSuccess error
  have hsuccesses : Counts (if isSuccess then g.successes.saturatingAdd 1 else 0)
      (streak (·.isSuccess) (g.observations ++ [o])) := by
    rw [Streak.streak_concat]
    cases isSuccess with
    | true => exact h.successes.succ
    | false => exact Counts.zero
  have hfailures : Counts (if isSuccess then 0 else g.failures.saturatingAdd 1)
      (streak (·.isFailure) (g.observations ++ [o])) := by
    rw [Streak.streak_concat]
    cases isSuccess with
    | true => exact Counts.zero
    | false => exact h.failures.succ
  have hnotBoth (hfail : policy.consecutiveFailures.val ≤
      streak (·.isFailure) (g.observations ++ [o])) :
      ¬policy.consecutiveSuccesses.val ≤ streak (·.isSuccess) (g.observations ++ [o]) := by
    rw [Streak.streak_concat] at hfail ⊢
    cases isSuccess with
    | true => exact absurd hfail (Nat.not_le.mpr hf)
    | false => exact Nat.not_le.mpr hs
  have hstate := state_iff fun hfail hreached =>
    hnotBoth (hfailures.reached_iff.mp hfail) (hsuccesses.reached_iff.mp hreached)
  have hcounted : ReadinessCounted policy g.observations o := by
    constructor
    · rw [Streak.lastAll_iff, ← hsuccesses.reached_iff]
      exact hstate.1
    · rw [Streak.lastAll_iff, ← hfailures.reached_iff]
      exact hstate.2
    · rfl
  exact ⟨hsuccesses, hfailures, h.counted.concat hcounted⟩

end Readiness

section Liveness

/-- The failures of liveness are those since the last success or request, below the threshold. -/
structure LivenessInvariant (policy : CheckPolicy) (g : CheckGuard) : Prop where
  failures : g.failures.val = streak (·.isPending) g.observations
  below : g.failures < policy.consecutiveFailures
  counted : EachAfter (LivenessCounted policy) g.observations

theorem LivenessInvariant.observe (h : LivenessInvariant policy g)
    (hs : 0 < policy.consecutiveSuccesses.val) (isSuccess : Bool) (error : Option String) :
    LivenessInvariant policy (g.observe policy true isSuccess error) := by
  have hpositive : 0 < policy.consecutiveFailures :=
    lt_of_le_of_lt (Fin.zero_le _) h.below
  have hnext : (g.failures.saturatingAdd 1).val = g.failures.val + 1 :=
    U16.saturatingAdd_one h.below
  cases isSuccess with
  | true =>
    have hunrequested : (observed policy true g true error).isRequested = false := by
      have hfew : ¬policy.consecutiveFailures ≤ 0 := not_le.mpr hpositive
      unfold observed
      simp only [if_true, hfew, if_false]
      split
      · rfl
      · rfl
    constructor
    · show (if (observed policy true g true error).isRequested = true then (0 : U16) else 0).val =
        streak _ (g.observations ++ [observed policy true g true error])
      rw [hunrequested, Streak.streak_concat]
      rfl
    · show (if (observed policy true g true error).isRequested = true then (0 : U16) else 0) < _
      rw [hunrequested]
      exact hpositive
    · have hcounted : LivenessCounted policy g.observations (observed policy true g true error) := by
        unfold LivenessCounted
        rw [hunrequested]
        constructor
        · exact fun hfalse => absurd hfalse Bool.false_ne_true
        · exact fun hfailure => absurd hfailure.1 Bool.false_ne_true
      exact h.counted.concat hcounted
  | false =>
    have hnone : ¬policy.consecutiveSuccesses ≤ 0 := fun hle =>
      absurd (Fin.le_def.mp hle) (Nat.not_le.mpr hs)
    have hrequested : (observed policy true g false error).isRequested = true ↔
        policy.consecutiveFailures ≤ g.failures.saturatingAdd 1 := by
      unfold observed
      simp only [Bool.false_eq_true, if_false, hnone, Bool.true_and, decide_eq_true_eq]
      split
      · rename_i hreached
        simp [hreached]
      · rename_i hnot
        simp [hnot]
    have hcompletes : policy.consecutiveFailures ≤ g.failures.saturatingAdd 1 ↔
        streak (·.isPending) g.observations + 1 = policy.consecutiveFailures.val := by
      have hbelow := Fin.lt_def.mp h.below
      rw [Fin.le_def, hnext, ← h.failures]
      omega
    constructor
    · show (if (observed policy true g false error).isRequested = true then (0 : U16)
          else g.failures.saturatingAdd 1).val =
        streak _ (g.observations ++ [observed policy true g false error])
      rw [Streak.streak_concat]
      cases hr : (observed policy true g false error).isRequested with
      | true => simp [CheckObservation.isPending, hr]
      | false =>
        have hpending : (observed policy true g false error).isPending = true := by
          unfold CheckObservation.isPending
          rw [hr]
          rfl
        rw [if_pos hpending, if_neg Bool.false_ne_true, hnext, h.failures]
    · show (if (observed policy true g false error).isRequested = true then (0 : U16)
          else g.failures.saturatingAdd 1) < _
      split
      · exact hpositive
      · rename_i hnot
        exact not_le.mp fun hreached => hnot (hrequested.mpr hreached)
    · have hcounted : LivenessCounted policy g.observations (observed policy true g false error) := by
        unfold LivenessCounted
        rw [hrequested, hcompletes]
        exact (and_iff_right rfl).symm
      exact h.counted.concat hcounted

end Liveness

section Runs

theorem run_rec {motive : CheckGuard → Prop} (replies : List CheckReply) (hinit : motive {})
    (hobserve : ∀ g isSuccess error, motive g → motive (g.observe policy isLiveness isSuccess error))
    (hstop : ∀ g, motive g → motive { g with isRunning := false }) :
    motive (run policy isLiveness replies) := by
  apply List.foldlRecOn replies (turn policy isLiveness) hinit
  intro g hg reply _
  unfold turn
  split
  · split
    · exact hstop g hg
    · exact hobserve g _ _ hg
  · exact hg

theorem run_readiness (replies : List CheckReply) (hf : 0 < policy.consecutiveFailures.val)
    (hs : 0 < policy.consecutiveSuccesses.val) :
    ReadinessInvariant policy (run policy false replies) := by
  apply run_rec replies
  · exact ⟨Counts.zero, Counts.zero, EachAfter.nil⟩
  · intro g isSuccess error h
    exact h.observe hf hs isSuccess error
  · intro g h
    exact ⟨h.successes, h.failures, h.counted⟩

theorem run_liveness (replies : List CheckReply) (hf : 0 < policy.consecutiveFailures.val)
    (hs : 0 < policy.consecutiveSuccesses.val) :
    LivenessInvariant policy (run policy true replies) := by
  apply run_rec replies
  · exact ⟨rfl, hf, EachAfter.nil⟩
  · intro g isSuccess error h
    exact h.observe hs isSuccess error
  · intro g h
    exact ⟨h.failures, h.below, h.counted⟩

/-- The outcomes are those of the checks up to the first cancelled one. -/
def outcomes (replies : List CheckReply) : List (Bool × Option String) :=
  (replies.takeWhile (·.verdict.isSome)).filterMap CheckReply.verdict

theorem run_outcomes (replies : List CheckReply) :
    (run policy isLiveness replies).observations.map (fun o => (o.isSuccess, o.error)) =
      outcomes replies := by
  have hrunning (g : CheckGuard) (hg : g.isRunning = true) :
      (replies.foldl (turn policy isLiveness) g).observations.map (fun o => (o.isSuccess, o.error)) =
        g.observations.map (fun o => (o.isSuccess, o.error)) ++ outcomes replies := by
    induction replies generalizing g with
    | nil => exact (List.append_nil _).symm
    | cons reply replies ih =>
      rw [List.foldl_cons]
      cases hverdict : reply.verdict with
      | none =>
        have hturn : turn policy isLiveness g reply = { g with isRunning := false } := by
          unfold turn
          rw [if_pos hg, hverdict]
        -- a loop that has ended does nothing on the rest
        have hended (later : CheckReply) : turn policy isLiveness { g with isRunning := false } later =
            { g with isRunning := false } := rfl
        have hnone : outcomes (reply :: replies) = [] := by
          unfold outcomes
          rw [List.takeWhile_cons_of_neg (by simp [hverdict]), List.filterMap_nil]
        rw [hturn, List.foldl_fixed' hended, hnone, List.append_nil]
      | some outcome =>
        have hturn : turn policy isLiveness g reply =
            g.observe policy isLiveness outcome.1 outcome.2 := by
          unfold turn
          rw [if_pos hg, hverdict]
        have hsome : outcomes (reply :: replies) = outcome :: outcomes replies := by
          unfold outcomes
          rw [List.takeWhile_cons_of_pos (by simp [hverdict]), List.filterMap_cons_some hverdict]
        have hobserved : (g.observe policy isLiveness outcome.1 outcome.2).observations.map
            (fun o => (o.isSuccess, o.error)) =
            g.observations.map (fun o => (o.isSuccess, o.error)) ++ [outcome] := List.map_append
        have hgoes : (g.observe policy isLiveness outcome.1 outcome.2).isRunning = true := hg
        rw [hturn, ih _ hgoes, hobserved, hsome, List.append_assoc, List.singleton_append]
  exact hrunning {} rfl

end Runs

end CheckGuard

namespace MemoryGuard

variable {policy : MemoryPolicy} {g : MemoryGuard}

/-- A sample requests a restart when it ends a run of breaches. -/
def Counted (policy : MemoryPolicy) (before : List MemoryObservation) (o : MemoryObservation) :
    Prop :=
  o.isRequested = true ↔
    LastAll policy.consecutiveBreaches.val (isBreach policy ·.reply) (before ++ [o])

/-- While the loop runs, its breaches are those at the end. -/
structure Invariant (policy : MemoryPolicy) (g : MemoryGuard) : Prop where
  breaches : g.isRunning = true → Counts g.breaches (streak (isBreach policy ·.reply) g.observations)
  counted : EachAfter (Counted policy) g.observations

theorem counted_unbreached {before : List MemoryObservation} {o : MemoryObservation}
    (hb : 0 < policy.consecutiveBreaches.val) (hreply : isBreach policy o.reply = false)
    (hnone : o.isRequested = false) : Counted policy before o := by
  unfold Counted
  rw [Streak.lastAll_iff, Streak.streak_concat, hreply, hnone, if_neg Bool.false_ne_true]
  constructor
  · exact fun hfalse => absurd hfalse Bool.false_ne_true
  · exact fun hle => absurd hle (Nat.not_le.mpr hb)

theorem Invariant.turn (h : Invariant policy g) (hb : 0 < policy.consecutiveBreaches.val)
    (reply : MemoryReply) : Invariant policy (g.turn policy reply) := by
  -- a reply that is no breach, whatever else it records
  have hunbreached (o : MemoryObservation) (hreply : isBreach policy o.reply = false)
      (hnone : o.isRequested = false) :
      Counts 0 (streak (isBreach policy ·.reply) (g.observations ++ [o])) ∧
        EachAfter (Counted policy) (g.observations ++ [o]) := by
    rw [Streak.streak_concat, hreply, if_neg Bool.false_ne_true]
    exact ⟨Counts.zero, h.counted.concat (counted_unbreached hb hreply hnone)⟩
  unfold MemoryGuard.turn
  split
  · rename_i hrunning
    split
    · rename_i memoryBytes
      split
      · rename_i habove
        -- the breach lengthens the run
        have hreply : isBreach policy (.ok (.sample memoryBytes)) = true := decide_eq_true habove
        have hbreaches (o : MemoryObservation) (ho : o.reply = .ok (.sample memoryBytes)) :
            Counts (g.breaches.saturatingAdd 1)
              (streak (isBreach policy ·.reply) (g.observations ++ [o])) := by
          rw [Streak.streak_concat, ho, if_pos hreply]
          exact (h.breaches hrunning).succ
        have hcounted (o : MemoryObservation) (ho : o.reply = .ok (.sample memoryBytes))
            (hrequested : o.isRequested = decide (policy.consecutiveBreaches ≤
              g.breaches.saturatingAdd 1)) : Counted policy g.observations o := by
          unfold Counted
          rw [Streak.lastAll_iff, ← (hbreaches o ho).reached_iff, hrequested, decide_eq_true_eq]
        exact ⟨fun _ => hbreaches _ rfl, h.counted.concat (hcounted _ rfl rfl)⟩
      · rename_i hbelow
        obtain ⟨hzero, hcounted⟩ := hunbreached ⟨.ok (.sample memoryBytes), .healthy, none, false⟩
          (decide_eq_false hbelow) rfl
        exact ⟨fun _ => hzero, hcounted⟩
    · rename_i reason
      obtain ⟨hzero, hcounted⟩ := hunbreached ⟨.ok (.unknown reason), .unknown, some reason, false⟩
        rfl rfl
      exact ⟨fun _ => hzero, hcounted⟩
    · rename_i reason
      obtain ⟨hzero, hcounted⟩ := hunbreached ⟨.error (.failed reason), .unknown, some reason, false⟩
        rfl rfl
      exact ⟨fun _ => hzero, hcounted⟩
    · rename_i error _
      obtain ⟨-, hcounted⟩ := hunbreached ⟨.error error, .unsupported, some error.message, false⟩
        rfl rfl
      exact ⟨fun hended => absurd hended Bool.false_ne_true, hcounted⟩
  · exact h

theorem run_invariant (replies : List MemoryReply) (hb : 0 < policy.consecutiveBreaches.val) :
    Invariant policy (run policy replies) := by
  apply List.foldlRecOn replies (MemoryGuard.turn policy)
  · exact ⟨fun _ => Counts.zero, EachAfter.nil⟩
  · intro g h reply _
    exact h.turn hb reply

def isUnsupported : MemoryReply → Bool
  | .error (.unsupported _) => true
  | _ => false

/-- The samples up to the first one that is not supported. -/
def samples : List MemoryReply → List MemoryReply
  | [] => []
  | reply :: rest => if isUnsupported reply then [reply] else reply :: samples rest

theorem turn_reply (hg : g.isRunning = true) (reply : MemoryReply) :
    (g.turn policy reply).observations.map (·.reply) = g.observations.map (·.reply) ++ [reply] ∧
      (g.turn policy reply).isRunning = !isUnsupported reply := by
  unfold MemoryGuard.turn
  rw [if_pos hg]
  split
  · split
    · exact ⟨List.map_append, hg⟩
    · exact ⟨List.map_append, hg⟩
  · exact ⟨List.map_append, hg⟩
  · exact ⟨List.map_append, hg⟩
  · rename_i error hnot
    cases error with
    | unsupported what => exact ⟨List.map_append, rfl⟩
    | failed reason => exact absurd rfl (hnot reason)

theorem turn_ended (hg : g.isRunning = false) (reply : MemoryReply) : g.turn policy reply = g := by
  unfold MemoryGuard.turn
  rw [hg, if_neg Bool.false_ne_true]

theorem run_samples (replies : List MemoryReply) :
    (run policy replies).observations.map (·.reply) = samples replies := by
  have hrunning (g : MemoryGuard) (hg : g.isRunning = true) :
      (replies.foldl (MemoryGuard.turn policy) g).observations.map (·.reply) =
        g.observations.map (·.reply) ++ samples replies := by
    induction replies generalizing g with
    | nil => exact (List.append_nil _).symm
    | cons reply replies ih =>
      obtain ⟨hreplies, hgoes⟩ := @turn_reply policy _ hg reply
      rw [List.foldl_cons]
      unfold samples
      split
      · rename_i hunsupported
        rw [hunsupported, Bool.not_true] at hgoes
        -- a loop that has ended does nothing on the rest
        rw [List.foldl_fixed' (turn_ended hgoes), hreplies]
      · rename_i hsupported
        rw [Bool.not_eq_true _ |>.mp hsupported, Bool.not_false] at hgoes
        rw [ih _ hgoes, hreplies, List.append_assoc, List.singleton_append]
  exact hrunning {} rfl

end MemoryGuard

namespace ProcessSpec

variable {spec : ProcessSpec}

theorem validated (h : spec.validateProductionPolicy = .ok ()) :
    (∀ memory ∈ spec.memory, memory.consecutiveBreaches ≠ 0) ∧
    ∀ check, check ∈ spec.liveness ∨ check ∈ spec.readiness →
      check.consecutiveSuccesses ≠ 0 ∧ check.consecutiveFailures ≠ 0 := by
  unfold validateProductionPolicy at h
  dsimp only at h
  split at h
  · cases h
  split at h
  · cases h
  split at h
  · cases h
  split at h
  · cases h
  rename_i hmemory
  split at h
  · cases h
  rename_i hcheck
  constructor
  · intro memory hsome hzero
    rw [Option.mem_def.mp hsome] at hmemory
    simp [hzero] at hmemory
  · intro check hsome
    simp only [List.any_cons, List.any_nil, Bool.or_false, Bool.or_eq_true, not_or,
      Option.any_eq_true, not_exists, not_and] at hcheck
    rcases hsome with hsome | hsome
    · have hnot := hcheck.1 check hsome
      simp only [decide_eq_true_eq] at hnot
      exact ⟨hnot.1.2, hnot.2⟩
    · have hnot := hcheck.2 check hsome
      simp only [decide_eq_true_eq] at hnot
      exact ⟨hnot.1.2, hnot.2⟩

end ProcessSpec

/-- The thresholds of a valid definition count the outcomes in a row, over runs of any length. -/
theorem guard_thresholds (spec : ProcessSpec) (h : spec.validateProductionPolicy = .ok ()) :
    (∀ policy ∈ spec.liveness, ∀ replies,
      let g := CheckGuard.run policy true replies
      g.observations.map (fun o => (o.isSuccess, o.error)) = CheckGuard.outcomes replies ∧
      EachAfter (CheckGuard.LivenessCounted policy) g.observations) ∧
    (∀ policy ∈ spec.readiness, ∀ replies,
      let g := CheckGuard.run policy false replies
      g.observations.map (fun o => (o.isSuccess, o.error)) = CheckGuard.outcomes replies ∧
      EachAfter (CheckGuard.ReadinessCounted policy) g.observations) ∧
    ∀ policy ∈ spec.memory, ∀ replies,
      let g := MemoryGuard.run policy replies
      g.observations.map (·.reply) = MemoryGuard.samples replies ∧
      EachAfter (MemoryGuard.Counted policy) g.observations := by
  refine ⟨?_, ?_, ?_⟩
  · intro policy hpolicy replies
    obtain ⟨hs, hf⟩ := (ProcessSpec.validated h).2 policy (Or.inl hpolicy)
    rw [← Fin.pos_iff_ne_zero] at hs hf
    exact ⟨CheckGuard.run_outcomes replies, (CheckGuard.run_liveness replies hf hs).counted⟩
  · intro policy hpolicy replies
    obtain ⟨hs, hf⟩ := (ProcessSpec.validated h).2 policy (Or.inr hpolicy)
    rw [← Fin.pos_iff_ne_zero] at hs hf
    exact ⟨CheckGuard.run_outcomes replies, (CheckGuard.run_readiness replies hf hs).counted⟩
  · intro policy hpolicy replies
    have hb := Fin.pos_iff_ne_zero.mpr ((ProcessSpec.validated h).1 policy hpolicy)
    exact ⟨MemoryGuard.run_samples replies, (MemoryGuard.run_invariant replies hb).counted⟩

def sampleCheck : CheckPolicy where
  kind := .tcp "localhost" 80
  interval := .fromSecs 10
  timeout := .fromSecs 1
  consecutiveSuccesses := 2
  consecutiveFailures := 2

def guardedSpec : ProcessSpec where
  definitionId := ⟨1⟩
  name := "api"
  command := "api"
  liveness := some sampleCheck
  readiness := some sampleCheck

def guardReplies : List CheckReply :=
  [.ok .failed, .error "refused", .ok .timedOut, .ok .succeeded, .ok .succeeded, .ok .failed]

/-- Two failures request a restart, and the third one counts anew. -/
theorem guardedSpec_thresholds :
    EachAfter (CheckGuard.LivenessCounted sampleCheck)
      (CheckGuard.run sampleCheck true guardReplies).observations ∧
    (CheckGuard.run sampleCheck true guardReplies).observations.map (·.isRequested) =
      [false, true, false, false, false, false] ∧
    (CheckGuard.run sampleCheck false guardReplies).observations.map (·.state) =
      [.unknown, .unhealthy, .unhealthy, .unknown, .healthy, .unknown] := by
  have h : guardedSpec.validateProductionPolicy = .ok () := by decide +kernel
  exact ⟨((guard_thresholds guardedSpec h).1 sampleCheck rfl guardReplies).2, by decide, by decide⟩

end Supervisor
