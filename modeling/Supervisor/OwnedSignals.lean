import Supervisor.GroupTermination

namespace Supervisor

namespace Platform

namespace Termination

open ProcessTable (OwnGroup)

variable {handle : ChildHandle} {initialSignal signal : Signal} {ownedLeader : Bool}
  {s t : Termination} {pgid : ℕ} {kernel : Kernel} {phase : TerminatePhase}

/-- The group with the number of the handle is the one that the recorded generation has created. -/
def Owned (handle : ChildHandle) (kernel : Kernel) : Prop :=
  ∃ generation, handle.generation = some generation ∧ kernel.OwnGroup handle.pid generation

/-- What holds at each point of a call. -/
def PhaseOk (handle : ChildHandle) (s : Termination) : TerminatePhase → Prop
  | .idle | .lookUp | .returned (.error _) => True
  | .returned (.ok ()) => s.lastProbe = some (.error .alreadyExited)
  | .lookAgain => Owned handle s.kernel
  | .signalChecked pgid | .probeFallback pgid | .signalFallback pgid | .probe _ pgid
  | .tryWait _ pgid | .polled _ pgid | .escalate pgid => pgid = handle.pid ∧ Owned handle s.kernel

structure Sound (handle : ChildHandle) (s : Termination) : Prop where
  sent : ∀ signal ∈ s.sent,
    signal.2.number = handle.pid ∧ handle.generation = some signal.2.creator
  phase : s.PhaseOk handle s.phase

theorem Sound.onlyOwned (h : s.Sound handle) : s.OnlyOwned handle where
  owned := h.sent
  confirmed hphase := by
    have hok := h.phase
    rwa [hphase] at hok

theorem ownedGroupId_eq_ok (h : handle.ownedGroupId = .ok pgid) :
    pgid = handle.pid ∧ ∃ generation, handle.generation = some generation := by
  unfold ChildHandle.ownedGroupId at h
  split at h
  · rename_i generation _ hgeneration
    split at h
    · rename_i hvalid
      cases h
      exact ⟨hvalid.2.1, generation, hgeneration⟩
    · cases h
  · cases h

theorem matchesIdentity_iff {actual : ProcessIdentity} (h : handle.matchesIdentity actual = true) :
    actual.pid = handle.pid ∧ actual.pgid = handle.pid ∧
      handle.generation = some actual.generation := by
  unfold ChildHandle.matchesIdentity at h
  split at h
  · rename_i hpgid hgeneration
    simp only [Bool.and_eq_true, decide_eq_true_eq] at h
    obtain ⟨⟨⟨⟨-, hsame⟩, hpid⟩, hgroup⟩, hmatch⟩ := h
    exact ⟨hpid, hgroup.trans hsame, hmatch ▸ hgeneration⟩
  · cases h

/-! The answers of the kernel. -/

theorem snapshot_eq_ok {pid : ℕ} {fault : Option SignalError} {identity : ProcessIdentity}
    (h : snapshot kernel pid fault = some (.ok identity)) : ∃ p ∈ kernel.processes,
      p.pid = pid ∧ identity = ⟨p.pid, p.group.number, p.isZombie, p.generation⟩ := by
  unfold snapshot at h
  split at h
  · split at h
    · rename_i p hp
      cases h
      obtain ⟨hmem, hpid⟩ := ProcessTable.process?_eq_some hp
      exact ⟨p, hmem, hpid, rfl⟩
    · cases h
  · split at h
    · cases h
    · cases h
  · cases h
  · cases h
  · cases h

/-- No live process has a number that is not found, or is found dead. -/
theorem live?_of_snapshot {pid : ℕ} {fault : Option SignalError}
    (h : snapshot kernel pid fault = some (.error .alreadyExited) ∨
      ∃ identity, snapshot kernel pid fault = some (.ok identity) ∧ identity.isZombie = true) :
    kernel.live? pid = none := by
  cases hlive : kernel.live? pid with
  | none => rfl
  | some p =>
    obtain ⟨hmem, hpid, halive⟩ := ProcessTable.live?_eq_some hlive
    rcases h with hgone | ⟨identity, hfound, hzombie⟩
    · unfold snapshot at hgone
      split at hgone
      · split at hgone
        · cases hgone
        · rename_i hnone
          rw [ProcessTable.live?, hnone] at hlive
          cases hlive
      · rw [hlive] at hgone
        cases hgone
      · cases hgone
      · cases hgone
      · cases hgone
    · obtain ⟨q, hq, hqpid, rfl⟩ := snapshot_eq_ok hfound
      rw [ProcessTable.eq_of_pid hq hmem (hqpid.trans hpid.symm)] at hzombie
      cases halive.symm.trans hzombie

theorem hasGroup_of_killGroup {fault : Option SignalError}
    (h : killGroup kernel pgid fault = some (.error .alreadyExited)) :
    kernel.hasGroup pgid = false := by
  unfold killGroup at h
  split at h
  · split at h
    · cases h
    · rename_i hnone
      exact Bool.eq_false_iff.mpr hnone
  · split at h
    · cases h
    · cases h
  · cases h
  · cases h

/-! The kernel moves on. -/

theorem Owned.mono {other : Kernel} (h : Owned handle kernel)
    (hkeep : ∀ generation, kernel.OwnGroup handle.pid generation →
      other.OwnGroup handle.pid generation) : Owned handle other := by
  obtain ⟨generation, hgeneration, hown⟩ := h
  exact ⟨generation, hgeneration, hkeep generation hown⟩

theorem Sound.move (h : s.Sound handle) (hkeep : s.phase.isActive = true →
    Owned handle s.kernel → Owned handle kernel) : ({ s with kernel } : Termination).Sound handle := by
  refine ⟨h.sent, ?_⟩
  have hok := h.phase
  change PhaseOk handle { s with kernel } s.phase
  cases hphase : s.phase with
  | idle | lookUp => trivial
  | returned result =>
    rw [hphase] at hok
    cases result with
    | ok => exact hok
    | error error => trivial
  | lookAgain =>
    rw [hphase] at hok hkeep
    exact hkeep rfl hok
  | signalChecked pgid | probeFallback pgid | signalFallback pgid | probe killed pgid
  | tryWait killed pgid | polled killed pgid | escalate pgid =>
    rw [hphase] at hok hkeep
    exact ⟨hok.1, hkeep rfl hok.2⟩

theorem Sound.createGroup (h : s.Sound handle) {pid : ℕ} (hfits : s.mayCreate handle pid = true)
    (hcreate : s.kernel.createGroup pid = some kernel) :
    ({ s with kernel } : Termination).Sound handle := by
  refine h.move fun hactive hown => ?_
  obtain ⟨generation, hgeneration, hown⟩ := hown
  refine ⟨generation, hgeneration, hown.createGroup hcreate fun p hp hpid => ?_⟩
  obtain rfl := hpid
  simp only [mayCreate, hactive, hp, hgeneration, Bool.not_true, Bool.false_or, ne_eq,
    not_true_eq_false, decide_false, Option.all_some, decide_eq_true_eq, Option.some.injEq] at hfits
  exact hfits

/-! The calls of the system. -/

theorem Sound.goto (h : s.Sound handle) (hphase : s.PhaseOk handle phase) :
    ({ s with phase } : Termination).Sound handle :=
  ⟨h.sent, hphase⟩

theorem Sound.fail (h : s.Sound handle) (error : SignalError) : (s.fail error).Sound handle :=
  h.goto trivial

theorem Sound.withGroup (h : s.Sound handle) {group : Except SignalError ℕ}
    {phase : ℕ → TerminatePhase} (hphase : ∀ pgid, group = .ok pgid → s.PhaseOk handle (phase pgid)) :
    (s.withGroup group phase).Sound handle := by
  cases group with
  | ok pgid => exact h.goto (hphase pgid rfl)
  | error error => exact h.fail error

/-- A signal goes to the group that has the number now. -/
theorem Sound.deliver (h : s.Sound handle) (hown : Owned handle s.kernel) :
    (s.deliver signal handle.pid).Sound handle ∧ (s.deliver signal handle.pid).kernel = s.kernel := by
  unfold Termination.deliver
  split
  · rename_i p hp
    refine ⟨⟨fun sent hsent => ?_, h.phase⟩, rfl⟩
    rcases List.mem_append.mp hsent with hold | hlast
    · exact h.sent sent hold
    · obtain ⟨hmem, hnumber⟩ := ProcessTable.member?_eq_some hp
      obtain ⟨generation, hgeneration, hgroup⟩ := hown
      rw [List.mem_singleton.mp hlast]
      exact ⟨hnumber, (hgroup p hmem hnumber).symm ▸ hgeneration⟩
  · exact ⟨h, rfl⟩

theorem Sound.waitForGroupExit (h : s.Sound handle) (hown : Owned handle s.kernel) (killed : Bool) :
    (s.waitForGroupExit handle killed).Sound handle :=
  h.withGroup fun _ hpgid => ⟨(ownedGroupId_eq_ok hpgid).1, hown⟩

/-- The look-up finds the leader, or finds that its number has no live process. -/
theorem Sound.lookUp (h : s.Sound handle) (hphase : s.phase = .lookUp)
    (hfits : s.mayLookUp handle = true) {fault : Option SignalError}
    {answer : Except SignalError ProcessIdentity}
    (hanswer : snapshot s.kernel handle.pid fault = some answer) :
    (s.lookUp handle answer).Sound handle := by
  have hfallback (hlive : s.kernel.live? handle.pid = none) :
      (s.withGroup handle.ownedGroupId .probeFallback).Sound handle := by
    refine h.withGroup fun pgid hpgid => ?_
    obtain ⟨hpid, generation, hgeneration⟩ := ownedGroupId_eq_ok hpgid
    refine ⟨hpid, generation, hgeneration, fun p hp hnumber => ?_⟩
    simp only [mayLookUp, hphase, hlive, Option.isSome_none, Bool.false_or, List.all_eq_true] at hfits
    have hcreator := hfits p hp
    simp only [hnumber, hgeneration, ne_eq, not_true_eq_false, decide_false, Bool.false_or,
      decide_eq_true_eq, Option.some.injEq] at hcreator
    exact hcreator
  unfold Termination.lookUp
  split
  · exact hfallback (live?_of_snapshot (.inl hanswer))
  · exact h.fail _
  · rename_i before
    split
    · rename_i hzombie
      exact hfallback (live?_of_snapshot (.inr ⟨before, hanswer, hzombie⟩))
    · split
      · rename_i hmatches
        obtain ⟨-, hgroup, hgeneration⟩ := matchesIdentity_iff hmatches
        obtain ⟨p, hp, hpid, rfl⟩ := snapshot_eq_ok hanswer
        refine h.goto ⟨hgroup, p.generation, hgeneration, ?_⟩
        exact hpid ▸ OwnGroup.of_process hp
      · exact h.fail _

theorem Sound.signalChecked (h : s.Sound handle) (hown : Owned handle s.kernel)
    (answer : Except SignalError Unit) :
    (s.signalChecked initialSignal handle.pid answer).Sound handle := by
  unfold Termination.signalChecked
  split
  · obtain ⟨hsent, hkernel⟩ := @Platform.Termination.Sound.deliver _ initialSignal _ h hown
    refine hsent.goto ?_
    change Owned handle (s.deliver initialSignal handle.pid).kernel
    rwa [hkernel]
  · exact h.goto hown
  · exact h.fail _

theorem Sound.lookAgain (h : s.Sound handle) (hown : Owned handle s.kernel)
    (answer : Except SignalError ProcessIdentity) : (s.lookAgain handle answer).Sound handle := by
  unfold Termination.lookAgain
  split
  · split
    · exact h.waitForGroupExit hown false
    · exact h.fail _
  · exact h.waitForGroupExit hown false
  · exact h.waitForGroupExit hown false
  · exact h.fail _

theorem Sound.probed (h : s.Sound handle) (hactive : s.phase.isActive = true)
    (answer : Option (Except SignalError Unit)) :
    ({ s with lastProbe := answer } : Termination).Sound handle := by
  refine ⟨h.sent, ?_⟩
  have hok := h.phase
  change PhaseOk handle { s with lastProbe := answer } s.phase
  cases hphase : s.phase with
  | idle | lookUp | returned result =>
    rw [hphase] at hactive
    cases hactive
  | lookAgain | signalChecked pgid | probeFallback pgid | signalFallback pgid | probe killed pgid
  | tryWait killed pgid | polled killed pgid | escalate pgid =>
    rw [hphase] at hok
    exact hok

theorem Sound.probeFallback (h : s.Sound handle) (hactive : s.phase.isActive = true)
    (hown : Owned handle s.kernel) (answer : Except SignalError Unit) :
    (s.probeFallback handle answer).Sound handle := by
  have hprobed := h.probed hactive (some answer)
  unfold Termination.probeFallback
  dsimp only
  split
  · exact hprobed.withGroup fun _ hpgid => ⟨(ownedGroupId_eq_ok hpgid).1, hown⟩
  · exact hprobed.goto rfl
  · exact hprobed.fail _

theorem Sound.signalFallback (h : s.Sound handle) (hown : Owned handle s.kernel)
    (answer : Except SignalError Unit) :
    (s.signalFallback handle initialSignal handle.pid answer).Sound handle := by
  unfold Termination.signalFallback
  split
  · obtain ⟨hsent, hkernel⟩ := @Platform.Termination.Sound.deliver _ initialSignal _ h hown
    exact hsent.waitForGroupExit (hkernel.symm ▸ hown) false
  · exact h.fail _

theorem Sound.probe (h : s.Sound handle) (hactive : s.phase.isActive = true)
    (hown : Owned handle s.kernel) (killed : Bool) (answer : Except SignalError Unit) :
    (s.probe ownedLeader killed handle.pid answer).Sound handle := by
  have hprobed := h.probed hactive (some answer)
  unfold Termination.probe
  dsimp only
  split
  · exact hprobed.goto ⟨rfl, hown⟩
  · exact hprobed.goto rfl
  · refine hprobed.goto ?_
    split
    · exact ⟨rfl, hown⟩
    · exact ⟨rfl, hown⟩
  · exact hprobed.fail _

theorem Sound.escalate (h : s.Sound handle) (hown : Owned handle s.kernel)
    (answer : Except SignalError Unit) : (s.escalate handle handle.pid answer).Sound handle := by
  unfold Termination.escalate
  split
  · obtain ⟨hsent, hkernel⟩ := @Platform.Termination.Sound.deliver _ .kill _ h hown
    exact hsent.waitForGroupExit (hkernel.symm ▸ hown) true
  · exact h.waitForGroupExit hown true
  · exact h.fail _

/-! The whole machine. -/

theorem Sound.next (h : s.Sound handle) (hfits : s.mayLookUp handle = true)
    {fault : Option SignalError}
    (hstep : s.next handle initialSignal ownedLeader fault = some t) : t.Sound handle := by
  have hok := h.phase
  cases hphase : s.phase with
  | lookUp =>
    simp only [Termination.next, hphase] at hstep
    obtain ⟨answer, hanswer, rfl⟩ := Option.map_eq_some_iff.mp hstep
    exact h.lookUp hphase hfits hanswer
  | signalChecked pgid =>
    simp only [Termination.next, hphase] at hstep
    rw [hphase] at hok
    obtain ⟨rfl, hown⟩ := hok
    obtain ⟨answer, -, rfl⟩ := Option.map_eq_some_iff.mp hstep
    exact h.signalChecked hown answer
  | lookAgain =>
    simp only [Termination.next, hphase] at hstep
    rw [hphase] at hok
    obtain ⟨answer, -, rfl⟩ := Option.map_eq_some_iff.mp hstep
    exact h.lookAgain hok answer
  | probeFallback pgid =>
    simp only [Termination.next, hphase] at hstep
    rw [hphase] at hok
    obtain ⟨answer, -, rfl⟩ := Option.map_eq_some_iff.mp hstep
    exact h.probeFallback (by rw [hphase]; rfl) hok.2 answer
  | signalFallback pgid =>
    simp only [Termination.next, hphase] at hstep
    rw [hphase] at hok
    obtain ⟨rfl, hown⟩ := hok
    obtain ⟨answer, -, rfl⟩ := Option.map_eq_some_iff.mp hstep
    exact h.signalFallback hown answer
  | probe killed pgid =>
    simp only [Termination.next, hphase] at hstep
    rw [hphase] at hok
    obtain ⟨rfl, hown⟩ := hok
    obtain ⟨answer, -, rfl⟩ := Option.map_eq_some_iff.mp hstep
    exact h.probe (by rw [hphase]; rfl) hown killed answer
  | tryWait killed pgid =>
    simp only [Termination.next, hphase] at hstep
    rw [hphase] at hok
    split at hstep
    · cases hstep
      have hown : Owned handle (s.reapLeader handle).kernel :=
        hok.2.mono fun _ hgroup => hgroup.filter _
      exact ⟨h.sent, hok.1, hown⟩
    · cases hstep
      exact h.fail _
    · cases hstep
  | escalate pgid =>
    simp only [Termination.next, hphase] at hstep
    rw [hphase] at hok
    obtain ⟨rfl, hown⟩ := hok
    obtain ⟨answer, -, rfl⟩ := Option.map_eq_some_iff.mp hstep
    exact h.escalate hown answer
  | idle | polled killed pgid | returned result =>
    simp only [Termination.next, hphase] at hstep
    cases hstep

theorem Sound.poll (h : s.Sound handle) {reached : Bool}
    (hstep : s.step handle initialSignal ownedLeader (.poll reached) = some t) : t.Sound handle := by
  have hok := h.phase
  simp only [Termination.step] at hstep
  split at hstep
  · rename_i killed pgid hphase
    rw [hphase] at hok
    cases hstep
    split
    · exact h.goto hok
    · split
      · exact h.withGroup fun _ _ => trivial
      · exact h.withGroup fun _ hpgid => ⟨(ownedGroupId_eq_ok hpgid).1, hok.2⟩
  · cases hstep

theorem Sound.step (h : s.Sound handle) {e : TerminationEvent} (hfits : s.Fits handle e)
    (hstep : s.step handle initialSignal ownedLeader e = some t) : t.Sound handle := by
  cases e with
  | exit pid =>
    cases hstep
    exact h.move fun _ hown => hown.mono fun _ hgroup => hgroup.exit
  | reap pid =>
    cases hstep
    exact h.move fun _ hown => hown.mono fun _ hgroup => hgroup.filter _
  | fork parent pid generation =>
    obtain ⟨kernel, hkernel, rfl⟩ := Option.map_eq_some_iff.mp hstep
    exact h.move fun _ hown => hown.mono fun _ hgroup => hgroup.fork hkernel
  | createGroup pid =>
    obtain ⟨kernel, hkernel, rfl⟩ := Option.map_eq_some_iff.mp hstep
    exact h.createGroup hfits hkernel
  | joinGroup pid number =>
    obtain ⟨kernel, hkernel, rfl⟩ := Option.map_eq_some_iff.mp hstep
    exact h.move fun _ hown => hown.mono fun _ hgroup => hgroup.joinGroup hkernel
  | call =>
    simp only [Termination.step] at hstep
    split at hstep
    · cases hstep
      exact ⟨h.sent, trivial⟩
    · cases hstep
      exact ⟨h.sent, trivial⟩
    · cases hstep
  | next fault => exact h.next hfits hstep
  | poll reached => exact h.poll hstep

/-! A call that returns success has found that no group has the number. -/

/-- A call asks for the number of the handle, and returns success when no group has it. -/
def Confirmed (handle : ChildHandle) (kernel : Kernel) : TerminatePhase → Prop
  | .idle | .lookUp | .lookAgain | .returned (.error _) => True
  | .returned (.ok ()) => kernel.hasGroup handle.pid = false
  | .signalChecked pgid | .probeFallback pgid | .signalFallback pgid | .probe _ pgid
  | .tryWait _ pgid | .polled _ pgid | .escalate pgid => pgid = handle.pid

theorem confirmed_withGroup {phase : ℕ → TerminatePhase} {group : Except SignalError ℕ}
    (hphase : ∀ pgid, group = .ok pgid → Confirmed handle s.kernel (phase pgid)) :
    Confirmed handle (s.withGroup group phase).kernel (s.withGroup group phase).phase := by
  cases group with
  | ok pgid => exact hphase pgid rfl
  | error error => trivial

theorem confirmed_waitForGroupExit (killed : Bool) :
    Confirmed handle (s.waitForGroupExit handle killed).kernel
      (s.waitForGroupExit handle killed).phase :=
  confirmed_withGroup fun _ hpgid => (ownedGroupId_eq_ok hpgid).1

theorem confirmed_lookUp (answer : Except SignalError ProcessIdentity) :
    Confirmed handle (s.lookUp handle answer).kernel (s.lookUp handle answer).phase := by
  unfold Termination.lookUp
  split
  · exact confirmed_withGroup fun _ hpgid => (ownedGroupId_eq_ok hpgid).1
  · trivial
  · split
    · exact confirmed_withGroup fun _ hpgid => (ownedGroupId_eq_ok hpgid).1
    · split
      · rename_i hmatches
        exact (matchesIdentity_iff hmatches).2.1
      · trivial

theorem confirmed_signalChecked (answer : Except SignalError Unit) :
    Confirmed handle (s.signalChecked initialSignal pgid answer).kernel
      (s.signalChecked initialSignal pgid answer).phase := by
  unfold Termination.signalChecked
  split
  · trivial
  · trivial
  · trivial

theorem confirmed_lookAgain (answer : Except SignalError ProcessIdentity) :
    Confirmed handle (s.lookAgain handle answer).kernel (s.lookAgain handle answer).phase := by
  unfold Termination.lookAgain
  split
  · split
    · exact confirmed_waitForGroupExit false
    · trivial
  · exact confirmed_waitForGroupExit false
  · exact confirmed_waitForGroupExit false
  · trivial

theorem confirmed_probeFallback {fault : Option SignalError} {answer : Except SignalError Unit}
    (hanswer : killGroup s.kernel handle.pid fault = some answer) :
    Confirmed handle (s.probeFallback handle answer).kernel (s.probeFallback handle answer).phase := by
  unfold Termination.probeFallback
  dsimp only
  split
  · exact confirmed_withGroup fun _ hpgid => (ownedGroupId_eq_ok hpgid).1
  · exact hasGroup_of_killGroup hanswer
  · trivial

theorem confirmed_signalFallback (answer : Except SignalError Unit) :
    Confirmed handle (s.signalFallback handle initialSignal pgid answer).kernel
      (s.signalFallback handle initialSignal pgid answer).phase := by
  unfold Termination.signalFallback
  split
  · exact confirmed_waitForGroupExit false
  · trivial

theorem confirmed_probe {fault : Option SignalError} {answer : Except SignalError Unit}
    (killed : Bool) (hanswer : killGroup s.kernel handle.pid fault = some answer) :
    Confirmed handle (s.probe ownedLeader killed handle.pid answer).kernel
      (s.probe ownedLeader killed handle.pid answer).phase := by
  unfold Termination.probe
  dsimp only
  split
  · rfl
  · exact hasGroup_of_killGroup hanswer
  · split
    · rfl
    · rfl
  · trivial

theorem confirmed_escalate (answer : Except SignalError Unit) :
    Confirmed handle (s.escalate handle pgid answer).kernel (s.escalate handle pgid answer).phase := by
  unfold Termination.escalate
  split
  · exact confirmed_waitForGroupExit true
  · exact confirmed_waitForGroupExit true
  · trivial

theorem confirmed_next (h : Confirmed handle s.kernel s.phase) {fault : Option SignalError}
    (hstep : s.next handle initialSignal ownedLeader fault = some t) :
    Confirmed handle t.kernel t.phase := by
  cases hphase : s.phase with
  | lookUp =>
    simp only [Termination.next, hphase] at hstep
    obtain ⟨answer, -, rfl⟩ := Option.map_eq_some_iff.mp hstep
    exact confirmed_lookUp answer
  | signalChecked pgid =>
    simp only [Termination.next, hphase] at hstep
    obtain ⟨answer, -, rfl⟩ := Option.map_eq_some_iff.mp hstep
    exact confirmed_signalChecked answer
  | lookAgain =>
    simp only [Termination.next, hphase] at hstep
    obtain ⟨answer, -, rfl⟩ := Option.map_eq_some_iff.mp hstep
    exact confirmed_lookAgain answer
  | probeFallback pgid =>
    rw [hphase] at h
    obtain rfl := h
    simp only [Termination.next, hphase] at hstep
    obtain ⟨answer, hanswer, rfl⟩ := Option.map_eq_some_iff.mp hstep
    exact confirmed_probeFallback hanswer
  | signalFallback pgid =>
    simp only [Termination.next, hphase] at hstep
    obtain ⟨answer, -, rfl⟩ := Option.map_eq_some_iff.mp hstep
    exact confirmed_signalFallback answer
  | probe killed pgid =>
    rw [hphase] at h
    obtain rfl := h
    simp only [Termination.next, hphase] at hstep
    obtain ⟨answer, hanswer, rfl⟩ := Option.map_eq_some_iff.mp hstep
    exact confirmed_probe killed hanswer
  | tryWait killed pgid =>
    rw [hphase] at h
    simp only [Termination.next, hphase] at hstep
    split at hstep
    · cases hstep
      exact h
    · cases hstep
      trivial
    · cases hstep
  | escalate pgid =>
    simp only [Termination.next, hphase] at hstep
    obtain ⟨answer, -, rfl⟩ := Option.map_eq_some_iff.mp hstep
    exact confirmed_escalate answer
  | idle | polled killed pgid | returned result =>
    simp only [Termination.next, hphase] at hstep
    cases hstep

theorem confirmed_poll (h : Confirmed handle s.kernel s.phase) {reached : Bool}
    (hstep : s.step handle initialSignal ownedLeader (.poll reached) = some t) :
    Confirmed handle t.kernel t.phase := by
  simp only [Termination.step] at hstep
  split at hstep
  · rename_i killed pgid hphase
    rw [hphase] at h
    cases hstep
    split
    · exact h
    · split
      · exact confirmed_withGroup fun _ _ => trivial
      · exact confirmed_withGroup fun _ hpgid => (ownedGroupId_eq_ok hpgid).1
  · cases hstep

/-- The signals of a call reach only the group of the recorded leader in every run in which no
other process makes a group with its number at a wrong time. -/
theorem run_onlyOwned
    (h : (machine handle initialSignal ownedLeader).Run (Fits handle) { kernel } t) :
    t.OnlyOwned handle := by
  have hsound : t.Sound handle :=
    h.invariant (fun _ _ _ hs hfits hstep => hs.step hfits hstep) ⟨nofun, trivial⟩
  exact hsound.onlyOwned

/-- A shell, and a child that leads its own group. -/
def sampleKernel : Kernel where
  processes := [⟨42, "10:20", ⟨42, "10:20"⟩, false⟩, ⟨7, "1:1", ⟨7, "1:1"⟩, false⟩]
  distinct := by decide
  named := by decide
  owned := by decide

def sampleHandle : ChildHandle := ⟨42, some 42, some "10:20", by decide⟩

/-- The leader exits on the first signal, its own child only on the second. -/
theorem grandchild_onlyOwned : ∃ t,
    (machine sampleHandle .term false).Run (Fits sampleHandle) { kernel := sampleKernel } t ∧
    t.sent = [(.term, ⟨42, "10:20"⟩), (.kill, ⟨42, "10:20"⟩)] ∧ t.OnlyOwned sampleHandle := by
  obtain ⟨t, hrun, hp⟩ := Machine.exists_run_of_execUnder (M := machine sampleHandle .term false)
    (C := Fits sampleHandle) (s := { kernel := sampleKernel })
    (fun t => t.sent = [(.term, ⟨42, "10:20"⟩), (.kill, ⟨42, "10:20"⟩)])
    [.fork 42 50 "11:0", .call, .next none, .next none, .exit 42, .next none, .reap 42, .next none,
      .poll true, .next none, .exit 50, .reap 50, .next none] (by decide +kernel)
  exact ⟨t, hrun, of_decide_eq_true hp, run_onlyOwned hrun⟩

/-- The recorded leader is gone, and another process has left a group with its number. -/
theorem reusedNumber_signalled : ∃ t,
    (machine sampleHandle .term false).Reaches { kernel := sampleKernel } t ∧
    ¬t.OnlyOwned sampleHandle := by
  obtain ⟨t, hrun, hp⟩ := Machine.exists_reaches_of_exec (M := machine sampleHandle .term false)
    (s := { kernel := sampleKernel }) (fun t => t.sent = [(.term, ⟨42, "90:0"⟩)])
    [.exit 42, .reap 42, .fork 7 42 "90:0", .createGroup 42, .fork 42 51 "90:1", .exit 42, .reap 42,
      .call, .next none, .next none, .next none] (by decide +kernel)
  refine ⟨t, hrun, fun honly => ?_⟩
  have hsent := of_decide_eq_true hp
  have howned := honly.owned (.term, ⟨42, "90:0"⟩) (hsent ▸ List.mem_singleton_self _)
  exact absurd howned.2 (by decide)

end Termination

end Platform

end Supervisor
