import Supervisor.Transducer
import Supervisor.WatchScan

namespace Supervisor

inductive EventKind where
  | any | access | create | modify | remove | other
deriving DecidableEq

structure NotifyEvent where
  kind : EventKind
  paths : List Components
deriving DecidableEq

inductive WatchRescanReason where
  | backendOverflow | backendRestart | channelOverflow
deriving DecidableEq

structure WatchObservation where
  changedPaths : List Components := []
  rescanReason : Option WatchRescanReason := none
deriving DecidableEq

/-- A registration, and the read of it that is under way -/
structure WatchEntry where
  channel : List (Except String NotifyEvent) := []
  channelOverflow : Bool := false
  policy : WatchPolicy
  pendingPaths : List Components := []
  pendingSince : Option ℕ := none
  snapshot : Snapshot
  reading : Option (Option WatchRescanReason) := none
  clock : ℕ := 0

/-- One `try_recv` that has an event: what the paths are, and the time -/
structure WatchReceive where
  isSymlink : Components → Bool
  now : ℕ

/-- What happens to a registration. A read begins, takes the events one by one, and finishes on an
empty channel; the backend delivers at any time. -/
inductive WatchAct where
  | deliver (event : Except String NotifyEvent)
  | begin
  | receive (r : WatchReceive)
  | finish (seen : Components → Seen) (now : ℕ)

namespace WatchEntry

/-- `register_watch` -/
def register (policy : WatchPolicy) (supervisorLogRoot : String) (seen : Components → Seen) :
    Except RescanError WatchEntry :=
  let normalized := { policy with exclusions := policy.exclusions ++ [supervisorLogRoot] }
  (snapshotRoots normalized seen).map fun snapshot => { policy := normalized, snapshot }

/-- `should_include_path` -/
def shouldIncludePath (policy : WatchPolicy) (isSymlink : Components → Bool) (path : Components) :
    Bool :=
  isWatched policy path && !isSymlink path

/-- The loop over the paths of one event: the pending paths, and whether there were too many -/
def insertPaths (pending : List Components) : List Components → List Components × Bool
  | [] => (pending, false)
  | path :: paths =>
    if watchBatchPathLimit ≤ pending.length then (pending, true)
    else insertPaths (pending.insert path) paths

/-- The body of the loop of `read_watch` -/
def take (s : WatchEntry) (reason : Option WatchRescanReason) (r : WatchReceive) :
    Except String NotifyEvent → WatchEntry
  | .error _ => { s with reading := some (some .backendRestart) }
  | .ok event =>
    match event.kind with
    | .access => s
    | .other => { s with reading := some (some .backendOverflow) }
    | _ =>
      let inserted := insertPaths s.pendingPaths
        (event.paths.filter (shouldIncludePath s.policy r.isSymlink))
      { s with
        pendingPaths := inserted.1
        pendingSince := some (s.pendingSince.getD r.now)
        reading := some (if inserted.2 then some .channelOverflow else reason) }

/-- `read_watch` after its loop -/
def conclude (s : WatchEntry) (reason : Option WatchRescanReason) (seen : Components → Seen)
    (now : ℕ) : WatchEntry × Except String WatchObservation :=
  match reason with
  | some reason =>
    match snapshotRoots s.policy seen with
    | .error error => (s, .error error.message)
    | .ok fresh =>
      ({ s with snapshot := fresh, pendingPaths := [], pendingSince := none },
        .ok { changedPaths := snapshotDiff s.snapshot fresh, rescanReason := some reason })
  | none =>
    if s.pendingSince.any fun since => now - since < s.policy.debounce then (s, .ok {})
    else
      ({ s with pendingPaths := [], pendingSince := none },
        .ok { changedPaths := OrderedPage.ordered pathRank s.pendingPaths })

def step (s : WatchEntry) : WatchAct → Option (WatchEntry × List (Except String WatchObservation))
  | .deliver event =>
    if s.channel.length < watchChannelCapacity then
      some ({ s with channel := s.channel ++ [event] }, [])
    else some ({ s with channelOverflow := true }, [])
  | .begin =>
    match s.reading with
    | some _ => none
    | none =>
      let reason := if s.channelOverflow then some WatchRescanReason.channelOverflow else none
      some ({ s with channelOverflow := false, reading := some reason }, [])
  | .receive r =>
    match s.reading, s.channel with
    | some reason, event :: channel =>
      if s.clock ≤ r.now then
        some ({ s with channel, clock := r.now }.take reason r event, [])
      else none
    | _, _ => none
  | .finish seen now =>
    match s.reading, s.channel with
    | some reason, [] =>
      if s.clock ≤ now then
        let concluded := { s with clock := now, reading := none }.conclude reason seen now
        some (concluded.1, [concluded.2])
      else none
    | _, _ => none

variable {s t : WatchEntry} {act : WatchAct} {acts : List WatchAct}
  {answers : List (Except String WatchObservation)} {event : NotifyEvent} {path : Components}
  {taken : Option WatchReceive}

/-- The registration over time -/
def system : Transducer WatchEntry WatchAct (Except String WatchObservation) := ⟨step⟩

theorem system_step : system.step s act = s.step act := rfl

/-- The reads of events among some acts -/
def receives (acts : List WatchAct) : List WatchReceive :=
  acts.filterMap fun act => match act with
    | .receive r => some r
    | _ => none

theorem insertPaths_subset {pending paths : List Components} :
    ∀ p ∈ (insertPaths pending paths).1, p ∈ pending ∨ p ∈ paths := by
  induction paths generalizing pending with
  | nil => exact fun p hp => Or.inl hp
  | cons path paths ih =>
    intro p hp
    unfold insertPaths at hp
    split at hp
    · exact Or.inl hp
    · rcases ih p hp with hp | hp
      · rcases List.mem_insert_iff.mp hp with rfl | hp
        · exact Or.inr List.mem_cons_self
        · exact Or.inl hp
      · exact Or.inr (List.mem_cons_of_mem path hp)

theorem mem_insertPaths_of_mem {pending paths : List Components} (h : path ∈ pending) :
    path ∈ (insertPaths pending paths).1 := by
  induction paths generalizing pending with
  | nil => exact h
  | cons first paths ih =>
    unfold insertPaths
    split
    · exact h
    · exact ih (List.mem_insert_of_mem h)

theorem mem_insertPaths {pending paths : List Components} (h : path ∈ paths) :
    path ∈ (insertPaths pending paths).1 ∨ (insertPaths pending paths).2 = true := by
  induction paths generalizing pending with
  | nil => exact absurd h List.not_mem_nil
  | cons first paths ih =>
    unfold insertPaths
    split
    · exact Or.inr rfl
    · rcases List.mem_cons.mp h with rfl | h
      · exact Or.inl (mem_insertPaths_of_mem List.mem_insert_self)
      · exact ih h

/-- What holds of a registration at all times -/
structure Sound (policy : WatchPolicy) (s : WatchEntry) : Prop where
  policy_eq : s.policy = policy
  pending : ∀ p ∈ s.pendingPaths, isWatched policy p = true
  snapshot : s.snapshot.Clean policy
  since : ∀ since ∈ s.pendingSince, since ≤ s.clock

/-- An observation of watched paths only -/
def IsClean (policy : WatchPolicy) (answer : Except String WatchObservation) : Prop :=
  ∀ o, answer = .ok o → ∀ p ∈ o.changedPaths, isWatched policy p = true

theorem register_sound {policy : WatchPolicy} {supervisorLogRoot : String} {seen : Components → Seen}
    (h : register policy supervisorLogRoot seen = .ok s) : Sound s.policy s := by
  unfold register at h
  dsimp only at h
  cases hscan : snapshotRoots
      { policy with exclusions := policy.exclusions ++ [supervisorLogRoot] } seen with
  | error error =>
    rw [hscan] at h
    cases h
  | ok snapshot =>
    rw [hscan] at h
    cases h
    exact ⟨rfl, fun p hp => absurd hp List.not_mem_nil, snapshotRoots_clean hscan,
      fun since hsince => by cases hsince⟩

section Steps

variable {policy : WatchPolicy} {reason : Option WatchRescanReason} {r : WatchReceive}
  {seen : Components → Seen} {now : ℕ}

theorem Sound.take (h : Sound policy s) (hclock : s.clock = r.now)
    (event : Except String NotifyEvent) : Sound policy (s.take reason r event) := by
  cases event with
  | error error => exact ⟨h.policy_eq, h.pending, h.snapshot, h.since⟩
  | ok event =>
    have hinserted : ∀ p ∈ (insertPaths s.pendingPaths
        (event.paths.filter (shouldIncludePath s.policy r.isSymlink))).1,
        isWatched policy p = true := by
      intro p hp
      rcases insertPaths_subset p hp with hp | hp
      · exact h.pending p hp
      · have hincluded := (List.mem_filter.mp hp).2
        unfold shouldIncludePath at hincluded
        rw [Bool.and_eq_true, h.policy_eq] at hincluded
        exact hincluded.1
    have hsince : ∀ since ∈ some (s.pendingSince.getD r.now), since ≤ s.clock := by
      intro since hsince
      obtain rfl := Option.some.inj hsince
      cases hs : s.pendingSince with
      | none => exact hclock ▸ Nat.le_refl _
      | some since => exact h.since since hs
    unfold WatchEntry.take
    dsimp only
    split
    · exact h
    · exact ⟨h.policy_eq, h.pending, h.snapshot, h.since⟩
    · exact ⟨h.policy_eq, hinserted, h.snapshot, hsince⟩

theorem Sound.conclude (h : Sound policy s) :
    Sound policy (s.conclude reason seen now).1 ∧ IsClean policy (s.conclude reason seen now).2 := by
  unfold WatchEntry.conclude
  cases reason with
  | some reason =>
    cases hscan : snapshotRoots s.policy seen with
    | error error =>
      refine ⟨h, fun o ho => ?_⟩
      cases ho
    | ok fresh =>
      have hfresh : fresh.Clean policy := h.policy_eq ▸ snapshotRoots_clean hscan
      refine ⟨⟨h.policy_eq, fun p hp => absurd hp List.not_mem_nil, hfresh,
        fun since hsince => by cases hsince⟩, fun o ho => ?_⟩
      cases ho
      exact snapshotDiff_clean h.snapshot hfresh
  | none =>
    dsimp only
    split
    · refine ⟨h, fun o ho => ?_⟩
      cases ho
      exact fun p hp => absurd hp List.not_mem_nil
    · refine ⟨⟨h.policy_eq, fun p hp => absurd hp List.not_mem_nil, h.snapshot,
        fun since hsince => by cases hsince⟩, fun o ho => ?_⟩
      cases ho
      exact fun p hp => h.pending p (OrderedPage.mem_ordered.mp hp)

theorem Sound.tick (h : Sound policy s) (hclock : s.clock ≤ now)
    (channel : List (Except String NotifyEvent)) (reading : Option (Option WatchRescanReason)) :
    Sound policy { s with channel, reading, clock := now } :=
  ⟨h.policy_eq, h.pending, h.snapshot, fun since hsince => (h.since since hsince).trans hclock⟩

theorem Sound.step (h : Sound policy s) (hstep : s.step act = some (t, answers)) :
    Sound policy t ∧ ∀ answer ∈ answers, IsClean policy answer := by
  have hsilent : ∀ answer ∈ ([] : List (Except String WatchObservation)), IsClean policy answer :=
    fun answer hanswer => absurd hanswer List.not_mem_nil
  unfold WatchEntry.step at hstep
  cases act with
  | deliver event =>
    dsimp only at hstep
    split at hstep
    · cases hstep
      exact ⟨⟨h.policy_eq, h.pending, h.snapshot, h.since⟩, hsilent⟩
    · cases hstep
      exact ⟨⟨h.policy_eq, h.pending, h.snapshot, h.since⟩, hsilent⟩
  | begin =>
    dsimp only at hstep
    split at hstep
    · cases hstep
    · cases hstep
      exact ⟨⟨h.policy_eq, h.pending, h.snapshot, h.since⟩, hsilent⟩
  | receive r =>
    dsimp only at hstep
    split at hstep
    · split at hstep
      · rename_i hclock
        cases hstep
        exact ⟨(h.tick hclock _ s.reading).take rfl _, hsilent⟩
      · cases hstep
    · cases hstep
  | finish seen now =>
    dsimp only at hstep
    split at hstep
    · split at hstep
      · rename_i hclock
        cases hstep
        have hconcluded := @WatchEntry.Sound.conclude _ _ (‹Option WatchRescanReason›) seen now
          (h.tick hclock s.channel none)
        refine ⟨hconcluded.1, fun answer hanswer => ?_⟩
        rw [List.mem_singleton.mp hanswer]
        exact hconcluded.2
      · cases hstep
    · cases hstep

end Steps

/-- A path that some answer lists, or covers by a rescan -/
def Covers (path : Components) (answers : List (Except String WatchObservation)) : Prop :=
  ∃ o, .ok o ∈ answers ∧ (path ∈ o.changedPaths ∨ o.rescanReason.isSome = true)

def AllSucceed (answers : List (Except String WatchObservation)) : Prop :=
  ∀ error, .error error ∉ answers

/-- Where an event is that no answer covers yet, with the acts to come: in the channel, where
`taken` will take it, behind a demand for a rescan, or among the pending paths since a time not
after it was taken. -/
inductive Kept (event : NotifyEvent) (path : Components) (taken : Option WatchReceive)
    (s : WatchEntry) (acts : List WatchAct) : Prop
  | queued (k : ℕ) (hqueued : s.channel[k]? = some (.ok event)) (htaken : (receives acts)[k]? = taken)
  | demanded (reason : WatchRescanReason) (hreading : s.reading = some (some reason))
  | pending (since : ℕ) (hpending : path ∈ s.pendingPaths) (hsince : s.pendingSince = some since)
      (hbefore : ∀ r ∈ taken, since ≤ r.now)

section Kept

variable {policy : WatchPolicy} {reason : Option WatchRescanReason} {r : WatchReceive}
  {seen : Components → Seen} {now : ℕ}

/-- The event itself is taken. -/
theorem kept_take (hmem : path ∈ event.paths) (hkind : event.kind ≠ .access)
    (hwatched : isWatched s.policy path = true) (hlink : r.isSymlink path = false)
    (hsince : ∀ since ∈ s.pendingSince, since ≤ r.now) :
    Kept event path (some r) (s.take reason r (.ok event)) acts := by
  unfold WatchEntry.take
  dsimp only
  split
  · rename_i haccess
    exact absurd haccess hkind
  · exact .demanded .backendOverflow rfl
  · have hincluded : path ∈ event.paths.filter (shouldIncludePath s.policy r.isSymlink) := by
      apply List.mem_filter.mpr
      refine ⟨hmem, ?_⟩
      unfold shouldIncludePath
      rw [hwatched, hlink]
      rfl
    rcases @mem_insertPaths _ s.pendingPaths _ hincluded with hinserted | hmany
    · refine .pending (s.pendingSince.getD r.now) hinserted rfl ?_
      intro r' hr'
      obtain rfl := Option.some.inj hr'
      cases hs : s.pendingSince with
      | none => exact Nat.le_refl _
      | some since => exact hsince since hs
    · refine .demanded .channelOverflow ?_
      dsimp only
      rw [hmany]
      rfl

theorem take_channel (event : Except String NotifyEvent) :
    (s.take reason r event).channel = s.channel := by
  unfold WatchEntry.take
  split
  · rfl
  · split
    · rfl
    · rfl
    · rfl

/-- A demand stays until the read concludes. -/
theorem take_demanded {first : WatchRescanReason} (event : Except String NotifyEvent)
    (hreading : s.reading = some (some first)) :
    ∃ reason, (s.take (some first) r event).reading = some (some reason) := by
  unfold WatchEntry.take
  split
  · exact ⟨.backendRestart, rfl⟩
  · split
    · exact ⟨first, hreading⟩
    · exact ⟨.backendOverflow, rfl⟩
    · dsimp only
      split
      · exact ⟨.channelOverflow, rfl⟩
      · exact ⟨first, rfl⟩

theorem take_pending {since : ℕ} (event : Except String NotifyEvent) (hpending : path ∈ s.pendingPaths)
    (hsince : s.pendingSince = some since) : path ∈ (s.take reason r event).pendingPaths ∧
      (s.take reason r event).pendingSince = some since := by
  unfold WatchEntry.take
  split
  · exact ⟨hpending, hsince⟩
  · split
    · exact ⟨hpending, hsince⟩
    · exact ⟨hpending, hsince⟩
    · refine ⟨mem_insertPaths_of_mem hpending, ?_⟩
      dsimp only
      rw [hsince, Option.getD_some]

/-- What a read answers when it concludes -/
theorem conclude_kept (hreading : (∃ first, reason = some first) ∨ path ∈ s.pendingPaths)
    (hsucceeds : ∀ error, (s.conclude reason seen now).2 ≠ .error error) :
    Covers path [(s.conclude reason seen now).2] ∨
      reason = none ∧ (s.conclude reason seen now).1 = s ∧
        ∃ since, s.pendingSince = some since ∧ now - since < s.policy.debounce := by
  cases reason with
  | some first =>
    left
    cases hscan : snapshotRoots s.policy seen with
    | error error =>
      refine absurd ?_ (hsucceeds error.message)
      unfold WatchEntry.conclude
      dsimp only
      rw [hscan]
    | ok fresh =>
      refine ⟨{ changedPaths := snapshotDiff s.snapshot fresh, rescanReason := some first }, ?_,
        Or.inr rfl⟩
      unfold WatchEntry.conclude
      dsimp only
      rw [hscan]
      exact List.mem_singleton_self _
  | none =>
    have hpending : path ∈ s.pendingPaths := by
      rcases hreading with ⟨first, hfirst⟩ | hpending
      · cases hfirst
      · exact hpending
    unfold WatchEntry.conclude
    dsimp only
    cases hopen : s.pendingSince.any fun since => now - since < s.policy.debounce with
    | true =>
      right
      cases hsince : s.pendingSince with
      | none =>
        rw [hsince] at hopen
        cases hopen
      | some since =>
        rw [hsince] at hopen
        refine ⟨rfl, ?_, since, rfl, of_decide_eq_true hopen⟩
        rw [if_pos rfl]
    | false =>
      left
      refine ⟨{ changedPaths := OrderedPage.ordered pathRank s.pendingPaths }, ?_,
        Or.inl (OrderedPage.mem_ordered.mpr hpending)⟩
      rw [if_neg Bool.false_ne_true]
      exact List.mem_singleton_self _

theorem Kept.step (hmem : path ∈ event.paths) (hkind : event.kind ≠ .access)
    (hwatched : isWatched policy path = true) (hlink : ∀ r ∈ taken, r.isSymlink path = false)
    (hsound : Sound policy s) (h : Kept event path taken s (act :: acts))
    (hstep : s.step act = some (t, answers)) (hsucceeds : AllSucceed answers) :
    Covers path answers ∨ Kept event path taken t acts := by
  unfold WatchEntry.step at hstep
  cases act with
  | deliver delivered =>
    right
    have hreceives : receives (.deliver delivered :: acts) = receives acts := rfl
    dsimp only at hstep
    split at hstep
    · cases hstep
      cases h with
      | queued k hqueued htaken =>
        refine .queued k ?_ (hreceives ▸ htaken)
        exact List.getElem?_append_left (List.getElem?_eq_some_iff.mp hqueued).1 |>.trans hqueued
      | demanded reason hreading => exact .demanded reason hreading
      | pending since hpending hsince hbefore => exact .pending since hpending hsince hbefore
    · cases hstep
      cases h with
      | queued k hqueued htaken => exact .queued k hqueued (hreceives ▸ htaken)
      | demanded reason hreading => exact .demanded reason hreading
      | pending since hpending hsince hbefore => exact .pending since hpending hsince hbefore
  | begin =>
    right
    have hreceives : receives (.begin :: acts) = receives acts := rfl
    dsimp only at hstep
    split at hstep
    · cases hstep
    · rename_i hidle
      cases hstep
      cases h with
      | queued k hqueued htaken => exact .queued k hqueued (hreceives ▸ htaken)
      | demanded reason hreading =>
        rw [hidle] at hreading
        cases hreading
      | pending since hpending hsince hbefore => exact .pending since hpending hsince hbefore
  | receive r =>
    right
    have hreceives : receives (.receive r :: acts) = r :: receives acts := rfl
    dsimp only at hstep
    split at hstep
    · rename_i reason first channel hreading hchannel
      split at hstep
      · rename_i hclock
        cases hstep
        cases h with
        | queued k hqueued htaken =>
          rw [hchannel] at hqueued
          rw [hreceives] at htaken
          cases k with
          | zero =>
            -- the read takes the event
            obtain rfl := Option.some.inj hqueued
            obtain rfl := htaken
            apply kept_take hmem hkind
            · rw [← hsound.policy_eq] at hwatched
              exact hwatched
            · exact hlink r rfl
            · exact fun since hsince => (hsound.since since hsince).trans hclock
          | succ k =>
            refine .queued k ?_ htaken
            rw [take_channel]
            exact hqueued
        | demanded demand hdemand =>
          obtain rfl := Option.some.inj (hreading.symm.trans hdemand)
          obtain ⟨later, hlater⟩ := take_demanded (s := { s with channel, clock := r.now }) (r := r)
            first hreading
          exact .demanded later hlater
        | pending since hpending hsince hbefore =>
          obtain ⟨hpending', hsince'⟩ := @take_pending ({ s with channel, clock := r.now }) _
            reason r _ first hpending hsince
          exact .pending since hpending' hsince' hbefore
      · cases hstep
    · cases hstep
  | finish seen now =>
    have hreceives : receives (.finish seen now :: acts) = receives acts := rfl
    dsimp only at hstep
    split at hstep
    · rename_i reason hreading hchannel
      split at hstep
      · cases hstep
        have hanswer : ∀ error, ({ s with clock := now, reading := none }.conclude reason seen
            now).2 ≠ .error error :=
          fun error herror => hsucceeds error (herror ▸ List.mem_singleton_self _)
        cases h with
        | queued k hqueued htaken =>
          rw [hchannel] at hqueued
          cases hqueued
        | demanded demand hdemand =>
          obtain rfl := Option.some.inj (hreading.symm.trans hdemand)
          rcases conclude_kept (Or.inl ⟨demand, rfl⟩) hanswer with hcovers | ⟨hnone, _⟩
          · exact Or.inl hcovers
          · cases hnone
        | pending since hpending hsince hbefore =>
          have hpending' : path ∈ ({ s with clock := now, reading := none } : WatchEntry).pendingPaths :=
            hpending
          rcases conclude_kept (Or.inr hpending') hanswer with hcovers | ⟨_, hsame, _⟩
          · exact Or.inl hcovers
          · right
            rw [hsame]
            exact .pending since hpending hsince hbefore
      · cases hstep
    · cases hstep

theorem take_overflow (event : Except String NotifyEvent) :
    (s.take reason r event).channelOverflow = s.channelOverflow := by
  unfold WatchEntry.take
  split
  · rfl
  · split
    · rfl
    · rfl
    · rfl

theorem conclude_overflow :
    (s.conclude reason seen now).1.channelOverflow = s.channelOverflow := by
  unfold WatchEntry.conclude
  split
  · split
    · rfl
    · rfl
  · split
    · rfl
    · rfl

/-- The flag of an overflow stays until a read begins, and then demands a rescan. -/
theorem step_overflow (h : s.channelOverflow = true) (hstep : s.step act = some (t, answers)) :
    (act ≠ .begin ∧ t.channelOverflow = true) ∨ ∃ reason, t.reading = some (some reason) := by
  unfold WatchEntry.step at hstep
  cases act with
  | deliver event =>
    left
    refine ⟨WatchAct.noConfusion, ?_⟩
    dsimp only at hstep
    split at hstep
    · cases hstep
      exact h
    · cases hstep
      rfl
  | begin =>
    right
    dsimp only at hstep
    split at hstep
    · cases hstep
    · cases hstep
      refine ⟨.channelOverflow, ?_⟩
      dsimp only
      rw [h, if_pos rfl]
  | receive r =>
    left
    refine ⟨WatchAct.noConfusion, ?_⟩
    dsimp only at hstep
    split at hstep
    · split at hstep
      · cases hstep
        rw [take_overflow]
        exact h
      · cases hstep
    · cases hstep
  | finish seen now =>
    left
    refine ⟨WatchAct.noConfusion, ?_⟩
    dsimp only at hstep
    split at hstep
    · split at hstep
      · cases hstep
        rw [conclude_overflow]
        exact h
      · cases hstep
    · cases hstep

/-- An event that no answer covers yet: it is kept, or the flag of the overflow that has dropped
it is set. -/
def Outstanding (event : NotifyEvent) (path : Components) (taken : Option WatchReceive)
    (s : WatchEntry) (acts : List WatchAct) : Prop :=
  s.channelOverflow = true ∨ Kept event path taken s acts

/-- The read that takes the event that is delivered next, unless the channel overflows -/
def takenBy (s : WatchEntry) (acts : List WatchAct) : Option WatchReceive :=
  if s.channel.length < watchChannelCapacity then (receives acts)[s.channel.length]? else none

theorem deliver_outstanding (hstep : s.step (.deliver (.ok event)) = some (t, answers)) :
    Outstanding event path (s.takenBy acts) t acts := by
  unfold WatchEntry.step at hstep
  unfold takenBy
  dsimp only at hstep
  split at hstep
  · rename_i hroom
    cases hstep
    rw [if_pos hroom]
    refine Or.inr (.queued s.channel.length ?_ rfl)
    exact List.getElem?_concat_length
  · cases hstep
    exact Or.inl rfl

theorem Covers.left {first rest : List (Except String WatchObservation)} (h : Covers path first) :
    Covers path (first ++ rest) := by
  obtain ⟨o, ho, hcovers⟩ := h
  exact ⟨o, List.mem_append_left rest ho, hcovers⟩

theorem Covers.right {first rest : List (Except String WatchObservation)} (h : Covers path rest) :
    Covers path (first ++ rest) := by
  obtain ⟨o, ho, hcovers⟩ := h
  exact ⟨o, List.mem_append_right first ho, hcovers⟩

theorem AllSucceed.append {first rest : List (Except String WatchObservation)}
    (h : AllSucceed (first ++ rest)) : AllSucceed first ∧ AllSucceed rest :=
  ⟨fun error herror => h error (List.mem_append_left rest herror),
    fun error herror => h error (List.mem_append_right first herror)⟩

/-- A state of the waiting event that every step keeps is kept by a run. -/
theorem run_kept {P : WatchEntry → List WatchAct → Prop} {more : List WatchAct}
    (hstep : ∀ s act acts t answers, Sound policy s → P s (act :: acts) →
      s.step act = some (t, answers) → AllSucceed answers → Covers path answers ∨ P t acts)
    (hsound : Sound policy s) (h : P s (acts ++ more))
    (hrun : system.run s acts = some (t, answers)) (hsucceeds : AllSucceed answers) :
    Covers path answers ∨ P t more := by
  induction acts generalizing s answers with
  | nil =>
    obtain ⟨rfl, rfl⟩ := Prod.mk.inj (Option.some.inj hrun)
    exact Or.inr h
  | cons act acts ih =>
    obtain ⟨u, first, rest, hfirst, hrest, rfl⟩ := Transducer.run_cons hrun
    obtain ⟨hfirstSucceeds, hrestSucceeds⟩ := hsucceeds.append
    rcases hstep s act (acts ++ more) u first hsound h hfirst hfirstSucceeds with hcovers | hkept
    · exact Or.inl hcovers.left
    · rcases ih (hsound.step hfirst).1 hkept hrest hrestSucceeds with hcovers | hkept
      · exact Or.inl hcovers.right
      · exact Or.inr hkept

theorem Outstanding.step (hmem : path ∈ event.paths) (hkind : event.kind ≠ .access)
    (hwatched : isWatched policy path = true) (hlink : ∀ r ∈ taken, r.isSymlink path = false)
    (hsound : Sound policy s) (h : Outstanding event path taken s (act :: acts))
    (hstep : s.step act = some (t, answers)) (hsucceeds : AllSucceed answers) :
    Covers path answers ∨ Outstanding event path taken t acts := by
  rcases h with hflag | hkept
  · right
    rcases step_overflow hflag hstep with ⟨_, hflag⟩ | ⟨reason, hreading⟩
    · exact Or.inl hflag
    · exact Or.inr (.demanded reason hreading)
  · rcases hkept.step hmem hkind hwatched hlink hsound hstep hsucceeds with hcovers | hkept
    · exact Or.inl hcovers
    · exact Or.inr (Or.inr hkept)

theorem Outstanding.begin (hmem : path ∈ event.paths) (hkind : event.kind ≠ .access)
    (hwatched : isWatched policy path = true) (hlink : ∀ r ∈ taken, r.isSymlink path = false)
    (hsound : Sound policy s) (h : Outstanding event path taken s (.begin :: acts))
    (hstep : s.step .begin = some (t, answers)) (hsucceeds : AllSucceed answers) :
    Covers path answers ∨ Kept event path taken t acts := by
  rcases h with hflag | hkept
  · right
    rcases step_overflow hflag hstep with ⟨hbegin, _⟩ | ⟨reason, hreading⟩
    · exact absurd rfl hbegin
    · exact .demanded reason hreading
  · exact hkept.step hmem hkind hwatched hlink hsound hstep hsucceeds

/-- When a read finishes, what it leaves is pending, and the window is still open. -/
theorem Kept.finish (hsound : Sound policy s) (h : Kept event path taken s [.finish seen now])
    (hstep : s.step (.finish seen now) = some (t, answers)) (hsucceeds : AllSucceed answers) :
    Covers path answers ∨ path ∈ t.pendingPaths ∧ ∃ since, t.pendingSince = some since ∧
      now < since + policy.debounce ∧ ∀ r ∈ taken, since ≤ r.now := by
  unfold WatchEntry.step at hstep
  dsimp only at hstep
  split at hstep
  · rename_i reason hreading hchannel
    split at hstep
    · rename_i hclock
      cases hstep
      have hanswer : ∀ error, ({ s with clock := now, reading := none }.conclude reason seen
          now).2 ≠ .error error :=
        fun error herror => hsucceeds error (herror ▸ List.mem_singleton_self _)
      cases h with
      | queued k hqueued htaken =>
        rw [hchannel] at hqueued
        cases hqueued
      | demanded demand hdemand =>
        obtain rfl := Option.some.inj (hreading.symm.trans hdemand)
        rcases conclude_kept (Or.inl ⟨demand, rfl⟩) hanswer with hcovers | ⟨hnone, _⟩
        · exact Or.inl hcovers
        · cases hnone
      | pending since hpending hsince hbefore =>
        have hpending' : path ∈ ({ s with clock := now, reading := none } : WatchEntry).pendingPaths :=
          hpending
        rcases conclude_kept (Or.inr hpending') hanswer with
          hcovers | ⟨_, hsame, since', hsince', hopen⟩
        · exact Or.inl hcovers
        · right
          rw [hsame]
          obtain rfl := Option.some.inj (hsince.symm.trans hsince')
          refine ⟨hpending, since, hsince, ?_, hbefore⟩
          have hle := (hsound.since since hsince).trans hclock
          change now - since < s.policy.debounce at hopen
          rw [hsound.policy_eq] at hopen
          omega
    · cases hstep
  · cases hstep

end Kept

theorem run_sound {policy : WatchPolicy} (hsound : Sound policy s)
    (hrun : system.run s acts = some (t, answers)) :
    Sound policy t ∧ ∀ answer ∈ answers, IsClean policy answer :=
  Transducer.run_invariant (fun _ _ _ _ h hstep => h.step hstep) hrun hsound

/-- A delivered event is covered when a read that has begun after it finishes, or it is pending and
the window that started with the oldest pending event is open. -/
theorem run_covers {policy : WatchPolicy} (hsound : Sound policy s) (hmem : path ∈ event.paths)
    (hkind : event.kind ≠ .access) (hwatched : isWatched policy path = true)
    {waiting : List WatchAct} {seen : Components → Seen} {now : ℕ}
    (hlink : ∀ r ∈ s.takenBy (waiting ++ .begin :: (acts ++ [.finish seen now])),
      r.isSymlink path = false)
    (hrun : system.run s (.deliver (.ok event) :: (waiting ++ .begin :: (acts ++ [.finish seen now])))
      = some (t, answers)) (hsucceeds : AllSucceed answers) :
    Covers path answers ∨ path ∈ t.pendingPaths ∧ ∃ since, t.pendingSince = some since ∧
      now < since + policy.debounce ∧
        ∀ r ∈ s.takenBy (waiting ++ .begin :: (acts ++ [.finish seen now])), since ≤ r.now := by
  obtain ⟨u₁, answers₁, rest₁, hdeliver, hrest₁, rfl⟩ := Transducer.run_cons hrun
  obtain ⟨u₂, answers₂, rest₂, hwaiting, hrest₂, rfl⟩ := Transducer.run_append hrest₁
  obtain ⟨u₃, answers₃, rest₃, hbegin, hrest₃, rfl⟩ := Transducer.run_cons hrest₂
  obtain ⟨u₄, answers₄, rest₄, hacts, hrest₄, rfl⟩ := Transducer.run_append hrest₃
  obtain ⟨u₅, answers₅, rest₅, hfinish, hnil, rfl⟩ := Transducer.run_cons hrest₄
  obtain ⟨rfl, rfl⟩ := Prod.mk.inj (Option.some.inj hnil)
  rw [system_step] at hdeliver hbegin hfinish
  obtain ⟨_, hsucceeds⟩ := hsucceeds.append
  obtain ⟨hsucceeds₂, hsucceeds⟩ := hsucceeds.append
  obtain ⟨hsucceeds₃, hsucceeds⟩ := hsucceeds.append
  obtain ⟨hsucceeds₄, hsucceeds⟩ := hsucceeds.append
  obtain ⟨hsucceeds₅, _⟩ := hsucceeds.append
  have hsound₁ := (hsound.step hdeliver).1
  have hsound₂ := (run_sound hsound₁ hwaiting).1
  have hsound₃ := (hsound₂.step hbegin).1
  have hsound₄ := (run_sound hsound₃ hacts).1
  have hdelivered := @deliver_outstanding _ _ (waiting ++ .begin :: (acts ++ [.finish seen now]))
    _ _ path hdeliver
  rcases run_kept (fun _ _ _ _ _ hs h => h.step hmem hkind hwatched hlink hs) hsound₁ hdelivered
    hwaiting hsucceeds₂ with hcovers | houtstanding
  · exact Or.inl hcovers.left.right
  rcases houtstanding.begin hmem hkind hwatched hlink hsound₂ hbegin hsucceeds₃ with
    hcovers | hkept
  · exact Or.inl hcovers.left.right.right
  rcases run_kept (fun _ _ _ _ _ hs h => h.step hmem hkind hwatched hlink hs) hsound₃ hkept hacts
    hsucceeds₄ with hcovers | hkept
  · exact Or.inl hcovers.left.right.right.right
  rcases hkept.finish hsound₄ hfinish hsucceeds₅ with hcovers | hpending
  · exact Or.inl hcovers.left.right.right.right.right
  · exact Or.inr hpending

/-- Observations of a registration. The paths they list are watched. An event that is not an
access, for a watched path that is no symlink when a read takes the event, is covered as soon as a
read that has begun after the delivery finishes with the debounce window over, while no rescan
fails. -/
theorem watch_observations {policy : WatchPolicy} {supervisorLogRoot : String}
    {scan : Components → Seen} {registered : WatchEntry} {before : List WatchAct}
    (hregister : register policy supervisorLogRoot scan = .ok registered)
    (hbefore : system.run registered before = some (s, answers)) :
    (∀ answer ∈ answers, IsClean registered.policy answer) ∧
    ∀ event path, path ∈ event.paths → event.kind ≠ .access →
      isWatched registered.policy path = true →
      ∀ waiting acts seen now t later,
        system.run s (.deliver (.ok event) :: (waiting ++ .begin :: (acts ++ [.finish seen now]))) =
          some (t, later) → AllSucceed later →
        (∀ r ∈ s.takenBy (waiting ++ .begin :: (acts ++ [.finish seen now])),
          r.isSymlink path = false) →
        Covers path later ∨ path ∈ t.pendingPaths ∧ ∃ since, t.pendingSince = some since ∧
          now < since + registered.policy.debounce ∧
            ∀ r ∈ s.takenBy (waiting ++ .begin :: (acts ++ [.finish seen now])), since ≤ r.now := by
  obtain ⟨hsound, hclean⟩ := run_sound (register_sound hregister) hbefore
  refine ⟨hclean, ?_⟩
  intro event path hmem hkind hwatched waiting acts seen now t later hrun hsucceeds hlink
  exact run_covers hsound hmem hkind hwatched hlink hrun hsucceeds

def samplePolicy : WatchPolicy where
  roots := ["/srv/app"]
  recursive := true
  exclusions := []
  followSymlinks := false
  debounce := Duration.fromSecs 1

def sampleEntry : WatchEntry where
  policy := { samplePolicy with exclusions := ["/var/log"] }
  snapshot := ∅

def sampleEvent : NotifyEvent := ⟨.create, [["/", "srv", "app", "current"]]⟩

theorem sampleEntry_registered :
    register samplePolicy "/var/log" (fun _ => .notFound) = .ok sampleEntry := rfl

/-- The event of a symlink is not covered after the window. -/
theorem symlink_uncovered :
    isWatched sampleEntry.policy ["/", "srv", "app", "current"] = true ∧
    (system.run sampleEntry [.deliver (.ok sampleEvent), .begin, .receive ⟨fun _ => true, 0⟩,
      .finish (fun _ => .notFound) (Duration.fromSecs 2)]).map
        (fun (t, answers) => (t.pendingPaths, answers)) = some ([], [.ok {}]) ∧
    -- nor does a read try the rescan again that has failed before
    (system.run sampleEntry [.deliver (.error "restarted"), .begin, .receive ⟨fun _ => false, 0⟩,
      .finish (fun _ => .unreadable "denied") 0, .begin, .finish (fun _ => .notFound) 0]).map
        Prod.snd = some [.error "cannot inspect /srv/app: denied", .ok {}] := by
  decide +kernel

def sampleObservation : WatchObservation where
  changedPaths := [["/", "srv", "app", "current"]]

/-- The event of a file is covered. -/
theorem sampleEvent_covered :
    ∃ t, system.run sampleEntry [.deliver (.ok sampleEvent), .begin, .receive ⟨fun _ => false, 0⟩,
      .finish (fun _ => .notFound) (Duration.fromSecs 2)] = some (t, [.ok sampleObservation]) ∧
      Covers ["/", "srv", "app", "current"] [.ok sampleObservation] := by
  refine ⟨_, rfl, ?_⟩
  obtain ⟨_, hcovers⟩ := @watch_observations _ _ _ _ _ _ [] sampleEntry_registered rfl
  have hsucceeds : AllSucceed [.ok sampleObservation] := by
    intro error herror
    cases List.mem_singleton.mp herror
  rcases hcovers sampleEvent ["/", "srv", "app", "current"] (by decide) (by decide) (by decide +kernel)
    [] [.receive ⟨fun _ => false, 0⟩] (fun _ => .notFound) (Duration.fromSecs 2) _ _ rfl hsucceeds
    (fun r hr => by cases hr; rfl) with hcovers | ⟨hpending, _⟩
  · exact hcovers
  · exact absurd hpending (by decide +kernel)

end WatchEntry

end Supervisor
