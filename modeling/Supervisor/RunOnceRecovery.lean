import Supervisor.CursorGrowth
import Supervisor.MisfireRecovery
import Supervisor.RunRows

namespace Supervisor

namespace Calendar

variable {calendar : Calendar} {job job' : Job} {cursor cursor' now now' f last : Instant}

/-- Where the preview shows all the missed firings, or none of them. -/
def RunOnceFits (calendar : Calendar) (job : Job) (cursor now : Instant) : Prop :=
  (calendar.missed job cursor now).length ≤ 100 ∨ ¬Previewable calendar job cursor 100

theorem length_missed_le_iff (hjob : Timed job) :
    ((FiringSequence.visits (calendar.nextOf job) 101 cursor).filter (· ≤ now)).length ≤ 100 ↔
      (calendar.missed job cursor now).length ≤ 100 := by
  rw [FiringSequence.visits_filter_le (nextOf_ascends hjob), List.length_take, ← missed]
  omega

instance : Decidable (RunOnceFits calendar job cursor now) :=
  if hjob : Timed job then
    decidable_of_iff
      (((FiringSequence.visits (calendar.nextOf job) 101 cursor).filter (· ≤ now)).length ≤ 100 ∨
        ¬Previewable calendar job cursor 100)
      (or_congr_left (length_missed_le_iff hjob))
  else inferInstanceAs (Decidable (_ ≤ _ ∨ ¬_))

theorem misfireCandidates_runOnce (hjob : Timed job) (hpolicy : job.misfirePolicy = .runOnce) :
    calendar.misfireCandidates job cursor now =
      if Previewable calendar job cursor 100 then
        ((calendar.missed job cursor now).take 100).getLast?.toList
      else [] := by
  have hlast (l : List Instant) : l.reverse.take 1 = l.getLast?.toList := by
    rw [← List.head?_reverse]
    cases l.reverse <;> rfl
  unfold misfireCandidates
  rw [hpolicy]
  dsimp only
  rw [previewed_eq hjob, hlast]
  split <;> rfl

/-- When a recovery under `RunOnce` claims the latest missed firing, if it claims one. -/
theorem misfireCandidates_runOnce_iff (hjob : Timed job) (hpolicy : job.misfirePolicy = .runOnce) :
    (∀ f ∈ calendar.misfireCandidates job cursor now,
        (calendar.missed job cursor now).getLast? = some f) ↔
      RunOnceFits calendar job cursor now := by
  have hsorted := @missed_sorted calendar _ cursor now hjob
  rw [misfireCandidates_runOnce hjob hpolicy]
  unfold RunOnceFits
  by_cases hpreview : Previewable calendar job cursor 100
  · rw [if_pos hpreview]
    constructor
    · intro hall
      left
      by_contra hmany
      have hmany : 100 < (calendar.missed job cursor now).length := not_le.mp hmany
      have hne : (calendar.missed job cursor now).take 100 ≠ [] := by
        intro hnil
        have hlength := congrArg List.length hnil
        rw [List.length_take, List.length_nil] at hlength
        omega
      -- the last one previewed lies before the firings that the preview leaves out
      have hseen := hall (((calendar.missed job cursor now).take 100).getLast hne) (by
        rw [List.getLast?_eq_some_getLast hne]
        exact List.mem_singleton_self _)
      have hparts := List.take_append_drop 100 (calendar.missed job cursor now)
      have hdrop : (calendar.missed job cursor now).drop 100 ≠ [] := by
        intro hnil
        have hlength := congrArg List.length hnil
        rw [List.length_drop, List.length_nil] at hlength
        omega
      rw [← hparts] at hsorted
      have hlt := (List.pairwise_append.mp hsorted).2.2 _ (List.getLast_mem hne) _
        (List.getLast_mem hdrop)
      have hend : (calendar.missed job cursor now).getLast? =
          some (((calendar.missed job cursor now).drop 100).getLast hdrop) := by
        calc (calendar.missed job cursor now).getLast?
            = ((calendar.missed job cursor now).take 100 ++
                (calendar.missed job cursor now).drop 100).getLast? := by rw [hparts]
          _ = some (((calendar.missed job cursor now).drop 100).getLast hdrop) := by
            rw [List.getLast?_append, List.getLast?_eq_some_getLast hdrop]
            rfl
      rw [hend] at hseen
      exact absurd (Option.some.inj hseen) (ne_of_gt hlt)
    · rintro (hfew | hbad)
      · intro f hf
        rw [List.take_of_length_le hfew] at hf
        exact Option.mem_toList.mp hf
      · exact absurd hpreview hbad
  · rw [if_neg hpreview]
    exact ⟨fun _ => .inr hpreview, fun _ f hf => absurd hf List.not_mem_nil⟩

theorem length_misfireCandidates_runOnce (hpolicy : job.misfirePolicy = .runOnce) :
    (calendar.misfireCandidates job cursor now).length ≤ 1 := by
  unfold misfireCandidates
  rw [hpolicy]
  dsimp only
  rw [List.length_take]
  exact Nat.min_le_left _ _

theorem nextOf_congr (htrigger : job.trigger = job'.trigger) (hzone : job.timezone = job'.timezone) :
    calendar.nextOf job = calendar.nextOf job' := by
  funext after
  unfold nextOf
  rw [htrigger, hzone]

theorem lt_of_mem_missed (hjob : Timed job) (hlast : (calendar.missed job cursor now).getLast? = some last)
    (hcursor : last ≤ cursor') (hf : f ∈ calendar.missed job cursor' now') : now < f := by
  obtain ⟨⟨n, hn⟩, -⟩ := (FiringSequence.mem_upTo_iff (nextOf_ascends hjob)).mp hf
  obtain ⟨first, hfirst, hle⟩ := FiringSequence.exists_first (nextOf_ascends hjob) hn
  obtain ⟨next, hnext, hle'⟩ := nextOf_mono hjob hcursor hfirst
  have hlt : now < next := FiringSequence.lt_next_of_getLast? (nextOf_ascends hjob) hlast hnext
  calc now < next := hlt
    _ ≤ first := hle'
    _ ≤ f := hle

end Calendar

/-- The same schedule under the same identity. -/
def Job.SameSchedule (job job' : Job) : Prop :=
  job.id = job'.id ∧ job.triggerId = job'.triggerId ∧ job.scheduleRevision = job'.scheduleRevision ∧
    job.trigger = job'.trigger ∧ job.timezone = job'.timezone

/-- How far `bootstrap` has come. -/
inductive BootPhase where
  | down
  | recovering (jobs : List Job)
  | claiming (job : Job) (cursor now : Instant) (candidates : List Instant) (jobs : List Job)
  | serving

/-- The job whose cursor the recovery reads next. -/
def BootPhase.nextJob? : BootPhase → Option Job
  | .recovering (job :: _) => some job
  | _ => none

/-- A missed firing that a recovery claimed, with the cursor and the clock it went by. -/
structure RecoveredOccurrence where
  job : Job
  cursor : Instant
  now : Instant
  scheduledAt : Instant

/-- The daemon with its store, over any number of restarts. -/
structure Daemon where
  clock : Instant
  store : Store
  phase : BootPhase
  /-- History, newest first. -/
  recovered : List RecoveredOccurrence := []

inductive DaemonEvent where
  | wait (elapsed : ℕ)
  | start
  | readCursor
  | claim
  | repositoryFails
  | nextJob
  | finish
  | crash
  | admitOccurrence (job : Job) (occurrence : ScheduleOccurrence) (runId : JobRunId)
  | transaction (op : StoreOp)

/-- A definition is validated before it is saved. -/
def StoreOp.Validated : StoreOp → Prop
  | .saveJob job => Calendar.Timed job
  | _ => True

instance (op : StoreOp) : Decidable op.Validated := by
  cases op with
  | saveJob job => exact inferInstanceAs (Decidable (Calendar.Timed job))
  | _ => exact .isTrue trivial

namespace Daemon

variable (calendar : Calendar)

def step (s : Daemon) : DaemonEvent → Option Daemon
  | .wait elapsed => some { s with clock := s.clock + elapsed }
  | .start =>
    match s.phase with
    | .down => some { s with
        store := s.store.recoverScheduleOccurrences s.clock
        phase := .recovering s.store.jobs }
    | _ => none
  | .readCursor =>
    match s.phase with
    | .recovering (job :: jobs) =>
      match s.store.scheduleCursor job with
      | none => some { s with phase := .recovering jobs }
      | some cursor =>
        let candidates := calendar.misfireCandidates job cursor s.clock
        some { s with phase := .claiming job cursor s.clock candidates jobs }
    | _ => none
  | .claim =>
    match s.phase with
    | .claiming job cursor now (scheduledAt :: rest) jobs =>
      match s.store.claimScheduleOccurrence job (job.missedOccurrence scheduledAt) now with
      | .error _ => some { s with phase := .recovering jobs }
      | .ok (_, store) => some { s with
          store
          phase := .claiming job cursor now rest jobs
          recovered := { job, cursor, now, scheduledAt } :: s.recovered }
    | _ => none
  | .repositoryFails =>
    match s.phase with
    | .recovering (_ :: jobs) | .claiming _ _ _ _ jobs => some { s with phase := .recovering jobs }
    | _ => none
  | .nextJob =>
    match s.phase with
    | .claiming _ _ _ [] jobs => some { s with phase := .recovering jobs }
    | _ => none
  | .finish =>
    match s.phase with
    | .recovering [] => some { s with phase := .serving }
    | _ => none
  | .crash => some { s with phase := .down }
  | .admitOccurrence job occurrence runId =>
    let admitted := s.store.admitScheduleOccurrence job occurrence s.clock runId
    some { s with store := (admitted.map Prod.snd).toOption.getD s.store }
  | .transaction op => if op.Validated then some { s with store := s.store.apply op } else none

/-- Crashes, restarts and other transactions come in any order. -/
def machine : Machine Daemon DaemonEvent where
  step := step calendar

variable {calendar} {s t : Daemon}

/-- Each recovered firing of a `RunOnce` job is the latest one missed, and lies after the
instants of all the recoveries that have claimed a firing of its schedule before. -/
structure LatestOnce (calendar : Calendar) (s : Daemon) : Prop where
  latest : ∀ r ∈ s.recovered, r.job.misfirePolicy = .runOnce →
    (calendar.missed r.job r.cursor r.now).getLast? = some r.scheduledAt
  once : s.recovered.Pairwise fun later earlier => later.job.SameSchedule earlier.job →
    later.job.misfirePolicy = .runOnce → earlier.job.misfirePolicy = .runOnce →
      earlier.now < later.scheduledAt

/-- A recovery of a `RunOnce` job begins where the preview shows all or nothing. -/
def Fits (calendar : Calendar) (s : Daemon) : DaemonEvent → Prop
  | .readCursor => ∀ job ∈ s.phase.nextJob?, job.misfirePolicy = .runOnce →
      ∀ cursor ∈ s.store.scheduleCursor job, calendar.RunOnceFits job cursor s.clock
  | _ => True

instance (s : Daemon) (e : DaemonEvent) : Decidable (Fits calendar s e) := by
  cases e with
  | readCursor =>
    exact inferInstanceAs (Decidable (∀ job ∈ s.phase.nextJob?, job.misfirePolicy = .runOnce →
      ∀ cursor ∈ s.store.scheduleCursor job, calendar.RunOnceFits job cursor s.clock))
  | _ => exact .isTrue trivial

/-- The firings that a recovery under way is still going to claim. -/
def Pending (calendar : Calendar) (s : Daemon) : BootPhase → Prop
  | .down | .serving => True
  | .recovering jobs => ∀ job ∈ jobs, Calendar.Timed job
  | .claiming job cursor now candidates jobs =>
    Calendar.Timed job ∧ (∀ job ∈ jobs, Calendar.Timed job) ∧
      (job.misfirePolicy = .runOnce → candidates.length ≤ 1 ∧ ∀ f ∈ candidates,
        (calendar.missed job cursor now).getLast? = some f ∧
          ∀ r ∈ s.recovered, job.SameSchedule r.job → r.job.misfirePolicy = .runOnce → r.now < f)

structure Sound (calendar : Calendar) (s : Daemon) : Prop extends LatestOnce calendar s where
  timed : ∀ job ∈ s.store.jobs, Calendar.Timed job
  recoveredTimed : ∀ r ∈ s.recovered, Calendar.Timed r.job
  pending : s.Pending calendar s.phase
  cursors : ∀ r ∈ s.recovered, ∃ at_, s.store.scheduleCursor r.job = some at_ ∧ r.scheduledAt ≤ at_

section Preservation

theorem scheduleCursor_congr {store : Store} {job job' : Job} (h : job.SameSchedule job') :
    store.scheduleCursor job = store.scheduleCursor job' := by
  obtain ⟨hid, htriggerId, hrevision, -⟩ := h
  unfold Store.scheduleCursor
  rw [hid, htriggerId, hrevision]

theorem mem_saveJob {store : Store} {job job' : Job} (h : job' ∈ (store.saveJob job).jobs) :
    job' ∈ store.jobs ∨ job' = { job with id := job'.id } := by
  unfold Store.saveJob at h
  split at h
  · rcases List.mem_append.mp h with h | h
    · exact .inl h
    · rw [List.mem_singleton.mp h]
      exact .inr rfl
  · rcases KeyedRows.mem_update_iff.mp h with ⟨old, -, -, rfl⟩ | ⟨h, -⟩
    · exact .inr rfl
    · exact .inl h

/-- Only validated definitions are ever stored. -/
theorem timed_apply {store : Store} (hs : ∀ job ∈ store.jobs, Calendar.Timed job) {op : StoreOp}
    (hop : op.Validated) : ∀ job ∈ (store.apply op).jobs, Calendar.Timed job := by
  by_cases hkeeps : op.keepsJobs = true
  · rw [(Store.apply_keepsRows hkeeps).jobs]
    exact hs
  · cases op with
    | saveJob job =>
      intro job' hjob'
      rcases mem_saveJob hjob' with hold | hnew
      · exact hs job' hold
      · rw [hnew]
        exact hop
    | deleteJob name =>
      intro job' hjob'
      exact hs job' (List.mem_filter.mp hjob').1
    | _ => exact absurd rfl hkeeps

theorem Sound.withPhase {phase : BootPhase} (hs : s.Sound calendar)
    (hphase : s.Pending calendar phase) : Sound calendar { s with phase } where
  toLatestOnce := ⟨hs.latest, hs.once⟩
  timed := hs.timed
  recoveredTimed := hs.recoveredTimed
  pending := hphase
  cursors := hs.cursors

theorem Sound.withStore {store : Store} (hs : s.Sound calendar)
    (hgrow : s.store.CursorsGrow store) (htimed : ∀ job ∈ store.jobs, Calendar.Timed job) :
    Sound calendar { s with store } where
  toLatestOnce := ⟨hs.latest, hs.once⟩
  timed := htimed
  recoveredTimed := hs.recoveredTimed
  pending := hs.pending
  cursors r hr := by
    obtain ⟨at_, hat, hle⟩ := hs.cursors r hr
    obtain ⟨at', hat', hle'⟩ := hgrow r.job at_ hat
    exact ⟨at', hat', hle.trans hle'⟩

/-- Reading the cursor of the next job, where the preview shows all or nothing. -/
theorem Sound.readCursor {job : Job} {jobs : List Job} {cursor : Instant}
    (hs : s.Sound calendar) (hphase : s.phase = .recovering (job :: jobs))
    (hcursor : s.store.scheduleCursor job = some cursor)
    (hfits : job.misfirePolicy = .runOnce → calendar.RunOnceFits job cursor s.clock) :
    s.Pending calendar (.claiming job cursor s.clock
      (calendar.misfireCandidates job cursor s.clock) jobs) := by
  have hpending : ∀ job' ∈ job :: jobs, Calendar.Timed job' := by
    have hpending := hs.pending
    rw [hphase] at hpending
    exact hpending
  have hjob : Calendar.Timed job := hpending job List.mem_cons_self
  refine ⟨hjob, fun job' hjob' => hpending job' (List.mem_cons_of_mem _ hjob'), ?_⟩
  intro hpolicy
  refine ⟨Calendar.length_misfireCandidates_runOnce hpolicy, ?_⟩
  intro f hf
  have hlatest := (Calendar.misfireCandidates_runOnce_iff hjob hpolicy).mpr (hfits hpolicy) f hf
  refine ⟨hlatest, ?_⟩
  -- the cursor has reached what was recovered before
  intro r hr hsame hrunOnce
  have hmissed : f ∈ calendar.missed r.job cursor s.clock := by
    have hmem : f ∈ calendar.missed job cursor s.clock := List.mem_of_getLast? hlatest
    unfold Calendar.missed at hmem ⊢
    rwa [← Calendar.nextOf_congr hsame.2.2.2.1 hsame.2.2.2.2]
  obtain ⟨at_, hat, hle⟩ := hs.cursors r hr
  rw [← scheduleCursor_congr hsame, hcursor] at hat
  rw [← Option.some.inj hat] at hle
  exact Calendar.lt_of_mem_missed (hs.recoveredTimed r hr) (hs.latest r hr hrunOnce) hle hmissed

/-- Claiming the next candidate of the recovery under way. -/
theorem Sound.claim {job : Job} {cursor now scheduledAt : Instant} {rest : List Instant}
    {jobs : List Job} {d : DurableScheduleOccurrence} {store : Store} (hs : s.Sound calendar)
    (hphase : s.phase = .claiming job cursor now (scheduledAt :: rest) jobs)
    (hclaim : s.store.claimScheduleOccurrence job (job.missedOccurrence scheduledAt) now =
      .ok (d, store)) :
    Sound calendar { s with
      store
      phase := .claiming job cursor now rest jobs
      recovered := { job, cursor, now, scheduledAt } :: s.recovered } := by
  have hpending := hs.pending
  rw [hphase] at hpending
  obtain ⟨hjob, hjobs, hcandidates⟩ := hpending
  have hgrow : s.store.CursorsGrow store := Store.claim_cursorsGrow hclaim
  constructor
  · constructor
    · intro r hr
      rcases List.mem_cons.mp hr with rfl | hr
      · intro hpolicy
        exact ((hcandidates hpolicy).2 scheduledAt List.mem_cons_self).1
      · exact hs.latest r hr
    · refine List.pairwise_cons.mpr ⟨?_, hs.once⟩
      intro r hr hsame hpolicy hrunOnce
      exact ((hcandidates hpolicy).2 scheduledAt List.mem_cons_self).2 r hr hsame hrunOnce
  · rw [(Store.claimScheduleOccurrence_ok hclaim).1]
    exact hs.timed
  · intro r hr
    rcases List.mem_cons.mp hr with rfl | hr
    · exact hjob
    · exact hs.recoveredTimed r hr
  · refine ⟨hjob, hjobs, ?_⟩
    intro hpolicy
    have hlength := (hcandidates hpolicy).1
    rw [List.length_cons] at hlength
    have hrest : rest = [] := List.length_eq_zero_iff.mp (by omega)
    rw [hrest]
    exact ⟨Nat.zero_le _, fun f hf => absurd hf List.not_mem_nil⟩
  · intro r hr
    rcases List.mem_cons.mp hr with rfl | hr
    · have hkey : (job.id, job.triggerId, job.scheduleRevision) =
          (job.id, (job.missedOccurrence scheduledAt).triggerId,
            (job.missedOccurrence scheduledAt).scheduleRevision) := rfl
      dsimp only
      rw [Store.claim_scheduleCursor hclaim, Store.scheduleCursor_advanceCursor, if_pos hkey]
      exact ⟨_, rfl, le_max_left _ _⟩
    · obtain ⟨at_, hat, hle⟩ := hs.cursors r hr
      obtain ⟨at', hat', hle'⟩ := hgrow r.job at_ hat
      exact ⟨at', hat', hle.trans hle'⟩

theorem Sound.step {e : DaemonEvent} (hs : s.Sound calendar) (hfits : Fits calendar s e)
    (h : (machine calendar).step s e = some t) : t.Sound calendar := by
  have hpending := hs.pending
  cases e with
  | wait elapsed =>
    cases h
    exact ⟨⟨hs.latest, hs.once⟩, hs.timed, hs.recoveredTimed, hs.pending, hs.cursors⟩
  | start =>
    simp only [machine, Daemon.step] at h
    split at h
    · cases h
      have hstore := @Daemon.Sound.withStore _ _ (s.store.recoverScheduleOccurrences s.clock) hs
        (.of_eq rfl) hs.timed
      exact hstore.withPhase hs.timed
    · cases h
  | readCursor =>
    simp only [machine, Daemon.step] at h
    split at h
    · rename_i job jobs hphase
      split at h
      · cases h
        rw [hphase] at hpending
        exact hs.withPhase fun job' hjob' => hpending job' (List.mem_cons_of_mem _ hjob')
      · rename_i cursor hcursor
        cases h
        have hnext : job ∈ s.phase.nextJob? := by
          rw [hphase]
          rfl
        have hfits' := hfits job hnext
        exact hs.withPhase (hs.readCursor hphase hcursor fun hpolicy => hfits' hpolicy cursor hcursor)
    · cases h
  | claim =>
    simp only [machine, Daemon.step] at h
    split at h
    · rename_i job cursor now scheduledAt rest jobs hphase
      split at h
      · cases h
        rw [hphase] at hpending
        exact hs.withPhase hpending.2.1
      · rename_i d store hclaim
        cases h
        exact hs.claim hphase hclaim
    · cases h
  | repositoryFails =>
    simp only [machine, Daemon.step] at h
    split at h
    · rename_i job jobs hphase
      cases h
      rw [hphase] at hpending
      exact hs.withPhase fun job' hjob' => hpending job' (List.mem_cons_of_mem _ hjob')
    · rename_i hphase
      cases h
      rw [hphase] at hpending
      exact hs.withPhase hpending.2.1
    · cases h
  | nextJob =>
    simp only [machine, Daemon.step] at h
    split at h
    · rename_i hphase
      cases h
      rw [hphase] at hpending
      exact hs.withPhase hpending.2.1
    · cases h
  | finish =>
    simp only [machine, Daemon.step] at h
    split at h
    · cases h
      exact hs.withPhase trivial
    · cases h
  | crash =>
    cases h
    exact hs.withPhase trivial
  | admitOccurrence job occurrence runId =>
    cases h
    apply hs.withStore
    · apply Store.CursorsGrow.of_ok
      intro store hstore
      obtain ⟨answer, hadmit⟩ := Store.ok_of_map_snd hstore
      exact .of_eq (Store.admit_cursors hadmit)
    · have hkeeps := Store.KeepsRows.of_snd (s := s.store) fun answer store hadmit =>
        @Store.admitScheduleOccurrence_keepsRows _ store job occurrence s.clock runId answer hadmit
      rw [hkeeps.jobs]
      exact hs.timed
  | transaction op =>
    simp only [machine, Daemon.step] at h
    split at h
    · cases h
      exact hs.withStore (Store.cursorsGrow_apply op) (timed_apply hs.timed ‹_›)
    · cases h

end Preservation

/-- In every run whose recoveries of `RunOnce` jobs begin where the preview shows all the
missed firings or none, each downtime has at most one firing recovered, the latest one. -/
theorem run_latestOnce (htimed : ∀ job ∈ s.store.jobs, Calendar.Timed job)
    (hphase : s.phase = .down) (hnew : s.recovered = [])
    (hrun : (machine calendar).Run (Fits calendar) s t) : t.LatestOnce calendar := by
  have hnone (r : RecoveredOccurrence) : r ∉ s.recovered := by
    rw [hnew]
    exact List.not_mem_nil
  have hstart : s.Sound calendar := by
    refine ⟨⟨fun r hr => absurd hr (hnone r), ?_⟩, htimed, fun r hr => absurd hr (hnone r), ?_,
      fun r hr => absurd hr (hnone r)⟩
    · rw [hnew]
      exact .nil
    · rw [hphase]
      trivial
  exact (hrun.invariant (fun u e v hu hfits hstep => hu.step hfits hstep) hstart).toLatestOnce

section Downtime

open Calendar (hour)

def runOnceJob : Job :=
  { id := ⟨1⟩
    name := "hourly"
    command := "/bin/true"
    trigger := .cron "0 * * * *"
    triggerId := 7
    misfirePolicy := .runOnce }

/-- The daemon is down, and the firing at time zero is the last one it claimed. -/
def downFor (hours : ℕ) : Daemon :=
  { clock := hours * hour
    store :=
      { jobs := [runOnceJob]
        cursors := [{ jobId := ⟨1⟩, triggerId := 7, scheduleRevision := 0, cursorAt := 0 }] }
    phase := .down }

/-- After three hours, and a crash in between, the latest of the firings is claimed once. -/
theorem run_latestOnce_downFor : ∃ t : Daemon, t.LatestOnce .hourly ∧
    t.recovered.map (·.scheduledAt) = [3 * hour] := by
  obtain ⟨t, hrun, hrecovered⟩ := Machine.exists_run_of_execUnder (M := machine .hourly)
    (C := Fits .hourly) (s := downFor 3)
    (fun t => t.recovered.map (·.scheduledAt) = [3 * hour])
    [.start, .readCursor, .claim, .crash, .start, .readCursor, .nextJob, .finish]
    (by decide +kernel)
  have htimed : ∀ job ∈ (downFor 3).store.jobs, Calendar.Timed job := by decide
  exact ⟨t, run_latestOnce htimed rfl rfl hrun, of_decide_eq_true hrecovered⟩

/-- After 130 hours the recovery claims the hundredth missed firing, and the next one, at
the same time, the last. -/
theorem downFor_recovers_twice : ∃ t, (machine .hourly).Reaches (downFor 130) t ∧
    ¬t.LatestOnce .hourly := by
  obtain ⟨t, hrun, hrecovered⟩ := Machine.exists_reaches_of_exec (M := machine .hourly)
    (s := downFor 130)
    (fun t => t.recovered.map (fun r => (r.now, r.scheduledAt)) =
        [(130 * hour, 130 * hour), (130 * hour, 100 * hour)] ∧
      ∀ r ∈ t.recovered, r.job = runOnceJob)
    [.start, .readCursor, .claim, .crash, .start, .readCursor, .claim] (by decide +kernel)
  obtain ⟨htimes, hjobs⟩ := of_decide_eq_true hrecovered
  refine ⟨t, hrun, ?_⟩
  intro ht
  have honce := ht.once
  obtain ⟨later, rest, hlist, hlater, hrest⟩ := List.map_eq_cons_iff.mp htimes
  obtain ⟨earlier, rest', hlist', hearlier, -⟩ := List.map_eq_cons_iff.mp hrest
  rw [hlist, hlist'] at honce hjobs
  have hjob : later.job = runOnceJob := hjobs later List.mem_cons_self
  have hjob' : earlier.job = runOnceJob :=
    hjobs earlier (List.mem_cons_of_mem _ List.mem_cons_self)
  have hsame : later.job.SameSchedule earlier.job := by
    rw [hjob, hjob']
    exact ⟨rfl, rfl, rfl, rfl, rfl⟩
  have hlt : earlier.now < later.scheduledAt :=
    (List.pairwise_cons.mp honce).1 earlier List.mem_cons_self hsame (by rw [hjob]; rfl)
      (by rw [hjob']; rfl)
  rw [(Prod.mk.inj hearlier).1, (Prod.mk.inj hlater).2] at hlt
  exact lt_irrefl _ hlt

end Downtime

end Daemon

end Supervisor
