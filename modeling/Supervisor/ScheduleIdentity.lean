import Supervisor.JobCalls
import Supervisor.Machine
import Supervisor.MisfireRecovery

namespace Supervisor

/-- Whether `on_schedule_tick` takes a tick for one of the stored job. -/
def Job.acceptsTick (job : Job) (occurrence : ScheduleOccurrence) : Bool :=
  job.triggerId = occurrence.triggerId && job.scheduleRevision = occurrence.scheduleRevision

/-- The same expression in the same time zone. -/
def Job.SameTimes (job job' : Job) : Prop :=
  job.trigger = job'.trigger ∧ job.timezone = job'.timezone
deriving Decidable

theorem Job.SameTimes.symm {job job' : Job} (h : job.SameTimes job') : job'.SameTimes job :=
  ⟨h.1.symm, h.2.symm⟩

/-- The journal of a configuration apply, as far as the definitions go. -/
structure ApplyJournal where
  previous : ConfigSnapshot
  target : ConfigSnapshot
  /-- Whether a stage is persisted from which recovery goes on to the target. -/
  forward : Bool := false

/-- The definitions, with the configuration apply that is under way. -/
structure ScheduleHistory where
  tables : DefinitionTables
  journal : Option ApplyJournal := none
  /-- History: each definition that was stored, or armed before it was. -/
  known : List Job
  /-- History: the definitions that the calls left in the store, newest first. -/
  committed : List Job

inductive ScheduleCall where
  | updateJob (name : String) (body : Job) (newTriggerId : Uuid) (now : Instant) (restored : Bool)
  | prepareApply (running : List String) (loaded : LoadedConfig) (mode : ApplyMode)
      (newTriggerIds : String → Uuid) (now : Instant)
  | goForward
  | commitTarget
  | restorePrevious
  | clearJournal

namespace ScheduleHistory

/-- The target of an apply. -/
def target (s : ScheduleHistory) (running : List String) (loaded : LoadedConfig)
    (mode : ApplyMode) (newTriggerIds : String → Uuid) : ConfigSnapshot :=
  targetSnapshot (s.tables.snapshot running) loaded mode newTriggerIds

/-- A transaction that writes a snapshot. -/
def write (s : ScheduleHistory) (snapshot : ConfigSnapshot) : ScheduleHistory :=
  match s.tables.applyConfigSnapshot snapshot with
  | .error _ => s
  | .ok tables => { s with
      tables
      known := tables.store.jobs ++ s.known
      committed := tables.store.jobs ++ s.committed }

/-- `update_job` saves the new definition and arms it; when the scheduler rejects it, the call
saves the old one again, unless that fails. -/
def finishUpdate (calendar : Calendar) (s : ScheduleHistory) (existing job : Job)
    (restored : Bool) : ScheduleHistory :=
  let saved := s.tables.store.saveJob job.stored
  let written := savedJob (some existing) job
  if (calendar.registerJob job).toBool || !restored then
    { s with
      tables := { s.tables with store := saved }
      known := written :: s.known
      committed := written :: s.committed }
  else
    { s with
      tables := { s.tables with store := saved.saveJob existing.stored }
      known := written :: s.known }

/-- Identifiers drawn at random are new. -/
def step (calendar : Calendar) (s : ScheduleHistory) : ScheduleCall → Option ScheduleHistory
  | .updateJob name body newTriggerId now restored =>
    if ∃ d ∈ s.known, d.triggerId = newTriggerId then none
    else match planUpdate s.tables.store.jobs name body newTriggerId now with
      | .error _ => some s
      | .ok (existing, job) => some (s.finishUpdate calendar existing job restored)
  | .prepareApply running loaded mode newTriggerIds now =>
    if s.journal.isSome then none
    else if ¬(loaded.jobs.map (·.id)).Nodup ∨ ∃ job ∈ loaded.jobs, ∃ d ∈ s.known, d.id = job.id then
      none
    else
      let previous := s.tables.snapshot running
      let target := s.target running loaded mode newTriggerIds
      match validateConfigSnapshot previous target now with
      | .error _ => some s
      | .ok () => some { s with
          journal := some { previous, target }
          known := target.jobs.map Job.stored ++ s.known }
  | .goForward => s.journal.map fun journal => { s with journal := some { journal with forward := true } }
  | .commitTarget => (s.journal.filter (·.forward)).map fun journal => s.write journal.target
  | .restorePrevious =>
    (s.journal.filter fun journal => !journal.forward).map fun journal => s.write journal.previous
  | .clearJournal => some { s with journal := none }

def machine (calendar : Calendar) : Machine ScheduleHistory ScheduleCall where
  step := step calendar

/-- No revision of a stored job exceeds the one that is written. -/
def RevisionsFit (s : ScheduleHistory) (snapshot : ConfigSnapshot) : Prop :=
  ∀ job ∈ snapshot.jobs, ∀ old ∈ KeyedRows.find Job.name job.name s.tables.store.jobs,
    old.scheduleRevision ≤ job.stored.scheduleRevision

/-- An update that changes the schedule finds a revision that can be counted up. A
configuration gives no used trigger id and revision of a name to another schedule, and the
writing of a snapshot sets no revision back. -/
def Fits (s : ScheduleHistory) : ScheduleCall → Prop
  | .updateJob name body _ _ _ => ∀ existing ∈ KeyedRows.find Job.name name s.tables.store.jobs,
      ¬body.SameTimes existing → existing.scheduleRevision + 1 < 2^63
  | .prepareApply running loaded mode newTriggerIds _ =>
      ∀ job ∈ (s.target running loaded mode newTriggerIds).jobs, ∀ d ∈ s.known,
        d.name = job.name → d.triggerId = job.triggerId →
          d.scheduleRevision = job.stored.scheduleRevision → d.SameTimes job.stored
  | .commitTarget => ∀ journal ∈ s.journal, s.RevisionsFit journal.target
  | .restorePrevious => ∀ journal ∈ s.journal, s.RevisionsFit journal.previous
  | .goForward | .clearJournal => True

instance (s : ScheduleHistory) (snapshot : ConfigSnapshot) : Decidable (s.RevisionsFit snapshot) := by
  unfold RevisionsFit
  exact inferInstance

instance (s : ScheduleHistory) (e : ScheduleCall) : Decidable (s.Fits e) := by
  cases e <;> unfold Fits <;> exact inferInstance

/-- What the identity of a schedule stands for. -/
structure Fresh (s : ScheduleHistory) : Prop where
  triples : ∀ d ∈ s.known, ∀ d' ∈ s.known, d.id = d'.id → d.triggerId = d'.triggerId →
    d.scheduleRevision = d'.scheduleRevision → d.SameTimes d'
  revisions : s.committed.Pairwise fun later earlier =>
    later.id = earlier.id → earlier.scheduleRevision ≤ later.scheduleRevision
  current : ∀ job ∈ s.tables.store.jobs, ∀ d ∈ s.committed,
    d.id = job.id → d.scheduleRevision ≤ job.scheduleRevision
  ticks : ∀ d ∈ s.known, ∀ scheduledAt, ∀ job ∈ s.tables.store.getJob d.name,
    job.acceptsTick (d.missedOccurrence scheduledAt) = true → d.SameTimes job

/-- A snapshot whose definitions are known, and which brings back no job that is gone. -/
structure Filed (s : ScheduleHistory) (snapshot : ConfigSnapshot) : Prop where
  processNames : KeyedRows.Unique ProcessSpec.name snapshot.processes
  names : KeyedRows.Unique Job.name snapshot.jobs
  known : ∀ job ∈ snapshot.jobs, job.stored ∈ s.known
  new : ∀ job ∈ snapshot.jobs, (s.tables.store.getJob job.name).isSome = true ∨
    ∀ d ∈ s.committed, d.id ≠ job.id

structure JournalSound (s : ScheduleHistory) (journal : ApplyJournal) : Prop where
  target : s.Filed journal.target
  previous : journal.forward = false → s.Filed journal.previous
  sameNames : journal.forward = false → ∀ name, (s.tables.store.getJob name).isSome = true ↔
    (KeyedRows.find Job.name name journal.previous.jobs).isSome = true

/-- What holds besides of the journal. -/
structure Kept (s : ScheduleHistory) : Prop where
  tables : s.tables.Sound
  stored : ∀ job ∈ s.tables.store.jobs, job ∈ s.known
  below : ∀ d ∈ s.committed, d ∈ s.known
  named : ∀ d ∈ s.known, ∀ d' ∈ s.known, d.id = d'.id → d.name = d'.name
  schedules : ∀ d ∈ s.known, ∀ d' ∈ s.known, d.name = d'.name → d.triggerId = d'.triggerId →
    d.scheduleRevision = d'.scheduleRevision → d.SameTimes d'
  revisions : s.committed.Pairwise fun later earlier =>
    later.id = earlier.id → earlier.scheduleRevision ≤ later.scheduleRevision
  current : ∀ job ∈ s.tables.store.jobs, ∀ d ∈ s.committed,
    d.id = job.id → d.scheduleRevision ≤ job.scheduleRevision

structure Sound (s : ScheduleHistory) : Prop extends Kept s where
  journal : ∀ journal ∈ s.journal, s.JournalSound journal

section Extension

variable {s : ScheduleHistory}

theorem Kept.fresh (hs : s.Kept) : s.Fresh where
  triples d hd d' hd' hid htrigger hrevision :=
    hs.schedules d hd d' hd' (hs.named d hd d' hd' hid) htrigger hrevision
  revisions := hs.revisions
  current := hs.current
  ticks d hd scheduledAt job hjob haccepts := by
    have hmem : job ∈ s.known := hs.stored job (KeyedRows.find_mem hjob)
    have hname : job.name = d.name := KeyedRows.find_key hjob
    simp only [Job.acceptsTick, Bool.and_eq_true, decide_eq_true_eq] at haccepts
    exact hs.schedules d hd job hmem hname.symm haccepts.1.symm haccepts.2.symm

/-- What new definitions must have in common with known ones: the name and id of some, and
the times of one under the same name and schedule identity. -/
structure Covered (s : ScheduleHistory) (d : Job) : Prop where
  person : ∃ d' ∈ s.known, d'.id = d.id ∧ d'.name = d.name
  times : ∀ d' ∈ s.known, d'.name = d.name → d'.triggerId = d.triggerId →
    d'.scheduleRevision = d.scheduleRevision → d'.SameTimes d

theorem Kept.covered_of_known (hs : s.Kept) {d rep owner : Job} (hrep : rep ∈ s.known)
    (howner : owner ∈ s.known) (hid : owner.id = d.id) (hname : owner.name = d.name)
    (hrepName : rep.name = d.name) (htrigger : rep.triggerId = d.triggerId)
    (hrevision : rep.scheduleRevision = d.scheduleRevision) (hsame : rep.SameTimes d) :
    s.Covered d where
  person := ⟨owner, howner, hid, hname⟩
  times d' hd' hname' htrigger' hrevision' := by
    have htimes := hs.schedules d' hd' rep hrep (hname'.trans hrepName.symm)
      (htrigger'.trans htrigger.symm) (hrevision'.trans hrevision.symm)
    exact ⟨htimes.1.trans hsame.1, htimes.2.trans hsame.2⟩

/-- Knowing more definitions that agree with the known ones and with each other. -/
theorem Kept.extend (hs : s.Kept) {new : List Job}
    (hids : ∀ d ∈ new, ∀ d' ∈ s.known, d'.id = d.id → d'.name = d.name)
    (hnewIds : ∀ d ∈ new, ∀ d' ∈ new, d.id = d'.id → d.name = d'.name)
    (htimes : ∀ d ∈ new, ∀ d' ∈ s.known, d'.name = d.name → d'.triggerId = d.triggerId →
      d'.scheduleRevision = d.scheduleRevision → d'.SameTimes d)
    (hnewTimes : ∀ d ∈ new, ∀ d' ∈ new, d.name = d'.name → d.SameTimes d') :
    (∀ d ∈ new ++ s.known, ∀ d' ∈ new ++ s.known, d.id = d'.id → d.name = d'.name) ∧
      ∀ d ∈ new ++ s.known, ∀ d' ∈ new ++ s.known, d.name = d'.name → d.triggerId = d'.triggerId →
        d.scheduleRevision = d'.scheduleRevision → d.SameTimes d' := by
  constructor
  · intro d hd d' hd' hid
    rcases List.mem_append.mp hd with hmem | hmem
    · rcases List.mem_append.mp hd' with hmem' | hmem'
      · exact hnewIds d hmem d' hmem' hid
      · exact (hids d hmem d' hmem' hid.symm).symm
    · rcases List.mem_append.mp hd' with hmem' | hmem'
      · exact hids d' hmem' d hmem hid
      · exact hs.named d hmem d' hmem' hid
  · intro d hd d' hd' hname htrigger hrevision
    rcases List.mem_append.mp hd with hmem | hmem
    · rcases List.mem_append.mp hd' with hmem' | hmem'
      · exact hnewTimes d hmem d' hmem' hname
      · exact (htimes d hmem d' hmem' hname.symm htrigger.symm hrevision.symm).symm
    · rcases List.mem_append.mp hd' with hmem' | hmem'
      · exact htimes d' hmem' d hmem hname htrigger hrevision
      · exact hs.schedules d hmem d' hmem' hname htrigger hrevision

/-- New definitions that are covered by the known ones. -/
theorem Kept.extend_covered (hs : s.Kept) {new : List Job} (hnew : ∀ d ∈ new, s.Covered d)
    (hagree : ∀ d ∈ new, ∀ d' ∈ new, d.name = d'.name → d.SameTimes d') :
    (∀ d ∈ new ++ s.known, ∀ d' ∈ new ++ s.known, d.id = d'.id → d.name = d'.name) ∧
      ∀ d ∈ new ++ s.known, ∀ d' ∈ new ++ s.known, d.name = d'.name → d.triggerId = d'.triggerId →
        d.scheduleRevision = d'.scheduleRevision → d.SameTimes d' := by
  apply hs.extend _ _ (fun d hd => (hnew d hd).times) hagree
  · intro d hd d' hd' hid
    obtain ⟨owner, howner, hownerId, hownerName⟩ := (hnew d hd).person
    have hsame := hs.named d' hd' owner howner (hid.trans hownerId.symm)
    exact hsame.trans hownerName
  · intro d hd d' hd' hid
    obtain ⟨owner, howner, hownerId, hownerName⟩ := (hnew d hd).person
    obtain ⟨owner', howner', hownerId', hownerName'⟩ := (hnew d' hd').person
    have hsame := hs.named owner howner owner' howner' (by rw [hownerId, hownerId', hid])
    rw [← hownerName, ← hownerName', hsame]

theorem savedJob_fields (old : Option Job) (job : Job) :
    (savedJob old job).name = job.name ∧ (savedJob old job).triggerId = job.triggerId ∧
      (savedJob old job).scheduleRevision = job.stored.scheduleRevision ∧
      (savedJob old job).trigger = job.stored.trigger ∧
      (savedJob old job).timezone = job.timezone ∧
      (savedJob old job).id = (old.map (·.id)).getD job.id := by
  cases old <;> exact ⟨rfl, rfl, rfl, rfl, rfl, rfl⟩

end Extension

section Write

variable {s : ScheduleHistory} {snapshot : ConfigSnapshot} {tables : DefinitionTables}

/-- The rows that writing a snapshot leaves. -/
theorem mem_written (hs : s.Kept) (hfiled : s.Filed snapshot)
    (hok : s.tables.applyConfigSnapshot snapshot = .ok tables) {job' : Job}
    (hjob' : job' ∈ tables.store.jobs) : ∃ job ∈ snapshot.jobs,
      job' = savedJob (KeyedRows.find Job.name job.name s.tables.store.jobs) job := by
  have hsound : tables.Sound := hs.tables.applyConfigSnapshot hok
  have hfind := hsound.jobNames.find_of_mem hjob'
  have hwritten := (DefinitionTables.applyConfigSnapshot_find hfiled.processNames hfiled.names hok
    job'.name).2
  rw [hwritten] at hfind
  obtain ⟨job, hjob, hsaved⟩ := Option.map_eq_some_iff.mp hfind
  have hname : job.name = job'.name := KeyedRows.find_key hjob
  rw [← hname] at hsaved
  exact ⟨job, KeyedRows.find_mem hjob, hsaved.symm⟩

theorem getJob_written (hfiled : s.Filed snapshot)
    (hok : s.tables.applyConfigSnapshot snapshot = .ok tables) (name : String) :
    (tables.store.getJob name).isSome = true ↔
      (KeyedRows.find Job.name name snapshot.jobs).isSome = true := by
  have hwritten := (DefinitionTables.applyConfigSnapshot_find hfiled.processNames hfiled.names hok
    name).2
  unfold Store.getJob
  rw [hwritten, Option.isSome_map]

/-- A written definition has the id that is stored with its name, or its own. -/
theorem written_covered (hs : s.Kept) (hfiled : s.Filed snapshot) {job : Job}
    (hjob : job ∈ snapshot.jobs) :
    s.Covered (savedJob (KeyedRows.find Job.name job.name s.tables.store.jobs) job) := by
  have hknown : job.stored ∈ s.known := hfiled.known job hjob
  obtain ⟨hname, htrigger, hrevision, htimes, hzone, hid⟩ :=
    savedJob_fields (KeyedRows.find Job.name job.name s.tables.store.jobs) job
  have hrep : job.stored.SameTimes
      (savedJob (KeyedRows.find Job.name job.name s.tables.store.jobs) job) :=
    ⟨htimes.symm, hzone.symm⟩
  cases hold : KeyedRows.find Job.name job.name s.tables.store.jobs with
  | none =>
    rw [hold] at hname htrigger hrevision hid hrep
    exact hs.covered_of_known hknown hknown hid.symm hname.symm hname.symm htrigger.symm
      hrevision.symm hrep
  | some old =>
    rw [hold] at hname htrigger hrevision hid hrep
    have holdKnown : old ∈ s.known := hs.stored old (KeyedRows.find_mem hold)
    have holdName : old.name = job.name := KeyedRows.find_key hold
    exact hs.covered_of_known hknown holdKnown hid.symm (holdName.trans hname.symm) hname.symm
      htrigger.symm hrevision.symm hrep

/-- What was stored under the id of a written definition had no higher revision. -/
theorem written_revision (hs : s.Kept) (hfiled : s.Filed snapshot)
    (hfits : s.RevisionsFit snapshot) {job d : Job} (hjob : job ∈ snapshot.jobs)
    (hd : d ∈ s.committed)
    (hid : d.id = (savedJob (KeyedRows.find Job.name job.name s.tables.store.jobs) job).id) :
    d.scheduleRevision ≤
      (savedJob (KeyedRows.find Job.name job.name s.tables.store.jobs) job).scheduleRevision := by
  obtain ⟨-, -, hrevision, -, -, hsavedId⟩ :=
    savedJob_fields (KeyedRows.find Job.name job.name s.tables.store.jobs) job
  rw [hsavedId] at hid
  rw [hrevision]
  cases hold : KeyedRows.find Job.name job.name s.tables.store.jobs with
  | none =>
    rw [hold] at hid
    rcases hfiled.new job hjob with hstored | hnew
    · have hnone : s.tables.store.getJob job.name = none := hold
      rw [hnone] at hstored
      cases hstored
    · exact absurd hid (hnew d hd)
  | some old =>
    rw [hold] at hid
    calc d.scheduleRevision
        ≤ old.scheduleRevision := hs.current old (KeyedRows.find_mem hold) d hd hid
      _ ≤ job.stored.scheduleRevision := hfits job hjob old hold

theorem Kept.write (hs : s.Kept) (hfiled : s.Filed snapshot) (hfits : s.RevisionsFit snapshot)
    (hok : s.tables.applyConfigSnapshot snapshot = .ok tables) (journal : Option ApplyJournal) :
    Kept ⟨tables, journal, tables.store.jobs ++ s.known, tables.store.jobs ++ s.committed⟩ := by
  have hsound : tables.Sound := hs.tables.applyConfigSnapshot hok
  have hcovered : ∀ d ∈ tables.store.jobs, s.Covered d := by
    intro d hd
    obtain ⟨job, hjob, rfl⟩ := mem_written hs hfiled hok hd
    exact written_covered hs hfiled hjob
  have hunique : ∀ d ∈ tables.store.jobs, ∀ d' ∈ tables.store.jobs, d.name = d'.name → d = d' :=
    fun d hd d' hd' hname => hsound.jobNames.eq_of_key hd hd' hname
  have hextended := hs.extend_covered hcovered fun d hd d' hd' hname => by
    rw [hunique d hd d' hd' hname]
    exact ⟨rfl, rfl⟩
  have hnamed := hextended.1
  have hcross : ∀ job' ∈ tables.store.jobs, ∀ d ∈ s.committed, d.id = job'.id →
      d.scheduleRevision ≤ job'.scheduleRevision := by
    intro job' hjob' d hd hid
    obtain ⟨job, hjob, rfl⟩ := mem_written hs hfiled hok hjob'
    exact written_revision hs hfiled hfits hjob hd hid
  have hsameId : ∀ d ∈ tables.store.jobs, ∀ d' ∈ tables.store.jobs, d.id = d'.id → d = d' := by
    intro d hd d' hd' hid
    exact hunique d hd d' hd'
      (hnamed d (List.mem_append_left _ hd) d' (List.mem_append_left _ hd') hid)
  constructor
  case tables => exact hsound
  case stored => exact fun job hjob => List.mem_append_left _ hjob
  case below =>
    intro d hd
    rcases List.mem_append.mp hd with hd | hd
    · exact List.mem_append_left _ hd
    · exact List.mem_append_right _ (hs.below d hd)
  case named => exact hnamed
  case schedules => exact hextended.2
  case revisions =>
    refine List.pairwise_append.mpr ⟨?_, hs.revisions, ?_⟩
    · apply List.pairwise_of_forall_mem_list
      intro later hlater earlier hearlier hid
      rw [hsameId later hlater earlier hearlier hid]
    · intro later hlater earlier hearlier hid
      exact hcross later hlater earlier hearlier hid.symm
  case current =>
    intro job hjob d hd hid
    rcases List.mem_append.mp hd with hd | hd
    · rw [hsameId d hd job hjob hid]
    · exact hcross job hjob d hd hid

/-- A snapshot stays filed while the definitions grow and the names stay stored. -/
theorem Filed.of_extends {s' : ScheduleHistory} (hs' : s'.Kept) (hfiled : s.Filed snapshot)
    (hknown : ∀ d ∈ s.known, d ∈ s'.known)
    (hnames : ∀ job ∈ snapshot.jobs, (s.tables.store.getJob job.name).isSome = true →
      (s'.tables.store.getJob job.name).isSome = true)
    (hcommitted : ∀ d ∈ s'.committed, d ∈ s.committed ∨
      (s'.tables.store.getJob d.name).isSome = true) : s'.Filed snapshot where
  processNames := hfiled.processNames
  names := hfiled.names
  known job hjob := hknown _ (hfiled.known job hjob)
  new job hjob := by
    by_cases hstored : (s'.tables.store.getJob job.name).isSome = true
    · exact .inl hstored
    · right
      intro d hd hid
      rcases hcommitted d hd with hold | hnew
      · rcases hfiled.new job hjob with hbefore | hbefore
        · exact hstored (hnames job hjob hbefore)
        · exact hbefore d hold hid
      · -- an id belongs to one name
        have hname : d.name = job.name :=
          hs'.named d (hs'.below d hd) job.stored (hknown _ (hfiled.known job hjob)) hid
        rw [hname] at hnew
        exact hstored hnew

theorem getJob_of_mem {store : Store} {job : Job} (h : job ∈ store.jobs) :
    (store.getJob job.name).isSome = true :=
  KeyedRows.mem_map_key.mp (List.mem_map_of_mem h)

theorem Sound.write (hs : s.Sound) {journal : ApplyJournal} (hjournal : s.journal = some journal)
    (hwhich : snapshot = journal.target ∧ journal.forward = true ∨
      snapshot = journal.previous ∧ journal.forward = false)
    (hfits : s.RevisionsFit snapshot) : (s.write snapshot).Sound := by
  have hfiled : s.Filed snapshot := by
    rcases hwhich with ⟨rfl, -⟩ | ⟨rfl, hback⟩
    · exact (hs.journal journal hjournal).target
    · exact (hs.journal journal hjournal).previous hback
  unfold ScheduleHistory.write
  split
  · exact hs
  · rename_i tables hok
    have hkept := hs.toKept.write hfiled hfits hok s.journal
    refine ⟨hkept, ?_⟩
    intro journal' hjournal'
    have hsame : journal' = journal := by
      have heq : some journal' = some journal := hjournal'.symm.trans hjournal
      exact Option.some.inj heq
    subst hsame
    have hwritten : ∀ job ∈ snapshot.jobs, (tables.store.getJob job.name).isSome = true := by
      intro job hjob
      exact (getJob_written hfiled hok job.name).mpr
        (KeyedRows.mem_map_key.mp (List.mem_map_of_mem hjob))
    have hcommitted : ∀ d ∈ tables.store.jobs ++ s.committed, d ∈ s.committed ∨
        (tables.store.getJob d.name).isSome = true := by
      intro d hd
      rcases List.mem_append.mp hd with hd | hd
      · exact .inr (getJob_of_mem hd)
      · exact .inl hd
    have hbefore := hs.journal journal' hjournal
    rcases hwhich with ⟨rfl, hforward⟩ | ⟨rfl, hback⟩
    · refine ⟨?_, ?_, ?_⟩
      · exact hbefore.target.of_extends hkept (fun d hd => List.mem_append_right _ hd)
          (fun job hjob _ => hwritten job hjob) hcommitted
      · intro hback
        rw [hforward] at hback
        cases hback
      · intro hback
        rw [hforward] at hback
        cases hback
    · refine ⟨?_, ?_, ?_⟩
      · apply hbefore.target.of_extends hkept (fun d hd => List.mem_append_right _ hd) _ hcommitted
        intro job _ hstored
        have hprevious := (hbefore.sameNames hback job.name).mp hstored
        exact (getJob_written hfiled hok job.name).mpr hprevious
      · intro _
        exact hfiled.of_extends hkept (fun d hd => List.mem_append_right _ hd)
          (fun job hjob _ => hwritten job hjob) hcommitted
      · intro _ name
        exact getJob_written hfiled hok name

end Write

section Update

variable {calendar : Calendar} {s : ScheduleHistory} {name : String} {body existing job : Job}
  {newTriggerId : Uuid} {now : Instant}

theorem stored_scheduleRevision {job : Job} (h : job.scheduleRevision < 2^63) :
    job.stored.scheduleRevision = job.scheduleRevision := by
  show (max (asI64 job.scheduleRevision) 0).toNat = _
  rw [max_asI64]
  split <;> omega

theorem stored_trigger_congr {job job' : Job} (h : job.trigger = job'.trigger) :
    job.stored.trigger = job'.stored.trigger := by
  show (TriggerRepr.ofTrigger job.trigger).toTrigger = (TriggerRepr.ofTrigger job'.trigger).toTrigger
  rw [h]

/-- The definition that an update saves counts the revision up, or keeps schedule and identity. -/
theorem updated_identity (hs : s.Kept)
    (h : PlannedUpdate s.tables.store.jobs name body newTriggerId now existing job)
    (hfits : ¬body.SameTimes existing → existing.scheduleRevision + 1 < 2^63) :
    (job.triggerId = newTriggerId ∧
        job.stored.scheduleRevision = existing.scheduleRevision + 1) ∨
      job.triggerId = existing.triggerId ∧
        job.stored.scheduleRevision = existing.scheduleRevision ∧ existing.SameTimes job.stored := by
  have hexisting : existing.Storable := hs.tables.jobsStorable _ (KeyedRows.find_mem h.found)
  by_cases hsame : body.SameTimes existing
  · right
    have hidentity : job = { body with
        name, id := existing.id, scheduleRevision := existing.scheduleRevision
        triggerId := existing.triggerId } := by
      rw [h.identity]
      unfold withScheduleIdentity
      rw [if_neg]
      rintro (htrigger | hzone)
      · exact htrigger hsame.1
      · exact hzone hsame.2
    have htrigger : job.stored.trigger = existing.stored.trigger := by
      apply stored_trigger_congr
      rw [hidentity]
      exact hsame.1
    have hzone : job.stored.timezone = existing.timezone := by
      rw [hidentity]
      exact hsame.2
    have hrevision : job.scheduleRevision = existing.scheduleRevision := by rw [hidentity]
    refine ⟨by rw [hidentity], ?_, ?_, hzone.symm⟩
    · rw [stored_scheduleRevision (hrevision ▸ hexisting.scheduleRevision), hrevision]
    · rw [htrigger, hexisting.stored_eq]
  · left
    have hcount := hfits hsame
    have hidentity : job = { body with
        name, id := existing.id, scheduleRevision := Store.satAdd existing.scheduleRevision 1
        triggerId := newTriggerId } := by
      rw [h.identity]
      unfold withScheduleIdentity
      rw [if_pos]
      exact not_and_or.mp hsame
    have hadd : job.scheduleRevision = existing.scheduleRevision + 1 := by
      rw [hidentity]
      show Store.satAdd existing.scheduleRevision 1 = _
      unfold Store.satAdd
      omega
    refine ⟨by rw [hidentity], ?_⟩
    rw [stored_scheduleRevision (hadd ▸ hcount), hadd]

theorem updated_covered (hs : s.Kept)
    (h : PlannedUpdate s.tables.store.jobs name body newTriggerId now existing job)
    (hfits : ¬body.SameTimes existing → existing.scheduleRevision + 1 < 2^63)
    (hfresh : ∀ d ∈ s.known, d.triggerId ≠ newTriggerId) :
    s.Covered (savedJob (some existing) job) := by
  have hknown : existing ∈ s.known := hs.stored existing (KeyedRows.find_mem h.found)
  have hname : existing.name = job.name := h.existing_name.trans h.job_name.symm
  constructor
  · exact ⟨existing, hknown, rfl, hname⟩
  · intro d hd hdName hdTrigger hdRevision
    rcases updated_identity hs h hfits with ⟨htrigger, -⟩ | ⟨htrigger, hrevision, hsame⟩
    · exact absurd (hdTrigger.trans htrigger) (hfresh d hd)
    · have htimes := hs.schedules d hd existing hknown (hdName.trans hname.symm)
        (hdTrigger.trans htrigger) (hdRevision.trans hrevision)
      exact ⟨htimes.1.trans hsame.1, htimes.2.trans hsame.2⟩

theorem saveJob_jobs_of_some {store : Store} {job old : Job}
    (h : store.getJob job.name = some old) :
    (store.saveJob job).jobs =
      KeyedRows.update Job.name job.name (fun _ => { job with id := old.id }) store.jobs := by
  unfold Store.saveJob
  rw [h]

theorem saveJob_update_jobs
    (h : PlannedUpdate s.tables.store.jobs name body newTriggerId now existing job) :
    (s.tables.store.saveJob job.stored).jobs =
      KeyedRows.update Job.name name (fun _ => savedJob (some existing) job)
        s.tables.store.jobs := by
  obtain rfl := h.job_name
  have hfound : s.tables.store.getJob job.stored.name = some existing := h.found
  rw [saveJob_jobs_of_some hfound]
  rfl

/-- Saving the old definition again undoes the update. -/
theorem saveJob_back_jobs (hs : s.Kept)
    (h : PlannedUpdate s.tables.store.jobs name body newTriggerId now existing job) :
    ((s.tables.store.saveJob job.stored).saveJob existing.stored).jobs = s.tables.store.jobs := by
  have hexisting : existing.Storable := hs.tables.jobsStorable _ (KeyedRows.find_mem h.found)
  obtain rfl := h.existing_name
  have hjobName : (savedJob (some existing) job).name = existing.name := h.job_name
  have hfound : (s.tables.store.saveJob job.stored).getJob existing.name =
      some (savedJob (some existing) job) := by
    unfold Store.getJob
    rw [saveJob_update_jobs h, KeyedRows.find_update fun _ _ => hjobName, if_pos rfl, h.found]
    rfl
  rw [hexisting.stored_eq, saveJob_jobs_of_some hfound, saveJob_update_jobs h]
  unfold KeyedRows.update
  rw [List.map_map]
  calc s.tables.store.jobs.map _
      = s.tables.store.jobs.map id := by
        apply List.map_congr_left
        intro row hrow
        by_cases hrowName : row.name = existing.name
        · have hrowIs : row = existing :=
            hs.tables.jobNames.eq_of_key hrow (KeyedRows.find_mem h.found) hrowName
          simp only [Function.comp_apply, if_pos hrowName, if_pos hjobName, id_eq]
          rw [hrowIs]
          rfl
        · simp only [Function.comp_apply, if_neg hrowName, id_eq]
    _ = s.tables.store.jobs := List.map_id _

/-- What an update must show besides of its checks. -/
structure UpdateFits (s : ScheduleHistory) (body existing : Job) (newTriggerId : Uuid) : Prop where
  revision : ¬body.SameTimes existing → existing.scheduleRevision + 1 < 2^63
  fresh : ∀ d ∈ s.known, d.triggerId ≠ newTriggerId

/-- The update was saved. -/
theorem Kept.updated (hs : s.Kept)
    (h : PlannedUpdate s.tables.store.jobs name body newTriggerId now existing job)
    (hfits : s.UpdateFits body existing newTriggerId) :
    Kept { s with
      tables := { s.tables with store := s.tables.store.saveJob job.stored }
      known := savedJob (some existing) job :: s.known
      committed := savedJob (some existing) job :: s.committed } := by
  have hcovered := updated_covered hs h hfits.revision hfits.fresh
  have hextended := @ScheduleHistory.Kept.extend_covered _ hs [savedJob (some existing) job]
    (fun d hd => by rwa [List.mem_singleton.mp hd]) (fun d hd d' hd' _ => by
      rw [List.mem_singleton.mp hd, List.mem_singleton.mp hd']
      exact ⟨rfl, rfl⟩)
  have hjobs := saveJob_update_jobs h
  have hmem : ∀ job' ∈ (s.tables.store.saveJob job.stored).jobs,
      job' = savedJob (some existing) job ∨ job' ∈ s.tables.store.jobs ∧ job'.name ≠ name := by
    intro job' hjob'
    rw [hjobs] at hjob'
    exact (hs.tables.jobNames.mem_update_iff h.found).mp hjob'
  have hbefore : existing.scheduleRevision ≤ (savedJob (some existing) job).scheduleRevision := by
    show existing.scheduleRevision ≤ job.stored.scheduleRevision
    rcases updated_identity hs h hfits.revision with ⟨-, hrevision⟩ | ⟨-, hrevision, -⟩
    · omega
    · omega
  have hexisting : existing ∈ s.tables.store.jobs := KeyedRows.find_mem h.found
  have hcross : ∀ d ∈ s.committed, d.id = existing.id →
      d.scheduleRevision ≤ (savedJob (some existing) job).scheduleRevision := fun d hd hid =>
    (hs.current existing hexisting d hd hid).trans hbefore
  constructor
  case tables =>
    have hsound := hs.tables.jobs.saveJob job
    exact .of hs.tables.specs hsound
  case stored =>
    intro job' hjob'
    rcases hmem job' hjob' with rfl | ⟨hold, -⟩
    · exact List.mem_cons_self
    · exact List.mem_cons_of_mem _ (hs.stored job' hold)
  case below =>
    intro d hd
    rcases List.mem_cons.mp hd with rfl | hd
    · exact List.mem_cons_self
    · exact List.mem_cons_of_mem _ (hs.below d hd)
  case named => exact hextended.1
  case schedules => exact hextended.2
  case revisions =>
    refine List.pairwise_cons.mpr ⟨?_, hs.revisions⟩
    intro d hd hid
    exact hcross d hd hid.symm
  case current =>
    intro job' hjob' d hd hid
    rcases hmem job' hjob' with rfl | ⟨hold, hother⟩
    · rcases List.mem_cons.mp hd with rfl | hd
      · exact le_rfl
      · exact hcross d hd hid
    · rcases List.mem_cons.mp hd with rfl | hd
      · have hname := hs.named existing (hs.stored existing hexisting) job' (hs.stored job' hold) hid
        exact absurd (hname.symm.trans h.existing_name) hother
      · exact hs.current job' hold d hd hid

/-- The update was taken back. -/
theorem Kept.takenBack (hs : s.Kept)
    (h : PlannedUpdate s.tables.store.jobs name body newTriggerId now existing job)
    (hfits : s.UpdateFits body existing newTriggerId) :
    Kept { s with
      tables := { s.tables with
        store := (s.tables.store.saveJob job.stored).saveJob existing.stored }
      known := savedJob (some existing) job :: s.known } := by
  have hcovered := updated_covered hs h hfits.revision hfits.fresh
  have hextended := @ScheduleHistory.Kept.extend_covered _ hs [savedJob (some existing) job]
    (fun d hd => by rwa [List.mem_singleton.mp hd]) (fun d hd d' hd' _ => by
      rw [List.mem_singleton.mp hd, List.mem_singleton.mp hd']
      exact ⟨rfl, rfl⟩)
  have hjobs := saveJob_back_jobs hs h
  constructor
  case tables =>
    refine .of hs.tables.specs ?_
    rw [hjobs]
    exact hs.tables.jobs
  case stored =>
    intro job' hjob'
    exact List.mem_cons_of_mem _ (hs.stored job' (hjobs ▸ hjob'))
  case below => exact fun d hd => List.mem_cons_of_mem _ (hs.below d hd)
  case named => exact hextended.1
  case schedules => exact hextended.2
  case revisions => exact hs.revisions
  case current => exact fun job' hjob' => hs.current job' (hjobs ▸ hjob')

theorem getJob_updated
    (h : PlannedUpdate s.tables.store.jobs name body newTriggerId now existing job) (n : String) :
    ((s.tables.store.saveJob job.stored).getJob n).isSome = true ↔
      (s.tables.store.getJob n).isSome = true := by
  have hname : (savedJob (some existing) job).name = name := h.job_name
  unfold Store.getJob
  rw [saveJob_update_jobs h, KeyedRows.find_update fun _ _ => hname]
  split
  · rw [Option.isSome_map]
  · rfl

theorem JournalSound.of_extends {s' : ScheduleHistory} {journal : ApplyJournal} (hs' : s'.Kept)
    (hjournal : s.JournalSound journal) (hknown : ∀ d ∈ s.known, d ∈ s'.known)
    (hnames : ∀ n, (s'.tables.store.getJob n).isSome = true ↔
      (s.tables.store.getJob n).isSome = true)
    (hcommitted : ∀ d ∈ s'.committed, d ∈ s.committed ∨
      (s'.tables.store.getJob d.name).isSome = true) : s'.JournalSound journal where
  target := hjournal.target.of_extends hs' hknown (fun job _ => (hnames job.name).mpr) hcommitted
  previous hback :=
    (hjournal.previous hback).of_extends hs' hknown (fun job _ => (hnames job.name).mpr) hcommitted
  sameNames hback n := (hnames n).trans (hjournal.sameNames hback n)

theorem Sound.finishUpdate (hs : s.Sound)
    (h : PlannedUpdate s.tables.store.jobs name body newTriggerId now existing job)
    (hfits : s.UpdateFits body existing newTriggerId) (restored : Bool) :
    (s.finishUpdate calendar existing job restored).Sound := by
  unfold ScheduleHistory.finishUpdate
  dsimp only
  split
  · have hkept := hs.updated h hfits
    refine ⟨hkept, fun journal hjournal => ?_⟩
    apply (hs.journal journal hjournal).of_extends hkept
    · exact fun d hd => List.mem_cons_of_mem _ hd
    · exact getJob_updated h
    · intro d hd
      rcases List.mem_cons.mp hd with rfl | hd
      · right
        have hname : (savedJob (some existing) job).name = existing.name :=
          h.job_name.trans h.existing_name.symm
        rw [hname]
        exact (getJob_updated h existing.name).mpr (getJob_of_mem (KeyedRows.find_mem h.found))
      · exact .inl hd
  · have hkept := hs.takenBack h hfits
    refine ⟨hkept, fun journal hjournal => ?_⟩
    apply (hs.journal journal hjournal).of_extends hkept
    · exact fun d hd => List.mem_cons_of_mem _ hd
    · intro n
      unfold Store.getJob
      rw [saveJob_back_jobs hs.toKept h]
    · exact fun d hd => .inl hd

end Update

section Prepare

variable {s : ScheduleHistory} {running : List String} {loaded : LoadedConfig} {mode : ApplyMode}
  {newTriggerIds : String → Uuid}

/-- A definition of a target has the id that is stored with its name, or comes from the file
under a name that is not stored. -/
theorem target_owner (hs : s.Kept) {job : Job}
    (hjob : job ∈ (s.target running loaded mode newTriggerIds).jobs) :
    (∃ old ∈ s.tables.store.jobs, old.id = job.id ∧ old.name = job.name) ∨
      s.tables.store.getJob job.name = none ∧
        ∃ entry ∈ loaded.jobs, entry.id = job.id ∧ entry.name = job.name := by
  obtain ⟨-, hunique, -, hfind⟩ := DefinitionTables.snapshot_find hs.tables running
  obtain ⟨hnames, htarget⟩ := @targetSnapshot_jobs _ loaded newTriggerIds mode hunique
  have hself := htarget job.name
  rw [hnames.find_of_mem hjob, hfind] at hself
  rcases Option.or_eq_some_iff.mp hself.symm with hloaded | ⟨-, hkept⟩
  · obtain ⟨entry, hentry, rfl⟩ := Option.map_eq_some_iff.mp hloaded
    have hentryMem : entry ∈ loaded.jobs := List.mem_reverse.mp (KeyedRows.find_mem hentry)
    rw [adoptIdentity_name]
    cases hold : KeyedRows.find Job.name entry.name s.tables.store.jobs with
    | some old =>
      refine .inl ⟨old, KeyedRows.find_mem hold, ?_, KeyedRows.find_key hold⟩
      unfold adoptIdentity
      rw [hfind, hold]
    | none =>
      refine .inr ⟨hold, entry, hentryMem, ?_, rfl⟩
      unfold adoptIdentity
      rw [hfind, hold]
      dsimp only
      split <;> rfl
  · left
    cases mode with
    | merge => exact ⟨job, KeyedRows.find_mem hkept, rfl, rfl⟩
    | replace => cases hkept

/-- Identifiers that a load has drawn are new, and each is drawn once. -/
structure DrawnNew (s : ScheduleHistory) (loaded : LoadedConfig) : Prop where
  once : (loaded.jobs.map (·.id)).Nodup
  new : ∀ job ∈ loaded.jobs, ∀ d ∈ s.known, d.id ≠ job.id

/-- The known definitions after the target was journaled and armed. -/
theorem Kept.prepared (hs : s.Kept) (hdrawn : s.DrawnNew loaded)
    (hfits : ∀ job ∈ (s.target running loaded mode newTriggerIds).jobs, ∀ d ∈ s.known,
      d.name = job.name → d.triggerId = job.triggerId →
        d.scheduleRevision = job.stored.scheduleRevision → d.SameTimes job.stored)
    (journal : Option ApplyJournal) :
    Kept { s with
      journal
      known := (s.target running loaded mode newTriggerIds).jobs.map Job.stored ++ s.known } := by
  obtain ⟨-, hunique, -, -⟩ := DefinitionTables.snapshot_find hs.tables running
  have hnames := (@targetSnapshot_jobs _ loaded newTriggerIds mode hunique).1
  have hids : ∀ job ∈ (s.target running loaded mode newTriggerIds).jobs, ∀ d ∈ s.known,
      d.id = job.id → d.name = job.name := by
    intro job hjob d hd hid
    rcases target_owner hs hjob with ⟨old, hold, holdId, holdName⟩ | ⟨-, entry, hentry, hentryId, -⟩
    · rw [← holdName]
      exact hs.named d hd old (hs.stored old hold) (hid.trans holdId.symm)
    · exact absurd (hid.trans hentryId.symm) (hdrawn.new entry hentry d hd)
  have hextended := @ScheduleHistory.Kept.extend _ hs
    ((s.target running loaded mode newTriggerIds).jobs.map Job.stored) (by
      intro d hd d' hd' hid
      obtain ⟨job, hjob, rfl⟩ := List.mem_map.mp hd
      exact hids job hjob d' hd' hid) (by
      intro d hd d' hd' hid
      obtain ⟨job, hjob, rfl⟩ := List.mem_map.mp hd
      obtain ⟨job', hjob', rfl⟩ := List.mem_map.mp hd'
      have hid : job.id = job'.id := hid
      rcases target_owner hs hjob with ⟨old, hold, holdId, holdName⟩ | ⟨-, entry, hentry, hentryId, hentryName⟩
      · exact holdName.symm.trans (hids job' hjob' old (hs.stored old hold) (holdId.trans hid))
      · rcases target_owner hs hjob' with
          ⟨old, hold, holdId, -⟩ | ⟨-, entry', hentry', hentryId', hentryName'⟩
        · exact absurd (holdId.trans (hid.symm.trans hentryId.symm))
            (hdrawn.new entry hentry old (hs.stored old hold))
        · have hsame : entry = entry' := List.inj_on_of_nodup_map hdrawn.once hentry hentry'
            (hentryId.trans (hid.trans hentryId'.symm))
          show job.name = job'.name
          rw [← hentryName, ← hentryName', hsame]) (by
      intro d hd d' hd' hname htrigger hrevision
      obtain ⟨job, hjob, rfl⟩ := List.mem_map.mp hd
      exact hfits job hjob d' hd' hname htrigger hrevision) (by
      intro d hd d' hd' hname
      obtain ⟨job, hjob, rfl⟩ := List.mem_map.mp hd
      obtain ⟨job', hjob', rfl⟩ := List.mem_map.mp hd'
      rw [hnames.eq_of_key hjob hjob' hname]
      exact ⟨rfl, rfl⟩)
  exact
    { tables := hs.tables
      stored := fun job hjob => List.mem_append_right _ (hs.stored job hjob)
      below := fun d hd => List.mem_append_right _ (hs.below d hd)
      named := hextended.1
      schedules := hextended.2
      revisions := hs.revisions
      current := hs.current }

theorem Sound.prepared (hs : s.Kept) (hdrawn : s.DrawnNew loaded)
    (hfits : ∀ job ∈ (s.target running loaded mode newTriggerIds).jobs, ∀ d ∈ s.known,
      d.name = job.name → d.triggerId = job.triggerId →
        d.scheduleRevision = job.stored.scheduleRevision → d.SameTimes job.stored) :
    Sound { s with
      journal := some
        { previous := s.tables.snapshot running
          target := s.target running loaded mode newTriggerIds }
      known := (s.target running loaded mode newTriggerIds).jobs.map Job.stored ++ s.known } := by
  obtain ⟨hprocesses, hunique, -, hfind⟩ := DefinitionTables.snapshot_find hs.tables running
  have hnames := (@targetSnapshot_jobs _ loaded newTriggerIds mode hunique).1
  refine ⟨hs.prepared hdrawn hfits _, ?_⟩
  intro journal hjournal
  obtain rfl := Option.some.inj hjournal
  constructor
  case target =>
    refine ⟨(targetSnapshot_processes mode hprocesses).1, hnames, ?_, ?_⟩
    · exact fun job hjob => List.mem_append_left _ (List.mem_map_of_mem hjob)
    · intro job hjob
      rcases target_owner hs hjob with ⟨old, hold, -, holdName⟩ | ⟨-, entry, hentry, hentryId, -⟩
      · left
        rw [← holdName]
        exact getJob_of_mem hold
      · right
        intro d hd hid
        exact hdrawn.new entry hentry d (hs.below d hd) (hid.trans hentryId.symm)
  case previous =>
    intro _
    have hmem : ∀ job ∈ (s.tables.snapshot running).jobs, job ∈ s.tables.store.jobs := fun job hjob =>
      (sortByName_perm Job.name s.tables.store.jobs).mem_iff.mp hjob
    refine ⟨hprocesses, hunique, ?_, ?_⟩
    · intro job hjob
      rw [(hs.tables.jobsStorable job (hmem job hjob)).stored_eq]
      exact List.mem_append_right _ (hs.stored job (hmem job hjob))
    · exact fun job hjob => .inl (getJob_of_mem (hmem job hjob))
  case sameNames =>
    intro _ n
    dsimp only
    rw [hfind]
    rfl

end Prepare

section Runs

variable {calendar : Calendar} {s t : ScheduleHistory}

theorem Sound.step {e : ScheduleCall} (hs : s.Sound) (hfits : s.Fits e)
    (h : (machine calendar).step s e = some t) : t.Sound := by
  cases e with
  | updateJob name body newTriggerId now restored =>
    simp only [machine, ScheduleHistory.step] at h
    split at h
    · cases h
    · rename_i hfresh
      split at h
      · cases h
        exact hs
      · rename_i existing job hplan
        cases h
        have hplanned := planUpdate_ok_iff.mp hplan
        apply hs.finishUpdate hplanned
        refine ⟨hfits existing hplanned.found, ?_⟩
        intro d hd hid
        exact hfresh ⟨d, hd, hid⟩
  | prepareApply running loaded mode newTriggerIds now =>
    simp only [machine, ScheduleHistory.step] at h
    split at h
    · cases h
    split at h
    · cases h
    · rename_i hdrawn
      split at h
      · cases h
        exact hs
      · cases h
        obtain ⟨honce, hnew⟩ := not_or.mp hdrawn
        apply Sound.prepared hs.toKept _ hfits
        refine ⟨not_not.mp honce, ?_⟩
        intro job hjob d hd hid
        exact hnew ⟨job, hjob, d, hd, hid⟩
  | goForward =>
    obtain ⟨journal, hjournal, rfl⟩ := Option.map_eq_some_iff.mp h
    refine ⟨⟨hs.tables, hs.stored, hs.below, hs.named, hs.schedules, hs.revisions, hs.current⟩, ?_⟩
    intro journal' hjournal'
    obtain rfl := Option.some.inj hjournal'
    have hbefore := hs.journal journal hjournal
    refine ⟨⟨hbefore.target.processNames, hbefore.target.names, hbefore.target.known,
      hbefore.target.new⟩, ?_, ?_⟩
    · intro hback
      cases hback
    · intro hback
      cases hback
  | commitTarget =>
    obtain ⟨journal, hjournal, rfl⟩ := Option.map_eq_some_iff.mp h
    obtain ⟨hjournal, hforward⟩ := Option.filter_eq_some_iff.mp hjournal
    exact hs.write hjournal (.inl ⟨rfl, hforward⟩) (hfits journal hjournal)
  | restorePrevious =>
    obtain ⟨journal, hjournal, rfl⟩ := Option.map_eq_some_iff.mp h
    obtain ⟨hjournal, hback⟩ := Option.filter_eq_some_iff.mp hjournal
    exact hs.write hjournal (.inr ⟨rfl, by simpa using hback⟩) (hfits journal hjournal)
  | clearJournal =>
    cases h
    refine ⟨⟨hs.tables, hs.stored, hs.below, hs.named, hs.schedules, hs.revisions, hs.current⟩, ?_⟩
    intro journal hjournal
    cases hjournal

/-- In every run whose updates and configuration applies fit, a schedule identity stands for
one schedule, no revision of a job is set back, and no tick is taken for another schedule. -/
theorem run_fresh (htables : s.tables.Sound) (hids : KeyedRows.Unique Job.id s.tables.store.jobs)
    (hknown : s.known = s.tables.store.jobs) (hcommitted : s.committed = s.tables.store.jobs)
    (hjournal : s.journal = none) (hrun : (machine calendar).Run Fits s t) : t.Fresh := by
  have hsame : ∀ d ∈ s.tables.store.jobs, ∀ d' ∈ s.tables.store.jobs, d.id = d'.id → d = d' :=
    fun d hd d' hd' hid => hids.eq_of_key hd hd' hid
  have hstart : s.Sound := by
    constructor
    · constructor
      case tables => exact htables
      case stored => exact fun job hjob => hknown ▸ hjob
      case below => exact fun d hd => hknown ▸ hcommitted ▸ hd
      case named =>
        rw [hknown]
        intro d hd d' hd' hid
        rw [hsame d hd d' hd' hid]
      case schedules =>
        rw [hknown]
        intro d hd d' hd' hname _ _
        rw [htables.jobNames.eq_of_key hd hd' hname]
        exact ⟨rfl, rfl⟩
      case revisions =>
        rw [hcommitted]
        apply List.pairwise_of_forall_mem_list
        intro later hlater earlier hearlier hid
        rw [hsame later hlater earlier hearlier hid]
      case current =>
        rw [hcommitted]
        intro job hjob d hd hid
        rw [hsame d hd job hjob hid]
    · intro journal hmem
      rw [hjournal] at hmem
      cases hmem
  have hend : t.Sound :=
    hrun.invariant (fun u e v hu hfits hstep => Sound.step hu hfits hstep) hstart
  exact hend.fresh

section Reuse

def nightlyJob : Job :=
  { id := ⟨1⟩
    name := "backup"
    command := "/bin/true"
    trigger := .cron "0 2 * * *"
    triggerId := 7 }

/-- One job is stored. -/
def oneJob : ScheduleHistory :=
  { tables := { store := { jobs := [nightlyJob] } }
    known := [nightlyJob]
    committed := [nightlyJob] }

/-- An entry for the job, with another expression. -/
def loadedEntry (triggerId : Uuid) (scheduleRevision : ℕ) : LoadedConfig :=
  { jobs := [{ nightlyJob with
      id := ⟨2⟩, trigger := .cron "0 3 * * *", triggerId, scheduleRevision }] }

def applyCalls (loaded : LoadedConfig) : List ScheduleCall :=
  [.prepareApply [] loaded .replace (fun _ => 0) 0, .goForward, .commitTarget, .clearJournal]

/-- A configuration that draws a trigger id and does not set the revision back, and then an
update, give the job two more identities. -/
theorem oneJob_fresh : ∃ t : ScheduleHistory, t.Fresh ∧
    t.tables.store.jobs.map (fun job => (job.triggerId, job.scheduleRevision)) = [(9, 1)] := by
  obtain ⟨t, hrun, hjobs⟩ := Machine.exists_run_of_execUnder (M := machine .hourly)
    (C := Fits) (s := oneJob)
    (fun t => t.tables.store.jobs.map (fun job => (job.triggerId, job.scheduleRevision)) = [(9, 1)])
    (applyCalls (loadedEntry 8 0) ++
      [.updateJob "backup" { nightlyJob with trigger := .cron "0 * * * *" } 9 0 true])
    (by decide +kernel)
  have htables : oneJob.tables.Sound := by
    have hempty (α : Type) (p : α → Prop) : ∀ a ∈ ([] : List α), p a :=
      fun a ha => absurd ha List.not_mem_nil
    have hstorable : nightlyJob.Storable := by
      refine ⟨?_, ?_, by decide⟩
      · intro every h
        cases h
      · intro timeout h
        cases h
    refine .of ⟨List.nodup_nil, List.nodup_nil, hempty _ _⟩ ⟨List.nodup_singleton _, ?_⟩
    intro job hjob
    rwa [List.mem_singleton.mp hjob]
  have hids : KeyedRows.Unique Job.id oneJob.tables.store.jobs := List.nodup_singleton _
  exact ⟨t, run_fresh htables hids rfl rfl rfl hrun, of_decide_eq_true hjobs⟩

/-- A configuration with another expression under the stored trigger id: the revision of the
file is zero, as the stored one, and one identity stands for two schedules. -/
theorem oneJob_reused : ∃ t, (machine .hourly).Reaches oneJob t ∧ ¬t.Fresh := by
  obtain ⟨t, hrun, hknown⟩ := Machine.exists_reaches_of_exec (M := machine .hourly) (s := oneJob)
    (fun t => ∃ d ∈ t.known, ∃ d' ∈ t.known, d.id = d'.id ∧ d.triggerId = d'.triggerId ∧
      d.scheduleRevision = d'.scheduleRevision ∧ ¬d.SameTimes d')
    (applyCalls (loadedEntry 7 0)) (by decide +kernel)
  obtain ⟨d, hd, d', hd', hid, htrigger, hrevision, hother⟩ := of_decide_eq_true hknown
  refine ⟨t, hrun, ?_⟩
  intro hfresh
  exact hother (hfresh.triples d hd d' hd' hid htrigger hrevision)

end Reuse

end Runs

end ScheduleHistory

end Supervisor
