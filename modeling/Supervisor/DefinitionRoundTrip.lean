import Mathlib.Data.ZMod.Defs
import Supervisor.DefinitionTables
import Supervisor.HttpMapping

namespace Supervisor

/-! The tables of definitions with their rows as the columns hold them. -/

/-- `save_spec_transaction`: the row of a name that is there keeps its identity. -/
def upsertSpec (rows : List SpecRow) (spec : ProcessSpec) : Except RepoError (List SpecRow) :=
  match KeyedRows.find SpecRow.name spec.name rows with
  | some _ =>
    .ok (KeyedRows.update SpecRow.name spec.name
      (fun old => { SpecRow.ofSpec spec with definitionId := old.definitionId }) rows)
  | none =>
    if rows.any fun row => row.definitionId = spec.definitionId then .error Store.uniqueFailed
    else .ok (rows ++ [.ofSpec spec])

def getSpec (rows : List SpecRow) (name : String) : Option ProcessSpec :=
  (KeyedRows.find SpecRow.name name rows).map SpecRow.toSpec

/-- `save_job` -/
def upsertJob (rows : List JobRow) (job : Job) : List JobRow :=
  match KeyedRows.find JobRow.name job.name rows with
  | some _ => KeyedRows.update JobRow.name job.name
      (fun old => { JobRow.ofJob job with id := old.id }) rows
  | none => rows ++ [.ofJob job]

def getJob (rows : List JobRow) (name : String) : Option Job :=
  (KeyedRows.find JobRow.name name rows).map JobRow.toJob

/-- What a column of milliseconds keeps of a duration: `min(i64::MAX)`. -/
def Duration.cut (d : Duration) : Duration := .fromMillis (min d.asMillis (2^63 - 1))

def ProcessSpec.cut (spec : ProcessSpec) : ProcessSpec :=
  { spec with
    restart :=
      { spec.restart with
        backoffInitial := spec.restart.backoffInitial.cut
        backoffMax := spec.restart.backoffMax.cut
        resetAfter := spec.restart.resetAfter.cut }
    shutdown := { spec.shutdown with gracePeriod := spec.shutdown.gracePeriod.cut } }

/-- The definitions that a request body or a configuration file can be converted to. -/
inductive ProcessSpec.Converted : ProcessSpec → Prop where
  | http (dto : ProcessConfigDto) : Converted (Mapping.processConfigToSpec dto)
  | config (dto : ProcessConfigDto) : Converted (Convert.processSpec dto)

inductive Job.Converted : Job → Prop where
  | http (host : ConfigHost) (dto : JobConfigDto) (id : JobId) (newTriggerId : Uuid) :
      Converted (Mapping.jobConfigToJob host dto id newTriggerId)
  | config (host : ConfigHost) (dto : JobConfigDto) (id : JobId) (newTriggerId : Uuid) :
      Converted (Convert.job host dto id newTriggerId)

section Tables

theorem SpecRow.toSpec_withId (row : SpecRow) (definitionId : ProcessDefinitionId) :
    { row with definitionId }.toSpec = { row.toSpec with definitionId } :=
  rfl

theorem JobRow.toJob_withId (row : JobRow) (id : JobId) :
    { row with id }.toJob = { row.toJob with id } :=
  rfl

theorem ProcessSpec.withId_self {spec : ProcessSpec} {id : ProcessDefinitionId}
    (h : spec.definitionId = id) : { spec with definitionId := id } = spec := by
  subst h
  rfl

theorem getSpec_upsertSpec {rows rows' : List SpecRow} {spec : ProcessSpec}
    (h : upsertSpec rows spec = .ok rows') :
    getSpec rows' spec.name = some { spec.stored with
      definitionId := ((KeyedRows.find SpecRow.name spec.name rows).map
        SpecRow.definitionId).getD spec.definitionId } := by
  unfold upsertSpec at h
  unfold getSpec
  split at h
  · rename_i old hold
    cases h
    have hname (row : SpecRow) (_ : row.name = spec.name) :
        { SpecRow.ofSpec spec with definitionId := row.definitionId }.name = spec.name := rfl
    rw [KeyedRows.find_update hname, if_pos rfl, hold, Option.map_some, Option.map_some,
      SpecRow.toSpec_withId]
    rfl
  · rename_i hnone
    split at h
    · cases h
    · cases h
      have hname : (SpecRow.ofSpec spec).name = spec.name := rfl
      rw [KeyedRows.find_append, KeyedRows.find_singleton, if_pos hname, hnone]
      exact congrArg some (ProcessSpec.withId_self rfl).symm

theorem upsertSpec_nil (spec : ProcessSpec) : upsertSpec [] spec = .ok [.ofSpec spec] := rfl

theorem getJob_upsertJob (rows : List JobRow) (job : Job) :
    getJob (upsertJob rows job) job.name = some { job.stored with
      id := ((KeyedRows.find JobRow.name job.name rows).map JobRow.id).getD job.id } := by
  unfold upsertJob getJob
  split
  · rename_i old hold
    have hname (row : JobRow) (_ : row.name = job.name) :
        { JobRow.ofJob job with id := row.id }.name = job.name := rfl
    rw [KeyedRows.find_update hname, if_pos rfl, hold, Option.map_some, Option.map_some,
      JobRow.toJob_withId]
    rfl
  · rename_i hnone
    have hname : (JobRow.ofJob job).name = job.name := rfl
    rw [KeyedRows.find_append, KeyedRows.find_singleton, if_pos hname, hnone]
    rfl

end Tables

section Columns

variable {spec : ProcessSpec} {job : Job}

theorem Duration.cut_storable (d : Duration) : d.cut.Storable :=
  ⟨min d.asMillis (2^63 - 1), by omega, rfl⟩

theorem saturateI64_cut (d : Duration) : saturateI64 d.cut.asMillis = saturateI64 d.asMillis := by
  unfold Duration.cut saturateI64
  rw [Duration.asMillis_fromMillis]
  congr 1
  omega

/-- The columns of a definition do not tell it from the one with its durations cut. -/
theorem ProcessSpec.stored_eq_cut (h : spec.restart.backoffMultiplier ≠ 0) :
    spec.stored = spec.cut := by
  have hstorable : spec.cut.Storable :=
    { backoffInitial := spec.restart.backoffInitial.cut_storable
      backoffMax := spec.restart.backoffMax.cut_storable
      backoffMultiplier := h
      resetAfter := spec.restart.resetAfter.cut_storable
      gracePeriod := spec.shutdown.gracePeriod.cut_storable }
  have hrow : SpecRow.ofSpec spec.cut = SpecRow.ofSpec spec := by
    unfold SpecRow.ofSpec ProcessSpec.cut
    dsimp only
    rw [saturateI64_cut, saturateI64_cut, saturateI64_cut, saturateI64_cut]
  calc spec.stored = (SpecRow.ofSpec spec.cut).toSpec := by rw [hrow]; rfl
    _ = spec.cut := hstorable.stored_eq

theorem Duration.Storable.cut_eq {d : Duration} (h : d.Storable) : d.cut = d := by
  obtain ⟨n, hn, rfl⟩ := h
  unfold Duration.cut
  rw [Duration.asMillis_fromMillis]
  congr 1
  omega

theorem ProcessSpec.Storable.cut_eq (h : spec.Storable) : spec.cut = spec := by
  unfold ProcessSpec.cut
  rw [h.backoffInitial.cut_eq, h.backoffMax.cut_eq, h.resetAfter.cut_eq, h.gracePeriod.cut_eq]

theorem Job.Converted.storable (h : job.Converted) (hrevision : job.scheduleRevision < 2^63) :
    job.Storable := by
  have hinterval (dto : JobTriggerDto) (every : Duration)
      (hevery : Convert.jobTrigger dto = .interval every) : ∃ n, every = .fromSecs n := by
    cases dto with
    | interval everySec => exact ⟨everySec.val, (JobTrigger.interval.inj hevery).symm⟩
    | cron | oneShot | dependsOn => cases hevery
  have htimeout (timeoutSec : Option U64) (timeout : Duration)
      (ht : timeout ∈ timeoutSec.map fun secs => Duration.fromSecs secs.val) :
      ∃ n < 2^64, timeout = .fromSecs n := by
    obtain ⟨secs, -, rfl⟩ := Option.map_eq_some_iff.mp ht
    exact ⟨secs.val, secs.isLt, rfl⟩
  cases h with
  | http host dto id newTriggerId =>
    have htrigger : Mapping.jobTriggerToDomain dto.trigger = Convert.jobTrigger dto.trigger := by
      cases dto.trigger <;> rfl
    refine ⟨?_, htimeout dto.timeoutSec, hrevision⟩
    intro every hevery
    exact hinterval dto.trigger every (htrigger ▸ hevery)
  | config host dto id newTriggerId =>
    exact ⟨hinterval dto.trigger, htimeout dto.timeoutSec, hrevision⟩

end Columns

/-- What is read back after a definition has been saved, over whatever rows there were: a
process definition with its durations cut to the columns, which takes nothing from an entry with
signed 64-bit integers, and a job as it was; each under the identity of the row it replaces. -/
theorem saved_readBack :
    (∀ (rows rows' : List SpecRow) (spec : ProcessSpec), spec.Converted →
      spec.validate = .ok () → upsertSpec rows spec = .ok rows' →
        getSpec rows' spec.name = some { spec.cut with
          definitionId := ((KeyedRows.find SpecRow.name spec.name rows).map
            SpecRow.definitionId).getD spec.definitionId }) ∧
    (∀ dto : ProcessConfigDto, (∀ n ∈ dto.integers, n.val < 2^63) →
      (Convert.processSpec dto).validate = .ok () →
        (Convert.processSpec dto).cut = Convert.processSpec dto ∧
          (Mapping.processConfigToSpec dto).cut = Mapping.processConfigToSpec dto) ∧
    ∀ (rows : List JobRow) (job : Job) (existing : List Job) (now : Instant)
      (allowPastOneShot : Bool), job.Converted →
      job.validate existing now allowPastOneShot = .ok () → job.scheduleRevision < 2^63 →
        getJob (upsertJob rows job) job.name = some { job with
          id := ((KeyedRows.find JobRow.name job.name rows).map JobRow.id).getD job.id } := by
  refine ⟨?_, ?_, ?_⟩
  · intro rows rows' spec _ hvalid hsave
    rw [getSpec_upsertSpec hsave,
      ProcessSpec.stored_eq_cut (ProcessSpec.validate_multiplier hvalid)]
  · intro dto hdto hvalid
    rw [processConfigToSpec_eq]
    have hcut := (processSpec_storable hdto (ProcessSpec.validate_multiplier hvalid)).cut_eq
    exact ⟨hcut, hcut⟩
  · intro rows job _ _ _ hconverted _ hrevision
    rw [getJob_upsertJob, (hconverted.storable hrevision).stored_eq]

section Inputs

/-- A process entry of a request body. -/
def graceEntry (gracePeriodMs : U64) : ProcessConfigDto :=
  { name := "web"
    command := "/usr/bin/web"
    shutdown := some { gracePeriodMs := some gracePeriodMs } }

def postedEntry (scheduleRevision : U64) : JobConfigDto :=
  { name := "nightly"
    command := "/bin/true"
    trigger := .interval 60
    scheduleRevision := some scheduleRevision }

/-- The job that two requests of one body draw different identifiers for. -/
def postedJob (scheduleRevision : U64) (id : ℕ) : Job :=
  Mapping.jobConfigToJob bareHost (postedEntry scheduleRevision) ⟨id⟩ 7

theorem web_nightly_readBack :
    getSpec [.ofSpec (Mapping.processConfigToSpec (graceEntry 5000))] "web" =
        some (Mapping.processConfigToSpec (graceEntry 5000)) ∧
      getJob (upsertJob [.ofJob (postedJob 3 1)] (postedJob 4 2)) "nightly" =
        some { postedJob 4 2 with id := ⟨1⟩ } := by
  have hspec := saved_readBack.1 [] [.ofSpec (Mapping.processConfigToSpec (graceEntry 5000))]
    (Mapping.processConfigToSpec (graceEntry 5000)) (.http _) (by decide +kernel)
    (upsertSpec_nil _)
  have hintegers : (graceEntry 5000).integers = [5000] := rfl
  have hsmall (n : U64) (hn : n ∈ (graceEntry 5000).integers) : n.val < 2^63 := by
    rw [hintegers] at hn
    rw [List.mem_singleton.mp hn]
    decide
  have hcut := (saved_readBack.2.1 (graceEntry 5000) hsmall (by decide +kernel)).2
  have hjob := saved_readBack.2.2 [.ofJob (postedJob 3 1)] (postedJob 4 2) [] 0 false (.http ..)
    (by decide +kernel) (by decide +kernel)
  constructor
  · rw [hcut] at hspec
    exact hspec
  · exact hjob

/-- A grace period and a schedule revision past `i64::MAX`, and a body sent for a name that is
there. -/
theorem saved_unequal :
    (∃ rows, upsertSpec [] (Mapping.processConfigToSpec (graceEntry (2^63))) = .ok rows ∧
      getSpec rows "web" ≠ some (Mapping.processConfigToSpec (graceEntry (2^63)))) ∧
    getJob (upsertJob [] (postedJob (2^63) 1)) "nightly" =
      some { postedJob (2^63) 1 with scheduleRevision := 0 } ∧
    getJob (upsertJob [.ofJob (postedJob 3 1)] (postedJob 3 2)) "nightly" ≠
      some (postedJob 3 2) := by
  refine ⟨⟨_, upsertSpec_nil _, ?_⟩, ?_, ?_⟩
  · decide +kernel
  · decide +kernel
  · decide +kernel

end Inputs

end Supervisor
