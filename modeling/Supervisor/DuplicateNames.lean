import Supervisor.DefinitionTables

namespace Supervisor

/-- What the calls on a configuration read of the facade. -/
structure ConfigFacade where
  tables : DefinitionTables := {}
  running : List String := []
  isApplyingConfig : Bool := false
  incompleteApplies : List Uuid := []

namespace ConfigFacade

/-- `validate_config` -/
def validateConfig (s : ConfigFacade) (loaded : LoadedConfig) (mode : ApplyMode)
    (newTriggerIds : String → Uuid) (now : Instant) : Except AppError ConfigDiff :=
  let current := s.tables.snapshot s.running
  let target := targetSnapshot current loaded mode newTriggerIds
  (validateConfigSnapshot current target now).map fun () => configDiff current target

/-- `apply_config`. What follows the plan, from the journal on, is `converge`. -/
def applyConfig (s : ConfigFacade)
    (converge : ConfigFacade → ConfigSnapshot → ConfigSnapshot →
      ConfigFacade × Except AppError ConfigDiff)
    (loaded : LoadedConfig) (mode : ApplyMode) (dryRun : Bool) (newTriggerIds : String → Uuid)
    (now : Instant) : ConfigFacade × Except AppError ConfigDiff :=
  if s.isApplyingConfig then
    (s, .error (.configRecoveryRequired "another config apply is in progress"))
  else if !s.incompleteApplies.isEmpty then
    (s, .error (.configRecoveryRequired "an incomplete config apply must be recovered first"))
  else
    let previous := s.tables.snapshot s.running
    let target := targetSnapshot previous loaded mode newTriggerIds
    match validateConfigSnapshot previous target now with
    | .error e => (s, .error e)
    | .ok () =>
      if dryRun then (s, .ok (configDiff previous target)) else converge s previous target

end ConfigFacade

/-- The errors that the validation of a configuration answers. -/
def AppError.IsValidation : AppError → Prop
  | .invalidConfig _ | .invalidRequest _ | .cycleDetected => True
  | _ => False

/-- The configuration is refused by both calls, and nothing has changed. -/
structure ConfigFacade.Refuses (s : ConfigFacade)
    (converge : ConfigFacade → ConfigSnapshot → ConfigSnapshot →
      ConfigFacade × Except AppError ConfigDiff)
    (loaded : LoadedConfig) (mode : ApplyMode) (newTriggerIds : String → Uuid) (now : Instant) :
    Prop where
  validate : ∃ e : AppError, e.IsValidation ∧
    s.validateConfig loaded mode newTriggerIds now = .error e
  apply : ∀ dryRun, ∃ e : AppError,
    s.applyConfig converge loaded mode dryRun newTriggerIds now = (s, .error e) ∧
      (s.isApplyingConfig = false → s.incompleteApplies = [] → e.IsValidation)

/-- Two entries of a file under one name. -/
def LoadedConfig.HasDuplicates (loaded : LoadedConfig) : Prop :=
  ¬ KeyedRows.Unique ProcessSpec.name loaded.processes ∨ ¬ KeyedRows.Unique Job.name loaded.jobs

section Kept

variable {α : Type} (name : α → String)

/-- Of each name the last entry. -/
def lastEntries : List α → List α
  | [] => []
  | x :: xs => if name x ∈ xs.map name then lastEntries xs else x :: lastEntries xs

/-- The entries of a file over those that are stored. -/
def ApplyMode.overlay (mode : ApplyMode) (stored xs : List α) : List α :=
  let base := match mode with
    | .merge => stored.filter fun row => name row ∉ xs.map name
    | .replace => []
  base ++ lastEntries name xs

/-- The definitions that stay when of each name only the last entry counts. -/
def keptConfig (current : ConfigSnapshot) (loaded : LoadedConfig) (mode : ApplyMode)
    (newTriggerIds : String → Uuid) : ConfigSnapshot :=
  { processes := sortByName ProcessSpec.name
      (mode.overlay ProcessSpec.name current.processes loaded.processes)
    jobs := sortByName Job.name (mode.overlay Job.name current.jobs
      (loaded.jobs.map fun job => adoptIdentity current.jobs (newTriggerIds job.name) job))
    runningDirectProcesses := current.runningDirectProcesses }

variable {name} {rows xs : List α}

theorem lastEntries_cons (x : α) (xs : List α) : lastEntries name (x :: xs) =
    if name x ∈ xs.map name then lastEntries name xs else x :: lastEntries name xs :=
  rfl

theorem lastEntries_eq_self (hu : KeyedRows.Unique name xs) : lastEntries name xs = xs := by
  induction xs with
  | nil => rfl
  | cons x xs ih =>
    have hcons := List.nodup_cons.mp hu
    unfold lastEntries
    rw [if_neg hcons.1, ih hcons.2]

theorem length_lastEntries_le (xs : List α) : (lastEntries name xs).length ≤ xs.length := by
  induction xs with
  | nil => exact Nat.le_refl 0
  | cons x xs ih =>
    unfold lastEntries
    rw [List.length_cons]
    split
    · omega
    · rw [List.length_cons]
      omega

/-- An entry is left out exactly when a name comes twice. -/
theorem length_lastEntries_lt_iff :
    (lastEntries name xs).length < xs.length ↔ ¬ KeyedRows.Unique name xs := by
  constructor
  · intro hlt hu
    rw [lastEntries_eq_self hu] at hlt
    omega
  · intro hdup
    induction xs with
    | nil => exact absurd List.nodup_nil hdup
    | cons x xs ih =>
      unfold lastEntries
      rw [List.length_cons]
      have hle := @length_lastEntries_le _ name xs
      split
      · omega
      · rename_i hnew
        have hrest : ¬ KeyedRows.Unique name xs := fun hu => hdup (List.nodup_cons.mpr ⟨hnew, hu⟩)
        have hlt := ih hrest
        rw [List.length_cons]
        omega

theorem foldl_insert_eq (rows xs : List α) :
    xs.foldl (KeyedRows.insert name) rows =
      (rows.filter fun row => name row ∉ xs.map name) ++ lastEntries name xs := by
  induction xs generalizing rows with
  | nil => simp [lastEntries]
  | cons x xs ih =>
    have hrows : (rows.filter fun row => decide (name row ≠ name x)).filter
        (fun row => name row ∉ xs.map name) =
          rows.filter fun row => name row ∉ (x :: xs).map name := by
      rw [List.filter_filter]
      apply List.filter_congr
      intro row _
      rw [List.map_cons]
      by_cases hx : name row = name x <;> simp [hx]
    rw [List.foldl_cons, ih, KeyedRows.insert, List.filter_append, hrows, List.append_assoc]
    congr 1
    rw [lastEntries_cons]
    by_cases hagain : name x ∈ xs.map name
    · rw [if_pos hagain, List.filter_singleton]
      simp [hagain]
    · rw [if_neg hagain, List.filter_singleton]
      simp [hagain]

/-- The map that the target is built in keeps of each name the last entry. -/
theorem targetSnapshot_eq_kept {current : ConfigSnapshot}
    (hp : KeyedRows.Unique ProcessSpec.name current.processes)
    (hj : KeyedRows.Unique Job.name current.jobs) (loaded : LoadedConfig) (mode : ApplyMode)
    (newTriggerIds : String → Uuid) :
    targetSnapshot current loaded mode newTriggerIds =
      keptConfig current loaded mode newTriggerIds := by
  have hcollect {β : Type} {key : β → String} {rows : List β} (hu : KeyedRows.Unique key rows) :
      rows.foldl (KeyedRows.insert key) [] = rows := by
    rw [foldl_insert_eq, lastEntries_eq_self hu]
    rfl
  unfold targetSnapshot keptConfig ApplyMode.overlay
  cases mode with
  | merge =>
    dsimp only
    rw [hcollect hp, hcollect hj, foldl_insert_eq, foldl_insert_eq]
  | replace =>
    dsimp only
    rw [foldl_insert_eq, foldl_insert_eq]
    rfl

end Kept

section Accepted

/-- A process definition that an apply may put in place of the stored one. -/
structure ProcessSpec.Accepted (previous : List ProcessSpec) (spec : ProcessSpec) : Prop where
  valid : spec.validate = .ok ()
  mode : ∀ old ∈ previous.find? fun existing => existing.name = spec.name,
    old.managementMode = spec.managementMode

/-- A job definition that is valid beside the others. -/
structure Job.Accepted (previous jobs : List Job) (now : Instant) (job : Job) : Prop where
  valid : job.validate (jobs.filter fun other => other.name ≠ job.name) now
    (previous.any fun existing => existing.name = job.name) = .ok ()
  acyclic : formsCycle job (jobs.filter fun other => other.name ≠ job.name) = false

/-- Each definition is valid by itself. -/
structure ConfigSnapshot.Accepted (previous target : ConfigSnapshot) (now : Instant) : Prop where
  processes : ∀ spec ∈ target.processes, spec.Accepted previous.processes
  jobs : ∀ job ∈ target.jobs, job.Accepted previous.jobs target.jobs now

variable {previous target : ConfigSnapshot} {now : Instant}

/-- Names that are new after one more name has been seen. -/
theorem forall_fresh_cons_iff {α : Type} {key : α → String} {P : α → Prop} {rows : List α}
    {name : String} {names : List String} :
    (∀ row ∈ rows, P row ∧ key row ∉ name :: names) ↔
      (∀ row ∈ rows, P row ∧ key row ∉ names) ∧ name ∉ rows.map key := by
  constructor
  · intro hall
    refine ⟨fun row hrow => ⟨(hall row hrow).1, fun h => ?_⟩, fun hmem => ?_⟩
    · exact (hall row hrow).2 (List.mem_cons_of_mem _ h)
    · obtain ⟨row, hrow, hname⟩ := List.mem_map.mp hmem
      exact (hall row hrow).2 (hname ▸ List.mem_cons_self ..)
  · rintro ⟨hall, hfirst⟩ row hrow
    refine ⟨(hall row hrow).1, fun hmem => ?_⟩
    rcases List.mem_cons.mp hmem with hname | hold
    · exact hfirst (hname ▸ List.mem_map_of_mem hrow)
    · exact (hall row hrow).2 hold

theorem validateProcesses_ok_iff {stored specs : List ProcessSpec} {names : List String} :
    validateProcesses stored names specs = .ok () ↔
      (∀ spec ∈ specs, spec.Accepted stored ∧ spec.name ∉ names) ∧
        KeyedRows.Unique ProcessSpec.name specs := by
  induction specs generalizing names with
  | nil => exact ⟨fun _ => ⟨fun _ h => absurd h List.not_mem_nil, List.nodup_nil⟩, fun _ => rfl⟩
  | cons spec specs ih =>
    have hmode : ((stored.find? fun existing => existing.name = spec.name).any fun existing =>
        existing.managementMode ≠ spec.managementMode) = true ↔
          ¬ ∀ old ∈ stored.find? fun existing => existing.name = spec.name,
            old.managementMode = spec.managementMode := by
      rw [Option.any_eq_true]
      push Not
      constructor
      · rintro ⟨old, hold, hne⟩
        exact ⟨old, hold, of_decide_eq_true hne⟩
      · rintro ⟨old, hold, hne⟩
        exact ⟨old, hold, decide_eq_true hne⟩
    have hunique : KeyedRows.Unique ProcessSpec.name (spec :: specs) ↔
        spec.name ∉ specs.map ProcessSpec.name ∧ KeyedRows.Unique ProcessSpec.name specs :=
      List.nodup_cons
    rw [hunique, List.forall_mem_cons]
    unfold validateProcesses
    split
    · rename_i e hinvalid
      constructor
      · intro h
        cases h
      · rintro ⟨⟨⟨hvalid, -⟩, -⟩, -⟩
        have hvalid' := hvalid.valid
        rw [hinvalid] at hvalid'
        cases hvalid'
    · rename_i hvalid
      split
      · rename_i hseen
        constructor
        · intro h
          cases h
        · rintro ⟨⟨⟨-, hnew⟩, -⟩, -⟩
          exact absurd hseen hnew
      · rename_i hnew
        split
        · rename_i hchanged
          constructor
          · intro h
            cases h
          · rintro ⟨⟨⟨hok, -⟩, -⟩, -⟩
            exact absurd hok.mode (hmode.mp hchanged)
        · rename_i hsame
          have hok : spec.Accepted stored := ⟨hvalid, not_not.mp fun h => hsame (hmode.mpr h)⟩
          rw [ih, forall_fresh_cons_iff]
          constructor
          · rintro ⟨⟨hall, hfirst⟩, hu⟩
            exact ⟨⟨⟨hok, hnew⟩, hall⟩, hfirst, hu⟩
          · rintro ⟨⟨-, hall⟩, hfirst, hu⟩
            exact ⟨⟨hall, hfirst⟩, hu⟩

theorem validateJobs_ok_iff {stored jobs rest : List Job} {names : List String} :
    validateJobs stored jobs now names rest = .ok () ↔
      (∀ job ∈ rest, job.Accepted stored jobs now ∧ job.name ∉ names) ∧
        KeyedRows.Unique Job.name rest := by
  induction rest generalizing names with
  | nil => exact ⟨fun _ => ⟨fun _ h => absurd h List.not_mem_nil, List.nodup_nil⟩, fun _ => rfl⟩
  | cons job rest ih =>
    have hunique : KeyedRows.Unique Job.name (job :: rest) ↔
        job.name ∉ rest.map Job.name ∧ KeyedRows.Unique Job.name rest := List.nodup_cons
    rw [hunique, List.forall_mem_cons]
    unfold validateJobs
    split
    · rename_i hseen
      constructor
      · intro h
        cases h
      · rintro ⟨⟨⟨-, hnew⟩, -⟩, -⟩
        exact absurd hseen hnew
    · rename_i hnew
      dsimp only
      split
      · rename_i e hinvalid
        constructor
        · intro h
          cases h
        · rintro ⟨⟨⟨hok, -⟩, -⟩, -⟩
          have hvalid := hok.valid
          rw [hinvalid] at hvalid
          cases hvalid
      · rename_i hvalid
        split
        · rename_i hcycle
          constructor
          · intro h
            cases h
          · rintro ⟨⟨⟨hok, -⟩, -⟩, -⟩
            exact absurd hcycle (Bool.eq_false_iff.mp hok.acyclic)
        · rename_i hacyclic
          have hok : job.Accepted stored jobs now := ⟨hvalid, Bool.eq_false_iff.mpr hacyclic⟩
          rw [ih, forall_fresh_cons_iff]
          constructor
          · rintro ⟨⟨hall, hfirst⟩, hu⟩
            exact ⟨⟨⟨hok, hnew⟩, hall⟩, hfirst, hu⟩
          · rintro ⟨⟨-, hall⟩, hfirst, hu⟩
            exact ⟨⟨hall, hfirst⟩, hu⟩

/-- The validator looks for names that come twice and at each definition by itself. -/
theorem validateConfigSnapshot_ok_iff :
    validateConfigSnapshot previous target now = .ok () ↔
      previous.Accepted target now ∧ KeyedRows.Unique ProcessSpec.name target.processes ∧
        KeyedRows.Unique Job.name target.jobs := by
  unfold validateConfigSnapshot
  split
  · rename_i e hprocesses
    constructor
    · intro h
      cases h
    · rintro ⟨hok, hu, -⟩
      have hvalid := validateProcesses_ok_iff.mpr
        ⟨fun spec hspec => ⟨hok.processes spec hspec, List.not_mem_nil⟩, hu⟩
      rw [hprocesses] at hvalid
      cases hvalid
  · rename_i hprocesses
    obtain ⟨hspecs, hu⟩ := validateProcesses_ok_iff.mp hprocesses
    rw [validateJobs_ok_iff]
    constructor
    · rintro ⟨hjobs, huj⟩
      exact ⟨⟨fun spec hspec => (hspecs spec hspec).1, fun job hjob => (hjobs job hjob).1⟩, hu, huj⟩
    · rintro ⟨hok, -, huj⟩
      exact ⟨fun job hjob => ⟨hok.jobs job hjob, List.not_mem_nil⟩, huj⟩

end Accepted

section Errors

variable {e : AppError}

theorem ProcessSpec.validate_error {spec : ProcessSpec} (h : spec.validate = .error e) :
    e.IsValidation := by
  unfold ProcessSpec.validate at h
  repeat' split at h
  all_goals first
    | cases h; trivial
    | cases h

theorem validateUpstream_error {jobName : String} {existing : List Job}
    {unique names : List String} (h : validateUpstream jobName existing unique names = .error e) :
    e.IsValidation := by
  induction names generalizing unique with
  | nil => cases h
  | cons name names ih =>
    unfold validateUpstream at h
    split at h
    · cases h
      trivial
    · split at h
      · cases h
        trivial
      · split at h
        · cases h
          trivial
        · exact ih h

theorem Job.validate_error {job : Job} {existing : List Job} {now : Instant} {allow : Bool}
    (h : job.validate existing now allow = .error e) : e.IsValidation := by
  unfold Job.validate at h
  repeat' split at h
  all_goals first
    | exact validateUpstream_error h
    | cases h; trivial
    | cases h

theorem validateProcesses_error {stored specs : List ProcessSpec} {names : List String}
    (h : validateProcesses stored names specs = .error e) : e.IsValidation := by
  induction specs generalizing names with
  | nil => cases h
  | cons spec specs ih =>
    unfold validateProcesses at h
    split at h
    · rename_i hinvalid
      cases h
      exact ProcessSpec.validate_error hinvalid
    · split at h
      · cases h
        trivial
      · split at h
        · cases h
          trivial
        · exact ih h

theorem validateJobs_error {stored jobs rest : List Job} {now : Instant} {names : List String}
    (h : validateJobs stored jobs now names rest = .error e) : e.IsValidation := by
  induction rest generalizing names with
  | nil => cases h
  | cons job rest ih =>
    unfold validateJobs at h
    split at h
    · cases h
      trivial
    · dsimp only at h
      split at h
      · rename_i hinvalid
        cases h
        exact Job.validate_error hinvalid
      · split at h
        · cases h
          trivial
        · exact ih h

theorem validateConfigSnapshot_error {previous target : ConfigSnapshot} {now : Instant}
    (h : validateConfigSnapshot previous target now = .error e) : e.IsValidation := by
  unfold validateConfigSnapshot at h
  split at h
  · rename_i hprocesses
    cases h
    exact validateProcesses_error hprocesses
  · exact validateJobs_error h

end Errors

namespace ConfigFacade

variable {s : ConfigFacade} {loaded : LoadedConfig}
  {converge : ConfigFacade → ConfigSnapshot → ConfigSnapshot →
    ConfigFacade × Except AppError ConfigDiff}

theorem refuses_iff_error (mode : ApplyMode) (newTriggerIds : String → Uuid) (now : Instant) :
    s.Refuses converge loaded mode newTriggerIds now ↔
      validateConfigSnapshot (s.tables.snapshot s.running)
        (targetSnapshot (s.tables.snapshot s.running) loaded mode newTriggerIds) now ≠ .ok () := by
  constructor
  · rintro ⟨⟨e, -, hvalidate⟩, -⟩ hok
    unfold validateConfig at hvalidate
    dsimp only at hvalidate
    rw [hok] at hvalidate
    cases hvalidate
  · intro hne
    obtain ⟨e, he⟩ : ∃ e, validateConfigSnapshot (s.tables.snapshot s.running)
        (targetSnapshot (s.tables.snapshot s.running) loaded mode newTriggerIds) now =
          .error e := by
      cases h : validateConfigSnapshot (s.tables.snapshot s.running)
          (targetSnapshot (s.tables.snapshot s.running) loaded mode newTriggerIds) now with
      | ok u => exact absurd h hne
      | error e => exact ⟨e, rfl⟩
    refine ⟨⟨e, validateConfigSnapshot_error he, ?_⟩, fun dryRun => ?_⟩
    · unfold validateConfig
      dsimp only
      rw [he]
      rfl
    · unfold applyConfig
      split
      · rename_i hbusy
        exact ⟨_, rfl, fun hfree => absurd hbusy (Bool.eq_false_iff.mp hfree)⟩
      · split
        · rename_i hincomplete
          refine ⟨_, rfl, fun _ hnone => ?_⟩
          rw [hnone] at hincomplete
          cases hincomplete
        · dsimp only
          rw [he]
          exact ⟨e, rfl, fun _ _ => validateConfigSnapshot_error he⟩

/-- Of a file with a name that comes twice some entry is left out, and the file is refused exactly
when what is left of it, of each name the last entry, has a definition that is not valid. -/
theorem duplicates_refused_iff
    (hspecs : KeyedRows.Unique ProcessSpec.name s.tables.specs)
    (hjobs : KeyedRows.Unique Job.name s.tables.store.jobs) (hdup : loaded.HasDuplicates)
    (mode : ApplyMode) (newTriggerIds : String → Uuid) (now : Instant) :
    ((lastEntries ProcessSpec.name loaded.processes).length < loaded.processes.length ∨
        (lastEntries Job.name loaded.jobs).length < loaded.jobs.length) ∧
      (s.Refuses converge loaded mode newTriggerIds now ↔
        ¬ (s.tables.snapshot s.running).Accepted
          (keptConfig (s.tables.snapshot s.running) loaded mode newTriggerIds) now) := by
  have hp : KeyedRows.Unique ProcessSpec.name (s.tables.snapshot s.running).processes :=
    hspecs.perm (sortByName_perm _ _)
  have hj : KeyedRows.Unique Job.name (s.tables.snapshot s.running).jobs :=
    hjobs.perm (sortByName_perm _ _)
  constructor
  · exact hdup.imp length_lastEntries_lt_iff.mpr length_lastEntries_lt_iff.mpr
  · have hunique : KeyedRows.Unique ProcessSpec.name
        (keptConfig (s.tables.snapshot s.running) loaded mode newTriggerIds).processes := by
      rw [← targetSnapshot_eq_kept hp hj]
      exact (targetSnapshot_processes mode hp).1
    have huniqueJobs : KeyedRows.Unique Job.name
        (keptConfig (s.tables.snapshot s.running) loaded mode newTriggerIds).jobs := by
      rw [← targetSnapshot_eq_kept hp hj]
      exact (targetSnapshot_jobs mode hj).1
    rw [refuses_iff_error, targetSnapshot_eq_kept hp hj, Ne, validateConfigSnapshot_ok_iff]
    constructor
    · intro hne hok
      exact hne ⟨hok, hunique, huniqueJobs⟩
    · intro hne hall
      exact hne hall.1

section Web

/-- Two entries named `web`. -/
def webTwice (second : String) : LoadedConfig :=
  { processes :=
      [{ definitionId := ⟨1⟩, name := "web", command := "/usr/bin/old" },
       { definitionId := ⟨1⟩, name := "web", command := second }] }

/-- The facade of a daemon without definitions, and an apply that stores the target. -/
def storeTarget (s : ConfigFacade) (previous target : ConfigSnapshot) :
    ConfigFacade × Except AppError ConfigDiff :=
  match s.tables.applyConfigSnapshot target with
  | .ok tables => ({ s with tables }, .ok (configDiff previous target))
  | .error e => (s, .error e.toAppError)

theorem webTwice_duplicates (second : String) : (webTwice second).HasDuplicates := by
  left
  intro hu
  exact (List.nodup_cons.mp hu).1 (List.mem_singleton_self _)

theorem webTwice_refused :
    (({} : ConfigFacade).Refuses storeTarget (webTwice "") .merge (fun _ => 0) 0 ↔
      ¬ (({} : ConfigFacade).tables.snapshot []).Accepted
        (keptConfig (({} : ConfigFacade).tables.snapshot []) (webTwice "") .merge (fun _ => 0)) 0) ∧
      ({} : ConfigFacade).validateConfig (webTwice "") .merge (fun _ => 0) 0 =
        .error (.invalidConfig "command must not be empty") := by
  have hspecs : KeyedRows.Unique ProcessSpec.name ({} : ConfigFacade).tables.specs :=
    List.nodup_nil
  have hjobs : KeyedRows.Unique Job.name ({} : ConfigFacade).tables.store.jobs := List.nodup_nil
  refine ⟨(duplicates_refused_iff hspecs hjobs (webTwice_duplicates "") .merge
    (fun _ => 0) 0).2, ?_⟩
  decide +kernel

/-- Both calls accept the file, and the first entry is gone. -/
theorem webTwice_accepted :
    (webTwice "/usr/bin/new").HasDuplicates ∧
      ¬ ({} : ConfigFacade).Refuses storeTarget (webTwice "/usr/bin/new") .merge (fun _ => 0) 0 ∧
      ((({} : ConfigFacade).applyConfig storeTarget (webTwice "/usr/bin/new") .merge false
        (fun _ => 0) 0).1.tables.specs.map ProcessSpec.command) = ["/usr/bin/new"] := by
  refine ⟨webTwice_duplicates _, ?_, by decide +kernel⟩
  rw [refuses_iff_error]
  decide +kernel

end Web

end ConfigFacade

end Supervisor
