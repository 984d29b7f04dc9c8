import Supervisor.ConfigLookup
import Supervisor.StoreRows

namespace Supervisor

/-- Save a definition; one of that name keeps its definition id. -/
def saveSpecRow (specs : List ProcessSpec) (spec : ProcessSpec) :
    Except RepoError (List ProcessSpec) :=
  match KeyedRows.find ProcessSpec.name spec.name specs with
  | some _ =>
    .ok (KeyedRows.update ProcessSpec.name spec.name
      (fun old => { spec.stored with definitionId := old.definitionId }) specs)
  | none =>
    if specs.any fun row => row.definitionId = spec.definitionId then .error Store.uniqueFailed
    else .ok (specs ++ [spec.stored])

/-- The tables of definitions: processes, and jobs with what belongs to them. -/
structure DefinitionTables where
  specs : List ProcessSpec := []
  store : Store := {}
deriving DecidableEq

namespace DefinitionTables

/-- What the schema and the columns guarantee. -/
structure Sound (t : DefinitionTables) : Prop where
  specNames : KeyedRows.Unique ProcessSpec.name t.specs
  definitionIds : KeyedRows.Unique ProcessSpec.definitionId t.specs
  jobNames : KeyedRows.Unique Job.name t.store.jobs
  specsStorable : ∀ spec ∈ t.specs, spec.Storable
  jobsStorable : ∀ job ∈ t.store.jobs, job.Storable

def snapshot (t : DefinitionTables) (runningDirectProcesses : List String) : ConfigSnapshot :=
  { processes := sortByName ProcessSpec.name t.specs
    jobs := sortByName Job.name t.store.jobs
    runningDirectProcesses }

/-- One transaction: the definitions become those of the snapshot. -/
def applyConfigSnapshot (t : DefinitionTables) (snapshot : ConfigSnapshot) :
    Except RepoError DefinitionTables :=
  let keptSpecs := t.specs.filter fun spec => spec.name ∈ snapshot.processes.map (·.name)
  (snapshot.processes.foldlM saveSpecRow keptSpecs).map fun specs =>
    let removedJobs := (t.store.jobs.map (·.name)).filter fun name =>
      name ∉ snapshot.jobs.map (·.name)
    { specs
      store := snapshot.jobs.foldl (fun store job => store.saveJob job.stored)
        (removedJobs.foldl Store.deleteJob t.store) }

end DefinitionTables

/-- The row that saving a definition leaves. -/
def savedSpec (old : Option ProcessSpec) (spec : ProcessSpec) : ProcessSpec :=
  match old with
  | some old => { spec.stored with definitionId := old.definitionId }
  | none => spec.stored

def savedJob (old : Option Job) (job : Job) : Job :=
  match old with
  | some old => { job.stored with id := old.id }
  | none => job.stored

section Specs

variable {specs specs' : List ProcessSpec} {spec : ProcessSpec}

structure SpecsSound (specs : List ProcessSpec) : Prop where
  names : KeyedRows.Unique ProcessSpec.name specs
  definitionIds : KeyedRows.Unique ProcessSpec.definitionId specs
  storable : ∀ spec ∈ specs, spec.Storable

theorem saveSpecRow_find (h : saveSpecRow specs spec = .ok specs') (n : String) :
    KeyedRows.find ProcessSpec.name n specs' =
      if n = spec.name then
        some (savedSpec (KeyedRows.find ProcessSpec.name spec.name specs) spec)
      else KeyedRows.find ProcessSpec.name n specs := by
  unfold saveSpecRow at h
  split at h
  · rename_i old hold
    cases h
    have hname (old : ProcessSpec) (_ : old.name = spec.name) :
        { spec.stored with definitionId := old.definitionId }.name = spec.name := rfl
    rw [KeyedRows.find_update hname]
    by_cases hn : n = spec.name
    · subst hn
      rw [if_pos rfl, if_pos rfl, hold]
      rfl
    · rw [if_neg hn, if_neg hn]
  · rename_i hnone
    split at h
    · cases h
    · cases h
      have hname : spec.stored.name = spec.name := rfl
      rw [KeyedRows.find_append, KeyedRows.find_singleton, hname]
      by_cases hn : n = spec.name
      · subst hn
        rw [if_pos rfl, if_pos rfl, hnone]
        rfl
      · rw [if_neg (Ne.symm hn), if_neg hn, Option.or_none]

theorem SpecsSound.saveSpecRow (hs : SpecsSound specs)
    (h : Supervisor.saveSpecRow specs spec = .ok specs') : SpecsSound specs' := by
  unfold Supervisor.saveSpecRow at h
  split at h
  · rename_i old hold
    cases h
    constructor
    case names => exact hs.names.update fun _ _ => rfl
    case definitionIds =>
      have hids : (KeyedRows.update ProcessSpec.name spec.name
          (fun old => { spec.stored with definitionId := old.definitionId }) specs).map
            ProcessSpec.definitionId = specs.map ProcessSpec.definitionId := by
        rw [KeyedRows.update, List.map_map]
        apply List.map_congr_left
        intro row _
        by_cases hrow : row.name = spec.name
        · simp [hrow]
        · simp [hrow]
      rw [KeyedRows.Unique, hids]
      exact hs.definitionIds
    case storable =>
      intro row hrow
      rcases KeyedRows.mem_update_iff.mp hrow with ⟨before, -, -, rfl⟩ | ⟨hrow, -⟩
      · exact spec.stored_storable.withId _
      · exact hs.storable row hrow
  · rename_i hnone
    split at h
    · cases h
    · rename_i hfree
      cases h
      constructor
      case names => exact hs.names.append (KeyedRows.find_eq_none.mp hnone)
      case definitionIds =>
        apply hs.definitionIds.append
        intro row hrow hid
        exact hfree (List.any_eq_true.mpr ⟨row, hrow, decide_eq_true hid⟩)
      case storable =>
        intro row hrow
        rcases List.mem_append.mp hrow with hold | hnew
        · exact hs.storable row hold
        · rw [List.mem_singleton.mp hnew]
          exact spec.stored_storable

theorem foldlM_saveSpecRow {xs : List ProcessSpec} (hu : KeyedRows.Unique ProcessSpec.name xs)
    (h : xs.foldlM saveSpecRow specs = .ok specs') (n : String) :
    KeyedRows.find ProcessSpec.name n specs' =
      ((KeyedRows.find ProcessSpec.name n xs).map
        (savedSpec (KeyedRows.find ProcessSpec.name n specs))).or
          (KeyedRows.find ProcessSpec.name n specs) := by
  induction xs generalizing specs with
  | nil =>
    cases h
    rfl
  | cons spec xs ih =>
    rw [List.foldlM_cons] at h
    cases hfirst : saveSpecRow specs spec with
    | error e =>
      rw [hfirst] at h
      cases h
    | ok between =>
      rw [hfirst] at h
      have hfind := saveSpecRow_find hfirst
      have hcons := List.nodup_cons.mp hu
      rw [ih hcons.2 h, hfind n]
      by_cases hn : n = spec.name
      · subst hn
        -- the name does not come again
        have hnone : KeyedRows.find ProcessSpec.name spec.name xs = none := by
          apply KeyedRows.find_eq_none.mpr
          intro row hrow hname
          exact hcons.1 (hname ▸ List.mem_map_of_mem hrow)
        rw [hnone, if_pos rfl]
        simp [KeyedRows.find]
      · have hskip : KeyedRows.find ProcessSpec.name n (spec :: xs) =
            KeyedRows.find ProcessSpec.name n xs := by
          simp [KeyedRows.find, Ne.symm hn]
        rw [if_neg hn, hskip]

theorem SpecsSound.foldlM {xs : List ProcessSpec} (hs : SpecsSound specs)
    (h : xs.foldlM Supervisor.saveSpecRow specs = .ok specs') : SpecsSound specs' := by
  induction xs generalizing specs with
  | nil =>
    cases h
    exact hs
  | cons spec xs ih =>
    rw [List.foldlM_cons] at h
    cases hfirst : Supervisor.saveSpecRow specs spec with
    | error e =>
      rw [hfirst] at h
      cases h
    | ok between =>
      rw [hfirst] at h
      exact ih (hs.saveSpecRow hfirst) h

end Specs

section Jobs

variable {s : Store} {job : Job}

theorem find_saveJob (s : Store) (job : Job) (n : String) :
    KeyedRows.find Job.name n (s.saveJob job.stored).jobs =
      if n = job.name then some (savedJob (KeyedRows.find Job.name job.name s.jobs) job)
      else KeyedRows.find Job.name n s.jobs := by
  have hname : job.stored.name = job.name := rfl
  unfold Store.saveJob
  split
  · rename_i hnone
    have hnone : KeyedRows.find Job.name job.name s.jobs = none := hnone
    show KeyedRows.find Job.name n (s.jobs ++ [job.stored]) = _
    rw [KeyedRows.find_append, KeyedRows.find_singleton, hname]
    by_cases hn : n = job.name
    · subst hn
      rw [if_pos rfl, if_pos rfl, hnone]
      rfl
    · rw [if_neg (Ne.symm hn), if_neg hn, Option.or_none]
  · rename_i old hold
    have hold : KeyedRows.find Job.name job.name s.jobs = some old := hold
    have hsame (old' : Job) (_ : old'.name = job.stored.name) :
        { job.stored with id := old.id }.name = job.stored.name := rfl
    dsimp only
    rw [KeyedRows.find_update hsame, hname]
    by_cases hn : n = job.name
    · subst hn
      rw [if_pos rfl, if_pos rfl, hold]
      rfl
    · rw [if_neg hn, if_neg hn]

theorem foldl_saveJob {xs : List Job} (hu : KeyedRows.Unique Job.name xs) (n : String) :
    KeyedRows.find Job.name n (xs.foldl (fun store job => store.saveJob job.stored) s).jobs =
      ((KeyedRows.find Job.name n xs).map (savedJob (KeyedRows.find Job.name n s.jobs))).or
        (KeyedRows.find Job.name n s.jobs) := by
  induction xs generalizing s with
  | nil => rfl
  | cons job xs ih =>
    have hcons := List.nodup_cons.mp hu
    rw [List.foldl_cons, ih hcons.2, find_saveJob]
    by_cases hn : n = job.name
    · subst hn
      have hnone : KeyedRows.find Job.name job.name xs = none := by
        apply KeyedRows.find_eq_none.mpr
        intro row hrow hname
        exact hcons.1 (hname ▸ List.mem_map_of_mem hrow)
      rw [hnone, if_pos rfl]
      simp [KeyedRows.find]
    · have hskip : KeyedRows.find Job.name n (job :: xs) = KeyedRows.find Job.name n xs := by
        simp [KeyedRows.find, Ne.symm hn]
      rw [if_neg hn, hskip]

theorem foldl_deleteJob_jobs {names : List String} :
    (names.foldl Store.deleteJob s).jobs = s.jobs.filter fun job => job.name ∉ names := by
  induction names generalizing s with
  | nil => simp
  | cons name names ih =>
    rw [List.foldl_cons, ih, Store.deleteJob, List.filter_filter]
    apply List.filter_congr
    intro job _
    by_cases hname : job.name = name <;> simp [hname]

structure JobsSound (jobs : List Job) : Prop where
  names : KeyedRows.Unique Job.name jobs
  storable : ∀ job ∈ jobs, job.Storable

theorem JobsSound.saveJob (hs : JobsSound s.jobs) (job : Job) :
    JobsSound (s.saveJob job.stored).jobs := by
  unfold Store.saveJob
  split
  · rename_i hnone
    constructor
    case names => exact hs.names.append (KeyedRows.find_eq_none.mp hnone)
    case storable =>
      intro row hrow
      rcases List.mem_append.mp hrow with hold | hnew
      · exact hs.storable row hold
      · rw [List.mem_singleton.mp hnew]
        exact job.stored_storable
  · constructor
    case names => exact hs.names.update fun _ _ => rfl
    case storable =>
      intro row hrow
      rcases KeyedRows.mem_update_iff.mp hrow with ⟨before, -, -, rfl⟩ | ⟨hrow, -⟩
      · exact job.stored_storable.withId _
      · exact hs.storable row hrow

theorem JobsSound.foldl_saveJob {xs : List Job} (hs : JobsSound s.jobs) :
    JobsSound (xs.foldl (fun store job => store.saveJob job.stored) s).jobs := by
  induction xs generalizing s with
  | nil => exact hs
  | cons job xs ih => exact ih (hs.saveJob job)

end Jobs

namespace DefinitionTables

variable {t t' : DefinitionTables} {target : ConfigSnapshot}

theorem Sound.specs (hs : t.Sound) : SpecsSound t.specs :=
  ⟨hs.specNames, hs.definitionIds, hs.specsStorable⟩

theorem Sound.jobs (hs : t.Sound) : JobsSound t.store.jobs := ⟨hs.jobNames, hs.jobsStorable⟩

theorem Sound.of {specs : List ProcessSpec} {store : Store} (hs : SpecsSound specs)
    (hj : JobsSound store.jobs) : Sound ⟨specs, store⟩ :=
  ⟨hs.names, hs.definitionIds, hj.names, hs.storable, hj.storable⟩

theorem applyConfigSnapshot_ok (h : t.applyConfigSnapshot target = .ok t') :
    (target.processes.foldlM saveSpecRow (t.specs.filter fun spec =>
        decide (spec.name ∈ target.processes.map (·.name)))) = .ok t'.specs ∧
      t'.store = target.jobs.foldl (fun store job => store.saveJob job.stored)
        (((t.store.jobs.map (·.name)).filter fun name =>
          name ∉ target.jobs.map (·.name)).foldl Store.deleteJob t.store) := by
  unfold applyConfigSnapshot at h
  dsimp only at h
  cases hspecs : target.processes.foldlM saveSpecRow (t.specs.filter fun spec =>
      decide (spec.name ∈ target.processes.map (·.name))) with
  | error e =>
    rw [hspecs] at h
    cases h
  | ok specs =>
    rw [hspecs] at h
    cases h
    exact ⟨rfl, rfl⟩

theorem jobs_kept (t : DefinitionTables) (xs : List Job) :
    (((t.store.jobs.map (·.name)).filter fun name =>
      name ∉ xs.map (·.name)).foldl Store.deleteJob t.store).jobs =
        t.store.jobs.filter fun job => decide (job.name ∈ xs.map (·.name)) := by
  rw [foldl_deleteJob_jobs]
  apply List.filter_congr
  intro job hjob
  have hname : job.name ∈ t.store.jobs.map (·.name) := List.mem_map_of_mem hjob
  simp only [List.mem_filter, hname]
  simp

/-- The definitions after a snapshot has been applied. -/
theorem applyConfigSnapshot_find (hp : KeyedRows.Unique ProcessSpec.name target.processes)
    (hj : KeyedRows.Unique Job.name target.jobs) (h : t.applyConfigSnapshot target = .ok t')
    (n : String) :
    KeyedRows.find ProcessSpec.name n t'.specs =
        (KeyedRows.find ProcessSpec.name n target.processes).map
          (savedSpec (KeyedRows.find ProcessSpec.name n t.specs)) ∧
      KeyedRows.find Job.name n t'.store.jobs =
        (KeyedRows.find Job.name n target.jobs).map
          (savedJob (KeyedRows.find Job.name n t.store.jobs)) := by
  obtain ⟨hspecs, hstore⟩ := applyConfigSnapshot_ok h
  constructor
  · rw [foldlM_saveSpecRow hp hspecs,
      KeyedRows.find_filter_key (fun name => decide (name ∈ target.processes.map (·.name)))]
    cases hfind : KeyedRows.find ProcessSpec.name n target.processes with
    | none =>
      have hout : ¬ n ∈ target.processes.map (·.name) := by
        rw [KeyedRows.mem_map_key, hfind]
        exact Bool.false_ne_true
      rw [if_neg (by simpa using hout)]
      rfl
    | some spec =>
      have hin : n ∈ target.processes.map (·.name) := by
        rw [KeyedRows.mem_map_key, hfind]
        rfl
      rw [if_pos (by simpa using hin)]
      rfl
  · rw [hstore, foldl_saveJob hj, jobs_kept,
      KeyedRows.find_filter_key (fun name => decide (name ∈ target.jobs.map (·.name)))]
    cases hfind : KeyedRows.find Job.name n target.jobs with
    | none =>
      have hout : ¬ n ∈ target.jobs.map (·.name) := by
        rw [KeyedRows.mem_map_key, hfind]
        exact Bool.false_ne_true
      rw [if_neg (by simpa using hout)]
      rfl
    | some job =>
      have hin : n ∈ target.jobs.map (·.name) := by
        rw [KeyedRows.mem_map_key, hfind]
        rfl
      rw [if_pos (by simpa using hin)]
      rfl

theorem Sound.applyConfigSnapshot (hs : t.Sound)
    (h : t.applyConfigSnapshot target = .ok t') : t'.Sound := by
  obtain ⟨hspecs, hstore⟩ := applyConfigSnapshot_ok h
  have hkept : SpecsSound (t.specs.filter fun spec =>
      decide (spec.name ∈ target.processes.map (·.name))) :=
    ⟨hs.specNames.filter _, hs.definitionIds.filter _,
      fun spec hspec => hs.specsStorable spec (List.mem_of_mem_filter hspec)⟩
  have hjobs : JobsSound (((t.store.jobs.map (·.name)).filter fun name =>
      name ∉ target.jobs.map (·.name)).foldl Store.deleteJob t.store).jobs := by
    rw [jobs_kept]
    exact ⟨hs.jobNames.filter _, fun job hjob => hs.jobsStorable job (List.mem_of_mem_filter hjob)⟩
  have hnew : JobsSound t'.store.jobs := by
    rw [hstore]
    exact hjobs.foldl_saveJob
  exact .of (hkept.foldlM hspecs) hnew

theorem snapshot_find (hs : t.Sound) (running : List String) :
    KeyedRows.Unique ProcessSpec.name (t.snapshot running).processes ∧
      KeyedRows.Unique Job.name (t.snapshot running).jobs ∧
      (∀ n, KeyedRows.find ProcessSpec.name n (t.snapshot running).processes =
        KeyedRows.find ProcessSpec.name n t.specs) ∧
      ∀ n, KeyedRows.find Job.name n (t.snapshot running).jobs =
        KeyedRows.find Job.name n t.store.jobs :=
  ⟨hs.specNames.perm (sortByName_perm _ _), hs.jobNames.perm (sortByName_perm _ _),
    find_sortByName hs.specNames, find_sortByName hs.jobNames⟩

end DefinitionTables

end Supervisor
