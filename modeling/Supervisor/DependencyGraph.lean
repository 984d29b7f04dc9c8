import Supervisor.GraphSearch
import Supervisor.JobCalls
import Supervisor.JobDeletionSystem

namespace Supervisor

/-- Every dependency is stored, and no job depends on itself through others. -/
structure DependenciesSound (jobs : List Job) : Prop where
  closed : ∀ job ∈ jobs, ∀ name ∈ job.upstreamNames, ∃ other ∈ jobs, other.name = name
  acyclic : GraphSearch.Acyclic (upstreamOf jobs)

/-- What `validate_job` and `forms_cycle` say about the dependencies of a definition among
the other jobs. -/
def Job.Attaches (job : Job) (others : List Job) : Prop :=
  validateUpstream job.name others [] job.upstreamNames = .ok () ∧ formsCycle job others = false

instance (job : Job) (others : List Job) : Decidable (job.Attaches others) :=
  inferInstanceAs (Decidable (_ ∧ _))

section Upstream

variable {jobs others : List Job} {job : Job} {name : String}

theorem upstreamOf_eq (jobs : List Job) (name : String) :
    upstreamOf jobs name = ((KeyedRows.find Job.name name jobs).map Job.upstreamNames).getD [] :=
  rfl

theorem upstreamOf_of_mem (hu : KeyedRows.Unique Job.name jobs) (hjob : job ∈ jobs) :
    upstreamOf jobs job.name = job.upstreamNames := by
  rw [upstreamOf_eq, hu.find_of_mem hjob]
  rfl

theorem mem_of_mem_upstreamOf {upstream : String} (h : upstream ∈ upstreamOf jobs name) :
    ∃ job ∈ jobs, job.name = name ∧ upstream ∈ job.upstreamNames := by
  rw [upstreamOf_eq] at h
  cases hfind : KeyedRows.find Job.name name jobs with
  | none =>
    rw [hfind] at h
    exact absurd h List.not_mem_nil
  | some job =>
    rw [hfind] at h
    exact ⟨job, KeyedRows.find_mem hfind, KeyedRows.find_key hfind, h⟩

theorem upstreamOf_othersThan (jobs : List Job) (x name : String) :
    upstreamOf (othersThan x jobs) name = if name = x then [] else upstreamOf jobs name := by
  rw [upstreamOf_eq, upstreamOf_eq, othersThan,
    KeyedRows.find_filter_key (fun n => decide (n ≠ x))]
  by_cases hname : name = x
  · simp [hname]
  · simp [hname]

theorem reaches_eq_search (existing : List Job) (jobName : String) (fuel : ℕ)
    (seen stack : List String) :
    reaches existing jobName fuel seen stack =
      GraphSearch.search (upstreamOf existing) jobName fuel seen stack := by
  induction fuel generalizing seen stack with
  | zero => rfl
  | succ fuel ih =>
    cases stack with
    | nil => rfl
    | cons current stack => rw [reaches, GraphSearch.search, ih, ih]

theorem weight_upstreamOf (hu : KeyedRows.Unique Job.name jobs) :
    GraphSearch.weight (upstreamOf jobs) (jobs.map (·.name)) [] =
      (jobs.map fun job => job.upstreamNames.length).sum := by
  unfold GraphSearch.weight
  have hall : (jobs.map (·.name)).filter (· ∉ []) = jobs.map (·.name) :=
    List.filter_eq_self.mpr fun _ _ => by simp
  rw [hall, List.map_map]
  apply congrArg
  apply List.map_congr_left
  intro job hjob
  rw [Function.comp_apply, upstreamOf_of_mem hu hjob]

/-- `forms_cycle` finds exactly the dependencies that lead back to the job. -/
theorem formsCycle_iff (hu : KeyedRows.Unique Job.name others) :
    formsCycle job others = true ↔ ∃ upstream ∈ job.upstreamNames,
      Relation.ReflTransGen (GraphSearch.Edge (upstreamOf others)) upstream job.name := by
  unfold formsCycle
  cases htrigger : job.trigger with
  | dependsOn direct =>
    have hdirect : job.upstreamNames = direct := by
      unfold Job.upstreamNames
      rw [htrigger]
    have hnodes : ∀ name, upstreamOf others name ≠ [] → name ∈ others.map (·.name) := by
      intro name hname
      obtain ⟨upstream, hmem⟩ := List.exists_mem_of_ne_nil _ hname
      obtain ⟨other, hother, hotherName, -⟩ := mem_of_mem_upstreamOf hmem
      exact hotherName ▸ List.mem_map_of_mem hother
    have hfuel : direct.reverse.length +
        GraphSearch.weight (upstreamOf others) (others.map (·.name)) [] <
          direct.length + (others.map fun other => other.upstreamNames.length).sum + 1 := by
      rw [weight_upstreamOf hu, List.length_reverse]
      omega
    dsimp only
    rw [reaches_eq_search, GraphSearch.search_iff hnodes hfuel, hdirect]
    simp only [List.mem_reverse]
  | cron | interval | oneShot =>
    have hnone : job.upstreamNames = [] := by
      unfold Job.upstreamNames
      rw [htrigger]
    rw [hnone]
    simp

theorem validateUpstream_ok {jobName : String} {existing : List Job} {unique names : List String}
    (h : validateUpstream jobName existing unique names = .ok ()) :
    ∀ name ∈ names, name ≠ jobName ∧ ∃ other ∈ existing, other.name = name := by
  induction names generalizing unique with
  | nil => exact fun name hname => absurd hname List.not_mem_nil
  | cons first names ih =>
    rw [validateUpstream] at h
    split at h
    · cases h
    rename_i hself
    split at h
    · cases h
    split at h
    · cases h
    rename_i hknown
    intro name hname
    rcases List.mem_cons.mp hname with rfl | hname
    · refine ⟨hself, ?_⟩
      simpa using hknown
    · exact ih h name hname

/-- A definition that passed its checks has passed those of its dependencies. -/
theorem validate_upstream {now : Instant} {allowPastOneShot : Bool}
    (h : job.validate others now allowPastOneShot = .ok ()) :
    validateUpstream job.name others [] job.upstreamNames = .ok () := by
  unfold Job.upstreamNames
  unfold Job.validate at h
  split at h
  · cases h
  split at h
  · cases h
  split at h
  · cases h
  split at h
  · cases h
  split at h
  · cases h
  cases htrigger : job.trigger with
  | dependsOn names =>
    rw [htrigger] at h
    dsimp only at h
    split at h
    · cases h
    · exact h
  | cron | interval | oneShot => rfl

end Upstream

section Changes

variable {jobs jobs' : List Job} {job : Job} {name : String}

theorem DependenciesSound.upstream_stored (hs : DependenciesSound jobs) {upstream : String}
    (h : upstream ∈ upstreamOf jobs name) : upstream ∈ jobs.map (·.name) := by
  obtain ⟨owner, howner, -, hmem⟩ := mem_of_mem_upstreamOf h
  obtain ⟨other, hother, hname⟩ := hs.closed owner howner upstream hmem
  exact hname ▸ List.mem_map_of_mem hother

theorem DependenciesSound.congr (hs : DependenciesSound jobs)
    (hu' : KeyedRows.Unique Job.name jobs') (hup : upstreamOf jobs' = upstreamOf jobs)
    (hnames : ∀ name ∈ jobs.map (·.name), name ∈ jobs'.map (·.name)) :
    DependenciesSound jobs' := by
  constructor
  case closed =>
    intro job hjob upstream hupstream
    rw [← upstreamOf_of_mem hu' hjob, hup] at hupstream
    exact List.mem_map.mp (hnames upstream (hs.upstream_stored hupstream))
  case acyclic =>
    rw [hup]
    exact hs.acyclic

/-- A row replaces the one of its name, or is new. -/
theorem DependenciesSound.attach (hs : DependenciesSound jobs)
    (hu : KeyedRows.Unique Job.name jobs) (hu' : KeyedRows.Unique Job.name jobs')
    (hattaches : job.Attaches (othersThan job.name jobs))
    (hup : ∀ name, upstreamOf jobs' name =
      if name = job.name then job.upstreamNames else upstreamOf jobs name)
    (hnames : ∀ name, name ∈ jobs'.map (·.name) ↔ name = job.name ∨ name ∈ jobs.map (·.name)) :
    DependenciesSound jobs' := by
  obtain ⟨hvalid, hcycle⟩ := hattaches
  constructor
  case closed =>
    intro row hrow upstream hupstream
    rw [← upstreamOf_of_mem hu' hrow, hup] at hupstream
    apply List.mem_map.mp
    rw [hnames]
    split at hupstream
    · obtain ⟨-, other, hother, hname⟩ := validateUpstream_ok hvalid upstream hupstream
      exact .inr (hname ▸ List.mem_map_of_mem (List.mem_filter.mp hother).1)
    · exact .inr (hs.upstream_stored hupstream)
  case acyclic =>
    apply hs.acyclic.attach (x := job.name)
    · intro a ha b hb
      rwa [hup, if_neg ha] at hb
    · intro b hb hpath
      rw [hup, if_pos rfl] at hb
      have hothers : KeyedRows.Unique Job.name (othersThan job.name jobs) := hu.filter _
      have hfound : formsCycle job (othersThan job.name jobs) = true := by
        refine (formsCycle_iff hothers).mpr ⟨b, hb, ?_⟩
        apply Relation.ReflTransGen.mono _ _ _ hpath
        rintro c d ⟨hedge, hc⟩
        show d ∈ upstreamOf (othersThan job.name jobs) c
        rw [upstreamOf_othersThan, if_neg hc]
        have hedge : d ∈ upstreamOf jobs' c := hedge
        rwa [hup, if_neg hc] at hedge
      rw [hcycle] at hfound
      cases hfound

/-- A row that no other depends on goes. -/
theorem DependenciesSound.detach (hs : DependenciesSound jobs)
    (hleaf : downstreamOf name jobs = []) : DependenciesSound (othersThan name jobs) := by
  have hnone : ∀ job ∈ jobs, name ∉ job.upstreamNames := by
    intro job hjob hmem
    have hdown : job.name ∈ downstreamOf name jobs := by
      unfold downstreamOf
      apply List.mem_map_of_mem
      refine List.mem_filter.mpr ⟨hjob, ?_⟩
      unfold Job.upstreamNames at hmem
      cases htrigger : job.trigger with
      | dependsOn names =>
        rw [htrigger] at hmem
        exact List.any_eq_true.mpr ⟨name, hmem, decide_eq_true rfl⟩
      | cron | interval | oneShot =>
        rw [htrigger] at hmem
        exact absurd hmem List.not_mem_nil
    rw [hleaf] at hdown
    exact absurd hdown List.not_mem_nil
  constructor
  case closed =>
    intro job hjob upstream hupstream
    have hstored : job ∈ jobs := (List.mem_filter.mp hjob).1
    obtain ⟨other, hother, hname⟩ := hs.closed job hstored upstream hupstream
    refine ⟨other, List.mem_filter.mpr ⟨hother, ?_⟩, hname⟩
    simp only [decide_eq_true_eq]
    rintro rfl
    exact hnone job hstored (hname ▸ hupstream)
  case acyclic =>
    apply hs.acyclic.mono
    intro a b hb
    rw [upstreamOf_othersThan] at hb
    split at hb
    · exact absurd hb List.not_mem_nil
    · exact hb

/-- The definitions of a snapshot that `validate_config_snapshot` accepts. -/
theorem validateJobs_ok {previous all : List Job} {now : Instant} {names : List String}
    {rest : List Job} (h : validateJobs previous all now names rest = .ok ()) :
    ∀ job ∈ rest, job.Attaches (othersThan job.name all) := by
  induction rest generalizing names with
  | nil => exact fun job hjob => absurd hjob List.not_mem_nil
  | cons first rest ih =>
    rw [validateJobs] at h
    split at h
    · cases h
    dsimp only at h
    split at h
    · cases h
    rename_i hvalid
    split at h
    · cases h
    rename_i hcycle
    intro job hjob
    rcases List.mem_cons.mp hjob with rfl | hjob
    · exact ⟨validate_upstream hvalid, Bool.eq_false_iff.mpr hcycle⟩
    · exact ih h job hjob

theorem dependenciesSound_of_attaches (hu : KeyedRows.Unique Job.name jobs)
    (hall : ∀ job ∈ jobs, job.Attaches (othersThan job.name jobs)) : DependenciesSound jobs := by
  constructor
  case closed =>
    intro job hjob upstream hupstream
    obtain ⟨-, other, hother, hname⟩ := validateUpstream_ok (hall job hjob).1 upstream hupstream
    exact ⟨other, (List.mem_filter.mp hother).1, hname⟩
  case acyclic =>
    apply GraphSearch.acyclic_iff.mpr
    intro a b hb hpath
    obtain ⟨job, hjob, rfl, hmem⟩ := mem_of_mem_upstreamOf hb
    have hothers : KeyedRows.Unique Job.name (othersThan job.name jobs) := hu.filter _
    have hfound : formsCycle job (othersThan job.name jobs) = true := by
      refine (formsCycle_iff hothers).mpr ⟨b, hmem, ?_⟩
      apply Relation.ReflTransGen.mono _ _ _ hpath
      rintro c d ⟨hedge, hc⟩
      show d ∈ upstreamOf (othersThan job.name jobs) c
      rw [upstreamOf_othersThan, if_neg hc]
      exact hedge
    rw [(hall job hjob).2] at hfound
    cases hfound

theorem dependenciesSound_of_validated {previous target : ConfigSnapshot} {now : Instant}
    (hu : KeyedRows.Unique Job.name target.jobs)
    (h : validateConfigSnapshot previous target now = .ok ()) : DependenciesSound target.jobs := by
  unfold validateConfigSnapshot at h
  split at h
  · cases h
  · exact dependenciesSound_of_attaches hu (validateJobs_ok h)

end Changes

section Rows

variable {s : Store} {job : Job}

theorem savedJob_upstreamNames (old : Option Job) (job : Job) :
    (savedJob old job).upstreamNames = job.upstreamNames := by
  have hstored : job.stored.upstreamNames = job.upstreamNames := by
    have htrigger : job.stored.trigger = (TriggerRepr.ofTrigger job.trigger).toTrigger := rfl
    unfold Job.upstreamNames
    rw [htrigger]
    cases job.trigger <;> rfl
  cases old with
  | none => exact hstored
  | some old => exact hstored

theorem DependenciesSound.saveJob (hs : DependenciesSound s.jobs) (hj : JobsSound s.jobs)
    (hattaches : job.Attaches (othersThan job.name s.jobs)) :
    DependenciesSound (s.saveJob job.stored).jobs := by
  have hj' : JobsSound (s.saveJob job.stored).jobs := hj.saveJob job
  apply hs.attach hj.names hj'.names hattaches
  · intro name
    rw [upstreamOf_eq, find_saveJob, upstreamOf_eq]
    split
    · exact savedJob_upstreamNames _ job
    · rfl
  · intro name
    rw [KeyedRows.mem_map_key, KeyedRows.mem_map_key, find_saveJob]
    by_cases hname : name = job.name
    · simp [hname]
    · simp [hname]

theorem DependenciesSound.deleteJob {name : String} (hs : DependenciesSound s.jobs)
    (hleaf : downstreamOf name s.jobs = []) : DependenciesSound (s.deleteJob name).jobs :=
  hs.detach hleaf

theorem DependenciesSound.applyConfigSnapshot {t t' : DefinitionTables} {target : ConfigSnapshot}
    (hs : DependenciesSound target.jobs)
    (hp : KeyedRows.Unique ProcessSpec.name target.processes)
    (hj : KeyedRows.Unique Job.name target.jobs) (ht : t.Sound)
    (h : t.applyConfigSnapshot target = .ok t') : DependenciesSound t'.store.jobs := by
  have hfind := fun name => (DefinitionTables.applyConfigSnapshot_find hp hj h name).2
  apply hs.congr (ht.applyConfigSnapshot h).jobNames
  · funext name
    rw [upstreamOf_eq, upstreamOf_eq, hfind]
    cases KeyedRows.find Job.name name target.jobs with
    | none => rfl
    | some job => exact savedJob_upstreamNames _ job
  · intro name hname
    rw [KeyedRows.mem_map_key] at hname ⊢
    rw [hfind, Option.isSome_map]
    exact hname

end Rows

end Supervisor
