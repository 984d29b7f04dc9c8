import Supervisor.DefinitionCalls

namespace Supervisor

/-- Whether the next write of a call passes, on the definitions that are stored then, the
checks that the call has made before. -/
def CallPoint.KeepsGraph (jobs : List Job) : CallPoint → Prop
  | .savingJob _ _ job => job.Attaches (othersThan job.name jobs)
  | .undoingJob none job _ => downstreamOf job.name jobs = []
  | .undoingJob (some existing) _ _ => existing.Attaches (othersThan existing.name jobs)
  | .deleting name => downstreamOf name jobs = []
  | _ => True

instance (jobs : List Job) (point : CallPoint) : Decidable (point.KeepsGraph jobs) := by
  unfold CallPoint.KeepsGraph
  split <;> exact inferInstance

namespace DefinitionState

variable {calendar : Calendar} {s t : DefinitionState}

def GraphFits (s : DefinitionState) : DefinitionEvent → Prop
  | .proceed i => ∀ c ∈ s.calls[i]?, c.point.KeepsGraph s.tables.store.jobs
  | _ => True

instance (s : DefinitionState) (e : DefinitionEvent) : Decidable (s.GraphFits e) := by
  cases e <;> unfold GraphFits <;> exact inferInstance

/-- A snapshot that can be written at any time. -/
structure SnapshotSound (snapshot : ConfigSnapshot) : Prop where
  processNames : KeyedRows.Unique ProcessSpec.name snapshot.processes
  names : KeyedRows.Unique Job.name snapshot.jobs
  dependencies : DependenciesSound snapshot.jobs

def PointSound : CallPoint → Prop
  | .applying previous target _ => SnapshotSound previous ∧ SnapshotSound target
  | _ => True

structure GraphSound (s : DefinitionState) : Prop where
  tables : s.tables.Sound
  dependencies : DependenciesSound s.tables.store.jobs
  points : ∀ c ∈ s.calls, PointSound c.point

section Tables

variable {tables : DefinitionTables}

theorem snapshot_sound (ht : tables.Sound) (hd : DependenciesSound tables.store.jobs)
    (running : List String) : SnapshotSound (tables.snapshot running) := by
  obtain ⟨hprocesses, hnames, -, hfind⟩ := DefinitionTables.snapshot_find ht running
  refine ⟨hprocesses, hnames, ?_⟩
  apply hd.congr hnames
  · funext name
    rw [upstreamOf_eq, upstreamOf_eq, hfind]
  · intro name hname
    rw [KeyedRows.mem_map_key] at hname ⊢
    rwa [hfind]

theorem target_sound {running : List String} {loaded : LoadedConfig} {mode : ApplyMode}
    {newTriggerIds : String → Uuid} {now : Instant} (ht : tables.Sound)
    (hvalid : validateConfigSnapshot (tables.snapshot running)
      (targetSnapshot (tables.snapshot running) loaded mode newTriggerIds) now = .ok ()) :
    SnapshotSound (targetSnapshot (tables.snapshot running) loaded mode newTriggerIds) := by
  obtain ⟨hprocesses, hnames, -, -⟩ := DefinitionTables.snapshot_find ht running
  have htarget := (@targetSnapshot_jobs _ loaded newTriggerIds mode hnames).1
  exact ⟨(targetSnapshot_processes mode hprocesses).1, htarget,
    dependenciesSound_of_validated htarget hvalid⟩

theorem write_sound {snapshot : ConfigSnapshot} (ht : tables.Sound)
    (hd : DependenciesSound tables.store.jobs) (hsnapshot : SnapshotSound snapshot) :
    ((tables.applyConfigSnapshot snapshot).toOption.getD tables).Sound ∧
      DependenciesSound
        ((tables.applyConfigSnapshot snapshot).toOption.getD tables).store.jobs := by
  cases hok : tables.applyConfigSnapshot snapshot with
  | error e => exact ⟨ht, hd⟩
  | ok written =>
    exact ⟨ht.applyConfigSnapshot hok, hsnapshot.dependencies.applyConfigSnapshot
      hsnapshot.processNames hsnapshot.names ht hok⟩

theorem saveJob_sound {job : Job} (ht : tables.Sound) (hd : DependenciesSound tables.store.jobs)
    (hattaches : job.Attaches (othersThan job.name tables.store.jobs)) :
    DefinitionTables.Sound { tables with store := tables.store.saveJob job.stored } ∧
      DependenciesSound (tables.store.saveJob job.stored).jobs :=
  ⟨.of ht.specs (ht.jobs.saveJob job), hd.saveJob ht.jobs hattaches⟩

theorem deleteJob_sound {name : String} (ht : tables.Sound)
    (hd : DependenciesSound tables.store.jobs) (hleaf : downstreamOf name tables.store.jobs = []) :
    DefinitionTables.Sound { tables with store := tables.store.deleteJob name } ∧
      DependenciesSound (tables.store.deleteJob name).jobs := by
  refine ⟨.of ht.specs ⟨ht.jobNames.filter _, ?_⟩, hd.deleteJob hleaf⟩
  intro job hjob
  exact ht.jobsStorable job (List.mem_filter.mp hjob).1

/-- What a call plans on sound definitions. -/
theorem plan_sound {call : DefinitionCall} {point : CallPoint} (ht : tables.Sound)
    (hd : DependenciesSound tables.store.jobs)
    (hplan : call.plan tables.listJobs tables.listSpecs = .ok point) : PointSound point := by
  unfold DefinitionCall.plan at hplan
  split at hplan
  · obtain ⟨-, -, rfl⟩ := map_eq_ok_iff.mp hplan
    trivial
  · obtain ⟨-, -, rfl⟩ := map_eq_ok_iff.mp hplan
    trivial
  · obtain ⟨-, -, rfl⟩ := map_eq_ok_iff.mp hplan
    trivial
  · split at hplan
    · cases hplan
    · split at hplan
      · cases hplan
      · cases hplan
        trivial
  · obtain ⟨_, hvalid, rfl⟩ := map_eq_ok_iff.mp hplan
    exact ⟨snapshot_sound ht hd _, target_sound ht hvalid⟩

/-- One step of a call, whose write passes its checks. -/
theorem advance_sound {call : DefinitionCall} {point : CallPoint} (ht : tables.Sound)
    (hd : DependenciesSound tables.store.jobs) (hpoint : PointSound point)
    (hfits : point.KeepsGraph tables.store.jobs) :
    (tables.advance calendar call point).1.Sound ∧
      DependenciesSound (tables.advance calendar call point).1.store.jobs ∧
      ∀ next, (tables.advance calendar call point).2 = .inl next → PointSound next := by
  have hsame : ∀ {next : CallPoint ⊕ CallResponse}, (∀ p, next = .inl p → PointSound p) →
      tables.Sound ∧ DependenciesSound tables.store.jobs ∧ ∀ p, next = .inl p → PointSound p :=
    fun hnext => ⟨ht, hd, hnext⟩
  have hanswer : ∀ {response : CallResponse} (p : CallPoint),
      (.inr response : CallPoint ⊕ CallResponse) = .inl p → PointSound p := by
    intro response p h
    cases h
  unfold DefinitionTables.advance
  split
  · split
    · exact hsame hanswer
    · rename_i next hplan
      apply hsame
      rintro p ⟨⟩
      exact plan_sound ht hd hplan
  · obtain ⟨hsound, hdependencies⟩ := saveJob_sound ht hd hfits
    refine ⟨hsound, hdependencies, ?_⟩
    rintro p ⟨⟩
    trivial
  · split
    · exact hsame hanswer
    · apply hsame
      rintro p ⟨⟩
      trivial
  · obtain ⟨hsound, hdependencies⟩ := deleteJob_sound ht hd hfits
    exact ⟨hsound, hdependencies, hanswer⟩
  · obtain ⟨hsound, hdependencies⟩ := saveJob_sound ht hd hfits
    exact ⟨hsound, hdependencies, hanswer⟩
  · split
    · exact hsame hanswer
    · rename_i specs hok
      refine ⟨.of (ht.specs.saveSpecRow hok) ht.jobs, hd, ?_⟩
      rintro p ⟨⟩
      trivial
  · split
    · exact hsame hanswer
    · apply hsame
      rintro p ⟨⟩
      trivial
  · refine ⟨.of ⟨ht.specNames.filter _, ht.definitionIds.filter _, ?_⟩ ht.jobs, hd, hanswer⟩
    intro spec hspec
    exact ht.specsStorable spec (List.mem_filter.mp hspec).1
  · obtain ⟨hsound, hdependencies⟩ := deleteJob_sound ht hd hfits
    exact ⟨hsound, hdependencies, hanswer⟩
  · apply hsame
    rintro p ⟨⟩
    exact hpoint
  · obtain ⟨hsound, hdependencies⟩ := write_sound ht hd hpoint.2
    refine ⟨hsound, hdependencies, ?_⟩
    rintro p ⟨⟩
    exact hpoint
  all_goals
    apply hsame
    rintro p ⟨⟩
    trivial

end Tables

theorem GraphSound.step {e : DefinitionEvent} (hs : s.GraphSound) (hfits : s.GraphFits e)
    (h : (machine calendar).step s e = some t) : t.GraphSound := by
  cases e with
  | begin call =>
    cases h
    refine ⟨hs.tables, hs.dependencies, ?_⟩
    intro c hc
    rcases List.mem_append.mp hc with hc | hc
    · exact hs.points c hc
    · rw [List.mem_singleton.mp hc]
      trivial
  | proceed i =>
    obtain ⟨c, hc, rfl⟩ := Option.map_eq_some_iff.mp h
    have hpoint := hs.points c (List.mem_of_getElem? hc)
    obtain ⟨hsound, hdependencies, hnext⟩ :=
      @advance_sound calendar _ c.call _ hs.tables hs.dependencies hpoint (hfits c hc)
    unfold DefinitionState.proceed
    split
    · rename_i tables point hadvance
      rw [hadvance] at hsound hdependencies hnext
      refine ⟨hsound, hdependencies, ?_⟩
      intro c' hc'
      rcases List.mem_or_eq_of_mem_set hc' with hold | rfl
      · exact hs.points c' hold
      · exact hnext point rfl
    · rename_i tables response hadvance
      rw [hadvance] at hsound hdependencies
      refine ⟨hsound, hdependencies, ?_⟩
      intro c' hc'
      exact hs.points c' (List.mem_of_mem_eraseIdx hc')
  | drop i =>
    obtain ⟨c, hc, rfl⟩ := Option.map_eq_some_iff.mp h
    exact ⟨hs.tables, hs.dependencies, fun c' hc' => hs.points c' (List.mem_of_mem_eraseIdx hc')⟩
  | restorePrevious i =>
    obtain ⟨c, hc, hrestore⟩ := Option.bind_eq_some_iff.mp h
    unfold DefinitionState.restorePrevious at hrestore
    split at hrestore
    · rename_i previous target hpoint
      cases hrestore
      have hsnapshots := hs.points c (List.mem_of_getElem? hc)
      rw [hpoint] at hsnapshots
      obtain ⟨hsound, hdependencies⟩ := write_sound hs.tables hs.dependencies hsnapshots.1
      exact ⟨hsound, hdependencies, hs.points⟩
    · cases hrestore
  | crash =>
    cases h
    exact ⟨hs.tables, hs.dependencies, fun c hc => hs.points c (List.mem_filter.mp hc).1⟩

/-- In every run in which each write passes its call's checks on the definitions stored then,
the dependencies stay closed and free of cycles. -/
theorem run_dependenciesSound (htables : s.tables.Sound)
    (hdependencies : DependenciesSound s.tables.store.jobs) (hcalls : s.calls = [])
    (hrun : (machine calendar).Run GraphFits s t) : DependenciesSound t.tables.store.jobs := by
  have hstart : s.GraphSound := by
    refine ⟨htables, hdependencies, ?_⟩
    intro c hc
    rw [hcalls] at hc
    exact absurd hc List.not_mem_nil
  exact (hrun.invariant (fun u e v hu hfits hstep => hu.step hfits hstep) hstart).dependencies

section TwoUpdates

def plainJob (id : ℕ) (name : String) : Job :=
  { id := ⟨id⟩, name, command := "/bin/true", trigger := .cron "0 * * * *" }

def twoJobs : DefinitionState :=
  { tables := { store := { jobs := [plainJob 1 "a", plainJob 2 "b"] } } }

theorem plainJob_storable (id : ℕ) (name : String) : (plainJob id name).Storable := by
  refine ⟨?_, ?_, (by decide : 0 < 2^63)⟩
  · intro every h
    cases h
  · intro timeout h
    cases h

theorem twoJobs_sound : twoJobs.tables.Sound := by
  refine .of ⟨List.nodup_nil, List.nodup_nil, fun spec h => absurd h List.not_mem_nil⟩
    ⟨(by decide : (["a", "b"] : List String).Nodup), ?_⟩
  intro job hjob
  rcases List.mem_cons.mp hjob with rfl | hjob
  · exact plainJob_storable 1 "a"
  · rw [List.mem_singleton.mp hjob]
    exact plainJob_storable 2 "b"

/-- A definition that waits for another job. -/
def waiting (id : ℕ) (name upstream : String) : Job :=
  { plainJob id name with trigger := .dependsOn [upstream] }

/-- An update that makes `a` wait for `b`, and meanwhile a new job that waits for `a`. -/
theorem twoJobs_dependenciesSound : ∃ t : DefinitionState,
    DependenciesSound t.tables.store.jobs ∧
      t.tables.store.jobs.map (fun job => (job.name, job.upstreamNames)) =
        [("a", ["b"]), ("b", []), ("c", ["a"])] := by
  obtain ⟨t, hrun, hjobs⟩ := Machine.exists_run_of_execUnder (M := machine .hourly)
    (C := GraphFits) (s := twoJobs)
    (fun t => t.tables.store.jobs.map (fun job => (job.name, job.upstreamNames)) =
      [("a", ["b"]), ("b", []), ("c", ["a"])])
    [.begin (.updateJob "a" (waiting 1 "a" "b") 5 0), .begin (.addJob (waiting 3 "c" "a") 0),
      .proceed 0, .proceed 1, .proceed 0, .proceed 1, .proceed 1, .proceed 0]
    (by decide +kernel)
  have hnone : ∀ job ∈ twoJobs.tables.store.jobs, job.upstreamNames = [] := by decide
  have hdependencies : DependenciesSound twoJobs.tables.store.jobs := by
    constructor
    · intro job hjob upstream hupstream
      rw [hnone job hjob] at hupstream
      exact absurd hupstream List.not_mem_nil
    · intro a hcycle
      obtain ⟨b, hb, -⟩ := Relation.TransGen.head'_iff.mp hcycle
      obtain ⟨job, hjob, -, hmem⟩ := mem_of_mem_upstreamOf hb
      rw [hnone job hjob] at hmem
      exact absurd hmem List.not_mem_nil
  exact ⟨t, run_dependenciesSound twoJobs_sound hdependencies rfl hrun, of_decide_eq_true hjobs⟩

/-- Two updates, each checked before the other is saved, make two jobs wait for each other. -/
theorem twoJobs_cycle : ∃ t, (machine .hourly).Reaches twoJobs t ∧
    ¬DependenciesSound t.tables.store.jobs := by
  obtain ⟨t, hrun, hjobs⟩ := Machine.exists_reaches_of_exec (M := machine .hourly) (s := twoJobs)
    (fun t => "b" ∈ upstreamOf t.tables.store.jobs "a" ∧
      "a" ∈ upstreamOf t.tables.store.jobs "b")
    [.begin (.updateJob "a" (waiting 1 "a" "b") 5 0),
      .begin (.updateJob "b" (waiting 2 "b" "a") 6 0),
      .proceed 0, .proceed 1, .proceed 0, .proceed 1] (by decide +kernel)
  obtain ⟨hab, hba⟩ := of_decide_eq_true hjobs
  refine ⟨t, hrun, ?_⟩
  intro hsound
  have hcycle : Relation.TransGen (GraphSearch.Edge (upstreamOf t.tables.store.jobs)) "a" "a" :=
    .tail (.single hab) hba
  exact hsound.acyclic "a" hcycle

end TwoUpdates

end DefinitionState

end Supervisor
