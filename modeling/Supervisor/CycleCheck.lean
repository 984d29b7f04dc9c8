import Mathlib.Algebra.Order.BigOperators.Group.List
import Mathlib.Algebra.Order.Group.Nat
import Supervisor.DependencyGraph
import Supervisor.DuplicateNames

namespace GraphSearch

universe u

variable {α : Type u} [DecidableEq α] {succ : α → List α} {target : α}

/-- The search, with no answer when it has not ended within the steps. -/
def searchWithin (succ : α → List α) (target : α) : ℕ → List α → List α → Option Bool
  | 0, _, _ => none
  | _ + 1, _, [] => some false
  | steps + 1, seen, current :: stack =>
    if current = target then some true
    else if current ∈ seen then searchWithin succ target steps seen stack
    else searchWithin succ target steps (current :: seen) ((succ current).reverse ++ stack)

/-- Every step takes a node from the stack, and a node is expanded once. -/
theorem searchWithin_eq_some {nodes : List α} (hnodes : ∀ a, succ a ≠ [] → a ∈ nodes)
    {steps fuel : ℕ} {seen stack : List α} (hsteps : stack.length + weight succ nodes seen < steps)
    (hfuel : stack.length + weight succ nodes seen < fuel) :
    searchWithin succ target steps seen stack = some (search succ target fuel seen stack) := by
  induction steps generalizing fuel seen stack with
  | zero => exact absurd hsteps (Nat.not_lt_zero _)
  | succ steps ih =>
    cases fuel with
    | zero => exact absurd hfuel (Nat.not_lt_zero _)
    | succ fuel =>
      cases stack with
      | nil => rfl
      | cons current stack =>
        rw [List.length_cons] at hsteps hfuel
        rw [searchWithin, search]
        split
        · rfl
        · split
          · exact ih (by omega) (by omega)
          · rename_i hnew
            have hexpand := weight_expand hnew (hnodes current)
            apply ih
            · rw [List.length_append, List.length_reverse]
              omega
            · rw [List.length_append, List.length_reverse]
              omega

end GraphSearch

namespace Supervisor

open GraphSearch (Edge)

variable {job : Job} {existing : List Job}

/-- The names of the jobs, without those that an earlier job has -/
def firstNames : List Job → List String
  | [] => []
  | job :: rest => job.name :: (firstNames rest).filter (· ≠ job.name)

theorem mem_firstNames {name : String} (h : ∃ job ∈ existing, job.name = name) :
    name ∈ firstNames existing := by
  induction existing with
  | nil =>
    obtain ⟨job, hjob, -⟩ := h
    exact absurd hjob List.not_mem_nil
  | cons first rest ih =>
    obtain ⟨job, hjob, hname⟩ := h
    by_cases hfirst : name = first.name
    · rw [hfirst]
      exact List.mem_cons_self
    · rcases List.mem_cons.mp hjob with rfl | hrest
      · exact absurd hname.symm hfirst
      · apply List.mem_cons_of_mem
        exact List.mem_filter.mpr ⟨ih ⟨job, hrest, hname⟩, decide_eq_true hfirst⟩

/-- The search pushes the dependencies of a name once. -/
theorem weight_firstNames (existing : List Job) :
    ((firstNames existing).map fun name => (upstreamOf existing name).length).sum ≤
      (existing.map fun job => job.upstreamNames.length).sum := by
  induction existing with
  | nil => exact Nat.le_refl 0
  | cons first rest ih =>
    have hhead : upstreamOf (first :: rest) first.name = first.upstreamNames := by
      rw [upstreamOf_eq]
      simp [KeyedRows.find]
    have htail (name : String) (hne : name ≠ first.name) :
        upstreamOf (first :: rest) name = upstreamOf rest name := by
      rw [upstreamOf_eq, upstreamOf_eq]
      simp [KeyedRows.find, hne.symm]
    have hothers : ((firstNames rest).filter (· ≠ first.name)).map
        (fun name => (upstreamOf (first :: rest) name).length) =
          ((firstNames rest).filter (· ≠ first.name)).map
            fun name => (upstreamOf rest name).length := by
      apply List.map_congr_left
      intro name hname
      rw [htail name (of_decide_eq_true (List.mem_filter.mp hname).2)]
    have hle : (((firstNames rest).filter (· ≠ first.name)).map
        fun name => (upstreamOf rest name).length).sum ≤
          ((firstNames rest).map fun name => (upstreamOf rest name).length).sum :=
      (List.filter_sublist.map _).sum_le_sum fun _ _ => Nat.zero_le _
    calc ((firstNames (first :: rest)).map
          fun name => (upstreamOf (first :: rest) name).length).sum
        = first.upstreamNames.length + (((firstNames rest).filter (· ≠ first.name)).map
            fun name => (upstreamOf rest name).length).sum := by
          rw [firstNames, List.map_cons, List.sum_cons, hhead, hothers]
      _ ≤ first.upstreamNames.length +
            (rest.map fun job => job.upstreamNames.length).sum := by omega
      _ = ((first :: rest).map fun job => job.upstreamNames.length).sum := by
          rw [List.map_cons, List.sum_cons]

/-- The loop of `forms_cycle`, with no answer when it has not ended within the steps. -/
def formsCycleWithin (steps : ℕ) (job : Job) (existing : List Job) : Option Bool :=
  match job.trigger with
  | .dependsOn direct =>
    GraphSearch.searchWithin (upstreamOf existing) job.name steps [] direct.reverse
  | _ => some false

/-- The dependencies of each name, once those of the job have been added. -/
def withDependencies (job : Job) (existing : List Job) (name : String) : List String :=
  if name = job.name then job.upstreamNames else upstreamOf existing name

theorem mem_firstNames_of_upstream (name : String) (h : upstreamOf existing name ≠ []) :
    name ∈ firstNames existing := by
  obtain ⟨upstream, hmem⟩ := List.exists_mem_of_ne_nil _ h
  obtain ⟨other, hother, hname, -⟩ := mem_of_mem_upstreamOf hmem
  exact mem_firstNames ⟨other, hother, hname⟩

theorem searchFuel (direct : List String) :
    direct.reverse.length + GraphSearch.weight (upstreamOf existing) (firstNames existing) [] <
      direct.length + (existing.map fun other => other.upstreamNames.length).sum + 1 := by
  have hall : (firstNames existing).filter (· ∉ []) = firstNames existing :=
    List.filter_eq_self.mpr fun _ _ => by simp
  have hle := weight_firstNames existing
  unfold GraphSearch.weight
  rw [hall, List.length_reverse]
  omega

theorem formsCycle_ends (job : Job) (existing : List Job) :
    ∃ bound, ∀ steps ≥ bound, formsCycleWithin steps job existing = some (formsCycle job existing) := by
  unfold formsCycleWithin formsCycle
  cases job.trigger with
  | dependsOn direct =>
    refine ⟨direct.length + (existing.map fun other => other.upstreamNames.length).sum + 1, ?_⟩
    intro steps hsteps
    have hfuel := @searchFuel existing direct
    dsimp only
    rw [reaches_eq_search]
    exact GraphSearch.searchWithin_eq_some mem_firstNames_of_upstream (by omega) hfuel
  | cron | interval | oneShot => exact ⟨0, fun _ _ => rfl⟩

/-- It answers that a dependency of the job leads back to it. -/
theorem formsCycle_reaches : formsCycle job existing = true ↔
    ∃ upstream ∈ job.upstreamNames,
      Relation.ReflTransGen (Edge (upstreamOf existing)) upstream job.name := by
  unfold formsCycle
  cases htrigger : job.trigger with
  | dependsOn direct =>
    have hdirect : job.upstreamNames = direct := by
      unfold Job.upstreamNames
      rw [htrigger]
    dsimp only
    rw [reaches_eq_search, GraphSearch.search_iff mem_firstNames_of_upstream (searchFuel direct),
      hdirect]
    simp only [List.mem_reverse]
  | cron | interval | oneShot =>
    have hnone : job.upstreamNames = [] := by
      unfold Job.upstreamNames
      rw [htrigger]
    rw [hnone]
    simp

/-- The dependencies of the job do not matter on a path that ends at it. -/
theorem reaches_withDependencies {upstream : String} :
    Relation.ReflTransGen (Edge (withDependencies job existing)) upstream job.name ↔
      Relation.ReflTransGen (Edge (upstreamOf existing)) upstream job.name := by
  constructor
  · intro h
    apply Relation.ReflTransGen.mono _ _ _ (GraphSearch.reflTransGen_until h)
    rintro a b ⟨hedge, hne⟩
    have hedge' : b ∈ withDependencies job existing a := hedge
    rwa [withDependencies, if_neg hne] at hedge'
  · intro h
    have hmono := Relation.ReflTransGen.mono (r := fun a b => Edge (upstreamOf existing) a b ∧ a ≠ job.name)
      (p := Edge (withDependencies job existing)) ?_ _ _ (GraphSearch.reflTransGen_until h)
    · exact hmono
    · rintro a b ⟨hedge, hne⟩
      show b ∈ withDependencies job existing a
      rwa [withDependencies, if_neg hne]

theorem formsCycle_iff_cycle : formsCycle job existing = true ↔
    Relation.TransGen (Edge (withDependencies job existing)) job.name job.name := by
  rw [formsCycle_reaches, Relation.TransGen.head'_iff]
  apply exists_congr
  intro upstream
  rw [reaches_withDependencies]
  apply and_congr_left
  intro _
  show _ ↔ upstream ∈ withDependencies job existing job.name
  rw [withDependencies, if_pos rfl]

/-- The check of a dependency cycle always ends with the exact answer, and an accepted snapshot is
closed and without cycles. -/
theorem cycle_check_exact :
    (∀ (job : Job) (existing : List Job),
      (∃ bound, ∀ steps ≥ bound,
        formsCycleWithin steps job existing = some (formsCycle job existing)) ∧
      (formsCycle job existing = true ↔
        Relation.TransGen (Edge (withDependencies job existing)) job.name job.name)) ∧
    ∀ (previous target : ConfigSnapshot) (now : Instant),
      validateConfigSnapshot previous target now = .ok () → DependenciesSound target.jobs := by
  constructor
  · intro job existing
    exact ⟨formsCycle_ends job existing, formsCycle_iff_cycle⟩
  · intro previous target now h
    obtain ⟨-, -, hnames⟩ := validateConfigSnapshot_ok_iff.mp h
    exact dependenciesSound_of_validated hnames h

section Runs

/-- A job that runs every minute, and one that depends on it -/
def chainedJobs : ConfigSnapshot where
  jobs := [{ id := ⟨1⟩, name := "build", command := "make", trigger := .interval (.fromSecs 60) },
    { id := ⟨2⟩, name := "test", command := "make", trigger := .dependsOn ["build"] }]

theorem chainedJobs_sound : DependenciesSound chainedJobs.jobs :=
  cycle_check_exact.2 {} chainedJobs 0 (by decide +kernel)

end Runs

end Supervisor
