import Supervisor.ConfigValidation
import Supervisor.DefinitionRows

namespace Supervisor

/-- What the tables hold under a name when no entry of the file is about it. -/
def ApplyMode.kept {α : Type} (mode : ApplyMode) (current : Option α) : Option α :=
  match mode with
  | .merge => current
  | .replace => none

section Snapshots

variable {current : ConfigSnapshot} {loaded : LoadedConfig} {newTriggerIds : String → Uuid}

theorem sortByName_perm {α : Type} (name : α → String) (rows : List α) :
    (sortByName name rows).Perm rows := List.perm_insertionSort _ _

theorem sortByName_sorted {α : Type} (name : α → String) (rows : List α) :
    (sortByName name rows).Pairwise fun a b => name a ≤ name b := by
  have htotal : Std.Total fun a b : α => name a ≤ name b := ⟨fun _ _ => String.le_total _ _⟩
  have htrans : IsTrans α fun a b => name a ≤ name b := ⟨fun _ _ _ => String.le_trans⟩
  exact List.pairwise_insertionSort _ _

theorem find_sortByName {α : Type} {name : α → String} {rows : List α}
    (hu : KeyedRows.Unique name rows) (n : String) :
    KeyedRows.find name n (sortByName name rows) = KeyedRows.find name n rows :=
  hu.find_perm (sortByName_perm name rows) n

/-- A map that starts from the current rows or from nothing, with rows inserted. -/
theorem find_inserted {α : Type} {name : α → String} {rows : List α} (mode : ApplyMode)
    (hu : KeyedRows.Unique name rows) (xs : List α) :
    let base := match mode with
      | .merge => rows.foldl (KeyedRows.insert name) []
      | .replace => []
    KeyedRows.Unique name (sortByName name (xs.foldl (KeyedRows.insert name) base)) ∧
      ∀ n, KeyedRows.find name n (sortByName name (xs.foldl (KeyedRows.insert name) base)) =
        (KeyedRows.find name n xs.reverse).or (mode.kept (KeyedRows.find name n rows)) := by
  intro base
  have hnil : KeyedRows.Unique name [] := List.nodup_nil
  have hbase : KeyedRows.Unique name base := by
    cases mode with
    | merge => exact hnil.foldl_insert rows
    | replace => exact hnil
  have hfind (n : String) : KeyedRows.find name n base =
      mode.kept (KeyedRows.find name n rows) := by
    cases mode with
    | merge => exact hu.find_collect n
    | replace => rfl
  have hall := hbase.foldl_insert xs
  refine ⟨hall.perm (sortByName_perm _ _), fun n => ?_⟩
  rw [find_sortByName hall, KeyedRows.find_foldl_insert, hfind]

theorem adoptIdentity_name (jobs : List Job) (newTriggerId : Uuid) (job : Job) :
    (adoptIdentity jobs newTriggerId job).name = job.name := by
  unfold adoptIdentity
  split
  · rfl
  · split <;> rfl

theorem targetSnapshot_processes (mode : ApplyMode)
    (hu : KeyedRows.Unique ProcessSpec.name current.processes) :
    KeyedRows.Unique ProcessSpec.name
        (targetSnapshot current loaded mode newTriggerIds).processes ∧
      ∀ n, KeyedRows.find ProcessSpec.name n
          (targetSnapshot current loaded mode newTriggerIds).processes =
        (KeyedRows.find ProcessSpec.name n loaded.processes.reverse).or
          (mode.kept (KeyedRows.find ProcessSpec.name n current.processes)) :=
  find_inserted mode hu _

theorem targetSnapshot_jobs (mode : ApplyMode)
    (hu : KeyedRows.Unique Job.name current.jobs) :
    KeyedRows.Unique Job.name (targetSnapshot current loaded mode newTriggerIds).jobs ∧
      ∀ n, KeyedRows.find Job.name n (targetSnapshot current loaded mode newTriggerIds).jobs =
        ((KeyedRows.find Job.name n loaded.jobs.reverse).map fun job =>
          adoptIdentity current.jobs (newTriggerIds job.name) job).or
            (mode.kept (KeyedRows.find Job.name n current.jobs)) := by
  have hinserted := find_inserted mode hu (loaded.jobs.map fun job =>
    adoptIdentity current.jobs (newTriggerIds job.name) job)
  refine ⟨hinserted.1, fun n => ?_⟩
  have hfind := hinserted.2 n
  rw [← List.map_reverse, KeyedRows.find_map fun job => adoptIdentity_name _ _ job] at hfind
  exact hfind

end Snapshots

section Diff

variable {α : Type} {name : α → String} {left right : List α}

variable {current target : ConfigSnapshot}

end Diff

section Validation

variable {previous previous' : List ProcessSpec} {specs : List ProcessSpec}

theorem ProcessSpec.validate_multiplier {spec : ProcessSpec} (h : spec.validate = .ok ()) :
    spec.restart.backoffMultiplier ≠ 0 := by
  unfold ProcessSpec.validate at h
  split at h
  · cases h
  · split at h
    · cases h
    · split at h
      · cases h
      · rename_i hne
        exact hne

end Validation

section Convert

theorem millisOr_storable {ms : Option U64} (h : ∀ n ∈ ms, n.val < 2^63) {default : Duration}
    (hdefault : default.asMillis < 2^63) : (Convert.millisOr ms default).Storable := by
  cases ms with
  | none => exact ⟨default.asMillis, hdefault, rfl⟩
  | some n => exact ⟨n.val, h n rfl, rfl⟩

theorem processSpec_storable {dto : ProcessConfigDto} (h : ∀ n ∈ dto.integers, n.val < 2^63)
    (hmultiplier : (Convert.processSpec dto).restart.backoffMultiplier ≠ 0) :
    (Convert.processSpec dto).Storable := by
  have hsecond : (Duration.fromSecs 1).Storable := ⟨1000, by omega, rfl⟩
  have hminute : (Duration.fromSecs 60).Storable := ⟨60000, by omega, rfl⟩
  have hten : (Duration.fromSecs 10).Storable := ⟨10000, by omega, rfl⟩
  obtain ⟨hinitial, hmax, hreset⟩ : (Convert.restartPolicy dto.restart).backoffInitial.Storable ∧
      (Convert.restartPolicy dto.restart).backoffMax.Storable ∧
      (Convert.restartPolicy dto.restart).resetAfter.Storable := by
    cases hrestart : dto.restart with
    | none => exact ⟨hsecond, hminute, hminute⟩
    | some policy =>
      have hin (n : U64) (hn : n ∈ policy.integers) : n.val < 2^63 := by
        apply h
        simp [ProcessConfigDto.integers, hrestart, hn]
      refine ⟨millisOr_storable ?_ (by decide), millisOr_storable ?_ (by decide),
        millisOr_storable ?_ (by decide)⟩
      · exact fun n hn => hin n (by simp [RestartPolicyDto.integers, Option.mem_def.mp hn])
      · exact fun n hn => hin n (by simp [RestartPolicyDto.integers, Option.mem_def.mp hn])
      · exact fun n hn => hin n (by simp [RestartPolicyDto.integers, Option.mem_def.mp hn])
  have hgrace : (Convert.shutdownPolicy dto.shutdown).gracePeriod.Storable := by
    cases hshutdown : dto.shutdown with
    | none => exact hten
    | some policy =>
      apply millisOr_storable _ (by decide)
      intro n hn
      apply h
      simp [ProcessConfigDto.integers, hshutdown, Option.mem_def.mp hn]
  exact ⟨hinitial, hmax, hmultiplier, hreset, hgrace⟩

end Convert

end Supervisor
