import Mathlib.Data.List.AList
import Mathlib.Data.Prod.Lex
import Mathlib.Data.String.Basic
import Supervisor.OrderedPage
import Supervisor.ProcessDomain

namespace Supervisor

/-- A path by its components, by which paths are compared -/
abbrev Components := List String

/-- `Path::components`. The root directory is written as `/`. -/
def components (path : String) : Components :=
  match path.toList.splitOn '/' with
  | [] => []
  | first :: rest =>
    -- only a leading dot is a component
    (if path.toList.head? = some '/' then ["/"] else if first = [] then [] else [String.ofList first])
      ++ (rest.filter fun name => name ≠ [] ∧ name ≠ ['.']).map String.ofList

/-- The order of components: the root, `.`, `..`, and then the names -/
def componentRank (component : String) : ℕ ×ₗ String :=
  toLex (if component = "/" then 0 else if component = "." then 1 else if component = ".." then 2
    else 3, component)

def pathRank (path : Components) : List (ℕ ×ₗ String) := path.map componentRank

def watchChannelCapacity : ℕ := 256

def watchBatchPathLimit : ℕ := 1024

def watchRescanEntryLimit : ℕ := 10000

/-- How a rescan fails -/
inductive RescanError where
  | tooManyEntries
  | cannotInspect (path : Components) (error : String)
  | cannotScan (path : Components) (error : String)
  | entry (error : String)
deriving DecidableEq

def display (path : Components) : String :=
  match path with
  | "/" :: names => "/" ++ "/".intercalate names
  | names => "/".intercalate names

def RescanError.message : RescanError → String
  | .tooManyEntries => s!"watch rescan exceeds {watchRescanEntryLimit} entries"
  | .cannotInspect path error => s!"cannot inspect {display path}: {error}"
  | .cannotScan path error => s!"cannot scan {display path}: {error}"
  | .entry error => error

structure FileStamp where
  isDir : Bool
  len : U64
  modified : Option ℕ
deriving DecidableEq

mutual

/-- What a scan sees at a path -/
inductive Seen where
  | notFound
  | unreadable (error : String)
  | symlink
  | file (stamp : FileStamp)
  | directory (stamp : FileStamp) (listing : Listing)

/-- What `read_dir` gives, one entry after another -/
inductive Listing where
  | unreadable (error : String)
  | done
  | broken (error : String)
  | entry (name : String) (seen : Seen) (rest : Listing)

end

abbrev Snapshot := AList fun _ : Components => FileStamp

/-- `path.starts_with(root)` for one of the roots -/
def isUnder (roots : List String) (path : Components) : Bool :=
  roots.any fun root => components root <+: path

mutual

/-- `snapshot_path` -/
def snapshotPath (policy : WatchPolicy) (path : Components) : Seen → Snapshot →
    Except RescanError Snapshot
  | seen, snapshot =>
    if watchRescanEntryLimit ≤ snapshot.entries.length then .error .tooManyEntries
    else if isUnder policy.exclusions path then .ok snapshot
    else match seen with
      | .notFound => .ok snapshot
      | .unreadable error => .error (.cannotInspect path error)
      | .symlink => .ok snapshot
      | .file stamp => .ok (snapshot.insert path stamp)
      | .directory stamp listing =>
        if policy.recursive then snapshotListing policy path listing (snapshot.insert path stamp)
        else .ok (snapshot.insert path stamp)

def snapshotListing (policy : WatchPolicy) (path : Components) : Listing → Snapshot →
    Except RescanError Snapshot
  | .unreadable error, _ => .error (.cannotScan path error)
  | .done, snapshot => .ok snapshot
  | .broken error, _ => .error (.entry error)
  | .entry name seen rest, snapshot =>
    match snapshotPath policy (path ++ [name]) seen snapshot with
    | .error error => .error error
    | .ok snapshot => snapshotListing policy path rest snapshot

end

/-- `snapshot_roots`, where the scan sees something at each root -/
def snapshotRoots (policy : WatchPolicy) (seen : Components → Seen) : Except RescanError Snapshot :=
  policy.roots.foldlM (fun snapshot root =>
    snapshotPath policy (components root) (seen (components root)) snapshot) ∅

/-- `snapshot_diff` -/
def snapshotDiff (previous current : Snapshot) : List Components :=
  let changed := (current.entries.filter fun row => previous.lookup row.1 ≠ some row.2).map Sigma.fst
  let removed := previous.keys.filter fun path => path ∉ current
  OrderedPage.first pathRank watchBatchPathLimit (changed ++ removed)

/-- The paths of the roots that no exclusion takes away -/
def isWatched (policy : WatchPolicy) (path : Components) : Bool :=
  isUnder policy.roots path && !isUnder policy.exclusions path

section Scan

variable {policy : WatchPolicy} {path : Components} {snapshot result : Snapshot}

theorem isUnder_of_begins {roots : List String} {root : String} (hroot : root ∈ roots)
    (h : components root <+: path) : isUnder roots path = true :=
  List.any_eq_true.mpr ⟨root, hroot, decide_eq_true h⟩

/-- What a scan of a path puts into the snapshot -/
def Scanned (policy : WatchPolicy) (path : Components) (snapshot result : Snapshot) : Prop :=
  ∀ key ∈ result, key ∈ snapshot ∨ path <+: key ∧ isUnder policy.exclusions key = false

theorem Scanned.refl : Scanned policy path snapshot snapshot := fun _ h => Or.inl h

theorem Scanned.insert {stamp : FileStamp} (h : isUnder policy.exclusions path = false) :
    Scanned policy path snapshot (snapshot.insert path stamp) := by
  intro key hkey
  rcases AList.mem_insert snapshot |>.mp hkey with rfl | hkey
  · exact Or.inr ⟨List.prefix_rfl, h⟩
  · exact Or.inl hkey

theorem Scanned.trans {middle : Snapshot} (h : Scanned policy path snapshot middle)
    (h' : Scanned policy path middle result) : Scanned policy path snapshot result := by
  intro key hkey
  rcases h' key hkey with hkey | hkey
  · exact h key hkey
  · exact Or.inr hkey

theorem Scanned.child {name : String} (h : Scanned policy (path ++ [name]) snapshot result) :
    Scanned policy path snapshot result := by
  intro key hkey
  rcases h key hkey with hkey | ⟨hbegins, hkept⟩
  · exact Or.inl hkey
  · exact Or.inr ⟨(List.prefix_append path [name]).trans hbegins, hkept⟩

mutual

theorem snapshotPath_scanned (policy : WatchPolicy) (path : Components) (seen : Seen)
    (snapshot result : Snapshot) (h : snapshotPath policy path seen snapshot = .ok result) :
    Scanned policy path snapshot result := by
  unfold snapshotPath at h
  split at h
  · cases h
  · split at h
    · cases h
      exact .refl
    · rename_i hkept
      have hkept : isUnder policy.exclusions path = false := Bool.eq_false_iff.mpr hkept
      cases seen with
      | notFound =>
        cases h
        exact .refl
      | unreadable error => cases h
      | symlink =>
        cases h
        exact .refl
      | file stamp =>
        cases h
        exact .insert hkept
      | directory stamp listing =>
        dsimp only at h
        split at h
        · exact (Scanned.insert hkept).trans
            (snapshotListing_scanned policy path listing _ result h)
        · cases h
          exact .insert hkept

theorem snapshotListing_scanned (policy : WatchPolicy) (path : Components) (listing : Listing)
    (snapshot result : Snapshot) (h : snapshotListing policy path listing snapshot = .ok result) :
    Scanned policy path snapshot result := by
  cases listing with
  | unreadable error => cases h
  | done =>
    cases h
    exact .refl
  | broken error => cases h
  | entry name seen rest =>
    unfold snapshotListing at h
    split at h
    · cases h
    · rename_i middle hentry
      have hfirst := snapshotPath_scanned policy (path ++ [name]) seen snapshot middle hentry
      exact hfirst.child.trans (snapshotListing_scanned policy path rest middle result h)

end

/-- A snapshot of watched paths only -/
def Snapshot.Clean (policy : WatchPolicy) (snapshot : Snapshot) : Prop :=
  ∀ path ∈ snapshot, isWatched policy path = true

theorem snapshotRoots_clean {seen : Components → Seen}
    (h : snapshotRoots policy seen = .ok result) : result.Clean policy := by
  have hroots : ∀ (roots : List String) (snapshot : Snapshot), (∀ root ∈ roots, root ∈ policy.roots) →
      snapshot.Clean policy → roots.foldlM (fun snapshot root =>
        snapshotPath policy (components root) (seen (components root)) snapshot) snapshot =
          .ok result → result.Clean policy := by
    intro roots
    induction roots with
    | nil =>
      intro snapshot _ hclean hfold
      cases hfold
      exact hclean
    | cons root roots ih =>
      intro snapshot hmem hclean hfold
      rw [List.foldlM_cons] at hfold
      cases hfirst : snapshotPath policy (components root) (seen (components root)) snapshot with
      | error error =>
        rw [hfirst] at hfold
        cases hfold
      | ok middle =>
        rw [hfirst] at hfold
        refine ih middle (fun r hr => hmem r (List.mem_cons_of_mem root hr)) ?_ hfold
        intro path hpath
        rcases snapshotPath_scanned _ _ _ _ _ hfirst path hpath with hold | ⟨hbegins, hkept⟩
        · exact hclean path hold
        · unfold isWatched
          rw [isUnder_of_begins (hmem root List.mem_cons_self) hbegins, hkept]
          rfl
  exact hroots policy.roots ∅ (fun _ hr => hr) (fun path hpath => absurd hpath (by simp)) h

theorem snapshotDiff_clean {previous current : Snapshot} (hprevious : previous.Clean policy)
    (hcurrent : current.Clean policy) :
    ∀ path ∈ snapshotDiff previous current, isWatched policy path = true := by
  intro path hpath
  rcases List.mem_append.mp (OrderedPage.mem_of_mem_first hpath) with hpath | hpath
  · obtain ⟨row, hrow, rfl⟩ := List.mem_map.mp hpath
    exact hcurrent row.1 (List.mem_keys_of_mem (List.mem_filter.mp hrow).1)
  · exact hprevious path (List.mem_filter.mp hpath).1

end Scan

end Supervisor
