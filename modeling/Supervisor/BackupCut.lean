import Supervisor.FileTree
import Supervisor.UpgradeRollback

namespace Supervisor

namespace BackupCut

open FileTree (Node Entry)
open Function (update)
open Rollback (LiveDirectory liveDirectories)

/-- An entry of a manifest; the path is without its first slash. -/
structure ManifestEntry where
  path : List String
  bytes : Option ℕ
deriving DecidableEq

mutual

/-- A cut holds no symlink and nothing special, so nothing is ever copied onto one. -/
def copyPrivateTree : Node → List String → Option Node → List ManifestEntry →
    Option (Node × List ManifestEntry)
  | .file bytes, destination, existing, entries =>
    match existing with
    | none | some (.file _) => some (.file bytes, entries ++ [⟨destination, some bytes.length⟩])
    | _ => none
  | .directory children, destination, existing, entries =>
    match existing with
    | none => copyChildren children destination [] entries
    | some (.directory present) => copyChildren children destination present entries
    | _ => none
  | .symlink _, _, _, _ => none
  | .special, _, _, _ => none

/-- The loop over `read_dir`. -/
def copyChildren : List (String × Node) → List String → List (String × Node) →
    List ManifestEntry → Option (Node × List ManifestEntry)
  | [], _, present, entries => some (.directory present, entries)
  | (name, child) :: rest, destination, present, entries =>
    match copyPrivateTree child (destination ++ [name]) (Node.child name present) entries with
    | some (copied, entries) =>
      copyChildren rest destination (KeyedRows.insert Prod.fst present (name, copied)) entries
    | none => none

end

def directoryName : LiveDirectory → String
  | .data => "data"
  | .config => "config"
  | .logs => "logs"

structure Manifest where
  /-- Nothing when `entries` is missing or no array. -/
  entries : Option (List ManifestEntry)
deriving DecidableEq

/-- A directory of `backups`. -/
structure BackupDirectory where
  /-- What is read from `manifest.json`, if that can be read. -/
  manifest : Option Manifest := none
  trees : LiveDirectory → Option Node := fun _ => none

/-- `Path::is_dir` follows a symlink. -/
def isDir : Node → Bool
  | .directory _ | .symlink true => true
  | _ => false

def verifyBackupManifest (trees : LiveDirectory → Option Node) (manifest : Manifest) : Bool :=
  (manifest.entries.any fun entries => entries.all fun entry => entry.bytes.isSome) &&
    liveDirectories.all fun name => (trees name).any isDir

/-- The loop over the three directories of a root. -/
def copyDirectories (backupRoot : List String) (live : LiveDirectory → Option Node) :
    List LiveDirectory → (LiveDirectory → Option Node) → List ManifestEntry →
      Option ((LiveDirectory → Option Node) × List ManifestEntry)
  | [], trees, entries => some (trees, entries)
  | name :: rest, trees, entries => do
    let source ← live name
    let (copied, entries) ←
      copyPrivateTree source (backupRoot ++ [directoryName name]) (trees name) entries
    copyDirectories backupRoot live rest (update trees name (some copied)) entries

def backupRoot (root : List String) (backupId : String) : List String :=
  root ++ ["backups", backupId]

/-- What the two kinds of cut have in common. A directory of the name that is there is used. -/
def cut (root : List String) (backupId : String) (live : LiveDirectory → Option Node)
    (present : BackupDirectory) : Option BackupDirectory := do
  let (trees, entries) ←
    copyDirectories (backupRoot root backupId) live liveDirectories present.trees []
  let manifest : Manifest := { entries := some entries }
  if verifyBackupManifest trees manifest then some { manifest := some manifest, trees } else none

def createBackup (root : List String) (millis : ℕ) (live : LiveDirectory → Option Node)
    (present : BackupDirectory) : Option BackupDirectory :=
  cut root ("backup-" ++ toString millis) live present

def createBackupUnlocked (root : List String) (millis : ℕ) (live : LiveDirectory → Option Node)
    (present : BackupDirectory) : Option BackupDirectory :=
  cut root ("upgrade-" ++ toString millis) live present

def manifestPath (root : List String) (backupId : String) : String :=
  "/".intercalate (backupRoot root backupId ++ ["manifest.json"])

def stageUpgrade (root : List String) (millis : ℕ) (live : LiveDirectory → Option Node)
    (present : BackupDirectory) : Option (BackupDirectory × Rollback.UpgradeJournal) := do
  let backup ← createBackupUnlocked root millis live present
  return (backup, ⟨.committed, some (manifestPath root ("upgrade-" ++ toString millis))⟩)

/-- The check before `rollback_upgrade` writes `rolling_back`. -/
def rollbackProceeds (backup : BackupDirectory) : Bool :=
  backup.manifest.any (verifyBackupManifest backup.trees)

/-- The loop that replaces the live directories by private copies. -/
def restoreDirectories (root : List String) (backup : BackupDirectory) :
    List LiveDirectory → (LiveDirectory → Option Node) → Option (LiveDirectory → Option Node)
  | [], live => some live
  | name :: rest, live => do
    let source ← backup.trees name
    let (staged, _) ← copyPrivateTree source (root ++ ["." ++ directoryName name ++ ".rollback"])
      none []
    let _ ← live name
    restoreDirectories root backup rest (update live name (some staged))

def rollbackUpgrade (root : List String) (backup : BackupDirectory)
    (live : LiveDirectory → Option Node) : Option (LiveDirectory → Option Node) :=
  if rollbackProceeds backup then restoreDirectories root backup liveDirectories live else none

/-- What stands at a path of one of the three directories. -/
def entryAt (trees : LiveDirectory → Option Node) (name : LiveDirectory) (path : List String) :
    Option Entry :=
  (trees name).bind (Node.entryAt path)

def recordedEntries (backup : BackupDirectory) : List ManifestEntry :=
  (backup.manifest.bind Manifest.entries).getD []

/-- The path of a manifest for a file of the backup. -/
def recordedPath (backupRoot : List String) (name : LiveDirectory) (path : List String) :
    List String :=
  backupRoot ++ [directoryName name] ++ path

/-- Every file of the manifest is there with its length, and every file of the source is in the
manifest. -/
structure Intact (backupRoot : List String) (source : LiveDirectory → Option Node)
    (backup : BackupDirectory) : Prop where
  present : ∀ entry ∈ recordedEntries backup, ∃ name path bytes,
    entry.path = recordedPath backupRoot name path ∧
      entryAt backup.trees name path = some (.file bytes) ∧ entry.bytes = some bytes.length
  complete : ∀ name path bytes, entryAt source name path = some (.file bytes) →
    ∃ entry ∈ recordedEntries backup, entry.path = recordedPath backupRoot name path

section Copy

/-- What a copy leaves: the source over what was there, and an entry for each file of the source. -/
structure Copied (source : Node) (destination : List String) (existing : Option Node)
    (entries : List ManifestEntry) (copied : Node) (recorded : List ManifestEntry) : Prop where
  plain : copied.Plain
  entryAt : ∀ path, copied.entryAt path =
    (source.entryAt path).or (existing.bind (Node.entryAt path))
  mem : ∀ entry, entry ∈ recorded ↔ entry ∈ entries ∨ ∃ path bytes,
    source.entryAt path = some (.file bytes) ∧ entry = ⟨destination ++ path, some bytes.length⟩

theorem Copied.file {bytes : List UInt8} {destination : List String} {existing : Option Node}
    {entries : List ManifestEntry} (h : existing = none ∨ ∃ old, existing = some (.file old)) :
    Copied (.file bytes) destination existing entries (.file bytes)
      (entries ++ [⟨destination, some bytes.length⟩]) := by
  refine ⟨.file bytes, fun path => ?_, fun entry => ?_⟩
  · have hnone : path ≠ [] → existing.bind (Node.entryAt path) = none := by
      intro hne
      rcases h with rfl | ⟨old, rfl⟩
      · rfl
      · exact (Node.entryAt_file path old).trans (if_neg hne)
    rw [Node.entryAt_file]
    by_cases hpath : path = []
    · rw [if_pos hpath]
      rfl
    · rw [if_neg hpath, hnone hpath]
      rfl
  · rw [List.mem_append, List.mem_singleton]
    apply or_congr_right
    constructor
    · rintro rfl
      exact ⟨[], bytes, rfl, by rw [List.append_nil]⟩
    · rintro ⟨path, found, hfound, rfl⟩
      rw [Node.entryAt_file] at hfound
      split at hfound
      · rename_i hpath
        cases hfound
        rw [hpath, List.append_nil]
      · cases hfound

/-- One step of the loop over the children; the later ones have other names. -/
theorem copyChildren_copied {rest : List (String × Node)} (hu : KeyedRows.Unique Prod.fst rest)
    (hcopy : ∀ c ∈ rest, ∀ {destination : List String} {existing : Option Node},
      (∀ old ∈ existing, old.Plain) → ∀ {entries recorded : List ManifestEntry} {copied : Node},
      copyPrivateTree c.2 destination existing entries = some (copied, recorded) →
        Copied c.2 destination existing entries copied recorded)
    {destination : List String} {present : List (String × Node)}
    (hpresent : KeyedRows.Unique Prod.fst present) (hplain : ∀ c ∈ present, c.2.Plain)
    {entries recorded : List ManifestEntry} {copied : Node}
    (h : copyChildren rest destination present entries = some (copied, recorded)) :
    Copied (.directory rest) destination (some (.directory present)) entries copied recorded := by
  induction rest generalizing present entries with
  | nil =>
    cases h
    refine ⟨.directory present hpresent hplain, fun path => ?_, fun entry => ?_⟩
    · cases path with
      | nil => rfl
      | cons name path => rfl
    · refine (or_iff_left ?_).symm
      rintro ⟨path, bytes, hfound, -⟩
      cases path with
      | nil => cases hfound
      | cons name path => cases hfound
  | cons first rest ih =>
    obtain ⟨name, child⟩ := first
    obtain ⟨hfresh, hu⟩ := List.nodup_cons.mp hu
    have hnone : Node.child name rest = none := by
      rw [Node.child_eq_none]
      exact fun c hc heq => hfresh (List.mem_map.mpr ⟨c, hc, heq⟩)
    unfold copyChildren at h
    split at h
    · rename_i copiedChild entries' hchild
      have hold : ∀ old ∈ Node.child name present, old.Plain :=
        fun old hold => hplain (name, old) (Node.mem_of_child hold)
      have hfirst := hcopy (name, child) List.mem_cons_self hold hchild
      have hplain' : ∀ c ∈ KeyedRows.insert Prod.fst present (name, copiedChild), c.2.Plain := by
        intro c hc
        rcases KeyedRows.mem_insert.mp hc with ⟨hc, -⟩ | rfl
        · exact hplain c hc
        · exact hfirst.plain
      have hrest := ih hu (fun c hc => hcopy c (List.mem_cons_of_mem _ hc)) hpresent.insert hplain' h
      refine ⟨hrest.plain, fun path => ?_, fun entry => ?_⟩
      · rw [hrest.entryAt]
        cases path with
        | nil => rfl
        | cons other path =>
          show ((Node.child other rest).bind (Node.entryAt path)).or
              ((Node.child other (KeyedRows.insert Prod.fst present (name, copiedChild))).bind
                (Node.entryAt path)) =
            ((Node.child other ((name, child) :: rest)).bind (Node.entryAt path)).or
              ((Node.child other present).bind (Node.entryAt path))
          rw [Node.child_insert, Node.child_cons]
          by_cases heq : name = other
          · subst heq
            rw [if_pos rfl, if_pos rfl, hnone]
            exact hfirst.entryAt path
          · rw [if_neg heq, if_neg heq]
      · rw [hrest.mem, hfirst.mem, or_assoc]
        apply or_congr_right
        constructor
        · rintro (⟨path, bytes, hfound, rfl⟩ | ⟨path, bytes, hfound, rfl⟩)
          · refine ⟨name :: path, bytes, ?_, by rw [List.append_assoc]; rfl⟩
            rw [Node.entryAt_directory, Node.child_cons, if_pos rfl]
            exact hfound
          · refine ⟨path, bytes, ?_, rfl⟩
            cases path with
            | nil => cases hfound
            | cons other path =>
              have hne : name ≠ other := by
                rintro rfl
                rw [Node.entryAt_directory, hnone] at hfound
                cases hfound
              rw [Node.entryAt_directory, Node.child_cons, if_neg hne]
              exact hfound
        · rintro ⟨path, bytes, hfound, rfl⟩
          cases path with
          | nil => cases hfound
          | cons other path =>
            rw [Node.entryAt_directory, Node.child_cons] at hfound
            split at hfound
            · rename_i heq
              subst heq
              exact .inl ⟨path, bytes, hfound, by rw [List.append_assoc]; rfl⟩
            · exact .inr ⟨other :: path, bytes, hfound, rfl⟩
    · cases h

theorem copyPrivateTree_copied {source : Node} (hsource : source.WellFormed)
    {destination : List String} {existing : Option Node} (hexisting : ∀ old ∈ existing, old.Plain)
    {entries recorded : List ManifestEntry} {copied : Node}
    (h : copyPrivateTree source destination existing entries = some (copied, recorded)) :
    Copied source destination existing entries copied recorded := by
  induction source using Node.children_induction generalizing destination existing entries copied
    recorded with
  | file bytes =>
    unfold copyPrivateTree at h
    split at h
    · cases h
      exact .file (.inl rfl)
    · rename_i old
      cases h
      exact .file (.inr ⟨old, rfl⟩)
    · cases h
  | directory children ih =>
    cases hsource with
    | directory _ hu heach =>
      have hcopy (c : String × Node) (hc : c ∈ children) := @ih c hc (heach c hc)
      unfold copyPrivateTree at h
      split at h
      · -- a new directory is empty at first
        have hempty : KeyedRows.Unique Prod.fst ([] : List (String × Node)) := List.nodup_nil
        have hcopied := copyChildren_copied hu hcopy hempty
          (fun c hc => absurd hc List.not_mem_nil) h
        refine ⟨hcopied.plain, fun path => ?_, hcopied.mem⟩
        rw [hcopied.entryAt]
        cases path with
        | nil => rfl
        | cons name path => rfl
      · rename_i present
        cases hexisting _ rfl with
        | directory _ hpresent hplain =>
          exact copyChildren_copied hu hcopy hpresent hplain h
      · cases h
  | symlink toDirectory => cases h
  | special => cases h

/-- Files and directories can be copied to a new place. -/
theorem copyChildren_isSome {rest : List (String × Node)} (hu : KeyedRows.Unique Prod.fst rest)
    (hcopy : ∀ c ∈ rest, ∀ destination entries,
      (copyPrivateTree c.2 destination none entries).isSome = true)
    {destination : List String} {present : List (String × Node)} {entries : List ManifestEntry}
    (hfresh : ∀ c ∈ rest, Node.child c.1 present = none) :
    (copyChildren rest destination present entries).isSome = true := by
  induction rest generalizing present entries with
  | nil => rfl
  | cons first rest ih =>
    obtain ⟨name, child⟩ := first
    obtain ⟨hname, hu⟩ := List.nodup_cons.mp hu
    obtain ⟨⟨copied, entries'⟩, hcopied⟩ := Option.isSome_iff_exists.mp
      (hcopy (name, child) List.mem_cons_self (destination ++ [name]) entries)
    have hnone : Node.child name present = none := hfresh (name, child) List.mem_cons_self
    unfold copyChildren
    rw [hnone, hcopied]
    apply ih hu fun c hc => hcopy c (List.mem_cons_of_mem _ hc)
    intro c hc
    have hne : name ≠ c.1 := fun heq => hname (List.mem_map.mpr ⟨c, hc, heq.symm⟩)
    rw [Node.child_insert, if_neg hne]
    exact hfresh c (List.mem_cons_of_mem _ hc)

theorem copyPrivateTree_isSome {source : Node} (hsource : source.Plain)
    (destination : List String) (entries : List ManifestEntry) :
    (copyPrivateTree source destination none entries).isSome = true := by
  induction hsource generalizing destination entries with
  | file bytes => rfl
  | directory children hu _ ih => exact copyChildren_isSome hu ih fun c _ => rfl

end Copy

section Cut

variable {live trees trees' : LiveDirectory → Option Node} {names : List LiveDirectory}
  {root : List String} {entries recorded : List ManifestEntry}

/-- What the loop leaves in the directories it has copied, and in the others. -/
theorem copyDirectories_copied (hlive : ∀ name, ∀ source ∈ live name, source.WellFormed)
    (hplain : ∀ name, ∀ old ∈ trees name, old.Plain) (hnodup : names.Nodup)
    (h : copyDirectories root live names trees entries = some (trees', recorded)) :
    (∀ name, ∀ node ∈ trees' name, node.Plain) ∧
    (∀ name, (name ∉ names → trees' name = trees name) ∧
      ∀ path, name ∈ names →
        entryAt trees' name path = (entryAt live name path).or (entryAt trees name path)) ∧
    ∀ entry, entry ∈ recorded ↔ entry ∈ entries ∨ ∃ name ∈ names, ∃ path bytes,
      entryAt live name path = some (.file bytes) ∧
        entry = ⟨recordedPath root name path, some bytes.length⟩ := by
  induction names generalizing trees entries with
  | nil =>
    cases h
    refine ⟨hplain, fun name => ⟨fun _ => rfl, fun _ hname => absurd hname List.not_mem_nil⟩, ?_⟩
    intro entry
    refine (or_iff_left ?_).symm
    rintro ⟨name, hname, -⟩
    exact List.not_mem_nil hname
  | cons first rest ih =>
    obtain ⟨hfirst, hnodup⟩ := List.nodup_cons.mp hnodup
    obtain ⟨source, hsource, h⟩ := Option.bind_eq_some_iff.mp h
    obtain ⟨⟨node, entries'⟩, hcopy, h⟩ := Option.bind_eq_some_iff.mp h
    have hcopied := copyPrivateTree_copied (hlive first source hsource) (hplain first) hcopy
    have hplain' : ∀ name, ∀ old ∈ update trees first (some node) name, old.Plain := by
      intro name old hold
      by_cases heq : name = first
      · subst heq
        rw [Function.update_self] at hold
        cases hold
        exact hcopied.plain
      · rw [Function.update_of_ne heq] at hold
        exact hplain name old hold
    obtain ⟨hplains, htrees, hmem⟩ := ih hplain' hnodup h
    refine ⟨hplains, fun name => ⟨fun hname => ?_, fun path hname => ?_⟩, fun entry => ?_⟩
    · have hne : name ≠ first := fun heq => hname (heq ▸ List.mem_cons_self)
      rw [(htrees name).1 fun hin => hname (List.mem_cons_of_mem _ hin), Function.update_of_ne hne]
    · by_cases heq : name = first
      · subst heq
        unfold entryAt
        rw [(htrees name).1 hfirst, Function.update_self, hsource]
        exact hcopied.entryAt path
      · have hin : name ∈ rest := (List.mem_cons.mp hname).resolve_left heq
        rw [(htrees name).2 path hin]
        unfold entryAt
        rw [Function.update_of_ne heq]
    · have hhere (path : List String) : entryAt live first path = source.entryAt path := by
        unfold entryAt
        rw [hsource]
        rfl
      rw [hmem, hcopied.mem, or_assoc]
      apply or_congr_right
      constructor
      · rintro (⟨path, bytes, hfound, rfl⟩ | ⟨name, hname, hfound⟩)
        · exact ⟨first, List.mem_cons_self, path, bytes, (hhere path).trans hfound, rfl⟩
        · exact ⟨name, List.mem_cons_of_mem _ hname, hfound⟩
      · rintro ⟨name, hname, path, bytes, hfound, rfl⟩
        rcases List.mem_cons.mp hname with rfl | hname
        · exact .inl ⟨path, bytes, (hhere path).symm.trans hfound, rfl⟩
        · exact .inr ⟨name, hname, path, bytes, hfound, rfl⟩

theorem recordedPath_inj {name name' : LiveDirectory} {path path' : List String}
    (h : recordedPath root name path = recordedPath root name' path') :
    name = name' ∧ path = path' := by
  unfold recordedPath at h
  rw [List.append_assoc, List.append_assoc] at h
  obtain ⟨hname, hpath⟩ := List.cons.inj (List.append_cancel_left h)
  refine ⟨?_, hpath⟩
  cases name <;> cases name' <;> first | rfl | exact absurd hname (by decide)

/-- Rollback goes on exactly when the manifest has the form of one and the three directories are
there. -/
theorem rollbackProceeds_iff {backup : BackupDirectory} : rollbackProceeds backup = true ↔
    (∃ entries, backup.manifest = some ⟨some entries⟩ ∧ ∀ entry ∈ entries, entry.bytes.isSome) ∧
      ∀ name, (backup.trees name).any isDir = true := by
  have hall : liveDirectories.all (fun name => (backup.trees name).any isDir) = true ↔
      ∀ name, (backup.trees name).any isDir = true := by
    rw [List.all_eq_true]
    refine ⟨fun h name => h name ?_, fun h name _ => h name⟩
    cases name <;> decide
  unfold rollbackProceeds verifyBackupManifest
  rw [Option.any_eq_true]
  constructor
  · rintro ⟨⟨manifest⟩, hmanifest, hverified⟩
    rw [Bool.and_eq_true, Option.any_eq_true, hall] at hverified
    obtain ⟨⟨entries, hentries, hbytes⟩, hdirectories⟩ := hverified
    refine ⟨⟨entries, ?_, List.all_eq_true.mp hbytes⟩, hdirectories⟩
    have hsome : manifest = some entries := hentries
    rw [Option.mem_def.mp hmanifest, hsome]
  · rintro ⟨⟨entries, hmanifest, hbytes⟩, hdirectories⟩
    refine ⟨⟨some entries⟩, hmanifest, ?_⟩
    rw [Bool.and_eq_true, Option.any_eq_true, hall]
    exact ⟨⟨entries, rfl, List.all_eq_true.mpr hbytes⟩, hdirectories⟩

end Cut

/-- The three directories of a root. -/
structure SourceTrees where
  tree : LiveDirectory → Option Node
  wellFormed : ∀ name, ∀ node ∈ tree name, node.WellFormed

/-- A directory of `backups` from before a cut, which may be that of an earlier cut. -/
structure EarlierDirectory where
  directory : BackupDirectory
  plain : ∀ name, ∀ node ∈ directory.trees name, node.Plain

/-- A backup or the snapshot of an upgrade has been taken. -/
inductive Taken (root : List String) (source : SourceTrees) (earlier : EarlierDirectory) :
    List String → BackupDirectory → Prop
  | backup (millis : ℕ) (backup : BackupDirectory)
      (h : createBackup root millis source.tree earlier.directory = some backup) :
      Taken root source earlier (backupRoot root ("backup-" ++ toString millis)) backup
  | upgrade (millis : ℕ) (backup : BackupDirectory) (journal : Rollback.UpgradeJournal)
      (h : stageUpgrade root millis source.tree earlier.directory = some (backup, journal)) :
      Taken root source earlier (backupRoot root ("upgrade-" ++ toString millis)) backup

/-- What is known of a cut. -/
structure ExactCut (path : List String) (source : SourceTrees) (earlier : EarlierDirectory)
    (backup : BackupDirectory) : Prop where
  proceeds : rollbackProceeds backup = true
  plain : ∀ name, ∀ node ∈ backup.trees name, node.Plain
  entryAt : ∀ name at_, entryAt backup.trees name at_ =
    (entryAt source.tree name at_).or (entryAt earlier.directory.trees name at_)
  mem : ∀ entry, entry ∈ recordedEntries backup ↔ ∃ name at_ bytes,
    BackupCut.entryAt source.tree name at_ = some (.file bytes) ∧
      entry = ⟨recordedPath path name at_, some bytes.length⟩

section Sound

variable {root path : List String} {source : SourceTrees} {earlier : EarlierDirectory}
  {backup : BackupDirectory}

theorem cut_exact {backupId : String}
    (h : cut root backupId source.tree earlier.directory = some backup) :
    ExactCut (backupRoot root backupId) source earlier backup := by
  obtain ⟨⟨trees, entries⟩, hcopy, h⟩ := Option.bind_eq_some_iff.mp h
  obtain ⟨hverified, hbackup⟩ := Option.ite_none_right_eq_some.mp h
  cases hbackup
  have hnodup : liveDirectories.Nodup := by decide
  have hall (name : LiveDirectory) : name ∈ liveDirectories := by cases name <;> decide
  obtain ⟨hplain, htrees, hmem⟩ :=
    copyDirectories_copied source.wellFormed earlier.plain hnodup hcopy
  refine ⟨hverified, hplain, fun name at_ => (htrees name).2 at_ (hall name), fun entry => ?_⟩
  rw [show recordedEntries _ = entries from rfl, hmem]
  constructor
  · rintro (hnil | ⟨name, -, at_, bytes, hfound⟩)
    · exact absurd hnil List.not_mem_nil
    · exact ⟨name, at_, bytes, hfound⟩
  · rintro ⟨name, at_, bytes, hfound⟩
    exact .inr ⟨name, hall name, at_, bytes, hfound⟩

theorem Taken.exact (h : Taken root source earlier path backup) :
    ExactCut path source earlier backup := by
  cases h with
  | backup millis _ h => exact cut_exact h
  | upgrade millis _ journal h =>
    obtain ⟨taken, htaken, h⟩ := Option.bind_eq_some_iff.mp h
    cases h
    exact cut_exact htaken

theorem ExactCut.intact (h : ExactCut path source earlier backup) :
    Intact path source.tree backup := by
  constructor
  · intro entry hentry
    obtain ⟨name, at_, bytes, hfound, rfl⟩ := (h.mem entry).mp hentry
    refine ⟨name, at_, bytes, rfl, ?_, rfl⟩
    rw [h.entryAt, hfound]
    rfl
  · intro name at_ bytes hfound
    exact ⟨_, (h.mem _).mpr ⟨name, at_, bytes, hfound, rfl⟩, rfl⟩

/-- While the manifest is as it was written, a backup is intact when every file of the source still
has its length. -/
theorem ExactCut.intact_iff (h : ExactCut path source earlier backup)
    (trees : LiveDirectory → Option Node) :
    Intact path source.tree { backup with trees } ↔
      ∀ name at_ bytes, BackupCut.entryAt source.tree name at_ = some (.file bytes) →
        ∃ found, BackupCut.entryAt trees name at_ = some (.file found) ∧
          found.length = bytes.length := by
  constructor
  · intro hintact name at_ bytes hfound
    obtain ⟨name', at', found, hpath, hthere, hlength⟩ :=
      hintact.present _ ((h.mem _).mpr ⟨name, at_, bytes, hfound, rfl⟩)
    obtain ⟨rfl, rfl⟩ := recordedPath_inj hpath
    exact ⟨found, hthere, (Option.some.inj hlength).symm⟩
  · intro hkept
    constructor
    · intro entry hentry
      obtain ⟨name, at_, bytes, hfound, rfl⟩ := (h.mem entry).mp hentry
      obtain ⟨found, hthere, hlength⟩ := hkept name at_ bytes hfound
      exact ⟨name, at_, found, rfl, hthere, by rw [hlength]⟩
    · exact h.intact.complete

/-- Plain trees are restored as they are. -/
theorem restoreDirectories_eq (root : List String) {names : List LiveDirectory}
    (hnodup : names.Nodup)
    (hplain : ∀ name, ∀ node ∈ backup.trees name, node.Plain)
    (hsome : ∀ name, (backup.trees name).isSome = true) {live : LiveDirectory → Option Node}
    (hlive : ∀ name, (live name).isSome = true) :
    ∃ restored, restoreDirectories root backup names live = some restored ∧
      ∀ name, (name ∉ names → restored name = live name) ∧
        ∀ at_, name ∈ names → entryAt restored name at_ = entryAt backup.trees name at_ := by
  induction names generalizing live with
  | nil =>
    exact ⟨live, rfl, fun name => ⟨fun _ => rfl, fun _ h => absurd h List.not_mem_nil⟩⟩
  | cons first rest ih =>
    obtain ⟨hfirst, hnodup⟩ := List.nodup_cons.mp hnodup
    obtain ⟨tree, htree⟩ := Option.isSome_iff_exists.mp (hsome first)
    obtain ⟨old, hold⟩ := Option.isSome_iff_exists.mp (hlive first)
    have htreePlain := hplain first tree htree
    obtain ⟨⟨staged, recorded⟩, hcopy⟩ := Option.isSome_iff_exists.mp
      (copyPrivateTree_isSome htreePlain (root ++ ["." ++ directoryName first ++ ".rollback"]) [])
    have hstaged := copyPrivateTree_copied htreePlain.wellFormed
      (fun _ h => absurd h (Option.not_mem_none _)) hcopy
    have hlive' (name : LiveDirectory) : (update live first (some staged) name).isSome = true := by
      by_cases heq : name = first
      · subst heq
        rw [Function.update_self]
        rfl
      · rw [Function.update_of_ne heq]
        exact hlive name
    obtain ⟨restored, hrestored, hnames⟩ := ih hnodup hlive'
    refine ⟨restored, ?_, fun name => ⟨fun hname => ?_, fun at_ hname => ?_⟩⟩
    · unfold restoreDirectories
      rw [htree, hold, Option.bind_eq_bind, Option.bind_some, hcopy]
      exact hrestored
    · have hne : name ≠ first := fun heq => hname (heq ▸ List.mem_cons_self)
      rw [(hnames name).1 fun hin => hname (List.mem_cons_of_mem _ hin),
        Function.update_of_ne hne]
    · by_cases heq : name = first
      · subst heq
        unfold BackupCut.entryAt
        rw [(hnames name).1 hfirst, Function.update_self, htree]
        exact (hstaged.entryAt at_).trans (Option.or_none ..)
      · exact (hnames name).2 at_ ((List.mem_cons.mp hname).resolve_left heq)

theorem ExactCut.rollbackUpgrade_eq (h : ExactCut path source earlier backup)
    (root : List String) {live : LiveDirectory → Option Node} (hlive : ∀ name, (live name).isSome = true) :
    ∃ restored, rollbackUpgrade root backup live = some restored ∧ ∀ name at_,
      BackupCut.entryAt restored name at_ = (BackupCut.entryAt source.tree name at_).or
        (BackupCut.entryAt earlier.directory.trees name at_) := by
  have hsome (name : LiveDirectory) : (backup.trees name).isSome = true := by
    have hdirectory := (rollbackProceeds_iff.mp h.proceeds).2 name
    rw [Option.any_eq_true] at hdirectory
    obtain ⟨tree, htree, -⟩ := hdirectory
    rw [Option.mem_def.mp htree]
    rfl
  have hnodup : liveDirectories.Nodup := by decide
  obtain ⟨restored, hrestored, hnames⟩ :=
    restoreDirectories_eq root hnodup h.plain hsome hlive
  refine ⟨restored, ?_, fun name at_ => ?_⟩
  · unfold rollbackUpgrade
    rw [if_pos h.proceeds, hrestored]
  · have hall : name ∈ liveDirectories := by cases name <;> decide
    rw [(hnames name).2 at_ hall, h.entryAt]

/-- A root with one file. -/
def ledgerSource : SourceTrees where
  tree
    | .data => some (.directory [("ledger", .file [7])])
    | .config | .logs => some (.directory [])
  wellFormed := by
    have hempty : (Node.directory []).WellFormed :=
      .directory [] List.nodup_nil fun c hc => absurd hc List.not_mem_nil
    rintro (_ | _ | _) node hnode
    · cases hnode
      refine .directory _ (List.nodup_singleton "ledger") fun c hc => ?_
      rw [List.mem_singleton.mp hc]
      exact .file [7]
    · cases hnode
      exact hempty
    · cases hnode
      exact hempty

def noDirectory : EarlierDirectory where
  directory := {}
  plain _ node hnode := absurd hnode (Option.not_mem_none node)

end Sound

end BackupCut

end Supervisor
