import Mathlib.Data.Nat.Notation
import Mathlib.Logic.Function.Basic
import Supervisor.Machine

namespace Supervisor

namespace Rollback

open Function (update)

/-- The directories that a backup holds, in the order of the loops. -/
inductive LiveDirectory where
  | data | config | logs
deriving DecidableEq

def liveDirectories : List LiveDirectory := [.data, .config, .logs]

inductive FileEntry where
  | directory
  | file (bytes : List UInt8)
  | symlink (toDirectory : Bool)
  | special
deriving DecidableEq

/-- A directory with all that is in it, each entry after the directory it is in. -/
abbrev Tree := List (List String × FileEntry)

def emptyTree : Tree := [([], .directory)]

/-- `Path::is_dir` follows a symlink. -/
def isDir (tree : Tree) : Bool :=
  match tree.head? with
  | some (_, .directory) | some (_, .symlink true) => true
  | _ => false

/-- `copy_private_tree` refuses everything else. -/
def FileEntry.isCopied : FileEntry → Bool
  | .directory | .file _ => true
  | .symlink _ | .special => false

structure Backup where
  /-- The sizes in the entries of the manifest. -/
  entries : Option (List (Option ℕ))
  trees : LiveDirectory → Option Tree

def verifyBackupManifest (backup : Backup) : Bool :=
  (backup.entries.any fun entries => entries.all Option.isSome) &&
    liveDirectories.all fun name => (backup.trees name).any isDir

inductive UpgradePhase where
  | committed
  | rollingBack
deriving DecidableEq

structure UpgradeJournal where
  phase : UpgradePhase
  snapshotPath : Option String

/-- Where `rollback_upgrade` stands; `rest` are the directories after `name`. -/
inductive RollbackPoint where
  | idle
  /-- The daemon does not run. -/
  | down
  | called
  | clearStaged (name : LiveDirectory) (rest : List LiveDirectory)
  | copying (name : LiveDirectory) (rest : List LiveDirectory) (copied todo : Tree)
  | clearPrevious (name : LiveDirectory) (rest : List LiveDirectory)
  | renameAway (name : LiveDirectory) (rest : List LiveDirectory)
  | replace (name : LiveDirectory) (rest : List LiveDirectory)
  /-- The replacement failed. -/
  | restore (name : LiveDirectory)
  | removePrevious (name : LiveDirectory) (rest : List LiveDirectory)
  | commit
deriving DecidableEq

/-- The root of a daemon. -/
structure RollbackState where
  live : LiveDirectory → Option Tree
  staged : LiveDirectory → Option Tree
  previous : LiveDirectory → Option Tree
  backups : List (String × Backup)
  journal : Option UpgradeJournal
  point : RollbackPoint := .idle
  /-- The live directories before the last call. -/
  before : LiveDirectory → Option Tree
  /-- The trees that the last call replaces them by. -/
  target : LiveDirectory → Option Tree
  /-- Whether content from before a call was deleted too early. -/
  lost : Bool := false

inductive RollbackEvent where
  /-- The daemon changes a directory itself. -/
  | edit (name : LiveDirectory) (tree : Tree)
  | call
  /-- The next operation is carried out. -/
  | next
  /-- A part of the next file has been copied. -/
  | copyPart (bytes : List UInt8)
  /-- `remove_dir_all` deletes the entry at an index. -/
  | remove (index : ℕ)
  /-- The next operation fails. -/
  | fail
  | crash
  /-- A claim of the root makes sure that a directory exists. -/
  | ensureDirectory (name : LiveDirectory)
  | claim

namespace RollbackState

/-- The root of a running daemon. -/
def start (live : LiveDirectory → Tree) (staged previous : LiveDirectory → Option Tree)
    (backups : List (String × Backup)) (journal : Option UpgradeJournal) : RollbackState where
  live name := some (live name)
  staged
  previous
  backups
  journal
  before name := some (live name)
  target name := some (live name)

/-- The journal and the backup that it names, when the backup is valid. -/
def snapshot (s : RollbackState) : Option (UpgradeJournal × Backup) :=
  s.journal.bind fun journal => journal.snapshotPath.bind fun path =>
    (s.backups.find? fun backup => backup.1 = path ∧ verifyBackupManifest backup.2).map
      fun backup => (journal, backup.2)

def isPlaced (s : RollbackState) : Bool :=
  liveDirectories.all fun name => s.live name = s.target name

def afterRemoval (tree : Tree) (index : ℕ) : Option Tree :=
  if tree.length ≤ 1 then none else some (tree.eraseIdx index)

/-- Delete an entry of a directory with previous content. -/
def removeFromPrevious (s : RollbackState) (name : LiveDirectory) (index : ℕ) : RollbackState :=
  { s with
    previous := update s.previous name ((s.previous name).bind (afterRemoval · index))
    lost := s.lost ||
      (s.previous name = s.before name && s.live name ≠ s.before name && !s.isPlaced) }

def next (s : RollbackState) : Option RollbackState :=
  match s.point with
  | .called =>
    match s.snapshot with
    | some (journal, backup) =>
      some { s with
        journal := some { journal with phase := .rollingBack }
        target := backup.trees
        point := .clearStaged .data [.config, .logs] }
    | none => some { s with point := .idle }
  | .clearStaged name rest =>
    if s.staged name = none then
      some { s with point := .copying name rest [] ((s.target name).getD []) }
    else none
  | .copying name rest _ [] => some { s with point := .clearPrevious name rest }
  | .copying name rest copied ((path, entry) :: todo) =>
    if entry.isCopied then
      some { s with
        staged := update s.staged name (some (copied ++ [(path, entry)]))
        point := .copying name rest (copied ++ [(path, entry)]) todo }
    else some { s with point := .idle }
  | .clearPrevious name rest =>
    if s.previous name = none then some { s with point := .renameAway name rest } else none
  | .renameAway name rest =>
    match s.live name with
    | some tree =>
      some { s with
        live := update s.live name none
        previous := update s.previous name (some tree)
        point := .replace name rest }
    | none => some { s with point := .idle }
  | .replace name rest =>
    match s.staged name with
    | some tree =>
      some { s with
        live := update s.live name (some tree)
        staged := update s.staged name none
        point := .removePrevious name rest }
    | none => some { s with point := .restore name }
  | .restore name =>
    some { s with
      live := update s.live name (s.previous name)
      previous := update s.previous name none
      point := .idle }
  | .removePrevious name rest =>
    if s.previous name = none then
      match rest with
      | [] => some { s with point := .commit }
      | name :: rest => some { s with point := .clearStaged name rest }
    else none
  | .commit =>
    some { s with
      journal := s.journal.map fun journal => { journal with phase := .committed }
      point := .idle }
  | .idle | .down => none

def step (s : RollbackState) : RollbackEvent → Option RollbackState
  | .edit name tree =>
    let live := update s.live name (some tree)
    if s.point = .idle then some { s with live, before := live, target := live } else none
  | .call =>
    if s.point = .idle then some { s with point := .called, before := s.live, target := s.live }
    else none
  | .next => s.next
  | .copyPart bytes =>
    match s.point with
    | .copying name _ copied ((path, .file _) :: _) =>
      some { s with staged := update s.staged name (some (copied ++ [(path, .file bytes)])) }
    | _ => none
  | .remove index =>
    match s.point with
    | .clearStaged name _ =>
      some { s with staged := update s.staged name ((s.staged name).bind (afterRemoval · index)) }
    | .clearPrevious name _ | .removePrevious name _ => some (s.removeFromPrevious name index)
    | _ => none
  | .fail =>
    match s.point with
    | .idle | .down => none
    | .replace name _ => some { s with point := .restore name }
    | _ => some { s with point := .idle }
  | .crash => if s.point = .down then none else some { s with point := .down }
  | .ensureDirectory name =>
    if s.point = .down then
      some { s with live := update s.live name (some ((s.live name).getD emptyTree)) }
    else none
  | .claim =>
    if s.point = .down ∧ liveDirectories.all (fun name => (s.live name).isSome) then
      some { s with point := .idle }
    else none

def machine : Machine RollbackState RollbackEvent where
  step := step

/-- When a call has returned, or the daemon runs again, the live directories are all as before the
call or all the backed-up ones; nothing is deleted before all of them are replaced. -/
structure AllOrNothing (s : RollbackState) : Prop where
  settled : s.point = .idle → s.live = s.before ∨ s.live = s.target
  present : s.point = .idle → ∀ name, (s.live name).isSome
  kept : s.lost = false

/-- A directory is replaced by its backup only where that changes nothing, or where the two others
are as in the backup. -/
def mayReplace (s : RollbackState) : Bool :=
  match s.point with
  | .replace name _ => s.previous name = s.target name ||
      liveDirectories.all fun other => other = name || s.live other = s.target other
  | _ => true

/-- The way back does not fail. -/
def mayFail (s : RollbackState) : Bool :=
  match s.point with
  | .restore _ => false
  | _ => true

/-- No crash between the two renames of a directory. -/
def mayCrash (s : RollbackState) : Bool :=
  match s.point with
  | .replace _ _ | .restore _ => false
  | _ => true

def Fits (s : RollbackState) : RollbackEvent → Prop
  | .next => s.mayReplace = true
  | .fail => s.mayFail = true
  | .crash => s.mayCrash = true
  | _ => True

instance (s : RollbackState) (e : RollbackEvent) : Decidable (s.Fits e) := by
  cases e with
  | next => exact decEq s.mayReplace true
  | fail => exact decEq s.mayFail true
  | crash => exact decEq s.mayCrash true
  | _ => exact isTrue trivial

end RollbackState

end Rollback

end Supervisor
