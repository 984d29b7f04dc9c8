import Supervisor.Journal
import Supervisor.JournalNames

namespace Supervisor

/-- A row of a file, and the process that its line was published for. -/
structure SourcedLine where
  source : String
  line : LogLine
deriving DecidableEq

structure LogFile where
  name : FileName
  rows : List SourcedLine

/-- What a manifest has of a segment; when it expires is left to the policy. -/
structure NamedSegment where
  filename : FileName
  firstSequence : ℕ
  lastSequence : ℕ

structure NamedManifest where
  nextSequence : ℕ := 1
  highWatermark : ℕ := 0
  activeStartSequence : ℕ := 1
  sealedSegments : List NamedSegment := []
  deletedSegments : List FileName := []

/-- The directory that the journals of all processes share. -/
structure LogDirectory where
  /-- In the order of `read_dir`. -/
  files : List LogFile := []
  manifests : FileName → Option NamedManifest := fun _ => none

namespace LogDirectory

def read (dir : LogDirectory) (file : FileName) : Option (List SourcedLine) :=
  (KeyedRows.find LogFile.name file dir.files).map LogFile.rows

/-- `read_journal`, with no lines for a file that is not there -/
def rowsOf (dir : LogDirectory) (file : FileName) : List SourcedLine := (dir.read file).getD []

def put (dir : LogDirectory) (file : FileName) (rows : List SourcedLine) : LogDirectory :=
  { dir with files := KeyedRows.insert LogFile.name dir.files ⟨file, rows⟩ }

def remove (dir : LogDirectory) (file : FileName) : LogDirectory :=
  { dir with files := dir.files.filter fun entry => entry.name ≠ file }

def rename (dir : LogDirectory) (file newName : FileName) : LogDirectory :=
  match dir.read file with
  | some rows => (dir.remove file).put newName rows
  | none => dir

def writeManifest (dir : LogDirectory) (file : FileName) (m : NamedManifest) : LogDirectory :=
  { dir with manifests := Function.update dir.manifests file (some m) }

end LogDirectory

/-- What a call has written so far: the directory and the manifest in memory, now and before each
of its writes. -/
structure SharedWriting where
  dir : LogDirectory
  manifest : NamedManifest := {}
  before : List (LogDirectory × NamedManifest) := []

namespace SharedWriting

def write (w : SharedWriting) (dir : LogDirectory) : SharedWriting :=
  { w with
    dir
    before := w.before ++ [(w.dir, w.manifest)] }

variable (name : String)

def rows (w : SharedWriting) : List SourcedLine := w.dir.rowsOf (activeFile name)

/-- `migrate_legacy_journal` -/
def migrateLegacyJournal (legacy : Option FileName) (w : SharedWriting) : SharedWriting :=
  match w.dir.read (activeFile name), legacy.bind w.dir.read with
  | none, some rows => w.write (w.dir.put (activeFile name) rows)
  | _, _ => w

/-- `read_manifest`, or `rebuild_manifest` -/
def readManifest (w : SharedWriting) : SharedWriting :=
  match w.dir.manifests (manifestFile name) with
  | some manifest => { w with manifest }
  | none =>
    let lines := (w.rows name).map SourcedLine.line
    { w with manifest := {
        nextSequence := (lines.getLast?.map fun last => satAddU64 last.sequence 1).getD 1
        highWatermark := (lines.getLast?.map LogLine.sequence).getD 0
        activeStartSequence := (lines.head?.map LogLine.sequence).getD 1 } }

/-- `repair_manifest`: a segment that the manifest does not name is taken up. -/
def adoptSegment (w : SharedWriting) (file : FileName) : SharedWriting :=
  let m := w.manifest
  if m.sealedSegments.any fun segment => segment.filename = file then w
  else
    let lines := (w.dir.rowsOf file).map SourcedLine.line
    match segmentStart name file, lines.getLast? with
    | some start, some last =>
      let adopted : NamedSegment :=
        { filename := file
          firstSequence := (lines.head?.map LogLine.sequence).getD start
          lastSequence := last.sequence }
      { w with manifest := { m with
          sealedSegments := m.sealedSegments ++ [adopted]
          highWatermark := max m.highWatermark last.sequence
          nextSequence := max m.nextSequence (satAddU64 last.sequence 1) } }
    | _, _ => w

def removeDeleted (w : SharedWriting) : SharedWriting :=
  let removed := w.manifest.deletedSegments.foldl (fun w file => w.write (w.dir.remove file)) w
  { removed with manifest := { removed.manifest with deletedSegments := [] } }

/-- The manifest with the lines of the active file -/
def withActive (w : SharedWriting) : SharedWriting :=
  let lines := (w.rows name).map SourcedLine.line
  let m := w.manifest
  { w with manifest := { m with
      activeStartSequence := (lines.head?.map LogLine.sequence).getD m.activeStartSequence
      highWatermark := max m.highWatermark ((lines.getLast?.map LogLine.sequence).getD 0)
      nextSequence := max m.nextSequence
        ((lines.getLast?.map fun last => satAddU64 last.sequence 1).getD 0) } }

def sortSegments (w : SharedWriting) : SharedWriting :=
  let m := w.manifest
  let m := { m with sealedSegments :=
      m.sealedSegments.insertionSort fun a b => a.firstSequence ≤ b.firstSequence }
  match w.dir.read (activeFile name) with
  | some _ => { w with manifest := m }
  | none => { w with manifest := { m with activeStartSequence := m.nextSequence } }

def repairManifest (w : SharedWriting) : SharedWriting :=
  let w := w.removeDeleted.withActive name
  ((w.dir.files.map LogFile.name).foldl (adoptSegment name) w).sortSegments name

def storeManifest (w : SharedWriting) : SharedWriting :=
  w.write (w.dir.writeManifest (manifestFile name) w.manifest)

/-- `enforce_retention`, of which the policy takes as many segments -/
def enforceRetention : ℕ → SharedWriting → SharedWriting
  | 0, w => w
  | expired + 1, w =>
    let m := w.manifest
    match m.sealedSegments with
    | [] => w
    | first :: rest =>
      let deleted := { w with manifest := { m with
          sealedSegments := rest
          deletedSegments := m.deletedSegments ++ [first.filename] } }
      let stored := deleted.storeManifest name
      let removed := stored.write (stored.dir.remove first.filename)
      let m := removed.manifest
      let cleared := { removed with manifest := { m with
          deletedSegments := m.deletedSegments.filter fun file => file ≠ first.filename } }
      enforceRetention expired (cleared.storeManifest name)

/-- `initialize` -/
def initializeJournal (legacy : Option FileName) (expired : ℕ) (dir : LogDirectory) :
    SharedWriting :=
  let w := migrateLegacyJournal name legacy { dir }
  let w := (w.readManifest name).repairManifest name
  (w.enforceRetention name expired).storeManifest name

def rollover (expired : ℕ) (w : SharedWriting) : SharedWriting :=
  let oldStart := w.manifest.activeStartSequence
  let opened := w.write (w.dir.put (activeFile name) (w.rows name))
  let lines := (opened.rows name).map SourcedLine.line
  let sealed := match lines.getLast? with
    | some last =>
      let renamed := opened.write
        (opened.dir.rename (activeFile name) (segmentFile name oldStart))
      let m := renamed.manifest
      let segment : NamedSegment :=
        { filename := segmentFile name oldStart
          firstSequence := (lines.head?.map LogLine.sequence).getD oldStart
          lastSequence := last.sequence }
      { renamed with manifest := { m with sealedSegments := m.sealedSegments ++ [segment] } }
    | none => opened
  let truncated := sealed.write (sealed.dir.put (activeFile name) [])
  let m := truncated.manifest
  let started := { truncated with manifest := { m with activeStartSequence := m.nextSequence } }
  (started.enforceRetention name expired).storeManifest name

/-- `append_to`, once the journal is initialized. The age and the size of the active file decide
whether it rolls over. -/
def appendTo (line : LogLine) (rolls : Bool) (expired : ℕ) (dir : LogDirectory)
    (m : NamedManifest) : SharedWriting :=
  let w : SharedWriting := ⟨dir, m, []⟩
  let w := if rolls then w.rollover name expired else w
  let m := w.manifest
  let line := { line with sequence := m.nextSequence }
  let appended := w.write (w.dir.put (activeFile name) (w.rows name ++ [⟨name, line⟩]))
  { appended with manifest := { m with
      highWatermark := line.sequence
      nextSequence := satAddU64 line.sequence 1 } }

end SharedWriting

/-- `tail_from`, once the journal is initialized -/
def NamedManifest.tail (m : NamedManifest) (dir : LogDirectory) (name : String)
    (query : TailQuery) : List SourcedLine :=
  let sealed := (m.sealedSegments.filter fun segment =>
    query.afterSequence.all fun cursor => cursor < segment.lastSequence).flatMap fun segment =>
      dir.rowsOf segment.filename
  let active := if query.afterSequence.all fun cursor => cursor < m.highWatermark then
    dir.rowsOf (activeFile name) else []
  let filtered := (sealed ++ active).filter fun row => query.selects row.line
  if 0 < query.limit ∧ query.limit < filtered.length then
    filtered.drop (filtered.length - query.limit)
  else filtered

/-- The journals of a daemon, and the names that the directory was ever used for. -/
structure SharedJournals where
  dir : LogDirectory := {}
  knownProcesses : List String := []
  /-- The journals that are initialized. -/
  memory : String → Option NamedManifest := fun _ => none
  opened : List String := []
  earlier : List String := []

inductive SharedEvent where
  | registerProcessNames (names : List String)
  /-- An earlier version writes a line to the file of the sanitized name. -/
  | earlierAppend (name : String) (line : LogLine)
  /-- The first publication or the first reader of a process. The call fails before the write,
  where one is given. -/
  | openJournal (name : String) (expired : ℕ) (failsAt : Option ℕ)
  | publish (name : String) (line : LogLine) (rolls : Bool) (expired : ℕ) (failsAt : Option ℕ)
  | restart

namespace SharedJournals

/-- `process_paths`: the legacy file, unless two known names share it -/
def legacyPath (s : SharedJournals) (name : String) : Option FileName :=
  let known := s.knownProcesses.insert name
  if 1 < known.countP fun other => legacySafeName other = legacySafeName name then none
  else some (legacyFile name)

/-- The file that is imported when the journal is initialized. -/
def imports (s : SharedJournals) (name : String) : Option FileName :=
  match s.dir.read (activeFile name) with
  | some _ => none
  | none => (s.legacyPath name).filter fun file => (s.dir.read file).isSome

/-- The process has written into the file, or has it by the scheme of this version. -/
def IsFileOf (s : SharedJournals) (name : String) (file : FileName) : Prop :=
  name ∈ s.opened ∧ IsCurrentFile name file ∨ name ∈ s.earlier ∧ file = legacyFile name

instance (s : SharedJournals) (name : String) (file : FileName) :
    Decidable (s.IsFileOf name file) :=
  inferInstanceAs (Decidable (_ ∨ _))

def openJournal (s : SharedJournals) (name : String) (expired : ℕ) (failsAt : Option ℕ) :
    Option SharedJournals :=
  let w := SharedWriting.initializeJournal name (s.legacyPath name) expired s.dir
  let known := { s with
    knownProcesses := s.knownProcesses.insert name
    opened := s.opened.insert name }
  match failsAt with
  | none => some { known with
      dir := w.dir
      memory := Function.update s.memory name (some w.manifest) }
  | some write => w.before[write]?.map fun stopped => { known with dir := stopped.1 }

def publish (s : SharedJournals) (name : String) (m : NamedManifest) (line : LogLine)
    (rolls : Bool) (expired : ℕ) (failsAt : Option ℕ) : Option SharedJournals :=
  let w := SharedWriting.appendTo name line rolls expired s.dir m
  match failsAt with
  | none => some { s with
      dir := w.dir
      memory := Function.update s.memory name (some w.manifest) }
  | some write => w.before[write]?.map fun stopped => { s with
      dir := stopped.1
      memory := Function.update s.memory name (some stopped.2) }

def step (s : SharedJournals) : SharedEvent → Option SharedJournals
  | .registerProcessNames names =>
    some { s with
      knownProcesses := names.foldl (fun known name => known.insert name) s.knownProcesses }
  | .earlierAppend name line =>
    let file := legacyFile name
    some { s with
      dir := s.dir.put file (s.dir.rowsOf file ++ [⟨name, line⟩])
      earlier := s.earlier.insert name }
  | .openJournal name expired failsAt =>
    match s.memory name with
    | none => s.openJournal name expired failsAt
    | some _ => none
  | .publish name line rolls expired failsAt =>
    match s.memory name with
    | none => none
    | some m => s.publish name m line rolls expired failsAt
  | .restart => some { s with knownProcesses := [], memory := fun _ => none }

/-- `tail` of a journal that is initialized -/
def tail (s : SharedJournals) (name : String) (query : TailQuery) : List SourcedLine :=
  match s.memory name with
  | none => []
  | some m => m.tail s.dir name query

def machine : Machine SharedJournals SharedEvent where
  step := step

end SharedJournals

end Supervisor
