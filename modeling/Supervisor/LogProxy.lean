import Supervisor.JournalRows
import Supervisor.Machine

namespace Supervisor

namespace LogProxy

def maxSegmentBytes : ℕ := 1048576

def maxSealedSegments : ℕ := 32

structure SegmentMeta where
  /-- The number in the file name, which is printed in full. -/
  filename : ℕ
  firstSequence : ℕ
  lastSequence : ℕ
  byteLen : ℕ
deriving DecidableEq, Repr

structure JournalManifest where
  nextSequence : ℕ := 1
  highWatermark : ℕ := 0
  activeStartSequence : ℕ := 1
  activeByteLen : ℕ := 0
  sealedSegments : List SegmentMeta := []
deriving DecidableEq, Repr

/-- The files of the journal of one process name, with the names that lead to them. -/
structure Disk where
  /-- By number; a file that has lost its name stays with those who have it open. -/
  files : List ByteArray := []
  active : Option ℕ := none
  segments : List (ℕ × ℕ) := []
  /-- The manifest is replaced as a whole. -/
  manifest : Option JournalManifest := none

/-- An open file; it appends or writes at a position. -/
structure OpenFile where
  file : ℕ
  position : Option ℕ
deriving DecidableEq

namespace Disk

def contents (disk : Disk) (file : ℕ) : ByteArray := disk.files.getD file ByteArray.empty

def activeContents (disk : Disk) : Option ByteArray := disk.active.map disk.contents

def activeLen (disk : Disk) : ℕ := (disk.activeContents.map ByteArray.size).getD 0

def setContents (disk : Disk) (file : ℕ) (contents : ByteArray) : Disk :=
  { disk with files := disk.files.set file contents }

/-- A new empty file under the active name. -/
def createActive (disk : Disk) : Disk :=
  { disk with files := disk.files ++ [ByteArray.empty], active := some disk.files.length }

/-- Open the active file for appending. -/
def openAppend (disk : Disk) : Disk × OpenFile :=
  match disk.active with
  | some file => (disk, ⟨file, none⟩)
  | none => (disk.createActive, ⟨disk.files.length, none⟩)

/-- Open the active file for writing, without what it held. -/
def openTruncated (disk : Disk) : Disk × OpenFile :=
  match disk.active with
  | some file => (disk.setContents file ByteArray.empty, ⟨file, some 0⟩)
  | none => (disk.createActive, ⟨disk.files.length, some 0⟩)

/-- Bytes written over and behind the contents of a file. -/
def writeAt (contents : ByteArray) (position : ℕ) (bytes : ByteArray) : ByteArray :=
  contents.extract 0 position ++ ⟨Array.replicate (position - contents.size) 0⟩ ++ bytes ++
    contents.extract (position + bytes.size) contents.size

def write (disk : Disk) (handle : OpenFile) (bytes : ByteArray) : Disk × OpenFile :=
  let contents := disk.contents handle.file
  match handle.position with
  | none => (disk.setContents handle.file (contents ++ bytes), handle)
  | some position => (disk.setContents handle.file (writeAt contents position bytes),
      ⟨handle.file, some (position + bytes.size)⟩)

def withoutSegment (disk : Disk) (filename : ℕ) : List (ℕ × ℕ) :=
  disk.segments.filter fun segment => segment.1 ≠ filename

end Disk

/-- The numbers of the rows of a text. -/
def sequences (text : List Char) : List ℕ :=
  (textLines text).filterMap fun line => (JsonText.parse line).bind fun value =>
    (value.get "sequence".toList).bind JsonText.Value.asU64

/-- The manifest that `open` goes on with; it looks into the file only where no number is known. -/
def recover (m : JournalManifest) (contents : Option ByteArray) : JournalManifest :=
  if m.highWatermark = 0 then
    let found := sequences (((contents.bind ByteArray.utf8Decode?).map Array.toList).getD [])
    let m := match found.head? with
      | some first => { m with activeStartSequence := first }
      | none => m
    match found.getLast? with
    | some last => { m with highWatermark := last, nextSequence := satAddU64 last 1 }
    | none => m
  else m

structure ProxyJournal where
  file : OpenFile
  manifest : JournalManifest

def ProxyJournal.mustRollOver (journal : ProxyJournal) : Bool :=
  !(journal.manifest.activeByteLen = 0 || journal.manifest.activeByteLen < maxSegmentBytes)

/-- Where one proxy stands. -/
inductive Stage where
  | launched
  | loaded (manifest : JournalManifest)
  | scanned (manifest : JournalManifest)
  | opened (journal : ProxyJournal)
  /-- Between two calls of `append`. -/
  | ready (journal : ProxyJournal)
  /-- In `rollover_if_needed`, when the active file has been renamed and when the new one is open. -/
  | renamed (journal : ProxyJournal)
  | created (journal : ProxyJournal)
  /-- In `append`, with the bytes of the row that are still to be written, and after them. -/
  | writing (journal : ProxyJournal) (row : LogLine) (rest : ByteArray)
  | written (journal : ProxyJournal)
  | ended

inductive ProxyStep where
  | load
  | scan
  | openActive
  | store
  | rename
  | trim
  | create
  | append (timestamp : Instant) (stream : LogStream) (line : String)
  /-- The next bytes of the row; another process sees the file between two of them. -/
  | write (count : ℕ)

section Steps

variable (format : TimeFormat)

def JournalManifest.sealActive (m : JournalManifest) : JournalManifest :=
  { m with sealedSegments := m.sealedSegments ++
      [⟨m.activeStartSequence, m.activeStartSequence, m.highWatermark, m.activeByteLen⟩] }

def JournalManifest.startActive (m : JournalManifest) : JournalManifest :=
  { m with activeStartSequence := m.nextSequence, activeByteLen := 0 }

def JournalManifest.appended (m : JournalManifest) (len : ℕ) : JournalManifest :=
  { m with
    highWatermark := m.nextSequence
    nextSequence := satAddU64 m.nextSequence 1
    activeByteLen := satAddU64 m.activeByteLen len }

/-- One step of `ProxyJournal::open` or of `append`. -/
def Stage.step (disk : Disk) : Stage → ProxyStep → Option (Disk × Stage)
  | .launched, .load => some (disk, .loaded (disk.manifest.getD {}))
  | .loaded m, .scan =>
    let m := recover m disk.activeContents
    some (disk, .scanned { m with activeByteLen := disk.activeLen })
  | .scanned m, .openActive =>
    let (disk, file) := disk.openAppend
    some (disk, .opened ⟨file, m⟩)
  | .opened journal, .store | .created journal, .store | .written journal, .store =>
    some ({ disk with manifest := some journal.manifest }, .ready journal)
  | .ready journal, .rename =>
    if journal.mustRollOver then
      let filename := journal.manifest.activeStartSequence
      disk.active.map fun file =>
        let segments := disk.withoutSegment filename ++ [(filename, file)]
        ({ disk with active := none, segments },
          .renamed { journal with manifest := journal.manifest.sealActive })
    else none
  | .renamed journal, .trim =>
    match journal.manifest.sealedSegments with
    | removed :: rest =>
      if maxSealedSegments < rest.length + 1 then
        let manifest := { journal.manifest with sealedSegments := rest }
        some ({ disk with segments := disk.withoutSegment removed.filename },
          .renamed { journal with manifest })
      else none
    | [] => none
  | .renamed journal, .create =>
    if journal.manifest.sealedSegments.length ≤ maxSealedSegments then
      let (disk, file) := disk.openTruncated
      some (disk, .created ⟨file, journal.manifest.startActive⟩)
    else none
  | .ready journal, .append timestamp stream line =>
    if journal.mustRollOver then none
    else
      let row : LogLine := ⟨journal.manifest.nextSequence, timestamp, stream, line⟩
      some (disk, .writing journal row (persistedBytes format row))
  | .writing journal row rest, .write count =>
    if 0 < count ∧ count ≤ rest.size then
      let (disk, file) := disk.write journal.file (rest.extract 0 count)
      let rest := rest.extract count rest.size
      if rest.size = 0 then
        let manifest := journal.manifest.appended (persistedBytes format row).size
        some (disk, .written ⟨file, manifest⟩)
      else some (disk, .writing { journal with file } row rest)
    else none
  | _, _ => none

/-- The row that a step completes. -/
def Stage.completed : Stage → Stage → Option LogLine
  | .writing _ row _, .written _ => some row
  | _, _ => none

/-- Whether a step takes a name or bytes from something that has been written. -/
def Stage.overwrites (disk : Disk) : Stage → ProxyStep → Bool
  | .ready journal, .rename =>
    disk.segments.any fun segment => segment.1 = journal.manifest.activeStartSequence
  | .renamed _, .create => disk.activeLen ≠ 0
  | .writing journal _ _, .write _ =>
    journal.file.position.any fun position => position < (disk.contents journal.file.file).size
  | _, _ => false

end Steps

/-- The proxies of all instances of a process, and the journal they share. -/
structure ProxySystem where
  disk : Disk := {}
  proxies : List Stage := []
  /-- The rows that have been written, in that order. -/
  written : List LogLine := []
  overwritten : Bool := false
  /-- The reapers of lost proxies that have yet to remove the failed journal. -/
  removals : ℕ := 0

inductive ProxyEvent where
  | launch
  | proxy (i : ℕ) (step : ProxyStep)
  /-- The target has ended, and its last line is in the journal. -/
  | complete (i : ℕ)
  | crash (i : ℕ)
  /-- An operation of `append` fails, and the proxy removes the active file. -/
  | fail (i : ℕ)
  /-- `remove_failed_journal` of a reaper -/
  | removeFailedJournal

def Stage.isReady : Stage → Bool
  | .ready _ => true
  | _ => false

/-- Whether a proxy has been started and has not ended. -/
def Stage.isRunning : Stage → Bool
  | .ended => false
  | _ => true

/-- Between the first change of the files and the new manifest. -/
def Stage.isUnstored : Stage → Bool
  | .renamed _ | .created _ | .writing _ _ _ | .written _ => true
  | _ => false

namespace ProxySystem

variable (format : TimeFormat)

def setProxy (s : ProxySystem) (i : ℕ) (stage : Stage) : ProxySystem :=
  { s with proxies := s.proxies.set i stage }

def step (s : ProxySystem) : ProxyEvent → Option ProxySystem
  | .launch => some { s with proxies := s.proxies ++ [.launched] }
  | .proxy i step =>
    s.proxies[i]?.bind fun stage => (stage.step format s.disk step).map fun (disk, stage') =>
      { s.setProxy i stage' with
        disk
        written := s.written ++ (stage.completed stage').toList
        overwritten := s.overwritten || stage.overwrites s.disk step }
  | .complete i =>
    s.proxies[i]?.bind fun stage => if stage.isReady then some (s.setProxy i .ended) else none
  | .crash i =>
    s.proxies[i]?.bind fun stage =>
      if stage.isRunning then some { s.setProxy i .ended with removals := s.removals + 2 } else none
  | .fail i =>
    s.proxies[i]?.bind fun stage =>
      if stage.isReady || stage.isUnstored then
        let disk := { s.disk with active := none }
        some { s.setProxy i .ended with disk, removals := s.removals + 2 }
      else none
  | .removeFailedJournal =>
    if 0 < s.removals then
      some { s with disk := { s.disk with active := none }, removals := s.removals - 1 }
    else none

def machine : Machine ProxySystem ProxyEvent where
  step := step format

end ProxySystem

end LogProxy

end Supervisor
