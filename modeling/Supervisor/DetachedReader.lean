import Supervisor.JournalWriter

namespace Supervisor

namespace LogProxy

/-- The entry of a row, where its number has none. -/
def insertRow : List LogLine → LogLine → List LogLine
  | [], row => [row]
  | head :: lines, row =>
    if row.sequence < head.sequence then row :: head :: lines
    else if row.sequence = head.sequence then head :: lines
    else head :: insertRow lines row

structure DetachedSnapshot where
  lines : List LogLine
  highWatermark : ℕ
  earliestRetainedSequence : Option ℕ

/-- Where `read_detached_journal` stands; `after` is its cursor. -/
inductive ReaderPoint where
  | idle
  | called (after : Option ℕ)
  /-- There is no manifest. -/
  | unmanaged
  | reading (after : Option ℕ) (attempt : ℕ) (manifest : JournalManifest) (rest : List SegmentMeta)
      (lines : List LogLine)
  /-- The next attempt reads the manifest again. -/
  | again (after : Option ℕ) (attempt : ℕ) (manifest : JournalManifest)
  | returned (snapshot : DetachedSnapshot)
  | failed (error : String)

structure SnapshotSystem where
  writer : JournalWriter := {}
  reader : ReaderPoint := .idle

inductive SnapshotEvent where
  | writer (e : WriterEvent)
  | call (after : Option ℕ)
  | readManifest
  | readSegment
  | readActive

/-- The segments that an attempt reads. -/
def JournalManifest.segmentsAfter (m : JournalManifest) (after : Option ℕ) : List SegmentMeta :=
  m.sealedSegments.filter fun segment => !after.any fun cursor => segment.lastSequence ≤ cursor

def JournalManifest.observedHighWatermark (m : JournalManifest) (after : Option ℕ)
    (lines : List LogLine) : ℕ :=
  max (lastNumber lines) (min m.highWatermark (after.getD 0))

def JournalManifest.earliestRetainedSequence (m : JournalManifest) : Option ℕ :=
  match m.sealedSegments.head? with
  | some segment => some segment.firstSequence
  | none =>
    if m.activeStartSequence ≤ m.highWatermark then some m.activeStartSequence else none

def Disk.segmentContents (disk : Disk) (filename : ℕ) : Option ByteArray :=
  (disk.segments.find? fun segment => segment.1 = filename).map fun segment =>
    disk.contents segment.2

namespace SnapshotSystem

variable (format : TimeFormat)

/-- The end of an attempt. -/
def finishAttempt (after : Option ℕ) (attempt : ℕ) (m : JournalManifest) (lines : List LogLine) :
    ReaderPoint :=
  let highWatermark := m.observedHighWatermark after lines
  if m.highWatermark ≤ highWatermark ∨ attempt = 7 then
    .returned { lines, highWatermark, earliestRetainedSequence := m.earliestRetainedSequence }
  else .again after attempt m

def step (s : SnapshotSystem) : SnapshotEvent → Option SnapshotSystem
  | .writer e => (s.writer.step format e).map fun writer => { s with writer }
  | .call after =>
    match s.reader with
    | .idle | .returned _ | .failed _ => some { s with reader := .called after }
    | _ => none
  | .readManifest =>
    match s.reader with
    | .called after =>
      match s.writer.disk.manifest with
      | none => some { s with reader := .unmanaged }
      | some m => some { s with reader := .reading after 0 m (m.segmentsAfter after) [] }
    | .again after attempt m =>
      let m := s.writer.disk.manifest.getD m
      some { s with reader := .reading after (attempt + 1) m (m.segmentsAfter after) [] }
    | _ => none
  | .readSegment =>
    match s.reader with
    | .reading after attempt m (segment :: rest) lines =>
      match readJournal format (s.writer.disk.segmentContents segment.filename) with
      | .error error => some { s with reader := .failed error }
      | .ok rows => some { s with reader := .reading after attempt m rest (rows.foldl insertRow lines) }
    | _ => none
  | .readActive =>
    match s.reader with
    | .unmanaged =>
      match readJournal format s.writer.disk.activeContents with
      | .error error => some { s with reader := .failed error }
      | .ok lines =>
        let highWatermark := (lines.map LogLine.sequence).foldl max 0
        let earliestRetainedSequence := lines.head?.map LogLine.sequence
        some { s with reader := .returned { lines, highWatermark, earliestRetainedSequence } }
    | .reading after attempt m [] lines =>
      match readJournal format s.writer.disk.activeContents with
      | .error error => some { s with reader := .failed error }
      | .ok rows => some { s with reader := finishAttempt after attempt m (rows.foldl insertRow lines) }
    | _ => none

def machine : Machine SnapshotSystem SnapshotEvent where
  step := step format

end SnapshotSystem

end LogProxy

end Supervisor
