import Supervisor.JournalRows
import Supervisor.Machine

namespace Supervisor

structure JournalPolicy where
  maxSegmentBytes : ℕ
  maxSegmentAge : ℤ
  maxSealedSegments : ℕ
  maxTotalBytes : ℕ

/-- The file `segment-{start:020}.jsonl` of a journal, by its number. -/
abbrev SegmentFile := ℕ

structure SegmentMeta where
  filename : SegmentFile
  firstSequence : ℕ
  lastSequence : ℕ
  createdAt : Instant
  sealedAt : Instant
  byteLen : ℕ
deriving DecidableEq

structure JournalManifest where
  nextSequence : ℕ := 1
  highWatermark : ℕ := 0
  activeStartSequence : ℕ := 1
  activeCreatedAt : Instant
  activeByteLen : ℕ := 0
  sealed : Bool := false
  sealedSegments : List SegmentMeta := []
  deletedSegments : List SegmentFile := []
deriving DecidableEq

/-- `JournalManifest::empty` -/
def JournalManifest.empty (now : Instant) : JournalManifest := { activeCreatedAt := now }

def JournalManifest.earliestRetainedSequence (m : JournalManifest) : Option ℕ :=
  match m.sealedSegments.head? with
  | some segment => some segment.firstSequence
  | none =>
    if m.activeStartSequence ≤ m.highWatermark then some m.activeStartSequence else none

/-- The files of one journal. -/
structure JournalDisk where
  active : Option ByteArray := none
  legacy : Option ByteArray := none
  manifest : Option JournalManifest := none
  segments : List (SegmentFile × ByteArray) := []

/-- A change of the files that a crash leaves either undone or done. -/
inductive DiskWrite where
  | setActive (contents : ByteArray)
  /-- Open the active file, and create it where it is missing. -/
  | touchActive
  | appendActive (row : ByteArray)
  | renameActive (file : SegmentFile)
  | removeSegment (file : SegmentFile)
  | writeManifest (m : JournalManifest)

namespace JournalDisk

def withoutSegment (disk : JournalDisk) (file : SegmentFile) : List (SegmentFile × ByteArray) :=
  disk.segments.filter fun segment => segment.1 ≠ file

def apply (disk : JournalDisk) : DiskWrite → JournalDisk
  | .setActive contents => { disk with active := some contents }
  | .touchActive => { disk with active := some (disk.active.getD ByteArray.empty) }
  | .appendActive row => { disk with active := some (disk.active.getD ByteArray.empty ++ row) }
  | .renameActive file =>
    match disk.active with
    | some contents =>
      { disk with active := none, segments := disk.withoutSegment file ++ [(file, contents)] }
    | none => disk
  | .removeSegment file => { disk with segments := disk.withoutSegment file }
  | .writeManifest m => { disk with manifest := some m }

/-- Whether a write renames the active file onto a segment that is there. -/
def Overwrites (disk : JournalDisk) : DiskWrite → Prop
  | .renameActive file => file ∈ disk.segments.map Prod.fst
  | _ => False

instance (disk : JournalDisk) (write : DiskWrite) : Decidable (disk.Overwrites write) := by
  cases write <;> unfold Overwrites <;> exact inferInstance

end JournalDisk

/-- What an operation has written so far: the files as they are and as they were before each
of its writes. -/
structure Writing where
  disk : JournalDisk
  before : List JournalDisk := []
  overwritten : Bool := false

def Writing.write (w : Writing) (write : DiskWrite) : Writing :=
  { disk := w.disk.apply write
    before := w.before ++ [w.disk]
    overwritten := w.overwritten || decide (w.disk.Overwrites write) }

section Operations

variable (format : TimeFormat) (policy : JournalPolicy) (isRun : Bool)

/-- `read_journal` of the active file -/
def JournalDisk.readActive (disk : JournalDisk) : Except LogError (List LogLine) :=
  match disk.active with
  | none => .ok []
  | some contents => readJournal format contents

/-- `tokio::fs::metadata` of the active file -/
def JournalDisk.activeSize (disk : JournalDisk) : ℕ :=
  match disk.active with
  | none => 0
  | some contents => contents.size

/-- `migrate_legacy_journal` -/
def migrateLegacyJournal (w : Writing) : Writing :=
  match w.disk.active, w.disk.legacy with
  | none, some contents => w.write (.setActive contents)
  | _, _ => w

/-- The manifest with the lines of the active file. -/
def JournalManifest.withActive (m : JournalManifest) (rows : List LogLine) : JournalManifest :=
  let m := match rows.head? with
    | some first => { m with activeStartSequence := first.sequence }
    | none => m
  match rows.getLast? with
  | some last =>
    { m with
      highWatermark := max m.highWatermark last.sequence
      nextSequence := max m.nextSequence (satAddU64 last.sequence 1) }
  | none => m

def rebuildManifest (disk : JournalDisk) (now : Instant) : Except LogError JournalManifest :=
  (disk.readActive format).map fun rows =>
    let m := JournalManifest.empty now
    let m := match rows.head? with
      | some first =>
        { m with activeStartSequence := first.sequence, activeCreatedAt := first.timestamp }
      | none => m
    let m := match rows.getLast? with
      | some last =>
        { m with highWatermark := last.sequence, nextSequence := satAddU64 last.sequence 1 }
      | none => m
    { m with activeByteLen := disk.activeSize }

/-- A segment that the manifest does not name is taken up. -/
def adoptSegment (now : Instant) (m : JournalManifest) (segment : SegmentFile × ByteArray) :
    Except LogError JournalManifest :=
  if m.sealedSegments.any fun known => known.filename = segment.1 then .ok m
  else (readJournal format segment.2).map fun rows =>
    match rows.getLast? with
    | none => m
    | some last =>
      let adopted : SegmentMeta :=
        { filename := segment.1
          firstSequence := (rows.head?.map LogLine.sequence).getD segment.1
          lastSequence := last.sequence
          createdAt := (rows.head?.map LogLine.timestamp).getD now
          sealedAt := now
          byteLen := segment.2.size }
      { m with
        sealedSegments := m.sealedSegments ++ [adopted]
        highWatermark := max m.highWatermark last.sequence
        nextSequence := max m.nextSequence (satAddU64 last.sequence 1) }

/-- The segments in the order of their first lines. -/
def sortSegments (segments : List SegmentMeta) : List SegmentMeta :=
  segments.insertionSort fun a b => a.firstSequence ≤ b.firstSequence

def repairManifest (w : Writing) (m : JournalManifest) (now : Instant) :
    Writing × Except LogError JournalManifest :=
  let w := m.deletedSegments.foldl (fun w file => w.write (.removeSegment file)) w
  let m := { m with deletedSegments := [] }
  match w.disk.readActive format with
  | .error e => (w, .error e)
  | .ok rows =>
    let m := { m.withActive rows with activeByteLen := w.disk.activeSize }
    match w.disk.segments.foldlM (adoptSegment format now) m with
    | .error e => (w, .error e)
    | .ok m =>
      let m := { m with sealedSegments := sortSegments m.sealedSegments }
      match w.disk.active with
      | some _ => (w, .ok m)
      | none =>
        (w, .ok { m with
          activeStartSequence := m.nextSequence, activeCreatedAt := now, activeByteLen := 0 })

/-- Whether the first of these segments is removed. -/
def JournalPolicy.expires (segments : List SegmentMeta) (totalBytes : ℕ) (now : Instant)
    (first : SegmentMeta) : Bool :=
  policy.maxSegmentAge ≤ now - first.sealedAt || policy.maxSealedSegments < segments.length ||
    policy.maxTotalBytes < totalBytes

/-- The loop of `enforce_retention`, over the segments that are left. -/
def retain (now : Instant) : List SegmentMeta → ℕ → Writing → JournalManifest →
    Writing × JournalManifest
  | [], _, w, m => (w, m)
  | first :: rest, totalBytes, w, m =>
    if policy.expires (first :: rest) totalBytes now first then
      let m := { m with
        sealedSegments := rest, deletedSegments := m.deletedSegments ++ [first.filename] }
      let w := (w.write (.writeManifest m)).write (.removeSegment first.filename)
      let m := { m with
        deletedSegments := m.deletedSegments.filter fun file => file ≠ first.filename }
      retain now rest (totalBytes - first.byteLen) (w.write (.writeManifest m)) m
    else (w, m)

/-- The sum of the sizes wraps around; the addition of the active file stops at the largest
number. -/
def JournalManifest.totalBytes (m : JournalManifest) : ℕ :=
  satAddU64 m.activeByteLen ((m.sealedSegments.map SegmentMeta.byteLen).sum % 2^64)

def enforceRetention (w : Writing) (m : JournalManifest) (now : Instant) :
    Writing × JournalManifest :=
  retain policy now m.sealedSegments m.totalBytes w m

/-- Segments expire at once, but those of a run only when it is sealed. -/
def retainUnlessRunning (w : Writing) (m : JournalManifest) (now : Instant) :
    Writing × JournalManifest :=
  if !isRun || m.sealed then enforceRetention policy w m now else (w, m)

/-- The first part of `initialize`: the manifest as it is stored, or as the active file tells it,
repaired. -/
def repairStored (disk : JournalDisk) (now : Instant) : Writing × Except LogError JournalManifest :=
  let w := migrateLegacyJournal { disk }
  match w.disk.manifest with
  | some m => repairManifest format w m now
  | none =>
    match rebuildManifest format w.disk now with
    | .error e => (w, .error e)
    | .ok m => repairManifest format w m now

def initializeJournal (disk : JournalDisk) (repairedAt retainedAt : Instant) :
    Writing × Except LogError JournalManifest :=
  match repairStored format disk repairedAt with
  | (w, .error e) => (w, .error e)
  | (w, .ok m) =>
    let retained := retainUnlessRunning policy isRun w m retainedAt
    match retained.1.disk.readActive format with
    | .error e => (retained.1, .error e)
    | .ok _ => (retained.1.write (.writeManifest retained.2), .ok retained.2)

def shouldRollover (m : JournalManifest) (now : Instant) : Bool :=
  0 < m.activeByteLen &&
    (policy.maxSegmentBytes ≤ m.activeByteLen || policy.maxSegmentAge ≤ now - m.activeCreatedAt)

def rollover (w : Writing) (m : JournalManifest) (now : Instant) :
    Writing × Except LogError JournalManifest :=
  let oldStart := m.activeStartSequence
  let w := w.write .touchActive
  match w.disk.readActive format with
  | .error e => (w, .error e)
  | .ok rows =>
    let (w, m) := match rows.getLast? with
      | some last =>
        let sealed : SegmentMeta :=
          { filename := oldStart
            firstSequence := (rows.head?.map LogLine.sequence).getD oldStart
            lastSequence := last.sequence
            createdAt := m.activeCreatedAt
            sealedAt := now
            byteLen := m.activeByteLen }
        (w.write (.renameActive oldStart),
          { m with sealedSegments := m.sealedSegments ++ [sealed] })
      | none => (w, m)
    let w := w.write (.setActive ByteArray.empty)
    let m := { m with
      activeStartSequence := m.nextSequence, activeCreatedAt := now, activeByteLen := 0 }
    let retained := retainUnlessRunning policy isRun w m now
    (retained.1.write (.writeManifest retained.2), .ok retained.2)

/-- The part of `append_to` before the line is written. -/
def rolloverIfDue (disk : JournalDisk) (m : JournalManifest) (checkedAt rolledAt : Instant) :
    Writing × Except LogError JournalManifest :=
  if shouldRollover policy m checkedAt then rollover format policy isRun { disk } m rolledAt
  else ({ disk }, .ok m)

/-- `append_to`, once the journal is initialized -/
def appendTo (disk : JournalDisk) (m : JournalManifest) (line : LogLine)
    (checkedAt rolledAt : Instant) : Writing × Except LogError (JournalManifest × LogLine) :=
  if m.sealed then ({ disk }, .error .sealed)
  else match rolloverIfDue format policy isRun disk m checkedAt rolledAt with
    | (w, .error e) => (w, .error e)
    | (w, .ok m) =>
      let line := { line with sequence := m.nextSequence }
      let row := persistedBytes format line
      (w.write (.appendActive row),
        .ok ({ m with
          activeByteLen := m.activeByteLen + row.size
          highWatermark := line.sequence
          nextSequence := satAddU64 line.sequence 1 }, line))

/-- `seal_run_to`, once the journal is initialized -/
def sealRunTo (disk : JournalDisk) (m : JournalManifest) (now : Instant) :
    Writing × JournalManifest :=
  let m := { m with sealed := true }
  enforceRetention policy (((⟨disk, [], false⟩ : Writing).write .touchActive).write
    (.writeManifest m)) m now

end Operations

section Tail

structure LogTail where
  lines : List LogLine := []
  truncated : Bool := false
  highWatermark : ℕ := 0
  nextSequence : ℕ := 0
  earliestRetainedSequence : Option ℕ := none
  cursorExpired : Bool := false
deriving DecidableEq

/-- Which lines a reader asks for. -/
structure TailQuery where
  limit : ℕ := 0
  since : Option Instant := none
  afterSequence : Option ℕ := none

def TailQuery.selects (query : TailQuery) (line : LogLine) : Bool :=
  query.since.all (fun since => since ≤ line.timestamp) &&
    query.afterSequence.all fun after => after < line.sequence

/-- The last lines up to the limit; no limit is zero. -/
def TailQuery.lastLines (query : TailQuery) (lines : List LogLine) : List LogLine :=
  if 0 < query.limit ∧ query.limit < lines.length then lines.drop (lines.length - query.limit)
  else lines

def snapshot (buffer : List LogLine) (query : TailQuery) (highWatermark : ℕ)
    (earliestRetainedSequence : Option ℕ) : LogTail :=
  let filtered := buffer.filter query.selects
  { lines := query.lastLines filtered
    truncated := 0 < query.limit && query.limit < filtered.length
    highWatermark
    nextSequence := satAddU64 highWatermark 1
    earliestRetainedSequence
    cursorExpired := query.afterSequence.any fun cursor =>
      earliestRetainedSequence.any fun earliest => satAddU64 cursor 1 < earliest }

variable (format : TimeFormat)

/-- The lines of a segment that is there. -/
def JournalDisk.readSegment (disk : JournalDisk) (file : SegmentFile) :
    Except LogError (List LogLine) :=
  match (disk.segments.find? fun segment => segment.1 = file).map Prod.snd with
  | none => .ok []
  | some contents => readJournal format contents

/-- The lines of the segments that a cursor has not passed. -/
def JournalDisk.readSealed (disk : JournalDisk) (query : TailQuery) :
    List SegmentMeta → Except LogError (List LogLine)
  | [] => .ok []
  | segment :: rest =>
    if query.afterSequence.any fun cursor => segment.lastSequence ≤ cursor then
      disk.readSealed query rest
    else do
      let rows ← disk.readSegment format segment.filename
      let others ← disk.readSealed query rest
      pure (rows ++ others)

def snapshotDurable (disk : JournalDisk) (m : JournalManifest) (query : TailQuery) :
    Except LogError LogTail := do
  let sealed ← disk.readSealed format query m.sealedSegments
  let active ← if query.afterSequence.all fun cursor => cursor < m.highWatermark then
    disk.readActive format else pure []
  pure (snapshot (sealed ++ active) query m.highWatermark m.earliestRetainedSequence)

/-- `tail_from`, once the journal is initialized -/
def tailFrom (disk : JournalDisk) (m : JournalManifest) (query : TailQuery) : LogTail :=
  (snapshotDurable format disk m query).toOption.getD {}

end Tail

/-- A journal: its files, the manifest of the process that has it open, and all lines that have
been published. -/
structure JournalState where
  disk : JournalDisk
  memory : Option JournalManifest := none
  published : List LogLine := []
  overwritten : Bool := false

inductive JournalCall where
  | initializeJournal (repairedAt retainedAt : Instant)
  | publish (line : LogLine) (checkedAt rolledAt : Instant)
  | sealRun (now : Instant)

inductive JournalEvent where
  | call (call : JournalCall)
  /-- The process ends before one of the writes of a call. -/
  | crash (call : JournalCall) (write : ℕ)
  /-- The process ends between two calls. -/
  | exit

namespace JournalState

variable (format : TimeFormat) (policy : JournalPolicy) (isRun : Bool)

/-- What a call writes, and the state after it. -/
def perform (s : JournalState) (call : JournalCall) : Option (Writing × JournalState) :=
  match call, s.memory with
  | .initializeJournal repairedAt retainedAt, none =>
    let (w, opened) := initializeJournal format policy isRun s.disk repairedAt retainedAt
    some (w, { s with disk := w.disk, memory := opened.toOption })
  | .publish line checkedAt rolledAt, some m =>
    match appendTo format policy isRun s.disk m line checkedAt rolledAt with
    | (w, .error _) => some (w, { s with disk := w.disk })
    | (w, .ok (m, line)) =>
      some (w, { s with disk := w.disk, memory := some m, published := s.published ++ [line] })
  | .sealRun now, some m =>
    if isRun then
      let (w, m) := sealRunTo policy s.disk m now
      some (w, { s with disk := w.disk, memory := some m })
    else none
  | _, _ => none

def step (s : JournalState) : JournalEvent → Option JournalState
  | .call call => (s.perform format policy isRun call).map fun (w, t) =>
      { t with overwritten := s.overwritten || w.overwritten }
  | .crash call write => (s.perform format policy isRun call).bind fun (w, _) =>
      w.before[write]?.map fun disk =>
        { s with disk, memory := none, overwritten := s.overwritten || w.overwritten }
  | .exit => some { s with memory := none }

def machine : Machine JournalState JournalEvent where
  step := step format policy isRun

end JournalState

end Supervisor
