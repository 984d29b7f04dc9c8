import Supervisor.Journal
import Supervisor.RowMap

namespace Supervisor

/-- A file of a journal with the lines that are read from it. -/
abbrev FileLines := SegmentFile × List LogLine

/-- Lines with consecutive numbers from `first` on. -/
def NumberedFrom (first : ℕ) (lines : List LogLine) : Prop :=
  lines.map LogLine.sequence = List.range' first lines.length

namespace NumberedFrom

variable {first : ℕ} {lines more : List LogLine} {line : LogLine}

theorem append_iff : NumberedFrom first (lines ++ more) ↔
    NumberedFrom first lines ∧ NumberedFrom (first + lines.length) more := by
  unfold NumberedFrom
  rw [List.map_append, List.length_append, ← List.range'_append_1]
  constructor
  · intro h
    exact List.append_inj h (by simp)
  · rintro ⟨hlines, hmore⟩
    rw [hlines, hmore]

theorem cons_iff : NumberedFrom first (line :: lines) ↔
    line.sequence = first ∧ NumberedFrom (first + 1) lines := by
  unfold NumberedFrom
  rw [List.map_cons, List.length_cons, List.range'_succ]
  exact List.cons_eq_cons

theorem concat (h : NumberedFrom first lines) (hline : line.sequence = first + lines.length) :
    NumberedFrom first (lines ++ [line]) :=
  append_iff.mpr ⟨h, cons_iff.mpr ⟨hline, rfl⟩⟩

theorem head (h : NumberedFrom first lines) (hne : lines ≠ []) :
    lines.head?.map LogLine.sequence = some first := by
  cases lines with
  | nil => exact absurd rfl hne
  | cons line lines => exact congrArg some (cons_iff.mp h).1

theorem last (h : NumberedFrom first (lines ++ [line])) : line.sequence = first + lines.length :=
  (cons_iff.mp (append_iff.mp h).2).1

theorem mem (h : NumberedFrom first lines) (hline : line ∈ lines) :
    first ≤ line.sequence ∧ line.sequence < first + lines.length := by
  have hmem : line.sequence ∈ List.range' first lines.length := h ▸ List.mem_map_of_mem hline
  simpa using List.mem_range'_1.mp hmem

theorem ascending (h : NumberedFrom first lines) :
    lines.Pairwise fun a b => a.sequence < b.sequence := by
  have hrange : (lines.map LogLine.sequence).Pairwise (· < ·) := h ▸ List.pairwise_lt_range'
  exact List.pairwise_map.mp hrange

end NumberedFrom

section Layout

variable (format : TimeFormat)

/-- The lines that the files of a journal hold: those of the segments, then those of the active
file, are the last of the published ones. -/
structure Layout (first : ℕ) (published : List LogLine) (disk : JournalDisk)
    (files : List FileLines) (rows : List LogLine) : Prop where
  numbered : NumberedFrom first published
  small : first + published.length < 2^64
  kept : ∃ expired, published = expired ++ (files.flatMap Prod.snd ++ rows)
  held : ∀ file ∈ files, ∃ contents, (file.1, contents) ∈ disk.segments ∧
    readJournal format contents = .ok file.2
  named : ∀ file ∈ files, file.2.head?.map LogLine.sequence = some file.1
  unique : KeyedRows.Unique Prod.fst disk.segments
  active : WholeFile format (disk.active.getD ByteArray.empty) rows

/-- An entry of a manifest that is about a file. -/
structure Describes (segment : SegmentMeta) (file : FileLines) : Prop where
  filename : segment.filename = file.1
  first : segment.firstSequence = file.1
  last : file.2.getLast?.map LogLine.sequence = some segment.lastSequence

/-- The number that the next line gets. -/
def nextNumber (first : ℕ) (published : List LogLine) : ℕ := first + published.length

/-- The active file starts with the line that the manifest names, or with the next one. -/
def StartsRight (m : JournalManifest) (rows : List LogLine) (next : ℕ) : Prop :=
  m.activeStartSequence = (rows.head?.map LogLine.sequence).getD next

/-- A manifest that is up to date, with all files that there are. -/
structure Current (first : ℕ) (published : List LogLine) (disk : JournalDisk)
    (m : JournalManifest) (files : List FileLines) (rows : List LogLine) : Prop where
  layout : Layout format first published disk files rows
  describes : List.Forall₂ Describes m.sealedSegments files
  complete : ∀ segment ∈ disk.segments, segment.1 ∈ files.map Prod.fst
  next : m.nextSequence = nextNumber first published
  watermark : m.highWatermark + 1 = m.nextSequence
  deleted : m.deletedSegments = []
  size : m.activeByteLen = disk.activeSize
  start : files ≠ [] ∨ StartsRight m rows m.nextSequence

/-- A manifest from which a repair finds the way to an up-to-date one. -/
structure Behind (first : ℕ) (published : List LogLine) (disk : JournalDisk)
    (m : JournalManifest) (files : List FileLines) (rows : List LogLine) : Prop where
  describes : ∀ segment ∈ m.sealedSegments, ∃ file ∈ files, Describes segment file
  unique : KeyedRows.Unique SegmentMeta.filename m.sealedSegments
  complete : ∀ segment ∈ disk.segments,
    segment.1 ∈ files.map Prod.fst ∨ segment.1 ∈ m.deletedSegments
  kept : ∀ file ∈ files, file.1 ∉ m.deletedSegments
  next : m.nextSequence ≤ nextNumber first published
  watermark : m.highWatermark + 1 = m.nextSequence
  /-- The last line is counted, or found. -/
  counted : m.nextSequence = nextNumber first published ∨ rows ≠ [] ∨
    ∃ file ∈ files.getLast?, ∀ segment ∈ m.sealedSegments, segment.filename ≠ file.1
  start : rows = [] → files ≠ [] ∨ m.activeStartSequence = nextNumber first published

/-- The files as `initialize` sees them when it copies an older journal at most once. -/
def JournalDisk.seen (disk : JournalDisk) : JournalDisk :=
  { disk with active := disk.active.or (if disk.manifest.isNone then disk.legacy else none) }

/-- Files from which no line is lost. -/
def Recoverable (first : ℕ) (published : List LogLine) (disk : JournalDisk) : Prop :=
  ∃ files rows, Layout format first published disk.seen files rows ∧
    match disk.manifest with
    | some m => Behind first published disk.seen m files rows
    | none => disk.segments = [] ∧ files = [] ∧ (rows = [] → nextNumber first published = 1)

end Layout

section Facts

variable {format : TimeFormat} {first : ℕ} {published rows : List LogLine} {disk : JournalDisk}
  {files : List FileLines} {m : JournalManifest} {file : FileLines}

theorem Layout.kept_ascending (h : Layout format first published disk files rows) :
    (files.flatMap Prod.snd ++ rows).Pairwise fun a b => a.sequence < b.sequence := by
  obtain ⟨expired, hkept⟩ := h.kept
  have hall := h.numbered.ascending
  rw [hkept] at hall
  exact (List.pairwise_append.mp hall).2.1

theorem Layout.head (h : Layout format first published disk files rows) (hfile : file ∈ files) :
    ∃ line ∈ file.2, line.sequence = file.1 := by
  obtain ⟨line, hline, hsequence⟩ := Option.map_eq_some_iff.mp (h.named file hfile)
  exact ⟨line, List.mem_of_head? hline, hsequence⟩

theorem Layout.names_ascending (h : Layout format first published disk files rows) :
    (files.map Prod.fst).Pairwise (· < ·) := by
  have hfiles := (List.pairwise_flatMap.mp (List.pairwise_append.mp h.kept_ascending).1).2
  rw [List.pairwise_map]
  apply hfiles.imp_of_mem
  intro a b ha hb hab
  obtain ⟨x, hx, hxa⟩ := h.head ha
  obtain ⟨y, hy, hyb⟩ := h.head hb
  rw [← hxa, ← hyb]
  exact hab x hx y hy

theorem Layout.names_nodup (h : Layout format first published disk files rows) :
    KeyedRows.Unique Prod.fst files :=
  h.names_ascending.imp Nat.ne_of_lt

theorem Layout.name_lt (h : Layout format first published disk files rows) (hfile : file ∈ files)
    {line : LogLine} (hline : line ∈ rows) : file.1 < line.sequence := by
  obtain ⟨x, hx, hxfile⟩ := h.head hfile
  rw [← hxfile]
  exact (List.pairwise_append.mp h.kept_ascending).2.2 x (List.mem_flatMap.mpr ⟨file, hfile, hx⟩)
    line hline

theorem Layout.last_kept (h : Layout format first published disk files rows) {line : LogLine}
    (hline : (files.flatMap Prod.snd ++ rows).getLast? = some line) :
    line.sequence + 1 = nextNumber first published := by
  obtain ⟨expired, hkept⟩ := h.kept
  obtain ⟨init, hinit⟩ := List.getLast?_eq_some_iff.mp hline
  have hnumbered := h.numbered
  unfold nextNumber
  rw [hkept, hinit, ← List.append_assoc] at hnumbered ⊢
  rw [hnumbered.last, @List.length_append _ (expired ++ init) _]
  rfl

theorem Layout.last_row (h : Layout format first published disk files rows) {line : LogLine}
    (hline : rows.getLast? = some line) : line.sequence + 1 = nextNumber first published := by
  apply h.last_kept
  rw [List.getLast?_append, hline]
  rfl

theorem Layout.last_file (h : Layout format first published disk files rows) (hrows : rows = [])
    (hfile : files.getLast? = some file) {line : LogLine} (hline : file.2.getLast? = some line) :
    line.sequence + 1 = nextNumber first published := by
  apply h.last_kept
  obtain ⟨init, rfl⟩ := List.getLast?_eq_some_iff.mp hfile
  rw [hrows, List.append_nil, List.flatMap_append, List.getLast?_append]
  simp [hline]

theorem Layout.lt_next (h : Layout format first published disk files rows) {line : LogLine}
    (hline : line ∈ files.flatMap Prod.snd ++ rows) :
    line.sequence < nextNumber first published := by
  obtain ⟨expired, hkept⟩ := h.kept
  exact (h.numbered.mem (hkept ▸ List.mem_append_right expired hline)).2

theorem Layout.readActive (h : Layout format first published disk files rows) :
    disk.readActive format = .ok rows := by
  have hactive := h.active
  unfold JournalDisk.readActive
  cases hdisk : disk.active with
  | none =>
    rw [hdisk] at hactive
    have hread := hactive.readJournal
    have hempty := (@wholeFile_empty format).readJournal
    exact hempty.symm.trans hread
  | some contents =>
    rw [hdisk] at hactive
    exact hactive.readJournal

theorem exists_of_forall₂ {α β : Type} {R : α → β → Prop} {xs : List α} {ys : List β}
    (h : List.Forall₂ R xs ys) {x : α} (hx : x ∈ xs) : ∃ y ∈ ys, R x y := by
  induction h with
  | nil => cases hx
  | cons hxy _ ih =>
    rcases List.mem_cons.mp hx with rfl | hx
    · exact ⟨_, List.mem_cons_self, hxy⟩
    · obtain ⟨y, hy, hR⟩ := ih hx
      exact ⟨y, List.mem_cons_of_mem _ hy, hR⟩

theorem filenames_of_describes {segments : List SegmentMeta}
    (h : List.Forall₂ Describes segments files) :
    segments.map SegmentMeta.filename = files.map Prod.fst := by
  induction h with
  | nil => rfl
  | cons hd _ ih => rw [List.map_cons, List.map_cons, ih, hd.filename]

theorem Current.filenames (h : Current format first published disk m files rows) :
    m.sealedSegments.map SegmentMeta.filename = files.map Prod.fst :=
  filenames_of_describes h.describes

/-- An up-to-date manifest on the disk. -/
theorem Current.behind (h : Current format first published disk m files rows) :
    Behind first published disk m files rows := by
  have hnames := h.filenames
  constructor
  case describes =>
    intro segment hsegment
    exact exists_of_forall₂ h.describes hsegment
  case unique =>
    rw [KeyedRows.Unique, hnames]
    exact h.layout.names_nodup
  case complete => exact fun segment hsegment => .inl (h.complete segment hsegment)
  case kept =>
    intro file _
    rw [h.deleted]
    exact List.not_mem_nil
  case next => exact h.next.le
  case watermark => exact h.watermark
  case counted => exact .inl h.next
  case start =>
    intro hrows
    refine h.start.imp_right ?_
    intro hstart
    rw [hrows] at hstart
    exact hstart.trans h.next

end Facts

end Supervisor
