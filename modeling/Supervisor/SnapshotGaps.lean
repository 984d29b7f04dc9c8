import Supervisor.DetachedReader

namespace Supervisor

namespace LogProxy

section Rows

variable {lines rows : List LogLine} {row : LogLine} {first next : ℕ}

theorem insertRow_end (h : ∀ line ∈ lines, line.sequence < row.sequence) :
    insertRow lines row = lines ++ [row] := by
  induction lines with
  | nil => rfl
  | cons head lines ih =>
    have hhead := h head List.mem_cons_self
    rw [insertRow, if_neg (by omega), if_neg (by omega),
      ih fun line hline => h line (List.mem_cons_of_mem _ hline)]
    rfl

/-- Rows that come after what has been collected. -/
theorem foldl_insertRow (hlines : NumberedFrom first lines)
    (hrows : NumberedFrom (first + lines.length) rows) :
    rows.foldl insertRow lines = lines ++ rows := by
  induction rows generalizing lines with
  | nil => exact (List.append_nil lines).symm
  | cons row rows ih =>
    obtain ⟨hrow, hrest⟩ := NumberedFrom.cons_iff.mp hrows
    have hend : insertRow lines row = lines ++ [row] := by
      apply insertRow_end
      intro line hline
      have hlt := (hlines.mem hline).2
      omega
    have hnext : NumberedFrom (first + (lines ++ [row]).length) rows := by
      rw [List.length_append, List.length_singleton, ← Nat.add_assoc]
      exact hrest
    rw [List.foldl_cons, hend, ih (hlines.concat hrow) hnext, List.append_assoc]
    rfl

theorem NumberedFrom.lastNumber (h : NumberedFrom first rows) (hne : rows ≠ []) :
    LogProxy.lastNumber rows + 1 = first + rows.length := by
  rw [← List.dropLast_append_getLast hne] at h ⊢
  rw [LogProxy.lastNumber, List.getLast?_concat, List.length_append]
  have hlast := h.last
  simp only [Option.map_some, Option.getD_some, List.length_singleton]
  omega

theorem foldl_max_range' (first count : ℕ) :
    (List.range' first (count + 1)).foldl max 0 = first + count := by
  induction count with
  | zero => simp
  | succ count ih =>
    rw [List.range'_concat, List.foldl_append, ih]
    simp only [Nat.one_mul, List.foldl_cons, List.foldl_nil]
    omega

theorem NumberedFrom.foldl_max (h : NumberedFrom first rows) (hne : rows ≠ []) :
    (rows.map LogLine.sequence).foldl max 0 + 1 = first + rows.length := by
  obtain ⟨count, hcount⟩ := Nat.exists_eq_succ_of_ne_zero (List.length_pos_of_ne_nil hne).ne'
  rw [h, hcount, Nat.succ_eq_add_one, foldl_max_range', Nat.add_assoc]

end Rows

/-- Lines without a gap up to the one before `next`, all after the cursor; or none. -/
def Collected (after : Option ℕ) (lines : List LogLine) (next : ℕ) : Prop :=
  lines = [] ∨ (∃ first, NumberedFrom first lines ∧ first + lines.length = next) ∧
    ∀ cursor ∈ after, cursor + 1 < next

/-- The snapshot ascends without a gap from its first line to its high watermark. -/
structure DetachedSnapshot.GapFree (snapshot : DetachedSnapshot) : Prop where
  ascending : snapshot.lines.Pairwise fun a b => a.sequence < b.sequence
  contiguous : ∀ first ∈ snapshot.lines.head?, snapshot.lines.map LogLine.sequence =
    List.range' first.sequence (snapshot.highWatermark + 1 - first.sequence)

theorem DetachedSnapshot.gapFree_of_numbered {snapshot : DetachedSnapshot} {first : ℕ}
    (h : NumberedFrom first snapshot.lines)
    (hhigh : snapshot.lines ≠ [] → snapshot.highWatermark + 1 = first + snapshot.lines.length) :
    snapshot.GapFree := by
  refine ⟨h.ascending, fun line hline => ?_⟩
  have hne : snapshot.lines ≠ [] := by
    intro hnil
    rw [hnil] at hline
    cases hline
  have hfirst : line.sequence = first := by
    have hhead := h.head hne
    rw [hline] at hhead
    exact Option.some.inj hhead
  rw [hfirst, hhigh hne, Nat.add_sub_cancel_left]
  exact h

section Known

variable {format : TimeFormat} {w w' : JournalWriter} {m : JournalManifest} {e : WriterEvent}

theorem Moves.start_le {disk disk' : Disk} {written : List LogLine} {stage stage' : Stage}
    {step : ProxyStep} (hok : StageOk disk written stage)
    (h : Moves format disk stage step disk' stage') :
    (stage.manifest disk).activeStartSequence ≤ (stage'.manifest disk').activeStartSequence := by
  cases h with
  | scan m =>
    obtain ⟨hstored, rfl⟩ := hok
    rw [hstored.numbers.recover hstored.filled]
    exact Nat.le_refl _
  | create hfew => exact hok.2.2.2.2
  | _ => exact Nat.le_refl _

theorem JournalWriter.Sound.lastNumber_le (h : w.Sound format) {disk : Disk} {stage : Stage}
    {step : ProxyStep} (hfits : w.Fits (.proxy step))
    (hmove : Moves format w.disk w.stage step disk stage) :
    lastNumber w.written ≤ lastNumber (w.written ++ (w.stage.completed stage).toList) := by
  have hrow := (h.ok.moves h.laid.valid hfits.mayAppend hmove).2.2
  cases hcompleted : w.stage.completed stage with
  | none => rw [Option.toList_none, List.append_nil]
  | some row =>
    have hlt := hrow row hcompleted
    have hlast : lastNumber (w.written ++ (some row).toList) = row.sequence := by
      rw [Option.toList_some, lastNumber, List.getLast?_concat]
      rfl
    omega

/-- A manifest that was stored stays known. -/
theorem JournalWriter.Known.step (hm : w.Known format m) (h : w.Sound format) (hfits : w.Fits e)
    (hstep : w.step format e = some w') : w'.Known format m := by
  rcases JournalWriter.step_moves hstep with ⟨step, disk, stage, rfl, hmove, rfl⟩ |
    ⟨journal, hready, rfl⟩
  · exact ⟨hm.sealed.moves h.laid hmove fun _ => hm.start,
      hm.start.trans (Moves.start_le h.ok hmove), hm.high.trans (h.lastNumber_le hfits hmove)⟩
  · have hok := h.ok
    have hstart := hm.start
    rw [hready] at hok hstart
    refine ⟨hm.sealed, ?_, hm.high⟩
    change m.activeStartSequence ≤ (w.disk.manifest.getD {}).activeStartSequence
    rw [hok.1]
    exact hstart

/-- A step leaves the manifest as it is, or stores that of the journal. -/
theorem Moves.manifest {disk disk' : Disk} {stage stage' : Stage} {step : ProxyStep}
    (hvalid : disk.Valid) (h : Moves format disk stage step disk' stage') :
    disk'.manifest = disk.manifest ∨
      ∃ journal, stage' = .ready journal ∧ disk'.manifest = some journal.manifest := by
  have hwrite (handle : OpenFile) (bytes : ByteArray) :
      (disk.write handle bytes).1.manifest = disk.manifest := by
    unfold Disk.write
    cases handle.position <;> rfl
  cases h with
  | storeOpened | storeCreated | storeWritten => exact .inr ⟨_, rfl, rfl⟩
  | openActive => exact .inl hvalid.openAppend.manifest
  | create =>
    left
    unfold Disk.openTruncated
    cases disk.active <;> rfl
  | write | finish => exact .inl (hwrite _ _)
  | _ => exact .inl rfl

/-- The manifest that is stored is known. -/
def JournalWriter.StoredKnown (format : TimeFormat) (w : JournalWriter) : Prop :=
  ∀ m, w.disk.manifest = some m → w.Known format m

theorem JournalWriter.StoredKnown.step (hs : w.StoredKnown format) (h : w.Sound format)
    (hfits : w.Fits e) (hstep : w.step format e = some w') : w'.StoredKnown format := by
  intro m hm
  have hsound := h.step hfits hstep
  rcases JournalWriter.step_moves hstep with ⟨step, disk, stage, rfl, hmove, rfl⟩ |
    ⟨journal, hready, rfl⟩
  · have hkept (hsame : disk.manifest = w.disk.manifest) :
        JournalWriter.Known format ⟨disk, stage, w.written ++ (w.stage.completed stage).toList⟩ m :=
      (hs m (hsame.symm.trans hm)).step h hfits hstep
    have hready {journal : ProxyJournal} (hstage : stage = .ready journal)
        (hmanifest : disk.manifest = some journal.manifest) :
        JournalWriter.Known format ⟨disk, stage, w.written ++ (w.stage.completed stage).toList⟩ m := by
      have heq : journal.manifest = m := Option.some.inj (hmanifest.symm.trans hm)
      subst hstage heq
      have hrows := hsound.laid.rows
      have hnumbers := hsound.ok.2.1
      exact ⟨hrows.1, Nat.le_refl _, hnumbers.high.le⟩
    rcases hmove.manifest h.laid.valid with hsame | ⟨journal, hstage, hmanifest⟩
    · exact hkept hsame
    · exact hready hstage hmanifest
  · exact (hs m hm).step h hfits hstep

/-- Outside a rollover the manifest of the proxy goes on where the rows end. -/
theorem StageOk.numbers {disk : Disk} {written : List LogLine} {stage : Stage}
    (h : StageOk disk written stage) (hstage : ∀ journal, stage ≠ .renamed journal) :
    Numbers disk written (stage.manifest disk) := by
  cases stage with
  | launched | ended => exact Stored.numbers h
  | loaded m =>
    obtain ⟨hstored, rfl⟩ := h
    exact hstored.numbers
  | scanned m => exact h.2.1
  | opened journal => exact h.2.1
  | ready journal => exact h.2.1
  | renamed journal => exact absurd rfl (hstage journal)
  | created journal => exact h.1
  | writing journal row rest => exact h.1
  | written journal => exact h.1

/-- What is read of the active file is numbered from its start on, up to the last row at least. -/
theorem JournalWriter.Sound.readActive (h : w.Sound format) {rows : List LogLine}
    (hread : readJournal format w.disk.activeContents = .ok rows) (hne : rows ≠ []) :
    NumberedFrom (w.stage.manifest w.disk).activeStartSequence rows ∧
      lastNumber w.written < (w.stage.manifest w.disk).activeStartSequence + rows.length := by
  obtain ⟨hok, hlaid⟩ := h
  have hnone (hactive : w.disk.active = none) : rows = [] := by
    rw [Disk.activeContents, hactive] at hread
    exact (Except.ok.inj hread).symm
  have hsome {file : ℕ} (hactive : w.disk.active = some file) :
      readJournal format (some (w.disk.contents file)) = .ok rows := by
    rw [Disk.activeContents, hactive] at hread
    exact hread
  have hwhole (hrows : ActiveRows format w.disk (w.stage.manifest w.disk))
      (hnumbers : Numbers w.disk w.written (w.stage.manifest w.disk)) :
      NumberedFrom (w.stage.manifest w.disk).activeStartSequence rows ∧
        lastNumber w.written < (w.stage.manifest w.disk).activeStartSequence + rows.length := by
    cases hactive : w.disk.active with
    | none => exact absurd (hnone hactive) hne
    | some file =>
      obtain ⟨found, hholds, hfound, hlength⟩ := hrows.1 file hactive
      have heq : found = rows := Except.ok.inj (hholds.read.symm.trans (hsome hactive))
      have hnext := hnumbers.next
      subst heq
      exact ⟨hfound, by omega⟩
  cases hstage : w.stage with
  | renamed journal =>
    have hrows := hlaid.rows
    rw [hstage] at hrows
    exact absurd (hnone hrows.1) hne
  | writing journal row rest =>
    have hrows := hlaid.rows
    have hopened := hlaid.opened
    have hnumbers := hok.numbers (by rw [hstage]; exact fun _ h => by cases h)
    rw [hstage] at hrows hopened hok hnumbers
    obtain ⟨-, hrest, whole, part, hcontents, ⟨found, hholds, hfound, hlength⟩, hpart⟩ := hrows
    obtain ⟨-, -, hrow, hsmall⟩ := hok
    have hnext := hnumbers.next
    have hread' := hsome (hopened _ rfl)
    rw [hcontents] at hread'
    change NumberedFrom journal.manifest.activeStartSequence rows ∧
      lastNumber w.written < journal.manifest.activeStartSequence + rows.length
    change journal.manifest.nextSequence = lastNumber w.written + 1 at hnext
    rcases hholds.read_part hpart hrest (by omega) with ⟨error, herror⟩ | hsame | hmore
    · cases herror.symm.trans hread'
    · have heq : found = rows := Except.ok.inj (hsame.symm.trans hread')
      subst heq
      exact ⟨hfound, by omega⟩
    · have heq : found ++ [row] = rows := Except.ok.inj (hmore.symm.trans hread')
      subst heq
      refine ⟨hfound.concat (hrow.trans hlength.symm), ?_⟩
      rw [List.length_append]
      omega
  | launched | ended | loaded | scanned | opened | ready | created | written =>
    have hrows := hlaid.rows
    have hnumbers := hok.numbers (by rw [hstage]; exact fun _ h => by cases h)
    rw [hstage] at hrows hnumbers hwhole
    exact hwhole hrows.2 hnumbers

end Known

section Segments

variable {segments : List SegmentMeta} {stop : ℕ} {after : Option ℕ}

theorem Consecutive.start_le (h : Consecutive segments stop) {segment : SegmentMeta}
    (hsegment : segment ∈ segments) : nextStart segments stop ≤ segment.firstSequence := by
  induction segments with
  | nil => exact absurd hsegment List.not_mem_nil
  | cons head segments ih =>
    obtain ⟨hhead, hstart, htail⟩ := h
    rcases List.mem_cons.mp hsegment with rfl | hsegment
    · exact Nat.le_refl _
    · have hle := ih htail hsegment
      change head.firstSequence ≤ segment.firstSequence
      omega

theorem Consecutive.filter (h : Consecutive segments stop) (after : Option ℕ) :
    Consecutive (segments.filter fun segment =>
      !after.any fun cursor => segment.lastSequence ≤ cursor) stop := by
  induction segments with
  | nil => trivial
  | cons head segments ih =>
    have hall := h
    obtain ⟨hhead, hstart, htail⟩ := h
    by_cases hkeep : (!after.any fun cursor => head.lastSequence ≤ cursor) = true
    · -- the segments that follow end later
      have hrest : segments.filter (fun segment =>
          !after.any fun cursor => segment.lastSequence ≤ cursor) = segments := by
        rw [List.filter_eq_self]
        intro segment hsegment
        have hlater : head.lastSequence < segment.lastSequence := by
          have hfirst := htail.start_le hsegment
          have hle := (htail.last_lt hsegment).1
          omega
        cases after with
        | none => rfl
        | some cursor =>
          simp only [Option.any_some, Bool.not_eq_true', decide_eq_false_iff_not] at hkeep ⊢
          omega
      rw [List.filter_cons, if_pos hkeep, hrest]
      exact hall
    · rw [List.filter_cons, if_neg hkeep]
      exact ih htail

end Segments

open JournalState (epochFormat)

namespace SnapshotSystem

/-- The rows of the active file. -/
def activeRows (format : TimeFormat) (s : SnapshotSystem) : List LogLine :=
  (readJournal format s.writer.disk.activeContents).toOption.getD []

/-- When lines have been collected, the next segment is still there, and the active file has no
row yet or is the one the manifest was written for. -/
def Fits (format : TimeFormat) (s : SnapshotSystem) : SnapshotEvent → Prop
  | .writer e => s.writer.Fits e
  | .readSegment =>
    match s.reader with
    | .reading _ _ _ (segment :: _) lines =>
      lines = [] ∨ segment.filename ∈ s.writer.disk.segments.map Prod.fst
    | _ => True
  | .readActive =>
    match s.reader with
    | .reading _ _ m [] lines =>
      lines = [] ∨ (s.activeRows format).head?.all
        (fun row => row.sequence = m.activeStartSequence) = true
    | _ => True
  | _ => True

instance (format : TimeFormat) (s : SnapshotSystem) (e : SnapshotEvent) :
    Decidable (s.Fits format e) := by
  cases e with
  | writer e => exact inferInstanceAs (Decidable (s.writer.Fits e))
  | call | readManifest => exact isTrue trivial
  | readSegment =>
    obtain ⟨writer, reader⟩ := s
    cases reader with
    | reading after attempt m rest lines =>
      cases rest with
      | nil => exact isTrue trivial
      | cons segment rest => exact inferInstanceAs (Decidable (lines = [] ∨ _ ∈ _))
    | _ => exact isTrue trivial
  | readActive =>
    obtain ⟨writer, reader⟩ := s
    cases reader with
    | reading after attempt m rest lines =>
      cases rest with
      | nil => exact inferInstanceAs (Decidable (lines = [] ∨ _ = true))
      | cons segment rest => exact isTrue trivial
    | _ => exact isTrue trivial

/-- A snapshot that has been returned has no gap. -/
def GapFree (s : SnapshotSystem) : Prop := ∀ snapshot, s.reader = .returned snapshot → snapshot.GapFree

def ReaderOk (format : TimeFormat) (s : SnapshotSystem) : ReaderPoint → Prop
  | .reading after _ m rest lines => s.writer.Known format m ∧
      Sealed format s.writer.disk rest m.activeStartSequence ∧
      (∀ segment ∈ rest, ∀ cursor ∈ after, cursor < segment.lastSequence) ∧
      Collected after lines (nextStart rest m.activeStartSequence)
  | .again _ _ m => s.writer.Known format m
  | .returned snapshot => snapshot.GapFree
  | _ => True

structure Sound (format : TimeFormat) (s : SnapshotSystem) : Prop where
  writer : s.writer.Sound format
  stored : s.writer.StoredKnown format
  reader : s.ReaderOk format s.reader

variable {format : TimeFormat} {s t : SnapshotSystem} {after : Option ℕ} {attempt : ℕ}
  {m : JournalManifest} {rest : List SegmentMeta} {lines rows : List LogLine}

theorem Sound.writerStep (h : s.Sound format) {e : WriterEvent} {writer : JournalWriter}
    (hfits : s.writer.Fits e) (hstep : s.writer.step format e = some writer) :
    Sound format { s with writer } := by
  refine ⟨h.writer.step hfits hstep, h.stored.step h.writer hfits hstep, ?_⟩
  have hreader := h.reader
  cases hpoint : s.reader with
  | reading after attempt m rest lines =>
    rw [hpoint] at hreader
    obtain ⟨hknown, hsealed, hafter, hcollected⟩ := hreader
    refine ⟨hknown.step h.writer hfits hstep, ?_, hafter, hcollected⟩
    rcases JournalWriter.step_moves hstep with ⟨step, disk, stage, rfl, hmove, rfl⟩ |
      ⟨journal, hready, rfl⟩
    · exact hsealed.moves h.writer.laid hmove fun _ => hknown.start
    · exact hsealed
  | again after attempt m =>
    rw [hpoint] at hreader
    exact JournalWriter.Known.step hreader h.writer hfits hstep
  | returned snapshot =>
    rw [hpoint] at hreader
    exact hreader
  | idle | called | unmanaged | failed => trivial

theorem ReaderOk.start (hknown : s.writer.Known format m) :
    s.ReaderOk format (.reading after attempt m (m.segmentsAfter after) []) := by
  refine ⟨hknown, ⟨hknown.sealed.consecutive.filter after, fun segment hsegment =>
    hknown.sealed.files segment (List.mem_of_mem_filter hsegment)⟩, ?_, .inl rfl⟩
  intro segment hsegment cursor hcursor
  have hlater := (List.mem_filter.mp hsegment).2
  rw [hcursor] at hlater
  simpa using hlater

theorem find_segment {disk : Disk} {filename : ℕ} {segment : ℕ × ℕ}
    (h : disk.segments.find? (fun segment => segment.1 = filename) = some segment) :
    segment ∈ disk.segments ∧ segment.1 = filename :=
  ⟨List.mem_of_find?_eq_some h, by simpa using List.find?_some h⟩

theorem ReaderOk.readSegment {segment : SegmentMeta}
    (h : s.ReaderOk format (.reading after attempt m (segment :: rest) lines))
    (hfits : lines = [] ∨ segment.filename ∈ s.writer.disk.segments.map Prod.fst)
    (hread : readJournal format (s.writer.disk.segmentContents segment.filename) = .ok rows) :
    s.ReaderOk format (.reading after attempt m rest (rows.foldl insertRow lines)) := by
  obtain ⟨hknown, hsealed, hafter, hcollected⟩ := h
  obtain ⟨hle, hnext, hconsecutive⟩ := hsealed.consecutive
  refine ⟨hknown, ⟨hconsecutive, fun other hother =>
    hsealed.files other (List.mem_cons_of_mem _ hother)⟩,
    fun other hother => hafter other (List.mem_cons_of_mem _ hother), ?_⟩
  have hcursor : ∀ cursor ∈ after, cursor + 1 < nextStart rest m.activeStartSequence := by
    intro cursor hcursor
    have hlast := hafter segment List.mem_cons_self cursor hcursor
    omega
  cases hfind : s.writer.disk.segments.find? fun other => other.1 = segment.filename with
  | none =>
    -- the file is gone, and nothing has been collected
    have hmissing : segment.filename ∉ s.writer.disk.segments.map Prod.fst := by
      intro hin
      obtain ⟨other, hother, heq⟩ := List.mem_map.mp hin
      exact absurd (decide_eq_true heq) (List.find?_eq_none.mp hfind other hother)
    have hrows : rows = [] := by
      rw [Disk.segmentContents, hfind] at hread
      exact (Except.ok.inj hread).symm
    rw [hrows, hfits.resolve_right hmissing]
    exact .inl rfl
  | some found =>
    obtain ⟨hin, hname⟩ := find_segment hfind
    obtain ⟨held, hholds, hnumbered, hlength⟩ :=
      (hsealed.files segment List.mem_cons_self).2 found.2 (hname ▸ hin)
    have heq : held = rows := by
      rw [Disk.segmentContents, hfind] at hread
      exact Except.ok.inj (hholds.read.symm.trans hread)
    subst heq
    right
    refine ⟨?_, hcursor⟩
    rcases hcollected with rfl | ⟨⟨first, hlines, hend⟩, -⟩
    · have hall : held.foldl insertRow [] = held :=
        @foldl_insertRow [] _ segment.firstSequence rfl hnumbered
      rw [hall]
      exact ⟨segment.firstSequence, hnumbered, hlength.trans hnext⟩
    · have hstart : first + lines.length = segment.firstSequence := hend
      rw [← hstart] at hnumbered hlength
      refine ⟨first, ?_, ?_⟩
      · rw [foldl_insertRow hlines hnumbered]
        exact NumberedFrom.append_iff.mpr ⟨hlines, hnumbered⟩
      · rw [foldl_insertRow hlines hnumbered, List.length_append]
        omega

/-- The lines that an attempt has at its end, and the watermark that it reports for them. -/
theorem numbered_active (hwriter : s.writer.Sound format) (hknown : s.writer.Known format m)
    (hcollected : Collected after lines m.activeStartSequence)
    (hread : readJournal format s.writer.disk.activeContents = .ok rows)
    (hfits : lines = [] ∨ rows.head?.all (fun row => row.sequence = m.activeStartSequence) = true) :
    ∃ first, NumberedFrom first (rows.foldl insertRow lines) ∧
      (rows.foldl insertRow lines ≠ [] →
        m.observedHighWatermark after (rows.foldl insertRow lines) + 1 =
          first + (rows.foldl insertRow lines).length) := by
  -- what has been read reaches at least as far as the part of the watermark that is carried over
  have hwatermark {first : ℕ} {found : List LogLine} (hfound : NumberedFrom first found)
      (hne : found ≠ []) (hlow : min m.highWatermark (after.getD 0) < first + found.length) :
      m.observedHighWatermark after found + 1 = first + found.length := by
    have hlast := NumberedFrom.lastNumber hfound hne
    unfold JournalManifest.observedHighWatermark
    omega
  have hhigh := hknown.high
  by_cases hrows : rows = []
  · rw [hrows, List.foldl_nil]
    rcases hcollected with rfl | ⟨⟨first, hlines, hend⟩, hafter⟩
    · exact ⟨0, rfl, fun h => absurd rfl h⟩
    · refine ⟨first, hlines, fun hne => hwatermark hlines hne ?_⟩
      have hcursor : after.getD 0 < m.activeStartSequence ∨ lines.length = 0 := by
        cases after with
        | none =>
          change 0 < m.activeStartSequence ∨ _
          omega
        | some cursor =>
          have hlt := hafter cursor rfl
          change cursor < m.activeStartSequence ∨ _
          omega
      have hpos := List.length_pos_of_ne_nil hne
      omega
  · obtain ⟨hnumbered, hreach⟩ := hwriter.readActive hread hrows
    by_cases hlines : lines = []
    · have hall : rows.foldl insertRow lines = rows := by
        rw [hlines]
        exact @foldl_insertRow [] _ _ rfl hnumbered
      rw [hall]
      exact ⟨_, hnumbered, fun hne => hwatermark hnumbered hne (by omega)⟩
    · obtain ⟨⟨first, hfirst, hend⟩, -⟩ := hcollected.resolve_left hlines
      -- the active file is the one that the manifest was written for
      have hstart : (s.writer.stage.manifest s.writer.disk).activeStartSequence =
          m.activeStartSequence := by
        have hhead := hnumbered.head hrows
        have hsame := hfits.resolve_left hlines
        cases hrow : rows.head? with
        | none => exact absurd (List.head?_eq_none_iff.mp hrow) hrows
        | some row =>
          rw [hrow] at hhead hsame
          have hsequence : row.sequence = m.activeStartSequence := by simpa using hsame
          exact (Option.some.inj hhead).symm.trans hsequence
      rw [hstart, ← hend] at hnumbered
      rw [hstart, ← hend] at hreach
      have hall : rows.foldl insertRow lines = lines ++ rows := foldl_insertRow hfirst hnumbered
      rw [hall]
      have hjoined : NumberedFrom first (lines ++ rows) :=
        NumberedFrom.append_iff.mpr ⟨hfirst, hnumbered⟩
      refine ⟨first, hjoined, fun hne => hwatermark hjoined hne ?_⟩
      rw [List.length_append]
      omega

theorem ReaderOk.finishAttempt (hwriter : s.writer.Sound format) (hknown : s.writer.Known format m)
    (hcollected : Collected after lines m.activeStartSequence)
    (hread : readJournal format s.writer.disk.activeContents = .ok rows)
    (hfits : lines = [] ∨ rows.head?.all (fun row => row.sequence = m.activeStartSequence) = true) :
    s.ReaderOk format
      (SnapshotSystem.finishAttempt after attempt m (rows.foldl insertRow lines)) := by
  simp only [SnapshotSystem.finishAttempt]
  split
  · obtain ⟨first, hnumbered, hhigh⟩ := numbered_active hwriter hknown hcollected hread hfits
    exact DetachedSnapshot.gapFree_of_numbered hnumbered hhigh
  · exact hknown

/-- Each step of the writer or of the reader. -/
theorem Sound.step (h : s.Sound format) {e : SnapshotEvent} (hfits : s.Fits format e)
    (hstep : s.step format e = some t) : t.Sound format := by
  have hkeep {point : ReaderPoint} (hpoint : s.ReaderOk format point) :
      Sound format { s with reader := point } := ⟨h.writer, h.stored, hpoint⟩
  have hreader := h.reader
  cases e with
  | writer e =>
    obtain ⟨writer, hwriter, rfl⟩ := Option.map_eq_some_iff.mp hstep
    exact h.writerStep hfits hwriter
  | call after =>
    simp only [SnapshotSystem.step] at hstep
    split at hstep
    · exact Option.some.inj hstep ▸ hkeep trivial
    · exact Option.some.inj hstep ▸ hkeep trivial
    · exact Option.some.inj hstep ▸ hkeep trivial
    · cases hstep
  | readManifest =>
    simp only [SnapshotSystem.step] at hstep
    split at hstep
    · rename_i after hpoint
      cases hmanifest : s.writer.disk.manifest with
      | none =>
        rw [hmanifest] at hstep
        exact Option.some.inj hstep ▸ hkeep trivial
      | some m =>
        rw [hmanifest] at hstep
        exact Option.some.inj hstep ▸ hkeep (ReaderOk.start (h.stored m hmanifest))
    · rename_i after attempt m hpoint
      rw [hpoint] at hreader
      have hknown : s.writer.Known format (s.writer.disk.manifest.getD m) := by
        cases hmanifest : s.writer.disk.manifest with
        | none => exact hreader
        | some found => exact h.stored found hmanifest
      exact Option.some.inj hstep ▸ hkeep (ReaderOk.start hknown)
    · cases hstep
  | readSegment =>
    simp only [SnapshotSystem.step] at hstep
    split at hstep
    · rename_i after attempt m segment rest lines hpoint
      simp only [Fits, hpoint] at hfits
      rw [hpoint] at hreader
      split at hstep
      · exact Option.some.inj hstep ▸ hkeep trivial
      · exact Option.some.inj hstep ▸ hkeep (hreader.readSegment hfits ‹_›)
    · cases hstep
  | readActive =>
    simp only [SnapshotSystem.step] at hstep
    split at hstep
    · split at hstep
      · exact Option.some.inj hstep ▸ hkeep trivial
      · rename_i rows hread
        refine Option.some.inj hstep ▸ hkeep ?_
        by_cases hrows : rows = []
        · exact @DetachedSnapshot.gapFree_of_numbered _ 0 (hrows ▸ rfl) fun hne => absurd hrows hne
        · obtain ⟨hnumbered, -⟩ := h.writer.readActive hread hrows
          exact DetachedSnapshot.gapFree_of_numbered hnumbered (NumberedFrom.foldl_max hnumbered)
    · rename_i after attempt m lines hpoint
      simp only [Fits, hpoint] at hfits
      rw [hpoint] at hreader
      obtain ⟨hknown, -, -, hcollected⟩ := hreader
      split at hstep
      · exact Option.some.inj hstep ▸ hkeep trivial
      · rename_i rows hread
        have hsame : s.activeRows format = rows := by
          rw [activeRows, hread]
          rfl
        rw [hsame] at hfits
        exact Option.some.inj hstep ▸ hkeep
          (ReaderOk.finishAttempt h.writer hknown hcollected hread hfits)
    · cases hstep

theorem sound_empty : Sound format {} :=
  ⟨JournalWriter.sound_empty, fun _ h => (by cases h), trivial⟩

/-- However the reads of a snapshot fall between the steps of the proxy: while the segments are
there and the active file is the one that the manifest was written for, it has no gap. -/
theorem run_gapFree (h : (machine format).Run (Fits format) {} t) : t.GapFree := by
  have hsound : t.Sound format :=
    h.invariant (fun _ _ _ hs hfits hstep => Sound.step hs hfits hstep) sound_empty
  intro snapshot hreturned
  have hreader := hsound.reader
  rw [hreturned] at hreader
  exact hreader

/-- A line that is written as row `n`, in two pieces. -/
def appendLine (n : ℕ) (line : String) : List SnapshotEvent :=
  [.writer (.proxy (.append 0 .stdout line)), .writer (.proxy (.write 5)),
    .writer (.proxy (.write ((persistedBytes epochFormat ⟨n, 0, .stdout, line⟩).size - 5))),
    .writer (.proxy .store)]

/-- A row is written between the manifest and the active file. -/
theorem twoRows_gapFree : ∃ t : SnapshotSystem, (∃ snapshot, t.reader = .returned snapshot ∧
    snapshot.lines.map LogLine.sequence = [1, 2] ∧ snapshot.highWatermark = 2) ∧ t.GapFree := by
  obtain ⟨t, hrun, hp⟩ := Machine.exists_run_of_execUnder (M := machine epochFormat)
    (C := Fits epochFormat) (s := {})
    (fun t => match t.reader with
      | .returned snapshot => snapshot.lines.map LogLine.sequence = [1, 2] ∧
          snapshot.highWatermark = 2
      | _ => false)
    ([.writer (.proxy .load), .writer (.proxy .scan), .writer (.proxy .openActive),
      .writer (.proxy .store)] ++ appendLine 1 "a" ++ [.call none, .readManifest] ++
      appendLine 2 "b" ++ [.readActive]) (by decide +kernel)
  refine ⟨t, ?_, run_gapFree hrun⟩
  cases hreader : t.reader with
  | returned snapshot =>
    rw [hreader] at hp
    exact ⟨snapshot, rfl, of_decide_eq_true hp⟩
  | _ =>
    rw [hreader] at hp
    cases hp

theorem exists_proxy {u : SnapshotSystem} {e : ProxyStep} {disk : Disk} {stage : Stage}
    (h : (machine format).Run (Fits format) s u) (hfits : u.writer.Fits (.proxy e))
    (hstep : u.writer.stage.step format u.writer.disk e = some (disk, stage)) :
    ∃ t, (machine format).Run (Fits format) s t ∧ t.reader = u.reader ∧ t.writer.disk = disk ∧
      t.writer.stage = stage := by
  refine ⟨{ u with writer := ⟨disk, stage, u.writer.written ++
    (u.writer.stage.completed stage).toList⟩ }, ?_, rfl, rfl, rfl⟩
  have hwriter : step format u (.writer (.proxy e)) = some { u with writer := ⟨disk, stage,
      u.writer.written ++ (u.writer.stage.completed stage).toList⟩ } := by
    simp only [step, JournalWriter.step, hstep, Option.map_some]
  exact .tail (.writer (.proxy e)) h hfits hwriter

/-- A line that fills a file. -/
def fullLine : String := String.ofList (List.replicate maxSegmentBytes 'x')

theorem length_le_size_utf8Encode (text : List Char) : text.length ≤ text.utf8Encode.size := by
  induction text with
  | nil => exact Nat.zero_le _
  | cons c text ih =>
    have hne : [c].utf8Encode.size ≠ 0 := by
      intro h
      exact absurd (List.utf8Encode_eq_empty.mp (ByteArray.size_eq_zero_iff.mp h))
        (List.cons_ne_nil _ _)
    have hsplit : (c :: text).utf8Encode = [c].utf8Encode ++ text.utf8Encode :=
      List.utf8Encode_append (l := [c])
    rw [hsplit, ByteArray.size_append, List.length_cons]
    omega

theorem length_le_flatMap_escapeChar (text : List Char) :
    text.length ≤ (text.flatMap JsonText.escapeChar).length := by
  induction text with
  | nil => exact Nat.zero_le _
  | cons c text ih =>
    have hc : 0 < (JsonText.escapeChar c).length := by
      unfold JsonText.escapeChar
      repeat' split
      all_goals exact Nat.succ_pos _
    rw [List.flatMap_cons, List.length_append, List.length_cons]
    omega

theorem length_le_persistedBytes (row : LogLine) :
    row.line.toList.length ≤ (persistedBytes format row).size := by
  have hescaped := length_le_flatMap_escapeChar row.line.toList
  have hrow : (row.line.toList.flatMap JsonText.escapeChar).length ≤
      (persisted format row).length := by
    simp only [persisted, encodeRow, rowMembers, JsonText.printObject, JsonText.printMembers,
      JsonText.printMember, JsonText.Scalar.print, JsonText.printString, List.length_append,
      List.length_cons]
    omega
  rw [persistedBytes_eq]
  exact hescaped.trans (hrow.trans (length_le_size_utf8Encode _))

/-- A line that fills the active file. -/
theorem exists_append {file : OpenFile} {next high start : ℕ} {segments : List SegmentMeta}
    (h : (machine format).Run (Fits format) s t)
    (hready : t.writer.stage = .ready ⟨file, ⟨next, high, start, 0, segments⟩⟩)
    (hnext : next < 2^64 - 1) :
    ∃ u file len, (machine format).Run (Fits format) s u ∧ u.reader = t.reader ∧
      u.writer.disk.segments = t.writer.disk.segments ∧ maxSegmentBytes ≤ len ∧
      u.writer.stage = .ready ⟨file, ⟨next + 1, next, start, len, segments⟩⟩ := by
  generalize hrow : (⟨next, 0, .stdout, fullLine⟩ : LogLine) = row
  have hmay : t.writer.Fits (.proxy (.append 0 .stdout fullLine)) := by
    change t.writer.stage.mayAppend = true
    rw [hready]
    exact decide_eq_true hnext
  have happend : t.writer.stage.step format t.writer.disk (.append 0 .stdout fullLine) =
      some (t.writer.disk, .writing ⟨file, ⟨next, high, start, 0, segments⟩⟩ row
        (persistedBytes format row)) := by
    rw [hready, ← hrow]
    rfl
  obtain ⟨started, hstarted, hreader, hdisk, hstage⟩ := exists_proxy h hmay happend
  have hsize : maxSegmentBytes ≤ (persistedBytes format row).size := by
    have hle := @length_le_persistedBytes format row
    rwa [← hrow, fullLine, String.toList_ofList, List.length_replicate, ← fullLine, hrow] at hle
  generalize hbytes : persistedBytes format row = bytes at hstage hsize
  have hpos : 0 < bytes.size := lt_of_lt_of_le (by decide) hsize
  generalize hlen : satAddU64 0 bytes.size = len
  have hmanifest : JournalManifest.appended ⟨next, high, start, 0, segments⟩ bytes.size =
      ⟨next + 1, next, start, len, segments⟩ := by
    have hsucc : satAddU64 next 1 = next + 1 := Nat.min_eq_left hnext
    rw [JournalManifest.appended, hsucc, hlen]
  have hwrite : started.writer.stage.step format started.writer.disk (.write bytes.size) =
      some ((t.writer.disk.write file bytes).1,
        .written ⟨(t.writer.disk.write file bytes).2, ⟨next + 1, next, start, len, segments⟩⟩) := by
    have hrest : (bytes.extract bytes.size bytes.size).size = 0 := by
      rw [ByteArray.size_extract, Nat.min_self, Nat.sub_self]
    rw [hstage, hdisk]
    simp only [Stage.step, hpos, Nat.le_refl, and_self, ite_true, hrest, hbytes,
      ByteArray.extract_zero_size, hmanifest]
  obtain ⟨written, hwritten, hreader', hdisk', hstage'⟩ :=
    exists_proxy (e := .write bytes.size) hstarted trivial hwrite
  have hstore : written.writer.stage.step format written.writer.disk .store =
      some ({ written.writer.disk with manifest := some ⟨next + 1, next, start, len, segments⟩ },
        .ready ⟨(t.writer.disk.write file bytes).2,
          ⟨next + 1, next, start, len, segments⟩⟩) := by
    rw [hstage']
    rfl
  obtain ⟨u, hu, hkept, hfiles, hready⟩ := exists_proxy (e := .store) hwritten trivial hstore
  refine ⟨u, _, len, hu, hkept.trans (hreader'.trans hreader), ?_, ?_, hready⟩
  · rw [hfiles, hdisk']
    exact write_segments
  · rw [← hlen, satAddU64]
    unfold maxSegmentBytes at hsize ⊢
    omega

/-- The rollover of a full file. -/
theorem exists_rollOver {file : OpenFile} {next high start len : ℕ} {segments : List SegmentMeta}
    (hs : s.Sound format) (h : (machine format).Run (Fits format) s t)
    (hready : t.writer.stage = .ready ⟨file, ⟨next, high, start, len, segments⟩⟩)
    (hlen : maxSegmentBytes ≤ len) (hfew : segments.length < maxSealedSegments) :
    ∃ u created, (machine format).Run (Fits format) s u ∧ u.reader = t.reader ∧
      u.writer.disk.segments = t.writer.disk.segments ++ [(start, file.file)] ∧
      u.writer.stage = .ready ⟨created,
        ⟨next, high, next, 0, segments ++ [⟨start, start, high, len⟩]⟩⟩ := by
  have hsound : t.Sound format := h.invariant (fun _ _ _ hs hfits hstep => hs.step hfits hstep) hs
  have hok := hsound.writer.ok
  rw [hready] at hok
  have hactive : t.writer.disk.active = some file.file :=
    hsound.writer.laid.opened _ (by rw [hready]; rfl)
  have hnew : t.writer.disk.withoutSegment start = t.writer.disk.segments := by
    unfold Disk.withoutSegment
    rw [List.filter_eq_self]
    intro segment hsegment
    have hlt : segment.1 < start := hok.2.1.names segment hsegment
    simp only [ne_eq, decide_eq_true_eq]
    omega
  have hfull : (ProxyJournal.mk file ⟨next, high, start, len, segments⟩).mustRollOver = true := by
    have hpos : len ≠ 0 := (lt_of_lt_of_le (by decide) hlen).ne'
    have hless : ¬len < maxSegmentBytes := Nat.not_lt.mpr hlen
    simp [ProxyJournal.mustRollOver, hpos, hless]
  have hrename : t.writer.stage.step format t.writer.disk .rename =
      some ({ t.writer.disk with
        active := none
        segments := t.writer.disk.segments ++ [(start, file.file)] },
        .renamed ⟨file, ⟨next, high, start, len, segments ++ [⟨start, start, high, len⟩]⟩⟩) := by
    rw [hready]
    simp only [Stage.step, hfull, ite_true, hactive, Option.map_some, hnew]
    rfl
  obtain ⟨renamed, hrenamed, hreader, hdisk, hstage⟩ :=
    exists_proxy (e := .rename) h trivial hrename
  have hcreate : renamed.writer.stage.step format renamed.writer.disk .create =
      some (renamed.writer.disk.openTruncated.1, .created ⟨renamed.writer.disk.openTruncated.2,
        ⟨next, high, next, 0, segments ++ [⟨start, start, high, len⟩]⟩⟩) := by
    have hlength : (segments ++ [(⟨start, start, high, len⟩ : SegmentMeta)]).length ≤
        maxSealedSegments := by
      rw [List.length_append]
      exact hfew
    rw [hstage]
    simp only [Stage.step, hlength, ite_true]
    rfl
  obtain ⟨created, hcreated, hreader', hdisk', hstage'⟩ :=
    exists_proxy (e := .create) hrenamed trivial hcreate
  have hstore : created.writer.stage.step format created.writer.disk .store =
      some ({ created.writer.disk with
        manifest := some ⟨next, high, next, 0, segments ++ [⟨start, start, high, len⟩]⟩ },
        .ready ⟨renamed.writer.disk.openTruncated.2,
          ⟨next, high, next, 0, segments ++ [⟨start, start, high, len⟩]⟩⟩) := by
    rw [hstage']
    rfl
  obtain ⟨u, hu, hkept, hfiles, hready⟩ := exists_proxy (e := .store) hcreated trivial hstore
  refine ⟨u, _, hu, hkept.trans (hreader'.trans hreader), ?_, hready⟩
  rw [hfiles, hdisk', hdisk]
  rfl

/-- A proxy has opened the journal of an empty directory. -/
theorem exists_opened : ∃ t, (machine format).Run (Fits format) {} t ∧ t.reader = .idle ∧
    t.writer.disk.segments = [] ∧ t.writer.stage = .ready ⟨⟨0, none⟩, {}⟩ := by
  obtain ⟨loaded, hloaded, hreader, hdisk, hstage⟩ :=
    @exists_proxy format ({}) ({}) .load _ _ .refl trivial rfl
  have hscan : loaded.writer.stage.step format loaded.writer.disk .scan =
      some ({}, .scanned {}) := by
    rw [hstage, hdisk]
    rfl
  obtain ⟨scanned, hscanned, hreader', hdisk', hstage'⟩ :=
    exists_proxy (e := .scan) hloaded trivial hscan
  have hopen : scanned.writer.stage.step format scanned.writer.disk .openActive =
      some (Disk.createActive {}, .opened ⟨⟨0, none⟩, {}⟩) := by
    rw [hstage', hdisk']
    rfl
  obtain ⟨opened, hopened, hreader'', hdisk'', hstage''⟩ :=
    exists_proxy (e := .openActive) hscanned trivial hopen
  have hstore : opened.writer.stage.step format opened.writer.disk .store =
      some ({ Disk.createActive {} with manifest := some {} }, .ready ⟨⟨0, none⟩, {}⟩) := by
    rw [hstage'', hdisk'']
    rfl
  obtain ⟨t, ht, hidle, hfiles, hready⟩ :=
    exists_proxy (e := .store) hopened trivial hstore
  refine ⟨t, ht, hidle.trans (hreader''.trans (hreader'.trans hreader)), ?_, hready⟩
  rw [hfiles]
  rfl

theorem FileRows.one {contents : ByteArray} {number : ℕ}
    (h : FileRows format contents number (number + 1)) :
    ∃ row, readJournal format (some contents) = .ok [row] ∧ row.sequence = number := by
  obtain ⟨rows, hholds, hnumbered, hlength⟩ := h
  obtain ⟨row, rfl⟩ := List.length_eq_one_iff.mp (Nat.add_left_cancel hlength)
  exact ⟨row, hholds.read, (NumberedFrom.cons_iff.mp hnumbered).1⟩

/-- The manifest is read before a rollover, and the files after it: the row that has been sealed in
between is in neither of them. -/
theorem rollOver_hidesRow : ∃ t, (machine epochFormat).Reaches {} t ∧
    (∃ snapshot, t.reader = .returned snapshot ∧ snapshot.highWatermark = 3 ∧
      snapshot.lines.map LogLine.sequence = [1, 3]) ∧ ¬t.GapFree := by
  obtain ⟨opened, hopened, hidle, hnone, hready⟩ := @exists_opened epochFormat
  -- the first two files are filled by one line each
  obtain ⟨first, file, len, hfirst, hreader, hsegments, hlen, hready⟩ :=
    exists_append hopened hready (by decide)
  obtain ⟨second, file₂, hsecond, hreader', hsegments', hready⟩ :=
    exists_rollOver sound_empty hfirst hready hlen (by decide)
  obtain ⟨full, file₂, len₂, hfull, hreader'', hsegments'', hlen₂, hready⟩ :=
    exists_append hsecond hready (by decide)
  replace hidle : full.reader = .idle := hreader''.trans (hreader'.trans (hreader.trans hidle))
  replace hsegments : full.writer.disk.segments = [(1, file.file)] := by
    rw [hsegments'', hsegments', hsegments, hnone]
    rfl
  -- the reader takes the manifest with one segment
  have hcall : step epochFormat full (.call none) =
      some ⟨full.writer, .called none⟩ := by
    simp only [step, hidle]
  have hcalled : (machine epochFormat).Run (Fits epochFormat) {}
      ⟨full.writer, .called none⟩ := .tail (.call none) hfull trivial hcall
  have hmanifest : full.writer.disk.manifest = some ⟨3, 2, 2, len₂, [⟨1, 1, 1, len⟩]⟩ := by
    have hsound : full.Sound epochFormat :=
      hfull.invariant (fun _ _ _ hs hfits hstep => hs.step hfits hstep) sound_empty
    have hok := hsound.writer.ok
    rw [hready] at hok
    exact hok.1
  have hreadManifest : step epochFormat ⟨full.writer, .called none⟩ .readManifest =
      some ⟨full.writer,
        .reading none 0 ⟨3, 2, 2, len₂, [⟨1, 1, 1, len⟩]⟩ [⟨1, 1, 1, len⟩] []⟩ := by
    simp only [step, hmanifest]
    rfl
  have hreading := Machine.Run.tail (C := Fits epochFormat) .readManifest hcalled trivial
    hreadManifest
  have hfew : [(⟨1, 1, 1, len⟩ : SegmentMeta)].length < maxSealedSegments := of_decide_eq_true rfl
  -- row 2 is sealed, and row 3 goes to the new file
  obtain ⟨sealed, file₃, hsealed, hreader, hsegments', hready⟩ :=
    exists_rollOver sound_empty hreading hready hlen₂ hfew
  obtain ⟨last, file₃, len₃, hlast, hreader', hsegments'', -, hready⟩ :=
    exists_append hsealed hready (by decide)
  replace hreader := hreader'.trans hreader
  replace hsegments : last.writer.disk.segments = [(1, file.file), (2, file₂.file)] := by
    rw [hsegments'', hsegments']
    change full.writer.disk.segments ++ _ = _
    rw [hsegments]
    rfl
  have hsound : last.Sound epochFormat :=
    hlast.invariant (fun _ _ _ hs hfits hstep => hs.step hfits hstep) sound_empty
  -- the segment of the manifest has row 1
  have hpoint := hsound.reader
  rw [hreader] at hpoint
  obtain ⟨one, hone, hnumber⟩ := FileRows.one
    ((hpoint.2.1.files _ (List.mem_singleton_self _)).2 file.file (hsegments ▸ List.mem_cons_self))
  replace hnumber : one.sequence = 1 := hnumber
  have hsegment : last.writer.disk.segmentContents 1 =
      some (last.writer.disk.contents file.file) := by
    unfold Disk.segmentContents
    rw [hsegments]
    rfl
  have hreadSegment : step epochFormat last .readSegment =
      some ⟨last.writer, .reading none 0 ⟨3, 2, 2, len₂, [⟨1, 1, 1, len⟩]⟩ [] [one]⟩ := by
    simp only [step, hreader, hsegment, hone]
    rfl
  -- the active file has row 3
  have hactive : last.writer.disk.active = some file₃.file :=
    hsound.writer.laid.opened _ (by rw [hready]; rfl)
  have hrows := hsound.writer.laid.rows
  rw [hready] at hrows
  obtain ⟨three, hthree, hnumber'⟩ := FileRows.one (hrows.2.1 file₃.file hactive)
  have hreadActive : step epochFormat ⟨last.writer,
      .reading none 0 ⟨3, 2, 2, len₂, [⟨1, 1, 1, len⟩]⟩ [] [one]⟩ .readActive =
      some ⟨last.writer, .returned ⟨[one, three], 3, some 1⟩⟩ := by
    have hcontents : last.writer.disk.activeContents =
        some (last.writer.disk.contents file₃.file) := by
      rw [Disk.activeContents, hactive]
      rfl
    have hlines : [three].foldl insertRow [one] = [one, three] := by
      apply insertRow_end
      intro line hline
      rw [List.mem_singleton.mp hline, hnumber, hnumber']
      exact (by decide : 1 < 3)
    have hhigh : JournalManifest.observedHighWatermark ⟨3, 2, 2, len₂, [⟨1, 1, 1, len⟩]⟩ none
        [one, three] = 3 := by
      change max three.sequence (min 2 0) = 3
      rw [hnumber']
      rfl
    simp only [step, hcontents, hthree, hlines, finishAttempt, hhigh]
    rfl
  have hend : (machine epochFormat).Reaches {} ⟨last.writer,
      .returned ⟨[one, three], 3, some 1⟩⟩ :=
    .tail .readActive (.tail .readSegment hlast.reaches trivial hreadSegment) trivial hreadActive
  have hnumbers : [one, three].map LogLine.sequence = [1, 3] := by
    rw [List.map_cons, List.map_singleton, hnumber, hnumber']
    rfl
  refine ⟨_, hend, ⟨_, rfl, rfl, hnumbers⟩, fun h => ?_⟩
  have hall := (h _ rfl).contiguous one rfl
  change [one, three].map LogLine.sequence = List.range' one.sequence (3 + 1 - one.sequence) at hall
  rw [hnumbers, hnumber] at hall
  exact absurd hall (by decide)

end SnapshotSystem

end LogProxy

end Supervisor
