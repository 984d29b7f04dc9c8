import Supervisor.JournalRun
import Supervisor.LogProxy

namespace Supervisor

namespace LogProxy

section Files

variable {disk : Disk} {contents bytes : ByteArray} {handle : OpenFile}

theorem writeAt_end : Disk.writeAt contents contents.size bytes = contents ++ bytes := by
  unfold Disk.writeAt
  have hzero : (⟨Array.replicate (contents.size - contents.size) 0⟩ : ByteArray) = .empty := by
    rw [Nat.sub_self]
    rfl
  have hrest : contents.extract (contents.size + bytes.size) contents.size = .empty := by
    rw [ByteArray.extract_eq_empty_iff, Nat.min_self]
    exact Nat.le_add_right _ _
  rw [ByteArray.extract_zero_size, hzero, hrest, ByteArray.append_empty, ByteArray.append_empty]

@[simp] theorem contents_setContents_self {file : ℕ} (hfile : file < disk.files.length) :
    (disk.setContents file contents).contents file = contents := by
  unfold Disk.contents Disk.setContents
  rw [List.getD_eq_getElem?_getD, List.getElem?_set_self hfile]
  rfl

theorem contents_setContents_of_ne {file other : ℕ} (h : file ≠ other) :
    (disk.setContents file contents).contents other = disk.contents other := by
  unfold Disk.contents Disk.setContents
  rw [List.getD_eq_getElem?_getD, List.getElem?_set_ne h, ← List.getD_eq_getElem?_getD]

/-- The next write of an open file goes to its end. -/
structure AtEnd (disk : Disk) (handle : OpenFile) : Prop where
  exists_ : handle.file < disk.files.length
  position : ∀ position, handle.position = some position →
    position = (disk.contents handle.file).size

theorem AtEnd.write_contents (h : AtEnd disk handle) :
    (disk.write handle bytes).1 =
      disk.setContents handle.file (disk.contents handle.file ++ bytes) := by
  unfold Disk.write
  cases hposition : handle.position with
  | none => rfl
  | some position =>
    rw [h.position position hposition]
    simp only [writeAt_end]

theorem write_file : (disk.write handle bytes).2.file = handle.file := by
  unfold Disk.write
  cases handle.position <;> rfl

theorem AtEnd.write (h : AtEnd disk handle) :
    AtEnd (disk.write handle bytes).1 (disk.write handle bytes).2 := by
  refine ⟨?_, fun position hposition => ?_⟩
  · rw [h.write_contents, write_file]
    change handle.file < (disk.files.set _ _).length
    rw [List.length_set]
    exact h.exists_
  · rw [h.write_contents, write_file, contents_setContents_self h.exists_, ByteArray.size_append]
    unfold Disk.write at hposition
    cases hold : handle.position with
    | none => simp [hold] at hposition
    | some old =>
      simp only [hold, Option.some.injEq] at hposition
      rw [← hposition, h.position old hold]

theorem AtEnd.overwrites (h : AtEnd disk handle) :
    (handle.position.any fun position => position < (disk.contents handle.file).size) = false := by
  cases hposition : handle.position with
  | none => rfl
  | some position =>
    have hend := h.position position hposition
    simp [hend]

end Files

variable {format : TimeFormat}

/-- What one step of a proxy can do. -/
inductive Moves (format : TimeFormat) (disk : Disk) : Stage → ProxyStep → Disk → Stage → Prop
  | load : Moves format disk .launched .load disk (.loaded (disk.manifest.getD {}))
  | scan (m : JournalManifest) : Moves format disk (.loaded m) .scan disk
      (.scanned { recover m disk.activeContents with activeByteLen := disk.activeLen })
  | openActive (m : JournalManifest) : Moves format disk (.scanned m) .openActive
      disk.openAppend.1 (.opened ⟨disk.openAppend.2, m⟩)
  | storeOpened (journal : ProxyJournal) : Moves format disk (.opened journal) .store
      { disk with manifest := some journal.manifest } (.ready journal)
  | storeCreated (journal : ProxyJournal) : Moves format disk (.created journal) .store
      { disk with manifest := some journal.manifest } (.ready journal)
  | storeWritten (journal : ProxyJournal) : Moves format disk (.written journal) .store
      { disk with manifest := some journal.manifest } (.ready journal)
  | rename {journal : ProxyJournal} {file : ℕ} (hfull : journal.mustRollOver = true)
      (hactive : disk.active = some file) : Moves format disk (.ready journal) .rename
      { disk with
        active := none
        segments := disk.withoutSegment journal.manifest.activeStartSequence ++
          [(journal.manifest.activeStartSequence, file)] }
      (.renamed { journal with manifest := journal.manifest.sealActive })
  | trim {journal : ProxyJournal} {removed : SegmentMeta} {rest : List SegmentMeta}
      (hsegments : journal.manifest.sealedSegments = removed :: rest)
      (hmany : maxSealedSegments < rest.length + 1) : Moves format disk (.renamed journal) .trim
      { disk with segments := disk.withoutSegment removed.filename }
      (.renamed { journal with manifest := { journal.manifest with sealedSegments := rest } })
  | create {journal : ProxyJournal}
      (hfew : journal.manifest.sealedSegments.length ≤ maxSealedSegments) :
      Moves format disk (.renamed journal) .create disk.openTruncated.1
      (.created ⟨disk.openTruncated.2, journal.manifest.startActive⟩)
  | append {journal : ProxyJournal} (timestamp : Instant) (stream : LogStream) (line : String)
      (hroom : journal.mustRollOver = false) :
      Moves format disk (.ready journal) (.append timestamp stream line) disk
      (.writing journal ⟨journal.manifest.nextSequence, timestamp, stream, line⟩
        (persistedBytes format ⟨journal.manifest.nextSequence, timestamp, stream, line⟩))
  | write {journal : ProxyJournal} {row : LogLine} {rest : ByteArray} {count : ℕ}
      (hpos : 0 < count) (hcount : count < rest.size) :
      Moves format disk (.writing journal row rest) (.write count)
      (disk.write journal.file (rest.extract 0 count)).1
      (.writing { journal with file := (disk.write journal.file (rest.extract 0 count)).2 } row
        (rest.extract count rest.size))
  | finish {journal : ProxyJournal} {row : LogLine} {rest : ByteArray} (hpos : 0 < rest.size) :
      Moves format disk (.writing journal row rest) (.write rest.size)
      (disk.write journal.file rest).1
      (.written ⟨(disk.write journal.file rest).2,
        journal.manifest.appended (persistedBytes format row).size⟩)

theorem Stage.step_moves {disk disk' : Disk} {stage stage' : Stage} {e : ProxyStep}
    (h : stage.step format disk e = some (disk', stage')) :
    Moves format disk stage e disk' stage' := by
  revert h
  fun_cases Stage.step format disk stage e
  · rintro ⟨⟩
    exact .load
  · rintro ⟨⟩
    exact .scan _
  · rename_i m opened file hopen
    rintro ⟨⟩
    have hmove := @Moves.openActive format disk m
    rwa [hopen] at hmove
  · rintro ⟨⟩
    exact .storeOpened _
  · rintro ⟨⟩
    exact .storeCreated _
  · rintro ⟨⟩
    exact .storeWritten _
  · intro h
    obtain ⟨file, hactive, hrenamed⟩ := Option.map_eq_some_iff.mp h
    cases hrenamed
    exact .rename ‹_› hactive
  · exact fun h => by cases h
  · rintro ⟨⟩
    exact .trim ‹_› ‹_›
  · exact fun h => by cases h
  · exact fun h => by cases h
  · rename_i journal hfew created file hopen
    rintro ⟨⟩
    have hmove := @Moves.create format disk _ hfew
    rwa [hopen] at hmove
  · exact fun h => by cases h
  · exact fun h => by cases h
  · rintro ⟨⟩
    exact .append _ _ _ (Bool.not_eq_true _ ▸ ‹_›)
  · rename_i journal row rest count hcount written file hwrite remaining hdone manifest
    rintro ⟨⟩
    have hall : count = rest.size := by
      have hsize : min rest.size rest.size - count = 0 := by
        rw [← ByteArray.size_extract]
        exact hdone
      omega
    subst hall
    have hmove := @Moves.finish format disk journal row _ hcount.1
    rw [ByteArray.extract_zero_size] at hwrite
    rwa [hwrite] at hmove
  · rename_i journal row rest count hcount written file hwrite remaining hmore
    rintro ⟨⟩
    have hless : count < rest.size := by
      have hsize : ¬ min rest.size rest.size - count = 0 := by
        rw [← ByteArray.size_extract]
        exact hmore
      omega
    have hmove := @Moves.write format disk journal row _ _ hcount.1 hless
    rwa [hwrite] at hmove
  · exact fun h => by cases h
  · exact fun h => by cases h

section Numbers

/-- The number of the last row. -/
def lastNumber (written : List LogLine) : ℕ := (written.getLast?.map LogLine.sequence).getD 0

/-- A manifest that goes on where the rows end. -/
structure Numbers (disk : Disk) (written : List LogLine) (m : JournalManifest) : Prop where
  next : m.nextSequence = lastNumber written + 1
  high : m.highWatermark = lastNumber written
  start : m.activeStartSequence ≤ m.nextSequence
  pos : 0 < m.activeStartSequence
  names : ∀ segment ∈ disk.segments, segment.1 < m.activeStartSequence

/-- Where the active file is not empty it holds the row with the number it starts with. -/
def Filled (disk : Disk) (written : List LogLine) (m : JournalManifest) : Prop :=
  disk.activeLen ≠ 0 → m.activeStartSequence ≤ lastNumber written

/-- What the next proxy goes by. -/
structure Stored (disk : Disk) (written : List LogLine) : Prop where
  numbers : Numbers disk written (disk.manifest.getD {})
  filled : Filled disk written (disk.manifest.getD {})

/-- What holds at each stage of the one proxy. -/
def StageOk (disk : Disk) (written : List LogLine) : Stage → Prop
  | .launched | .ended => Stored disk written
  | .loaded m => Stored disk written ∧ m = disk.manifest.getD {}
  | .scanned m => Stored disk written ∧ Numbers disk written m ∧ Filled disk written m ∧
      (m.activeByteLen ≠ 0 → m.activeStartSequence ≤ lastNumber written)
  | .opened journal => Stored disk written ∧ Numbers disk written journal.manifest ∧
      Filled disk written journal.manifest ∧ AtEnd disk journal.file ∧
      (journal.manifest.activeByteLen ≠ 0 →
        journal.manifest.activeStartSequence ≤ lastNumber written)
  | .ready journal => disk.manifest = some journal.manifest ∧
      Numbers disk written journal.manifest ∧ Filled disk written journal.manifest ∧
      AtEnd disk journal.file ∧ (journal.manifest.activeByteLen ≠ 0 →
        journal.manifest.activeStartSequence ≤ lastNumber written)
  | .renamed journal => journal.manifest.nextSequence = lastNumber written + 1 ∧
      journal.manifest.highWatermark = lastNumber written ∧ disk.active = none ∧
      (∀ segment ∈ disk.segments, segment.1 < journal.manifest.nextSequence) ∧
      journal.manifest.activeStartSequence ≤ journal.manifest.nextSequence
  | .created journal => Numbers disk written journal.manifest ∧
      Filled disk written journal.manifest ∧ AtEnd disk journal.file ∧
      journal.manifest.activeByteLen = 0
  | .writing journal row _ => Numbers disk written journal.manifest ∧ AtEnd disk journal.file ∧
      row.sequence = journal.manifest.nextSequence ∧ row.sequence < 2^64 - 1
  | .written journal => Numbers disk written journal.manifest ∧ AtEnd disk journal.file ∧
      journal.manifest.activeStartSequence ≤ lastNumber written

/-- The numbers end below the last one that a counter of 64 bits has. -/
def Stage.mayAppend : Stage → Bool
  | .ready journal => journal.manifest.nextSequence < 2^64 - 1
  | _ => true

variable {disk disk' : Disk} {written : List LogLine} {m : JournalManifest} {stage stage' : Stage}
  {e : ProxyStep}

theorem recover_of_high (h : m.highWatermark ≠ 0) (contents : Option ByteArray) :
    recover m contents = m := if_neg h

theorem recover_empty {contents : Option ByteArray}
    (h : (contents.map ByteArray.size).getD 0 = 0) : recover m contents = m := by
  unfold recover
  have hfound : sequences (((contents.bind ByteArray.utf8Decode?).map Array.toList).getD []) = [] := by
    cases contents with
    | none => rfl
    | some bytes =>
      have hempty : bytes = ByteArray.empty := ByteArray.size_eq_zero_iff.mp h
      subst hempty
      have hdecode : ByteArray.utf8Decode? .empty = some #[] := by
        rw [← List.utf8Encode_nil, List.utf8Decode?_utf8Encode]
      rw [Option.bind_some, hdecode]
      rfl
  rw [hfound]
  exact ite_self _

theorem Numbers.recover (h : Numbers disk written m) (hfilled : Filled disk written m) :
    LogProxy.recover m disk.activeContents = m := by
  by_cases hhigh : m.highWatermark = 0
  · apply recover_empty
    by_contra hsize
    have hstart := hfilled hsize
    have hlast := h.high
    have hpos := h.pos
    omega
  · exact recover_of_high hhigh _

theorem activeLen_eq {file : ℕ} (h : disk.active = some file) :
    disk.activeLen = (disk.contents file).size := by
  unfold Disk.activeLen Disk.activeContents
  rw [h]
  rfl

/-- The active name leads to a file. -/
def Disk.Valid (disk : Disk) : Prop := ∀ file, disk.active = some file → file < disk.files.length

theorem contents_createActive : disk.createActive.contents disk.files.length = ByteArray.empty := by
  unfold Disk.contents Disk.createActive
  rw [List.getD_eq_getElem?_getD, List.getElem?_concat_length]
  rfl

theorem valid_createActive : disk.createActive.Valid := by
  rintro _ ⟨⟩
  change _ < (disk.files ++ [ByteArray.empty]).length
  rw [List.length_append]
  exact Nat.lt_succ_self _

theorem activeLen_createActive : disk.createActive.activeLen = 0 := by
  rw [activeLen_eq rfl, contents_createActive]
  rfl

theorem atEnd_createActive {position : Option ℕ} (h : position = none ∨ position = some 0) :
    AtEnd disk.createActive ⟨disk.files.length, position⟩ := by
  refine ⟨valid_createActive _ rfl, fun p hp => ?_⟩
  rw [contents_createActive]
  rcases h with rfl | rfl
  · cases hp
  · exact (Option.some.inj hp).symm

/-- Opening the active file for appending keeps what there is. -/
structure Opens (disk disk' : Disk) (handle : OpenFile) : Prop where
  segments : disk'.segments = disk.segments
  manifest : disk'.manifest = disk.manifest
  activeLen : disk'.activeLen = disk.activeLen
  atEnd : AtEnd disk' handle
  valid : disk'.Valid

theorem Disk.Valid.openAppend (h : disk.Valid) :
    Opens disk disk.openAppend.1 disk.openAppend.2 := by
  unfold Disk.openAppend
  cases hactive : disk.active with
  | some file => exact ⟨rfl, rfl, rfl, ⟨h file hactive, fun _ hp => by cases hp⟩, h⟩
  | none =>
    have hlen : disk.activeLen = 0 := by
      unfold Disk.activeLen Disk.activeContents
      rw [hactive]
      rfl
    exact ⟨rfl, rfl, activeLen_createActive.trans hlen.symm, atEnd_createActive (.inl rfl),
      valid_createActive⟩

theorem Disk.Valid.setContents (h : disk.Valid) (file : ℕ) (contents : ByteArray) :
    (disk.setContents file contents).Valid := by
  intro active hactive
  change active < (disk.files.set file contents).length
  rw [List.length_set]
  exact h active hactive

theorem Disk.Valid.write (h : disk.Valid) (handle : OpenFile) (bytes : ByteArray) :
    (disk.write handle bytes).1.Valid := by
  unfold Disk.write
  cases handle.position with
  | none => exact h.setContents _ _
  | some position => exact h.setContents _ _

theorem write_segments {handle : OpenFile} {bytes : ByteArray} :
    (disk.write handle bytes).1.segments = disk.segments := by
  unfold Disk.write
  cases handle.position <;> rfl

theorem Numbers.of_segments (h : Numbers disk written m) (hs : disk'.segments = disk.segments) :
    Numbers disk' written m := ⟨h.next, h.high, h.start, h.pos, hs ▸ h.names⟩

theorem Filled.of_activeLen (h : Filled disk written m) (hs : disk'.activeLen = disk.activeLen) :
    Filled disk' written m := by
  unfold Filled
  rw [hs]
  exact h

theorem Moves.valid (hvalid : disk.Valid) (h : Moves format disk stage e disk' stage') :
    disk'.Valid := by
  cases h with
  | openActive m => exact hvalid.openAppend.valid
  | rename hfull hactive => exact fun _ h => by cases h
  | create hfew =>
    unfold Disk.openTruncated
    cases hactive : disk.active with
    | some file => exact hvalid.setContents _ _
    | none => exact valid_createActive
  | write hpos hcount => exact hvalid.write _ _
  | finish hpos => exact hvalid.write _ _
  | _ => exact hvalid

/-- A step of the proxy writes a row with the next number, over nothing that has been written. -/
theorem StageOk.moves (hvalid : disk.Valid) (h : StageOk disk written stage)
    (hmay : ∀ timestamp stream line, e = .append timestamp stream line → stage.mayAppend = true)
    (hmove : Moves format disk stage e disk' stage') :
    StageOk disk' (written ++ (stage.completed stage').toList) stage' ∧
      stage.overwrites disk e = false ∧
      ∀ row, stage.completed stage' = some row → lastNumber written < row.sequence := by
  have hnothing {stage stage' : Stage} (hcompleted : stage.completed stage' = none)
      (hok : StageOk disk' written stage') (hover : stage.overwrites disk e = false) :
      StageOk disk' (written ++ (stage.completed stage').toList) stage' ∧
        stage.overwrites disk e = false ∧
        ∀ row, stage.completed stage' = some row → lastNumber written < row.sequence := by
    rw [hcompleted]
    exact ⟨(List.append_nil written).symm ▸ hok, hover, fun _ h => by cases h⟩
  cases hmove with
  | load => exact hnothing rfl ⟨h, rfl⟩ rfl
  | scan m =>
    obtain ⟨hstored, rfl⟩ := h
    refine hnothing rfl ⟨hstored, ?_⟩ rfl
    rw [hstored.numbers.recover hstored.filled]
    exact ⟨⟨hstored.numbers.next, hstored.numbers.high, hstored.numbers.start,
      hstored.numbers.pos, hstored.numbers.names⟩, hstored.filled, hstored.filled⟩
  | openActive m =>
    obtain ⟨hstored, hnumbers, hfilled, hlen⟩ := h
    have hopens := hvalid.openAppend
    refine hnothing rfl ⟨⟨?_, ?_⟩, hnumbers.of_segments hopens.segments,
      hfilled.of_activeLen hopens.activeLen, hopens.atEnd, hlen⟩ rfl
    · rw [hopens.manifest]
      exact hstored.numbers.of_segments hopens.segments
    · rw [hopens.manifest]
      exact hstored.filled.of_activeLen hopens.activeLen
  | storeOpened journal =>
    obtain ⟨-, hnumbers, hfilled, hend, hlen⟩ := h
    exact hnothing rfl ⟨rfl, hnumbers.of_segments rfl, hfilled, ⟨hend.1, hend.2⟩, hlen⟩ rfl
  | storeCreated journal =>
    obtain ⟨hnumbers, hfilled, hend, hlen⟩ := h
    exact hnothing rfl ⟨rfl, hnumbers.of_segments rfl, hfilled, ⟨hend.1, hend.2⟩,
      fun h => absurd hlen h⟩ rfl
  | storeWritten journal =>
    obtain ⟨hnumbers, hend, hstart⟩ := h
    exact hnothing rfl ⟨rfl, hnumbers.of_segments rfl, fun _ => hstart, ⟨hend.1, hend.2⟩,
      fun _ => hstart⟩ rfl
  | @rename journal file hfull hactive =>
    obtain ⟨-, hnumbers, -, -, hlen⟩ := h
    have hstart : journal.manifest.activeStartSequence ≤ lastNumber written := by
      apply hlen
      intro hzero
      simp [ProxyJournal.mustRollOver, hzero] at hfull
    have hnext := hnumbers.next
    refine hnothing rfl ⟨hnext, hnumbers.high, rfl, fun segment hsegment => ?_, hnumbers.start⟩ ?_
    · rcases List.mem_append.mp hsegment with hsegment | hsegment
      · have hname := hnumbers.names segment (List.mem_of_mem_filter hsegment)
        change segment.1 < journal.manifest.nextSequence
        omega
      · rw [List.mem_singleton.mp hsegment]
        change journal.manifest.activeStartSequence < journal.manifest.nextSequence
        omega
    · refine List.any_eq_false.mpr fun segment hsegment heq => ?_
      have hname := hnumbers.names segment hsegment
      have hsame := of_decide_eq_true heq
      omega
  | trim hsegments hmany =>
    obtain ⟨hnext, hhigh, hactive, hnames, hstart⟩ := h
    exact hnothing rfl ⟨hnext, hhigh, hactive,
      fun segment hsegment => hnames segment (List.mem_of_mem_filter hsegment), hstart⟩ rfl
  | @create journal hfew =>
    obtain ⟨hnext, hhigh, hactive, hnames, -⟩ := h
    have hopen : disk.openTruncated = (disk.createActive, ⟨disk.files.length, some 0⟩) := by
      unfold Disk.openTruncated
      rw [hactive]
    rw [hopen] at hnothing ⊢
    have hlen : disk.activeLen = 0 := by
      unfold Disk.activeLen Disk.activeContents
      rw [hactive]
      rfl
    refine hnothing rfl ⟨⟨hnext, hhigh, Nat.le_refl _, ?_, hnames⟩,
      fun h => absurd activeLen_createActive h, atEnd_createActive (.inr rfl), rfl⟩ ?_
    · change 0 < journal.manifest.nextSequence
      omega
    · simp [Stage.overwrites, hlen]
  | append timestamp stream line hroom =>
    obtain ⟨-, hnumbers, -, hend, -⟩ := h
    have hsmall := of_decide_eq_true (hmay timestamp stream line rfl)
    exact hnothing rfl ⟨hnumbers, hend, rfl, hsmall⟩ rfl
  | write hpos hcount =>
    obtain ⟨hnumbers, hend, hrow, hsmall⟩ := h
    exact hnothing rfl ⟨hnumbers.of_segments write_segments, hend.write, hrow, hsmall⟩
      hend.overwrites
  | @finish journal row rest hpos =>
    obtain ⟨hnumbers, hend, hrow, hsmall⟩ := h
    have hnext := hnumbers.next
    have hstart := hnumbers.start
    have hlast : lastNumber (written ++ [row]) = row.sequence := by
      unfold lastNumber
      rw [List.getLast?_concat]
      rfl
    refine ⟨⟨⟨?_, ?_, ?_, hnumbers.pos, ?_⟩, hend.write, ?_⟩, hend.overwrites, ?_⟩
    · change satAddU64 journal.manifest.nextSequence 1 = lastNumber (written ++ [row]) + 1
      rw [hlast, satAddU64]
      omega
    · change journal.manifest.nextSequence = lastNumber (written ++ [row])
      rw [hlast, hrow]
    · change journal.manifest.activeStartSequence ≤ satAddU64 journal.manifest.nextSequence 1
      rw [satAddU64]
      omega
    · rw [write_segments]
      exact hnumbers.names
    · change journal.manifest.activeStartSequence ≤ lastNumber (written ++ [row])
      rw [hlast, hrow]
      exact hstart
    · rintro _ ⟨⟩
      omega

theorem StageOk.stored (h : StageOk disk written stage) (hstage : stage.isUnstored = false) :
    Stored disk written := by
  cases stage with
  | launched | ended => exact h
  | loaded | scanned | opened => exact h.1
  | ready journal =>
    obtain ⟨hmanifest, hnumbers, hfilled, -, -⟩ := h
    refine ⟨?_, ?_⟩
    · rw [hmanifest]
      exact hnumbers
    · rw [hmanifest]
      exact hfilled
  | renamed | created | writing | written => cases hstage

theorem Stored.removeActive (h : Stored disk written) :
    Stored { disk with active := none } written :=
  ⟨h.numbers.of_segments rfl, fun hlen => absurd rfl hlen⟩

theorem StageOk.removeActive (h : StageOk disk written stage) :
    StageOk { disk with active := none } written stage := by
  have hfilled (m : JournalManifest) : Filled { disk with active := none } written m :=
    fun hlen => absurd rfl hlen
  have hend {handle : OpenFile} (h : AtEnd disk handle) :
      AtEnd { disk with active := none } handle := ⟨h.1, h.2⟩
  cases stage with
  | launched | ended => exact Stored.removeActive h
  | loaded m => exact ⟨h.1.removeActive, h.2⟩
  | scanned m => exact ⟨h.1.removeActive, h.2.1.of_segments rfl, hfilled m, h.2.2.2⟩
  | opened journal =>
    exact ⟨h.1.removeActive, h.2.1.of_segments rfl, hfilled _, hend h.2.2.2.1, h.2.2.2.2⟩
  | ready journal =>
    exact ⟨h.1, h.2.1.of_segments rfl, hfilled _, hend h.2.2.2.1, h.2.2.2.2⟩
  | renamed journal => exact ⟨h.1, h.2.1, rfl, h.2.2.2⟩
  | created journal => exact ⟨h.1.of_segments rfl, hfilled _, hend h.2.2.1, h.2.2.2⟩
  | writing journal row rest => exact ⟨h.1.of_segments rfl, hend h.2.1, h.2.2⟩
  | written journal => exact ⟨h.1.of_segments rfl, hend h.2.1, h.2.2⟩

theorem lastNumber_max (h : written.Pairwise fun a b => a.sequence < b.sequence) {row : LogLine}
    (hrow : row ∈ written) : row.sequence ≤ lastNumber written := by
  induction written using List.reverseRecOn with
  | nil => exact absurd hrow List.not_mem_nil
  | append_singleton written last _ =>
    unfold lastNumber
    rw [List.getLast?_concat]
    rcases List.mem_append.mp hrow with hrow | hrow
    · exact (List.pairwise_append.mp h).2.2 row hrow last List.mem_cons_self |>.le
    · rw [List.mem_singleton.mp hrow]
      rfl

end Numbers

open JournalState (epochFormat)

namespace ProxySystem

/-- Every row has a number of its own, the numbers ascend, and nothing written is overwritten. -/
structure KeepsSequences (s : ProxySystem) : Prop where
  ascending : s.written.Pairwise fun a b => a.sequence < b.sequence
  intact : s.overwritten = false

/-- One proxy at a time, which does not end while the manifest is behind the files, and numbers
that do not run out. -/
def Fits (s : ProxySystem) : ProxyEvent → Prop
  | .launch => s.proxies.all fun stage => !stage.isRunning
  | .proxy i (.append _ _ _) => (s.proxies[i]?).all Stage.mayAppend
  | .crash i | .fail i => (s.proxies[i]?).all fun stage => !stage.isUnstored
  | _ => True

instance (s : ProxySystem) (e : ProxyEvent) : Decidable (s.Fits e) := by
  cases e with
  | launch => exact decEq (s.proxies.all _) true
  | proxy i step =>
    cases step with
    | append => exact decEq ((s.proxies[i]?).all _) true
    | _ => exact isTrue trivial
  | crash i | fail i => exact decEq ((s.proxies[i]?).all _) true
  | complete | removeFailedJournal => exact isTrue trivial

structure Sound (s : ProxySystem) : Prop extends KeepsSequences s where
  valid : s.disk.Valid
  alone : ∀ (i j : ℕ) (a b : Stage), s.proxies[i]? = some a → s.proxies[j]? = some b →
    a.isRunning = true → b.isRunning = true → i = j
  ok : ∀ (i : ℕ) (stage : Stage), s.proxies[i]? = some stage → stage.isRunning = true →
    StageOk s.disk s.written stage
  idle : (∀ stage ∈ s.proxies, stage.isRunning = false) → Stored s.disk s.written

variable {format : TimeFormat} {s t : ProxySystem} {i : ℕ} {stage : Stage}

/-- A proxy that ends leaves what the next one goes by. -/
theorem Sound.ends (h : s.Sound) (hi : s.proxies[i]? = some stage)
    (hrunning : stage.isRunning = true) (hstored : stage.isUnstored = false) {removals : ℕ} :
    Sound { s.setProxy i .ended with removals } := by
  have hproxies {j : ℕ} {other : Stage} (hj : (s.proxies.set i .ended)[j]? = some other)
      (hother : other.isRunning = true) : j ≠ i ∧ s.proxies[j]? = some other := by
    by_cases hij : i = j
    · subst hij
      rw [List.getElem?_set_self (List.getElem?_eq_some_iff.mp hi).1] at hj
      rw [← Option.some.inj hj] at hother
      cases hother
    · rw [List.getElem?_set_ne hij] at hj
      exact ⟨fun heq => hij heq.symm, hj⟩
  refine ⟨⟨h.ascending, h.intact⟩, h.valid, ?_, ?_, fun _ => (h.ok i stage hi hrunning).stored hstored⟩
  · intro j k a b hj hk ha hb
    exact h.alone j k a b (hproxies hj ha).2 (hproxies hk hb).2 ha hb
  · intro j other hj hother
    exact h.ok j other (hproxies hj hother).2 hother

theorem Sound.removeActive (h : s.Sound) {removals : ℕ} :
    Sound { s with disk := { s.disk with active := none }, removals } :=
  ⟨⟨h.ascending, h.intact⟩, fun _ h => (by cases h), h.alone,
    fun j other hj hother => (h.ok j other hj hother).removeActive,
    fun hidle => (h.idle hidle).removeActive⟩

theorem Sound.launch (h : s.Sound) (hfits : s.Fits .launch) :
    Sound { s with proxies := s.proxies ++ [.launched] } := by
  have hended : ∀ stage ∈ s.proxies, stage.isRunning = false := by
    intro stage hstage
    simpa using List.all_eq_true.mp hfits stage hstage
  have hnew {j : ℕ} {other : Stage} (hj : (s.proxies ++ [.launched])[j]? = some other)
      (hother : other.isRunning = true) : j = s.proxies.length ∧ other = .launched := by
    rw [List.getElem?_append] at hj
    split at hj
    · have hfalse := hended other (List.mem_of_getElem? hj)
      exact absurd (hother.symm.trans hfalse) (by decide)
    · obtain ⟨hlt, heq⟩ := List.getElem?_eq_some_iff.mp hj
      have hzero : j - s.proxies.length = 0 := by simpa using hlt
      refine ⟨by omega, ?_⟩
      rw [← heq]
      simp [hzero]
  refine ⟨⟨h.ascending, h.intact⟩, h.valid, ?_, ?_, ?_⟩
  · intro j k a b hj hk ha hb
    exact (hnew hj ha).1.trans (hnew hk hb).1.symm
  · intro j other hj hother
    rw [(hnew hj hother).2]
    exact h.idle hended
  · intro hall
    exact absurd (hall .launched (List.mem_append_right _ List.mem_cons_self)) (by decide)

theorem Sound.proxy (h : s.Sound) {step : ProxyStep} {disk : Disk} {stage' : Stage}
    (hfits : s.Fits (.proxy i step)) (hi : s.proxies[i]? = some stage)
    (hstep : stage.step format s.disk step = some (disk, stage')) :
    Sound { s.setProxy i stage' with
      disk
      written := s.written ++ (stage.completed stage').toList
      overwritten := s.overwritten || stage.overwrites s.disk step } := by
  have hmove := Stage.step_moves hstep
  have hrunning : stage.isRunning = true := by cases hmove <;> rfl
  have hrunning' : stage'.isRunning = true := by cases hmove <;> rfl
  have hmay : ∀ timestamp stream line, step = .append timestamp stream line →
      stage.mayAppend = true := by
    rintro timestamp stream line rfl
    change (s.proxies[i]?).all Stage.mayAppend = true at hfits
    rw [hi] at hfits
    exact hfits
  obtain ⟨hok, hover, hrow⟩ := (h.ok i stage hi hrunning).moves h.valid hmay hmove
  have hlt : i < s.proxies.length := (List.getElem?_eq_some_iff.mp hi).1
  have hproxies {j : ℕ} {other : Stage} (hj : (s.proxies.set i stage')[j]? = some other)
      (hother : other.isRunning = true) : j = i ∧ other = stage' := by
    by_cases hij : i = j
    · subst hij
      rw [List.getElem?_set_self hlt] at hj
      exact ⟨rfl, (Option.some.inj hj).symm⟩
    · rw [List.getElem?_set_ne hij] at hj
      exact absurd (h.alone i j stage other hi hj hrunning hother) hij
  refine ⟨⟨?_, ?_⟩, hmove.valid h.valid, ?_, ?_, ?_⟩
  · cases hcompleted : stage.completed stage' with
    | none => simpa [hcompleted] using h.ascending
    | some row =>
      refine List.pairwise_append.mpr ⟨h.ascending, List.pairwise_singleton _ _, ?_⟩
      intro a ha b hb
      rw [List.mem_singleton.mp hb]
      exact (lastNumber_max h.ascending ha).trans_lt (hrow row hcompleted)
  · change (s.overwritten || _) = false
    rw [h.intact, hover]
    rfl
  · intro j k a b hj hk ha hb
    exact (hproxies hj ha).1.trans (hproxies hk hb).1.symm
  · intro j other hj hother
    rw [(hproxies hj hother).2]
    exact hok
  · intro hall
    have hfalse := hall stage' (List.mem_of_getElem? (List.getElem?_set_self hlt))
    exact absurd (hrunning'.symm.trans hfalse) (by decide)

theorem Sound.step (h : s.Sound) {e : ProxyEvent} (hfits : s.Fits e)
    (hstep : (machine format).step s e = some t) : t.Sound := by
  change s.step format e = some t at hstep
  have hstored {i : ℕ} {stage : Stage} (hi : s.proxies[i]? = some stage)
      (hfits : (s.proxies[i]?).all (fun stage => !stage.isUnstored) = true) :
      stage.isUnstored = false := by
    rw [hi] at hfits
    simpa using hfits
  cases e with
  | launch =>
    cases hstep
    exact h.launch hfits
  | proxy i step =>
    obtain ⟨stage, hi, hstep⟩ := Option.bind_eq_some_iff.mp hstep
    obtain ⟨⟨disk, stage'⟩, hstage, rfl⟩ := Option.map_eq_some_iff.mp hstep
    exact h.proxy hfits hi hstage
  | complete i =>
    obtain ⟨stage, hi, hstep⟩ := Option.bind_eq_some_iff.mp hstep
    cases stage with
    | ready journal =>
      cases hstep
      exact h.ends hi rfl rfl
    | _ => cases hstep
  | crash i =>
    obtain ⟨stage, hi, hstep⟩ := Option.bind_eq_some_iff.mp hstep
    split at hstep
    · cases hstep
      exact h.ends hi ‹_› (hstored hi hfits)
    · cases hstep
  | fail i =>
    obtain ⟨stage, hi, hstep⟩ := Option.bind_eq_some_iff.mp hstep
    split at hstep
    · cases hstep
      have hrunning : stage.isRunning = true := by
        cases stage with
        | ended => exact absurd ‹(Stage.ended.isReady || Stage.ended.isUnstored) = true› (by decide)
        | _ => rfl
      exact (h.ends hi hrunning (hstored hi hfits)).removeActive
    · cases hstep
  | removeFailedJournal =>
    change (if _ then _ else _) = _ at hstep
    split at hstep
    · cases hstep
      exact h.removeActive
    · cases hstep

theorem sound_empty : Sound {} where
  ascending := List.Pairwise.nil
  intact := rfl
  valid := fun _ h => by cases h
  alone := fun _ _ _ _ h => by cases h
  ok := fun _ _ h => by cases h
  idle := fun _ =>
    { numbers := ⟨rfl, rfl, Nat.le_refl 1, Nat.one_pos, fun _ h => absurd h List.not_mem_nil⟩
      filled := fun h => absurd rfl h }

/-- In every run from an empty directory. -/
theorem run_keepsSequences (h : (machine format).Run Fits {} t) : t.KeepsSequences :=
  (h.invariant (I := Sound) (fun _ _ _ hs hfits hstep => hs.step hfits hstep)
    sound_empty).toKeepsSequences

/-- A proxy that is started and has opened the journal. -/
def openJournal (i : ℕ) : List ProxyEvent :=
  [.launch, .proxy i .load, .proxy i .scan, .proxy i .openActive, .proxy i .store]

/-- A line that is written as row `n`, in two pieces. -/
def appendLine (i n : ℕ) (line : String) : List ProxyEvent :=
  [.proxy i (.append 0 .stdout line), .proxy i (.write 5),
    .proxy i (.write ((persistedBytes epochFormat ⟨n, 0, .stdout, line⟩).size - 5)),
    .proxy i .store]

/-- Three proxies after one another; the second crashes, and its journal is removed. -/
theorem oneByOne_keepsSequences : ∃ t : ProxySystem,
    t.written.map LogLine.sequence = [1, 2, 3, 4] ∧ t.KeepsSequences := by
  obtain ⟨t, hrun, hp⟩ := Machine.exists_run_of_execUnder (M := machine epochFormat) (C := Fits)
    (s := {}) (fun t => t.written.map LogLine.sequence = [1, 2, 3, 4])
    (openJournal 0 ++ appendLine 0 1 "a" ++ [.complete 0] ++ openJournal 1 ++
      appendLine 1 2 "b" ++ appendLine 1 3 "c" ++ [.crash 1] ++ openJournal 2 ++
      [.removeFailedJournal] ++ appendLine 2 4 "d") (by decide +kernel)
  exact ⟨t, of_decide_eq_true hp, run_keepsSequences hrun⟩

/-- Two instances of a process have a proxy each, and both give their first line number one. -/
theorem twoInstances_sameSequence : ∃ t : ProxySystem, (machine epochFormat).Reaches {} t ∧
    t.written.map LogLine.sequence = [1, 1] ∧ ¬t.KeepsSequences := by
  obtain ⟨t, hrun, hp⟩ := Machine.exists_reaches_of_exec (M := machine epochFormat)
    (s := {}) (fun t => t.written.map LogLine.sequence = [1, 1])
    (openJournal 0 ++ openJournal 1 ++ appendLine 0 1 "a" ++ appendLine 1 1 "b") (by decide +kernel)
  have hwritten := of_decide_eq_true hp
  refine ⟨t, hrun, hwritten, fun h => ?_⟩
  have hascending := List.pairwise_map.mpr h.ascending
  rw [hwritten] at hascending
  exact absurd hascending (by decide)

end ProxySystem

end LogProxy

end Supervisor
