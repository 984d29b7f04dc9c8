import Supervisor.ProxySequences

namespace Supervisor

namespace LogProxy

section Reading

variable (format : TimeFormat)

def parseJournalLine (encoded : List Char) : Option LogLine :=
  (JsonText.parse encoded).bind fun value =>
    (((value.get "timestamp".toList).bind JsonText.Value.asString).bind format.parse).bind
      fun timestamp => ((value.get "sequence".toList).bind JsonText.Value.asU64).bind
        fun sequence => ((value.get "line".toList).bind JsonText.Value.asString).map fun line =>
          { sequence, timestamp
            stream := (((value.get "stream".toList).bind JsonText.Value.asString).map
              parseStream).getD .stdout
            line := String.ofList line }

def readLines (text : List Char) : List LogLine :=
  (textLines text).filterMap (parseJournalLine format)

/-- `read_journal`, of what the file holds when it is there -/
def readJournal (contents : Option ByteArray) : Except String (List LogLine) :=
  match contents with
  | none => .ok []
  | some contents =>
    match contents.utf8Decode? with
    | none => .error "stream did not contain valid UTF-8"
    | some text => .ok (readLines format text.toList)

/-- A file of whole lines, and what is read from it. -/
def Holds (contents : ByteArray) (rows : List LogLine) : Prop :=
  ∃ text : List Char, contents = text.utf8Encode ∧ EndsLine text ∧ readLines format text = rows

variable {format} {row : LogLine} {rows : List LogLine} {text : List Char}
  {contents part rest : ByteArray}

theorem parseJournalLine_encodeRow (hrow : row.sequence < 2^64) :
    parseJournalLine format (encodeRow format row) = some row := by
  obtain ⟨value, hparse, hline, hsequence, hstream, htimestamp⟩ :=
    @parse_encodeRow format _ hrow
  unfold parseJournalLine
  rw [hparse, Option.bind_some, htimestamp, hsequence, hstream, hline, Option.bind_some,
    format.parse_print]
  simp [parseStream_streamName]

theorem readLines_append (htext : EndsLine text) (rest : List Char) :
    readLines format (text ++ rest) = readLines format text ++ readLines format rest := by
  unfold readLines
  rw [textLines_append htext, List.filterMap_append]

theorem readLines_persisted (hrow : row.sequence < 2^64) :
    readLines format (persisted format row) = [row] := by
  unfold readLines persisted
  rw [textLines_row newline_not_mem_encodeRow, stripReturn_encodeRow]
  simp [parseJournalLine_encodeRow hrow]

theorem holds_empty : Holds format ByteArray.empty [] :=
  ⟨[], List.utf8Encode_nil.symm, .inl rfl, rfl⟩

theorem Holds.append (h : Holds format contents rows) (hrow : row.sequence < 2^64) :
    Holds format (contents ++ persistedBytes format row) (rows ++ [row]) := by
  obtain ⟨text, rfl, htext, rfl⟩ := h
  rw [persistedBytes_eq]
  refine ⟨text ++ persisted format row, List.utf8Encode_append.symm, .inr ?_, ?_⟩
  · rw [persisted, ← List.append_assoc]
    exact List.getLast?_concat
  · rw [readLines_append htext, readLines_persisted hrow]

theorem readJournal_utf8Encode (text : List Char) :
    readJournal format (some text.utf8Encode) = .ok (readLines format text) := by
  simp only [readJournal, List.utf8Decode?_utf8Encode]

theorem Holds.read (h : Holds format contents rows) :
    readJournal format (some contents) = .ok rows := by
  obtain ⟨text, rfl, -, rfl⟩ := h
  exact readJournal_utf8Encode text

/-- A row without its end is not read, unless only the line feed is missing. -/
theorem readLines_cut {more : List Char} (h : text ++ more = persisted format row)
    (hmore : more ≠ []) (hrow : row.sequence < 2^64) :
    readLines format text = [] ∨ readLines format text = [row] := by
  have hsplit : text <+: encodeRow format row := by
    have hprefix : text <+: encodeRow format row ++ ['\n'] := ⟨more, h⟩
    rcases List.prefix_concat_iff.mp hprefix with hwhole | hcut
    · have hlength := congrArg List.length h
      rw [hwhole, persisted, List.length_append] at hlength
      exact absurd (List.length_eq_zero_iff.mp (by omega)) hmore
    · exact hcut
  obtain ⟨missing, hmissing⟩ := hsplit
  have hnewline : '\n' ∉ text := by
    intro hc
    apply @newline_not_mem_encodeRow format row
    rw [← hmissing]
    exact List.mem_append_left _ hc
  by_cases hempty : text = []
  · left
    rw [hempty]
    rfl
  by_cases hall : missing = []
  · right
    rw [hall, List.append_nil] at hmissing
    unfold readLines
    rw [textLines_of_not_mem hnewline, if_neg hempty, hmissing, List.filterMap_cons,
      parseJournalLine_encodeRow hrow]
    rfl
  · left
    have hparse : JsonText.parse text = none :=
      JsonText.parse_cut hmissing (List.cons_ne_nil _ _) hall
    have hnone : parseJournalLine format text = none := by
      unfold parseJournalLine
      rw [hparse, Option.bind_none]
    unfold readLines
    rw [textLines_of_not_mem hnewline, if_neg hempty, List.filterMap_cons, hnone]
    rfl

/-- What is read of a file to which a row is being written. -/
theorem Holds.read_part (h : Holds format contents rows)
    (hpart : part ++ rest = persistedBytes format row) (hrest : rest.size ≠ 0)
    (hrow : row.sequence < 2^64) :
    (∃ error, readJournal format (some (contents ++ part)) = .error error) ∨
      readJournal format (some (contents ++ part)) = .ok rows ∨
      readJournal format (some (contents ++ part)) = .ok (rows ++ [row]) := by
  obtain ⟨text, rfl, htext, rfl⟩ := h
  by_cases hvalid : (text.utf8Encode ++ part).IsValidUTF8
  · obtain ⟨decoded, hdecoded⟩ := hvalid
    -- what is decoded goes on from the whole lines into the row
    obtain ⟨cut, rfl⟩ := List.isPrefix_of_utf8Encode_append_eq_utf8Encode part hdecoded
    rw [List.utf8Encode_append, ByteArray.append_right_inj] at hdecoded
    have hrowBytes : cut.utf8Encode ++ rest = (persisted format row).utf8Encode := by
      rw [← hdecoded, hpart, persistedBytes_eq]
    obtain ⟨more, hmore⟩ := List.isPrefix_of_utf8Encode_append_eq_utf8Encode rest hrowBytes
    have hne : more ≠ [] := by
      rintro rfl
      rw [← hmore, List.append_nil] at hrowBytes
      have hsize := congrArg ByteArray.size hrowBytes
      rw [ByteArray.size_append] at hsize
      omega
    rw [hdecoded, ← List.utf8Encode_append, readJournal_utf8Encode, readLines_append htext]
    rcases readLines_cut hmore hne hrow with hcut | hcut
    · right; left
      rw [hcut, List.append_nil]
    · right; right
      rw [hcut]
  · left
    refine ⟨"stream did not contain valid UTF-8", ?_⟩
    have hnone : (text.utf8Encode ++ part).utf8Decode? = none := by
      rw [← Option.not_isSome_iff_eq_none, ByteArray.isSome_utf8Decode?_iff]
      exact hvalid
    simp only [readJournal, hnone]

end Reading

/-- One proxy after another, without a failure. -/
structure JournalWriter where
  disk : Disk := {}
  stage : Stage := .launched
  written : List LogLine := []

inductive WriterEvent where
  | proxy (step : ProxyStep)
  /-- The target has ended, and the process is started again. -/
  | relaunch

namespace JournalWriter

variable (format : TimeFormat)

def step (w : JournalWriter) : WriterEvent → Option JournalWriter
  | .proxy step => (w.stage.step format w.disk step).map fun (disk, stage) =>
      { disk, stage, written := w.written ++ (w.stage.completed stage).toList }
  | .relaunch => if w.stage.isReady then some { w with stage := .launched } else none

/-- The numbers do not run out. -/
def Fits (w : JournalWriter) : WriterEvent → Prop
  | .proxy (.append _ _ _) => w.stage.mayAppend = true
  | _ => True

instance (w : JournalWriter) (e : WriterEvent) : Decidable (w.Fits e) :=
  match e with
  | .proxy (.append ..) => decEq w.stage.mayAppend true
  | .proxy .load | .proxy .scan | .proxy .openActive | .proxy .store | .proxy .rename | .proxy .trim
  | .proxy .create | .proxy (.write _) | .relaunch => isTrue trivial

end JournalWriter

section Layout

variable (format : TimeFormat)

/-- The rows of a file have the numbers from `first` up to `next`. -/
def FileRows (contents : ByteArray) (first next : ℕ) : Prop :=
  ∃ rows, Holds format contents rows ∧ NumberedFrom first rows ∧ first + rows.length = next

/-- The number after a segment. -/
def nextStart (segments : List SegmentMeta) (stop : ℕ) : ℕ :=
  (segments.head?.map SegmentMeta.firstSequence).getD stop

/-- Segments that follow one another up to `stop`. -/
def Consecutive : List SegmentMeta → ℕ → Prop
  | [], _ => True
  | segment :: rest, stop => segment.firstSequence ≤ segment.lastSequence ∧
      segment.lastSequence + 1 = nextStart rest stop ∧ Consecutive rest stop

/-- The files of the sealed segments of a manifest, as far as they are still there. -/
structure Sealed (disk : Disk) (segments : List SegmentMeta) (stop : ℕ) : Prop where
  consecutive : Consecutive segments stop
  files : ∀ segment ∈ segments, segment.filename = segment.firstSequence ∧
    ∀ file, (segment.filename, file) ∈ disk.segments →
      FileRows format (disk.contents file) segment.firstSequence (segment.lastSequence + 1)

/-- The active file holds what a manifest says. -/
def ActiveRows (disk : Disk) (m : JournalManifest) : Prop :=
  (∀ file, disk.active = some file →
    FileRows format (disk.contents file) m.activeStartSequence m.nextSequence) ∧
  (disk.active = none → m.activeStartSequence = m.nextSequence)

/-- The manifest in memory, or the one that the next proxy loads. -/
def Stage.manifest (disk : Disk) : Stage → JournalManifest
  | .loaded m | .scanned m => m
  | .opened journal | .ready journal | .renamed journal | .created journal
  | .writing journal _ _ | .written journal => journal.manifest
  | .launched | .ended => disk.manifest.getD {}

/-- The file that a stage has open. -/
def Stage.openFile : Stage → Option ℕ
  | .opened journal | .ready journal | .created journal | .writing journal _ _
  | .written journal => some journal.file.file
  | _ => none

/-- What the files hold at a stage. -/
def StageRows (disk : Disk) : Stage → Prop
  | .renamed journal => disk.active = none ∧
      Sealed format disk journal.manifest.sealedSegments journal.manifest.nextSequence
  | .writing journal row rest =>
      Sealed format disk journal.manifest.sealedSegments journal.manifest.activeStartSequence ∧
      rest.size ≠ 0 ∧ ∃ whole part, disk.contents journal.file.file = whole ++ part ∧
        FileRows format whole journal.manifest.activeStartSequence journal.manifest.nextSequence ∧
        part ++ rest = persistedBytes format row
  | stage =>
      Sealed format disk (stage.manifest disk).sealedSegments
        (stage.manifest disk).activeStartSequence ∧ ActiveRows format disk (stage.manifest disk)

/-- What holds of the files in every state of the writer. -/
structure Laid (disk : Disk) (stage : Stage) : Prop where
  valid : disk.Valid
  ids : ∀ segment ∈ disk.segments, segment.2 < disk.files.length ∧ disk.active ≠ some segment.2
  opened : ∀ file, stage.openFile = some file → disk.active = some file
  rows : StageRows format disk stage

variable {format} {disk disk' : Disk} {segments rest : List SegmentMeta} {stop next : ℕ}
  {stage stage' : Stage} {e : ProxyStep}

theorem nextStart_append {segment : SegmentMeta} :
    nextStart (segments ++ [segment]) next = nextStart segments segment.firstSequence := by
  cases segments <;> rfl

theorem Consecutive.append {segment : SegmentMeta} (h : Consecutive segments stop)
    (hfirst : segment.firstSequence = stop) (hle : stop ≤ segment.lastSequence)
    (hnext : segment.lastSequence + 1 = next) : Consecutive (segments ++ [segment]) next := by
  induction segments with
  | nil => exact ⟨hfirst ▸ hle, hnext, trivial⟩
  | cons head segments ih =>
    obtain ⟨hhead, hstart, htail⟩ := h
    refine ⟨hhead, ?_, ih htail⟩
    change head.lastSequence + 1 = nextStart (segments ++ [segment]) next
    rw [nextStart_append, hfirst]
    exact hstart

theorem Consecutive.le (h : Consecutive segments stop) : nextStart segments stop ≤ stop := by
  induction segments with
  | nil => exact Nat.le_refl _
  | cons head segments ih =>
    obtain ⟨hhead, hstart, htail⟩ := h
    have hle := ih htail
    change head.firstSequence ≤ stop
    omega

theorem Consecutive.last_lt (h : Consecutive segments stop) {segment : SegmentMeta}
    (hsegment : segment ∈ segments) :
    segment.firstSequence ≤ segment.lastSequence ∧ segment.lastSequence < stop := by
  induction segments with
  | nil => exact absurd hsegment List.not_mem_nil
  | cons head segments ih =>
    obtain ⟨hhead, hstart, htail⟩ := h
    rcases List.mem_cons.mp hsegment with rfl | hsegment
    · have hle := htail.le
      exact ⟨hhead, by omega⟩
    · exact ih htail hsegment

theorem Sealed.mono (h : Sealed format disk segments stop)
    (hkeep : ∀ segment ∈ segments, ∀ file, (segment.filename, file) ∈ disk'.segments →
      (segment.filename, file) ∈ disk.segments ∧ disk'.contents file = disk.contents file) :
    Sealed format disk' segments stop := by
  refine ⟨h.consecutive, fun segment hsegment => ⟨(h.files segment hsegment).1, fun file hfile => ?_⟩⟩
  obtain ⟨hold, hsame⟩ := hkeep segment hsegment file hfile
  rw [hsame]
  exact (h.files segment hsegment).2 file hold

theorem write_contents_of_ne {handle : OpenFile} {bytes : ByteArray} {file : ℕ}
    (h : handle.file ≠ file) : (disk.write handle bytes).1.contents file = disk.contents file := by
  unfold Disk.write
  cases handle.position with
  | none => exact contents_setContents_of_ne h
  | some position => exact contents_setContents_of_ne h

theorem contents_createActive_of_lt {file : ℕ} (h : file < disk.files.length) :
    disk.createActive.contents file = disk.contents file := by
  unfold Disk.contents Disk.createActive
  rw [List.getD_eq_getElem?_getD, List.getElem?_append_left h, ← List.getD_eq_getElem?_getD]

theorem contents_openAppend_of_lt {file : ℕ} (h : file < disk.files.length) :
    disk.openAppend.1.contents file = disk.contents file := by
  unfold Disk.openAppend
  cases disk.active with
  | some active => rfl
  | none => exact contents_createActive_of_lt h

/-- A step keeps the named files but the one that it names. -/
theorem Laid.keeps (h : Laid format disk stage) (hmove : Moves format disk stage e disk' stage')
    {name file : ℕ} (hfile : (name, file) ∈ disk'.segments) :
    ((name, file) ∈ disk.segments ∧ disk'.contents file = disk.contents file) ∨
      (e = .rename ∧ name = (stage.manifest disk).activeStartSequence ∧
        disk.active = some file) := by
  have hwritten {journal : ProxyJournal} {bytes : ByteArray}
      (hopened : disk.active = some journal.file.file)
      (hfile : (name, file) ∈ (disk.write journal.file bytes).1.segments) :
      (name, file) ∈ disk.segments ∧
        (disk.write journal.file bytes).1.contents file = disk.contents file := by
    rw [write_segments] at hfile
    refine ⟨hfile, write_contents_of_ne fun heq => ?_⟩
    exact (h.ids _ hfile).2 (heq ▸ hopened)
  cases hmove with
  | load | scan | storeOpened | storeCreated | storeWritten | append => exact .inl ⟨hfile, rfl⟩
  | openActive m =>
    rw [h.valid.openAppend.segments] at hfile
    exact .inl ⟨hfile, contents_openAppend_of_lt (h.ids _ hfile).1⟩
  | @rename journal active hfull hactive =>
    rcases List.mem_append.mp hfile with hfile | hfile
    · exact .inl ⟨List.mem_of_mem_filter hfile, rfl⟩
    · obtain ⟨rfl, rfl⟩ := Prod.mk.inj (List.mem_singleton.mp hfile)
      exact .inr ⟨rfl, rfl, hactive⟩
  | trim hsegments hmany => exact .inl ⟨List.mem_of_mem_filter hfile, rfl⟩
  | @create journal hfew =>
    obtain ⟨hactive, -⟩ := h.rows
    have hopen : disk.openTruncated.1 = disk.createActive := by
      unfold Disk.openTruncated
      rw [hactive]
    rw [hopen] at hfile ⊢
    exact .inl ⟨hfile, contents_createActive_of_lt (h.ids _ hfile).1⟩
  | write hpos hcount => exact .inl (hwritten (h.opened _ rfl) hfile)
  | finish hpos => exact .inl (hwritten (h.opened _ rfl) hfile)

theorem Sealed.moves (hsealed : Sealed format disk segments stop) (h : Laid format disk stage)
    (hmove : Moves format disk stage e disk' stage')
    (hstop : e = .rename → stop ≤ (stage.manifest disk).activeStartSequence) :
    Sealed format disk' segments stop := by
  apply hsealed.mono
  intro segment hsegment file hfile
  rcases h.keeps hmove hfile with hkept | ⟨he, hname, -⟩
  · exact hkept
  · obtain ⟨hle, hlt⟩ := hsealed.consecutive.last_lt hsegment
    have hsame := (hsealed.files segment hsegment).1
    have hbound := hstop he
    omega

theorem fileRows_empty : FileRows format ByteArray.empty stop stop := ⟨[], holds_empty, rfl, rfl⟩

theorem FileRows.append {contents : ByteArray} {row : LogLine}
    (h : FileRows format contents stop next) (hrow : row.sequence = next) (hlt : next < 2^64) :
    FileRows format (contents ++ persistedBytes format row) stop (next + 1) := by
  obtain ⟨rows, hholds, hnumbers, rfl⟩ := h
  exact ⟨rows ++ [row], hholds.append (hrow ▸ hlt), hnumbers.concat hrow, by simp [Nat.add_assoc]⟩

theorem ActiveRows.of_contents {m : JournalManifest} {file : ℕ} (hactive : disk.active = some file)
    (h : FileRows format (disk.contents file) m.activeStartSequence m.nextSequence) :
    ActiveRows format disk m := by
  refine ⟨fun other hother => ?_, fun hnone => ?_⟩
  · rw [← Option.some.inj (hactive.symm.trans hother)]
    exact h
  · cases hactive.symm.trans hnone

theorem activeRows_createActive {m : JournalManifest}
    (h : m.activeStartSequence = m.nextSequence) : ActiveRows format disk.createActive m := by
  apply ActiveRows.of_contents rfl
  rw [contents_createActive, h]
  exact fileRows_empty

theorem ids_createActive (hids : ∀ segment ∈ disk.segments, segment.2 < disk.files.length ∧
      disk.active ≠ some segment.2) : ∀ segment ∈ disk.createActive.segments,
    segment.2 < disk.createActive.files.length ∧ disk.createActive.active ≠ some segment.2 := by
  intro segment hsegment
  have hlt := (hids segment hsegment).1
  constructor
  · change segment.2 < (disk.files ++ [ByteArray.empty]).length
    rw [List.length_append]
    omega
  · intro heq
    have hsame : disk.files.length = segment.2 := Option.some.inj heq
    omega

theorem ids_write {handle : OpenFile} {bytes : ByteArray}
    (hids : ∀ segment ∈ disk.segments, segment.2 < disk.files.length ∧
      disk.active ≠ some segment.2) : ∀ segment ∈ (disk.write handle bytes).1.segments,
    segment.2 < (disk.write handle bytes).1.files.length ∧
      (disk.write handle bytes).1.active ≠ some segment.2 := by
  have hsame : (disk.write handle bytes).1.files.length = disk.files.length ∧
      (disk.write handle bytes).1.active = disk.active := by
    unfold Disk.write
    cases handle.position with
    | none => exact ⟨List.length_set, rfl⟩
    | some position => exact ⟨List.length_set, rfl⟩
  rw [write_segments, hsame.1, hsame.2]
  exact hids

theorem write_active {handle : OpenFile} {bytes : ByteArray} :
    (disk.write handle bytes).1.active = disk.active := by
  unfold Disk.write
  cases handle.position <;> rfl

theorem AtEnd.contents_write {handle : OpenFile} {bytes : ByteArray} (h : AtEnd disk handle) :
    (disk.write handle bytes).1.contents handle.file = disk.contents handle.file ++ bytes := by
  rw [h.write_contents, contents_setContents_self h.exists_]

theorem persistedBytes_size_ne {row : LogLine} : (persistedBytes format row).size ≠ 0 := by
  rw [persistedBytes_eq]
  intro h
  have hnil := List.utf8Encode_eq_empty.mp (ByteArray.size_eq_zero_iff.mp h)
  exact absurd hnil (by simp [persisted])

/-- A step keeps what holds of the files. -/
theorem Laid.moves {written : List LogLine} (h : Laid format disk stage)
    (hok : StageOk disk written stage)
    (hmay : ∀ timestamp stream line, e = .append timestamp stream line → stage.mayAppend = true)
    (hmove : Moves format disk stage e disk' stage') : Laid format disk' stage' := by
  have hvalid := hmove.valid h.valid
  have hids := h.ids
  cases hmove with
  | load => exact ⟨hvalid, hids, fun _ h => (by cases h), h.rows⟩
  | scan m =>
    obtain ⟨hstored, rfl⟩ := hok
    rw [hstored.numbers.recover hstored.filled]
    exact ⟨hvalid, hids, fun _ h => (by cases h), h.rows⟩
  | openActive m =>
    obtain ⟨hsealed, hactive⟩ := h.rows
    have hkept := hsealed.moves h (@Moves.openActive format _ m) (fun h => by cases h)
    unfold Disk.openAppend at hvalid hkept ⊢
    cases hfile : disk.active with
    | some file =>
      simp only [hfile] at hvalid hkept ⊢
      exact ⟨hvalid, hfile ▸ hids, fun _ h => hfile.trans h, hkept, hactive⟩
    | none =>
      simp only [hfile] at hvalid hkept ⊢
      exact ⟨hvalid, ids_createActive hids, fun _ h => h, hkept,
        activeRows_createActive (hactive.2 hfile)⟩
  | storeOpened journal =>
    obtain ⟨hsealed, hrows⟩ := h.rows
    exact ⟨hvalid, hids, h.opened, hsealed.mono fun _ _ _ hfile => ⟨hfile, rfl⟩, hrows⟩
  | storeCreated journal =>
    obtain ⟨hsealed, hrows⟩ := h.rows
    exact ⟨hvalid, hids, h.opened, hsealed.mono fun _ _ _ hfile => ⟨hfile, rfl⟩, hrows⟩
  | storeWritten journal =>
    obtain ⟨hsealed, hrows⟩ := h.rows
    exact ⟨hvalid, hids, h.opened, hsealed.mono fun _ _ _ hfile => ⟨hfile, rfl⟩, hrows⟩
  | @rename journal file hfull hactive =>
    obtain ⟨hsealed, hrows⟩ := h.rows
    obtain ⟨-, hnumbers, -, -, hlen⟩ := hok
    have hstart : journal.manifest.activeStartSequence ≤ lastNumber written := by
      apply hlen
      intro hzero
      simp [ProxyJournal.mustRollOver, hzero] at hfull
    have hnext := hnumbers.next
    have hhigh := hnumbers.high
    have hmove := @Moves.rename format _ _ _ hfull hactive
    have hkept := hsealed.moves h hmove (fun _ => Nat.le_refl _)
    refine ⟨hvalid, ?_, fun _ h => (by cases h), rfl, ?_, ?_⟩
    · intro segment hsegment
      refine ⟨?_, fun h => by cases h⟩
      rcases List.mem_append.mp hsegment with hsegment | hsegment
      · exact (hids segment (List.mem_of_mem_filter hsegment)).1
      · rw [List.mem_singleton.mp hsegment]
        exact h.valid file hactive
    · refine hkept.consecutive.append rfl ?_ ?_
      · change journal.manifest.activeStartSequence ≤ journal.manifest.highWatermark
        omega
      · change journal.manifest.highWatermark + 1 = journal.manifest.nextSequence
        omega
    · intro segment hsegment
      rcases List.mem_append.mp hsegment with hsegment | hsegment
      · exact hkept.files segment hsegment
      · rw [List.mem_singleton.mp hsegment]
        refine ⟨rfl, fun other hother => ?_⟩
        change FileRows format (disk.contents other) journal.manifest.activeStartSequence
          (journal.manifest.highWatermark + 1)
        have hsame : journal.manifest.highWatermark + 1 = journal.manifest.nextSequence := by omega
        rw [hsame]
        rcases h.keeps hmove hother with ⟨hold, -⟩ | ⟨-, -, hother⟩
        · exact absurd (hnumbers.names _ hold) (Nat.lt_irrefl _)
        · exact hrows.1 other hother
  | @trim journal removed rest hsegments hmany =>
    obtain ⟨hactive, hsealed⟩ := h.rows
    have hkept := hsealed.moves h (@Moves.trim format _ _ _ _ hsegments hmany)
      (fun h => by cases h)
    rw [hsegments] at hkept
    refine ⟨hvalid, ?_, fun _ h => (by cases h), hactive, hkept.consecutive.2.2,
      fun segment hsegment => hkept.files segment (List.mem_cons_of_mem _ hsegment)⟩
    exact fun segment hsegment => hids segment (List.mem_of_mem_filter hsegment)
  | @create journal hfew =>
    obtain ⟨hactive, hsealed⟩ := h.rows
    have hkept := hsealed.moves h (@Moves.create format _ _ hfew) (fun h => by cases h)
    have hopen : disk.openTruncated = (disk.createActive, ⟨disk.files.length, some 0⟩) := by
      unfold Disk.openTruncated
      rw [hactive]
    rw [hopen] at hvalid hkept ⊢
    exact ⟨hvalid, ids_createActive hids, fun _ h => h, hkept, activeRows_createActive rfl⟩
  | append timestamp stream line hroom =>
    obtain ⟨hsealed, hrows⟩ := h.rows
    refine ⟨hvalid, hids, h.opened, hsealed, persistedBytes_size_ne, _, ByteArray.empty,
      ByteArray.append_empty.symm, hrows.1 _ (h.opened _ rfl), ByteArray.empty_append⟩
  | @write journal row rest count hpos hcount =>
    obtain ⟨hsealed, hrest, whole, part, hcontents, hrows, hpart⟩ := h.rows
    obtain ⟨-, hend, -, -⟩ := hok
    have hkept := hsealed.moves h (@Moves.write format _ journal row _ _ hpos hcount)
      (fun h => by cases h)
    refine ⟨hvalid, ids_write hids, ?_, hkept, ?_, whole, part ++ rest.extract 0 count, ?_, hrows, ?_⟩
    · rintro _ ⟨⟩
      rw [write_active, write_file]
      exact h.opened _ rfl
    · rw [ByteArray.size_extract]
      omega
    · rw [write_file, hend.contents_write, hcontents, ByteArray.append_assoc]
    · rw [ByteArray.append_assoc, ByteArray.extract_append_extract, Nat.min_eq_left (by omega),
        Nat.max_eq_right (by omega), ByteArray.extract_zero_size, hpart]
  | @finish journal row rest hpos =>
    obtain ⟨hsealed, hrest, whole, part, hcontents, hrows, hpart⟩ := h.rows
    obtain ⟨-, hend, hrow, hsmall⟩ := hok
    have hkept := hsealed.moves h (@Moves.finish format _ journal row _ hpos) (fun h => by cases h)
    have hactive : (disk.write journal.file rest).1.active =
        some (disk.write journal.file rest).2.file := by
      rw [write_active, write_file]
      exact h.opened _ rfl
    refine ⟨hvalid, ids_write hids, ?_, hkept, ActiveRows.of_contents hactive ?_⟩
    · rintro _ ⟨⟩
      exact hactive
    · rw [write_file, hend.contents_write, hcontents, ByteArray.append_assoc, hpart]
      have hnext : satAddU64 journal.manifest.nextSequence 1 = journal.manifest.nextSequence + 1 := by
        rw [satAddU64]
        omega
      change FileRows format _ journal.manifest.activeStartSequence
        (satAddU64 journal.manifest.nextSequence 1)
      rw [hnext]
      exact hrows.append hrow (by omega)

end Layout

namespace JournalWriter

variable {format : TimeFormat} {w w' : JournalWriter} {m : JournalManifest}

/-- What holds in every state of the writer. -/
structure Sound (format : TimeFormat) (w : JournalWriter) : Prop where
  ok : StageOk w.disk w.written w.stage
  laid : Laid format w.disk w.stage

/-- The step that a writer takes. -/
theorem step_moves {e : WriterEvent} (h : w.step format e = some w') :
    (∃ step disk stage, e = .proxy step ∧ Moves format w.disk w.stage step disk stage ∧
      w' = ⟨disk, stage, w.written ++ (w.stage.completed stage).toList⟩) ∨
    ∃ journal, w.stage = .ready journal ∧ w' = { w with stage := .launched } := by
  cases e with
  | proxy step =>
    obtain ⟨⟨disk, stage⟩, hstep, rfl⟩ := Option.map_eq_some_iff.mp h
    exact .inl ⟨step, disk, stage, rfl, Stage.step_moves hstep, rfl⟩
  | relaunch =>
    simp only [step] at h
    split at h
    · cases hstage : w.stage with
      | ready journal => exact .inr ⟨journal, rfl, (Option.some.inj h).symm⟩
      | _ =>
        have hready : w.stage.isReady = true := ‹_›
        rw [hstage] at hready
        cases hready
    · cases h

theorem Fits.mayAppend {step : ProxyStep} (h : w.Fits (.proxy step)) (timestamp : Instant)
    (stream : LogStream) (line : String) (hstep : step = .append timestamp stream line) :
    w.stage.mayAppend = true := by
  subst hstep
  exact h

theorem Sound.step {e : WriterEvent} (h : w.Sound format) (hfits : w.Fits e)
    (hstep : w.step format e = some w') : w'.Sound format := by
  rcases step_moves hstep with ⟨step, disk, stage, rfl, hmove, rfl⟩ | ⟨journal, hready, rfl⟩
  · exact ⟨(h.ok.moves h.laid.valid hfits.mayAppend hmove).1,
      h.laid.moves h.ok hfits.mayAppend hmove⟩
  · have hok := h.ok
    have hlaid := h.laid
    rw [hready] at hok hlaid
    have hstored := hok.stored rfl
    refine ⟨hstored, hlaid.valid, hlaid.ids, fun _ h => (by cases h), ?_⟩
    have hrows := hlaid.rows
    have hmanifest : w.disk.manifest.getD {} = journal.manifest := by
      rw [hok.1]
      rfl
    change Sealed format w.disk (w.disk.manifest.getD {}).sealedSegments
      (w.disk.manifest.getD {}).activeStartSequence ∧
        ActiveRows format w.disk (w.disk.manifest.getD {})
    rw [hmanifest]
    exact hrows

theorem sound_empty : Sound format {} where
  ok := ⟨⟨rfl, rfl, Nat.le_refl 1, Nat.one_pos, fun _ h => absurd h List.not_mem_nil⟩,
    fun h => absurd rfl h⟩
  laid := ⟨fun _ h => (by cases h), fun _ h => absurd h List.not_mem_nil, fun _ h => (by cases h),
    ⟨trivial, fun _ h => absurd h List.not_mem_nil⟩, fun _ h => (by cases h), fun _ => rfl⟩

/-- A manifest that has been stored at some time. -/
structure Known (format : TimeFormat) (w : JournalWriter) (m : JournalManifest) : Prop where
  sealed : Sealed format w.disk m.sealedSegments m.activeStartSequence
  start : m.activeStartSequence ≤ (w.stage.manifest w.disk).activeStartSequence
  high : m.highWatermark ≤ lastNumber w.written

end JournalWriter

end LogProxy

end Supervisor
