import Supervisor.JournalRecovery

namespace Supervisor

/-- An open journal: the manifest in memory is up to date, and the stored one tells the way. -/
structure Opened (format : TimeFormat) (first : ℕ) (published : List LogLine) (disk : JournalDisk)
    (m : JournalManifest) (files : List FileLines) (rows : List LogLine) : Prop extends
    Current format first published disk m files rows where
  stored : ∃ m₀, disk.manifest = some m₀ ∧ m₀.deletedSegments = [] ∧
    Behind first published disk m₀ files rows

section Open

variable {format : TimeFormat} {policy : JournalPolicy} {isRun : Bool} {first : ℕ}
  {published rows : List LogLine} {disk : JournalDisk} {files : List FileLines}
  {m : JournalManifest} {v w : Writing} {now repairedAt retainedAt : Instant}

theorem Opened.recoverable (h : Opened format first published disk m files rows) :
    Recoverable format first published disk := by
  obtain ⟨m₀, hstored, -, hbehind⟩ := h.stored
  exact recoverable_of_behind hstored h.layout hbehind

theorem Current.opened (h : Current format first published disk m files rows)
    (hstored : disk.manifest = some m) : Opened format first published disk m files rows :=
  { h with stored := ⟨m, hstored, h.deleted, h.behind⟩ }

theorem initializeJournal_ok (h : Recoverable format first published disk)
    (honce : disk.CopiesOnce)
    (hstart : ∀ m ∈ (repairStored format disk repairedAt).2.toOption,
      retains policy isRun m retainedAt = true →
        (repairStored format disk repairedAt).1.disk.StartsAtActive format m) :
    ∃ m files rows, (initializeJournal format policy isRun disk repairedAt retainedAt).2 = .ok m ∧
      Opened format first published
        (initializeJournal format policy isRun disk repairedAt retainedAt).1.disk m files rows ∧
      SafeWrites format first published ⟨disk, [], false⟩
        (initializeJournal format policy isRun disk repairedAt retainedAt).1 := by
  obtain ⟨m, files, rows, hok, hcurrent, hsafe⟩ := @repairStored_ok _ _ _ _ repairedAt h honce
  unfold initializeJournal
  generalize repairStored format disk repairedAt = repaired at *
  obtain ⟨w, result⟩ := repaired
  obtain rfl : result = .ok m := hok
  dsimp only
  have hright : retains policy isRun m retainedAt = true → StartsRight m rows m.nextSequence :=
    fun hretains => hcurrent.layout.startsRight (hstart m rfl hretains)
  obtain ⟨files', hcurrent', hsafe'⟩ := retainUnlessRunning_ok hcurrent hsafe hright
  rw [hcurrent'.layout.readActive]
  refine ⟨_, files', rows, rfl, ?_, hsafe'.write hcurrent'.recoverable id⟩
  exact (hcurrent'.writeManifest _).opened rfl

end Open

section Rollover

variable {format : TimeFormat} {policy : JournalPolicy} {isRun : Bool} {first : ℕ}
  {published rows : List LogLine} {disk : JournalDisk} {files : List FileLines}
  {m : JournalManifest} {v w : Writing} {now : Instant}

theorem JournalDisk.activeSize_eq (disk : JournalDisk) :
    disk.activeSize = (disk.active.getD ByteArray.empty).size := by
  unfold activeSize
  cases disk.active <;> rfl

theorem Opened.touchActive (h : Opened format first published disk m files rows) :
    Opened format first published (disk.apply .touchActive) m files rows := by
  obtain ⟨m₀, hstored, hdeleted, hbehind⟩ := h.stored
  have hlayout : Layout format first published (disk.apply .touchActive) files rows :=
    h.layout.of_files h.layout.held h.layout.unique rfl
  have hsize : m.activeByteLen = (disk.apply .touchActive).activeSize :=
    h.size.trans disk.activeSize_eq
  exact ⟨{ h.toCurrent with layout := hlayout, size := hsize },
    m₀, hstored, hdeleted, { hbehind with }⟩

/-- The active file becomes a segment under the number of its first line. -/
theorem Opened.renameActive (h : Opened format first published disk m files rows)
    {contents : ByteArray} (hactive : disk.active = some contents) {name : SegmentFile}
    (hname : rows.head?.map LogLine.sequence = some name) :
    ¬disk.Overwrites (.renameActive name) ∧
      Layout format first published (disk.apply (.renameActive name)) (files ++ [(name, rows)]) [] ∧
      (∀ segment ∈ (disk.apply (.renameActive name)).segments,
        segment.1 ∈ (files ++ [(name, rows)]).map Prod.fst) ∧
      ∃ m₀, disk.manifest = some m₀ ∧ m₀.deletedSegments = [] ∧
        Behind first published (disk.apply (.renameActive name)) m₀ (files ++ [(name, rows)]) [] := by
  obtain ⟨m₀, hstored, hdeleted, hbehind⟩ := h.stored
  obtain ⟨line, hline, hsequence⟩ := Option.map_eq_some_iff.mp hname
  -- its name is greater than the names of the segments
  have hnew : ∀ file ∈ files, file.1 ≠ name := by
    intro file hfile
    rw [← hsequence]
    exact Nat.ne_of_lt (h.layout.name_lt hfile (List.mem_of_head? hline))
  have hfree : name ∉ disk.segments.map Prod.fst := by
    intro hmem
    obtain ⟨segment, hsegment, hsame⟩ := List.mem_map.mp hmem
    obtain ⟨file, hfile, hfilename⟩ := List.mem_map.mp (h.complete segment hsegment)
    exact hnew file hfile (hfilename.trans hsame)
  have hothers : disk.withoutSegment name = disk.segments := by
    apply List.filter_eq_self.mpr
    intro segment hsegment
    apply decide_eq_true
    intro hsame
    exact hfree (hsame ▸ List.mem_map_of_mem hsegment)
  have hsegments : (disk.apply (.renameActive name)).segments =
      disk.segments ++ [(name, contents)] := by
    unfold JournalDisk.apply
    rw [hactive]
    dsimp only
    rw [hothers]
  have hgone : (disk.apply (.renameActive name)).active = none := by
    unfold JournalDisk.apply
    rw [hactive]
  have hread : readJournal format contents = .ok rows := by
    have hactiveFile := h.layout.active
    rw [hactive] at hactiveFile
    exact hactiveFile.readJournal
  have hcomplete : ∀ segment ∈ (disk.apply (.renameActive name)).segments,
      segment.1 ∈ (files ++ [(name, rows)]).map Prod.fst := by
    intro segment hsegment
    rw [hsegments] at hsegment
    rw [List.map_append]
    rcases List.mem_append.mp hsegment with hsegment | hsegment
    · exact List.mem_append_left _ (h.complete segment hsegment)
    · rw [List.mem_singleton.mp hsegment]
      exact List.mem_append_right _ (List.mem_singleton_self _)
  refine ⟨hfree, ?_, hcomplete, m₀, hstored, hdeleted, ?_⟩
  · obtain ⟨expired, hkept⟩ := h.layout.kept
    refine ⟨h.layout.numbered, h.layout.small, ⟨expired, ?_⟩, ?_, ?_, ?_, ?_⟩
    · rw [hkept, List.flatMap_append]
      simp
    · intro file hfile
      rw [hsegments]
      rcases List.mem_append.mp hfile with hfile | hfile
      · obtain ⟨held, hheld, hlines⟩ := h.layout.held file hfile
        exact ⟨held, List.mem_append_left _ hheld, hlines⟩
      · obtain rfl := List.mem_singleton.mp hfile
        exact ⟨contents, List.mem_append_right _ (List.mem_singleton_self _), hread⟩
    · intro file hfile
      rcases List.mem_append.mp hfile with hfile | hfile
      · exact h.layout.named file hfile
      · obtain rfl := List.mem_singleton.mp hfile
        exact hname
    · rw [hsegments]
      apply h.layout.unique.append
      intro segment hsegment hsame
      exact hfree (List.mem_map.mpr ⟨segment, hsegment, hsame⟩)
    · rw [hgone]
      exact wholeFile_empty
  · constructor
    case describes =>
      intro segment hsegment
      obtain ⟨file, hfile, hdescribes⟩ := hbehind.describes segment hsegment
      exact ⟨file, List.mem_append_left _ hfile, hdescribes⟩
    case unique => exact hbehind.unique
    case complete => exact fun segment hsegment => .inl (hcomplete segment hsegment)
    case kept =>
      intro file _
      rw [hdeleted]
      exact List.not_mem_nil
    case next => exact hbehind.next
    case watermark => exact hbehind.watermark
    case counted =>
      right
      right
      refine ⟨(name, rows), List.getLast?_concat, ?_⟩
      intro segment hsegment
      obtain ⟨file, hfile, hdescribes⟩ := hbehind.describes segment hsegment
      rw [hdescribes.filename]
      exact hnew file hfile
    case start => exact fun _ => .inl (List.append_ne_nil_of_right_ne_nil _ (List.cons_ne_nil _ _))

/-- A new active file, and the segments that have expired. -/
theorem freshActive_ok {m₀ : JournalManifest}
    (hlayout : Layout format first published w.disk files [])
    (hcomplete : ∀ segment ∈ w.disk.segments, segment.1 ∈ files.map Prod.fst)
    (hstored : w.disk.manifest = some m₀) (hbehind : Behind first published w.disk m₀ files [])
    (hdescribes : List.Forall₂ Describes m.sealedSegments files)
    (hnext : m.nextSequence = nextNumber first published)
    (hwatermark : m.highWatermark + 1 = m.nextSequence) (hdeleted : m.deletedSegments = [])
    (hsafe : SafeWrites format first published v w) :
    let m' := { m with
      activeStartSequence := m.nextSequence, activeCreatedAt := now, activeByteLen := 0 }
    let retained :=
      retainUnlessRunning policy isRun (w.write (.setActive ByteArray.empty)) m' now
    ∃ files', Opened format first published (retained.1.write (.writeManifest retained.2)).disk
        retained.2 files' [] ∧
      SafeWrites format first published v (retained.1.write (.writeManifest retained.2)) := by
  intro m' retained
  have hlayout' : Layout format first published (w.write (.setActive ByteArray.empty)).disk files
      [] := { hlayout with active := wholeFile_empty }
  have hbehind' : Behind first published (w.write (.setActive ByteArray.empty)).disk m₀ files [] :=
    { hbehind with }
  have hcurrent : Current format first published (w.write (.setActive ByteArray.empty)).disk m'
      files [] :=
    ⟨hlayout', hdescribes, hcomplete, hnext, hwatermark, hdeleted, rfl, .inr rfl⟩
  have hsafe' := @SafeWrites.write _ _ _ _ _ hsafe (.setActive ByteArray.empty)
    (recoverable_of_behind hstored hlayout' hbehind') id
  obtain ⟨files', hretained, hsafe''⟩ := @retainUnlessRunning_ok _ policy _ _ _ _ _ _ _ now isRun
    hcurrent hsafe' fun _ => rfl
  refine ⟨files', ?_, hsafe''.write hretained.recoverable id⟩
  exact (hretained.writeManifest _).opened rfl

/-- A rollover of an active file that starts with the line the manifest names. -/
theorem rollover_ok (h : Opened format first published disk m files rows)
    (hstart : StartsRight m rows m.nextSequence) :
    ∃ m' files', (rollover format policy isRun ⟨disk, [], false⟩ m now).2 = .ok m' ∧
      Opened format first published (rollover format policy isRun ⟨disk, [], false⟩ m now).1.disk
        m' files' [] ∧
      SafeWrites format first published ⟨disk, [], false⟩
        (rollover format policy isRun ⟨disk, [], false⟩ m now).1 := by
  have htouched := h.touchActive
  have hsafe : SafeWrites format first published ⟨disk, [], false⟩
      ((⟨disk, [], false⟩ : Writing).write .touchActive) :=
    (SafeWrites.refl h.recoverable).write htouched.recoverable id
  have hread : ((⟨disk, [], false⟩ : Writing).write .touchActive).disk.readActive format =
      .ok rows := htouched.layout.readActive
  unfold rollover
  dsimp only
  rw [hread]
  dsimp only
  cases hlast : rows.getLast? with
  | none =>
    obtain rfl := List.getLast?_eq_none_iff.mp hlast
    obtain ⟨m₀, hstored, -, hbehind⟩ := htouched.stored
    obtain ⟨files', hopened, hsafe'⟩ := @freshActive_ok _ policy isRun _ _ _ _ _ _ now _
      htouched.layout htouched.complete hstored hbehind h.describes h.next h.watermark h.deleted
      hsafe
    exact ⟨_, files', rfl, hopened, hsafe'⟩
  | some last =>
    have hne : rows ≠ [] := List.ne_nil_of_mem (List.mem_of_getLast? hlast)
    have hname : rows.head?.map LogLine.sequence = some m.activeStartSequence := by
      obtain ⟨line, others, rfl⟩ := List.exists_cons_of_ne_nil hne
      exact congrArg some hstart.symm
    have hactive : (disk.apply .touchActive).active = some (disk.active.getD ByteArray.empty) := rfl
    obtain ⟨hfree, hlayout, hcomplete, m₀, hstored, -, hbehind⟩ :=
      htouched.renameActive hactive hname
    have hrenamed : (((disk.apply .touchActive).apply
        (.renameActive m.activeStartSequence)).manifest) = some m₀ := by
      rw [← hstored]
      unfold JournalDisk.apply
      rfl
    have hsafe' := @SafeWrites.write _ _ _ _ _ hsafe (.renameActive m.activeStartSequence)
      (recoverable_of_behind hrenamed hlayout hbehind) hfree
    have hdescribes : List.Forall₂ Describes
        (m.sealedSegments ++ [{
          filename := m.activeStartSequence
          firstSequence := (rows.head?.map LogLine.sequence).getD m.activeStartSequence
          lastSequence := last.sequence
          createdAt := m.activeCreatedAt
          sealedAt := now
          byteLen := m.activeByteLen }])
        (files ++ [(m.activeStartSequence, rows)]) := by
      apply List.rel_append h.describes
      refine .cons ⟨rfl, ?_, ?_⟩ .nil
      · dsimp only
        rw [hname]
        rfl
      · dsimp only
        rw [hlast]
        rfl
    obtain ⟨files', hopened, hsafe''⟩ := @freshActive_ok _ policy isRun _ _ _
      ({ m with sealedSegments := _ }) _ _ now _ hlayout hcomplete hrenamed hbehind hdescribes
      h.next h.watermark h.deleted hsafe'
    exact ⟨_, files', rfl, hopened, hsafe''⟩

end Rollover

section Publish

variable {format : TimeFormat} {policy : JournalPolicy} {isRun : Bool} {first : ℕ}
  {published rows : List LogLine} {disk : JournalDisk} {files : List FileLines}
  {m : JournalManifest} {line : LogLine} {now checkedAt rolledAt : Instant}

theorem satAddU64_one {n : ℕ} (h : n + 1 < 2^64) : satAddU64 n 1 = n + 1 := by
  unfold satAddU64
  omega

/-- The line is appended with the next number. -/
theorem Opened.append (h : Opened format first published disk m files rows)
    (hline : line.sequence = nextNumber first published)
    (hsmall : nextNumber first published + 1 < 2^64) :
    Opened format first (published ++ [line])
      (disk.apply (.appendActive (persistedBytes format line)))
      { m with
        activeByteLen := m.activeByteLen + (persistedBytes format line).size
        highWatermark := line.sequence
        nextSequence := satAddU64 line.sequence 1 }
      files (rows ++ [line]) := by
  obtain ⟨m₀, hstored, hdeleted, hbehind⟩ := h.stored
  have hnext : nextNumber first (published ++ [line]) = nextNumber first published + 1 := by
    unfold nextNumber
    rw [List.length_append, List.length_singleton, Nat.add_assoc]
  have hsat : satAddU64 line.sequence 1 = nextNumber first published + 1 := by
    rw [hline, satAddU64_one hsmall]
  have hlayout : Layout format first (published ++ [line])
      (disk.apply (.appendActive (persistedBytes format line))) files (rows ++ [line]) := by
    obtain ⟨expired, hkept⟩ := h.layout.kept
    refine ⟨h.layout.numbered.concat hline, ?_, ⟨expired, ?_⟩, h.layout.held, h.layout.named,
      h.layout.unique, ?_⟩
    · rw [← hnext] at hsmall
      exact hsmall
    · rw [hkept, List.append_assoc, List.append_assoc]
    · apply h.layout.active.persist
      rw [hline]
      exact Nat.lt_of_succ_lt hsmall
  refine ⟨⟨hlayout, h.describes, h.complete, hsat.trans hnext.symm, ?_, h.deleted, ?_, ?_⟩,
    m₀, hstored, hdeleted, ?_⟩
  · dsimp only
    rw [hsat, hline]
  · show m.activeByteLen + (persistedBytes format line).size = JournalDisk.activeSize _
    rw [JournalDisk.activeSize_eq, h.size, JournalDisk.activeSize_eq]
    exact ByteArray.size_append.symm
  · refine h.start.imp_right ?_
    intro hstart
    unfold StartsRight at hstart ⊢
    cases rows with
    | nil => exact hstart.trans (h.next.trans hline.symm)
    | cons head others => exact hstart
  · refine { hbehind with next := ?_, counted := .inr (.inl ?_), start := ?_ }
    · rw [hnext]
      exact Nat.le_succ_of_le hbehind.next
    · exact List.append_ne_nil_of_right_ne_nil _ (List.cons_ne_nil _ _)
    · exact fun hrows => absurd hrows (List.append_ne_nil_of_right_ne_nil _ (List.cons_ne_nil _ _))

theorem rolloverIfDue_ok (h : Opened format first published disk m files rows)
    (hstart : shouldRollover policy m checkedAt = true → disk.StartsAtActive format m) :
    ∃ m' files' rows',
      (rolloverIfDue format policy isRun disk m checkedAt rolledAt).2 = .ok m' ∧
      Opened format first published
        (rolloverIfDue format policy isRun disk m checkedAt rolledAt).1.disk m' files' rows' ∧
      SafeWrites format first published ⟨disk, [], false⟩
        (rolloverIfDue format policy isRun disk m checkedAt rolledAt).1 := by
  unfold rolloverIfDue
  by_cases hdue : shouldRollover policy m checkedAt = true
  · rw [if_pos hdue]
    obtain ⟨m', files', hok, hopened, hsafe⟩ := @rollover_ok _ policy isRun _ _ _ _ _ _ rolledAt h
      (h.layout.startsRight (hstart hdue))
    exact ⟨m', files', [], hok, hopened, hsafe⟩
  · rw [if_neg hdue]
    exact ⟨m, files, rows, rfl, h, .refl h.recoverable⟩

theorem appendTo_ok (h : Opened format first published disk m files rows)
    (hsealed : m.sealed = false) (hsmall : m.nextSequence + 1 < 2^64)
    (hstart : shouldRollover policy m checkedAt = true → disk.StartsAtActive format m) :
    ∃ m' files' rows',
      (appendTo format policy isRun disk m line checkedAt rolledAt).2 =
        .ok (m', { line with sequence := m.nextSequence }) ∧
      Opened format first (published ++ [{ line with sequence := m.nextSequence }])
        (appendTo format policy isRun disk m line checkedAt rolledAt).1.disk m' files' rows' ∧
      (∀ d ∈ (appendTo format policy isRun disk m line checkedAt rolledAt).1.before,
        Recoverable format first published d) ∧
      (appendTo format policy isRun disk m line checkedAt rolledAt).1.overwritten = false := by
  obtain ⟨m', files', rows', hok, hopened, hsafe⟩ :=
    @rolloverIfDue_ok _ _ isRun _ _ _ _ _ _ _ rolledAt h hstart
  have hnext : m'.nextSequence = m.nextSequence := hopened.next.trans h.next.symm
  unfold appendTo
  rw [hsealed, if_neg Bool.false_ne_true]
  generalize rolloverIfDue format policy isRun disk m checkedAt rolledAt = rolled at *
  obtain ⟨w, result⟩ := rolled
  obtain rfl : result = .ok m' := hok
  dsimp only
  rw [hnext]
  rw [h.next] at hsmall
  refine ⟨_, files', rows' ++ [{ line with sequence := m.nextSequence }], rfl,
    hopened.append h.next hsmall, ?_, ?_⟩
  · intro d hd
    rcases List.mem_append.mp hd with hd | hd
    · exact (hsafe.before d hd).resolve_left List.not_mem_nil
    · rw [List.mem_singleton.mp hd]
      exact hopened.recoverable
  · show (w.overwritten || false) = false
    rw [Bool.or_false]
    exact hsafe.overwritten

end Publish

section Seal

variable {format : TimeFormat} {policy : JournalPolicy} {first : ℕ}
  {published rows : List LogLine} {disk : JournalDisk} {files : List FileLines}
  {m : JournalManifest} {w : Writing} {now : Instant}

theorem retain_stored (segments : List SegmentMeta) (total : ℕ) (h : w.disk.manifest = some m) :
    (retain policy now segments total w m).1.disk.manifest =
      some (retain policy now segments total w m).2 := by
  induction segments generalizing w m total with
  | nil => exact h
  | cons segment rest ih =>
    unfold retain
    split
    · exact ih _ rfl
    · exact h

theorem sealRunTo_ok (h : Opened format first published disk m files rows)
    (hstart : retains policy true { m with sealed := true } now = true →
      disk.StartsAtActive format m) :
    ∃ files', Opened format first published (sealRunTo policy disk m now).1.disk
        (sealRunTo policy disk m now).2 files' rows ∧
      SafeWrites format first published ⟨disk, [], false⟩ (sealRunTo policy disk m now).1 := by
  have htouched := h.touchActive
  have hcurrent : Current format first published (disk.apply .touchActive)
      { m with sealed := true } files rows := { htouched.toCurrent with }
  have hsafe : SafeWrites format first published ⟨disk, [], false⟩
      (((⟨disk, [], false⟩ : Writing).write .touchActive).write
        (.writeManifest { m with sealed := true })) :=
    ((SafeWrites.refl h.recoverable).write htouched.recoverable id).write hcurrent.recoverable id
  obtain ⟨files', hretained, hsafe'⟩ := @enforceRetention_ok _ policy _ _ _ _
    ({ m with sealed := true }) _ _ now (hcurrent.writeManifest { m with sealed := true }) hsafe
    fun hexpires => h.layout.startsRight (hstart hexpires)
  exact ⟨files', hretained.opened (retain_stored _ _ rfl), hsafe'⟩

end Seal

end Supervisor
