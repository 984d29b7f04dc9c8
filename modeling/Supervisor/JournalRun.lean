import Supervisor.JournalCalls

namespace Supervisor

section Tail

variable {format : TimeFormat} {first : ℕ} {published rows : List LogLine} {disk : JournalDisk}
  {files : List FileLines} {m : JournalManifest} {query : TailQuery}

theorem TailQuery.not_selects {cursor : ℕ} (hcursor : query.afterSequence = some cursor)
    {line : LogLine} (hline : line.sequence ≤ cursor) : query.selects line = false := by
  unfold selects
  rw [hcursor, Option.all_some, decide_eq_false (Nat.not_lt.mpr hline), Bool.and_false]

theorem TailQuery.filter_passed {cursor : ℕ} (hcursor : query.afterSequence = some cursor)
    {lines : List LogLine} (hlines : ∀ line ∈ lines, line.sequence ≤ cursor) :
    lines.filter query.selects = [] := by
  rw [List.filter_eq_nil_iff]
  intro line hline
  rw [query.not_selects hcursor (hlines line hline)]
  exact Bool.false_ne_true

theorem Layout.readSegment (h : Layout format first published disk files rows) {file : FileLines}
    (hfile : file ∈ files) : disk.readSegment format file.1 = .ok file.2 := by
  obtain ⟨contents, hcontents, hread⟩ := h.held file hfile
  have hfound : (disk.segments.find? fun segment => segment.1 = file.1) =
      some (file.1, contents) :=
    h.unique.find_of_mem hcontents
  unfold JournalDisk.readSegment
  rw [hfound]
  exact hread

/-- No line of a file comes after its last one. -/
theorem Layout.le_last (h : Layout format first published disk files rows) {file : FileLines}
    (hfile : file ∈ files) {segment : SegmentMeta} (hd : Describes segment file)
    {line : LogLine} (hline : line ∈ file.2) : line.sequence ≤ segment.lastSequence := by
  obtain ⟨last, hlast, hsequence⟩ := Option.map_eq_some_iff.mp hd.last
  rw [← hsequence]
  have hascending : file.2.Pairwise fun a b => a.sequence < b.sequence :=
    (List.pairwise_flatMap.mp (List.pairwise_append.mp h.kept_ascending).1).1 file hfile
  obtain ⟨init, hinit⟩ := List.getLast?_eq_some_iff.mp hlast
  rw [hinit] at hascending hline
  rcases List.mem_append.mp hline with hbefore | hin
  · exact ((List.pairwise_append.mp hascending).2.2 line hbefore last
      (List.mem_singleton_self _)).le
  · rw [List.mem_singleton.mp hin]

/-- What is read of the segments has every line that is asked for. -/
theorem Layout.readSealed (h : Layout format first published disk files rows)
    {segments : List SegmentMeta} {held : List FileLines}
    (hd : List.Forall₂ Describes segments held) (hin : ∀ file ∈ held, file ∈ files) :
    ∃ lines, disk.readSealed format query segments = .ok lines ∧
      lines.filter query.selects = (held.flatMap Prod.snd).filter query.selects := by
  induction hd with
  | nil => exact ⟨[], rfl, rfl⟩
  | @cons segment file segments held hfile _ ih =>
    have hmem : file ∈ files := hin file List.mem_cons_self
    obtain ⟨lines, hread, hlines⟩ := ih fun other ho => hin other (List.mem_cons_of_mem _ ho)
    unfold JournalDisk.readSealed
    split
    · rename_i hpassed
      obtain ⟨cursor, hcursor, hle⟩ := (Option.any_eq_true _ _).mp hpassed
      refine ⟨lines, hread, ?_⟩
      have hnone : file.2.filter query.selects = [] := query.filter_passed hcursor
        fun line hline => (h.le_last hmem hfile hline).trans (of_decide_eq_true hle)
      rw [List.flatMap_cons, List.filter_append, hlines, hnone, List.nil_append]
    · refine ⟨file.2 ++ lines, ?_, ?_⟩
      · rw [hfile.filename, h.readSegment hmem, hread]
        rfl
      · rw [List.flatMap_cons, List.filter_append, List.filter_append, hlines]

/-- A reader gets what the kept lines give. -/
theorem Current.tailFrom (h : Current format first published disk m files rows) :
    tailFrom format disk m query =
      snapshot (files.flatMap Prod.snd ++ rows) query m.highWatermark
        m.earliestRetainedSequence := by
  obtain ⟨sealed, hsealed, hfilter⟩ :=
    @Layout.readSealed _ _ _ _ _ _ query h.layout _ _ h.describes fun _ hfile => hfile
  have hdurable : ∃ active, snapshotDurable format disk m query =
      .ok (snapshot (sealed ++ active) query m.highWatermark m.earliestRetainedSequence) ∧
      active.filter query.selects = rows.filter query.selects := by
    unfold snapshotDurable
    rw [hsealed]
    by_cases hall : (query.afterSequence.all fun cursor => cursor < m.highWatermark) = true
    · refine ⟨rows, ?_, rfl⟩
      simp only [hall, h.layout.readActive]
      rfl
    · refine ⟨[], ?_, ?_⟩
      · simp only [hall]
        rfl
      · cases hcursor : query.afterSequence with
        | none => exact absurd (by rw [hcursor]; rfl) hall
        | some cursor =>
          rw [hcursor, Option.all_some, decide_eq_true_iff, Nat.not_lt] at hall
          refine (query.filter_passed hcursor ?_).symm
          intro line hline
          have hlt := h.layout.lt_next (List.mem_append_right _ hline)
          have hwatermark := h.watermark
          rw [h.next] at hwatermark
          omega
  obtain ⟨active, hdurable, hfilter'⟩ := hdurable
  unfold Supervisor.tailFrom
  rw [hdurable]
  show snapshot (sealed ++ active) query m.highWatermark m.earliestRetainedSequence = _
  unfold snapshot
  rw [List.filter_append, hfilter, hfilter', ← List.filter_append]

theorem Current.earliestRetained (h : Current format first published disk m files rows) :
    m.earliestRetainedSequence =
      (files.flatMap Prod.snd ++ rows).head?.map LogLine.sequence := by
  have hdescribes := h.describes
  unfold JournalManifest.earliestRetainedSequence
  cases hsegments : m.sealedSegments with
  | cons segment rest =>
    rw [hsegments] at hdescribes
    obtain ⟨file, others, hfirst, -, hfiles⟩ := List.forall₂_cons_left_iff.mp hdescribes
    obtain ⟨line, hline, hsequence⟩ :=
      Option.map_eq_some_iff.mp (h.layout.named file (hfiles ▸ List.mem_cons_self))
    rw [hfiles, List.flatMap_cons, List.append_assoc, List.head?_append, hline]
    show some segment.firstSequence = some line.sequence
    rw [hfirst.first, hsequence]
  | nil =>
    rw [hsegments] at hdescribes
    have hfiles : files = [] := List.forall₂_nil_left_iff.mp hdescribes
    have hstart : StartsRight m rows m.nextSequence := h.start.resolve_left fun hne => hne hfiles
    have hwatermark := h.watermark
    unfold StartsRight at hstart
    rw [hfiles, List.flatMap_nil, List.nil_append]
    cases rows with
    | nil =>
      have hnone : ¬m.activeStartSequence ≤ m.highWatermark := by
        rw [hstart]
        show ¬m.nextSequence ≤ m.highWatermark
        omega
      rw [List.head?_nil]
      exact if_neg hnone
    | cons line others =>
      have hlt := h.layout.lt_next (List.mem_append_right _ List.mem_cons_self)
      have hsome : m.activeStartSequence ≤ m.highWatermark := by
        rw [hstart]
        show line.sequence ≤ m.highWatermark
        rw [← h.next] at hlt
        omega
      rw [List.head?_cons]
      exact (if_pos hsome).trans (congrArg some hstart)

end Tail

/-- When a call loses no line: an older journal is not copied over a newer one, and the manifest
names the first line of the active file where that file is sealed or segments expire. -/
def JournalCall.Fits (format : TimeFormat) (policy : JournalPolicy) (isRun : Bool)
    (s : JournalState) : JournalCall → Prop
  | .initializeJournal repairedAt retainedAt =>
    s.disk.CopiesOnce ∧ ∀ m ∈ (repairStored format s.disk repairedAt).2.toOption,
      retains policy isRun m retainedAt = true →
        (repairStored format s.disk repairedAt).1.disk.StartsAtActive format m
  | .publish _ checkedAt _ => ∀ m ∈ s.memory, m.sealed = false → m.nextSequence + 1 < 2^64 ∧
      (shouldRollover policy m checkedAt = true → s.disk.StartsAtActive format m)
  | .sealRun now => ∀ m ∈ s.memory,
      retains policy true { m with sealed := true } now = true → s.disk.StartsAtActive format m

instance (format : TimeFormat) (policy : JournalPolicy) (isRun : Bool) (s : JournalState)
    (call : JournalCall) : Decidable (call.Fits format policy isRun s) := by
  cases call <;> unfold JournalCall.Fits <;> exact inferInstance

namespace JournalState

variable (format : TimeFormat) (policy : JournalPolicy) (isRun : Bool)

def Fits (s : JournalState) : JournalEvent → Prop
  | .call call => call.Fits format policy isRun s
  | .crash call _ => call.Fits format policy isRun s
  | .exit => True

instance (s : JournalState) (e : JournalEvent) : Decidable (s.Fits format policy isRun e) := by
  cases e <;> unfold Fits <;> exact inferInstance

/-- A journal without files of its own, or with one file of numbered lines. -/
structure Started (s : JournalState) : Prop where
  closed : s.memory = none
  manifest : s.disk.manifest = none
  segments : s.disk.segments = []
  lines : WholeFile format ((s.disk.active.or s.disk.legacy).getD ByteArray.empty) s.published
  numbered : NumberedFrom ((s.published.head?.map LogLine.sequence).getD 1) s.published
  small : (s.published.head?.map LogLine.sequence).getD 1 + s.published.length < 2^64
  intact : s.overwritten = false

/-- What a reader gets: the published lines without some of the first ones, from the earliest
line that is retained to the high watermark. -/
def Tails (s : JournalState) (m : JournalManifest) : Prop :=
  ∃ expired kept, s.published = expired ++ kept ∧ ∀ query,
    (tailFrom format s.disk m query).lines = query.lastLines (kept.filter query.selects) ∧
    (tailFrom format s.disk m query).earliestRetainedSequence =
      kept.head?.map LogLine.sequence ∧
    ∀ line ∈ s.published.getLast?,
      (tailFrom format s.disk m query).highWatermark = line.sequence

/-- No number is given to two lines, no segment is overwritten, and the lines are read back as
they were published. -/
structure Lossless (s : JournalState) : Prop where
  numbered : ∃ first, NumberedFrom first s.published
  intact : s.overwritten = false
  tails : ∀ m ∈ s.memory, s.Tails format m
  opens : s.memory = none → ∀ repairedAt retainedAt,
    (JournalCall.initializeJournal repairedAt retainedAt).Fits format policy isRun s →
      ∃ m, (initializeJournal format policy isRun s.disk repairedAt retainedAt).2 = .ok m
  publishes : ∀ m ∈ s.memory, m.sealed = false → ∀ line checkedAt rolledAt,
    (JournalCall.publish line checkedAt rolledAt).Fits format policy isRun s →
      ∃ m', (appendTo format policy isRun s.disk m line checkedAt rolledAt).2 =
        .ok (m', { line with sequence := m.nextSequence })

/-- The lines are in the files. -/
structure Kept (first : ℕ) (s : JournalState) : Prop where
  opened : ∀ m ∈ s.memory, ∃ files rows, Opened format first s.published s.disk m files rows
  recoverable : Recoverable format first s.published s.disk
  numbered : NumberedFrom first s.published
  intact : s.overwritten = false

variable {format policy isRun} {s t : JournalState} {first : ℕ}

theorem Started.kept (h : s.Started format) :
    s.Kept format ((s.published.head?.map LogLine.sequence).getD 1) := by
  refine ⟨?_, ⟨[], s.published, ?_, ?_⟩, h.numbered, h.intact⟩
  · intro m hm
    rw [h.closed] at hm
    cases hm
  · refine ⟨h.numbered, h.small, ⟨[], rfl⟩, ?_, ?_, ?_, ?_⟩
    · exact fun file hfile => absurd hfile List.not_mem_nil
    · exact fun file hfile => absurd hfile List.not_mem_nil
    · show KeyedRows.Unique Prod.fst s.disk.segments
      rw [h.segments]
      exact List.nodup_nil
    · have hlines := h.lines
      unfold JournalDisk.seen
      rw [h.manifest]
      exact hlines
  · rw [h.manifest]
    refine ⟨h.segments, rfl, ?_⟩
    intro hempty
    unfold nextNumber
    rw [hempty]
    rfl

theorem Kept.lossless (h : s.Kept format first) : s.Lossless format policy isRun := by
  refine ⟨⟨first, h.numbered⟩, h.intact, ?_, ?_, ?_⟩
  · intro m hm
    obtain ⟨files, rows, hopened⟩ := h.opened m hm
    obtain ⟨expired, hkept⟩ := hopened.layout.kept
    refine ⟨expired, files.flatMap Prod.snd ++ rows, hkept, ?_⟩
    intro query
    rw [hopened.tailFrom]
    refine ⟨rfl, hopened.earliestRetained, ?_⟩
    intro line hline
    show m.highWatermark = line.sequence
    obtain ⟨init, hinit⟩ := List.getLast?_eq_some_iff.mp hline
    have hnumbered := h.numbered
    have hnext := hopened.next
    have hwatermark := hopened.watermark
    unfold nextNumber at hnext
    rw [hinit, List.length_append, List.length_singleton] at hnext
    rw [hinit] at hnumbered
    have hsequence := hnumbered.last
    omega
  · intro _ repairedAt retainedAt hfits
    obtain ⟨m, files, rows, hok, -⟩ := initializeJournal_ok h.recoverable hfits.1 hfits.2
    exact ⟨m, hok⟩
  · intro m hm hsealed line checkedAt rolledAt hfits
    obtain ⟨files, rows, hopened⟩ := h.opened m hm
    obtain ⟨hsmall, hstart⟩ := hfits m hm hsealed
    obtain ⟨m', files', rows', hok, -⟩ :=
      @appendTo_ok _ _ _ _ _ _ _ _ _ line _ rolledAt hopened hsealed hsmall hstart
    exact ⟨m', hok⟩

/-- What a call writes, one line more where it publishes. -/
theorem perform_kept (h : s.Kept format first) {call : JournalCall}
    (hfits : call.Fits format policy isRun s) {w : Writing}
    (hperform : s.perform format policy isRun call = some (w, t)) :
    (∀ disk ∈ w.before, Recoverable format first s.published disk) ∧ w.overwritten = false ∧
      t.Kept format first := by
  cases call with
  | initializeJournal repairedAt retainedAt =>
    cases hmemory : s.memory with
    | some m => simp [perform, hmemory] at hperform
    | none =>
      obtain ⟨m, files, rows, hok, hopened, hsafe⟩ :=
        initializeJournal_ok h.recoverable hfits.1 hfits.2
      simp only [perform, hmemory, Option.some.injEq, Prod.mk.injEq] at hperform
      obtain ⟨rfl, rfl⟩ := hperform
      refine ⟨fun disk hdisk => (hsafe.before disk hdisk).resolve_left List.not_mem_nil,
        hsafe.overwritten, ?_, hopened.recoverable, h.numbered, h.intact⟩
      intro m' hm'
      rw [hok] at hm'
      obtain rfl := Option.some.inj hm'
      exact ⟨files, rows, hopened⟩
  | publish line checkedAt rolledAt =>
    cases hmemory : s.memory with
    | none => simp [perform, hmemory] at hperform
    | some m =>
      obtain ⟨files, rows, hopened⟩ := h.opened m hmemory
      simp only [perform, hmemory] at hperform
      by_cases hsealed : m.sealed = true
      · have hrefused : appendTo format policy isRun s.disk m line checkedAt rolledAt =
            (⟨s.disk, [], false⟩, .error .sealed) := by
          unfold appendTo
          rw [if_pos hsealed]
        rw [hrefused] at hperform
        simp only [Option.some.injEq, Prod.mk.injEq] at hperform
        obtain ⟨rfl, rfl⟩ := hperform
        refine ⟨fun _ hdisk => absurd hdisk List.not_mem_nil, rfl, ?_⟩
        exact { h with opened := fun m' hm' => h.opened m' (hmemory.trans hm') }
      · rw [Bool.not_eq_true] at hsealed
        obtain ⟨hsmall, hstart⟩ := hfits m hmemory hsealed
        obtain ⟨m', files', rows', hok, hopened', hbefore, hintact⟩ :=
          @appendTo_ok _ _ isRun _ _ _ _ _ _ line _ rolledAt hopened hsealed hsmall hstart
        generalize appendTo format policy isRun s.disk m line checkedAt rolledAt = appended at *
        obtain ⟨w', result⟩ := appended
        obtain rfl : result = .ok (m', { line with sequence := m.nextSequence }) := hok
        simp only [Option.some.injEq, Prod.mk.injEq] at hperform
        obtain ⟨rfl, rfl⟩ := hperform
        refine ⟨hbefore, hintact, ?_, hopened'.recoverable, h.numbered.concat hopened.next,
          h.intact⟩
        intro m'' hm''
        obtain rfl := Option.some.inj hm''
        exact ⟨files', rows', hopened'⟩
  | sealRun now =>
    cases hmemory : s.memory with
    | none => simp [perform, hmemory] at hperform
    | some m =>
      obtain ⟨files, rows, hopened⟩ := h.opened m hmemory
      obtain ⟨files', hopened', hsafe⟩ := sealRunTo_ok hopened (hfits m hmemory)
      simp only [perform, hmemory] at hperform
      by_cases hrun : isRun = true
      · rw [if_pos hrun] at hperform
        simp only [Option.some.injEq, Prod.mk.injEq] at hperform
        obtain ⟨rfl, rfl⟩ := hperform
        refine ⟨fun disk hdisk => (hsafe.before disk hdisk).resolve_left List.not_mem_nil,
          hsafe.overwritten, ?_, hopened'.recoverable, h.numbered, h.intact⟩
        intro m' hm'
        obtain rfl := Option.some.inj hm'
        exact ⟨files', rows, hopened'⟩
      · rw [if_neg hrun] at hperform
        cases hperform

/-- One event, whether a call, a crash inside one or an end between two. -/
theorem step_kept {e : JournalEvent} (h : s.Kept format first)
    (hfits : s.Fits format policy isRun e)
    (hstep : (machine format policy isRun).step s e = some t) : t.Kept format first := by
  cases e with
  | call call =>
    obtain ⟨⟨w, u⟩, hperform, rfl⟩ := Option.map_eq_some_iff.mp hstep
    obtain ⟨-, hintact, hkept⟩ := perform_kept h hfits hperform
    refine { hkept with intact := ?_ }
    show (s.overwritten || w.overwritten) = false
    rw [h.intact, hintact]
    rfl
  | crash call write =>
    obtain ⟨⟨w, u⟩, hperform, hcrash⟩ := Option.bind_eq_some_iff.mp hstep
    obtain ⟨hbefore, hintact, -⟩ := perform_kept h hfits hperform
    obtain ⟨disk, hdisk, rfl⟩ := Option.map_eq_some_iff.mp hcrash
    refine ⟨fun _ hm => absurd hm (Option.not_mem_none _), ?_, h.numbered, ?_⟩
    · exact hbefore disk (List.mem_of_getElem? hdisk)
    · show (s.overwritten || w.overwritten) = false
      rw [h.intact, hintact]
      rfl
  | exit =>
    obtain rfl := Option.some.inj hstep
    exact { h with opened := fun _ hm => absurd hm (Option.not_mem_none _) }

/-- Over any number of openings, published lines, rollovers and crashes, no line is lost, as long
as every call fits. -/
theorem run_lossless (hs : s.Started format)
    (h : (machine format policy isRun).Run (Fits format policy isRun) s t) :
    t.Lossless format policy isRun := by
  have hkept : t.Kept format ((s.published.head?.map LogLine.sequence).getD 1) :=
    h.invariant (fun _ _ _ hu hfits hstep => step_kept hu hfits hstep) hs.kept
  exact hkept.lossless

/-- Instants as the library prints them at the epoch; elsewhere only the distance is shown. -/
def epochFormat : TimeFormat where
  print t :=
    if t = 0 then "1970-01-01T00:00:00Z".toList
    else if 0 < t then '+' :: List.replicate t.natAbs '1'
    else '-' :: List.replicate t.natAbs '1'
  parse text :=
    match text with
    | '+' :: ones => some ones.length
    | '-' :: ones => some (-ones.length)
    | _ => some 0
  parse_print t := by
    by_cases hzero : t = 0
    · rw [if_pos hzero, hzero]
      rfl
    · rw [if_neg hzero]
      by_cases hpos : 0 < t
      · rw [if_pos hpos]
        simp only [List.length_replicate, Option.some.injEq]
        exact Int.natAbs_of_nonneg hpos.le
      · rw [if_neg hpos]
        simp only [List.length_replicate, Option.some.injEq]
        rw [Int.ofNat_natAbs_of_nonpos (not_lt.mp hpos), neg_neg]

/-- A policy that seals the active file as soon as it has a line, and keeps two segments. -/
def lineByLine : JournalPolicy where
  maxSegmentBytes := 1
  maxSegmentAge := 1
  maxSealedSegments := 2
  maxTotalBytes := 1000000

def textLine (text : String) : LogLine := ⟨0, 0, .stdout, text⟩

theorem started_empty : (⟨{}, none, [], false⟩ : JournalState).Started epochFormat :=
  ⟨rfl, rfl, rfl, wholeFile_empty, rfl, by decide, rfl⟩

/-- Lines published before and after a crash between the rename of a rollover and the creation of
the new active file. -/
theorem lineByLine_lossless : ∃ t : JournalState, t.Lossless epochFormat lineByLine false ∧
    t.published.map LogLine.sequence = [1, 2, 3, 4, 5] ∧ ∃ m ∈ t.memory,
      (tailFrom epochFormat t.disk m {}).lines.map LogLine.line = ["c", "d", "e"] := by
  obtain ⟨t, hrun, hp⟩ := Machine.exists_run_of_execUnder
    (M := machine epochFormat lineByLine false) (C := Fits epochFormat lineByLine false)
    (s := ⟨{}, none, [], false⟩)
    (fun t => t.published.map LogLine.sequence = [1, 2, 3, 4, 5] ∧ ∃ m ∈ t.memory,
      (tailFrom epochFormat t.disk m {}).lines.map LogLine.line = ["c", "d", "e"])
    [.call (.initializeJournal 0 0), .call (.publish (textLine "a") 0 0),
      .call (.publish (textLine "b") 0 0), .crash (.publish (textLine "c") 0 0) 2,
      .call (.initializeJournal 0 0), .call (.publish (textLine "c") 0 0),
      .call (.publish (textLine "d") 0 0), .call (.publish (textLine "e") 0 0)]
    (by decide +kernel)
  exact ⟨t, run_lossless started_empty hrun, of_decide_eq_true hp⟩

/-- A crash between the creation of the new active file and the manifest: the next rollover
overwrites the segment. -/
theorem lineByLine_overwritten : ∃ t : JournalState,
    (machine epochFormat lineByLine false).Reaches ⟨{}, none, [], false⟩ t ∧
    (∃ m ∈ t.memory, (tailFrom epochFormat t.disk m {}).lines.map LogLine.line = ["b", "b", "c"]) ∧
    t.overwritten = true ∧ ¬t.Lossless epochFormat lineByLine false := by
  obtain ⟨t, hrun, hp⟩ := Machine.exists_reaches_of_exec
    (M := machine epochFormat lineByLine false) (s := ⟨{}, none, [], false⟩)
    (fun t => (∃ m ∈ t.memory,
      (tailFrom epochFormat t.disk m {}).lines.map LogLine.line = ["b", "b", "c"]) ∧
        t.overwritten = true)
    [.call (.initializeJournal 0 0), .call (.publish (textLine "a") 0 0),
      .crash (.publish (textLine "b") 0 0) 3, .call (.initializeJournal 0 0),
      .call (.publish (textLine "b") 0 0), .call (.publish (textLine "c") 0 0)]
    (by decide +kernel)
  obtain ⟨htail, hoverwritten⟩ := of_decide_eq_true hp
  refine ⟨t, hrun, htail, hoverwritten, ?_⟩
  intro h
  exact absurd (hoverwritten.symm.trans h.intact) (by decide)

end JournalState

end Supervisor
