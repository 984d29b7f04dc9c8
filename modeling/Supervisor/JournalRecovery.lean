import Supervisor.JournalRepair

namespace Supervisor

section Recoverable

variable {format : TimeFormat} {first : ℕ} {published rows : List LogLine}
  {disk : JournalDisk} {files : List FileLines} {m : JournalManifest}

theorem JournalDisk.seen_of_manifest (h : disk.manifest = some m) : disk.seen = disk := by
  obtain ⟨active, legacy, manifest, segments⟩ := disk
  obtain rfl : manifest = some m := h
  cases active <;> rfl

theorem JournalDisk.seen_seen (disk : JournalDisk) : disk.seen.seen = disk.seen := by
  obtain ⟨active, legacy, manifest, segments⟩ := disk
  cases active <;> cases legacy <;> cases manifest <;> rfl

theorem Recoverable.seen (h : Recoverable format first published disk) :
    Recoverable format first published disk.seen := by
  obtain ⟨files, rows, hlayout, hmanifest⟩ := h
  refine ⟨files, rows, ?_, ?_⟩
  · rw [disk.seen_seen]
    exact hlayout
  · simp only [JournalDisk.seen_seen]
    exact hmanifest

theorem recoverable_of_behind (hmanifest : disk.manifest = some m)
    (h : Layout format first published disk files rows)
    (hm : Behind first published disk m files rows) : Recoverable format first published disk := by
  refine ⟨files, rows, ?_, ?_⟩
  · rw [JournalDisk.seen_of_manifest hmanifest]
    exact h
  · rw [hmanifest, JournalDisk.seen_of_manifest hmanifest]
    exact hm

theorem Current.recoverable (h : Current format first published disk m files rows) :
    Recoverable format first published (disk.apply (.writeManifest m)) := by
  have hlayout : Layout format first published (disk.apply (.writeManifest m)) files rows :=
    h.layout.of_files h.layout.held h.layout.unique rfl
  have hbehind := h.behind
  exact recoverable_of_behind rfl hlayout { hbehind with }

theorem Current.writeManifest (h : Current format first published disk m files rows)
    (m' : JournalManifest) :
    Current format first published (disk.apply (.writeManifest m')) m files rows :=
  { h with layout := h.layout.of_files h.layout.held h.layout.unique rfl }

end Recoverable

section Writes

variable {format : TimeFormat} {first : ℕ} {published : List LogLine} {v w : Writing}

/-- Writes between which no line is lost, and none of which overwrites a segment. -/
structure SafeWrites (format : TimeFormat) (first : ℕ) (published : List LogLine)
    (v w : Writing) : Prop where
  before : ∀ disk ∈ w.before, disk ∈ v.before ∨ Recoverable format first published disk
  overwritten : w.overwritten = v.overwritten
  recoverable : Recoverable format first published w.disk

theorem SafeWrites.refl (h : Recoverable format first published w.disk) :
    SafeWrites format first published w w :=
  ⟨fun _ hd => .inl hd, rfl, h⟩

theorem SafeWrites.write (h : SafeWrites format first published v w) {write : DiskWrite}
    (hwrite : Recoverable format first published (w.disk.apply write))
    (hkeeps : ¬w.disk.Overwrites write) :
    SafeWrites format first published v (w.write write) := by
  refine ⟨?_, ?_, hwrite⟩
  · intro disk hdisk
    rcases List.mem_append.mp hdisk with hdisk | hdisk
    · exact h.before disk hdisk
    · rw [List.mem_singleton.mp hdisk]
      exact .inr h.recoverable
  · show (w.overwritten || decide (w.disk.Overwrites write)) = v.overwritten
    rw [decide_eq_false hkeeps, Bool.or_false, h.overwritten]

theorem SafeWrites.trans {u : Writing} (h : SafeWrites format first published u v)
    (h' : SafeWrites format first published v w) : SafeWrites format first published u w := by
  refine ⟨?_, h'.overwritten.trans h.overwritten, h'.recoverable⟩
  intro disk hdisk
  rcases h'.before disk hdisk with hold | hrecoverable
  · exact h.before disk hold
  · exact .inr hrecoverable

end Writes

section Retention

variable {format : TimeFormat} {policy : JournalPolicy} {first : ℕ}
  {published rows : List LogLine} {disk : JournalDisk} {files : List FileLines}
  {file : FileLines} {segment : SegmentMeta} {m : JournalManifest} {v w : Writing} {now : Instant}

theorem Layout.tail (h : Layout format first published disk (file :: files) rows) :
    Layout format first published disk files rows := by
  obtain ⟨expired, hkept⟩ := h.kept
  refine ⟨h.numbered, h.small, ⟨expired ++ file.2, ?_⟩, ?_, ?_, h.unique, h.active⟩
  · rw [hkept, List.flatMap_cons, List.append_assoc, List.append_assoc]
  · exact fun other hother => h.held other (List.mem_cons_of_mem _ hother)
  · exact fun other hother => h.named other (List.mem_cons_of_mem _ hother)

/-- What is known after the first segment has been taken out of the manifest. -/
theorem Current.tombstone (h : Current format first published disk m (file :: files) rows)
    {rest : List SegmentMeta} (hsealed : m.sealedSegments = segment :: rest)
    (hstart : StartsRight m rows m.nextSequence) :
    List.Forall₂ Describes rest files ∧ segment.filename = file.1 ∧
      (∀ other ∈ files, other.1 ≠ file.1) ∧
      Behind first published disk { m with
        sealedSegments := rest
        deletedSegments := m.deletedSegments ++ [segment.filename] } files rows := by
  have hdescribes := h.describes
  rw [hsealed] at hdescribes
  obtain ⟨hfirst, hrest⟩ := List.forall₂_cons.mp hdescribes
  have hother : ∀ other ∈ files, other.1 ≠ file.1 := by
    intro other hother hsame
    obtain ⟨hnew, -⟩ := List.nodup_cons.mp h.layout.names_nodup
    exact hnew (hsame ▸ List.mem_map_of_mem hother)
  refine ⟨hrest, hfirst.filename, hother, ?_⟩
  constructor
  case describes => exact fun known hknown => exists_of_forall₂ hrest hknown
  case unique =>
    rw [KeyedRows.Unique, filenames_of_describes hrest]
    exact h.layout.tail.names_nodup
  case complete =>
    intro known hknown
    rcases List.mem_cons.mp (h.complete known hknown) with hsame | hin
    · right
      rw [hsame, hfirst.filename]
      exact List.mem_append_right _ (List.mem_singleton_self _)
    · exact .inl hin
  case kept =>
    intro other hin hdeleted
    rw [h.deleted, List.nil_append, List.mem_singleton, hfirst.filename] at hdeleted
    exact hother other hin hdeleted
  case next => exact h.next.le
  case watermark => exact h.watermark
  case counted => exact .inl h.next
  case start =>
    intro hrows
    right
    rw [hrows] at hstart
    exact hstart.trans h.next

/-- The first segment is removed, with a manifest before and one after it. -/
theorem Current.removeFirst (h : Current format first published w.disk m (file :: files) rows)
    (hsafe : SafeWrites format first published v w) {rest : List SegmentMeta}
    (hsealed : m.sealedSegments = segment :: rest)
    (hstart : StartsRight m rows m.nextSequence) :
    let m₁ := { m with
      sealedSegments := rest, deletedSegments := m.deletedSegments ++ [segment.filename] }
    let w₁ := (w.write (.writeManifest m₁)).write (.removeSegment segment.filename)
    let m₂ := { m₁ with
      deletedSegments := m₁.deletedSegments.filter fun file => file ≠ segment.filename }
    Current format first published (w₁.write (.writeManifest m₂)).disk m₂ files rows ∧
      SafeWrites format first published v (w₁.write (.writeManifest m₂)) := by
  intro m₁ w₁ m₂
  obtain ⟨hrest, hname, hother, hbehind⟩ := h.tombstone hsealed hstart
  -- first the manifest without the segment
  let disk₁ := w.disk.apply (.writeManifest m₁)
  have hlayout₁ : Layout format first published disk₁ files rows :=
    h.layout.tail.of_files h.layout.tail.held h.layout.unique rfl
  have hbehind₁ : Behind first published disk₁ m₁ files rows := { hbehind with }
  have hsafe₁ := @SafeWrites.write _ _ _ _ _ hsafe (.writeManifest m₁)
    (recoverable_of_behind rfl hlayout₁ hbehind₁) id
  -- then the files without it
  have hdisk₂ : disk₁.apply (.removeSegment segment.filename) = disk₁.without [file.1] := by
    rw [JournalDisk.apply_removeSegment, hname]
  have hlayout₂ := @Layout.without _ _ _ _ _ _ hlayout₁ [file.1]
    fun other hin => by simpa using hother other hin
  have hsafe₂ := @SafeWrites.write _ _ _ _ _ hsafe₁ (.removeSegment segment.filename) (by
      show Recoverable format first published (disk₁.apply (.removeSegment segment.filename))
      rw [hdisk₂]
      exact recoverable_of_behind rfl hlayout₂ (hbehind₁.without [file.1])) id
  have hcurrent : Current format first published w₁.disk m₂ files rows := by
    show Current format first published
      (disk₁.apply (.removeSegment segment.filename)) m₂ files rows
    rw [hdisk₂]
    refine ⟨hlayout₂, hrest, ?_, h.next, h.watermark, ?_, h.size, .inr hstart⟩
    · intro known hknown
      obtain ⟨hknown, hkept⟩ := List.mem_filter.mp hknown
      refine (List.mem_cons.mp (h.complete known hknown)).resolve_left ?_
      simpa using hkept
    · show (m.deletedSegments ++ [segment.filename]).filter (fun file => file ≠ segment.filename) = []
      rw [h.deleted]
      simp
  -- at last the manifest with nothing left to remove
  exact ⟨hcurrent.writeManifest m₂, hsafe₂.write hcurrent.recoverable id⟩

/-- Expired segments are removed without the loss of another line. -/
theorem retain_ok (segments : List SegmentMeta) (total : ℕ)
    (hsealed : m.sealedSegments = segments)
    (h : Current format first published w.disk m files rows)
    (hsafe : SafeWrites format first published v w)
    (hstart : (∃ segment rest, segments = segment :: rest ∧
      policy.expires segments total now segment = true) → StartsRight m rows m.nextSequence) :
    ∃ files', Current format first published (retain policy now segments total w m).1.disk
        (retain policy now segments total w m).2 files' rows ∧
      SafeWrites format first published v (retain policy now segments total w m).1 := by
  induction segments generalizing m w files total with
  | nil => exact ⟨files, h, hsafe⟩
  | cons segment rest ih =>
    unfold retain
    by_cases hexpires : policy.expires (segment :: rest) total now segment = true
    · rw [if_pos hexpires]
      have hright := hstart ⟨segment, rest, rfl, hexpires⟩
      cases files with
      | nil =>
        have hdescribes := h.describes
        rw [hsealed] at hdescribes
        cases hdescribes
      | cons file files =>
        obtain ⟨hnext, hsafe'⟩ := h.removeFirst hsafe hsealed hright
        exact ih _ rfl hnext hsafe' fun _ => hright
    · rw [if_neg hexpires]
      exact ⟨files, h, hsafe⟩

/-- Whether a segment is removed when the retention is enforced. -/
def retains (policy : JournalPolicy) (isRun : Bool) (m : JournalManifest) (now : Instant) : Bool :=
  (!isRun || m.sealed) &&
    m.sealedSegments.head?.any (policy.expires m.sealedSegments m.totalBytes now)

theorem enforceRetention_ok (h : Current format first published w.disk m files rows)
    (hsafe : SafeWrites format first published v w)
    (hstart : m.sealedSegments.head?.any (policy.expires m.sealedSegments m.totalBytes now) = true →
      StartsRight m rows m.nextSequence) :
    ∃ files', Current format first published (enforceRetention policy w m now).1.disk
        (enforceRetention policy w m now).2 files' rows ∧
      SafeWrites format first published v (enforceRetention policy w m now).1 := by
  apply retain_ok m.sealedSegments m.totalBytes rfl h hsafe
  rintro ⟨segment, rest, hsealed, hexpires⟩
  apply hstart
  rw [hsealed, List.head?_cons, Option.any_some, ← hsealed]
  exact hsealed ▸ hexpires

theorem retainUnlessRunning_ok {isRun : Bool}
    (h : Current format first published w.disk m files rows)
    (hsafe : SafeWrites format first published v w)
    (hstart : retains policy isRun m now = true → StartsRight m rows m.nextSequence) :
    ∃ files', Current format first published (retainUnlessRunning policy isRun w m now).1.disk
        (retainUnlessRunning policy isRun w m now).2 files' rows ∧
      SafeWrites format first published v (retainUnlessRunning policy isRun w m now).1 := by
  unfold retainUnlessRunning
  by_cases hdone : (!isRun || m.sealed) = true
  · rw [if_pos hdone]
    apply enforceRetention_ok h hsafe
    intro hexpires
    apply hstart
    rw [retains, hdone, hexpires]
    rfl
  · rw [if_neg hdone]
    exact ⟨files, h, hsafe⟩

end Retention

section Open

variable {format : TimeFormat} {policy : JournalPolicy} {isRun : Bool} {first : ℕ}
  {published rows : List LogLine} {disk : JournalDisk} {files : List FileLines}
  {m : JournalManifest} {v w : Writing} {now repairedAt retainedAt : Instant}

/-- The active file starts with the line that the manifest names. -/
def JournalDisk.StartsAtActive (format : TimeFormat) (disk : JournalDisk) (m : JournalManifest) :
    Prop :=
  ∀ rows ∈ (disk.readActive format).toOption, StartsRight m rows m.nextSequence

instance (format : TimeFormat) (disk : JournalDisk) (m : JournalManifest) :
    Decidable (disk.StartsAtActive format m) :=
  inferInstanceAs (Decidable (∀ rows ∈ (disk.readActive format).toOption,
    m.activeStartSequence = (rows.head?.map LogLine.sequence).getD m.nextSequence))

theorem Layout.startsRight (h : Layout format first published disk files rows)
    (hstart : disk.StartsAtActive format m) : StartsRight m rows m.nextSequence := by
  apply hstart
  rw [h.readActive]
  rfl

/-- An older journal is not copied over a newer one. -/
def JournalDisk.CopiesOnce (disk : JournalDisk) : Prop :=
  disk.active.isSome ∨ disk.legacy = none ∨ disk.manifest = none

instance (disk : JournalDisk) : Decidable disk.CopiesOnce := by
  unfold JournalDisk.CopiesOnce
  exact inferInstance

theorem migrateLegacyJournal_ok (h : Recoverable format first published disk)
    (honce : disk.CopiesOnce) :
    (migrateLegacyJournal ⟨disk, [], false⟩).disk = disk.seen ∧
      SafeWrites format first published ⟨disk, [], false⟩
        (migrateLegacyJournal ⟨disk, [], false⟩) := by
  have hseen := h.seen
  have hstill : SafeWrites format first published ⟨disk, [], false⟩ ⟨disk, [], false⟩ := .refl h
  obtain ⟨active, legacy, manifest, segments⟩ := disk
  unfold migrateLegacyJournal
  cases active with
  | some contents => exact ⟨rfl, hstill⟩
  | none =>
    cases legacy with
    | none =>
      refine ⟨?_, hstill⟩
      cases manifest <;> rfl
    | some contents =>
      rcases honce with hactive | hlegacy | hmanifest
      · cases hactive
      · cases hlegacy
      · obtain rfl : manifest = none := hmanifest
        exact ⟨rfl, @SafeWrites.write _ _ _ _ _ hstill (.setActive contents) hseen id⟩

/-- The removal of segments that a manifest has given up. -/
theorem SafeWrites.removals (hsafe : SafeWrites format first published v w)
    (hmanifest : w.disk.manifest = some m)
    (h : Layout format first published w.disk files rows)
    (hm : Behind first published w.disk m files rows) :
    SafeWrites format first published v
      (m.deletedSegments.foldl (fun w file => w.write (.removeSegment file)) w) := by
  have hwithout (gone : List SegmentFile) (hgone : gone ⊆ m.deletedSegments) :
      Recoverable format first published (w.disk.without gone) := by
    have hkept : ∀ file ∈ files, file.1 ∉ gone :=
      fun file hfile hin => hm.kept file hfile (hgone hin)
    exact recoverable_of_behind hmanifest (h.without hkept) (hm.without gone)
  obtain ⟨hdisk, hoverwritten, hbefore⟩ := removeSegments m.deletedSegments w
  apply hsafe.trans
  refine ⟨?_, hoverwritten, ?_⟩
  · intro d hd
    apply (hbefore d hd).imp_right
    rintro ⟨gone, hgone, rfl⟩
    exact hwithout gone hgone
  · rw [hdisk]
    exact hwithout _ (List.Subset.refl _)

/-- The manifest that the lines of a file without one give. -/
theorem rebuildManifest_ok (h : Layout format first published disk files rows)
    (hsegments : disk.segments = []) (hfiles : files = [])
    (hempty : rows = [] → nextNumber first published = 1) :
    ∃ m, rebuildManifest format disk now = .ok m ∧ m.deletedSegments = [] ∧
      Behind first published disk m files rows := by
  subst hfiles
  unfold rebuildManifest
  rw [h.readActive]
  refine ⟨_, rfl, ?_, ?_⟩
  · dsimp only
    cases rows.head? <;> cases rows.getLast? <;> rfl
  · cases rows with
    | nil =>
      refine ⟨?_, List.nodup_nil, ?_, ?_, ?_, rfl, .inl ?_, fun _ => .inr ?_⟩
      · exact fun _ hsegment => absurd hsegment List.not_mem_nil
      · exact fun segment hsegment => absurd (hsegments ▸ hsegment) List.not_mem_nil
      · exact fun _ hfile => absurd hfile List.not_mem_nil
      · exact (hempty rfl).ge
      · exact (hempty rfl).symm
      · exact (hempty rfl).symm
    | cons line others =>
      have hlast : (line :: others).getLast? = some ((line :: others).getLast (by simp)) :=
        List.getLast?_eq_some_getLast _
      generalize (line :: others).getLast (by simp) = last at hlast
      have hsequence := h.last_row hlast
      have hsmall : nextNumber first published < 2^64 := h.small
      have hsat : satAddU64 last.sequence 1 = nextNumber first published := by
        unfold satAddU64
        omega
      dsimp only
      rw [hlast, List.head?_cons]
      refine ⟨?_, List.nodup_nil, ?_, ?_, hsat.le, hsequence.trans hsat.symm, .inl hsat, ?_⟩
      · exact fun _ hsegment => absurd hsegment List.not_mem_nil
      · exact fun segment hsegment => absurd (hsegments ▸ hsegment) List.not_mem_nil
      · exact fun _ hfile => absurd hfile List.not_mem_nil
      · exact fun hrows => absurd hrows (List.cons_ne_nil _ _)

/-- The stored manifest, or a new one, is brought up to date. -/
theorem repairStored_ok (h : Recoverable format first published disk)
    (honce : disk.CopiesOnce) :
    ∃ m files rows, (repairStored format disk now).2 = .ok m ∧
      Current format first published (repairStored format disk now).1.disk m files rows ∧
      SafeWrites format first published ⟨disk, [], false⟩ (repairStored format disk now).1 := by
  obtain ⟨hdisk, hsafe⟩ := migrateLegacyJournal_ok h honce
  obtain ⟨files, rows, hlayout, hmanifest⟩ := h
  rw [← hdisk] at hlayout hmanifest
  have hstored : (migrateLegacyJournal ⟨disk, [], false⟩).disk.manifest = disk.manifest := by
    rw [hdisk]
    rfl
  unfold repairStored
  dsimp only
  rw [hstored]
  cases hm : disk.manifest with
  | some m =>
    rw [hm] at hmanifest hstored
    obtain ⟨m', hok, hwriting, hcurrent⟩ := @repairManifest_ok _ _ _ _ _ _ _ now hlayout hmanifest
    obtain ⟨hremoved, -, -⟩ :=
      removeSegments m.deletedSegments (migrateLegacyJournal ⟨disk, [], false⟩)
    refine ⟨m', files, rows, hok, ?_, ?_⟩
    · dsimp only
      rw [hwriting, hremoved]
      exact hcurrent
    · dsimp only
      rw [hwriting]
      exact hsafe.removals hstored hlayout hmanifest
  | none =>
    rw [hm] at hmanifest
    obtain ⟨hsegments, hfiles, hempty⟩ := hmanifest
    have hsegments' : (migrateLegacyJournal ⟨disk, [], false⟩).disk.segments = [] := by
      rw [hdisk]
      exact hsegments
    obtain ⟨m, hrebuilt, hdeleted, hbehind⟩ :=
      @rebuildManifest_ok _ _ _ _ _ _ now hlayout hsegments' hfiles hempty
    obtain ⟨m', hok, hwriting, hcurrent⟩ := @repairManifest_ok _ _ _ _ _ _ _ now hlayout hbehind
    rw [hdeleted, JournalDisk.without_nil] at hcurrent
    rw [hdeleted, List.foldl_nil] at hwriting
    dsimp only
    rw [hrebuilt]
    dsimp only
    rw [hwriting]
    exact ⟨m', files, rows, hok, hcurrent, hsafe⟩

end Open

end Supervisor
