import Supervisor.JournalLayout

namespace Supervisor

section Remove

variable {format : TimeFormat} {first : ℕ} {published rows : List LogLine}
  {disk disk' : JournalDisk} {files : List FileLines} {m : JournalManifest}

theorem Layout.of_files (h : Layout format first published disk files rows)
    (hheld : ∀ file ∈ files, ∃ contents, (file.1, contents) ∈ disk'.segments ∧
      readJournal format contents = .ok file.2)
    (hunique : KeyedRows.Unique Prod.fst disk'.segments)
    (hactive : disk'.active.getD ByteArray.empty = disk.active.getD ByteArray.empty) :
    Layout format first published disk' files rows := by
  refine ⟨h.numbered, h.small, h.kept, hheld, h.named, hunique, ?_⟩
  rw [hactive]
  exact h.active

/-- The files without some segments. -/
def JournalDisk.without (disk : JournalDisk) (gone : List SegmentFile) : JournalDisk :=
  { disk with segments := disk.segments.filter fun segment => segment.1 ∉ gone }

theorem JournalDisk.without_nil (disk : JournalDisk) : disk.without [] = disk := by
  have hall : (disk.segments.filter fun segment => segment.1 ∉ ([] : List SegmentFile)) =
      disk.segments := List.filter_eq_self.mpr fun _ _ => by simp
  unfold without
  rw [hall]

theorem JournalDisk.apply_removeSegment (disk : JournalDisk) (file : SegmentFile) :
    disk.apply (.removeSegment file) = disk.without [file] := by
  have hfilter : disk.withoutSegment file =
      disk.segments.filter fun segment => segment.1 ∉ [file] := by
    apply List.filter_congr
    intro segment _
    simp
  show { disk with segments := disk.withoutSegment file } = disk.without [file]
  rw [hfilter]
  rfl

theorem JournalDisk.without_without (disk : JournalDisk) (gone more : List SegmentFile) :
    (disk.without gone).without more = disk.without (gone ++ more) := by
  unfold without
  dsimp only
  rw [List.filter_filter]
  congr 2
  funext segment
  simp [Bool.and_comm]

theorem Layout.without (h : Layout format first published disk files rows)
    {gone : List SegmentFile} (hgone : ∀ file ∈ files, file.1 ∉ gone) :
    Layout format first published (disk.without gone) files rows := by
  apply h.of_files
  · intro file hfile
    obtain ⟨contents, hcontents, hread⟩ := h.held file hfile
    refine ⟨contents, List.mem_filter.mpr ⟨hcontents, ?_⟩, hread⟩
    simpa using hgone file hfile
  · exact h.unique.filter _
  · rfl

theorem Behind.without (h : Behind first published disk m files rows) (gone : List SegmentFile) :
    Behind first published (disk.without gone) m files rows := by
  refine { h with complete := ?_ }
  intro segment hsegment
  exact h.complete segment (List.mem_filter.mp hsegment).1

/-- The files of a fold of removals, and those before each of them. -/
theorem removeSegments (deleted : List SegmentFile) (w : Writing) :
    let w' := deleted.foldl (fun w file => w.write (.removeSegment file)) w
    w'.disk = w.disk.without deleted ∧ w'.overwritten = w.overwritten ∧
      ∀ d ∈ w'.before, d ∈ w.before ∨ ∃ gone ⊆ deleted, d = w.disk.without gone := by
  induction deleted generalizing w with
  | nil => exact ⟨(JournalDisk.without_nil _).symm, rfl, fun d hd => .inl hd⟩
  | cons file deleted ih =>
    intro w'
    obtain ⟨hdisk, hoverwritten, hbefore⟩ := ih (w.write (.removeSegment file))
    have hfirst : (w.write (.removeSegment file)).disk = w.disk.without [file] :=
      w.disk.apply_removeSegment file
    rw [hfirst] at hdisk hbefore
    refine ⟨?_, ?_, ?_⟩
    · exact hdisk.trans (JournalDisk.without_without _ [file] deleted)
    · exact hoverwritten.trans (Bool.or_false _)
    · intro d hd
      rcases hbefore d hd with hd | ⟨gone, hgone, rfl⟩
      · rcases List.mem_append.mp hd with hd | hd
        · exact .inl hd
        · refine .inr ⟨[], List.nil_subset _, ?_⟩
          rw [List.mem_singleton.mp hd, JournalDisk.without_nil]
      · refine .inr ⟨file :: gone, List.cons_subset_cons _ hgone, ?_⟩
        exact JournalDisk.without_without _ [file] gone

end Remove

section Adopt

variable {format : TimeFormat} {first : ℕ} {published rows : List LogLine} {disk : JournalDisk}
  {files : List FileLines} {m m' : JournalManifest} {now : Instant}

/-- A manifest while segments are taken up. -/
structure Adopting (first : ℕ) (published : List LogLine) (files : List FileLines)
    (m : JournalManifest) : Prop where
  describes : ∀ segment ∈ m.sealedSegments, ∃ file ∈ files, Describes segment file
  unique : KeyedRows.Unique SegmentMeta.filename m.sealedSegments
  next : m.nextSequence ≤ nextNumber first published
  watermark : m.highWatermark + 1 = m.nextSequence

/-- What taking up segments changes of a manifest. -/
structure Adopted (files : List FileLines) (m m' : JournalManifest) : Prop where
  fields : m' = { m with
    sealedSegments := m'.sealedSegments
    highWatermark := m'.highWatermark
    nextSequence := m'.nextSequence }
  names : ∀ name ∈ m.sealedSegments.map SegmentMeta.filename,
    name ∈ m'.sealedSegments.map SegmentMeta.filename
  next : m.nextSequence ≤ m'.nextSequence
  /-- The lines of a segment that has been taken up are counted. -/
  counted : ∀ file ∈ files, file.1 ∈ m'.sealedSegments.map SegmentMeta.filename →
    file.1 ∈ m.sealedSegments.map SegmentMeta.filename ∨
      ∀ line, file.2.getLast? = some line → line.sequence + 1 ≤ m'.nextSequence

theorem Adopted.refl : Adopted files m m := ⟨rfl, fun _ h => h, le_refl _, fun _ _ h => .inl h⟩

theorem Adopted.trans {m'' : JournalManifest} (h : Adopted files m m')
    (h' : Adopted files m' m'') : Adopted files m m'' := by
  refine ⟨?_, fun name hname => h'.names name (h.names name hname), h.next.trans h'.next, ?_⟩
  · rw [h'.fields, h.fields]
  · intro file hfile hname
    rcases h'.counted file hfile hname with hname | hcounted
    · refine (h.counted file hfile hname).imp_right ?_
      intro hcounted line hline
      exact (hcounted line hline).trans h'.next
    · exact .inr hcounted

theorem Layout.file_of_segment (h : Layout format first published disk files rows)
    {segment : SegmentFile × ByteArray} (hsegment : segment ∈ disk.segments)
    (hname : segment.1 ∈ files.map Prod.fst) :
    ∃ file ∈ files, file.1 = segment.1 ∧ readJournal format segment.2 = .ok file.2 := by
  obtain ⟨file, hfile, hname⟩ := List.mem_map.mp hname
  obtain ⟨contents, hcontents, hread⟩ := h.held file hfile
  have hsame : (file.1, contents) = segment := h.unique.eq_of_key hcontents hsegment hname
  exact ⟨file, hfile, hname, hsame ▸ hread⟩

theorem Layout.last_of_file (h : Layout format first published disk files rows)
    {file : FileLines} (hfile : file ∈ files) :
    ∃ line, file.2.getLast? = some line ∧ line.sequence < nextNumber first published ∧
      satAddU64 line.sequence 1 = line.sequence + 1 := by
  obtain ⟨head, hhead, -⟩ := h.head hfile
  have hline := List.getLast?_eq_some_getLast (List.ne_nil_of_mem hhead)
  generalize file.2.getLast (List.ne_nil_of_mem hhead) = line at hline
  have hkept : line ∈ files.flatMap Prod.snd ++ rows :=
    List.mem_append_left _ (List.mem_flatMap.mpr ⟨file, hfile, List.mem_of_getLast? hline⟩)
  have hlt := h.lt_next hkept
  have hsmall : nextNumber first published < 2^64 := h.small
  refine ⟨line, hline, hlt, ?_⟩
  unfold satAddU64
  omega

/-- One segment. -/
theorem adoptSegment_ok (h : Layout format first published disk files rows)
    (hm : Adopting first published files m) {segment : SegmentFile × ByteArray}
    (hsegment : segment ∈ disk.segments) (hname : segment.1 ∈ files.map Prod.fst) :
    ∃ m', adoptSegment format now m segment = .ok m' ∧ Adopting first published files m' ∧
      Adopted files m m' ∧ segment.1 ∈ m'.sealedSegments.map SegmentMeta.filename := by
  unfold adoptSegment
  split
  · rename_i hany
    obtain ⟨known, hknown, hfilename⟩ := List.any_eq_true.mp hany
    exact ⟨m, rfl, hm, .refl, List.mem_map.mpr ⟨known, hknown, of_decide_eq_true hfilename⟩⟩
  · rename_i hany
    have hnew : segment.1 ∉ m.sealedSegments.map SegmentMeta.filename := by
      intro hmem
      obtain ⟨known, hknown, hfilename⟩ := List.mem_map.mp hmem
      exact hany (List.any_eq_true.mpr ⟨known, hknown, decide_eq_true hfilename⟩)
    obtain ⟨file, hfile, hfilename, hread⟩ := h.file_of_segment hsegment hname
    obtain ⟨line, hline, hlt, hsat⟩ := h.last_of_file hfile
    rw [hread]
    refine ⟨_, rfl, ?_⟩
    dsimp only
    rw [hline]
    refine ⟨?_, ?_, ?_⟩
    · constructor
      case describes =>
        intro known hknown
        rcases List.mem_append.mp hknown with hknown | hknown
        · exact hm.describes known hknown
        · rw [List.mem_singleton.mp hknown]
          refine ⟨file, hfile, hfilename.symm, ?_, ?_⟩
          · rw [h.named file hfile]
            rfl
          · rw [hline]
            rfl
      case unique =>
        apply hm.unique.append
        intro known hknown hsame
        exact hnew (List.mem_map.mpr ⟨known, hknown, hsame⟩)
      case next =>
        dsimp only
        rw [hsat]
        exact max_le hm.next hlt
      case watermark =>
        dsimp only
        rw [hsat, ← hm.watermark]
        omega
    · refine ⟨rfl, ?_, le_max_left _ _, ?_⟩
      · intro name hname
        rw [List.map_append]
        exact List.mem_append_left _ hname
      · intro file' hfile' hname'
        rw [List.map_append] at hname'
        rcases List.mem_append.mp hname' with hold | hadded
        · exact .inl hold
        · right
          intro line' hline'
          have hsame := h.names_nodup.eq_of_key hfile' hfile
            ((List.mem_singleton.mp hadded).trans hfilename.symm)
          rw [hsame, hline] at hline'
          obtain rfl := Option.some.inj hline'
          dsimp only
          rw [hsat]
          exact le_max_right _ _
    · rw [List.map_append]
      exact List.mem_append_right _ (List.mem_singleton_self _)

/-- All segments, one after another. -/
theorem foldlM_adoptSegment (h : Layout format first published disk files rows)
    (hm : Adopting first published files m) {segments : List (SegmentFile × ByteArray)}
    (hsegments : ∀ segment ∈ segments,
      segment ∈ disk.segments ∧ segment.1 ∈ files.map Prod.fst) :
    ∃ m', segments.foldlM (adoptSegment format now) m = .ok m' ∧
      Adopting first published files m' ∧ Adopted files m m' ∧
      ∀ segment ∈ segments, segment.1 ∈ m'.sealedSegments.map SegmentMeta.filename := by
  induction segments generalizing m with
  | nil => exact ⟨m, rfl, hm, .refl, fun _ h => absurd h List.not_mem_nil⟩
  | cons segment segments ih =>
    obtain ⟨hin, hname⟩ := hsegments segment List.mem_cons_self
    obtain ⟨between, hadopt, hbetween, hfirst, hnamed⟩ :=
      @adoptSegment_ok _ _ _ _ _ _ _ now h hm _ hin hname
    obtain ⟨m', hfold, hm', hrest, hnames⟩ :=
      ih hbetween fun segment hs => hsegments segment (List.mem_cons_of_mem _ hs)
    refine ⟨m', ?_, hm', hfirst.trans hrest, ?_⟩
    · rw [List.foldlM_cons, hadopt]
      exact hfold
    · intro other hother
      rcases List.mem_cons.mp hother with rfl | hother
      · exact hrest.names _ hnamed
      · exact hnames other hother

end Adopt

section Order

variable {files : List FileLines} {segments : List SegmentMeta}

theorem describes_of_names (hd : ∀ segment ∈ segments, ∃ file ∈ files, Describes segment file)
    (hu : KeyedRows.Unique Prod.fst files)
    (hnames : segments.map SegmentMeta.filename = files.map Prod.fst) :
    List.Forall₂ Describes segments files := by
  have hlength : segments.length = files.length := by
    simpa using congrArg List.length hnames
  rw [List.forall₂_iff_get]
  refine ⟨hlength, ?_⟩
  intro i hi hi'
  obtain ⟨file, hfile, hdescribes⟩ := hd _ (List.get_mem segments ⟨i, hi⟩)
  have hname : (segments.get ⟨i, hi⟩).filename = (files.get ⟨i, hi'⟩).1 := by
    have hget := congrArg (fun names : List SegmentFile => names[i]?) hnames
    simpa [hi, hi'] using hget
  have hsame : file = files.get ⟨i, hi'⟩ :=
    hu.eq_of_key hfile (List.get_mem files ⟨i, hi'⟩) (hdescribes.filename.symm.trans hname)
  rw [← hsame]
  exact hdescribes

/-- Sorted, the entries are in the order of the files. -/
theorem describes_sortSegments
    (hd : ∀ segment ∈ segments, ∃ file ∈ files, Describes segment file)
    (hu : KeyedRows.Unique SegmentMeta.filename segments)
    (hall : ∀ file ∈ files, file.1 ∈ segments.map SegmentMeta.filename)
    (hfiles : (files.map Prod.fst).Pairwise (· < ·)) :
    List.Forall₂ Describes (sortSegments segments) files := by
  have hperm : (sortSegments segments).Perm segments := List.perm_insertionSort _ _
  have hd' : ∀ segment ∈ sortSegments segments, ∃ file ∈ files, Describes segment file :=
    fun segment hsegment => hd segment (hperm.mem_iff.mp hsegment)
  have hsorted : ((sortSegments segments).map SegmentMeta.filename).Pairwise (· ≤ ·) := by
    have htotal : Std.Total fun a b : SegmentMeta => a.firstSequence ≤ b.firstSequence :=
      ⟨fun _ _ => Nat.le_total _ _⟩
    have htrans : IsTrans SegmentMeta fun a b => a.firstSequence ≤ b.firstSequence :=
      ⟨fun _ _ _ => Nat.le_trans⟩
    have hfirst : (sortSegments segments).Pairwise fun a b => a.firstSequence ≤ b.firstSequence :=
      List.pairwise_insertionSort _ _
    rw [List.pairwise_map]
    apply hfirst.imp_of_mem
    intro a b ha hb hab
    obtain ⟨x, -, hx⟩ := hd' a ha
    obtain ⟨y, -, hy⟩ := hd' b hb
    rw [hx.filename, hy.filename, ← hx.first, ← hy.first]
    exact hab
  have hmem (name : SegmentFile) : name ∈ (sortSegments segments).map SegmentMeta.filename ↔
      name ∈ files.map Prod.fst := by
    rw [(hperm.map SegmentMeta.filename).mem_iff]
    constructor
    · intro hname
      obtain ⟨segment, hsegment, rfl⟩ := List.mem_map.mp hname
      obtain ⟨file, hfile, hdescribes⟩ := hd segment hsegment
      exact hdescribes.filename ▸ List.mem_map_of_mem hfile
    · intro hname
      obtain ⟨file, hfile, rfl⟩ := List.mem_map.mp hname
      exact hall file hfile
  have hnodup : ((sortSegments segments).map SegmentMeta.filename).Nodup :=
    (hperm.map SegmentMeta.filename).nodup_iff.mpr hu
  have hunique : KeyedRows.Unique Prod.fst files := hfiles.imp Nat.ne_of_lt
  apply describes_of_names hd' hunique
  have hnames := (List.perm_ext_iff_of_nodup hnodup hunique).mpr hmem
  exact hnames.eq_of_pairwise (fun a b _ _ hab hba => le_antisymm hab hba) hsorted
    (hfiles.imp le_of_lt)

end Order

section Repair

variable {format : TimeFormat} {first : ℕ} {published rows : List LogLine} {w : Writing}
  {disk : JournalDisk} {files : List FileLines} {m : JournalManifest} {now : Instant}

theorem withActive_fields (m : JournalManifest) (rows : List LogLine) :
    m.withActive rows = { m with
      activeStartSequence := (rows.head?.map LogLine.sequence).getD m.activeStartSequence
      highWatermark := (m.withActive rows).highWatermark
      nextSequence := (m.withActive rows).nextSequence } := by
  unfold JournalManifest.withActive
  cases rows.head? <;> cases rows.getLast? <;> rfl

/-- The lines of the active file are counted. -/
theorem Behind.withActive (hm : Behind first published disk m files rows)
    (h : Layout format first published disk files rows) :
    (m.withActive rows).nextSequence ≤ nextNumber first published ∧
      m.nextSequence ≤ (m.withActive rows).nextSequence ∧
      (m.withActive rows).highWatermark + 1 = (m.withActive rows).nextSequence ∧
      (rows ≠ [] → (m.withActive rows).nextSequence = nextNumber first published) := by
  have hnext := hm.next
  have hwatermark := hm.watermark
  have hsmall : nextNumber first published < 2^64 := h.small
  cases hlast : rows.getLast? with
  | none =>
    rw [List.getLast?_eq_none_iff] at hlast
    subst hlast
    exact ⟨hm.next, le_refl _, hm.watermark, fun hne => absurd rfl hne⟩
  | some last =>
    have hsequence := h.last_row hlast
    have hsat : satAddU64 last.sequence 1 = nextNumber first published := by
      unfold satAddU64
      omega
    have hnext' : (m.withActive rows).nextSequence = nextNumber first published := by
      have hmax : (m.withActive rows).nextSequence =
          max m.nextSequence (satAddU64 last.sequence 1) := by
        unfold JournalManifest.withActive
        rw [hlast]
        cases rows.head? <;> rfl
      rw [hmax, hsat]
      exact max_eq_right hnext
    have hhigh : (m.withActive rows).highWatermark = max m.highWatermark last.sequence := by
      unfold JournalManifest.withActive
      rw [hlast]
      cases rows.head? <;> rfl
    rw [hnext', hhigh]
    refine ⟨le_refl _, hnext, ?_, fun _ => rfl⟩
    omega

/-- A repair makes a manifest up to date. -/
theorem repairManifest_ok (h : Layout format first published w.disk files rows)
    (hm : Behind first published w.disk m files rows) :
    ∃ m', (repairManifest format w m now).2 = .ok m' ∧
      (repairManifest format w m now).1 =
        m.deletedSegments.foldl (fun w file => w.write (.removeSegment file)) w ∧
      Current format first published (w.disk.without m.deletedSegments) m' files rows := by
  obtain ⟨hdisk, -, -⟩ := removeSegments m.deletedSegments w
  have hlayout := h.without hm.kept
  have hbehind := hm.without m.deletedSegments
  -- only segments with lines to keep are left
  have hsegments : ∀ segment ∈ (w.disk.without m.deletedSegments).segments,
      segment.1 ∈ files.map Prod.fst := by
    intro segment hsegment
    obtain ⟨hsegment, hkept⟩ := List.mem_filter.mp hsegment
    exact (hm.complete segment hsegment).resolve_right (of_decide_eq_true hkept)
  have hcleared : Behind first published (w.disk.without m.deletedSegments)
      { m with deletedSegments := [] } files rows :=
    { hbehind with
      complete := fun segment hsegment => .inl (hsegments segment hsegment)
      kept := fun _ _ => List.not_mem_nil }
  obtain ⟨hle, hge, hwatermark, hrows⟩ := hcleared.withActive hlayout
  have hfields := withActive_fields { m with deletedSegments := [] } rows
  have hsealed : (JournalManifest.withActive { m with deletedSegments := [] } rows).sealedSegments =
      m.sealedSegments := by
    rw [hfields]
  have hadopting : Adopting first published files
      { JournalManifest.withActive { m with deletedSegments := [] } rows with
        activeByteLen := (w.disk.without m.deletedSegments).activeSize } := by
    refine ⟨?_, ?_, hle, hwatermark⟩
    · intro segment hsegment
      exact hm.describes segment (hsealed ▸ hsegment)
    · show KeyedRows.Unique SegmentMeta.filename
        (JournalManifest.withActive { m with deletedSegments := [] } rows).sealedSegments
      rw [hsealed]
      exact hm.unique
  obtain ⟨m', hfold, hm', hadopted, hnames⟩ := @foldlM_adoptSegment _ _ _ _ _ _ _ now hlayout
    hadopting ((w.disk.without m.deletedSegments).segments)
    (fun segment hsegment => ⟨hsegment, hsegments segment hsegment⟩)
  have hall : ∀ file ∈ files, file.1 ∈ m'.sealedSegments.map SegmentMeta.filename := by
    intro file hfile
    obtain ⟨contents, hcontents, -⟩ := hlayout.held file hfile
    exact hnames _ hcontents
  have hnext : m'.nextSequence = nextNumber first published := by
    apply le_antisymm hm'.next
    rcases hm.counted with hcounted | hne | ⟨file, hfile, hnew⟩
    · rw [← hcounted]
      exact hge.trans hadopted.next
    · rw [← hrows hne]
      exact hadopted.next
    · by_cases hne : rows = []
      · have hmem := List.mem_of_getLast? hfile
        obtain ⟨line, hline, -, -⟩ := hlayout.last_of_file hmem
        rw [← hlayout.last_file hne hfile hline]
        rcases hadopted.counted file hmem (hall file hmem) with hold | hcounted
        · obtain ⟨segment, hsegment, hname⟩ := List.mem_map.mp hold
          exact absurd hname (hnew segment (hsealed ▸ hsegment))
        · exact hcounted line hline
      · rw [← hrows hne]
        exact hadopted.next
  have hdescribes := describes_sortSegments hm'.describes hm'.unique hall hlayout.names_ascending
  have hread := hlayout.readActive
  unfold repairManifest
  dsimp only
  rw [hdisk, hread]
  dsimp only
  rw [hfold]
  dsimp only
  have hfields' := hadopted.fields
  rw [hfields] at hfields'
  have hstart : m'.activeStartSequence =
      (rows.head?.map LogLine.sequence).getD m.activeStartSequence := by
    rw [hfields']
  have hdeleted : m'.deletedSegments = [] := by
    rw [hfields']
  have hsize : m'.activeByteLen = (w.disk.without m.deletedSegments).activeSize := by
    rw [hfields']
  cases hactive : (w.disk.without m.deletedSegments).active with
  | some contents =>
    refine ⟨_, rfl, rfl, hlayout, hdescribes, hsegments, hnext, hm'.watermark, hdeleted, hsize, ?_⟩
    by_cases hne : rows = []
    · refine (hm.start hne).imp_right ?_
      intro hcounted
      subst hne
      exact hstart.trans (hcounted.trans hnext.symm)
    · right
      obtain ⟨line, others, rfl⟩ := List.exists_cons_of_ne_nil hne
      exact hstart
  | none =>
    have hempty : rows = [] := by
      have hread' := hread
      unfold JournalDisk.readActive at hread'
      rw [hactive] at hread'
      exact (Except.ok.inj hread').symm
    have hsize' : (w.disk.without m.deletedSegments).activeSize = 0 := by
      unfold JournalDisk.activeSize
      rw [hactive]
    refine ⟨_, rfl, rfl, hlayout, hdescribes, hsegments, hnext, hm'.watermark, hdeleted,
      hsize'.symm, .inr ?_⟩
    subst hempty
    rfl

end Repair

end Supervisor
