import Supervisor.JournalCalls
import Supervisor.Transaction

namespace Supervisor

/-- A set of sealed segments, in the order of their lines -/
structure SealedSegments where
  segments : List SegmentMeta
  unique : KeyedRows.Unique SegmentMeta.filename segments
  sorted : segments.Pairwise fun a b => a.firstSequence ≤ b.firstSequence

/-- The bytes of a journal -/
def JournalManifest.bytes (m : JournalManifest) : ℕ :=
  m.activeByteLen + (m.sealedSegments.map SegmentMeta.byteLen).sum

def JournalManifest.names (m : JournalManifest) : List SegmentFile :=
  m.sealedSegments.map SegmentMeta.filename

def JournalDisk.names (disk : JournalDisk) : List SegmentFile := disk.segments.map Prod.fst

/-- The stored manifest does not name the segment, and its file is gone or is going to be removed. -/
def Buried (file : SegmentFile) (disk : JournalDisk) : Prop :=
  ∃ m, disk.manifest = some m ∧ file ∉ m.names ∧ (file ∈ m.deletedSegments ∨ file ∉ disk.names)

section Retain

/-- What the loop leaves and what it has written: after its first write, a removed segment is
buried. -/
theorem retain_spec (policy : JournalPolicy) (now : Instant) {segments : List SegmentMeta}
    (total : ℕ) (w : Writing) {m : JournalManifest}
    {r : Writing × JournalManifest} (hm : m.sealedSegments = segments)
    (hr : retain policy now segments total w m = r) :
    (∃ gone, segments = gone ++ r.2.sealedSegments ∧
      r.2.activeByteLen = m.activeByteLen ∧
      ∀ first ∈ r.2.sealedSegments.head?,
        policy.expires r.2.sealedSegments (total - (gone.map SegmentMeta.byteLen).sum) now first =
          false) ∧
    (∀ file, file ∉ w.disk.names → file ∉ r.1.disk.names) ∧
    ∃ later, r.1.before ++ [r.1.disk] = w.before ++ w.disk :: later ∧
      ∀ d ∈ later, ∃ md gone, d.manifest = some md ∧ segments = gone ++ md.sealedSegments ∧
        gone ≠ [] ∧ (∀ file, file ∉ w.disk.names → file ∉ d.names) ∧
        ∀ segment ∈ gone, segment.filename ∈ md.deletedSegments ∨ segment.filename ∉ d.names := by
  induction segments generalizing total w m with
  | nil =>
    subst hr
    refine ⟨⟨[], ?_, rfl, ?_⟩, fun _ h => h, [], rfl, fun d hd => absurd hd List.not_mem_nil⟩
    · exact hm.symm
    · intro first hfirst
      have hnone : m.sealedSegments.head? = none := congrArg List.head? hm
      change first ∈ m.sealedSegments.head? at hfirst
      rw [hnone] at hfirst
      cases hfirst
  | cons first rest ih =>
    unfold retain at hr
    split at hr
    case isFalse hkeep =>
      subst hr
      refine ⟨⟨[], hm.symm, rfl, ?_⟩, fun _ h => h, [], rfl, fun d hd => absurd hd List.not_mem_nil⟩
      intro segment hsegment
      rw [hm] at hsegment ⊢
      cases hsegment
      exact Bool.eq_false_iff.mpr hkeep
    case isTrue =>
      -- the manifest with the tombstone, the removal of the file, the manifest without it
      let buried : JournalManifest := { m with
        sealedSegments := rest, deletedSegments := m.deletedSegments ++ [first.filename] }
      let cleared : JournalManifest := { buried with
        deletedSegments := buried.deletedSegments.filter fun file => file ≠ first.filename }
      let d₁ := w.disk.apply (.writeManifest buried)
      let d₂ := d₁.apply (.removeSegment first.filename)
      let w' := ((w.write (.writeManifest buried)).write (.removeSegment first.filename)).write
        (.writeManifest cleared)
      have hfewer {file : SegmentFile} (h : file ∉ w.disk.names) : file ∉ w'.disk.names := by
        intro hfile
        obtain ⟨segment, hsegment, hname⟩ := List.mem_map.mp hfile
        exact h (List.mem_map.mpr ⟨segment, (List.mem_filter.mp hsegment).1, hname⟩)
      have hremoved : first.filename ∉ w'.disk.names := by
        intro hfile
        obtain ⟨segment, hsegment, hname⟩ := List.mem_map.mp hfile
        exact of_decide_eq_true (List.mem_filter.mp hsegment).2 hname
      obtain ⟨⟨gone, hgone, hactive, hstops⟩, hnames, later, hlater, hcrash⟩ :=
        ih _ w' (m := cleared) rfl hr
      refine ⟨⟨first :: gone, ?_, hactive, ?_⟩, fun file h => hnames file (hfewer h),
        d₁ :: d₂ :: w'.disk :: later, ?_, ?_⟩
      · exact congrArg (first :: ·) hgone
      · rw [List.map_cons, List.sum_cons, Nat.sub_add_eq]
        exact hstops
      · rw [hlater]
        change (w.before ++ [w.disk] ++ [d₁] ++ [d₂]) ++ w'.disk :: later = _
        rw [List.append_assoc, List.append_assoc, List.append_assoc]
        rfl
      · intro d hd
        simp only [List.mem_cons] at hd
        rcases hd with rfl | rfl | rfl | hd
        · refine ⟨buried, [first], rfl, rfl, List.cons_ne_nil _ _, fun _ h => h, ?_⟩
          intro segment hsegment
          rw [List.mem_singleton.mp hsegment]
          exact .inl (List.mem_append_right _ List.mem_cons_self)
        · refine ⟨buried, [first], rfl, rfl, List.cons_ne_nil _ _, fun _ h => hfewer h, ?_⟩
          intro segment hsegment
          rw [List.mem_singleton.mp hsegment]
          exact .inr hremoved
        · refine ⟨cleared, [first], rfl, rfl, List.cons_ne_nil _ _, fun _ h => hfewer h, ?_⟩
          intro segment hsegment
          rw [List.mem_singleton.mp hsegment]
          exact .inr hremoved
        · obtain ⟨md, more, hmd, hmore, -, hkept, htold⟩ := hcrash d hd
          refine ⟨md, first :: more, hmd, congrArg (first :: ·) hmore, List.cons_ne_nil _ _,
            fun file h => hkept file (hfewer h), ?_⟩
          intro segment hsegment
          rcases List.mem_cons.mp hsegment with rfl | hsegment
          · exact .inr (hkept _ hremoved)
          · exact htold segment hsegment

end Retain

section Reopen

variable {format : TimeFormat} {policy : JournalPolicy} {isRun : Bool} {file : SegmentFile}
  {disk d : JournalDisk} {w : Writing} {m m' : JournalManifest} {now repairedAt retainedAt : Instant}

theorem Buried.without (h : Buried file disk) (gone : List SegmentFile) :
    Buried file (disk.without gone) := by
  obtain ⟨m, hm, hnames, hgone⟩ := h
  refine ⟨m, hm, hnames, hgone.imp_right fun h hfile => ?_⟩
  obtain ⟨segment, hsegment, hname⟩ := List.mem_map.mp hfile
  exact h (List.mem_map.mpr ⟨segment, (List.mem_filter.mp hsegment).1, hname⟩)

/-- Only a file that is there is taken up. -/
theorem adoptSegment_names {segment : SegmentFile × ByteArray} (hsegment : segment.1 ≠ file)
    (hm : file ∉ m.names) (h : adoptSegment format now m segment = .ok m') : file ∉ m'.names := by
  unfold adoptSegment at h
  split at h
  · cases h
    exact hm
  · cases hread : readJournal format segment.2 with
    | error e =>
      rw [hread] at h
      cases h
    | ok rows =>
      rw [hread] at h
      cases h
      dsimp only
      split
      · exact hm
      · intro hfile
        unfold JournalManifest.names at hfile
        rw [List.map_append, List.mem_append, List.map_singleton, List.mem_singleton] at hfile
        rcases hfile with hfile | hfile
        · exact hm hfile
        · exact hsegment hfile.symm

theorem adoptSegments_names {segments : List (SegmentFile × ByteArray)}
    (hsegments : file ∉ segments.map Prod.fst) (hm : file ∉ m.names)
    (h : segments.foldlM (adoptSegment format now) m = .ok m') : file ∉ m'.names := by
  induction segments generalizing m with
  | nil =>
    cases h
    exact hm
  | cons segment segments ih =>
    rw [List.map_cons, List.mem_cons, not_or] at hsegments
    rw [List.foldlM_cons] at h
    obtain ⟨m₁, hfirst, hrest⟩ := Except.bind_ok h
    exact ih hsegments.2 (adoptSegment_names (Ne.symm hsegments.1) hm hfirst) hrest

/-- The repair removes the file before it takes up the others. -/
theorem repairStored_buried (h : Buried file disk) {repaired : Except LogError JournalManifest}
    (hr : repairStored format disk now = (w, repaired)) :
    (∀ d ∈ w.before ++ [w.disk], Buried file d) ∧ file ∉ w.disk.names ∧
      ∀ m', repaired = .ok m' → file ∉ m'.names := by
  obtain ⟨m, hm, hnames, hgone⟩ := h
  unfold repairStored at hr
  set w₀ := migrateLegacyJournal { disk } with hw₀
  have hfiles : w₀.disk.manifest = some m ∧ w₀.disk.names = disk.names ∧
      ∀ d ∈ w₀.before, d = disk := by
    rw [hw₀]
    unfold migrateLegacyJournal
    split
    · exact ⟨hm, rfl, fun d hd => List.mem_singleton.mp hd⟩
    · exact ⟨hm, rfl, fun d hd => absurd hd List.not_mem_nil⟩
  have hburied : Buried file w₀.disk := ⟨m, hfiles.1, hnames, hfiles.2.1 ▸ hgone⟩
  simp only [hfiles.1] at hr
  obtain ⟨hdisk, -, hbefore⟩ := removeSegments m.deletedSegments w₀
  unfold repairManifest at hr
  dsimp only at hr
  generalize m.deletedSegments.foldl (fun w file => w.write (.removeSegment file)) w₀ = w₁ at *
  have habsent : file ∉ w₁.disk.names := by
    intro hfile
    obtain ⟨segment, hsegment, hname⟩ := List.mem_map.mp hfile
    rw [hdisk] at hsegment
    obtain ⟨hsegment, hkept⟩ := List.mem_filter.mp hsegment
    rcases hgone with hdeleted | hmissing
    · exact of_decide_eq_true hkept (hname ▸ hdeleted)
    · exact hmissing (hfiles.2.1 ▸ List.mem_map.mpr ⟨segment, hsegment, hname⟩)
  have hall : ∀ d ∈ w₁.before ++ [w₁.disk], Buried file d := by
    intro d hd
    rcases List.mem_append.mp hd with hd | hd
    · rcases hbefore d hd with hd | ⟨gone, -, rfl⟩
      · rw [hfiles.2.2 d hd]
        exact ⟨m, hm, hnames, hgone⟩
      · exact hburied.without gone
    · rw [List.mem_singleton.mp hd, hdisk]
      exact hburied.without _
  split at hr
  · cases hr
    exact ⟨hall, habsent, fun m' h => by cases h⟩
  · rename_i rows _
    split at hr
    · cases hr
      exact ⟨hall, habsent, fun m' h => by cases h⟩
    · rename_i m₁ hadopted
      have hsealed : (({ m with deletedSegments := [] } : JournalManifest).withActive
          rows).sealedSegments = m.sealedSegments := by rw [withActive_fields]
      have hm₁ : file ∉ m₁.names := by
        apply adoptSegments_names habsent _ hadopted
        change file ∉ (JournalManifest.withActive _ rows).sealedSegments.map SegmentMeta.filename
        rw [hsealed]
        exact hnames
      have hsorted : file ∉ (sortSegments m₁.sealedSegments).map SegmentMeta.filename := by
        unfold sortSegments
        rw [((List.perm_insertionSort _ m₁.sealedSegments).map _).mem_iff]
        exact hm₁
      split at hr
      all_goals
        cases hr
        refine ⟨hall, habsent, fun m' h => ?_⟩
        cases h
        exact hsorted

/-- No crash of an opening brings the segment back, and an opening does not count it. -/
theorem initialize_buried (h : Buried file disk) {opened : Except LogError JournalManifest}
    (hr : initializeJournal format policy isRun disk repairedAt retainedAt = (w, opened)) :
    (∀ d ∈ w.before ++ [w.disk], Buried file d) ∧
      ∀ m', opened = .ok m' → file ∉ m'.names ∧ file ∉ w.disk.names := by
  unfold initializeJournal at hr
  cases hrepair : repairStored format disk repairedAt with
  | mk w₁ repaired =>
    obtain ⟨hall, habsent, hnames⟩ := repairStored_buried h hrepair
    rw [hrepair] at hr
    cases repaired with
    | error e =>
      cases hr
      exact ⟨hall, fun m' h => by cases h⟩
    | ok m₁ =>
      dsimp only at hr
      have hnames := hnames m₁ rfl
      have hretained : (∀ d ∈ (retainUnlessRunning policy isRun w₁ m₁ retainedAt).1.before ++
          [(retainUnlessRunning policy isRun w₁ m₁ retainedAt).1.disk], Buried file d) ∧
          file ∉ (retainUnlessRunning policy isRun w₁ m₁ retainedAt).1.disk.names ∧
          file ∉ (retainUnlessRunning policy isRun w₁ m₁ retainedAt).2.names := by
        unfold retainUnlessRunning
        split
        · obtain ⟨⟨gone, hgone, -⟩, hkept, later, hlater, hcrash⟩ :=
            retain_spec policy retainedAt _ w₁ (m := m₁) rfl rfl
          have hsplit {left right : List SegmentMeta} (hsegments : m₁.sealedSegments = left ++ right) :
              file ∉ right.map SegmentMeta.filename := by
            unfold JournalManifest.names at hnames
            rw [hsegments, List.map_append, List.mem_append, not_or] at hnames
            exact hnames.2
          refine ⟨?_, hkept file habsent, hsplit hgone⟩
          intro d hd
          unfold enforceRetention at hd
          rw [hlater] at hd
          rcases List.mem_append.mp hd with hd | hd
          · exact hall d (List.mem_append_left _ hd)
          · rcases List.mem_cons.mp hd with rfl | hd
            · exact hall _ (List.mem_append_right _ List.mem_cons_self)
            · obtain ⟨md, more, hmd, hmore, -, hmissing, -⟩ := hcrash d hd
              exact ⟨md, hmd, hsplit hmore, .inr (hmissing file habsent)⟩
        · exact ⟨hall, habsent, hnames⟩
      obtain ⟨hall, habsent, hnames⟩ := hretained
      split at hr
      · cases hr
        exact ⟨hall, fun m' h => by cases h⟩
      · cases hr
        refine ⟨?_, fun m' h => ?_⟩
        · intro d hd
          rcases List.mem_append.mp hd with hd | hd
          · exact hall d hd
          · rw [List.mem_singleton.mp hd]
            exact ⟨_, rfl, hnames, .inr habsent⟩
        · cases h
          exact ⟨hnames, habsent⟩

end Reopen

/-- The files after openings that end at any of their writes, or behind the last one -/
inductive Reopened (format : TimeFormat) (policy : JournalPolicy) (isRun : Bool)
    (disk : JournalDisk) : JournalDisk → Prop
  | refl : Reopened format policy isRun disk disk
  | ended {d d' : JournalDisk} (repairedAt retainedAt : Instant)
      (h : Reopened format policy isRun disk d)
      (hd : d' ∈ (initializeJournal format policy isRun d repairedAt retainedAt).1.before ++
        [(initializeJournal format policy isRun d repairedAt retainedAt).1.disk]) :
      Reopened format policy isRun disk d'

theorem Reopened.buried {format : TimeFormat} {policy : JournalPolicy} {isRun : Bool}
    {disk d : JournalDisk} {file : SegmentFile} (h : Reopened format policy isRun disk d)
    (hburied : Buried file disk) : Buried file d := by
  induction h with
  | refl => exact hburied
  | ended repairedAt retainedAt _ hd ih => exact (initialize_buried ih rfl).1 _ hd

section Limits

variable (policy : JournalPolicy) (now : Instant) (w : Writing) (m : JournalManifest)

/-- What the loop keeps is within the limits. -/
def WithinLimits : Prop :=
  (enforceRetention policy w m now).2.bytes ≤ policy.maxTotalBytes ∨
    (enforceRetention policy w m now).2.sealedSegments = []

/-- The oldest segments are removed, as many as the limit of their number asks for, and none that
is removed comes back after a crash. -/
structure RemovesOldest (sealed : SealedSegments) : Prop where
  oldest : ∃ gone, sealed.segments = gone ++ (enforceRetention policy w m now).2.sealedSegments
  count : (enforceRetention policy w m now).2.sealedSegments.length ≤ policy.maxSealedSegments
  crash : ∃ later, (enforceRetention policy w m now).1.before ++
        [(enforceRetention policy w m now).1.disk] = w.before ++ w.disk :: later ∧
    ∀ d ∈ later, ∃ stored gone, d.manifest = some stored ∧
      sealed.segments = gone ++ stored.sealedSegments ∧ gone ≠ [] ∧
      ∀ segment ∈ gone, ∀ format isRun d', Reopened format policy isRun d d' →
        ∀ repairedAt retainedAt opened,
          (initializeJournal format policy isRun d' repairedAt retainedAt).2 = .ok opened →
          segment.filename ∉ opened.names ∧
            segment.filename ∉
              (initializeJournal format policy isRun d' repairedAt retainedAt).1.disk.names

variable {policy now w m}

theorem removesOldest (sealed : SealedSegments) (hm : m.sealedSegments = sealed.segments) :
    RemovesOldest policy now w m sealed := by
  obtain ⟨⟨gone, hgone, -, hstops⟩, -, later, hlater, hcrash⟩ :=
    retain_spec policy now m.totalBytes w hm rfl
  rw [← hm] at hgone hstops hlater
  refine ⟨⟨gone, hm ▸ hgone⟩, ?_, later, hlater, ?_⟩
  · change (retain policy now m.sealedSegments m.totalBytes w m).2.sealedSegments.length ≤ _
    generalize (retain policy now m.sealedSegments m.totalBytes w m).2.sealedSegments = kept at *
    cases kept with
    | nil => exact Nat.zero_le _
    | cons first rest =>
      have hkept := hstops first rfl
      unfold JournalPolicy.expires at hkept
      rw [Bool.or_eq_false_iff, Bool.or_eq_false_iff] at hkept
      exact Nat.not_lt.mp (of_decide_eq_false hkept.1.2)
  · intro d hd
    obtain ⟨stored, gone, hstored, hgone, hsome, -, htold⟩ := hcrash d hd
    refine ⟨stored, gone, hstored, hgone, hsome, ?_⟩
    intro segment hsegment format isRun d' hreopened repairedAt retainedAt opened hopened
    have hunique := sealed.unique
    rw [KeyedRows.Unique, hgone, List.map_append, List.nodup_append] at hunique
    have hburied : Buried segment.filename d := by
      refine ⟨stored, hstored, fun hname => ?_, htold segment hsegment⟩
      exact hunique.2.2 _ (List.mem_map_of_mem hsegment) _ hname rfl
    exact (initialize_buried (hreopened.buried hburied) rfl).2 opened hopened

end Limits

/-- The loop ends with a prefix of the segments removed, and within the limits for every policy
exactly if the sizes do not overflow. -/
theorem enforce_retention_iff (sealed : SealedSegments) (m : JournalManifest) (w : Writing) :
    let m := { m with sealedSegments := sealed.segments }
    (∀ policy now, RemovesOldest policy now w m sealed) ∧
      ((∀ policy now, WithinLimits policy now w m) ↔ m.bytes < 2^64 ∨ sealed.segments = []) := by
  intro m
  refine ⟨fun policy now => removesOldest sealed rfl, ?_, ?_⟩
  · intro hall
    by_contra hnot
    rw [not_or, Nat.not_lt] at hnot
    obtain ⟨first, rest, hsegments⟩ := List.exists_cons_of_ne_nil hnot.2
    -- a policy that the computed size meets and the size does not
    have hwithin := hall ⟨0, 1, sealed.segments.length, m.totalBytes⟩ first.sealedAt
    have hstays : enforceRetention ⟨0, 1, sealed.segments.length, m.totalBytes⟩ w m first.sealedAt =
        (w, m) := by
      unfold enforceRetention
      change retain _ _ sealed.segments _ _ _ = _
      rw [hsegments]
      unfold retain
      apply if_neg
      simp [JournalPolicy.expires]
    unfold WithinLimits at hwithin
    rw [hstays] at hwithin
    rcases hwithin with hle | hnone
    · have hcounted : m.totalBytes ≤ 2^64 - 1 := Nat.min_le_right _ _
      exact absurd (hnot.1.trans (hle.trans hcounted)) (by decide)
    · exact hnot.2 hnone
  · intro hsizes policy now
    obtain ⟨⟨gone, hgone, hactive, hstops⟩, -⟩ :=
      retain_spec policy now m.totalBytes w (m := m) rfl rfl
    unfold WithinLimits enforceRetention
    generalize retain policy now m.sealedSegments m.totalBytes w m = r at *
    rcases hsizes with hlt | hnone
    · cases hkept : r.2.sealedSegments with
      | nil => exact .inr rfl
      | cons first rest =>
        have hexpires := hstops first (by rw [hkept]; exact rfl)
        have hbytes : r.2.bytes + (gone.map SegmentMeta.byteLen).sum = m.bytes := by
          unfold JournalManifest.bytes
          rw [hgone, List.map_append, List.sum_append, hactive]
          omega
        have hsum : (m.sealedSegments.map SegmentMeta.byteLen).sum ≤ m.bytes := Nat.le_add_left _ _
        have hcounted : m.totalBytes = m.bytes := by
          unfold JournalManifest.totalBytes satAddU64
          rw [Nat.mod_eq_of_lt (by omega)]
          exact Nat.min_eq_left (Nat.le_sub_one_of_lt hlt)
        unfold JournalPolicy.expires at hexpires
        rw [Bool.or_eq_false_iff] at hexpires
        have hle := Nat.not_lt.mp (of_decide_eq_false hexpires.2)
        exact .inl (by omega)
    · right
      have hnil : gone ++ r.2.sealedSegments = [] := hgone.symm.trans hnone
      exact (List.append_eq_nil_iff.mp hnil).2

/-- Two sizes of `2^63` bytes, counted as none -/
theorem overflow_keeps_segments : ¬WithinLimits ⟨0, 1, 2, 10⟩ 0 { disk := {} }
    { activeCreatedAt := 0
      sealedSegments := [⟨1, 1, 1, 0, 0, 2^63⟩, ⟨2, 2, 2, 0, 0, 2^63⟩] } := by
  unfold WithinLimits
  decide

end Supervisor
