import Supervisor.RingJournal

namespace Supervisor

namespace LogStore

variable {format : TimeFormat} {policy : JournalPolicy} {isRun : Bool} {s t : LogStore}
  {first cursor : ℕ} {published expired kept : List LogLine} {m : JournalManifest}

theorem mem_page {lines : List LogLine} {highWatermark : ℕ} {earliest : Option ℕ} {line : LogLine} :
    line ∈ (snapshot lines { afterSequence := some cursor } highWatermark earliest).lines ↔
      line ∈ lines ∧ cursor < line.sequence := by
  change line ∈ lines.filter (TailQuery.selects { afterSequence := some cursor }) ↔ _
  rw [List.mem_filter]
  simp [TailQuery.selects]

/-- The lines that are left tell where they begin, unless none is left. -/
theorem snapshot_complete_iff (hnumbered : NumberedFrom first published)
    (hsplit : published = expired ++ kept) (highWatermark : ℕ) :
    ((snapshot kept { afterSequence := some cursor } highWatermark
        (kept.head?.map LogLine.sequence)).cursorExpired = true ∨
      ∀ line ∈ published, cursor < line.sequence → line ∈ (snapshot kept
        { afterSequence := some cursor } highWatermark (kept.head?.map LogLine.sequence)).lines) ↔
      kept ≠ [] ∨ ∀ line ∈ published, line.sequence ≤ cursor := by
  cases kept with
  | nil =>
    have hnone : (snapshot [] { afterSequence := some cursor } highWatermark none).cursorExpired =
        false := rfl
    constructor
    · rintro (hexpired | hall)
      · cases hnone.symm.trans hexpired
      · right
        intro line hline
        by_contra hlater
        cases (mem_page.mp (hall line hline (Nat.lt_of_not_le hlater))).1
    · rintro (hne | hpassed)
      · exact absurd rfl hne
      · right
        intro line hline hlater
        exact absurd (hpassed line hline) (Nat.not_le.mpr hlater)
  | cons head others =>
    refine ⟨fun _ => .inl (List.cons_ne_nil _ _), fun _ => ?_⟩
    rw [hsplit] at hnumbered
    have hhead : head.sequence = first + expired.length :=
      (NumberedFrom.cons_iff.mp (NumberedFrom.append_iff.mp hnumbered).2).1
    by_cases hbefore : satAddU64 cursor 1 < head.sequence
    · exact .inl (decide_eq_true hbefore)
    · -- the cursor is at least at the last line that has expired
      right
      intro line hline hlater
      rw [mem_page]
      refine ⟨?_, hlater⟩
      rw [hsplit] at hline
      rcases List.mem_append.mp hline with hold | hkept
      · have hlt := ((NumberedFrom.append_iff.mp hnumbered).1.mem hold).2
        unfold satAddU64 at hbefore
        omega
      · exact hkept

/-- A tail of the ring is complete as long as the line after the cursor is still there. -/
theorem ring_complete_iff {s : RingJournal} (h : s.Sound) (hm : s.memory = some m) :
    CompleteAfter format (.memory s) cursor ↔ s.published.length ≤ ringCapacity + cursor := by
  obtain ⟨hnext, hwatermark, hstart, hsegments⟩ := h.manifest m hm
  have hnumbered := h.numbered
  have hearliest : m.earliestRetainedSequence.all (· = 1) = true := by
    unfold JournalManifest.earliestRetainedSequence
    rw [hsegments, hstart]
    change (if 1 ≤ m.highWatermark then some 1 else none).all (· = 1) = true
    split
    · rfl
    · rfl
  have hnever : (snapshot s.buffer { afterSequence := some cursor } m.highWatermark
      m.earliestRetainedSequence).cursorExpired = false := by
    change m.earliestRetainedSequence.any (fun earliest => satAddU64 cursor 1 < earliest) = false
    cases hfound : m.earliestRetainedSequence with
    | none => rfl
    | some earliest =>
      rw [hfound] at hearliest
      have hone : earliest = 1 := of_decide_eq_true hearliest
      refine decide_eq_false ?_
      unfold satAddU64
      omega
  have hbuffer (line : LogLine) : line ∈ s.buffer ↔ line ∈ s.published ∧
      s.published.length < line.sequence + ringCapacity := by
    have hsplit := List.take_append_drop (s.published.length - ringCapacity) s.published
    rw [← hsplit] at hnumbered
    obtain ⟨hfront, hback⟩ := NumberedFrom.append_iff.mp hnumbered
    rw [h.buffer]
    constructor
    · intro hline
      have hmem := hback.mem hline
      rw [List.length_take] at hmem
      refine ⟨List.mem_of_mem_drop hline, ?_⟩
      omega
    · rintro ⟨hline, hlater⟩
      rw [← hsplit] at hline
      rcases List.mem_append.mp hline with hold | hkept
      · have hmem := hfront.mem hold
        rw [List.length_take] at hmem
        omega
      · exact hkept
  constructor
  · intro hcomplete
    rcases hcomplete m hm with hexpired | hall
    · cases hnever.symm.trans hexpired
    · by_contra hfar
      -- the line after the cursor has left the ring
      have hindex : cursor < s.published.length := by omega
      have hsequence : s.published[cursor].sequence = cursor + 1 := by
        have hmap : (s.published.map LogLine.sequence)[cursor]? = some (1 + cursor) := by
          rw [hnumbered, List.getElem?_range' hindex]
          simp
        rw [List.getElem?_map, List.getElem?_eq_getElem hindex] at hmap
        have heq := Option.some.inj hmap
        omega
      have hin := hall s.published[cursor] (List.getElem_mem hindex) (by omega)
      have hbound := ((hbuffer _).mp (mem_page.mp hin).1).2
      omega
  · intro hclose m' hm'
    obtain rfl := Option.some.inj (hm.symm.trans hm')
    right
    intro line hline hlater
    exact mem_page.mpr ⟨(hbuffer line).mpr ⟨hline, by omega⟩, hlater⟩

/-- A tail of the files is complete as long as they still have a line. -/
theorem durable_complete_iff {s : JournalState} (h : s.Kept format first) (hm : s.memory = some m) :
    CompleteAfter format (.durable s) cursor ↔ RetainsAfter format cursor (.durable s) := by
  obtain ⟨files, rows, hopened⟩ := h.opened m hm
  obtain ⟨expired, hsplit⟩ := hopened.layout.kept
  have hempty : (files.flatMap Prod.snd ++ rows ≠ []) ↔
      (m.sealedSegments ≠ [] ∨ s.disk.readActive format ≠ .ok []) := by
    rw [hopened.layout.readActive]
    have hsegments : m.sealedSegments = [] ↔ files = [] := by
      rw [← List.map_eq_nil_iff (f := SegmentMeta.filename), hopened.filenames, List.map_eq_nil_iff]
    have hlines : files.flatMap Prod.snd = [] ↔ files = [] := by
      refine ⟨fun hnil => ?_, fun hnil => by rw [hnil]; rfl⟩
      cases files with
      | nil => rfl
      | cons file files =>
        obtain ⟨line, hline, -⟩ := @Layout.head _ _ _ _ _ _ file hopened.layout List.mem_cons_self
        rw [List.flatMap_cons] at hnil
        exact absurd (List.append_eq_nil_iff.mp hnil).1 (List.ne_nil_of_mem hline)
    rw [Ne, List.append_eq_nil_iff, hlines, ← hsegments, not_and_or]
    refine or_congr Iff.rfl (not_congr ⟨fun hnil => hnil ▸ rfl, fun hnil => ?_⟩)
    exact Except.ok.inj hnil
  have hcomplete : CompleteAfter format (.durable s) cursor ↔
      files.flatMap Prod.snd ++ rows ≠ [] ∨ ∀ line ∈ s.published, line.sequence ≤ cursor := by
    rw [← snapshot_complete_iff hopened.layout.numbered hsplit m.highWatermark,
      ← hopened.earliestRetained, ← hopened.tailFrom]
    refine ⟨fun hall => hall m hm, fun hthis m' hm' => ?_⟩
    obtain rfl := Option.some.inj (hm.symm.trans hm')
    exact hthis
  rw [hcomplete, hempty]
  refine ⟨fun hholds m' hm' => ?_, fun hholds => hholds m hm⟩
  obtain rfl := Option.some.inj (hm.symm.trans hm')
  exact hholds

/-- After any number of publishes, rollovers and retentions, a tail after a cursor is complete or
reported as expired exactly when a line is retained there. -/
theorem run_completeAfter_iff (hs : s.Started format)
    (h : (machine format policy isRun).Run (Fits format policy isRun) s t)
    (hopen : t.manifest.isSome = true) (cursor : ℕ) :
    t.CompleteAfter format cursor ↔ t.RetainsAfter format cursor := by
  have hsound := run_sound hs h
  obtain ⟨m, hm⟩ := Option.isSome_iff_exists.mp hopen
  cases t with
  | durable t =>
    obtain ⟨first, hkept⟩ := hsound
    exact durable_complete_iff hkept hm
  | memory t => exact ring_complete_iff hsound hm

open JournalState (epochFormat lineByLine textLine)

/-- The segment with the first line has been removed; a reader from the start is told so. -/
theorem expiredCursor_completeAfter : ∃ t,
    (machine epochFormat lineByLine false).Run (Fits epochFormat lineByLine false)
      (.durable ⟨{}, none, [], false⟩) t ∧ t.published.map LogLine.sequence = [1, 2, 3, 4] ∧
    (t.CompleteAfter epochFormat 0 ↔ t.RetainsAfter epochFormat 0) := by
  obtain ⟨t, hrun, hp⟩ := Machine.exists_run_of_execUnder
    (M := machine epochFormat lineByLine false) (C := Fits epochFormat lineByLine false)
    (s := .durable ⟨{}, none, [], false⟩)
    (fun t => t.manifest.isSome ∧ t.published.map LogLine.sequence = [1, 2, 3, 4])
    [.call (.initializeJournal 0 0), .call (.publish (textLine "a") 0 0),
      .call (.publish (textLine "b") 0 0), .call (.publish (textLine "c") 0 0),
      .call (.publish (textLine "d") 0 0)] (by decide +kernel)
  obtain ⟨hopen, hpublished⟩ := of_decide_eq_true hp
  have hstarted : Started epochFormat (.durable ⟨{}, none, [], false⟩) :=
    JournalState.started_empty
  exact ⟨t, hrun, hpublished, run_completeAfter_iff hstarted hrun hopen 0⟩

/-- A ring with any number of lines. -/
theorem exists_ring (n : ℕ) (hn : n + 1 < 2^64) : ∃ s : RingJournal,
    (machine epochFormat lineByLine false).Run (Fits epochFormat lineByLine false)
      (.memory {}) (.memory s) ∧ s.memory.isSome = true ∧ (∀ m ∈ s.memory, m.sealed = false) ∧
    s.published.length = n := by
  induction n with
  | zero =>
    refine ⟨{ memory := some (.empty 0) }, ?_, rfl, ?_, rfl⟩
    · exact .tail (.call (.initializeJournal 0 0)) .refl trivial rfl
    · intro m hm
      obtain rfl := Option.some.inj hm
      rfl
  | succ n ih =>
    obtain ⟨s, hrun, hopen, hunsealed, hlength⟩ := ih (by omega)
    obtain ⟨m, hm⟩ := Option.isSome_iff_exists.mp hopen
    have hsound : s.Sound := run_sound (s := .memory {}) ⟨rfl, rfl, rfl⟩ hrun
    have hfits : Fits epochFormat lineByLine false (.memory s)
        (.call (.publish (textLine "x") 0 0)) := by
      intro m' hm'
      rw [(hsound.manifest m' hm').1]
      omega
    have hstep : ∃ u, s.perform (.publish (textLine "x") 0 0) = some u ∧ u.memory.isSome = true ∧
        (∀ m ∈ u.memory, m.sealed = false) ∧ u.published.length = n + 1 := by
      have hnot := hunsealed m hm
      simp only [RingJournal.perform, hm, hnot]
      refine ⟨_, rfl, rfl, ?_, ?_⟩
      · intro m' hm'
        obtain rfl := Option.some.inj hm'
        rfl
      · rw [List.length_append, List.length_singleton, hlength]
    obtain ⟨u, hu, hrest⟩ := hstep
    refine ⟨u, .tail _ hrun hfits ?_, hrest⟩
    change (s.perform _).map LogStore.memory = _
    rw [hu]
    rfl

/-- One line more than the ring holds: the first one is missing, and nothing reports it. -/
theorem fullRing_incomplete : ∃ t,
    (machine epochFormat lineByLine false).Reaches (.memory {}) t ∧
    ¬t.CompleteAfter epochFormat 0 := by
  obtain ⟨s, hrun, hopen, -, hlength⟩ := exists_ring (ringCapacity + 1) (by decide)
  refine ⟨.memory s, hrun.reaches, fun hcomplete => ?_⟩
  have hretains : s.published.length ≤ ringCapacity + 0 :=
    (run_completeAfter_iff (s := .memory {}) ⟨rfl, rfl, rfl⟩ hrun hopen 0).mp hcomplete
  omega

end LogStore

end Supervisor
