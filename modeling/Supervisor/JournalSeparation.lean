import Supervisor.SharedJournals

namespace Supervisor

namespace LogDirectory

variable {dir start : LogDirectory} {file newName other : FileName} {rows : List SourcedLine}

theorem read_put : (dir.put file rows).read other =
    if file = other then some rows else dir.read other := by
  unfold read put
  rw [KeyedRows.find_insert]
  split <;> rfl

theorem read_remove : (dir.remove file).read other =
    if other ≠ file then dir.read other else none := by
  unfold read remove
  have hfind := @KeyedRows.find_filter_key _ _ _ LogFile.name other dir.files fun entry => decide
    (entry ≠ file)
  rw [hfind]
  by_cases hother : other = file
  · simp [hother]
  · simp [hother]

theorem mem_rowsOf_put {row : SourcedLine} (h : row ∈ (dir.put file rows).rowsOf other) :
    file = other ∧ row ∈ rows ∨ row ∈ dir.rowsOf other := by
  unfold rowsOf at h
  rw [read_put] at h
  split at h
  · exact .inl ⟨‹_›, h⟩
  · exact .inr h

theorem mem_rowsOf_remove {row : SourcedLine} (h : row ∈ (dir.remove file).rowsOf other) :
    row ∈ dir.rowsOf other := by
  unfold rowsOf at h
  rw [read_remove] at h
  split at h
  · exact h
  · exact absurd h List.not_mem_nil

end LogDirectory

/-- The manifest names segments of the process only. -/
structure NamedManifest.IsOf (m : NamedManifest) (name : String) : Prop where
  sealed : ∀ segment ∈ m.sealedSegments, IsSegmentFile name segment.filename
  deleted : ∀ file ∈ m.deletedSegments, IsSegmentFile name file

theorem NamedManifest.IsOf.concat {m : NamedManifest} {name : String} (h : m.IsOf name)
    {segment : NamedSegment} (hsegment : IsSegmentFile name segment.filename) :
    ∀ other ∈ m.sealedSegments ++ [segment], IsSegmentFile name other.filename := by
  intro other hother
  rcases List.mem_append.mp hother with hother | hother
  · exact h.sealed other hother
  · rw [List.mem_singleton.mp hother]
    exact hsegment

/-- From `start` on only the files of the process have changed, and they have its lines only. -/
structure LogDirectory.Owns (dir : LogDirectory) (name : String) (start : LogDirectory) :
    Prop where
  others : ∀ file, ¬IsCurrentFile name file → dir.read file = start.read file
  rows : ∀ file, IsCurrentFile name file → ∀ row ∈ dir.rowsOf file, row.source = name
  manifests : ∀ file, file ≠ manifestFile name → dir.manifests file = start.manifests file
  stored : ∀ m ∈ dir.manifests (manifestFile name), m.IsOf name

section Directory

variable {dir start : LogDirectory} {name : String} {file newName : FileName}
  {rows : List SourcedLine} {m : NamedManifest}

namespace LogDirectory

theorem Owns.put (h : dir.Owns name start) (hfile : IsCurrentFile name file)
    (hrows : ∀ row ∈ rows, row.source = name) : (dir.put file rows).Owns name start := by
  refine ⟨fun other hother => ?_, fun other hother row hrow => ?_, h.manifests, h.stored⟩
  · have hne : file ≠ other := by
      rintro rfl
      exact hother hfile
    rw [read_put, if_neg hne]
    exact h.others other hother
  · rcases mem_rowsOf_put hrow with ⟨-, hrow⟩ | hrow
    · exact hrows row hrow
    · exact h.rows other hother row hrow

theorem Owns.remove (h : dir.Owns name start) (hfile : IsCurrentFile name file) :
    (dir.remove file).Owns name start := by
  refine ⟨fun other hother => ?_, fun other hother row hrow => ?_, h.manifests, h.stored⟩
  · have hne : other ≠ file := by
      rintro rfl
      exact hother hfile
    rw [read_remove, if_pos hne]
    exact h.others other hother
  · exact h.rows other hother row (mem_rowsOf_remove hrow)

theorem Owns.rename (h : dir.Owns name start) (hfile : IsCurrentFile name file)
    (hnew : IsCurrentFile name newName) : (dir.rename file newName).Owns name start := by
  unfold LogDirectory.rename
  cases hread : dir.read file with
  | none => exact h
  | some rows =>
    apply (h.remove hfile).put hnew
    intro row hrow
    apply h.rows file hfile
    rwa [rowsOf, hread]

theorem Owns.writeManifest (h : dir.Owns name start) (hm : m.IsOf name) :
    (dir.writeManifest (manifestFile name) m).Owns name start := by
  refine ⟨h.others, h.rows, fun other hother => ?_, fun m' hm' => ?_⟩
  · unfold LogDirectory.writeManifest
    dsimp only
    rw [Function.update_of_ne hother]
    exact h.manifests other hother
  · unfold LogDirectory.writeManifest at hm'
    dsimp only at hm'
    rw [Function.update_self] at hm'
    exact Option.some.inj hm' ▸ hm

end LogDirectory

end Directory

/-- What a call of the process may have written when it ends, and wherever it is cut off. -/
structure SharedWriting.Owns (w : SharedWriting) (name : String) (start : LogDirectory) : Prop where
  dir : w.dir.Owns name start
  manifest : w.manifest.IsOf name
  before : ∀ stopped ∈ w.before, stopped.1.Owns name start ∧ stopped.2.IsOf name

namespace SharedWriting

variable {w : SharedWriting} {dir start : LogDirectory} {name : String} {m : NamedManifest}

theorem Owns.write (h : w.Owns name start) (hdir : dir.Owns name start) :
    (w.write dir).Owns name start := by
  refine ⟨hdir, h.manifest, fun stopped hstopped => ?_⟩
  rcases List.mem_append.mp hstopped with hstopped | hstopped
  · exact h.before stopped hstopped
  · rw [List.mem_singleton.mp hstopped]
    exact ⟨h.dir, h.manifest⟩

theorem Owns.withManifest (h : w.Owns name start) (hm : m.IsOf name) :
    { w with manifest := m }.Owns name start :=
  ⟨h.dir, hm, h.before⟩

theorem Owns.rows (h : w.Owns name start) : ∀ row ∈ w.rows name, row.source = name :=
  h.dir.rows (activeFile name) (.inl rfl)

theorem Owns.storeManifest (h : w.Owns name start) : (w.storeManifest name).Owns name start :=
  h.write (h.dir.writeManifest h.manifest)

theorem Owns.readManifest (h : w.Owns name start) : (w.readManifest name).Owns name start := by
  unfold SharedWriting.readManifest
  cases hstored : w.dir.manifests (manifestFile name) with
  | some m => exact h.withManifest (h.dir.stored m hstored)
  | none =>
    apply h.withManifest
    exact ⟨fun _ hmem => absurd hmem List.not_mem_nil, fun _ hmem => absurd hmem List.not_mem_nil⟩

theorem Owns.removeDeleted (h : w.Owns name start) : w.removeDeleted.Owns name start := by
  have hremove (files : List FileName) (hfiles : ∀ file ∈ files, IsSegmentFile name file) :
      (files.foldl (fun w file => w.write (w.dir.remove file)) w).Owns name start := by
    induction files generalizing w with
    | nil => exact h
    | cons file files ih =>
      have hfirst : (w.write (w.dir.remove file)).Owns name start :=
        h.write (h.dir.remove (.inr (hfiles file List.mem_cons_self)))
      exact ih hfirst fun other hother => hfiles other (List.mem_cons_of_mem _ hother)
  have hremoved := hremove w.manifest.deletedSegments h.manifest.deleted
  apply hremoved.withManifest
  exact ⟨hremoved.manifest.sealed, fun _ hmem => absurd hmem List.not_mem_nil⟩

theorem Owns.withActive (h : w.Owns name start) : (w.withActive name).Owns name start :=
  h.withManifest ⟨h.manifest.sealed, h.manifest.deleted⟩

theorem Owns.adoptSegment (h : w.Owns name start) (file : FileName) :
    (w.adoptSegment name file).Owns name start := by
  unfold SharedWriting.adoptSegment
  dsimp only
  split
  · exact h
  · split
    · rename_i hstart _
      exact h.withManifest ⟨h.manifest.concat (isSegmentFile_of_segmentStart hstart),
        h.manifest.deleted⟩
    · exact h

theorem Owns.sortSegments (h : w.Owns name start) : (w.sortSegments name).Owns name start := by
  have hsealed : ∀ segment ∈ w.manifest.sealedSegments.insertionSort
      (fun a b => a.firstSequence ≤ b.firstSequence), IsSegmentFile name segment.filename :=
    fun segment hsegment =>
      h.manifest.sealed segment ((List.mem_insertionSort _).mp hsegment)
  unfold SharedWriting.sortSegments
  dsimp only
  split
  · exact h.withManifest ⟨hsealed, h.manifest.deleted⟩
  · exact h.withManifest ⟨hsealed, h.manifest.deleted⟩

theorem Owns.repairManifest (h : w.Owns name start) : (w.repairManifest name).Owns name start := by
  have hadopt (files : List FileName) {w : SharedWriting} (hw : w.Owns name start) :
      (files.foldl (SharedWriting.adoptSegment name) w).Owns name start := by
    induction files generalizing w with
    | nil => exact hw
    | cons file files ih => exact ih (hw.adoptSegment file)
  exact (hadopt _ h.removeDeleted.withActive).sortSegments

theorem Owns.enforceRetention (h : w.Owns name start) (expired : ℕ) :
    (w.enforceRetention name expired).Owns name start := by
  induction expired generalizing w with
  | zero => exact h
  | succ expired ih =>
    unfold SharedWriting.enforceRetention
    dsimp only
    split
    · exact h
    · rename_i first rest hsegments
      have hfirst : IsSegmentFile name first.filename :=
        h.manifest.sealed first (hsegments ▸ List.mem_cons_self)
      have hrest : ∀ segment ∈ rest, IsSegmentFile name segment.filename := fun segment hsegment =>
        h.manifest.sealed segment (hsegments ▸ List.mem_cons_of_mem _ hsegment)
      have hdeleted : ∀ file ∈ w.manifest.deletedSegments ++ [first.filename],
          IsSegmentFile name file := by
        intro file hfile
        rcases List.mem_append.mp hfile with hfile | hfile
        · exact h.manifest.deleted file hfile
        · rw [List.mem_singleton.mp hfile]
          exact hfirst
      apply ih
      apply Owns.storeManifest
      have hstored := (h.withManifest (m := { w.manifest with
        sealedSegments := rest
        deletedSegments := w.manifest.deletedSegments ++ [first.filename] })
        ⟨hrest, hdeleted⟩).storeManifest
      have hremoved := hstored.write (hstored.dir.remove (.inr hfirst))
      apply hremoved.withManifest
      exact ⟨hremoved.manifest.sealed, fun file hfile =>
        hremoved.manifest.deleted file (List.mem_filter.mp hfile).1⟩

theorem Owns.rollover (h : w.Owns name start) (expired : ℕ) :
    (w.rollover name expired).Owns name start := by
  unfold SharedWriting.rollover
  extract_lets oldStart opened lines renamed _ sealed truncated _ started
  have hopened : opened.Owns name start := h.write (h.dir.put (.inl rfl) h.rows)
  have hfile : IsSegmentFile name (segmentFile name oldStart) := isSegmentFile_segmentFile oldStart
  have hsealed : sealed.Owns name start := by
    dsimp only [sealed]
    split
    · have hrenamed : renamed.Owns name start :=
        hopened.write (hopened.dir.rename (.inl rfl) (.inr hfile))
      apply hrenamed.withManifest
      exact ⟨hrenamed.manifest.concat hfile, hrenamed.manifest.deleted⟩
    · exact hopened
  have htruncated : truncated.Owns name start :=
    hsealed.write (hsealed.dir.put (.inl rfl) fun _ hrow => absurd hrow List.not_mem_nil)
  have hstarted : started.Owns name start :=
    htruncated.withManifest ⟨htruncated.manifest.sealed, htruncated.manifest.deleted⟩
  exact (hstarted.enforceRetention expired).storeManifest

theorem Owns.appendTo (hdir : dir.Owns name start) (hm : m.IsOf name) (line : LogLine)
    (rolls : Bool) (expired : ℕ) :
    (SharedWriting.appendTo name line rolls expired dir m).Owns name start := by
  unfold SharedWriting.appendTo
  extract_lets w rolled m' line' appended
  have hw : w.Owns name start := ⟨hdir, hm, fun _ hmem => absurd hmem List.not_mem_nil⟩
  have hrolled : rolled.Owns name start := by
    dsimp only [rolled]
    split
    · exact hw.rollover expired
    · exact hw
  have happended : appended.Owns name start := by
    apply hrolled.write
    apply hrolled.dir.put (.inl rfl)
    intro row hrow
    rcases List.mem_append.mp hrow with hrow | hrow
    · exact hrolled.rows row hrow
    · rw [List.mem_singleton.mp hrow]
  exact happended.withManifest ⟨happended.manifest.sealed, happended.manifest.deleted⟩

/-- An import of lines of the process. -/
theorem Owns.initializeJournal (hdir : dir.Owns name start) {legacy : Option FileName}
    (hlegacy : dir.read (activeFile name) = none → ∀ rows ∈ legacy.bind dir.read,
      ∀ row ∈ rows, row.source = name) (expired : ℕ) :
    (SharedWriting.initializeJournal name legacy expired dir).Owns name start := by
  have hempty : (⟨dir, {}, []⟩ : SharedWriting).Owns name start := by
    refine ⟨hdir, ?_, fun _ hmem => absurd hmem List.not_mem_nil⟩
    exact ⟨fun _ hmem => absurd hmem List.not_mem_nil, fun _ hmem => absurd hmem List.not_mem_nil⟩
  have hmigrated : (migrateLegacyJournal name legacy { dir }).Owns name start := by
    unfold migrateLegacyJournal
    split
    · rename_i rows hactive hrows
      exact hempty.write (hdir.put (.inl rfl) (hlegacy hactive rows hrows))
    · exact hempty
  exact (hmigrated.readManifest.repairManifest.enforceRetention expired).storeManifest

end SharedWriting

namespace SharedJournals

/-- No file of the scheme of this version is one of an earlier version's of another name, and what
is imported was written for nobody else. -/
def Fits (s : SharedJournals) : SharedEvent → Prop
  | .earlierAppend name _ =>
    ∀ other ∈ s.opened, other ≠ name → ¬IsCurrentFile other (legacyFile name)
  | .openJournal name _ _ =>
    (∀ other ∈ s.earlier, other ≠ name → ¬IsCurrentFile name (legacyFile other)) ∧
      ∀ file ∈ s.imports name, ∀ other ∈ s.opened ++ s.earlier, other ≠ name →
        ¬s.IsFileOf other file
  | _ => True

instance (s : SharedJournals) (e : SharedEvent) : Decidable (s.Fits e) := by
  cases e <;> unfold Fits <;> exact inferInstance

/-- The journals of different processes do not mix. -/
structure NeverMixes (s : SharedJournals) : Prop where
  /-- A reader gets lines of its own process only. -/
  tails : ∀ name query, ∀ row ∈ s.tail name query, row.source = name
  /-- The files of others are neither imported, moved, changed nor deleted. -/
  untouched : ∀ name expired failsAt t, s.Fits (.openJournal name expired failsAt) →
    s.step (.openJournal name expired failsAt) = some t → ∀ other, other ≠ name →
      ∀ file, s.IsFileOf other file → t.dir.read file = s.dir.read file ∧ file ∉ s.imports name

structure Sound (s : SharedJournals) : Prop where
  rows : ∀ file, ∀ row ∈ s.dir.rowsOf file, s.IsFileOf row.source file
  separate : ∀ name ∈ s.opened, ∀ other ∈ s.earlier, other ≠ name →
    ¬IsCurrentFile name (legacyFile other)
  stored : ∀ name, ∀ m ∈ s.dir.manifests (manifestFile name), m.IsOf name
  memory : ∀ name, ∀ m ∈ s.memory name, m.IsOf name ∧ name ∈ s.opened

section Steps

variable {s t : SharedJournals} {name : String}

theorem IsFileOf.eq {other : String} {file : FileName} (h : s.IsFileOf other file)
    (hfile : IsCurrentFile name file)
    (hseparate : ∀ other ∈ s.earlier, other ≠ name → ¬IsCurrentFile name (legacyFile other)) :
    other = name := by
  rcases h with ⟨-, hcurrent⟩ | ⟨hearlier, rfl⟩
  · exact hcurrent.unique hfile
  · by_contra hne
    exact hseparate other hearlier hne hfile

theorem Sound.owns (hs : s.Sound)
    (hseparate : ∀ other ∈ s.earlier, other ≠ name → ¬IsCurrentFile name (legacyFile other)) :
    s.dir.Owns name s.dir where
  others _ _ := rfl
  rows file hfile row hrow := (hs.rows file row hrow).eq hfile hseparate
  manifests _ _ := rfl
  stored := hs.stored name

/-- After a call of the process. -/
theorem Sound.called (hs : s.Sound) {dir : LogDirectory} (hdir : dir.Owns name s.dir)
    (hseparate : ∀ other ∈ s.earlier, other ≠ name → ¬IsCurrentFile name (legacyFile other))
    {memory : Option NamedManifest} (hmemory : ∀ m ∈ memory, m.IsOf name)
    (knownProcesses : List String) :
    { s with
      dir
      knownProcesses
      memory := Function.update s.memory name memory
      opened := s.opened.insert name }.Sound := by
  refine ⟨fun file row hrow => ?_, fun opened hopened other hother hne => ?_,
    fun other m hm => ?_, fun other m hm => ?_⟩
  · by_cases hfile : IsCurrentFile name file
    · left
      have hsource : row.source = name := hdir.rows file hfile row hrow
      exact ⟨hsource ▸ List.mem_insert_self, hsource ▸ hfile⟩
    · have hbefore : row ∈ s.dir.rowsOf file := by
        unfold LogDirectory.rowsOf at hrow ⊢
        rwa [hdir.others file hfile] at hrow
      rcases hs.rows file row hbefore with ⟨hopened, hcurrent⟩ | hearlier
      · exact .inl ⟨List.mem_insert_of_mem hopened, hcurrent⟩
      · exact .inr hearlier
  · rcases List.mem_insert_iff.mp hopened with rfl | hopened
    · exact hseparate other hother hne
    · exact hs.separate opened hopened other hother hne
  · by_cases hother : other = name
    · subst hother
      exact hdir.stored m hm
    · apply hs.stored other m
      rwa [← hdir.manifests _ fun heq => hother (manifestFile_injective heq)]
  · change m ∈ Function.update s.memory name memory other at hm
    by_cases hother : other = name
    · subst hother
      rw [Function.update_self] at hm
      exact ⟨hmemory m hm, List.mem_insert_self⟩
    · rw [Function.update_of_ne hother] at hm
      obtain ⟨hof, hopened⟩ := hs.memory other m hm
      exact ⟨hof, List.mem_insert_of_mem hopened⟩

/-- What opening a journal writes, to the end or to where it fails. -/
theorem Sound.openJournal (hs : s.Sound) {expired : ℕ} {failsAt : Option ℕ}
    (hfits : s.Fits (.openJournal name expired failsAt)) (hclosed : s.memory name = none)
    (h : s.openJournal name expired failsAt = some t) :
    t.Sound ∧ t.dir.Owns name s.dir := by
  have hw : (SharedWriting.initializeJournal name (s.legacyPath name) expired s.dir).Owns
      name s.dir := by
    apply SharedWriting.Owns.initializeJournal (hs.owns hfits.1)
    intro hactive rows hrows row hrow
    obtain ⟨file, hfile, hread⟩ := Option.bind_eq_some_iff.mp hrows
    have himports : file ∈ s.imports name := by
      unfold imports
      rw [hactive]
      exact Option.filter_eq_some_iff.mpr ⟨hfile, Option.isSome_iff_exists.mpr ⟨rows, hread⟩⟩
    have hof : s.IsFileOf row.source file := by
      apply hs.rows file row
      unfold LogDirectory.rowsOf
      rwa [hread]
    have hused : row.source ∈ s.opened ++ s.earlier := by
      rcases hof with ⟨hopened, -⟩ | ⟨hearlier, -⟩
      · exact List.mem_append_left _ hopened
      · exact List.mem_append_right _ hearlier
    by_contra hne
    exact hfits.2 file himports row.source hused hne hof
  unfold SharedJournals.openJournal at h
  cases failsAt with
  | none =>
    obtain rfl := Option.some.inj h
    refine ⟨hs.called hw.dir hfits.1 ?_ _, hw.dir⟩
    intro m hm
    exact Option.some.inj hm ▸ hw.manifest
  | some write =>
    obtain ⟨stopped, hstopped, rfl⟩ := Option.map_eq_some_iff.mp h
    have hdir := (hw.before stopped (List.mem_of_getElem? hstopped)).1
    have hcalled := @SharedJournals.Sound.called _ _ hs _ hdir hfits.1 none
      (fun _ hm => by cases hm) (s.knownProcesses.insert name)
    have hmemory : Function.update s.memory name none = s.memory := by
      rw [← hclosed]
      exact Function.update_eq_self name s.memory
    rw [hmemory] at hcalled
    exact ⟨hcalled, hdir⟩

theorem Sound.publish (hs : s.Sound) {m : NamedManifest} (hm : s.memory name = some m)
    {line : LogLine} {rolls : Bool} {expired : ℕ} {failsAt : Option ℕ}
    (h : s.publish name m line rolls expired failsAt = some t) : t.Sound := by
  obtain ⟨hof, hopened⟩ := hs.memory name m hm
  have hseparate := hs.separate name hopened
  have hw := SharedWriting.Owns.appendTo (hs.owns hseparate) hof line rolls expired
  have hinsert : s.opened.insert name = s.opened := List.insert_of_mem hopened
  unfold SharedJournals.publish at h
  cases failsAt with
  | none =>
    obtain rfl := Option.some.inj h
    have hcalled := @SharedJournals.Sound.called _ _ hs _ hw.dir hseparate (some _)
      (fun _ hm => Option.some.inj hm ▸ hw.manifest) s.knownProcesses
    rwa [hinsert] at hcalled
  | some write =>
    obtain ⟨stopped, hstopped, rfl⟩ := Option.map_eq_some_iff.mp h
    obtain ⟨hdir, hmanifest⟩ := hw.before stopped (List.mem_of_getElem? hstopped)
    have hcalled := @SharedJournals.Sound.called _ _ hs _ hdir hseparate (some stopped.2)
      (fun _ hm => Option.some.inj hm ▸ hmanifest) s.knownProcesses
    rwa [hinsert] at hcalled

/-- An earlier version writes to a file that is nobody else's. -/
theorem Sound.earlierAppend (hs : s.Sound) {line : LogLine}
    (hfits : s.Fits (.earlierAppend name line))
    (h : s.step (.earlierAppend name line) = some t) : t.Sound := by
  obtain rfl := Option.some.inj h
  refine ⟨fun file row hrow => ?_, fun opened hopened other hother hne => ?_, hs.stored,
    hs.memory⟩
  · have hbefore (hrow : row ∈ s.dir.rowsOf file) :
        row.source ∈ s.opened ∧ IsCurrentFile row.source file ∨
          row.source ∈ s.earlier.insert name ∧ file = legacyFile row.source := by
      rcases hs.rows file row hrow with hcurrent | ⟨hearlier, hfile⟩
      · exact .inl hcurrent
      · exact .inr ⟨List.mem_insert_of_mem hearlier, hfile⟩
    rcases LogDirectory.mem_rowsOf_put hrow with ⟨rfl, happended⟩ | hkept
    · rcases List.mem_append.mp happended with hkept | hnew
      · exact hbefore hkept
      · rw [List.mem_singleton.mp hnew]
        exact .inr ⟨List.mem_insert_self, rfl⟩
    · exact hbefore hkept
  · rcases List.mem_insert_iff.mp hother with rfl | hother
    · exact hfits opened hopened (Ne.symm hne)
    · exact hs.separate opened hopened other hother hne

theorem Sound.step (hs : s.Sound) {e : SharedEvent} (hfits : s.Fits e)
    (h : s.step e = some t) : t.Sound := by
  cases e with
  | registerProcessNames names =>
    obtain rfl := Option.some.inj h
    exact ⟨hs.rows, hs.separate, hs.stored, hs.memory⟩
  | earlierAppend name line => exact hs.earlierAppend hfits h
  | openJournal name expired failsAt =>
    simp only [SharedJournals.step] at h
    split at h
    · rename_i hclosed
      exact (hs.openJournal hfits hclosed h).1
    · cases h
  | publish name line rolls expired failsAt =>
    simp only [SharedJournals.step] at h
    split at h
    · cases h
    · rename_i m hm
      exact hs.publish hm h
  | restart =>
    obtain rfl := Option.some.inj h
    exact ⟨hs.rows, hs.separate, hs.stored, fun _ m hm => by cases hm⟩

theorem sound_empty : Sound {} where
  rows _ _ hrow := absurd hrow List.not_mem_nil
  separate _ hname := absurd hname List.not_mem_nil
  stored _ _ hm := by cases hm
  memory _ _ hm := by cases hm

/-- A reader reads files of its own process only. -/
theorem Sound.tails (hs : s.Sound) (query : TailQuery) {row : SourcedLine}
    (hrow : row ∈ s.tail name query) : row.source = name := by
  unfold SharedJournals.tail at hrow
  split at hrow
  · exact absurd hrow List.not_mem_nil
  · rename_i m hm
    obtain ⟨hof, hopened⟩ := hs.memory name m hm
    have howns := hs.owns (hs.separate name hopened)
    have hread : row ∈ (m.sealedSegments.flatMap fun segment => s.dir.rowsOf segment.filename) ++
        s.dir.rowsOf (activeFile name) := by
      unfold NamedManifest.tail at hrow
      extract_lets sealed active filtered at hrow
      have hfiltered : row ∈ filtered := by
        split at hrow
        · exact List.mem_of_mem_drop hrow
        · exact hrow
      rcases List.mem_append.mp (List.mem_filter.mp hfiltered).1 with hsealed | hactive
      · obtain ⟨segment, hsegment, hin⟩ := List.mem_flatMap.mp hsealed
        apply List.mem_append_left
        exact List.mem_flatMap.mpr ⟨segment, (List.mem_filter.mp hsegment).1, hin⟩
      · apply List.mem_append_right
        dsimp only [active] at hactive
        split at hactive
        · exact hactive
        · exact absurd hactive List.not_mem_nil
    rcases List.mem_append.mp hread with hsealed | hactive
    · obtain ⟨segment, hsegment, hin⟩ := List.mem_flatMap.mp hsealed
      exact howns.rows _ (.inr (hof.sealed segment hsegment)) row hin
    · exact howns.rows _ (.inl rfl) row hactive

theorem Sound.neverMixes (hs : s.Sound) : s.NeverMixes where
  tails name query row hrow := hs.tails query hrow
  untouched name expired failsAt t hfits hstep other hother file hof := by
    simp only [SharedJournals.step] at hstep
    split at hstep
    · rename_i hclosed
      have hdir := (hs.openJournal hfits hclosed hstep).2
      have hforeign : ¬IsCurrentFile name file := fun hfile => hother (hof.eq hfile hfits.1)
      refine ⟨hdir.others file hforeign, fun himports => ?_⟩
      have hused : other ∈ s.opened ++ s.earlier := by
        rcases hof with ⟨hopened, -⟩ | ⟨hearlier, -⟩
        · exact List.mem_append_left _ hopened
        · exact List.mem_append_right _ hearlier
      exact hfits.2 file himports other hused hother hof
    · cases hstep

end Steps

/-- Whatever is published, imported, rolled over, expired and restarted. -/
theorem run_neverMixes {s : SharedJournals} (h : machine.Run Fits {} s) : s.NeverMixes := by
  have hsound : s.Sound := h.invariant (fun _ _ _ hs hfits hstep => hs.step hfits hstep) sound_empty
  exact hsound.neverMixes

def stdoutLine (text : String) : LogLine := ⟨0, 0, .stdout, text⟩

/-- Two names of which one has a journal of an earlier version. -/
theorem web_neverMixes : ∃ s : SharedJournals, s.NeverMixes ∧
    (s.tail "web" {}).map SourcedLine.source = ["web", "web"] := by
  obtain ⟨s, hrun, hp⟩ := Machine.exists_run_of_execUnder (M := machine) (C := Fits) (s := {})
    (fun s => (s.tail "web" {}).map SourcedLine.source = ["web", "web"])
    [.earlierAppend "web" (stdoutLine "old"), .openJournal "db" 0 none,
      .publish "db" (stdoutLine "up") false 0 none, .openJournal "web" 0 none,
      .publish "web" (stdoutLine "new") true 0 none]
    (by decide +kernel)
  exact ⟨s, run_neverMixes hrun, of_decide_eq_true hp⟩

/-- The legacy file of one name is the active file of the other. -/
theorem hexName_mixes : ∃ s : SharedJournals, machine.Reaches {} s ∧
    s.tail "6162" {} = [⟨"ab", { stdoutLine "secret" with sequence := 1 }⟩] ∧ ¬s.NeverMixes := by
  obtain ⟨s, hrun, hp⟩ := Machine.exists_reaches_of_exec (M := machine) (s := {})
    (fun s => s.tail "6162" {} = [⟨"ab", { stdoutLine "secret" with sequence := 1 }⟩])
    [.registerProcessNames ["ab", "6162"], .openJournal "ab" 0 none,
      .publish "ab" (stdoutLine "secret") false 0 none, .openJournal "6162" 0 none]
    (by decide +kernel)
  have htail := of_decide_eq_true hp
  refine ⟨s, hrun, htail, fun h => ?_⟩
  have hsource := h.tails "6162" {} _ (htail ▸ List.mem_singleton_self _)
  exact absurd hsource (by decide)

end SharedJournals

end Supervisor
