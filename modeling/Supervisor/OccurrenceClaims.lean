import Supervisor.OperatorEvidence
import Supervisor.PrefixRuns
import Supervisor.StoredTimes

namespace Supervisor

/-- Primary key of a schedule -/
structure ScheduleKey where
  jobId : JobId
  triggerId : Uuid
  scheduleRevision : ℕ
deriving DecidableEq

def OccurrenceKey.schedule (key : OccurrenceKey) : ScheduleKey :=
  ⟨key.jobId, key.triggerId, key.scheduleRevision⟩

/-- A row of `schedule_cursors`, with the text that the update compares -/
structure CursorRow where
  schedule : ScheduleKey
  cursorAt : List Char

/-- `INSERT INTO schedule_cursors … ON CONFLICT … DO UPDATE` -/
def upsertCursor (cursors : List CursorRow) (excluded : CursorRow) : List CursorRow :=
  match KeyedRows.find CursorRow.schedule excluded.schedule cursors with
  | none => cursors ++ [excluded]
  | some _ =>
    KeyedRows.update CursorRow.schedule excluded.schedule
      (fun old => if old.cursorAt < excluded.cursorAt then excluded else old) cursors

/-- The tables, and the keys of the claims that were answered, the first one first. The cursors of
`tables.jobs` are not read here. -/
structure ClaimState where
  tables : EvidenceTables
  cursors : List CursorRow := []
  claimed : List OccurrenceKey := []

inductive ClaimCall where
  | claim (job : Job) (occurrence : ScheduleOccurrence) (now : Instant) (eventId : Uuid)
  | restart (now : Instant) (eventId : DurableScheduleOccurrence → Uuid)

namespace ClaimState

variable (s : ClaimState)

/-- A claim that fails is rolled back. -/
def call : ClaimCall → ClaimState
  | .claim job occurrence now eventId =>
    match s.tables.claimScheduleOccurrence job occurrence now eventId with
    | .error _ => s
    | .ok (_, tables) =>
      let key := occurrence.key job.id
      { tables
        cursors := upsertCursor s.cursors ⟨key.schedule, dtToStr key.scheduledAt⟩
        claimed := s.claimed ++ [key] }
  | .restart now eventId =>
    { s with tables := (s.tables.recoverScheduleOccurrences now eventId).toOption.getD s.tables }

def run (calls : List ClaimCall) : ClaimState := calls.foldl call s

/-- The events that report a claim of this occurrence -/
def reports (key : OccurrenceKey) : ℕ :=
  s.tables.events.countP fun row => row.fields.transitionKey = (EventKey.claim key).text

def cursor (schedule : ScheduleKey) : Option (List Char) :=
  (KeyedRows.find CursorRow.schedule schedule s.cursors).map CursorRow.cursorAt

def claimedTimes (schedule : ScheduleKey) : Set Instant :=
  { t | ∃ key ∈ s.claimed, key.schedule = schedule ∧ key.scheduledAt = t }

/-- One row for each occurrence that was claimed, and one report -/
structure ClaimedOnce : Prop where
  unique : KeyedRows.Unique DurableScheduleOccurrence.key s.tables.jobs.occurrences
  rows : ∀ key, (∃ d ∈ s.tables.jobs.occurrences, d.key = key) ↔ key ∈ s.claimed
  reports : ∀ key, s.reports key = if key ∈ s.claimed then 1 else 0

/-- Every cursor is at the greatest time that was claimed for its schedule. -/
def CursorsExact : Prop := ∀ schedule,
  (s.cursor schedule = none ∧ s.claimedTimes schedule = ∅) ∨
    ∃ t, IsGreatest (s.claimedTimes schedule) t ∧ s.cursor schedule = some (dtToStr t)

/-- A claim compares the text of its time with that of the greatest one before it as the times
compare. -/
def InTextOrder : ClaimCall → Prop
  | .claim job occurrence now eventId =>
    (s.tables.claimScheduleOccurrence job occurrence now eventId).isOk = true →
      ∀ t, IsGreatest (s.claimedTimes (occurrence.key job.id).schedule) t →
        (dtToStr t < dtToStr occurrence.scheduledAt ↔ t < occurrence.scheduledAt)
  | .restart _ _ => True

end ClaimState

section Cursors

variable {s : ClaimState}

theorem find_upsertCursor (cursors : List CursorRow) (excluded : CursorRow)
    (schedule : ScheduleKey) :
    KeyedRows.find CursorRow.schedule schedule (upsertCursor cursors excluded) =
      if schedule = excluded.schedule then
        some (match KeyedRows.find CursorRow.schedule schedule cursors with
          | none => excluded
          | some old => if old.cursorAt < excluded.cursorAt then excluded else old)
      else KeyedRows.find CursorRow.schedule schedule cursors := by
  unfold upsertCursor
  by_cases hkey : schedule = excluded.schedule
  · rw [if_pos hkey, ← hkey]
    cases hfind : KeyedRows.find CursorRow.schedule schedule cursors with
    | none =>
      dsimp only
      rw [KeyedRows.find_append, hfind, KeyedRows.find_singleton, if_pos hkey.symm]
      rfl
    | some old =>
      dsimp only
      rw [KeyedRows.find_update, if_pos rfl, hfind]
      · rfl
      · intro row hrow
        split
        · exact hkey.symm
        · exact hrow
  · rw [if_neg hkey]
    split
    · rw [KeyedRows.find_append, KeyedRows.find_singleton, if_neg (Ne.symm hkey), Option.or_none]
    · rw [KeyedRows.find_update, if_neg hkey]
      intro row hrow
      split
      · rfl
      · exact hrow

theorem claimedTimes_append (key : OccurrenceKey) (schedule : ScheduleKey)
    (s' : ClaimState) (h : s'.claimed = s.claimed ++ [key]) :
    s'.claimedTimes schedule =
      if schedule = key.schedule then insert key.scheduledAt (s.claimedTimes schedule)
      else s.claimedTimes schedule := by
  ext t
  unfold ClaimState.claimedTimes
  rw [h]
  split
  · rename_i hkey
    simp [hkey, or_and_right, exists_or, or_comm, eq_comm]
  · rename_i hkey
    simp [Ne.symm hkey, or_and_right, exists_or]

theorem cursorsExact_upsert {s' : ClaimState} {key : OccurrenceKey} (hs : s.CursorsExact)
    (hclaimed : s'.claimed = s.claimed ++ [key])
    (hcursors : s'.cursors = upsertCursor s.cursors ⟨key.schedule, dtToStr key.scheduledAt⟩) :
    s'.CursorsExact ↔ ∀ t, IsGreatest (s.claimedTimes key.schedule) t →
      (dtToStr t < dtToStr key.scheduledAt ↔ t < key.scheduledAt) := by
  have htimes (schedule) := claimedTimes_append key schedule s' hclaimed
  have hcursor (schedule : ScheduleKey) : s'.cursor schedule = (if schedule = key.schedule then
      some ((s.cursor schedule).elim (dtToStr key.scheduledAt) fun old =>
        if old < dtToStr key.scheduledAt then dtToStr key.scheduledAt else old)
      else s.cursor schedule) := by
    unfold ClaimState.cursor
    rw [hcursors, find_upsertCursor]
    split
    · cases KeyedRows.find CursorRow.schedule schedule s.cursors with
      | none => rfl
      | some old => simp only [Option.map_some, Option.elim_some, apply_ite CursorRow.cursorAt]
    · rfl
  have hother {schedule : ScheduleKey} (hne : schedule ≠ key.schedule) :
      (s'.cursor schedule = none ∧ s'.claimedTimes schedule = ∅) ∨
        ∃ t, IsGreatest (s'.claimedTimes schedule) t ∧ s'.cursor schedule = some (dtToStr t) := by
    rw [htimes, hcursor, if_neg hne, if_neg hne]
    exact hs schedule
  have hsame : s'.claimedTimes key.schedule = insert key.scheduledAt (s.claimedTimes key.schedule) :=
    (htimes key.schedule).trans (if_pos rfl)
  have hnew := (hcursor key.schedule).trans (if_pos rfl)
  rcases hs key.schedule with ⟨hnone, hempty⟩ | ⟨t, ht, hold⟩
  · refine iff_of_true (fun schedule => ?_) fun t ht => ?_
    · by_cases hkey : schedule = key.schedule
      · right
        refine ⟨key.scheduledAt, ?_, ?_⟩
        · rw [hkey, hsame, hempty, insert_empty_eq]
          exact isGreatest_singleton
        · rw [hkey, hnew, hnone, Option.elim_none]
      · exact hother hkey
    · rw [hempty] at ht
      exact absurd ht.1 (Set.notMem_empty t)
  · rw [hold] at hnew
    have hgreatest : IsGreatest (s'.claimedTimes key.schedule) (max key.scheduledAt t) := by
      rw [hsame]
      exact ht.insert key.scheduledAt
    have hexact : s'.CursorsExact ↔
        s'.cursor key.schedule = some (dtToStr (max key.scheduledAt t)) := by
      constructor
      · intro h
        rcases h key.schedule with ⟨-, hempty⟩ | ⟨t', ht', hcursor'⟩
        · rw [hempty] at hgreatest
          exact absurd hgreatest.1 (Set.notMem_empty _)
        · rwa [ht'.unique hgreatest] at hcursor'
      · intro h schedule
        by_cases hkey : schedule = key.schedule
        · exact .inr ⟨_, hkey ▸ hgreatest, hkey ▸ h⟩
        · exact hother hkey
    rw [hexact, hnew]
    have honly : (∀ t', IsGreatest (s.claimedTimes key.schedule) t' →
        (dtToStr t' < dtToStr key.scheduledAt ↔ t' < key.scheduledAt)) ↔
          (dtToStr t < dtToStr key.scheduledAt ↔ t < key.scheduledAt) :=
      ⟨fun h => h t ht, fun h t' ht' => by rwa [ht'.unique ht]⟩
    rw [honly, Option.elim_some, Option.some_inj]
    rcases lt_or_ge t key.scheduledAt with hlt | hge
    · rw [max_eq_left hlt.le, iff_true_right hlt]
      split
      · rename_i htext
        exact iff_of_true rfl htext
      · rename_i htext
        exact iff_of_false (fun h => hlt.ne (Rfc3339.toRfc3339_injective h)) htext
    · rw [max_eq_right hge, iff_false_right (Int.not_lt.mpr hge)]
      split
      · rename_i htext
        refine iff_of_false (fun h => ?_) (not_not.mpr htext)
        rw [h] at htext
        exact List.lt_irrefl _ htext
      · rename_i htext
        exact iff_of_true rfl htext

end Cursors

section Rows

variable {events events' : List EventRow} {id : Uuid} {n : Notice}

theorem insertOperatorEvent_append (h : insertOperatorEvent events id n = .ok events') :
    (events.any fun row => row.fields.transitionKey = n.fields.transitionKey) = true ∧
        events' = events ∨
      events' = events ++ [⟨id, n.fields⟩] := by
  unfold insertOperatorEvent at h
  split at h
  · rename_i htaken
    cases h
    exact .inl ⟨htaken, rfl⟩
  · split at h
    · cases h
    · cases h
      exact .inr rfl

def claimReports (events : List EventRow) (key : OccurrenceKey) : ℕ :=
  events.countP fun row => row.fields.transitionKey = (EventKey.claim key).text

/-- An event of another kind reports no claim. -/
theorem claimReports_insert {key : OccurrenceKey} (hother : n.transition.key ≠ .claim key)
    (h : insertOperatorEvent events id n = .ok events') :
    claimReports events' key = claimReports events key := by
  rcases insertOperatorEvent_append h with ⟨-, rfl⟩ | rfl
  · rfl
  · have hnot : ¬n.transition.key.text = (EventKey.claim key).text :=
      fun heq => hother (EventKey.text_injective heq)
    unfold claimReports
    rw [List.countP_append, List.countP_singleton, if_neg (by simp [Notice.fields, hnot]),
      Nat.add_zero]

theorem claimReports_insertRecovered {now : Instant} {eventId : DurableScheduleOccurrence → Uuid}
    {rows : List DurableScheduleOccurrence} {key : OccurrenceKey}
    (h : EvidenceTables.insertRecovered now eventId rows events = .ok events') :
    claimReports events' key = claimReports events key := by
  induction rows generalizing events with
  | nil =>
    cases h
    rfl
  | cons row rows ih =>
    obtain ⟨events₁, hinsert, hrest⟩ := Except.bind_ok h
    exact (ih hrest).trans (claimReports_insert (fun heq => by cases heq) hinsert)

variable {s : ClaimState}

/-- What an answered claim does to the rows and the reports -/
theorem ClaimState.ClaimedOnce.claim {s' : ClaimState} (hs : s.ClaimedOnce) {job : Job}
    {occurrence : ScheduleOccurrence} {now : Instant} {eventId : Uuid}
    {durable : DurableScheduleOccurrence}
    (h : s.tables.claimScheduleOccurrence job occurrence now eventId = .ok (durable, s'.tables))
    (hclaimed : s'.claimed = s.claimed ++ [occurrence.key job.id]) : s'.ClaimedOnce := by
  obtain ⟨jobs, events, hclaim, htables, hevents⟩ := EvidenceState.claim_ok h
  have hmem (key : OccurrenceKey) :
      key ∈ s'.claimed ↔ key ∈ s.claimed ∨ key = occurrence.key job.id := by
    rw [hclaimed, List.mem_append, List.mem_singleton]
  unfold Store.claimScheduleOccurrence at hclaim
  cases hfind : s.tables.jobs.findOccurrence (occurrence.key job.id) with
  | some row =>
    -- a repetition: its row and its report are there
    rw [hfind] at hclaim hevents
    cases hclaim
    rw [if_neg (by simp)] at hevents
    have hold : occurrence.key job.id ∈ s.claimed :=
      (hs.rows _).mp ⟨durable, KeyedRows.find_mem hfind, KeyedRows.find_key hfind⟩
    have hkeys (key : OccurrenceKey) : key ∈ s'.claimed ↔ key ∈ s.claimed :=
      (hmem key).trans (or_iff_left_of_imp fun heq => heq ▸ hold)
    have hrows : s'.tables.jobs.occurrences = s.tables.jobs.occurrences := by
      rw [htables]
      exact (Store.advanceCursor_rows job.id occurrence).2.2
    have hreports : s'.tables.events = s.tables.events := by
      rw [htables]
      exact hevents
    constructor
    · rw [hrows]
      exact hs.unique
    · intro key
      rw [hrows, hkeys]
      exact hs.rows key
    · intro key
      unfold ClaimState.reports
      rw [hreports]
      simp only [hkeys]
      exact hs.reports key
  | none =>
    rw [hfind] at hclaim hevents
    rw [Option.isNone_none, if_pos rfl] at hevents
    have hfresh := KeyedRows.find_eq_none.mp hfind
    have hnew : occurrence.key job.id ∉ s.claimed := by
      intro hold
      obtain ⟨row, hrow, hkey⟩ := (hs.rows _).mpr hold
      exact hfresh row hrow hkey
    dsimp only at hclaim
    split at hclaim
    case isFalse => cases hclaim
    case isTrue =>
      cases hclaim
      have hrows : s'.tables.jobs.occurrences = s.tables.jobs.occurrences ++
          [EvidenceState.claimedRow job occurrence now] := by
        rw [htables]
        exact (Store.advanceCursor_rows job.id occurrence).2.2
      have hreports : s'.tables.events = events := by rw [htables]
      constructor
      · rw [hrows]
        exact hs.unique.append hfresh
      · intro key
        rw [hrows, hmem, ← hs.rows]
        simp only [List.mem_append, List.mem_singleton, or_and_right, exists_or, exists_eq_left]
        exact or_congr_right eq_comm
      · intro key
        change claimReports s'.tables.events key = _
        rw [hreports]
        by_cases hkey : key = occurrence.key job.id
        · have hzero : claimReports s.tables.events key = 0 := by
            rw [hkey]
            exact (hs.reports _).trans (if_neg hnew)
          rw [if_pos ((hmem key).mpr (.inr hkey))]
          rcases insertOperatorEvent_append hevents with ⟨htaken, -⟩ | happend
          · -- the key of the event would be taken, but it is not reported
            obtain ⟨row, hrow, htext⟩ := List.any_eq_true.mp htaken
            refine absurd htext (List.countP_eq_zero.mp hzero row hrow |> fun hnot htext => hnot ?_)
            rw [hkey]
            exact htext
          · rw [happend]
            unfold claimReports at hzero ⊢
            rw [List.countP_append, hzero, hkey]
            exact (Nat.zero_add _).trans (List.countP_singleton.trans (if_pos (decide_eq_true rfl)))
        · have hsame : claimReports events key = claimReports s.tables.events key := by
            apply claimReports_insert _ hevents
            intro heq
            exact hkey (EventKey.claim.inj heq).symm
          rw [hsame]
          simp only [hmem, hkey, or_false]
          exact hs.reports key

theorem ClaimState.ClaimedOnce.call (hs : s.ClaimedOnce) (c : ClaimCall) : (s.call c).ClaimedOnce := by
  cases c with
  | claim job occurrence now eventId =>
    unfold ClaimState.call
    dsimp only
    split
    · exact hs
    · rename_i tables hclaim
      exact hs.claim hclaim rfl
  | restart now eventId =>
    unfold ClaimState.call
    dsimp only
    cases hrecover : s.tables.recoverScheduleOccurrences now eventId with
    | error e => exact hs
    | ok t =>
      obtain ⟨events, hevents, ht⟩ := Except.bind_ok hrecover
      cases ht
      have hkeys := s.tables.jobs.map_recover_keys now
      constructor
      · exact (congrArg List.Nodup hkeys).mpr hs.unique
      · intro key
        rw [← hs.rows, ← List.mem_map, ← List.mem_map]
        exact iff_of_eq (congrArg (key ∈ ·) hkeys)
      · intro key
        exact (claimReports_insertRecovered hevents).trans (hs.reports key)

end Rows

section Runs

variable {s start : ClaimState}

theorem cursorsExact_call (hs : s.CursorsExact) (c : ClaimCall) :
    (s.call c).CursorsExact ↔ s.InTextOrder c := by
  cases c with
  | claim job occurrence now eventId =>
    unfold ClaimState.call ClaimState.InTextOrder
    dsimp only
    cases hclaim : s.tables.claimScheduleOccurrence job occurrence now eventId with
    | error e => exact iff_of_true hs fun hok => by cases hok
    | ok answer =>
      rw [cursorsExact_upsert hs rfl rfl]
      exact ⟨fun h _ => h, fun h => h rfl⟩
  | restart now eventId => exact iff_of_true hs trivial

theorem claimed_mono {before after : List ClaimCall} (h : before <+: after) :
    (start.run before).claimed ⊆ (start.run after).claimed := by
  obtain ⟨calls, rfl⟩ := h
  induction calls using List.reverseRecOn with
  | nil =>
    rw [List.append_nil]
    exact fun _ hkey => hkey
  | append_singleton calls c ih =>
    rw [← List.append_assoc]
    unfold ClaimState.run at ih ⊢
    rw [List.foldl_concat]
    intro key hkey
    have hrun := ih hkey
    unfold ClaimState.call
    split
    · split
      · exact hrun
      · exact List.mem_append_left _ hrun
    · exact hrun

end Runs

/-- No occurrence was claimed yet. -/
def noClaims (jobs : List Job) (runs : List JobRun) (processes : ProcessTables) : ClaimState :=
  { tables := { jobs := { jobs, runs }, processes, events := [] } }

theorem noClaims_claimedOnce (jobs : List Job) (runs : List JobRun) (processes : ProcessTables) :
    (noClaims jobs runs processes).ClaimedOnce where
  unique := List.nodup_nil
  rows key := by simp [noClaims]
  reports _ := rfl

theorem noClaims_cursorsExact (jobs : List Job) (runs : List JobRun) (processes : ProcessTables) :
    (noClaims jobs runs processes).CursorsExact := by
  intro schedule
  refine .inl ⟨rfl, ?_⟩
  ext t
  simp [ClaimState.claimedTimes, noClaims]

/-- Times of years from 0 to 9999 compare as their texts. -/
theorem inTextOrder_of_years {s : ClaimState} {job : Job} {occurrence : ScheduleOccurrence}
    {now : Instant} {eventId : Uuid} (h : Rfc3339.hasFourDigits occurrence.scheduledAt = true)
    (hs : ∀ key ∈ s.claimed, Rfc3339.hasFourDigits key.scheduledAt = true) :
    s.InTextOrder (.claim job occurrence now eventId) := by
  intro _ t ht
  obtain ⟨key, hkey, -, rfl⟩ := ht.1
  exact Rfc3339.lt_iff (hs key hkey) h

def claimAt (scheduledAt : Instant) : ClaimCall :=
  .claim { id := ⟨1⟩, name := "nightly", trigger := .oneShot 0 }
    { triggerId := 2, scheduleRevision := 1, scheduledAt, attempt := 1 } 0 scheduledAt.natAbs

/-- The last second of the year 9999 and the one after it -/
def turnOfYear : ClaimState :=
  (noClaims [{ id := ⟨1⟩, name := "nightly", trigger := .oneShot 0 }] []
      { instances := [], unique := List.nodup_nil }).run
    [claimAt 253402300799000000000, claimAt 253402300800000000000]

end Supervisor
