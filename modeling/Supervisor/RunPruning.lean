import Supervisor.JobStore
import Supervisor.StoredTimes

namespace Supervisor

namespace Store

/-- The rows that `prune_runs` selects -/
def terminalRuns (s : Store) (jobName : String) : List JobRun :=
  s.runs.filter fun run => run.jobName = jobName && run.state.isTerminal

/-- The two statements for a run that is not kept -/
def removeRun (s : Store) (runId : JobRunId) : Store :=
  { s with
    runs := s.runs.filter fun run => run.runId ≠ runId
    runLogCleanup := if runId ∈ s.runLogCleanup then s.runLogCleanup
      else s.runLogCleanup ++ [runId] }

end Store

def optStrToDt : Option (List Char) → Option (Option Instant)
  | none => some none
  | some text => (strToDt text).map some

def JobRun.retentionTime (run : JobRun) : Instant := run.endedAt.getD run.scheduledAt

section Loop

variable (maxRuns : Option U32) (olderThan : Option Instant)

def expires (position : ℕ) (retentionTime : Instant) : Bool :=
  (maxRuns.any fun limit => limit.val ≤ position) ||
    olderThan.any fun cutoff => retentionTime < cutoff

/-- The loop over the selected rows; a time that cannot be read ends it. -/
def pruneRows : ℕ → List JobRun → List JobRunId × Store → Option (List JobRunId × Store)
  | _, [], progress => some progress
  | position, run :: rows, progress =>
    (strToDt (dtToStr run.scheduledAt)).bind fun scheduledAt =>
      (optStrToDt (run.endedAt.map dtToStr)).bind fun endedAt =>
        pruneRows (position + 1) rows <|
          if expires maxRuns olderThan position (endedAt.getD scheduledAt) then
            (progress.1 ++ [run.runId], progress.2.removeRun run.runId)
          else progress

end Loop

/-- A call of `prune_runs`. The rows come with the newest text first; where texts are equal, the
order is up to the database. -/
structure PruneCall where
  store : Store
  unique : KeyedRows.Unique JobRun.runId store.runs
  jobName : String
  maxRuns : Option U32
  olderThan : Option Instant
  rows : List JobRun
  perm : rows.Perm (store.terminalRuns jobName)
  sorted : rows.Pairwise fun a b => ¬dtToStr a.scheduledAt < dtToStr b.scheduledAt

namespace PruneCall

variable (c : PruneCall)

def pruneRuns : Option (List JobRunId × Store) :=
  if c.maxRuns.isNone && c.olderThan.isNone then some ([], c.store)
  else pruneRows c.maxRuns c.olderThan 0 c.rows ([], c.store)

/-- A transaction that fails removes nothing. -/
def effect : List JobRunId × Store := c.pruneRuns.getD ([], c.store)

def Expires (position : ℕ) (run : JobRun) : Prop :=
  expires c.maxRuns c.olderThan position run.retentionTime = true

/-- The terminal runs of the job, the newest first -/
structure NewestFirst (order : List JobRun) : Prop where
  perm : order.Perm (c.store.terminalRuns c.jobName)
  sorted : order.Pairwise fun a b => b.scheduledAt ≤ a.scheduledAt

/-- The removed runs are those that expire in an order of the terminal runs from the newest on;
they are queued, and nothing else changes. -/
def PrunesExactly : Prop :=
  ∃ order, c.NewestFirst order ∧
    (∀ run ∈ c.store.runs, run ∉ c.effect.2.runs ↔
      ∃ position, order[position]? = some run ∧ c.Expires position run) ∧
    (∀ runId, runId ∈ c.effect.1 ↔
      ∃ run ∈ c.store.runs, run.runId = runId ∧ run ∉ c.effect.2.runs) ∧
    (∀ runId, runId ∈ c.effect.2.runLogCleanup ↔
      runId ∈ c.store.runLogCleanup ∨ runId ∈ c.effect.1) ∧
    c.effect.2 = { c.store with
      runs := c.store.runs.filter fun run => run.runId ∉ c.effect.1
      runLogCleanup := c.effect.2.runLogCleanup }

/-- The times of the run have years from 0 to 9999. -/
def Readable (run : JobRun) : Prop :=
  Rfc3339.hasFourDigits run.scheduledAt = true ∧
    ∀ t, run.endedAt = some t → Rfc3339.hasFourDigits t = true

/-- The limits leave no terminal run of the job to be removed. -/
def NothingExpires : Prop :=
  (∀ limit, c.maxRuns = some limit → (c.store.terminalRuns c.jobName).length ≤ limit.val) ∧
    ∀ run ∈ c.store.terminalRuns c.jobName, ∀ cutoff, c.olderThan = some cutoff →
      cutoff ≤ run.retentionTime

end PruneCall

namespace Store

theorem foldl_removeRun (ids : List JobRunId) (s : Store) :
    ids.foldl removeRun s = { s with
      runs := s.runs.filter fun run => run.runId ∉ ids
      runLogCleanup := (ids.foldl removeRun s).runLogCleanup } ∧
    ∀ runId, runId ∈ (ids.foldl removeRun s).runLogCleanup ↔
      runId ∈ s.runLogCleanup ∨ runId ∈ ids := by
  induction ids generalizing s with
  | nil =>
    have hall : (s.runs.filter fun run => run.runId ∉ ([] : List JobRunId)) = s.runs :=
      List.filter_eq_self.mpr fun _ _ => by simp
    refine ⟨?_, fun runId => by simp⟩
    rw [hall]
    rfl
  | cons id ids ih =>
    obtain ⟨hrest, hqueued⟩ := ih (s.removeRun id)
    rw [List.foldl_cons]
    constructor
    · have hruns : ((s.removeRun id).runs.filter fun run => run.runId ∉ ids) =
          s.runs.filter fun run => run.runId ∉ id :: ids := by
        unfold removeRun
        rw [List.filter_filter]
        apply List.filter_congr
        intro run _
        rw [← Bool.decide_and]
        apply decide_eq_decide.mpr
        rw [List.mem_cons, not_or, and_comm]
      rw [← hruns]
      exact hrest
    · intro runId
      have hone : runId ∈ (s.removeRun id).runLogCleanup ↔ runId ∈ s.runLogCleanup ∨ runId = id := by
        unfold removeRun
        dsimp only
        split
        · rename_i hmem
          constructor
          · exact .inl
          · rintro (h | rfl)
            · exact h
            · exact hmem
        · rw [List.mem_append, List.mem_singleton]
      rw [hqueued, hone, List.mem_cons, or_assoc]

end Store

section Loop

variable {maxRuns : Option U32} {olderThan : Option Instant} {position : ℕ} {run : JobRun}
  {rows : List JobRun}

/-- The rows that expire, where the first one has this position -/
def expired (maxRuns : Option U32) (olderThan : Option Instant) (position : ℕ)
    (rows : List JobRun) : List JobRun :=
  ((rows.zipIdx position).filter fun row =>
    expires maxRuns olderThan row.2 row.1.retentionTime).map Prod.fst

theorem mem_expired : run ∈ expired maxRuns olderThan 0 rows ↔
    ∃ position, rows[position]? = some run ∧
      expires maxRuns olderThan position run.retentionTime = true := by
  unfold expired
  rw [List.mem_map]
  constructor
  · rintro ⟨row, hrow, rfl⟩
    obtain ⟨hmem, hexpires⟩ := List.mem_filter.mp hrow
    exact ⟨row.2, List.mem_zipIdx_iff_getElem?.mp hmem, hexpires⟩
  · rintro ⟨position, hrow, hexpires⟩
    exact ⟨(run, position), List.mem_filter.mpr
      ⟨List.mem_zipIdx_iff_getElem?.mpr hrow, hexpires⟩, rfl⟩

theorem strToDt_dtToStr {t : Instant} (ht : Rfc3339.hasFourDigits t = true) :
    strToDt (dtToStr t) = some t := Rfc3339.parse_toRfc3339 ht

theorem readable_iff : PruneCall.Readable run ↔
    strToDt (dtToStr run.scheduledAt) = some run.scheduledAt ∧
      optStrToDt (run.endedAt.map dtToStr) = some run.endedAt := by
  have hread {t : Instant} : strToDt (dtToStr t) = some t ↔ Rfc3339.hasFourDigits t = true := by
    constructor
    · intro h
      exact Rfc3339.parse_toRfc3339_iff.mp (Option.isSome_of_eq_some h)
    · exact strToDt_dtToStr
  unfold PruneCall.Readable
  rw [hread]
  cases run.endedAt with
  | none => simp [optStrToDt]
  | some ended =>
    rw [Option.map_some, optStrToDt, Option.map_eq_some_iff]
    simp [hread]

theorem pruneRows_readable (hrows : ∀ run ∈ rows, PruneCall.Readable run)
    (progress : List JobRunId × Store) :
    pruneRows maxRuns olderThan position rows progress =
      some (progress.1 ++ (expired maxRuns olderThan position rows).map JobRun.runId,
        ((expired maxRuns olderThan position rows).map JobRun.runId).foldl Store.removeRun
          progress.2) := by
  induction rows generalizing position progress with
  | nil =>
    change some progress = some (progress.1 ++ [], progress.2)
    rw [List.append_nil]
  | cons run rows ih =>
    obtain ⟨hscheduled, hended⟩ := readable_iff.mp (hrows run List.mem_cons_self)
    have hrest := @ih (position + 1) fun run hrun => hrows run (List.mem_cons_of_mem _ hrun)
    unfold pruneRows
    rw [hscheduled, Option.bind_some, hended, Option.bind_some, hrest]
    by_cases hexpires : expires maxRuns olderThan position (run.endedAt.getD run.scheduledAt) = true
    · have hcons : expired maxRuns olderThan position (run :: rows) =
          run :: expired maxRuns olderThan (position + 1) rows := by
        have hrow : expires maxRuns olderThan (run, position).2 (run, position).1.retentionTime = true :=
          hexpires
        unfold expired
        rw [List.zipIdx_cons, List.filter_cons, if_pos hrow, List.map_cons]
      rw [if_pos hexpires, hcons, List.map_cons, List.foldl_cons, List.append_assoc,
        List.singleton_append]
    · have hcons : expired maxRuns olderThan position (run :: rows) =
          expired maxRuns olderThan (position + 1) rows := by
        have hrow : ¬expires maxRuns olderThan (run, position).2 (run, position).1.retentionTime = true :=
          hexpires
        unfold expired
        rw [List.zipIdx_cons, List.filter_cons, if_neg hrow]
      rw [if_neg hexpires, hcons]

theorem pruneRows_unreadable (hrun : run ∈ rows) (hnot : ¬PruneCall.Readable run)
    (progress : List JobRunId × Store) :
    pruneRows maxRuns olderThan position rows progress = none := by
  induction rows generalizing position progress with
  | nil => exact absurd hrun List.not_mem_nil
  | cons next rows ih =>
    unfold pruneRows
    by_cases hnext : PruneCall.Readable next
    · obtain ⟨hscheduled, hended⟩ := readable_iff.mp hnext
      rw [hscheduled, Option.bind_some, hended, Option.bind_some]
      rcases List.mem_cons.mp hrun with rfl | hrest
      · exact absurd hnext hnot
      · exact ih hrest _
    · -- one of its two times is not read
      rw [Option.bind_eq_none_iff]
      intro scheduledAt hscheduled
      rw [Option.bind_eq_none_iff]
      intro endedAt hended
      have hfour := Rfc3339.parse_toRfc3339_iff.mp (Option.isSome_of_eq_some hscheduled)
      have hread : optStrToDt (next.endedAt.map dtToStr) = some next.endedAt := by
        cases hcase : next.endedAt with
        | none => rfl
        | some ended =>
          rw [hcase, Option.map_some, optStrToDt] at hended
          obtain ⟨t, ht, -⟩ := Option.map_eq_some_iff.mp hended
          have hfour := Rfc3339.parse_toRfc3339_iff.mp (Option.isSome_of_eq_some ht)
          rw [Option.map_some, optStrToDt, strToDt_dtToStr hfour, Option.map_some]
      exact absurd (readable_iff.mpr ⟨strToDt_dtToStr hfour, hread⟩) hnext

end Loop

namespace PruneCall

variable {c : PruneCall} {order : List JobRun}

theorem nothingExpires_iff (horder : c.NewestFirst order) : c.NothingExpires ↔
    ∀ position run, order[position]? = some run → ¬c.Expires position run := by
  have hlength := horder.perm.length_eq
  unfold NothingExpires Expires expires
  constructor
  · intro ⟨hcount, hage⟩ position run hrun hexpires
    have hmem := horder.perm.mem_iff.mp (List.mem_of_getElem? hrun)
    have hposition := (List.getElem?_eq_some_iff.mp hrun).1
    rw [Bool.or_eq_true, Option.any_eq_true, Option.any_eq_true] at hexpires
    rcases hexpires with ⟨limit, hlimit, hle⟩ | ⟨cutoff, hcutoff, hlt⟩
    · have hall := hcount limit hlimit
      have hreached : limit.val ≤ position := of_decide_eq_true hle
      exact absurd (hall.trans hreached) (by omega)
    · have hall := hage run hmem cutoff hcutoff
      exact absurd (of_decide_eq_true hlt) (Int.not_lt.mpr hall)
  · intro hnone
    constructor
    · intro limit hlimit
      by_contra hmore
      have hposition : limit.val < order.length := by omega
      apply hnone limit.val _ (List.getElem?_eq_getElem hposition)
      simp [hlimit]
    · intro run hrun cutoff hcutoff
      by_contra hbefore
      obtain ⟨position, hposition⟩ := List.getElem?_of_mem (horder.perm.mem_iff.mpr hrun)
      apply hnone position run hposition
      simp [hcutoff, Int.not_le.mp hbefore]

/-- The loop removes the expired rows of a listing that is in the order of time. -/
theorem prunesExactly_of (gone : List JobRun) (horder : c.NewestFirst order)
    (hgone : ∀ run ∈ gone, run ∈ c.store.runs)
    (heffect : c.effect = (gone.map JobRun.runId,
      (gone.map JobRun.runId).foldl Store.removeRun c.store))
    (hexpired : ∀ run, run ∈ gone ↔
      ∃ position, order[position]? = some run ∧ c.Expires position run) :
    c.PrunesExactly := by
  obtain ⟨hrest, hqueued⟩ := Store.foldl_removeRun (gone.map JobRun.runId) c.store
  have hremoved : c.effect.1 = gone.map JobRun.runId := congrArg Prod.fst heffect
  have hstore : c.effect.2 = (gone.map JobRun.runId).foldl Store.removeRun c.store :=
    congrArg Prod.snd heffect
  have hruns : c.effect.2.runs = c.store.runs.filter fun run => run.runId ∉ c.effect.1 := by
    rw [hstore, hrest, hremoved]
  have hnot {run : JobRun} (hrun : run ∈ c.store.runs) :
      run ∉ c.effect.2.runs ↔ run.runId ∈ c.effect.1 := by
    rw [hruns, List.mem_filter]
    simp [hrun]
  refine ⟨order, horder, ?_, ?_, ?_, ?_⟩
  · intro run hrun
    rw [hnot hrun, hremoved, ← hexpired, List.mem_map]
    constructor
    · rintro ⟨run', hrun', hid⟩
      rwa [← c.unique.eq_of_key (hgone run' hrun') hrun hid]
    · exact fun h => ⟨run, h, rfl⟩
  · intro runId
    constructor
    · intro hid
      have hid' := hid
      rw [hremoved] at hid'
      obtain ⟨run, hrun, rfl⟩ := List.mem_map.mp hid'
      exact ⟨run, hgone run hrun, rfl, (hnot (hgone run hrun)).mpr hid⟩
    · rintro ⟨run, hrun, rfl, hgoes⟩
      exact (hnot hrun).mp hgoes
  · intro runId
    rw [hstore, hremoved]
    exact hqueued runId
  · rw [hstore, hremoved]
    exact hrest

theorem effect_of_readable (hrows : ∀ run ∈ c.rows, Readable run) :
    let gone := (expired c.maxRuns c.olderThan 0 c.rows).map JobRun.runId
    c.effect = (gone, gone.foldl Store.removeRun c.store) := by
  intro gone
  unfold effect pruneRuns
  split
  · rename_i hnone
    rw [Bool.and_eq_true, Option.isNone_iff_eq_none, Option.isNone_iff_eq_none] at hnone
    have hgone : expired c.maxRuns c.olderThan 0 c.rows = [] := by
      unfold expired expires
      rw [hnone.1, hnone.2]
      simp
    have hids : gone = [] := congrArg (List.map JobRun.runId) hgone
    rw [hids]
    rfl
  · rw [pruneRows_readable hrows]
    rfl

theorem effect_of_unreadable {run : JobRun} (hrun : run ∈ c.rows) (hnot : ¬Readable run) :
    c.effect = ([], c.store) := by
  unfold effect pruneRuns
  split
  · rfl
  · rw [pruneRows_unreadable hrun hnot]
    rfl

theorem newestFirst_rows (hrows : ∀ run ∈ c.rows, Readable run) : c.NewestFirst c.rows where
  perm := c.perm
  sorted := by
    refine c.sorted.imp_of_mem fun {a b} ha hb hle => ?_
    by_contra hbefore
    exact hle (Rfc3339.lt_of_lt (hrows a ha).1 (hrows b hb).1 (Int.not_le.mp hbefore))

end PruneCall

/-- A run of the first second of the year 10000, and a limit of no runs -/
def distantRun : JobRun :=
  { runId := ⟨1⟩, jobName := "nightly", jobId := ⟨1⟩, triggeredBy := .manual
    scheduledAt := 253402300800000000000, state := .succeeded }

def distantPruning : PruneCall where
  store := { runs := [distantRun] }
  unique := List.nodup_singleton _
  jobName := "nightly"
  maxRuns := some 0
  olderThan := none
  rows := [distantRun]
  perm := .refl _
  sorted := List.pairwise_singleton _ _

end Supervisor
