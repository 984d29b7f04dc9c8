import Mathlib.Algebra.Group.Action.Defs
import Mathlib.Algebra.Order.BigOperators.Group.List
import Supervisor.AppError
import Supervisor.KeyedTable
import Supervisor.Machine
import Supervisor.ProcessDomain
import Supervisor.Rfc3339

namespace Supervisor

/-- What is done to the loads of a processor, which are of type `f64` -/
structure LoadArithmetic (φ : Type) where
  zero : φ
  add : φ → φ → φ
  divCount : φ → ℕ → φ
  /-- In JSON a number that is not finite is `null`. -/
  isFinite : φ → Bool

/-- A sample with its id, as a row of `observability_metrics` or an aggregate -/
structure RawMetric (φ : Type) where
  id : Uuid
  occurredAt : Instant
  source : List Char
  cpuPercent : Option φ
  memoryBytes : Option U64
  partialBucket : Bool
deriving DecidableEq

abbrev nanosPerMinute : ℕ := 60 * nanosPerSec

/-- `with_second(0)` and `with_nanosecond(0)` -/
def minuteStart (t : ℤ) : ℤ := t - t % nanosPerMinute

structure MetricBucket where
  bucketStart : Instant
  source : List Char
deriving DecidableEq

/-- A row of `observability_metric_minutes` -/
structure MinuteRow (φ : Type) where
  bucket : MetricBucket
  payload : RawMetric φ
deriving DecidableEq

structure MinuteMetric (φ : Type) where
  cpuSum : φ
  cpuCount : ℕ := 0
  memorySum : ℕ := 0
  memoryCount : ℕ := 0
  partialBucket : Bool := false

section Samples

variable {φ : Type}

def RawMetric.bucket (sample : RawMetric φ) : MetricBucket :=
  ⟨minuteStart sample.occurredAt, sample.source⟩

def RawMetric.isPartial (sample : RawMetric φ) : Bool :=
  sample.partialBucket || sample.cpuPercent.isNone || sample.memoryBytes.isNone

namespace MinuteMetric

variable (arith : LoadArithmetic φ)

def add (m : MinuteMetric φ) (sample : RawMetric φ) : MinuteMetric φ where
  cpuSum := sample.cpuPercent.elim m.cpuSum (arith.add m.cpuSum)
  cpuCount := if sample.cpuPercent.isSome then m.cpuCount + 1 else m.cpuCount
  memorySum := sample.memoryBytes.elim m.memorySum fun memory =>
    min (m.memorySum + memory.val) (2^128 - 1)
  memoryCount := if sample.memoryBytes.isSome then m.memoryCount + 1 else m.memoryCount
  partialBucket := m.partialBucket || sample.isPartial

def collect (samples : List (RawMetric φ)) : MinuteMetric φ :=
  samples.foldl (add arith) { cpuSum := arith.zero }

def aggregate (m : MinuteMetric φ) (bucket : MetricBucket) (id : Uuid) : MinuteRow φ :=
  ⟨bucket, {
    id
    occurredAt := bucket.bucketStart
    source := bucket.source
    cpuPercent := if 0 < m.cpuCount then some (arith.divCount m.cpuSum m.cpuCount) else none
    memoryBytes :=
      if 0 < m.memoryCount then some (Fin.ofNat (2^64) (m.memorySum / m.memoryCount)) else none
    partialBucket := m.partialBucket }⟩

end MinuteMetric

end Samples

/-- The tables of the metrics -/
structure MetricStore (φ : Type) where
  metrics : KeyedTable (RawMetric.id (φ := φ))
  minutes : KeyedTable (MinuteRow.bucket (φ := φ))

/-- The largest number of a row -/
abbrev maxRowid : ℕ := 2^63 - 1

namespace MetricStore

variable {φ : Type} (arith : LoadArithmetic φ)

/-- The payload of a sample, read back -/
def payload (sample : RawMetric φ) : RawMetric φ :=
  { sample with cpuPercent := sample.cpuPercent.filter arith.isFinite }

/-- `INSERT OR IGNORE`; a table without free numbers takes no more rows. -/
def recordMetric (s : MetricStore φ) (sample : RawMetric φ) : Except RepoError (MetricStore φ) :=
  if maxRowid ≤ s.metrics.rows.length then .error (.backend "database or disk is full")
  else .ok { s with metrics := (s.metrics.insert (payload arith sample)).getD s.metrics }

def rawCutoff (now : Instant) : Instant := now - 24 * 3600 * nanosPerSec

def sealedCutoff (now : Instant) : Instant := minuteStart (rawCutoff now)

def minuteCutoff (now : Instant) : Instant := now - 30 * 24 * 3600 * nanosPerSec

/-- `occurred_at < ?`, by the texts -/
def isSealed (now : Instant) (row : RawMetric φ) : Bool :=
  Rfc3339.toRfc3339 row.occurredAt < Rfc3339.toRfc3339 (sealedCutoff now)

/-- The buckets of the rows, in some order -/
def buckets (rows : List (RawMetric φ)) : List MetricBucket := (rows.map RawMetric.bucket).dedup

def minuteRow (rows : List (RawMetric φ)) (newId : MetricBucket → Uuid) (bucket : MetricBucket) :
    MinuteRow φ :=
  (MinuteMetric.collect arith (rows.filter fun row => row.bucket = bucket)).aggregate arith bucket
    (newId bucket)

/-- `ON CONFLICT(bucket_start,source) DO NOTHING` -/
def insertMinute (minutes : KeyedTable (MinuteRow.bucket (φ := φ))) (row : MinuteRow φ) :
    KeyedTable (MinuteRow.bucket (φ := φ)) := (minutes.insert row).getD minutes

/-- The metric statements of `maintain`. A text with a sign is not read back. -/
def maintain (s : MetricStore φ) (now : Instant) (newId : MetricBucket → Uuid) :
    Except RepoError (MetricStore φ) :=
  let rows := s.metrics.rows.filter (isSealed now)
  if rows.any fun row => !Rfc3339.hasFourDigits row.occurredAt then
    .error (.backend "input contains invalid characters")
  else .ok {
    metrics := s.metrics.filter fun row => !isSealed now row
    minutes := (((buckets rows).map (minuteRow arith rows newId)).foldl insertMinute s.minutes).filter
      fun row => !decide (Rfc3339.toRfc3339 row.bucket.bucketStart <
        Rfc3339.toRfc3339 (minuteCutoff now)) }

end MetricStore

structure MetricSystem (φ : Type) where
  store : MetricStore φ
  /-- The rows that have been inserted, oldest first -/
  recorded : List (RawMetric φ)
  /-- The minutes that passes have inserted -/
  aggregated : List (MinuteRow φ)
  /-- The times of the passes that have committed -/
  passes : List Instant

inductive MetricEvent (φ : Type) where
  | record (sample : RawMetric φ)
  | maintain (now : Instant) (newId : MetricBucket → Uuid) (ok : Bool)

namespace MetricSystem

variable {φ : Type} (arith : LoadArithmetic φ)

def start : MetricSystem φ := ⟨⟨.empty, .empty⟩, [], [], []⟩

/-- `record_metric`; a row is inserted when its id is new. -/
def record (s : MetricSystem φ) (sample : RawMetric φ) : MetricSystem φ :=
  match s.store.recordMetric arith sample with
  | .error _ => s
  | .ok store =>
    { s with
      store
      recorded := if s.store.metrics.has sample.id then s.recorded
        else s.recorded ++ [MetricStore.payload arith sample] }

/-- The minutes that a pass inserts -/
def freshMinutes (s : MetricSystem φ) (now : Instant) (newId : MetricBucket → Uuid) :
    List (MinuteRow φ) :=
  let rows := s.store.metrics.rows.filter (MetricStore.isSealed now)
  ((MetricStore.buckets rows).filter fun bucket => !s.store.minutes.has bucket).map
    (MetricStore.minuteRow arith rows newId)

/-- `maintain`; `ok` is false when another statement of the transaction fails. -/
def pass (s : MetricSystem φ) (now : Instant) (newId : MetricBucket → Uuid) (ok : Bool) :
    MetricSystem φ :=
  match s.store.maintain arith now newId with
  | .error _ => s
  | .ok store =>
    if ok then
      { s with
        store
        aggregated := s.aggregated ++ s.freshMinutes arith now newId
        passes := now :: s.passes }
    else s

def step (s : MetricSystem φ) : MetricEvent φ → Option (MetricSystem φ)
  | .record sample => some (s.record arith sample)
  | .maintain now newId ok => some (s.pass arith now newId ok)

/-- A sample is recorded before its minute is sealed. -/
def OnTime (s : MetricSystem φ) : MetricEvent φ → Prop
  | .record sample => ∀ now ∈ s.passes, MetricStore.sealedCutoff now ≤ sample.occurredAt
  | .maintain .. => True

instance (s : MetricSystem φ) (e : MetricEvent φ) : Decidable (s.OnTime e) := by
  cases e with
  | record sample => exact inferInstanceAs (Decidable (∀ now ∈ s.passes, _))
  | maintain now newId ok => exact .isTrue trivial

end MetricSystem

/-- The recording and the retention of metrics -/
def metricSystem {φ : Type} (arith : LoadArithmetic φ) : Machine (MetricSystem φ) (MetricEvent φ) :=
  ⟨MetricSystem.step arith⟩

section Minutes

variable {t u : ℤ}

theorem lt_minuteStart : t < minuteStart t + nanosPerMinute := by
  have hlt := Int.emod_lt_of_pos t (b := nanosPerMinute) (by decide)
  unfold minuteStart
  omega

theorem minuteStart_cut (h : t < minuteStart u) : minuteStart t + nanosPerMinute ≤ minuteStart u := by
  unfold minuteStart nanosPerMinute nanosPerSec at *
  omega

theorem day_minuteStart : Rfc3339.day (minuteStart t) = Rfc3339.day t := by
  unfold Rfc3339.day minuteStart
  unfold nanosPerMinute nanosPerSec Rfc3339.nanosPerDay Rfc3339.nanosPerHour Rfc3339.nanosPerMinute
    Rfc3339.nanosPerSecond
  omega

theorem hasFourDigits_minuteStart :
    Rfc3339.hasFourDigits (minuteStart t) = Rfc3339.hasFourDigits t := by
  unfold Rfc3339.hasFourDigits
  rw [day_minuteStart]

end Minutes

section Aggregates

variable {φ : Type} (arith : LoadArithmetic φ)

def memoryValues (samples : List (RawMetric φ)) : List ℕ :=
  samples.filterMap fun sample => sample.memoryBytes.map Fin.val

/-- What a bucket says of the samples of its minute -/
structure MinuteRow.IsMeanOf (row : MinuteRow φ) (samples : List (RawMetric φ)) : Prop where
  memory : row.payload.memoryBytes.map Fin.val =
    if memoryValues samples = [] then none
    else some ((memoryValues samples).sum / (memoryValues samples).length)
  isPartial : row.payload.partialBucket = samples.any RawMetric.isPartial

theorem sum_memoryValues_le (samples : List (RawMetric φ)) :
    (memoryValues samples).sum ≤ (memoryValues samples).length * (2^64 - 1) := by
  have hle : ∀ n ∈ memoryValues samples, n ≤ 2^64 - 1 := by
    intro n hn
    obtain ⟨sample, -, hsample⟩ := List.mem_filterMap.mp hn
    obtain ⟨memory, -, rfl⟩ := Option.map_eq_some_iff.mp hsample
    omega
  have hsum := List.sum_le_card_nsmul _ _ hle
  rwa [smul_eq_mul] at hsum

theorem memoryValues_concat (samples : List (RawMetric φ)) (sample : RawMetric φ) :
    memoryValues (samples ++ [sample]) =
      memoryValues samples ++ (sample.memoryBytes.map Fin.val).toList := by
  unfold memoryValues
  rw [List.filterMap_append]
  cases h : sample.memoryBytes with
  | none => simp [h]
  | some memory => simp [h]

/-- The sum of fewer samples than a table can hold is not saturated. -/
theorem collect_counts (samples : List (RawMetric φ)) (h : samples.length ≤ maxRowid) :
    (MinuteMetric.collect arith samples).memorySum = (memoryValues samples).sum ∧
      (MinuteMetric.collect arith samples).memoryCount = (memoryValues samples).length ∧
      (MinuteMetric.collect arith samples).partialBucket = samples.any RawMetric.isPartial := by
  induction samples using List.reverseRecOn with
  | nil => exact ⟨rfl, rfl, rfl⟩
  | append_singleton samples sample ih =>
    rw [List.length_append, List.length_singleton] at h
    obtain ⟨hsum, hcount, hpartial⟩ := ih (by omega)
    have hadd : MinuteMetric.collect arith (samples ++ [sample]) =
        (MinuteMetric.collect arith samples).add arith sample := by
      unfold MinuteMetric.collect
      rw [List.foldl_append]
      rfl
    rw [hadd, memoryValues_concat, List.any_append]
    unfold MinuteMetric.add
    dsimp only
    rw [hsum, hcount, hpartial]
    have hfew : (memoryValues samples).length ≤ samples.length := List.length_filterMap_le _ _
    have hle := sum_memoryValues_le samples
    cases hmemory : sample.memoryBytes with
    | none => simp
    | some memory =>
      have hlt := memory.isLt
      refine ⟨?_, ?_, ?_⟩
      · simp only [Option.elim_some, Option.map_some, Option.toList_some, List.sum_append,
          List.sum_singleton]
        unfold maxRowid at h
        omega
      · simp
      · simp

theorem aggregate_isMeanOf (samples : List (RawMetric φ)) (h : samples.length ≤ maxRowid)
    (bucket : MetricBucket) (id : Uuid) :
    ((MinuteMetric.collect arith samples).aggregate arith bucket id).IsMeanOf samples := by
  obtain ⟨hsum, hcount, hpartial⟩ := collect_counts arith samples h
  have hle := sum_memoryValues_le samples
  constructor
  · unfold MinuteMetric.aggregate
    dsimp only
    rw [hsum, hcount]
    by_cases hnil : memoryValues samples = []
    · rw [if_pos hnil, hnil]
      rfl
    · have hpos := List.length_pos_iff.mpr hnil
      -- the mean of values below 2^64 is below it, and the cast keeps it
      have hmean : (memoryValues samples).sum / (memoryValues samples).length < 2^64 := by
        apply Nat.div_lt_of_lt_mul
        refine lt_of_le_of_lt hle ?_
        exact Nat.mul_lt_mul_of_pos_left (by decide) hpos
      rw [if_pos hpos, if_neg hnil, Option.map_some]
      exact congrArg some (Nat.mod_eq_of_lt hmean)
  · exact hpartial

end Aggregates

namespace MetricStore

variable {φ : Type} {arith : LoadArithmetic φ} {minutes : KeyedTable (MinuteRow.bucket (φ := φ))}
  {m row : MinuteRow φ}

theorem mem_insertMinute :
    m ∈ insertMinute minutes row ↔ m ∈ minutes ∨ m = row ∧ minutes.has row.bucket = false := by
  unfold insertMinute
  cases hinsert : minutes.insert row with
  | none =>
    have hhas : minutes.has row.bucket = true :=
      KeyedTable.has_iff.mpr (KeyedTable.insert_eq_none.mp hinsert)
    rw [Option.getD_none, hhas]
    simp
  | some minutes' =>
    have hnot : minutes.has row.bucket = false := by
      rw [Bool.eq_false_iff]
      intro hhas
      obtain ⟨r, hr, hkey⟩ := KeyedTable.has_iff.mp hhas
      exact (KeyedTable.insert_eq_some.mp hinsert).1 r hr hkey
    rw [Option.getD_some, KeyedTable.mem_insert hinsert, hnot]
    simp

theorem has_insertMinute (h : m.bucket ≠ row.bucket) :
    (insertMinute minutes row).has m.bucket = minutes.has m.bucket := by
  rw [Bool.eq_iff_iff, KeyedTable.has_iff, KeyedTable.has_iff]
  constructor
  · rintro ⟨r, hr, hkey⟩
    rcases mem_insertMinute.mp hr with hr | ⟨rfl, -⟩
    · exact ⟨r, hr, hkey⟩
    · exact absurd hkey.symm h
  · rintro ⟨r, hr, hkey⟩
    exact ⟨r, mem_insertMinute.mpr (.inl hr), hkey⟩

/-- The rows of new minutes are inserted. -/
theorem mem_foldl_insertMinute {rows : List (MinuteRow φ)}
    (hrows : (rows.map MinuteRow.bucket).Nodup) :
    m ∈ rows.foldl insertMinute minutes ↔
      m ∈ minutes ∨ m ∈ rows ∧ minutes.has m.bucket = false := by
  induction rows generalizing minutes with
  | nil => simp
  | cons row rows ih =>
    obtain ⟨hnew, htail⟩ := List.nodup_cons.mp hrows
    rw [List.foldl_cons, ih htail, mem_insertMinute, List.mem_cons]
    have hhas (hm : m ∈ rows) : (insertMinute minutes row).has m.bucket = minutes.has m.bucket :=
      has_insertMinute fun heq => hnew (heq ▸ List.mem_map_of_mem hm)
    constructor
    · rintro ((hm | ⟨rfl, hnot⟩) | ⟨hm, hnot⟩)
      · exact .inl hm
      · exact .inr ⟨.inl rfl, hnot⟩
      · exact .inr ⟨.inr hm, (hhas hm).symm.trans hnot⟩
    · rintro (hm | ⟨rfl | hm, hnot⟩)
      · exact .inl (.inl hm)
      · exact .inl (.inr ⟨rfl, hnot⟩)
      · exact .inr ⟨hm, (hhas hm).trans hnot⟩

end MetricStore

namespace MetricSystem

variable {φ : Type} {arith : LoadArithmetic φ} {s t : MetricSystem φ}

/-- Every minute is aggregated once and from all its samples, and no sample is lost. -/
structure Conserved (s : MetricSystem φ) : Prop where
  /-- A bucket is the mean of all the samples that have ever been recorded of its minute. -/
  whole : ∀ m ∈ s.aggregated, m.IsMeanOf (s.recorded.filter fun row => row.bucket = m.bucket)
  one : (s.aggregated.map MinuteRow.bucket).Nodup
  stored : ∀ m ∈ s.store.minutes, m ∈ s.aggregated
  kept : ∀ row ∈ s.recorded, row ∈ s.store.metrics ∨ ∃ m ∈ s.aggregated, m.bucket = row.bucket

/-- A pass removes only samples before the cutoff, and aggregates each of them in the same
transaction; an aggregate that is too old for the retention goes at once. -/
def Aggregates (s t : MetricSystem φ) (now : Instant) : Prop :=
  ∀ row ∈ s.store.metrics, row ∉ t.store.metrics →
    row.occurredAt < MetricStore.sealedCutoff now ∧
    ∃ m ∈ t.aggregated, m ∉ s.aggregated ∧ m.bucket = row.bucket ∧
      (m ∈ t.store.minutes ∨ m.bucket.bucketStart < MetricStore.minuteCutoff now)

/-- What the tables have to do with the passes -/
structure Sealed (s : MetricSystem φ) : Prop where
  bounded : s.store.metrics.rows.length ≤ maxRowid
  unsealed : ∀ row ∈ s.store.metrics, Rfc3339.hasFourDigits row.occurredAt = true →
    ∀ now ∈ s.passes, Rfc3339.hasFourDigits (MetricStore.sealedCutoff now) = true →
      MetricStore.sealedCutoff now ≤ row.occurredAt
  closed : ∀ m ∈ s.aggregated, ∃ now ∈ s.passes,
    Rfc3339.hasFourDigits (MetricStore.sealedCutoff now) = true ∧
      m.bucket.bucketStart + nanosPerMinute ≤ MetricStore.sealedCutoff now
  whole : ∀ m ∈ s.aggregated, m.IsMeanOf (s.recorded.filter fun row => row.bucket = m.bucket)
  one : (s.aggregated.map MinuteRow.bucket).Nodup
  stored : ∀ m ∈ s.store.minutes, m ∈ s.aggregated
  /-- The samples of a minute that has not been aggregated are all there. -/
  same : ∀ bucket, (∀ m ∈ s.aggregated, m.bucket ≠ bucket) →
    s.recorded.filter (fun row => row.bucket = bucket) =
      s.store.metrics.rows.filter fun row => row.bucket = bucket

theorem Sealed.start : (start : MetricSystem φ).Sealed where
  bounded := Nat.zero_le _
  unsealed _ h := absurd h KeyedTable.not_mem_empty
  closed _ h := absurd h List.not_mem_nil
  whole _ h := absurd h List.not_mem_nil
  one := List.nodup_nil
  stored _ h := absurd h KeyedTable.not_mem_empty
  same _ _ := rfl

theorem Sealed.conserved (h : s.Sealed) : s.Conserved where
  whole := h.whole
  one := h.one
  stored := h.stored
  kept row hrow := by
    by_cases haggregated : ∃ m ∈ s.aggregated, m.bucket = row.bucket
    · exact .inr haggregated
    · push Not at haggregated
      have hmem : row ∈ s.recorded.filter fun r => r.bucket = row.bucket :=
        List.mem_filter.mpr ⟨hrow, decide_eq_true rfl⟩
      rw [h.same row.bucket haggregated] at hmem
      exact .inl (List.mem_filter.mp hmem).1

theorem Sealed.bucket_ne (h : s.Sealed) {m : MinuteRow φ} (hm : m ∈ s.aggregated) {row : RawMetric φ}
    (hrow : ∀ now ∈ s.passes, Rfc3339.hasFourDigits (MetricStore.sealedCutoff now) = true →
      MetricStore.sealedCutoff now ≤ row.occurredAt) : m.bucket ≠ row.bucket := by
  intro heq
  obtain ⟨now, hnow, hdigits, hclosed⟩ := h.closed m hm
  have hcut := hrow now hnow hdigits
  have hlt : row.occurredAt < minuteStart row.occurredAt + nanosPerMinute := lt_minuteStart
  have hstart : m.bucket.bucketStart = minuteStart row.occurredAt :=
    congrArg MetricBucket.bucketStart heq
  rw [hstart] at hclosed
  exact absurd (hlt.trans_le (hclosed.trans hcut)) (lt_irrefl _)

theorem Sealed.record (h : s.Sealed) {sample : RawMetric φ}
    (htime : ∀ now ∈ s.passes, MetricStore.sealedCutoff now ≤ sample.occurredAt) :
    (s.record arith sample).Sealed := by
  let row := MetricStore.payload arith sample
  unfold MetricSystem.record
  split
  · exact h
  · rename_i store hok
    unfold MetricStore.recordMetric at hok
    split at hok
    · cases hok
    · rename_i hroom
      obtain rfl := Except.ok.inj hok
      cases hinsert : s.store.metrics.insert (MetricStore.payload arith sample) with
      | none =>
        -- the id is taken, and the sample is ignored
        have htaken := KeyedTable.insert_eq_none.mp hinsert
        have hhas : s.store.metrics.has sample.id = true := KeyedTable.has_iff.mpr htaken
        rw [hhas]
        exact h
      | some metrics =>
        obtain ⟨hnew, hrows⟩ := KeyedTable.insert_eq_some.mp hinsert
        have hnot : s.store.metrics.has sample.id = false := by
          rw [Bool.eq_false_iff]
          intro hhas
          obtain ⟨r, hr, hkey⟩ := KeyedTable.has_iff.mp hhas
          exact hnew r hr hkey
        have hbucket (m : MinuteRow φ) (hm : m ∈ s.aggregated) : m.bucket ≠ row.bucket :=
          h.bucket_ne hm fun now hnow _ => htime now hnow
        rw [hnot]
        constructor
        · change metrics.rows.length ≤ maxRowid
          rw [hrows, List.length_append, List.length_singleton]
          omega
        · intro r hr hdigits now hnow hcutoff
          rcases (KeyedTable.mem_insert hinsert).mp hr with hr | rfl
          · exact h.unsealed r hr hdigits now hnow hcutoff
          · exact htime now hnow
        · exact h.closed
        · intro m hm
          have hsame : (s.recorded ++ [row]).filter (fun r => r.bucket = m.bucket) =
              s.recorded.filter fun r => r.bucket = m.bucket := by
            have hnone : [row].filter (fun r => r.bucket = m.bucket) = [] := by
              simp [(hbucket m hm).symm]
            rw [List.filter_append, hnone, List.append_nil]
          change m.IsMeanOf ((s.recorded ++ [row]).filter fun r => r.bucket = m.bucket)
          rw [hsame]
          exact h.whole m hm
        · exact h.one
        · exact h.stored
        · intro bucket hbucket
          change (s.recorded ++ [row]).filter (fun r => r.bucket = bucket) =
            metrics.rows.filter fun r => r.bucket = bucket
          rw [hrows, List.filter_append, List.filter_append, h.same bucket hbucket]

section Pass

variable {now : Instant} {newId : MetricBucket → Uuid} {row : RawMetric φ}

/-- The rows that a pass selects -/
def selected (s : MetricSystem φ) (now : Instant) : List (RawMetric φ) :=
  s.store.metrics.rows.filter (MetricStore.isSealed now)

/-- A row whose time is read back is selected by its time. -/
theorem isSealed_iff (hrow : Rfc3339.hasFourDigits row.occurredAt = true) :
    MetricStore.isSealed now row = true ↔
      Rfc3339.hasFourDigits (MetricStore.sealedCutoff now) = true ∧
        row.occurredAt < MetricStore.sealedCutoff now := by
  unfold MetricStore.isSealed
  rw [decide_eq_true_eq]
  cases hcutoff : Rfc3339.hasFourDigits (MetricStore.sealedCutoff now) with
  | true =>
    rw [Rfc3339.lt_iff hrow hcutoff]
    exact (and_iff_right rfl).symm
  | false =>
    have hafter := Rfc3339.signed_lt hrow hcutoff
    constructor
    · exact fun hbefore => absurd hafter (List.lt_asymm hbefore)
    · exact fun hfalse => absurd hfalse.1 Bool.false_ne_true

/-- A pass that selects a sample of a minute selects the whole minute. -/
theorem selects_minute {row' : RawMetric φ} (hrow : Rfc3339.hasFourDigits row.occurredAt = true)
    (hselected : MetricStore.isSealed now row = true) (hbucket : row'.bucket = row.bucket) :
    MetricStore.isSealed now row' = true := by
  obtain ⟨hcutoff, hlt⟩ := (isSealed_iff hrow).mp hselected
  have hstart : minuteStart row'.occurredAt = minuteStart row.occurredAt :=
    congrArg MetricBucket.bucketStart hbucket
  have hrow' : Rfc3339.hasFourDigits row'.occurredAt = true := by
    rw [← hasFourDigits_minuteStart, hstart, hasFourDigits_minuteStart]
    exact hrow
  have hcut : minuteStart row.occurredAt + nanosPerMinute ≤ MetricStore.sealedCutoff now :=
    minuteStart_cut hlt
  have hend : row'.occurredAt < minuteStart row'.occurredAt + nanosPerMinute := lt_minuteStart
  rw [hstart] at hend
  exact (isSealed_iff hrow').mpr ⟨hcutoff, hend.trans_le hcut⟩

theorem mem_buckets {rows : List (RawMetric φ)} {bucket : MetricBucket} :
    bucket ∈ MetricStore.buckets rows ↔ ∃ row ∈ rows, row.bucket = bucket := by
  unfold MetricStore.buckets
  rw [List.mem_dedup, List.mem_map]

/-- What a pass that commits finds -/
structure Sealable (s : MetricSystem φ) (now : Instant) : Prop where
  digits : ∀ row ∈ s.selected now, Rfc3339.hasFourDigits row.occurredAt = true

theorem Sealed.fresh (h : s.Sealed) (hsealable : s.Sealable now) {bucket : MetricBucket}
    (hbucket : bucket ∈ MetricStore.buckets (s.selected now)) :
    ∀ m ∈ s.aggregated, m.bucket ≠ bucket := by
  intro m hm
  obtain ⟨row, hrow, rfl⟩ := mem_buckets.mp hbucket
  have hmem : row ∈ s.store.metrics := (List.mem_filter.mp hrow).1
  exact h.bucket_ne hm fun past hpast hcutoff =>
    h.unsealed row hmem (hsealable.digits row hrow) past hpast hcutoff

/-- All the samples of a minute that is aggregated have been selected. -/
theorem Sealed.selected_minute (h : s.Sealed) (hsealable : s.Sealable now) {bucket : MetricBucket}
    (hbucket : bucket ∈ MetricStore.buckets (s.selected now)) :
    s.recorded.filter (fun row => row.bucket = bucket) =
      (s.selected now).filter fun row => row.bucket = bucket := by
  rw [h.same bucket (h.fresh hsealable hbucket)]
  obtain ⟨row, hrow, rfl⟩ := mem_buckets.mp hbucket
  unfold selected
  rw [List.filter_filter]
  apply List.filter_congr
  intro row' hrow'
  by_cases hsame : row'.bucket = row.bucket
  · have hselected := selects_minute (hsealable.digits row hrow) (List.mem_filter.mp hrow).2 hsame
    simp [hsame, hselected]
  · simp [hsame]

/-- A pass inserts the minutes of all the samples that it has selected. -/
theorem Sealed.freshMinutes_eq (h : s.Sealed) (hsealable : s.Sealable now) :
    s.freshMinutes arith now newId = (MetricStore.buckets (s.selected now)).map
      (MetricStore.minuteRow arith (s.selected now) newId) := by
  have hall : (MetricStore.buckets (s.selected now)).filter
      (fun bucket => !s.store.minutes.has bucket) = MetricStore.buckets (s.selected now) := by
    apply List.filter_eq_self.mpr
    intro bucket hbucket
    have hnot : s.store.minutes.has bucket = false := by
      rw [Bool.eq_false_iff]
      intro hhas
      obtain ⟨m, hm, hkey⟩ := KeyedTable.has_iff.mp hhas
      exact h.fresh hsealable hbucket m (h.stored m hm) hkey
    rw [hnot]
    rfl
  exact congrArg (List.map (MetricStore.minuteRow arith (s.selected now) newId)) hall

/-- What a pass that commits leaves -/
def committed (arith : LoadArithmetic φ) (s : MetricSystem φ) (now : Instant)
    (newId : MetricBucket → Uuid) : MetricSystem φ :=
  { s with
    store := {
      metrics := s.store.metrics.filter fun row => !MetricStore.isSealed now row
      minutes := (((MetricStore.buckets (s.selected now)).map
          (MetricStore.minuteRow arith (s.selected now) newId)).foldl MetricStore.insertMinute
            s.store.minutes).filter
        fun row => !decide (Rfc3339.toRfc3339 row.bucket.bucketStart <
          Rfc3339.toRfc3339 (MetricStore.minuteCutoff now)) }
    aggregated := s.aggregated ++ s.freshMinutes arith now newId
    passes := now :: s.passes }

theorem pass_cases (ok : Bool) : s.pass arith now newId ok = s ∨
    s.Sealable now ∧ s.pass arith now newId ok = committed arith s now newId := by
  unfold pass
  cases hmaintain : s.store.maintain arith now newId with
  | error e => exact .inl rfl
  | ok store =>
    unfold MetricStore.maintain at hmaintain
    dsimp only at hmaintain
    split at hmaintain
    · cases hmaintain
    · rename_i hnone
      obtain rfl := Except.ok.inj hmaintain
      cases ok with
      | false => exact .inl rfl
      | true =>
        refine .inr ⟨⟨?_⟩, rfl⟩
        intro row hrow
        by_contra hdigits
        exact hnone (List.any_eq_true.mpr ⟨row, hrow, by simpa using hdigits⟩)

theorem nodup_bucket_minuteRow (rows : List (RawMetric φ)) :
    (((MetricStore.buckets rows).map (MetricStore.minuteRow arith rows newId)).map
      MinuteRow.bucket).Nodup := by
  have hself : ((MetricStore.buckets rows).map (MetricStore.minuteRow arith rows newId)).map
      MinuteRow.bucket = MetricStore.buckets rows := by
    rw [List.map_map]
    exact List.map_id _
  rw [hself]
  exact List.nodup_dedup _

theorem Sealed.committed (h : s.Sealed) (hsealable : s.Sealable now) :
    (committed arith s now newId).Sealed := by
  have hfresh := @MetricSystem.Sealed.freshMinutes_eq _ arith _ _ newId h hsealable
  constructor
  · exact (List.length_filter_le _ _).trans h.bounded
  · intro row hrow hdigits past hpast hcutoff
    obtain ⟨hmem, hnot⟩ := KeyedTable.mem_filter.mp hrow
    rcases List.mem_cons.mp hpast with rfl | hpast
    · by_contra hlt
      have hselected := (isSealed_iff hdigits).mpr ⟨hcutoff, not_le.mp hlt⟩
      rw [hselected] at hnot
      exact absurd hnot Bool.false_ne_true
    · exact h.unsealed row hmem hdigits past hpast hcutoff
  · intro m hm
    rcases List.mem_append.mp hm with hm | hm
    · obtain ⟨past, hpast, hclosed⟩ := h.closed m hm
      exact ⟨past, List.mem_cons_of_mem _ hpast, hclosed⟩
    · rw [hfresh] at hm
      obtain ⟨bucket, hbucket, rfl⟩ := List.mem_map.mp hm
      obtain ⟨row, hrow, rfl⟩ := mem_buckets.mp hbucket
      obtain ⟨hcutoff, hlt⟩ :=
        (isSealed_iff (hsealable.digits row hrow)).mp (List.mem_filter.mp hrow).2
      exact ⟨now, List.mem_cons_self, hcutoff, minuteStart_cut hlt⟩
  · intro m hm
    rcases List.mem_append.mp hm with hm | hm
    · exact h.whole m hm
    · rw [hfresh] at hm
      obtain ⟨bucket, hbucket, rfl⟩ := List.mem_map.mp hm
      have hsame := h.selected_minute hsealable hbucket
      change MinuteRow.IsMeanOf _ (s.recorded.filter fun row => row.bucket = bucket)
      rw [hsame]
      apply aggregate_isMeanOf
      exact (List.length_filter_le _ _).trans ((List.length_filter_le _ _).trans h.bounded)
  · change ((s.aggregated ++ s.freshMinutes arith now newId).map MinuteRow.bucket).Nodup
    rw [hfresh, List.map_append]
    refine List.nodup_append.mpr ⟨h.one, nodup_bucket_minuteRow _, ?_⟩
    intro bucket hold bucket' hnew heq
    obtain ⟨m, hm, rfl⟩ := List.mem_map.mp hold
    obtain ⟨m', hm', rfl⟩ := List.mem_map.mp hnew
    obtain ⟨bucket, hbucket, rfl⟩ := List.mem_map.mp hm'
    exact h.fresh hsealable hbucket m hm heq
  · intro m hm
    have hmem := (KeyedTable.mem_filter.mp hm).1
    rw [MetricStore.mem_foldl_insertMinute (nodup_bucket_minuteRow _)] at hmem
    rcases hmem with hmem | ⟨hmem, -⟩
    · exact List.mem_append_left _ (h.stored m hmem)
    · refine List.mem_append_right _ ?_
      rw [hfresh]
      exact hmem
  · intro bucket hbucket
    have hold : ∀ m ∈ s.aggregated, m.bucket ≠ bucket := fun m hm =>
      hbucket m (List.mem_append_left _ hm)
    have hnew : bucket ∉ MetricStore.buckets (s.selected now) := by
      intro hmem
      refine hbucket (MetricStore.minuteRow arith (s.selected now) newId bucket)
        (List.mem_append_right _ ?_) rfl
      rw [hfresh]
      exact List.mem_map_of_mem hmem
    change s.recorded.filter (fun row => row.bucket = bucket) = (s.store.metrics.rows.filter
      fun row => !MetricStore.isSealed now row).filter fun row => row.bucket = bucket
    rw [h.same bucket hold, List.filter_filter]
    apply List.filter_congr
    intro row hrow
    by_cases hsame : row.bucket = bucket
    · have hnot : MetricStore.isSealed now row = false := by
        rw [Bool.eq_false_iff]
        intro hselected
        exact hnew (mem_buckets.mpr ⟨row, List.mem_filter.mpr ⟨hrow, hselected⟩, hsame⟩)
      simp [hsame, hnot]
    · simp [hsame]

theorem Sealed.aggregates (h : s.Sealed) (hsealable : s.Sealable now) :
    s.Aggregates (MetricSystem.committed arith s now newId) now := by
  intro row hrow hgone
  have hselected : MetricStore.isSealed now row = true := by
    by_contra hnot
    exact hgone (KeyedTable.mem_filter.mpr ⟨hrow, by simpa using hnot⟩)
  have hmem : row ∈ s.selected now := List.mem_filter.mpr ⟨hrow, hselected⟩
  have hdigits := hsealable.digits row hmem
  have hbucket : row.bucket ∈ MetricStore.buckets (s.selected now) :=
    mem_buckets.mpr ⟨row, hmem, rfl⟩
  have hfresh := h.fresh hsealable hbucket
  let m := MetricStore.minuteRow arith (s.selected now) newId row.bucket
  have hm : m ∈ (MetricStore.buckets (s.selected now)).map
      (MetricStore.minuteRow arith (s.selected now) newId) := List.mem_map_of_mem hbucket
  refine ⟨((isSealed_iff hdigits).mp hselected).2, m, ?_, fun hold => hfresh m hold rfl, rfl, ?_⟩
  · apply List.mem_append_right
    rw [h.freshMinutes_eq hsealable]
    exact hm
  · by_cases hold : m.bucket.bucketStart < MetricStore.minuteCutoff now
    · exact .inr hold
    · left
      have hstart : Rfc3339.hasFourDigits m.bucket.bucketStart = true := by
        change Rfc3339.hasFourDigits (minuteStart row.occurredAt) = true
        rw [hasFourDigits_minuteStart]
        exact hdigits
      have hyoung : ¬Rfc3339.toRfc3339 m.bucket.bucketStart <
          Rfc3339.toRfc3339 (MetricStore.minuteCutoff now) := by
        cases hcutoff : Rfc3339.hasFourDigits (MetricStore.minuteCutoff now) with
        | true =>
          rw [Rfc3339.lt_iff hstart hcutoff]
          exact hold
        | false => exact List.lt_asymm (Rfc3339.signed_lt hstart hcutoff)
      have hnot : s.store.minutes.has m.bucket = false := by
        rw [Bool.eq_false_iff]
        intro hhas
        obtain ⟨m', hm', hkey⟩ := KeyedTable.has_iff.mp hhas
        exact hfresh m' (h.stored m' hm') hkey
      refine KeyedTable.mem_filter.mpr ⟨?_, by simpa using hyoung⟩
      exact (MetricStore.mem_foldl_insertMinute (nodup_bucket_minuteRow _)).mpr (.inr ⟨hm, hnot⟩)

end Pass

theorem Sealed.step (h : s.Sealed) {e : MetricEvent φ} (htime : s.OnTime e)
    (hstep : step arith s e = some t) : t.Sealed := by
  cases e with
  | record sample =>
    obtain rfl := Option.some.inj hstep
    exact h.record htime
  | maintain now newId ok =>
    obtain rfl := Option.some.inj hstep
    rcases @pass_cases _ arith s now newId ok with
      hsame | ⟨hsealable, hcommitted⟩
    · rw [hsame]
      exact h
    · rw [hcommitted]
      exact h.committed hsealable

/-- When every sample is recorded before its minute is sealed, no sample is lost and every minute is
aggregated once, from all its samples. -/
theorem downsampling_conserves (arith : LoadArithmetic φ)
    (h : (metricSystem arith).Run OnTime MetricSystem.start s) :
    s.Conserved ∧ ∀ now newId ok t, (metricSystem arith).step s (.maintain now newId ok) = some t →
      s.Aggregates t now := by
  have hsealed : s.Sealed := h.invariant (fun _ _ _ hs htime hstep => hs.step htime hstep) .start
  refine ⟨hsealed.conserved, ?_⟩
  intro now newId ok t hstep
  obtain rfl := Option.some.inj hstep
  rcases @pass_cases _ arith s now newId ok with
    hsame | ⟨hsealable, hcommitted⟩
  · rw [hsame]
    exact fun row hrow hgone => absurd hrow hgone
  · rw [hcommitted]
    exact hsealed.aggregates hsealable

section Runs

/-- Whole percents -/
def percents : LoadArithmetic ℕ := ⟨0, (· + ·), (· / ·), fun _ => true⟩

/-- Within the minute of 2026-07-25T12:34 -/
def sampleAt (id : Uuid) (second : ℤ) (memoryBytes : Option U64) : RawMetric ℕ :=
  ⟨id, (1784982840 + second) * nanosPerSec, "api".toList, some 20, memoryBytes, false⟩

/-- The samples of a minute with and without a value are sealed together. -/
theorem downsampling_conserves_run : ∃ s, (metricSystem percents).Run OnTime start s ∧
    s.store.metrics.rows = [] ∧ s.aggregated.map (fun m => m.payload.memoryBytes) = [some 3] ∧
    s.aggregated.map (fun m => m.payload.partialBucket) = [true] ∧ s.Conserved := by
  obtain ⟨s, hrun, hread⟩ := Machine.exists_run_of_execUnder (M := metricSystem percents)
    (C := OnTime) (s := start)
    (fun s => decide (s.store.metrics.rows = [] ∧
      s.aggregated.map (fun m => m.payload.memoryBytes) = [some 3] ∧
      s.aggregated.map (fun m => m.payload.partialBucket) = [true]))
    [.record (sampleAt 1 0 (some 3)), .record (sampleAt 2 5 none), .record (sampleAt 3 10 (some 4)),
      .maintain ((1784982840 + 86400 + 30) * nanosPerSec) (fun _ => 4) true,
      .maintain ((1784982840 + 86400 + 90) * nanosPerSec) (fun _ => 5) true]
    (by decide +kernel)
  obtain ⟨hrows, hmemory, hpartial⟩ := of_decide_eq_true hread
  exact ⟨s, hrun, hrows, hmemory, hpartial, (downsampling_conserves percents hrun).1⟩

end Runs

end MetricSystem

end Supervisor
