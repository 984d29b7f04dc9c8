import Supervisor.AlertDomain
import Supervisor.DefinitionRows
import Supervisor.JobStore
import Supervisor.ProcessTables
import Supervisor.Rfc3339

namespace Supervisor

section Texts

open DelimitedText

/-- The hyphenated text of an id -/
def uuidText (id : Uuid) : List Char :=
  padded 16 8 (id / 16^24) ++ '-' :: (padded 16 4 (id / 16^20 % 16^4) ++
    '-' :: (padded 16 4 (id / 16^16 % 16^4) ++ '-' :: (padded 16 4 (id / 16^12 % 16^4) ++
      '-' :: padded 16 12 (id % 16^12))))

example : uuidText 0x123e4567e89b12d3a456426614174000 =
    "123e4567-e89b-12d3-a456-426614174000".toList := by decide +kernel

def natText (n : ℕ) : List Char := Nat.toDigits 10 n

def intText (z : ℤ) : List Char := if z < 0 then '-' :: natText z.natAbs else natText z.natAbs

theorem group_plain {w n : ℕ} : '-' ∉ padded 16 w n :=
  not_mem_padded (by decide) (by decide) (.inr rfl)

theorem div_eq_of_group {a b k : ℕ} (hdiv : a / 16^(k + 4) = b / 16^(k + 4))
    (hgroup : a / 16^k % 16^4 = b / 16^k % 16^4) : a / 16^k = b / 16^k := by
  have hnext (n : ℕ) : n / 16^k / 16^4 = n / 16^(k + 4) := by
    rw [Nat.div_div_eq_div_mul, ← Nat.pow_add]
  calc a / 16^k = 16^4 * (a / 16^k / 16^4) + a / 16^k % 16^4 := (Nat.div_add_mod _ _).symm
    _ = 16^4 * (b / 16^k / 16^4) + b / 16^k % 16^4 := by rw [hnext, hnext, hdiv, hgroup]
    _ = b / 16^k := Nat.div_add_mod _ _

theorem uuidText_injective : Function.Injective uuidText := by
  intro a b h
  obtain ⟨h₁, h⟩ := append_separator_inj group_plain group_plain h
  obtain ⟨h₂, h⟩ := append_separator_inj group_plain group_plain h
  obtain ⟨h₃, h⟩ := append_separator_inj group_plain group_plain h
  obtain ⟨h₄, h₅⟩ := append_separator_inj group_plain group_plain h
  have hdiv₂₀ := div_eq_of_group (padded_inj (by decide) (by decide) h₁)
    (padded_inj (by decide) (by decide) h₂)
  have hdiv₁₆ := div_eq_of_group hdiv₂₀ (padded_inj (by decide) (by decide) h₃)
  have hdiv₁₂ := div_eq_of_group hdiv₁₆ (padded_inj (by decide) (by decide) h₄)
  have hmod := padded_inj (by decide) (by decide) h₅
  calc a = 16^12 * (a / 16^12) + a % 16^12 := (Nat.div_add_mod _ _).symm
    _ = 16^12 * (b / 16^12) + b % 16^12 := by rw [hdiv₁₂, hmod]
    _ = b := Nat.div_add_mod _ _

theorem uuidText_plain (id : Uuid) : ':' ∉ uuidText id := by
  have hgroup {w n : ℕ} : ':' ∉ padded 16 w n := not_mem_padded (by decide) (by decide) (.inl rfl)
  unfold uuidText
  simp [hgroup]

theorem uuidText_ne_nil (id : Uuid) : uuidText id ≠ [] := by
  unfold uuidText
  simp

theorem natText_inj {m n : ℕ} (h : natText m = natText n) : m = n :=
  toDigits_inj (by decide) (by decide) h

theorem natText_plain (n : ℕ) : ':' ∉ natText n :=
  not_mem_toDigits (by decide) (by decide) (.inl rfl)

theorem intText_plain (z : ℤ) : ':' ∉ intText z := by
  unfold intText
  split
  · simp [natText_plain]
  · exact natText_plain _

theorem intText_inj {y z : ℤ} (h : intText y = intText z) : y = z := by
  have hsign {n : ℕ} {text : List Char} : '-' :: text ≠ natText n := by
    intro heq
    have hdash : '-' ∉ natText n := not_mem_toDigits (by decide) (by decide) (.inr rfl)
    exact hdash (heq ▸ List.mem_cons_self)
  unfold intText at h
  split at h
  · split at h
    · have habs := natText_inj (List.cons.inj h).2
      omega
    · exact absurd h hsign
  · split at h
    · exact absurd h.symm hsign
    · have habs := natText_inj h
      omega

end Texts

/-- The kinds of the events that a transition of the tables leaves. -/
inductive NoticeKind where
  | claimed | queued | overflow | started | retryPending | finalized | recovered
  | generationAdvanced | restartScheduled
deriving DecidableEq

namespace NoticeKind

def text : NoticeKind → List Char
  | claimed => "schedule_occurrence_claimed".toList
  | queued => "schedule_occurrence_queued".toList
  | overflow => "schedule_admission_overflow".toList
  | started => "schedule_occurrence_started".toList
  | retryPending => "schedule_attempt_retry_pending".toList
  | finalized => "schedule_attempt_finalized".toList
  | recovered => "schedule_occurrence_recovered".toList
  | generationAdvanced => "process_generation_advanced".toList
  | restartScheduled => "process_restart_scheduled".toList

/-- The first field of the transition key -/
def keyText : NoticeKind → List Char
  | claimed => "schedule-claim".toList
  | queued => "schedule-queued".toList
  | overflow => "schedule-overflow".toList
  | started => "schedule-start".toList
  | retryPending => "schedule-retry".toList
  | finalized => "schedule-finalized".toList
  | recovered => "schedule-recovery".toList
  | generationAdvanced => "process-generation".toList
  | restartScheduled => "process-restart".toList

theorem keyText_plain (kind : NoticeKind) : ':' ∉ keyText kind := by
  cases kind
  all_goals decide

theorem keyText_injective : Function.Injective keyText := by
  intro a b h
  cases a
  all_goals
    cases b
    all_goals first | rfl | exact absurd h (by decide)

end NoticeKind

/-- What a transition key is built of. The revision of a recovered row comes from its column. -/
inductive EventKey where
  | claim (key : OccurrenceKey)
  | queued (key : OccurrenceKey)
  | overflow (runId : JobRunId)
  | start (runId : JobRunId)
  | retry (runId : JobRunId)
  | finalized (runId : JobRunId)
  | recovery (jobId : JobId) (triggerId : Uuid) (revision : ℤ) (scheduledAt : Instant)
    (runId : Option JobRunId)
  | generation (id : ProcessInstanceId) (generation : ℕ)
  | restart (id : ProcessInstanceId) (generation count : ℕ)
deriving DecidableEq

namespace EventKey

open DelimitedText

def kind : EventKey → NoticeKind
  | claim _ => .claimed
  | queued _ => .queued
  | overflow _ => .overflow
  | start _ => .started
  | retry _ => .retryPending
  | finalized _ => .finalized
  | recovery _ _ _ _ _ => .recovered
  | generation _ _ => .generationAdvanced
  | restart _ _ _ => .restartScheduled

def occurrenceText (key : OccurrenceKey) : List Char :=
  uuidText key.jobId.val ++ ':' :: (uuidText key.triggerId ++
    ':' :: (natText key.scheduleRevision ++ ':' :: Rfc3339.toRfc3339 key.scheduledAt))

/-- `unwrap_or_default` of the column -/
def runText (runId : Option JobRunId) : List Char :=
  (runId.map fun runId => uuidText runId.val).getD []

def fields : EventKey → List Char
  | claim key | queued key => occurrenceText key
  | overflow runId | start runId | retry runId | finalized runId => uuidText runId.val
  | recovery jobId triggerId revision scheduledAt runId =>
    uuidText jobId.val ++ ':' :: (uuidText triggerId ++ ':' :: (intText revision ++
      ':' :: (Rfc3339.toRfc3339 scheduledAt ++ ':' :: runText runId)))
  | generation id n => uuidText id.val ++ ':' :: natText n
  | restart id n count => uuidText id.val ++ ':' :: (natText n ++ ':' :: natText count)

/-- The text of the column `transition_key` -/
def text (key : EventKey) : List Char := key.kind.keyText ++ ':' :: key.fields

theorem occurrenceText_injective : Function.Injective occurrenceText := by
  intro a b h
  obtain ⟨hjob, h⟩ := append_separator_inj (uuidText_plain _) (uuidText_plain _) h
  obtain ⟨htrigger, h⟩ := append_separator_inj (uuidText_plain _) (uuidText_plain _) h
  obtain ⟨hrevision, hat⟩ := append_separator_inj (natText_plain _) (natText_plain _) h
  have hjob := congrArg JobId.mk (uuidText_injective hjob)
  have htrigger := uuidText_injective htrigger
  have hrevision := natText_inj hrevision
  have hat := Rfc3339.toRfc3339_injective hat
  cases a
  cases b
  rw [OccurrenceKey.mk.injEq]
  exact ⟨hjob, htrigger, hrevision, hat⟩

theorem runId_inj {a b : JobRunId} (h : uuidText a.val = uuidText b.val) : a = b := by
  cases a
  cases b
  exact congrArg JobRunId.mk (uuidText_injective h)

theorem runText_plain (runId : Option JobRunId) : ':' ∉ runText runId := by
  cases runId with
  | none => exact List.not_mem_nil
  | some runId => exact uuidText_plain _

theorem runText_injective : Function.Injective runText := by
  intro a b h
  cases a with
  | none =>
    cases b with
    | none => rfl
    | some runId => exact absurd h.symm (uuidText_ne_nil _)
  | some runId =>
    cases b with
    | none => exact absurd h (uuidText_ne_nil _)
    | some runId' => exact congrArg some (runId_inj h)

theorem instanceId_inj {a b : ProcessInstanceId} (h : uuidText a.val = uuidText b.val) :
    a = b := by
  cases a
  cases b
  exact congrArg ProcessInstanceId.mk (uuidText_injective h)

/-- Of keys of one kind the fields tell which one it is. -/
theorem eq_of_fields {a b : EventKey} (hkind : a.kind = b.kind) (h : a.fields = b.fields) :
    a = b := by
  cases a with
  | claim key =>
    cases b with
    | claim key' => exact congrArg claim (occurrenceText_injective h)
    | _ => cases hkind
  | queued key =>
    cases b with
    | queued key' => exact congrArg queued (occurrenceText_injective h)
    | _ => cases hkind
  | overflow runId =>
    cases b with
    | overflow runId' => exact congrArg overflow (runId_inj h)
    | _ => cases hkind
  | start runId =>
    cases b with
    | start runId' => exact congrArg start (runId_inj h)
    | _ => cases hkind
  | retry runId =>
    cases b with
    | retry runId' => exact congrArg retry (runId_inj h)
    | _ => cases hkind
  | finalized runId =>
    cases b with
    | finalized runId' => exact congrArg finalized (runId_inj h)
    | _ => cases hkind
  | recovery job trigger revision scheduledAt runId =>
    cases b with
    | recovery job' trigger' revision' scheduledAt' runId' =>
      obtain ⟨hjob, h⟩ := append_separator_inj (uuidText_plain _) (uuidText_plain _) h
      obtain ⟨htrigger, h⟩ := append_separator_inj (uuidText_plain _) (uuidText_plain _) h
      obtain ⟨hrevision, h⟩ := append_separator_inj (intText_plain _) (intText_plain _) h
      -- the instant has separators of its own; the run id behind it has none
      obtain ⟨hat, hrun⟩ := append_separator_inj_last (runText_plain _) (runText_plain _) h
      have hjob : job = job' := congrArg JobId.mk (uuidText_injective hjob)
      rw [hjob, uuidText_injective htrigger, intText_inj hrevision,
        Rfc3339.toRfc3339_injective hat, runText_injective hrun]
    | _ => cases hkind
  | generation id n =>
    cases b with
    | generation id' n' =>
      obtain ⟨hid, hn⟩ := append_separator_inj (uuidText_plain _) (uuidText_plain _) h
      rw [instanceId_inj hid, natText_inj hn]
    | _ => cases hkind
  | restart id n count =>
    cases b with
    | restart id' n' count' =>
      obtain ⟨hid, h⟩ := append_separator_inj (uuidText_plain _) (uuidText_plain _) h
      obtain ⟨hn, hcount⟩ := append_separator_inj (natText_plain _) (natText_plain _) h
      rw [instanceId_inj hid, natText_inj hn, natText_inj hcount]
    | _ => cases hkind

theorem text_injective : Function.Injective text := by
  intro a b h
  obtain ⟨hkind, hfields⟩ :=
    append_separator_inj (NoticeKind.keyText_plain _) (NoticeKind.keyText_plain _) h
  exact eq_of_fields (NoticeKind.keyText_injective hkind) hfields

end EventKey

end Supervisor
