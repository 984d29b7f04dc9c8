import Supervisor.ConfigValidation
import Supervisor.DelimitedText
import Supervisor.JsonText

namespace Supervisor

inductive AlertState where
  | active
  | acknowledgedActive
  | resolved
deriving DecidableEq

inductive AlertSeverity where
  | info
  | warning
  | critical
deriving DecidableEq

structure AlertRule where
  id : Uuid
  condition : List Char
  severity : AlertSeverity
  cooldownSeconds : U64
  enabled : Bool
deriving DecidableEq

/-- A sample of what a source uses. Measured values are of a number type. -/
structure MetricSample (φ : Type) where
  occurredAt : Instant
  source : List Char
  cpuPercent : Option φ
  memoryBytes : Option U64
deriving DecidableEq

structure AlertEpisode where
  id : Uuid
  ruleId : Uuid
  source : List Char
  cause : List Char
  state : AlertState
  severity : AlertSeverity
  openedAt : Instant
  resolvedAt : Option Instant
  acknowledgedAt : Option Instant
deriving DecidableEq

structure DeliveryAttempt where
  id : Uuid
  alertId : Uuid
  occurredAt : Instant
  kind : List Char
  outcome : List Char
  detail : Option (List Char)
  leaseUntil : Option Instant
deriving DecidableEq

/-- A delivery request. The payload is the text of an episode; it stands for the episode. The
column of the attempts is wider than the `u8` of a claimed candidate. -/
structure DeliveryCandidate where
  id : Uuid
  alertId : Uuid
  kind : List Char
  payload : AlertEpisode
  attemptCount : ℕ
  createdAt : Instant
  leaseOwner : Option (List Char)
  leaseUntil : Option Instant
deriving DecidableEq

structure DeliverySubmission where
  outcome : List Char
  detail : Option (List Char)
deriving DecidableEq

structure OperatorEvent where
  id : Uuid
  occurredAt : Instant
deriving DecidableEq

/-- The texts of ids and instants, and the numbers that samples are measured in. -/
structure AlertText (φ : Type) where
  uuid : Uuid → List Char
  instant : Instant → List Char
  /-- `str::parse::<f64>` -/
  parseNumber : List Char → Option φ
  greater : φ → φ → Bool
  /-- `as f64` -/
  ofBytes : U64 → φ
  uuid_injective : Function.Injective uuid
  uuid_plain : ∀ id, '|' ∉ uuid id

/-- `str::split_once` -/
def splitOnce (c : Char) : List Char → Option (List Char × List Char)
  | [] => none
  | d :: text =>
    if d = c then some ([], text)
    else (splitOnce c text).map fun parts => (d :: parts.1, parts.2)

/-- `str::trim` -/
def trim (text : List Char) : List Char :=
  ((text.dropWhile isWhitespace).reverse.dropWhile isWhitespace).reverse

/-- The fields that a condition can measure -/
inductive MetricField where
  | cpuPercent
  | memoryBytes
deriving DecidableEq

def MetricField.ofText (text : List Char) : Option MetricField :=
  if text = "cpu_percent".toList then some .cpuPercent
  else if text = "memory_bytes".toList then some .memoryBytes
  else none

namespace AlertText

variable {φ : Type} (text : AlertText φ)

/-- The value of a field in a sample; `none` when the probe has not delivered it. -/
def measured (sample : MetricSample φ) : MetricField → Option φ
  | .cpuPercent => sample.cpuPercent
  | .memoryBytes => sample.memoryBytes.map text.ofBytes

/-- The field and the threshold of a condition -/
def readCondition (condition : List Char) : Option (MetricField × φ) := do
  let (field, threshold) ← splitOnce '>' condition
  let threshold ← text.parseNumber (trim threshold)
  let field ← MetricField.ofText (trim field)
  pure (field, threshold)

def matchesRule (rule : AlertRule) (sample : MetricSample φ) : Bool :=
  match text.readCondition rule.condition with
  | none => false
  | some (field, threshold) =>
    (text.measured sample field).any fun value => text.greater value threshold

/-- The sample lacks the field that the rule measures. -/
def lacksField (rule : AlertRule) (sample : MetricSample φ) : Bool :=
  (text.readCondition rule.condition).any fun condition =>
    (text.measured sample condition.1).isNone

theorem matchesRule_of_lacksField {rule : AlertRule} {sample : MetricSample φ}
    (h : text.lacksField rule sample = true) : text.matchesRule rule sample = false := by
  unfold lacksField at h
  unfold matchesRule
  cases hcondition : text.readCondition rule.condition with
  | none => rfl
  | some condition =>
    rw [hcondition, Option.any_some, Option.isNone_iff_eq_none] at h
    obtain ⟨field, threshold⟩ := condition
    simp only [h, Option.any_none]

def dedupeKey (ruleId : Uuid) (source cause : List Char) : List Char :=
  text.uuid ruleId ++ '|' :: (source ++ '|' :: cause)

theorem dedupeKey_inj {ruleId ruleId' : Uuid} {source source' cause cause' : List Char}
    (h : text.dedupeKey ruleId source cause = text.dedupeKey ruleId' source' cause') :
    ruleId = ruleId' ∧ (cause = cause' → source = source') := by
  have hsplit : text.uuid ruleId = text.uuid ruleId' ∧
      source ++ '|' :: cause = source' ++ '|' :: cause' :=
    DelimitedText.append_separator_inj (text.uuid_plain ruleId) (text.uuid_plain ruleId') h
  refine ⟨text.uuid_injective hsplit.1, ?_⟩
  rintro rfl
  exact List.append_cancel_right hsplit.2

end AlertText

/-- Ids, instants and thresholds that are written in decimal digits -/
def decimalText : AlertText ℕ where
  uuid := Nat.toDigits 10
  instant t := Nat.toDigits 10 t.toNat
  parseNumber digits :=
    if digits ≠ [] ∧ digits.all Char.isDigit then some (Nat.ofDigitChars 10 digits 0) else none
  greater a b := b < a
  ofBytes n := n.val
  uuid_injective a b h := by
    have hread := congrArg (fun digits => Nat.ofDigitChars 10 digits 0) h
    simpa only [Nat.ofDigitChars_toDigits (by decide : 1 < 10) (by decide : 10 ≤ 10)] using hread
  uuid_plain id hbar := by
    have hdigit := Nat.isDigit_of_mem_toDigits (by decide) (by decide) hbar
    exact absurd hdigit (by decide)

section Samples

def loadRule : AlertRule where
  id := 0
  condition := "cpu_percent > 90".toList
  severity := .warning
  cooldownSeconds := 60
  enabled := true

def calmSample : MetricSample ℕ where
  occurredAt := 1000
  source := "process:web:1".toList
  cpuPercent := some 10
  memoryBytes := some 0

def busySample : MetricSample ℕ :=
  { calmSample with occurredAt := 500, cpuPercent := some 95 }

end Samples

def normalizedCause (condition : List Char) : List Char :=
  condition.filter fun c => !isWhitespace c

end Supervisor
