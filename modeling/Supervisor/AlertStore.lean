import Mathlib.Data.Prod.Lex
import Supervisor.AlertPayload
import Supervisor.KeyedTable
import Supervisor.OrderedPage

namespace Supervisor

structure RuleRow where
  rule : AlertRule
  deletedAt : Option Instant
deriving DecidableEq

/-- The column `opened_at` is written once; the payload is rewritten. -/
structure AlertRow where
  openedAt : Instant
  episode : AlertEpisode
deriving DecidableEq

structure EpisodeKey where
  dedupeKey : List Char
  alertId : Uuid
deriving DecidableEq

def RuleRow.id (row : RuleRow) : Uuid := row.rule.id

def AlertRow.id (row : AlertRow) : Uuid := row.episode.id

/-- `ORDER BY opened_at, id`. The texts of the column are in the order of time. -/
def AlertRow.rank (row : AlertRow) : Instant ×ₗ Uuid := toLex (row.openedAt, row.id)

def AlertRow.isResolved (row : AlertRow) : Bool := row.episode.state = .resolved

def OperatorEvent.rank (event : OperatorEvent) : Instant ×ₗ Uuid :=
  toLex (event.occurredAt, event.id)

def DeliveryAttempt.rank (attempt : DeliveryAttempt) : Instant ×ₗ Uuid :=
  toLex (attempt.occurredAt, attempt.id)

def DeliveryCandidate.rank (candidate : DeliveryCandidate) : Instant ×ₗ Uuid :=
  toLex (candidate.createdAt, candidate.id)

/-- The tables of the observability store. The metric tables are left out: no other table depends
on them. -/
structure AlertStore where
  rules : KeyedTable RuleRow.id
  alerts : KeyedTable AlertRow.id
  episodeKeys : KeyedTable EpisodeKey.dedupeKey
  candidates : KeyedTable DeliveryCandidate.id
  attempts : KeyedTable DeliveryAttempt.id
  events : KeyedTable OperatorEvent.id

def pageLimit (limit : ℕ) : ℕ := max 1 (min limit 500)

abbrev completedRecordLimit : ℕ := 10000

abbrev completedRecordRetention : Duration := 30 * 24 * 3600 * nanosPerSec

def notificationKind : List Char := "notification".toList

namespace AlertStore

def empty : AlertStore := ⟨.empty, .empty, .empty, .empty, .empty, .empty⟩

section Rules

def upsertAlertRule (s : AlertStore) (rule : AlertRule) : AlertStore :=
  { s with rules := s.rules.upsert ⟨rule, none⟩ }

def cancelledAttempt (id alertId : Uuid) (deletedAt : Instant) : DeliveryAttempt where
  id := id
  alertId := alertId
  occurredAt := deletedAt
  kind := notificationKind
  outcome := "cancelled".toList
  detail := some "alert rule was deleted".toList
  leaseUntil := none

/-- What the loop of `delete_alert_rule` does to a stored episode. -/
def cancelDelivery (id : Uuid) (deletedAt : Instant) (attemptId : Uuid → Uuid) (s : AlertStore)
    (row : AlertRow) : Option AlertStore :=
  if row.episode.ruleId ≠ id then some s
  else (s.attempts.insert (cancelledAttempt (attemptId row.id) row.id deletedAt)).map fun attempts =>
    { s with
      attempts := attempts
      candidates := s.candidates.filter fun candidate => candidate.alertId ≠ row.id }

/-- `none`: an id of an attempt is taken, and the transaction is rolled back. -/
def deleteAlertRule (s : AlertStore) (id : Uuid) (deletedAt : Instant)
    (attemptId : Uuid → Uuid) : Option AlertStore :=
  s.alerts.rows.foldlM (cancelDelivery id deletedAt attemptId)
    { s with
      rules := s.rules.update id (fun row => { row with deletedAt := some deletedAt }) fun _ h => h }

def liveRules (s : AlertStore) : List RuleRow := s.rules.rows.filter fun row => row.deletedAt.isNone

def listAlertRules (s : AlertStore) (limit : ℕ) : List AlertRule :=
  (OrderedPage.first RuleRow.id (pageLimit limit) s.liveRules).map RuleRow.rule

end Rules

section Episodes

/-- Whether the episode has been created; `none`: its id is taken. -/
def upsertAlertEpisode (s : AlertStore) (episode : AlertEpisode) (dedupeKey : List Char) :
    Option (Bool × AlertStore) :=
  match s.episodeKeys.insert ⟨dedupeKey, episode.id⟩ with
  | none => some (false, s)
  | some episodeKeys =>
    if s.episodeKeys.rows.any fun row => row.alertId = episode.id then none
    else (s.alerts.insert ⟨episode.openedAt, episode⟩).map fun alerts =>
      (true, { s with episodeKeys := episodeKeys, alerts := alerts })

/-- `UPDATE observability_alerts SET payload=? WHERE id=?` -/
def setPayload (s : AlertStore) (episode : AlertEpisode) : AlertStore :=
  { s with
    alerts := s.alerts.update episode.id (fun row => { row with episode := episode }) fun _ _ => rfl }

theorem mem_setPayload {s : AlertStore} {episode : AlertEpisode} {row : AlertRow} :
    row ∈ (s.setPayload episode).alerts ↔
      (∃ row' ∈ s.alerts, row'.id = episode.id ∧ ⟨row'.openedAt, episode⟩ = row) ∨
        row ∈ s.alerts ∧ row.id ≠ episode.id := by
  have hkey (r : AlertRow) (_ : r.id = episode.id) :
      ({ r with episode := episode } : AlertRow).id = episode.id := rfl
  exact KeyedTable.mem_update hkey

def resolveAlertEpisode (s : AlertStore) (episode : AlertEpisode) : Bool × AlertStore :=
  if s.alerts.has episode.id then
    (true, { s.setPayload episode with
      episodeKeys := s.episodeKeys.filter fun row => row.alertId ≠ episode.id })
  else (false, s)

def listAlerts (s : AlertStore) (limit : ℕ) : List AlertEpisode :=
  (OrderedPage.first AlertRow.rank (pageLimit limit) s.alerts.rows).map AlertRow.episode

/-- The first statement of `acknowledge_alert`: the episode that is to be written. -/
def readAlert (s : AlertStore) (id : Uuid) (at_ : Instant) : Option AlertEpisode :=
  match s.alerts.find id with
  | none => none
  | some row =>
    if row.episode.state = .resolved then none
    else some { row.episode with state := .acknowledgedActive, acknowledgedAt := some at_ }

/-- `acknowledge_alert`, when nothing comes between its statements -/
def acknowledgeAlert (s : AlertStore) (id : Uuid) (at_ : Instant) : Bool × AlertStore :=
  match s.readAlert id at_ with
  | none => (false, s)
  | some episode => (true, s.setPayload episode)

end Episodes

section Deliveries

def enqueueDeliveryCandidate (s : AlertStore) (candidate : DeliveryCandidate) : AlertStore :=
  match s.candidates.insert candidate with
  | none => s
  | some candidates => { s with candidates := candidates }

section Enqueue

variable (s : AlertStore) (candidate : DeliveryCandidate)

@[simp]
theorem enqueue_rules : (s.enqueueDeliveryCandidate candidate).rules = s.rules := by
  unfold enqueueDeliveryCandidate
  split
  · rfl
  · rfl

@[simp]
theorem enqueue_alerts : (s.enqueueDeliveryCandidate candidate).alerts = s.alerts := by
  unfold enqueueDeliveryCandidate
  split
  · rfl
  · rfl

@[simp]
theorem enqueue_episodeKeys :
    (s.enqueueDeliveryCandidate candidate).episodeKeys = s.episodeKeys := by
  unfold enqueueDeliveryCandidate
  split
  · rfl
  · rfl

end Enqueue

def isClaimable (now : Instant) (candidate : DeliveryCandidate) : Bool :=
  candidate.leaseUntil.all fun leaseUntil => leaseUntil ≤ now

def claimDeliveryCandidates (s : AlertStore) (owner : List Char) (now leaseUntil : Instant)
    (limit : ℕ) : List DeliveryCandidate × AlertStore :=
  let rows := OrderedPage.first DeliveryCandidate.rank (pageLimit (min limit 10000))
    (s.candidates.rows.filter (isClaimable now))
  let lease (candidate : DeliveryCandidate) : DeliveryCandidate :=
    { candidate with leaseOwner := some owner, leaseUntil := some leaseUntil }
  (rows.map fun row => lease { row with attemptCount := (row.attemptCount + 1) % 2^8 },
    { s with
      candidates := s.candidates.map
        (fun candidate =>
          if rows.any fun row => row.id = candidate.id then
            lease { candidate with attemptCount := candidate.attemptCount + 1 }
          else candidate)
        fun candidate => by
          split
          · rfl
          · rfl })

def finishedAttempt (candidate : DeliveryCandidate) (submission : DeliverySubmission)
    (attemptId : Uuid) (occurredAt : Instant) : DeliveryAttempt where
  id := attemptId
  alertId := candidate.alertId
  occurredAt := occurredAt
  kind := candidate.kind
  outcome := submission.outcome
  detail := submission.detail
  leaseUntil := candidate.leaseUntil

/-- `none`: the id of the attempt is taken. -/
def finishDeliveryCandidate (s : AlertStore) (candidate : DeliveryCandidate)
    (submission : DeliverySubmission) (attemptId : Uuid) (occurredAt : Instant) :
    Option AlertStore :=
  (s.attempts.insert (finishedAttempt candidate submission attemptId occurredAt)).map
    fun attempts =>
      let candidates :=
        if submission.outcome = "failed".toList ∧ candidate.attemptCount < 3 then
          s.candidates.update candidate.id (fun row => { row with
            leaseOwner := none
            leaseUntil := some (occurredAt + 5^candidate.attemptCount * nanosPerSec) }) fun _ h => h
        else s.candidates.filter fun row => row.id ≠ candidate.id
      { s with attempts := attempts, candidates := candidates }

end Deliveries

section Retention

/-- The two deletes of a family: by age, and `ORDER BY time DESC, id DESC LIMIT -1 OFFSET n`.
Only the rows that are subject to the retention are counted and deleted. -/
def retain {α : Type} {key : α → Uuid} (rank : α → Instant ×ₗ Uuid) (isSubject : α → Bool)
    (cutoff : Instant) (t : KeyedTable key) : KeyedTable key :=
  let young := t.filter fun row => !(isSubject row && (ofLex (rank row)).1 < cutoff)
  let old := OrderedPage.beyond (fun row => OrderDual.toDual (rank row)) completedRecordLimit
    (young.rows.filter isSubject)
  young.filter fun row => old.all fun row' => key row' ≠ key row

def completedCutoff (now : Instant) : Instant := now - completedRecordRetention

def maintain {φ : Type} (text : AlertText φ) (s : AlertStore) (now : Instant) : AlertStore :=
  let cutoff := completedCutoff now
  let alerts := retain AlertRow.rank (fun row => like resolvedPattern (text.payload row.episode))
    cutoff s.alerts
  { s with
    events := retain OperatorEvent.rank (fun _ => true) cutoff s.events
    attempts := retain DeliveryAttempt.rank (fun _ => true) cutoff s.attempts
    alerts := alerts
    episodeKeys := s.episodeKeys.filter fun row => alerts.has row.alertId }

end Retention

end AlertStore

end Supervisor
