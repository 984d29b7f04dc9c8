import Supervisor.AlertEvaluation
import Supervisor.Machine

namespace Supervisor

/-- Where `evaluate_samples` stands: the call it waits for, and what its loops have still to do. -/
inductive PassPoint (φ : Type) where
  | idle
  /-- `list_alert_rules` -/
  | listRules (samples : List (MetricSample φ))
  /-- `persist_alert_episode` -/
  | opening (samples : List (MetricSample φ)) (rules : List AlertRule)
    (turn : MetricSample φ × AlertRule) (rest : List (MetricSample φ × AlertRule))
  /-- `enqueue_alert_delivery`, for an episode that was created -/
  | announcing (samples : List (MetricSample φ)) (rules : List AlertRule)
    (candidate : DeliveryCandidate) (rest : List (MetricSample φ × AlertRule))
  /-- `list_alert_episodes` -/
  | listAlerts (samples : List (MetricSample φ)) (rules : List AlertRule)
  /-- `resolve_alert_episode` -/
  | resolving (turn : AlertEpisode × Instant) (rest : List (AlertEpisode × Instant))
  /-- `enqueue_alert_delivery`, for an episode that was resolved -/
  | announcingResolved (candidate : DeliveryCandidate) (rest : List (AlertEpisode × Instant))

/-- The next turn of the first loop. After the last one come the stored episodes. -/
def PassPoint.nextOpening {φ : Type} (samples : List (MetricSample φ)) (rules : List AlertRule) :
    List (MetricSample φ × AlertRule) → PassPoint φ
  | [] => .listAlerts samples rules
  | turn :: rest => .opening samples rules turn rest

/-- The next turn of the second loop -/
def PassPoint.nextResolving {φ : Type} : List (AlertEpisode × Instant) → PassPoint φ
  | [] => .idle
  | turn :: rest => .resolving turn rest

/-- The store, the pass under way, the calls of `acknowledge_alert` between their two statements,
and the claimed candidates still to be submitted. The other fields record what has happened. -/
structure AlertSystem (φ : Type) where
  store : AlertStore
  point : PassPoint φ
  acknowledging : List AlertEpisode
  claimed : List DeliveryCandidate
  drawn : List Uuid
  opened : List Uuid
  resolved : List Uuid
  /-- What has been queued, the newest first -/
  queued : List DeliveryCandidate
  /-- The candidates that an attempt has been recorded for -/
  attempted : List Uuid
  /-- The episodes that an acknowledgement has returned success for -/
  acknowledged : List Uuid
  /-- The rules that have been deleted and not been saved again -/
  deleted : List Uuid

/-- A call fails when its flag is not set; it leaves the store as it is then. -/
inductive AlertEvent (φ : Type) where
  | tick (samples : List (MetricSample φ))
  | listRules (ok : Bool)
  | persist (id candidateId : Uuid) (ok : Bool)
  | enqueue (ok : Bool)
  | listAlerts (ok : Bool)
  | resolve (candidateId : Uuid) (ok : Bool)
  | crash
  | claim (owner : List Char) (now : Instant)
  | finish (attemptId : Uuid) (submission : DeliverySubmission) (at_ : Instant) (ok : Bool)
  | saveRule (rule : AlertRule)
  | deleteRule (id : Uuid) (deletedAt : Instant) (attemptId : Uuid → Uuid)
  /-- The first statement of `acknowledge_alert` -/
  | readAlert (id : Uuid) (at_ : Instant)
  /-- Its second statement -/
  | writeAlert (episode : AlertEpisode)
  | maintain (now : Instant)

abbrev deliveryLease : ℕ := 60 * nanosPerSec

abbrev deliveryBatch : ℕ := 32

namespace AlertSystem

variable {φ : Type} (text : AlertText φ)

def start : AlertSystem φ := ⟨.empty, .idle, [], [], [], [], [], [], [], [], []⟩

/-- `Uuid::new_v4` does not repeat an id. -/
def draws (s : AlertSystem φ) (ids : List Uuid) : Bool :=
  decide ids.Nodup && ids.all fun id => id ∉ s.drawn

/-- `persist_alert_episode` of a turn -/
def persist (s : AlertSystem φ) (samples : List (MetricSample φ)) (rules : List AlertRule)
    (turn : MetricSample φ × AlertRule) (rest : List (MetricSample φ × AlertRule))
    (id candidateId : Uuid) (ok : Bool) : AlertSystem φ :=
  let episode := newEpisode id turn.1 turn.2
  match if ok then s.store.upsertAlertEpisode episode (text.turnKey turn) else none with
  | some (true, t) =>
    { s with
      store := t
      drawn := id :: candidateId :: s.drawn
      opened := id :: s.opened
      point := .announcing samples rules
        (notification candidateId episode turn.1.occurredAt) rest }
  | _ =>
    { s with drawn := id :: candidateId :: s.drawn, point := .nextOpening samples rules rest }

/-- `enqueue_alert_delivery`; its outcome is ignored. -/
def enqueue (s : AlertSystem φ) (candidate : DeliveryCandidate) (next : PassPoint φ) (ok : Bool) :
    AlertSystem φ :=
  if ok then
    { s with
      store := s.store.enqueueDeliveryCandidate candidate
      queued := candidate :: s.queued
      point := next }
  else { s with point := next }

/-- `resolve_alert_episode` of a turn -/
def resolve (s : AlertSystem φ) (turn : AlertEpisode × Instant)
    (rest : List (AlertEpisode × Instant)) (candidateId : Uuid) (ok : Bool) : AlertSystem φ :=
  let episode := turn.1.resolve turn.2
  match if ok then s.store.resolveAlertEpisode episode else (false, s.store) with
  | (true, t) =>
    { s with
      store := t
      drawn := candidateId :: s.drawn
      resolved := episode.id :: s.resolved
      point := .announcingResolved (notification candidateId episode turn.2) rest }
  | (false, _) => { s with drawn := candidateId :: s.drawn, point := .nextResolving rest }

/-- `finish_alert_delivery` of a claimed candidate; its outcome is ignored. -/
def finish (s : AlertSystem φ) (candidate : DeliveryCandidate) (rest : List DeliveryCandidate)
    (attemptId : Uuid) (submission : DeliverySubmission) (at_ : Instant) (ok : Bool) :
    AlertSystem φ :=
  match if ok then s.store.finishDeliveryCandidate candidate submission attemptId at_ else none with
  | some t =>
    { s with store := t, claimed := rest, attempted := candidate.id :: s.attempted }
  | none => { s with claimed := rest }

def step (s : AlertSystem φ) : AlertEvent φ → Option (AlertSystem φ)
  | .tick samples =>
    match s.point with
    | .idle => some { s with point := .listRules samples }
    | _ => none
  | .listRules ok =>
    match s.point with
    | .listRules samples =>
      let rules := s.store.readRules
      some { s with
        point := if ok then .nextOpening samples rules (text.breaches rules samples) else .idle }
    | _ => none
  | .persist id candidateId ok =>
    match s.point with
    | .opening samples rules turn rest =>
      if s.draws [id, candidateId] then some (s.persist text samples rules turn rest id candidateId ok)
      else none
    | _ => none
  | .enqueue ok =>
    match s.point with
    | .announcing samples rules candidate rest =>
      some (s.enqueue candidate (.nextOpening samples rules rest) ok)
    | .announcingResolved candidate rest => some (s.enqueue candidate (.nextResolving rest) ok)
    | _ => none
  | .listAlerts ok =>
    match s.point with
    | .listAlerts samples rules =>
      some { s with
        point := if ok then .nextResolving (text.clearings rules samples s.store.readEpisodes)
          else .idle }
    | _ => none
  | .resolve candidateId ok =>
    match s.point with
    | .resolving turn rest =>
      if s.draws [candidateId] then some (s.resolve turn rest candidateId ok) else none
    | _ => none
  | .crash => some { s with point := .idle, acknowledging := [], claimed := [] }
  | .claim owner now =>
    match s.claimed with
    | [] =>
      let (candidates, t) := s.store.claimDeliveryCandidates owner now (now + deliveryLease)
        (min deliveryBatch 10000)
      some { s with store := t, claimed := candidates }
    | _ :: _ => none
  | .finish attemptId submission at_ ok =>
    match s.claimed with
    | [] => none
    | candidate :: rest => some (s.finish candidate rest attemptId submission at_ ok)
  | .saveRule rule =>
    some { s with
      store := s.store.upsertAlertRule rule
      deleted := s.deleted.filter fun id => id ≠ rule.id }
  | .deleteRule id deletedAt attemptId =>
    (s.store.deleteAlertRule id deletedAt attemptId).map fun t =>
      { s with
        store := t
        deleted := id :: s.deleted
        attempted := (s.store.candidates.rows.filter fun candidate =>
          !t.candidates.has candidate.id).map DeliveryCandidate.id ++ s.attempted }
  | .readAlert id at_ =>
    (s.store.readAlert id at_).map fun episode =>
      { s with acknowledging := episode :: s.acknowledging }
  | .writeAlert episode =>
    if episode ∈ s.acknowledging then
      some { s with
        store := s.store.setPayload episode
        acknowledging := s.acknowledging.erase episode
        acknowledged := episode.id :: s.acknowledged }
    else none
  | .maintain now => some { s with store := s.store.maintain text now }

section Runs

/-- A pass opens an alert and queues its notification. -/
def openingRun : List (AlertEvent ℕ) :=
  [.saveRule loadRule, .tick [busySample], .listRules true, .persist 1 2 true, .enqueue true,
    .listAlerts true]

/-- The next pass reads the alert before it resolves it. -/
def clearingRun : List (AlertEvent ℕ) := [.tick [calmSample], .listRules true, .listAlerts true]

end Runs

end AlertSystem

/-- The evaluator, the delivery worker, the operator's calls and the retention over one store -/
def alertSystem {φ : Type} (text : AlertText φ) : Machine (AlertSystem φ) (AlertEvent φ) :=
  ⟨AlertSystem.step text⟩

end Supervisor
