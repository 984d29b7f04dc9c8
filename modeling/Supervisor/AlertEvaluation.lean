import Supervisor.AlertStore

namespace Supervisor

/-- The ids that a pass draws, for the episode of a rule and a source, for its notification and
for the notification of a resolved episode. -/
structure DrawnIds where
  episode : Uuid → List Char → Uuid
  opening : Uuid → List Char → Uuid
  resolving : Uuid → Uuid

section Records

variable {φ : Type}

/-- The id that a turn of the first loop draws for its episode -/
def DrawnIds.ofTurn (ids : DrawnIds) (turn : MetricSample φ × AlertRule) : Uuid :=
  ids.episode turn.2.id turn.1.source

def newEpisode (id : Uuid) (sample : MetricSample φ) (rule : AlertRule) : AlertEpisode where
  id := id
  ruleId := rule.id
  source := sample.source
  cause := normalizedCause rule.condition
  state := .active
  severity := rule.severity
  openedAt := sample.occurredAt
  resolvedAt := none
  acknowledgedAt := none

def AlertEpisode.resolve (episode : AlertEpisode) (at_ : Instant) : AlertEpisode :=
  { episode with state := .resolved, resolvedAt := some at_ }

def notification (id : Uuid) (episode : AlertEpisode) (createdAt : Instant) :
    DeliveryCandidate where
  id := id
  alertId := episode.id
  kind := notificationKind
  payload := episode
  attemptCount := 0
  createdAt := createdAt
  leaseOwner := none
  leaseUntil := none

/-- `by_source.get`: the last sample of a source counts. -/
def bySource (samples : List (MetricSample φ)) (source : List Char) : Option (MetricSample φ) :=
  samples.reverse.find? fun sample => sample.source = source

end Records

/-- `list_alert_rules(1_000)` of the facade -/
def AlertStore.readRules (s : AlertStore) : List AlertRule := s.listAlertRules (min 1000 500)

/-- `list_alert_episodes(None, 500)` of the facade -/
def AlertStore.readEpisodes (s : AlertStore) : List AlertEpisode := s.listAlerts (min 500 500)

/-- A turn of the second loop whose calls succeed -/
def AlertStore.resolveEpisode (ids : DrawnIds) (s : AlertStore) (turn : AlertEpisode × Instant) :
    AlertStore :=
  match s.resolveAlertEpisode (turn.1.resolve turn.2) with
  | (true, t) => t.enqueueDeliveryCandidate
      (notification (ids.resolving turn.1.id) (turn.1.resolve turn.2) turn.2)
  | (false, t) => t

namespace AlertText

variable {φ : Type} (text : AlertText φ)

/-- The dedupe key that an episode was opened under -/
def episodeKey (episode : AlertEpisode) : List Char :=
  text.dedupeKey episode.ruleId episode.source episode.cause

/-- The turns of the first loop that reach `persist_alert_episode` -/
def breaches (rules : List AlertRule) (samples : List (MetricSample φ)) :
    List (MetricSample φ × AlertRule) :=
  samples.flatMap fun sample =>
    (rules.filter fun rule => rule.enabled && text.matchesRule rule sample).map (sample, ·)

/-- When the second loop resolves an episode: the time of the sample that clears it; `none` where
the loop continues with the next episode. -/
def clearedAt (rules : List AlertRule) (samples : List (MetricSample φ)) (episode : AlertEpisode) :
    Option Instant :=
  if episode.state = .resolved then none
  else do
    let rule ← rules.find? fun rule => rule.id = episode.ruleId && rule.enabled
    let sample ← bySource samples episode.source
    if text.matchesRule rule sample then none else some sample.occurredAt

/-- The turns of the second loop that reach `resolve_alert_episode` -/
def clearings (rules : List AlertRule) (samples : List (MetricSample φ))
    (episodes : List AlertEpisode) : List (AlertEpisode × Instant) :=
  episodes.filterMap fun episode => (text.clearedAt rules samples episode).map (episode, ·)

/-- The dedupe key of a turn -/
def turnKey (turn : MetricSample φ × AlertRule) : List Char :=
  text.dedupeKey turn.2.id turn.1.source (normalizedCause turn.2.condition)

/-- A turn of the first loop whose calls succeed -/
def openEpisode (ids : DrawnIds) (s : AlertStore) (turn : MetricSample φ × AlertRule) :
    AlertStore :=
  let episode := newEpisode (ids.ofTurn turn) turn.1 turn.2
  match s.upsertAlertEpisode episode (text.turnKey turn) with
  | some (true, t) => t.enqueueDeliveryCandidate
      (notification (ids.opening turn.2.id turn.1.source) episode turn.1.occurredAt)
  | some (false, t) => t
  | none => s

/-- The store when the first loop is done -/
def openEpisodes (ids : DrawnIds) (s : AlertStore) (samples : List (MetricSample φ)) :
    AlertStore :=
  (text.breaches s.readRules samples).foldl (text.openEpisode ids) s

/-- `evaluate_samples`, when every call succeeds and nothing else calls the store meanwhile -/
def evaluateSamples (ids : DrawnIds) (s : AlertStore) (samples : List (MetricSample φ)) :
    AlertStore :=
  let opened := text.openEpisodes ids s samples
  (text.clearings s.readRules samples opened.readEpisodes).foldl (AlertStore.resolveEpisode ids) opened

end AlertText

end Supervisor
