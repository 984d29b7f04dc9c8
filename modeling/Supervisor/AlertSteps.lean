import Supervisor.AlertSystem

namespace Supervisor

/-- What an alert is about; no statement changes it. -/
def AlertEpisode.subject (episode : AlertEpisode) : Uuid × List Char × List Char :=
  (episode.ruleId, episode.source, episode.cause)

namespace PassPoint

variable {φ : Type}

/-- The candidate that is about to be queued -/
def inHand : PassPoint φ → Option DeliveryCandidate
  | .announcing _ _ candidate _ | .announcingResolved candidate _ => some candidate
  | _ => none

/-- The turns of the second loop that are left -/
def turns : PassPoint φ → List (AlertEpisode × Instant)
  | .resolving turn rest => turn :: rest
  | .announcingResolved _ rest => rest
  | _ => []

@[simp]
theorem inHand_nextOpening (samples : List (MetricSample φ)) (rules : List AlertRule)
    (rest : List (MetricSample φ × AlertRule)) : (nextOpening samples rules rest).inHand = none := by
  cases rest with
  | nil => rfl
  | cons turn rest => rfl

@[simp]
theorem inHand_nextResolving (rest : List (AlertEpisode × Instant)) :
    (nextResolving rest : PassPoint φ).inHand = none := by
  cases rest with
  | nil => rfl
  | cons turn rest => rfl

@[simp]
theorem turns_nextOpening (samples : List (MetricSample φ)) (rules : List AlertRule)
    (rest : List (MetricSample φ × AlertRule)) : (nextOpening samples rules rest).turns = [] := by
  cases rest with
  | nil => rfl
  | cons turn rest => rfl

@[simp]
theorem turns_nextResolving (rest : List (AlertEpisode × Instant)) :
    (nextResolving rest : PassPoint φ).turns = rest := by
  cases rest with
  | nil => rfl
  | cons turn rest => rfl

end PassPoint

namespace AlertStore

variable {s t : AlertStore} {episode : AlertEpisode} {key : List Char} {row : AlertRow}

section Effects

theorem upsertAlertEpisode_created (h : s.upsertAlertEpisode episode key = some (true, t)) :
    s.episodeKeys.has key = false ∧ t.rules = s.rules ∧ t.candidates = s.candidates ∧
      (∀ row ∈ s.alerts, row.id ≠ episode.id) ∧
        (∀ row, row ∈ t.alerts ↔ row ∈ s.alerts ∨ row = ⟨episode.openedAt, episode⟩) ∧
          ∀ k, k ∈ t.episodeKeys ↔ k ∈ s.episodeKeys ∨ k = ⟨key, episode.id⟩ := by
  unfold upsertAlertEpisode at h
  split at h
  · cases h
  · rename_i keys hkeys
    split at h
    · cases h
    · obtain ⟨alerts, halerts, heq⟩ := Option.map_eq_some_iff.mp h
      cases heq
      refine ⟨?_, rfl, rfl, (KeyedTable.insert_eq_some.mp halerts).1,
        fun row => KeyedTable.mem_insert halerts, fun k => KeyedTable.mem_insert hkeys⟩
      rw [Bool.eq_false_iff]
      intro hhas
      obtain ⟨k, hk, hkey⟩ := KeyedTable.has_iff.mp hhas
      exact (KeyedTable.insert_eq_some.mp hkeys).1 k hk hkey

theorem resolveAlertEpisode_resolved (h : s.resolveAlertEpisode episode = (true, t)) :
    (∃ row ∈ s.alerts, row.id = episode.id) ∧ t = { s.setPayload episode with
      episodeKeys := s.episodeKeys.filter fun row => row.alertId ≠ episode.id } := by
  unfold resolveAlertEpisode at h
  split at h
  · rename_i hhas
    exact ⟨KeyedTable.has_iff.mp hhas, (Prod.mk.inj h).2.symm⟩
  · cases h

theorem resolveAlertEpisode_missing (h : s.resolveAlertEpisode episode = (false, t)) :
    ∀ row ∈ s.alerts, row.id ≠ episode.id := by
  unfold resolveAlertEpisode at h
  split at h
  · cases h
  · rename_i hmissing
    intro row hrow hid
    exact hmissing (KeyedTable.has_iff.mpr ⟨row, hrow, hid⟩)

theorem readAlert_some {id : Uuid} {at_ : Instant} (h : s.readAlert id at_ = some episode) :
    ∃ row ∈ s.alerts, row.id = id ∧ row.isResolved = false ∧ episode =
      { row.episode with state := .acknowledgedActive, acknowledgedAt := some at_ } := by
  unfold readAlert at h
  split at h
  · cases h
  · rename_i row hrow
    obtain ⟨hmem, hid⟩ := KeyedTable.find_eq_some.mp hrow
    split at h
    · cases h
    · rename_i hopen
      exact ⟨row, hmem, hid, decide_eq_false hopen, (Option.some.inj h).symm⟩

theorem enqueue_candidates {candidate : DeliveryCandidate}
    (hnew : ∀ c ∈ s.candidates, c.id ≠ candidate.id) (c : DeliveryCandidate) :
    c ∈ (s.enqueueDeliveryCandidate candidate).candidates ↔
      c ∈ s.candidates ∨ c = candidate := by
  unfold enqueueDeliveryCandidate
  split
  · rename_i hnone
    obtain ⟨c', hc', hid⟩ := KeyedTable.insert_eq_none.mp hnone
    exact absurd hid (hnew c' hc')
  · rename_i candidates hsome
    exact KeyedTable.mem_insert hsome

theorem claim_candidates {owner : List Char} {now leaseUntil : Instant} {limit : ℕ}
    {c : DeliveryCandidate} (h : c ∈ (s.claimDeliveryCandidates owner now leaseUntil limit).2.candidates) :
    ∃ c' ∈ s.candidates, c'.id = c.id ∧ c'.alertId = c.alertId ∧ c'.payload = c.payload := by
  obtain ⟨c', hc', rfl⟩ := List.mem_map.mp h
  refine ⟨c', hc', ?_⟩
  split
  · exact ⟨rfl, rfl, rfl⟩
  · exact ⟨rfl, rfl, rfl⟩

theorem has_claim_candidates {owner : List Char} {now leaseUntil : Instant} {limit : ℕ}
    (id : Uuid) : (s.claimDeliveryCandidates owner now leaseUntil limit).2.candidates.has id =
      s.candidates.has id := by
  rw [Bool.eq_iff_iff, KeyedTable.has_iff, KeyedTable.has_iff]
  constructor
  · rintro ⟨c, hc, hid⟩
    obtain ⟨c', hc', hid', -⟩ := claim_candidates hc
    exact ⟨c', hc', hid'.trans hid⟩
  · rintro ⟨c, hc, hid⟩
    refine ⟨_, List.mem_map.mpr ⟨c, hc, rfl⟩, ?_⟩
    split
    · exact hid
    · exact hid

theorem finish_ok {candidate : DeliveryCandidate} {submission : DeliverySubmission}
    {attemptId : Uuid} {at_ : Instant}
    (h : s.finishDeliveryCandidate candidate submission attemptId at_ = some t) :
    t.rules = s.rules ∧ t.alerts = s.alerts ∧ t.episodeKeys = s.episodeKeys ∧
      (∀ c ∈ t.candidates, ∃ c' ∈ s.candidates,
        c'.id = c.id ∧ c'.alertId = c.alertId ∧ c'.payload = c.payload) ∧
      ∀ id, id ≠ candidate.id → t.candidates.has id = s.candidates.has id := by
  obtain ⟨attempts, -, rfl⟩ := Option.map_eq_some_iff.mp h
  refine ⟨rfl, rfl, rfl, ?_, ?_⟩
  · intro c hc
    simp only at hc
    split at hc
    · rcases KeyedRows.mem_update_iff.mp hc with ⟨c', hc', -, rfl⟩ | ⟨hc', -⟩
      · exact ⟨c', hc', rfl, rfl, rfl⟩
      · exact ⟨c, hc', rfl, rfl, rfl⟩
    · exact ⟨c, (KeyedTable.mem_filter.mp hc).1, rfl, rfl, rfl⟩
  · intro id hne
    rw [Bool.eq_iff_iff, KeyedTable.has_iff, KeyedTable.has_iff]
    simp only
    split
    · constructor
      · rintro ⟨c, hc, hid⟩
        rcases KeyedRows.mem_update_iff.mp hc with ⟨c', hc', hc'id, rfl⟩ | ⟨hc', -⟩
        · exact absurd (hid.symm.trans hc'id) hne
        · exact ⟨c, hc', hid⟩
      · rintro ⟨c, hc, hid⟩
        exact ⟨c, KeyedRows.mem_update_iff.mpr (.inr ⟨hc, hid ▸ hne⟩), hid⟩
    · constructor
      · rintro ⟨c, hc, hid⟩
        exact ⟨c, (KeyedTable.mem_filter.mp hc).1, hid⟩
      · rintro ⟨c, hc, hid⟩
        exact ⟨c, KeyedTable.mem_filter.mpr ⟨hc, by simpa [hid] using hne⟩, hid⟩

/-- What the loop of a deletion has done to the candidates and the attempts -/
theorem foldlM_cancelDelivery {id : Uuid} {deletedAt : Instant} {attemptId : Uuid → Uuid}
    {rows : List AlertRow} (h : rows.foldlM (cancelDelivery id deletedAt attemptId) s = some t) :
    t.rules = s.rules ∧ t.alerts = s.alerts ∧ t.episodeKeys = s.episodeKeys ∧
      t.events = s.events ∧
      t.attempts.rows = s.attempts.rows ++ (rows.filter fun row => row.episode.ruleId = id).map
        (fun row => cancelledAttempt (attemptId row.id) row.id deletedAt) ∧
      t.candidates.rows = s.candidates.rows.filter fun candidate =>
        rows.all fun row => !(row.episode.ruleId = id && row.id = candidate.alertId) := by
  induction rows generalizing s with
  | nil =>
    cases h
    refine ⟨rfl, rfl, rfl, rfl, (List.append_nil _).symm, ?_⟩
    exact (List.filter_eq_self.mpr fun _ _ => rfl).symm
  | cons row rows ih =>
    rw [List.foldlM_cons] at h
    obtain ⟨u, hu, ht⟩ := Option.bind_eq_some_iff.mp h
    obtain ⟨hrules, halerts, hkeys, hevents, hattempts, hcandidates⟩ := ih ht
    unfold cancelDelivery at hu
    split at hu
    · rename_i hother
      cases hu
      refine ⟨hrules, halerts, hkeys, hevents, ?_, ?_⟩
      · rw [hattempts, List.filter_cons_of_neg (by simpa using hother)]
      · rw [hcandidates]
        apply List.filter_congr
        intro candidate _
        simp [hother]
    · rename_i hrule
      rw [not_not] at hrule
      obtain ⟨attempts, hinsert, rfl⟩ := Option.map_eq_some_iff.mp hu
      refine ⟨hrules, halerts, hkeys, hevents, ?_, ?_⟩
      · rw [hattempts, List.filter_cons_of_pos (by simpa using hrule), List.map_cons]
        simp only [(KeyedTable.insert_eq_some.mp hinsert).2, List.append_assoc,
          List.singleton_append]
      · rw [hcandidates]
        simp only [KeyedTable.filter, List.filter_filter]
        apply List.filter_congr
        intro candidate _
        simp [hrule, eq_comm, Bool.and_comm]

/-- What a deletion does: the rule is marked, each episode of it gets an attempt, and its pending
candidates go. -/
theorem deleteAlertRule_ok {id : Uuid} {deletedAt : Instant} {attemptId : Uuid → Uuid}
    (h : s.deleteAlertRule id deletedAt attemptId = some t) :
    (∀ row ∈ t.rules, row.id = id → row.deletedAt = some deletedAt) ∧
      (∀ row ∈ t.rules, row.id ≠ id → row ∈ s.rules) ∧
      t.alerts = s.alerts ∧ t.episodeKeys = s.episodeKeys ∧ t.events = s.events ∧
      t.attempts.rows = s.attempts.rows ++
        (s.alerts.rows.filter fun row => row.episode.ruleId = id).map
          (fun row => cancelledAttempt (attemptId row.id) row.id deletedAt) ∧
      t.candidates.rows = s.candidates.rows.filter fun candidate =>
        s.alerts.rows.all fun row => !(row.episode.ruleId = id && row.id = candidate.alertId) := by
  obtain ⟨hrules, halerts, hkeys, hevents, hattempts, hcandidates⟩ := foldlM_cancelDelivery h
  refine ⟨?_, ?_, halerts, hkeys, hevents, hattempts, hcandidates⟩
  · intro row hrow hid
    rw [hrules] at hrow
    rcases KeyedRows.mem_update_iff.mp hrow with ⟨row', -, -, rfl⟩ | ⟨-, hne⟩
    · rfl
    · exact absurd hid hne
  · intro row hrow hne
    rw [hrules] at hrow
    rcases KeyedRows.mem_update_iff.mp hrow with ⟨row', -, hid, rfl⟩ | ⟨hold, -⟩
    · exact absurd hid hne
    · exact hold

end Effects

end AlertStore

namespace AlertSystem

variable {φ : Type} {text : AlertText φ} {s t : AlertSystem φ}

/-- What a step does, one constructor for each branch of the code. -/
inductive Moves (text : AlertText φ) (s : AlertSystem φ) : AlertEvent φ → AlertSystem φ → Prop
  | tick (samples : List (MetricSample φ)) (point : s.point = .idle) :
    Moves text s (.tick samples) { s with point := .listRules samples }
  | listRules (samples : List (MetricSample φ)) (point : s.point = .listRules samples) :
    Moves text s (.listRules true) { s with
      point := .nextOpening samples s.store.readRules (text.breaches s.store.readRules samples) }
  | opened (samples : List (MetricSample φ)) (rules : List AlertRule)
    (turn : MetricSample φ × AlertRule) (rest : List (MetricSample φ × AlertRule))
    (id candidateId : Uuid) (store : AlertStore) (point : s.point = .opening samples rules turn rest)
    (fresh : id ∉ s.drawn ∧ candidateId ∉ s.drawn ∧ id ≠ candidateId)
    (created : s.store.upsertAlertEpisode (newEpisode id turn.1 turn.2) (text.turnKey turn) =
      some (true, store)) :
    Moves text s (.persist id candidateId true) { s with
      store := store
      drawn := id :: candidateId :: s.drawn
      opened := id :: s.opened
      point := .announcing samples rules
        (notification candidateId (newEpisode id turn.1 turn.2) turn.1.occurredAt) rest }
  | notOpened (samples : List (MetricSample φ)) (rules : List AlertRule)
    (turn : MetricSample φ × AlertRule) (rest : List (MetricSample φ × AlertRule))
    (id candidateId : Uuid) (ok : Bool) (point : s.point = .opening samples rules turn rest) :
    Moves text s (.persist id candidateId ok) { s with
      drawn := id :: candidateId :: s.drawn
      point := .nextOpening samples rules rest }
  | announced (samples : List (MetricSample φ)) (rules : List AlertRule)
    (candidate : DeliveryCandidate) (rest : List (MetricSample φ × AlertRule))
    (point : s.point = .announcing samples rules candidate rest) :
    Moves text s (.enqueue true) { s with
      store := s.store.enqueueDeliveryCandidate candidate
      queued := candidate :: s.queued
      point := .nextOpening samples rules rest }
  | announcedResolved (candidate : DeliveryCandidate) (rest : List (AlertEpisode × Instant))
    (point : s.point = .announcingResolved candidate rest) :
    Moves text s (.enqueue true) { s with
      store := s.store.enqueueDeliveryCandidate candidate
      queued := candidate :: s.queued
      point := .nextResolving rest }
  | notAnnounced (samples : List (MetricSample φ)) (rules : List AlertRule)
    (candidate : DeliveryCandidate) (rest : List (MetricSample φ × AlertRule))
    (point : s.point = .announcing samples rules candidate rest) :
    Moves text s (.enqueue false) { s with point := .nextOpening samples rules rest }
  | notAnnouncedResolved (candidate : DeliveryCandidate) (rest : List (AlertEpisode × Instant))
    (point : s.point = .announcingResolved candidate rest) :
    Moves text s (.enqueue false) { s with point := .nextResolving rest }
  | listAlerts (samples : List (MetricSample φ)) (rules : List AlertRule)
    (point : s.point = .listAlerts samples rules) :
    Moves text s (.listAlerts true) { s with
      point := .nextResolving (text.clearings rules samples s.store.readEpisodes) }
  | abandoned (e : AlertEvent φ) (call : e = .listRules false ∨ e = .listAlerts false)
    (point : s.point.inHand = none) : Moves text s e { s with point := .idle }
  | resolved (turn : AlertEpisode × Instant) (rest : List (AlertEpisode × Instant))
    (candidateId : Uuid) (point : s.point = .resolving turn rest) (fresh : candidateId ∉ s.drawn)
    (stored : ∃ row ∈ s.store.alerts, row.id = turn.1.id) :
    Moves text s (.resolve candidateId true) { s with
      store := { s.store.setPayload (turn.1.resolve turn.2) with
        episodeKeys := s.store.episodeKeys.filter fun row => row.alertId ≠ turn.1.id }
      drawn := candidateId :: s.drawn
      resolved := turn.1.id :: s.resolved
      point := .announcingResolved
        (notification candidateId (turn.1.resolve turn.2) turn.2) rest }
  | notResolved (turn : AlertEpisode × Instant) (rest : List (AlertEpisode × Instant))
    (candidateId : Uuid) (ok : Bool) (point : s.point = .resolving turn rest)
    (missing : ok = true → ∀ row ∈ s.store.alerts, row.id ≠ turn.1.id) :
    Moves text s (.resolve candidateId ok) { s with
      drawn := candidateId :: s.drawn
      point := .nextResolving rest }
  | crash : Moves text s .crash { s with point := .idle, acknowledging := [], claimed := [] }
  | claim (owner : List Char) (now : Instant) :
    Moves text s (.claim owner now) { s with
      store := (s.store.claimDeliveryCandidates owner now (now + deliveryLease)
        (min deliveryBatch 10000)).2
      claimed := (s.store.claimDeliveryCandidates owner now (now + deliveryLease)
        (min deliveryBatch 10000)).1 }
  | finished (candidate : DeliveryCandidate) (rest : List DeliveryCandidate) (attemptId : Uuid)
    (submission : DeliverySubmission) (at_ : Instant) (store : AlertStore)
    (claimed : s.claimed = candidate :: rest)
    (call : s.store.finishDeliveryCandidate candidate submission attemptId at_ = some store) :
    Moves text s (.finish attemptId submission at_ true) { s with
      store := store, claimed := rest, attempted := candidate.id :: s.attempted }
  | notFinished (candidate : DeliveryCandidate) (rest : List DeliveryCandidate) (attemptId : Uuid)
    (submission : DeliverySubmission) (at_ : Instant) (ok : Bool) :
    Moves text s (.finish attemptId submission at_ ok) { s with claimed := rest }
  | saveRule (rule : AlertRule) :
    Moves text s (.saveRule rule) { s with
      store := s.store.upsertAlertRule rule
      deleted := s.deleted.filter fun id => id ≠ rule.id }
  | deleteRule (id : Uuid) (deletedAt : Instant) (attemptId : Uuid → Uuid) (store : AlertStore)
    (call : s.store.deleteAlertRule id deletedAt attemptId = some store) :
    Moves text s (.deleteRule id deletedAt attemptId) { s with
      store := store
      deleted := id :: s.deleted
      attempted := (s.store.candidates.rows.filter fun candidate =>
        !store.candidates.has candidate.id).map DeliveryCandidate.id ++ s.attempted }
  | readAlert (id : Uuid) (at_ : Instant) (episode : AlertEpisode)
    (call : s.store.readAlert id at_ = some episode) :
    Moves text s (.readAlert id at_) { s with acknowledging := episode :: s.acknowledging }
  | writeAlert (episode : AlertEpisode) (call : episode ∈ s.acknowledging) :
    Moves text s (.writeAlert episode) { s with
      store := s.store.setPayload episode
      acknowledging := s.acknowledging.erase episode
      acknowledged := episode.id :: s.acknowledged }
  | maintain (now : Instant) :
    Moves text s (.maintain now) { s with store := s.store.maintain text now }

theorem draws_iff {ids : List Uuid} :
    s.draws ids = true ↔ ids.Nodup ∧ ∀ id ∈ ids, id ∉ s.drawn := by
  simp [draws]

/-- Every step is one of these moves. -/
theorem step_moves {e : AlertEvent φ} (h : step text s e = some t) : Moves text s e t := by
  cases e with
  | tick samples =>
    simp only [step] at h
    split at h
    · rename_i hpoint
      cases h
      exact .tick samples hpoint
    · cases h
  | listRules ok =>
    simp only [step] at h
    split at h
    · rename_i samples hpoint
      cases h
      cases ok with
      | true => exact .listRules samples hpoint
      | false => exact .abandoned _ (.inl rfl) (by rw [hpoint]; rfl)
    · cases h
  | persist id candidateId ok =>
    simp only [step] at h
    split at h
    · rename_i samples rules turn rest hpoint
      split at h
      · rename_i hdraws
        obtain ⟨hnodup, hfresh⟩ := draws_iff.mp hdraws
        cases h
        cases ok with
        | false => exact .notOpened samples rules turn rest id candidateId false hpoint
        | true =>
          simp only [persist, if_true]
          split
          · rename_i store hcall
            refine .opened samples rules turn rest id candidateId store hpoint ?_ hcall
            refine ⟨hfresh id (by simp), hfresh candidateId (by simp), ?_⟩
            simpa using hnodup
          · exact .notOpened samples rules turn rest id candidateId true hpoint
      · cases h
    · cases h
  | enqueue ok =>
    simp only [step] at h
    split at h
    · rename_i samples rules candidate rest hpoint
      cases h
      cases ok with
      | true => exact .announced samples rules candidate rest hpoint
      | false => exact .notAnnounced samples rules candidate rest hpoint
    · rename_i candidate rest hpoint
      cases h
      cases ok with
      | true => exact .announcedResolved candidate rest hpoint
      | false => exact .notAnnouncedResolved candidate rest hpoint
    · cases h
  | listAlerts ok =>
    simp only [step] at h
    split at h
    · rename_i samples rules hpoint
      cases h
      cases ok with
      | true => exact .listAlerts samples rules hpoint
      | false => exact .abandoned _ (.inr rfl) (by rw [hpoint]; rfl)
    · cases h
  | resolve candidateId ok =>
    simp only [step] at h
    split at h
    · rename_i turn rest hpoint
      split at h
      · rename_i hdraws
        obtain ⟨-, hfresh⟩ := draws_iff.mp hdraws
        cases h
        cases ok with
        | false =>
          exact .notResolved turn rest candidateId false hpoint fun h => absurd h Bool.false_ne_true
        | true =>
          simp only [resolve, if_true]
          split
          · rename_i store hcall
            obtain ⟨hstored, rfl⟩ := AlertStore.resolveAlertEpisode_resolved hcall
            exact .resolved turn rest candidateId hpoint (hfresh candidateId (by simp)) hstored
          · rename_i store hcall
            have hmissing := AlertStore.resolveAlertEpisode_missing hcall
            exact .notResolved turn rest candidateId true hpoint fun _ => hmissing
      · cases h
    · cases h
  | crash =>
    cases h
    exact .crash
  | claim owner now =>
    simp only [step] at h
    split at h
    · cases h
      exact .claim owner now
    · cases h
  | finish attemptId submission at_ ok =>
    simp only [step] at h
    split at h
    · cases h
    · rename_i candidate rest hclaimed
      cases h
      cases ok with
      | false => exact .notFinished candidate rest attemptId submission at_ false
      | true =>
        simp only [finish, if_true]
        split
        · rename_i store hcall
          exact .finished candidate rest attemptId submission at_ store hclaimed hcall
        · exact .notFinished candidate rest attemptId submission at_ true
  | saveRule rule =>
    cases h
    exact .saveRule rule
  | deleteRule id deletedAt attemptId =>
    obtain ⟨store, hcall, rfl⟩ := Option.map_eq_some_iff.mp h
    exact .deleteRule id deletedAt attemptId store hcall
  | readAlert id at_ =>
    obtain ⟨episode, hcall, rfl⟩ := Option.map_eq_some_iff.mp h
    exact .readAlert id at_ episode hcall
  | writeAlert episode =>
    simp only [step] at h
    split at h
    · rename_i hcall
      cases h
      exact .writeAlert episode hcall
    · cases h
  | maintain now =>
    cases h
    exact .maintain now

end AlertSystem

end Supervisor
