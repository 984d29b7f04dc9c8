import Supervisor.AlertClearing
import Supervisor.AlertInvariant

namespace Supervisor

namespace PassPoint

variable {φ : Type} {samples : List (MetricSample φ)} {rules : List AlertRule} {id : Uuid}

/-- The pass has read the rule as an enabled one, and may still act on it. -/
def touches (id : Uuid) : PassPoint φ → Bool
  | .idle | .listRules _ => false
  | .opening _ rules turn rest =>
    (rules.any fun rule => rule.id = id && rule.enabled) ||
      (turn :: rest).any fun turn => turn.2.id = id
  | .announcing _ rules candidate rest =>
    (rules.any fun rule => rule.id = id && rule.enabled) ||
      (candidate.payload.ruleId = id || rest.any fun turn => turn.2.id = id)
  | .listAlerts _ rules => rules.any fun rule => rule.id = id && rule.enabled
  | .resolving turn rest => (turn :: rest).any fun turn => turn.1.ruleId = id
  | .announcingResolved candidate rest =>
    candidate.payload.ruleId = id || rest.any fun turn => turn.1.ruleId = id

theorem touches_nextOpening (rest : List (MetricSample φ × AlertRule)) :
    (nextOpening samples rules rest).touches id =
      ((rules.any fun rule => rule.id = id && rule.enabled) ||
        rest.any fun turn => turn.2.id = id) := by
  cases rest with
  | nil => exact (Bool.or_false _).symm
  | cons turn rest => rfl

theorem touches_nextResolving (rest : List (AlertEpisode × Instant)) :
    (nextResolving rest : PassPoint φ).touches id = rest.any fun turn => turn.1.ruleId = id := by
  cases rest with
  | nil => rfl
  | cons turn rest => rfl

theorem touches_inHand {point : PassPoint φ} {candidate : DeliveryCandidate}
    (h : point.inHand = some candidate) : point.touches candidate.payload.ruleId = true := by
  cases point with
  | announcing samples rules hand rest =>
    cases h
    simp [touches]
  | announcingResolved hand rest =>
    cases h
    simp [touches]
  | _ => cases h

end PassPoint

theorem mem_breaches {φ : Type} {text : AlertText φ} {rules : List AlertRule}
    {samples : List (MetricSample φ)} {turn : MetricSample φ × AlertRule}
    (h : turn ∈ text.breaches rules samples) : turn.2 ∈ rules ∧ turn.2.enabled = true := by
  obtain ⟨sample, -, hturn⟩ := List.mem_flatMap.mp h
  obtain ⟨rule, hrule, rfl⟩ := List.mem_map.mp hturn
  obtain ⟨hmem, htest⟩ := List.mem_filter.mp hrule
  exact ⟨hmem, (Bool.and_eq_true_iff.mp htest).1⟩

namespace AlertStore

/-- The stored episodes of a rule and its pending candidates belong together one to one. -/
def OneEach (s : AlertStore) (id : Uuid) : Prop :=
  (∀ row ∈ s.alerts.rows, row.episode.ruleId = id →
    s.candidates.rows.countP (fun candidate => candidate.alertId = row.id) = 1) ∧
  ∀ candidate ∈ s.candidates.rows, candidate.payload.ruleId = id →
    ∃ row ∈ s.alerts.rows, row.id = candidate.alertId ∧ row.episode.ruleId = id

instance (s : AlertStore) (id : Uuid) : Decidable (s.OneEach id) :=
  inferInstanceAs (Decidable (_ ∧ _))

/-- The candidates that a deletion has removed -/
def removedCandidates (s t : AlertStore) : List DeliveryCandidate :=
  s.candidates.rows.filter fun candidate => !t.candidates.has candidate.id

/-- A deletion records one cancelled attempt for each candidate that it removes, and leaves the
other rules alone. -/
structure DeletionExact (s t : AlertStore) (id : Uuid) (deletedAt : Instant) : Prop where
  attempts : ∃ added : List DeliveryAttempt, t.attempts.rows = s.attempts.rows ++ added ∧
    (∀ attempt ∈ added, attempt.outcome = "cancelled".toList ∧ attempt.occurredAt = deletedAt) ∧
      (added.map DeliveryAttempt.alertId).Perm
        ((removedCandidates s t).map DeliveryCandidate.alertId)
  candidates : ∀ candidate, candidate ∈ t.candidates ↔
    candidate ∈ s.candidates ∧ candidate.payload.ruleId ≠ id
  alerts : t.alerts = s.alerts

end AlertStore

namespace AlertSystem

variable {φ : Type} {text : AlertText φ} {s t : AlertSystem φ} {e : AlertEvent φ}
  {store : AlertStore} {id : Uuid} {deletedAt : Instant} {attemptId : Uuid → Uuid}

section Effect

/-- The candidates that a deletion removes are those of the stored episodes of the rule. -/
theorem mem_removedCandidates
    (hcall : s.store.deleteAlertRule id deletedAt attemptId = some store)
    {candidate : DeliveryCandidate} : candidate ∈ AlertStore.removedCandidates s.store store ↔
      candidate ∈ s.store.candidates ∧
        ∃ row ∈ s.store.alerts, row.episode.ruleId = id ∧ row.id = candidate.alertId := by
  have hrest := (AlertStore.deleteAlertRule_ok hcall).2.2.2.2.2.2
  rw [AlertStore.removedCandidates, List.mem_filter]
  apply and_congr_right
  intro hcandidate
  rw [Bool.not_eq_true', Bool.eq_false_iff, ne_eq, KeyedTable.has_iff]
  constructor
  · intro hgone
    by_contra hnone
    push Not at hnone
    apply hgone
    refine ⟨candidate, ?_, rfl⟩
    rw [KeyedTable.mem_iff, hrest, List.mem_filter]
    refine ⟨hcandidate, List.all_eq_true.mpr fun row hrow => ?_⟩
    by_cases hrule : row.episode.ruleId = id
    · simp [hrule, hnone row hrow hrule]
    · simp [hrule]
  · rintro ⟨row, hrow, hrule, hid⟩ ⟨kept, hkept, hsame⟩
    rw [KeyedTable.mem_iff, hrest, List.mem_filter] at hkept
    have heq : kept = candidate := KeyedTable.eq_of_key hkept.1 hcandidate hsame
    have hall := List.all_eq_true.mp hkept.2 row hrow
    rw [heq] at hall
    simp [hrule, hid] at hall

/-- A deletion is exact exactly when the episodes and the candidates of the rule correspond. -/
theorem deletionExact_iff (hs : s.Sound)
    (hcall : s.store.deleteAlertRule id deletedAt attemptId = some store) :
    AlertStore.DeletionExact s.store store id deletedAt ↔ s.store.OneEach id := by
  obtain ⟨-, -, halerts, -, -, hattempts, hrest⟩ := AlertStore.deleteAlertRule_ok hcall
  have hofRule {row : AlertRow} {candidate : DeliveryCandidate} (hrow : row ∈ s.store.alerts)
      (hcandidate : candidate ∈ s.store.candidates) (hid : row.id = candidate.alertId) :
      row.episode.ruleId = candidate.payload.ruleId := by
    obtain ⟨-, halert, hrefers⟩ := hs.candidates candidate hcandidate
    exact congrArg Prod.fst (hrefers.subject row hrow (hid.trans halert))
  -- the alerts that the attempts are recorded for
  have hadded : (((s.store.alerts.rows.filter fun row => row.episode.ruleId = id).map fun row =>
      AlertStore.cancelledAttempt (attemptId row.id) row.id deletedAt).map
        DeliveryAttempt.alertId) =
      (s.store.alerts.rows.filter fun row => row.episode.ruleId = id).map AlertRow.id := by
    rw [List.map_map]
    rfl
  have hnodup : ((s.store.alerts.rows.filter fun row => row.episode.ruleId = id).map
      AlertRow.id).Nodup := s.store.alerts.unique.sublist (List.filter_sublist.map _)
  -- every candidate of an episode of the rule is removed
  have hcount (row : AlertRow) (hrow : row ∈ s.store.alerts) (hrule : row.episode.ruleId = id) :
      ((AlertStore.removedCandidates s.store store).map DeliveryCandidate.alertId).count row.id =
        s.store.candidates.rows.countP fun candidate => candidate.alertId = row.id := by
    rw [List.count_eq_countP, List.countP_map, AlertStore.removedCandidates, List.countP_filter]
    apply List.countP_congr
    intro candidate hcandidate
    have hremoved := @mem_removedCandidates _ _ _ _ _ _ hcall candidate
    rw [AlertStore.removedCandidates, List.mem_filter] at hremoved
    simp only [Function.comp_apply, beq_iff_eq, Bool.and_eq_true, decide_eq_true_eq]
    constructor
    · exact And.left
    · intro hid
      exact ⟨hid, (hremoved.mpr ⟨hcandidate, row, hrow, hrule, hid.symm⟩).2⟩
  constructor
  · rintro ⟨⟨added, happend, -, hperm⟩, hcandidates, -⟩
    rw [hattempts] at happend
    obtain rfl := List.append_cancel_left happend
    rw [hadded] at hperm
    refine ⟨?_, ?_⟩
    · intro row hrow hrule
      rw [← hcount row hrow hrule, ← hperm.count_eq]
      apply List.count_eq_one_of_mem hnodup
      exact List.mem_map_of_mem (List.mem_filter.mpr ⟨hrow, by simpa using hrule⟩)
    · intro candidate hcandidate hrule
      by_contra hnone
      have hkept : candidate ∈ store.candidates := by
        rw [KeyedTable.mem_iff, hrest, List.mem_filter]
        refine ⟨hcandidate, List.all_eq_true.mpr fun row hrow => ?_⟩
        by_contra hfail
        simp only [Bool.not_eq_true', Bool.and_eq_false_imp, decide_eq_true_eq,
          decide_eq_false_iff_not, not_forall, not_not] at hfail
        obtain ⟨hruleId, hid⟩ := hfail
        exact hnone ⟨row, hrow, hid, hruleId⟩
      exact ((hcandidates candidate).mp hkept).2 hrule
  · rintro ⟨hone, hstored⟩
    refine ⟨⟨_, hattempts, ?_, ?_⟩, ?_, halerts⟩
    · intro attempt hattempt
      obtain ⟨row, -, rfl⟩ := List.mem_map.mp hattempt
      exact ⟨rfl, rfl⟩
    · rw [hadded, List.perm_iff_count]
      intro alertId
      by_cases hmem : alertId ∈ (s.store.alerts.rows.filter fun row =>
          row.episode.ruleId = id).map AlertRow.id
      · rw [List.count_eq_one_of_mem hnodup hmem]
        obtain ⟨row, hrow, rfl⟩ := List.mem_map.mp hmem
        obtain ⟨hstore, hrule⟩ := List.mem_filter.mp hrow
        rw [decide_eq_true_eq] at hrule
        rw [hcount row hstore hrule, hone row hstore hrule]
      · rw [List.count_eq_zero_of_not_mem hmem]
        symm
        apply List.count_eq_zero_of_not_mem
        intro hremoved
        obtain ⟨candidate, hcandidate, rfl⟩ := List.mem_map.mp hremoved
        obtain ⟨-, row, hrow, hrule, hid⟩ := (mem_removedCandidates hcall).mp hcandidate
        exact hmem (hid ▸ List.mem_map_of_mem (List.mem_filter.mpr ⟨hrow, by simpa using hrule⟩))
    · intro candidate
      rw [KeyedTable.mem_iff, hrest, List.mem_filter]
      apply and_congr_right
      intro hcandidate
      rw [List.all_eq_true]
      constructor
      · intro hall hrule
        obtain ⟨row, hrow, hid, hruleId⟩ := hstored candidate hcandidate hrule
        have hfail := hall row hrow
        simp [hid, hruleId] at hfail
      · intro hother row hrow
        by_cases hid : row.id = candidate.alertId
        · have hrule := hofRule hrow hcandidate hid
          simp [hrule, hother]
        · simp [hid]

end Effect

/-- The deleted rules stay silent: nothing is pending for them, nothing will be queued, and no
listing shows them. -/
structure Silenced (s : AlertSystem φ) : Prop where
  candidates : ∀ candidate ∈ s.store.candidates, candidate.payload.ruleId ∉ s.deleted
  point : ∀ id ∈ s.deleted, s.point.touches id = false
  rules : ∀ id ∈ s.deleted, ∀ row ∈ s.store.rules, row.id = id → row.deletedAt.isSome = true

/-- A deletion that finds no pass under way that has read the rule, and one pending candidate for
each stored episode of the rule and no other -/
def DeletesQuietly (s : AlertSystem φ) : AlertEvent φ → Prop
  | .deleteRule id _ _ => s.point.touches id = false ∧ s.store.OneEach id
  | _ => True

instance (s : AlertSystem φ) (e : AlertEvent φ) : Decidable (s.DeletesQuietly e) := by
  cases e with
  | deleteRule id deletedAt attemptId =>
    exact inferInstanceAs (Decidable (s.point.touches id = false ∧ s.store.OneEach id))
  | _ => exact .isTrue trivial

theorem Silenced.start : (start : AlertSystem φ).Silenced where
  candidates _ h := absurd h KeyedTable.not_mem_empty
  point _ h := absurd h List.not_mem_nil
  rules _ h := absurd h List.not_mem_nil

/-- What a step does to the rules and to the record of the deleted ones -/
theorem Moves.rules_mem (h : Moves text s e t) :
    (t.deleted = s.deleted ∧ t.store.rules = s.store.rules) ∨
      (∃ rule, e = .saveRule rule ∧ t.deleted = s.deleted.filter (fun id => id ≠ rule.id) ∧
        t.point = s.point ∧ ∀ row ∈ t.store.rules, row.id ≠ rule.id → row ∈ s.store.rules) ∨
      ∃ id deletedAt attemptId, e = .deleteRule id deletedAt attemptId ∧
        t.deleted = id :: s.deleted ∧ t.point = s.point ∧
        s.store.deleteAlertRule id deletedAt attemptId = some t.store := by
  cases h with
  | opened samples rules turn rest id candidateId store point fresh created =>
    exact .inl ⟨rfl, (AlertStore.upsertAlertEpisode_created created).2.1⟩
  | announced samples rules candidate rest point => exact .inl ⟨rfl, AlertStore.enqueue_rules _ _⟩
  | announcedResolved candidate rest point => exact .inl ⟨rfl, AlertStore.enqueue_rules _ _⟩
  | finished candidate rest attemptId submission at_ store claimed call =>
    exact .inl ⟨rfl, (AlertStore.finish_ok call).1⟩
  | saveRule rule =>
    refine .inr (.inl ⟨rule, rfl, rfl, rfl, fun row hrow hne => ?_⟩)
    rcases KeyedTable.mem_upsert.mp hrow with rfl | ⟨hold, -⟩
    · exact absurd rfl hne
    · exact hold
  | deleteRule id deletedAt attemptId store call =>
    exact .inr (.inr ⟨id, deletedAt, attemptId, rfl, rfl, rfl, call⟩)
  | _ => exact .inl ⟨rfl, rfl⟩

/-- A pass comes to act on a rule only by listing it. -/
theorem Moves.touches (h : Moves text s e t) {id : Uuid} (ht : t.point.touches id = true) :
    s.point.touches id = true ∨ ∃ rule ∈ s.store.readRules, rule.id = id := by
  cases h with
  | tick samples point => cases ht
  | listRules samples point =>
    right
    rw [PassPoint.touches_nextOpening, Bool.or_eq_true, List.any_eq_true, List.any_eq_true] at ht
    rcases ht with ⟨rule, hrule, htest⟩ | ⟨turn, hturn, htest⟩
    · exact ⟨rule, hrule, of_decide_eq_true (Bool.and_eq_true_iff.mp htest).1⟩
    · exact ⟨turn.2, (mem_breaches hturn).1, of_decide_eq_true htest⟩
  | opened samples rules turn rest episodeId candidateId store point fresh created =>
    left
    rw [point]
    exact ht
  | notOpened samples rules turn rest episodeId candidateId ok point =>
    left
    rw [PassPoint.touches_nextOpening] at ht
    rw [point, PassPoint.touches, List.any_cons]
    grind
  | announced samples rules candidate rest point =>
    left
    rw [PassPoint.touches_nextOpening] at ht
    rw [point, PassPoint.touches]
    grind
  | announcedResolved candidate rest point =>
    left
    rw [PassPoint.touches_nextResolving] at ht
    rw [point, PassPoint.touches, ht, Bool.or_true]
  | notAnnounced samples rules candidate rest point =>
    left
    rw [PassPoint.touches_nextOpening] at ht
    rw [point, PassPoint.touches]
    grind
  | notAnnouncedResolved candidate rest point =>
    left
    rw [PassPoint.touches_nextResolving] at ht
    rw [point, PassPoint.touches, ht, Bool.or_true]
  | listAlerts samples rules point =>
    -- a turn of the second loop is about an episode of an enabled rule that was read
    left
    rw [PassPoint.touches_nextResolving, List.any_eq_true] at ht
    obtain ⟨turn, hturn, htest⟩ := ht
    obtain ⟨-, rule, hrule, hid, henabled⟩ := mem_clearings hturn
    rw [point, PassPoint.touches, List.any_eq_true]
    exact ⟨rule, hrule, by simp [hid, henabled, of_decide_eq_true htest]⟩
  | abandoned e call point => cases ht
  | resolved turn rest candidateId point fresh stored =>
    left
    rw [point]
    exact ht
  | notResolved turn rest candidateId ok point missing =>
    left
    rw [PassPoint.touches_nextResolving] at ht
    rw [point, PassPoint.touches, List.any_cons, ht, Bool.or_true]
  | crash => cases ht
  | _ => exact .inl ht

theorem Silenced.moves (hs : s.Sound) (hsilent : s.Silenced) (hquiet : s.DeletesQuietly e)
    (h : Moves text s e t) : t.Silenced := by
  have hunlisted : ∀ id ∈ s.deleted, ∀ rule ∈ s.store.readRules, rule.id ≠ id := by
    rintro id hid rule hrule rfl
    obtain ⟨⟨row, hrow, rfl⟩, -⟩ := mem_readRules.mp hrule
    obtain ⟨hstored, hlive⟩ := List.mem_filter.mp hrow
    have hmarked := hsilent.rules row.rule.id hid row hstored rfl
    rw [Option.isNone_iff_eq_none] at hlive
    rw [hlive] at hmarked
    exact absurd hmarked Bool.false_ne_true
  have hpoint : ∀ id ∈ s.deleted, t.point.touches id = false := by
    intro id hid
    rw [Bool.eq_false_iff]
    intro htouches
    rcases h.touches htouches with hold | ⟨rule, hrule, hruleId⟩
    · rw [hsilent.point id hid] at hold
      exact Bool.false_ne_true hold
    · exact hunlisted id hid rule hrule hruleId
  have hcandidates : ∀ candidate ∈ t.store.candidates, candidate.payload.ruleId ∉ s.deleted := by
    intro candidate hcandidate hmem
    rcases h.candidate_mem hs candidate hcandidate with ⟨old, hold, -, -, hpayload⟩ | ⟨hhand, -⟩
    · exact hsilent.candidates old hold (hpayload ▸ hmem)
    · have htouches := PassPoint.touches_inHand hhand
      rw [hsilent.point _ hmem] at htouches
      exact Bool.false_ne_true htouches
  rcases h.rules_mem with ⟨hdeleted, hrules⟩ | ⟨rule, -, hdeleted, -, hrules⟩ |
    ⟨id, deletedAt, attemptId, rfl, hdeleted, hsame, hcall⟩
  · refine ⟨?_, ?_, ?_⟩
    · rw [hdeleted]
      exact hcandidates
    · rw [hdeleted]
      exact hpoint
    · rw [hdeleted, hrules]
      exact hsilent.rules
  · refine ⟨?_, ?_, ?_⟩
    · intro candidate hcandidate hmem
      rw [hdeleted] at hmem
      exact hcandidates candidate hcandidate (List.mem_of_mem_filter hmem)
    · intro id hid
      rw [hdeleted] at hid
      exact hpoint id (List.mem_of_mem_filter hid)
    · intro id hid row hrow hrowId
      rw [hdeleted] at hid
      obtain ⟨hmem, hne⟩ := List.mem_filter.mp hid
      have hother : row.id ≠ rule.id := hrowId ▸ of_decide_eq_true hne
      exact hsilent.rules id hmem row (hrules row hrow hother) hrowId
  · -- the deletion itself
    obtain ⟨hmarked, hother, -⟩ := AlertStore.deleteAlertRule_ok hcall
    have hexact := (deletionExact_iff hs hcall).mpr hquiet.2
    refine ⟨?_, ?_, ?_⟩
    · intro candidate hcandidate hmem
      rw [hdeleted] at hmem
      rcases List.mem_cons.mp hmem with heq | hold
      · exact ((hexact.candidates candidate).mp hcandidate).2 heq
      · exact hcandidates candidate hcandidate hold
    · intro id' hid'
      rw [hdeleted] at hid'
      rcases List.mem_cons.mp hid' with rfl | hold
      · rw [hsame]
        exact hquiet.1
      · exact hpoint id' hold
    · intro id' hid' row hrow hrowId
      rw [hdeleted] at hid'
      by_cases hself : row.id = id
      · rw [hmarked row hrow hself]
        rfl
      · have hne : id' ≠ id := fun heq => hself (hrowId.trans heq)
        have hold := (List.mem_cons.mp hid').resolve_left hne
        exact hsilent.rules id' hold row (hother row hrow hself) hrowId

theorem Moves.claimed_mem {owner : List Char} {now : Instant}
    (h : Moves text s (.claim owner now) t) : ∀ candidate ∈ t.claimed,
      ∃ stored ∈ s.store.candidates, stored.payload = candidate.payload := by
  intro candidate hcandidate
  cases h with
  | claim owner now =>
    obtain ⟨row, hrow, rfl⟩ := List.mem_map.mp hcandidate
    exact ⟨row, (List.mem_filter.mp (OrderedPage.mem_of_mem_first hrow)).1, rfl⟩
  | abandoned e call point => rcases call with h | h <;> cases h

/-- When every deletion is quiet the deleted rules stay silent, in whatever order the calls come;
and a deletion records exactly the attempts that it owes if and only if the episodes and the
candidates of the rule correspond. -/
theorem deletedRules_silent (h : (alertSystem text).Run DeletesQuietly start s) :
    (∀ candidate ∈ s.store.candidates, candidate.payload.ruleId ∉ s.deleted) ∧
      (∀ owner now t, (alertSystem text).step s (.claim owner now) = some t →
        ∀ candidate ∈ t.claimed, candidate.payload.ruleId ∉ s.deleted) ∧
      ∀ id deletedAt attemptId t,
        (alertSystem text).step s (.deleteRule id deletedAt attemptId) = some t →
          (AlertStore.DeletionExact s.store t.store id deletedAt ↔ s.store.OneEach id) := by
  have hkept : s.Sound ∧ s.Silenced :=
    h.invariant (I := fun s => s.Sound ∧ s.Silenced)
      (fun _ _ _ hs hquiet hstep =>
        ⟨hs.1.step hstep, hs.2.moves hs.1 hquiet (step_moves hstep)⟩)
      ⟨.start, .start⟩
  refine ⟨hkept.2.candidates, ?_, ?_⟩
  · intro owner now t hstep candidate hcandidate
    have hmoves : Moves text s (.claim owner now) t := step_moves hstep
    obtain ⟨stored, hstored, hpayload⟩ := hmoves.claimed_mem candidate hcandidate
    exact hpayload ▸ hkept.2.candidates stored hstored
  · intro id deletedAt attemptId t hstep
    obtain ⟨store, hcall, rfl⟩ := Option.map_eq_some_iff.mp hstep
    exact deletionExact_iff hkept.1 hcall

section Runs

/-- A rule is deleted while the notification of its alert is pending. -/
theorem deletedRules_silent_run : ∃ s, (alertSystem decimalText).Run DeletesQuietly start s ∧
    s.deleted = [0] ∧ s.opened = [1] ∧
      ∀ candidate ∈ s.store.candidates, candidate.payload.ruleId ∉ s.deleted := by
  obtain ⟨s, hrun, hread⟩ := Machine.exists_run_of_execUnder (M := alertSystem decimalText)
    (C := DeletesQuietly) (s := start) (fun s => decide (s.deleted = [0] ∧ s.opened = [1]))
    (openingRun ++ [.deleteRule 0 700 fun id => id + 10]) (by decide +kernel)
  obtain ⟨hdeleted, hopened⟩ := of_decide_eq_true hread
  exact ⟨s, hrun, hdeleted, hopened, (deletedRules_silent hrun).1⟩

/-- A pass that has read the rule queues a notification after the deletion; and a deletion records
a cancelled attempt for an alert whose notification has been delivered. -/
theorem deletedRules_noisy :
    (∃ s, (alertSystem decimalText).Reaches start s ∧
      ∃ candidate ∈ s.store.candidates.rows, candidate.payload.ruleId ∈ s.deleted) ∧
    ∃ s, (alertSystem decimalText).Reaches start s ∧ s.store.candidates.rows = [] ∧
      ∃ t, (alertSystem decimalText).step s (.deleteRule 0 700 fun id => id + 10) = some t ∧
        ¬ AlertStore.DeletionExact s.store t.store 0 700 := by
  constructor
  · obtain ⟨s, hrun, hread⟩ := Machine.exists_reaches_of_exec (M := alertSystem decimalText)
      (s := start) (fun s => decide (∃ candidate ∈ s.store.candidates.rows,
        candidate.payload.ruleId ∈ s.deleted))
      [.saveRule loadRule, .tick [busySample], .listRules true, .deleteRule 0 700 (· + 10),
        .persist 1 2 true, .enqueue true]
      (by decide +kernel)
    exact ⟨s, hrun, of_decide_eq_true hread⟩
  · obtain ⟨s, hrun, hread⟩ := Machine.exists_reaches_of_exec (M := alertSystem decimalText)
      (s := start) (fun s => decide (s.store.candidates.rows = [] ∧
        ((step decimalText s (.deleteRule 0 700 fun id => id + 10)).any fun t =>
          decide (s.store.attempts.rows.length < t.store.attempts.rows.length)) = true))
      (openingRun ++ [.claim [] 600, .finish 5 ⟨"submitted".toList, none⟩ 650 true])
      (by decide +kernel)
    obtain ⟨hnone, hany⟩ := of_decide_eq_true hread
    obtain ⟨t, hstep, hmore⟩ := (Option.any_eq_true _ _).mp hany
    refine ⟨s, hrun, hnone, t, hstep, fun hexact => ?_⟩
    -- nothing is removed, and yet an attempt is added
    obtain ⟨added, happend, -, hperm⟩ := hexact.attempts
    have hlength := hperm.length_eq
    rw [AlertStore.removedCandidates, hnone] at hlength
    have hempty : added = [] := by simpa using hlength
    rw [happend, hempty, List.append_nil] at hmore
    simp at hmore

end Runs

end AlertSystem

end Supervisor
