import Supervisor.AlertRetention
import Supervisor.AlertSteps

namespace Supervisor

namespace AlertSystem

variable {φ : Type} {text : AlertText φ} {s t : AlertSystem φ} {e : AlertEvent φ}
  {episode : AlertEpisode}

/-- An episode that is held outside of the store: no other alert has its id. -/
structure Refers (s : AlertSystem φ) (episode : AlertEpisode) : Prop where
  drawn : episode.id ∈ s.drawn
  subject : ∀ row ∈ s.store.alerts, row.id = episode.id → row.episode.subject = episode.subject

/-- A candidate is about the episode that its payload shows. -/
structure About (s : AlertSystem φ) (candidate : DeliveryCandidate) : Prop where
  alertId : candidate.alertId = candidate.payload.id
  refers : s.Refers candidate.payload

/-- What holds in every state that the system reaches -/
structure Sound (s : AlertSystem φ) : Prop where
  rows : ∀ row ∈ s.store.alerts, row.id ∈ s.drawn
  candidates : ∀ candidate ∈ s.store.candidates, candidate.id ∈ s.drawn ∧ s.About candidate
  inHand : ∀ candidate ∈ s.point.inHand, candidate.id ∈ s.drawn ∧ s.About candidate ∧
    ∀ candidate' ∈ s.store.candidates, candidate'.id ≠ candidate.id
  turns : ∀ turn ∈ s.point.turns, s.Refers turn.1
  turns_nodup : (s.point.turns.map fun turn => turn.1.id).Nodup
  acknowledging : ∀ episode ∈ s.acknowledging, s.Refers episode ∧
    episode.state = .acknowledgedActive ∧ episode.acknowledgedAt.isSome = true
  opened : ∀ id ∈ s.opened, id ∈ s.drawn
  resolved : ∀ id ∈ s.resolved, id ∈ s.drawn
  acknowledged : ∀ id ∈ s.acknowledged, id ∈ s.drawn

theorem Sound.start : (start : AlertSystem φ).Sound where
  rows _ h := absurd h KeyedTable.not_mem_empty
  candidates _ h := absurd h KeyedTable.not_mem_empty
  inHand _ h := absurd h (by simp [AlertSystem.start, PassPoint.inHand])
  turns _ h := absurd h List.not_mem_nil
  turns_nodup := List.nodup_nil
  acknowledging _ h := absurd h List.not_mem_nil
  opened _ h := absurd h List.not_mem_nil
  resolved _ h := absurd h List.not_mem_nil
  acknowledged _ h := absurd h List.not_mem_nil

/-- The alerts before and after a step: a row has been there under its id, or its id is new. -/
structure Keeps (s t : AlertSystem φ) : Prop where
  drawn : ∀ id ∈ s.drawn, id ∈ t.drawn
  rows : ∀ row' ∈ t.store.alerts, (∃ row ∈ s.store.alerts, row.id = row'.id ∧
    row.episode.subject = row'.episode.subject) ∨ row'.id ∉ s.drawn ∧ row'.id ∈ t.drawn

theorem Keeps.of_rows (hdrawn : ∀ id ∈ s.drawn, id ∈ t.drawn)
    (hrows : ∀ row ∈ t.store.alerts, row ∈ s.store.alerts) : s.Keeps t where
  drawn := hdrawn
  rows row hrow := .inl ⟨row, hrows row hrow, rfl, rfl⟩

theorem Keeps.of_alerts (hdrawn : ∀ id ∈ s.drawn, id ∈ t.drawn)
    (halerts : t.store.alerts = s.store.alerts) : s.Keeps t :=
  .of_rows hdrawn fun _ hrow => halerts ▸ hrow

theorem Keeps.of_setPayload (hdrawn : ∀ id ∈ s.drawn, id ∈ t.drawn) (hrefers : s.Refers episode)
    (halerts : t.store.alerts = (s.store.setPayload episode).alerts) : s.Keeps t where
  drawn := hdrawn
  rows row' hrow' := by
    rw [halerts] at hrow'
    rcases AlertStore.mem_setPayload.mp hrow' with ⟨row, hrow, hid, rfl⟩ | ⟨hrow, -⟩
    · exact .inl ⟨row, hrow, hid, hrefers.subject row hrow hid⟩
    · exact .inl ⟨row', hrow, rfl, rfl⟩

theorem Refers.keeps (h : s.Refers episode) (hkeeps : s.Keeps t) : t.Refers episode where
  drawn := hkeeps.drawn _ h.drawn
  subject row' hrow' hid := by
    rcases hkeeps.rows row' hrow' with ⟨row, hrow, hrid, hsubject⟩ | ⟨hnew, -⟩
    · rw [← hsubject]
      exact h.subject row hrow (hrid.trans hid)
    · exact absurd (hid ▸ h.drawn) hnew

theorem About.keeps {candidate : DeliveryCandidate} (h : s.About candidate)
    (hkeeps : s.Keeps t) : t.About candidate :=
  ⟨h.alertId, h.refers.keeps hkeeps⟩

theorem Refers.resolve (h : s.Refers episode) (at_ : Instant) : s.Refers (episode.resolve at_) :=
  ⟨h.drawn, h.subject⟩

theorem Refers.of_row (hs : s.Sound) {row : AlertRow} (hrow : row ∈ s.store.alerts)
    (hid : episode.id = row.id) (hsubject : episode.subject = row.episode.subject) :
    s.Refers episode where
  drawn := hid ▸ hs.rows row hrow
  subject row' hrow' hid' := by
    rw [KeyedTable.eq_of_key hrow' hrow (hid'.trans hid), hsubject]

theorem Moves.keeps (hs : s.Sound) (h : Moves text s e t) : s.Keeps t := by
  cases h with
  | opened samples rules turn rest id candidateId store point fresh created =>
    obtain ⟨-, -, -, -, hrows, -⟩ := AlertStore.upsertAlertEpisode_created created
    refine ⟨fun _ hid => List.mem_cons_of_mem _ (List.mem_cons_of_mem _ hid), ?_⟩
    intro row hrow
    rcases (hrows row).mp hrow with hold | rfl
    · exact .inl ⟨row, hold, rfl, rfl⟩
    · exact .inr ⟨fresh.1, List.mem_cons_self⟩
  | notOpened samples rules turn rest id candidateId ok point =>
    exact .of_alerts (fun _ hid => List.mem_cons_of_mem _ (List.mem_cons_of_mem _ hid)) rfl
  | announced samples rules candidate rest point =>
    exact .of_alerts (fun _ hid => hid) (AlertStore.enqueue_alerts _ _)
  | announcedResolved candidate rest point =>
    exact .of_alerts (fun _ hid => hid) (AlertStore.enqueue_alerts _ _)
  | resolved turn rest candidateId point fresh stored =>
    have hrefers := hs.turns turn (by rw [point]; exact List.mem_cons_self)
    exact .of_setPayload (fun _ hid => List.mem_cons_of_mem _ hid) (hrefers.resolve turn.2) rfl
  | notResolved turn rest candidateId ok point missing =>
    exact .of_alerts (fun _ hid => List.mem_cons_of_mem _ hid) rfl
  | finished candidate rest attemptId submission at_ store claimed call =>
    exact .of_alerts (fun _ hid => hid) (AlertStore.finish_ok call).2.1
  | deleteRule id deletedAt attemptId store call =>
    exact .of_alerts (fun _ hid => hid) (AlertStore.deleteAlertRule_ok call).2.2.1
  | writeAlert episode call =>
    exact .of_setPayload (fun _ hid => hid) (hs.acknowledging episode call).1 rfl
  | maintain now =>
    refine .of_rows (fun _ hid => hid) fun row hrow => ?_
    rw [AlertStore.maintain_alerts] at hrow
    exact AlertStore.retain_subset AlertStore.ranksKey_alert hrow
  | _ => exact .of_alerts (fun _ hid => hid) rfl

/-- Where the candidates of a step come from -/
theorem Moves.candidate_mem (hs : s.Sound) (h : Moves text s e t) :
    ∀ candidate ∈ t.store.candidates, (∃ candidate' ∈ s.store.candidates,
      candidate'.id = candidate.id ∧ candidate'.alertId = candidate.alertId ∧
        candidate'.payload = candidate.payload) ∨
      s.point.inHand = some candidate ∧ t.point.inHand = none := by
  intro candidate hcandidate
  have hqueued {queued : DeliveryCandidate} (hhand : s.point.inHand = some queued)
      (hnone : t.point.inHand = none)
      (hmem : candidate ∈ (s.store.enqueueDeliveryCandidate queued).candidates) :
      (∃ candidate' ∈ s.store.candidates, candidate'.id = candidate.id ∧
        candidate'.alertId = candidate.alertId ∧ candidate'.payload = candidate.payload) ∨
        s.point.inHand = some candidate ∧ t.point.inHand = none := by
    rcases (AlertStore.enqueue_candidates (hs.inHand queued hhand).2.2 candidate).mp hmem with
      hold | rfl
    · exact .inl ⟨candidate, hold, rfl, rfl, rfl⟩
    · exact .inr ⟨hhand, hnone⟩
  cases h with
  | opened samples rules turn rest id candidateId store point fresh created =>
    have hsame := (AlertStore.upsertAlertEpisode_created created).2.2.1
    exact .inl ⟨candidate, hsame ▸ hcandidate, rfl, rfl, rfl⟩
  | announced samples rules queued rest point =>
    exact hqueued (by rw [point]; rfl) (PassPoint.inHand_nextOpening _ _ _) hcandidate
  | announcedResolved queued rest point =>
    exact hqueued (by rw [point]; rfl) (PassPoint.inHand_nextResolving _) hcandidate
  | claim owner now => exact .inl (AlertStore.claim_candidates hcandidate)
  | finished queued rest attemptId submission at_ store claimed call =>
    exact .inl ((AlertStore.finish_ok call).2.2.2.1 candidate hcandidate)
  | deleteRule id deletedAt attemptId store call =>
    have hkept := (AlertStore.deleteAlertRule_ok call).2.2.2.2.2.2
    rw [KeyedTable.mem_iff, hkept] at hcandidate
    exact .inl ⟨candidate, (List.mem_filter.mp hcandidate).1, rfl, rfl, rfl⟩
  | _ => exact .inl ⟨candidate, hcandidate, rfl, rfl, rfl⟩

/-- Where the candidate in hand comes from -/
theorem Moves.inHand_mem (hs : s.Sound) (h : Moves text s e t) :
    ∀ candidate ∈ t.point.inHand, s.point.inHand = some candidate ∨
      candidate.id ∉ s.drawn ∧ candidate.id ∈ t.drawn ∧ t.About candidate := by
  intro candidate hcandidate
  have hkeeps := h.keeps hs
  cases h with
  | tick samples point => exact absurd hcandidate (by simp [PassPoint.inHand])
  | listRules samples point => exact absurd hcandidate (by simp)
  | opened samples rules turn rest id candidateId store point fresh created =>
    cases hcandidate
    refine .inr ⟨fresh.2.1, List.mem_cons_of_mem _ List.mem_cons_self, rfl,
      List.mem_cons_self, ?_⟩
    intro row hrow hid
    obtain ⟨-, -, -, hnew, hrows, -⟩ := AlertStore.upsertAlertEpisode_created created
    rcases (hrows row).mp hrow with hold | rfl
    · exact absurd hid (hnew row hold)
    · rfl
  | notOpened samples rules turn rest id candidateId ok point =>
    exact absurd hcandidate (by simp)
  | announced samples rules queued rest point => exact absurd hcandidate (by simp)
  | announcedResolved queued rest point => exact absurd hcandidate (by simp)
  | notAnnounced samples rules queued rest point => exact absurd hcandidate (by simp)
  | notAnnouncedResolved queued rest point => exact absurd hcandidate (by simp)
  | listAlerts samples rules point => exact absurd hcandidate (by simp)
  | abandoned e call point => exact absurd hcandidate (by simp [PassPoint.inHand])
  | resolved turn rest candidateId point fresh stored =>
    cases hcandidate
    have hrefers := (hs.turns turn (by rw [point]; exact List.mem_cons_self)).resolve turn.2
    exact .inr ⟨fresh, List.mem_cons_self, rfl, hrefers.keeps hkeeps⟩
  | notResolved turn rest candidateId ok point missing => exact absurd hcandidate (by simp)
  | crash => exact absurd hcandidate (by simp [PassPoint.inHand])
  | _ => exact .inl hcandidate

/-- Where the turns of the second loop come from -/
theorem Moves.turns_mem (h : Moves text s e t) :
    t.point.turns.Sublist s.point.turns ∨
      ∃ samples rules, t.store = s.store ∧
        t.point.turns = text.clearings rules samples s.store.readEpisodes := by
  cases h with
  | tick samples point => exact .inl (List.nil_sublist _)
  | listRules samples point => exact .inl (by simp)
  | opened samples rules turn rest id candidateId store point fresh created =>
    exact .inl (List.nil_sublist _)
  | notOpened samples rules turn rest id candidateId ok point => exact .inl (by simp)
  | announced samples rules queued rest point => exact .inl (by simp)
  | announcedResolved queued rest point =>
    rw [point, PassPoint.turns_nextResolving]
    exact .inl (List.Sublist.refl _)
  | notAnnounced samples rules queued rest point => exact .inl (by simp)
  | notAnnouncedResolved queued rest point =>
    rw [point, PassPoint.turns_nextResolving]
    exact .inl (List.Sublist.refl _)
  | listAlerts samples rules point =>
    exact .inr ⟨samples, rules, rfl, PassPoint.turns_nextResolving _⟩
  | abandoned e call point => exact .inl (List.nil_sublist _)
  | resolved turn rest candidateId point fresh stored =>
    exact .inl (by rw [point]; exact List.sublist_cons_self turn rest)
  | notResolved turn rest candidateId ok point missing =>
    rw [point, PassPoint.turns_nextResolving]
    exact .inl (List.sublist_cons_self turn rest)
  | crash => exact .inl (List.nil_sublist _)
  | _ => exact .inl (List.Sublist.refl _)

/-- A turn of a fresh listing is about a stored alert that is not resolved. -/
theorem mem_clearings {store : AlertStore} {rules : List AlertRule}
    {samples : List (MetricSample φ)} {turn : AlertEpisode × Instant}
    (h : turn ∈ text.clearings rules samples store.readEpisodes) :
    (∃ row ∈ store.alerts, row.episode = turn.1 ∧ row.isResolved = false) ∧
      ∃ rule ∈ rules, rule.id = turn.1.ruleId ∧ rule.enabled = true := by
  obtain ⟨listed, hlisted, hcleared⟩ := List.mem_filterMap.mp h
  obtain ⟨at_, hat, rfl⟩ := Option.map_eq_some_iff.mp hcleared
  obtain ⟨row, hrow, rfl⟩ := List.mem_map.mp hlisted
  unfold AlertText.clearedAt at hat
  split at hat
  · cases hat
  · rename_i hopen
    refine ⟨⟨row, OrderedPage.mem_of_mem_first hrow, rfl, decide_eq_false hopen⟩, ?_⟩
    obtain ⟨rule, hrule, -⟩ := Option.bind_eq_some_iff.mp hat
    have htest : (decide (rule.id = row.episode.ruleId) && rule.enabled) = true :=
      List.find?_some (p := fun r : AlertRule => decide (r.id = row.episode.ruleId) && r.enabled)
        hrule
    obtain ⟨hid, henabled⟩ := Bool.and_eq_true_iff.mp htest
    exact ⟨rule, List.mem_of_find?_eq_some hrule, of_decide_eq_true hid, henabled⟩

/-- A listing has one turn for an alert. -/
theorem nodup_clearings {store : AlertStore} {rules : List AlertRule}
    {samples : List (MetricSample φ)} :
    ((text.clearings rules samples store.readEpisodes).map fun turn => turn.1.id).Nodup := by
  have hids : (store.readEpisodes.map AlertEpisode.id).Nodup := by
    unfold AlertStore.readEpisodes AlertStore.listAlerts
    rw [List.map_map]
    have hsorted : ((OrderedPage.ordered AlertRow.rank store.alerts.rows).map AlertRow.id).Nodup :=
      (OrderedPage.perm_ordered.map AlertRow.id).nodup_iff.mpr store.alerts.unique
    exact hsorted.sublist ((List.take_sublist _ _).map _)
  refine List.Nodup.sublist ?_ hids
  unfold AlertText.clearings
  induction store.readEpisodes with
  | nil => exact List.Sublist.refl _
  | cons listed episodes ih =>
    rw [List.filterMap_cons]
    cases text.clearedAt rules samples listed with
    | none => exact ih.cons _
    | some at_ => exact ih.cons_cons _

/-- What a step records about the alerts -/
theorem Moves.records (h : Moves text s e t) :
    (t.opened = s.opened ∨ ∃ id, t.opened = id :: s.opened ∧ id ∉ s.drawn ∧ id ∈ t.drawn) ∧
      (t.resolved = s.resolved ∨
        ∃ turn ∈ s.point.turns, t.resolved = turn.1.id :: s.resolved) ∧
      (t.acknowledged = s.acknowledged ∨
        ∃ episode ∈ s.acknowledging, t.acknowledged = episode.id :: s.acknowledged) := by
  cases h with
  | opened samples rules turn rest id candidateId store point fresh created =>
    exact ⟨.inr ⟨id, rfl, fresh.1, List.mem_cons_self⟩, .inl rfl, .inl rfl⟩
  | resolved turn rest candidateId point fresh stored =>
    exact ⟨.inl rfl, .inr ⟨turn, by rw [point]; exact List.mem_cons_self, rfl⟩, .inl rfl⟩
  | writeAlert episode call => exact ⟨.inl rfl, .inl rfl, .inr ⟨episode, call, rfl⟩⟩
  | _ => exact ⟨.inl rfl, .inl rfl, .inl rfl⟩

theorem Moves.acknowledging_mem (h : Moves text s e t) :
    ∀ episode ∈ t.acknowledging, episode ∈ s.acknowledging ∨
      t.store = s.store ∧ ∃ id at_, s.store.readAlert id at_ = some episode := by
  intro episode hepisode
  cases h with
  | crash => exact absurd hepisode List.not_mem_nil
  | readAlert id at_ read call =>
    rcases List.mem_cons.mp hepisode with rfl | hold
    · exact .inr ⟨rfl, id, at_, call⟩
    · exact .inl hold
  | writeAlert written call => exact .inl (List.mem_of_mem_erase hepisode)
  | _ => exact .inl hepisode

theorem Sound.moves (hs : s.Sound) (h : Moves text s e t) : t.Sound := by
  have hkeeps := h.keeps hs
  obtain ⟨hopened, hresolved, hacknowledged⟩ := h.records
  have hrows : ∀ row ∈ t.store.alerts, row.id ∈ t.drawn := by
    intro row hrow
    rcases hkeeps.rows row hrow with ⟨row', hrow', hid, -⟩ | ⟨-, hnew⟩
    · exact hid ▸ hkeeps.drawn _ (hs.rows row' hrow')
    · exact hnew
  have hclearing {rules : List AlertRule} {samples : List (MetricSample φ)}
      {turn : AlertEpisode × Instant}
      (hturn : turn ∈ text.clearings rules samples s.store.readEpisodes) : s.Refers turn.1 := by
    obtain ⟨⟨row, hrow, hepisode, -⟩, -⟩ := mem_clearings hturn
    exact .of_row hs hrow (by rw [← hepisode]; rfl) (by rw [hepisode])
  refine ⟨hrows, ?candidates, ?inHand, ?turns, ?nodup, ?acknowledging, ?opened, ?resolved,
    ?acknowledged⟩
  case candidates =>
    intro candidate hcandidate
    rcases h.candidate_mem hs candidate hcandidate with ⟨old, hold, hid, halert, hpayload⟩ | hhand
    · obtain ⟨hdrawn, habout⟩ := hs.candidates old hold
      refine ⟨hid ▸ hkeeps.drawn _ hdrawn, ?_, ?_⟩
      · rw [← halert, ← hpayload]
        exact habout.alertId
      · rw [← hpayload]
        exact habout.refers.keeps hkeeps
    · obtain ⟨hdrawn, habout, -⟩ := hs.inHand candidate hhand.1
      exact ⟨hkeeps.drawn _ hdrawn, habout.keeps hkeeps⟩
  case inHand =>
    intro candidate hhand
    rcases h.inHand_mem hs candidate hhand with hold | ⟨hfresh, hdrawn, habout⟩
    · obtain ⟨hdrawn, habout, hother⟩ := hs.inHand candidate hold
      refine ⟨hkeeps.drawn _ hdrawn, habout.keeps hkeeps, ?_⟩
      intro candidate' hcandidate'
      rcases h.candidate_mem hs candidate' hcandidate' with ⟨old, hold', hid, -⟩ | ⟨-, hnone⟩
      · exact hid ▸ hother old hold'
      · exact absurd hhand (by simp [hnone])
    · refine ⟨hdrawn, habout, ?_⟩
      intro candidate' hcandidate' heq
      rcases h.candidate_mem hs candidate' hcandidate' with ⟨old, hold', hid, -⟩ | ⟨-, hnone⟩
      · exact hfresh (heq ▸ hid ▸ (hs.candidates old hold').1)
      · exact absurd hhand (by simp [hnone])
  case turns =>
    intro turn hturn
    rcases h.turns_mem with hsub | ⟨samples, rules, -, hlisted⟩
    · exact (hs.turns turn (hsub.subset hturn)).keeps hkeeps
    · rw [hlisted] at hturn
      exact (hclearing hturn).keeps hkeeps
  case nodup =>
    rcases h.turns_mem with hsub | ⟨samples, rules, -, hlisted⟩
    · exact List.Nodup.sublist (hsub.map _) hs.turns_nodup
    · rw [hlisted]
      exact nodup_clearings
  case acknowledging =>
    intro episode hepisode
    rcases h.acknowledging_mem episode hepisode with hold | ⟨-, id, at_, hread⟩
    · obtain ⟨hrefers, hrest⟩ := hs.acknowledging episode hold
      exact ⟨hrefers.keeps hkeeps, hrest⟩
    · obtain ⟨row, hrow, -, -, rfl⟩ := AlertStore.readAlert_some hread
      refine ⟨Refers.keeps (.of_row hs hrow ?_ ?_) hkeeps, rfl, rfl⟩
      · rfl
      · rfl
  case opened =>
    intro id hid
    rcases hopened with hsame | ⟨new, hnew, -, hdrawn⟩
    · exact hkeeps.drawn _ (hs.opened id (hsame ▸ hid))
    · rw [hnew] at hid
      rcases List.mem_cons.mp hid with rfl | hold
      · exact hdrawn
      · exact hkeeps.drawn _ (hs.opened id hold)
  case resolved =>
    intro id hid
    rcases hresolved with hsame | ⟨turn, hturn, hnew⟩
    · exact hkeeps.drawn _ (hs.resolved id (hsame ▸ hid))
    · rw [hnew] at hid
      rcases List.mem_cons.mp hid with rfl | hold
      · exact hkeeps.drawn _ (hs.turns turn hturn).drawn
      · exact hkeeps.drawn _ (hs.resolved id hold)
  case acknowledged =>
    intro id hid
    rcases hacknowledged with hsame | ⟨episode, hepisode, hnew⟩
    · exact hkeeps.drawn _ (hs.acknowledged id (hsame ▸ hid))
    · rw [hnew] at hid
      rcases List.mem_cons.mp hid with rfl | hold
      · exact hkeeps.drawn _ (hs.acknowledging episode hepisode).1.drawn
      · exact hkeeps.drawn _ (hs.acknowledged id hold)

theorem Sound.step (hs : s.Sound) (h : (alertSystem text).step s e = some t) : t.Sound :=
  hs.moves (step_moves h)

/-- A candidate shows the alert that it is filed under. -/
theorem candidates_about (h : (alertSystem text).Reaches start s) :
    ∀ candidate ∈ s.store.candidates, s.About candidate := by
  have hs : s.Sound := h.invariant (fun _ _ _ hs _ hstep => hs.step hstep) .start
  exact fun candidate hcandidate => (hs.candidates candidate hcandidate).2

theorem openingRun_about : ∃ s, (alertSystem decimalText).Reaches start s ∧
    s.store.candidates.rows ≠ [] ∧ ∀ candidate ∈ s.store.candidates, s.About candidate := by
  obtain ⟨s, hrun, hrows⟩ := Machine.exists_reaches_of_exec (M := alertSystem decimalText)
    (s := start) (fun s => s.store.candidates.rows ≠ []) openingRun (by decide +kernel)
  exact ⟨s, hrun, of_decide_eq_true hrows, candidates_about hrun⟩

end AlertSystem

end Supervisor
