import Supervisor.AlertUpdates

namespace Supervisor

namespace AlertSystem

variable {φ : Type} {text : AlertText φ} {s t : AlertSystem φ} {e : AlertEvent φ} {id : Uuid}

/-- The notification of a resolved episode, or else of one that was opened -/
def announces (isResolved : Bool) (candidate : DeliveryCandidate) : Bool :=
  decide (candidate.payload.state = .resolved) = isResolved

/-- Exactly one notification of a transition has been queued, and it is pending or an attempt has
been recorded for it. -/
def NotifiedOnce (s : AlertSystem φ) (isResolved : Bool) (id : Uuid) : Prop :=
  ∃ candidate, (s.queued.filter fun c => c.alertId = id && announces isResolved c) = [candidate] ∧
    (s.store.candidates.has candidate.id = true ∨ candidate.id ∈ s.attempted)

/-- What a pass promises of the transitions when it is done -/
structure Notified (text : AlertText φ) (s : AlertSystem φ) : Prop where
  opened : ∀ id ∈ s.opened, s.NotifiedOnce false id
  resolved : ∀ id ∈ s.resolved, s.NotifiedOnce true id
  /-- A condition that is still true has one episode. -/
  single : ∀ row ∈ s.store.alerts, ∀ row' ∈ s.store.alerts, row.isResolved = false →
    row'.isResolved = false → text.episodeKey row.episode = text.episodeKey row'.episode → row = row'

/-- Every transition gets to its notification: the call that queues it does not fail, no crash
falls between the two calls, and no acknowledgement is written over a resolved episode. -/
def Announces (s : AlertSystem φ) : AlertEvent φ → Prop
  | .enqueue ok => ok = true
  | .crash => s.point.inHand = none
  | .writeAlert episode => ∀ row ∈ s.store.alerts.rows, row.id = episode.id → row.isResolved = false
  | _ => True

instance (s : AlertSystem φ) (e : AlertEvent φ) : Decidable (s.Announces e) :=
  match e with
  | .enqueue ok => inferInstanceAs (Decidable (ok = true))
  | .crash => inferInstanceAs (Decidable (s.point.inHand = none))
  | .writeAlert _ => inferInstanceAs (Decidable (∀ row ∈ s.store.alerts.rows, _ → _))
  | .tick _ | .listRules _ | .persist .. | .listAlerts _ | .resolve .. | .claim .. | .finish ..
  | .saveRule _ | .deleteRule .. | .readAlert .. | .maintain _ => .isTrue trivial

/-- The notifications, the one that is about to be queued included -/
def announced (s : AlertSystem φ) : List DeliveryCandidate := s.point.inHand.toList ++ s.queued

/-- What keeps the promises between the calls -/
structure Announcing (text : AlertText φ) (s : AlertSystem φ) : Prop where
  opened : s.opened = (s.announced.filter (announces false)).map DeliveryCandidate.alertId
  resolved : s.resolved = (s.announced.filter (announces true)).map DeliveryCandidate.alertId
  opened_nodup : s.opened.Nodup
  resolved_nodup : s.resolved.Nodup
  turns : ∀ turn ∈ s.point.turns, turn.1.id ∉ s.resolved
  closed : ∀ id ∈ s.resolved, ∀ row ∈ s.store.alerts, row.id = id → row.isResolved = true
  keys : ∀ row ∈ s.store.alerts, row.isResolved = false →
    ⟨text.episodeKey row.episode, row.id⟩ ∈ s.store.episodeKeys
  settled : ∀ candidate ∈ s.queued,
    s.store.candidates.has candidate.id = true ∨ candidate.id ∈ s.attempted

theorem Announcing.start : (start : AlertSystem φ).Announcing text where
  opened := rfl
  resolved := rfl
  opened_nodup := List.nodup_nil
  resolved_nodup := List.nodup_nil
  turns _ h := absurd h List.not_mem_nil
  closed _ h := absurd h List.not_mem_nil
  keys _ h := absurd h KeyedTable.not_mem_empty
  settled _ h := absurd h List.not_mem_nil

theorem announced_of_none (hs : s.point.inHand = none) (ht : t.point.inHand = none)
    (hqueued : t.queued = s.queued) : t.announced = s.announced := by
  rw [announced, announced, hs, ht, hqueued]

theorem announced_of_queued {candidate : DeliveryCandidate} (hs : s.point.inHand = some candidate)
    (ht : t.point.inHand = none) (hqueued : t.queued = candidate :: s.queued) :
    t.announced = s.announced := by
  rw [announced, announced, hs, ht, hqueued]
  rfl

theorem announced_of_taken {candidate : DeliveryCandidate} (hs : s.point.inHand = none)
    (ht : t.point.inHand = some candidate) (hqueued : t.queued = s.queued) :
    t.announced = candidate :: s.announced := by
  rw [announced, announced, hs, ht, hqueued]
  rfl

/-- What has been announced, and what it is about -/
theorem Moves.announced_cases (h : Moves text s e t) (hguard : s.Announces e) :
    (t.announced = s.announced ∧ t.opened = s.opened ∧ t.resolved = s.resolved) ∨
      (∃ candidate, t.announced = candidate :: s.announced ∧
        announces false candidate = true ∧ candidate.alertId ∉ s.drawn ∧
          t.opened = candidate.alertId :: s.opened ∧ t.resolved = s.resolved) ∨
      ∃ candidate turn, s.point.turns = turn :: t.point.turns ∧
        t.announced = candidate :: s.announced ∧ announces true candidate = true ∧
          candidate.alertId = turn.1.id ∧ t.opened = s.opened ∧
            t.resolved = turn.1.id :: s.resolved := by
  cases h with
  | tick samples point => exact .inl ⟨announced_of_none (by rw [point]; rfl) rfl rfl, rfl, rfl⟩
  | listRules samples point =>
    exact .inl ⟨announced_of_none (by rw [point]; rfl) (by simp) rfl, rfl, rfl⟩
  | opened samples rules turn rest id candidateId store point fresh created =>
    refine .inr (.inl ⟨notification candidateId (newEpisode id turn.1 turn.2) turn.1.occurredAt,
      ?_, rfl, fresh.1, rfl, rfl⟩)
    exact announced_of_taken (by rw [point]; rfl) rfl rfl
  | notOpened samples rules turn rest id candidateId ok point =>
    exact .inl ⟨announced_of_none (by rw [point]; rfl) (by simp) rfl, rfl, rfl⟩
  | announced samples rules candidate rest point =>
    exact .inl ⟨announced_of_queued (by rw [point]; rfl) (by simp) rfl, rfl, rfl⟩
  | announcedResolved candidate rest point =>
    exact .inl ⟨announced_of_queued (by rw [point]; rfl) (by simp) rfl, rfl, rfl⟩
  | notAnnounced samples rules candidate rest point => exact absurd hguard Bool.false_ne_true
  | notAnnouncedResolved candidate rest point => exact absurd hguard Bool.false_ne_true
  | listAlerts samples rules point =>
    exact .inl ⟨announced_of_none (by rw [point]; rfl) (by simp) rfl, rfl, rfl⟩
  | abandoned e call point => exact .inl ⟨announced_of_none point rfl rfl, rfl, rfl⟩
  | resolved turn rest candidateId point fresh stored =>
    refine .inr (.inr ⟨notification candidateId (turn.1.resolve turn.2) turn.2, turn, ?_, ?_, rfl,
      rfl, rfl, rfl⟩)
    · rw [point]
      rfl
    · exact announced_of_taken (by rw [point]; rfl) rfl rfl
  | notResolved turn rest candidateId ok point missing =>
    exact .inl ⟨announced_of_none (by rw [point]; rfl) (by simp) rfl, rfl, rfl⟩
  | crash => exact .inl ⟨announced_of_none hguard rfl rfl, rfl, rfl⟩
  | _ => exact .inl ⟨rfl, rfl, rfl⟩

/-- The key of an unresolved alert stays with it. -/
theorem Moves.keys (hs : s.Sound) (ha : s.Announcing text) (hguard : s.Announces e)
    (h : Moves text s e t) : ∀ row ∈ t.store.alerts, row.isResolved = false →
      ⟨text.episodeKey row.episode, row.id⟩ ∈ t.store.episodeKeys := by
  intro row hrow hopen
  cases h with
  | opened samples rules turn rest id candidateId store point fresh created =>
    obtain ⟨-, -, -, -, hrows, hkeys⟩ := AlertStore.upsertAlertEpisode_created created
    rcases (hrows row).mp hrow with hold | rfl
    · exact (hkeys _).mpr (.inl (ha.keys row hold hopen))
    · exact (hkeys _).mpr (.inr rfl)
  | announced samples rules candidate rest point =>
    rw [AlertStore.enqueue_alerts] at hrow
    rw [AlertStore.enqueue_episodeKeys]
    exact ha.keys row hrow hopen
  | announcedResolved candidate rest point =>
    rw [AlertStore.enqueue_alerts] at hrow
    rw [AlertStore.enqueue_episodeKeys]
    exact ha.keys row hrow hopen
  | resolved turn rest candidateId point fresh stored =>
    rcases AlertStore.mem_setPayload.mp hrow with ⟨old, -, -, rfl⟩ | ⟨hold, hne⟩
    · exact Bool.noConfusion hopen
    · exact KeyedTable.mem_filter.mpr ⟨ha.keys row hold hopen, decide_eq_true hne⟩
  | finished candidate rest attemptId submission at_ store claimed call =>
    obtain ⟨-, halerts, hkeys, -⟩ := AlertStore.finish_ok call
    rw [hkeys]
    exact ha.keys row (halerts ▸ hrow) hopen
  | deleteRule id deletedAt attemptId store call =>
    obtain ⟨-, -, halerts, hkeys, -⟩ := AlertStore.deleteAlertRule_ok call
    rw [hkeys]
    exact ha.keys row (halerts ▸ hrow) hopen
  | writeAlert episode call =>
    rcases AlertStore.mem_setPayload.mp hrow with ⟨old, hold, hid, rfl⟩ | ⟨hold, -⟩
    · -- the write finds the alert unresolved, under the key of the same subject
      have hkey := ha.keys old hold (hguard old hold hid)
      have hsubject := (hs.acknowledging episode call).1.subject old hold hid
      have hsame : text.episodeKey old.episode = text.episodeKey episode := by
        obtain ⟨hrule, hrest⟩ := Prod.mk.inj hsubject
        obtain ⟨hsource, hcause⟩ := Prod.mk.inj hrest
        rw [AlertText.episodeKey, AlertText.episodeKey, hrule, hsource, hcause]
      rw [hsame, hid] at hkey
      exact hkey
    · exact ha.keys row hold hopen
  | maintain now =>
    have hold : row ∈ s.store.alerts := by
      rw [AlertStore.maintain_alerts] at hrow
      exact AlertStore.retain_subset AlertStore.ranksKey_alert hrow
    exact AlertStore.maintain_keeps_key (ha.keys row hold hopen) hold rfl hopen
  | _ => exact ha.keys row hrow hopen

/-- A queued notification stays pending until an attempt is recorded for it. -/
theorem Moves.settled (hs : s.Sound) (ha : s.Announcing text) (h : Moves text s e t) :
    ∀ candidate ∈ t.queued,
      t.store.candidates.has candidate.id = true ∨ candidate.id ∈ t.attempted := by
  intro candidate hcandidate
  have hqueue {queued : DeliveryCandidate} (hhand : s.point.inHand = some queued)
      (hmem : candidate ∈ queued :: s.queued) :
      (s.store.enqueueDeliveryCandidate queued).candidates.has candidate.id = true ∨
        candidate.id ∈ s.attempted := by
    have hall := AlertStore.enqueue_candidates (hs.inHand queued hhand).2.2
    rcases List.mem_cons.mp hmem with rfl | hold
    · exact .inl (KeyedTable.has_iff.mpr ⟨candidate, (hall candidate).mpr (.inr rfl), rfl⟩)
    · refine (ha.settled candidate hold).imp_left fun hhas => ?_
      obtain ⟨c, hc, hid⟩ := KeyedTable.has_iff.mp hhas
      exact KeyedTable.has_iff.mpr ⟨c, (hall c).mpr (.inl hc), hid⟩
  cases h with
  | opened samples rules turn rest id candidateId store point fresh created =>
    rw [(AlertStore.upsertAlertEpisode_created created).2.2.1]
    exact ha.settled candidate hcandidate
  | announced samples rules queued rest point => exact hqueue (by rw [point]; rfl) hcandidate
  | announcedResolved queued rest point => exact hqueue (by rw [point]; rfl) hcandidate
  | claim owner now =>
    rw [AlertStore.has_claim_candidates]
    exact ha.settled candidate hcandidate
  | finished finished rest attemptId submission at_ store claimed call =>
    by_cases hid : candidate.id = finished.id
    · exact .inr (hid ▸ List.mem_cons_self)
    · rw [(AlertStore.finish_ok call).2.2.2.2 candidate.id hid]
      exact (ha.settled candidate hcandidate).imp_right (List.mem_cons_of_mem _)
  | deleteRule id deletedAt attemptId store call =>
    rcases ha.settled candidate hcandidate with hhas | hattempted
    · by_cases hkept : store.candidates.has candidate.id = true
      · exact .inl hkept
      · right
        obtain ⟨c, hc, hid⟩ := KeyedTable.has_iff.mp hhas
        apply List.mem_append_left
        exact List.mem_map.mpr ⟨c, List.mem_filter.mpr ⟨hc, by simpa [hid] using hkept⟩, hid⟩
    · exact .inr (List.mem_append_right _ hattempted)
  | _ => exact ha.settled candidate hcandidate

theorem Announcing.moves (hs : s.Sound) (ha : s.Announcing text) (hguard : s.Announces e)
    (h : Moves text s e t) : t.Announcing text := by
  have hkeys := h.keys hs ha hguard
  have hsettled := h.settled hs ha
  have hclosed := h.resolved_kept hs ha.closed fun episode hevent row hrow hid => by
    subst hevent
    exact hguard row hrow hid
  -- a turn of a fresh listing is about an unresolved alert
  have hlisted {rules : List AlertRule} {samples : List (MetricSample φ)}
      (turn : AlertEpisode × Instant)
      (hturn : turn ∈ text.clearings rules samples s.store.readEpisodes) :
      turn.1.id ∉ s.resolved := by
    intro hmem
    obtain ⟨⟨row, hrow, hepisode, hopen⟩, -⟩ := mem_clearings hturn
    have hid : row.id = turn.1.id := congrArg AlertEpisode.id hepisode
    rw [ha.closed turn.1.id hmem row hrow hid] at hopen
    exact Bool.noConfusion hopen
  have hturns (hresolved : t.resolved = s.resolved) : ∀ turn ∈ t.point.turns,
      turn.1.id ∉ t.resolved := by
    intro turn hturn
    rw [hresolved]
    rcases h.turns_mem with hsub | ⟨samples, rules, -, hfresh⟩
    · exact ha.turns turn (hsub.subset hturn)
    · exact hlisted turn (hfresh ▸ hturn)
  rcases h.announced_cases hguard with ⟨hannounced, hopened, hresolved⟩ |
    ⟨candidate, hannounced, habout, hnew, hopened, hresolved⟩ |
    ⟨candidate, turn, hturn, hannounced, habout, hid, hopened, hresolved⟩
  · exact
      { opened := by rw [hannounced, hopened]; exact ha.opened
        resolved := by rw [hannounced, hresolved]; exact ha.resolved
        opened_nodup := hopened ▸ ha.opened_nodup
        resolved_nodup := hresolved ▸ ha.resolved_nodup
        turns := hturns hresolved
        closed := hclosed
        keys := hkeys
        settled := hsettled }
  · have hother : announces true candidate = false := by
      unfold announces at habout ⊢
      simpa using habout
    exact
      { opened := by
          rw [hannounced, hopened, List.filter_cons_of_pos habout, List.map_cons, ← ha.opened]
        resolved := by
          rw [hannounced, hresolved, List.filter_cons_of_neg (by simp [hother])]
          exact ha.resolved
        opened_nodup := by
          rw [hopened]
          exact List.nodup_cons.mpr ⟨fun hmem => hnew (hs.opened _ hmem), ha.opened_nodup⟩
        resolved_nodup := hresolved ▸ ha.resolved_nodup
        turns := hturns hresolved
        closed := hclosed
        keys := hkeys
        settled := hsettled }
  · have hother : announces false candidate = false := by
      unfold announces at habout ⊢
      simpa using habout
    exact
      { opened := by
          rw [hannounced, hopened, List.filter_cons_of_neg (by simp [hother])]
          exact ha.opened
        resolved := by
          rw [hannounced, hresolved, List.filter_cons_of_pos habout, List.map_cons, ← ha.resolved,
            hid]
        opened_nodup := hopened ▸ ha.opened_nodup
        resolved_nodup := by
          rw [hresolved]
          exact List.nodup_cons.mpr
            ⟨ha.turns turn (hturn ▸ List.mem_cons_self), ha.resolved_nodup⟩
        turns := by
          -- the other turns are about other alerts
          intro turn' hturn'
          have hnodup := hs.turns_nodup
          rw [hturn, List.map_cons, List.nodup_cons] at hnodup
          rw [hresolved, List.mem_cons, not_or]
          refine ⟨fun heq => hnodup.1 (heq ▸ List.mem_map_of_mem hturn'), ?_⟩
          exact ha.turns turn' (hturn ▸ List.mem_cons_of_mem turn hturn')
        closed := hclosed
        keys := hkeys
        settled := hsettled }

theorem notifiedOnce_of_mem {isResolved : Bool} {ids : List Uuid}
    (hids : ids = (s.queued.filter (announces isResolved)).map DeliveryCandidate.alertId)
    (hnodup : ids.Nodup)
    (hsettled : ∀ candidate ∈ s.queued,
      s.store.candidates.has candidate.id = true ∨ candidate.id ∈ s.attempted)
    (hid : id ∈ ids) : s.NotifiedOnce isResolved id := by
  rw [hids] at hid hnodup
  obtain ⟨candidate, hcandidate, rfl⟩ := List.mem_map.mp hid
  have hone := KeyedRows.Unique.filter_key hnodup hcandidate
  rw [List.filter_filter] at hone
  exact ⟨candidate, hone, hsettled candidate (List.mem_filter.mp hcandidate).1⟩

theorem Announcing.notified (ha : s.Announcing text) (hhand : s.point.inHand = none) :
    s.Notified text where
  opened id hid := by
    have hopened := ha.opened
    rw [announced, hhand] at hopened
    exact notifiedOnce_of_mem hopened ha.opened_nodup ha.settled hid
  resolved id hid := by
    have hresolved := ha.resolved
    rw [announced, hhand] at hresolved
    exact notifiedOnce_of_mem hresolved ha.resolved_nodup ha.settled hid
  single row hrow row' hrow' hopen hopen' hkey := by
    have hkeys := ha.keys row hrow hopen
    have hkeys' := ha.keys row' hrow' hopen'
    rw [← hkey] at hkeys'
    have hsame := KeyedTable.eq_of_key hkeys hkeys' rfl
    exact KeyedTable.eq_of_key hrow hrow' (congrArg EpisodeKey.alertId hsame)

/-- When every transition gets to its notification each one has exactly one, whenever no pass is
about to queue one. -/
theorem transitions_notified (h : (alertSystem text).Run Announces start s)
    (hhand : s.point.inHand = none) : s.Notified text := by
  have hkept : s.Sound ∧ s.Announcing text :=
    h.invariant (I := fun s => s.Sound ∧ s.Announcing text)
      (fun _ _ _ hs hguard hstep =>
        ⟨hs.1.step hstep, hs.2.moves hs.1 hguard (step_moves hstep)⟩)
      ⟨.start, .start⟩
  exact hkept.2.notified hhand

section Runs

/-- An alert is opened, delivered and resolved. -/
theorem transitions_notified_run : ∃ s, (alertSystem decimalText).Run Announces start s ∧
    s.opened = [1] ∧ s.resolved = [1] ∧ s.point.inHand = none ∧ s.Notified decimalText := by
  obtain ⟨s, hrun, hread⟩ := Machine.exists_run_of_execUnder (M := alertSystem decimalText)
    (C := Announces) (s := start)
    (fun s => decide (s.opened = [1] ∧ s.resolved = [1] ∧ s.point.inHand = none))
    (openingRun ++ [.claim [] 600, .finish 5 ⟨"submitted".toList, none⟩ 650 true] ++ clearingRun ++
      [.resolve 3 true, .enqueue true])
    (by decide +kernel)
  obtain ⟨hopened, hresolved, hhand⟩ := of_decide_eq_true hread
  exact ⟨s, hrun, hopened, hresolved, hhand, transitions_notified hrun hhand⟩

/-- The call that queues the notification fails once; the next pass finds the alert open and does
not queue it again. -/
theorem opening_not_notified : ∃ s, (alertSystem decimalText).Reaches start s ∧
    s.point.inHand = none ∧ ¬ s.Notified decimalText := by
  obtain ⟨s, hrun, hread⟩ := Machine.exists_reaches_of_exec (M := alertSystem decimalText)
    (s := start)
    (fun s => decide (s.opened = [1] ∧ s.queued = [] ∧ s.point.inHand = none))
    [.saveRule loadRule, .tick [busySample], .listRules true, .persist 1 2 true, .enqueue false,
      .listAlerts true, .tick [busySample], .listRules true, .persist 3 4 true, .listAlerts true]
    (by decide +kernel)
  obtain ⟨hopened, hqueued, hhand⟩ := of_decide_eq_true hread
  refine ⟨s, hrun, hhand, fun h => ?_⟩
  obtain ⟨candidate, hone, -⟩ := h.opened 1 (hopened ▸ List.mem_singleton_self 1)
  rw [hqueued] at hone
  cases hone

end Runs

end AlertSystem

end Supervisor
