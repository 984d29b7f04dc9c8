import Supervisor.AlertInvariant

namespace Supervisor

namespace AlertSystem

variable {φ : Type} {text : AlertText φ} {s t : AlertSystem φ} {e : AlertEvent φ}

/-- What the two writers of an episode promise: what is resolved stays resolved, and what is
acknowledged stays acknowledged. -/
structure UpdatesKept (s : AlertSystem φ) : Prop where
  resolved : ∀ id ∈ s.resolved, ∀ row ∈ s.store.alerts, row.id = id → row.isResolved = true
  acknowledged : ∀ id ∈ s.acknowledged, ∀ row ∈ s.store.alerts, row.id = id →
    row.episode.acknowledgedAt.isSome = true

/-- A write that is not out of date: the acknowledgement finds its episode unresolved, and the
resolving pass has seen the acknowledgement that is stored. -/
def WritesCurrent (s : AlertSystem φ) : AlertEvent φ → Prop
  | .writeAlert episode => ∀ row ∈ s.store.alerts.rows, row.id = episode.id → row.isResolved = false
  | .resolve _ true => ∀ turn ∈ s.point.turns.head?, ∀ row ∈ s.store.alerts.rows,
    row.id = turn.1.id → row.episode.acknowledgedAt.isSome = true →
      turn.1.acknowledgedAt.isSome = true
  | _ => True

instance (s : AlertSystem φ) (e : AlertEvent φ) : Decidable (s.WritesCurrent e) :=
  match e with
  | .writeAlert _ => inferInstanceAs (Decidable (∀ row ∈ s.store.alerts.rows, _ → _))
  | .resolve _ true => inferInstanceAs (Decidable (∀ turn ∈ s.point.turns.head?, _))
  | .resolve _ false | .tick _ | .listRules _ | .persist .. | .enqueue _ | .listAlerts _ | .crash
  | .claim .. | .finish .. | .saveRule _ | .deleteRule .. | .readAlert .. | .maintain _ =>
    .isTrue trivial

/-- The stored alerts show only what has been recorded. -/
structure Traced (s : AlertSystem φ) : Prop where
  resolved : ∀ row ∈ s.store.alerts, row.isResolved = true → row.id ∈ s.resolved
  acknowledged : ∀ row ∈ s.store.alerts, row.episode.acknowledgedAt.isSome = true →
    row.id ∈ s.acknowledged
  turns : ∀ turn ∈ s.point.turns, turn.1.acknowledgedAt.isSome = true →
    turn.1.id ∈ s.acknowledged

theorem UpdatesKept.start : (start : AlertSystem φ).UpdatesKept where
  resolved _ h := absurd h List.not_mem_nil
  acknowledged _ h := absurd h List.not_mem_nil

theorem Traced.start : (start : AlertSystem φ).Traced where
  resolved _ h := absurd h KeyedTable.not_mem_empty
  acknowledged _ h := absurd h KeyedTable.not_mem_empty
  turns _ h := absurd h List.not_mem_nil

/-- What a step does to the alerts: it may add a fresh one and remove some, or it is one of the two
writes. -/
inductive AlertChange (s t : AlertSystem φ) (e : AlertEvent φ) : Prop
  | quiet (resolved : t.resolved = s.resolved) (acknowledged : t.acknowledged = s.acknowledged)
    (rows : ∀ row ∈ t.store.alerts, row ∈ s.store.alerts ∨
      row.id ∉ s.drawn ∧ row.isResolved = false ∧ row.episode.acknowledgedAt = none)
    (current : s.WritesCurrent e)
  | resolved (turn : AlertEpisode × Instant) (candidateId : Uuid)
    (event : e = .resolve candidateId true) (head : s.point.turns.head? = some turn)
    (resolved : t.resolved = turn.1.id :: s.resolved) (acknowledged : t.acknowledged = s.acknowledged)
    (alerts : t.store.alerts = (s.store.setPayload (turn.1.resolve turn.2)).alerts)
  | acknowledged (episode : AlertEpisode) (event : e = .writeAlert episode)
    (pending : episode ∈ s.acknowledging) (resolved : t.resolved = s.resolved)
    (acknowledged : t.acknowledged = episode.id :: s.acknowledged)
    (alerts : t.store.alerts = (s.store.setPayload episode).alerts)

theorem Moves.alertChange (h : Moves text s e t) : AlertChange s t e := by
  cases h with
  | opened samples rules turn rest id candidateId store point fresh created =>
    refine .quiet rfl rfl (fun row hrow => ?_) trivial
    obtain ⟨-, -, -, -, hrows, -⟩ := AlertStore.upsertAlertEpisode_created created
    rcases (hrows row).mp hrow with hold | rfl
    · exact .inl hold
    · exact .inr ⟨fresh.1, rfl, rfl⟩
  | announced samples rules candidate rest point =>
    refine .quiet rfl rfl (fun row hrow => .inl ?_) trivial
    rwa [AlertStore.enqueue_alerts] at hrow
  | announcedResolved candidate rest point =>
    refine .quiet rfl rfl (fun row hrow => .inl ?_) trivial
    rwa [AlertStore.enqueue_alerts] at hrow
  | abandoned e call point =>
    rcases call with rfl | rfl
    · exact .quiet rfl rfl (fun _ hrow => .inl hrow) trivial
    · exact .quiet rfl rfl (fun _ hrow => .inl hrow) trivial
  | resolved turn rest candidateId point fresh stored =>
    exact .resolved turn candidateId rfl (by rw [point]; rfl) rfl rfl rfl
  | notResolved turn rest candidateId ok point missing =>
    refine .quiet rfl rfl (fun _ hrow => .inl hrow) ?_
    cases ok with
    | true =>
      intro turn' hhead row hrow hid
      rw [point] at hhead
      cases hhead
      exact absurd hid (missing rfl row hrow)
    | false => trivial
  | finished candidate rest attemptId submission at_ store claimed call =>
    exact .quiet rfl rfl (fun _ hrow => .inl ((AlertStore.finish_ok call).2.1 ▸ hrow)) trivial
  | deleteRule id deletedAt attemptId store call =>
    exact .quiet rfl rfl (fun _ hrow =>
      .inl ((AlertStore.deleteAlertRule_ok call).2.2.1 ▸ hrow)) trivial
  | writeAlert episode call => exact .acknowledged episode rfl call rfl rfl rfl
  | maintain now =>
    refine .quiet rfl rfl (fun row hrow => .inl ?_) trivial
    rw [AlertStore.maintain_alerts] at hrow
    exact AlertStore.retain_subset AlertStore.ranksKey_alert hrow
  | _ => exact .quiet rfl rfl (fun _ hrow => .inl hrow) trivial

/-- What is resolved stays resolved, unless an acknowledgement is written over it. -/
theorem Moves.resolved_kept (hs : s.Sound)
    (hkept : ∀ id ∈ s.resolved, ∀ row ∈ s.store.alerts, row.id = id → row.isResolved = true)
    (h : Moves text s e t)
    (hopen : ∀ episode, e = .writeAlert episode →
      ∀ row ∈ s.store.alerts, row.id = episode.id → row.isResolved = false) :
    ∀ id ∈ t.resolved, ∀ row ∈ t.store.alerts, row.id = id → row.isResolved = true := by
  intro id hid row' hrow' hrowId
  cases h.alertChange with
  | quiet hresolved hacknowledged hrows hcurrent =>
    rw [hresolved] at hid
    rcases hrows row' hrow' with hold | ⟨hnew, -⟩
    · exact hkept id hid row' hold hrowId
    · exact absurd (hrowId ▸ hs.resolved id hid) hnew
  | resolved turn candidateId hevent hhead hresolved hacknowledged halerts =>
    rw [halerts] at hrow'
    rcases AlertStore.mem_setPayload.mp hrow' with ⟨row, -, -, rfl⟩ | ⟨hrow, hne⟩
    · rfl
    · rw [hresolved] at hid
      rcases List.mem_cons.mp hid with rfl | hold
      · exact absurd hrowId hne
      · exact hkept id hold row' hrow hrowId
  | acknowledged episode hevent hpending hresolved hacknowledged halerts =>
    rw [hresolved] at hid
    rw [halerts] at hrow'
    rcases AlertStore.mem_setPayload.mp hrow' with ⟨row, hrow, hrowEpisode, rfl⟩ | ⟨hrow, -⟩
    · have hclosed := hkept id hid row hrow (hrowEpisode.trans hrowId)
      rw [hopen episode hevent row hrow hrowEpisode] at hclosed
      exact absurd hclosed Bool.false_ne_true
    · exact hkept id hid row' hrow hrowId

/-- A step keeps the promises exactly when its write is not out of date. -/
theorem UpdatesKept.moves_iff (hs : s.Sound) (htraced : s.Traced) (hkept : s.UpdatesKept)
    (h : Moves text s e t) : t.UpdatesKept ↔ s.WritesCurrent e := by
  have hresolvedKept (hcurrent : s.WritesCurrent e) :=
    h.resolved_kept hs hkept.resolved fun episode hevent => by
      subst hevent
      exact hcurrent
  cases h.alertChange with
  | quiet hresolved hacknowledged hrows hcurrent =>
    refine iff_of_true ⟨hresolvedKept hcurrent, ?_⟩ hcurrent
    · intro id hid row hrow hrowId
      rw [hacknowledged] at hid
      rcases hrows row hrow with hold | ⟨hnew, -⟩
      · exact hkept.acknowledged id hid row hold hrowId
      · exact absurd (hrowId ▸ hs.acknowledged id hid) hnew
  | resolved turn candidateId hevent hhead hresolved hacknowledged halerts =>
    subst hevent
    constructor
    · -- an acknowledgement that the turn has not seen is overwritten
      intro hlater turn' hturn' row hrow hid hseen
      rw [hhead] at hturn'
      cases hturn'
      have hmem := htraced.acknowledged row hrow hseen
      have hrewritten : (⟨row.openedAt, turn.1.resolve turn.2⟩ : AlertRow) ∈ t.store.alerts := by
        rw [halerts]
        exact AlertStore.mem_setPayload.mpr (.inl ⟨row, hrow, hid, rfl⟩)
      exact hlater.acknowledged row.id (hacknowledged ▸ hmem) _ hrewritten hid.symm
    · intro hcurrent
      refine ⟨hresolvedKept hcurrent, ?_⟩
      · intro id hid row' hrow' hrowId
        rw [hacknowledged] at hid
        rw [halerts] at hrow'
        rcases AlertStore.mem_setPayload.mp hrow' with ⟨row, hrow, hrowTurn, rfl⟩ | ⟨hrow, -⟩
        · have hturnId : row.id = id := hrowTurn.trans hrowId
          exact hcurrent turn hhead row hrow hrowTurn
            (hkept.acknowledged id hid row hrow hturnId)
        · exact hkept.acknowledged id hid row' hrow hrowId
  | acknowledged episode hevent hpending hresolved hacknowledged halerts =>
    subst hevent
    obtain ⟨-, hstate, hat⟩ := hs.acknowledging episode hpending
    constructor
    · -- a resolved episode is written as an active one
      intro hlater row hrow hid
      by_contra hclosed
      rw [Bool.not_eq_false] at hclosed
      have hmem := htraced.resolved row hrow hclosed
      have hrewritten : (⟨row.openedAt, episode⟩ : AlertRow) ∈ t.store.alerts := by
        rw [halerts]
        exact AlertStore.mem_setPayload.mpr (.inl ⟨row, hrow, hid, rfl⟩)
      have hstill := hlater.resolved row.id (hresolved ▸ hmem) _ hrewritten hid.symm
      have hactive : episode.state = .resolved := of_decide_eq_true hstill
      rw [hstate] at hactive
      cases hactive
    · intro hcurrent
      refine ⟨hresolvedKept hcurrent, ?_⟩
      · intro id hid row' hrow' hrowId
        rw [halerts] at hrow'
        rcases AlertStore.mem_setPayload.mp hrow' with ⟨row, -, -, rfl⟩ | ⟨hrow, hne⟩
        · exact hat
        · rw [hacknowledged] at hid
          rcases List.mem_cons.mp hid with rfl | hold
          · exact absurd hrowId hne
          · exact hkept.acknowledged id hold row' hrow hrowId

theorem Traced.moves (hs : s.Sound) (htraced : s.Traced) (h : Moves text s e t) : t.Traced := by
  have hgrows : ∀ id ∈ s.acknowledged, id ∈ t.acknowledged := by
    intro id hid
    rcases h.records.2.2 with hsame | ⟨episode, -, hnew⟩
    · exact hsame ▸ hid
    · rw [hnew]
      exact List.mem_cons_of_mem _ hid
  have hturns : ∀ turn ∈ t.point.turns, turn.1.acknowledgedAt.isSome = true →
      turn.1.id ∈ t.acknowledged := by
    intro turn hturn hseen
    rcases h.turns_mem with hsub | ⟨samples, rules, -, hlisted⟩
    · exact hgrows _ (htraced.turns turn (hsub.subset hturn) hseen)
    · -- a fresh listing shows what is stored
      rw [hlisted] at hturn
      obtain ⟨⟨row, hrow, hepisode, -⟩, -⟩ := mem_clearings hturn
      have hid : row.id = turn.1.id := congrArg AlertEpisode.id hepisode
      rw [← hid]
      exact hgrows _ (htraced.acknowledged row hrow (hepisode ▸ hseen))
  cases h.alertChange with
  | quiet hresolved hacknowledged hrows hcurrent =>
    refine ⟨?_, ?_, hturns⟩
    · intro row hrow hclosed
      rw [hresolved]
      rcases hrows row hrow with hold | ⟨-, hopen, -⟩
      · exact htraced.resolved row hold hclosed
      · rw [hopen] at hclosed
        exact absurd hclosed Bool.false_ne_true
    · intro row hrow hseen
      rw [hacknowledged]
      rcases hrows row hrow with hold | ⟨-, -, hnone⟩
      · exact htraced.acknowledged row hold hseen
      · rw [hnone] at hseen
        exact absurd hseen Bool.false_ne_true
  | resolved turn candidateId hevent hhead hresolved hacknowledged halerts =>
    refine ⟨?_, ?_, hturns⟩
    · intro row' hrow' hclosed
      rw [halerts] at hrow'
      rw [hresolved]
      rcases AlertStore.mem_setPayload.mp hrow' with ⟨row, -, -, rfl⟩ | ⟨hrow, -⟩
      · exact List.mem_cons_self
      · exact List.mem_cons_of_mem _ (htraced.resolved row' hrow hclosed)
    · intro row' hrow' hseen
      rw [halerts] at hrow'
      rw [hacknowledged]
      rcases AlertStore.mem_setPayload.mp hrow' with ⟨row, -, -, rfl⟩ | ⟨hrow, -⟩
      · exact htraced.turns turn (List.mem_of_mem_head? hhead) hseen
      · exact htraced.acknowledged row' hrow hseen
  | acknowledged episode hevent hpending hresolved hacknowledged halerts =>
    obtain ⟨-, hstate, -⟩ := hs.acknowledging episode hpending
    refine ⟨?_, ?_, hturns⟩
    · intro row' hrow' hclosed
      rw [halerts] at hrow'
      rw [hresolved]
      rcases AlertStore.mem_setPayload.mp hrow' with ⟨row, -, -, rfl⟩ | ⟨hrow, -⟩
      · have hactive : episode.state = .resolved := of_decide_eq_true hclosed
        rw [hstate] at hactive
        cases hactive
      · exact htraced.resolved row' hrow hclosed
    · intro row' hrow' hseen
      rw [halerts] at hrow'
      rw [hacknowledged]
      rcases AlertStore.mem_setPayload.mp hrow' with ⟨row, -, -, rfl⟩ | ⟨hrow, -⟩
      · exact List.mem_cons_self
      · exact List.mem_cons_of_mem _ (htraced.acknowledged row' hrow hseen)

section Runs

/-- What an acknowledgement of the alert writes -/
def acknowledgedAlert : AlertEpisode :=
  { newEpisode 1 busySample loadRule with state := .acknowledgedActive, acknowledgedAt := some 600 }

end Runs

end AlertSystem

end Supervisor
