import Supervisor.AlertRetention
import Supervisor.AlertSteps
import Supervisor.AlertWatch

namespace Supervisor

section Keys

variable {s : AlertStore} {ids : DrawnIds} {turn : AlertEpisode × Instant}
  {turns : List (AlertEpisode × Instant)} {key : EpisodeKey}

theorem resolveEpisode_rules : (s.resolveEpisode ids turn).rules = s.rules := by
  unfold AlertStore.resolveEpisode AlertStore.resolveAlertEpisode
  by_cases hhas : s.alerts.has (turn.1.resolve turn.2).id = true
  · simp only [hhas, if_true, AlertStore.enqueue_rules]
    rfl
  · simp only [hhas, if_false, Bool.false_eq_true]

theorem foldl_resolveEpisode_rules : (turns.foldl (AlertStore.resolveEpisode ids) s).rules = s.rules := by
  induction turns generalizing s with
  | nil => rfl
  | cons turn turns ih => rw [List.foldl_cons, ih, resolveEpisode_rules]

theorem mem_resolveEpisode_keys : key ∈ (s.resolveEpisode ids turn).episodeKeys ↔
    key ∈ s.episodeKeys ∧ (s.alerts.has turn.1.id = true → key.alertId ≠ turn.1.id) := by
  unfold AlertStore.resolveEpisode AlertStore.resolveAlertEpisode
  rw [AlertEpisode.resolve_id]
  by_cases hhas : s.alerts.has turn.1.id = true
  · simp only [hhas, if_true, AlertStore.enqueue_episodeKeys, KeyedTable.mem_filter,
      decide_eq_true_eq, true_implies]
  · simp only [hhas, if_false, Bool.false_eq_true, false_implies, and_true]

theorem has_resolveEpisode (id : Uuid) :
    (s.resolveEpisode ids turn).alerts.has id = s.alerts.has id := by
  rw [Bool.eq_iff_iff, KeyedTable.has_iff, KeyedTable.has_iff]
  constructor
  · rintro ⟨row, hrow, hid⟩
    rcases mem_resolveEpisode.mp hrow with ⟨row', hrow', hid', rfl⟩ | ⟨hold, -⟩
    · exact ⟨row', hrow', hid'.trans hid⟩
    · exact ⟨row, hold, hid⟩
  · rintro ⟨row, hrow, hid⟩
    by_cases hturn : row.id = turn.1.id
    · exact ⟨_, mem_resolveEpisode.mpr (.inl ⟨row, hrow, hturn, rfl⟩), hturn.symm.trans hid⟩
    · exact ⟨row, mem_resolveEpisode.mpr (.inr ⟨hrow, hturn⟩), hid⟩

theorem mem_foldl_resolveEpisode_keys :
    key ∈ (turns.foldl (AlertStore.resolveEpisode ids) s).episodeKeys ↔
      key ∈ s.episodeKeys ∧
        ∀ turn ∈ turns, s.alerts.has turn.1.id = true → key.alertId ≠ turn.1.id := by
  induction turns generalizing s with
  | nil => simp
  | cons turn turns ih =>
    rw [List.foldl_cons, ih, mem_resolveEpisode_keys, List.forall_mem_cons, and_assoc]
    simp only [has_resolveEpisode]

end Keys

/-- Every dedupe key is of an unresolved episode of a listed rule. -/
def AlertText.Keyed {φ : Type} (text : AlertText φ) (s : AlertStore) : Prop :=
  ∀ key ∈ s.episodeKeys, ∃ row ∈ s.alerts, row.id = key.alertId ∧ row.isResolved = false ∧
    key.dedupeKey = text.episodeKey row.episode ∧
      ∃ rule ∈ s.readRules, rule.id = row.episode.ruleId ∧
        normalizedCause rule.condition = row.episode.cause

section Keyed

variable {φ : Type} {text : AlertText φ} {s : AlertStore} {ids : DrawnIds} {extent : Extent}
  {samples : List (MetricSample φ)}

theorem readRules_congr {t : AlertStore} (h : t.rules = s.rules) : t.readRules = s.readRules := by
  unfold AlertStore.readRules AlertStore.listAlertRules AlertStore.liveRules
  rw [h]

theorem AlertText.Keyed.openUntil (hs : text.Keyed s) (h : text.Admits s ids samples)
    (extent : Extent) :
    text.Keyed (text.openUntil extent ids s samples) := by
  obtain ⟨hrules, -, hkeys⟩ := AlertText.openUntil_rows h extent
  have hread := readRules_congr hrules
  intro key hkey
  rw [KeyedTable.mem_iff, hkeys, List.mem_append, List.mem_map] at hkey
  rcases hkey with hold | ⟨turn, hturn, rfl⟩
  · obtain ⟨row, hrow, hrest⟩ := hs key hold
    exact ⟨row, (AlertText.mem_openUntil h).mpr (.inl hrow), by rwa [hread]⟩
  · obtain ⟨hreached, hfree⟩ := List.mem_filter.mp hturn
    obtain ⟨-, hrule, -⟩ := AlertText.mem_breaches.mp (Extent.mem_of_mem_opens hreached)
    refine ⟨ids.newRow turn, (AlertText.mem_openUntil h).mpr (.inr ⟨turn, hreached, ?_, rfl⟩), rfl,
      rfl, rfl, turn.2, hread ▸ hrule, rfl, rfl⟩
    simpa using hfree

theorem AlertText.Keyed.resolve {turns : List (AlertEpisode × Instant)} (hs : text.Keyed s) :
    text.Keyed (turns.foldl (AlertStore.resolveEpisode ids) s) := by
  intro key hkey
  obtain ⟨hold, hother⟩ := mem_foldl_resolveEpisode_keys.mp hkey
  obtain ⟨row, hrow, hid, hrest⟩ := hs key hold
  refine ⟨row, mem_foldl_resolveEpisode_of_ne hrow ?_, hid, ?_⟩
  · intro turn hturn hsame
    have hhas : s.alerts.has turn.1.id = true := KeyedTable.has_iff.mpr ⟨row, hrow, hsame.symm⟩
    exact hother turn hturn hhas (hid.symm.trans hsame.symm)
  · rwa [readRules_congr foldl_resolveEpisode_rules]

theorem AlertText.Keyed.acknowledge (hs : text.Keyed s) (id : Uuid) (at_ : Instant) :
    text.Keyed (s.acknowledgeAlert id at_).2 := by
  unfold AlertStore.acknowledgeAlert
  cases hread : s.readAlert id at_ with
  | none => exact hs
  | some episode =>
    obtain ⟨acked, hacked, -, -, rfl⟩ := AlertStore.readAlert_some hread
    intro key hkey
    obtain ⟨row, hrow, hid, hopen, hrest⟩ := hs key hkey
    by_cases hsame : row.id = acked.id
    · have heq : row = acked := KeyedTable.eq_of_key hrow hacked hsame
      subst heq
      exact ⟨_, AlertStore.mem_setPayload.mpr (.inl ⟨row, hrow, rfl, rfl⟩), hid, rfl, hrest⟩
    · exact ⟨row, AlertStore.mem_setPayload.mpr (.inr ⟨hrow, hsame⟩), hid, hopen, hrest⟩

theorem AlertText.Keyed.maintain (hs : text.Keyed s) (now : Instant) : text.Keyed (s.maintain text now) := by
  intro key hkey
  obtain ⟨row, hrow, hid, hopen, hrest⟩ := hs key (KeyedTable.mem_filter.mp hkey).1
  exact ⟨row, AlertStore.maintain_keeps_unresolved hrow hopen, hid, hopen, hrest⟩

theorem AlertText.Keyed.of_turnKey (hs : text.Keyed s) {turn : MetricSample φ × AlertRule} {key : EpisodeKey}
    (hrule : turn.2 ∈ s.readRules) (hkey : key ∈ s.episodeKeys)
    (hturn : key.dedupeKey = text.turnKey turn) :
    ∃ row ∈ s.alerts, row.id = key.alertId ∧ row.isResolved = false ∧
      row.episode.ruleId = turn.2.id ∧ row.episode.source = turn.1.source := by
  obtain ⟨row, hrow, hid, hopen, hdedupe, rule, hlisted, hruleId, hcause⟩ := hs key hkey
  obtain ⟨hsame, hsource⟩ := text.dedupeKey_inj (hdedupe.symm.trans hturn)
  have hunique : KeyedRows.Unique AlertRule.id s.readRules := nodup_readRules
  have hrules := hunique.eq_of_key hlisted hrule (hruleId.trans hsame)
  refine ⟨row, hrow, hid, hopen, hsame, hsource ?_⟩
  rw [← hcause, hrules]

end Keyed

section Pass

variable {φ : Type} {text : AlertText φ} {s : AlertStore} {ids : DrawnIds} {extent : Extent}
  {samples : List (MetricSample φ)}

theorem clearedAt_some {rules : List AlertRule} {episode : AlertEpisode}
    (h : (text.clearedAt rules samples episode).isSome = true) :
    episode.state ≠ .resolved ∧ ∃ rule ∈ rules, rule.id = episode.ruleId ∧ rule.enabled = true ∧
      ∃ sample ∈ samples, sample.source = episode.source ∧ text.matchesRule rule sample = false := by
  obtain ⟨at_, hat⟩ := Option.isSome_iff_exists.mp h
  unfold AlertText.clearedAt at hat
  split at hat
  · cases hat
  · rename_i hopen
    obtain ⟨rule, hrule, hat⟩ := Option.bind_eq_some_iff.mp hat
    obtain ⟨sample, hsample, hat⟩ := Option.bind_eq_some_iff.mp hat
    have hboth : (decide (rule.id = episode.ruleId) && rule.enabled) = true :=
      List.find?_some (p := fun r : AlertRule => decide (r.id = episode.ruleId) && r.enabled) hrule
    obtain ⟨hid, henabled⟩ := Bool.and_eq_true_iff.mp hboth
    have hsource : decide (sample.source = episode.source) = true :=
      List.find?_some (p := fun sample : MetricSample φ => decide (sample.source = episode.source))
        hsample
    refine ⟨hopen, rule, List.mem_of_find?_eq_some hrule, of_decide_eq_true hid, henabled, sample,
      List.mem_reverse.mp (List.mem_of_find?_eq_some hsample), of_decide_eq_true hsource, ?_⟩
    cases hmatch : text.matchesRule rule sample with
    | true => simp [hmatch] at hat
    | false => rfl

/-- When every rule sees its samples, a key is only freed by a sample that does not breach. -/
theorem key_kept (h : text.Admits s ids samples) (hsees : text.SeesAll extent ids s samples)
    (hs : text.Keyed s) {view : MetricSample φ × AlertRule} {key : EpisodeKey}
    (hrule : view.2 ∈ s.readRules)
    (hkey : key ∈ (text.openUntil extent ids s samples).episodeKeys)
    (hview : key.dedupeKey = text.turnKey view)
    (hcalm : ∀ sample, sample.source = view.1.source →
      (sample, view.2) ∉ text.calms s.readRules samples) :
    key ∈ (text.evaluateUntil extent ids s samples).episodeKeys := by
  obtain ⟨hrules, hrows, -⟩ := AlertText.openUntil_rows h extent
  have hread := readRules_congr hrules
  apply mem_foldl_resolveEpisode_keys.mpr
  refine ⟨hkey, ?_⟩
  intro turn hturn _ hsame
  obtain ⟨episode, hlisted, hcleared⟩ := List.mem_filterMap.mp hturn
  obtain ⟨at_, hat, rfl⟩ := Option.map_eq_some_iff.mp hcleared
  obtain ⟨row, hrow, rfl⟩ := List.mem_map.mp (List.mem_of_mem_take hlisted)
  have hmem : row ∈ (text.openUntil extent ids s samples).alerts :=
    OrderedPage.mem_of_mem_first hrow
  -- the cleared episode is the one of the key
  obtain ⟨row', hrow', hid', hopen, hruleId, hsource⟩ :=
    (hs.openUntil h extent).of_turnKey (hread ▸ hrule) hkey hview
  have heq : row = row' := KeyedTable.eq_of_key hmem hrow' (hsame.symm.trans hid'.symm)
  subst heq
  obtain ⟨-, rule, hlistedRule, hid, henabled, sample, hsample, hsampleSource, hmatch⟩ :=
    clearedAt_some (Option.isSome_iff_exists.mpr ⟨at_, hat⟩)
  have hunique : KeyedRows.Unique AlertRule.id s.readRules := nodup_readRules
  have hrule' : rule = view.2 := hunique.eq_of_key hlistedRule hrule (hid.trans hruleId)
  -- its sample has the field
  have hknown : text.lacksField rule sample = false := by
    rw [← Bool.not_eq_true]
    intro hlacks
    rcases (AlertText.mem_openUntil h).mp hmem with hold | ⟨turn, hreached, -, hnew⟩
    · have hfar := hsees row hold hopen rule hlistedRule hid henabled sample hsample hsampleSource
        hlacks
      have hnear := (mem_take_readEpisodes hrows hold extent.episodeLimit_le).mp hlisted
      exact absurd hnear (not_lt.mpr hfar)
    · have hnot := AlertText.not_missing_newRow h (Extent.mem_of_mem_opens hreached)
      have hmissing := (AlertText.missing_iff h.sources_nodup).mpr
        ⟨rule, hlistedRule, hid, henabled, sample, hsample, hsampleSource, hlacks⟩
      rw [hnew, hmissing] at hnot
      exact Bool.noConfusion hnot
  have hcalms : (sample, rule) ∈ text.calms s.readRules samples :=
    mem_calms.mpr ⟨hsample, hlistedRule, henabled, hknown, hmatch⟩
  exact hcalm sample (hsampleSource.trans hsource) (hrule' ▸ hcalms)

/-- After the first loop the key of a breach that it has come to is taken. -/
theorem has_openUntil (h : text.Admits s ids samples) {turn : MetricSample φ × AlertRule}
    (hturn : turn ∈ extent.opens (text.breaches s.readRules samples)) :
    (text.openUntil extent ids s samples).episodeKeys.has (text.turnKey turn) = true := by
  have hkeys := (AlertText.openUntil_rows h extent).2.2
  rw [KeyedTable.has_iff]
  cases hfree : s.episodeKeys.has (text.turnKey turn) with
  | true =>
    obtain ⟨key, hkey, hdedupe⟩ := KeyedTable.has_iff.mp hfree
    refine ⟨key, ?_, hdedupe⟩
    rw [KeyedTable.mem_iff, hkeys]
    exact List.mem_append_left _ hkey
  | false =>
    refine ⟨⟨text.turnKey turn, ids.ofTurn turn⟩, ?_, rfl⟩
    rw [KeyedTable.mem_iff, hkeys]
    apply List.mem_append_right
    exact List.mem_map.mpr ⟨turn, List.mem_filter.mpr ⟨hturn, by simp [hfree]⟩, rfl⟩

theorem evaluateUntil_rules (h : text.Admits s ids samples) :
    (text.evaluateUntil extent ids s samples).rules = s.rules :=
  foldl_resolveEpisode_rules.trans (AlertText.openUntil_rows h extent).1

end Pass

namespace AlertWatch

variable {φ : Type} {text : AlertText φ} {s t : AlertWatch φ} {ids : DrawnIds} {extent : Extent}
  {samples : List (MetricSample φ)}

/-- What holds of a run whose passes see all -/
structure Watched (text : AlertText φ) (s : AlertWatch φ) : Prop where
  keyed : text.Keyed s.store
  seen_rules : ∀ view ∈ s.seen, view.2 ∈ s.store.readRules
  /-- A rule whose last known sample breaches has an unresolved episode. -/
  held : ∀ turn view, lastSeen s.seen turn = some view →
    text.matchesRule view.2 view.1 = true → s.store.episodeKeys.has (text.turnKey view) = true
  /-- Episodes are opened where a value rises. -/
  logged : ∀ episode ∈ s.opened, ∃ turn ∈ text.risings s.seen, episode.ruleId = turn.2.id ∧
    episode.source = turn.1.source ∧ episode.openedAt = turn.1.occurredAt

theorem mem_views {turn : MetricSample φ × AlertRule} (h : turn ∈ views text extent s samples) :
    turn.1 ∈ samples ∧ turn.2 ∈ s.store.readRules := by
  rcases List.mem_append.mp h with hreached | hcalm
  · obtain ⟨hsample, hrule, -⟩ := AlertText.mem_breaches.mp (Extent.mem_of_mem_opens hreached)
    exact ⟨hsample, hrule⟩
  · obtain ⟨hsample, hrule, -⟩ := mem_calms.mp hcalm
    exact ⟨hsample, hrule⟩

theorem views_series (h : text.Admits s.store ids samples) :
    ∀ a ∈ views text extent s samples, ∀ b ∈ views text extent s samples,
      a.2.id = b.2.id → a.1.source = b.1.source → a = b := by
  intro a ha b hb hid hsource
  obtain ⟨hsample, hrule⟩ := mem_views ha
  obtain ⟨hsample', hrule'⟩ := mem_views hb
  have hrules : KeyedRows.Unique AlertRule.id s.store.readRules := nodup_readRules
  have hsources : KeyedRows.Unique MetricSample.source samples := h.sources_nodup
  exact Prod.ext (hsources.eq_of_key hsample hsample' hsource)
    (hrules.eq_of_key hrule hrule' hid)

theorem Watched.held_pass (hs : Watched text s) (h : text.Admits s.store ids samples)
    (hsees : text.SeesAll extent ids s.store samples) (turn view : MetricSample φ × AlertRule)
    (hlast : lastSeen (views text extent s samples ++ s.seen) turn = some view)
    (hmatch : text.matchesRule view.2 view.1 = true) :
    (text.evaluateUntil extent ids s.store samples).episodeKeys.has (text.turnKey view) = true := by
  have hseries : view.2.id = turn.2.id ∧ view.1.source = turn.1.source := (lastSeen_some hlast).2
  rw [lastSeen_append] at hlast
  cases hviews : lastSeen (views text extent s samples) turn with
  | some view' =>
    rw [hviews, Option.some_or, Option.some.injEq] at hlast
    subst hlast
    have hmem := (lastSeen_some hviews).1
    -- the view breaches, so that the first loop has come to it
    have hreached : view' ∈ extent.opens (text.breaches s.store.readRules samples) := by
      rcases List.mem_append.mp hmem with hreached | hcalm
      · exact hreached
      · have hfalse := (mem_calms.mp hcalm).2.2.2.2
        rw [hmatch] at hfalse
        exact Bool.noConfusion hfalse
    obtain ⟨key, hkey, hdedupe⟩ := KeyedTable.has_iff.mp (has_openUntil h hreached)
    refine KeyedTable.has_iff.mpr ⟨key, ?_, hdedupe⟩
    apply key_kept h hsees hs.keyed (mem_views hmem).2 hkey hdedupe
    intro sample hsource hcalm
    have hcalmView : (sample, view'.2) ∈ views text extent s samples :=
      List.mem_append_right _ hcalm
    have hsame := views_series h _ hcalmView _ hmem rfl hsource
    have hfalse := (mem_calms.mp hcalm).2.2.2.2
    rw [← hsame] at hmatch
    rw [hmatch] at hfalse
    exact Bool.noConfusion hfalse
  | none =>
    rw [hviews, Option.none_or] at hlast
    obtain ⟨hmem, -⟩ := lastSeen_some hlast
    obtain ⟨key, hkey, hdedupe⟩ := KeyedTable.has_iff.mp (hs.held turn view hlast hmatch)
    have hopened : key ∈ (text.openUntil extent ids s.store samples).episodeKeys := by
      rw [KeyedTable.mem_iff, (AlertText.openUntil_rows h extent).2.2]
      exact List.mem_append_left _ hkey
    refine KeyedTable.has_iff.mpr ⟨key, ?_, hdedupe⟩
    apply key_kept h hsees hs.keyed (hs.seen_rules view hmem) hopened hdedupe
    intro sample hsource hcalm
    -- a calm sample would be seen later
    exact lastSeen_none.mp hviews (sample, view.2) (List.mem_append_right _ hcalm) hseries.1
      (hsource.trans hseries.2)

/-- An episode is opened for a value that rises. -/
theorem Watched.opens_rising (hs : Watched text s) {turn : MetricSample φ × AlertRule}
    (hturn : turn ∈ extent.opens (text.breaches s.store.readRules samples))
    (hfree : s.store.episodeKeys.has (text.turnKey turn) = false) :
    text.rises s.seen turn = true := by
  obtain ⟨-, hrule, -, hmatch⟩ := AlertText.mem_breaches.mp (Extent.mem_of_mem_opens hturn)
  unfold AlertText.rises
  rw [hmatch, Bool.true_and, Bool.not_eq_true', ← Bool.not_eq_true, Option.any_eq_true]
  rintro ⟨view, hlast, hview⟩
  obtain ⟨hmem, hid, hsource⟩ := lastSeen_some hlast
  have hunique : KeyedRows.Unique AlertRule.id s.store.readRules := nodup_readRules
  have hsame : view.2 = turn.2 := hunique.eq_of_key (hs.seen_rules view hmem) hrule hid
  have hkey : text.turnKey view = text.turnKey turn := by
    unfold AlertText.turnKey
    rw [hsame, hsource]
  have htaken := hs.held turn view hlast hview
  rw [hkey, hfree] at htaken
  exact Bool.noConfusion htaken

theorem mem_newEpisodes (h : text.Admits s.store ids samples) {episode : AlertEpisode}
    (hepisode : episode ∈ newEpisodes text extent ids s samples) :
    ∃ turn ∈ extent.opens (text.breaches s.store.readRules samples),
      s.store.episodeKeys.has (text.turnKey turn) = false ∧
        newEpisode (ids.ofTurn turn) turn.1 turn.2 = episode := by
  obtain ⟨row, hrow, rfl⟩ := List.mem_map.mp hepisode
  obtain ⟨hmem, hnew⟩ := List.mem_filter.mp hrow
  rcases (AlertText.mem_openUntil h).mp hmem with hold | ⟨turn, hturn, hfree, rfl⟩
  · have hhas : s.store.alerts.has row.id = true := KeyedTable.has_iff.mpr ⟨row, hold, rfl⟩
    rw [hhas] at hnew
    exact Bool.noConfusion hnew
  · exact ⟨turn, hturn, hfree, rfl⟩

/-- A pass opens at most one episode for a rule and a source. -/
theorem newEpisodes_pairwise (h : text.Admits s.store ids samples) :
    (newEpisodes text extent ids s samples).Pairwise fun a b =>
      a.ruleId = b.ruleId → a.source ≠ b.source := by
  have hrows := (AlertText.openUntil_rows h extent).2.1
  have hnone : s.store.alerts.rows.filter (fun row => !s.store.alerts.has row.id) = [] := by
    rw [List.filter_eq_nil_iff]
    intro row hrow
    have hhas : s.store.alerts.has row.id = true := KeyedTable.has_iff.mpr ⟨row, hrow, rfl⟩
    simp [hhas]
  unfold newEpisodes
  rw [hrows, List.filter_append, hnone, List.nil_append, AlertText.openedRows, List.pairwise_map]
  apply List.Pairwise.filter
  rw [List.pairwise_map]
  apply List.Pairwise.filter
  have hkeys := (@nodup_turnKey _ text s.store _ h.sources_nodup).sublist
    ((extent.opens_sublist _).map text.turnKey)
  refine (List.pairwise_map.mp hkeys).imp_of_mem ?_
  intro a b ha hb hne hid hsource
  have hsame := @views_series _ _ _ _ extent _ h a (List.mem_append_left _ ha) b
    (List.mem_append_left _ hb) hid hsource
  exact hne (by rw [hsame])

theorem HasRule.eq_of_readRules {store : AlertStore} {rule listed : AlertRule}
    (hrule : store.HasRule rule) (hlisted : listed ∈ store.readRules) (hid : rule.id = listed.id) :
    rule = listed := by
  obtain ⟨row, hrow, rfl⟩ := hrule
  obtain ⟨⟨row', hrow', rfl⟩, -⟩ := mem_readRules.mp hlisted
  have hunique : KeyedRows.Unique RuleRow.id store.liveRules := nodup_liveRules
  rw [hunique.eq_of_key hrow hrow' hid]

theorem Watched.pass (hs : Watched text s) (h : text.Admits s.store ids samples)
    (hsees : text.SeesAll extent ids s.store samples) (known : AlertStore) : Watched text
      { store := text.evaluateUntil extent ids s.store samples
        known := known
        seen := views text extent s samples ++ s.seen
        opened := newEpisodes text extent ids s samples ++ s.opened } where
  keyed := (hs.keyed.openUntil h extent).resolve
  seen_rules := by
    intro view hview
    rw [readRules_congr (evaluateUntil_rules h)]
    rcases List.mem_append.mp hview with hnew | hold
    · exact (mem_views hnew).2
    · exact hs.seen_rules view hold
  held := hs.held_pass h hsees
  logged := by
    intro episode hepisode
    rcases List.mem_append.mp hepisode with hnew | hold
    · obtain ⟨turn, hturn, hfree, rfl⟩ := mem_newEpisodes h hnew
      refine ⟨turn, ?_, rfl, rfl, rfl⟩
      exact mem_risings_of_rises (views_series h) (List.mem_append_left _ hturn)
        (hs.opens_rising hturn hfree)
    · obtain ⟨turn, hturn, hrest⟩ := hs.logged episode hold
      exact ⟨turn, mem_risings_append hturn, hrest⟩

/-- The cooldown is kept by a pass whose values rise no sooner than it allows. -/
theorem Watched.cooldown_pass (hs : Watched text s) (h : text.Admits s.store ids samples)
    (hspaced : text.Spaced extent s samples) (hkept : CooldownKept s.store s.opened) :
    CooldownKept (text.evaluateUntil extent ids s.store samples)
      (newEpisodes text extent ids s samples ++ s.opened) := by
  have hrules {rule : AlertRule}
      (hrule : (text.evaluateUntil extent ids s.store samples).HasRule rule) :
      s.store.HasRule rule := by
    unfold AlertStore.HasRule AlertStore.liveRules at hrule ⊢
    rwa [evaluateUntil_rules h] at hrule
  apply List.pairwise_append.mpr
  refine ⟨(newEpisodes_pairwise h).imp ?_, hkept.imp ?_, ?_⟩
  · intro later earlier hne hid hsource
    exact absurd hsource (hne hid)
  · intro later earlier hold hid hsource hcause rule hrule
    exact hold hid hsource hcause rule (hrules hrule)
  · intro later hlater earlier hearlier hid hsource _ rule hrule hruleId
    obtain ⟨turn, hturn, hfree, rfl⟩ := mem_newEpisodes h hlater
    obtain ⟨before, hbefore, hbeforeId, hbeforeSource, hbeforeAt⟩ := hs.logged earlier hearlier
    have hlisted := (AlertText.mem_breaches.mp (Extent.mem_of_mem_opens hturn)).2.1
    have hsame : rule = turn.2 := HasRule.eq_of_readRules (hrules hrule) hlisted hruleId
    have hgap := hspaced turn hturn (hs.opens_rising hturn hfree) before hbefore
      (hbeforeId.symm.trans hid.symm) (hbeforeSource.symm.trans hsource.symm)
    rw [hsame, hbeforeAt]
    exact hgap

/-- The two runs agree, and the cooldown is kept. -/
structure Agrees (text : AlertText φ) (s : AlertWatch φ) : Prop extends Watched text s where
  same : s.store = s.known
  cooldown : CooldownKept s.store s.opened

theorem Agrees.start (rules : KeyedTable RuleRow.id) : Agrees text (start rules) where
  keyed := fun _ hkey => absurd hkey KeyedTable.not_mem_empty
  seen_rules := fun _ hview => absurd hview List.not_mem_nil
  held := fun _ _ hlast => absurd (lastSeen_some hlast).1 List.not_mem_nil
  logged := fun _ hepisode => absurd hepisode List.not_mem_nil
  same := rfl
  cooldown := List.Pairwise.nil

theorem acknowledgeAlert_keeps {store : AlertStore} (id : Uuid) (at_ : Instant) :
    (store.acknowledgeAlert id at_).2.rules = store.rules ∧
      (store.acknowledgeAlert id at_).2.episodeKeys = store.episodeKeys := by
  unfold AlertStore.acknowledgeAlert
  cases store.readAlert id at_ with
  | none => exact ⟨rfl, rfl⟩
  | some episode => exact ⟨rfl, rfl⟩

theorem Agrees.step (hs : Agrees text s) {e : WatchEvent φ} (hcalm : Calm text s e)
    (h : (alertWatch text).step s e = some t) : Agrees text t := by
  cases e with
  | pass extent ids samples =>
    obtain ⟨hsees, hspaced⟩ := hcalm
    simp only [alertWatch, AlertWatch.step] at h
    split at h
    · rename_i hadmits
      cases h
      refine ⟨hs.toWatched.pass hadmits hsees _, ?_, ?_⟩
      · show text.evaluateUntil extent ids s.store samples =
          text.evaluateKnown extent ids s.known samples
        rw [← hs.same]
        exact (AlertText.evaluateKnown_eq_iff hadmits).mpr hsees
      · exact hs.toWatched.cooldown_pass hadmits hspaced hs.cooldown
    · cases h
  | acknowledge id at_ =>
    cases h
    obtain ⟨hrules, hkeys⟩ := @acknowledgeAlert_keeps s.store id at_
    have hread := readRules_congr hrules
    refine ⟨⟨hs.keyed.acknowledge id at_, ?_, ?_, hs.logged⟩, ?_, ?_⟩
    · exact fun view hview => hread ▸ hs.seen_rules view hview
    · exact fun turn view hlast hmatch => hkeys ▸ hs.held turn view hlast hmatch
    · exact congrArg (fun store => (AlertStore.acknowledgeAlert store id at_).2) hs.same
    · have hcooldown := hs.cooldown
      unfold CooldownKept AlertStore.HasRule AlertStore.liveRules at hcooldown ⊢
      rwa [hrules]
  | maintain now =>
    cases h
    refine ⟨⟨hs.keyed.maintain now, hs.seen_rules, ?_, hs.logged⟩, ?_, hs.cooldown⟩
    · intro turn view hlast hmatch
      obtain ⟨key, hkey, hdedupe⟩ := KeyedTable.has_iff.mp (hs.held turn view hlast hmatch)
      obtain ⟨row, hrow, hid, hopen, -⟩ := hs.keyed key hkey
      exact KeyedTable.has_iff.mpr
        ⟨key, AlertStore.maintain_keeps_key hkey hrow hid hopen, hdedupe⟩
    · exact congrArg (fun store => AlertStore.maintain text store now) hs.same

/-- In a run whose passes see all, and whose values rise no sooner than the cooldown allows, the
samples without the field change nothing, and the cooldown is kept. -/
theorem unknown_and_cooldown (text : AlertText φ) (rules : KeyedTable RuleRow.id)
    (h : (alertWatch text).Run (Calm text) (start rules) s) :
    s.store = s.known ∧ CooldownKept s.store s.opened := by
  have hagrees : Agrees text s :=
    h.invariant (fun _ _ _ hs hcalm hstep => hs.step hcalm hstep) (Agrees.start rules)
  exact ⟨hagrees.same, hagrees.cooldown⟩

section Runs

def loadRules : KeyedTable RuleRow.id := crowdedStore.rules

/-- A complete pass over one sample, which draws ids from a number on -/
def passOver (n : ℕ) (sample : MetricSample ℕ) : WatchEvent ℕ :=
  .pass .whole ⟨fun _ _ => n, fun _ _ => n + 1, fun _ => n + 2⟩ [sample]

/-- The probe has delivered no value. -/
def blankSample : MetricSample ℕ := { calmSample with cpuPercent := none }

def busyAgain (t : Instant) : MetricSample ℕ := { busySample with occurredAt := t }

/-- The value rises for a second time when the cooldown has passed. -/
theorem unknown_and_cooldown_run : ∃ s : AlertWatch ℕ, s.opened.length = 2 ∧ s.store = s.known ∧
    CooldownKept s.store s.opened := by
  obtain ⟨s, hrun, htwo⟩ := Machine.exists_run_of_execUnder (M := alertWatch decimalText)
    (C := Calm decimalText) (s := start loadRules) (fun s => s.opened.length = 2)
    [passOver 1 busySample, passOver 4 calmSample, passOver 7 blankSample, .maintain 2000,
      passOver 10 (busyAgain 60000000500), .acknowledge 10 60000000600]
    (by decide +kernel)
  exact ⟨s, of_decide_eq_true htwo, unknown_and_cooldown decimalText loadRules hrun⟩

/-- A missing value resolves an episode; and a value that falls and rises again within the
cooldown opens a second one. -/
theorem unknown_resolves_cooldown_ignored :
    (∃ s, (alertWatch decimalText).Reaches (start loadRules) s ∧ s.store ≠ s.known) ∧
      ∃ s, (alertWatch decimalText).Reaches (start loadRules) s ∧
        ¬ CooldownKept s.store s.opened := by
  constructor
  · obtain ⟨s, hrun, hdiffer⟩ := Machine.exists_reaches_of_exec (M := alertWatch decimalText)
      (s := start loadRules) (fun s => decide (s.store.alerts.rows ≠ s.known.alerts.rows))
      [passOver 1 busySample, passOver 4 blankSample] (by decide +kernel)
    refine ⟨s, hrun, fun heq => ?_⟩
    exact of_decide_eq_true hdiffer (congrArg (fun store => store.alerts.rows) heq)
  · obtain ⟨s, hrun, hearly⟩ := Machine.exists_reaches_of_exec (M := alertWatch decimalText)
      (s := start loadRules)
      (fun s => decide (⟨loadRule, none⟩ ∈ s.store.liveRules ∧ s.opened =
        [newEpisode 7 (busyAgain 1500) loadRule, newEpisode 1 busySample loadRule]))
      [passOver 1 busySample, passOver 4 calmSample, passOver 7 (busyAgain 1500)]
      (by decide +kernel)
    obtain ⟨hlive, hopened⟩ := of_decide_eq_true hearly
    refine ⟨s, hrun, fun hkept => ?_⟩
    rw [CooldownKept, hopened] at hkept
    have hgap := List.rel_of_pairwise_cons hkept List.mem_cons_self rfl rfl rfl loadRule
      ⟨_, hlive, rfl⟩ rfl
    exact absurd hgap (by decide)

end Runs

end AlertWatch

end Supervisor
