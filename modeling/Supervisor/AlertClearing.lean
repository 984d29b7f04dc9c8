import Supervisor.AlertEvaluation

namespace Supervisor

open OrderedPage (position)

/-- Neither the alerts nor the keys use the id of a turn. -/
def DrawnIds.IsNew {φ : Type} (ids : DrawnIds) (s : AlertStore) (turn : MetricSample φ × AlertRule) : Prop :=
  s.alerts.has (ids.ofTurn turn) = false ∧
    ∀ key ∈ s.episodeKeys, key.alertId ≠ ids.ofTurn turn

/-- The input of a pass: the collector takes one sample of a source, and drawn ids are new. -/
structure EvaluationPass {φ : Type} (text : AlertText φ) (s : AlertStore) where
  samples : List (MetricSample φ)
  ids : DrawnIds
  sources_nodup : (samples.map MetricSample.source).Nodup
  ids_nodup : ((text.breaches s.readRules samples).map ids.ofTurn).Nodup
  ids_new : ∀ turn ∈ text.breaches s.readRules samples, ids.IsNew s turn

section Opening

variable {φ : Type} {text : AlertText φ} {s t : AlertStore} {ids : DrawnIds}
  {turn : MetricSample φ × AlertRule} {turns : List (MetricSample φ × AlertRule)}

/-- The row that a turn adds -/
def DrawnIds.newRow (ids : DrawnIds) (turn : MetricSample φ × AlertRule) : AlertRow :=
  ⟨turn.1.occurredAt, newEpisode (ids.ofTurn turn) turn.1 turn.2⟩

@[simp]
theorem DrawnIds.newRow_id : (ids.newRow turn).id = ids.ofTurn turn := rfl

theorem openEpisode_of_taken (h : s.episodeKeys.has (text.turnKey turn) = true) :
    text.openEpisode ids s turn = s := by
  obtain ⟨key, hkey, heq⟩ := KeyedTable.has_iff.mp h
  have htaken : s.episodeKeys.insert ⟨text.turnKey turn, ids.ofTurn turn⟩ = none :=
    KeyedTable.insert_eq_none.mpr ⟨key, hkey, heq⟩
  have hupsert : s.upsertAlertEpisode (newEpisode (ids.ofTurn turn) turn.1 turn.2)
      (text.turnKey turn) = some (false, s) := by
    have hid : (newEpisode (ids.ofTurn turn) turn.1 turn.2).id = ids.ofTurn turn := rfl
    rw [AlertStore.upsertAlertEpisode, hid, htaken]
  unfold AlertText.openEpisode
  simp only [hupsert]

/-- What an opening turn does to the alerts and the keys -/
theorem openEpisode_of_new (h : s.episodeKeys.has (text.turnKey turn) = false)
    (hnew : ids.IsNew s turn) :
    (text.openEpisode ids s turn).rules = s.rules ∧
      (text.openEpisode ids s turn).alerts.rows = s.alerts.rows ++ [ids.newRow turn] ∧
        (text.openEpisode ids s turn).episodeKeys.rows =
          s.episodeKeys.rows ++ [⟨text.turnKey turn, ids.ofTurn turn⟩] := by
  have hkeys : ∃ keys, s.episodeKeys.insert ⟨text.turnKey turn, ids.ofTurn turn⟩ = some keys := by
    apply Option.ne_none_iff_exists'.mp
    intro hnone
    rw [Bool.eq_false_iff] at h
    exact h (KeyedTable.has_iff.mpr (KeyedTable.insert_eq_none.mp hnone))
  have halerts : ∃ alerts, s.alerts.insert (ids.newRow turn) = some alerts := by
    apply Option.ne_none_iff_exists'.mp
    intro hnone
    have htaken := hnew.1
    rw [Bool.eq_false_iff] at htaken
    exact htaken (KeyedTable.has_iff.mpr (KeyedTable.insert_eq_none.mp hnone))
  have hfree : (s.episodeKeys.rows.any fun row => row.alertId = ids.ofTurn turn) = false := by
    rw [List.any_eq_false]
    intro key hkey
    simpa using hnew.2 key hkey
  obtain ⟨keys, hkeys⟩ := hkeys
  obtain ⟨alerts, halerts⟩ := halerts
  have hupsert : s.upsertAlertEpisode (newEpisode (ids.ofTurn turn) turn.1 turn.2)
      (text.turnKey turn) = some (true, { s with episodeKeys := keys, alerts := alerts }) := by
    have hid : (newEpisode (ids.ofTurn turn) turn.1 turn.2).id = ids.ofTurn turn := rfl
    have hrow : (⟨(newEpisode (ids.ofTurn turn) turn.1 turn.2).openedAt,
        newEpisode (ids.ofTurn turn) turn.1 turn.2⟩ : AlertRow) = ids.newRow turn := rfl
    simp only [AlertStore.upsertAlertEpisode, hid, hrow, hkeys, halerts, hfree,
      Bool.false_eq_true, if_false, Option.map_some]
  have hopen : text.openEpisode ids s turn =
      AlertStore.enqueueDeliveryCandidate { s with episodeKeys := keys, alerts := alerts }
        (notification (ids.opening turn.2.id turn.1.source)
          (newEpisode (ids.ofTurn turn) turn.1 turn.2) turn.1.occurredAt) := by
    unfold AlertText.openEpisode
    simp only [hupsert]
  rw [hopen, AlertStore.enqueue_rules, AlertStore.enqueue_alerts, AlertStore.enqueue_episodeKeys]
  exact ⟨rfl, (KeyedTable.insert_eq_some.mp halerts).2, (KeyedTable.insert_eq_some.mp hkeys).2⟩

/-- The rows and the keys that the first loop adds -/
theorem foldl_openEpisode (hkeys : (turns.map text.turnKey).Nodup)
    (hids : (turns.map ids.ofTurn).Nodup) (hnew : ∀ turn ∈ turns, ids.IsNew s turn) :
    (turns.foldl (text.openEpisode ids) s).rules = s.rules ∧
      (turns.foldl (text.openEpisode ids) s).alerts.rows = s.alerts.rows ++
        (turns.filter fun turn => !s.episodeKeys.has (text.turnKey turn)).map ids.newRow ∧
      (turns.foldl (text.openEpisode ids) s).episodeKeys.rows = s.episodeKeys.rows ++
        (turns.filter fun turn => !s.episodeKeys.has (text.turnKey turn)).map fun turn =>
          ⟨text.turnKey turn, ids.ofTurn turn⟩ := by
  induction turns generalizing s with
  | nil => exact ⟨rfl, (List.append_nil _).symm, (List.append_nil _).symm⟩
  | cons turn turns ih =>
    rw [List.map_cons, List.nodup_cons] at hkeys hids
    rw [List.foldl_cons]
    cases htaken : s.episodeKeys.has (text.turnKey turn) with
    | true =>
      rw [openEpisode_of_taken htaken, List.filter_cons_of_neg (by simp [htaken])]
      exact ih hkeys.2 hids.2 fun turn' hturn' => hnew turn' (List.mem_cons_of_mem turn hturn')
    | false =>
      obtain ⟨hrules, halerts, hepisodeKeys⟩ :=
        openEpisode_of_new htaken (hnew turn List.mem_cons_self)
      -- the other turns have other ids and other keys
      have hnew' : ∀ turn' ∈ turns, ids.IsNew (text.openEpisode ids s turn) turn' := by
        intro turn' hturn'
        have hne : ids.ofTurn turn ≠ ids.ofTurn turn' := fun heq =>
          hids.1 (heq ▸ List.mem_map_of_mem hturn')
        obtain ⟨hhas, hkey⟩ := hnew turn' (List.mem_cons_of_mem turn hturn')
        constructor
        · rw [KeyedTable.has] at hhas ⊢
          rw [halerts, List.any_append, hhas, Bool.false_or, List.any_cons, List.any_nil,
            Bool.or_false, DrawnIds.newRow_id]
          exact decide_eq_false hne
        · intro key hmem
          rw [KeyedTable.mem_iff, hepisodeKeys, List.mem_append, List.mem_singleton] at hmem
          rcases hmem with hmem | rfl
          · exact hkey key hmem
          · exact hne
      have hfilter : (turns.filter fun turn' =>
          !(text.openEpisode ids s turn).episodeKeys.has (text.turnKey turn')) =
          turns.filter fun turn' => !s.episodeKeys.has (text.turnKey turn') := by
        apply List.filter_congr
        intro turn' hturn'
        have hne : text.turnKey turn ≠ text.turnKey turn' := fun heq =>
          hkeys.1 (heq ▸ List.mem_map_of_mem hturn')
        rw [KeyedTable.has, KeyedTable.has, hepisodeKeys, List.any_append]
        simp [hne]
      obtain ⟨hrules', halerts', hepisodeKeys'⟩ := ih hkeys.2 hids.2 hnew'
      refine ⟨hrules'.trans hrules, ?_, ?_⟩
      · rw [halerts', halerts, hfilter, List.filter_cons_of_pos (by simp [htaken]), List.map_cons,
          List.append_assoc, List.singleton_append]
      · rw [hepisodeKeys', hepisodeKeys, hfilter, List.filter_cons_of_pos (by simp [htaken]),
          List.map_cons, List.append_assoc, List.singleton_append]

end Opening

section Resolving

variable {s : AlertStore} {ids : DrawnIds} {turn : AlertEpisode × Instant}
  {turns : List (AlertEpisode × Instant)} {row : AlertRow}

theorem AlertEpisode.resolve_id (episode : AlertEpisode) (at_ : Instant) :
    (episode.resolve at_).id = episode.id := rfl

/-- A turn of the second loop rewrites the row of its episode. -/
theorem mem_resolveEpisode : row ∈ (s.resolveEpisode ids turn).alerts ↔
    (∃ row' ∈ s.alerts, row'.id = turn.1.id ∧ ⟨row'.openedAt, turn.1.resolve turn.2⟩ = row) ∨
      row ∈ s.alerts ∧ row.id ≠ turn.1.id := by
  unfold AlertStore.resolveEpisode AlertStore.resolveAlertEpisode
  rw [AlertEpisode.resolve_id]
  by_cases hhas : s.alerts.has turn.1.id = true
  · simp only [hhas, if_true]
    rw [AlertStore.enqueue_alerts]
    exact AlertStore.mem_setPayload
  · simp only [hhas, if_false, Bool.false_eq_true]
    rw [KeyedTable.has_iff] at hhas
    push Not at hhas
    constructor
    · exact fun hrow => .inr ⟨hrow, hhas row hrow⟩
    · rintro (⟨row', hrow', hid, -⟩ | ⟨hrow, -⟩)
      · exact absurd hid (hhas row' hrow')
      · exact hrow

theorem mem_foldl_resolveEpisode_of_ne (hrow : row ∈ s.alerts)
    (hne : ∀ turn ∈ turns, turn.1.id ≠ row.id) :
    row ∈ (turns.foldl (AlertStore.resolveEpisode ids) s).alerts := by
  induction turns generalizing s with
  | nil => exact hrow
  | cons turn turns ih =>
    apply ih
    · have hhead := hne turn List.mem_cons_self
      exact mem_resolveEpisode.mpr (.inr ⟨hrow, Ne.symm hhead⟩)
    · exact fun turn' hturn' => hne turn' (List.mem_cons_of_mem turn hturn')

/-- A row whose episode is resolved stays resolved. -/
theorem foldl_resolveEpisode_resolved (hrow : row ∈ s.alerts) (hresolved : row.isResolved = true) :
    ∃ row' ∈ (turns.foldl (AlertStore.resolveEpisode ids) s).alerts,
      row'.id = row.id ∧ row'.isResolved = true := by
  induction turns generalizing s row with
  | nil => exact ⟨row, hrow, rfl, hresolved⟩
  | cons turn turns ih =>
    by_cases hid : row.id = turn.1.id
    · have hnew : (⟨row.openedAt, turn.1.resolve turn.2⟩ : AlertRow) ∈
          (s.resolveEpisode ids turn).alerts :=
        mem_resolveEpisode.mpr (.inl ⟨row, hrow, hid, rfl⟩)
      obtain ⟨row', hrow', hid', hresolved'⟩ := ih hnew rfl
      exact ⟨row', hrow', hid'.trans hid.symm, hresolved'⟩
    · have hkept : row ∈ (s.resolveEpisode ids turn).alerts :=
        mem_resolveEpisode.mpr (.inr ⟨hrow, hid⟩)
      exact ih hkept hresolved

/-- A turn resolves the row of its episode. -/
theorem foldl_resolveEpisode_of_mem (hrow : row ∈ s.alerts)
    (hturn : ∃ turn ∈ turns, turn.1.id = row.id) :
    ∃ row' ∈ (turns.foldl (AlertStore.resolveEpisode ids) s).alerts,
      row'.id = row.id ∧ row'.isResolved = true := by
  obtain ⟨turn, hturn, hid⟩ := hturn
  induction turns generalizing s row with
  | nil => simp at hturn
  | cons head turns ih =>
    by_cases hhead : head.1.id = row.id
    · have hnew : (⟨row.openedAt, head.1.resolve head.2⟩ : AlertRow) ∈
          (s.resolveEpisode ids head).alerts :=
        mem_resolveEpisode.mpr (.inl ⟨row, hrow, hhead.symm, rfl⟩)
      obtain ⟨row', hrow', hid', hresolved⟩ :=
        @foldl_resolveEpisode_resolved _ ids turns _ hnew rfl
      exact ⟨row', hrow', hid'.trans hhead, hresolved⟩
    · have hkept : row ∈ (s.resolveEpisode ids head).alerts :=
        mem_resolveEpisode.mpr (.inr ⟨hrow, Ne.symm hhead⟩)
      have htail : turn ∈ turns :=
        (List.mem_cons.mp hturn).resolve_left fun heq => hhead (heq ▸ hid)
      exact ih hkept htail hid

end Resolving

section Pass

variable {φ : Type} {text : AlertText φ} {s : AlertStore} {row : AlertRow} {rule : AlertRule}
  {sample : MetricSample φ} {samples : List (MetricSample φ)}

/-- The rules that have not been deleted -/
def AlertStore.HasRule (s : AlertStore) (rule : AlertRule) : Prop :=
  ∃ row ∈ s.liveRules, row.rule = rule

theorem nodup_liveRules : (s.liveRules.map RuleRow.id).Nodup :=
  s.rules.unique.sublist (List.filter_sublist.map _)

theorem mem_readRules : rule ∈ s.readRules ↔
    s.HasRule rule ∧ position RuleRow.id rule.id s.liveRules < 500 := by
  have hlimit : pageLimit (min 1000 500) = 500 := rfl
  unfold AlertStore.readRules AlertStore.listAlertRules
  rw [hlimit, List.mem_map]
  constructor
  · rintro ⟨row, hrow, rfl⟩
    obtain ⟨hlive, hposition⟩ := (OrderedPage.mem_first_iff nodup_liveRules).mp hrow
    exact ⟨⟨row, hlive, rfl⟩, hposition⟩
  · rintro ⟨⟨row, hlive, rfl⟩, hposition⟩
    exact ⟨row, (OrderedPage.mem_first_iff nodup_liveRules).mpr ⟨hlive, hposition⟩, rfl⟩

theorem nodup_readRules : (s.readRules.map AlertRule.id).Nodup := by
  unfold AlertStore.readRules AlertStore.listAlertRules
  rw [List.map_map]
  exact OrderedPage.nodup_first nodup_liveRules

theorem bySource_of_mem (hsources : (samples.map MetricSample.source).Nodup)
    (hsample : sample ∈ samples) : bySource samples sample.source = some sample := by
  have hreverse : (samples.reverse.map MetricSample.source).Nodup := by
    rw [List.map_reverse]
    exact List.nodup_reverse.mpr hsources
  have hfind := KeyedRows.Unique.find_of_mem hreverse (List.mem_reverse.mpr hsample)
  exact hfind

theorem find_rule (hrule : rule ∈ s.readRules) (henabled : rule.enabled = true) :
    (s.readRules.find? fun r => r.id = rule.id && r.enabled) = some rule := by
  have hunique : KeyedRows.Unique AlertRule.id s.readRules := nodup_readRules
  have hone := hunique.find?_eq_filter (k := rule.id) (p := fun r => r.id = rule.id && r.enabled)
    fun r hr => by simpa using (Bool.and_eq_true_iff.mp hr).1
  rw [hone, hunique.find_of_mem hrule, Option.filter_some_pos (by simp [henabled])]

/-- When the second loop resolves a listed episode -/
theorem clearedAt_of_rule (hsources : (samples.map MetricSample.source).Nodup)
    (hopen : row.isResolved = false) (hrule : s.HasRule rule) (hid : rule.id = row.episode.ruleId)
    (henabled : rule.enabled = true) (hsample : sample ∈ samples)
    (hsource : sample.source = row.episode.source) :
    (text.clearedAt s.readRules samples row.episode).isSome = true ↔
      position RuleRow.id rule.id s.liveRules < 500 ∧ text.matchesRule rule sample = false := by
  have hstate : row.episode.state ≠ .resolved := of_decide_eq_false hopen
  have hbySource := bySource_of_mem hsources hsample
  rw [hsource] at hbySource
  unfold AlertText.clearedAt
  rw [if_neg hstate, ← hid, hbySource]
  by_cases hlisted : position RuleRow.id rule.id s.liveRules < 500
  · rw [find_rule (mem_readRules.mpr ⟨hrule, hlisted⟩) henabled]
    cases hmatch : text.matchesRule rule sample <;> simp [hmatch, hlisted]
  · -- another listed rule would have another id
    have hnone : (s.readRules.find? fun r => r.id = rule.id && r.enabled) = none := by
      rw [List.find?_eq_none]
      intro r hr hboth
      obtain ⟨-, hposition⟩ := mem_readRules.mp hr
      have hrid : r.id = rule.id := by simpa using (Bool.and_eq_true_iff.mp hboth).1
      exact hlisted (hrid ▸ hposition)
    rw [hnone]
    simp [hlisted]

/-- The turns of the first loop that open an episode -/
def AlertText.openings (text : AlertText φ) (s : AlertStore) (samples : List (MetricSample φ)) :
    List (MetricSample φ × AlertRule) :=
  (text.breaches s.readRules samples).filter fun turn => !s.episodeKeys.has (text.turnKey turn)

/-- Different turns of the first loop have different keys. -/
theorem nodup_turnKey (hsources : (samples.map MetricSample.source).Nodup) :
    ((text.breaches s.readRules samples).map text.turnKey).Nodup := by
  rw [List.Nodup, List.pairwise_map, AlertText.breaches, List.pairwise_flatMap]
  constructor
  · intro sample _
    rw [List.pairwise_map]
    apply List.Pairwise.filter
    have hids := List.pairwise_map.mp (nodup_readRules (s := s))
    exact hids.imp fun hne hkey => hne (text.dedupeKey_inj hkey).1
  · have hdifferent := List.pairwise_map.mp hsources
    refine hdifferent.imp fun hne => ?_
    intro a ha b hb hkey
    obtain ⟨rule, hrule, rfl⟩ := List.mem_map.mp ha
    obtain ⟨rule', hrule', rfl⟩ := List.mem_map.mp hb
    obtain ⟨hid, hsource⟩ := text.dedupeKey_inj hkey
    -- equal ids are of one listed rule, which has one cause
    have hunique : KeyedRows.Unique AlertRule.id s.readRules := nodup_readRules
    have hrules := hunique.eq_of_key (List.mem_filter.mp hrule).1 (List.mem_filter.mp hrule').1 hid
    exact hne (hsource (by rw [hrules]))

/-- The first episodes of a listing, of a store with more rows -/
theorem mem_take_readEpisodes {t : AlertStore} {rows : List AlertRow} {n : ℕ}
    (hrows : t.alerts.rows = s.alerts.rows ++ rows) (hrow : row ∈ s.alerts) (hn : n ≤ 500) :
    row.episode ∈ t.readEpisodes.take n ↔
      position AlertRow.rank row.rank s.alerts.rows + position AlertRow.rank row.rank rows < n := by
  have hlimit : pageLimit (min 500 500) = 500 := rfl
  have hranks : (t.alerts.rows.map AlertRow.rank).Nodup := by
    have hids := t.alerts.unique
    have hkeys : t.alerts.rows.map AlertRow.id =
        (t.alerts.rows.map AlertRow.rank).map fun rank => (ofLex rank).2 := by
      rw [List.map_map]
      rfl
    rw [KeyedRows.Unique, hkeys] at hids
    exact hids.of_map
  have hposition : position AlertRow.rank row.rank t.alerts.rows =
      position AlertRow.rank row.rank s.alerts.rows + position AlertRow.rank row.rank rows := by
    rw [hrows]
    exact List.countP_append
  have hlisted : row ∈ t.alerts := by
    rw [KeyedTable.mem_iff, hrows]
    exact List.mem_append_left _ hrow
  have hfirst : (OrderedPage.first AlertRow.rank 500 t.alerts.rows).take n =
      OrderedPage.first AlertRow.rank n t.alerts.rows := by
    rw [OrderedPage.first, OrderedPage.first, List.take_take, Nat.min_eq_left hn]
  rw [← hposition, AlertStore.readEpisodes, AlertStore.listAlerts, hlimit, ← List.map_take, hfirst,
    List.mem_map]
  constructor
  · rintro ⟨row', hrow', hepisode⟩
    obtain ⟨hmem, hlt⟩ := (OrderedPage.mem_first_iff hranks).mp hrow'
    have hid : row'.id = row.id := congrArg AlertEpisode.id hepisode
    rwa [KeyedTable.eq_of_key hmem hlisted hid] at hlt
  · intro hlt
    exact ⟨row, (OrderedPage.mem_first_iff hranks).mpr ⟨hlisted, hlt⟩, rfl⟩

namespace EvaluationPass

variable (pass : EvaluationPass text s)

/-- The store that the pass leaves -/
def result : AlertStore := text.evaluateSamples pass.ids s pass.samples

/-- How many of the episodes that the pass opens are listed before a stored one -/
def openingsBefore (row : AlertRow) : ℕ :=
  position AlertRow.rank row.rank ((text.openings s pass.samples).map pass.ids.newRow)

theorem openEpisodes_alerts : (text.openEpisodes pass.ids s pass.samples).alerts.rows =
    s.alerts.rows ++ (text.openings s pass.samples).map pass.ids.newRow :=
  (foldl_openEpisode (nodup_turnKey pass.sources_nodup) pass.ids_nodup pass.ids_new).2.1

theorem mem_readEpisodes (hrow : row ∈ s.alerts) :
    row.episode ∈ (text.openEpisodes pass.ids s pass.samples).readEpisodes ↔
      position AlertRow.rank row.rank s.alerts.rows + pass.openingsBefore row < 500 := by
  have htake := mem_take_readEpisodes pass.openEpisodes_alerts hrow (le_refl 500)
  have hlength : (text.openEpisodes pass.ids s pass.samples).readEpisodes.length ≤ 500 := by
    unfold AlertStore.readEpisodes AlertStore.listAlerts
    rw [List.length_map]
    exact OrderedPage.length_first_le
  rwa [List.take_of_length_le hlength] at htake

end EvaluationPass

/-- What a pass over the samples promises: it resolves the unresolved episodes of the enabled
rules that the sample of their source does not breach, and no others. -/
def ClearsAlerts (text : AlertText φ) (s t : AlertStore) (samples : List (MetricSample φ)) : Prop :=
  ∀ row ∈ s.alerts, row.isResolved = false →
    ∀ rule, s.HasRule rule → rule.id = row.episode.ruleId → rule.enabled = true →
      ∀ sample ∈ samples, sample.source = row.episode.source →
        if text.matchesRule rule sample then row ∈ t.alerts
        else ∃ row' ∈ t.alerts, row'.id = row.id ∧ row'.isResolved = true

namespace EvaluationPass

variable (pass : EvaluationPass text s)

/-- The rules and the episodes of the alerts to be resolved are listed: fewer than 500 rules and
fewer than 500 episodes come before them. -/
def WithinListings : Prop :=
  ∀ row ∈ s.alerts, row.isResolved = false →
    ∀ rule, s.HasRule rule → rule.id = row.episode.ruleId → rule.enabled = true →
      ∀ sample ∈ pass.samples, sample.source = row.episode.source →
        text.matchesRule rule sample = false →
          position RuleRow.id rule.id s.liveRules < 500 ∧
            position AlertRow.rank row.rank s.alerts.rows + pass.openingsBefore row < 500

/-- A row that the second loop has no turn for is left alone. -/
theorem mem_result_of_not_turn (hrow : row ∈ s.alerts)
    (h : ¬((text.clearedAt s.readRules pass.samples row.episode).isSome = true ∧
      row.episode ∈ (text.openEpisodes pass.ids s pass.samples).readEpisodes)) :
    row ∈ pass.result.alerts := by
  have hopened : row ∈ (text.openEpisodes pass.ids s pass.samples).alerts := by
    rw [KeyedTable.mem_iff, pass.openEpisodes_alerts]
    exact List.mem_append_left _ hrow
  apply mem_foldl_resolveEpisode_of_ne hopened
  intro turn hturn hid
  obtain ⟨episode, hlisted, hcleared⟩ := List.mem_filterMap.mp hturn
  obtain ⟨at_, hat, rfl⟩ := Option.map_eq_some_iff.mp hcleared
  -- the listed episode with the id is the one of the row
  obtain ⟨row', hrow', rfl⟩ := List.mem_map.mp hlisted
  have hmem : row' ∈ (text.openEpisodes pass.ids s pass.samples).alerts :=
    OrderedPage.mem_of_mem_first hrow'
  have heq : row' = row := KeyedTable.eq_of_key hmem hopened hid
  subst heq
  exact h ⟨by rw [hat]; rfl, hlisted⟩

theorem result_resolved_of_turn (hrow : row ∈ s.alerts)
    (hcleared : (text.clearedAt s.readRules pass.samples row.episode).isSome = true)
    (hlisted : row.episode ∈ (text.openEpisodes pass.ids s pass.samples).readEpisodes) :
    ∃ row' ∈ pass.result.alerts, row'.id = row.id ∧ row'.isResolved = true := by
  have hopened : row ∈ (text.openEpisodes pass.ids s pass.samples).alerts := by
    rw [KeyedTable.mem_iff, pass.openEpisodes_alerts]
    exact List.mem_append_left _ hrow
  obtain ⟨at_, hat⟩ := Option.isSome_iff_exists.mp hcleared
  apply foldl_resolveEpisode_of_mem hopened
  refine ⟨(row.episode, at_), List.mem_filterMap.mpr ⟨row.episode, hlisted, ?_⟩, rfl⟩
  rw [hat, Option.map_some]

/-- A pass clears the alerts exactly when those to be resolved are within its listings. -/
theorem result_clears_iff :
    ClearsAlerts text s pass.result pass.samples ↔ pass.WithinListings := by
  constructor
  · intro h row hrow hopen rule hrule hid henabled sample hsample hsource hmatch
    have hclears := h row hrow hopen rule hrule hid henabled sample hsample hsource
    rw [hmatch, if_neg Bool.false_ne_true] at hclears
    obtain ⟨row', hrow', hid', hresolved⟩ := hclears
    have hturn : (text.clearedAt s.readRules pass.samples row.episode).isSome = true ∧
        row.episode ∈ (text.openEpisodes pass.ids s pass.samples).readEpisodes := by
      by_contra hnot
      have hkept := pass.mem_result_of_not_turn hrow hnot
      rw [KeyedTable.eq_of_key hrow' hkept hid', hopen] at hresolved
      exact Bool.false_ne_true hresolved
    have hrank := (@clearedAt_of_rule _ text _ _ _ _ _ pass.sources_nodup hopen hrule hid henabled
      hsample hsource).mp hturn.1
    exact ⟨hrank.1, (pass.mem_readEpisodes hrow).mp hturn.2⟩
  · intro h row hrow hopen rule hrule hid henabled sample hsample hsource
    have hcleared := @clearedAt_of_rule _ text _ _ _ _ _ pass.sources_nodup hopen hrule hid
      henabled hsample hsource
    cases hmatch : text.matchesRule rule sample with
    | true =>
      rw [if_pos rfl]
      apply pass.mem_result_of_not_turn hrow
      rintro ⟨hturn, -⟩
      have hclear := (hcleared.mp hturn).2
      rw [hmatch] at hclear
      exact Bool.noConfusion hclear
    | false =>
      rw [if_neg Bool.false_ne_true]
      obtain ⟨hrules, hepisodes⟩ := h row hrow hopen rule hrule hid henabled sample hsample hsource
        hmatch
      exact pass.result_resolved_of_turn hrow (hcleared.mpr ⟨hrules, hmatch⟩)
        ((pass.mem_readEpisodes hrow).mpr hepisodes)

end EvaluationPass

end Pass

section Crowded

/-- The alert with number 500 is the only one that is not resolved. -/
def numberedRow (i : ℕ) : AlertRow where
  openedAt := i
  episode :=
    { id := i
      ruleId := 0
      source := "process:web:1".toList
      cause := "cpu_percent>90".toList
      state := if i < 500 then .resolved else .active
      severity := .warning
      openedAt := i
      resolvedAt := if i < 500 then some (i + 1) else none
      acknowledgedAt := none }

def numberedAlerts (n : ℕ) : KeyedTable AlertRow.id where
  rows := (List.range n).map numberedRow
  unique := by
    have hids : ((List.range n).map numberedRow).map AlertRow.id = List.range n := by
      rw [List.map_map]
      exact List.map_id _
    rw [KeyedRows.Unique, hids]
    exact List.nodup_range

theorem mem_numberedAlerts {i n : ℕ} (h : i < n) : numberedRow i ∈ numberedAlerts n := by
  apply List.mem_map.mpr
  exact ⟨i, List.mem_range.mpr h, rfl⟩

/-- 500 resolved episodes of a rule, and one that is open -/
def crowdedStore : AlertStore :=
  { AlertStore.empty with
    rules := ⟨[⟨loadRule, none⟩], List.nodup_singleton _⟩
    alerts := numberedAlerts 501 }

theorem crowdedStore_breaches :
    decimalText.breaches crowdedStore.readRules [calmSample] = [] := by decide +kernel

def crowdedPass : EvaluationPass decimalText crowdedStore where
  samples := [calmSample]
  ids := ⟨fun _ _ => 501, fun _ _ => 502, fun _ => 503⟩
  sources_nodup := List.nodup_singleton _
  ids_nodup := by
    rw [crowdedStore_breaches]
    exact List.nodup_nil
  ids_new := by
    rw [crowdedStore_breaches]
    exact fun _ h => absurd h List.not_mem_nil

theorem crowdedPass_leaves_alert :
    ¬ ClearsAlerts decimalText crowdedStore crowdedPass.result crowdedPass.samples := by
  intro h
  have hmem : numberedRow 500 ∈ crowdedStore.alerts := mem_numberedAlerts (by decide)
  have hrule : crowdedStore.HasRule loadRule := ⟨⟨loadRule, none⟩, by decide +kernel, rfl⟩
  have hclears := h (numberedRow 500) hmem (by decide) loadRule hrule rfl rfl calmSample
    List.mem_cons_self rfl
  have hcalm : decimalText.matchesRule loadRule calmSample = false := by decide +kernel
  rw [hcalm, if_neg Bool.false_ne_true] at hclears
  obtain ⟨row, hrow, hid, hresolved⟩ := hclears
  have hnone : (crowdedPass.result.alerts.rows.any fun row =>
      row.id = (numberedRow 500).id && row.isResolved) = false := by decide +kernel
  rw [List.any_eq_false] at hnone
  exact hnone row hrow (by simp [hid, hresolved])

end Crowded

end Supervisor
