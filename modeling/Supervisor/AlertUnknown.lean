import Supervisor.AlertClearing

namespace Supervisor

open OrderedPage (position)

/-- How far a pass comes before the daemon stops: to its end, through some calls of the first
loop, or through some episodes of the listing that the second loop goes through. -/
inductive Extent where
  | whole
  | openings (turns : ℕ)
  | resolvings (episodes : ℕ)
deriving DecidableEq

namespace Extent

/-- The turns of the first loop that are done -/
def opens {α : Type} (extent : Extent) (turns : List α) : List α :=
  match extent with
  | .openings n => turns.take n
  | .whole | .resolvings _ => turns

/-- How many episodes of the listing the second loop comes to -/
def episodeLimit : Extent → ℕ
  | .whole => 500
  | .openings _ => 0
  | .resolvings n => min n 500

theorem episodeLimit_le (extent : Extent) : extent.episodeLimit ≤ 500 := by
  cases extent with
  | whole => exact le_rfl
  | openings n => exact Nat.zero_le 500
  | resolvings n => exact Nat.min_le_right n 500

theorem opens_sublist {α : Type} (extent : Extent) (turns : List α) :
    (extent.opens turns).Sublist turns := by
  cases extent with
  | whole => exact List.Sublist.refl turns
  | openings n => exact List.take_sublist n turns
  | resolvings n => exact List.Sublist.refl turns

theorem mem_of_mem_opens {α : Type} {extent : Extent} {turns : List α} {turn : α}
    (h : turn ∈ extent.opens turns) : turn ∈ turns :=
  (extent.opens_sublist turns).subset h

end Extent

namespace AlertText

variable {φ : Type} (text : AlertText φ)

/-- The store after the first loop, as far as it comes -/
def openUntil (extent : Extent) (ids : DrawnIds) (s : AlertStore)
    (samples : List (MetricSample φ)) : AlertStore :=
  (extent.opens (text.breaches s.readRules samples)).foldl (text.openEpisode ids) s

/-- `evaluate_samples`, as far as it comes -/
def evaluateUntil (extent : Extent) (ids : DrawnIds) (s : AlertStore)
    (samples : List (MetricSample φ)) : AlertStore :=
  let opened := text.openUntil extent ids s samples
  (text.clearings s.readRules samples (opened.readEpisodes.take extent.episodeLimit)).foldl
    (AlertStore.resolveEpisode ids) opened

section Known

/-- What a rule sees when the samples without its field are deleted -/
def knownSamples (rule : AlertRule) (samples : List (MetricSample φ)) : List (MetricSample φ) :=
  samples.filter fun sample => !text.lacksField rule sample

/-- `breaches`, where every rule sees its known samples -/
def knownBreaches (rules : List AlertRule) (samples : List (MetricSample φ)) :
    List (MetricSample φ × AlertRule) :=
  samples.flatMap fun sample =>
    (rules.filter fun rule =>
      !text.lacksField rule sample && (rule.enabled && text.matchesRule rule sample)).map (sample, ·)

/-- `clearedAt`, where every rule sees its known samples -/
def knownClearedAt (rules : List AlertRule) (samples : List (MetricSample φ))
    (episode : AlertEpisode) : Option Instant :=
  if episode.state = .resolved then none
  else do
    let rule ← rules.find? fun rule => rule.id = episode.ruleId && rule.enabled
    let sample ← bySource (text.knownSamples rule samples) episode.source
    if text.matchesRule rule sample then none else some sample.occurredAt

def knownClearings (rules : List AlertRule) (samples : List (MetricSample φ))
    (episodes : List AlertEpisode) : List (AlertEpisode × Instant) :=
  episodes.filterMap fun episode => (text.knownClearedAt rules samples episode).map (episode, ·)

/-- `evaluateUntil`, where every rule sees its known samples -/
def evaluateKnown (extent : Extent) (ids : DrawnIds) (s : AlertStore)
    (samples : List (MetricSample φ)) : AlertStore :=
  let opened := (extent.opens (text.knownBreaches s.readRules samples)).foldl
    (text.openEpisode ids) s
  (text.knownClearings s.readRules samples (opened.readEpisodes.take extent.episodeLimit)).foldl
    (AlertStore.resolveEpisode ids) opened

end Known

variable {text : AlertText φ} {s : AlertStore} {ids : DrawnIds} {samples : List (MetricSample φ)}
  {rules : List AlertRule} {rule : AlertRule} {episode : AlertEpisode} {extent : Extent}

theorem knownBreaches_eq : text.knownBreaches rules samples = text.breaches rules samples := by
  unfold knownBreaches breaches
  congr 1
  funext sample
  congr 1
  apply List.filter_congr
  intro rule _
  cases hlacks : text.lacksField rule sample with
  | true => simp [matchesRule_of_lacksField text hlacks]
  | false => simp

theorem bySource_knownSamples (hsources : (samples.map MetricSample.source).Nodup)
    (source : List Char) : bySource (text.knownSamples rule samples) source =
      (bySource samples source).filter fun sample => !text.lacksField rule sample := by
  have hreverse : KeyedRows.Unique MetricSample.source samples.reverse := by
    rw [KeyedRows.Unique, List.map_reverse]
    exact List.nodup_reverse.mpr hsources
  have hone := hreverse.find?_eq_filter (k := source)
    (p := fun sample => (!text.lacksField rule sample) = true ∧ decide (sample.source = source) = true)
    fun sample hsample => of_decide_eq_true (of_decide_eq_true hsample).2
  have hsource : bySource samples source = KeyedRows.find MetricSample.source source
    samples.reverse := rfl
  unfold knownSamples
  rw [bySource, ← List.filter_reverse, List.find?_filter, hone, hsource]
  cases hfind : KeyedRows.find MetricSample.source source samples.reverse with
  | none => rfl
  | some sample => simp [Option.filter_some, KeyedRows.find_key hfind]

/-- The sample of the episode's source lacks the field that its rule measures. -/
def missing (text : AlertText φ) (rules : List AlertRule) (samples : List (MetricSample φ))
    (episode : AlertEpisode) : Bool :=
  (rules.find? fun rule => rule.id = episode.ruleId && rule.enabled).any fun rule =>
    (bySource samples episode.source).any fun sample => text.lacksField rule sample

/-- The two second loops differ in the episodes whose samples lack the field. -/
theorem knownClearedAt_eq (hsources : (samples.map MetricSample.source).Nodup) :
    text.knownClearedAt rules samples episode =
      if text.missing rules samples episode = true then none
      else text.clearedAt rules samples episode := by
  unfold knownClearedAt clearedAt missing
  by_cases hresolved : episode.state = .resolved
  · simp [hresolved]
  · rw [if_neg hresolved, if_neg hresolved]
    cases rules.find? fun rule => rule.id = episode.ruleId && rule.enabled with
    | none => rfl
    | some rule =>
      have hknown := @bySource_knownSamples _ text _ rule hsources episode.source
      simp only [Option.bind_eq_bind, Option.bind_some, hknown, Option.any_some]
      cases bySource samples episode.source with
      | none => rfl
      | some sample =>
        cases hlacks : text.lacksField rule sample with
        | true => simp [Option.filter_some, hlacks]
        | false => simp [Option.filter_some, hlacks]

theorem clearedAt_of_missing (hmissing : text.missing rules samples episode = true)
    (hopen : episode.state ≠ .resolved) :
    (text.clearedAt rules samples episode).isSome = true := by
  unfold missing at hmissing
  unfold clearedAt
  rw [if_neg hopen]
  obtain ⟨rule, hrule, hany⟩ := (Option.any_eq_true _ _).mp hmissing
  obtain ⟨sample, hsample, hlacks⟩ := (Option.any_eq_true _ _).mp hany
  simp [hrule, hsample, matchesRule_of_lacksField text hlacks]

theorem missing_iff (hsources : (samples.map MetricSample.source).Nodup) :
    text.missing s.readRules samples episode = true ↔
      ∃ rule ∈ s.readRules, rule.id = episode.ruleId ∧ rule.enabled = true ∧
        ∃ sample ∈ samples, sample.source = episode.source ∧
          text.lacksField rule sample = true := by
  unfold missing
  constructor
  · intro h
    obtain ⟨rule, hrule, hany⟩ := (Option.any_eq_true _ _).mp h
    obtain ⟨sample, hsample, hlacks⟩ := (Option.any_eq_true _ _).mp hany
    have hboth : (decide (rule.id = episode.ruleId) && rule.enabled) = true :=
      List.find?_some (p := fun r : AlertRule => decide (r.id = episode.ruleId) && r.enabled) hrule
    have htest := Bool.and_eq_true_iff.mp hboth
    refine ⟨rule, List.mem_of_find?_eq_some hrule, of_decide_eq_true htest.1, htest.2, sample,
      List.mem_reverse.mp (List.mem_of_find?_eq_some hsample), ?_, hlacks⟩
    exact of_decide_eq_true (List.find?_some (p := fun sample : MetricSample φ =>
      decide (sample.source = episode.source)) hsample)
  · rintro ⟨rule, hrule, hid, henabled, sample, hsample, hsource, hlacks⟩
    have hfind := find_rule hrule henabled
    have hbySource := bySource_of_mem hsources hsample
    rw [hid] at hfind
    rw [hsource] at hbySource
    simp [hfind, hbySource, hlacks]

end AlertText

/-- What the collector and the drawing of ids grant for a pass over a store -/
structure AlertText.Admits {φ : Type} (text : AlertText φ) (s : AlertStore) (ids : DrawnIds)
    (samples : List (MetricSample φ)) : Prop where
  sources_nodup : (samples.map MetricSample.source).Nodup
  ids_nodup : ((text.breaches s.readRules samples).map ids.ofTurn).Nodup
  ids_new : ∀ turn ∈ text.breaches s.readRules samples, ids.IsNew s turn

namespace AlertText

variable {φ : Type} (text : AlertText φ)

/-- The rows that the pass adds -/
def openedRows (extent : Extent) (ids : DrawnIds) (s : AlertStore)
    (samples : List (MetricSample φ)) : List AlertRow :=
  ((extent.opens (text.breaches s.readRules samples)).filter fun turn =>
    !s.episodeKeys.has (text.turnKey turn)).map ids.newRow

/-- No sample lacks the field of a listed rule that has an unresolved episode for its source, as
far as the second loop comes in the listing of the episodes. -/
def SeesAll (extent : Extent) (ids : DrawnIds) (s : AlertStore)
    (samples : List (MetricSample φ)) : Prop :=
  ∀ row ∈ s.alerts.rows, row.isResolved = false →
    ∀ rule ∈ s.readRules, rule.id = row.episode.ruleId → rule.enabled = true →
      ∀ sample ∈ samples, sample.source = row.episode.source →
        text.lacksField rule sample = true →
          extent.episodeLimit ≤ position AlertRow.rank row.rank s.alerts.rows +
            position AlertRow.rank row.rank (text.openedRows extent ids s samples)

variable {text} {s : AlertStore} {ids : DrawnIds} {samples : List (MetricSample φ)}
  {extent : Extent}

/-- What the first loop leaves -/
theorem openUntil_rows (h : text.Admits s ids samples) (extent : Extent) :
    (text.openUntil extent ids s samples).rules = s.rules ∧
      (text.openUntil extent ids s samples).alerts.rows =
        s.alerts.rows ++ text.openedRows extent ids s samples ∧
      (text.openUntil extent ids s samples).episodeKeys.rows = s.episodeKeys.rows ++
        ((extent.opens (text.breaches s.readRules samples)).filter fun turn =>
          !s.episodeKeys.has (text.turnKey turn)).map fun turn =>
            ⟨text.turnKey turn, ids.ofTurn turn⟩ := by
  have hsublist := extent.opens_sublist (text.breaches s.readRules samples)
  apply foldl_openEpisode
  · exact (nodup_turnKey h.sources_nodup).sublist (hsublist.map text.turnKey)
  · exact h.ids_nodup.sublist (hsublist.map ids.ofTurn)
  · exact fun turn hturn => h.ids_new turn (hsublist.subset hturn)

theorem mem_openUntil (h : text.Admits s ids samples) {row : AlertRow} :
    row ∈ (text.openUntil extent ids s samples).alerts ↔
      row ∈ s.alerts ∨ ∃ turn ∈ extent.opens (text.breaches s.readRules samples),
        s.episodeKeys.has (text.turnKey turn) = false ∧ ids.newRow turn = row := by
  rw [KeyedTable.mem_iff, (openUntil_rows h extent).2.1, List.mem_append, openedRows, List.mem_map]
  apply or_congr_right
  simp only [List.mem_filter, Bool.not_eq_true', and_assoc]

theorem mem_breaches {rules : List AlertRule} {turn : MetricSample φ × AlertRule} :
    turn ∈ text.breaches rules samples ↔ turn.1 ∈ samples ∧ turn.2 ∈ rules ∧
      turn.2.enabled = true ∧ text.matchesRule turn.2 turn.1 = true := by
  unfold breaches
  rw [List.mem_flatMap]
  constructor
  · rintro ⟨sample, hsample, hturn⟩
    obtain ⟨rule, hrule, rfl⟩ := List.mem_map.mp hturn
    obtain ⟨hlisted, htest⟩ := List.mem_filter.mp hrule
    exact ⟨hsample, hlisted, Bool.and_eq_true_iff.mp htest⟩
  · rintro ⟨hsample, hrule, htest⟩
    refine ⟨turn.1, hsample, List.mem_map.mpr ⟨turn.2, ?_, rfl⟩⟩
    exact List.mem_filter.mpr ⟨hrule, Bool.and_eq_true_iff.mpr htest⟩

/-- An episode that has just been opened is not missing its sample. -/
theorem not_missing_newRow (h : text.Admits s ids samples) {turn : MetricSample φ × AlertRule}
    (hturn : turn ∈ text.breaches s.readRules samples) :
    text.missing s.readRules samples (ids.newRow turn).episode = false := by
  obtain ⟨hsample, hrule, henabled, hmatch⟩ := mem_breaches.mp hturn
  rw [← Bool.not_eq_true, missing_iff h.sources_nodup]
  rintro ⟨rule, hrule', hid, -, sample, hsample', hsource, hlacks⟩
  have hunique : KeyedRows.Unique AlertRule.id s.readRules := nodup_readRules
  have hsame : rule = turn.2 := hunique.eq_of_key hrule' hrule hid
  have hsources : KeyedRows.Unique MetricSample.source samples := h.sources_nodup
  have hsame' : sample = turn.1 := hsources.eq_of_key hsample' hsample hsource
  rw [hsame, hsame'] at hlacks
  rw [matchesRule_of_lacksField text hlacks] at hmatch
  exact Bool.noConfusion hmatch

/-- Deleting the samples without the field changes nothing exactly when the pass sees all. -/
theorem evaluateKnown_eq_iff (h : text.Admits s ids samples) :
    text.evaluateUntil extent ids s samples = text.evaluateKnown extent ids s samples ↔
      text.SeesAll extent ids s samples := by
  have hlisted {row : AlertRow} (hrow : row ∈ s.alerts) := mem_take_readEpisodes
    (openUntil_rows h extent).2.1 hrow extent.episodeLimit_le
  have hknown : text.evaluateKnown extent ids s samples =
      (text.knownClearings s.readRules samples
        ((text.openUntil extent ids s samples).readEpisodes.take extent.episodeLimit)).foldl
          (AlertStore.resolveEpisode ids) (text.openUntil extent ids s samples) := by
    unfold evaluateKnown openUntil
    rw [knownBreaches_eq]
  constructor
  · intro heq row hrow hopen rule hrule hid henabled sample hsample hsource hlacks
    by_contra hfar
    have hepisode := (hlisted hrow).mpr (not_le.mp hfar)
    have hmissing : text.missing s.readRules samples row.episode = true :=
      (missing_iff h.sources_nodup).mpr
        ⟨rule, hrule, hid, henabled, sample, hsample, hsource, hlacks⟩
    have hopened : row ∈ (text.openUntil extent ids s samples).alerts :=
      (mem_openUntil h).mpr (.inl hrow)
    -- the pass resolves the episode
    obtain ⟨at_, hat⟩ := Option.isSome_iff_exists.mp
      (clearedAt_of_missing hmissing (of_decide_eq_false hopen))
    have hturn : (row.episode, at_) ∈ text.clearings s.readRules samples
        ((text.openUntil extent ids s samples).readEpisodes.take extent.episodeLimit) := by
      apply List.mem_filterMap.mpr
      exact ⟨row.episode, hepisode, by rw [hat, Option.map_some]⟩
    obtain ⟨row', hrow', hid', hresolved⟩ := @foldl_resolveEpisode_of_mem _ ids _ _ hopened
      ⟨_, hturn, rfl⟩
    -- the reference leaves it alone
    have hkept : row ∈ (text.evaluateKnown extent ids s samples).alerts := by
      rw [hknown]
      apply mem_foldl_resolveEpisode_of_ne hopened
      intro turn hturn hturnId
      obtain ⟨episode, hmem, hcleared⟩ := List.mem_filterMap.mp hturn
      obtain ⟨at', hat', rfl⟩ := Option.map_eq_some_iff.mp hcleared
      obtain ⟨other, hother, rfl⟩ := List.mem_map.mp (List.mem_of_mem_take hmem)
      have hsame : other = row :=
        KeyedTable.eq_of_key (OrderedPage.mem_of_mem_first hother) hopened hturnId
      rw [hsame, knownClearedAt_eq h.sources_nodup, if_pos hmissing] at hat'
      exact absurd hat' (Option.some_ne_none at').symm
    rw [← heq] at hkept
    rw [KeyedTable.eq_of_key hrow' hkept hid', hopen] at hresolved
    exact Bool.noConfusion hresolved
  · intro hsees
    have hclearings : text.knownClearings s.readRules samples
        ((text.openUntil extent ids s samples).readEpisodes.take extent.episodeLimit) =
        text.clearings s.readRules samples
          ((text.openUntil extent ids s samples).readEpisodes.take extent.episodeLimit) := by
      apply List.filterMap_congr
      intro episode hepisode
      rw [knownClearedAt_eq h.sources_nodup]
      obtain ⟨row, hrow, rfl⟩ := List.mem_map.mp (List.mem_of_mem_take hepisode)
      by_cases hmissing : text.missing s.readRules samples row.episode = true
      · rw [if_pos hmissing]
        rcases (mem_openUntil h).mp (OrderedPage.mem_of_mem_first hrow) with hold | hnew
        · -- an old episode that misses its sample is resolved
          by_cases hopen : row.isResolved = false
          · obtain ⟨rule, hrule, hid, henabled, sample, hsample, hsource, hlacks⟩ :=
              (missing_iff h.sources_nodup).mp hmissing
            have hfar := hsees row hold hopen rule hrule hid henabled sample hsample hsource hlacks
            exact absurd ((hlisted hold).mp hepisode) (not_lt.mpr hfar)
          · have hresolved : row.episode.state = .resolved := by
              simpa [AlertRow.isResolved] using hopen
            unfold clearedAt
            rw [if_pos hresolved]
        · obtain ⟨turn, hturn, -, rfl⟩ := hnew
          rw [not_missing_newRow h (Extent.mem_of_mem_opens hturn)] at hmissing
          exact Bool.noConfusion hmissing
      · rw [if_neg hmissing]
    rw [hknown, hclearings]
    rfl

end AlertText

end Supervisor
