import Supervisor.AlertStore

namespace Supervisor

namespace AlertStore

section Retain

variable {α : Type} {key : α → Uuid} {rank : α → Instant ×ₗ Uuid} {isSubject : α → Bool}
  {cutoff : Instant} {t : KeyedTable key} {row : α}

/-- A rank orders by a time and then by the key. -/
def RanksKey (key : α → Uuid) (rank : α → Instant ×ₗ Uuid) : Prop :=
  ∀ row, (ofLex (rank row)).2 = key row

/-- The rows that the first delete leaves to the second one -/
def youngSubjects (rank : α → Instant ×ₗ Uuid) (isSubject : α → Bool) (cutoff : Instant)
    (t : KeyedTable key) : List α :=
  t.rows.filter fun row => isSubject row && decide (cutoff ≤ (ofLex (rank row)).1)

/-- The rows under the retention that are newer than a row -/
def newerCount (rank : α → Instant ×ₗ Uuid) (isSubject : α → Bool) (t : KeyedTable key)
    (row : α) : ℕ :=
  t.rows.countP fun row' => isSubject row' && decide (rank row < rank row')

theorem nodup_rank (hrank : RanksKey key rank) {rows : List α} (hrows : (rows.map key).Nodup) :
    (rows.map fun row => OrderDual.toDual (rank row)).Nodup := by
  have hkeys : rows.map key =
      (rows.map fun row => OrderDual.toDual (rank row)).map fun r =>
        (ofLex (OrderDual.ofDual r)).2 := by
    rw [List.map_map]
    exact List.map_congr_left fun row _ => (hrank row).symm
  rw [hkeys] at hrows
  exact hrows.of_map

theorem youngSubjects_nodup :
    ((youngSubjects rank isSubject cutoff t).map key).Nodup :=
  t.unique.sublist (List.filter_sublist.map key)

theorem mem_youngSubjects : row ∈ youngSubjects rank isSubject cutoff t ↔
    row ∈ t ∧ isSubject row = true ∧ cutoff ≤ (ofLex (rank row)).1 := by
  rw [youngSubjects, List.mem_filter, Bool.and_eq_true, decide_eq_true_eq]
  exact .rfl

/-- What is kept of a table: the rows that are not subject to the retention, and of the others
the newest ones that are young. -/
theorem mem_retain (hrank : RanksKey key rank) : row ∈ retain rank isSubject cutoff t ↔
    row ∈ t ∧ (isSubject row = true → row ∈ OrderedPage.first
      (fun row => OrderDual.toDual (rank row)) completedRecordLimit
      (youngSubjects rank isSubject cutoff t)) := by
  have hrows : (t.filter fun row => !(isSubject row && (ofLex (rank row)).1 < cutoff)).rows.filter
      isSubject = youngSubjects rank isSubject cutoff t := by
    rw [youngSubjects, KeyedTable.filter, List.filter_filter]
    apply List.filter_congr
    intro row _
    rcases lt_or_ge (ofLex (rank row)).1 cutoff with hlt | hle
    · simp [hlt, not_le.mpr hlt]
    · simp [hle, not_lt.mpr hle]
  unfold retain
  simp only [hrows]
  rw [KeyedTable.mem_filter, KeyedTable.mem_filter, and_assoc]
  apply and_congr_right
  intro hrow
  have hnodup := nodup_rank hrank (@youngSubjects_nodup _ _ rank isSubject cutoff t)
  -- the delete goes by the ids of the rows that it selects
  have hold : ((OrderedPage.beyond (fun row => OrderDual.toDual (rank row)) completedRecordLimit
      (youngSubjects rank isSubject cutoff t)).all fun row' => key row' ≠ key row) = true ↔
      row ∉ OrderedPage.beyond (fun row => OrderDual.toDual (rank row)) completedRecordLimit
        (youngSubjects rank isSubject cutoff t) := by
    rw [List.all_eq_true]
    constructor
    · intro hall hmem
      simpa using hall row hmem
    · intro hnot row' hrow'
      rw [decide_eq_true_eq]
      intro hkey
      have hyoung := mem_youngSubjects.mp (OrderedPage.mem_of_mem_beyond hrow')
      exact hnot (KeyedTable.eq_of_key hyoung.1 hrow hkey ▸ hrow')
  rw [hold, OrderedPage.mem_beyond_iff hnodup, OrderedPage.mem_first_iff hnodup,
    mem_youngSubjects]
  simp only [Bool.not_eq_true', Bool.and_eq_false_imp, decide_eq_false_iff_not, not_lt, hrow,
    true_and, not_and, not_le]
  constructor
  · rintro ⟨hage, hposition⟩ hsubject
    exact ⟨⟨hsubject, hage hsubject⟩, hposition ⟨hsubject, hage hsubject⟩⟩
  · intro h
    exact ⟨fun hsubject => (h hsubject).1.2, fun hyoung => (h hyoung.1).2⟩

theorem retain_subset (hrank : RanksKey key rank) (h : row ∈ retain rank isSubject cutoff t) :
    row ∈ t :=
  ((mem_retain hrank).mp h).1

/-- The rows under the retention that are kept -/
theorem retain_perm (hrank : RanksKey key rank) :
    ((retain rank isSubject cutoff t).rows.filter isSubject).Perm
      (OrderedPage.first (fun row => OrderDual.toDual (rank row)) completedRecordLimit
        (youngSubjects rank isSubject cutoff t)) := by
  have hnodup := nodup_rank hrank (@youngSubjects_nodup _ _ rank isSubject cutoff t)
  have hkept : ((retain rank isSubject cutoff t).rows.filter isSubject).Nodup :=
    ((retain rank isSubject cutoff t).unique.sublist (List.filter_sublist.map key)).of_map
  rw [List.perm_ext_iff_of_nodup hkept (OrderedPage.nodup_first hnodup).of_map]
  intro row
  rw [List.mem_filter]
  constructor
  · rintro ⟨hrow, hsubject⟩
    exact ((mem_retain hrank).mp hrow).2 hsubject
  · intro hfirst
    have hyoung := mem_youngSubjects.mp (OrderedPage.mem_of_mem_first hfirst)
    exact ⟨(mem_retain hrank).mpr ⟨hyoung.1, fun _ => hfirst⟩, hyoung.2.1⟩

theorem retain_count_eq (hrank : RanksKey key rank) :
    (retain rank isSubject cutoff t).rows.countP isSubject =
      min completedRecordLimit (youngSubjects rank isSubject cutoff t).length := by
  rw [List.countP_eq_length_filter, (retain_perm hrank).length_eq, OrderedPage.first,
    List.length_take, OrderedPage.ordered, List.length_insertionSort]

theorem retain_count_le (hrank : RanksKey key rank) :
    (retain rank isSubject cutoff t).rows.countP isSubject ≤ completedRecordLimit := by
  rw [retain_count_eq hrank]
  exact Nat.min_le_left _ _

theorem newerCount_eq (h : ∀ row' ∈ t, isSubject row' = true → rank row < rank row') :
    newerCount rank isSubject t row = t.rows.countP isSubject := by
  apply List.countP_congr
  intro row' hrow'
  by_cases hsubject : isSubject row' = true
  · simp [hsubject, h row' hrow' hsubject]
  · simp [hsubject]

theorem rank_lt_of_old {row' : α} (hold : (ofLex (rank row)).1 < cutoff)
    (hyoung : cutoff ≤ (ofLex (rank row')).1) : rank row < rank row' :=
  Prod.Lex.lt_iff.mpr (.inl (lt_of_lt_of_le hold hyoung))

/-- A removed row is older than the cutoff, or than as many kept rows as the bound allows. -/
theorem removed_of_retain (hrank : RanksKey key rank) (hrow : row ∈ t)
    (hgone : row ∉ retain rank isSubject cutoff t) :
    isSubject row = true ∧ ((ofLex (rank row)).1 < cutoff ∨
      completedRecordLimit ≤ newerCount rank isSubject (retain rank isSubject cutoff t) row) := by
  rw [mem_retain hrank, not_and, Classical.not_imp] at hgone
  obtain ⟨hsubject, hfirst⟩ := hgone hrow
  refine ⟨hsubject, ?_⟩
  rcases lt_or_ge (ofLex (rank row)).1 cutoff with hlt | hle
  · exact .inl hlt
  · right
    have hnodup := nodup_rank hrank (@youngSubjects_nodup _ _ rank isSubject cutoff t)
    have hyoung := mem_youngSubjects.mpr ⟨hrow, hsubject, hle⟩
    have hposition : completedRecordLimit ≤ OrderedPage.position
        (fun row => OrderDual.toDual (rank row)) (OrderDual.toDual (rank row))
        (youngSubjects rank isSubject cutoff t) := by
      by_contra hlt
      exact hfirst ((OrderedPage.mem_first_iff hnodup).mpr ⟨hyoung, by omega⟩)
    have hlength : completedRecordLimit ≤ (youngSubjects rank isSubject cutoff t).length :=
      hposition.trans List.countP_le_length
    have hcount := @retain_count_eq _ _ _ isSubject cutoff t hrank
    have hall : ∀ row' ∈ retain rank isSubject cutoff t, isSubject row' = true →
        rank row < rank row' := by
      intro row' hrow' hsubject'
      have hfirst' := ((mem_retain hrank).mp hrow').2 hsubject'
      have hposition' := ((OrderedPage.mem_first_iff hnodup).mp hfirst').2
      -- a row that is not newer has at least as many rows before it
      by_contra hnot
      have hmono : OrderedPage.position (fun row => OrderDual.toDual (rank row))
          (OrderDual.toDual (rank row)) (youngSubjects rank isSubject cutoff t) ≤
          OrderedPage.position (fun row => OrderDual.toDual (rank row))
            (OrderDual.toDual (rank row')) (youngSubjects rank isSubject cutoff t) := by
        apply List.countP_mono_left
        intro r _ hr
        rw [decide_eq_true_eq] at hr ⊢
        exact lt_of_lt_of_le hr (OrderDual.toDual_le_toDual.mpr (not_lt.mp hnot))
      omega
    rw [newerCount_eq hall, hcount]
    omega

theorem mem_retain_of_old (hrank : RanksKey key rank) (hrow : row ∈ t)
    (hold : (ofLex (rank row)).1 < cutoff) :
    row ∈ retain rank isSubject cutoff t ↔ isSubject row = false := by
  rw [mem_retain hrank]
  constructor
  · rintro ⟨-, hfirst⟩
    by_contra hsubject
    have hyoung := mem_youngSubjects.mp (OrderedPage.mem_of_mem_first (hfirst (by simpa using hsubject)))
    exact absurd hyoung.2.2 (not_le.mpr hold)
  · intro hsubject
    exact ⟨hrow, fun h => absurd h (by simp [hsubject])⟩

end Retain

section Maintain

variable {φ : Type} {text : AlertText φ} {s t : AlertStore} {now : Instant} {row : AlertRow}

/-- What a retention pass promises about the store `t` that it leaves of `s`. -/
structure RetentionSafe (s t : AlertStore) (now : Instant) : Prop where
  events_le : t.events.rows.length ≤ completedRecordLimit
  attempts_le : t.attempts.rows.length ≤ completedRecordLimit
  resolved_le : t.alerts.rows.countP AlertRow.isResolved ≤ completedRecordLimit
  events_removed : ∀ event ∈ s.events, event ∉ t.events →
    event.occurredAt < completedCutoff now ∨
      completedRecordLimit ≤ newerCount OperatorEvent.rank (fun _ => true) t.events event
  attempts_removed : ∀ attempt ∈ s.attempts, attempt ∉ t.attempts →
    attempt.occurredAt < completedCutoff now ∨
      completedRecordLimit ≤ newerCount DeliveryAttempt.rank (fun _ => true) t.attempts attempt
  alerts_removed : ∀ row ∈ s.alerts, row ∉ t.alerts → row.isResolved = true ∧
    (row.openedAt < completedCutoff now ∨
      completedRecordLimit ≤ newerCount AlertRow.rank AlertRow.isResolved t.alerts row)
  /-- A resolved episode stays for the retention period after it was resolved. -/
  resolved_kept : ∀ row ∈ s.alerts, row.isResolved = true →
    ∀ resolvedAt ∈ row.episode.resolvedAt, completedCutoff now ≤ resolvedAt →
      row ∈ t.alerts ∨
        completedRecordLimit ≤ newerCount AlertRow.rank AlertRow.isResolved t.alerts row
  unresolved_kept : ∀ row ∈ s.alerts, row.isResolved = false → row ∈ t.alerts
  keys_kept : ∀ key ∈ s.episodeKeys, ∀ row ∈ s.alerts, row.id = key.alertId →
    row.isResolved = false → key ∈ t.episodeKeys
  /-- An open condition does not open a second episode. -/
  not_reopened : ∀ key ∈ s.episodeKeys, ∀ row ∈ s.alerts, row.id = key.alertId →
    row.isResolved = false → ∀ episode,
      t.upsertAlertEpisode episode key.dedupeKey = some (false, t)

/-- Every resolved episode that was opened before the cutoff was also resolved before it, or the
count bound is used up by younger ones. -/
def AgedTogether (s : AlertStore) (now : Instant) : Prop :=
  ∀ row ∈ s.alerts, row.isResolved = true → row.openedAt < completedCutoff now →
    (∀ resolvedAt ∈ row.episode.resolvedAt, resolvedAt < completedCutoff now) ∨
      completedRecordLimit ≤
        s.alerts.rows.countP fun row => row.isResolved && completedCutoff now ≤ row.openedAt

theorem ranksKey_event : RanksKey OperatorEvent.id OperatorEvent.rank := fun _ => rfl

theorem ranksKey_attempt : RanksKey DeliveryAttempt.id DeliveryAttempt.rank := fun _ => rfl

theorem ranksKey_alert : RanksKey AlertRow.id AlertRow.rank := fun _ => rfl

theorem maintain_alerts : (s.maintain text now).alerts =
    retain AlertRow.rank AlertRow.isResolved (completedCutoff now) s.alerts := by
  have hsubject : (fun row : AlertRow => like resolvedPattern (text.payload row.episode)) =
      AlertRow.isResolved := by
    funext row
    exact like_payload text row.episode
  unfold maintain
  simp only [hsubject]

theorem maintain_keeps_unresolved (hrow : row ∈ s.alerts) (hopen : row.isResolved = false) :
    row ∈ (s.maintain text now).alerts := by
  rw [maintain_alerts, mem_retain ranksKey_alert]
  exact ⟨hrow, fun h => absurd h (by simp [hopen])⟩

theorem maintain_keeps_key {key : EpisodeKey} (hkey : key ∈ s.episodeKeys) (hrow : row ∈ s.alerts)
    (hid : row.id = key.alertId) (hopen : row.isResolved = false) :
    key ∈ (s.maintain text now).episodeKeys := by
  apply KeyedTable.mem_filter.mpr
  refine ⟨hkey, KeyedTable.has_iff.mpr ⟨row, ?_, hid⟩⟩
  exact @maintain_keeps_unresolved _ text _ _ _ hrow hopen

theorem upsertAlertEpisode_of_key {key : EpisodeKey} (hkey : key ∈ s.episodeKeys)
    (episode : AlertEpisode) :
    s.upsertAlertEpisode episode key.dedupeKey = some (false, s) := by
  have htaken : s.episodeKeys.insert ⟨key.dedupeKey, episode.id⟩ = none :=
    KeyedTable.insert_eq_none.mpr ⟨key, hkey, rfl⟩
  rw [upsertAlertEpisode, htaken]

theorem length_retain_le {α : Type} {key : α → Uuid} {rank : α → Instant ×ₗ Uuid}
    (hrank : RanksKey key rank) (cutoff : Instant) (t : KeyedTable key) :
    (retain rank (fun _ => true) cutoff t).rows.length ≤ completedRecordLimit := by
  have hle := @retain_count_le _ _ _ (fun _ => true) cutoff t hrank
  rwa [List.countP_true] at hle

theorem newerCount_maintain (hold : row.openedAt < completedCutoff now) :
    newerCount AlertRow.rank AlertRow.isResolved (s.maintain text now).alerts row =
      min completedRecordLimit
        (s.alerts.rows.countP fun row => row.isResolved && completedCutoff now ≤ row.openedAt) := by
  rw [maintain_alerts, newerCount_eq, retain_count_eq ranksKey_alert, youngSubjects,
    ← List.countP_eq_length_filter]
  · rfl
  · intro row' hrow' hresolved
    have hfirst := ((mem_retain ranksKey_alert).mp hrow').2 hresolved
    have hyoung := mem_youngSubjects.mp (OrderedPage.mem_of_mem_first hfirst)
    exact rank_lt_of_old hold hyoung.2.2

/-- A retention pass keeps its promises exactly when no resolved episode outlives the age of its
opening, or the count bound is used up. -/
theorem maintain_safe_iff (text : AlertText φ) (s : AlertStore) (now : Instant) :
    RetentionSafe s (s.maintain text now) now ↔ AgedTogether s now := by
  constructor
  · intro h row hrow hresolved hold
    by_cases hlate : ∀ resolvedAt ∈ row.episode.resolvedAt, resolvedAt < completedCutoff now
    · exact .inl hlate
    · push Not at hlate
      obtain ⟨resolvedAt, hat, hle⟩ := hlate
      right
      have hgone : row ∉ (s.maintain text now).alerts := by
        rw [maintain_alerts, mem_retain_of_old ranksKey_alert hrow hold]
        simp [hresolved]
      have hnewer := (h.resolved_kept row hrow hresolved resolvedAt hat hle).resolve_left hgone
      rw [newerCount_maintain hold] at hnewer
      exact hnewer.trans (Nat.min_le_right _ _)
  · intro h
    have hremoved (row : AlertRow) (hrow : row ∈ s.alerts)
        (hgone : row ∉ (s.maintain text now).alerts) := by
      rw [maintain_alerts] at hgone
      have hcase := removed_of_retain ranksKey_alert hrow hgone
      rwa [← @maintain_alerts _ text _ _] at hcase
    exact
      { events_le := length_retain_le ranksKey_event _ _
        attempts_le := length_retain_le ranksKey_attempt _ _
        resolved_le := by
          rw [maintain_alerts]
          exact retain_count_le ranksKey_alert
        events_removed := fun event hevent hgone =>
          (removed_of_retain ranksKey_event hevent hgone).2
        attempts_removed := fun attempt hattempt hgone =>
          (removed_of_retain ranksKey_attempt hattempt hgone).2
        alerts_removed := hremoved
        resolved_kept := by
          intro row hrow hresolved resolvedAt hat hle
          by_cases hgone : row ∈ (s.maintain text now).alerts
          · exact .inl hgone
          · right
            rcases (hremoved row hrow hgone).2 with hold | hcount
            · -- an old episode was resolved long ago, or gives way to enough younger ones
              rcases h row hrow hresolved hold with hlate | hcount
              · exact absurd (hlate resolvedAt hat) (not_lt.mpr hle)
              · rw [newerCount_maintain hold]
                exact le_min le_rfl hcount
            · exact hcount
        unresolved_kept := fun row hrow hopen => maintain_keeps_unresolved hrow hopen
        keys_kept := fun key hkey row hrow hid hopen => maintain_keeps_key hkey hrow hid hopen
        not_reopened := fun key hkey row hrow hid hopen episode =>
          upsertAlertEpisode_of_key (maintain_keeps_key hkey hrow hid hopen) episode }

/-- An alert that is open for longer than the retention period -/
def longEpisode : AlertEpisode where
  id := 1
  ruleId := 0
  source := "process:web:1".toList
  cause := "cpu_percent>90".toList
  state := .active
  severity := .warning
  openedAt := 0
  resolvedAt := none
  acknowledgedAt := none

def dayStart (day : ℕ) : Instant := day * 24 * 3600 * nanosPerSec

def longEpisodeResolved : AlertEpisode :=
  { longEpisode with state := .resolved, resolvedAt := some (dayStart 40) }

/-- The next retention pass removes it, a day after it was resolved. -/
theorem longEpisode_removed :
    ∃ s t, empty.upsertAlertEpisode longEpisode
        (decimalText.dedupeKey 0 longEpisode.source longEpisode.cause) = some (true, s) ∧
      s.resolveAlertEpisode longEpisodeResolved = (true, t) ∧
      ¬ RetentionSafe t (t.maintain decimalText (dayStart 41)) (dayStart 41) := by
  refine ⟨_, _, rfl, rfl, fun h => ?_⟩
  have hkept := h.resolved_kept ⟨0, longEpisodeResolved⟩ (by decide +kernel) (by decide +kernel)
    (dayStart 40) (by decide +kernel) (by decide +kernel)
  exact absurd hkept (by decide +kernel)

end Maintain

end AlertStore

end Supervisor
