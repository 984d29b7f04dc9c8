import Supervisor.EvidenceSystem
import Supervisor.LedgerTables

namespace Supervisor

/-- The run that a key names -/
def EventKey.run : EventKey → Option JobRunId
  | .overflow runId | .start runId | .retry runId | .finalized runId => some runId
  | .recovery _ _ _ _ runId => runId
  | .claim _ | .queued _ | .generation _ _ | .restart _ _ _ => none

/-- The run has a row. -/
def Store.HasRun (s : Store) (runId : JobRunId) : Prop := ∃ run ∈ s.runs, run.runId = runId

/-- What the committed transitions say of the row of an occurrence. -/
structure RowNoted (log : List Notice) (s : Store) (d : DurableScheduleOccurrence) : Prop where
  waits : d.state.isWaiting = true ↔ d.runId = none
  queued : d.state = .queued → Noted log (.queued d.key)
  hasRun : ∀ r, d.runId = some r → s.HasRun r
  notRetried : ∀ r, d.runId = some r → ¬Noted log (.retry r)
  notRecovered : ∀ r, d.runId = some r → ∀ jobId triggerId revision scheduledAt,
    ¬Noted log (.recovery jobId triggerId revision scheduledAt (some r))
  notFinalized : ∀ r, d.runId = some r → d.state = .running → ¬Noted log (.finalized r)

/-- The run of the row is not one that the new transitions name. -/
theorem RowNoted.append {log notices : List Notice} {s t : Store} {d : DurableScheduleOccurrence}
    (h : RowNoted log s d) (hruns : ∀ r, s.HasRun r → t.HasRun r)
    (hother : ∀ n ∈ notices, ∀ r, n.transition.key.run = some r → d.runId ≠ some r) :
    RowNoted (log ++ notices) t d where
  waits := h.waits
  queued hstate := noted_append.mpr (.inl (h.queued hstate))
  hasRun r hr := hruns r (h.hasRun r hr)
  notRetried r hr hnoted := by
    rcases noted_append.mp hnoted with hnoted | ⟨n, hn, hkey⟩
    · exact h.notRetried r hr hnoted
    · exact hother n hn r (by rw [hkey]; rfl) hr
  notRecovered r hr jobId triggerId revision scheduledAt hnoted := by
    rcases noted_append.mp hnoted with hnoted | ⟨n, hn, hkey⟩
    · exact h.notRecovered r hr jobId triggerId revision scheduledAt hnoted
    · exact hother n hn r (by rw [hkey]; rfl) hr
  notFinalized r hr hstate hnoted := by
    rcases noted_append.mp hnoted with hnoted | ⟨n, hn, hkey⟩
    · exact h.notFinalized r hr hstate hnoted
    · exact hother n hn r (by rw [hkey]; rfl) hr

theorem RowNoted.of_waiting {log : List Notice} {t : Store} {d : DurableScheduleOccurrence}
    (hwaits : d.state.isWaiting = true) (hrun : d.runId = none)
    (hqueued : d.state = .queued → Noted log (.queued d.key)) : RowNoted log t d where
  waits := by simp [hwaits, hrun]
  queued := hqueued
  hasRun r hr := by simp [hrun] at hr
  notRetried r hr := by simp [hrun] at hr
  notRecovered r hr := by simp [hrun] at hr
  notFinalized r hr := by simp [hrun] at hr

/-- A row that gets a new run -/
theorem RowNoted.of_opened {log : List Notice} {n : Notice} {t : Store} {runId : JobRunId}
    {d : DurableScheduleOccurrence} (hstate : d.state = .running ∨ d.state = .finalized)
    (hrun : d.runId = some runId) (hrow : t.HasRun runId)
    (hfresh : ∀ n' ∈ log, n'.transition.key.run ≠ some runId)
    (hkey : n.transition.key = .start runId ∨ n.transition.key = .overflow runId) :
    RowNoted (log ++ [n]) t d := by
  -- the one key that names the run is the one that opens it
  have hopens {key : EventKey} (hnamed : key.run = some runId) (hnoted : Noted (log ++ [n]) key) :
      key = .start runId ∨ key = .overflow runId := by
    rcases noted_append.mp hnoted with ⟨n', hn', hsame⟩ | hnoted
    · exact absurd (hsame ▸ hnamed) (hfresh n' hn')
    · rwa [noted_singleton.mp hnoted] at hkey
  constructor
  · rcases hstate with hstate | hstate
    all_goals simp [hstate, hrun, ScheduleOccurrenceState.isWaiting]
  · intro hqueued
    rcases hstate with hstate | hstate
    all_goals simp [hstate] at hqueued
  · intro r hr
    rw [hrun, Option.some.injEq] at hr
    exact hr ▸ hrow
  · intro r hr hnoted
    rw [hrun] at hr
    simpa using hopens (show EventKey.run (.retry r) = some runId from hr.symm) hnoted
  · intro r hr jobId triggerId revision scheduledAt hnoted
    rw [hrun] at hr
    simpa using hopens
      (show EventKey.run (.recovery jobId triggerId revision scheduledAt (some r)) = some runId
        from hr.symm) hnoted
  · intro r hr _ hnoted
    rw [hrun] at hr
    simpa using hopens (show EventKey.run (.finalized r) = some runId from hr.symm) hnoted

namespace EvidenceState

/-- The events, the rows and the committed transitions fit together. -/
structure Sound (s : EvidenceState) : Prop where
  evidenced : s.Evidenced
  keys : KeyedRows.Unique DurableScheduleOccurrence.key s.tables.jobs.occurrences
  rows : ∀ d ∈ s.tables.jobs.occurrences, RowNoted s.committed s.tables.jobs d
  owner : ∀ d ∈ s.tables.jobs.occurrences, ∀ d' ∈ s.tables.jobs.occurrences, ∀ r,
    d.runId = some r → d'.runId = some r → d.key = d'.key
  claimed : ∀ key, Noted s.committed (.claim key) → ∃ d ∈ s.tables.jobs.occurrences, d.key = key
  runs : ∀ n ∈ s.committed, ∀ r, n.transition.key.run = some r → s.tables.jobs.HasRun r
  generations : ∀ id n, Noted s.committed (.generation id n) →
    ∃ row ∈ s.tables.processes.instances, row.instanceId = id ∧ (n : ℤ) ≤ row.generation

theorem start_sound (jobs : List Job) (runs : List JobRun) (processes : ProcessTables) :
    (start jobs runs processes).Sound where
  evidenced := rfl
  keys := List.nodup_nil
  rows _ hd := absurd hd List.not_mem_nil
  owner _ hd := absurd hd List.not_mem_nil
  claimed _ hnoted := by
    obtain ⟨n, hn, -⟩ := hnoted
    exact absurd hn List.not_mem_nil
  runs n hn := absurd hn List.not_mem_nil
  generations _ _ hnoted := by
    obtain ⟨n, hn, -⟩ := hnoted
    exact absurd hn List.not_mem_nil

variable {s : EvidenceState} {t : EvidenceTables}

/-- The same rows and events -/
theorem Sound.congr (hs : s.Sound)
    (hkeys : KeyedRows.Unique DurableScheduleOccurrence.key t.jobs.occurrences)
    (hrows : ∀ d, d ∈ t.jobs.occurrences ↔ d ∈ s.tables.jobs.occurrences)
    (hruns : t.jobs.runs = s.tables.jobs.runs) (hprocesses : t.processes = s.tables.processes)
    (hevents : t.events = s.tables.events) : Sound ⟨t, s.committed⟩ := by
  have hhasRun (r : JobRunId) : s.tables.jobs.HasRun r → t.jobs.HasRun r := by
    unfold Store.HasRun
    rw [hruns]
    exact id
  constructor
  · change t.events.map EventRow.fields = _
    rw [hevents]
    exact hs.evidenced
  · exact hkeys
  · intro d hd
    have hrow := @RowNoted.append _ [] _ _ _ ((hs.rows d ((hrows d).mp hd))) hhasRun fun _ hn =>
      absurd hn List.not_mem_nil
    rwa [List.append_nil] at hrow
  · intro d hd d' hd'
    exact hs.owner d ((hrows d).mp hd) d' ((hrows d').mp hd')
  · intro key hnoted
    obtain ⟨d, hd, hkey⟩ := hs.claimed key hnoted
    exact ⟨d, (hrows d).mpr hd, hkey⟩
  · exact fun n hn r hr => hhasRun r (hs.runs n hn r hr)
  · intro id n hnoted
    change ∃ row ∈ t.processes.instances, _
    rw [hprocesses]
    exact hs.generations id n hnoted

/-- One transition, which concerns the row `d₁` of an occurrence -/
structure Writes (s : EvidenceState) (t : EvidenceTables) (n : Notice)
    (d₁ : DurableScheduleOccurrence) : Prop where
  events : t.events.map EventRow.fields = (s.committed ++ [n]).map Notice.fields
  keys : KeyedRows.Unique DurableScheduleOccurrence.key t.jobs.occurrences
  mem : d₁ ∈ t.jobs.occurrences
  rows : ∀ d ∈ t.jobs.occurrences, d = d₁ ∨ d ∈ s.tables.jobs.occurrences ∧ d.key ≠ d₁.key
  kept : ∀ d ∈ s.tables.jobs.occurrences, ∃ d' ∈ t.jobs.occurrences, d'.key = d.key
  runs : ∀ r, s.tables.jobs.HasRun r → t.jobs.HasRun r
  processes : t.processes = s.tables.processes
  row : RowNoted (s.committed ++ [n]) t.jobs d₁
  named : ∀ r, n.transition.key.run = some r → t.jobs.HasRun r ∧
    ∀ d ∈ s.tables.jobs.occurrences, d.runId = some r → d.key = d₁.key
  owned : ∀ r, d₁.runId = some r →
    ∀ d ∈ s.tables.jobs.occurrences, d.runId = some r → d.key = d₁.key
  claimed : ∀ key, n.transition.key = .claim key → ∃ d ∈ t.jobs.occurrences, d.key = key
  notGeneration : ∀ id g, n.transition.key ≠ .generation id g

theorem Sound.writes (hs : s.Sound) {n : Notice} {d₁ : DurableScheduleOccurrence}
    (h : s.Writes t n d₁) : Sound ⟨t, s.committed ++ [n]⟩ := by
  constructor
  · exact h.events
  · exact h.keys
  · intro d hd
    rcases h.rows d hd with rfl | ⟨hd, hne⟩
    · exact h.row
    · refine (hs.rows d hd).append h.runs fun n' hn' r hr hrun => ?_
      rw [List.mem_singleton.mp hn'] at hr
      exact hne ((h.named r hr).2 d hd hrun)
  · intro d hd d' hd' r hr hr'
    rcases h.rows d hd with rfl | ⟨hd, -⟩
    · rcases h.rows d' hd' with rfl | ⟨hd', -⟩
      · rfl
      · exact (h.owned r hr d' hd' hr').symm
    · rcases h.rows d' hd' with rfl | ⟨hd', -⟩
      · exact h.owned r hr' d hd hr
      · exact hs.owner d hd d' hd' r hr hr'
  · intro key hnoted
    rcases noted_append.mp hnoted with hnoted | hnoted
    · obtain ⟨d, hd, rfl⟩ := hs.claimed key hnoted
      exact h.kept d hd
    · exact h.claimed key (noted_singleton.mp hnoted)
  · intro n' hn' r hr
    rcases List.mem_append.mp hn' with hn' | hn'
    · exact h.runs r (hs.runs n' hn' r hr)
    · rw [List.mem_singleton.mp hn'] at hr
      exact (h.named r hr).1
  · intro id g hnoted
    change ∃ row ∈ t.processes.instances, _
    rw [h.processes]
    rcases noted_append.mp hnoted with hnoted | hnoted
    · exact hs.generations id g hnoted
    · exact absurd (noted_singleton.mp hnoted) (h.notGeneration id g)

/-- A transition that rewrites the row of an occurrence -/
theorem Sound.writes_row (hs : s.Sound) {n : Notice} {key : OccurrenceKey}
    {d : DurableScheduleOccurrence} {f : DurableScheduleOccurrence → DurableScheduleOccurrence}
    (found : s.tables.jobs.findOccurrence key = some d) (hkey : ∀ d, (f d).key = d.key)
    (hrows : t.jobs.occurrences = (s.tables.jobs.setOccurrence key f).occurrences)
    (hruns : ∀ r, s.tables.jobs.HasRun r → t.jobs.HasRun r)
    (hprocesses : t.processes = s.tables.processes)
    (hevents : t.events.map EventRow.fields = (s.committed ++ [n]).map Notice.fields)
    (hrow : RowNoted (s.committed ++ [n]) t.jobs (f d))
    (hnamed : ∀ r, n.transition.key.run = some r →
      t.jobs.HasRun r ∧ (d.runId = some r ∨ ¬s.tables.jobs.HasRun r))
    (howned : ∀ r, (f d).runId = some r → d.runId = some r ∨ ¬s.tables.jobs.HasRun r)
    (hclaim : ∀ key, n.transition.key ≠ .claim key)
    (hgeneration : ∀ id g, n.transition.key ≠ .generation id g) : s.Writes t n (f d) := by
  obtain ⟨hmem, hdkey⟩ := Store.findOccurrence_mem found
  have hin (d' : DurableScheduleOccurrence) : d' ∈ t.jobs.occurrences ↔
      d' = f d ∨ d' ∈ s.tables.jobs.occurrences ∧ d'.key ≠ key := by
    rw [hrows]
    exact hs.keys.mem_update_iff found
  have hsame {r : JobRunId} (hr : d.runId = some r ∨ ¬s.tables.jobs.HasRun r)
      (d' : DurableScheduleOccurrence) (hd' : d' ∈ s.tables.jobs.occurrences)
      (hrun : d'.runId = some r) : d'.key = (f d).key := by
    rw [hkey]
    rcases hr with hr | hfresh
    · exact hs.owner d' hd' d hmem r hrun hr
    · exact absurd ((hs.rows d' hd').hasRun r hrun) hfresh
  constructor
  · exact hevents
  · rw [hrows]
    exact hs.keys.update fun d' hd' => (hkey d').trans hd'
  · exact (hin _).mpr (.inl rfl)
  · intro d' hd'
    rw [hkey, hdkey]
    exact (hin d').mp hd'
  · intro d' hd'
    by_cases hd'key : d'.key = key
    · exact ⟨f d, (hin _).mpr (.inl rfl), by rw [hkey, hdkey, hd'key]⟩
    · exact ⟨d', (hin d').mpr (.inr ⟨hd', hd'key⟩), rfl⟩
  · exact hruns
  · exact hprocesses
  · exact hrow
  · exact fun r hr => ⟨(hnamed r hr).1, hsame (hnamed r hr).2⟩
  · exact fun r hr => hsame (howned r hr)
  · exact fun key hk => absurd hk (hclaim key)
  · exact hgeneration

/-- A row that is rewritten to what it was -/
theorem Sound.setOccurrence_same (hs : s.Sound) {key : OccurrenceKey}
    {d : DurableScheduleOccurrence} {f : DurableScheduleOccurrence → DurableScheduleOccurrence}
    (found : s.tables.jobs.findOccurrence key = some d) (hkey : ∀ d, (f d).key = d.key)
    (hsame : f d = d) :
    Sound ⟨{ s.tables with jobs := s.tables.jobs.setOccurrence key f }, s.committed⟩ ∧
      (s.tables.jobs.setOccurrence key f).findOccurrence key = some d := by
  obtain ⟨hmem, hdkey⟩ := Store.findOccurrence_mem found
  have hin (d' : DurableScheduleOccurrence) :
      d' ∈ (s.tables.jobs.setOccurrence key f).occurrences ↔ d' ∈ s.tables.jobs.occurrences := by
    have hupdate : d' ∈ (s.tables.jobs.setOccurrence key f).occurrences ↔
        d' = f d ∨ d' ∈ s.tables.jobs.occurrences ∧ d'.key ≠ key := hs.keys.mem_update_iff found
    rw [hupdate, hsame]
    constructor
    · rintro (rfl | ⟨hd', -⟩)
      · exact hmem
      · exact hd'
    · intro hd'
      by_cases hd'key : d'.key = key
      · exact .inl (hs.keys.eq_of_key hd' hmem (hd'key.trans hdkey.symm))
      · exact .inr ⟨hd', hd'key⟩
  have hkeys : KeyedRows.Unique DurableScheduleOccurrence.key
      (s.tables.jobs.setOccurrence key f).occurrences :=
    hs.keys.update fun d' hd' => (hkey d').trans hd'
  refine ⟨hs.congr hkeys hin rfl rfl rfl, ?_⟩
  rw [← hdkey] at hkeys hin ⊢
  exact hkeys.find_of_mem ((hin d).mpr hmem)

theorem Writes.find {n : Notice} {d₁ : DurableScheduleOccurrence} (h : s.Writes t n d₁) :
    t.jobs.findOccurrence d₁.key = some d₁ :=
  h.keys.find_of_mem h.mem

end EvidenceState

end Supervisor
