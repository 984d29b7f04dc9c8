import Supervisor.TerminalRows

namespace Supervisor

/-- A task that may still save the row of its run; one that cancels it only
commits. -/
def RunOwner.saves : RunOwner → Bool
  | .cancelling .. => false
  | .dispatching .. | .queued .. | .starting .. | .runner .. => true

/-- What an owner holds belongs to the run it is registered under. -/
def RunOwner.Names (runId : JobRunId) : RunOwner → Prop
  | .cancelling _ (some run) => run.runId = runId
  | .runner task => task.run.runId = runId ∧
      (task.point = .ended → task.run.state.isAnnounced = true)
  | .dispatching .. | .queued .. | .starting .. | .cancelling _ none => True

/-- The owners that write the row of a run outside a terminal commit. -/
def RunOwner.isWriter : RunOwner → Bool
  | .dispatching .. | .starting .. => true
  | .queued .. | .cancelling .. | .runner .. => false

namespace TerminalState

variable {s t : TerminalState} {action : TerminalAction}

/-- A step after which nothing holds, lists or announces more than before. -/
structure Faded (s t : TerminalState) : Prop where
  writes : s.store.Writes t.store fun _ => none
  owners : ∀ runId owner, t.owners runId = some owner → s.owners runId = some owner
  tickets : ∀ ticket ∈ t.store.cleanups, ∃ old ∈ s.store.cleanups, old.SameWork ticket
  works : ∀ work ∈ t.works, work ∈ s.works ∨ work.read = none ∧ work.ticket ∈ s.store.cleanups
  snapshots : ∀ snapshot ∈ t.snapshots, snapshot ∈ s.snapshots ∨
    snapshot.2.Nodup ∧ ∀ runId ∈ snapshot.2, ∃ owner, s.owners runId = some owner ∧
      owner.isQueued = true
  outbox : t.store.outbox = s.store.outbox
  drawn : s.drawn ⊆ t.drawn
  uuids : s.uuids ⊆ t.uuids
  written : t.written = s.written

theorem Faded.ofStore {store : Store} (hwrites : s.store.Writes store fun _ => none)
    (haside : store.cleanups = s.store.cleanups ∧ store.outbox = s.store.outbox) :
    Faded s { s with store } where
  writes := hwrites
  owners _ _ h := h
  tickets ticket h := ⟨ticket, haside.1 ▸ h, .refl ticket⟩
  works _ h := .inl h
  snapshots _ h := .inl h
  outbox := haside.2
  drawn := subset_rfl
  uuids := subset_rfl
  written := rfl

theorem Faded.refl (s : TerminalState) : Faded s s := .ofStore (.refl s.store) ⟨rfl, rfl⟩

theorem Faded.owner (h : Faded s t) {runId : JobRunId} : Faded s (t.setOwner runId none) where
  writes := h.writes
  owners runId' owner howner := by
    by_cases heq : runId' = runId
    · subst heq
      simp at howner
    · rw [setOwner_owners, Function.update_of_ne heq] at howner
      exact h.owners runId' owner howner
  tickets := h.tickets
  works := h.works
  snapshots := h.snapshots
  outbox := h.outbox
  drawn := h.drawn
  uuids := h.uuids
  written := h.written

theorem Faded.withUuids (h : Faded s t) (uuids : Finset Uuid) (hsub : t.uuids ⊆ uuids) :
    Faded s { t with uuids } :=
  ⟨h.writes, h.owners, h.tickets, h.works, h.snapshots, h.outbox, h.drawn,
    h.uuids.trans hsub, h.written⟩

theorem Faded.withDrawn (h : Faded s t) (drawn : Finset JobRunId) (hsub : t.drawn ⊆ drawn) :
    Faded s { t with drawn } :=
  ⟨h.writes, h.owners, h.tickets, h.works, h.snapshots, h.outbox, h.drawn.trans hsub,
    h.uuids, h.written⟩

theorem Faded.withWorks (h : Faded s t) (works : List CleanupWork)
    (hworks : ∀ work ∈ works, work ∈ t.works ∨
      work.read = none ∧ work.ticket ∈ s.store.cleanups) : Faded s { t with works } where
  writes := h.writes
  owners := h.owners
  tickets := h.tickets
  works work hwork := by
    rcases hworks work hwork with hold | hnew
    · exact h.works work hold
    · exact .inr hnew
  snapshots := h.snapshots
  outbox := h.outbox
  drawn := h.drawn
  uuids := h.uuids
  written := h.written

theorem Faded.withSnapshots (h : Faded s t) (snapshots : List (String × List JobRunId))
    (hsnapshots : ∀ snapshot ∈ snapshots, snapshot ∈ t.snapshots ∨
      snapshot.2.Nodup ∧ ∀ runId ∈ snapshot.2, ∃ owner, s.owners runId = some owner ∧
        owner.isQueued = true) : Faded s { t with snapshots } where
  writes := h.writes
  owners := h.owners
  tickets := h.tickets
  works := h.works
  snapshots snapshot hsnapshot := by
    rcases hsnapshots snapshot hsnapshot with hold | hnew
    · exact h.snapshots snapshot hold
    · exact .inr hnew
  outbox := h.outbox
  drawn := h.drawn
  uuids := h.uuids
  written := h.written

/-- What an action does to the rows, the owners, the tickets and the outbox. -/
inductive Effect (s : TerminalState) : TerminalAction → TerminalState → Prop
  | faded {a u} (h : Faded s u) : Effect s a u
  /-- The task of a run goes on, or hands it to the next one. -/
  | held {a runId old owner} (hold : s.owners runId = some old)
    (hsaves : owner.saves = true → old.saves = true)
    (hnames : old.Names runId → owner.Names runId)
    (hqueued : old.isQueued = true → a = .promote runId ∨ a = .dequeue runId)
    (hread : ∀ jobName run, owner = .cancelling jobName (some run) →
      s.store.findRun runId = some run) :
    Effect s a (s.setOwner runId (some owner))
  | called {a runId} (owner : RunOwner) (hfresh : runId ∉ s.drawn) (hnames : owner.Names runId) :
    Effect s a ({ s with drawn := insert runId s.drawn }.setOwner runId (some owner))
  | inserted {a runId store} (owner : RunOwner) (hfresh : runId ∉ s.drawn)
    (hwrites : s.store.Writes store (Store.single runId .pending))
    (haside : store.cleanups = s.store.cleanups ∧ store.outbox = s.store.outbox)
    (hnames : owner.Names runId) :
    Effect s a ({ s with store, drawn := insert runId s.drawn }.setOwner runId (some owner))
  | insertedSkipped {a runId store} (hfresh : runId ∉ s.drawn)
    (hwrites : s.store.Writes store (Store.single runId .skipped))
    (haside : store.cleanups = s.store.cleanups ∧ store.outbox = s.store.outbox) :
    Effect s a { s with store, drawn := insert runId s.drawn }
  | saved {a runId old owner state store} (hold : s.owners runId = some old)
    (hwriter : old.isWriter = true)
    (hwrites : s.store.Writes store (Store.single runId state))
    (haside : store.cleanups = s.store.cleanups ∧ store.outbox = s.store.outbox)
    (hstate : state.isTerminal = false ∨ state = .skipped ∧ owner = none)
    (hnames : ∀ o, owner = some o → o.Names runId ∧ o.isQueued = false) :
    Effect s a ({ s with store }.setOwner runId owner)
  | committed {a runId old event store} (hold : s.owners runId = some old)
    (hlive : old.isQueued = false) (hrunId : event.runId = runId)
    (hcleanupId : event.cleanupId ∉ s.uuids) (heventId : event.eventId ∉ s.uuids)
    (hstate : event.state.isAnnounced = true)
    (hwrites : s.store.Writes store (Store.single runId event.state))
    (hcleanups : store.cleanups = s.store.cleanups)
    (houtbox : store.outbox = s.store.outbox ++ [event]) :
    Effect s a ({ s with
      store
      uuids := insert event.cleanupId (insert event.eventId s.uuids)
      written := s.written ++ [(runId, event.eventId)] }.setOwner runId none)
  | cancelled (now : Instant) (ids : List (Uuid × Uuid))
    {snapshot jobName runIds events store uuids}
    (hsnapshot : s.snapshots[snapshot]? = some (jobName, runIds))
    (hruns : events.map (·.runId) = runIds) (heventIds : (events.map (·.eventId)).Nodup)
    (hfresh : ∀ event ∈ events, event.cleanupId ∉ s.uuids ∧ event.eventId ∉ s.uuids ∧
      event.cleanupId ∈ uuids ∧ event.eventId ∈ uuids)
    (huuids : s.uuids ⊆ uuids)
    (hstate : ∀ event ∈ events, event.state = .cancelled ∧
      ∃ row ∈ s.store.runs, row.runId = event.runId ∧ row.state = .pending)
    (hwrites : s.store.Writes store (Store.cancelledRuns events))
    (hcleanups : store.cleanups = s.store.cleanups)
    (houtbox : store.outbox = s.store.outbox ++ events) :
    Effect s (.cancelQueued snapshot now ids) { s with
      store
      snapshots := s.snapshots.eraseIdx snapshot
      uuids
      written := s.written ++ events.map fun event => (event.runId, event.eventId) }
  | bootTaken {runId run} (hold : s.owners runId = none)
    (hrow : s.store.findRun runId = some run) (hstate : run.state.isTerminal = false) :
    Effect s (.bootTake runId)
      (s.setOwner runId (some (.cancelling run.jobName (some run))))
  | enqueued {ticket task store} (hold : s.owners ticket.runId = some (.runner task))
    (hfresh : ticket.cleanupId ∉ s.uuids)
    (hintended : ticket.intendedTerminalState.isTerminal = true)
    (hruns : store.runs = s.store.runs) (houtbox : store.outbox = s.store.outbox)
    (hcleanups : ∀ row ∈ store.cleanups, row = ticket ∨
      ∃ old ∈ s.store.cleanups, old.SameWork row) :
    Effect s (.enqueueCleanup ticket) ({ s with
      store
      uuids := insert ticket.cleanupId s.uuids }.setOwner ticket.runId none)
  | workRead {work ticket run} (hwork : s.works[work]? = some ⟨ticket, none⟩)
    (hrow : s.store.findRun ticket.runId = some run) :
    Effect s (.readWork work) { s with works := s.works.set work ⟨ticket, some run⟩ }
  | worked {work eventId ticket run store event} (hwork : s.works[work]? = some ⟨ticket, some run⟩)
    (hevent : event.cleanupId = ticket.cleanupId ∧ event.eventId = eventId ∧
      event.runId = ticket.runId ∧ event.state = (ticket.terminalRun run).state)
    (hfresh : eventId ∉ s.uuids) (hstored : ∃ row ∈ s.store.runs, row.runId = run.runId)
    (hwrites : s.store.Writes store (Store.single run.runId (ticket.terminalRun run).state))
    (hcleanups : store.cleanups = s.store.cleanups)
    (hnew : ∀ row ∈ s.store.outbox, row.cleanupId ≠ ticket.cleanupId)
    (houtbox : store.outbox = s.store.outbox ++ [event]) :
    Effect s (.commitWork work eventId) { s with
      store
      works := s.works.eraseIdx work
      uuids := insert eventId s.uuids
      written := s.written ++ [(ticket.runId, eventId)] }
  | workedAgain (eventId : Uuid) {work ticket run store}
    (hwork : s.works[work]? = some ⟨ticket, some run⟩)
    (hstored : ∃ row ∈ s.store.runs, row.runId = run.runId)
    (hwrites : s.store.Writes store (Store.single run.runId (ticket.terminalRun run).state))
    (hcleanups : store.cleanups = s.store.cleanups)
    (hpresent : ∃ row ∈ s.store.outbox, row.cleanupId = ticket.cleanupId)
    (houtbox : store.outbox = s.store.outbox) :
    Effect s (.commitWork work eventId) { s with
      store
      works := s.works.eraseIdx work
      uuids := insert eventId s.uuids }

  /-- The row of the outbox goes, with the ticket it was about. -/
  | acknowledged {event} (hevent : event ∈ s.store.outbox) :
    Effect s (.acknowledge event.eventId event.cleanupId) { s with
      store := { s.store with
        outbox := s.store.outbox.filter (· ≠ event)
        cleanups := s.store.cleanups.filter fun ticket => ticket.cleanupId ≠ event.cleanupId } }

/-- The stored tickets and the copies that cleanup passes hold. -/
def tickets (s : TerminalState) : List CleanupTicket :=
  s.store.cleanups ++ s.works.map (·.ticket)

/-- The stored rows of a run are all terminal. -/
def Ended (s : TerminalState) (runId : JobRunId) : Prop :=
  ∀ row ∈ s.store.runs, row.runId = runId → row.state.isTerminal = true

/-- Ids are drawn once, so a cleanup id stands for the work on one run; once it
is on the outbox that run has ended, for no task that could save it is left. -/
structure Bound (s : TerminalState) : Prop where
  rows : KeyedRows.Unique JobRun.runId s.store.runs
  drawnRows : ∀ row ∈ s.store.runs, row.runId ∈ s.drawn
  owners : ∀ runId owner, s.owners runId = some owner → runId ∈ s.drawn ∧ owner.Names runId
  snapshots : ∀ snapshot ∈ s.snapshots, snapshot.2.Nodup ∧ ∀ runId ∈ snapshot.2, runId ∈ s.drawn
  tickets : ∀ ticket ∈ s.tickets, ticket.cleanupId ∈ s.uuids ∧ ticket.runId ∈ s.drawn ∧
    ticket.intendedTerminalState.isTerminal = true
  agree : ∀ a ∈ s.tickets, ∀ b ∈ s.tickets, a.cleanupId = b.cleanupId → a.SameWork b
  free : ∀ ticket ∈ s.tickets, ∀ owner, s.owners ticket.runId = some owner →
    owner.saves = false
  read : ∀ work ∈ s.works, ∀ run, work.read = some run → run.runId = work.ticket.runId
  events : ∀ event ∈ s.store.outbox, event.cleanupId ∈ s.uuids ∧ event.eventId ∈ s.uuids
  outbox : (s.store.outbox.map (·.eventId)).Nodup
  ended : ∀ ticket ∈ s.tickets, ∀ event ∈ s.store.outbox, event.cleanupId = ticket.cleanupId →
    event.runId = ticket.runId ∧ s.Ended ticket.runId

section Observe

variable {u : TerminalState}

theorem observe_of_subset (hsub : u.store.outbox ⊆ s.store.outbox) (hwritten : u.written = s.written) :
    s.observe u = u := by
  have hnone : u.store.outbox.filter (· ∉ s.store.outbox) = [] := by
    rw [List.filter_eq_nil_iff]
    intro event hevent
    simpa using hsub hevent
  unfold observe
  rw [hnone, List.map_nil, List.append_nil, ← hwritten]

theorem observe_of_append {events : List TransientTerminalEvent}
    (happend : u.store.outbox = s.store.outbox ++ events)
    (hnew : ∀ event ∈ events, event ∉ s.store.outbox) :
    s.observe u = { u with
      written := s.written ++ events.map fun event => (event.runId, event.eventId) } := by
  have hdiff : u.store.outbox.filter (· ∉ s.store.outbox) = events := by
    rw [happend, List.filter_append]
    have hold : s.store.outbox.filter (· ∉ s.store.outbox) = [] := by
      rw [List.filter_eq_nil_iff]
      intro event hevent
      simpa using hevent
    have hevents : events.filter (· ∉ s.store.outbox) = events := by
      rw [List.filter_eq_self]
      intro event hevent
      simpa using hnew event hevent
    rw [hold, hevents, List.nil_append]
  unfold observe
  rw [hdiff]

theorem Effect.quiet (h : Effect s action u) (houtbox : u.store.outbox = s.store.outbox)
    (hwritten : u.written = s.written) : Effect s action (s.observe u) := by
  rw [observe_of_subset (houtbox ▸ List.Subset.refl _) hwritten]
  exact h

theorem Effect.announced (events : List TransientTerminalEvent)
    (h : Effect s action { u with
      written := s.written ++ events.map fun event => (event.runId, event.eventId) })
    (happend : u.store.outbox = s.store.outbox ++ events)
    (hnew : ∀ event ∈ events, event ∉ s.store.outbox) : Effect s action (s.observe u) := by
  rw [observe_of_append happend hnew]
  exact h

theorem Faded.effect (h : Faded s u) : Effect s action (s.observe u) := by
  rw [observe_of_subset (h.outbox ▸ List.Subset.refl _) h.written]
  exact .faded h

theorem attempt_faded {result : Except RepoError Store}
    (h : ∀ store, result = .ok store →
      s.store.Writes store (fun _ => none) ∧ s.store.AsideKept store) :
    Faded s (s.attempt result) := by
  cases hresult : result with
  | error e => exact .refl s
  | ok store =>
    obtain ⟨hwrites, haside⟩ := h store hresult
    exact .ofStore hwrites haside.events

end Observe

section Actions

theorem Bound.event_notMem (hs : s.Bound) {event : TransientTerminalEvent}
    (hfresh : event.eventId ∉ s.uuids) : event ∉ s.store.outbox :=
  fun hmem => hfresh (hs.events event hmem).2

theorem Bound.cleanupId_ne (hs : s.Bound) {cleanupId : Uuid} (hfresh : cleanupId ∉ s.uuids) :
    ∀ row ∈ s.store.outbox, row.cleanupId ≠ cleanupId := by
  intro row hrow heq
  exact hfresh (heq ▸ (hs.events row hrow).1)

theorem commit_effect (hs : s.Bound) {runId : JobRunId} {old : RunOwner} {run : JobRun}
    {event : TransientTerminalEvent} (hold : s.owners runId = some old)
    (hlive : old.isQueued = false) (hrun : run.runId = runId)
    (hevent : event.runId = runId ∧ event.state = run.state)
    (hstate : event.state.isAnnounced = true) (hcleanupId : event.cleanupId ∉ s.uuids)
    (heventId : event.eventId ∉ s.uuids) :
    Effect s action (s.observe (s.commit runId run event)) := by
  have huuids : s.uuids ⊆ insert event.cleanupId (insert event.eventId s.uuids) :=
    (Finset.subset_insert _ _).trans (Finset.subset_insert _ _)
  have hfaded : Faded s { s with
      uuids := insert event.cleanupId (insert event.eventId s.uuids) } :=
    (Faded.refl s).withUuids _ huuids
  unfold commit
  dsimp only
  split
  · rename_i store hcommit
    obtain ⟨-, hwrites, hcleanups, ⟨⟨row, hrow, hid⟩, -⟩ | ⟨-, houtbox⟩⟩ :=
      Store.terminalCommit_writes hcommit
    · exact absurd hid (hs.cleanupId_ne hcleanupId row hrow)
    · rw [hrun, ← hevent.2] at hwrites
      have heffect := Effect.committed (a := action) hold hlive hevent.1 hcleanupId heventId
        hstate hwrites hcleanups houtbox
      apply Effect.announced [event] _ houtbox
      · intro e he
        rw [List.mem_singleton.mp he]
        exact hs.event_notMem heventId
      · rw [← hevent.1] at heffect ⊢
        exact heffect
  · exact hfaded.owner.effect
  · exact hfaded.effect

theorem saved_effect {runId : JobRunId} {old : RunOwner} {owner : Option RunOwner}
    {run : JobRun} {store : Store} (hold : s.owners runId = some old)
    (hwriter : old.isWriter = true) (hrun : run.runId = runId)
    (hsave : s.store.saveRun run = .ok store)
    (hstate : run.state.isTerminal = false ∨ run.state = .skipped ∧ owner = none)
    (hnames : ∀ o, owner = some o → o.Names runId ∧ o.isQueued = false) :
    Effect s action (s.observe ({ s with store }.setOwner runId owner)) := by
  have haside := Store.saveRun_aside hsave
  have hwrites := Store.saveRun_writes hsave
  rw [hrun] at hwrites
  have heffect := Effect.saved (a := action) hold hwriter hwrites
    ⟨haside.cleanups, haside.outbox⟩ hstate hnames
  exact heffect.quiet haside.outbox rfl

/-- An event id is on the outbox once, so its acknowledgement takes one row. -/
theorem acknowledge_eq (hs : s.Bound) {event : TransientTerminalEvent}
    (hevent : event ∈ s.store.outbox) :
    s.store.acknowledgeTransientTerminalEvent event.eventId event.cleanupId = { s.store with
      outbox := s.store.outbox.filter (· ≠ event)
      cleanups := s.store.cleanups.filter fun ticket => ticket.cleanupId ≠ event.cleanupId } := by
  have hpresent : s.store.outbox.any (fun row =>
      row.cleanupId = event.cleanupId && row.eventId = event.eventId) = true :=
    List.any_eq_true.mpr ⟨event, hevent, by simp⟩
  have hfilter : s.store.outbox.filter (fun row =>
      ¬(row.cleanupId = event.cleanupId ∧ row.eventId = event.eventId)) =
        s.store.outbox.filter (· ≠ event) := by
    apply List.filter_congr
    intro row hrow
    rw [decide_eq_decide, not_iff_not]
    constructor
    · intro hsame
      exact List.inj_on_of_nodup_map hs.outbox hrow hevent hsame.2
    · rintro rfl
      exact ⟨rfl, rfl⟩
  rw [Store.acknowledgeTransientTerminalEvent, if_pos hpresent, hfilter]

theorem acknowledge_effect (hs : s.Bound) (eventId cleanupId : Uuid) :
    Effect s (.acknowledge eventId cleanupId)
      (s.observe { s with
        store := s.store.acknowledgeTransientTerminalEvent eventId cleanupId }) := by
  by_cases hpresent : s.store.outbox.any (fun row =>
      row.cleanupId = cleanupId && row.eventId = eventId) = true
  · obtain ⟨event, hevent, hids⟩ := List.any_eq_true.mp hpresent
    simp only [Bool.and_eq_true, decide_eq_true_eq] at hids
    obtain ⟨rfl, rfl⟩ := hids
    rw [acknowledge_eq hs hevent, observe_of_subset]
    · exact .acknowledged hevent
    · exact List.filter_sublist.subset
    · rfl
  · rw [Store.acknowledgeTransientTerminalEvent, if_neg hpresent]
    exact (Faded.refl s).effect

theorem cleanups_faded {cleanups : List CleanupTicket}
    (h : ∀ ticket ∈ cleanups, ∃ old ∈ s.store.cleanups, old.SameWork ticket) :
    Faded s { s with store := { s.store with cleanups } } where
  writes := .of_runs rfl
  owners _ _ h := h
  tickets := h
  works _ h := .inl h
  snapshots _ h := .inl h
  outbox := rfl
  drawn := subset_rfl
  uuids := subset_rfl
  written := rfl

theorem updateTransientCleanup_faded (s : TerminalState) (cleanupId : Uuid)
    (stage : TransientCleanupStage) (error : Option String) :
    Faded s { s with store := s.store.updateTransientCleanup cleanupId stage error } := by
  apply cleanups_faded
  intro ticket hticket
  rw [KeyedRows.mem_update_iff] at hticket
  rcases hticket with ⟨old, hold, -, rfl⟩ | ⟨hold, -⟩
  · exact ⟨old, hold, rfl, rfl, rfl⟩
  · exact ⟨ticket, hold, .refl ticket⟩

theorem saveJob_faded {job : Job} (h : s.saveJob job = some t) : Faded s t := by
  have hstore : Faded s { s with store := s.store.saveJob job } :=
    .ofStore (.of_runs (s.store.saveJob_rows job).1) (s.store.saveJob_aside job).events
  unfold saveJob at h
  split at h
  · cases h
    exact hstore
  · split at h
    · cases h
    · cases h
      exact ⟨hstore.writes, hstore.owners, hstore.tickets, hstore.works, hstore.snapshots,
        hstore.outbox, hstore.drawn, hstore.uuids, hstore.written⟩

theorem pruneRuns_faded (s : TerminalState) (jobName : String) (maxRuns : Option ℕ)
    (olderThan : Option Instant) :
    Faded s { s with store := (s.store.pruneRuns jobName maxRuns olderThan).2 } := by
  obtain ⟨-, -, keep, hruns, -⟩ := s.store.pruneRuns_spec jobName maxRuns olderThan
  exact .ofStore (.of_filter hruns) (s.store.pruneRuns_aside jobName maxRuns olderThan).events

theorem claimOccurrence_faded (s : TerminalState) (job : Job) (occurrence : ScheduleOccurrence)
    (now : Instant) :
    Faded s (s.attempt ((s.store.claimScheduleOccurrence job occurrence now).map Prod.snd)) := by
  apply attempt_faded
  intro store hok
  cases hclaim : s.store.claimScheduleOccurrence job occurrence now with
  | error e =>
    rw [hclaim] at hok
    cases hok
  | ok answer =>
    rw [hclaim] at hok
    cases hok
    obtain ⟨-, hruns, -⟩ := Store.claimScheduleOccurrence_ok hclaim
    exact ⟨.of_runs hruns, Store.claimScheduleOccurrence_aside hclaim⟩

theorem finalizeAttempt_faded (s : TerminalState) (job : Job) (run : JobRun) (now : Instant) :
    Faded s (s.attempt ((s.store.finalizeScheduleAttempt job run now).map Prod.snd)) := by
  apply attempt_faded
  intro store hok
  cases hfinal : s.store.finalizeScheduleAttempt job run now with
  | error e =>
    rw [hfinal] at hok
    cases hok
  | ok answer =>
    obtain ⟨answer, after⟩ := answer
    rw [hfinal] at hok
    cases hok
    have hstep := Store.finalizeScheduleAttempt_ok hfinal
    refine ⟨?_, hstep.aside⟩
    cases hstep with
    | retry | final => exact .of_runs rfl

theorem held_effect {runId : JobRunId} {old owner : RunOwner} (hold : s.owners runId = some old)
    (hsaves : owner.saves = true → old.saves = true)
    (hnames : old.Names runId → owner.Names runId)
    (hqueued : old.isQueued = true → action = .promote runId ∨ action = .dequeue runId)
    (hread : ∀ jobName run, owner = .cancelling jobName (some run) →
      s.store.findRun runId = some run) :
    Effect s action (s.observe (s.setOwner runId (some owner))) :=
  (Effect.held hold hsaves hnames hqueued hread).quiet rfl rfl

theorem claimDependency_effect {job : Job} {signature : List JobRunId} {upstream runId : JobRunId}
    {now : Instant}
    (h : s.act (.claimDependency job signature upstream runId now) = some t) :
    Effect s (.claimDependency job signature upstream runId now) (s.observe t) := by
  simp only [act] at h
  split at h
  · cases h
  · rename_i hfresh
    simp only [Bool.or_eq_true, decide_eq_true_eq, not_or] at hfresh
    have hfaded : Faded s { s with drawn := insert runId s.drawn } :=
      (Faded.refl s).withDrawn _ (Finset.subset_insert _ _)
    split at h
    · rename_i store hclaim
      cases h
      obtain ⟨hwrites, hcleanups, houtbox⟩ := Store.claimDependencyRun_writes hclaim
      have heffect := Effect.inserted
        (a := .claimDependency job signature upstream runId now)
        (.dispatching job (.dependency upstream) false) hfresh.2 hwrites
        ⟨hcleanups, houtbox⟩ trivial
      exact heffect.quiet houtbox rfl
    · cases h
      exact hfaded.effect
    · cases h
      exact hfaded.effect

theorem admitOccurrence_effect {job : Job} {occurrence : ScheduleOccurrence} {now : Instant}
    {runId : JobRunId} (h : s.act (.admitOccurrence job occurrence now runId) = some t) :
    Effect s (.admitOccurrence job occurrence now runId) (s.observe t) := by
  simp only [act] at h
  split at h
  · cases h
  · rename_i hfresh
    simp only [Bool.or_eq_true, decide_eq_true_eq, not_or] at hfresh
    have hfaded : Faded s { s with drawn := insert runId s.drawn } :=
      (Faded.refl s).withDrawn _ (Finset.subset_insert _ _)
    split at h
    · -- the occurrence starts
      rename_i admitted store hadmit
      cases h
      have hstep := Store.admitScheduleOccurrence_ok hadmit
      have haside := hstep.aside
      rcases Store.admission_writes hstep with ⟨durable, -, hwrites⟩ | ⟨hother, -⟩
      · have heffect := Effect.inserted (a := .admitOccurrence job occurrence now runId)
          (.starting job (.scheduled admitted.occurrence)) hfresh.2 hwrites
          ⟨haside.cleanups, haside.outbox⟩ trivial
        exact heffect.quiet haside.outbox rfl
      · exact absurd rfl (hother admitted)
    · rename_i answer store hstarts hadmit
      cases h
      have hstep := Store.admitScheduleOccurrence_ok hadmit
      have haside := hstep.aside
      rcases Store.admission_writes hstep with ⟨durable, rfl, -⟩ | ⟨-, hkept | hwrites⟩
      · exact absurd rfl (hstarts durable)
      · have hstored : Faded s { s with store } := .ofStore hkept haside.events
        exact (hstored.withDrawn _ (Finset.subset_insert _ _)).effect
      · have heffect := Effect.insertedSkipped (a := .admitOccurrence job occurrence now runId)
          hfresh.2 hwrites ⟨haside.cleanups, haside.outbox⟩
        exact heffect.quiet haside.outbox rfl
    · cases h
      exact hfaded.effect

/-- Each run that was read gets one of the drawn pairs. -/
theorem cancelledEvents_ids {runIds : List JobRunId} {ids : List (Uuid × Uuid)}
    (jobName : String) (now : Instant) (hlength : ids.length = runIds.length) :
    (cancelledEvents jobName runIds now ids).map (·.runId) = runIds ∧
      (cancelledEvents jobName runIds now ids).map (·.cleanupId) = ids.map Prod.fst ∧
        (cancelledEvents jobName runIds now ids).map (·.eventId) = ids.map Prod.snd := by
  have hfst : (runIds.zip ids).map Prod.fst = runIds := List.map_fst_zip hlength.ge
  have hsnd : (runIds.zip ids).map Prod.snd = ids := List.map_snd_zip hlength.le
  unfold cancelledEvents
  refine ⟨?_, ?_, ?_⟩
  · rw [List.map_map]
    exact hfst
  · rw [List.map_map]
    conv_rhs => rw [← hsnd, List.map_map]
    rfl
  · rw [List.map_map]
    conv_rhs => rw [← hsnd, List.map_map]
    rfl

theorem nodup_of_pairs {ids : List (Uuid × Uuid)}
    (h : (ids.flatMap fun id => [id.1, id.2]).Nodup) :
    (ids.map Prod.fst).Nodup ∧ (ids.map Prod.snd).Nodup := by
  induction ids with
  | nil => exact ⟨List.nodup_nil, List.nodup_nil⟩
  | cons id ids ih =>
    rw [List.flatMap_cons, List.cons_append, List.cons_append, List.nil_append,
      List.nodup_cons, List.nodup_cons] at h
    obtain ⟨hfirst, hsecond, hrest⟩ := h
    obtain ⟨hfst, hsnd⟩ := ih hrest
    simp only [List.map_cons, List.nodup_cons]
    refine ⟨⟨fun hmem => hfirst ?_, hfst⟩, fun hmem => hsecond ?_, hsnd⟩
    · obtain ⟨other, hother, heq⟩ := List.mem_map.mp hmem
      refine List.mem_cons_of_mem _ (List.mem_flatMap.mpr ⟨other, hother, ?_⟩)
      simp [heq]
    · obtain ⟨other, hother, heq⟩ := List.mem_map.mp hmem
      refine List.mem_flatMap.mpr ⟨other, hother, ?_⟩
      simp [heq]

theorem cancelQueued_effect (hs : s.Bound) {snapshot : ℕ} {now : Instant}
    {ids : List (Uuid × Uuid)} (h : s.act (.cancelQueued snapshot now ids) = some t) :
    Effect s (.cancelQueued snapshot now ids) (s.observe t) := by
  simp only [act] at h
  split at h
  · rename_i jobName runIds hsnapshot
    split at h
    · rename_i hids
      cases h
      obtain ⟨hlength, hnodup, hdrawn⟩ := hids
      obtain ⟨hruns, -⟩ := hs.snapshots _ (List.mem_of_getElem? hsnapshot)
      let events := cancelledEvents jobName runIds now ids
      obtain ⟨hrunIds, hcleanupIds, heventIds⟩ := cancelledEvents_ids jobName now hlength
      have hnodups := nodup_of_pairs hnodup
      have hfresh : ∀ event ∈ events, event.cleanupId ∉ s.uuids ∧ event.eventId ∉ s.uuids ∧
          event.cleanupId ∈ s.uuids ∪ (ids.flatMap fun id => [id.1, id.2]).toFinset ∧
            event.eventId ∈ s.uuids ∪ (ids.flatMap fun id => [id.1, id.2]).toFinset := by
        intro event hevent
        obtain ⟨⟨runId, id⟩, hid, rfl⟩ := List.mem_map.mp hevent
        have hmem : id ∈ ids := (List.of_mem_zip hid).2
        have hdraws := List.all_eq_true.mp hdrawn id hmem
        simp only [drawsTwo, decide_not, Bool.and_eq_true, Bool.not_eq_eq_eq_not, Bool.not_true,
          decide_eq_false_iff_not] at hdraws
        refine ⟨hdraws.1, hdraws.2, Finset.mem_union_right _ ?_, Finset.mem_union_right _ ?_⟩
        · exact List.mem_toFinset.mpr (List.mem_flatMap.mpr ⟨id, hmem, List.mem_cons_self⟩)
        · refine List.mem_toFinset.mpr (List.mem_flatMap.mpr ⟨id, hmem, ?_⟩)
          exact List.mem_cons_of_mem _ List.mem_cons_self
      cases hcancel : s.store.cancelPendingRuns jobName events with
      | error e =>
        have hfaded := ((Faded.refl s).withSnapshots (s.snapshots.eraseIdx snapshot)
          fun snapshot hmem => .inl (List.mem_of_mem_eraseIdx hmem)).withUuids
            (s.uuids ∪ (ids.flatMap fun id => [id.1, id.2]).toFinset)
            Finset.subset_union_left
        exact hfaded.effect
      | ok store =>
        obtain ⟨hstate, hwrites, hcleanups, houtbox⟩ := Store.cancelPendingRuns_ok hcancel
          (by rw [hrunIds]; exact hruns) (by rw [hcleanupIds]; exact hnodups.1)
          fun event hevent => hs.cleanupId_ne (hfresh event hevent).1
        have hattempt : s.attempt (.ok store) = { s with store } := rfl
        rw [hattempt]
        have heffect := Effect.cancelled now ids hsnapshot hrunIds
          (by rw [heventIds]; exact hnodups.2) hfresh Finset.subset_union_left hstate hwrites
          hcleanups houtbox
        exact Effect.announced events heffect houtbox
          fun event hevent => hs.event_notMem (hfresh event hevent).2.1
    · cases h
  · cases h

theorem commitWork_effect (hs : s.Bound) {work : ℕ} {eventId : Uuid}
    (h : s.act (.commitWork work eventId) = some t) :
    Effect s (.commitWork work eventId) (s.observe t) := by
  simp only [act] at h
  split at h
  · rename_i ticket run hwork
    split at h
    · rename_i hfresh
      cases h
      have huuids : s.uuids ⊆ insert eventId s.uuids := Finset.subset_insert _ _
      cases hcommit : s.store.commitTransientCleanupTerminal ticket (ticket.terminalRun run)
          eventId with
      | error e =>
        have hfaded := ((Faded.refl s).withWorks (s.works.eraseIdx work)
          fun work hmem => .inl (List.mem_of_mem_eraseIdx hmem)).withUuids _ huuids
        exact hfaded.effect
      | ok store =>
        obtain ⟨hstored, hwrites, hcleanups, ⟨hpresent, houtbox⟩ | ⟨hnew, houtbox⟩⟩ :=
          Store.terminalCommit_writes hcommit
        · rw [(Store.terminalRun_spec ticket run).1] at hwrites hstored
          have heffect := Effect.workedAgain eventId hwork hstored hwrites hcleanups hpresent
            houtbox
          have hattempt : s.attempt (.ok store) = { s with store } := rfl
          rw [hattempt]
          exact heffect.quiet houtbox rfl
        · rw [(Store.terminalRun_spec ticket run).1] at hwrites hstored
          have heffect := Effect.worked hwork ⟨rfl, rfl, rfl, rfl⟩ hfresh hstored hwrites hcleanups
            hnew houtbox
          have hattempt : s.attempt (.ok store) = { s with store } := rfl
          rw [hattempt]
          apply Effect.announced [_] heffect houtbox
          intro e he
          rw [List.mem_singleton.mp he]
          exact hs.event_notMem hfresh
    · cases h
  · cases h

theorem savePending_effect {runId : JobRunId} {now : Instant}
    (h : s.act (.savePending runId now) = some t) :
    Effect s (.savePending runId now) (s.observe t) := by
  simp only [act] at h
  split at h
  · rename_i job triggeredBy saved hold
    split at h
    · rename_i store hsave
      cases h
      apply saved_effect hold rfl rfl hsave (.inl rfl)
      intro o ho
      cases ho
      exact ⟨trivial, rfl⟩
    · cases h
      exact (Faded.refl s).owner.effect
  · cases h

theorem saveSkipped_effect {runId : JobRunId} {now : Instant}
    (h : s.act (.saveSkipped runId now) = some t) :
    Effect s (.saveSkipped runId now) (s.observe t) := by
  simp only [act] at h
  split at h
  · rename_i job triggeredBy saved hold
    cases h
    cases hsave : s.store.saveRun (skippedRun s.store job.name triggeredBy runId now) with
    | error e => exact (Faded.refl s).owner.effect
    | ok store =>
      apply saved_effect hold rfl rfl hsave (.inr ⟨rfl, rfl⟩)
      intro o ho
      cases ho
  · cases h

theorem saveRunning_effect {runId : JobRunId} {now : Instant}
    (h : s.act (.saveRunning runId now) = some t) :
    Effect s (.saveRunning runId now) (s.observe t) := by
  simp only [act] at h
  split at h
  · rename_i job triggeredBy hold
    cases h
    have hnames : (RunOwner.runner ⟨job, runningRun job triggeredBy runId now, .running⟩).Names
        runId := ⟨rfl, fun hended => by cases hended⟩
    cases hsave : s.store.saveRun (runningRun job triggeredBy runId now) with
    | error e =>
      -- the write is best effort
      apply held_effect hold (fun _ => rfl) (fun _ => hnames)
      · intro hqueued
        cases hqueued
      · intro jobName run hread
        cases hread
    | ok store =>
      apply saved_effect hold rfl rfl hsave (.inl rfl)
      intro o ho
      cases ho
      exact ⟨hnames, rfl⟩
  · cases h

theorem enqueueCleanup_effect {ticket : CleanupTicket}
    (h : s.act (.enqueueCleanup ticket) = some t) :
    Effect s (.enqueueCleanup ticket) (s.observe t) := by
  simp only [act] at h
  split at h
  · rename_i task hold
    split at h
    · rename_i hvalid
      simp only [decide_not, Bool.and_eq_true, Bool.not_eq_eq_eq_not, Bool.not_true,
        decide_eq_false_iff_not] at hvalid
      split at h
      · rename_i store henqueue
        cases h
        obtain ⟨hsignatures, houtbox⟩ := Store.enqueueTransientCleanup_signatures henqueue
        have hrows : store.runs = s.store.runs ∧ ∀ row ∈ store.cleanups, row = ticket ∨
            ∃ old ∈ s.store.cleanups, old.SameWork row := by
          unfold Store.enqueueTransientCleanup at henqueue
          split at henqueue
          · cases henqueue
            refine ⟨rfl, fun row hrow => .inr ?_⟩
            rw [KeyedRows.mem_update_iff] at hrow
            rcases hrow with ⟨old, hmem, -, rfl⟩ | ⟨hmem, -⟩
            · exact ⟨old, hmem, rfl, rfl, rfl⟩
            · exact ⟨row, hmem, .refl row⟩
          · split at henqueue
            · cases henqueue
            · cases henqueue
              refine ⟨rfl, fun row hrow => ?_⟩
              rcases List.mem_append.mp hrow with hmem | hmem
              · exact .inr ⟨row, hmem, .refl row⟩
              · exact .inl (List.mem_singleton.mp hmem)
        have heffect := Effect.enqueued hold hvalid.2 hvalid.1.2 hrows.1 houtbox hrows.2
        exact heffect.quiet houtbox rfl
      · cases h
    · cases h
  · cases h

/-- Every step has one of the effects. -/
theorem effect (hs : s.Bound) (h : terminalSystem.step s action = some t) :
    Effect s action t := by
  obtain ⟨u, hact, rfl⟩ := Option.map_eq_some_iff.mp h
  cases action with
  | saveJob job => exact (saveJob_faded hact).effect
  | deleteJob name =>
    cases hact
    have hfaded : Faded s { s with store := s.store.deleteJob name } :=
      .ofStore (.of_filter rfl) ⟨rfl, rfl⟩
    exact hfaded.effect
  | pruneRuns jobName maxRuns olderThan =>
    cases hact
    exact (s.pruneRuns_faded jobName maxRuns olderThan).effect
  | claimOccurrence job occurrence now =>
    cases hact
    exact (s.claimOccurrence_faded job occurrence now).effect
  | finalizeAttempt job run now =>
    cases hact
    exact (s.finalizeAttempt_faded job run now).effect
  | recoverOccurrences now =>
    rw [act_recoverOccurrences] at hact
    cases hact
    have hfaded : Faded s { s with store := s.store.recoverScheduleOccurrences now } :=
      .ofStore (.of_runs rfl) ⟨rfl, rfl⟩
    exact hfaded.effect
  | callDispatch job runId =>
    simp only [act] at hact
    split at hact
    · cases hact
    · rename_i hfresh
      simp only [Bool.or_eq_true, decide_eq_true_eq, not_or] at hfresh
      cases hact
      have heffect := Effect.called (a := .callDispatch job runId)
        (.dispatching job .manual false) hfresh.2 trivial
      exact heffect.quiet rfl rfl
  | claimDependency => exact claimDependency_effect hact
  | savePending => exact savePending_effect hact
  | saveSkipped => exact saveSkipped_effect hact
  | register runId queue =>
    simp only [act] at hact
    split at hact
    · rename_i hold
      split at hact
      · cases hact
        apply held_effect hold
        · exact fun _ => rfl
        · exact fun _ => trivial
        · intro hqueued
          cases hqueued
        · intro jobName run hread
          cases hread
      · cases hact
        apply held_effect hold
        · exact fun _ => rfl
        · exact fun _ => trivial
        · intro hqueued
          cases hqueued
        · intro jobName run hread
          cases hread
    · cases hact
  | admitOccurrence => exact admitOccurrence_effect hact
  | promote runId =>
    simp only [act] at hact
    split at hact
    · rename_i hold
      cases hact
      apply held_effect hold
      · exact fun _ => rfl
      · exact fun _ => trivial
      · exact fun _ => .inl rfl
      · intro jobName run hread
        cases hread
    · cases hact
  | dequeue runId =>
    simp only [act] at hact
    split at hact
    · rename_i hold
      cases hact
      apply held_effect hold
      · exact fun _ => rfl
      · exact fun _ => trivial
      · exact fun _ => .inr rfl
      · intro jobName run hread
        cases hread
    · cases hact
  | dropQueued runId =>
    simp only [act] at hact
    split at hact
    · cases hact
      exact (Faded.refl s).owner.effect
    · cases hact
  | saveRunning => exact saveRunning_effect hact
  | endRun runId state outcome =>
    simp only [act] at hact
    split at hact
    · rename_i job run hold
      split at hact
      · rename_i hstate
        cases hact
        apply held_effect hold (fun _ => rfl)
        · rintro ⟨hrun, -⟩
          refine ⟨hrun, fun _ => ?_⟩
          show state.isAnnounced = true
          cases state <;> simp_all [JobRunState.isAnnounced, JobRunState.isTerminal]
        · intro hqueued
          cases hqueued
        · intro jobName run hread
          cases hread
      · cases hact
    · cases hact
  | commitTerminal runId now cleanupId eventId =>
    simp only [act] at hact
    split at hact
    · rename_i job run hold
      split at hact
      · rename_i hdraws
        cases hact
        obtain ⟨hrun, hended⟩ := (hs.owners runId _ hold).2
        simp only [drawsTwo, decide_not, Bool.and_eq_true, Bool.not_eq_eq_eq_not, Bool.not_true,
          decide_eq_false_iff_not] at hdraws
        exact commit_effect hs hold rfl hrun ⟨hrun, rfl⟩ (hended rfl) hdraws.1 hdraws.2
      · cases hact
    · cases hact
  | enqueueCleanup => exact enqueueCleanup_effect hact
  | abandon runId =>
    simp only [act] at hact
    split at hact
    all_goals cases hact
    all_goals exact (Faded.refl s).owner.effect
  | readCancelled runId =>
    simp only [act] at hact
    split at hact
    · rename_i jobName hold
      split at hact
      · rename_i run hrow
        cases hact
        obtain ⟨hfind, -⟩ := Option.filter_eq_some_iff.mp hrow
        apply held_effect hold
        · intro hsaves
          cases hsaves
        · exact fun _ => (Store.findRun_mem hfind).2
        · intro hqueued
          cases hqueued
        · intro jobName' run' hread
          cases hread
          exact hfind
      · cases hact
        exact (Faded.refl s).owner.effect
    · cases hact
  | commitCancelled runId now cleanupId eventId =>
    simp only [act] at hact
    split at hact
    · rename_i jobName run hold
      split at hact
      · rename_i hdraws
        cases hact
        have hrun : run.runId = runId := (hs.owners runId _ hold).2
        simp only [drawsTwo, decide_not, Bool.and_eq_true, Bool.not_eq_eq_eq_not, Bool.not_true,
          decide_eq_false_iff_not] at hdraws
        exact commit_effect hs hold rfl hrun ⟨rfl, rfl⟩ rfl hdraws.1 hdraws.2
      · cases hact
    · cases hact
  | snapshotQueue job runIds =>
    simp only [act] at hact
    split at hact
    · rename_i hqueued
      cases hact
      have hfaded := (Faded.refl s).withSnapshots (s.snapshots ++ [(job.name, runIds)])
      apply Faded.effect
      apply hfaded
      intro snapshot hsnapshot
      rcases List.mem_append.mp hsnapshot with hmem | hmem
      · exact .inl hmem
      · rw [List.mem_singleton.mp hmem]
        refine .inr ⟨hqueued.1, fun runId hrunId => ?_⟩
        obtain ⟨owner, howner, hjob⟩ :=
          (Option.any_eq_true _ _).mp (List.all_eq_true.mp hqueued.2 runId hrunId)
        refine ⟨owner, howner, ?_⟩
        cases owner with
        | queued => rfl
        | dispatching | cancelling | starting | runner => cases hjob
    · cases hact
  | cancelQueued => exact cancelQueued_effect hs hact
  | bootTake runId =>
    simp only [act] at hact
    split at hact
    · rename_i run hrow
      split at hact
      · rename_i htake
        cases hact
        simp only [Bool.and_eq_true, Bool.not_eq_eq_eq_not, Bool.not_true,
          Option.isNone_iff_eq_none] at htake
        exact (Effect.bootTaken htake.2 hrow htake.1.1.2).quiet rfl rfl
      · cases hact
    · cases hact
  | finishBoot =>
    cases hact
    have hfaded : Faded s { s with booting := false } :=
      let same := Faded.refl s
      ⟨same.writes, same.owners, same.tickets, same.works, same.snapshots, same.outbox,
        same.drawn, same.uuids, same.written⟩
    exact hfaded.effect
  | takeTicket cleanupId =>
    simp only [act] at hact
    split at hact
    · rename_i ticket hticket
      cases hact
      apply Faded.effect
      apply (Faded.refl s).withWorks _
      intro work hwork
      rcases List.mem_append.mp hwork with hmem | hmem
      · exact .inl hmem
      · rw [List.mem_singleton.mp hmem]
        exact .inr ⟨rfl, KeyedRows.find_mem hticket⟩
    · cases hact
  | updateTicket cleanupId stage error =>
    cases hact
    exact (s.updateTransientCleanup_faded cleanupId stage error).effect
  | readWork work =>
    simp only [act] at hact
    split at hact
    · rename_i ticket hwork
      split at hact
      · rename_i run hrow
        cases hact
        obtain ⟨hfind, -⟩ := Option.filter_eq_some_iff.mp hrow
        exact (Effect.workRead hwork hfind).quiet rfl rfl
      · cases hact
        have hdropped : Faded s { s with
            store := s.store.completeTransientCleanup ticket.cleanupId } :=
          cleanups_faded fun row hrow => ⟨row, (List.mem_filter.mp hrow).1, .refl row⟩
        exact (hdropped.withWorks (s.works.eraseIdx work)
          fun work hmem => .inl (List.mem_of_mem_eraseIdx hmem)).effect
    · cases hact
  | commitWork => exact commitWork_effect hs hact
  | dropWork work =>
    cases hact
    exact ((Faded.refl s).withWorks (s.works.eraseIdx work)
      fun work hmem => .inl (List.mem_of_mem_eraseIdx hmem)).effect
  | acknowledge eventId cleanupId =>
    cases hact
    exact acknowledge_effect hs eventId cleanupId
  | crash =>
    cases hact
    have hfaded : Faded s { s with
        owners := fun _ => none
        snapshots := []
        works := []
        booting := true } :=
      { writes := .refl s.store
        owners := fun _ _ h => by cases h
        tickets := fun ticket h => ⟨ticket, h, .refl ticket⟩
        works := fun _ h => by cases h
        snapshots := fun _ h => by cases h
        outbox := rfl
        drawn := subset_rfl
        uuids := subset_rfl
        written := rfl }
    exact hfaded.effect

end Actions

end TerminalState

end Supervisor
