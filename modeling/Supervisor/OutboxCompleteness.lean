import Supervisor.TerminalEffect

namespace Supervisor

namespace TerminalState

/-- In every step from here the commit that makes a run terminal writes its
event, which waits unchanged until it is acknowledged. -/
structure OutboxComplete (s : TerminalState) : Prop where
  /-- A row that a step makes terminal gets its event in that step. -/
  announced : ∀ action t, terminalSystem.step s action = some t → ∀ row ∈ t.store.runs,
    row.state.isAnnounced = true →
      (∀ old ∈ s.store.runs, old.runId = row.runId → old.state.isTerminal = false) →
        ∃ event ∈ t.store.outbox, event ∉ s.store.outbox ∧ event.runId = row.runId ∧
          event.state = row.state
  /-- Nothing but its acknowledgement changes or removes an event, restarts included. -/
  kept : ∀ event ∈ s.store.outbox, ∀ t,
    terminalSystem.Run (fun _ action => action ≠ .acknowledge event.eventId event.cleanupId) s t →
      event ∈ t.store.outbox
  /-- A replay lists the event unless it is full of events that come before it. -/
  listed : ∀ event ∈ s.store.outbox, ∀ limit,
    event ∈ s.store.pendingTransientTerminalEvents limit ∨
      (s.store.pendingTransientTerminalEvents limit).length = limit ∧
        ∀ other ∈ s.store.pendingTransientTerminalEvents limit,
          other.occurredAt < event.occurredAt ∨
            other.occurredAt = event.occurredAt ∧ other.eventId ≤ event.eventId
  /-- An acknowledgement removes the event and the tickets bound to it, which are
  about the same run, and nothing else. -/
  acknowledged : ∀ event ∈ s.store.outbox,
    (s.store.acknowledgeTransientTerminalEvent event.eventId event.cleanupId) =
      { s.store with
        outbox := s.store.outbox.filter (· ≠ event)
        cleanups := s.store.cleanups.filter fun ticket => ticket.cleanupId ≠ event.cleanupId } ∧
      ∀ ticket ∈ s.store.cleanups, ticket.cleanupId = event.cleanupId → ticket.runId = event.runId

variable {s t : TerminalState} {action : TerminalAction}

section Invariant

theorem mem_tickets {ticket : CleanupTicket} :
    ticket ∈ s.tickets ↔ ticket ∈ s.store.cleanups ∨ ∃ work ∈ s.works, work.ticket = ticket := by
  rw [tickets, List.mem_append, List.mem_map]

/-- A terminal row stays terminal unless it is written. -/
theorem Ended.writes {written : JobRunId → Option JobRunState}
    (hwrites : s.store.Writes t.store written) {runId : JobRunId}
    (hwritten : ∀ state, written runId = some state → state.isTerminal = true)
    (h : s.Ended runId) : t.Ended runId := by
  intro row hrow hid
  subst hid
  cases hrun : written row.runId with
  | some state =>
    rw [hwrites.wrote row hrow state hrun]
    exact hwritten state hrun
  | none =>
    obtain ⟨old, hold, hsame, hstate⟩ := hwrites.kept row hrow hrun
    rw [← hstate]
    exact h old hold hsame

/-- What a step must keep for the ids to stay bound to their runs. -/
theorem Bound.next (hs : s.Bound) {written : JobRunId → Option JobRunState}
    {old : List TransientTerminalEvent} (events : List TransientTerminalEvent)
    (hwrites : s.store.Writes t.store written) (hdrawn : s.drawn ⊆ t.drawn)
    (huuids : s.uuids ⊆ t.uuids)
    (hwritten : ∀ runId state, written runId = some state → runId ∈ t.drawn ∧
      (state.isTerminal = true ∨ ∀ ticket ∈ s.tickets, ticket.runId ≠ runId))
    (howners : ∀ runId owner, t.owners runId = some owner → s.owners runId = some owner ∨
      runId ∈ t.drawn ∧ owner.Names runId ∧
        (owner.saves = true → ∀ ticket ∈ s.tickets, ticket.runId ≠ runId))
    (htickets : ∀ ticket ∈ t.tickets, ∃ old ∈ s.tickets, old.SameWork ticket)
    (hsnapshots : ∀ snapshot ∈ t.snapshots, snapshot ∈ s.snapshots ∨
      snapshot.2.Nodup ∧ ∀ runId ∈ snapshot.2, runId ∈ s.drawn)
    (hworks : ∀ work ∈ t.works, work ∈ s.works ∨
      ∀ run, work.read = some run → run.runId = work.ticket.runId)
    (hold : old.Sublist s.store.outbox) (houtbox : t.store.outbox = old ++ events)
    (hids : ∀ event ∈ events, event.cleanupId ∈ t.uuids ∧ event.eventId ∈ t.uuids ∧
      event.eventId ∉ s.uuids)
    (hnodup : (events.map (·.eventId)).Nodup)
    (hnew : ∀ event ∈ events, ∀ ticket ∈ s.tickets, event.cleanupId = ticket.cleanupId →
      event.runId = ticket.runId ∧ t.Ended ticket.runId) : t.Bound where
  rows := hwrites.unique hs.rows
  drawnRows row hrow := by
    cases hrun : written row.runId with
    | some state => exact (hwritten row.runId state hrun).1
    | none =>
      obtain ⟨old, hold, hsame, -⟩ := hwrites.kept row hrow hrun
      exact hdrawn (hsame ▸ hs.drawnRows old hold)
  owners runId owner howner := by
    rcases howners runId owner howner with hsame | ⟨hmem, hnames, -⟩
    · obtain ⟨hmem, hnames⟩ := hs.owners runId owner hsame
      exact ⟨hdrawn hmem, hnames⟩
    · exact ⟨hmem, hnames⟩
  snapshots snapshot hsnapshot := by
    rcases hsnapshots snapshot hsnapshot with hsame | ⟨hruns, hmem⟩
    · obtain ⟨hruns, hmem⟩ := hs.snapshots snapshot hsame
      exact ⟨hruns, fun runId hrunId => hdrawn (hmem runId hrunId)⟩
    · exact ⟨hruns, fun runId hrunId => hdrawn (hmem runId hrunId)⟩
  tickets ticket hticket := by
    obtain ⟨first, hfirst, hsame⟩ := htickets ticket hticket
    obtain ⟨hcleanupId, hrunId, hintended⟩ := hs.tickets first hfirst
    rw [hsame.cleanupId, hsame.runId, hsame.intended]
    exact ⟨huuids hcleanupId, hdrawn hrunId, hintended⟩
  agree a ha b hb hid := by
    obtain ⟨a', ha', hsameA⟩ := htickets a ha
    obtain ⟨b', hb', hsameB⟩ := htickets b hb
    have hagree := hs.agree a' ha' b' hb' (by rw [← hsameA.cleanupId, hid, hsameB.cleanupId])
    exact ⟨hid.symm, by rw [hsameA.runId, hsameB.runId, hagree.runId],
      by rw [hsameA.intended, hsameB.intended, hagree.intended]⟩
  free ticket hticket owner howner := by
    obtain ⟨first, hfirst, hsame⟩ := htickets ticket hticket
    rw [hsame.runId] at howner
    rcases howners _ owner howner with hold | ⟨-, -, hsaves⟩
    · exact hs.free first hfirst owner hold
    · by_contra hnot
      exact hsaves (Bool.not_eq_false _ ▸ hnot) first hfirst rfl
  read work hwork run hread := by
    rcases hworks work hwork with hsame | hnamed
    · exact hs.read work hsame run hread
    · exact hnamed run hread
  events event hevent := by
    rw [houtbox] at hevent
    rcases List.mem_append.mp hevent with hmem | hmem
    · obtain ⟨hcleanupId, heventId⟩ := hs.events event (hold.subset hmem)
      exact ⟨huuids hcleanupId, huuids heventId⟩
    · exact ⟨(hids event hmem).1, (hids event hmem).2.1⟩
  outbox := by
    rw [houtbox, List.map_append, List.nodup_append']
    refine ⟨hs.outbox.sublist (hold.map _), hnodup, ?_⟩
    intro eventId hbefore hafter
    obtain ⟨before, hmem, rfl⟩ := List.mem_map.mp hbefore
    obtain ⟨after, hmem', hid⟩ := List.mem_map.mp hafter
    apply (hids after hmem').2.2
    rw [hid]
    exact (hs.events before (hold.subset hmem)).2
  ended ticket hticket event hevent hid := by
    obtain ⟨first, hfirst, hsame⟩ := htickets ticket hticket
    rw [hsame.cleanupId] at hid
    rw [hsame.runId]
    rw [houtbox] at hevent
    rcases List.mem_append.mp hevent with hmem | hmem
    · obtain ⟨hrunId, hended⟩ := hs.ended first hfirst event (hold.subset hmem) hid
      refine ⟨hrunId, hended.writes hwrites ?_⟩
      intro state hstate
      rcases (hwritten _ state hstate).2 with hterminal | hnone
      · exact hterminal
      · exact absurd rfl (hnone first hfirst)
    · exact hnew event hmem first hfirst hid

theorem Bound.no_ticket (hs : s.Bound) {runId : JobRunId} {owner : RunOwner}
    (howner : s.owners runId = some owner) (hsaves : owner.saves = true) :
    ∀ ticket ∈ s.tickets, ticket.runId ≠ runId := by
  intro ticket hticket heq
  rw [← heq] at howner
  have hfree := hs.free ticket hticket owner howner
  rw [hsaves] at hfree
  cases hfree

theorem Bound.no_ticket_of_fresh (hs : s.Bound) {runId : JobRunId} (hfresh : runId ∉ s.drawn) :
    ∀ ticket ∈ s.tickets, ticket.runId ≠ runId := by
  intro ticket hticket heq
  apply hfresh
  rw [← heq]
  exact (hs.tickets ticket hticket).2.1

theorem Bound.cleanupId_notMem (hs : s.Bound) {cleanupId : Uuid} (hfresh : cleanupId ∉ s.uuids) :
    ∀ ticket ∈ s.tickets, cleanupId ≠ ticket.cleanupId := by
  intro ticket hticket heq
  apply hfresh
  rw [heq]
  exact (hs.tickets ticket hticket).1

theorem RunOwner.saves_of_isWriter {owner : RunOwner} (h : owner.isWriter = true) :
    owner.saves = true := by
  cases owner with
  | dispatching | starting => rfl
  | queued | cancelling | runner => cases h

/-- Only the rows change, and the task of one run. -/
theorem Bound.rewritten (hs : s.Bound) {runId : JobRunId} {owner : Option RunOwner} {store : Store}
    {drawn : Finset JobRunId} {written : JobRunId → Option JobRunState}
    (hwrites : s.store.Writes store written) (hdrawn : s.drawn ⊆ drawn)
    (haside : store.cleanups = s.store.cleanups ∧ store.outbox = s.store.outbox)
    (hwritten : ∀ r state, written r = some state → r ∈ drawn ∧
      (state.isTerminal = true ∨ ∀ ticket ∈ s.tickets, ticket.runId ≠ r))
    (howner : ∀ o, owner = some o → runId ∈ drawn ∧ o.Names runId ∧
      (o.saves = true → ∀ ticket ∈ s.tickets, ticket.runId ≠ runId)) :
    Bound ({ s with store, drawn }.setOwner runId owner) := by
  have htickets : ∀ ticket ∈ ({ s with store, drawn }.setOwner runId owner).tickets,
      ∃ old ∈ s.tickets, old.SameWork ticket := by
    intro ticket hticket
    refine ⟨ticket, ?_, .refl ticket⟩
    rwa [mem_tickets, setOwner_store, haside.1, setOwner_works, ← mem_tickets] at hticket
  refine hs.next (t := { s with store, drawn }.setOwner runId owner) [] hwrites hdrawn subset_rfl
    hwritten ?_ htickets (fun _ h => .inl h) (fun _ h => .inl h) (List.Sublist.refl _)
    (by rw [List.append_nil]; exact haside.2) ?_ List.nodup_nil ?_
  · intro r o ho
    by_cases heq : r = runId
    · subst heq
      rw [setOwner_owners, Function.update_self] at ho
      exact .inr (howner o ho)
    · rw [setOwner_owners, Function.update_of_ne heq] at ho
      exact .inl ho
  · intro event hevent
    cases hevent
  · intro event hevent
    cases hevent

theorem Faded.ticket_old (h : Faded s t) {ticket : CleanupTicket} (hticket : ticket ∈ t.tickets) :
    ∃ old ∈ s.tickets, old.SameWork ticket := by
  rcases mem_tickets.mp hticket with hstored | ⟨work, hwork, rfl⟩
  · obtain ⟨old, hold, hsame⟩ := h.tickets ticket hstored
    exact ⟨old, mem_tickets.mpr (.inl hold), hsame⟩
  · refine ⟨work.ticket, mem_tickets.mpr ?_, .refl _⟩
    rcases h.works work hwork with hold | ⟨-, hlisted⟩
    · exact .inr ⟨work, hold, rfl⟩
    · exact .inl hlisted

theorem Bound.faded (hs : s.Bound) (h : Faded s t) : t.Bound := by
  refine hs.next [] h.writes h.drawn h.uuids ?_ ?_ (fun _ => h.ticket_old) ?_ ?_
    (List.Sublist.refl _) (h.outbox.trans (List.append_nil _).symm) ?_ List.nodup_nil ?_
  · intro runId state hstate
    cases hstate
  · intro runId owner howner
    exact .inl (h.owners runId owner howner)
  · intro snapshot hsnapshot
    rcases h.snapshots snapshot hsnapshot with hold | ⟨hruns, hqueued⟩
    · exact .inl hold
    · refine .inr ⟨hruns, fun runId hrunId => ?_⟩
      obtain ⟨owner, howner, -⟩ := hqueued runId hrunId
      exact (hs.owners runId owner howner).1
  · intro work hwork
    rcases h.works work hwork with hold | ⟨hnone, -⟩
    · exact .inl hold
    · right
      intro run hread
      rw [hnone] at hread
      cases hread
  · intro event hevent
    cases hevent
  · intro event hevent
    cases hevent

/-- The events a commit adds, with the works and snapshots it uses up. -/
theorem Bound.announced (hs : s.Bound) {store : Store} {uuids : Finset Uuid}
    {owners : JobRunId → Option RunOwner} {snapshots : List (String × List JobRunId)}
    {works : List CleanupWork} {history : List (JobRunId × Uuid)}
    {written : JobRunId → Option JobRunState} (events : List TransientTerminalEvent)
    (hwrites : s.store.Writes store written)
    (hwritten : ∀ runId state, written runId = some state →
      runId ∈ s.drawn ∧ state.isTerminal = true)
    (howners : ∀ runId owner, owners runId = some owner → s.owners runId = some owner)
    (hworks : works ⊆ s.works) (hsnapshots : snapshots ⊆ s.snapshots)
    (hcleanups : store.cleanups = s.store.cleanups) (huuids : s.uuids ⊆ uuids)
    (houtbox : store.outbox = s.store.outbox ++ events)
    (hids : ∀ event ∈ events, event.cleanupId ∈ uuids ∧ event.eventId ∈ uuids ∧
      event.eventId ∉ s.uuids)
    (hnodup : (events.map (·.eventId)).Nodup)
    (hnew : ∀ event ∈ events, ∀ ticket ∈ s.tickets, event.cleanupId = ticket.cleanupId →
      event.runId = ticket.runId ∧ ∃ state, written ticket.runId = some state) :
    Bound { s with
      store
      owners
      snapshots
      works
      uuids
      written := history } := by
  have htickets : ∀ ticket ∈ TerminalState.tickets { s with
      store
      owners
      snapshots
      works
      uuids
      written := history }, ∃ old ∈ s.tickets, old.SameWork ticket := by
    intro ticket hticket
    refine ⟨ticket, mem_tickets.mpr ?_, .refl ticket⟩
    rcases mem_tickets.mp hticket with hstored | ⟨work, hwork, hsame⟩
    · exact .inl (hcleanups ▸ hstored)
    · exact .inr ⟨work, hworks hwork, hsame⟩
  refine hs.next events hwrites subset_rfl huuids
    (fun runId state h => ⟨(hwritten runId state h).1, .inl (hwritten runId state h).2⟩)
    (fun runId owner h => .inl (howners runId owner h)) htickets (fun _ h => .inl (hsnapshots h))
    (fun _ h => .inl (hworks h)) (List.Sublist.refl _) houtbox hids hnodup ?_
  intro event hevent ticket hticket hid
  obtain ⟨hrunId, state, hstate⟩ := hnew event hevent ticket hticket hid
  refine ⟨hrunId, ?_⟩
  intro row hrow hrow'
  rw [hwrites.wrote row hrow state (hrow' ▸ hstate)]
  exact (hwritten _ state hstate).2

theorem cancelledRuns_eq_some {events : List TransientTerminalEvent} {runId : JobRunId}
    {state : JobRunState} (h : Store.cancelledRuns events runId = some state) :
    state = .cancelled ∧ ∃ event ∈ events, event.runId = runId := by
  unfold Store.cancelledRuns at h
  split at h
  · rename_i hmem
    obtain ⟨event, hevent, hid⟩ := List.mem_map.mp hmem
    exact ⟨(Option.some.inj h).symm, event, hevent, hid⟩
  · cases h

theorem owners_setOwner_none {runId runId' : JobRunId} {owner : RunOwner}
    (h : Function.update s.owners runId none runId' = some owner) :
    s.owners runId' = some owner := by
  by_cases heq : runId' = runId
  · rw [heq, Function.update_self] at h
    cases h
  · rwa [Function.update_of_ne heq] at h

theorem Bound.enqueued (hs : s.Bound) {ticket : CleanupTicket} {store : Store} {task : RunnerTask}
    (hold : s.owners ticket.runId = some (.runner task)) (hfresh : ticket.cleanupId ∉ s.uuids)
    (hintended : ticket.intendedTerminalState.isTerminal = true)
    (hruns : store.runs = s.store.runs) (houtbox : store.outbox = s.store.outbox)
    (hcleanups : ∀ row ∈ store.cleanups, row = ticket ∨
      ∃ old ∈ s.store.cleanups, old.SameWork row) :
    Bound ({ s with
      store
      uuids := insert ticket.cleanupId s.uuids }.setOwner ticket.runId none) := by
  have hdrawn := (hs.owners ticket.runId _ hold).1
  have hnone := hs.cleanupId_notMem hfresh
  -- every ticket is the new one or continues one that was there
  have htickets : ∀ row ∈ TerminalState.tickets ({ s with
      store
      uuids := insert ticket.cleanupId s.uuids }.setOwner ticket.runId none),
      row = ticket ∨ ∃ old ∈ s.tickets, old.SameWork row := by
    intro row hrow
    rcases mem_tickets.mp hrow with hstored | ⟨work, hwork, rfl⟩
    · rcases hcleanups row hstored with hnew | ⟨old, hold, hsame⟩
      · exact .inl hnew
      · exact .inr ⟨old, mem_tickets.mpr (.inl hold), hsame⟩
    · exact .inr ⟨work.ticket, mem_tickets.mpr (.inr ⟨work, hwork, rfl⟩), .refl _⟩
  have hne : ∀ old ∈ s.tickets, ∀ row, old.SameWork row → row.cleanupId ≠ ticket.cleanupId := by
    intro old hold row hsame heq
    apply hnone old hold
    rw [← heq, hsame.cleanupId]
  constructor
  case rows => exact hruns ▸ hs.rows
  case drawnRows => exact fun row hrow => hs.drawnRows row (hruns ▸ hrow)
  case owners => exact fun runId owner howner => hs.owners runId owner (owners_setOwner_none howner)
  case snapshots => exact hs.snapshots
  case tickets =>
    intro row hrow
    rcases htickets row hrow with rfl | ⟨old, hold, hsame⟩
    · exact ⟨Finset.mem_insert_self _ _, hdrawn, hintended⟩
    · obtain ⟨hcleanupId, hrunId, hterminal⟩ := hs.tickets old hold
      rw [hsame.cleanupId, hsame.runId, hsame.intended]
      exact ⟨Finset.mem_insert_of_mem hcleanupId, hrunId, hterminal⟩
  case agree =>
    intro a ha b hb hid
    rcases htickets a ha with rfl | ⟨a', ha', hsameA⟩
    · rcases htickets b hb with rfl | ⟨b', hb', hsameB⟩
      · exact .refl _
      · exact absurd hid.symm (hne b' hb' b hsameB)
    · rcases htickets b hb with rfl | ⟨b', hb', hsameB⟩
      · exact absurd hid (hne a' ha' a hsameA)
      · have hagree := hs.agree a' ha' b' hb' (by rw [← hsameA.cleanupId, hid, hsameB.cleanupId])
        exact ⟨hid.symm, by rw [hsameA.runId, hsameB.runId, hagree.runId],
          by rw [hsameA.intended, hsameB.intended, hagree.intended]⟩
  case free =>
    intro row hrow owner howner
    rcases htickets row hrow with rfl | ⟨old, hold, hsame⟩
    · rw [setOwner_owners, Function.update_self] at howner
      cases howner
    · rw [hsame.runId] at howner
      exact hs.free old hold owner (owners_setOwner_none howner)
  case read => exact hs.read
  case events =>
    intro event hevent
    have hmem : event ∈ s.store.outbox := houtbox ▸ hevent
    obtain ⟨hcleanupId, heventId⟩ := hs.events event hmem
    exact ⟨Finset.mem_insert_of_mem hcleanupId, Finset.mem_insert_of_mem heventId⟩
  case outbox =>
    show (store.outbox.map (·.eventId)).Nodup
    rw [houtbox]
    exact hs.outbox
  case ended =>
    intro row hrow event hevent hid
    have hmem : event ∈ s.store.outbox := houtbox ▸ hevent
    rcases htickets row hrow with rfl | ⟨old, hold, hsame⟩
    · exact absurd hid (hs.cleanupId_ne hfresh event hmem)
    · rw [hsame.cleanupId] at hid
      obtain ⟨hrunId, hended⟩ := hs.ended old hold event hmem hid
      rw [hsame.runId]
      refine ⟨hrunId, fun row hrow => hended row ?_⟩
      exact hruns ▸ hrow

theorem Bound.work_ticket (hs : s.Bound) {i : ℕ} {ticket : CleanupTicket} {read : Option JobRun}
    (hwork : s.works[i]? = some ⟨ticket, read⟩) :
    ticket ∈ s.tickets ∧ ∀ run, read = some run → run.runId = ticket.runId := by
  have hmem := List.mem_of_getElem? hwork
  exact ⟨mem_tickets.mpr (.inr ⟨_, hmem, rfl⟩), hs.read _ hmem⟩

/-- A commit of cleanup work writes the row of the ticket's run, in a terminal state. -/
theorem Bound.work_written (hs : s.Bound) {i : ℕ} {ticket : CleanupTicket} {run : JobRun}
    (hwork : s.works[i]? = some ⟨ticket, some run⟩) {runId : JobRunId} {state : JobRunState}
    (hstate : Store.single run.runId (ticket.terminalRun run).state runId = some state) :
    runId ∈ s.drawn ∧ state.isTerminal = true := by
  obtain ⟨hticket, hread⟩ := hs.work_ticket hwork
  obtain ⟨hrunId, rfl⟩ := Store.single_eq_some.mp hstate
  obtain ⟨-, hdrawn, hintended⟩ := hs.tickets ticket hticket
  rw [hrunId, hread run rfl]
  refine ⟨hdrawn, ?_⟩
  rw [(Store.terminalRun_spec ticket run).2]
  by_cases hended : run.state.isTerminal = true
  · rwa [if_pos hended]
  · rwa [if_neg hended]

theorem Effect.bound (hs : s.Bound) (h : Effect s action t) : t.Bound := by
  cases h with
  | faded h => exact hs.faded h
  | held hold hsaves hnames =>
    obtain ⟨hdrawn, hnamed⟩ := hs.owners _ _ hold
    refine hs.rewritten (.refl s.store) subset_rfl ⟨rfl, rfl⟩ ?_ ?_
    · intro runId state hstate
      cases hstate
    · intro o ho
      cases ho
      exact ⟨hdrawn, hnames hnamed, fun hsaving => hs.no_ticket hold (hsaves hsaving)⟩
  | called owner hfresh hnames =>
    refine hs.rewritten (.refl s.store) (Finset.subset_insert _ _) ⟨rfl, rfl⟩ ?_ ?_
    · intro runId state hstate
      cases hstate
    · intro o ho
      cases ho
      exact ⟨Finset.mem_insert_self _ _, hnames, fun _ => hs.no_ticket_of_fresh hfresh⟩
  | inserted owner hfresh hwrites haside hnames =>
    refine hs.rewritten hwrites (Finset.subset_insert _ _) haside ?_ ?_
    · intro runId state hstate
      obtain ⟨rfl, -⟩ := Store.single_eq_some.mp hstate
      exact ⟨Finset.mem_insert_self _ _, .inr (hs.no_ticket_of_fresh hfresh)⟩
    · intro o ho
      cases ho
      exact ⟨Finset.mem_insert_self _ _, hnames, fun _ => hs.no_ticket_of_fresh hfresh⟩
  | @insertedSkipped _ runId store hfresh hwrites haside =>
    have hnone : s.owners runId = none := by
      cases howner : s.owners runId with
      | none => rfl
      | some owner => exact absurd (hs.owners runId owner howner).1 hfresh
    have hbound : Bound ({ s with store, drawn := insert runId s.drawn }.setOwner runId none) := by
      refine hs.rewritten hwrites (Finset.subset_insert _ _) haside ?_ ?_
      · intro runId' state hstate
        obtain ⟨rfl, rfl⟩ := Store.single_eq_some.mp hstate
        exact ⟨Finset.mem_insert_self _ _, .inl rfl⟩
      · intro o ho
        cases ho
    unfold setOwner at hbound
    rwa [← hnone, Function.update_eq_self] at hbound
  | saved hold hwriter hwrites haside hstate hnames =>
    obtain ⟨hdrawn, -⟩ := hs.owners _ _ hold
    have hnone := hs.no_ticket hold (RunOwner.saves_of_isWriter hwriter)
    refine hs.rewritten hwrites subset_rfl haside ?_ ?_
    · intro runId state hwritten
      obtain ⟨rfl, -⟩ := Store.single_eq_some.mp hwritten
      exact ⟨hdrawn, .inr hnone⟩
    · intro o ho
      exact ⟨hdrawn, (hnames o ho).1, fun _ => hnone⟩
  | @committed _ runId old event store hold _ hrunId hcleanupId heventId hstate hwrites hcleanups
      houtbox =>
    refine hs.announced [event] hwrites ?_ (fun _ _ => owners_setOwner_none) (List.Subset.refl _)
      (List.Subset.refl _) hcleanups ?_ houtbox ?_ ?_ ?_
    · intro runId' state hwritten
      obtain ⟨rfl, rfl⟩ := Store.single_eq_some.mp hwritten
      exact ⟨(hs.owners _ _ hold).1, JobRunState.isTerminal_of_isAnnounced hstate⟩
    · exact (Finset.subset_insert _ _).trans (Finset.subset_insert _ _)
    · intro e he
      rw [List.mem_singleton.mp he]
      exact ⟨Finset.mem_insert_self _ _, Finset.mem_insert_of_mem (Finset.mem_insert_self _ _),
        heventId⟩
    · exact List.nodup_singleton _
    · intro e he ticket hticket hid
      rw [List.mem_singleton.mp he] at hid
      exact absurd hid (hs.cleanupId_notMem hcleanupId ticket hticket)
  | @cancelled now ids snapshot jobName runIds events store uuids hsnapshot hruns heventIds hfresh
      huuids hstate hwrites hcleanups houtbox =>
    refine hs.announced events hwrites ?_ (fun _ _ h => h) (List.Subset.refl _)
      (List.eraseIdx_subset) hcleanups huuids houtbox ?_ heventIds ?_
    · intro runId state hwritten
      obtain ⟨rfl, event, hevent, rfl⟩ := cancelledRuns_eq_some hwritten
      obtain ⟨-, row, hrow, hid, -⟩ := hstate event hevent
      exact ⟨hid ▸ hs.drawnRows row hrow, rfl⟩
    · intro event hevent
      obtain ⟨-, hfreshEvent, hcleanupId, heventId⟩ := hfresh event hevent
      exact ⟨hcleanupId, heventId, hfreshEvent⟩
    · intro event hevent ticket hticket hid
      exact absurd hid (hs.cleanupId_notMem (hfresh event hevent).1 ticket hticket)
  | bootTaken hold hrow _ =>
    have hid := KeyedRows.find_key hrow
    refine hs.rewritten (.refl s.store) subset_rfl ⟨rfl, rfl⟩ ?_ ?_
    · intro runId state hstate
      cases hstate
    · intro o ho
      cases ho
      refine ⟨?_, hid, fun hsaving => ?_⟩
      · rw [← hid]
        exact hs.drawnRows _ (KeyedRows.find_mem hrow)
      · cases hsaving
  | enqueued hold hfresh hintended hruns houtbox hcleanups =>
    exact hs.enqueued hold hfresh hintended hruns houtbox hcleanups
  | @workRead work ticket run hwork hrow =>
    obtain ⟨hticket, -⟩ := hs.work_ticket hwork
    have hset : ∀ other ∈ s.works.set work ⟨ticket, some run⟩,
        other ∈ s.works ∨ other = ⟨ticket, some run⟩ := fun other h => List.mem_or_eq_of_mem_set h
    refine hs.next (t := { s with works := s.works.set work ⟨ticket, some run⟩ }) [] (.refl s.store)
      subset_rfl subset_rfl ?_ (fun _ _ h => .inl h) ?_ (fun _ h => .inl h) ?_
      (List.Sublist.refl _) (List.append_nil _).symm ?_ List.nodup_nil ?_
    · intro runId state hstate
      cases hstate
    · intro row hrow
      refine ⟨row, ?_, .refl row⟩
      rcases mem_tickets.mp hrow with hstored | ⟨other, hother, rfl⟩
      · exact mem_tickets.mpr (.inl hstored)
      · rcases hset other hother with hmem | rfl
        · exact mem_tickets.mpr (.inr ⟨other, hmem, rfl⟩)
        · exact hticket
    · intro other hother
      rcases hset other hother with hmem | rfl
      · exact .inl hmem
      · right
        intro read hread
        cases hread
        exact KeyedRows.find_key hrow
    · intro event hevent
      cases hevent
    · intro event hevent
      cases hevent
  | @worked work eventId ticket run store event hwork hevent hfresh _ hwrites hcleanups _ houtbox =>
    obtain ⟨hticket, hread⟩ := hs.work_ticket hwork
    obtain ⟨hcleanupId, hid, hrunId, -⟩ := hevent
    refine hs.announced [event] hwrites (fun _ _ => hs.work_written hwork) (fun _ _ h => h)
      (List.eraseIdx_subset) (List.Subset.refl _) hcleanups (Finset.subset_insert _ _) houtbox ?_ ?_ ?_
    · intro e he
      rw [List.mem_singleton.mp he, hcleanupId, hid]
      exact ⟨Finset.mem_insert_of_mem (hs.tickets ticket hticket).1, Finset.mem_insert_self _ _,
        hfresh⟩
    · exact List.nodup_singleton _
    · intro e he other hother hsame
      rw [List.mem_singleton.mp he, hcleanupId] at hsame
      rw [List.mem_singleton.mp he, hrunId]
      -- the copies of one ticket are about one run
      have hagree := (hs.agree ticket hticket other hother hsame).runId
      rw [hagree]
      refine ⟨rfl, (ticket.terminalRun run).state, ?_⟩
      rw [← hread run rfl]
      exact Store.single_self _ _
  | @workedAgain eventId work ticket run store hwork _ hwrites hcleanups _ houtbox =>
    refine hs.announced [] hwrites (fun _ _ => hs.work_written hwork) (fun _ _ h => h)
      (List.eraseIdx_subset) (List.Subset.refl _) hcleanups (Finset.subset_insert _ _)
      (houtbox.trans (List.append_nil _).symm) ?_ List.nodup_nil ?_
    · intro e he
      cases he
    · intro e he
      cases he

  | @acknowledged event hevent =>
    refine hs.next [] (.of_runs rfl) subset_rfl subset_rfl ?_ (fun _ _ h => .inl h) ?_
      (fun _ h => .inl h) (fun _ h => .inl h) List.filter_sublist (List.append_nil _).symm ?_
      List.nodup_nil ?_
    · intro runId state hstate
      cases hstate
    · intro row hrow
      refine ⟨row, mem_tickets.mpr ?_, .refl row⟩
      rcases mem_tickets.mp hrow with hstored | hheld
      · exact .inl (List.mem_filter.mp hstored).1
      · exact .inr hheld
    · intro e he
      cases he
    · intro e he
      cases he

theorem bound_empty : Bound {} where
  rows := List.nodup_nil
  drawnRows row hrow := by cases hrow
  owners runId owner howner := by cases howner
  snapshots snapshot hsnapshot := by cases hsnapshot
  tickets ticket hticket := by cases hticket
  agree a ha := by cases ha
  free ticket hticket := by cases hticket
  read work hwork := by cases hwork
  events event hevent := by cases hevent
  outbox := List.nodup_nil
  ended ticket hticket := by cases hticket

theorem bound_of_run {C : TerminalState → TerminalAction → Prop}
    (h : terminalSystem.Run C {} s) : s.Bound :=
  h.invariant (I := Bound) (fun _ _ _ hs _ hstep => (effect hs hstep).bound hs) bound_empty

end Invariant

section Rows

variable {row : JobRun}

theorem announced_of_writes {u v : Store} {written : JobRunId → Option JobRunState}
    (hwrites : u.Writes v written) (hrow : row ∈ v.runs) (hstate : row.state.isAnnounced = true)
    (hbefore : ∀ old ∈ u.runs, old.runId = row.runId → old.state.isTerminal = false) :
    written row.runId = some row.state := by
  cases hrun : written row.runId with
  | some state => rw [hwrites.wrote row hrow state hrun]
  | none =>
    obtain ⟨old, hold, hid, hsame⟩ := hwrites.kept row hrow hrun
    have hnot := hbefore old hold hid
    rw [hsame, JobRunState.isTerminal_of_isAnnounced hstate] at hnot
    cases hnot

/-- The commit that makes a row terminal writes its event. -/
theorem Effect.announced_row (hs : s.Bound) (h : Effect s action t) (hrow : row ∈ t.store.runs)
    (hstate : row.state.isAnnounced = true)
    (hbefore : ∀ old ∈ s.store.runs, old.runId = row.runId → old.state.isTerminal = false) :
    ∃ event ∈ t.store.outbox, event ∉ s.store.outbox ∧ event.runId = row.runId ∧
      event.state = row.state := by
  have hlast {store : Store} {events : List TransientTerminalEvent}
      {event : TransientTerminalEvent} (houtbox : store.outbox = s.store.outbox ++ events)
      (hevent : event ∈ events) : event ∈ store.outbox := by
    rw [houtbox]
    exact List.mem_append_right _ hevent
  cases h with
  | faded h =>
    have hwritten := announced_of_writes h.writes hrow hstate hbefore
    cases hwritten
  | held | called | bootTaken | workRead =>
    have hwritten := announced_of_writes (.refl s.store) hrow hstate hbefore
    cases hwritten
  | enqueued _ _ _ hruns =>
    have hwritten := announced_of_writes (.of_runs hruns) hrow hstate hbefore
    cases hwritten
  | acknowledged =>
    have hwritten := announced_of_writes (.refl s.store) hrow hstate hbefore
    cases hwritten
  | inserted owner hfresh hwrites | insertedSkipped hfresh hwrites =>
    -- a new row is pending or skipped
    have hwritten := announced_of_writes hwrites hrow hstate hbefore
    rw [(Store.single_eq_some.mp hwritten).2] at hstate
    cases hstate
  | saved hold hwriter hwrites haside hopen =>
    have hwritten := announced_of_writes hwrites hrow hstate hbefore
    have hsame := (Store.single_eq_some.mp hwritten).2
    rcases hopen with hopen | ⟨hskipped, -⟩
    · rw [← hsame, JobRunState.isTerminal_of_isAnnounced hstate] at hopen
      cases hopen
    · rw [hsame, hskipped] at hstate
      cases hstate
  | @committed _ runId old event store hold _ hrunId _ heventId _ hwrites _ houtbox =>
    have hwritten := announced_of_writes hwrites hrow hstate hbefore
    obtain ⟨hid, hsame⟩ := Store.single_eq_some.mp hwritten
    exact ⟨event, hlast houtbox List.mem_cons_self, hs.event_notMem heventId,
      hrunId.trans hid.symm, hsame.symm⟩
  | @cancelled now ids snapshot jobName runIds events store uuids _ _ _ hfresh _ hcancelled hwrites
      _ houtbox =>
    have hwritten := announced_of_writes hwrites hrow hstate hbefore
    obtain ⟨hsame, event, hevent, hid⟩ := cancelledRuns_eq_some hwritten
    exact ⟨event, hlast houtbox hevent, hs.event_notMem (hfresh event hevent).2.1, hid,
      (hcancelled event hevent).1.trans hsame.symm⟩
  | @worked work eventId ticket run store event hwork hevent hfresh _ hwrites _ _ houtbox =>
    have hwritten := announced_of_writes hwrites hrow hstate hbefore
    obtain ⟨hid, hsame⟩ := Store.single_eq_some.mp hwritten
    obtain ⟨-, hread⟩ := hs.work_ticket hwork
    obtain ⟨-, heventId, hrunId, hcommitted⟩ := hevent
    refine ⟨event, hlast houtbox List.mem_cons_self, hs.event_notMem (heventId ▸ hfresh), ?_, ?_⟩
    · rw [hrunId, hid, hread run rfl]
    · rw [hcommitted, hsame]
  | @workedAgain eventId work ticket run store hwork hstored hwrites _ hpresent =>
    -- the run had ended when the waiting event was written
    have hwritten := announced_of_writes hwrites hrow hstate hbefore
    obtain ⟨hid, -⟩ := Store.single_eq_some.mp hwritten
    obtain ⟨hticket, hread⟩ := hs.work_ticket hwork
    obtain ⟨event, hevent, hcleanupId⟩ := hpresent
    obtain ⟨-, hended⟩ := hs.ended ticket hticket event hevent hcleanupId
    obtain ⟨old, hold, hsame⟩ := hstored
    have hterminal := hended old hold (hsame.trans (hread run rfl))
    rw [hbefore old hold (hsame.trans hid.symm)] at hterminal
    cases hterminal

theorem Effect.outbox_kept (h : Effect s action t) {event : TransientTerminalEvent}
    (hevent : event ∈ s.store.outbox)
    (hother : action ≠ .acknowledge event.eventId event.cleanupId) : event ∈ t.store.outbox := by
  have happended {store : Store} {events : List TransientTerminalEvent}
      (houtbox : store.outbox = s.store.outbox ++ events) : event ∈ store.outbox := by
    rw [houtbox]
    exact List.mem_append_left _ hevent
  cases h with
  | faded h =>
    rw [h.outbox]
    exact hevent
  | held | called | bootTaken | workRead => exact hevent
  | inserted owner hfresh hwrites haside => exact haside.2 ▸ hevent
  | insertedSkipped hfresh hwrites haside => exact haside.2 ▸ hevent
  | saved hold hwriter hwrites haside => exact haside.2 ▸ hevent
  | enqueued _ _ _ _ houtbox => exact houtbox ▸ hevent
  | committed _ _ _ _ _ _ _ _ houtbox => exact happended houtbox
  | cancelled _ _ _ _ _ _ _ _ _ _ houtbox => exact happended houtbox
  | worked _ _ _ _ _ _ _ houtbox => exact happended houtbox
  | workedAgain _ _ _ _ _ _ houtbox => exact houtbox ▸ hevent
  | acknowledged =>
    apply List.mem_filter.mpr
    refine ⟨hevent, decide_eq_true ?_⟩
    rintro rfl
    exact hother rfl

end Rows

/-- A row that a sorted listing leaves out comes after all the rows it lists. -/
theorem listed_of_mem {store : Store} {event : TransientTerminalEvent}
    (hevent : event ∈ store.outbox) (limit : ℕ) :
    event ∈ store.pendingTransientTerminalEvents limit ∨
      (store.pendingTransientTerminalEvents limit).length = limit ∧
        ∀ other ∈ store.pendingTransientTerminalEvents limit,
          other.occurredAt < event.occurredAt ∨
            other.occurredAt = event.occurredAt ∧ other.eventId ≤ event.eventId := by
  let before : TransientTerminalEvent → TransientTerminalEvent → Prop := fun a b =>
    a.occurredAt < b.occurredAt ∨ a.occurredAt = b.occurredAt ∧ a.eventId ≤ b.eventId
  have htotal : Std.Total before := by
    constructor
    intro a b
    rcases lt_trichotomy a.occurredAt b.occurredAt with hlt | heq | hgt
    · exact .inl (.inl hlt)
    · rcases Nat.le_total a.eventId b.eventId with hle | hle
      · exact .inl (.inr ⟨heq, hle⟩)
      · exact .inr (.inr ⟨heq.symm, hle⟩)
    · exact .inr (.inl hgt)
  have htrans : IsTrans _ before := by
    constructor
    intro a b c hab hbc
    rcases hab with hab | ⟨hab, hid⟩
    · rcases hbc with hbc | ⟨hbc, -⟩
      · exact .inl (hab.trans hbc)
      · exact .inl (hbc ▸ hab)
    · rcases hbc with hbc | ⟨hbc, hid'⟩
      · exact .inl (hab ▸ hbc)
      · exact .inr ⟨hab.trans hbc, hid.trans hid'⟩
  let sorted := store.outbox.insertionSort before
  have hmem : event ∈ sorted := (List.mem_insertionSort _).mpr hevent
  have hpairs : sorted.Pairwise before := List.pairwise_insertionSort before store.outbox
  show event ∈ sorted.take limit ∨ (sorted.take limit).length = limit ∧
    ∀ other ∈ sorted.take limit, before other event
  rw [← List.take_append_drop limit sorted, List.mem_append] at hmem
  rcases hmem with hlisted | hleft
  · exact .inl hlisted
  · right
    constructor
    · have hlength : limit < sorted.length := by
        by_contra hnot
        rw [List.drop_eq_nil_of_le (by omega)] at hleft
        cases hleft
      rw [List.length_take]
      omega
    · intro other hother
      rw [← List.take_append_drop limit sorted, List.pairwise_append] at hpairs
      exact hpairs.2.2 other hother event hleft

/-- Whatever the order of commits, cleanups, acknowledgements and restarts, every
commit that makes a run terminal leaves its event, which stays until it is
acknowledged. -/
theorem outboxComplete (h : terminalSystem.Reaches {} s) : s.OutboxComplete where
  announced action t hstep row hrow hstate hbefore := by
    have hs := bound_of_run h
    exact (effect hs hstep).announced_row hs hrow hstate hbefore
  kept event hevent t hrun := by
    have hs := bound_of_run h
    have hkeep : t.Bound ∧ event ∈ t.store.outbox := by
      refine hrun.invariant (I := fun u => u.Bound ∧ event ∈ u.store.outbox) ?_ ⟨hs, hevent⟩
      intro u action v hu hother hstep
      have heffect := effect hu.1 hstep
      exact ⟨heffect.bound hu.1, heffect.outbox_kept hu.2 hother⟩
    exact hkeep.2
  listed event hevent limit := listed_of_mem hevent limit
  acknowledged event hevent := by
    have hs := bound_of_run h
    constructor
    · exact acknowledge_eq hs hevent
    · intro ticket hticket hid
      have hmem : ticket ∈ s.tickets := mem_tickets.mpr (.inl hticket)
      exact (hs.ended ticket hmem event hevent hid.symm).1.symm

def exportJob : Job := { id := ⟨1⟩, name := "export", trigger := .cron "0 * * * *" }

/-- A run ends, its commit is announced, and the daemon restarts. -/
def exportAndRestart : List TerminalAction :=
  [.saveJob exportJob, .finishBoot, .callDispatch exportJob ⟨10⟩, .savePending ⟨10⟩ 0,
    .register ⟨10⟩ false, .saveRunning ⟨10⟩ 1,
    .endRun ⟨10⟩ .succeeded { startedAt := 1, endedAt := 2, exitCode := some 0 },
    .commitTerminal ⟨10⟩ 3 20 21, .crash]

theorem exportAndRestart_outboxComplete :
    ∃ s, (terminalSystem.Reaches {} s ∧
      s.store.outbox.any (fun event => event.runId = ⟨10⟩ && event.state = .succeeded) = true) ∧
        s.OutboxComplete := by
  have hexec : (terminalSystem.exec {} exportAndRestart).any (fun s =>
      s.store.outbox.any fun event => event.runId = ⟨10⟩ && event.state = .succeeded) = true := by
    decide
  obtain ⟨s, hreaches, houtbox⟩ := Machine.exists_reaches_of_exec _ exportAndRestart hexec
  exact ⟨s, ⟨hreaches, houtbox⟩, outboxComplete hreaches⟩

end TerminalState

end Supervisor
