import Supervisor.OutboxCompleteness

namespace Supervisor

/-- When the writers of a terminal row are apart: a queued run starts, or leaves
the queue, while its row is pending; a deletion cancels runs that are still
queued; bootstrap cancels a run no cleanup ticket is about; cleanup work ends
while its ticket is stored. -/
def terminalGuard (s : TerminalState) : TerminalAction → Bool
  | .promote runId | .dequeue runId => (s.store.findRun runId).any (·.state = .pending)
  | .cancelQueued snapshot _ _ =>
    (s.snapshots[snapshot]?).all fun (_, runIds) =>
      (runIds.any fun runId => !(s.store.findRun runId).any (·.state = .pending)) ||
        runIds.all fun runId => (s.owners runId).any (·.isQueued)
  | .bootTake runId => s.store.cleanups.all fun ticket => ticket.runId ≠ runId
  | .commitWork work _ =>
    (s.works[work]?).all fun work =>
      s.store.cleanups.any fun ticket => ticket.cleanupId = work.ticket.cleanupId
  | _ => true

namespace TerminalState

/-- A terminal row keeps its state in every further permitted run, and no run
was given a second event. -/
structure TerminalStable (s : TerminalState) : Prop where
  final : ∀ row ∈ s.store.runs, row.state.isTerminal = true → ∀ t,
    terminalSystem.Run (fun u action => terminalGuard u action = true) s t →
      ∀ later ∈ t.store.runs, later.runId = row.runId → later.state = row.state
  once : ∀ runId eventId eventId', (runId, eventId) ∈ s.written →
    (runId, eventId') ∈ s.written → eventId = eventId'

/-- The run has no event yet and no terminal row. -/
structure Live (s : TerminalState) (r : JobRunId) : Prop where
  unwritten : ∀ eventId, (r, eventId) ∉ s.written
  rows : ∀ row ∈ s.store.runs, row.runId = r → row.state.isTerminal = false

/-- What cleanup work that has read a run would commit is what its row says. -/
def Agrees (s : TerminalState) (work : CleanupWork) : Prop :=
  ∀ run, work.read = some run → ∀ row ∈ s.store.runs, row.runId = work.ticket.runId →
    (row.state.isTerminal = true → row.state = (work.ticket.terminalRun run).state) ∧
      (run.state.isTerminal = true → row.state.isTerminal = true)

/-- One writer at a time may end a run: the task that holds it, or the work on
its one ticket. -/
structure Exclusive (s : TerminalState) (r : JobRunId) : Prop where
  fresh : r ∉ s.drawn → ∀ eventId, (r, eventId) ∉ s.written
  unwritten : ∀ row ∈ s.store.runs, row.runId = r → row.state.isTerminal = false →
    ∀ eventId, (r, eventId) ∉ s.written
  held : ∀ owner, s.owners r = some owner → owner.isQueued = false → s.Live r
  free : ∀ owner, s.owners r = some owner → ∀ ticket ∈ s.store.cleanups, ticket.runId ≠ r
  ticketed : ∀ ticket ∈ s.store.cleanups, ticket.runId = r →
    s.Live r ∨ ∃ event ∈ s.store.outbox, event.cleanupId = ticket.cleanupId
  oneTicket : ∀ a ∈ s.store.cleanups, ∀ b ∈ s.store.cleanups, a.runId = r → b.runId = r →
    a.cleanupId = b.cleanupId
  works : ∀ work ∈ s.works, work.ticket.runId = r →
    (∃ ticket ∈ s.store.cleanups, ticket.runId = r ∧ ticket.cleanupId = work.ticket.cleanupId) →
      s.Agrees work
  once : ∀ eventId eventId', (r, eventId) ∈ s.written → (r, eventId') ∈ s.written →
    eventId = eventId'

variable {s t : TerminalState} {action : TerminalAction} {r : JobRunId}

section Exclusive

theorem Exclusive.live_of_row (h : s.Exclusive r) (hs : s.Bound) {row : JobRun}
    (hrow : row ∈ s.store.runs) (hid : row.runId = r) (hopen : row.state.isTerminal = false) :
    s.Live r where
  unwritten := h.unwritten row hrow hid hopen
  rows other hother hother' := by
    have hsame := hs.rows.eq_of_key hother hrow (hother'.trans hid.symm)
    rw [hsame]
    exact hopen

theorem Exclusive.live_of_fresh (h : s.Exclusive r) (hs : s.Bound) (hfresh : r ∉ s.drawn) :
    s.Live r where
  unwritten := h.fresh hfresh
  rows row hrow hid := absurd (hid ▸ hs.drawnRows row hrow) hfresh

/-- A step that leaves the run, its tickets and its events alone. -/
theorem Exclusive.frame (h : s.Exclusive r)
    (hdrawn : s.drawn ⊆ t.drawn)
    (hrows : ∀ row ∈ t.store.runs, row.runId = r →
      ∃ old ∈ s.store.runs, old.runId = r ∧ old.state = row.state)
    (howner : ∀ owner, t.owners r = some owner → s.owners r = some owner ∨
      (∀ ticket ∈ s.store.cleanups, ticket.runId ≠ r) ∧ (owner.isQueued = false → s.Live r))
    (htickets : ∀ ticket ∈ t.store.cleanups, ticket.runId = r →
      ∃ old ∈ s.store.cleanups, old.SameWork ticket)
    (hworks : ∀ work ∈ t.works, work.ticket.runId = r → work ∈ s.works ∨ s.Agrees work)
    (hwritten : ∀ eventId, (r, eventId) ∈ t.written → (r, eventId) ∈ s.written)
    (houtbox : ∀ ticket ∈ t.store.cleanups, ticket.runId = r → ∀ event ∈ s.store.outbox,
      event.cleanupId = ticket.cleanupId → event ∈ t.store.outbox) : t.Exclusive r := by
  have hlive (hl : s.Live r) : t.Live r := by
    constructor
    · exact fun eventId hmem => hl.unwritten eventId (hwritten eventId hmem)
    · intro row hrow hid
      obtain ⟨old, hold, holdId, hstate⟩ := hrows row hrow hid
      rw [← hstate]
      exact hl.rows old hold holdId
  constructor
  case fresh =>
    intro hfresh eventId hmem
    exact h.fresh (fun hin => hfresh (hdrawn hin)) eventId (hwritten eventId hmem)
  case unwritten =>
    intro row hrow hid hopen eventId hmem
    obtain ⟨old, hold, holdId, hstate⟩ := hrows row hrow hid
    exact h.unwritten old hold holdId (hstate ▸ hopen) eventId (hwritten eventId hmem)
  case held =>
    intro owner hown hqueued
    rcases howner owner hown with hsame | ⟨-, hl⟩
    · exact hlive (h.held owner hsame hqueued)
    · exact hlive (hl hqueued)
  case free =>
    intro owner hown ticket hticket hid
    obtain ⟨old, hold, hsame⟩ := htickets ticket hticket hid
    have holdId : old.runId = r := hsame.runId.symm.trans hid
    rcases howner owner hown with hheld | ⟨hnone, -⟩
    · exact h.free owner hheld old hold holdId
    · exact hnone old hold holdId
  case ticketed =>
    intro ticket hticket hid
    obtain ⟨old, hold, hsame⟩ := htickets ticket hticket hid
    rcases h.ticketed old hold (hsame.runId.symm.trans hid) with hl | ⟨event, hevent, hevent'⟩
    · exact .inl (hlive hl)
    · have hevent'' := hevent'.trans hsame.cleanupId.symm
      exact .inr ⟨event, houtbox ticket hticket hid event hevent hevent'', hevent''⟩
  case oneTicket =>
    intro a ha b hb haId hbId
    obtain ⟨a', ha', hsameA⟩ := htickets a ha haId
    obtain ⟨b', hb', hsameB⟩ := htickets b hb hbId
    have hone := h.oneTicket a' ha' b' hb' (hsameA.runId.symm.trans haId)
      (hsameB.runId.symm.trans hbId)
    rw [hsameA.cleanupId, hone, hsameB.cleanupId]
  case works =>
    intro work hwork hid hstored run hread row hrow hrowId
    obtain ⟨ticket, hticket, hticketId, hcleanupId⟩ := hstored
    obtain ⟨first, hfirst, hsame⟩ := htickets ticket hticket hticketId
    obtain ⟨old, hold, holdId, hstate⟩ := hrows row hrow (hrowId.trans hid)
    have hagrees : s.Agrees work := by
      rcases hworks work hwork hid with hmem | hagrees
      · exact h.works work hmem hid ⟨first, hfirst, hsame.runId.symm.trans hticketId,
          hsame.cleanupId.symm.trans hcleanupId⟩
      · exact hagrees
    rw [← hstate]
    exact hagrees run hread old hold (holdId.trans hid.symm)
  case once =>
    intro eventId eventId' hmem hmem'
    exact h.once eventId eventId' (hwritten eventId hmem) (hwritten eventId' hmem')

/-- A run that no stored ticket is about. -/
theorem Exclusive.ticketless (hnone : ∀ ticket ∈ t.store.cleanups, ticket.runId ≠ r)
    (hdrawn : r ∈ t.drawn)
    (hunwritten : ∀ row ∈ t.store.runs, row.runId = r → row.state.isTerminal = false →
      ∀ eventId, (r, eventId) ∉ t.written)
    (hheld : ∀ owner, t.owners r = some owner → owner.isQueued = false → t.Live r)
    (honce : ∀ eventId eventId', (r, eventId) ∈ t.written → (r, eventId') ∈ t.written →
      eventId = eventId') : t.Exclusive r where
  fresh hfresh := absurd hdrawn hfresh
  unwritten := hunwritten
  held := hheld
  free _ _ ticket hticket := hnone ticket hticket
  ticketed ticket hticket hid := absurd hid (hnone ticket hticket)
  oneTicket a ha _ _ haId := absurd haId (hnone a ha)
  works _ _ _ hstored := by
    obtain ⟨ticket, hticket, hid, -⟩ := hstored
    exact absurd hid (hnone ticket hticket)
  once := honce

theorem kept_rows {written : JobRunId → Option JobRunState} (hwrites : s.store.Writes t.store written)
    (hnone : written r = none) : ∀ row ∈ t.store.runs, row.runId = r →
      ∃ old ∈ s.store.runs, old.runId = r ∧ old.state = row.state := by
  intro row hrow hid
  obtain ⟨old, hold, hsame, hstate⟩ := hwrites.kept row hrow (hid ▸ hnone)
  exact ⟨old, hold, hsame.trans hid, hstate⟩

theorem Agrees.of_unread {work : CleanupWork} (hread : work.read = none) : s.Agrees work := by
  intro run hrun
  rw [hread] at hrun
  cases hrun

/-- The other runs when one run is written and its task goes on or ends. -/
theorem Exclusive.other (h : s.Exclusive r) (drawn : Finset JobRunId) {runId : JobRunId}
    (hne : r ≠ runId) {store : Store} {uuids : Finset Uuid} {owner : Option RunOwner}
    {written : JobRunId → Option JobRunState} {history : List (JobRunId × Uuid)}
    (events : List TransientTerminalEvent) (hwrites : s.store.Writes store written)
    (hnone : written r = none) (hdrawn : s.drawn ⊆ drawn)
    (hcleanups : ∀ ticket ∈ store.cleanups, ticket.runId = r →
      ∃ old ∈ s.store.cleanups, old.SameWork ticket)
    (houtbox : store.outbox = s.store.outbox ++ events)
    (hhistory : ∀ eventId, (r, eventId) ∈ history → (r, eventId) ∈ s.written) :
    Exclusive ({ s with
      store
      drawn
      uuids
      written := history }.setOwner runId owner) r := by
  refine h.frame hdrawn (kept_rows (t := { s with store }) hwrites hnone) ?_ hcleanups
    (fun _ hwork _ => .inl hwork) hhistory ?_
  · intro o ho
    rw [setOwner_owners, Function.update_of_ne hne] at ho
    exact .inl ho
  · intro ticket _ _ event hevent _
    show event ∈ store.outbox
    rw [houtbox]
    exact List.mem_append_left _ hevent

theorem Exclusive.faded (h : s.Exclusive r) (hf : Faded s t) : t.Exclusive r := by
  refine h.frame hf.drawn (kept_rows hf.writes rfl) (fun owner ho => .inl (hf.owners r owner ho))
    (fun ticket hticket _ => hf.tickets ticket hticket) ?_ ?_ ?_
  · intro work hwork _
    rcases hf.works work hwork with hold | ⟨hunread, -⟩
    · exact .inl hold
    · exact .inr (.of_unread hunread)
  · intro eventId hmem
    rwa [hf.written] at hmem
  · intro _ _ _ event hevent _
    rwa [hf.outbox]

/-- A new task holds the run, or the task that held it goes on. -/
theorem Exclusive.taken (h : s.Exclusive r) {runId : JobRunId} {owner : RunOwner}
    (drawn : Finset JobRunId) (hdrawn : s.drawn ⊆ drawn)
    (hfree : ∀ ticket ∈ s.store.cleanups, ticket.runId ≠ runId)
    (hlive : owner.isQueued = false → s.Live runId) :
    Exclusive ({ s with drawn }.setOwner runId (some owner)) r := by
  refine h.frame hdrawn (fun row hrow hid => ⟨row, hrow, hid, rfl⟩) ?_
    (fun ticket hticket _ => ⟨ticket, hticket, .refl ticket⟩) (fun _ hwork _ => .inl hwork)
    (fun _ hmem => hmem) (fun _ _ _ _ hevent _ => hevent)
  intro o ho
  by_cases heq : r = runId
  · subst heq
    rw [setOwner_owners, Function.update_self] at ho
    cases ho
    exact .inr ⟨hfree, hlive⟩
  · rw [setOwner_owners, Function.update_of_ne heq] at ho
    exact .inl ho

/-- A new ticket takes the run over from the task that held it. -/
theorem Exclusive.enqueued (hs : s.Bound) (h : s.Exclusive r) {ticket : CleanupTicket}
    {store : Store} {task : RunnerTask} (hold : s.owners ticket.runId = some (.runner task))
    (hfresh : ticket.cleanupId ∉ s.uuids)
    (hruns : store.runs = s.store.runs) (houtbox : store.outbox = s.store.outbox)
    (hcleanups : ∀ row ∈ store.cleanups, row = ticket ∨
      ∃ old ∈ s.store.cleanups, old.SameWork row) :
    Exclusive ({ s with
      store
      uuids := insert ticket.cleanupId s.uuids }.setOwner ticket.runId none) r := by
  by_cases heq : r = ticket.runId
  · subst heq
    have hlive : s.Live ticket.runId := h.held _ hold rfl
    have hlater : Live ({ s with
        store
        uuids := insert ticket.cleanupId s.uuids }.setOwner ticket.runId none) ticket.runId :=
      ⟨hlive.unwritten, fun row hrow => hlive.rows row (hruns ▸ hrow)⟩
    -- the new ticket is the only one about the run
    have honly : ∀ row ∈ store.cleanups, row.runId = ticket.runId → row = ticket := by
      intro row hrow hid
      rcases hcleanups row hrow with hnew | ⟨old, hmem, hsame⟩
      · exact hnew
      · exact absurd (hsame.runId.symm.trans hid) (h.free _ hold old hmem)
    have hgone (owner : RunOwner) :
        Function.update s.owners ticket.runId none ticket.runId ≠ some owner := by
      rw [Function.update_self]
      exact fun hnone => by cases hnone
    constructor
    case fresh => exact fun hnot => absurd (hs.owners _ _ hold).1 hnot
    case unwritten => exact fun _ _ _ _ => hlive.unwritten
    case held => exact fun owner howner => absurd howner (hgone owner)
    case free => exact fun owner howner => absurd howner (hgone owner)
    case ticketed => exact fun _ _ _ => .inl hlater
    case oneTicket =>
      intro a ha b hb haId hbId
      rw [honly a ha haId, honly b hb hbId]
    case works =>
      intro work hwork _ hstored
      obtain ⟨row, hrow, hid, hcleanupId⟩ := hstored
      rw [honly row hrow hid] at hcleanupId
      have hmem : work.ticket ∈ s.tickets := mem_tickets.mpr (.inr ⟨work, hwork, rfl⟩)
      exact absurd hcleanupId (hs.cleanupId_notMem hfresh work.ticket hmem)
    case once => exact fun eventId _ hmem => absurd hmem (hlive.unwritten eventId)
  · refine h.other _ heq [] (.of_runs hruns) rfl subset_rfl ?_
      (houtbox.trans (List.append_nil _).symm) fun _ hmem => hmem
    intro row hrow hid
    rcases hcleanups row hrow with hnew | hsame
    · exact absurd (hid.symm.trans (congrArg CleanupTicket.runId hnew)) heq
    · exact hsame

theorem Exclusive.workRead (hs : s.Bound) (h : s.Exclusive r) {i : ℕ} {ticket : CleanupTicket}
    {run : JobRun} (hrow : s.store.findRun ticket.runId = some run) :
    Exclusive { s with works := s.works.set i ⟨ticket, some run⟩ } r := by
  refine h.frame subset_rfl (fun row hrow hid => ⟨row, hrow, hid, rfl⟩) (fun _ ho => .inl ho)
    (fun row hrow _ => ⟨row, hrow, .refl row⟩) ?_ (fun _ hmem => hmem)
    (fun _ _ _ _ hevent _ => hevent)
  intro work hwork _
  rcases List.mem_or_eq_of_mem_set hwork with hmem | rfl
  · exact .inl hmem
  · right
    intro read hread row hmem hid
    cases hread
    have hsame : row = run :=
      hs.rows.eq_of_key hmem (KeyedRows.find_mem hrow) (hid.trans (KeyedRows.find_key hrow).symm)
    rw [hsame, (Store.terminalRun_spec ticket run).2]
    exact ⟨fun hterminal => (if_pos hterminal).symm, id⟩

/-- A row is written that no cleanup is about, and its run has no event. -/
theorem Exclusive.opened {store : Store} (drawn : Finset JobRunId) {owner : Option RunOwner}
    {state : JobRunState} (hunwritten : ∀ eventId, (r, eventId) ∉ s.written)
    (hfree : ∀ ticket ∈ s.store.cleanups, ticket.runId ≠ r)
    (hwrites : s.store.Writes store (Store.single r state))
    (hcleanups : store.cleanups = s.store.cleanups) (hdrawn : r ∈ drawn)
    (hstate : ∀ o, owner = some o → o.isQueued = false → state.isTerminal = false) :
    Exclusive ({ s with store, drawn }.setOwner r owner) r := by
  refine Exclusive.ticketless (t := { s with store, drawn }.setOwner r owner) ?_ hdrawn
    (fun _ _ _ _ => hunwritten) ?_ ?_
  · intro ticket hticket
    rw [setOwner_store, hcleanups] at hticket
    exact hfree ticket hticket
  · intro o ho hqueued
    rw [setOwner_owners, Function.update_self] at ho
    constructor
    · exact hunwritten
    · intro row hrow hid
      rw [hwrites.wrote row hrow state (hid ▸ Store.single_self r state)]
      exact hstate o ho hqueued
  · exact fun eventId _ hmem => absurd hmem (hunwritten eventId)

/-- The task that held the run, or the deletion of its queue, ends it with one event. -/
theorem Exclusive.closed {u : TerminalState} (hlive : s.Live r)
    (hfree : ∀ ticket ∈ s.store.cleanups, ticket.runId ≠ r)
    (hcleanups : u.store.cleanups = s.store.cleanups) (hdrawn : r ∈ u.drawn)
    (hrows : ∀ row ∈ u.store.runs, row.runId = r → row.state.isTerminal = true)
    (howner : ∀ owner, u.owners r = some owner → owner.isQueued = true)
    (events : List TransientTerminalEvent)
    (hhistory : u.written = s.written ++ events.map fun event => (event.runId, event.eventId))
    (hone : ∀ a ∈ events, ∀ b ∈ events, a.runId = r → b.runId = r → a = b) : u.Exclusive r := by
  have hnew {eventId : Uuid} (hmem : (r, eventId) ∈ u.written) :
      ∃ event ∈ events, event.runId = r ∧ event.eventId = eventId := by
    rw [hhistory] at hmem
    rcases List.mem_append.mp hmem with hold | hnew
    · exact absurd hold (hlive.unwritten eventId)
    · obtain ⟨event, hevent, heq⟩ := List.mem_map.mp hnew
      exact ⟨event, hevent, congrArg Prod.fst heq, congrArg Prod.snd heq⟩
  apply Exclusive.ticketless _ hdrawn
  · intro row hrow hid hopen
    rw [hrows row hrow hid] at hopen
    cases hopen
  · intro owner ho hqueued
    rw [howner owner ho] at hqueued
    cases hqueued
  · intro eventId eventId' hmem hmem'
    obtain ⟨a, ha, haId, rfl⟩ := hnew hmem
    obtain ⟨b, hb, hbId, rfl⟩ := hnew hmem'
    rw [hone a ha b hb haId hbId]
  · intro ticket hticket
    rw [hcleanups] at hticket
    exact hfree ticket hticket

section Work

variable {i : ℕ} {eventId : Uuid} {ticket : CleanupTicket} {run : JobRun} {store : Store}

theorem Bound.stored_ticket (hs : s.Bound) (hwork : s.works[i]? = some ⟨ticket, some run⟩)
    (hguard : terminalGuard s (.commitWork i eventId) = true) :
    ∃ first ∈ s.store.cleanups, ticket.SameWork first := by
  rw [terminalGuard, hwork, Option.all_some, List.any_eq_true] at hguard
  obtain ⟨first, hfirst, hid⟩ := hguard
  exact ⟨first, hfirst, hs.agree ticket (hs.work_ticket hwork).1 first
    (mem_tickets.mpr (.inl hfirst)) (of_decide_eq_true hid).symm⟩

/-- The first commit of the work on a run finds it open and gives it the state
the ticket intends. -/
theorem Exclusive.worked_state (hs : s.Bound) (h : s.Exclusive ticket.runId)
    (hwork : s.works[i]? = some ⟨ticket, some run⟩)
    (hguard : terminalGuard s (.commitWork i eventId) = true)
    (hstored : ∃ row ∈ s.store.runs, row.runId = run.runId)
    (hnew : ∀ row ∈ s.store.outbox, row.cleanupId ≠ ticket.cleanupId) :
    s.Live ticket.runId ∧ (∃ row ∈ s.store.runs, row.runId = ticket.runId) ∧
      (ticket.terminalRun run).state = ticket.intendedTerminalState := by
  obtain ⟨first, hfirst, hsame⟩ := hs.stored_ticket hwork hguard
  obtain ⟨-, hread⟩ := hs.work_ticket hwork
  have hrow : ∃ row ∈ s.store.runs, row.runId = ticket.runId := hread run rfl ▸ hstored
  have hlive : s.Live ticket.runId := by
    rcases h.ticketed first hfirst hsame.runId with hlive | ⟨event, hevent, hid⟩
    · exact hlive
    · exact absurd (hid.trans hsame.cleanupId) (hnew event hevent)
  refine ⟨hlive, hrow, ?_⟩
  obtain ⟨row, hmem, hid⟩ := hrow
  have hagrees := h.works _ (List.mem_of_getElem? hwork) rfl
    ⟨first, hfirst, hsame.runId, hsame.cleanupId⟩
  have hopen : ¬run.state.isTerminal = true := by
    intro hterminal
    have hended := (hagrees run rfl row hmem hid).2 hterminal
    rw [hlive.rows row hmem hid] at hended
    cases hended
  rw [(Store.terminalRun_spec ticket run).2, if_neg hopen]

theorem Exclusive.worked (hs : s.Bound) (h : s.Exclusive r) {event : TransientTerminalEvent}
    (hwork : s.works[i]? = some ⟨ticket, some run⟩)
    (hguard : terminalGuard s (.commitWork i eventId) = true)
    (hevent : event.cleanupId = ticket.cleanupId)
    (hstored : ∃ row ∈ s.store.runs, row.runId = run.runId)
    (hwrites : s.store.Writes store (Store.single run.runId (ticket.terminalRun run).state))
    (hcleanups : store.cleanups = s.store.cleanups)
    (hnew : ∀ row ∈ s.store.outbox, row.cleanupId ≠ ticket.cleanupId)
    (houtbox : store.outbox = s.store.outbox ++ [event]) :
    Exclusive { s with
      store
      works := s.works.eraseIdx i
      uuids := insert eventId s.uuids
      written := s.written ++ [(ticket.runId, eventId)] } r := by
  obtain ⟨hticket, hread⟩ := hs.work_ticket hwork
  obtain ⟨-, hdrawn, hintended⟩ := hs.tickets ticket hticket
  have hworks : ∀ work ∈ s.works.eraseIdx i, work ∈ s.works := fun _ => List.mem_of_mem_eraseIdx
  rw [hread run rfl] at hwrites
  by_cases heq : r = ticket.runId
  · subst heq
    obtain ⟨hlive, ⟨row₀, hrow₀, hid₀⟩, hstate⟩ := h.worked_state hs hwork hguard hstored hnew
    obtain ⟨first, hfirst, hsame⟩ := hs.stored_ticket hwork hguard
    rw [hstate] at hwrites
    have hrows : ∀ row ∈ store.runs, row.runId = ticket.runId →
        row.state = ticket.intendedTerminalState := fun row hrow hid =>
      hwrites.wrote row hrow _ (hid ▸ Store.single_self _ _)
    have hgone (owner : RunOwner) : s.owners ticket.runId ≠ some owner := fun howner =>
      h.free owner howner first hfirst hsame.runId
    have hwritten {eventId' : Uuid} (hmem : (ticket.runId, eventId') ∈ s.written ++
        [(ticket.runId, eventId)]) : eventId' = eventId := by
      rcases List.mem_append.mp hmem with hold | hlast
      · exact absurd hold (hlive.unwritten eventId')
      · exact congrArg Prod.snd (List.mem_singleton.mp hlast)
    constructor
    case fresh => exact fun hnot => absurd hdrawn hnot
    case unwritten =>
      intro row hrow hid hopen
      rw [hrows row hrow hid, hintended] at hopen
      cases hopen
    case held => exact fun owner howner => absurd howner (hgone owner)
    case free => exact fun owner howner => absurd howner (hgone owner)
    case ticketed =>
      intro other hother hid
      refine .inr ⟨event, ?_, ?_⟩
      · show event ∈ store.outbox
        rw [houtbox]
        exact List.mem_append_right _ List.mem_cons_self
      · rw [hevent, ← hsame.cleanupId]
        exact h.oneTicket first hfirst other (hcleanups ▸ hother) hsame.runId hid
    case oneTicket =>
      intro a ha b hb
      exact h.oneTicket a (hcleanups ▸ ha) b (hcleanups ▸ hb)
    case works =>
      intro work hmem hid hother read hreadWork row hrow hrowId
      obtain ⟨other, hotherMem, hotherId, hcleanupId⟩ := hother
      have hotherMem : other ∈ s.store.cleanups := hcleanups ▸ hotherMem
      have hagrees := h.works work (hworks work hmem) hid ⟨other, hotherMem, hotherId, hcleanupId⟩
      -- the run was open, so what this work has read is open too
      have hopen : ¬read.state.isTerminal = true := by
        intro hterminal
        have hended := (hagrees read hreadWork row₀ hrow₀ (hid₀.trans hid.symm)).2 hterminal
        rw [hlive.rows row₀ hrow₀ hid₀] at hended
        cases hended
      have hcopy : ticket.SameWork work.ticket := by
        apply hs.agree ticket hticket work.ticket
          (mem_tickets.mpr (.inr ⟨work, hworks work hmem, rfl⟩))
        rw [← hsame.cleanupId, ← hcleanupId]
        exact h.oneTicket first hfirst other hotherMem hsame.runId hotherId
      rw [(Store.terminalRun_spec work.ticket read).2, if_neg hopen, hcopy.intended]
      exact ⟨fun _ => hrows row hrow (hrowId.trans hid), fun hterminal => absurd hterminal hopen⟩
    case once =>
      intro a b ha hb
      rw [hwritten ha, hwritten hb]
  · refine h.frame subset_rfl (kept_rows (t := { s with store }) hwrites
      (Store.single_eq_none.mpr heq)) (fun _ ho => .inl ho) ?_
      (fun work hmem _ => .inl (hworks work hmem)) ?_ ?_
    · intro other hother _
      exact ⟨other, hcleanups ▸ hother, .refl other⟩
    · intro eventId' hmem
      rcases List.mem_append.mp hmem with hold | hlast
      · exact hold
      · exact absurd (congrArg Prod.fst (List.mem_singleton.mp hlast)) heq
    · intro _ _ _ before hbefore _
      show before ∈ store.outbox
      rw [houtbox]
      exact List.mem_append_left _ hbefore

/-- A later commit of the same work changes no state. -/
theorem Exclusive.workedAgain (hs : s.Bound) (h : ∀ r, s.Exclusive r)
    (hwork : s.works[i]? = some ⟨ticket, some run⟩)
    (hguard : terminalGuard s (.commitWork i eventId) = true)
    (hstored : ∃ row ∈ s.store.runs, row.runId = run.runId)
    (hwrites : s.store.Writes store (Store.single run.runId (ticket.terminalRun run).state))
    (hcleanups : store.cleanups = s.store.cleanups)
    (hpresent : ∃ row ∈ s.store.outbox, row.cleanupId = ticket.cleanupId)
    (houtbox : store.outbox = s.store.outbox) :
    Exclusive { s with
      store
      works := s.works.eraseIdx i
      uuids := insert eventId s.uuids } r := by
  obtain ⟨hticket, hread⟩ := hs.work_ticket hwork
  obtain ⟨first, hfirst, hsame⟩ := hs.stored_ticket hwork hguard
  obtain ⟨event, hevent, hid⟩ := hpresent
  obtain ⟨-, hended⟩ := hs.ended ticket hticket event hevent hid
  obtain ⟨row₀, hrow₀, hid₀⟩ := hstored
  have hagrees := (h ticket.runId).works _ (List.mem_of_getElem? hwork) rfl
    ⟨first, hfirst, hsame.runId, hsame.cleanupId⟩
  have hid₁ : row₀.runId = ticket.runId := hid₀.trans (hread run rfl)
  have hstate := (hagrees run rfl row₀ hrow₀ hid₁).1 (hended row₀ hrow₀ hid₁)
  refine (h r).frame subset_rfl ?_ (fun _ ho => .inl ho) ?_
    (fun work hmem _ => .inl (List.mem_of_mem_eraseIdx hmem)) (fun _ hmem => hmem) ?_
  · intro row hrow hrowId
    by_cases heq : row.runId = run.runId
    · refine ⟨row₀, hrow₀, (hid₀.trans heq.symm).trans hrowId, ?_⟩
      rw [hstate, hwrites.wrote row hrow (ticket.terminalRun run).state]
      rw [heq]
      exact Store.single_self _ _
    · obtain ⟨old, hold, holdId, hkept⟩ := hwrites.kept row hrow (Store.single_eq_none.mpr heq)
      exact ⟨old, hold, holdId.trans hrowId, hkept⟩
  · intro other hother _
    exact ⟨other, hcleanups ▸ hother, .refl other⟩
  · intro _ _ _ before hbefore _
    show before ∈ store.outbox
    rwa [houtbox]

end Work

theorem Exclusive.live_of_pending (hs : s.Bound) (h : s.Exclusive r)
    (hpending : (s.store.findRun r).any (·.state = .pending) = true) : s.Live r := by
  obtain ⟨row, hrow, hstate⟩ := (Option.any_eq_true _ _).mp hpending
  apply h.live_of_row hs (KeyedRows.find_mem hrow) (KeyedRows.find_key hrow)
  rw [of_decide_eq_true hstate]
  rfl

/-- A deletion that the guard lets commit cancels runs that are all queued. -/
theorem Bound.cancelled_queued (hs : s.Bound) {snapshot : ℕ} {now : Instant}
    {ids : List (Uuid × Uuid)} {jobName : String} {runIds : List JobRunId}
    {events : List TransientTerminalEvent}
    (hsnapshot : s.snapshots[snapshot]? = some (jobName, runIds))
    (hruns : events.map (·.runId) = runIds)
    (hpending : ∀ event ∈ events, event.state = .cancelled ∧
      ∃ row ∈ s.store.runs, row.runId = event.runId ∧ row.state = .pending)
    (hguard : terminalGuard s (.cancelQueued snapshot now ids) = true) :
    ∀ event ∈ events, ∃ owner, s.owners event.runId = some owner ∧ owner.isQueued = true := by
  rw [terminalGuard, hsnapshot, Option.all_some, Bool.or_eq_true] at hguard
  intro event hevent
  rcases hguard with hchanged | hqueued
  · -- then the commit would have found a row that is not pending
    obtain ⟨runId, hrunId, hnot⟩ := List.any_eq_true.mp hchanged
    rw [← hruns] at hrunId
    obtain ⟨other, hother, rfl⟩ := List.mem_map.mp hrunId
    obtain ⟨-, row, hrow, hid, hstate⟩ := hpending other hother
    have hfind : s.store.findRun other.runId = some row := hid ▸ hs.rows.find_of_mem hrow
    simp [hfind, hstate] at hnot
  · rw [List.all_eq_true] at hqueued
    have hmem : event.runId ∈ runIds := hruns ▸ List.mem_map_of_mem hevent
    exact (Option.any_eq_true _ _).mp (hqueued event.runId hmem)

theorem Effect.exclusive (hs : s.Bound) (h : ∀ r, s.Exclusive r) (heffect : Effect s action t)
    (hguard : terminalGuard s action = true) : t.Exclusive r := by
  cases heffect with
  | faded hf => exact (h r).faded hf
  | @held _ runId old owner hold _ _ hqueued _ =>
    refine (h r).taken s.drawn subset_rfl ((h runId).free old hold) fun _ => ?_
    cases hold' : old.isQueued with
    | false => exact (h runId).held old hold hold'
    | true =>
      rcases hqueued hold' with rfl | rfl
      · exact (h runId).live_of_pending hs hguard
      · exact (h runId).live_of_pending hs hguard
  | @called _ runId owner hfresh _ =>
    refine (h r).taken _ (Finset.subset_insert _ _) ?_ fun _ => (h runId).live_of_fresh hs hfresh
    exact fun ticket hticket => hs.no_ticket_of_fresh hfresh ticket (mem_tickets.mpr (.inl hticket))
  | @inserted _ runId store owner hfresh hwrites haside _ =>
    by_cases heq : r = runId
    · subst heq
      refine Exclusive.opened _ ((h r).fresh hfresh) ?_ hwrites haside.1 (Finset.mem_insert_self _ _)
        fun _ _ _ => rfl
      exact fun ticket hticket => hs.no_ticket_of_fresh hfresh ticket
        (mem_tickets.mpr (.inl hticket))
    · refine (h r).other _ heq [] hwrites (Store.single_eq_none.mpr heq) (Finset.subset_insert _ _) ?_
        (haside.2.trans (List.append_nil _).symm) fun _ hmem => hmem
      exact fun ticket hticket _ => ⟨ticket, haside.1 ▸ hticket, .refl ticket⟩
  | @insertedSkipped _ runId store hfresh hwrites haside =>
    have hnone : s.owners runId = none := by
      cases howner : s.owners runId with
      | none => rfl
      | some owner => exact absurd (hs.owners runId owner howner).1 hfresh
    have hexclusive : Exclusive ({ s with
        store
        drawn := insert runId s.drawn }.setOwner runId none) r := by
      by_cases heq : r = runId
      · subst heq
        refine Exclusive.opened _ ((h r).fresh hfresh) ?_ hwrites haside.1
          (Finset.mem_insert_self _ _) fun o ho => by cases ho
        exact fun ticket hticket => hs.no_ticket_of_fresh hfresh ticket
          (mem_tickets.mpr (.inl hticket))
      · refine (h r).other _ heq [] hwrites (Store.single_eq_none.mpr heq) (Finset.subset_insert _ _)
          ?_ (haside.2.trans (List.append_nil _).symm) fun _ hmem => hmem
        exact fun ticket hticket _ => ⟨ticket, haside.1 ▸ hticket, .refl ticket⟩
    unfold setOwner at hexclusive
    rwa [← hnone, Function.update_eq_self] at hexclusive
  | @saved _ runId old owner state store hold hwriter hwrites haside hstate hnames =>
    by_cases heq : r = runId
    · subst heq
      have hlive : s.Live r := by
        apply (h r).held old hold
        cases old with
        | dispatching | starting => rfl
        | queued | cancelling | runner => cases hwriter
      refine Exclusive.opened s.drawn hlive.unwritten ((h r).free old hold) hwrites
        haside.1 (hs.owners r old hold).1 ?_
      intro o ho _
      rcases hstate with hopen | ⟨-, hnone⟩
      · exact hopen
      · rw [hnone] at ho
        cases ho
    · refine (h r).other s.drawn heq [] hwrites (Store.single_eq_none.mpr heq) subset_rfl
        ?_ (haside.2.trans (List.append_nil _).symm) fun _ hmem => hmem
      exact fun ticket hticket _ => ⟨ticket, haside.1 ▸ hticket, .refl ticket⟩
  | @committed _ runId old event store hold hlive hrunId hcleanupId heventId hstate hwrites
      hcleanups houtbox =>
    by_cases heq : r = runId
    · subst heq
      refine Exclusive.closed ((h r).held old hold hlive) ((h r).free old hold) hcleanups
        (hs.owners r old hold).1 ?_ ?_ [event] ?_ ?_
      · intro row hrow hid
        rw [hwrites.wrote row hrow event.state (hid ▸ Store.single_self _ _)]
        exact JobRunState.isTerminal_of_isAnnounced hstate
      · intro owner howner
        rw [setOwner_owners, Function.update_self] at howner
        cases howner
      · rw [List.map_singleton, hrunId]
        rfl
      · intro a ha b hb _ _
        rw [List.mem_singleton.mp ha, List.mem_singleton.mp hb]
    · refine (h r).other s.drawn heq [event] hwrites (Store.single_eq_none.mpr heq)
        subset_rfl ?_ houtbox ?_
      · exact fun ticket hticket _ => ⟨ticket, hcleanups ▸ hticket, .refl ticket⟩
      · intro eventId hmem
        rcases List.mem_append.mp hmem with hbefore | hlast
        · exact hbefore
        · exact absurd (congrArg Prod.fst (List.mem_singleton.mp hlast)) heq
  | @cancelled now ids snapshot jobName runIds events store uuids hsnapshot hruns _ _ _ hpending
      hwrites hcleanups houtbox =>
    have hqueued := hs.cancelled_queued hsnapshot hruns hpending hguard
    obtain ⟨hnodup, -⟩ := hs.snapshots _ (List.mem_of_getElem? hsnapshot)
    by_cases hmem : r ∈ events.map (·.runId)
    · obtain ⟨event, hevent, rfl⟩ := List.mem_map.mp hmem
      obtain ⟨owner, howner, howner'⟩ := hqueued event hevent
      obtain ⟨-, row, hrow, hid, hstate⟩ := hpending event hevent
      have hlive : s.Live event.runId :=
        (h _).live_of_row hs hrow hid (by rw [hstate]; rfl)
      refine Exclusive.closed hlive ((h _).free owner howner) hcleanups
        (hs.owners _ owner howner).1 ?_ ?_ events rfl ?_
      · intro other hother hotherId
        have hwritten : Store.cancelledRuns events other.runId = some .cancelled := by
          rw [Store.cancelledRuns, if_pos (hotherId ▸ hmem)]
        rw [hwrites.wrote other hother _ hwritten]
        rfl
      · intro o ho
        have hsame : some owner = some o := howner.symm.trans ho
        cases hsame
        exact howner'
      · intro a ha b hb haId hbId
        exact List.inj_on_of_nodup_map (hruns ▸ hnodup) ha hb (haId.trans hbId.symm)
    · have hnone : Store.cancelledRuns events r = none := by
        rw [Store.cancelledRuns, if_neg hmem]
      refine (h r).frame subset_rfl (kept_rows (t := { s with store }) hwrites hnone)
        (fun _ ho => .inl ho) ?_ (fun _ hwork _ => .inl hwork) ?_ ?_
      · exact fun ticket hticket _ => ⟨ticket, hcleanups ▸ hticket, .refl ticket⟩
      · intro eventId hwritten
        rcases List.mem_append.mp hwritten with hbefore | hnew
        · exact hbefore
        · obtain ⟨event, hevent, heq⟩ := List.mem_map.mp hnew
          exact absurd (List.mem_map.mpr ⟨event, hevent, congrArg Prod.fst heq⟩) hmem
      · intro _ _ _ before hbefore _
        show before ∈ store.outbox
        rw [houtbox]
        exact List.mem_append_left _ hbefore
  | @bootTaken runId run hold hrow hstate =>
    refine (h r).taken s.drawn subset_rfl ?_ fun _ => ?_
    · intro ticket hticket
      exact of_decide_eq_true (List.all_eq_true.mp hguard ticket hticket)
    · exact (h runId).live_of_row hs (KeyedRows.find_mem hrow) (KeyedRows.find_key hrow) hstate
  | enqueued hold hfresh _ hruns houtbox hcleanups =>
    exact (h r).enqueued hs hold hfresh hruns houtbox hcleanups
  | workRead _ hrow => exact (h r).workRead hs hrow
  | worked hwork hevent _ hstored hwrites hcleanups hnew houtbox =>
    exact (h r).worked hs hwork hguard hevent.1 hstored hwrites hcleanups hnew houtbox
  | workedAgain eventId hwork hstored hwrites hcleanups hpresent houtbox =>
    exact Exclusive.workedAgain hs h hwork hguard hstored hwrites hcleanups hpresent houtbox
  | @acknowledged event hevent =>
    refine (h r).frame subset_rfl (fun row hrow hid => ⟨row, hrow, hid, rfl⟩) (fun _ ho => .inl ho)
      ?_ (fun _ hwork _ => .inl hwork) (fun _ hmem => hmem) ?_
    · exact fun ticket hticket _ => ⟨ticket, (List.mem_filter.mp hticket).1, .refl ticket⟩
    · intro ticket hticket _ other hother hid
      apply List.mem_filter.mpr
      refine ⟨hother, decide_eq_true ?_⟩
      rintro rfl
      exact of_decide_eq_true (List.mem_filter.mp hticket).2 hid.symm

end Exclusive

/-- The run is over in state `state`, and nothing that may still write its row
would write another. -/
structure Over (s : TerminalState) (r : JobRunId) (state : JobRunState) : Prop where
  drawn : r ∈ s.drawn
  rows : ∀ row ∈ s.store.runs, row.runId = r → row.state = state
  owner : ∀ owner, s.owners r = some owner → owner.isQueued = true
  works : ∀ work ∈ s.works, work.ticket.runId = r →
    (∃ ticket ∈ s.store.cleanups, ticket.runId = r ∧ ticket.cleanupId = work.ticket.cleanupId) →
      ∀ run, work.read = some run → (work.ticket.terminalRun run).state = state

section Over

variable {state : JobRunState}

theorem Exclusive.over (h : s.Exclusive r) (hs : s.Bound) {row : JobRun}
    (hrow : row ∈ s.store.runs) (hid : row.runId = r) (hterminal : row.state.isTerminal = true) :
    s.Over r row.state where
  drawn := hid ▸ hs.drawnRows row hrow
  rows other hother hother' := by
    rw [hs.rows.eq_of_key hother hrow (hother'.trans hid.symm)]
  owner owner howner := by
    by_contra hnot
    have hlive := h.held owner howner (Bool.not_eq_true _ ▸ hnot)
    rw [hlive.rows row hrow hid] at hterminal
    cases hterminal
  works work hwork hwork' hstored run hread := by
    have hagrees := h.works work hwork hwork' hstored run hread row hrow (hid.trans hwork'.symm)
    exact (hagrees.1 hterminal).symm

/-- A step that does not write the row, or writes what it says. -/
theorem Over.frame (h : s.Over r state) (hdrawn : s.drawn ⊆ t.drawn)
    (hrows : ∀ row ∈ t.store.runs, row.runId = r → row.state = state)
    (howner : ∀ owner, t.owners r = some owner → s.owners r = some owner)
    (htickets : ∀ ticket ∈ t.store.cleanups, ticket.runId = r →
      ∃ old ∈ s.store.cleanups, old.SameWork ticket)
    (hworks : ∀ work ∈ t.works, work.ticket.runId = r → work ∈ s.works ∨
      ∀ run, work.read = some run → (work.ticket.terminalRun run).state = state) :
    t.Over r state where
  drawn := hdrawn h.drawn
  rows := hrows
  owner owner ho := h.owner owner (howner owner ho)
  works work hwork hid hstored run hread := by
    rcases hworks work hwork hid with hmem | hagrees
    · obtain ⟨ticket, hticket, hticketId, hcleanupId⟩ := hstored
      obtain ⟨old, hold, hsame⟩ := htickets ticket hticket hticketId
      exact h.works work hmem hid ⟨old, hold, hsame.runId.symm.trans hticketId,
        hsame.cleanupId.symm.trans hcleanupId⟩ run hread
    · exact hagrees run hread

theorem Over.kept (h : s.Over r state) {written : JobRunId → Option JobRunState}
    (hwrites : s.store.Writes t.store written) (hnone : written r = none) :
    ∀ row ∈ t.store.runs, row.runId = r → row.state = state := by
  intro row hrow hid
  obtain ⟨old, hold, holdId, hstate⟩ := kept_rows hwrites hnone row hrow hid
  rw [← hstate]
  exact h.rows old hold holdId

/-- Another run is written, or taken by a task. -/
theorem Over.other (h : s.Over r state) {store : Store} {drawn : Finset JobRunId} {runId : JobRunId}
    {owner : Option RunOwner} {uuids : Finset Uuid} {history : List (JobRunId × Uuid)}
    {written : JobRunId → Option JobRunState} (hne : r ≠ runId) (hdrawn : s.drawn ⊆ drawn)
    (hwrites : s.store.Writes store written) (hnone : written r = none)
    (hcleanups : ∀ ticket ∈ store.cleanups, ticket.runId = r →
      ∃ old ∈ s.store.cleanups, old.SameWork ticket) :
    Over ({ s with
      store
      drawn
      uuids
      written := history }.setOwner runId owner) r state := by
  refine h.frame hdrawn (h.kept (t := { s with store }) hwrites hnone) ?_ hcleanups
    (fun _ hwork _ => .inl hwork)
  intro o ho
  rwa [setOwner_owners, Function.update_of_ne hne] at ho

theorem Over.ne_of_open (h : s.Over r state) (hterminal : state.isTerminal = true) {row : JobRun}
    (hrow : row ∈ s.store.runs) (hopen : row.state.isTerminal = false) : r ≠ row.runId := by
  intro heq
  rw [h.rows row hrow heq.symm, hterminal] at hopen
  cases hopen

theorem Over.ne_of_held (h : s.Over r state) {runId : JobRunId} {owner : RunOwner}
    (howner : s.owners runId = some owner) (hqueued : owner.isQueued = false) : r ≠ runId := by
  rintro rfl
  rw [h.owner owner howner] at hqueued
  cases hqueued

/-- What the work on a stored ticket commits is what the row says already. -/
theorem Over.worked (h : s.Over r state) (hs : s.Bound) {i : ℕ} {eventId : Uuid}
    {ticket : CleanupTicket} {run : JobRun} {store : Store} {history : List (JobRunId × Uuid)}
    (hwork : s.works[i]? = some ⟨ticket, some run⟩)
    (hguard : terminalGuard s (.commitWork i eventId) = true)
    (hwrites : s.store.Writes store (Store.single run.runId (ticket.terminalRun run).state))
    (hcleanups : store.cleanups = s.store.cleanups) :
    Over { s with
      store
      works := s.works.eraseIdx i
      uuids := insert eventId s.uuids
      written := history } r state := by
  obtain ⟨-, hread⟩ := hs.work_ticket hwork
  obtain ⟨first, hfirst, hsame⟩ := hs.stored_ticket hwork hguard
  rw [hread run rfl] at hwrites
  refine h.frame subset_rfl ?_ (fun _ ho => ho)
    (fun other hother _ => ⟨other, hcleanups ▸ hother, .refl other⟩)
    (fun work hmem _ => .inl (List.mem_of_mem_eraseIdx hmem))
  by_cases heq : r = ticket.runId
  · subst heq
    have hstate := h.works _ (List.mem_of_getElem? hwork) rfl
      ⟨first, hfirst, hsame.runId, hsame.cleanupId⟩ run rfl
    intro row hrow hid
    rw [← hstate]
    apply hwrites.wrote row hrow
    rw [hid]
    exact Store.single_self _ _
  · exact h.kept (t := { s with store }) hwrites (Store.single_eq_none.mpr heq)

theorem Effect.over (hs : s.Bound) (h : s.Over r state) (hterminal : state.isTerminal = true)
    (heffect : Effect s action t) (hguard : terminalGuard s action = true) : t.Over r state := by
  have hsame {store : Store} (hcleanups : store.cleanups = s.store.cleanups) :
      ∀ ticket ∈ store.cleanups, ticket.runId = r → ∃ old ∈ s.store.cleanups,
        old.SameWork ticket := fun ticket hticket _ => ⟨ticket, hcleanups ▸ hticket, .refl ticket⟩
  have hpending (runId : JobRunId) (hrow : (s.store.findRun runId).any (·.state = .pending) = true) :
      r ≠ runId := by
    obtain ⟨row, hrow, hstate⟩ := (Option.any_eq_true _ _).mp hrow
    rw [← KeyedRows.find_key hrow]
    apply h.ne_of_open hterminal (KeyedRows.find_mem hrow)
    rw [of_decide_eq_true hstate]
    rfl
  have hfresh (runId : JobRunId) (hnot : runId ∉ s.drawn) : r ≠ runId := by
    rintro rfl
    exact hnot h.drawn
  cases heffect with
  | faded hf =>
    refine h.frame hf.drawn (h.kept hf.writes rfl) (fun owner ho => hf.owners r owner ho)
      (fun ticket hticket _ => hf.tickets ticket hticket) ?_
    intro work hwork _
    rcases hf.works work hwork with hold | ⟨hunread, -⟩
    · exact .inl hold
    · right
      intro run hrun
      rw [hunread] at hrun
      cases hrun
  | @held _ runId old owner hold _ _ hqueued _ =>
    refine h.other ?_ subset_rfl (.refl s.store) rfl (hsame rfl)
    cases hold' : old.isQueued with
    | false => exact h.ne_of_held hold hold'
    | true =>
      rcases hqueued hold' with rfl | rfl
      · exact hpending runId hguard
      · exact hpending runId hguard
  | @called _ runId owner hnot _ =>
    exact h.other (hfresh runId hnot) (Finset.subset_insert _ _) (.refl s.store) rfl (hsame rfl)
  | @inserted _ runId store owner hnot hwrites haside _ =>
    have hne := hfresh runId hnot
    exact h.other hne (Finset.subset_insert _ _) hwrites (Store.single_eq_none.mpr hne)
      (hsame haside.1)
  | @insertedSkipped _ runId store hnot hwrites haside =>
    refine h.frame (Finset.subset_insert _ _) (h.kept (t := { s with store }) hwrites
      (Store.single_eq_none.mpr (hfresh runId hnot))) (fun _ ho => ho) (hsame haside.1)
      fun _ hwork _ => .inl hwork
  | @saved _ runId old owner state store hold hwriter hwrites haside _ _ =>
    have hne : r ≠ runId := by
      apply h.ne_of_held hold
      cases old with
      | dispatching | starting => rfl
      | queued | cancelling | runner => cases hwriter
    exact h.other hne subset_rfl hwrites (Store.single_eq_none.mpr hne) (hsame haside.1)
  | @committed _ runId old event store hold hlive _ _ _ _ hwrites hcleanups _ =>
    have hne := h.ne_of_held hold hlive
    exact h.other hne subset_rfl hwrites (Store.single_eq_none.mpr hne) (hsame hcleanups)
  | @cancelled now ids snapshot jobName runIds events store uuids _ _ _ _ _ hrows hwrites
      hcleanups _ =>
    have hnone : Store.cancelledRuns events r = none := by
      rw [Store.cancelledRuns, if_neg]
      intro hmem
      obtain ⟨event, hevent, heq⟩ := List.mem_map.mp hmem
      obtain ⟨-, row, hrow, hid, hstate⟩ := hrows event hevent
      exact h.ne_of_open hterminal hrow (by rw [hstate]; rfl) (heq.symm.trans hid.symm)
    exact h.frame subset_rfl (h.kept (t := { s with store }) hwrites hnone) (fun _ ho => ho)
      (hsame hcleanups) fun _ hwork _ => .inl hwork
  | @bootTaken runId run _ hrow hopen =>
    have hne : r ≠ runId := by
      rw [← KeyedRows.find_key hrow]
      exact h.ne_of_open hterminal (KeyedRows.find_mem hrow) hopen
    exact h.other hne subset_rfl (.refl s.store) rfl (hsame rfl)
  | @enqueued ticket task store hold _ _ hruns _ hcleanups =>
    have hne := h.ne_of_held hold rfl
    refine h.other hne subset_rfl (.of_runs hruns) rfl ?_
    intro row hrow hid
    rcases hcleanups row hrow with hnew | hold
    · exact absurd (hid.symm.trans (congrArg CleanupTicket.runId hnew)) hne
    · exact hold
  | @workRead i ticket run _ hrow =>
    refine h.frame subset_rfl h.rows (fun _ ho => ho) (hsame rfl) ?_
    intro work hwork hid
    rcases List.mem_or_eq_of_mem_set hwork with hmem | rfl
    · exact .inl hmem
    · right
      intro read hread
      cases hread
      have hstate := h.rows run (KeyedRows.find_mem hrow) ((KeyedRows.find_key hrow).trans hid)
      rw [(Store.terminalRun_spec ticket run).2, hstate, if_pos hterminal]
  | worked hwork _ _ _ hwrites hcleanups => exact h.worked hs hwork hguard hwrites hcleanups
  | workedAgain eventId hwork _ hwrites hcleanups => exact h.worked hs hwork hguard hwrites hcleanups
  | acknowledged =>
    exact h.frame subset_rfl h.rows (fun _ ho => ho)
      (fun ticket hticket _ => ⟨ticket, (List.mem_filter.mp hticket).1, .refl ticket⟩)
      fun _ hwork _ => .inl hwork

end Over

theorem exclusive_empty (r : JobRunId) : Exclusive {} r where
  fresh _ _ hmem := by cases hmem
  unwritten _ hrow := by cases hrow
  held _ howner := by cases howner
  free _ howner := by cases howner
  ticketed _ hticket := by cases hticket
  oneTicket _ ha := by cases ha
  works _ hwork := by cases hwork
  once _ _ hmem := by cases hmem

theorem exclusive_of_run (h : terminalSystem.Run (fun u action => terminalGuard u action = true) {} s) :
    s.Bound ∧ ∀ r, s.Exclusive r := by
  refine h.invariant (I := fun u => u.Bound ∧ ∀ r, u.Exclusive r) ?_
    ⟨bound_empty, exclusive_empty⟩
  intro u action v hu hguard hstep
  have heffect := effect hu.1 hstep
  exact ⟨heffect.bound hu.1, fun r => heffect.exclusive hu.1 hu.2 hguard⟩

/-- In every run that meets the guard a terminal row is final, and its run has
one event. -/
theorem terminalStable
    (h : terminalSystem.Run (fun u action => terminalGuard u action = true) {} s) :
    s.TerminalStable := by
  obtain ⟨hs, hexclusive⟩ := exclusive_of_run h
  constructor
  · intro row hrow hterminal t hrun later hlater hid
    have hover := (hexclusive row.runId).over hs hrow rfl hterminal
    have hkeep : t.Bound ∧ t.Over row.runId row.state := by
      refine hrun.invariant (I := fun u => u.Bound ∧ u.Over row.runId row.state) ?_ ⟨hs, hover⟩
      intro u action v hu hguard hstep
      have heffect := effect hu.1 hstep
      exact ⟨heffect.bound hu.1, heffect.over hu.1 hu.2 hterminal hguard⟩
    exact hkeep.2.rows later hlater hid
  · exact fun runId => (hexclusive runId).once

/-- One run is active, a second one waits, and a deletion cancels the second. -/
def cancelWaiting : List TerminalAction :=
  [.saveJob exportJob, .finishBoot, .callDispatch exportJob ⟨10⟩, .savePending ⟨10⟩ 0,
    .register ⟨10⟩ false, .saveRunning ⟨10⟩ 1, .callDispatch exportJob ⟨11⟩, .savePending ⟨11⟩ 2,
    .register ⟨11⟩ true, .snapshotQueue exportJob [⟨11⟩], .cancelQueued 0 3 [(20, 21)]]

def endActive : List TerminalAction :=
  [.endRun ⟨10⟩ .succeeded { startedAt := 1, endedAt := 4, exitCode := some 0 },
    .commitTerminal ⟨10⟩ 5 22 23]

/-- The end of the active run starts the cancelled one before the drain drops it. -/
def startCancelled : List TerminalAction :=
  endActive ++ [.promote ⟨11⟩, .saveRunning ⟨11⟩ 6,
    .endRun ⟨11⟩ .succeeded { startedAt := 6, endedAt := 7, exitCode := some 0 },
    .commitTerminal ⟨11⟩ 8 24 25]

/-- A row that was committed as cancelled ends as succeeded, with a second event. -/
theorem cancelled_run_succeeds :
    ∃ s t, (terminalSystem.Reaches {} s ∧ terminalSystem.Reaches s t) ∧
      (∃ row ∈ s.store.runs, row.state.isTerminal = true ∧
        ∃ later ∈ t.store.runs, later.runId = row.runId ∧ later.state ≠ row.state) ∧
        ∃ runId eventId eventId', (runId, eventId) ∈ t.written ∧ (runId, eventId') ∈ t.written ∧
          eventId ≠ eventId' := by
  have hexec : (terminalSystem.exec {} cancelWaiting).any (fun s =>
      s.store.runs.any (fun row => row.runId = ⟨11⟩ && row.state = .cancelled) &&
        (terminalSystem.exec s startCancelled).any fun t =>
          t.store.runs.any (fun row => row.runId = ⟨11⟩ && row.state = .succeeded) &&
            decide ((⟨11⟩, 21) ∈ t.written ∧ (⟨11⟩, 25) ∈ t.written)) = true := by
    decide
  obtain ⟨s, hs, hcancelled⟩ := Machine.exists_reaches_of_exec _ cancelWaiting hexec
  obtain ⟨hbefore, hafter⟩ := Bool.and_eq_true_iff.mp hcancelled
  obtain ⟨t, ht, hsucceeded⟩ := Machine.exists_reaches_of_exec _ startCancelled hafter
  obtain ⟨hlater, hwritten⟩ := Bool.and_eq_true_iff.mp hsucceeded
  obtain ⟨row, hrow, hid⟩ := List.any_eq_true.mp hbefore
  obtain ⟨later, hmem, hid'⟩ := List.any_eq_true.mp hlater
  simp only [Bool.and_eq_true, decide_eq_true_eq] at hid hid'
  refine ⟨s, t, ⟨hs, ht⟩, ⟨row, hrow, ?_, later, hmem, ?_, ?_⟩, ⟨11⟩, 21, 25, ?_⟩
  · rw [hid.2]
    rfl
  · rw [hid.1, hid'.1]
  · rw [hid.2, hid'.2]
    decide
  · obtain ⟨hfirst, hsecond⟩ := of_decide_eq_true hwritten
    exact ⟨hfirst, hsecond, by decide⟩

theorem dropped_run_stable :
    ∃ s, (terminalSystem.Run (fun u action => terminalGuard u action = true) {} s ∧
      s.store.runs.all (·.state.isTerminal) = true ∧ s.store.runs.length = 2) ∧
        s.TerminalStable := by
  have hexec : (terminalSystem.execUnder (fun u action => terminalGuard u action = true) {}
      (cancelWaiting ++ .dropQueued ⟨11⟩ :: endActive)).any (fun s =>
        s.store.runs.all (·.state.isTerminal) && decide (s.store.runs.length = 2)) = true := by
    decide
  obtain ⟨s, hrun, hrows⟩ := Machine.exists_run_of_execUnder _ _ hexec
  obtain ⟨hterminal, hlength⟩ := Bool.and_eq_true_iff.mp hrows
  exact ⟨s, ⟨hrun, hterminal, of_decide_eq_true hlength⟩, terminalStable hrun⟩

end TerminalState

end Supervisor
