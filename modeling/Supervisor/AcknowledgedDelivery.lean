import Supervisor.DeliverySystem

namespace Supervisor

/-- The events a subscriber has not finished with. -/
def EventStream.Holds (e : EventStream) (published : PublishedEvent) : Prop :=
  published ∈ e.queue ∨ e.stage = .writing published ∨ e.stage = .written published

theorem DeliveryStage.wake_spec (receipt : ℕ) (stage : DeliveryStage) :
    (stage.wake receipt).inFlight = stage.inFlight ∧
      (stage.wake receipt).receipt = stage.receipt ∧
      (∀ event r, stage.wake receipt = .delivered event r → stage = .delivered event r) ∧
      ∀ event r, stage.wake receipt = .parked event r false →
        stage = .parked event r false ∧ r ≠ receipt := by
  cases stage with
  | parked event r woken =>
    refine ⟨rfl, rfl, fun _ _ h => (by cases h), ?_⟩
    intro event' r' h
    simp only [wake, parked.injEq, Bool.or_eq_false_iff, decide_eq_false_iff_not] at h
    obtain ⟨rfl, rfl, rfl, hne⟩ := h
    exact ⟨rfl, hne⟩
  | rechecking => exact ⟨rfl, rfl, fun _ _ h => (by cases h), fun _ _ h => (by cases h)⟩
  | next | claimed | sent | registering | delivered | releasing =>
    exact ⟨rfl, rfl, fun _ _ h => h, fun _ _ h => (by cases h)⟩

namespace DeliveryState

/-- What every further step keeps to. -/
structure DeliveryLawful (s : DeliveryState) : Prop where
  /-- A row leaves the outbox after an external transport wrote an event with its id. -/
  acknowledged : ∀ action t, deliverySystem.step s action = some t → ∀ row ∈ s.store.outbox,
    row ∉ t.store.outbox → ∃ published ∈ s.wrote, published.eventId = some row.eventId
  /-- A wait that answers `true` found its receipt completed. -/
  confirmed : ∀ pass events event receipt,
    s.passes pass = some ⟨events, .delivered event receipt⟩ → s.isDelivered receipt = true
  /-- No wake-up is lost: a wait for a receipt that is completed has been woken, or
  the transport that has set the flag is about to notify it. -/
  woken : ∀ pass events event receipt,
    s.passes pass = some ⟨events, .parked event receipt false⟩ → s.isDelivered receipt = true →
      ∃ stream e, s.streams stream = some e ∧ e.stage = .flagged receipt
  /-- No two passes have one event id in flight. -/
  exclusive : ∀ pass pass' p p' event event', pass ≠ pass' → s.passes pass = some p →
    s.passes pass' = some p' → p.stage.inFlight = some event → p'.stage.inFlight = some event' →
      event.eventId ≠ event'.eventId

/-- Ids in flight are in the set, and a receipt stands for one event id. -/
structure Sound (s : DeliveryState) : Prop where
  inFlight : ∀ n p event, s.passes n = some p → p.stage.inFlight = some event →
    event.eventId ∈ s.inFlight
  apart : ∀ n m p q event event', n ≠ m → s.passes n = some p → s.passes m = some q →
    p.stage.inFlight = some event → q.stage.inFlight = some event' → event.eventId ≠ event'.eventId
  held : ∀ n p event r, s.passes n = some p → p.stage.receipt = some (event, r) →
    ∃ c, s.receipts r = some c ∧ c.eventId = event.eventId
  confirmed : ∀ n events event r, s.passes n = some ⟨events, .delivered event r⟩ →
    s.isDelivered r = true
  woken : ∀ n events event r, s.passes n = some ⟨events, .parked event r false⟩ →
    s.isDelivered r = true → ∃ m e, s.streams m = some e ∧ e.stage = .flagged r
  published : ∀ m e published, s.streams m = some e → e.Holds published →
    ∀ r, published.receipt = some r →
      ∃ c, s.receipts r = some c ∧ published.eventId = some c.eventId
  written : ∀ m e published, s.streams m = some e → e.stage = .written published →
    published ∈ s.wrote
  delivered : ∀ r c, s.receipts r = some c → c.delivered = true →
    ∃ published ∈ s.wrote, published.eventId = some c.eventId

section Frame

variable (s : DeliveryState) (n : ℕ)

@[simp] theorem setPass_passes (p : Option DeliveryPass) :
    (s.setPass n p).passes = Function.update s.passes n p := rfl
@[simp] theorem setStream_streams (e : Option EventStream) :
    (s.setStream n e).streams = Function.update s.streams n e := rfl

end Frame

variable {s t : DeliveryState} {n : ℕ}

section Passes

/-- A pass goes on to a stage that the invariant allows. -/
theorem Sound.setPass (hs : s.Sound) {new : Option DeliveryPass}
    (hflight : ∀ p event, new = some p → p.stage.inFlight = some event →
      event.eventId ∈ s.inFlight ∧ ∀ m q event', m ≠ n → s.passes m = some q →
        q.stage.inFlight = some event' → event.eventId ≠ event'.eventId)
    (hheld : ∀ p event r, new = some p → p.stage.receipt = some (event, r) →
      ∃ c, s.receipts r = some c ∧ c.eventId = event.eventId)
    (hconfirmed : ∀ events event r, new = some ⟨events, .delivered event r⟩ →
      s.isDelivered r = true)
    (hwoken : ∀ events event r, new = some ⟨events, .parked event r false⟩ →
      s.isDelivered r = true → ∃ m e, s.streams m = some e ∧ e.stage = .flagged r) :
    (s.setPass n new).Sound := by
  have hcases {m : ℕ} {p : DeliveryPass} (h : Function.update s.passes n new m = some p) :
      m = n ∧ new = some p ∨ m ≠ n ∧ s.passes m = some p := by
    by_cases heq : m = n
    · subst heq
      rw [Function.update_self] at h
      exact .inl ⟨rfl, h⟩
    · rw [Function.update_of_ne heq] at h
      exact .inr ⟨heq, h⟩
  constructor
  case inFlight =>
    intro m p event hp hevent
    rcases hcases hp with ⟨rfl, hnew⟩ | ⟨-, hold⟩
    · exact (hflight p event hnew hevent).1
    · exact hs.inFlight m p event hold hevent
  case apart =>
    intro m m' p q event event' hne hp hq hevent hevent'
    rcases hcases hp with ⟨rfl, hnew⟩ | ⟨-, hold⟩
    · rcases hcases hq with ⟨rfl, -⟩ | ⟨hother, hold'⟩
      · exact absurd rfl hne
      · exact (hflight p event hnew hevent).2 m' q event' hother hold' hevent'
    · rcases hcases hq with ⟨rfl, hnew'⟩ | ⟨-, hold'⟩
      · exact ((hflight q event' hnew' hevent').2 m p event hne hold hevent).symm
      · exact hs.apart m m' p q event event' hne hold hold' hevent hevent'
  case held =>
    intro m p event r hp hreceipt
    rcases hcases hp with ⟨rfl, hnew⟩ | ⟨-, hold⟩
    · exact hheld p event r hnew hreceipt
    · exact hs.held m p event r hold hreceipt
  case confirmed =>
    intro m events event r hp
    rcases hcases hp with ⟨rfl, hnew⟩ | ⟨-, hold⟩
    · exact hconfirmed events event r hnew
    · exact hs.confirmed m events event r hold
  case woken =>
    intro m events event r hp hdelivered
    rcases hcases hp with ⟨rfl, hnew⟩ | ⟨-, hold⟩
    · exact hwoken events event r hnew hdelivered
    · exact hs.woken m events event r hold hdelivered
  case published => exact hs.published
  case written => exact hs.written
  case delivered => exact hs.delivered

/-- A pass goes on with the event it has in flight. -/
theorem Sound.advance (hs : s.Sound) {events : List TransientTerminalEvent}
    {old new : DeliveryStage} (hold : s.passes n = some ⟨events, old⟩)
    (hflight : new.inFlight = old.inFlight)
    (hreceipt : new.receipt = none ∨ new.receipt = old.receipt)
    (hconfirmed : ∀ event r, new = .delivered event r → s.isDelivered r = true)
    (hwoken : ∀ event r, new = .parked event r false → s.isDelivered r = false) :
    (s.setPass n (some ⟨events, new⟩)).Sound := by
  apply hs.setPass
  · intro p event hp hevent
    cases hp
    have hbefore : old.inFlight = some event := hflight ▸ hevent
    refine ⟨hs.inFlight n _ event hold hbefore, ?_⟩
    intro m q event' hne hq hevent'
    exact hs.apart n m _ q event event' hne.symm hold hq hbefore hevent'
  · intro p event r hp hr
    cases hp
    rcases hreceipt with hnone | hsame
    · have hr : new.receipt = some (event, r) := hr
      rw [hnone] at hr
      cases hr
    · exact hs.held n _ event r hold (hsame ▸ hr)
  · intro _ event r hp
    cases hp
    exact hconfirmed event r rfl
  · intro _ event r hp hdelivered
    cases hp
    rw [hwoken event r rfl] at hdelivered
    cases hdelivered

/-- A pass that has nothing in flight. -/
theorem Sound.idle (hs : s.Sound) {new : Option DeliveryPass}
    (hidle : ∀ p, new = some p → p.stage = .next) : (s.setPass n new).Sound := by
  apply hs.setPass
  · intro p event hp hevent
    rw [hidle p hp] at hevent
    cases hevent
  · intro p event r hp hr
    rw [hidle p hp] at hr
    cases hr
  · intro events event r hp
    cases hidle _ hp
  · intro events event r hp
    cases hidle _ hp

theorem Sound.withStore (hs : s.Sound) (store : Store) : Sound { s with store } :=
  ⟨hs.inFlight, hs.apart, hs.held, hs.confirmed, hs.woken, hs.published, hs.written, hs.delivered⟩

theorem Sound.withReceivers (hs : s.Sound) (receivers : Finset ℕ) : Sound { s with receivers } :=
  ⟨hs.inFlight, hs.apart, hs.held, hs.confirmed, hs.woken, hs.published, hs.written, hs.delivered⟩

theorem Sound.insert (hs : s.Sound) (eventId : Uuid) :
    Sound { s with inFlight := insert eventId s.inFlight } where
  inFlight n p event hp hevent := Finset.mem_insert_of_mem (hs.inFlight n p event hp hevent)
  apart := hs.apart
  held := hs.held
  confirmed := hs.confirmed
  woken := hs.woken
  published := hs.published
  written := hs.written
  delivered := hs.delivered

theorem Sound.erase (hs : s.Sound) (eventId : Uuid)
    (hnone : ∀ n p event, s.passes n = some p → p.stage.inFlight = some event →
      event.eventId ≠ eventId) : Sound { s with inFlight := s.inFlight.erase eventId } where
  inFlight n p event hp hevent :=
    Finset.mem_erase.mpr ⟨hnone n p event hp hevent, hs.inFlight n p event hp hevent⟩
  apart := hs.apart
  held := hs.held
  confirmed := hs.confirmed
  woken := hs.woken
  published := hs.published
  written := hs.written
  delivered := hs.delivered

theorem Sound.takeNext (hs : s.Sound) {event : TransientTerminalEvent}
    {events : List TransientTerminalEvent} (hfresh : event.eventId ∉ s.inFlight) :
    Sound ({ s with
      inFlight := Insert.insert event.eventId s.inFlight }.setPass n
        (some ⟨events, .claimed event⟩)) := by
  apply (hs.insert event.eventId).setPass
  · intro p event' hp hevent'
    cases hp
    cases hevent'
    refine ⟨Finset.mem_insert_self _ _, ?_⟩
    intro m q other _ hq hother heq
    apply hfresh
    rw [heq]
    exact hs.inFlight m q other hq hother
  · intro p event' receipt hp hreceipt
    cases hp
    cases hreceipt
  · intro events' event' receipt hp
    cases hp
  · intro events' event' receipt hp
    cases hp

theorem Sound.release (hs : s.Sound) {event : TransientTerminalEvent}
    {events : List TransientTerminalEvent} (hold : s.passes n = some ⟨events, .releasing event⟩) :
    Sound ({ s with
      inFlight := s.inFlight.erase event.eventId }.setPass n (some ⟨events, .next⟩)) := by
  have hidle : (s.setPass n (some ⟨events, .next⟩)).Sound := by
    apply hs.idle
    intro p hp
    cases hp
    rfl
  apply hidle.erase event.eventId
  intro m p other hp hother
  by_cases heq : m = n
  · subst heq
    rw [setPass_passes, Function.update_self] at hp
    cases hp
    cases hother
  · rw [setPass_passes, Function.update_of_ne heq] at hp
    exact hs.apart m n p _ other event heq hp hold hother rfl

end Passes

section Streams

/-- A subscriber goes on; when it had set a flag, it still has to notify the
waiters or none is left. -/
theorem Sound.setStream (hs : s.Sound) {new : Option EventStream}
    (hpublished : ∀ e published, new = some e → e.Holds published →
      ∀ r, published.receipt = some r →
        ∃ c, s.receipts r = some c ∧ published.eventId = some c.eventId)
    (hwritten : ∀ e published, new = some e → e.stage = .written published → published ∈ s.wrote)
    (hflagged : ∀ e r, s.streams n = some e → e.stage = .flagged r →
      (∃ e', new = some e' ∧ e'.stage = .flagged r) ∨
        ∀ m events event, s.passes m ≠ some ⟨events, .parked event r false⟩) :
    (s.setStream n new).Sound := by
  have hcases {m : ℕ} {e : EventStream} (h : Function.update s.streams n new m = some e) :
      m = n ∧ new = some e ∨ m ≠ n ∧ s.streams m = some e := by
    by_cases heq : m = n
    · subst heq
      rw [Function.update_self] at h
      exact .inl ⟨rfl, h⟩
    · rw [Function.update_of_ne heq] at h
      exact .inr ⟨heq, h⟩
  constructor
  case inFlight => exact hs.inFlight
  case apart => exact hs.apart
  case held => exact hs.held
  case confirmed => exact hs.confirmed
  case woken =>
    intro m events event r hp hdelivered
    obtain ⟨k, e, he, hstage⟩ := hs.woken m events event r hp hdelivered
    by_cases heq : k = n
    · subst heq
      rcases hflagged e r he hstage with ⟨e', hnew, hstage'⟩ | hnone
      · exact ⟨k, e', by rw [setStream_streams, Function.update_self, hnew], hstage'⟩
      · exact absurd hp (hnone m events event)
    · exact ⟨k, e, by rw [setStream_streams, Function.update_of_ne heq, he], hstage⟩
  case published =>
    intro m e published he hholds
    rcases hcases he with ⟨rfl, hnew⟩ | ⟨-, hold⟩
    · exact hpublished e published hnew hholds
    · exact hs.published m e published hold hholds
  case written =>
    intro m e published he hstage
    rcases hcases he with ⟨rfl, hnew⟩ | ⟨-, hold⟩
    · exact hwritten e published hnew hstage
    · exact hs.written m e published hold hstage
  case delivered => exact hs.delivered

/-- A subscriber goes on with events it held, and has no waiter to notify. -/
theorem Sound.stream (hs : s.Sound) {old new : EventStream} (hold : s.streams n = some old)
    (hholds : ∀ published, new.Holds published → old.Holds published)
    (hwritten : ∀ published, new.stage = .written published → published ∈ s.wrote)
    (hflagged : ∀ r, old.stage = .flagged r → new.stage = .flagged r) :
    (s.setStream n (some new)).Sound := by
  apply hs.setStream
  · intro e published he hnew
    cases he
    exact hs.published n old published hold (hholds published hnew)
  · intro e published he hstage
    cases he
    exact hwritten published hstage
  · intro e r he hstage
    rw [hold, Option.some.injEq] at he
    subst he
    exact .inl ⟨new, rfl, hflagged r hstage⟩

theorem Sound.withWrote (hs : s.Sound) (published : PublishedEvent) :
    Sound { s with wrote := s.wrote ++ [published] } where
  inFlight := hs.inFlight
  apart := hs.apart
  held := hs.held
  confirmed := hs.confirmed
  woken := hs.woken
  published := hs.published
  written m e other he hstage := List.mem_append_left _ (hs.written m e other he hstage)
  delivered r c hc hdelivered := by
    obtain ⟨other, hother, hid⟩ := hs.delivered r c hc hdelivered
    exact ⟨other, List.mem_append_left _ hother, hid⟩

/-- The flag of a receipt is set by a stream that will notify its waiters. -/
theorem Sound.complete (hs : s.Sound) {receipt : ℕ} {published : PublishedEvent}
    (hwrote : published ∈ s.wrote)
    (hid : ∀ c, s.receipts receipt = some c → published.eventId = some c.eventId)
    (hflagged : ∃ m e, s.streams m = some e ∧ e.stage = .flagged receipt) :
    Sound { s with
      receipts := Function.update s.receipts receipt
        ((s.receipts receipt).map DeliveryReceipt.complete) } := by
  have hkept (r : ℕ) (c : DeliveryReceipt) (hc : s.receipts r = some c) :
      ∃ c', Function.update s.receipts receipt
        ((s.receipts receipt).map DeliveryReceipt.complete) r = some c' ∧
          c'.eventId = c.eventId ∧ (c.delivered = true → c'.delivered = true) := by
    by_cases heq : r = receipt
    · subst heq
      exact ⟨c.complete, by rw [Function.update_self, hc]; rfl, rfl, fun _ => rfl⟩
    · exact ⟨c, by rw [Function.update_of_ne heq, hc], rfl, id⟩
  constructor
  case inFlight => exact hs.inFlight
  case apart => exact hs.apart
  case held =>
    intro n p event r hp hr
    obtain ⟨c, hc, hevent⟩ := hs.held n p event r hp hr
    obtain ⟨c', hc', hsame, -⟩ := hkept r c hc
    exact ⟨c', hc', hsame.trans hevent⟩
  case confirmed =>
    intro n events event r hp
    obtain ⟨c, hc, hdelivered⟩ := (Option.any_eq_true _ _).mp (hs.confirmed n events event r hp)
    obtain ⟨c', hc', -, hkeeps⟩ := hkept r c hc
    exact (Option.any_eq_true _ _).mpr ⟨c', hc', hkeeps hdelivered⟩
  case woken =>
    intro n events event r hp hdelivered
    by_cases heq : r = receipt
    · exact heq ▸ hflagged
    · apply hs.woken n events event r hp
      unfold isDelivered at hdelivered ⊢
      dsimp only at hdelivered
      rwa [Function.update_of_ne heq] at hdelivered
  case published =>
    intro m e other he hholds r hr
    obtain ⟨c, hc, hevent⟩ := hs.published m e other he hholds r hr
    obtain ⟨c', hc', hsame, -⟩ := hkept r c hc
    exact ⟨c', hc', hevent.trans (congrArg some hsame.symm)⟩
  case written => exact hs.written
  case delivered =>
    intro r c hc hdelivered
    dsimp only at hc
    by_cases heq : r = receipt
    · subst heq
      rw [Function.update_self] at hc
      obtain ⟨old, hold, rfl⟩ := Option.map_eq_some_iff.mp hc
      exact ⟨published, hwrote, hid old hold⟩
    · rw [Function.update_of_ne heq] at hc
      exact hs.delivered r c hc hdelivered

/-- Every waiter that is enabled for the receipt is woken. -/
theorem Sound.wakeAll (hs : s.Sound) (receipt : ℕ) :
    Sound { s with passes := fun n => (s.passes n).map (DeliveryPass.wake receipt) } ∧
      ∀ n events event, (s.passes n).map (DeliveryPass.wake receipt) ≠
        some ⟨events, .parked event receipt false⟩ := by
  have hmap {n : ℕ} {p : DeliveryPass} (h : (s.passes n).map (DeliveryPass.wake receipt) = some p) :
      ∃ old, s.passes n = some old ∧ p.events = old.events ∧ p.stage = old.stage.wake receipt := by
    obtain ⟨old, hold, rfl⟩ := Option.map_eq_some_iff.mp h
    exact ⟨old, hold, rfl, rfl⟩
  constructor
  · constructor
    case inFlight =>
      intro n p event hp hevent
      obtain ⟨old, hold, -, hstage⟩ := hmap hp
      rw [hstage, (DeliveryStage.wake_spec receipt old.stage).1] at hevent
      exact hs.inFlight n old event hold hevent
    case apart =>
      intro n m p q event event' hne hp hq hevent hevent'
      obtain ⟨old, hold, -, hstage⟩ := hmap hp
      obtain ⟨old', hold', -, hstage'⟩ := hmap hq
      rw [hstage, (DeliveryStage.wake_spec receipt old.stage).1] at hevent
      rw [hstage', (DeliveryStage.wake_spec receipt old'.stage).1] at hevent'
      exact hs.apart n m old old' event event' hne hold hold' hevent hevent'
    case held =>
      intro n p event r hp hr
      obtain ⟨old, hold, -, hstage⟩ := hmap hp
      rw [hstage, (DeliveryStage.wake_spec receipt old.stage).2.1] at hr
      exact hs.held n old event r hold hr
    case confirmed =>
      intro n events event r hp
      obtain ⟨⟨events', stage⟩, hold, -, hstage⟩ := hmap hp
      have hsame := (DeliveryStage.wake_spec receipt stage).2.2.1 event r hstage.symm
      exact hs.confirmed n events' event r (hsame ▸ hold)
    case woken =>
      intro n events event r hp hdelivered
      obtain ⟨⟨events', stage⟩, hold, -, hstage⟩ := hmap hp
      obtain ⟨hsame, -⟩ := (DeliveryStage.wake_spec receipt stage).2.2.2 event r hstage.symm
      exact hs.woken n events' event r (hsame ▸ hold) hdelivered
    case published => exact hs.published
    case written => exact hs.written
    case delivered => exact hs.delivered
  · intro n events event hp
    obtain ⟨old, -, -, hstage⟩ := hmap hp
    exact ((DeliveryStage.wake_spec receipt old.stage).2.2.2 event receipt hstage.symm).2 rfl

/-- Every receiver gets the event. -/
theorem Sound.publish (hs : s.Sound) (published : PublishedEvent)
    (hreceipt : ∀ r, published.receipt = some r →
      ∃ c, s.receipts r = some c ∧ published.eventId = some c.eventId) :
    (s.publish published).Sound := by
  have hmap {m : ℕ} {e : EventStream} (h : (s.publish published).streams m = some e) :
      ∃ old, s.streams m = some old ∧ e.stage = old.stage ∧ e.queue = old.queue ++ [published] := by
    obtain ⟨old, hold, rfl⟩ := Option.map_eq_some_iff.mp h
    exact ⟨old, hold, rfl, rfl⟩
  constructor
  case inFlight => exact hs.inFlight
  case apart => exact hs.apart
  case held => exact hs.held
  case confirmed => exact hs.confirmed
  case woken =>
    intro n events event r hp hdelivered
    obtain ⟨m, e, he, hstage⟩ := hs.woken n events event r hp hdelivered
    refine ⟨m, { e with queue := e.queue ++ [published] }, ?_, hstage⟩
    exact Option.map_eq_some_iff.mpr ⟨e, he, rfl⟩
  case published =>
    intro m e other he hholds r hr
    obtain ⟨old, hold, hstage, hqueue⟩ := hmap he
    unfold EventStream.Holds at hholds
    rw [hstage, hqueue, List.mem_append, List.mem_singleton] at hholds
    rcases hholds with (hmem | rfl) | hstage
    · exact hs.published m old other hold (.inl hmem) r hr
    · exact hreceipt r hr
    · exact hs.published m old other hold (.inr hstage) r hr
  case written =>
    intro m e other he hwritten
    obtain ⟨old, hold, hstage, -⟩ := hmap he
    exact hs.written m old other hold (hstage ▸ hwritten)
  case delivered => exact hs.delivered

/-- A new receipt, which nothing refers to yet. -/
theorem Sound.newReceipt (hs : s.Sound) {receipt : ℕ} (hnew : s.receipts receipt = none)
    (eventId : Uuid) :
    Sound { s with receipts := Function.update s.receipts receipt (some { eventId }) } := by
  have hkept (r : ℕ) (c : DeliveryReceipt) (hc : s.receipts r = some c) :
      Function.update s.receipts receipt (some { eventId }) r = some c := by
    rw [Function.update_of_ne, hc]
    rintro rfl
    rw [hnew] at hc
    cases hc
  have hopen (r : ℕ) (h : isDelivered { s with
      receipts := Function.update s.receipts receipt (some { eventId }) } r = true) :
      s.isDelivered r = true := by
    unfold isDelivered at h ⊢
    dsimp only at h
    by_cases heq : r = receipt
    · subst heq
      rw [Function.update_self] at h
      cases h
    · rwa [Function.update_of_ne heq] at h
  constructor
  case inFlight => exact hs.inFlight
  case apart => exact hs.apart
  case held =>
    intro n p event r hp hr
    obtain ⟨c, hc, hevent⟩ := hs.held n p event r hp hr
    exact ⟨c, hkept r c hc, hevent⟩
  case confirmed =>
    intro n events event r hp
    obtain ⟨c, hc, hdelivered⟩ := (Option.any_eq_true _ _).mp (hs.confirmed n events event r hp)
    exact (Option.any_eq_true _ _).mpr ⟨c, hkept r c hc, hdelivered⟩
  case woken =>
    intro n events event r hp hdelivered
    exact hs.woken n events event r hp (hopen r hdelivered)
  case published =>
    intro m e other he hholds r hr
    obtain ⟨c, hc, hevent⟩ := hs.published m e other he hholds r hr
    exact ⟨c, hkept r c hc, hevent⟩
  case written => exact hs.written
  case delivered =>
    intro r c hc hdelivered
    dsimp only at hc
    by_cases heq : r = receipt
    · subst heq
      rw [Function.update_self] at hc
      cases hc
      cases hdelivered
    · rw [Function.update_of_ne heq] at hc
      exact hs.delivered r c hc hdelivered

end Streams

theorem Sound.stream_step (hs : s.Sound) {action : DeliveryAction}
    (hact : s.act action = some t) (haction : ∃ stream, action = .receive stream ∨
      action = .writeOk stream ∨ action = .storeFlag stream ∨ action = .notify stream) :
    t.Sound := by
  obtain ⟨stream, rfl | rfl | rfl | rfl⟩ := haction
  · simp only [act] at hact
    split at hact
    · rename_i external published queue hold
      cases hact
      apply hs.stream hold
      · rintro other (hmem | hstage | hstage)
        · exact .inl (List.mem_cons_of_mem _ hmem)
        · cases external with
          | true =>
            cases hstage
            exact .inl List.mem_cons_self
          | false => cases hstage
        · cases external <;> cases hstage
      · intro other hstage
        cases external <;> cases hstage
      · intro r hstage
        cases hstage
    · cases hact
  · simp only [act] at hact
    split at hact
    · rename_i external queue published hold
      cases hact
      apply (hs.withWrote published).stream hold
      · rintro other (hmem | hstage | hstage)
        · exact .inl hmem
        · cases hstage
        · cases hstage
          exact .inr (.inl rfl)
      · intro other hstage
        cases hstage
        exact List.mem_append_right _ List.mem_cons_self
      · intro r hstage
        cases hstage
    · cases hact
  · simp only [act] at hact
    split at hact
    · rename_i external queue published hold
      split at hact
      · rename_i receipt hreceipt
        cases hact
        have hwrote := hs.written stream _ published hold rfl
        -- the stream is at the notification when the flag is set
        have hflagged : (s.setStream stream (some ⟨external, queue, .flagged receipt⟩)).Sound := by
          apply hs.stream hold
          · rintro other (hmem | hstage | hstage)
            · exact .inl hmem
            · cases hstage
            · cases hstage
          · intro other hstage
            cases hstage
          · intro r hstage
            cases hstage
        apply hflagged.complete hwrote
        · intro c hc
          obtain ⟨c', hc', hevent⟩ :=
            hs.published stream _ published hold (.inr (.inr rfl)) receipt hreceipt
          have hsame : some c = some c' := hc.symm.trans hc'
          cases hsame
          exact hevent
        · exact ⟨stream, _, Function.update_self _ _ _, rfl⟩
      · cases hact
        apply hs.stream hold
        · rintro other (hmem | hstage | hstage)
          · exact .inl hmem
          · cases hstage
          · cases hstage
        · intro other hstage
          cases hstage
        · intro r hstage
          cases hstage
    · cases hact
  · simp only [act] at hact
    split at hact
    · rename_i external queue receipt hold
      cases hact
      obtain ⟨hwoken, hnone⟩ := hs.wakeAll receipt
      apply hwoken.setStream
      · intro e published he hholds
        cases he
        rcases hholds with hmem | hstage | hstage
        · exact hs.published stream _ published hold (.inl hmem)
        · cases hstage
        · cases hstage
      · intro e published he hstage
        cases he
        cases hstage
      · intro e r he hstage
        have hsame : some ⟨external, queue, .flagged receipt⟩ = some e := hold.symm.trans he
        cases hsame
        cases hstage
        exact .inr hnone
    · cases hact

theorem Sound.step (hs : s.Sound) {action : DeliveryAction}
    (hstep : deliverySystem.step s action = some t) : t.Sound := by
  have hact : s.act action = some t := hstep
  cases action with
  | commit event =>
    simp only [act] at hact
    split at hact
    · cases hact
      exact hs.withStore _
    · cases hact
  | subscribe stream external =>
    simp only [act] at hact
    split at hact
    · rename_i hnone
      cases hact
      have hnew : (s.setStream stream (some { external })).Sound := by
        apply hs.setStream
        · intro e published he hholds
          cases he
          rcases hholds with hmem | hstage | hstage
          · cases hmem
          · cases hstage
          · cases hstage
        · intro e published he hstage
          cases he
          cases hstage
        · intro e r he
          rw [hnone] at he
          cases he
      exact hnew.withReceivers _
    · cases hact
  | unsubscribe stream =>
    have hgone {e : EventStream} (hold : s.streams stream = some e)
        (hidle : ∀ r, e.stage ≠ .flagged r) : (s.setStream stream none).Sound := by
      apply hs.setStream
      · intro e' published he'
        cases he'
      · intro e' published he'
        cases he'
      · intro e' r he' hstage
        rw [hold, Option.some.injEq] at he'
        exact absurd (he' ▸ hstage) (hidle r)
    simp only [act] at hact
    split at hact
    · rename_i hold
      cases hact
      exact (hgone hold fun r h => by cases h).withReceivers _
    · rename_i hold
      cases hact
      exact (hgone hold fun r h => by cases h).withReceivers _
    · cases hact
  | lag stream count =>
    simp only [act] at hact
    split at hact
    · rename_i e hold
      cases hact
      apply hs.stream hold
      · rintro published (hmem | hstage)
        · exact .inl (List.drop_subset count e.queue hmem)
        · exact .inr hstage
      · exact fun published hstage => hs.written stream e published hold hstage
      · exact fun r hstage => hstage
    · cases hact
  | receive stream => exact hs.stream_step hact ⟨stream, .inl rfl⟩
  | writeOk stream => exact hs.stream_step hact ⟨stream, .inr (.inl rfl)⟩
  | storeFlag stream => exact hs.stream_step hact ⟨stream, .inr (.inr (.inl rfl))⟩
  | notify stream => exact hs.stream_step hact ⟨stream, .inr (.inr (.inr rfl))⟩
  | publishOrdinary event =>
    cases hact
    apply hs.publish
    intro r hr
    cases hr
  | startPass pass =>
    simp only [act] at hact
    split at hact
    · cases hact
      apply hs.idle
      intro p hp
      cases hp
      rfl
    · cases hact
  | takeNext pass =>
    simp only [act] at hact
    split at hact
    · split at hact
      · cases hact
        apply hs.idle
        intro p hp
        cases hp
        rfl
      · rename_i hfresh
        cases hact
        exact hs.takeNext hfresh
    · cases hact
      apply hs.idle
      intro p hp
      cases hp
    · cases hact
  | send pass receipt =>
    simp only [act] at hact
    split at hact
    · rename_i events event hold
      split at hact
      · cases hact
        exact hs.advance hold rfl (.inl rfl) (fun _ _ h => by cases h) fun _ _ h => by cases h
      · split at hact
        · rename_i hnew
          cases hact
          have hnew := hs.newReceipt (Option.isNone_iff_eq_none.mp hnew) event.eventId
          have hmade : Function.update s.receipts receipt (some { eventId := event.eventId })
              receipt = some { eventId := event.eventId } := Function.update_self _ _ _
          have hpublished := hnew.publish
            (.durableTerminal event.domainEvent event.eventId event.occurredAt receipt) (by
              intro r hr
              cases hr
              exact ⟨_, hmade, rfl⟩)
          apply hpublished.setPass
          · intro p event' hp hevent
            cases hp
            cases hevent
            refine ⟨hs.inFlight pass _ event hold rfl, ?_⟩
            intro m q other hne hq hother
            exact hs.apart pass m _ q event other hne.symm hold hq rfl hother
          · intro p event' r hp hr
            cases hp
            cases hr
            exact ⟨_, hmade, rfl⟩
          · intro events' event' r hp
            cases hp
          · intro events' event' r hp
            cases hp
        · cases hact
    · cases hact
  | firstLoad pass =>
    simp only [act] at hact
    split at hact
    · rename_i events event receipt hold
      cases hact
      by_cases hflag : s.isDelivered receipt = true
      · rw [if_pos hflag]
        apply hs.advance hold
        · rfl
        · exact .inr rfl
        · intro event' r h
          cases h
          exact hflag
        · exact fun _ _ h => by cases h
      · rw [if_neg hflag]
        exact hs.advance hold rfl (.inr rfl) (fun _ _ h => by cases h) fun _ _ h => by cases h
    · cases hact
  | enable pass =>
    simp only [act] at hact
    split at hact
    · rename_i events event receipt hold
      cases hact
      exact hs.advance hold rfl (.inr rfl) (fun _ _ h => by cases h) fun _ _ h => by cases h
    · cases hact
  | secondLoad pass =>
    simp only [act] at hact
    split at hact
    · rename_i events event receipt woken hold
      cases hact
      by_cases hflag : s.isDelivered receipt = true
      · rw [if_pos hflag]
        apply hs.advance hold
        · rfl
        · exact .inr rfl
        · intro event' r h
          cases h
          exact hflag
        · exact fun _ _ h => by cases h
      · rw [if_neg hflag]
        apply hs.advance hold
        · rfl
        · exact .inr rfl
        · exact fun _ _ h => by cases h
        · intro event' r h
          cases h
          exact Bool.eq_false_iff.mpr hflag
    · cases hact
  | wake pass =>
    simp only [act] at hact
    split at hact
    · rename_i events event receipt hold
      cases hact
      by_cases hflag : s.isDelivered receipt = true
      · rw [if_pos hflag]
        apply hs.advance hold
        · rfl
        · exact .inr rfl
        · intro event' r h
          cases h
          exact hflag
        · exact fun _ _ h => by cases h
      · rw [if_neg hflag]
        exact hs.advance hold rfl (.inl rfl) (fun _ _ h => by cases h) fun _ _ h => by cases h
    · cases hact
  | timeout pass =>
    simp only [act] at hact
    split at hact
    · rename_i events event receipt hold
      cases hact
      exact hs.advance hold rfl (.inl rfl) (fun _ _ h => by cases h) fun _ _ h => by cases h
    · cases hact
  | acknowledge pass committed =>
    simp only [act] at hact
    split at hact
    · rename_i events event receipt hold
      cases hact
      exact (hs.withStore _).advance hold rfl (.inl rfl) (fun _ _ h => by cases h)
        fun _ _ h => by cases h
    · cases hact
  | release pass =>
    simp only [act] at hact
    split at hact
    · rename_i events event hold
      cases hact
      exact hs.release hold
    · cases hact
  | dropPass pass =>
    cases hact
    apply hs.idle
    intro p hp
    cases hp
  | crash =>
    cases hact
    constructor
    case inFlight => exact fun _ _ _ hp => by cases hp
    case apart => exact fun _ _ _ _ _ _ _ hp => by cases hp
    case held => exact fun _ _ _ _ hp => by cases hp
    case confirmed => exact fun _ _ _ _ hp => by cases hp
    case woken => exact fun _ _ _ _ hp => by cases hp
    case published => exact fun _ _ _ he => by cases he
    case written => exact fun _ _ _ he => by cases he
    case delivered => exact fun _ _ hc => by cases hc

theorem sound_empty : Sound {} where
  inFlight _ _ _ hp := by cases hp
  apart _ _ _ _ _ _ _ hp := by cases hp
  held _ _ _ _ hp := by cases hp
  confirmed _ _ _ _ hp := by cases hp
  woken _ _ _ _ hp := by cases hp
  published _ _ _ he := by cases he
  written _ _ _ he := by cases he
  delivered _ _ hc := by cases hc

theorem sound_of_reaches (h : deliverySystem.Reaches {} s) : s.Sound :=
  h.invariant (fun _ _ _ hs _ hstep => hs.step hstep) sound_empty

/-- Only an acknowledgement takes rows from the outbox, and only those of its event. -/
theorem removed_row {action : DeliveryAction} (hstep : deliverySystem.step s action = some t)
    {row : TransientTerminalEvent} (hrow : row ∈ s.store.outbox) (hgone : row ∉ t.store.outbox) :
    ∃ pass events event receipt, action = .acknowledge pass true ∧
      s.passes pass = some ⟨events, .delivered event receipt⟩ ∧ row.eventId = event.eventId := by
  have hact : s.act action = some t := hstep
  cases action with
  | commit event =>
    simp only [act] at hact
    split at hact
    · rename_i store hinsert
      cases hact
      unfold Store.insertOutbox at hinsert
      split at hinsert
      · cases hinsert
        exact absurd hrow hgone
      · split at hinsert
        · cases hinsert
        · cases hinsert
          exact absurd (List.mem_append_left _ hrow) hgone
    · cases hact
  | acknowledge pass committed =>
    simp only [act] at hact
    split at hact
    · rename_i events event receipt hold
      cases hact
      cases committed with
      | false => exact absurd hrow hgone
      | true =>
        refine ⟨pass, events, event, receipt, rfl, hold, ?_⟩
        by_contra hother
        apply hgone
        show row ∈ (s.store.acknowledgeTransientTerminalEvent event.eventId event.cleanupId).outbox
        unfold Store.acknowledgeTransientTerminalEvent
        split
        · exact List.mem_filter.mpr ⟨hrow, by simp [hother]⟩
        · exact hrow
    · cases hact
  | _ =>
    -- no other step touches the store
    suffices hstore : t.store = s.store from absurd (hstore ▸ hrow) hgone
    simp only [act] at hact
    repeat' split at hact
    all_goals cases hact
    all_goals rfl

/-- Delivery at least once, over every interleaving of the passes, the streams
and restarts. -/
theorem deliveryLawful (h : deliverySystem.Reaches {} s) : s.DeliveryLawful where
  acknowledged action t hstep row hrow hgone := by
    obtain ⟨pass, events, event, receipt, -, hold, hevent⟩ := removed_row hstep hrow hgone
    have hs := sound_of_reaches h
    obtain ⟨c, hc, hdelivered⟩ :=
      (Option.any_eq_true _ _).mp (hs.confirmed pass events event receipt hold)
    obtain ⟨c', hc', hmade⟩ := hs.held pass _ event receipt hold rfl
    rw [hc, Option.some.injEq] at hc'
    obtain ⟨published, hwrote, hid⟩ := hs.delivered receipt c hc hdelivered
    exact ⟨published, hwrote, by rw [hid, hc', hmade, hevent]⟩
  confirmed := (sound_of_reaches h).confirmed
  woken := (sound_of_reaches h).woken
  exclusive pass pass' p p' event event' :=
    (sound_of_reaches h).apart pass pass' p p' event event'

/-- A subscriber writes the event after the pass has begun to wait for it. -/
def deliverOne : List DeliveryAction :=
  [.commit { cleanupId := 20, eventId := 21, occurredAt := 3, jobName := "nightly", runId := ⟨10⟩
             state := .succeeded, exitCode := some 0 },
    .subscribe 0 true, .startPass 0, .takeNext 0, .send 0 5, .firstLoad 0, .receive 0, .enable 0,
    .secondLoad 0, .writeOk 0, .storeFlag 0, .notify 0, .wake 0]

theorem deliverOne_deliveryLawful :
    ∃ s, (deliverySystem.Reaches {} s ∧ ((s.passes 0).any (·.stage.receipt.isSome) && s.isDelivered 5) = true) ∧
      s.DeliveryLawful := by
  have hexec : (deliverySystem.exec {} deliverOne).any (fun s =>
      (s.passes 0).any (·.stage.receipt.isSome) && s.isDelivered 5) = true := by
    decide
  obtain ⟨s, hreaches, hheld⟩ := Machine.exists_reaches_of_exec _ deliverOne hexec
  exact ⟨s, ⟨hreaches, hheld⟩, deliveryLawful hreaches⟩

end DeliveryState

end Supervisor
