import Supervisor.TerminalSystem

namespace Supervisor

/-- The events about runs on the event stream. -/
inductive DomainEvent where
  | jobRunScheduled (name : String) (runId : JobRunId)
  | jobRunStarted (name : String) (runId : JobRunId)
  | jobRunSucceeded (name : String) (runId : JobRunId) (exitCode : ℤ)
  | jobRunFailed (name : String) (runId : JobRunId) (exitCode : Option ℤ)
  | jobRunTimedOut (name : String) (runId : JobRunId)
  | jobRunCancelled (name : String) (runId : JobRunId)
  | jobRunSkipped (name : String) (runId : JobRunId) (reason : String)
deriving DecidableEq

/-- The event a delivery pass publishes for a row of the outbox. -/
def TransientTerminalEvent.domainEvent (event : TransientTerminalEvent) : DomainEvent :=
  match event.state with
  | .succeeded => .jobRunSucceeded event.jobName event.runId (event.exitCode.getD 0)
  | .timedOut => .jobRunTimedOut event.jobName event.runId
  | .cancelled => .jobRunCancelled event.jobName event.runId
  | _ => .jobRunFailed event.jobName event.runId event.exitCode

/-- What all the clones of one durable publication share. -/
structure DeliveryReceipt where
  delivered : Bool := false
  /-- History: the event it was made for. -/
  eventId : Uuid

def DeliveryReceipt.complete (r : DeliveryReceipt) : DeliveryReceipt :=
  { r with delivered := true }

/-- `receipt` is where the shared receipt of a durable event is. -/
structure PublishedEvent where
  event : DomainEvent
  eventId : Option Uuid
  occurredAt : Option Instant
  receipt : Option ℕ
deriving DecidableEq

namespace PublishedEvent

def ordinary (event : DomainEvent) : PublishedEvent :=
  { event, eventId := none, occurredAt := none, receipt := none }

def durableTerminal (event : DomainEvent) (eventId : Uuid) (occurredAt : Instant) (receipt : ℕ) :
    PublishedEvent :=
  { event, eventId := some eventId, occurredAt := some occurredAt, receipt := some receipt }

end PublishedEvent

/-- Where a delivery pass is with the event it took. -/
inductive DeliveryStage where
  /-- At the head of the loop. -/
  | next
  /-- The event id is in the in-flight set. -/
  | claimed (event : TransientTerminalEvent)
  /-- Published; `wait_for_external_delivery` has not looked at the receipt yet. -/
  | sent (event : TransientTerminalEvent) (receipt : ℕ)
  /-- The first look found it open. -/
  | registering (event : TransientTerminalEvent) (receipt : ℕ)
  /-- The notification is enabled, the second look is to come. -/
  | rechecking (event : TransientTerminalEvent) (receipt : ℕ) (woken : Bool)
  /-- Waiting for the notification or the time-out. -/
  | parked (event : TransientTerminalEvent) (receipt : ℕ) (woken : Bool)
  /-- The wait answered `true`. -/
  | delivered (event : TransientTerminalEvent) (receipt : ℕ)
  | releasing (event : TransientTerminalEvent)
deriving DecidableEq

/-- `notify_waiters` wakes a waiter that is enabled. -/
def DeliveryStage.wake (receipt : ℕ) : DeliveryStage → DeliveryStage
  | .rechecking event r woken => .rechecking event r (woken || r = receipt)
  | .parked event r woken => .parked event r (woken || r = receipt)
  | stage => stage

/-- The event a pass has in flight. -/
def DeliveryStage.inFlight : DeliveryStage → Option TransientTerminalEvent
  | .next => none
  | .claimed event | .sent event _ | .registering event _ | .rechecking event _ _
  | .parked event _ _ | .delivered event _ | .releasing event => some event

/-- The receipt a pass holds, with its event. -/
def DeliveryStage.receipt : DeliveryStage → Option (TransientTerminalEvent × ℕ)
  | .sent event r | .registering event r | .rechecking event r _ | .parked event r _
  | .delivered event r => some (event, r)
  | .next | .claimed _ | .releasing _ => none

/-- One run of `deliver_transient_terminal_events`: the rows it has still to
take from its listing. -/
structure DeliveryPass where
  events : List TransientTerminalEvent
  stage : DeliveryStage
deriving DecidableEq

def DeliveryPass.wake (receipt : ℕ) (p : DeliveryPass) : DeliveryPass :=
  { p with stage := p.stage.wake receipt }

/-- Where a subscriber is with the event it received. -/
inductive StreamStage where
  | receiving
  /-- The write to the transport is under way. -/
  | writing (published : PublishedEvent)
  /-- The write succeeded; `complete_delivery` is called. -/
  | written (published : PublishedEvent)
  /-- The flag is stored, the waiters are still to be notified. -/
  | flagged (receipt : ℕ)
deriving DecidableEq

/-- A receiver of the event channel; only an external one writes what it receives. -/
structure EventStream where
  external : Bool
  queue : List PublishedEvent := []
  stage : StreamStage := .receiving
deriving DecidableEq

structure DeliveryState where
  store : Store := {}
  /-- `terminal_events_in_flight` -/
  inFlight : Finset Uuid := ∅
  passes : ℕ → Option DeliveryPass := fun _ => none
  streams : ℕ → Option EventStream := fun _ => none
  /-- The receivers of the channel, by the names in `streams`. -/
  receivers : Finset ℕ := ∅
  receipts : ℕ → Option DeliveryReceipt := fun _ => none
  /-- History: the events that an external transport wrote successfully. -/
  wrote : List PublishedEvent := []

inductive DeliveryAction where
  /-- A terminal commit adds its event to the outbox. -/
  | commit (event : TransientTerminalEvent)
  | subscribe (stream : ℕ) (external : Bool)
  /-- The stream ends while it waits for an event or for a write. -/
  | unsubscribe (stream : ℕ)
  /-- The channel overwrote the oldest events that the receiver has not read. -/
  | lag (stream count : ℕ)
  | receive (stream : ℕ)
  | writeOk (stream : ℕ)
  | storeFlag (stream : ℕ)
  | notify (stream : ℕ)
  | publishOrdinary (event : DomainEvent)
  | startPass (pass : ℕ)
  | takeNext (pass : ℕ)
  | send (pass receipt : ℕ)
  | firstLoad (pass : ℕ)
  | enable (pass : ℕ)
  | secondLoad (pass : ℕ)
  | wake (pass : ℕ)
  | timeout (pass : ℕ)
  /-- The repository answers, and the row was or was not removed. -/
  | acknowledge (pass : ℕ) (committed : Bool)
  | release (pass : ℕ)
  /-- The caller of a pass goes away. -/
  | dropPass (pass : ℕ)
  | crash

namespace DeliveryState

def setPass (s : DeliveryState) (pass : ℕ) (p : Option DeliveryPass) : DeliveryState :=
  { s with passes := Function.update s.passes pass p }

def setStream (s : DeliveryState) (stream : ℕ) (e : Option EventStream) : DeliveryState :=
  { s with streams := Function.update s.streams stream e }

/-- `events.send`: every receiver that is subscribed gets its own clone. -/
def publish (s : DeliveryState) (published : PublishedEvent) : DeliveryState :=
  { s with streams := fun stream => (s.streams stream).map fun e =>
      { e with queue := e.queue ++ [published] } }

/-- The flag of a receipt. -/
def isDelivered (s : DeliveryState) (receipt : ℕ) : Bool :=
  (s.receipts receipt).any (·.delivered)

def act (s : DeliveryState) : DeliveryAction → Option DeliveryState
  | .commit event =>
    match s.store.insertOutbox event with
    | .ok store => some { s with store }
    | .error _ => none
  | .subscribe stream external =>
    match s.streams stream with
    | none => some ({ s with
        receivers := insert stream s.receivers }.setStream stream (some { external }))
    | some _ => none
  | .unsubscribe stream =>
    match s.streams stream with
    | some ⟨_, _, .receiving⟩ | some ⟨_, _, .writing _⟩ =>
      some ({ s with receivers := s.receivers.erase stream }.setStream stream none)
    | _ => none
  | .lag stream count =>
    match s.streams stream with
    | some e => some (s.setStream stream (some { e with queue := e.queue.drop count }))
    | none => none
  | .receive stream =>
    match s.streams stream with
    | some ⟨external, published :: queue, .receiving⟩ =>
      some (s.setStream stream (some ⟨external, queue,
        if external then .writing published else .receiving⟩))
    | _ => none
  | .writeOk stream =>
    match s.streams stream with
    | some ⟨external, queue, .writing published⟩ =>
      some ({ s with
        wrote := s.wrote ++ [published] }.setStream stream
          (some ⟨external, queue, .written published⟩))
    | _ => none
  | .storeFlag stream =>
    match s.streams stream with
    | some ⟨external, queue, .written published⟩ =>
      match published.receipt with
      | some receipt =>
        some ({ s with
          receipts := Function.update s.receipts receipt
            ((s.receipts receipt).map DeliveryReceipt.complete) }.setStream stream
              (some ⟨external, queue, .flagged receipt⟩))
      | none => some (s.setStream stream (some ⟨external, queue, .receiving⟩))
    | _ => none
  | .notify stream =>
    match s.streams stream with
    | some ⟨external, queue, .flagged receipt⟩ =>
      some ({ s with
        passes := fun pass => (s.passes pass).map (DeliveryPass.wake receipt) }.setStream stream
            (some ⟨external, queue, .receiving⟩))
    | _ => none
  | .publishOrdinary event => some (s.publish (.ordinary event))
  | .startPass pass =>
    match s.passes pass with
    | none => some (s.setPass pass (some ⟨s.store.pendingTransientTerminalEvents 1000, .next⟩))
    | some _ => none
  | .takeNext pass =>
    match s.passes pass with
    | some ⟨event :: events, .next⟩ =>
      if event.eventId ∈ s.inFlight then some (s.setPass pass (some ⟨events, .next⟩))
      else some ({ s with
        inFlight := insert event.eventId s.inFlight }.setPass pass
          (some ⟨events, .claimed event⟩))
    | some ⟨[], .next⟩ => some (s.setPass pass none)
    | _ => none
  | .send pass receipt =>
    match s.passes pass with
    | some ⟨events, .claimed event⟩ =>
      if s.receivers = ∅ then some (s.setPass pass (some ⟨events, .releasing event⟩))
      else if (s.receipts receipt).isNone then
        let published := PublishedEvent.durableTerminal event.domainEvent event.eventId
          event.occurredAt receipt
        some ({ s.publish published with
          receipts := Function.update s.receipts receipt
            (some { eventId := event.eventId }) }.setPass pass (some ⟨events, .sent event receipt⟩))
      else none
    | _ => none
  | .firstLoad pass =>
    match s.passes pass with
    | some ⟨events, .sent event receipt⟩ =>
      some (s.setPass pass (some ⟨events,
        if s.isDelivered receipt then .delivered event receipt else .registering event receipt⟩))
    | _ => none
  | .enable pass =>
    match s.passes pass with
    | some ⟨events, .registering event receipt⟩ =>
      some (s.setPass pass (some ⟨events, .rechecking event receipt false⟩))
    | _ => none
  | .secondLoad pass =>
    match s.passes pass with
    | some ⟨events, .rechecking event receipt woken⟩ =>
      some (s.setPass pass (some ⟨events,
        if s.isDelivered receipt then .delivered event receipt
        else .parked event receipt woken⟩))
    | _ => none
  | .wake pass =>
    match s.passes pass with
    | some ⟨events, .parked event receipt true⟩ =>
      some (s.setPass pass (some ⟨events,
        if s.isDelivered receipt then .delivered event receipt else .releasing event⟩))
    | _ => none
  | .timeout pass =>
    -- a notification that has come is polled before the deadline
    match s.passes pass with
    | some ⟨events, .parked event _ false⟩ =>
      some (s.setPass pass (some ⟨events, .releasing event⟩))
    | _ => none
  | .acknowledge pass committed =>
    match s.passes pass with
    | some ⟨events, .delivered event _⟩ =>
      let store := if committed then
          s.store.acknowledgeTransientTerminalEvent event.eventId event.cleanupId
        else s.store
      some ({ s with store }.setPass pass (some ⟨events, .releasing event⟩))
    | _ => none
  | .release pass =>
    match s.passes pass with
    | some ⟨events, .releasing event⟩ =>
      some ({ s with
        inFlight := s.inFlight.erase event.eventId }.setPass pass (some ⟨events, .next⟩))
    | _ => none
  | .dropPass pass => some (s.setPass pass none)
  | .crash => some { store := s.store, wrote := s.wrote }

end DeliveryState

/-- The delivery of the outbox: passes, subscribers and restarts in any order. -/
def deliverySystem : Machine DeliveryState DeliveryAction := ⟨DeliveryState.act⟩

end Supervisor
