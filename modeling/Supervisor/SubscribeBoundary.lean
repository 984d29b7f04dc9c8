import Supervisor.RingJournal

namespace Supervisor

/-- `forward_logs` of one client. -/
structure Forwarding where
  /-- The lines of the page that have not been sent yet. -/
  toSend : List LogLine
  highWatermark : ℕ
  lastSequence : ℕ
  /-- What the channel holds for this client. -/
  queue : List LogLine
  received : List LogLine := []
  /-- What the page has been asked for, and what it had. -/
  query : TailQuery
  page : List LogLine
  /-- How many lines had been published when the page was read. -/
  boundary : ℕ

inductive SubscriberPhase where
  | idle
  | subscribed (queue : List LogLine)
  | forwarding (f : Forwarding)

/-- A journal and one client of it. A line is sent to the channel under the lock under which it is
written and under which a page is read. -/
structure Subscriber where
  store : LogStore
  phase : SubscriberPhase := .idle
  lagged : Bool := false

inductive SubscriberEvent where
  | journal (e : JournalEvent)
  | subscribe
  /-- The page is read after the subscription. -/
  | readTail (query : TailQuery)
  | subscribeTail (query : TailQuery)
  /-- The channel drops the oldest lines. -/
  | lag (count : ℕ)
  | forward
  | close

namespace SubscriberPhase

def forwarding? : SubscriberPhase → Option Forwarding
  | .forwarding f => some f
  | _ => none

/-- A line is broadcast. -/
def broadcast (lines : List LogLine) : SubscriberPhase → SubscriberPhase
  | .idle => .idle
  | .subscribed queue => .subscribed (queue ++ lines)
  | .forwarding f => .forwarding { f with queue := f.queue ++ lines }

end SubscriberPhase

namespace Forwarding

/-- The loop takes the next line of the page, then those of the channel that are new. -/
def next (f : Forwarding) : Option Forwarding :=
  match f.toSend, f.queue with
  | line :: toSend, _ => some { f with toSend, received := f.received ++ [line] }
  | [], line :: queue =>
    if line.sequence ≠ 0 ∧ (line.sequence ≤ f.highWatermark ∨ line.sequence ≤ f.lastSequence) then
      some { f with queue }
    else some { f with
      queue
      received := f.received ++ [line]
      lastSequence := max f.lastSequence line.sequence }
  | [], [] => none

end Forwarding

namespace Subscriber

variable (format : TimeFormat) (policy : JournalPolicy) (isRun : Bool)

/-- `forward_logs` begins with a page. -/
def start (s : Subscriber) (m : JournalManifest) (query : TailQuery) (queue : List LogLine) :
    Forwarding :=
  let page := s.store.tail format m query
  { toSend := page.lines
    highWatermark := page.highWatermark
    lastSequence := (page.lines.getLast?.map LogLine.sequence).getD 0
    queue
    query
    page := page.lines
    boundary := s.store.published.length }

def step (s : Subscriber) : SubscriberEvent → Option Subscriber
  | .journal e => (s.store.step format policy isRun e).map fun store =>
      match e with
      | .call _ => { s with
          store
          phase := s.phase.broadcast (store.published.drop s.store.published.length) }
      | .crash _ _ | .exit => { store }
  | .subscribe =>
    match s.phase with
    | .idle => some { s with phase := .subscribed [] }
    | _ => none
  | .readTail query =>
    match s.phase, s.store.manifest with
    | .subscribed queue, some m =>
      some { s with phase := .forwarding (s.start format m query queue) }
    | _, _ => none
  | .subscribeTail query =>
    match s.phase, s.store.manifest with
    | .idle, some m => some { s with phase := .forwarding (s.start format m query []) }
    | _, _ => none
  | .lag count =>
    match s.phase with
    | .idle => none
    | .subscribed queue => some { s with phase := .subscribed (queue.drop count), lagged := true }
    | .forwarding f =>
      some { s with phase := .forwarding { f with queue := f.queue.drop count }, lagged := true }
  | .forward =>
    match s.phase with
    | .forwarding f => f.next.map fun f => { s with phase := .forwarding f }
    | _ => none
  | .close => some { s with phase := .idle, lagged := false }

def machine : Machine Subscriber SubscriberEvent where
  step := step format policy isRun

/-- The lines of the page, then all lines that have been published since. -/
def expected (s : Subscriber) (f : Forwarding) : List LogLine :=
  f.page ++ s.store.published.drop f.boundary

/-- What the client of a channel without lag receives. -/
structure ExactlyOnce (s : Subscriber) (f : Forwarding) : Prop where
  ascending : (s.expected f).Pairwise fun a b => a.sequence < b.sequence
  /-- The page has the retained lines that it was asked for. -/
  retained : ∃ expired kept, s.store.published.take f.boundary = expired ++ kept ∧
    f.page = f.query.lastLines (kept.filter f.query.selects)
  inOrder : f.received <+: s.expected f
  complete : f.toSend = [] → f.queue = [] → f.received = s.expected f

def DeliversOnce (s : Subscriber) : Prop :=
  s.lagged = false → ∀ f, s.phase = .forwarding f → s.ExactlyOnce f

def Fits (s : Subscriber) : SubscriberEvent → Prop
  | .journal e => s.store.Fits format policy isRun e
  | _ => True

instance (s : Subscriber) (e : SubscriberEvent) : Decidable (s.Fits format policy isRun e) := by
  cases e with
  | journal e => exact inferInstanceAs (Decidable (s.store.Fits format policy isRun e))
  | _ => exact isTrue trivial

end Subscriber

namespace LogStore

variable {format : TimeFormat} {policy : JournalPolicy} {isRun : Bool} {s t : LogStore} {first : ℕ}
  {m : JournalManifest} {query : TailQuery}

/-- A sound store whose first line has this number. -/
def SoundFrom (format : TimeFormat) (first : ℕ) : LogStore → Prop
  | .durable s => s.Kept format first
  | .memory s => s.Sound ∧ first = 1

theorem Started.soundFrom (h : s.Started format) :
    ∃ first, s.SoundFrom format first ∧ 0 < first + s.published.length := by
  cases s with
  | durable s =>
    have hstarted : s.Started format := h
    refine ⟨_, hstarted.kept, ?_⟩
    change 0 < (s.published.head?.map LogLine.sequence).getD 1 + s.published.length
    cases s.published with
    | nil => exact Nat.one_pos
    | cons line lines => exact Nat.succ_pos _
  | memory s => exact ⟨1, ⟨h.sound, rfl⟩, Nat.lt_of_lt_of_le Nat.one_pos (Nat.le_add_right ..)⟩

theorem SoundFrom.step {e : JournalEvent} (h : s.SoundFrom format first)
    (hfits : s.Fits format policy isRun e) (hstep : s.step format policy isRun e = some t) :
    t.SoundFrom format first := by
  cases s with
  | durable s =>
    obtain ⟨u, hu, rfl⟩ := Option.map_eq_some_iff.mp hstep
    exact JournalState.step_kept h hfits hu
  | memory s =>
    have hsound : (LogStore.memory s).Sound format := h.1
    have ht := hsound.step hfits hstep
    cases e with
    | call call =>
      obtain ⟨u, hu, rfl⟩ := Option.map_eq_some_iff.mp hstep
      exact ⟨ht, h.2⟩
    | exit =>
      obtain rfl := Option.some.inj hstep
      exact ⟨ht, h.2⟩
    | crash call write => cases hstep

theorem SoundFrom.numbered (h : s.SoundFrom format first) : NumberedFrom first s.published := by
  cases s with
  | durable s => exact JournalState.Kept.numbered h
  | memory s =>
    obtain ⟨hsound, rfl⟩ := h
    exact hsound.numbered

theorem SoundFrom.highWatermark (h : s.SoundFrom format first) (hm : s.manifest = some m) :
    m.highWatermark + 1 = first + s.published.length := by
  cases s with
  | durable s =>
    obtain ⟨files, rows, hopened⟩ := JournalState.Kept.opened h m hm
    exact hopened.watermark.trans hopened.next
  | memory s =>
    obtain ⟨hsound, rfl⟩ := h
    rw [(hsound.manifest m hm).2.1]
    exact Nat.add_comm _ _

/-- A page has the lines that are retained, as far as they are asked for. -/
theorem SoundFrom.tail (h : s.SoundFrom format first) (hm : s.manifest = some m) :
    (s.tail format m query).highWatermark = m.highWatermark ∧
    ∃ expired kept, s.published = expired ++ kept ∧
      (s.tail format m query).lines = query.lastLines (kept.filter query.selects) := by
  cases s with
  | durable s =>
    obtain ⟨files, rows, hopened⟩ := JournalState.Kept.opened h m hm
    obtain ⟨expired, hsplit⟩ := hopened.layout.kept
    change (tailFrom format s.disk m query).highWatermark = _ ∧ _
    refine ⟨?_, expired, _, hsplit, ?_⟩
    · rw [hopened.tailFrom]
      rfl
    · change (tailFrom format s.disk m query).lines = _
      rw [hopened.tailFrom]
      rfl
  | memory s =>
    obtain ⟨hsound, -⟩ := h
    refine ⟨rfl, s.published.take (s.published.length - ringCapacity), s.buffer, ?_, rfl⟩
    rw [hsound.buffer]
    exact (List.take_append_drop ..).symm

/-- A call publishes at the end. -/
theorem published_prefix {call : JournalCall}
    (hstep : s.step format policy isRun (.call call) = some t) : s.published <+: t.published := by
  cases s with
  | durable s =>
    obtain ⟨u, hu, rfl⟩ := Option.map_eq_some_iff.mp hstep
    obtain ⟨⟨w, v⟩, hperform, rfl⟩ := Option.map_eq_some_iff.mp hu
    change s.published <+: v.published
    unfold JournalState.perform at hperform
    split at hperform
    · cases hperform
      exact List.prefix_refl _
    · split at hperform
      · cases hperform
        exact List.prefix_refl _
      · cases hperform
        exact List.prefix_append ..
    · split at hperform
      · cases hperform
        exact List.prefix_refl _
      · cases hperform
    · cases hperform
  | memory s =>
    obtain ⟨u, hu, rfl⟩ := Option.map_eq_some_iff.mp hstep
    change s.published <+: u.published
    unfold RingJournal.perform at hu
    split at hu
    · cases hu
      exact List.prefix_refl _
    · split at hu
      · cases hu
        exact List.prefix_refl _
      · cases hu
        exact List.prefix_append ..
    · cases hu
      exact List.prefix_refl _
    · cases hu

end LogStore

theorem SubscriberPhase.eq_of_forwarding? {phase : SubscriberPhase} {f : Forwarding}
    (h : phase.forwarding? = some f) : phase = .forwarding f := by
  cases phase with
  | forwarding g => exact congrArg _ (Option.some.inj h)
  | idle => cases h
  | subscribed queue => cases h

namespace Subscriber

variable {format : TimeFormat} {policy : JournalPolicy} {isRun : Bool} {s t : Subscriber}
  {first : ℕ} {f : Forwarding} {store : LogStore}

/-- What the filter still lets through. -/
def Forwarding.isNew (f : Forwarding) (line : LogLine) : Bool :=
  max f.highWatermark f.lastSequence < line.sequence

/-- What holds of a client that goes by the numbers from `first` on. -/
structure ForwardingOk (first : ℕ) (published : List LogLine) (f : Forwarding) : Prop where
  boundary : f.boundary ≤ published.length
  pageAscending : f.page.Pairwise fun a b => a.sequence < b.sequence
  pageBefore : ∀ line ∈ f.page, line.sequence < first + f.boundary
  retained : ∃ expired kept, published.take f.boundary = expired ++ kept ∧
    f.page = f.query.lastLines (kept.filter f.query.selects)
  bound : max f.highWatermark f.lastSequence < first + published.length
  queueAscending : f.queue.Pairwise fun a b => a.sequence < b.sequence
  queueBefore : ∀ line ∈ f.queue, line.sequence < first + published.length
  queuePositive : ∀ line ∈ f.queue, 0 < line.sequence
  balance : f.received ++ f.toSend ++ f.queue.filter (Forwarding.isNew f) =
    f.page ++ published.drop f.boundary

def PhaseOk (first : ℕ) (published : List LogLine) : SubscriberPhase → Prop
  | .idle => True
  | .subscribed queue => queue.Pairwise (fun a b => a.sequence < b.sequence) ∧
      (∀ line ∈ queue, line.sequence < first + published.length) ∧
      ∀ line ∈ queue, 0 < line.sequence
  | .forwarding f => ForwardingOk first published f

structure Sound (format : TimeFormat) (first : ℕ) (s : Subscriber) : Prop where
  store : s.store.SoundFrom format first
  /-- The number of the next line. -/
  positive : 0 < first + s.store.published.length
  phase : s.lagged = false → PhaseOk first s.store.published s.phase

theorem pairwise_append_of_bound {lines more : List LogLine} {bound : ℕ}
    (h : lines.Pairwise fun a b => a.sequence < b.sequence)
    (hmore : more.Pairwise fun a b => a.sequence < b.sequence)
    (hle : ∀ line ∈ lines, line.sequence < bound) (hge : ∀ line ∈ more, bound ≤ line.sequence) :
    (lines ++ more).Pairwise fun a b => a.sequence < b.sequence :=
  List.pairwise_append.mpr ⟨h, hmore, fun a ha b hb => Nat.lt_of_lt_of_le (hle a ha) (hge b hb)⟩

theorem numbered_drop {published : List LogLine} (h : NumberedFrom first published) {n : ℕ}
    (hn : n ≤ published.length) : NumberedFrom (first + n) (published.drop n) := by
  rw [← List.take_append_drop n published] at h
  have hdrop := (NumberedFrom.append_iff.mp h).2
  rwa [List.length_take, Nat.min_eq_left hn] at hdrop

theorem ForwardingOk.exactlyOnce (h : ForwardingOk first s.store.published f)
    (hnumbered : NumberedFrom first s.store.published) : s.ExactlyOnce f where
  ascending := by
    have hdrop := numbered_drop hnumbered h.boundary
    exact pairwise_append_of_bound h.pageAscending (NumberedFrom.ascending hdrop) h.pageBefore
      fun line hline => (NumberedFrom.mem hdrop hline).1
  retained := h.retained
  inOrder := ⟨f.toSend ++ f.queue.filter (Forwarding.isNew f), by
    rw [← List.append_assoc]
    exact h.balance⟩
  complete hsent hqueue := by
    have hbalance := h.balance
    rw [hsent, hqueue, List.append_nil, List.filter_nil, List.append_nil] at hbalance
    exact hbalance

/-- New lines are let through. -/
theorem ForwardingOk.broadcast {published more : List LogLine} (h : ForwardingOk first published f)
    (hnumbered : NumberedFrom first (published ++ more)) (hpos : 0 < first + published.length) :
    ForwardingOk first (published ++ more) { f with queue := f.queue ++ more } := by
  have hmore := (NumberedFrom.append_iff.mp hnumbered).2
  have hge (line : LogLine) (hline : line ∈ more) : first + published.length ≤ line.sequence :=
    (NumberedFrom.mem hmore hline).1
  have hlt (line : LogLine) (hline : line ∈ more) :
      line.sequence < first + (published ++ more).length := by
    have hbelow := (NumberedFrom.mem hmore hline).2
    rw [List.length_append]
    omega
  have hlonger : first + published.length ≤ first + (published ++ more).length := by
    rw [List.length_append]
    omega
  refine ⟨?_, h.pageAscending, h.pageBefore, ?_, ?_, ?_, ?_, ?_, ?_⟩
  · rw [List.length_append]
    exact Nat.le_add_right_of_le h.boundary
  · change ∃ expired kept, (published ++ more).take f.boundary = expired ++ kept ∧ _
    rw [List.take_append_of_le_length h.boundary]
    exact h.retained
  · exact Nat.lt_of_lt_of_le h.bound hlonger
  · exact pairwise_append_of_bound h.queueAscending (NumberedFrom.ascending hmore) h.queueBefore hge
  · intro line hline
    rcases List.mem_append.mp hline with hold | hnew
    · exact Nat.lt_of_lt_of_le (h.queueBefore line hold) hlonger
    · exact hlt line hnew
  · intro line hline
    rcases List.mem_append.mp hline with hold | hnew
    · exact h.queuePositive line hold
    · exact Nat.lt_of_lt_of_le hpos (hge line hnew)
  · have hall : more.filter (Forwarding.isNew f) = more := by
      rw [List.filter_eq_self]
      intro line hline
      exact decide_eq_true (Nat.lt_of_lt_of_le h.bound (hge line hline))
    change f.received ++ f.toSend ++ (f.queue ++ more).filter (Forwarding.isNew f) =
      f.page ++ (published ++ more).drop f.boundary
    rw [List.filter_append, hall, ← List.append_assoc, h.balance,
      List.drop_append_of_le_length h.boundary, List.append_assoc]

/-- The filter removes the lines that the page has had. -/
theorem ForwardingOk.next {published : List LogLine} {g : Forwarding}
    (h : ForwardingOk first published f) (hnext : f.next = some g) : ForwardingOk first published g := by
  have hascending := h.queueAscending
  have hpos := h.queuePositive
  have hbalance := h.balance
  unfold Forwarding.next at hnext
  split at hnext
  · rename_i line toSend hsend
    cases hnext
    refine { h with balance := ?_ }
    rw [hsend] at hbalance
    change (f.received ++ [line]) ++ toSend ++ f.queue.filter (Forwarding.isNew f) = _
    rw [List.append_assoc f.received]
    exact hbalance
  · rename_i line queue hsend hqueue
    rw [hqueue] at hascending hbalance hpos
    obtain ⟨hbehind, hrest⟩ := List.pairwise_cons.mp hascending
    have hbefore (other : LogLine) (hother : other ∈ queue) :
        other.sequence < first + published.length :=
      h.queueBefore other (hqueue ▸ List.mem_cons_of_mem _ hother)
    have hpositive (other : LogLine) (hother : other ∈ queue) : 0 < other.sequence :=
      hpos other (List.mem_cons_of_mem _ hother)
    split at hnext
    · rename_i hold
      cases hnext
      refine { h with
        queueAscending := hrest, queueBefore := hbefore, queuePositive := hpositive, balance := ?_ }
      have hnot : Forwarding.isNew f line = false := by
        refine decide_eq_false ?_
        omega
      rw [List.filter_cons_of_neg (by rw [hnot]; exact Bool.false_ne_true)] at hbalance
      exact hbalance
    · rename_i hnew
      cases hnext
      have hline := hpos line List.mem_cons_self
      have hyes : Forwarding.isNew f line = true := by
        refine decide_eq_true ?_
        omega
      refine { h with
        bound := ?_, queueAscending := hrest, queueBefore := hbefore, queuePositive := hpositive
        balance := ?_ }
      · have hlt := h.queueBefore line (hqueue ▸ List.mem_cons_self)
        change max f.highWatermark (max f.lastSequence line.sequence) < _
        omega
      · have hsame : queue.filter (Forwarding.isNew { f with
            queue, received := f.received ++ [line],
            lastSequence := max f.lastSequence line.sequence }) =
            queue.filter (Forwarding.isNew f) := by
          refine List.filter_congr fun other hother => ?_
          have hlt := hbehind other hother
          refine decide_eq_decide.mpr ?_
          change max f.highWatermark (max f.lastSequence line.sequence) < other.sequence ↔ _
          omega
        rw [List.filter_cons_of_pos hyes] at hbalance
        change (f.received ++ [line]) ++ f.toSend ++ queue.filter (Forwarding.isNew _) = _
        rw [hsame, ← hbalance, hsend, List.append_nil, List.append_nil, List.append_assoc]
        rfl
  · cases hnext

/-- A client begins with a page; what it has subscribed to before is in the page. -/
theorem start_ok (h : s.store.SoundFrom format first) {m : JournalManifest}
    (hm : s.store.manifest = some m) (query : TailQuery) {queue : List LogLine}
    (hqueue : queue.Pairwise fun a b => a.sequence < b.sequence)
    (hbefore : ∀ line ∈ queue, line.sequence < first + s.store.published.length)
    (hpos : ∀ line ∈ queue, 0 < line.sequence) :
    ForwardingOk first s.store.published (s.start format m query queue) := by
  obtain ⟨hwatermark, expired, kept, hsplit, hlines⟩ := @LogStore.SoundFrom.tail _ _ _ _ query h hm
  have hhigh := h.highWatermark hm
  have hnumbered := h.numbered
  have hsub : ((s.store.tail format m query).lines).Sublist s.store.published := by
    rw [hlines, hsplit]
    have hselected : (kept.filter query.selects).Sublist kept := List.filter_sublist
    refine List.Sublist.trans ?_ (hselected.trans (List.sublist_append_right expired kept))
    unfold TailQuery.lastLines
    split
    · exact List.drop_sublist ..
    · exact List.Sublist.refl _
  have hbelow (line : LogLine) (hline : line ∈ (s.store.tail format m query).lines) :
      line.sequence < first + s.store.published.length :=
    (hnumbered.mem (hsub.subset hline)).2
  have hlast : ((s.store.tail format m query).lines.getLast?.map LogLine.sequence).getD 0 ≤
      m.highWatermark := by
    cases hfound : (s.store.tail format m query).lines.getLast? with
    | none => exact Nat.zero_le _
    | some line =>
      have hlt := hbelow line (List.mem_of_getLast? hfound)
      change line.sequence ≤ m.highWatermark
      omega
  have hbound : max (s.store.tail format m query).highWatermark
      (((s.store.tail format m query).lines.getLast?.map LogLine.sequence).getD 0) =
      m.highWatermark := by
    rw [hwatermark]
    exact Nat.max_eq_left hlast
  refine ⟨Nat.le_refl _, (NumberedFrom.ascending hnumbered).sublist hsub, hbelow, ?_, ?_, hqueue,
    hbefore, hpos, ?_⟩
  · refine ⟨expired, kept, ?_, hlines⟩
    change s.store.published.take s.store.published.length = _
    rw [List.take_length, hsplit]
  · refine lt_of_eq_of_lt hbound ?_
    omega
  · have hnone : queue.filter (Forwarding.isNew (s.start format m query queue)) = [] := by
      rw [List.filter_eq_nil_iff]
      intro line hline
      have hlt := hbefore line hline
      rw [Bool.not_eq_true]
      refine decide_eq_false ?_
      change ¬max (s.store.tail format m query).highWatermark
        (((s.store.tail format m query).lines.getLast?.map LogLine.sequence).getD 0) < line.sequence
      omega
    change [] ++ (s.store.tail format m query).lines ++ queue.filter _ =
      (s.store.tail format m query).lines ++ s.store.published.drop s.store.published.length
    rw [hnone, List.drop_length]
    rfl

/-- The number of the next line stays positive. -/
theorem positive_step {e : JournalEvent} (h : s.store.SoundFrom format first)
    (hpos : 0 < first + s.store.published.length)
    (hstep : s.store.step format policy isRun e = some store) :
    0 < first + store.published.length := by
  cases hstore : s.store with
  | durable u =>
    rw [hstore] at hstep hpos
    cases e with
    | call call =>
      have hlonger := (LogStore.published_prefix hstep).length_le
      omega
    | crash call write =>
      obtain ⟨v, hv, rfl⟩ := Option.map_eq_some_iff.mp hstep
      obtain ⟨⟨w, v'⟩, -, hcrash⟩ := Option.bind_eq_some_iff.mp hv
      obtain ⟨disk, -, rfl⟩ := Option.map_eq_some_iff.mp hcrash
      exact hpos
    | exit =>
      obtain rfl := Option.some.inj hstep
      exact hpos
  | memory u =>
    rw [hstore] at h
    obtain ⟨-, rfl⟩ := h
    exact Nat.lt_of_lt_of_le Nat.one_pos (Nat.le_add_right ..)

/-- What a call publishes reaches every client that has subscribed. -/
theorem PhaseOk.broadcast {published more : List LogLine} {phase : SubscriberPhase}
    (h : PhaseOk first published phase) (hnumbered : NumberedFrom first (published ++ more))
    (hpos : 0 < first + published.length) :
    PhaseOk first (published ++ more) (phase.broadcast more) := by
  cases phase with
  | idle => exact trivial
  | forwarding f => exact ForwardingOk.broadcast h hnumbered hpos
  | subscribed queue =>
    obtain ⟨hascending, hbefore, hpositive⟩ := h
    have hmore := (NumberedFrom.append_iff.mp hnumbered).2
    have hge (line : LogLine) (hline : line ∈ more) : first + published.length ≤ line.sequence :=
      (NumberedFrom.mem hmore hline).1
    refine ⟨pairwise_append_of_bound hascending (NumberedFrom.ascending hmore) hbefore hge, ?_, ?_⟩
    · intro line hline
      rw [List.length_append]
      rcases List.mem_append.mp hline with hold | hnew
      · have hlt := hbefore line hold
        omega
      · have hlt := (NumberedFrom.mem hmore hnew).2
        omega
    · intro line hline
      rcases List.mem_append.mp hline with hold | hnew
      · exact hpositive line hold
      · exact Nat.lt_of_lt_of_le hpos (hge line hnew)

theorem Sound.begin (h : s.Sound format first) {m : JournalManifest}
    (hm : s.store.manifest = some m) (query : TailQuery) {queue : List LogLine}
    (hqueue : s.lagged = false → PhaseOk first s.store.published (.subscribed queue)) :
    Sound format first { s with phase := .forwarding (s.start format m query queue) } := by
  refine ⟨h.store, h.positive, fun hlagged => ?_⟩
  obtain ⟨hascending, hbefore, hpositive⟩ := hqueue hlagged
  exact start_ok h.store hm query hascending hbefore hpositive

theorem Sound.step {e : SubscriberEvent} (h : s.Sound format first)
    (hfits : s.Fits format policy isRun e)
    (hstep : (machine format policy isRun).step s e = some t) : t.Sound format first := by
  cases e with
  | journal e =>
    obtain ⟨store, hstore, rfl⟩ := Option.map_eq_some_iff.mp hstep
    have hsound := h.store.step hfits hstore
    have hpos := positive_step h.store h.positive hstore
    cases e with
    | call call =>
      obtain ⟨more, hmore⟩ := LogStore.published_prefix hstore
      have hdrop : store.published.drop s.store.published.length = more := by
        rw [← hmore]
        exact List.drop_left
      refine ⟨hsound, hpos, fun hlagged => ?_⟩
      have hnumbered := hsound.numbered
      change PhaseOk first store.published (s.phase.broadcast (store.published.drop _))
      rw [hdrop]
      rw [← hmore] at hnumbered ⊢
      exact (h.phase hlagged).broadcast hnumbered h.positive
    | crash call write => exact ⟨hsound, hpos, fun _ => trivial⟩
    | exit => exact ⟨hsound, hpos, fun _ => trivial⟩
  | subscribe =>
    simp only [machine, Subscriber.step] at hstep
    split at hstep
    · obtain rfl := Option.some.inj hstep
      refine ⟨h.store, h.positive, fun _ => ⟨List.Pairwise.nil, ?_, ?_⟩⟩
      · exact fun line hline => absurd hline List.not_mem_nil
      · exact fun line hline => absurd hline List.not_mem_nil
    · cases hstep
  | readTail query =>
    simp only [machine, Subscriber.step] at hstep
    split at hstep
    · rename_i queue m hphase hm
      obtain rfl := Option.some.inj hstep
      refine h.begin hm query fun hlagged => ?_
      have hsubscribed := h.phase hlagged
      rw [hphase] at hsubscribed
      exact hsubscribed
    · cases hstep
  | subscribeTail query =>
    simp only [machine, Subscriber.step] at hstep
    split at hstep
    · rename_i m hphase hm
      obtain rfl := Option.some.inj hstep
      refine h.begin hm query fun _ => ⟨List.Pairwise.nil, ?_, ?_⟩
      · exact fun line hline => absurd hline List.not_mem_nil
      · exact fun line hline => absurd hline List.not_mem_nil
    · cases hstep
  | lag count =>
    -- from here on the claim is silent until the client connects again
    simp only [machine, Subscriber.step] at hstep
    split at hstep
    · cases hstep
    · obtain rfl := Option.some.inj hstep
      exact ⟨h.store, h.positive, nofun⟩
    · obtain rfl := Option.some.inj hstep
      exact ⟨h.store, h.positive, nofun⟩
  | forward =>
    simp only [machine, Subscriber.step] at hstep
    split at hstep
    · rename_i f hphase
      obtain ⟨g, hg, rfl⟩ := Option.map_eq_some_iff.mp hstep
      refine ⟨h.store, h.positive, fun hlagged => ?_⟩
      have hforwarding := h.phase hlagged
      rw [hphase] at hforwarding
      exact ForwardingOk.next hforwarding hg
    · cases hstep
  | close =>
    obtain rfl := Option.some.inj hstep
    exact ⟨h.store, h.positive, fun _ => trivial⟩

theorem Sound.deliversOnce (h : s.Sound format first) : s.DeliversOnce := by
  intro hlagged f hphase
  have hforwarding := h.phase hlagged
  rw [hphase] at hforwarding
  exact ForwardingOk.exactlyOnce hforwarding h.store.numbered

/-- In any order of calls, crashes and clients, a client receives the lines of its page and those
that are published later, each once and in order. -/
theorem run_deliversOnce {store : LogStore} (hs : store.Started format)
    (h : (machine format policy isRun).Run (Fits format policy isRun) { store } t) :
    t.DeliversOnce := by
  obtain ⟨first, hfirst, hpos⟩ := hs.soundFrom
  have hstart : Sound format first { store } := ⟨hfirst, hpos, fun _ => trivial⟩
  exact (h.invariant (fun _ _ _ hu hfits hstep => hu.step hfits hstep) hstart).deliversOnce

open JournalState (epochFormat lineByLine textLine)

/-- A line that has been published between the subscription and the page is sent once. -/
theorem overlap_deliversOnce : ∃ t f,
    (machine epochFormat lineByLine false).Run (Fits epochFormat lineByLine false)
      { store := .durable ⟨{}, none, [], false⟩ } t ∧ t.phase = .forwarding f ∧
    f.received.map LogLine.sequence = [1, 2, 3] ∧ t.DeliversOnce := by
  obtain ⟨t, hrun, hp⟩ := Machine.exists_run_of_execUnder
    (M := machine epochFormat lineByLine false) (C := Fits epochFormat lineByLine false)
    (s := { store := .durable ⟨{}, none, [], false⟩ })
    (fun t => ∃ f ∈ t.phase.forwarding?, f.received.map LogLine.sequence = [1, 2, 3])
    [.journal (.call (.initializeJournal 0 0)), .journal (.call (.publish (textLine "a") 0 0)),
      .subscribe, .journal (.call (.publish (textLine "b") 0 0)), .readTail {},
      .journal (.call (.publish (textLine "c") 0 0)), .forward, .forward, .forward, .forward]
    (by decide +kernel)
  obtain ⟨f, hf, hreceived⟩ := of_decide_eq_true hp
  have hstarted : LogStore.Started epochFormat (.durable ⟨{}, none, [], false⟩) :=
    JournalState.started_empty
  exact ⟨t, f, hrun, SubscriberPhase.eq_of_forwarding? hf, hreceived,
    run_deliversOnce hstarted hrun⟩

/-- After a crash in a rollover the page itself has a line twice. -/
theorem repeatedPage_deliversTwice : ∃ t,
    (machine epochFormat lineByLine false).Reaches
      { store := .durable ⟨{}, none, [], false⟩ } t ∧ ¬t.DeliversOnce := by
  obtain ⟨t, hreaches, hp⟩ := Machine.exists_reaches_of_exec
    (M := machine epochFormat lineByLine false)
    (s := { store := .durable ⟨{}, none, [], false⟩ })
    (fun t => t.lagged = false ∧ ∃ f ∈ t.phase.forwarding?,
      f.received.map LogLine.sequence = [2, 2, 3])
    [.journal (.call (.initializeJournal 0 0)), .journal (.call (.publish (textLine "a") 0 0)),
      .journal (.crash (.publish (textLine "b") 0 0) 3), .journal (.call (.initializeJournal 0 0)),
      .journal (.call (.publish (textLine "b") 0 0)), .journal (.call (.publish (textLine "c") 0 0)),
      .subscribeTail {}, .forward, .forward, .forward]
    (by decide +kernel)
  obtain ⟨hlagged, f, hf, hreceived⟩ := of_decide_eq_true hp
  refine ⟨t, hreaches, fun hdelivers => ?_⟩
  obtain ⟨hascending, -, hinOrder, -⟩ := hdelivers hlagged f (SubscriberPhase.eq_of_forwarding? hf)
  have hreceivedAscending := hascending.sublist hinOrder.sublist
  have hnumbers : ([2, 2, 3] : List ℕ).Pairwise (· < ·) := by
    rw [← hreceived, List.pairwise_map]
    exact hreceivedAscending
  exact absurd hnumbers (by decide)

end Subscriber

end Supervisor
