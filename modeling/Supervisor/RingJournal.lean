import Supervisor.JournalRun

namespace Supervisor

/-- `RING_CAPACITY` -/
def ringCapacity : ℕ := 10000

/-- `JournalState::push` -/
def pushRing (buffer : List LogLine) (line : LogLine) : List LogLine :=
  (if buffer.length = ringCapacity then buffer.drop 1 else buffer) ++ [line]

/-- A journal without files, and all lines that have been published to it. -/
structure RingJournal where
  buffer : List LogLine := []
  memory : Option JournalManifest := none
  published : List LogLine := []

namespace RingJournal

def perform (s : RingJournal) (call : JournalCall) : Option RingJournal :=
  match call, s.memory with
  | .initializeJournal repairedAt _, none =>
    some { s with memory := some (.empty repairedAt) }
  | .publish line _ _, some m =>
    if m.sealed then some s
    else
      let line := { line with sequence := m.nextSequence }
      some {
        buffer := pushRing s.buffer line
        memory := some { m with
          highWatermark := line.sequence, nextSequence := satAddU64 line.sequence 1 }
        published := s.published ++ [line] }
  | .sealRun _, some m => some { s with memory := some { m with sealed := true } }
  | _, _ => none

end RingJournal

/-- What a log sink keeps of one source. -/
inductive LogStore where
  | durable (s : JournalState)
  | memory (s : RingJournal)

namespace LogStore

variable (format : TimeFormat) (policy : JournalPolicy) (isRun : Bool)

def step : LogStore → JournalEvent → Option LogStore
  | .durable s, e => (s.step format policy isRun e).map .durable
  | .memory s, .call call => (s.perform call).map .memory
  | .memory _, .exit => some (.memory {})
  | .memory _, .crash _ _ => none

def machine : Machine LogStore JournalEvent where
  step := step format policy isRun

def manifest : LogStore → Option JournalManifest
  | .durable s => s.memory
  | .memory s => s.memory

/-- All lines that have been published. -/
def published : LogStore → List LogLine
  | .durable s => s.published
  | .memory s => s.published

/-- The page of `tail_from`, when the journal is initialized -/
def tail (m : JournalManifest) (query : TailQuery) : LogStore → LogTail
  | .durable s => tailFrom format s.disk m query
  | .memory s => snapshot s.buffer query m.highWatermark m.earliestRetainedSequence

/-- Either all later lines are returned or the cursor is reported as expired. -/
def CompleteAfter (s : LogStore) (cursor : ℕ) : Prop :=
  ∀ m ∈ s.manifest, (s.tail format m { afterSequence := some cursor }).cursorExpired = true ∨
    ∀ line ∈ s.published, cursor < line.sequence →
      line ∈ (s.tail format m { afterSequence := some cursor }).lines

/-- The files still have a line, or none has come after the cursor; the ring still has the line
after the cursor. -/
def RetainsAfter (cursor : ℕ) : LogStore → Prop
  | .durable s => ∀ m ∈ s.memory, (m.sealedSegments ≠ [] ∨ s.disk.readActive format ≠ .ok []) ∨
      ∀ line ∈ s.published, line.sequence ≤ cursor
  | .memory s => s.published.length ≤ ringCapacity + cursor

/-- The calls lose no line, and the numbers do not reach their limit. -/
def Fits : LogStore → JournalEvent → Prop
  | .durable s, e => s.Fits format policy isRun e
  | .memory s, .call (.publish _ _ _) => ∀ m ∈ s.memory, m.nextSequence + 1 < 2^64
  | .memory _, _ => True

instance (s : LogStore) (e : JournalEvent) : Decidable (s.Fits format policy isRun e) := by
  cases s with
  | durable s => exact inferInstanceAs (Decidable (s.Fits format policy isRun e))
  | memory s =>
    match e with
    | .call (.publish _ _ _) =>
      exact inferInstanceAs (Decidable (∀ m ∈ s.memory, m.nextSequence + 1 < 2^64))
    | .call (.initializeJournal _ _) | .call (.sealRun _) | .crash _ _ | .exit => exact isTrue trivial

/-- A journal whose files an older version has left, or one without files. -/
def Started : LogStore → Prop
  | .durable s => s.Started format
  | .memory s => s.buffer = [] ∧ s.memory = none ∧ s.published = []

end LogStore

section Ring

variable {buffer published : List LogLine} {line : LogLine}

theorem drop_concat (n : ℕ) (hn : n ≤ published.length) :
    (published ++ [line]).drop n = published.drop n ++ [line] :=
  List.drop_append_of_le_length hn

/-- The ring has the last lines. -/
theorem pushRing_eq (h : buffer = published.drop (published.length - ringCapacity)) :
    pushRing buffer line =
      (published ++ [line]).drop ((published ++ [line]).length - ringCapacity) := by
  unfold pushRing
  rw [List.length_append, List.length_singleton]
  by_cases hfull : ringCapacity ≤ published.length
  · have hlength : buffer.length = ringCapacity := by
      rw [h, List.length_drop]
      omega
    have hone : published.length + 1 - ringCapacity = published.length - ringCapacity + 1 := by omega
    rw [if_pos hlength, h, List.drop_drop, hone, drop_concat]
    unfold ringCapacity at *
    omega
  · have hlength : buffer.length ≠ ringCapacity := by
      rw [h, List.length_drop]
      omega
    have hzero : published.length - ringCapacity = 0 := by omega
    have hzero' : published.length + 1 - ringCapacity = 0 := by omega
    rw [if_neg hlength, h, hzero, hzero', List.drop_zero, List.drop_zero]

end Ring

namespace RingJournal

/-- What holds of a journal without files. -/
structure Sound (s : RingJournal) : Prop where
  numbered : NumberedFrom 1 s.published
  small : s.published.length + 1 < 2^64
  buffer : s.buffer = s.published.drop (s.published.length - ringCapacity)
  empty : s.memory = none → s.published = []
  manifest : ∀ m ∈ s.memory, m.nextSequence = s.published.length + 1 ∧
    m.highWatermark = s.published.length ∧ m.activeStartSequence = 1 ∧ m.sealedSegments = []

variable {s t : RingJournal}

theorem sound_empty : ({} : RingJournal).Sound where
  numbered := rfl
  small := by decide
  buffer := rfl
  empty _ := rfl
  manifest _ hm := absurd hm (Option.not_mem_none _)

theorem Sound.perform {call : JournalCall} (h : s.Sound)
    (hfits : ∀ line checkedAt rolledAt, call = .publish line checkedAt rolledAt →
      ∀ m ∈ s.memory, m.nextSequence + 1 < 2^64)
    (hperform : s.perform call = some t) : t.Sound := by
  cases call with
  | initializeJournal repairedAt retainedAt =>
    cases hmemory : s.memory with
    | some m => simp [RingJournal.perform, hmemory] at hperform
    | none =>
      simp only [RingJournal.perform, hmemory, Option.some.injEq] at hperform
      obtain rfl := hperform
      have hnone := h.empty hmemory
      refine ⟨h.numbered, h.small, h.buffer, fun _ => hnone, ?_⟩
      intro m hm
      obtain rfl := Option.some.inj hm
      change 1 = s.published.length + 1 ∧ 0 = s.published.length ∧ _
      rw [hnone]
      exact ⟨rfl, rfl, rfl, rfl⟩
  | publish line checkedAt rolledAt =>
    cases hmemory : s.memory with
    | none => simp [RingJournal.perform, hmemory] at hperform
    | some m =>
      simp only [RingJournal.perform, hmemory] at hperform
      split at hperform
      · obtain rfl := Option.some.inj hperform
        exact h
      · obtain rfl := Option.some.inj hperform
        have hsmall := hfits line checkedAt rolledAt rfl m hmemory
        obtain ⟨hnext, -, hstart, hsegments⟩ := h.manifest m hmemory
        have hnumbered : NumberedFrom 1 (s.published ++ [{ line with sequence := m.nextSequence }]) :=
          h.numbered.concat (hnext.trans (Nat.add_comm _ _))
        refine ⟨hnumbered, ?_, pushRing_eq h.buffer, nofun, ?_⟩
        · rw [List.length_append, List.length_singleton]
          omega
        · intro m' hm'
          obtain rfl := Option.some.inj hm'
          rw [List.length_append, List.length_singleton]
          refine ⟨?_, hnext, hstart, hsegments⟩
          change satAddU64 m.nextSequence 1 = _
          rw [satAddU64_one hsmall, hnext]
  | sealRun now =>
    cases hmemory : s.memory with
    | none => simp [RingJournal.perform, hmemory] at hperform
    | some m =>
      simp only [RingJournal.perform, hmemory, Option.some.injEq] at hperform
      obtain rfl := hperform
      refine ⟨h.numbered, h.small, h.buffer, nofun, ?_⟩
      intro m' hm'
      obtain rfl := Option.some.inj hm'
      exact h.manifest m hmemory

end RingJournal

namespace LogStore

variable {format : TimeFormat} {policy : JournalPolicy} {isRun : Bool} {s t : LogStore}

/-- What holds of either store. -/
def Sound (format : TimeFormat) : LogStore → Prop
  | .durable s => ∃ first, s.Kept format first
  | .memory s => s.Sound

theorem Started.sound (h : s.Started format) : s.Sound format := by
  cases s with
  | durable s =>
    have hstarted : s.Started format := h
    exact ⟨_, hstarted.kept⟩
  | memory s =>
    obtain ⟨buffer, memory, published⟩ := s
    obtain ⟨rfl, rfl, rfl⟩ := h
    exact RingJournal.sound_empty

theorem Sound.step {e : JournalEvent} (h : s.Sound format) (hfits : s.Fits format policy isRun e)
    (hstep : (machine format policy isRun).step s e = some t) : t.Sound format := by
  cases s with
  | durable s =>
    obtain ⟨first, hkept⟩ := h
    obtain ⟨u, hu, rfl⟩ := Option.map_eq_some_iff.mp hstep
    exact ⟨first, JournalState.step_kept hkept hfits hu⟩
  | memory s =>
    have hsound : s.Sound := h
    cases e with
    | call call =>
      obtain ⟨u, hu, rfl⟩ := Option.map_eq_some_iff.mp hstep
      refine hsound.perform (fun line checkedAt rolledAt hcall => ?_) hu
      rw [hcall] at hfits
      exact hfits
    | exit =>
      obtain rfl := Option.some.inj hstep
      exact RingJournal.sound_empty
    | crash call write => cases hstep

theorem run_sound (hs : s.Started format)
    (h : (machine format policy isRun).Run (Fits format policy isRun) s t) : t.Sound format :=
  h.invariant (fun _ _ _ hu hfits hstep => hu.step hfits hstep) hs.sound

end LogStore

end Supervisor
