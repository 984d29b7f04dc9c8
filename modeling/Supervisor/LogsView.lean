import Mathlib.Data.List.Range
import Supervisor.PrefixRuns

namespace Supervisor

/-- The request `processLogsTail`: not answered yet, on the way back, shown, or failed -/
inductive SeedResponse where
  | requested
  | answered (lines : List ℕ)
  | shown (lines : List ℕ)
  | failed

def tailLineCount : ℕ := 200

def maxBufferedLines : ℕ := 1000

/-- The view of the lines of one process, its two requests and the server. A line is its sequence.
`live` are the lines received live, the first `beforeSeed` of them before the seed was shown, and
`paused` tells whether following was ever paused. -/
structure LogsView where
  published : ℕ := 0
  seed : SeedResponse := .requested
  receiver : Option (List ℕ) := none
  /-- The high watermark of the page, and `last_sequence` -/
  page : Option (ℕ × ℕ) := none
  frames : List ℕ := []
  logs : List ℕ := []
  isFollowing : Bool := true
  live : List ℕ := []
  beforeSeed : ℕ := 0
  paused : Bool := false

inductive LogsViewEvent where
  | publish
  | answerSeed
  | showSeed
  | failSeed
  | subscribe
  | takePage
  /-- The loop of `forward_logs` receives a line. -/
  | forward
  | lag (count : ℕ)
  | onLine
  | setFollowing (following : Bool)

namespace LogsView

/-- The last lines -/
def tail (published limit : ℕ) : List ℕ := (List.range' 1 published).drop (published - limit)

/-- `setLogs` of a live line -/
def appendLine (previous : List ℕ) (line : ℕ) : List ℕ :=
  let next := previous ++ [line]
  if maxBufferedLines < next.length then next.drop (next.length - maxBufferedLines) else next

def seedLines (s : LogsView) : List ℕ :=
  match s.seed with
  | .shown lines => lines
  | _ => []

def before (s : LogsView) : List ℕ := s.live.take s.beforeSeed

def after (s : LogsView) : List ℕ := s.live.drop s.beforeSeed

/-- An event that cannot happen changes nothing. -/
def step (s : LogsView) : LogsViewEvent → LogsView
  | .publish =>
    { s with
      published := s.published + 1
      receiver := s.receiver.map fun lines => lines ++ [s.published + 1] }
  | .answerSeed =>
    match s.seed with
    | .requested => { s with seed := .answered (tail s.published tailLineCount) }
    | _ => s
  | .showSeed =>
    match s.seed with
    | .answered lines => { s with seed := .shown lines, logs := lines, beforeSeed := s.live.length }
    | _ => s
  | .failSeed =>
    match s.seed with
    | .shown _ => s
    | _ => { s with seed := .failed }
  | .subscribe => { s with receiver := some (s.receiver.getD []) }
  | .takePage =>
    match s.receiver, s.page with
    | some _, none =>
      let lines := tail s.published 100
      { s with frames := s.frames ++ lines, page := some (s.published, lines.getLastD 0) }
    | _, _ => s
  | .forward =>
    match s.receiver, s.page with
    | some (line :: lines), some (highWatermark, lastSequence) =>
      let s := { s with receiver := some lines }
      if line ≠ 0 ∧ (line ≤ highWatermark ∨ line ≤ lastSequence) then s
      else
        { s with
          frames := s.frames ++ [line], page := some (highWatermark, max lastSequence line) }
    | _, _ => s
  | .lag count => { s with receiver := s.receiver.map (List.drop count) }
  | .onLine =>
    match s.frames with
    | [] => s
    | line :: frames =>
      { s with
        frames
        live := s.live ++ [line]
        logs := if s.isFollowing then appendLine s.logs line else s.logs }
  | .setFollowing following =>
    { s with isFollowing := following, paused := s.paused || !following }

def run (es : List LogsViewEvent) : LogsView := es.foldl step {}

def lineCount (s : LogsView) : ℕ := s.seedLines.length + s.live.length

/-- Every line of the seed and every live line once, in the order of their publication -/
def ShowsOnce (s : LogsView) : Prop :=
  s.paused = false → s.lineCount < maxBufferedLines →
    s.logs.Pairwise (· < ·) ∧ ∀ line, line ∈ s.logs ↔ line ∈ s.seedLines ∨ line ∈ s.live

/-- The seed has the lines that were received before it, and the lines after it are newer. -/
def SeedFits (s : LogsView) : Prop :=
  ∀ lines, s.seed = .shown lines →
    (∀ line ∈ s.before, line ∈ lines) ∧ ∀ line ∈ lines, ∀ live ∈ s.after, line < live

def rendered (s : LogsView) : List ℕ :=
  match s.seed with
  | .shown lines => lines ++ s.after
  | _ => s.live

/-- What the interleaving keeps -/
structure Tracked (s : LogsView) : Prop where
  ascending : (s.live ++ s.frames).Pairwise (· < ·)
  behind : ∀ line ∈ s.live ++ s.frames, ∃ page, s.page = some page ∧ line ≤ max page.1 page.2
  numbered : ∀ lines, s.receiver = some lines → ∀ line ∈ lines, line ≠ 0
  seeded : ∀ lines, s.seed = .answered lines ∨ s.seed = .shown lines → lines.Pairwise (· < ·)
  counted : s.beforeSeed ≤ s.live.length
  following : s.isFollowing = false → s.paused = true
  shown : s.paused = false → s.lineCount < maxBufferedLines → s.logs = s.rendered

variable {s : LogsView}

theorem tail_ascending (published limit : ℕ) : (tail published limit).Pairwise (· < ·) :=
  (List.pairwise_lt_range' (s := 1)).sublist (List.drop_sublist _ _)

theorem le_of_mem_tail {published limit line : ℕ} (h : line ∈ tail published limit) :
    line ≤ published := by
  have hrange := List.mem_range'_1.mp ((List.drop_sublist _ _).subset h)
  omega

theorem ascending_append {xs ys : List ℕ} (hxs : xs.Pairwise (· < ·)) (hys : ys.Pairwise (· < ·))
    (hnewer : ∀ x ∈ xs, ∀ y ∈ ys, x < y) : (xs ++ ys).Pairwise (· < ·) :=
  List.pairwise_append.mpr ⟨hxs, hys, hnewer⟩

theorem appendLine_eq {logs : List ℕ} (line : ℕ) (h : logs.length < maxBufferedLines) :
    appendLine logs line = logs ++ [line] := by
  unfold appendLine
  apply if_neg
  rw [List.length_append, List.length_singleton]
  omega

theorem live_lt {n : ℕ} (h : s.lineCount < n) : s.live.length < n := (Nat.le_add_left _ _).trans_lt h

theorem Tracked.unseeded (hs : s.Tracked) (hnot : ∀ lines, s.seed ≠ .shown lines)
    (hpaused : s.paused = false) (hless : s.live.length < maxBufferedLines) : s.logs = s.live := by
  have hnone : s.seedLines = [] := by
    unfold seedLines
    split
    · exact absurd ‹_› (hnot _)
    · rfl
  have hlogs := hs.shown hpaused (by
    unfold lineCount
    rwa [hnone, List.length_nil, Nat.zero_add])
  unfold rendered at hlogs
  split at hlogs
  · exact absurd ‹_› (hnot _)
  · exact hlogs

theorem Tracked.forward (hs : s.Tracked) : (s.step .forward).Tracked := by
  simp only [step]
  split
  case h_2 => exact hs
  case h_1 line lines highWatermark lastSequence hreceiver hpage =>
    have hrest : ∀ other, some lines = some other → ∀ line ∈ other, line ≠ 0 := by
      intro other hother
      cases hother
      exact fun line hline => hs.numbered _ hreceiver line (List.mem_cons_of_mem _ hline)
    have hnumber := hs.numbered _ hreceiver line List.mem_cons_self
    split
    · exact { hs with numbered := hrest }
    · rename_i hpasses
      have hbound : ∀ old ∈ s.live ++ s.frames, old < line := by
        intro old hold
        obtain ⟨page, hsame, hle⟩ := hs.behind old hold
        rw [hpage] at hsame
        cases hsame
        dsimp only at hle
        omega
      have hframes := List.append_assoc s.live s.frames [line]
      refine { hs with ascending := ?_, behind := ?_, numbered := hrest }
      · refine hframes ▸ ascending_append hs.ascending (List.pairwise_singleton _ _) ?_
        intro old hold new hnew
        rw [List.mem_singleton.mp hnew]
        exact hbound old hold
      · intro new hnew
        refine ⟨_, rfl, ?_⟩
        dsimp only at hnew ⊢
        rw [← hframes] at hnew
        rcases List.mem_append.mp hnew with hold | hsame
        · have hlt := hbound new hold
          omega
        · rw [List.mem_singleton.mp hsame]
          omega

theorem Tracked.takePage (hs : s.Tracked) : (s.step .takePage).Tracked := by
  simp only [step]
  split
  case h_2 => exact hs
  case h_1 lines hreceiver hpage =>
    have hnone : s.live ++ s.frames = [] := by
      apply List.eq_nil_iff_forall_not_mem.mpr
      intro line hline
      obtain ⟨page, hsome, -⟩ := hs.behind line hline
      rw [hpage] at hsome
      cases hsome
    have hframes : s.live ++ (s.frames ++ tail s.published 100) = tail s.published 100 := by
      rw [← List.append_assoc, hnone, List.nil_append]
    refine { hs with ascending := ?_, behind := ?_ }
    · dsimp only
      rw [hframes]
      exact tail_ascending _ _
    · intro line hline
      dsimp only at hline
      rw [hframes] at hline
      exact ⟨_, rfl, (le_of_mem_tail hline).trans (Nat.le_max_left _ _)⟩

/-- A live line is appended, below the limit and as long as the view follows. -/
theorem Tracked.onLine (hs : s.Tracked) : (s.step .onLine).Tracked := by
  simp only [step]
  split
  · exact hs
  · rename_i line frames hframes
    have hmove : s.live ++ [line] ++ frames = s.live ++ s.frames := by
      rw [hframes, List.append_assoc, List.singleton_append]
    refine { hs with ascending := hmove ▸ hs.ascending, behind := hmove ▸ hs.behind
                     counted := ?_, shown := ?_ }
    · dsimp only
      rw [List.length_append]
      exact hs.counted.trans (Nat.le_add_right _ _)
    · intro hpaused hless
      change s.seedLines.length + (s.live ++ [line]).length < maxBufferedLines at hless
      rw [List.length_append, List.length_singleton] at hless
      have hlogs := hs.shown hpaused (by unfold lineCount; omega)
      have hfollowing : s.isFollowing = true := by
        by_contra hnot
        have hever := hs.following (Bool.eq_false_iff.mpr hnot)
        rw [show s.paused = false from hpaused] at hever
        cases hever
      have hlength : s.logs.length < maxBufferedLines := by
        rw [hlogs]
        unfold rendered after
        unfold seedLines at hless
        split at hless
        · rw [List.length_append, List.length_drop]
          omega
        · omega
      dsimp only
      rw [if_pos hfollowing, appendLine_eq line hlength, hlogs]
      unfold rendered after
      dsimp only
      split
      · rw [List.drop_append_of_le_length hs.counted, List.append_assoc]
      · rfl

theorem Tracked.step (hs : s.Tracked) (e : LogsViewEvent) : (s.step e).Tracked := by
  cases e with
  | publish =>
    refine { hs with numbered := ?_ }
    intro lines hlines line hline
    obtain ⟨old, hold, rfl⟩ := Option.map_eq_some_iff.mp hlines
    rcases List.mem_append.mp hline with hline | hline
    · exact hs.numbered old hold line hline
    · rw [List.mem_singleton.mp hline]
      exact Nat.succ_ne_zero _
  | answerSeed =>
    simp only [LogsView.step]
    split
    case h_2 => exact hs
    case h_1 hseed =>
      have hnot (lines : List ℕ) : s.seed ≠ .shown lines := by
        rw [hseed]
        exact fun h => by cases h
      refine { hs with seeded := ?_, shown := fun hpaused hless => ?_ }
      · rintro lines (hlines | hlines)
        · rw [← SeedResponse.answered.inj hlines]
          exact tail_ascending _ _
        · cases hlines
      · have hlive := live_lt hless
        exact hs.unseeded hnot hpaused hlive
  | showSeed =>
    simp only [LogsView.step]
    split
    case h_2 => exact hs
    case h_1 lines hseed =>
      refine { hs with seeded := ?_, counted := le_rfl, shown := ?_ }
      · rintro other (hother | hother)
        · cases hother
        · cases hother
          exact hs.seeded lines (.inl hseed)
      · intro _ _
        change lines = lines ++ s.live.drop s.live.length
        rw [List.drop_length, List.append_nil]
  | failSeed =>
    simp only [LogsView.step]
    split
    case h_1 => exact hs
    case h_2 hnot =>
      refine { hs with seeded := by simp, shown := fun hpaused hless => ?_ }
      have hlive := live_lt hless
      exact hs.unseeded hnot hpaused hlive
  | subscribe =>
    refine { hs with numbered := ?_ }
    intro lines hlines
    cases hlines
    cases hreceiver : s.receiver with
    | none => exact fun _ h => absurd h List.not_mem_nil
    | some lines => exact hs.numbered lines hreceiver
  | takePage => exact hs.takePage
  | forward => exact hs.forward
  | lag count =>
    refine { hs with numbered := ?_ }
    intro lines hlines line hline
    obtain ⟨old, hold, rfl⟩ := Option.map_eq_some_iff.mp hlines
    exact hs.numbered old hold line ((List.drop_sublist _ _).subset hline)
  | onLine => exact hs.onLine
  | setFollowing following =>
    refine { hs with following := ?_, shown := ?_ }
    · intro hnot
      change (s.paused || !following) = true
      rw [show following = false from hnot, Bool.not_false, Bool.or_true]
    · exact fun hpaused => hs.shown (Bool.or_eq_false_iff.mp hpaused).1

theorem run_tracked (es : List LogsViewEvent) : (run es).Tracked := by
  refine PrefixRuns.invariant (I := Tracked) (fun _ e hs => hs.step e) ?_ es
  refine ⟨.nil, fun _ h => absurd h List.not_mem_nil, fun _ h => ?_, fun _ h => ?_, le_rfl,
    fun h => ?_, fun _ _ => rfl⟩
  · cases h
  · rcases h with h | h
    · cases h
    · cases h
  · cases h

end LogsView

end Supervisor
