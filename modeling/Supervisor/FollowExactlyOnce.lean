import Supervisor.LogFollow

namespace Supervisor

namespace Cli

open CursorReading

variable {options : FollowOptions} {owed : LogLine → Prop} {p : Printer} {line : LogLine}
  {lines : List LogLine} {n : ℕ}

/-! The cursor. -/

/-- What has been printed ascends up to the cursor and is not older than `since`. -/
structure Printer.Within (options : FollowOptions) (n : ℕ) (p : Printer) : Prop where
  written : Written LogLine.sequence p.lastSequence p.printed
  fresh : ∀ line ∈ p.printed, options.isFresh line = true
  le : p.lastSequence ≤ n

/-- Every owed line up to the cursor has been printed. -/
def Printer.Complete (owed : LogLine → Prop) (p : Printer) : Prop :=
  CursorReading.Complete LogLine.sequence owed p.lastSequence p.printed

theorem Printer.isNew_iff : p.isNew line = true ↔ line.sequence = 0 ∨ p.lastSequence < line.sequence := by
  simp [isNew]

theorem Printer.consume_lastSequence :
    (p.consume line).lastSequence = max p.lastSequence line.sequence := by
  unfold consume
  split
  · rfl
  · rename_i hold
    rw [isNew_iff] at hold
    omega

theorem Printer.subset_consume : p.printed ⊆ (p.consume line).printed := by
  intro a ha
  unfold consume
  split
  · exact List.mem_append_left _ ha
  · exact ha

theorem Printer.Within.advance (h : p.Within options n) (hline : line.sequence ≤ n) :
    (p.advance line).Within options n where
  written := h.written.mono (Nat.le_max_left ..)
  fresh := h.fresh
  le := Nat.max_le.mpr ⟨h.le, hline⟩

theorem Printer.Within.print (h : p.Within options n) (hnew : p.isNew line = true)
    (hline : line.sequence ≤ n) (hfresh : options.isFresh line = true) :
    (p.print line).Within options n where
  written := h.written.concat (isNew_iff.mp hnew)
  fresh a ha := by
    rcases List.mem_append.mp ha with hold | hlast
    · exact h.fresh a hold
    · rwa [List.mem_singleton.mp hlast]
  le := Nat.max_le.mpr ⟨h.le, hline⟩

theorem Printer.Within.consume (h : p.Within options n) (hline : line.sequence ≤ n)
    (hfresh : options.isFresh line = true) : (p.consume line).Within options n := by
  unfold Printer.consume
  split
  · rename_i hnew
    exact h.print hnew hline hfresh
  · exact h

theorem Printer.Complete.consume (h : p.Complete owed)
    (hleads : Leads LogLine.sequence owed p.lastSequence (line :: lines))
    (hascending : Ascending LogLine.sequence (line :: lines)) : (p.consume line).Complete owed := by
  unfold Printer.consume
  split
  · exact CursorReading.Complete.concat h hleads hascending
  · exact h

/-! The lines of a page. -/

/-- A page whose lines can be printed one after another. -/
structure Readable (options : FollowOptions) (n : ℕ) (lines : List LogLine) : Prop where
  ascending : Ascending LogLine.sequence lines
  fresh : ∀ line ∈ lines, options.isFresh line = true
  le : ∀ line ∈ lines, line.sequence ≤ n

theorem Readable.tail (h : Readable options n (line :: lines)) : Readable options n lines where
  ascending := h.ascending.tail
  fresh a ha := h.fresh a (List.mem_cons_of_mem _ ha)
  le a ha := h.le a (List.mem_cons_of_mem _ ha)

/-- Metadata and lines that are skipped move the cursor only. -/
theorem Printer.Within.consumeGap (initial : Bool) (h : p.Within options n)
    (hlines : Readable options n lines) (toSkip : ℕ) :
    (consumeGap initial toSkip p lines).Within options n := by
  induction lines generalizing p toSkip with
  | nil => exact h
  | cons line lines ih =>
    have hline := hlines.le line List.mem_cons_self
    unfold Cli.consumeGap
    split
    · rename_i hnew
      split
      · exact ih (h.advance hline) hlines.tail toSkip
      · split
        · exact ih (h.advance hline) hlines.tail (toSkip - 1)
        · exact ih (h.print hnew hline (hlines.fresh line List.mem_cons_self)) hlines.tail toSkip
    · exact ih h hlines.tail toSkip

theorem consumeGap_false_zero : consumeGap false 0 p lines = drainFollowLogPage p lines := by
  induction lines generalizing p with
  | nil => rfl
  | cons line lines ih =>
    have hstep : consumeGap false 0 p (line :: lines) = consumeGap false 0 (p.consume line) lines := by
      unfold Printer.consume
      rw [consumeGap]
      split
      · rfl
      · rfl
    rw [hstep, ih]
    rfl

theorem Printer.Within.drain (h : p.Within options n) (hlines : Readable options n lines) :
    (drainFollowLogPage p lines).Within options n := by
  rw [← consumeGap_false_zero]
  exact h.consumeGap false hlines 0

theorem subset_drain : p.printed ⊆ (drainFollowLogPage p lines).printed := by
  induction lines generalizing p with
  | nil => exact fun _ ha => ha
  | cons line lines ih => exact fun a ha => ih (Printer.subset_consume ha)

theorem lastSequence_le_drain : p.lastSequence ≤ (drainFollowLogPage p lines).lastSequence := by
  induction lines generalizing p with
  | nil => exact Nat.le_refl _
  | cons line lines ih =>
    calc p.lastSequence ≤ max p.lastSequence line.sequence := Nat.le_max_left ..
      _ = (p.consume line).lastSequence := Printer.consume_lastSequence.symm
      _ ≤ _ := ih

theorem le_drain {a : LogLine} (ha : a ∈ lines) :
    a.sequence ≤ (drainFollowLogPage p lines).lastSequence := by
  induction lines generalizing p with
  | nil => cases ha
  | cons line lines ih =>
    rcases List.mem_cons.mp ha with rfl | hlater
    · calc a.sequence ≤ max p.lastSequence a.sequence := Nat.le_max_right ..
        _ = (p.consume a).lastSequence := Printer.consume_lastSequence.symm
        _ ≤ _ := lastSequence_le_drain
    · exact ih hlater

theorem Printer.Complete.drain (h : p.Complete owed)
    (hleads : Leads LogLine.sequence owed p.lastSequence lines)
    (hascending : Ascending LogLine.sequence lines) : (drainFollowLogPage p lines).Complete owed := by
  induction lines generalizing p with
  | nil => exact h
  | cons line lines ih =>
    refine ih (h.consume hleads hascending) ?_ hascending.tail
    rw [Printer.consume_lastSequence]
    exact hleads.tail

/-! The frames of a stream. -/

/-- The lines before the first report of lost ones. -/
def linesUntilDrop : List Frame → List LogLine
  | [] | .dropped :: _ => []
  | .line line :: frames => line :: linesUntilDrop frames
  | .other :: frames => linesUntilDrop frames

/-- What the reader of a stream will see of it, as it stands. -/
def Socket.upcoming (socket : Socket) : List LogLine :=
  linesUntilDrop socket.frames ++ if .dropped ∈ socket.frames then [] else socket.pending

section Frames

variable {frames : List Frame} {pending : List LogLine} {frame : Frame}

theorem linesUntilDrop_append (h : .dropped ∉ frames) (later : List Frame) :
    linesUntilDrop (frames ++ later) = linesUntilDrop frames ++ linesUntilDrop later := by
  induction frames with
  | nil => rfl
  | cons frame frames ih =>
    have hlater : .dropped ∉ frames := fun hmem => h (List.mem_cons_of_mem _ hmem)
    cases frame with
    | line line => exact congrArg (line :: ·) (ih hlater)
    | other => exact ih hlater
    | dropped => exact absurd List.mem_cons_self h

theorem linesUntilDrop_append_of_mem (h : .dropped ∈ frames) (later : List Frame) :
    linesUntilDrop (frames ++ later) = linesUntilDrop frames := by
  induction frames with
  | nil => cases h
  | cons frame frames ih =>
    cases frame with
    | line line => exact congrArg (line :: ·) (ih (by simpa using h))
    | other => exact ih (by simpa using h)
    | dropped => rfl

theorem upcoming_of_dropped (h : .dropped ∈ frames) :
    (Socket.mk pending frames).upcoming = linesUntilDrop frames := by
  unfold Socket.upcoming
  rw [if_pos h, List.append_nil]

theorem upcoming_of_not_dropped (h : .dropped ∉ frames) :
    (Socket.mk pending frames).upcoming = linesUntilDrop frames ++ pending := by
  unfold Socket.upcoming
  rw [if_neg h]

theorem upcoming_line (pending : List LogLine) :
    (Socket.mk pending (.line line :: frames)).upcoming =
      line :: (Socket.mk pending frames).upcoming := by
  by_cases h : .dropped ∈ frames
  · rw [upcoming_of_dropped h, upcoming_of_dropped (List.mem_cons_of_mem _ h)]
    rfl
  · rw [upcoming_of_not_dropped h, upcoming_of_not_dropped (by simpa using h)]
    rfl

theorem upcoming_other (pending : List LogLine) :
    (Socket.mk pending (.other :: frames)).upcoming = (Socket.mk pending frames).upcoming := by
  by_cases h : .dropped ∈ frames
  · rw [upcoming_of_dropped h, upcoming_of_dropped (List.mem_cons_of_mem _ h)]
    rfl
  · rw [upcoming_of_not_dropped h, upcoming_of_not_dropped (by simpa using h)]
    rfl

theorem upcoming_send :
    (Socket.mk pending (frames ++ [.line line])).upcoming =
      (Socket.mk (line :: pending) frames).upcoming := by
  by_cases h : .dropped ∈ frames
  · rw [upcoming_of_dropped h, upcoming_of_dropped (List.mem_append_left _ h),
      linesUntilDrop_append_of_mem h]
  · rw [upcoming_of_not_dropped h, upcoming_of_not_dropped (by simpa using h),
      linesUntilDrop_append h, List.append_assoc]
    rfl

theorem upcoming_sendOther :
    (Socket.mk pending (frames ++ [.other])).upcoming = (Socket.mk pending frames).upcoming := by
  by_cases h : .dropped ∈ frames
  · rw [upcoming_of_dropped h, upcoming_of_dropped (List.mem_append_left _ h),
      linesUntilDrop_append_of_mem h]
  · rw [upcoming_of_not_dropped h, upcoming_of_not_dropped (by simpa using h),
      linesUntilDrop_append h]
    change linesUntilDrop frames ++ [] ++ pending = _
    rw [List.append_nil]

theorem upcoming_lag (rest : List LogLine) :
    (Socket.mk rest (frames ++ [.dropped])).upcoming = linesUntilDrop frames := by
  rw [upcoming_of_dropped (by simp)]
  by_cases h : .dropped ∈ frames
  · exact linesUntilDrop_append_of_mem h _
  · rw [linesUntilDrop_append h]
    exact List.append_nil _

end Frames

namespace FollowLogs

variable {s t : FollowLogs} {answer : Answer} {socket : Socket} {phase : FollowPhase}

/-! The server. -/

theorem le_highWatermark (h : line ∈ s.published) : line.sequence ≤ s.highWatermark := by
  unfold highWatermark
  generalize s.published = published at h
  induction published with
  | nil => cases h
  | cons first published ih =>
    change line.sequence ≤ max first.sequence _
    rcases List.mem_cons.mp h with rfl | hlater
    · exact Nat.le_max_left ..
    · exact Nat.le_trans (ih hlater) (Nat.le_max_right ..)

theorem highWatermark_le_publish {published : List LogLine} (line : LogLine) :
    ({ s with published } : FollowLogs).highWatermark ≤
      ({ s with published := published ++ [line] } : FollowLogs).highWatermark := by
  unfold highWatermark
  induction published with
  | nil => exact Nat.zero_le _
  | cons first published ih => exact max_le_max_left _ ih

theorem mem_filter_retained {query : TailQuery} (h : line ∈ s.retained.filter query.selects) :
    line ∈ s.published ∧ query.selects line = true :=
  ⟨(List.mem_filter.mp (List.mem_filter.mp h).1).1, (List.mem_filter.mp h).2⟩

/-- What the answer to a request after a cursor offers to the reader. -/
structure AnswerOk (options : FollowOptions) (owed : LogLine → Prop) (n cursor : ℕ)
    (answer : Answer) : Prop where
  readable : Readable options answer.served answer.page.lines
  served : answer.served ≤ n
  le : cursor ≤ answer.served
  offers : Offers LogLine.sequence (fun line => owed line ∧ line.sequence ≤ answer.served) cursor
    answer.page.lines

/-- What a stream offers to a reader with a cursor. -/
structure SocketOk (options : FollowOptions) (owed : LogLine → Prop) (n cursor : ℕ)
    (socket : Socket) : Prop where
  readable : Readable options n socket.upcoming
  leads : Leads LogLine.sequence owed cursor socket.upcoming
  offers : .dropped ∉ socket.frames → Offers LogLine.sequence owed cursor socket.upcoming

def PhaseOk (options : FollowOptions) (s : FollowLogs) : FollowPhase → Prop
  | .requesting (some answer) =>
      AnswerOk options (s.Due options) s.highWatermark s.printer.lastSequence answer ∧
      s.answered ≤ answer.served ∧
      (s.isInitialSnapshot = true → s.first = some answer.served) ∧
      (s.isInitialSnapshot = false → answer.page.truncated = false)
  | .drainRequesting (some answer) =>
      AnswerOk options (s.Due options) s.highWatermark s.printer.lastSequence answer
  | .streaming socket | .drainStreaming socket =>
      SocketOk options (s.Due options) s.highWatermark s.printer.lastSequence socket
  | .failed error => error ≠ .truncated
  | _ => True

structure Sound (options : FollowOptions) (s : FollowLogs) : Prop where
  ascending : Ascending LogLine.sequence s.published
  printer : s.printer.Within options s.highWatermark
  complete : s.printer.Complete (s.Due options)
  answeredLe : s.answered ≤ s.highWatermark
  answered : Complete LogLine.sequence (s.Due options) s.answered s.printer.printed
  expired : s.expired ≤ s.highWatermark
  /-- A due line that has not been printed is still retained. -/
  retained : ∀ line, s.Due options line → s.printer.lastSequence < line.sequence →
    s.expired < line.sequence
  phase : s.PhaseOk options s.phase

theorem PhaseOk.stream (h : s.PhaseOk options phase) (hsocket : phase.socket? = some socket) :
    SocketOk options (s.Due options) s.highWatermark s.printer.lastSequence socket := by
  cases phase with
  | streaming found | drainStreaming found =>
    cases hsocket
    exact h
  | requesting _ | sleeping | connecting | drainConnecting | drainRequesting _ | returned
  | failed _ => cases hsocket

theorem PhaseOk.withSocket {f : Socket → Socket} (hsocket : phase.socket? = some socket)
    (h : SocketOk options (s.Due options) s.highWatermark s.printer.lastSequence (f socket)) :
    s.PhaseOk options (phase.withSocket f) := by
  cases phase with
  | streaming found | drainStreaming found =>
    cases hsocket
    exact h
  | requesting _ | sleeping | connecting | drainConnecting | drainRequesting _ | returned
  | failed _ => cases hsocket

theorem withSocket_of_none {f : Socket → Socket} (hsocket : phase.socket? = none) :
    phase.withSocket f = phase := by
  cases phase with
  | streaming found | drainStreaming found => cases hsocket
  | requesting _ | sleeping | connecting | drainConnecting | drainRequesting _ | returned
  | failed _ => rfl

theorem Sound.exactlyOnce (h : s.Sound options) : s.ExactlyOnce options where
  increasing := h.printer.written.ascending.pairwise_lt
  complete line hdue hle := by
    rcases le_max_iff.mp hle with hcursor | hanswered
    · exact h.complete line hdue hcursor
    · exact h.answered line hdue hanswered
  caughtUp hsocket line hdue := by
    have hoffers := (h.phase.stream hsocket).offers List.not_mem_nil
    exact CursorReading.Complete.of_offers_nil h.complete hoffers hdue
  fresh := h.printer.fresh
  goesOn hphase := by
    have hok := h.phase
    rw [hphase] at hok
    exact hok rfl

/-! The steps of the loop that print nothing. -/

/-- The phase changes, and no more lines become due. -/
theorem Sound.change (h : s.Sound options) (phase : FollowPhase) (backoffMs : ℕ)
    {first : Option ℕ}
    (hdue : ∀ line, ({ s with first } : FollowLogs).Due options line → s.Due options line)
    (hphase : ({ s with first } : FollowLogs).PhaseOk options phase) :
    ({ s with phase, backoffMs, first } : FollowLogs).Sound options where
  ascending := h.ascending
  printer := h.printer
  complete line hline := h.complete line (hdue line hline)
  answeredLe := h.answeredLe
  answered line hline := h.answered line (hdue line hline)
  expired := h.expired
  retained line hline := h.retained line (hdue line hline)
  phase := hphase

theorem Sound.goto (h : s.Sound options) (phase : FollowPhase) (backoffMs : ℕ)
    (hphase : s.PhaseOk options phase) :
    ({ s with phase, backoffMs } : FollowLogs).Sound options :=
  @Cli.FollowLogs.Sound.change _ _ h phase backoffMs s.first (fun _ hline => hline) hphase

theorem Sound.leave (h : s.Sound options)
    (hphase : ∀ first, ({ s with first } : FollowLogs).PhaseOk options phase) :
    (s.leave phase).Sound options := by
  refine h.change phase s.backoffMs (fun line hline => ?_) (hphase _)
  obtain ⟨hpublished, hfirst, hfresh⟩ := hline
  cases hinitial : s.isInitialSnapshot with
  | false =>
    rw [hinitial] at hfirst
    exact ⟨hpublished, hfirst, hfresh⟩
  | true =>
    rw [hinitial] at hfirst
    cases hfirst

/-! The server publishes a line. -/

theorem AnswerOk.publish {cursor m : ℕ} {owed' : LogLine → Prop}
    (h : AnswerOk options owed n cursor answer) (hle : n ≤ m)
    (howed : ∀ a, owed' a → owed a ∨ n < a.sequence) : AnswerOk options owed' m cursor answer where
  readable := h.readable
  served := Nat.le_trans h.served hle
  le := h.le
  offers a ha hcursor := by
    have hserved := h.served
    rcases howed a ha.1 with hold | hnew
    · exact h.offers a ⟨hold, ha.2⟩ hcursor
    · omega

theorem SocketOk.publish {cursor m : ℕ} {owed' : LogLine → Prop}
    (h : SocketOk options owed n cursor socket) (hle : n ≤ m)
    (howed : ∀ a, owed' a → owed a ∨ a = line ∧ n < a.sequence)
    (hline : line.sequence = 0 ∨ n < line.sequence) (hlineLe : line.sequence ≤ m)
    (hfresh : options.isFresh line = true) :
    SocketOk options owed' m cursor { socket with pending := socket.pending ++ [line] } := by
  obtain ⟨pending, frames⟩ := socket
  have hread := h.readable
  by_cases hdropped : .dropped ∈ frames
  · -- the reader will not see the new line, which is behind all that it sees
    have hleads := h.leads
    rw [upcoming_of_dropped hdropped] at hread hleads
    refine ⟨?_, ?_, fun hnot => absurd hdropped hnot⟩
    · rw [upcoming_of_dropped hdropped]
      exact ⟨hread.ascending, hread.fresh, fun a ha => Nat.le_trans (hread.le a ha) hle⟩
    · rw [upcoming_of_dropped hdropped]
      intro a ha hcursor
      rcases howed a ha with hold | ⟨-, hnew⟩
      · exact hleads a hold hcursor
      · exact .inr fun b hb => Nat.lt_of_le_of_lt (hread.le b hb) hnew
  · have hoffers := h.offers hdropped
    have hupcoming : (Socket.mk (pending ++ [line]) frames).upcoming =
        (Socket.mk pending frames).upcoming ++ [line] := by
      rw [upcoming_of_not_dropped hdropped, upcoming_of_not_dropped hdropped, List.append_assoc]
    have hoffers' : Offers LogLine.sequence owed' cursor
        ((Socket.mk pending frames).upcoming ++ [line]) := by
      intro a ha hcursor
      rcases howed a ha with hold | ⟨rfl, -⟩
      · exact List.mem_append_left _ (hoffers a hold hcursor)
      · exact List.mem_append_right _ (List.mem_singleton_self a)
    refine ⟨?_, ?_, fun _ => ?_⟩
    · rw [hupcoming]
      refine ⟨hread.ascending.concat fun a ha => ?_, fun a ha => ?_, fun a ha => ?_⟩
      · have hbefore := hread.le a ha
        omega
      · rcases List.mem_append.mp ha with hold | hlast
        · exact hread.fresh a hold
        · rwa [List.mem_singleton.mp hlast]
      · rcases List.mem_append.mp ha with hold | hlast
        · exact Nat.le_trans (hread.le a hold) hle
        · rwa [List.mem_singleton.mp hlast]
    · rw [hupcoming]
      exact hoffers'.leads
    · rw [hupcoming]
      exact hoffers'

theorem due_publish {line a : LogLine} (hline : line.sequence = 0 ∨ s.highWatermark < line.sequence)
    (h : ({ s with published := s.published ++ [line] } : FollowLogs).Due options a) :
    s.Due options a ∨ a = line ∧ s.highWatermark < a.sequence := by
  obtain ⟨hpublished, hfirst, hfresh⟩ := h
  rcases List.mem_append.mp hpublished with hold | hlast
  · exact .inl ⟨hold, hfirst, hfresh⟩
  · obtain rfl := List.mem_singleton.mp hlast
    refine .inr ⟨rfl, hline.resolve_left fun hzero => ?_⟩
    obtain ⟨first, -, hlt⟩ := (Option.any_eq_true _ _).mp hfirst
    have hlt' := of_decide_eq_true hlt
    omega

theorem Sound.publish (h : s.Sound options) (hfits : s.mayPublish options line = true)
    (hstep : s.step options (.publish line) = some t) : t.Sound options := by
  simp only [step] at hstep
  split at hstep
  · rename_i hline
    cases hstep
    have hle := @highWatermark_le_publish s s.published line
    have hlineLe : line.sequence ≤
        ({ s with published := s.published ++ [line] } : FollowLogs).highWatermark :=
      le_highWatermark (List.mem_append_right _ (List.mem_singleton_self line))
    have howed (a : LogLine)
        (ha : ({ s with published := s.published ++ [line] } : FollowLogs).Due options a) :=
      due_publish hline ha
    have howed' (a : LogLine)
        (ha : ({ s with published := s.published ++ [line] } : FollowLogs).Due options a) :
        s.Due options a ∨ s.highWatermark < a.sequence :=
      (howed a ha).imp id And.right
    refine ⟨?_, ?_, ?_, ?_, ?_, ?_, ?_, ?_⟩
    · refine h.ascending.concat fun a ha => ?_
      have hbefore := le_highWatermark ha
      omega
    · exact ⟨h.printer.written, h.printer.fresh, Nat.le_trans h.printer.le hle⟩
    · intro a ha hcursor
      have hbound := h.printer.le
      rcases howed' a ha with hold | hnew
      · exact h.complete a hold hcursor
      · change a.sequence ≤ s.printer.lastSequence at hcursor
        omega
    · exact Nat.le_trans h.answeredLe hle
    · intro a ha hcursor
      have hbound := h.answeredLe
      rcases howed' a ha with hold | hnew
      · exact h.answered a hold hcursor
      · change a.sequence ≤ s.answered at hcursor
        omega
    · exact Nat.le_trans h.expired hle
    · intro a ha hcursor
      have hbound := h.expired
      rcases howed' a ha with hold | hnew
      · exact h.retained a hold hcursor
      · change s.expired < a.sequence
        omega
    · have hok := h.phase
      change PhaseOk options { s with published := s.published ++ [line] } (s.phase.withSocket _)
      cases hsocket : s.phase.socket? with
      | some socket =>
        refine PhaseOk.withSocket hsocket ((hok.stream hsocket).publish hle howed hline hlineLe ?_)
        rwa [mayPublish, hsocket] at hfits
      | none =>
        rw [withSocket_of_none hsocket]
        cases hphase : s.phase with
        | requesting found =>
          cases found with
          | none => trivial
          | some answer =>
            rw [hphase] at hok
            exact ⟨hok.1.publish hle howed', hok.2⟩
        | drainRequesting found =>
          cases found with
          | none => trivial
          | some answer =>
            rw [hphase] at hok
            exact AnswerOk.publish hok hle howed'
        | streaming socket | drainStreaming socket =>
          rw [hphase] at hsocket
          cases hsocket
        | failed error =>
          rw [hphase] at hok
          exact hok
        | sleeping | connecting | drainConnecting | returned => trivial
  · cases hstep

theorem Sound.expire (h : s.Sound options) {upTo : ℕ} (hfits : s.mayExpire options upTo = true)
    (hstep : s.step options (.expire upTo) = some t) : t.Sound options := by
  simp only [step] at hstep
  split at hstep
  · rename_i hupTo
    cases hstep
    refine ⟨h.ascending, h.printer, h.complete, h.answeredLe, h.answered,
      Nat.max_le.mpr ⟨h.expired, hupTo⟩, fun a ha hcursor => ?_, h.phase⟩
    have hkept := h.retained a ha hcursor
    have hmay := List.all_eq_true.mp hfits a ha.1
    simp only [Bool.or_eq_true, Bool.not_eq_true', decide_eq_true_eq, decide_eq_false_iff_not]
      at hmay
    change max s.expired upTo < a.sequence
    change s.printer.lastSequence < a.sequence at hcursor
    rcases hmay with (hnot | hlt) | hle
    · exact absurd ha hnot
    · omega
    · omega
  · cases hstep

/-! The server answers. -/

theorem Sound.openSocket (h : s.Sound options) (hfits : s.mayConnect options = true) :
    SocketOk options (s.Due options) s.highWatermark s.printer.lastSequence s.openSocket := by
  have hupcoming : s.openSocket.upcoming = s.openSocket.pending :=
    upcoming_of_not_dropped List.not_mem_nil
  have hoffers : Offers LogLine.sequence (s.Due options) s.printer.lastSequence
      s.openSocket.pending := by
    intro a ha hcursor
    refine List.mem_filter.mpr ⟨List.mem_filter.mpr ⟨ha.1, ?_⟩, ?_⟩
    · exact decide_eq_true (h.retained a ha hcursor)
    · exact decide_eq_true hcursor
  refine ⟨?_, ?_, fun _ => ?_⟩
  · rw [hupcoming]
    refine ⟨(h.ascending.filter _).filter _, List.all_eq_true.mp hfits, fun a ha => ?_⟩
    exact le_highWatermark (mem_filter_retained ha).1
  · rw [hupcoming]
    exact hoffers.leads
  · rw [hupcoming]
    exact hoffers

theorem mem_of_mem_lastLines {query : TailQuery} (h : line ∈ query.lastLines lines) :
    line ∈ lines := by
  unfold TailQuery.lastLines at h
  split at h
  · exact List.mem_of_mem_drop h
  · exact h

theorem lastLines_readable {query : TailQuery} (h : Readable options n lines) :
    Readable options n (query.lastLines lines) where
  ascending := by
    unfold TailQuery.lastLines
    split
    · exact h.ascending.drop _
    · exact h.ascending
  fresh a ha := h.fresh a (mem_of_mem_lastLines ha)
  le a ha := h.le a (mem_of_mem_lastLines ha)

theorem logPage_readable (h : s.Sound options) (tail : ℕ) :
    Readable options s.highWatermark (s.logPage options tail).lines := by
  refine lastLines_readable ⟨(h.ascending.filter _).filter _, fun a ha => ?_, fun a ha => ?_⟩
  · exact (Bool.and_eq_true_iff.mp (mem_filter_retained ha).2).1
  · exact le_highWatermark (mem_filter_retained ha).1

theorem logPage_offers (h : s.Sound options) :
    Offers LogLine.sequence (s.Due options) s.printer.lastSequence (s.logPage options 0).lines := by
  intro a ha hcursor
  change a ∈ TailQuery.lastLines ⟨0, options.since, some s.printer.lastSequence⟩ _
  unfold TailQuery.lastLines
  rw [if_neg (fun hlimit => absurd hlimit.1 (Nat.lt_irrefl 0))]
  refine List.mem_filter.mpr ⟨List.mem_filter.mpr ⟨ha.1, ?_⟩, ?_⟩
  · exact decide_eq_true (h.retained a ha hcursor)
  · exact Bool.and_eq_true_iff.mpr ⟨ha.2.2, decide_eq_true hcursor⟩

/-! The reader. -/

theorem Sound.serve (h : s.Sound options) (hstep : s.step options .serve = some t) :
    t.Sound options := by
  have hfull : AnswerOk options (s.Due options) s.highWatermark s.printer.lastSequence
      ⟨s.logPage options 0, s.highWatermark⟩ :=
    ⟨logPage_readable h 0, Nat.le_refl _, h.printer.le,
      fun a ha hcursor => logPage_offers h a ha.1 hcursor⟩
  cases hphase : s.phase with
  | requesting found =>
    cases found with
    | none =>
      simp only [step, hphase] at hstep
      cases hinitial : s.isInitialSnapshot with
      | true =>
        rw [if_pos hinitial] at hstep
        cases hstep
        -- nothing that has been published is due yet
        have hnone (a : LogLine)
            (ha : ({ s with first := some s.highWatermark } : FollowLogs).Due options a) : False := by
          obtain ⟨hpublished, hfirst, -⟩ := ha
          have hle := le_highWatermark (s := s) hpublished
          have hlt := of_decide_eq_true hfirst
          omega
        refine @Cli.FollowLogs.Sound.change _ _ h
          (.requesting (some ⟨s.logPage options (s.snapshotTail options), s.highWatermark⟩))
          s.backoffMs (some s.highWatermark) (fun a ha => (hnone a ha).elim)
          ⟨?_, h.answeredLe, fun _ => rfl, fun hnot => ?_⟩
        · exact ⟨logPage_readable h _, Nat.le_refl _, h.printer.le,
            fun a ha _ => (hnone a ha.1).elim⟩
        · cases hinitial.symm.trans hnot
      | false =>
        have htail : s.snapshotTail options = 0 := by
          unfold snapshotTail
          rw [hinitial]
          exact if_neg fun hnot => by cases hnot.1
        rw [if_neg (hinitial ▸ Bool.false_ne_true), htail] at hstep
        cases hstep
        refine h.goto (.requesting (some ⟨s.logPage options 0, s.highWatermark⟩)) s.backoffMs
          ⟨hfull, h.answeredLe, fun hnot => ?_, fun _ => rfl⟩
        cases hinitial.symm.trans hnot
    | some answer =>
      simp only [step, hphase] at hstep
      cases hstep
  | drainRequesting found =>
    cases found with
    | none =>
      simp only [step, hphase] at hstep
      cases hstep
      exact h.goto (.drainRequesting (some ⟨s.logPage options 0, s.highWatermark⟩)) s.backoffMs hfull
    | some answer =>
      simp only [step, hphase] at hstep
      cases hstep
  | sleeping | connecting | streaming socket | drainConnecting | drainStreaming socket | returned
  | failed error =>
    simp only [step, hphase] at hstep
    cases hstep

/-- A page is printed from the cursor on. -/
theorem Sound.drain (h : s.Sound options)
    (hanswer : AnswerOk options (s.Due options) s.highWatermark s.printer.lastSequence answer)
    (initial : Bool)
    (hfree : ∀ printer answered, ({ s with
      printer, answered, isInitialSnapshot := initial } : FollowLogs).PhaseOk options phase) :
    ({ s with
      printer := drainFollowLogPage s.printer answer.page.lines
      isInitialSnapshot := initial
      answered := max s.answered answer.served
      phase } : FollowLogs).Sound options := by
  have hread : Readable options s.highWatermark answer.page.lines :=
    ⟨hanswer.readable.ascending, hanswer.readable.fresh,
      fun a ha => Nat.le_trans (hanswer.readable.le a ha) hanswer.served⟩
  have hleads : Leads LogLine.sequence (s.Due options) s.printer.lastSequence answer.page.lines := by
    intro a ha hcursor
    by_cases hserved : a.sequence ≤ answer.served
    · exact .inl (hanswer.offers a ⟨ha, hserved⟩ hcursor)
    · right
      intro b hb
      have hle := hanswer.readable.le b hb
      omega
  have hcomplete := h.complete.drain hleads hread.ascending
  refine ⟨h.ascending, h.printer.drain hread, hcomplete,
    Nat.max_le.mpr ⟨h.answeredLe, hanswer.served⟩, fun a ha hle => ?_, h.expired,
    fun a ha hcursor => ?_, hfree _ _⟩
  · by_cases hcursor : a.sequence ≤ s.printer.lastSequence
    · exact subset_drain (h.complete a ha hcursor)
    · rcases le_max_iff.mp hle with hanswered | hserved
      · exact subset_drain (h.answered a ha hanswered)
      · exact hcomplete a ha (le_drain (hanswer.offers a ⟨ha, hserved⟩ (by omega)))
  · exact h.retained a ha (Nat.lt_of_le_of_lt lastSequence_le_drain hcursor)

/-- The initial page moves the cursor over lines that are not due. -/
theorem Sound.initialGap (h : s.Sound options)
    (hanswer : AnswerOk options (s.Due options) s.highWatermark s.printer.lastSequence answer)
    (hanswered : s.answered ≤ answer.served) (hfirst : s.first = some answer.served) (toSkip : ℕ) :
    ({ s with
      printer := consumeGap true toSkip s.printer answer.page.lines
      isInitialSnapshot := false
      answered := max s.answered answer.served
      phase := .connecting } : FollowLogs).Sound options := by
  have hwithin : (consumeGap true toSkip s.printer answer.page.lines).Within options
      answer.served :=
    Printer.Within.consumeGap true ⟨h.printer.written, h.printer.fresh, hanswer.le⟩
      hanswer.readable toSkip
  have hlater (a : LogLine) (ha : s.Due options a) : answer.served < a.sequence := by
    have hlt := ha.2.1
    rw [hfirst] at hlt
    exact of_decide_eq_true hlt
  refine ⟨h.ascending, ⟨hwithin.written, hwithin.fresh, Nat.le_trans hwithin.le hanswer.served⟩,
    fun a ha hcursor => ?_, Nat.max_le.mpr ⟨h.answeredLe, hanswer.served⟩, fun a ha hle => ?_,
    h.expired, fun a ha hcursor => ?_, trivial⟩
  · have hbound := hwithin.le
    have hlt := hlater a ha
    change a.sequence ≤ (consumeGap true toSkip s.printer answer.page.lines).lastSequence at hcursor
    omega
  · have hlt := hlater a ha
    change a.sequence ≤ max s.answered answer.served at hle
    omega
  · have hbound := hanswer.le
    have hlt := hlater a ha
    exact h.retained a ha (by omega)

theorem Sound.receivePage (h : s.Sound options) (hstep : s.step options .receivePage = some t) :
    t.Sound options := by
  have hok := h.phase
  cases hphase : s.phase with
  | requesting found =>
    cases found with
    | none =>
      simp only [step, hphase] at hstep
      cases hstep
    | some answer =>
      simp only [step, hphase, receiveGap] at hstep
      rw [hphase] at hok
      obtain ⟨hanswer, hanswered, hfirst, htruncated⟩ := hok
      cases hinitial : s.isInitialSnapshot with
      | true =>
        rw [hinitial] at hstep
        cases hstep
        exact h.initialGap hanswer hanswered (hfirst hinitial) _
      | false =>
        have htoSkip : s.initialOutputToSkip options answer.page = 0 := by
          unfold initialOutputToSkip
          rw [hinitial]
          exact if_neg fun hnot => by cases hnot.1
        rw [hinitial, htruncated hinitial, htoSkip, consumeGap_false_zero] at hstep
        cases hstep
        exact @Cli.FollowLogs.Sound.drain _ _ _ .connecting h hanswer false fun _ _ => trivial
  | drainRequesting found =>
    cases found with
    | none =>
      simp only [step, hphase] at hstep
      cases hstep
    | some answer =>
      simp only [step, hphase, receiveDrain] at hstep
      rw [hphase] at hok
      cases hstep
      exact @Cli.FollowLogs.Sound.drain _ _ _ .returned h hok s.isInitialSnapshot fun _ _ => trivial
  | sleeping | connecting | streaming socket | drainConnecting | drainStreaming socket | returned
  | failed error =>
    simp only [step, hphase] at hstep
    cases hstep

/-- A frame is read. -/
theorem Sound.receiveText (h : s.Sound options) {pending : List LogLine} {frame : Frame}
    {frames : List Frame} (hsocket : s.phase.socket? = some ⟨pending, frame :: frames⟩)
    {recovering : FollowPhase} (hrecovering : ∀ u : FollowLogs, u.PhaseOk options recovering) :
    (s.receiveText ⟨pending, frame :: frames⟩ frame frames recovering).Sound options := by
  have hok := h.phase.stream hsocket
  cases frame with
  | line line =>
    obtain ⟨hread, hleads, hoffers⟩ := hok
    rw [upcoming_line] at hread hleads hoffers
    have hline := hread.le line List.mem_cons_self
    refine ⟨h.ascending, h.printer.consume hline (hread.fresh line List.mem_cons_self),
      h.complete.consume hleads hread.ascending, h.answeredLe,
      fun a ha hle => Printer.subset_consume (h.answered a ha hle), h.expired,
      fun a ha hcursor => h.retained a ha ?_, PhaseOk.withSocket hsocket ?_⟩
    · change (s.printer.consume line).lastSequence < a.sequence at hcursor
      rw [Printer.consume_lastSequence] at hcursor
      omega
    · change SocketOk options (s.Due options) s.highWatermark (s.printer.consume line).lastSequence _
      rw [Printer.consume_lastSequence]
      refine ⟨hread.tail, hleads.tail, fun hdropped => (hoffers ?_).tail⟩
      exact fun hmem => hdropped ((List.mem_cons.mp hmem).resolve_left nofun)
  | dropped => exact h.goto recovering s.backoffMs (hrecovering _)
  | other =>
    obtain ⟨hread, hleads, hoffers⟩ := hok
    rw [upcoming_other] at hread hleads hoffers
    refine h.goto _ s.backoffMs (PhaseOk.withSocket hsocket ⟨hread, hleads, fun hdropped => ?_⟩)
    exact hoffers fun hmem => hdropped ((List.mem_cons.mp hmem).resolve_left nofun)

theorem Sound.receiveFrame (h : s.Sound options) (hstep : s.step options .receiveFrame = some t) :
    t.Sound options := by
  cases hphase : s.phase with
  | streaming socket =>
    obtain ⟨pending, _ | ⟨frame, frames⟩⟩ := socket
    · simp only [step, hphase] at hstep
      cases hstep
    · simp only [step, hphase] at hstep
      cases hstep
      exact h.receiveText (by rw [hphase]; rfl) fun _ => trivial
  | drainStreaming socket =>
    obtain ⟨pending, _ | ⟨frame, frames⟩⟩ := socket
    · simp only [step, hphase] at hstep
      cases hstep
    · simp only [step, hphase] at hstep
      cases hstep
      exact h.receiveText (by rw [hphase]; rfl) fun _ => trivial
  | requesting _ | sleeping | connecting | drainConnecting | drainRequesting _ | returned
  | failed _ =>
    simp only [step, hphase] at hstep
    cases hstep

/-! The stream from the server. -/

theorem Sound.send (h : s.Sound options) (hstep : s.step options .send = some t) :
    t.Sound options := by
  simp only [step] at hstep
  split at hstep
  · rename_i line pending frames hsocket
    cases hstep
    obtain ⟨hread, hleads, hoffers⟩ := h.phase.stream hsocket
    rw [← upcoming_send] at hread hleads hoffers
    refine h.goto _ s.backoffMs (PhaseOk.withSocket hsocket ⟨hread, hleads, fun hdropped => ?_⟩)
    exact hoffers fun hmem => hdropped (List.mem_append_left _ hmem)
  · cases hstep

theorem Sound.sendOther (h : s.Sound options) (hstep : s.step options .sendOther = some t) :
    t.Sound options := by
  simp only [step] at hstep
  split at hstep
  · rename_i pending frames hsocket
    cases hstep
    obtain ⟨hread, hleads, hoffers⟩ := h.phase.stream hsocket
    rw [← upcoming_sendOther] at hread hleads hoffers
    refine h.goto _ s.backoffMs (PhaseOk.withSocket hsocket ⟨hread, hleads, fun hdropped => ?_⟩)
    exact hoffers fun hmem => hdropped (List.mem_append_left _ hmem)
  · cases hstep

/-- What is lost lies behind all that the reader will see of the stream. -/
theorem Sound.lag (h : s.Sound options) {count : ℕ} (hstep : s.step options (.lag count) = some t) :
    t.Sound options := by
  simp only [step] at hstep
  split at hstep
  · rename_i pending frames hsocket
    cases hstep
    obtain ⟨hread, hleads, hoffers⟩ := h.phase.stream hsocket
    refine h.goto _ s.backoffMs (PhaseOk.withSocket hsocket ⟨?_, ?_, fun hdropped => ?_⟩)
    · rw [upcoming_lag]
      by_cases hdropped : .dropped ∈ frames
      · rwa [upcoming_of_dropped hdropped] at hread
      · rw [upcoming_of_not_dropped hdropped] at hread
        exact ⟨hread.ascending.left, fun a ha => hread.fresh a (List.mem_append_left _ ha),
          fun a ha => hread.le a (List.mem_append_left _ ha)⟩
    · rw [upcoming_lag]
      by_cases hdropped : .dropped ∈ frames
      · rwa [upcoming_of_dropped hdropped] at hleads
      · have hoffers' := hoffers hdropped
        rw [upcoming_of_not_dropped hdropped] at hread hoffers'
        exact hoffers'.leads_left hread.ascending
    · exact absurd (List.mem_append_right _ (List.mem_singleton_self _)) hdropped
  · cases hstep

theorem Sound.connect (h : s.Sound options) (hfits : s.mayConnect options = true)
    (hstep : s.step options .connect = some t) : t.Sound options := by
  have hopen := h.openSocket hfits
  cases hphase : s.phase with
  | connecting =>
    simp only [step, hphase] at hstep
    cases hstep
    exact h.goto (.streaming s.openSocket) 100 hopen
  | drainConnecting =>
    simp only [step, hphase] at hstep
    cases hstep
    exact h.goto (.drainStreaming s.openSocket) s.backoffMs hopen
  | requesting _ | sleeping | streaming _ | drainStreaming _ | drainRequesting _ | returned
  | failed _ =>
    simp only [step, hphase] at hstep
    cases hstep

/-! Failures and Ctrl-C. -/

theorem Sound.requestFails (h : s.Sound options) (hstep : s.step options .requestFails = some t) :
    t.Sound options := by
  cases hphase : s.phase with
  | requesting _ =>
    simp only [step, hphase] at hstep
    cases hstep
    exact h.leave fun _ => trivial
  | drainRequesting _ =>
    simp only [step, hphase] at hstep
    cases hstep
    exact h.goto .returned s.backoffMs trivial
  | sleeping | connecting | streaming _ | drainConnecting | drainStreaming _ | returned
  | failed _ =>
    simp only [step, hphase] at hstep
    cases hstep

theorem Sound.connectFails (h : s.Sound options) (hstep : s.step options .connectFails = some t) :
    t.Sound options := by
  cases hphase : s.phase with
  | connecting =>
    simp only [step, hphase] at hstep
    cases hstep
    exact h.goto .sleeping s.backoffMs trivial
  | drainConnecting =>
    simp only [step, hphase] at hstep
    cases hstep
    exact h.goto (.drainRequesting none) s.backoffMs trivial
  | requesting _ | sleeping | streaming _ | drainStreaming _ | drainRequesting _ | returned
  | failed _ =>
    simp only [step, hphase] at hstep
    cases hstep

theorem Sound.streamEnds (h : s.Sound options) (hstep : s.step options .streamEnds = some t) :
    t.Sound options := by
  cases hphase : s.phase with
  | streaming _ =>
    simp only [step, hphase] at hstep
    cases hstep
    exact h.goto .sleeping s.backoffMs trivial
  | drainStreaming _ =>
    simp only [step, hphase] at hstep
    cases hstep
    exact h.goto (.drainRequesting none) s.backoffMs trivial
  | requesting _ | sleeping | connecting | drainConnecting | drainRequesting _ | returned
  | failed _ =>
    simp only [step, hphase] at hstep
    cases hstep

theorem Sound.wake (h : s.Sound options) (hstep : s.step options .wake = some t) :
    t.Sound options := by
  simp only [step] at hstep
  split at hstep
  · cases hstep
    exact h.goto (.requesting none) _ trivial
  · cases hstep

/-- After Ctrl-C an open stream is read on. -/
theorem Sound.interrupt (h : s.Sound options) (hstep : s.step options .interrupt = some t) :
    t.Sound options := by
  have hok := h.phase
  cases hphase : s.phase with
  | requesting _ | sleeping | connecting =>
    simp only [step, hphase] at hstep
    cases hstep
    exact h.leave fun _ => trivial
  | streaming socket =>
    simp only [step, hphase] at hstep
    rw [hphase] at hok
    cases hstep
    exact h.goto (.drainStreaming socket) s.backoffMs hok
  | drainConnecting | drainStreaming _ | drainRequesting _ | returned | failed _ =>
    simp only [step, hphase] at hstep
    cases hstep

theorem Sound.fail (h : s.Sound options) (hstep : s.step options .fail = some t) :
    t.Sound options := by
  cases hphase : s.phase with
  | requesting _ | sleeping | connecting | streaming _ | drainConnecting =>
    simp only [step, hphase] at hstep
    cases hstep
    exact h.leave fun _ => nofun
  | drainStreaming _ | drainRequesting _ | returned | failed _ =>
    simp only [step, hphase] at hstep
    cases hstep

theorem Sound.step (h : s.Sound options) {e : FollowLogsEvent} (hfits : s.Fits options e)
    (hstep : s.step options e = some t) : t.Sound options := by
  cases e with
  | publish line => exact h.publish hfits hstep
  | expire upTo => exact h.expire hfits hstep
  | serve => exact h.serve hstep
  | receivePage => exact h.receivePage hstep
  | requestFails => exact h.requestFails hstep
  | connect => exact h.connect hfits hstep
  | connectFails => exact h.connectFails hstep
  | send => exact h.send hstep
  | lag count => exact h.lag hstep
  | sendOther => exact h.sendOther hstep
  | receiveFrame => exact h.receiveFrame hstep
  | streamEnds => exact h.streamEnds hstep
  | wake => exact h.wake hstep
  | interrupt => exact h.interrupt hstep
  | fail => exact h.fail hstep

theorem sound_initial (options : FollowOptions) : Sound options {} where
  ascending := List.Pairwise.nil
  printer := ⟨⟨List.Pairwise.nil, nofun⟩, nofun, Nat.le_refl 0⟩
  complete _ hdue := by cases hdue.1
  answeredLe := Nat.le_refl 0
  answered _ hdue := by cases hdue.1
  expired := Nat.le_refl 0
  retained _ hdue := by cases hdue.1
  phase := trivial

/-- Follow prints each line once and in order in every run in which no stream has lines older than
`since` and no line expires before it has been printed. -/
theorem run_exactlyOnce (h : (machine options).Run (Fits options) {} t) : t.ExactlyOnce options := by
  have hsound : t.Sound options :=
    h.invariant (fun _ _ _ hs hfits hstep => hs.step hfits hstep) (sound_initial options)
  exact hsound.exactlyOnce

def sampleLine (sequence : ℕ) (timestamp : Instant) : LogLine := ⟨sequence, timestamp, .stdout, "x"⟩

def sinceFive : FollowOptions := ⟨100, some 5⟩

/-- The stream loses a line, which the next page has. -/
theorem lostLine_exactlyOnce : ∃ t, (machine sinceFive).Run (Fits sinceFive) {} t ∧
    t.printer.printed.map LogLine.sequence = [2, 3, 4] ∧ t.ExactlyOnce sinceFive := by
  obtain ⟨t, hrun, hp⟩ := Machine.exists_run_of_execUnder (M := machine sinceFive)
    (C := Fits sinceFive) (s := {})
    (fun t => t.printer.printed.map LogLine.sequence = [2, 3, 4])
    [.publish (sampleLine 1 4), .publish (sampleLine 2 5), .serve, .receivePage, .connect,
      .publish (sampleLine 3 6), .lag 1, .receiveFrame, .publish (sampleLine 4 7), .serve,
      .receivePage] (by decide +kernel)
  exact ⟨t, hrun, of_decide_eq_true hp, run_exactlyOnce hrun⟩

/-- All lines are older than `since`; the first page is empty, and the stream has them all. -/
theorem oldLine_printed :
    ∃ t, (machine sinceFive).Reaches {} t ∧ ¬t.ExactlyOnce sinceFive := by
  obtain ⟨t, hrun, hp⟩ := Machine.exists_reaches_of_exec (M := machine sinceFive) (s := {})
    (fun t => t.printer.printed = [sampleLine 1 4])
    [.publish (sampleLine 1 4), .serve, .receivePage, .connect, .send, .receiveFrame]
    (by decide +kernel)
  refine ⟨t, hrun, fun honce => ?_⟩
  have hprinted := of_decide_eq_true hp
  cases honce.fresh (sampleLine 1 4) (hprinted ▸ List.mem_singleton_self _)

/-- The numbered lines that have been printed ascend up to the cursor. -/
def Once (p : Printer) : Prop := Written LogLine.sequence p.lastSequence p.printed

theorem once_consumeGap (isInitial : Bool) (h : Once p) (toSkip : ℕ) :
    Once (consumeGap isInitial toSkip p lines) := by
  induction lines generalizing p toSkip with
  | nil => exact h
  | cons line lines ih =>
    have hpass : Once (p.advance line) := h.mono (Nat.le_max_left ..)
    unfold consumeGap
    split
    · rename_i hnew
      have hprint : Once (p.print line) := h.concat (Printer.isNew_iff.mp hnew)
      split
      · exact ih hpass toSkip
      · split
        · exact ih hpass (toSkip - 1)
        · exact ih hprint toSkip
    · exact ih h toSkip

theorem once_step {e : FollowLogsEvent} (h : Once s.printer) (hstep : s.step options e = some t) :
    Once t.printer := by
  have hdrain (lines : List LogLine) : Once (drainFollowLogPage s.printer lines) :=
    consumeGap_false_zero ▸ once_consumeGap false h 0
  have hgap (answer : Answer) : Once (s.receiveGap options answer).printer := by
    unfold receiveGap
    split
    · exact h
    · exact once_consumeGap _ h _
  have htext (socket : Socket) (frame : Frame) (frames : List Frame) (next : FollowPhase) :
      Once (s.receiveText socket frame frames next).printer := by
    cases frame with
    | line line => exact hdrain [line]
    | dropped | other => exact h
  unfold step at hstep
  repeat' split at hstep
  all_goals cases hstep
  all_goals first | exact h | exact hgap _ | exact hdrain _ | exact htext ..

/-- No numbered line is printed twice or out of order. -/
theorem run_once (h : (machine options).Reaches {} t) : Once t.printer := by
  have hstart : Once {} := ⟨List.Pairwise.nil, fun _ ha => absurd ha List.not_mem_nil⟩
  exact h.invariant (I := fun s => Once s.printer)
    (fun _ _ _ hs _ hstep => once_step hs hstep) hstart

theorem oldLine_once : ∃ t, (machine sinceFive).Reaches {} t ∧
    t.printer.printed = [sampleLine 1 4] ∧ Once t.printer := by
  obtain ⟨t, hrun, hp⟩ := Machine.exists_reaches_of_exec (M := machine sinceFive) (s := {})
    (fun t => t.printer.printed = [sampleLine 1 4])
    [.publish (sampleLine 1 4), .serve, .receivePage, .connect, .send, .receiveFrame]
    (by decide +kernel)
  exact ⟨t, hrun, of_decide_eq_true hp, run_once hrun⟩

end FollowLogs

end Cli

end Supervisor
