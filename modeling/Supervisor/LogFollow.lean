import Supervisor.CursorReading
import Supervisor.Journal

namespace Supervisor

namespace Cli

structure FollowOptions where
  tail : ℕ
  since : Option Instant

/-- Not older than `since`. -/
def FollowOptions.isFresh (options : FollowOptions) (line : LogLine) : Bool :=
  options.since.all fun since => since ≤ line.timestamp

/-- What follow has printed, and its cursor. -/
structure Printer where
  lastSequence : ℕ := 0
  printed : List LogLine := []
deriving DecidableEq

namespace Printer

def isNew (p : Printer) (line : LogLine) : Bool :=
  line.sequence = 0 || p.lastSequence < line.sequence

/-- Pass a line without printing it. -/
def advance (p : Printer) (line : LogLine) : Printer :=
  { p with lastSequence := max p.lastSequence line.sequence }

def print (p : Printer) (line : LogLine) : Printer :=
  { p.advance line with printed := p.printed ++ [line] }

def consume (p : Printer) (line : LogLine) : Printer := if p.isNew line then p.print line else p

end Printer

inductive Frame where
  | line (line : LogLine)
  /-- `log.dropped` -/
  | dropped
  /-- A frame without a line. -/
  | other
deriving DecidableEq

/-- The cursor after a frame, and whether it asks for recovery. -/
def consumeFollowText (p : Printer) : Frame → Printer × Bool
  | .line line => (p.consume line, false)
  | .dropped => (p, true)
  | .other => (p, false)

/-- The loop over the lines of a page; the initial page leaves out metadata and the lines that the
request could not leave out. -/
def consumeGap (isInitialSnapshot : Bool) : ℕ → Printer → List LogLine → Printer
  | _, p, [] => p
  | toSkip, p, line :: lines =>
    if p.isNew line then
      if isInitialSnapshot && line.stream = .system then
        consumeGap isInitialSnapshot toSkip (p.advance line) lines
      else if 0 < toSkip then consumeGap isInitialSnapshot (toSkip - 1) (p.advance line) lines
      else consumeGap isInitialSnapshot toSkip (p.print line) lines
    else consumeGap isInitialSnapshot toSkip p lines

def drainFollowLogPage (p : Printer) (lines : List LogLine) : Printer := lines.foldl .consume p

/-- The answer to a request for a page. -/
structure Answer where
  page : LogTail
  /-- The last line that was published then. -/
  served : ℕ
deriving DecidableEq

/-- A log stream from the server. -/
structure Socket where
  /-- Not sent yet. -/
  pending : List LogLine
  /-- Sent, and not read yet. -/
  frames : List Frame := []
deriving DecidableEq

inductive FollowError where
  | truncated
  | other
deriving DecidableEq

inductive FollowPhase where
  | requesting (answer : Option Answer)
  | sleeping
  | connecting
  | streaming (socket : Socket)
  /-- After Ctrl-C. -/
  | drainConnecting
  | drainStreaming (socket : Socket)
  | drainRequesting (answer : Option Answer)
  | returned
  | failed (error : FollowError)
deriving DecidableEq

def FollowPhase.socket? : FollowPhase → Option Socket
  | .streaming socket | .drainStreaming socket => some socket
  | _ => none

/-- Change the open stream. -/
def FollowPhase.withSocket (f : Socket → Socket) : FollowPhase → FollowPhase
  | .streaming socket => .streaming (f socket)
  | .drainStreaming socket => .drainStreaming (f socket)
  | phase => phase

/-- `follow_logs` and the server. -/
structure FollowLogs where
  published : List LogLine := []
  /-- The retention has discarded the lines up to here. -/
  expired : ℕ := 0
  phase : FollowPhase := .requesting none
  printer : Printer := {}
  isInitialSnapshot : Bool := true
  backoffMs : ℕ := 100
  /-- The last line that was published when the first snapshot was taken. -/
  first : Option ℕ := none
  /-- The last line that was published when a page was taken that has been read since. -/
  answered : ℕ := 0

inductive FollowLogsEvent where
  | publish (line : LogLine)
  | expire (upTo : ℕ)
  /-- The server takes the page. -/
  | serve
  | receivePage
  | requestFails
  | connect
  | connectFails
  | send
  /-- The stream has lost lines and reports it. -/
  | lag (count : ℕ)
  | sendOther
  | receiveFrame
  /-- The stream ends, or is silent for too long after Ctrl-C. -/
  | streamEnds
  | wake
  | interrupt
  /-- Every other error that ends the command. -/
  | fail

namespace FollowLogs

variable (options : FollowOptions)

def highWatermark (s : FollowLogs) : ℕ := (s.published.map LogLine.sequence).foldr max 0

def retained (s : FollowLogs) : List LogLine :=
  s.published.filter fun line => s.expired < line.sequence

/-- The limit of a request. -/
def snapshotTail (s : FollowLogs) : ℕ :=
  if s.isInitialSnapshot ∧ options.tail ≤ 10000 then options.tail else 0

/-- The page that answers a request after the cursor. -/
def logPage (s : FollowLogs) (tail : ℕ) : LogTail :=
  snapshot s.retained ⟨tail, options.since, some s.printer.lastSequence⟩ s.highWatermark
    (s.retained.head?.map LogLine.sequence)

/-- A stream after the cursor; the request has no `since`. -/
def openSocket (s : FollowLogs) : Socket :=
  { pending := s.retained.filter (⟨0, none, some s.printer.lastSequence⟩ : TailQuery).selects }

def initialOutputToSkip (s : FollowLogs) (page : LogTail) : ℕ :=
  if s.isInitialSnapshot ∧ 10000 < options.tail then
    (page.lines.filter (·.stream ≠ .system)).length - options.tail
  else 0

/-- Ctrl-C or an error ends the loop; without an initial page there is no first snapshot. -/
def leave (s : FollowLogs) (phase : FollowPhase) : FollowLogs :=
  { s with phase, first := if s.isInitialSnapshot then none else s.first }

def receiveGap (s : FollowLogs) (answer : Answer) : FollowLogs :=
  if !s.isInitialSnapshot && answer.page.truncated then { s with phase := .failed .truncated }
  else
    { s with
      printer := consumeGap s.isInitialSnapshot (s.initialOutputToSkip options answer.page)
        s.printer answer.page.lines
      isInitialSnapshot := false
      answered := max s.answered answer.served
      phase := .connecting }

def receiveDrain (s : FollowLogs) (answer : Answer) : FollowLogs :=
  { s with
    printer := drainFollowLogPage s.printer answer.page.lines
    answered := max s.answered answer.served
    phase := .returned }

/-- Read the next frame; `recovering` is where a report of lost lines leads. -/
def receiveText (s : FollowLogs) (socket : Socket) (frame : Frame) (frames : List Frame)
    (recovering : FollowPhase) : FollowLogs :=
  let (printer, recover) := consumeFollowText s.printer frame
  { s with
    printer
    phase := if recover then recovering else s.phase.withSocket fun _ => { socket with frames } }

def step (s : FollowLogs) : FollowLogsEvent → Option FollowLogs
  | .publish line =>
    if line.sequence = 0 ∨ s.highWatermark < line.sequence then
      some { s with
        published := s.published ++ [line]
        phase := s.phase.withSocket fun socket =>
          { socket with pending := socket.pending ++ [line] } }
    else none
  | .expire upTo =>
    if upTo ≤ s.highWatermark then some { s with expired := max s.expired upTo } else none
  | .serve =>
    match s.phase with
    | .requesting none => some { s with
        phase := .requesting (some ⟨s.logPage options (s.snapshotTail options), s.highWatermark⟩)
        first := if s.isInitialSnapshot then some s.highWatermark else s.first }
    | .drainRequesting none => some { s with
        phase := .drainRequesting (some ⟨s.logPage options 0, s.highWatermark⟩) }
    | _ => none
  | .receivePage =>
    match s.phase with
    | .requesting (some answer) => some (s.receiveGap options answer)
    | .drainRequesting (some answer) => some (s.receiveDrain answer)
    | _ => none
  | .requestFails =>
    match s.phase with
    | .requesting _ => some (s.leave .sleeping)
    | .drainRequesting _ => some { s with phase := .returned }
    | _ => none
  | .connect =>
    match s.phase with
    | .connecting => some { s with phase := .streaming s.openSocket, backoffMs := 100 }
    | .drainConnecting => some { s with phase := .drainStreaming s.openSocket }
    | _ => none
  | .connectFails =>
    match s.phase with
    | .connecting => some { s with phase := .sleeping }
    | .drainConnecting => some { s with phase := .drainRequesting none }
    | _ => none
  | .send =>
    match s.phase.socket? with
    | some ⟨line :: pending, frames⟩ =>
      some { s with phase := s.phase.withSocket fun _ => ⟨pending, frames ++ [.line line]⟩ }
    | _ => none
  | .lag count =>
    match s.phase.socket? with
    | some ⟨pending, frames⟩ => some { s with
        phase := s.phase.withSocket fun _ => ⟨pending.drop count, frames ++ [.dropped]⟩ }
    | none => none
  | .sendOther =>
    match s.phase.socket? with
    | some ⟨pending, frames⟩ =>
      some { s with phase := s.phase.withSocket fun _ => ⟨pending, frames ++ [.other]⟩ }
    | none => none
  | .receiveFrame =>
    match s.phase with
    | .streaming ⟨pending, frame :: frames⟩ =>
      some (s.receiveText ⟨pending, frame :: frames⟩ frame frames (.requesting none))
    | .drainStreaming ⟨pending, frame :: frames⟩ =>
      some (s.receiveText ⟨pending, frame :: frames⟩ frame frames (.drainRequesting none))
    | _ => none
  | .streamEnds =>
    match s.phase with
    | .streaming _ => some { s with phase := .sleeping }
    | .drainStreaming _ => some { s with phase := .drainRequesting none }
    | _ => none
  | .wake =>
    match s.phase with
    | .sleeping => some { s with
        phase := .requesting none
        backoffMs := min (s.backoffMs * 2) 2000 }
    | _ => none
  | .interrupt =>
    match s.phase with
    | .requesting _ | .sleeping | .connecting => some (s.leave .drainConnecting)
    | .streaming socket => some { s with phase := .drainStreaming socket }
    | _ => none
  | .fail =>
    match s.phase with
    | .requesting _ | .sleeping | .connecting | .streaming _ | .drainConnecting =>
      some (s.leave (.failed .other))
    | _ => none

def machine : Machine FollowLogs FollowLogsEvent where
  step s := s.step options

/-- Published after the first snapshot and not older than `since`. -/
def Due (s : FollowLogs) (line : LogLine) : Prop :=
  line ∈ s.published ∧ s.first.any (· < line.sequence) ∧ options.isFresh line

instance (s : FollowLogs) (line : LogLine) : Decidable (s.Due options line) :=
  inferInstanceAs (Decidable (_ ∧ _ ∧ _))

/-- What follow prints. -/
structure ExactlyOnce (s : FollowLogs) : Prop where
  increasing : ((s.printer.printed.map LogLine.sequence).filter (0 < ·)).Pairwise (· < ·)
  /-- Nothing is left out below the cursor, or of what was published when a page was taken. -/
  complete : ∀ line, s.Due options line →
    line.sequence ≤ max s.printer.lastSequence s.answered → line ∈ s.printer.printed
  /-- Nothing is left out of a stream that has been read. -/
  caughtUp : s.phase.socket? = some ⟨[], []⟩ →
    ∀ line, s.Due options line → line ∈ s.printer.printed
  fresh : ∀ line ∈ s.printer.printed, options.isFresh line
  /-- The loop does not give up by itself. -/
  goesOn : s.phase ≠ .failed .truncated

/-- A stream is opened where no line above the cursor is older than `since`. -/
def mayConnect (s : FollowLogs) : Bool := s.openSocket.pending.all options.isFresh

/-- While a stream is open no line is published that is older than `since`. -/
def mayPublish (s : FollowLogs) (line : LogLine) : Bool :=
  s.phase.socket?.isNone || options.isFresh line

/-- No line expires before it has been printed. -/
def mayExpire (s : FollowLogs) (upTo : ℕ) : Bool :=
  s.published.all fun line => !(s.Due options line) || upTo < line.sequence ||
    line.sequence ≤ s.printer.lastSequence

def Fits (s : FollowLogs) : FollowLogsEvent → Prop
  | .connect => s.mayConnect options = true
  | .publish line => s.mayPublish options line = true
  | .expire upTo => s.mayExpire options upTo = true
  | _ => True

instance (s : FollowLogs) (e : FollowLogsEvent) : Decidable (s.Fits options e) := by
  cases e with
  | connect => exact decEq (s.mayConnect options) true
  | publish line => exact decEq (s.mayPublish options line) true
  | expire upTo => exact decEq (s.mayExpire options upTo) true
  | _ => exact isTrue trivial

end FollowLogs

end Cli

end Supervisor
