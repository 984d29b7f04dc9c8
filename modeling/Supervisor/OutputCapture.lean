import Supervisor.JournalRows
import Supervisor.LineSplit
import Supervisor.Machine

namespace Supervisor

namespace OutputCapture

open LineSplit (lines firstLine IsLine decodable OnePerLine)

def lineFeed : UInt8 := 10

/-- What `next_line` takes off the end of a line that it has read -/
def chomp (text : List Char) : List Char :=
  if text.getLast? = some '\n' then stripReturn text.dropLast else text

/-- The text of a line; a line that is not valid UTF-8 has none. -/
def lineText (line : List UInt8) : Option String :=
  (ByteArray.mk line.toArray).utf8Decode?.map fun text => String.ofList (chomp text.toList)

/-- A pipe of the child, and the pump that reads it -/
structure Pump where
  /-- All that the child has written -/
  written : List UInt8 := []
  pipe : List UInt8 := []
  isOpen : Bool := true
  /-- What has been read from the pipe and is not taken yet -/
  buffer : List UInt8 := []
  isRunning : Bool := true

/-- What `next_line` answers; it waits when it has neither a line nor the end of the file. -/
inductive NextLine where
  | waits
  | endOfFile
  | text (text : String) (rest : List UInt8)
  | invalid (rest : List UInt8)

namespace Pump

def write (p : Pump) (bytes : List UInt8) : Option Pump :=
  if p.isOpen then some { p with written := p.written ++ bytes, pipe := p.pipe ++ bytes } else none

/-- One `read`, which gives what it wants of the pipe -/
def read (p : Pump) (count : ℕ) : Option Pump :=
  if p.isRunning then
    some { p with pipe := p.pipe.drop count, buffer := p.buffer ++ p.pipe.take count }
  else none

def decode (line rest : List UInt8) : NextLine :=
  match lineText line with
  | some text => .text text rest
  | none => .invalid rest

def nextLine (p : Pump) : NextLine :=
  match firstLine lineFeed p.buffer with
  | some (line, rest) => decode line rest
  | none =>
    if p.isOpen || p.pipe ≠ [] then .waits
    else if p.buffer = [] then .endOfFile
    else decode p.buffer []

end Pump

structure CapturedLine where
  stream : LogStream
  timestamp : Instant
  line : String
deriving DecidableEq

structure Capture where
  stdout : Pump := {}
  stderr : Pump := {}
  /-- The lines that the pumps of the proxy have sent -/
  channel : List (LogStream × String) := []
  journal : List CapturedLine := []

inductive CaptureEvent where
  | write (stream : LogStream) (bytes : List UInt8)
  | close (stream : LogStream)
  | read (stream : LogStream) (count : ℕ)
  /-- One turn of the loop of a pump -/
  | turn (stream : LogStream) (now : Instant)
  /-- The proxy appends a line. -/
  | append (now : Instant)

namespace Capture

def pump (s : Capture) : LogStream → Option Pump
  | .stdout => some s.stdout
  | .stderr => some s.stderr
  | .system => none

def setPump (s : Capture) (stream : LogStream) (pump : Pump) : Capture :=
  match stream with
  | .stdout => { s with stdout := pump }
  | .stderr => { s with stderr := pump }
  | .system => s

/-- A turn of a loop that goes on while there is a text; `deliver` may have to wait. -/
def turn (deliver : Capture → LogStream → String → Option Capture) (s : Capture) (stream : LogStream)
    (p : Pump) : Option Capture :=
  if p.isRunning then
    match p.nextLine with
    | .waits => none
    | .text text rest => deliver (s.setPump stream { p with buffer := rest }) stream text
    | .endOfFile => some (s.setPump stream { p with isRunning := false })
    | .invalid rest => some (s.setPump stream { p with buffer := rest, isRunning := false })
  else none

/-- `pump` of the daemon, whose sink takes each line -/
def daemonPump (s : Capture) (stream : LogStream) (now : Instant) : Pump → Option Capture :=
  turn (fun s stream text => some { s with journal := s.journal ++ [⟨stream, now, text⟩] }) s stream

def proxyChannelCapacity : ℕ := 256

/-- `pump` of the proxy, which sends to its channel -/
def proxyPump (s : Capture) (stream : LogStream) : Pump → Option Capture :=
  turn (fun s stream text =>
    if s.channel.length < proxyChannelCapacity then
      some { s with channel := s.channel ++ [(stream, text)] }
    else none) s stream

/-- `append` of the proxy -/
def append (s : Capture) (now : Instant) : Option Capture :=
  match s.channel with
  | [] => none
  | (stream, text) :: channel =>
    some { s with channel, journal := s.journal ++ [⟨stream, now, text⟩] }

/-- Which program captures the output -/
inductive Capturer where
  | daemon | proxy
deriving DecidableEq

def step (capturer : Capturer) (s : Capture) : CaptureEvent → Option Capture
  | .write stream bytes =>
    (s.pump stream).bind fun p => (p.write bytes).map (s.setPump stream)
  | .close stream => (s.pump stream).map fun p => s.setPump stream { p with isOpen := false }
  | .read stream count =>
    (s.pump stream).bind fun p => (p.read count).map (s.setPump stream)
  | .turn stream now =>
    match capturer with
    | .daemon => (s.pump stream).bind (s.daemonPump stream now)
    | .proxy => (s.pump stream).bind (s.proxyPump stream)
  | .append now =>
    match capturer with
    | .daemon => none
    | .proxy => s.append now

def machine (capturer : Capturer) : Machine Capture CaptureEvent where
  step := step capturer

/-- The texts that have been recorded of a stream -/
def texts (s : Capture) (stream : LogStream) : List String :=
  (s.journal.filter fun row => row.stream = stream).map CapturedLine.line

/-- The texts that have been taken of a stream: they are recorded or on their way. -/
def taken (s : Capture) (stream : LogStream) : List String :=
  s.texts stream ++ (s.channel.filter fun row => row.1 = stream).map Prod.snd

end Capture

/-! What has been taken of a pipe. -/

/-- Where a pump stands with the lines it has taken: it reads on, it has had all, or it has stopped
at a line that has no text, which may be the last one. -/
inductive Standing (p : Pump) (done : List (List UInt8)) : Prop
  | reading (running : p.isRunning = true) (complete : ∀ l ∈ done, IsLine lineFeed l)
      (bytes : p.written = done.flatten ++ (p.buffer ++ p.pipe))
  | finished (closed : p.isOpen = false) (pipe : p.pipe = []) (buffer : p.buffer = [])
      (all : lines lineFeed p.written = done)
  | stopped (bad : List UInt8) (ended : p.isRunning = false) (invalid : lineText bad = none)
      (complete : ∀ l ∈ done ++ [bad], IsLine lineFeed l)
      (bytes : (done ++ [bad]).flatten <+: p.written)
  | stoppedLast (bad : List UInt8) (ended : p.isRunning = false) (closed : p.isOpen = false)
      (invalid : lineText bad = none) (all : lines lineFeed p.written = done ++ [bad])

/-- The texts are those of the lines that a pump has taken. -/
def Recorded (p : Pump) (texts : List String) : Prop :=
  ∃ done, done.map lineText = texts.map some ∧ Standing p done

namespace Pump

variable {p q : Pump} {bytes line rest : List UInt8} {count : ℕ} {text : String}
  {texts : List String}

theorem recorded_write (h : Recorded p texts) (hwrite : p.write bytes = some q) :
    Recorded q texts := by
  unfold write at hwrite
  split at hwrite
  · rename_i hopen
    cases hwrite
    obtain ⟨done, htexts, hstanding⟩ := h
    refine ⟨done, htexts, ?_⟩
    cases hstanding with
    | reading running complete bytes =>
      refine .reading running complete ?_
      dsimp only
      rw [bytes]
      simp only [List.append_assoc]
    | finished closed =>
      rw [hopen] at closed
      cases closed
    | stopped bad ended invalid complete bytes =>
      exact .stopped bad ended invalid complete (bytes.trans (List.prefix_append _ _))
    | stoppedLast bad ended closed =>
      rw [hopen] at closed
      cases closed
  · cases hwrite

theorem recorded_close (h : Recorded p texts) : Recorded { p with isOpen := false } texts := by
  obtain ⟨done, htexts, hstanding⟩ := h
  refine ⟨done, htexts, ?_⟩
  cases hstanding with
  | reading running complete bytes => exact .reading running complete bytes
  | finished closed pipe buffer all => exact .finished rfl pipe buffer all
  | stopped bad ended invalid complete bytes => exact .stopped bad ended invalid complete bytes
  | stoppedLast bad ended closed invalid all => exact .stoppedLast bad ended rfl invalid all

theorem recorded_read (h : Recorded p texts) (hread : p.read count = some q) :
    Recorded q texts := by
  unfold read at hread
  split at hread
  · rename_i hrunning
    cases hread
    obtain ⟨done, htexts, hstanding⟩ := h
    refine ⟨done, htexts, ?_⟩
    cases hstanding with
    | reading running complete bytes =>
      refine .reading running complete ?_
      dsimp only
      rw [bytes, List.append_assoc, List.take_append_drop]
    | finished closed pipe buffer all =>
      refine .finished closed ?_ ?_ all
      · dsimp only
        rw [pipe, List.drop_nil]
      · dsimp only
        rw [pipe, buffer, List.take_nil, List.append_nil]
    | stopped bad ended =>
      rw [hrunning] at ended
      cases ended
    | stoppedLast bad ended =>
      rw [hrunning] at ended
      cases ended
  · cases hread

/-- A line that the pump takes: one with its line feed, or what is left at the end of the file -/
def Takes (p : Pump) (line rest : List UInt8) : Prop :=
  p.buffer = line ++ rest ∧ (IsLine lineFeed line ∨
    (p.isOpen = false ∧ p.pipe = [] ∧ rest = [] ∧ lineFeed ∉ line ∧ line ≠ []))

theorem decode_eq_text {rest' : List UInt8} (h : decode line rest = .text text rest') :
    lineText line = some text ∧ rest' = rest := by
  unfold decode at h
  split at h
  · rename_i text' htext
    cases h
    exact ⟨htext, rfl⟩
  · cases h

theorem decode_eq_invalid {rest' : List UInt8} (h : decode line rest = .invalid rest') :
    lineText line = none ∧ rest' = rest := by
  unfold decode at h
  split at h
  · cases h
  · rename_i hnone
    cases h
    exact ⟨hnone, rfl⟩

/-- `next_line` waits, is at the end of the file, or takes a line. -/
theorem nextLine_cases (p : Pump) :
    (p.nextLine = .waits ∧ (p.isOpen = true ∨ p.pipe ≠ [])) ∨
    (p.nextLine = .endOfFile ∧ p.isOpen = false ∧ p.pipe = [] ∧ p.buffer = []) ∨
      ∃ line rest, p.nextLine = decode line rest ∧ p.Takes line rest := by
  unfold nextLine
  cases hfirst : firstLine lineFeed p.buffer with
  | some parts =>
    obtain ⟨hbytes, hline⟩ := @LineSplit.firstLine_eq_some _ _ _ parts.1 parts.2 _ hfirst
    exact Or.inr (Or.inr ⟨parts.1, parts.2, rfl, hbytes, Or.inl hline⟩)
  | none =>
    dsimp only
    by_cases hmore : (p.isOpen || decide (p.pipe ≠ [])) = true
    · rw [if_pos hmore]
      rw [Bool.or_eq_true, decide_eq_true_eq] at hmore
      exact Or.inl ⟨rfl, hmore⟩
    · rw [if_neg hmore]
      rw [Bool.or_eq_true, decide_eq_true_eq, not_or, Bool.not_eq_true, not_not] at hmore
      obtain ⟨hclosed, hpipe⟩ := hmore
      right
      by_cases hbuffer : p.buffer = []
      · rw [if_pos hbuffer]
        exact Or.inl ⟨rfl, hclosed, hpipe, hbuffer⟩
      · rw [if_neg hbuffer]
        exact Or.inr ⟨p.buffer, [], rfl, (List.append_nil _).symm,
          Or.inr ⟨hclosed, hpipe, rfl, LineSplit.firstLine_eq_none hfirst, hbuffer⟩⟩

/-- A pump that takes a line has been reading. -/
theorem standing_takes {done : List (List UInt8)} (h : Standing p done) (hrunning : p.isRunning = true)
    (htakes : p.Takes line rest) : (∀ l ∈ done, IsLine lineFeed l) ∧
      p.written = done.flatten ++ (line ++ rest ++ p.pipe) := by
  cases h with
  | reading running complete bytes =>
    rw [htakes.1] at bytes
    exact ⟨complete, bytes⟩
  | finished closed pipe buffer all =>
    obtain ⟨hbytes, hline | ⟨_, _, _, _, hne⟩⟩ := htakes
    · obtain ⟨init, rfl, _⟩ := hline
      rw [buffer] at hbytes
      simp at hbytes
    · rw [buffer] at hbytes
      exact absurd (List.append_eq_nil_iff.mp hbytes.symm).1 hne
  | stopped bad ended =>
    rw [hrunning] at ended
    cases ended
  | stoppedLast bad ended =>
    rw [hrunning] at ended
    cases ended

theorem lines_last {done : List (List UInt8)} (hcomplete : ∀ l ∈ done, IsLine lineFeed l)
    (hbytes : p.written = done.flatten ++ (line ++ rest ++ p.pipe)) (hpipe : p.pipe = [])
    (hrest : rest = []) (hnot : lineFeed ∉ line) (hne : line ≠ []) :
    lines lineFeed p.written = done ++ [line] := by
  rw [hbytes, hpipe, hrest, List.append_nil, List.append_nil,
    LineSplit.lines_flatten_append hcomplete, LineSplit.lines_of_not_mem hnot hne]

theorem recorded_text (h : Recorded p texts) (hrunning : p.isRunning = true)
    (htakes : p.Takes line rest) (htext : lineText line = some text) :
    Recorded { p with buffer := rest } (texts ++ [text]) := by
  obtain ⟨done, htexts, hstanding⟩ := h
  obtain ⟨hcomplete, hbytes⟩ := standing_takes hstanding hrunning htakes
  refine ⟨done ++ [line], ?_, ?_⟩
  · rw [List.map_append, List.map_append, htexts, List.map_singleton, htext]
    rfl
  · rcases htakes.2 with hline | ⟨hclosed, hpipe, hrest, hnot, hne⟩
    · refine .reading hrunning ?_ ?_
      · intro l hl
        rcases List.mem_append.mp hl with hl | hl
        · exact hcomplete l hl
        · rw [List.mem_singleton.mp hl]
          exact hline
      · dsimp only
        rw [hbytes]
        simp only [List.flatten_append, List.flatten_singleton, List.append_assoc]
    · exact .finished hclosed hpipe hrest (lines_last hcomplete hbytes hpipe hrest hnot hne)

theorem recorded_invalid (h : Recorded p texts) (hrunning : p.isRunning = true)
    (htakes : p.Takes line rest) (htext : lineText line = none) :
    Recorded { p with buffer := rest, isRunning := false } texts := by
  obtain ⟨done, htexts, hstanding⟩ := h
  obtain ⟨hcomplete, hbytes⟩ := standing_takes hstanding hrunning htakes
  refine ⟨done, htexts, ?_⟩
  rcases htakes.2 with hline | ⟨hclosed, hpipe, hrest, hnot, hne⟩
  · refine .stopped line rfl htext ?_ ?_
    · intro l hl
      rcases List.mem_append.mp hl with hl | hl
      · exact hcomplete l hl
      · rw [List.mem_singleton.mp hl]
        exact hline
    · refine ⟨rest ++ p.pipe, ?_⟩
      dsimp only
      rw [hbytes]
      simp only [List.flatten_append, List.flatten_singleton, List.append_assoc]
  · exact .stoppedLast line rfl hclosed htext (lines_last hcomplete hbytes hpipe hrest hnot hne)

theorem recorded_endOfFile (h : Recorded p texts) (hrunning : p.isRunning = true)
    (hclosed : p.isOpen = false) (hpipe : p.pipe = []) (hbuffer : p.buffer = []) :
    Recorded { p with isRunning := false } texts := by
  obtain ⟨done, htexts, hstanding⟩ := h
  refine ⟨done, htexts, .finished hclosed hpipe hbuffer ?_⟩
  cases hstanding with
  | reading running complete bytes =>
    dsimp only
    rw [bytes, hbuffer, hpipe, LineSplit.lines_flatten_append complete]
    exact List.append_nil done
  | finished closed pipe buffer all => exact all
  | stopped bad ended =>
    rw [hrunning] at ended
    cases ended
  | stoppedLast bad ended =>
    rw [hrunning] at ended
    cases ended

theorem decodable_stopped {done : List (List UInt8)} {bad : List UInt8}
    (htexts : done.map lineText = texts.map some) (hbad : lineText bad = none)
    (more : List (List UInt8)) : decodable lineText (done ++ [bad] ++ more) = texts := by
  rw [List.append_assoc, LineSplit.decodable_append htexts]
  have hnone : decodable lineText ([bad] ++ more) = [] := by
    rw [List.singleton_append]
    unfold decodable
    rw [hbad]
  rw [hnone, List.append_nil]

/-- A pump that has ended has recorded the lines up to the first one that has no text. -/
theorem recorded_ended (h : Recorded p texts) (hended : p.isRunning = false) :
    texts = decodable lineText (lines lineFeed p.written) := by
  obtain ⟨done, htexts, hstanding⟩ := h
  cases hstanding with
  | reading running =>
    rw [hended] at running
    cases running
  | finished closed pipe buffer all =>
    have hall := LineSplit.decodable_append htexts []
    rw [List.append_nil] at hall
    rw [all, hall]
    exact (List.append_nil texts).symm
  | stopped bad ended invalid complete bytes =>
    obtain ⟨more, hmore⟩ := bytes
    rw [← hmore, LineSplit.lines_flatten_append complete, decodable_stopped htexts invalid]
  | stoppedLast bad ended closed invalid all =>
    have hstopped := decodable_stopped htexts invalid []
    rw [List.append_nil] at hstopped
    rw [all, hstopped]

/-- A pump ends at the end of the file, or at a line that has no text. -/
theorem recorded_open (h : Recorded p texts) (hended : p.isRunning = false)
    (hvalid : ∀ line ∈ lines lineFeed p.written, (lineText line).isSome = true) :
    p.isOpen = false ∧ p.pipe = [] := by
  have hbad {bad : List UInt8} (hmem : bad ∈ lines lineFeed p.written) (hnone : lineText bad = none) :
      False := by
    have hsome := hvalid bad hmem
    rw [hnone] at hsome
    cases hsome
  obtain ⟨done, htexts, hstanding⟩ := h
  cases hstanding with
  | reading running =>
    rw [hended] at running
    cases running
  | finished closed pipe buffer all => exact ⟨closed, pipe⟩
  | stopped bad ended invalid complete bytes =>
    obtain ⟨more, hmore⟩ := bytes
    refine (hbad ?_ invalid).elim
    rw [← hmore, LineSplit.lines_flatten_append complete]
    exact List.mem_append_left _ (List.mem_append_right _ (List.mem_singleton_self bad))
  | stoppedLast bad ended closed invalid all =>
    refine (hbad ?_ invalid).elim
    rw [all]
    exact List.mem_append_right _ (List.mem_singleton_self bad)

end Pump

namespace Capture

variable {capturer : Capturer} {s t : Capture} {e : CaptureEvent} {stream other : LogStream}
  {p q : Pump} {text : String} {now : Instant}

theorem pump_setPump (h : s.pump stream = some p) : (s.setPump stream q).pump stream = some q := by
  cases stream with
  | stdout | stderr => rfl
  | system => cases h

theorem pump_setPump_ne (hne : other ≠ stream) : (s.setPump stream q).pump other = s.pump other := by
  cases stream with
  | stdout =>
    cases other with
    | stdout => exact absurd rfl hne
    | stderr | system => rfl
  | stderr =>
    cases other with
    | stderr => exact absurd rfl hne
    | stdout | system => rfl
  | system => rfl

theorem taken_setPump : (s.setPump stream q).taken other = s.taken other := by
  cases stream <;> rfl

/-- What holds in every state of a capture -/
structure Sound (capturer : Capturer) (s : Capture) : Prop where
  recorded : ∀ stream p, s.pump stream = some p → Recorded p (s.taken stream)
  direct : capturer = .daemon → s.channel = []

theorem sound_start : Sound capturer {} := by
  refine ⟨fun stream p hp => ?_, fun _ => rfl⟩
  have hstart : Recorded {} [] :=
    ⟨[], rfl, .reading rfl (fun l hl => absurd hl List.not_mem_nil) rfl⟩
  cases stream with
  | stdout | stderr =>
    cases hp
    exact hstart
  | system => cases hp

/-- A pump moves, and another line of its stream is taken, or none. -/
theorem Sound.move (h : Sound capturer s) (hp : s.pump stream = some p)
    (hpumps : ∀ other, t.pump other = (s.setPump stream q).pump other)
    (htaken : ∀ other, other ≠ stream → t.taken other = s.taken other)
    (hrecorded : Recorded q (t.taken stream)) (hdirect : capturer = .daemon → t.channel = []) :
    Sound capturer t := by
  refine ⟨fun other p' hp' => ?_, hdirect⟩
  rw [hpumps other] at hp'
  by_cases heq : other = stream
  · rw [heq] at hp' ⊢
    rw [pump_setPump hp] at hp'
    cases hp'
    exact hrecorded
  · rw [pump_setPump_ne heq] at hp'
    rw [htaken other heq]
    exact h.recorded other p' hp'

theorem Sound.setPump (h : Sound capturer s) (hp : s.pump stream = some p)
    (hrecorded : ∀ texts, Recorded p texts → Recorded q texts) :
    Sound capturer (s.setPump stream q) := by
  refine h.move hp (fun _ => rfl) (fun _ _ => taken_setPump) ?_ fun hdaemon => ?_
  · rw [taken_setPump]
    exact hrecorded _ (h.recorded stream p hp)
  · have hchannel := h.direct hdaemon
    cases stream <;> exact hchannel

/-- A turn of a loop, by what delivering a text does -/
theorem Sound.turn {deliver : Capture → LogStream → String → Option Capture}
    (h : Sound capturer s) (hp : s.pump stream = some p)
    (hdeliver : ∀ s' text t, Sound capturer s → s'.channel = s.channel → s'.journal = s.journal →
      deliver s' stream text = some t → (∀ other, t.pump other = s'.pump other) ∧
        (∀ other, other ≠ stream → t.taken other = s'.taken other) ∧
        t.taken stream = s'.taken stream ++ [text] ∧ (capturer = .daemon → t.channel = []))
    (hturn : Capture.turn deliver s stream p = some t) : Sound capturer t := by
  unfold Capture.turn at hturn
  split at hturn
  · rename_i hrunning
    rcases p.nextLine_cases with ⟨hwaits, _⟩ | ⟨hend, hclosed, hpipe, hbuffer⟩ |
      ⟨line, rest, hdecode, htakes⟩
    · rw [hwaits] at hturn
      cases hturn
    · rw [hend] at hturn
      cases hturn
      exact h.setPump hp fun texts hrecorded =>
        Pump.recorded_endOfFile hrecorded hrunning hclosed hpipe hbuffer
    · rw [hdecode] at hturn
      split at hturn
      · cases hturn
      · rename_i text rest' hdecoded
        obtain ⟨htext, rfl⟩ := Pump.decode_eq_text hdecoded
        have hchannel : (s.setPump stream { p with buffer := rest' }).channel = s.channel := by
          cases stream <;> rfl
        have hjournal : (s.setPump stream { p with buffer := rest' }).journal = s.journal := by
          cases stream <;> rfl
        obtain ⟨hpumps, htaken, hsame, hdirect⟩ := hdeliver _ text t h hchannel hjournal hturn
        refine h.move hp hpumps (fun other hne => ?_) ?_ hdirect
        · rw [htaken other hne, taken_setPump]
        · rw [hsame, taken_setPump]
          exact Pump.recorded_text (h.recorded stream p hp) hrunning htakes htext
      · rename_i hend
        unfold Pump.decode at hend
        split at hend
        · cases hend
        · cases hend
      · rename_i rest' hinvalid
        obtain ⟨htext, rfl⟩ := Pump.decode_eq_invalid hinvalid
        cases hturn
        exact h.setPump hp fun texts hrecorded =>
          Pump.recorded_invalid hrecorded hrunning htakes htext
  · cases hturn

theorem Sound.daemonPump (h : Sound .daemon s) (hp : s.pump stream = some p)
    (hturn : s.daemonPump stream now p = some t) : Sound .daemon t := by
  refine h.turn hp (fun s' text t hs hchannel _ hdeliver => ?_) hturn
  cases hdeliver
  have hempty : s'.channel = [] := hchannel.trans (hs.direct rfl)
  refine ⟨fun other => by cases other <;> rfl, fun other hne => ?_, ?_, fun _ => hempty⟩
  · unfold taken texts
    dsimp only
    rw [List.filter_append]
    simp [hne.symm]
  · unfold taken texts
    dsimp only
    rw [List.filter_append, hempty]
    simp

theorem Sound.proxyPump (h : Sound .proxy s) (hp : s.pump stream = some p)
    (hturn : s.proxyPump stream p = some t) : Sound .proxy t := by
  refine h.turn hp (fun s' text t _ _ _ hdeliver => ?_) hturn
  split at hdeliver
  · cases hdeliver
    refine ⟨fun other => by cases other <;> rfl, fun other hne => ?_, ?_, nofun⟩
    · unfold taken texts
      dsimp only
      rw [List.filter_append]
      simp [hne.symm]
    · unfold taken texts
      dsimp only
      rw [List.filter_append]
      simp
  · cases hdeliver

/-- A line goes from the channel into the journal. -/
theorem Sound.append (h : Sound .proxy s) (happend : s.append now = some t) : Sound .proxy t := by
  unfold Capture.append at happend
  split at happend
  · cases happend
  · rename_i stream text channel hchannel
    cases happend
    refine ⟨fun other p hp => ?_, nofun⟩
    have hrecorded := h.recorded other p (by cases other <;> exact hp)
    have htaken : taken { s with channel, journal := s.journal ++ [⟨stream, now, text⟩] } other =
        s.taken other := by
      unfold taken texts
      dsimp only
      rw [List.filter_append, hchannel]
      by_cases heq : stream = other
      · simp [heq]
      · simp [heq]
    rw [htaken]
    exact hrecorded

theorem Sound.step (h : Sound capturer s) (hstep : s.step capturer e = some t) :
    Sound capturer t := by
  cases e with
  | write stream bytes =>
    obtain ⟨p, hp, hwrite⟩ := Option.bind_eq_some_iff.mp hstep
    obtain ⟨q, hq, rfl⟩ := Option.map_eq_some_iff.mp hwrite
    exact h.setPump hp fun texts hrecorded => Pump.recorded_write hrecorded hq
  | close stream =>
    obtain ⟨p, hp, rfl⟩ := Option.map_eq_some_iff.mp hstep
    exact h.setPump hp fun texts hrecorded => Pump.recorded_close hrecorded
  | read stream count =>
    obtain ⟨p, hp, hread⟩ := Option.bind_eq_some_iff.mp hstep
    obtain ⟨q, hq, rfl⟩ := Option.map_eq_some_iff.mp hread
    exact h.setPump hp fun texts hrecorded => Pump.recorded_read hrecorded hq
  | turn stream now =>
    cases capturer with
    | daemon =>
      obtain ⟨p, hp, hturn⟩ := Option.bind_eq_some_iff.mp hstep
      exact h.daemonPump hp hturn
    | proxy =>
      obtain ⟨p, hp, hturn⟩ := Option.bind_eq_some_iff.mp hstep
      exact h.proxyPump hp hturn
  | append now =>
    cases capturer with
    | daemon => cases hstep
    | proxy => exact h.append hstep

theorem run_sound (hrun : (machine capturer).Reaches {} s) : Sound capturer s :=
  hrun.invariant (fun _ _ _ h _ hstep => h.step hstep) sound_start

/-! The end of a capture. -/

/-- Nothing can be written any more, and all that the pumps have sent is recorded. -/
def IsFinal (s : Capture) : Prop :=
  s.channel = [] ∧ ∀ stream p, s.pump stream = some p → p.isOpen = false ∧ p.isRunning = false

/-- What the child sees of a pipe: what it has written, and whether it can write. -/
def outside (s : Capture) (stream : LogStream) : Option (List UInt8 × Bool) :=
  (s.pump stream).map fun p => (p.written, p.isOpen)

/-- What is left to do for a pump -/
def work (p : Pump) : ℕ :=
  if p.isRunning then 3 * p.pipe.length + 2 * p.buffer.length + 1 else 0

def left (s : Capture) : ℕ := work s.stdout + work s.stderr + s.channel.length

theorem left_setPump (hp : s.pump stream = some p) :
    (s.setPump stream q).left + work p = s.left + work q := by
  cases stream with
  | stdout =>
    cases hp
    unfold left setPump
    dsimp only
    omega
  | stderr =>
    cases hp
    unfold left setPump
    dsimp only
    omega
  | system => cases hp

theorem outside_setPump (hp : s.pump stream = some p) (hwritten : q.written = p.written)
    (hopen : q.isOpen = p.isOpen) (other : LogStream) :
    (s.setPump stream q).outside other = s.outside other := by
  unfold outside
  by_cases heq : other = stream
  · rw [heq, pump_setPump hp, hp, Option.map_some, Option.map_some, hwritten, hopen]
  · rw [pump_setPump_ne heq]

/-- A step of a capturer itself that leaves less to do -/
def Proceeds (capturer : Capturer) (s t : Capture) : Prop :=
  (∃ e, s.step capturer e = some t) ∧ t.left < s.left ∧ ∀ other, t.outside other = s.outside other

theorem Takes.length {line rest : List UInt8} (h : p.Takes line rest) :
    rest.length < p.buffer.length := by
  obtain ⟨hbuffer, hline⟩ := h
  rw [hbuffer, List.length_append]
  have hne : line ≠ [] := by
    rcases hline with ⟨init, rfl, _⟩ | ⟨_, _, _, _, hne⟩
    · exact List.append_ne_nil_of_right_ne_nil init (List.cons_ne_nil _ _)
    · exact hne
  have hpos := List.length_pos_of_ne_nil hne
  omega

/-- A pump that runs on a closed pipe has its turn. -/
theorem exists_turn (hp : s.pump stream = some p) (hrunning : p.isRunning = true)
    (hclosed : p.isOpen = false) (hpipe : p.pipe = []) (hchannel : s.channel = []) :
    ∃ t, Proceeds capturer s t := by
  have hwork : work p = 2 * p.buffer.length + 1 := by
    unfold work
    rw [if_pos hrunning, hpipe, List.length_nil]
    omega
  have hturn (deliver : Capture → LogStream → String → Option Capture)
      (hdeliver : ∀ s' text, s'.channel = [] → ∃ t, deliver s' stream text = some t ∧
        t.left ≤ s'.left + 1 ∧ ∀ other, t.outside other = s'.outside other) :
      ∃ t, Capture.turn deliver s stream p = some t ∧ t.left < s.left ∧
        ∀ other, t.outside other = s.outside other := by
    unfold Capture.turn
    rw [if_pos hrunning]
    have hends (rest : List UInt8) :
        (s.setPump stream { p with buffer := rest, isRunning := false }).left < s.left := by
      have hleft := left_setPump (q := { p with buffer := rest, isRunning := false }) hp
      have hnone : work { p with buffer := rest, isRunning := false } = 0 := rfl
      omega
    rcases p.nextLine_cases with ⟨_, hmore⟩ | ⟨hend, _⟩ | ⟨line, rest, hdecode, htakes⟩
    · rcases hmore with hopen | hne
      · rw [hclosed] at hopen
        cases hopen
      · exact absurd hpipe hne
    · rw [hend]
      exact ⟨_, rfl, hends p.buffer, outside_setPump hp rfl rfl⟩
    · rw [hdecode]
      unfold Pump.decode
      have hshorter := Takes.length htakes
      cases lineText line with
      | none => exact ⟨_, rfl, hends rest, outside_setPump hp rfl rfl⟩
      | some text =>
        have hchannel' : (s.setPump stream { p with buffer := rest }).channel = [] := by
          cases stream <;> exact hchannel
        obtain ⟨t, ht, hleft, houtside⟩ := hdeliver _ text hchannel'
        have hkept := outside_setPump (q := { p with buffer := rest }) hp rfl rfl
        refine ⟨t, ht, ?_, fun other => (houtside other).trans (hkept other)⟩
        have hset := left_setPump (q := { p with buffer := rest }) hp
        have hrest : work { p with buffer := rest } = 2 * rest.length + 1 := by
          unfold work
          dsimp only
          rw [if_pos hrunning, hpipe, List.length_nil]
          omega
        omega
  cases capturer with
  | daemon =>
    obtain ⟨t, ht, hleft, houtside⟩ := hturn (fun s stream text =>
        some { s with journal := s.journal ++ [⟨stream, 0, text⟩] }) fun s' text _ =>
      ⟨{ s' with journal := s'.journal ++ [⟨stream, 0, text⟩] }, rfl, Nat.le_succ _,
        fun other => by cases other <;> rfl⟩
    refine ⟨t, ⟨.turn stream 0, ?_⟩, hleft, houtside⟩
    change (s.pump stream).bind (s.daemonPump stream 0) = some t
    rw [hp]
    exact ht
  | proxy =>
    obtain ⟨t, ht, hleft, houtside⟩ := hturn (fun s stream text =>
        if s.channel.length < proxyChannelCapacity then
          some { s with channel := s.channel ++ [(stream, text)] }
        else none) fun s' text hempty => by
      refine ⟨{ s' with channel := s'.channel ++ [(stream, text)] }, ?_, ?_,
        fun other => by cases other <;> rfl⟩
      · rw [hempty]
        exact if_pos (by decide)
      · unfold left
        dsimp only
        rw [List.length_append, List.length_singleton]
        omega
    refine ⟨t, ⟨.turn stream 0, ?_⟩, hleft, houtside⟩
    change (s.pump stream).bind (s.proxyPump stream) = some t
    rw [hp]
    exact ht

/-- A capturer that is not done can go on when the pipes are closed. -/
theorem exists_proceeds (hsound : Sound capturer s)
    (hclosed : ∀ stream p, s.pump stream = some p → p.isOpen = false) (hnot : ¬ s.IsFinal) :
    ∃ t, Proceeds capturer s t := by
  cases hchannel : s.channel with
  | cons sent channel =>
    obtain ⟨stream, text⟩ := sent
    cases capturer with
    | daemon =>
      rw [hsound.direct rfl] at hchannel
      cases hchannel
    | proxy =>
      refine ⟨{ s with channel, journal := s.journal ++ [⟨stream, 0, text⟩] }, ⟨.append 0, ?_⟩, ?_,
        fun other => by cases other <;> rfl⟩
      · change s.append 0 = _
        unfold Capture.append
        rw [hchannel]
      · unfold left
        dsimp only
        rw [hchannel, List.length_cons]
        omega
  | nil =>
    have hrunning : ∃ stream p, s.pump stream = some p ∧ p.isRunning = true := by
      by_contra hnone
      push Not at hnone
      exact hnot ⟨hchannel, fun stream p hp =>
        ⟨hclosed stream p hp, Bool.eq_false_iff.mpr (hnone stream p hp)⟩⟩
    obtain ⟨stream, p, hp, hrunning⟩ := hrunning
    by_cases hpipe : p.pipe = []
    · exact exists_turn hp hrunning (hclosed stream p hp) hpipe hchannel
    · have hread : p.read p.pipe.length =
          some { p with pipe := [], buffer := p.buffer ++ p.pipe } := by
        unfold Pump.read
        rw [if_pos hrunning, List.drop_length, List.take_length]
      refine ⟨s.setPump stream { p with pipe := [], buffer := p.buffer ++ p.pipe },
        ⟨.read stream p.pipe.length, ?_⟩, ?_, outside_setPump hp rfl rfl⟩
      · change (s.pump stream).bind (fun p' => (p'.read p.pipe.length).map (s.setPump stream)) = _
        rw [hp, Option.bind_some, hread]
        rfl
      · have hleft := left_setPump (q := { p with pipe := [], buffer := p.buffer ++ p.pipe }) hp
        have hpos := List.length_pos_of_ne_nil hpipe
        have hbefore : work p = 3 * p.pipe.length + 2 * p.buffer.length + 1 := if_pos hrunning
        have hafter : work { p with pipe := [], buffer := p.buffer ++ p.pipe } =
            2 * (p.buffer.length + p.pipe.length) + 1 := by
          unfold work
          dsimp only
          rw [if_pos hrunning, List.length_append, List.length_nil]
          omega
        omega

/-- A capture of closed pipes comes to its end. -/
theorem exists_final (hsound : Sound capturer s)
    (hclosed : ∀ stream p, s.pump stream = some p → p.isOpen = false) :
    ∃ t, (machine capturer).Reaches s t ∧ t.IsFinal ∧ ∀ other, t.outside other = s.outside other := by
  induction hleft : s.left using Nat.strongRecOn generalizing s with
  | _ n ih =>
    by_cases hfinal : s.IsFinal
    · exact ⟨s, .refl, hfinal, fun _ => rfl⟩
    · obtain ⟨u, ⟨e, hstep⟩, hless, houtside⟩ := exists_proceeds hsound hclosed hfinal
      have hclosed' : ∀ stream p, u.pump stream = some p → p.isOpen = false := by
        intro stream p hp
        have hsame := houtside stream
        unfold outside at hsame
        rw [hp, Option.map_some] at hsame
        obtain ⟨p', hp', heq⟩ := Option.map_eq_some_iff.mp hsame.symm
        rw [← (Prod.mk.inj heq).2]
        exact hclosed stream p' hp'
      obtain ⟨t, hrun, ht, hsame⟩ := ih u.left (hleft ▸ hless) (hsound.step hstep) hclosed' rfl
      have hfirst : (machine capturer).Reaches s u := .tail e .refl trivial hstep
      exact ⟨t, hfirst.trans hrun, ht, fun other => (hsame other).trans (houtside other)⟩

theorem Sound.final (h : Sound capturer s) (hfinal : s.IsFinal) (hp : s.pump stream = some p) :
    s.texts stream = decodable lineText (lines lineFeed p.written) := by
  have hrecorded := h.recorded stream p hp
  have htaken : s.taken stream = s.texts stream := by
    unfold taken
    rw [hfinal.1]
    exact List.append_nil _
  rw [htaken] at hrecorded
  exact Pump.recorded_ended hrecorded (hfinal.2 stream p hp).2

/-- Both capturers come to their end when the pipes are closed, and have then recorded the texts of
the lines up to the first one that is not valid UTF-8. These are one for each line, and no pump ends
while the child can write, when all lines are valid. -/
theorem output_captured (hrun : (machine capturer).Reaches {} s) :
    ((∀ stream p, s.pump stream = some p → p.isOpen = false) →
      ∃ t, (machine capturer).Reaches s t ∧ t.IsFinal ∧ ∀ other, t.outside other = s.outside other) ∧
    ∀ stream p, s.pump stream = some p →
      (s.IsFinal → s.texts stream = decodable lineText (lines lineFeed p.written) ∧
        (OnePerLine lineText (lines lineFeed p.written) (s.texts stream) ↔
          ∀ line ∈ lines lineFeed p.written, (lineText line).isSome = true)) ∧
      ((∀ line ∈ lines lineFeed p.written, (lineText line).isSome = true) →
        p.isRunning = false → p.isOpen = false ∧ p.pipe = []) := by
  have hsound := run_sound hrun
  refine ⟨exists_final hsound, fun stream p hp => ⟨fun hfinal => ?_, fun hvalid hended => ?_⟩⟩
  · have htexts := hsound.final hfinal hp
    refine ⟨htexts, ?_⟩
    rw [htexts]
    exact LineSplit.onePerLine_decodable_iff
  · exact Pump.recorded_open (hsound.recorded stream p hp) hended hvalid

/-- A line that is not valid, and one that is: the daemon records neither. -/
theorem later_line_dropped : ∃ s, (machine .daemon).Reaches {} s ∧ s.IsFinal ∧
    s.stdout.written = [255, 10, 104, 105, 10] ∧
      ¬ OnePerLine lineText (lines lineFeed s.stdout.written) (s.texts .stdout) := by
  obtain ⟨s, hrun, hp⟩ := Machine.exists_reaches_of_exec (M := machine .daemon) (s := {})
    (fun s => s.channel = [] && !s.stdout.isOpen && !s.stdout.isRunning && !s.stderr.isOpen &&
      !s.stderr.isRunning && s.stdout.written = [255, 10, 104, 105, 10] && s.texts .stdout = [])
    [.write .stdout [255, 10, 104, 105, 10], .read .stdout 5, .turn .stdout 0, .close .stdout,
      .close .stderr, .turn .stderr 0] (by decide +kernel)
  simp only [Bool.and_eq_true, decide_eq_true_eq, Bool.not_eq_true'] at hp
  obtain ⟨⟨⟨⟨⟨⟨hchannel, hout⟩, houtEnded⟩, herr⟩, herrEnded⟩, hwritten⟩, htexts⟩ := hp
  refine ⟨s, hrun, ⟨hchannel, fun stream p hp => ?_⟩, hwritten, ?_⟩
  · cases stream with
    | stdout =>
      cases hp
      exact ⟨hout, houtEnded⟩
    | stderr =>
      cases hp
      exact ⟨herr, herrEnded⟩
    | system => cases hp
  · rw [htexts, hwritten]
    intro h
    cases h

/-- Three lines in two writes, the last without a line feed -/
theorem output_captured_proxy : ∃ s, (machine .proxy).Reaches {} s ∧ s.IsFinal ∧
    s.texts .stdout = ["hi", "", "ok"] ∧
      OnePerLine lineText (lines lineFeed s.stdout.written) (s.texts .stdout) := by
  obtain ⟨s, hrun, hp⟩ := Machine.exists_reaches_of_exec (M := machine .proxy) (s := {})
    (fun s => s.channel = [] && !s.stdout.isOpen && !s.stdout.isRunning && !s.stderr.isOpen &&
      !s.stderr.isRunning && s.texts .stdout = ["hi", "", "ok"] &&
        (lines lineFeed s.stdout.written).all fun line => (lineText line).isSome)
    [.write .stdout [104, 105, 13], .read .stdout 2, .write .stdout [10, 10, 111, 107], .read .stdout 9,
      .turn .stdout 0, .turn .stdout 0, .append 0, .close .stdout, .turn .stdout 0, .turn .stdout 0,
      .append 0, .append 0, .close .stderr, .turn .stderr 0] (by decide +kernel)
  simp only [Bool.and_eq_true, decide_eq_true_eq, Bool.not_eq_true', List.all_eq_true] at hp
  obtain ⟨⟨⟨⟨⟨⟨hchannel, hout⟩, houtEnded⟩, herr⟩, herrEnded⟩, htexts⟩, hvalid⟩ := hp
  have hfinal : s.IsFinal := by
    refine ⟨hchannel, fun stream p hp => ?_⟩
    cases stream with
    | stdout =>
      cases hp
      exact ⟨hout, houtEnded⟩
    | stderr =>
      cases hp
      exact ⟨herr, herrEnded⟩
    | system => cases hp
  exact ⟨s, hrun, hfinal, htexts,
    (((output_captured hrun).2 .stdout s.stdout rfl).1 hfinal).2.mpr hvalid⟩

/-- What has been taken of a stream are the texts of its first lines. -/
def TakesFirst (s : Capture) : Prop :=
  ∀ stream p, s.pump stream = some p → ∃ done, done.map lineText = (s.taken stream).map some ∧
    done <+: lines lineFeed p.written

theorem takes_first (hrun : (machine capturer).Reaches {} s) : s.TakesFirst := by
  intro stream p hp
  obtain ⟨done, htexts, hstanding⟩ := (run_sound hrun).recorded stream p hp
  refine ⟨done, htexts, ?_⟩
  cases hstanding with
  | reading _ complete bytes =>
    rw [bytes, LineSplit.lines_flatten_append complete]
    exact List.prefix_append done _
  | finished _ _ _ all => rw [all]
  | stopped _ _ _ complete bytes =>
    obtain ⟨rest, hrest⟩ := bytes
    rw [← hrest, LineSplit.lines_flatten_append complete, List.append_assoc]
    exact List.prefix_append done _
  | stoppedLast _ _ _ _ all =>
    rw [all]
    exact List.prefix_append done _

theorem takes_first_daemon : ∃ s, (machine .daemon).Reaches {} s ∧ s.taken .stdout = ["hi"] ∧
    s.TakesFirst := by
  obtain ⟨s, hrun, hp⟩ := Machine.exists_reaches_of_exec (M := machine .daemon) (s := {})
    (fun s => s.taken .stdout = ["hi"])
    [.write .stdout [104, 105, 10, 111], .read .stdout 4, .turn .stdout 0] (by decide +kernel)
  exact ⟨s, hrun, of_decide_eq_true hp, takes_first hrun⟩

end Capture

end OutputCapture

end Supervisor
