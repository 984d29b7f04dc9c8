import Supervisor.AuthVerifier
import Supervisor.JournalRows
import Supervisor.Machine

namespace Supervisor

variable (ε : Type)

/-- What is written to a socket. -/
inductive Frame where
  | line (line : LogLine)
  | dropped (count afterSequence : ℕ)
  | event (event : ε)

/-- The lines that a log stream starts with. -/
structure LogPage where
  lines : List LogLine
  highWatermark : ℕ

/-- What a stream has still to send of its page, and how far it has come. -/
structure LogCursor where
  page : List LogLine
  highWatermark : ℕ
  lastSequence : ℕ

/-- The start of `forward_logs`. -/
def LogPage.cursor (page : LogPage) : LogCursor where
  page := page.lines
  highWatermark := page.highWatermark
  lastSequence := (page.lines.getLast?.map LogLine.sequence).getD 0

/-- How far a stream has come. -/
inductive ConnectionStage where
  /-- `require_bearer` has passed it on to its handler. -/
  | authenticated
  | logs (generation : WatchChannel.Receiver) (cursor : LogCursor)
  | events (generation : WatchChannel.Receiver)
  | closed

structure Stream where
  /-- `session.generation` -/
  authenticatedGeneration : ℕ
  stage : ConnectionStage

def ConnectionStage.receiver : ConnectionStage → Option WatchChannel.Receiver
  | .logs generation _ | .events generation => some generation
  | .authenticated | .closed => none

/-- The stage after the receiver has seen what there is. -/
def ConnectionStage.withReceiver (stage : ConnectionStage) (generation : WatchChannel.Receiver) :
    ConnectionStage :=
  match stage with
  | .logs _ cursor => .logs generation cursor
  | .events _ => .events generation
  | stage => stage

/-- A frame with the generation of its stream and the one that is current when it is sent. -/
structure Forwarded where
  frame : Frame ε
  authenticatedGeneration : ℕ
  currentGeneration : ℕ

/-- The streams of one server. -/
structure StreamState where
  auth : AuthVerifier
  /-- Whether a rotation holds the lock of the secret. -/
  isRotating : Bool := false
  /-- The generation that a stream can know of. -/
  currentGeneration : ℕ := auth.generation
  streams : List Stream := []
  forwarded : List (Forwarded ε) := []

/-- What a branch of the loop of a stream receives. -/
inductive Incoming where
  | line (line : LogLine)
  | lagged (count : ℕ)
  | event (event : ε)
  /-- The channel is closed, the client has gone, or the socket fails. -/
  | ended
  /-- The branch of the generation channel. -/
  | changed

inductive StreamEvent where
  | authenticate (request : AuthRequest) (now : Clocks)
  | followLogs (stream : ℕ) (page : LogPage)
  | followEvents (stream : ℕ)
  /-- The next line of the page. -/
  | sendPage (stream : ℕ)
  | select (stream : ℕ) (incoming : Incoming ε)
  /-- The first and the second part of a rotation. -/
  | replaceSecret (token : Token) (generation : ℕ)
  | announce

variable {ε}

/-- One turn of the loop of `forward_logs`: the frame that is sent, and the cursor after it. -/
def LogCursor.forward (cursor : LogCursor) : Incoming ε → Option (Frame ε) × LogCursor
  | .line line =>
    if line.sequence ≠ 0 ∧
        (line.sequence ≤ cursor.highWatermark ∨ line.sequence ≤ cursor.lastSequence) then
      (none, cursor)
    else (some (.line line),
      { cursor with lastSequence := max cursor.lastSequence line.sequence })
  | .lagged count => (some (.dropped count cursor.lastSequence), cursor)
  | _ => (none, cursor)

namespace StreamState

def receivers (s : StreamState ε) : ℕ :=
  s.streams.countP fun stream => stream.stage.receiver.isSome

def setStage (s : StreamState ε) (i : ℕ) (stream : Stream) (stage : ConnectionStage) :
    StreamState ε :=
  { s with streams := s.streams.set i { stream with stage } }

def send (s : StreamState ε) (stream : Stream) (frame : Frame ε) : StreamState ε :=
  { s with forwarded := s.forwarded ++
      [⟨frame, stream.authenticatedGeneration, s.currentGeneration⟩] }

/-- The branch of the generation channel: the stream ends unless the generation is its own. -/
def whenChanged (s : StreamState ε) (i : ℕ) (stream : Stream) (generation : WatchChannel.Receiver) :
    Option (StreamState ε) :=
  if s.auth.channel.Changed generation then
    if s.auth.channel.value ≠ stream.authenticatedGeneration then
      some (s.setStage i stream .closed)
    else some (s.setStage i stream (stream.stage.withReceiver s.auth.generationReceiver))
  else none

def select (s : StreamState ε) (i : ℕ) (stream : Stream) :
    Incoming ε → Option (StreamState ε)
  | .changed => match stream.stage with
    | .logs generation { page := [], .. } | .events generation => s.whenChanged i stream generation
    | _ => none
  | .ended => match stream.stage with
    | .logs .. | .events _ => some (s.setStage i stream .closed)
    | _ => none
  | incoming => match stream.stage, incoming with
    | .logs generation cursor, incoming =>
      if cursor.page ≠ [] then none
      else
        let (frame, cursor) := cursor.forward incoming
        let t := s.setStage i stream (.logs generation cursor)
        some (match frame with
          | some frame => t.send stream frame
          | none => t)
    | .events _, .event event => some (s.send stream (.event event))
    | .events _, .lagged _ => some s
    | _, _ => none

def step (s : StreamState ε) : StreamEvent ε → Option (StreamState ε)
  | .authenticate request now =>
    if s.isRotating then none
    else
      let (auth, session) := s.auth.requireBearer request now
      some { s with
        auth
        streams := s.streams ++ session.toList.map fun session =>
          ⟨session.generation, .authenticated⟩ }
  | .followLogs i page => s.streams[i]?.bind fun stream => match stream.stage with
    | .authenticated =>
      some (s.setStage i stream (.logs s.auth.generationReceiver page.cursor))
    | _ => none
  | .followEvents i => s.streams[i]?.bind fun stream => match stream.stage with
    | .authenticated => some (s.setStage i stream (.events s.auth.generationReceiver))
    | _ => none
  | .sendPage i => s.streams[i]?.bind fun stream => match stream.stage with
    | .logs generation cursor => match cursor.page with
      | line :: page =>
        some ((s.setStage i stream (.logs generation { cursor with page })).send stream
          (.line line))
      | [] => none
    | _ => none
  | .select i incoming => s.streams[i]?.bind fun stream => s.select i stream incoming
  | .replaceSecret token generation =>
    if s.isRotating then none
    else some { s with auth := s.auth.replaceSecret token generation, isRotating := true }
  | .announce =>
    if s.isRotating then
      some { s with
        auth := s.auth.announce s.receivers, isRotating := false
        currentGeneration := s.auth.generation }
    else none

def machine (ε : Type) : Machine (StreamState ε) (StreamEvent ε) where
  step := step

end StreamState

def ConnectionStage.isAuthenticated : ConnectionStage → Bool
  | .authenticated => true
  | _ => false

/-- Whether a turn of the loop sends a frame. -/
def ConnectionStage.sends (stage : ConnectionStage) (incoming : Incoming ε) : Bool :=
  match stage, incoming with
  | .logs _ cursor, incoming => (cursor.forward incoming).1.isSome
  | .events _, .event _ => true
  | _, _ => false

namespace StreamState

/-- There is no change of the generation that a stream has not looked at. -/
def UpToDate (s : StreamState ε) (i : ℕ) : Prop :=
  ∀ stream ∈ s.streams[i]?, ∀ generation ∈ stream.stage.receiver,
    ¬s.auth.channel.Changed generation

instance (s : StreamState ε) (i : ℕ) : Decidable (s.UpToDate i) :=
  inferInstanceAs (Decidable (∀ stream ∈ s.streams[i]?, ∀ generation ∈ stream.stage.receiver,
    ¬s.auth.channel.Changed generation))

/-- When a frame is not sent too late: no rotation comes between the authentication of a stream
and its subscription, and no frame is sent while a change is waiting. -/
def Fits (s : StreamState ε) : StreamEvent ε → Prop
  | .sendPage i => s.UpToDate i
  | .select i incoming =>
    (∃ stream ∈ s.streams[i]?, stream.stage.sends incoming = true) → s.UpToDate i
  | .announce => ∀ stream ∈ s.streams, stream.stage.isAuthenticated = true →
      stream.authenticatedGeneration = s.auth.generation
  | _ => True

instance (s : StreamState ε) (e : StreamEvent ε) : Decidable (s.Fits e) := by
  cases e <;> unfold Fits <;> exact inferInstance

/-- A server without streams. -/
structure Idle (s : StreamState ε) : Prop where
  isRotating : s.isRotating = false
  currentGeneration : s.currentGeneration = s.auth.generation
  streams : s.streams = []
  forwarded : s.forwarded = []

/-- A frame is sent in the generation that its stream has been authenticated in. -/
def Revoking (s : StreamState ε) : Prop :=
  ∀ f ∈ s.forwarded, f.currentGeneration = f.authenticatedGeneration

/-- What a stream knows of the current generation. -/
structure StreamSound (s : StreamState ε) (stream : Stream) : Prop where
  authenticated : stream.stage.isAuthenticated = true →
    stream.authenticatedGeneration = s.currentGeneration
  seen : ∀ generation ∈ stream.stage.receiver, generation.seen ≤ s.auth.channel.version
  current : ∀ generation ∈ stream.stage.receiver, ¬s.auth.channel.Changed generation →
    stream.authenticatedGeneration = s.currentGeneration
  changed : ∀ generation ∈ stream.stage.receiver, s.auth.channel.Changed generation →
    s.auth.channel.value = s.currentGeneration

structure Sound (s : StreamState ε) : Prop where
  streams : ∀ stream ∈ s.streams, s.StreamSound stream
  secret : s.isRotating = false → s.auth.generation = s.currentGeneration
  revoking : s.Revoking

variable {s t : StreamState ε} {stream : Stream} {stage : ConnectionStage} {i : ℕ}

theorem Idle.sound (h : s.Idle) : s.Sound := by
  refine ⟨?_, fun _ => h.currentGeneration.symm, ?_⟩
  · simp [h.streams]
  · unfold Revoking
    simp [h.forwarded]

theorem StreamSound.of_channel (h : s.StreamSound stream)
    (hchannel : t.auth.channel = s.auth.channel)
    (hcurrent : t.currentGeneration = s.currentGeneration) : t.StreamSound stream := by
  constructor
  case authenticated => exact hcurrent ▸ h.authenticated
  case seen => exact hchannel ▸ h.seen
  case current => exact hchannel ▸ hcurrent ▸ h.current
  case changed => exact hchannel ▸ hcurrent ▸ h.changed

theorem Sound.setStage (h : s.Sound) (hnew : s.StreamSound { stream with stage }) :
    (s.setStage i stream stage).Sound := by
  refine ⟨?_, h.secret, h.revoking⟩
  intro other hother
  rcases List.mem_or_eq_of_mem_set hother with hold | rfl
  · exact { h.streams other hold with }
  · exact { hnew with }

theorem Sound.send (h : s.Sound) {frame : Frame ε}
    (hcurrent : stream.authenticatedGeneration = s.currentGeneration) :
    (s.send stream frame).Sound := by
  refine ⟨fun other hother => { h.streams other hother with }, h.secret, ?_⟩
  intro f hf
  rcases List.mem_append.mp hf with hold | hnew
  · exact h.revoking f hold
  · rw [List.mem_singleton.mp hnew]
    exact hcurrent.symm

theorem streamSound_closed : s.StreamSound { stream with stage := .closed } := by
  constructor <;> simp [ConnectionStage.isAuthenticated, ConnectionStage.receiver]

/-- A stream that has just looked at the generation, and found its own. -/
theorem streamSound_subscribed
    (hreceiver : ∀ generation ∈ stage.receiver, generation = s.auth.generationReceiver)
    (hcurrent : stream.authenticatedGeneration = s.currentGeneration) :
    s.StreamSound { stream with stage } := by
  constructor
  case authenticated => exact fun _ => hcurrent
  case seen =>
    intro generation hgeneration
    rw [hreceiver generation hgeneration]
    exact Nat.le_refl _
  case current => exact fun _ _ _ => hcurrent
  case changed =>
    intro generation hgeneration hchanged
    rw [hreceiver generation hgeneration] at hchanged
    exact absurd hchanged WatchChannel.not_changed_subscribe

theorem StreamSound.withCursor {generation : WatchChannel.Receiver} {cursor : LogCursor}
    (h : s.StreamSound stream) (hstage : stream.stage = .logs generation cursor)
    (cursor' : LogCursor) :
    s.StreamSound { stream with stage := .logs generation cursor' } := by
  have hreceiver : stream.stage.receiver = some generation := by rw [hstage]; rfl
  constructor
  case authenticated => exact fun hfalse => absurd hfalse Bool.false_ne_true
  case seen => exact fun g hg => h.seen g (hreceiver ▸ hg)
  case current => exact fun g hg => h.current g (hreceiver ▸ hg)
  case changed => exact fun g hg => h.changed g (hreceiver ▸ hg)

theorem receiver_withReceiver {generation g : WatchChannel.Receiver}
    (h : g ∈ (stage.withReceiver generation).receiver) : g = generation := by
  cases stage with
  | logs _ cursor => exact (Option.some.inj h).symm
  | events _ => exact (Option.some.inj h).symm
  | authenticated => cases h
  | closed => cases h

theorem Sound.whenChanged (h : s.Sound) (hstream : stream ∈ s.streams)
    {generation : WatchChannel.Receiver} (hreceiver : generation ∈ stream.stage.receiver)
    (hstep : s.whenChanged i stream generation = some t) : t.Sound := by
  unfold StreamState.whenChanged at hstep
  split at hstep
  · rename_i hchanged
    split at hstep
    · obtain rfl := Option.some.inj hstep
      exact h.setStage streamSound_closed
    · rename_i hsame
      obtain rfl := Option.some.inj hstep
      apply h.setStage
      apply streamSound_subscribed
      · exact fun g hg => receiver_withReceiver hg
      · have hcurrent := (h.streams stream hstream).changed generation hreceiver hchanged
        exact (not_not.mp hsame).symm.trans hcurrent
  · cases hstep

/-- One turn of the loop of a stream. -/
theorem Sound.select (h : s.Sound) (hstream : s.streams[i]? = some stream)
    {incoming : Incoming ε} (hfits : s.Fits (.select i incoming))
    (hstep : s.select i stream incoming = some t) : t.Sound := by
  have hmem : stream ∈ s.streams := List.mem_of_getElem? hstream
  have hcurrent (hsends : stream.stage.sends incoming = true)
      {generation : WatchChannel.Receiver} (hreceiver : stream.stage.receiver = some generation) :
      stream.authenticatedGeneration = s.currentGeneration := by
    have huptodate := hfits ⟨stream, hstream, hsends⟩ stream hstream
    exact (h.streams stream hmem).current generation hreceiver
      (huptodate generation hreceiver)
  unfold StreamState.select at hstep
  split at hstep
  · -- the branch of the generation
    split at hstep
    all_goals try cases hstep
    all_goals
      rename_i hstage
      refine h.whenChanged hmem ?_ hstep
      rw [hstage]
      rfl
  · split at hstep
    all_goals try cases hstep
    all_goals exact h.setStage streamSound_closed
  · -- a line, a gap or an event
    split at hstep
    · rename_i generation cursor hstage _ _
      split at hstep
      · cases hstep
      · obtain rfl := Option.some.inj hstep
        have hkeeps := (h.streams stream hmem).withCursor hstage
        split
        · rename_i frame hframe
          apply (h.setStage (hkeeps _)).send
          refine hcurrent ?_ (by rw [hstage]; rfl)
          rw [hstage]
          exact Option.isSome_iff_exists.mpr ⟨frame, hframe⟩
        · exact h.setStage (hkeeps _)
    · rename_i generation event hstage _ _
      obtain rfl := Option.some.inj hstep
      apply h.send
      refine hcurrent ?_ (by rw [hstage]; rfl)
      rw [hstage]
      rfl
    · obtain rfl := Option.some.inj hstep
      exact h
    · cases hstep

/-- The end of a rotation: every receiver has something that it has not seen. -/
theorem Sound.announce (h : s.Sound) (hfits : s.Fits .announce) :
    Sound { s with
      auth := s.auth.announce s.receivers, isRotating := false
      currentGeneration := s.auth.generation } := by
  refine ⟨?_, fun _ => rfl, h.revoking⟩
  intro stream hstream
  have hsound := h.streams stream hstream
  have hreceivers {generation : WatchChannel.Receiver}
      (hreceiver : generation ∈ stream.stage.receiver) : 0 < s.receivers := by
    apply List.countP_pos_iff.mpr
    exact ⟨stream, hstream, Option.isSome_iff_exists.mpr ⟨generation, hreceiver⟩⟩
  constructor
  case authenticated => exact hfits stream hstream
  case seen =>
    intro generation hreceiver
    exact (hsound.seen generation hreceiver).trans WatchChannel.version_le_send
  case current =>
    intro generation hreceiver hsame
    exact absurd (WatchChannel.changed_send (hreceivers hreceiver)
      (hsound.seen generation hreceiver)) hsame
  case changed =>
    intro generation hreceiver _
    show (s.auth.channel.send s.receivers s.auth.generation).value = s.auth.generation
    rw [WatchChannel.send_of_pos (hreceivers hreceiver)]

theorem step_sound {e : StreamEvent ε} (h : s.Sound) (hfits : s.Fits e)
    (hstep : (machine ε).step s e = some t) : t.Sound := by
  cases e with
  | authenticate request now =>
    change (if s.isRotating then none else _) = some t at hstep
    split at hstep
    · cases hstep
    · rename_i hrotating
      obtain rfl := Option.some.inj hstep
      obtain ⟨-, hgeneration, hchannel⟩ :=
        @AuthVerifier.requireBearer_secret s.auth request now
      have hsecret := h.secret (Bool.eq_false_iff.mpr hrotating)
      refine ⟨?_, fun _ => hgeneration.trans hsecret, h.revoking⟩
      intro stream hstream
      rcases List.mem_append.mp hstream with hold | hnew
      · exact (h.streams stream hold).of_channel hchannel rfl
      · obtain ⟨session, hsession, rfl⟩ := List.mem_map.mp hnew
        obtain ⟨haccepted, -⟩ := AuthVerifier.requireBearer_eq_some (Option.mem_toList.mp hsession)
        constructor
        case authenticated => exact fun _ => haccepted.trans hsecret
        all_goals exact fun _ hreceiver => absurd hreceiver (Option.not_mem_none _)
  | followLogs i page =>
    obtain ⟨stream, hstream, hfollow⟩ := Option.bind_eq_some_iff.mp hstep
    split at hfollow
    · rename_i hstage
      obtain rfl := Option.some.inj hfollow
      apply h.setStage
      apply streamSound_subscribed
      · exact fun g hg => (Option.some.inj hg).symm
      · apply (h.streams stream (List.mem_of_getElem? hstream)).authenticated
        rw [hstage]
        rfl
    · cases hfollow
  | followEvents i =>
    obtain ⟨stream, hstream, hfollow⟩ := Option.bind_eq_some_iff.mp hstep
    split at hfollow
    · rename_i hstage
      obtain rfl := Option.some.inj hfollow
      apply h.setStage
      apply streamSound_subscribed
      · exact fun g hg => (Option.some.inj hg).symm
      · apply (h.streams stream (List.mem_of_getElem? hstream)).authenticated
        rw [hstage]
        rfl
    · cases hfollow
  | sendPage i =>
    obtain ⟨stream, hstream, hsend⟩ := Option.bind_eq_some_iff.mp hstep
    have hsound := h.streams stream (List.mem_of_getElem? hstream)
    split at hsend
    · rename_i generation cursor hstage
      split at hsend
      · rename_i line page _
        obtain rfl := Option.some.inj hsend
        have hreceiver : generation ∈ stream.stage.receiver := by
          rw [hstage]
          rfl
        apply (h.setStage (hsound.withCursor hstage _)).send
        exact hsound.current generation hreceiver (hfits stream hstream generation hreceiver)
      · cases hsend
    · cases hsend
  | select i incoming =>
    obtain ⟨stream, hstream, hselect⟩ := Option.bind_eq_some_iff.mp hstep
    exact h.select hstream hfits hselect
  | replaceSecret token generation =>
    change (if s.isRotating then none else some _) = some t at hstep
    split at hstep
    · cases hstep
    · obtain rfl := Option.some.inj hstep
      refine ⟨fun stream hstream => ?_, fun hrotating => absurd hrotating Bool.noConfusion,
        h.revoking⟩
      exact (h.streams stream hstream).of_channel rfl rfl
  | announce =>
    change (if s.isRotating then some _ else none) = some t at hstep
    split at hstep
    · obtain rfl := Option.some.inj hstep
      exact h.announce hfits
    · cases hstep

/-- Over any interleaving of requests, subscriptions, rotations and forwarded frames. -/
theorem run_revoking (hs : s.Idle) (h : (machine ε).Run Fits s t) : t.Revoking := by
  have hsound : t.Sound :=
    h.invariant (fun _ _ _ hsound hfits hstep => step_sound hsound hfits hstep) hs.sound
  exact hsound.revoking

def oneToken : StreamState Unit where
  auth := .new "a".toList 1

def bearer (token : String) : AuthRequest where
  authorization := some ("Bearer ".toList ++ token.toList)

theorem oneToken_idle : oneToken.Idle := ⟨rfl, rfl, rfl, rfl⟩

/-- A stream that is open when the token is rotated ends without another frame, and the next one
goes on in the new generation. -/
theorem oneToken_revoking : ∃ t : StreamState Unit, t.Revoking ∧
    t.forwarded.map Forwarded.authenticatedGeneration = [1, 1, 2] ∧ t.receivers = 1 := by
  obtain ⟨t, hrun, hp⟩ := Machine.exists_run_of_execUnder (M := machine Unit) (C := Fits)
    (s := oneToken)
    (fun t => t.forwarded.map Forwarded.authenticatedGeneration = [1, 1, 2] ∧ t.receivers = 1)
    [.authenticate (bearer "a") ⟨0, 0⟩, .followLogs 0 ⟨[⟨1, 0, .stdout, "x"⟩], 1⟩, .sendPage 0,
      .select 0 (.line ⟨2, 0, .stdout, "y"⟩), .replaceSecret "b".toList 2, .announce,
      .select 0 .changed, .authenticate (bearer "b") ⟨0, 0⟩, .followEvents 1,
      .select 1 (.event ())]
    (by decide +kernel)
  exact ⟨t, run_revoking oneToken_idle hrun, of_decide_eq_true hp⟩

/-- A rotation between the authentication of a stream and its subscription: the stream goes on. -/
theorem oneToken_notRevoked : ∃ t : StreamState Unit, (machine Unit).Reaches oneToken t ∧
    t.forwarded.map (fun f => (f.authenticatedGeneration, f.currentGeneration)) = [(1, 2)] ∧
    ¬t.Revoking := by
  obtain ⟨t, hrun, hp⟩ := Machine.exists_reaches_of_exec (M := machine Unit) (s := oneToken)
    (fun t => t.forwarded.map (fun f => (f.authenticatedGeneration, f.currentGeneration)) =
      [(1, 2)])
    [.authenticate (bearer "a") ⟨0, 0⟩, .replaceSecret "b".toList 2, .announce, .followEvents 0,
      .select 0 (.event ())]
    (by decide +kernel)
  have hforwarded := of_decide_eq_true hp
  refine ⟨t, hrun, hforwarded, ?_⟩
  intro h
  obtain ⟨f, hf, hgenerations⟩ := List.mem_map.mp (hforwarded ▸ List.mem_singleton_self _)
  have hsame := h f hf
  rw [Prod.mk.injEq] at hgenerations
  rw [hgenerations.1, hgenerations.2] at hsame
  cases hsame

end StreamState

end Supervisor
