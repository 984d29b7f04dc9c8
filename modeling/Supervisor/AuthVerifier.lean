import Supervisor.JobDomain
import Supervisor.RowMap
import Supervisor.WatchChannel

namespace Supervisor

/-- A control token, by its characters. -/
abbrev Token := List Char

structure BrowserSession where
  id : List Char
  generation : ℕ
  csrfToken : List Char
  issuedAt : Instant
  lastUsedAt : Instant
  expiresAt : Instant
deriving DecidableEq

structure AuthSession where
  generation : ℕ
  isBrowserSession : Bool
deriving DecidableEq

structure AuthVerifier where
  token : Token
  generation : ℕ
  channel : WatchChannel ℕ
  sessions : List BrowserSession := []

/-- What a request says about its sender. -/
structure AuthRequest where
  authorization : Option (List Char) := none
  origin : Option (List Char) := none
  cookie : Option (List Char) := none
  isMutation : Bool := false
  csrfToken : Option (List Char) := none

/-- The monotonic clock and the one for dates. -/
structure Clocks where
  monotonic : Instant
  utc : Instant

/-- `str::strip_prefix` -/
def stripStart (start text : List Char) : Option (List Char) :=
  if start.isPrefixOf text then some (text.drop start.length) else none

theorem stripStart_eq_some {start text rest : List Char} (h : stripStart start text = some rest) :
    text = start ++ rest := by
  unfold stripStart at h
  split at h
  · rename_i hstart
    obtain ⟨more, rfl⟩ := List.isPrefixOf_iff_prefix.mp hstart
    rw [List.drop_left] at h
    rw [Option.some.inj h]
  · cases h

/-- `str::trim`, for the characters that a header may have -/
def trimBlank (text : List Char) : List Char :=
  let blank := fun c => c = ' ' || c = '\t'
  ((text.dropWhile blank).reverse.dropWhile blank).reverse

def sessionIdFromCookie (cookie : Option (List Char)) : Option (List Char) :=
  cookie.bind fun cookie =>
    ((cookie.splitOn ';').map trimBlank).findSome? (stripStart "msv_session=".toList)

def isStrictLoopbackOrigin : Option (List Char) → Bool
  | none => false
  | some origin =>
    origin = "http://localhost".toList || origin = "http://127.0.0.1".toList ||
      "http://localhost:".toList.isPrefixOf origin || "http://127.0.0.1:".toList.isPrefixOf origin

namespace AuthVerifier

def new (token : Token) (generation : ℕ) : AuthVerifier :=
  { token, generation, channel := ⟨generation, 0⟩ }

/-- The first part of `rotate`: the secret is replaced. -/
def replaceSecret (auth : AuthVerifier) (token : Token) (generation : ℕ) : AuthVerifier :=
  { auth with token, generation }

/-- The second part of `rotate`, with as many receivers of the generation as there are. -/
def announce (auth : AuthVerifier) (receivers : ℕ) : AuthVerifier :=
  { auth with channel := auth.channel.send receivers auth.generation, sessions := [] }

def rotate (auth : AuthVerifier) (receivers : ℕ) (token : Token) (generation : ℕ) :
    AuthVerifier :=
  (auth.replaceSecret token generation).announce receivers

def authenticate (auth : AuthVerifier) (authorization : Option (List Char)) :
    Option AuthSession :=
  (authorization.bind (stripStart "Bearer ".toList)).bind fun token =>
    if token = auth.token then some ⟨auth.generation, false⟩ else none

def bootstrapSession (auth : AuthVerifier) (generation : ℕ) (id csrfToken : List Char)
    (now : Clocks) : AuthVerifier :=
  let session : BrowserSession :=
    { id, generation, csrfToken
      issuedAt := now.monotonic
      lastUsedAt := now.monotonic
      expiresAt := now.utc + 600 * nanosPerSec }
  { auth with sessions := KeyedRows.insert BrowserSession.id auth.sessions session }

def logoutSession (auth : AuthVerifier) (cookie : Option (List Char)) : AuthVerifier :=
  match sessionIdFromCookie cookie with
  | some id => { auth with sessions := auth.sessions.filter fun session => session.id ≠ id }
  | none => auth

/-- Whether a session is over. -/
def isStale (auth : AuthVerifier) (session : BrowserSession) (now : Clocks) : Bool :=
  session.generation ≠ auth.generation ||
    15 * 60 * nanosPerSec < now.monotonic - session.issuedAt ||
    10 * 60 * nanosPerSec < now.monotonic - session.lastUsedAt ||
    session.expiresAt < now.utc

def authenticateSession (auth : AuthVerifier) (request : AuthRequest) (now : Clocks) :
    AuthVerifier × Option AuthSession :=
  if isStrictLoopbackOrigin request.origin = false then (auth, none)
  else match sessionIdFromCookie request.cookie with
    | none => (auth, none)
    | some id => match KeyedRows.find BrowserSession.id id auth.sessions with
      | none => (auth, none)
      | some session =>
        if auth.isStale session now then
          ({ auth with sessions := auth.sessions.filter fun session => session.id ≠ id }, none)
        else if request.isMutation && request.csrfToken ≠ some session.csrfToken then (auth, none)
        else
          let used := fun session : BrowserSession => { session with lastUsedAt := now.monotonic }
          ({ auth with sessions := KeyedRows.update BrowserSession.id id used auth.sessions },
            some ⟨session.generation, true⟩)

/-- `require_bearer`, up to the handler of the request -/
def requireBearer (auth : AuthVerifier) (request : AuthRequest) (now : Clocks) :
    AuthVerifier × Option AuthSession :=
  match auth.authenticate request.authorization with
  | some session => (auth, some session)
  | none => auth.authenticateSession request now

/-- `generation_receiver` -/
def generationReceiver (auth : AuthVerifier) : WatchChannel.Receiver := auth.channel.subscribe

section Facts

variable {auth : AuthVerifier} {request : AuthRequest} {now : Clocks} {session : AuthSession}

theorem authenticate_eq_some {authorization : Option (List Char)}
    (h : auth.authenticate authorization = some session) :
    authorization = some ("Bearer ".toList ++ auth.token) ∧ session = ⟨auth.generation, false⟩ := by
  obtain ⟨token, htoken, hsession⟩ := Option.bind_eq_some_iff.mp h
  obtain ⟨value, rfl, hvalue⟩ := Option.bind_eq_some_iff.mp htoken
  split at hsession
  · rename_i hsame
    subst hsame
    exact ⟨congrArg some (stripStart_eq_some hvalue), (Option.some.inj hsession).symm⟩
  · cases hsession

/-- A session is accepted in the generation that it was made in. -/
theorem authenticateSession_eq_some
    (h : (auth.authenticateSession request now).2 = some session) :
    session = ⟨auth.generation, true⟩ := by
  unfold authenticateSession at h
  split at h
  · cases h
  · split at h
    · cases h
    · split at h
      · cases h
      · rename_i found _
        split at h
        · cases h
        · rename_i hstale
          split at h
          · cases h
          · have hgeneration : found.generation = auth.generation := by
              by_contra hne
              apply hstale
              unfold isStale
              rw [decide_eq_true hne]
              rfl
            rw [← Option.some.inj h, hgeneration]

theorem authenticateSession_secret :
    (auth.authenticateSession request now).1.token = auth.token ∧
      (auth.authenticateSession request now).1.generation = auth.generation ∧
      (auth.authenticateSession request now).1.channel = auth.channel := by
  unfold authenticateSession
  repeat' split
  all_goals exact ⟨rfl, rfl, rfl⟩

theorem requireBearer_secret : (auth.requireBearer request now).1.token = auth.token ∧
    (auth.requireBearer request now).1.generation = auth.generation ∧
    (auth.requireBearer request now).1.channel = auth.channel := by
  unfold requireBearer
  split
  · exact ⟨rfl, rfl, rfl⟩
  · exact authenticateSession_secret

theorem requireBearer_eq_some (h : (auth.requireBearer request now).2 = some session) :
    session.generation = auth.generation ∧ (session.isBrowserSession = false →
      request.authorization = some ("Bearer ".toList ++ auth.token)) := by
  unfold requireBearer at h
  split at h
  · rename_i found hfound
    obtain ⟨hauthorization, hsession⟩ := authenticate_eq_some hfound
    rw [← Option.some.inj h, hsession]
    exact ⟨rfl, fun _ => hauthorization⟩
  · rw [authenticateSession_eq_some h]
    exact ⟨rfl, fun hbrowser => absurd hbrowser Bool.noConfusion⟩

theorem requireBearer_token (hrequest : request.authorization =
    some ("Bearer ".toList ++ auth.token)) :
    (auth.requireBearer request now).2 = some ⟨auth.generation, false⟩ := by
  have haccepted : auth.authenticate request.authorization = some ⟨auth.generation, false⟩ := by
    have hstart : stripStart "Bearer ".toList ("Bearer ".toList ++ auth.token) =
        some auth.token := by
      unfold stripStart
      rw [if_pos (List.isPrefixOf_iff_prefix.mpr (List.prefix_append _ _)), List.drop_left]
    rw [hrequest, authenticate, Option.bind_some, hstart, Option.bind_some, if_pos rfl]
  unfold requireBearer
  rw [haccepted]

end Facts

end AuthVerifier

end Supervisor
