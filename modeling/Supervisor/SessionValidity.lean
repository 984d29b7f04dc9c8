import Supervisor.AuthVerifier
import Supervisor.Machine

namespace Supervisor

/-- What has become of a session that a bootstrap has issued, whether or not the verifier still
holds it. -/
structure SessionGrant where
  id : List Char
  generation : ℕ
  csrfToken : List Char
  issued : Clocks
  lastAccepted : Instant
  /-- Logged out, or issued before the last rotation. -/
  revoked : Bool := false

/-- The verifier, with the sessions issued so far and the time of the last call. -/
structure SessionState where
  auth : AuthVerifier
  grants : List SessionGrant := []
  now : Clocks

inductive SessionCall where
  | bootstrapSession (generation : ℕ) (id csrfToken : List Char)
  | requireBearer (request : AuthRequest)
  | logoutSession (cookie : Option (List Char))
  | rotate (receivers : ℕ) (token : Token) (generation : ℕ)

structure SessionEvent where
  call : SessionCall
  now : Clocks

/-- Neither clock goes back. -/
def Clocks.Before (a b : Clocks) : Prop := a.monotonic ≤ b.monotonic ∧ a.utc ≤ b.utc

instance (a b : Clocks) : Decidable (a.Before b) := inferInstanceAs (Decidable (_ ∧ _))

namespace SessionGrant

/-- The session as it was inserted and used. -/
def session (g : SessionGrant) : BrowserSession :=
  { id := g.id
    generation := g.generation
    csrfToken := g.csrfToken
    issuedAt := g.issued.monotonic
    lastUsedAt := g.lastAccepted
    expiresAt := g.issued.utc + 600 * nanosPerSec }

/-- Issued under the current credential, not logged out, issued at most 15 minutes ago, and issued
or last accepted at most 10 minutes ago. -/
structure Live (g : SessionGrant) (generation : ℕ) (now : Clocks) : Prop where
  generation : g.generation = generation
  notRevoked : g.revoked = false
  absolute : now.monotonic - g.issued.monotonic ≤ 15 * 60 * nanosPerSec
  idle : now.monotonic - g.lastAccepted ≤ 10 * 60 * nanosPerSec

/-- Ten minutes after the issue have not passed on the clock for dates. -/
def Unexpired (g : SessionGrant) (now : Clocks) : Prop :=
  now.utc ≤ g.issued.utc + 600 * nanosPerSec

end SessionGrant

namespace SessionState

def start (token : Token) (generation : ℕ) (now : Clocks) : SessionState :=
  { auth := .new token generation, now }

def grant (s : SessionState) (id : List Char) : Option SessionGrant :=
  KeyedRows.find SessionGrant.id id s.grants

/-- The session that a request names. -/
def namedGrant (s : SessionState) (request : AuthRequest) : Option SessionGrant :=
  (sessionIdFromCookie request.cookie).bind s.grant

def revoke (g : SessionGrant) : SessionGrant := { g with revoked := true }

/-- The acceptance of a browser session is noted. -/
def answered (s : SessionState) (now : Clocks) (id : Option (List Char))
    (outcome : AuthVerifier × Option AuthSession) : SessionState :=
  let used := fun g : SessionGrant => { g with lastAccepted := now.monotonic }
  match outcome.2, id with
  | some ⟨_, true⟩, some id =>
    { auth := outcome.1, grants := KeyedRows.update SessionGrant.id id used s.grants, now }
  | _, _ => { s with auth := outcome.1, now }

def call (s : SessionState) (now : Clocks) : SessionCall → SessionState
  | .bootstrapSession generation id csrfToken =>
    let g : SessionGrant :=
      { id, generation, csrfToken, issued := now, lastAccepted := now.monotonic }
    { auth := s.auth.bootstrapSession generation id csrfToken now
      grants := KeyedRows.insert SessionGrant.id s.grants g
      now }
  | .requireBearer request =>
    s.answered now (sessionIdFromCookie request.cookie) (s.auth.requireBearer request now)
  | .logoutSession cookie =>
    { auth := s.auth.logoutSession cookie
      grants := match sessionIdFromCookie cookie with
        | some id => KeyedRows.update SessionGrant.id id revoke s.grants
        | none => s.grants
      now }
  | .rotate receivers token generation =>
    { auth := s.auth.rotate receivers token generation
      grants := s.grants.map revoke
      now }

def machine : Machine SessionState SessionEvent where
  step s e := if s.now.Before e.now then some (s.call e.now e.call) else none

/-- A request is accepted exactly when the session it names is live and, if it is a mutation, it
carries the token of that session; a request that is rejected leaves each session as it was, and
drops the one it names only when that one is not live. -/
structure JudgesRightly (s : SessionState) (request : AuthRequest) (now : Clocks) : Prop where
  accepts : (s.auth.authenticateSession request now).2.isSome ↔
    ∃ g, s.namedGrant request = some g ∧ g.Live s.auth.generation now ∧
      (request.isMutation = true → request.csrfToken = some g.csrfToken)
  keepsOthers : (s.auth.authenticateSession request now).2 = none →
    ∀ id, sessionIdFromCookie request.cookie ≠ some id →
      KeyedRows.find BrowserSession.id id (s.auth.authenticateSession request now).1.sessions =
        KeyedRows.find BrowserSession.id id s.auth.sessions
  keepsNamed : (s.auth.authenticateSession request now).2 = none →
    ∀ g, s.namedGrant request = some g → g.Live s.auth.generation now →
      KeyedRows.find BrowserSession.id g.id
        (s.auth.authenticateSession request now).1.sessions = some g.session

/-- The sessions that the verifier holds are grants, and a grant that it does not hold is over. -/
structure Sound (s : SessionState) : Prop where
  held : ∀ id session, KeyedRows.find BrowserSession.id id s.auth.sessions = some session →
    ∃ g, s.grant id = some g ∧ g.revoked = false ∧ session = g.session
  dropped : ∀ id g, s.grant id = some g →
    KeyedRows.find BrowserSession.id id s.auth.sessions = none →
      ¬ (g.Live s.auth.generation s.now ∧ g.Unexpired s.now)

end SessionState

section Clocks

variable {g : SessionGrant} {generation : ℕ} {now later : Clocks}

theorem SessionGrant.Live.earlier (h : g.Live generation later) (ht : now.Before later) :
    g.Live generation now where
  generation := h.generation
  notRevoked := h.notRevoked
  absolute := by
    have hle : now.monotonic - g.issued.monotonic ≤ later.monotonic - g.issued.monotonic :=
      Int.sub_le_sub_right ht.1 _
    exact hle.trans h.absolute
  idle := by
    have hle : now.monotonic - g.lastAccepted ≤ later.monotonic - g.lastAccepted :=
      Int.sub_le_sub_right ht.1 _
    exact hle.trans h.idle

theorem SessionGrant.Unexpired.earlier (h : g.Unexpired later) (ht : now.Before later) :
    g.Unexpired now := ht.2.trans h

theorem isStale_session {auth : AuthVerifier} (hg : g.revoked = false) :
    auth.isStale g.session now = false ↔ g.Live auth.generation now ∧ g.Unexpired now := by
  unfold AuthVerifier.isStale
  simp only [Bool.or_eq_false_iff, decide_eq_false_iff_not, not_not, not_lt]
  constructor
  · rintro ⟨⟨⟨hgeneration, habsolute⟩, hidle⟩, hexpires⟩
    exact ⟨⟨hgeneration, hg, habsolute, hidle⟩, hexpires⟩
  · rintro ⟨hlive, hexpires⟩
    exact ⟨⟨⟨hlive.generation, hlive.absolute⟩, hlive.idle⟩, hexpires⟩

end Clocks

namespace SessionState

variable {s : SessionState} {request : AuthRequest} {now : Clocks} {id : List Char}

theorem namedGrant_eq (hid : sessionIdFromCookie request.cookie = some id) :
    s.namedGrant request = s.grant id := by
  unfold namedGrant
  rw [hid]
  rfl

/-- A request that names a session, once the origin has passed. -/
theorem authenticateSession_named (auth : AuthVerifier) (now : Clocks)
    (horigin : isStrictLoopbackOrigin request.origin = true)
    (hid : sessionIdFromCookie request.cookie = some id) :
    auth.authenticateSession request now =
      match KeyedRows.find BrowserSession.id id auth.sessions with
      | none => (auth, none)
      | some session =>
        if auth.isStale session now then
          ({ auth with sessions := auth.sessions.filter fun session => session.id ≠ id }, none)
        else if request.isMutation && request.csrfToken ≠ some session.csrfToken then (auth, none)
        else
          let used := fun session : BrowserSession => { session with lastUsedAt := now.monotonic }
          ({ auth with sessions := KeyedRows.update BrowserSession.id id used auth.sessions },
            some ⟨session.generation, true⟩) := by
  have hne : ¬ isStrictLoopbackOrigin request.origin = false := by
    rw [horigin]
    decide
  unfold AuthVerifier.authenticateSession
  rw [hid]
  exact if_neg hne

theorem authenticateSession_unnamed (auth : AuthVerifier) (now : Clocks)
    (h : isStrictLoopbackOrigin request.origin = false ∨
      sessionIdFromCookie request.cookie = none) :
    auth.authenticateSession request now = (auth, none) := by
  unfold AuthVerifier.authenticateSession
  split
  · rfl
  · rename_i horigin
    rw [h.resolve_left horigin]

theorem find_dropped (sessions : List BrowserSession) (id n : List Char) :
    KeyedRows.find BrowserSession.id n (sessions.filter fun session => session.id ≠ id) =
      if n = id then none else KeyedRows.find BrowserSession.id n sessions := by
  rw [KeyedRows.find_filter_key (fun k => k ≠ id)]
  by_cases hn : n = id <;> simp [hn]

theorem find_used (sessions : List BrowserSession) (id n : List Char) (t : Instant) :
    KeyedRows.find BrowserSession.id n (KeyedRows.update BrowserSession.id id
        (fun session => { session with lastUsedAt := t }) sessions) =
      if n = id then (KeyedRows.find BrowserSession.id n sessions).map
        fun session => { session with lastUsedAt := t }
      else KeyedRows.find BrowserSession.id n sessions :=
  KeyedRows.find_update fun _ h => h

theorem grant_update {f : SessionGrant → SessionGrant} (hf : ∀ g, (f g).id = g.id)
    (grants : List SessionGrant) (id n : List Char) :
    KeyedRows.find SessionGrant.id n (KeyedRows.update SessionGrant.id id f grants) =
      if n = id then (KeyedRows.find SessionGrant.id n grants).map f
      else KeyedRows.find SessionGrant.id n grants :=
  KeyedRows.find_update fun g h => (hf g).trans h

/-- A request of a session is judged rightly exactly when, if the session is live, its stored
expiry has not passed. -/
theorem Sound.judgesRightly_iff (hs : s.Sound) (ht : s.now.Before now)
    (horigin : isStrictLoopbackOrigin request.origin = true)
    (hid : sessionIdFromCookie request.cookie = some id) :
    s.JudgesRightly request now ↔
      ∀ g, s.namedGrant request = some g → g.Live s.auth.generation now → g.Unexpired now := by
  have hnamed := namedGrant_eq (s := s) hid
  have hauth := authenticateSession_named s.auth now horigin hid
  cases hfind : KeyedRows.find BrowserSession.id id s.auth.sessions with
  | none =>
    rw [hfind] at hauth
    dsimp only at hauth
    constructor
    · -- a live session is not there any more
      intro hjudges g hg hlive
      have hkept := hjudges.keepsNamed (by rw [hauth]) g hg hlive
      have hkey : g.id = id := KeyedRows.find_key (hnamed ▸ hg)
      rw [hauth, hkey, hfind] at hkept
      cases hkept
    · intro hunexpired
      have hdead (g : SessionGrant) (hg : s.namedGrant request = some g) :
          ¬ g.Live s.auth.generation now := by
        intro hlive
        exact hs.dropped id g (hnamed ▸ hg) hfind
          ⟨hlive.earlier ht, (hunexpired g hg hlive).earlier ht⟩
      constructor
      case accepts =>
        rw [hauth]
        constructor
        · intro h
          cases h
        · rintro ⟨g, hg, hlive, -⟩
          exact absurd hlive (hdead g hg)
      case keepsOthers =>
        intro _ n _
        rw [hauth]
      case keepsNamed =>
        intro _ g hg hlive
        exact absurd hlive (hdead g hg)
  | some session =>
    obtain ⟨g, hg, hnotRevoked, rfl⟩ := hs.held id session hfind
    have hkey : g.id = id := KeyedRows.find_key hg
    have honly (g' : SessionGrant) (hg' : s.namedGrant request = some g') : g' = g := by
      rw [hnamed, hg] at hg'
      exact (Option.some.inj hg').symm
    have hstale : s.auth.isStale g.session now = false ↔
        g.Live s.auth.generation now ∧ g.Unexpired now := isStale_session hnotRevoked
    rw [hfind] at hauth
    dsimp only at hauth
    by_cases hover : s.auth.isStale g.session now = true
    · rw [if_pos hover] at hauth
      have hnot : ¬ (g.Live s.auth.generation now ∧ g.Unexpired now) := by
        intro h
        rw [hstale.mpr h] at hover
        cases hover
      constructor
      · -- it is dropped although it is live
        intro hjudges g' hg' hlive
        have hkept := hjudges.keepsNamed (by rw [hauth]) g' hg' hlive
        rw [honly g' hg', hauth, hkey] at hkept
        dsimp only at hkept
        rw [find_dropped, if_pos rfl] at hkept
        cases hkept
      · intro hunexpired
        have hdead : ¬ g.Live s.auth.generation now := fun hlive =>
          hnot ⟨hlive, hunexpired g (hnamed.trans hg) hlive⟩
        constructor
        case accepts =>
          rw [hauth]
          constructor
          · intro h
            cases h
          · rintro ⟨g', hg', hlive, -⟩
            rw [honly g' hg'] at hlive
            exact absurd hlive hdead
        case keepsOthers =>
          intro _ n hn
          have hne : n ≠ id := fun h => hn (h ▸ hid)
          rw [hauth]
          dsimp only
          rw [find_dropped, if_neg hne]
        case keepsNamed =>
          intro _ g' hg' hlive
          rw [honly g' hg'] at hlive
          exact absurd hlive hdead
    · rw [if_neg hover] at hauth
      obtain ⟨hlive, hunexpired⟩ := hstale.mp (Bool.eq_false_iff.mpr hover)
      have hcsrf : g.session.csrfToken = g.csrfToken := rfl
      constructor
      · intro _ g' hg' _
        rw [honly g' hg']
        exact hunexpired
      · intro _
        by_cases hforged : (request.isMutation &&
            decide (request.csrfToken ≠ some g.session.csrfToken)) = true
        · rw [if_pos hforged] at hauth
          obtain ⟨hmutation, htoken⟩ := Bool.and_eq_true_iff.mp hforged
          constructor
          case accepts =>
            rw [hauth]
            constructor
            · intro h
              cases h
            · rintro ⟨g', hg', -, hcarries⟩
              rw [honly g' hg'] at hcarries
              exact absurd (hcarries hmutation) (of_decide_eq_true htoken)
          case keepsOthers =>
            intro _ n _
            rw [hauth]
          case keepsNamed =>
            intro _ g' hg' _
            rw [hauth, honly g' hg', hkey]
            exact hfind
        · rw [if_neg hforged] at hauth
          constructor
          case accepts =>
            rw [hauth]
            constructor
            · intro _
              refine ⟨g, hnamed.trans hg, hlive, fun hmutation => ?_⟩
              by_contra htoken
              exact hforged (Bool.and_eq_true_iff.mpr ⟨hmutation, decide_eq_true htoken⟩)
            · exact fun _ => rfl
          case keepsOthers =>
            intro hnone
            rw [hauth] at hnone
            cases hnone
          case keepsNamed =>
            intro hnone
            rw [hauth] at hnone
            cases hnone

section Steps

theorem Sound.later (hs : s.Sound) (ht : s.now.Before now) : Sound { s with now } where
  held := hs.held
  dropped id g hg hnone := by
    rintro ⟨hlive, hunexpired⟩
    exact hs.dropped id g hg hnone ⟨hlive.earlier ht, hunexpired.earlier ht⟩

theorem Sound.bootstrapSession (hs : s.Sound) (ht : s.now.Before now) (generation : ℕ)
    (id csrfToken : List Char) :
    (s.call now (.bootstrapSession generation id csrfToken)).Sound := by
  let g : SessionGrant := { id, generation, csrfToken, issued := now, lastAccepted := now.monotonic }
  have hsession (n : List Char) : KeyedRows.find BrowserSession.id n
      (s.call now (.bootstrapSession generation id csrfToken)).auth.sessions =
        if id = n then some g.session else KeyedRows.find BrowserSession.id n s.auth.sessions :=
    KeyedRows.find_insert
  have hgrant (n : List Char) :
      (s.call now (.bootstrapSession generation id csrfToken)).grant n =
        if id = n then some g else s.grant n := KeyedRows.find_insert
  have hlater := hs.later ht
  constructor
  case held =>
    intro n session hfind
    rw [hsession] at hfind
    rw [hgrant]
    split at hfind
    · rename_i hn
      rw [if_pos hn]
      exact ⟨g, rfl, rfl, (Option.some.inj hfind).symm⟩
    · rename_i hn
      rw [if_neg hn]
      exact hlater.held n session hfind
  case dropped =>
    intro n g' hg' hnone
    rw [hsession] at hnone
    rw [hgrant] at hg'
    split at hnone
    · cases hnone
    · rename_i hn
      rw [if_neg hn] at hg'
      exact hlater.dropped n g' hg' hnone

theorem Sound.rotate (receivers : ℕ) (token : Token) (generation : ℕ) :
    (s.call now (.rotate receivers token generation)).Sound where
  held _ _ hfind := by cases hfind
  dropped n g hg _ := by
    rintro ⟨hlive, -⟩
    have hg : KeyedRows.find SessionGrant.id n (s.grants.map revoke) = some g := hg
    rw [KeyedRows.find_map fun _ => rfl] at hg
    obtain ⟨before, -, rfl⟩ := Option.map_eq_some_iff.mp hg
    cases hlive.notRevoked

theorem Sound.logoutSession (hs : s.Sound) (ht : s.now.Before now)
    (cookie : Option (List Char)) : (s.call now (.logoutSession cookie)).Sound := by
  have hlater := hs.later ht
  cases hid : sessionIdFromCookie cookie with
  | none =>
    have hcall : s.call now (.logoutSession cookie) = { s with now } := by
      unfold call AuthVerifier.logoutSession
      dsimp only
      rw [hid]
    rw [hcall]
    exact hlater
  | some id =>
    have hcall : s.call now (.logoutSession cookie) =
        { auth := { s.auth with
            sessions := s.auth.sessions.filter fun session => session.id ≠ id }
          grants := KeyedRows.update SessionGrant.id id revoke s.grants
          now } := by
      unfold call AuthVerifier.logoutSession
      dsimp only
      rw [hid]
    have hgrant (n : List Char) : (s.call now (.logoutSession cookie)).grant n =
        if n = id then (s.grant n).map revoke else s.grant n := by
      rw [hcall]
      exact grant_update (f := revoke) (fun _ => rfl) _ _ _
    have hsession (n : List Char) : KeyedRows.find BrowserSession.id n
        (s.call now (.logoutSession cookie)).auth.sessions =
          if n = id then none else KeyedRows.find BrowserSession.id n s.auth.sessions := by
      rw [hcall]
      exact find_dropped _ _ _
    have hauth : (s.call now (.logoutSession cookie)).auth.generation = s.auth.generation := by
      rw [hcall]
    have hnow : (s.call now (.logoutSession cookie)).now = now := rfl
    constructor
    case held =>
      intro n session hfind
      rw [hsession] at hfind
      rw [hgrant]
      split at hfind
      · cases hfind
      · rename_i hn
        rw [if_neg hn]
        exact hlater.held n session hfind
    case dropped =>
      intro n g hg hnone
      rw [hgrant] at hg
      rw [hsession] at hnone
      rw [hauth, hnow]
      split at hg
      · -- it has just been logged out
        obtain ⟨before, -, rfl⟩ := Option.map_eq_some_iff.mp hg
        rintro ⟨hlive, -⟩
        cases hlive.notRevoked
      · rename_i hn
        rw [if_neg hn] at hnone
        exact hlater.dropped n g hg hnone

/-- A session that is dropped for being stale. -/
theorem Sound.drop (hs : s.Sound) (ht : s.now.Before now) {session : BrowserSession}
    (hfind : KeyedRows.find BrowserSession.id id s.auth.sessions = some session)
    (hstale : s.auth.isStale session now = true) :
    Sound { s with
      auth := { s.auth with sessions := s.auth.sessions.filter fun session => session.id ≠ id }
      now } where
  held n other hother := by
    have hother : KeyedRows.find BrowserSession.id n
      (s.auth.sessions.filter fun session => session.id ≠ id) = some other := hother
    rw [find_dropped] at hother
    split at hother
    · cases hother
    · exact hs.held n other hother
  dropped n g hg hnone := by
    have hnone : KeyedRows.find BrowserSession.id n
      (s.auth.sessions.filter fun session => session.id ≠ id) = none := hnone
    rw [find_dropped] at hnone
    split at hnone
    · rename_i hn
      subst hn
      obtain ⟨g', hg', hnotRevoked, rfl⟩ := hs.held n session hfind
      have hsame : g' = g := Option.some.inj (hg'.symm.trans hg)
      subst hsame
      intro hlive
      have hfresh : s.auth.isStale g'.session now = false := (isStale_session hnotRevoked).mpr hlive
      rw [hfresh] at hstale
      cases hstale
    · exact (hs.later ht).dropped n g hg hnone

theorem Sound.use (hs : s.Sound) (ht : s.now.Before now) {session : BrowserSession}
    (hin : KeyedRows.find BrowserSession.id id s.auth.sessions = some session) :
    Sound
      { auth := { s.auth with
          sessions := KeyedRows.update BrowserSession.id id
            (fun session => { session with lastUsedAt := now.monotonic }) s.auth.sessions }
        grants := KeyedRows.update SessionGrant.id id
          (fun g => { g with lastAccepted := now.monotonic }) s.grants
        now } := by
  have hlater := hs.later ht
  have hgrant (n : List Char) := grant_update (f := fun g => { g with lastAccepted := now.monotonic })
    (fun _ => rfl) s.grants id n
  have hsession (n : List Char) := find_used s.auth.sessions id n now.monotonic
  constructor
  case held =>
    intro n session hfind
    show ∃ g, KeyedRows.find SessionGrant.id n (KeyedRows.update SessionGrant.id id
      (fun g => { g with lastAccepted := now.monotonic }) s.grants) = some g ∧ _
    rw [hgrant]
    have hfind := (hsession n).symm.trans hfind
    split at hfind
    · rename_i hn
      obtain ⟨before, hbefore, rfl⟩ := Option.map_eq_some_iff.mp hfind
      obtain ⟨g, hg, hnotRevoked, rfl⟩ := hs.held n before hbefore
      have hg : KeyedRows.find SessionGrant.id n s.grants = some g := hg
      rw [if_pos hn, hg]
      exact ⟨_, rfl, hnotRevoked, rfl⟩
    · rename_i hn
      rw [if_neg hn]
      exact hs.held n session hfind
  case dropped =>
    intro n g hg hnone
    have hg := (hgrant n).symm.trans hg
    have hnone := (hsession n).symm.trans hnone
    split at hg
    · rename_i hn
      rw [if_pos hn, hn, hin] at hnone
      cases hnone
    · rename_i hn
      rw [if_neg hn] at hnone
      exact hlater.dropped n g hg hnone

theorem Sound.requireBearer (hs : s.Sound) (ht : s.now.Before now) (request : AuthRequest) :
    (s.call now (.requireBearer request)).Sound := by
  show (s.answered now (sessionIdFromCookie request.cookie)
    (s.auth.requireBearer request now)).Sound
  cases hbearer : s.auth.authenticate request.authorization with
  | some session =>
    have hanswer : s.auth.requireBearer request now = (s.auth, some ⟨s.auth.generation, false⟩) := by
      unfold AuthVerifier.requireBearer
      rw [hbearer, (AuthVerifier.authenticate_eq_some hbearer).2]
    rw [hanswer]
    exact hs.later ht
  | none =>
    have hanswer : s.auth.requireBearer request now =
        s.auth.authenticateSession request now := by
      unfold AuthVerifier.requireBearer
      rw [hbearer]
    by_cases horigin : isStrictLoopbackOrigin request.origin = true
    · cases hid : sessionIdFromCookie request.cookie with
      | none =>
        rw [hanswer, authenticateSession_unnamed s.auth now (.inr hid)]
        exact hs.later ht
      | some id =>
        have hauth := authenticateSession_named s.auth now horigin hid
        cases hfind : KeyedRows.find BrowserSession.id id s.auth.sessions with
        | none =>
          rw [hfind] at hauth
          rw [hanswer, hauth]
          exact hs.later ht
        | some session =>
          rw [hfind] at hauth
          dsimp only at hauth
          split at hauth
          · rename_i hstale
            rw [hanswer, hauth]
            exact hs.drop ht hfind hstale
          · split at hauth
            · rw [hanswer, hauth]
              exact hs.later ht
            · rw [hanswer, hauth]
              exact hs.use ht hfind
    · have hunnamed := authenticateSession_unnamed s.auth now
        (.inl (Bool.eq_false_iff.mpr horigin))
      rw [hanswer, hunnamed]
      exact hs.later ht

theorem Sound.call (hs : s.Sound) (ht : s.now.Before now) (c : SessionCall) :
    (s.call now c).Sound := by
  cases c with
  | bootstrapSession generation id csrfToken => exact hs.bootstrapSession ht generation id csrfToken
  | requireBearer request => exact hs.requireBearer ht request
  | logoutSession cookie => exact hs.logoutSession ht cookie
  | rotate receivers token generation => exact .rotate receivers token generation

theorem sound_start (token : Token) (generation : ℕ) (now : Clocks) :
    (start token generation now).Sound where
  held _ _ hfind := by cases hfind
  dropped _ _ hg := by cases hg

theorem reaches_sound {token : Token} {generation : ℕ} {now : Clocks}
    (h : machine.Reaches (start token generation now) s) : s.Sound := by
  refine h.invariant (fun t e u ht _ hstep => ?_) (sound_start token generation now)
  have hstep : (if t.now.Before e.now then some (t.call e.now e.call) else none) = some u := hstep
  split at hstep
  · rename_i hbefore
    rw [← Option.some.inj hstep]
    exact ht.call hbefore e.call
  · cases hstep

end Steps

section Active

/-- Both clocks at a minute. -/
def atMinute (n : ℕ) : Clocks := ⟨n * 60 * nanosPerSec, n * 60 * nanosPerSec⟩

def panelRequest : AuthRequest :=
  { origin := some "http://localhost:5173".toList
    cookie := some "msv_session=a".toList }

/-- A session issued at the start and used after nine minutes. -/
def activeSession : List SessionEvent :=
  [⟨.bootstrapSession 1 ['a'] ['t'], atMinute 0⟩, ⟨.requireBearer panelRequest, atMinute 9⟩]

/-- The session as the calls above have left it, when the next call is made. -/
def isActive (s : SessionState) : Bool :=
  s.now.monotonic = (atMinute 9).monotonic && s.now.utc = (atMinute 9).utc &&
    s.auth.generation = 1 && (s.namedGrant panelRequest).any fun g =>
      g.generation = 1 && !g.revoked && g.issued.monotonic = 0 && g.issued.utc = 0 &&
        g.lastAccepted = (atMinute 9).monotonic

theorem reaches_active : ∃ s, machine.Reaches (start ['k'] 1 (atMinute 0)) s ∧ s.isActive = true :=
  Machine.exists_reaches_of_exec (M := machine) isActive activeSession (by decide +kernel)

theorem isActive_iff {s : SessionState} (h : s.isActive = true) :
    s.now.monotonic = (atMinute 9).monotonic ∧ s.now.utc = (atMinute 9).utc ∧
      s.auth.generation = 1 ∧ ∃ g, s.namedGrant panelRequest = some g ∧ g.generation = 1 ∧
        g.revoked = false ∧ g.issued.monotonic = 0 ∧ g.issued.utc = 0 ∧
        g.lastAccepted = (atMinute 9).monotonic := by
  unfold isActive at h
  simp only [Bool.and_eq_true, decide_eq_true_eq, Option.any_eq_true, Bool.not_eq_true'] at h
  obtain ⟨⟨⟨hmonotonic, hutc⟩, hauth⟩, g, hg, hfields⟩ := h
  exact ⟨hmonotonic, hutc, hauth, g, hg, hfields.1.1.1.1, hfields.1.1.1.2, hfields.1.1.2,
    hfields.1.2, hfields.2⟩

theorem active_before {s : SessionState} (h : s.isActive = true) (n : ℕ) (hn : 9 ≤ n) :
    s.now.Before (atMinute n) := by
  obtain ⟨hmonotonic, hutc, -⟩ := isActive_iff h
  have hle : (atMinute 9).monotonic ≤ (atMinute n).monotonic := by
    show ((9 : ℕ) : ℤ) * 60 * (nanosPerSec : ℕ) ≤ (n : ℤ) * 60 * (nanosPerSec : ℕ)
    rw [show ((nanosPerSec : ℕ) : ℤ) = 1000000000 from rfl]
    omega
  constructor
  · rw [hmonotonic]
    exact hle
  · rw [hutc]
    exact hle

end Active

end SessionState

end Supervisor
