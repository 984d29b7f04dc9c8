import Supervisor.AuthVerifier
import Supervisor.JournalRows
import Supervisor.Machine

namespace Supervisor

/-- What becomes of a write that replaces a file: it is done, it fails, or the process ends in it.
In the last two cases the file may be replaced all the same. -/
inductive WriteOutcome where
  | done
  | failed (replaced : Bool)
  | crashed (replaced : Bool)
deriving DecidableEq

/-- `write_private_file_atomic` -/
def WriteOutcome.write {α : Type} (outcome : WriteOutcome) (old : Option α) (new : α) : Option α :=
  match outcome with
  | .done => some new
  | .failed replaced | .crashed replaced => if replaced then some new else old

/-- How an operation ends. -/
inductive Ending (α : Type) where
  | returned (result : Except String α)
  | crashed

structure OwnerIdentity where
  endpoint : String
  version : String
  pid : ℕ
  nativeStartIdentity : String
deriving DecidableEq

structure OwnerDiscovery extends OwnerIdentity where
  credentialGeneration : ℕ
deriving DecidableEq

/-- The files of the owner under `run`. -/
structure RunDirectory where
  controlToken : Option Token := none
  ownerMetadata : Option OwnerDiscovery := none
deriving DecidableEq

structure DaemonOwner where
  discovery : OwnerDiscovery
  auth : AuthVerifier

def isAsciiHexDigit (c : Char) : Bool :=
  ('0' ≤ c && c ≤ '9') || ('a' ≤ c && c ≤ 'f') || ('A' ≤ c && c ≤ 'F')

def validToken (token : Token) : Except String Token :=
  if token.length = 64 ∧ token.all isAsciiHexDigit = true then .ok token
  else .error "control token must be a 256-bit hexadecimal value"

/-- `format!("{byte:02x}")` -/
def hexByte (byte : UInt8) : List Char :=
  [Nat.digitChar (byte.toNat / 16), Nat.digitChar (byte.toNat % 16)]

/-- `generate_token`, with the bytes that the system gives -/
def generateToken (bytes : Fin 32 → UInt8) : Token := (List.ofFn bytes).flatMap hexByte

def loadControlToken (dir : RunDirectory) : Except String Token :=
  match dir.controlToken with
  | some token => validToken token
  | none => .error "No such file or directory (os error 2)"

/-- The control token that a claim finds or makes. -/
def claimToken (dir : RunDirectory) (bytes : Fin 32 → UInt8) (tokenWrite : WriteOutcome) :
    RunDirectory × Ending Token :=
  match dir.controlToken with
  | some token => (dir, .returned (validToken token))
  | none =>
    let token := generateToken bytes
    let dir := { dir with controlToken := tokenWrite.write dir.controlToken token }
    match tokenWrite with
    | .done => (dir, .returned (.ok token))
    | .failed _ => (dir, .returned (.error "writing initial control token"))
    | .crashed _ => (dir, .crashed)

def claim (dir : RunDirectory) (identity : OwnerIdentity) (bytes : Fin 32 → UInt8)
    (tokenWrite discoveryWrite : WriteOutcome) : RunDirectory × Ending DaemonOwner :=
  let priorGeneration := (dir.ownerMetadata.map OwnerDiscovery.credentialGeneration).getD 0
  match claimToken dir bytes tokenWrite with
  | (dir, .crashed) => (dir, .crashed)
  | (dir, .returned (.error e)) => (dir, .returned (.error e))
  | (dir, .returned (.ok token)) =>
    let discovery : OwnerDiscovery :=
      { identity with credentialGeneration := satAddU64 priorGeneration 1 }
    let dir := { dir with ownerMetadata := discoveryWrite.write dir.ownerMetadata discovery }
    match discoveryWrite with
    | .done =>
      (dir, .returned (.ok { discovery, auth := .new token discovery.credentialGeneration }))
    | .failed _ => (dir, .returned (.error "writing owner discovery"))
    | .crashed _ => (dir, .crashed)

def rotateToken (owner : DaemonOwner) (dir : RunDirectory) (bytes : Fin 32 → UInt8)
    (tokenWrite discoveryWrite : WriteOutcome) (receivers : ℕ) :
    RunDirectory × DaemonOwner × Ending ℕ :=
  let token := generateToken bytes
  let nextGeneration := satAddU64 owner.discovery.credentialGeneration 1
  let dir := { dir with controlToken := tokenWrite.write dir.controlToken token }
  match tokenWrite with
  | .failed _ => (dir, owner, .returned (.error "writing control token"))
  | .crashed _ => (dir, owner, .crashed)
  | .done =>
    let owner :=
      { owner with discovery := { owner.discovery with credentialGeneration := nextGeneration } }
    let dir := { dir with
      ownerMetadata := discoveryWrite.write dir.ownerMetadata owner.discovery }
    match discoveryWrite with
    | .failed _ => (dir, owner, .returned (.error "writing owner discovery"))
    | .crashed _ => (dir, owner, .crashed)
    | .done =>
      (dir, { owner with auth := owner.auth.rotate receivers token nextGeneration },
        .returned (.ok nextGeneration))

section Tokens

variable {bytes : Fin 32 → UInt8}

theorem isAsciiHexDigit_digitChar {n : ℕ} (h : n < 16) :
    isAsciiHexDigit (Nat.digitChar n) = true := by
  interval_cases n <;> rfl

theorem all_hexByte (byte : UInt8) : (hexByte byte).all isAsciiHexDigit = true := by
  have hbyte : byte.toNat < 256 := byte.toNat_lt
  have hhigh := isAsciiHexDigit_digitChar (n := byte.toNat / 16) (by omega)
  have hlow := isAsciiHexDigit_digitChar (n := byte.toNat % 16) (by omega)
  simp [hexByte, hhigh, hlow]

/-- A token that is made is one that is accepted as a token. -/
theorem validToken_generateToken : validToken (generateToken bytes) = .ok (generateToken bytes) := by
  have hlength : (generateToken bytes).length = 64 := by
    unfold generateToken
    rw [List.length_flatMap]
    have hmap : (List.ofFn bytes).map (fun byte => (hexByte byte).length) =
        List.replicate 32 2 := by
      rw [List.eq_replicate_iff]
      refine ⟨by simp, ?_⟩
      intro n hn
      obtain ⟨byte, -, rfl⟩ := List.mem_map.mp hn
      rfl
    rw [hmap]
    rfl
  have hall : (generateToken bytes).all isAsciiHexDigit = true := by
    unfold generateToken
    rw [List.all_flatMap, List.all_eq_true]
    exact fun byte _ => all_hexByte byte
  unfold validToken
  rw [if_pos ⟨hlength, hall⟩]

theorem validToken_eq_ok {token token' : Token} (h : validToken token = .ok token') :
    token' = token := by
  unfold validToken at h
  split at h
  · exact (Except.ok.inj h).symm
  · cases h

end Tokens

/-- The daemon's root over any number of owners, with what has been accepted so far. -/
structure OwnerState where
  dir : RunDirectory := {}
  owner : Option DaemonOwner := none
  /-- The generations of the verifier, the newest first. -/
  generations : List ℕ := []
  /-- The tokens that a rotation has replaced. -/
  revoked : List Token := []
  /-- All tokens that have been made or found. -/
  known : List Token := []

inductive OwnerEvent where
  | claim (identity : OwnerIdentity) (bytes : Fin 32 → UInt8)
      (tokenWrite discoveryWrite : WriteOutcome)
  | rotateToken (bytes : Fin 32 → UInt8) (tokenWrite discoveryWrite : WriteOutcome)
      (receivers : ℕ)
  | request (request : AuthRequest) (now : Clocks)
  | bootstrapSession (generation : ℕ) (id csrfToken : List Char) (now : Clocks)
  | logoutSession (cookie : Option (List Char))
  | exit

namespace OwnerState

/-- What a claim makes of the state; while there is an owner its lock refuses every other. -/
def afterClaim (s : OwnerState) (identity : OwnerIdentity) (bytes : Fin 32 → UInt8)
    (tokenWrite discoveryWrite : WriteOutcome) : OwnerState :=
  match s.owner with
  | some _ => s
  | none =>
    let known := if s.dir.controlToken.isSome then s.known else generateToken bytes :: s.known
    match claim s.dir identity bytes tokenWrite discoveryWrite with
    | (dir, .returned (.ok owner)) =>
      { s with dir, owner := some owner, known, generations := owner.auth.generation :: s.generations }
    | (dir, _) => { s with dir, known }

def afterRotation (s : OwnerState) (owner : DaemonOwner) (bytes : Fin 32 → UInt8)
    (tokenWrite discoveryWrite : WriteOutcome) (receivers : ℕ) : OwnerState :=
  let known := generateToken bytes :: s.known
  match rotateToken owner s.dir bytes tokenWrite discoveryWrite receivers with
  | (dir, rotated, .returned (.ok generation)) =>
    { s with
      dir, owner := some rotated, known
      generations := generation :: s.generations
      revoked := owner.auth.token :: s.revoked }
  | (dir, rotated, .returned (.error _)) => { s with dir, owner := some rotated, known }
  | (dir, _, .crashed) => { s with dir, owner := none, known }

def withAuth (s : OwnerState) (change : AuthVerifier → AuthVerifier) : Option OwnerState :=
  s.owner.map fun owner =>
    let owner := { owner with auth := change owner.auth }
    { s with owner := some owner }

def step (s : OwnerState) : OwnerEvent → Option OwnerState
  | .claim identity bytes tokenWrite discoveryWrite =>
    some (s.afterClaim identity bytes tokenWrite discoveryWrite)
  | .rotateToken bytes tokenWrite discoveryWrite receivers => s.owner.map fun owner =>
      s.afterRotation owner bytes tokenWrite discoveryWrite receivers
  | .request request now => s.withAuth fun auth => (auth.requireBearer request now).1
  | .bootstrapSession generation id csrfToken now =>
    s.withAuth fun auth => auth.bootstrapSession generation id csrfToken now
  | .logoutSession cookie => s.withAuth fun auth => auth.logoutSession cookie
  | .exit => some { s with owner := none }

def machine : Machine OwnerState OwnerEvent where
  step := step

end OwnerState

end Supervisor
