import Supervisor.ControlToken

namespace Supervisor

namespace OwnerState

/-- Whether a rotation that fails has kept the token file. -/
def KeepsToken (tokenWrite discoveryWrite : WriteOutcome) : Bool :=
  match tokenWrite, discoveryWrite with
  | .failed replaced, _ => !replaced
  | .done, .failed _ => false
  | _, _ => true

/-- When a claim or a rotation does what it should: a token that is made is a new one, the
generation can be counted up, and no rotation fails after it has replaced the token file. -/
def Fits (s : OwnerState) : OwnerEvent → Prop
  | .claim _ bytes _ _ => (s.dir.controlToken = none → generateToken bytes ∉ s.known) ∧
      ∀ metadata ∈ s.dir.ownerMetadata, metadata.credentialGeneration + 1 < 2^64
  | .rotateToken bytes tokenWrite discoveryWrite _ => ∀ owner ∈ s.owner,
      generateToken bytes ∉ s.known ∧ owner.discovery.credentialGeneration + 1 < 2^64 ∧
        KeepsToken tokenWrite discoveryWrite = true
  | _ => True

instance (s : OwnerState) (e : OwnerEvent) : Decidable (s.Fits e) := by
  cases e <;> unfold Fits <;> exact inferInstance

/-- A daemon root without an owner. -/
structure Unowned (s : OwnerState) : Prop where
  owner : s.owner = none
  generations : s.generations = []
  revoked : s.revoked = []
  known : ∀ token ∈ s.dir.controlToken, token ∈ s.known

/-- What holds of the token, its generation and the files. -/
structure RotationLawful (s : OwnerState) : Prop where
  /-- A rotation that returns an error changes nothing. -/
  refused : ∀ owner ∈ s.owner, ∀ bytes tokenWrite discoveryWrite receivers,
    s.Fits (.rotateToken bytes tokenWrite discoveryWrite receivers) → ∀ dir owner' error,
      rotateToken owner s.dir bytes tokenWrite discoveryWrite receivers =
        (dir, owner', .returned (.error error)) → dir = s.dir ∧ owner' = owner
  /-- The token in the file is the one that is accepted. -/
  stored : ∀ owner ∈ s.owner, loadControlToken s.dir = .ok owner.auth.token ∧
    ∀ request now, request.authorization = some ("Bearer ".toList ++ owner.auth.token) →
      (owner.auth.requireBearer request now).2 = some ⟨owner.auth.generation, false⟩
  /-- No generation is used twice, and the current one is the last. -/
  generations : s.generations.Pairwise (· > ·)
  current : ∀ owner ∈ s.owner, s.generations.head? = some owner.auth.generation
  /-- Nobody is accepted in an earlier generation, or with a token that has been replaced. -/
  accepted : ∀ owner ∈ s.owner, ∀ request now session,
    (owner.auth.requireBearer request now).2 = some session →
      session.generation = owner.auth.generation ∧ (session.isBrowserSession = false →
        ∀ token ∈ s.revoked, request.authorization ≠ some ("Bearer ".toList ++ token))

/-- What the files say while there is an owner, and what they have said. -/
structure Sound (s : OwnerState) : Prop where
  token : ∀ owner ∈ s.owner, s.dir.controlToken = some owner.auth.token ∧
    validToken owner.auth.token = .ok owner.auth.token
  metadata : ∀ owner ∈ s.owner, owner.discovery.credentialGeneration = owner.auth.generation ∧
    s.dir.ownerMetadata = some owner.discovery
  current : ∀ owner ∈ s.owner, s.generations.head? = some owner.auth.generation
  descending : s.generations.Pairwise (· > ·)
  counted : ∀ generation ∈ s.generations, ∃ metadata ∈ s.dir.ownerMetadata,
    generation ≤ metadata.credentialGeneration
  replaced : ∀ token ∈ s.dir.controlToken, token ∉ s.revoked
  known : ∀ token ∈ s.dir.controlToken, token ∈ s.known
  revokedKnown : ∀ token ∈ s.revoked, token ∈ s.known

variable {s t : OwnerState} {owner owner' : DaemonOwner} {dir : RunDirectory}
  {identity : OwnerIdentity} {bytes : Fin 32 → UInt8} {tokenWrite discoveryWrite : WriteOutcome}
  {receivers : ℕ}

theorem Unowned.sound (h : s.Unowned) : s.Sound := by
  constructor
  case token => simp [h.owner]
  case metadata => simp [h.owner]
  case current => simp [h.owner]
  case descending => simp [h.generations]
  case counted => simp [h.generations]
  case replaced => simp [h.revoked]
  case known => exact h.known
  case revokedKnown => simp [h.revoked]

theorem Sound.lawful (h : s.Sound) : s.RotationLawful := by
  constructor
  case refused =>
    intro owner howner bytes tokenWrite discoveryWrite receivers hfits dir owner' error hrotate
    obtain ⟨-, -, hkeeps⟩ := hfits owner howner
    cases tokenWrite with
    | done =>
      cases discoveryWrite with
      | done => simp [rotateToken] at hrotate
      | failed => cases hkeeps
      | crashed => simp [rotateToken] at hrotate
    | failed replaced =>
      obtain rfl : replaced = false := by simpa [KeepsToken] using hkeeps
      simp only [rotateToken, WriteOutcome.write, Prod.mk.injEq] at hrotate
      exact ⟨hrotate.1.symm, hrotate.2.1.symm⟩
    | crashed => simp [rotateToken] at hrotate
  case stored =>
    intro owner howner
    obtain ⟨hfile, hvalid⟩ := h.token owner howner
    refine ⟨?_, fun _ _ hrequest => AuthVerifier.requireBearer_token hrequest⟩
    unfold loadControlToken
    rw [hfile]
    exact hvalid
  case generations => exact h.descending
  case current => exact h.current
  case accepted =>
    intro owner howner request now session haccepted
    obtain ⟨hgeneration, hbearer⟩ := AuthVerifier.requireBearer_eq_some haccepted
    refine ⟨hgeneration, ?_⟩
    intro hbrowser token htoken hrequest
    have hsame : owner.auth.token = token := by
      have heq := (hbearer hbrowser).symm.trans hrequest
      exact List.append_cancel_left (Option.some.inj heq)
    exact h.replaced owner.auth.token (h.token owner howner).1 (hsame ▸ htoken)

theorem Sound.exit (h : s.Sound) : Sound { s with owner := none } := by
  refine { h with token := ?_, metadata := ?_, current := ?_ }
  all_goals
    intro owner howner
    cases howner

/-- What does not change the secret. -/
theorem Sound.withAuth (h : s.Sound) {change : AuthVerifier → AuthVerifier}
    (hchange : ∀ auth, (change auth).token = auth.token ∧
      (change auth).generation = auth.generation)
    (hstep : s.withAuth change = some t) : t.Sound := by
  obtain ⟨owner, howner, rfl⟩ := Option.map_eq_some_iff.mp hstep
  obtain ⟨htoken, hgeneration⟩ := hchange owner.auth
  have hfile := h.token owner howner
  have hmetadata := h.metadata owner howner
  have hcurrent := h.current owner howner
  refine { h with token := ?_, metadata := ?_, current := ?_ }
  · intro owner' howner'
    obtain rfl := Option.some.inj howner'
    dsimp only
    rw [htoken]
    exact hfile
  · intro owner' howner'
    obtain rfl := Option.some.inj howner'
    dsimp only
    rw [hgeneration]
    exact hmetadata
  · intro owner' howner'
    obtain rfl := Option.some.inj howner'
    dsimp only
    rw [hgeneration]
    exact hcurrent

/-- New files, in which the token is the old or a new one and the generation is not lower. -/
theorem Sound.files (h : s.Sound) {known : List Token}
    (htoken : ∀ token ∈ dir.controlToken,
      token ∈ s.dir.controlToken ∨ token ∉ s.known ∧ token ∈ known)
    (hknown : ∀ token ∈ s.known, token ∈ known)
    (hmetadata : ∀ metadata ∈ s.dir.ownerMetadata, ∃ metadata' ∈ dir.ownerMetadata,
      metadata.credentialGeneration ≤ metadata'.credentialGeneration) :
    Sound { s with dir, known, owner := none } := by
  constructor
  case token => exact fun _ howner => absurd howner (Option.not_mem_none _)
  case metadata => exact fun _ howner => absurd howner (Option.not_mem_none _)
  case current => exact fun _ howner => absurd howner (Option.not_mem_none _)
  case descending => exact h.descending
  case counted =>
    intro generation hgeneration
    obtain ⟨metadata, hold, hle⟩ := h.counted generation hgeneration
    obtain ⟨metadata', hnew, hle'⟩ := hmetadata metadata hold
    exact ⟨metadata', hnew, hle.trans hle'⟩
  case replaced =>
    intro token hin hrevoked
    rcases htoken token hin with hold | ⟨hfresh, -⟩
    · exact h.replaced token hold hrevoked
    · exact hfresh (h.revokedKnown token hrevoked)
  case known =>
    intro token hin
    rcases htoken token hin with hold | ⟨-, hnew⟩
    · exact hknown token (h.known token hold)
    · exact hnew
  case revokedKnown => exact fun token hrevoked => hknown token (h.revokedKnown token hrevoked)

/-- A verifier whose token and generation are those of the files, in a new generation. -/
theorem Sound.accepts (h : s.Sound) {revoked : List Token}
    (htoken : s.dir.controlToken = some owner.auth.token)
    (hvalid : validToken owner.auth.token = .ok owner.auth.token)
    (hgeneration : owner.discovery.credentialGeneration = owner.auth.generation)
    (hmetadata : s.dir.ownerMetadata = some owner.discovery)
    (hnew : ∀ generation ∈ s.generations, generation < owner.auth.generation)
    (hrevoked : ∀ token ∈ revoked, token ∈ s.known ∧ token ≠ owner.auth.token) :
    Sound { s with
      owner := some owner, revoked, generations := owner.auth.generation :: s.generations } := by
  constructor
  case token =>
    intro owner' howner'
    obtain rfl := Option.some.inj howner'
    exact ⟨htoken, hvalid⟩
  case metadata =>
    intro owner' howner'
    obtain rfl := Option.some.inj howner'
    exact ⟨hgeneration, hmetadata⟩
  case current =>
    intro owner' howner'
    obtain rfl := Option.some.inj howner'
    rfl
  case descending => exact List.pairwise_cons.mpr ⟨hnew, h.descending⟩
  case counted =>
    intro generation hin
    refine ⟨owner.discovery, hmetadata, ?_⟩
    rw [hgeneration]
    rcases List.mem_cons.mp hin with rfl | hin
    · exact le_refl _
    · exact (hnew generation hin).le
  case replaced =>
    intro token hin hrevoked'
    rw [htoken] at hin
    exact (hrevoked token hrevoked').2 (Option.some.inj hin).symm
  case known => exact h.known
  case revokedKnown => exact fun token hin => (hrevoked token hin).1

theorem Sound.lt_next (h : s.Sound)
    (hsmall : ∀ metadata ∈ s.dir.ownerMetadata, metadata.credentialGeneration + 1 < 2^64)
    {generation : ℕ} (hin : generation ∈ s.generations) :
    generation < satAddU64 ((s.dir.ownerMetadata.map
      OwnerDiscovery.credentialGeneration).getD 0) 1 := by
  obtain ⟨metadata, hmetadata, hle⟩ := h.counted generation hin
  have hlt := hsmall metadata hmetadata
  rw [Option.mem_def.mp hmetadata]
  show generation < satAddU64 metadata.credentialGeneration 1
  unfold satAddU64
  omega

theorem Sound.le_next (hsmall : ∀ metadata ∈ s.dir.ownerMetadata,
      metadata.credentialGeneration + 1 < 2^64)
    {metadata : OwnerDiscovery} (hmetadata : metadata ∈ s.dir.ownerMetadata) :
    metadata.credentialGeneration ≤ satAddU64 ((s.dir.ownerMetadata.map
      OwnerDiscovery.credentialGeneration).getD 0) 1 := by
  have hlt := hsmall metadata hmetadata
  rw [Option.mem_def.mp hmetadata]
  show metadata.credentialGeneration ≤ satAddU64 metadata.credentialGeneration 1
  unfold satAddU64
  omega

theorem mem_write {α : Type} {outcome : WriteOutcome} {old : Option α} {new x : α}
    (h : x ∈ outcome.write old new) : x ∈ old ∨ x = new := by
  unfold WriteOutcome.write at h
  split at h
  · exact .inr (Option.some.inj h).symm
  all_goals
    split at h
    · exact .inr (Option.some.inj h).symm
    · exact .inl h

theorem exists_mem_write {α : Type} (outcome : WriteOutcome) {old : Option α} {new x : α}
    {R : α → α → Prop} (hx : x ∈ old) (hsame : R x x) (hnew : R x new) :
    ∃ y ∈ outcome.write old new, R x y := by
  unfold WriteOutcome.write
  split
  · exact ⟨new, rfl, hnew⟩
  all_goals
    split
    · exact ⟨new, rfl, hnew⟩
    · exact ⟨x, hx, hsame⟩

/-- What a claim leaves behind, and the owner where there is one. -/
theorem claimToken_cases {result : Ending Token}
    (h : claimToken s.dir bytes tokenWrite = (dir, result)) :
    dir.ownerMetadata = s.dir.ownerMetadata ∧
      (∀ token ∈ dir.controlToken, token ∈ s.dir.controlToken ∨
        s.dir.controlToken = none ∧ token = generateToken bytes) ∧
      ∀ token, result = .returned (.ok token) →
        dir.controlToken = some token ∧ validToken token = .ok token := by
  unfold claimToken at h
  rcases Option.eq_none_or_eq_some s.dir.controlToken with hfile | ⟨found, hfile⟩
  case inr =>
    rw [hfile] at h
    obtain ⟨rfl, rfl⟩ := Prod.mk.injEq .. ▸ h
    refine ⟨rfl, fun token htoken => .inl htoken, ?_⟩
    intro token hresult
    have hvalid : validToken found = .ok token := by injection hresult
    obtain rfl := validToken_eq_ok hvalid
    exact ⟨hfile, hvalid⟩
  case inl =>
    have hnew : ∀ token ∈ tokenWrite.write none (generateToken bytes),
        token ∈ s.dir.controlToken ∨ s.dir.controlToken = none ∧ token = generateToken bytes :=
      fun token htoken =>
        .inr ⟨hfile, (mem_write htoken).resolve_left (Option.not_mem_none token)⟩
    rw [hfile] at h
    dsimp only at h
    cases tokenWrite with
    | done =>
      obtain ⟨rfl, rfl⟩ := Prod.mk.injEq .. ▸ h
      refine ⟨rfl, hnew, ?_⟩
      intro token hresult
      have hsame : generateToken bytes = token := by
        injection hresult with hok
        exact Except.ok.inj hok
      exact ⟨congrArg some hsame, hsame ▸ validToken_generateToken⟩
    | failed replaced =>
      obtain ⟨rfl, rfl⟩ := Prod.mk.injEq .. ▸ h
      exact ⟨rfl, hnew, fun token hresult => by injection hresult with herror; cases herror⟩
    | crashed replaced =>
      obtain ⟨rfl, rfl⟩ := Prod.mk.injEq .. ▸ h
      exact ⟨rfl, hnew, fun token hresult => by cases hresult⟩

theorem Sound.afterClaim (h : s.Sound)
    (hfits : s.Fits (.claim identity bytes tokenWrite discoveryWrite)) :
    (s.afterClaim identity bytes tokenWrite discoveryWrite).Sound := by
  obtain ⟨hfresh, hsmall⟩ := hfits
  unfold OwnerState.afterClaim
  split
  · exact h
  · rename_i howner
    have hknown : ∀ token ∈ s.known, token ∈
        (if s.dir.controlToken.isSome then s.known else generateToken bytes :: s.known) := by
      intro token htoken
      split
      · exact htoken
      · exact List.mem_cons_of_mem _ htoken
    dsimp only
    -- the token first, then the metadata with the next generation
    have hclaim : ∀ dir₁ result, claimToken s.dir bytes tokenWrite = (dir₁, result) →
        ∀ token ∈ dir₁.controlToken, token ∈ s.dir.controlToken ∨ token ∉ s.known ∧ token ∈
          (if s.dir.controlToken.isSome then s.known else generateToken bytes :: s.known) := by
      intro dir₁ result hclaim token htoken
      obtain ⟨-, htokens, -⟩ := claimToken_cases hclaim
      refine (htokens token htoken).imp_right ?_
      rintro ⟨hnone, rfl⟩
      rw [hnone]
      exact ⟨hfresh hnone, List.mem_cons_self⟩
    unfold claim
    dsimp only
    cases hclaimed : claimToken s.dir bytes tokenWrite with
    | mk dir₁ result =>
      obtain ⟨hmetadata, -, hok⟩ := claimToken_cases hclaimed
      have htokens := hclaim dir₁ result hclaimed
      have hsame : ∀ metadata ∈ s.dir.ownerMetadata, ∃ metadata' ∈ dir₁.ownerMetadata,
          metadata.credentialGeneration ≤ metadata'.credentialGeneration :=
        fun metadata hin => ⟨metadata, hmetadata ▸ hin, le_refl _⟩
      cases result with
      | crashed => exact howner ▸ h.files htokens hknown hsame
      | returned result =>
        cases result with
        | error e => exact howner ▸ h.files htokens hknown hsame
        | ok token =>
          obtain ⟨hfile, hvalid⟩ := hok token rfl
          have hnext : ∀ metadata ∈ s.dir.ownerMetadata, ∃ metadata' ∈
              discoveryWrite.write dir₁.ownerMetadata
                { identity with credentialGeneration := satAddU64 ((s.dir.ownerMetadata.map
                    OwnerDiscovery.credentialGeneration).getD 0) 1 },
              metadata.credentialGeneration ≤ metadata'.credentialGeneration := by
            intro metadata hin
            rw [hmetadata]
            exact exists_mem_write discoveryWrite
              (R := fun a b : OwnerDiscovery => a.credentialGeneration ≤ b.credentialGeneration)
              hin (le_refl _) (Sound.le_next hsmall hin)
          cases discoveryWrite with
          | done =>
            have hfiles := @OwnerState.Sound.files _ ({ dir₁ with ownerMetadata := some _ }) h _
              htokens hknown hnext
            refine @OwnerState.Sound.accepts _ ⟨_, _⟩ hfiles _ hfile hvalid rfl rfl ?_ ?_
            · exact fun generation hin => h.lt_next hsmall hin
            · intro replaced hin
              refine ⟨hknown replaced (h.revokedKnown replaced hin), ?_⟩
              intro hsame
              exact hfiles.replaced replaced (hsame ▸ hfile) hin
          | failed replaced =>
            exact howner ▸ @OwnerState.Sound.files _ ({ dir₁ with ownerMetadata := _ }) h _
              htokens hknown hnext
          | crashed replaced =>
            exact howner ▸ @OwnerState.Sound.files _ ({ dir₁ with ownerMetadata := _ }) h _
              htokens hknown hnext

theorem Sound.afterRotation (h : s.Sound) (howner : s.owner = some owner)
    (hfits : s.Fits (.rotateToken bytes tokenWrite discoveryWrite receivers)) :
    (s.afterRotation owner bytes tokenWrite discoveryWrite receivers).Sound := by
  obtain ⟨hfresh, hsmall, hkeeps⟩ := hfits owner howner
  obtain ⟨hgeneration, hmetadata⟩ := h.metadata owner howner
  obtain ⟨hfile, hvalid⟩ := h.token owner howner
  have hknown : ∀ token ∈ s.known, token ∈ generateToken bytes :: s.known :=
    fun token htoken => List.mem_cons_of_mem _ htoken
  have htokens : ∀ token ∈ tokenWrite.write s.dir.controlToken (generateToken bytes),
      token ∈ s.dir.controlToken ∨ token ∉ s.known ∧ token ∈ generateToken bytes :: s.known := by
    intro token htoken
    refine (mem_write htoken).imp_right ?_
    rintro rfl
    exact ⟨hfresh, List.mem_cons_self⟩
  have hsame : ∀ metadata ∈ s.dir.ownerMetadata, ∃ metadata' ∈ s.dir.ownerMetadata,
      metadata.credentialGeneration ≤ metadata'.credentialGeneration :=
    fun metadata hin => ⟨metadata, hin, le_refl _⟩
  have hnext : ∀ metadata ∈ s.dir.ownerMetadata, ∃ metadata' ∈
      discoveryWrite.write s.dir.ownerMetadata { owner.discovery with
        credentialGeneration := satAddU64 owner.discovery.credentialGeneration 1 },
      metadata.credentialGeneration ≤ metadata'.credentialGeneration := by
    intro metadata hin
    apply exists_mem_write discoveryWrite
      (R := fun a b : OwnerDiscovery => a.credentialGeneration ≤ b.credentialGeneration) hin
      (le_refl _)
    rw [hmetadata] at hin
    obtain rfl := Option.some.inj hin
    show owner.discovery.credentialGeneration ≤ satAddU64 owner.discovery.credentialGeneration 1
    unfold satAddU64
    omega
  unfold OwnerState.afterRotation rotateToken
  cases tokenWrite with
  | failed replaced =>
    -- the token file is as it was, and so is the owner
    obtain rfl : replaced = false := by simpa [KeepsToken] using hkeeps
    exact { h with
      token := fun owner' howner' => h.token owner' (howner.trans howner')
      metadata := fun owner' howner' => h.metadata owner' (howner.trans howner')
      current := fun owner' howner' => h.current owner' (howner.trans howner')
      known := fun token hin => hknown token (h.known token hin)
      revokedKnown := fun token hin => hknown token (h.revokedKnown token hin) }
  | crashed replaced =>
    exact @OwnerState.Sound.files _ ({ s.dir with controlToken := _ }) h _ htokens hknown hsame
  | done =>
    cases discoveryWrite with
    | failed replaced => cases hkeeps
    | crashed replaced =>
      exact @OwnerState.Sound.files _ ⟨_, _⟩ h _ htokens hknown hnext
    | done =>
      have hfiles := @OwnerState.Sound.files _ ⟨_, _⟩ h _ htokens hknown hnext
      have hrotated : (owner.auth.rotate receivers (generateToken bytes)
          (satAddU64 owner.discovery.credentialGeneration 1)).generation =
          satAddU64 owner.discovery.credentialGeneration 1 := rfl
      refine @OwnerState.Sound.accepts _ ⟨_, _⟩ hfiles _ rfl validToken_generateToken
        hrotated.symm rfl ?_ ?_
      · intro generation hin
        show generation < satAddU64 owner.discovery.credentialGeneration 1
        have hlt := h.lt_next (fun metadata hin => by
          rw [hmetadata] at hin
          exact Option.some.inj hin ▸ hsmall) hin
        rw [hmetadata] at hlt
        exact hlt
      · intro token hin
        show token ∈ generateToken bytes :: s.known ∧ token ≠ generateToken bytes
        have htoken : token ∈ s.known := by
          rcases List.mem_cons.mp hin with rfl | hin
          · exact h.known owner.auth.token hfile
          · exact h.revokedKnown token hin
        refine ⟨hknown token htoken, ?_⟩
        rintro rfl
        exact hfresh htoken

theorem step_sound {e : OwnerEvent} (h : s.Sound) (hfits : s.Fits e)
    (hstep : machine.step s e = some t) : t.Sound := by
  cases e with
  | claim identity bytes tokenWrite discoveryWrite =>
    obtain rfl := Option.some.inj hstep
    exact h.afterClaim hfits
  | rotateToken bytes tokenWrite discoveryWrite receivers =>
    obtain ⟨owner, howner, rfl⟩ := Option.map_eq_some_iff.mp hstep
    exact h.afterRotation howner hfits
  | request request now =>
    have hchange : s.withAuth (fun auth => (auth.requireBearer request now).1) = some t := hstep
    refine h.withAuth ?_ hchange
    intro auth
    obtain ⟨htoken, hgeneration, -⟩ := @AuthVerifier.requireBearer_secret auth request now
    exact ⟨htoken, hgeneration⟩
  | bootstrapSession generation id csrfToken now =>
    have hchange : s.withAuth (fun auth => auth.bootstrapSession generation id csrfToken now) =
        some t := hstep
    refine h.withAuth ?_ hchange
    exact fun _ => ⟨rfl, rfl⟩
  | logoutSession cookie =>
    have hchange : s.withAuth (fun auth => auth.logoutSession cookie) = some t := hstep
    refine h.withAuth ?_ hchange
    intro auth
    unfold AuthVerifier.logoutSession
    split <;> exact ⟨rfl, rfl⟩
  | exit =>
    obtain rfl := Option.some.inj hstep
    exact h.exit

/-- Over any number of claims, rotations, failing writes and crashes. -/
theorem run_rotationLawful (hs : s.Unowned) (h : machine.Run Fits s t) : t.RotationLawful :=
  (h.invariant (fun _ _ _ hsound hfits hstep => step_sound hsound hfits hstep) hs.sound).lawful

def localhost : OwnerIdentity := ⟨"http://127.0.0.1:9876", "0.1.0", 100, "100:1"⟩

/-- Two rotations, one of which fails in its first write, and a crash inside a third. -/
theorem localhost_rotationLawful : ∃ t : OwnerState, t.RotationLawful ∧
    t.generations = [3, 2, 1] ∧ t.revoked = [generateToken fun _ => 0] := by
  obtain ⟨t, hrun, hp⟩ := Machine.exists_run_of_execUnder (M := machine) (C := Fits) (s := {})
    (fun t => t.generations = [3, 2, 1] ∧ t.revoked = [generateToken fun _ => 0])
    [.claim localhost (fun _ => 0) .done .done, .rotateToken (fun _ => 1) (.failed false) .done 0,
      .rotateToken (fun _ => 2) .done .done 1, .rotateToken (fun _ => 3) .done (.crashed false) 1,
      .claim localhost (fun _ => 4) .done .done]
    (by decide +kernel)
  refine ⟨t, run_rotationLawful ⟨rfl, rfl, rfl, ?_⟩ hrun, of_decide_eq_true hp⟩
  exact fun token htoken => absurd htoken (Option.not_mem_none token)

/-- A rotation that fails in its second write has replaced the token. -/
theorem localhost_tokenReplaced : ∃ t : OwnerState, machine.Reaches {} t ∧
    loadControlToken t.dir = .ok (generateToken fun _ => 1) ∧
    (t.owner.map fun owner => owner.auth.token) = some (generateToken fun _ => 0) ∧
    ¬t.RotationLawful := by
  obtain ⟨t, hrun, hp⟩ := Machine.exists_reaches_of_exec (M := machine) (s := {})
    (fun t => (loadControlToken t.dir).toOption = some (generateToken fun _ => 1) ∧
      (t.owner.map fun owner => owner.auth.token) = some (generateToken fun _ => 0))
    [.claim localhost (fun _ => 0) .done .done, .rotateToken (fun _ => 1) .done (.failed false) 0]
    (by decide +kernel)
  obtain ⟨hfile, howner⟩ := of_decide_eq_true hp
  have hloaded : loadControlToken t.dir = .ok (generateToken fun _ => 1) := by
    cases hload : loadControlToken t.dir with
    | ok token =>
      rw [hload] at hfile
      exact congrArg Except.ok (Option.some.inj hfile)
    | error e =>
      rw [hload] at hfile
      cases hfile
  refine ⟨t, hrun, hloaded, howner, ?_⟩
  intro h
  obtain ⟨owner, hin, htoken⟩ := Option.map_eq_some_iff.mp howner
  have hstored := (h.stored owner hin).1
  rw [hloaded, htoken] at hstored
  have hdifferent : (generateToken fun _ => 1) ≠ generateToken fun _ => 0 := by decide +kernel
  exact hdifferent (Except.ok.inj hstored)

end OwnerState

end Supervisor
