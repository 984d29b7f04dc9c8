import Supervisor.OperationLedger

namespace Supervisor

open KeyedRows (Unique)

namespace LedgerState

/-- The record of an operation that was given up. -/
structure IsClosed (row : ProcessOperation) : Prop where
  phase : row.phase = "failed_closed"
  completed : row.completed = true
  compensation : row.compensation.isSome = true

/-- What a request under a recorded id is answered. -/
def replayAnswer (s : LedgerState) (request : OperationRequest) (r : LookupReplies)
    (row : ProcessOperation) : Except AppError ProcessOperation :=
  match s.accepted request r with
  | .error error => .error error
  | .ok _ =>
    if request.isReplayOf row then .ok row
    else .error (.invalidRequest "operation_id was already used for a different mutation")

/-- An operation id executes at most once. -/
structure ExecutesOnce (s : LedgerState) : Prop where
  once : ∀ a ∈ s.effects, ∀ b ∈ s.effects, a.operationId = b.operationId → a.call = b.call
  /-- A request under a recorded id has no effect and is answered from the record. -/
  replayed : ∀ row ∈ s.operations, ∀ request r t, request.operationId = row.operationId →
    ledgerMachine.step s (.request request r) = some t →
      t = { s with begun := s.begun + 1 }.answer s.begun request (s.replayAnswer request r row)
  /-- A request whose id was recorded since it began has no effect and is answered an error. -/
  rejected : ∀ c ∈ s.calls, c.point = .claiming → ∀ row ∈ s.operations,
    row.operationId = c.request.operationId → ∀ failure t,
      ledgerMachine.step s (.claim c.call failure) = some t →
        ∃ error, t = (s.endCall c.call).answer c.call c.request (.error error)
  /-- An outcome that was reported stays recorded. -/
  recorded : ∀ a ∈ s.answers, ∀ operation, a.answer = .ok operation →
    operation.completed = true → operation ∈ s.operations
  failedClosed : s.isServing = true → ∀ id ∈ s.interrupted,
    ∃ row ∈ s.operations, row.operationId = id ∧ IsClosed row
  notResumed : ∀ id ∈ s.interrupted, ∀ e t, ledgerMachine.step s e = some t →
    ∀ x ∈ t.effects, x.operationId = id → x ∈ s.effects

/-- The bootstraps record what they fail closed, and keep every process with a recorded operation. -/
def KeepsOperations (s : LedgerState) : LedgerEvent → Prop
  | .bootstrap r config =>
    (r.isListed = true ∧ ∀ row ∈ s.operations, row.completed = false →
      r.isSaved row.operationId = true) ∧
      ∀ specs ∈ config, ∀ row ∈ s.operations, ∃ spec ∈ specs, spec.name = row.name
  | _ => True

/-- The ids, the locks and the records agree. -/
structure Sound (s : LedgerState) : Prop where
  keys : Unique ProcessOperation.operationId s.operations
  callKeys : Unique OperationCall.call s.calls
  locks : Unique (fun c : OperationCall => c.request.name) s.calls
  begun : ∀ c ∈ s.calls, c.call < s.begun
  operation : ∀ c ∈ s.calls, c.operation.operationId = c.request.operationId ∧
    c.operation.name = c.request.name ∧ c.operation.completed = false
  claiming : ∀ c ∈ s.calls, c.point = .claiming → ∀ row ∈ s.operations,
    row.operationId = c.request.operationId → row.name ≠ c.request.name
  executing : ∀ c ∈ s.calls, c.point = .executing → ∃ row ∈ s.operations,
    row.operationId = c.request.operationId ∧ row.name = c.request.name ∧ row.completed = false
  logged : ∀ a ∈ s.effects, ∃ row ∈ s.operations, row.operationId = a.operationId
  owner : ∀ a ∈ s.effects, ∀ c ∈ s.calls, c.point = .executing →
    c.request.operationId = a.operationId → a.call = c.call
  once : ∀ a ∈ s.effects, ∀ b ∈ s.effects, a.operationId = b.operationId → a.call = b.call
  recorded : ∀ a ∈ s.answers, ∀ operation, a.answer = .ok operation →
    operation.completed = true → operation ∈ s.operations
  down : s.isServing = false → s.calls = []
  interrupted : ∀ id ∈ s.interrupted, ∃ row ∈ s.operations, row.operationId = id ∧
    (IsClosed row ∨ s.isServing = false ∧ row.completed = false)

section Lookup

variable {s t : LedgerState}

theorem saveProcessOperation_ok {operation : ProcessOperation}
    (h : s.saveProcessOperation operation = .ok t) :
    (∃ row, s.getProcessOperation operation.operationId = some row ∧ row.name = operation.name ∧
        t = { s with
          operations := KeyedRows.update ProcessOperation.operationId operation.operationId
            (fun _ => operation) s.operations }) ∨
      s.getProcessOperation operation.operationId = none ∧
        t = { s with operations := s.operations ++ [operation] } := by
  unfold saveProcessOperation at h
  split at h
  · rename_i row hrow
    split at h
    · rename_i hsame
      cases h
      exact .inl ⟨row, hrow, hsame.1, rfl⟩
    · cases h
  · rename_i hnone
    split at h
    · cases h
      exact .inr ⟨hnone, rfl⟩
    · cases h

theorem orElse_ok {α : Type} {failure : Option RepoError} {result : Except RepoError α} {a : α}
    (h : RepoError.orElse failure result = .ok a) : result = .ok a := by
  cases failure with
  | none => exact h
  | some error => cases h

theorem Sound.row_eq (hs : s.Sound) {row row' : ProcessOperation} (hrow : row ∈ s.operations)
    (hrow' : row' ∈ s.operations) (hid : row.operationId = row'.operationId) : row = row' :=
  hs.keys.eq_of_key hrow hrow' hid

theorem Sound.executing_eq (hs : s.Sound) {c c' : OperationCall} (hc : c ∈ s.calls)
    (hc' : c' ∈ s.calls) (hpoint : c.point = .executing) (hpoint' : c'.point = .executing)
    (hid : c.request.operationId = c'.request.operationId) : c = c' := by
  obtain ⟨row, hrow, hrowId, hname, -⟩ := hs.executing c hc hpoint
  obtain ⟨row', hrow', hrowId', hname', -⟩ := hs.executing c' hc' hpoint'
  have hsame : row = row' := hs.row_eq hrow hrow' (hrowId.trans (hid.trans hrowId'.symm))
  have hnames : c.request.name = c'.request.name := by
    rw [← hname, ← hname', hsame]
  exact hs.locks.eq_of_key hc hc' hnames

theorem Sound.claim_none (hs : s.Sound) {c : OperationCall} (hc : c ∈ s.calls)
    (hpoint : c.point = .claiming) {t : LedgerState}
    (h : s.saveProcessOperation c.operation = .ok t) :
    s.getProcessOperation c.request.operationId = none ∧
      t = { s with operations := s.operations ++ [c.operation] } := by
  obtain ⟨hid, hname, -⟩ := hs.operation c hc
  rcases saveProcessOperation_ok h with ⟨row, hrow, hsame, -⟩ | ⟨hnone, ht⟩
  · rw [hid] at hrow
    exact absurd (hsame.trans hname)
      (hs.claiming c hc hpoint row (KeyedRows.find_mem hrow) (KeyedRows.find_key hrow))
  · rw [hid] at hnone
    exact ⟨hnone, ht⟩

end Lookup

section Steps

variable {s t : LedgerState}

theorem Sound.withBegun (hs : s.Sound) : { s with begun := s.begun + 1 }.Sound :=
  { hs with begun := fun c hc => Nat.lt_succ_of_lt (hs.begun c hc) }

theorem Sound.answer (hs : s.Sound) {call : ℕ} {request : OperationRequest}
    {result : Except AppError ProcessOperation}
    (hresult : ∀ operation, result = .ok operation → operation.completed = true →
      operation ∈ s.operations) : (s.answer call request result).Sound :=
  { hs with
    recorded := by
      intro a ha operation hok hcompleted
      rcases List.mem_append.mp ha with ha | ha
      · exact hs.recorded a ha operation hok hcompleted
      · rw [List.mem_singleton.mp ha] at hok
        exact hresult operation hok hcompleted }

theorem Sound.answerError (hs : s.Sound) (call : ℕ) (request : OperationRequest)
    (error : AppError) : (s.answer call request (.error error)).Sound :=
  hs.answer fun _ h => by cases h

theorem Sound.endCall (hs : s.Sound) (call : ℕ) : (s.endCall call).Sound := by
  have hmem {c : OperationCall} (hc : c ∈ (s.endCall call).calls) : c ∈ s.calls :=
    (List.mem_filter.mp hc).1
  refine { hs with
    callKeys := hs.callKeys.filter _
    locks := hs.locks.filter _
    begun := fun c hc => hs.begun c (hmem hc)
    operation := fun c hc => hs.operation c (hmem hc)
    claiming := fun c hc => hs.claiming c (hmem hc)
    executing := fun c hc => hs.executing c (hmem hc)
    owner := fun a ha c hc => hs.owner a ha c (hmem hc)
    down := fun hdown => ?_ }
  unfold LedgerState.endCall
  rw [hs.down hdown, List.filter_nil]

theorem claimed_fields (request : OperationRequest) (spec : ProcessSpec)
    (now : Instant) : (request.operation spec now).operationId = request.operationId ∧
      (request.operation spec now).name = request.name ∧
      (request.operation spec now).completed = false := by
  unfold OperationRequest.operation
  split
  · exact ⟨rfl, rfl, rfl⟩
  · exact ⟨rfl, rfl, rfl⟩

theorem isBusy_of_accepted {request : OperationRequest} {r : LookupReplies} {spec : ProcessSpec}
    (h : s.accepted request r = .ok spec) : ∀ c ∈ s.calls, c.request.name ≠ request.name := by
  unfold accepted at h
  split at h
  · cases h
  · split at h
    · cases h
    · rename_i hfree
      rw [Bool.or_eq_true, not_or] at hfree
      intro c hc hname
      exact hfree.2 (List.any_eq_true.mpr ⟨c, hc, decide_eq_true hname⟩)

theorem Sound.beginRequest (hs : s.Sound) (hserving : s.isServing = true)
    (request : OperationRequest) (r : LookupReplies) : (s.beginRequest request r).Sound := by
  unfold LedgerState.beginRequest
  split
  · exact hs.withBegun.answerError s.begun request _
  · rename_i spec haccepted
    split
    · rename_i replay hfound
      apply hs.withBegun.answer
      intro operation hok hcompleted
      split at hok
      · cases hok
        exact KeyedRows.find_mem hfound
      · cases hok
    · rename_i hnone
      have hfree := isBusy_of_accepted haccepted
      have hnew := KeyedRows.find_eq_none.mp hnone
      obtain ⟨hid, hname, hopen⟩ := claimed_fields request spec r.now
      have hcases {c : OperationCall} (hc : c ∈ s.calls ++
          [⟨s.begun, request, request.operation spec r.now, .claiming⟩]) : c ∈ s.calls ∨
            c = ⟨s.begun, request, request.operation spec r.now, .claiming⟩ := by
        rcases List.mem_append.mp hc with hc | hc
        · exact .inl hc
        · exact .inr (List.mem_singleton.mp hc)
      refine { hs with
        callKeys := hs.callKeys.append fun c hc => (hs.begun c hc).ne
        locks := hs.locks.append hfree
        begun := fun c hc => ?_
        operation := fun c hc => ?_
        claiming := fun c hc hpoint row hrow hrowId => ?_
        executing := fun c hc hpoint => ?_
        owner := fun a ha c hc hpoint => ?_
        down := fun hdown => ?_ }
      · rcases hcases hc with hc | rfl
        · exact Nat.lt_succ_of_lt (hs.begun c hc)
        · exact Nat.lt_succ_self _
      · rcases hcases hc with hc | rfl
        · exact hs.operation c hc
        · exact ⟨hid, hname, hopen⟩
      · rcases hcases hc with hc | rfl
        · exact hs.claiming c hc hpoint row hrow hrowId
        · exact absurd hrowId (hnew row hrow)
      · rcases hcases hc with hc | rfl
        · exact hs.executing c hc hpoint
        · cases hpoint
      · rcases hcases hc with hc | rfl
        · exact hs.owner a ha c hc hpoint
        · cases hpoint
      · rw [hserving] at hdown
        cases hdown

/-- Under the lock of its process the claim records a new operation. -/
theorem Sound.claim (hs : s.Sound) {c : OperationCall} (hc : c ∈ s.calls)
    (hpoint : c.point = .claiming) (failure : Option RepoError) : (s.claim c failure).Sound := by
  unfold LedgerState.claim
  split
  · exact (hs.endCall c.call).answerError c.call c.request _
  · rename_i t hsave
    obtain ⟨hnone, rfl⟩ := hs.claim_none hc hpoint (orElse_ok hsave)
    have hnew := KeyedRows.find_eq_none.mp hnone
    obtain ⟨hid, hname, hopen⟩ := hs.operation c hc
    have hfind : KeyedRows.find OperationCall.call c.call s.calls = some c :=
      hs.callKeys.find_of_mem hc
    have hcases {d : OperationCall} (hd : d ∈ KeyedRows.update OperationCall.call c.call
        (fun c => { c with point := .executing }) s.calls) :
        d = { c with point := .executing } ∨ d ∈ s.calls ∧ d.call ≠ c.call :=
      (hs.callKeys.mem_update_iff hfind).mp hd
    have hgrow {row : ProcessOperation} (hrow : row ∈ s.operations) :
        row ∈ s.operations ++ [c.operation] := List.mem_append_left _ hrow
    have hrecord : c.operation ∈ s.operations ++ [c.operation] :=
      List.mem_append_right _ List.mem_cons_self
    refine {
      keys := hs.keys.append fun row hrow => hid ▸ hnew row hrow
      callKeys := hs.callKeys.update fun _ h => h
      locks := ?_
      begun := fun d hd => ?_
      operation := fun d hd => ?_
      claiming := fun d hd hclaiming row hrow hrowId => ?_
      executing := fun d hd hexecuting => ?_
      logged := fun a ha => ?_
      owner := fun a ha d hd hexecuting hsame => ?_
      once := hs.once
      recorded := fun a ha operation hok hcompleted => hgrow (hs.recorded a ha operation hok hcompleted)
      down := fun hdown => ?_
      interrupted := fun id hid' => ?_ }
    · have hnames : (KeyedRows.update OperationCall.call c.call
          (fun c => { c with point := .executing }) s.calls).map (fun c => c.request.name) =
          s.calls.map fun c => c.request.name := by
        rw [KeyedRows.update, List.map_map]
        apply List.map_congr_left
        intro d _
        rw [Function.comp_apply]
        split
        · rfl
        · rfl
      rw [KeyedRows.Unique, hnames]
      exact hs.locks
    · rcases hcases hd with rfl | ⟨hd, -⟩
      · exact hs.begun c hc
      · exact hs.begun d hd
    · rcases hcases hd with rfl | ⟨hd, -⟩
      · exact hs.operation c hc
      · exact hs.operation d hd
    · rcases hcases hd with rfl | ⟨hd, hne⟩
      · cases hclaiming
      · rcases List.mem_append.mp hrow with hrow | hrow
        · exact hs.claiming d hd hclaiming row hrow hrowId
        · rw [List.mem_singleton.mp hrow, hname]
          intro heq
          exact hne (congrArg OperationCall.call (hs.locks.eq_of_key hc hd heq)).symm
    · rcases hcases hd with rfl | ⟨hd, -⟩
      · exact ⟨c.operation, hrecord, hid, hname, hopen⟩
      · obtain ⟨row, hrow, hfacts⟩ := hs.executing d hd hexecuting
        exact ⟨row, hgrow hrow, hfacts⟩
    · obtain ⟨row, hrow, hrowId⟩ := hs.logged a ha
      exact ⟨row, hgrow hrow, hrowId⟩
    · rcases hcases hd with rfl | ⟨hd, -⟩
      · -- an effect under the id would have left a record
        obtain ⟨row, hrow, hrowId⟩ := hs.logged a ha
        exact absurd (hrowId.trans hsame.symm) (hnew row hrow)
      · exact hs.owner a ha d hd hexecuting hsame
    · have hnil := hs.down hdown
      rw [hnil] at hc
      cases hc
    · obtain ⟨row, hrow, hrowId, hclosed⟩ := hs.interrupted id hid'
      exact ⟨row, hgrow hrow, hrowId, hclosed⟩

theorem applyEffect_eq (s : LedgerState) (name : String) (effect : ProcessEffect) :
    ∃ specs, s.applyEffect name effect = { s with specs } := by
  cases effect with
  | specSaved _ => exact ⟨_, rfl⟩
  | slotAllocated _ | spawned _ | stopped _ | retired _ | promoted _ => exact ⟨_, rfl⟩

theorem Sound.perform (hs : s.Sound) {c : OperationCall} (hc : c ∈ s.calls)
    (hpoint : c.point = .executing) (effect : ProcessEffect) : (s.perform c effect).Sound := by
  obtain ⟨specs, hspecs⟩ := s.applyEffect_eq c.request.name effect
  have hcases {a : LoggedEffect}
      (ha : a ∈ s.effects ++ [⟨c.call, c.request.operationId, effect⟩]) :
      a ∈ s.effects ∨ a = ⟨c.call, c.request.operationId, effect⟩ := by
    rcases List.mem_append.mp ha with ha | ha
    · exact .inl ha
    · exact .inr (List.mem_singleton.mp ha)
  unfold LedgerState.perform
  rw [hspecs]
  refine { hs with
    logged := fun a ha => ?_
    owner := fun a ha d hd hexecuting hsame => ?_
    once := fun a ha b hb hsame => ?_ }
  · rcases hcases ha with ha | rfl
    · exact hs.logged a ha
    · obtain ⟨row, hrow, hid, -⟩ := hs.executing c hc hpoint
      exact ⟨row, hrow, hid⟩
  · rcases hcases ha with ha | rfl
    · exact hs.owner a ha d hd hexecuting hsame
    · rw [hs.executing_eq hc hd hpoint hexecuting hsame.symm]
  · rcases hcases ha with ha | rfl
    · rcases hcases hb with hb | rfl
      · exact hs.once a ha b hb hsame
      · exact hs.owner a ha c hc hpoint hsame.symm
    · rcases hcases hb with hb | rfl
      · exact (hs.owner b hb c hc hpoint hsame).symm
      · rfl

/-- The last record replaces the first. -/
theorem Sound.finish (hs : s.Sound) {c : OperationCall} (hc : c ∈ s.calls)
    (hpoint : c.point = .executing) (progress : OperationProgress) (failure : Option RepoError) :
    (s.finish c progress failure).Sound := by
  simp only [LedgerState.finish]
  split
  · exact (hs.endCall c.call).answerError c.call c.request _
  · rename_i t hsave
    obtain ⟨hid, hname, -⟩ := hs.operation c hc
    obtain ⟨row, hrow, hrowId, hrowName, hopen⟩ := hs.executing c hc hpoint
    have hfind : KeyedRows.find ProcessOperation.operationId c.request.operationId s.operations =
        some row := hrowId ▸ hs.keys.find_of_mem hrow
    have hserving : s.isServing = true := by
      by_contra hdown
      rw [Bool.not_eq_true] at hdown
      rw [hs.down hdown] at hc
      cases hc
    obtain rfl : t = { s with
        operations := KeyedRows.update ProcessOperation.operationId c.request.operationId
          (fun _ => c.operation.finished progress) s.operations } := by
      have hsaved := saveProcessOperation_ok (orElse_ok hsave)
      have hkey : (c.operation.finished progress).operationId = c.request.operationId := hid
      rw [hkey] at hsaved
      rcases hsaved with ⟨-, -, -, ht⟩ | ⟨hnone, -⟩
      · exact ht
      · rw [getProcessOperation, hfind] at hnone
        cases hnone
    have hmem {other : ProcessOperation} : other ∈ KeyedRows.update ProcessOperation.operationId
        c.request.operationId (fun _ => c.operation.finished progress) s.operations ↔
          other = c.operation.finished progress ∨
            other ∈ s.operations ∧ other.operationId ≠ c.request.operationId :=
      hs.keys.mem_update_iff hfind
    -- a record stays, or is the one that is replaced
    have hstays {other : ProcessOperation} (hother : other ∈ s.operations) :
        ∃ other' ∈ KeyedRows.update ProcessOperation.operationId c.request.operationId
          (fun _ => c.operation.finished progress) s.operations,
          other'.operationId = other.operationId := by
      by_cases hsame : other.operationId = c.request.operationId
      · exact ⟨_, hmem.mpr (.inl rfl), hid.trans hsame.symm⟩
      · exact ⟨other, hmem.mpr (.inr ⟨hother, hsame⟩), rfl⟩
    have hended : { s with
        operations := KeyedRows.update ProcessOperation.operationId c.request.operationId
          (fun _ => c.operation.finished progress) s.operations
        calls := s.calls.filter fun d => d.call ≠ c.call }.Sound := by
      have hcall {d : OperationCall} (hd : d ∈ s.calls.filter fun d => d.call ≠ c.call) :
          d ∈ s.calls ∧ d ≠ c := by
        obtain ⟨hd, hne⟩ := List.mem_filter.mp hd
        rw [decide_eq_true_eq] at hne
        exact ⟨hd, fun heq => hne (congrArg OperationCall.call heq)⟩
      refine {
        keys := hs.keys.update fun _ _ => hid
        callKeys := hs.callKeys.filter _
        locks := hs.locks.filter _
        begun := fun d hd => hs.begun d (hcall hd).1
        operation := fun d hd => hs.operation d (hcall hd).1
        claiming := fun d hd hclaiming other hother hotherId => ?_
        executing := fun d hd hexecuting => ?_
        logged := fun a ha => ?_
        owner := fun a ha d hd => hs.owner a ha d (hcall hd).1
        once := hs.once
        recorded := fun a ha operation hok hcompleted => ?_
        down := fun hdown => by rw [hserving] at hdown; cases hdown
        interrupted := fun id hid' => ?_ }
      · rcases hmem.mp hother with rfl | ⟨hother, -⟩
        · intro heq
          exact (hcall hd).2 (hs.locks.eq_of_key (hcall hd).1 hc (heq.symm.trans hname))
        · exact hs.claiming d (hcall hd).1 hclaiming other hother hotherId
      · obtain ⟨other, hother, hotherId, hfacts⟩ := hs.executing d (hcall hd).1 hexecuting
        refine ⟨other, hmem.mpr (.inr ⟨hother, fun heq => (hcall hd).2 ?_⟩), hotherId, hfacts⟩
        exact hs.executing_eq (hcall hd).1 hc hexecuting hpoint (hotherId.symm.trans heq)
      · obtain ⟨other, hother, hotherId⟩ := hs.logged a ha
        obtain ⟨other', hother', hsame⟩ := hstays hother
        exact ⟨other', hother', hsame.trans hotherId⟩
      · have hbefore := hs.recorded a ha operation hok hcompleted
        refine hmem.mpr (.inr ⟨hbefore, fun heq => ?_⟩)
        -- the record of a request that executes is incomplete
        rw [hs.row_eq hbefore hrow (heq.trans hrowId.symm), hopen] at hcompleted
        cases hcompleted
      · obtain ⟨other, hother, hotherId, hclosed⟩ := hs.interrupted id hid'
        refine ⟨other, hmem.mpr (.inr ⟨hother, fun heq => ?_⟩), hotherId, hclosed⟩
        rcases hclosed with hclosed | ⟨hdown, -⟩
        · have hcompleted := hclosed.completed
          rw [hs.row_eq hother hrow (heq.trans hrowId.symm), hopen] at hcompleted
          cases hcompleted
        · rw [hserving] at hdown
          cases hdown
    apply hended.answer
    intro operation hok _
    cases hok
    exact hmem.mpr (.inl rfl)

theorem Sound.crash (hs : s.Sound) : s.crash.Sound :=
  { keys := hs.keys
    callKeys := List.nodup_nil
    locks := List.nodup_nil
    begun := fun _ hc => absurd hc List.not_mem_nil
    operation := fun _ hc => absurd hc List.not_mem_nil
    claiming := fun _ hc => absurd hc List.not_mem_nil
    executing := fun _ hc => absurd hc List.not_mem_nil
    logged := hs.logged
    owner := fun _ _ _ hc => absurd hc List.not_mem_nil
    once := hs.once
    recorded := hs.recorded
    down := fun _ => rfl
    interrupted := by
      intro id hid
      rcases List.mem_append.mp hid with hid | hid
      · obtain ⟨row, hrow, hrowId, hclosed | ⟨-, hopen⟩⟩ := hs.interrupted id hid
        · exact ⟨row, hrow, hrowId, .inl hclosed⟩
        · exact ⟨row, hrow, hrowId, .inr ⟨rfl, hopen⟩⟩
      · obtain ⟨c, hc, rfl⟩ := List.mem_map.mp hid
        obtain ⟨hc, hpoint⟩ := List.mem_filter.mp hc
        obtain ⟨row, hrow, hrowId, -, hopen⟩ := hs.executing c hc (of_decide_eq_true hpoint)
        exact ⟨row, hrow, hrowId, .inr ⟨rfl, hopen⟩⟩ }

end Steps

section Bootstrap

variable {s u : LedgerState} {r : SweepReplies} {operation : ProcessOperation}

/-- The operations of `s`, some of them failed closed. -/
structure Swept (s u : LedgerState) : Prop where
  rest : ∃ operations, u = { s with operations }
  keys : Unique ProcessOperation.operationId u.operations
  rows : ∀ row ∈ s.operations,
    row ∈ u.operations ∨ row.completed = false ∧ row.failedClosed ∈ u.operations
  old : ∀ row' ∈ u.operations, ∃ row ∈ s.operations, row.operationId = row'.operationId ∧
    row.name = row'.name

theorem Swept.refl (hkeys : Unique ProcessOperation.operationId s.operations) : Swept s s where
  rest := ⟨s.operations, rfl⟩
  keys := hkeys
  rows _ hrow := .inl hrow
  old row hrow := ⟨row, hrow, rfl, rfl⟩

/-- An incomplete operation is failed closed when it is saved, and the others stay. -/
theorem Swept.sweepOne (hu : Swept s u) (hkeys : Unique ProcessOperation.operationId s.operations)
    (hoperation : operation ∈ s.operations) (hopen : operation.completed = false) :
    Swept s (u.sweepOne r operation) ∧
      (r.isSaved operation.operationId = true →
        operation.failedClosed ∈ (u.sweepOne r operation).operations) ∧
      ∀ other ∈ s.operations, other.failedClosed ∈ u.operations →
        other.failedClosed ∈ (u.sweepOne r operation).operations := by
  unfold LedgerState.sweepOne
  by_cases hsaved : r.isSaved operation.operationId = true
  swap
  · rw [if_neg hsaved]
    exact ⟨hu, fun h => absurd h hsaved, fun _ _ h => h⟩
  rw [if_pos hsaved]
  -- the row of the operation is the one that was listed, or is failed closed already
  obtain ⟨row, hrow, hid, hname, hkind⟩ : ∃ row ∈ u.operations,
      row.operationId = operation.operationId ∧ row.name = operation.name ∧
        row.kind = operation.kind := by
    rcases hu.rows operation hoperation with hsame | ⟨-, hclosed⟩
    · exact ⟨operation, hsame, rfl, rfl, rfl⟩
    · exact ⟨operation.failedClosed, hclosed, rfl, rfl, rfl⟩
  have hfind : u.getProcessOperation operation.failedClosed.operationId = some row :=
    hid ▸ hu.keys.find_of_mem hrow
  have hsave : u.saveProcessOperation operation.failedClosed = .ok { u with
      operations := KeyedRows.update ProcessOperation.operationId
        operation.failedClosed.operationId (fun _ => operation.failedClosed) u.operations } := by
    unfold saveProcessOperation
    rw [hfind]
    exact if_pos ⟨hname, hkind⟩
  rw [hsave]
  have hmem {row' : ProcessOperation} : row' ∈ KeyedRows.update ProcessOperation.operationId
      operation.failedClosed.operationId (fun _ => operation.failedClosed) u.operations ↔
        row' = operation.failedClosed ∨
          row' ∈ u.operations ∧ row'.operationId ≠ operation.operationId :=
    hu.keys.mem_update_iff hfind
  refine ⟨⟨?_, ?_, fun other hother => ?_, fun row' hrow' => ?_⟩,
    fun _ => hmem.mpr (.inl rfl), fun other hother hclosed => ?_⟩
  · obtain ⟨operations, rfl⟩ := hu.rest
    exact ⟨_, rfl⟩
  · exact hu.keys.update fun _ _ => rfl
  · by_cases hsame : other.operationId = operation.operationId
    · rw [hkeys.eq_of_key hother hoperation hsame]
      exact .inr ⟨hopen, hmem.mpr (.inl rfl)⟩
    · rcases hu.rows other hother with hstays | ⟨hopen', hclosed⟩
      · exact .inl (hmem.mpr (.inr ⟨hstays, hsame⟩))
      · exact .inr ⟨hopen', hmem.mpr (.inr ⟨hclosed, hsame⟩)⟩
  · rcases hmem.mp hrow' with rfl | ⟨hrow', -⟩
    · exact ⟨operation, hoperation, rfl, rfl⟩
    · exact hu.old row' hrow'
  · by_cases hsame : other.operationId = operation.operationId
    · rw [hkeys.eq_of_key hother hoperation hsame]
      exact hmem.mpr (.inl rfl)
    · exact hmem.mpr (.inr ⟨hclosed, hsame⟩)

theorem Swept.foldl (hkeys : Unique ProcessOperation.operationId s.operations)
    {operations : List ProcessOperation}
    (hlist : ∀ operation ∈ operations, operation ∈ s.operations ∧ operation.completed = false)
    (hu : Swept s u) :
    Swept s (operations.foldl (LedgerState.sweepOne r) u) ∧
      (∀ operation ∈ operations, r.isSaved operation.operationId = true →
        operation.failedClosed ∈ (operations.foldl (LedgerState.sweepOne r) u).operations) ∧
      ∀ other ∈ s.operations, other.failedClosed ∈ u.operations →
        other.failedClosed ∈ (operations.foldl (LedgerState.sweepOne r) u).operations := by
  induction operations generalizing u with
  | nil => exact ⟨hu, nofun, fun _ _ h => h⟩
  | cons operation operations ih =>
    obtain ⟨hoperation, hopen⟩ := hlist operation List.mem_cons_self
    obtain ⟨hfirst, hcloses, hkept⟩ := hu.sweepOne (r := r) hkeys hoperation hopen
    obtain ⟨hrest, hcloses', hkept'⟩ :=
      ih (fun operation h => hlist operation (List.mem_cons_of_mem _ h)) hfirst
    refine ⟨hrest, fun other hother hsaved => ?_, fun other hother hclosed => ?_⟩
    · rcases List.mem_cons.mp hother with rfl | hother
      · exact hkept' other hoperation (hcloses hsaved)
      · exact hcloses' other hother hsaved
    · exact hkept' other hother (hkept other hother hclosed)

/-- The sweep fails closed every incomplete operation, when its calls succeed. -/
theorem sweep_swept (hkeys : Unique ProcessOperation.operationId s.operations)
    (hlisted : r.isListed = true) (hsaved : ∀ row ∈ s.operations, row.completed = false →
      r.isSaved row.operationId = true) :
    Swept s (s.sweep r) ∧ ∀ row ∈ s.operations, row.completed = false →
      row.failedClosed ∈ (s.sweep r).operations := by
  unfold sweep
  rw [if_pos hlisted]
  have hlist : ∀ operation ∈ s.operations.filter fun operation => !operation.completed,
      operation ∈ s.operations ∧ operation.completed = false := by
    intro operation hoperation
    obtain ⟨hstored, hopen⟩ := List.mem_filter.mp hoperation
    rw [Bool.not_eq_true'] at hopen
    exact ⟨hstored, hopen⟩
  obtain ⟨hswept, hcloses, -⟩ := (Swept.refl hkeys).foldl (r := r) hkeys hlist
  refine ⟨hswept, fun row hrow hopen => hcloses row ?_ (hsaved row hrow hopen)⟩
  exact List.mem_filter.mpr ⟨hrow, by rw [hopen]; rfl⟩

theorem isClosed_failedClosed (operation : ProcessOperation) : IsClosed operation.failedClosed :=
  ⟨rfl, rfl, rfl⟩

theorem Sound.bootstrap (hs : s.Sound) (hdown : s.isServing = false)
    {config : Option (List ProcessSpec)} (hkeeps : s.KeepsOperations (.bootstrap r config)) :
    { (config.map (s.sweep r).applyConfig).getD (s.sweep r) with isServing := true }.Sound := by
  obtain ⟨⟨hlisted, hsaved⟩, hconfig⟩ := hkeeps
  obtain ⟨hswept, hcloses⟩ := sweep_swept hs.keys hlisted hsaved
  obtain ⟨operations, hrest⟩ := hswept.rest
  have hcalls := hs.down hdown
  -- the operations after the configuration are those of the sweep
  obtain ⟨specs, hspecs⟩ : ∃ specs, (config.map (s.sweep r).applyConfig).getD (s.sweep r) =
      { s with specs, operations := (s.sweep r).operations } := by
    cases config with
    | none =>
      refine ⟨s.specs, ?_⟩
      rw [Option.map_none, Option.getD_none, hrest]
    | some specs =>
      refine ⟨specs, ?_⟩
      rw [Option.map_some, Option.getD_some, applyConfig]
      have hall : ((s.sweep r).operations.filter fun operation =>
          specs.any fun spec => spec.name = operation.name) = (s.sweep r).operations := by
        apply List.filter_eq_self.mpr
        intro row' hrow'
        obtain ⟨row, hrow, -, hname⟩ := hswept.old row' hrow'
        obtain ⟨spec, hspec, hspecName⟩ := hconfig specs rfl row hrow
        exact List.any_eq_true.mpr ⟨spec, hspec, decide_eq_true (hspecName.trans hname)⟩
      rw [hall, hrest]
  rw [hspecs]
  have hstays {row : ProcessOperation} (hrow : row ∈ s.operations) :
      ∃ row' ∈ (s.sweep r).operations, row'.operationId = row.operationId := by
    rcases hswept.rows row hrow with hsame | ⟨-, hclosed⟩
    · exact ⟨row, hsame, rfl⟩
    · exact ⟨row.failedClosed, hclosed, rfl⟩
  refine { hs with
    keys := hswept.keys
    claiming := fun c hc => ?_
    executing := fun c hc => ?_
    logged := fun a ha => ?_
    recorded := fun a ha operation hok hcompleted => ?_
    down := nofun
    interrupted := fun id hid => ?_ }
  · have hc' : c ∈ s.calls := hc
    rw [hcalls] at hc'
    cases hc'
  · have hc' : c ∈ s.calls := hc
    rw [hcalls] at hc'
    cases hc'
  · obtain ⟨row, hrow, hrowId⟩ := hs.logged a ha
    obtain ⟨row', hrow', hsame⟩ := hstays hrow
    exact ⟨row', hrow', hsame.trans hrowId⟩
  · rcases hswept.rows operation (hs.recorded a ha operation hok hcompleted) with
      hsame | ⟨hopen, -⟩
    · exact hsame
    · rw [hcompleted] at hopen
      cases hopen
  · obtain ⟨row, hrow, hrowId, hclosed | ⟨-, hopen⟩⟩ := hs.interrupted id hid
    · rcases hswept.rows row hrow with hsame | ⟨hopen, -⟩
      · exact ⟨row, hsame, hrowId, .inl hclosed⟩
      · rw [hclosed.completed] at hopen
        cases hopen
    · exact ⟨row.failedClosed, hcloses row hrow hopen, hrowId, .inl (isClosed_failedClosed row)⟩

end Bootstrap

section Run

variable {s t : LedgerState}

theorem findCall_mem {call : ℕ} {c : OperationCall} (h : s.findCall call = some c) :
    c ∈ s.calls ∧ c.call = call := ⟨KeyedRows.find_mem h, KeyedRows.find_key h⟩

theorem Sound.step {e : LedgerEvent} (hs : s.Sound) (hkeeps : s.KeepsOperations e)
    (h : ledgerMachine.step s e = some t) : t.Sound := by
  change s.step e = some t at h
  cases e with
  | request request r =>
    simp only [LedgerState.step] at h
    split at h
    · rename_i hserving
      cases h
      exact hs.beginRequest hserving request r
    · cases h
  | claim call failure =>
    simp only [LedgerState.step] at h
    split at h
    · rename_i c hc
      split at h
      · rename_i hpoint
        cases h
        exact hs.claim (findCall_mem hc).1 hpoint failure
      · cases h
    · cases h
  | perform call effect =>
    simp only [LedgerState.step] at h
    split at h
    · rename_i c hc
      split at h
      · rename_i hpoint
        cases h
        exact hs.perform (findCall_mem hc).1 hpoint effect
      · cases h
    · cases h
  | abandon call error =>
    simp only [LedgerState.step] at h
    split at h
    · rename_i c hc
      split at h
      · cases h
        exact (hs.endCall call).answerError call c.request _
      · cases h
        exact hs.endCall call
    · cases h
  | finish call progress failure =>
    simp only [LedgerState.step] at h
    split at h
    · rename_i c hc
      split at h
      · rename_i hpoint
        cases h
        exact hs.finish (findCall_mem hc).1 hpoint progress failure
      · cases h
    · cases h
  | crash =>
    cases h
    exact hs.crash
  | bootstrap r config =>
    simp only [LedgerState.step] at h
    split at h
    · cases h
    · rename_i hdown
      rw [Bool.not_eq_true] at hdown
      cases h
      exact hs.bootstrap hdown hkeeps

theorem Sound.init : Sound {} where
  keys := List.nodup_nil
  callKeys := List.nodup_nil
  locks := List.nodup_nil
  begun _ hc := absurd hc List.not_mem_nil
  operation _ hc := absurd hc List.not_mem_nil
  claiming _ hc := absurd hc List.not_mem_nil
  executing _ hc := absurd hc List.not_mem_nil
  logged _ ha := absurd ha List.not_mem_nil
  owner _ ha := absurd ha List.not_mem_nil
  once _ ha := absurd ha List.not_mem_nil
  recorded _ ha := absurd ha List.not_mem_nil
  down _ := rfl
  interrupted _ hid := absurd hid List.not_mem_nil

theorem saveProcessOperation_effects {operation : ProcessOperation}
    (h : s.saveProcessOperation operation = .ok t) : t.effects = s.effects := by
  rcases saveProcessOperation_ok h with ⟨-, -, -, rfl⟩ | ⟨-, rfl⟩
  · rfl
  · rfl

theorem sweep_effects (r : SweepReplies) (s : LedgerState) : (s.sweep r).effects = s.effects := by
  unfold sweep
  split
  · refine List.foldlRecOn (motive := fun u : LedgerState => u.effects = s.effects) _ _ rfl
      fun u hu operation _ => ?_
    unfold LedgerState.sweepOne
    split
    · split
      · exact (saveProcessOperation_effects ‹_›).trans hu
      · exact hu
    · exact hu
  · rfl

/-- Only a request that has claimed its operation has effects. -/
theorem step_effects {e : LedgerEvent} (h : ledgerMachine.step s e = some t) :
    t.effects = s.effects ∨ ∃ c ∈ s.calls, c.point = .executing ∧ ∃ effect,
      t.effects = s.effects ++ [⟨c.call, c.request.operationId, effect⟩] := by
  change s.step e = some t at h
  cases e with
  | perform call effect =>
    simp only [LedgerState.step] at h
    split at h
    · rename_i c hc
      split at h
      · rename_i hpoint
        cases h
        exact .inr ⟨c, (findCall_mem hc).1, hpoint, effect, rfl⟩
      · cases h
    · cases h
  | request request r =>
    left
    simp only [LedgerState.step] at h
    split at h
    · cases h
      unfold LedgerState.beginRequest
      split
      · rfl
      · split
        · rfl
        · rfl
    · cases h
  | claim call failure =>
    left
    simp only [LedgerState.step] at h
    split at h
    · split at h
      · cases h
        unfold LedgerState.claim
        split
        · rfl
        · rename_i u hsave
          have hsaved := saveProcessOperation_effects (orElse_ok hsave)
          exact hsaved
      · cases h
    · cases h
  | abandon call error =>
    left
    simp only [LedgerState.step] at h
    split at h
    · split at h
      · cases h; rfl
      · cases h; rfl
    · cases h
  | finish call progress failure =>
    left
    simp only [LedgerState.step] at h
    split at h
    · split at h
      · cases h
        simp only [LedgerState.finish]
        split
        · rfl
        · rename_i u hsave
          have hsaved := saveProcessOperation_effects (orElse_ok hsave)
          exact hsaved
      · cases h
    · cases h
  | crash =>
    cases h
    exact .inl rfl
  | bootstrap r config =>
    left
    simp only [LedgerState.step] at h
    split at h
    · cases h
    · cases h
      cases config with
      | none => exact sweep_effects r s
      | some specs => exact sweep_effects r s

/-- Where the ids, the locks and the records agree, an operation id executes at most once. -/
theorem Sound.executesOnce (hs : s.Sound) : s.ExecutesOnce where
  once := hs.once
  replayed row hrow request r t hid h := by
    change s.step (.request request r) = some t at h
    simp only [LedgerState.step] at h
    split at h
    · cases h
      have hfind : s.getProcessOperation request.operationId = some row :=
        hid ▸ hs.keys.find_of_mem hrow
      unfold LedgerState.beginRequest replayAnswer
      cases haccepted : s.accepted request r with
      | error error => rfl
      | ok spec =>
        dsimp only
        rw [hfind]
    · cases h
  rejected c hc hpoint row hrow hid failure t h := by
    change s.step (.claim c.call failure) = some t at h
    have hfind : s.findCall c.call = some c := hs.callKeys.find_of_mem hc
    simp only [LedgerState.step, hfind, if_pos hpoint] at h
    cases h
    unfold LedgerState.claim
    split
    · exact ⟨_, rfl⟩
    · rename_i u hsave
      have hnone := (hs.claim_none hc hpoint (orElse_ok hsave)).1
      exact absurd hid (KeyedRows.find_eq_none.mp hnone row hrow)
  recorded := hs.recorded
  failedClosed hserving id hid := by
    obtain ⟨row, hrow, hrowId, hclosed | ⟨hdown, -⟩⟩ := hs.interrupted id hid
    · exact ⟨row, hrow, hrowId, hclosed⟩
    · rw [hserving] at hdown
      cases hdown
  notResumed id hid e t h a ha haId := by
    rcases step_effects h with hsame | ⟨c, hc, hpoint, effect, happend⟩
    · rwa [hsame] at ha
    · rw [happend] at ha
      rcases List.mem_append.mp ha with ha | ha
      · exact ha
      · -- the record of a request that executes is incomplete
        rw [List.mem_singleton.mp ha] at haId
        obtain ⟨row, hrow, hrowId, -, hopen⟩ := hs.executing c hc hpoint
        obtain ⟨row', hrow', hrowId', hclosed | ⟨hdown, -⟩⟩ := hs.interrupted id hid
        · have hsame : row' = row := hs.row_eq hrow' hrow
            (hrowId'.trans (haId.symm.trans hrowId.symm))
          have hcompleted := hclosed.completed
          rw [hsame, hopen] at hcompleted
          cases hcompleted
        · rw [hs.down hdown] at hc
          cases hc

/-- In every run whose bootstraps record what they fail closed and keep the processes with
recorded operations, an operation id executes at most once. -/
theorem run_executesOnce (h : ledgerMachine.Run KeepsOperations {} s) : s.ExecutesOnce := by
  have hsound : s.Sound :=
    h.invariant (fun _ _ _ hs hkeeps hstep => hs.step hkeeps hstep) Sound.init
  exact hsound.executesOnce

end Run

section Restarts

instance (s : LedgerState) (e : LedgerEvent) : Decidable (s.KeepsOperations e) :=
  match e with
  | .bootstrap _ _ => inferInstanceAs (Decidable (_ ∧ _))
  | .request _ _ | .claim _ _ | .perform _ _ | .abandon _ _ | .finish _ _ _ | .crash =>
    isTrue trivial

def scaledSpec : ProcessSpec := { definitionId := ⟨1⟩, name := "web", command := "/bin/web" }

/-- A scale to two instances. -/
def scaleToTwo (operationId : Uuid) : OperationRequest := ⟨"web", .scale 2, operationId⟩

/-- An operation that is replayed, and one that a restart interrupts. -/
def interruptedRestart : List LedgerEvent :=
  [.bootstrap {} (some [scaledSpec]), .request (scaleToTwo 7) {}, .claim 0 none,
    .perform 0 (.specSaved 2), .finish 0 {} none, .request (scaleToTwo 7) {},
    .request (scaleToTwo 8) {}, .claim 2 none, .perform 2 (.specSaved 2), .crash,
    .bootstrap {} (some [scaledSpec]), .request (scaleToTwo 8) {}]

theorem interruptedRestart_executesOnce : ∃ s, ledgerMachine.Run KeepsOperations {} s ∧
    (s.effects.length = 2 ∧ s.answers.length = 3 ∧ s.interrupted = [8] ∧ s.isServing = true) ∧
      s.ExecutesOnce := by
  obtain ⟨s, hrun, hs⟩ := Machine.exists_run_of_execUnder (M := ledgerMachine)
    (C := KeepsOperations) (s := {})
    (fun s => s.effects.length = 2 ∧ s.answers.length = 3 ∧ s.interrupted = [8] ∧
      s.isServing = true) interruptedRestart (by decide +kernel)
  exact ⟨s, hrun, of_decide_eq_true hs, run_executesOnce hrun⟩

/-- The configuration leaves the process out and takes it back. -/
def forgottenProcess : List LedgerEvent :=
  [.bootstrap {} (some [scaledSpec]), .request (scaleToTwo 7) {}, .claim 0 none,
    .perform 0 (.specSaved 2), .finish 0 {} none, .crash, .bootstrap {} (some []), .crash,
    .bootstrap {} (some [scaledSpec]), .request (scaleToTwo 7) {}, .claim 1 none,
    .perform 1 (.specSaved 2)]

/-- The interrupted operation cannot be saved. -/
def unsavedOperation : List LedgerEvent :=
  [.bootstrap {} (some [scaledSpec]), .request (scaleToTwo 7) {}, .claim 0 none, .crash,
    .bootstrap { isSaved := fun _ => false } none]

/-- A process that was left out takes an id again, and an operation that cannot be saved stays
incomplete. -/
theorem forgottenProcess_executesTwice :
    (∃ s, ledgerMachine.Reaches {} s ∧ ¬s.ExecutesOnce ∧
      ∃ a ∈ s.effects, ∃ b ∈ s.effects, a.operationId = b.operationId ∧ a.call ≠ b.call) ∧
    ∃ s, ledgerMachine.Reaches {} s ∧ ¬s.ExecutesOnce ∧ s.isServing = true ∧
      s.interrupted = [7] ∧ ∀ row ∈ s.operations, row.completed = false := by
  constructor
  · obtain ⟨s, hrun, hs⟩ := Machine.exists_reaches_of_exec (M := ledgerMachine) (s := {})
      (fun s => ∃ a ∈ s.effects, ∃ b ∈ s.effects,
        a.operationId = b.operationId ∧ a.call ≠ b.call) forgottenProcess (by decide +kernel)
    have htwice := of_decide_eq_true hs
    refine ⟨s, hrun, fun honce => ?_, htwice⟩
    obtain ⟨a, ha, b, hb, hid, hne⟩ := htwice
    exact hne (honce.once a ha b hb hid)
  · obtain ⟨s, hrun, hs⟩ := Machine.exists_reaches_of_exec (M := ledgerMachine) (s := {})
      (fun s => s.isServing = true ∧ s.interrupted = [7] ∧
        ∀ row ∈ s.operations, row.completed = false) unsavedOperation (by decide +kernel)
    have hopen := of_decide_eq_true hs
    refine ⟨s, hrun, fun honce => ?_, hopen⟩
    obtain ⟨hserving, hinterrupted, hrows⟩ := hopen
    obtain ⟨row, hrow, -, hclosed⟩ := honce.failedClosed hserving 7
      (hinterrupted ▸ List.mem_cons_self)
    have hcompleted := hclosed.completed
    rw [hrows row hrow] at hcompleted
    cases hcompleted

end Restarts

end LedgerState

end Supervisor
