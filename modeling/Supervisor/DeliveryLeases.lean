import Supervisor.AlertSteps

namespace Supervisor

/-- A candidate as a worker has claimed it, with the claim's number in the column of the attempts. -/
structure DeliveryLease where
  candidate : DeliveryCandidate
  attempt : ℕ
deriving DecidableEq

namespace AlertStore

variable {s t : AlertStore} {owner : List Char} {now leaseUntil : Instant} {limit : ℕ}

/-- The rows that a claim leases. -/
def claimable (s : AlertStore) (now : Instant) (limit : ℕ) : List DeliveryCandidate :=
  OrderedPage.first DeliveryCandidate.rank (pageLimit (min limit 10000))
    (s.candidates.rows.filter (isClaimable now))

def leased (owner : List Char) (leaseUntil : Instant) (row : DeliveryCandidate) : DeliveryCandidate :=
  { row with attemptCount := row.attemptCount + 1, leaseOwner := some owner, leaseUntil := some leaseUntil }

/-- What a claim answers -/
def leases (s : AlertStore) (owner : List Char) (now leaseUntil : Instant) (limit : ℕ) :
    List DeliveryLease :=
  (s.claimable now limit).map fun row =>
    ⟨{ leased owner leaseUntil row with attemptCount := (row.attemptCount + 1) % 2^8 },
      row.attemptCount + 1⟩

theorem mem_claimable {row : DeliveryCandidate} (h : row ∈ s.claimable now limit) :
    row ∈ s.candidates ∧ isClaimable now row = true :=
  List.mem_filter.mp (OrderedPage.mem_of_mem_first h)

theorem nodup_claimable : ((s.claimable now limit).map DeliveryCandidate.id).Nodup := by
  have hrows : ((s.candidates.rows.filter (isClaimable now)).map DeliveryCandidate.id).Nodup :=
    s.candidates.unique.filter _
  have hordered := ((@OrderedPage.perm_ordered _ _ _ DeliveryCandidate.rank _).map
    _).nodup_iff.mpr hrows
  exact hordered.sublist ((List.take_sublist _ _).map _)

theorem any_claimable {row : DeliveryCandidate} (hrow : row ∈ s.candidates) :
    ((s.claimable now limit).any fun row' => row'.id = row.id) = true ↔
      row ∈ s.claimable now limit := by
  rw [List.any_eq_true]
  constructor
  · rintro ⟨row', hrow', hid⟩
    rwa [← KeyedTable.eq_of_key (mem_claimable hrow').1 hrow (of_decide_eq_true hid)]
  · intro hclaimable
    exact ⟨row, hclaimable, decide_eq_true rfl⟩

/-- A claim leases the claimable rows and leaves the others. -/
theorem mem_claim {row : DeliveryCandidate} :
    row ∈ (s.claimDeliveryCandidates owner now leaseUntil limit).2.candidates ↔
      (∃ row' ∈ s.claimable now limit, leased owner leaseUntil row' = row) ∨
        row ∈ s.candidates ∧ row ∉ s.claimable now limit := by
  constructor
  · intro h
    obtain ⟨row', hrow', rfl⟩ := List.mem_map.mp h
    split
    · rename_i hany
      exact .inl ⟨row', (any_claimable hrow').mp hany, rfl⟩
    · rename_i hnot
      exact .inr ⟨hrow', fun hclaimable => hnot ((any_claimable hrow').mpr hclaimable)⟩
  · rintro (⟨row', hrow', rfl⟩ | ⟨hrow, hnot⟩)
    · have hmem := (mem_claimable hrow').1
      exact List.mem_map.mpr ⟨row', hmem, if_pos ((any_claimable hmem).mpr hrow')⟩
    · exact List.mem_map.mpr ⟨row, hrow, if_neg fun hany => hnot ((any_claimable hrow).mp hany)⟩

/-- A finish puts the row off, or removes it, and leaves the others. -/
theorem mem_finish {candidate row : DeliveryCandidate} {submission : DeliverySubmission}
    {attemptId : Uuid} {at_ : Instant}
    (h : s.finishDeliveryCandidate candidate submission attemptId at_ = some t) :
    row ∈ t.candidates ↔
      (submission.outcome = "failed".toList ∧ candidate.attemptCount < 3 ∧
        ∃ row' ∈ s.candidates, row'.id = candidate.id ∧ { row' with
          leaseOwner := none
          leaseUntil := some (at_ + 5^candidate.attemptCount * nanosPerSec) } = row) ∨
        row ∈ s.candidates ∧ row.id ≠ candidate.id := by
  obtain ⟨attempts, -, rfl⟩ := Option.map_eq_some_iff.mp h
  simp only
  split
  · rename_i hretry
    rw [KeyedTable.mem_update]
    exact or_congr_left ⟨fun h => ⟨hretry.1, hretry.2, h⟩, fun h => h.2.2⟩
  · rename_i hremoved
    rw [KeyedTable.mem_filter, decide_eq_true_eq]
    exact (or_iff_right fun h => hremoved ⟨h.1, h.2.1⟩).symm

end AlertStore

inductive LeaseEvent where
  | advance (now : Instant)
  | enqueue (id : Uuid) (episode : AlertEpisode)
  | claim (owner : List Char) (leaseUntil : Instant) (limit : ℕ)
  | finish (lease : DeliveryLease) (submission : DeliverySubmission) (attemptId : Uuid) (ok : Bool)

/-- Workers over one store. A lease that its worker abandons stays among the claimed ones. -/
structure DeliveryWorkers where
  store : AlertStore
  clock : Instant
  claimed : List DeliveryLease
  /-- Ids are drawn at random and never drawn again. -/
  drawn : List Uuid
  /-- The failed finishes that have been committed -/
  failed : List Uuid

namespace DeliveryWorkers

def start : DeliveryWorkers := ⟨.empty, 0, [], [], []⟩

def finish (s : DeliveryWorkers) (lease : DeliveryLease) (submission : DeliverySubmission)
    (attemptId : Uuid) (ok : Bool) : DeliveryWorkers :=
  let claimed := s.claimed.erase lease
  match if ok then s.store.finishDeliveryCandidate lease.candidate submission attemptId s.clock
    else none with
  | none => { s with claimed }
  | some store =>
    { s with
      store
      claimed
      failed := if submission.outcome = "failed".toList then lease.candidate.id :: s.failed
        else s.failed }

def step (s : DeliveryWorkers) : LeaseEvent → Option DeliveryWorkers
  | .advance now => some { s with clock := now }
  | .enqueue id episode =>
    if id ∈ s.drawn then none
    else some { s with
      store := s.store.enqueueDeliveryCandidate (notification id episode s.clock)
      drawn := id :: s.drawn }
  | .claim owner leaseUntil limit =>
    some { s with
      store := (s.store.claimDeliveryCandidates owner s.clock leaseUntil limit).2
      claimed := s.store.leases owner s.clock leaseUntil limit ++ s.claimed }
  | .finish lease submission attemptId ok =>
    if lease ∈ s.claimed then some (s.finish lease submission attemptId ok) else none

def isUnexpired (s : DeliveryWorkers) (lease : DeliveryLease) : Bool :=
  lease.candidate.leaseUntil.any fun leaseUntil => s.clock < leaseUntil

end DeliveryWorkers

/-- Any number of workers over the delivery candidates -/
def deliveryWorkers : Machine DeliveryWorkers LeaseEvent := ⟨DeliveryWorkers.step⟩

namespace DeliveryWorkers

variable {s t : DeliveryWorkers} {e : LeaseEvent}

/-- No two unexpired leases on one candidate -/
def LeasesUnique (s : DeliveryWorkers) : Prop :=
  s.claimed.Pairwise fun lease lease' => lease.candidate.id = lease'.candidate.id →
    s.isUnexpired lease = true → s.isUnexpired lease' = true → False

/-- A candidate is gone after three failed finishes. -/
def FailuresBounded (s : DeliveryWorkers) : Prop :=
  ∀ id, 3 ≤ s.failed.count id → s.store.candidates.has id = false

/-- The counters of the attempts do not decrease. -/
def CountsUp (s t : DeliveryWorkers) : Prop :=
  ∀ row ∈ s.store.candidates, ∀ row' ∈ t.store.candidates, row.id = row'.id →
    row.attemptCount ≤ row'.attemptCount

/-- A finish changes or removes only the candidate whose current lease it finishes. -/
def FinishesOwn (s t : DeliveryWorkers) : LeaseEvent → Prop
  | .finish lease .. => ∀ row ∈ s.store.candidates, row ∉ t.store.candidates →
      row.id = lease.candidate.id ∧ row.leaseOwner = lease.candidate.leaseOwner ∧
        row.leaseUntil = lease.candidate.leaseUntil
  | _ => True

/-- The candidate has not been claimed again when a worker finishes it, and its counter fits the
claimed copy; the clock does not go back. -/
def Timely (s : DeliveryWorkers) : LeaseEvent → Prop
  | .advance now => s.clock ≤ now
  | .finish lease .. => ∀ row ∈ s.store.candidates.rows, row.id = lease.candidate.id →
      row.attemptCount = lease.candidate.attemptCount
  | _ => True

instance (s : DeliveryWorkers) (e : LeaseEvent) : Decidable (s.Timely e) := by
  cases e with
  | advance now => exact inferInstanceAs (Decidable (s.clock ≤ now))
  | finish lease submission attemptId ok =>
    exact inferInstanceAs (Decidable (∀ row ∈ s.store.candidates.rows, _ → _))
  | _ => exact .isTrue trivial

/-- What the leases have to do with the rows -/
structure Leased (s : DeliveryWorkers) : Prop where
  drawnRow : ∀ row ∈ s.store.candidates, row.id ∈ s.drawn
  drawnLease : ∀ lease ∈ s.claimed, lease.candidate.id ∈ s.drawn
  drawnFailed : ∀ id ∈ s.failed, id ∈ s.drawn
  /-- The copy of the counter has eight bits. -/
  copied : ∀ lease ∈ s.claimed, lease.candidate.attemptCount = lease.attempt % 2^8
  bounded : ∀ lease ∈ s.claimed, ∀ row ∈ s.store.candidates, row.id = lease.candidate.id →
    lease.attempt ≤ row.attemptCount
  distinct : s.claimed.Pairwise fun lease lease' =>
    lease.candidate.id = lease'.candidate.id → lease.attempt ≠ lease'.attempt
  /-- The last claim that has not been finished holds the lease. -/
  holds : ∀ lease ∈ s.claimed, ∀ row ∈ s.store.candidates, row.id = lease.candidate.id →
    lease.attempt = row.attemptCount → row.leaseOwner = lease.candidate.leaseOwner ∧
      row.leaseUntil = lease.candidate.leaseUntil ∧ s.failed.count row.id < row.attemptCount
  last : ∀ lease ∈ s.claimed, s.isUnexpired lease = true →
    ∃ row ∈ s.store.candidates, row.id = lease.candidate.id ∧ lease.attempt = row.attemptCount
  failures : ∀ row ∈ s.store.candidates,
    s.failed.count row.id ≤ row.attemptCount ∧ s.failed.count row.id ≤ 2

theorem Leased.start : Leased start where
  drawnRow _ h := absurd h KeyedTable.not_mem_empty
  drawnLease _ h := absurd h List.not_mem_nil
  drawnFailed _ h := absurd h List.not_mem_nil
  copied _ h := absurd h List.not_mem_nil
  bounded _ h := absurd h List.not_mem_nil
  distinct := List.Pairwise.nil
  holds _ h := absurd h List.not_mem_nil
  last _ h := absurd h List.not_mem_nil
  failures _ h := absurd h KeyedTable.not_mem_empty

theorem Leased.leasesUnique (h : s.Leased) : s.LeasesUnique := by
  apply h.distinct.imp_of_mem
  intro lease lease' hlease hlease' hdistinct hid hunexpired hunexpired'
  obtain ⟨row, hrow, hrowId, hattempt⟩ := h.last lease hlease hunexpired
  obtain ⟨row', hrow', hrowId', hattempt'⟩ := h.last lease' hlease' hunexpired'
  have hsame : row = row' := KeyedTable.eq_of_key hrow hrow' (by rw [hrowId, hrowId', hid])
  exact hdistinct hid (by rw [hattempt, hattempt', hsame])

theorem Leased.failuresBounded (h : s.Leased) : s.FailuresBounded := by
  intro id hthree
  rw [Bool.eq_false_iff]
  intro hhas
  obtain ⟨row, hrow, rfl⟩ := KeyedTable.has_iff.mp hhas
  have htwo := (h.failures row hrow).2
  omega

theorem Leased.advance (h : s.Leased) {now : Instant} (hforward : s.clock ≤ now) :
    Leased { s with clock := now } where
  drawnRow := h.drawnRow
  drawnLease := h.drawnLease
  drawnFailed := h.drawnFailed
  copied := h.copied
  bounded := h.bounded
  distinct := h.distinct
  holds := h.holds
  last lease hlease hunexpired := by
    apply h.last lease hlease
    obtain ⟨leaseUntil, hsome, hlt⟩ := (Option.any_eq_true _ _).mp hunexpired
    exact (Option.any_eq_true _ _).mpr
      ⟨leaseUntil, hsome, decide_eq_true (hforward.trans_lt (of_decide_eq_true hlt))⟩
  failures := h.failures

theorem Leased.enqueue (h : s.Leased) {id : Uuid} (hid : id ∉ s.drawn) (episode : AlertEpisode) :
    Leased { s with
      store := s.store.enqueueDeliveryCandidate (notification id episode s.clock)
      drawn := id :: s.drawn } := by
  have hnew : ∀ row ∈ s.store.candidates, row.id ≠ id := fun row hrow heq =>
    hid (heq ▸ h.drawnRow row hrow)
  have hrows (row : DeliveryCandidate) :
      row ∈ (s.store.enqueueDeliveryCandidate (notification id episode s.clock)).candidates →
        row ∈ s.store.candidates ∨ row = notification id episode s.clock :=
    (AlertStore.enqueue_candidates hnew row).mp
  -- no lease and no failure is about the new row
  have hnone (lease : DeliveryLease) (hlease : lease ∈ s.claimed) : id ≠ lease.candidate.id :=
    fun heq => hid (heq ▸ h.drawnLease lease hlease)
  have hzero : s.failed.count id = 0 := List.count_eq_zero.mpr fun hmem => hid (h.drawnFailed id hmem)
  constructor
  · intro row hrow
    rcases hrows row hrow with hrow | rfl
    · exact List.mem_cons_of_mem _ (h.drawnRow row hrow)
    · exact List.mem_cons_self
  · intro lease hlease
    exact List.mem_cons_of_mem _ (h.drawnLease lease hlease)
  · intro id' hid'
    exact List.mem_cons_of_mem _ (h.drawnFailed id' hid')
  · exact h.copied
  · intro lease hlease row hrow hrowId
    rcases hrows row hrow with hrow | rfl
    · exact h.bounded lease hlease row hrow hrowId
    · exact absurd hrowId (hnone lease hlease)
  · exact h.distinct
  · intro lease hlease row hrow hrowId
    rcases hrows row hrow with hrow | rfl
    · exact h.holds lease hlease row hrow hrowId
    · exact absurd hrowId (hnone lease hlease)
  · intro lease hlease hunexpired
    obtain ⟨row, hrow, hlast⟩ := h.last lease hlease hunexpired
    exact ⟨row, (AlertStore.enqueue_candidates hnew row).mpr (.inl hrow), hlast⟩
  · intro row hrow
    rcases hrows row hrow with hrow | rfl
    · exact h.failures row hrow
    · change s.failed.count id ≤ 0 ∧ s.failed.count id ≤ 2
      omega

section Claim

variable {owner : List Char} {leaseUntil : Instant} {limit : ℕ} {row row' : DeliveryCandidate}
  {lease : DeliveryLease}

def claim (s : DeliveryWorkers) (owner : List Char) (leaseUntil : Instant) (limit : ℕ) :
    DeliveryWorkers :=
  { s with
    store := (s.store.claimDeliveryCandidates owner s.clock leaseUntil limit).2
    claimed := s.store.leases owner s.clock leaseUntil limit ++ s.claimed }

/-- A row that is claimed has no unexpired lease. -/
theorem Leased.not_unexpired (h : s.Leased) (hlease : lease ∈ s.claimed)
    (hrow : row ∈ s.store.claimable s.clock limit) (hid : row.id = lease.candidate.id) :
    s.isUnexpired lease = false := by
  rw [Bool.eq_false_iff]
  intro hunexpired
  obtain ⟨hmem, hclaimable⟩ := AlertStore.mem_claimable hrow
  obtain ⟨row', hrow', hid', hattempt⟩ := h.last lease hlease hunexpired
  obtain rfl : row = row' := KeyedTable.eq_of_key hmem hrow' (hid.trans hid'.symm)
  have hcurrent := (h.holds lease hlease row hmem hid hattempt).2.1
  obtain ⟨leaseUntil, hsome, hlt⟩ := (Option.any_eq_true _ _).mp hunexpired
  unfold AlertStore.isClaimable at hclaimable
  rw [hcurrent, hsome, Option.all_some, decide_eq_true_eq] at hclaimable
  exact absurd (of_decide_eq_true hlt) (not_lt.mpr hclaimable)

theorem Leased.claim (h : s.Leased) : (s.claim owner leaseUntil limit).Leased := by
  have hrows (row : DeliveryCandidate)
      (hrow : row ∈ (s.claim owner leaseUntil limit).store.candidates) :
      (∃ row' ∈ s.store.claimable s.clock limit, AlertStore.leased owner leaseUntil row' = row) ∨
        row ∈ s.store.candidates ∧ row ∉ s.store.claimable s.clock limit :=
    AlertStore.mem_claim.mp hrow
  -- a lease is one from before, or that of a claimed row
  have hleases (lease : DeliveryLease)
      (hlease : lease ∈ (s.claim owner leaseUntil limit).claimed) :
      lease ∈ s.claimed ∨ ∃ row ∈ s.store.claimable s.clock limit,
        ⟨{ AlertStore.leased owner leaseUntil row with
          attemptCount := (row.attemptCount + 1) % 2^8 }, row.attemptCount + 1⟩ = lease := by
    rcases List.mem_append.mp hlease with hlease | hlease
    · exact .inr (List.mem_map.mp hlease)
    · exact .inl hlease
  constructor
  · intro row hrow
    rcases hrows row hrow with ⟨row', hrow', rfl⟩ | ⟨hrow, -⟩
    · exact h.drawnRow row' (AlertStore.mem_claimable hrow').1
    · exact h.drawnRow row hrow
  · intro lease hlease
    rcases hleases lease hlease with hlease | ⟨row, hrow, rfl⟩
    · exact h.drawnLease lease hlease
    · exact h.drawnRow row (AlertStore.mem_claimable hrow).1
  · exact h.drawnFailed
  · intro lease hlease
    rcases hleases lease hlease with hlease | ⟨row, hrow, rfl⟩
    · exact h.copied lease hlease
    · rfl
  · intro lease hlease row hrow hid
    rcases hleases lease hlease with hlease | ⟨row', hrow', rfl⟩
    · rcases hrows row hrow with ⟨row', hrow', rfl⟩ | ⟨hrow, -⟩
      · have hle := h.bounded lease hlease row' (AlertStore.mem_claimable hrow').1 hid
        exact Nat.le_succ_of_le hle
      · exact h.bounded lease hlease row hrow hid
    · rcases hrows row hrow with ⟨row'', hrow'', rfl⟩ | ⟨hrow, hnot⟩
      · obtain rfl : row'' = row' := KeyedTable.eq_of_key (AlertStore.mem_claimable hrow'').1
          (AlertStore.mem_claimable hrow').1 hid
        exact le_rfl
      · obtain rfl : row = row' :=
          KeyedTable.eq_of_key hrow (AlertStore.mem_claimable hrow').1 hid
        exact absurd hrow' hnot
  · refine List.pairwise_append.mpr ⟨?_, h.distinct, ?_⟩
    · have hids := List.pairwise_map.mp (@AlertStore.nodup_claimable s.store s.clock limit)
      exact List.pairwise_map.mpr (hids.imp fun hne hid => absurd hid hne)
    · intro lease hlease lease' hlease' hid
      obtain ⟨row, hrow, rfl⟩ := List.mem_map.mp hlease
      have hle := h.bounded lease' hlease' row (AlertStore.mem_claimable hrow).1 hid
      exact (Nat.lt_succ_of_le hle).ne'
  · intro lease hlease row hrow hid hattempt
    rcases hleases lease hlease with hlease | ⟨row', hrow', rfl⟩
    · rcases hrows row hrow with ⟨row', hrow', rfl⟩ | ⟨hrow, -⟩
      · -- the claim has outdated the lease
        have hle := h.bounded lease hlease row' (AlertStore.mem_claimable hrow').1 hid
        exact absurd hattempt (Nat.lt_succ_of_le hle).ne
      · exact h.holds lease hlease row hrow hid hattempt
    · rcases hrows row hrow with ⟨row'', hrow'', rfl⟩ | ⟨hrow, hnot⟩
      · have hfailures := (h.failures row'' (AlertStore.mem_claimable hrow'').1).1
        exact ⟨rfl, rfl, Nat.lt_succ_of_le hfailures⟩
      · obtain rfl : row = row' :=
          KeyedTable.eq_of_key hrow (AlertStore.mem_claimable hrow').1 hid
        exact absurd hrow' hnot
  · intro lease hlease hunexpired
    rcases hleases lease hlease with hlease | ⟨row, hrow, rfl⟩
    · obtain ⟨row, hrow, hid, hattempt⟩ := h.last lease hlease hunexpired
      have hnot : row ∉ s.store.claimable s.clock limit := fun hclaimed =>
        absurd hunexpired (Bool.eq_false_iff.mp (h.not_unexpired hlease hclaimed hid))
      exact ⟨row, AlertStore.mem_claim.mpr (.inr ⟨hrow, hnot⟩), hid, hattempt⟩
    · exact ⟨_, AlertStore.mem_claim.mpr (.inl ⟨row, hrow, rfl⟩), rfl, rfl⟩
  · intro row hrow
    rcases hrows row hrow with ⟨row', hrow', rfl⟩ | ⟨hrow, -⟩
    · obtain ⟨hcount, htwo⟩ := h.failures row' (AlertStore.mem_claimable hrow').1
      exact ⟨Nat.le_succ_of_le hcount, htwo⟩
    · exact h.failures row hrow

end Claim

section Finish

variable {lease : DeliveryLease} {submission : DeliverySubmission} {attemptId : Uuid}

theorem Leased.erase (h : s.Leased) (lease : DeliveryLease) :
    Leased { s with claimed := s.claimed.erase lease } where
  drawnRow := h.drawnRow
  drawnLease l hl := h.drawnLease l (List.mem_of_mem_erase hl)
  drawnFailed := h.drawnFailed
  copied l hl := h.copied l (List.mem_of_mem_erase hl)
  bounded l hl := h.bounded l (List.mem_of_mem_erase hl)
  distinct := h.distinct.sublist List.erase_sublist
  holds l hl := h.holds l (List.mem_of_mem_erase hl)
  last l hl := h.last l (List.mem_of_mem_erase hl)
  failures := h.failures

theorem Leased.erase_ne (h : s.Leased) (hlease : lease ∈ s.claimed) {l : DeliveryLease}
    (hl : l ∈ s.claimed.erase lease) (hid : l.candidate.id = lease.candidate.id) :
    l.attempt ≠ lease.attempt := by
  have hperm := List.perm_cons_erase hlease
  have hpairwise := hperm.pairwise_iff (R := fun lease lease' : DeliveryLease =>
    lease.candidate.id = lease'.candidate.id → lease.attempt ≠ lease'.attempt)
    (fun hne hid => (hne hid.symm).symm) |>.mp h.distinct
  exact ((List.pairwise_cons.mp hpairwise).1 l hl hid.symm).symm

theorem Leased.timely_attempt (h : s.Leased) (hlease : lease ∈ s.claimed) {row : DeliveryCandidate}
    (hrow : row ∈ s.store.candidates) (hid : row.id = lease.candidate.id)
    (htimely : row.attemptCount = lease.candidate.attemptCount) : lease.attempt = row.attemptCount := by
  have hle := h.bounded lease hlease row hrow hid
  have hmod := Nat.mod_le lease.attempt (2^8)
  rw [htimely, h.copied lease hlease] at hle ⊢
  omega

theorem Leased.finish (h : s.Leased) {ok : Bool} (hlease : lease ∈ s.claimed)
    (htimely : s.Timely (.finish lease submission attemptId ok)) :
    (s.finish lease submission attemptId ok).Leased := by
  unfold DeliveryWorkers.finish
  dsimp only
  split
  · exact h.erase lease
  · rename_i store hfinish
    have hcommitted : s.store.finishDeliveryCandidate lease.candidate submission attemptId s.clock =
        some store := by
      split at hfinish
      · exact hfinish
      · cases hfinish
    have hrows (row : DeliveryCandidate) := @AlertStore.mem_finish _ _ _ row _ _ _ hcommitted
    have hothers {id : Uuid} (hne : id ≠ lease.candidate.id) :
        (if submission.outcome = "failed".toList then lease.candidate.id :: s.failed
          else s.failed).count id = s.failed.count id := by
      split
      · exact List.count_cons_of_ne hne.symm
      · rfl
    constructor
    · intro row hrow
      rcases (hrows row).mp hrow with ⟨-, -, row', hrow', -, rfl⟩ | ⟨hrow, -⟩
      · exact h.drawnRow row' hrow'
      · exact h.drawnRow row hrow
    · intro l hl
      exact h.drawnLease l (List.mem_of_mem_erase hl)
    · intro id hid
      split at hid
      · rcases List.mem_cons.mp hid with rfl | hid
        · exact h.drawnLease lease hlease
        · exact h.drawnFailed id hid
      · exact h.drawnFailed id hid
    · intro l hl
      exact h.copied l (List.mem_of_mem_erase hl)
    · intro l hl row hrow hid
      rcases (hrows row).mp hrow with ⟨-, -, row', hrow', -, rfl⟩ | ⟨hrow, -⟩
      · exact h.bounded l (List.mem_of_mem_erase hl) row' hrow' hid
      · exact h.bounded l (List.mem_of_mem_erase hl) row hrow hid
    · exact h.distinct.sublist List.erase_sublist
    · intro l hl row hrow hid hattempt
      rcases (hrows row).mp hrow with ⟨-, -, row', hrow', hid', rfl⟩ | ⟨hrow, hne⟩
      · -- the last claim has been finished
        have hlast := h.timely_attempt hlease hrow' hid' (htimely row' hrow' hid')
        exact absurd (hattempt.trans hlast.symm) (h.erase_ne hlease hl (hid.symm.trans hid'))
      · rw [hothers hne]
        exact h.holds l (List.mem_of_mem_erase hl) row hrow hid hattempt
    · intro l hl hunexpired
      obtain ⟨row, hrow, hid, hattempt⟩ := h.last l (List.mem_of_mem_erase hl) hunexpired
      have hne : row.id ≠ lease.candidate.id := fun hid' => by
        have hlast := h.timely_attempt hlease hrow hid' (htimely row hrow hid')
        exact h.erase_ne hlease hl (hid.symm.trans hid') (hattempt.trans hlast.symm)
      exact ⟨row, (hrows row).mpr (.inr ⟨hrow, hne⟩), hid, hattempt⟩
    · intro row hrow
      rcases (hrows row).mp hrow with ⟨hfailed, hthree, row', hrow', hid', rfl⟩ | ⟨hrow, hne⟩
      · have hcount := htimely row' hrow' hid'
        have hlast := h.timely_attempt hlease hrow' hid' hcount
        have hless := (h.holds lease hlease row' hrow' hid' hlast).2.2
        have hone : (if submission.outcome = "failed".toList then lease.candidate.id :: s.failed
            else s.failed).count row'.id = s.failed.count row'.id + 1 := by
          rw [if_pos hfailed, ← hid', List.count_cons_self]
        dsimp only
        rw [hone]
        omega
      · rw [hothers hne]
        exact h.failures row hrow

theorem Leased.step (h : s.Leased) (htimely : s.Timely e) (hstep : s.step e = some t) :
    t.Leased := by
  cases e with
  | advance now =>
    obtain rfl := Option.some.inj hstep
    exact h.advance htimely
  | enqueue id episode =>
    unfold DeliveryWorkers.step at hstep
    dsimp only at hstep
    split at hstep
    · cases hstep
    · rename_i hnew
      obtain rfl := Option.some.inj hstep
      exact h.enqueue hnew episode
  | claim owner leaseUntil limit =>
    obtain rfl := Option.some.inj hstep
    exact h.claim
  | finish lease submission attemptId ok =>
    unfold DeliveryWorkers.step at hstep
    dsimp only at hstep
    split at hstep
    · rename_i hlease
      obtain rfl := Option.some.inj hstep
      exact h.finish hlease htimely
    · cases hstep

end Finish

section Steps

theorem finish_store {lease : DeliveryLease} {submission : DeliverySubmission} {attemptId : Uuid}
    {ok : Bool} : (s.finish lease submission attemptId ok).store = s.store ∨
      s.store.finishDeliveryCandidate lease.candidate submission attemptId s.clock =
        some (s.finish lease submission attemptId ok).store := by
  unfold finish
  dsimp only
  split
  · exact .inl rfl
  · rename_i store hfinish
    split at hfinish
    · exact .inr hfinish
    · cases hfinish

theorem CountsUp.of_same (h : t.store.candidates = s.store.candidates) : s.CountsUp t := by
  intro row hrow row' hrow' hid
  rw [h] at hrow'
  rw [KeyedTable.eq_of_key hrow hrow' hid]

/-- No event lowers a counter. -/
theorem step_countsUp (hstep : s.step e = some t) : s.CountsUp t := by
  cases e with
  | advance now =>
    obtain rfl := Option.some.inj hstep
    exact .of_same rfl
  | enqueue id episode =>
    unfold DeliveryWorkers.step at hstep
    dsimp only at hstep
    split at hstep
    · cases hstep
    · obtain rfl := Option.some.inj hstep
      intro row hrow row' hrow' hid
      unfold AlertStore.enqueueDeliveryCandidate at hrow'
      dsimp only at hrow'
      split at hrow'
      · rw [KeyedTable.eq_of_key hrow hrow' hid]
      · rename_i candidates hinsert
        rcases (KeyedTable.mem_insert hinsert).mp hrow' with hrow' | rfl
        · rw [KeyedTable.eq_of_key hrow hrow' hid]
        · exact absurd hid ((KeyedTable.insert_eq_some.mp hinsert).1 row hrow)
  | claim owner leaseUntil limit =>
    obtain rfl := Option.some.inj hstep
    intro row hrow row' hrow' hid
    rcases AlertStore.mem_claim.mp hrow' with ⟨row'', hrow'', rfl⟩ | ⟨hrow', -⟩
    · obtain rfl : row = row'' := KeyedTable.eq_of_key hrow (AlertStore.mem_claimable hrow'').1 hid
      exact Nat.le_succ _
    · rw [KeyedTable.eq_of_key hrow hrow' hid]
  | finish lease submission attemptId ok =>
    unfold DeliveryWorkers.step at hstep
    dsimp only at hstep
    split at hstep
    · obtain rfl := Option.some.inj hstep
      rcases @finish_store s lease submission attemptId ok with hsame | hfinish
      · exact .of_same (by rw [hsame])
      · intro row hrow row' hrow' hid
        rcases (AlertStore.mem_finish hfinish).mp hrow' with ⟨-, -, row'', hrow'', -, rfl⟩ | ⟨hrow', -⟩
        · obtain rfl : row = row'' := KeyedTable.eq_of_key hrow hrow'' hid
          exact le_rfl
        · rw [KeyedTable.eq_of_key hrow hrow' hid]
    · cases hstep

theorem Leased.finishesOwn (h : s.Leased) (htimely : s.Timely e) (hstep : s.step e = some t) :
    s.FinishesOwn t e := by
  cases e with
  | finish lease submission attemptId ok =>
    unfold DeliveryWorkers.step at hstep
    dsimp only at hstep
    split at hstep
    · rename_i hlease
      obtain rfl := Option.some.inj hstep
      intro row hrow hgone
      rcases @finish_store s lease submission attemptId ok with hsame | hfinish
      · rw [hsame] at hgone
        exact absurd hrow hgone
      · have hid : row.id = lease.candidate.id := by
          by_contra hne
          exact hgone ((AlertStore.mem_finish hfinish).mpr (.inr ⟨hrow, hne⟩))
        have hlast := h.timely_attempt hlease hrow hid (htimely row hrow hid)
        obtain ⟨howner, huntil, -⟩ := h.holds lease hlease row hrow hid hlast
        exact ⟨hid, howner, huntil⟩
    · cases hstep
  | _ => exact trivial

end Steps

/-- When no worker finishes a candidate that has been claimed again, leases are exclusive, only
their holders finish, and three failures remove a candidate. -/
theorem delivery_leases (h : deliveryWorkers.Run Timely start s) :
    s.LeasesUnique ∧ s.FailuresBounded ∧
      ∀ e t, s.Timely e → deliveryWorkers.step s e = some t → s.CountsUp t ∧ s.FinishesOwn t e := by
  have hleased : s.Leased := h.invariant (fun _ _ _ hs htimely hstep => hs.step htimely hstep) .start
  refine ⟨hleased.leasesUnique, hleased.failuresBounded, ?_⟩
  intro e t htimely hstep
  exact ⟨step_countsUp hstep, hleased.finishesOwn htimely hstep⟩

section Runs

instance (s : DeliveryWorkers) : Decidable s.LeasesUnique :=
  inferInstanceAs (Decidable (s.claimed.Pairwise fun _ _ => _ → _ → _ → False))

def openedEpisode : AlertEpisode :=
  ⟨1, 1, "api".toList, "cpu_percent>80".toList, .active, .warning, 0, none, none⟩

/-- The lease of a claim of the candidate 2, in seconds -/
def sampleLease (owner : List Char) (attempt : ℕ) (leaseUntil : ℤ) : DeliveryLease :=
  ⟨{ notification 2 openedEpisode 0 with
    attemptCount := attempt % 2^8
    leaseOwner := some owner
    leaseUntil := some (leaseUntil * nanosPerSec) }, attempt⟩

def seconds (n : ℤ) : Instant := n * nanosPerSec

def failedSubmission : DeliverySubmission := ⟨"failed".toList, none⟩

/-- Three failures remove the candidate. -/
theorem delivery_leases_run : ∃ s, deliveryWorkers.Run Timely start s ∧
    s.failed = [2, 2, 2] ∧ s.store.candidates.has 2 = false := by
  obtain ⟨s, hrun, hread⟩ := Machine.exists_run_of_execUnder (M := deliveryWorkers) (C := Timely)
    (s := start) (fun s => decide (s.failed = [2, 2, 2]))
    [.enqueue 2 openedEpisode,
      .claim ['a'] (seconds 60) 32, .finish (sampleLease ['a'] 1 60) failedSubmission 3 true,
      .advance (seconds 5),
      .claim ['b'] (seconds 65) 32, .finish (sampleLease ['b'] 2 65) failedSubmission 4 true,
      .advance (seconds 30),
      .claim ['a'] (seconds 90) 32, .finish (sampleLease ['a'] 3 90) failedSubmission 5 true]
    (by decide +kernel)
  have hfailed := of_decide_eq_true hread
  exact ⟨s, hrun, hfailed, (delivery_leases hrun).2.1 2 (by rw [hfailed]; decide)⟩

/-- Two claims of the candidate, one after the other has expired -/
def overlappingClaims : List LeaseEvent :=
  [.enqueue 2 openedEpisode, .claim ['a'] (seconds 60) 32, .advance (seconds 61),
    .claim ['b'] (seconds 121) 32]

/-- The failure of the first worker -/
def lateFinish : LeaseEvent := .finish (sampleLease ['a'] 1 60) failedSubmission 3 true

/-- The first worker is late: its failure frees the candidate that the second worker holds, and a
third one claims it. -/
theorem late_finish : (∃ s t, deliveryWorkers.Reaches start s ∧
      deliveryWorkers.step s lateFinish = some t ∧ ¬ s.FinishesOwn t lateFinish) ∧
    ∃ s, deliveryWorkers.Reaches start s ∧ ¬ s.LeasesUnique := by
  constructor
  · obtain ⟨s, hrun, hread⟩ := Machine.exists_reaches_of_exec (M := deliveryWorkers) (s := start)
      (fun s => (s.step lateFinish).any fun t : DeliveryWorkers => decide (∃ row ∈ s.store.candidates.rows,
        row ∉ t.store.candidates.rows ∧ row.leaseOwner ≠ some ['a']))
      overlappingClaims (by decide +kernel)
    obtain ⟨t, hstep, hchanged⟩ := (Option.any_eq_true _ _).mp hread
    obtain ⟨row, hrow, hgone, howner⟩ := of_decide_eq_true hchanged
    exact ⟨s, t, hrun, hstep, fun hown => howner (hown row hrow hgone).2.1⟩
  · obtain ⟨s, hrun, hread⟩ := Machine.exists_reaches_of_exec (M := deliveryWorkers) (s := start)
      (fun s => decide ¬ s.LeasesUnique)
      (overlappingClaims ++ [lateFinish, .advance (seconds 66), .claim ['c'] (seconds 126) 32])
      (by decide +kernel)
    exact ⟨s, hrun, of_decide_eq_true hread⟩

end Runs

end DeliveryWorkers

end Supervisor
