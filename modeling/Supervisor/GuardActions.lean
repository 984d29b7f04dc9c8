import Supervisor.GuardSystem

namespace Supervisor

theorem GuardGenerationKey.matchesHandle_iff {key : GuardGenerationKey} {handle : ChildHandle} :
    key.matchesHandle handle = true ↔
      key.processId = handle.processId ∧ key.nativeGeneration = handle.generation := by
  simp only [matchesHandle, Bool.and_eq_true, decide_eq_true_eq]

/-- The child is that of the key. -/
def GuardGenerationKey.Matches (key : GuardGenerationKey) (entry : RuntimeEntry) : Prop :=
  entry.id = key.id ∧ entry.instance_.generation = key.instance_.generation ∧
    key.matchesHandle entry.handle = true

instance (key : GuardGenerationKey) (entry : RuntimeEntry) : Decidable (key.Matches entry) :=
  inferInstanceAs (Decidable (_ ∧ _))

namespace GuardPassPoint

/-- The key of an action that is current and has not stopped its child. -/
def acting : GuardPassPoint → Option GuardGenerationKey
  | .current action _ | .cancelling action _ => some action.key
  | _ => none

/-- The key of an action that stops its child or has stopped it. -/
def hit : GuardPassPoint → Option GuardGenerationKey
  | .stopping action _ _ | .arming action _ => some action.key
  | _ => none

def drained : GuardPassPoint → Option RuntimeEntry
  | .stopping _ entry _ => some entry
  | _ => none

def isHolding : GuardPassPoint → Bool
  | .current _ _ | .cancelling _ _ | .stopping _ _ _ | .arming _ _ => true
  | _ => false

end GuardPassPoint

namespace DelayedPoint

def isPending : DelayedPoint → Bool
  | .sleeping | .waiting => true
  | _ => false

def isHolding : DelayedPoint → Bool
  | .locked | .advanced _ | .spawned _ | .stopping _ => true
  | _ => false

/-- Whether the restart has spawned its child or never will. -/
def isDone : DelayedPoint → Bool
  | .spawned _ | .stopping _ | .finished => true
  | _ => false

def drained : DelayedPoint → Option RuntimeEntry
  | .stopping entry => some entry
  | _ => none

end DelayedPoint

namespace GuardedState

/-- A guard action has armed a restart of the instance that nothing has cancelled or overtaken. -/
def IsArmed (s : GuardedState) (id : ProcessInstanceId) : Prop :=
  ∃ restart ∈ s.restarts, restart.source.isSome = true ∧ restart.id = id ∧
    restart.point.isPending = true ∧ s.restartTokens id = restart.token ∧
      s.generations id = some restart.instance_.generation

instance (s : GuardedState) (id : ProcessInstanceId) : Decidable (s.IsArmed id) :=
  inferInstanceAs (Decidable (∃ restart ∈ s.restarts, _))

/-- No child of an instance comes to its end while a guard action has armed a restart of it, and no
cancellation counts on to the token of an armed restart. -/
def Fits (s : GuardedState) : GuardEvent → Prop
  | .childStopped _ => ∀ entry ∈ s.point.drained, ¬s.IsArmed entry.id
  | .removeDead entry | .endStop entry _ => ¬s.IsArmed entry.id
  | .startGuardOwner true => ∀ key ∈ s.starting, ¬s.IsArmed key.id
  | .finishRestart i _ => ∀ restart ∈ s.restarts[i]?, ∀ entry ∈ restart.point.drained,
      ¬s.IsArmed entry.id
  | .cancelPendingRestart => ∀ restart ∈ s.restarts, restart.source.isSome = true →
      restart.point.isPending = true → s.restartTokens restart.id + 1 ≠ restart.token
  | _ => True

instance (s : GuardedState) (e : GuardEvent) : Decidable (s.Fits e) := by
  unfold Fits
  split <;> exact inferInstance

/-- Guard actions hit only the generation they were decided for. -/
structure HitsOwnGeneration (s : GuardedState) : Prop where
  stops : ∀ hit ∈ s.stopped, hit.1.Matches hit.2
  /-- The child that is replaced is the one that the action was decided for. -/
  restarts : ∀ hit ∈ s.restarted, ∃ entry, hit.2 = some entry ∧ hit.1.Matches entry
  stopsOnce : (s.stopped.map Prod.fst).Nodup
  restartsOnce : (s.restarted.map Prod.fst).Nodup

def LatestIs (s : GuardedState) (key : GuardGenerationKey) : Prop :=
  ∃ entry, s.latest key.id = some entry ∧ key.Matches entry

/-- The restart would be gone through with. -/
def IsPromising (s : GuardedState) (restart : DelayedRestart) : Prop :=
  match restart.point with
  | .sleeping | .waiting => s.restartTokens restart.id = restart.token ∧
      s.generations restart.id = some restart.instance_.generation ∧
        s.runtime.runtimeEntry restart.id = none
  | .locked => s.generations restart.id = some restart.instance_.generation
  | .advanced _ => True
  | _ => False

/-- A key that has an owner has not been acted on. -/
structure Keys (s : GuardedState) : Prop where
  owned : ∀ key, key ∈ s.guardOwners ∨ s.starting = some key ∨ s.point.acting = some key →
    key ∉ s.stopped.map Prod.fst ∧ key.processId ∈ s.processIds
  used : ∀ key ∈ s.stopped.map Prod.fst, key.processId ∈ s.processIds
  starting : s.holder = none ∨ s.holder = some .guardPass → s.starting = none

/-- One holder of the lock at a time. -/
structure Locks (s : GuardedState) : Prop where
  pass : s.point.isHolding = true → s.holder = some .guardPass
  restart : ∀ (i : ℕ) (restart : DelayedRestart), s.restarts[i]? = some restart →
    restart.point.isHolding = true → s.holder = some (.restart i)

/-- What guard actions have done. -/
structure Log (s : GuardedState) : Prop where
  stoppedNodup : (s.stopped.map Prod.fst).Nodup
  stoppedMatch : ∀ hit ∈ s.stopped, hit.1.Matches hit.2
  sources : ∀ (i j : ℕ) (restart other : DelayedRestart) key, s.restarts[i]? = some restart →
    s.restarts[j]? = some other → restart.source = some key → other.source = some key → i = j
  source : ∀ (i : ℕ) (restart : DelayedRestart) key, s.restarts[i]? = some restart →
    restart.source = some key →
      key ∈ s.stopped.map Prod.fst ∧ s.point.hit ≠ some key ∧ key.instance_ = restart.instance_
  hit : ∀ key ∈ s.point.hit, key ∈ s.stopped.map Prod.fst
  done : ∀ key ∈ s.restarted.map Prod.fst, ∃ (i : ℕ) (restart : DelayedRestart),
    s.restarts[i]? = some restart ∧ restart.source = some key ∧ restart.point.isDone = true
  restartedNodup : (s.restarted.map Prod.fst).Nodup
  restartedMatch : ∀ hit ∈ s.restarted, ∃ entry, hit.2 = some entry ∧ hit.1.Matches entry

/-- The last child of each instance, and the generation that is stored. -/
structure Latest (s : GuardedState) : Prop where
  entryGeneration : ∀ entry ∈ s.runtime, ∀ g ∈ s.generations entry.id,
    entry.instance_.generation.val ≤ g.val
  hitGeneration : ∀ key ∈ s.point.hit, ∀ g ∈ s.generations key.id,
    key.instance_.generation.val ≤ g.val
  restartGeneration : ∀ (i : ℕ) (restart : DelayedRestart), s.restarts[i]? = some restart →
    restart.source.isSome = true → ∀ g ∈ s.generations restart.id,
      restart.instance_.generation.val ≤ g.val
  entry : ∀ entry ∈ s.runtime, s.LatestIs (.fromHandle entry.instance_ entry.handle)
  hit : ∀ key ∈ s.point.hit, s.LatestIs key
  restart : ∀ (i : ℕ) (restart : DelayedRestart) key, s.restarts[i]? = some restart →
    restart.source = some key → s.IsPromising restart → s.LatestIs key

structure Sound (s : GuardedState) : Prop where
  keys : s.Keys
  locks : s.Locks
  log : s.Log
  latest : s.Latest

section Frames

variable {s t : GuardedState} {i : ℕ} {restart : DelayedRestart} {point : DelayedPoint}

theorem getElem?_setRestart (hin : s.restarts[i]? = some restart) {j : ℕ} {other : DelayedRestart}
    (h : (s.setRestart i restart point).restarts[j]? = some other) :
    j = i ∧ other = { restart with point } ∨ j ≠ i ∧ s.restarts[j]? = some other := by
  change (s.restarts.set i { restart with point })[j]? = some other at h
  rw [List.getElem?_set] at h
  split at h
  · rename_i heq
    subst heq
    rw [if_pos (List.getElem?_eq_some_iff.mp hin).1] at h
    exact .inl ⟨rfl, (Option.some.inj h).symm⟩
  · rename_i hne
    exact .inr ⟨Ne.symm hne, h⟩

theorem Keys.frame (hs : s.Keys)
    (hsame : t.stopped = s.stopped ∧ t.processIds = s.processIds)
    (howners : t.guardOwners ⊆ s.guardOwners)
    (hacting : ∀ key ∈ t.point.acting, key ∈ s.guardOwners ∨ key ∈ s.point.acting)
    (hstarting : ∀ key, t.starting = some key → s.starting = some key)
    (hholder : t.holder = none ∨ t.holder = some .guardPass → t.starting = none) : t.Keys := by
  obtain ⟨hstopped, hprocessIds⟩ := hsame
  refine ⟨fun key hkey => ?_, ?_, hholder⟩
  · rw [hstopped, hprocessIds]
    apply hs.owned
    rcases hkey with hkey | hkey | hkey
    · exact .inl (howners hkey)
    · exact .inr (.inl (hstarting key hkey))
    · rcases hacting key hkey with hkey | hkey
      · exact .inl hkey
      · exact .inr (.inr hkey)
  · rw [hstopped, hprocessIds]
    exact hs.used

/-- The restart of the index moves on, while the lock is as its new point wants it. -/
theorem Locks.setRestart (hs : s.Locks) (hin : s.restarts[i]? = some restart)
    (hpass : t.point = s.point) (hrestarts : t.restarts = s.restarts)
    (hholder : t.holder = s.holder ∨ t.holder = some (.restart i) ∧ s.holder = none ∨
      s.holder = some (.restart i))
    (hpoint : point.isHolding = true → t.holder = some (.restart i)) :
    (t.setRestart i restart point).Locks := by
  have hin' : t.restarts[i]? = some restart := hrestarts ▸ hin
  refine ⟨fun hholding => ?_, fun j other hj hholding => ?_⟩
  · change t.holder = _
    have hpasses := hs.pass (hpass ▸ hholding)
    rcases hholder with h | ⟨-, h⟩ | h
    · rw [h, hpasses]
    · rw [hpasses] at h
      cases h
    · rw [hpasses] at h
      cases h
  · change t.holder = _
    rcases getElem?_setRestart hin' hj with ⟨rfl, rfl⟩ | ⟨hne, hj⟩
    · exact hpoint hholding
    · have hothers := hs.restart j other (hrestarts ▸ hj) hholding
      rcases hholder with h | ⟨-, h⟩ | h
      · rw [h, hothers]
      · rw [hothers] at h
        cases h
      · rw [hothers] at h
        exact absurd (LockHolder.restart.inj (Option.some.inj h)) hne

theorem Locks.restart_eq_none (hs : s.Locks) (hholder : ∀ i, s.holder ≠ some (.restart i)) {i : ℕ}
    {restart : DelayedRestart} (hin : s.restarts[i]? = some restart) :
    restart.point.isHolding = false := by
  cases hholding : restart.point.isHolding with
  | false => rfl
  | true => exact absurd (hs.restart i restart hin hholding) (hholder i)

theorem Log.frame (hs : s.Log)
    (hsame : t.stopped = s.stopped ∧ t.restarts = s.restarts ∧ t.restarted = s.restarted)
    (hhit : ∀ key ∈ t.point.hit, key ∈ s.point.hit) : t.Log := by
  obtain ⟨hstopped, hrestarts, hrestarted⟩ := hsame
  refine ⟨?_, ?_, ?_, ?_, ?_, ?_, ?_, ?_⟩
  · rw [hstopped]
    exact hs.stoppedNodup
  · rw [hstopped]
    exact hs.stoppedMatch
  · rw [hrestarts]
    exact hs.sources
  · rw [hrestarts, hstopped]
    intro j other key hj hsource
    obtain ⟨hmem, hne, hinstance⟩ := hs.source j other key hj hsource
    exact ⟨hmem, fun h => hne (hhit key h), hinstance⟩
  · rw [hstopped]
    exact fun key hkey => hs.hit key (hhit key hkey)
  · rw [hrestarts, hrestarted]
    exact hs.done
  · rw [hrestarted]
    exact hs.restartedNodup
  · rw [hrestarted]
    exact hs.restartedMatch

theorem Log.setRestart (hs : s.Log) (hin : s.restarts[i]? = some restart)
    (hdone : restart.point.isDone = true → point.isDone = true) :
    (s.setRestart i restart point).Log := by
  have hold {j : ℕ} {other : DelayedRestart}
      (hj : (s.setRestart i restart point).restarts[j]? = some other) :
      ∃ old, s.restarts[j]? = some old ∧ old.source = other.source ∧
        old.instance_ = other.instance_ := by
    rcases getElem?_setRestart hin hj with ⟨rfl, rfl⟩ | ⟨-, hj⟩
    · exact ⟨restart, hin, rfl, rfl⟩
    · exact ⟨other, hj, rfl, rfl⟩
  refine ⟨hs.stoppedNodup, hs.stoppedMatch, ?_, ?_, hs.hit, ?_, hs.restartedNodup,
    hs.restartedMatch⟩
  · intro j k first second key hj hk hfirst hsecond
    obtain ⟨old, hj, hsource, -⟩ := hold hj
    obtain ⟨old', hk, hsource', -⟩ := hold hk
    exact hs.sources j k old old' key hj hk (hsource.trans hfirst) (hsource'.trans hsecond)
  · intro j other key hj hsource
    obtain ⟨old, hj, hsame, hinstance⟩ := hold hj
    rw [← hinstance]
    exact hs.source j old key hj (hsame.trans hsource)
  · intro key hkey
    obtain ⟨j, other, hj, hsource, hother⟩ := hs.done key hkey
    by_cases hji : j = i
    · subst hji
      rw [hin] at hj
      obtain rfl := Option.some.inj hj
      refine ⟨j, { restart with point }, ?_, hsource, hdone hother⟩
      exact List.getElem?_set_self (List.getElem?_eq_some_iff.mp hin).1
    · refine ⟨j, other, ?_, hsource, hother⟩
      change (s.restarts.set i _)[j]? = some other
      rwa [List.getElem?_set_ne (Ne.symm hji)]

theorem Latest.frame (hs : s.Latest)
    (hsame : t.runtime = s.runtime ∧ t.generations = s.generations ∧
      t.restartTokens = s.restartTokens ∧ t.latest = s.latest ∧ t.restarts = s.restarts)
    (hhit : ∀ key ∈ t.point.hit, key ∈ s.point.hit) : t.Latest := by
  obtain ⟨hruntime, hgenerations, htokens, hlatest, hrestarts⟩ := hsame
  have hsame (key : GuardGenerationKey) (h : s.LatestIs key) : t.LatestIs key := by
    unfold LatestIs
    rwa [hlatest]
  have hpromising (other : DelayedRestart) (h : t.IsPromising other) : s.IsPromising other := by
    unfold IsPromising at h ⊢
    rwa [hruntime, hgenerations, htokens] at h
  refine ⟨?_, ?_, ?_, ?_, ?_, ?_⟩
  · rw [hruntime, hgenerations]
    exact hs.entryGeneration
  · rw [hgenerations]
    exact fun key hkey => hs.hitGeneration key (hhit key hkey)
  · rw [hrestarts, hgenerations]
    exact hs.restartGeneration
  · rw [hruntime]
    exact fun entry hentry => hsame _ (hs.entry entry hentry)
  · exact fun key hkey => hsame key (hs.hit key (hhit key hkey))
  · rw [hrestarts]
    exact fun j other key hj hsource h => hsame key (hs.restart j other key hj hsource
      (hpromising other h))

theorem Latest.setRestart (hs : s.Latest) (hin : s.restarts[i]? = some restart)
    (hpromise : ∀ key, restart.source = some key → s.IsPromising { restart with point } →
      s.LatestIs key) : (s.setRestart i restart point).Latest := by
  refine ⟨hs.entryGeneration, hs.hitGeneration, fun j other hj => ?_, hs.entry, hs.hit,
    fun j other key hj hsource h => ?_⟩
  · rcases getElem?_setRestart hin hj with ⟨rfl, rfl⟩ | ⟨-, hj⟩
    · exact hs.restartGeneration j restart hin
    · exact hs.restartGeneration j other hj
  · rcases getElem?_setRestart hin hj with ⟨rfl, rfl⟩ | ⟨-, hj⟩
    · exact hpromise key hsource h
    · exact hs.restart j other key hj hsource h

/-- The entries change in place or go, and the ones that go have no armed restart. -/
theorem Latest.withRuntime (hs : s.Latest) {runtime : Runtime}
    (hentries : ∀ entry ∈ runtime, ∃ old ∈ s.runtime, old.id = entry.id ∧
      old.instance_.generation = entry.instance_.generation ∧ old.handle = entry.handle)
    (hgone : ∀ id, s.runtime.runtimeEntry id ≠ none → runtime.runtimeEntry id = none →
      ¬s.IsArmed id) : { s with runtime }.Latest := by
  refine ⟨fun entry hentry g hg => ?_, hs.hitGeneration, hs.restartGeneration,
    fun entry hentry => ?_, hs.hit, fun j other key hj hsource h => ?_⟩
  · obtain ⟨old, hold, hid, hgeneration, -⟩ := hentries entry hentry
    rw [← hgeneration]
    exact hs.entryGeneration old hold g (hid ▸ hg)
  · obtain ⟨old, hold, hid, hgeneration, hhandle⟩ := hentries entry hentry
    obtain ⟨child, hlatest, hchild, hsame, hmatch⟩ := hs.entry old hold
    refine ⟨child, ?_, hchild.trans hid, hsame.trans hgeneration, ?_⟩
    · change s.latest entry.id = some child
      rw [← hid]
      exact hlatest
    · rw [← hhandle]
      exact hmatch
  · apply hs.restart j other key hj hsource
    have hpending (htokens : s.restartTokens other.id = other.token)
        (hgeneration : s.generations other.id = some other.instance_.generation)
        (hnone : runtime.runtimeEntry other.id = none) (hpoint : other.point.isPending = true) :
        s.runtime.runtimeEntry other.id = none := by
      by_contra hsome
      apply hgone other.id hsome hnone
      refine ⟨other, List.mem_of_getElem? hj, ?_, rfl, hpoint, htokens, hgeneration⟩
      rw [hsource]
      rfl
    unfold IsPromising at h ⊢
    cases hpoint : other.point with
    | sleeping =>
      rw [hpoint] at h
      exact ⟨h.1, h.2.1, hpending h.1 h.2.1 h.2.2 (by rw [hpoint]; rfl)⟩
    | waiting =>
      rw [hpoint] at h
      exact ⟨h.1, h.2.1, hpending h.1 h.2.1 h.2.2 (by rw [hpoint]; rfl)⟩
    | locked =>
      rw [hpoint] at h
      exact h
    | advanced next => trivial
    | spawned next =>
      rw [hpoint] at h
      exact h
    | stopping entry =>
      rw [hpoint] at h
      exact h
    | finished =>
      rw [hpoint] at h
      exact h

/-- Where the restarts of guard actions stay behind, a change of the stored generations makes none
of them promising. -/
theorem Latest.withGenerations (hs : s.Latest) {id : ProcessInstanceId} {g : Option U64}
    (hg : ∀ next ∈ g, ∃ old, s.generations id = some old ∧ next.val = old.val + 1) :
    { s with generations := Function.update s.generations id g }.Latest := by
  have hle (other : ProcessInstanceId) (n : ℕ)
      (h : ∀ old ∈ s.generations other, n ≤ old.val) (next : U64)
      (hnext : next ∈ Function.update s.generations id g other) : n ≤ next.val := by
    by_cases hother : other = id
    · subst hother
      rw [Function.update_self] at hnext
      obtain ⟨old, hold, hval⟩ := hg next hnext
      have hbelow := h old hold
      omega
    · rw [Function.update_of_ne hother] at hnext
      exact h next hnext
  refine ⟨fun entry hentry => hle _ _ (hs.entryGeneration entry hentry),
    fun key hkey => hle _ _ (hs.hitGeneration key hkey),
    fun j other hj hsource => hle _ _ (hs.restartGeneration j other hj hsource), hs.entry, hs.hit,
    fun j other key hj hsource h => ?_⟩
  apply hs.restart j other key hj hsource
  have hsame (hgeneration : Function.update s.generations id g other.id =
      some other.instance_.generation) :
      s.generations other.id = some other.instance_.generation := by
    by_cases hother : other.id = id
    · rw [hother, Function.update_self] at hgeneration
      obtain ⟨old, hold, hval⟩ := hg _ hgeneration
      have hbelow := hs.restartGeneration j other hj (by rw [hsource]; rfl) old (hother ▸ hold)
      omega
    · rwa [Function.update_of_ne hother] at hgeneration
  unfold IsPromising at h ⊢
  cases hpoint : other.point with
  | sleeping =>
    rw [hpoint] at h
    exact ⟨h.1, hsame h.2.1, h.2.2⟩
  | waiting =>
    rw [hpoint] at h
    exact ⟨h.1, hsame h.2.1, h.2.2⟩
  | locked =>
    rw [hpoint] at h
    exact hsame h
  | advanced next => trivial
  | spawned next =>
    rw [hpoint] at h
    exact h
  | stopping entry =>
    rw [hpoint] at h
    exact h
  | finished =>
    rw [hpoint] at h
    exact h

theorem Latest.filterRuntime (hs : s.Latest) {p : RuntimeEntry → Bool}
    (hp : ∀ entry ∈ s.runtime, p entry = false → ¬s.IsArmed entry.id) :
    { s with runtime := s.runtime.filter p }.Latest := by
  apply hs.withRuntime
  · exact fun entry hentry => ⟨entry, (List.mem_filter.mp hentry).1, rfl, rfl, rfl⟩
  · intro id hsome hnone
    obtain ⟨entry, hentry⟩ := Option.ne_none_iff_exists'.mp hsome
    have hid : entry.id = id := KeyedRows.find_key hentry
    have hmem : entry ∈ s.runtime := KeyedRows.find_mem hentry
    rw [← hid]
    apply hp entry hmem
    cases hkept : p entry with
    | false => rfl
    | true => exact absurd hid (KeyedRows.find_eq_none.mp hnone entry
        (List.mem_filter.mpr ⟨hmem, hkept⟩))

theorem Latest.updateRuntime (hs : s.Latest) {id : ProcessInstanceId}
    {f : RuntimeEntry → RuntimeEntry} (hf : ∀ entry, (f entry).id = entry.id ∧
      (f entry).instance_.generation = entry.instance_.generation ∧
        (f entry).handle = entry.handle) :
    { s with runtime := KeyedRows.update RuntimeEntry.id id f s.runtime }.Latest := by
  apply hs.withRuntime
  · intro entry hentry
    rcases KeyedRows.mem_update_iff.mp hentry with ⟨old, hold, -, rfl⟩ | ⟨hold, -⟩
    · obtain ⟨hid, hgeneration, hhandle⟩ := hf old
      exact ⟨old, hold, hid.symm, hgeneration.symm, hhandle.symm⟩
    · exact ⟨entry, hold, rfl, rfl, rfl⟩
  · intro other hsome hnone
    exfalso
    apply hsome
    apply KeyedRows.find_eq_none.mpr
    intro entry hentry hid
    apply KeyedRows.find_eq_none.mp hnone
      (if entry.id = id then f entry else entry) (List.mem_map_of_mem hentry)
    split
    · rw [(hf entry).1, hid]
    · exact hid

/-- What guard actions do not depend on. -/
theorem Sound.frame (hs : s.Sound)
    (hsame : { s with
      guardOwners := t.guardOwners
      pendingGuardActions := t.pendingGuardActions
      pendingRestartNames := t.pendingRestartNames
      isShuttingDown := t.isShuttingDown
      isApplyingConfig := t.isApplyingConfig
      deciding := t.deciding } = t)
    (howners : t.guardOwners ⊆ s.guardOwners) : t.Sound := by
  have hpoint : t.point = s.point := (congrArg GuardedState.point hsame).symm
  have hrestarts : t.restarts = s.restarts := (congrArg GuardedState.restarts hsame).symm
  have hholder : t.holder = s.holder := (congrArg GuardedState.holder hsame).symm
  have hstarting : t.starting = s.starting := (congrArg GuardedState.starting hsame).symm
  have hstopped : t.stopped = s.stopped := (congrArg GuardedState.stopped hsame).symm
  have hprocessIds : t.processIds = s.processIds := (congrArg GuardedState.processIds hsame).symm
  have hrestarted : t.restarted = s.restarted := (congrArg GuardedState.restarted hsame).symm
  have hlatest : t.runtime = s.runtime ∧ t.generations = s.generations ∧
      t.restartTokens = s.restartTokens ∧ t.latest = s.latest ∧ t.restarts = s.restarts :=
    ⟨(congrArg GuardedState.runtime hsame).symm, (congrArg GuardedState.generations hsame).symm,
      (congrArg GuardedState.restartTokens hsame).symm,
      (congrArg GuardedState.latest hsame).symm, hrestarts⟩
  have hhit : ∀ key ∈ t.point.hit, key ∈ s.point.hit := by
    rw [hpoint]
    exact fun _ h => h
  refine ⟨?_, ?_, hs.log.frame ⟨hstopped, hrestarts, hrestarted⟩ hhit,
    hs.latest.frame hlatest hhit⟩
  · refine hs.keys.frame ⟨hstopped, hprocessIds⟩ howners ?_ ?_ ?_
    · rw [hpoint]
      exact fun _ => .inr
    · rw [hstarting]
      exact fun _ h => h
    · rw [hholder, hstarting]
      exact hs.keys.starting
  · refine ⟨?_, ?_⟩
    · rw [hpoint, hholder]
      exact hs.locks.pass
    · rw [hrestarts, hholder]
      exact hs.locks.restart

theorem Sound.withRuntime (hs : s.Sound) {runtime : Runtime}
    (hlatest : { s with runtime }.Latest) : { s with runtime }.Sound where
  keys := ⟨hs.keys.owned, hs.keys.used, hs.keys.starting⟩
  locks := ⟨hs.locks.pass, hs.locks.restart⟩
  log := hs.log.frame ⟨rfl, rfl, rfl⟩ fun _ h => h
  latest := hlatest

theorem Sound.cancelGuardOwnerInstance (hs : s.Sound) (id : ProcessInstanceId) :
    (s.cancelGuardOwnerInstance id).Sound :=
  hs.frame rfl List.filter_sublist.subset

theorem Sound.setRuntimeState (hs : s.Sound) (id : ProcessInstanceId) (state : ProcessState) :
    { s with runtime := s.runtime.setRuntimeState id state }.Sound :=
  hs.withRuntime (hs.latest.updateRuntime fun _ => ⟨rfl, rfl, rfl⟩)

theorem Sound.beginStop (hs : s.Sound) (entry : RuntimeEntry) : (s.beginStop entry).Sound :=
  (hs.setRuntimeState entry.id .stopping).cancelGuardOwnerInstance entry.id

/-- The end of a stop, whatever becomes of it. -/
theorem Sound.endStop (hs : s.Sound) {entry : RuntimeEntry} (harmed : ¬s.IsArmed entry.id)
    (outcome : StopOutcome) : (s.endStop entry outcome).Sound := by
  have hstopping := hs.setRuntimeState entry.id .stopping
  have hremoved := hstopping.withRuntime (hstopping.latest.filterRuntime
    (p := fun other => !Runtime.matchesChild entry.instance_ entry.handle other)
    fun other _ hmatches => by
      rw [Bool.not_eq_false'] at hmatches
      unfold Runtime.matchesChild at hmatches
      simp only [Bool.and_eq_true, decide_eq_true_eq] at hmatches
      rw [hmatches.1.1.1]
      exact harmed)
  cases outcome with
  | notCancelled error => exact hstopping
  | notSignalled error => exact hs.setRuntimeState entry.id .running
  | notCleaned error => exact hremoved
  | stopped => exact hremoved

end Frames

section Pass

variable {s t : GuardedState}

theorem Sound.moveTo (hs : s.Sound) {point : GuardPassPoint}
    (hholding : point.isHolding = true → s.holder = some .guardPass)
    (hacting : ∀ key ∈ point.acting, key ∈ s.guardOwners ∨ key ∈ s.point.acting)
    (hhit : ∀ key ∈ point.hit, key ∈ s.point.hit) : { s with point }.Sound where
  keys := hs.keys.frame ⟨rfl, rfl⟩ (List.Subset.refl _) hacting (fun _ h => h) hs.keys.starting
  locks := ⟨hholding, hs.locks.restart⟩
  log := hs.log.frame ⟨rfl, rfl, rfl⟩ hhit
  latest := hs.latest.frame ⟨rfl, rfl, rfl, rfl, rfl⟩ hhit

theorem Sound.unlock (hs : s.Sound) (hpass : s.point.isHolding = false)
    (hrestart : ∀ (i : ℕ) (restart : DelayedRestart), s.restarts[i]? = some restart →
      restart.point.isHolding = false) : s.unlock.Sound where
  keys := hs.keys.frame ⟨rfl, rfl⟩ (List.Subset.refl _) (fun _ => .inr) (fun _ h => by cases h)
    fun _ => rfl
  locks := by
    refine ⟨fun hholding => ?_, fun i restart hin hholding => ?_⟩
    · rw [show s.unlock.point = s.point from rfl, hpass] at hholding
      cases hholding
    · rw [hrestart i restart hin] at hholding
      cases hholding
  log := hs.log.frame ⟨rfl, rfl, rfl⟩ fun _ h => h
  latest := hs.latest.frame ⟨rfl, rfl, rfl, rfl, rfl⟩ fun _ h => h

theorem Sound.continueActions (hs : s.Sound) (hholder : s.holder = some .guardPass)
    (rest : List GuardRestartAction) : (s.continueActions rest).Sound := by
  have hmoved : { s with point := .actions rest }.Sound :=
    hs.moveTo (fun h => by cases h) (fun _ h => by cases h) fun _ h => by cases h
  apply hmoved.unlock rfl
  intro i restart hin
  apply hs.locks.restart_eq_none _ hin
  intro j hj
  rw [hholder] at hj
  cases hj

theorem Sound.lockAction (hs : s.Sound) {action : GuardRestartAction}
    {rest : List GuardRestartAction} (hholder : s.holder = none)
    (hcurrent : s.guardOwnerIsCurrent action.key = true) :
    { s with holder := some .guardPass, point := .current action rest }.Sound where
  keys := by
    refine hs.keys.frame ⟨rfl, rfl⟩ (List.Subset.refl _) ?_ (fun _ h => h)
      fun _ => hs.keys.starting (.inl hholder)
    intro key hkey
    obtain rfl := Option.some.inj hkey
    unfold guardOwnerIsCurrent at hcurrent
    rw [Bool.and_eq_true] at hcurrent
    exact .inl (KeyedRows.find_mem (of_decide_eq_true hcurrent.2))
  locks := by
    refine ⟨fun _ => rfl, fun i restart hin hholding => ?_⟩
    have hlocked := hs.locks.restart i restart hin hholding
    rw [hholder] at hlocked
    cases hlocked
  log := hs.log.frame ⟨rfl, rfl, rfl⟩ fun _ h => by cases h
  latest := hs.latest.frame ⟨rfl, rfl, rfl, rfl, rfl⟩ fun _ h => by cases h

/-- The child of the action's own key is stopped, and no key is acted on twice. -/
theorem Sound.stopCurrent (hs : s.Sound) {action : GuardRestartAction}
    {rest : List GuardRestartAction} {entry : RuntimeEntry}
    (hpoint : s.point = .cancelling action rest)
    (hentry : s.runtime.runtimeEntry action.id = some entry)
    (hgeneration : entry.instance_.generation = action.key.instance_.generation)
    (hhandle : action.key.matchesHandle entry.handle = true) :
    { s.beginStop entry with
      point := .stopping action entry rest
      stopped := s.stopped ++ [(action.key, entry)] }.Sound := by
  have hid : entry.id = action.key.id := KeyedRows.find_key hentry
  have hmem : entry ∈ s.runtime := KeyedRows.find_mem hentry
  have hmatches : action.key.Matches entry := ⟨hid, hgeneration, hhandle⟩
  have hholder : s.holder = some .guardPass := hs.locks.pass (by rw [hpoint]; rfl)
  have hstarting : s.starting = none := hs.keys.starting (.inr hholder)
  obtain ⟨hfresh, hused⟩ := hs.keys.owned action.key (.inr (.inr (by rw [hpoint]; rfl)))
  have hkeys : (s.stopped ++ [(action.key, entry)]).map Prod.fst =
      s.stopped.map Prod.fst ++ [action.key] := by
    rw [List.map_append, List.map_singleton]
  have hbegun := hs.beginStop entry
  refine ⟨⟨?_, ?_, fun _ => hstarting⟩, ⟨fun _ => hholder, hs.locks.restart⟩, ?_, ?_⟩
  · rintro key (hkey | hkey | hkey)
    · obtain ⟨hold, hne⟩ := List.mem_filter.mp hkey
      obtain ⟨hnew, hprocess⟩ := hs.keys.owned key (.inl hold)
      refine ⟨?_, hprocess⟩
      rw [hkeys, List.mem_append, List.mem_singleton]
      rintro (h | rfl)
      · exact hnew h
      · exact of_decide_eq_true hne hid.symm
    · change s.starting = some key at hkey
      rw [hstarting] at hkey
      cases hkey
    · cases hkey
  · intro key hkey
    rw [hkeys, List.mem_append, List.mem_singleton] at hkey
    rcases hkey with hkey | rfl
    · exact hs.keys.used key hkey
    · exact hused
  · refine ⟨?_, ?_, hs.log.sources, ?_, ?_, hs.log.done, hs.log.restartedNodup,
      hs.log.restartedMatch⟩
    · rw [hkeys, List.nodup_append]
      refine ⟨hs.log.stoppedNodup, List.nodup_singleton _, ?_⟩
      intro key hkey other hother heq
      rw [List.mem_singleton.mp hother] at heq
      exact hfresh (heq ▸ hkey)
    · intro hit hhit
      rcases List.mem_append.mp hhit with hhit | hhit
      · exact hs.log.stoppedMatch hit hhit
      · rw [List.mem_singleton.mp hhit]
        exact hmatches
    · intro i restart key hin hsource
      obtain ⟨hstopped, -, hinstance⟩ := hs.log.source i restart key hin hsource
      refine ⟨?_, ?_, hinstance⟩
      · rw [hkeys]
        exact List.mem_append_left _ hstopped
      · intro hhit
        rw [← Option.some.inj hhit] at hstopped
        exact hfresh hstopped
    · intro key hkey
      obtain rfl := Option.some.inj hkey
      rw [hkeys]
      exact List.mem_append_right _ (List.mem_singleton_self _)
  · refine ⟨hbegun.latest.entryGeneration, ?_, hs.latest.restartGeneration, hbegun.latest.entry,
      ?_, hbegun.latest.restart⟩
    · intro key hkey g hg
      obtain rfl := Option.some.inj hkey
      rw [← hgeneration]
      exact hs.latest.entryGeneration entry hmem g (hid ▸ hg)
    · intro key hkey
      obtain rfl := Option.some.inj hkey
      obtain ⟨child, hlatest, hchild, hsame, hnative⟩ := hs.latest.entry entry hmem
      refine ⟨child, ?_, hchild.trans hid, hsame.trans hgeneration, ?_⟩
      · change s.latest action.key.id = some child
        rw [← hid]
        exact hlatest
      · rw [GuardGenerationKey.matchesHandle_iff] at hhandle hnative ⊢
        exact ⟨hhandle.1.trans hnative.1, hhandle.2.trans hnative.2⟩

/-- One more restart, armed by an action that has armed none before. -/
theorem Sound.scheduleAutomaticRestart (hs : s.Sound) (instance_ : ProcessInstance)
    {source : Option GuardGenerationKey} (hhit : s.point.hit = none)
    (hsource : ∀ key ∈ source, key ∈ s.stopped.map Prod.fst ∧ key.instance_ = instance_ ∧
      s.LatestIs key ∧ (∀ g ∈ s.generations key.id, key.instance_.generation.val ≤ g.val) ∧
        ∀ (i : ℕ) (restart : DelayedRestart), s.restarts[i]? = some restart →
          restart.source ≠ some key) :
    (s.scheduleAutomaticRestart instance_ source).Sound := by
  have hin {i : ℕ} {restart : DelayedRestart}
      (h : (s.scheduleAutomaticRestart instance_ source).restarts[i]? = some restart) :
      s.restarts[i]? = some restart ∨ i = s.restarts.length ∧ restart.source = source ∧
        restart.instance_ = instance_ ∧ restart.point = .sleeping := by
    change (s.restarts ++ [_])[i]? = some restart at h
    rcases Nat.lt_trichotomy i s.restarts.length with hlt | rfl | hgt
    · rw [List.getElem?_append_left hlt] at h
      exact .inl h
    · rw [List.getElem?_concat_length] at h
      obtain rfl := Option.some.inj h
      exact .inr ⟨rfl, rfl, rfl, rfl⟩
    · rw [List.getElem?_eq_none (by rw [List.length_append, List.length_singleton]; omega)] at h
      cases h
  have hkept {i : ℕ} {restart : DelayedRestart} (h : s.restarts[i]? = some restart) :
      (s.scheduleAutomaticRestart instance_ source).restarts[i]? = some restart := by
    change (s.restarts ++ [_])[i]? = some restart
    rw [List.getElem?_append_left (List.getElem?_eq_some_iff.mp h).1]
    exact h
  refine ⟨⟨hs.keys.owned, hs.keys.used, hs.keys.starting⟩, ⟨hs.locks.pass, ?_⟩, ?_, ?_⟩
  · intro i restart h hholding
    rcases hin h with h | ⟨-, -, -, hsleeping⟩
    · exact hs.locks.restart i restart h hholding
    · rw [hsleeping] at hholding
      cases hholding
  · refine ⟨hs.log.stoppedNodup, hs.log.stoppedMatch, ?_, ?_, hs.log.hit, ?_,
      hs.log.restartedNodup, hs.log.restartedMatch⟩
    · intro i j restart other key hi hj hfirst hsecond
      rcases hin hi with hi | ⟨rfl, hsame, -, -⟩
      · rcases hin hj with hj | ⟨-, hsame, -, -⟩
        · exact hs.log.sources i j restart other key hi hj hfirst hsecond
        · exact absurd hfirst ((hsource key (hsame ▸ hsecond)).2.2.2.2 i restart hi)
      · rcases hin hj with hj | ⟨rfl, -, -, -⟩
        · exact absurd hsecond ((hsource key (hsame ▸ hfirst)).2.2.2.2 j other hj)
        · rfl
    · intro i restart key hi hkey
      rcases hin hi with hi | ⟨-, hsame, hinstance, -⟩
      · exact hs.log.source i restart key hi hkey
      · obtain ⟨hstopped, hsameInstance, -⟩ := hsource key (hsame ▸ hkey)
        refine ⟨hstopped, ?_, hsameInstance.trans hinstance.symm⟩
        change s.point.hit ≠ some key
        rw [hhit]
        exact (Option.some_ne_none key).symm
    · intro key hkey
      obtain ⟨i, restart, hi, hsame, hdone⟩ := hs.log.done key hkey
      exact ⟨i, restart, hkept hi, hsame, hdone⟩
  · refine ⟨hs.latest.entryGeneration, hs.latest.hitGeneration, ?_, hs.latest.entry,
      hs.latest.hit, ?_⟩
    · intro i restart hi hsome g hg
      rcases hin hi with hi | ⟨-, hsame, hinstance, -⟩
      · exact hs.latest.restartGeneration i restart hi hsome g hg
      · obtain ⟨key, hkey⟩ := Option.isSome_iff_exists.mp hsome
        obtain ⟨-, hsameInstance, -, hgeneration, -⟩ := hsource key (hsame ▸ hkey)
        rw [hinstance, ← hsameInstance]
        apply hgeneration g
        unfold GuardGenerationKey.id
        rw [hsameInstance, ← hinstance]
        exact hg
    · intro i restart key hi hkey hpromising
      rcases hin hi with hi | ⟨-, hsame, -, -⟩
      · exact hs.latest.restart i restart key hi hkey hpromising
      · exact (hsource key (hsame ▸ hkey)).2.2.1

/-- An action that has stopped its child arms its restart, or leaves it. -/
theorem Sound.armCurrent (hs : s.Sound) {action : GuardRestartAction}
    {rest : List GuardRestartAction} (hpoint : s.point = .arming action rest) (arms : Bool) :
    ((if arms then s.scheduleAutomaticRestart action.key.instance_ (some action.key)
      else s).continueActions rest).Sound := by
  have hholder : s.holder = some .guardPass := hs.locks.pass (by rw [hpoint]; rfl)
  have hhit : s.point.hit = some action.key := by rw [hpoint]; rfl
  cases arms with
  | false => exact hs.continueActions hholder rest
  | true =>
    have hmoved : { s with point := .actions rest }.Sound :=
      hs.moveTo (fun h => by cases h) (fun _ h => by cases h) fun _ h => by cases h
    have hscheduled : ({ s with point := .actions rest }.scheduleAutomaticRestart
        action.key.instance_ (some action.key)).Sound := by
      apply hmoved.scheduleAutomaticRestart action.key.instance_ rfl
      intro key hkey
      obtain rfl := Option.some.inj hkey
      refine ⟨hs.log.hit _ hhit, rfl, hs.latest.hit _ hhit, hs.latest.hitGeneration _ hhit, ?_⟩
      intro i restart hin hsource
      exact (hs.log.source i restart _ hin hsource).2.1 hhit
    exact hscheduled.continueActions hholder rest

theorem Sound.passStep (hs : s.Sound) {e : GuardEvent} (hfits : s.Fits e)
    (h : s.passStep e = some t) : t.Sound := by
  unfold GuardedState.passStep at h
  split at h
  · split at h
    · obtain rfl := Option.some.inj h
      have hmoved : { s with point := .actions s.pendingGuardActions }.Sound :=
        hs.moveTo (fun h => by cases h) (fun _ h => by cases h) fun _ h => by cases h
      exact hmoved.frame rfl (List.Subset.refl _)
    · cases h
  · split at h
    · obtain ⟨-, heq⟩ := Option.ite_none_right_eq_some.mp h
      obtain rfl := Option.some.inj heq
      split
      · exact hs.moveTo (fun h => by cases h) (fun _ h => by cases h) fun _ h => by cases h
      · exact hs.moveTo (fun h => by cases h) (fun _ h => by cases h) fun _ h => by cases h
    · cases h
  · split at h
    · obtain rfl := Option.some.inj h
      exact hs.moveTo (fun h => by cases h) (fun _ h => by cases h) fun _ h => by cases h
    · cases h
  · split at h
    · rename_i action rest hpoint hholder
      obtain rfl := Option.some.inj h
      split
      · rename_i hcurrent
        exact hs.lockAction hholder hcurrent
      · exact hs.moveTo (fun h => by cases h) (fun _ h => by cases h) fun _ h => by cases h
    · cases h
  · split at h
    · rename_i action rest hpoint
      have hholder : s.holder = some .guardPass := hs.locks.pass (by rw [hpoint]; rfl)
      obtain rfl := Option.some.inj h
      split
      · apply (hs.cancelGuardOwnerInstance action.id).moveTo
        · exact fun _ => hholder
        · intro key hkey
          right
          change key ∈ s.point.acting
          rw [hpoint]
          exact hkey
        · exact fun _ h => by cases h
      · exact hs.continueActions hholder rest
    · cases h
  · split at h
    · rename_i action rest hpoint
      have hholder : s.holder = some .guardPass := hs.locks.pass (by rw [hpoint]; rfl)
      obtain rfl := Option.some.inj h
      split
      · exact hs.continueActions hholder rest
      · split
        · exact hs.continueActions hholder rest
        · rename_i entry hentry
          split
          · exact hs.continueActions hholder rest
          · rename_i hmatches
            rw [not_or, not_not, Bool.not_eq_false] at hmatches
            exact hs.stopCurrent hpoint hentry hmatches.1 hmatches.2
    · cases h
  · rename_i outcome
    split at h
    · rename_i action entry rest hpoint
      have hholder : s.holder = some .guardPass := hs.locks.pass (by rw [hpoint]; rfl)
      have hended := hs.endStop (hfits entry (by rw [hpoint]; rfl)) outcome
      split at h
      · obtain rfl := Option.some.inj h
        apply hended.moveTo
        · exact fun _ => hholder
        · exact fun _ h => by cases h
        · intro key hkey
          change key ∈ s.point.hit
          rw [hpoint]
          exact hkey
      · obtain rfl := Option.some.inj h
        exact hended.continueActions hholder rest
    · cases h
  · rename_i arms
    split at h
    · rename_i action rest hpoint
      obtain rfl := Option.some.inj h
      exact hs.armCurrent hpoint arms
    · rename_i instance_ hpoint
      obtain rfl := Option.some.inj h
      have hmoved : { s with point := .idle }.Sound :=
        hs.moveTo (fun h => by cases h) (fun _ h => by cases h) fun _ h => by cases h
      cases arms with
      | false => exact hmoved
      | true => exact hmoved.scheduleAutomaticRestart instance_ rfl fun _ h => by cases h
    · cases h
  · rename_i entry
    split at h
    · obtain ⟨-, heq⟩ := Option.ite_none_right_eq_some.mp h
      obtain rfl := Option.some.inj heq
      have hremoved := hs.withRuntime (hs.latest.filterRuntime
        (p := fun other => !Runtime.matchesChild entry.instance_ entry.handle other)
        fun other _ hmatches => by
          rw [Bool.not_eq_false'] at hmatches
          unfold Runtime.matchesChild at hmatches
          simp only [Bool.and_eq_true, decide_eq_true_eq] at hmatches
          rw [hmatches.1.1.1]
          exact hfits)
      exact hremoved.moveTo (fun h => by cases h) (fun _ h => by cases h) fun _ h => by cases h
    · cases h
  · split at h
    · rename_i entry hpoint
      obtain rfl := Option.some.inj h
      apply (hs.cancelGuardOwnerInstance entry.id).moveTo
      · split <;> exact fun h => by cases h
      · split <;> exact fun _ h => by cases h
      · split <;> exact fun _ h => by cases h
    · cases h
  · cases h

end Pass

section Operations

variable {s t : GuardedState} {i : ℕ} {restart : DelayedRestart}

theorem Sound.advanceGeneration (hs : s.Sound) {instance_ next : ProcessInstance}
    (h : s.advanceGeneration instance_ = some (next, t)) :
    t.Sound ∧ s.generations instance_.id = some instance_.generation ∧
      t.restarts = s.restarts ∧ t.latest = s.latest ∧ t.holder = s.holder := by
  unfold GuardedState.advanceGeneration at h
  split at h
  · obtain ⟨hstored, heq⟩ := Option.ite_none_right_eq_some.mp h
    obtain ⟨-, rfl⟩ := Prod.mk.inj (Option.some.inj heq)
    refine ⟨⟨⟨hs.keys.owned, hs.keys.used, hs.keys.starting⟩,
      ⟨hs.locks.pass, hs.locks.restart⟩, hs.log.frame ⟨rfl, rfl, rfl⟩ fun _ h => h,
      hs.latest.withGenerations ?_⟩, hstored, rfl, rfl, rfl⟩
    intro g hg
    obtain rfl := Option.some.inj hg
    exact ⟨instance_.generation, hstored, rfl⟩
  · cases h

/-- A child is spawned under the lock, so no restart is under way meanwhile. -/
theorem Sound.spawnProcessInstance (hs : s.Sound) {instance_ : ProcessInstance}
    {handle : ChildHandle} {guarded : Bool} (hheld : s.holder ≠ none)
    (hpass : s.holder ≠ some .guardPass)
    (hidle : ∀ (i : ℕ) (restart : DelayedRestart), s.restarts[i]? = some restart →
      restart.point ≠ .locked ∧ ∀ next, restart.point ≠ .advanced next)
    (h : s.spawnProcessInstance instance_ handle guarded = some t) : t.Sound := by
  unfold GuardedState.spawnProcessInstance at h
  obtain ⟨⟨hstored, hnone, hfresh⟩, heq⟩ := Option.ite_none_right_eq_some.mp h
  obtain rfl := Option.some.inj heq
  have hhit : s.point.hit = none := by
    cases hpoint : s.point with
    | stopping action entry rest => exact absurd (hs.locks.pass (by rw [hpoint]; rfl)) hpass
    | arming action rest => exact absurd (hs.locks.pass (by rw [hpoint]; rfl)) hpass
    | idle => rfl
    | actions rest => rfl
    | waiting action rest => rfl
    | current action rest => rfl
    | cancelling action rest => rfl
    | crashed entry => rfl
    | rearming instance_ => rfl
  have hlatest {key : GuardGenerationKey} (hne : key.id ≠ instance_.id) (h : s.LatestIs key) :
      ∃ entry, Function.update s.latest instance_.id
        (some ⟨instance_, handle, .running⟩) key.id = some entry ∧ key.Matches entry := by
    rw [Function.update_of_ne hne]
    exact h
  refine ⟨⟨?_, ?_, ?_⟩, ⟨hs.locks.pass, hs.locks.restart⟩,
    hs.log.frame ⟨rfl, rfl, rfl⟩ fun _ h => h, ?_⟩
  · rintro key (hkey | hkey | hkey)
    · obtain ⟨hnew, hused⟩ := hs.keys.owned key (.inl hkey)
      exact ⟨hnew, List.mem_append_left _ hused⟩
    · obtain ⟨-, heq⟩ := Option.ite_none_right_eq_some.mp hkey
      obtain rfl := Option.some.inj heq
      refine ⟨fun hstopped => hfresh (hs.keys.used _ hstopped), ?_⟩
      exact List.mem_append_right _ (List.mem_singleton_self _)
    · obtain ⟨hnew, hused⟩ := hs.keys.owned key (.inr (.inr hkey))
      exact ⟨hnew, List.mem_append_left _ hused⟩
  · exact fun key hkey => List.mem_append_left _ (hs.keys.used key hkey)
  · rintro (hholder | hholder)
    · exact absurd hholder hheld
    · exact absurd hholder hpass
  · refine ⟨?_, ?_, hs.latest.restartGeneration, ?_, ?_, ?_⟩
    · intro entry hentry g hg
      rcases KeyedRows.mem_insert.mp hentry with ⟨hold, -⟩ | rfl
      · exact hs.latest.entryGeneration entry hold g hg
      · change g ∈ s.generations instance_.id at hg
        rw [hstored] at hg
        obtain rfl := Option.some.inj hg
        exact le_refl _
    · intro key hkey
      change key ∈ s.point.hit at hkey
      rw [hhit] at hkey
      cases hkey
    · intro entry hentry
      rcases KeyedRows.mem_insert.mp hentry with ⟨hold, hne⟩ | rfl
      · exact hlatest hne (hs.latest.entry entry hold)
      · refine ⟨⟨instance_, handle, .running⟩, Function.update_self _ _ _, rfl, rfl, ?_⟩
        exact GuardGenerationKey.matchesHandle_iff.mpr ⟨rfl, rfl⟩
    · intro key hkey
      change key ∈ s.point.hit at hkey
      rw [hhit] at hkey
      cases hkey
    · intro i restart key hin hsource hpromising
      obtain ⟨hlocked, hadvanced⟩ := hidle i restart hin
      have hid : key.id = restart.id :=
        congrArg ProcessInstance.id (hs.log.source i restart key hin hsource).2.2
      -- a pending restart of the instance itself waits no more for nothing
      have hother (hgone : (s.runtime.insertRuntimeEntry
          ⟨instance_, handle, .running⟩).runtimeEntry restart.id = none) :
          restart.id ≠ instance_.id ∧ s.runtime.runtimeEntry restart.id = none := by
        unfold Runtime.runtimeEntry Runtime.insertRuntimeEntry at hgone
        rw [KeyedRows.find_insert] at hgone
        split at hgone
        · cases hgone
        · rename_i hne
          exact ⟨Ne.symm hne, hgone⟩
      unfold IsPromising at hpromising
      split at hpromising
      · rename_i hpoint
        obtain ⟨hne, hgone⟩ := hother hpromising.2.2
        apply hlatest (hid ▸ hne)
        apply hs.latest.restart i restart key hin hsource
        unfold IsPromising
        rw [hpoint]
        exact ⟨hpromising.1, hpromising.2.1, hgone⟩
      · rename_i hpoint
        obtain ⟨hne, hgone⟩ := hother hpromising.2.2
        apply hlatest (hid ▸ hne)
        apply hs.latest.restart i restart key hin hsource
        unfold IsPromising
        rw [hpoint]
        exact ⟨hpromising.1, hpromising.2.1, hgone⟩
      · rename_i hpoint
        exact absurd hpoint hlocked
      · rename_i next hpoint
        exact absurd hpoint (hadvanced next)
      · exact hpromising.elim

theorem Sound.operationStep (hs : s.Sound) {e : GuardEvent} (hfits : s.Fits e)
    (h : s.operationStep e = some t) : t.Sound := by
  have hrestarts (hholder : s.holder = some .operation) (i : ℕ) (restart : DelayedRestart)
      (hin : s.restarts[i]? = some restart) : restart.point.isHolding = false := by
    apply hs.locks.restart_eq_none _ hin
    intro j hj
    rw [hholder] at hj
    cases hj
  unfold GuardedState.operationStep at h
  split at h
  · obtain ⟨hholder, heq⟩ := Option.ite_none_right_eq_some.mp h
    obtain rfl := Option.some.inj heq
    refine ⟨?_, ⟨?_, ?_⟩, hs.log.frame ⟨rfl, rfl, rfl⟩ fun _ h => h,
      hs.latest.frame ⟨rfl, rfl, rfl, rfl, rfl⟩ fun _ h => h⟩
    · refine hs.keys.frame ⟨rfl, rfl⟩ (List.Subset.refl _) (fun _ => .inr) (fun _ h => h) ?_
      exact fun _ => hs.keys.starting (.inl hholder)
    · intro hholding
      have hpass := hs.locks.pass hholding
      rw [hholder] at hpass
      cases hpass
    · intro i restart hin hholding
      have hlocked := hs.locks.restart i restart hin hholding
      rw [hholder] at hlocked
      cases hlocked
  · obtain ⟨⟨hholder, -⟩, heq⟩ := Option.ite_none_right_eq_some.mp h
    obtain rfl := Option.some.inj heq
    apply hs.unlock _ (hrestarts hholder)
    cases hholding : s.point.isHolding with
    | false => rfl
    | true =>
      have hpass := hs.locks.pass hholding
      rw [hholder] at hpass
      cases hpass
  · obtain ⟨⟨hholder, -⟩, heq⟩ := Option.ite_none_right_eq_some.mp h
    apply hs.spawnProcessInstance _ _ _ heq
    · rw [hholder]
      exact Option.some_ne_none _
    · rw [hholder]
      exact fun h => by cases h
    · intro i restart hin
      have hfree := hrestarts hholder i restart hin
      refine ⟨fun hpoint => ?_, fun next hpoint => ?_⟩
      · rw [hpoint] at hfree
        cases hfree
      · rw [hpoint] at hfree
        cases hfree
  · obtain ⟨-, heq⟩ := Option.ite_none_right_eq_some.mp h
    obtain rfl := Option.some.inj heq
    exact hs.beginStop _
  · obtain ⟨-, heq⟩ := Option.ite_none_right_eq_some.mp h
    obtain rfl := Option.some.inj heq
    exact hs.endStop hfits _
  · obtain ⟨-, heq⟩ := Option.ite_none_right_eq_some.mp h
    obtain ⟨⟨next, t⟩, hadvanced, rfl⟩ := Option.map_eq_some_iff.mp heq
    exact (hs.advanceGeneration hadvanced).1
  · obtain ⟨-, heq⟩ := Option.ite_none_right_eq_some.mp h
    obtain rfl := Option.some.inj heq
    exact ⟨⟨hs.keys.owned, hs.keys.used, hs.keys.starting⟩, ⟨hs.locks.pass, hs.locks.restart⟩,
      hs.log.frame ⟨rfl, rfl, rfl⟩ fun _ h => h, hs.latest.withGenerations fun _ h => by cases h⟩
  · obtain ⟨-, heq⟩ := Option.ite_none_right_eq_some.mp h
    obtain rfl := Option.some.inj heq
    exact hs.withRuntime (hs.latest.updateRuntime fun _ => ⟨rfl, rfl, rfl⟩)
  · cases h

theorem Sound.setRestart (hs : s.Sound) {point : DelayedPoint}
    (hin : s.restarts[i]? = some restart)
    (hdone : restart.point.isDone = true → point.isDone = true)
    (hholding : point.isHolding = true → s.holder = some (.restart i))
    (hpromise : ∀ key, restart.source = some key → s.IsPromising { restart with point } →
      s.LatestIs key) : (s.setRestart i restart point).Sound where
  keys := ⟨hs.keys.owned, hs.keys.used, hs.keys.starting⟩
  locks := hs.locks.setRestart hin rfl rfl (.inl rfl) hholding
  log := hs.log.setRestart hin hdone
  latest := hs.latest.setRestart hin hpromise

/-- The task of the restart ends and gives the lock back. -/
theorem Sound.finish (hs : s.Sound) (hin : s.restarts[i]? = some restart)
    (hholder : s.holder = some (.restart i)) :
    (s.unlock.setRestart i restart .finished).Sound := by
  have hset : (s.setRestart i restart .finished).Sound :=
    hs.setRestart hin (fun _ => rfl) (fun h => by cases h) fun _ _ h => h.elim
  apply hset.unlock
  · change s.point.isHolding = false
    cases hholding : s.point.isHolding with
    | false => rfl
    | true =>
      have hpass := hs.locks.pass hholding
      rw [hholder] at hpass
      cases hpass
  · intro j other hj
    rcases getElem?_setRestart hin hj with ⟨rfl, rfl⟩ | ⟨hne, hj⟩
    · rfl
    · cases hholding : other.point.isHolding with
      | false => rfl
      | true =>
        have hother := hs.locks.restart j other hj hholding
        rw [hholder] at hother
        exact absurd (LockHolder.restart.inj (Option.some.inj hother)).symm hne

/-- The lock is free, and nothing has come between. -/
theorem Sound.lockRestart (hs : s.Sound) (hin : s.restarts[i]? = some restart)
    (hpoint : restart.point = .waiting) (hholder : s.holder = none)
    (hdue : s.isDue restart = true) :
    ({ s with holder := some (.restart i) }.setRestart i restart .locked).Sound := by
  unfold isDue at hdue
  simp only [Bool.and_eq_true, decide_eq_true_eq, Option.isNone_iff_eq_none] at hdue
  refine ⟨?_, ?_, ?_, ?_⟩
  · refine hs.keys.frame ⟨rfl, rfl⟩ (List.Subset.refl _) (fun _ => .inr) (fun _ h => h) ?_
    exact fun _ => hs.keys.starting (.inl hholder)
  · exact hs.locks.setRestart (t := { s with holder := some (.restart i) }) hin rfl rfl
      (.inr (.inl ⟨rfl, hholder⟩)) fun _ => rfl
  · have hlog : (s.setRestart i restart .locked).Log :=
      hs.log.setRestart hin fun h => by rw [hpoint] at h; cases h
    exact hlog.frame ⟨rfl, rfl, rfl⟩ fun _ h => h
  · have hlocked := @GuardedState.Latest.setRestart _ _ _ .locked hs.latest hin fun key hsource
      hstored => by
      apply hs.latest.restart i restart key hin hsource
      unfold IsPromising
      rw [hpoint]
      exact ⟨hdue.2, hstored, hdue.1.2⟩
    exact hlocked.frame ⟨rfl, rfl, rfl, rfl, rfl⟩ fun _ h => h

/-- The child of the restart replaces the one that the action was decided for. -/
theorem Sound.spawnRestart (hs : s.Sound) (hin : s.restarts[i]? = some restart)
    {next : ProcessInstance} (hpoint : restart.point = .advanced next) {handle : ChildHandle}
    {guarded : Bool}
    (h : ({ s with restarted := s.restarted ++
        restart.source.toList.map fun key => (key, s.latest restart.id) }.setRestart i restart
          (.spawned next)).spawnProcessInstance next handle guarded = some t) : t.Sound := by
  have hholder : s.holder = some (.restart i) :=
    hs.locks.restart i restart hin (by rw [hpoint]; rfl)
  have hset : (s.setRestart i restart (.spawned next)).Sound := by
    refine hs.setRestart hin ?_ (fun _ => hholder) fun _ _ h => h.elim
    intro hdone
    rw [hpoint] at hdone
    cases hdone
  have hkeys : (s.restarted ++ restart.source.toList.map fun key =>
      (key, s.latest restart.id)).map Prod.fst =
        s.restarted.map Prod.fst ++ restart.source.toList := by
    rw [List.map_append, List.map_map]
    congr 1
    exact List.map_id _
  have hfresh (key : GuardGenerationKey) (hsource : restart.source = some key) :
      key ∉ s.restarted.map Prod.fst := by
    intro hrestarted
    obtain ⟨j, other, hj, hother, hdone⟩ := hs.log.done key hrestarted
    obtain rfl := hs.log.sources i j restart other key hin hj hsource hother
    rw [hin] at hj
    obtain rfl := Option.some.inj hj
    rw [hpoint] at hdone
    cases hdone
  have hlogged : ({ s with restarted := s.restarted ++
      restart.source.toList.map fun key => (key, s.latest restart.id) }.setRestart i restart
        (.spawned next)).Sound := by
    refine ⟨⟨hset.keys.owned, hset.keys.used, hset.keys.starting⟩,
      ⟨hset.locks.pass, hset.locks.restart⟩, ?_,
      hset.latest.frame ⟨rfl, rfl, rfl, rfl, rfl⟩ fun _ h => h⟩
    refine ⟨hset.log.stoppedNodup, hset.log.stoppedMatch, hset.log.sources, hset.log.source,
      hset.log.hit, ?_, ?_, ?_⟩
    · intro key hkey
      change key ∈ (s.restarted ++ _).map Prod.fst at hkey
      rw [hkeys, List.mem_append, Option.mem_toList] at hkey
      rcases hkey with hkey | hkey
      · exact hset.log.done key hkey
      · refine ⟨i, { restart with point := .spawned next }, ?_, hkey, rfl⟩
        exact List.getElem?_set_self (List.getElem?_eq_some_iff.mp hin).1
    · change ((s.restarted ++ _).map Prod.fst).Nodup
      rw [hkeys]
      cases hsource : restart.source with
      | none =>
        rw [Option.toList_none, List.append_nil]
        exact hs.log.restartedNodup
      | some key =>
        rw [Option.toList_some, List.nodup_append]
        refine ⟨hs.log.restartedNodup, List.nodup_singleton key, ?_⟩
        intro old hold other hother heq
        rw [List.mem_singleton.mp hother] at heq
        exact hfresh key hsource (heq ▸ hold)
    · intro hit hhit
      rcases List.mem_append.mp hhit with hhit | hhit
      · exact hs.log.restartedMatch hit hhit
      · obtain ⟨key, hkey, rfl⟩ := List.mem_map.mp hhit
        rw [Option.mem_toList] at hkey
        obtain ⟨entry, hlatest, hmatches⟩ := hs.latest.restart i restart key hin hkey (by
          unfold IsPromising
          rw [hpoint]
          trivial)
        have hid : key.id = restart.id :=
          congrArg ProcessInstance.id (hs.log.source i restart key hin hkey).2.2
        exact ⟨entry, hid ▸ hlatest, hmatches⟩
  apply hlogged.spawnProcessInstance _ _ _ h
  · change s.holder ≠ none
    rw [hholder]
    exact Option.some_ne_none _
  · change s.holder ≠ some .guardPass
    rw [hholder]
    exact fun h => by cases h
  · intro j other hj
    rcases getElem?_setRestart (s := s) hin hj with ⟨rfl, rfl⟩ | ⟨hne, hj⟩
    · exact ⟨DelayedPoint.noConfusion, fun _ => DelayedPoint.noConfusion⟩
    · have hfree : other.point.isHolding = false := by
        cases hholding : other.point.isHolding with
        | false => rfl
        | true =>
          have hother := hs.locks.restart j other hj hholding
          rw [hholder] at hother
          exact absurd (LockHolder.restart.inj (Option.some.inj hother)).symm hne
      refine ⟨fun hpoint => ?_, fun next hpoint => ?_⟩
      · rw [hpoint] at hfree
        cases hfree
      · rw [hpoint] at hfree
        cases hfree

theorem Sound.restartStep (hs : s.Sound) {e : GuardEvent} (hin : s.restarts[i]? = some restart)
    (hfits : ∀ outcome, e = .finishRestart i outcome → ∀ entry ∈ restart.point.drained,
      ¬s.IsArmed entry.id)
    (hindex : ∀ j outcome, e = .finishRestart j outcome → j = i)
    (h : s.restartStep i restart e = some t) : t.Sound := by
  have hlocked (hholding : restart.point.isHolding = true) : s.holder = some (.restart i) :=
    hs.locks.restart i restart hin hholding
  unfold GuardedState.restartStep at h
  split at h
  · split at h
    · rename_i hpoint
      obtain rfl := Option.some.inj h
      have hwoken : (s.setRestart i restart
          (if s.isDue restart then .waiting else .finished)).Sound := by
        apply hs.setRestart hin
        · intro hdone
          rw [hpoint] at hdone
          cases hdone
        · split <;> exact fun h => by cases h
        · split
          · intro key hsource hpromising
            apply hs.latest.restart i restart key hin hsource
            unfold IsPromising
            rw [hpoint]
            exact hpromising
          · exact fun _ _ h => h.elim
      exact hwoken.frame rfl (List.Subset.refl _)
    · cases h
  · split at h
    · rename_i hpoint hholder
      obtain rfl := Option.some.inj h
      split
      · rename_i hdue
        exact hs.lockRestart hin hpoint hholder hdue
      · exact hs.setRestart hin (fun _ => rfl) (fun h => by cases h) fun _ _ h => h.elim
    · cases h
  · split at h
    · rename_i hpoint
      have hholder := hlocked (by rw [hpoint]; rfl)
      split at h
      · rename_i next advanced hadvanced
        obtain rfl := Option.some.inj h
        obtain ⟨hsound, hstored, hrestarts, hlatest, hsame⟩ := hs.advanceGeneration hadvanced
        apply hsound.setRestart (hrestarts ▸ hin)
        · intro hdone
          rw [hpoint] at hdone
          cases hdone
        · exact fun _ => hsame.trans hholder
        · intro key hsource _
          unfold LatestIs
          rw [hlatest]
          apply hs.latest.restart i restart key hin hsource
          unfold IsPromising
          rw [hpoint]
          exact hstored
      · obtain rfl := Option.some.inj h
        exact hs.finish hin hholder
    · cases h
  · split at h
    · rename_i next hpoint
      exact hs.spawnRestart hin hpoint h
    · cases h
  · split at h
    · rename_i next hpoint
      obtain rfl := Option.some.inj h
      exact hs.finish hin (hlocked (by rw [hpoint]; rfl))
    · cases h
  · split at h
    · rename_i next hpoint
      have hholder := hlocked (by rw [hpoint]; rfl)
      obtain ⟨-, heq⟩ := Option.ite_none_right_eq_some.mp h
      obtain ⟨entry, -, rfl⟩ := Option.map_eq_some_iff.mp heq
      apply (hs.beginStop entry).setRestart hin
      · exact fun _ => rfl
      · exact fun _ => hholder
      · exact fun _ _ h => h.elim
    · cases h
  · rename_i j outcome
    obtain rfl := hindex j outcome rfl
    split at h
    · rename_i next hpoint
      obtain ⟨-, heq⟩ := Option.ite_none_right_eq_some.mp h
      obtain rfl := Option.some.inj heq
      exact hs.finish hin (hlocked (by rw [hpoint]; rfl))
    · rename_i entry hpoint
      obtain rfl := Option.some.inj h
      have harmed := hfits outcome rfl entry (by rw [hpoint]; rfl)
      exact (hs.endStop harmed outcome).finish hin (hlocked (by rw [hpoint]; rfl))
    · cases h
  · cases h

theorem Sound.cancelPendingRestart (hs : s.Sound) (hfits : s.Fits .cancelPendingRestart) :
    s.cancelPendingRestart.Sound := by
  refine ⟨⟨hs.keys.owned, hs.keys.used, hs.keys.starting⟩, ⟨hs.locks.pass, hs.locks.restart⟩,
    hs.log.frame ⟨rfl, rfl, rfl⟩ fun _ h => h, ⟨hs.latest.entryGeneration, hs.latest.hitGeneration,
      hs.latest.restartGeneration, hs.latest.entry, hs.latest.hit, ?_⟩⟩
  intro i restart key hin hsource hpromising
  apply hs.latest.restart i restart key hin hsource
  have hkept (hpending : restart.point.isPending = true)
      (htoken : s.cancelPendingRestart.restartTokens restart.id = restart.token) :
      s.restartTokens restart.id = restart.token := by
    unfold GuardedState.cancelPendingRestart at htoken
    dsimp only at htoken
    split at htoken
    · have hcounted := hfits restart (List.mem_of_getElem? hin) (by rw [hsource]; rfl) hpending
      exact absurd htoken hcounted
    · exact htoken
  unfold IsPromising at hpromising ⊢
  cases hpoint : restart.point with
  | sleeping =>
    rw [hpoint] at hpromising
    exact ⟨hkept (by rw [hpoint]; rfl) hpromising.1, hpromising.2⟩
  | waiting =>
    rw [hpoint] at hpromising
    exact ⟨hkept (by rw [hpoint]; rfl) hpromising.1, hpromising.2⟩
  | locked =>
    rw [hpoint] at hpromising
    exact hpromising
  | advanced next => trivial
  | spawned next =>
    rw [hpoint] at hpromising
    exact hpromising
  | stopping entry =>
    rw [hpoint] at hpromising
    exact hpromising
  | finished =>
    rw [hpoint] at hpromising
    exact hpromising

/-- The child that was spawned last gets its guard owner, or it is killed again. -/
theorem Sound.startGuardOwner (hs : s.Sound) {fails : Bool}
    (hfits : s.Fits (.startGuardOwner fails)) (h : s.step (.startGuardOwner fails) = some t) :
    t.Sound := by
  simp only [GuardedState.step] at h
  cases hstarting : s.starting with
  | none =>
    rw [hstarting] at h
    cases h
  | some key =>
    rw [hstarting] at h
    obtain rfl := Option.some.inj h
    obtain ⟨hnew, hused⟩ := hs.keys.owned key (.inr (.inl hstarting))
    cases fails with
    | true =>
      have hremoved := hs.withRuntime (hs.latest.filterRuntime
        (p := fun entry => !decide (entry.id = key.id ∧
          entry.instance_.generation = key.instance_.generation ∧
            key.matchesHandle entry.handle = true)) fun entry _ hmatches => by
          rw [Bool.not_eq_false', decide_eq_true_eq] at hmatches
          rw [hmatches.1]
          exact hfits key hstarting)
      refine ⟨?_, ⟨hremoved.locks.pass, hremoved.locks.restart⟩,
        hremoved.log.frame ⟨rfl, rfl, rfl⟩ fun _ h => h,
        hremoved.latest.frame ⟨rfl, rfl, rfl, rfl, rfl⟩ fun _ h => h⟩
      exact hremoved.keys.frame ⟨rfl, rfl⟩ (List.Subset.refl _) (fun _ => .inr)
        (fun _ h => by cases h) fun _ => rfl
    | false =>
      have hcancelled := hs.cancelGuardOwnerInstance key.id
      refine ⟨⟨?_, hcancelled.keys.used, fun _ => rfl⟩,
        ⟨hcancelled.locks.pass, hcancelled.locks.restart⟩,
        hcancelled.log.frame ⟨rfl, rfl, rfl⟩ fun _ h => h,
        hcancelled.latest.frame ⟨rfl, rfl, rfl, rfl, rfl⟩ fun _ h => h⟩
      rintro other (hother | hother | hother)
      · rcases List.mem_append.mp hother with hother | hother
        · exact hcancelled.keys.owned other (.inl hother)
        · rw [List.mem_singleton.mp hother]
          exact ⟨hnew, hused⟩
      · cases hother
      · exact hs.keys.owned other (.inr (.inr hother))

theorem Sound.enqueueGuardRestart (hs : s.Sound) (key : GuardGenerationKey)
    (cause : GuardRestartCause) : (s.enqueueGuardRestart key cause).Sound := by
  unfold GuardedState.enqueueGuardRestart
  split
  · exact hs.frame rfl (List.Subset.refl _)
  · split
    · exact hs
    · split
      · exact hs.frame rfl (List.Subset.refl _)
      · exact hs

theorem Sound.step (hs : s.Sound) {e : GuardEvent} (hfits : s.Fits e)
    (h : s.step e = some t) : t.Sound := by
  have hrestart {i : ℕ} {e : GuardEvent} (hfits : s.Fits e)
      (hindex : ∀ j outcome, e = .finishRestart j outcome → j = i)
      (h : (s.restarts[i]?.bind fun restart => s.restartStep i restart e) = some t) :
      t.Sound := by
    obtain ⟨restart, hin, hstep⟩ := Option.bind_eq_some_iff.mp h
    refine hs.restartStep hin ?_ hindex hstep
    rintro outcome rfl
    exact hfits restart hin
  have hother {e : GuardEvent} (hfits : s.Fits e)
      (h : (s.passStep e).or (s.operationStep e) = some t) : t.Sound := by
    rcases Option.or_eq_some_iff.mp h with hpass | ⟨-, hoperation⟩
    · exact hs.passStep hfits hpass
    · exact hs.operationStep hfits hoperation
  cases e with
  | setShuttingDown =>
    obtain rfl := Option.some.inj h
    exact hs.frame rfl (List.Subset.refl _)
  | setApplyingConfig value =>
    obtain rfl := Option.some.inj h
    exact hs.frame rfl (List.Subset.refl _)
  | decide key =>
    obtain ⟨-, heq⟩ := Option.ite_none_right_eq_some.mp h
    obtain rfl := Option.some.inj heq
    exact hs.frame rfl (List.Subset.refl _)
  | enqueue key cause =>
    obtain ⟨-, heq⟩ := Option.ite_none_right_eq_some.mp h
    obtain rfl := Option.some.inj heq
    have hdecided : { s with deciding := s.deciding.erase key }.Sound :=
      hs.frame rfl (List.Subset.refl _)
    exact hdecided.enqueueGuardRestart key cause
  | cancelPendingRestart =>
    obtain rfl := Option.some.inj h
    exact hs.cancelPendingRestart hfits
  | cancelGuardOwner id =>
    obtain rfl := Option.some.inj h
    exact hs.cancelGuardOwnerInstance id
  | startGuardOwner fails => exact hs.startGuardOwner hfits h
  | wake i => exact hrestart hfits (fun _ _ h => by cases h) h
  | lockRestart i => exact hrestart hfits (fun _ _ h => by cases h) h
  | advanceRestart i fails => exact hrestart hfits (fun _ _ h => by cases h) h
  | spawnRestart i handle guarded => exact hrestart hfits (fun _ _ h => by cases h) h
  | abandonRestart i => exact hrestart hfits (fun _ _ h => by cases h) h
  | forceStop i => exact hrestart hfits (fun _ _ h => by cases h) h
  | finishRestart i outcome =>
    exact hrestart hfits (fun j other heq => (GuardEvent.finishRestart.inj heq).1.symm) h
  | takeActions => exact hother hfits h
  | nextAction action => exact hother hfits h
  | endActions => exact hother hfits h
  | lockAction => exact hother hfits h
  | readSpec direct => exact hother hfits h
  | ownerCancelled fails => exact hother hfits h
  | childStopped outcome => exact hother hfits h
  | schedule arms => exact hother hfits h
  | removeDead entry => exact hother hfits h
  | crashCancelled fails => exact hother hfits h
  | acquire => exact hother hfits h
  | release => exact hother hfits h
  | spawn instance_ handle guarded => exact hother hfits h
  | beginStop entry => exact hother hfits h
  | endStop entry outcome => exact hother hfits h
  | advance instance_ => exact hother hfits h
  | retire id => exact hother hfits h
  | promote id ordinal => exact hother hfits h

theorem sound_start (generations : ProcessInstanceId → Option U64) :
    ({ generations } : GuardedState).Sound where
  keys := by
    refine ⟨?_, fun _ h => absurd h List.not_mem_nil, fun _ => rfl⟩
    rintro key (h | h | h)
    · exact absurd h List.not_mem_nil
    · cases h
    · cases h
  locks := by
    refine ⟨fun h => ?_, fun i restart hin => ?_⟩
    · cases h
    · cases hin
  log := by
    refine ⟨List.nodup_nil, fun _ h => absurd h List.not_mem_nil, fun i j restart other key hin => ?_,
      fun i restart key hin => ?_, fun key h => ?_, fun _ h => absurd h List.not_mem_nil,
      List.nodup_nil, fun _ h => absurd h List.not_mem_nil⟩
    · cases hin
    · cases hin
    · cases h
  latest := by
    refine ⟨fun _ h => absurd h List.not_mem_nil, fun key h => ?_, fun i restart hin => ?_,
      fun _ h => absurd h List.not_mem_nil, fun key h => ?_, fun i restart key hin => ?_⟩
    · cases h
    · cases hin
    · cases h
    · cases hin

theorem Sound.hitsOwnGeneration (hs : s.Sound) : s.HitsOwnGeneration where
  stops := hs.log.stoppedMatch
  restarts := hs.log.restartedMatch
  stopsOnce := hs.log.stoppedNodup
  restartsOnce := hs.log.restartedNodup

end Operations

/-- Whatever generations are stored at first, and however workers, passes, restarts and operations
interleave. -/
theorem run_hitsOwnGeneration {generations : ProcessInstanceId → Option U64} {s : GuardedState}
    (h : machine.Run Fits { generations } s) : s.HitsOwnGeneration := by
  have hsound : s.Sound :=
    h.invariant (fun _ _ _ hs hfits hstep => hs.step hfits hstep) (sound_start generations)
  exact hsound.hitsOwnGeneration

def firstSlot : ProcessInstance := ⟨⟨1⟩, ⟨1⟩, ⟨0, by decide⟩, ⟨1, by decide⟩⟩

def nthChild (n : ℕ) : ChildHandle := ⟨n, 100, some 100, some "100:1", 0⟩

def nthKey (n : ℕ) : GuardGenerationKey := .fromHandle firstSlot (nthChild n)

/-- A child whose liveness fails is stopped. -/
def stopUnhealthy : List GuardEvent :=
  [.acquire, .spawn firstSlot (nthChild 1) true, .startGuardOwner false, .release,
    .decide (nthKey 1), .enqueue (nthKey 1) .livenessFailure, .takeActions,
    .nextAction ⟨nthKey 1, .livenessFailure⟩, .lockAction, .readSpec true, .ownerCancelled false,
    .childStopped .stopped]

/-- The restart replaces the child that was stopped. -/
theorem stopUnhealthy_hitsOwnGeneration : ∃ s : GuardedState, s.HitsOwnGeneration ∧
    s.stopped.map Prod.fst = [nthKey 1] ∧ s.restarted.map Prod.fst = [nthKey 1] := by
  obtain ⟨s, hrun, hp⟩ := Machine.exists_run_of_execUnder (M := machine) (C := Fits)
    (s := { generations := fun _ => some ⟨1, by decide⟩ })
    (fun s => s.stopped.map Prod.fst = [nthKey 1] ∧ s.restarted.map Prod.fst = [nthKey 1])
    (stopUnhealthy ++ [.schedule true, .endActions, .wake 0, .lockRestart 0,
      .advanceRestart 0 false, .spawnRestart 0 (nthChild 2) true, .startGuardOwner false,
      .finishRestart 0 .stopped])
    (by decide +kernel)
  exact ⟨s, run_hitsOwnGeneration hrun, of_decide_eq_true hp⟩

/-- A start that has cancelled the pending restarts before the guard pass arms its own spawns a
second child; when that one exits, the restart of the first one's guard takes its place. -/
theorem stopUnhealthy_superseded : ∃ s : GuardedState,
    machine.Reaches { generations := fun _ => some ⟨1, by decide⟩ } s ∧
      s.restarted = [(nthKey 1, some ⟨firstSlot, nthChild 2, .running⟩)] ∧
      ¬s.HitsOwnGeneration := by
  obtain ⟨s, hrun, hp⟩ := Machine.exists_reaches_of_exec (M := machine)
    (s := { generations := fun _ => some ⟨1, by decide⟩ })
    (fun s => s.restarted = [(nthKey 1, some ⟨firstSlot, nthChild 2, .running⟩)])
    (stopUnhealthy ++ [.cancelPendingRestart, .schedule true, .endActions, .acquire,
      .spawn firstSlot (nthChild 2) true, .startGuardOwner false, .release,
      .removeDead ⟨firstSlot, nthChild 2, .running⟩, .crashCancelled false, .schedule true,
      .wake 0, .lockRestart 0, .advanceRestart 0 false, .spawnRestart 0 (nthChild 3) true])
    (by decide +kernel)
  have hrestarted := of_decide_eq_true hp
  refine ⟨s, hrun, hrestarted, fun h => ?_⟩
  obtain ⟨entry, hentry, hmatches⟩ := h.restarts _ (hrestarted ▸ List.mem_singleton_self _)
  obtain rfl := Option.some.inj hentry
  have hdifferent : ¬(nthKey 1).Matches ⟨firstSlot, nthChild 2, .running⟩ := by decide +kernel
  exact hdifferent hmatches

end GuardedState

end Supervisor
