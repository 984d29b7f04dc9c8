import Supervisor.KeyedRows
import Supervisor.PrefixRuns
import Supervisor.ProcessDomain

namespace Supervisor

/-- What a queued cleanup is to clear -/
structure HandleIdentity where
  name : String
  processId : Uuid
  generation : Option String
deriving DecidableEq

structure RuntimeHandleCleanup where
  identity : HandleIdentity
  attempts : ℕ
  lastError : String
deriving DecidableEq

def RuntimeHandleCleanup.name (row : RuntimeHandleCleanup) : String := row.identity.name

/-- The queue, the recorded handles, and the pass of the reconciliation: the listed rows that it has
not come to, and the one that it has cleared and not completed. `queued` and `attempted` are the
identities of all cleanups so far. -/
structure HandleQueue where
  rows : List RuntimeHandleCleanup := []
  handles : List HandleIdentity := []
  pending : List RuntimeHandleCleanup := []
  cleared : Option RuntimeHandleCleanup := none
  queued : List HandleIdentity := []
  attempted : List HandleIdentity := []
  removedOther : Bool := false

inductive HandleEvent where
  | setRuntimeHandle (identity : HandleIdentity)
  | enqueueRuntimeHandleCleanup (identity : HandleIdentity) (error : String)
  | pendingRuntimeHandleCleanup
  /-- The outcome is that of the database. -/
  | clearRuntimeHandleIfMatches (ok : Bool)
  | completeRuntimeHandleCleanup (ok : Bool)
  /-- The process ends. -/
  | crash

namespace HandleQueue

/-- `INSERT INTO runtime_handle_cleanup … ON CONFLICT(name) DO UPDATE` -/
def enqueueRow (rows : List RuntimeHandleCleanup) (identity : HandleIdentity) (error : String) :
    List RuntimeHandleCleanup :=
  match KeyedRows.find RuntimeHandleCleanup.name identity.name rows with
  | none => rows ++ [⟨identity, 1, error⟩]
  | some _ =>
    KeyedRows.update RuntimeHandleCleanup.name identity.name
      (fun row => ⟨identity, row.attempts + 1, error⟩) rows

def listRows (rows : List RuntimeHandleCleanup) (limit : ℕ) : List RuntimeHandleCleanup :=
  (rows.insertionSort fun a b => a.name ≤ b.name).take limit

/-- An event that is not due changes nothing. One pass follows the other. -/
def step (s : HandleQueue) : HandleEvent → HandleQueue
  | .setRuntimeHandle identity =>
    { s with handles := s.handles.filter (fun other => other.name ≠ identity.name) ++ [identity] }
  | .enqueueRuntimeHandleCleanup identity error =>
    { s with rows := enqueueRow s.rows identity error, queued := s.queued ++ [identity] }
  | .pendingRuntimeHandleCleanup =>
    if s.pending = [] ∧ s.cleared = none then { s with pending := listRows s.rows 1000 } else s
  | .clearRuntimeHandleIfMatches ok =>
    match s.cleared, s.pending with
    | none, cleanup :: pending =>
      let s := { s with pending, attempted := s.attempted ++ [cleanup.identity] }
      if ok then
        { s with
          handles := s.handles.filter fun identity => identity ≠ cleanup.identity
          cleared := some cleanup }
      else s
    | _, _ => s
  | .completeRuntimeHandleCleanup ok =>
    match s.cleared with
    | none => s
    | some cleanup =>
      if ok then
        { s with
          cleared := none
          rows := s.rows.filter fun row => row.name ≠ cleanup.name
          removedOther := s.removedOther || s.rows.any fun row =>
            row.name = cleanup.name && row.identity ≠ cleanup.identity }
      else { s with cleared := none }
  | .crash => { s with pending := [], cleared := none }

/-- A queued cleanup is in the queue until its identity was tried to clear, and no completion has
removed the cleanup of another identity. -/
structure NoneLost (s : HandleQueue) : Prop where
  kept : ∀ identity ∈ s.queued, identity ∉ s.attempted → ∃ row ∈ s.rows, row.identity = identity
  own : s.removedOther = false
  listed : ∀ row ∈ s.rows, row.identity ∈ s.queued
  tried : ∀ cleanup, s.cleared = some cleanup → cleanup.identity ∈ s.attempted

/-- A cleanup is queued over one of another identity only when that one was tried; and a cleanup is
completed only if none of another identity was queued under its name since it was listed. -/
def Separate (s : HandleQueue) : HandleEvent → Prop
  | .enqueueRuntimeHandleCleanup identity _ =>
    ∀ row ∈ s.rows, row.name = identity.name → row.identity = identity ∨ row.identity ∈ s.attempted
  | .completeRuntimeHandleCleanup ok =>
    ok = true → ∀ cleanup, s.cleared = some cleanup →
      ∀ row ∈ s.rows, row.name = cleanup.name → row.identity = cleanup.identity
  | _ => True

variable {s : HandleQueue}

theorem mem_enqueueRow {rows : List RuntimeHandleCleanup} {identity : HandleIdentity}
    {error : String} {row : RuntimeHandleCleanup} (h : row ∈ enqueueRow rows identity error) :
    row.identity = identity ∨ row ∈ rows := by
  unfold enqueueRow at h
  split at h
  · rcases List.mem_append.mp h with h | h
    · exact .inr h
    · rw [List.mem_singleton.mp h]
      exact .inl rfl
  · rcases KeyedRows.mem_update_iff.mp h with ⟨old, -, -, rfl⟩ | ⟨h, -⟩
    · exact .inl rfl
    · exact .inr h

theorem exists_enqueueRow (rows : List RuntimeHandleCleanup) (identity : HandleIdentity)
    (error : String) : ∃ row ∈ enqueueRow rows identity error, row.identity = identity := by
  unfold enqueueRow
  split
  · exact ⟨_, List.mem_append_right _ List.mem_cons_self, rfl⟩
  · rename_i old hold
    exact ⟨_, KeyedRows.mem_update_iff.mpr
      (.inl ⟨old, KeyedRows.find_mem hold, KeyedRows.find_key hold, rfl⟩), rfl⟩

/-- A row stays unless one of its name takes its place. -/
theorem mem_enqueueRow_iff {rows : List RuntimeHandleCleanup} {identity : HandleIdentity}
    {error : String} {row : RuntimeHandleCleanup} (hname : row.name ≠ identity.name) :
    row ∈ enqueueRow rows identity error ↔ row ∈ rows := by
  unfold enqueueRow
  split
  · rw [List.mem_append, List.mem_singleton]
    refine or_iff_left_of_imp fun h => ?_
    rw [h] at hname
    exact absurd rfl hname
  · rw [KeyedRows.mem_update_iff]
    constructor
    · rintro (⟨old, -, -, rfl⟩ | ⟨h, -⟩)
      · exact absurd rfl hname
      · exact h
    · exact fun h => .inr ⟨h, hname⟩

theorem replaced_enqueueRow {rows : List RuntimeHandleCleanup} {identity : HandleIdentity}
    {error : String} {row old : RuntimeHandleCleanup} (hold : old ∈ rows)
    (hname : old.name = identity.name) (hrow : row ∈ enqueueRow rows identity error)
    (hrowName : row.name = identity.name) : row.identity = identity := by
  unfold enqueueRow at hrow
  split at hrow
  · rename_i hnone
    exact absurd hname (KeyedRows.find_eq_none.mp hnone old hold)
  · rcases KeyedRows.mem_update_iff.mp hrow with ⟨other, -, -, rfl⟩ | ⟨-, hother⟩
    · rfl
    · exact absurd hrowName hother

/-- A queueing loses the cleanup that it replaces, unless that one was tried. -/
theorem NoneLost.enqueue (hs : s.NoneLost) (identity : HandleIdentity) (error : String) :
    (s.step (.enqueueRuntimeHandleCleanup identity error)).NoneLost ↔
      s.Separate (.enqueueRuntimeHandleCleanup identity error) := by
  constructor
  · intro ht row hrow hname
    by_contra hnot
    rw [not_or] at hnot
    obtain ⟨row', hrow', hsame⟩ := ht.kept row.identity
      (List.mem_append_left _ (hs.listed row hrow)) hnot.2
    have hname' : row'.name = identity.name := (congrArg HandleIdentity.name hsame).trans hname
    exact hnot.1 (hsame.symm.trans (replaced_enqueueRow hrow hname hrow' hname'))
  · intro hseparate
    refine { kept := ?_, own := hs.own, listed := ?_, tried := hs.tried }
    · intro other hother huntried
      by_cases hsame : other = identity
      · rw [hsame]
        exact exists_enqueueRow s.rows identity error
      · have hqueued : other ∈ s.queued := by
          rcases List.mem_append.mp hother with h | h
          · exact h
          · exact absurd (List.mem_singleton.mp h) hsame
        obtain ⟨row, hrow, rfl⟩ := hs.kept other hqueued huntried
        have hname : row.name ≠ identity.name := by
          intro hname
          rcases hseparate row hrow hname with h | h
          · exact hsame h
          · exact huntried h
        exact ⟨row, (mem_enqueueRow_iff hname).mpr hrow, rfl⟩
    · intro row hrow
      rcases mem_enqueueRow hrow with h | h
      · rw [h]
        exact List.mem_append_right _ List.mem_cons_self
      · exact List.mem_append_left _ (hs.listed row h)

theorem NoneLost.clear (hs : s.NoneLost) (ok : Bool) : (s.step (.clearRuntimeHandleIfMatches ok)).NoneLost := by
  simp only [step]
  split
  · rename_i cleanup pending _ _
    have hkept : ∀ identity ∈ s.queued, identity ∉ s.attempted ++ [cleanup.identity] →
        ∃ row ∈ s.rows, row.identity = identity := fun identity hqueued huntried =>
      hs.kept identity hqueued fun h => huntried (List.mem_append_left _ h)
    split
    · refine { kept := hkept, own := hs.own, listed := hs.listed, tried := ?_ }
      intro other hother
      cases hother
      exact List.mem_append_right _ List.mem_cons_self
    · exact ⟨hkept, hs.own, hs.listed, fun other hother =>
        List.mem_append_left _ (hs.tried other hother)⟩
  · exact hs

/-- A completion removes the rows of the name. -/
theorem NoneLost.complete (hs : s.NoneLost) (ok : Bool) :
    (s.step (.completeRuntimeHandleCleanup ok)).NoneLost ↔
      s.Separate (.completeRuntimeHandleCleanup ok) := by
  simp only [step, Separate]
  cases hcleared : s.cleared with
  | none => exact iff_of_true hs fun _ cleanup h => by cases h
  | some cleanup =>
    cases ok with
    | false =>
      exact iff_of_true ⟨hs.kept, hs.own, hs.listed, fun _ h => by cases h⟩ fun h => by cases h
    | true =>
      have hown : (s.rows.any fun row =>
          row.name = cleanup.name && row.identity ≠ cleanup.identity) = false ↔
            ∀ row ∈ s.rows, row.name = cleanup.name → row.identity = cleanup.identity := by
        simp
      constructor
      · intro ht _ other hother
        cases hother
        have hremoved : (s.removedOther || s.rows.any fun row =>
          row.name = cleanup.name && row.identity ≠ cleanup.identity) = false := ht.own
        exact hown.mp (Bool.or_eq_false_iff.mp hremoved).2
      · intro hseparate
        have hsame := hseparate rfl cleanup rfl
        refine ⟨?_, ?_, ?_, fun _ h => by cases h⟩
        · intro identity hqueued huntried
          obtain ⟨row, hrow, rfl⟩ := hs.kept identity hqueued huntried
          have hname : row.name ≠ cleanup.name := by
            intro hname
            rw [hsame row hrow hname] at huntried
            exact huntried (hs.tried cleanup hcleared)
          exact ⟨row, List.mem_filter.mpr ⟨hrow, decide_eq_true hname⟩, rfl⟩
        · exact Bool.or_eq_false_iff.mpr ⟨hs.own, hown.mpr hsame⟩
        · exact fun row hrow => hs.listed row (List.mem_filter.mp hrow).1

theorem NoneLost.step_iff (hs : s.NoneLost) (e : HandleEvent) : (s.step e).NoneLost ↔ s.Separate e := by
  cases e with
  | setRuntimeHandle identity => exact iff_of_true { hs with } trivial
  | enqueueRuntimeHandleCleanup identity error => exact hs.enqueue identity error
  | pendingRuntimeHandleCleanup =>
    refine iff_of_true ?_ trivial
    simp only [step]
    split
    · exact { hs with }
    · exact hs
  | clearRuntimeHandleIfMatches ok => exact iff_of_true (hs.clear ok) trivial
  | completeRuntimeHandleCleanup ok => exact hs.complete ok
  | crash => exact iff_of_true { hs with tried := fun _ h => by cases h } trivial

def run (es : List HandleEvent) : HandleQueue := es.foldl step {}

/-- No cleanup is lost in any state of a run exactly if the identities of a name are kept separate
by every step of the run. -/
theorem noneLost_iff (es : List HandleEvent) :
    (∀ before, before <+: es → (run before).NoneLost) ↔
      ∀ before e, before ++ [e] <+: es → (run before).Separate e := by
  have hstart : NoneLost {} :=
    ⟨fun _ h => absurd h List.not_mem_nil, rfl, fun _ h => absurd h List.not_mem_nil,
      fun _ h => by cases h⟩
  exact PrefixRuns.holds_iff (f := step) (I := NoneLost) (fun _ e hs => hs.step_iff e) hstart es

end HandleQueue

def worker (processId : Uuid) : HandleIdentity := ⟨"worker", processId, none⟩

/-- While the cleanup of the first process is tried and completed, the one of the second process
of the name is queued. -/
theorem completion_removes_other : ¬(HandleQueue.run
    [.enqueueRuntimeHandleCleanup (worker 1) "locked", .pendingRuntimeHandleCleanup,
      .clearRuntimeHandleIfMatches true, .enqueueRuntimeHandleCleanup (worker 2) "locked",
      .completeRuntimeHandleCleanup true]).NoneLost := by
  intro h
  have hqueued : worker 2 ∈ (HandleQueue.run
      [.enqueueRuntimeHandleCleanup (worker 1) "locked", .pendingRuntimeHandleCleanup,
        .clearRuntimeHandleIfMatches true, .enqueueRuntimeHandleCleanup (worker 2) "locked",
        .completeRuntimeHandleCleanup true]).queued := by decide +kernel
  obtain ⟨row, hrow, -⟩ := h.kept (worker 2) hqueued (by decide +kernel)
  revert hrow
  exact List.not_mem_nil

end Supervisor
