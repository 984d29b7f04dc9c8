import Mathlib.Tactic.Common

universe u

section Statements

variable {ε α β : Type u}

theorem Except.bind_ok {x : Except ε α} {f : α → Except ε β} {b : β} (h : x >>= f = .ok b) :
    ∃ a, x = .ok a ∧ f a = .ok b := by
  cases x with
  | error e => cases h
  | ok a => exact ⟨a, rfl, h⟩

end Statements

/-- An open transaction: what the database holds, and what the statements run
so far have made of it. -/
structure Transaction (σ : Type u) where
  committed : σ
  working : σ

namespace Transaction

variable {σ α : Type*}

def start (db : σ) : Transaction σ := ⟨db, db⟩

/-- A statement reads and changes the working copy and answers, as `UPDATE`
does, with the number of rows it changed. -/
def execute (tx : Transaction σ) (statement : σ → α × σ) : α × Transaction σ :=
  ((statement tx.working).1, { tx with working := (statement tx.working).2 })

def commit (tx : Transaction σ) : σ := tx.working

/-- A transaction dropped without a commit is rolled back. -/
def rollback (tx : Transaction σ) : σ := tx.committed

@[simp] theorem execute_fst (tx : Transaction σ) (statement : σ → α × σ) :
    (tx.execute statement).1 = (statement tx.commit).1 := rfl

end Transaction
