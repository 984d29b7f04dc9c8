import Mathlib.Logic.Relation

universe u v w

/-- A machine: which event may happen in which state, and the state it leads to. -/
structure Machine (σ : Type u) (ε : Type v) where
  step : σ → ε → Option σ

namespace Machine

variable {σ : Type u} {ε : Type v} (M : Machine σ ε)

/-- Execute events one after another; `none` when one of them is not enabled
or does not meet the guard. -/
def execUnder (C : σ → ε → Prop) [∀ s e, Decidable (C s e)] : σ → List ε → Option σ
  | s, [] => some s
  | s, e :: es => if C s e then (M.step s e).bind fun t => execUnder C t es else none

/-- Execute events one after another; `none` when one of them is not enabled. -/
def exec (s : σ) (es : List ε) : Option σ := M.execUnder (fun _ _ => True) s es

/-- The states a run from `s` reaches when every event it takes meets `C` in
the state the event is taken from. -/
inductive Run (C : σ → ε → Prop) (s : σ) : σ → Prop
  | refl : Run C s s
  | tail {t u : σ} (e : ε) : Run C s t → C t e → M.step t e = some u → Run C s u

/-- The states reached by unrestricted runs. -/
abbrev Reaches (s t : σ) : Prop := M.Run (fun _ _ => True) s t

variable {M}

theorem Run.mono {C D : σ → ε → Prop} (hCD : ∀ s e, C s e → D s e) {s t : σ}
    (h : M.Run C s t) : M.Run D s t := by
  induction h with
  | refl => exact .refl
  | tail e _ hc hs ih => exact .tail e ih (hCD _ _ hc) hs

theorem Run.reaches {C : σ → ε → Prop} {s t : σ} (h : M.Run C s t) : M.Reaches s t :=
  h.mono fun _ _ _ => trivial

theorem Run.trans {C : σ → ε → Prop} {s t u : σ} (h : M.Run C s t) (h' : M.Run C t u) :
    M.Run C s u := by
  induction h' with
  | refl => exact h
  | tail e _ hc hs ih => exact .tail e ih hc hs

theorem Run.invariant {C : σ → ε → Prop} {I : σ → Prop} {s t : σ}
    (hkeep : ∀ t e u, I t → C t e → M.step t e = some u → I u)
    (h : M.Run C s t) (hs : I s) : I t := by
  induction h with
  | refl => exact hs
  | tail e _ hc hst ih => exact hkeep _ e _ ih hc hst

/-- Executing a list of events under a guard is a run under that guard. -/
theorem run_of_execUnder {C : σ → ε → Prop} [∀ s e, Decidable (C s e)] {s t : σ} (es : List ε)
    (h : M.execUnder C s es = some t) : M.Run C s t := by
  induction es generalizing s with
  | nil =>
    rw [execUnder, Option.some.injEq] at h
    exact h ▸ .refl
  | cons e es ih =>
    by_cases hc : C s e
    · rw [execUnder, if_pos hc] at h
      obtain ⟨u, hu, ht⟩ := Option.bind_eq_some_iff.mp h
      have hfirst : M.Run C s u := .tail e .refl hc hu
      exact hfirst.trans (ih ht)
    · rw [execUnder, if_neg hc] at h
      exact absurd h (by simp)

theorem exists_run_of_execUnder {C : σ → ε → Prop} [∀ s e, Decidable (C s e)] {s : σ}
    (p : σ → Bool) (es : List ε) (h : (M.execUnder C s es).any p = true) :
    ∃ t, M.Run C s t ∧ p t = true := by
  obtain ⟨t, ht, hp⟩ := (Option.any_eq_true p _).mp h
  exact ⟨t, run_of_execUnder es ht, hp⟩

theorem exists_reaches_of_exec {s : σ} (p : σ → Bool) (es : List ε)
    (h : (M.exec s es).any p = true) : ∃ t, M.Reaches s t ∧ p t = true :=
  exists_run_of_execUnder p es h

end Machine
