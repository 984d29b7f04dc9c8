import Mathlib.Data.List.Basic

universe u v w

/-- A machine that answers: which act may happen in which state, the state it leads to and what
it answers. -/
structure Transducer (σ : Type u) (ε : Type v) (ω : Type w) where
  step : σ → ε → Option (σ × List ω)

namespace Transducer

variable {σ : Type u} {ε : Type v} {ω : Type w} (M : Transducer σ ε ω)

/-- Take acts one after another; `none` when one of them is not enabled. -/
def run : σ → List ε → Option (σ × List ω)
  | s, [] => some (s, [])
  | s, a :: acts => (M.step s a).bind fun (t, answers) =>
      (run t acts).map fun (u, rest) => (u, answers ++ rest)

variable {M} {s t : σ} {a : ε} {acts more : List ε} {answers : List ω}

theorem run_cons (h : M.run s (a :: acts) = some (t, answers)) :
    ∃ u first rest, M.step s a = some (u, first) ∧ M.run u acts = some (t, rest) ∧
      answers = first ++ rest := by
  unfold run at h
  obtain ⟨⟨u, first⟩, hstep, hrest⟩ := Option.bind_eq_some_iff.mp h
  obtain ⟨⟨v, rest⟩, hrun, heq⟩ := Option.map_eq_some_iff.mp hrest
  obtain ⟨rfl, rfl⟩ := Prod.mk.inj heq
  exact ⟨u, first, rest, hstep, hrun, rfl⟩

theorem run_append (h : M.run s (acts ++ more) = some (t, answers)) :
    ∃ u first rest, M.run s acts = some (u, first) ∧ M.run u more = some (t, rest) ∧
      answers = first ++ rest := by
  induction acts generalizing s answers with
  | nil => exact ⟨s, [], answers, rfl, h, rfl⟩
  | cons a acts ih =>
    obtain ⟨u, first, rest, hstep, hrun, rfl⟩ := run_cons h
    obtain ⟨v, second, last, hacts, hmore, rfl⟩ := ih hrun
    refine ⟨v, first ++ second, last, ?_, hmore, (List.append_assoc _ _ _).symm⟩
    unfold run
    rw [hstep, Option.bind_some]
    dsimp only
    rw [hacts]
    rfl

/-- What every step keeps, and says of its answers, holds of a run. -/
theorem run_invariant {I : σ → Prop} {P : ω → Prop}
    (hstep : ∀ s a t answers, I s → M.step s a = some (t, answers) →
      I t ∧ ∀ o ∈ answers, P o)
    (h : M.run s acts = some (t, answers)) (hs : I s) : I t ∧ ∀ o ∈ answers, P o := by
  induction acts generalizing s answers with
  | nil =>
    obtain ⟨rfl, rfl⟩ := Prod.mk.inj (Option.some.inj h)
    exact ⟨hs, fun o ho => absurd ho List.not_mem_nil⟩
  | cons a acts ih =>
    obtain ⟨u, first, rest, hfirst, hrun, rfl⟩ := run_cons h
    obtain ⟨hu, hanswers⟩ := hstep s a u first hs hfirst
    obtain ⟨ht, hrest⟩ := ih hrun hu
    refine ⟨ht, fun o ho => ?_⟩
    rcases List.mem_append.mp ho with ho | ho
    · exact hanswers o ho
    · exact hrest o ho

end Transducer
