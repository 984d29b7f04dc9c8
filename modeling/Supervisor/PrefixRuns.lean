import Mathlib.Data.List.Basic
import Mathlib.Data.List.Induction

/-! Runs of a total step function, judged in all of their states. -/
namespace PrefixRuns

variable {σ ε : Type*} {f : σ → ε → σ} {I : σ → Prop} {C : σ → ε → Prop} {start : σ}

theorem invariant (hstep : ∀ s e, I s → I (f s e)) (hstart : I start) (es : List ε) :
    I (es.foldl f start) := by
  induction es using List.reverseRecOn with
  | nil => exact hstart
  | append_singleton es e ih =>
    rw [List.foldl_concat]
    exact hstep _ e ih

/-- A property that a step keeps exactly if it meets a condition holds in all states of a run
exactly if all steps of the run meet the condition. -/
theorem holds_iff (hstep : ∀ s e, I s → (I (f s e) ↔ C s e)) (hstart : I start) (es : List ε) :
    (∀ before, before <+: es → I (before.foldl f start)) ↔
      ∀ before e, before ++ [e] <+: es → C (before.foldl f start) e := by
  constructor
  · intro hall before e hbefore
    have hnext := hall _ hbefore
    rw [List.foldl_concat] at hnext
    exact (hstep _ e (hall before ((List.prefix_append _ _).trans hbefore))).mp hnext
  · intro hall before
    induction before using List.reverseRecOn with
    | nil => exact fun _ => hstart
    | append_singleton before e ih =>
      intro hbefore
      rw [List.foldl_concat]
      exact (hstep _ e (ih ((List.prefix_append _ _).trans hbefore))).mpr (hall before e hbefore)

end PrefixRuns
