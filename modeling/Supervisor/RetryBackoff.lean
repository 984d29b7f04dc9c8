import Mathlib.Tactic.Ring
import Supervisor.JobStore

namespace Supervisor

namespace RetryPolicy

/-- `delay` in `finalize_schedule_attempt`: the back-off after an attempt, in seconds. -/
def backoff (policy : RetryPolicy) (attempt : U16) : ℕ :=
  min (Store.satMul (Duration.asSecs policy.initialBackoff)
    (Store.satPow (max policy.multiplier.val 1) (attempt.val - 1)))
    (Duration.asSecs policy.maxBackoff)

/-- `jitter`, for a back-off -/
def jitter (policy : RetryPolicy) (delay : ℕ) : ℕ :=
  Store.satMul delay (min policy.jitterPercent.val 100) / 100

/-- The longest time until the next attempt -/
def longestDelay (policy : RetryPolicy) (attempt : U16) : ℕ :=
  Store.satAdd (policy.backoff attempt) (policy.jitter (policy.backoff attempt))

variable {policy : RetryPolicy} {attempt attempt' : U16} {runId : JobRunId} {delay delay' : ℕ}

section Saturation

variable {a a' b b' : ℕ}

theorem satMul_mono (ha : a ≤ a') (hb : b ≤ b') : Store.satMul a b ≤ Store.satMul a' b' :=
  min_le_min_right _ (Nat.mul_le_mul ha hb)

theorem satPow_mono (h : 1 ≤ a) (hb : b ≤ b') : Store.satPow a b ≤ Store.satPow a b' :=
  min_le_min_right _ (Nat.pow_le_pow_right h hb)

end Saturation

section Jitter

theorem jitter_mul_le : policy.jitter delay * 100 ≤ delay * min policy.jitterPercent.val 100 := by
  calc policy.jitter delay * 100
      ≤ Store.satMul delay (min policy.jitterPercent.val 100) := Nat.div_mul_le_self _ _
    _ ≤ delay * min policy.jitterPercent.val 100 := min_le_left _ _

theorem jitter_le : policy.jitter delay ≤ delay := by
  have hmul := @jitter_mul_le policy delay
  have hpercent : delay * min policy.jitterPercent.val 100 ≤ delay * 100 :=
    Nat.mul_le_mul_left delay (min_le_right _ _)
  omega

theorem jitter_mono (h : delay ≤ delay') : policy.jitter delay ≤ policy.jitter delay' :=
  Nat.div_le_div_right (satMul_mono h le_rfl)

theorem jitter_width : 2 * policy.jitter delay + 1 < 2^64 := by
  have hsat : Store.satMul delay (min policy.jitterPercent.val 100) ≤ 2^64 - 1 := min_le_right _ _
  have hjitter : policy.jitter delay ≤ (2^64 - 1) / 100 := Nat.div_le_div_right hsat
  omega

end Jitter

theorem backoff_mono (h : attempt ≤ attempt') : policy.backoff attempt ≤ policy.backoff attempt' := by
  have hexponent : attempt.val - 1 ≤ attempt'.val - 1 := Nat.sub_le_sub_right h 1
  exact min_le_min_right _ (satMul_mono le_rfl (satPow_mono (le_max_right _ 1) hexponent))

theorem longestDelay_mono (h : attempt ≤ attempt') :
    policy.longestDelay attempt ≤ policy.longestDelay attempt' := by
  have hdelay := @backoff_mono policy _ _ h
  exact min_le_min_right _ (Nat.add_le_add hdelay (jitter_mono hdelay))

/-- The delay lies in the jitter interval around the back-off, at a place that the run id gives. -/
theorem retryDelay_eq : Store.retryDelay policy attempt runId =
    Store.satAdd (policy.backoff attempt - policy.jitter (policy.backoff attempt))
      (runId.val % 2^64 % (2 * policy.jitter (policy.backoff attempt) + 1)) := by
  have hwidth := @jitter_width policy (policy.backoff attempt)
  have hsat : Store.satAdd (Store.satMul (policy.jitter (policy.backoff attempt)) 2) 1 =
      2 * policy.jitter (policy.backoff attempt) + 1 := by
    unfold Store.satAdd Store.satMul
    omega
  show Store.satAdd (policy.backoff attempt - policy.jitter (policy.backoff attempt))
    (if Store.satAdd (Store.satMul (policy.jitter (policy.backoff attempt)) 2) 1 = 0 then 0
      else runId.val % 2^64 %
        Store.satAdd (Store.satMul (policy.jitter (policy.backoff attempt)) 2) 1) = _
  rw [hsat, if_neg (Nat.succ_ne_zero _)]

theorem retryDelay_le : Store.retryDelay policy attempt runId ≤ policy.longestDelay attempt := by
  rw [retryDelay_eq]
  apply min_le_min_right
  have hoffset := Nat.mod_lt (runId.val % 2^64)
    (Nat.succ_pos (2 * policy.jitter (policy.backoff attempt)))
  have hjitter := @jitter_le policy (policy.backoff attempt)
  simp only [Nat.succ_eq_add_one] at hoffset
  omega

/-- Some run id gives the longest delay. -/
theorem exists_retryDelay_eq_longest (policy : RetryPolicy) (attempt : U16) :
    ∃ runId : JobRunId, runId.val < 2^128 ∧
      Store.retryDelay policy attempt runId = policy.longestDelay attempt := by
  have hwidth := @jitter_width policy (policy.backoff attempt)
  have hjitter := @jitter_le policy (policy.backoff attempt)
  have hword : 2 * policy.jitter (policy.backoff attempt) % 2^64 =
      2 * policy.jitter (policy.backoff attempt) := Nat.mod_eq_of_lt (by omega)
  refine ⟨⟨2 * policy.jitter (policy.backoff attempt)⟩, ?_, ?_⟩
  · show 2 * policy.jitter (policy.backoff attempt) < 2^128
    omega
  rw [retryDelay_eq, hword, Nat.mod_eq_of_lt (Nat.lt_succ_self _)]
  unfold longestDelay Store.satAdd
  congr 1
  omega

end RetryPolicy

end Supervisor
