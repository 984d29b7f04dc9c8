import Mathlib.Order.Interval.Finset.Nat
universe u

/-! The values that a partial successor function visits, one after the other. -/
namespace FiringSequence

variable {α : Type u}

/-- The first `n` values after `a`; fewer when there is no further one. -/
def visits (next : α → Option α) : ℕ → α → List α
  | 0, _ => []
  | n + 1, a => match next a with
    | none => []
    | some b => b :: visits next n b

/-- A successor lies strictly above. -/
def Ascends [LT α] (next : α → Option α) : Prop := ∀ a b, next a = some b → a < b

variable {next : α → Option α}

theorem visits_take {m n : ℕ} (h : m ≤ n) (a : α) :
    (visits next n a).take m = visits next m a := by
  induction m generalizing n a with
  | zero => rfl
  | succ m ih =>
    obtain ⟨k, rfl⟩ : ∃ k, n = k + 1 := ⟨n - 1, by omega⟩
    rw [visits, visits]
    split
    · rfl
    · rename_i b _
      rw [List.take_succ_cons, ih (by omega) b]

/-- The values after a visited one are visited as well. -/
theorem mem_visits_of_mem {m n : ℕ} {a b c : α} (hb : b ∈ visits next m a)
    (hc : c ∈ visits next n b) : c ∈ visits next (m + n) a := by
  induction m generalizing a with
  | zero => exact absurd hb List.not_mem_nil
  | succ m ih =>
    rw [Nat.succ_add, visits]
    rw [visits] at hb
    split
    · rename_i hnone
      rw [hnone] at hb
      exact absurd hb List.not_mem_nil
    · rename_i d hd
      rw [hd] at hb
      rcases List.mem_cons.mp hb with rfl | hb
      · have hle : n ≤ m + n := by omega
        have htake := @visits_take _ next _ _ hle b
        rw [← htake] at hc
        exact List.mem_cons_of_mem _ (List.mem_of_mem_take hc)
      · exact List.mem_cons_of_mem _ (ih hb)

section Order

variable [LinearOrder α]

theorem visits_sorted (h : Ascends next) (n : ℕ) (a : α) :
    (a :: visits next n a).Pairwise (· < ·) := by
  induction n generalizing a with
  | zero => exact List.pairwise_singleton _ _
  | succ n ih =>
    rw [visits]
    split
    · exact List.pairwise_singleton _ _
    · rename_i b hb
      have hrest := ih b
      have hab : a < b := h a b hb
      refine List.pairwise_cons.mpr ⟨?_, hrest⟩
      intro c hc
      rcases List.mem_cons.mp hc with rfl | hc
      · exact hab
      · exact hab.trans ((List.pairwise_cons.mp hrest).1 c hc)

theorem lt_of_mem_visits (h : Ascends next) {n : ℕ} {a b : α} (hb : b ∈ visits next n a) : a < b :=
  (List.pairwise_cons.mp (visits_sorted h n a)).1 b hb

/-- Below a bound, the first `k` values of an ascending list are the first `k` of those
below the bound. -/
theorem filter_le_take {l : List α} (hl : l.Pairwise (· < ·)) (bound : α) (k : ℕ) :
    (l.take k).filter (· ≤ bound) = (l.filter (· ≤ bound)).take k := by
  induction l generalizing k with
  | nil => simp
  | cons a l ih =>
    have hrest := List.pairwise_cons.mp hl
    cases k with
    | zero => rfl
    | succ k =>
      by_cases ha : a ≤ bound
      · rw [List.take_succ_cons, List.filter_cons_of_pos (by simpa using ha),
          List.filter_cons_of_pos (by simpa using ha), List.take_succ_cons, ih hrest.2 k]
      · -- the values behind the first one above the bound are above it as well
        have hnone (l' : List α) (hsub : ∀ b ∈ l', b ∈ l) : l'.filter (· ≤ bound) = [] := by
          apply List.filter_eq_nil_iff.mpr
          intro b hb
          have hab := hrest.1 b (hsub b hb)
          simpa using (not_le.mp ha).trans hab
        rw [List.take_succ_cons, List.filter_cons_of_neg (by simpa using ha),
          List.filter_cons_of_neg (by simpa using ha), hnone _ fun b hb => List.mem_of_mem_take hb,
          hnone l fun b hb => hb]
        rfl

/-- An ascending list is what lies below a threshold, followed by the rest. -/
theorem filter_lt_append_filter_ge {l : List α} (hl : l.Pairwise (· < ·)) (threshold : α) :
    l.filter (· < threshold) ++ l.filter (threshold ≤ ·) = l := by
  induction l with
  | nil => rfl
  | cons a l ih =>
    have hcons := List.pairwise_cons.mp hl
    by_cases ha : a < threshold
    · rw [List.filter_cons_of_pos (by simpa using ha),
        List.filter_cons_of_neg (by simpa using ha), List.cons_append, ih hcons.2]
    · -- everything behind `a` is above the threshold too
      have hle : threshold ≤ a := not_lt.mp ha
      have hall : ∀ b ∈ a :: l, threshold ≤ b := by
        intro b hb
        rcases List.mem_cons.mp hb with rfl | hb
        · exact hle
        · exact hle.trans (le_of_lt (hcons.1 b hb))
      have hnone : (a :: l).filter (· < threshold) = [] := by
        apply List.filter_eq_nil_iff.mpr
        intro b hb
        simpa using hall b hb
      have hsame : (a :: l).filter (threshold ≤ ·) = a :: l := by
        apply List.filter_eq_self.mpr
        intro b hb
        simpa using hall b hb
      rw [hnone, hsame, List.nil_append]

/-- Of the first `k` values of an ascending list, those from a threshold on. -/
theorem filter_ge_take {l : List α} (hl : l.Pairwise (· < ·)) (threshold : α) (k : ℕ) :
    (l.take k).filter (threshold ≤ ·) =
      (l.filter (threshold ≤ ·)).take (k - (l.filter (· < threshold)).length) := by
  have hbelow : (l.filter (· < threshold)).filter (threshold ≤ ·) = [] := by
    apply List.filter_eq_nil_iff.mpr
    intro b hb
    simpa using (List.mem_filter.mp hb).2
  have hfrom (n : ℕ) : ((l.filter (threshold ≤ ·)).take n).filter (threshold ≤ ·) =
      (l.filter (threshold ≤ ·)).take n := by
    apply List.filter_eq_self.mpr
    intro b hb
    exact (List.mem_filter.mp (List.mem_of_mem_take hb)).2
  have hnone : ((l.filter (· < threshold)).take k).filter (threshold ≤ ·) = [] := by
    apply List.filter_eq_nil_iff.mpr
    intro b hb
    exact List.filter_eq_nil_iff.mp hbelow b (List.mem_of_mem_take hb)
  calc (l.take k).filter (threshold ≤ ·)
      = ((l.filter (· < threshold) ++ l.filter (threshold ≤ ·)).take k).filter (threshold ≤ ·) := by
        rw [filter_lt_append_filter_ge hl]
    _ = (l.filter (threshold ≤ ·)).take (k - (l.filter (· < threshold)).length) := by
        rw [List.take_append, List.filter_append, hnone, hfrom, List.nil_append]

/-- Cutting an ascending list to its first `k` values before it is cut to those from a
threshold `upper` on, instead of after it is cut to those from `lower` on, gives the same
values exactly when there is nothing to lose, or both thresholds select the same values and
the first cut reaches all of them. -/
theorem filter_ge_take_eq_iff {l : List α} (hl : l.Pairwise (· < ·)) {lower upper : α}
    (hle : lower ≤ upper) {k : ℕ} (hk : k ≠ 0) :
    (l.take k).filter (upper ≤ ·) = (l.filter (lower ≤ ·)).take k ↔
      l.filter (lower ≤ ·) = [] ∨
        (l.filter (upper ≤ ·) = l.filter (lower ≤ ·) ∧
          (l.filter (lower ≤ ·) = l ∨ l.length ≤ k)) := by
  have hparts := filter_lt_append_filter_ge hl lower
  have hlengths : (l.filter (· < lower)).length + (l.filter (lower ≤ ·)).length = l.length := by
    rw [← List.length_append, hparts]
  constructor
  · intro heq
    by_cases hnil : l.filter (lower ≤ ·) = []
    · exact .inl hnil
    refine .inr ?_
    obtain ⟨first, rest, hfirst⟩ := List.exists_cons_of_ne_nil hnil
    obtain ⟨n, rfl⟩ := Nat.exists_eq_succ_of_ne_zero hk
    -- the oldest value from `lower` on passes the upper threshold as well
    have hupper : upper ≤ first := by
      have hmem : first ∈ (l.take (n + 1)).filter (upper ≤ ·) := by
        rw [heq, hfirst, List.take_succ_cons]
        exact List.mem_cons_self
      simpa using (List.mem_filter.mp hmem).2
    have hsorted : (l.filter (lower ≤ ·)).Pairwise (· < ·) := hl.sublist List.filter_sublist
    have hfrom : ∀ b ∈ l, lower ≤ b → upper ≤ b := by
      intro b hb hlow
      have hmem : b ∈ first :: rest := by
        rw [← hfirst]
        exact List.mem_filter.mpr ⟨hb, by simpa using hlow⟩
      rcases List.mem_cons.mp hmem with rfl | hmem
      · exact hupper
      · rw [hfirst] at hsorted
        exact hupper.trans (le_of_lt ((List.pairwise_cons.mp hsorted).1 b hmem))
    have hsame (m : List α) (hm : ∀ b ∈ m, b ∈ l) :
        m.filter (upper ≤ ·) = m.filter (lower ≤ ·) := by
      apply List.filter_congr
      intro b hb
      apply decide_eq_decide.mpr
      exact ⟨hle.trans, hfrom b (hm b hb)⟩
    refine ⟨hsame l fun b hb => hb, ?_⟩
    by_cases hbelow : l.filter (· < lower) = []
    · left
      rw [hbelow, List.nil_append] at hparts
      exact hparts
    · right
      rw [hsame _ fun b hb => List.mem_of_mem_take hb, filter_ge_take hl] at heq
      have hlen := congrArg List.length heq
      rw [List.length_take, List.length_take] at hlen
      have hpos : 0 < (l.filter (· < lower)).length := List.length_pos_of_ne_nil hbelow
      have hpos' : 0 < (l.filter (lower ≤ ·)).length := List.length_pos_of_ne_nil hnil
      omega
  · rintro (hnil | ⟨hsame, hall⟩)
    · rw [hnil, List.take_nil]
      apply List.filter_eq_nil_iff.mpr
      intro b hb
      have hb' := List.filter_eq_nil_iff.mp hnil b (List.mem_of_mem_take hb)
      simp only [decide_eq_true_eq] at hb' ⊢
      exact fun hup => hb' (hle.trans hup)
    · have hiff : ∀ b ∈ l.take k, decide (upper ≤ b) = decide (lower ≤ b) := by
        intro b hb
        apply decide_eq_decide.mpr
        refine ⟨hle.trans, fun hlow => ?_⟩
        have hmem : b ∈ l.filter (upper ≤ ·) := by
          rw [hsame]
          exact List.mem_filter.mpr ⟨List.mem_of_mem_take hb, by simpa using hlow⟩
        simpa using (List.mem_filter.mp hmem).2
      rw [List.filter_congr hiff, filter_ge_take hl]
      rcases hall with hall | hshort
      · -- nothing lies below the threshold
        have hnone : (l.filter (· < lower)).length = 0 := by
          have := congrArg List.length hall
          omega
        rw [hnone, Nat.sub_zero]
      · have hcut : (l.filter (lower ≤ ·)).length ≤ k - (l.filter (· < lower)).length := by omega
        rw [List.take_of_length_le hcut, List.take_of_length_le (by omega)]

end Order

section Integers

variable {next : ℤ → Option ℤ}

theorem length_le_of_sorted {l : List ℤ} {a bound : ℤ} (hl : (a :: l).Pairwise (· < ·))
    (hbound : ∀ b ∈ l, b ≤ bound) : l.length ≤ (bound - a).toNat := by
  induction l generalizing a with
  | nil => exact Nat.zero_le _
  | cons b l ih =>
    have hcons := List.pairwise_cons.mp hl
    have hab : a < b := hcons.1 b List.mem_cons_self
    have hb : b ≤ bound := hbound b List.mem_cons_self
    have hrest := ih hcons.2 fun c hc => hbound c (List.mem_cons_of_mem _ hc)
    rw [List.length_cons]
    omega

/-- The values after `a` that do not exceed a bound, in order. -/
def upTo (next : ℤ → Option ℤ) (bound a : ℤ) : List ℤ :=
  (visits next (bound - a).toNat a).filter (· ≤ bound)

/-- The first `k` values, as far as they do not exceed the bound. -/
theorem visits_filter_le (h : Ascends next) (bound a : ℤ) (k : ℕ) :
    (visits next k a).filter (· ≤ bound) = (upTo next bound a).take k := by
  have hsorted (n : ℕ) : (visits next n a).Pairwise (· < ·) :=
    (List.pairwise_cons.mp (visits_sorted h n a)).2
  unfold upTo
  by_cases hk : k ≤ (bound - a).toNat
  · rw [← visits_take hk a, filter_le_take (hsorted _)]
  · -- no more than `bound - a` values fit below the bound
    have hfit : ((visits next k a).filter (· ≤ bound)).length ≤ (bound - a).toNat := by
      apply length_le_of_sorted
      · have hsub : (a :: (visits next k a).filter (· ≤ bound)).Sublist (a :: visits next k a) :=
          List.filter_sublist.cons_cons a
        exact (visits_sorted h k a).sublist hsub
      · intro b hb
        simpa using (List.mem_filter.mp hb).2
    have hle : (bound - a).toNat ≤ k := by omega
    rw [← visits_take hle a, filter_le_take (hsorted _), List.take_of_length_le hfit,
      List.take_of_length_le (hfit.trans hle)]

theorem upTo_eq_filter (h : Ascends next) {bound a : ℤ} {k : ℕ}
    (hk : ((visits next k a).filter (· ≤ bound)).length < k) :
    upTo next bound a = (visits next k a).filter (· ≤ bound) := by
  rw [visits_filter_le h, List.length_take] at hk
  have hshort : (upTo next bound a).length ≤ k := by omega
  rw [visits_filter_le h, List.take_of_length_le hshort]

theorem mem_upTo_iff (h : Ascends next) {bound a b : ℤ} :
    b ∈ upTo next bound a ↔ (∃ n, b ∈ visits next n a) ∧ b ≤ bound := by
  constructor
  · intro hb
    have hmem := List.mem_filter.mp hb
    exact ⟨⟨_, hmem.1⟩, by simpa using hmem.2⟩
  · rintro ⟨⟨n, hn⟩, hle⟩
    have hfilter : b ∈ (visits next n a).filter (· ≤ bound) :=
      List.mem_filter.mpr ⟨hn, by simpa using hle⟩
    rw [visits_filter_le h] at hfilter
    exact List.mem_of_mem_take hfilter

theorem upTo_sorted (h : Ascends next) (bound a : ℤ) : (upTo next bound a).Pairwise (· < ·) :=
  ((List.pairwise_cons.mp (visits_sorted h _ a)).2).sublist List.filter_sublist

theorem le_of_getLast? {l : List ℤ} (hl : l.Pairwise (· < ·)) {last b : ℤ}
    (hlast : l.getLast? = some last) (hb : b ∈ l) : b ≤ last := by
  obtain ⟨init, rfl⟩ := List.getLast?_eq_some_iff.mp hlast
  rcases List.mem_append.mp hb with hb | hb
  · have hlt := (List.pairwise_append.mp hl).2.2 b hb last (List.mem_singleton_self last)
    omega
  · have heq : b = last := List.mem_singleton.mp hb
    omega

/-- Behind the last value that does not exceed the bound comes one that does, or none. -/
theorem lt_next_of_getLast? (h : Ascends next) {bound a last b : ℤ}
    (hlast : (upTo next bound a).getLast? = some last) (hb : next last = some b) : bound < b := by
  have hmem : last ∈ upTo next bound a := List.mem_of_getLast? hlast
  obtain ⟨⟨n, hn⟩, -⟩ := (mem_upTo_iff h).mp hmem
  have hstep : b ∈ visits next 1 last := by
    rw [visits, hb]
    exact List.mem_cons_self
  by_contra hle
  have hvisited : b ∈ upTo next bound a :=
    (mem_upTo_iff h).mpr ⟨⟨n + 1, mem_visits_of_mem hn hstep⟩, by omega⟩
  have hbelow := le_of_getLast? (upTo_sorted h bound a) hlast hvisited
  have habove := h last b hb
  omega

/-- The first value after `a` is the least that is visited from there. -/
theorem exists_first (h : Ascends next) {n : ℕ} {a c : ℤ} (hc : c ∈ visits next n a) :
    ∃ b, next a = some b ∧ b ≤ c := by
  cases n with
  | zero => exact absurd hc List.not_mem_nil
  | succ n =>
    rw [visits] at hc
    split at hc
    · exact absurd hc List.not_mem_nil
    · rename_i b hb
      refine ⟨b, hb, ?_⟩
      rcases List.mem_cons.mp hc with rfl | hc
      · exact le_rfl
      · exact le_of_lt (lt_of_mem_visits h hc)

end Integers

end FiringSequence
