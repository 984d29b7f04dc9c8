import Mathlib.Data.List.Induction

/-! The elements at the end of a list that pass a test. -/
namespace Streak

variable {α : Type*} {p : α → Bool} {xs : List α} {n : ℕ}

/-- How many elements at the end pass the test, up to the last one that does not. -/
def streak (p : α → Bool) (xs : List α) : ℕ := (xs.reverse.takeWhile p).length

/-- There are `n` last elements, and they pass the test. -/
def LastAll (n : ℕ) (p : α → Bool) (xs : List α) : Prop :=
  ∃ start last, xs = start ++ last ∧ last.length = n ∧ ∀ x ∈ last, p x = true

theorem streak_nil : streak p [] = 0 := rfl

theorem streak_concat (x : α) :
    streak p (xs ++ [x]) = if p x then streak p xs + 1 else 0 := by
  unfold streak
  rw [List.reverse_append, List.reverse_singleton, List.singleton_append, List.takeWhile_cons]
  split
  · rw [List.length_cons]
  · rfl

theorem lastAll_iff : LastAll n p xs ↔ n ≤ streak p xs := by
  induction xs using List.reverseRecOn generalizing n with
  | nil =>
    rw [streak_nil, Nat.le_zero]
    constructor
    · rintro ⟨start, last, happend, hlength, -⟩
      rw [← hlength, (List.append_eq_nil_iff.mp happend.symm).2]
      rfl
    · rintro rfl
      exact ⟨[], [], rfl, rfl, fun x hx => absurd hx List.not_mem_nil⟩
  | append_singleton xs x ih =>
    rw [streak_concat]
    cases n with
    | zero =>
      constructor
      · intro _
        exact Nat.zero_le _
      · intro _
        exact ⟨xs ++ [x], [], (List.append_nil _).symm, rfl, fun x hx => absurd hx List.not_mem_nil⟩
    | succ n =>
      have hsplit : LastAll (n + 1) p (xs ++ [x]) ↔ p x = true ∧ LastAll n p xs := by
        constructor
        · rintro ⟨start, last, happend, hlength, hall⟩
          -- the last element belongs to the run
          rcases List.eq_nil_or_concat last with rfl | ⟨init, y, rfl⟩
          · exact absurd hlength (by simp)
          · rw [List.concat_eq_append] at happend hlength hall
            rw [← List.append_assoc] at happend
            obtain ⟨hxs, hx⟩ := List.append_inj' happend rfl
            obtain rfl := List.singleton_inj.mp hx
            refine ⟨hall x (by simp), start, init, hxs, by simpa using hlength, ?_⟩
            intro z hz
            exact hall z (List.mem_append_left _ hz)
        · rintro ⟨hx, start, init, rfl, hlength, hall⟩
          refine ⟨start, init ++ [x], List.append_assoc .., by simp [hlength], ?_⟩
          intro z hz
          rcases List.mem_append.mp hz with hz | hz
          · exact hall z hz
          · rw [List.mem_singleton.mp hz]
            exact hx
      rw [hsplit, ih]
      split
      · rename_i hx
        simp [hx]
      · rename_i hx
        simp [hx]

/-- Every element stands as it should after those before it. -/
def EachAfter (P : List α → α → Prop) (xs : List α) : Prop :=
  ∀ before x after, xs = before ++ x :: after → P before x

theorem EachAfter.nil {P : List α → α → Prop} : EachAfter P [] := by
  intro before x after h
  exact absurd h (by simp)

theorem EachAfter.concat {P : List α → α → Prop} {x : α} (h : EachAfter P xs) (hx : P xs x) :
    EachAfter P (xs ++ [x]) := by
  intro before y after happend
  rcases List.eq_nil_or_concat after with rfl | ⟨init, last, rfl⟩
  · obtain ⟨rfl, hlast⟩ := List.append_inj' happend rfl
    obtain rfl := List.singleton_inj.mp hlast
    exact hx
  · rw [List.concat_eq_append, ← List.cons_append, ← List.append_assoc] at happend
    obtain ⟨hinit, -⟩ := List.append_inj' happend rfl
    exact h before y init hinit

end Streak
