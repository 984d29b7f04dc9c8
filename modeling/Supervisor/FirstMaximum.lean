import Mathlib.Data.List.MinMax
import Mathlib.Data.List.Sort

namespace List

variable {α β γ : Type*} [LinearOrder β]

/-- The first of the elements with the greatest key. -/
def firstMaximum (f : α → β) (l : List α) : Option α := l.argmax f

/-- Sorting the greatest keys to the front puts the first maximum at the head. -/
theorem head?_insertionSort_ge (f : α → β) (l : List α) :
    (l.insertionSort fun a b => f b ≤ f a).head? = l.firstMaximum f := by
  unfold firstMaximum
  induction l with
  | nil => rfl
  | cons a l ih =>
    rw [insertionSort_cons, argmax_cons, ← ih]
    cases l.insertionSort fun a b => f b ≤ f a with
    | nil => rfl
    | cons b rest =>
      by_cases hle : f b ≤ f a
      · rw [orderedInsert, if_pos hle]
        simp [not_lt.mpr hle]
      · rw [orderedInsert, if_neg hle]
        simp [not_le.mp hle]

end List
