import Mathlib.Data.List.Sort
import Supervisor.KeyedRows

namespace KeyedRows

variable {α κ : Type*}

section Insert

variable [DecidableEq κ] (key : α → κ)

/-- `HashMap::insert`, for rows that carry their key. -/
def insert (rows : List α) (row : α) : List α := rows.filter (fun r => key r ≠ key row) ++ [row]

variable {key} {k : κ} {rows xs : List α} {row r : α}

theorem mem_insert : r ∈ insert key rows row ↔ r ∈ rows ∧ key r ≠ key row ∨ r = row := by
  simp [insert]

theorem Unique.insert (hu : Unique key rows) : Unique key (KeyedRows.insert key rows row) := by
  apply (hu.filter _).append
  intro r hr
  simpa using (List.mem_filter.mp hr).2

theorem Unique.foldl_insert (hu : Unique key rows) (xs : List α) :
    Unique key (xs.foldl (KeyedRows.insert key) rows) := by
  induction xs generalizing rows with
  | nil => exact hu
  | cons x xs ih => exact ih hu.insert

theorem find_filter_key (p : κ → Bool) : find key k (rows.filter fun r => p (key r)) =
    if p k then find key k rows else none := by
  induction rows with
  | nil => simp [find]
  | cons r rows ih =>
    unfold find at ih ⊢
    rw [List.filter_cons, List.find?_cons]
    by_cases hk : key r = k
    · subst hk
      by_cases hp : p (key r) = true
      · simp [hp]
      · simpa [hp] using ih
    · by_cases hp : p (key r) = true
      · simpa [hk, hp] using ih
      · simpa [hk, hp] using ih

theorem mem_map_key : k ∈ rows.map key ↔ (find key k rows).isSome = true := by
  rw [List.mem_map]
  constructor
  · rintro ⟨r, hr, hk⟩
    cases h : find key k rows with
    | none => exact absurd hk (find_eq_none.mp h r hr)
    | some _ => rfl
  · intro h
    obtain ⟨r, hr⟩ := Option.isSome_iff_exists.mp h
    exact ⟨r, find_mem hr, find_key hr⟩

theorem find_append : find key k (rows ++ xs) = (find key k rows).or (find key k xs) :=
  List.find?_append

theorem find_singleton : find key k [row] = if key row = k then some row else none := by
  unfold find
  by_cases hk : key row = k <;> simp [hk]

theorem find_insert : find key k (insert key rows row) =
    if key row = k then some row else find key k rows := by
  rw [insert, find_append, find_filter_key (fun k => k ≠ key row), find_singleton]
  by_cases hk : key row = k
  · simp [hk]
  · simp [hk, Ne.symm hk]

theorem find_foldl_insert : find key k (xs.foldl (insert key) rows) =
    (find key k xs.reverse).or (find key k rows) := by
  induction xs generalizing rows with
  | nil => rfl
  | cons x xs ih =>
    rw [List.foldl_cons, ih, find_insert, List.reverse_cons]
    unfold find
    rw [List.find?_append]
    by_cases hx : key x = k
    · cases xs.reverse.find? fun r => key r = k <;> simp [hx]
    · cases xs.reverse.find? fun r => key r = k <;> simp [hx]

theorem find_update {n : κ} {f : α → α} (hf : ∀ r, key r = k → key (f r) = k) :
    find key n (update key k f rows) =
      if n = k then (find key n rows).map f else find key n rows := by
  induction rows with
  | nil => simp [find, update]
  | cons r rows ih =>
    unfold find update at ih ⊢
    rw [List.map_cons, List.find?_cons, List.find?_cons]
    by_cases hk : key r = k
    · rw [if_pos hk]
      by_cases hn : n = k
      · subst hn
        simp [hf r hk, hk]
      · have hother : ¬ key (f r) = n := fun h => hn (h.symm.trans (hf r hk))
        have hother' : ¬ key r = n := fun h => hn (h.symm.trans hk)
        simpa [hother, hother', hn] using ih
    · rw [if_neg hk]
      by_cases hr : key r = n
      · have hn : ¬ n = k := fun h => hk (hr.trans h)
        simp [hr, hn]
      · simpa [hr] using ih

end Insert

section Order

variable {key : α → κ} {rows xs : List α} {r : α}

theorem Unique.perm (hu : Unique key rows) (h : xs.Perm rows) : Unique key xs := by
  rw [Unique, (h.map key).nodup_iff]
  exact hu

theorem Unique.find_eq_some [DecidableEq κ] (hu : Unique key rows) {k : κ} :
    find key k rows = some r ↔ r ∈ rows ∧ key r = k := by
  constructor
  · exact fun h => ⟨find_mem h, find_key h⟩
  · rintro ⟨hr, rfl⟩
    exact hu.find_of_mem hr

theorem Unique.find_perm [DecidableEq κ] (hu : Unique key rows) (h : xs.Perm rows) (k : κ) :
    find key k xs = find key k rows := by
  apply Option.ext
  intro r
  rw [hu.find_eq_some, (hu.perm h).find_eq_some, h.mem_iff]

/-- The same rows under every key, in the same order of the keys. -/
theorem eq_of_find [DecidableEq κ] {le : κ → κ → Prop} (hle : ∀ a b, le a b → le b a → a = b)
    (hu : Unique key rows) (hu' : Unique key xs) (hs : rows.Pairwise fun a b => le (key a) (key b))
    (hs' : xs.Pairwise fun a b => le (key a) (key b))
    (h : ∀ k, find key k rows = find key k xs) : rows = xs := by
  have hmem (r : α) : r ∈ rows ↔ r ∈ xs := by
    have hr := h (key r)
    constructor
    · intro hin
      rw [hu.find_of_mem hin] at hr
      exact find_mem hr.symm
    · intro hin
      rw [hu'.find_of_mem hin] at hr
      exact find_mem hr
  have hperm : rows.Perm xs :=
    (List.perm_ext_iff_of_nodup (List.Nodup.of_map key hu) (List.Nodup.of_map key hu')).mpr hmem
  apply hperm.eq_of_pairwise _ hs hs'
  intro a b ha hb hab hba
  exact hu.eq_of_key ha ((hmem b).mpr hb) (hle _ _ hab hba)

theorem Unique.find_collect [DecidableEq κ] (hu : Unique key rows) (k : κ) :
    find key k (rows.foldl (KeyedRows.insert key) []) = find key k rows := by
  rw [find_foldl_insert, hu.find_perm (List.reverse_perm rows)]
  simp [find]

/-- A row and the rows under other keys. -/
theorem Unique.perm_filter_ne [DecidableEq κ] (hu : Unique key rows) (hr : r ∈ rows) :
    rows.Perm (r :: rows.filter fun r' => key r' ≠ key r) := by
  classical
  have hnodup : rows.Nodup := List.Nodup.of_map key hu
  apply (List.perm_cons_erase hr).trans
  apply List.Perm.cons
  rw [hnodup.erase_eq_filter]
  have hsame : rows.filter (fun r' => r' != r) = rows.filter fun r' => key r' ≠ key r := by
    apply List.filter_congr
    intro r' hr'
    have hkey : r' = r ↔ key r' = key r := ⟨fun h => h ▸ rfl, hu.eq_of_key hr' hr⟩
    rw [Bool.eq_iff_iff, bne_iff_ne, decide_eq_true_iff]
    exact not_congr hkey
  rw [hsame]

theorem find_map {β : Type*} [DecidableEq κ] {key' : β → κ} {f : α → β}
    (hf : ∀ r, key' (f r) = key r) (k : κ) :
    find key' k (rows.map f) = (find key k rows).map f := by
  unfold find
  rw [List.find?_map]
  congr 1
  congr 1
  funext r
  simp [hf]

theorem Unique.filterMap {f : α → Option α} (hf : ∀ r r', f r = some r' → key r' = key r)
    (hu : Unique key rows) : Unique key (rows.filterMap f) := by
  rw [Unique, List.Nodup, List.pairwise_map, List.pairwise_filterMap]
  apply (List.pairwise_map.mp hu).imp
  intro r r' hne a ha a' ha'
  rw [hf r a ha, hf r' a' ha']
  exact hne

theorem Unique.find_filterMap [DecidableEq κ] {f : α → Option α}
    (hf : ∀ r r', f r = some r' → key r' = key r) (hu : Unique key rows) (k : κ) :
    find key k (rows.filterMap f) = (find key k rows).bind f := by
  apply Option.ext
  intro r
  rw [(hu.filterMap hf).find_eq_some, List.mem_filterMap, Option.bind_eq_some_iff]
  constructor
  · rintro ⟨⟨a, ha, hr⟩, hk⟩
    exact ⟨a, hu.find_eq_some.mpr ⟨ha, (hf a r hr).symm.trans hk⟩, hr⟩
  · rintro ⟨a, ha, hr⟩
    exact ⟨⟨a, find_mem ha, hr⟩, (hf a r hr).trans (find_key ha)⟩

end Order

end KeyedRows
