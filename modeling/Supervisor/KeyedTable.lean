import Supervisor.RowMap

namespace KeyedRows

/-- With unique keys one row has the key of a row. -/
theorem Unique.filter_key {α κ : Type*} [DecidableEq κ] {key : α → κ} {rows : List α} {r : α}
    (hu : Unique key rows) (hr : r ∈ rows) : rows.filter (fun r' => key r' = key r) = [r] := by
  induction rows with
  | nil => simp at hr
  | cons r' rows ih =>
    obtain ⟨hnew, htail⟩ := List.nodup_cons.mp hu
    by_cases hkey : key r' = key r
    · have hself : r' = r := hu.eq_of_key List.mem_cons_self hr hkey
      have hnone : rows.filter (fun r' => key r' = key r) = [] := by
        rw [List.filter_eq_nil_iff]
        intro a ha hsame
        rw [decide_eq_true_eq] at hsame
        exact hnew (List.mem_map.mpr ⟨a, ha, hsame.trans hkey.symm⟩)
      rw [List.filter_cons_of_pos (by simpa using hkey), hnone, hself]
    · have hmem : r ∈ rows := (List.mem_cons.mp hr).resolve_left fun heq => hkey (by rw [heq])
      rw [List.filter_cons_of_neg (by simpa using hkey), ih htail hmem]

end KeyedRows

/-- A table under its primary key. -/
structure KeyedTable {α κ : Type*} (key : α → κ) where
  rows : List α
  unique : KeyedRows.Unique key rows

namespace KeyedTable

variable {α κ : Type*} {key : α → κ}

@[ext]
theorem ext {t u : KeyedTable key} (h : t.rows = u.rows) : t = u := by
  cases t
  cases u
  congr

instance : Membership α (KeyedTable key) := ⟨fun t r => r ∈ t.rows⟩

instance [DecidableEq α] (r : α) (t : KeyedTable key) : Decidable (r ∈ t) :=
  inferInstanceAs (Decidable (r ∈ t.rows))

def empty : KeyedTable key := ⟨[], List.nodup_nil⟩

/-- `DELETE` of the rows that are not kept -/
def filter (t : KeyedTable key) (p : α → Bool) : KeyedTable key :=
  ⟨t.rows.filter p, t.unique.filter p⟩

/-- `UPDATE` of every row -/
def map (t : KeyedTable key) (f : α → α) (hf : ∀ r, key (f r) = key r) : KeyedTable key where
  rows := t.rows.map f
  unique := by
    have hkeys : (t.rows.map f).map key = t.rows.map key := by
      rw [List.map_map]
      exact List.map_congr_left fun r _ => hf r
    rw [KeyedRows.Unique, hkeys]
    exact t.unique

section Lookup

variable [DecidableEq κ]

def find (t : KeyedTable key) (k : κ) : Option α := KeyedRows.find key k t.rows

def has (t : KeyedTable key) (k : κ) : Bool := t.rows.any fun r => key r = k

/-- `INSERT`; `none` when the key is taken -/
def insert (t : KeyedTable key) (row : α) : Option (KeyedTable key) :=
  if h : ∀ r ∈ t.rows, key r ≠ key row then some ⟨t.rows ++ [row], t.unique.append h⟩ else none

/-- `UPDATE` of the row with a key -/
def update (t : KeyedTable key) (k : κ) (f : α → α) (hf : ∀ r, key r = k → key (f r) = k) :
    KeyedTable key :=
  ⟨KeyedRows.update key k f t.rows, t.unique.update hf⟩

/-- `INSERT`, or `UPDATE` of the row that has the key -/
def upsert (t : KeyedTable key) (row : α) : KeyedTable key :=
  match t.insert row with
  | some u => u
  | none => t.update (key row) (fun _ => row) fun _ _ => rfl

end Lookup

section Rows

variable {t u : KeyedTable key} {r row : α} {k : κ}

theorem mem_iff : r ∈ t ↔ r ∈ t.rows := .rfl

theorem not_mem_empty : r ∉ (empty : KeyedTable key) := List.not_mem_nil

theorem eq_of_key (hr : r ∈ t) (hrow : row ∈ t) (h : key r = key row) : r = row :=
  t.unique.eq_of_key hr hrow h

@[simp]
theorem mem_filter {p : α → Bool} : r ∈ t.filter p ↔ r ∈ t ∧ p r = true := List.mem_filter

theorem nodup_key : (t.rows.map key).Nodup := t.unique

variable [DecidableEq κ]

theorem find_eq_some : t.find k = some r ↔ r ∈ t ∧ key r = k := t.unique.find_eq_some

theorem has_iff : t.has k = true ↔ ∃ r ∈ t, key r = k := by
  simp [has, mem_iff]

theorem insert_eq_some : t.insert row = some u ↔
    (∀ r ∈ t, key r ≠ key row) ∧ u.rows = t.rows ++ [row] := by
  unfold insert
  constructor
  · intro h
    split at h
    · rename_i hnew
      cases h
      exact ⟨hnew, rfl⟩
    · cases h
  · rintro ⟨hnew, hrows⟩
    rw [dif_pos (show ∀ r ∈ t.rows, key r ≠ key row from hnew)]
    exact congrArg some (ext hrows.symm)

theorem insert_eq_none : t.insert row = none ↔ ∃ r ∈ t, key r = key row := by
  unfold insert
  split
  · rename_i hnew
    simp only [reduceCtorEq, false_iff]
    rintro ⟨r, hr, hk⟩
    exact hnew r hr hk
  · rename_i htaken
    simp only [true_iff]
    push Not at htaken
    exact htaken

theorem mem_insert (h : t.insert row = some u) : r ∈ u ↔ r ∈ t ∨ r = row := by
  rw [mem_iff, (insert_eq_some.mp h).2, List.mem_append, List.mem_singleton]
  exact .rfl

theorem mem_update {f : α → α} (hf : ∀ r, key r = k → key (f r) = k) :
    r ∈ t.update k f hf ↔ (∃ r' ∈ t, key r' = k ∧ f r' = r) ∨ r ∈ t ∧ key r ≠ k :=
  KeyedRows.mem_update_iff

theorem mem_update_const {hf : ∀ r, key r = k → key row = k} :
    r ∈ t.update k (fun _ => row) hf ↔ t.has k = true ∧ r = row ∨ r ∈ t ∧ key r ≠ k := by
  rw [mem_update, has_iff]
  constructor
  · rintro (⟨r', hr', hk, rfl⟩ | h)
    · exact .inl ⟨⟨r', hr', hk⟩, rfl⟩
    · exact .inr h
  · rintro (⟨⟨r', hr', hk⟩, rfl⟩ | h)
    · exact .inl ⟨r', hr', hk, rfl⟩
    · exact .inr h

theorem mem_upsert : r ∈ t.upsert row ↔ r = row ∨ r ∈ t ∧ key r ≠ key row := by
  unfold upsert
  split
  · rename_i u hinsert
    have hnew := (insert_eq_some.mp hinsert).1
    rw [mem_insert hinsert, or_comm]
    exact or_congr_right ⟨fun hr => ⟨hr, hnew r hr⟩, And.left⟩
  · rename_i htaken
    rw [mem_update_const, has_iff.mpr (insert_eq_none.mp htaken)]
    simp

end Rows

end KeyedTable
