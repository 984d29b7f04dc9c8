import Mathlib.Data.List.Nodup

namespace KeyedRows

variable {α κ : Type*}

/-- No two rows share a key. -/
def Unique (key : α → κ) (rows : List α) : Prop := (rows.map key).Nodup

section Unique

variable {key : α → κ} {rows : List α} {r r' : α}

theorem Unique.eq_of_key (hu : Unique key rows) (hr : r ∈ rows) (hr' : r' ∈ rows)
    (h : key r = key r') : r = r' :=
  List.inj_on_of_nodup_map hu hr hr' h

theorem Unique.append (hu : Unique key rows) (hr : ∀ r' ∈ rows, key r' ≠ key r) :
    Unique key (rows ++ [r]) := by
  rw [Unique, List.map_append, List.map_singleton, List.nodup_append]
  refine ⟨hu, List.nodup_singleton _, fun a ha b hb => ?_⟩
  obtain ⟨r', hr', rfl⟩ := List.mem_map.mp ha
  rw [List.mem_singleton.mp hb]
  exact hr r' hr'

theorem Unique.filter (p : α → Bool) (hu : Unique key rows) : Unique key (rows.filter p) :=
  hu.sublist (List.filter_sublist.map key)

end Unique

section Update

variable [DecidableEq κ] (key : α → κ)

/-- The row with key `k`. -/
def find (k : κ) (rows : List α) : Option α := rows.find? fun r => key r = k

/-- Rewrite the rows with key `k`. -/
def update (k : κ) (f : α → α) (rows : List α) : List α :=
  rows.map fun r => if key r = k then f r else r

variable {key} {k : κ} {f : α → α} {rows : List α} {r : α}

theorem find_mem (h : find key k rows = some r) : r ∈ rows := List.mem_of_find?_eq_some h

theorem find_key (h : find key k rows = some r) : key r = k := by
  simpa using List.find?_some h

theorem find_eq_none : find key k rows = none ↔ ∀ r ∈ rows, key r ≠ k := by
  simp [find, List.find?_eq_none]

theorem Unique.find_of_mem (hu : Unique key rows) (hr : r ∈ rows) :
    find key (key r) rows = some r := by
  cases h : find key (key r) rows with
  | none => exact absurd rfl (find_eq_none.mp h r hr)
  | some r' => rw [hu.eq_of_key (find_mem h) hr (find_key h)]

theorem mem_update_iff : r ∈ update key k f rows ↔
    (∃ r' ∈ rows, key r' = k ∧ f r' = r) ∨ (r ∈ rows ∧ key r ≠ k) := by
  rw [update, List.mem_map]
  constructor
  · rintro ⟨r', hr', rfl⟩
    by_cases hk : key r' = k
    · exact .inl ⟨r', hr', hk, by rw [if_pos hk]⟩
    · exact .inr (by rw [if_neg hk]; exact ⟨hr', hk⟩)
  · rintro (⟨r', hr', hk, rfl⟩ | ⟨hr, hk⟩)
    · exact ⟨r', hr', if_pos hk⟩
    · exact ⟨r, hr, if_neg hk⟩

theorem Unique.mem_update_iff (hu : Unique key rows) (hr : find key k rows = some r) {r' : α} :
    r' ∈ update key k f rows ↔ r' = f r ∨ (r' ∈ rows ∧ key r' ≠ k) := by
  rw [KeyedRows.mem_update_iff]
  refine or_congr_left ⟨?_, fun h => ⟨r, find_mem hr, find_key hr, h.symm⟩⟩
  rintro ⟨a, ha, hk, rfl⟩
  rw [hu.eq_of_key ha (find_mem hr) (hk.trans (find_key hr).symm)]

theorem map_key_update (hf : ∀ r, key r = k → key (f r) = k) :
    (update key k f rows).map key = rows.map key := by
  rw [update, List.map_map]
  refine List.map_congr_left fun r _ => ?_
  by_cases hk : key r = k
  · simp [hk, hf r hk]
  · simp [hk]

theorem Unique.update (hf : ∀ r, key r = k → key (f r) = k) (hu : Unique key rows) :
    Unique key (update key k f rows) := by
  rwa [Unique, map_key_update hf]

theorem update_of_not_mem (h : ∀ r ∈ rows, key r ≠ k) : update key k f rows = rows := by
  rw [KeyedRows.update]
  conv_rhs => rw [← List.map_id rows]
  exact List.map_congr_left fun r hr => if_neg (h r hr)

theorem update_id (k : κ) (rows : List α) : update key k id rows = rows := by
  rw [KeyedRows.update]
  conv_rhs => rw [← List.map_id rows]
  exact List.map_congr_left fun row _ => ite_self row

/-- Rows that are not chosen before and after their update do not show in a choice. -/
theorem filter_update {p : α → Bool}
    (h : ∀ r ∈ rows, key r = k → p r = false ∧ p (f r) = false) :
    (update key k f rows).filter p = rows.filter p := by
  induction rows with
  | nil => rfl
  | cons a rows ih =>
    have htail := ih fun r hr => h r (List.mem_cons_of_mem _ hr)
    rw [update, List.map_cons]
    by_cases hk : key a = k
    · obtain ⟨hbefore, hafter⟩ := h a List.mem_cons_self hk
      rw [if_pos hk, List.filter_cons_of_neg (by simp [hafter]),
        List.filter_cons_of_neg (by simp [hbefore])]
      exact htail
    · rw [if_neg hk, List.filter_cons, List.filter_cons]
      change (if p a then a :: (update key k f rows).filter p
        else (update key k f rows).filter p) = _
      rw [htail]

/-- With unique keys an update moves a count by what it does to one row. -/
theorem Unique.countP_update (p : α → Bool) (hu : Unique key rows)
    (hr : find key k rows = some r) :
    (KeyedRows.update key k f rows).countP p + (if p r then 1 else 0) =
      rows.countP p + (if p (f r) then 1 else 0) := by
  induction rows with
  | nil => simp [find] at hr
  | cons a rows ih =>
    obtain ⟨ha, hu⟩ := List.nodup_cons.mp hu
    by_cases hk : key a = k
    · -- the head is the row, and the keys of the tail differ from its key
      have hhead : a = r := by simpa [find, hk] using hr
      have htail : ∀ b ∈ rows, key b ≠ k := fun b hb hbk =>
        ha (List.mem_map.mpr ⟨b, hb, hbk.trans hk.symm⟩)
      subst hhead
      have hupdate : KeyedRows.update key k f (a :: rows) = f a :: rows := by
        conv_rhs => rw [← update_of_not_mem (f := f) htail]
        simp [KeyedRows.update, hk]
      rw [hupdate, List.countP_cons, List.countP_cons]
      omega
    · have hfind : find key k rows = some r := by simpa [find, hk] using hr
      have hupdate : KeyedRows.update key k f (a :: rows) = a :: KeyedRows.update key k f rows := by
        simp [KeyedRows.update, hk]
      have htail := ih hu hfind
      rw [hupdate, List.countP_cons, List.countP_cons]
      omega

theorem countP_update_le {p q : α → Bool}
    (hrow : ∀ r ∈ rows, key r = k → p (f r) = true → q r = true)
    (hother : ∀ r ∈ rows, key r ≠ k → p r = true → q r = true) :
    (KeyedRows.update key k f rows).countP p ≤ rows.countP q := by
  rw [KeyedRows.update, List.countP_map]
  apply List.countP_mono_left
  intro r hr hp
  by_cases hk : key r = k
  · apply hrow r hr hk
    simpa [hk] using hp
  · apply hother r hr hk
    simpa [hk] using hp

/-- Two counts that differ on the row of one key only differ by at most one. -/
theorem Unique.countP_le_succ {p q : α → Bool} (hu : Unique key rows)
    (h : ∀ r ∈ rows, p r = true → q r = true ∨ key r = k) :
    rows.countP p ≤ rows.countP q + 1 := by
  induction rows with
  | nil => simp
  | cons a rows ih =>
    obtain ⟨ha, hu⟩ := List.nodup_cons.mp hu
    have htail (r : α) (hr : r ∈ rows) := h r (List.mem_cons_of_mem a hr)
    rw [List.countP_cons, List.countP_cons]
    by_cases hk : key a = k
    · -- no other row has the key
      have hmono : rows.countP p ≤ rows.countP q := by
        apply List.countP_mono_left
        intro r hr hp
        rcases htail r hr hp with hq | hrk
        · exact hq
        · exact absurd (List.mem_map.mpr ⟨r, hr, hrk.trans hk.symm⟩) ha
      split <;> split <;> omega
    · have hle := ih hu htail
      have hhead : p a = true → q a = true := fun hp =>
        (h a List.mem_cons_self hp).resolve_right hk
      by_cases hp : p a = true
      · rw [if_pos hp, if_pos (hhead hp)]
        omega
      · rw [if_neg hp]
        omega

/-- With unique keys a test that only rows of one key pass counts to one exactly
when the row of that key passes it. -/
theorem Unique.countP_eq_one_iff {p : α → Bool} (hu : Unique key rows)
    (hp : ∀ r, p r = true → key r = k) :
    rows.countP p = 1 ↔ ∃ r, find key k rows = some r ∧ p r = true := by
  have hle : rows.countP p ≤ 1 := by
    have hmost := hu.countP_le_succ (p := p) (q := fun _ => false) fun r _ hr => .inr (hp r hr)
    simpa using hmost
  constructor
  · intro hone
    have hpos : 0 < rows.countP p := by omega
    obtain ⟨r, hr, hpr⟩ := List.countP_pos_iff.mp hpos
    exact ⟨r, hp r hpr ▸ hu.find_of_mem hr, hpr⟩
  · rintro ⟨r, hr, hpr⟩
    have hpos : 0 < rows.countP p := List.countP_pos_iff.mpr ⟨r, find_mem hr, hpr⟩
    omega

/-- With unique keys leaving out a key leaves out the row that the lookup finds. -/
theorem Unique.length_filter_ne (hu : Unique key rows) (k : κ) :
    (rows.filter fun r => key r ≠ k).length + (if (find key k rows).isSome then 1 else 0) =
      rows.length := by
  have hsplit : rows.length = rows.countP (fun r => key r = k) + rows.countP fun r => key r ≠ k := by
    have hcount := List.length_eq_countP_add_countP (fun r => decide (key r = k)) (l := rows)
    simpa using hcount
  rw [← List.countP_eq_length_filter]
  cases hfind : find key k rows with
  | none =>
    have hzero : rows.countP (fun r => key r = k) = 0 := by
      rw [List.countP_eq_zero]
      intro r hr
      simpa using find_eq_none.mp hfind r hr
    rw [hzero, Nat.zero_add] at hsplit
    simpa using hsplit.symm
  | some r =>
    have hone : rows.countP (fun r => key r = k) = 1 :=
      (hu.countP_eq_one_iff fun r hr => of_decide_eq_true hr).mpr ⟨r, hfind, by
        simpa using find_key hfind⟩
    rw [hone] at hsplit
    rw [Option.isSome_some, if_pos rfl]
    omega

/-- The lookup of a row under a further test. -/
theorem Unique.find?_eq_filter {p : α → Bool} (hu : Unique key rows)
    (hp : ∀ r, p r = true → key r = k) : rows.find? p = (find key k rows).filter p := by
  cases h : find key k rows with
  | none =>
    rw [Option.filter_none, List.find?_eq_none]
    intro r hr hpr
    exact find_eq_none.mp h r hr (hp r hpr)
  | some r =>
    by_cases hpr : p r = true
    · rw [Option.filter_some_pos hpr]
      cases hfind : rows.find? p with
      | none => exact absurd hpr (List.find?_eq_none.mp hfind r (find_mem h))
      | some r' =>
        have hr' := List.find?_some hfind
        rw [hu.eq_of_key (List.mem_of_find?_eq_some hfind) (find_mem h)
          ((hp r' hr').trans (find_key h).symm)]
    · rw [Option.filter_some, if_neg hpr, List.find?_eq_none]
      intro r' hr' hpr'
      have heq := hu.eq_of_key hr' (find_mem h) ((hp r' hpr').trans (find_key h).symm)
      exact hpr (heq ▸ hpr')

end Update

end KeyedRows
