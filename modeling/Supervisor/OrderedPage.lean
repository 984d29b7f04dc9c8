import Mathlib.Data.List.Sort

/-! Bounded listings of rows in the order of a rank that no two rows share. -/

namespace OrderedPage

variable {α ι : Type*} [LinearOrder ι] (rank : α → ι)

def ordered (rows : List α) : List α := rows.insertionSort fun a b => rank a ≤ rank b

/-- `ORDER BY rank LIMIT n` -/
def first (n : ℕ) (rows : List α) : List α := (ordered rank rows).take n

/-- `ORDER BY rank LIMIT -1 OFFSET n` -/
def beyond (n : ℕ) (rows : List α) : List α := (ordered rank rows).drop n

/-- How many rows come before a rank -/
def position (i : ι) (rows : List α) : ℕ := rows.countP fun r => rank r < i

variable {rank} {rows : List α} {n : ℕ} {a x : α}

theorem mem_ordered : x ∈ ordered rank rows ↔ x ∈ rows := List.mem_insertionSort _

theorem perm_ordered : (ordered rank rows).Perm rows := List.perm_insertionSort _ _

theorem mem_of_mem_first (h : x ∈ first rank n rows) : x ∈ rows :=
  mem_ordered.mp (List.mem_of_mem_take h)

theorem mem_of_mem_beyond (h : x ∈ beyond rank n rows) : x ∈ rows :=
  mem_ordered.mp (List.mem_of_mem_drop h)

theorem length_first_le : (first rank n rows).length ≤ n := List.length_take_le _ _

theorem pairwise_ordered (hrank : (rows.map rank).Nodup) :
    (ordered rank rows).Pairwise fun a b => rank a < rank b := by
  have hle : (ordered rank rows).Pairwise fun a b => rank a ≤ rank b := by
    have htotal : Std.Total fun a b : α => rank a ≤ rank b := ⟨fun a b => le_total _ _⟩
    have htrans : IsTrans α fun a b : α => rank a ≤ rank b := ⟨fun _ _ _ => le_trans⟩
    exact List.pairwise_insertionSort _ _
  have hne : (ordered rank rows).Pairwise fun a b => rank a ≠ rank b := by
    apply List.pairwise_map.mp
    exact (perm_ordered.map rank).nodup_iff.mpr hrank
  exact hle.imp₂ (fun _ _ => lt_of_le_of_ne) hne

theorem ordered_filter (hrank : (rows.map rank).Nodup) (p : α → Bool) :
    ordered rank (rows.filter p) = (ordered rank rows).filter p := by
  have hperm : (ordered rank (rows.filter p)).Perm ((ordered rank rows).filter p) :=
    perm_ordered.trans (perm_ordered.symm.filter p)
  have hfilter : ((rows.filter p).map rank).Nodup := hrank.sublist (List.filter_sublist.map rank)
  exact hperm.eq_of_pairwise (fun a b _ _ hab hba => absurd hab (lt_asymm hba))
    (pairwise_ordered hfilter) ((pairwise_ordered hrank).filter p)

theorem le_getLast (hlast : (ordered rank rows).getLast? = some a) (hx : x ∈ rows) :
    rank x ≤ rank a := by
  obtain ⟨init, hinit⟩ := List.getLast?_eq_some_iff.mp hlast
  have hsorted : (ordered rank rows).Pairwise fun a b => rank a ≤ rank b := by
    have htotal : Std.Total fun a b : α => rank a ≤ rank b := ⟨fun a b => le_total _ _⟩
    have htrans : IsTrans α fun a b : α => rank a ≤ rank b := ⟨fun _ _ _ => le_trans⟩
    exact List.pairwise_insertionSort _ _
  have hmem : x ∈ ordered rank rows := mem_ordered.mpr hx
  rw [hinit] at hsorted hmem
  rcases List.mem_append.mp hmem with hmem | hmem
  · exact (List.pairwise_append.mp hsorted).2.2 x hmem a (List.mem_singleton_self a)
  · rw [List.mem_singleton.mp hmem]

theorem mem_take_iff (h : rows.Pairwise fun a b => rank a < rank b) (hx : x ∈ rows) (n : ℕ) :
    x ∈ rows.take n ↔ position rank (rank x) rows < n := by
  induction rows generalizing n with
  | nil => simp at hx
  | cons a rows ih =>
    obtain ⟨ha, hrows⟩ := List.pairwise_cons.mp h
    cases n with
    | zero => simp
    | succ n =>
      rw [List.take_succ_cons, List.mem_cons, position, List.countP_cons]
      rcases List.mem_cons.mp hx with rfl | hx
      · -- no row comes before the head
        have hnone : rows.countP (fun r => rank r < rank x) = 0 := by
          rw [List.countP_eq_zero]
          intro r hr
          simpa using (ha r hr).le
        simp [hnone]
      · have hlt := ha x hx
        have hne : x ≠ a := fun heq => absurd hlt (by simp [heq])
        have htail := ih hrows hx n
        rw [position] at htail
        rw [if_pos (by simpa using hlt), or_iff_right hne, htail]
        omega

theorem mem_drop_iff (h : rows.Pairwise fun a b => rank a < rank b) (hx : x ∈ rows) (n : ℕ) :
    x ∈ rows.drop n ↔ n ≤ position rank (rank x) rows := by
  have htake := mem_take_iff h hx n
  have hnodup : rows.Nodup := h.imp fun hlt heq => absurd hlt (by simp [heq])
  have hsplit : x ∈ rows.take n ∨ x ∈ rows.drop n := by
    rw [← List.mem_append, List.take_append_drop]
    exact hx
  have hone : x ∈ rows.take n → x ∉ rows.drop n := by
    rw [← List.take_append_drop n rows] at hnodup
    exact fun hl hr => List.disjoint_of_nodup_append hnodup hl hr
  constructor
  · intro hdrop
    by_contra hlt
    exact hone (htake.mpr (by omega)) hdrop
  · intro hle
    exact hsplit.resolve_left fun hl => absurd (htake.mp hl) (by omega)

theorem position_ordered (i : ι) : position rank i (ordered rank rows) = position rank i rows :=
  perm_ordered.countP_eq _

theorem mem_first_iff (hrank : (rows.map rank).Nodup) :
    x ∈ first rank n rows ↔ x ∈ rows ∧ position rank (rank x) rows < n := by
  constructor
  · intro h
    have hx := mem_of_mem_first h
    refine ⟨hx, ?_⟩
    rw [← position_ordered]
    exact (mem_take_iff (pairwise_ordered hrank) (mem_ordered.mpr hx) n).mp h
  · rintro ⟨hx, hn⟩
    rw [← position_ordered] at hn
    exact (mem_take_iff (pairwise_ordered hrank) (mem_ordered.mpr hx) n).mpr hn

theorem mem_beyond_iff (hrank : (rows.map rank).Nodup) :
    x ∈ beyond rank n rows ↔ x ∈ rows ∧ n ≤ position rank (rank x) rows := by
  constructor
  · intro h
    have hx := mem_of_mem_beyond h
    refine ⟨hx, ?_⟩
    rw [← position_ordered]
    exact (mem_drop_iff (pairwise_ordered hrank) (mem_ordered.mpr hx) n).mp h
  · rintro ⟨hx, hn⟩
    rw [← position_ordered] at hn
    exact (mem_drop_iff (pairwise_ordered hrank) (mem_ordered.mpr hx) n).mpr hn

theorem nodup_first (hrank : (rows.map rank).Nodup) : ((first rank n rows).map rank).Nodup := by
  have hordered : ((ordered rank rows).map rank).Nodup :=
    (perm_ordered.map rank).nodup_iff.mpr hrank
  exact hordered.sublist ((List.take_sublist n _).map rank)

theorem perm_first (h : rows.length ≤ n) : (first rank n rows).Perm rows := by
  rw [first, List.take_of_length_le]
  · exact perm_ordered
  · rwa [ordered, List.length_insertionSort]

end OrderedPage
