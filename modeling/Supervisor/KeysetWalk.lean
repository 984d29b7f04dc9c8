import Mathlib.Data.List.Count
import Supervisor.OrderedPage

/-! Walks over pages that are cut by the rank of their last row, while the rows change. -/
namespace KeysetWalk

variable {α ι : Type*} [LinearOrder ι] {rank : α → ι}

/-- The row comes after a cursor; the first page has none. -/
def After (rank : α → ι) (cursor : Option ι) (r : α) : Prop := ∀ c ∈ cursor, c < rank r

/-- What a page has to do with the rows it is cut from: it holds the rows after the cursor up to
its last one, which is the next cursor, or all of them. -/
structure IsPage (rank : α → ι) (rows : List α) (cursor : Option ι) (records : List α)
    (next : Option ι) : Prop where
  sorted : records.Pairwise fun a b => rank a < rank b
  sound : ∀ r ∈ records, r ∈ rows ∧ After rank cursor r
  all_of_none : next = none → ∀ r ∈ rows, After rank cursor r → r ∈ records
  last : ∀ c ∈ next, ∃ r ∈ records, rank r = c
  bounded : ∀ c ∈ next, ∀ r ∈ records, rank r ≤ c
  all_of_some : ∀ c ∈ next, ∀ r ∈ rows, After rank cursor r → rank r ≤ c → r ∈ records

instance (cursor : Option ι) (r : α) : Decidable (After rank cursor r) :=
  inferInstanceAs (Decidable (∀ c ∈ cursor, c < rank r))

/-- The rows after a cursor -/
def beyond (rank : α → ι) (cursor : Option ι) (rows : List α) : List α :=
  rows.filter fun r => decide (After rank cursor r)

/-- A bounded listing of the rows after a cursor is a page. -/
theorem isPage_first {rows : List α} {cursor next : Option ι} {n : ℕ} (hrank : (rows.map rank).Nodup)
    (hnone : next = none → (beyond rank cursor rows).length ≤ n)
    (hsome : ∀ c ∈ next,
      ((OrderedPage.first rank n (beyond rank cursor rows)).getLast?.map rank) = some c) :
    IsPage rank rows cursor (OrderedPage.first rank n (beyond rank cursor rows)) next := by
  have hrank' : ((beyond rank cursor rows).map rank).Nodup :=
    hrank.sublist (List.filter_sublist.map rank)
  have hsorted : (OrderedPage.first rank n (beyond rank cursor rows)).Pairwise fun a b =>
      rank a < rank b := (OrderedPage.pairwise_ordered hrank').sublist (List.take_sublist _ _)
  have hlast (c : ι) (hc : c ∈ next) : ∃ init last,
      OrderedPage.first rank n (beyond rank cursor rows) = init ++ [last] ∧ rank last = c := by
    obtain ⟨last, hget, hrankLast⟩ := Option.map_eq_some_iff.mp (hsome c hc)
    obtain ⟨init, hinit⟩ := List.getLast?_eq_some_iff.mp hget
    exact ⟨init, last, hinit, hrankLast⟩
  constructor
  · exact hsorted
  · intro r hr
    obtain ⟨hrow, hafter⟩ := List.mem_filter.mp (OrderedPage.mem_of_mem_first hr)
    exact ⟨hrow, of_decide_eq_true hafter⟩
  · intro hnext r hr hafter
    exact (OrderedPage.perm_first (hnone hnext)).mem_iff.mpr
      (List.mem_filter.mpr ⟨hr, decide_eq_true hafter⟩)
  · intro c hc
    obtain ⟨init, last, hinit, hrankLast⟩ := hlast c hc
    exact ⟨last, hinit ▸ List.mem_append_right _ (List.mem_singleton_self last), hrankLast⟩
  · intro c hc r hr
    obtain ⟨init, last, hinit, rfl⟩ := hlast c hc
    rw [hinit] at hr hsorted
    rcases List.mem_append.mp hr with hr | hr
    · exact ((List.pairwise_append.mp hsorted).2.2 r hr last (List.mem_singleton_self last)).le
    · rw [List.mem_singleton.mp hr]
  · intro c hc r hr hafter hle
    obtain ⟨init, last, hinit, rfl⟩ := hlast c hc
    have hmem : last ∈ OrderedPage.first rank n (beyond rank cursor rows) :=
      hinit ▸ List.mem_append_right _ (List.mem_singleton_self last)
    have hposition := ((OrderedPage.mem_first_iff hrank').mp hmem).2
    -- no more rows come before an earlier one
    have hless : OrderedPage.position rank (rank r) (beyond rank cursor rows) ≤
        OrderedPage.position rank (rank last) (beyond rank cursor rows) := by
      apply List.countP_mono_left
      intro x hx hlt
      exact decide_eq_true ((of_decide_eq_true hlt).trans_le hle)
    exact (OrderedPage.mem_first_iff hrank').mpr
      ⟨List.mem_filter.mpr ⟨hr, decide_eq_true hafter⟩, hless.trans_lt hposition⟩

/-- Read the pages from the `i`th read on until one has no next cursor; `none` without fuel. -/
def walk (page : ℕ → Option ι → List α × Option ι) : ℕ → ℕ → Option ι → Option (List α)
  | 0, _, _ => none
  | fuel + 1, i, cursor =>
    match (page i cursor).2 with
    | none => some (page i cursor).1
    | some c => (walk page fuel (i + 1) (some c)).map ((page i cursor).1 ++ ·)

/-- A walk from the first page ends, in order and each row once, with every row that stays. -/
def Completes (rank : α → ι) (page : ℕ → Option ι → List α × Option ι) (stays : α → Prop) : Prop :=
  ∃ fuel result, walk page fuel 0 none = some result ∧
    result.Pairwise (fun a b => rank a < rank b) ∧ ∀ r, stays r → r ∈ result

section Walk

variable {page : ℕ → Option ι → List α × Option ι} {rows : ℕ → List α} {fuel i : ℕ}
  {cursor : Option ι} {result : List α}

/-- What a walk has yielded: in order, each row at most once, and the rows that have stayed. -/
structure Yields (rank : α → ι) (rows : ℕ → List α) (i : ℕ) (cursor : Option ι)
    (result : List α) : Prop where
  sorted : result.Pairwise fun a b => rank a < rank b
  sound : ∀ r ∈ result, After rank cursor r ∧ ∃ j, r ∈ rows j
  complete : ∀ r, (∀ j, i ≤ j → r ∈ rows j) → After rank cursor r → r ∈ result

theorem After.trans {c : ι} {r s : α} (hs : After rank cursor s) (hc : rank s = c)
    (hr : After rank (some c) r) : After rank cursor r := by
  intro c' hc'
  have hlt := hr c rfl
  exact (hs c' hc').trans (hc ▸ hlt)

theorem walk_yields (hpage : ∀ i cursor, IsPage rank (rows i) cursor (page i cursor).1 (page i cursor).2)
    (h : walk page fuel i cursor = some result) : Yields rank rows i cursor result := by
  induction fuel generalizing i cursor result with
  | zero => cases h
  | succ fuel ih =>
    have hfirst := hpage i cursor
    unfold walk at h
    split at h
    · rename_i hnone
      obtain rfl := Option.some.inj h
      constructor
      · exact hfirst.sorted
      · intro r hr
        obtain ⟨hrow, hafter⟩ := hfirst.sound r hr
        exact ⟨hafter, i, hrow⟩
      · intro r hr hafter
        exact hfirst.all_of_none hnone r (hr i (Nat.le_refl i)) hafter
    · rename_i c hsome
      obtain ⟨rest, hrest, rfl⟩ := Option.map_eq_some_iff.mp h
      have hc : c ∈ (page i cursor).2 := hsome
      obtain ⟨last, hlast, hrank⟩ := hfirst.last c hc
      have hlater := ih hrest
      constructor
      · refine List.pairwise_append.mpr ⟨hfirst.sorted, hlater.sorted, ?_⟩
        intro a ha b hb
        -- the rest of the walk comes after the last row of the page
        exact (hfirst.bounded c hc a ha).trans_lt ((hlater.sound b hb).1 c rfl)
      · intro r hr
        rcases List.mem_append.mp hr with hr | hr
        · obtain ⟨hrow, hafter⟩ := hfirst.sound r hr
          exact ⟨hafter, i, hrow⟩
        · obtain ⟨hafter, hrow⟩ := hlater.sound r hr
          exact ⟨After.trans (hfirst.sound last hlast).2 hrank hafter, hrow⟩
      · intro r hr hafter
        rcases le_or_gt (rank r) c with hle | hgt
        · exact List.mem_append_left _ (hfirst.all_of_some c hc r (hr i (Nat.le_refl i)) hafter hle)
        · refine List.mem_append_right _ (hlater.complete r (fun j hj => hr j (by omega)) ?_)
          intro c' hc'
          obtain rfl := Option.some.inj hc'
          exact hgt

section Termination

variable {settled : ℕ}

/-- The rows that are left -/
def left (rank : α → ι) (rows : List α) (cursor : Option ι) : ℕ :=
  rows.countP fun r => decide (After rank cursor r)

/-- A page takes its last row from what is left. -/
theorem left_lt {rows records : List α} {c : ι}
    (h : IsPage rank rows cursor records (some c)) : left rank rows (some c) < left rank rows cursor := by
  obtain ⟨last, hlast, hrank⟩ := h.last c rfl
  obtain ⟨hrow, hafter⟩ := h.sound last hlast
  unfold left
  have hlast' : decide (After rank (some c) last) = false := by
    rw [decide_eq_false_iff_not]
    exact fun hlt => absurd (hlt c rfl) (by rw [hrank]; exact lt_irrefl c)
  calc rows.countP (fun r => decide (After rank (some c) r))
    _ = rows.countP fun r => decide (After rank (some c) r) && decide (After rank cursor r) := by
      apply List.countP_congr
      intro r hr
      rw [Bool.and_eq_true, decide_eq_true_eq, decide_eq_true_eq]
      exact (and_iff_left_of_imp (After.trans hafter hrank)).symm
    _ = (rows.filter fun r => decide (After rank cursor r)).countP fun r =>
        decide (After rank (some c) r) := List.countP_filter.symm
    _ < (rows.filter fun r => decide (After rank cursor r)).length :=
      List.countP_lt_length_iff.mpr
        ⟨last, List.mem_filter.mpr ⟨hrow, decide_eq_true hafter⟩, hlast'⟩
    _ = rows.countP fun r => decide (After rank cursor r) := List.countP_eq_length_filter.symm

/-- Once the rows do not change any more the walk ends. -/
theorem exists_walk
    (hpage : ∀ i cursor, IsPage rank (rows i) cursor (page i cursor).1 (page i cursor).2)
    (hsettled : ∀ j, settled ≤ j → rows j = rows settled) (i : ℕ) (cursor : Option ι) :
    ∃ fuel result, walk page fuel i cursor = some result := by
  -- the reads until the rows are settled, and then the rows that are left
  induction hleft : (settled - i) + left rank (rows settled) cursor using Nat.strongRecOn
    generalizing i cursor with
  | _ n ih =>
    cases hnext : (page i cursor).2 with
    | none =>
      refine ⟨1, (page i cursor).1, ?_⟩
      unfold walk
      rw [hnext]
    | some c =>
      have hcut := hpage i cursor
      rw [hnext] at hcut
      obtain ⟨last, hlast, hrank⟩ := hcut.last c rfl
      have hafter := (hcut.sound last hlast).2
      have hless : (settled - (i + 1)) + left rank (rows settled) (some c) < n := by
        rw [← hleft]
        rcases Nat.lt_or_ge i settled with hbefore | hsince
        · have hle : left rank (rows settled) (some c) ≤ left rank (rows settled) cursor := by
            apply List.countP_mono_left
            intro r hr h
            exact decide_eq_true (After.trans hafter hrank (of_decide_eq_true h))
          omega
        · rw [hsettled i hsince] at hcut
          have hlt := left_lt hcut
          omega
      obtain ⟨fuel, rest, hrest⟩ := ih _ hless (i + 1) (some c) rfl
      refine ⟨fuel + 1, (page i cursor).1 ++ rest, ?_⟩
      unfold walk
      rw [hnext]
      dsimp only
      rw [hrest]
      rfl

theorem completes
    (hpage : ∀ i cursor, IsPage rank (rows i) cursor (page i cursor).1 (page i cursor).2)
    (hsettled : ∀ j, settled ≤ j → rows j = rows settled) :
    Completes rank page fun r => ∀ i, r ∈ rows i := by
  obtain ⟨fuel, result, hwalk⟩ := exists_walk hpage hsettled 0 none
  have hyields := walk_yields hpage hwalk
  refine ⟨fuel, result, hwalk, hyields.sorted, ?_⟩
  intro r hstays
  apply hyields.complete r fun j _ => hstays j
  intro c hc
  cases hc

end Termination

theorem Completes.mono {stays stays' : α → Prop} (h : Completes rank page stays)
    (hstays : ∀ r, stays' r → stays r) : Completes rank page stays' := by
  obtain ⟨fuel, result, hwalk, hsorted, hcomplete⟩ := h
  exact ⟨fuel, result, hwalk, hsorted, fun r hr => hcomplete r (hstays r hr)⟩

/-- A first page without a next cursor is the whole walk. -/
theorem completes_iff_first {stays : α → Prop} (hnext : (page 0 none).2 = none)
    (hsorted : (page 0 none).1.Pairwise fun a b => rank a < rank b) :
    Completes rank page stays ↔ ∀ r, stays r → r ∈ (page 0 none).1 := by
  constructor
  · intro ⟨fuel, result, hwalk, _, hcomplete⟩
    cases fuel with
    | zero => cases hwalk
    | succ fuel =>
      unfold walk at hwalk
      rw [hnext] at hwalk
      obtain rfl := Option.some.inj hwalk
      exact hcomplete
  · intro h
    refine ⟨1, (page 0 none).1, ?_, hsorted, h⟩
    unfold walk
    rw [hnext]

end Walk

end KeysetWalk
