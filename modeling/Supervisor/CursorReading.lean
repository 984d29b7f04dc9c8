import Mathlib.Data.Nat.Notation

/-! A reader with a cursor over numbered items; the number zero has no place in the order. -/

namespace CursorReading

variable {α : Type*} {key : α → ℕ} {owed : α → Prop} {cursor other : ℕ} {a b : α}
  {read items upcoming : List α}

/-- The numbered items ascend. -/
def Ascending (key : α → ℕ) (items : List α) : Prop :=
  items.Pairwise fun a b => key a = 0 ∨ key b = 0 ∨ key a < key b

/-- What has been read ascends, up to the cursor. -/
structure Written (key : α → ℕ) (cursor : ℕ) (read : List α) : Prop where
  ascending : Ascending key read
  le : ∀ a ∈ read, key a ≤ cursor

/-- Every owed item up to the cursor has been read. -/
def Complete (key : α → ℕ) (owed : α → Prop) (cursor : ℕ) (read : List α) : Prop :=
  ∀ a, owed a → key a ≤ cursor → a ∈ read

/-- Every owed item above the cursor is still to come. -/
def Offers (key : α → ℕ) (owed : α → Prop) (cursor : ℕ) (upcoming : List α) : Prop :=
  ∀ a, owed a → cursor < key a → a ∈ upcoming

/-- Every owed item above the cursor is still to come, or lies behind all that is. -/
def Leads (key : α → ℕ) (owed : α → Prop) (cursor : ℕ) (upcoming : List α) : Prop :=
  ∀ a, owed a → cursor < key a → a ∈ upcoming ∨ ∀ b ∈ upcoming, key b < key a

theorem Ascending.filter (h : Ascending key items) (p : α → Bool) :
    Ascending key (items.filter p) :=
  List.Pairwise.filter p h

theorem Ascending.drop (h : Ascending key items) (n : ℕ) : Ascending key (items.drop n) :=
  List.Pairwise.drop h

theorem Ascending.tail (h : Ascending key (b :: upcoming)) : Ascending key upcoming :=
  (List.pairwise_cons.mp h).2

theorem Ascending.left (h : Ascending key (items ++ upcoming)) : Ascending key items :=
  (List.pairwise_append.mp h).1

theorem Ascending.concat (h : Ascending key items)
    (hb : ∀ a ∈ items, key a = 0 ∨ key b = 0 ∨ key a < key b) : Ascending key (items ++ [b]) := by
  refine List.pairwise_append.mpr ⟨h, List.pairwise_singleton .., fun a ha c hc => ?_⟩
  rw [List.mem_singleton.mp hc]
  exact hb a ha

theorem Ascending.lt_of_mem (h : Ascending key (b :: upcoming)) (ha : a ∈ upcoming)
    (hpos : 0 < key a) : key b < key a := by
  rcases (List.pairwise_cons.mp h).1 a ha with hzero | hzero | hlt
  · omega
  · omega
  · exact hlt

theorem Ascending.pairwise_lt (h : Ascending key items) :
    ((items.map key).filter (0 < ·)).Pairwise (· < ·) := by
  rw [List.filter_map, List.pairwise_map]
  refine (List.Pairwise.filter _ h).imp_of_mem fun ha hb hab => ?_
  have hapos := of_decide_eq_true (List.mem_filter.mp ha).2
  have hbpos := of_decide_eq_true (List.mem_filter.mp hb).2
  omega

theorem Written.mono (h : Written key cursor read) (hle : cursor ≤ other) :
    Written key other read where
  ascending := h.ascending
  le a ha := Nat.le_trans (h.le a ha) hle

theorem Written.concat (h : Written key cursor read) (hnew : key b = 0 ∨ cursor < key b) :
    Written key (max cursor (key b)) (read ++ [b]) where
  ascending := by
    refine h.ascending.concat fun a ha => ?_
    have hle := h.le a ha
    omega
  le a ha := by
    rcases List.mem_append.mp ha with hread | hb
    · have hle := h.le a hread
      omega
    · rw [List.mem_singleton.mp hb]
      exact Nat.le_max_right ..

/-- The item that is read next is the first owed one above the cursor, if one is owed there. -/
theorem Complete.concat (h : Complete key owed cursor read)
    (hleads : Leads key owed cursor (b :: upcoming)) (hascending : Ascending key (b :: upcoming)) :
    Complete key owed (max cursor (key b)) (read ++ [b]) := by
  intro a ha hle
  rw [List.mem_append, List.mem_singleton]
  by_cases hcursor : key a ≤ cursor
  · exact .inl (h a ha hcursor)
  · have hle' : key a ≤ key b := by omega
    rcases hleads a ha (by omega) with hmem | hbehind
    · rcases List.mem_cons.mp hmem with hhead | hlater
      · exact .inr hhead
      · have hlt := hascending.lt_of_mem hlater (by omega)
        omega
    · have hlt := hbehind b List.mem_cons_self
      omega

theorem Offers.leads (h : Offers key owed cursor upcoming) : Leads key owed cursor upcoming :=
  fun a ha hcursor => .inl (h a ha hcursor)

theorem Offers.tail (h : Offers key owed cursor (b :: upcoming)) :
    Offers key owed (max cursor (key b)) upcoming := by
  intro a ha hcursor
  rcases List.mem_cons.mp (h a ha (by omega)) with rfl | hlater
  · omega
  · exact hlater

theorem Leads.tail (h : Leads key owed cursor (b :: upcoming)) :
    Leads key owed (max cursor (key b)) upcoming := by
  intro a ha hcursor
  rcases h a ha (by omega) with hmem | hbehind
  · rcases List.mem_cons.mp hmem with rfl | hlater
    · omega
    · exact .inl hlater
  · exact .inr fun b hb => hbehind b (List.mem_cons_of_mem _ hb)

theorem Offers.leads_left (h : Offers key owed cursor (items ++ upcoming))
    (hascending : Ascending key (items ++ upcoming)) : Leads key owed cursor items := by
  intro a ha hcursor
  rcases List.mem_append.mp (h a ha hcursor) with hitem | hlater
  · exact .inl hitem
  · right
    intro b hb
    rcases (List.pairwise_append.mp hascending).2.2 b hb a hlater with hzero | hzero | hlt
    · omega
    · omega
    · exact hlt

theorem Complete.of_offers_nil (h : Complete key owed cursor read)
    (hoffers : Offers key owed cursor []) (ha : owed a) : a ∈ read := by
  by_cases hle : key a ≤ cursor
  · exact h a ha hle
  · cases hoffers a ha (by omega)

end CursorReading
