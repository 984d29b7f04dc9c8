import Mathlib.Algebra.GroupWithZero.Nat
import Mathlib.Logic.Relation
import Mathlib.Tactic.Common

universe u

/-! A graph given by the successors of its nodes, searched depth first with a stack. -/
namespace GraphSearch

variable {α : Type u}

def Edge (succ : α → List α) (a b : α) : Prop := b ∈ succ a

/-- No path leads from a node back to it. -/
def Acyclic (succ : α → List α) : Prop := ∀ a, ¬Relation.TransGen (Edge succ) a a

section Search

variable [DecidableEq α]

/-- The search of `target` from the nodes on the stack. -/
def search (succ : α → List α) (target : α) : ℕ → List α → List α → Bool
  | 0, _, _ => false
  | _ + 1, _, [] => false
  | fuel + 1, seen, current :: stack =>
    if current = target then true
    else if current ∈ seen then search succ target fuel seen stack
    else search succ target fuel (current :: seen) ((succ current).reverse ++ stack)

variable {succ : α → List α} {target : α}

theorem reachable_of_search {fuel : ℕ} {seen stack : List α}
    (h : search succ target fuel seen stack = true) :
    ∃ a ∈ stack, Relation.ReflTransGen (Edge succ) a target := by
  induction fuel generalizing seen stack with
  | zero => cases h
  | succ fuel ih =>
    cases stack with
    | nil => cases h
    | cons current stack =>
      rw [search] at h
      split at h
      · rename_i hfound
        exact ⟨current, List.mem_cons_self, hfound ▸ .refl⟩
      split at h
      · obtain ⟨a, ha, hpath⟩ := ih h
        exact ⟨a, List.mem_cons_of_mem _ ha, hpath⟩
      · obtain ⟨a, ha, hpath⟩ := ih h
        rcases List.mem_append.mp ha with ha | ha
        · have hedge : Edge succ current a := List.mem_reverse.mp ha
          exact ⟨current, List.mem_cons_self, .head hedge hpath⟩
        · exact ⟨a, List.mem_cons_of_mem _ ha, hpath⟩

/-- How many nodes the expansion of the unseen ones can still push. -/
def weight (succ : α → List α) (nodes seen : List α) : ℕ :=
  ((nodes.filter (· ∉ seen)).map fun a => (succ a).length).sum

theorem weight_cons (succ : α → List α) (a : α) (nodes seen : List α) :
    weight succ (a :: nodes) seen =
      (if a ∈ seen then 0 else (succ a).length) + weight succ nodes seen := by
  unfold weight
  by_cases ha : a ∈ seen
  · rw [List.filter_cons_of_neg (by simpa using ha), if_pos ha, Nat.zero_add]
  · rw [List.filter_cons_of_pos (by simpa using ha), List.map_cons, List.sum_cons, if_neg ha]

theorem weight_le (succ : α → List α) (current : α) (nodes seen : List α) :
    weight succ nodes (current :: seen) ≤ weight succ nodes seen := by
  induction nodes with
  | nil => exact Nat.le_refl _
  | cons a nodes ih =>
    rw [weight_cons, weight_cons]
    have hhead : (if a ∈ current :: seen then 0 else (succ a).length) ≤
        if a ∈ seen then 0 else (succ a).length := by
      by_cases ha : a ∈ seen
      · rw [if_pos ha]
        exact Nat.le_of_eq (if_pos (List.mem_cons_of_mem _ ha))
      · rw [if_neg ha]
        split
        · exact Nat.zero_le _
        · exact Nat.le_refl _
    omega

/-- A node is expanded once. -/
theorem weight_expand {current : α} {nodes seen : List α} (hnew : current ∉ seen)
    (hnodes : succ current ≠ [] → current ∈ nodes) :
    (succ current).length + weight succ nodes (current :: seen) ≤ weight succ nodes seen := by
  by_cases hleaf : succ current = []
  · have hle := weight_le succ current nodes seen
    rw [hleaf, List.length_nil]
    omega
  · have hmem := hnodes hleaf
    clear hnodes
    induction nodes with
    | nil => exact absurd hmem List.not_mem_nil
    | cons a nodes ih =>
      rw [weight_cons, weight_cons]
      by_cases ha : a = current
      · subst ha
        have hle := weight_le succ a nodes seen
        rw [if_pos List.mem_cons_self, if_neg hnew]
        omega
      · have hrest := ih ((List.mem_cons.mp hmem).resolve_left (Ne.symm ha))
        have hiff : a ∈ current :: seen ↔ a ∈ seen := by
          rw [List.mem_cons]
          exact or_iff_right ha
        rw [if_congr hiff rfl rfl]
        omega

/-- With enough fuel a search that fails has seen all there is to reach. -/
theorem not_reachable_of_search {nodes : List α} (hnodes : ∀ a, succ a ≠ [] → a ∈ nodes)
    {fuel : ℕ} {seen stack : List α} (hfuel : stack.length + weight succ nodes seen < fuel)
    (hseen : ∀ a ∈ seen, a ≠ target ∧ ∀ b ∈ succ a, b ∈ seen ∨ b ∈ stack)
    (h : search succ target fuel seen stack = false) :
    ∀ a, a ∈ seen ∨ a ∈ stack → ¬Relation.ReflTransGen (Edge succ) a target := by
  induction fuel generalizing seen stack with
  | zero => omega
  | succ fuel ih =>
    cases stack with
    | nil =>
      intro a ha hpath
      have hclosed : ∀ b, Relation.ReflTransGen (Edge succ) a b → b ∈ seen := by
        intro b hb
        induction hb with
        | refl => exact ha.resolve_right List.not_mem_nil
        | tail _ hedge ihb =>
          exact ((hseen _ ihb).2 _ hedge).resolve_right List.not_mem_nil
      exact (hseen target (hclosed target hpath)).1 rfl
    | cons current stack =>
      rw [search] at h
      rw [List.length_cons] at hfuel
      split at h
      · cases h
      rename_i hother
      split at h
      · rename_i hmem
        have hrest := ih (by omega) (fun a ha => ⟨(hseen a ha).1, fun b hb => by
          rcases (hseen a ha).2 b hb with hb | hb
          · exact .inl hb
          · rcases List.mem_cons.mp hb with rfl | hb
            · exact .inl hmem
            · exact .inr hb⟩) h
        intro a ha
        rcases ha with ha | ha
        · exact hrest a (.inl ha)
        · rcases List.mem_cons.mp ha with rfl | ha
          · exact hrest a (.inl hmem)
          · exact hrest a (.inr ha)
      · rename_i hnew
        have hexpand := weight_expand hnew (hnodes current)
        have hlength : ((succ current).reverse ++ stack).length =
            (succ current).length + stack.length := by
          rw [List.length_append, List.length_reverse]
        have hrest := ih (by omega) (fun a ha => by
          rcases List.mem_cons.mp ha with rfl | ha
          · refine ⟨hother, fun b hb => ?_⟩
            exact .inr (List.mem_append_left _ (List.mem_reverse.mpr hb))
          · refine ⟨(hseen a ha).1, fun b hb => ?_⟩
            rcases (hseen a ha).2 b hb with hb | hb
            · exact .inl (List.mem_cons_of_mem _ hb)
            · rcases List.mem_cons.mp hb with rfl | hb
              · exact .inl List.mem_cons_self
              · exact .inr (List.mem_append_right _ hb)) h
        intro a ha
        rcases ha with ha | ha
        · exact hrest a (.inl (List.mem_cons_of_mem _ ha))
        · rcases List.mem_cons.mp ha with rfl | ha
          · exact hrest a (.inl List.mem_cons_self)
          · exact hrest a (.inr (List.mem_append_right _ ha))

theorem search_iff {nodes : List α} (hnodes : ∀ a, succ a ≠ [] → a ∈ nodes) {fuel : ℕ}
    {stack : List α} (hfuel : stack.length + weight succ nodes [] < fuel) :
    search succ target fuel [] stack = true ↔
      ∃ a ∈ stack, Relation.ReflTransGen (Edge succ) a target := by
  constructor
  · exact reachable_of_search
  · rintro ⟨a, ha, hpath⟩
    by_contra hfalse
    have hnone := not_reachable_of_search hnodes hfuel
      (fun b hb => absurd hb List.not_mem_nil) (Bool.eq_false_iff.mpr hfalse)
    exact hnone a (.inr ha) hpath

end Search

section Acyclic

variable {succ succ' : α → List α} {x : α}

theorem Acyclic.mono (h : Acyclic succ) (hsub : ∀ a, ∀ b ∈ succ' a, b ∈ succ a) :
    Acyclic succ' := by
  intro a hcycle
  exact h a (Relation.TransGen.mono hsub _ _ hcycle)

theorem reflTransGen_until {a : α} (h : Relation.ReflTransGen (Edge succ) a x) :
    Relation.ReflTransGen (fun b c => Edge succ b c ∧ b ≠ x) a x := by
  induction h using Relation.ReflTransGen.head_induction_on with
  | refl => exact .refl
  | head hedge _ ih =>
    rename_i b c _
    by_cases hb : b = x
    · rw [hb]
    · exact .head ⟨hedge, hb⟩ ih

theorem acyclic_iff : Acyclic succ ↔ ∀ a, ∀ b ∈ succ a,
    ¬Relation.ReflTransGen (fun c d => Edge succ c d ∧ c ≠ a) b a := by
  constructor
  · intro h a b hb hpath
    have hpath' : Relation.ReflTransGen (Edge succ) b a :=
      Relation.ReflTransGen.mono (fun _ _ hedge => hedge.1) _ _ hpath
    exact h a (Relation.TransGen.head' hb hpath')
  · intro h a hcycle
    obtain ⟨b, hb, hpath⟩ := Relation.TransGen.head'_iff.mp hcycle
    exact h a b hb (reflTransGen_until hpath)

/-- New edges of one node close no cycle where their ends do not reach the node without them. -/
theorem Acyclic.attach (h : Acyclic succ) (hothers : ∀ a, a ≠ x → ∀ b ∈ succ' a, b ∈ succ a)
    (hends : ∀ b ∈ succ' x, ¬Relation.ReflTransGen (fun c d => Edge succ' c d ∧ c ≠ x) b x) :
    Acyclic succ' := by
  intro a hcycle
  by_cases hthrough : ∃ b, Edge succ' x b ∧ Relation.ReflTransGen (Edge succ') b a ∧
      Relation.ReflTransGen (Edge succ') a x
  · obtain ⟨b, hb, hback, hforth⟩ := hthrough
    exact hends b hb (reflTransGen_until (hback.trans hforth))
  · -- the cycle keeps away from the node
    have hold : ∀ b, Relation.TransGen (Edge succ') a b →
        Relation.ReflTransGen (Edge succ') b a → Relation.TransGen (Edge succ) a b := by
      intro b hb
      induction hb with
      | single hab =>
        rename_i b
        intro hback
        have hne : a ≠ x := fun heq => hthrough ⟨b, heq ▸ hab, hback, heq ▸ .refl⟩
        exact .single (hothers a hne b hab)
      | tail hab hbc ih =>
        rename_i b c
        intro hback
        have hne : b ≠ x := fun heq => hthrough ⟨c, heq ▸ hbc, hback, heq ▸ hab.to_reflTransGen⟩
        exact .tail (ih (.head hbc hback)) (hothers b hne c hbc)
    exact h a (hold a hcycle .refl)

end Acyclic

end GraphSearch
